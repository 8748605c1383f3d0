import TabFtp.OpLockEntries

/-!
# No waiter is forgotten

The manager together with the events it has sent.  A waiting entry is kept
back by a held entry of another record, or its control socket is going to look
at it again.
-/

namespace TabFtp

open OpLockManager

universe u

/-- The manager and the `CObtainLockEvent`s that are not delivered yet, each
given by its control socket. -/
structure OpLockQueue (Socket : Type u) where
  state : OpLockState Socket
  undelivered : List Socket

inductive OpLockQueueInput (Socket : Type u)
  | call (input : OpLockInput Socket)
  | deliver (socket : Socket)

variable {Socket : Type u} [DecidableEq Socket]

/-- A call of the manager, or the delivery of an event, which makes
`OnObtainLock` call `ObtainWaiting`. -/
def opLockQueueStep (queue : OpLockQueue Socket) :
    OpLockQueueInput Socket → Option (OpLockQueue Socket × List Socket)
  | .call input =>
      match opLockStep queue.state input with
      | none => none
      | some (state, events) =>
          some (⟨state, queue.undelivered ++ events⟩, events)
  | .deliver socket =>
      if socket ∈ queue.undelivered then
        match opLockStep queue.state (.obtainWaiting socket) with
        | none => none
        | some (state, events) =>
            some (⟨state, queue.undelivered.erase socket ++ events⟩, events)
      else none

def opLockQueueMachine (Socket : Type u) [DecidableEq Socket] :
    LabelledRuns.Machine (OpLockQueue Socket) (OpLockQueueInput Socket)
      Socket where
  initial queue :=
    (opLockMachine Socket).initial queue.state ∧ queue.undelivered = []
  step := opLockQueueStep

def OpLockManager.KeptBack (manager : OpLockManager Socket)
    (handle : OpLock) (lock : LockInfo) : Prop :=
  ∃ place owner held, place.socket ≠ handle.socket ∧
    manager.ownedEntry place = some (owner, held) ∧ held.blocks lock = true

omit [DecidableEq Socket] in
theorem held_of_blocks {lock request : LockInfo}
    (hblocks : lock.blocks request = true) :
    lock.waiting = false ∧ lock.released = false := by
  have hheld := (LockInfo.blocks_iff lock request).mp hblocks
  simpa [LockInfo.held] using hheld.2.1

omit [DecidableEq Socket] in
theorem OpLockManager.KeptBack.mono {manager following : OpLockManager Socket}
    {handle : OpLock} {lock : LockInfo}
    (hback : manager.KeptBack handle lock)
    (hheld : ∀ place owner held, held.waiting = false →
      held.released = false → manager.ownedEntry place = some (owner, held) →
      following.ownedEntry place = some (owner, held)) :
    following.KeptBack handle lock := by
  rcases hback with ⟨place, owner, held, hne, hentry, hblocks⟩
  have hgranted := held_of_blocks hblocks
  exact ⟨place, owner, held, hne,
    hheld place owner held hgranted.1 hgranted.2 hentry, hblocks⟩

/-- What every waiting entry can rely on. -/
structure Attended (manager : OpLockManager Socket)
    (undelivered : List Socket) : Prop where
  one : OneRecordEach manager.socketLocks
  tidy : Tidy manager.socketLocks
  unreleased : ∀ sli ∈ manager.socketLocks, ∀ lock ∈ sli.locks,
    lock.waiting = true → lock.released = false
  attended : ∀ handle owner lock,
    manager.ownedEntry handle = some (owner, lock) → lock.waiting = true →
    manager.KeptBack handle lock ∨
      ∃ socket ∈ undelivered, owner = some socket

omit [DecidableEq Socket] in
theorem Attended.unreleased_at {manager : OpLockManager Socket}
    {undelivered : List Socket} (hinv : Attended manager undelivered)
    {handle : OpLock} {owner : Option Socket} {lock : LockInfo}
    (hentry : manager.ownedEntry handle = some (owner, lock))
    (hwaiting : lock.waiting = true) : lock.released = false := by
  rcases ownedEntry_eq_some_iff.mp hentry with ⟨sli, hsli, hlock, _⟩
  exact hinv.unreleased sli (List.mem_of_getElem? hsli) lock
    (List.mem_of_getElem? hlock) hwaiting

omit [DecidableEq Socket] in
theorem unreleased_of_entries {manager : OpLockManager Socket}
    (hall : ∀ handle owner lock,
      manager.ownedEntry handle = some (owner, lock) → lock.waiting = true →
      lock.released = false) :
    ∀ sli ∈ manager.socketLocks, ∀ lock ∈ sli.locks,
      lock.waiting = true → lock.released = false := by
  intro sli hsli lock hlock
  rcases List.mem_iff_getElem?.mp hsli with ⟨i, hi⟩
  rcases List.mem_iff_getElem?.mp hlock with ⟨j, hj⟩
  exact hall ⟨i, j⟩ sli.controlSocket lock
    (ownedEntry_eq_some_iff.mpr ⟨sli, hi, hj, rfl⟩)

/-! ## One step -/

theorem Attended.lock {manager : OpLockManager Socket}
    {undelivered : List Socket} (hinv : Attended manager undelivered)
    (currentServer : Server) (socket : Socket) (reason : LockingReason)
    (path : ServerPath) (inclusive : Bool) :
    Attended (manager.lock currentServer socket reason path inclusive).1
      undelivered := by
  rcases manager.lock_ownedEntry currentServer socket reason path inclusive
    with ⟨info, _, _, _, hreleased, hentries, hfresh, hblocked⟩
  have hkept : ∀ place owner held,
      manager.ownedEntry place = some (owner, held) →
      (manager.lock currentServer socket reason path
        inclusive).1.ownedEntry place = some (owner, held) := by
    intro place owner held hentry
    rw [hentries, if_neg, hentry]
    rintro rfl
    rw [hfresh] at hentry
    cases hentry
  have hmono : ∀ {handle lock}, manager.KeptBack handle lock →
      (manager.lock currentServer socket reason path
        inclusive).1.KeptBack handle lock := by
    intro handle lock hback
    exact hback.mono fun place owner held _ _ => hkept place owner held
  refine {
    one := lock_oneRecordEach hinv.one currentServer socket reason path
      inclusive
    tidy := lock_tidy hinv.tidy currentServer socket reason path inclusive
    unreleased := unreleased_of_entries ?_
    attended := ?_ }
  · intro handle owner lock hentry hwaiting
    rw [hentries] at hentry
    split_ifs at hentry
    · cases hentry
      exact hreleased
    · exact hinv.unreleased_at hentry hwaiting
  · intro handle owner lock hentry hwaiting
    rw [hentries] at hentry
    split_ifs at hentry with hnew
    · cases hentry
      rw [hnew]
      exact Or.inl (hmono (hblocked hwaiting))
    · rcases hinv.attended handle owner lock hentry hwaiting with
        hback | hsent
      · exact Or.inl (hmono hback)
      · exact Or.inr hsent

omit [DecidableEq Socket] in
theorem mem_wakeup {manager : OpLockManager Socket}
    (htidy : Tidy manager.socketLocks) {handle : OpLock}
    {owner : Option Socket} {lock : LockInfo}
    (hentry : manager.ownedEntry handle = some (owner, lock))
    (hwaiting : lock.waiting = true) :
    ∃ socket ∈ manager.wakeup, owner = some socket := by
  rcases ownedEntry_eq_some_iff.mp hentry with ⟨sli, hsli, hlock, howner⟩
  have hmem := List.mem_of_getElem? hsli
  cases howned : sli.controlSocket with
  | none =>
      rw [htidy sli hmem howned] at hlock
      cases hlock
  | some socket =>
      refine ⟨socket, ?_, howner.symm.trans howned⟩
      apply List.mem_filterMap.mpr
      refine ⟨sli, hmem, ?_⟩
      rw [if_pos, howned]
      exact List.any_eq_true.mpr ⟨lock, List.mem_of_getElem? hlock, hwaiting⟩

omit [DecidableEq Socket] in
theorem Attended.unlock {manager following : OpLockManager Socket}
    {undelivered events : List Socket} (hinv : Attended manager undelivered)
    {handle : OpLock}
    (hunlock : manager.unlock handle = some (following, events)) :
    Attended following (undelivered ++ events) := by
  have hunreleased : ∀ sli ∈ following.socketLocks, ∀ lock ∈ sli.locks,
      lock.waiting = true → lock.released = false := by
    intro sli hsli lock hlock hwaiting
    rcases unlock_waiting hunlock hsli hlock hwaiting with
      ⟨before, hbefore, hmem⟩
    exact hinv.unreleased before hbefore lock hmem hwaiting
  have htidy := unlock_tidy hinv.tidy hunlock
  refine {
    one := unlock_oneRecordEach hinv.one hunlock
    tidy := htidy
    unreleased := hunreleased
    attended := ?_ }
  intro place owner lock hentry hwaiting
  have hkeep : lock.released = false := by
    rcases ownedEntry_eq_some_iff.mp hentry with ⟨sli, hsli, hlock, _⟩
    exact hunreleased sli (List.mem_of_getElem? hsli) lock
      (List.mem_of_getElem? hlock) hwaiting
  have hbefore := (unlock_ownedEntry hinv.tidy hunlock place hkeep).mp hentry
  rcases unlock_events hunlock with ⟨unlockedOwner, unlocked, hunlocked, hsent⟩
  by_cases hwaited : unlocked.waiting = true
  · -- a held entry is not the one that is unlocked
    rcases hinv.attended place owner lock hbefore.1 hwaiting with
      hback | hpending
    · apply Or.inl
      apply hback.mono
      intro other otherOwner held hgranted hreleased hother
      rw [unlock_ownedEntry hinv.tidy hunlock other hreleased]
      refine ⟨hother, ?_⟩
      rintro rfl
      rw [hunlocked, Option.some.injEq, Prod.mk.injEq] at hother
      rw [← hother.2, hwaited] at hgranted
      cases hgranted
    · rcases hpending with ⟨socket, hmem, howner⟩
      exact Or.inr ⟨socket, List.mem_append_left _ hmem, howner⟩
  · apply Or.inr
    rcases mem_wakeup htidy hentry hwaiting with ⟨socket, hmem, howner⟩
    rw [hsent, if_neg hwaited]
    exact ⟨socket, List.mem_append_right _ hmem, howner⟩

theorem Attended.obtainWaiting {manager : OpLockManager Socket}
    {undelivered later : List Socket} (hinv : Attended manager undelivered)
    (socket : Socket)
    (hlater : ∀ other ∈ undelivered, other ≠ socket → other ∈ later) :
    Attended (manager.obtainWaiting socket) later := by
  have hentries := obtainWaiting_ownedEntry hinv.one socket
  have hkept : ∀ place owner held, held.waiting = false →
      held.released = false → manager.ownedEntry place = some (owner, held) →
      (manager.obtainWaiting socket).ownedEntry place = some (owner, held) := by
    intro place owner held hgranted hreleased hentry
    have hheld : held.held = true := by
      simp [LockInfo.held, hgranted, hreleased]
    rw [hentries, hentry, Option.map_some, obtain_of_held _ hheld, ite_self]
  refine {
    one := hinv.one.keepsPlaces (obtainIn_keepsPlaces socket [] _)
    tidy := obtainWaiting_tidy hinv.tidy socket
    unreleased := unreleased_of_entries ?_
    attended := ?_ }
  · intro handle owner lock hentry hwaiting
    rw [hentries] at hentry
    rcases Option.map_eq_some_iff.mp hentry with ⟨before, hbefore, heq⟩
    cases heq
    split_ifs at hwaiting ⊢
    · rw [obtain_released]
      exact hinv.unreleased_at hbefore (waiting_of_obtain hwaiting).1
    · exact hinv.unreleased_at hbefore hwaiting
  · intro handle owner lock hentry hwaiting
    rw [hentries] at hentry
    rcases Option.map_eq_some_iff.mp hentry with ⟨before, hbefore, heq⟩
    cases heq
    by_cases howner : before.1 = some socket
    · rw [if_pos howner] at hwaiting ⊢
      rcases waiting_of_obtain hwaiting with ⟨_, hsame, other, hother, hblocks⟩
      rcases hblocks with ⟨held, hheld, hblocks⟩
      rcases mem_others_iff.mp hother with ⟨i, hne, hi⟩
      rcases List.mem_iff_getElem?.mp hheld with ⟨j, hj⟩
      rw [hsame]
      apply Or.inl
      have hback : manager.KeptBack handle before.2 :=
        ⟨⟨i, j⟩, other.controlSocket, held, hne,
          ownedEntry_eq_some_iff.mpr ⟨other, hi, hj, rfl⟩, hblocks⟩
      exact hback.mono hkept
    · rw [if_neg howner] at hwaiting ⊢
      rcases hinv.attended handle before.1 before.2 hbefore hwaiting with
        hback | ⟨other, hmem, hsame⟩
      · exact Or.inl (hback.mono hkept)
      · refine Or.inr ⟨other, hlater other hmem ?_, hsame⟩
        rintro rfl
        exact howner hsame

/-! ## Whole runs -/

theorem Attended.call {state following : OpLockState Socket}
    {undelivered events : List Socket}
    (hinv : Attended state.manager undelivered) {input : OpLockInput Socket}
    (hstep : opLockStep state input = some (following, events)) :
    Attended following.manager (undelivered ++ events) := by
  cases input with
  | lock socket reason path inclusive =>
      cases hstep
      rw [List.append_nil]
      exact hinv.lock _ socket reason path inclusive
  | unlock handle =>
      rcases Option.map_eq_some_iff.mp hstep with ⟨result, hunlock, heq⟩
      cases heq
      exact hinv.unlock hunlock
  | obtainWaiting socket =>
      cases hstep
      rw [List.append_nil]
      exact hinv.obtainWaiting socket fun other hmem _ => hmem
  | serverChanges socket server =>
      cases hstep
      rw [List.append_nil]
      exact hinv

/-- In every run a lock that waits is blocked, or its socket will be told. -/
theorem reachable_attended {inputs : List (OpLockQueueInput Socket)}
    {events : List Socket} {queue : OpLockQueue Socket}
    (hreach : (opLockQueueMachine Socket).Reaches inputs events queue) :
    Attended queue.state.manager queue.undelivered := by
  apply hreach.stateInvariant
    (fun queue => Attended queue.state.manager queue.undelivered)
  · intro initial hinit
    have hempty : initial.state.manager.socketLocks = [] := hinit.1
    refine {
      one := ?_
      tidy := ?_
      unreleased := ?_
      attended := ?_ }
    · intro i j socket sli other hi
      rw [hempty] at hi
      cases hi
    · intro sli hmem
      rw [hempty] at hmem
      cases hmem
    · intro sli hmem
      rw [hempty] at hmem
      cases hmem
    · intro handle owner lock hentry
      rcases ownedEntry_eq_some_iff.mp hentry with ⟨sli, hsli, _⟩
      rw [hempty] at hsli
      cases hsli
  · intro current input following answer hinv _ hstep
    change opLockQueueStep current input = some (following, answer) at hstep
    unfold opLockQueueStep at hstep
    cases input with
    | call input =>
        cases hcall : opLockStep current.state input with
        | none => simp [hcall] at hstep
        | some result =>
            simp only [hcall] at hstep
            cases hstep
            exact hinv.call hcall
    | deliver socket =>
        simp only [opLockStep] at hstep
        split_ifs at hstep
        cases hstep
        apply hinv.obtainWaiting socket
        intro other hmem hne
        rw [List.append_nil]
        exact (List.mem_erase_of_ne hne).mpr hmem

/-- Whatever the order of the calls and deliveries is, a waiting entry is kept
back by a held one, or its control socket has an event to come. -/
theorem no_waiter_forgotten {inputs : List (OpLockQueueInput Socket)}
    {events : List Socket} {queue : OpLockQueue Socket}
    (hreach : (opLockQueueMachine Socket).Reaches inputs events queue)
    {index : ℕ} {sli : SocketLockInfo Socket} {lock : LockInfo}
    (hsli : queue.state.manager.socketLocks[index]? = some sli)
    (hlock : lock ∈ sli.locks) (hwaiting : lock.waiting = true) :
    (∃ j other, j ≠ index ∧
        queue.state.manager.socketLocks[j]? = some other ∧
        ∃ held ∈ other.locks, held.held = true ∧
          held.reason = lock.reason ∧ held.overlaps lock = true) ∨
      ∃ socket ∈ queue.undelivered, sli.controlSocket = some socket := by
  rcases List.mem_iff_getElem?.mp hlock with ⟨i, hi⟩
  have hentry : queue.state.manager.ownedEntry ⟨index, i⟩ =
      some (sli.controlSocket, lock) :=
    ownedEntry_eq_some_iff.mpr ⟨sli, hsli, hi, rfl⟩
  rcases (reachable_attended hreach).attended _ _ _ hentry hwaiting with
    ⟨place, owner, held, hne, hplace, hblocks⟩ | hsent
  · rcases ownedEntry_eq_some_iff.mp hplace with ⟨other, hother, hheld, _⟩
    rcases (LockInfo.blocks_iff held lock).mp hblocks with
      ⟨hreason, hgranted, hoverlaps⟩
    exact Or.inl ⟨place.socket, other, hne, hother, held,
      List.mem_of_getElem? hheld, hgranted, hreason.symm, hoverlaps⟩
  · exact Or.inr hsent

/-- The first of two sockets that list a directory is done with it. -/
theorem no_waiter_forgotten_released :
    let manager : OpLockManager ℕ :=
      ⟨[⟨.onHost 'h', none, []⟩, ⟨.onHost 'h', some 1, [.listRoot true]⟩]⟩
    (∃ j other, j ≠ 1 ∧ manager.socketLocks[j]? = some other ∧
        ∃ held ∈ other.locks, held.held = true ∧ held.reason = .list ∧
          held.overlaps (.listRoot true) = true) ∨
      ∃ socket ∈ [1], some 1 = some socket := by
  intro manager
  let initial : OpLockQueue ℕ := ⟨⟨⟨[]⟩, fun _ => .onHost 'h'⟩, []⟩
  have hexec : (opLockQueueMachine ℕ).exec (fun _ _ => True) initial
      [.call (.lock 0 .list (LockInfo.listRoot true).path false),
        .call (.lock 1 .list (LockInfo.listRoot true).path false),
        .call (.unlock ⟨0, 0⟩)] =
      some (⟨⟨manager, fun _ => .onHost 'h'⟩, [1]⟩, [1]) := rfl
  have hinitial : (opLockQueueMachine ℕ).initial initial := ⟨rfl, rfl⟩
  exact no_waiter_forgotten
    (LabelledRuns.Machine.ReachesWithin.exec (.start hinitial) hexec)
    (rfl : manager.socketLocks[1]? =
      some ⟨.onHost 'h', some 1, [.listRoot true]⟩)
    List.mem_cons_self rfl

end TabFtp
