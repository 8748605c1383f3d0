import TabFtp.OpLockExclusion

/-!
# Two copies of the conflict test

`Lock` tests a new entry against the entries of other sockets, and
`ObtainWaiting` tests a waiting entry again.  Only the first of them looks at
the servers, so a waiting entry can be kept back by an entry for another
server.  Apart from that the two tests agree.
-/

namespace TabFtp

universe u

variable {Socket : Type u}

def OneRecordEach (socketLocks : List (SocketLockInfo Socket)) : Prop :=
  ∀ (i j : ℕ) (socket : Socket) (sli other : SocketLockInfo Socket),
    socketLocks[i]? = some sli → socketLocks[j]? = some other →
    sli.controlSocket = some socket → other.controlSocket = some socket →
    i = j

def KeepsPlaces (before after : List (SocketLockInfo Socket)) : Prop :=
  ∀ (i : ℕ) (socket : Socket) (sli : SocketLockInfo Socket),
    after[i]? = some sli → sli.controlSocket = some socket →
    ∃ old, before[i]? = some old ∧ old.controlSocket = some socket

theorem OneRecordEach.keepsPlaces
    {before after : List (SocketLockInfo Socket)}
    (hone : OneRecordEach before) (hkeeps : KeepsPlaces before after) :
    OneRecordEach after := by
  intro i j socket sli other hi hj hsli hother
  obtain ⟨oldI, hbeforeI, holdI⟩ := hkeeps i socket sli hi hsli
  obtain ⟨oldJ, hbeforeJ, holdJ⟩ := hkeeps j socket other hj hother
  exact hone i j socket oldI oldJ hbeforeI hbeforeJ holdI holdJ

theorem keepsPlaces_of_prefix
    {before after : List (SocketLockInfo Socket)} (hkept : after <+: before) :
    KeepsPlaces before after := by
  intro i socket sli hget hsocket
  rcases hkept with ⟨rest, rfl⟩
  have hlt : i < after.length := (List.getElem?_eq_some_iff.mp hget).1
  refine ⟨sli, ?_, hsocket⟩
  rw [List.getElem?_append_left hlt]
  exact hget

theorem keepsPlaces_set
    {socketLocks : List (SocketLockInfo Socket)} {index : ℕ}
    {old replaced : SocketLockInfo Socket}
    (hget : socketLocks[index]? = some old)
    (hsocket : replaced.controlSocket = old.controlSocket ∨
      replaced.controlSocket = none) :
    KeepsPlaces socketLocks (socketLocks.set index replaced) := by
  intro i socket sli hi hsli
  by_cases heq : index = i
  · subst heq
    have hlt := (List.getElem?_eq_some_iff.mp hget).1
    rw [List.getElem?_set_self hlt, Option.some.injEq] at hi
    subst hi
    refine ⟨old, hget, ?_⟩
    rcases hsocket with hsame | hnone
    · rw [← hsame, hsli]
    · rw [hnone] at hsli
      cases hsli
  · rw [List.getElem?_set_ne heq] at hi
    exact ⟨sli, hi, hsli⟩

theorem OneRecordEach.append
    {socketLocks : List (SocketLockInfo Socket)}
    {record : SocketLockInfo Socket} (hone : OneRecordEach socketLocks)
    (hfresh : ∀ sli ∈ socketLocks, ∀ socket,
      record.controlSocket = some socket → sli.controlSocket ≠ some socket) :
    OneRecordEach (socketLocks ++ [record]) := by
  have hplace : ∀ (i : ℕ) (sli : SocketLockInfo Socket),
      (socketLocks ++ [record])[i]? = some sli →
      socketLocks[i]? = some sli ∨ i = socketLocks.length ∧ sli = record := by
    intro i sli hget
    by_cases hlt : i < socketLocks.length
    · rw [List.getElem?_append_left hlt] at hget
      exact Or.inl hget
    · rw [List.getElem?_append_right (by omega),
        List.getElem?_singleton] at hget
      split_ifs at hget with hzero
      exact Or.inr ⟨by omega, (Option.some.inj hget).symm⟩
  intro i j socket sli other hi hj hsli hother
  rcases hplace i sli hi with holdI | ⟨hlastI, rfl⟩
  · rcases hplace j other hj with holdJ | ⟨hlastJ, rfl⟩
    · exact hone i j socket sli other holdI holdJ hsli hother
    · exact absurd hsli
        (hfresh sli (List.mem_of_getElem? holdI) socket hother)
  · rcases hplace j other hj with holdJ | ⟨hlastJ, _⟩
    · exact absurd hother
        (hfresh other (List.mem_of_getElem? holdJ) socket hsli)
    · omega

variable [DecidableEq Socket]

namespace OpLockManager

theorem getOrCreate_oneRecordEach
    {manager : OpLockManager Socket}
    (hone : OneRecordEach manager.socketLocks) (socket : Socket)
    (currentServer : Server) :
    OneRecordEach (manager.getOrCreate socket currentServer).1.socketLocks := by
  unfold getOrCreate
  cases hfind : manager.socketLocks.findIdx?
      (fun sli => sli.controlSocket == some socket) with
  | some index => exact hone
  | none =>
      apply hone.append
      intro sli hmem owner howner hsli
      have hdiffers := List.findIdx?_eq_none_iff.mp hfind sli hmem
      simp only [Option.some.injEq] at howner
      rw [hsli, howner] at hdiffers
      simp at hdiffers

theorem lock_oneRecordEach
    {manager : OpLockManager Socket}
    (hone : OneRecordEach manager.socketLocks) (currentServer : Server)
    (socket : Socket) (reason : LockingReason) (path : ServerPath)
    (inclusive : Bool) :
    OneRecordEach
      (manager.lock currentServer socket reason path
        inclusive).1.socketLocks := by
  have hcreated := getOrCreate_oneRecordEach hone socket currentServer
  obtain ⟨sli, hget, _⟩ := manager.getOrCreate_spec socket currentServer
  simp only [lock, hget]
  exact hcreated.keepsPlaces (keepsPlaces_set hget (Or.inl rfl))

omit [DecidableEq Socket] in
theorem unlock_oneRecordEach
    {manager following : OpLockManager Socket} {handle : OpLock}
    {events : List Socket} (hone : OneRecordEach manager.socketLocks)
    (hunlock : manager.unlock handle = some (following, events)) :
    OneRecordEach following.socketLocks := by
  apply hone.keepsPlaces
  unfold OpLockManager.unlock at hunlock
  cases hsli : manager.socketLocks[handle.socket]? with
  | none => simp [hsli] at hunlock
  | some record =>
      cases hlock : record.locks[handle.lock]? with
      | none => simp [hsli, hlock] at hunlock
      | some lock =>
          simp only [hsli, hlock, Option.some.injEq, Prod.mk.injEq]
            at hunlock
          rw [← hunlock.1]
          unfold OpLockManager.removeLast
          simp only
          split_ifs
          · apply keepsPlaces_of_prefix
            exact (List.rdropWhile_prefix _ _).trans
              (List.dropLast_prefix _)
          · exact keepsPlaces_set hsli (Or.inr rfl)
          · exact keepsPlaces_set hsli (Or.inl rfl)
          · exact keepsPlaces_set hsli (Or.inl rfl)

/-! ## One pass of `ObtainWaiting` -/

theorem obtainIn_absent
    {socket : Socket} (before : List (SocketLockInfo Socket))
    {rest : List (SocketLockInfo Socket)}
    (habsent : ∀ sli ∈ rest, sli.controlSocket ≠ some socket) :
    obtainIn socket before rest = before ++ rest := by
  induction rest generalizing before with
  | nil => simp [obtainIn]
  | cons record rest ih =>
      have hother := habsent record List.mem_cons_self
      rw [obtainIn, if_neg hother, ih]
      · simp
      · intro sli hmem
        exact habsent sli (List.mem_cons_of_mem record hmem)

theorem obtainIn_present
    {socket : Socket} (before : List (SocketLockInfo Socket))
    {left right : List (SocketLockInfo Socket)}
    {record : SocketLockInfo Socket}
    (hleft : ∀ sli ∈ left, sli.controlSocket ≠ some socket)
    (hrecord : record.controlSocket = some socket)
    (hright : ∀ sli ∈ right, sli.controlSocket ≠ some socket) :
    obtainIn socket before (left ++ record :: right) =
      before ++ left ++
        { record with
          locks := record.locks.map
            (obtain (before ++ left ++ right)) } :: right := by
  induction left generalizing before with
  | nil =>
      rw [List.nil_append, obtainIn, if_pos hrecord,
        obtainIn_absent _ hright]
      simp
  | cons first left ih =>
      have hother := hleft first List.mem_cons_self
      rw [List.cons_append, obtainIn, if_neg hother, ih]
      · simp
      · intro sli hmem
        exact hleft sli (List.mem_cons_of_mem first hmem)

theorem obtainIn_keepsPlaces
    (socket : Socket) (before rest : List (SocketLockInfo Socket)) :
    KeepsPlaces (before ++ rest) (obtainIn socket before rest) := by
  induction rest generalizing before with
  | nil =>
      rw [obtainIn, List.append_nil]
      intro i owner sli hget hsocket
      exact ⟨sli, hget, hsocket⟩
  | cons record rest ih =>
      unfold obtainIn
      split_ifs with hrecord
      · intro i owner sli hget hsocket
        obtain ⟨middle, hmiddle, hmiddleSocket⟩ :=
          ih _ i owner sli hget hsocket
        by_cases hlt : i < before.length
        · refine ⟨middle, ?_, hmiddleSocket⟩
          rw [List.append_assoc, List.getElem?_append_left hlt] at hmiddle
          rw [List.getElem?_append_left hlt]
          exact hmiddle
        · rw [List.append_assoc, List.getElem?_append_right (by omega)]
            at hmiddle
          rw [List.getElem?_append_right (by omega)]
          cases hplace : i - before.length with
          | zero =>
              rw [hplace] at hmiddle
              have heq := Option.some.inj hmiddle
              refine ⟨record, rfl, ?_⟩
              rw [← heq] at hmiddleSocket
              exact hmiddleSocket
          | succ k =>
              rw [hplace] at hmiddle
              exact ⟨middle, hmiddle, hmiddleSocket⟩
      · intro i owner sli hget hsocket
        obtain ⟨middle, hmiddle, hmiddleSocket⟩ :=
          ih _ i owner sli hget hsocket
        refine ⟨middle, ?_, hmiddleSocket⟩
        rw [List.append_assoc] at hmiddle
        exact hmiddle

end OpLockManager

/-- In every run a socket has at most one record. -/
theorem reachable_oneRecordEach
    {inputs : List (OpLockInput Socket)} {events : List Socket}
    {state : OpLockState Socket}
    (hreach : (opLockMachine Socket).Reaches inputs events state) :
    OneRecordEach state.manager.socketLocks := by
  refine hreach.stateInvariant
    (fun state => OneRecordEach state.manager.socketLocks) ?_ ?_
  · intro initial hinit i j socket sli other hi
    have hempty : initial.manager.socketLocks = [] := hinit
    simp [hempty] at hi
  · intro current input following answer hone _ hstep
    cases input with
    | lock owner reason path inclusive =>
        simp only [opLockMachine, opLockStep, Option.some.injEq,
          Prod.mk.injEq] at hstep
        rw [← hstep.1]
        exact OpLockManager.lock_oneRecordEach hone _ _ _ _ _
    | unlock handle =>
        simp only [opLockMachine, opLockStep, Option.map_eq_some_iff,
          Prod.mk.injEq] at hstep
        obtain ⟨result, hunlock, hfollowing, _⟩ := hstep
        rw [← hfollowing]
        exact OpLockManager.unlock_oneRecordEach hone hunlock
    | obtainWaiting owner =>
        simp only [opLockMachine, opLockStep, Option.some.injEq,
          Prod.mk.injEq] at hstep
        rw [← hstep.1]
        exact hone.keepsPlaces
          (OpLockManager.obtainIn_keepsPlaces owner []
            current.manager.socketLocks)
    | serverChanges owner server =>
        simp only [opLockMachine, opLockStep, Option.some.injEq,
          Prod.mk.injEq] at hstep
        rw [← hstep.1]
        exact hone

/-! ## Agreement -/

namespace OpLockManager

omit [DecidableEq Socket] in
theorem others_of_oneRecordEach
    {socketLocks : List (SocketLockInfo Socket)} {index : ℕ}
    {record : SocketLockInfo Socket} {socket : Socket}
    (hone : OneRecordEach socketLocks)
    (hget : socketLocks[index]? = some record)
    (hsocket : record.controlSocket = some socket) :
    (∀ sli ∈ socketLocks.take index, sli.controlSocket ≠ some socket) ∧
      ∀ sli ∈ socketLocks.drop (index + 1), sli.controlSocket ≠ some socket := by
  constructor
  · intro sli hmem hsame
    obtain ⟨k, hk⟩ := List.mem_iff_getElem?.mp hmem
    have hlt : k < index := by
      by_contra hge
      rw [List.getElem?_take_eq_none (by omega)] at hk
      cases hk
    rw [List.getElem?_take_of_lt hlt] at hk
    have heq := hone k index socket sli record hk hget hsame hsocket
    omega
  · intro sli hmem hsame
    obtain ⟨k, hk⟩ := List.mem_iff_getElem?.mp hmem
    rw [List.getElem?_drop] at hk
    have heq := hone (index + 1 + k) index socket sli record hk hget hsame
      hsocket
    omega

/-- The entry that an `OpLock` stands for. -/
def entry (manager : OpLockManager Socket) (handle : OpLock) :
    Option LockInfo :=
  match manager.socketLocks[handle.socket]? with
  | none => none
  | some sli => sli.locks[handle.lock]?

/-- The manager without one entry. -/
def leaveOut (manager : OpLockManager Socket) (handle : OpLock) :
    OpLockManager Socket :=
  match manager.socketLocks[handle.socket]? with
  | none => manager
  | some sli =>
      { socketLocks := manager.socketLocks.set handle.socket
          { sli with locks := sli.locks.eraseIdx handle.lock } }

def granted (manager : OpLockManager Socket) (handle : OpLock) : Prop :=
  ∃ lock, manager.entry handle = some lock ∧ lock.waiting = false

/-- A call of `Lock` for the socket with the arguments of an entry does not
have to wait. -/
def grantsAtOnce (manager : OpLockManager Socket) (currentServer : Server)
    (socket : Socket) (lock : LockInfo) : Prop :=
  let result := manager.lock currentServer socket lock.reason lock.path
    lock.inclusive
  result.1.granted result.2

/-- An entry of another record keeps `lock` waiting.  The other record is for
the same server, or for another one. -/
def heldBack (manager : OpLockManager Socket) (handle : OpLock)
    (lock : LockInfo) (sameServer : Bool) : Prop :=
  ∃ sli other index, manager.socketLocks[handle.socket]? = some sli ∧
    index ≠ handle.socket ∧ manager.socketLocks[index]? = some other ∧
    other.server.same sli.server = sameServer ∧
    ∃ held ∈ other.locks, held.blocks lock = true

omit [DecidableEq Socket] in
theorem split_at
    {socketLocks : List (SocketLockInfo Socket)} {index : ℕ}
    {sli : SocketLockInfo Socket} (hget : socketLocks[index]? = some sli) :
    socketLocks =
      socketLocks.take index ++ sli :: socketLocks.drop (index + 1) := by
  obtain ⟨hlt, hsli⟩ := List.getElem?_eq_some_iff.mp hget
  rw [← hsli, ← List.drop_eq_getElem_cons hlt, List.take_append_drop]

omit [DecidableEq Socket] in
theorem mem_others_iff
    {socketLocks : List (SocketLockInfo Socket)} {index : ℕ}
    {other : SocketLockInfo Socket} :
    other ∈ socketLocks.take index ++ socketLocks.drop (index + 1) ↔
      ∃ k, k ≠ index ∧ socketLocks[k]? = some other := by
  rw [List.mem_append, List.mem_iff_getElem?, List.mem_iff_getElem?]
  constructor
  · intro hmem
    rcases hmem with ⟨k, hk⟩ | ⟨k, hk⟩
    · by_cases hlt : k < index
      · rw [List.getElem?_take_of_lt hlt] at hk
        exact ⟨k, by omega, hk⟩
      · rw [List.getElem?_take_eq_none (by omega)] at hk
        cases hk
    · rw [List.getElem?_drop] at hk
      exact ⟨index + 1 + k, by omega, hk⟩
  · intro hmem
    rcases hmem with ⟨k, hne, hk⟩
    by_cases hlt : k < index
    · refine Or.inl ⟨k, ?_⟩
      rw [List.getElem?_take_of_lt hlt, hk]
    · refine Or.inr ⟨k - (index + 1), ?_⟩
      rw [List.getElem?_drop, ← hk]
      congr 1
      omega

omit [DecidableEq Socket] in
theorem heldBack_iff
    {manager : OpLockManager Socket} {handle : OpLock}
    {sli : SocketLockInfo Socket} {lock : LockInfo} {sameServer : Bool}
    (hget : manager.socketLocks[handle.socket]? = some sli) :
    manager.heldBack handle lock sameServer ↔
      ∃ other ∈ manager.socketLocks.take handle.socket ++
          manager.socketLocks.drop (handle.socket + 1),
        other.server.same sli.server = sameServer ∧
          ∃ held ∈ other.locks, held.blocks lock = true := by
  constructor
  · intro hback
    rcases hback with ⟨record, other, k, hrecord, hne, hk, hserver, hblocks⟩
    rw [hget, Option.some.injEq] at hrecord
    subst hrecord
    exact ⟨other, mem_others_iff.mpr ⟨k, hne, hk⟩, hserver, hblocks⟩
  · intro hback
    rcases hback with ⟨other, hmem, hserver, hblocks⟩
    obtain ⟨k, hne, hk⟩ := mem_others_iff.mp hmem
    exact ⟨sli, other, k, hget, hne, hk, hserver, hblocks⟩

/-- A waiting lock is granted unless another one blocks it. -/
theorem obtainWaiting_granted_iff
    {manager : OpLockManager Socket} {handle : OpLock}
    {sli : SocketLockInfo Socket} {lock : LockInfo} {socket : Socket}
    (hone : OneRecordEach manager.socketLocks)
    (hget : manager.socketLocks[handle.socket]? = some sli)
    (hlock : sli.locks[handle.lock]? = some lock)
    (hwaiting : lock.waiting = true)
    (hsocket : sli.controlSocket = some socket) :
    (manager.obtainWaiting socket).granted handle ↔
      ¬ ∃ other ∈ manager.socketLocks.take handle.socket ++
          manager.socketLocks.drop (handle.socket + 1),
        ∃ held ∈ other.locks, held.blocks lock = true := by
  obtain ⟨hleft, hright⟩ := others_of_oneRecordEach hone hget hsocket
  have hlength : (manager.socketLocks.take handle.socket).length =
      handle.socket := by
    have hlt := (List.getElem?_eq_some_iff.mp hget).1
    rw [List.length_take]
    omega
  have hafter : (manager.obtainWaiting socket).socketLocks[handle.socket]? =
      some { sli with
        locks := sli.locks.map
          (obtain (manager.socketLocks.take handle.socket ++
            manager.socketLocks.drop (handle.socket + 1))) } := by
    unfold obtainWaiting
    simp only
    rw [congrArg (obtainIn socket []) (split_at hget),
      obtainIn_present [] hleft hsocket hright, List.nil_append,
      List.getElem?_append_right (by omega), hlength, Nat.sub_self,
      List.getElem?_cons_zero]
  have hentry : (manager.obtainWaiting socket).entry handle =
      some (obtain (manager.socketLocks.take handle.socket ++
        manager.socketLocks.drop (handle.socket + 1)) lock) := by
    unfold entry
    rw [hafter]
    simp [hlock]
  unfold granted
  rw [hentry]
  simp only [Option.some.injEq, exists_eq_left']
  unfold OpLockManager.obtain
  simp only [hwaiting, Bool.true_and]
  split_ifs with hfree
  · simp only [Bool.not_eq_true', List.any_eq_false] at hfree
    simp only [true_iff, not_exists, not_and]
    intro other hmem held hheld hblocks
    exact hfree other hmem (List.any_eq_true.mpr ⟨held, hheld, hblocks⟩)
  · simp only [Bool.not_eq_true', Bool.not_eq_false, List.any_eq_true]
      at hfree
    simp only [hwaiting, Bool.true_eq_false, false_iff, not_not]
    exact hfree

/-- A lock is granted at once exactly if it need not wait. -/
theorem lock_granted_iff
    {manager : OpLockManager Socket} {currentServer : Server}
    {socket : Socket} {index : ℕ} {sli : SocketLockInfo Socket}
    (hone : OneRecordEach manager.socketLocks)
    (hget : manager.socketLocks[index]? = some sli)
    (hsocket : sli.controlSocket = some socket) (lock : LockInfo) :
    manager.grantsAtOnce currentServer socket lock ↔
      manager.mustWait socket sli.server
        { lock with waiting := false, released := false } = false := by
  have hfind : manager.getOrCreate socket currentServer = (manager, index) := by
    unfold getOrCreate
    cases hsearch : manager.socketLocks.findIdx?
        (fun sli => sli.controlSocket == some socket) with
    | none =>
        have hdiffers := List.findIdx?_eq_none_iff.mp hsearch sli
          (List.mem_of_getElem? hget)
        simp [hsocket] at hdiffers
    | some found =>
        obtain ⟨hlt, hfound, _⟩ := List.findIdx?_eq_some_iff_getElem.mp hsearch
        have hsame : found = index :=
          hone found index socket manager.socketLocks[found] sli
            (List.getElem?_eq_getElem hlt) hget (by simpa using hfound) hsocket
        simp [hsame]
  have hlt := (List.getElem?_eq_some_iff.mp hget).1
  unfold grantsAtOnce OpLockManager.lock
  simp only [hfind, hget, granted, entry]
  simp [hlt]

theorem mustWait_leaveOut_iff
    {manager : OpLockManager Socket} {handle : OpLock}
    {sli : SocketLockInfo Socket} {socket : Socket}
    (hone : OneRecordEach manager.socketLocks)
    (hget : manager.socketLocks[handle.socket]? = some sli)
    (hsocket : sli.controlSocket = some socket) (lock : LockInfo) :
    (manager.leaveOut handle).mustWait socket sli.server
        { lock with waiting := false, released := false } = true ↔
      manager.heldBack handle lock true := by
  have hleft : manager.leaveOut handle =
      { socketLocks := manager.socketLocks.set handle.socket
          { sli with locks := sli.locks.eraseIdx handle.lock } } := by
    unfold leaveOut
    rw [hget]
  have hlt := (List.getElem?_eq_some_iff.mp hget).1
  rw [hleft]
  unfold mustWait
  rw [List.any_eq_true]
  constructor
  · intro hwait
    rcases hwait with ⟨other, hmem, htest⟩
    simp only [Bool.and_eq_true, Bool.not_eq_true', Bool.or_eq_false_iff,
      beq_eq_false_iff_ne, Bool.not_eq_false', List.any_eq_true] at htest
    obtain ⟨k, hk⟩ := List.mem_iff_getElem?.mp hmem
    have hne : k ≠ handle.socket := by
      intro heq
      rw [heq, List.getElem?_set_self hlt, Option.some.injEq] at hk
      rw [← hk] at htest
      exact htest.1.1 hsocket
    rw [List.getElem?_set_ne (Ne.symm hne)] at hk
    exact ⟨sli, other, k, hget, hne, hk, htest.1.2, htest.2⟩
  · intro hback
    rcases hback with ⟨record, other, k, hrecord, hne, hk, hserver, hblocks⟩
    rw [hget, Option.some.injEq] at hrecord
    subst hrecord
    have hother : other.controlSocket ≠ some socket := by
      intro hsame
      exact hne (hone k handle.socket socket other sli hk hget hsame hsocket)
    refine ⟨other, ?_, ?_⟩
    · rw [List.mem_iff_getElem?]
      exact ⟨k, by rw [List.getElem?_set_ne (Ne.symm hne), hk]⟩
    · simp only [Bool.and_eq_true, Bool.not_eq_true', Bool.or_eq_false_iff,
        beq_eq_false_iff_ne, Bool.not_eq_false', List.any_eq_true]
      exact ⟨⟨hother, hserver⟩, hblocks⟩

end OpLockManager

/-- A pass of `ObtainWaiting` grants a waiting entry exactly when `Lock` would
grant it at once, unless it is an entry for another server, and no entry for
the same one, that keeps it waiting. -/
theorem waiting_grant_agrees_iff
    {inputs : List (OpLockInput Socket)} {events : List Socket}
    {state : OpLockState Socket} {handle : OpLock}
    {sli : SocketLockInfo Socket} {lock : LockInfo} {socket : Socket}
    (hreach : (opLockMachine Socket).Reaches inputs events state)
    (hget : state.manager.socketLocks[handle.socket]? = some sli)
    (hlock : sli.locks[handle.lock]? = some lock)
    (hwaiting : lock.waiting = true)
    (hsocket : sli.controlSocket = some socket) :
    ((state.manager.obtainWaiting socket).granted handle ↔
        (state.manager.leaveOut handle).grantsAtOnce
          (state.currentServer socket) socket lock) ↔
      (state.manager.heldBack handle lock false →
        state.manager.heldBack handle lock true) := by
  have hone := reachable_oneRecordEach hreach
  have hlt := (List.getElem?_eq_some_iff.mp hget).1
  have hleft : state.manager.leaveOut handle =
      { socketLocks := state.manager.socketLocks.set handle.socket
          { sli with locks := sli.locks.eraseIdx handle.lock } } := by
    unfold OpLockManager.leaveOut
    rw [hget]
  have hwithout : OneRecordEach (state.manager.leaveOut handle).socketLocks := by
    rw [hleft]
    exact hone.keepsPlaces (keepsPlaces_set hget (Or.inl rfl))
  have hgetWithout :
      (state.manager.leaveOut handle).socketLocks[handle.socket]? =
        some { sli with locks := sli.locks.eraseIdx handle.lock } := by
    rw [hleft]
    exact List.getElem?_set_self hlt
  have hfresh : (state.manager.leaveOut handle).grantsAtOnce
        (state.currentServer socket) socket lock ↔
      ¬ state.manager.heldBack handle lock true := by
    rw [OpLockManager.lock_granted_iff hwithout hgetWithout hsocket,
      ← OpLockManager.mustWait_leaveOut_iff hone hget hsocket lock,
      Bool.not_eq_true]
  have hagain : (state.manager.obtainWaiting socket).granted handle ↔
      ¬ (state.manager.heldBack handle lock true ∨
        state.manager.heldBack handle lock false) := by
    rw [OpLockManager.obtainWaiting_granted_iff hone hget hlock hwaiting
      hsocket, OpLockManager.heldBack_iff hget, OpLockManager.heldBack_iff hget]
    apply not_congr
    constructor
    · intro hblocked
      rcases hblocked with ⟨other, hmem, hblocks⟩
      cases hserver : other.server.same sli.server with
      | true => exact Or.inl ⟨other, hmem, hserver, hblocks⟩
      | false => exact Or.inr ⟨other, hmem, hserver, hblocks⟩
    · intro hblocked
      rcases hblocked with ⟨other, hmem, _, hblocks⟩ | ⟨other, hmem, _, hblocks⟩
      · exact ⟨other, hmem, hblocks⟩
      · exact ⟨other, hmem, hblocks⟩
  rw [hagain, hfresh]
  tauto

def Server.onHost (host : Char) : Server where
  protocol := .ftp
  type := .unix
  host := [host]
  user := []
  port := 21
  timezoneOffset := 0
  pasvMode := .default
  bypassProxy := false
  encodingType := .auto
  customEncoding := []
  postLoginCommands := []
  extraParameters := []

def LockInfo.listRoot (waiting : Bool) : LockInfo where
  path := ⟨some ⟨[], none⟩, .unix⟩
  reason := .list
  inclusive := false
  waiting := waiting
  released := false

/-- Two sockets list the same directory of one server. -/
theorem waiting_grant_agrees_same_server :
    let state : OpLockState ℕ :=
      ⟨⟨[⟨.onHost 'h', some 0, [.listRoot false]⟩,
          ⟨.onHost 'h', some 1, [.listRoot true]⟩]⟩,
        fun _ => .onHost 'h'⟩
    (state.manager.obtainWaiting 1).granted ⟨1, 0⟩ ↔
      (state.manager.leaveOut ⟨1, 0⟩).grantsAtOnce (.onHost 'h') 1
        (.listRoot true) := by
  intro state
  have hexec : (opLockMachine ℕ).exec (fun _ _ => True)
      ⟨⟨[]⟩, fun _ => .onHost 'h'⟩
      [.lock 0 .list (LockInfo.listRoot true).path false,
        .lock 1 .list (LockInfo.listRoot true).path false] =
      some (state, []) := rfl
  have hback : state.manager.heldBack ⟨1, 0⟩ (.listRoot true) true :=
    ⟨_, ⟨.onHost 'h', some 0, [.listRoot false]⟩, 0, rfl, by decide, rfl, rfl,
      .listRoot false, List.mem_cons_self, rfl⟩
  have hget : state.manager.socketLocks[(⟨1, 0⟩ : OpLock).socket]? =
      some ⟨.onHost 'h', some 1, [.listRoot true]⟩ := rfl
  exact (waiting_grant_agrees_iff
    (LabelledRuns.Machine.ReachesWithin.exec (.start rfl) hexec)
    hget rfl rfl rfl).mpr fun _ => hback

/-- The entry of a socket that is connected to another host keeps the last
socket waiting. -/
theorem waiting_entry_held_back_by_other_server :
    ¬ ∀ (inputs : List (OpLockInput ℕ)) (events : List ℕ)
        (state : OpLockState ℕ) (handle : OpLock) (sli : SocketLockInfo ℕ)
        (lock : LockInfo) (socket : ℕ),
      (opLockMachine ℕ).Reaches inputs events state →
      state.manager.socketLocks[handle.socket]? = some sli →
      sli.locks[handle.lock]? = some lock → lock.waiting = true →
      sli.controlSocket = some socket →
      ((state.manager.obtainWaiting socket).granted handle ↔
        (state.manager.leaveOut handle).grantsAtOnce
          (state.currentServer socket) socket lock) := by
  intro hall
  let servers : ℕ → Server := fun socket =>
    if socket = 0 then .onHost 'h' else .onHost 'k'
  let state : OpLockState ℕ :=
    ⟨⟨[⟨.onHost 'h', some 0, [.listRoot false]⟩,
        ⟨.onHost 'k', none, []⟩,
        ⟨.onHost 'k', some 2, [.listRoot true]⟩]⟩, servers⟩
  let locked : OpLockState ℕ :=
    ⟨⟨[⟨.onHost 'h', some 0, [.listRoot false]⟩,
        ⟨.onHost 'k', some 1, [.listRoot false]⟩,
        ⟨.onHost 'k', some 2, [.listRoot true]⟩]⟩, servers⟩
  have hexec : (opLockMachine ℕ).exec (fun _ _ => True) ⟨⟨[]⟩, servers⟩
      [.lock 0 .list (LockInfo.listRoot true).path false,
        .lock 1 .list (LockInfo.listRoot true).path false,
        .lock 2 .list (LockInfo.listRoot true).path false] =
      some (locked, []) := rfl
  have hunlock : (opLockMachine ℕ).step locked (.unlock ⟨1, 0⟩) =
      some (state, [2]) := rfl
  have hlocked : (opLockMachine ℕ).Reaches _ _ locked :=
    LabelledRuns.Machine.ReachesWithin.exec (.start rfl) hexec
  have hagree := hall _ _ state ⟨2, 0⟩
    ⟨.onHost 'k', some 2, [.listRoot true]⟩ (.listRoot true) 2
    (hlocked.next trivial hunlock) rfl rfl rfl rfl
  have hatOnce : (state.manager.leaveOut ⟨2, 0⟩).grantsAtOnce
      (state.currentServer 2) 2 (.listRoot true) :=
    ⟨.listRoot false, rfl, rfl⟩
  obtain ⟨lock, hentry, hwaiting⟩ := hagree.mpr hatOnce
  have hstill : (state.manager.obtainWaiting 2).entry ⟨2, 0⟩ =
      some (.listRoot true) := rfl
  rw [hstill, Option.some.injEq] at hentry
  rw [← hentry] at hwaiting
  cases hwaiting

end TabFtp
