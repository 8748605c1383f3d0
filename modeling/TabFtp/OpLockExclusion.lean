import TabFtp.ConflictFreeGrants
import TabFtp.OpLockManager

/-!
# Mutual exclusion of operation locks

The entries that are neither waiting nor released are the grants of a lock
service in the sense of `ConflictFreeGrants`: the owner of a grant is the
control socket of its record.  Every call of the manager refines steps of
that service, from which exclusion follows for all reachable states.
-/

namespace TabFtp

open ConflictFreeGrants

universe u

structure GrantedLock where
  server : Server
  lock : LockInfo

def GrantedLock.conflict (grant other : GrantedLock) : Prop :=
  grant.server.same other.server = true ∧
    grant.lock.reason = other.lock.reason ∧
    grant.lock.overlaps other.lock = true

instance : Std.Symm GrantedLock.conflict where
  symm := by
    rintro grant other ⟨hserver, hreason, hoverlaps⟩
    exact ⟨by rw [Server.same_comm, hserver], hreason.symm,
      by rw [LockInfo.overlaps_comm, hoverlaps]⟩

variable {Socket : Type u}

def SocketLockInfo.grants (sli : SocketLockInfo Socket) :
    Set (Option Socket × GrantedLock) :=
  { entry | entry.1 = sli.controlSocket ∧ entry.2.server = sli.server ∧
      entry.2.lock ∈ sli.locks ∧ entry.2.lock.held = true }

def heldIn (socketLocks : List (SocketLockInfo Socket)) :
    Set (Option Socket × GrantedLock) :=
  { entry | ∃ sli ∈ socketLocks, entry ∈ sli.grants }

def OpLockManager.held (manager : OpLockManager Socket) :
    Set (Option Socket × GrantedLock) :=
  heldIn manager.socketLocks

@[simp] theorem heldIn_nil :
    heldIn ([] : List (SocketLockInfo Socket)) = ∅ := by
  simp [heldIn]

@[simp] theorem heldIn_append
    (left right : List (SocketLockInfo Socket)) :
    heldIn (left ++ right) = heldIn left ∪ heldIn right := by
  ext entry
  simp only [heldIn, List.mem_append, Set.mem_ofPred_eq, Set.mem_union]
  constructor
  · rintro ⟨sli, hmem | hmem, hentry⟩
    · exact Or.inl ⟨sli, hmem, hentry⟩
    · exact Or.inr ⟨sli, hmem, hentry⟩
  · rintro (⟨sli, hmem, hentry⟩ | ⟨sli, hmem, hentry⟩)
    · exact ⟨sli, Or.inl hmem, hentry⟩
    · exact ⟨sli, Or.inr hmem, hentry⟩

@[simp] theorem heldIn_cons
    (sli : SocketLockInfo Socket) (rest : List (SocketLockInfo Socket)) :
    heldIn (sli :: rest) = sli.grants ∪ heldIn rest := by
  ext entry
  simp [heldIn]

theorem heldIn_mono_of_subset
    {left right : List (SocketLockInfo Socket)}
    (hsub : ∀ sli ∈ left, sli ∈ right) :
    heldIn left ⊆ heldIn right := by
  rintro entry ⟨sli, hmem, hentry⟩
  exact ⟨sli, hsub sli hmem, hentry⟩

theorem heldIn_set_subset
    {socketLocks : List (SocketLockInfo Socket)} {index : ℕ}
    {sli : SocketLockInfo Socket}
    (hget : socketLocks[index]? = some sli)
    {replaced : SocketLockInfo Socket}
    {added : Set (Option Socket × GrantedLock)}
    (hsub : replaced.grants ⊆ sli.grants ∪ added) :
    heldIn (socketLocks.set index replaced) ⊆ heldIn socketLocks ∪ added := by
  rintro entry ⟨other, hmem, hentry⟩
  rcases List.mem_or_eq_of_mem_set hmem with hold | rfl
  · exact Or.inl ⟨other, hold, hentry⟩
  · rcases hsub hentry with hsame | hadded
    · exact Or.inl ⟨sli, List.mem_of_getElem? hget, hsame⟩
    · exact Or.inr hadded

theorem heldIn_set_of_grants_subset
    {socketLocks : List (SocketLockInfo Socket)} {index : ℕ}
    {sli replaced : SocketLockInfo Socket}
    (hget : socketLocks[index]? = some sli)
    (hsub : replaced.grants ⊆ sli.grants) :
    heldIn (socketLocks.set index replaced) ⊆ heldIn socketLocks := by
  have hnone : replaced.grants ⊆ sli.grants ∪ ∅ := by
    rw [Set.union_empty]
    exact hsub
  have hall := heldIn_set_subset hget hnone
  rwa [Set.union_empty] at hall

theorem SocketLockInfo.grants_subset
    {sli replaced : SocketLockInfo Socket}
    (hserver : replaced.server = sli.server)
    (hlocks : ∀ lock ∈ replaced.locks, lock.held = true → lock ∈ sli.locks)
    (hsocket : replaced.controlSocket = sli.controlSocket ∨
      replaced.locks = []) :
    replaced.grants ⊆ sli.grants := by
  rintro entry ⟨howner, hentryServer, hmem, hheld⟩
  refine ⟨?_, hentryServer.trans hserver, hlocks _ hmem hheld, hheld⟩
  rcases hsocket with hsocket | hempty
  · exact howner.trans hsocket
  · simp [hempty] at hmem

namespace OpLockManager

theorem removeLast_held
    {manager : OpLockManager Socket} {index : ℕ}
    {sli : SocketLockInfo Socket}
    (hget : manager.socketLocks[index]? = some sli) :
    (manager.removeLast index sli).held ⊆ manager.held := by
  have hlocks : ∀ lock ∈ sli.locks.dropLast.rdropWhile (·.released),
      lock ∈ sli.locks := by
    intro lock hmem
    exact List.dropLast_subset _
      ((List.rdropWhile_prefix _ _).subset hmem)
  unfold removeLast
  simp only
  split_ifs with hempty hlast
  · refine heldIn_mono_of_subset ?_
    intro other hmem
    exact List.dropLast_subset _ ((List.rdropWhile_prefix _ _).subset hmem)
  · exact heldIn_set_of_grants_subset hget
      (SocketLockInfo.grants_subset rfl
        (fun lock hmem _ => hlocks lock hmem)
        (Or.inr (List.isEmpty_iff.mp hempty)))
  · exact heldIn_set_of_grants_subset hget
      (SocketLockInfo.grants_subset rfl
        (fun lock hmem _ => hlocks lock hmem) (Or.inl rfl))

/-- What `unlock` does when its two assertions hold. -/
theorem unlock_some {manager following : OpLockManager Socket}
    {handle : OpLock} {events : List Socket}
    (hunlock : manager.unlock handle = some (following, events)) :
    ∃ sli lock, manager.socketLocks[handle.socket]? = some sli ∧
      sli.locks[handle.lock]? = some lock ∧
      following = (if handle.lock + 1 = sli.locks.length then
          manager.removeLast handle.socket sli
        else
          { socketLocks := manager.socketLocks.set handle.socket
              { sli with
                locks := sli.locks.set handle.lock
                  { lock with waiting := false, released := true } } }) ∧
      events = if lock.waiting then [] else following.wakeup := by
  unfold unlock at hunlock
  cases hsli : manager.socketLocks[handle.socket]? with
  | none => simp [hsli] at hunlock
  | some sli =>
      cases hlock : sli.locks[handle.lock]? with
      | none => simp [hsli, hlock] at hunlock
      | some lock =>
          simp only [hsli, hlock, Option.some.injEq, Prod.mk.injEq]
            at hunlock
          obtain ⟨rfl, rfl⟩ := hunlock
          exact ⟨sli, lock, rfl, hlock, rfl, rfl⟩

theorem unlock_refines
    {manager following : OpLockManager Socket} {handle : OpLock}
    {events : List Socket}
    (hunlock : manager.unlock handle = some (following, events)) :
    Steps GrantedLock.conflict manager.held following.held := by
  refine Steps.release ?_
  obtain ⟨sli, lock, hsli, _, rfl, _⟩ := unlock_some hunlock
  split_ifs with hlast
  · exact removeLast_held hsli
  · refine heldIn_set_of_grants_subset hsli
      (SocketLockInfo.grants_subset rfl ?_ (Or.inl rfl))
    intro entry hmem hheld
    rcases List.mem_or_eq_of_mem_set hmem with hold | hnew
    · exact hold
    · rw [hnew] at hheld
      simp [LockInfo.held] at hheld

variable [DecidableEq Socket]

theorem getOrCreate_spec
    (manager : OpLockManager Socket) (socket : Socket)
    (currentServer : Server) :
    ∃ sli, (manager.getOrCreate socket currentServer).1.socketLocks[
        (manager.getOrCreate socket currentServer).2]? = some sli ∧
      sli.controlSocket = some socket ∧
      (sli ∈ manager.socketLocks ∨
        sli.server = currentServer ∧ sli.locks = []) := by
  unfold getOrCreate
  cases hfind : manager.socketLocks.findIdx?
      (fun sli => sli.controlSocket == some socket) with
  | none =>
      exact ⟨{ server := currentServer
               controlSocket := some socket
               locks := [] }, by simp, rfl, Or.inr ⟨rfl, rfl⟩⟩
  | some index =>
      obtain ⟨hlt, hsocket, _⟩ := List.findIdx?_eq_some_iff_getElem.mp hfind
      refine ⟨manager.socketLocks[index], by simp [hlt], by simpa using hsocket,
        Or.inl (List.getElem_mem hlt)⟩

theorem getOrCreate_held
    (manager : OpLockManager Socket) (socket : Socket)
    (currentServer : Server) :
    (manager.getOrCreate socket currentServer).1.held = manager.held := by
  unfold getOrCreate
  split
  · rfl
  · ext entry
    simp [held, SocketLockInfo.grants]

theorem admits_of_not_mustWait
    {manager : OpLockManager Socket} {socket : Socket}
    {server : Server} {info : LockInfo}
    (hfree : manager.mustWait socket server info = false) :
    Admits GrantedLock.conflict manager.held (some socket)
      { server := server, lock := info } := by
  rintro ⟨owner, other⟩ ⟨sli, hmem, hgrant⟩ hne hconflict
  obtain ⟨howner, hserver, hlock, hheld⟩ := hgrant
  obtain ⟨hsame, hreason, hoverlaps⟩ := hconflict
  simp only at howner hserver hne
  have hwaits : manager.mustWait socket server info = true := by
    unfold mustWait
    refine List.any_eq_true.mpr ⟨sli, hmem, ?_⟩
    have hserver' : sli.server.same server = true := by
      rw [← hserver, Server.same_comm]
      exact hsame
    have hblocks : other.lock.blocks info = true := by
      rw [LockInfo.blocks_iff, LockInfo.overlaps_comm]
      exact ⟨hreason, hheld, hoverlaps⟩
    have hsocket : sli.controlSocket ≠ some socket := howner ▸ hne
    simp only [Bool.and_eq_true, Bool.not_eq_true', Bool.or_eq_false_iff,
      beq_eq_false_iff_ne, ne_eq, hserver', Bool.not_true, and_true]
    exact ⟨hsocket, List.any_eq_true.mpr ⟨other.lock, hlock, hblocks⟩⟩
  rw [hfree] at hwaits
  contradiction

theorem lock_refines
    (manager : OpLockManager Socket) (currentServer : Server)
    (socket : Socket) (reason : LockingReason)
    (path : ServerPath) (inclusive : Bool) :
    Steps GrantedLock.conflict manager.held
      (manager.lock currentServer socket reason path inclusive).1.held := by
  obtain ⟨sli, hget, hsocket, _⟩ :=
    manager.getOrCreate_spec socket currentServer
  rw [← manager.getOrCreate_held socket currentServer]
  unfold lock
  simp only [hget]
  set found := manager.getOrCreate socket currentServer
  set request : LockInfo :=
    { path := path
      reason := reason
      inclusive := inclusive
      waiting := false
      released := false } with hrequest
  cases hwait : found.1.mustWait socket sli.server request with
  | true =>
      refine Steps.release ?_
      refine heldIn_set_of_grants_subset hget
        (SocketLockInfo.grants_subset rfl ?_ (Or.inl rfl))
      intro lock hmem hheld
      rcases List.mem_append.mp hmem with hold | hnew
      · exact hold
      · rw [List.mem_singleton.mp hnew] at hheld
        simp [LockInfo.held] at hheld
  | false =>
      refine Steps.acquire (some socket)
        {⟨sli.server, request⟩} ?_ ?_
      · intro grant hgrant
        rw [Set.mem_singleton_iff.mp hgrant]
        exact admits_of_not_mustWait hwait
      · refine heldIn_set_subset hget ?_
        rintro entry ⟨howner, hserver, hmem, hheld⟩
        rcases List.mem_append.mp hmem with hold | hnew
        · exact Or.inl ⟨howner, hserver, hold, hheld⟩
        · refine Or.inr (mem_ownedBy.mpr ⟨howner.trans hsocket, ?_⟩)
          obtain ⟨owner, ⟨server, lock⟩⟩ := entry
          simp only [List.mem_singleton] at hnew
          simp only at hserver
          rw [hnew, hserver]
          simp [hrequest]

end OpLockManager

/-! ## Waiting entries that are examined again -/

namespace OpLockManager

/-- The entries of one record that stop waiting when it is compared with
the records `others`. -/
def newlyObtained
    (others : List (SocketLockInfo Socket)) (sli : SocketLockInfo Socket) :
    Set GrantedLock :=
  { grant | grant.server = sli.server ∧ ∃ lock ∈ sli.locks,
      lock.held = false ∧ grant.lock = obtain others lock ∧
        grant.lock.held = true }

theorem obtain_of_held
    (others : List (SocketLockInfo Socket)) {lock : LockInfo}
    (hheld : lock.held = true) :
    obtain others lock = lock := by
  unfold obtain
  rw [if_neg]
  simp only [LockInfo.held, Bool.and_eq_true, Bool.not_eq_true'] at hheld
  simp [hheld.1]

theorem admits_of_obtain
    {others : List (SocketLockInfo Socket)}
    (sli : SocketLockInfo Socket) {lock : LockInfo}
    (hgranted : (obtain others lock).held = true)
    (hwaiting : lock.held = false) :
    Admits GrantedLock.conflict (heldIn others ∪ sli.grants)
      sli.controlSocket
      { server := sli.server, lock := obtain others lock } := by
  unfold obtain at hgranted ⊢
  split_ifs at hgranted ⊢ with hfree
  · simp only [Bool.and_eq_true, Bool.not_eq_true'] at hfree
    rintro ⟨owner, other⟩ hmem hne ⟨_, hreason, hoverlaps⟩
    rcases hmem with ⟨record, hrecord, _, _, hlock, hheld⟩ | hself
    · have hblocks : other.lock.blocks lock = true := by
        rw [LockInfo.blocks_iff, LockInfo.overlaps_comm]
        exact ⟨hreason, hheld, hoverlaps⟩
      have hblocked : others.any
          (fun other => other.locks.any (·.blocks lock)) = true :=
        List.any_eq_true.mpr ⟨record, hrecord,
          List.any_eq_true.mpr ⟨other.lock, hlock, hblocks⟩⟩
      rw [hfree.2] at hblocked
      contradiction
    · exact hne hself.1
  · rw [hwaiting] at hgranted
    contradiction

theorem obtained_grants_subset
    (others : List (SocketLockInfo Socket)) (sli : SocketLockInfo Socket) :
    ({ sli with locks := sli.locks.map (obtain others) } :
        SocketLockInfo Socket).grants ⊆
      sli.grants ∪ ownedBy sli.controlSocket (newlyObtained others sli) := by
  rintro entry ⟨howner, hserver, hmem, hheld⟩
  obtain ⟨lock, hlock, hobtain⟩ := List.mem_map.mp hmem
  cases hbefore : lock.held with
  | true =>
      rw [obtain_of_held others hbefore] at hobtain
      exact Or.inl ⟨howner, hserver, hobtain ▸ hlock, hheld⟩
  | false =>
      exact Or.inr (mem_ownedBy.mpr ⟨howner, hserver, lock, hlock, hbefore,
        hobtain.symm, hheld⟩)

theorem obtainRecord_refines
    (before rest : List (SocketLockInfo Socket))
    (sli : SocketLockInfo Socket) :
    Steps GrantedLock.conflict (heldIn (before ++ sli :: rest))
      (heldIn ((before ++ [{ sli with
        locks := sli.locks.map (obtain (before ++ rest)) }]) ++ rest)) := by
  refine Steps.acquire sli.controlSocket
    (newlyObtained (before ++ rest) sli) ?_ ?_
  · rintro ⟨server, granted⟩ ⟨hserver, lock, _, hwaiting, hobtain, hheld⟩
    simp only at hserver hobtain hheld
    subst hserver hobtain
    have hadmits := admits_of_obtain sli hheld hwaiting
    intro other hmem
    refine hadmits other ?_
    simp only [heldIn_append, heldIn_cons] at hmem ⊢
    rcases hmem with hmem | hmem | hmem
    · exact Or.inl (Or.inl hmem)
    · exact Or.inr hmem
    · exact Or.inl (Or.inr hmem)
  · intro entry hmem
    simp only [List.append_assoc, List.singleton_append, heldIn_append,
      heldIn_cons] at hmem ⊢
    rcases hmem with hmem | hmem | hmem
    · exact Or.inl (Or.inl hmem)
    · rcases obtained_grants_subset (before ++ rest) sli hmem with
        hold | hnew
      · exact Or.inl (Or.inr (Or.inl hold))
      · exact Or.inr hnew
    · exact Or.inl (Or.inr (Or.inr hmem))

theorem obtainIn_refines
    [DecidableEq Socket] (socket : Socket)
    (before rest : List (SocketLockInfo Socket)) :
    Steps GrantedLock.conflict (heldIn (before ++ rest))
      (heldIn (obtainIn socket before rest)) := by
  induction rest generalizing before with
  | nil => rw [List.append_nil, obtainIn]
  | cons sli rest ih =>
      unfold obtainIn
      split_ifs with hsocket
      · exact (obtainRecord_refines before rest sli).trans (ih _)
      · have hnext := ih (before ++ [sli])
        rwa [List.append_assoc, List.singleton_append] at hnext

end OpLockManager

/-! ## Reachable states -/

variable [DecidableEq Socket]

theorem opLockStep_refines
    {state following : OpLockState Socket} {input : OpLockInput Socket}
    {events : List Socket}
    (hstep : opLockStep state input = some (following, events)) :
    Steps GrantedLock.conflict state.manager.held following.manager.held := by
  cases input with
  | lock socket reason path inclusive =>
      simp only [opLockStep, Option.some.injEq, Prod.mk.injEq] at hstep
      rw [← hstep.1]
      exact state.manager.lock_refines _ socket reason path inclusive
  | unlock handle =>
      simp only [opLockStep, Option.map_eq_some_iff] at hstep
      obtain ⟨result, hunlock, hresult⟩ := hstep
      simp only [Prod.mk.injEq] at hresult
      rw [← hresult.1]
      exact OpLockManager.unlock_refines hunlock
  | obtainWaiting socket =>
      simp only [opLockStep, Option.some.injEq, Prod.mk.injEq] at hstep
      rw [← hstep.1]
      exact OpLockManager.obtainIn_refines socket [] _
  | serverChanges socket server =>
      simp only [opLockStep, Option.some.injEq, Prod.mk.injEq] at hstep
      rw [← hstep.1]

/-- In every run no two locks that are held exclude each other. -/
theorem reachable_exclusive
    {inputs : List (OpLockInput Socket)} {events : List Socket}
    {state : OpLockState Socket}
    (hreach : (opLockMachine Socket).Reaches inputs events state) :
    Exclusive GrantedLock.conflict state.manager.held := by
  refine hreach.stateInvariant
    (fun state => Exclusive GrantedLock.conflict state.manager.held)
    ?_ ?_
  · intro initial hinit
    have hempty : initial.manager.socketLocks = [] := hinit
    simp [OpLockManager.held, hempty]
  · intro current input following answer hinv _ hstep
    exact (opLockStep_refines hstep).exclusive hinv

/-- Two held entries of different control sockets that were taken for the
same server with the same reason never overlap. -/
theorem held_locks_never_conflict
    {inputs : List (OpLockInput Socket)} {events : List Socket}
    {state : OpLockState Socket}
    (hreach : (opLockMachine Socket).Reaches inputs events state)
    {first second : SocketLockInfo Socket}
    (hfirst : first ∈ state.manager.socketLocks)
    (hsecond : second ∈ state.manager.socketLocks)
    (hsocket : first.controlSocket ≠ second.controlSocket)
    (hserver : first.server.same second.server = true)
    {lock other : LockInfo}
    (hlock : lock ∈ first.locks) (hother : other ∈ second.locks)
    (hlockHeld : lock.held = true) (hotherHeld : other.held = true)
    (hreason : lock.reason = other.reason) :
    lock.overlaps other = false := by
  have hexclusive := reachable_exclusive hreach
  have hnone := hexclusive
    (first.controlSocket, ⟨first.server, lock⟩)
    ⟨first, hfirst, rfl, rfl, hlock, hlockHeld⟩
    (second.controlSocket, ⟨second.server, other⟩)
    ⟨second, hsecond, rfl, rfl, hother, hotherHeld⟩
    hsocket
  cases hoverlaps : lock.overlaps other with
  | false => rfl
  | true => exact absurd ⟨hserver, hreason, hoverlaps⟩ hnone

/-- Two sockets list sibling directories of one server. -/
theorem held_locks_never_conflict_siblings :
    let entry (name : Char) : LockInfo :=
      { path := ⟨some ⟨[[name]], none⟩, .unix⟩
        reason := .list
        inclusive := false
        waiting := false
        released := false }
    (entry 'a').overlaps (entry 'b') = false := by
  intro entry
  let server : Server :=
    { protocol := .ftp
      type := .unix
      host := ['h']
      user := []
      port := 21
      timezoneOffset := 0
      pasvMode := .default
      bypassProxy := false
      encodingType := .auto
      customEncoding := []
      postLoginCommands := []
      extraParameters := [] }
  have hexec : (opLockMachine ℕ).exec (fun _ _ => True)
      ⟨⟨[]⟩, fun _ => server⟩
      [.lock 0 .list (entry 'a').path false,
        .lock 1 .list (entry 'b').path false] =
      some (⟨⟨[⟨server, some 0, [entry 'a']⟩,
        ⟨server, some 1, [entry 'b']⟩]⟩, fun _ => server⟩, []) := rfl
  exact held_locks_never_conflict
    (LabelledRuns.Machine.ReachesWithin.exec (.start rfl) hexec)
    (List.mem_cons_self : (⟨server, some 0, [entry 'a']⟩ :
      SocketLockInfo ℕ) ∈ _)
    (List.mem_cons_of_mem _ List.mem_cons_self :
      (⟨server, some 1, [entry 'b']⟩ : SocketLockInfo ℕ) ∈ _)
    (by decide) (by simp) List.mem_cons_self List.mem_cons_self
    rfl rfl rfl

/-! ## The recorded server -/

theorem getOrCreate_socketLocks
    {manager : OpLockManager Socket} {socket : Socket}
    {currentServer : Server} {sli : SocketLockInfo Socket}
    (hmem : sli ∈
      (manager.getOrCreate socket currentServer).1.socketLocks) :
    sli ∈ manager.socketLocks ∨
      sli.controlSocket = some socket ∧ sli.server = currentServer := by
  unfold OpLockManager.getOrCreate at hmem
  split at hmem
  · exact Or.inl hmem
  · rcases List.mem_append.mp hmem with hold | hnew
    · exact Or.inl hold
    · rw [List.mem_singleton.mp hnew]
      exact Or.inr ⟨rfl, rfl⟩

end TabFtp
