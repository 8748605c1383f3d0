import TabFtp.OpLockAgreement

/-!
# Entries by their indices

What the calls of the lock manager do to the entry at a pair of indices.
Entries are never moved, and what is removed from the ends of the vectors has
been released or is the entry that is unlocked.
-/

namespace TabFtp

universe u

theorem getElem?_rdropWhile {Value : Type u} {drops : Value → Bool}
    {values : List Value} {i : ℕ} {value : Value}
    (hkeep : drops value = false) :
    (values.rdropWhile drops)[i]? = some value ↔ values[i]? = some value := by
  induction values using List.reverseRecOn with
  | nil => rw [List.rdropWhile_nil]
  | append_singleton values last ih =>
      rw [List.rdropWhile_concat]
      by_cases hdrop : drops last
      · rw [if_pos hdrop, ih]
        by_cases hlt : i < values.length
        · rw [List.getElem?_append_left hlt]
        · rw [List.getElem?_append_right (by omega), List.getElem?_singleton,
            List.getElem?_eq_none (by omega)]
          constructor
          · intro h
            cases h
          · intro h
            split_ifs at h
            rw [Option.some.inj h, hkeep] at hdrop
            cases hdrop
      · rw [if_neg hdrop]

theorem getElem?_dropLast_rdropWhile {Value : Type u} {drops : Value → Bool}
    {values : List Value} {i : ℕ} {value : Value}
    (hkeep : drops value = false) :
    (values.dropLast.rdropWhile drops)[i]? = some value ↔
      values[i]? = some value ∧ i + 1 ≠ values.length := by
  rw [getElem?_rdropWhile hkeep, List.getElem?_dropLast]
  by_cases hlt : i < values.length - 1
  · rw [if_pos hlt]
    constructor
    · intro h
      exact ⟨h, by omega⟩
    · intro h
      exact h.1
  · rw [if_neg hlt]
    constructor
    · intro h
      cases h
    · intro h
      have hin := (List.getElem?_eq_some_iff.mp h.1).1
      omega

variable {Socket : Type u}

def Tidy (socketLocks : List (SocketLockInfo Socket)) : Prop :=
  ∀ sli ∈ socketLocks, sli.controlSocket = none → sli.locks = []

namespace OpLockManager

def ownedEntry (manager : OpLockManager Socket) (handle : OpLock) :
    Option (Option Socket × LockInfo) :=
  match manager.socketLocks[handle.socket]? with
  | none => none
  | some sli => sli.locks[handle.lock]?.map fun lock => (sli.controlSocket, lock)

theorem ownedEntry_eq_some_iff {manager : OpLockManager Socket}
    {handle : OpLock} {owner : Option Socket} {lock : LockInfo} :
    manager.ownedEntry handle = some (owner, lock) ↔
      ∃ sli, manager.socketLocks[handle.socket]? = some sli ∧
        sli.locks[handle.lock]? = some lock ∧ sli.controlSocket = owner := by
  unfold ownedEntry
  cases manager.socketLocks[handle.socket]? with
  | none => simp
  | some sli => simp

theorem ownedEntry_set {manager : OpLockManager Socket} {index : ℕ}
    {sli : SocketLockInfo Socket}
    (hget : manager.socketLocks[index]? = some sli)
    (replaced : SocketLockInfo Socket) (handle : OpLock) :
    ownedEntry { socketLocks := manager.socketLocks.set index replaced }
        handle =
      if handle.socket = index then
        replaced.locks[handle.lock]?.map fun lock =>
          (replaced.controlSocket, lock)
      else manager.ownedEntry handle := by
  unfold ownedEntry
  by_cases hindex : handle.socket = index
  · have hlt := (List.getElem?_eq_some_iff.mp hget).1
    rw [if_pos hindex, hindex, List.getElem?_set_self hlt]
  · rw [if_neg hindex, List.getElem?_set_ne (Ne.symm hindex)]

/-! ## Unlocking -/

theorem removeLast_ownedEntry {manager : OpLockManager Socket}
    (htidy : Tidy manager.socketLocks) {index : ℕ}
    {sli : SocketLockInfo Socket}
    (hget : manager.socketLocks[index]? = some sli) (hlocks : sli.locks ≠ [])
    (handle : OpLock) {owner : Option Socket} {lock : LockInfo}
    (hkeep : lock.released = false) :
    (manager.removeLast index sli).ownedEntry handle = some (owner, lock) ↔
      manager.ownedEntry handle = some (owner, lock) ∧
        handle ≠ ⟨index, sli.locks.length - 1⟩ := by
  have hpos := List.length_pos_iff.mpr hlocks
  have hdiffers : handle ≠ ⟨index, sli.locks.length - 1⟩ ↔
      (handle.socket = index → handle.lock + 1 ≠ sli.locks.length) := by
    rw [ne_eq, OpLock.mk.injEq]
    constructor
    · intro hne hsocket hlock
      exact hne ⟨hsocket, by omega⟩
    · intro himp hsame
      exact himp hsame.1 (by omega)
  have hinside : (sli.locks.dropLast.rdropWhile (·.released))[handle.lock]? =
      some lock ↔
        sli.locks[handle.lock]? = some lock ∧
          handle.lock + 1 ≠ sli.locks.length :=
    getElem?_dropLast_rdropWhile hkeep
  rw [hdiffers]
  unfold removeLast
  simp only
  by_cases hempty : (sli.locks.dropLast.rdropWhile (·.released)).isEmpty
  · -- the record has no entry left that is not released
    have hgone : ¬ (sli.locks[handle.lock]? = some lock ∧
        handle.lock + 1 ≠ sli.locks.length) := by
      rw [← hinside, List.isEmpty_iff.mp hempty]
      simp
    rw [if_pos hempty]
    by_cases hlast : index + 1 = manager.socketLocks.length
    · rw [if_pos hlast, ownedEntry_eq_some_iff, ownedEntry_eq_some_iff]
      constructor
      · rintro ⟨record, hrecord, hlock, howner⟩
        have hmem := (List.rdropWhile_prefix _ _).subset
          (List.mem_of_getElem? hrecord)
        have hthere : record.controlSocket.isNone = false := by
          rw [Option.isNone_eq_false_iff, Option.isSome_iff_ne_none]
          intro hnone
          rw [htidy record (List.dropLast_subset _ hmem) hnone] at hlock
          cases hlock
        rw [@getElem?_dropLast_rdropWhile _ _ _ _ record hthere] at hrecord
        refine ⟨⟨record, hrecord.1, hlock, howner⟩, ?_⟩
        intro hsocket
        omega
      · rintro ⟨⟨record, hrecord, hlock, howner⟩, hne⟩
        refine ⟨record, ?_, hlock, howner⟩
        have hthere : record.controlSocket.isNone = false := by
          rw [Option.isNone_eq_false_iff, Option.isSome_iff_ne_none]
          intro hnone
          rw [htidy record (List.mem_of_getElem? hrecord) hnone] at hlock
          cases hlock
        rw [@getElem?_dropLast_rdropWhile _ _ _ _ record hthere]
        refine ⟨hrecord, ?_⟩
        intro hend
        have hindex : handle.socket = index := by omega
        rw [hindex, hget, Option.some.injEq] at hrecord
        subst hrecord
        exact hgone ⟨hlock, hne hindex⟩
    · rw [if_neg hlast, ownedEntry_set hget, ownedEntry_eq_some_iff]
      simp only
      by_cases hindex : handle.socket = index
      · rw [if_pos hindex, List.isEmpty_iff.mp hempty, hindex, hget]
        simp only [Option.some.injEq, exists_eq_left', true_imp_iff]
        constructor
        · intro h
          cases h
        · rintro ⟨⟨hlock, _⟩, hne⟩
          exact absurd ⟨hlock, hne⟩ hgone
      · rw [if_neg hindex, ownedEntry_eq_some_iff]
        simp [hindex]
  · rw [if_neg hempty, ownedEntry_set hget]
    by_cases hindex : handle.socket = index
    · rw [if_pos hindex, ownedEntry_eq_some_iff, hindex, hget]
      simp only [Option.some.injEq, exists_eq_left', true_imp_iff,
        Option.map_eq_some_iff, Prod.mk.injEq]
      constructor
      · rintro ⟨other, hother, howner, rfl⟩
        rcases hinside.mp hother with ⟨hlock, hne⟩
        exact ⟨⟨hlock, howner⟩, hne⟩
      · rintro ⟨⟨hlock, howner⟩, hne⟩
        exact ⟨lock, hinside.mpr ⟨hlock, hne⟩, howner, rfl⟩
    · rw [if_neg hindex]
      simp [hindex]

theorem unlock_ownedEntry {manager following : OpLockManager Socket}
    (htidy : Tidy manager.socketLocks) {handle : OpLock}
    {events : List Socket}
    (hunlock : manager.unlock handle = some (following, events))
    (place : OpLock) {owner : Option Socket} {lock : LockInfo}
    (hkeep : lock.released = false) :
    following.ownedEntry place = some (owner, lock) ↔
      manager.ownedEntry place = some (owner, lock) ∧ place ≠ handle := by
  obtain ⟨sli, unlocked, hsli, hlock, rfl, _⟩ :=
    unlock_some hunlock
  have hlt := (List.getElem?_eq_some_iff.mp hlock).1
  by_cases hlast : handle.lock + 1 = sli.locks.length
  · rw [if_pos hlast, removeLast_ownedEntry htidy hsli
      (List.ne_nil_of_length_pos (by omega)) place hkeep]
    have hsame : (⟨handle.socket, sli.locks.length - 1⟩ : OpLock) =
        handle := by
      rw [← hlast, Nat.add_sub_cancel]
    rw [hsame]
  · rw [if_neg hlast, ownedEntry_set hsli]
    by_cases hindex : place.socket = handle.socket
    · rw [if_pos hindex, ownedEntry_eq_some_iff, hindex, hsli]
      simp only [Option.some.injEq, exists_eq_left',
        Option.map_eq_some_iff, Prod.mk.injEq]
      by_cases hsame : place.lock = handle.lock
      · have hplace : place = handle := by
          cases place
          cases handle
          simp only at hindex hsame
          rw [hindex, hsame]
        rw [hsame, List.getElem?_set_self hlt]
        constructor
        · rintro ⟨other, hother, _, rfl⟩
          rw [← Option.some.inj hother] at hkeep
          cases hkeep
        · intro h
          exact absurd hplace h.2
      · rw [List.getElem?_set_ne (Ne.symm hsame)]
        constructor
        · rintro ⟨other, hother, howner, rfl⟩
          refine ⟨⟨hother, howner⟩, ?_⟩
          intro hplace
          exact hsame (congrArg OpLock.lock hplace)
        · rintro ⟨⟨hother, howner⟩, _⟩
          exact ⟨lock, hother, howner, rfl⟩
    · rw [if_neg hindex]
      constructor
      · intro h
        refine ⟨h, ?_⟩
        intro hplace
        exact hindex (congrArg OpLock.socket hplace)
      · intro h
        exact h.1

theorem unlock_waiting {manager following : OpLockManager Socket}
    {handle : OpLock} {events : List Socket}
    (hunlock : manager.unlock handle = some (following, events))
    {sli : SocketLockInfo Socket} (hsli : sli ∈ following.socketLocks)
    {lock : LockInfo} (hlock : lock ∈ sli.locks)
    (hwaiting : lock.waiting = true) :
    ∃ before ∈ manager.socketLocks, lock ∈ before.locks := by
  obtain ⟨record, unlocked, hget, hentry, rfl, _⟩ :=
    unlock_some hunlock
  have hrecord := List.mem_of_getElem? hget
  have hset {replaced : SocketLockInfo Socket}
      (hmem : sli ∈ manager.socketLocks.set handle.socket replaced)
      (hsub : ∀ other ∈ replaced.locks, other.waiting = true →
        other ∈ record.locks) :
      ∃ before ∈ manager.socketLocks, lock ∈ before.locks := by
    rcases List.mem_or_eq_of_mem_set hmem with hold | rfl
    · exact ⟨sli, hold, hlock⟩
    · exact ⟨record, hrecord, hsub lock hlock hwaiting⟩
  have hkept : ∀ other ∈ record.locks.dropLast.rdropWhile (·.released),
      other ∈ record.locks := by
    intro other hmem
    exact List.dropLast_subset _
      ((List.rdropWhile_prefix _ _).subset hmem)
  unfold removeLast at hsli
  simp only at hsli
  split_ifs at hsli
  · exact ⟨sli, List.dropLast_subset _
      ((List.rdropWhile_prefix _ _).subset hsli), hlock⟩
  · exact hset hsli fun other hmem _ => hkept other hmem
  · exact hset hsli fun other hmem _ => hkept other hmem
  · apply hset hsli
    intro other hmem hother
    rcases List.mem_or_eq_of_mem_set hmem with hold | rfl
    · exact hold
    · cases hother

theorem unlock_events {manager following : OpLockManager Socket}
    {handle : OpLock} {events : List Socket}
    (hunlock : manager.unlock handle = some (following, events)) :
    ∃ owner unlocked, manager.ownedEntry handle = some (owner, unlocked) ∧
      events = if unlocked.waiting then [] else following.wakeup := by
  obtain ⟨record, unlocked, hget, hentry, _, hevents⟩ :=
    unlock_some hunlock
  exact ⟨record.controlSocket, unlocked,
    ownedEntry_eq_some_iff.mpr ⟨record, hget, hentry, rfl⟩, hevents⟩

theorem unlock_tidy {manager following : OpLockManager Socket}
    (htidy : Tidy manager.socketLocks) {handle : OpLock}
    {events : List Socket}
    (hunlock : manager.unlock handle = some (following, events)) :
    Tidy following.socketLocks := by
  obtain ⟨record, unlocked, hget, hentry, rfl, _⟩ :=
    unlock_some hunlock
  have howned : record.controlSocket ≠ none := by
    intro hnone
    rw [htidy record (List.mem_of_getElem? hget) hnone] at hentry
    cases hentry
  have hset {replaced : SocketLockInfo Socket}
      (hreplaced : replaced.controlSocket = none →
        replaced.locks = []) :
      Tidy (manager.socketLocks.set handle.socket replaced) := by
    intro sli hmem hnone
    rcases List.mem_or_eq_of_mem_set hmem with hold | rfl
    · exact htidy sli hold hnone
    · exact hreplaced hnone
  unfold removeLast
  simp only
  split_ifs with hlast hempty
  · intro sli hmem
    exact htidy sli (List.dropLast_subset _
      ((List.rdropWhile_prefix _ _).subset hmem))
  · exact hset fun _ => List.isEmpty_iff.mp hempty
  · exact hset fun hnone => absurd hnone howned
  · exact hset fun hnone => absurd hnone howned

/-! ## Locking -/

variable [DecidableEq Socket]

theorem getOrCreate_ownedEntry (manager : OpLockManager Socket)
    (socket : Socket) (currentServer : Server) (handle : OpLock) :
    (manager.getOrCreate socket currentServer).1.ownedEntry handle =
      manager.ownedEntry handle := by
  unfold getOrCreate
  cases manager.socketLocks.findIdx?
      (fun sli => sli.controlSocket == some socket) with
  | some index => rfl
  | none =>
      unfold ownedEntry
      simp only
      by_cases hlt : handle.socket < manager.socketLocks.length
      · rw [List.getElem?_append_left hlt]
      · rw [List.getElem?_append_right (by omega), List.getElem?_singleton,
          @List.getElem?_eq_none _ manager.socketLocks _ (by omega)]
        split_ifs <;> rfl

theorem lock_ownedEntry (manager : OpLockManager Socket)
    (currentServer : Server) (socket : Socket) (reason : LockingReason)
    (path : ServerPath) (inclusive : Bool) :
    ∃ info : LockInfo, info.path = path ∧ info.reason = reason ∧
      info.inclusive = inclusive ∧ info.released = false ∧
      (∀ handle, (manager.lock currentServer socket reason path
          inclusive).1.ownedEntry handle =
        if handle = (manager.lock currentServer socket reason path
            inclusive).2 then some (some socket, info)
        else manager.ownedEntry handle) ∧
      manager.ownedEntry (manager.lock currentServer socket reason path
        inclusive).2 = none ∧
      (info.waiting = true → ∃ place owner held,
        place.socket ≠ (manager.lock currentServer socket reason path
          inclusive).2.socket ∧
        manager.ownedEntry place = some (owner, held) ∧
        held.blocks info = true) := by
  rcases manager.getOrCreate_spec socket currentServer with
    ⟨sli, hget, hsocket, _⟩
  have hsame := manager.getOrCreate_ownedEntry socket currentServer
  unfold lock
  simp only [hget]
  generalize manager.getOrCreate socket currentServer = found at hget hsame
  refine ⟨
    { path := path
      reason := reason
      inclusive := inclusive
      waiting := found.1.mustWait socket sli.server
        { path := path
          reason := reason
          inclusive := inclusive
          waiting := false
          released := false }
      released := false }, rfl, rfl, rfl, rfl, ?_, ?_, ?_⟩
  · rintro ⟨index, place⟩
    rw [ownedEntry_set hget, hsame, hsocket]
    simp only [OpLock.mk.injEq]
    by_cases hindex : index = found.2
    · rw [if_pos hindex]
      by_cases hlast : place = sli.locks.length
      · rw [if_pos ⟨hindex, hlast⟩, hlast, List.getElem?_concat_length]
        rfl
      · rw [if_neg fun h => hlast h.2, ← hsame]
        unfold ownedEntry
        simp only [hindex, hget, hsocket]
        by_cases hlt : place < sli.locks.length
        · rw [List.getElem?_append_left hlt]
        · rw [List.getElem?_eq_none (by rw [List.length_append]; simp; omega),
            List.getElem?_eq_none (by omega)]
    · rw [if_neg hindex, if_neg fun h => hindex h.1]
  · rw [← hsame]
    unfold ownedEntry
    simp only [hget, List.getElem?_length, Option.map_none]
  · intro hwaiting
    rcases List.any_eq_true.mp hwaiting with ⟨other, hother, hblocked⟩
    simp only [Bool.and_eq_true, Bool.not_eq_true', Bool.or_eq_false_iff,
      beq_eq_false_iff_ne, ne_eq] at hblocked
    rcases List.any_eq_true.mp hblocked.2 with ⟨held, hheld, hblocks⟩
    rcases List.mem_iff_getElem?.mp hother with ⟨i, hi⟩
    rcases List.mem_iff_getElem?.mp hheld with ⟨j, hj⟩
    refine ⟨⟨i, j⟩, other.controlSocket, held, ?_, ?_, hblocks⟩
    · rintro rfl
      rw [hget, Option.some.injEq] at hi
      subst hi
      exact hblocked.1.1 hsocket
    · rw [← hsame, ownedEntry_eq_some_iff]
      exact ⟨other, hi, hj, rfl⟩

theorem lock_tidy {manager : OpLockManager Socket}
    (htidy : Tidy manager.socketLocks) (currentServer : Server)
    (socket : Socket) (reason : LockingReason) (path : ServerPath)
    (inclusive : Bool) :
    Tidy (manager.lock currentServer socket reason path
      inclusive).1.socketLocks := by
  rcases manager.getOrCreate_spec socket currentServer with
    ⟨sli, hget, hsocket, _⟩
  simp only [lock, hget]
  intro record hmem hnone
  rcases List.mem_or_eq_of_mem_set hmem with hold | rfl
  · rcases getOrCreate_socketLocks hold with hbefore | ⟨howner, _⟩
    · exact htidy record hbefore hnone
    · rw [howner] at hnone
      cases hnone
  · rw [hsocket] at hnone
    cases hnone

/-! ## Obtaining -/

def otherRecords (manager : OpLockManager Socket) (index : ℕ) :
    List (SocketLockInfo Socket) :=
  manager.socketLocks.take index ++ manager.socketLocks.drop (index + 1)

theorem obtainWaiting_ownedEntry {manager : OpLockManager Socket}
    (hone : OneRecordEach manager.socketLocks) (socket : Socket)
    (handle : OpLock) :
    (manager.obtainWaiting socket).ownedEntry handle =
      (manager.ownedEntry handle).map fun entry =>
        (entry.1, if entry.1 = some socket then
          obtain (manager.otherRecords handle.socket) entry.2
        else entry.2) := by
  by_cases hpresent : ∃ (index : ℕ) (sli : SocketLockInfo Socket),
      manager.socketLocks[index]? = some sli ∧
        sli.controlSocket = some socket
  · rcases hpresent with ⟨index, sli, hget, hsocket⟩
    rcases others_of_oneRecordEach hone hget hsocket with ⟨hleft, hright⟩
    have hafter : manager.obtainWaiting socket =
        { socketLocks := manager.socketLocks.set index
            { sli with
              locks := sli.locks.map (obtain (manager.otherRecords index)) } }
        := by
      have hlt := (List.getElem?_eq_some_iff.mp hget).1
      unfold obtainWaiting
      rw [congrArg (obtainIn socket []) (split_at hget),
        obtainIn_present [] hleft hsocket hright, List.set_eq_take_append_cons_drop,
        if_pos hlt]
      rfl
    rw [hafter, ownedEntry_set hget]
    by_cases hindex : handle.socket = index
    · subst hindex
      unfold ownedEntry
      rw [if_pos rfl, hget]
      simp [hsocket, Function.comp_def]
    · rw [if_neg hindex]
      cases hentry : manager.ownedEntry handle with
      | none => rfl
      | some entry =>
          obtain ⟨owner, lock⟩ := entry
          have hother : owner ≠ some socket := by
            rintro rfl
            rcases ownedEntry_eq_some_iff.mp hentry with
              ⟨record, hrecord, _, howner⟩
            exact hindex (hone _ _ socket record sli hrecord hget howner
              hsocket)
          rw [Option.map_some, if_neg hother]
  · have habsent : ∀ sli ∈ manager.socketLocks,
        sli.controlSocket ≠ some socket := by
      intro sli hmem hsocket
      rcases List.mem_iff_getElem?.mp hmem with ⟨index, hget⟩
      exact hpresent ⟨index, sli, hget, hsocket⟩
    have hafter : manager.obtainWaiting socket = manager := by
      unfold obtainWaiting
      rw [obtainIn_absent [] habsent, List.nil_append]
    rw [hafter]
    cases hentry : manager.ownedEntry handle with
    | none => rfl
    | some entry =>
        obtain ⟨owner, lock⟩ := entry
        have hother : owner ≠ some socket := by
          rintro rfl
          rcases ownedEntry_eq_some_iff.mp hentry with
            ⟨record, hrecord, _, howner⟩
          exact habsent record (List.mem_of_getElem? hrecord) howner
        rw [Option.map_some, if_neg hother]

omit [DecidableEq Socket] in
theorem obtain_released (others : List (SocketLockInfo Socket))
    (lock : LockInfo) : (obtain others lock).released = lock.released := by
  unfold obtain
  split_ifs <;> rfl

omit [DecidableEq Socket] in
theorem obtain_path (others : List (SocketLockInfo Socket))
    (lock : LockInfo) : (obtain others lock).path = lock.path := by
  unfold obtain
  split_ifs <;> rfl

omit [DecidableEq Socket] in
theorem obtain_reason (others : List (SocketLockInfo Socket))
    (lock : LockInfo) : (obtain others lock).reason = lock.reason := by
  unfold obtain
  split_ifs <;> rfl

omit [DecidableEq Socket] in
theorem obtain_inclusive (others : List (SocketLockInfo Socket))
    (lock : LockInfo) : (obtain others lock).inclusive = lock.inclusive := by
  unfold obtain
  split_ifs <;> rfl

omit [DecidableEq Socket] in
theorem waiting_of_obtain {others : List (SocketLockInfo Socket)}
    {lock : LockInfo} (hwaiting : (obtain others lock).waiting = true) :
    lock.waiting = true ∧ obtain others lock = lock ∧
      ∃ other ∈ others, ∃ held ∈ other.locks, held.blocks lock = true := by
  unfold obtain at hwaiting ⊢
  split_ifs at hwaiting ⊢ with hfree
  refine ⟨hwaiting, rfl, ?_⟩
  simp only [hwaiting, Bool.true_and, Bool.not_eq_true', Bool.not_eq_false,
    List.any_eq_true] at hfree
  exact hfree

theorem obtainWaiting_tidy {manager : OpLockManager Socket}
    (htidy : Tidy manager.socketLocks) (socket : Socket) :
    Tidy (manager.obtainWaiting socket).socketLocks := by
  have hpass : ∀ before rest : List (SocketLockInfo Socket),
      Tidy (before ++ rest) → Tidy (obtainIn socket before rest) := by
    intro before rest hall
    induction rest generalizing before with
    | nil =>
        rw [List.append_nil] at hall
        exact hall
    | cons record rest ih =>
        unfold obtainIn
        split_ifs with hsocket
        · apply ih
          intro sli hmem hnone
          rw [List.append_assoc, List.mem_append, List.singleton_append,
            List.mem_cons] at hmem
          rcases hmem with hmem | rfl | hmem
          · exact hall sli (List.mem_append_left _ hmem) hnone
          · rw [hsocket] at hnone
            cases hnone
          · exact hall sli (List.mem_append_right _
              (List.mem_cons_of_mem _ hmem)) hnone
        · apply ih
          rw [List.append_assoc, List.singleton_append]
          exact hall
  exact hpass [] manager.socketLocks htidy

end OpLockManager

end TabFtp
