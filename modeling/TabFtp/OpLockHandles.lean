import TabFtp.OpLockEntries

/-!
# The objects that hold locks

`OpLock` objects are created by `Lock`, moved and destroyed in any order.  An
object that is not empty refers to the entry that was created for it, although
the indices of entries are used again.
-/

namespace TabFtp

open OpLockManager

universe u v

/-- A call of `Lock`: its arguments and the indices it returned. -/
structure LockCall where
  reason : LockingReason
  path : ServerPath
  inclusive : Bool
  handle : OpLock

/-- An `OpLock` with a manager.  Which call created it is not part of the
program. -/
structure HeldOpLock where
  handle : OpLock
  call : ℕ

/-- The manager, the calls of `Lock` so far and the objects: there is none at
a place, or an empty one, or one with a manager. -/
structure OpLockObjects (Socket : Type u) (Place : Type v) where
  state : OpLockState Socket
  calls : List LockCall
  objects : Place → Option (Option HeldOpLock)

inductive OpLockObjectInput (Socket : Type u) (Place : Type v)
  | create (place : Place)
  | lock (place : Place) (socket : Socket) (reason : LockingReason)
      (path : ServerPath) (inclusive : Bool)
  | moveConstruct (source target : Place)
  | moveAssign (source target : Place)
  | destroy (place : Place)
  | obtainWaiting (socket : Socket)
  | serverChanges (socket : Socket) (server : Server)

variable {Socket : Type u} {Place : Type v} [DecidableEq Socket]
  [DecidableEq Place]

namespace OpLockObjects

def put (objects : OpLockObjects Socket Place) (place : Place)
    (object : Option (Option HeldOpLock)) : OpLockObjects Socket Place :=
  { objects with objects := Function.update objects.objects place object }

/-- `if (mgr_) { mgr_->Unlock(*this); }`, which makes the object empty. -/
def unlockObject (objects : OpLockObjects Socket Place) (place : Place) :
    Option HeldOpLock → Option (OpLockObjects Socket Place × List Socket)
  | none => some (objects, [])
  | some held =>
      match opLockStep objects.state (.unlock held.handle) with
      | none => none
      | some (state, events) =>
          some ({ objects with state := state }.put place (some none), events)

def lockObject (objects : OpLockObjects Socket Place) (place : Place)
    (socket : Socket) (reason : LockingReason) (path : ServerPath)
    (inclusive : Bool) : OpLockObjects Socket Place :=
  let locked := objects.state.manager.lock
    (objects.state.currentServer socket) socket reason path inclusive
  { state := { objects.state with manager := locked.1 }
    calls := objects.calls ++ [⟨reason, path, inclusive, locked.2⟩]
    objects := Function.update objects.objects place
      (some (some ⟨locked.2, objects.calls.length⟩)) }

end OpLockObjects

open OpLockObjects in
/-- An object is only created where there is none, and only an object can be
moved or destroyed. -/
def opLockObjectStep (objects : OpLockObjects Socket Place) :
    OpLockObjectInput Socket Place →
      Option (OpLockObjects Socket Place × List Socket)
  | .create place =>
      match objects.objects place with
      | none => some (objects.put place (some none), [])
      | some _ => none
  | .lock place socket reason path inclusive =>
      match objects.objects place with
      | none =>
          some (objects.lockObject place socket reason path inclusive, [])
      | some _ => none
  | .moveConstruct source target =>
      match objects.objects source, objects.objects target with
      | some object, none =>
          some ((objects.put target (some object)).put source (some none), [])
      | _, _ => none
  | .moveAssign source target =>
      match objects.objects source, objects.objects target with
      | some object, some old =>
          if source = target then some (objects, [])
          else
            match objects.unlockObject target old with
            | none => none
            | some (unlocked, events) =>
                some ((unlocked.put target (some object)).put source
                  (some none), events)
      | _, _ => none
  | .destroy place =>
      match objects.objects place with
      | none => none
      | some object =>
          match objects.unlockObject place object with
          | none => none
          | some (unlocked, events) => some (unlocked.put place none, events)
  | .obtainWaiting socket =>
      match opLockStep objects.state (.obtainWaiting socket) with
      | none => none
      | some (state, events) => some ({ objects with state := state }, events)
  | .serverChanges socket server =>
      match opLockStep objects.state (.serverChanges socket server) with
      | none => none
      | some (state, events) => some ({ objects with state := state }, events)

def opLockObjectMachine (Socket : Type u) (Place : Type v)
    [DecidableEq Socket] [DecidableEq Place] :
    LabelledRuns.Machine (OpLockObjects Socket Place)
      (OpLockObjectInput Socket Place) Socket where
  initial objects :=
    objects.state.manager.socketLocks = [] ∧ objects.calls = [] ∧
      ∀ place, objects.objects place = none
  step := opLockObjectStep

/-! ## The invariant -/

/-- The entry is the one that a call of `Lock` created: it has the arguments
of the call, and no later call created an entry at its place. -/
def CreatedBy (calls : List LockCall) (index : ℕ) (handle : OpLock)
    (lock : LockInfo) : Prop :=
  (∃ call, calls[index]? = some call ∧ call.handle = handle ∧
      lock.path = call.path ∧ lock.reason = call.reason ∧
      lock.inclusive = call.inclusive) ∧
    ∀ later call, index < later → calls[later]? = some call →
      call.handle ≠ handle

/-- Every object refers to an entry of its own, and every entry that is not
released belongs to an object. -/
structure HandlesIntact (manager : OpLockManager Socket)
    (calls : List LockCall) (objects : Place → Option (Option HeldOpLock)) :
    Prop where
  refers : ∀ place held, objects place = some (some held) →
    ∃ owner lock, manager.ownedEntry held.handle = some (owner, lock) ∧
      lock.released = false ∧ CreatedBy calls held.call held.handle lock
  distinct : ∀ place other held otherHeld,
    objects place = some (some held) →
    objects other = some (some otherHeld) →
    held.handle = otherHeld.handle → place = other
  referred : ∀ handle owner lock,
    manager.ownedEntry handle = some (owner, lock) → lock.released = false →
    ∃ place held, objects place = some (some held) ∧ held.handle = handle

structure ObjectsIntact (objects : OpLockObjects Socket Place) : Prop where
  one : OneRecordEach objects.state.manager.socketLocks
  tidy : Tidy objects.state.manager.socketLocks
  handles : HandlesIntact objects.state.manager objects.calls objects.objects

theorem CreatedBy.congr {calls : List LockCall} {index : ℕ} {handle : OpLock}
    {lock other : LockInfo} (hcreated : CreatedBy calls index handle lock)
    (hpath : other.path = lock.path) (hreason : other.reason = lock.reason)
    (hinclusive : other.inclusive = lock.inclusive) :
    CreatedBy calls index handle other := by
  rcases hcreated with ⟨⟨call, hcall, hhandle, hargs⟩, hlater⟩
  rw [← hpath, ← hreason, ← hinclusive] at hargs
  exact ⟨⟨call, hcall, hhandle, hargs⟩, hlater⟩

theorem CreatedBy.append {calls : List LockCall} {index : ℕ} {handle : OpLock}
    {lock : LockInfo} (hcreated : CreatedBy calls index handle lock)
    {call : LockCall} (hother : call.handle ≠ handle) :
    CreatedBy (calls ++ [call]) index handle lock := by
  rcases hcreated with ⟨⟨created, hcreated, hargs⟩, hlater⟩
  have hlt := (List.getElem?_eq_some_iff.mp hcreated).1
  constructor
  · refine ⟨created, ?_, hargs⟩
    rw [List.getElem?_append_left hlt]
    exact hcreated
  · intro later added hafter hadded
    by_cases hold : later < calls.length
    · rw [List.getElem?_append_left hold] at hadded
      exact hlater later added hafter hadded
    · rw [List.getElem?_append_right (by omega), List.getElem?_singleton]
        at hadded
      split_ifs at hadded
      rw [← Option.some.inj hadded]
      exact hother

/-! ## Objects that change their places -/

section

variable {manager : OpLockManager Socket} {calls : List LockCall}
  {objects : Place → Option (Option HeldOpLock)}

omit [DecidableEq Socket] [DecidableEq Place] in
theorem HandlesIntact.congr {others : Place → Option (Option HeldOpLock)}
    (hintact : HandlesIntact manager calls objects)
    (hsame : ∀ place held, others place = some (some held) ↔
      objects place = some (some held)) :
    HandlesIntact manager calls others := by
  refine {
    refers := ?_
    distinct := ?_
    referred := ?_ }
  · intro place held hheld
    exact hintact.refers place held ((hsame place held).mp hheld)
  · intro place other held otherHeld hheld hother
    exact hintact.distinct place other held otherHeld
      ((hsame place held).mp hheld) ((hsame other otherHeld).mp hother)
  · intro handle owner lock hentry hkeep
    rcases hintact.referred handle owner lock hentry hkeep with
      ⟨place, held, hheld, hhandle⟩
    exact ⟨place, held, (hsame place held).mpr hheld, hhandle⟩

omit [DecidableEq Socket] in
theorem HandlesIntact.put (hintact : HandlesIntact manager calls objects)
    {place : Place} (hplace : ∀ held, objects place ≠ some (some held))
    {object : Option (Option HeldOpLock)}
    (hobject : ∀ held, object ≠ some (some held)) :
    HandlesIntact manager calls (Function.update objects place object) := by
  apply hintact.congr
  intro other held
  by_cases hsame : other = place
  · rw [hsame, Function.update_self]
    constructor
    · intro h
      exact absurd h (hobject held)
    · intro h
      exact absurd h (hplace held)
  · rw [Function.update_of_ne hsame]

omit [DecidableEq Socket] in
theorem HandlesIntact.move (hintact : HandlesIntact manager calls objects)
    {source target : Place} (hne : source ≠ target)
    {object : Option HeldOpLock} (hsource : objects source = some object)
    (htarget : ∀ held, objects target ≠ some (some held)) :
    HandlesIntact manager calls
      (Function.update (Function.update objects target (some object)) source
        (some none)) := by
  have hafter : ∀ place held,
      Function.update (Function.update objects target (some object)) source
          (some none) place = some (some held) ↔
        (place = target ∧ object = some held) ∨
          (place ≠ target ∧ place ≠ source ∧
            objects place = some (some held)) := by
    intro place held
    by_cases hfrom : place = source
    · rw [hfrom, Function.update_self]
      simp [hne]
    · rw [Function.update_of_ne hfrom]
      by_cases hto : place = target
      · rw [hto, Function.update_self]
        simp
      · rw [Function.update_of_ne hto]
        simp [hto, hfrom]
  -- where an object comes from
  have hcomes : ∀ place held,
      Function.update (Function.update objects target (some object)) source
          (some none) place = some (some held) →
        ∃ old, objects old = some (some held) ∧
          (place = target ∧ old = source ∨
            place ≠ target ∧ place ≠ source ∧ old = place) := by
    intro place held hheld
    rcases (hafter place held).mp hheld with ⟨hto, rfl⟩ | ⟨hto, hfrom, hold⟩
    · exact ⟨source, hsource, Or.inl ⟨hto, rfl⟩⟩
    · exact ⟨place, hold, Or.inr ⟨hto, hfrom, rfl⟩⟩
  refine {
    refers := ?_
    distinct := ?_
    referred := ?_ }
  · intro place held hheld
    rcases hcomes place held hheld with ⟨old, hold, _⟩
    exact hintact.refers old held hold
  · intro place other held otherHeld hheld hother hsame
    rcases hcomes place held hheld with ⟨old, hold, hfirst⟩
    rcases hcomes other otherHeld hother with ⟨older, holder, hsecond⟩
    have heq := hintact.distinct old older held otherHeld hold holder hsame
    rcases hfirst with ⟨rfl, rfl⟩ | ⟨_, hfrom, rfl⟩
    · rcases hsecond with ⟨hto, _⟩ | ⟨_, hfrom, rfl⟩
      · exact hto.symm
      · exact absurd heq.symm hfrom
    · rcases hsecond with ⟨_, rfl⟩ | ⟨_, _, rfl⟩
      · exact absurd heq hfrom
      · exact heq
  · intro handle owner lock hentry hkeep
    rcases hintact.referred handle owner lock hentry hkeep with
      ⟨place, held, hheld, hhandle⟩
    by_cases hfrom : place = source
    · refine ⟨target, held, (hafter target held).mpr (Or.inl ⟨rfl, ?_⟩),
        hhandle⟩
      rw [hfrom, hsource] at hheld
      exact Option.some.inj hheld
    · have hto : place ≠ target := by
        rintro rfl
        exact htarget held hheld
      exact ⟨place, held,
        (hafter place held).mpr (Or.inr ⟨hto, hfrom, hheld⟩), hhandle⟩

/-! ## Calls of the manager -/

omit [DecidableEq Socket] in
theorem HandlesIntact.unlock {following : OpLockManager Socket}
    {events : List Socket} (hintact : HandlesIntact manager calls objects)
    (htidy : Tidy manager.socketLocks) {place : Place} {held : HeldOpLock}
    (hheld : objects place = some (some held))
    (hunlock : manager.unlock held.handle = some (following, events)) :
    HandlesIntact following calls
      (Function.update objects place (some none)) := by
  have hafter : ∀ other otherHeld,
      Function.update objects place (some none) other =
          some (some otherHeld) →
        other ≠ place ∧ objects other = some (some otherHeld) := by
    intro other otherHeld hother
    by_cases hsame : other = place
    · rw [hsame, Function.update_self] at hother
      cases hother
    · rw [Function.update_of_ne hsame] at hother
      exact ⟨hsame, hother⟩
  refine {
    refers := ?_
    distinct := ?_
    referred := ?_ }
  · intro other otherHeld hother
    rcases hafter other otherHeld hother with ⟨hne, hbefore⟩
    rcases hintact.refers other otherHeld hbefore with
      ⟨owner, lock, hentry, hkeep, hcreated⟩
    refine ⟨owner, lock, ?_, hkeep, hcreated⟩
    rw [unlock_ownedEntry htidy hunlock otherHeld.handle hkeep]
    refine ⟨hentry, ?_⟩
    intro hsame
    exact hne (hintact.distinct other place otherHeld held hbefore hheld hsame)
  · intro first second firstHeld secondHeld hfirst hsecond
    exact hintact.distinct first second firstHeld secondHeld
      (hafter first firstHeld hfirst).2 (hafter second secondHeld hsecond).2
  · intro handle owner lock hentry hkeep
    rcases (unlock_ownedEntry htidy hunlock handle hkeep).mp hentry with
      ⟨hbefore, hne⟩
    rcases hintact.referred handle owner lock hbefore hkeep with
      ⟨other, otherHeld, hother, hhandle⟩
    refine ⟨other, otherHeld, ?_, hhandle⟩
    rw [Function.update_of_ne]
    · exact hother
    · rintro rfl
      rw [hheld] at hother
      cases hother
      exact hne hhandle.symm

theorem HandlesIntact.lock (hintact : HandlesIntact manager calls objects)
    (currentServer : Server) (socket : Socket) (reason : LockingReason)
    (path : ServerPath) (inclusive : Bool) {place : Place}
    (hplace : objects place = none) :
    HandlesIntact
      (manager.lock currentServer socket reason path inclusive).1
      (calls ++ [⟨reason, path, inclusive,
        (manager.lock currentServer socket reason path inclusive).2⟩])
      (Function.update objects place (some (some
        ⟨(manager.lock currentServer socket reason path inclusive).2,
          calls.length⟩))) := by
  rcases manager.lock_ownedEntry currentServer socket reason path inclusive
    with ⟨info, hpath, hreason, hinclusive, hreleased, hentries, hfresh, _⟩
  generalize manager.lock currentServer socket reason path inclusive = locked
    at hentries hfresh ⊢
  have hafter : ∀ other held,
      Function.update objects place (some (some ⟨locked.2, calls.length⟩))
          other = some (some held) →
        other = place ∧ held = ⟨locked.2, calls.length⟩ ∨
          other ≠ place ∧ objects other = some (some held) := by
    intro other held hother
    by_cases hsame : other = place
    · rw [hsame, Function.update_self] at hother
      cases hother
      exact Or.inl ⟨hsame, rfl⟩
    · rw [Function.update_of_ne hsame] at hother
      exact Or.inr ⟨hsame, hother⟩
  -- the indices of the new entry are not those of an older object
  have hother : ∀ other held, objects other = some (some held) →
      held.handle ≠ locked.2 := by
    intro other held hheld hsame
    rcases hintact.refers other held hheld with ⟨owner, lock, hentry, _⟩
    rw [hsame, hfresh] at hentry
    cases hentry
  refine {
    refers := ?_
    distinct := ?_
    referred := ?_ }
  · intro other held hheld
    rcases hafter other held hheld with ⟨_, rfl⟩ | ⟨_, hbefore⟩
    · refine ⟨some socket, info, ?_, hreleased, ?_⟩
      · rw [hentries, if_pos rfl]
      · constructor
        · exact ⟨⟨reason, path, inclusive, locked.2⟩,
            List.getElem?_concat_length, rfl, hpath, hreason, hinclusive⟩
        · intro later call hlater hcall
          have hlt := (List.getElem?_eq_some_iff.mp hcall).1
          rw [List.length_append, List.length_singleton] at hlt
          change calls.length < later at hlater
          omega
    · rcases hintact.refers other held hbefore with
        ⟨owner, lock, hentry, hkeep, hcreated⟩
      have hne := hother other held hbefore
      refine ⟨owner, lock, ?_, hkeep, hcreated.append (Ne.symm hne)⟩
      rw [hentries, if_neg hne]
      exact hentry
  · intro first second firstHeld secondHeld hfirst hsecond hsame
    rcases hafter first firstHeld hfirst with ⟨rfl, rfl⟩ | ⟨_, hold⟩
    · rcases hafter second secondHeld hsecond with ⟨rfl, _⟩ | ⟨_, holder⟩
      · rfl
      · exact absurd hsame.symm (hother second secondHeld holder)
    · rcases hafter second secondHeld hsecond with ⟨_, rfl⟩ | ⟨_, holder⟩
      · exact absurd hsame (hother first firstHeld hold)
      · exact hintact.distinct first second firstHeld secondHeld hold holder
          hsame
  · intro handle owner lock hentry hkeep
    rw [hentries] at hentry
    by_cases hnew : handle = locked.2
    · refine ⟨place, ⟨locked.2, calls.length⟩, ?_, hnew.symm⟩
      rw [Function.update_self]
    · rw [if_neg hnew] at hentry
      rcases hintact.referred handle owner lock hentry hkeep with
        ⟨other, held, hheld, hhandle⟩
      refine ⟨other, held, ?_, hhandle⟩
      rw [Function.update_of_ne]
      · exact hheld
      · rintro rfl
        rw [hplace] at hheld
        cases hheld

omit [DecidableEq Place] in
theorem HandlesIntact.obtainWaiting
    (hintact : HandlesIntact manager calls objects)
    (hone : OneRecordEach manager.socketLocks) (socket : Socket) :
    HandlesIntact (manager.obtainWaiting socket) calls objects := by
  have hentries := obtainWaiting_ownedEntry hone socket
  refine {
    refers := ?_
    distinct := hintact.distinct
    referred := ?_ }
  · intro place held hheld
    rcases hintact.refers place held hheld with
      ⟨owner, lock, hentry, hkeep, hcreated⟩
    rw [hentries, hentry, Option.map_some]
    refine ⟨owner, _, rfl, ?_⟩
    simp only
    split_ifs
    · refine ⟨(obtain_released _ lock).trans hkeep, ?_⟩
      apply hcreated.congr
      · exact obtain_path _ lock
      · exact obtain_reason _ lock
      · exact obtain_inclusive _ lock
    · exact ⟨hkeep, hcreated⟩
  · intro handle owner lock hentry hkeep
    rw [hentries] at hentry
    rcases Option.map_eq_some_iff.mp hentry with ⟨before, hbefore, heq⟩
    cases heq
    apply hintact.referred handle before.1 before.2 hbefore
    split_ifs at hkeep
    · rw [obtain_released] at hkeep
      exact hkeep
    · exact hkeep

end

/-! ## One step -/

theorem ObjectsIntact.unlockObject {objects : OpLockObjects Socket Place}
    (hintact : ObjectsIntact objects) {place : Place}
    {object : Option HeldOpLock}
    (hobject : objects.objects place = some object) :
    ∃ unlocked events, objects.unlockObject place object =
        some (unlocked, events) ∧ ObjectsIntact unlocked ∧
      unlocked.objects =
        Function.update objects.objects place (some none) := by
  cases object with
  | none =>
      refine ⟨objects, [], rfl, hintact, ?_⟩
      rw [← hobject, Function.update_eq_self]
  | some held =>
      rcases hintact.handles.refers place held hobject with
        ⟨owner, lock, hentry, _⟩
      rcases ownedEntry_eq_some_iff.mp hentry with ⟨sli, hsli, hlock, _⟩
      have hdone : ∃ following events, objects.state.manager.unlock
          held.handle = some (following, events) := by
        unfold OpLockManager.unlock
        simp only [hsli, hlock]
        exact ⟨_, _, rfl⟩
      rcases hdone with ⟨following, events, hunlock⟩
      refine ⟨{ objects with
        state := { objects.state with manager := following } }.put place
          (some none), events, ?_, ?_, rfl⟩
      · unfold OpLockObjects.unlockObject opLockStep
        simp only [hunlock, Option.map_some]
      · refine {
          one := unlock_oneRecordEach hintact.one hunlock
          tidy := unlock_tidy hintact.tidy hunlock
          handles := ?_ }
        exact hintact.handles.unlock hintact.tidy hobject hunlock

omit [DecidableEq Socket] in
theorem ObjectsIntact.put {objects : OpLockObjects Socket Place}
    (hintact : ObjectsIntact objects) {place : Place}
    (hplace : ∀ held, objects.objects place ≠ some (some held))
    {object : Option (Option HeldOpLock)}
    (hobject : ∀ held, object ≠ some (some held)) :
    ObjectsIntact (objects.put place object) where
  one := hintact.one
  tidy := hintact.tidy
  handles := hintact.handles.put hplace hobject

omit [DecidableEq Socket] in
theorem ObjectsIntact.move {objects : OpLockObjects Socket Place}
    (hintact : ObjectsIntact objects) {source target : Place}
    (hne : source ≠ target) {object : Option HeldOpLock}
    (hsource : objects.objects source = some object)
    (htarget : ∀ held, objects.objects target ≠ some (some held)) :
    ObjectsIntact
      ((objects.put target (some object)).put source (some none)) where
  one := hintact.one
  tidy := hintact.tidy
  handles := hintact.handles.move hne hsource htarget

theorem opLockObjectStep_intact {objects following : OpLockObjects Socket Place}
    {input : OpLockObjectInput Socket Place} {events : List Socket}
    (hintact : ObjectsIntact objects)
    (hstep : opLockObjectStep objects input = some (following, events)) :
    ObjectsIntact following := by
  unfold opLockObjectStep at hstep
  cases input with
  | create place =>
      cases hplace : objects.objects place with
      | some object => simp [hplace] at hstep
      | none =>
          simp only [hplace] at hstep
          cases hstep
          apply hintact.put
          · intro held h
            rw [hplace] at h
            cases h
          · intro held h
            cases h
  | lock place socket reason path inclusive =>
      cases hplace : objects.objects place with
      | some object => simp [hplace] at hstep
      | none =>
          simp only [hplace] at hstep
          cases hstep
          exact {
            one := lock_oneRecordEach hintact.one _ socket reason path
              inclusive
            tidy := lock_tidy hintact.tidy _ socket reason path inclusive
            handles := hintact.handles.lock _ socket reason path inclusive
              hplace }
  | moveConstruct source target =>
      cases hsource : objects.objects source with
      | none => simp [hsource] at hstep
      | some object =>
          cases htarget : objects.objects target with
          | some old => simp [hsource, htarget] at hstep
          | none =>
              simp only [hsource, htarget] at hstep
              cases hstep
              apply hintact.move _ hsource
              · intro held h
                rw [htarget] at h
                cases h
              · rintro rfl
                rw [hsource] at htarget
                cases htarget
  | moveAssign source target =>
      cases hsource : objects.objects source with
      | none => simp [hsource] at hstep
      | some object =>
          cases htarget : objects.objects target with
          | none => simp [hsource, htarget] at hstep
          | some old =>
              simp only [hsource, htarget] at hstep
              split_ifs at hstep with hself
              · cases hstep
                exact hintact
              · rcases hintact.unlockObject htarget with
                  ⟨unlocked, sent, hunlock, hunlocked, hobjects⟩
                rw [hunlock] at hstep
                cases hstep
                apply hunlocked.move hself
                · rw [hobjects, Function.update_of_ne hself]
                  exact hsource
                · intro held h
                  rw [hobjects, Function.update_self] at h
                  cases h
  | destroy place =>
      cases hplace : objects.objects place with
      | none => simp [hplace] at hstep
      | some object =>
          simp only [hplace] at hstep
          rcases hintact.unlockObject hplace with
            ⟨unlocked, sent, hunlock, hunlocked, hobjects⟩
          rw [hunlock] at hstep
          cases hstep
          apply hunlocked.put
          · intro held h
            rw [hobjects, Function.update_self] at h
            cases h
          · intro held h
            cases h
  | obtainWaiting socket =>
      cases hstep
      exact {
        one := hintact.one.keepsPlaces (obtainIn_keepsPlaces socket [] _)
        tidy := obtainWaiting_tidy hintact.tidy socket
        handles := hintact.handles.obtainWaiting hintact.one socket }
  | serverChanges socket server =>
      cases hstep
      exact ⟨hintact.one, hintact.tidy, hintact.handles⟩

/-! ## Whole runs -/

/-- In every run each handle refers to the lock of its own call. -/
theorem reachable_objectsIntact
    {inputs : List (OpLockObjectInput Socket Place)} {events : List Socket}
    {objects : OpLockObjects Socket Place}
    (hreach : (opLockObjectMachine Socket Place).Reaches inputs events
      objects) : ObjectsIntact objects := by
  apply hreach.stateInvariant ObjectsIntact
  · rintro initial ⟨hempty, hcalls, hnone⟩
    refine {
      one := ?_
      tidy := ?_
      handles := {
        refers := ?_
        distinct := ?_
        referred := ?_ } }
    · intro i j socket sli other hi
      rw [hempty] at hi
      cases hi
    · intro sli hmem
      rw [hempty] at hmem
      cases hmem
    · intro place held hheld
      rw [hnone] at hheld
      cases hheld
    · intro place other held otherHeld hheld
      rw [hnone] at hheld
      cases hheld
    · intro handle owner lock hentry
      rcases ownedEntry_eq_some_iff.mp hentry with ⟨sli, hsli, _⟩
      rw [hempty] at hsli
      cases hsli
  · intro current input following answer hintact _ hstep
    exact opLockObjectStep_intact hintact hstep

/-- In every run each object that is not empty refers to the entry that was
created for it, no two of them to the same one, and each entry that is not
released belongs to exactly one object. -/
theorem handles_intact
    {inputs : List (OpLockObjectInput Socket Place)} {events : List Socket}
    {objects : OpLockObjects Socket Place}
    (hreach : (opLockObjectMachine Socket Place).Reaches inputs events
      objects) :
    (∀ place held, objects.objects place = some (some held) →
      ∃ sli lock,
        objects.state.manager.socketLocks[held.handle.socket]? = some sli ∧
        sli.locks[held.handle.lock]? = some lock ∧ lock.released = false ∧
        CreatedBy objects.calls held.call held.handle lock) ∧
    (∀ place other held otherHeld,
      objects.objects place = some (some held) →
      objects.objects other = some (some otherHeld) → place ≠ other →
      held.handle ≠ otherHeld.handle) ∧
    ∀ handle sli lock,
      objects.state.manager.socketLocks[handle.socket]? = some sli →
      sli.locks[handle.lock]? = some lock → lock.released = false →
      ∃! place, ∃ held, objects.objects place = some (some held) ∧
        held.handle = handle := by
  have hintact := (reachable_objectsIntact hreach).handles
  refine ⟨?_, ?_, ?_⟩
  · intro place held hheld
    rcases hintact.refers place held hheld with
      ⟨owner, lock, hentry, hkeep, hcreated⟩
    rcases ownedEntry_eq_some_iff.mp hentry with ⟨sli, hsli, hlock, _⟩
    exact ⟨sli, lock, hsli, hlock, hkeep, hcreated⟩
  · intro place other held otherHeld hheld hother hne hsame
    exact hne (hintact.distinct place other held otherHeld hheld hother hsame)
  · intro handle sli lock hsli hlock hkeep
    have hentry : objects.state.manager.ownedEntry handle =
        some (sli.controlSocket, lock) :=
      ownedEntry_eq_some_iff.mpr ⟨sli, hsli, hlock, rfl⟩
    rcases hintact.referred handle sli.controlSocket lock hentry hkeep with
      ⟨place, held, hheld, hhandle⟩
    refine ⟨place, ⟨held, hheld, hhandle⟩, ?_⟩
    rintro other ⟨otherHeld, hother, hsame⟩
    exact hintact.distinct other place otherHeld held hother hheld
      (hsame.trans hhandle.symm)

/-- The indices of the first lock are used again for the second one. -/
theorem handles_intact_reused :
    let objects : OpLockObjects ℕ ℕ :=
      { state := ⟨⟨[⟨.onHost 'h', some 1, [.listRoot false]⟩]⟩,
          fun _ => .onHost 'h'⟩
        calls := [⟨.list, (LockInfo.listRoot false).path, false, ⟨0, 0⟩⟩,
          ⟨.list, (LockInfo.listRoot false).path, false, ⟨0, 0⟩⟩]
        objects := Function.update (Function.update (Function.update
          (Function.update (fun _ => none) 0 (some (some ⟨⟨0, 0⟩, 0⟩)))
            0 (some none)) 0 none) 1 (some (some ⟨⟨0, 0⟩, 1⟩)) }
    ∃! place, ∃ held, objects.objects place = some (some held) ∧
      held.handle = ⟨0, 0⟩ := by
  intro objects
  let initial : OpLockObjects ℕ ℕ :=
    ⟨⟨⟨[]⟩, fun _ => .onHost 'h'⟩, [], fun _ => none⟩
  have hinitial : (opLockObjectMachine ℕ ℕ).initial initial :=
    ⟨rfl, rfl, fun _ => rfl⟩
  have hexec : (opLockObjectMachine ℕ ℕ).exec (fun _ _ => True) initial
      [.lock 0 0 .list (LockInfo.listRoot false).path false, .destroy 0,
        .lock 1 1 .list (LockInfo.listRoot false).path false] =
      some (objects, []) := rfl
  exact (handles_intact
    (LabelledRuns.Machine.ReachesWithin.exec (.start hinitial) hexec)).2.2
      ⟨0, 0⟩ ⟨.onHost 'h', some 1, [.listRoot false]⟩ (.listRoot false)
      rfl rfl rfl

end TabFtp
