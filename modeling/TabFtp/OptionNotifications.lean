import TabFtp.LabelledRuns
import TabFtp.OptionValues

/-!
# Notifications about changed options

Changes of options are collected in a set.  The first one asks for
`continue_notify_changed` to be called later, which takes the set and tells
the watchers.  Two locks are involved, one for the options with the set and one
for the watchers, and they are not held together.  All options are registered
here before they are used.
-/

namespace TabFtp

structure WatchedOptions where
  options : List (BitVec 64)

namespace WatchedOptions

def any (watched : WatchedOptions) : Bool :=
  watched.options.any fun word => word != 0

def bit (opt : ℕ) : BitVec 64 :=
  BitVec.twoPow 64 (opt % 64)

def set (watched : WatchedOptions) (opt : ℕ) : WatchedOptions :=
  let grown :=
    if watched.options.length ≤ opt / 64 then
      watched.options ++
        List.replicate (opt / 64 + 1 - watched.options.length) 0
    else watched.options
  ⟨grown.modify (opt / 64) fun word => word ||| bit opt⟩

def unset (watched : WatchedOptions) (opt : ℕ) : WatchedOptions :=
  ⟨watched.options.modify (opt / 64) fun word => word &&& ~~~ bit opt⟩

def test (watched : WatchedOptions) (opt : ℕ) : Bool :=
  match watched.options[opt / 64]? with
  | none => false
  | some word => word &&& bit opt != 0

/-- `operator&=`, which leaves the words that both have. -/
def restrict (watched other : WatchedOptions) : WatchedOptions :=
  ⟨List.zipWith (· &&& ·) watched.options other.options⟩

def empty : WatchedOptions := ⟨[]⟩

/-! ## Bits -/

variable {watched other : WatchedOptions} {opt : ℕ}

theorem and_bit_ne_zero (word : BitVec 64) (opt : ℕ) :
    (word &&& bit opt != 0) = word.getLsbD (opt % 64) := by
  unfold bit
  rw [BitVec.and_twoPow]
  have hlt : opt % 64 < 64 := Nat.mod_lt _ (by decide)
  cases word.getLsbD (opt % 64) with
  | false => rfl
  | true =>
      have hne : BitVec.twoPow 64 (opt % 64) ≠ 0 := by
        intro hzero
        have hbit := @BitVec.getLsbD_twoPow 64 (opt % 64) (opt % 64)
        rw [hzero] at hbit
        simp [hlt] at hbit
      simpa using hne

theorem test_eq (watched : WatchedOptions) (opt : ℕ) :
    watched.test opt =
      (watched.options.getD (opt / 64) 0).getLsbD (opt % 64) := by
  unfold test
  rw [List.getD_eq_getElem?_getD]
  cases watched.options[opt / 64]? with
  | none => simp
  | some word => exact and_bit_ne_zero word opt

theorem getLsbD_bit (opt i : ℕ) :
    (bit opt).getLsbD i = decide (opt % 64 = i) := by
  unfold bit
  rw [BitVec.getLsbD_twoPow]
  have hmod : opt % 64 < 64 := Nat.mod_lt _ (by decide)
  simp [hmod]

theorem eq_iff_word_bit (opt p : ℕ) :
    opt = p ↔ opt / 64 = p / 64 ∧ opt % 64 = p % 64 := by
  omega

theorem getD_grown (words : List (BitVec 64)) (count i : ℕ) :
    (words ++ List.replicate count 0).getD i 0 = words.getD i 0 := by
  rw [List.getD_eq_getElem?_getD, List.getD_eq_getElem?_getD,
    List.getElem?_append, List.getElem?_replicate]
  by_cases hlt : i < words.length
  · rw [if_pos hlt]
  · rw [if_neg hlt, List.getElem?_eq_none (not_lt.mp hlt)]
    split
    · rfl
    · rfl

theorem getD_modify (words : List (BitVec 64)) (i j : ℕ)
    (change : BitVec 64 → BitVec 64) :
    (words.modify i change).getD j 0 =
      if i = j ∧ j < words.length then change (words.getD j 0)
      else words.getD j 0 := by
  rw [List.getD_eq_getElem?_getD, List.getD_eq_getElem?_getD,
    List.getElem?_modify]
  by_cases hlt : j < words.length
  · rw [List.getElem?_eq_getElem hlt]
    by_cases hsame : i = j
    · simp [hsame, hlt]
    · simp [hsame]
  · rw [List.getElem?_eq_none (not_lt.mp hlt), if_neg fun hboth => hlt hboth.2]
    rfl

theorem test_set (watched : WatchedOptions) (opt p : ℕ) :
    (watched.set opt).test p = (watched.test p || decide (opt = p)) := by
  rw [test_eq, test_eq]
  unfold set
  simp only
  generalize hgrown : (if watched.options.length ≤ opt / 64 then
      watched.options ++
        List.replicate (opt / 64 + 1 - watched.options.length) 0
    else watched.options) = grown
  have hlength : opt / 64 < grown.length := by
    rw [← hgrown]
    split
    · rw [List.length_append, List.length_replicate]
      omega
    · omega
  have hgetD : grown.getD (p / 64) 0 = watched.options.getD (p / 64) 0 := by
    rw [← hgrown]
    split
    · exact getD_grown _ _ _
    · rfl
  rw [getD_modify, hgetD]
  by_cases hword : opt / 64 = p / 64
  · rw [if_pos ⟨hword, hword ▸ hlength⟩, BitVec.getLsbD_or, getLsbD_bit]
    congr 1
    have hiff := eq_iff_word_bit opt p
    simp [hiff, hword]
  · have hne : opt ≠ p := fun heq => hword (congrArg (· / 64) heq)
    rw [if_neg fun hboth => hword hboth.1]
    simp [hne]

theorem test_unset (watched : WatchedOptions) (opt p : ℕ) :
    (watched.unset opt).test p = (watched.test p && !decide (opt = p)) := by
  rw [test_eq, test_eq]
  unfold unset
  simp only
  rw [getD_modify]
  by_cases hword : opt / 64 = p / 64
  · have hiff := eq_iff_word_bit opt p
    have hmod : p % 64 < 64 := Nat.mod_lt _ (by decide)
    by_cases hlt : p / 64 < watched.options.length
    · rw [if_pos ⟨hword, hlt⟩, BitVec.getLsbD_and, BitVec.getLsbD_not,
        getLsbD_bit]
      simp [hiff, hword, hmod]
    · have hnone : watched.options.getD (p / 64) 0 = 0 := by
        rw [List.getD_eq_getElem?_getD,
          List.getElem?_eq_none (not_lt.mp hlt)]
        rfl
      rw [if_neg fun hboth => hlt hboth.2, hnone]
      simp
  · have hne : opt ≠ p := fun heq => hword (congrArg (· / 64) heq)
    rw [if_neg fun hboth => hword hboth.1]
    simp [hne]

theorem test_restrict (watched other : WatchedOptions) (opt : ℕ) :
    (watched.restrict other).test opt =
      (watched.test opt && other.test opt) := by
  unfold restrict test
  simp only [List.getElem?_zipWith]
  cases hfirst : watched.options[opt / 64]? with
  | none => simp
  | some first =>
      cases hsecond : other.options[opt / 64]? with
      | none => simp
      | some second =>
          simp only [and_bit_ne_zero, BitVec.getLsbD_and]

@[simp] theorem test_empty (opt : ℕ) : empty.test opt = false := rfl

theorem any_of_test (htest : watched.test opt = true) :
    watched.any = true := by
  unfold test at htest
  cases hword : watched.options[opt / 64]? with
  | none =>
      rw [hword] at htest
      cases htest
  | some word =>
      rw [hword] at htest
      simp only at htest
      apply List.any_eq_true.mpr
      refine ⟨word, List.mem_of_getElem? hword, ?_⟩
      simp only [bne_iff_ne, ne_eq] at htest ⊢
      intro hzero
      rw [hzero] at htest
      simp at htest

end WatchedOptions

/-! ## Changing options -/

/-- The overloads of `set`.  Of a document only the verdict of the validator
matters. -/
inductive SetCall
  | text (value : WString) (predefined : Bool)
  | number (value : ℤ)
  | document (approved : Bool)

namespace OptionDef

/-- `set` for a document.  The second result is whether the option has
changed. -/
def setDocument (option : OptionDef) (val : OptionValue)
    (approved : Bool) : OptionValue × Bool :=
  if option.type = .xml ∧ option.isRestricted val false = false ∧
      approved = true then
    ({ val with changeCounter := val.changeCounter + 1 }, true)
  else (val, false)

/-- `set`, with the conversions from a number. -/
def perform (lib : IntegerText) (option : OptionDef) (val : OptionValue) :
    SetCall → OptionValue × Bool
  | .text value predefined => option.set lib val value predefined
  | .number value =>
      match option.type with
      | .number => option.setNumber lib val value false
      | .boolean =>
          option.setNumber lib val (if value = 0 then 0 else 1) false
      | .string => option.setText lib val (lib.toWstring value) false
      | .xml => (val, false)
  | .document approved => option.setDocument val approved

end OptionDef

/-- The value without the mark that it is a predefined one. -/
def OptionValue.current (val : OptionValue) : WString × ℤ × ℕ :=
  (val.str, val.v, val.changeCounter)

/-! ## Watchers -/

/-- `watcher` -/
structure OptionWatcher (Handler Notifier : Type) where
  handler : Handler
  notifier : Option Notifier
  options : WatchedOptions
  all : Bool

namespace OptionWatcher

variable {Handler Notifier : Type} [DecidableEq Handler]

def indexOf (handler : Handler)
    (watchers : List (OptionWatcher Handler Notifier)) : Option ℕ :=
  watchers.findIdx? fun watcher => decide (watcher.handler = handler)

def swapRemove (index : ℕ)
    (watchers : List (OptionWatcher Handler Notifier)) :
    List (OptionWatcher Handler Notifier) :=
  match watchers.getLast? with
  | none => watchers
  | some last => (watchers.set index last).dropLast

/-- `watch`.  Null pointers are `none`. -/
def watch (opt : ℕ) (handler : Option Handler) (notifier : Option Notifier)
    (watchers : List (OptionWatcher Handler Notifier)) :
    List (OptionWatcher Handler Notifier) :=
  match handler, notifier with
  | some handler, some notifier =>
      match indexOf handler watchers with
      | some i =>
          watchers.modify i fun watcher =>
            { watcher with options := watcher.options.set opt }
      | none =>
          watchers ++
            [⟨handler, some notifier, WatchedOptions.empty.set opt, false⟩]
  | _, _ => watchers

def watchAll (handler : Option Handler) (notifier : Option Notifier)
    (watchers : List (OptionWatcher Handler Notifier)) :
    List (OptionWatcher Handler Notifier) :=
  match handler with
  | some handler =>
      match indexOf handler watchers with
      | some i => watchers.modify i fun watcher => { watcher with all := true }
      | none =>
          watchers ++ [⟨handler, notifier, WatchedOptions.empty, true⟩]
  | none => watchers

def unwatch (opt : ℕ) (handler : Option Handler)
    (watchers : List (OptionWatcher Handler Notifier)) :
    List (OptionWatcher Handler Notifier) :=
  match handler with
  | some handler =>
      match indexOf handler watchers with
      | some i =>
          let watchers := watchers.modify i fun watcher =>
            { watcher with options := watcher.options.unset opt }
          if watchers[i]?.any fun watcher =>
              watcher.options.any || watcher.all then
            watchers
          else swapRemove i watchers
      | none => watchers
  | none => watchers

def unwatchAll (handler : Option Handler) (notifier : Option Notifier)
    (watchers : List (OptionWatcher Handler Notifier)) :
    List (OptionWatcher Handler Notifier) :=
  match handler, notifier with
  | some handler, some _ =>
      match indexOf handler watchers with
      | some i => swapRemove i watchers
      | none => watchers
  | _, _ => watchers

end OptionWatcher

/-! ## The options with their locks -/

/-- `COptionsBase`.  In `running` are the threads that have released the lock
of the options within `continue_notify_changed` and do not have that of the
watchers yet, with the set that they have taken. -/
structure OptionsBase (Handler Notifier Thread : Type) where
  options : List OptionDef
  values : List OptionValue
  canNotify : Bool
  changed : WatchedOptions
  watchers : List (OptionWatcher Handler Notifier)
  running : List (Thread × WatchedOptions)

/-- What is done under one of the locks, by any thread. -/
inductive OptionCall (Handler Notifier Thread : Type)
  /-- The end of loading, which happens once. -/
  | load
  | set (opt : ℕ) (call : SetCall)
  | watch (opt : ℕ) (handler : Option Handler) (notifier : Option Notifier)
  | watchAll (handler : Option Handler) (notifier : Option Notifier)
  | unwatch (opt : ℕ) (handler : Option Handler)
  | unwatchAll (handler : Option Handler) (notifier : Option Notifier)
  /-- `continue_notify_changed` takes the changed options. -/
  | continueNotifyChanged (thread : Thread)
  /-- It goes on with the watchers. -/
  | tellWatchers (thread : Thread)

inductive OptionSignal (Handler Notifier : Type)
  | notifyChanged
  | continued
  | told (notifier : Option Notifier) (handler : Handler)
      (options : WatchedOptions)

namespace OptionsBase

variable {Handler Notifier Thread : Type}
  [DecidableEq Handler] [DecidableEq Thread]

def setChanged (base : OptionsBase Handler Notifier Thread) (opt : ℕ) :
    OptionsBase Handler Notifier Thread ×
      List (OptionSignal Handler Notifier) :=
  ({ base with changed := base.changed.set opt },
    if base.canNotify && !base.changed.any then [.notifyChanged] else [])

def set (lib : IntegerText) (base : OptionsBase Handler Notifier Thread)
    (opt : ℕ) (call : SetCall) :
    OptionsBase Handler Notifier Thread ×
      List (OptionSignal Handler Notifier) :=
  match base.options[opt]?, base.values[opt]? with
  | some option, some val =>
      let result := option.perform lib val call
      let base := { base with values := base.values.set opt result.1 }
      if result.2 then base.setChanged opt else (base, [])
  | _, _ => (base, [])

def tell (changed : WatchedOptions)
    (watcher : OptionWatcher Handler Notifier) :
    Option (OptionSignal Handler Notifier) :=
  let n := if watcher.all then changed else changed.restrict watcher.options
  if n.any then some (.told watcher.notifier watcher.handler n) else none

def step (lib : IntegerText) (base : OptionsBase Handler Notifier Thread)
    (call : OptionCall Handler Notifier Thread) :
    Option (OptionsBase Handler Notifier Thread ×
      List (OptionSignal Handler Notifier)) :=
  match call with
  | .load =>
      if base.canNotify then none
      else
        some ({ base with
          changed := WatchedOptions.empty
          canNotify := true }, [])
  | .set opt call => some (base.set lib opt call)
  | .watch opt handler notifier =>
      some ({ base with
        watchers := OptionWatcher.watch opt handler notifier
          base.watchers }, [])
  | .watchAll handler notifier =>
      some ({ base with
        watchers := OptionWatcher.watchAll handler notifier
          base.watchers }, [])
  | .unwatch opt handler =>
      some ({ base with
        watchers := OptionWatcher.unwatch opt handler base.watchers }, [])
  | .unwatchAll handler notifier =>
      some ({ base with
        watchers := OptionWatcher.unwatchAll handler notifier
          base.watchers }, [])
  | .continueNotifyChanged thread =>
      match base.running.lookup thread with
      | some _ => none
      | none =>
          if base.changed.any then
            some ({ base with
              changed := WatchedOptions.empty
              running := (thread, base.changed) :: base.running },
              [.continued])
          else some (base, [.continued])
  | .tellWatchers thread =>
      match base.running.lookup thread with
      | none => none
      | some changed =>
          some ({ base with
            running := base.running.filter fun other =>
              decide (other.1 ≠ thread) },
            base.watchers.filterMap (tell changed))

def machine (Handler Notifier Thread : Type) [DecidableEq Handler]
    [DecidableEq Thread] (lib : IntegerText) :
    LabelledRuns.Machine (OptionsBase Handler Notifier Thread)
      (OptionCall Handler Notifier Thread)
      (OptionSignal Handler Notifier) where
  initial base :=
    base.canNotify = false ∧ base.watchers = [] ∧ base.running = []
  step := step lib

end OptionsBase

end TabFtp
