import Mathlib.Tactic

/-!
# Attempts whose accesses are checked

An attempt works on a state.  It succeeds with a value, or the input does not
match, or it makes an access that is out of range, which is a fault.  An
attempt that does not match leaves its changes of the state behind, so what is
tried next starts from there.

A specification of an attempt under an invariant says that there is no fault,
that the invariant is kept in either case, and what is known of the value.
-/

namespace CheckedAttempts

inductive Outcome (State Value : Type)
  | fault
  | mismatch (state : State)
  | success (value : Value) (state : State)

def Attempt (State Value : Type) : Type :=
  State → Outcome State Value

variable {State Value Result : Type}

namespace Attempt

instance : Monad (Attempt State) where
  pure value state := .success value state
  bind attempt next state :=
    match attempt state with
    | .fault => .fault
    | .mismatch after => .mismatch after
    | .success value after => next value after

def mismatch : Attempt State Value := fun state => .mismatch state

def fault : Attempt State Value := fun _ => .fault

/-- The input matches only if the condition holds. -/
def require (condition : Bool) : Attempt State Unit := fun state =>
  if condition then .success () state else .mismatch state

/-- An access that is in range only if the condition holds. -/
def inRange (condition : Bool) : Attempt State Unit := fun state =>
  if condition then .success () state else .fault

def ofOption : Option Value → Attempt State Value
  | some value => pure value
  | none => fault

def expect : Option Value → Attempt State Value
  | some value => pure value
  | none => mismatch

def read (part : State → Value) : Attempt State Value := fun state =>
  .success (part state) state

def update (change : State → State) : Attempt State Unit := fun state =>
  .success () (change state)

def perhaps (attempt : Attempt State Value) : Attempt State (Option Value) :=
  fun state =>
    match attempt state with
    | .fault => .fault
    | .mismatch after => .success none after
    | .success value after => .success (some value) after

def firstOf : List (Attempt State Value) → Attempt State Value
  | [] => mismatch
  | attempt :: attempts => fun state =>
      match attempt state with
      | .fault => .fault
      | .mismatch after => firstOf attempts after
      | .success value after => .success value after

theorem bind_of_success {attempt : Attempt State Value}
    {next : Value → Attempt State Result} {state after : State} {value : Value}
    (hattempt : attempt state = .success value after) :
    (attempt >>= next) state = next value after := by
  change (match attempt state with
    | .fault => Outcome.fault
    | .mismatch after => .mismatch after
    | .success value after => next value after) = _
  rw [hattempt]

theorem bind_of_mismatch {attempt : Attempt State Value}
    {next : Value → Attempt State Result} {state after : State}
    (hattempt : attempt state = .mismatch after) :
    (attempt >>= next) state = .mismatch after := by
  change (match attempt state with
    | .fault => Outcome.fault
    | .mismatch after => .mismatch after
    | .success value after => next value after) = _
  rw [hattempt]

theorem bind_of_fault {attempt : Attempt State Value}
    {next : Value → Attempt State Result} {state : State}
    (hattempt : attempt state = .fault) :
    (attempt >>= next) state = .fault := by
  change (match attempt state with
    | .fault => Outcome.fault
    | .mismatch after => .mismatch after
    | .success value after => next value after) = _
  rw [hattempt]

end Attempt

open Attempt

def Spec (inv : State → Prop) (attempt : Attempt State Value)
    (post : Value → Prop) : Prop :=
  ∀ state, inv state →
    match attempt state with
    | .fault => False
    | .mismatch after => inv after
    | .success value after => inv after ∧ post value

variable {inv : State → Prop} {attempt : Attempt State Value}
  {post mid : Value → Prop}

theorem Spec.pure {value : Value} (hpost : post value) :
    Spec inv (Pure.pure value : Attempt State Value) post :=
  fun _ hinv => ⟨hinv, hpost⟩

/-- One attempt after another, with what holds in between. -/
theorem Spec.bind {next : Value → Attempt State Result}
    {last : Result → Prop}
    (hattempt : Spec inv attempt mid)
    (hnext : ∀ value, mid value → Spec inv (next value) last) :
    Spec inv (attempt >>= next) last := by
  intro state hinv
  have hfirst := hattempt state hinv
  show match (match attempt state with
    | .fault => Outcome.fault
    | .mismatch after => .mismatch after
    | .success value after => next value after) with
    | .fault => False
    | .mismatch after => inv after
    | .success value after => inv after ∧ last value
  cases hcase : attempt state with
  | fault =>
      rw [hcase] at hfirst
      exact hfirst
  | mismatch after =>
      rw [hcase] at hfirst
      exact hfirst
  | success value after =>
      rw [hcase] at hfirst
      exact hnext value hfirst.2 after hfirst.1

theorem Spec.weaken
    (hspec : Spec inv attempt mid) (hpost : ∀ value, mid value → post value) :
    Spec inv attempt post := by
  intro state hinv
  have h := hspec state hinv
  cases hcase : attempt state with
  | fault =>
      rw [hcase] at h
      exact h
  | mismatch after =>
      rw [hcase] at h
      exact h
  | success value after =>
      rw [hcase] at h
      exact ⟨h.1, hpost value h.2⟩

theorem Spec.mismatch : Spec inv (Attempt.mismatch : Attempt State Value) post :=
  fun _ hinv => hinv

theorem Spec.require (condition : Bool) :
    Spec inv (Attempt.require condition) fun _ => condition = true := by
  intro state hinv
  unfold Attempt.require
  cases condition
  · exact hinv
  · exact ⟨hinv, rfl⟩

theorem Spec.require_then {condition : Bool} {next : Attempt State Result}
    {last : Result → Prop} (hnext : Spec inv next last) :
    Spec inv (Attempt.require condition >>= fun _ => next) last :=
  Spec.bind (Spec.require condition) fun _ _ => hnext

theorem Spec.inRange {condition : Bool} (hcondition : condition = true) :
    Spec inv (Attempt.inRange condition) fun _ => True := by
  intro state hinv
  unfold Attempt.inRange
  rw [if_pos hcondition]
  exact ⟨hinv, trivial⟩

theorem Spec.ofOption {value : Option Value}
    (hvalue : ∃ result, value = some result ∧ post result) :
    Spec inv (Attempt.ofOption value) post := by
  obtain ⟨result, rfl, hpost⟩ := hvalue
  exact Spec.pure hpost

theorem Spec.expect (value : Option Value) :
    Spec inv (Attempt.expect value) fun result => value = some result := by
  cases value with
  | none => exact Spec.mismatch
  | some result => exact Spec.pure rfl

theorem Spec.read {part : State → Value}
    (hpart : ∀ state, inv state → post (part state)) :
    Spec inv (Attempt.read part) post :=
  fun state hinv => ⟨hinv, hpart state hinv⟩

theorem Spec.update {change : State → State}
    (hchange : ∀ state, inv state → inv (change state)) :
    Spec inv (Attempt.update change) fun _ => True :=
  fun state hinv => ⟨hchange state hinv, trivial⟩

theorem Spec.perhaps (hspec : Spec inv attempt post) :
    Spec inv (Attempt.perhaps attempt) fun result =>
      ∀ value, result = some value → post value := by
  intro state hinv
  have h := hspec state hinv
  unfold Attempt.perhaps
  cases hcase : attempt state with
  | fault =>
      rw [hcase] at h
      exact h
  | mismatch after =>
      rw [hcase] at h
      refine ⟨h, ?_⟩
      intro value hnone
      cases hnone
  | success value after =>
      rw [hcase] at h
      refine ⟨h.1, ?_⟩
      intro result hresult
      rw [← Option.some.inj hresult]
      exact h.2

theorem Spec.firstOf {attempts : List (Attempt State Value)}
    (hspecs : ∀ attempt ∈ attempts, Spec inv attempt post) :
    Spec inv (Attempt.firstOf attempts) post := by
  induction attempts with
  | nil => exact Spec.mismatch
  | cons attempt attempts ih =>
      intro state hinv
      have h := hspecs attempt List.mem_cons_self state hinv
      unfold Attempt.firstOf
      cases hcase : attempt state with
      | fault =>
          rw [hcase] at h
          exact h
      | mismatch after =>
          rw [hcase] at h
          have hrest := ih fun attempt hmem =>
            hspecs attempt (List.mem_cons_of_mem _ hmem)
          exact hrest after h
      | success value after =>
          rw [hcase] at h
          exact h

theorem Spec.ite {condition : Prop} [Decidable condition]
    {other : Attempt State Value}
    (hthen : condition → Spec inv attempt post)
    (helse : ¬ condition → Spec inv other post) :
    Spec inv (if condition then attempt else other) post := by
  by_cases hcondition : condition
  · rw [if_pos hcondition]
    exact hthen hcondition
  · rw [if_neg hcondition]
    exact helse hcondition

end CheckedAttempts
