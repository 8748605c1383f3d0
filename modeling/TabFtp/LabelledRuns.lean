import Mathlib.Data.List.Basic

/-!
# Runs of a machine with inputs and outputs

A machine answers an input with a new state and the outputs of that step, or
refuses it.  A run is recorded with its inputs and outputs, so a property of
the outputs can refer to what happened before them.  The rules at the end
reduce a property of all runs to one obligation for the initial states and
one for a single step; the step obligation may assume a condition that every
step of the run meets.
-/

namespace LabelledRuns

universe u v w

/-- A partial machine.  An input that is not enabled in a state has no step. -/
structure Machine (State : Type u) (Input : Type v) (Output : Type w) where
  initial : State → Prop
  step : State → Input → Option (State × List Output)

variable {State : Type u} {Input : Type v} {Output : Type w}

/-- The histories of a machine in which every step meets `allowed`. -/
inductive Machine.ReachesWithin
    (machine : Machine State Input Output)
    (allowed : State → Input → Prop) :
    List Input → List Output → State → Prop
  | start {state : State} :
      machine.initial state → ReachesWithin machine allowed [] [] state
  | next {inputs : List Input} {outputs : List Output}
      {state following : State} {input : Input} {answer : List Output} :
      ReachesWithin machine allowed inputs outputs state →
      allowed state input →
      machine.step state input = some (following, answer) →
      ReachesWithin machine allowed
        (inputs ++ [input]) (outputs ++ answer) following

/-- Every history of the machine. -/
abbrev Machine.Reaches (machine : Machine State Input Output) :
    List Input → List Output → State → Prop :=
  machine.ReachesWithin fun _ _ => True

/-- Evaluation of a list of inputs, stopping at the first one that is
refused or not allowed. -/
def Machine.exec
    (machine : Machine State Input Output)
    (allowed : State → Input → Prop)
    [∀ state input, Decidable (allowed state input)] :
    State → List Input → Option (State × List Output)
  | state, [] => some (state, [])
  | state, input :: inputs =>
      if allowed state input then
        match machine.step state input with
        | none => none
        | some (following, answer) =>
            match machine.exec allowed following inputs with
            | none => none
            | some (final, rest) => some (final, answer ++ rest)
      else none

/-- The same machine, the runs of which begin in one state. -/
def Machine.startingAt (machine : Machine State Input Output)
    (state : State) : Machine State Input Output :=
  { machine with initial := fun other => other = state }

namespace Machine

variable {machine : Machine State Input Output}
  {allowed : State → Input → Prop}

theorem ReachesWithin.mono
    {weaker : State → Input → Prop}
    (himp : ∀ state input, allowed state input → weaker state input)
    {inputs : List Input} {outputs : List Output} {state : State}
    (hreach : machine.ReachesWithin allowed inputs outputs state) :
    machine.ReachesWithin weaker inputs outputs state := by
  induction hreach with
  | start hinit => exact .start hinit
  | next _ hallowed hstep ih => exact .next ih (himp _ _ hallowed) hstep

theorem exec_cons [∀ state input, Decidable (allowed state input)]
    {state following final : State} {input : Input} {inputs : List Input}
    {answer rest : List Output} (hallowed : allowed state input)
    (hstep : machine.step state input = some (following, answer))
    (hrest : machine.exec allowed following inputs = some (final, rest)) :
    machine.exec allowed state (input :: inputs) =
      some (final, answer ++ rest) := by
  unfold Machine.exec
  rw [if_pos hallowed, hstep]
  simp only [hrest]

/-- A run that is computed goes on from a run. -/
theorem ReachesWithin.exec
    [∀ state input, Decidable (allowed state input)]
    {inputs : List Input} {outputs : List Output} {state : State}
    (hreach : machine.ReachesWithin allowed inputs outputs state)
    {more : List Input} {final : State} {rest : List Output}
    (hexec : machine.exec allowed state more = some (final, rest)) :
    machine.ReachesWithin allowed (inputs ++ more) (outputs ++ rest) final := by
  induction more generalizing inputs outputs state rest with
  | nil =>
      simp only [Machine.exec, Option.some.injEq, Prod.mk.injEq] at hexec
      obtain ⟨rfl, rfl⟩ := hexec
      simpa using hreach
  | cons input more ih =>
      unfold Machine.exec at hexec
      split_ifs at hexec with hallowed
      cases hstep : machine.step state input with
      | none => simp [hstep] at hexec
      | some pair =>
          obtain ⟨following, answer⟩ := pair
          rw [hstep] at hexec
          simp only at hexec
          cases htail : machine.exec allowed following more with
          | none => simp [htail] at hexec
          | some tail =>
              obtain ⟨last, remaining⟩ := tail
              rw [htail] at hexec
              simp only [Option.some.injEq, Prod.mk.injEq] at hexec
              obtain ⟨rfl, rfl⟩ := hexec
              have hnext := ih (hreach.next hallowed hstep) htail
              simpa using hnext

/-- A run from the state that another one has reached. -/
theorem ReachesWithin.resume
    {inputs : List Input} {outputs : List Output} {state : State}
    (hreach : machine.ReachesWithin allowed inputs outputs state)
    {more : List Input} {rest : List Output} {final : State}
    (hmore : (machine.startingAt state).ReachesWithin allowed more rest
      final) :
    machine.ReachesWithin allowed (inputs ++ more) (outputs ++ rest)
      final := by
  induction hmore with
  | start hinit =>
      cases hinit
      simpa using hreach
  | next _ hallowed hstep ih =>
      rw [← List.append_assoc, ← List.append_assoc]
      exact .next ih hallowed hstep

/-- Run rule.  A property of the inputs and outputs so far and the current
state that holds initially and is kept by every allowed step holds of every
history. -/
theorem ReachesWithin.history
    (Inv : List Input → List Output → State → Prop)
    (hstart : ∀ state, machine.initial state → Inv [] [] state)
    (hnext : ∀ inputs outputs state input following answer,
      Inv inputs outputs state → allowed state input →
      machine.step state input = some (following, answer) →
      Inv (inputs ++ [input]) (outputs ++ answer) following)
    {inputs : List Input} {outputs : List Output} {state : State}
    (hreach : machine.ReachesWithin allowed inputs outputs state) :
    Inv inputs outputs state := by
  induction hreach with
  | start hinit => exact hstart _ hinit
  | next _ hallowed hstep ih => exact hnext _ _ _ _ _ _ ih hallowed hstep

/-- The same with the outputs so far. -/
theorem ReachesWithin.invariant
    (Inv : List Output → State → Prop)
    (hstart : ∀ state, machine.initial state → Inv [] state)
    (hnext : ∀ outputs state input following answer,
      Inv outputs state → allowed state input →
      machine.step state input = some (following, answer) →
      Inv (outputs ++ answer) following)
    {inputs : List Input} {outputs : List Output} {state : State}
    (hreach : machine.ReachesWithin allowed inputs outputs state) :
    Inv outputs state :=
  hreach.history (fun _ outputs state => Inv outputs state) hstart
    fun _ outputs state input following answer =>
      hnext outputs state input following answer

/-- What every allowed step keeps holds in every run. -/
theorem ReachesWithin.stateInvariant
    (Inv : State → Prop)
    (hstart : ∀ state, machine.initial state → Inv state)
    (hnext : ∀ state input following answer,
      Inv state → allowed state input →
      machine.step state input = some (following, answer) →
      Inv following)
    {inputs : List Input} {outputs : List Output} {state : State}
    (hreach : machine.ReachesWithin allowed inputs outputs state) :
    Inv state :=
  hreach.invariant (fun _ state => Inv state) hstart
    fun _ state input following answer hinv =>
      hnext state input following answer hinv

/-- Run rule for the outputs.  If every allowed step from a state with the
invariant emits only outputs with property `Good`, then so does every run. -/
theorem ReachesWithin.outputs_all
    (Inv : State → Prop) (Good : Output → Prop)
    (hstart : ∀ state, machine.initial state → Inv state)
    (hnext : ∀ state input following answer,
      Inv state → allowed state input →
      machine.step state input = some (following, answer) →
      Inv following ∧ ∀ output ∈ answer, Good output)
    {inputs : List Input} {outputs : List Output} {state : State}
    (hreach : machine.ReachesWithin allowed inputs outputs state) :
    ∀ output ∈ outputs, Good output := by
  have hboth :
      Inv state ∧ ∀ output ∈ outputs, Good output := by
    refine hreach.invariant
      (fun outputs state =>
        Inv state ∧ ∀ output ∈ outputs, Good output) ?_ ?_
    · intro initial hinit
      exact ⟨hstart initial hinit, by simp⟩
    · intro before current input following answer hinv hallowed hstep
      obtain ⟨hfollowing, hanswer⟩ :=
        hnext current input following answer hinv.1 hallowed hstep
      refine ⟨hfollowing, ?_⟩
      intro output hmem
      rcases List.mem_append.mp hmem with hold | hnew
      · exact hinv.2 output hold
      · exact hanswer output hnew
  exact hboth.2

end Machine

end LabelledRuns
