import Mathlib.Data.List.Basic

/-!
# A channel whose receiver replays the sender

Both ends of a first-in first-out channel follow one automaton: the sender
takes a step when it puts a symbol on the channel, the receiver takes the same
step when the symbol arrives.  While symbols are under way the receiver lags
behind, and the symbols on the channel lead from its state to the state of the
sender.  An event that both ends see at once keeps this relation when it
commutes with the steps.
-/

namespace ReplayedChannel

universe u v

variable {State : Type u} {Symbol : Type v}

/-- The state after the symbols of a channel; `none` for a symbol that has no
step. -/
def replay (next : State → Symbol → Option State) :
    State → List Symbol → Option State
  | state, [] => some state
  | state, symbol :: rest =>
      (next state symbol).bind fun following => replay next following rest

def Commutes
    (next : State → Symbol → Option State) (update : State → State) : Prop :=
  ∀ state symbol following, next state symbol = some following →
    next (update state) symbol = some (update following)

variable {next : State → Symbol → Option State}
  {receiver sender following : State} {symbol : Symbol}
  {channel : List Symbol}

theorem replay_nil : replay next receiver [] = some receiver := rfl

theorem replay_cons :
    replay next receiver (symbol :: channel) = some sender ↔
      ∃ middle, next receiver symbol = some middle ∧
        replay next middle channel = some sender := by
  simp [replay, Option.bind_eq_some_iff]

theorem replay_send
    (hchannel : replay next receiver channel = some sender)
    (hnext : next sender symbol = some following) :
    replay next receiver (channel ++ [symbol]) = some following := by
  induction channel generalizing receiver with
  | nil =>
      simp only [replay, Option.some.injEq] at hchannel
      simp [replay, hchannel, hnext]
  | cons first rest ih =>
      rw [replay_cons] at hchannel
      rcases hchannel with ⟨middle, hfirst, hrest⟩
      rw [List.cons_append, replay_cons]
      exact ⟨middle, hfirst, ih hrest⟩

theorem replay_update
    {update : State → State} (hcommutes : Commutes next update)
    (hchannel : replay next receiver channel = some sender) :
    replay next (update receiver) channel = some (update sender) := by
  induction channel generalizing receiver with
  | nil =>
      simp only [replay, Option.some.injEq] at hchannel
      rw [hchannel, replay_nil]
  | cons first rest ih =>
      rw [replay_cons] at hchannel
      rcases hchannel with ⟨middle, hfirst, hrest⟩
      rw [replay_cons]
      exact ⟨update middle, hcommutes _ _ _ hfirst, ih hrest⟩

end ReplayedChannel
