import Mathlib.Tactic

/-!
# A slot for one job

A slot holds at most one job.  A job is accepted into the empty slot under the
next ticket, may be started once, and leaves the slot when it is finished.  The
theorem at the end counts the events of a run for every ticket.
-/

namespace JobSlot

inductive Event
  | accepted (ticket : ℕ)
  | started (ticket : ℕ)
  | finished (ticket : ℕ)
  deriving DecidableEq

structure Slot where
  job : Option (ℕ × Bool)
  next : ℕ

namespace Slot

def empty : Slot := ⟨none, 0⟩

def step (slot : Slot) : Event → Option Slot
  | .accepted ticket =>
      if slot.job = none ∧ ticket = slot.next then
        some ⟨some (ticket, false), slot.next + 1⟩
      else none
  | .started ticket =>
      if slot.job = some (ticket, false) then
        some { slot with job := some (ticket, true) }
      else none
  | .finished ticket =>
      if slot.job.map Prod.fst = some ticket then
        some { slot with job := none }
      else none

def run : Slot → List Event → Option Slot
  | slot, [] => some slot
  | slot, event :: events => (slot.step event).bind fun next => next.run events

theorem run_append
    {slot middle final : Slot} {first second : List Event}
    (hfirst : slot.run first = some middle)
    (hsecond : middle.run second = some final) :
    slot.run (first ++ second) = some final := by
  induction first generalizing slot with
  | nil =>
      simp only [run, Option.some.injEq] at hfirst
      rw [hfirst]
      exact hsecond
  | cons event events ih =>
      simp only [run, Option.bind_eq_some_iff] at hfirst
      rcases hfirst with ⟨next, hstep, hrest⟩
      rw [List.cons_append, run, hstep, Option.bind_some]
      exact ih hrest

theorem run_concat
    {slot final : Slot} {events : List Event} {event : Event} :
    slot.run (events ++ [event]) = some final ↔
      ∃ middle, slot.run events = some middle ∧
        middle.step event = some final := by
  induction events generalizing slot with
  | nil => simp [run]
  | cons first rest ih =>
      simp only [List.cons_append, run, Option.bind_eq_some_iff]
      constructor
      · intro hrun
        rcases hrun with ⟨next, hstep, hrest⟩
        rcases ih.mp hrest with ⟨middle, hmiddle, hfinal⟩
        exact ⟨middle, ⟨next, hstep, hmiddle⟩, hfinal⟩
      · intro hrun
        rcases hrun with ⟨middle, ⟨next, hstep, hrest⟩, hfinal⟩
        exact ⟨next, hstep, ih.mpr ⟨middle, hrest, hfinal⟩⟩

structure Counted (slot : Slot) (events : List Event) : Prop where
  held : ∀ job, slot.job = some job → job.1 < slot.next
  accepted : ∀ ticket, events.count (.accepted ticket) =
    if ticket < slot.next then 1 else 0
  started : ∀ ticket, events.count (.started ticket) ≤
    if ticket < slot.next ∧ slot.job ≠ some (ticket, false) then 1 else 0
  finished : ∀ ticket, events.count (.finished ticket) =
    if ticket < slot.next ∧ slot.job.map Prod.fst ≠ some ticket then 1 else 0

theorem Counted.accept
    {slot : Slot} {events : List Event} (hcounted : slot.Counted events)
    (hjob : slot.job = none) :
    (⟨some (slot.next, false), slot.next + 1⟩ : Slot).Counted
      (events ++ [.accepted slot.next]) where
  held job hjob := by
    cases hjob
    exact Nat.lt_succ_self _
  accepted ticket := by
    have hold := hcounted.accepted ticket
    rw [List.count_append, List.count_singleton, hold]
    by_cases hticket : ticket = slot.next
    · simp [hticket]
    · have hlt : ticket < slot.next + 1 ↔ ticket < slot.next := by omega
      simp [hlt, Ne.symm hticket]
  started ticket := by
    have hold := hcounted.started ticket
    rw [List.count_append, List.count_singleton]
    by_cases hticket : ticket = slot.next
    · simpa [hticket, hjob] using hold
    · have hlt : ticket < slot.next + 1 ↔ ticket < slot.next := by omega
      simpa [hlt, hjob, Ne.symm hticket] using hold
  finished ticket := by
    have hold := hcounted.finished ticket
    rw [List.count_append, List.count_singleton, hold]
    by_cases hticket : ticket = slot.next
    · simp [hticket]
    · have hlt : ticket < slot.next + 1 ↔ ticket < slot.next := by omega
      simp [hlt, hjob, Ne.symm hticket]

theorem Counted.start
    {slot : Slot} {events : List Event} {ticket : ℕ}
    (hcounted : slot.Counted events) (hjob : slot.job = some (ticket, false)) :
    ({ slot with job := some (ticket, true) } : Slot).Counted
      (events ++ [.started ticket]) where
  held job hheld := by
    have hlt := hcounted.held _ hjob
    cases hheld
    exact hlt
  accepted other := by
    rw [List.count_append, hcounted.accepted other]
    simp
  started other := by
    have hold := hcounted.started other
    have hheld := hcounted.held _ hjob
    rw [List.count_append, List.count_singleton]
    by_cases hother : other = ticket
    · subst hother
      simp only [hjob, ne_eq, not_true_eq_false, and_false, if_false] at hold
      simp only [beq_self_eq_true, if_true, ne_eq, Option.some.injEq,
        Prod.mk.injEq, Bool.true_eq_false, and_false, not_false_eq_true,
        and_true, if_pos hheld]
      omega
    · simpa [hjob, hother, Ne.symm hother] using hold
  finished other := by
    rw [List.count_append, hcounted.finished other]
    simp [hjob]

theorem Counted.finish
    {slot : Slot} {events : List Event} {ticket : ℕ}
    (hcounted : slot.Counted events)
    (hjob : slot.job.map Prod.fst = some ticket) :
    ({ slot with job := none } : Slot).Counted
      (events ++ [.finished ticket]) where
  held job hheld := by cases hheld
  accepted other := by
    rw [List.count_append, hcounted.accepted other]
    simp
  started other := by
    have hold := hcounted.started other
    rw [List.count_append]
    simp only [List.count_singleton]
    split_ifs at hold ⊢ <;> simp_all
  finished other := by
    have hold := hcounted.finished other
    have hheld : ticket < slot.next := by
      rcases Option.map_eq_some_iff.mp hjob with ⟨job, hslot, hfst⟩
      rw [← hfst]
      exact hcounted.held job hslot
    rw [List.count_append, List.count_singleton, hold, hjob]
    by_cases hother : other = ticket
    · simp [hother, hheld]
    · simp [Ne.symm hother]

theorem counted_of_run
    {slot : Slot} {events : List Event} (hrun : empty.run events = some slot) :
    slot.Counted events := by
  induction events using List.reverseRecOn generalizing slot with
  | nil =>
      simp only [run, Option.some.injEq] at hrun
      rw [← hrun]
      constructor <;> simp [empty]
  | append_singleton events event ih =>
      rw [run_concat] at hrun
      rcases hrun with ⟨middle, hmiddle, hstep⟩
      have hcounted := ih hmiddle
      cases event with
      | accepted ticket =>
          simp only [step] at hstep
          split_ifs at hstep with hguard
          cases hstep
          rcases hguard with ⟨hjob, rfl⟩
          exact hcounted.accept hjob
      | started ticket =>
          simp only [step] at hstep
          split_ifs at hstep with hjob
          cases hstep
          exact hcounted.start hjob
      | finished ticket =>
          simp only [step] at hstep
          split_ifs at hstep with hjob
          cases hstep
          exact hcounted.finish hjob

/-- In every run of the slot a ticket that was accepted is started at most
once, and finished exactly once unless its job is still in the slot. -/
theorem ticket_once
    {slot : Slot} {events : List Event} (hrun : empty.run events = some slot)
    {ticket : ℕ} (hticket : .accepted ticket ∈ events) :
    events.count (.started ticket) ≤ 1 ∧
      events.count (.finished ticket) =
        if slot.job.map Prod.fst = some ticket then 0 else 1 := by
  have hcounted := counted_of_run hrun
  have haccepted := hcounted.accepted ticket
  have hpositive := List.count_pos_iff.mpr hticket
  have hlt : ticket < slot.next := by
    by_contra hge
    rw [if_neg hge] at haccepted
    omega
  have hstarted := hcounted.started ticket
  have hfinished := hcounted.finished ticket
  constructor
  · split_ifs at hstarted <;> omega
  · rw [hfinished]
    by_cases hjob : slot.job.map Prod.fst = some ticket
    · simp [hjob]
    · simp [hjob, hlt]

end Slot

end JobSlot
