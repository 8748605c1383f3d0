import Mathlib.Data.List.Basic

/-!
# Queues with an edge-triggered wake-up

A producer puts items into a queue and wakes the consumer once; it wakes it
again only after the consumer has found the queue empty.  The step relation
leaves open when an armed producer also wakes the consumer of an empty queue.
-/

namespace EdgeTriggered

universe u

variable {Item : Type u}

inductive Signal (Item : Type u)
  | inserted (item : Item)
  | wake
  | handed (item : Item)
  | exhausted

/-- The waiting items.  A wake-up may be sent while the queue is `armed`. -/
structure Queue (Item : Type u) where
  items : List Item
  armed : Bool

/-- The items put into the queue. -/
def insertedItems : List (Signal Item) → List Item
  | [] => []
  | .inserted item :: rest => item :: insertedItems rest
  | _ :: rest => insertedItems rest

/-- The items the consumer was given. -/
def handedItems : List (Signal Item) → List Item
  | [] => []
  | .handed item :: rest => item :: handedItems rest
  | _ :: rest => handedItems rest

/-- The consumer has been woken and has not found the queue empty since. -/
def Outstanding (signals : List (Signal Item)) : Prop :=
  ∃ before after,
    signals = before ++ .wake :: after ∧ .exhausted ∉ after

inductive Queue.Step :
    Queue Item → List (Signal Item) → Queue Item → Prop
  | quiet {queue : Queue Item} (added : List Item) :
      (queue.armed = true → added = []) →
      Step queue (added.map .inserted) ⟨queue.items ++ added, queue.armed⟩
  | ring {queue : Queue Item} (added : List Item) :
      queue.armed = true →
      Step queue (added.map .inserted ++ [.wake])
        ⟨queue.items ++ added, false⟩
  | take {item : Item} {rest : List Item} {armed : Bool} :
      Step ⟨item :: rest, armed⟩ [.handed item] ⟨rest, armed⟩
  | exhausted {armed : Bool} :
      Step ⟨[], armed⟩ [.exhausted] ⟨[], true⟩

/-! ## The items -/

theorem insertedItems_cons (signal : Signal Item) (rest : List (Signal Item)) :
    insertedItems (signal :: rest) =
      insertedItems [signal] ++ insertedItems rest := by
  cases signal <;> rfl

theorem handedItems_cons (signal : Signal Item) (rest : List (Signal Item)) :
    handedItems (signal :: rest) = handedItems [signal] ++ handedItems rest := by
  cases signal <;> rfl

@[simp] theorem insertedItems_append (left right : List (Signal Item)) :
    insertedItems (left ++ right) =
      insertedItems left ++ insertedItems right := by
  induction left with
  | nil => rfl
  | cons signal left ih =>
      rw [List.cons_append, insertedItems_cons, ih, insertedItems_cons signal left,
        List.append_assoc]

@[simp] theorem handedItems_append (left right : List (Signal Item)) :
    handedItems (left ++ right) =
      handedItems left ++ handedItems right := by
  induction left with
  | nil => rfl
  | cons signal left ih =>
      rw [List.cons_append, handedItems_cons, ih, handedItems_cons signal left,
        List.append_assoc]

@[simp] theorem insertedItems_inserted (added : List Item) :
    insertedItems (added.map .inserted) = added := by
  induction added with
  | nil => rfl
  | cons item added ih =>
      rw [List.map_cons, insertedItems_cons, ih]
      rfl

@[simp] theorem handedItems_inserted (added : List Item) :
    handedItems (added.map .inserted) = [] := by
  induction added with
  | nil => rfl
  | cons item added ih =>
      rw [List.map_cons, handedItems_cons, ih]
      rfl

/-- One step loses and doubles nothing. -/
theorem Queue.Step.conserves
    {queue following : Queue Item} {signals : List (Signal Item)}
    (hstep : queue.Step signals following)
    {before : List (Signal Item)}
    (hbefore :
      insertedItems before = handedItems before ++ queue.items) :
    insertedItems (before ++ signals) =
      handedItems (before ++ signals) ++ following.items := by
  rw [insertedItems_append, handedItems_append, hbefore]
  cases hstep with
  | quiet added _ => simp
  | ring added _ =>
      have hinserted : insertedItems [(.wake : Signal Item)] = [] := rfl
      have hhanded : handedItems [(.wake : Signal Item)] = [] := rfl
      simp [hinserted, hhanded]
  | take =>
      rw [List.append_assoc, List.append_assoc]
      exact congrArg _ (List.append_nil _)
  | exhausted => rfl

/-! ## The wake-up -/

theorem outstanding_wake (signals : List (Signal Item)) :
    Outstanding (signals ++ [.wake]) :=
  ⟨signals, [], rfl, by simp⟩

theorem Outstanding.append
    {signals : List (Signal Item)} (hsignals : Outstanding signals)
    {more : List (Signal Item)} (hmore : .exhausted ∉ more) :
    Outstanding (signals ++ more) := by
  obtain ⟨before, after, rfl, hafter⟩ := hsignals
  have hboth : Signal.exhausted ∉ after ++ more := by
    simp [hafter, hmore]
  exact ⟨before, after ++ more, by simp, hboth⟩

/-- Whenever items wait the queue is not armed, and while it is not armed
the consumer has a wake-up to follow. -/
def Queue.Attended (queue : Queue Item) (signals : List (Signal Item)) :
    Prop :=
  (queue.armed = true → queue.items = []) ∧
    (queue.armed = false → Outstanding signals)

theorem Queue.Attended.outstanding
    {queue : Queue Item} {signals : List (Signal Item)}
    (hqueue : queue.Attended signals) (hitems : queue.items ≠ []) :
    Outstanding signals := by
  cases harmed : queue.armed with
  | true => exact absurd (hqueue.1 harmed) hitems
  | false => exact hqueue.2 harmed

/-- One step leaves no item without a wake-up. -/
theorem Queue.Step.attended
    {queue following : Queue Item} {signals : List (Signal Item)}
    (hstep : queue.Step signals following)
    {before : List (Signal Item)} (hqueue : queue.Attended before) :
    following.Attended (before ++ signals) := by
  cases hstep with
  | quiet added hadded =>
      have hmore : Signal.exhausted ∉ added.map Signal.inserted := by
        simp
      constructor
      · intro harmed
        have hempty : queue.items = [] := hqueue.1 harmed
        simp [hempty, hadded harmed]
      · intro harmed
        exact (hqueue.2 harmed).append hmore
  | ring added _ =>
      rw [← List.append_assoc]
      exact ⟨nofun, fun _ => outstanding_wake _⟩
  | take =>
      have hmore : ∀ item : Item,
          Signal.exhausted ∉ [Signal.handed item] := by simp
      constructor
      · intro harmed
        exact absurd (hqueue.1 harmed) (by simp)
      · intro harmed
        exact (hqueue.2 harmed).append (hmore _)
  | exhausted => exact ⟨fun _ => rfl, nofun⟩

end EdgeTriggered
