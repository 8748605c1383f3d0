import TabFtp.LabelledRuns
import TabFtp.DirectoryListing

/-!
# The status of a transfer

`CTransferStatusManager` counts the bytes of a transfer.  `Update` adds to an
atomic counter without taking the mutex and goes on to the mutex only if the
counter was zero; everybody who holds the mutex moves the counter to the
status.  A section under the mutex has at most one access to the counter, so
that each section and each addition to the counter is one step of a run.

The offsets are integers here.  In the program they are kept modulo `2^64`,
which sums and the equality of two sums pass on.
-/

namespace TabFtp

structure TransferStatus where
  started : Option Datetime
  totalSize : ℤ
  startOffset : ℤ
  currentOffset : ℤ
  madeProgress : Bool
  list : Bool

namespace TransferStatus

def default : TransferStatus := ⟨none, -1, -1, -1, false, false⟩

def new (total start : ℤ) (list : Bool) : TransferStatus :=
  ⟨none, total, start, start, false, list⟩

def clear (status : TransferStatus) : TransferStatus :=
  { status with startOffset := -1 }

def empty (status : TransferStatus) : Bool :=
  status.startOffset < 0

end TransferStatus

/-- `CTransferStatusManager`, and how many calls of `Update` have found the
counter at zero and have not taken the mutex yet. -/
structure TransferStatusManager where
  status : TransferStatus
  currentOffset : ℤ
  sendState : ℕ
  madeProgress : Bool
  updating : ℕ

inductive TransferStatusInput
  | reset
  | init (totalSize startOffset : ℤ) (list : Bool)
  | setStartTime (now : Datetime)
  | setMadeProgress
  /-- `Update` adds to the counter. -/
  | add (transferredBytes : ℕ)
  /-- `Update` takes the mutex. -/
  | notify
  | get

inductive TransferStatusOutput
  | notification (status : TransferStatus)
  | status (status : TransferStatus) (changed : Bool)

namespace TransferStatusManager

def new : TransferStatusManager := ⟨.default, 0, 0, false, 0⟩

/-- `status_.currentOffset += currentOffset_.exchange(0)` -/
def exchange (manager : TransferStatusManager) : TransferStatusManager :=
  { manager with
    status := { manager.status with
      currentOffset := manager.status.currentOffset + manager.currentOffset
      madeProgress := manager.madeProgress }
    currentOffset := 0 }

def reset (manager : TransferStatusManager) : TransferStatusManager :=
  { manager with status := manager.status.clear, sendState := 0 }

def init (manager : TransferStatusManager) (totalSize startOffset : ℤ)
    (list : Bool) : TransferStatusManager :=
  let startOffset := if startOffset < 0 then 0 else startOffset
  { manager with
    status := .new totalSize startOffset list
    currentOffset := 0
    madeProgress := false }

def setStartTime (manager : TransferStatusManager) (now : Datetime) :
    TransferStatusManager :=
  if manager.status.empty then manager
  else { manager with status := { manager.status with started := some now } }

/-- The first step of `Update`, which is the last one unless the counter was
zero. -/
def add (manager : TransferStatusManager) (transferredBytes : ℕ) :
    TransferStatusManager :=
  { manager with
    currentOffset := manager.currentOffset + transferredBytes
    updating :=
      if manager.currentOffset = 0 then manager.updating + 1
      else manager.updating }

/-- The second step of `Update`. -/
def notify (manager : TransferStatusManager) :
    TransferStatusManager × List TransferStatusOutput :=
  let manager := { manager with updating := manager.updating - 1 }
  if manager.status.empty then (manager, [])
  else if manager.sendState = 0 then
    let manager := manager.exchange
    ({ manager with sendState := 2 }, [.notification manager.status])
  else ({ manager with sendState := 2 }, [])

/-- `Get`, with the status and whether it has changed. -/
def get (manager : TransferStatusManager) :
    TransferStatusManager × TransferStatus × Bool :=
  if manager.status.empty then
    ({ manager with sendState := 0 }, manager.status, false)
  else
    let manager := manager.exchange
    if manager.sendState = 2 then
      ({ manager with sendState := 1 }, manager.status, true)
    else ({ manager with sendState := 0 }, manager.status, false)

def step (manager : TransferStatusManager) (input : TransferStatusInput) :
    Option (TransferStatusManager × List TransferStatusOutput) :=
  match input with
  | .reset => some (manager.reset, [.notification .default])
  | .init totalSize startOffset list =>
      some (manager.init totalSize startOffset list, [])
  | .setStartTime now => some (manager.setStartTime now, [])
  | .setMadeProgress => some ({ manager with madeProgress := true }, [])
  | .add transferredBytes => some (manager.add transferredBytes, [])
  | .notify => if manager.updating = 0 then none else some manager.notify
  | .get =>
      let (following, status, changed) := manager.get
      some (following, [.status status changed])

def machine :
    LabelledRuns.Machine TransferStatusManager TransferStatusInput
      TransferStatusOutput where
  initial manager := manager = .new
  step := step

/-! ## What has been transferred -/

/-- The start offset of the last `Init` and the bytes added since. -/
def transferred (inputs : List TransferStatusInput) : ℤ :=
  inputs.foldl
    (fun before input =>
      match input with
      | .init _ startOffset _ => if startOffset < 0 then 0 else startOffset
      | .add transferredBytes => before + transferredBytes
      | _ => before)
    0

/-- While a status is set, no byte is lost or counted twice, and whatever has
not reached the status yet is going to be asked for. -/
structure Accounted (inputs : List TransferStatusInput)
    (manager : TransferStatusManager) : Prop where
  offsets : manager.status.empty = false →
    manager.status.currentOffset + manager.currentOffset = transferred inputs
  pending : manager.status.empty = false → manager.currentOffset ≠ 0 →
    0 < manager.updating ∨ manager.sendState = 2

variable {inputs : List TransferStatusInput} {manager : TransferStatusManager}

theorem transferred_append (input : TransferStatusInput) :
    transferred (inputs ++ [input]) =
      match input with
      | .init _ startOffset _ => if startOffset < 0 then 0 else startOffset
      | .add transferredBytes => transferred inputs + transferredBytes
      | _ => transferred inputs := by
  unfold transferred
  rw [List.foldl_append]
  rfl

theorem Accounted.of_transferred {others : List TransferStatusInput}
    (haccounted : Accounted inputs manager)
    (hsame : transferred others = transferred inputs) :
    Accounted others manager := by
  refine ⟨?_, haccounted.pending⟩
  intro hset
  rw [hsame]
  exact haccounted.offsets hset

theorem Accounted.init (totalSize startOffset : ℤ) (list : Bool) :
    Accounted (inputs ++ [.init totalSize startOffset list])
      (manager.init totalSize startOffset list) := by
  constructor
  · intro _
    rw [transferred_append]
    exact Int.add_zero _
  · intro _ hnonzero
    exact absurd rfl hnonzero

theorem Accounted.add (haccounted : Accounted inputs manager)
    (transferredBytes : ℕ) :
    Accounted (inputs ++ [.add transferredBytes])
      (manager.add transferredBytes) := by
  constructor
  · intro hset
    have hbefore := haccounted.offsets hset
    rw [transferred_append]
    simp only [TransferStatusManager.add]
    omega
  · intro hset _
    by_cases hzero : manager.currentOffset = 0
    · left
      simp only [TransferStatusManager.add, if_pos hzero]
      omega
    · simp only [TransferStatusManager.add, if_neg hzero]
      exact haccounted.pending hset hzero

theorem Accounted.notify (haccounted : Accounted inputs manager) :
    Accounted (inputs ++ [.notify]) manager.notify.1 := by
  have hinputs : transferred (inputs ++ [.notify]) = transferred inputs :=
    transferred_append _
  unfold TransferStatusManager.notify
  cases hempty : manager.status.empty with
  | true =>
      simp only [hempty, if_true]
      constructor
      · intro hset
        rw [hempty] at hset
        cases hset
      · intro hset
        rw [hempty] at hset
        cases hset
  | false =>
      simp only [hempty, Bool.false_eq_true, if_false]
      have hbefore := haccounted.offsets hempty
      by_cases hidle : manager.sendState = 0
      · rw [if_pos hidle]
        constructor
        · intro _
          rw [hinputs]
          exact (Int.add_zero _).trans hbefore
        · intro _ _
          exact Or.inr rfl
      · rw [if_neg hidle]
        constructor
        · intro _
          rw [hinputs]
          exact hbefore
        · intro _ _
          exact Or.inr rfl

theorem Accounted.get (haccounted : Accounted inputs manager) :
    Accounted (inputs ++ [.get]) manager.get.1 := by
  have hinputs : transferred (inputs ++ [.get]) = transferred inputs :=
    transferred_append _
  unfold TransferStatusManager.get
  cases hempty : manager.status.empty with
  | true =>
      simp only [if_true]
      constructor
      · intro hset
        rw [hempty] at hset
        cases hset
      · intro hset
        rw [hempty] at hset
        cases hset
  | false =>
      have hbefore := haccounted.offsets hempty
      simp only [Bool.false_eq_true, if_false]
      split_ifs
      · constructor
        · intro _
          rw [hinputs]
          exact (Int.add_zero _).trans hbefore
        · intro _ hnonzero
          exact absurd rfl hnonzero
      · constructor
        · intro _
          rw [hinputs]
          exact (Int.add_zero _).trans hbefore
        · intro _ hnonzero
          exact absurd rfl hnonzero

theorem Accounted.step (haccounted : Accounted inputs manager)
    {input : TransferStatusInput} {following : TransferStatusManager}
    {answer : List TransferStatusOutput}
    (hstep : manager.step input = some (following, answer)) :
    Accounted (inputs ++ [input]) following := by
  cases input with
  | reset =>
      have hfollowing : manager.reset = following :=
        congrArg Prod.fst (Option.some.inj hstep)
      rw [← hfollowing]
      exact ⟨nofun, nofun⟩
  | init totalSize startOffset list =>
      have hfollowing : manager.init totalSize startOffset list = following :=
        congrArg Prod.fst (Option.some.inj hstep)
      rw [← hfollowing]
      exact Accounted.init totalSize startOffset list
  | setStartTime now =>
      have hfollowing : manager.setStartTime now = following :=
        congrArg Prod.fst (Option.some.inj hstep)
      rw [← hfollowing]
      have hinputs : transferred (inputs ++ [.setStartTime now]) =
          transferred inputs := transferred_append _
      have hsame := haccounted.of_transferred hinputs
      unfold setStartTime
      split_ifs
      · exact hsame
      · exact ⟨hsame.offsets, hsame.pending⟩
  | setMadeProgress =>
      have hfollowing : { manager with madeProgress := true } = following :=
        congrArg Prod.fst (Option.some.inj hstep)
      have hinputs : transferred (inputs ++ [.setMadeProgress]) =
          transferred inputs := transferred_append _
      have hsame := haccounted.of_transferred hinputs
      rw [← hfollowing]
      exact ⟨hsame.offsets, hsame.pending⟩
  | add transferredBytes =>
      have hfollowing : manager.add transferredBytes = following :=
        congrArg Prod.fst (Option.some.inj hstep)
      rw [← hfollowing]
      exact haccounted.add transferredBytes
  | notify =>
      have hnotified : (if manager.updating = 0 then none
          else some manager.notify) = some (following, answer) := hstep
      split_ifs at hnotified
      have hfollowing : manager.notify.1 = following :=
        congrArg Prod.fst (Option.some.inj hnotified)
      rw [← hfollowing]
      exact haccounted.notify
  | get =>
      have hfollowing : manager.get.1 = following :=
        congrArg Prod.fst (Option.some.inj hstep)
      rw [← hfollowing]
      exact haccounted.get

/-- In every run the offset is the sum of what has been transferred. -/
theorem status_reaches_accounted {outputs : List TransferStatusOutput}
    (hreach : machine.Reaches inputs outputs manager) :
    Accounted inputs manager := by
  refine hreach.history (fun inputs _ manager => Accounted inputs manager)
    ?_ ?_
  · intro initial hinitial
    rw [show initial = .new from hinitial]
    exact ⟨nofun, nofun⟩
  · intro inputs outputs current input following answer hbefore _ hstep
    exact hbefore.step hstep

theorem get_changed (hset : manager.status.empty = false)
    (hsend : manager.sendState = 2) : manager.get.2.2 = true := by
  have hexchange : manager.exchange.sendState = 2 := hsend
  unfold get
  simp only [hset, Bool.false_eq_true, if_false, hexchange, if_true]

/-- While a status is set, its offset and the counter add up to what has been
transferred, and a counter that is not zero is known to an `Update` that is
still running or to the next `Get`. -/
theorem status_accounts {outputs : List TransferStatusOutput}
    (hreach : machine.Reaches inputs outputs manager)
    (hset : manager.status.empty = false) :
    manager.status.currentOffset + manager.currentOffset =
        transferred inputs ∧
      (manager.currentOffset ≠ 0 →
        0 < manager.updating ∨
          manager.sendState = 2 ∧ manager.get.2.2 = true) := by
  have haccounted := status_reaches_accounted hreach
  refine ⟨haccounted.offsets hset, ?_⟩
  intro hnonzero
  rcases haccounted.pending hset hnonzero with hupdating | hsend
  · exact Or.inl hupdating
  · exact Or.inr ⟨hsend, get_changed hset hsend⟩

/-- Two calls of `Update` after a notification. -/
theorem status_accounts_second_update :
    ∃ outputs manager, machine.Reaches
        [.init 100 10 false, .add 5, .notify, .add 7, .add 8, .notify]
        outputs manager ∧
      manager.status.currentOffset = 15 ∧ manager.currentOffset = 15 ∧
      manager.status.currentOffset + manager.currentOffset =
        transferred
          [.init 100 10 false, .add 5, .notify, .add 7, .add 8, .notify] ∧
      manager.get.2.2 = true := by
  have hstart : machine.Reaches [] [] new := .start rfl
  have hreach : machine.Reaches
      [.init 100 10 false, .add 5, .notify, .add 7, .add 8, .notify] _ _ :=
    (((((hstart.next trivial rfl).next trivial rfl).next trivial rfl).next
      trivial rfl).next trivial rfl).next trivial rfl
  have haccounts := status_accounts hreach (by decide)
  refine ⟨_, _, hreach, by decide, by decide, haccounts.1, ?_⟩
  rcases haccounts.2 (by decide) with hupdating | hsend
  · exact absurd hupdating (by decide)
  · exact hsend.2

end TransferStatusManager

end TabFtp
