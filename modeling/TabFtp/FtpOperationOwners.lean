import TabFtp.FtpControlSocket

/-!
# Owners of the operations on the stack

Sub-operations work for the operation below them, so the operations of one
owner are together on the stack, and the owners above are newer.  An owner that
has no operation left therefore never has one again.
-/

namespace TabFtp

open LabelledRuns

namespace FtpSystem

variable {system following : FtpSystem}

def owners (system : FtpSystem) : List ℕ :=
  system.operations.map OpData.owner

@[simp] theorem setTopRequest_owners
    (state : AsyncRequestState) (operations : List OpData) :
    (setTopRequest state operations).map OpData.owner =
      operations.map OpData.owner := by
  cases operations <;> rfl

/-- Sub-operations have the owner of the operation below, and a new top-level
operation has a new owner. -/
structure Owned (system : FtpSystem) : Prop where
  ordered : system.owners.Pairwise (· ≥ ·)
  fresh : ∀ owner ∈ system.owners, owner < system.nextOwner

structure OwnersKept (system following : FtpSystem) : Prop where
  owned : following.Owned
  nextOwner : system.nextOwner ≤ following.nextOwner
  owners : ∀ owner ∈ following.owners,
    owner ∈ system.owners ∨ system.nextOwner ≤ owner

theorem Owned.kept_of_eq
    (howned : system.Owned) (howners : following.owners = system.owners)
    (hnext : following.nextOwner = system.nextOwner) :
    system.OwnersKept following where
  owned := by
    constructor
    · rw [howners]
      exact howned.ordered
    · rw [howners, hnext]
      exact howned.fresh
  nextOwner := le_of_eq hnext.symm
  owners owner hmem := by
    rw [howners] at hmem
    exact Or.inl hmem

theorem OwnersKept.trans
    {middle : FtpSystem} (hfirst : system.OwnersKept middle)
    (hsecond : middle.OwnersKept following) :
    system.OwnersKept following where
  owned := hsecond.owned
  nextOwner := le_trans hfirst.nextOwner hsecond.nextOwner
  owners owner hmem := by
    rcases hsecond.owners owner hmem with hold | hnew
    · exact hfirst.owners owner hold
    · exact Or.inr (le_trans hfirst.nextOwner hnew)

theorem Owned.push (howned : system.Owned) (opId : Command) :
    system.OwnersKept (system.push opId) := by
  have hordered := howned.ordered
  have hfresh := howned.fresh
  unfold FtpSystem.owners at hordered hfresh
  unfold FtpSystem.push
  cases hoperations : system.operations with
  | nil =>
      simp only
      split_ifs
      · constructor
        · constructor <;> simp [FtpSystem.owners]
        · exact Nat.le_add_right _ _
        · simp [FtpSystem.owners]
      · constructor
        · constructor <;> simp [FtpSystem.owners]
        · exact Nat.le_add_right _ _
        · simp [FtpSystem.owners]
  | cons top rest =>
      rw [hoperations] at hordered hfresh
      constructor
      · constructor
        · rw [List.map_cons, List.pairwise_cons] at hordered
          simpa [FtpSystem.owners] using hordered
        · simpa [FtpSystem.owners] using hfresh
      · exact le_refl _
      · intro owner hmem
        refine Or.inl ?_
        simpa [FtpSystem.owners, hoperations] using hmem

theorem Owned.sendAsyncRequest
    (howned : system.Owned) (request : RequestId) (wait : Bool) :
    system.OwnersKept (system.sendAsyncRequest request wait) := by
  unfold FtpSystem.sendAsyncRequest
  split
  · exact howned.kept_of_eq rfl rfl
  · exact howned.kept_of_eq (setTopRequest_owners _ _) rfl

theorem Owned.perform
    (howned : system.Owned) {action : Action}
    (hperform : system.perform action = some following) :
    system.OwnersKept following := by
  cases action with
  | sendCommand =>
      simp only [FtpSystem.perform] at hperform
      split at hperform
      · cases hperform
      · split_ifs at hperform
        cases hperform
        exact howned.kept_of_eq rfl rfl
  | push opId =>
      simp only [FtpSystem.perform] at hperform
      split_ifs at hperform
      cases hperform
      exact howned.push opId
  | sendAsyncRequest request wait =>
      cases hperform
      exact howned.sendAsyncRequest request wait
  | startTls =>
      simp only [FtpSystem.perform] at hperform
      split_ifs at hperform
      cases hperform
      exact howned.kept_of_eq rfl rfl

theorem Owned.performAll
    {actions : List Action} (howned : system.Owned)
    (hperform : system.performAll actions = some following) :
    system.OwnersKept following := by
  induction actions generalizing system with
  | nil =>
      cases hperform
      exact howned.kept_of_eq rfl rfl
  | cons action actions ih =>
      simp only [FtpSystem.performAll, Option.bind_eq_some_iff] at hperform
      rcases hperform with ⟨middle, hfirst, hrest⟩
      have hkept := howned.perform hfirst
      exact hkept.trans (ih hkept.owned hrest)

theorem Owned.afterSend (howned : system.Owned) (res : Reply) :
    system.OwnersKept (system.afterSend res) := by
  unfold FtpSystem.afterSend
  split_ifs <;> exact howned.kept_of_eq rfl rfl

theorem Owned.afterResponse (howned : system.Owned) (res : Reply) :
    system.OwnersKept (system.afterResponse res) := by
  unfold FtpSystem.afterResponse
  split_ifs <;> exact howned.kept_of_eq rfl rfl

theorem Owned.sendNextCommand
    (howned : system.Owned) {answer : Answer}
    (hsend : system.sendNextCommand answer = some following) :
    system.OwnersKept following := by
  unfold FtpSystem.sendNextCommand at hsend
  split at hsend
  · cases hsend
    exact howned.kept_of_eq rfl rfl
  · rename_i top rest htop
    by_cases hwaiting : top.asyncRequestState = .waiting
    · rw [if_pos hwaiting] at hsend
      cases hsend
      exact howned.kept_of_eq rfl rfl
    by_cases hskip : system.repliesToSkip ≠ 0
    · rw [if_neg hwaiting, if_pos hskip] at hsend
      cases hsend
      exact howned.kept_of_eq rfl rfl
    · rw [if_neg hwaiting, if_neg hskip] at hsend
      cases answer with
      | perform actions res =>
          simp only [Option.map_eq_some_iff] at hsend
          rcases hsend with ⟨middle, hactions, rfl⟩
          have hkept := howned.performAll hactions
          exact hkept.trans (hkept.owned.afterSend res)
      | doConnect started =>
          simp only at hsend
          split_ifs at hsend
          · cases hsend
            exact howned.kept_of_eq rfl rfl
          · cases hsend
            have hkept : system.OwnersKept system.resetSocket :=
              howned.kept_of_eq rfl rfl
            exact hkept.trans (hkept.owned.afterSend _)
      | reset failure => cases hsend

def Finishes (system following : FtpSystem) (events : List FtpEvent) : Prop :=
  ∀ owner, .finished owner ∈ events →
    owner ∈ system.owners ∧ owner ∉ following.owners

theorem Owned.resetOperation
    (howned : system.Owned) (errorCode : Reply) (failure : TransferFailure) :
    system.OwnersKept (system.resetOperation errorCode failure).1 ∧
      system.Finishes (system.resetOperation errorCode failure).1
        (system.resetOperation errorCode failure).2 := by
  have hordered := howned.ordered
  have hfresh := howned.fresh
  unfold FtpSystem.owners at hordered hfresh
  unfold FtpSystem.resetOperation FtpSystem.Finishes
  cases hoperations : system.operations with
  | nil =>
      refine ⟨howned.kept_of_eq ?_ rfl, by simp⟩
      simp [FtpSystem.owners, hoperations]
  | cons operation rest =>
      rw [hoperations, List.map_cons, List.pairwise_cons] at hordered
      rw [hoperations, List.map_cons] at hfresh
      cases rest with
      | nil =>
          refine ⟨⟨⟨by simp [FtpSystem.owners], by simp [FtpSystem.owners]⟩,
            le_refl _, by simp [FtpSystem.owners]⟩, ?_⟩
          simp [FtpSystem.owners, hoperations]
      | cons below rest =>
          constructor
          · constructor
            · exact ⟨hordered.2, fun owner hmem =>
                hfresh owner (List.mem_cons_of_mem _ hmem)⟩
            · exact le_refl _
            · intro owner hmem
              refine Or.inl ?_
              rw [FtpSystem.owners, hoperations, List.map_cons]
              exact List.mem_cons_of_mem _ hmem
          · intro owner hmem
            simp only at hmem
            split_ifs at hmem with hsame
            · cases hmem
            · simp only [List.mem_singleton, FtpEvent.finished.injEq] at hmem
              subst hmem
              refine ⟨by simp [FtpSystem.owners, hoperations], ?_⟩
              intro hbelow
              have hle : operation.owner ≤ below.owner := by
                rcases List.mem_cons.mp hbelow with heq | hrest
                · exact le_of_eq heq
                · have htail := hordered.2
                  rw [List.map_cons, List.pairwise_cons] at htail
                  exact htail.1 _ hrest
              have hge := hordered.1 below.owner (by simp)
              omega

theorem finishes_nil (system following : FtpSystem) :
    system.Finishes following [] := by
  intro owner hmem
  cases hmem

theorem Owned.proceed
    (howned : system.Owned) {answer : Answer} {events : List FtpEvent}
    (hproceed : system.proceed answer = some (following, events)) :
    system.OwnersKept following ∧ system.Finishes following events := by
  unfold FtpSystem.proceed at hproceed
  cases hcontrol : system.control with
  | idle => simp [hcontrol] at hproceed
  | sendNextCommand =>
      simp only [hcontrol, Option.map_eq_some_iff, Prod.mk.injEq] at hproceed
      rcases hproceed with ⟨_, hsend, rfl, rfl⟩
      exact ⟨howned.sendNextCommand hsend, finishes_nil _ _⟩
  | resetOperation errorCode =>
      simp only [hcontrol] at hproceed
      cases answer with
      | reset failure =>
          simp only [Option.some.injEq] at hproceed
          have hreset := howned.resetOperation errorCode failure
          rwa [hproceed] at hreset
      | perform | doConnect => cases hproceed
  | parseSubcommandResult prevResult =>
      simp only [hcontrol] at hproceed
      cases answer with
      | perform actions res =>
          simp only [Option.map_eq_some_iff, Prod.mk.injEq] at hproceed
          rcases hproceed with ⟨middle, hactions, rfl, rfl⟩
          have hkept := howned.performAll hactions
          exact ⟨hkept.trans (hkept.owned.kept_of_eq rfl rfl),
            finishes_nil _ _⟩
      | reset | doConnect => cases hproceed
  | parseResponse =>
      simp only [hcontrol] at hproceed
      cases answer with
      | perform actions res =>
          simp only [Option.map_eq_some_iff, Prod.mk.injEq] at hproceed
          rcases hproceed with ⟨middle, hactions, rfl, rfl⟩
          have hkept := howned.performAll hactions
          exact ⟨hkept.trans (hkept.owned.afterResponse res),
            finishes_nil _ _⟩
      | reset | doConnect => cases hproceed

/-- Receiving a line leaves the stack alone until the operation on top has
seen the reply. -/
structure Receives (system following : FtpSystem) (events : List FtpEvent) :
    Prop where
  operations : following.operations = system.operations
  nextOwner : following.nextOwner = system.nextOwner
  unfinished : ∀ owner, .finished owner ∉ events

theorem parseResponse_receives
    (system : FtpSystem) (line : WString) (tag : Tag) :
    system.Receives (system.parseResponse line tag).1
      (system.parseResponse line tag).2 := by
  unfold FtpSystem.parseResponse
  by_cases hunexpected : line = [] ∨
      (!decide (line.head? = some '1')) = true ∧ ¬ 0 < system.pendingReplies
  · rw [if_pos hunexpected]
    exact ⟨rfl, rfl, by simp⟩
  rw [if_neg hunexpected]
  by_cases hskip : system.repliesToSkip ≠ 0
  · rw [if_pos hskip]
    exact ⟨rfl, rfl, by simp⟩
  · rw [if_neg hskip]
    split <;> exact ⟨rfl, rfl, by simp⟩

theorem parseLine_receives
    (system : FtpSystem) (line : WString) (tag : Tag) :
    system.Receives (system.parseLine line tag).1
      (system.parseLine line tag).2 := by
  unfold FtpSystem.parseLine
  split_ifs
  · have hresponse :=
      { system with
        multilineResponseCode := []
        multilineResponseLines := [] }.parseResponse_receives line tag
    exact ⟨hresponse.operations, hresponse.nextOwner, hresponse.unfinished⟩
  · exact ⟨rfl, rfl, by simp⟩
  · exact ⟨rfl, rfl, by simp⟩
  · exact ⟨rfl, rfl, by simp⟩
  · exact parseResponse_receives system line tag
  · exact ⟨rfl, rfl, by simp⟩

theorem Owned.setAsyncRequestReply
    (howned : system.Owned) (top : OpData) (request : RequestId)
    (reply : RequestReply) :
    system.OwnersKept (system.setAsyncRequestReply top request reply) := by
  cases request with
  | fileexists =>
      simp only [FtpSystem.setAsyncRequestReply]
      split
      · cases reply with
        | rename => exact howned.sendAsyncRequest _ _
        | accept | refuse | skip => exact howned.kept_of_eq rfl rfl
      · exact howned.kept_of_eq rfl rfl
  | interactiveLogin | certificate | insecureConnection | tlsNoResumption =>
      simp only [FtpSystem.setAsyncRequestReply]
      split_ifs <;> exact howned.kept_of_eq rfl rfl

theorem Owned.event
    (howned : system.Owned) {input : Input} {events : List FtpEvent}
    (hevent : system.event input = some (following, events)) :
    system.OwnersKept following ∧ system.Finishes following events := by
  cases input with
  | connect protocol =>
      simp only [FtpSystem.event] at hevent
      split_ifs at hevent with hguard
      cases hevent
      have hprotocol : system.OwnersKept
          { system with protocol := protocol } := howned.kept_of_eq rfl rfl
      have hpush := hprotocol.owned.push .connect
      exact ⟨(hprotocol.trans hpush).trans (hpush.owned.kept_of_eq rfl rfl),
        finishes_nil _ _⟩
  | start opId =>
      simp only [FtpSystem.event] at hevent
      split_ifs at hevent with hguard
      cases hevent
      have hpush := howned.push opId
      exact ⟨hpush.trans (hpush.owned.kept_of_eq rfl rfl), finishes_nil _ _⟩
  | proceed answer => cases hevent
  | cancel =>
      cases hevent
      refine ⟨?_, finishes_nil _ _⟩
      unfold FtpSystem.cancel
      split
      · exact howned.kept_of_eq rfl rfl
      · split_ifs <;> exact howned.kept_of_eq rfl rfl
  | operationEnds errorCode =>
      simp only [FtpSystem.event] at hevent
      split at hevent
      · cases hevent
      · split_ifs at hevent
        cases hevent
        exact ⟨howned.kept_of_eq rfl rfl, finishes_nil _ _⟩
  | wakeUp =>
      simp only [FtpSystem.event] at hevent
      split_ifs at hevent
      cases hevent
      exact ⟨howned.kept_of_eq rfl rfl, finishes_nil _ _⟩
  | onTimer =>
      simp only [FtpSystem.event] at hevent
      split_ifs at hevent
      cases hevent
      refine ⟨?_, finishes_nil _ _⟩
      unfold FtpSystem.onTimer
      split_ifs <;> exact howned.kept_of_eq rfl rfl
  | onConnect =>
      simp only [FtpSystem.event] at hevent
      split_ifs at hevent
      cases hevent
      refine ⟨?_, finishes_nil _ _⟩
      unfold FtpSystem.onConnect
      split_ifs <;> exact howned.kept_of_eq rfl rfl
  | onVerifyCert =>
      simp only [FtpSystem.event] at hevent
      split_ifs at hevent
      cases hevent
      exact ⟨howned.sendAsyncRequest _ _, finishes_nil _ _⟩
  | onResumptionRefused =>
      simp only [FtpSystem.event] at hevent
      split_ifs at hevent
      cases hevent
      exact ⟨howned.sendAsyncRequest _ _, finishes_nil _ _⟩
  | requestReply reply =>
      simp only [FtpSystem.event, Option.map_eq_some_iff, Prod.mk.injEq]
        at hevent
      rcases hevent with ⟨_, hcall, rfl, rfl⟩
      refine ⟨?_, finishes_nil _ _⟩
      unfold FtpSystem.callSetAsyncRequestReply at hcall
      split at hcall
      · rename_i top rest request htop hlast
        simp only at hcall
        split_ifs at hcall
        cases hcall
        have hset : system.OwnersKept
            { system with
              operations :=
                FtpSystem.setTopRequest .none system.operations } :=
          howned.kept_of_eq (setTopRequest_owners _ _) rfl
        exact hset.trans (hset.owned.setAsyncRequestReply top request reply)
      · cases hcall
  | doClose errorCode =>
      cases hevent
      exact ⟨howned.kept_of_eq rfl rfl, finishes_nil _ _⟩
  | serverLine line => cases hevent
  | receive =>
      simp only [FtpSystem.event] at hevent
      split at hevent
      · cases hevent
      · rename_i line tag rest hwire
        have hreceives :=
          { system with wire := rest }.parseLine_receives line tag
        rw [Option.some.injEq] at hevent
        rw [hevent] at hreceives
        constructor
        · refine howned.kept_of_eq ?_ hreceives.nextOwner
          exact congrArg (List.map OpData.owner) hreceives.operations
        · intro owner hmem
          exact absurd hmem (hreceives.unfinished owner)

end FtpSystem

end TabFtp
