import TabFtp.FtpRestartOffset

/-!
# What a resume test records

A download that resumes beyond a limit first asks for the last byte of the
remote file.  The loop starts the test at one of two limits, and the result
is recorded for a limit that is found by another comparison.
-/

namespace TabFtp

namespace FileTransfer

def examined (op : FileTransfer) (env : TransferEnv) : FileTransfer :=
  { op with
    localFileSize := env.localFile.size64
    fileDidExist := env.localFile.size64 ≠ nosize
    resumeOffset :=
      if decide (env.localFile.size64 ≠ nosize) then env.localFile.size64
      else 0 }

inductive TestStarts (op : FileTransfer) (env : TransferEnv) :
    Capability → Prop
  | above4GB
      (first : ((op.examined env).testResumeLimit env (1 <<< 32)
        .resume4GBbug).op.opState = .waitresumetest) :
      TestStarts op env .resume4GBbug
  | above2GB
      (result : ((op.examined env).testResumeLimit env (1 <<< 32)
        .resume4GBbug).result = Reply.continued)
      (first : ((op.examined env).testResumeLimit env (1 <<< 32)
        .resume4GBbug).op.opState ≠ .waitresumetest)
      (second : ((op.examined env).testResumeLimit env (1 <<< 31)
        .resume2GBbug).op.opState = .waitresumetest) :
      TestStarts op env .resume2GBbug

/-- A download is about to resume. -/
structure ReadyToResume (op : FileTransfer) : Prop where
  download : op.download = true
  resume : op.resume = true
  state : op.opState = .resumetest
  unfinished : op.finished = none
  idle : op.subOperation = none
  answered : op.request = none

end FileTransfer

def TransferEnv.setCapability (env : TransferEnv) (name : Capability)
    (state : CapabilityState) : TransferEnv :=
  { env with
    capability := fun other =>
      if other = name then state else env.capability other }

namespace FileTransfer

/-- The result of the test is stored for the limit that started it, and the
same transfer starts no test afterwards. -/
def ResultRecorded (op : FileTransfer) (env : TransferEnv)
    (recorded : List TransferEvent) : Prop :=
  ∃ bug state, op.TestStarts env bug ∧
    .setCapability bug state ∈ recorded ∧
    (∀ other value, .setCapability other value ∈ recorded →
      other = bug ∧ value = state) ∧
    ∀ again events,
      op.step (.send (env.setCapability bug state)) = some (again, events) →
        again.opState ≠ .waitresumetest

/-- A test is started for a known, larger remote file and at its last byte,
and what it ends with is recorded. -/
def TestsSoundly (op : FileTransfer) (env : TransferEnv) : Prop :=
  ∀ started events, op.step (.send env) = some (started, events) →
    started.opState = .waitresumetest →
    op.remoteFileSize.slt 0 = false ∧
    env.localFile.size64 < op.remoteFileSize ∧
    started.resumeOffset = op.remoteFileSize - 1 ∧
    ∀ later prevResult commandSent endReason ended recorded,
      started.step (.subcommandResult later prevResult commandSent
        endReason) = some (ended, recorded) →
      (prevResult = Reply.ok ∨ endReason = .failedResumetest) →
      op.ResultRecorded env recorded

/-- The size of the remote file is unknown and taken for a large number, or
the local file has exactly 4 GB, or it is larger and the limit of 2 GB is to
be tested as well. -/
def MisjudgesResume (op : FileTransfer) (env : TransferEnv) : Prop :=
  op.TestsResume env ∧
    (op.remoteFileSize.slt 0 = true ∨
      env.localFile.size64 = 1 <<< 32 ∧
        env.capability .resume4GBbug = .unknown ∨
      1 <<< 32 < env.localFile.size64 ∧
        env.capability .resume2GBbug = .unknown)

variable {op : FileTransfer} {env : TransferEnv}

/-! ## The start of the test -/

theorem testResumeLimit_starts_iff {limit : Size} {bug : Capability}
    (hstate : op.opState ≠ .waitresumetest) :
    (op.testResumeLimit env limit bug).op.opState = .waitresumetest ↔
      ¬ op.localFileSize < limit ∧ env.capability bug = .unknown ∧
        op.localFileSize < op.remoteFileSize := by
  unfold testResumeLimit
  by_cases hsmall : op.localFileSize < limit
  · rw [if_pos hsmall]
    simp [hstate, hsmall]
  · rw [if_neg hsmall]
    cases hbug : env.capability bug with
    | yes =>
        dsimp only
        split_ifs <;> simp [hstate]
    | no => simp [hstate]
    | unknown =>
        dsimp only
        split_ifs with hless hsame
        · have hnot : ¬ op.localFileSize < op.remoteFileSize := by bv_omega
          simp [hstate, hnot]
        · have hnot : ¬ op.localFileSize < op.remoteFileSize := by bv_omega
          simp [hstate, hnot]
        · have hlarger : op.localFileSize < op.remoteFileSize := by
            bv_omega
          simp [startResumeTest, startTransfer, hsmall, hlarger]

theorem testResumeLimit_continued_iff {limit : Size} {bug : Capability}
    (hlarger : op.localFileSize < op.remoteFileSize) :
    ((op.testResumeLimit env limit bug).result = Reply.continued ∧
      (op.testResumeLimit env limit bug).op.opState ≠ .waitresumetest) ↔
      op.opState ≠ .waitresumetest ∧
        (op.localFileSize < limit ∨ env.capability bug = .no) := by
  have hless : ¬ op.remoteFileSize < op.localFileSize := by bv_omega
  have hsame : op.remoteFileSize ≠ op.localFileSize := by bv_omega
  unfold testResumeLimit
  by_cases hsmall : op.localFileSize < limit
  · rw [if_pos hsmall]
    simp [hsmall]
  · rw [if_neg hsmall]
    cases hbug : env.capability bug with
    | yes =>
        dsimp only
        rw [if_neg hsame]
        simp [hsmall, Reply.criticalerror, Reply.error, Reply.continued]
    | no => simp
    | unknown =>
        dsimp only
        rw [if_neg hless, if_neg hsame]
        simp [startResumeTest, startTransfer, hsmall]

theorem testStarts_4GB_iff (hready : op.ReadyToResume) :
    op.TestStarts env .resume4GBbug ↔
      env.localFile.size64 < op.remoteFileSize ∧
      ¬ env.localFile.size64 < 1 <<< 32 ∧
      env.capability .resume4GBbug = .unknown := by
  have hstate : (op.examined env).opState ≠ .waitresumetest := by
    show op.opState ≠ .waitresumetest
    rw [hready.state]
    decide
  have hround := @testResumeLimit_starts_iff (op.examined env) env (1 <<< 32)
    .resume4GBbug hstate
  constructor
  · intro hstarts
    cases hstarts with
    | above4GB first =>
        rcases hround.mp first with ⟨hlarge, hbug, hlarger⟩
        exact ⟨hlarger, hlarge, hbug⟩
  · rintro ⟨hlarger, hlarge, hbug⟩
    exact .above4GB (hround.mpr ⟨hlarge, hbug, hlarger⟩)

theorem testStarts_2GB_iff (hready : op.ReadyToResume) :
    op.TestStarts env .resume2GBbug ↔
      env.localFile.size64 < op.remoteFileSize ∧
      ¬ env.localFile.size64 < 1 <<< 31 ∧
      env.capability .resume2GBbug = .unknown ∧
      (env.localFile.size64 < 1 <<< 32 ∨
        env.capability .resume4GBbug = .no) := by
  have hstate : (op.examined env).opState ≠ .waitresumetest := by
    show op.opState ≠ .waitresumetest
    rw [hready.state]
    decide
  have hround := @testResumeLimit_starts_iff (op.examined env) env (1 <<< 31)
    .resume2GBbug hstate
  constructor
  · intro hstarts
    cases hstarts with
    | above2GB result first second =>
        rcases hround.mp second with ⟨hlarge, hbug, hlarger⟩
        have hgoesOn := (testResumeLimit_continued_iff hlarger).mp
          ⟨result, first⟩
        exact ⟨hlarger, hlarge, hbug, hgoesOn.2⟩
  · rintro ⟨hlarger, hlarge, hbug, hgoesOn⟩
    have hfirst := (@testResumeLimit_continued_iff (op.examined env) env
      (1 <<< 32) .resume4GBbug hlarger).mpr ⟨hstate, hgoesOn⟩
    exact .above2GB hfirst.1 hfirst.2 (hround.mpr ⟨hlarge, hbug, hlarger⟩)

theorem TestStarts.cases {bug : Capability}
    (hstarts : op.TestStarts env bug) :
    bug = .resume4GBbug ∨ bug = .resume2GBbug := by
  cases hstarts with
  | above4GB => exact Or.inl rfl
  | above2GB => exact Or.inr rfl

theorem TestStarts.unique {bug other : Capability}
    (hstarts : op.TestStarts env bug) (hother : op.TestStarts env other) :
    bug = other := by
  cases hstarts with
  | above4GB first =>
      cases hother with
      | above4GB => rfl
      | above2GB _ hnot => exact absurd first hnot
  | above2GB _ hnot =>
      cases hother with
      | above4GB first => exact absurd first hnot
      | above2GB => rfl

theorem TestStarts.larger (hready : op.ReadyToResume) {bug : Capability}
    (hstarts : op.TestStarts env bug) :
    env.localFile.size64 < op.remoteFileSize := by
  rcases hstarts.cases with rfl | rfl
  · exact ((testStarts_4GB_iff hready).mp hstarts).1
  · exact ((testStarts_2GB_iff hready).mp hstarts).1

/-- A test is made exactly if there is a bug to test for. -/
theorem testsResume_iff (hready : op.ReadyToResume) :
    op.TestsResume env ↔ ∃ bug, op.TestStarts env bug := by
  constructor
  · rintro ⟨_, _, _, hlarger, htest⟩
    rcases htest with ⟨hlarge, hbug⟩ | ⟨hlarge, hbug, hgoesOn⟩
    · exact ⟨_, (testStarts_4GB_iff hready).mpr ⟨hlarger, hlarge, hbug⟩⟩
    · exact ⟨_, (testStarts_2GB_iff hready).mpr
        ⟨hlarger, hlarge, hbug, hgoesOn⟩⟩
  · rintro ⟨bug, hstarts⟩
    rcases hstarts.cases with rfl | rfl
    · rcases (testStarts_4GB_iff hready).mp hstarts with
        ⟨hlarger, hlarge, hbug⟩
      exact ⟨hready.download, hready.resume, hready.state, hlarger,
        Or.inl ⟨hlarge, hbug⟩⟩
    · rcases (testStarts_2GB_iff hready).mp hstarts with
        ⟨hlarger, hlarge, hbug, hgoesOn⟩
      exact ⟨hready.download, hready.resume, hready.state, hlarger,
        Or.inr ⟨hlarge, hbug, hgoesOn⟩⟩

theorem testResumeCapability_starts_iff (hready : op.ReadyToResume) :
    ((op.examined env).testResumeCapability env).op.opState =
        .waitresumetest ↔
      ∃ bug, op.TestStarts env bug := by
  have hdownload : (op.examined env).download = true := hready.download
  unfold testResumeCapability
  simp only [hdownload, Bool.not_true]
  rw [if_neg Bool.false_ne_true]
  split_ifs with hfirst
  · constructor
    · intro hstate
      exact ⟨_, .above4GB hstate⟩
    · rintro ⟨bug, hstarts⟩
      cases hstarts with
      | above4GB first => exact first
      | above2GB result first =>
          rcases hfirst with hresult | hstate
          · exact absurd result hresult
          · exact hstate
  · rw [not_or, not_not] at hfirst
    constructor
    · intro hstate
      exact ⟨_, .above2GB hfirst.1 hfirst.2 hstate⟩
    · rintro ⟨bug, hstarts⟩
      cases hstarts with
      | above4GB first => exact absurd first hfirst.2
      | above2GB result first second => exact second

/-! ## The step that starts it -/

theorem send_ready (hready : op.ReadyToResume) :
    op.send env =
      if ((op.examined env).testResumeCapability env).result ≠
            Reply.continued ∨
          ((op.examined env).testResumeCapability env).op.opState ≠
            .resumetest then
        (op.examined env).testResumeCapability env
      else ((op.examined env).testResumeCapability env).op.sendDownload
        env := by
  unfold send
  rw [hready.state]
  unfold sendTransfer
  dsimp only
  rw [if_pos hready.download, if_pos hready.resume, if_pos hready.state]
  rfl

theorem conclude_opState (outcome : TransferOutcome) :
    (conclude env outcome).1.opState = outcome.op.opState := by
  unfold conclude
  split_ifs
  · rfl
  · rfl

theorem sendDownload_not_testing (hstate : op.opState = .resumetest) :
    (op.sendDownload env).op.opState ≠ .waitresumetest := by
  unfold sendDownload
  split_ifs <;> simp [startTransfer, hstate]

/-- When `Send` starts the test, and with which operation. -/
theorem step_starts (hready : op.ReadyToResume) {started : FileTransfer}
    {events : List TransferEvent}
    (hstep : op.step (.send env) = some (started, events)) :
    (started.opState = .waitresumetest ↔ ∃ bug, op.TestStarts env bug) ∧
      (started.opState = .waitresumetest →
        started = (op.examined env).startResumeTest.op) := by
  have hstarted : started = (conclude env (op.send env)).1 := by
    unfold step at hstep
    rw [if_neg (by simp [hready.unfinished])] at hstep
    dsimp only at hstep
    rw [if_pos ⟨hready.idle, hready.answered⟩] at hstep
    exact (congrArg Prod.fst (Option.some.inj hstep)).symm
  have hiff := @testResumeCapability_starts_iff op env hready
  have hstate : (op.examined env).opState = .resumetest := hready.state
  have hnotok : Reply.ok ≠ Reply.continued := by decide
  have hcritical : Reply.criticalerror ≠ Reply.continued := by decide
  rw [send_ready hready] at hstarted
  rcases @testResumeCapability_cases (op.examined env) env hready.download
    hstate with ⟨htest, _⟩ | htest | htest | htest
  · rw [htest] at hiff hstarted
    rw [if_pos (Or.inl hnotok)] at hstarted
    rw [hstarted, conclude_opState]
    exact ⟨hiff, fun hwaits => by simp [hstate] at hwaits⟩
  · rw [htest] at hiff hstarted
    have hwaits : (op.examined env).startResumeTest.op.opState ≠
        .resumetest := by
      simp [startResumeTest, startTransfer]
    rw [if_pos (Or.inr hwaits)] at hstarted
    rw [hstarted, conclude_opState]
    refine ⟨hiff, fun _ => ?_⟩
    simp [conclude, startResumeTest, startTransfer]
  · rw [htest] at hiff hstarted
    rw [if_pos (Or.inl hcritical)] at hstarted
    rw [hstarted, conclude_opState]
    exact ⟨hiff, fun hwaits => by simp [hstate] at hwaits⟩
  · rw [htest] at hiff hstarted
    rw [if_neg (by simp [hstate])] at hstarted
    rw [hstarted, conclude_opState]
    have hnot := @sendDownload_not_testing (op.examined env) env hstate
    constructor
    · constructor
      · intro hwaits
        exact absurd hwaits hnot
      · intro hstarts
        have hwaits := hiff.mpr hstarts
        simp [hstate] at hwaits
    · intro hwaits
      exact absurd hwaits hnot

theorem step_send_ready (hready : op.ReadyToResume) :
    ∃ started events, op.step (.send env) = some (started, events) := by
  unfold step
  rw [if_neg (by simp [hready.unfinished])]
  dsimp only
  rw [if_pos ⟨hready.idle, hready.answered⟩]
  exact ⟨_, _, rfl⟩

/-! ## The step that records the result -/

def recordedBug (env : TransferEnv) : Capability :=
  if env.localFile.size64 > 1 <<< 32 then .resume4GBbug else .resume2GBbug

theorem mem_conclude_setCapability {outcome : TransferOutcome}
    {bug : Capability} {state : CapabilityState} :
    .setCapability bug state ∈ (conclude env outcome).2 ↔
      .setCapability bug state ∈ outcome.events := by
  unfold conclude
  split_ifs
  · exact Iff.rfl
  · simp

def testEnded (op : FileTransfer) (commandSent : Bool)
    (endReason : TransferEndReason) : FileTransfer :=
  { op with
    subOperation := none
    transferCommandSent := commandSent
    transferEndReason := endReason }

theorem step_testEnded (later : TransferEnv) (prevResult : Reply)
    (commandSent : Bool) (endReason : TransferEndReason)
    (hunfinished : op.finished = none)
    (hsub : op.subOperation = some .rawTransfer)
    (hwaits : op.opState = .waitresumetest) :
    op.step (.subcommandResult later prevResult commandSent endReason) =
      some (conclude later
        ((op.testEnded commandSent endReason).subcommandResult later
          prevResult)) := by
  have hnopayload : ¬ op.opState = .waittransfer := by
    rw [hwaits]
    decide
  unfold step
  rw [if_neg (by simp [hunfinished])]
  dsimp only
  rw [hsub]
  dsimp only
  rw [if_pos rfl, if_neg hnopayload, List.nil_append]
  rfl

theorem subcommandResult_records {prevResult : Reply}
    (hwaits : op.opState = .waitresumetest)
    (hconclusive : prevResult = Reply.ok ∨
      op.transferEndReason = .failedResumetest)
    (bug : Capability) (state : CapabilityState) :
    .setCapability bug state ∈ (op.subcommandResult env prevResult).events ↔
      bug = op.resumeBug ∧
        state = if prevResult = Reply.ok then .no else .yes := by
  unfold subcommandResult
  rw [hwaits]
  dsimp only
  by_cases hok : prevResult = Reply.ok
  · rw [if_neg (not_not.mpr hok), if_pos hok, List.mem_singleton,
      TransferEvent.setCapability.injEq]
  · have hfailed := hconclusive.resolve_left hok
    rw [if_pos hok, if_pos hfailed, if_neg hok, List.mem_singleton,
      TransferEvent.setCapability.injEq]

theorem step_ends (hready : op.ReadyToResume) (later : TransferEnv)
    (prevResult : Reply) (commandSent : Bool)
    (endReason : TransferEndReason) :
    ∃ ended recorded, (op.examined env).startResumeTest.op.step
        (.subcommandResult later prevResult commandSent endReason) =
          some (ended, recorded) ∧
      ((prevResult = Reply.ok ∨ endReason = .failedResumetest) →
        ∀ bug state, .setCapability bug state ∈ recorded ↔
          bug = recordedBug env ∧
            state = if prevResult = Reply.ok then .no else .yes) := by
  have hstep := @step_testEnded (op.examined env).startResumeTest.op
    later prevResult commandSent endReason hready.unfinished rfl rfl
  rcases hconcluded : conclude later
      (((op.examined env).startResumeTest.op.testEnded commandSent
        endReason).subcommandResult later prevResult) with ⟨ended, recorded⟩
  rw [hconcluded] at hstep
  refine ⟨ended, recorded, hstep, ?_⟩
  intro hconclusive bug state
  have hevents : recorded = (conclude later
      (((op.examined env).startResumeTest.op.testEnded commandSent
        endReason).subcommandResult later prevResult)).2 := by
    rw [hconcluded]
  rw [hevents, mem_conclude_setCapability,
    subcommandResult_records rfl hconclusive]
  rfl

/-! ## Repeating the transfer -/

def Settles (op : FileTransfer) (env : TransferEnv) (bug : Capability) :
    Prop :=
  ∀ state, state = .no ∨ state = .yes → ∀ other,
    ¬op.TestStarts (env.setCapability bug state) other

theorem not_starting_iff (hready : op.ReadyToResume) :
    (∀ again events, op.step (.send env) = some (again, events) →
      again.opState ≠ .waitresumetest) ↔
      ∀ other, ¬op.TestStarts env other := by
  constructor
  · intro hnone other hstarts
    rcases @step_send_ready op env hready with ⟨again, events, hstep⟩
    exact hnone again events hstep
      ((step_starts hready hstep).1.mpr ⟨other, hstarts⟩)
  · intro hnone again events hstep hwaits
    rcases (step_starts hready hstep).1.mp hwaits with ⟨other, hstarts⟩
    exact hnone other hstarts

/-- The test settles the bug that it has been started for. -/
theorem testsSoundly_of_starts (hready : op.ReadyToResume)
    {bug : Capability} (hstarts : op.TestStarts env bug) :
    op.TestsSoundly env ↔
      op.remoteFileSize.slt 0 = false ∧ bug = recordedBug env ∧
        op.Settles env bug := by
  rcases @step_send_ready op env hready with ⟨started, events, hstep⟩
  rcases step_starts hready hstep with ⟨hwaits, hstarted⟩
  have hbegun := hwaits.mpr ⟨bug, hstarts⟩
  have hop := hstarted hbegun
  constructor
  · intro hsound
    rcases hsound started events hstep hbegun with ⟨hknown, _, _, hends⟩
    rw [hop] at hends
    have hrecorded : ∀ (prevResult : Reply) (endReason : TransferEndReason),
        (prevResult = Reply.ok ∨ endReason = .failedResumetest) →
        bug = recordedBug env ∧ ∀ other,
          ¬op.TestStarts (env.setCapability bug
            (if prevResult = Reply.ok then .no else .yes)) other := by
      intro prevResult endReason hconclusive
      rcases @step_ends op env hready env prevResult true endReason with
        ⟨ended, recorded, hend, hmem⟩
      rcases hends env prevResult true endReason ended recorded hend
        hconclusive with ⟨cause, state, hcause, hstored, _, hagain⟩
      rcases (hmem hconclusive cause state).mp hstored with ⟨hbug, hstate⟩
      have hsame := hstarts.unique hcause
      rw [← hsame] at hbug hagain
      rw [hstate] at hagain
      exact ⟨hbug, (not_starting_iff hready).mp hagain⟩
    have hno := hrecorded Reply.ok .successful (Or.inl rfl)
    have hyes := hrecorded Reply.error .failedResumetest (Or.inr rfl)
    refine ⟨hknown, hno.1, ?_⟩
    intro state hstate
    rcases hstate with rfl | rfl
    · exact hno.2
    · exact hyes.2
  · rintro ⟨hknown, hbug, hsettles⟩ started' events' hstep' _
    rw [hstep] at hstep'
    cases hstep'
    refine ⟨hknown, hstarts.larger hready, by rw [hop]; rfl, ?_⟩
    intro later prevResult commandSent endReason ended recorded hend
      hconclusive
    rw [hop] at hend
    rcases @step_ends op env hready later prevResult commandSent endReason
      with ⟨ended', recorded', hend', hmem⟩
    rw [hend] at hend'
    cases hend'
    refine ⟨bug, if prevResult = Reply.ok then .no else .yes, hstarts,
      (hmem hconclusive _ _).mpr ⟨hbug, rfl⟩, ?_, ?_⟩
    · intro other value hstored
      rcases (hmem hconclusive other value).mp hstored with ⟨hother, hvalue⟩
      exact ⟨hother.trans hbug.symm, hvalue⟩
    · apply (not_starting_iff hready).mpr
      apply hsettles
      split_ifs
      · exact Or.inl rfl
      · exact Or.inr rfl

theorem settles_4GB_iff (hready : op.ReadyToResume)
    (hstarts : op.TestStarts env .resume4GBbug) :
    op.Settles env .resume4GBbug ↔
      env.capability .resume2GBbug ≠ .unknown := by
  rcases (testStarts_4GB_iff hready).mp hstarts with ⟨hlarger, hlarge, _⟩
  have hlimits : ((1 <<< 31 : ℕ) : Size) < ((1 <<< 32 : ℕ) : Size) := by
    decide
  have hlarge' : ¬ env.localFile.size64 < 1 <<< 31 := by bv_omega
  constructor
  · intro hsettles hbug
    exact hsettles .no (Or.inl rfl) .resume2GBbug
      ((testStarts_2GB_iff hready).mpr ⟨hlarger, hlarge', hbug, Or.inr rfl⟩)
  · intro hbug state hstate other hother
    rcases hother.cases with rfl | rfl
    · have hunknown : state = .unknown :=
        ((testStarts_4GB_iff hready).mp hother).2.2
      rw [hunknown] at hstate
      rcases hstate with hstate | hstate <;> cases hstate
    · exact hbug ((testStarts_2GB_iff hready).mp hother).2.2.1

theorem settles_2GB (hready : op.ReadyToResume)
    (hstarts : op.TestStarts env .resume2GBbug) :
    op.Settles env .resume2GBbug := by
  rcases (testStarts_2GB_iff hready).mp hstarts with ⟨_, _, _, hgoesOn⟩
  intro state hstate other hother
  rcases hother.cases with rfl | rfl
  · rcases (testStarts_4GB_iff hready).mp hother with ⟨_, hlarge, hbug⟩
    have hunknown : env.capability .resume4GBbug = .unknown := hbug
    rcases hgoesOn with hsmall | hno
    · exact hlarge hsmall
    · rw [hno] at hunknown
      cases hunknown
  · have hunknown : state = .unknown :=
      ((testStarts_2GB_iff hready).mp hother).2.2.1
    rw [hunknown] at hstate
    rcases hstate with hstate | hstate <;> cases hstate

/-- The test is sound exactly when none of the three kinds of misjudgement is
at hand. -/
theorem testsSoundly_iff (hready : op.ReadyToResume) :
    op.TestsSoundly env ↔ ¬op.MisjudgesResume env := by
  unfold MisjudgesResume
  by_cases hstarts : ∃ bug, op.TestStarts env bug
  · have htests := (testsResume_iff hready).mpr hstarts
    rcases hstarts with ⟨bug, hstarts⟩
    rw [testsSoundly_of_starts hready hstarts, ← Bool.not_eq_true]
    unfold recordedBug
    rcases hstarts.cases with rfl | rfl
    · rw [settles_4GB_iff hready hstarts]
      rcases (testStarts_4GB_iff hready).mp hstarts with ⟨_, hlarge, hbug⟩
      by_cases habove : env.localFile.size64 > 1 <<< 32
      · have hne : env.localFile.size64 ≠ 1 <<< 32 := by bv_omega
        rw [if_pos habove]
        tauto
      · have heq : env.localFile.size64 = 1 <<< 32 := by bv_omega
        have hother : Capability.resume4GBbug ≠ .resume2GBbug := by decide
        rw [if_neg habove]
        tauto
    · have hsettles := settles_2GB hready hstarts
      rcases (testStarts_2GB_iff hready).mp hstarts with
        ⟨_, _, hbug, hgoesOn⟩
      by_cases habove : env.localFile.size64 > 1 <<< 32
      · have hother : Capability.resume2GBbug ≠ .resume4GBbug := by decide
        rw [if_pos habove]
        tauto
      · have hexact : ¬(env.localFile.size64 = 1 <<< 32 ∧
            env.capability .resume4GBbug = .unknown) := by
          rintro ⟨heq, hunknown⟩
          rcases hgoesOn with hsmall | hno
          · rw [heq] at hsmall
            exact absurd hsmall (by decide)
          · rw [hno] at hunknown
            cases hunknown
        rw [if_neg habove]
        tauto
  · have hsound : op.TestsSoundly env := by
      intro started events hstep hwaits
      exact absurd ((step_starts hready hstep).1.mp hwaits) hstarts
    have hnotests : ¬op.TestsResume env := fun htests =>
      hstarts ((testsResume_iff hready).mp htests)
    simp [hsound, hnotests]

end FileTransfer

/-- A local file and what is known about the limits of the server. -/
def TransferEnv.partialFile (localSize : Fin (2 ^ 63))
    (above4GB above2GB : CapabilityState) : TransferEnv :=
  { TransferEnv.fiveBytes 0 with
    localFile := ⟨some localSize, none⟩
    capability := fun name =>
      if name = .resume4GBbug then above4GB else above2GB }

/-- A download before it tests whether the server can resume. -/
def FileTransfer.resumedDownload (remoteSize : Size) : FileTransfer :=
  { FileTransfer.upload with
    opState := .resumetest
    download := true
    resume := true
    remoteFileSize := remoteSize }

theorem FileTransfer.resumedDownload_ready (remoteSize : Size) :
    (FileTransfer.resumedDownload remoteSize).ReadyToResume := by
  constructor <;> rfl

/-- 5 GB of 6 GB, and a server that is known to resume above 2 GB. -/
theorem testsSoundly_above4GB :
    (FileTransfer.resumedDownload 6442450944).TestsSoundly
      (.partialFile 5368709120 .unknown .no) := by
  apply (FileTransfer.testsSoundly_iff
    (FileTransfer.resumedDownload_ready _)).mpr
  rintro ⟨_, hkind⟩
  revert hkind
  decide

/-- 5 GB of 6 GB, and a server that is known to resume above 4 GB.  The test
is for the limit of 2 GB, and its result is stored for that of 4 GB. -/
theorem not_testsSoundly_above2GB :
    ¬(FileTransfer.resumedDownload 6442450944).TestsSoundly
      (.partialFile 5368709120 .no .unknown) := by
  have hready := FileTransfer.resumedDownload_ready 6442450944
  have hstarts : (FileTransfer.resumedDownload 6442450944).TestStarts
      (.partialFile 5368709120 .no .unknown) .resume2GBbug := by
    apply (FileTransfer.testStarts_2GB_iff hready).mpr
    decide
  rw [FileTransfer.testsSoundly_of_starts hready hstarts]
  rintro ⟨_, hbug, _⟩
  revert hbug
  decide

end TabFtp
