import TabFtp.FtpConnectionSteps
import TabFtp.FtpTransferSuccess

/-!
# The restart offset of the server

`m_sentRestartOffset` is set when `REST` with an offset is sent and cleared by
the reply to a `REST` without one.  While it is clear, the client takes it
that the server has no restart offset.
-/

namespace TabFtp

open LabelledRuns

/-- `RETR` and `STOR` were sent to a server with the offset of the operation,
`APPE` to one without an offset. -/
def SentAtOffset (events : List ConnectionEvent) : Prop :=
  ∀ verb binary resumeOffset server,
    .dataCommand (.file verb) binary resumeOffset server ∈ events →
      (verb = .retr ∨ verb = .stor → server.offset = resumeOffset) ∧
        (verb = .appe → server.offset = 0)

/-- A command of the user goes to the server: a raw command, or one that the
logon sends. -/
inductive FtpConnection.UserSends (connection : FtpConnection) :
    ConnectionInput → ServerCommand → ServerAnswer → Prop
  | logon (command : ServerCommand) (answer : ServerAnswer) :
      UserSends connection (.operationSends command answer) command answer
  | rawCommand (command : ServerCommand) (answer : ServerAnswer) :
      connection.operations.head? = some (.rawCommand command false) →
      UserSends connection (.sendRawCommand true answer) command answer

/-- The server always accepts `REST 0`. -/
structure FtpConnection.AcceptsRestZero (connection : FtpConnection)
    (input : ConnectionInput) : Prop where
  user : ∀ answer, connection.UserSends input (.rest 0) answer →
    answer.accepts = true
  transfer : ∀ run step answer, input = .transfer step answer →
    connection.transfer = some run → run.op.opState = .rest →
      run.op.resumeOffset = 0 → answer.accepts = true

namespace FileTransfer

def TestsResume (op : FileTransfer) (env : TransferEnv) : Prop :=
  op.download = true ∧ op.resume = true ∧ op.opState = .resumetest ∧
    env.localFile.size64 < op.remoteFileSize ∧
    (¬ env.localFile.size64 < 1 <<< 32 ∧
        env.capability .resume4GBbug = .unknown ∨
      ¬ env.localFile.size64 < 1 <<< 31 ∧
        env.capability .resume2GBbug = .unknown ∧
        (env.localFile.size64 < 1 <<< 32 ∨
          env.capability .resume4GBbug = .no))

/-- An upload is resumed by `REST` and not by `APPE`, and the test needs the
size of the remote file. -/
structure KnowsOffset (op : FileTransfer) (env : TransferEnv) : Prop where
  upload : op.download = false → op.resume = true →
    BitVec.slt 0 op.remoteFileSize = true →
      env.capability .restStream = .yes
  test : op.TestsResume env → op.remoteFileSize.slt 0 = false

end FileTransfer

/-- No command of the user leaves an offset that the client does not know of,
and no transfer starts at an offset that it does not send. -/
structure FtpConnection.KnowsRestart (connection : FtpConnection)
    (input : ConnectionInput) : Prop where
  user : ∀ command answer, connection.UserSends input command answer →
    (connection.server.execute command answer).offset ≠ 0 →
      connection.parameters.sentRestartOffset = true
  file : ∀ op env, input = .transferFile op env → op.KnowsOffset env

/-! ## The offset of a transfer -/

/-- A raw transfer that is started has no negative offset, and its command is
not `APPE`. -/
def TransferOutcome.StartsAtOffset (outcome : TransferOutcome) : Prop :=
  ∀ raw, FtpConnection.startedTransfer outcome = some raw →
    0 ≤ raw.resumeOffset ∧ raw.cmd ≠ .file .appe

namespace FileTransfer

variable {op : FileTransfer} {env : TransferEnv}

theorem startsAtOffset_none (following : FileTransfer) (result : Reply) :
    TransferOutcome.StartsAtOffset ⟨following, [], result⟩ := by
  intro raw hstarted
  cases hstarted

theorem startsAtOffset_startTransfer (hoffset : 0 ≤ op.resumeOffset.toInt)
    {verb : TransferVerb} (hverb : verb ≠ .appe) :
    (op.startTransfer verb).StartsAtOffset := by
  intro raw hstarted
  cases hstarted
  refine ⟨hoffset, ?_⟩
  intro hsame
  cases hsame
  exact hverb rfl

theorem startsAtOffset_sendDownload
    (hoffset : 0 ≤ op.resumeOffset.toInt) :
    (op.sendDownload env).StartsAtOffset := by
  unfold sendDownload
  split_ifs
  · exact startsAtOffset_none _ _
  · exact startsAtOffset_none _ _
  · exact startsAtOffset_startTransfer hoffset nofun

theorem startsAtOffset_sendUpload
    (hoffset : 0 ≤ op.resumeOffset.toInt)
    (hverb : op.uploadVerb env = .stor) :
    (op.sendUpload env).StartsAtOffset := by
  unfold sendUpload
  rw [hverb]
  split_ifs
  · exact startsAtOffset_none _ _
  · exact startsAtOffset_startTransfer hoffset nofun

theorem startsAtOffset_setRemoteTime :
    (op.setRemoteTime env).StartsAtOffset := by
  unfold setRemoteTime
  dsimp only
  split_ifs <;> exact startsAtOffset_none _ _

theorem size64_toInt (file : LocalFile) (hsize : file.size64 ≠ nosize) :
    0 ≤ file.size64.toInt := by
  unfold LocalFile.size64 at hsize ⊢
  cases hfile : file.size with
  | none =>
      rw [hfile] at hsize
      exact absurd rfl hsize
  | some size =>
      have hbound := size.isLt
      have hsmall : 2 * (BitVec.ofNat 64 size.val).toNat < 2 ^ 64 := by
        rw [BitVec.toNat_ofNat]
        omega
      dsimp only
      rw [BitVec.toInt_eq_toNat_of_lt hsmall]
      exact Int.natCast_nonneg _

theorem startResumeTest_offset
    (hknown : op.remoteFileSize.slt 0 = false)
    (hlarger : op.localFileSize < op.remoteFileSize) :
    0 ≤ (op.remoteFileSize - 1).toInt := by
  have hpositive : 0 ≤ op.remoteFileSize.toInt := by
    simpa [BitVec.slt] using hknown
  have hsmall : 2 * op.remoteFileSize.toNat < 2 ^ 64 := by
    rw [BitVec.toInt_eq_toNat_cond] at hpositive
    split_ifs at hpositive with hbound
    · exact hbound
    · have hlt := op.remoteFileSize.isLt
      omega
  have hsome : 0 < op.remoteFileSize.toNat := by
    have hlt : op.localFileSize.toNat < op.remoteFileSize.toNat := hlarger
    omega
  have hpred :
      (op.remoteFileSize - 1).toNat = op.remoteFileSize.toNat - 1 := by
    bv_omega
  have hsmall' : 2 * (op.remoteFileSize - 1).toNat < 2 ^ 64 := by omega
  rw [BitVec.toInt_eq_toNat_of_lt hsmall']
  exact Int.natCast_nonneg _

theorem startsAtOffset_testResumeLimit {limit : Size} {bug : Capability}
    (hknown : ¬ op.localFileSize < limit → env.capability bug = .unknown →
      op.localFileSize < op.remoteFileSize →
        op.remoteFileSize.slt 0 = false) :
    (op.testResumeLimit env limit bug).StartsAtOffset := by
  unfold testResumeLimit
  by_cases hsmall : op.localFileSize < limit
  · rw [if_pos hsmall]
    exact startsAtOffset_none _ _
  · rw [if_neg hsmall]
    cases hbug : env.capability bug with
    | yes =>
        simp only
        split_ifs <;> exact startsAtOffset_none _ _
    | no => exact startsAtOffset_none _ _
    | unknown =>
        simp only
        split_ifs with hless hsame
        · exact startsAtOffset_none _ _
        · exact startsAtOffset_none _ _
        · have hlarger : op.localFileSize < op.remoteFileSize := by
            bv_omega
          have hoffset :=
            startResumeTest_offset (hknown hsmall hbug hlarger) hlarger
          exact startsAtOffset_startTransfer hoffset nofun

theorem testResumeLimit_goesOn {limit : Size} {bug : Capability}
    (hresult : (op.testResumeLimit env limit bug).result = Reply.continued)
    (hstate : (op.testResumeLimit env limit bug).op.opState ≠
      .waitresumetest) (hlarger : op.localFileSize < op.remoteFileSize) :
    op.localFileSize < limit ∨ env.capability bug = .no := by
  by_contra hneither
  rw [not_or] at hneither
  obtain ⟨hlarge, hbug⟩ := hneither
  unfold testResumeLimit at hresult hstate
  rw [if_neg hlarge] at hresult hstate
  have hnotless : ¬ op.remoteFileSize < op.localFileSize := by bv_omega
  have hnotsame : ¬ op.remoteFileSize = op.localFileSize := by bv_omega
  cases hcapability : env.capability bug with
  | no => exact hbug hcapability
  | yes =>
      simp only [hcapability, if_neg hnotsame] at hresult
      exact absurd hresult (by decide)
  | unknown =>
      simp only [hcapability, if_neg hnotless, if_neg hnotsame] at hstate
      exact hstate rfl

section ResumeTest

variable (hdownload : op.download = true)
  (hknown :
    op.localFileSize < op.remoteFileSize →
    (¬ op.localFileSize < 1 <<< 32 ∧
        env.capability .resume4GBbug = .unknown ∨
      ¬ op.localFileSize < 1 <<< 31 ∧
        env.capability .resume2GBbug = .unknown ∧
        (op.localFileSize < 1 <<< 32 ∨
          env.capability .resume4GBbug = .no)) →
    op.remoteFileSize.slt 0 = false)

include hdownload hknown

theorem startsAtOffset_testResumeCapability :
    (op.testResumeCapability env).StartsAtOffset := by
  unfold testResumeCapability
  simp only [hdownload, Bool.not_true]
  rw [if_neg Bool.false_ne_true]
  split_ifs with hfirst
  · apply startsAtOffset_testResumeLimit
    intro hlarge hbug hlarger
    exact hknown hlarger (Or.inl ⟨hlarge, hbug⟩)
  · rw [not_or, not_not] at hfirst
    apply startsAtOffset_testResumeLimit
    intro hlarge hbug hlarger
    have hon := testResumeLimit_goesOn hfirst.1 hfirst.2 hlarger
    exact hknown hlarger (Or.inr ⟨hlarge, hbug, hon⟩)

theorem startsAtOffset_resumeTest (hstate : op.opState = .resumetest)
    (hoffset : 0 ≤ op.resumeOffset.toInt) :
    TransferOutcome.StartsAtOffset
      (if (op.testResumeCapability env).result ≠ Reply.continued ∨
          (op.testResumeCapability env).op.opState ≠ .resumetest then
        op.testResumeCapability env
      else (op.testResumeCapability env).op.sendDownload env) := by
  split_ifs with htest
  · exact startsAtOffset_testResumeCapability hdownload hknown
  · rw [not_or, not_not, not_not] at htest
    rcases testResumeCapability_cases hdownload hstate with
      ⟨hcase, _⟩ | hcase | hcase | hcase
    · rw [hcase] at htest
      exact absurd htest.1 (by simp [Reply.ok, Reply.continued])
    · rw [hcase] at htest
      exact absurd htest.2 (by simp [startResumeTest, startTransfer])
    · rw [hcase] at htest
      exact absurd htest.1
        (by simp [Reply.criticalerror, Reply.error, Reply.continued])
    · rw [hcase]
      exact startsAtOffset_sendDownload hoffset

end ResumeTest

theorem localOffset_toInt (file : LocalFile) :
    0 ≤ (if decide (file.size64 ≠ nosize) = true then file.size64
      else 0 : Size).toInt := by
  by_cases hsize : file.size64 ≠ nosize
  · rw [if_pos (decide_eq_true hsize)]
    exact size64_toInt file hsize
  · rw [if_neg (by simpa using hsize)]
    exact Int.le_refl 0

theorem KnowsOffset.sendTransfer (hknows : op.KnowsOffset env) :
    (op.sendTransfer env).StartsAtOffset := by
  unfold FileTransfer.sendTransfer
  by_cases hdownload : op.download = true
  · simp only [if_pos hdownload]
    by_cases hresume : op.resume = true
    · simp only [if_pos hresume]
      by_cases htest : op.opState = .resumetest
      · simp only [if_pos htest]
        apply startsAtOffset_resumeTest
        · exact hdownload
        · intro hlarger hbug
          exact hknows.test ⟨hdownload, hresume, htest, hlarger, hbug⟩
        · exact htest
        · exact localOffset_toInt env.localFile
      · simp only [if_neg htest]
        exact startsAtOffset_sendDownload (localOffset_toInt env.localFile)
    · simp only [if_neg hresume]
      exact startsAtOffset_sendDownload (Int.le_refl 0)
  · simp only [if_neg hdownload]
    have hupload : op.download = false := by simpa using hdownload
    by_cases hresume :
        op.resume = true ∧ BitVec.slt 0 op.remoteFileSize = true
    · simp only [if_pos hresume]
      have hstream := hknows.upload hupload hresume.1 hresume.2
      have hpositive : 0 ≤ op.remoteFileSize.toInt := by
        have hlt : (0 : Size).toInt < op.remoteFileSize.toInt := by
          simpa [BitVec.slt] using hresume.2
        exact Int.le_of_lt hlt
      split_ifs
      · exact startsAtOffset_setRemoteTime
      · apply startsAtOffset_sendUpload hpositive
        unfold uploadVerb
        split_ifs <;> rfl
    · simp only [if_neg hresume]
      have hzero : 0 ≤ (0 : Size).toInt := Int.le_refl 0
      apply startsAtOffset_sendUpload
      · exact hzero
      · simp [uploadVerb]

end FileTransfer

/-! ## What the client remembers -/

namespace FtpConnection

variable {connection following : FtpConnection}
  {run next : RawTransferRun DataCommand}

/-- The server has an offset only while the flag is set. -/
def RestartAgrees (parameters : TransferParameters) (server : FtpServer) :
    Prop :=
  server.offset ≠ 0 → parameters.sentRestartOffset = true

/-- `settled` is about a raw transfer that is about to send its command,
`sent` about one that waits for the reply to `REST`. -/
structure RestartKnown (connection : FtpConnection) : Prop where
  agrees : RestartAgrees connection.parameters connection.server
  starts : ∀ run, connection.transfer = some run →
    0 ≤ run.op.resumeOffset ∧ run.op.cmd ≠ .file .appe
  settled : ∀ run, connection.transfer = some run →
    run.op.opState = .transfer → run.awaiting = [] →
      connection.server.offset = run.op.resumeOffset
  sent : ∀ run, connection.transfer = some run →
    ∀ offset code, (.rest offset, code) ∈ connection.awaited →
      run.op.resumeOffset = offset ∧
        (code = 2 ∨ code = 3 → connection.server.offset = offset) ∧
        (offset = 0 → connection.server.offset = 0)

theorem restartKnown_none (hnone : connection.transfer = none)
    (hagrees : RestartAgrees connection.parameters connection.server) :
    connection.RestartKnown where
  agrees := hagrees
  starts := by
    intro run hsome
    rw [hnone] at hsome
    cases hsome
  settled := by
    intro run hsome
    rw [hnone] at hsome
    cases hsome
  sent := by
    intro run hsome
    rw [hnone] at hsome
    cases hsome

theorem execute_offset (server : FtpServer) {command : ServerCommand}
    (hrest : ∀ offset, command ≠ .rest offset) (answer : ServerAnswer) :
    (server.execute command answer).offset = server.offset ∨
      (server.execute command answer).offset = 0 := by
  cases command with
  | rest offset => exact absurd rfl (hrest offset)
  | type binary =>
      unfold FtpServer.execute
      dsimp only
      split_ifs <;> exact Or.inl rfl
  | data | other =>
      unfold FtpServer.execute
      dsimp only
      split_ifs
      · exact Or.inr rfl
      · exact Or.inl rfl

theorem execute_rest (server : FtpServer) (offset : ℤ)
    {answer : ServerAnswer} (haccepts : answer.accepts = true) :
    (server.execute (.rest offset) answer).offset = offset := by
  simp [FtpServer.execute, haccepts]

theorem restartAgrees_execute {parameters : TransferParameters}
    {server : FtpServer} (hagrees : RestartAgrees parameters server)
    {command : ServerCommand} (hrest : ∀ offset, command ≠ .rest offset)
    (answer : ServerAnswer) :
    RestartAgrees parameters (server.execute command answer) := by
  intro hoffset
  rcases execute_offset server hrest answer with hsame | hzero
  · rw [hsame] at hoffset
    exact hagrees hoffset
  · exact absurd hzero hoffset

theorem restartAgrees_rest {parameters : TransferParameters}
    {server : FtpServer} {offset : ℤ} (hstarts : 0 ≤ offset)
    {answer : ServerAnswer}
    (haccepts : offset = 0 → answer.accepts = true) :
    RestartAgrees (parameters.sending (.rest offset :
      RawTransferCommand DataCommand))
        (server.execute (.rest offset) answer) := by
  unfold TransferParameters.sending
  by_cases hpositive : offset > 0
  · simp only [if_pos hpositive]
    intro _
    rfl
  · have hzero : offset = 0 := by omega
    intro hoffset
    rw [execute_rest server offset (haccepts hzero)] at hoffset
    exact absurd hzero hoffset

theorem restartAgrees_sending {parameters : TransferParameters}
    {server : FtpServer} (hagrees : RestartAgrees parameters server)
    (command : RawTransferCommand DataCommand) :
    RestartAgrees (parameters.sending command) server := by
  intro hoffset
  have hflag := hagrees hoffset
  cases command with
  | rest offset =>
      unfold TransferParameters.sending
      dsimp only
      split_ifs
      · rfl
      · exact hflag
  | type | pasv | epsv | port | eprt | transfer => exact hflag

theorem deliver_restartAgrees {parameters : TransferParameters}
    (hagrees : RestartAgrees parameters connection.server)
    {command : RawTransferCommand DataCommand} {answer : ServerAnswer}
    (hrest : ∀ offset, command = .rest offset →
      0 ≤ offset ∧ (offset = 0 → answer.accepts = true)) :
    RestartAgrees (parameters.sending command)
      (connection.deliver (some command) answer).server := by
  cases command with
  | rest offset =>
      have hoffset := hrest offset rfl
      exact restartAgrees_rest hoffset.1 hoffset.2
  | type | pasv | epsv | port | eprt | transfer =>
      exact restartAgrees_execute
        (restartAgrees_sending hagrees _) (by simp [RawTransferCommand.meaning])
        answer

theorem RestartKnown.writes
    (hknown : connection.RestartKnown) (hordered : connection.Ordered)
    (hsome : connection.transfer = some run)
    {written : RawTransferCommand DataCommand} {answer : ServerAnswer}
    (haccepts : run.op.opState = .rest → run.op.resumeOffset = 0 →
      answer.accepts = true)
    (hwrites : run.op.Writes written) (hidle : run.awaiting = [])
    (hgoes : next.finished = none)
    (hjob : next.op.job = run.op.job)
    (hparameters : next.parameters = run.parameters.sending written)
    (hawaiting : next.awaiting = [written]) :
    ((connection.deliver (some written) answer).setTransfer
      next).RestartKnown := by
  have hcarries := hordered.carries run hsome
  have hawaited := hordered.writes_awaited hsome hidle hgoes written answer
  have htransfer :=
    @setTransfer_transfer (connection.deliver (some written) answer) next
      hgoes
  have hstarts := hknown.starts run hsome
  have hoffset := RawTransfer.job_resumeOffset hjob
  have hrest : ∀ offset, written = .rest offset →
      0 ≤ offset ∧ (offset = 0 → answer.accepts = true) := by
    rintro offset rfl
    rw [hwrites.2]
    exact ⟨hstarts.1, haccepts hwrites.1⟩
  rw [hcarries.parameters] at hparameters
  constructor
  · rw [setTransfer_parameters, setTransfer_server, hparameters]
    exact deliver_restartAgrees hknown.agrees hrest
  · intro other hother
    rw [htransfer] at hother
    cases hother
    rw [hoffset, RawTransfer.job_cmd hjob]
    exact hstarts
  · intro other hother _ hnothing
    rw [htransfer] at hother
    cases hother
    rw [hawaiting] at hnothing
    cases hnothing
  · intro other hother offset code hmem
    rw [htransfer] at hother
    cases hother
    rw [hawaited] at hmem
    obtain ⟨hmeaning, rfl⟩ := Prod.mk.inj (List.mem_singleton.mp hmem)
    cases written with
    | rest sent =>
        cases hmeaning
        rw [setTransfer_server, hoffset]
        refine ⟨hwrites.2.symm, ?_, ?_⟩
        · intro hcode
          apply execute_rest
          unfold ServerAnswer.accepts
          rcases hcode with hcode | hcode <;> simp [hcode]
        · intro hzero
          have haccepted := (hrest offset rfl).2 hzero
          have hset := execute_rest connection.server offset haccepted
          rw [hzero] at hset
          rw [hzero]
          exact hset
    | type | pasv | epsv | port | eprt | transfer => cases hmeaning

theorem RestartKnown.ends
    (hknown : connection.RestartKnown) (hordered : connection.Ordered)
    (hsome : connection.transfer = some run)
    (hfinished : next.finished ≠ none)
    (hparameters : next.parameters = run.parameters ∨
      ∃ written, run.op.Writes written ∧
        next.parameters = run.parameters.sending written) :
    (connection.setTransfer next).RestartKnown := by
  have hcarries := hordered.carries run hsome
  apply restartKnown_none (setTransfer_ended hfinished)
  rw [setTransfer_parameters, setTransfer_server]
  rw [hcarries.parameters] at hparameters
  rcases hparameters with hsame | ⟨written, _, hsending⟩
  · rw [hsame]
    exact hknown.agrees
  · rw [hsending]
    exact restartAgrees_sending hknown.agrees written

theorem RestartKnown.begins
    (hknown : connection.RestartKnown) (hordered : connection.Ordered)
    (hsome : connection.transfer = some run)
    (hgoes : next.finished = none)
    (hbegins : run.op.Begins run.parameters next.op.opState)
    (hjob : next.op.job = run.op.job)
    (hparameters : next.parameters = run.parameters)
    (hidle : run.awaiting = []) :
    (connection.setTransfer next).RestartKnown := by
  have hcarries := hordered.carries run hsome
  have hempty := hcarries.idle_awaited hidle
  rw [hcarries.parameters] at hparameters
  constructor
  · rw [setTransfer_parameters, setTransfer_server, hparameters]
    exact hknown.agrees
  · intro other hother
    rw [setTransfer_transfer hgoes] at hother
    cases hother
    rw [RawTransfer.job_resumeOffset hjob, RawTransfer.job_cmd hjob]
    exact hknown.starts run hsome
  · intro other hother htransfer _
    rw [setTransfer_transfer hgoes] at hother
    cases hother
    rw [htransfer] at hbegins
    exact hbegins.elim
  · intro other _ offset code hmem
    rw [setTransfer_awaited hgoes, hempty] at hmem
    cases hmem

theorem RestartKnown.remains
    (hknown : connection.RestartKnown) (hordered : connection.Ordered)
    (hsome : connection.transfer = some run)
    (hgoes : next.finished = none)
    (hstate : next.op.opState = run.op.opState ∨
      run.op.opState = .transfer ∧
        next.op.opState = .waittransferpre ∨
      run.op.opState = .waitfinish ∧
        next.op.opState = .waittransfer)
    (hcmd : next.op.cmd = run.op.cmd)
    (hoffset : next.op.resumeOffset = run.op.resumeOffset)
    (hparameters : next.parameters = run.parameters)
    (hawaiting : next.awaiting = run.awaiting) :
    (connection.setTransfer next).RestartKnown := by
  have hcarries := hordered.carries run hsome
  rw [hcarries.parameters] at hparameters
  constructor
  · rw [setTransfer_parameters, setTransfer_server, hparameters]
    exact hknown.agrees
  · intro other hother
    rw [setTransfer_transfer hgoes] at hother
    cases hother
    rw [hcmd, hoffset]
    exact hknown.starts run hsome
  · intro other hother htransfer hidle
    rw [setTransfer_transfer hgoes] at hother
    cases hother
    rw [setTransfer_server, hoffset]
    rw [hawaiting] at hidle
    rcases hstate with hsame | hmoved | hmoved
    · rw [hsame] at htransfer
      exact hknown.settled run hsome htransfer hidle
    · rw [hmoved.2] at htransfer
      cases htransfer
    · rw [hmoved.2] at htransfer
      cases htransfer
  · intro other hother offset code hmem
    rw [setTransfer_transfer hgoes] at hother
    cases hother
    rw [setTransfer_awaited hgoes] at hmem
    rw [hoffset, setTransfer_server]
    exact hknown.sent run hsome offset code hmem

/-! ## Replies -/

theorem RestartKnown.restReply
    (hknown : connection.RestartKnown) (hordered : connection.Ordered)
    (hsome : connection.transfer = some run)
    (hstate : run.op.opState = .rest) {code : ℕ} {kind : ServerCommand}
    (hawaited : connection.awaited = [(kind, code)]) :
    kind ≠ .data ∧
      (code = 2 ∨ code = 3 →
        connection.server.offset = run.op.resumeOffset) ∧
      (run.op.resumeOffset = 0 → connection.server.offset = 0) := by
  obtain ⟨command, hmeaning, hawaits⟩ := hordered.awaits hsome hawaited
  rw [hstate] at hawaits
  cases command with
  | rest offset =>
      have hmem : (.rest offset, code) ∈ connection.awaited := by
        rw [hawaited, ← hmeaning]
        exact List.mem_singleton_self _
      obtain ⟨hoffset, haccepted, hzero⟩ :=
        hknown.sent run hsome offset code hmem
      rw [hoffset, ← hmeaning]
      exact ⟨nofun, haccepted, hzero⟩
  | type | pasv | epsv | port | eprt | transfer => exact hawaits.elim

theorem RestartKnown.parametersAfter
    (hknown : connection.RestartKnown) (hordered : connection.Ordered)
    (hsome : connection.transfer = some run) {code : ℕ}
    (hawaited : ∃ kind code, connection.awaited = [(kind, code)]) :
    RestartAgrees (run.op.parametersAfter connection.parameters code)
      connection.server := by
  obtain ⟨kind, final, hawaited⟩ := hawaited
  unfold RawTransfer.parametersAfter
  cases hstate : run.op.opState with
  | rest =>
      have hreply := hknown.restReply hordered hsome hstate hawaited
      have hstarts := hknown.starts run hsome
      by_cases hoffset : run.op.resumeOffset ≤ 0
      · simp only [if_pos hoffset]
        intro hserver
        exact absurd (hreply.2.2 (by omega)) hserver
      · simp only [if_neg hoffset]
        exact hknown.agrees
  | type =>
      by_cases hpositive : code = 2 ∨ code = 3
      · simp only [if_pos hpositive]
        exact hknown.agrees
      · simp only [if_neg hpositive]
        exact hknown.agrees
  | init | portPasv | transfer | waitfinish | waittransferpre
  | waittransfer | waitsocket => exact hknown.agrees

theorem RestartKnown.restartSettled
    (hknown : connection.RestartKnown) (hordered : connection.Ordered)
    (hsome : connection.transfer = some run) {code : ℕ}
    (hsettled : run.op.RestartSettled connection.parameters code)
    (hawaited : run.op.opState = .rest →
      ∃ kind, connection.awaited = [(kind, code)]) :
    connection.server.offset = run.op.resumeOffset := by
  have hstarts := hknown.starts run hsome
  rcases hsettled with ⟨_, hnone, hflag⟩ | ⟨hstate, hpositive⟩
  · have hzero : connection.server.offset = 0 := by
      by_contra hoffset
      have hset := hknown.agrees hoffset
      rw [hflag] at hset
      cases hset
    omega
  · obtain ⟨kind, hawaited⟩ := hawaited hstate
    have hreply := hknown.restReply hordered hsome hstate hawaited
    by_cases hoffset : 0 < run.op.resumeOffset
    · exact hreply.2.1 (hpositive hoffset)
    · have hzero : run.op.resumeOffset = 0 := by omega
      rw [hzero]
      exact hreply.2.2 hzero

theorem RestartKnown.takes
    (hknown : connection.RestartKnown) (hordered : connection.Ordered)
    (hsome : connection.transfer = some run) {code : ℕ}
    {base : FtpConnection} (hserver : base.server = connection.server)
    (htakes : RawTransferRun.Takes run.op run.parameters code next)
    (hawaited :
      (∃ kind, connection.awaited = [(kind, code)]) ∧ base.awaited = [] ∨
        code = 1 ∧ base.awaited = connection.awaited ∧
          ∃ final, connection.awaited = [(.data, final)]) :
    (base.setTransfer next).RestartKnown := by
  have hcarries := hordered.carries run hsome
  have hone : ∃ kind final, connection.awaited = [(kind, final)] := by
    rcases hawaited with ⟨⟨kind, hkind⟩, _⟩ | ⟨_, _, final, hdata⟩
    · exact ⟨kind, code, hkind⟩
    · exact ⟨.data, final, hdata⟩
  have hrest : run.op.opState = .rest →
      ∃ kind, connection.awaited = [(kind, code)] := by
    intro hstate
    rcases hawaited with ⟨hkind, _⟩ | ⟨_, _, final, hdata⟩
    · exact hkind
    · exact absurd rfl (hknown.restReply hordered hsome hstate hdata).1
  have hagrees : RestartAgrees
      (run.op.parametersAfter connection.parameters code)
        connection.server :=
    hknown.parametersAfter hordered hsome hone
  rw [hcarries.parameters] at htakes
  cases htakes with
  | ends hfinished hparameters =>
      apply restartKnown_none (setTransfer_ended hfinished)
      rw [setTransfer_parameters, setTransfer_server, hparameters, hserver]
      exact hagrees
  | goesOn hgoes hparameters _ hjob hsettled =>
      have hoffset := RawTransfer.job_resumeOffset hjob
      constructor
      · rw [setTransfer_parameters, setTransfer_server, hparameters, hserver]
        exact hagrees
      · intro other hother
        rw [setTransfer_transfer hgoes] at hother
        cases hother
        rw [hoffset, RawTransfer.job_cmd hjob]
        exact hknown.starts run hsome
      · intro other hother htransfer _
        rw [setTransfer_transfer hgoes] at hother
        cases hother
        rw [setTransfer_server, hserver, hoffset]
        exact hknown.restartSettled hordered hsome (hsettled htransfer) hrest
      · intro other _ offset final hmem
        rw [setTransfer_awaited hgoes] at hmem
        rcases hawaited with ⟨_, hempty⟩ | ⟨_, hsame, _, hdata⟩
        · rw [hempty] at hmem
          cases hmem
        · rw [hsame, hdata] at hmem
          cases List.mem_singleton.mp hmem

/-! ## Runs -/

theorem RestartKnown.dataEvents
    (hknown : connection.RestartKnown)
    (hsome : connection.transfer = some run)
    {command : Option (RawTransferCommand DataCommand)}
    (hwrites : ∀ written, command = some written →
      run.op.Writes written ∧ run.awaiting = []) :
    SentAtOffset (connection.dataEvents run.op command) := by
  intro verb binary resumeOffset server hmem
  cases command with
  | none => cases hmem
  | some written =>
      cases written with
      | transfer sent =>
          cases List.mem_singleton.mp hmem
          obtain ⟨⟨hstate, hcmd⟩, hidle⟩ := hwrites _ rfl
          have hoffset := hknown.settled run hsome hstate hidle
          have hverb := (hknown.starts run hsome).2
          constructor
          · intro _
            exact hoffset
          · rintro rfl
            exact absurd hcmd.symm hverb
      | type | pasv | epsv | port | eprt | rest => cases hmem

theorem RestartKnown.advances
    (hknown : connection.RestartKnown) (hordered : connection.Ordered)
    (hsome : connection.transfer = some run)
    {command : Option (RawTransferCommand DataCommand)}
    (hadvances : RawTransferRun.Advances run next command)
    {answer : ServerAnswer}
    (haccepts : run.op.opState = .rest → run.op.resumeOffset = 0 →
      answer.accepts = true) :
    ((connection.deliver command answer).setTransfer next).RestartKnown ∧
      SentAtOffset (connection.dataEvents run.op command) := by
  have hevents :=
    @RestartKnown.dataEvents connection run hknown hsome command
  cases hadvances with
  | writes written hcommand hwrites hidle hgoes _ hjob hparameters
      hawaiting =>
      subst hcommand
      constructor
      · exact hknown.writes hordered hsome haccepts hwrites hidle hgoes hjob
          hparameters hawaiting
      · apply hevents
        intro other hother
        cases hother
        exact ⟨hwrites, hidle⟩
  | ends hcommand hfinished hparameters =>
      subst hcommand
      exact ⟨hknown.ends hordered hsome hfinished hparameters,
        hevents nofun⟩
  | begins hcommand hgoes hbegins hjob hparameters hidle _ =>
      subst hcommand
      exact ⟨hknown.begins hordered hsome hgoes hbegins hjob hparameters
        hidle, hevents nofun⟩
  | remains hcommand hgoes hstate hcmd _ hoffset hparameters hawaiting =>
      subst hcommand
      exact ⟨hknown.remains hordered hsome hgoes hstate hcmd hoffset
        hparameters hawaiting, hevents nofun⟩

/-- One step keeps the mirrored offset, and a transfer starts at it. -/
theorem RestartKnown.changes
    (hknown : connection.RestartKnown) (hordered : connection.Ordered)
    {input : ConnectionInput} {events : List ConnectionEvent}
    (hzero : connection.AcceptsRestZero input)
    (hrestart : connection.KnowsRestart input)
    (hchanges : Changes connection input following events) :
    following.RestartKnown ∧ SentAtOffset events := by
  have hsilent : SentAtOffset [] := nofun
  cases hchanges with
  | idles hparameters hserver hnone hevents =>
      subst hevents
      refine ⟨restartKnown_none hnone ?_, hsilent⟩
      rw [hparameters, hserver]
      exact hknown.agrees
  | connects binary _ hserver hnone hevents =>
      subst hevents
      refine ⟨restartKnown_none hnone ?_, hsilent⟩
      rw [hserver]
      exact fun hoffset => absurd rfl hoffset
  | logonSends command answer hinput _ hparameters hserver hnone hevents =>
      subst hevents hinput
      refine ⟨restartKnown_none hnone ?_, hsilent⟩
      rw [hparameters, hserver]
      exact hrestart.user command answer (.logon command answer)
  | operationSends answer hparameters hserver hnone hevents =>
      subst hevents
      refine ⟨restartKnown_none hnone ?_, hsilent⟩
      rw [hparameters, hserver]
      exact restartAgrees_execute hknown.agrees (by simp) answer
  | rawCommandSends command answer hinput hhead hparameters hserver hnone
      hevents =>
      subst hevents hinput
      refine ⟨restartKnown_none hnone ?_, hsilent⟩
      rw [hparameters, hserver]
      exact hrestart.user command answer (.rawCommand command answer hhead)
  | rawCommandFails hparameters hserver hnone hevents =>
      subst hevents
      refine ⟨restartKnown_none hnone ?_, hsilent⟩
      rw [hparameters, hserver]
      exact hknown.agrees
  | keepsAlive answer hparameters hserver hnone hevents =>
      subst hevents
      refine ⟨restartKnown_none hnone ?_, hsilent⟩
      rw [hparameters, hserver]
      exact restartAgrees_execute hknown.agrees (by simp) answer
  | creates op hsource hinit hparameters hserver hstarted hempty hevents =>
      subst hevents
      have hstarts : 0 ≤ op.resumeOffset ∧ op.cmd ≠ .file .appe := by
        rcases hsource with ⟨file, env, hinput, hfile⟩ | ⟨mlsd, hlist⟩
        · exact (hrestart.file file env hinput).sendTransfer op hfile
        · rw [hlist]
          cases mlsd <;> exact ⟨Int.le_refl 0, nofun⟩
      constructor
      · constructor
        · rw [hparameters, hserver]
          exact hknown.agrees
        · intro run hsome
          rw [hstarted] at hsome
          cases hsome
          exact hstarts
        · intro run hsome htransfer _
          rw [hstarted] at hsome
          cases hsome
          change op.opState = .transfer at htransfer
          rw [hinit] at htransfer
          cases htransfer
        · intro run _ offset code hmem
          rw [hempty] at hmem
          cases hmem
      · exact hsilent
  | skips hparameters hserver htransfer hsame hevents =>
      subst hevents
      constructor
      · constructor
        · rw [hparameters, hserver]
          exact hknown.agrees
        · rw [htransfer]
          exact hknown.starts
        · rw [htransfer, hserver]
          exact hknown.settled
        · rw [htransfer, hsame, hserver]
          exact hknown.sent
      · exact hsilent
  | advances run next command step answer hinput hsome hadvances hfollowing
      hevents =>
      subst hfollowing hevents
      exact hknown.advances hordered hsome hadvances
        (hzero.transfer run step answer hinput hsome)
  | takes run next code base hsome htakes hfollowing hserver hawaited
      hevents =>
      subst hfollowing hevents
      exact ⟨hknown.takes hordered hsome hserver htakes hawaited, hsilent⟩

end FtpConnection

/-- `RETR` and `STOR` are sent to a server at the offset of the operation and
`APPE` to one without an offset, provided that no command of the user leaves
an offset that the client does not know of, no upload is resumed by `APPE` and
no resume test lacks the size of the remote file. -/
theorem restart_offset_agrees
    {inputs : List ConnectionInput} {events : List ConnectionEvent}
    {connection : FtpConnection}
    (hreach : ftpConnection.ReachesWithin
      (fun connection input =>
        connection.AcceptsRestZero input ∧ connection.KnowsRestart input)
      inputs events connection) :
    SentAtOffset events := by
  have hinvariant :
      connection.Ordered ∧ connection.RestartKnown ∧
        SentAtOffset events := by
    apply hreach.invariant fun events connection =>
      connection.Ordered ∧ connection.RestartKnown ∧ SentAtOffset events
    · rintro _ rfl
      have hknown :=
        @FtpConnection.restartKnown_none FtpConnection.initial rfl
          fun hoffset => absurd rfl hoffset
      exact ⟨FtpConnection.initial_ordered, hknown, nofun⟩
    · intro events connection input following answer hinv hallowed hstep
      obtain ⟨hordered, hknown, hsent⟩ := hinv
      obtain ⟨hordered', hchanges⟩ := hordered.step hstep
      obtain ⟨hknown', hsent'⟩ :=
        hknown.changes hordered hallowed.1 hallowed.2 hchanges
      refine ⟨hordered', hknown', ?_⟩
      intro verb binary resumeOffset server hmem
      rcases List.mem_append.mp hmem with hold | hnew
      · exact hsent verb binary resumeOffset server hold
      · exact hsent' verb binary resumeOffset server hnew
  exact hinvariant.2.2

/-- No command of the user, downloads only, and a server that accepts
everything. -/
def ConnectionInput.plain : ConnectionInput → Bool
  | .operationSends _ _ | .sendRawCommand _ _ => false
  | .transferFile op _ => op.download && op.opState = .transfer
  | .transfer _ answer => answer.accepts
  | .start _ | .onConnect _ _ | .onTlsConnect | .push | .list _ | .reply _
  | .preliminary _ | .endOperation | .onTimer _ _ | .doClose => true

theorem ConnectionInput.plain_allowed {input : ConnectionInput}
    (hplain : input.plain = true) (connection : FtpConnection) :
    connection.AcceptsRestZero input ∧ connection.KnowsRestart input := by
  have huser : ∀ command answer,
      ¬ connection.UserSends input command answer := by
    intro command answer hsends
    cases hsends <;> cases hplain
  constructor
  · constructor
    · intro answer hsends
      exact absurd hsends (huser _ answer)
    · rintro run step answer rfl _ _ _
      exact hplain
  · constructor
    · intro command answer hsends
      exact absurd hsends (huser command answer)
    · rintro op env rfl
      simp only [plain, Bool.and_eq_true, decide_eq_true_eq] at hplain
      constructor
      · intro hupload
        rw [hplain.1] at hupload
        cases hupload
      · rintro ⟨_, _, htest, _⟩
        rw [hplain.2] at htest
        cases htest

def FileTransfer.freshDownload : FileTransfer :=
  { FileTransfer.upload with
    opState := .transfer
    download := true }

/-- A download on a new connection goes on where five bytes are there. -/
theorem restart_offset_agrees_retr :
    ∃ inputs events connection,
      ftpConnection.ReachesWithin
        (fun connection input =>
          connection.AcceptsRestZero input ∧ connection.KnowsRestart input)
        inputs events connection ∧
      events = [.dataCommand (.file .retr) true 5 ⟨true, 5⟩] ∧
      SentAtOffset events := by
  let env := RawTransferEnv.fallback
  let accepted : ServerAnswer := ⟨2, false⟩
  let inputs : List ConnectionInput :=
    [.start .other, .onConnect true 2, .reply env, .endOperation,
      .transferFile { FileTransfer.freshDownload with resume := true }
        (.fiveBytes 5),
      .transfer (.sendNextCommand env) accepted,
      .transfer (.sendNextCommand env) accepted, .reply env,
      .transfer (.sendNextCommand env) accepted, .reply env,
      .transfer (.sendNextCommand env) accepted, .reply env,
      .transfer (.sendNextCommand env) accepted]
  have hexec :
      (ftpConnection.exec (fun _ input => input.plain = true)
        FtpConnection.initial inputs).map Prod.snd =
          some [.dataCommand (.file .retr) true 5 ⟨true, 5⟩] := by
    decide +kernel
  obtain ⟨⟨connection, events⟩, hrun, hevents⟩ :=
    Option.map_eq_some_iff.mp hexec
  have hstart :
      ftpConnection.ReachesWithin (fun _ input => input.plain = true) [] []
        FtpConnection.initial := .start rfl
  have hreach := (hstart.exec hrun).mono fun connection input hplain =>
    ConnectionInput.plain_allowed hplain connection
  exact ⟨inputs, events, connection, hreach, hevents,
    restart_offset_agrees hreach⟩

/-- The server accepts whatever it is sent. -/
def ConnectionInput.accepted : ConnectionInput → Bool
  | .operationSends _ answer | .sendRawCommand _ answer
  | .transfer _ answer => answer.accepts
  | .start _ | .onConnect _ _ | .onTlsConnect | .push | .transferFile _ _
  | .list _ | .reply _ | .preliminary _ | .endOperation | .onTimer _ _
  | .doClose => true

theorem ConnectionInput.accepted_allowed {input : ConnectionInput}
    (haccepted : input.accepted = true) (connection : FtpConnection) :
    connection.AcceptsRestZero input := by
  constructor
  · intro answer hsends
    cases hsends with
    | logon => exact haccepted
    | rawCommand => exact haccepted
  · rintro run step answer rfl _ _ _
    exact haccepted

/-- The raw command `REST 100` and then a download from the start. -/
theorem restart_offset_unknown :
    ∃ inputs events connection,
      ftpConnection.ReachesWithin FtpConnection.AcceptsRestZero
        inputs events connection ∧
      ¬ SentAtOffset events := by
  let env := RawTransferEnv.fallback
  let accepted : ServerAnswer := ⟨3, false⟩
  let inputs : List ConnectionInput :=
    [.start .other, .onConnect true 2, .reply env, .endOperation,
      .endOperation, .start (.rawCommand (.rest 100) false),
      .sendRawCommand true accepted, .reply env, .start .other,
      .transferFile .freshDownload (.fiveBytes 5),
      .transfer (.sendNextCommand env) accepted,
      .transfer (.sendNextCommand env) accepted, .reply env,
      .transfer (.sendNextCommand env) accepted, .reply env,
      .transfer (.sendNextCommand env) accepted]
  have hexec :
      (ftpConnection.exec (fun _ input => input.accepted = true)
        FtpConnection.initial inputs).map Prod.snd =
          some [.dataCommand (.file .retr) true 0 ⟨true, 100⟩] := by
    decide +kernel
  obtain ⟨⟨connection, events⟩, hrun, hevents⟩ :=
    Option.map_eq_some_iff.mp hexec
  have hstart :
      ftpConnection.ReachesWithin (fun _ input => input.accepted = true)
        [] [] FtpConnection.initial := .start rfl
  have hreach := (hstart.exec hrun).mono fun connection input haccepted =>
    ConnectionInput.accepted_allowed haccepted connection
  have hwrong : ¬ SentAtOffset events := by
    intro hagrees
    change events = _ at hevents
    rw [hevents] at hagrees
    have hoffset := (hagrees .retr true 0 ⟨true, 100⟩
      (List.mem_singleton_self _)).1 (Or.inl rfl)
    cases hoffset
  exact ⟨inputs, events, connection, hreach, hwrong⟩

end TabFtp
