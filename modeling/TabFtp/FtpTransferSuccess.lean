import TabFtp.FtpFileTransfer

/-!
# A transfer that succeeds has happened

An operation ends with success after the user or an overwrite rule has skipped
the file, after the raw transfer of the payload has succeeded, or because the
files have the same size already.  The last reason is a comparison of sizes
with values for no file and for an unknown size among them.
-/

namespace TabFtp

open LabelledRuns

namespace FileTransfer

def SizesKnownEqual (op : FileTransfer) : Prop :=
  op.localFileSize ≠ nosize ∧ 0 ≤ op.remoteFileSize.toInt ∧
    op.remoteFileSize.toInt = op.localFileSize.toNat

def Happened (outputs : List TransferEvent) (op : FileTransfer) : Prop :=
  .skipped ∈ outputs ∨ .payloadEnded Reply.ok ∈ outputs ∨
    op.resume = true ∧ op.SizesKnownEqual

/-- Where a resumed transfer compares sizes, they say something about the
files.  For a download one of them is known, unless the server is known to
resume files of every size; for an upload the remote file is not larger. -/
def ResumeSizesFit (op : FileTransfer) : Input → Prop
  | .send env =>
      op.resume = true →
        if op.download then
          op.opState = .resumetest → env.localFile.size = none →
            op.remoteFileSize = unknownSize →
            env.capability .resume4GBbug = .no ∧
              env.capability .resume2GBbug = .no
        else
          (op.opState = .resumetest ∨ op.opState = .transfer) →
            op.binary = true → op.localFileSize ≠ nosize →
            op.localFileSize.slt op.remoteFileSize = false
  | _ => True

/-- What every step keeps. -/
structure Sound (outputs : List TransferEvent) (op : FileTransfer) :
    Prop where
  finished : op.finished = some Reply.ok → Happened outputs op
  mfmt : op.opState = .mfmt →
    Happened outputs op ∧ op.subOperation = none ∧ op.request = none
  exclusive : op.subOperation ≠ none → op.request = none
  payload : op.opState = .waittransfer → ∀ sub,
    op.subOperation = some sub → sub = .rawTransfer

/-- What a handler has to show, after which the operation may be over. -/
structure Justified (outputs : List TransferEvent)
    (outcome : TransferOutcome) : Prop where
  sound : Sound (outputs ++ outcome.events) outcome.op
  unfinished : outcome.op.finished = none
  success : outcome.result = Reply.ok →
    Happened (outputs ++ outcome.events) outcome.op

/-- A handler that neither succeeds nor goes on to `MFMT`. -/
structure Plain (outcome : TransferOutcome) : Prop where
  result : outcome.result ≠ Reply.ok
  state : outcome.op.opState ≠ .mfmt
  exclusive : outcome.op.subOperation ≠ none → outcome.op.request = none
  payload : outcome.op.opState = .waittransfer → ∀ sub,
    outcome.op.subOperation = some sub → sub = .rawTransfer
  unfinished : outcome.op.finished = none

variable {op : FileTransfer} {outputs : List TransferEvent}
  {env : TransferEnv}

theorem Plain.justified
    {outcome : TransferOutcome} (hplain : Plain outcome)
    (outputs : List TransferEvent) : Justified outputs outcome where
  sound :=
    { finished := fun h => by
        rw [hplain.unfinished] at h
        cases h
      mfmt := fun h => absurd h hplain.state
      exclusive := hplain.exclusive
      payload := hplain.payload }
  unfinished := hplain.unfinished
  success h := absurd h hplain.result

theorem Happened.mono
    (hhappened : Happened outputs op) (more : List TransferEvent) :
    Happened (outputs ++ more) op := by
  rcases hhappened with hskipped | hpayload | hsizes
  · exact Or.inl (List.mem_append_left _ hskipped)
  · exact Or.inr (Or.inl (List.mem_append_left _ hpayload))
  · exact Or.inr (Or.inr hsizes)

/-! ## Ending the operation -/

theorem or_eq_ok {left right : Reply} (h : left ||| right = Reply.ok) :
    left = Reply.ok := by
  exact (Nat.or_eq_zero_iff.mp h).1

theorem endingCode_ok {errorCode : Reply}
    (hok : op.endingCode env errorCode = Reply.ok) : errorCode = Reply.ok := by
  unfold endingCode at hok
  split_ifs at hok
  · exact hok
  · exact or_eq_ok (or_eq_ok hok)
  · exact or_eq_ok hok
  · exact hok

theorem Justified.conclude
    {outcome : TransferOutcome} (hjustified : Justified outputs outcome)
    (env : TransferEnv) :
    Sound (outputs ++ (conclude env outcome).2) (conclude env outcome).1 := by
  have hsound := hjustified.sound
  unfold FileTransfer.conclude
  split_ifs
  · exact hsound
  · have hmono : ∀ op, Happened (outputs ++ outcome.events) op →
        Happened (outputs ++ (outcome.events ++
          [.ended (outcome.op.endingCode env outcome.result)])) op := by
      intro op hhappened
      rw [← List.append_assoc]
      exact hhappened.mono _
    exact
      { finished := by
          intro hfinished
          have hcode := Option.some.inj hfinished
          exact hmono _ (hjustified.success (endingCode_ok hcode))
        mfmt := by
          intro hstate
          have hmfmt := hsound.mfmt hstate
          exact ⟨hmono _ hmfmt.1, hmfmt.2⟩
        exclusive := hsound.exclusive
        payload := hsound.payload }

theorem Justified.stepped
    {outcome : TransferOutcome} {following : FileTransfer}
    {answer : List TransferEvent} (hjustified : Justified outputs outcome)
    (hstep : some (FileTransfer.conclude env outcome) =
      some (following, answer)) :
    Sound (outputs ++ answer) following := by
  have hpair := Option.some.inj hstep
  have hsound := hjustified.conclude env
  rw [hpair] at hsound
  exact hsound

/-! ## Handlers that do not succeed -/

theorem afterCheck_result_ne_ok (outcome : TransferOutcome) :
    (afterCheck outcome).result ≠ Reply.ok := by
  unfold afterCheck
  split_ifs with hok
  · simp [Reply.continued, Reply.ok]
  · exact hok

theorem afterCheck_op (outcome : TransferOutcome) :
    (afterCheck outcome).op = outcome.op := by
  unfold afterCheck
  split_ifs <;> rfl

theorem checkOverwriteFile_same (op : FileTransfer) (env : TransferEnv) :
    (op.checkOverwriteFile env).op.opState = op.opState ∧
      (op.checkOverwriteFile env).op.subOperation = op.subOperation ∧
      (op.checkOverwriteFile env).op.finished = op.finished := by
  unfold checkOverwriteFile
  simp only
  split_ifs <;> exact ⟨rfl, rfl, rfl⟩

theorem plain_afterCheck
    (hstate : op.opState ≠ .mfmt) (hsub : op.subOperation = none)
    (hfinished : op.finished = none) (env : TransferEnv) :
    Plain (afterCheck (op.checkOverwriteFile env)) := by
  have hsame := checkOverwriteFile_same op env
  have hnone : (op.checkOverwriteFile env).op.subOperation = none := by
    rw [hsame.2.1, hsub]
  constructor
  · exact afterCheck_result_ne_ok _
  · rw [afterCheck_op, hsame.1]
    exact hstate
  · rw [afterCheck_op]
    intro hpresent
    exact absurd hnone hpresent
  · rw [afterCheck_op]
    intro _ sub hpresent
    rw [hnone] at hpresent
    cases hpresent
  · rw [afterCheck_op, hsame.2.2]
    exact hfinished

theorem plain_of_none
    {outcome : TransferOutcome} (hresult : outcome.result ≠ Reply.ok)
    (hstate : outcome.op.opState ≠ .mfmt)
    (hsub : outcome.op.subOperation = none)
    (hfinished : outcome.op.finished = none) : Plain outcome where
  result := hresult
  state := hstate
  exclusive hpresent := absurd hsub hpresent
  payload _ sub hpresent := by
    rw [hsub] at hpresent
    cases hpresent
  unfinished := hfinished

theorem Plain.sendFileCommand
    (hstate : op.opState ≠ .mfmt) (hsub : op.subOperation = none)
    (hfinished : op.finished = none) (env : TransferEnv)
    (verb : TransferVerb) : Plain (op.sendFileCommand env verb) := by
  unfold FileTransfer.sendFileCommand
  split_ifs
  · exact plain_of_none (by simp [Reply.wouldblock, Reply.ok]) hstate hsub
      hfinished
  · exact plain_of_none (by simp [Reply.error, Reply.ok]) hstate hsub
      hfinished

theorem plain_startTransfer
    (hstate : op.opState ≠ .mfmt) (hrequest : op.request = none)
    (hfinished : op.finished = none) (verb : TransferVerb) :
    Plain (op.startTransfer verb) where
  result := by simp [startTransfer, Reply.continued, Reply.ok]
  state := hstate
  exclusive _ := hrequest
  payload _ sub hpresent := by
    simp only [startTransfer, Option.some.injEq] at hpresent
    exact hpresent.symm
  unfinished := hfinished

theorem plain_sendDownload
    (hstate : op.opState ≠ .mfmt) (hsub : op.subOperation = none)
    (hrequest : op.request = none) (hfinished : op.finished = none)
    (env : TransferEnv) : Plain (op.sendDownload env) := by
  unfold sendDownload
  split_ifs
  · exact plain_of_none (by simp [Reply.criticalerror, Reply.error, Reply.ok])
      hstate hsub hfinished
  · exact plain_of_none (by simp [Reply.error, Reply.ok]) hstate hsub
      hfinished
  · refine plain_startTransfer ?_ ?_ ?_ _
    · simp
    · exact hrequest
    · exact hfinished

theorem plain_sendUpload
    (hstate : op.opState ≠ .mfmt) (hsub : op.subOperation = none)
    (hrequest : op.request = none) (hfinished : op.finished = none)
    (env : TransferEnv) : Plain (op.sendUpload env) := by
  unfold sendUpload
  split_ifs
  · exact plain_of_none (by simp [Reply.criticalerror, Reply.error, Reply.ok])
      hstate hsub hfinished
  · refine plain_startTransfer ?_ ?_ ?_ _
    · simp
    · exact hrequest
    · exact hfinished

/-! ## Sizes -/

theorem sizes_of_bits
    {size : Fin (2 ^ 63)} (hsize : env.localFile.size = some size)
    (hlocal : op.localFileSize = env.localFile.size64)
    (hbits : op.remoteFileSize = op.localFileSize) : op.SizesKnownEqual := by
  have hlt := size.isLt
  have hnat : op.localFileSize.toNat = size := by
    rw [hlocal, LocalFile.size64, hsize, BitVec.toNat_ofNat]
    exact Nat.mod_eq_of_lt (by omega)
  have hint : op.localFileSize.toInt = size := by
    rw [BitVec.toInt_eq_toNat_of_lt (by omega), hnat]
  refine ⟨?_, ?_, ?_⟩
  · intro hnosize
    rw [hnosize, nosize, BitVec.toNat_allOnes] at hnat
    omega
  · rw [hbits, hint]
    omega
  · rw [hbits, hint, hnat]

theorem sizes_of_order
    (hnosize : op.localFileSize ≠ nosize)
    (hpositive : BitVec.slt 0 op.remoteFileSize = true)
    (hle : op.localFileSize.sle op.remoteFileSize = true)
    (hge : op.localFileSize.slt op.remoteFileSize = false) :
    op.SizesKnownEqual := by
  rw [BitVec.slt_iff_toInt_lt] at hpositive
  rw [BitVec.sle_iff_toInt_le] at hle
  have hnot : ¬ op.localFileSize.toInt < op.remoteFileSize.toInt := by
    rw [← BitVec.slt_iff_toInt_lt, hge]
    simp
  have hzero : (0 : Size).toInt = 0 := rfl
  have heq : op.remoteFileSize.toInt = op.localFileSize.toInt := by omega
  have hnat : op.localFileSize.toInt = op.localFileSize.toNat := by
    have hbounds := BitVec.toInt_eq_toNat_cond op.localFileSize
    have hlt := op.localFileSize.isLt
    split_ifs at hbounds with hsmall
    · exact hbounds
    · omega
  exact ⟨hnosize, by omega, by omega⟩

/-! ## Resuming -/

theorem testResumeLimit_cases
    (op : FileTransfer) (env : TransferEnv) (limit : Size)
    (bug : Capability) :
    (op.testResumeLimit env limit bug = ⟨op, [], Reply.ok⟩ ∧
        env.capability bug ≠ .no ∧ op.remoteFileSize = op.localFileSize) ∨
      op.testResumeLimit env limit bug = op.startResumeTest ∨
      op.testResumeLimit env limit bug = ⟨op, [], Reply.criticalerror⟩ ∨
      op.testResumeLimit env limit bug = ⟨op, [], Reply.continued⟩ := by
  unfold testResumeLimit
  by_cases hsmall : op.localFileSize < limit
  · rw [if_pos hsmall]
    exact Or.inr (Or.inr (Or.inr rfl))
  · rw [if_neg hsmall]
    cases hbug : env.capability bug with
    | yes =>
        by_cases hequal : op.remoteFileSize = op.localFileSize
        · exact Or.inl ⟨if_pos hequal, by simp, hequal⟩
        · exact Or.inr (Or.inr (Or.inl (if_neg hequal)))
    | unknown =>
        by_cases hless : op.remoteFileSize < op.localFileSize
        · exact Or.inr (Or.inr (Or.inr (if_pos hless)))
        · by_cases hequal : op.remoteFileSize = op.localFileSize
          · exact Or.inl ⟨(if_neg hless).trans (if_pos hequal), by simp, hequal⟩
          · exact Or.inr (Or.inl ((if_neg hless).trans (if_neg hequal)))
    | no => exact Or.inr (Or.inr (Or.inr rfl))

theorem testResumeCapability_cases
    (hdownload : op.download = true) (hstate : op.opState = .resumetest) :
    (op.testResumeCapability env = ⟨op, [], Reply.ok⟩ ∧
        ¬ (env.capability .resume4GBbug = .no ∧
          env.capability .resume2GBbug = .no) ∧
        op.remoteFileSize = op.localFileSize) ∨
      op.testResumeCapability env = op.startResumeTest ∨
      op.testResumeCapability env = ⟨op, [], Reply.criticalerror⟩ ∨
      op.testResumeCapability env = ⟨op, [], Reply.continued⟩ := by
  have hunfold : op.testResumeCapability env =
      if (op.testResumeLimit env (1 <<< 32) .resume4GBbug).result ≠
            Reply.continued ∨
          (op.testResumeLimit env (1 <<< 32) .resume4GBbug).op.opState =
            .waitresumetest then
        op.testResumeLimit env (1 <<< 32) .resume4GBbug
      else op.testResumeLimit env (1 <<< 31) .resume2GBbug := by
    simp [testResumeCapability, hdownload]
  rw [hunfold]
  rcases testResumeLimit_cases op env (1 <<< 32) .resume4GBbug with
    ⟨hfirst, hbug, hequal⟩ | hfirst | hfirst | hfirst
  · rw [hfirst, if_pos (Or.inl (by simp [Reply.ok, Reply.continued]))]
    exact Or.inl ⟨rfl, fun hno => hbug hno.1, hequal⟩
  · have htesting : op.startResumeTest.op.opState = .waitresumetest := rfl
    rw [hfirst, if_pos (Or.inr htesting)]
    exact Or.inr (Or.inl rfl)
  · rw [hfirst,
      if_pos (Or.inl (by simp [Reply.criticalerror, Reply.error,
        Reply.continued]))]
    exact Or.inr (Or.inr (Or.inl rfl))
  · have hgoesOn : ¬ (Reply.continued ≠ Reply.continued ∨
        op.opState = .waitresumetest) := by
      simp [hstate]
    rw [hfirst, if_neg hgoesOn]
    rcases testResumeLimit_cases op env (1 <<< 31) .resume2GBbug with
      ⟨hsecond, hbug, hequal⟩ | hsecond | hsecond | hsecond
    · exact Or.inl ⟨hsecond, fun hno => hbug hno.2, hequal⟩
    · exact Or.inr (Or.inl hsecond)
    · exact Or.inr (Or.inr (Or.inl hsecond))
    · exact Or.inr (Or.inr (Or.inr hsecond))

/-! ## The handlers -/

theorem Justified.setRemoteTime
    (hhappened : Happened outputs op)
    (hsub : op.subOperation = none) (hrequest : op.request = none)
    (hfinished : op.finished = none) (env : TransferEnv) :
    Justified outputs (op.setRemoteTime env) := by
  have hdone : ∀ following : FileTransfer,
      Happened outputs following → following.subOperation = none →
      following.request = none → following.finished = none →
      Sound (outputs ++ []) following := by
    intro following hfollowing hnone hasked hopen
    rw [List.append_nil]
    exact
      { finished := fun _ => hfollowing
        mfmt := fun _ => ⟨hfollowing, hnone, hasked⟩
        exclusive := fun _ => hasked
        payload := by
          intro _ sub hpresent
          rw [hnone] at hpresent
          cases hpresent }
  have hhappened' : Happened (outputs ++ []) op := hhappened.mono []
  unfold FileTransfer.setRemoteTime
  by_cases hserver :
      env.preserveTimestamps ∧ env.capability .mfmtCommand = .yes
  · rw [if_pos hserver]
    by_cases htime : env.localFile.mtime ≠ none
    · simp only [if_pos htime]
      exact ⟨hdone _ hhappened hsub hrequest hfinished, hfinished,
        fun _ => hhappened'⟩
    · simp only [if_neg htime]
      exact ⟨hdone _ hhappened hsub hrequest hfinished, hfinished,
        fun _ => hhappened'⟩
  · rw [if_neg hserver]
    exact ⟨hdone _ hhappened hsub hrequest hfinished, hfinished,
      fun _ => hhappened'⟩

theorem Justified.resumeTest
    (hdownload : op.download = true) (hresume : op.resume = true)
    (hstate : op.opState = .resumetest) (hsub : op.subOperation = none)
    (hrequest : op.request = none) (hfinished : op.finished = none)
    (hlocal : op.localFileSize = env.localFile.size64)
    (hfits : env.localFile.size = none → op.remoteFileSize = unknownSize →
      env.capability .resume4GBbug = .no ∧
        env.capability .resume2GBbug = .no) :
    Justified outputs
      (if (op.testResumeCapability env).result ≠ Reply.continued ∨
          (op.testResumeCapability env).op.opState ≠ .resumetest then
        op.testResumeCapability env
      else (op.testResumeCapability env).op.sendDownload env) := by
  have hplainState : op.opState ≠ .mfmt := by simp [hstate]
  rcases testResumeCapability_cases hdownload hstate with
    ⟨htest, hbugs, hequal⟩ | htest | htest | htest
  · rw [htest, if_pos (Or.inl (by simp [Reply.ok, Reply.continued]))]
    have hsizes : op.SizesKnownEqual := by
      cases hsize : env.localFile.size with
      | none =>
          have hunknown : op.remoteFileSize = unknownSize := by
            rw [hequal, hlocal, LocalFile.size64, hsize]
            rfl
          exact absurd (hfits hsize hunknown) hbugs
      | some size => exact sizes_of_bits hsize hlocal hequal
    have hhappened : Happened (outputs ++ []) op :=
      Or.inr (Or.inr ⟨hresume, hsizes⟩)
    exact
      { sound :=
          { finished := fun _ => hhappened
            mfmt := fun h => absurd h hplainState
            exclusive := fun _ => hrequest
            payload := by
              intro _ sub hpresent
              rw [hsub] at hpresent
              cases hpresent }
        unfinished := hfinished
        success := fun _ => hhappened }
  · have hplain : Plain op.startResumeTest := by
      unfold startResumeTest
      apply plain_startTransfer
      · simp
      · exact hrequest
      · exact hfinished
    have htesting : op.startResumeTest.op.opState ≠ .resumetest := by
      simp [startResumeTest, startTransfer]
    rw [htest, if_pos (Or.inr htesting)]
    exact hplain.justified outputs
  · have hfailed : Reply.criticalerror ≠ Reply.ok := by
      simp [Reply.criticalerror, Reply.error, Reply.ok]
    rw [htest,
      if_pos (Or.inl (by simp [Reply.criticalerror, Reply.error,
        Reply.continued]))]
    exact (plain_of_none hfailed hplainState hsub hfinished).justified outputs
  · have hgoesOn : ¬ (Reply.continued ≠ Reply.continued ∨
        op.opState ≠ .resumetest) := by
      simp [hstate]
    rw [htest, if_neg hgoesOn]
    exact (plain_sendDownload hplainState hsub hrequest hfinished
      env).justified outputs

theorem Justified.sendTransfer
    (hstate : op.opState = .resumetest ∨ op.opState = .transfer)
    (hsub : op.subOperation = none) (hrequest : op.request = none)
    (hfinished : op.finished = none)
    (hfits : op.ResumeSizesFit (.send env)) :
    Justified outputs (op.sendTransfer env) := by
  have hplainState : op.opState ≠ .mfmt := by
    rcases hstate with hstate | hstate <;> simp [hstate]
  unfold FileTransfer.sendTransfer
  by_cases hdownload : op.download = true
  · simp only [if_pos hdownload]
    by_cases hresume : op.resume = true
    · simp only [if_pos hresume]
      by_cases htest : op.opState = .resumetest
      · simp only [if_pos htest]
        apply Justified.resumeTest
        · exact hdownload
        · exact hresume
        · exact htest
        · exact hsub
        · exact hrequest
        · exact hfinished
        · rfl
        · have hcondition := hfits hresume
          rw [if_pos hdownload] at hcondition
          exact hcondition htest
      · simp only [if_neg htest]
        apply Plain.justified
        apply plain_sendDownload
        · exact hplainState
        · exact hsub
        · exact hrequest
        · exact hfinished
    · simp only [if_neg hresume]
      apply Plain.justified
      apply plain_sendDownload
      · exact hplainState
      · exact hsub
      · exact hrequest
      · exact hfinished
  · simp only [if_neg hdownload]
    have hupload : ∀ offset : Size,
        Justified outputs
          ({ op with resumeOffset := offset }.sendUpload env) := by
      intro offset
      apply Plain.justified
      apply plain_sendUpload
      · exact hplainState
      · exact hsub
      · exact hrequest
      · exact hfinished
    by_cases hresume : op.resume = true ∧ BitVec.slt 0 op.remoteFileSize = true
    · simp only [if_pos hresume]
      by_cases hnothing :
          { op with resumeOffset := op.remoteFileSize }.nothingToUpload = true
      · rw [if_pos hnothing]
        simp only [nothingToUpload, Bool.and_eq_true, decide_eq_true_eq]
          at hnothing
        have hcondition := hfits hresume.1
        rw [if_neg hdownload] at hcondition
        have hnotLarger := hcondition hstate hnothing.2 hnothing.1.1
        have hsizes : op.SizesKnownEqual :=
          sizes_of_order hnothing.1.1 hresume.2 hnothing.1.2 hnotLarger
        apply Justified.setRemoteTime
        · exact Or.inr (Or.inr ⟨hresume.1, hsizes⟩)
        · exact hsub
        · exact hrequest
        · exact hfinished
      · rw [if_neg hnothing]
        exact hupload _
    · simp only [if_neg hresume]
      exact hupload 0

theorem Justified.send
    (hsound : Sound outputs op) (hsub : op.subOperation = none)
    (hrequest : op.request = none) (hfinished : op.finished = none)
    (hfits : op.ResumeSizesFit (.send env)) :
    Justified outputs (op.send env) := by
  have hrefused : op.opState ≠ .mfmt →
      Justified outputs ⟨op, [], Reply.error⟩ := by
    intro hstate
    apply Plain.justified
    apply plain_of_none
    · simp [Reply.error, Reply.ok]
    · exact hstate
    · exact hsub
    · exact hfinished
  unfold FileTransfer.send
  cases hstate : op.opState with
  | init =>
      apply Plain.justified
      exact
        { result := by simp [Reply.continued, Reply.ok]
          state := by simp
          exclusive := fun _ => hrequest
          payload := by simp
          unfinished := hfinished }
  | size =>
      apply Plain.justified
      exact Plain.sendFileCommand (by simp [hstate]) hsub hfinished env .size
  | mdtm =>
      apply Plain.justified
      exact Plain.sendFileCommand (by simp [hstate]) hsub hfinished env .mdtm
  | resumetest =>
      exact Justified.sendTransfer (Or.inl hstate) hsub hrequest hfinished hfits
  | transfer =>
      exact Justified.sendTransfer (Or.inr hstate) hsub hrequest hfinished hfits
  | mfmt =>
      have hhappened := (hsound.mfmt hstate).1
      have hkept : ∀ events,
          Sound (outputs ++ events) op := by
        intro events
        exact
          { finished := fun _ => hhappened.mono events
            mfmt := fun _ => ⟨hhappened.mono events, hsub, hrequest⟩
            exclusive := fun _ => hrequest
            payload := by simp [hstate] }
      simp only [FileTransfer.sendFileCommand]
      split_ifs
      · exact ⟨hkept _, hfinished, fun _ => hhappened.mono _⟩
      · exact ⟨hkept _, hfinished, fun _ => hhappened.mono _⟩
  | waitcwd => exact hrefused (by simp [hstate])
  | waitlist => exact hrefused (by simp [hstate])
  | waittransfer => exact hrefused (by simp [hstate])
  | waitresumetest => exact hrefused (by simp [hstate])

theorem Justified.parseResponse
    (hsound : Sound outputs op) (hsub : op.subOperation = none)
    (hfinished : op.finished = none) (response : WString) :
    Justified outputs (op.parseResponse env response) := by
  have hrefused : op.opState ≠ .mfmt →
      Justified outputs ⟨op, [], Reply.internalerror⟩ := by
    intro hstate
    apply Plain.justified
    apply plain_of_none
    · simp [Reply.internalerror, Reply.error, Reply.ok]
    · exact hstate
    · exact hsub
    · exact hfinished
  unfold FileTransfer.parseResponse
  cases hstate : op.opState with
  | size =>
      apply Plain.justified
      simp only
      split_ifs
      · apply plain_afterCheck
        · simp
        · exact hsub
        · exact hfinished
      all_goals
        apply plain_of_none
        · simp [Reply.continued, Reply.ok]
        · simp
        · exact hsub
        · exact hfinished
  | mdtm =>
      apply Plain.justified
      simp only
      split_ifs
      all_goals
        apply plain_afterCheck
        · simp
        · exact hsub
        · exact hfinished
  | mfmt =>
      have hmfmt := hsound.mfmt hstate
      have hhappened : Happened (outputs ++ []) op := hmfmt.1.mono []
      exact
        { sound :=
            { finished := fun _ => hhappened
              mfmt := fun _ => ⟨hhappened, hmfmt.2⟩
              exclusive := hsound.exclusive
              payload := by simp [hstate] }
          unfinished := hfinished
          success := fun _ => hhappened }
  | init => exact hrefused (by simp [hstate])
  | waitcwd => exact hrefused (by simp [hstate])
  | waitlist => exact hrefused (by simp [hstate])
  | resumetest => exact hrefused (by simp [hstate])
  | transfer => exact hrefused (by simp [hstate])
  | waittransfer => exact hrefused (by simp [hstate])
  | waitresumetest => exact hrefused (by simp [hstate])

/-- A look into the directory cache decides what to do next and leaves the
rest of the operation alone. -/
structure LookedUp (op following : FileTransfer) : Prop where
  state : following.opState ≠ .mfmt
  subOperation : following.subOperation = op.subOperation
  request : following.request = op.request
  finished : following.finished = op.finished

theorem LookedUp.takeEntry (op : FileTransfer) (env : TransferEnv)
    (entry : Direntry) : op.LookedUp (op.takeEntry env entry) where
  state := by
    unfold FileTransfer.takeEntry
    simp only
    split_ifs <;> simp
  subOperation := rfl
  request := rfl
  finished := rfl

theorem LookedUp.withoutEntry (op : FileTransfer) (env : TransferEnv) :
    op.LookedUp (op.withoutEntry env) where
  state := by
    unfold FileTransfer.withoutEntry
    simp only
    split_ifs <;> simp
  subOperation := rfl
  request := rfl
  finished := rfl

theorem LookedUp.afterCwd (op : FileTransfer) (env : TransferEnv) :
    op.LookedUp (op.afterCwd env) := by
  unfold FileTransfer.afterCwd
  simp only
  cases (env.lookup (op.lookupPath env) op.remoteFile).entry with
  | none =>
      simp only
      split_ifs
      · exact ⟨by simp, rfl, rfl, rfl⟩
      · exact LookedUp.withoutEntry op env
  | some entry =>
      simp only
      split_ifs
      · exact ⟨by simp, rfl, rfl, rfl⟩
      · exact LookedUp.takeEntry op env entry
      · exact ⟨by simp, rfl, rfl, rfl⟩

theorem LookedUp.afterList (op : FileTransfer) (env : TransferEnv) :
    op.LookedUp (op.afterList env) := by
  unfold FileTransfer.afterList
  simp only
  cases (env.lookup (op.lookupPath env) op.remoteFile).entry with
  | none =>
      simp only
      split_ifs
      · exact ⟨by simp, rfl, rfl, rfl⟩
      · exact LookedUp.withoutEntry op env
  | some entry =>
      simp only
      split_ifs
      · exact LookedUp.takeEntry op env entry
      · exact ⟨by simp, rfl, rfl, rfl⟩

theorem Plain.lookedUp
    {following : FileTransfer} (hlooked : op.LookedUp following)
    (hsub : op.subOperation = none) (hfinished : op.finished = none)
    (env : TransferEnv) :
    Plain
      (if following.opState = .resumetest then
        afterCheck (following.checkOverwriteFile env)
      else ⟨following, [], Reply.continued⟩) := by
  have hnone : following.subOperation = none := by
    rw [hlooked.subOperation, hsub]
  have hopen : following.finished = none := by
    rw [hlooked.finished, hfinished]
  split_ifs
  · exact plain_afterCheck hlooked.state hnone hopen env
  · apply plain_of_none
    · simp [Reply.continued, Reply.ok]
    · exact hlooked.state
    · exact hnone
    · exact hopen

theorem Justified.subcommandResult
    {prevResult : Reply} (hstate : op.opState ≠ .mfmt)
    (hsub : op.subOperation = none) (hrequest : op.request = none)
    (hfinished : op.finished = none)
    (hpayload : op.opState = .waittransfer →
      prevResult = Reply.ok → .payloadEnded Reply.ok ∈ outputs) :
    Justified outputs (op.subcommandResult env prevResult) := by
  have hcontinued : Reply.continued ≠ Reply.ok := by
    simp [Reply.continued, Reply.ok]
  have hplain : ∀ (following : FileTransfer) (events : List TransferEvent)
      (result : Reply), result ≠ Reply.ok → following.opState ≠ .mfmt →
      following.subOperation = none → following.finished = none →
      Justified outputs ⟨following, events, result⟩ := by
    intro following events result hresult hnot hnone hopen
    exact (plain_of_none hresult hnot hnone hopen).justified outputs
  unfold FileTransfer.subcommandResult
  cases hop : op.opState with
  | waitcwd =>
      have hlooked := LookedUp.afterCwd op env
      simp only
      by_cases hok : prevResult = Reply.ok
      · rw [if_pos hok]
        by_cases hlist : (op.afterCwd env).opState = .waitlist
        · rw [if_pos hlist]
          apply Plain.justified
          exact
            { result := hcontinued
              state := hlooked.state
              exclusive := fun _ => hlooked.request.trans hrequest
              payload := by simp [hlist]
              unfinished := hlooked.finished.trans hfinished }
        · rw [if_neg hlist]
          exact (Plain.lookedUp hlooked hsub hfinished env).justified outputs
      · rw [if_neg hok]
        exact hplain _ _ _ hcontinued (by simp) hsub hfinished
  | waitlist =>
      have hlooked := LookedUp.afterList op env
      simp only
      by_cases hok : prevResult = Reply.ok
      · rw [if_pos hok]
        exact (Plain.lookedUp hlooked hsub hfinished env).justified outputs
      · rw [if_neg hok]
        exact hplain _ _ _ hcontinued (by simp) hsub hfinished
  | waittransfer =>
      simp only
      by_cases hok : prevResult = Reply.ok
      · have hhappened : Happened outputs op :=
          Or.inr (Or.inl (hpayload hop hok))
        split_ifs
        · exact Justified.setRemoteTime hhappened hsub hrequest hfinished env
        · have hkept : Happened (outputs ++ []) op := hhappened.mono []
          exact
            { sound :=
                { finished := fun _ => hkept
                  mfmt := fun h => absurd h hstate
                  exclusive := fun _ => hrequest
                  payload := by
                    intro _ sub hpresent
                    rw [hsub] at hpresent
                    cases hpresent }
              unfinished := hfinished
              success := fun _ => hkept }
      · rw [if_neg (fun h => hok h.1)]
        exact hplain _ _ _ hok hstate hsub hfinished
  | waitresumetest =>
      simp only
      split_ifs with hfailed _
      · refine hplain _ _ _ ?_ hstate hsub hfinished
        intro hok
        exact hfailed (or_eq_ok hok)
      · exact hplain _ _ _ hfailed hstate hsub hfinished
      · exact hplain _ _ _ hcontinued (by simp) hsub hfinished
  | init => exact hplain _ _ _ hcontinued hstate hsub hfinished
  | size => exact hplain _ _ _ hcontinued hstate hsub hfinished
  | mdtm => exact hplain _ _ _ hcontinued hstate hsub hfinished
  | resumetest => exact hplain _ _ _ hcontinued hstate hsub hfinished
  | transfer => exact hplain _ _ _ hcontinued hstate hsub hfinished
  | mfmt => exact absurd hop hstate

theorem Justified.setFileExistsAction
    (hstate : op.opState ≠ .mfmt) (hsub : op.subOperation = none)
    (hfinished : op.finished = none) (request : FileExists)
    (action : OverwriteAction) :
    Justified outputs (op.setFileExistsAction env request action) := by
  have hplain : ∀ (following : FileTransfer) (result : Reply),
      result ≠ Reply.ok → following.opState ≠ .mfmt →
      following.subOperation = none → following.finished = none →
      Justified outputs ⟨following, [], result⟩ := by
    intro following result hresult hnot hnone hopen
    exact (plain_of_none hresult hnot hnone hopen).justified outputs
  have hproceed : Justified outputs op.proceed :=
    hplain op _ (by simp [Reply.continued, Reply.ok]) hstate hsub hfinished
  have hinternal : Justified outputs ⟨op, [], Reply.internalerror⟩ :=
    hplain op _ (by simp [Reply.internalerror, Reply.error, Reply.ok]) hstate
      hsub hfinished
  have hskip : Justified outputs op.skipFile := by
    have hhappened : Happened (outputs ++ [.skipped]) op :=
      Or.inl (List.mem_append_right _ (List.mem_singleton_self _))
    exact
      { sound :=
          { finished := fun _ => hhappened
            mfmt := fun h => absurd h hstate
            exclusive := fun h => absurd hsub h
            payload := by
              intro _ sub hpresent
              rw [show op.skipFile.op.subOperation = none from hsub] at hpresent
              cases hpresent }
        unfinished := hfinished
        success := fun _ => hhappened }
  unfold FileTransfer.setFileExistsAction
  cases action with
  | overwrite => exact hproceed
  | overwriteNewer =>
      simp only
      split_ifs
      · exact hproceed
      · exact hskip
  | overwriteSize =>
      simp only
      split_ifs
      · exact hproceed
      · exact hskip
  | overwriteSizeOrNewer =>
      simp only
      split_ifs
      · exact hproceed
      · exact hskip
  | resume =>
      simp only
      split_ifs
      · exact hplain _ _ (by simp [Reply.continued, Reply.ok]) hstate hsub
          hfinished
      · exact hproceed
  | skip => exact hskip
  | unknown => exact hinternal
  | rename newName newTarget =>
      simp only [FileTransfer.rename]
      by_cases hdownload : op.download = true
      · rw [if_pos hdownload]
        split_ifs
        · exact hinternal
        · apply Plain.justified
          apply plain_afterCheck
          · exact hstate
          · exact hsub
          · exact hfinished
      · rw [if_neg hdownload]
        split
        · exact hplain _ _ (by simp [Reply.continued, Reply.ok]) hstate hsub
            hfinished
        · apply Plain.justified
          apply plain_afterCheck
          · exact hstate
          · exact hsub
          · exact hfinished

/-! ## Runs -/

theorem Sound.mono
    (hsound : Sound outputs op) (more : List TransferEvent) :
    Sound (outputs ++ more) op where
  finished h := (hsound.finished h).mono more
  mfmt h := ⟨(hsound.mfmt h).1.mono more, (hsound.mfmt h).2⟩
  exclusive := hsound.exclusive
  payload := hsound.payload

theorem Sound.created (hcreated : op.created) : Sound [] op := by
  rcases hcreated with
    ⟨hstate, _, _, _, _, _, _, _, _, _, hsub, _, hfinished⟩
  constructor
  · intro hok
    rw [hfinished] at hok
    cases hok
  · intro hmfmt
    rw [hstate] at hmfmt
    cases hmfmt
  · intro hpresent
    exact absurd hsub hpresent
  · intro hwait
    rw [hstate] at hwait
    cases hwait

theorem Sound.state_ne_mfmt
    (hsound : Sound outputs op)
    (hwaits : op.subOperation ≠ none ∨ op.request ≠ none) :
    op.opState ≠ .mfmt := by
  intro hstate
  have hidle := (hsound.mfmt hstate).2
  rcases hwaits with hsub | hrequest
  · exact hsub hidle.1
  · exact hrequest hidle.2

theorem step_subcommandResult
    {prevResult : Reply} {commandSent : Bool} {endReason : TransferEndReason}
    {following : FileTransfer} {answer : List TransferEvent}
    (hsound : Sound outputs op) (hfinished : op.finished = none)
    (hstep : op.step (.subcommandResult env prevResult commandSent endReason) =
      some (following, answer)) :
    Sound (outputs ++ answer) following := by
  unfold step at hstep
  rw [if_neg (by simp [hfinished])] at hstep
  cases hsub : op.subOperation with
  | none => simp [hsub] at hstep
  | some sub =>
      have hpresent : op.subOperation ≠ none := by simp [hsub]
      have hstate := hsound.state_ne_mfmt (Or.inl hpresent)
      have hrequest := hsound.exclusive hpresent
      rw [hsub] at hstep
      simp only at hstep
      by_cases hraw : sub = .rawTransfer
      · rw [if_pos hraw] at hstep
        have hjustified : Justified
            (outputs ++
              if op.opState = .waittransfer then [.payloadEnded prevResult]
              else [])
            ({ op with
                subOperation := none
                transferCommandSent := commandSent
                transferEndReason := endReason }.subcommandResult env
              prevResult) := by
          apply Justified.subcommandResult
          · exact hstate
          · rfl
          · exact hrequest
          · exact hfinished
          · intro hwait hok
            rw [if_pos hwait, hok]
            exact List.mem_append_right _ (List.mem_singleton_self _)
        simp only [Option.some.injEq, Prod.mk.injEq] at hstep
        rw [← hstep.1, ← hstep.2, ← List.append_assoc]
        exact hjustified.conclude env
      · rw [if_neg hraw] at hstep
        have hjustified : Justified outputs
            ({ op with subOperation := none }.subcommandResult env
              prevResult) := by
          apply Justified.subcommandResult
          · exact hstate
          · rfl
          · exact hrequest
          · exact hfinished
          · intro hwait
            exact absurd (hsound.payload hwait sub hsub) hraw
        exact hjustified.stepped hstep

/-- One step keeps what a success stands for. -/
theorem step_sound
    {input : Input} {following : FileTransfer} {answer : List TransferEvent}
    (hsound : Sound outputs op) (hfits : op.ResumeSizesFit input)
    (hstep : op.step input = some (following, answer)) :
    Sound (outputs ++ answer) following := by
  have hfinished : op.finished = none := by
    by_contra hover
    unfold step at hstep
    rw [if_pos hover] at hstep
    cases hstep
  cases input with
  | subcommandResult env prevResult commandSent endReason =>
      exact step_subcommandResult hsound hfinished hstep
  | send env =>
      unfold step at hstep
      rw [if_neg (by simp [hfinished])] at hstep
      simp only at hstep
      split_ifs at hstep with hidle
      have hjustified : Justified outputs (op.send env) :=
        Justified.send hsound hidle.1 hidle.2 hfinished hfits
      exact hjustified.stepped hstep
  | response env response =>
      unfold step at hstep
      rw [if_neg (by simp [hfinished])] at hstep
      simp only at hstep
      split_ifs at hstep with hidle
      have hjustified : Justified outputs (op.parseResponse env response) :=
        Justified.parseResponse hsound hidle hfinished response
      exact hjustified.stepped hstep
  | fileExistsReply env action =>
      unfold step at hstep
      rw [if_neg (by simp [hfinished])] at hstep
      cases hrequest : op.request with
      | none => simp [hrequest] at hstep
      | some request =>
          have hstate := hsound.state_ne_mfmt (Or.inr (by simp [hrequest]))
          rw [hrequest] at hstep
          simp only at hstep
          split_ifs at hstep with hidle
          have hjustified : Justified outputs
              ({ op with request := none }.setFileExistsAction env request
                action) := by
            apply Justified.setFileExistsAction
            · exact hstate
            · exact hidle
            · exact hfinished
          exact hjustified.stepped hstep
  | abort env errorCode =>
      unfold step at hstep
      rw [if_neg (by simp [hfinished])] at hstep
      simp only at hstep
      split_ifs at hstep with hok
      have hjustified : Justified outputs ⟨op, [], errorCode⟩ :=
        { sound := hsound.mono []
          unfinished := hfinished
          success := fun h => absurd h hok }
      exact hjustified.stepped hstep

end FileTransfer

/-- An operation that has ended with success has transferred the file, unless
that was not wanted or not necessary. -/
theorem successful_transfers_happened
    {inputs : List FileTransfer.Input} {outputs : List TransferEvent}
    {op : FileTransfer}
    (hreach : fileTransferMachine.ReachesWithin FileTransfer.ResumeSizesFit
      inputs outputs op)
    (hok : op.finished = some Reply.ok) :
    FileTransfer.Happened outputs op := by
  have hsound : FileTransfer.Sound outputs op := by
    refine hreach.invariant FileTransfer.Sound ?_ ?_
    · intro op hcreated
      exact FileTransfer.Sound.created hcreated
    · intro outputs op input following answer hsound hfits hstep
      exact FileTransfer.step_sound hsound hfits hstep
  exact hsound.finished hok

def TransferEnv.fiveBytes (remoteSize : Size) : TransferEnv where
  localFile := ⟨some 5, none⟩
  lookup := fun _ _ =>
    ⟨some ⟨remoteSize, none, false, false⟩, true, true⟩
  currentPath := ⟨none, .unix⟩
  serverType := .unix
  capability := fun _ => .unknown
  preserveTimestamps := false
  opensFile := true
  preallocates := true
  sendsCommand := true
  replyCode := 2
  formatFilename := fun _ name _ => name
  parseTime := fun _ => none
  earlierThan := fun first second => first.value < second.value
  laterThan := fun first second => second.value < first.value

/-- An upload before its first step. -/
def FileTransfer.upload : FileTransfer where
  opState := .init
  download := false
  binary := true
  resume := false
  tryAbsolutePath := false
  localName := "a".toList
  remoteFile := "a".toList
  remotePath := ⟨some ⟨[], none⟩, .unix⟩
  localFileSize := 0
  localFileTime := none
  remoteFileSize := unknownSize
  remoteFileTime := none
  resumeOffset := 0
  fileDidExist := true
  transferCommandSent := false
  transferInitiated := false
  transferEndReason := .successful
  subOperation := none
  request := none
  finished := none

def FileTransfer.resumedUpload (remoteSize : Size) : List FileTransfer.Input :=
  [.send (.fiveBytes remoteSize),
    .subcommandResult (.fiveBytes remoteSize) Reply.ok false .successful,
    .fileExistsReply (.fiveBytes remoteSize) .resume,
    .send (.fiveBytes remoteSize)]

theorem FileTransfer.upload_created : FileTransfer.upload.created := by
  unfold FileTransfer.created
  decide

/-- An upload that is resumed and finds all of the file on the server. -/
theorem successful_transfers_happened_same_size :
    ∃ op outputs, FileTransfer.Happened outputs op ∧
      op.finished = some Reply.ok := by
  have hexec : ∃ op outputs, fileTransferMachine.exec
      (fun op _ => op.download = false ∧
        op.localFileSize.slt op.remoteFileSize = false)
      FileTransfer.upload (FileTransfer.resumedUpload 5) = some (op, outputs) ∧
      op.finished = some Reply.ok := ⟨_, _, rfl, rfl⟩
  rcases hexec with ⟨op, outputs, hexec, hok⟩
  have hstart : fileTransferMachine.ReachesWithin
      (fun op _ => op.download = false ∧
        op.localFileSize.slt op.remoteFileSize = false) [] []
      FileTransfer.upload := .start FileTransfer.upload_created
  have hreach := (hstart.exec hexec).mono
    (show ∀ (op : FileTransfer) (input : FileTransfer.Input),
        op.download = false ∧
          op.localFileSize.slt op.remoteFileSize = false →
        op.ResumeSizesFit input from by
      intro op input hsizes
      cases input <;> simp [FileTransfer.ResumeSizesFit, hsizes])
  exact ⟨op, outputs, successful_transfers_happened hreach hok, hok⟩

/-- The remote file is larger than the local one.  Nothing is transferred and
the sizes are not equal. -/
theorem larger_remote_file_reported_uploaded :
    ¬ ∀ inputs outputs op,
      fileTransferMachine.Reaches inputs outputs op →
        op.finished = some Reply.ok → FileTransfer.Happened outputs op := by
  intro hall
  have hexec : ∃ op request, fileTransferMachine.exec (fun _ _ => True)
      FileTransfer.upload (FileTransfer.resumedUpload 10) =
        some (op, [.fileExists request, .ended Reply.ok]) ∧
      op.finished = some Reply.ok ∧ op.localFileSize = 5 ∧
      op.remoteFileSize = 10 := ⟨_, _, rfl, rfl, rfl, rfl⟩
  rcases hexec with ⟨op, request, hexec, hok, hlocal, hremote⟩
  have hstart : fileTransferMachine.Reaches [] [] FileTransfer.upload :=
    .start FileTransfer.upload_created
  have hhappened := hall _ _ _ (hstart.exec hexec) hok
  have hdiffer : ¬ op.SizesKnownEqual := by
    intro hsizes
    have hequal := hsizes.2.2
    rw [hlocal, hremote] at hequal
    exact absurd hequal (by decide)
  rcases hhappened with hskipped | hpayload | hsizes
  · simp at hskipped
  · simp at hpayload
  · exact hdiffer hsizes.2

end TabFtp
