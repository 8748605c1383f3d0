import TabFtp.FtpConnection

/-!
# What the steps of a raw transfer mean to its connection
-/

namespace TabFtp

open LabelledRuns

namespace RawTransferRun

variable {run following : RawTransferRun DataCommand}
  {before events : List (RawTransferEvent DataCommand)}

inductive Advances (run following : RawTransferRun DataCommand)
    (command : Option (RawTransferCommand DataCommand)) : Prop
  | writes (written : RawTransferCommand DataCommand) :
      command = some written → run.op.Writes written →
      run.awaiting = [] → following.finished = none →
      following.op.opState = run.op.opState →
      following.op.job = run.op.job →
      following.parameters = run.parameters.sending written →
      following.awaiting = [written] → Advances run following command
  | ends :
      command = none → following.finished ≠ none →
      (following.parameters = run.parameters ∨
        ∃ written, run.op.Writes written ∧
          following.parameters = run.parameters.sending written) →
      Advances run following command
  | begins :
      command = none → following.finished = none →
      run.op.Begins run.parameters following.op.opState →
      following.op.job = run.op.job →
      following.parameters = run.parameters → run.awaiting = [] →
      following.awaiting = [] → Advances run following command
  | remains :
      command = none → following.finished = none →
      (following.op.opState = run.op.opState ∨
        run.op.opState = .transfer ∧
          following.op.opState = .waittransferpre ∨
        run.op.opState = .waitfinish ∧
          following.op.opState = .waittransfer) →
      following.op.cmd = run.op.cmd →
      following.op.binary = run.op.binary →
      following.op.resumeOffset = run.op.resumeOffset →
      following.parameters = run.parameters →
      following.awaiting = run.awaiting → Advances run following command

theorem resetOperation_advances (errorCode : Reply) :
    Advances run (run.resetOperation errorCode).1
      (FtpConnection.sentCommand (run.resetOperation errorCode).2) :=
  .ends rfl nofun (Or.inl rfl)

theorem sendNextCommand_advances (env : RawTransferEnv)
    (hlockstep : run.Lockstep before) (hsending : run.sending = true)
    (hfinished : run.finished = none) :
    Advances run (run.sendNextCommand env).1
      (FtpConnection.sentCommand (run.sendNextCommand env).2) := by
  unfold RawTransferRun.sendNextCommand
  by_cases hwaiting : run.asyncWaiting = true
  · rw [if_pos hwaiting]
    exact .remains rfl hfinished (Or.inl rfl) rfl rfl rfl rfl rfl
  · rw [if_neg hwaiting]
    dsimp only
    have hsends := @RawTransfer.send_sends DataCommand run.op
      run.parameters
      { env with hasTransferSocket := run.transferSocket.isSome }
    generalize run.op.send run.parameters
      { env with hasTransferSocket := run.transferSocket.isSome } =
        sent at *
    cases hsends with
    | fails hresult hnone hparameters =>
        rw [if_neg (fails_ne_continued hresult),
          if_neg (fails_ne_wouldblock hresult)]
        apply Advances.ends
        · rw [hnone]
          rfl
        · nofun
        · exact hparameters
    | waits hresult hnone hparameters hstate hjob =>
        simp only [hresult, hnone, if_neg wouldblock_ne_continued, if_true]
        exact .remains rfl hfinished (Or.inl hstate)
          (RawTransfer.job_cmd hjob) (RawTransfer.job_binary hjob)
          (RawTransfer.job_resumeOffset hjob) hparameters
          (List.append_nil _)
    | writes command hresult hsome hwrites hparameters hstate hjob =>
        have hidle : run.awaiting = [] :=
          hlockstep.sending hsending hwrites.writes
        have hawaiting : run.awaiting ++ [command] = [command] := by
          rw [hidle]
          rfl
        simp only [hresult, hsome, if_neg wouldblock_ne_continued, if_true]
        exact .writes command rfl hwrites hidle hfinished hstate hjob
          hparameters hawaiting
    | starts hresult hnone hinit hparameters hbegins hjob =>
        have hidle : run.awaiting = [] := by
          apply hlockstep.sending hsending
          rw [hinit]
          exact trivial
        have hawaiting :
            run.awaiting ++ ([] : List (RawTransferCommand _)) = [] := by
          rw [hidle]
          rfl
        simp only [hresult, hnone, if_true]
        exact .begins rfl hfinished hbegins hjob hparameters hidle hawaiting

theorem transferEnd_keeps (op : RawTransfer DataCommand)
    (reason : TransferEndReason) :
    (op.transferEnd reason).1.cmd = op.cmd ∧
      (op.transferEnd reason).1.binary = op.binary ∧
      (op.transferEnd reason).1.resumeOffset = op.resumeOffset := by
  have hend : (op.endWith reason).cmd = op.cmd ∧
      (op.endWith reason).binary = op.binary ∧
      (op.endWith reason).resumeOffset = op.resumeOffset := by
    unfold RawTransfer.endWith
    split_ifs <;> exact ⟨rfl, rfl, rfl⟩
  unfold RawTransfer.transferEnd
  by_cases hnone : reason = .none
  · rw [if_pos hnone]
    exact ⟨rfl, rfl, rfl⟩
  · rw [if_neg hnone]
    by_cases htls : reason = .failedTlsResumption
    · simp only [if_pos htls]
      exact hend
    · simp only [if_neg htls]
      cases (op.endWith reason).opState <;> exact hend

theorem transferEnd_advances (hfinished : run.finished = none) :
    Advances run run.transferEnd.1
      (FtpConnection.sentCommand run.transferEnd.2) := by
  unfold RawTransferRun.transferEnd
  cases run.transferSocket with
  | none => exact .remains rfl hfinished (Or.inl rfl) rfl rfl rfl rfl rfl
  | some reason =>
      have hends := @RawTransfer.transferEnd_ends _ run.op reason
      have hkeeps := transferEnd_keeps run.op reason
      cases hends with
      | fails errorCode hcode _ =>
          simp only [hcode]
          exact .ends rfl nofun (Or.inl rfl)
      | succeeds hcode _ _ =>
          simp only [hcode]
          exact .ends rfl nofun (Or.inl rfl)
      | ignored hcode hstate _ =>
          simp only [hcode]
          exact .remains rfl hfinished (Or.inl hstate) hkeeps.1
            hkeeps.2.1 hkeeps.2.2 rfl rfl
      | moves hcode hstate _ =>
          simp only [hcode]
          exact .remains rfl hfinished (Or.inr hstate) hkeeps.1
            hkeeps.2.1 hkeeps.2.2 rfl rfl

theorem Advances.untouched (hfinished : following.finished = none)
    (hop : following.op = run.op)
    (hparameters : following.parameters = run.parameters)
    (hawaiting : following.awaiting = run.awaiting) :
    Advances run following none :=
  .remains rfl hfinished (Or.inl (by rw [hop])) (by rw [hop]) (by rw [hop])
    (by rw [hop]) hparameters hawaiting

theorem endTransferSocket_advances (reason : TransferEndReason)
    (hfinished : run.finished = none) :
    Advances run (run.endTransferSocket reason) none := by
  unfold RawTransferRun.endTransferSocket
  by_cases hopen : run.transferSocket = some .none
  · rw [if_pos hopen]
    exact .untouched hfinished rfl rfl rfl
  · rw [if_neg hopen]
    exact .untouched hfinished rfl rfl rfl

theorem step_advances {input : RawTransferInput}
    (hlockstep : run.Lockstep before) (hfinished : run.finished = none)
    (hreply : ∀ code env, input ≠ .reply code env)
    (hstep : run.step input = some (following, events)) :
    Advances run following (FtpConnection.sentCommand events) := by
  unfold RawTransferRun.step at hstep
  rw [if_neg (not_not.mpr hfinished)] at hstep
  cases input with
  | reply code env => exact absurd rfl (hreply code env)
  | sendNextCommand env =>
      by_cases hsending : run.sending = true
      · simp only [hsending, if_true] at hstep
        have hnext := sendNextCommand_advances env hlockstep hsending
          hfinished
        rw [Option.some.inj hstep] at hnext
        exact hnext
      · simp only [hsending] at hstep
        cases hstep
  | transferSocketEnds reason =>
      cases hstep
      exact endTransferSocket_advances reason hfinished
  | transferEnd =>
      by_cases hsending : run.sending = true
      · simp only [hsending, if_true] at hstep
        cases hstep
      · have hnext := transferEnd_advances hfinished
        simp only [if_neg hsending] at hstep
        rw [Option.some.inj hstep] at hnext
        exact hnext
  | externalIPAddress =>
      by_cases hblocked : (run.sending || !run.resolving) = true
      · simp only [hblocked, if_true] at hstep
        cases hstep
      · simp only [hblocked] at hstep
        cases hstep
        exact .untouched hfinished rfl rfl rfl
  | asyncRequest =>
      by_cases hsome : run.transferSocket.isSome = true
      · simp only [hsome, if_true] at hstep
        cases hstep
        exact .untouched hfinished rfl rfl rfl
      · simp only [hsome] at hstep
        cases hstep
  | asyncReply allow =>
      by_cases hblocked : (run.sending || !run.asyncWaiting) = true
      · simp only [hblocked, if_true] at hstep
        cases hstep
      · simp only [hblocked] at hstep
        cases allow with
        | true =>
            cases hstep
            exact .untouched hfinished rfl rfl rfl
        | false =>
            cases hstep
            exact .ends rfl nofun (Or.inl rfl)
  | abort errorCode =>
      by_cases hfails : errorCode.has Reply.error = true
      · simp only [hfails, if_true] at hstep
        cases hstep
        exact resetOperation_advances errorCode
      · simp only [hfails] at hstep
        cases hstep

/-! ## Replies -/

inductive Takes (op : RawTransfer DataCommand)
    (parameters : TransferParameters) (code : ℕ)
    (following : RawTransferRun DataCommand) : Prop
  | ends :
      following.finished ≠ none →
      following.parameters = op.parametersAfter parameters code →
      Takes op parameters code following
  | goesOn :
      following.finished = none →
      following.parameters = op.parametersAfter parameters code →
      op.opState.Follows code following.op.opState →
      following.op.job = op.job →
      (following.op.opState = .transfer →
        op.RestartSettled parameters code) →
      Takes op parameters code following

theorem handReply_takes (code : ℕ) (env : RawTransferEnv)
    (hfinished : run.finished = none) :
    Takes run.op run.parameters code (run.handReply code env).1 := by
  unfold RawTransferRun.handReply
  have hparses := @RawTransfer.parseResponse_parses DataCommand run.op
    run.parameters env code
  cases hparses with
  | fails hresult hparameters =>
      simp only [hresult]
      exact .ends nofun hparameters
  | succeeds hresult hparameters _ _ _ =>
      simp only [hresult]
      exact .ends nofun hparameters
  | goesOn hresult hparameters hfollows hjob hrest =>
      simp only [hresult, if_true]
      exact .goesOn hfinished hparameters hfollows hjob hrest

theorem handReply_awaiting (code : ℕ) (env : RawTransferEnv) :
    (run.handReply code env).1.awaiting = run.awaiting := by
  unfold RawTransferRun.handReply
  dsimp only
  split_ifs <;> rfl

theorem handReply_sends_nothing (code : ℕ) (env : RawTransferEnv) :
    FtpConnection.sentCommand (run.handReply code env).2 = none := by
  unfold RawTransferRun.handReply
  dsimp only
  split_ifs <;> rfl

theorem step_final {code : ℕ} {env : RawTransferEnv}
    {command : RawTransferCommand DataCommand}
    (hfinished : run.finished = none) (hcode : code ≠ 1)
    (hawaiting : run.awaiting = [command])
    (hstep : run.step (.reply code env) = some (following, events)) :
    Takes run.op run.parameters code following ∧
      FtpConnection.sentCommand events = none ∧
      following.awaiting = [] := by
  unfold RawTransferRun.step at hstep
  rw [if_neg (not_not.mpr hfinished)] at hstep
  by_cases hsending : run.sending = true
  · simp only [hsending, if_true] at hstep
    cases hstep
  · simp only [if_neg hsending, RawTransferRun.parseResponse, if_neg hcode,
      hawaiting] at hstep
    have htakes := @handReply_takes { run with awaiting := [] } code env
      hfinished
    have hnothing :=
      @handReply_awaiting { run with awaiting := [] } code env
    have hquiet :=
      @handReply_sends_nothing { run with awaiting := [] } code env
    obtain ⟨rfl, rfl⟩ := Prod.mk.inj (Option.some.inj hstep)
    exact ⟨htakes, hquiet, hnothing⟩

theorem step_preliminary {env : RawTransferEnv}
    (hfinished : run.finished = none)
    (hstep : run.step (.reply 1 env) = some (following, events)) :
    Takes run.op run.parameters 1 following ∧
      FtpConnection.sentCommand events = none ∧
      following.awaiting = run.awaiting := by
  unfold RawTransferRun.step at hstep
  rw [if_neg (not_not.mpr hfinished)] at hstep
  by_cases hsending : run.sending = true
  · simp only [hsending, if_true] at hstep
    cases hstep
  · simp only [if_neg hsending, RawTransferRun.parseResponse, if_true]
      at hstep
    have htakes := @handReply_takes run 1 env hfinished
    have hnothing := @handReply_awaiting run 1 env
    have hquiet := @handReply_sends_nothing run 1 env
    obtain ⟨rfl, rfl⟩ := Prod.mk.inj (Option.some.inj hstep)
    exact ⟨htakes, hquiet, hnothing⟩

end RawTransferRun

end TabFtp
