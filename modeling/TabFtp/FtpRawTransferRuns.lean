import TabFtp.FtpRawTransfer

/-!
# The runs of a raw transfer

One raw transfer on top of the stack, with the replies on the control
connection, the data connection and the event that tells of its end, in any
order.  A server answers the commands in the order in which they were sent,
so a final reply belongs to the oldest command without one.
-/

namespace TabFtp

open LabelledRuns

/-- `awaiting` are the commands that `m_pendingReplies` counts, the oldest
first.  `transferSocket` is the data connection with `m_transferEndReason`.
While `sending`, `SendNextCommand` remains to be done; while `resolving`, the
event with the external address is still to come. -/
structure RawTransferRun (Verb : Type) where
  op : RawTransfer Verb
  parameters : TransferParameters
  awaiting : List (RawTransferCommand Verb)
  transferSocket : Option TransferEndReason
  sending : Bool
  resolving : Bool
  asyncWaiting : Bool
  finished : Option Reply
  deriving DecidableEq

/-- `transferSocketEnds` is the end of the data connection, `transferEnd` an
event that tells of the end of this data connection or of an earlier one.
`abort` is all that ends the operation from outside. -/
inductive RawTransferInput
  | sendNextCommand (env : RawTransferEnv)
  | reply (code : ℕ) (env : RawTransferEnv)
  | transferSocketEnds (reason : TransferEndReason)
  | transferEnd
  | externalIPAddress
  | asyncRequest
  | asyncReply (allow : Bool)
  | abort (errorCode : Reply)

inductive RawTransferEvent (Verb : Type)
  | sent (command : RawTransferCommand Verb)
  | preliminary
  | replied (command : RawTransferCommand Verb) (code : ℕ)
  | ended (res : Reply)
  deriving DecidableEq

namespace RawTransferRun

variable {Verb : Type}

/-- A raw transfer is pushed by `Send` of the operation below, when no reply
is awaited, with a new data connection. -/
def start (op : RawTransfer Verb) (parameters : TransferParameters) :
    RawTransferRun Verb where
  op := op
  parameters := parameters
  awaiting := []
  transferSocket := some .none
  sending := true
  resolving := false
  asyncWaiting := false
  finished := none

abbrev Answer (Verb : Type) :=
  RawTransferRun Verb × List (RawTransferEvent Verb)

/-- `ResetOperation` with the raw transfer on top. -/
def resetOperation (run : RawTransferRun Verb) (errorCode : Reply) :
    Answer Verb :=
  ({ run with
      op := run.op.resetOperation errorCode
      finished := some errorCode }, [.ended errorCode])

/-- One round of the loop of `SendNextCommand`. -/
def sendNextCommand (run : RawTransferRun Verb) (env : RawTransferEnv) :
    Answer Verb :=
  if run.asyncWaiting then ({ run with sending := false }, [])
  else
    let env := { env with hasTransferSocket := run.transferSocket.isSome }
    let sent := run.op.send run.parameters env
    let asks : Bool :=
      run.transferSocket.isSome && run.op.opState == .portPasv &&
        !run.op.bPasv && env.externalIPAddress == .wait
    let run := { run with
      op := sent.op
      parameters := sent.parameters
      awaiting := run.awaiting ++ sent.command.toList
      resolving := run.resolving || asks }
    let events := sent.command.toList.map RawTransferEvent.sent
    if sent.result = Reply.continued then (run, events)
    else if sent.result = Reply.wouldblock then
      ({ run with sending := false }, events)
    else
      let reset := run.resetOperation sent.result
      (reset.1, events ++ reset.2)

/-- `CFtpControlSocket::ParseResponse` once the reply has been counted. -/
def handReply (run : RawTransferRun Verb) (code : ℕ)
    (env : RawTransferEnv) : Answer Verb :=
  let parsed := run.op.parseResponse run.parameters env code
  let run := { run with op := parsed.op, parameters := parsed.parameters }
  if parsed.result = Reply.continued then ({ run with sending := true }, [])
  else run.resetOperation parsed.result

def parseResponse (run : RawTransferRun Verb) (code : ℕ)
    (env : RawTransferEnv) : Answer Verb :=
  if code = 1 then
    let handed := run.handReply code env
    (handed.1, .preliminary :: handed.2)
  else
    match run.awaiting with
    | [] => (run, [])
    | command :: awaiting =>
        let handed := { run with awaiting }.handReply code env
        (handed.1, .replied command code :: handed.2)

/-- `CTransferSocket::TransferEnd` -/
def endTransferSocket (run : RawTransferRun Verb)
    (reason : TransferEndReason) : RawTransferRun Verb :=
  if run.transferSocket = some .none then
    { run with transferSocket := some reason }
  else run

def transferEnd (run : RawTransferRun Verb) : Answer Verb :=
  match run.transferSocket with
  | none => (run, [])
  | some reason =>
      let ended := run.op.transferEnd reason
      let run := { run with op := ended.1 }
      match ended.2 with
      | none => (run, [])
      | some errorCode => run.resetOperation errorCode

def step (run : RawTransferRun Verb) (input : RawTransferInput) :
    Option (Answer Verb) :=
  if run.finished ≠ none then none
  else
    match input with
    | .sendNextCommand env =>
        if run.sending then some (run.sendNextCommand env) else none
    | .reply code env =>
        if run.sending then none else some (run.parseResponse code env)
    | .transferSocketEnds reason => some (run.endTransferSocket reason, [])
    | .transferEnd => if run.sending then none else some run.transferEnd
    | .externalIPAddress =>
        if run.sending || !run.resolving then none
        else some ({ run with resolving := false, sending := true }, [])
    | .asyncRequest =>
        if run.transferSocket.isSome then
          some ({ run with asyncWaiting := true }, [])
        else none
    | .asyncReply allow =>
        if run.sending || !run.asyncWaiting then none
        else
          let run := { run with asyncWaiting := false }
          if allow then some (run, [])
          else some (run.resetOperation Reply.canceled)
    | .abort errorCode =>
        if errorCode.has Reply.error then
          some (run.resetOperation errorCode)
        else none

end RawTransferRun

def rawTransferMachine (Verb : Type) :
    Machine (RawTransferRun Verb) RawTransferInput
      (RawTransferEvent Verb) where
  initial run :=
    ∃ cmd binary resumeOffset parameters,
      run = .start (.create cmd binary resumeOffset) parameters
  step := RawTransferRun.step

/-! ## Success -/

variable {Verb : Type}

def TransferAccepted (events : List (RawTransferEvent Verb)) : Prop :=
  ∃ verb code, (code = 2 ∨ code = 3) ∧
    .replied (.transfer verb) code ∈ events

/-- The operation ends with an error, or both connections have ended
well. -/
def EndsTruthfully (run : RawTransferRun Verb)
    (events : List (RawTransferEvent Verb)) : Prop :=
  ∀ res, .ended res ∈ events →
    Reply.has res Reply.error = true ∨
      res = Reply.ok ∧ TransferAccepted events ∧
        run.transferSocket = some .successful

/-- Preliminary replies come only to the transfer command. -/
def RawTransferRun.PreliminaryToTransfer (run : RawTransferRun Verb)
    (input : RawTransferInput) : Prop :=
  ∀ env, input = .reply 1 env →
    ∃ verb, run.awaiting.head? = some (.transfer verb)

def RawTransferState.Awaits :
    RawTransferState → RawTransferCommand Verb → Prop
  | .type, .type _ => True
  | .portPasv, .pasv | .portPasv, .epsv => True
  | .portPasv, .port _ | .portPasv, .eprt _ => True
  | .rest, .rest _ => True
  | .transfer, .transfer _ | .waittransferpre, .transfer _ => True
  | .waitfinish, .transfer _ | .waittransfer, .transfer _ => True
  | _, _ => False

/-- The states in which `Send` writes a command. -/
def RawTransferState.Writes : RawTransferState → Prop
  | .init | .type | .portPasv | .rest | .transfer => True
  | _ => False

/-- The operation waits for one reply at most, and for the reply to the
command of its state. -/
structure RawTransferRun.Lockstep (run : RawTransferRun Verb)
    (events : List (RawTransferEvent Verb)) : Prop where
  awaiting : ∀ command ∈ run.awaiting, run.op.opState.Awaits command
  single : run.awaiting.length ≤ 1
  sending : run.sending = true → run.op.opState.Writes → run.awaiting = []
  resolving : run.resolving = true →
    run.op.opState = .portPasv ∧ run.awaiting = [] ∧ run.sending = false
  ended : run.op.opState = .waittransferpre ∨
      run.op.opState = .waittransfer →
    run.op.transferEndReason = .successful →
      run.transferSocket = some .successful
  accepted : run.op.opState = .waitsocket → TransferAccepted events

/-! ## What `Send` and `ParseResponse` do -/

def RawTransferState.Follows (code : ℕ) :
    RawTransferState → RawTransferState → Prop
  | .type, .portPasv => code = 2 ∨ code = 3
  | .portPasv, .portPasv | .portPasv, .rest | .portPasv, .transfer => True
  | .rest, .transfer => True
  | .transfer, .waitfinish => code = 1
  | .transfer, .waitsocket => code = 2 ∨ code = 3
  | .waittransferpre, .waittransfer => code = 1
  | .waitfinish, .waitsocket => code = 2 ∨ code = 3
  | _, _ => False

namespace RawTransfer

variable {op : RawTransfer Verb} {parameters : TransferParameters}
  {env : RawTransferEnv}

/-- What neither `Send` nor a reply that lets the operation go on
changes. -/
def job (op : RawTransfer Verb) : Verb × Bool × ℤ × TransferEndReason :=
  (op.cmd, op.binary, op.resumeOffset, op.transferEndReason)

theorem job_cmd {before : RawTransfer Verb}
    (hjob : op.job = before.job) : op.cmd = before.cmd :=
  congrArg (fun job => job.1) hjob

theorem job_binary {before : RawTransfer Verb}
    (hjob : op.job = before.job) : op.binary = before.binary :=
  congrArg (fun job => job.2.1) hjob

theorem job_resumeOffset {before : RawTransfer Verb}
    (hjob : op.job = before.job) : op.resumeOffset = before.resumeOffset :=
  congrArg (fun job => job.2.2.1) hjob

theorem job_transferEndReason {before : RawTransfer Verb}
    (hjob : op.job = before.job) :
    op.transferEndReason = before.transferEndReason :=
  congrArg (fun job => job.2.2.2) hjob

def parametersAfter (op : RawTransfer Verb)
    (parameters : TransferParameters) (code : ℕ) : TransferParameters :=
  match op.opState with
  | .type =>
      if code = 2 ∨ code = 3 then
        { parameters with lastTypeBinary := if op.binary then 1 else 0 }
      else parameters
  | .rest =>
      if op.resumeOffset ≤ 0 then
        { parameters with sentRestartOffset := false }
      else parameters
  | _ => parameters

/-- Before the transfer command the server has no restart offset as far as the
client knows, or has got it just now. -/
def RestartSettled (op : RawTransfer Verb)
    (parameters : TransferParameters) (code : ℕ) : Prop :=
  op.opState = .portPasv ∧ op.resumeOffset ≤ 0 ∧
      parameters.sentRestartOffset = false ∨
    op.opState = .rest ∧ (0 < op.resumeOffset → code = 2 ∨ code = 3)

/-- A reply makes the operation fail, succeed after the end of the data
connection, or go on. -/
inductive Parses (op : RawTransfer Verb) (parameters : TransferParameters)
    (code : ℕ) (parsed : RawTransferParsed Verb) : Prop
  | fails :
      parsed.result = Reply.error →
      parsed.parameters = op.parametersAfter parameters code →
      Parses op parameters code parsed
  | succeeds :
      parsed.result = Reply.ok →
      parsed.parameters = op.parametersAfter parameters code →
      op.opState = .waittransferpre ∨ op.opState = .waittransfer →
      code = 2 ∨ code = 3 →
      op.transferEndReason = .successful → Parses op parameters code parsed
  | goesOn :
      parsed.result = Reply.continued →
      parsed.parameters = op.parametersAfter parameters code →
      op.opState.Follows code parsed.op.opState →
      parsed.op.job = op.job →
      (parsed.op.opState = .transfer → op.RestartSettled parameters code) →
      Parses op parameters code parsed

theorem parametersAfter_of_state {code : ℕ}
    (htype : op.opState ≠ .type) (hrest : op.opState ≠ .rest) :
    parameters = op.parametersAfter parameters code := by
  unfold parametersAfter
  cases hstate : op.opState with
  | type => exact absurd hstate htype
  | rest => exact absurd hstate hrest
  | init | portPasv | transfer | waitfinish | waittransferpre
  | waittransfer | waitsocket => rfl

theorem parses_fail {before : RawTransfer Verb} {code : ℕ}
    (hparameters : parameters = before.parametersAfter parameters code) :
    Parses before parameters code (op.fail parameters) :=
  .fails rfl hparameters

theorem parses_conclude {code : ℕ}
    (hstate : op.opState = .waittransferpre ∨ op.opState = .waittransfer)
    (hcode : code = 2 ∨ code = 3) :
    Parses op parameters code (op.conclude parameters) := by
  have hparameters : parameters = op.parametersAfter parameters code := by
    apply parametersAfter_of_state
    · rcases hstate with hstate | hstate <;> simp [hstate]
    · rcases hstate with hstate | hstate <;> simp [hstate]
  unfold conclude
  by_cases hreason : op.transferEndReason = .successful
  · rw [if_neg (not_not.mpr hreason)]
    exact .succeeds rfl hparameters hstate hcode hreason
  · rw [if_pos hreason]
    exact parses_fail hparameters

theorem parses_goOn {code : ℕ} {before : RawTransfer Verb}
    (hparameters : parameters = before.parametersAfter parameters code)
    (hfollows : before.opState.Follows code op.opState)
    (hjob : op.job = before.job) (hrest : op.opState ≠ .transfer) :
    Parses before parameters code (op.goOn parameters) :=
  .goesOn rfl hparameters hfollows hjob fun htransfer =>
    absurd htransfer hrest

theorem parses_afterPortPasv {code : ℕ} {before : RawTransfer Verb}
    (hstate : before.opState = .portPasv) (hjob : op.job = before.job) :
    Parses before parameters code (op.afterPortPasv parameters) := by
  have hparameters :
      parameters = before.parametersAfter parameters code := by
    apply parametersAfter_of_state <;> simp [hstate]
  unfold afterPortPasv
  by_cases hrest :
      (op.resumeOffset > 0 || parameters.sentRestartOffset) = true
  · simp only [hrest, if_true]
    exact parses_goOn hparameters (by rw [hstate]; exact trivial) hjob nofun
  · simp only [hrest]
    apply Parses.goesOn rfl hparameters
    · rw [hstate]
      exact trivial
    · exact hjob
    · intro _
      rw [job_resumeOffset hjob] at hrest
      simp only [Bool.or_eq_true, decide_eq_true_eq, not_or] at hrest
      exact Or.inl ⟨hstate, by omega, by simpa using hrest.2⟩

theorem tryOtherMode_parses (hstate : op.opState = .portPasv) (code : ℕ) :
    Parses op parameters code (op.tryOtherMode parameters) := by
  have hparameters : parameters = op.parametersAfter parameters code := by
    apply parametersAfter_of_state <;> simp [hstate]
  have hsame : op.opState.Follows code op.opState := by
    rw [hstate]
    exact trivial
  have hrest : op.opState ≠ .transfer := by simp [hstate]
  unfold tryOtherMode
  by_cases hpasv : op.bTriedPasv = true
  · rw [if_pos hpasv]
    by_cases hactive : op.bTriedActive = true
    · rw [if_pos hactive]
      exact parses_fail hparameters
    · rw [if_neg hactive]
      exact parses_goOn hparameters hsame rfl hrest
  · rw [if_neg hpasv]
    exact parses_goOn hparameters hsame rfl hrest

theorem parsePortPasv_parses (hstate : op.opState = .portPasv) (code : ℕ) :
    Parses op parameters code (op.parsePortPasv parameters env code) := by
  have hparameters : parameters = op.parametersAfter parameters code := by
    apply parametersAfter_of_state <;> simp [hstate]
  have hsame : op.opState.Follows code op.opState := by
    rw [hstate]
    exact trivial
  have hrest : op.opState ≠ .transfer := by simp [hstate]
  unfold parsePortPasv
  by_cases hcode : code ≠ 2 ∧ code ≠ 3
  · rw [if_pos hcode]
    by_cases hfallback : (!env.allowTransfermodeFallback) = true
    · rw [if_pos hfallback]
      exact parses_fail hparameters
    · rw [if_neg hfallback]
      exact tryOtherMode_parses hstate code
  · rw [if_neg hcode]
    by_cases hpasv : op.bPasv = true
    · rw [if_pos hpasv]
      dsimp only
      cases parsePassiveResponse { op with bTriedPasv := true } env with
      | some endpoint => exact parses_afterPortPasv hstate rfl
      | none =>
          by_cases hfallback : (!env.allowTransfermodeFallback) = true
          · simp only [hfallback, if_true]
            exact parses_fail hparameters
          · simp only [hfallback]
            by_cases hactive : (!op.bTriedActive) = true
            · rw [if_pos hactive]
              exact parses_goOn hparameters hsame rfl hrest
            · rw [if_neg hactive]
              exact parses_fail hparameters
    · rw [if_neg hpasv]
      exact parses_afterPortPasv hstate rfl

theorem parseType_parses (hstate : op.opState = .type) (code : ℕ) :
    Parses op parameters code (op.parseResponse parameters env code) := by
  unfold parseResponse
  rw [hstate]
  by_cases hcode : code ≠ 2 ∧ code ≠ 3
  · have hrefused : ¬ (code = 2 ∨ code = 3) := by omega
    simp only [if_pos hcode]
    apply parses_fail
    simp only [parametersAfter, hstate, if_neg hrefused]
  · have haccepted : code = 2 ∨ code = 3 := by omega
    simp only [if_neg hcode]
    apply Parses.goesOn rfl
    · simp only [goOn, parametersAfter, hstate, if_pos haccepted]
    · rw [hstate]
      exact haccepted
    · rfl
    · nofun

theorem parseRest_parses (hstate : op.opState = .rest) (code : ℕ) :
    Parses op parameters code (op.parseResponse parameters env code) := by
  unfold parseResponse
  rw [hstate]
  dsimp only
  by_cases hcode : op.resumeOffset > 0 ∧ code ≠ 2 ∧ code ≠ 3
  · rw [if_pos hcode]
    apply Parses.fails rfl
    simp only [fail, parametersAfter, hstate]
  · rw [if_neg hcode]
    apply Parses.goesOn rfl
    · simp only [goOn, parametersAfter, hstate]
    · rw [hstate]
      exact trivial
    · rfl
    · intro _
      exact Or.inr ⟨hstate, by omega⟩

theorem parseResponse_parses (code : ℕ) :
    Parses op parameters code (op.parseResponse parameters env code) := by
  have hparameters
      (htype : op.opState ≠ .type) (hrest : op.opState ≠ .rest) :
      parameters = op.parametersAfter parameters code :=
    parametersAfter_of_state htype hrest
  cases hstate : op.opState with
  | type => exact parseType_parses hstate code
  | rest => exact parseRest_parses hstate code
  | portPasv =>
      unfold parseResponse
      rw [hstate]
      exact parsePortPasv_parses hstate code
  | init =>
      rw [hstate] at hparameters
      unfold parseResponse
      rw [hstate]
      exact parses_fail (hparameters nofun nofun)
  | waitsocket =>
      rw [hstate] at hparameters
      unfold parseResponse
      rw [hstate]
      exact parses_fail (hparameters nofun nofun)
  | transfer =>
      rw [hstate] at hparameters
      unfold parseResponse
      rw [hstate]
      by_cases hfirst : code = 1
      · simp only [if_pos hfirst]
        exact parses_goOn (hparameters nofun nofun)
          (by rw [hstate]; exact hfirst) rfl nofun
      · simp only [if_neg hfirst]
        by_cases hfinal : code = 2 ∨ code = 3
        · rw [if_pos hfinal]
          exact parses_goOn (hparameters nofun nofun)
            (by rw [hstate]; exact hfinal) rfl nofun
        · rw [if_neg hfinal]
          exact parses_fail (hparameters nofun nofun)
  | waittransferpre =>
      rw [hstate] at hparameters
      unfold parseResponse
      rw [hstate]
      by_cases hfirst : code = 1
      · simp only [if_pos hfirst]
        exact parses_goOn (hparameters nofun nofun)
          (by rw [hstate]; exact hfirst) rfl nofun
      · simp only [if_neg hfirst]
        by_cases hfinal : code = 2 ∨ code = 3
        · rw [if_pos hfinal]
          exact parses_conclude (Or.inl hstate) hfinal
        · rw [if_neg hfinal]
          exact parses_fail (hparameters nofun nofun)
  | waitfinish =>
      rw [hstate] at hparameters
      unfold parseResponse
      rw [hstate]
      by_cases hcode : code ≠ 2 ∧ code ≠ 3
      · simp only [if_pos hcode]
        exact parses_fail (hparameters nofun nofun)
      · simp only [if_neg hcode]
        have hfinal : code = 2 ∨ code = 3 := by omega
        exact parses_goOn (hparameters nofun nofun)
          (by rw [hstate]; exact hfinal) rfl nofun
  | waittransfer =>
      rw [hstate] at hparameters
      unfold parseResponse
      rw [hstate]
      by_cases hcode : code ≠ 2 ∧ code ≠ 3
      · simp only [if_pos hcode]
        exact parses_fail (hparameters nofun nofun)
      · simp only [if_neg hcode]
        exact parses_conclude (Or.inr hstate) (by omega)

/-- The command that `Send` may write. -/
def Writes (op : RawTransfer Verb) : RawTransferCommand Verb → Prop
  | .type binary => op.opState = .type ∧ binary = op.binary
  | .pasv | .epsv | .port _ | .eprt _ => op.opState = .portPasv
  | .rest offset => op.opState = .rest ∧ offset = op.resumeOffset
  | .transfer verb => op.opState = .transfer ∧ verb = op.cmd

theorem Writes.writes {command : RawTransferCommand Verb}
    (hwrites : op.Writes command) : op.opState.Writes := by
  cases command with
  | type | rest | transfer =>
      rw [hwrites.1]
      exact trivial
  | pasv | epsv | port | eprt =>
      have hstate : op.opState = .portPasv := hwrites
      rw [hstate]
      exact trivial

theorem Writes.awaits {command : RawTransferCommand Verb}
    (hwrites : op.Writes command) : op.opState.Awaits command := by
  cases command with
  | type | rest | transfer =>
      rw [hwrites.1]
      exact trivial
  | pasv | epsv | port | eprt =>
      have hstate : op.opState = .portPasv := hwrites
      rw [hstate]
      exact trivial

end RawTransfer

def TransferParameters.sending (parameters : TransferParameters) :
    RawTransferCommand Verb → TransferParameters
  | .type _ => { parameters with lastTypeBinary := -1 }
  | .rest offset =>
      if offset > 0 then { parameters with sentRestartOffset := true }
      else parameters
  | .pasv | .epsv | .port _ | .eprt _ | .transfer _ => parameters

namespace RawTransfer

variable {op : RawTransfer Verb} {parameters : TransferParameters}
  {env : RawTransferEnv}

/-- The first state after the initial one. -/
def Begins (op : RawTransfer Verb) (parameters : TransferParameters) :
    RawTransferState → Prop
  | .type => True
  | .portPasv => parameters.lastTypeBinary = if op.binary then 1 else 0
  | _ => False

/-- `Send` writes at most one command, one of the state; it fails, waits, or
goes on from the initial state. -/
inductive Sends (op : RawTransfer Verb) (parameters : TransferParameters)
    (sent : RawTransferSent Verb) : Prop
  | fails :
      sent.result.has Reply.error = true → sent.command = none →
      (sent.parameters = parameters ∨
        ∃ command, op.Writes command ∧
          sent.parameters = parameters.sending command) →
      Sends op parameters sent
  | waits :
      sent.result = Reply.wouldblock → sent.command = none →
      sent.parameters = parameters → sent.op.opState = op.opState →
      sent.op.job = op.job → Sends op parameters sent
  | writes (command : RawTransferCommand Verb) :
      sent.result = Reply.wouldblock → sent.command = some command →
      op.Writes command → sent.parameters = parameters.sending command →
      sent.op.opState = op.opState → sent.op.job = op.job →
      Sends op parameters sent
  | starts :
      sent.result = Reply.continued → sent.command = none →
      op.opState = .init → sent.parameters = parameters →
      op.Begins parameters sent.op.opState → sent.op.job = op.job →
      Sends op parameters sent

theorem error_fails : Reply.error.has Reply.error = true := by decide

theorem internalerror_fails :
    Reply.internalerror.has Reply.error = true := by decide

theorem sendCommand_sends {before : RawTransfer Verb}
    {remembered : TransferParameters} {command : RawTransferCommand Verb}
    (hwrites : before.Writes command)
    (hparameters : parameters = remembered.sending command)
    (hstate : op.opState = before.opState) (hjob : op.job = before.job) :
    Sends before remembered (op.sendCommand parameters env command) := by
  unfold sendCommand
  by_cases hsends : env.sendsCommand = true
  · rw [if_pos hsends]
    exact .writes command rfl rfl hwrites hparameters hstate hjob
  · rw [if_neg hsends]
    exact .fails error_fails rfl (Or.inr ⟨command, hwrites, hparameters⟩)

theorem sendPassive_sends {before : RawTransfer Verb}
    (hpasv : before.opState = .portPasv)
    (hstate : op.opState = before.opState) (hjob : op.job = before.job) :
    Sends before parameters (op.sendPassive parameters env) := by
  have hwrites : before.Writes
      (passiveCommand env : RawTransferCommand Verb) := by
    unfold passiveCommand
    split_ifs <;> exact hpasv
  have hparameters : parameters = parameters.sending
      (passiveCommand env : RawTransferCommand Verb) := by
    unfold passiveCommand
    split_ifs <;> rfl
  exact sendCommand_sends hwrites hparameters hstate hjob

theorem sendFallback_sends (hstate : op.opState = .portPasv) :
    Sends op parameters (op.sendFallback parameters env) := by
  unfold sendFallback
  by_cases htried :
      (!env.allowTransfermodeFallback || op.bTriedPasv) = true
  · rw [if_pos htried]
    exact .fails error_fails rfl (Or.inl rfl)
  · rw [if_neg htried]
    exact sendPassive_sends hstate rfl rfl

theorem sendPortPasv_sends (hstate : op.opState = .portPasv) :
    Sends op parameters (op.sendPortPasv parameters env) := by
  unfold sendPortPasv
  by_cases hpasv : op.bPasv = true
  · rw [if_pos hpasv]
    exact sendPassive_sends hstate rfl rfl
  · rw [if_neg hpasv]
    cases env.externalIPAddress with
    | wait => exact .waits rfl rfl rfl rfl rfl
    | failed => exact sendFallback_sends hstate
    | found address =>
        by_cases hempty :
            (env.setupActiveTransfer address).isEmpty = true
        · simp only [hempty, if_true]
          exact sendFallback_sends hstate
        · simp only [if_neg hempty]
          cases env.ipv6 with
          | true => exact sendCommand_sends hstate rfl rfl rfl
          | false => exact sendCommand_sends hstate rfl rfl rfl

theorem sendInit_job :
    (op.sendInit parameters env).op.job = op.job := by
  unfold sendInit
  dsimp only
  split_ifs
  · rfl
  · rfl
  · cases env.pasvMode <;> rfl
  · cases env.pasvMode <;> rfl

theorem sendInit_begins :
    op.Begins parameters (op.sendInit parameters env).op.opState := by
  have hstate : (op.sendInit parameters env).op.opState =
      if (op.binary && parameters.lastTypeBinary == 1) ||
          (!op.binary && parameters.lastTypeBinary == 0) then
        RawTransferState.portPasv
      else .type := by
    unfold sendInit
    dsimp only
    cases env.proxyLayer with
    | true => rfl
    | false => cases env.pasvMode <;> rfl
  rw [hstate]
  by_cases hsame :
      ((op.binary && parameters.lastTypeBinary == 1) ||
        (!op.binary && parameters.lastTypeBinary == 0)) = true
  · rw [if_pos hsame]
    simp only [Bool.or_eq_true, Bool.and_eq_true, beq_iff_eq,
      Bool.not_eq_true'] at hsame
    rcases hsame with ⟨hbinary, hlast⟩ | ⟨hbinary, hlast⟩ <;>
      simp [Begins, hbinary, hlast]
  · rw [if_neg hsame]
    exact trivial

theorem send_sends : Sends op parameters (op.send parameters env) := by
  unfold send
  by_cases hsocket : (!env.hasTransferSocket) = true
  · rw [if_pos hsocket]
    exact .fails internalerror_fails rfl (Or.inl rfl)
  · rw [if_neg hsocket]
    cases hstate : op.opState with
    | init =>
        exact .starts rfl rfl hstate rfl sendInit_begins sendInit_job
    | type =>
        have hwrites : op.Writes (.type op.binary) := ⟨hstate, rfl⟩
        exact sendCommand_sends hwrites rfl rfl rfl
    | portPasv => exact sendPortPasv_sends hstate
    | rest =>
        have hwrites : op.Writes (.rest op.resumeOffset) := ⟨hstate, rfl⟩
        exact sendCommand_sends hwrites rfl rfl rfl
    | transfer =>
        have hwrites : op.Writes (.transfer op.cmd) := ⟨hstate, rfl⟩
        by_cases hpassive :
            (op.bPasv && !env.setupPassiveTransfer op.host op.port) = true
        · simp only [hpassive, if_true]
          exact .fails error_fails rfl (Or.inl rfl)
        · simp only [if_neg hpassive]
          exact sendCommand_sends hwrites rfl hstate.symm rfl
    | waitfinish | waittransferpre | waittransfer | waitsocket =>
        exact .waits rfl rfl rfl rfl rfl

/-- The end of the data connection is noted, or ends the operation. -/
inductive Ends (op : RawTransfer Verb) (reason : TransferEndReason)
    (ended : RawTransfer Verb × Option Reply) : Prop
  | fails (errorCode : Reply) :
      ended.2 = some errorCode → errorCode.has Reply.error = true →
      Ends op reason ended
  | succeeds :
      ended.2 = some Reply.ok → op.opState = .waitsocket →
      reason = .successful → Ends op reason ended
  | ignored :
      ended.2 = none → ended.1.opState = op.opState →
      (ended.1.transferEndReason = .successful →
        op.transferEndReason = .successful) → Ends op reason ended
  | moves :
      ended.2 = none →
      op.opState = .transfer ∧ ended.1.opState = .waittransferpre ∨
        op.opState = .waitfinish ∧ ended.1.opState = .waittransfer →
      (ended.1.transferEndReason = .successful → reason = .successful) →
      Ends op reason ended

theorem endWith_successful {reason : TransferEndReason}
    (hend : (op.endWith reason).transferEndReason = .successful) :
    op.transferEndReason = .successful ∧ reason = .successful := by
  unfold endWith at hend
  by_cases hop : op.transferEndReason = .successful
  · rw [if_pos hop] at hend
    exact ⟨hop, hend⟩
  · rw [if_neg hop] at hend
    exact absurd hend hop

theorem endWith_opState (reason : TransferEndReason) :
    (op.endWith reason).opState = op.opState := by
  unfold endWith
  split_ifs <;> rfl

theorem disconnected_fails :
    (Reply.error ||| Reply.disconnected).has Reply.error = true := by decide

theorem transferEnd_ends (reason : TransferEndReason) :
    Ends op reason (op.transferEnd reason) := by
  unfold transferEnd
  by_cases hnone : reason = .none
  · rw [if_pos hnone]
    exact .ignored rfl rfl id
  · rw [if_neg hnone]
    by_cases htls : reason = .failedTlsResumption
    · simp only [if_pos htls]
      exact .fails _ rfl disconnected_fails
    · simp only [if_neg htls, endWith_opState]
      cases hstate : op.opState with
      | transfer =>
          exact .moves rfl (Or.inl ⟨hstate, rfl⟩)
            fun hend => (endWith_successful hend).2
      | waitfinish =>
          exact .moves rfl (Or.inr ⟨hstate, rfl⟩)
            fun hend => (endWith_successful hend).2
      | waitsocket =>
          by_cases hreason : reason = .successful
          · simp only [if_pos hreason]
            exact .succeeds rfl hstate hreason
          · simp only [if_neg hreason]
            exact .fails _ rfl error_fails
      | init | type | portPasv | rest | waittransferpre | waittransfer =>
          exact .ignored rfl (endWith_opState reason)
            fun hend => (endWith_successful hend).1

end RawTransfer

end TabFtp
