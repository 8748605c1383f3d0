import TabFtp.FtpFileTransfer
import TabFtp.ServerIdentity

/-!
# The raw transfer of FTP

`CFtpRawTransferOpData` sets the representation type, arranges the data
connection, sets the restart offset and sends the transfer command of the
operation below it.  Then it waits for the replies to that command and for
the end of the data connection, which come in any order.

The listening socket, the addresses and the options are read anew in every
step, so they are part of the input.
-/

namespace TabFtp

inductive RawTransferState
  | init | type | portPasv | rest | transfer
  | waitfinish | waittransferpre | waittransfer | waitsocket
  deriving DecidableEq

/-- What the operation sends.  The transfer command itself comes from the
operation below. -/
inductive RawTransferCommand (Verb : Type)
  | type (binary : Bool)
  | pasv
  | epsv
  | port (argument : WString)
  | eprt (argument : WString)
  | rest (offset : ℤ)
  | transfer (verb : Verb)
  deriving DecidableEq

/-- The operation and, from `binary` on, what it uses of the data of the
operation below. -/
structure RawTransfer (Verb : Type) where
  opState : RawTransferState
  cmd : Verb
  bPasv : Bool
  bTriedPasv : Bool
  bTriedActive : Bool
  host : WString
  port : ℕ
  binary : Bool
  resumeOffset : ℤ
  transferCommandSent : Bool
  transferEndReason : TransferEndReason
  deriving DecidableEq

structure TransferParameters where
  lastTypeBinary : ℤ
  sentRestartOffset : Bool
  deriving DecidableEq

/-- The result of `GetExternalIPAddress`. -/
inductive ExternalAddress
  | wait | found (address : String) | failed
  deriving DecidableEq

/-- What a call finds outside of the operation.  An empty port argument means
that there is no listening socket; `parseEpsv` and `parsePasv` are the
parsers of the reply at hand, the latter with the flag that it reads. -/
structure RawTransferEnv where
  hasTransferSocket : Bool
  proxyLayer : Bool
  pasvMode : PasvMode
  usePasv : Bool
  allowTransfermodeFallback : Bool
  ipv6 : Bool
  epsvCommand : CapabilityState
  externalIPAddress : ExternalAddress
  setupActiveTransfer : String → WString
  setupPassiveTransfer : WString → ℕ → Bool
  parseEpsv : Option (WString × ℕ)
  parsePasv : Bool → Option (WString × ℕ)
  sendsCommand : Bool

variable {Verb : Type}

/-- `CFtpControlSocket::Transfer`, with the fields of the operation below. -/
def RawTransfer.create (cmd : Verb) (binary : Bool) (resumeOffset : ℤ) :
    RawTransfer Verb where
  opState := .init
  cmd := cmd
  bPasv := true
  bTriedPasv := false
  bTriedActive := false
  host := []
  port := 0
  binary := binary
  resumeOffset := resumeOffset
  transferCommandSent := false
  transferEndReason := .successful

/-- The operation after `Send`, the command if one was written, and the
result. -/
structure RawTransferSent (Verb : Type) where
  op : RawTransfer Verb
  parameters : TransferParameters
  command : Option (RawTransferCommand Verb)
  result : Reply

structure RawTransferParsed (Verb : Type) where
  op : RawTransfer Verb
  parameters : TransferParameters
  result : Reply

namespace RawTransfer

variable (op : RawTransfer Verb) (parameters : TransferParameters)
  (env : RawTransferEnv)

/-- `CFtpControlSocket::SendCommand`, which fails when the text has no 8 bit
form. -/
def sendCommand (command : RawTransferCommand Verb) : RawTransferSent Verb :=
  if env.sendsCommand then ⟨op, parameters, some command, Reply.wouldblock⟩
  else ⟨op, parameters, none, Reply.error⟩

/-- `GetPassiveCommand` without the mark that it leaves. -/
def passiveCommand : RawTransferCommand Verb :=
  if env.proxyLayer then
    if env.epsvCommand = .yes then .epsv else .pasv
  else if env.ipv6 then .epsv
  else .pasv

def sendPassive : RawTransferSent Verb :=
  { op with bTriedPasv := true }.sendCommand parameters env
    (passiveCommand env)

def sendFallback : RawTransferSent Verb :=
  if !env.allowTransfermodeFallback || op.bTriedPasv then
    ⟨op, parameters, none, Reply.error⟩
  else
    { op with bTriedActive := true, bPasv := true }.sendPassive
      parameters env

def sendPortPasv : RawTransferSent Verb :=
  if op.bPasv then op.sendPassive parameters env
  else
    match env.externalIPAddress with
    | .wait => ⟨op, parameters, none, Reply.wouldblock⟩
    | .failed => op.sendFallback parameters env
    | .found address =>
        let portArgument := env.setupActiveTransfer address
        if portArgument.isEmpty then op.sendFallback parameters env
        else
          { op with bTriedActive := true }.sendCommand parameters env
            (if env.ipv6 then .eprt portArgument else .port portArgument)

/-- The state `rawtransfer_init`. -/
def sendInit : RawTransferSent Verb :=
  let opState :=
    if (op.binary && parameters.lastTypeBinary == 1) ||
        (!op.binary && parameters.lastTypeBinary == 0) then
      RawTransferState.portPasv
    else .type
  let op := { op with opState }
  let op :=
    if env.proxyLayer then { op with bPasv := true, bTriedActive := true }
    else
      match env.pasvMode with
      | .passive => { op with bPasv := true }
      | .active => { op with bPasv := false }
      | .default => { op with bPasv := env.usePasv }
  ⟨op, parameters, none, Reply.continued⟩

def send : RawTransferSent Verb :=
  if !env.hasTransferSocket then
    ⟨op, parameters, none, Reply.internalerror⟩
  else
    match op.opState with
    | .init => op.sendInit parameters env
    | .type =>
        op.sendCommand { parameters with lastTypeBinary := -1 } env
          (.type op.binary)
    | .portPasv => op.sendPortPasv parameters env
    | .rest =>
        let parameters :=
          if op.resumeOffset > 0 then
            { parameters with sentRestartOffset := true }
          else parameters
        op.sendCommand parameters env (.rest op.resumeOffset)
    | .transfer =>
        if op.bPasv && !env.setupPassiveTransfer op.host op.port then
          ⟨op, parameters, none, Reply.error⟩
        else
          { op with transferCommandSent := true }.sendCommand parameters env
            (.transfer op.cmd)
    | .waitfinish | .waittransferpre | .waittransfer | .waitsocket =>
        ⟨op, parameters, none, Reply.wouldblock⟩

/-! ## Replies -/

def goOn : RawTransferParsed Verb := ⟨op, parameters, Reply.continued⟩

def fail : RawTransferParsed Verb := ⟨op, parameters, Reply.error⟩

def afterPortPasv : RawTransferParsed Verb :=
  let opState :=
    if op.resumeOffset > 0 || parameters.sentRestartOffset then
      RawTransferState.rest
    else .transfer
  { op with opState }.goOn parameters

def tryOtherMode : RawTransferParsed Verb :=
  if op.bTriedPasv then
    if op.bTriedActive then op.fail parameters
    else { op with bPasv := false }.goOn parameters
  else { op with bPasv := true }.goOn parameters

def parsePassiveResponse : Option (WString × ℕ) :=
  match (passiveCommand env : RawTransferCommand Unit) with
  | .epsv => env.parseEpsv
  | _ => env.parsePasv op.bTriedActive

def parsePortPasv (code : ℕ) : RawTransferParsed Verb :=
  if code ≠ 2 ∧ code ≠ 3 then
    if !env.allowTransfermodeFallback then op.fail parameters
    else op.tryOtherMode parameters
  else if op.bPasv then
    let op := { op with bTriedPasv := true }
    match op.parsePassiveResponse env with
    | some (host, port) => { op with host, port }.afterPortPasv parameters
    | none =>
        if !env.allowTransfermodeFallback then op.fail parameters
        else if !op.bTriedActive then
          { op with bPasv := false }.goOn parameters
        else op.fail parameters
  else op.afterPortPasv parameters

def endWith (reason : TransferEndReason) : RawTransfer Verb :=
  if op.transferEndReason = .successful then
    { op with transferEndReason := reason }
  else op

def conclude : RawTransferParsed Verb :=
  if op.transferEndReason ≠ .successful then op.fail parameters
  else ⟨op, parameters, Reply.ok⟩

def parseResponse (code : ℕ) : RawTransferParsed Verb :=
  match op.opState with
  | .init => op.fail parameters
  | .type =>
      if code ≠ 2 ∧ code ≠ 3 then op.fail parameters
      else
        { op with opState := .portPasv }.goOn
          { parameters with
            lastTypeBinary := if op.binary then 1 else 0 }
  | .portPasv => op.parsePortPasv parameters env code
  | .rest =>
      let parameters :=
        if op.resumeOffset ≤ 0 then
          { parameters with sentRestartOffset := false }
        else parameters
      if op.resumeOffset > 0 ∧ code ≠ 2 ∧ code ≠ 3 then op.fail parameters
      else { op with opState := .transfer }.goOn parameters
  | .transfer =>
      if code = 1 then { op with opState := .waitfinish }.goOn parameters
      else if code = 2 ∨ code = 3 then
        { op with opState := .waitsocket }.goOn parameters
      else
        (op.endWith .transferCommandFailureImmediate).fail parameters
  | .waittransferpre =>
      if code = 1 then { op with opState := .waittransfer }.goOn parameters
      else if code = 2 ∨ code = 3 then op.conclude parameters
      else
        (op.endWith .transferCommandFailureImmediate).fail parameters
  | .waitfinish =>
      if code ≠ 2 ∧ code ≠ 3 then
        (op.endWith .transferCommandFailure).fail parameters
      else { op with opState := .waitsocket }.goOn parameters
  | .waittransfer =>
      if code ≠ 2 ∧ code ≠ 3 then
        (op.endWith .transferCommandFailure).fail parameters
      else op.conclude parameters
  | .waitsocket => op.fail parameters

/-! ## The end of the data connection -/

/-- `CFtpControlSocket::TransferEnd` with the reason of the data connection.
The second result is the code with which the operation ends. -/
def transferEnd (reason : TransferEndReason) :
    RawTransfer Verb × Option Reply :=
  if reason = .none then (op, none)
  else
    let op := op.endWith reason
    if reason = .failedTlsResumption then
      (op, some (Reply.error ||| Reply.disconnected))
    else
      match op.opState with
      | .transfer => ({ op with opState := .waittransferpre }, none)
      | .waitfinish => ({ op with opState := .waittransfer }, none)
      | .waitsocket =>
          (op, some (if reason = .successful then Reply.ok else Reply.error))
      | _ => (op, none)

/-- What `CFtpControlSocket::ResetOperation` tells the operation below. -/
def resetOperation (errorCode : Reply) : RawTransfer Verb :=
  if errorCode = Reply.ok then op
  else if errorCode.has Reply.timeout then op.endWith .timeout
  else if !op.transferCommandSent then op.endWith .preTransferCommandFailure
  else op.endWith .failure

end RawTransfer

end TabFtp
