import TabFtp.FtpRawTransferOutcome

/-!
# Transfers on a control connection

The raw transfers on one control connection after the other, between
keep-alives, raw commands, cancelled operations and all other operations.
The server answers every command with one final reply, in the order of the
commands; only a transfer command may get preliminary replies before it.

The server takes a command when it is sent, and the reply to it comes later.
So `server` is the state after all commands that have been sent, and `answers`
are the replies that are still to come.
-/

namespace TabFtp

open LabelledRuns

inductive DataCommand
  | file (verb : TransferVerb) | list | mlsd
  deriving DecidableEq

inductive ServerCommand
  | type (binary : Bool)
  | rest (offset : ℤ)
  | data
  | other
  deriving DecidableEq

def RawTransferCommand.meaning {Verb : Type} :
    RawTransferCommand Verb → ServerCommand
  | .type binary => .type binary
  | .rest offset => .rest offset
  | .transfer _ => .data
  | .pasv | .epsv | .port _ | .eprt _ => .other

structure FtpServer where
  binary : Bool
  offset : ℤ
  deriving DecidableEq

/-- The code of the final reply to a command, and whether the server forgets
its restart offset on a command other than `TYPE` and `REST`. -/
structure ServerAnswer where
  code : ℕ
  forgets : Bool

def ServerAnswer.accepts (answer : ServerAnswer) : Bool :=
  answer.code = 2 || answer.code = 3

def FtpServer.execute (server : FtpServer) (command : ServerCommand)
    (answer : ServerAnswer) : FtpServer :=
  match command with
  | .type binary =>
      if answer.accepts then { server with binary } else server
  | .rest offset =>
      if answer.accepts then { server with offset } else server
  | .data | .other =>
      if answer.forgets then { server with offset := 0 } else server

inductive FtpOperation
  | logon | other
  | rawCommand (command : ServerCommand) (sent : Bool)
  deriving DecidableEq

/-- `transfer` is the raw transfer, which is on top of `operations`. -/
structure FtpConnection where
  parameters : TransferParameters
  operations : List FtpOperation
  transfer : Option (RawTransferRun DataCommand)
  pendingReplies : ℕ
  repliesToSkip : ℕ
  connected : Bool
  server : FtpServer
  answers : List (ServerCommand × ℕ)

inductive KeepAlive
  | noop | type | pwd

/-- A command for a data connection has been sent, for an operation with these
wishes, to a server in this state. -/
inductive ConnectionEvent
  | dataCommand (verb : DataCommand) (binary : Bool) (resumeOffset : ℤ)
      (server : FtpServer)
  deriving DecidableEq

/-- `transferFile` and `list` are `Send` of the operations that start a raw
transfer, `operationSends` is `Send` of any other one. -/
inductive ConnectionInput
  | start (operation : FtpOperation)
  | onConnect (binary : Bool) (code : ℕ)
  | onTlsConnect
  | operationSends (command : ServerCommand) (answer : ServerAnswer)
  | sendRawCommand (sends : Bool) (answer : ServerAnswer)
  | push
  | transferFile (op : FileTransfer) (env : TransferEnv)
  | list (mlsd : Bool)
  | transfer (input : RawTransferInput) (answer : ServerAnswer)
  | reply (env : RawTransferEnv)
  | preliminary (env : RawTransferEnv)
  | endOperation
  | onTimer (keepAlive : KeepAlive) (answer : ServerAnswer)
  | doClose

namespace FtpConnection

abbrev Answer := FtpConnection × List ConnectionEvent

/-- `SendCommand`, and the server that gets the command. -/
def sendCommand (connection : FtpConnection) (command : ServerCommand)
    (answer : ServerAnswer) : FtpConnection :=
  { connection with
    pendingReplies := connection.pendingReplies + 1
    server := connection.server.execute command answer
    answers := connection.answers ++ [(command, answer.code)] }

/-- `ResetOperation` of the operation on top. -/
def resetOperation (connection : FtpConnection) : FtpConnection :=
  { connection with
    operations := connection.operations.tail
    repliesToSkip := connection.pendingReplies }

/-! ## Starting operations -/

/-- `Push` of the first operation, below a logon if there is no
connection. -/
def start (connection : FtpConnection) (operation : FtpOperation) :
    FtpConnection :=
  { connection with
    operations :=
      if connection.connected ∨ operation = .logon then [operation]
      else [.logon, operation] }

def onConnect (connection : FtpConnection) (binary : Bool) (code : ℕ) :
    FtpConnection :=
  { connection with
    parameters := ⟨-1, false⟩
    pendingReplies := 1
    connected := true
    server := ⟨binary, 0⟩
    answers := [(.other, code)] }

def createTransfer (connection : FtpConnection)
    (op : RawTransfer DataCommand) : FtpConnection :=
  { connection with
    transfer := some (.start op connection.parameters) }

/-- The raw transfer that `Send` of the operation below has started. -/
def startedTransfer (outcome : TransferOutcome) :
    Option (RawTransfer DataCommand) :=
  outcome.events.findSome? fun
    | .transfer command =>
        some (.create (.file command.verb) outcome.op.binary
          outcome.op.resumeOffset.toInt)
    | _ => none

/-! ## Sending -/

def sendRawCommand (connection : FtpConnection) (command : ServerCommand)
    (sends : Bool) (answer : ServerAnswer) : FtpConnection :=
  let connection := { connection with
    parameters := { connection.parameters with lastTypeBinary := -1 }
    operations := .rawCommand command true :: connection.operations.tail }
  if sends then connection.sendCommand command answer
  else connection.resetOperation

def keepAliveCommand (connection : FtpConnection) :
    KeepAlive → ServerCommand
  | .noop | .pwd => .other
  | .type => .type (connection.parameters.lastTypeBinary ≠ 0)

def onTimer (connection : FtpConnection) (keepAlive : KeepAlive)
    (answer : ServerAnswer) : FtpConnection :=
  let connection :=
    connection.sendCommand (connection.keepAliveCommand keepAlive) answer
  { connection with repliesToSkip := connection.repliesToSkip + 1 }

def sentCommand (events : List (RawTransferEvent DataCommand)) :
    Option (RawTransferCommand DataCommand) :=
  events.findSome? fun
    | .sent command => some command
    | _ => none

def deliver (connection : FtpConnection)
    (command : Option (RawTransferCommand DataCommand))
    (answer : ServerAnswer) : FtpConnection :=
  match command with
  | none => connection
  | some command => connection.sendCommand command.meaning answer

def dataEvents (connection : FtpConnection)
    (op : RawTransfer DataCommand)
    (command : Option (RawTransferCommand DataCommand)) :
    List ConnectionEvent :=
  match command with
  | some (.transfer verb) =>
      [.dataCommand verb op.binary op.resumeOffset connection.server]
  | _ => []

/-- The raw transfer after one of its steps.  At its end `ResetOperation`
makes the connection skip the replies that are still to come. -/
def setTransfer (connection : FtpConnection)
    (run : RawTransferRun DataCommand) : FtpConnection :=
  if run.finished = none then
    { connection with
      transfer := some run
      parameters := run.parameters }
  else
    { connection with
      transfer := none
      parameters := run.parameters
      repliesToSkip := connection.pendingReplies }

def stepTransfer (connection : FtpConnection)
    (run : RawTransferRun DataCommand) (input : RawTransferInput)
    (answer : ServerAnswer) : Option Answer :=
  (run.step input).map fun (following, events) =>
    let command := sentCommand events
    ((connection.deliver command answer).setTransfer following,
      connection.dataEvents run.op command)

/-! ## Replies -/

def handReply (connection : FtpConnection) (code : ℕ)
    (env : RawTransferEnv) : Option Answer :=
  match connection.transfer with
  | some run => connection.stepTransfer run (.reply code env) ⟨0, false⟩
  | none =>
      match connection.operations with
      | .rawCommand _ _ :: _ => some (connection.resetOperation, [])
      | _ => some (connection, [])

def parseReply (connection : FtpConnection) (code : ℕ)
    (env : RawTransferEnv) : Option Answer :=
  if connection.pendingReplies = 0 then some (connection, [])
  else
    let connection := { connection with
      pendingReplies := connection.pendingReplies - 1 }
    if connection.repliesToSkip ≠ 0 then
      some ({ connection with
        repliesToSkip := connection.repliesToSkip - 1 }, [])
    else connection.handReply code env

def reply (connection : FtpConnection) (env : RawTransferEnv) :
    Option Answer :=
  match connection.answers with
  | [] => none
  | (_, code) :: answers =>
      { connection with answers }.parseReply code env

def preliminary (connection : FtpConnection) (env : RawTransferEnv) :
    Option Answer :=
  match connection.answers with
  | (.data, _) :: _ =>
      if connection.repliesToSkip ≠ 0 then some (connection, [])
      else connection.handReply 1 env
  | _ => none

/-! ## Steps -/

def doClose (connection : FtpConnection) : FtpConnection :=
  { connection with
    operations := []
    transfer := none
    pendingReplies := 0
    repliesToSkip := 0
    connected := false
    answers := [] }

/-- `CanSendNextCommand` on an open connection.  The code is that of the final
reply, which is no preliminary one. -/
def canSend (connection : FtpConnection) (answer : ServerAnswer) : Bool :=
  connection.connected && connection.repliesToSkip = 0 && answer.code ≠ 1

def settled (connection : FtpConnection) : Bool :=
  connection.connected &&
    connection.pendingReplies = connection.repliesToSkip

/-- Apart from the logon, which may send commands of the user, only the raw
transfer and the raw command send `TYPE` or `REST`.  An operation starts a raw
transfer once it has the replies to its commands.  `SendNextCommand` does
nothing while there are replies to skip, and is called again after the last of
them. -/
def step (connection : FtpConnection) (input : ConnectionInput) :
    Option Answer :=
  match input, connection.transfer, connection.operations with
  | .start operation, none, [] =>
      match operation with
      | .rawCommand _ true => none
      | _ =>
          if operation = .logon ∧ connection.connected then none
          else some (connection.start operation, [])
  | .onConnect binary code, none, .logon :: _ =>
      if connection.connected ∨ code = 1 then none
      else some (connection.onConnect binary code, [])
  | .onTlsConnect, none, .logon :: _ =>
      if connection.connected then
        some ({ connection with parameters := ⟨-1, false⟩ }, [])
      else none
  | .operationSends command answer, none, .logon :: _ =>
      if connection.canSend answer then
        some (connection.sendCommand command answer, [])
      else none
  | .operationSends command answer, none, .other :: _ =>
      if connection.canSend answer ∧ command = .other then
        some (connection.sendCommand command answer, [])
      else none
  | .sendRawCommand sends answer, none, .rawCommand command false :: _ =>
      if connection.canSend answer then
        some (connection.sendRawCommand command sends answer, [])
      else none
  | .push, none, .other :: operations =>
      if connection.connected then
        some ({ connection with
          operations := .other :: .other :: operations }, [])
      else none
  | .transferFile op env, none, .other :: _ =>
      if connection.settled then
        (startedTransfer (op.sendTransfer env)).map fun op =>
          (connection.createTransfer op, [])
      else none
  | .list mlsd, none, .other :: _ =>
      if connection.settled then
        some (connection.createTransfer
          (.create (if mlsd then .mlsd else .list) true 0), [])
      else none
  | .transfer input answer, some run, _ =>
      if answer.code = 1 then none
      else
        match input with
        | .reply _ _ => none
        | .sendNextCommand _ =>
            if connection.repliesToSkip ≠ 0 then none
            else connection.stepTransfer run input answer
        | _ => connection.stepTransfer run input answer
  | .reply env, _, _ => connection.reply env
  | .preliminary env, _, _ => connection.preliminary env
  | .endOperation, none, _ :: _ =>
      if connection.connected then some (connection.resetOperation, [])
      else none
  | .onTimer keepAlive answer, none, [] =>
      if connection.canSend answer ∧ connection.pendingReplies = 0 then
        some (connection.onTimer keepAlive answer, [])
      else none
  | .doClose, _, _ => some (connection.doClose, [])
  | _, _, _ => none

def initial : FtpConnection where
  parameters := ⟨-1, false⟩
  operations := []
  transfer := none
  pendingReplies := 1
  repliesToSkip := 0
  connected := false
  server := ⟨false, 0⟩
  answers := []

end FtpConnection

def ftpConnection :
    Machine FtpConnection ConnectionInput ConnectionEvent where
  initial connection := connection = FtpConnection.initial
  step := FtpConnection.step

end TabFtp
