import TabFtp.LabelledRuns
import TabFtp.ReplyCodes

/-!
# The dispatch of commands in the engine

The user thread calls `Execute` and `Cancel`, which put events into the queue
of the engine.  The engine thread delivers them, runs the retry timer and the
control socket.  All of these hold the mutex of the engine, so each of them is
one step.

The control socket reaches the engine through `ResetOperation` alone, when its
last operation has ended or when it is closed, with or without an operation.
When that happens, and with which code, is the input of the step.  Every
command has a ticket, which is not in the source.
-/

namespace TabFtp

open LabelledRuns

/-- A command of the user; the last two fields are those of a connection. -/
structure EngineCommand where
  id : Command
  ticket : ℕ
  retryConnecting : Bool
  protocolSupported : Bool

inductive EngineEvent
  | command | cancel
  deriving DecidableEq

/-- `controlSocket` lists the commands whose operations are on its stack. -/
structure Engine where
  currentCommand : Option EngineCommand
  queue : List EngineEvent
  controlSocket : Option (List ℕ)
  retryTimer : Bool
  retryCount : ℤ
  reconnectCount : ℤ
  nextTicket : ℕ

inductive EngineOutput
  | accepted (ticket : ℕ)
  | refused (reply : Reply)
  | started (ticket : ℕ)
  | operationNotification (ticket : ℕ) (replyCode : Reply) (commandId : Command)
  deriving DecidableEq

/-- What the environment decides while an event is delivered: whether a failed
login delays the connection, whether a listing is in the cache, whether the
socket speaks HTTP, and with which code the operation ends at once, if it
does. -/
structure Surroundings where
  delayed : Bool
  cached : Bool
  httpSocket : Bool
  ending : Option Reply

abbrev EngineResult := Engine × List EngineOutput

def EngineResult.andThen
    (result : EngineResult) (next : Engine → EngineResult) : EngineResult :=
  let following := next result.1
  (following.1, result.2 ++ following.2)

namespace Engine

def notifyEnd (engine : Engine) (command : EngineCommand) (errorCode : Reply) :
    EngineResult :=
  ({ engine with currentCommand := none },
    [.operationNotification command.ticket errorCode command.id])

def retryMask : Reply :=
  Reply.error ||| Reply.disconnected ||| Reply.timeout |||
    Reply.criticalerror ||| Reply.passwordfailed

def connectionFailed (errorCode : Reply) : Bool :=
  errorCode ||| retryMask == retryMask &&
    errorCode &&& (Reply.error ||| Reply.disconnected) != 0

def resetOperation (engine : Engine) (errorCode : Reply) : EngineResult :=
  match engine.currentCommand with
  | none => (engine, [])
  | some command =>
      if command.id = .connect then
        if engine.retryTimer then (engine, [])
        else if connectionFailed errorCode ∧
            !errorCode.has Reply.criticalerror then
          let retryCount := engine.retryCount + 1
          if retryCount < engine.reconnectCount ∧ command.retryConnecting then
            ({ engine with retryCount := retryCount, retryTimer := true }, [])
          else
            { engine with retryCount := retryCount }.notifyEnd command
              errorCode
        else engine.notifyEnd command errorCode
      else engine.notifyEnd command errorCode

def destroySocket (engine : Engine) : EngineResult :=
  match engine.controlSocket with
  | none => (engine, [])
  | some _ =>
      { engine with controlSocket := none }.resetOperation
        (Reply.error ||| Reply.disconnected)

def setOperations (engine : Engine) (operations : List ℕ) : Engine :=
  { engine with controlSocket := engine.controlSocket.map fun _ => operations }

/-- The control socket sends its next command, which may end everything. -/
def sendNextCommand (engine : Engine) (surroundings : Surroundings) :
    EngineResult :=
  match surroundings.ending with
  | none => (engine, [])
  | some errorCode => (engine.setOperations []).resetOperation errorCode

def handleResult (engine : Engine) (surroundings : Surroundings)
    (res : Reply) : EngineResult :=
  if res = Reply.continued then
    if engine.controlSocket.isSome then engine.sendNextCommand surroundings
    else engine.resetOperation Reply.internalerror
  else if res ≠ Reply.wouldblock then engine.resetOperation res
  else (engine, [])

def continueConnect (engine : Engine) (command : EngineCommand)
    (surroundings : Surroundings) : Engine × Reply :=
  if surroundings.delayed then
    ({ engine with retryTimer := true }, Reply.wouldblock)
  else if command.protocolSupported then
    ({ engine with controlSocket := some [command.ticket] }, Reply.continued)
  else (engine, Reply.syntaxerror ||| Reply.disconnected)

def checkCommandPreconditions (engine : Engine) (id : Command)
    (checkBusy : Bool) : Reply :=
  if checkBusy ∧ engine.currentCommand.isSome then Reply.busy
  else if id ≠ .connect ∧ id ≠ .disconnect ∧
      engine.controlSocket.isNone then Reply.notconnected
  else if id = .connect ∧ engine.controlSocket.isSome then
    Reply.alreadyconnected
  else Reply.ok

def pushOperation (engine : Engine) (command : EngineCommand) : Engine :=
  { engine with
    controlSocket :=
      engine.controlSocket.map fun operations => command.ticket :: operations }

def dispatch (engine : Engine) (command : EngineCommand)
    (surroundings : Surroundings) : EngineResult :=
  match command.id with
  | .connect =>
      let result := { engine with retryCount := 0 }.continueConnect command
        surroundings
      result.1.handleResult surroundings result.2
  | .disconnect =>
      let closed : EngineResult :=
        match engine.controlSocket with
        | none => (engine, [])
        | some _ =>
            EngineResult.andThen
              ((engine.setOperations []).resetOperation
                (Reply.error ||| Reply.disconnected))
              destroySocket
      closed.andThen fun engine => engine.handleResult surroundings Reply.ok
  | .list =>
      if surroundings.cached then engine.handleResult surroundings Reply.ok
      else
        (engine.pushOperation command).handleResult surroundings
          Reply.continued
  | .transfer | .raw | .del | .removedir | .mkdir | .rename | .chmod =>
      (engine.pushOperation command).handleResult surroundings Reply.continued
  | .httprequest =>
      if surroundings.httpSocket then
        (engine.pushOperation command).handleResult surroundings
          Reply.continued
      else engine.handleResult surroundings Reply.notsupported
  | _ => engine.handleResult surroundings Reply.syntaxerror

def onCommandEvent (engine : Engine) (surroundings : Surroundings) :
    EngineResult :=
  match engine.currentCommand with
  | none => (engine, [])
  | some command =>
      let res := engine.checkCommandPreconditions command.id false
      if res = Reply.ok then
        EngineResult.andThen (engine, [.started command.ticket]) fun engine =>
          engine.dispatch command surroundings
      else engine.resetOperation res

def doCancel (engine : Engine) (surroundings : Surroundings) : EngineResult :=
  match engine.currentCommand with
  | none => (engine, [])
  | some command =>
      if engine.retryTimer then
        engine.destroySocket.andThen fun engine =>
          ({ engine with currentCommand := none, retryTimer := false },
            [.operationNotification command.ticket
              (Reply.disconnected ||| Reply.canceled) .connect])
      else
        match engine.controlSocket with
        | none => engine.resetOperation Reply.canceled
        | some [] => (engine, [])
        | some (_ :: _) => engine.sendNextCommand surroundings

def onTimer (engine : Engine) (surroundings : Surroundings) : EngineResult :=
  match engine.currentCommand with
  | none => ({ engine with retryTimer := false }, [])
  | some command =>
      if command.id = .connect then
        engine.destroySocket.andThen fun engine =>
          let result := { engine with retryTimer := false }.continueConnect
            command surroundings
          result.1.handleResult surroundings result.2
      else ({ engine with retryTimer := false }, [])

/-- `Execute`.  A command that is not valid is refused first. -/
def execute (engine : Engine) (id : Command)
    (valid retryConnecting protocolSupported : Bool) : EngineResult :=
  if !valid then (engine, [.refused Reply.syntaxerror])
  else
    let res := engine.checkCommandPreconditions id true
    if res = Reply.ok then
      ({ engine with
        currentCommand := some
          ⟨id, engine.nextTicket, retryConnecting, protocolSupported⟩
        queue := engine.queue ++ [.command]
        nextTicket := engine.nextTicket + 1 },
        [.accepted engine.nextTicket])
    else (engine, [.refused res])

def cancel (engine : Engine) : Engine :=
  if engine.currentCommand.isSome then
    { engine with queue := engine.queue ++ [.cancel] }
  else engine

inductive Input
  | execute (id : Command) (valid retryConnecting protocolSupported : Bool)
  | cancel
  | deliver (surroundings : Surroundings)
  | retryTimer (surroundings : Surroundings)
  | socketResets (errorCode : Reply)
  | setReconnectCount (count : ℤ)

def step (engine : Engine) : Input → Option EngineResult
  | .execute id valid retryConnecting protocolSupported =>
      some (engine.execute id valid retryConnecting protocolSupported)
  | .cancel => some (engine.cancel, [])
  | .deliver surroundings =>
      match engine.queue with
      | [] => none
      | .command :: rest =>
          some ({ engine with queue := rest }.onCommandEvent surroundings)
      | .cancel :: rest =>
          some ({ engine with queue := rest }.doCancel surroundings)
  | .retryTimer surroundings =>
      if engine.retryTimer then some (engine.onTimer surroundings) else none
  | .socketResets errorCode =>
      match engine.controlSocket with
      | none => none
      | some _ =>
          some ((engine.setOperations []).resetOperation errorCode)
  | .setReconnectCount count =>
      some ({ engine with reconnectCount := count }, [])

def initial : Engine where
  currentCommand := none
  queue := []
  controlSocket := none
  retryTimer := false
  retryCount := 0
  reconnectCount := 0
  nextTicket := 0

end Engine

def engineMachine : Machine Engine Engine.Input EngineOutput where
  initial engine := engine = Engine.initial
  step := Engine.step

end TabFtp
