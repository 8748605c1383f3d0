import TabFtp.LabelledRuns
import TabFtp.ReplayedChannel
import TabFtp.ReplyCodes
import TabFtp.ServerIdentity

/-!
# The FTP control socket and its server

The operation stack of the control socket, its two reply counters and the
server it talks to.  What an operation does when it is asked to send, when it
gets a reply or when a sub-operation has ended is the input of the step: any
answer is possible.

The functions of the socket call each other in tail position only, so what
remains to be done is a `Control`.  Other events are processed when nothing
remains to be done.

The server answers the commands in the order in which it gets them.  Its
ledger lists the commands without a final reply, with the owners of the
operations that sent them; a keep-alive has no owner.  The lines of its
replies travel on a channel, and each carries the owner of the command that it
answers.
-/

namespace TabFtp

open LabelledRuns

inductive RequestId
  | fileexists | interactiveLogin | certificate | insecureConnection
  | tlsNoResumption

inductive AsyncRequestState
  | none | waiting | parallel
  deriving DecidableEq

/-- An operation on the stack.  `owner` identifies the top-level operation
that it belongs to; it is not in the source. -/
structure OpData where
  opId : Command
  topLevelOperation : Bool
  asyncRequestState : AsyncRequestState
  owner : ℕ

/-- The connection.  There is an `active_layer_` unless it is closed. -/
inductive Link
  | closed | connecting | opened
  deriving DecidableEq

inductive TlsLayer
  | absent | connecting | connected
  deriving DecidableEq

inductive Control
  | idle
  | sendNextCommand
  | resetOperation (errorCode : Reply)
  | parseSubcommandResult (prevResult : Reply)
  | parseResponse
  deriving DecidableEq

/-! ## The server -/

abbrev Tag := Option ℕ

/-- What a server still owes.  `code` is the multi-line reply that it has
begun. -/
structure ReplyLedger where
  code : WString
  owed : List Tag

/-- A reply line without a preliminary code settles the oldest command. -/
def ReplyLedger.settle (ledger : ReplyLedger) (line : WString) :
    ReplyLedger :=
  { code := []
    owed := if line.head? = some '1' then ledger.owed else ledger.owed.tail }

def replyCodes : List Char := ['1', '2', '3', '4', '5']

-- the search through all characters is not meant here
instance (line : WString) :
    Decidable (∃ digit ∈ replyCodes, line.head? = some digit) :=
  List.decidableBEx (fun digit => line.head? = some digit) replyCodes

/-- One line of a server that answers every command, the oldest first, with
preliminary replies and one final reply, each of one line or of several. -/
def ReplyLedger.next (ledger : ReplyLedger) (packet : WString × Tag) :
    Option ReplyLedger :=
  let line := packet.1
  if ledger.owed.head? ≠ some packet.2 then none
  else if ledger.code ≠ [] then
    if 3 < line.length ∧ line.take 4 = ledger.code then
      some (ledger.settle line)
    else some ledger
  else if 3 < line.length ∧ ∃ digit ∈ replyCodes, line.head? = some digit then
    if (line.drop 3).head? = some '-' then
      some { ledger with code := line.take 3 ++ [' '] }
    else some (ledger.settle line)
  else none

def ReplyLedger.owe (tag : Tag) (ledger : ReplyLedger) : ReplyLedger :=
  { ledger with owed := ledger.owed ++ [tag] }

/-! ## The socket -/

structure FtpSystem where
  protocol : ServerProtocol
  operations : List OpData
  pendingReplies : ℤ
  repliesToSkip : ℤ
  multilineResponseCode : WString
  multilineResponseLines : List WString
  link : Link
  tlsLayer : TlsLayer
  lastRequest : Option RequestId
  control : Control
  nextOwner : ℕ
  server : ReplyLedger
  wire : List (WString × Tag)

inductive FtpEvent
  | handed (owner : ℕ) (tag : Tag)
  | skipped (tag : Tag)
  | finished (owner : ℕ)
  | resetEngine (errorCode : Reply)

namespace FtpSystem

def sendCommand (system : FtpSystem) (tag : Tag) : FtpSystem :=
  { system with
    pendingReplies := system.pendingReplies + 1
    server := system.server.owe tag }

def resetSocket (system : FtpSystem) : FtpSystem :=
  { system with
    link := .closed
    tlsLayer := .absent
    pendingReplies := 0
    repliesToSkip := 0
    multilineResponseCode := []
    multilineResponseLines := []
    server := ⟨[], []⟩
    wire := [] }

def doClose (system : FtpSystem) (errorCode : Reply) : FtpSystem :=
  { system.resetSocket with
    control := .resetOperation
      (Reply.error ||| Reply.disconnected ||| errorCode) }

/-- `CFtpControlSocket::Push`.  Without a connection the first operation gets
a logon on top of it. -/
def push (system : FtpSystem) (opId : Command) : FtpSystem :=
  match system.operations with
  | top :: _ =>
      { system with
        operations := ⟨opId, false, .none, top.owner⟩ :: system.operations }
  | [] =>
      let operation : OpData := ⟨opId, false, .none, system.nextOwner⟩
      if opId ≠ .connect ∧ system.link = .closed then
        { system with
          operations :=
            [⟨.connect, true, .none, system.nextOwner + 1⟩, operation]
          nextOwner := system.nextOwner + 2 }
      else
        { system with
          operations := [operation]
          nextOwner := system.nextOwner + 1 }

def setTopRequest (state : AsyncRequestState) :
    List OpData → List OpData
  | [] => []
  | top :: rest => { top with asyncRequestState := state } :: rest

def sendAsyncRequest (system : FtpSystem) (request : RequestId)
    (wait : Bool) : FtpSystem :=
  if system.operations = [] then system
  else
    let state : AsyncRequestState := if wait then .waiting else .parallel
    { system with
      operations := setTopRequest state system.operations
      lastRequest := some request }

/-! ## Operations -/

inductive Action
  | sendCommand
  | push (opId : Command)
  | sendAsyncRequest (request : RequestId) (wait : Bool)
  | startTls

/-- Why `ResetOperation` changes the code of a transfer. -/
inductive TransferFailure
  | none | writeFailed | refused

/-- What an operation answers to the call that remains to be done.  Only the
logon opens the connection, before it has asked for anything. -/
inductive Answer
  | perform (actions : List Action) (result : Reply)
  | doConnect (started : Bool)
  | reset (failure : TransferFailure)

def perform (system : FtpSystem) : Action → Option FtpSystem
  | .sendCommand =>
      match system.operations with
      | [] => none
      | top :: _ =>
          if system.link = .opened then
            some (system.sendCommand (some top.owner))
          else none
  | .push opId =>
      if system.operations = [] then none else some (system.push opId)
  | .sendAsyncRequest request wait =>
      some (system.sendAsyncRequest request wait)
  | .startTls =>
      if system.link = .opened ∧ system.tlsLayer = .absent ∧
          (system.protocol = .ftp ∨ system.protocol = .ftpes) then
        some { system with tlsLayer := .connecting }
      else none

def performAll (system : FtpSystem) : List Action → Option FtpSystem
  | [] => some system
  | action :: actions =>
      (system.perform action).bind fun following =>
        following.performAll actions

/-- How `SendNextCommand` goes on after `Send`. -/
def afterSend (system : FtpSystem) (res : Reply) : FtpSystem :=
  if res = Reply.continued then { system with control := .sendNextCommand }
  else if res = Reply.ok then { system with control := .resetOperation res }
  else if res.has Reply.disconnected then system.doClose res
  else if res.has Reply.error then
    { system with control := .resetOperation res }
  else if res = Reply.wouldblock then { system with control := .idle }
  else { system with control := .resetOperation Reply.internalerror }

/-- `SendNextCommand`, one round of its loop. -/
def sendNextCommand (system : FtpSystem) (answer : Answer) :
    Option FtpSystem :=
  match system.operations with
  | [] => some { system with control := .resetOperation Reply.error }
  | top :: _ =>
      if top.asyncRequestState = .waiting then
        some { system with control := .idle }
      else if system.repliesToSkip ≠ 0 then
        some { system with control := .idle }
      else
        match answer with
        | .perform actions res =>
            (system.performAll actions).map fun system => system.afterSend res
        | .doConnect started =>
            if top.opId = .connect ∧ top.asyncRequestState = .none then
              if started then
                some { system.resetSocket with
                  link := .connecting
                  control := .idle }
              else
                some (system.resetSocket.afterSend
                  (Reply.disconnected ||| Reply.error))
            else none
        | .reset _ => none

def endingCode (operation : OpData) (failure : TransferFailure)
    (errorCode : Reply) : Reply :=
  if operation.opId = .transfer then
    match failure with
    | .none => errorCode
    | .writeFailed =>
        errorCode ||| Reply.criticalerror ||| Reply.writefailed
    | .refused =>
        if errorCode = Reply.error then
          errorCode ||| Reply.criticalerror
        else errorCode
  else errorCode

def subcommandCodes : List Reply :=
  [Reply.ok, Reply.error, Reply.criticalerror, Reply.errorNotfound]

/-- `ResetOperation` of the FTP socket and of its base class. -/
def resetOperation (system : FtpSystem) (errorCode : Reply)
    (failure : TransferFailure) : FtpSystem × List FtpEvent :=
  let system := { system with repliesToSkip := system.pendingReplies }
  match system.operations with
  | [] => ({ system with control := .idle }, [.resetEngine errorCode])
  | operation :: rest =>
      let errorCode := endingCode operation failure errorCode
      let system := { system with operations := rest }
      match rest with
      | [] =>
          ({ system with control := .idle },
            [.finished operation.owner, .resetEngine errorCode])
      | below :: _ =>
          let control :=
            if errorCode ∈ subcommandCodes then
              if operation.topLevelOperation then .sendNextCommand
              else .parseSubcommandResult errorCode
            else .resetOperation errorCode
          ({ system with control := control },
            if below.owner = operation.owner then []
            else [.finished operation.owner])

def parseSubcommandResult (system : FtpSystem) (res : Reply) : FtpSystem :=
  { system with
    control :=
      if res = Reply.wouldblock then .idle
      else if res = Reply.continued then .sendNextCommand
      else .resetOperation res }

/-- How `ParseResponse` goes on after the operation has seen the reply. -/
def afterResponse (system : FtpSystem) (res : Reply) : FtpSystem :=
  if res = Reply.ok then { system with control := .resetOperation res }
  else if res = Reply.continued then
    { system with control := .sendNextCommand }
  else if res.has Reply.disconnected then system.doClose res
  else if res.has Reply.error then
    if system.operations.head?.map OpData.opId = some .connect then
      system.doClose (res ||| Reply.disconnected)
    else { system with control := .resetOperation res }
  else { system with control := .idle }

def proceed (system : FtpSystem) (answer : Answer) :
    Option (FtpSystem × List FtpEvent) :=
  match system.control with
  | .idle => none
  | .sendNextCommand =>
      (system.sendNextCommand answer).map fun system => (system, [])
  | .resetOperation errorCode =>
      match answer with
      | .reset failure => some (system.resetOperation errorCode failure)
      | _ => none
  | .parseSubcommandResult _ =>
      match answer with
      | .perform actions res =>
          (system.performAll actions).map fun system =>
            (system.parseSubcommandResult res, [])
      | _ => none
  | .parseResponse =>
      match answer with
      | .perform actions res =>
          (system.performAll actions).map fun system =>
            (system.afterResponse res, [])
      | _ => none

/-! ## Replies -/

/-- `ParseResponse` up to the call of the operation. -/
def parseResponse (system : FtpSystem) (response : WString) (tag : Tag) :
    FtpSystem × List FtpEvent :=
  let preliminary : Bool := response.head? = some '1'
  if response = [] ∨ !preliminary ∧ ¬ 0 < system.pendingReplies then
    (system, [])
  else
    let pendingReplies :=
      if preliminary then system.pendingReplies
      else system.pendingReplies - 1
    if system.repliesToSkip ≠ 0 then
      let repliesToSkip :=
        if preliminary then system.repliesToSkip
        else system.repliesToSkip - 1
      let control :=
        if repliesToSkip = 0 ∧ system.operations ≠ [] ∧ pendingReplies = 0 then
          .sendNextCommand
        else system.control
      ({ system with
        pendingReplies := pendingReplies
        repliesToSkip := repliesToSkip
        control := control }, [.skipped tag])
    else
      match system.operations with
      | [] => ({ system with pendingReplies := pendingReplies }, [])
      | top :: _ =>
          ({ system with
            pendingReplies := pendingReplies
            control := .parseResponse }, [.handed top.owner tag])

def maxMultilineResponseLines : ℕ := 10000

def parseLine (system : FtpSystem) (line : WString) (tag : Tag) :
    FtpSystem × List FtpEvent :=
  if 3 < line.length then
    if system.multilineResponseCode ≠ [] then
      if line.take 4 = system.multilineResponseCode then
        { system with
          multilineResponseCode := []
          multilineResponseLines := [] }.parseResponse line tag
      else if
          system.multilineResponseLines.length < maxMultilineResponseLines then
        ({ system with
          multilineResponseLines := system.multilineResponseLines ++ [line] },
          [])
      else (system.doClose Reply.error, [])
    else if (line.drop 3).head? = some '-' then
      ({ system with
        multilineResponseCode := line.take 3 ++ [' ']
        multilineResponseLines := system.multilineResponseLines ++ [line] },
        [])
    else system.parseResponse line tag
  else (system, [])

/-! ## Events -/

def awaitWelcome (system : FtpSystem) : FtpSystem :=
  { system with
    link := .opened
    pendingReplies := 1
    server := system.server.owe (system.operations.head?.map OpData.owner) }

def onConnect (system : FtpSystem) : FtpSystem :=
  if system.protocol = .ftps then
    if system.tlsLayer = .absent then { system with tlsLayer := .connecting }
    else { system with tlsLayer := .connected }.awaitWelcome
  else if (system.protocol = .ftpes ∨ system.protocol = .ftp) ∧
      system.tlsLayer ≠ .absent then
    { system with tlsLayer := .connected, control := .sendNextCommand }
  else system.awaitWelcome

inductive RequestReply
  | accept | refuse | skip | rename
  deriving DecidableEq

def setAsyncRequestReply (system : FtpSystem) (top : OpData)
    (request : RequestId) (reply : RequestReply) : FtpSystem :=
  match request with
  | .fileexists =>
      if top.opId = .transfer then
        match reply with
        | .accept => { system with control := .sendNextCommand }
        | .refuse =>
            { system with control := .resetOperation Reply.internalerror }
        | .skip => { system with control := .resetOperation Reply.ok }
        | .rename => system.sendAsyncRequest .fileexists true
      else system
  | .interactiveLogin =>
      if top.opId = .connect then
        if reply = .refuse then
          { system with control := .resetOperation Reply.canceled }
        else { system with control := .sendNextCommand }
      else system
  | .certificate =>
      if system.tlsLayer = .connecting ∧ reply = .refuse then
        system.doClose Reply.criticalerror
      else system
  | .insecureConnection =>
      if reply = .refuse then
        { system with control := .resetOperation Reply.canceled }
      else { system with control := .sendNextCommand }
  | .tlsNoResumption =>
      if reply = .refuse then
        { system with control := .resetOperation Reply.canceled }
      else system

def callSetAsyncRequestReply (system : FtpSystem) (reply : RequestReply) :
    Option FtpSystem :=
  match system.operations, system.lastRequest with
  | top :: _, some request =>
      if top.asyncRequestState = .none then none
      else
        let operations := setTopRequest .none system.operations
        some ({ system with operations := operations }.setAsyncRequestReply
          top request reply)
  | _, _ => none

def cancel (system : FtpSystem) : FtpSystem :=
  match system.operations with
  | [] => system
  | top :: _ =>
      if top.opId = .none then system
      else if top.opId = .connect then system.doClose Reply.canceled
      else { system with control := .resetOperation Reply.canceled }

/-- The idle timer.  It runs only while there is a connection. -/
def onTimer (system : FtpSystem) : FtpSystem :=
  if system.operations ≠ [] then system
  else if system.pendingReplies ≠ 0 ∨ system.repliesToSkip ≠ 0 then system
  else
    let system := system.sendCommand none
    { system with repliesToSkip := system.repliesToSkip + 1 }

/-- The events of the socket.  `operationEnds` stands for all that ends an
operation other than the logon from outside (the end of a transfer or of a
sleep), `wakeUp` for all that continues one (a lock, an address), `doClose` for
errors and timeouts. -/
inductive Input
  | connect (protocol : ServerProtocol)
  | start (opId : Command)
  | proceed (answer : Answer)
  | cancel
  | operationEnds (errorCode : Reply)
  | wakeUp
  | onTimer
  | onConnect
  | onVerifyCert
  | onResumptionRefused
  | requestReply (reply : RequestReply)
  | doClose (errorCode : Reply)
  | serverLine (line : WString)
  | receive

def event (system : FtpSystem) : Input → Option (FtpSystem × List FtpEvent)
  | .connect protocol =>
      if system.operations = [] ∧ system.link = .closed then
        some
          ({ { system with protocol := protocol }.push .connect with
            control := .sendNextCommand }, [])
      else none
  | .start opId =>
      if system.operations = [] ∧ opId ≠ .connect then
        some ({ system.push opId with control := .sendNextCommand }, [])
      else none
  | .cancel => some (system.cancel, [])
  | .operationEnds errorCode =>
      match system.operations with
      | [] => none
      | top :: _ =>
          if top.opId = .connect then none
          else
            some ({ system with control := .resetOperation errorCode }, [])
  | .wakeUp =>
      if system.link = .opened then
        some ({ system with control := .sendNextCommand }, [])
      else none
  | .onTimer =>
      if system.link = .opened then some (system.onTimer, []) else none
  | .onConnect =>
      if system.link = .connecting ∨
          (system.link = .opened ∧ system.tlsLayer = .connecting) then
        some (system.onConnect, [])
      else none
  | .onVerifyCert =>
      if system.tlsLayer = .connecting then
        some (system.sendAsyncRequest .certificate true, [])
      else none
  | .onResumptionRefused =>
      if system.link = .opened then
        some (system.sendAsyncRequest .tlsNoResumption true, [])
      else none
  | .requestReply reply =>
      (system.callSetAsyncRequestReply reply).map fun system => (system, [])
  | .doClose errorCode => some (system.doClose errorCode, [])
  | .receive =>
      match system.wire with
      | [] => none
      | (line, tag) :: rest =>
          some ({ system with wire := rest }.parseLine line tag)
  | .proceed _ | .serverLine _ => none

/-- The server writes a line, whatever the socket is doing. -/
def serverLine (system : FtpSystem) (line : WString) : Option FtpSystem :=
  if system.link = .opened then
    match system.server.owed with
    | [] => none
    | tag :: _ =>
        (system.server.next (line, tag)).map fun server =>
          { system with
            server := server
            wire := system.wire ++ [(line, tag)] }
  else none

def step (system : FtpSystem) (input : Input) :
    Option (FtpSystem × List FtpEvent) :=
  match input with
  | .serverLine line =>
      (system.serverLine line).map fun system => (system, [])
  | .proceed answer => system.proceed answer
  | input => if system.control = .idle then system.event input else none

def initial : FtpSystem where
  protocol := .unknown
  operations := []
  pendingReplies := 1
  repliesToSkip := 0
  multilineResponseCode := []
  multilineResponseLines := []
  link := .closed
  tlsLayer := .absent
  lastRequest := none
  control := .idle
  nextOwner := 0
  server := ⟨[], []⟩
  wire := []

end FtpSystem

def ftpControlSocket : Machine FtpSystem FtpSystem.Input FtpEvent where
  initial system := system = FtpSystem.initial
  step := FtpSystem.step

end TabFtp
