import TabFtp.FtpFileTransfer
import TabFtp.SftpFileTransfer

/-!
# The data connection of an FTP transfer

`CTransferSocket` moves bytes between the data connection and the reader or the
writer of the local file.  Any of them may make it wait, and it moves nothing
while the control connection blocks it.  What the calls of a step return is
part of its input, and what they move is recorded as effects.
-/

namespace TabFtp

inductive TransferMode
  | list | upload | download | resumetest
  deriving DecidableEq

/-- What `active_layer_->read` returns if there is room for any number of
bytes. -/
inductive ReadAnswer
  | data (first : UInt8) (rest : List UInt8)
  | eof
  | again
  | error

inductive WriteAnswer
  | written (bytes : ℕ)
  | again
  | error

inductive ShutdownAnswer
  | done | again | error

/-- What `OnConnect` finds out about TLS. -/
structure TlsSession where
  /-- the control connection uses "x-filezilla-ftp" -/
  controlAlpn : Bool
  resumed : Bool
  /-- the data connection uses "ftp-data" -/
  dataAlpn : Bool
  /-- the capability `tls_resumption` of the server -/
  resumption : CapabilityState

structure SocketAnswers where
  connected : Bool
  tls : Option TlsSession
  /-- one read after the other; with none left a read would block -/
  reads : List ReadAnswer
  write : WriteAnswer
  shutdown : ShutdownAnswer
  /-- `CDirectoryListingParser::AddData` -/
  parsed : Bool
  /-- the capacity of the buffer that the pool has, if it has one -/
  poolBuffer : Option ℕ+
  addBuffer : AioResult
  finalize : AioResult
  /-- `reader_->get_buffer`; the end of the file is an empty buffer -/
  readBuffer : AioResult × List UInt8

structure TransferBuffer where
  bytes : List UInt8
  capacity : ℕ
  deriving DecidableEq

/-- What a step does to the connection, to the file and to the operation.
Bytes of the connection come with `activity_block_` at that time. -/
inductive TransferEffect
  | received (activityBlock : ℕ) (bytes : List UInt8)
  | endOfFile
  | discarded (activityBlock : ℕ) (bytes : List UInt8)
  | sent (activityBlock : ℕ) (bytes : List UInt8)
  | handed (bytes : List UInt8)
  | finalized (result : AioResult)
  | fetched (bytes : List UInt8)
  | listed (bytes : List UInt8)
  | transferEnd
  deriving DecidableEq

/-- `socket` tells whether there are `socket_` and `active_layer_`, which are
set and reset together. -/
structure TransferSocket where
  mode : TransferMode
  socket : Bool
  activityBlock : ℕ
  endReason : TransferEndReason
  postponedReceive : Bool
  postponedSend : Bool
  buffer : Option TransferBuffer
  resumetest : ℕ
  deriving DecidableEq

/-- The socket after a function, its effects, and the truth value that the
function returns. -/
structure SocketHandled where
  socket : TransferSocket
  effects : List TransferEffect
  again : Bool

/-- The effects of what came before. -/
def SocketHandled.after (earlier : List TransferEffect)
    (handled : SocketHandled) : SocketHandled :=
  { handled with effects := earlier ++ handled.effects }

namespace TransferSocket

def resetSocket (socket : TransferSocket) : TransferSocket :=
  { socket with socket := false, buffer := none }

def transferEnd (socket : TransferSocket) (reason : TransferEndReason) :
    SocketHandled :=
  if socket.endReason ≠ .none then ⟨socket, [], false⟩
  else
    let socket := { socket with endReason := reason }
    if reason ≠ .successful then
      ⟨socket.resetSocket, [.transferEnd], false⟩
    else ⟨socket, [.transferEnd], false⟩

def finishCall (socket : TransferSocket) (result : AioResult) :
    SocketHandled :=
  match result with
  | .wait => ⟨socket, [], false⟩
  | .error => socket.transferEnd .transferFailureCritical
  | .ok => ⟨socket, [], true⟩

def takePoolBuffer (socket : TransferSocket) (answers : SocketAnswers) :
    SocketHandled :=
  match answers.poolBuffer with
  | none => socket.finishCall .wait
  | some capacity =>
      { socket with buffer := some ⟨[], capacity⟩ }.finishCall .ok

def checkGetNextWriteBuffer (socket : TransferSocket)
    (answers : SocketAnswers) : SocketHandled :=
  match socket.buffer with
  | none => socket.takePoolBuffer answers
  | some buffer =>
      if buffer.bytes.length ≥ buffer.capacity then
        let socket := { socket with buffer := none }
        let next :=
          if answers.addBuffer = .ok then socket.takePoolBuffer answers
          else socket.finishCall answers.addBuffer
        next.after [.handed buffer.bytes]
      else socket.finishCall .ok

/-- The end of `FinalizeWrite`. -/
def finishFile (socket : TransferSocket) (result : AioResult) :
    SocketHandled :=
  match result with
  | .wait => ⟨socket, [], false⟩
  | .ok => socket.transferEnd .successful
  | .error => socket.transferEnd .transferFailureCritical

/-- `CTransferSocket::FinalizeWrite`, with the buffer that the last read was
to go to. -/
def finalizeWrite (socket : TransferSocket) (buffer : TransferBuffer)
    (answers : SocketAnswers) : SocketHandled :=
  if socket.endReason ≠ .none then ⟨socket, [], false⟩
  else if !buffer.bytes.isEmpty then
    let socket := { socket with buffer := none }
    if answers.addBuffer = .ok then
      (socket.finishFile answers.finalize).after
        [.handed buffer.bytes, .finalized answers.finalize]
    else
      (socket.finishFile answers.addBuffer).after [.handed buffer.bytes]
  else
    (socket.finishFile answers.finalize).after [.finalized answers.finalize]

/-- The branch of `OnReceive` for a listing. -/
def receiveListing (socket : TransferSocket) (answers : SocketAnswers) :
    SocketHandled :=
  match answers.reads.headD .again with
  | .again => ⟨socket, [], false⟩
  | .error => socket.transferEnd .transferFailure
  | .eof => (socket.transferEnd .successful).after [.endOfFile]
  | .data first rest =>
      let bytes := (first :: rest).take 4096
      let effects : List TransferEffect :=
        [.received socket.activityBlock bytes, .listed bytes]
      if !answers.parsed then
        (socket.transferEnd .transferFailure).after effects
      else ⟨socket, effects, true⟩

/-- The read of the branch of `OnReceive` for a download. -/
def receiveInto (socket : TransferSocket) (buffer : TransferBuffer)
    (answers : SocketAnswers) : SocketHandled :=
  match answers.reads.headD .again with
  | .again => ⟨socket, [], false⟩
  | .error => socket.transferEnd .transferFailure
  | .eof => (socket.finalizeWrite buffer answers).after [.endOfFile]
  | .data first rest =>
      let bytes := (first :: rest).take (buffer.capacity - buffer.bytes.length)
      ⟨{ socket with
          buffer := some { buffer with bytes := buffer.bytes ++ bytes } },
        [.received socket.activityBlock bytes], true⟩

/-- The loop of the branch of `OnReceive` for the test of resuming. -/
def receiveResumetest (socket : TransferSocket) :
    List ReadAnswer → SocketHandled
  | [] => ⟨socket, [], false⟩
  | .again :: _ => ⟨socket, [], false⟩
  | .error :: _ => socket.transferEnd .transferFailure
  | .eof :: _ =>
      (socket.transferEnd
        (if socket.resumetest = 1 then .successful
        else .failedResumetest)).after [.endOfFile]
  | .data first rest :: reads =>
      let bytes := (first :: rest).take 2
      let effects : List TransferEffect :=
        [.received socket.activityBlock bytes]
      let socket :=
        { socket with resumetest := socket.resumetest + bytes.length }
      if socket.resumetest > 1 then
        (socket.transferEnd .failedResumetest).after effects
      else (socket.receiveResumetest reads).after effects

/-- The end of `OnReceive`, where bytes are read only to be dropped. -/
def receiveDiscard (socket : TransferSocket) (answers : SocketAnswers) :
    SocketHandled :=
  let answer := answers.reads.headD .again
  let effects : List TransferEffect :=
    match answer with
    | .data first rest =>
        [.discarded socket.activityBlock ((first :: rest).take 1024)]
    | .eof => [.endOfFile]
    | _ => []
  if socket.endReason = .none then
    match answer with
    | .data _ _ | .error =>
        (socket.transferEnd .transferFailure).after effects
    | _ => ⟨socket, effects, false⟩
  else
    match answer with
    | .eof | .error => ⟨socket.resetSocket, effects, false⟩
    | _ => ⟨socket, effects, false⟩

/-- `CTransferSocket::OnReceive`.  A read without a layer follows a null
pointer. -/
def onReceive (socket : TransferSocket) (answers : SocketAnswers) :
    Option SocketHandled :=
  if socket.activityBlock ≠ 0 then
    some ⟨{ socket with postponedReceive := true }, [], false⟩
  else if socket.endReason = .none ∧ socket.mode = .list then
    if socket.socket then some (socket.receiveListing answers) else none
  else if socket.endReason = .none ∧ socket.mode = .download then
    let checked := socket.checkGetNextWriteBuffer answers
    if !checked.again then some checked
    else
      match checked.socket.buffer with
      | none => none
      | some buffer =>
          if checked.socket.socket then
            some ((checked.socket.receiveInto buffer answers).after
              checked.effects)
          else none
  else if socket.endReason = .none ∧ socket.mode = .resumetest then
    if socket.socket then some (socket.receiveResumetest answers.reads)
    else none
  else if socket.socket then some (socket.receiveDiscard answers)
  else none

def finishSending (socket : TransferSocket) (shutdown : ShutdownAnswer) :
    SocketHandled :=
  match shutdown with
  | .again => ⟨socket, [], false⟩
  | .error => socket.transferEnd .transferFailure
  | .done => socket.transferEnd .successful

def checkGetNextReadBuffer (socket : TransferSocket)
    (answers : SocketAnswers) : SocketHandled :=
  if (socket.buffer.map TransferBuffer.bytes).getD [] = [] then
    let socket := { socket with buffer := none }
    if answers.readBuffer.1 = .ok then
      let bytes := answers.readBuffer.2
      let socket := { socket with buffer := some ⟨bytes, bytes.length⟩ }
      let next :=
        if bytes = [] then socket.finishSending answers.shutdown
        else socket.finishCall .ok
      next.after [.fetched bytes]
    else socket.finishCall answers.readBuffer.1
  else socket.finishCall .ok

/-- The write of `OnSend`. -/
def sendFrom (socket : TransferSocket) (buffer : TransferBuffer)
    (answers : SocketAnswers) : SocketHandled :=
  match answers.write with
  | .again => ⟨socket, [], false⟩
  | .error | .written 0 => socket.transferEnd .transferFailure
  | .written (count + 1) =>
      ⟨{ socket with
          buffer := some
            { buffer with bytes := buffer.bytes.drop (count + 1) } },
        [.sent socket.activityBlock (buffer.bytes.take (count + 1))], true⟩

def onSend (socket : TransferSocket) (answers : SocketAnswers) :
    SocketHandled :=
  if !socket.socket then ⟨socket, [], false⟩
  else if socket.activityBlock ≠ 0 then
    ⟨{ socket with postponedSend := true }, [], false⟩
  else if socket.mode ≠ .upload ∨ socket.endReason ≠ .none then
    ⟨socket, [], false⟩
  else
    let checked := socket.checkGetNextReadBuffer answers
    match checked.again, checked.socket.buffer with
    | true, some buffer =>
        (checked.socket.sendFrom buffer answers).after checked.effects
    | _, _ => { checked with again := false }

/-- The second half of `TriggerPostponedEvents`. -/
def sendPostponed (socket : TransferSocket) (answers : SocketAnswers) :
    SocketHandled :=
  if socket.postponedSend then
    { socket with postponedSend := false }.onSend answers
  else ⟨socket, [], false⟩

def triggerPostponedEvents (socket : TransferSocket)
    (answers : SocketAnswers) : Option SocketHandled :=
  if socket.activityBlock ≠ 0 then some ⟨socket, [], false⟩
  else if socket.postponedReceive then
    match { socket with postponedReceive := false }.onReceive answers with
    | none => none
    | some received =>
        if received.socket.endReason ≠ .none then some received
        else
          some ((received.socket.sendPostponed answers).after received.effects)
  else some (socket.sendPostponed answers)

/-- The end of `OnConnect`. -/
def proceed (socket : TransferSocket) (answers : SocketAnswers) :
    Option SocketHandled :=
  match socket.triggerPostponedEvents answers with
  | none => none
  | some triggered =>
      some ((triggered.socket.onSend answers).after triggered.effects)

def onConnect (socket : TransferSocket) (answers : SocketAnswers) :
    Option SocketHandled :=
  if !socket.socket then some ⟨socket, [], false⟩
  else
    match answers.tls with
    | none => socket.proceed answers
    | some tls =>
        if tls.controlAlpn then
          if !tls.resumed then
            some (socket.transferEnd .failedTlsResumption)
          else if !tls.dataAlpn then
            some (socket.transferEnd .wrongTlsAlpn)
          else socket.proceed answers
        else if tls.resumed then socket.proceed answers
        else
          match tls.resumption with
          | .yes => some (socket.transferEnd .failedTlsResumption)
          | .unknown =>
              { socket with
                activityBlock := socket.activityBlock + 1 }.proceed answers
          | .no => socket.proceed answers

def setActive (socket : TransferSocket) (answers : SocketAnswers) :
    Option SocketHandled :=
  if socket.endReason ≠ .none ∨ socket.activityBlock = 0 then
    some ⟨socket, [], false⟩
  else
    let socket := { socket with activityBlock := socket.activityBlock - 1 }
    if socket.socket ∧ answers.connected then
      socket.triggerPostponedEvents answers
    else some ⟨socket, [], false⟩

/-- `CTransferSocket::ContinueWithoutSesssionResumption`. -/
def continueWithoutSessionResumption (socket : TransferSocket)
    (answers : SocketAnswers) : Option SocketHandled :=
  if socket.activityBlock = 0 then some ⟨socket, [], false⟩
  else
    { socket with
      activityBlock := socket.activityBlock - 1 }.triggerPostponedEvents
        answers

def onBufferAvailability (socket : TransferSocket) (object : AioWaitable)
    (answers : SocketAnswers) : Option SocketHandled :=
  match object with
  | .reader => some (socket.onSend answers)
  | .writer | .bufferPool => socket.onReceive answers

end TransferSocket

/-! ## Schedules -/

inductive TransferSocketEvent
  /-- `InitLayers` for a new or an accepted connection -/
  | layers
  | connection
  | read
  | write
  | socketError
  | setActive
  | continueWithoutSessionResumption
  | available (object : AioWaitable)

/-- The socket, whether its connection has come to the end, and whether the
program has crashed. -/
structure DataConnection where
  socket : TransferSocket
  eof : Bool
  crashed : Bool
  deriving DecidableEq

namespace DataConnection

/-- The handler of an event. -/
def handle (socket : TransferSocket) (answers : SocketAnswers) :
    TransferSocketEvent → Option SocketHandled
  | .layers =>
      if socket.endReason = .none ∧ !socket.socket then
        some ⟨{ socket with socket := true }, [], false⟩
      else some ⟨socket, [], false⟩
  | .connection => socket.onConnect answers
  | .read => socket.onReceive answers
  | .write => some (socket.onSend answers)
  | .socketError => some (socket.transferEnd .transferFailure)
  | .setActive => socket.setActive answers
  | .continueWithoutSessionResumption =>
      socket.continueWithoutSessionResumption answers
  | .available object => socket.onBufferAvailability object answers

def step (connection : DataConnection)
    (input : TransferSocketEvent × SocketAnswers) :
    Option (DataConnection × List TransferEffect) :=
  if connection.crashed then none
  else
    match handle connection.socket input.2 input.1 with
    | none => some ({ connection with crashed := true }, [])
    | some handled =>
        some
          (⟨handled.socket,
            connection.eof || handled.effects.contains .endOfFile, false⟩,
            handled.effects)

end DataConnection

def dataConnectionMachine :
    LabelledRuns.Machine DataConnection
      (TransferSocketEvent × SocketAnswers) TransferEffect where
  initial connection :=
    connection.socket.activityBlock = 1 ∧
      connection.socket.endReason = .none ∧
      connection.socket.postponedReceive = false ∧
      connection.socket.postponedSend = false ∧
      connection.socket.buffer = none ∧
      connection.socket.resumetest = 0 ∧
      connection.eof = false ∧ connection.crashed = false
  step := DataConnection.step

end TabFtp
