import TabFtp.CommandFraming

/-!
# The messages of fzsftp

The `fzsftp` process writes messages into a pipe: one byte for the type, then
as many lines as the type has.  `SftpInputParser` reads them in whatever pieces
the pipe delivers and sends each as an event to the control socket.
-/

namespace TabFtp

/-- `sftpEvent` without the two enumerators that are no event. -/
inductive SftpEvent
  | reply | done | error | verbose | info | status | recv | send | listentry
  | askHostkey | askHostkeyChanged | askHostkeyBetteralg | askPassword
  | transfer | requestPreamble | requestInstruction
  | usedQuotaRecv | usedQuotaSend
  | kexAlgorithm | kexHash | kexCurve
  | cipherClientToServer | cipherServerToClient
  | macClientToServer | macServerToClient | hostkey
  | ioSize | ioOpen | ioNextbuf | ioFinalize
  deriving DecidableEq

namespace SftpEvent

/-- The enumerators from 0 to the one before `count`. -/
def all : List SftpEvent :=
  [reply, done, error, verbose, info, status, recv, send, listentry,
    askHostkey, askHostkeyChanged, askHostkeyBetteralg, askPassword,
    transfer, requestPreamble, requestInstruction,
    usedQuotaRecv, usedQuotaSend,
    kexAlgorithm, kexHash, kexCurve,
    cipherClientToServer, cipherServerToClient,
    macClientToServer, macServerToClient, hostkey,
    ioSize, ioOpen, ioNextbuf, ioFinalize]

def header (type : SftpEvent) : UInt8 :=
  48 + UInt8.ofNat (all.idxOf type)

/-- The type that a byte stands for, if it is above `Unknown` and below
`count`. -/
def ofByte (byte : UInt8) : Option SftpEvent :=
  if byte.toNat < 48 then none else all[byte.toNat - 48]?

def lines : SftpEvent → ℕ
  | usedQuotaRecv | usedQuotaSend | ioSize => 0
  | askHostkey | askHostkeyChanged | askHostkeyBetteralg => 2
  | listentry => 3
  | _ => 1

theorem ofByte_header (type : SftpEvent) :
    ofByte type.header = some type := by
  cases type <;> rfl

end SftpEvent

structure SftpMessage where
  type : SftpEvent
  text : List WString
  deriving DecidableEq

structure SftpListMessage where
  text : WString
  name : WString
  mtime : ℕ
  deriving DecidableEq

/-- A `CSftpEvent` or a `CSftpListEvent`. -/
inductive SftpNotification
  | event (message : SftpMessage)
  | listEvent (message : SftpListMessage)
  deriving DecidableEq

/-! ## Conversion -/

/-- What the conversion of a line uses of other libraries.  A conversion that
fails gives no text. -/
structure LocalText where
  /-- `fz::to_wstring_from_utf8` -/
  fromUtf8 : List UInt8 → WString
  /-- `CharsetEncodingConverter::toLocal` -/
  toLocal : WString → List UInt8 → WString
  /-- `fz::to_wstring`, asked on Windows only: elsewhere it gives no text -/
  toWString : List UInt8 → WString
  /-- `fz::to_integral<uint64_t>` -/
  toIntegral : List UInt8 → ℕ

/-- `CControlSocket::ConvToLocal`, with `m_useUTF8` before and after. -/
def convToLocal
    (lib : LocalText) (server : Server) (useUtf8 : Bool)
    (buffer : List UInt8) : WString × Bool :=
  if buffer.isEmpty then ([], useUtf8)
  else
    let utf8 := if useUtf8 then lib.fromUtf8 buffer else []
    if !utf8.isEmpty then (utf8, useUtf8)
    else
      let useUtf8 := useUtf8 && server.encodingType == .utf8
      let custom :=
        if server.encodingType = .custom then
          lib.toLocal server.customEncoding buffer
        else []
      if !custom.isEmpty then (custom, useUtf8)
      else if !(lib.toWString buffer).isEmpty then
        (lib.toWString buffer, useUtf8)
      else (buffer.map fun byte => Char.ofNat byte.toNat, useUtf8)

/-! ## The parser -/

/-- The messages that `OnData` logs. -/
inductive SftpParserLog
  /-- "Got unexpected EOF from child process." -/
  | unexpectedEof
  /-- "Got eof from child process" -/
  | eof
  /-- "Could not read from child process with error %d, raw error %d" -/
  | readFailed (error raw : ℤ)
  /-- "Got overlong input line, aborting." -/
  | overlongLine
  /-- "Failed to convert reply to local character set." -/
  | notConverted
  /-- "Unknown eventType %d" -/
  | unknownEventType (type : ℤ)
  deriving DecidableEq

inductive SftpOutput
  | sendEvent (notification : SftpNotification)
  | log (message : SftpParserLog)
  deriving DecidableEq

/-- The parser and `m_useUTF8` of the control socket that owns it.  Of the
pointers `event_` and `listEvent_` at most one is set; `pending` is what it
points to. -/
structure SftpInputParser where
  recvBuffer : List UInt8
  pendingLines : ℕ
  searchOffset : ℕ
  pending : Option SftpNotification
  useUtf8 : Bool

/-- What `process_.read` finds in the pipe; no bytes are the end of it. -/
inductive ChildRead
  | value (bytes : List UInt8)
  | error (error raw : ℤ)

/-- `string_view::find` from an offset. -/
def findFrom (buffer : List UInt8) (byte : UInt8) (offset : ℕ) : Option ℕ :=
  ((buffer.drop offset).findIdx? (· == byte)).map (offset + ·)

def stripCr (line : List UInt8) : List UInt8 :=
  if line.getLast? = some cr then line.dropLast else line

def SftpNotification.type : SftpNotification → SftpEvent
  | .event message => message.type
  | .listEvent _ => .listentry

/-- The pending event for a type byte. -/
def SftpNotification.start (type : SftpEvent) : SftpNotification :=
  if type = .listentry then .listEvent ⟨[], [], 0⟩
  else .event ⟨type, [[], []]⟩

section

variable (lib : LocalText) (server : Server)

/-- The line with the index `i` goes to its place in the pending event,
unless it cannot be converted. -/
def SftpNotification.store
    (useUtf8 : Bool) (notification : SftpNotification) (i : ℕ)
    (line : List UInt8) : Option SftpNotification × Bool :=
  match notification with
  | .event message =>
      let converted := convToLocal lib server useUtf8 line
      if line.length ≠ 0 ∧ converted.1.isEmpty then (none, converted.2)
      else
        (some (.event
          { message with text := message.text.set i converted.1 }),
          converted.2)
  | .listEvent message =>
      if i = 1 then
        (some (.listEvent { message with mtime := lib.toIntegral line }),
          useUtf8)
      else
        let converted := convToLocal lib server useUtf8 line
        if line.length ≠ 0 ∧ converted.1.isEmpty then (none, converted.2)
        else if i ≠ 0 then
          (some (.listEvent { message with name := converted.1 }),
            converted.2)
        else
          (some (.listEvent { message with text := converted.1 }),
            converted.2)

/-- How the loops of `OnData` are left: for more bytes, or with a reply. -/
inductive SftpDrained
  | needRead (parser : SftpInputParser)
  | returned (parser : SftpInputParser) (message : SftpParserLog)
      (reply : Reply)

/-- What the loop over the lines of the pending event comes to. -/
inductive SftpLines
  | complete (parser : SftpInputParser) (notification : SftpNotification)
  | stopped (drained : SftpDrained)

namespace SftpInputParser

/-- `while (pending_lines_)`; the first argument is `pending_lines_`. -/
def readLines :
    ℕ → SftpInputParser → SftpNotification → SftpLines
  | 0, parser, notification => .complete parser notification
  | left + 1, parser, notification =>
      match findFrom parser.recvBuffer lf parser.searchOffset with
      | none =>
          if parser.recvBuffer.length > 4096 then
            .stopped (.returned parser .overlongLine Reply.wouldblock)
          else
            .stopped (.needRead
              { parser with searchOffset := parser.recvBuffer.length })
      | some pos =>
          let line := stripCr (parser.recvBuffer.take pos)
          let i := notification.type.lines - (left + 1)
          match notification.store lib server parser.useUtf8 i line with
          | (none, useUtf8) =>
              .stopped (.returned
                { parser with pendingLines := left, useUtf8 := useUtf8 }
                .notConverted Reply.disconnected)
          | (some notification, useUtf8) =>
              readLines left
                { parser with
                  recvBuffer := parser.recvBuffer.drop (pos + 1)
                  pendingLines := left
                  searchOffset := 0
                  pending := some notification
                  useUtf8 := useUtf8 }
                notification

/-- The iterations of `OnData` that do not read, with the events they send.
Each of them takes a byte off the buffer or is the last before a read, up to
one that finds a pending event without pending lines. -/
def drain :
    ℕ → SftpInputParser → List SftpNotification × SftpDrained
  | 0, parser => ([], .needRead parser)
  | fuel + 1, parser =>
      match parser.recvBuffer, parser.pending with
      | [], _ => ([], .needRead parser)
      | _ :: _, some notification =>
          match readLines lib server parser.pendingLines parser
              notification with
          | .stopped drained => ([], drained)
          | .complete parser notification =>
              let later := drain fuel { parser with pending := none }
              (notification :: later.1, later.2)
      | byte :: rest, none =>
          match SftpEvent.ofByte byte with
          | none =>
              ([], .returned { parser with recvBuffer := rest }
                (.unknownEventType ((byte.toNat : ℤ) - 48))
                Reply.wouldblock)
          | some type =>
              let parser :=
                { parser with
                  recvBuffer := rest
                  pendingLines := type.lines
                  pending := some (.start type) }
              if type.lines = 0 then
                let later := drain fuel { parser with pending := none }
                (.start type :: later.1, later.2)
              else drain fuel parser

end SftpInputParser

/-- What a call of `OnData` has done. -/
structure SftpOnData where
  outputs : List SftpOutput
  parser : SftpInputParser
  reply : Reply
  unread : List ChildRead

def SftpOnData.after (earlier : List SftpOutput) (call : SftpOnData) :
    SftpOnData :=
  { call with outputs := earlier ++ call.outputs }

namespace SftpInputParser

/-- `SftpInputParser::OnData`, which reads first.  The list is what the pipe
holds; `read` would block once it is empty. -/
def onData (parser : SftpInputParser) : List ChildRead → SftpOnData
  | [] => ⟨[], parser, Reply.wouldblock, []⟩
  | .error error raw :: reads =>
      ⟨[.log (.readFailed error raw)], parser, Reply.disconnected, reads⟩
  | .value bytes :: reads =>
      if bytes.isEmpty then
        let message : SftpParserLog :=
          if parser.pending.isSome then .unexpectedEof else .eof
        ⟨[.log message], parser, Reply.disconnected, reads⟩
      else
        let buffer := parser.recvBuffer ++ bytes
        match drain lib server (2 * buffer.length + 1)
            { parser with recvBuffer := buffer } with
        | (sent, .needRead parser) =>
            (parser.onData reads).after (sent.map .sendEvent)
        | (sent, .returned parser message reply) =>
            ⟨sent.map .sendEvent ++ [.log message], parser, reply, reads⟩

/-- The process events one after the other, each with what has come into the
pipe since the one before.  `OnProcessEvent` closes the socket, and the parser
with it, for every reply but one. -/
def onProcessEvents :
    SftpInputParser → List ChildRead → List (List ChildRead) →
      List SftpOnData
  | _, _, [] => []
  | parser, unread, reads :: later =>
      let call := parser.onData lib server (unread ++ reads)
      call ::
        if call.reply ≠ Reply.wouldblock then []
        else onProcessEvents call.parser call.unread later

/-- The parser of a new connection. -/
def initial (useUtf8 : Bool) : SftpInputParser :=
  ⟨[], 0, 0, none, useUtf8⟩

end SftpInputParser

end

end TabFtp
