import TabFtp.FtpFileTransfer
import TabFtp.SftpInputParser

/-!
# Lines and replies on the FTP control connection

`OnReceive` reads into a buffer and cuts lines out of it, `ParseLine` puts the
lines of a reply together.  What `ParseResponse` does with a reply is a
parameter, and so is what happens between two reads; both can change anything
but the buffer and the lines of an unfinished reply.
-/

namespace TabFtp

open LabelledRuns

namespace FtpReplyFraming

universe u

/-- `ftpLogonStates` -/
inductive LogonState
  | connect | welcome | authTls | authSsl | authWait | security | logon
  | syst | feat | clnt | optsUtf8 | pbsz | prot | optsMlst | customCommands
  | done
  deriving DecidableEq

/-- What `CFtpLogonOpData` does with the lines of replies.  `featLines` are
those that `ParseFeat` has got. -/
structure LogonLines where
  inChallenge : Bool
  challenge : WString
  opState : LogonState
  gotFirstWelcomeLine : Bool
  featLines : List WString

namespace LogonLines

def awaitsWelcome (logon : LogonLines) : Bool :=
  !logon.inChallenge && logon.opState == .welcome &&
    !logon.gotFirstWelcomeLine

/-- The beginning of `ParseLine`.  A line of an SSH server is not accepted. -/
def note (logon : LogonLines) (line : WString) : Option LogonLines :=
  if logon.inChallenge then
    let challenge :=
      if logon.challenge = [] then [] else logon.challenge ++ ['\n']
    some { logon with challenge := challenge ++ line }
  else if logon.opState = .feat then
    some { logon with featLines := logon.featLines ++ [line] }
  else if logon.opState = .welcome ∧ logon.gotFirstWelcomeLine = false then
    if (FileTransfer.lowerAscii line).take 3 = "ssh".toList then none
    else some { logon with gotFirstWelcomeLine := true }
  else some logon

end LogonLines

/-- What surrounds the framing: whether there is an `active_layer_`, whether
lines are taken as UTF-8, the logon if it is the current operation, and the
rest. -/
structure Surroundings (σ : Type u) where
  connected : Bool
  useUtf8 : Bool
  logon : Option LogonLines
  rest : σ

/-- `m_Response` and `m_MultilineResponseLines` in a call of
`ParseResponse`. -/
structure FramedReply where
  response : WString
  lines : List WString
  deriving DecidableEq

inductive Output
  /-- A line is given to `ParseLine`. -/
  | line (text : WString)
  /-- `ParseResponse` is called. -/
  | reply (reply : FramedReply)
  /-- The connection is closed because of a line. -/
  | gaveUp

structure LineSocket (σ : Type u) where
  around : Surroundings σ
  receiveBuffer : List UInt8
  multilineResponseCode : WString
  multilineResponseLines : List WString

/-- What the framing is used with. -/
structure LineEnv (σ : Type u) where
  lib : LocalText
  server : Server
  parseResponse : Surroundings σ → FramedReply → Surroundings σ

/-- The size of the buffer. -/
def maxLine : ℕ := 65536

def maxLines : ℕ := 10000

/-- A byte that ends a line. -/
def isLineEnd (byte : UInt8) : Bool :=
  byte == 13 || byte == 10 || byte == 0

variable {σ : Type u}

namespace LineSocket

/-- `DoClose`, which resets the socket. -/
def doClose (socket : LineSocket σ) : LineSocket σ where
  around := { socket.around with connected := false }
  receiveBuffer := []
  multilineResponseCode := []
  multilineResponseLines := []

/-- The surroundings change.  Nothing is left of the lines if the connection
has been closed. -/
def surround (socket : LineSocket σ) (around : Surroundings σ) :
    LineSocket σ :=
  if around.connected then { socket with around := around }
  else { socket with around := around }.doClose

theorem surround_around (socket : LineSocket σ) (around : Surroundings σ) :
    (socket.surround around).around = around := by
  obtain ⟨connected, useUtf8, logon, rest⟩ := around
  cases connected <;> rfl

/-- `ParseResponse` with the line as `m_Response`. -/
def respond (env : LineEnv σ) (socket : LineSocket σ) (line : WString) :
    LineSocket σ × List Output :=
  let reply : FramedReply := ⟨line, socket.multilineResponseLines⟩
  (socket.surround (env.parseResponse socket.around reply), [.reply reply])

/-- The part of `ParseLine` that puts replies together. -/
def frameLine (env : LineEnv σ) (socket : LineSocket σ) (line : WString) :
    LineSocket σ × List Output :=
  if line.length ≤ 3 then (socket, [])
  else if socket.multilineResponseCode ≠ [] then
    if line.take 4 = socket.multilineResponseCode then
      let answered :=
        respond env { socket with multilineResponseCode := [] } line
      ({ answered.1 with multilineResponseLines := [] }, answered.2)
    else if socket.multilineResponseLines.length < maxLines then
      ({ socket with
          multilineResponseLines := socket.multilineResponseLines ++ [line] },
        [])
    else (socket.doClose, [.gaveUp])
  else if (line.drop 3).head? = some '-' then
    ({ socket with
        multilineResponseCode := line.take 3 ++ [' ']
        multilineResponseLines := socket.multilineResponseLines ++ [line] },
      [])
  else respond env socket line

def parseLine (env : LineEnv σ) (socket : LineSocket σ) (line : WString) :
    LineSocket σ × List Output :=
  match socket.around.logon with
  | none =>
      let framed := frameLine env socket line
      (framed.1, .line line :: framed.2)
  | some logon =>
      match logon.note line with
      | none => (socket.doClose, [.line line, .gaveUp])
      | some logon =>
          let framed := frameLine env
            { socket with
              around := { socket.around with logon := some logon } } line
          (framed.1, .line line :: framed.2)

/-- The line in front of the position is cut out and parsed, `rest` stays in
the buffer. -/
def takeLine (env : LineEnv σ) (socket : LineSocket σ)
    (line rest : List UInt8) : LineSocket σ × List Output :=
  let converted :=
    convToLocal env.lib env.server socket.around.useUtf8 line
  parseLine env
    { socket with
      receiveBuffer := rest
      around := { socket.around with useUtf8 := converted.2 } }
    converted.1

/-- The loop over the buffer: `line` is in front of the position. -/
def scan (env : LineEnv σ) :
    LineSocket σ → List UInt8 → List UInt8 → LineSocket σ × List Output
  | socket, line, [] => ({ socket with receiveBuffer := line }, [])
  | socket, line, byte :: rest =>
      if isLineEnd byte then
        if line = [] then scan env socket [] rest
        else
          let taken := takeLine env socket line rest
          if taken.1.around.connected then
            let scanned := scan env taken.1 [] rest
            (scanned.1, taken.2 ++ scanned.2)
          else taken
      else scan env socket (line ++ [byte]) rest

def addRead (env : LineEnv σ) (socket : LineSocket σ) (read : List UInt8) :
    LineSocket σ × List Output :=
  let scanned := scan env socket socket.receiveBuffer read
  if scanned.1.around.connected ∧
      scanned.1.receiveBuffer.length = maxLine then
    (scanned.1.doClose, scanned.2 ++ [.gaveUp])
  else scanned

/-- `OnReceive` reads what there is, as much at a time as fits into the
buffer. -/
def onReceive (env : LineEnv σ) :
    ℕ → LineSocket σ → List UInt8 → LineSocket σ × List Output
  | 0, socket, _ => (socket, [])
  | fuel + 1, socket, available =>
      if available = [] then (socket, [])
      else
        let toRead := maxLine - socket.receiveBuffer.length
        let added := addRead env socket (available.take toRead)
        if added.1.around.connected then
          let received := onReceive env fuel added.1 (available.drop toRead)
          (received.1, added.2 ++ received.2)
        else added

end LineSocket

inductive Input (σ : Type u)
  /-- Bytes arrive and `OnReceive` is called. -/
  | arrive (bytes : List UInt8)
  /-- Another event is processed. -/
  | happen (around : Surroundings σ)

open LineSocket in
/-- A logon that waits for the welcome has been there before the connection. -/
def step (env : LineEnv σ) (socket : LineSocket σ) :
    Input σ → Option (LineSocket σ × List Output)
  | .arrive bytes =>
      if socket.around.connected then
        some (onReceive env bytes.length socket bytes)
      else none
  | .happen around =>
      if socket.around.connected ∧
          (around.logon.any LogonLines.awaitsWelcome →
            socket.around.logon.any LogonLines.awaitsWelcome) then
        some (socket.surround around, [])
      else none

/-- A connection without anything received. -/
def connection (around : Surroundings σ) : LineSocket σ :=
  ⟨around, [], [], []⟩

def machine (env : LineEnv σ) : Machine (LineSocket σ) (Input σ) Output where
  initial := fun socket =>
    ∃ around, around.connected = true ∧ socket = connection around
  step := step env

/-- The bytes that have arrived. -/
def receivedBytes (inputs : List (Input σ)) : List UInt8 :=
  inputs.flatMap fun input =>
    match input with
    | .arrive bytes => bytes
    | .happen _ => []

/-- The replies for which `ParseResponse` has been called. -/
def repliesOf (outputs : List Output) : List FramedReply :=
  outputs.filterMap fun output =>
    match output with
    | .reply reply => some reply
    | _ => none

end FtpReplyFraming

end TabFtp
