import TabFtp.FtpFileTransfer
import TabFtp.LabelledRuns
import TabFtp.ServerPathParents

/-!
# Creating a directory over FTP

`CFtpMkdirOpData` looks for a parent directory that it can change into,
creates the directories below it one by one, and tries `MKD` with the full
path if it cannot change into a directory.  A reply is the answer to the
command that has been sent last; a preliminary one counts as a refusal.
-/

namespace TabFtp

open LabelledRuns

namespace ServerPath

def getLastSegment (path : ServerPath) : WString :=
  match path.data with
  | none => []
  | some data =>
      if path.hasParent then data.segments.getLast?.getD [] else []

/-- What `AddSegment` makes of a path. -/
def withSegment (path : ServerPath) (segment : WString) : ServerPath :=
  (path.addSegment segment).getD path

def extend (path : ServerPath) (segments : List WString) : ServerPath :=
  segments.foldl withSegment path

end ServerPath

open ServerPath

inductive MkdirState
  | init | findparent | mkdsub | cwdsub | tryfull
  deriving DecidableEq

/-- `CFtpMkdirOpData` with the current directory of its control socket.  The
last of the segments is the next one to be created. -/
structure MkdirOperation where
  opState : MkdirState
  path : ServerPath
  currentMkdPath : ServerPath
  commonParent : ServerPath
  segments : List WString
  currentPath : ServerPath

/-- The directory in front of a segment is not part of the text. -/
inductive MkdirCommand
  | cwd (directory : ServerPath)
  | mkd (directory : ServerPath) (segment : WString)
  | mkdFull (path : ServerPath)
  deriving DecidableEq

inductive MkdirEvent
  | sent (command : MkdirCommand)
  | answered (command : MkdirCommand) (response : WString)
  /-- `UpdateFile` for a directory in the cache of directory listings -/
  | updateFile (directory : ServerPath) (segment : WString)
  /-- `SendDirectoryListingNotification` -/
  | listing (directory : ServerPath)

/-- What a call of `Send` or `ParseResponse` leaves behind and returns. -/
structure MkdirOutcome where
  op : MkdirOperation
  command : Option MkdirCommand
  events : List MkdirEvent
  result : Reply

namespace MkdirOperation

def goOn (op : MkdirOperation) : MkdirOutcome :=
  ⟨op, none, [], Reply.continued⟩

def finish (op : MkdirOperation) (result : Reply) : MkdirOutcome :=
  ⟨op, none, [], result⟩

/-- `segments_.back()` -/
def back (op : MkdirOperation) : WString :=
  op.segments.getLast?.getD []

/-! ## Sending -/

def findCommonParent (op : MkdirOperation) : ServerPath :=
  if op.currentPath.empty then op.commonParent
  else if op.currentPath.isParentOf exactName op.path false then
    op.currentPath
  else op.path.getCommonParent op.currentPath

def alreadyThere (op : MkdirOperation) : Bool :=
  !op.currentPath.empty &&
    (op.currentPath.same op.path ||
      op.currentPath.isSubdirOf exactName op.path false)

/-- `Send` in the state `mkd_init`. -/
def sendInit (op : MkdirOperation) : MkdirOutcome :=
  if op.alreadyThere then op.finish Reply.ok
  else if !op.path.hasParent then
    goOn
      { op with commonParent := op.findCommonParent, opState := .tryfull }
  else
    goOn
      { op with
        commonParent := op.findCommonParent
        currentMkdPath := op.path.makeParent
        segments := op.segments ++ [op.path.getLastSegment]
        opState :=
          if op.path.makeParent.same op.currentPath then .mkdsub
          else .findparent }

/-- `SendCommand`.  A command that cannot be converted to the encoding of the
server is not sent. -/
def sendCommand (op : MkdirOperation) (converted : Bool)
    (command : MkdirCommand) : MkdirOutcome :=
  if converted then ⟨op, some command, [.sent command], Reply.wouldblock⟩
  else op.finish Reply.error

/-- `Send`, once the lock has been obtained. -/
def send (op : MkdirOperation) (converted : Bool) : MkdirOutcome :=
  match op.opState with
  | .init => op.sendInit
  | .findparent | .cwdsub =>
      { op with currentPath := op.currentPath.clear }.sendCommand converted
        (.cwd op.currentMkdPath)
  | .mkdsub => op.sendCommand converted (.mkd op.currentMkdPath op.back)
  | .tryfull => op.sendCommand converted (.mkdFull op.path)

/-! ## Replies -/

def accepted (response : WString) : Bool :=
  FileTransfer.positive (FileTransfer.responseCode response)

def saysOnly (text response path : WString) : Bool :=
  !decide (text <:+: path) && decide (text <:+: response)

def isAlreadyExistsResponse (rawResponse : WString) (rawPath : ServerPath) :
    Bool :=
  let response := FileTransfer.lowerAscii (rawResponse.drop 4)
  let path := FileTransfer.lowerAscii rawPath.getPath
  response == "directory already exists".toList ||
    response == "file or directory already exists".toList ||
    saysOnly "already exists".toList response path ||
    saysOnly "file exists".toList response path ||
    saysOnly "directory exists".toList response path

def parseFindparent (op : MkdirOperation) (response : WString) :
    MkdirOutcome :=
  if accepted response then
    goOn { op with currentPath := op.currentMkdPath, opState := .mkdsub }
  else if op.currentMkdPath.same op.commonParent then
    goOn { op with opState := .tryfull }
  else if op.currentMkdPath.hasParent then
    goOn
      { op with
        segments := op.segments ++ [op.currentMkdPath.getLastSegment]
        currentMkdPath := op.currentMkdPath.makeParent }
  else goOn { op with opState := .tryfull }

def segmentDone (op : MkdirOperation) : MkdirOutcome :=
  let following :=
    { op with
      currentMkdPath := op.currentMkdPath.withSegment op.back
      segments := op.segments.dropLast }
  let events :=
    [.updateFile op.currentMkdPath op.back, .listing op.currentMkdPath]
  if following.segments.isEmpty then ⟨following, none, events, Reply.ok⟩
  else
    ⟨{ following with opState := .cwdsub }, none, events, Reply.continued⟩

/-- The last argument is what the cache of directory listings knows about the
segment: whether there is an entry, and whether it is a directory. -/
def parseMkdsub (op : MkdirOperation) (response : WString)
    (cached : Option Bool) : MkdirOutcome :=
  if op.segments.isEmpty then op.finish Reply.internalerror
  else if accepted response then op.segmentDone
  else if !isAlreadyExistsResponse response op.path then
    op.finish Reply.error
  else if cached = some false then op.finish Reply.error
  else op.segmentDone

def parseResponse (op : MkdirOperation) (response : WString)
    (cached : Option Bool) : MkdirOutcome :=
  match op.opState with
  | .init => op.finish Reply.internalerror
  | .findparent => op.parseFindparent response
  | .mkdsub => op.parseMkdsub response cached
  | .cwdsub =>
      if accepted response then
        goOn { op with currentPath := op.currentMkdPath, opState := .mkdsub }
      else goOn { op with opState := .tryfull }
  | .tryfull =>
      if accepted response then op.finish Reply.ok else op.finish Reply.error

end MkdirOperation

/-! ## Runs -/

inductive MkdirStanding
  /-- in the loop of `SendNextCommand` -/
  | sending
  /-- for the lock -/
  | waiting
  | awaiting (command : MkdirCommand)
  | finished (result : Reply)
  deriving DecidableEq

/-- The operation next to the directory that the server is in. -/
structure MkdirRun where
  op : MkdirOperation
  holdsLock : Bool
  standing : MkdirStanding
  directory : ServerPath

inductive MkdirInput
  | sendNextCommand (lockWaiting converted : Bool)
  /-- A reply, and where the server is when it comes. -/
  | parseResponse (response : WString) (cached : Option Bool)
      (directory : ServerPath)
  /-- `ResetOperation` from outside, such as for a lost connection. -/
  | abort (result : Reply)

namespace MkdirRun

def after (run : MkdirRun) (outcome : MkdirOutcome) :
    MkdirRun × List MkdirEvent :=
  ({ run with
    op := outcome.op
    standing :=
      if outcome.result = Reply.continued then .sending
      else
        match outcome.command with
        | some command => .awaiting command
        | none => .finished outcome.result },
    outcome.events)

def sendNextCommand (run : MkdirRun) (lockWaiting converted : Bool) :
    Option (MkdirRun × List MkdirEvent) :=
  if lockWaiting then
    -- a lock that has been obtained is kept
    if run.holdsLock then none else some ({ run with standing := .waiting }, [])
  else some ({ run with holdsLock := true }.after (run.op.send converted))

def parseUnexpected (run : MkdirRun) (response : WString)
    (cached : Option Bool) : MkdirRun × List MkdirEvent :=
  if response.head? = some '1' then
    run.after (run.op.parseResponse response cached)
  else (run, [])

def parseResponse (run : MkdirRun) (command : MkdirCommand)
    (response : WString) (cached : Option Bool) (directory : ServerPath) :
    MkdirRun × List MkdirEvent :=
  let outcome := run.op.parseResponse response cached
  { run with directory := directory }.after
    { outcome with events := .answered command response :: outcome.events }

def step (run : MkdirRun) :
    MkdirInput → Option (MkdirRun × List MkdirEvent)
  | .sendNextCommand lockWaiting converted =>
      match run.standing with
      | .sending | .waiting => run.sendNextCommand lockWaiting converted
      | _ => none
  | .parseResponse response cached directory =>
      match run.standing with
      | .waiting => some (run.parseUnexpected response cached)
      | .awaiting command =>
          some (run.parseResponse command response cached directory)
      | _ => none
  | .abort result =>
      match run.standing with
      | .finished _ => none
      | _ =>
          if result.has Reply.error then
            some ({ run with standing := .finished result }, [])
          else none

/-- A `CWD` succeeds only by moving the server exactly there. -/
def movesExactly (run : MkdirRun) : MkdirInput → Bool
  | .parseResponse response _ directory =>
      match run.standing with
      | .awaiting (.cwd target) =>
          !MkdirOperation.accepted response || directory == target
      | _ => true
  | _ => true

/-- `Mkdir`.  The current directory is unknown or where the server is. -/
structure Begins (run : MkdirRun) : Prop where
  opState : run.op.opState = .init
  segments : run.op.segments = []
  holdsLock : run.holdsLock = false
  standing : run.standing = .sending
  truthful : run.op.currentPath.empty = true ∨
    run.directory = run.op.currentPath

end MkdirRun

def mkdirMachine : Machine MkdirRun MkdirInput MkdirEvent where
  initial := MkdirRun.Begins
  step := MkdirRun.step

end TabFtp
