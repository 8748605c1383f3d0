import TabFtp.DirectoryListing
import TabFtp.LabelledRuns
import TabFtp.ReplyCodes

/-!
# Transferring a file by FTP

The operation for one file.  It changes the directory, finds out about the
remote file, asks the user when the target exists, and then has the raw
transfer move the data.  The local file, the directory cache, the options and
the capabilities of the server are read anew in every step, so they are part
of the input, as are the replies and the answers of the user.

Sizes are 64 bits wide: unsigned for the local file with a largest value for
no file, signed for the remote file with a negative value for unknown.
-/

namespace TabFtp

open LabelledRuns

abbrev Size := BitVec 64

def nosize : Size := BitVec.allOnes 64

def unknownSize : Size := BitVec.allOnes 64

/-- A local file; the size of an existing file is a signed number. -/
structure LocalFile where
  size : Option (Fin (2 ^ 63))
  mtime : Option Datetime

def LocalFile.size64 (file : LocalFile) : Size :=
  match file.size with
  | none => nosize
  | some size => BitVec.ofNat 64 size

structure Direntry where
  size : Size
  time : Option Datetime
  hasTime : Bool
  unsure : Bool

/-- The answer of `CDirectoryCache::LookupFile`. -/
structure CacheLookup where
  entry : Option Direntry
  dirDidExist : Bool
  matchedCase : Bool

inductive Capability
  | resume2GBbug | resume4GBbug | mfmtCommand | mdtmCommand | sizeCommand
  | restStream
  deriving DecidableEq

inductive CapabilityState
  | unknown | yes | no
  deriving DecidableEq

inductive TransferEndReason
  | none | successful | timeout | transferFailure | transferFailureCritical
  | preTransferCommandFailure | transferCommandFailureImmediate
  | transferCommandFailure | failure | failedResumetest
  | failedTlsResumption | wrongTlsAlpn
  deriving DecidableEq

/-- What a step finds outside of the operation.  `formatFilename` and the last
three fields are functions of other parts of the program. -/
structure TransferEnv where
  localFile : LocalFile
  lookup : ServerPath → WString → CacheLookup
  currentPath : ServerPath
  serverType : ServerType
  capability : Capability → CapabilityState
  preserveTimestamps : Bool
  opensFile : Bool
  preallocates : Bool
  sendsCommand : Bool
  replyCode : ℕ
  formatFilename : ServerPath → WString → Bool → WString
  parseTime : WString → Option Datetime
  earlierThan : Datetime → Datetime → Bool
  laterThan : Datetime → Datetime → Bool

inductive FileTransferState
  | init | waitcwd | waitlist | size | mdtm | resumetest | transfer
  | waittransfer | waitresumetest | mfmt
  deriving DecidableEq

inductive SubOperation
  | changeDir (path : ServerPath)
  | list
  | rawTransfer
  deriving DecidableEq

/-- `MFMT` carries the local time, before the offset of the server is taken
off. -/
inductive TransferVerb
  | size | mdtm | retr | stor | appe
  | mfmt (time : Option Datetime)
  deriving DecidableEq

/-- A command with the name of the remote file. -/
structure TransferCommand where
  verb : TransferVerb
  remotePath : ServerPath
  remoteFile : WString
  omitPath : Bool

/-- `CFileExistsNotification`. -/
structure FileExists where
  download : Bool
  localFile : WString
  remoteFile : WString
  remotePath : ServerPath
  localSize : Size
  localTime : Option Datetime
  remoteSize : Size
  remoteTime : Option Datetime
  ascii : Bool
  canResume : Bool

/-- The operation.  `request` is the request that it waits for. -/
structure FileTransfer where
  opState : FileTransferState
  download : Bool
  binary : Bool
  resume : Bool
  tryAbsolutePath : Bool
  localName : WString
  remoteFile : WString
  remotePath : ServerPath
  localFileSize : Size
  localFileTime : Option Datetime
  remoteFileSize : Size
  remoteFileTime : Option Datetime
  resumeOffset : Size
  fileDidExist : Bool
  transferCommandSent : Bool
  transferInitiated : Bool
  transferEndReason : TransferEndReason
  subOperation : Option SubOperation
  request : Option FileExists
  finished : Option Reply

inductive TransferEvent
  | command (command : TransferCommand)
  | transfer (command : TransferCommand)
  | fileExists (request : FileExists)
  | skipped
  | payloadEnded (result : Reply)
  | setCapability (name : Capability) (state : CapabilityState)
  | ended (replyCode : Reply)

/-- An operation after a handler, what it did, and the result of the
handler. -/
structure TransferOutcome where
  op : FileTransfer
  events : List TransferEvent
  result : Reply

namespace FileTransfer

def command (op : FileTransfer) (verb : TransferVerb) : TransferCommand :=
  ⟨verb, op.remotePath, op.remoteFile, !op.tryAbsolutePath⟩

/-- `CFtpControlSocket::Transfer`. -/
def startTransfer (op : FileTransfer) (verb : TransferVerb) :
    TransferOutcome :=
  ⟨{ op with
      transferCommandSent := false
      transferEndReason := .successful
      subOperation := some .rawTransfer },
    [.transfer (op.command verb)], Reply.continued⟩

/-! ## Asking the user -/

def checkOverwriteFile (op : FileTransfer) (env : TransferEnv) :
    TransferOutcome :=
  let op := { op with
    localFileSize := env.localFile.size64
    localFileTime := env.localFile.mtime }
  if op.download ∧ op.localFileSize = nosize ∧ op.localFileTime = none then
    ⟨op, [], Reply.ok⟩
  else
    let remotePath :=
      if op.tryAbsolutePath || env.currentPath.empty then op.remotePath
      else env.currentPath
    let lookup := env.lookup remotePath op.remoteFile
    let entry := if lookup.matchedCase then lookup.entry else none
    let op := { op with
      remoteFileTime := op.remoteFileTime <|> entry.bind Direntry.time }
    if !op.download ∧ entry = none ∧ op.remoteFileSize.slt 0 ∧
        op.remoteFileTime = none then
      ⟨op, [], Reply.ok⟩
    else
      let request : FileExists :=
        { download := op.download
          localFile := op.localName
          remoteFile := op.remoteFile
          remotePath := op.remotePath
          localSize := op.localFileSize
          localTime := op.localFileTime
          remoteSize := op.remoteFileSize
          remoteTime := op.remoteFileTime
          ascii := !op.binary
          canResume :=
            if op.download then !op.localFileSize.slt 0
            else !op.remoteFileSize.slt 0 }
      ⟨{ op with request := some request }, [.fileExists request],
        Reply.wouldblock⟩

def afterCheck (outcome : TransferOutcome) : TransferOutcome :=
  if outcome.result = Reply.ok then { outcome with result := Reply.continued }
  else outcome

/-! ## Resuming -/

def startResumeTest (op : FileTransfer) : TransferOutcome :=
  { op with
    opState := .waitresumetest
    resumeOffset := op.remoteFileSize - 1 }.startTransfer .retr

/-- One round of the loop of `TestResumeCapability`. -/
def testResumeLimit (op : FileTransfer) (env : TransferEnv)
    (limit : Size) (bug : Capability) : TransferOutcome :=
  if op.localFileSize < limit then ⟨op, [], Reply.continued⟩
  else
    match env.capability bug with
    | .yes =>
        if op.remoteFileSize = op.localFileSize then ⟨op, [], Reply.ok⟩
        else ⟨op, [], Reply.criticalerror⟩
    | .unknown =>
        if op.remoteFileSize < op.localFileSize then
          ⟨op, [], Reply.continued⟩
        else if op.remoteFileSize = op.localFileSize then ⟨op, [], Reply.ok⟩
        else op.startResumeTest
    | .no => ⟨op, [], Reply.continued⟩

def testResumeCapability (op : FileTransfer) (env : TransferEnv) :
    TransferOutcome :=
  if !op.download then ⟨op, [], Reply.continued⟩
  else
    let first := op.testResumeLimit env (1 <<< 32) .resume4GBbug
    if first.result ≠ Reply.continued ∨
        first.op.opState = .waitresumetest then first
    else op.testResumeLimit env (1 <<< 31) .resume2GBbug

/-! ## Sending -/

def uploadVerb (op : FileTransfer) (env : TransferEnv) : TransferVerb :=
  if op.resume ∧ op.resumeOffset ≠ 0 then
    if env.capability .restStream = .yes then .stor else .appe
  else .stor

/-- `MFMT` follows when the server and the options ask for it. -/
def setRemoteTime (op : FileTransfer) (env : TransferEnv) :
    TransferOutcome :=
  if env.preserveTimestamps ∧ env.capability .mfmtCommand = .yes then
    let op := { op with localFileTime := env.localFile.mtime }
    if op.localFileTime ≠ none then
      ⟨{ op with opState := .mfmt }, [], Reply.continued⟩
    else ⟨op, [], Reply.ok⟩
  else ⟨op, [], Reply.ok⟩

def sendDownload (op : FileTransfer) (env : TransferEnv) : TransferOutcome :=
  if !env.opensFile then ⟨op, [], Reply.criticalerror⟩
  else if !env.preallocates ∧ !op.remoteFileSize.slt 0 ∧
      op.resumeOffset.slt op.remoteFileSize then
    ⟨op, [], Reply.error⟩
  else { op with opState := .waittransfer }.startTransfer .retr

def sendUpload (op : FileTransfer) (env : TransferEnv) : TransferOutcome :=
  if !env.opensFile then ⟨op, [], Reply.criticalerror⟩
  else
    { op with opState := .waittransfer }.startTransfer (op.uploadVerb env)

def nothingToUpload (op : FileTransfer) : Bool :=
  op.localFileSize ≠ nosize && op.localFileSize.sle op.resumeOffset &&
    op.binary

/-- `Send` in the states of the transfer itself. -/
def sendTransfer (op : FileTransfer) (env : TransferEnv) : TransferOutcome :=
  let op := { op with resumeOffset := 0 }
  if op.download then
    let op := { op with
      localFileSize := env.localFile.size64
      fileDidExist := env.localFile.size64 ≠ nosize }
    if op.resume then
      let op := { op with
        resumeOffset := if op.fileDidExist then op.localFileSize else 0 }
      if op.opState = .resumetest then
        let test := op.testResumeCapability env
        if test.result ≠ Reply.continued ∨ test.op.opState ≠ .resumetest then
          test
        else test.op.sendDownload env
      else op.sendDownload env
    else { op with localFileSize := 0 }.sendDownload env
  else if op.resume ∧ BitVec.slt 0 op.remoteFileSize then
    let op := { op with resumeOffset := op.remoteFileSize }
    if op.nothingToUpload then op.setRemoteTime env else op.sendUpload env
  else op.sendUpload env

def sendFileCommand (op : FileTransfer) (env : TransferEnv)
    (verb : TransferVerb) : TransferOutcome :=
  if env.sendsCommand then
    ⟨op, [.command (op.command verb)], Reply.wouldblock⟩
  else ⟨op, [], Reply.error⟩

def send (op : FileTransfer) (env : TransferEnv) : TransferOutcome :=
  match op.opState with
  | .init =>
      let remotePath :=
        if op.remotePath.type = .default then
          { op.remotePath with type := env.serverType }
        else op.remotePath
      ⟨{ op with
          localFileSize := env.localFile.size64
          opState := .waitcwd
          remotePath := remotePath
          subOperation := some (.changeDir remotePath) }, [],
        Reply.continued⟩
  | .size => op.sendFileCommand env .size
  | .mdtm => op.sendFileCommand env .mdtm
  | .resumetest | .transfer => op.sendTransfer env
  | .mfmt => op.sendFileCommand env (.mfmt op.localFileTime)
  | _ => ⟨op, [], Reply.error⟩

/-! ## Replies -/

/-- The library's `fz::tolower_ascii`.  The two Turkish letters count as an
`i`. -/
def tolowerAscii (c : Char) : Char :=
  if c.toNat = 0x130 ∨ c.toNat = 0x131 then 'i' else c.toLower

def lowerAscii (text : WString) : WString :=
  text.map tolowerAscii

def notFoundText : WString := "file not found".toList

/-- The reply to `SIZE` says that there is no file. -/
def saysNotFound (op : FileTransfer) (env : TransferEnv)
    (response : WString) : Bool :=
  let filename := env.formatFilename op.remotePath op.remoteFile false
  lowerAscii (response.drop 4) = notFoundText ||
    (!decide (notFoundText <:+: lowerAscii filename) &&
      decide (notFoundText <:+: lowerAscii response))

def leadingDigits (text : WString) : List Char :=
  text.takeWhile fun c => '0' ≤ c && c ≤ '9'

/-- The number in the reply to `SIZE`, in 64 bits. -/
def parseSize (text : WString) : Size :=
  (leadingDigits text).foldl
    (fun size c => size * 10 + BitVec.ofNat 64 (c.toNat - '0'.toNat)) 0

def responseCode (response : WString) : ℕ :=
  match response.head? with
  | some c => if '0' ≤ c ∧ c ≤ '9' then c.toNat - '0'.toNat else 0
  | none => 0

def positive (code : ℕ) : Bool := code = 2 || code = 3

def parseResponse (op : FileTransfer) (env : TransferEnv)
    (response : WString) : TransferOutcome :=
  let code := responseCode response
  match op.opState with
  | .size =>
      if !positive code then
        if env.capability .sizeCommand = .yes ∨
            op.saysNotFound env response then
          afterCheck ({ op with opState := .resumetest }.checkOverwriteFile env)
        else ⟨{ op with opState := .mdtm }, [], Reply.continued⟩
      else
        let op := { op with opState := .mdtm }
        if response.take 4 = "213 ".toList ∧ 4 < response.length then
          ⟨{ op with remoteFileSize := parseSize (response.drop 4) },
            if env.capability .sizeCommand = .unknown then
              [.setCapability .sizeCommand .yes]
            else [], Reply.continued⟩
        else ⟨op, [], Reply.continued⟩
  | .mdtm =>
      let op := { op with opState := .resumetest }
      let op :=
        if response.take 4 = "213 ".toList ∧ 16 < response.length then
          { op with remoteFileTime := env.parseTime (response.drop 4) }
        else op
      afterCheck (op.checkOverwriteFile env)
  | .mfmt => ⟨op, [], Reply.ok⟩
  | _ => ⟨op, [], Reply.internalerror⟩

/-! ## Results of sub-operations -/

def lookupPath (op : FileTransfer) (env : TransferEnv) : ServerPath :=
  if op.tryAbsolutePath then op.remotePath else env.currentPath

def needsTime (op : FileTransfer) (env : TransferEnv) (hasTime : Bool) :
    Bool :=
  op.download && !hasTime && env.preserveTimestamps &&
    env.capability .mdtmCommand = .yes

def takeEntry (op : FileTransfer) (env : TransferEnv) (entry : Direntry) :
    FileTransfer :=
  { op with
    remoteFileSize := entry.size
    remoteFileTime := if entry.time = none then op.remoteFileTime else entry.time
    opState := if op.needsTime env entry.hasTime then .mdtm else .resumetest }

def withoutEntry (op : FileTransfer) (env : TransferEnv) : FileTransfer :=
  { op with
    opState := if op.needsTime env false then .mdtm else .resumetest }

def afterCwd (op : FileTransfer) (env : TransferEnv) : FileTransfer :=
  let lookup := env.lookup (op.lookupPath env) op.remoteFile
  match lookup.entry with
  | none =>
      if !lookup.dirDidExist then { op with opState := .waitlist }
      else op.withoutEntry env
  | some entry =>
      if entry.unsure then { op with opState := .waitlist }
      else if lookup.matchedCase then op.takeEntry env entry
      else { op with opState := .size }

def afterList (op : FileTransfer) (env : TransferEnv) : FileTransfer :=
  let lookup := env.lookup (op.lookupPath env) op.remoteFile
  match lookup.entry with
  | none =>
      if !lookup.dirDidExist then { op with opState := .size }
      else op.withoutEntry env
  | some entry =>
      if lookup.matchedCase ∧ !entry.unsure then op.takeEntry env entry
      else { op with opState := .size }

def resumeBug (op : FileTransfer) : Capability :=
  if op.localFileSize > 1 <<< 32 then .resume4GBbug else .resume2GBbug

def subcommandResult (op : FileTransfer) (env : TransferEnv)
    (prevResult : Reply) : TransferOutcome :=
  match op.opState with
  | .waitcwd =>
      if prevResult = Reply.ok then
        let op := op.afterCwd env
        if op.opState = .waitlist then
          ⟨{ op with subOperation := some .list }, [], Reply.continued⟩
        else if op.opState = .resumetest then
          afterCheck (op.checkOverwriteFile env)
        else ⟨op, [], Reply.continued⟩
      else
        ⟨{ op with tryAbsolutePath := true, opState := .size }, [],
          Reply.continued⟩
  | .waitlist =>
      if prevResult = Reply.ok then
        let op := op.afterList env
        if op.opState = .resumetest then
          afterCheck (op.checkOverwriteFile env)
        else ⟨op, [], Reply.continued⟩
      else ⟨{ op with opState := .size }, [], Reply.continued⟩
  | .waittransfer =>
      if prevResult = Reply.ok ∧ !op.download then op.setRemoteTime env
      else ⟨op, [], prevResult⟩
  | .waitresumetest =>
      if prevResult ≠ Reply.ok then
        if op.transferEndReason = .failedResumetest then
          ⟨op, [.setCapability op.resumeBug .yes],
            prevResult ||| Reply.criticalerror⟩
        else ⟨op, [], prevResult⟩
      else
        ⟨{ op with opState := .transfer }, [.setCapability op.resumeBug .no],
          Reply.continued⟩
  | _ => ⟨op, [], Reply.continued⟩

/-! ## The answer of the user -/

inductive OverwriteAction
  | overwrite | overwriteNewer | overwriteSize | overwriteSizeOrNewer
  | resume | skip | unknown
  | rename (newName : WString) (newTarget : Bool)

def skipFile (op : FileTransfer) : TransferOutcome :=
  ⟨op, [.skipped], Reply.ok⟩

def proceed (op : FileTransfer) : TransferOutcome :=
  ⟨op, [], Reply.continued⟩

def sourceNewer (env : TransferEnv) (request : FileExists) : Bool :=
  match request.localTime, request.remoteTime with
  | some localTime, some remoteTime =>
      if request.download then env.earlierThan localTime remoteTime
      else env.laterThan localTime remoteTime
  | _, _ => false

def timesUnknown (request : FileExists) : Bool :=
  request.localTime = none || request.remoteTime = none

def sizesDiffer (request : FileExists) : Bool :=
  request.localSize ≠ request.remoteSize || request.localSize.slt 0

def rename (op : FileTransfer) (env : TransferEnv) (newName : WString)
    (newTarget : Bool) : TransferOutcome :=
  if op.download then
    if !newTarget then ⟨op, [], Reply.internalerror⟩
    else
      let op := { op with
        localName := newName
        localFileSize := env.localFile.size64
        localFileTime := env.localFile.mtime }
      afterCheck (op.checkOverwriteFile env)
  else
    let op := { op with
      remoteFile := newName
      remoteFileSize := unknownSize
      remoteFileTime := none }
    let lookup := env.lookup (op.lookupPath env) newName
    match (if lookup.matchedCase then lookup.entry else none) with
    | none => op.proceed
    | some entry =>
        let op := { op with
          remoteFileSize := entry.size
          remoteFileTime := entry.time }
        afterCheck (op.checkOverwriteFile env)

def setFileExistsAction (op : FileTransfer) (env : TransferEnv)
    (request : FileExists) (action : OverwriteAction) : TransferOutcome :=
  match action with
  | .overwrite => op.proceed
  | .overwriteNewer =>
      if timesUnknown request || sourceNewer env request then op.proceed
      else op.skipFile
  | .overwriteSize =>
      if sizesDiffer request then op.proceed else op.skipFile
  | .overwriteSizeOrNewer =>
      if timesUnknown request || sizesDiffer request ||
          sourceNewer env request then op.proceed
      else op.skipFile
  | .resume =>
      if (op.download ∧ op.localFileSize ≠ nosize) ∨
          (!op.download ∧ !op.remoteFileSize.slt 0) then
        { op with resume := true }.proceed
      else op.proceed
  | .rename newName newTarget => op.rename env newName newTarget
  | .skip => op.skipFile
  | .unknown => ⟨op, [], Reply.internalerror⟩

/-! ## Steps -/

def refusedAtOnce (op : FileTransfer) (env : TransferEnv) : Bool :=
  op.transferEndReason = .transferCommandFailureImmediate && env.replyCode = 5

def endingCode (op : FileTransfer) (env : TransferEnv) (errorCode : Reply) :
    Reply :=
  if !op.transferCommandSent then errorCode
  else if op.transferEndReason = .transferFailureCritical then
    errorCode ||| Reply.criticalerror ||| Reply.writefailed
  else if op.refusedAtOnce env ∧ errorCode = Reply.error then
    errorCode ||| Reply.criticalerror
  else errorCode

/-- `CFtpControlSocket::ResetOperation` for a transfer. -/
def resetOperation (op : FileTransfer) (env : TransferEnv)
    (errorCode : Reply) : FileTransfer :=
  { op with
    transferInitiated := op.transferInitiated ||
      (op.transferCommandSent && !op.refusedAtOnce env)
    finished := some (op.endingCode env errorCode) }

def conclude (env : TransferEnv) (outcome : TransferOutcome) :
    FileTransfer × List TransferEvent :=
  if outcome.result = Reply.continued ∨ outcome.result = Reply.wouldblock then
    (outcome.op, outcome.events)
  else
    (outcome.op.resetOperation env outcome.result,
      outcome.events ++ [.ended (outcome.op.endingCode env outcome.result)])

/-- `abort` stands for all that ends the operation from outside with an
error. -/
inductive Input
  | send (env : TransferEnv)
  | response (env : TransferEnv) (response : WString)
  | subcommandResult (env : TransferEnv) (prevResult : Reply)
      (commandSent : Bool) (endReason : TransferEndReason)
  | fileExistsReply (env : TransferEnv) (action : OverwriteAction)
  | abort (env : TransferEnv) (errorCode : Reply)

def step (op : FileTransfer) (input : Input) :
    Option (FileTransfer × List TransferEvent) :=
  if op.finished ≠ none then none
  else
    match input with
    | .send env =>
        if op.subOperation = none ∧ op.request = none then
          some (conclude env (op.send env))
        else none
    | .response env response =>
        if op.subOperation = none then
          some (conclude env (op.parseResponse env response))
        else none
    | .subcommandResult env prevResult commandSent endReason =>
        match op.subOperation with
        | none => none
        | some sub =>
            let op := { op with subOperation := none }
            if sub = .rawTransfer then
              let op := { op with
                transferCommandSent := commandSent
                transferEndReason := endReason }
              let ended :=
                if op.opState = .waittransfer then
                  [TransferEvent.payloadEnded prevResult]
                else []
              let result := conclude env (op.subcommandResult env prevResult)
              some (result.1, ended ++ result.2)
            else some (conclude env (op.subcommandResult env prevResult))
    | .fileExistsReply env action =>
        match op.request with
        | none => none
        | some request =>
            if op.subOperation = none then
              some (conclude env
                ({ op with request := none }.setFileExistsAction env request
                  action))
            else none
    | .abort env errorCode =>
        if errorCode = Reply.ok then none
        else
          some (conclude env ⟨op, [], errorCode⟩)

def created (op : FileTransfer) : Prop :=
  op.opState = .init ∧ op.resume = false ∧ op.tryAbsolutePath = false ∧
    op.remoteFileSize = unknownSize ∧ op.remoteFileTime = none ∧
    op.resumeOffset = 0 ∧ op.fileDidExist = true ∧
    op.transferCommandSent = false ∧ op.transferInitiated = false ∧
    op.transferEndReason = .successful ∧ op.subOperation = none ∧
    op.request = none ∧ op.finished = none

end FileTransfer

def fileTransferMachine :
    Machine FileTransfer FileTransfer.Input TransferEvent where
  initial := FileTransfer.created
  step := FileTransfer.step

end TabFtp
