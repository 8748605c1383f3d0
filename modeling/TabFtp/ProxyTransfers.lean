import TabFtp.LabelledRuns
import TabFtp.QueueItems
import TabFtp.SiteUrl
import TabFtp.UniqueKeys

/-!
# Transfers between servers

A file goes from one server to another by way of a temporary file: a download
is queued, the action after a successful download queues the upload, and the
action after the upload removes the temporary file.  The name of the temporary
file is that of the file on the server.

The temporary files are followed byte by byte.  Each transfer remembers what
its own download has received, to be compared with what its upload reads.
-/

namespace TabFtp

/-- The arguments of `QueueProxyTransfer`. -/
structure ProxyCall where
  sourceSite : Site
  sourcePath : ServerPath
  fileName : WString
  targetSite : Site
  targetPath : ServerPath

/-- The temporary directory, and the file that a path stands for. -/
structure TemporaryFiles where
  localTempPath : LocalPath
  resolve : WString → ℕ

namespace ProxyCall

variable (temporary : TemporaryFiles) (call : ProxyCall)

def downloadItem : FileItem :=
  (FileItem.create TransferFlags.download call.fileName call.fileName
    temporary.localTempPath call.sourcePath (-1) [] []).setPriorityRaw .highest

def uploadItem : FileItem :=
  (FileItem.create 0 call.fileName call.fileName temporary.localTempPath
    call.targetPath (-1) [] []).setPriorityRaw .highest

def fullPath : WString := temporary.localTempPath.path ++ call.fileName

end ProxyCall

/-- `GetLocalPath().GetPath() + GetLocalFile()` -/
def FileItem.localName (item : FileItem) : WString :=
  item.localPath.path ++ item.localFile

namespace ProxyTransfers

/-- Where the items of a call are.  A download that is active writes at a
position of its own. -/
inductive Phase
  | downloadQueued
  | downloading (position : ℕ)
  | uploadQueued
  | uploading
  deriving DecidableEq

structure Transfer where
  id : ℕ
  call : ProxyCall
  phase : Phase
  /-- What the download has received from the server. -/
  received : List UInt8

/-- A download or an upload in the list of failed or of successful transfers.
It keeps its action there. -/
structure EndedItem where
  call : ProxyCall
  upload : Bool
  received : List UInt8

/-- What an upload reads. -/
structure Reading where
  transfer : Transfer
  content : Option (List UInt8)

end ProxyTransfers

open ProxyTransfers

structure ProxyTransfers where
  transfers : List Transfer
  ended : List EndedItem
  files : ℕ → Option (List UInt8)
  nextId : ℕ

namespace ProxyTransfers

variable (temporary : TemporaryFiles) (state : ProxyTransfers)

def find (id : ℕ) : Option Transfer :=
  state.transfers.find? fun transfer => decide (transfer.id = id)

def modify (id : ℕ) (change : Transfer → Transfer) : ProxyTransfers :=
  { state with
    transfers := UniqueKeys.write Transfer.id id change state.transfers }

def forget (id : ℕ) : ProxyTransfers :=
  { state with
    transfers := state.transfers.filter fun transfer =>
      !decide (transfer.id = id) }

def writeFile (file : ℕ) (content : Option (List UInt8)) : ProxyTransfers :=
  { state with files := Function.update state.files file content }

def insertItem (call : ProxyCall) (phase : Phase) (received : List UInt8) :
    ProxyTransfers :=
  { state with
    transfers := state.transfers ++ [⟨state.nextId, call, phase, received⟩]
    nextId := state.nextId + 1 }

def queueProxyTransfer (call : ProxyCall) : ProxyTransfers :=
  state.insertItem call .downloadQueued []

def writeAt (content : List UInt8) (position : ℕ) (bytes : List UInt8) :
    List UInt8 :=
  content.take position ++ List.replicate (position - content.length) 0 ++
    bytes ++ content.drop (position + bytes.length)

/-- The download opens its local file.  A file that exists is overwritten, or
the download goes on at its end. -/
def startDownload (transfer : Transfer) (overwrite : Bool) : ProxyTransfers :=
  let file := temporary.resolve (transfer.call.downloadItem temporary).localName
  match state.files file, overwrite with
  | some content, false =>
      state.modify transfer.id fun transfer =>
        { transfer with phase := .downloading content.length }
  | _, _ =>
      (state.writeFile file (some [])).modify transfer.id fun transfer =>
        { transfer with phase := .downloading 0, received := [] }

/-- The download receives some bytes.  Those written to a file that has been
removed are lost. -/
def receive (transfer : Transfer) (position : ℕ) (bytes : List UInt8) :
    ProxyTransfers :=
  let file := temporary.resolve (transfer.call.downloadItem temporary).localName
  let written := (state.files file).map fun content =>
    writeAt content position bytes
  (state.writeFile file written).modify transfer.id fun transfer =>
    { transfer with
      phase := .downloading (position + bytes.length)
      received := transfer.received ++ bytes }

def setPhase (transfer : Transfer) (phase : Phase) : ProxyTransfers :=
  state.modify transfer.id fun transfer => { transfer with phase := phase }

/-- The action after a failed download or after an upload.  The file may not
be removable. -/
def removeTemporary (call : ProxyCall) (removable : Bool) : ProxyTransfers :=
  if removable then
    state.writeFile (temporary.resolve (call.fullPath temporary)) none
  else state

/-- The item goes to a list of transfers that have ended. -/
def keepEnded (transfer : Transfer) (upload : Bool) : ProxyTransfers :=
  { state with
    ended := state.ended ++ [⟨transfer.call, upload, transfer.received⟩] }

def removeEnded (index : ℕ) : ProxyTransfers :=
  { state with ended := state.ended.eraseIdx index }

/-- `RequeueFileItem`.  An upload without its local file is deleted. -/
def requeueFileItem (item : EndedItem) : ProxyTransfers :=
  if item.upload then
    let file := temporary.resolve (item.call.uploadItem temporary).localName
    if (state.files file).isSome then
      state.insertItem item.call .uploadQueued item.received
    else state
  else state.insertItem item.call .downloadQueued item.received

/-! ## The steps of the transfers -/

def findInPhase (id : ℕ) (phase : Phase) : Option Transfer :=
  (state.find id).filter fun transfer => decide (transfer.phase = phase)

def findDownloading (id : ℕ) : Option (Transfer × ℕ) :=
  match state.find id with
  | none => none
  | some transfer =>
      match transfer.phase with
      | .downloading position => some (transfer, position)
      | _ => none

/-- Transfers are named by a number, those that have ended by their place in
the list.  One that fails is tried again, or it is over until the user queues
it again. -/
inductive Request
  | queueProxyTransfer (call : ProxyCall)
  | startDownload (id : ℕ) (overwrite : Bool)
  | receive (id : ℕ) (bytes : List UInt8)
  | retryDownload (id : ℕ)
  | succeedDownload (id : ℕ)
  | failDownload (id : ℕ) (removable : Bool)
  | startUpload (id : ℕ)
  | read (id : ℕ)
  | retryUpload (id : ℕ)
  | finishUpload (id : ℕ) (removable : Bool)
  | removeItem (id : ℕ)
  | requeue (index : ℕ)
  | removeEnded (index : ℕ)

def step (state : ProxyTransfers) :
    Request → Option (ProxyTransfers × List Reading)
  | .queueProxyTransfer call => some (state.queueProxyTransfer call, [])
  | .startDownload id overwrite =>
      (state.findInPhase id .downloadQueued).map fun transfer =>
        (state.startDownload temporary transfer overwrite, [])
  | .receive id bytes =>
      (state.findDownloading id).map fun (transfer, position) =>
        (state.receive temporary transfer position bytes, [])
  | .retryDownload id =>
      (state.findDownloading id).map fun (transfer, _) =>
        (state.setPhase transfer .downloadQueued, [])
  | .succeedDownload id =>
      (state.findDownloading id).map fun (transfer, _) =>
        ((state.setPhase transfer .uploadQueued).keepEnded transfer false, [])
  | .failDownload id removable =>
      (state.findDownloading id).map fun (transfer, _) =>
        (((state.removeTemporary temporary transfer.call removable).forget
          transfer.id).keepEnded transfer false, [])
  | .startUpload id =>
      (state.findInPhase id .uploadQueued).map fun transfer =>
        (state.setPhase transfer .uploading, [])
  | .read id =>
      (state.findInPhase id .uploading).map fun transfer =>
        let file :=
          temporary.resolve (transfer.call.uploadItem temporary).localName
        (state, [⟨transfer, state.files file⟩])
  | .retryUpload id =>
      (state.findInPhase id .uploading).map fun transfer =>
        (state.setPhase transfer .uploadQueued, [])
  | .finishUpload id removable =>
      (state.findInPhase id .uploading).map fun transfer =>
        (((state.removeTemporary temporary transfer.call removable).forget
          transfer.id).keepEnded transfer true, [])
  | .removeItem id => some (state.forget id, [])
  | .requeue index =>
      (state.ended[index]?).map fun item =>
        ((state.removeEnded index).requeueFileItem temporary item, [])
  | .removeEnded index => some (state.removeEnded index, [])

/-- There are no calls yet, and any temporary files. -/
def machine (temporary : TemporaryFiles) :
    LabelledRuns.Machine ProxyTransfers Request Reading where
  initial := fun state => state.transfers = [] ∧ state.ended = []
  step := step temporary

end ProxyTransfers

end TabFtp
