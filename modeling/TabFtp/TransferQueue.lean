import TabFtp.QueueTotals
import TabFtp.ReplyCodes

/-!
# The transfer queue and its engines

The queue view assigns the idle items of its tree to engine records.  A record
has an engine of its own, or for a while the engine of a browsing connection:
it is transient then.  Counters of the active records and items tell how many
transfers may be started.

Records and items are referred to by their addresses, and an address is not
used again.  Here are the data and the single changes; the routines of the
queue view, which call each other, are made of these.
-/

namespace TabFtp

namespace TransferQueue

/-- The engine of a record that the queue has created, and the engine of a
browsing connection. -/
inductive Engine
  | own (address : ℕ)
  | browsing (context : ℕ)
  deriving DecidableEq

/-- `t_EngineData::EngineDataState` -/
inductive EngineState
  | none | cancel | disconnect | connect | transfer | list | mkdir
  | askpassword | waitprimary
  deriving DecidableEq

/-- `Site`.  What else its comparison looks at is in `details`. -/
structure QueueSite where
  server : Server
  connectionLimit : ℕ
  details : ℕ

/-- `Site::operator==` -/
def QueueSite.same (site other : QueueSite) : Bool :=
  site.server.same other.server && site.details == other.details &&
    site.connectionLimit == other.connectionLimit

/-- `t_EngineData`.  The engine is set when a record is created. -/
structure EngineData where
  address : ℕ
  engine : Engine
  active : Bool
  transient : Bool
  state : EngineState
  item : Option ItemId
  lastSite : Option QueueSite

namespace EngineData

def lastSiteIs (data : EngineData) (site : QueueSite) : Bool :=
  match data.lastSite with
  | none => false
  | some lastSite => lastSite.same site

end EngineData

structure Listing where
  path : ServerPath
  firstListTime : ℕ
  deriving DecidableEq

/-- `CState` -/
structure BrowsingState where
  context : ℕ
  site : Option QueueSite
  remoteDir : Option Listing

structure World where
  states : List BrowsingState
  isConnected : Engine → Bool
  /-- `CLoginManager::GetPassword(site, true)` -/
  hasPassword : Option QueueSite → Bool
  /-- What the next call of `Execute` returns. -/
  reply : Reply
  /-- `CQueueViewSuccessful::AutoClear` -/
  autoClear : Bool
  numTransfers : ℕ
  concurrentDownloadLimit : ℕ
  concurrentUploadLimit : ℕ
  reconnectCount : ℕ

/-- The world changes with the calls of `Execute`, which are counted. -/
abbrev Environment := ℕ → World

inductive ResetReason
  | success | failure | reset | retry | remove

/-- What a row of the queue shows. -/
inductive QueueRow
  | server (key : ServerId)
  | file (id : ItemId)
  | status (id : ItemId)
  deriving DecidableEq

/-- What others see of the queue view. -/
inductive Effect
  | execute (address : ℕ) (engine : Engine) (command : Command)
  | cancel (engine : Engine)
  | requestExclusiveEngine (engine : Engine)
  | releaseEngine (engine : Engine)
  /-- An item pointer of a loop is used, and whether the item is in the
  tree then. -/
  | use (row : QueueRow) (present : Bool)
  deriving DecidableEq

structure NewFile where
  site : QueueSite
  item : FileItem

end TransferQueue

open TransferQueue

/-- `CQueueView` -/
structure TransferQueue where
  view : QueueView
  /-- `CServerItem::GetSite` -/
  site : ServerId → QueueSite
  /-- `CServerItem::m_activeCount` -/
  serverActiveCount : ServerId → ℤ
  /-- `CFileItem::m_pEngineData` -/
  engineDataOf : ItemId → Option ℕ
  /-- The file that `m_postTransferAction` queues after a success. -/
  postTransferAction : ItemId → Option NewFile
  /-- The items of the lists of failed and of successful transfers. -/
  failed : List ItemId
  successful : List ItemId
  engineData : List EngineData
  activeCount : ℤ
  activeCountDown : ℤ
  activeCountUp : ℤ
  /-- 0 if the queue is not active, 1 if immediate transfers are done only. -/
  activeMode : ℕ
  waitingForPassword : List TransferQueue.Engine
  lastRefresh : Option (Server × Listing)
  nextItem : ItemId
  nextServer : ServerId
  nextAddress : ℕ
  executions : ℕ
  effects : List Effect
  /-- The items of the calls of `ResetEngine` that are being executed and have
  told the server item already. -/
  resetting : List ItemId
  /-- A pointer to an item that is not in the tree has been used. -/
  usedDestroyed : Bool

namespace TransferQueue

variable (queue : TransferQueue)

def world (environment : Environment) : World := environment queue.executions

def emit (effect : Effect) : TransferQueue :=
  { queue with effects := queue.effects ++ [effect] }

/-! ## Records -/

def find (address : ℕ) : Option EngineData :=
  queue.engineData.find? fun data => decide (data.address = address)

def modify (address : ℕ) (change : EngineData → EngineData) : TransferQueue :=
  { queue with
    engineData :=
      UniqueKeys.write EngineData.address address change queue.engineData }

def setState (address : ℕ) (state : EngineState) : TransferQueue :=
  queue.modify address fun data => { data with state := state }

def getEngineData (engine : Engine) : Option EngineData :=
  queue.engineData.find? fun data => decide (data.engine = engine)

def createEngine : TransferQueue :=
  { queue with
    engineData := queue.engineData ++
      [⟨queue.nextAddress, .own queue.nextAddress, false, false, .none, none,
        none⟩]
    nextAddress := queue.nextAddress + 1 }

def createTransient (context : ℕ) : TransferQueue :=
  { queue with
    engineData := queue.engineData ++
      [⟨queue.nextAddress, .browsing context, false, true, .waitprimary, none,
        none⟩]
    nextAddress := queue.nextAddress + 1 }

/-- `m_pEngine->Execute` -/
def execute (data : EngineData) (command : Command) : TransferQueue :=
  { queue.emit (.execute data.address data.engine command) with
    executions := queue.executions + 1 }

/-! ## Items -/

def item (id : ItemId) : Option FileItem := queue.view.items id

def modifyItem (id : ItemId) (change : FileItem → FileItem) : TransferQueue :=
  { queue with
    view := { queue.view with items := queue.view.items.modify id change } }

def topLevelItem (id : ItemId) : Option (ServerId × ServerItem) :=
  queue.view.serverList.find? fun entry =>
    decide (id ∈ entry.2.children.live)

def onServer (key : ServerId) (operation : ItemQueue → ItemQueue) :
    TransferQueue :=
  match queue.view.server key with
  | none => queue
  | some server =>
      { queue with
        view := queue.view.put key (operation ⟨server, queue.view.items⟩) }

def getServerItem (site : QueueSite) : Option ServerId :=
  (queue.view.serverList.find? fun entry =>
    (queue.site entry.1).same site).map Prod.fst

def createServerItem (site : QueueSite) : ServerId × TransferQueue :=
  match queue.getServerItem site with
  | some key => (key, queue)
  | none =>
      let key := queue.nextServer
      (key,
        { queue with
          view := queue.view.createServerItem key
          site := Function.update queue.site key site
          serverActiveCount := Function.update queue.serverActiveCount key 0
          nextServer := key + 1 })

def insertItem (key : ServerId) (item : FileItem)
    (onSuccess : Option NewFile) : TransferQueue :=
  match queue.view.server key with
  | none => queue
  | some server =>
      let id := queue.nextItem
      let view := { queue.view with items := queue.view.items.write id item }
      { queue with
        view := view.insertItem key server id item
        postTransferAction :=
          Function.update queue.postTransferAction id onSuccess
        engineDataOf := Function.update queue.engineDataOf id none
        nextItem := id + 1 }

/-- `QueueFile` and the other functions that insert one file. -/
def queueFile (file : NewFile) (onSuccess : Option NewFile) : TransferQueue :=
  let (key, queue) := queue.createServerItem file.site
  queue.insertItem key file.item onSuccess

/-- `RemoveItem`, and whether the server item has been deleted as well. -/
def removeItem (id : ItemId) (destroy forward : Bool) :
    TransferQueue × Bool :=
  match queue.topLevelItem id, queue.item id with
  | some (key, server), some item =>
      let view := queue.view.removeItem key server id item destroy forward
      ({ queue with view := view }, (view.server key).isNone)
  | _, _ => (queue, false)

/-! ## A transfer begins -/

def countActive (id : ItemId) (difference : ℤ) : TransferQueue :=
  match queue.item id with
  | none => queue
  | some item =>
      if item.download then
        { queue with activeCountDown := queue.activeCountDown + difference }
      else { queue with activeCountUp := queue.activeCountUp + difference }

def firstState (world : World) (data : EngineData) (site : QueueSite)
    (item : FileItem) : EngineState :=
  if data.state = .waitprimary then .waitprimary
  else if world.isConnected data.engine = false then
    if world.hasPassword (some site) then .connect else .askpassword
  else if data.lastSiteIs site = false then .disconnect
  else
    match item.type with
    | .file => .transfer
    | .folder => .mkdir

def assign (world : World) (data : EngineData) (key : ServerId) (id : ItemId)
    (item : FileItem) : TransferQueue :=
  let site := queue.site key
  let queue := queue.onServer key fun queue => queue.setActive id true 0
  let queue :=
    { queue with
      engineDataOf := Function.update queue.engineDataOf id (some data.address)
      serverActiveCount := Function.update queue.serverActiveCount key
        (queue.serverActiveCount key + 1)
      activeCount := queue.activeCount + 1 }
  (queue.countActive id 1).modify data.address fun data =>
    { data with
      item := some id
      active := true
      lastSite := some site
      state := firstState world data site item }

/-! ## A transfer ends -/

def leaveServer (id : ItemId) : TransferQueue :=
  match queue.topLevelItem id with
  | none => queue
  | some (key, _) =>
      if 0 < queue.serverActiveCount key then
        { queue with
          serverActiveCount := Function.update queue.serverActiveCount key
            (queue.serverActiveCount key - 1)
          resetting := id :: queue.resetting }
      else queue

def deactivate (id : ItemId) : TransferQueue :=
  let queue :=
    match queue.topLevelItem id with
    | none => queue
    | some (key, _) =>
        queue.onServer key fun queue => queue.setActive id false 0
  let queue := { queue with resetting := queue.resetting.erase id }
  match queue.item id with
  | none => queue
  | some item =>
      if item.download then
        if 0 < queue.activeCountDown then
          { queue with activeCountDown := queue.activeCountDown - 1 }
        else queue
      else
        if 0 < queue.activeCountUp then
          { queue with activeCountUp := queue.activeCountUp - 1 }
        else queue

def settle (world : World) (id : ItemId) : ResetReason → TransferQueue
  | .reset =>
      match queue.topLevelItem id with
      | none => queue
      | some (key, _) =>
          queue.onServer key fun queue => queue.queueImmediateFile id
  | .failure =>
      let queue := (queue.removeItem id false true).1
      { queue with failed := queue.failed ++ [id] }
  | .success =>
      if world.autoClear then (queue.removeItem id true true).1
      else
        let queue := (queue.removeItem id false true).1
        { queue with successful := queue.successful ++ [id] }
  | .remove => (queue.removeItem id true true).1
  | .retry => queue

/-- The record is free again.  One that waits for a browsing connection
withdraws its request. -/
def freeEngine (data : EngineData) : TransferQueue :=
  let queue :=
    { queue with
      activeCount :=
        if 0 < queue.activeCount then queue.activeCount - 1
        else queue.activeCount }
  let queue :=
    if data.state = .waitprimary then
      queue.emit (.releaseEngine data.engine)
    else queue
  queue.modify data.address fun data =>
    { data with item := none, active := false, state := .none }

/-- Transient records that are not active are deleted. -/
def eraseTransient : TransferQueue :=
  let erased := queue.engineData.filter fun data =>
    !data.active && data.transient
  { queue with
    engineData := queue.engineData.filter fun data =>
      !(!data.active && data.transient)
    effects := queue.effects ++
      erased.map fun data => .releaseEngine data.engine }

end TransferQueue

end TabFtp
