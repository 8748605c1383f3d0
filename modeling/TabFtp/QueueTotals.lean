import TabFtp.ListingTokens
import TabFtp.QueueScheduling
import TabFtp.UniqueKeys

/-!
# The totals of the queue

The queue view keeps the number of its items, the sum of the sizes that are
known and the number of the files of which the size is not known.  The totals
follow the insertion, the removal and the change of single items.  When all
items are removed, those that are active stay, and the totals are calculated
again from the lists of the scheduler.

A server item is referred to by its address, as its items are.
-/

namespace TabFtp

def FileItem.setSize (item : FileItem) (size : ℤ) : FileItem :=
  { item with size := size }

abbrev ServerId := ℕ

/-- The part of `CQueueView` that the totals depend on. -/
structure QueueView where
  serverList : List (ServerId × ServerItem)
  items : Items
  fileCount : ℤ
  totalQueueSize : ℤ
  filesWithUnknownSize : ℤ

namespace QueueView

variable (view : QueueView)

def server (key : ServerId) : Option ServerItem :=
  (view.serverList.find? fun entry => decide (entry.1 = key)).map Prod.snd

def put (key : ServerId) (queue : ItemQueue) : QueueView :=
  { view with
    serverList := UniqueKeys.write Prod.fst key
      (fun entry => (entry.1, queue.server)) view.serverList
    items := queue.items }

/-- `CQueueViewBase::CreateServerItem`, if there is none for the site. -/
def createServerItem (key : ServerId) : QueueView :=
  { view with serverList := view.serverList ++ [(key, ServerItem.empty)] }

def insertItem (key : ServerId) (server : ServerItem) (id : ItemId)
    (item : FileItem) : QueueView :=
  let view := view.put key (ItemQueue.addChild ⟨server, view.items⟩ id)
  let view := { view with fileCount := view.fileCount + 1 }
  match item.type with
  | .folder => view
  | .file =>
      if item.size < 0 then
        { view with filesWithUnknownSize := view.filesWithUnknownSize + 1 }
      else if 0 < item.size then
        { view with totalQueueSize := int64 (view.totalQueueSize + item.size) }
      else view

/-- The size information that `CQueueView::RemoveItem` updates. -/
def subtractItem (item : FileItem) : QueueView :=
  match item.type with
  | .folder => view
  | .file =>
      if item.size < 0 then
        { view with filesWithUnknownSize := view.filesWithUnknownSize - 1 }
      else if 0 < item.size then
        { view with totalQueueSize := int64 (view.totalQueueSize - item.size) }
      else view

/-- `CQueueViewBase::RemoveItem`.  A server item without children is
erased. -/
def removeFromServer (key : ServerId) (server : ServerItem) (id : ItemId)
    (destroy forward : Bool) : QueueView :=
  let view := { view with fileCount := view.fileCount - 1 }
  let removed := ItemQueue.removeChild ⟨server, view.items⟩ id destroy forward
  match removed.getChild 0 with
  | (none, removed) =>
      { view with
        serverList := view.serverList.filter fun entry =>
          !decide (entry.1 = key)
        items := removed.items }
  | (some _, removed) => view.put key removed

def removeItem (key : ServerId) (server : ServerItem) (id : ItemId)
    (item : FileItem) (destroy forward : Bool) : QueueView :=
  (view.subtractItem item).removeFromServer key server id destroy forward

def updateItemSize (id : ItemId) (item : FileItem) (size : ℤ) : QueueView :=
  let oldSize := item.size
  if size = oldSize then view
  else
    let view :=
      if oldSize < 0 then
        if view.filesWithUnknownSize = 0 then view
        else { view with filesWithUnknownSize := view.filesWithUnknownSize - 1 }
      else { view with totalQueueSize := int64 (view.totalQueueSize - oldSize) }
    let view :=
      if size < 0 then
        { view with filesWithUnknownSize := view.filesWithUnknownSize + 1 }
      else { view with totalQueueSize := int64 (view.totalQueueSize + size) }
    { view with items := view.items.write id (item.setSize size) }

/-! ## Calculating the totals -/

end QueueView

/-- What the loop of `CServerItem::GetTotalSize` has seen of the sizes. -/
structure SizeTotals where
  totalSize : ℤ
  filesWithUnknownSize : ℤ

namespace ServerItem

def addSizes (items : Items) : List ItemId → SizeTotals → SizeTotals
  | [], totals => totals
  | id :: rest, totals =>
      match items id with
      | none => addSizes items rest totals
      | some item =>
          if 0 ≤ item.size then
            addSizes items rest
              { totals with totalSize := int64 (totals.totalSize + item.size) }
          else
            addSizes items rest
              { totals with
                filesWithUnknownSize := totals.filesWithUnknownSize + 1 }

def listKeys : List (Bool × QueuePriority) :=
  QueuePriority.ascending.flatMap fun priority =>
    [(true, priority), (false, priority)]

def getTotalSize (server : ServerItem) (items : Items)
    (filesWithUnknownSize : ℤ) : SizeTotals :=
  listKeys.foldl (fun totals key =>
    addSizes items (server.fileList key) totals) ⟨0, filesWithUnknownSize⟩

end ServerItem

namespace QueueView

/-- The loop of `CalculateQueueSize`. -/
def calculateFrom (items : Items) : List (ServerId × ServerItem) →
    SizeTotals → SizeTotals
  | [], totals => totals
  | (_, server) :: rest, totals =>
      let found := server.getTotalSize items totals.filesWithUnknownSize
      calculateFrom items rest
        ⟨int64 (totals.totalSize + found.totalSize), found.filesWithUnknownSize⟩

def calculateQueueSize (view : QueueView) : QueueView :=
  let totals := calculateFrom view.items view.serverList ⟨0, 0⟩
  { view with
    fileCount := (view.serverList.map fun entry =>
      (entry.2.children.live.length : ℤ)).sum
    totalQueueSize := totals.totalSize
    filesWithUnknownSize := totals.filesWithUnknownSize }

/-- The loop of `RemoveAll`. -/
def removeAllFrom : List (ServerId × ServerItem) → Items →
    List (ServerId × ServerItem) × Items
  | [], items => ([], items)
  | (key, server) :: rest, items =>
      let removed := ItemQueue.tryRemoveAll ⟨server, items⟩
      let (newServerList, final) := removeAllFrom rest removed.items
      if removed.server.children.live.isEmpty then (newServerList, final)
      else ((key, removed.server) :: newServerList, final)

def removeAll (view : QueueView) : QueueView :=
  let (newServerList, items) := removeAllFrom view.serverList view.items
  calculateQueueSize { view with serverList := newServerList, items := items }

/-! ## The operations -/

/-- The items that are in the queue. -/
def allChildren (view : QueueView) : List ItemId :=
  view.serverList.flatMap fun entry => entry.2.children.live

inductive Request
  | createServerItem (key : ServerId)
  | construct (id : ItemId) (item : FileItem)
  | insertItem (key : ServerId) (id : ItemId)
  | removeItem (key : ServerId) (id : ItemId) (destroy forward : Bool)
  | setActive (key : ServerId) (id : ItemId) (active : Bool) (statusItem : ℕ)
  | updateItemSize (id : ItemId) (size : ℤ)
  | removeAll

/-- Items are constructed at addresses where there is none, folders without a
size.  They are inserted if they are not in the queue, and removed, activated
and changed while they are. -/
def step (view : QueueView) : Request → Option (QueueView × List Unit)
  | .createServerItem key =>
      if view.server key = none then some (view.createServerItem key, [])
      else none
  | .construct id item =>
      if view.items id = none ∧ id ∉ view.allChildren ∧
          item.children.live = [] ∧
          (item.type = .folder → item.size = -1) then
        some ({ view with items := view.items.write id item }, [])
      else none
  | .insertItem key id =>
      match view.server key, view.items id with
      | some server, some item =>
          if id ∈ view.allChildren then none
          else some (view.insertItem key server id item, [])
      | _, _ => none
  | .removeItem key id destroy forward =>
      match view.server key, view.items id with
      | some server, some item =>
          if id ∈ server.children.live then
            some (view.removeItem key server id item destroy forward, [])
          else none
      | _, _ => none
  | .setActive key id active statusItem =>
      match view.server key with
      | none => none
      | some server =>
          if id ∈ server.children.live then
            some (view.put key
              (ItemQueue.setActive ⟨server, view.items⟩ id active statusItem),
              [])
          else none
  | .updateItemSize id size =>
      match view.items id with
      | none => none
      | some item =>
          if id ∈ view.allChildren then
            some (view.updateItemSize id item size, [])
          else none
  | .removeAll => some (view.removeAll, [])

/-- An empty queue. -/
def machine : LabelledRuns.Machine QueueView Request Unit where
  initial := fun view => view.serverList = [] ∧ view.fileCount = 0 ∧
    view.totalQueueSize = 0 ∧ view.filesWithUnknownSize = 0
  step := step

end QueueView

end TabFtp
