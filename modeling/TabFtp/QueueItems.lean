import TabFtp.OffsetVector
import TabFtp.ServerPathOrder

/-!
# Queue items

The queue holds server items, the children of which are file and folder items.
A file item that is being transferred has a status item as its child.  Items
are referred to by their addresses; what is at an address is found in the
store of the items that exist.

A server item keeps the number of its descendants, a cache for the lookup of
rows, and ten lists in which the scheduler looks for the next file.
-/

namespace TabFtp

/-! ## The data of an item -/

inductive QueuePriority
  | lowest | low | normal | high | highest
  deriving DecidableEq

namespace QueuePriority

def number : QueuePriority → ℕ
  | lowest => 0
  | low => 1
  | normal => 2
  | high => 3
  | highest => 4

def ascending : List QueuePriority := [lowest, low, normal, high, highest]

def descending : List QueuePriority := [highest, high, normal, low, lowest]

end QueuePriority

inductive TransferDirection
  | both | download | upload

abbrev TransferFlags := BitVec 16

namespace TransferFlags

def download : TransferFlags := 0x10
/-- `queue_flags::queued` and the other flags of the interface. -/
def queued : TransferFlags := 0x01
def active : TransferFlags := 0x02
def madeProgress : TransferFlags := 0x04
def remove : TransferFlags := 0x08
/-- `lhs & rhs` -/
def has (lhs rhs : TransferFlags) : Bool :=
  decide (lhs &&& rhs ≠ 0)

/-- `lhs - rhs` -/
def without (lhs rhs : TransferFlags) : TransferFlags :=
  lhs &&& ~~~rhs

/-- `lhs |= rhs` or `lhs -= rhs` -/
def assign (lhs rhs : TransferFlags) (on : Bool) : TransferFlags :=
  if on then lhs ||| rhs else without lhs rhs

theorem has_or (lhs rhs flag : TransferFlags) :
    has (lhs ||| rhs) flag = (has lhs flag || has rhs flag) := by
  unfold has
  rw [BitVec.and_or_distrib_right, ← Bool.decide_or]
  apply decide_eq_decide.mpr
  exact (not_congr BitVec.or_eq_zero_iff).trans not_and_or

theorem has_without_of_disjoint {rhs flag : TransferFlags}
    (hdisjoint : ~~~rhs &&& flag = flag) (lhs : TransferFlags) :
    has (without lhs rhs) flag = has lhs flag := by
  unfold has without
  rw [BitVec.and_assoc, hdisjoint]

theorem has_without_of_le {rhs flag : TransferFlags}
    (hle : ~~~rhs &&& flag = 0) (lhs : TransferFlags) :
    has (without lhs rhs) flag = false := by
  unfold has without
  rw [BitVec.and_assoc, hle]
  simp

theorem has_assign_self {flag : TransferFlags}
    (hne : flag ≠ 0) (hle : ~~~flag &&& flag = 0)
    (lhs : TransferFlags) (on : Bool) :
    has (assign lhs flag on) flag = on := by
  unfold assign
  cases on with
  | true =>
      rw [if_pos rfl, has_or]
      have hself : has flag flag = true := by
        unfold has
        rw [BitVec.and_self]
        exact decide_eq_true hne
      rw [hself, Bool.or_true]
  | false => exact has_without_of_le hle lhs

theorem has_assign_of_disjoint {rhs flag : TransferFlags}
    (hdisjoint : ~~~rhs &&& flag = flag) (hempty : rhs &&& flag = 0)
    (lhs : TransferFlags) (on : Bool) :
    has (assign lhs rhs on) flag = has lhs flag := by
  unfold assign
  cases on with
  | true =>
      rw [if_pos rfl, has_or]
      have hnone : has rhs flag = false := by
        unfold has
        rw [hempty]
        simp
      rw [hnone, Bool.or_false]
  | false => exact has_without_of_disjoint hdisjoint lhs

end TransferFlags

/-- `CLocalPath`, by its text. -/
structure LocalPath where
  path : WString
  deriving DecidableEq

/-- `CFileItem::Status` -/
inductive ItemStatus
  | none | incorrectPassword | timeout | disconnecting | disconnected
  | connecting | connectionFailed | interrupted | waitBrowsing | waitPassword
  | localFileUnwriteable | couldNotStart | transferring | creatingDir

structure ExtraData where
  targetFile : WString
  extraFlags : WString
  persistentState : List UInt8

inductive FileItemType
  | file | folder
  deriving DecidableEq

abbrev ItemId := ℕ

/-- `CFileItem` and `CFolderItem`.  The children are status items, of which
there is nothing to know but their addresses. -/
structure FileItem where
  type : FileItemType
  flags : TransferFlags
  sourceFile : WString
  extraData : Option ExtraData
  localPath : LocalPath
  remotePath : ServerPath
  size : ℤ
  priority : QueuePriority
  errorCount : UInt8
  status : ItemStatus
  children : OffsetVector.Vector ℕ

namespace FileItem

/-- The constructor of `CFileItem`. -/
def create (flags : TransferFlags) (sourceFile targetFile : WString)
    (localPath : LocalPath) (remotePath : ServerPath) (size : ℤ)
    (extraFlags : WString) (persistentState : List UInt8) : FileItem where
  type := .file
  flags := flags
  sourceFile := sourceFile
  extraData :=
    if targetFile.isEmpty ∧ extraFlags.isEmpty ∧ persistentState.isEmpty then
      none
    else some ⟨targetFile, extraFlags, persistentState⟩
  localPath := localPath
  remotePath := remotePath
  size := size
  priority := .normal
  errorCount := 0
  status := .none
  children := OffsetVector.empty

variable (item : FileItem)

def setPriorityRaw (priority : QueuePriority) : FileItem :=
  { item with priority := priority }

def queued : Bool := TransferFlags.has item.flags TransferFlags.queued
def active : Bool := TransferFlags.has item.flags TransferFlags.active
def pendingRemove : Bool := TransferFlags.has item.flags TransferFlags.remove
def download : Bool := TransferFlags.has item.flags TransferFlags.download

def madeProgress : Bool :=
  TransferFlags.has item.flags TransferFlags.madeProgress

def assign (flag : TransferFlags) (on : Bool) : FileItem :=
  { item with flags := TransferFlags.assign item.flags flag on }

def setQueued : Bool → FileItem := item.assign TransferFlags.queued
def setPendingRemove : Bool → FileItem := item.assign TransferFlags.remove

def setMadeProgress : Bool → FileItem :=
  item.assign TransferFlags.madeProgress

def targetOrSource : WString :=
  match item.extraData with
  | none => item.sourceFile
  | some extra =>
      if extra.targetFile.isEmpty then item.sourceFile else extra.targetFile

def localFile : WString :=
  if item.download then item.targetOrSource else item.sourceFile

def remoteFile : WString :=
  if item.download then item.sourceFile else item.targetOrSource

/-- `GetChildrenCount(true)`: status items have no children. -/
def childrenCount : ℕ := item.children.live.length

end FileItem

/-! ## The store of items -/

abbrev Items := ItemId → Option FileItem

namespace Items

def write (items : Items) (id : ItemId) (item : FileItem) : Items :=
  Function.update items id (some item)

def delete (items : Items) (id : ItemId) : Items :=
  Function.update items id none

def modify (items : Items) (id : ItemId) (change : FileItem → FileItem) :
    Items :=
  match items id with
  | none => items
  | some item => items.write id (change item)

def childrenCount (items : Items) (id : ItemId) : ℕ :=
  match items id with
  | none => 0
  | some item => item.childrenCount

/-- `m_fileList[item->queued() ? 0 : 1][item->GetPriority()]` -/
def listOf (items : Items) (id : ItemId) : Option (Bool × QueuePriority) :=
  (items id).map fun item => (item.queued, item.priority)

end Items

/-! ## Server items -/

/-- `CServerItem::t_cacheItem` -/
structure CacheItem where
  index : ℕ
  child : ℕ

/-- `CServerItem`.  A list of the scheduler is selected by the queued flag
and the priority. -/
structure ServerItem where
  children : OffsetVector.Vector ItemId
  fileList : Bool × QueuePriority → List ItemId
  visibleOffspring : ℤ
  maxCachedIndex : ℤ
  lookupCache : List CacheItem

namespace ServerItem

def empty : ServerItem where
  children := OffsetVector.empty
  fileList := fun _ => []
  visibleOffspring := 0
  maxCachedIndex := -1
  lookupCache := []

variable (server : ServerItem)

def dropCache : ServerItem := { server with maxCachedIndex := -1 }

def changeOffspring (difference : ℤ) : ServerItem :=
  { server with
    visibleOffspring := server.visibleOffspring + difference
    maxCachedIndex := -1 }

def setList (key : Bool × QueuePriority) (list : List ItemId) : ServerItem :=
  { server with fileList := Function.update server.fileList key list }

def addFileItemToList (items : Items) (id : ItemId) : ServerItem :=
  match items.listOf id with
  | none => server
  | some key => server.setList key (server.fileList key ++ [id])

def eraseFrom (forward : Bool) (id : ItemId) (list : List ItemId) :
    List ItemId :=
  match OffsetVector.findIndex forward id list with
  | none => list
  | some index => list.eraseIdx index

def removeFileItemFromList (items : Items) (id : ItemId) (forward : Bool) :
    ServerItem :=
  match items.listOf id with
  | none => server
  | some key => server.setList key (eraseFrom forward id (server.fileList key))

end ServerItem

structure ItemQueue where
  server : ServerItem
  items : Items

namespace ItemQueue

variable (queue : ItemQueue)

/-- The children that `m_children` has behind `m_removed_at_front`. -/
def live : List ItemId := queue.server.children.live

def addChild (id : ItemId) : ItemQueue :=
  let server :=
    { queue.server with children := queue.server.children.pushBack id }
  let server := server.changeOffspring (1 + queue.items.childrenCount id)
  { queue with server := server.addFileItemToList queue.items id }

/-- `CQueueItem::RemoveChild` of the server item.  What is looked for is a
child of the server item and no status item. -/
def removeFromChildren (id : ItemId) (destroy forward : Bool) :
    Option ItemQueue :=
  match queue.server.children.remove 10 forward id with
  | none => none
  | some children =>
      let visibleOffspring :=
        queue.server.visibleOffspring - 1 - queue.items.childrenCount id
      some
        { server :=
            { queue.server with
              children := children
              visibleOffspring := visibleOffspring }
          items := if destroy then queue.items.delete id else queue.items }

def removeChild (id : ItemId) (destroy forward : Bool) : ItemQueue :=
  let queue :=
    { queue with
      server := queue.server.removeFileItemFromList queue.items id forward }
  match queue.removeFromChildren id destroy forward with
  | none => queue
  | some removed => { removed with server := removed.server.dropCache }

/-- `CFileItem::SetActive` and `CFolderItem::SetActive`.  A file item gets a
new status item or loses the one that it has. -/
def setActive (id : ItemId) (active : Bool) (statusItem : ℕ) : ItemQueue :=
  match queue.items id with
  | none => queue
  | some item =>
      let item' := item.assign TransferFlags.active active
      match item.type with
      | .folder => { queue with items := queue.items.write id item' }
      | .file =>
          if active = item.active then queue
          else if active then
            { server := queue.server.changeOffspring 1
              items := queue.items.write id
                { item' with children := item.children.pushBack statusItem } }
          else if h : 0 < item.children.live.length then
            { server := queue.server.changeOffspring (-1)
              items := queue.items.write id
                { item' with children := item.children.removeAt 10 0 h } }
          else { queue with items := queue.items.write id item' }

/-- `CServerItem::TryRemoveAll`, the loop over the children.  Active items
are kept. -/
def tryRemoveChildren : List ItemId → ItemQueue → List ItemId →
    ItemQueue × List ItemId
  | [], queue, keepChildren => (queue, keepChildren)
  | id :: rest, queue, keepChildren =>
      match queue.items id with
      | none => tryRemoveChildren rest queue keepChildren
      | some item =>
          if item.active then
            let items := queue.items.write id (item.setPendingRemove true)
            let server :=
              { queue.server with
                visibleOffspring := queue.server.visibleOffspring + 1 +
                  item.childrenCount }
            tryRemoveChildren rest ⟨server, items⟩ (keepChildren ++ [id])
          else
            let server :=
              queue.server.removeFileItemFromList queue.items id true
            tryRemoveChildren rest ⟨server, queue.items.delete id⟩
              keepChildren

def tryRemoveAll : ItemQueue :=
  let start :=
    { queue with server := { queue.server with visibleOffspring := 0 } }
  let (removed, keepChildren) := tryRemoveChildren queue.live start []
  { removed with
    server :=
      { removed.server with
        children := OffsetVector.ofList keepChildren
        maxCachedIndex := -1 } }

def detachChildren : ItemQueue :=
  { queue with
    server :=
      { queue.server with
        children := OffsetVector.empty
        visibleOffspring := 0
        maxCachedIndex := -1
        fileList := fun _ => [] } }

/-! ### Sorting -/

end ItemQueue

/-- What comparisons of items need of the system they run on. -/
structure Collation where
  localPathLess : LocalPath → LocalPath → Bool
  statusText : ItemStatus → WString

namespace FileItem

/-- `std::tie(…) < std::tie(…)` -/
def tieLess {First Second : Type} (firstLess : First → First → Bool)
    (secondLess : Second → Second → Bool) (l r : First × Second) : Bool :=
  if firstLess l.1 r.1 then true
  else if firstLess r.1 l.1 then false
  else secondLess l.2 r.2

def wstringLess (l r : WString) : Bool := decide (l < r)

/-- The comparison that `CServerItem::Sort` selects by the column. -/
def comparison (collation : Collation) :
    ℤ → Option (FileItem → FileItem → Bool)
  | 0 => some fun l r =>
      tieLess collation.localPathLess wstringLess (l.localPath, l.localFile)
        (r.localPath, r.localFile)
  | 1 => some fun l r => !l.download && r.download
  | 2 => some fun l r =>
      tieLess ServerPath.less wstringLess (l.remotePath, l.remoteFile)
        (r.remotePath, r.remoteFile)
  | 3 => some fun l r => decide (l.size < r.size)
  | 4 => some fun l r =>
      wstringLess (collation.statusText l.status)
        (collation.statusText r.status)
  | _ => none

end FileItem

namespace ItemQueue

variable (queue : ItemQueue)

def itemLess (items : Items) (cmp : FileItem → FileItem → Bool)
    (reverse : Bool) (l r : ItemId) : Bool :=
  match items l, items r with
  | some left, some right => if reverse then cmp right left else cmp left right
  | _, _ => false

/-- The loop that rebuilds `m_fileList`. -/
def rebuildLists (items : Items) : List ItemId → ServerItem → ServerItem
  | [], server => server
  | id :: rest, server =>
      rebuildLists items rest (server.addFileItemToList items id)

def sort (collation : Collation) (col : ℤ) (reverse : Bool) : ItemQueue :=
  match FileItem.comparison collation col with
  | none => queue
  | some cmp =>
      let sorted := queue.live.mergeSort fun l r =>
        !itemLess queue.items cmp reverse r l
      let server :=
        { queue.server with
          children := queue.server.children.replaceLive sorted
          lookupCache := []
          maxCachedIndex := -1
          fileList := fun _ => [] }
      { queue with server := rebuildLists queue.items sorted server }

/-! ### Priorities and immediate transfers -/

def setChildPriority (id : ItemId) (queued : Bool)
    (oldPriority newPriority : QueuePriority) : ServerItem :=
  let old := queue.server.fileList (queued, oldPriority)
  match old.findIdx? fun other => decide (other = id) with
  | none => queue.server
  | some index =>
      let server :=
        queue.server.setList (queued, oldPriority) (old.eraseIdx index)
      server.setList (queued, newPriority)
        (server.fileList (queued, newPriority) ++ [id])

/-- `CFileItem::SetPriority` -/
def setItemPriority (id : ItemId) (priority : QueuePriority) : ItemQueue :=
  match queue.items id with
  | none => queue
  | some item =>
      if priority = item.priority then queue
      else
        { server := queue.setChildPriority id item.queued item.priority priority
          items := queue.items.write id { item with priority := priority } }

/-- The loop over the children in `CServerItem::SetPriority`. -/
def setPriorities (priority : QueuePriority) : List ItemId → ItemQueue →
    ItemQueue
  | [], queue => queue
  | id :: rest, queue =>
      match queue.items id with
      | none => setPriorities priority rest queue
      | some item =>
          match item.type with
          | .file =>
              setPriorities priority rest
                { queue with
                  items := queue.items.write id
                    { item with priority := priority } }
          | .folder =>
              setPriorities priority rest (queue.setItemPriority id priority)

def gatherLists (priority : QueuePriority) (queued : Bool) :
    List QueuePriority → ServerItem → ServerItem
  | [], server => server
  | j :: rest, server =>
      if j = priority then gatherLists priority queued rest server
      else
        let gathered :=
          server.setList (queued, priority)
            (server.fileList (queued, priority) ++ server.fileList (queued, j))
        gatherLists priority queued rest (gathered.setList (queued, j) [])

def setPriority (priority : QueuePriority) : ItemQueue :=
  let queue := setPriorities priority queue.live queue
  let server :=
    gatherLists priority true QueuePriority.ascending queue.server
  { queue with
    server := gatherLists priority false QueuePriority.ascending server }

/-- The loop of `QueueImmediateFiles` over one list, from its end. -/
def queueImmediateList (priority : QueuePriority) :
    List ItemId → ItemQueue → List ItemId → ItemQueue × List ItemId
  | [], queue, activeList => (queue, activeList)
  | id :: rest, queue, activeList =>
      match queue.items id with
      | none => queueImmediateList priority rest queue activeList
      | some item =>
          if item.active then
            queueImmediateList priority rest queue (id :: activeList)
          else
            let server := queue.server.setList (true, priority)
              (id :: queue.server.fileList (true, priority))
            queueImmediateList priority rest
              ⟨server, queue.items.write id (item.setQueued true)⟩ activeList

def queueImmediatePriorities : List QueuePriority → ItemQueue → ItemQueue
  | [], queue => queue
  | priority :: rest, queue =>
      let fileList := queue.server.fileList (false, priority)
      let (queue, activeList) :=
        queueImmediateList priority fileList.reverse queue []
      queueImmediatePriorities rest
        { queue with
          server := queue.server.setList (false, priority) activeList }

def queueImmediateFiles : ItemQueue :=
  queueImmediatePriorities QueuePriority.ascending queue

def queueImmediateFile (id : ItemId) : ItemQueue :=
  match queue.items id with
  | none => queue
  | some item =>
      if item.queued then queue
      else
        let list := queue.server.fileList (false, item.priority)
        match list.findIdx? fun other => decide (other = id) with
        | none => queue
        | some index =>
            let server :=
              queue.server.setList (false, item.priority) (list.eraseIdx index)
            { server := server.setList (true, item.priority)
                (id :: server.fileList (true, item.priority))
              items := queue.items.write id (item.setQueued true) }

/-- The loop of `DoGetIdleChild` over one list. -/
def isIdle (items : Items) (direction : TransferDirection) (id : ItemId) :
    Bool :=
  match items id with
  | none => false
  | some item =>
      if item.active then false
      else
        match direction with
        | .both => true
        | .download => item.download
        | .upload => !item.download

def doGetIdleChild (items : Items) (fileList : QueuePriority → List ItemId)
    (direction : TransferDirection) : List QueuePriority → Option ItemId
  | [] => none
  | priority :: rest =>
      match (fileList priority).find? (isIdle items direction) with
      | some id => some id
      | none => doGetIdleChild items fileList direction rest

def getIdleChild (immediateOnly : Bool) (direction : TransferDirection) :
    Option ItemId :=
  let idleOf := fun queued =>
    doGetIdleChild queue.items (fun priority =>
      queue.server.fileList (queued, priority)) direction
      QueuePriority.descending
  match idleOf false with
  | some id => some id
  | none => if immediateOnly then none else idleOf true

end ItemQueue

/-! ## Looking up rows -/

/-- What a row shows: a child of the server item or a status item. -/
inductive ItemRef
  | item (id : ItemId)
  | status (address : ℕ)

namespace Items

/-- `CQueueItem::GetChild` of a file item.  Its children have none. -/
def statusChild : List ℕ → ℕ → Option ItemRef
  | [], _ => none
  | address :: rest, item =>
      if item = 0 then some (.status address)
      else statusChild rest (item - 1)

/-- `(*iter)->GetChild(item)` -/
def childOf (items : Items) (id : ItemId) (item : ℕ) : Option ItemRef :=
  match items id with
  | none => none
  | some child => statusChild child.children.live item

/-- `CQueueItem::GetChild`, the walk over the children. -/
def plainChild (items : Items) : List ItemId → ℕ → Option ItemRef
  | [], _ => none
  | id :: rest, item =>
      if item = 0 then some (.item id)
      else
        let count := items.childrenCount id
        if item > count then plainChild items rest (item - (count + 1))
        else items.childOf id (item - 1)

end Items

namespace ServerItem

/-- The cache gets the rows `index` to `index + count - 1`. -/
def fillCache (cacheItem : CacheItem) (index : ℕ) : ℕ → List CacheItem →
    List CacheItem
  | 0, cache => cache
  | count + 1, cache =>
      fillCache cacheItem (index + 1) count (cache.set index cacheItem)

def resizeCache (cache : List CacheItem) (size : ℕ) : List CacheItem :=
  cache ++ List.replicate (size - cache.length) ⟨0, 0⟩

/-- `m_lookupCache.resize(m_visibleOffspring)`, if it is to be done. -/
def growCache (server : ServerItem) : List CacheItem :=
  if server.maxCachedIndex = -1 ∧
      (server.lookupCache.length : ℤ) < server.visibleOffspring then
    resizeCache server.lookupCache server.visibleOffspring.toNat
  else server.lookupCache

def cacheChild (server : ServerItem) (index child count : ℕ) : ServerItem :=
  { server with
    lookupCache := fillCache ⟨index, child⟩ index (count + 1) server.growCache
    maxCachedIndex := index + count }

/-- The loop of `CServerItem::GetChild` over the children from `child` on. -/
def walk (items : Items) : List ItemId → ℕ → ℕ → ℕ → ServerItem →
    Option ItemRef × ServerItem
  | [], _, _, _, server => (none, server)
  | id :: rest, item, index, child, server =>
      if item = 0 then (some (.item id), server)
      else
        let count := items.childrenCount id
        if item > count then
          walk items rest (item - (count + 1)) (index + count + 1) (child + 1)
            (server.cacheChild index child count)
        else (items.childOf id (item - 1), server)

end ServerItem

namespace ItemQueue

/-- `(int)item` of an `unsigned int` -/
def signedIndex (item : ℕ) : ℤ := (BitVec.ofNat 32 item).toInt

variable (queue : ItemQueue)

def getChild (item : ℕ) : Option ItemRef × ItemQueue :=
  let server := queue.server
  if signedIndex item ≤ server.maxCachedIndex then
    -- The index is taken for a cached one.  An access behind the end of the
    -- cache has no defined result, see `ReadsOutside`.
    match server.lookupCache[item]? with
    | none => (none, queue)
    | some cached =>
        match queue.live[cached.child]? with
        | none => (none, queue)
        | some id =>
            if item - cached.index = 0 then (some (.item id), queue)
            else (queue.items.childOf id (item - cached.index - 1), queue)
  else if server.maxCachedIndex = -1 then
    let (found, walked) :=
      ServerItem.walk queue.items queue.live item 0 0 server
    (found, { queue with server := walked })
  else
    -- The loop starts behind the last cached item.
    let last := server.maxCachedIndex.toNat
    match server.lookupCache[last]? with
    | none => (none, queue)
    | some cached =>
        let (found, walked) :=
          ServerItem.walk queue.items (queue.live.drop (cached.child + 1))
            (item - (last + 1)) (last + 1) (cached.child + 1) server
        (found, { queue with server := walked })

/-- `GetChild` accesses `m_lookupCache[item]` behind the end of the vector. -/
def ReadsOutside (item : ℕ) : Prop :=
  signedIndex item ≤ queue.server.maxCachedIndex ∧
    queue.server.lookupCache.length ≤ item

end ItemQueue

end TabFtp
