import TabFtp.DirectoryListing
import TabFtp.LabelledRuns
import TabFtp.ServerPathOrder
import TabFtp.UniqueKeys

/-!
# The directory cache

The cache has a list of servers, for each of them a set of listings in the
order of their paths, and one list of all listings in the order of their last
use.  The three point at one another, so servers, listings and nodes of the
list have identities here, which take the place of iterators.  The clock is
an argument of every operation.
-/

namespace TabFtp

/-- `CCacheEntry`.  `lruIt` is the node of the list of last uses. -/
structure CacheEntry where
  id : ℕ
  listing : DirectoryListing
  modificationTime : ℤ
  lruIt : Option ℕ
  deriving DecidableEq

structure ServerEntry where
  id : ℕ
  server : Server
  cacheList : List CacheEntry
  deriving DecidableEq

/-- A node of the list of last uses, `tFullEntryPosition`. -/
structure LruNode where
  id : ℕ
  server : ℕ
  entry : ℕ

structure LruList where
  nodes : List LruNode
  nextNode : ℕ

structure DirectoryCache where
  serverList : List ServerEntry
  leastRecentlyUsedList : LruList
  totalFileCount : ℤ
  ttl : ℤ
  nextServer : ℕ
  nextEntry : ℕ

inductive Filetype
  | unknown | file | dir
  deriving DecidableEq

structure LookupFlags where
  allowOutdated : Bool
  forceCaseinsensitive : Bool
  deriving DecidableEq

structure LookupResults where
  found : Bool
  outdated : Bool
  direxists : Bool
  matchedcase : Bool
  deriving DecidableEq

/-- `UpdateLru`.  The second result is the entry with its node. -/
def LruList.update (lru : LruList) (sit : ℕ) (cit : CacheEntry) :
    LruList × CacheEntry :=
  match cit.lruIt with
  | some node =>
      ({ lru with
          nodes := lru.nodes.filter (fun other => other.id ≠ node) ++
            [⟨node, sit, cit.id⟩] }, cit)
  | none =>
      (⟨lru.nodes ++ [⟨lru.nextNode, sit, cit.id⟩], lru.nextNode + 1⟩,
        { cit with lruIt := some lru.nextNode })

def CacheEntry.path (entry : CacheEntry) : ServerPath := entry.listing.path

/-- The order of the set, and where the set looks for a path. -/
def CacheEntry.find (path : ServerPath) (cacheList : List CacheEntry) :
    Option CacheEntry :=
  OrderedSet.lowerBound CacheEntry.path ServerPath.less path cacheList

namespace DirectoryCache

/-- The entry that has the identity of `cit` becomes `cit`. -/
def writeEntry (cache : DirectoryCache) (sit : ℕ) (cit : CacheEntry) :
    DirectoryCache :=
  { cache with
    serverList := UniqueKeys.write ServerEntry.id sit
      (fun entry =>
        { entry with
          cacheList := UniqueKeys.write CacheEntry.id cit.id (fun _ => cit)
            entry.cacheList })
      cache.serverList }

def writeList (cache : DirectoryCache) (sit : ℕ)
    (cacheList : List CacheEntry) : DirectoryCache :=
  { cache with
    serverList := UniqueKeys.write ServerEntry.id sit
      (fun entry => { entry with cacheList := cacheList })
      cache.serverList }

def getServerEntry (cache : DirectoryCache) (server : Server) :
    Option ServerEntry :=
  cache.serverList.find? fun entry => entry.server.sameContent server

def createServerEntry (cache : DirectoryCache) (server : Server) :
    DirectoryCache × ServerEntry :=
  match cache.getServerEntry server with
  | some entry => (cache, entry)
  | none =>
      let entry : ServerEntry := ⟨cache.nextServer, server, []⟩
      ({ cache with
          serverList := cache.serverList ++ [entry]
          nextServer := cache.nextServer + 1 }, entry)

/-- `UpdateLru` for an entry in the cache. -/
def updateLru (cache : DirectoryCache) (sit : ℕ) (cit : CacheEntry) :
    DirectoryCache × CacheEntry :=
  let touched := cache.leastRecentlyUsedList.update sit cit
  ({ cache with leastRecentlyUsedList := touched.1 }.writeEntry sit touched.2,
    touched.2)

/-- The protected `Lookup`.  The result is the entry and whether it is
outdated. -/
def lookupEntry (cache : DirectoryCache) (sit : ServerEntry)
    (path : ServerPath) (allowUnsureEntries : Bool) (now : ℤ) :
    DirectoryCache × Option (CacheEntry × Bool) :=
  match CacheEntry.find path sit.cacheList with
  | none => (cache, none)
  | some entry =>
      if entry.listing.path.same path then
        let touched := cache.updateLru sit.id entry
        if !allowUnsureEntries && entry.listing.unsureFlags != 0 then
          (touched.1, none)
        else
          (touched.1, some (touched.2,
            decide (cache.ttl < now - entry.listing.firstListTime)))
      else (cache, none)

/-! ## Pruning -/

/-- The condition of the loop in `Prune`. -/
def tooLarge (size : ℕ) (totalFileCount : ℤ) : Bool :=
  decide (50000 < size) ||
    (decide (1000000 < totalFileCount) && decide (1000 < size)) ||
    (decide (5000000 < totalFileCount) && decide (100 < size))

def sizeAt (serverList : List ServerEntry) (node : LruNode) : ℕ :=
  match serverList.find? (·.id = node.server) with
  | none => 0
  | some entry =>
      match entry.cacheList.find? (·.id = node.entry) with
      | none => 0
      | some cit => cit.listing.size

/-- The entry that a node points to is erased, and its server if it was the
last one. -/
def eraseAt (serverList : List ServerEntry) (node : LruNode) :
    List ServerEntry :=
  (UniqueKeys.write ServerEntry.id node.server
      (fun entry =>
        { entry with
          cacheList := entry.cacheList.filter (·.id ≠ node.entry) })
      serverList).filter fun entry =>
    entry.id ≠ node.server || !entry.cacheList.isEmpty

/-- The loop in `Prune`, which takes nodes from the front of the list. -/
def pruneLoop : List LruNode → List ServerEntry → ℤ →
    List LruNode × List ServerEntry × ℤ
  | [], serverList, totalFileCount => ([], serverList, totalFileCount)
  | pos :: nodes, serverList, totalFileCount =>
      if tooLarge (nodes.length + 1) totalFileCount then
        pruneLoop nodes (eraseAt serverList pos)
          (totalFileCount - sizeAt serverList pos)
      else (pos :: nodes, serverList, totalFileCount)

def prune (cache : DirectoryCache) : DirectoryCache :=
  let pruned := pruneLoop cache.leastRecentlyUsedList.nodes cache.serverList
    cache.totalFileCount
  { cache with
    leastRecentlyUsedList :=
      { cache.leastRecentlyUsedList with nodes := pruned.1 }
    serverList := pruned.2.1
    totalFileCount := pruned.2.2 }

/-! ## Storing and looking up -/

def replaceListing (cache : DirectoryCache) (sit : ℕ) (cit : CacheEntry)
    (listing : DirectoryListing) (now : ℤ) : DirectoryCache :=
  { cache with
    totalFileCount := cache.totalFileCount - cit.listing.size }.writeEntry sit
      { cit with modificationTime := now, listing := listing }

/-- `emplace_hint`, after which the entry of the set is the one used last. -/
def insertListing (cache : DirectoryCache) (sit : ServerEntry)
    (listing : DirectoryListing) (now : ℤ) : DirectoryCache :=
  let emplaced := OrderedSet.emplace CacheEntry.path ServerPath.less
    ⟨cache.nextEntry, listing, now, none⟩ sit.cacheList
  let cache := { cache with nextEntry := cache.nextEntry + 1 }.writeList sit.id
    emplaced.1
  (cache.updateLru sit.id emplaced.2).1

def store (cache : DirectoryCache) (listing : DirectoryListing)
    (server : Server) (now : ℤ) : DirectoryCache :=
  let created := cache.createServerEntry server
  let cache := { created.1 with
    totalFileCount := created.1.totalFileCount + listing.size }
  match cache.lookupEntry created.2 listing.path true now with
  | (cache, some (cit, _)) =>
      cache.replaceListing created.2.id cit listing now
  | (cache, none) => (cache.insertListing created.2 listing now).prune

/-- The public `Lookup`, with the listing and whether it is outdated. -/
def lookup (cache : DirectoryCache) (server : Server) (path : ServerPath)
    (allowUnsureEntries : Bool) (now : ℤ) :
    DirectoryCache × Option (DirectoryListing × Bool) :=
  match cache.getServerEntry server with
  | none => (cache, none)
  | some sit =>
      let found := cache.lookupEntry sit path allowUnsureEntries now
      (found.1, found.2.map fun found => (found.1.listing, found.2))

/-- `DoesExist`, with the unsure flags and whether the listing is
outdated. -/
def doesExist (cache : DirectoryCache) (server : Server) (path : ServerPath)
    (now : ℤ) : DirectoryCache × Option (ℕ × Bool) :=
  match cache.getServerEntry server with
  | none => (cache, none)
  | some sit =>
      let found := cache.lookupEntry sit path true now
      (found.1, found.2.map fun found =>
        (found.1.listing.unsureFlags, found.2))

def getChangeTime (cache : DirectoryCache) (server : Server)
    (path : ServerPath) (now : ℤ) : DirectoryCache × Option ℤ :=
  match cache.getServerEntry server with
  | none => (cache, none)
  | some sit =>
      let found := cache.lookupEntry sit path true now
      (found.1, found.2.map fun found => found.1.modificationTime)

def findName (folding : NameFolding) (anyCase : Bool)
    (listing : DirectoryListing) (filename : WString) :
    DirectoryListing × Option (DirectoryEntry × Bool) :=
  let exact := listing.findFileCmpCase filename
  match exact.1.bind fun i => listing.entries[i]? with
  | some entry => (exact.2, some (entry, true))
  | none =>
      if anyCase then
        let nocase := exact.2.findFileCmpNoCase folding filename
        (nocase.2, (nocase.1.bind fun i => listing.entries[i]?).map
          fun entry => (entry, false))
      else (exact.2, none)

/-- Names that are not found have the empty entry as their result. -/
def findNames (folding : NameFolding) (anyCase : Bool)
    (listing : DirectoryListing) :
    List WString → DirectoryListing × List (Option (DirectoryEntry × Bool))
  | [] => (listing, [])
  | filename :: filenames =>
      let found := findName folding anyCase listing filename
      let rest := findNames folding anyCase found.1 filenames
      (rest.1, found.2 :: rest.2)

def resultsOf (outdated : Bool) (found : Option (DirectoryEntry × Bool)) :
    LookupResults × Option DirectoryEntry :=
  (⟨found.isSome, outdated, true, found.any Prod.snd⟩, found.map Prod.fst)

/-- `LookupFiles`.  Looking up names changes the maps of the listing. -/
def lookupFiles (cache : DirectoryCache) (folding : NameFolding)
    (server : Server) (path : ServerPath) (filenames : List WString)
    (flags : LookupFlags) (now : ℤ) :
    DirectoryCache × List (LookupResults × Option DirectoryEntry) :=
  match cache.getServerEntry server with
  | none => (cache, [])
  | some sit =>
      match cache.lookupEntry sit path true now with
      | (cache, none) => (cache, [])
      | (cache, some (cit, outdated)) =>
          if outdated && !flags.allowOutdated then
            (cache, filenames.map fun _ =>
              (⟨false, true, false, false⟩, none))
          else
            let anyCase := server.protocol.caseSensitivity != .yes ||
              flags.forceCaseinsensitive
            let found := findNames folding anyCase cit.listing filenames
            (cache.writeEntry sit.id { cit with listing := found.1 },
              found.2.map (resultsOf outdated))

/-- `LookupFile`, the results of which are empty where nothing is cached. -/
def lookupFile (cache : DirectoryCache) (folding : NameFolding)
    (server : Server) (path : ServerPath) (filename : WString)
    (flags : LookupFlags) (now : ℤ) :
    DirectoryCache × LookupResults × Option DirectoryEntry :=
  let found := cache.lookupFiles folding server path [filename] flags now
  (found.1, found.2.head?.getD (⟨false, false, false, false⟩, none))

/-- The older `LookupFile`: whether the directory did exist, and the entry
with whether the case has matched. -/
def lookupFileAnyCase (cache : DirectoryCache) (folding : NameFolding)
    (server : Server) (path : ServerPath) (filename : WString) (now : ℤ) :
    DirectoryCache × Bool × Option (DirectoryEntry × Bool) :=
  match cache.getServerEntry server with
  | none => (cache, false, none)
  | some sit =>
      match cache.lookupEntry sit path true now with
      | (cache, none) => (cache, false, none)
      | (cache, some (cit, _)) =>
          let found := findName folding true cit.listing filename
          (cache.writeEntry sit.id { cit with listing := found.1 }, true,
            found.2)

/-! ## Changing listings -/

def entryAt (cache : DirectoryCache) (sit cit : ℕ) : Option CacheEntry :=
  match cache.serverList.find? (·.id = sit) with
  | none => none
  | some entry => entry.cacheList.find? (·.id = cit)

/-- The loop over a server's entries in the operations that change listings.
Entries that match become the ones used last.  The last result is what the
number of files changes by. -/
def visitEntries (sit : ℕ) (isMatch : CacheEntry → Bool)
    (edit : DirectoryListing → DirectoryListing × ℤ) (now : ℤ) :
    LruList → List CacheEntry → LruList × List CacheEntry × ℤ
  | lru, [] => (lru, [], 0)
  | lru, entry :: entries =>
      if isMatch entry then
        let touched := lru.update sit entry
        let edited := edit entry.listing
        let rest := visitEntries sit isMatch edit now touched.1 entries
        (rest.1,
          { touched.2 with listing := edited.1, modificationTime := now } ::
            rest.2.1,
          edited.2 + rest.2.2)
      else
        let rest := visitEntries sit isMatch edit now lru entries
        (rest.1, entry :: rest.2.1, rest.2.2)

def visit (cache : DirectoryCache) (sit : ServerEntry)
    (isMatch : CacheEntry → Bool)
    (edit : DirectoryListing → DirectoryListing × ℤ) (now : ℤ) :
    DirectoryCache :=
  let visited := visitEntries sit.id isMatch edit now
    cache.leastRecentlyUsedList sit.cacheList
  { cache with
    leastRecentlyUsedList := visited.1
    totalFileCount := cache.totalFileCount + visited.2.2 }.writeList sit.id
      visited.2.1

def markEntries (isName : WString → Bool) (entries : List DirectoryEntry) :
    List DirectoryEntry :=
  entries.map fun entry =>
    if isName entry.name then entry.markUnsure else entry

/-- The loop in `UpdateFile`, which stops at the name itself.  The second
result is the entry that has this name. -/
def markUntil (folding : NameFolding) (filename : WString) :
    List DirectoryEntry → List DirectoryEntry × Option DirectoryEntry
  | [] => ([], none)
  | entry :: entries =>
      if folding.same filename entry.name then
        if entry.name = filename then
          (entry.markUnsure :: entries, some entry.markUnsure)
        else
          let rest := markUntil folding filename entries
          (entry.markUnsure :: rest.1, rest.2)
      else
        let rest := markUntil folding filename entries
        (entry :: rest.1, rest.2)

/-- The entry that `UpdateFile` adds. -/
def newEntry (filename : WString) (type : Filetype) (size : ℤ)
    (ownerGroup : WString) : DirectoryEntry :=
  { name := filename
    size := size
    permissions := []
    ownerGroup := ownerGroup
    target := none
    time := none
    flags :=
      if type = .dir then
        DirectoryEntry.flagDir ||| DirectoryEntry.flagUnsure
      else DirectoryEntry.flagUnsure }

def addedFlag : Filetype → ℕ
  | .dir =>
      DirectoryListing.unsureDirAdded ||| DirectoryListing.listingHasDirs
  | .file => DirectoryListing.unsureFileAdded
  | .unknown => DirectoryListing.unsureInvalid

def changedFlag (type : Filetype) (entry : DirectoryEntry) : ℕ :=
  let oldType : Filetype := if entry.isDir then .dir else .file
  if type ≠ oldType then DirectoryListing.unsureInvalid
  else if type = .dir then DirectoryListing.unsureDirChanged
  else DirectoryListing.unsureFileChanged

/-- What `UpdateFile` does to a listing. -/
def updateListing (folding : NameFolding) (filename : WString)
    (mayCreate : Bool) (type : Filetype) (size : ℤ) (ownerGroup : WString)
    (listing : DirectoryListing) : DirectoryListing × ℤ :=
  let marked := markUntil folding filename listing.entries
  let listing := { listing with entries := marked.1 }
  match marked.2 with
  | some entry => (listing.addFlag (changedFlag type entry), 0)
  | none =>
      if type ≠ .unknown ∧ mayCreate then
        ((listing.addFlag (addedFlag type)).append
          (newEntry filename type size ownerGroup), 1)
      else (listing.addFlag DirectoryListing.unsureUnknown, 0)

/-- `UpdateFile`.  The second result is whether any listing was updated. -/
def updateFile (cache : DirectoryCache) (folding : NameFolding)
    (server : Server) (path : ServerPath) (filename : WString)
    (mayCreate : Bool) (type : Filetype) (size : ℤ) (ownerGroup : WString)
    (now : ℤ) : DirectoryCache × Bool :=
  match cache.getServerEntry server with
  | none => (cache, false)
  | some sit =>
      let isMatch (entry : CacheEntry) :=
        path.equalNocase folding.same entry.path
      (cache.visit sit isMatch
          (updateListing folding filename mayCreate type size ownerGroup) now,
        sit.cacheList.any isMatch)

/-- What `RemoveFile` does to a listing. -/
def removeFromListing (folding : NameFolding) (filename : WString)
    (listing : DirectoryListing) : DirectoryListing × ℤ :=
  match listing.indexOf filename with
  | some index => (listing.removeEntry index, -1)
  | none =>
      ({ listing with
          entries := markEntries (folding.same filename)
            listing.entries }.addFlag DirectoryListing.unsureInvalid, 0)

def removeFile (cache : DirectoryCache) (folding : NameFolding)
    (server : Server) (path : ServerPath) (filename : WString) (now : ℤ) :
    DirectoryCache × Bool :=
  match cache.getServerEntry server with
  | none => (cache, false)
  | some sit =>
      (cache.visit sit (fun entry => path.equalNocase folding.same entry.path)
        (removeFromListing folding filename) now, true)

/-- What `InvalidateFile` does to a listing. -/
def invalidateListing (isName : WString → Bool) (listing : DirectoryListing) :
    DirectoryListing × ℤ :=
  ({ listing with entries := markEntries isName listing.entries }.addFlag
    DirectoryListing.unsureUnknown, 0)

/-- The second loop of `InvalidateFile`. -/
def invalidateEntries (isBelow : CacheEntry → Bool) (now : ℤ)
    (entries : List CacheEntry) : List CacheEntry :=
  entries.map fun entry =>
    if isBelow entry then
      { entry with
        listing := entry.listing.addFlag DirectoryListing.unsureUnknown
        modificationTime := now }
    else entry

def invalidateFile (cache : DirectoryCache) (folding : NameFolding)
    (server : Server) (path : ServerPath) (filename : WString) (now : ℤ) :
    DirectoryCache × Bool :=
  match cache.getServerEntry server with
  | none => (cache, false)
  | some sit =>
      let cmpCase := server.protocol.caseSensitivity == .yes
      let sameName := if cmpCase then ServerPath.exactName else folding.same
      let isMatch (entry : CacheEntry) :=
        if cmpCase then path.same entry.path
        else path.equalNocase folding.same entry.path
      let isName (name : WString) := sameName filename name
      let dir := sit.cacheList.any fun entry =>
        isMatch entry && entry.listing.entries.any fun direntry =>
          isName direntry.name && direntry.isDir
      let cache := cache.visit sit isMatch (invalidateListing isName) now
      if dir && (path.changePath filename).2 then
        match cache.serverList.find? (·.id = sit.id) with
        | none => (cache, true)
        | some sit =>
            (cache.writeList sit.id (invalidateEntries
              (fun entry => path.isParentOf sameName entry.path true) now
              sit.cacheList), true)
      else (cache, true)

/-! ## Removing listings -/

def fileCount (entries : List CacheEntry) : ℤ :=
  (entries.map fun entry => (entry.listing.size : ℤ)).sum

def eraseNodes (lru : LruList) (erased : List CacheEntry) : LruList :=
  { lru with
    nodes := lru.nodes.filter fun node =>
      !erased.any fun entry => entry.lruIt == some node.id }

def invalidateServer (cache : DirectoryCache) (server : Server) :
    DirectoryCache :=
  match cache.getServerEntry server with
  | none => cache
  | some sit =>
      { cache with
        leastRecentlyUsedList :=
          eraseNodes cache.leastRecentlyUsedList sit.cacheList
        totalFileCount := cache.totalFileCount - fileCount sit.cacheList
        serverList := cache.serverList.filter (·.id ≠ sit.id) }

/-- The entries that `RemoveDir` erases. -/
def removedByDir (folding : NameFolding) (path : ServerPath)
    (filename : WString) (entry : CacheEntry) : Bool :=
  match path.addSegment filename with
  | none => false
  | some absolutePath =>
      entry.path.same absolutePath ||
        absolutePath.isParentOf folding.same entry.path false

/-- The loop of `RemoveDir`. -/
def eraseEntries (cache : DirectoryCache) (sit : ServerEntry)
    (isErased : CacheEntry → Bool) : DirectoryCache :=
  let erased := sit.cacheList.filter isErased
  { cache with
    leastRecentlyUsedList := eraseNodes cache.leastRecentlyUsedList erased
    totalFileCount := cache.totalFileCount - fileCount erased }.writeList
      sit.id (sit.cacheList.filter fun entry => !isErased entry)

def removeDir (cache : DirectoryCache) (folding : NameFolding)
    (server : Server) (path : ServerPath) (filename : WString) (now : ℤ) :
    DirectoryCache :=
  match cache.getServerEntry server with
  | none => cache
  | some sit =>
      ((cache.eraseEntries sit (removedByDir folding path filename)).removeFile
        folding server path filename now).1

def renameEntry (fileFrom fileTo : WString) :
    List DirectoryEntry → List DirectoryEntry
  | [] => []
  | entry :: entries =>
      if entry.name = fileFrom then
        { entry with name := fileTo }.markUnsure :: entries
      else entry :: renameEntry fileFrom fileTo entries

def renameListing (fileFrom fileTo : WString) (listing : DirectoryListing) :
    DirectoryListing :=
  ({ listing with
      entries := renameEntry fileFrom fileTo listing.entries }.addFlag
    DirectoryListing.unsureUnknown).clearFindMap

/-- `Rename` where both directories are the same one. -/
def renameWithin (cache : DirectoryCache) (folding : NameFolding)
    (server : Server) (sit cit : ℕ) (path : ServerPath)
    (fileFrom fileTo : WString) (now : ℤ) : DirectoryCache :=
  let cache := (cache.removeFile folding server path fileTo now).1
  match cache.entryAt sit cit with
  | none => cache
  | some cit =>
      match cit.listing.entryOf fileFrom with
      | none => cache
      | some entry =>
          if entry.isDir then
            let cache := cache.removeDir folding server path fileFrom now
            let cache := cache.removeDir folding server path fileTo now
            (cache.updateFile folding server path fileTo true .dir (-1) []
              now).1
          else
            cache.writeEntry sit
              { cit with
                listing := renameListing fileFrom fileTo cit.listing }

/-- `Rename` where the directories differ. -/
def renameAcross (cache : DirectoryCache) (folding : NameFolding)
    (server : Server) (listing : DirectoryListing) (pathFrom : ServerPath)
    (fileFrom : WString) (pathTo : ServerPath) (fileTo : WString) (now : ℤ) :
    DirectoryCache :=
  match listing.entryOf fileFrom with
  | none => cache
  | some entry =>
      if entry.isDir then
        let cache := cache.removeDir folding server pathFrom fileFrom now
        (cache.updateFile folding server pathTo fileTo true .dir (-1) [] now).1
      else
        let cache :=
          (cache.removeFile folding server pathFrom fileFrom now).1
        (cache.updateFile folding server pathTo fileTo true .file (-1) []
          now).1

def rename (cache : DirectoryCache) (folding : NameFolding) (server : Server)
    (pathFrom : ServerPath) (fileFrom : WString) (pathTo : ServerPath)
    (fileTo : WString) (now : ℤ) : DirectoryCache :=
  match cache.getServerEntry server with
  | none => cache
  | some sit =>
      match cache.lookupEntry sit pathFrom true now with
      | (cache, some (cit, _)) =>
          if pathFrom.same pathTo then
            cache.renameWithin folding server sit.id cit.id pathFrom fileFrom
              fileTo now
          else
            cache.renameAcross folding server cit.listing pathFrom fileFrom
              pathTo fileTo now
      | (cache, none) => cache.invalidateServer server

/-- The first entry with a name is given an owner, unless it is a
directory. -/
def changeOwner (filename ownerGroup : WString) :
    List DirectoryEntry → List DirectoryEntry
  | [] => []
  | entry :: entries =>
      if entry.name = filename then
        { entry with ownerGroup := ownerGroup } :: entries
      else entry :: changeOwner filename ownerGroup entries

def updateOwnerGroup (cache : DirectoryCache) (server : Server)
    (path : ServerPath) (filename ownerGroup : WString) (now : ℤ) :
    DirectoryCache :=
  match cache.getServerEntry server with
  | none => cache
  | some sit =>
      match cache.lookupEntry sit path true now with
      | (cache, some (cit, _)) =>
          match cit.listing.entryOf filename with
          | some entry =>
              if entry.isDir then cache
              else
                cache.writeEntry sit.id
                  { cit with
                    listing :=
                      { cit.listing with
                        entries := changeOwner filename ownerGroup
                          cit.listing.entries }.clearFindMap }
          | none => cache.invalidateServer server
      | (cache, none) => cache.invalidateServer server

/-- `SetTtl`, with times in milliseconds. -/
def setTtl (cache : DirectoryCache) (ttl : ℤ) : DirectoryCache :=
  { cache with
    ttl :=
      if ttl < 30000 then 30000
      else if 86400000 < ttl then 86400000
      else ttl }

end DirectoryCache

/-! ## Sequences of operations -/

inductive CacheOperation
  | store (listing : DirectoryListing) (server : Server)
  | lookup (server : Server) (path : ServerPath) (allowUnsureEntries : Bool)
  | doesExist (server : Server) (path : ServerPath)
  | getChangeTime (server : Server) (path : ServerPath)
  | lookupFiles (server : Server) (path : ServerPath)
      (filenames : List WString) (flags : LookupFlags)
  | lookupFile (server : Server) (path : ServerPath) (filename : WString)
      (flags : LookupFlags)
  | lookupFileAnyCase (server : Server) (path : ServerPath)
      (filename : WString)
  | invalidateFile (server : Server) (path : ServerPath) (filename : WString)
  | updateFile (server : Server) (path : ServerPath) (filename : WString)
      (mayCreate : Bool) (type : Filetype) (size : ℤ) (ownerGroup : WString)
  | removeFile (server : Server) (path : ServerPath) (filename : WString)
  | invalidateServer (server : Server)
  | removeDir (server : Server) (path : ServerPath) (filename : WString)
  | rename (server : Server) (pathFrom : ServerPath) (fileFrom : WString)
      (pathTo : ServerPath) (fileTo : WString)
  | updateOwnerGroup (server : Server) (path : ServerPath)
      (filename ownerGroup : WString)
  | setTtl (ttl : ℤ)
  deriving DecidableEq

namespace DirectoryCache

def perform (folding : NameFolding) (cache : DirectoryCache)
    (operation : CacheOperation) (now : ℤ) : DirectoryCache :=
  match operation with
  | .store listing server => cache.store listing server now
  | .lookup server path allowUnsureEntries =>
      (cache.lookup server path allowUnsureEntries now).1
  | .doesExist server path => (cache.doesExist server path now).1
  | .getChangeTime server path => (cache.getChangeTime server path now).1
  | .lookupFiles server path filenames flags =>
      (cache.lookupFiles folding server path filenames flags now).1
  | .lookupFile server path filename flags =>
      (cache.lookupFile folding server path filename flags now).1
  | .lookupFileAnyCase server path filename =>
      (cache.lookupFileAnyCase folding server path filename now).1
  | .invalidateFile server path filename =>
      (cache.invalidateFile folding server path filename now).1
  | .updateFile server path filename mayCreate type size ownerGroup =>
      (cache.updateFile folding server path filename mayCreate type size
        ownerGroup now).1
  | .removeFile server path filename =>
      (cache.removeFile folding server path filename now).1
  | .invalidateServer server => cache.invalidateServer server
  | .removeDir server path filename =>
      cache.removeDir folding server path filename now
  | .rename server pathFrom fileFrom pathTo fileTo =>
      cache.rename folding server pathFrom fileFrom pathTo fileTo now
  | .updateOwnerGroup server path filename ownerGroup =>
      cache.updateOwnerGroup server path filename ownerGroup now
  | .setTtl ttl => cache.setTtl ttl

/-- `CDirectoryCache()` -/
def initial : DirectoryCache where
  serverList := []
  leastRecentlyUsedList := ⟨[], 0⟩
  totalFileCount := 0
  ttl := 600000
  nextServer := 0
  nextEntry := 0

/-- An input is an operation and the time at which it runs. -/
def machine (folding : NameFolding) :
    LabelledRuns.Machine DirectoryCache (CacheOperation × ℤ) Empty where
  initial cache := cache = initial
  step cache input := some (cache.perform folding input.1 input.2, [])

end DirectoryCache

end TabFtp
