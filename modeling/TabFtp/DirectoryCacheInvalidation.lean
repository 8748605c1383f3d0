import TabFtp.DirectoryCacheRename
import TabFtp.ServerPathOrEqual

/-!
# Invalidating a file in the directory cache

`InvalidateFile` marks the listings of a path and, if one of them has a
directory of the given name, the listings of that directory.  The path of the
directory is computed for this, but the second loop asks which listings are
below the given path.
-/

namespace TabFtp

open UniqueKeys

namespace DirectoryCache

variable {cache : DirectoryCache} {sit : ServerEntry} {cit : CacheEntry}
  {server other : Server} {folding : NameFolding} {path : ServerPath}
  {filename : WString} {now : ℤ} {entries : List CacheEntry}

/-- Names are compared without case unless the server is known to be case
sensitive. -/
def anyCase (server : Server) : Bool :=
  !(server.protocol.caseSensitivity == .yes)

def atPath (folding : NameFolding) (server : Server) (path : ServerPath)
    (cit : CacheEntry) : Bool :=
  path.equalPath folding (anyCase server) cit.path

def isNamed (folding : NameFolding) (server : Server)
    (filename name : WString) : Bool :=
  ServerPath.compareName folding (anyCase server) filename name

def listsDir (folding : NameFolding) (server : Server) (path : ServerPath)
    (filename : WString) (entries : List CacheEntry) : Bool :=
  entries.any fun cit =>
    atPath folding server path cit && cit.listing.entries.any fun direntry =>
      isNamed folding server filename direntry.name && direntry.isDir

def belowPath (folding : NameFolding) (server : Server) (path : ServerPath)
    (cit : CacheEntry) : Bool :=
  path.isParentOf (ServerPath.compareName folding (anyCase server)) cit.path
    true

def spreads (folding : NameFolding) (server : Server) (path : ServerPath)
    (filename : WString) (entries : List CacheEntry) : Bool :=
  listsDir folding server path filename entries &&
    (path.changePath filename).2

def markBelow (folding : NameFolding) (server : Server) (path : ServerPath)
    (now : ℤ) (cit : CacheEntry) : CacheEntry :=
  if belowPath folding server path cit then
    { cit with
      listing := cit.listing.addFlag DirectoryListing.unsureUnknown
      modificationTime := now }
  else cit

/-! ## What becomes of the entries -/

theorem invalidateFile_eq (hfound : cache.getServerEntry server = some sit)
    (folding : NameFolding) (path : ServerPath) (filename : WString)
    (now : ℤ) :
    (cache.invalidateFile folding server path filename now).1 =
      let visited := cache.visit sit (atPath folding server path)
        (invalidateListing (isNamed folding server filename)) now
      if spreads folding server path filename sit.cacheList then
        match visited.serverList.find? (·.id = sit.id) with
        | none => visited
        | some sit =>
            visited.writeList sit.id
              (sit.cacheList.map (markBelow folding server path now))
      else visited := by
  have hmatch : ∀ cit : CacheEntry,
      (if server.protocol.caseSensitivity == .yes then path.same cit.path
      else path.equalNocase folding.same cit.path) =
        atPath folding server path cit := by
    intro cit
    unfold atPath ServerPath.equalPath anyCase
    cases server.protocol.caseSensitivity == .yes <;> rfl
  have hname : (if server.protocol.caseSensitivity == .yes then
      ServerPath.exactName else folding.same) =
        ServerPath.compareName folding (anyCase server) := by
    unfold ServerPath.compareName anyCase
    cases server.protocol.caseSensitivity == .yes <;> rfl
  unfold invalidateFile
  rw [hfound]
  simp only [hmatch, hname]
  change (if spreads folding server path filename sit.cacheList = true then _
    else _ : DirectoryCache × Bool).1 = _
  cases spreads folding server path filename sit.cacheList with
  | false => rfl
  | true =>
      simp only [if_true]
      change (match (cache.visit sit (atPath folding server path)
          (invalidateListing (isNamed folding server filename))
          now).serverList.find? (·.id = sit.id) with
        | none => _
        | some sit => _ : DirectoryCache × Bool).1 = _
      cases (cache.visit sit (atPath folding server path)
          (invalidateListing (isNamed folding server filename))
          now).serverList.find? (·.id = sit.id) with
      | none => rfl
      | some visited => rfl

def invalidated (folding : NameFolding) (server : Server) (path : ServerPath)
    (filename : WString) (now : ℤ) (spread : Bool) (cit : CacheEntry) :
    CacheEntry :=
  let visited := editEntry (atPath folding server path)
    (invalidateListing (isNamed folding server filename)) now cit
  if spread then markBelow folding server path now visited else visited

theorem find_after_visit (hcons : Consistent cache)
    (hfound : cache.getServerEntry server = some sit)
    (isMatch : CacheEntry → Bool)
    {edit : DirectoryListing → DirectoryListing × ℤ}
    (hedit : KeepsBooks edit) (now : ℤ) :
    (cache.visit sit isMatch edit now).serverList.find? (·.id = sit.id) =
        some { sit with
          cacheList := sit.cacheList.map (editEntry isMatch edit now) } ∧
      (cache.visit sit isMatch edit now).getServerEntry server =
        some { sit with
          cacheList := sit.cacheList.map (editEntry isMatch edit now) } := by
  have hsit := mem_of_getServerEntry hfound
  have hkeeps : Keeps cache (cache.visit sit isMatch edit now) :=
    visit_keeps hcons hsit hedit now
  have hget : (cache.visit sit isMatch edit now).getServerEntry server =
      some { sit with
        cacheList := sit.cacheList.map (editEntry isMatch edit now) } := by
    have hlist : (cache.visit sit isMatch edit now).serverList = _ :=
      visit_serverList hcons hsit hedit now
    have hwritten := @getServerEntry_writeList cache server sit.id
      (sit.cacheList.map (editEntry isMatch edit now))
    rw [hfound, Option.map_some, if_pos rfl] at hwritten
    unfold getServerEntry at hwritten ⊢
    rw [hlist]
    exact hwritten
  refine ⟨?_, hget⟩
  apply hkeeps.consistent.ids.find (mem_of_getServerEntry hget)
  intro entry _
  exact decide_eq_true_iff

theorem entriesOf_writeList_other (hcons : Consistent cache)
    (hfound : cache.getServerEntry server = some sit)
    (hother : other.sameContent server = false)
    (cacheList : List CacheEntry) :
    (cache.writeList sit.id cacheList).entriesOf other =
      cache.entriesOf other := by
  unfold entriesOf
  rw [getServerEntry_writeList]
  cases hentry : cache.getServerEntry other with
  | none => rfl
  | some entry =>
      have hfind : cache.serverList.find? (fun entry =>
          entry.server.sameContent server) = some sit := hfound
      have hfindOther : cache.serverList.find? (fun entry =>
          entry.server.sameContent other) = some entry := hentry
      have hid : entry.id ≠ sit.id := by
        intro hid
        have heq := hcons.ids.eq_of_key (mem_of_getServerEntry hentry)
          (mem_of_getServerEntry hfound) hid
        have hcontent := List.find?_some hfindOther
        have hsitContent := List.find?_some hfind
        rw [heq] at hcontent
        have hsame := Server.sameContent_trans
          (Server.sameContent_symm hcontent) hsitContent
        rw [hother] at hsame
        cases hsame
      rw [Option.map_some, if_neg hid]

theorem entriesOf_visit_other (hcons : Consistent cache)
    (hfound : cache.getServerEntry server = some sit)
    (hother : other.sameContent server = false)
    (isMatch : CacheEntry → Bool)
    {edit : DirectoryListing → DirectoryListing × ℤ}
    (hedit : KeepsBooks edit) (now : ℤ) :
    (cache.visit sit isMatch edit now).entriesOf other =
      cache.entriesOf other := by
  rw [← entriesOf_writeList_other hcons hfound hother
    (sit.cacheList.map (editEntry isMatch edit now))]
  exact entriesOf_congr
    (visit_serverList hcons (mem_of_getServerEntry hfound) hedit now)

theorem entriesOf_invalidateFile (hcons : Consistent cache) :
    (cache.invalidateFile folding server path filename now).1.entriesOf
        server =
      (cache.entriesOf server).map (invalidated folding server path filename
        now (spreads folding server path filename
          (cache.entriesOf server))) := by
  cases hfound : cache.getServerEntry server with
  | none =>
      unfold invalidateFile
      rw [hfound]
      simp only
      rw [entriesOf_of_none hfound]
      rfl
  | some sit =>
      have hedit := invalidateListing_keepsBooks
        (isNamed folding server filename)
      obtain ⟨hfind, hget⟩ := find_after_visit hcons hfound
        (atPath folding server path) hedit now
      rw [invalidateFile_eq hfound, entriesOf_of_some hfound]
      unfold invalidated
      cases spreads folding server path filename sit.cacheList with
      | false =>
          rw [← entriesOf_of_some hfound]
          exact entriesOf_visit hcons hedit hfound
      | true =>
          simp only [if_true]
          rw [hfind]
          simp only
          rw [entriesOf_writeList _ hget, List.map_map]
          rfl

theorem entriesOf_invalidateFile_other (hcons : Consistent cache)
    (hother : other.sameContent server = false) :
    (cache.invalidateFile folding server path filename now).1.entriesOf
        other =
      cache.entriesOf other := by
  cases hfound : cache.getServerEntry server with
  | none =>
      unfold invalidateFile
      rw [hfound]
  | some sit =>
      have hedit := invalidateListing_keepsBooks
        (isNamed folding server filename)
      obtain ⟨hfind, hget⟩ := find_after_visit hcons hfound
        (atPath folding server path) hedit now
      have hvisit := entriesOf_visit_other hcons hfound hother
        (atPath folding server path) hedit now
      have hkeeps : Keeps cache (cache.visit sit (atPath folding server path)
          (invalidateListing (isNamed folding server filename)) now) :=
        visit_keeps hcons (mem_of_getServerEntry hfound) hedit now
      rw [invalidateFile_eq hfound]
      cases spreads folding server path filename sit.cacheList with
      | false => exact hvisit
      | true =>
          simp only [if_true]
          rw [hfind]
          simp only
          rw [← hvisit]
          exact entriesOf_writeList_other hkeeps.consistent hget hother _

theorem unsure_addFlag_unknown (listing : DirectoryListing) :
    (listing.addFlag DirectoryListing.unsureUnknown).unsureFlags ≠ 0 :=
  (DirectoryListing.unsureFlags_addFlag listing _).mpr (Or.inr (by decide))

variable {spread : Bool}

theorem invalidated_path :
    (invalidated folding server path filename now spread cit).path =
      cit.path := by
  have hvisited : (editEntry (atPath folding server path)
      (invalidateListing (isNamed folding server filename)) now cit).path =
        cit.path :=
    editEntry_path
      (invalidateListing_keepsBooks (isNamed folding server filename))
      (atPath folding server path) cit
  unfold invalidated markBelow
  simp only
  split_ifs
  · exact hvisited
  · exact hvisited
  · exact hvisited

theorem invalidated_atPath (hat : atPath folding server path cit = true) :
    (invalidated folding server path filename now
      spread cit).listing.unsureFlags ≠ 0 := by
  have hvisited : (editEntry (atPath folding server path)
      (invalidateListing (isNamed folding server filename)) now
      cit).listing.unsureFlags ≠ 0 := by
    unfold editEntry
    rw [if_pos hat]
    exact unsure_addFlag_unknown _
  unfold invalidated markBelow
  simp only
  split_ifs
  · exact unsure_addFlag_unknown _
  · exact hvisited
  · exact hvisited

theorem invalidated_elsewhere
    (hat : atPath folding server path cit = false) :
    invalidated folding server path filename now spread cit =
      if spread then markBelow folding server path now cit else cit := by
  have hvisited : editEntry (atPath folding server path)
      (invalidateListing (isNamed folding server filename)) now cit = cit := by
    unfold editEntry
    rw [if_neg (by rw [hat]; exact Bool.false_ne_true)]
  unfold invalidated
  rw [hvisited]

/-! ## The listings that are concerned -/

def atOrBelow (folding : NameFolding) (server : Server) (child : ServerPath)
    (cit : CacheEntry) : Bool :=
  child.equalPath folding (anyCase server) cit.path ||
    cit.path.isSubdirOf (ServerPath.compareName folding (anyCase server))
      child false

def concerned (folding : NameFolding) (server : Server) (path : ServerPath)
    (filename : WString) (entries : List CacheEntry) (cit : CacheEntry) :
    Bool :=
  atPath folding server path cit ||
    (spreads folding server path filename entries &&
      atOrBelow folding server (path.changePath filename).1 cit)

structure Untouched (cit after : CacheEntry) : Prop where
  flags : after.listing.flags = cit.listing.flags
  entries : after.listing.entries = cit.listing.entries
  modificationTime : after.modificationTime = cit.modificationTime

/-- The listings that are concerned are unsure, and nothing else has
changed. -/
structure TouchesConcerned (folding : NameFolding) (server : Server)
    (path : ServerPath) (filename : WString)
    (before after : DirectoryCache) : Prop where
  listings : List.Forall₂ (fun cit cit' =>
      cit'.path = cit.path ∧
      if concerned folding server path filename (before.entriesOf server) cit
      then cit'.listing.unsureFlags ≠ 0
      else Untouched cit cit')
    (before.entriesOf server) (after.entriesOf server)
  elsewhere : ∀ other : Server, other.sameContent server = false →
    after.entriesOf other = before.entriesOf other

/-- If the second loop is reached, the listings below the path, apart from the
path's own, are those of the directory and below it.  A listing that already
has what the loop would do to it does not count. -/
def BelowIsConcerned (folding : NameFolding) (server : Server)
    (path : ServerPath) (filename : WString) (now : ℤ)
    (entries : List CacheEntry) : Prop :=
  spreads folding server path filename entries = true →
    ∀ cit ∈ entries, atPath folding server path cit = false →
      if atOrBelow folding server (path.changePath filename).1 cit then
        belowPath folding server path cit = true ∨
          cit.listing.unsureFlags ≠ 0
      else
        belowPath folding server path cit = false ∨
          cit.listing.flags ||| DirectoryListing.unsureUnknown =
              cit.listing.flags ∧
            cit.modificationTime = now

theorem markBelow_unsure_iff :
    (markBelow folding server path now cit).listing.unsureFlags ≠ 0 ↔
      belowPath folding server path cit = true ∨
        cit.listing.unsureFlags ≠ 0 := by
  unfold markBelow
  split_ifs with hbelow
  · have hunsure := unsure_addFlag_unknown cit.listing
    simp [hbelow, hunsure]
  · simp [hbelow]

theorem markBelow_untouched_iff :
    Untouched cit (markBelow folding server path now cit) ↔
      belowPath folding server path cit = false ∨
        cit.listing.flags ||| DirectoryListing.unsureUnknown =
            cit.listing.flags ∧
          cit.modificationTime = now := by
  unfold markBelow
  split_ifs with hbelow
  · constructor
    · intro huntouched
      exact .inr ⟨huntouched.flags, huntouched.modificationTime.symm⟩
    · intro hmarked
      rcases hmarked with hfalse | ⟨hflags, htime⟩
      · rw [hbelow] at hfalse
        cases hfalse
      · exact ⟨hflags, rfl, htime.symm⟩
  · simp only [Bool.not_eq_true] at hbelow
    simp only [hbelow, true_or, iff_true]
    exact ⟨rfl, rfl, rfl⟩

theorem invalidated_elsewhere_iff
    (hat : atPath folding server path cit = false) :
    (if concerned folding server path filename entries cit then
        (invalidated folding server path filename now
          (spreads folding server path filename entries)
          cit).listing.unsureFlags ≠ 0
      else Untouched cit (invalidated folding server path filename now
        (spreads folding server path filename entries) cit)) ↔
      (spreads folding server path filename entries = true →
        if atOrBelow folding server (path.changePath filename).1 cit then
          belowPath folding server path cit = true ∨
            cit.listing.unsureFlags ≠ 0
        else
          belowPath folding server path cit = false ∨
            cit.listing.flags ||| DirectoryListing.unsureUnknown =
                cit.listing.flags ∧
              cit.modificationTime = now) := by
  rw [invalidated_elsewhere hat]
  unfold concerned
  rw [hat, Bool.false_or]
  cases spreads folding server path filename entries with
  | false => simpa using (⟨rfl, rfl, rfl⟩ : Untouched cit cit)
  | true =>
      simp only [Bool.true_and, if_true, true_implies]
      rw [markBelow_unsure_iff, markBelow_untouched_iff]

/-- `InvalidateFile` marks only what is concerned exactly if all that it takes
to be below is. -/
theorem invalidateFile_touches_iff (hcons : Consistent cache) :
    TouchesConcerned folding server path filename cache
        (cache.invalidateFile folding server path filename now).1 ↔
      BelowIsConcerned folding server path filename now
        (cache.entriesOf server) := by
  have hentry : ∀ cit : CacheEntry, ∀ entries,
      ((invalidated folding server path filename now
          (spreads folding server path filename entries) cit).path =
            cit.path ∧
        if concerned folding server path filename entries cit then
          (invalidated folding server path filename now
            (spreads folding server path filename entries)
            cit).listing.unsureFlags ≠ 0
        else Untouched cit (invalidated folding server path filename now
          (spreads folding server path filename entries) cit)) ↔
      (atPath folding server path cit = false →
        if concerned folding server path filename entries cit then
          (invalidated folding server path filename now
            (spreads folding server path filename entries)
            cit).listing.unsureFlags ≠ 0
        else Untouched cit (invalidated folding server path filename now
          (spreads folding server path filename entries) cit)) := by
    intro cit entries
    constructor
    · intro hholds _
      exact hholds.2
    · intro hholds
      refine ⟨invalidated_path, ?_⟩
      cases hat : atPath folding server path cit with
      | false => exact hholds hat
      | true =>
          unfold concerned
          rw [hat, Bool.true_or, if_pos rfl]
          exact invalidated_atPath hat
  constructor
  · intro htouches hspread cit hcit hat
    have hlistings := htouches.listings
    rw [entriesOf_invalidateFile hcons, List.forall₂_map_right_iff,
      List.forall₂_same] at hlistings
    exact (invalidated_elsewhere_iff hat).mp (hlistings cit hcit).2 hspread
  · intro hbelow
    constructor
    · rw [entriesOf_invalidateFile hcons, List.forall₂_map_right_iff,
        List.forall₂_same]
      intro cit hcit
      rw [hentry]
      intro hat
      exact (invalidated_elsewhere_iff hat).mpr fun hspread =>
        hbelow hspread cit hcit hat
    · intro other hother
      exact entriesOf_invalidateFile_other hcons hother

end DirectoryCache

open DirectoryCache

variable {folding : NameFolding} {inputs : List (CacheOperation × ℤ)}
  {outputs : List Empty} {cache : DirectoryCache}

/-- In every cache that can come about, invalidating a file touches just the
listings that show the file or what is in it, exactly if the listings below
the path are those of the directory with the file's name. -/
theorem invalidateFile_reachable
    (hreach : (machine folding).Reaches inputs outputs cache)
    (server : Server) (path : ServerPath) (filename : WString) (now : ℤ) :
    TouchesConcerned folding server path filename cache
        (cache.invalidateFile folding server path filename now).1 ↔
      BelowIsConcerned folding server path filename now
        (cache.entriesOf server) :=
  invalidateFile_touches_iff (reaches_consistent hreach)

/-- A directory that has a directory, and a listing of another directory next
to that one. -/
def besideDirectory : List (CacheOperation × ℤ) :=
  [(.store (listingOf [['a']] (plainDirectory ['d'])) plainServer, 0),
    (.store (listingOf [['a'], ['e']] (plainEntry ['y'])) plainServer, 1)]

/-- The directory's listing and that below it are reached, one outside of the
path is not. -/
theorem invalidateFile_reachable_filled :
    let cache := performed plainFolding
      [(.store (listingOf [['a']] (plainDirectory ['d'])) plainServer, 0),
        (.store (listingOf [['a'], ['d'], ['s']] (plainEntry ['y']))
          plainServer, 1),
        (.store (listingOf [['b']] (plainEntry ['z'])) plainServer, 2)]
    let invalidated := (cache.invalidateFile plainFolding plainServer
      (rootedPath [['a']]) ['d'] 3).1
    (invalidated.entriesOf plainServer).map (fun cit =>
        (cit.path, cit.listing.unsureFlags != 0)) =
        [(rootedPath [['a']], true), (rootedPath [['a'], ['d'], ['s']], true),
          (rootedPath [['b']], false)] ∧
      TouchesConcerned plainFolding plainServer (rootedPath [['a']]) ['d']
        cache invalidated := by
  intro cache invalidated
  refine ⟨by decide, ?_⟩
  apply (invalidateFile_reachable (reaches_performed plainFolding _)
    plainServer (rootedPath [['a']]) ['d'] 3).mpr
  unfold BelowIsConcerned
  decide

/-- A directory beside the file is touched, too. -/
theorem invalidateFile_beside :
    ∃ cache, (machine plainFolding).Reaches besideDirectory [] cache ∧
      ¬ TouchesConcerned plainFolding plainServer (rootedPath [['a']]) ['d']
        cache
        (cache.invalidateFile plainFolding plainServer (rootedPath [['a']])
          ['d'] 2).1 := by
  have hreach := reaches_performed plainFolding besideDirectory
  refine ⟨_, hreach, ?_⟩
  intro htouches
  let entries :=
    (performed plainFolding besideDirectory).entriesOf plainServer
  have hconcerned : BelowIsConcerned plainFolding plainServer
      (rootedPath [['a']]) ['d'] 2 entries :=
    (invalidateFile_touches_iff (reaches_consistent hreach)).mp htouches
  have hbeside : ∃ cit ∈ entries,
      spreads plainFolding plainServer (rootedPath [['a']]) ['d'] entries =
          true ∧
        atPath plainFolding plainServer (rootedPath [['a']]) cit = false ∧
        atOrBelow plainFolding plainServer
          ((rootedPath [['a']]).changePath ['d']).1 cit = false ∧
        belowPath plainFolding plainServer (rootedPath [['a']]) cit = true ∧
        cit.modificationTime ≠ 2 := by
    decide
  obtain ⟨cit, hcit, hspread, hat, hchild, hbelow, htime⟩ := hbeside
  have hentry := hconcerned hspread cit hcit hat
  rw [hchild, if_neg Bool.false_ne_true, hbelow] at hentry
  rcases hentry with hfalse | hsame
  · cases hfalse
  · exact htime hsame.2

end TabFtp
