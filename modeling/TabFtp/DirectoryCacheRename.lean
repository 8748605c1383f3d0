import TabFtp.DirectoryCacheAccounting

/-!
# Renaming in the directory cache

What `Rename` leaves behind is read off the entries of the server.  A listing
is clean if it has no unsure flag; a clean listing is trusted, so it has to
show the renamed file.  Listings at and below the old and the new name of a
directory have to be gone.
-/

namespace TabFtp

open UniqueKeys

namespace DirectoryCache

variable {cache : DirectoryCache} {sit : ServerEntry} {cit : CacheEntry}
  {server : Server} {folding : NameFolding} {now : ℤ}

/-! ## The entries of a server -/

def entriesOf (cache : DirectoryCache) (server : Server) : List CacheEntry :=
  match cache.getServerEntry server with
  | none => []
  | some sit => sit.cacheList

def cachedPaths (cache : DirectoryCache) (server : Server) :
    List ServerPath :=
  (cache.entriesOf server).map CacheEntry.path

/-- The listing that the cache has for a path. -/
def cached (cache : DirectoryCache) (server : Server) (path : ServerPath) :
    Option DirectoryListing :=
  ((cache.entriesOf server).find? fun cit => cit.path.same path).map
    CacheEntry.listing

theorem entriesOf_of_none (hnone : cache.getServerEntry server = none) :
    cache.entriesOf server = [] := by
  unfold entriesOf
  rw [hnone]

theorem entriesOf_of_some (hsome : cache.getServerEntry server = some sit) :
    cache.entriesOf server = sit.cacheList := by
  unfold entriesOf
  rw [hsome]

theorem entriesOf_congr {following : DirectoryCache}
    (hlist : following.serverList = cache.serverList) :
    following.entriesOf server = cache.entriesOf server := by
  unfold entriesOf getServerEntry
  rw [hlist]

theorem mem_of_cached {path : ServerPath} {listing : DirectoryListing}
    (hcached : cache.cached server path = some listing) :
    ∃ cit ∈ cache.entriesOf server,
      cit.path = path ∧ cit.listing = listing := by
  obtain ⟨cit, hfind, hlisting⟩ := Option.map_eq_some_iff.mp hcached
  have hsame := List.find?_some hfind
  exact ⟨cit, List.mem_of_find?_eq_some hfind,
    (ServerPath.same_iff _ _).mp hsame, hlisting⟩

theorem entriesOf_ordered (hcons : Consistent cache) :
    OrderedSet.Ordered CacheEntry.path ServerPath.less
      (cache.entriesOf server) := by
  unfold entriesOf
  cases hfound : cache.getServerEntry server with
  | none => exact List.Pairwise.nil
  | some sit =>
      exact (hcons.linked sit (mem_of_getServerEntry hfound)).ordered

theorem cached_of_mem
    (hcons : Consistent cache) (hmem : cit ∈ cache.entriesOf server) :
    cache.cached server cit.path = some cit.listing := by
  unfold cached
  cases hfind : (cache.entriesOf server).find? fun other =>
      other.path.same cit.path with
  | none =>
      have hnot := List.find?_eq_none.mp hfind cit hmem
      exact absurd ((ServerPath.same_iff _ _).mpr rfl) hnot
  | some other =>
      have hother := List.mem_of_find?_eq_some hfind
      have hfindSame := List.find?_some hfind
      have hpath := (ServerPath.same_iff _ _).mp hfindSame
      have hsame : OrderedSet.Equivalent ServerPath.less other.path
          cit.path := by
        rw [hpath]
        exact ServerPath.less_strictWeak.refl _
      rw [(entriesOf_ordered hcons).eq_of_equivalent hother hmem hsame]
      rfl

theorem getServerEntry_writeList (sit : ℕ) (cacheList : List CacheEntry) :
    (cache.writeList sit cacheList).getServerEntry server =
      (cache.getServerEntry server).map fun other =>
        if other.id = sit then { other with cacheList := cacheList }
        else other := by
  have hserver : ∀ other : ServerEntry,
      (if other.id = sit then { other with cacheList := cacheList }
        else other).server = other.server := by
    intro other
    by_cases hid : other.id = sit
    · rw [if_pos hid]
    · rw [if_neg hid]
  unfold getServerEntry writeList write
  rw [List.find?_map]
  simp only [Function.comp_def, hserver]

theorem entriesOf_writeList (cacheList : List CacheEntry)
    (hfound : cache.getServerEntry server = some sit) :
    (cache.writeList sit.id cacheList).entriesOf server = cacheList := by
  have hwritten := @getServerEntry_writeList cache server sit.id cacheList
  rw [hfound, Option.map_some, if_pos rfl] at hwritten
  exact entriesOf_of_some hwritten

theorem mem_entriesOf_writeEntry
    (hcons : Consistent cache) (hsit : sit ∈ cache.serverList)
    (hcit : cit ∈ sit.cacheList) {listing : DirectoryListing}
    {other : CacheEntry}
    (hmem : other ∈ (cache.writeEntry sit.id
      { cit with listing := listing }).entriesOf server) :
    other = { cit with listing := listing } ∨
      other ∈ cache.entriesOf server := by
  rw [writeEntry_eq hcons hsit] at hmem
  unfold entriesOf at hmem ⊢
  rw [getServerEntry_writeList] at hmem
  cases hfound : cache.getServerEntry server with
  | none =>
      rw [hfound] at hmem
      cases hmem
  | some entry =>
      rw [hfound, Option.map_some] at hmem
      by_cases hid : entry.id = sit.id
      · have hentry := hcons.ids.eq_of_key (mem_of_getServerEntry hfound)
          hsit hid
        rw [if_pos hid] at hmem
        rw [hentry]
        rcases (mem_write_iff (hcons.linked sit hsit).ids hcit).mp hmem with
          hnew | hold
        · exact Or.inl hnew
        · exact Or.inr hold.1
      · rw [if_neg hid] at hmem
        exact Or.inr hmem

/-! ## What the operations do to the entries -/

theorem entriesOf_visit {isMatch : CacheEntry → Bool}
    {edit : DirectoryListing → DirectoryListing × ℤ}
    (hcons : Consistent cache) (hedit : KeepsBooks edit)
    (hfound : cache.getServerEntry server = some sit) :
    (cache.visit sit isMatch edit now).entriesOf server =
      (cache.entriesOf server).map (editEntry isMatch edit now) := by
  have hlist := entriesOf_writeList
    (sit.cacheList.map (editEntry isMatch edit now)) hfound
  rw [entriesOf_of_some hfound, ← hlist]
  exact entriesOf_congr
    (visit_serverList hcons (mem_of_getServerEntry hfound) hedit now)

/-- The entries that `UpdateFile` and `RemoveFile` visit. -/
def visits (folding : NameFolding) (path : ServerPath) (cit : CacheEntry) :
    Bool :=
  path.equalNocase folding.same cit.path

theorem entriesOf_updateFile
    (hcons : Consistent cache) (path : ServerPath) (filename : WString)
    (mayCreate : Bool) (type : Filetype) (size : ℤ) (ownerGroup : WString) :
    (cache.updateFile folding server path filename mayCreate type size
        ownerGroup now).1.entriesOf server =
      (cache.entriesOf server).map (editEntry (visits folding path)
        (updateListing folding filename mayCreate type size ownerGroup)
        now) := by
  unfold updateFile
  cases hfound : cache.getServerEntry server with
  | none =>
      simp only
      rw [entriesOf_of_none hfound]
      rfl
  | some sit =>
      exact entriesOf_visit hcons
        (updateListing_keepsBooks folding filename mayCreate type size
          ownerGroup) hfound

theorem entriesOf_removeFile
    (hcons : Consistent cache) (path : ServerPath) (filename : WString) :
    (cache.removeFile folding server path filename now).1.entriesOf server =
      (cache.entriesOf server).map (editEntry (visits folding path)
        (removeFromListing folding filename) now) := by
  unfold removeFile
  cases hfound : cache.getServerEntry server with
  | none =>
      simp only
      rw [entriesOf_of_none hfound]
      rfl
  | some sit =>
      exact entriesOf_visit hcons
        (removeFromListing_keepsBooks folding filename) hfound

theorem entriesOf_removeDir
    (hcons : Consistent cache) (path : ServerPath) (filename : WString) :
    (cache.removeDir folding server path filename now).entriesOf server =
      ((cache.entriesOf server).filter fun cit =>
        !removedByDir folding path filename cit).map
          (editEntry (visits folding path)
            (removeFromListing folding filename) now) := by
  unfold removeDir
  cases hfound : cache.getServerEntry server with
  | none =>
      simp only
      rw [entriesOf_of_none hfound]
      rfl
  | some sit =>
      have herased := eraseEntries_keeps hcons (mem_of_getServerEntry hfound)
        (removedByDir folding path filename)
      simp only
      rw [entriesOf_removeFile herased.consistent]
      congr 1
      rw [entriesOf_of_some hfound]
      exact entriesOf_writeList _ hfound

theorem entriesOf_invalidateServer (hcons : Consistent cache) :
    (cache.invalidateServer server).entriesOf server = [] := by
  unfold invalidateServer
  cases hfound : cache.getServerEntry server with
  | none => exact entriesOf_of_none hfound
  | some sit =>
      apply entriesOf_of_none
      apply List.find?_eq_none.mpr
      intro other hother hsame
      obtain ⟨hin, hid⟩ := List.mem_filter.mp hother
      have hsit : sit ∈ cache.serverList := mem_of_getServerEntry hfound
      have hfind : cache.serverList.find? (fun entry =>
          entry.server.sameContent server) = some sit := hfound
      have hcontent := List.find?_some hfind
      have heq := hcons.eq_of_sameContent hin hsit
        (Server.sameContent_trans hsame (Server.sameContent_symm hcontent))
      rw [heq] at hid
      simp at hid

/-! ## Listings that are marked -/

theorem removeFromListing_unsure
    (filename : WString) (listing : DirectoryListing) :
    (removeFromListing folding filename listing).1.unsureFlags ≠ 0 := by
  unfold removeFromListing
  cases hindex : listing.indexOf filename with
  | some index =>
      exact DirectoryListing.removeEntry_unsure (indexOf_lt hindex)
  | none =>
      simp only
      rw [DirectoryListing.unsureFlags_addFlag]
      exact Or.inr (by decide)

theorem changedFlag_unsure (type : Filetype) (entry : DirectoryEntry) :
    changedFlag type entry &&& DirectoryListing.unsureMask ≠ 0 := by
  unfold changedFlag
  simp only
  split_ifs <;> decide

theorem addedFlag_unsure (type : Filetype) :
    addedFlag type &&& DirectoryListing.unsureMask ≠ 0 := by
  cases type <;> decide

theorem updateListing_unsure (filename : WString) (mayCreate : Bool)
    (type : Filetype) (size : ℤ) (ownerGroup : WString)
    (listing : DirectoryListing) :
    (updateListing folding filename mayCreate type size ownerGroup
      listing).1.unsureFlags ≠ 0 := by
  unfold updateListing
  simp only
  cases (markUntil folding filename listing.entries).2 with
  | some entry =>
      simp only
      rw [DirectoryListing.unsureFlags_addFlag]
      exact Or.inr (changedFlag_unsure type entry)
  | none =>
      by_cases hcreate : type ≠ .unknown ∧ mayCreate = true
      · simp only [if_pos hcreate]
        have hadded := DirectoryListing.unsureFlags_addFlag
          { listing with
            entries := (markUntil folding filename listing.entries).1 }
          (addedFlag type)
        exact hadded.mpr (Or.inr (addedFlag_unsure type))
      · simp only [if_neg hcreate]
        rw [DirectoryListing.unsureFlags_addFlag]
        exact Or.inr (by decide)

theorem renameListing_unsure (fileFrom fileTo : WString)
    (listing : DirectoryListing) :
    (renameListing fileFrom fileTo listing).unsureFlags ≠ 0 := by
  have hmarked := DirectoryListing.unsureFlags_addFlag
    { listing with entries := renameEntry fileFrom fileTo listing.entries }
    DirectoryListing.unsureUnknown
  unfold renameListing DirectoryListing.clearFindMap
  split
  · exact hmarked.mpr (Or.inr (by decide))
  · exact hmarked.mpr (Or.inr (by decide))

theorem segmentsEqual_refl {sameName : WString → WString → Bool}
    (hname : ∀ name, sameName name name = true) (segments : List WString) :
    ServerPath.segmentsEqual sameName segments segments = true := by
  induction segments with
  | nil => rfl
  | cons segment segments ih =>
      simp [ServerPath.segmentsEqual, hname, ih]

theorem samePrefix_refl {sameName : WString → WString → Bool}
    (hname : ∀ name, sameName name name = true) (device : Option WString) :
    ServerPath.samePrefix sameName device device = true := by
  cases device with
  | none => rfl
  | some device => exact hname device

theorem visits_self (hfold : ∀ name, folding.same name name = true)
    (cit : CacheEntry) : visits folding cit.path cit = true := by
  unfold visits ServerPath.equalNocase
  cases cit.path.data with
  | none => rfl
  | some data =>
      simp [samePrefix_refl hfold, segmentsEqual_refl hfold]

def UnsureAt (entries : List CacheEntry) (path : ServerPath) : Prop :=
  ∀ cit ∈ entries, cit.path = path → cit.listing.unsureFlags ≠ 0

variable {edit : DirectoryListing → DirectoryListing × ℤ}
  {entries : List CacheEntry} {path : ServerPath}

theorem editEntry_path (hedit : KeepsBooks edit)
    (isMatch : CacheEntry → Bool) (cit : CacheEntry) :
    (editEntry isMatch edit now cit).path = cit.path :=
  (editEntry_sameLinks hedit isMatch now [cit]).path cit
    (List.mem_singleton_self cit)

theorem unsureAt_visited (hfold : ∀ name, folding.same name name = true)
    (hedit : KeepsBooks edit)
    (hunsure : ∀ listing, (edit listing).1.unsureFlags ≠ 0) :
    UnsureAt (entries.map (editEntry (visits folding path) edit now))
      path := by
  intro cit hcit hpath
  obtain ⟨source, _, rfl⟩ := List.mem_map.mp hcit
  rw [editEntry_path hedit] at hpath
  have hvisit := visits_self hfold source
  rw [hpath] at hvisit
  unfold editEntry
  rw [if_pos hvisit]
  exact hunsure source.listing

theorem UnsureAt.visit (hbefore : UnsureAt entries path)
    (hedit : KeepsBooks edit)
    (hunsure : ∀ listing, (edit listing).1.unsureFlags ≠ 0)
    (isMatch : CacheEntry → Bool) :
    UnsureAt (entries.map (editEntry isMatch edit now)) path := by
  intro cit hcit hpath
  obtain ⟨source, hsource, rfl⟩ := List.mem_map.mp hcit
  rw [editEntry_path hedit] at hpath
  unfold editEntry
  by_cases hmatch : isMatch source = true
  · rw [if_pos hmatch]
    exact hunsure source.listing
  · rw [if_neg hmatch]
    exact hbefore source hsource hpath

/-! ## Clean listings after a rename -/

/-- Both listings, where they are cached and clean, show the rename. -/
def ReflectsRename (cache : DirectoryCache) (server : Server)
    (pathFrom : ServerPath) (fileFrom : WString) (pathTo : ServerPath)
    (fileTo : WString) : Prop :=
  (∀ listing, cache.cached server pathFrom = some listing →
    listing.unsureFlags ≠ 0 ∨ listing.entryOf fileFrom = none) ∧
  (∀ listing, cache.cached server pathTo = some listing →
    listing.unsureFlags ≠ 0 ∨ listing.entryOf fileTo ≠ none)

/-- The renamed file is unknown in a directory that is cached, and the
listing of the other directory is cached, clean and without the new name. -/
def MissesRename (cache : DirectoryCache) (server : Server)
    (pathFrom : ServerPath) (fileFrom : WString) (pathTo : ServerPath)
    (fileTo : WString) : Prop :=
  pathFrom ≠ pathTo ∧
    (∃ listing, cache.cached server pathFrom = some listing ∧
      listing.entryOf fileFrom = none) ∧
    ∃ listing, cache.cached server pathTo = some listing ∧
      listing.unsureFlags = 0 ∧ listing.entryOf fileTo = none

theorem reflectsRename_of_unsure {pathFrom pathTo : ServerPath}
    {fileFrom fileTo : WString}
    (hfrom : UnsureAt (cache.entriesOf server) pathFrom)
    (hto : UnsureAt (cache.entriesOf server) pathTo) :
    ReflectsRename cache server pathFrom fileFrom pathTo fileTo := by
  constructor
  · intro listing hcached
    obtain ⟨cit, hcit, hpath, rfl⟩ := mem_of_cached hcached
    exact Or.inl (hfrom cit hcit hpath)
  · intro listing hcached
    obtain ⟨cit, hcit, hpath, rfl⟩ := mem_of_cached hcached
    exact Or.inl (hto cit hcit hpath)

theorem unsureAt_nil : UnsureAt [] path := by
  intro cit hcit
  cases hcit

theorem removeFile_unsureAt (hcons : Consistent cache)
    (hfold : ∀ name, folding.same name name = true) (path : ServerPath)
    (filename : WString) :
    UnsureAt ((cache.removeFile folding server path filename now).1.entriesOf
      server) path := by
  rw [entriesOf_removeFile hcons]
  exact unsureAt_visited hfold (removeFromListing_keepsBooks folding filename)
    (removeFromListing_unsure filename)

theorem removeDir_unsureAt (hcons : Consistent cache)
    (hfold : ∀ name, folding.same name name = true) (path : ServerPath)
    (filename : WString) :
    UnsureAt ((cache.removeDir folding server path filename now).entriesOf
      server) path := by
  rw [entriesOf_removeDir hcons]
  exact unsureAt_visited hfold (removeFromListing_keepsBooks folding filename)
    (removeFromListing_unsure filename)

theorem updateFile_unsureAt (hcons : Consistent cache)
    (hfold : ∀ name, folding.same name name = true) (path : ServerPath)
    (filename : WString) (mayCreate : Bool) (type : Filetype) (size : ℤ)
    (ownerGroup : WString) :
    UnsureAt ((cache.updateFile folding server path filename mayCreate type
      size ownerGroup now).1.entriesOf server) path := by
  rw [entriesOf_updateFile hcons]
  exact unsureAt_visited hfold
    (updateListing_keepsBooks folding filename mayCreate type size ownerGroup)
    (updateListing_unsure filename mayCreate type size ownerGroup)

theorem updateFile_keeps_unsureAt (hcons : Consistent cache)
    {other : ServerPath} (hbefore : UnsureAt (cache.entriesOf server) path)
    (filename : WString) (mayCreate : Bool) (type : Filetype) (size : ℤ)
    (ownerGroup : WString) :
    UnsureAt ((cache.updateFile folding server other filename mayCreate type
      size ownerGroup now).1.entriesOf server) path := by
  rw [entriesOf_updateFile hcons]
  exact hbefore.visit
    (updateListing_keepsBooks folding filename mayCreate type size ownerGroup)
    (updateListing_unsure filename mayCreate type size ownerGroup) _

theorem renameWithin_unsureAt (hcons : Consistent cache)
    (hfold : ∀ name, folding.same name name = true) (sit cit : ℕ)
    (path : ServerPath) (fileFrom fileTo : WString) :
    UnsureAt ((cache.renameWithin folding server sit cit path fileFrom fileTo
      now).entriesOf server) path := by
  have hremoved := removeFile_keeps hcons folding server path fileTo now
  have hunsure := @removeFile_unsureAt _ server folding now hcons hfold path
    fileTo
  unfold renameWithin
  simp only
  cases hcit : (cache.removeFile folding server path fileTo now).1.entryAt
      sit cit with
  | none => exact hunsure
  | some entry =>
      obtain ⟨sit, hsit, rfl, hmem⟩ := mem_of_entryAt hcit
      simp only
      split
      · exact hunsure
      · split
        · have hfrom := removeDir_keeps hremoved.consistent folding server
            path fileFrom now
          have hto := removeDir_keeps hfrom.consistent folding server path
            fileTo now
          exact updateFile_unsureAt hto.consistent hfold path fileTo true .dir
            (-1) []
        · intro other hother hpath
          rcases mem_entriesOf_writeEntry hremoved.consistent hsit hmem
            hother with rfl | hold
          · exact renameListing_unsure fileFrom fileTo entry.listing
          · exact hunsure other hold hpath

theorem renameAcross_unsureAt (hcons : Consistent cache)
    (hfold : ∀ name, folding.same name name = true)
    {listing : DirectoryListing} {entry : DirectoryEntry}
    (pathFrom pathTo : ServerPath) {fileFrom : WString} (fileTo : WString)
    (hentry : listing.entryOf fileFrom = some entry) :
    let after := cache.renameAcross folding server listing pathFrom fileFrom
      pathTo fileTo now
    UnsureAt (after.entriesOf server) pathFrom ∧
      UnsureAt (after.entriesOf server) pathTo := by
  unfold renameAcross
  rw [hentry]
  simp only
  split
  · have hfrom := removeDir_keeps hcons folding server pathFrom fileFrom now
    have hunsure := @removeDir_unsureAt _ server folding now hcons hfold
      pathFrom fileFrom
    exact ⟨updateFile_keeps_unsureAt hfrom.consistent hunsure fileTo true
        .dir (-1) [],
      updateFile_unsureAt hfrom.consistent hfold pathTo fileTo true .dir
        (-1) []⟩
  · have hfrom := removeFile_keeps hcons folding server pathFrom fileFrom now
    have hunsure := @removeFile_unsureAt _ server folding now hcons hfold
      pathFrom fileFrom
    exact ⟨updateFile_keeps_unsureAt hfrom.consistent hunsure fileTo true
        .file (-1) [],
      updateFile_unsureAt hfrom.consistent hfold pathTo fileTo true .file
        (-1) []⟩

/-- The ways that `Rename` takes.  Before it acts it has at most changed the
order of last uses. -/
theorem rename_cases (hcons : Consistent cache) (folding : NameFolding)
    (server : Server) (pathFrom : ServerPath) (fileFrom : WString)
    (pathTo : ServerPath) (fileTo : WString) (now : ℤ) :
    let after :=
      cache.rename folding server pathFrom fileFrom pathTo fileTo now
    (cache.cached server pathFrom = none ∧ after.entriesOf server = []) ∨
      ∃ looked sit cit, Keeps cache looked ∧
        looked.serverList = cache.serverList ∧
        looked.getServerEntry server = some sit ∧ cit ∈ sit.cacheList ∧
        cit.path = pathFrom ∧
        (pathFrom = pathTo ∧
            after = looked.renameWithin folding server sit.id cit.id pathFrom
              fileFrom fileTo now ∨
          pathFrom ≠ pathTo ∧
            after = looked.renameAcross folding server cit.listing pathFrom
              fileFrom pathTo fileTo now) := by
  unfold rename
  cases hfound : cache.getServerEntry server with
  | none =>
      left
      have hnone := entriesOf_of_none hfound
      refine ⟨?_, hnone⟩
      unfold cached
      rw [hnone]
      rfl
  | some sit =>
      have hsit := mem_of_getServerEntry hfound
      rcases hlookup : cache.lookupEntry sit pathFrom true now with
        ⟨looked, found⟩
      cases found with
      | none =>
          obtain ⟨hkeeps, hlist, habsent⟩ :=
            lookupEntry_missed hcons hsit hlookup
          left
          simp only [hlookup]
          refine ⟨?_, entriesOf_invalidateServer hkeeps.consistent⟩
          cases hcached : cache.cached server pathFrom with
          | none => rfl
          | some listing =>
              obtain ⟨cit, hcit, hpath, _⟩ := mem_of_cached hcached
              rw [entriesOf_of_some hfound] at hcit
              exact absurd hpath (habsent cit hcit)
      | some pair =>
          obtain ⟨cit, outdated⟩ := pair
          obtain ⟨hkeeps, hlist, hsit', hcit, hpath⟩ :=
            lookupEntry_found hcons hsit hlookup
          have hfound' : looked.getServerEntry server = some sit := by
            unfold getServerEntry at hfound ⊢
            rw [hlist]
            exact hfound
          right
          refine ⟨looked, sit, cit, hkeeps, hlist, hfound', hcit, hpath, ?_⟩
          simp only [hlookup]
          by_cases hsame : pathFrom.same pathTo = true
          · rw [if_pos hsame]
            exact Or.inl ⟨(ServerPath.same_iff _ _).mp hsame, rfl⟩
          · rw [if_neg hsame]
            refine Or.inr ⟨?_, rfl⟩
            intro heq
            exact hsame ((ServerPath.same_iff _ _).mpr heq)

theorem cached_congr {following : DirectoryCache}
    (hlist : following.serverList = cache.serverList) :
    following.cached server path = cache.cached server path := by
  unfold cached
  rw [entriesOf_congr hlist]

/-- A rename is reflected unless it is one that is missed. -/
theorem rename_reflected_iff (hcons : Consistent cache)
    (hfold : ∀ name, folding.same name name = true)
    (pathFrom : ServerPath) (fileFrom : WString) (pathTo : ServerPath)
    (fileTo : WString) :
    ReflectsRename
        (cache.rename folding server pathFrom fileFrom pathTo fileTo now)
        server pathFrom fileFrom pathTo fileTo ↔
      ¬ MissesRename cache server pathFrom fileFrom pathTo fileTo := by
  rcases rename_cases hcons folding server pathFrom fileFrom pathTo fileTo
    now with ⟨huncached, hnil⟩ | ⟨looked, sit, cit, hkeeps, hlist, hfound,
      hcit, hpath, hway⟩
  · constructor
    · rintro _ ⟨_, ⟨listing, hcached, _⟩, _⟩
      rw [huncached] at hcached
      cases hcached
    · intro _
      apply reflectsRename_of_unsure
      · rw [hnil]
        exact unsureAt_nil
      · rw [hnil]
        exact unsureAt_nil
  · have hcached : cache.cached server pathFrom = some cit.listing := by
      have hmem : cit ∈ looked.entriesOf server := by
        rw [entriesOf_of_some hfound]
        exact hcit
      rw [← cached_congr hlist, ← hpath]
      exact cached_of_mem hkeeps.consistent hmem
    rcases hway with ⟨hsame, hafter⟩ | ⟨hdiffer, hafter⟩
    · rw [hafter]
      have hunsure := @renameWithin_unsureAt _ server folding now
        hkeeps.consistent hfold sit.id cit.id pathFrom fileFrom fileTo
      constructor
      · rintro _ ⟨hne, _⟩
        exact hne hsame
      · intro _
        apply reflectsRename_of_unsure hunsure
        rw [← hsame]
        exact hunsure
    · rw [hafter]
      cases hentry : cit.listing.entryOf fileFrom with
      | some entry =>
          obtain ⟨hfrom, hto⟩ := @renameAcross_unsureAt _ server folding now
            hkeeps.consistent hfold _ _ pathFrom pathTo _ fileTo hentry
          constructor
          · rintro _ ⟨_, ⟨listing, hother, hunknown⟩, _⟩
            rw [hcached] at hother
            rw [← Option.some.inj hother, hentry] at hunknown
            cases hunknown
          · intro _
            exact reflectsRename_of_unsure hfrom hto
      | none =>
          have hsame : looked.renameAcross folding server cit.listing pathFrom
              fileFrom pathTo fileTo now = looked := by
            unfold renameAcross
            rw [hentry]
          rw [hsame]
          unfold ReflectsRename
          rw [cached_congr hlist, cached_congr hlist, hcached]
          constructor
          · rintro ⟨_, hto⟩ ⟨_, _, listing, hother, hclean, hmissing⟩
            rcases hto listing hother with hunsure | hthere
            · exact hunsure hclean
            · exact hthere hmissing
          · intro hnot
            constructor
            · intro listing hother
              rw [← Option.some.inj hother]
              exact Or.inr hentry
            · intro listing hother
              by_contra hstale
              rw [not_or, not_not, not_not] at hstale
              exact hnot ⟨hdiffer, ⟨cit.listing, hcached, hentry⟩, listing,
                hother, hstale.1, hstale.2⟩

/-! ## Listings below a renamed directory -/

def covers (sameName : WString → WString → Bool) (path : ServerPath)
    (filename : WString) (child : ServerPath) : Bool :=
  match path.addSegment filename with
  | none => false
  | some absolutePath =>
      child.same absolutePath || absolutePath.isParentOf sameName child false

theorem segmentsBelow_mono {sameName : WString → WString → Bool}
    (hname : ∀ name, sameName name name = true) (allowEqual : Bool)
    {lefts rights : List WString}
    (hbelow : ServerPath.segmentsBelow ServerPath.exactName allowEqual lefts
      rights = true) :
    ServerPath.segmentsBelow sameName allowEqual lefts rights = true := by
  induction lefts generalizing rights with
  | nil =>
      cases rights with
      | nil => exact hbelow
      | cons right rights => cases hbelow
  | cons left lefts ih =>
      cases rights with
      | nil => rfl
      | cons right rights =>
          unfold ServerPath.segmentsBelow ServerPath.exactName at hbelow
          rw [Bool.and_eq_true, beq_iff_eq] at hbelow
          obtain ⟨rfl, hrest⟩ := hbelow
          unfold ServerPath.segmentsBelow
          rw [hname, ih hrest]
          rfl

theorem samePrefix_mono {sameName : WString → WString → Bool}
    (hname : ∀ name, sameName name name = true) {left right : Option WString}
    (hsame :
      ServerPath.samePrefix ServerPath.exactName left right = true) :
    ServerPath.samePrefix sameName left right = true := by
  cases left with
  | none =>
      cases right with
      | none => rfl
      | some right => cases hsame
  | some left =>
      cases right with
      | none => cases hsame
      | some right =>
          have heq : left = right := by
            simpa [ServerPath.samePrefix, ServerPath.exactName] using hsame
          rw [heq]
          exact hname right

theorem isSubdirOf_mono {sameName : WString → WString → Bool}
    (hname : ∀ name, sameName name name = true) {path parent : ServerPath}
    {allowEqual : Bool}
    (hbelow :
      path.isSubdirOf ServerPath.exactName parent allowEqual = true) :
    path.isSubdirOf sameName parent allowEqual = true := by
  unfold ServerPath.isSubdirOf at hbelow ⊢
  cases hpath : path.data with
  | none =>
      rw [hpath] at hbelow
      cases hbelow
  | some ld =>
      cases hparent : parent.data with
      | none =>
          rw [hpath, hparent] at hbelow
          cases hbelow
      | some rd =>
          rw [hpath, hparent] at hbelow
          simp only at hbelow ⊢
          split_ifs at hbelow with htype hhas hdevice hmvs
          have hdevice' : ¬ ((traits path.type).prefixmode ≠ 1 ∧
              (!ServerPath.samePrefix sameName ld.pathPrefix
                rd.pathPrefix) = true) := by
            rintro ⟨hmode, hother⟩
            apply hdevice
            refine ⟨hmode, ?_⟩
            by_contra hsame
            rw [samePrefix_mono hname (by simpa using hsame)] at hother
            cases hother
          rw [if_neg htype, if_neg hhas, if_neg hdevice', if_neg hmvs]
          exact segmentsBelow_mono hname allowEqual hbelow

theorem covers_mono (hfold : ∀ name, folding.same name name = true)
    {path child : ServerPath} {filename : WString}
    (hcovers : covers ServerPath.exactName path filename child = true) :
    covers folding.same path filename child = true := by
  unfold covers at hcovers ⊢
  cases hadd : path.addSegment filename with
  | none =>
      rw [hadd] at hcovers
      cases hcovers
  | some absolutePath =>
      rw [hadd] at hcovers
      simp only [Bool.or_eq_true] at hcovers ⊢
      rcases hcovers with hsame | hbelow
      · exact Or.inl hsame
      · exact Or.inr (isSubdirOf_mono hfold hbelow)

theorem map_path_visited (hedit : KeepsBooks edit)
    (isMatch : CacheEntry → Bool) (entries : List CacheEntry) :
    (entries.map (editEntry isMatch edit now)).map CacheEntry.path =
      entries.map CacheEntry.path := by
  rw [List.map_map]
  apply List.map_congr_left
  intro cit _
  exact editEntry_path hedit isMatch cit

theorem cachedPaths_removeFile
    (hcons : Consistent cache) (path : ServerPath) (filename : WString) :
    (cache.removeFile folding server path filename now).1.cachedPaths server =
      cache.cachedPaths server := by
  unfold cachedPaths
  rw [entriesOf_removeFile hcons]
  exact map_path_visited (removeFromListing_keepsBooks folding filename) _ _

theorem cachedPaths_updateFile
    (hcons : Consistent cache) (path : ServerPath) (filename : WString)
    (mayCreate : Bool) (type : Filetype) (size : ℤ) (ownerGroup : WString) :
    (cache.updateFile folding server path filename mayCreate type size
        ownerGroup now).1.cachedPaths server =
      cache.cachedPaths server := by
  unfold cachedPaths
  rw [entriesOf_updateFile hcons]
  exact map_path_visited
    (updateListing_keepsBooks folding filename mayCreate type size ownerGroup)
    _ _

theorem cachedPaths_removeDir
    (hcons : Consistent cache) (path : ServerPath) (filename : WString) :
    (cache.removeDir folding server path filename now).cachedPaths server =
      (cache.cachedPaths server).filter fun child =>
        !covers folding.same path filename child := by
  unfold cachedPaths
  rw [entriesOf_removeDir hcons,
    map_path_visited (removeFromListing_keepsBooks folding filename),
    List.filter_map]
  rfl

theorem cachedPaths_writeEntry
    (hcons : Consistent cache) (hsit : sit ∈ cache.serverList)
    (hcit : cit ∈ sit.cacheList) {listing : DirectoryListing}
    (hpath : listing.path = cit.path) :
    (cache.writeEntry sit.id
        { cit with listing := listing }).cachedPaths server =
      cache.cachedPaths server := by
  have hids := (hcons.linked sit hsit).ids
  rw [writeEntry_eq hcons hsit]
  unfold cachedPaths entriesOf
  rw [getServerEntry_writeList]
  cases hfound : cache.getServerEntry server with
  | none => rfl
  | some entry =>
      rw [Option.map_some]
      by_cases hid : entry.id = sit.id
      · have hentry := hcons.ids.eq_of_key (mem_of_getServerEntry hfound)
          hsit hid
        rw [if_pos hid, hentry]
        exact map_congr_key
          (@sameLinks_write cit sit.cacheList { cit with listing := listing }
            hids hcit rfl rfl hpath).path
      · rw [if_neg hid]

theorem cachedPaths_congr {following : DirectoryCache}
    (hlist : following.serverList = cache.serverList) :
    following.cachedPaths server = cache.cachedPaths server := by
  unfold cachedPaths
  rw [entriesOf_congr hlist]

/-! ## The entry that is renamed -/

theorem find_eraseIdx {Element : Type} {isWanted : Element → Bool}
    {elements : List Element} {index : ℕ} (hindex : index < elements.length)
    (hother : isWanted elements[index] = false) :
    (elements.eraseIdx index).find? isWanted = elements.find? isWanted := by
  induction elements generalizing index with
  | nil => rfl
  | cons first elements ih =>
      cases index with
      | zero =>
          have hfirst : isWanted first = false := hother
          rw [List.eraseIdx_zero, List.tail_cons, List.find?_cons_of_neg]
          rw [hfirst]
          exact Bool.false_ne_true
      | succ index =>
          rw [List.eraseIdx_cons_succ]
          have hrest := ih (Nat.lt_of_succ_lt_succ hindex) hother
          cases hfirst : isWanted first with
          | true =>
              rw [List.find?_cons_of_pos hfirst, List.find?_cons_of_pos hfirst]
          | false =>
              have hnot : ¬ isWanted first = true := by
                rw [hfirst]
                exact Bool.false_ne_true
              rw [List.find?_cons_of_neg hnot, List.find?_cons_of_neg hnot,
                hrest]

theorem entryOf_removeFromListing
    {filename name : WString} (hne : name ≠ filename)
    (listing : DirectoryListing) :
    ((removeFromListing folding filename listing).1.entryOf name).map
        DirectoryEntry.isDir =
      (listing.entryOf name).map DirectoryEntry.isDir := by
  unfold removeFromListing
  cases hindex : listing.indexOf filename with
  | some index =>
      have hfound := List.findIdx?_eq_some_iff_getElem.mp hindex
      obtain ⟨hlt, hname, _⟩ := hfound
      simp only
      unfold DirectoryListing.removeEntry DirectoryListing.entryOf
      rw [List.getElem?_eq_getElem hlt]
      simp only
      rw [find_eraseIdx hlt]
      rw [beq_iff_eq] at hname
      rw [hname]
      exact beq_false_of_ne hne.symm
  | none =>
      show ((markEntries _ listing.entries).find? _).map _ = _
      unfold markEntries DirectoryListing.entryOf
      have hkept : ∀ entry : DirectoryEntry,
          (if folding.same filename entry.name then entry.markUnsure
            else entry).name = entry.name := by
        intro entry
        split_ifs
        · rfl
        · rfl
      have hdir : ∀ entry : DirectoryEntry,
          (if folding.same filename entry.name then entry.markUnsure
            else entry).isDir = entry.isDir := by
        intro entry
        split_ifs
        · exact DirectoryEntry.markUnsure_isDir entry
        · rfl
      rw [List.find?_map, Option.map_map]
      simp only [Function.comp_def, hkept, hdir]

theorem entryAt_removeFile
    (hcons : Consistent cache) (hfold : ∀ name, folding.same name name = true)
    (hfound : cache.getServerEntry server = some sit)
    (hcit : cit ∈ sit.cacheList) (filename : WString) :
    (cache.removeFile folding server cit.path filename now).1.entryAt sit.id
        cit.id =
      some { cit with
        listing := (removeFromListing folding filename cit.listing).1
        modificationTime := now } := by
  have hsit := mem_of_getServerEntry hfound
  have hedit := removeFromListing_keepsBooks folding filename
  have hmatch := visits_self hfold cit
  have hkeeps := removeFile_keeps hcons folding server cit.path filename now
  unfold removeFile at hkeeps ⊢
  rw [hfound] at hkeeps ⊢
  simp only at hkeeps ⊢
  have hmem := @visit_server _ _ (visits folding cit.path) _ hcons hsit hedit
    now
  have hserver := @Unique.find _ _ _ _ _ hkeeps.consistent.ids hmem
    (fun other => decide (other.id = sit.id)) (by
      intro other _
      exact decide_eq_true_iff)
  have hids : Unique CacheEntry.id
      (sit.cacheList.map (editEntry (visits folding cit.path)
        (removeFromListing folding filename) now)) :=
    (hcons.linked sit hsit).ids.map
      (editEntry_sameLinks hedit _ now sit.cacheList).id
  have hentry := @Unique.find _ _ _ _ _ hids
    (List.mem_map_of_mem hcit) (fun other => decide (other.id = cit.id)) (by
      intro other _
      rw [decide_eq_true_eq,
        (editEntry_sameLinks hedit _ now sit.cacheList).id cit hcit])
  unfold entryAt
  have hsame : (cache.visit sit (fun entry =>
      cit.path.equalNocase folding.same entry.path)
        (removeFromListing folding filename) now).serverList.find?
          (fun other => decide (other.id = sit.id)) = some _ := hserver
  rw [hsame]
  simp only
  rw [hentry]
  unfold editEntry
  rw [if_pos hmatch]

/-! ## What is gone after a rename -/

/-- Nothing is cached at or below the old and the new name. -/
def ForgetsRenamed (cache : DirectoryCache) (server : Server)
    (pathFrom : ServerPath) (fileFrom : WString) (pathTo : ServerPath)
    (fileTo : WString) : Prop :=
  ∀ path ∈ cache.cachedPaths server,
    covers ServerPath.exactName pathFrom fileFrom path = false ∧
      covers ServerPath.exactName pathTo fileTo path = false

def ListsDirectory (listing : DirectoryListing) (name : WString) : Prop :=
  (listing.entryOf name).map DirectoryEntry.isDir = some true

/-- What is cached at or below either name is erased as part of the old
directory, or both names are in the same directory. -/
def ErasesRenamed (folding : NameFolding) (cache : DirectoryCache)
    (server : Server) (listing : DirectoryListing) (pathFrom : ServerPath)
    (fileFrom : WString) (pathTo : ServerPath) (fileTo : WString) : Prop :=
  ∀ path ∈ cache.cachedPaths server,
    covers ServerPath.exactName pathFrom fileFrom path = true ∨
      covers ServerPath.exactName pathTo fileTo path = true →
    ListsDirectory listing fileFrom ∧
      (pathFrom = pathTo ∨ covers folding.same pathFrom fileFrom path = true)

theorem cachedPaths_renameWithin
    (hcons : Consistent cache) (hfold : ∀ name, folding.same name name = true)
    (hfound : cache.getServerEntry server = some sit)
    (hcit : cit ∈ sit.cacheList) {fileFrom fileTo : WString}
    (hne : fileFrom ≠ fileTo) (child : ServerPath) :
    child ∈ (cache.renameWithin folding server sit.id cit.id cit.path fileFrom
        fileTo now).cachedPaths server ↔
      child ∈ cache.cachedPaths server ∧
        (ListsDirectory cit.listing fileFrom →
          covers folding.same cit.path fileFrom child = false ∧
            covers folding.same cit.path fileTo child = false) := by
  have hremoved :=
    removeFile_keeps hcons folding server cit.path fileTo now
  have hat := @entryAt_removeFile _ _ _ server folding now hcons hfold hfound
    hcit fileTo
  have hpaths := @cachedPaths_removeFile _ server folding now hcons cit.path
    fileTo
  have hentry := @entryOf_removeFromListing folding _ _ hne cit.listing
  obtain ⟨entry, hsit', hid, hmem⟩ := mem_of_entryAt hat
  unfold renameWithin ListsDirectory
  simp only
  rw [hat, ← hentry]
  simp only
  cases (removeFromListing folding fileTo cit.listing).1.entryOf fileFrom with
  | none =>
      simp only
      rw [hpaths]
      constructor
      · intro hchild
        exact ⟨hchild, fun hdir => by cases hdir⟩
      · exact And.left
  | some renamed =>
      simp only
      by_cases hdir : renamed.isDir = true
      · have hfrom := removeDir_keeps hremoved.consistent folding server
          cit.path fileFrom now
        have hto := removeDir_keeps hfrom.consistent folding server cit.path
          fileTo now
        rw [if_pos hdir, cachedPaths_updateFile hto.consistent,
          cachedPaths_removeDir hfrom.consistent,
          cachedPaths_removeDir hremoved.consistent, hpaths,
          List.mem_filter, List.mem_filter]
        simp [hdir, and_assoc]
      · obtain ⟨hpath, _⟩ := renameListing_keeps fileFrom fileTo
          (removeFromListing folding fileTo cit.listing).1
        have hwritten := @cachedPaths_writeEntry _ entry _ server
          hremoved.consistent hsit' hmem _ hpath
        rw [if_neg hdir]
        rw [hid] at hwritten
        simp only at hwritten
        rw [hwritten, hpaths]
        simp [hdir]

theorem cachedPaths_renameAcross
    (hcons : Consistent cache) (listing : DirectoryListing)
    (pathFrom : ServerPath) (fileFrom : WString) (pathTo : ServerPath)
    (fileTo : WString) (child : ServerPath) :
    child ∈ (cache.renameAcross folding server listing pathFrom fileFrom
        pathTo fileTo now).cachedPaths server ↔
      child ∈ cache.cachedPaths server ∧
        (ListsDirectory listing fileFrom →
          covers folding.same pathFrom fileFrom child = false) := by
  unfold renameAcross ListsDirectory
  cases listing.entryOf fileFrom with
  | none =>
      simp only
      constructor
      · intro hchild
        exact ⟨hchild, fun hdir => by cases hdir⟩
      · exact And.left
  | some entry =>
      simp only
      by_cases hdir : entry.isDir = true
      · have hfrom := removeDir_keeps hcons folding server pathFrom fileFrom
          now
        rw [if_pos hdir, cachedPaths_updateFile hfrom.consistent,
          cachedPaths_removeDir hcons, List.mem_filter]
        simp [hdir]
      · have hfrom := removeFile_keeps hcons folding server pathFrom fileFrom
          now
        rw [if_neg hdir, cachedPaths_updateFile hfrom.consistent,
          cachedPaths_removeFile hcons]
        simp [hdir]

/-- What is below the names is forgotten exactly if it is erased. -/
theorem rename_forgets_iff
    (hcons : Consistent cache) (hfold : ∀ name, folding.same name name = true)
    {pathFrom pathTo : ServerPath} {fileFrom fileTo : WString}
    {listing : DirectoryListing}
    (hcached : cache.cached server pathFrom = some listing)
    (hdiffer : (pathFrom, fileFrom) ≠ (pathTo, fileTo)) :
    ForgetsRenamed
        (cache.rename folding server pathFrom fileFrom pathTo fileTo now)
        server pathFrom fileFrom pathTo fileTo ↔
      ErasesRenamed folding cache server listing pathFrom fileFrom pathTo
        fileTo := by
  rcases rename_cases hcons folding server pathFrom fileFrom pathTo fileTo
    now with ⟨huncached, _⟩ | ⟨looked, sit, cit, hkeeps, hlist, hfound, hcit,
      rfl, hway⟩
  · rw [hcached] at huncached
    cases huncached
  · have hlisting : cit.listing = listing := by
      have hmem : cit ∈ looked.entriesOf server := by
        rw [entriesOf_of_some hfound]
        exact hcit
      have hentry := cached_of_mem hkeeps.consistent hmem
      rw [cached_congr hlist, hcached] at hentry
      exact (Option.some.inj hentry).symm
    subst hlisting
    have hpaths := @cachedPaths_congr _ server _ hlist
    have hdecide : ∀ value : Bool, value = false ↔ ¬ value = true := by
      simp
    unfold ForgetsRenamed ErasesRenamed
    rcases hway with ⟨rfl, hafter⟩ | ⟨hne, hafter⟩
    · have hname : fileFrom ≠ fileTo := by
        rintro rfl
        exact hdiffer rfl
      rw [hafter]
      simp only [cachedPaths_renameWithin hkeeps.consistent hfold hfound hcit
        hname, hpaths]
      constructor
      · intro hgone path hpath hcovered
        refine ⟨?_, Or.inl trivial⟩
        by_contra hfile
        obtain ⟨hfrom, hto⟩ := hgone path ⟨hpath, fun hdir =>
          absurd hdir hfile⟩
        rcases hcovered with hcovered | hcovered
        · rw [hfrom] at hcovered
          cases hcovered
        · rw [hto] at hcovered
          cases hcovered
      · rintro herased path ⟨hpath, hleft⟩
        constructor
        · rw [hdecide]
          intro hcovered
          obtain ⟨hdir, _⟩ := herased path hpath (Or.inl hcovered)
          have hfrom := (hleft hdir).1
          rw [covers_mono hfold hcovered] at hfrom
          cases hfrom
        · rw [hdecide]
          intro hcovered
          obtain ⟨hdir, _⟩ := herased path hpath (Or.inr hcovered)
          have hto := (hleft hdir).2
          rw [covers_mono hfold hcovered] at hto
          cases hto
    · rw [hafter]
      simp only [cachedPaths_renameAcross hkeeps.consistent, hpaths]
      constructor
      · intro hgone path hpath hcovered
        by_contra hkept
        have hleft : ListsDirectory cit.listing fileFrom →
            covers folding.same cit.path fileFrom path = false := by
          intro hdir
          rw [hdecide]
          intro hold
          exact hkept ⟨hdir, Or.inr hold⟩
        obtain ⟨hfrom, hto⟩ := hgone path ⟨hpath, hleft⟩
        rcases hcovered with hcovered | hcovered
        · rw [hfrom] at hcovered
          cases hcovered
        · rw [hto] at hcovered
          cases hcovered
      · rintro herased path ⟨hpath, hleft⟩
        have hnone : ∀ hcovered :
            covers ServerPath.exactName cit.path fileFrom path = true ∨
              covers ServerPath.exactName pathTo fileTo path = true,
            False := by
          intro hcovered
          obtain ⟨hdir, heq | hold⟩ := herased path hpath hcovered
          · exact hne heq
          · rw [hleft hdir] at hold
            cases hold
        constructor
        · rw [hdecide]
          exact fun hcovered => hnone (Or.inl hcovered)
        · rw [hdecide]
          exact fun hcovered => hnone (Or.inr hcovered)

end DirectoryCache

open DirectoryCache

variable {folding : NameFolding} {inputs : List (CacheOperation × ℤ)}
  {outputs : List Empty} {cache : DirectoryCache}

/-- After a rename clean listings show it, unless the old name was not in a
listing and the listing of another directory, which is clean, lacks the new
name. -/
theorem rename_reflected
    (hreach : (machine folding).Reaches inputs outputs cache)
    (hfold : ∀ name, folding.same name name = true) (server : Server)
    (pathFrom : ServerPath) (fileFrom : WString) (pathTo : ServerPath)
    (fileTo : WString) (now : ℤ) :
    ReflectsRename
        (cache.rename folding server pathFrom fileFrom pathTo fileTo now)
        server pathFrom fileFrom pathTo fileTo ↔
      ¬ MissesRename cache server pathFrom fileFrom pathTo fileTo :=
  rename_reflected_iff (reaches_consistent hreach) hfold pathFrom fileFrom
    pathTo fileTo

def rootedPath (segments : List WString) : ServerPath :=
  ⟨some ⟨segments, none⟩, .unix⟩

/-- Listings of two directories, each with a file. -/
def twoDirectories : List (CacheOperation × ℤ) :=
  [(.store (plainListing ['a'] ['x']) plainServer, 0),
    (.store (plainListing ['b'] ['y']) plainServer, 1)]

theorem plainFolding_refl (name : WString) :
    plainFolding.same name name = true :=
  beq_self_eq_true name

/-- A file is moved from one cached directory to the other. -/
theorem rename_reflected_moved :
    let cache := performed plainFolding twoDirectories
    let renamed := cache.rename plainFolding plainServer
      (rootedPath [['a']]) ['x'] (rootedPath [['b']]) ['w'] 2
    cache.cached plainServer (rootedPath [['a']]) =
        some (plainListing ['a'] ['x']) ∧
      cache.cached plainServer (rootedPath [['b']]) =
        some (plainListing ['b'] ['y']) ∧
      (renamed.cached plainServer (rootedPath [['b']])).any
        (fun listing => listing.entryOf ['w'] ≠ none) = true ∧
      ReflectsRename renamed plainServer (rootedPath [['a']]) ['x']
        (rootedPath [['b']]) ['w'] := by
  intro cache renamed
  have hfrom : cache.cached plainServer (rootedPath [['a']]) =
      some (plainListing ['a'] ['x']) := by decide
  refine ⟨hfrom, by decide, by decide, ?_⟩
  apply (rename_reflected (reaches_performed plainFolding twoDirectories)
    plainFolding_refl plainServer _ _ _ _ 2).mpr
  rintro ⟨_, ⟨listing, hcached, hmissing⟩, _⟩
  rw [Option.some.inj (hcached.symm.trans hfrom)] at hmissing
  revert hmissing
  decide

/-- The file to be renamed is not known, and both listings stay as they are. -/
theorem rename_unreflected :
    ∃ cache, (machine plainFolding).Reaches twoDirectories [] cache ∧
      ¬ ReflectsRename
        (cache.rename plainFolding plainServer (rootedPath [['a']]) ['z']
          (rootedPath [['b']]) ['w'] 2)
        plainServer (rootedPath [['a']]) ['z'] (rootedPath [['b']])
        ['w'] := by
  refine ⟨_, reaches_performed plainFolding twoDirectories, ?_⟩
  rintro ⟨_, hto⟩
  have hcached : ((performed plainFolding twoDirectories).rename plainFolding
      plainServer (rootedPath [['a']]) ['z'] (rootedPath [['b']]) ['w']
        2).cached plainServer (rootedPath [['b']]) =
      some (plainListing ['b'] ['y']) := by decide
  rcases hto _ hcached with hunsure | hthere
  · exact hunsure rfl
  · exact hthere rfl

/-- After a rename nothing at or below the two names is cached, exactly if
what is cached there is erased as part of the old directory or both names are
in the same directory. -/
theorem renamed_directory_forgotten
    (hreach : (machine folding).Reaches inputs outputs cache)
    (hfold : ∀ name, folding.same name name = true) {server : Server}
    {pathFrom pathTo : ServerPath} {fileFrom fileTo : WString}
    {listing : DirectoryListing}
    (hcached : cache.cached server pathFrom = some listing)
    (hdiffer : (pathFrom, fileFrom) ≠ (pathTo, fileTo)) (now : ℤ) :
    ForgetsRenamed
        (cache.rename folding server pathFrom fileFrom pathTo fileTo now)
        server pathFrom fileFrom pathTo fileTo ↔
      ErasesRenamed folding cache server listing pathFrom fileFrom pathTo
        fileTo :=
  rename_forgets_iff (reaches_consistent hreach) hfold hcached hdiffer

def listingOf (segments : List WString) (entry : DirectoryEntry) :
    DirectoryListing :=
  ⟨rootedPath segments, 0, [entry], none, none, 0⟩

def plainDirectory (name : WString) : DirectoryEntry :=
  { plainEntry name with flags := DirectoryEntry.flagDir }

/-- A directory that has a directory, and a listing of the directory that the
latter is renamed to. -/
def staleTarget : List (CacheOperation × ℤ) :=
  [(.store (listingOf [['a']] (plainDirectory ['d'])) plainServer, 0),
    (.store (listingOf [['b'], ['e']] (plainEntry ['y'])) plainServer, 1)]

/-- A directory with listings of what is in it and of the other name. -/
def filledDirectory : List (CacheOperation × ℤ) :=
  [(.store (listingOf [['a']] (plainDirectory ['d'])) plainServer, 0),
    (.store (listingOf [['a'], ['d'], ['s']] (plainEntry ['y']))
      plainServer, 1),
    (.store (listingOf [['a'], ['e']] (plainEntry ['z'])) plainServer, 2)]

/-- A rename within the directory purges the listings below both names. -/
theorem renamed_directory_forgotten_filled :
    let cache := performed plainFolding filledDirectory
    let renamed := cache.rename plainFolding plainServer
      (rootedPath [['a']]) ['d'] (rootedPath [['a']]) ['e'] 3
    (cache.cachedPaths plainServer).length = 3 ∧
      renamed.cachedPaths plainServer = [rootedPath [['a']]] ∧
      ForgetsRenamed renamed plainServer (rootedPath [['a']]) ['d']
        (rootedPath [['a']]) ['e'] := by
  intro cache renamed
  have hcached : cache.cached plainServer (rootedPath [['a']]) =
      some (listingOf [['a']] (plainDirectory ['d'])) := by decide
  refine ⟨by decide, by decide, ?_⟩
  apply (renamed_directory_forgotten
    (reaches_performed plainFolding filledDirectory) plainFolding_refl hcached
    (by decide) 3).mpr
  intro path _ _
  exact ⟨rfl, Or.inl rfl⟩

/-- What was cached below the new name stays there. -/
theorem renamed_directory_remembered :
    ∃ cache, (machine plainFolding).Reaches staleTarget [] cache ∧
      cache.cached plainServer (rootedPath [['a']]) =
        some (listingOf [['a']] (plainDirectory ['d'])) ∧
      ¬ ForgetsRenamed
        (cache.rename plainFolding plainServer (rootedPath [['a']]) ['d']
          (rootedPath [['b']]) ['e'] 2)
        plainServer (rootedPath [['a']]) ['d'] (rootedPath [['b']])
        ['e'] := by
  refine ⟨_, reaches_performed plainFolding staleTarget, by decide, ?_⟩
  intro hforgotten
  have hstale : rootedPath [['b'], ['e']] ∈
      ((performed plainFolding staleTarget).rename plainFolding plainServer
        (rootedPath [['a']]) ['d'] (rootedPath [['b']]) ['e'] 2).cachedPaths
          plainServer := by decide
  obtain ⟨_, hto⟩ := hforgotten _ hstale
  revert hto
  decide

end TabFtp
