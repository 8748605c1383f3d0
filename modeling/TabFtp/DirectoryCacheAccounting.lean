import TabFtp.DirectoryCacheLinks

/-!
# Accounting in the directory cache

The number of files, the list of last uses and the sets of listings describe
the same cache.  What ties them together is kept by every operation; the
number of files is kept by every operation except for storing a listing whose
path the set takes for another one.
-/

namespace TabFtp

open UniqueKeys

namespace DirectoryCache

def positions (serverList : List ServerEntry) : List (ℕ × ℕ × Option ℕ) :=
  serverList.flatMap fun sit =>
    sit.cacheList.map fun cit => (sit.id, cit.id, cit.lruIt)

def LruNode.position (node : LruNode) : ℕ × ℕ × Option ℕ :=
  (node.server, node.entry, some node.id)

/-- The containers describe the same cache. -/
structure WellAccounted (cache : DirectoryCache) : Prop where
  count : cache.totalFileCount = allFiles cache.serverList
  nodes : (cache.leastRecentlyUsedList.nodes.map LruNode.position).Perm
    (positions cache.serverList)
  distinctNodes : (cache.leastRecentlyUsedList.nodes.map LruNode.id).Nodup
  distinctEntries :
    ((positions cache.serverList).map fun position =>
      (position.1, position.2.1)).Nodup
  servers : cache.serverList.Pairwise fun first second =>
    first.server.sameContent second.server = false
  paths : ∀ sit ∈ cache.serverList,
    sit.cacheList.Pairwise fun first second => first.path ≠ second.path

variable {cache : DirectoryCache} {sit : ServerEntry} {cit : CacheEntry}

/-! ## Changes of listings -/

theorem markUntil_length (folding : NameFolding) (filename : WString)
    (entries : List DirectoryEntry) :
    (markUntil folding filename entries).1.length = entries.length := by
  induction entries with
  | nil => rfl
  | cons entry entries ih =>
      unfold markUntil
      split_ifs
      · rfl
      · simp [ih]
      · simp [ih]

theorem updateListing_keepsBooks (folding : NameFolding) (filename : WString)
    (mayCreate : Bool) (type : Filetype) (size : ℤ) (ownerGroup : WString) :
    KeepsBooks
      (updateListing folding filename mayCreate type size ownerGroup) := by
  constructor
  · intro listing
    unfold updateListing
    simp only
    split
    · rfl
    · split_ifs <;> rfl
  · intro listing
    have hlength := markUntil_length folding filename listing.entries
    unfold updateListing DirectoryListing.size
    simp only
    split
    · simp [hlength]
    · split_ifs
      · simp [DirectoryListing.append, hlength]
      · simp [hlength]

theorem indexOf_lt {listing : DirectoryListing} {name : WString} {index : ℕ}
    (hindex : listing.indexOf name = some index) : index < listing.size :=
  (List.findIdx?_eq_some_iff_getElem.mp hindex).1

theorem removeFromListing_keepsBooks
    (folding : NameFolding) (filename : WString) :
    KeepsBooks (removeFromListing folding filename) := by
  constructor
  · intro listing
    unfold removeFromListing
    cases listing.indexOf filename with
    | none => rfl
    | some index => exact DirectoryListing.removeEntry_path listing index
  · intro listing
    unfold removeFromListing
    cases hindex : listing.indexOf filename with
    | none =>
        simp [DirectoryListing.size, DirectoryListing.addFlag, markEntries]
    | some index =>
        have hsize := DirectoryListing.removeEntry_size (indexOf_lt hindex)
        simp only
        omega

theorem invalidateListing_keepsBooks (isName : WString → Bool) :
    KeepsBooks (invalidateListing isName) := by
  constructor
  · intro listing
    rfl
  · intro listing
    simp [invalidateListing, DirectoryListing.size, DirectoryListing.addFlag,
      markEntries]

theorem updateFile_keeps
    (hcons : Consistent cache) (folding : NameFolding) (server : Server)
    (path : ServerPath) (filename : WString) (mayCreate : Bool)
    (type : Filetype) (size : ℤ) (ownerGroup : WString) (now : ℤ) :
    Keeps cache (cache.updateFile folding server path filename mayCreate type
      size ownerGroup now).1 := by
  unfold updateFile
  cases hfound : cache.getServerEntry server with
  | none => exact Keeps.refl hcons
  | some sit =>
      exact visit_keeps hcons (mem_of_getServerEntry hfound)
        (updateListing_keepsBooks folding filename mayCreate type size
          ownerGroup) now

theorem removeFile_keeps
    (hcons : Consistent cache) (folding : NameFolding) (server : Server)
    (path : ServerPath) (filename : WString) (now : ℤ) :
    Keeps cache (cache.removeFile folding server path filename now).1 := by
  unfold removeFile
  cases hfound : cache.getServerEntry server with
  | none => exact Keeps.refl hcons
  | some sit =>
      exact visit_keeps hcons (mem_of_getServerEntry hfound)
        (removeFromListing_keepsBooks folding filename) now

theorem Consistent.changeEntries
    (hcons : Consistent cache) (hsit : sit ∈ cache.serverList)
    {change : CacheEntry → CacheEntry}
    (hsame : SameLinks change sit.cacheList)
    (hsize : ∀ cit ∈ sit.cacheList,
      (change cit).listing.size = cit.listing.size) :
    Keeps cache (cache.writeList sit.id (sit.cacheList.map change)) := by
  have hcount : fileCount (sit.cacheList.map change) =
      fileCount sit.cacheList + 0 := by
    unfold fileCount
    rw [List.map_map, add_zero]
    congr 1
    apply List.map_congr_left
    intro cit hcit
    simp only [Function.comp_apply]
    rw [hsize cit hcit]
  have hkeeps := hcons.mapEntries hsit rfl (List.Perm.refl _) hsame hcount
  rw [add_zero] at hkeeps
  exact hkeeps

theorem writeListing_keeps
    (hcons : Consistent cache) (hsit : sit ∈ cache.serverList)
    (hcit : cit ∈ sit.cacheList) {listing : DirectoryListing}
    (hpath : listing.path = cit.path)
    (hsize : listing.size = cit.listing.size) :
    Keeps cache
      (cache.writeEntry sit.id { cit with listing := listing }) := by
  have hlinked := hcons.linked sit hsit
  have hsame := @sameLinks_write cit sit.cacheList
    { cit with listing := listing } hlinked.ids hcit rfl rfl hpath
  rw [writeEntry_eq hcons hsit]
  apply hcons.changeEntries hsit hsame
  intro other hother
  by_cases hid : other.id = cit.id
  · rw [if_pos hid, hlinked.ids.eq_of_key hother hcit hid]
    exact hsize
  · rw [if_neg hid]

theorem visit_server
    {isMatch : CacheEntry → Bool}
    {edit : DirectoryListing → DirectoryListing × ℤ}
    (hcons : Consistent cache) (hsit : sit ∈ cache.serverList)
    (hedit : KeepsBooks edit) (now : ℤ) :
    { sit with cacheList := sit.cacheList.map (editEntry isMatch edit now) } ∈
      (cache.visit sit isMatch edit now).serverList := by
  rw [visit_serverList hcons hsit hedit now]
  exact (mem_write_iff hcons.ids hsit).mpr (Or.inl rfl)

theorem invalidateEntries_sameLinks (isBelow : CacheEntry → Bool) (now : ℤ)
    (cacheList : List CacheEntry) :
    SameLinks (fun cit =>
      if isBelow cit then
        { cit with
          listing := cit.listing.addFlag DirectoryListing.unsureUnknown
          modificationTime := now }
      else cit) cacheList := by
  constructor
  all_goals
    intro cit _
    cases isBelow cit
    · rfl
    · rfl

theorem invalidateFile_keeps
    (hcons : Consistent cache) (folding : NameFolding) (server : Server)
    (path : ServerPath) (filename : WString) (now : ℤ) :
    Keeps cache
      (cache.invalidateFile folding server path filename now).1 := by
  unfold invalidateFile
  cases hfound : cache.getServerEntry server with
  | none => exact Keeps.refl hcons
  | some sit =>
      have hvisit : ∀ isMatch isName, Keeps cache
          (cache.visit sit isMatch (invalidateListing isName) now) := by
        intro isMatch isName
        exact visit_keeps hcons (mem_of_getServerEntry hfound)
          (invalidateListing_keepsBooks isName) now
      simp only
      cases server.protocol.caseSensitivity == .yes
      all_goals
        simp only [if_true, if_false, Bool.false_eq_true]
        split
        · split
          · exact hvisit _ _
          · rename_i visited hvisited
            have hmem := List.mem_of_find?_eq_some hvisited
            apply (hvisit _ _).trans
            apply (hvisit _ _).consistent.changeEntries hmem
            · exact invalidateEntries_sameLinks _ now visited.cacheList
            · intro cit _
              split
              · rfl
              · rfl
        · exact hvisit _ _

/-! ## Every operation -/

theorem lookup_keeps
    (hcons : Consistent cache) (server : Server) (path : ServerPath)
    (allowUnsureEntries : Bool) (now : ℤ) :
    Keeps cache (cache.lookup server path allowUnsureEntries now).1 := by
  unfold lookup
  cases hfound : cache.getServerEntry server with
  | none => exact Keeps.refl hcons
  | some sit =>
      exact (lookupEntry_reordered hcons (mem_of_getServerEntry hfound) path
        allowUnsureEntries now).keeps hcons

theorem doesExist_keeps
    (hcons : Consistent cache) (server : Server) (path : ServerPath)
    (now : ℤ) : Keeps cache (cache.doesExist server path now).1 := by
  unfold doesExist
  cases hfound : cache.getServerEntry server with
  | none => exact Keeps.refl hcons
  | some sit =>
      exact (lookupEntry_reordered hcons (mem_of_getServerEntry hfound) path
        true now).keeps hcons

theorem getChangeTime_keeps
    (hcons : Consistent cache) (server : Server) (path : ServerPath)
    (now : ℤ) : Keeps cache (cache.getChangeTime server path now).1 := by
  unfold getChangeTime
  cases hfound : cache.getServerEntry server with
  | none => exact Keeps.refl hcons
  | some sit =>
      exact (lookupEntry_reordered hcons (mem_of_getServerEntry hfound) path
        true now).keeps hcons

/-- What is known after a search that has found an entry: nothing but the
order of last uses has changed, and the entry is in the cache. -/
theorem lookupEntry_found {path : ServerPath} {now : ℤ} {outdated : Bool}
    {looked : DirectoryCache}
    (hcons : Consistent cache) (hsit : sit ∈ cache.serverList)
    (hlookup : cache.lookupEntry sit path true now =
      (looked, some (cit, outdated))) :
    Keeps cache looked ∧ looked.serverList = cache.serverList ∧
      sit ∈ looked.serverList ∧ cit ∈ sit.cacheList ∧ cit.path = path := by
  have hreordered := lookupEntry_reordered hcons hsit path true now
  obtain ⟨hcit, hpath⟩ := lookupEntry_some hcons hsit
    (congrArg Prod.snd hlookup)
  rw [hlookup] at hreordered
  refine ⟨hreordered.keeps hcons, hreordered.serverList, ?_, hcit, hpath⟩
  rw [hreordered.serverList]
  exact hsit

theorem lookupEntry_missed {path : ServerPath} {now : ℤ}
    {looked : DirectoryCache}
    (hcons : Consistent cache) (hsit : sit ∈ cache.serverList)
    (hlookup : cache.lookupEntry sit path true now = (looked, none)) :
    Keeps cache looked ∧ looked.serverList = cache.serverList ∧
      ∀ cit ∈ sit.cacheList, cit.path ≠ path := by
  have hreordered := lookupEntry_reordered hcons hsit path true now
  have habsent := lookupEntry_none hcons hsit (congrArg Prod.snd hlookup)
  rw [hlookup] at hreordered
  exact ⟨hreordered.keeps hcons, hreordered.serverList, habsent⟩

theorem findName_keeps (folding : NameFolding) (anyCase : Bool)
    (listing : DirectoryListing) (filename : WString) :
    (findName folding anyCase listing filename).1.path = listing.path ∧
      (findName folding anyCase listing filename).1.size = listing.size := by
  unfold findName
  simp only
  split
  · exact ⟨rfl, rfl⟩
  · split
    · exact ⟨rfl, rfl⟩
    · exact ⟨rfl, rfl⟩

theorem findNames_keeps (folding : NameFolding) (anyCase : Bool)
    (filenames : List WString) (listing : DirectoryListing) :
    (findNames folding anyCase listing filenames).1.path = listing.path ∧
      (findNames folding anyCase listing filenames).1.size =
        listing.size := by
  induction filenames generalizing listing with
  | nil => exact ⟨rfl, rfl⟩
  | cons filename filenames ih =>
      obtain ⟨hpath, hsize⟩ := findName_keeps folding anyCase listing filename
      obtain ⟨hpathRest, hsizeRest⟩ :=
        ih (findName folding anyCase listing filename).1
      exact ⟨hpathRest.trans hpath, hsizeRest.trans hsize⟩

theorem lookupFiles_keeps
    (hcons : Consistent cache) (folding : NameFolding) (server : Server)
    (path : ServerPath) (filenames : List WString) (flags : LookupFlags)
    (now : ℤ) :
    Keeps cache
      (cache.lookupFiles folding server path filenames flags now).1 := by
  unfold lookupFiles
  cases hfound : cache.getServerEntry server with
  | none => exact Keeps.refl hcons
  | some sit =>
      have hsit := mem_of_getServerEntry hfound
      rcases hlookup : cache.lookupEntry sit path true now with
        ⟨looked, found⟩
      cases found with
      | none =>
          obtain ⟨hkeeps, _⟩ := lookupEntry_missed hcons hsit hlookup
          simp only [hlookup]
          exact hkeeps
      | some pair =>
          obtain ⟨cit, outdated⟩ := pair
          obtain ⟨hkeeps, _, hsit', hcit, _⟩ :=
            lookupEntry_found hcons hsit hlookup
          obtain ⟨hpath, hsize⟩ := findNames_keeps folding
            (server.protocol.caseSensitivity != .yes ||
              flags.forceCaseinsensitive) filenames cit.listing
          simp only [hlookup]
          split
          · exact hkeeps
          · exact hkeeps.trans
              (writeListing_keeps hkeeps.consistent hsit' hcit hpath hsize)

theorem lookupFileAnyCase_keeps
    (hcons : Consistent cache) (folding : NameFolding) (server : Server)
    (path : ServerPath) (filename : WString) (now : ℤ) :
    Keeps cache
      (cache.lookupFileAnyCase folding server path filename now).1 := by
  unfold lookupFileAnyCase
  cases hfound : cache.getServerEntry server with
  | none => exact Keeps.refl hcons
  | some sit =>
      have hsit := mem_of_getServerEntry hfound
      rcases hlookup : cache.lookupEntry sit path true now with
        ⟨looked, found⟩
      cases found with
      | none =>
          obtain ⟨hkeeps, _⟩ := lookupEntry_missed hcons hsit hlookup
          simp only [hlookup]
          exact hkeeps
      | some pair =>
          obtain ⟨cit, outdated⟩ := pair
          obtain ⟨hkeeps, _, hsit', hcit, _⟩ :=
            lookupEntry_found hcons hsit hlookup
          obtain ⟨hpath, hsize⟩ :=
            findName_keeps folding true cit.listing filename
          simp only [hlookup]
          exact hkeeps.trans
            (writeListing_keeps hkeeps.consistent hsit' hcit hpath hsize)

theorem removeDir_keeps
    (hcons : Consistent cache) (folding : NameFolding) (server : Server)
    (path : ServerPath) (filename : WString) (now : ℤ) :
    Keeps cache (cache.removeDir folding server path filename now) := by
  unfold removeDir
  cases hfound : cache.getServerEntry server with
  | none => exact Keeps.refl hcons
  | some sit =>
      have herased := eraseEntries_keeps hcons (mem_of_getServerEntry hfound)
        (removedByDir folding path filename)
      exact herased.trans (removeFile_keeps herased.consistent folding server
        path filename now)

theorem clearFindMap_path (listing : DirectoryListing) :
    listing.clearFindMap.path = listing.path := by
  unfold DirectoryListing.clearFindMap
  split
  · rfl
  · rfl

theorem clearFindMap_entries (listing : DirectoryListing) :
    listing.clearFindMap.entries = listing.entries := by
  unfold DirectoryListing.clearFindMap
  split
  · rfl
  · rfl

theorem renameEntry_length (fileFrom fileTo : WString)
    (entries : List DirectoryEntry) :
    (renameEntry fileFrom fileTo entries).length = entries.length := by
  induction entries with
  | nil => rfl
  | cons entry entries ih =>
      unfold renameEntry
      split_ifs
      · rfl
      · simp [ih]

theorem renameListing_keeps (fileFrom fileTo : WString)
    (listing : DirectoryListing) :
    (renameListing fileFrom fileTo listing).path = listing.path ∧
      (renameListing fileFrom fileTo listing).size = listing.size := by
  constructor
  · exact clearFindMap_path _
  · unfold renameListing DirectoryListing.size
    rw [clearFindMap_entries]
    exact renameEntry_length fileFrom fileTo listing.entries

theorem changeOwner_length (filename ownerGroup : WString)
    (entries : List DirectoryEntry) :
    (changeOwner filename ownerGroup entries).length = entries.length := by
  induction entries with
  | nil => rfl
  | cons entry entries ih =>
      unfold changeOwner
      split_ifs
      · rfl
      · simp [ih]

theorem mem_of_entryAt {sitId citId : ℕ}
    (hfound : cache.entryAt sitId citId = some cit) :
    ∃ sit ∈ cache.serverList, sit.id = sitId ∧ cit ∈ sit.cacheList := by
  unfold entryAt at hfound
  cases hsit : cache.serverList.find? (·.id = sitId) with
  | none =>
      rw [hsit] at hfound
      cases hfound
  | some sit =>
      rw [hsit] at hfound
      refine ⟨sit, List.mem_of_find?_eq_some hsit, ?_,
        List.mem_of_find?_eq_some hfound⟩
      simpa using List.find?_some hsit

theorem renameWithin_keeps
    (hcons : Consistent cache) (folding : NameFolding) (server : Server)
    (sit cit : ℕ) (path : ServerPath) (fileFrom fileTo : WString) (now : ℤ) :
    Keeps cache (cache.renameWithin folding server sit cit path fileFrom
      fileTo now) := by
  have hremoved := removeFile_keeps hcons folding server path fileTo now
  unfold renameWithin
  simp only
  cases hcit : (cache.removeFile folding server path fileTo now).1.entryAt
      sit cit with
  | none => exact hremoved
  | some entry =>
      obtain ⟨sit, hsit, rfl, hmem⟩ := mem_of_entryAt hcit
      simp only
      split
      · exact hremoved
      · split
        · have hfrom := removeDir_keeps hremoved.consistent folding server
            path fileFrom now
          have hto := removeDir_keeps hfrom.consistent folding server path
            fileTo now
          have hupdated := updateFile_keeps hto.consistent folding server
            path fileTo true .dir (-1) [] now
          exact ((hremoved.trans hfrom).trans hto).trans hupdated
        · obtain ⟨hpath, hsize⟩ :=
            renameListing_keeps fileFrom fileTo entry.listing
          exact hremoved.trans (writeListing_keeps hremoved.consistent hsit
            hmem hpath hsize)

theorem renameAcross_keeps
    (hcons : Consistent cache) (folding : NameFolding) (server : Server)
    (listing : DirectoryListing) (pathFrom : ServerPath) (fileFrom : WString)
    (pathTo : ServerPath) (fileTo : WString) (now : ℤ) :
    Keeps cache (cache.renameAcross folding server listing pathFrom fileFrom
      pathTo fileTo now) := by
  unfold renameAcross
  split
  · exact Keeps.refl hcons
  · split
    · have hfrom := removeDir_keeps hcons folding server pathFrom fileFrom now
      exact hfrom.trans (updateFile_keeps hfrom.consistent folding server
        pathTo fileTo true .dir (-1) [] now)
    · have hfrom := removeFile_keeps hcons folding server pathFrom fileFrom
        now
      exact hfrom.trans (updateFile_keeps hfrom.consistent folding server
        pathTo fileTo true .file (-1) [] now)

theorem rename_keeps
    (hcons : Consistent cache) (folding : NameFolding) (server : Server)
    (pathFrom : ServerPath) (fileFrom : WString) (pathTo : ServerPath)
    (fileTo : WString) (now : ℤ) :
    Keeps cache (cache.rename folding server pathFrom fileFrom pathTo fileTo
      now) := by
  unfold rename
  cases hfound : cache.getServerEntry server with
  | none => exact Keeps.refl hcons
  | some sit =>
      have hsit := mem_of_getServerEntry hfound
      rcases hlookup : cache.lookupEntry sit pathFrom true now with
        ⟨looked, found⟩
      cases found with
      | none =>
          obtain ⟨hkeeps, _⟩ := lookupEntry_missed hcons hsit hlookup
          simp only [hlookup]
          exact hkeeps.trans
            (invalidateServer_keeps hkeeps.consistent server)
      | some pair =>
          obtain ⟨cit, outdated⟩ := pair
          obtain ⟨hkeeps, _⟩ := lookupEntry_found hcons hsit hlookup
          simp only [hlookup]
          split
          · exact hkeeps.trans (renameWithin_keeps hkeeps.consistent folding
              server sit.id cit.id pathFrom fileFrom fileTo now)
          · exact hkeeps.trans (renameAcross_keeps hkeeps.consistent folding
              server cit.listing pathFrom fileFrom pathTo fileTo now)

theorem updateOwnerGroup_keeps
    (hcons : Consistent cache) (server : Server) (path : ServerPath)
    (filename ownerGroup : WString) (now : ℤ) :
    Keeps cache
      (cache.updateOwnerGroup server path filename ownerGroup now) := by
  unfold updateOwnerGroup
  cases hfound : cache.getServerEntry server with
  | none => exact Keeps.refl hcons
  | some sit =>
      have hsit := mem_of_getServerEntry hfound
      rcases hlookup : cache.lookupEntry sit path true now with
        ⟨looked, found⟩
      cases found with
      | none =>
          obtain ⟨hkeeps, _⟩ := lookupEntry_missed hcons hsit hlookup
          simp only [hlookup]
          exact hkeeps.trans
            (invalidateServer_keeps hkeeps.consistent server)
      | some pair =>
          obtain ⟨cit, outdated⟩ := pair
          obtain ⟨hkeeps, _, hsit', hcit, _⟩ :=
            lookupEntry_found hcons hsit hlookup
          simp only [hlookup]
          split
          · split
            · exact hkeeps
            · apply hkeeps.trans
              apply writeListing_keeps hkeeps.consistent hsit' hcit
              · exact clearFindMap_path _
              · unfold DirectoryListing.size
                rw [clearFindMap_entries]
                exact changeOwner_length filename ownerGroup _
          · exact hkeeps.trans
              (invalidateServer_keeps hkeeps.consistent server)

theorem setTtl_keeps (hcons : Consistent cache) (ttl : ℤ) :
    Keeps cache (cache.setTtl ttl) :=
  ⟨⟨hcons.ids, hcons.fresh, hcons.apart, hcons.linked, hcons.nodes,
    hcons.freshNodes, hcons.placed⟩, rfl⟩

/-- What a step has to meet for the number of files to stay right. -/
def StoresDistinguished (cache : DirectoryCache)
    (input : CacheOperation × ℤ) : Prop :=
  match input.1 with
  | .store listing server => cache.Distinguishes listing server
  | _ => True

/-- One operation keeps the links, and the number of files unless it stores
what the cache cannot tell apart. -/
theorem perform_consistent
    (hcons : Consistent cache) (folding : NameFolding)
    (operation : CacheOperation) (now : ℤ) :
    Consistent (cache.perform folding operation now) ∧
      (cache.StoresDistinguished (operation, now) →
        (cache.perform folding operation now).drift = cache.drift) := by
  have hkeeps : ∀ following, Keeps cache following →
      Consistent following ∧ (cache.StoresDistinguished (operation, now) →
        following.drift = cache.drift) := by
    intro following h
    exact ⟨h.consistent, fun _ => h.drift⟩
  cases operation with
  | store listing server =>
      obtain ⟨hstored, hdrift⟩ := store_drift hcons listing server now
      exact ⟨hstored, hdrift.mpr⟩
  | lookup server path allowUnsureEntries =>
      exact hkeeps _ (lookup_keeps hcons server path allowUnsureEntries now)
  | doesExist server path =>
      exact hkeeps _ (doesExist_keeps hcons server path now)
  | getChangeTime server path =>
      exact hkeeps _ (getChangeTime_keeps hcons server path now)
  | lookupFiles server path filenames flags =>
      exact hkeeps _
        (lookupFiles_keeps hcons folding server path filenames flags now)
  | lookupFile server path filename flags =>
      exact hkeeps _
        (lookupFiles_keeps hcons folding server path [filename] flags now)
  | lookupFileAnyCase server path filename =>
      exact hkeeps _
        (lookupFileAnyCase_keeps hcons folding server path filename now)
  | invalidateFile server path filename =>
      exact hkeeps _
        (invalidateFile_keeps hcons folding server path filename now)
  | updateFile server path filename mayCreate type size ownerGroup =>
      exact hkeeps _ (updateFile_keeps hcons folding server path filename
        mayCreate type size ownerGroup now)
  | removeFile server path filename =>
      exact hkeeps _ (removeFile_keeps hcons folding server path filename now)
  | invalidateServer server =>
      exact hkeeps _ (invalidateServer_keeps hcons server)
  | removeDir server path filename =>
      exact hkeeps _ (removeDir_keeps hcons folding server path filename now)
  | rename server pathFrom fileFrom pathTo fileTo =>
      exact hkeeps _ (rename_keeps hcons folding server pathFrom fileFrom
        pathTo fileTo now)
  | updateOwnerGroup server path filename ownerGroup =>
      exact hkeeps _
        (updateOwnerGroup_keeps hcons server path filename ownerGroup now)
  | setTtl ttl => exact hkeeps _ (setTtl_keeps hcons ttl)

theorem machine_step {folding : NameFolding} {following : DirectoryCache}
    {input : CacheOperation × ℤ} {answer : List Empty}
    (hstep : (machine folding).step cache input = some (following, answer)) :
    following = cache.perform folding input.1 input.2 := by
  unfold machine at hstep
  simp only [Option.some.injEq, Prod.mk.injEq] at hstep
  exact hstep.1.symm

/-- The links hold in every run. -/
theorem reaches_consistent {folding : NameFolding}
    {inputs : List (CacheOperation × ℤ)} {outputs : List Empty}
    {allowed : DirectoryCache → CacheOperation × ℤ → Prop}
    (hreach :
      (machine folding).ReachesWithin allowed inputs outputs cache) :
    Consistent cache := by
  apply hreach.stateInvariant Consistent
  · intro state hinitial
    rw [show state = initial from hinitial]
    exact initial_consistent
  · intro state input following answer hcons _ hstep
    rw [machine_step hstep]
    exact (perform_consistent hcons folding input.1 input.2).1

/-! ## What the containers say -/

theorem mem_positions {serverList : List ServerEntry}
    {position : ℕ × ℕ × Option ℕ} :
    position ∈ positions serverList ↔
      ∃ sit ∈ serverList, ∃ cit ∈ sit.cacheList,
        (sit.id, cit.id, cit.lruIt) = position := by
  simp [positions, List.mem_flatMap]

theorem Consistent.distinctEntries (hcons : Consistent cache) :
    ((positions cache.serverList).map fun position =>
      (position.1, position.2.1)).Nodup := by
  unfold positions
  rw [List.map_flatMap, List.nodup_flatMap]
  constructor
  · intro sit hsit
    rw [List.map_map]
    apply List.Nodup.of_map Prod.snd
    rw [List.map_map]
    exact (hcons.linked sit hsit).ids
  · have hids : cache.serverList.Pairwise fun first second =>
        first.id ≠ second.id := List.pairwise_map.mp hcons.ids
    apply hids.imp
    intro first second hne position hfirst hsecond
    simp only [List.map_map] at hfirst hsecond
    obtain ⟨cit, _, rfl⟩ := List.mem_map.mp hfirst
    obtain ⟨cit', _, heq⟩ := List.mem_map.mp hsecond
    exact hne (congrArg Prod.fst heq).symm

theorem Consistent.nodes_perm (hcons : Consistent cache) :
    (cache.leastRecentlyUsedList.nodes.map LruNode.position).Perm
      (positions cache.serverList) := by
  have hnodes :
      (cache.leastRecentlyUsedList.nodes.map LruNode.position).Nodup := by
    apply List.Nodup.of_map fun position : ℕ × ℕ × Option ℕ => position.2.2
    rw [List.map_map]
    have hsome := List.Nodup.map (Option.some_injective ℕ) hcons.nodes
    rw [List.map_map] at hsome
    exact hsome
  have hpositions := List.Nodup.of_map _ hcons.distinctEntries
  rw [List.perm_ext_iff_of_nodup hnodes hpositions]
  intro position
  rw [List.mem_map, mem_positions]
  constructor
  · rintro ⟨node, hin, rfl⟩
    obtain ⟨sit, hsit, hserver⟩ := hcons.placed node hin
    obtain ⟨cit, hcit, hentry, hnode⟩ :=
      (hcons.linked sit hsit).entry node hin hserver.symm
    refine ⟨sit, hsit, cit, hcit, ?_⟩
    rw [hserver, hentry, hnode]
    rfl
  · rintro ⟨sit, hsit, cit, hcit, rfl⟩
    obtain ⟨node, hnode, hin⟩ := (hcons.linked sit hsit).node cit hcit
    refine ⟨_, hin, ?_⟩
    rw [hnode]
    rfl

theorem Consistent.wellAccounted
    (hcons : Consistent cache) (hdrift : cache.drift = 0) :
    WellAccounted cache where
  count := sub_eq_zero.mp hdrift
  nodes := hcons.nodes_perm
  distinctNodes := hcons.nodes
  distinctEntries := hcons.distinctEntries
  servers := hcons.apart
  paths := by
    intro sit hsit
    apply (hcons.linked sit hsit).ordered.imp
    intro first second hless heq
    rw [heq, ServerPath.less_strictWeak.irrefl] at hless
    cases hless

end DirectoryCache

open DirectoryCache

/-- In every run in which each stored listing is empty or has a path that the
set can tell from those it has, the containers of the cache describe the same
listings. -/
theorem cache_accounted {folding : NameFolding}
    {inputs : List (CacheOperation × ℤ)} {outputs : List Empty}
    {cache : DirectoryCache}
    (hreach : (machine folding).ReachesWithin StoresDistinguished inputs
      outputs cache) : WellAccounted cache := by
  have hboth : Consistent cache ∧ cache.drift = 0 := by
    apply hreach.stateInvariant fun cache => Consistent cache ∧ cache.drift = 0
    · intro state hinitial
      rw [show state = initial from hinitial]
      exact ⟨initial_consistent, rfl⟩
    · intro state input following answer hinv hallowed hstep
      obtain ⟨hcons, hdrift⟩ :=
        perform_consistent hinv.1 folding input.1 input.2
      rw [machine_step hstep]
      exact ⟨hcons, (hdrift hallowed).trans hinv.2⟩
  exact hboth.1.wellAccounted hboth.2

namespace DirectoryCache

def performed (folding : NameFolding)
    (inputs : List (CacheOperation × ℤ)) : DirectoryCache :=
  inputs.foldl (fun cache input => cache.perform folding input.1 input.2)
    initial

theorem exec_perform (folding : NameFolding)
    (inputs : List (CacheOperation × ℤ)) (cache : DirectoryCache) :
    (machine folding).exec (fun _ _ => True) cache inputs =
      some (inputs.foldl
        (fun cache input => cache.perform folding input.1 input.2) cache,
        []) := by
  induction inputs generalizing cache with
  | nil => rfl
  | cons input inputs ih =>
      have hstep : (machine folding).step cache input =
          some (cache.perform folding input.1 input.2, []) := rfl
      unfold LabelledRuns.Machine.exec
      simp [hstep, ih]

theorem reaches_performed (folding : NameFolding)
    (inputs : List (CacheOperation × ℤ)) :
    (machine folding).Reaches inputs [] (performed folding inputs) := by
  have hstart : (machine folding).Reaches [] [] initial := .start rfl
  exact hstart.exec (exec_perform folding inputs initial)

end DirectoryCache

def plainServer : Server where
  protocol := .ftp
  type := .default
  host := ['h']
  user := []
  port := 21
  timezoneOffset := 0
  pasvMode := .default
  bypassProxy := false
  encodingType := .auto
  customEncoding := []
  postLoginCommands := []
  extraParameters := []

def plainEntry (name : WString) : DirectoryEntry :=
  ⟨name, 0, [], [], none, none, 0⟩

def plainListing (segment name : WString) : DirectoryListing :=
  ⟨⟨some ⟨[segment], none⟩, .unix⟩, 0, [plainEntry name], none, none, 0⟩

def plainFolding : NameFolding := ⟨fun left right => left == right, id⟩

/-- Two listings whose paths differ behind a NUL only. -/
def nulStores : List (CacheOperation × ℤ) :=
  [(.store (plainListing ['a'] ['x']) plainServer, 0),
    (.store (plainListing ['a', '\x00', 'b'] ['y']) plainServer, 1)]

/-- Two listings are stored, then one of them gets a file. -/
theorem cache_accounted_stored :
    ∃ cache, cache.leastRecentlyUsedList.nodes.length = 2 ∧
      cache.totalFileCount = 2 ∧ WellAccounted cache := by
  let path : ServerPath := ⟨some ⟨[['a']], none⟩, .unix⟩
  let first : CacheOperation × ℤ :=
    (.store (plainListing ['a'] ['x']) plainServer, 0)
  let second : CacheOperation × ℤ :=
    (.store { plainListing ['b'] ['y'] with entries := [] } plainServer, 1)
  let third : CacheOperation × ℤ :=
    (.updateFile plainServer path ['z'] true .file 5 [], 2)
  have hstart : (machine plainFolding).ReachesWithin StoresDistinguished
      [] [] initial := .start rfl
  have hfirst : StoresDistinguished initial first := by
    right
    intro sit hsit
    cases hsit
  have hsecond : StoresDistinguished
      (performed plainFolding [first]) second := Or.inl rfl
  have hreach := ((hstart.next hfirst rfl).next hsecond rfl).next
    (show StoresDistinguished (performed plainFolding [first, second]) third
      from trivial) rfl
  refine ⟨performed plainFolding [first, second, third], by decide,
    by decide, cache_accounted hreach⟩

/-- The second listing takes the place of the first, and both are counted. -/
theorem cache_accounting_drifts :
    ∃ cache, (machine plainFolding).Reaches nulStores [] cache ∧
      ¬ WellAccounted cache := by
  refine ⟨_, reaches_performed plainFolding nulStores, ?_⟩
  intro haccounted
  have hcount := haccounted.count
  revert hcount
  decide

end TabFtp
