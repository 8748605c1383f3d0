import TabFtp.DirectoryCacheListings
import TabFtp.ListingParser

/-!
# The summary flags of a listing

Three flags of a listing record whether any of its entries is a directory, has
permissions or has an owner.  `Assign` sets them from the entries.  Entries
that the cache adds or changes later have to raise them as well, which is done
for directories but not for owners.
-/

namespace TabFtp

namespace DirectoryListing

def summaryFlags : ℕ :=
  listingHasDirs ||| listingHasPerms ||| listingHasUsergroup

/-- `Assign` -/
def reassign (listing : DirectoryListing) (entries : List DirectoryEntry) :
    DirectoryListing :=
  { listing with
    flags := listing.flags ^^^ (listing.flags &&& summaryFlags)
      }.assign entries

structure Covers (flags : ℕ) (entry : DirectoryEntry) : Prop where
  dirs : entry.isDir = true → flags &&& listingHasDirs ≠ 0
  perms : entry.permissions ≠ [] → flags &&& listingHasPerms ≠ 0
  usergroup : entry.ownerGroup ≠ [] → flags &&& listingHasUsergroup ≠ 0

def Summarized (listing : DirectoryListing) : Prop :=
  ∀ entry ∈ listing.entries, Covers listing.flags entry

/-! ## Flags of entries -/

variable {listing changed : DirectoryListing} {entry source : DirectoryEntry}
  {flags : ℕ}

theorem flag_or {flags more flag : ℕ} :
    (flags ||| more) &&& flag ≠ 0 ↔ flags &&& flag ≠ 0 ∨ more &&& flag ≠ 0 := by
  rw [Nat.and_or_distrib_right, ne_eq, Nat.or_eq_zero_iff]
  exact Classical.not_and_iff_not_or_not

theorem Covers.or_left (hcovers : Covers flags entry) (more : ℕ) :
    Covers (flags ||| more) entry where
  dirs hdir := flag_or.mpr (Or.inl (hcovers.dirs hdir))
  perms hperms := flag_or.mpr (Or.inl (hcovers.perms hperms))
  usergroup howner := flag_or.mpr (Or.inl (hcovers.usergroup howner))

theorem Covers.or_right (hcovers : Covers flags entry) (more : ℕ) :
    Covers (more ||| flags) entry where
  dirs hdir := flag_or.mpr (Or.inr (hcovers.dirs hdir))
  perms hperms := flag_or.mpr (Or.inr (hcovers.perms hperms))
  usergroup howner := flag_or.mpr (Or.inr (hcovers.usergroup howner))

theorem Covers.congr (hcovers : Covers flags source)
    (hdir : entry.isDir = source.isDir)
    (hperms : entry.permissions = source.permissions)
    (howner : entry.ownerGroup = source.ownerGroup) : Covers flags entry where
  dirs h := hcovers.dirs (hdir ▸ h)
  perms h := hcovers.perms (hperms ▸ h)
  usergroup h := hcovers.usergroup (howner ▸ h)

theorem Covers.markUnsure (hcovers : Covers flags entry) :
    Covers flags entry.markUnsure :=
  hcovers.congr entry.markUnsure_isDir rfl rfl

theorem covers_entryFlags (entry : DirectoryEntry) :
    Covers (entryFlags entry) entry := by
  unfold entryFlags
  constructor
  · intro hdir
    rw [if_pos hdir, flag_or, flag_or]
    exact Or.inl (Or.inl (by decide))
  · intro hperms
    have hempty : ¬ entry.permissions.isEmpty = true := by
      rw [List.isEmpty_iff]
      exact hperms
    rw [if_neg hempty, flag_or, flag_or]
    exact Or.inl (Or.inr (by decide))
  · intro howner
    have hempty : ¬ entry.ownerGroup.isEmpty = true := by
      rw [List.isEmpty_iff]
      exact howner
    rw [if_neg hempty, flag_or]
    exact Or.inr (by decide)

theorem Covers.foldl (hcovers : Covers flags entry)
    (entries : List DirectoryEntry) :
    Covers (entries.foldl (fun flags entry => flags ||| entryFlags entry)
      flags) entry := by
  induction entries generalizing flags with
  | nil => exact hcovers
  | cons next entries ih => exact ih (hcovers.or_left _)

theorem covers_foldl (entries : List DirectoryEntry) (flags : ℕ) :
    ∀ entry ∈ entries, Covers
      (entries.foldl (fun flags entry => flags ||| entryFlags entry) flags)
      entry := by
  induction entries generalizing flags with
  | nil => exact nofun
  | cons next entries ih =>
      intro entry hentry
      rcases List.mem_cons.mp hentry with rfl | hrest
      · exact ((covers_entryFlags entry).or_right flags).foldl entries
      · exact ih _ entry hrest

/-! ## One listing -/

theorem summarized_reassign (listing : DirectoryListing)
    (entries : List DirectoryEntry) :
    (listing.reassign entries).Summarized :=
  covers_foldl entries _

theorem Summarized.addFlag (hsum : listing.Summarized) (flag : ℕ) :
    (listing.addFlag flag).Summarized := by
  intro entry hentry
  exact (hsum entry hentry).or_left flag

theorem Summarized.congr (hsum : listing.Summarized)
    (hentries : changed.entries = listing.entries)
    (hflags : changed.flags = listing.flags) : changed.Summarized := by
  unfold Summarized
  rw [hentries, hflags]
  exact hsum

theorem Summarized.removeEntry (hsum : listing.Summarized) (index : ℕ) :
    (listing.removeEntry index).Summarized := by
  unfold DirectoryListing.removeEntry
  cases listing.entries[index]? with
  | none => exact hsum
  | some removed =>
      intro entry hentry
      exact (hsum entry (List.mem_of_mem_eraseIdx hentry)).or_left _

theorem Summarized.clearFindMap (hsum : listing.Summarized) :
    listing.clearFindMap.Summarized := by
  unfold DirectoryListing.clearFindMap
  cases listing.searchmapCase with
  | none => exact hsum
  | some map => exact hsum

end DirectoryListing

namespace DirectoryCache

open DirectoryListing

variable {cache : DirectoryCache} {listing : DirectoryListing} {flags : ℕ}
  {folding : NameFolding}

/-! ## Changes that the cache makes to a listing -/

theorem markEntries_covered (isName : WString → Bool)
    {entries : List DirectoryEntry}
    (hcovered : ∀ entry ∈ entries, Covers flags entry) :
    ∀ entry ∈ markEntries isName entries, Covers flags entry := by
  intro entry hentry
  obtain ⟨source, hsource, rfl⟩ := List.mem_map.mp hentry
  split
  · exact (hcovered source hsource).markUnsure
  · exact hcovered source hsource

theorem markUntil_covered (folding : NameFolding) (filename : WString)
    {entries : List DirectoryEntry}
    (hcovered : ∀ entry ∈ entries, Covers flags entry) :
    ∀ entry ∈ (markUntil folding filename entries).1, Covers flags entry := by
  induction entries with
  | nil => exact nofun
  | cons first entries ih =>
      obtain ⟨hfirst, hrest⟩ := List.forall_mem_cons.mp hcovered
      unfold markUntil
      split_ifs with hsame hname
      · exact List.forall_mem_cons.mpr ⟨hfirst.markUnsure, hrest⟩
      · exact List.forall_mem_cons.mpr ⟨hfirst.markUnsure, ih hrest⟩
      · exact List.forall_mem_cons.mpr ⟨hfirst, ih hrest⟩

theorem renameEntry_covered (fileFrom fileTo : WString)
    {entries : List DirectoryEntry}
    (hcovered : ∀ entry ∈ entries, Covers flags entry) :
    ∀ entry ∈ renameEntry fileFrom fileTo entries, Covers flags entry := by
  induction entries with
  | nil => exact nofun
  | cons first entries ih =>
      obtain ⟨hfirst, hrest⟩ := List.forall_mem_cons.mp hcovered
      unfold renameEntry
      split_ifs
      · refine List.forall_mem_cons.mpr ⟨?_, hrest⟩
        exact Covers.markUnsure (hfirst.congr rfl rfl rfl)
      · exact List.forall_mem_cons.mpr ⟨hfirst, ih hrest⟩

theorem findName_content (folding : NameFolding) (anyCase : Bool)
    (listing : DirectoryListing) (filename : WString) :
    (findName folding anyCase listing filename).1.entries =
        listing.entries ∧
      (findName folding anyCase listing filename).1.flags =
        listing.flags := by
  unfold findName
  simp only
  split
  · exact ⟨rfl, rfl⟩
  · split
    · exact ⟨rfl, rfl⟩
    · exact ⟨rfl, rfl⟩

theorem findNames_summarized (folding : NameFolding) (anyCase : Bool)
    (filenames : List WString) (hsum : listing.Summarized) :
    (findNames folding anyCase listing filenames).1.Summarized := by
  induction filenames generalizing listing with
  | nil => exact hsum
  | cons filename filenames ih =>
      obtain ⟨hentries, hflags⟩ :=
        findName_content folding anyCase listing filename
      exact ih (hsum.congr hentries hflags)

theorem removeFromListing_summarized (filename : WString)
    (hsum : listing.Summarized) :
    (removeFromListing folding filename listing).1.Summarized := by
  unfold removeFromListing
  cases listing.indexOf filename with
  | some index => exact hsum.removeEntry index
  | none =>
      apply Summarized.addFlag
      exact markEntries_covered _ hsum

theorem invalidateListing_summarized (isName : WString → Bool)
    (hsum : listing.Summarized) :
    (invalidateListing isName listing).1.Summarized := by
  apply Summarized.addFlag
  exact markEntries_covered isName hsum

theorem renameListing_summarized (fileFrom fileTo : WString)
    (hsum : listing.Summarized) :
    (renameListing fileFrom fileTo listing).Summarized := by
  apply Summarized.clearFindMap
  apply Summarized.addFlag
  exact renameEntry_covered fileFrom fileTo hsum

/-- `UpdateFile` adds no entry with an owner to a listing whose flag for
owners is not set. -/
def AddsNoOwner (folding : NameFolding) (filename : WString)
    (mayCreate : Bool) (type : Filetype) (ownerGroup : WString)
    (listing : DirectoryListing) : Prop :=
  ownerGroup = [] ∨ type = .unknown ∨ mayCreate = false ∨
    (∃ entry ∈ listing.entries,
      folding.same filename entry.name = true ∧ entry.name = filename) ∨
    listing.flags &&& listingHasUsergroup ≠ 0

/-- `UpdateOwnerGroup` gives no owner to an entry of a listing whose flag for
owners is not set. -/
def SetsNoOwner (filename ownerGroup : WString) (listing : DirectoryListing) :
    Prop :=
  ownerGroup = [] ∨
    (∀ entry, listing.entryOf filename = some entry → entry.isDir = true) ∨
    listing.flags &&& listingHasUsergroup ≠ 0

theorem markUntil_none_iff (folding : NameFolding) (filename : WString)
    (entries : List DirectoryEntry) :
    (markUntil folding filename entries).2 = none ↔
      ∀ entry ∈ entries, ¬ (folding.same filename entry.name = true ∧
        entry.name = filename) := by
  induction entries with
  | nil => simp [markUntil]
  | cons first entries ih =>
      rw [List.forall_mem_cons]
      unfold markUntil
      split_ifs with hsame hname
      · constructor
        · exact nofun
        · intro hall
          exact absurd ⟨hsame, hname⟩ hall.1
      · simp [hname, ih]
      · simp [hsame, ih]

theorem newEntry_covered_iff (filename : WString) {type : Filetype}
    (size : ℤ) (ownerGroup : WString) (htype : type ≠ .unknown) (flags : ℕ) :
    Covers (flags ||| addedFlag type)
        (newEntry filename type size ownerGroup) ↔
      ownerGroup = [] ∨ flags &&& listingHasUsergroup ≠ 0 := by
  have hadded : addedFlag type &&& listingHasUsergroup = 0 := by
    cases type with
    | unknown => rfl
    | file => rfl
    | dir => rfl
  constructor
  · intro hcovers
    by_cases howner : ownerGroup = []
    · exact Or.inl howner
    · rcases flag_or.mp (hcovers.usergroup howner) with hflag | hflag
      · exact Or.inr hflag
      · exact absurd hadded hflag
  · intro hknown
    constructor
    · intro hdir
      apply flag_or.mpr
      cases type with
      | unknown => exact absurd rfl htype
      | file =>
          have hfile : (newEntry filename .file size ownerGroup).isDir =
              false := by
            simp [newEntry, DirectoryEntry.isDir, DirectoryEntry.flagDir,
              DirectoryEntry.flagUnsure]
          rw [hfile] at hdir
          cases hdir
      | dir => exact Or.inr (by decide)
    · intro hperms
      exact absurd rfl hperms
    · intro howner
      rcases hknown with hempty | hflag
      · exact absurd hempty howner
      · exact flag_or.mpr (Or.inl hflag)

theorem updateListing_summarized_iff (filename : WString) (mayCreate : Bool)
    (type : Filetype) (size : ℤ) (ownerGroup : WString)
    (hsum : listing.Summarized) :
    (updateListing folding filename mayCreate type size
        ownerGroup listing).1.Summarized ↔
      AddsNoOwner folding filename mayCreate type ownerGroup listing := by
  have hmarked : ({ listing with
      entries := (markUntil folding filename
        listing.entries).1 } : DirectoryListing).Summarized :=
    markUntil_covered folding filename hsum
  have hnone := markUntil_none_iff folding filename listing.entries
  unfold updateListing AddsNoOwner
  simp only
  cases hfound : (markUntil folding filename listing.entries).2 with
  | some entry =>
      rw [hfound] at hnone
      have hname : ∃ entry ∈ listing.entries,
          folding.same filename entry.name = true ∧
            entry.name = filename := by
        by_contra hno
        have hall := hnone.mpr fun entry hentry hboth =>
          hno ⟨entry, hentry, hboth⟩
        cases hall
      constructor
      · intro _
        exact Or.inr (Or.inr (Or.inr (Or.inl hname)))
      · intro _
        exact hmarked.addFlag _
  | none =>
      have hno : ¬ ∃ entry ∈ listing.entries,
          folding.same filename entry.name = true ∧
            entry.name = filename := by
        rintro ⟨entry, hentry, hboth⟩
        exact hnone.mp hfound entry hentry hboth
      simp only
      by_cases hcreates : type ≠ .unknown ∧ mayCreate = true
      · rw [if_pos hcreates]
        have hcovered := newEntry_covered_iff filename size ownerGroup
          hcreates.1 listing.flags
        have hadds : (ownerGroup = [] ∨ type = .unknown ∨
            mayCreate = false ∨ (∃ entry ∈ listing.entries,
              folding.same filename entry.name = true ∧
                entry.name = filename) ∨
            listing.flags &&& listingHasUsergroup ≠ 0) ↔
            ownerGroup = [] ∨
              listing.flags &&& listingHasUsergroup ≠ 0 := by
          simp only [hcreates.1, hcreates.2, hno, Bool.true_eq_false,
            false_or]
        rw [hadds, ← hcovered]
        constructor
        · intro hafter
          apply hafter
          exact List.mem_append_right _ (List.mem_singleton_self _)
        · intro hnew entry hentry
          rcases List.mem_append.mp hentry with hold | hlast
          · exact (hmarked entry hold).or_left _
          · rw [List.mem_singleton.mp hlast]
            exact hnew
      · rw [if_neg hcreates]
        have hsafe : type = .unknown ∨ mayCreate = false := by
          by_cases htype : type = .unknown
          · exact Or.inl htype
          · right
            by_contra hmay
            exact hcreates ⟨htype, by simpa using hmay⟩
        constructor
        · intro _
          rcases hsafe with htype | hmay
          · exact Or.inr (Or.inl htype)
          · exact Or.inr (Or.inr (Or.inl hmay))
        · intro _
          exact hmarked.addFlag _

theorem changeOwner_covered {filename ownerGroup : WString}
    {entries : List DirectoryEntry}
    (hcovered : ∀ entry ∈ entries, Covers flags entry)
    (howner : ownerGroup = [] ∨ flags &&& listingHasUsergroup ≠ 0) :
    ∀ entry ∈ changeOwner filename ownerGroup entries,
      Covers flags entry := by
  induction entries with
  | nil => exact nofun
  | cons first entries ih =>
      obtain ⟨hfirst, hrest⟩ := List.forall_mem_cons.mp hcovered
      unfold changeOwner
      split_ifs
      · refine List.forall_mem_cons.mpr ⟨?_, hrest⟩
        refine ⟨hfirst.dirs, hfirst.perms, ?_⟩
        intro hnonempty
        rcases howner with hempty | hflag
        · exact absurd hempty hnonempty
        · exact hflag
      · exact List.forall_mem_cons.mpr ⟨hfirst, ih hrest⟩

theorem mem_changeOwner {filename ownerGroup : WString}
    {entries : List DirectoryEntry} {entry : DirectoryEntry}
    (hfound : entries.find? (fun entry => entry.name == filename) =
      some entry) :
    { entry with ownerGroup := ownerGroup } ∈
      changeOwner filename ownerGroup entries := by
  induction entries with
  | nil => cases hfound
  | cons first entries ih =>
      unfold changeOwner
      by_cases hname : first.name = filename
      · rw [List.find?_cons_of_pos (by simpa using hname),
          Option.some.injEq] at hfound
        rw [if_pos hname, hfound]
        exact List.mem_cons_self
      · rw [List.find?_cons_of_neg (by simpa using hname)] at hfound
        rw [if_neg hname]
        exact List.mem_cons_of_mem _ (ih hfound)

theorem changeOwner_summarized_iff {filename ownerGroup : WString}
    {entry : DirectoryEntry} (hsum : listing.Summarized)
    (hfound : listing.entryOf filename = some entry)
    (hfile : entry.isDir = false) :
    { listing with
        entries := changeOwner filename ownerGroup
          listing.entries }.clearFindMap.Summarized ↔
      SetsNoOwner filename ownerGroup listing := by
  have hcontent : { listing with
      entries := changeOwner filename ownerGroup
        listing.entries }.clearFindMap.flags = listing.flags := by
    unfold DirectoryListing.clearFindMap
    cases listing.searchmapCase with
    | none => rfl
    | some map => rfl
  constructor
  · intro hafter
    by_cases howner : ownerGroup = []
    · exact Or.inl howner
    · have hmem : { entry with ownerGroup := ownerGroup } ∈
          { listing with
            entries := changeOwner filename ownerGroup
              listing.entries }.clearFindMap.entries := by
        rw [clearFindMap_entries]
        exact mem_changeOwner hfound
      have hcovers := hafter _ hmem
      rw [hcontent] at hcovers
      exact Or.inr (Or.inr (hcovers.usergroup howner))
  · intro hsets
    have howner : ownerGroup = [] ∨
        listing.flags &&& listingHasUsergroup ≠ 0 := by
      rcases hsets with hempty | hdirs | hflag
      · exact Or.inl hempty
      · rw [hdirs entry hfound] at hfile
        cases hfile
      · exact Or.inr hflag
    apply Summarized.clearFindMap
    exact changeOwner_covered hsum howner

/-! ## The cache -/

def AllSummarized (cache : DirectoryCache) : Prop :=
  AllListings Summarized cache

theorem updateFile_summarized (hall : AllSummarized cache)
    (server : Server) (path : ServerPath) (filename : WString)
    (mayCreate : Bool) (type : Filetype) (size : ℤ) (ownerGroup : WString)
    (now : ℤ)
    (hadds : ∀ sit, cache.getServerEntry server = some sit →
      ∀ cit ∈ sit.cacheList,
        path.equalNocase folding.same cit.path = true →
          AddsNoOwner folding filename mayCreate type ownerGroup
            cit.listing) :
    AllSummarized (cache.updateFile folding server path filename mayCreate
      type size ownerGroup now).1 := by
  unfold updateFile
  cases hfound : cache.getServerEntry server with
  | none => exact hall
  | some sit =>
      have hsit := mem_of_getServerEntry hfound
      apply AllListings.visit hall hsit now
      intro cit hcit hmatch
      rw [updateListing_summarized_iff filename mayCreate type size
        ownerGroup (hall sit hsit cit hcit)]
      exact hadds sit hfound cit hcit hmatch

theorem removeFile_summarized (hall : AllSummarized cache)
    (server : Server) (path : ServerPath) (filename : WString) (now : ℤ) :
    AllSummarized (cache.removeFile folding server path filename now).1 := by
  unfold removeFile
  cases hfound : cache.getServerEntry server with
  | none => exact hall
  | some sit =>
      have hsit := mem_of_getServerEntry hfound
      apply AllListings.visit hall hsit now
      intro cit hcit _
      exact removeFromListing_summarized filename (hall sit hsit cit hcit)

theorem removeDir_summarized (hall : AllSummarized cache)
    (server : Server) (path : ServerPath) (filename : WString) (now : ℤ) :
    AllSummarized (cache.removeDir folding server path filename now) := by
  unfold removeDir
  cases hfound : cache.getServerEntry server with
  | none => exact hall
  | some sit =>
      have herased : AllSummarized (cache.eraseEntries sit
          (removedByDir folding path filename)) :=
        AllListings.eraseEntries hall (mem_of_getServerEntry hfound) _
      exact removeFile_summarized herased server path filename now

theorem invalidateFile_summarized (hall : AllSummarized cache)
    (server : Server) (path : ServerPath) (filename : WString) (now : ℤ) :
    AllSummarized
      (cache.invalidateFile folding server path filename now).1 := by
  unfold invalidateFile
  cases hfound : cache.getServerEntry server with
  | none => exact hall
  | some sit =>
      have hsit := mem_of_getServerEntry hfound
      have hvisit : ∀ isMatch isName, AllSummarized
          (cache.visit sit isMatch (invalidateListing isName) now) := by
        intro isMatch isName
        apply AllListings.visit hall hsit now
        intro cit hcit _
        exact invalidateListing_summarized isName (hall sit hsit cit hcit)
      simp only
      cases server.protocol.caseSensitivity == .yes
      all_goals
        simp only [if_true, if_false, Bool.false_eq_true]
        split
        · split
          · exact hvisit _ _
          · rename_i visited hvisited
            have hmem := List.mem_of_find?_eq_some hvisited
            apply AllListings.writeList (hvisit _ _)
            intro cit hcit
            obtain ⟨source, hsource, rfl⟩ := List.mem_map.mp hcit
            have hsum := hvisit _ _ visited hmem source hsource
            split
            · exact hsum.addFlag _
            · exact hsum
        · exact hvisit _ _

/-- A lookup finds the listing of the path in the cache, or nothing. -/
theorem lookupEntry_summarized {sit : ServerEntry} (hall : AllSummarized cache)
    (hsit : sit ∈ cache.serverList) (path : ServerPath) (now : ℤ) :
    (∃ looked, cache.lookupEntry sit path true now = (looked, none) ∧
      AllSummarized looked) ∨
      ∃ looked cit outdated, cache.lookupEntry sit path true now =
          (looked, some (cit, outdated)) ∧ AllSummarized looked ∧
        cit.listing.Summarized ∧ ∃ entry ∈ sit.cacheList,
          entry.path = path ∧ cit.listing = entry.listing := by
  obtain ⟨hlooked, hcit⟩ := AllListings.lookupEntry hall hsit path true now
  rcases hlookup : cache.lookupEntry sit path true now with ⟨looked, found⟩
  rw [hlookup] at hlooked hcit
  cases found with
  | none => exact Or.inl ⟨looked, rfl, hlooked⟩
  | some pair =>
      obtain ⟨cit, outdated⟩ := pair
      obtain ⟨entry, hentry, hpath, hlisting⟩ := hcit cit outdated rfl
      have hsum : cit.listing.Summarized := by
        rw [hlisting]
        exact hall sit hsit entry hentry
      exact Or.inr ⟨looked, cit, outdated, rfl, hlooked, hsum, entry, hentry,
        hpath, hlisting⟩

theorem lookupFiles_summarized (hall : AllSummarized cache)
    (server : Server) (path : ServerPath) (filenames : List WString)
    (flags : LookupFlags) (now : ℤ) :
    AllSummarized
      (cache.lookupFiles folding server path filenames flags now).1 := by
  unfold lookupFiles
  cases hfound : cache.getServerEntry server with
  | none => exact hall
  | some sit =>
      rcases lookupEntry_summarized hall (mem_of_getServerEntry hfound) path
        now with ⟨looked, hlookup, hlooked⟩ |
        ⟨looked, cit, outdated, hlookup, hlooked, hsum, _⟩
      · simp only [hlookup]
        exact hlooked
      · simp only [hlookup]
        split
        · exact hlooked
        · exact AllListings.writeEntry hlooked sit.id
            (findNames_summarized folding _ filenames hsum)

theorem lookupFileAnyCase_summarized (hall : AllSummarized cache)
    (server : Server) (path : ServerPath) (filename : WString) (now : ℤ) :
    AllSummarized
      (cache.lookupFileAnyCase folding server path filename now).1 := by
  unfold lookupFileAnyCase
  cases hfound : cache.getServerEntry server with
  | none => exact hall
  | some sit =>
      rcases lookupEntry_summarized hall (mem_of_getServerEntry hfound) path
        now with ⟨looked, hlookup, hlooked⟩ |
        ⟨looked, cit, outdated, hlookup, hlooked, hsum, _⟩
      · simp only [hlookup]
        exact hlooked
      · simp only [hlookup]
        exact AllListings.writeEntry hlooked sit.id
          (findNames_summarized folding true [filename] hsum)

theorem renamed_summarized (hall : AllSummarized cache)
    (server : Server) (path : ServerPath) (filename : WString)
    (type : Filetype) (now : ℤ) :
    AllSummarized (cache.updateFile folding server path filename true type
      (-1) [] now).1 :=
  updateFile_summarized hall server path filename true type (-1) [] now
    fun _ _ _ _ _ => Or.inl rfl

theorem renameWithin_summarized (hall : AllSummarized cache)
    (server : Server) (sit cit : ℕ) (path : ServerPath)
    (fileFrom fileTo : WString) (now : ℤ) :
    AllSummarized (cache.renameWithin folding server sit cit path fileFrom
      fileTo now) := by
  have hremoved : AllSummarized
      (cache.removeFile folding server path fileTo now).1 :=
    removeFile_summarized hall server path fileTo now
  unfold renameWithin
  simp only
  cases hcit : (cache.removeFile folding server path fileTo now).1.entryAt
      sit cit with
  | none => exact hremoved
  | some entry =>
      obtain ⟨holder, hholder, _, hmem⟩ := mem_of_entryAt hcit
      simp only
      cases entry.listing.entryOf fileFrom with
      | none => exact hremoved
      | some direntry =>
          simp only
          split
          · apply renamed_summarized
            apply removeDir_summarized
            exact removeDir_summarized hremoved server path fileFrom now
          · apply AllListings.writeEntry hremoved sit
            exact renameListing_summarized fileFrom fileTo
              (hremoved holder hholder entry hmem)

theorem renameAcross_summarized (hall : AllSummarized cache)
    (server : Server) (listing : DirectoryListing) (pathFrom : ServerPath)
    (fileFrom : WString) (pathTo : ServerPath) (fileTo : WString)
    (now : ℤ) :
    AllSummarized (cache.renameAcross folding server listing pathFrom
      fileFrom pathTo fileTo now) := by
  unfold renameAcross
  cases listing.entryOf fileFrom with
  | none => exact hall
  | some entry =>
      simp only
      split
      · apply renamed_summarized
        exact removeDir_summarized hall server pathFrom fileFrom now
      · apply renamed_summarized
        exact removeFile_summarized hall server pathFrom fileFrom now

theorem rename_summarized (hall : AllSummarized cache)
    (server : Server) (pathFrom : ServerPath) (fileFrom : WString)
    (pathTo : ServerPath) (fileTo : WString) (now : ℤ) :
    AllSummarized (cache.rename folding server pathFrom fileFrom pathTo
      fileTo now) := by
  unfold rename
  cases hfound : cache.getServerEntry server with
  | none => exact hall
  | some sit =>
      rcases lookupEntry_summarized hall (mem_of_getServerEntry hfound)
        pathFrom now with ⟨looked, hlookup, hlooked⟩ |
        ⟨looked, cit, outdated, hlookup, hlooked, _⟩
      · simp only [hlookup]
        exact AllListings.invalidateServer hlooked server
      · simp only [hlookup]
        split
        · exact renameWithin_summarized hlooked server sit.id cit.id
            pathFrom fileFrom fileTo now
        · exact renameAcross_summarized hlooked server cit.listing
            pathFrom fileFrom pathTo fileTo now

theorem updateOwnerGroup_summarized (hall : AllSummarized cache)
    (server : Server) (path : ServerPath) (filename ownerGroup : WString)
    (now : ℤ)
    (hsets : ∀ sit, cache.getServerEntry server = some sit →
      ∀ cit ∈ sit.cacheList, cit.path = path →
        SetsNoOwner filename ownerGroup cit.listing) :
    AllSummarized (cache.updateOwnerGroup server path filename ownerGroup
      now) := by
  unfold updateOwnerGroup
  cases hfound : cache.getServerEntry server with
  | none => exact hall
  | some sit =>
      rcases lookupEntry_summarized hall (mem_of_getServerEntry hfound) path
        now with ⟨looked, hlookup, hlooked⟩ |
        ⟨looked, cit, outdated, hlookup, hlooked, hsum, entry, hentry, hpath,
          hlisting⟩
      · simp only [hlookup]
        exact AllListings.invalidateServer hlooked server
      · have hset : SetsNoOwner filename ownerGroup cit.listing := by
          rw [hlisting]
          exact hsets sit hfound entry hentry hpath
        simp only [hlookup]
        cases hname : cit.listing.entryOf filename with
        | none => exact AllListings.invalidateServer hlooked server
        | some direntry =>
            simp only
            by_cases hdir : direntry.isDir = true
            · rw [if_pos hdir]
              exact hlooked
            · rw [if_neg hdir]
              apply AllListings.writeEntry hlooked sit.id
              rw [changeOwner_summarized_iff hsum hname
                (by simpa using hdir)]
              exact hset

/-- No entry gets an owner that the flags do not know about. -/
def AddsNoUnknownOwner (folding : NameFolding) (cache : DirectoryCache)
    (operation : CacheOperation) : Prop :=
  match operation with
  | .updateFile server path filename mayCreate type _ ownerGroup =>
      ∀ sit, cache.getServerEntry server = some sit →
        ∀ cit ∈ sit.cacheList,
          path.equalNocase folding.same cit.path = true →
            AddsNoOwner folding filename mayCreate type ownerGroup
              cit.listing
  | .updateOwnerGroup server path filename ownerGroup =>
      ∀ sit, cache.getServerEntry server = some sit →
        ∀ cit ∈ sit.cacheList, cit.path = path →
          SetsNoOwner filename ownerGroup cit.listing
  | _ => True

theorem lookup_listings (hall : AllSummarized cache) (server : Server)
    (path : ServerPath) (allowUnsureEntries : Bool) (now : ℤ) :
    AllSummarized (cache.lookup server path allowUnsureEntries now).1 ∧
      ∀ listing outdated,
        (cache.lookup server path allowUnsureEntries now).2 =
          some (listing, outdated) → listing.Summarized := by
  unfold lookup
  cases hfound : cache.getServerEntry server with
  | none => exact ⟨hall, nofun⟩
  | some sit =>
      have hsit := mem_of_getServerEntry hfound
      obtain ⟨hlooked, hcit⟩ :=
        AllListings.lookupEntry hall hsit path allowUnsureEntries now
      refine ⟨hlooked, ?_⟩
      intro listing outdated hlisting
      obtain ⟨pair, hpair, heq⟩ := Option.map_eq_some_iff.mp hlisting
      obtain ⟨entry, hentry, _, hsame⟩ := hcit pair.1 pair.2 hpair
      rw [Prod.mk.injEq] at heq
      rw [← heq.1, hsame]
      exact hall sit hsit entry hentry

theorem perform_summarized (hall : AllSummarized cache)
    (operation : CacheOperation) (now : ℤ)
    (hstored : ∀ listing server,
      operation = .store listing server → listing.Summarized)
    (howner : AddsNoUnknownOwner folding cache operation) :
    AllSummarized (cache.perform folding operation now) := by
  cases operation with
  | store listing server =>
      exact AllListings.store hall (hstored listing server rfl) server now
  | lookup server path allowUnsureEntries =>
      exact (lookup_listings hall server path allowUnsureEntries now).1
  | doesExist server path =>
      show AllSummarized (cache.doesExist server path now).1
      unfold doesExist
      cases hfound : cache.getServerEntry server with
      | none => exact hall
      | some sit =>
          exact (AllListings.lookupEntry hall
            (mem_of_getServerEntry hfound) path true now).1
  | getChangeTime server path =>
      show AllSummarized (cache.getChangeTime server path now).1
      unfold getChangeTime
      cases hfound : cache.getServerEntry server with
      | none => exact hall
      | some sit =>
          exact (AllListings.lookupEntry hall
            (mem_of_getServerEntry hfound) path true now).1
  | lookupFiles server path filenames flags =>
      exact lookupFiles_summarized hall server path filenames flags now
  | lookupFile server path filename flags =>
      exact lookupFiles_summarized hall server path [filename] flags now
  | lookupFileAnyCase server path filename =>
      exact lookupFileAnyCase_summarized hall server path filename now
  | invalidateFile server path filename =>
      exact invalidateFile_summarized hall server path filename now
  | updateFile server path filename mayCreate type size ownerGroup =>
      exact updateFile_summarized hall server path filename mayCreate type
        size ownerGroup now howner
  | removeFile server path filename =>
      exact removeFile_summarized hall server path filename now
  | invalidateServer server =>
      exact AllListings.invalidateServer hall server
  | removeDir server path filename =>
      exact removeDir_summarized hall server path filename now
  | rename server pathFrom fileFrom pathTo fileTo =>
      exact rename_summarized hall server pathFrom fileFrom pathTo fileTo now
  | updateOwnerGroup server path filename ownerGroup =>
      exact updateOwnerGroup_summarized hall server path filename ownerGroup
        now howner
  | setTtl ttl => exact hall

end DirectoryCache

open DirectoryListing DirectoryCache

/-! ## Listings in and outside of the cache -/

/-- Listings are copied to the cache and from it.  Those in `held` belong to
the operations of the engines and to the windows that show them. -/
structure ListingHolders where
  cache : DirectoryCache
  held : List DirectoryListing

inductive ListingOperation
  /-- A new listing without entries. -/
  | create (path : ServerPath)
  | assign (index : ℕ) (entries : List DirectoryEntry)
  | removeEntry (index entry : ℕ)
  | store (index : ℕ) (server : Server)
  | lookup (server : Server) (path : ServerPath) (allowUnsureEntries : Bool)
  /-- Any operation of the cache except for storing. -/
  | perform (operation : CacheOperation)
  deriving DecidableEq

namespace ListingHolders

def edit (holders : ListingHolders) (index : ℕ)
    (change : DirectoryListing → DirectoryListing) : Option ListingHolders :=
  holders.held[index]?.map fun listing =>
    { holders with held := holders.held.set index (change listing) }

def step (folding : NameFolding) (holders : ListingHolders)
    (operation : ListingOperation) (now : ℤ) : Option ListingHolders :=
  match operation with
  | .create path =>
      some { holders with
        held := holders.held ++ [⟨path, now, [], none, none, 0⟩] }
  | .assign index entries =>
      holders.edit index fun listing => listing.reassign entries
  | .removeEntry index entry =>
      holders.edit index fun listing => listing.removeEntry entry
  | .store index server =>
      holders.held[index]?.map fun listing =>
        { holders with cache := holders.cache.store listing server now }
  | .lookup server path allowUnsureEntries =>
      let found := holders.cache.lookup server path allowUnsureEntries now
      some ⟨found.1, holders.held ++ (found.2.map Prod.fst).toList⟩
  | .perform (.store _ _) => none
  | .perform operation =>
      some { holders with
        cache := holders.cache.perform folding operation now }

/-- An input is an operation and the time at which it runs. -/
def machine (folding : NameFolding) :
    LabelledRuns.Machine ListingHolders (ListingOperation × ℤ) Empty where
  initial holders := holders = ⟨DirectoryCache.initial, []⟩
  step holders input :=
    (holders.step folding input.1 input.2).map fun after => (after, [])

/-- The condition on the steps of a run. -/
def AddsNoUnknownOwner (folding : NameFolding) (holders : ListingHolders)
    (input : ListingOperation × ℤ) : Prop :=
  match input.1 with
  | .perform operation =>
      DirectoryCache.AddsNoUnknownOwner folding holders.cache operation
  | _ => True

/-- All listings there are. -/
structure Summarized (holders : ListingHolders) : Prop where
  cache : AllSummarized holders.cache
  held : ∀ listing ∈ holders.held, listing.Summarized

variable {holders after : ListingHolders} {folding : NameFolding}

theorem initial_summarized :
    (ListingHolders.mk DirectoryCache.initial []).Summarized where
  cache := by
    intro sit hsit
    exact absurd hsit List.not_mem_nil
  held := by
    intro listing hlisting
    exact absurd hlisting List.not_mem_nil

theorem Summarized.edit (hsum : holders.Summarized) {index : ℕ}
    {change : DirectoryListing → DirectoryListing}
    (hchange : ∀ listing : DirectoryListing, listing.Summarized →
      (change listing).Summarized)
    (hedit : holders.edit index change = some after) : after.Summarized := by
  obtain ⟨listing, hlisting, rfl⟩ := Option.map_eq_some_iff.mp hedit
  have hmem := List.mem_of_getElem? hlisting
  refine ⟨hsum.cache, ?_⟩
  intro other hother
  rcases List.mem_or_eq_of_mem_set hother with hold | rfl
  · exact hsum.held other hold
  · exact hchange listing (hsum.held listing hmem)

/-- One operation keeps the summaries of all listings. -/
theorem step_summarized (hsum : holders.Summarized)
    {operation : ListingOperation} {now : ℤ}
    (howner : AddsNoUnknownOwner folding holders (operation, now))
    (hstep : holders.step folding operation now = some after) :
    after.Summarized := by
  cases operation with
  | create path =>
      cases hstep
      refine ⟨hsum.cache, ?_⟩
      intro listing hlisting
      rcases List.mem_append.mp hlisting with hold | hnew
      · exact hsum.held listing hold
      · rw [List.mem_singleton.mp hnew]
        exact nofun
  | assign index entries =>
      apply hsum.edit _ hstep
      intro listing _
      exact summarized_reassign listing entries
  | removeEntry index entry =>
      apply hsum.edit _ hstep
      intro listing hlisting
      exact hlisting.removeEntry entry
  | store index server =>
      obtain ⟨listing, hlisting, rfl⟩ := Option.map_eq_some_iff.mp hstep
      have hmem := List.mem_of_getElem? hlisting
      exact ⟨AllListings.store hsum.cache (hsum.held listing hmem) server now,
        hsum.held⟩
  | lookup server path allowUnsureEntries =>
      cases hstep
      obtain ⟨hcache, hfound⟩ := lookup_listings hsum.cache server path
        allowUnsureEntries now
      refine ⟨hcache, ?_⟩
      intro listing hlisting
      rcases List.mem_append.mp hlisting with hold | hnew
      · exact hsum.held listing hold
      · obtain ⟨pair, hpair, rfl⟩ :=
          Option.map_eq_some_iff.mp (Option.mem_toList.mp hnew)
        exact hfound pair.1 pair.2 hpair
  | perform operation =>
      have hstored : ∀ listing server,
          operation ≠ .store listing server := by
        rintro listing server rfl
        cases hstep
      have hafter : after = { holders with
          cache := holders.cache.perform folding operation now } := by
        cases operation with
        | store listing server => exact absurd rfl (hstored listing server)
        | _ => exact (Option.some.inj hstep).symm
      rw [hafter]
      refine ⟨?_, hsum.held⟩
      apply perform_summarized hsum.cache operation now _ howner
      intro listing server heq
      exact absurd heq (hstored listing server)

end ListingHolders

/-- In every run in which no entry gets an owner in a listing whose flag for
owners is not set, the summary flags of all listings are sound. -/
theorem summary_flags_sound {folding : NameFolding}
    {inputs : List (ListingOperation × ℤ)} {outputs : List Empty}
    {holders : ListingHolders}
    (hreach : (ListingHolders.machine folding).ReachesWithin
      (ListingHolders.AddsNoUnknownOwner folding) inputs outputs holders) :
    (∀ sit ∈ holders.cache.serverList, ∀ cit ∈ sit.cacheList,
      cit.listing.Summarized) ∧
    ∀ listing ∈ holders.held, listing.Summarized := by
  have hsum : holders.Summarized := by
    apply hreach.stateInvariant ListingHolders.Summarized
    · intro state hinitial
      rw [show state = ⟨DirectoryCache.initial, []⟩ from hinitial]
      exact ListingHolders.initial_summarized
    · intro state input following answer hinv hallowed hstep
      obtain ⟨after, hafter, heq⟩ := Option.map_eq_some_iff.mp hstep
      rw [Prod.mk.injEq] at heq
      rw [← heq.1]
      exact ListingHolders.step_summarized hinv hallowed hafter
  exact ⟨hsum.cache, hsum.held⟩

def plainPath (segment : WString) : ServerPath :=
  ⟨some ⟨[segment], none⟩, .unix⟩

def ownedEntry (name ownerGroup : WString) : DirectoryEntry :=
  { plainEntry name with ownerGroup := ownerGroup }

def cacheOwned (ownerGroup : WString) : List (ListingOperation × ℤ) :=
  [(.create (plainPath ['a']), 0),
    (.assign 0 [ownedEntry ['x'] ownerGroup], 0),
    (.store 0 plainServer, 0)]

def addOwned : ListingOperation × ℤ :=
  (.perform (.updateFile plainServer (plainPath ['a']) ['y'] true .file 5
    ['o']), 1)

/-- Every listing has an owner, and its flag says so. -/
theorem summary_flags_sound_owned :
    ∃ holders : ListingHolders, holders.held ≠ [] ∧
      (∀ sit ∈ holders.cache.serverList, ∀ cit ∈ sit.cacheList,
        cit.listing.Summarized) ∧
      ∀ listing ∈ holders.held, listing.Summarized := by
  have hstart : (ListingHolders.machine plainFolding).ReachesWithin
      (fun _ input => input ∈ cacheOwned ['o']) [] []
      ⟨DirectoryCache.initial, []⟩ := .start rfl
  have hany : ((ListingHolders.machine plainFolding).exec
      (fun _ input => input ∈ cacheOwned ['o']) ⟨DirectoryCache.initial, []⟩
      (cacheOwned ['o'])).any
        (fun pair => !pair.1.held.isEmpty &&
          pair.1.cache.serverList.all fun sit => sit.cacheList.all fun cit =>
            cit.listing.flags &&& listingHasUsergroup != 0) = true := by
    decide +kernel
  obtain ⟨⟨holders, outputs⟩, hexec, hgood⟩ :=
    (Option.any_eq_true _ _).mp hany
  obtain ⟨hheld, hservers⟩ := Bool.and_eq_true_iff.mp hgood
  have hreach : (ListingHolders.machine plainFolding).ReachesWithin
      (ListingHolders.AddsNoUnknownOwner plainFolding) (cacheOwned ['o'])
      outputs holders := by
    apply (hstart.exec hexec).mono
    intro state input hinput
    simp only [cacheOwned, List.mem_cons, List.not_mem_nil,
      or_false] at hinput
    rcases hinput with rfl | rfl | rfl
    · trivial
    · trivial
    · trivial
  have hallowed : ListingHolders.AddsNoUnknownOwner plainFolding holders
      addOwned := by
    intro sit hsit cit hcit _
    have hmem := mem_of_getServerEntry hsit
    have hflag := List.all_eq_true.mp
      (List.all_eq_true.mp hservers sit hmem) cit hcit
    exact Or.inr (Or.inr (Or.inr (Or.inr (by simpa using hflag))))
  have hsound := summary_flags_sound (hreach.next hallowed rfl)
  exact ⟨_, by simpa using hheld, hsound⟩

/-- `UpdateFile` adds an owner to a listing that has none. -/
theorem added_owner_unflagged :
    ∃ inputs holders,
      (ListingHolders.machine plainFolding).Reaches inputs [] holders ∧
      ∃ sit ∈ holders.cache.serverList, ∃ cit ∈ sit.cacheList,
        ¬ cit.listing.Summarized := by
  have hstart : (ListingHolders.machine plainFolding).Reaches [] []
      ⟨DirectoryCache.initial, []⟩ := .start rfl
  have hany : ((ListingHolders.machine plainFolding).exec
      (fun _ _ => True) ⟨DirectoryCache.initial, []⟩
      (cacheOwned [] ++ [addOwned])).any
        (fun pair => pair.2.isEmpty && pair.1.cache.serverList.any fun sit =>
          sit.cacheList.any fun cit =>
            cit.listing.entries.any (fun entry => entry.ownerGroup != []) &&
              cit.listing.flags &&& listingHasUsergroup == 0) = true := by
    decide +kernel
  obtain ⟨⟨holders, outputs⟩, hexec, hbad⟩ :=
    (Option.any_eq_true _ _).mp hany
  obtain ⟨houtputs, hserver⟩ := Bool.and_eq_true_iff.mp hbad
  obtain ⟨sit, hsit, hentry⟩ := List.any_eq_true.mp hserver
  obtain ⟨cit, hcit, hflags⟩ := List.any_eq_true.mp hentry
  obtain ⟨howned, hzero⟩ := Bool.and_eq_true_iff.mp hflags
  obtain ⟨entry, hmem, howner⟩ := List.any_eq_true.mp howned
  have hempty : outputs = [] := List.isEmpty_iff.mp houtputs
  have hreach := hstart.exec hexec
  rw [hempty] at hreach
  refine ⟨_, holders, hreach, sit, hsit, cit, hcit, ?_⟩
  intro hsum
  exact (hsum entry hmem).usergroup (by simpa using howner)
    (by simpa using hzero)

end TabFtp
