import TabFtp.LazyIndex
import TabFtp.ListingSummary

/-!
# The name index of a listing

Names are looked up in two maps of a listing, one from names and one from
lower-case names.  Each is an index that is built while it is used, and the
operations that change entries drop both.  `ClearFindMap` does so only if the
first of them is there.
-/

namespace TabFtp

open DirectoryListing

namespace DirectoryListing

/-- The lookup that both maps share, where `find` is the one of the
`unordered_multimap`, which leaves open what it finds of several elements. -/
def findFileWith (find : SearchMap → WString → Option ℕ)
    (fold : WString → WString) (entries : List DirectoryEntry)
    (searchmap : Option SearchMap) (name : WString) :
    Option ℕ × Option SearchMap :=
  if entries.isEmpty then (none, searchmap)
  else
    let map := searchmap.getD []
    match find map (fold name) with
    | some i => (some i, some map)
    | none =>
        if map.length = entries.length then (none, some map)
        else
          let found := extendMap fold (fold name) (entries.drop map.length)
            map.length map
          (found.1, some found.2)

theorem findFileWith_lookup :
    findFileWith (fun map name => map.lookup name) = findFile := rfl

def foldName (folding : NameFolding) (anyCase : Bool) : WString → WString :=
  if anyCase then folding.lower else id

def keys (fold : WString → WString) (entries : List DirectoryEntry) :
    List WString :=
  entries.map fun entry => fold entry.name

/-! ## One map -/

variable {find : SearchMap → WString → Option ℕ} {fold : WString → WString}
  {entries : List DirectoryEntry} {searchmap : Option SearchMap}
  {name : WString}

theorem extendMap_eq (fold : WString → WString) (name : WString)
    (entries : List DirectoryEntry) (i : ℕ) (map : SearchMap) :
    extendMap fold name entries i map =
      LazyIndex.extend name (keys fold entries) i map := by
  induction entries generalizing i map with
  | nil => rfl
  | cons entry entries ih =>
      unfold extendMap keys
      rw [List.map_cons, LazyIndex.extend]
      split
      · rfl
      · exact ih (i + 1) _

def Indexed (fold : WString → WString) (entries : List DirectoryEntry)
    (searchmap : Option SearchMap) : Prop :=
  LazyIndex.Indexes (keys fold entries) (searchmap.getD [])

def FoundOnce (fold : WString → WString) (entries : List DirectoryEntry)
    (searchmap : Option SearchMap) (name : WString) : Prop :=
  LazyIndex.Once (keys fold entries) (searchmap.getD []).length (fold name)

instance (fold : WString → WString) (entries : List DirectoryEntry)
    (searchmap : Option SearchMap) (name : WString) :
    Decidable (FoundOnce fold entries searchmap name) :=
  inferInstanceAs (Decidable (_ ≤ 1))

def firstIndex (fold : WString → WString) (entries : List DirectoryEntry)
    (name : WString) : Option ℕ :=
  entries.findIdx? fun entry => decide (fold entry.name = fold name)

theorem firstIndex_eq (fold : WString → WString)
    (entries : List DirectoryEntry) (name : WString) :
    firstIndex fold entries name =
      (keys fold entries).findIdx? fun key => decide (key = fold name) := by
  unfold firstIndex keys
  rw [List.findIdx?_map]
  rfl

theorem findFileWith_eq (hentries : entries ≠ []) :
    findFileWith find fold entries searchmap name =
      ((LazyIndex.search find (keys fold entries) (searchmap.getD [])
          (fold name)).1,
        some (LazyIndex.search find (keys fold entries) (searchmap.getD [])
          (fold name)).2) := by
  have hempty : ¬ entries.isEmpty = true := by
    rw [List.isEmpty_iff]
    exact hentries
  unfold findFileWith LazyIndex.search
  rw [if_neg hempty]
  simp only
  cases find (searchmap.getD []) (fold name) with
  | some i => rfl
  | none =>
      simp only
      rw [extendMap_eq]
      have hdrop : keys fold (entries.drop (searchmap.getD []).length) =
          (keys fold entries).drop (searchmap.getD []).length :=
        List.map_drop
      rw [hdrop]
      by_cases hfull : (searchmap.getD []).length = entries.length
      · have hnothing : (keys fold entries).drop (searchmap.getD []).length =
            [] := by
          apply List.drop_eq_nil_of_le
          rw [hfull]
          exact (List.length_map _).le
        rw [if_pos hfull, hnothing]
        rfl
      · rw [if_neg hfull]

theorem findFileWith_spec (hfind : LazyIndex.Finds find)
    (hindexed : Indexed fold entries searchmap)
    (honce : FoundOnce fold entries searchmap name) :
    (findFileWith find fold entries searchmap name).1 =
        firstIndex fold entries name ∧
      Indexed fold entries
        (findFileWith find fold entries searchmap name).2 := by
  by_cases hentries : entries = []
  · subst hentries
    exact ⟨rfl, hindexed⟩
  · obtain ⟨hanswer, hindex⟩ :=
      LazyIndex.search_spec hfind hindexed honce
    rw [findFileWith_eq hentries, firstIndex_eq]
    exact ⟨hanswer, hindex⟩

theorem indexed_none (fold : WString → WString)
    (entries : List DirectoryEntry) : Indexed fold entries none :=
  LazyIndex.indexes_nil _

theorem Indexed.append (hindexed : Indexed fold entries searchmap)
    (entry : DirectoryEntry) :
    Indexed fold (entries ++ [entry]) searchmap := by
  unfold Indexed keys
  rw [List.map_append]
  exact LazyIndex.Indexes.append hindexed _

/-- The name of an entry that the map does not have yet may change, and that
of any other entry as long as the map does not tell them apart. -/
def KeepsKey (fold : WString → WString) (entries : List DirectoryEntry)
    (searchmap : Option SearchMap) (index : ℕ) (name : WString) : Prop :=
  (searchmap.getD []).length ≤ index ∨
    (keys fold entries)[index]? = some (fold name)

instance (fold : WString → WString) (entries : List DirectoryEntry)
    (searchmap : Option SearchMap) (index : ℕ) (name : WString) :
    Decidable (KeepsKey fold entries searchmap index name) :=
  inferInstanceAs (Decidable (_ ∨ _))

theorem Indexed.rename (hindexed : Indexed fold entries searchmap)
    {index : ℕ} {entry : DirectoryEntry}
    (hkeeps : KeepsKey fold entries searchmap index entry.name) :
    Indexed fold (entries.set index entry) searchmap := by
  unfold Indexed keys
  rw [List.map_set]
  exact LazyIndex.Indexes.set hindexed hkeeps

end DirectoryListing

/-! ## Both maps of a listing -/

/-- Calls that use or change the entries of one listing. -/
inductive ListingAccess
  | findFileCmpCase (name : WString)
  | findFileCmpNoCase (name : WString)
  | append (entry : DirectoryEntry)
  | removeEntry (index : ℕ)
  | assign (entries : List DirectoryEntry)
  /-- The name of an entry is changed, and `ClearFindMap` is called. -/
  | rename (index : ℕ) (name : WString)

/-- What a lookup was asked, about which entries, and its answer. -/
structure NameSearch where
  anyCase : Bool
  name : WString
  entries : List DirectoryEntry
  answer : Option ℕ
  deriving DecidableEq

/-- The answer is the first entry with the name, if there is one. -/
def NameSearch.Right (folding : NameFolding) (search : NameSearch) : Prop :=
  search.answer =
    firstIndex (foldName folding search.anyCase) search.entries search.name

namespace ListingAccess

def step (find : SearchMap → WString → Option ℕ) (folding : NameFolding)
    (listing : DirectoryListing) (access : ListingAccess) :
    Option (DirectoryListing × List NameSearch) :=
  match access with
  | .findFileCmpCase name =>
      let found := findFileWith find id listing.entries
        listing.searchmapCase name
      some ({ listing with searchmapCase := found.2 },
        [⟨false, name, listing.entries, found.1⟩])
  | .findFileCmpNoCase name =>
      let found := findFileWith find folding.lower listing.entries
        listing.searchmapNocase name
      some ({ listing with searchmapNocase := found.2 },
        [⟨true, name, listing.entries, found.1⟩])
  | .append entry => some (listing.append entry, [])
  | .removeEntry index => some (listing.removeEntry index, [])
  | .assign entries => some (listing.reassign entries, [])
  | .rename index name =>
      listing.entries[index]?.map fun entry =>
        ({ listing with
            entries := listing.entries.set index
              { entry with name := name } }.clearFindMap, [])

def machine (find : SearchMap → WString → Option ℕ) (folding : NameFolding) :
    LabelledRuns.Machine DirectoryListing ListingAccess NameSearch where
  initial listing :=
    listing.searchmapCase = none ∧ listing.searchmapNocase = none
  step listing access := access.step find folding listing

/-- The condition on the steps of a run. -/
def KeepsIndex (folding : NameFolding) (listing : DirectoryListing)
    (access : ListingAccess) : Prop :=
  match access with
  | .findFileCmpCase name =>
      FoundOnce id listing.entries listing.searchmapCase name
  | .findFileCmpNoCase name =>
      FoundOnce folding.lower listing.entries listing.searchmapNocase name
  | .rename index name =>
      listing.searchmapCase ≠ none ∨
        KeepsKey folding.lower listing.entries listing.searchmapNocase index
          name
  | _ => True

instance (folding : NameFolding) (listing : DirectoryListing)
    (access : ListingAccess) : Decidable (KeepsIndex folding listing access) :=
  match access with
  | .findFileCmpCase _ => inferInstanceAs (Decidable (FoundOnce _ _ _ _))
  | .findFileCmpNoCase _ => inferInstanceAs (Decidable (FoundOnce _ _ _ _))
  | .rename _ _ => inferInstanceAs (Decidable (_ ∨ _))
  | .append _ => inferInstanceAs (Decidable True)
  | .removeEntry _ => inferInstanceAs (Decidable True)
  | .assign _ => inferInstanceAs (Decidable True)

structure Indexed (folding : NameFolding) (listing : DirectoryListing) :
    Prop where
  exact : DirectoryListing.Indexed id listing.entries listing.searchmapCase
  nocase : DirectoryListing.Indexed folding.lower listing.entries
    listing.searchmapNocase

variable {find : SearchMap → WString → Option ℕ} {folding : NameFolding}
  {listing following : DirectoryListing}

theorem indexed_of_none (hcase : listing.searchmapCase = none)
    (hnocase : listing.searchmapNocase = none) : Indexed folding listing := by
  constructor
  · rw [hcase]
    exact indexed_none _ _
  · rw [hnocase]
    exact indexed_none _ _

theorem Indexed.removeEntry (hindexed : Indexed folding listing)
    (index : ℕ) : Indexed folding (listing.removeEntry index) := by
  unfold DirectoryListing.removeEntry
  cases listing.entries[index]? with
  | none => exact hindexed
  | some entry => exact indexed_of_none rfl rfl

theorem Indexed.clearFindMap
    (hnocase : listing.searchmapCase = none →
      DirectoryListing.Indexed folding.lower listing.entries
        listing.searchmapNocase) : Indexed folding listing.clearFindMap := by
  unfold DirectoryListing.clearFindMap
  cases hcase : listing.searchmapCase with
  | none =>
      constructor
      · rw [hcase]
        exact indexed_none _ _
      · exact hnocase hcase
  | some map => exact indexed_of_none rfl rfl

/-- One access keeps the index, and its answer is right. -/
theorem step_indexed (hfind : LazyIndex.Finds find)
    (hindexed : Indexed folding listing) {access : ListingAccess}
    {answer : List NameSearch} (hkeeps : KeepsIndex folding listing access)
    (hstep : access.step find folding listing = some (following, answer)) :
    Indexed folding following ∧ ∀ search ∈ answer, search.Right folding := by
  cases access with
  | findFileCmpCase name =>
      obtain ⟨hanswer, hmap⟩ := findFileWith_spec hfind hindexed.exact hkeeps
      cases hstep
      refine ⟨⟨hmap, hindexed.nocase⟩, ?_⟩
      intro search hsearch
      rw [List.mem_singleton.mp hsearch]
      exact hanswer
  | findFileCmpNoCase name =>
      obtain ⟨hanswer, hmap⟩ := findFileWith_spec hfind hindexed.nocase hkeeps
      cases hstep
      refine ⟨⟨hindexed.exact, hmap⟩, ?_⟩
      intro search hsearch
      rw [List.mem_singleton.mp hsearch]
      exact hanswer
  | append entry =>
      cases hstep
      exact ⟨⟨hindexed.exact.append entry, hindexed.nocase.append entry⟩,
        nofun⟩
  | removeEntry index =>
      cases hstep
      exact ⟨hindexed.removeEntry index, nofun⟩
  | assign entries =>
      cases hstep
      exact ⟨indexed_of_none rfl rfl, nofun⟩
  | rename index name =>
      obtain ⟨entry, _, heq⟩ := Option.map_eq_some_iff.mp hstep
      rw [Prod.mk.injEq] at heq
      obtain ⟨rfl, rfl⟩ := heq
      refine ⟨?_, nofun⟩
      apply Indexed.clearFindMap
      intro hcase
      apply hindexed.nocase.rename
      exact hkeeps.resolve_left (not_not_intro hcase)

end ListingAccess

/-- In every run in which no name that is looked up is there twice in a map,
and in which no entry is renamed that only the map of lower-case names has,
each lookup finds the first entry with its name. -/
theorem name_index_agrees {find : SearchMap → WString → Option ℕ}
    (hfind : LazyIndex.Finds find) {folding : NameFolding}
    {accesses : List ListingAccess} {searches : List NameSearch}
    {listing : DirectoryListing}
    (hreach : (ListingAccess.machine find folding).ReachesWithin
      (ListingAccess.KeepsIndex folding) accesses searches listing) :
    ∀ search ∈ searches, search.Right folding := by
  apply hreach.outputs_all (ListingAccess.Indexed folding)
  · intro state hinitial
    exact ListingAccess.indexed_of_none hinitial.1 hinitial.2
  · intro state access following answer hinv hkeeps hstep
    exact ListingAccess.step_indexed hfind hinv hkeeps hstep

theorem finds_lookup :
    LazyIndex.Finds fun (map : SearchMap) name => map.lookup name where
  found := by
    intro map name i hfound
    induction map with
    | nil => cases hfound
    | cons pair map ih =>
        rw [List.lookup_cons] at hfound
        cases hsame : name == pair.1 with
        | true =>
            rw [hsame, Option.some.injEq] at hfound
            rw [eq_of_beq hsame, ← hfound]
            exact List.mem_cons_self
        | false =>
            rw [hsame] at hfound
            exact List.mem_cons_of_mem _ (ih hfound)
  missed := by
    intro map name hfound i hmem
    rw [List.lookup_eq_none_iff] at hfound
    exact absurd (hfound _ hmem) (by simp)

/-- An entry is found, renamed and found again. -/
theorem name_index_agrees_renamed :
    (NameSearch.mk false ['x'] [plainEntry ['x']] (some 0)).Right
        plainFolding ∧
      (NameSearch.mk true ['y'] [plainEntry ['y']] (some 0)).Right
        plainFolding := by
  let listing : DirectoryListing := plainListing ['a'] ['x']
  have hstart : (ListingAccess.machine (fun map name => map.lookup name)
      plainFolding).ReachesWithin (ListingAccess.KeepsIndex plainFolding)
        [] [] listing := .start ⟨rfl, rfl⟩
  have hexec : (ListingAccess.machine (fun map name => map.lookup name)
      plainFolding).exec (ListingAccess.KeepsIndex plainFolding) listing
        [.findFileCmpCase ['x'], .rename 0 ['y'],
          .findFileCmpNoCase ['y']] =
      some ({ listing with
          entries := [plainEntry ['y']]
          searchmapNocase := some [(['y'], 0)] },
        [⟨false, ['x'], [plainEntry ['x']], some 0⟩,
          ⟨true, ['y'], [plainEntry ['y']], some 0⟩]) := by
    decide +kernel
  have hright := name_index_agrees finds_lookup (hstart.exec hexec)
  exact ⟨hright _ (by simp), hright _ (by simp)⟩

/-- `ClearFindMap` keeps a map of lower-case names that is the only one. -/
theorem renamed_entry_still_found :
    ∃ accesses searches listing,
      (ListingAccess.machine (fun map name => map.lookup name)
        plainFolding).Reaches accesses searches listing ∧
      ∃ search ∈ searches, ¬ search.Right plainFolding := by
  let listing : DirectoryListing := plainListing ['a'] ['x']
  have hstart : (ListingAccess.machine (fun map name => map.lookup name)
      plainFolding).Reaches [] [] listing := .start ⟨rfl, rfl⟩
  have hexec : (ListingAccess.machine (fun map name => map.lookup name)
      plainFolding).exec (fun _ _ => True) listing
        [.findFileCmpNoCase ['x'], .rename 0 ['y'],
          .findFileCmpNoCase ['x']] =
      some ({ listing with
          entries := [plainEntry ['y']]
          searchmapNocase := some [(['x'], 0)] },
        [⟨true, ['x'], [plainEntry ['x']], some 0⟩,
          ⟨true, ['x'], [plainEntry ['y']], some 0⟩]) := by
    decide +kernel
  refine ⟨_, _, _, hstart.exec hexec,
    ⟨true, ['x'], [plainEntry ['y']], some 0⟩, by simp, ?_⟩
  unfold NameSearch.Right
  decide

end TabFtp
