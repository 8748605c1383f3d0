import TabFtp.DirectoryCacheAccounting

/-!
# The listings of the directory cache

A property of listings that holds of all cached ones is kept by the
containers of the cache, as long as what is written to them has it.
-/

namespace TabFtp

open UniqueKeys

namespace DirectoryCache

def AllListings (holds : DirectoryListing → Prop) (cache : DirectoryCache) :
    Prop :=
  ∀ sit ∈ cache.serverList, ∀ cit ∈ sit.cacheList, holds cit.listing

variable {cache : DirectoryCache} {sit : ServerEntry} {cit : CacheEntry}
  {holds : DirectoryListing → Prop}

theorem AllListings.writeList {cacheList : List CacheEntry}
    (hall : AllListings holds cache) (sit : ℕ)
    (hentries : ∀ cit ∈ cacheList, holds cit.listing) :
    AllListings holds (cache.writeList sit cacheList) := by
  intro server hserver
  obtain ⟨source, hsource, rfl⟩ := List.mem_map.mp hserver
  by_cases hid : source.id = sit
  · rw [if_pos hid]
    exact hentries
  · rw [if_neg hid]
    exact hall source hsource

theorem AllListings.writeEntry
    (hall : AllListings holds cache) (sit : ℕ) (hcit : holds cit.listing) :
    AllListings holds (cache.writeEntry sit cit) := by
  intro server hserver
  obtain ⟨source, hsource, rfl⟩ := List.mem_map.mp hserver
  by_cases hid : source.id = sit
  · rw [if_pos hid]
    intro written hwritten
    obtain ⟨other, hother, rfl⟩ := List.mem_map.mp hwritten
    by_cases hsame : other.id = cit.id
    · rw [if_pos hsame]
      exact hcit
    · rw [if_neg hsame]
      exact hall source hsource other hother
  · rw [if_neg hid]
    exact hall source hsource

@[simp] theorem update_listing (lru : LruList) (sit : ℕ) (cit : CacheEntry) :
    (lru.update sit cit).2.listing = cit.listing := by
  unfold LruList.update
  cases cit.lruIt with
  | none => rfl
  | some node => rfl

theorem AllListings.updateLru
    (hall : AllListings holds cache) (sit : ℕ) (hcit : holds cit.listing) :
    AllListings holds (cache.updateLru sit cit).1 ∧
      (cache.updateLru sit cit).2.listing = cit.listing := by
  constructor
  · have htouched : AllListings holds { cache with
        leastRecentlyUsedList :=
          (cache.leastRecentlyUsedList.update sit cit).1 } := hall
    apply htouched.writeEntry sit
    rw [update_listing]
    exact hcit
  · exact update_listing _ _ _

theorem AllListings.lookupEntry
    (hall : AllListings holds cache) (hsit : sit ∈ cache.serverList)
    (path : ServerPath) (allowUnsureEntries : Bool) (now : ℤ) :
    AllListings holds
        (cache.lookupEntry sit path allowUnsureEntries now).1 ∧
      ∀ found outdated,
        (cache.lookupEntry sit path allowUnsureEntries now).2 =
            some (found, outdated) →
          ∃ entry ∈ sit.cacheList, entry.path = path ∧
            found.listing = entry.listing := by
  unfold DirectoryCache.lookupEntry
  cases hfind : CacheEntry.find path sit.cacheList with
  | none =>
      refine ⟨hall, ?_⟩
      intro found outdated hfound
      exact absurd hfound (Option.some_ne_none _).symm
  | some entry =>
      have hmem := OrderedSet.lowerBound_mem hfind
      obtain ⟨htouched, hlisting⟩ :=
        hall.updateLru sit.id (hall sit hsit entry hmem)
      simp only
      by_cases hsame : entry.listing.path.same path = true
      · rw [if_pos hsame]
        split
        · refine ⟨htouched, ?_⟩
          intro found outdated hfound
          exact absurd hfound (Option.some_ne_none _).symm
        · refine ⟨htouched, ?_⟩
          intro found outdated hfound
          simp only [Option.some.injEq, Prod.mk.injEq] at hfound
          rw [← hfound.1]
          exact ⟨entry, hmem, (ServerPath.same_iff _ _).mp hsame, hlisting⟩
      · rw [if_neg hsame]
        refine ⟨hall, ?_⟩
        intro found outdated hfound
        exact absurd hfound (Option.some_ne_none _).symm

theorem lookupEntry_unchanged {path : ServerPath} {now : ℤ}
    {looked : DirectoryCache}
    (hlookup : cache.lookupEntry sit path true now = (looked, none)) :
    looked = cache := by
  unfold DirectoryCache.lookupEntry at hlookup
  cases hfind : CacheEntry.find path sit.cacheList with
  | none =>
      rw [hfind] at hlookup
      exact (congrArg Prod.fst hlookup).symm
  | some entry =>
      rw [hfind] at hlookup
      simp only [Bool.not_true, Bool.false_and, Bool.false_eq_true,
        if_false] at hlookup
      split at hlookup
      · cases hlookup
      · exact (congrArg Prod.fst hlookup).symm

theorem visitEntries_listings {isMatch : CacheEntry → Bool}
    {edit : DirectoryListing → DirectoryListing × ℤ} (sit : ℕ) (now : ℤ)
    (lru : LruList) (entries : List CacheEntry)
    (hentries : ∀ cit ∈ entries, holds cit.listing)
    (hedit : ∀ cit ∈ entries, isMatch cit = true →
      holds (edit cit.listing).1) :
    ∀ cit ∈ (visitEntries sit isMatch edit now lru entries).2.1,
      holds cit.listing := by
  induction entries generalizing lru with
  | nil => simp [visitEntries]
  | cons entry entries ih =>
      have hrest := fun lru => ih lru
        (fun cit hcit => hentries cit (List.mem_cons_of_mem _ hcit))
        (fun cit hcit => hedit cit (List.mem_cons_of_mem _ hcit))
      unfold visitEntries
      by_cases hmatch : isMatch entry = true
      · rw [if_pos hmatch]
        intro cit hcit
        rcases List.mem_cons.mp hcit with rfl | hcit
        · exact hedit entry List.mem_cons_self hmatch
        · exact hrest _ cit hcit
      · rw [if_neg hmatch]
        intro cit hcit
        rcases List.mem_cons.mp hcit with rfl | hcit
        · exact hentries cit List.mem_cons_self
        · exact hrest _ cit hcit

theorem AllListings.visit {isMatch : CacheEntry → Bool}
    {edit : DirectoryListing → DirectoryListing × ℤ}
    (hall : AllListings holds cache) (hsit : sit ∈ cache.serverList)
    (now : ℤ)
    (hedit : ∀ cit ∈ sit.cacheList, isMatch cit = true →
      holds (edit cit.listing).1) :
    AllListings holds (cache.visit sit isMatch edit now) := by
  have hcounted : AllListings holds { cache with
      leastRecentlyUsedList := (visitEntries sit.id isMatch edit now
        cache.leastRecentlyUsedList sit.cacheList).1
      totalFileCount := cache.totalFileCount + (visitEntries sit.id isMatch
        edit now cache.leastRecentlyUsedList sit.cacheList).2.2 } := hall
  exact hcounted.writeList sit.id
    (visitEntries_listings sit.id now _ _ (hall sit hsit) hedit)

/-! ## Removing listings -/

theorem eraseAt_listings {serverList : List ServerEntry} (pos : LruNode)
    (hall : ∀ sit ∈ serverList, ∀ cit ∈ sit.cacheList, holds cit.listing) :
    ∀ sit ∈ eraseAt serverList pos, ∀ cit ∈ sit.cacheList,
      holds cit.listing := by
  intro sit hsit
  obtain ⟨source, hsource, rfl⟩ :=
    List.mem_map.mp (List.mem_filter.mp hsit).1
  by_cases hid : source.id = pos.server
  · rw [if_pos hid]
    intro cit hcit
    exact hall source hsource cit (List.mem_filter.mp hcit).1
  · rw [if_neg hid]
    exact hall source hsource

theorem pruneLoop_listings (nodes : List LruNode)
    (serverList : List ServerEntry) (totalFileCount : ℤ)
    (hall : ∀ sit ∈ serverList, ∀ cit ∈ sit.cacheList, holds cit.listing) :
    ∀ sit ∈ (pruneLoop nodes serverList totalFileCount).2.1,
      ∀ cit ∈ sit.cacheList, holds cit.listing := by
  induction nodes generalizing serverList totalFileCount with
  | nil => exact hall
  | cons pos nodes ih =>
      unfold pruneLoop
      split
      · exact ih _ _ (eraseAt_listings pos hall)
      · exact hall

theorem AllListings.prune (hall : AllListings holds cache) :
    AllListings holds cache.prune :=
  pruneLoop_listings _ _ _ hall

theorem AllListings.invalidateServer
    (hall : AllListings holds cache) (server : Server) :
    AllListings holds (cache.invalidateServer server) := by
  unfold DirectoryCache.invalidateServer
  cases cache.getServerEntry server with
  | none => exact hall
  | some sit =>
      intro other hother
      exact hall other (List.mem_filter.mp hother).1

theorem AllListings.eraseEntries
    (hall : AllListings holds cache) (hsit : sit ∈ cache.serverList)
    (isErased : CacheEntry → Bool) :
    AllListings holds (cache.eraseEntries sit isErased) := by
  have hcounted : AllListings holds { cache with
      leastRecentlyUsedList := eraseNodes cache.leastRecentlyUsedList
        (sit.cacheList.filter isErased)
      totalFileCount := cache.totalFileCount -
        fileCount (sit.cacheList.filter isErased) } := hall
  apply hcounted.writeList sit.id
  intro cit hcit
  exact hall sit hsit cit (List.mem_filter.mp hcit).1

/-! ## Storing -/

theorem AllListings.createServerEntry
    (hall : AllListings holds cache) (server : Server) :
    AllListings holds (cache.createServerEntry server).1 ∧
      (cache.createServerEntry server).2 ∈
        (cache.createServerEntry server).1.serverList := by
  unfold DirectoryCache.createServerEntry
  cases hfound : cache.getServerEntry server with
  | some sit => exact ⟨hall, mem_of_getServerEntry hfound⟩
  | none =>
      constructor
      · intro sit hsit
        rcases List.mem_append.mp hsit with hold | hnew
        · exact hall sit hold
        · rw [List.mem_singleton.mp hnew]
          intro cit hcit
          exact absurd hcit List.not_mem_nil
      · exact List.mem_append_right _ (List.mem_singleton_self _)

theorem AllListings.insertListing {listing : DirectoryListing}
    (hall : AllListings holds cache) (hsit : sit ∈ cache.serverList)
    (hlisting : holds listing) (now : ℤ) :
    AllListings holds (cache.insertListing sit listing now) := by
  have hentries : ∀ cit ∈ (OrderedSet.emplace CacheEntry.path ServerPath.less
      ⟨cache.nextEntry, listing, now, none⟩ sit.cacheList).1,
      holds cit.listing := by
    intro cit hcit
    rcases OrderedSet.emplace_cases ⟨cache.nextEntry, listing, now, none⟩
        sit.cacheList with ⟨_, hperm⟩ | ⟨hkept, _⟩
    · rcases List.mem_cons.mp (hperm.mem_iff.mp hcit) with rfl | hold
      · exact hlisting
      · exact hall sit hsit cit hold
    · rw [hkept] at hcit
      exact hall sit hsit cit hcit
  have hself := hentries _ (OrderedSet.mem_emplace_self _ _)
  have hcounted : AllListings holds
      { cache with nextEntry := cache.nextEntry + 1 } := hall
  exact ((hcounted.writeList sit.id hentries).updateLru sit.id hself).1

theorem AllListings.store {listing : DirectoryListing}
    (hall : AllListings holds cache) (hlisting : holds listing)
    (server : Server) (now : ℤ) :
    AllListings holds (cache.store listing server now) := by
  obtain ⟨hcreated, hsit⟩ := hall.createServerEntry server
  have hcounted : AllListings holds { (cache.createServerEntry server).1 with
      totalFileCount := (cache.createServerEntry server).1.totalFileCount +
        listing.size } := hcreated
  obtain ⟨hlooked, _⟩ := hcounted.lookupEntry hsit listing.path true now
  unfold DirectoryCache.store
  simp only
  split
  · rename_i looked cit outdated hlookup
    rw [hlookup] at hlooked
    have hless : AllListings holds { looked with
        totalFileCount := looked.totalFileCount - cit.listing.size } :=
      hlooked
    exact hless.writeEntry _ hlisting
  · rename_i looked hlookup
    rw [lookupEntry_unchanged hlookup]
    exact (hcounted.insertListing hsit hlisting now).prune

end DirectoryCache

end TabFtp
