import TabFtp.DirectoryCacheAccounting

/-!
# The limits of the directory cache

Storing a listing ends with pruning, but only where the listing is a new one.
Between two such operations the number of files can grow without bound, both
by files that are added to cached listings and by listings that take the
place of smaller ones.
-/

namespace TabFtp

namespace DirectoryCache

/-- No condition of the loop in `Prune` holds. -/
def WithinLimits (cache : DirectoryCache) : Prop :=
  tooLarge cache.leastRecentlyUsedList.nodes.length cache.totalFileCount =
    false

/-- Where the server has a listing with the path already, the files of the
new one instead of those of the old one are not too many. -/
def ReplacesWithin (cache : DirectoryCache) (listing : DirectoryListing)
    (server : Server) : Prop :=
  ∀ sit, cache.getServerEntry server = some sit →
    ∀ cit ∈ sit.cacheList, cit.path = listing.path →
      tooLarge cache.leastRecentlyUsedList.nodes.length
        (cache.totalFileCount + listing.size - cit.listing.size) = false

variable {cache : DirectoryCache} {sit : ServerEntry}

/-! ## Pruning -/

theorem pruneLoop_within (nodes : List LruNode)
    (serverList : List ServerEntry) (totalFileCount : ℤ) :
    tooLarge (pruneLoop nodes serverList totalFileCount).1.length
      (pruneLoop nodes serverList totalFileCount).2.2 = false := by
  induction nodes generalizing serverList totalFileCount with
  | nil => simp [pruneLoop, tooLarge]
  | cons pos nodes ih =>
      unfold pruneLoop
      by_cases hlarge : tooLarge (nodes.length + 1) totalFileCount = true
      · rw [if_pos hlarge]
        exact ih _ _
      · rw [if_neg hlarge]
        simpa using hlarge

theorem prune_within (cache : DirectoryCache) : cache.prune.WithinLimits :=
  pruneLoop_within _ _ _

/-! ## The two ways out of `Store` -/

theorem Reordered.length {following : DirectoryCache}
    (hreordered : Reordered cache following) :
    following.leastRecentlyUsedList.nodes.length =
      cache.leastRecentlyUsedList.nodes.length := by
  obtain ⟨lru, rfl, _, hperm⟩ := hreordered
  exact hperm.length_eq

theorem createServerEntry_counts (cache : DirectoryCache) (server : Server) :
    (cache.createServerEntry server).1.leastRecentlyUsedList =
        cache.leastRecentlyUsedList ∧
      (cache.createServerEntry server).1.totalFileCount =
        cache.totalFileCount := by
  unfold createServerEntry
  cases cache.getServerEntry server with
  | some sit => exact ⟨rfl, rfl⟩
  | none => exact ⟨rfl, rfl⟩

theorem replacesWithin_iff {listing : DirectoryListing} {server : Server} :
    cache.ReplacesWithin listing server ↔
      ∀ cit ∈ (cache.createServerEntry server).2.cacheList,
        cit.path = listing.path →
          tooLarge cache.leastRecentlyUsedList.nodes.length
            (cache.totalFileCount + listing.size - cit.listing.size) =
              false := by
  unfold ReplacesWithin
  rw [createServerEntry_entries]
  cases cache.getServerEntry server with
  | some sit => simp
  | none => simp

theorem Consistent.eq_of_path {cit other : CacheEntry}
    (hcons : Consistent cache) (hsit : sit ∈ cache.serverList)
    (hcit : cit ∈ sit.cacheList) (hother : other ∈ sit.cacheList)
    (hpath : cit.path = other.path) : cit = other := by
  have hfirst := find_of_mem hcons hsit hcit
  have hsecond := find_of_mem hcons hsit hother
  rw [hpath, hsecond, Option.some.injEq] at hfirst
  exact hfirst.symm

theorem storeEntry_within
    (hcons : Consistent cache) (hsit : sit ∈ cache.serverList)
    (listing : DirectoryListing) (now : ℤ) (stored : DirectoryCache)
    (hstored : stored =
      match cache.lookupEntry sit listing.path true now with
      | (cache, some (cit, _)) => cache.replaceListing sit.id cit listing now
      | (cache, none) => (cache.insertListing sit listing now).prune) :
    stored.WithinLimits ↔
      ∀ cit ∈ sit.cacheList, cit.path = listing.path →
        tooLarge cache.leastRecentlyUsedList.nodes.length
          (cache.totalFileCount - cit.listing.size) = false := by
  have hreordered := lookupEntry_reordered hcons hsit listing.path true now
  rcases hlookup : cache.lookupEntry sit listing.path true now with
    ⟨looked, found⟩
  rw [hlookup] at hstored hreordered
  cases found with
  | some pair =>
      obtain ⟨cit, outdated⟩ := pair
      obtain ⟨_, _, _, hcit, hpath⟩ := lookupEntry_found hcons hsit hlookup
      have hlimits : stored.WithinLimits ↔
          tooLarge cache.leastRecentlyUsedList.nodes.length
            (cache.totalFileCount - cit.listing.size) = false := by
        rw [hstored, ← hreordered.length, ← hreordered.totalFileCount]
        rfl
      rw [hlimits]
      constructor
      · intro hwithin other hother hsame
        rw [hcons.eq_of_path hsit hother hcit (hsame.trans hpath.symm)]
        exact hwithin
      · intro hall
        exact hall cit hcit hpath
  | none =>
      obtain ⟨_, _, habsent⟩ := lookupEntry_missed hcons hsit hlookup
      have hpruned : stored.WithinLimits := by
        rw [hstored]
        exact prune_within _
      constructor
      · intro _ cit hcit hsame
        exact absurd hsame (habsent cit hcit)
      · intro _
        exact hpruned

/-- Only a listing that replaces another one can exceed the limits. -/
theorem Consistent.store_within
    (hcons : Consistent cache) (listing : DirectoryListing) (server : Server)
    (now : ℤ) :
    (cache.store listing server now).WithinLimits ↔
      cache.ReplacesWithin listing server := by
  obtain ⟨hcreated, hsit⟩ := createServerEntry_keeps hcons server
  obtain ⟨hlru, htotal⟩ := createServerEntry_counts cache server
  have hcounted := hcreated.consistent.reorder
    ((cache.createServerEntry server).1.totalFileCount + listing.size) rfl
    (List.Perm.refl _)
  rw [storeEntry_within hcounted hsit listing now
    (cache.store listing server now) rfl, replacesWithin_iff]
  simp only [hlru, htotal]

end DirectoryCache

open DirectoryCache

/-- After any run, storing a listing leaves the cache within its limits
exactly if the listing is a new one or replaces one that is large enough. -/
theorem store_limits_iff {folding : NameFolding}
    {inputs : List (CacheOperation × ℤ)} {outputs : List Empty}
    {cache : DirectoryCache}
    (hreach : (machine folding).Reaches inputs outputs cache)
    (listing : DirectoryListing) (server : Server) (now : ℤ) :
    (cache.store listing server now).WithinLimits ↔
      cache.ReplacesWithin listing server :=
  (reaches_consistent hreach).store_within listing server now

def emptyListing (segment : WString) : DirectoryListing :=
  ⟨⟨some ⟨[segment], none⟩, .unix⟩, 0, [], none, none, 0⟩

def manyStores : List (CacheOperation × ℤ) :=
  (List.range 101).map fun n =>
    (.store (emptyListing [Char.ofNat (n + 97)]) plainServer, 0)

def manyListings : DirectoryCache :=
  performed plainFolding manyStores

/-- One of the directories has got files. -/
def grownListing (files : ℕ) : DirectoryListing :=
  { emptyListing ['a'] with
    entries := List.replicate files (plainEntry ['x']) }

theorem manyListings_counts :
    manyListings.leastRecentlyUsedList.nodes.length = 101 ∧
      manyListings.totalFileCount = 0 ∧
      ∃ sit, manyListings.getServerEntry plainServer = some sit ∧
        (∃ cit ∈ sit.cacheList, cit.path = (grownListing 0).path) ∧
        ∀ cit ∈ sit.cacheList, cit.listing.size = 0 := by
  -- the run is evaluated once for all
  have hcounts : manyListings.leastRecentlyUsedList.nodes.length = 101 ∧
      manyListings.totalFileCount = 0 ∧
      (manyListings.getServerEntry plainServer).any (fun sit =>
        sit.cacheList.any (fun cit =>
          decide (cit.path = (grownListing 0).path)) &&
        sit.cacheList.all fun cit => cit.listing.size == 0) = true := by
    decide +kernel
  obtain ⟨hlength, htotal, hentry⟩ := hcounts
  refine ⟨hlength, htotal, ?_⟩
  rw [Option.any_eq_true] at hentry
  obtain ⟨sit, hsit, hentries⟩ := hentry
  rw [Bool.and_eq_true, List.any_eq_true, List.all_eq_true] at hentries
  simp only [decide_eq_true_eq, beq_iff_eq] at hentries
  exact ⟨sit, hsit, hentries⟩

theorem manyListings_replaced (files : ℕ) :
    manyListings.ReplacesWithin (grownListing files) plainServer ↔
      files ≤ 5000000 := by
  obtain ⟨hlength, htotal, sit, hsit, ⟨cit, hcit, hpath⟩, hsize⟩ :=
    manyListings_counts
  have hnew : (grownListing files).size = files := List.length_replicate
  unfold ReplacesWithin
  rw [hlength, htotal, hnew]
  constructor
  · intro hwithin
    have hsmall := hwithin sit hsit cit hcit hpath
    rw [hsize cit hcit] at hsmall
    simpa [tooLarge] using hsmall
  · intro hle other hother cit hcit _
    obtain rfl : sit = other := Option.some.inj (hsit.symm.trans hother)
    rw [hsize cit hcit]
    simpa [tooLarge] using hle

/-- One of many listings is replaced by the largest one that is allowed. -/
theorem store_limits_iff_replaced :
    manyListings.leastRecentlyUsedList.nodes.length = 101 ∧
      (∃ sit, manyListings.getServerEntry plainServer = some sit ∧
        ∃ cit ∈ sit.cacheList, cit.path = (grownListing 5000000).path) ∧
      (manyListings.store (grownListing 5000000) plainServer
        1).WithinLimits := by
  obtain ⟨hlength, _, sit, hsit, hcit, _⟩ := manyListings_counts
  refine ⟨hlength, ⟨sit, hsit, hcit⟩, ?_⟩
  exact (store_limits_iff (reaches_performed plainFolding manyStores) _ _
    1).mpr ((manyListings_replaced _).mpr le_rfl)

/-- No listing is dropped when one is replaced by a longer one. -/
theorem replaced_listing_exceeds_limits :
    ∃ inputs cache, (machine plainFolding).Reaches inputs [] cache ∧
      ¬ (cache.store (grownListing 5000001) plainServer 1).WithinLimits := by
  have hreach : (machine plainFolding).Reaches manyStores [] manyListings :=
    reaches_performed plainFolding manyStores
  refine ⟨_, manyListings, hreach, ?_⟩
  rw [(reaches_consistent hreach).store_within]
  exact fun hwithin => absurd ((manyListings_replaced _).mp hwithin) (by simp)

end TabFtp
