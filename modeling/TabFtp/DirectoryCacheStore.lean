import TabFtp.DirectoryCacheLimits
import TabFtp.ListingNameIndex

/-!
# What a stored listing is found by

After a listing is stored, a lookup of its path finds it, and a lookup of any
other path finds what it found before, unless that was pruned.  What is pruned
stands at the front of the list of last uses.
-/

namespace TabFtp

open UniqueKeys DirectoryListing

namespace DirectoryCache

variable {cache : DirectoryCache} {sit : ServerEntry} {cit : CacheEntry}
  {server other : Server} {path : ServerPath} {listing : DirectoryListing}

/-! ## What the cache holds -/

def Holds (cache : DirectoryCache) (server : Server) (cit : CacheEntry) :
    Prop :=
  ∃ sit ∈ cache.serverList,
    sit.server.sameContent server = true ∧ cit ∈ sit.cacheList

def entryFor (cache : DirectoryCache) (server : Server) (path : ServerPath) :
    Option CacheEntry :=
  match cache.getServerEntry server with
  | none => none
  | some sit =>
      (CacheEntry.find path sit.cacheList).filter fun cit => cit.path.same path

theorem getServerEntry_server (hfound : cache.getServerEntry server =
    some sit) : sit.server.sameContent server = true :=
  @List.find?_some _ (fun entry : ServerEntry =>
    entry.server.sameContent server) _ cache.serverList hfound

theorem holds_iff (hcons : Consistent cache) (hsit : sit ∈ cache.serverList)
    (hserver : sit.server.sameContent server = true) :
    cache.Holds server cit ↔ cit ∈ sit.cacheList := by
  constructor
  · rintro ⟨found, hfound, hsame, hcit⟩
    have hboth := Server.sameContent_trans hsame
      (Server.sameContent_symm hserver)
    rw [hcons.eq_of_sameContent hfound hsit hboth] at hcit
    exact hcit
  · intro hcit
    exact ⟨sit, hsit, hserver, hcit⟩

theorem getServerEntry_holds (hcons : Consistent cache)
    (hfound : cache.getServerEntry server = some sit) :
    cache.Holds server cit ↔ cit ∈ sit.cacheList :=
  holds_iff hcons (mem_of_getServerEntry hfound)
    (getServerEntry_server hfound)

theorem not_holds (hnone : cache.getServerEntry server = none) :
    ¬cache.Holds server cit := by
  rintro ⟨sit, hsit, hserver, _⟩
  exact List.find?_eq_none.mp hnone sit hsit hserver

theorem entryFor_eq_some_iff (hcons : Consistent cache) :
    cache.entryFor server path = some cit ↔
      cache.Holds server cit ∧ cit.path = path := by
  unfold entryFor
  cases hfound : cache.getServerEntry server with
  | none =>
      have hnot := @not_holds cache cit server hfound
      simp [hnot]
  | some sit =>
      have hsit := mem_of_getServerEntry hfound
      dsimp only
      rw [getServerEntry_holds hcons hfound, Option.filter_eq_some_iff,
        ServerPath.same_iff]
      constructor
      · intro hentry
        exact ⟨OrderedSet.lowerBound_mem hentry.1, hentry.2⟩
      · intro hentry
        refine ⟨?_, hentry.2⟩
        rw [← hentry.2]
        exact find_of_mem hcons hsit hentry.1

theorem entryFor_eq_none_iff (hcons : Consistent cache) :
    cache.entryFor server path = none ↔
      ∀ cit, cache.Holds server cit → cit.path ≠ path := by
  rw [Option.eq_none_iff_forall_ne_some]
  constructor
  · intro hnone cit hholds hpath
    exact hnone cit ((entryFor_eq_some_iff hcons).mpr ⟨hholds, hpath⟩)
  · intro hnone cit hentry
    rcases (entryFor_eq_some_iff hcons).mp hentry with ⟨hholds, hpath⟩
    exact hnone cit hholds hpath

def outdated (cache : DirectoryCache) (listing : DirectoryListing)
    (now : ℤ) : Bool :=
  decide (cache.ttl < now - listing.firstListTime)

theorem lookupEntry_eq (hcons : Consistent cache)
    (hfound : cache.getServerEntry server = some sit) (path : ServerPath)
    (now : ℤ) :
    (cache.lookupEntry sit path true now).2 =
      (cache.entryFor server path).map fun cit =>
        (cit, cache.outdated cit.listing now) := by
  have hsit := mem_of_getServerEntry hfound
  unfold lookupEntry entryFor
  rw [hfound]
  dsimp only
  cases hfind : CacheEntry.find path sit.cacheList with
  | none => rfl
  | some cit =>
      have hcit := OrderedSet.lowerBound_mem hfind
      have hsame := (updateLru_spec hcons hsit hcit).1
      rw [Option.filter_some]
      dsimp only
      by_cases hpath : cit.path.same path = true
      · have hlisting : cit.listing.path.same path = true := hpath
        rw [if_pos hlisting, if_pos hpath, hsame]
        rfl
      · have hlisting : ¬cit.listing.path.same path = true := hpath
        rw [if_neg hlisting, if_neg hpath]
        rfl

/-- `Lookup` gives the listing that is cached. -/
theorem lookup_eq (hcons : Consistent cache) (server : Server)
    (path : ServerPath) (now : ℤ) :
    (cache.lookup server path true now).2 =
      (cache.entryFor server path).map fun cit =>
        (cit.listing, cache.outdated cit.listing now) := by
  unfold lookup
  cases hfound : cache.getServerEntry server with
  | none =>
      unfold entryFor
      rw [hfound]
      rfl
  | some sit =>
      dsimp only
      rw [lookupEntry_eq hcons hfound, Option.map_map]
      rfl

/-! ## What changes what the cache holds -/

theorem holds_of_serverList {following : DirectoryCache}
    (hlist : following.serverList = cache.serverList) :
    following.Holds server cit ↔ cache.Holds server cit := by
  unfold Holds
  rw [hlist]

theorem holds_createServerEntry (cache : DirectoryCache) (server : Server) :
    (cache.createServerEntry server).1.Holds other cit ↔
      cache.Holds other cit := by
  unfold createServerEntry
  cases cache.getServerEntry server with
  | some sit => exact Iff.rfl
  | none => simp [Holds]

theorem createServerEntry_server (cache : DirectoryCache) (server : Server) :
    (cache.createServerEntry server).2.server.sameContent server = true := by
  unfold createServerEntry
  cases hfound : cache.getServerEntry server with
  | some sit => exact getServerEntry_server hfound
  | none => exact Server.sameContent_refl server

theorem holds_writeList {following : DirectoryCache}
    (hcons : Consistent cache)
    (hlist : following.serverList = cache.serverList)
    (hsit : sit ∈ cache.serverList) (cacheList : List CacheEntry) :
    (following.writeList sit.id cacheList).Holds other cit ↔
      if sit.server.sameContent other = true then cit ∈ cacheList
      else cache.Holds other cit := by
  have hmem (entry : ServerEntry) :
      entry ∈ (following.writeList sit.id cacheList).serverList ↔
        entry = { sit with cacheList := cacheList } ∨
          entry ∈ cache.serverList ∧ entry.id ≠ sit.id := by
    unfold writeList
    rw [hlist]
    exact mem_write_iff hcons.ids hsit
  unfold Holds
  simp only [hmem]
  split_ifs with hserver
  · constructor
    · rintro ⟨entry, rfl | ⟨hentry, hid⟩, hsame, hcit⟩
      · exact hcit
      · have hboth := Server.sameContent_trans hsame
          (Server.sameContent_symm hserver)
        rw [hcons.eq_of_sameContent hentry hsit hboth] at hid
        exact absurd rfl hid
    · intro hcit
      exact ⟨_, .inl rfl, hserver, hcit⟩
  · constructor
    · rintro ⟨entry, rfl | ⟨hentry, _⟩, hsame, hcit⟩
      · exact absurd hsame hserver
      · exact ⟨entry, hentry, hsame, hcit⟩
    · rintro ⟨entry, hentry, hsame, hcit⟩
      refine ⟨entry, .inr ⟨hentry, ?_⟩, hsame, hcit⟩
      intro hid
      rw [hcons.ids.eq_of_key hentry hsit hid] at hsame
      exact hserver hsame

def CacheEntry.replaced (cit : CacheEntry) (listing : DirectoryListing)
    (now : ℤ) : CacheEntry :=
  { cit with modificationTime := now, listing := listing }

theorem holds_replaceListing {entry : CacheEntry} (hcons : Consistent cache)
    (hsit : sit ∈ cache.serverList) (hentry : entry ∈ sit.cacheList)
    (listing : DirectoryListing) (now : ℤ) :
    (cache.replaceListing sit.id entry listing now).Holds other cit ↔
      if sit.server.sameContent other = true then
        cit = CacheEntry.replaced entry listing now ∨
          cit ∈ sit.cacheList ∧ cit.id ≠ entry.id
      else cache.Holds other cit := by
  have hcounted := hcons.reorder
    (cache.totalFileCount - entry.listing.size) rfl (List.Perm.refl _)
  unfold replaceListing
  rw [writeEntry_eq hcounted hsit, holds_writeList hcons ?_ hsit,
    mem_write_iff (hcons.linked sit hsit).ids hentry]
  · rfl
  · rfl

def inserted (cache : DirectoryCache) (listing : DirectoryListing)
    (now : ℤ) : CacheEntry :=
  ⟨cache.nextEntry, listing, now,
    some cache.leastRecentlyUsedList.nextNode⟩

theorem insertListing_eq (hcons : Consistent cache)
    (hsit : sit ∈ cache.serverList) (now : ℤ)
    (habsent : ∀ cit ∈ sit.cacheList,
      ¬OrderedSet.Equivalent ServerPath.less cit.path listing.path) :
    (cache.insertListing sit listing now).leastRecentlyUsedList.nodes =
        cache.leastRecentlyUsedList.nodes ++
          [⟨cache.leastRecentlyUsedList.nextNode, sit.id,
            cache.nextEntry⟩] ∧
      ∀ other cit,
        (cache.insertListing sit listing now).Holds other cit ↔
          if sit.server.sameContent other = true then
            cit = cache.inserted listing now ∨ cit ∈ sit.cacheList
          else cache.Holds other cit := by
  have hlinked := hcons.linked sit hsit
  have hcases := @OrderedSet.emplace_cases _ _ CacheEntry.path
    ServerPath.less ⟨cache.nextEntry, listing, now, none⟩ sit.cacheList
  unfold insertListing
  dsimp only
  generalize OrderedSet.emplace CacheEntry.path ServerPath.less
    ⟨cache.nextEntry, listing, now, none⟩ sit.cacheList = emplaced
    at hcases ⊢
  rcases hcases with ⟨hnew, hperm⟩ | ⟨_, hmem, hsame⟩
  · have hupdate := @updateLru_writeList
      { cache with nextEntry := cache.nextEntry + 1 }
      ⟨cache.nextEntry, listing, now, none⟩ sit.id emplaced.1 rfl
    dsimp only at hupdate
    rw [hnew, hupdate]
    refine ⟨rfl, ?_⟩
    intro other cit
    rw [holds_writeList hcons ?_ hsit, hlinked.mem_insert_iff rfl hperm]
    · rfl
    · rfl
  · exact absurd hsame (habsent _ hmem)

/-! ## Pruning -/

theorem lruIt_iff {pos : LruNode} (hcons : Consistent cache)
    (hin : pos ∈ cache.leastRecentlyUsedList.nodes)
    (hsit : sit ∈ cache.serverList) (hcit : cit ∈ sit.cacheList) :
    cit.lruIt = some pos.id ↔ sit.id = pos.server ∧ cit.id = pos.entry := by
  constructor
  · intro hsame
    rcases (hcons.linked sit hsit).node cit hcit with ⟨node, hnode, hmem⟩
    have hid : node = pos.id := Option.some.inj (hnode.symm.trans hsame)
    have hpos := hcons.nodes.eq_of_key hmem hin hid
    rw [← hpos]
    exact ⟨rfl, rfl⟩
  · rintro ⟨hserver, hentry⟩
    have hlinked := hcons.linked sit hsit
    rcases hlinked.entry pos hin hserver.symm with ⟨entry, hmem, hid, hnode⟩
    rw [hlinked.ids.eq_of_key hcit hmem (hentry.trans hid.symm)]
    exact hnode

theorem holds_eraseAt {nodes : List LruNode} {pos : LruNode}
    {nextNode : ℕ} {following : DirectoryCache} (hcons : Consistent cache)
    (hlru : cache.leastRecentlyUsedList = ⟨pos :: nodes, nextNode⟩)
    (hlist : following.serverList = eraseAt cache.serverList pos) :
    following.Holds server cit ↔
      cache.Holds server cit ∧ cit.lruIt ≠ some pos.id := by
  have hin : pos ∈ cache.leastRecentlyUsedList.nodes := by
    rw [hlru]
    exact List.mem_cons_self
  unfold Holds eraseAt at *
  rw [hlist]
  constructor
  · rintro ⟨erased, herased, hsame, hcit⟩
    rcases List.mem_map.mp (List.mem_of_mem_filter herased) with
      ⟨sit, hsit, rfl⟩
    by_cases hserver : sit.id = pos.server
    · rw [if_pos hserver] at hsame hcit
      rcases List.mem_filter.mp hcit with ⟨hold, hkept⟩
      refine ⟨⟨sit, hsit, hsame, hold⟩, ?_⟩
      rw [ne_eq, lruIt_iff hcons hin hsit hold]
      intro hboth
      exact of_decide_eq_true hkept hboth.2
    · rw [if_neg hserver] at hsame hcit
      refine ⟨⟨sit, hsit, hsame, hcit⟩, ?_⟩
      rw [ne_eq, lruIt_iff hcons hin hsit hcit]
      intro hboth
      exact hserver hboth.1
  · rintro ⟨⟨sit, hsit, hsame, hcit⟩, hkept⟩
    rw [ne_eq, lruIt_iff hcons hin hsit hcit] at hkept
    refine ⟨_, List.mem_filter.mpr ⟨List.mem_map_of_mem hsit, ?_⟩, ?_, ?_⟩
    · by_cases hserver : sit.id = pos.server
      · rw [if_pos hserver, Bool.or_eq_true]
        right
        have hmem : cit ∈ sit.cacheList.filter (·.id ≠ pos.entry) := by
          apply List.mem_filter.mpr
          refine ⟨hcit, decide_eq_true ?_⟩
          intro hentry
          exact hkept ⟨hserver, hentry⟩
        rw [Bool.not_eq_true', List.isEmpty_eq_false_iff]
        exact List.ne_nil_of_mem hmem
      · rw [if_neg hserver, Bool.or_eq_true]
        exact .inl (decide_eq_true hserver)
    · split_ifs <;> exact hsame
    · by_cases hserver : sit.id = pos.server
      · rw [if_pos hserver]
        apply List.mem_filter.mpr
        refine ⟨hcit, decide_eq_true ?_⟩
        intro hentry
        exact hkept ⟨hserver, hentry⟩
      · rw [if_neg hserver]
        exact hcit

/-- The node points to the same listing in both caches. -/
theorem sizeAt_congr {following : DirectoryCache} {node : LruNode}
    (hcons : Consistent cache) (hfollowing : Consistent following)
    (hnode : node ∈ cache.leastRecentlyUsedList.nodes)
    (hstays : node ∈ following.leastRecentlyUsedList.nodes)
    (hholds : ∀ server cit, cache.Holds server cit →
      cit.lruIt = some node.id → following.Holds server cit) :
    sizeAt following.serverList node = sizeAt cache.serverList node := by
  obtain ⟨sit, hsit, hserver⟩ := hcons.placed node hnode
  obtain ⟨cit, hcit, hentry, hid⟩ :=
    (hcons.linked sit hsit).entry node hnode hserver.symm
  obtain ⟨sit', hsit', _, hcit'⟩ := hholds sit.server cit
    ⟨sit, hsit, Server.sameContent_refl _, hcit⟩ hid
  obtain ⟨hserver', hentry'⟩ :=
    (lruIt_iff hfollowing hstays hsit' hcit').mp hid
  rw [sizeAt_eq hcons hsit hcit hserver hentry,
    sizeAt_eq hfollowing hsit' hcit' hserver' hentry']

/-- `Prune` takes off each of these nodes because the cache, with this node
and those behind it, is too large. -/
def Needed (serverList : List ServerEntry) (size : ℕ) (totalFileCount : ℤ)
    (pruned : List LruNode) : Prop :=
  ∀ front node after, pruned = front ++ node :: after →
    tooLarge (size - front.length)
      (totalFileCount - ((front.map (sizeAt serverList)).sum : ℕ)) = true

theorem needed_nil (serverList : List ServerEntry) (size : ℕ)
    (totalFileCount : ℤ) : Needed serverList size totalFileCount [] := by
  intro front node after hsplit
  simp at hsplit

theorem Needed.congr {serverList serverList' : List ServerEntry} {size : ℕ}
    {totalFileCount : ℤ} {pruned : List LruNode}
    (hneeded : Needed serverList size totalFileCount pruned)
    (hsizes : ∀ node ∈ pruned,
      sizeAt serverList' node = sizeAt serverList node) :
    Needed serverList' size totalFileCount pruned := by
  intro front node after hsplit
  have hfront : front.map (sizeAt serverList') =
      front.map (sizeAt serverList) := by
    apply List.map_congr_left
    intro other hother
    apply hsizes
    rw [hsplit]
    exact List.mem_append_left _ hother
  rw [hfront]
  exact hneeded front node after hsplit

theorem Needed.cons {serverList : List ServerEntry} {size : ℕ}
    {totalFileCount : ℤ} {pos : LruNode} {pruned : List LruNode}
    (hlarge : tooLarge (size + 1) totalFileCount = true)
    (hneeded : Needed serverList size
      (totalFileCount - sizeAt serverList pos) pruned) :
    Needed serverList (size + 1) totalFileCount (pos :: pruned) := by
  intro front node after hsplit
  cases front with
  | nil => simpa using hlarge
  | cons first front =>
      simp only [List.cons_append, List.cons.injEq] at hsplit
      obtain ⟨rfl, hrest⟩ := hsplit
      have hlater := hneeded front node after hrest
      rw [List.length_cons, Nat.add_sub_add_right, List.map_cons,
        List.sum_cons, Nat.cast_add, ← sub_sub]
      exact hlater

theorem pruneLoop_holds {nextNode : ℕ} (nodes : List LruNode) :
    ∀ cache : DirectoryCache, Consistent cache →
      cache.leastRecentlyUsedList = ⟨nodes, nextNode⟩ →
      ∃ pruned rest, nodes = pruned ++ rest ∧
        (pruneLoop nodes cache.serverList cache.totalFileCount).1 = rest ∧
        (nodes ≠ [] → rest ≠ []) ∧
        Needed cache.serverList nodes.length cache.totalFileCount pruned ∧
        ∀ following : DirectoryCache, following.serverList =
            (pruneLoop nodes cache.serverList cache.totalFileCount).2.1 →
          ∀ server cit, following.Holds server cit ↔
            cache.Holds server cit ∧
              ∀ node ∈ pruned, cit.lruIt ≠ some node.id := by
  induction nodes with
  | nil =>
      intro cache _ _
      refine ⟨[], [], rfl, rfl, fun hne => hne, needed_nil _ _ _, ?_⟩
      intro following hlist server cit
      rw [holds_of_serverList hlist]
      simp
  | cons pos nodes ih =>
      intro cache hcons hlru
      unfold pruneLoop
      by_cases hlarge :
          tooLarge (nodes.length + 1) cache.totalFileCount = true
      · rw [if_pos hlarge]
        have hfirst := eraseAt_keeps hcons hlru
        rcases ih _ hfirst.consistent rfl with
          ⟨pruned, rest, hsplit, hnodes, hlast, hneeded, hholds⟩
        refine ⟨pos :: pruned, rest, by rw [hsplit]; rfl, hnodes, ?_, ?_, ?_⟩
        · intro _
          apply hlast
          intro hnil
          rw [hnil] at hlarge
          simp [tooLarge] at hlarge
        · apply Needed.cons hlarge
          apply hneeded.congr
          intro node hnode
          have hin : node ∈ nodes := by
            rw [hsplit]
            exact List.mem_append_left _ hnode
          apply sizeAt_congr hfirst.consistent hcons hin
          · rw [hlru]
            exact List.mem_cons_of_mem _ hin
          · intro server cit hheld _
            exact ((holds_eraseAt hcons hlru rfl).mp hheld).1
        · intro following hlist server cit
          rw [hholds following hlist, @holds_eraseAt cache _ _ _ _ _ _ hcons
            hlru rfl, List.forall_mem_cons, and_assoc]
      · rw [if_neg hlarge]
        refine ⟨[], pos :: nodes, rfl, rfl, fun hne => hne,
          needed_nil _ _ _, ?_⟩
        intro following hlist server cit
        rw [holds_of_serverList hlist]
        simp

/-! ## Storing -/

/-- The set does not mistake the path of the listing for another one of the
server. -/
def Apart (cache : DirectoryCache) (listing : DirectoryListing)
    (server : Server) : Prop :=
  ∀ cit, cache.Holds server cit →
    OrderedSet.Equivalent ServerPath.less cit.path listing.path →
      cit.path = listing.path

theorem lookupEntry_missed_eq {path : ServerPath} {now : ℤ}
    {looked : DirectoryCache}
    (hlookup : cache.lookupEntry sit path true now = (looked, none)) :
    looked = cache := by
  unfold lookupEntry at hlookup
  cases hfind : CacheEntry.find path sit.cacheList with
  | none =>
      rw [hfind] at hlookup
      exact (congrArg Prod.fst hlookup).symm
  | some entry =>
      rw [hfind] at hlookup
      dsimp only at hlookup
      by_cases hpath : entry.listing.path.same path = true
      · rw [if_pos hpath] at hlookup
        simp at hlookup
      · rw [if_neg hpath] at hlookup
        exact (congrArg Prod.fst hlookup).symm

/-- What a cache holds after a listing is stored: the listing, and of the
others those whose nodes were not pruned.  The limits are compared with the
count `total`. -/
structure Stores (cache stored : DirectoryCache) (server : Server)
    (entry : CacheEntry) (pruned : List LruNode) (total : ℤ) : Prop where
  front : ∃ rest, cache.leastRecentlyUsedList.nodes = pruned ++ rest
  needed : Needed cache.serverList
    (cache.leastRecentlyUsedList.nodes.length + 1) total pruned
  holds : ∀ other cit, stored.Holds other cit ↔
    (server.sameContent other = true ∧ cit = entry) ∨
      (cache.Holds other cit ∧
        (server.sameContent other = true → cit.path ≠ entry.path) ∧
        ∀ node ∈ pruned, cit.lruIt ≠ some node.id)

theorem storeEntry_stores (hcons : Consistent cache)
    (hsit : sit ∈ cache.serverList)
    (hserver : sit.server.sameContent server = true)
    (listing : DirectoryListing) (happart : cache.Apart listing server)
    (now : ℤ) (stored : DirectoryCache)
    (hstored : stored =
      match cache.lookupEntry sit listing.path true now with
      | (cache, some (cit, _)) => cache.replaceListing sit.id cit listing now
      | (cache, none) => (cache.insertListing sit listing now).prune) :
    ∃ entry pruned, entry.listing = listing ∧
      cache.Stores stored server entry pruned cache.totalFileCount := by
  have hsame (other : Server) :
      sit.server.sameContent other = server.sameContent other := by
    rw [Bool.eq_iff_iff]
    constructor
    · exact Server.sameContent_trans (Server.sameContent_symm hserver)
    · exact Server.sameContent_trans hserver
  rcases hlookup : cache.lookupEntry sit listing.path true now with
    ⟨looked, found⟩
  rw [hlookup] at hstored
  cases found with
  | some pair =>
      rcases pair with ⟨old, outdated⟩
      rcases lookupEntry_found hcons hsit hlookup with
        ⟨hkeeps, hlist, hsit', hold, hpath⟩
      refine ⟨CacheEntry.replaced old listing now, [], rfl, ⟨_, rfl⟩,
        needed_nil _ _ _, ?_⟩
      intro other cit
      dsimp only at hstored
      rw [hstored, holds_replaceListing hkeeps.consistent hsit' hold, hsame,
        holds_of_serverList hlist]
      by_cases hother : server.sameContent other = true
      · have hhere : sit.server.sameContent other = true :=
          (hsame other).trans hother
        have hdiffer : cit ∈ sit.cacheList →
            (cit.id ≠ old.id ↔ cit.path ≠ listing.path) := by
          intro hcit
          rw [not_iff_not, ← hpath]
          constructor
          · intro hid
            rw [(hcons.linked sit hsit).ids.eq_of_key hcit hold hid]
          · intro heq
            rw [hcons.eq_of_path hsit hcit hold heq]
        rw [if_pos hother, holds_iff hcons hsit hhere]
        simp only [hother, true_and, forall_true_left, List.not_mem_nil,
          IsEmpty.forall_iff, implies_true, and_true]
        exact or_congr_right (and_congr_right hdiffer)
      · rw [if_neg hother]
        simp [hother]
  | none =>
      have hlooked := lookupEntry_missed_eq hlookup
      have habsent := lookupEntry_none hcons hsit
        (congrArg Prod.snd hlookup)
      rw [hlooked] at hstored
      dsimp only at hstored
      have hnone : ∀ cit ∈ sit.cacheList,
          ¬OrderedSet.Equivalent ServerPath.less cit.path listing.path := by
        intro cit hcit hequivalent
        have hholds := (holds_iff hcons hsit hserver).mpr hcit
        exact habsent cit hcit (happart cit hholds hequivalent)
      rcases insertListing_eq hcons hsit now hnone with ⟨hnodes, hholds⟩
      have hinserted := (insertListing_consistent hcons hsit listing now).1
      have hloop := @pruneLoop_holds
        (cache.insertListing sit listing now).leastRecentlyUsedList.nextNode
        (cache.insertListing sit listing now).leastRecentlyUsedList.nodes
        (cache.insertListing sit listing now) hinserted rfl
      rcases hloop with ⟨pruned, rest, hsplit, _, hlast, hneeded, hpruned⟩
      rw [hnodes] at hsplit hlast hneeded
      rw [List.length_append, List.length_singleton] at hneeded
      have hrest := hlast (List.append_ne_nil_of_right_ne_nil _
        (List.cons_ne_nil _ _))
      have hfront : cache.leastRecentlyUsedList.nodes =
          pruned ++ rest.dropLast := by
        have hdropped := congrArg List.dropLast hsplit
        rw [List.dropLast_concat, List.dropLast_append_of_ne_nil hrest]
          at hdropped
        exact hdropped
      have hsizes : ∀ node ∈ pruned, sizeAt cache.serverList node =
          sizeAt (cache.insertListing sit listing now).serverList node := by
        intro node hnode
        have hin : node ∈ cache.leastRecentlyUsedList.nodes := by
          rw [hfront]
          exact List.mem_append_left _ hnode
        symm
        apply sizeAt_congr hcons hinserted hin
        · rw [hnodes]
          exact List.mem_append_left _ hin
        · intro other cit hheld _
          rw [hholds]
          split_ifs with hother
          · exact .inr ((holds_iff hcons hsit hother).mp hheld)
          · exact hheld
      refine ⟨cache.inserted listing now, pruned, rfl, ⟨_, hfront⟩,
        hneeded.congr hsizes, ?_⟩
      intro other cit
      have hnew : ∀ node ∈ pruned,
          (cache.inserted listing now).lruIt ≠ some node.id := by
        intro node hnode heq
        have hfresh := hcons.freshNodes node (by
          rw [hfront]
          exact List.mem_append_left _ hnode)
        rw [← Option.some.inj heq] at hfresh
        exact lt_irrefl _ hfresh
      have hlist : stored.serverList =
          (pruneLoop
            (cache.insertListing sit listing now).leastRecentlyUsedList.nodes
            (cache.insertListing sit listing now).serverList
            (cache.insertListing sit listing now).totalFileCount).2.1 := by
        rw [hstored]
        rfl
      rw [hpruned stored hlist, hholds, hsame]
      by_cases hother : server.sameContent other = true
      · have hhere : sit.server.sameContent other = true :=
          (hsame other).trans hother
        rw [if_pos hother, holds_iff hcons hsit hhere]
        constructor
        · rintro ⟨rfl | hcit, hkept⟩
          · exact .inl ⟨hother, rfl⟩
          · exact .inr ⟨hcit, fun _ => habsent cit hcit, hkept⟩
        · rintro (⟨_, rfl⟩ | ⟨hcit, _, hkept⟩)
          · exact ⟨.inl rfl, hnew⟩
          · exact ⟨.inr hcit, hkept⟩
      · rw [if_neg hother]
        simp [hother]

/-- What the cache is like after `Store`. -/
theorem store_stores (hcons : Consistent cache) (listing : DirectoryListing)
    (server : Server) (happart : cache.Apart listing server) (now : ℤ) :
    ∃ entry pruned, entry.listing = listing ∧
      cache.Stores (cache.store listing server now) server entry pruned
        (cache.totalFileCount + listing.size) := by
  have hcreated := createServerEntry_keeps hcons server
  have hcounted := hcreated.1.consistent.reorder
    ((cache.createServerEntry server).1.totalFileCount + listing.size) rfl
    (List.Perm.refl _)
  have hholds (other : Server) (cit : CacheEntry) :
      Holds { (cache.createServerEntry server).1 with
        totalFileCount := (cache.createServerEntry server).1.totalFileCount +
          listing.size } other cit ↔ cache.Holds other cit :=
    holds_createServerEntry cache server
  have happart' : Apart { (cache.createServerEntry server).1 with
      totalFileCount := (cache.createServerEntry server).1.totalFileCount +
        listing.size } listing server := by
    intro cit hcit
    exact happart cit ((hholds server cit).mp hcit)
  rcases storeEntry_stores hcounted hcreated.2
    (createServerEntry_server cache server) listing happart' now
    (cache.store listing server now) rfl with
    ⟨entry, pruned, hlisting, hstores⟩
  obtain ⟨hlru, htotal⟩ := createServerEntry_counts cache server
  have hfront := hstores.front
  have hneeded := hstores.needed
  dsimp only at hfront hneeded
  rw [hlru] at hfront
  rw [hlru, htotal] at hneeded
  refine ⟨entry, pruned, hlisting, hfront, ?_, ?_⟩
  · apply hneeded.congr
    intro node hnode
    obtain ⟨rest, hsplit⟩ := hfront
    have hin : node ∈ cache.leastRecentlyUsedList.nodes := by
      rw [hsplit]
      exact List.mem_append_left _ hnode
    symm
    apply sizeAt_congr hcons hcreated.1.consistent hin
    · rw [hlru]
      exact hin
    · intro other cit hheld _
      exact (holds_createServerEntry cache server).mpr hheld
  · intro other cit
    rw [hstores.holds, hholds]

/-! ## Looking up names -/

/-- The maps of the listing are indexes of its entries, and none of them has
the name twice. -/
structure NamesIndexed (folding : NameFolding) (listing : DirectoryListing)
    (filename : WString) : Prop where
  case : Indexed id listing.entries listing.searchmapCase
  onceCase : FoundOnce id listing.entries listing.searchmapCase filename
  nocase : Indexed folding.lower listing.entries listing.searchmapNocase
  onceNocase :
    FoundOnce folding.lower listing.entries listing.searchmapNocase filename

def firstNamed (folding : NameFolding) (anyCase : Bool)
    (listing : DirectoryListing) (filename : WString) :
    Option (DirectoryEntry × Bool) :=
  match listing.entries.find? (fun entry => decide (entry.name = filename))
    with
  | some entry => some (entry, true)
  | none =>
      if anyCase then
        (listing.entries.find? fun entry =>
          decide (folding.lower entry.name = folding.lower filename)).map
            fun entry => (entry, false)
      else none

theorem findFile_eq {fold : WString → WString}
    {entries : List DirectoryEntry} {searchmap : Option SearchMap}
    {name : WString} (hindexed : Indexed fold entries searchmap)
    (honce : FoundOnce fold entries searchmap name) :
    ((findFile fold entries searchmap name).1.bind fun i => entries[i]?) =
      entries.find? fun entry => decide (fold entry.name = fold name) := by
  have hspec := findFileWith_spec finds_lookup hindexed honce
  rw [← findFileWith_lookup, hspec.1]
  exact List.find?_eq_bind_findIdx?_getElem?.symm

theorem findName_eq {folding : NameFolding} {filename : WString}
    (hnames : NamesIndexed folding listing filename) (anyCase : Bool) :
    (findName folding anyCase listing filename).2 =
      firstNamed folding anyCase listing filename := by
  have hexact := findFile_eq hnames.case hnames.onceCase
  have hnocase := findFile_eq hnames.nocase hnames.onceNocase
  unfold findName firstNamed findFileCmpCase findFileCmpNoCase
  dsimp only
  rw [hexact, hnocase]
  simp only [id_eq]
  cases listing.entries.find? fun entry => decide (entry.name = filename) with
  | some entry => rfl
  | none => cases anyCase <;> rfl

/-- `LookupFile` gives the first entry of that name. -/
theorem lookupFile_eq (hcons : Consistent cache) {folding : NameFolding}
    {filename : WString} {flags : LookupFlags} {now : ℤ}
    (hentry : cache.entryFor server path = some cit)
    (hnames : NamesIndexed folding cit.listing filename)
    (hfresh : cache.outdated cit.listing now = false ∨
      flags.allowOutdated = true) :
    (cache.lookupFile folding server path filename flags now).2 =
      resultsOf (cache.outdated cit.listing now)
        (firstNamed folding
          (server.protocol.caseSensitivity != .yes ||
            flags.forceCaseinsensitive)
          cit.listing filename) := by
  unfold lookupFile lookupFiles
  cases hfound : cache.getServerEntry server with
  | none =>
      unfold entryFor at hentry
      rw [hfound] at hentry
      cases hentry
  | some sit =>
      have hlookup := lookupEntry_eq hcons hfound path now
      rw [hentry, Option.map_some] at hlookup
      rcases hlooked : cache.lookupEntry sit path true now with
        ⟨looked, found⟩
      rw [hlooked] at hlookup
      dsimp only at hlookup ⊢
      rw [hlookup] at hlooked
      rw [hlooked]
      dsimp only
      rw [if_neg]
      · simp [findNames, findName_eq hnames]
      · rcases hfresh with hfresh | hallowed
        · simp [hfresh]
        · simp [hallowed]

end DirectoryCache

open DirectoryCache

/-- What is found after any run and a store that the set of paths does not
mistake: the listing under its path, its entries by their names, and under
every other path what was there before, unless its node was at the front of
the list of last uses and is pruned because the cache was too large with it. -/
theorem stored_listing_found {folding : NameFolding}
    {inputs : List (CacheOperation × ℤ)} {outputs : List Empty}
    {cache : DirectoryCache}
    (hreach : (machine folding).Reaches inputs outputs cache)
    (listing : DirectoryListing) (server : Server)
    (happart : cache.Apart listing server) (now : ℤ) :
    let stored := cache.store listing server now
    (∀ other, server.sameContent other = true → ∀ later,
      (stored.lookup other listing.path true later).2 =
        some (listing, stored.outdated listing later)) ∧
    (∀ filename flags later, NamesIndexed folding listing filename →
      (stored.outdated listing later = false ∨
        flags.allowOutdated = true) →
      (stored.lookupFile folding server listing.path filename flags
          later).2 =
        resultsOf (stored.outdated listing later)
          (firstNamed folding
            (server.protocol.caseSensitivity != .yes ||
              flags.forceCaseinsensitive)
            listing filename)) ∧
    ∃ pruned rest,
      cache.leastRecentlyUsedList.nodes = pruned ++ rest ∧
      Needed cache.serverList
        (cache.leastRecentlyUsedList.nodes.length + 1)
        (cache.totalFileCount + listing.size) pruned ∧
      ∀ other path cit, cache.entryFor other path = some cit →
        (server.sameContent other = false ∨ path ≠ listing.path) →
        if ∃ node ∈ pruned, cit.lruIt = some node.id then
          ∀ later, (stored.lookup other path true later).2 = none
        else
          ∀ later, (stored.lookup other path true later).2 =
            some (cit.listing, stored.outdated cit.listing later) := by
  intro stored
  have hcons := reaches_consistent hreach
  have hstored : Consistent stored := (store_drift hcons listing server now).1
  rcases store_stores hcons listing server happart now with
    ⟨entry, pruned, hlisting, hstores⟩
  have hpath : entry.path = listing.path := congrArg DirectoryListing.path
    hlisting
  have hentry (other : Server) (hother : server.sameContent other = true) :
      stored.entryFor other listing.path = some entry :=
    (entryFor_eq_some_iff hstored).mpr
      ⟨(hstores.holds other entry).mpr (.inl ⟨hother, rfl⟩), hpath⟩
  refine ⟨?_, ?_, pruned, ?_⟩
  · intro other hother later
    rw [lookup_eq hstored, hentry other hother, Option.map_some, hlisting]
  · intro filename flags later hnames hfresh
    have hfound := hentry server (Server.sameContent_refl server)
    rw [← hlisting] at hnames hfresh
    have hfile := lookupFile_eq hstored hfound hnames hfresh
    rw [hlisting] at hfile
    exact hfile
  · rcases hstores.front with ⟨rest, hfront⟩
    refine ⟨rest, hfront, hstores.needed, ?_⟩
    intro other path cit hbefore hdiffer
    rcases (entryFor_eq_some_iff hcons).mp hbefore with ⟨hholds, hcit⟩
    have hnew (found : CacheEntry) (hfound : found.path = path) :
        ¬(server.sameContent other = true ∧ found = entry) := by
      rintro ⟨hother, rfl⟩
      rcases hdiffer with hfalse | hne
      · rw [hother] at hfalse
        cases hfalse
      · exact hne (hfound.symm.trans hpath)
    split_ifs with hpruned
    · intro later
      have hnone : stored.entryFor other path = none := by
        rw [entryFor_eq_none_iff hstored]
        intro found hfound hsame
        rcases (hstores.holds other found).mp hfound with
          hstored | ⟨hold, _, hkept⟩
        · exact hnew found hsame hstored
        · have hboth := (entryFor_eq_some_iff hcons).mpr ⟨hold, hsame⟩
          rw [hbefore, Option.some.injEq] at hboth
          rcases hpruned with ⟨node, hnode, hid⟩
          rw [hboth] at hid
          exact hkept node hnode hid
      rw [lookup_eq hstored, hnone]
      rfl
    · intro later
      have hkept : ∀ node ∈ pruned, cit.lruIt ≠ some node.id := by
        intro node hnode hid
        exact hpruned ⟨node, hnode, hid⟩
      have hother : server.sameContent other = true →
          cit.path ≠ entry.path := by
        intro hsame heq
        rw [hcit, hpath] at heq
        rcases hdiffer with hfalse | hne
        · rw [hsame] at hfalse
          cases hfalse
        · exact hne heq
      have hfound : stored.entryFor other path = some cit :=
        (entryFor_eq_some_iff hstored).mpr
          ⟨(hstores.holds other cit).mpr (.inr ⟨hholds, hother, hkept⟩),
            hcit⟩
      rw [lookup_eq hstored, hfound, Option.map_some]

/-- A second directory of a server is stored, and the first one stays. -/
theorem stored_listing_found_second :
    let first := initial.store (plainListing ['a'] ['x']) plainServer 0
    let stored := first.store (plainListing ['b'] ['y']) plainServer 1
    (stored.lookup plainServer (plainListing ['b'] ['y']).path true 2).2 =
        some (plainListing ['b'] ['y'], false) ∧
      (stored.lookupFile plainFolding plainServer
        (plainListing ['b'] ['y']).path ['y'] ⟨false, false⟩ 2).2 =
          (⟨true, false, true, true⟩, some (plainEntry ['y'])) ∧
      (stored.lookup plainServer (plainListing ['a'] ['x']).path true 2).2 =
        some (plainListing ['a'] ['x'], false) := by
  intro first stored
  have hstart : (machine plainFolding).Reaches [] [] initial := .start rfl
  have hstep : (machine plainFolding).step initial
      (.store (plainListing ['a'] ['x']) plainServer, 0) =
        some (first, []) := rfl
  have hreach := hstart.next trivial hstep
  have happart : first.Apart (plainListing ['b'] ['y']) plainServer := by
    rintro cit ⟨sit, hsit, _, hcit⟩ hequivalent
    have hlist : first.serverList = [⟨0, plainServer,
        [⟨0, plainListing ['a'] ['x'], 0, some 0⟩]⟩] := by
      decide +kernel
    rw [hlist] at hsit
    rw [List.mem_singleton.mp hsit] at hcit
    rw [List.mem_singleton.mp hcit] at hequivalent
    exact absurd hequivalent.1 (by decide +kernel)
  have hfound := stored_listing_found hreach (plainListing ['b'] ['y'])
    plainServer happart 1
  have hnames : NamesIndexed plainFolding (plainListing ['b'] ['y'])
      ['y'] := by
    refine ⟨indexed_none _ _, ?_, indexed_none _ _, ?_⟩
    · decide
    · decide
  obtain ⟨pruned, rest, _, hneeded, hothers⟩ := hfound.2.2
  have hnone : pruned = [] := by
    cases pruned with
    | nil => rfl
    | cons node pruned =>
        have hlarge := hneeded [] node pruned rfl
        exact absurd hlarge (by decide +kernel)
  have hkept := hothers plainServer (plainListing ['a'] ['x']).path
    ⟨0, plainListing ['a'] ['x'], 0, some 0⟩ (by decide +kernel)
    (.inr (by decide +kernel))
  rw [hnone, if_neg (by simp)] at hkept
  exact ⟨hfound.1 plainServer (Server.sameContent_refl _) 2,
    hfound.2.1 ['y'] ⟨false, false⟩ 2 hnames (.inl (by decide +kernel)),
    hkept 2⟩

def staleListing : DirectoryListing :=
  { plainListing ['a'] ['y'] with searchmapNocase := some [(['x'], 0)] }

/-- A listing that is outdated is not searched for names, one whose path
differs behind a NUL only is not stored, and in one with an old index the old
name is found. -/
theorem stored_listing_not_found :
    let listing := plainListing ['a'] ['x']
    let behindNul := plainListing ['a', '\x00', 'b'] ['y']
    let stored := initial.store listing plainServer 0
    (stored.lookupFile plainFolding plainServer listing.path ['x']
        ⟨false, false⟩ 600001).2 = (⟨false, true, false, false⟩, none) ∧
      ((stored.store behindNul plainServer 1).lookup plainServer
        behindNul.path true 2).2 = none ∧
      ((initial.store staleListing plainServer 0).lookupFile plainFolding
        plainServer staleListing.path ['x'] ⟨false, false⟩ 1).2 =
          (⟨true, false, true, false⟩, some (plainEntry ['y'])) := by
  decide +kernel

end TabFtp
