import TabFtp.DirectoryCache

/-!
# Links within the directory cache

The invariant of the cache: every listing has its own node in the list of last
uses, every node has its listing, and no two listings of a server have
equivalent paths.  Beside it stands by how much the number of files is off,
which only storing a listing can change.
-/

namespace TabFtp

open UniqueKeys

namespace DirectoryCache

def allFiles (serverList : List ServerEntry) : ℤ :=
  (serverList.map fun sit => fileCount sit.cacheList).sum

/-! ## The invariant -/

/-- One server: every entry has a node, and every node of the server is the
one of an entry. -/
structure Linked (nodes : List LruNode) (nextEntry sit : ℕ)
    (cacheList : List CacheEntry) : Prop where
  ids : Unique CacheEntry.id cacheList
  fresh : ∀ cit ∈ cacheList, cit.id < nextEntry
  ordered : OrderedSet.Ordered CacheEntry.path ServerPath.less cacheList
  node : ∀ cit ∈ cacheList,
    ∃ node, cit.lruIt = some node ∧ ⟨node, sit, cit.id⟩ ∈ nodes
  entry : ∀ node ∈ nodes, node.server = sit →
    ∃ cit ∈ cacheList, cit.id = node.entry ∧ cit.lruIt = some node.id

structure Consistent (cache : DirectoryCache) : Prop where
  ids : Unique ServerEntry.id cache.serverList
  fresh : ∀ sit ∈ cache.serverList, sit.id < cache.nextServer
  apart : cache.serverList.Pairwise fun first second =>
    first.server.sameContent second.server = false
  linked : ∀ sit ∈ cache.serverList,
    Linked cache.leastRecentlyUsedList.nodes cache.nextEntry sit.id
      sit.cacheList
  nodes : Unique LruNode.id cache.leastRecentlyUsedList.nodes
  freshNodes : ∀ node ∈ cache.leastRecentlyUsedList.nodes,
    node.id < cache.leastRecentlyUsedList.nextNode
  placed : ∀ node ∈ cache.leastRecentlyUsedList.nodes,
    ∃ sit ∈ cache.serverList, sit.id = node.server

def drift (cache : DirectoryCache) : ℤ :=
  cache.totalFileCount - allFiles cache.serverList

theorem initial_consistent : Consistent initial where
  ids := List.nodup_nil
  fresh := by simp [initial]
  apart := List.Pairwise.nil
  linked := by simp [initial]
  nodes := List.nodup_nil
  freshNodes := by simp [initial]
  placed := by simp [initial]

variable {cache : DirectoryCache} {sit : ServerEntry} {cit : CacheEntry}
  {nodes nodes' : List LruNode} {nextEntry : ℕ}
  {cacheList : List CacheEntry}

theorem Consistent.eq_of_sameContent {sit' : ServerEntry}
    (hcons : Consistent cache) (hsit : sit ∈ cache.serverList)
    (hsit' : sit' ∈ cache.serverList)
    (hsame : sit.server.sameContent sit'.server = true) : sit = sit' := by
  by_contra hne
  have hsymm : Std.Symm fun first second : ServerEntry =>
      first.server.sameContent second.server = false := by
    constructor
    intro first second hfalse
    by_contra htrue
    have hback := Server.sameContent_symm (by simpa using htrue)
    rw [hfalse] at hback
    cases hback
  have hfalse := hcons.apart.forall hsit hsit' hne
  rw [hsame] at hfalse
  cases hfalse

/-! ## One server -/

/-- Entries of which only the listing without its path and the time change
have the same nodes. -/
structure SameLinks (change : CacheEntry → CacheEntry)
    (cacheList : List CacheEntry) : Prop where
  id : ∀ cit ∈ cacheList, (change cit).id = cit.id
  lruIt : ∀ cit ∈ cacheList, (change cit).lruIt = cit.lruIt
  path : ∀ cit ∈ cacheList, (change cit).path = cit.path

theorem Linked.map {change : CacheEntry → CacheEntry} {sit : ℕ}
    (hlinked : Linked nodes nextEntry sit cacheList)
    (hperm : nodes'.Perm nodes) (hsame : SameLinks change cacheList) :
    Linked nodes' nextEntry sit (cacheList.map change) where
  ids := hlinked.ids.map hsame.id
  fresh := by
    intro cit hmem
    obtain ⟨source, hsource, rfl⟩ := List.mem_map.mp hmem
    rw [hsame.id source hsource]
    exact hlinked.fresh source hsource
  ordered := hlinked.ordered.map hsame.path
  node := by
    intro cit hmem
    obtain ⟨source, hsource, rfl⟩ := List.mem_map.mp hmem
    obtain ⟨node, hnode, hin⟩ := hlinked.node source hsource
    refine ⟨node, ?_, ?_⟩
    · rw [hsame.lruIt source hsource, hnode]
    · rw [hsame.id source hsource]
      exact hperm.mem_iff.mpr hin
  entry := by
    intro node hmem hserver
    obtain ⟨source, hsource, hid, hnode⟩ :=
      hlinked.entry node (hperm.mem_iff.mp hmem) hserver
    refine ⟨change source, List.mem_map_of_mem hsource, ?_, ?_⟩
    · rw [hsame.id source hsource, hid]
    · rw [hsame.lruIt source hsource, hnode]

theorem sameLinks_write {cit' : CacheEntry}
    (hunique : Unique CacheEntry.id cacheList) (hmem : cit ∈ cacheList)
    (hid : cit'.id = cit.id) (hlru : cit'.lruIt = cit.lruIt)
    (hpath : cit'.path = cit.path) :
    SameLinks (fun other => if other.id = cit'.id then cit' else other)
      cacheList := by
  have hcases : ∀ other ∈ cacheList, other.id = cit'.id → other = cit := by
    intro other hother heq
    exact hunique.eq_of_key hother hmem (heq.trans hid)
  constructor
  · intro other hother
    by_cases heq : other.id = cit'.id
    · rw [if_pos heq, heq]
    · rw [if_neg heq]
  · intro other hother
    by_cases heq : other.id = cit'.id
    · rw [if_pos heq, hlru, hcases other hother heq]
    · rw [if_neg heq]
  · intro other hother
    by_cases heq : other.id = cit'.id
    · rw [if_pos heq, hpath, hcases other hother heq]
    · rw [if_neg heq]

theorem update_of_node {lru : LruList} {node sit : ℕ}
    (hunique : Unique LruNode.id lru.nodes) (hnode : cit.lruIt = some node)
    (hmem : ⟨node, sit, cit.id⟩ ∈ lru.nodes) :
    (lru.update sit cit).2 = cit ∧
      (lru.update sit cit).1.nextNode = lru.nextNode ∧
      (lru.update sit cit).1.nodes.Perm lru.nodes := by
  unfold LruList.update
  rw [hnode]
  refine ⟨rfl, rfl, ?_⟩
  simp only
  have hsplit := List.filter_append_perm (fun other : LruNode =>
    decide (other.id ≠ node)) lru.nodes
  have hrest : lru.nodes.filter
      (fun other => !decide (other.id ≠ node)) =
        [⟨node, sit, cit.id⟩] := by
    rw [← hunique.filter_key hmem]
    apply List.filter_congr
    intro other _
    simp
  rw [hrest] at hsplit
  exact hsplit

/-! ## Changing the entries of one server -/

theorem allFiles_writeList
    (hcons : Consistent cache) (hsit : sit ∈ cache.serverList)
    (cacheList : List CacheEntry) :
    allFiles (cache.writeList sit.id cacheList).serverList =
      allFiles cache.serverList - fileCount sit.cacheList +
        fileCount cacheList :=
  sum_write hcons.ids hsit fun entry => fileCount entry.cacheList

theorem writeEntry_eq
    (hcons : Consistent cache) (hsit : sit ∈ cache.serverList)
    (cit : CacheEntry) :
    cache.writeEntry sit.id cit =
      cache.writeList sit.id
        (write CacheEntry.id cit.id (fun _ => cit) sit.cacheList) := by
  unfold writeEntry writeList
  congr 1
  apply List.map_congr_left
  intro other hother
  by_cases hid : other.id = sit.id
  · rw [if_pos hid, if_pos hid, hcons.ids.eq_of_key hother hsit hid]
  · rw [if_neg hid, if_neg hid]

theorem Consistent.withEntries
    (hcons : Consistent cache) (hsit : sit ∈ cache.serverList)
    {lru : LruList} (count : ℤ)
    (hnext : cache.nextEntry ≤ nextEntry)
    (hnodes : Unique LruNode.id lru.nodes)
    (hfresh : ∀ node ∈ lru.nodes, node.id < lru.nextNode)
    (hothers : ∀ node, node.server ≠ sit.id →
      (node ∈ lru.nodes ↔ node ∈ cache.leastRecentlyUsedList.nodes))
    (hlinked : Linked lru.nodes nextEntry sit.id cacheList) :
    Consistent ({ cache with
      leastRecentlyUsedList := lru
      totalFileCount := count
      nextEntry := nextEntry }.writeList sit.id cacheList) := by
  have hmem : ∀ other,
      other ∈ (cache.writeList sit.id cacheList).serverList ↔
        other = { sit with cacheList := cacheList } ∨
          other ∈ cache.serverList ∧ other.id ≠ sit.id := by
    intro other
    exact mem_write_iff hcons.ids hsit
  constructor
  · apply hcons.ids.map
    intro other _
    by_cases hid : other.id = sit.id
    · rw [if_pos hid]
    · rw [if_neg hid]
  · intro other hother
    rcases (hmem other).mp hother with rfl | ⟨hold, _⟩
    · exact hcons.fresh sit hsit
    · exact hcons.fresh other hold
  · show List.Pairwise _ (write ServerEntry.id sit.id _ cache.serverList)
    unfold write
    rw [List.pairwise_map]
    apply List.Pairwise.imp _ hcons.apart
    intro first second hapart
    have hserver : ∀ other : ServerEntry,
        (if other.id = sit.id then { other with cacheList := cacheList }
          else other).server = other.server := by
      intro other
      by_cases hid : other.id = sit.id
      · rw [if_pos hid]
      · rw [if_neg hid]
    rw [hserver, hserver]
    exact hapart
  · intro other hother
    rcases (hmem other).mp hother with rfl | ⟨hold, hne⟩
    · exact hlinked
    · have hbefore := hcons.linked other hold
      constructor
      · exact hbefore.ids
      · intro cit hcit
        exact lt_of_lt_of_le (hbefore.fresh cit hcit) hnext
      · exact hbefore.ordered
      · intro cit hcit
        obtain ⟨node, hnode, hin⟩ := hbefore.node cit hcit
        exact ⟨node, hnode, (hothers _ hne).mpr hin⟩
      · intro node hin hserver
        have hnot : node.server ≠ sit.id := by
          rw [hserver]
          exact hne
        exact hbefore.entry node ((hothers node hnot).mp hin) hserver
  · exact hnodes
  · exact hfresh
  · intro node hin
    by_cases hserver : node.server = sit.id
    · exact ⟨_, (hmem _).mpr (Or.inl rfl), hserver.symm⟩
    · obtain ⟨other, hother, hid⟩ :=
        hcons.placed node ((hothers node hserver).mp hin)
      refine ⟨other, (hmem other).mpr (Or.inr ⟨hother, ?_⟩), hid⟩
      rw [hid]
      exact hserver

/-- The links are kept, and the number of files changes by what the sizes of
the listings change. -/
structure Keeps (cache following : DirectoryCache) : Prop where
  consistent : Consistent following
  drift : following.drift = cache.drift

theorem Keeps.refl (hcons : Consistent cache) : Keeps cache cache :=
  ⟨hcons, rfl⟩

theorem Keeps.trans {following last : DirectoryCache}
    (hfirst : Keeps cache following) (hsecond : Keeps following last) :
    Keeps cache last :=
  ⟨hsecond.consistent, hsecond.drift.trans hfirst.drift⟩

theorem Consistent.mapEntries
    (hcons : Consistent cache) (hsit : sit ∈ cache.serverList)
    {lru : LruList} {change : CacheEntry → CacheEntry} {delta : ℤ}
    (hnext : lru.nextNode = cache.leastRecentlyUsedList.nextNode)
    (hperm : lru.nodes.Perm cache.leastRecentlyUsedList.nodes)
    (hsame : SameLinks change sit.cacheList)
    (hdelta : fileCount (sit.cacheList.map change) =
      fileCount sit.cacheList + delta) :
    Keeps cache ({ cache with
      leastRecentlyUsedList := lru
      totalFileCount := cache.totalFileCount + delta }.writeList sit.id
        (sit.cacheList.map change)) := by
  have hnodes : Unique LruNode.id lru.nodes :=
    (hperm.map LruNode.id).nodup_iff.mpr hcons.nodes
  have hfresh : ∀ node ∈ lru.nodes, node.id < lru.nextNode := by
    intro node hin
    rw [hnext]
    exact hcons.freshNodes node (hperm.mem_iff.mp hin)
  have hlinked := (hcons.linked sit hsit).map hperm hsame
  constructor
  · exact hcons.withEntries hsit (cache.totalFileCount + delta) le_rfl hnodes
      hfresh (fun node _ => hperm.mem_iff) hlinked
  · have hfiles := allFiles_writeList hcons hsit (sit.cacheList.map change)
    show cache.totalFileCount + delta -
      allFiles (cache.writeList sit.id
        (sit.cacheList.map change)).serverList =
      cache.totalFileCount - allFiles cache.serverList
    rw [hfiles, hdelta]
    omega

/-! ## Visiting -/

def editEntry (isMatch : CacheEntry → Bool)
    (edit : DirectoryListing → DirectoryListing × ℤ) (now : ℤ)
    (cit : CacheEntry) : CacheEntry :=
  if isMatch cit then
    { cit with listing := (edit cit.listing).1, modificationTime := now }
  else cit

/-- A change of listings that keeps the path and reports by how much the size
changes. -/
structure KeepsBooks (edit : DirectoryListing → DirectoryListing × ℤ) :
    Prop where
  path : ∀ listing, (edit listing).1.path = listing.path
  size : ∀ listing,
    ((edit listing).1.size : ℤ) = listing.size + (edit listing).2

theorem editEntry_sameLinks
    {edit : DirectoryListing → DirectoryListing × ℤ}
    (hedit : KeepsBooks edit) (isMatch : CacheEntry → Bool) (now : ℤ)
    (cacheList : List CacheEntry) :
    SameLinks (editEntry isMatch edit now) cacheList := by
  constructor
  all_goals
    intro cit _
    unfold editEntry
    cases isMatch cit
  · rfl
  · rfl
  · rfl
  · rfl
  · rfl
  · exact hedit.path cit.listing

theorem visitEntries_eq {sit : ℕ} {isMatch : CacheEntry → Bool}
    {edit : DirectoryListing → DirectoryListing × ℤ} {now : ℤ}
    (hedit : KeepsBooks edit) (entries : List CacheEntry) (lru : LruList)
    (hunique : Unique LruNode.id lru.nodes)
    (hlinked : ∀ cit ∈ entries, ∃ node,
      cit.lruIt = some node ∧ ⟨node, sit, cit.id⟩ ∈ lru.nodes) :
    let visited := visitEntries sit isMatch edit now lru entries
    visited.1.nextNode = lru.nextNode ∧ visited.1.nodes.Perm lru.nodes ∧
      visited.2.1 = entries.map (editEntry isMatch edit now) ∧
      fileCount visited.2.1 = fileCount entries + visited.2.2 := by
  induction entries generalizing lru with
  | nil => exact ⟨rfl, List.Perm.refl _, rfl, rfl⟩
  | cons cit entries ih =>
      obtain ⟨node, hnode, hin⟩ := hlinked cit List.mem_cons_self
      by_cases hmatch : isMatch cit = true
      · obtain ⟨hsame, hnext, hperm⟩ := update_of_node hunique hnode hin
        have hunique' : Unique LruNode.id (lru.update sit cit).1.nodes :=
          (hperm.map LruNode.id).nodup_iff.mpr hunique
        obtain ⟨hnextRest, hpermRest, hentries, hcount⟩ :=
          ih (lru.update sit cit).1 hunique' (by
            intro other hother
            obtain ⟨node, hnode, hin⟩ :=
              hlinked other (List.mem_cons_of_mem _ hother)
            exact ⟨node, hnode, hperm.mem_iff.mpr hin⟩)
        have hsize := hedit.size cit.listing
        simp only [visitEntries, if_pos hmatch, hsame]
        refine ⟨hnextRest.trans hnext, hpermRest.trans hperm, ?_, ?_⟩
        · rw [hentries, List.map_cons, editEntry, if_pos hmatch]
        · unfold fileCount at hcount ⊢
          rw [List.map_cons, List.sum_cons, List.map_cons, List.sum_cons,
            hcount, hsize]
          omega
      · obtain ⟨hnext, hperm, hentries, hcount⟩ := ih lru hunique (by
          intro other hother
          exact hlinked other (List.mem_cons_of_mem _ hother))
        simp only [visitEntries, if_neg hmatch]
        refine ⟨hnext, hperm, ?_, ?_⟩
        · rw [hentries, List.map_cons, editEntry, if_neg hmatch]
        · unfold fileCount at hcount ⊢
          rw [List.map_cons, List.sum_cons, List.map_cons, List.sum_cons,
            hcount]
          omega

theorem visit_serverList
    {isMatch : CacheEntry → Bool}
    {edit : DirectoryListing → DirectoryListing × ℤ}
    (hcons : Consistent cache) (hsit : sit ∈ cache.serverList)
    (hedit : KeepsBooks edit) (now : ℤ) :
    (cache.visit sit isMatch edit now).serverList =
      (cache.writeList sit.id
        (sit.cacheList.map (editEntry isMatch edit now))).serverList := by
  obtain ⟨_, _, hentries, _⟩ := @visitEntries_eq sit.id isMatch edit now
    hedit sit.cacheList cache.leastRecentlyUsedList hcons.nodes
    (hcons.linked sit hsit).node
  rw [← hentries]
  rfl

theorem visit_keeps
    {isMatch : CacheEntry → Bool}
    {edit : DirectoryListing → DirectoryListing × ℤ}
    (hcons : Consistent cache) (hsit : sit ∈ cache.serverList)
    (hedit : KeepsBooks edit) (now : ℤ) :
    Keeps cache (cache.visit sit isMatch edit now) := by
  obtain ⟨hnext, hperm, hentries, hcount⟩ :=
    @visitEntries_eq sit.id isMatch edit now hedit sit.cacheList
      cache.leastRecentlyUsedList hcons.nodes (hcons.linked sit hsit).node
  have hsame := editEntry_sameLinks hedit isMatch now sit.cacheList
  unfold visit
  simp only
  rw [hentries] at hcount ⊢
  exact hcons.mapEntries hsit hnext hperm hsame hcount

/-! ## Looking up -/

theorem mem_of_getServerEntry {server : Server}
    (hfound : cache.getServerEntry server = some sit) :
    sit ∈ cache.serverList :=
  List.mem_of_find?_eq_some hfound

theorem Linked.perm {sit : ℕ}
    (hlinked : Linked nodes nextEntry sit cacheList)
    (hperm : nodes'.Perm nodes) : Linked nodes' nextEntry sit cacheList := by
  have hsame : SameLinks id cacheList :=
    ⟨fun _ _ => rfl, fun _ _ => rfl, fun _ _ => rfl⟩
  have hmap := hlinked.map hperm hsame
  rw [List.map_id] at hmap
  exact hmap

theorem Consistent.reorder
    (hcons : Consistent cache) {lru : LruList} (count : ℤ)
    (hnext : lru.nextNode = cache.leastRecentlyUsedList.nextNode)
    (hperm : lru.nodes.Perm cache.leastRecentlyUsedList.nodes) :
    Consistent { cache with
      leastRecentlyUsedList := lru
      totalFileCount := count } where
  ids := hcons.ids
  fresh := hcons.fresh
  apart := hcons.apart
  linked sit hsit := (hcons.linked sit hsit).perm hperm
  nodes := (hperm.map LruNode.id).nodup_iff.mpr hcons.nodes
  freshNodes := by
    intro node hin
    rw [hnext]
    exact hcons.freshNodes node (hperm.mem_iff.mp hin)
  placed node hin := hcons.placed node (hperm.mem_iff.mp hin)

def Reordered (cache following : DirectoryCache) : Prop :=
  ∃ lru : LruList, following = { cache with leastRecentlyUsedList := lru } ∧
    lru.nextNode = cache.leastRecentlyUsedList.nextNode ∧
    lru.nodes.Perm cache.leastRecentlyUsedList.nodes

theorem Reordered.refl (cache : DirectoryCache) : Reordered cache cache :=
  ⟨cache.leastRecentlyUsedList, rfl, rfl, List.Perm.refl _⟩

theorem Reordered.serverList {following : DirectoryCache}
    (hreordered : Reordered cache following) :
    following.serverList = cache.serverList := by
  obtain ⟨lru, rfl, _⟩ := hreordered
  rfl

theorem Reordered.totalFileCount {following : DirectoryCache}
    (hreordered : Reordered cache following) :
    following.totalFileCount = cache.totalFileCount := by
  obtain ⟨lru, rfl, _⟩ := hreordered
  rfl

theorem Reordered.keeps {following : DirectoryCache}
    (hreordered : Reordered cache following) (hcons : Consistent cache) :
    Keeps cache following := by
  obtain ⟨lru, rfl, hnext, hperm⟩ := hreordered
  exact ⟨hcons.reorder cache.totalFileCount hnext hperm, rfl⟩

theorem writeEntry_self
    (hcons : Consistent cache) (hsit : sit ∈ cache.serverList)
    (hcit : cit ∈ sit.cacheList) : cache.writeEntry sit.id cit = cache := by
  rw [writeEntry_eq hcons hsit,
    write_of_fixed (hcons.linked sit hsit).ids hcit rfl]
  unfold writeList
  have hsame : write ServerEntry.id sit.id
      (fun entry => { entry with cacheList := sit.cacheList })
        cache.serverList = cache.serverList :=
    write_of_fixed hcons.ids hsit rfl
  rw [hsame]

theorem updateLru_spec
    (hcons : Consistent cache) (hsit : sit ∈ cache.serverList)
    (hcit : cit ∈ sit.cacheList) :
    (cache.updateLru sit.id cit).2 = cit ∧
      Reordered cache (cache.updateLru sit.id cit).1 := by
  obtain ⟨node, hnode, hin⟩ := (hcons.linked sit hsit).node cit hcit
  obtain ⟨hsame, hnext, hperm⟩ := update_of_node hcons.nodes hnode hin
  refine ⟨hsame, (cache.leastRecentlyUsedList.update sit.id cit).1, ?_, hnext,
    hperm⟩
  unfold updateLru
  simp only
  rw [hsame]
  exact writeEntry_self
    (hcons.reorder cache.totalFileCount hnext hperm) hsit hcit

theorem lookupEntry_reordered
    (hcons : Consistent cache) (hsit : sit ∈ cache.serverList)
    (path : ServerPath) (allowUnsureEntries : Bool) (now : ℤ) :
    Reordered cache
      (cache.lookupEntry sit path allowUnsureEntries now).1 := by
  unfold lookupEntry
  cases hfind : CacheEntry.find path sit.cacheList with
  | none => exact Reordered.refl cache
  | some entry =>
      have hmem := OrderedSet.lowerBound_mem hfind
      obtain ⟨_, hreordered⟩ := updateLru_spec hcons hsit hmem
      simp only
      split
      · split
        · exact hreordered
        · exact hreordered
      · exact Reordered.refl cache

theorem lookupEntry_some {path : ServerPath} {allowUnsureEntries : Bool}
    {now : ℤ} {outdated : Bool}
    (hcons : Consistent cache) (hsit : sit ∈ cache.serverList)
    (hfound : (cache.lookupEntry sit path allowUnsureEntries now).2 =
      some (cit, outdated)) :
    cit ∈ sit.cacheList ∧ cit.path = path := by
  unfold lookupEntry at hfound
  cases hfind : CacheEntry.find path sit.cacheList with
  | none =>
      rw [hfind] at hfound
      cases hfound
  | some entry =>
      have hmem := OrderedSet.lowerBound_mem hfind
      obtain ⟨hentry, _⟩ := updateLru_spec hcons hsit hmem
      rw [hfind] at hfound
      simp only at hfound
      split at hfound
      · rename_i hsame
        split at hfound
        · cases hfound
        · rw [hentry, Option.some.injEq, Prod.mk.injEq] at hfound
          rw [← hfound.1]
          exact ⟨hmem, (ServerPath.same_iff _ _).mp hsame⟩
      · cases hfound

theorem find_of_mem
    (hcons : Consistent cache) (hsit : sit ∈ cache.serverList)
    (hcit : cit ∈ sit.cacheList) :
    CacheEntry.find cit.path sit.cacheList = some cit :=
  (hcons.linked sit hsit).ordered.lowerBound_eq ServerPath.less_strictWeak
    hcit (ServerPath.less_strictWeak.refl cit.path)

theorem lookupEntry_none {path : ServerPath} {now : ℤ}
    (hcons : Consistent cache) (hsit : sit ∈ cache.serverList)
    (hfound : (cache.lookupEntry sit path true now).2 = none) :
    ∀ cit ∈ sit.cacheList, cit.path ≠ path := by
  intro cit hcit hpath
  subst hpath
  unfold lookupEntry at hfound
  rw [find_of_mem hcons hsit hcit] at hfound
  have hsame : cit.listing.path.same cit.path = true :=
    (ServerPath.same_iff _ _).mpr rfl
  simp only [hsame, if_true, Bool.not_true, Bool.false_and] at hfound
  cases hfound

/-! ## Erasing entries -/

theorem Linked.erase {sit : ℕ}
    (hlinked : Linked nodes nextEntry sit cacheList)
    (hunique : Unique LruNode.id nodes) (isErased : CacheEntry → Bool)
    (hkept : ∀ node, node ∈ nodes' ↔ node ∈ nodes ∧
      ∀ cit ∈ cacheList, isErased cit = true → cit.lruIt ≠ some node.id) :
    Linked nodes' nextEntry sit
      (cacheList.filter fun cit => !isErased cit) where
  ids := hlinked.ids.filter _
  fresh := by
    intro cit hcit
    exact hlinked.fresh cit (List.mem_of_mem_filter hcit)
  ordered := hlinked.ordered.filter _
  node := by
    intro cit hcit
    obtain ⟨hmem, hleft⟩ := List.mem_filter.mp hcit
    obtain ⟨node, hnode, hin⟩ := hlinked.node cit hmem
    refine ⟨node, hnode, (hkept _).mpr ⟨hin, ?_⟩⟩
    intro other hother herased hsame
    -- two entries with one node are the same entry
    obtain ⟨node', hnode', hin'⟩ := hlinked.node other hother
    have hid : node' = node :=
      Option.some.inj (hnode'.symm.trans hsame)
    have hnodes := hunique.eq_of_key hin' hin hid
    have hentry : other.id = cit.id := (LruNode.mk.inj hnodes).2.2
    rw [hlinked.ids.eq_of_key hother hmem hentry] at herased
    rw [herased] at hleft
    cases hleft
  entry := by
    intro node hin hserver
    obtain ⟨hold, hleft⟩ := (hkept node).mp hin
    obtain ⟨cit, hcit, hid, hnode⟩ := hlinked.entry node hold hserver
    refine ⟨cit, List.mem_filter.mpr ⟨hcit, ?_⟩, hid, hnode⟩
    cases herased : isErased cit with
    | false => rfl
    | true => exact absurd hnode (hleft cit hcit herased)

theorem lruIt_ne_of_server
    (hcons : Consistent cache) (hsit : sit ∈ cache.serverList)
    (hcit : cit ∈ sit.cacheList) {node : LruNode}
    (hin : node ∈ cache.leastRecentlyUsedList.nodes)
    (hserver : node.server ≠ sit.id) : cit.lruIt ≠ some node.id := by
  intro hsame
  obtain ⟨own, hown, hmem⟩ := (hcons.linked sit hsit).node cit hcit
  have hid : own = node.id := Option.some.inj (hown.symm.trans hsame)
  have hnodes := hcons.nodes.eq_of_key hmem hin hid
  rw [← hnodes] at hserver
  exact hserver rfl

theorem mem_eraseNodes {lru : LruList} {erased : List CacheEntry}
    {node : LruNode} :
    node ∈ (eraseNodes lru erased).nodes ↔
      node ∈ lru.nodes ∧ ∀ cit ∈ erased, cit.lruIt ≠ some node.id := by
  unfold eraseNodes
  simp

theorem fileCount_filter (isErased : CacheEntry → Bool)
    (cacheList : List CacheEntry) :
    fileCount (cacheList.filter fun cit => !isErased cit) =
      fileCount cacheList - fileCount (cacheList.filter isErased) := by
  have hsum := sum_filter (fun cit => !isErased cit)
    (fun cit : CacheEntry => (cit.listing.size : ℤ)) cacheList
  simp only [Bool.not_not] at hsum
  exact hsum

theorem eraseEntries_keeps
    (hcons : Consistent cache) (hsit : sit ∈ cache.serverList)
    (isErased : CacheEntry → Bool) :
    Keeps cache (cache.eraseEntries sit isErased) := by
  have hmem : ∀ node,
      node ∈ (eraseNodes cache.leastRecentlyUsedList
        (sit.cacheList.filter isErased)).nodes ↔
      node ∈ cache.leastRecentlyUsedList.nodes ∧
        ∀ cit ∈ sit.cacheList, isErased cit = true →
          cit.lruIt ≠ some node.id := by
    intro node
    rw [mem_eraseNodes]
    simp only [List.mem_filter, and_imp]
  constructor
  · apply hcons.withEntries hsit _ le_rfl
    · exact hcons.nodes.filter _
    · intro node hin
      exact hcons.freshNodes node ((hmem node).mp hin).1
    · intro node hserver
      rw [hmem]
      refine ⟨fun h => h.1, fun hin => ⟨hin, ?_⟩⟩
      intro cit hcit _
      exact lruIt_ne_of_server hcons hsit hcit hin hserver
    · exact (hcons.linked sit hsit).erase hcons.nodes isErased hmem
  · have hfiles := allFiles_writeList hcons hsit
      (sit.cacheList.filter fun cit => !isErased cit)
    show cache.totalFileCount - fileCount (sit.cacheList.filter isErased) -
      allFiles (cache.writeList sit.id
        (sit.cacheList.filter fun cit => !isErased cit)).serverList =
      cache.totalFileCount - allFiles cache.serverList
    rw [hfiles, fileCount_filter]
    omega

theorem Consistent.dropServers
    (hcons : Consistent cache) (keep : ServerEntry → Bool)
    (hempty : ∀ sit ∈ cache.serverList, keep sit = false →
      sit.cacheList = []) :
    Keeps cache
      { cache with serverList := cache.serverList.filter keep } := by
  constructor
  · constructor
    · exact hcons.ids.filter keep
    · intro sit hsit
      exact hcons.fresh sit (List.mem_of_mem_filter hsit)
    · exact hcons.apart.filter keep
    · intro sit hsit
      exact hcons.linked sit (List.mem_of_mem_filter hsit)
    · exact hcons.nodes
    · exact hcons.freshNodes
    · intro node hin
      obtain ⟨sit, hsit, hid⟩ := hcons.placed node hin
      refine ⟨sit, List.mem_filter.mpr ⟨hsit, ?_⟩, hid⟩
      by_contra hdropped
      obtain ⟨cit, hcit, _⟩ :=
        (hcons.linked sit hsit).entry node hin hid.symm
      rw [hempty sit hsit (by simpa using hdropped)] at hcit
      cases hcit
  · have hsum := sum_filter keep
      (fun sit : ServerEntry => fileCount sit.cacheList) cache.serverList
    have hzero : ((cache.serverList.filter fun sit => !keep sit).map
        fun sit => fileCount sit.cacheList).sum = 0 := by
      apply List.sum_eq_zero
      intro count hmem
      obtain ⟨sit, hsit, rfl⟩ := List.mem_map.mp hmem
      obtain ⟨hin, hdropped⟩ := List.mem_filter.mp hsit
      rw [hempty sit hin (by simpa using hdropped)]
      rfl
    show cache.totalFileCount - allFiles (cache.serverList.filter keep) =
      cache.totalFileCount - allFiles cache.serverList
    unfold allFiles
    rw [hsum, hzero, sub_zero]

theorem filter_writeList (cacheList : List CacheEntry) (sit : ℕ) :
    (cache.writeList sit cacheList).serverList.filter (·.id ≠ sit) =
      cache.serverList.filter (·.id ≠ sit) := by
  unfold writeList write
  induction cache.serverList with
  | nil => rfl
  | cons first serverList ih =>
      by_cases hid : first.id = sit
      · simp [hid] at ih ⊢
        exact ih
      · simp [hid] at ih ⊢
        exact ih

theorem invalidateServer_keeps
    (hcons : Consistent cache) (server : Server) :
    Keeps cache (cache.invalidateServer server) := by
  unfold invalidateServer
  cases hfound : cache.getServerEntry server with
  | none => exact Keeps.refl hcons
  | some sit =>
      have hsit := mem_of_getServerEntry hfound
      have herase := eraseEntries_keeps hcons hsit fun _ => true
      have hdrop := herase.consistent.dropServers (fun other => other.id ≠ sit.id)
        (by
          intro other hother hdropped
          unfold eraseEntries at hother
          have hid : other.id = sit.id := by simpa using hdropped
          rcases (mem_write_iff hcons.ids hsit).mp hother with
            rfl | ⟨_, hne⟩
          · simp
          · exact absurd hid hne)
      have hboth := herase.trans hdrop
      simp only
      unfold eraseEntries at hboth
      simp only [List.filter_true] at hboth
      rw [filter_writeList] at hboth
      exact hboth

/-! ## Pruning -/

theorem sizeAt_eq {pos : LruNode} (hcons : Consistent cache)
    (hsit : sit ∈ cache.serverList) (hcit : cit ∈ sit.cacheList)
    (hserver : sit.id = pos.server) (hentry : cit.id = pos.entry) :
    sizeAt cache.serverList pos = cit.listing.size := by
  have hfind : cache.serverList.find? (·.id = pos.server) = some sit := by
    apply hcons.ids.find hsit
    intro other _
    rw [hserver, decide_eq_true_eq]
  have hfindEntry : sit.cacheList.find? (·.id = pos.entry) = some cit := by
    apply (hcons.linked sit hsit).ids.find hcit
    intro other _
    rw [hentry, decide_eq_true_eq]
  unfold sizeAt
  rw [hfind]
  simp only
  rw [hfindEntry]

theorem eraseAt_keeps {pos : LruNode} {nextNode : ℕ}
    (hcons : Consistent cache)
    (hlru : cache.leastRecentlyUsedList = ⟨pos :: nodes, nextNode⟩) :
    Keeps cache { cache with
      leastRecentlyUsedList := ⟨nodes, nextNode⟩
      serverList := eraseAt cache.serverList pos
      totalFileCount :=
        cache.totalFileCount - sizeAt cache.serverList pos } := by
  have hin : pos ∈ cache.leastRecentlyUsedList.nodes := by
    rw [hlru]
    exact List.mem_cons_self
  obtain ⟨sit, hsit, hserver⟩ := hcons.placed pos hin
  have hlinked := hcons.linked sit hsit
  obtain ⟨cit, hcit, hentry, hnode⟩ := hlinked.entry pos hin hserver.symm
  have hnodup : pos.id ∉ nodes.map LruNode.id := by
    have hunique := hcons.nodes
    rw [hlru] at hunique
    exact (List.nodup_cons.mp hunique).1
  have hmem : ∀ node, node ∈ nodes ↔
      node ∈ cache.leastRecentlyUsedList.nodes ∧
        ∀ other ∈ sit.cacheList, decide (other.id = pos.entry) = true →
          other.lruIt ≠ some node.id := by
    intro node
    rw [hlru, List.mem_cons]
    constructor
    · intro hrest
      refine ⟨Or.inr hrest, ?_⟩
      intro other hother hid hsame
      have hcases : other = cit :=
        hlinked.ids.eq_of_key hother hcit (by simpa [hentry] using hid)
      rw [hcases, hnode] at hsame
      apply hnodup
      rw [Option.some.inj hsame]
      exact List.mem_map_of_mem hrest
    · rintro ⟨rfl | hrest, hleft⟩
      · exact absurd hnode (hleft cit hcit (by simp [hentry]))
      · exact hrest
  have hsize : (sizeAt cache.serverList pos : ℤ) =
      fileCount (sit.cacheList.filter fun other => other.id = pos.entry) := by
    have hone : sit.cacheList.filter (fun other => other.id = pos.entry) =
        [cit] := by
      rw [← hentry]
      exact hlinked.ids.filter_key hcit
    rw [sizeAt_eq hcons hsit hcit hserver hentry, hone]
    simp [fileCount]
  have herased : Keeps cache ({ cache with
      leastRecentlyUsedList := ⟨nodes, nextNode⟩
      totalFileCount := cache.totalFileCount - sizeAt cache.serverList pos
      }.writeList sit.id
        (sit.cacheList.filter fun other => other.id ≠ pos.entry)) := by
    have hnot : (fun other : CacheEntry => decide (other.id ≠ pos.entry)) =
        fun other => !decide (other.id = pos.entry) := by
      funext other
      rw [decide_not]
    rw [hnot]
    constructor
    · apply hcons.withEntries hsit _ le_rfl
      · have hunique := hcons.nodes
        rw [hlru] at hunique
        exact (List.nodup_cons.mp hunique).2
      · intro node hrest
        have hfresh := hcons.freshNodes node ((hmem node).mp hrest).1
        rw [hlru] at hfresh
        exact hfresh
      · intro node hother
        rw [hmem]
        refine ⟨fun h => h.1, fun hrest => ⟨hrest, ?_⟩⟩
        intro other hmemOther _
        exact lruIt_ne_of_server hcons hsit hmemOther hrest hother
      · exact hlinked.erase hcons.nodes _ hmem
    · have hfiles := allFiles_writeList hcons hsit
        (sit.cacheList.filter fun other => !decide (other.id = pos.entry))
      show cache.totalFileCount - sizeAt cache.serverList pos -
        allFiles (cache.writeList sit.id (sit.cacheList.filter fun other =>
          !decide (other.id = pos.entry))).serverList =
        cache.totalFileCount - allFiles cache.serverList
      rw [hfiles, fileCount_filter, hsize]
      omega
  have hdrop := herased.consistent.dropServers
    (fun other => decide (other.id ≠ pos.server) ||
      !other.cacheList.isEmpty) (by
      intro other _ hdropped
      simp only [Bool.or_eq_false_iff, Bool.not_eq_false'] at hdropped
      exact List.isEmpty_iff.mp hdropped.2)
  have hboth := herased.trans hdrop
  have hlist : eraseAt cache.serverList pos =
      (cache.writeList sit.id
        (sit.cacheList.filter fun other =>
          other.id ≠ pos.entry)).serverList.filter
        (fun other => decide (other.id ≠ pos.server) ||
          !other.cacheList.isEmpty) := by
    unfold eraseAt writeList
    congr 1
    rw [← hserver]
    apply List.map_congr_left
    intro other hother
    by_cases hid : other.id = sit.id
    · rw [if_pos hid, if_pos hid, hcons.ids.eq_of_key hother hsit hid]
    · rw [if_neg hid, if_neg hid]
  rw [hlist]
  exact hboth

theorem pruneLoop_keeps {nextNode : ℕ} :
    ∀ (nodes : List LruNode) (cache : DirectoryCache), Consistent cache →
      cache.leastRecentlyUsedList = ⟨nodes, nextNode⟩ →
      Keeps cache { cache with
        leastRecentlyUsedList :=
          ⟨(pruneLoop nodes cache.serverList cache.totalFileCount).1,
            nextNode⟩
        serverList :=
          (pruneLoop nodes cache.serverList cache.totalFileCount).2.1
        totalFileCount :=
          (pruneLoop nodes cache.serverList cache.totalFileCount).2.2 } := by
  intro nodes
  induction nodes with
  | nil =>
      intro cache hcons hlru
      unfold pruneLoop
      rw [← hlru]
      exact Keeps.refl hcons
  | cons pos nodes ih =>
      intro cache hcons hlru
      unfold pruneLoop
      by_cases hlarge :
          tooLarge (nodes.length + 1) cache.totalFileCount = true
      · rw [if_pos hlarge]
        have hfirst := eraseAt_keeps hcons hlru
        exact hfirst.trans (ih _ hfirst.consistent rfl)
      · rw [if_neg hlarge, ← hlru]
        exact Keeps.refl hcons

theorem prune_keeps (hcons : Consistent cache) : Keeps cache cache.prune :=
  pruneLoop_keeps cache.leastRecentlyUsedList.nodes cache hcons rfl

/-! ## Storing -/

theorem createServerEntry_keeps
    (hcons : Consistent cache) (server : Server) :
    Keeps cache (cache.createServerEntry server).1 ∧
      (cache.createServerEntry server).2 ∈
        (cache.createServerEntry server).1.serverList := by
  unfold createServerEntry
  cases hfound : cache.getServerEntry server with
  | some sit => exact ⟨Keeps.refl hcons, mem_of_getServerEntry hfound⟩
  | none =>
      have hnone := List.find?_eq_none.mp hfound
      refine ⟨?_, List.mem_append_right _ (List.mem_singleton_self _)⟩
      constructor
      · constructor
        · apply hcons.ids.append_singleton
          intro other hother
          exact (hcons.fresh other hother).ne
        · intro sit hsit
          rcases List.mem_append.mp hsit with hold | hnew
          · exact Nat.lt_succ_of_lt (hcons.fresh sit hold)
          · rw [List.mem_singleton.mp hnew]
            exact Nat.lt_succ_self _
        · apply List.pairwise_append.mpr
          refine ⟨hcons.apart, List.pairwise_singleton _ _, ?_⟩
          intro first hfirst second hsecond
          rw [List.mem_singleton.mp hsecond]
          simpa using hnone first hfirst
        · intro sit hsit
          rcases List.mem_append.mp hsit with hold | hnew
          · exact hcons.linked sit hold
          · rw [List.mem_singleton.mp hnew]
            constructor
            · exact List.nodup_nil
            · simp
            · exact List.Pairwise.nil
            · simp
            · intro node hin hserver
              obtain ⟨other, hother, hid⟩ := hcons.placed node hin
              have hfresh := hcons.fresh other hother
              rw [hid, hserver] at hfresh
              exact absurd hfresh (lt_irrefl _)
        · exact hcons.nodes
        · exact hcons.freshNodes
        · intro node hin
          obtain ⟨sit, hsit, hid⟩ := hcons.placed node hin
          exact ⟨sit, List.mem_append_left _ hsit, hid⟩
      · show cache.totalFileCount - allFiles (cache.serverList ++ _) =
          cache.totalFileCount - allFiles cache.serverList
        unfold allFiles
        rw [List.map_append, List.sum_append]
        simp [fileCount]

theorem replaceListing_consistent {listing : DirectoryListing}
    (hcons : Consistent cache) (hsit : sit ∈ cache.serverList)
    (hcit : cit ∈ sit.cacheList) (hpath : cit.path = listing.path)
    (now : ℤ) :
    Consistent (cache.replaceListing sit.id cit listing now) ∧
      (cache.replaceListing sit.id cit listing now).drift =
        cache.drift - listing.size := by
  have hlinked := hcons.linked sit hsit
  have hsame := @sameLinks_write cit sit.cacheList
    { cit with modificationTime := now, listing := listing } hlinked.ids hcit
    rfl rfl hpath.symm
  have hcons' := hcons.reorder (cache.totalFileCount - cit.listing.size) rfl
    (List.Perm.refl _)
  unfold replaceListing
  rw [writeEntry_eq hcons' hsit]
  constructor
  · apply hcons.withEntries hsit _ le_rfl hcons.nodes hcons.freshNodes
      (fun node _ => Iff.rfl)
    exact hlinked.map (List.Perm.refl _) hsame
  · have hsum := @sum_write _ _ CacheEntry.id _ cit
      (fun _ => { cit with modificationTime := now, listing := listing })
      _ hlinked.ids hcit fun other => (other.listing.size : ℤ)
    have hfiles := allFiles_writeList hcons hsit
      (write CacheEntry.id cit.id
        (fun _ => { cit with modificationTime := now, listing := listing })
        sit.cacheList)
    show cache.totalFileCount - cit.listing.size -
        allFiles (cache.writeList sit.id _).serverList =
      cache.totalFileCount - allFiles cache.serverList - listing.size
    rw [hfiles]
    unfold fileCount
    rw [hsum]
    simp only
    omega

theorem Linked.weaken {sit nextEntry' : ℕ}
    (hlinked : Linked nodes nextEntry sit cacheList)
    (hle : nextEntry ≤ nextEntry') :
    Linked nodes nextEntry' sit cacheList :=
  { hlinked with
    fresh := fun cit hcit => (hlinked.fresh cit hcit).trans_le hle }

theorem Linked.ids_of_perm {sit : ℕ} {emplaced : List CacheEntry}
    (hlinked : Linked nodes nextEntry sit cacheList)
    (hid : cit.id = nextEntry) (hperm : emplaced.Perm (cit :: cacheList)) :
    Unique CacheEntry.id emplaced := by
  apply (hperm.map CacheEntry.id).nodup_iff.mpr
  rw [List.map_cons, List.nodup_cons]
  refine ⟨?_, hlinked.ids⟩
  intro hmem
  obtain ⟨other, hother, heq⟩ := List.mem_map.mp hmem
  exact (hlinked.fresh other hother).ne (heq.trans hid)

theorem Linked.mem_insert_iff {sit nextNode : ℕ} {cit other : CacheEntry}
    (hlinked : Linked nodes nextEntry sit cacheList)
    {emplaced : List CacheEntry} (hid : cit.id = nextEntry)
    (hperm : emplaced.Perm (cit :: cacheList)) :
    other ∈ write CacheEntry.id nextEntry
        (fun _ => { cit with lruIt := some nextNode }) emplaced ↔
      other = { cit with lruIt := some nextNode } ∨ other ∈ cacheList := by
  have hunique := hlinked.ids_of_perm hid hperm
  have hin : cit ∈ emplaced := hperm.mem_iff.mpr List.mem_cons_self
  rw [← hid, mem_write_iff hunique hin, hperm.mem_iff, List.mem_cons]
  constructor
  · rintro (rfl | ⟨rfl | hother, hne⟩)
    · exact Or.inl rfl
    · exact absurd rfl hne
    · exact Or.inr hother
  · rintro (rfl | hother)
    · exact Or.inl rfl
    · refine Or.inr ⟨Or.inr hother, ?_⟩
      rw [hid]
      exact (hlinked.fresh other hother).ne

theorem Linked.insert {sit nextNode : ℕ} {cit : CacheEntry}
    (hlinked : Linked nodes nextEntry sit cacheList)
    {emplaced : List CacheEntry} (hid : cit.id = nextEntry)
    (hperm : emplaced.Perm (cit :: cacheList))
    (hordered :
      OrderedSet.Ordered CacheEntry.path ServerPath.less emplaced) :
    Linked (nodes ++ [⟨nextNode, sit, nextEntry⟩]) (nextEntry + 1) sit
      (write CacheEntry.id nextEntry
        (fun _ => { cit with lruIt := some nextNode }) emplaced) := by
  have hunique := hlinked.ids_of_perm hid hperm
  have hin : cit ∈ emplaced := hperm.mem_iff.mpr List.mem_cons_self
  have hmem : ∀ other,
      other ∈ write CacheEntry.id nextEntry
          (fun _ => { cit with lruIt := some nextNode }) emplaced ↔
        other = { cit with lruIt := some nextNode } ∨
          other ∈ cacheList := fun other => hlinked.mem_insert_iff hid hperm
  constructor
  · apply hunique.map
    intro other _
    by_cases heq : other.id = nextEntry
    · rw [if_pos heq, heq, hid]
    · rw [if_neg heq]
  · intro other hother
    rcases (hmem other).mp hother with rfl | hother
    · exact hid.trans_lt (Nat.lt_succ_self _)
    · exact Nat.lt_succ_of_lt (hlinked.fresh other hother)
  · apply hordered.map
    intro other hother
    by_cases heq : other.id = nextEntry
    · rw [if_pos heq,
        hunique.eq_of_key hother hin (heq.trans hid.symm)]
      rfl
    · rw [if_neg heq]
  · intro other hother
    rcases (hmem other).mp hother with rfl | hother
    · refine ⟨nextNode, rfl, List.mem_append_right _ ?_⟩
      rw [hid]
      exact List.mem_singleton_self _
    · obtain ⟨node, hnode, hin⟩ := hlinked.node other hother
      exact ⟨node, hnode, List.mem_append_left _ hin⟩
  · intro node hnode hserver
    rcases List.mem_append.mp hnode with hbefore | hnew
    · obtain ⟨other, hother, heq, hlru⟩ :=
        hlinked.entry node hbefore hserver
      exact ⟨other, (hmem other).mpr (Or.inr hother), heq, hlru⟩
    · rw [List.mem_singleton.mp hnew]
      exact ⟨_, (hmem _).mpr (Or.inl rfl), hid, rfl⟩

theorem writeEntry_writeList (sit : ℕ) (cacheList : List CacheEntry)
    (cit : CacheEntry) :
    (cache.writeList sit cacheList).writeEntry sit cit =
      cache.writeList sit
        (write CacheEntry.id cit.id (fun _ => cit) cacheList) := by
  unfold writeEntry writeList
  congr 1
  show write ServerEntry.id sit _ (write ServerEntry.id sit _ _) = _
  unfold write
  rw [List.map_map]
  apply List.map_congr_left
  intro other _
  simp only [Function.comp_apply]
  by_cases hid : other.id = sit
  · rw [if_pos hid, if_pos hid, if_pos hid]
  · rw [if_neg hid, if_neg hid, if_neg hid]

theorem updateLru_writeList (sit : ℕ) (cacheList : List CacheEntry)
    (hnode : cit.lruIt = none) :
    ((cache.writeList sit cacheList).updateLru sit cit).1 =
      { cache with
        leastRecentlyUsedList :=
          LruList.mk
            (cache.leastRecentlyUsedList.nodes ++
              [LruNode.mk cache.leastRecentlyUsedList.nextNode sit cit.id])
            (cache.leastRecentlyUsedList.nextNode + 1) }.writeList sit
        (write CacheEntry.id cit.id
          (fun _ => { cit with
            lruIt := some cache.leastRecentlyUsedList.nextNode })
          cacheList) := by
  unfold updateLru LruList.update
  rw [hnode]
  let lru : LruList :=
    LruList.mk
      (cache.leastRecentlyUsedList.nodes ++
        [LruNode.mk cache.leastRecentlyUsedList.nextNode sit cit.id])
      (cache.leastRecentlyUsedList.nextNode + 1)
  exact @writeEntry_writeList { cache with leastRecentlyUsedList := lru } sit
    cacheList _

theorem insertListing_consistent
    (hcons : Consistent cache) (hsit : sit ∈ cache.serverList)
    (listing : DirectoryListing) (now : ℤ) :
    Consistent (cache.insertListing sit listing now) ∧
      ((∀ cit ∈ sit.cacheList, ¬ OrderedSet.Equivalent ServerPath.less
          cit.path listing.path) →
        (cache.insertListing sit listing now).drift =
          cache.drift - listing.size) ∧
      ((∃ cit ∈ sit.cacheList, OrderedSet.Equivalent ServerPath.less
          cit.path listing.path) →
        (cache.insertListing sit listing now).drift = cache.drift) := by
  have hlinked := hcons.linked sit hsit
  have hordered := hlinked.ordered.emplace ServerPath.less_strictWeak
    ⟨cache.nextEntry, listing, now, none⟩
  have hcases := @OrderedSet.emplace_cases _ _ CacheEntry.path
    ServerPath.less ⟨cache.nextEntry, listing, now, none⟩ sit.cacheList
  unfold insertListing
  simp only
  generalize OrderedSet.emplace CacheEntry.path ServerPath.less
    ⟨cache.nextEntry, listing, now, none⟩ sit.cacheList = emplaced
    at hordered hcases ⊢
  rcases hcases with ⟨hnew, hperm⟩ | ⟨hkept, hmem, hsame⟩
  · rw [hnew]
    have hadded := @Linked.insert _ _ _ sit.id
      cache.leastRecentlyUsedList.nextNode
      ⟨cache.nextEntry, listing, now, none⟩ hlinked _ rfl hperm hordered
    have hupdate := @updateLru_writeList
      { cache with nextEntry := cache.nextEntry + 1 }
      ⟨cache.nextEntry, listing, now, none⟩ sit.id emplaced.1 rfl
    simp only at hupdate
    rw [hupdate]
    refine ⟨?_, ?_, ?_⟩
    · apply hcons.withEntries hsit cache.totalFileCount
        (Nat.le_succ cache.nextEntry)
      · apply hcons.nodes.append_singleton
        intro other hother
        exact (hcons.freshNodes other hother).ne
      · intro node hin
        rcases List.mem_append.mp hin with hold | hlast
        · exact Nat.lt_succ_of_lt (hcons.freshNodes node hold)
        · rw [List.mem_singleton.mp hlast]
          exact Nat.lt_succ_self _
      · intro node hserver
        rw [List.mem_append, List.mem_singleton]
        constructor
        · rintro (hold | rfl)
          · exact hold
          · exact absurd rfl hserver
        · exact Or.inl
      · exact hadded
    · intro _
      have hunique := hlinked.ids_of_perm rfl hperm
      have hsum := @sum_write _ _ CacheEntry.id _ _
        (fun _ => ⟨cache.nextEntry, listing, now,
          some cache.leastRecentlyUsedList.nextNode⟩) _ hunique
        (hperm.mem_iff.mpr List.mem_cons_self)
        fun other => (other.listing.size : ℤ)
      have hsizes := hperm.map fun other : CacheEntry =>
        (other.listing.size : ℤ)
      have hold : fileCount emplaced.1 =
          listing.size + fileCount sit.cacheList := hsizes.sum_eq
      have hfiles := allFiles_writeList hcons hsit
        (write CacheEntry.id cache.nextEntry
          (fun _ => ⟨cache.nextEntry, listing, now,
            some cache.leastRecentlyUsedList.nextNode⟩) emplaced.1)
      show cache.totalFileCount -
          allFiles (cache.writeList sit.id _).serverList =
        cache.totalFileCount - allFiles cache.serverList - listing.size
      unfold fileCount at hold hfiles
      rw [hfiles, hsum, hold]
      simp only
      omega
    · rintro ⟨cit, hcit, hsame⟩
      have hboth := hordered.eq_of_equivalent
        (hperm.mem_iff.mpr (List.mem_cons_of_mem _ hcit))
        (hperm.mem_iff.mpr List.mem_cons_self) hsame
      have hfresh := hlinked.fresh cit hcit
      rw [hboth] at hfresh
      exact absurd hfresh (lt_irrefl _)
  · have hcons' := hcons.withEntries hsit cache.totalFileCount
      (Nat.le_succ cache.nextEntry) hcons.nodes hcons.freshNodes
      (fun node _ => Iff.rfl)
      (hlinked.weaken (Nat.le_succ cache.nextEntry))
    have hlist : ({ cache with
        nextEntry := cache.nextEntry + 1 }.writeList sit.id
          sit.cacheList).serverList = cache.serverList :=
      write_of_fixed hcons.ids hsit rfl
    have hsit' : sit ∈ ({ cache with
        nextEntry := cache.nextEntry + 1 }.writeList sit.id
          sit.cacheList).serverList := by
      rw [hlist]
      exact hsit
    rw [hkept]
    obtain ⟨_, hreordered⟩ := updateLru_spec hcons' hsit' hmem
    refine ⟨(hreordered.keeps hcons').consistent, ?_, ?_⟩
    · intro hnone
      exact absurd hsame (hnone _ hmem)
    · intro _
      rw [(hreordered.keeps hcons').drift]
      unfold drift
      rw [hlist]
      rfl

def Distinguishes (cache : DirectoryCache) (listing : DirectoryListing)
    (server : Server) : Prop :=
  listing.size = 0 ∨
    ∀ sit, cache.getServerEntry server = some sit →
      ∀ cit ∈ sit.cacheList,
        OrderedSet.Equivalent ServerPath.less cit.path listing.path →
          cit.path = listing.path

theorem createServerEntry_entries
    {server : Server} :
    (cache.createServerEntry server).2.cacheList =
      match cache.getServerEntry server with
      | some sit => sit.cacheList
      | none => [] := by
  unfold createServerEntry
  cases cache.getServerEntry server with
  | some sit => rfl
  | none => rfl

theorem distinguishes_iff {listing : DirectoryListing} {server : Server} :
    cache.Distinguishes listing server ↔
      listing.size = 0 ∨
        ∀ cit ∈ (cache.createServerEntry server).2.cacheList,
          OrderedSet.Equivalent ServerPath.less cit.path listing.path →
            cit.path = listing.path := by
  unfold Distinguishes
  rw [createServerEntry_entries]
  cases cache.getServerEntry server with
  | some sit => simp
  | none => simp

theorem storeEntry_drift
    (hcons : Consistent cache) (hsit : sit ∈ cache.serverList)
    (listing : DirectoryListing) (now : ℤ) (stored : DirectoryCache)
    (hstored : stored =
      match cache.lookupEntry sit listing.path true now with
      | (cache, some (cit, _)) => cache.replaceListing sit.id cit listing now
      | (cache, none) => (cache.insertListing sit listing now).prune) :
    Consistent stored ∧
      ((∀ cit ∈ sit.cacheList, OrderedSet.Equivalent ServerPath.less
          cit.path listing.path → cit.path = listing.path) →
        stored.drift = cache.drift - listing.size) ∧
      (¬ (∀ cit ∈ sit.cacheList, OrderedSet.Equivalent ServerPath.less
          cit.path listing.path → cit.path = listing.path) →
        stored.drift = cache.drift) := by
  have hreordered := lookupEntry_reordered hcons hsit listing.path true now
  have hkeeps := hreordered.keeps hcons
  rcases hlookup : cache.lookupEntry sit listing.path true now with
    ⟨looked, found⟩
  rw [hlookup] at hstored hreordered hkeeps
  simp only at hreordered hkeeps
  have hsit' : sit ∈ looked.serverList := by
    rw [hreordered.serverList]
    exact hsit
  cases found with
  | some pair =>
      obtain ⟨cit, outdated⟩ := pair
      obtain ⟨hcit, hpath⟩ := lookupEntry_some hcons hsit
        (congrArg Prod.snd hlookup)
      obtain ⟨hreplaced, hdrift⟩ := replaceListing_consistent
        hkeeps.consistent hsit' hcit hpath now
      rw [hstored]
      refine ⟨hreplaced, ?_, ?_⟩
      · intro _
        rw [← hkeeps.drift]
        exact hdrift
      · intro hmistaken
        exfalso
        apply hmistaken
        intro other hother hsame
        rw [← hpath] at hsame ⊢
        have hordered := (hkeeps.consistent.linked sit hsit').ordered
        rw [hordered.eq_of_equivalent hother hcit hsame]
  | none =>
      have habsent := lookupEntry_none hcons hsit
        (congrArg Prod.snd hlookup)
      obtain ⟨hinserted, hnew, hold⟩ := insertListing_consistent
        hkeeps.consistent hsit' listing now
      have hpruned := prune_keeps hinserted
      rw [hstored]
      simp only
      rw [hpruned.drift, ← hkeeps.drift]
      refine ⟨hpruned.consistent, ?_, ?_⟩
      · intro hequal
        apply hnew
        intro cit hcit hsame
        exact habsent cit hcit (hequal cit hcit hsame)
      · intro hmistaken
        apply hold
        by_contra hexists
        apply hmistaken
        intro cit hcit hsame
        exact absurd ⟨cit, hcit, hsame⟩ hexists

/-- A stored listing is counted right exactly if the cache tells its path
apart. -/
theorem store_drift
    (hcons : Consistent cache) (listing : DirectoryListing) (server : Server)
    (now : ℤ) :
    Consistent (cache.store listing server now) ∧
      ((cache.store listing server now).drift = cache.drift ↔
        cache.Distinguishes listing server) := by
  obtain ⟨hcreated, hsit⟩ := createServerEntry_keeps hcons server
  have hcounted := hcreated.consistent.reorder
    ((cache.createServerEntry server).1.totalFileCount + listing.size) rfl
    (List.Perm.refl _)
  obtain ⟨hstored, hright, hwrong⟩ := storeEntry_drift hcounted hsit listing
    now (cache.store listing server now) rfl
  have hbefore := hcreated.drift
  refine ⟨hstored, ?_⟩
  rw [distinguishes_iff]
  unfold drift at hright hwrong hbefore ⊢
  simp only at hright hwrong
  by_cases hequal : ∀ cit ∈ (cache.createServerEntry server).2.cacheList,
      OrderedSet.Equivalent ServerPath.less cit.path listing.path →
        cit.path = listing.path
  · have hdrift := hright hequal
    constructor
    · intro _
      exact Or.inr hequal
    · intro _
      omega
  · have hdrift := hwrong hequal
    constructor
    · intro hsame
      left
      omega
    · rintro (hzero | hall)
      · omega
      · exact absurd hall hequal

end DirectoryCache

end TabFtp
