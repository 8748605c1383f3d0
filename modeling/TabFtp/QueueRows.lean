import TabFtp.QueueTree

/-!
# The rows of the queue and their cache

`CServerItem::GetChild` finds the item of a row with the help of a cache, which
has the rows of the first children and is extended by every lookup.  It finds
what the walk over all children finds.
-/

namespace TabFtp

namespace Items

variable {items : Items} {id : ItemId}

theorem statusChild_eq (addresses : List ℕ) (item : ℕ) :
    statusChild addresses item = (addresses.map ItemRef.status)[item]? := by
  induction addresses generalizing item with
  | nil => rfl
  | cons address rest ih =>
      cases item with
      | zero => rfl
      | succ item => exact ih item

theorem childOf_eq (items : Items) (id : ItemId) (item : ℕ) :
    items.childOf id item =
      (((items.statuses id).getD []).map ItemRef.status)[item]? := by
  unfold childOf statuses
  cases items id with
  | none => rfl
  | some child => exact statusChild_eq _ _

theorem plainChild_eq (items : Items) (ids : List ItemId) (item : ℕ) :
    items.plainChild ids item = (ids.flatMap items.blockRows)[item]? := by
  induction ids generalizing item with
  | nil => rfl
  | cons id rest ih =>
      have hlength := items.length_blockRows id
      rw [List.flatMap_cons]
      unfold plainChild
      split
      · rename_i hzero
        rw [hzero]
        rfl
      · rename_i hpositive
        simp only
        split
        · rename_i hbehind
          rw [ih, List.getElem?_append_right (by omega), hlength]
          congr 1
          omega
        · rename_i hinside
          rw [List.getElem?_append_left (by omega), childOf_eq]
          obtain ⟨before, rfl⟩ := Nat.exists_eq_succ_of_ne_zero hpositive
          rfl

theorem plainChild_append (items : Items) (front back : List ItemId)
    (item : ℕ) :
    items.plainChild (front ++ back) (items.offspring front + item) =
      items.plainChild back item := by
  have hlength : (front.flatMap items.blockRows).length =
      items.offspring front := by
    unfold offspring
    rw [List.length_flatMap]
    simp only [length_blockRows]
  rw [plainChild_eq, plainChild_eq, List.flatMap_append,
    List.getElem?_append_right (by omega), hlength, Nat.add_sub_cancel_left]

theorem offspring_take_succ {ids : List ItemId} {child : ℕ}
    (hchild : ids[child]? = some id) :
    items.offspring (ids.take (child + 1)) =
      items.offspring (ids.take child) + (1 + items.childrenCount id) := by
  rw [List.take_add_one, hchild, offspring_append]
  rfl

theorem offspring_take_le (items : Items) (ids : List ItemId)
    {child later : ℕ}
    (hle : child ≤ later) :
    items.offspring (ids.take child) ≤ items.offspring (ids.take later) := by
  obtain ⟨more, hmore⟩ := List.take_prefix_take_left hle (l := ids)
  rw [← hmore, offspring_append]
  exact Nat.le_add_right _ _

theorem exists_child_of_lt {ids : List ItemId} {count item : ℕ}
    (hcount : count ≤ ids.length)
    (hitem : item < items.offspring (ids.take count)) :
    ∃ child < count, items.offspring (ids.take child) ≤ item ∧
      item < items.offspring (ids.take (child + 1)) := by
  induction count with
  | zero => exact absurd hitem (Nat.not_lt_zero item)
  | succ count ih =>
      by_cases hearlier : item < items.offspring (ids.take count)
      · obtain ⟨child, hlt, hchild⟩ := ih (by omega) hearlier
        exact ⟨child, by omega, hchild⟩
      · exact ⟨count, Nat.lt_succ_self count, by omega, hitem⟩

end Items

namespace ServerItem

theorem length_fillCache (cacheItem : CacheItem) (index count : ℕ)
    (cache : List CacheItem) :
    (fillCache cacheItem index count cache).length = cache.length := by
  induction count generalizing index cache with
  | zero => rfl
  | succ count ih =>
      rw [fillCache, ih, List.length_set]

theorem getElem?_fillCache (cacheItem : CacheItem) (index count : ℕ)
    (cache : List CacheItem) (hbound : index + count ≤ cache.length)
    (row : ℕ) :
    (fillCache cacheItem index count cache)[row]? =
      if index ≤ row ∧ row < index + count then some cacheItem
      else cache[row]? := by
  induction count generalizing index cache with
  | zero => rw [fillCache, if_neg (by omega)]
  | succ count ih =>
      rw [fillCache, ih _ _ (by rw [List.length_set]; omega)]
      by_cases hfirst : row = index
      · subst hfirst
        rw [if_neg (by omega), if_pos (by omega),
          List.getElem?_set_self (by omega)]
      · rw [List.getElem?_set_ne (Ne.symm hfirst)]
        by_cases hfilled : index + 1 ≤ row ∧ row < index + 1 + count
        · rw [if_pos hfilled, if_pos (by omega)]
        · rw [if_neg hfilled, if_neg (by omega)]

theorem length_resizeCache (cache : List CacheItem) (size : ℕ) :
    (resizeCache cache size).length = max cache.length size := by
  unfold resizeCache
  rw [List.length_append, List.length_replicate]
  omega

theorem getElem?_resizeCache {cache : List CacheItem} {row : ℕ}
    {cacheItem : CacheItem} (hrow : cache[row]? = some cacheItem)
    (size : ℕ) : (resizeCache cache size)[row]? = some cacheItem := by
  unfold resizeCache
  rw [List.getElem?_append_left (List.getElem?_eq_some_iff.mp hrow).1]
  exact hrow

def SameButCache (server walked : ServerItem) : Prop :=
  walked = { server with
    maxCachedIndex := walked.maxCachedIndex
    lookupCache := walked.lookupCache }

theorem SameButCache.refl (server : ServerItem) : server.SameButCache server :=
  rfl

theorem SameButCache.trans {server walked final : ServerItem}
    (hfirst : server.SameButCache walked)
    (hsecond : walked.SameButCache final) : server.SameButCache final := by
  unfold SameButCache at hfirst hsecond ⊢
  rw [hsecond, hfirst]

theorem sameButCache_cacheChild (server : ServerItem)
    (index child count : ℕ) :
    server.SameButCache (server.cacheChild index child count) := rfl

end ServerItem

namespace ItemQueue

variable {queue : ItemQueue} {count : ℕ}

def firstRow (queue : ItemQueue) (child : ℕ) : ℕ :=
  queue.items.offspring (queue.live.take child)

/-- The cache has the rows of the first `count` children. -/
structure CachedUpTo (queue : ItemQueue) (count : ℕ) : Prop where
  bound : count ≤ queue.live.length
  index : queue.server.maxCachedIndex + 1 = queue.firstRow count
  size : count ≠ 0 → queue.rows.length ≤ queue.server.lookupCache.length
  cached : ∀ child < count, ∀ row, queue.firstRow child ≤ row →
    row < queue.firstRow (child + 1) →
    queue.server.lookupCache[row]? = some ⟨queue.firstRow child, child⟩

theorem cachedUpTo_zero (hdropped : queue.server.maxCachedIndex = -1) :
    queue.CachedUpTo 0 where
  bound := Nat.zero_le _
  index := by
    rw [hdropped]
    rfl
  size := fun hne => absurd rfl hne
  cached := fun _ hlt => absurd hlt (Nat.not_lt_zero _)

theorem CachedUpTo.quiet {changed : ItemQueue}
    (hcached : queue.CachedUpTo count) (hquiet : queue.Quiet changed) :
    changed.CachedUpTo count := by
  have hfirst : ∀ child, changed.firstRow child = queue.firstRow child := by
    intro child
    unfold firstRow
    rw [hquiet.live]
    apply Items.offspring_congr
    intro id hid
    exact hquiet.statuses id (List.mem_of_mem_take hid)
  constructor
  · rw [hquiet.live]
    exact hcached.bound
  · rw [hquiet.server.maxCachedIndex, hfirst]
    exact hcached.index
  · intro hne
    rw [hquiet.rows, hquiet.server.lookupCache]
    exact hcached.size hne
  · intro child hlt row hle hrow
    rw [hfirst] at hle hrow ⊢
    rw [hquiet.server.lookupCache]
    exact hcached.cached child hlt row hle hrow

theorem firstRow_le_rows (queue : ItemQueue) (child : ℕ) :
    queue.firstRow child ≤ queue.rows.length := by
  rw [length_rows]
  unfold firstRow
  by_cases hchild : child ≤ queue.live.length
  · have hle := queue.items.offspring_take_le queue.live hchild
    rwa [List.take_length] at hle
  · rw [List.take_of_length_le (by omega)]

theorem firstRow_succ {child : ℕ} {id : ItemId}
    (hchild : queue.live[child]? = some id) :
    queue.firstRow (child + 1) =
      queue.firstRow child + (1 + queue.items.childrenCount id) :=
  Items.offspring_take_succ hchild

theorem CachedUpTo.length_growCache (hsound : queue.TreeSound)
    (hcached : queue.CachedUpTo count) :
    queue.rows.length ≤ queue.server.growCache.length := by
  have hoffspring := hsound.offspring
  unfold ServerItem.growCache
  split
  · rw [ServerItem.length_resizeCache, hoffspring]
    omega
  · rename_i hkeep
    by_cases hzero : count = 0
    · have hindex := hcached.index
      have hfirst : queue.firstRow 0 = 0 := rfl
      rw [hzero, hfirst] at hindex
      have hnone : queue.server.maxCachedIndex = -1 := by omega
      rw [hnone, hoffspring] at hkeep
      omega
    · exact hcached.size hzero

theorem getElem?_growCache {server : ServerItem} {row : ℕ}
    {cacheItem : CacheItem} (hrow : server.lookupCache[row]? = some cacheItem) :
    server.growCache[row]? = some cacheItem := by
  unfold ServerItem.growCache
  split
  · exact ServerItem.getElem?_resizeCache hrow _
  · exact hrow

theorem CachedUpTo.extend (hsound : queue.TreeSound)
    (hcached : queue.CachedUpTo count) {id : ItemId}
    (hid : queue.live[count]? = some id) :
    CachedUpTo
      ⟨queue.server.cacheChild (queue.firstRow count) count
        (queue.items.childrenCount id), queue.items⟩ (count + 1) := by
  have hsucc := firstRow_succ hid
  have hrows := queue.firstRow_le_rows (count + 1)
  have hlength := hcached.length_growCache hsound
  have hfill := ServerItem.getElem?_fillCache ⟨queue.firstRow count, count⟩
    (queue.firstRow count) (queue.items.childrenCount id + 1)
    queue.server.growCache (by omega)
  constructor
  · exact (List.getElem?_eq_some_iff.mp hid).1
  · show ((queue.firstRow count : ℕ) : ℤ) + queue.items.childrenCount id + 1 =
      (queue.firstRow (count + 1) : ℕ)
    omega
  · intro _
    unfold ServerItem.cacheChild
    simp only
    rw [ServerItem.length_fillCache]
    exact hlength
  · intro child hchild row hle hrow
    have hle' : queue.firstRow child ≤ row := hle
    have hrow' : row < queue.firstRow (child + 1) := hrow
    unfold ServerItem.cacheChild
    simp only
    rw [hfill]
    by_cases hlast : child = count
    · subst hlast
      rw [if_pos ⟨hle', by omega⟩]
      rfl
    · have hearlier : queue.firstRow (child + 1) ≤ queue.firstRow count :=
        Items.offspring_take_le _ _ (by omega)
      rw [if_neg (by omega)]
      exact getElem?_growCache
        (hcached.cached child (by omega) row hle' hrow')

theorem walk_spec {items : Items} (rest : List ItemId) :
    ∀ (server : ServerItem) (count item : ℕ),
      TreeSound ⟨server, items⟩ → CachedUpTo ⟨server, items⟩ count →
      server.children.live.drop count = rest →
      let walked := ServerItem.walk items rest item
        (firstRow ⟨server, items⟩ count) count server
      walked.1 = items.plainChild rest item ∧
        server.SameButCache walked.2 ∧
        ∃ reached, CachedUpTo ⟨walked.2, items⟩ reached := by
  induction rest with
  | nil =>
      intro server count item _ hcached _
      exact ⟨rfl, .refl _, count, hcached⟩
  | cons id rest ih =>
      intro server count item hsound hcached hdrop
      have hid : (ItemQueue.live ⟨server, items⟩)[count]? = some id := by
        have hhead := congrArg List.head? hdrop
        rwa [List.head?_drop] at hhead
      have hnext : server.children.live.drop (count + 1) = rest := by
        have htail := congrArg List.tail hdrop
        rwa [List.tail_drop] at htail
      intro walked
      unfold walked ServerItem.walk Items.plainChild
      split
      · exact ⟨rfl, .refl _, count, hcached⟩
      · simp only
        split
        · have hsucc : firstRow ⟨server, items⟩ (count + 1) =
              firstRow ⟨server, items⟩ count +
                (1 + items.childrenCount id) := firstRow_succ hid
          obtain ⟨hfound, hsame, hreached⟩ := ih
            (server.cacheChild (firstRow ⟨server, items⟩ count) count
              (items.childrenCount id))
            (count + 1) (item - (items.childrenCount id + 1))
            ⟨hsound.known, hsound.nodup, hsound.offspring⟩
            (hcached.extend hsound hid) hnext
          have hstart : firstRow ⟨server, items⟩ count +
              items.childrenCount id + 1 =
              firstRow ⟨server, items⟩ (count + 1) := by
            rw [hsucc]
            omega
          rw [hstart]
          exact ⟨hfound, (ServerItem.sameButCache_cacheChild _ _ _ _).trans
            hsame, hreached⟩
        · exact ⟨rfl, .refl _, count, hcached⟩

theorem CachedUpTo.found (hcached : queue.CachedUpTo count) {item : ℕ}
    (hitem : item < queue.firstRow count) :
    ∃ child id, queue.live[child]? = some id ∧
      queue.server.lookupCache[item]? =
        some ⟨queue.firstRow child, child⟩ ∧
      queue.items.plainChild queue.live item =
        if item - queue.firstRow child = 0 then some (.item id)
        else queue.items.childOf id (item - queue.firstRow child - 1) := by
  obtain ⟨child, hlt, hle, hrow⟩ :=
    Items.exists_child_of_lt hcached.bound hitem
  have hbound : child < queue.live.length :=
    lt_of_lt_of_le hlt hcached.bound
  have hid := List.getElem?_eq_getElem hbound
  refine ⟨child, queue.live[child], hid, hcached.cached child hlt item hle hrow,
    ?_⟩
  have hsucc := firstRow_succ hid
  have hle' : queue.firstRow child ≤ item := hle
  have hrow' : item < queue.firstRow (child + 1) := hrow
  have hwalk := queue.items.plainChild_append
    (queue.live.take child) (queue.live.drop child)
    (item - queue.firstRow child)
  rw [List.take_append_drop] at hwalk
  have hrestore : queue.items.offspring (queue.live.take child) +
      (item - queue.firstRow child) = item :=
    Nat.add_sub_of_le hle'
  rw [hrestore] at hwalk
  rw [hwalk, List.drop_eq_getElem_cons hbound]
  unfold Items.plainChild
  split
  · rfl
  · simp only
    rw [if_neg (by omega)]

theorem signedIndex_eq (item : ℕ) :
    signedIndex item =
      if 2 * (item % 2 ^ 32) < 2 ^ 32 then ((item % 2 ^ 32 : ℕ) : ℤ)
      else ((item % 2 ^ 32 : ℕ) : ℤ) - 2 ^ 32 := by
  unfold signedIndex
  rw [BitVec.toInt_eq_toNat_cond, BitVec.toNat_ofNat]
  rfl

theorem signedIndex_of_lt {item : ℕ} (hitem : item < 2 ^ 31) :
    signedIndex item = item := by
  rw [signedIndex_eq, if_pos (by omega), Nat.mod_eq_of_lt (by omega)]

theorem signedIndex_le (item : ℕ) : signedIndex item ≤ item := by
  have hsmaller := Nat.mod_le item (2 ^ 32)
  rw [signedIndex_eq]
  split <;> omega

theorem signedIndex_neg {item : ℕ} (hlarge : 2 ^ 31 ≤ item)
    (hunsigned : item < 2 ^ 32) : signedIndex item < 0 := by
  rw [signedIndex_eq, Nat.mod_eq_of_lt hunsigned, if_neg (by omega)]
  omega

/-- A call of `GetChild` finds the row and changes the cache only. -/
theorem getChild_spec (hsound : queue.TreeSound)
    (hcached : queue.CachedUpTo count) (item : ℕ) :
    (item < 2 ^ 31 →
        (queue.getChild item).1 = queue.items.plainChild queue.live item) ∧
      queue.server.SameButCache (queue.getChild item).2.server ∧
      (queue.getChild item).2.items = queue.items ∧
      ∃ reached, (queue.getChild item).2.CachedUpTo reached := by
  have hindex := hcached.index
  have hsigned := signedIndex_le item
  unfold getChild
  simp only
  split
  · rename_i hle
    refine ⟨?_, ?_⟩
    · intro hsmall
      rw [signedIndex_of_lt hsmall] at hle
      have hlt : item < queue.firstRow count := by omega
      obtain ⟨child, id, hid, hcacheItem, hplain⟩ := hcached.found hlt
      rw [hcacheItem]
      simp only
      rw [hid]
      simp only
      rw [hplain]
      split <;> rfl
    -- The cache is only read here, inside or outside.
    · split
      · exact ⟨.refl _, rfl, count, hcached⟩
      · split
        · exact ⟨.refl _, rfl, count, hcached⟩
        · split <;> exact ⟨.refl _, rfl, count, hcached⟩
  · rename_i hbehind
    split
    · rename_i hnone
      obtain ⟨hfound, hsame, hreached⟩ := walk_spec queue.live queue.server 0
        item hsound (cachedUpTo_zero hnone) rfl
      exact ⟨fun _ => hfound, hsame, rfl, hreached⟩
    · rename_i hsome
      have hlast : queue.server.maxCachedIndex.toNat + 1 =
          queue.firstRow count := by
        omega
      have hpositive : count ≠ 0 := by
        intro hzero
        rw [hzero] at hlast
        exact absurd hlast (Nat.succ_ne_zero _)
      obtain ⟨before, rfl⟩ : ∃ before, count = before + 1 :=
        Nat.exists_eq_succ_of_ne_zero hpositive
      have hid := List.getElem?_eq_getElem
        (show before < queue.live.length from hcached.bound)
      have hsucc := firstRow_succ hid
      have hcacheItem := hcached.cached before (Nat.lt_succ_self before)
        queue.server.maxCachedIndex.toNat (by omega) (by omega)
      obtain ⟨hfound, hsame, hreached⟩ :=
        walk_spec (queue.live.drop (before + 1)) queue.server (before + 1)
          (item - queue.firstRow (before + 1)) hsound hcached rfl
      rw [hcacheItem]
      simp only
      rw [hlast]
      refine ⟨fun _ => ?_, hsame, trivial, hreached⟩
      have hwalk := queue.items.plainChild_append
        (queue.live.take (before + 1)) (queue.live.drop (before + 1))
        (item - queue.firstRow (before + 1))
      rw [List.take_append_drop] at hwalk
      have hrestore : queue.items.offspring (queue.live.take (before + 1)) +
          (item - queue.firstRow (before + 1)) = item := by
        show queue.firstRow (before + 1) +
          (item - queue.firstRow (before + 1)) = item
        omega
      rw [hrestore] at hwalk
      exact hfound.trans hwalk.symm

/-! ## Every run -/

structure RowsSound (queue : ItemQueue) : Prop where
  tree : queue.TreeSound
  cache : ∃ count, queue.CachedUpTo count

theorem RowsSound.quiet {changed : ItemQueue} (hsound : queue.RowsSound)
    (hquiet : queue.Quiet changed) : changed.RowsSound := by
  obtain ⟨count, hcached⟩ := hsound.cache
  exact ⟨hsound.tree.quiet hquiet, count, hcached.quiet hquiet⟩

theorem RowsSound.ofDropped (htree : queue.TreeSound)
    (hdropped : queue.server.maxCachedIndex = -1) : queue.RowsSound :=
  ⟨htree, 0, cachedUpTo_zero hdropped⟩

theorem quiet_construct {id : ItemId} (hnew : id ∉ queue.live)
    (item : FileItem) :
    queue.Quiet { queue with items := queue.items.write id item } := by
  constructor
  · exact .refl _
  · intro other hother
    apply Items.statuses_write_of_ne
    rintro rfl
    exact hnew hother

theorem RowsSound.addChild (hsound : queue.RowsSound) {id : ItemId}
    (hitem : (queue.items id).isSome) (hnew : id ∉ queue.live) :
    (queue.addChild id).RowsSound := by
  apply RowsSound.ofDropped (hsound.tree.addChild hitem hnew)
  unfold ItemQueue.addChild
  rw [(ServerItem.sameTree_addFileItemToList _ _ _).maxCachedIndex]
  rfl

theorem RowsSound.removeChild (hsound : queue.RowsSound) {id : ItemId}
    (hmem : id ∈ queue.live) (destroy forward : Bool) :
    (queue.removeChild id destroy forward).RowsSound ∧
      (queue.removeChild id destroy forward).live = queue.live.erase id := by
  obtain ⟨children, hlive, heq⟩ :=
    removeChild_eq hsound.tree.nodup hmem destroy forward
  constructor
  · apply RowsSound.ofDropped (hsound.tree.removeChild hmem destroy forward)
    rw [heq]
  · rw [heq]
    exact hlive

theorem RowsSound.setActive (hsound : queue.RowsSound) {id : ItemId}
    (hmem : id ∈ queue.live) (active : Bool) (statusItem : ℕ) :
    (queue.setActive id active statusItem).RowsSound := by
  have htree := hsound.tree.setActive hmem active statusItem
  rcases queue.setActive_cases id active statusItem with hquiet |
    ⟨changed, difference, heq, _⟩
  · exact hsound.quiet hquiet
  · apply RowsSound.ofDropped htree
    rw [heq]
    rfl

theorem RowsSound.sort (hsound : queue.RowsSound) (collation : Collation)
    (col : ℤ) (reverse : Bool) :
    (queue.sort collation col reverse).RowsSound := by
  have htree := (hsound.tree.sort collation col reverse).1
  cases hcmp : FileItem.comparison collation col with
  | none =>
      unfold ItemQueue.sort
      rw [hcmp]
      exact hsound
  | some cmp =>
      apply RowsSound.ofDropped htree
      unfold ItemQueue.sort
      rw [hcmp]
      simp only
      rw [(sameTree_rebuildLists _ _ _).maxCachedIndex]

theorem rowsSound_detachChildren (queue : ItemQueue) :
    queue.detachChildren.RowsSound :=
  .ofDropped
    ⟨fun _ hid => absurd hid List.not_mem_nil, List.nodup_nil, rfl⟩ rfl

theorem RowsSound.getChild (hsound : queue.RowsSound) (item : ℕ) :
    (queue.getChild item).2.RowsSound ∧
      (queue.getChild item).2.live = queue.live := by
  obtain ⟨count, hcached⟩ := hsound.cache
  obtain ⟨_, hsame, hitems, hreached⟩ :=
    getChild_spec hsound.tree hcached item
  have hlive : (queue.getChild item).2.live = queue.live := by
    unfold live
    rw [hsame]
  refine ⟨⟨⟨?_, ?_, ?_⟩, hreached⟩, hlive⟩
  · rw [hlive, hitems]
    exact hsound.tree.known
  · rw [hlive]
    exact hsound.tree.nodup
  · have hrows := hsound.tree.offspring
    rw [length_rows] at hrows ⊢
    rw [hlive, hitems, hsame]
    exact hrows

/-- One step keeps the tree and the cache of rows. -/
theorem step_rowsSound {collation : Collation} (hsound : queue.RowsSound)
    {request : Request} {following : ItemQueue}
    {answer : List (Option ItemRef)}
    (hstep : step collation queue request = some (following, answer)) :
    following.RowsSound ∧ queue.ChildrenChange request following := by
  unfold ChildrenChange
  cases request <;>
    simp only [step, Option.ite_none_right_eq_some, Option.some.injEq,
      Prod.mk.injEq] at hstep
  case construct id item =>
    obtain ⟨⟨_, hnew, _⟩, rfl, _⟩ := hstep
    have hquiet := quiet_construct hnew item
    exact ⟨hsound.quiet hquiet, hquiet.live⟩
  case addChild id =>
    obtain ⟨⟨hitem, hnew⟩, rfl, _⟩ := hstep
    exact ⟨hsound.addChild hitem hnew, live_addChild queue id⟩
  case removeChild id destroy forward =>
    obtain ⟨hmem, rfl, _⟩ := hstep
    exact hsound.removeChild hmem destroy forward
  case setActive id active statusItem =>
    obtain ⟨hmem, rfl, _⟩ := hstep
    exact ⟨hsound.setActive hmem active statusItem,
      live_setActive queue id active statusItem⟩
  case sort col reverse =>
    obtain ⟨rfl, _⟩ := hstep
    exact ⟨hsound.sort collation col reverse,
      (hsound.tree.sort collation col reverse).2⟩
  case tryRemoveAll =>
    obtain ⟨rfl, _⟩ := hstep
    exact ⟨.ofDropped hsound.tree.tryRemoveAll rfl,
      (tryRemoveChildren_spec hsound.tree.nodup _ []).1⟩
  case detachChildren =>
    obtain ⟨rfl, _⟩ := hstep
    exact ⟨rowsSound_detachChildren queue, rfl⟩
  case setPriority priority =>
    obtain ⟨rfl, _⟩ := hstep
    have hquiet := queue.quiet_setPriority priority
    exact ⟨hsound.quiet hquiet, hquiet.live⟩
  case setItemPriority id priority =>
    obtain ⟨rfl, _⟩ := hstep
    have hquiet := queue.quiet_setItemPriority id priority
    exact ⟨hsound.quiet hquiet, hquiet.live⟩
  case queueImmediateFiles =>
    obtain ⟨rfl, _⟩ := hstep
    have hquiet := queue.quiet_queueImmediateFiles
    exact ⟨hsound.quiet hquiet, hquiet.live⟩
  case queueImmediateFile id =>
    obtain ⟨rfl, _⟩ := hstep
    have hquiet := queue.quiet_queueImmediateFile id
    exact ⟨hsound.quiet hquiet, hquiet.live⟩
  case getChild item =>
    obtain ⟨rfl, _⟩ := hstep
    exact hsound.getChild item

theorem rowsSound_initial {collation : Collation}
    (hinitial : (machine collation).initial queue) : queue.RowsSound := by
  have hserver : queue.server = ServerItem.empty := hinitial
  have hlive : queue.live = [] := by
    unfold live
    rw [hserver]
    rfl
  apply RowsSound.ofDropped
  · constructor
    · intro id hid
      rw [hlive] at hid
      exact absurd hid List.not_mem_nil
    · rw [hlive]
      exact List.nodup_nil
    · unfold rows
      rw [hlive, hserver]
      rfl
  · rw [hserver]
    rfl

theorem reaches_rowsSound {collation : Collation} {requests : List Request}
    {answers : List (Option ItemRef)}
    (hreach : (machine collation).Reaches requests answers queue) :
    queue.RowsSound :=
  hreach.stateInvariant RowsSound (fun _ => rowsSound_initial)
    fun _ _ _ _ hsound _ hstep => (step_rowsSound hsound hstep).1

/-- The lookup of a row is defined, and it finds the item that the plain walk
over all children finds. -/
def FindsRow (queue : ItemQueue) (item : ℕ) : Prop :=
  ¬ queue.ReadsOutside item ∧
    (queue.getChild item).1 = queue.items.plainChild queue.live item

theorem CachedUpTo.inside (hcached : queue.CachedUpTo count) {item : ℕ}
    (hitem : item < 2 ^ 31) : ¬ queue.ReadsOutside item := by
  have hindex := hcached.index
  rintro ⟨hle, hbehind⟩
  rw [signedIndex_of_lt hitem] at hle
  obtain ⟨_, _, _, hcacheItem, _⟩ :=
    hcached.found (show item < queue.firstRow count by omega)
  rw [List.getElem?_eq_none hbehind] at hcacheItem
  exact absurd hcacheItem (by simp)

/-- A negative index is taken for a cached one. -/
theorem CachedUpTo.outside (hcached : queue.CachedUpTo count) {item : ℕ}
    (hlarge : 2 ^ 31 ≤ item) (hunsigned : item < 2 ^ 32)
    (hcache : queue.server.lookupCache.length ≤ item) :
    queue.ReadsOutside item := by
  have hindex := hcached.index
  have hnegative := signedIndex_neg hlarge hunsigned
  exact ⟨by omega, hcache⟩

/-- In every run the descendants have been counted, no child is lost or
repeated, and the lookup of an `unsigned int` with the cache finds what the
walk over all children finds exactly if the index is not negative as an `int`.
The size of the cache is `m_visibleOffspring` of some time, an `int`. -/
theorem rows_of_every_run {collation : Collation} {requests : List Request}
    {answers : List (Option ItemRef)}
    (hreach : (machine collation).Reaches requests answers queue) :
    queue.server.visibleOffspring = queue.rows.length ∧
      queue.live.Nodup ∧
      (∀ request following answer,
        step collation queue request = some (following, answer) →
        queue.ChildrenChange request following) ∧
      (∀ item, queue.items.plainChild queue.live item = queue.rows[item]?) ∧
      (∀ item < 2 ^ 31, queue.FindsRow item) ∧
      ∀ item < 2 ^ 32, queue.server.lookupCache.length < 2 ^ 31 →
        (queue.FindsRow item ↔ item < 2 ^ 31) := by
  have hsound := reaches_rowsSound hreach
  obtain ⟨count, hcached⟩ := hsound.cache
  have hfinds : ∀ item < 2 ^ 31, queue.FindsRow item := fun item hitem =>
    ⟨hcached.inside hitem, (getChild_spec hsound.tree hcached item).1 hitem⟩
  refine ⟨hsound.tree.offspring, hsound.tree.nodup, ?_,
    Items.plainChild_eq queue.items queue.live, hfinds, ?_⟩
  · intro request following answer hstep
    exact (step_rowsSound hsound hstep).2
  · intro item hunsigned hcache
    refine ⟨?_, hfinds item⟩
    rintro ⟨hinside, _⟩
    by_contra hlarge
    exact hinside (hcached.outside (by omega) hunsigned (by omega))

def plainCollation : Collation where
  localPathLess := fun l r => FileItem.wstringLess l.path r.path
  statusText := fun _ => []

def newItem (type : FileItemType) (flags : TransferFlags) : FileItem where
  type := type
  flags := flags
  sourceFile := ['a']
  extraData := none
  localPath := ⟨['/']⟩
  remotePath := ServerPath.blank .unix
  size := 1
  priority := .normal
  errorCount := 0
  status := .none
  children := OffsetVector.empty

def emptyQueue : ItemQueue := ⟨ServerItem.empty, fun _ => none⟩

def folderThenFile : List Request :=
  [.construct 3 (newItem .folder 0), .addChild 3,
    .construct 5 (newItem .file 0x10), .addChild 5, .setActive 5 true 8,
    .getChild 2, .removeChild 3 true false]

/-- The row of a status message is found, the same one with the cast is not. -/
theorem rows_of_every_run_folderThenFile :
    ∃ queue, (machine plainCollation).Reaches folderThenFile
        [some (.status 8)] queue ∧
      queue.rows = [.item 5, .status 8] ∧
      queue.server.visibleOffspring = queue.rows.length ∧
      (queue.getChild 1).1 = some (.status 8) ∧
      queue.FindsRow 1 ∧ ¬ queue.FindsRow (2 ^ 31 + 1) := by
  have hstart : (machine plainCollation).Reaches [] [] emptyQueue :=
    .start rfl
  have hreach : (machine plainCollation).Reaches folderThenFile
      [some (.status 8)] _ := hstart.exec rfl
  obtain ⟨hcount, _, _, _, _, hexact⟩ := rows_of_every_run hreach
  have hlarge := hexact (2 ^ 31 + 1) (by decide) (by decide)
  exact ⟨_, hreach, rfl, hcount, rfl,
    (hexact 1 (by decide) (by decide)).mpr (by decide),
    fun hfinds => absurd (hlarge.mp hfinds) (by decide)⟩

/-- The cache of an empty queue is read at the row `0x80000000`. -/
theorem lookup_of_large_row :
    ∃ queue item, item < 2 ^ 32 ∧
      (machine plainCollation).Reaches [] [] queue ∧
      queue.ReadsOutside item ∧ ¬ queue.FindsRow item := by
  have hstart : (machine plainCollation).Reaches [] [] emptyQueue :=
    .start rfl
  have houtside : emptyQueue.ReadsOutside 0x80000000 := by
    unfold ReadsOutside
    decide
  exact ⟨emptyQueue, 0x80000000, by decide, hstart, houtside,
    fun hfinds => hfinds.1 houtside⟩

end ItemQueue

end TabFtp
