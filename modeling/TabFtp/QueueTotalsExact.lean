import TabFtp.QueueTotals

/-!
# Exact totals

The totals count files only, but what is calculated from the lists of the
scheduler counts the folders as files of unknown size.  The two agree as long
as no folder is left when all items are removed.
-/

namespace TabFtp

theorem int64_add (number other : ℤ) :
    int64 (int64 number + other) = int64 (number + other) :=
  Int.bmod_add_bmod

theorem int64_sum {number same : ℤ} (hsame : int64 number = int64 same)
    (before after : ℤ) :
    int64 (int64 (before + number) + after) =
      int64 (before + (same + after)) := by
  have hnumber : before + number + after = number + (before + after) := by
    omega
  have hother : before + (same + after) = same + (before + after) := by omega
  rw [int64_add, hnumber, hother, ← int64_add, hsame, int64_add]

namespace FileItem

def knownSize (item : FileItem) : ℤ := if 0 ≤ item.size then item.size else 0

def unknownSize (item : FileItem) : ℤ := if item.size < 0 then 1 else 0

/-- A folder does not count. -/
def ofFile (weight : FileItem → ℤ) (item : FileItem) : ℤ :=
  match item.type with
  | .file => weight item
  | .folder => 0

end FileItem

namespace Items

/-- What some items weigh together. -/
def weigh (items : Items) (weight : FileItem → ℤ) (ids : List ItemId) : ℤ :=
  (ids.map fun id => (items id).elim 0 weight).sum

variable {items changed : Items} {id : ItemId} {item : FileItem}
  {weight : FileItem → ℤ} {ids more : List ItemId}

@[simp] theorem weigh_nil : items.weigh weight [] = 0 := rfl

theorem weigh_cons_of_some (hitem : items id = some item) :
    items.weigh weight (id :: ids) = weight item + items.weigh weight ids := by
  unfold weigh
  rw [List.map_cons, List.sum_cons, hitem]
  rfl

theorem weigh_cons_of_none (hitem : items id = none) :
    items.weigh weight (id :: ids) = items.weigh weight ids := by
  unfold weigh
  rw [List.map_cons, List.sum_cons, hitem]
  exact zero_add _

theorem weigh_append : items.weigh weight (ids ++ more) =
    items.weigh weight ids + items.weigh weight more := by
  unfold weigh
  rw [List.map_append, List.sum_append]

theorem weigh_perm (hperm : ids.Perm more) :
    items.weigh weight ids = items.weigh weight more :=
  (hperm.map _).sum_eq

theorem weigh_erase (hitem : items id = some item) (hmem : id ∈ ids) :
    items.weigh weight (ids.erase id) =
      items.weigh weight ids - weight item := by
  have hperm : items.weigh weight ids =
      items.weigh weight (id :: ids.erase id) :=
    weigh_perm (List.perm_cons_erase hmem)
  rw [weigh_cons_of_some hitem] at hperm
  omega

theorem weigh_congr
    (hsame : ∀ id ∈ ids, (changed id).elim 0 weight = (items id).elim 0 weight) :
    changed.weigh weight ids = items.weigh weight ids := by
  unfold weigh
  rw [List.map_congr_left hsame]

theorem weigh_congr_weight {other : FileItem → ℤ}
    (hsame : ∀ id ∈ ids, ∀ item, items id = some item →
      weight item = other item) :
    items.weigh weight ids = items.weigh other ids := by
  unfold weigh
  congr 1
  apply List.map_congr_left
  intro id hid
  cases hitem : items id with
  | none => rfl
  | some item => exact hsame id hid item hitem

theorem weigh_congr_items (hsame : ∀ id ∈ ids, changed id = items id) :
    changed.weigh weight ids = items.weigh weight ids := by
  apply weigh_congr
  intro id hid
  rw [hsame id hid]

theorem weigh_write {written : FileItem} (hnodup : ids.Nodup)
    (hitem : items id = some item) (hmem : id ∈ ids) :
    (items.write id written).weigh weight ids =
      items.weigh weight ids - weight item + weight written := by
  have hothers : ∀ other ∈ ids.erase id,
      items.write id written other = items other := fun other hother =>
    write_of_ne (hnodup.mem_erase_iff.mp hother).1
  rw [weigh_perm (List.perm_cons_erase hmem), weigh_cons_of_some write_self,
    weigh_congr_items hothers, weigh_erase hitem hmem]
  omega

theorem weigh_nonneg (hnonneg : ∀ item, 0 ≤ weight item) :
    0 ≤ items.weigh weight ids := by
  apply List.sum_nonneg
  intro number hnumber
  obtain ⟨id, _, rfl⟩ := List.mem_map.mp hnumber
  cases items id with
  | none => exact le_refl 0
  | some item => exact hnonneg item

theorem le_weigh (hnonneg : ∀ item, 0 ≤ weight item)
    (hitem : items id = some item) (hmem : id ∈ ids) :
    weight item ≤ items.weigh weight ids := by
  have hrest : 0 ≤ items.weigh weight (ids.erase id) := weigh_nonneg hnonneg
  rw [weigh_erase hitem hmem] at hrest
  omega

/-- What the tree and the lists of the scheduler depend on does not change. -/
def SameShape (items changed : Items) (id : ItemId) : Prop :=
  changed.statuses id = items.statuses id ∧
    changed.listOf id = items.listOf id

theorem SameShape.of_eq (hsame : changed id = items id) :
    items.SameShape changed id :=
  ⟨congrArg (Option.map _) hsame, congrArg (Option.map _) hsame⟩

end Items

/-! ## The sum over the lists -/

namespace ServerItem

variable {server : ServerItem} {items : Items}

theorem addSizes_spec (items : Items) (ids : List ItemId) (totals : SizeTotals) :
    (addSizes items ids totals).filesWithUnknownSize =
        totals.filesWithUnknownSize + items.weigh FileItem.unknownSize ids ∧
      int64 (addSizes items ids totals).totalSize =
        int64 (totals.totalSize + items.weigh FileItem.knownSize ids) := by
  induction ids generalizing totals with
  | nil => simp [addSizes]
  | cons id rest ih =>
      unfold addSizes
      cases hitem : items id with
      | none =>
          rw [Items.weigh_cons_of_none hitem, Items.weigh_cons_of_none hitem]
          exact ih totals
      | some item =>
          rw [Items.weigh_cons_of_some hitem, Items.weigh_cons_of_some hitem]
          simp only
          split
          · rename_i hknown
            obtain ⟨hunknown, htotal⟩ := ih
              { totals with totalSize := int64 (totals.totalSize + item.size) }
            have hweight : item.knownSize = item.size := if_pos hknown
            have hnone : item.unknownSize = 0 := if_neg (by omega)
            rw [hunknown, htotal, hweight, hnone, zero_add]
            refine ⟨rfl, ?_⟩
            unfold int64
            rw [Int.bmod_add_bmod, add_assoc]
          · rename_i hnegative
            obtain ⟨hunknown, htotal⟩ := ih
              { totals with
                filesWithUnknownSize := totals.filesWithUnknownSize + 1 }
            have hweight : item.knownSize = 0 := if_neg hnegative
            have hone : item.unknownSize = 1 := if_pos (by omega)
            rw [hunknown, htotal, hweight, hone, zero_add]
            exact ⟨add_assoc _ _ _, rfl⟩

theorem addSizes_append (ids more : List ItemId) (totals : SizeTotals) :
    addSizes items (ids ++ more) totals =
      addSizes items more (addSizes items ids totals) := by
  induction ids generalizing totals with
  | nil => rfl
  | cons id rest ih =>
      simp only [List.cons_append, addSizes]
      split
      · exact ih totals
      · split
        · exact ih _
        · exact ih _

theorem foldl_addSizes (keys : List (Bool × QueuePriority))
    (totals : SizeTotals) :
    keys.foldl (fun totals key => addSizes items (server.fileList key) totals)
        totals =
      addSizes items (keys.flatMap server.fileList) totals := by
  induction keys generalizing totals with
  | nil => rfl
  | cons key rest ih =>
      rw [List.foldl_cons, ih, List.flatMap_cons, addSizes_append]

theorem count_listKeys (key : Bool × QueuePriority) :
    listKeys.count key = 1 := by
  obtain ⟨queued, priority⟩ := key
  cases queued <;> cases priority <;> rfl

theorem sum_indicator (keys : List (Bool × QueuePriority))
    (wanted : Bool × QueuePriority) :
    (keys.map fun key => if wanted = key then 1 else 0).sum =
      keys.count wanted := by
  induction keys with
  | nil => rfl
  | cons key rest ih =>
      rw [List.map_cons, List.sum_cons, ih, List.count_cons, Nat.add_comm]
      by_cases hkey : wanted = key
      · rw [if_pos hkey, hkey, if_pos (beq_self_eq_true key)]
      · rw [if_neg hkey, if_neg fun h => hkey (eq_of_beq h).symm]

theorem Mirrors.perm {members : List ItemId}
    (hmirrors : server.Mirrors items members) (hnodup : members.Nodup)
    (hknown : ∀ id ∈ members, (items id).isSome) :
    (listKeys.flatMap server.fileList).Perm members := by
  apply List.perm_iff_count.mpr
  intro id
  have hcounts : (List.count id ∘ server.fileList) = fun key =>
      if id ∈ members ∧ items.listOf id = some key then 1 else 0 := by
    funext key
    exact hmirrors key id
  rw [List.count_flatMap, hcounts]
  by_cases hmem : id ∈ members
  · obtain ⟨item, hitem⟩ := Option.isSome_iff_exists.mp (hknown id hmem)
    have hlist := Items.listOf_of_some hitem
    have hone : (fun key =>
        if id ∈ members ∧ items.listOf id = some key then 1 else 0) =
        fun key => if (item.queued, item.priority) = key then 1 else 0 := by
      funext key
      simp only [hmem, hlist, Option.some.injEq, true_and]
    rw [hone, sum_indicator, count_listKeys,
      List.count_eq_one_of_mem hnodup hmem]
  · have hzero : (fun key : Bool × QueuePriority =>
        if id ∈ members ∧ items.listOf id = some key then 1 else 0) =
        fun _ => 0 := by
      funext key
      exact if_neg fun h => hmem h.1
    rw [hzero, List.count_eq_zero.mpr hmem]
    simp

theorem getTotalSize_spec {members : List ItemId}
    (hmirrors : server.Mirrors items members) (hnodup : members.Nodup)
    (hknown : ∀ id ∈ members, (items id).isSome) (unknown : ℤ) :
    (server.getTotalSize items unknown).filesWithUnknownSize =
        unknown + items.weigh FileItem.unknownSize members ∧
      int64 (server.getTotalSize items unknown).totalSize =
        int64 (items.weigh FileItem.knownSize members) := by
  have hperm := hmirrors.perm hnodup hknown
  unfold getTotalSize
  rw [foldl_addSizes]
  obtain ⟨hunknown, htotal⟩ := addSizes_spec items
    (listKeys.flatMap server.fileList) ⟨0, unknown⟩
  rw [hunknown, htotal, Items.weigh_perm hperm, Items.weigh_perm hperm,
    zero_add]
  exact ⟨rfl, rfl⟩

end ServerItem

/-! ## All server items -/

namespace ItemQueue

structure Sound (queue : ItemQueue) : Prop where
  rows : queue.RowsSound
  mirrored : queue.Mirrored

variable {queue : ItemQueue} {id : ItemId}

theorem Sound.frame (hsound : queue.Sound) {items : Items}
    (hsame : ∀ id ∈ queue.live, queue.items.SameShape items id) :
    ItemQueue.Sound ⟨queue.server, items⟩ := by
  constructor
  · apply hsound.rows.quiet
    constructor
    · exact .refl _
    · intro id hid
      exact (hsame id hid).1
  · apply ServerItem.Mirrors.of_listOf hsound.mirrored
    intro id hid
    exact (hsame id hid).2

theorem sound_empty (items : Items) :
    ItemQueue.Sound ⟨ServerItem.empty, items⟩ := by
  constructor
  · exact .ofDropped
      ⟨fun _ hid => absurd hid List.not_mem_nil, List.nodup_nil, rfl⟩ rfl
  · intro key id
    rw [if_neg fun h => List.not_mem_nil h.1]
    exact List.count_nil

theorem Sound.addChild (hsound : queue.Sound)
    (hitem : (queue.items id).isSome) (hnew : id ∉ queue.live) :
    (queue.addChild id).Sound :=
  ⟨hsound.rows.addChild hitem hnew, hsound.mirrored.addChild hnew⟩

theorem Sound.removeChild (hsound : queue.Sound) (hmem : id ∈ queue.live)
    (destroy forward : Bool) :
    (queue.removeChild id destroy forward).Sound :=
  ⟨(hsound.rows.removeChild hmem destroy forward).1,
    hsound.mirrored.removeChild hsound.rows.tree.nodup hmem destroy forward⟩

theorem Sound.setActive (hsound : queue.Sound) (hmem : id ∈ queue.live)
    (active : Bool) (statusItem : ℕ) :
    (queue.setActive id active statusItem).Sound :=
  ⟨hsound.rows.setActive hmem active statusItem,
    hsound.mirrored.setActive id active statusItem⟩

theorem Sound.getChild (hsound : queue.Sound) (item : ℕ) :
    (queue.getChild item).2.Sound :=
  ⟨(hsound.rows.getChild item).1, mirrored_getChild hsound.rows
    hsound.mirrored item⟩

theorem Sound.tryRemoveAll (hsound : queue.Sound) :
    queue.tryRemoveAll.Sound ∧
      queue.tryRemoveAll.live = queue.live.filter queue.items.isActive ∧
      ∀ id, queue.tryRemoveAll.items id =
        if id ∈ queue.live then (queue.items id).bind kept
        else queue.items id := by
  have hnodup := hsound.rows.tree.nodup
  obtain ⟨hkeep, hitems, _⟩ := tryRemoveChildren_spec hnodup
    { queue with server := { queue.server with visibleOffspring := 0 } } []
  refine ⟨⟨?_, hsound.mirrored.tryRemoveAll hnodup⟩, hkeep, hitems⟩
  exact .ofDropped hsound.rows.tree.tryRemoveAll rfl

end ItemQueue

namespace QueueView

def childrenOf (serverList : List (ServerId × ServerItem)) : List ItemId :=
  serverList.flatMap fun entry => entry.2.children.live

structure ServersSound (serverList : List (ServerId × ServerItem))
    (items : Items) : Prop where
  unique : UniqueKeys.Unique Prod.fst serverList
  nodup : (childrenOf serverList).Nodup
  servers : ∀ entry ∈ serverList, ItemQueue.Sound ⟨entry.2, items⟩

variable {serverList before after : List (ServerId × ServerItem)}
  {items changed : Items} {key : ServerId} {server : ServerItem}
  {id : ItemId} {item : FileItem} {queue : ItemQueue}
  {weight : FileItem → ℤ}

theorem childrenOf_append (before after : List (ServerId × ServerItem)) :
    childrenOf (before ++ after) = childrenOf before ++ childrenOf after :=
  List.flatMap_append

theorem childrenOf_cons (key : ServerId) (server : ServerItem)
    (after : List (ServerId × ServerItem)) :
    childrenOf ((key, server) :: after) =
      server.children.live ++ childrenOf after := rfl

theorem childrenOf_middle (key : ServerId) (server : ServerItem)
    (before after : List (ServerId × ServerItem)) :
    (childrenOf (before ++ (key, server) :: after)).Perm
      (server.children.live ++ childrenOf (before ++ after)) := by
  rw [childrenOf_append, childrenOf_append, childrenOf_cons,
    ← List.append_assoc, ← List.append_assoc]
  exact List.perm_append_comm.append_right _

theorem mem_childrenOf {entry : ServerId × ServerItem}
    (hentry : entry ∈ serverList) (hid : id ∈ entry.2.children.live) :
    id ∈ childrenOf serverList :=
  List.mem_flatMap.mpr ⟨entry, hentry, hid⟩

theorem ServersSound.known (hsound : ServersSound serverList items) :
    ∀ id ∈ childrenOf serverList, (items id).isSome := by
  intro id hid
  obtain ⟨entry, hentry, hchild⟩ := List.mem_flatMap.mp hid
  exact (hsound.servers entry hentry).rows.tree.known id hchild

theorem ServersSound.frame (hsound : ServersSound serverList items)
    (hsame : ∀ id ∈ childrenOf serverList, items.SameShape changed id) :
    ServersSound serverList changed := by
  constructor
  · exact hsound.unique
  · exact hsound.nodup
  · intro entry hentry
    apply (hsound.servers entry hentry).frame
    intro id hid
    exact hsame id (mem_childrenOf hentry hid)

theorem ServersSound.others (before after : List (ServerId × ServerItem))
    (hsound : ServersSound (before ++ (key, server) :: after) items) :
    ServersSound (before ++ after) items ∧
      (∀ entry ∈ before ++ after, entry.1 ≠ key) ∧
      ∀ id ∈ server.children.live, id ∉ childrenOf (before ++ after) := by
  have hnodup := ((childrenOf_middle key server before after).nodup_iff).mp
    hsound.nodup
  have hsublist : (before ++ after).Sublist
      (before ++ (key, server) :: after) :=
    (List.sublist_cons_self _ _).append_left before
  refine ⟨⟨?_, (List.nodup_append.mp hnodup).2.1, ?_⟩,
    hsound.unique.ne_of_append, ?_⟩
  · exact hsound.unique.sublist (hsublist.map Prod.fst)
  · intro entry hentry
    exact hsound.servers entry (hsublist.subset hentry)
  · intro id hid hother
    exact (List.disjoint_of_nodup_append hnodup) hid hother

theorem ServersSound.insertMiddle
    (before after : List (ServerId × ServerItem))
    (hothers : ServersSound (before ++ after) items)
    (hkey : ∀ entry ∈ before ++ after, entry.1 ≠ key)
    (hqueue : queue.Sound)
    (hdisjoint : ∀ id ∈ queue.live, id ∉ childrenOf (before ++ after))
    (hsame : ∀ id ∈ childrenOf (before ++ after), queue.items id = items id) :
    ServersSound (before ++ (key, queue.server) :: after) queue.items := by
  have hframed := hothers.frame fun id hid => .of_eq (hsame id hid)
  constructor
  · unfold UniqueKeys.Unique
    rw [List.map_append, List.map_cons, List.nodup_middle, ← List.map_append]
    apply hothers.unique.cons
    intro hmem
    obtain ⟨entry, hentry, heq⟩ := List.mem_map.mp hmem
    exact hkey entry hentry heq
  · apply ((childrenOf_middle key queue.server before after).nodup_iff).mpr
    exact hqueue.rows.tree.nodup.append hothers.nodup
      fun id hid hother => hdisjoint id hid hother
  · intro entry hentry
    rcases List.mem_append.mp hentry with hbefore | hrest
    · exact hframed.servers entry (List.mem_append_left after hbefore)
    · rcases List.mem_cons.mp hrest with rfl | hafter
      · exact hqueue
      · exact hframed.servers entry (List.mem_append_right before hafter)

theorem weigh_middle (weight : FileItem → ℤ) (items : Items) (key : ServerId)
    (server : ServerItem) (before after : List (ServerId × ServerItem)) :
    items.weigh weight (childrenOf (before ++ (key, server) :: after)) =
      items.weigh weight server.children.live +
        items.weigh weight (childrenOf (before ++ after)) := by
  rw [Items.weigh_perm (childrenOf_middle key server before after),
    Items.weigh_append]

/-! ## Removing all items -/

theorem removeAllFrom_spec (hsound : ServersSound serverList items) :
    ServersSound (removeAllFrom serverList items).1
        (removeAllFrom serverList items).2 ∧
      (∀ entry ∈ (removeAllFrom serverList items).1,
        ∃ other ∈ serverList, other.1 = entry.1) ∧
      childrenOf (removeAllFrom serverList items).1 =
        (childrenOf serverList).filter items.isActive ∧
      ∀ id, (removeAllFrom serverList items).2 id =
        if id ∈ childrenOf serverList then (items id).bind ItemQueue.kept
        else items id := by
  induction serverList generalizing items with
  | nil => exact ⟨hsound, by simp [removeAllFrom], rfl, fun _ => rfl⟩
  | cons entry rest ih =>
      obtain ⟨key, server⟩ := entry
      obtain ⟨hrest, hkeys, hdisjoint⟩ :=
        ServersSound.others [] rest hsound
      have hqueue : ItemQueue.Sound ⟨server, items⟩ :=
        hsound.servers (key, server) List.mem_cons_self
      unfold removeAllFrom
      simp only
      obtain ⟨hremoved, hlive, hitems⟩ := hqueue.tryRemoveAll
      generalize ItemQueue.tryRemoveAll ⟨server, items⟩ = removed at *
      have hsame : ∀ id ∈ childrenOf rest, removed.items id = items id := by
        intro id hid
        have hnot : id ∉ server.children.live := fun h => hdisjoint id h hid
        exact (hitems id).trans (if_neg hnot)
      obtain ⟨hfinal, hsubset, hchildren, hkept⟩ :=
        ih (hrest.frame fun id hid => .of_eq (hsame id hid))
      rw [Items.filter_isActive_congr hsame] at hchildren
      generalize removeAllFrom rest removed.items = final at *
      have hwritten : ∀ id, final.2 id =
          if id ∈ childrenOf ((key, server) :: rest) then
            (items id).bind ItemQueue.kept else items id := by
        intro id
        have hmem := List.mem_append (s := server.children.live)
          (t := childrenOf rest) (a := id)
        simp only [childrenOf_cons, hmem]
        rw [hkept]
        by_cases hother : id ∈ childrenOf rest
        · rw [if_pos hother, if_pos (Or.inr hother), hsame id hother]
        · rw [if_neg hother, hitems id]
          by_cases hchild : id ∈ server.children.live
          · rw [if_pos (Or.inl hchild)]
            exact if_pos hchild
          · rw [if_neg (not_or.mpr ⟨hchild, hother⟩)]
            exact if_neg hchild
      have hfiltered : childrenOf ((key, removed.server) :: final.1) =
          (childrenOf ((key, server) :: rest)).filter items.isActive := by
        rw [childrenOf_cons, childrenOf_cons, List.filter_append, hchildren]
        congr 1
      have hkeysLater : ∀ other ∈ final.1,
          ∃ source ∈ (key, server) :: rest, source.1 = other.1 := by
        intro other hother
        obtain ⟨source, hsource, heq⟩ := hsubset other hother
        exact ⟨source, List.mem_cons_of_mem _ hsource, heq⟩
      split
      · rename_i hempty
        refine ⟨hfinal, hkeysLater, ?_, hwritten⟩
        rw [← hfiltered, childrenOf_cons, List.isEmpty_iff.mp hempty]
        rfl
      · have hmember : ∀ id ∈ removed.live, id ∉ childrenOf rest := by
          intro id hid
          rw [hlive] at hid
          exact hdisjoint id (List.mem_of_mem_filter hid)
        refine ⟨?_, ?_, hfiltered, hwritten⟩
        · have hframed : ItemQueue.Sound ⟨removed.server, final.2⟩ := by
            apply hremoved.frame
            intro id hid
            apply Items.SameShape.of_eq
            rw [hkept, if_neg (hmember id hid)]
          apply ServersSound.insertMiddle [] final.1 hfinal _ hframed
          · intro id hid hother
            rw [List.nil_append, hchildren] at hother
            exact hmember id hid (List.mem_of_mem_filter hother)
          · exact fun _ _ => rfl
          · intro other hother
            obtain ⟨source, hsource, heq⟩ := hsubset other hother
            rw [← heq]
            exact hkeys source hsource
        · intro other hother
          rcases List.mem_cons.mp hother with rfl | hlater
          · exact ⟨(key, server), List.mem_cons_self, rfl⟩
          · exact hkeysLater other hlater

theorem calculateFrom_spec (serverList : List (ServerId × ServerItem))
    (hsound : ∀ entry ∈ serverList, ItemQueue.Sound ⟨entry.2, items⟩)
    (totals : SizeTotals) (htotals : int64 totals.totalSize = totals.totalSize) :
    (calculateFrom items serverList totals).filesWithUnknownSize =
        totals.filesWithUnknownSize +
          items.weigh FileItem.unknownSize (childrenOf serverList) ∧
      (calculateFrom items serverList totals).totalSize =
        int64 (totals.totalSize +
          items.weigh FileItem.knownSize (childrenOf serverList)) := by
  induction serverList generalizing totals with
  | nil =>
      have hnone : childrenOf [] = [] := rfl
      rw [hnone]
      simp [calculateFrom, htotals]
  | cons entry rest ih =>
      obtain ⟨key, server⟩ := entry
      have hqueue : ItemQueue.Sound ⟨server, items⟩ :=
        hsound (key, server) List.mem_cons_self
      obtain ⟨hunknown, htotal⟩ := ServerItem.getTotalSize_spec
        hqueue.mirrored hqueue.rows.tree.nodup hqueue.rows.tree.known
        totals.filesWithUnknownSize
      have hlive : ItemQueue.live ⟨server, items⟩ = server.children.live := rfl
      rw [hlive] at hunknown htotal
      unfold calculateFrom
      simp only
      rw [childrenOf_cons, Items.weigh_append, Items.weigh_append]
      have hwrapped : ∀ number, int64 (int64 number) = int64 number :=
        fun number => Int.bmod_bmod
      obtain ⟨hrest, hsum⟩ := ih
        (fun other hother => hsound other (List.mem_cons_of_mem _ hother))
        ⟨int64 (totals.totalSize + _), _⟩ (hwrapped _)
      rw [hrest, hsum, hunknown]
      constructor
      · exact add_assoc _ _ _
      · exact int64_sum htotal _ _

theorem length_childrenOf (serverList : List (ServerId × ServerItem)) :
    ((childrenOf serverList).length : ℤ) = (serverList.map fun entry =>
      (entry.2.children.live.length : ℤ)).sum := by
  unfold childrenOf
  rw [List.length_flatMap]
  push_cast
  rw [List.map_map]
  rfl

/-! ## What a run keeps -/

structure Exact (view : QueueView) : Prop where
  servers : ServersSound view.serverList view.items
  fileCount : view.fileCount = view.allChildren.length
  total : view.totalQueueSize =
    int64 (view.items.weigh (FileItem.ofFile FileItem.knownSize)
      view.allChildren)
  unknown : view.filesWithUnknownSize =
    view.items.weigh (FileItem.ofFile FileItem.unknownSize)
      view.allChildren

variable {view : QueueView}

theorem exists_middle (hfound : view.server key = some server) :
    ∃ before after, view.serverList = before ++ (key, server) :: after := by
  obtain ⟨entry, hentry, rfl⟩ := Option.map_eq_some_iff.mp hfound
  obtain ⟨hkey, before, after, heq, _⟩ :=
    List.find?_eq_some_iff_append.mp hentry
  have hkey' : entry.1 = key := of_decide_eq_true hkey
  exact ⟨before, after, hkey' ▸ heq⟩

structure Exchanged (view : QueueView) (server : ServerItem)
    (queue : ItemQueue) (serverList : List (ServerId × ServerItem)) :
    Prop where
  servers : ServersSound serverList queue.items
  weigh : ∀ weight,
    queue.items.weigh weight (childrenOf serverList) =
      view.items.weigh weight view.allChildren -
        view.items.weigh weight server.children.live +
        queue.items.weigh weight queue.live
  length : ((childrenOf serverList).length : ℤ) =
    view.allChildren.length - server.children.live.length +
      queue.live.length

theorem ServersSound.put (hsound : ServersSound view.serverList view.items)
    (hfound : view.server key = some server) (hqueue : queue.Sound)
    (hnew : ∀ id ∈ queue.live,
      id ∈ server.children.live ∨ id ∉ view.allChildren)
    (hsame : ∀ id ∈ view.allChildren, id ∉ server.children.live →
      queue.items id = view.items id) :
    view.Exchanged server queue (view.put key queue).serverList := by
  obtain ⟨before, after, heq⟩ := exists_middle hfound
  have hsplit : view.allChildren =
      childrenOf (before ++ (key, server) :: after) :=
    congrArg childrenOf heq
  unfold QueueView.put
  simp only
  rw [hsplit] at hnew hsame
  rw [heq] at hsound ⊢
  have hwritten : UniqueKeys.write Prod.fst key
      (fun entry => (entry.1, queue.server))
      (before ++ (key, server) :: after) =
      before ++ (key, queue.server) :: after := hsound.unique.write_append
  rw [hwritten]
  obtain ⟨hothers, hkeys, hdisjoint⟩ := ServersSound.others before after hsound
  have hmember : ∀ id ∈ childrenOf (before ++ after),
      id ∈ childrenOf (before ++ (key, server) :: after) := fun id hid =>
    (childrenOf_middle key server before after).mem_iff.mpr
      (List.mem_append_right _ hid)
  have hframe : ∀ id ∈ childrenOf (before ++ after),
      queue.items id = view.items id := by
    intro id hid
    exact hsame id (hmember id hid) fun h => hdisjoint id h hid
  constructor
  · apply ServersSound.insertMiddle before after hothers hkeys hqueue _ hframe
    intro id hid hother
    rcases hnew id hid with hchild | hnot
    · exact hdisjoint id hchild hother
    · exact hnot (hmember id hother)
  · intro weight
    have hput := weigh_middle weight queue.items key queue.server before after
    rw [Items.weigh_congr_items hframe] at hput
    rw [hput, hsplit, weigh_middle]
    unfold ItemQueue.live
    omega
  · have hold := (childrenOf_middle key server before after).length_eq
    have hput := (childrenOf_middle key queue.server before after).length_eq
    rw [List.length_append] at hold hput
    rw [hput, hsplit, hold]
    unfold ItemQueue.live
    omega

theorem ServersSound.erase (hsound : ServersSound view.serverList view.items)
    (hfound : view.server key = some server) (hempty : queue.live = [])
    (hsame : ∀ id ∈ view.allChildren, id ∉ server.children.live →
      queue.items id = view.items id) :
    view.Exchanged server queue
      (view.serverList.filter fun entry => !decide (entry.1 = key)) := by
  obtain ⟨before, after, heq⟩ := exists_middle hfound
  have hsplit : view.allChildren =
      childrenOf (before ++ (key, server) :: after) :=
    congrArg childrenOf heq
  rw [heq] at hsound ⊢
  have hfiltered : (before ++ (key, server) :: after).filter
      (fun entry => !decide (entry.1 = key)) = before ++ after :=
    hsound.unique.filter_append
  rw [hfiltered]
  obtain ⟨hothers, _, hdisjoint⟩ := ServersSound.others before after hsound
  have hframe : ∀ id ∈ childrenOf (before ++ after),
      queue.items id = view.items id := by
    intro id hid
    apply hsame id _ fun h => hdisjoint id h hid
    rw [hsplit]
    exact (childrenOf_middle key server before after).mem_iff.mpr
      (List.mem_append_right _ hid)
  constructor
  · exact hothers.frame fun id hid => .of_eq (hframe id hid)
  · intro weight
    rw [Items.weigh_congr_items hframe, hsplit, weigh_middle, hempty,
      Items.weigh_nil]
    omega
  · have hold := (childrenOf_middle key server before after).length_eq
    rw [List.length_append] at hold
    rw [hsplit, hold, hempty, List.length_nil]
    omega

theorem int64_self (number : ℤ) : int64 (int64 number) = int64 number :=
  Int.bmod_bmod

theorem insertItem_totals (view : QueueView) (key : ServerId)
    (server : ServerItem) (id : ItemId) (item : FileItem)
    (hwrapped : int64 view.totalQueueSize = view.totalQueueSize) :
    view.insertItem key server id item =
      { view.put key (ItemQueue.addChild ⟨server, view.items⟩ id) with
        fileCount := view.fileCount + 1
        totalQueueSize := int64 (view.totalQueueSize +
          FileItem.ofFile FileItem.knownSize item)
        filesWithUnknownSize := view.filesWithUnknownSize +
          FileItem.ofFile FileItem.unknownSize item } := by
  unfold insertItem FileItem.ofFile FileItem.knownSize FileItem.unknownSize
  cases item.type with
  | folder => simp [QueueView.put, hwrapped]
  | file =>
      rcases lt_trichotomy item.size 0 with hneg | hzero | hpos
      · simp [QueueView.put, hneg, hneg.not_ge, hwrapped]
      · simp [QueueView.put, hzero, hwrapped]
      · simp [QueueView.put, hpos, hpos.le, hpos.not_gt]

theorem subtractItem_totals (view : QueueView) (item : FileItem)
    (hwrapped : int64 view.totalQueueSize = view.totalQueueSize) :
    view.subtractItem item =
      { view with
        totalQueueSize := int64 (view.totalQueueSize -
          FileItem.ofFile FileItem.knownSize item)
        filesWithUnknownSize := view.filesWithUnknownSize -
          FileItem.ofFile FileItem.unknownSize item } := by
  unfold subtractItem FileItem.ofFile FileItem.knownSize FileItem.unknownSize
  cases item.type with
  | folder => simp [hwrapped]
  | file =>
      rcases lt_trichotomy item.size 0 with hneg | hzero | hpos
      · simp [hneg, hneg.not_ge, hwrapped]
      · simp [hzero, hwrapped]
      · simp [hpos, hpos.le, hpos.not_gt]

theorem Exact.wrapped (hexact : view.Exact) :
    int64 view.totalQueueSize = view.totalQueueSize := by
  rw [hexact.total, int64_self]

theorem Exact.found (hexact : view.Exact)
    (hfound : view.server key = some server) :
    ItemQueue.Sound ⟨server, view.items⟩ ∧
      ∀ id ∈ server.children.live, id ∈ view.allChildren := by
  obtain ⟨before, after, heq⟩ := exists_middle hfound
  have hmem : (key, server) ∈ view.serverList := by
    rw [heq]
    exact List.mem_append_right _ List.mem_cons_self
  exact ⟨hexact.servers.servers _ hmem, fun id hid => mem_childrenOf hmem hid⟩

theorem Exact.insertItem (hexact : view.Exact)
    (hfound : view.server key = some server)
    (hitem : view.items id = some item) (hnew : id ∉ view.allChildren) :
    (view.insertItem key server id item).Exact := by
  obtain ⟨hqueue, hmember⟩ := hexact.found hfound
  have hknown : ((ItemQueue.mk server view.items).items id).isSome :=
    Option.isSome_iff_exists.mpr ⟨item, hitem⟩
  have hadded := hqueue.addChild hknown fun h => hnew (hmember id h)
  have hlive := ItemQueue.live_addChild ⟨server, view.items⟩ id
  have hput := hexact.servers.put hfound hadded
    (fun other hother => by
      rw [hlive, List.mem_append, List.mem_singleton] at hother
      rcases hother with hold | rfl
      · exact Or.inl hold
      · exact Or.inr hnew)
    (fun _ _ _ => rfl)
  have hone : ∀ weight, (ItemQueue.addChild ⟨server, view.items⟩
      id).items.weigh weight (ItemQueue.addChild ⟨server, view.items⟩ id).live =
      view.items.weigh weight server.children.live + weight item := by
    intro weight
    rw [hlive]
    have hsingle : view.items.weigh weight [id] = weight item := by
      rw [Items.weigh_cons_of_some hitem, Items.weigh_nil, add_zero]
    rw [← hsingle]
    exact Items.weigh_append
  rw [insertItem_totals view key server id item hexact.wrapped]
  constructor
  · exact hput.servers
  · have hlength := hput.length
    rw [hlive, List.length_append] at hlength
    show view.fileCount + 1 = ((childrenOf _).length : ℤ)
    rw [hexact.fileCount, hlength]
    show _ = _ - _ + ((server.children.live.length + 1 : ℕ) : ℤ)
    omega
  · show int64 (view.totalQueueSize + _) = int64 _
    refine Eq.trans ?_ (congrArg int64 (hput.weigh _)).symm
    rw [hone, hexact.total, int64_add]
    congr 1
    omega
  · show view.filesWithUnknownSize + _ = _
    refine Eq.trans ?_ (hput.weigh _).symm
    rw [hone, hexact.unknown]
    omega

theorem removeFromServer_spec (view : QueueView) (key : ServerId)
    (server : ServerItem) (id : ItemId) (destroy forward : Bool)
    (hsound : ServersSound view.serverList view.items)
    (hfound : view.server key = some server)
    (hmem : id ∈ server.children.live) :
    ∃ removed : ItemQueue,
      removed.live = server.children.live.erase id ∧
      (∀ other, other ≠ id → removed.items other = view.items other) ∧
      view.Exchanged server removed
        (view.removeFromServer key server id destroy forward).serverList ∧
      view.removeFromServer key server id destroy forward =
        { view with
          serverList :=
            (view.removeFromServer key server id destroy forward).serverList
          items := removed.items
          fileCount := view.fileCount - 1 } := by
  have hmember : (key, server) ∈ view.serverList := by
    obtain ⟨before, after, heq⟩ := exists_middle hfound
    rw [heq]
    exact List.mem_append_right _ List.mem_cons_self
  have hqueue : ItemQueue.Sound ⟨server, view.items⟩ :=
    hsound.servers _ hmember
  have hremoved := hqueue.removeChild hmem destroy forward
  obtain ⟨_, hlive⟩ := hqueue.rows.removeChild hmem destroy forward
  obtain ⟨children, _, heq⟩ :=
    ItemQueue.removeChild_eq hqueue.rows.tree.nodup hmem destroy forward
  have hitems : ∀ other, other ≠ id → (ItemQueue.removeChild
      ⟨server, view.items⟩ id destroy forward).items other =
      view.items other := by
    intro other hne
    rw [heq]
    simp only
    split
    · exact Items.delete_of_ne hne
    · rfl
  unfold removeFromServer
  simp only
  generalize ItemQueue.removeChild ⟨server, view.items⟩ id destroy forward =
    removed at *
  obtain ⟨count, hcached⟩ := hremoved.rows.cache
  obtain ⟨hwalk, _, hsame, _⟩ :=
    ItemQueue.getChild_spec hremoved.rows.tree hcached 0
  have hfirst := hwalk (by decide)
  have hfinal := hremoved.getChild 0
  have hfinalLive := (hremoved.rows.getChild 0).2
  clear hwalk
  generalize removed.getChild 0 = answer at *
  obtain ⟨first, final⟩ := answer
  simp only at hfirst hsame hfinal hfinalLive ⊢
  have hchildren : ∀ other ∈ view.allChildren,
      other ∉ server.children.live → final.items other = view.items other := by
    intro other _ hnot
    rw [hsame]
    apply hitems other
    rintro rfl
    exact hnot hmem
  refine ⟨final, hfinalLive.trans hlive, ?_, ?_⟩
  · intro other hne
    rw [hsame]
    exact hitems other hne
  · cases hrest : removed.live with
    | nil =>
        rw [hrest] at hfirst hfinalLive
        rw [hfirst]
        exact ⟨hsound.erase hfound hfinalLive hchildren, rfl⟩
    | cons head tail =>
        rw [hrest] at hfirst
        rw [hfirst]
        refine ⟨?_, rfl⟩
        apply hsound.put hfound hfinal _ hchildren
        intro other hother
        rw [hfinalLive, hlive] at hother
        exact Or.inl (List.mem_of_mem_erase hother)

theorem Exact.removeItem (hexact : view.Exact)
    (hfound : view.server key = some server)
    (hitem : view.items id = some item) (hmem : id ∈ server.children.live)
    (destroy forward : Bool) :
    (view.removeItem key server id item destroy forward).Exact := by
  have hnodup : server.children.live.Nodup :=
    (hexact.found hfound).1.rows.tree.nodup
  unfold QueueView.removeItem
  rw [subtractItem_totals view item hexact.wrapped]
  obtain ⟨removed, hlive, hitems, hexchanged, heq⟩ := removeFromServer_spec
    { view with
      totalQueueSize := int64 (view.totalQueueSize -
        FileItem.ofFile FileItem.knownSize item)
      filesWithUnknownSize := view.filesWithUnknownSize -
        FileItem.ofFile FileItem.unknownSize item }
    key server id destroy forward hexact.servers hfound hmem
  rw [heq]
  generalize (QueueView.removeFromServer _ key server id destroy
    forward).serverList = serverList at *
  have hless : ∀ weight, removed.items.weigh weight removed.live =
      view.items.weigh weight server.children.live - weight item := by
    intro weight
    rw [hlive, ← Items.weigh_erase hitem hmem]
    apply Items.weigh_congr_items
    intro other hother
    exact hitems other (hnodup.mem_erase_iff.mp hother).1
  have hweigh : ∀ weight, removed.items.weigh weight (childrenOf serverList) =
      view.items.weigh weight view.allChildren - weight item := by
    intro weight
    have hall := hexchanged.weigh weight
    rw [hless] at hall
    refine hall.trans ?_
    show view.items.weigh weight view.allChildren -
      view.items.weigh weight server.children.live + _ = _
    omega
  constructor
  · exact hexchanged.servers
  · show view.fileCount - 1 = ((childrenOf serverList).length : ℤ)
    have hlength := hexchanged.length
    have hcount := List.length_erase_of_mem hmem
    have hpositive := List.length_pos_of_mem hmem
    rw [hlive, hcount] at hlength
    rw [hexact.fileCount, hlength]
    show _ = ((view.allChildren.length : ℕ) : ℤ) - _ + _
    omega
  · show int64 (view.totalQueueSize - _) =
      int64 (removed.items.weigh _ (childrenOf serverList))
    rw [hweigh, hexact.total, sub_eq_add_neg, int64_add, ← sub_eq_add_neg]
  · show view.filesWithUnknownSize - _ =
      removed.items.weigh _ (childrenOf serverList)
    rw [hweigh, hexact.unknown]

theorem setActive_item (queue : ItemQueue) (id : ItemId) (active : Bool)
    (statusItem : ℕ) (other : ItemId) :
    (other ≠ id → (queue.setActive id active statusItem).items other =
      queue.items other) ∧
      (((queue.setActive id active statusItem).items other).map fun item =>
        (item.type, item.size)) =
        (queue.items other).map fun item => (item.type, item.size) := by
  have hwrite : ∀ item changed, queue.items id = some item →
      changed.type = item.type → changed.size = item.size →
      (other ≠ id → queue.items.write id changed other = queue.items other) ∧
        ((queue.items.write id changed other).map fun item =>
          (item.type, item.size)) =
          (queue.items other).map fun item => (item.type, item.size) := by
    intro item changed hitem htype hsize
    refine ⟨Items.write_of_ne, ?_⟩
    by_cases hother : other = id
    · rw [hother, Items.write_self, hitem, Option.map_some, Option.map_some,
        htype, hsize]
    · rw [Items.write_of_ne hother]
  unfold ItemQueue.setActive
  split
  · exact ⟨fun _ => rfl, rfl⟩
  · rename_i item hitem
    simp only
    split
    · exact hwrite item _ hitem rfl rfl
    · split
      · exact ⟨fun _ => rfl, rfl⟩
      · split
        · exact hwrite item _ hitem rfl rfl
        · split
          · exact hwrite item _ hitem rfl rfl
          · exact hwrite item _ hitem rfl rfl

theorem ofFile_congr {items changed : Items}
    (hsame : ((changed id).map fun item => (item.type, item.size)) =
      (items id).map fun item => (item.type, item.size))
    (weight : FileItem → ℤ)
    (hweight : ∀ item other : FileItem, item.size = other.size →
      weight item = weight other) :
    (changed id).elim 0 (FileItem.ofFile weight) =
      (items id).elim 0 (FileItem.ofFile weight) := by
  cases hitem : items id with
  | none =>
      rw [hitem, Option.map_none, Option.map_eq_none_iff] at hsame
      rw [hsame]
  | some item =>
      rw [hitem, Option.map_some, Option.map_eq_some_iff] at hsame
      obtain ⟨other, hother, heq⟩ := hsame
      obtain ⟨htype, hsize⟩ := Prod.mk.inj heq
      rw [hother]
      show FileItem.ofFile weight other = FileItem.ofFile weight item
      unfold FileItem.ofFile
      rw [htype, hweight other item hsize]

theorem knownSize_congr (item other : FileItem)
    (hsize : item.size = other.size) : item.knownSize = other.knownSize := by
  unfold FileItem.knownSize
  rw [hsize]

theorem unknownSize_congr (item other : FileItem)
    (hsize : item.size = other.size) :
    item.unknownSize = other.unknownSize := by
  unfold FileItem.unknownSize
  rw [hsize]

theorem Exact.setActive (hexact : view.Exact)
    (hfound : view.server key = some server)
    (hmem : id ∈ server.children.live) (active : Bool) (statusItem : ℕ) :
    (view.put key
      (ItemQueue.setActive ⟨server, view.items⟩ id active statusItem)).Exact := by
  obtain ⟨hqueue, _⟩ := hexact.found hfound
  have hchanged := hqueue.setActive hmem active statusItem
  have hlive := ItemQueue.live_setActive ⟨server, view.items⟩ id active
    statusItem
  have hitems := setActive_item ⟨server, view.items⟩ id active statusItem
  generalize ItemQueue.setActive ⟨server, view.items⟩ id active statusItem =
    changed at *
  have hput := hexact.servers.put hfound hchanged
    (fun other hother => Or.inl (by rwa [hlive] at hother))
    (fun other _ hnot => (hitems other).1 fun heq => hnot (heq ▸ hmem))
  have hweigh : ∀ weight : FileItem → ℤ,
      (∀ item other : FileItem, item.size = other.size →
        weight item = weight other) →
      changed.items.weigh (FileItem.ofFile weight)
        (view.put key changed).allChildren =
        view.items.weigh (FileItem.ofFile weight) view.allChildren := by
    intro weight hweight
    have hown : changed.items.weigh (FileItem.ofFile weight) changed.live =
        view.items.weigh (FileItem.ofFile weight) server.children.live := by
      rw [hlive]
      apply Items.weigh_congr
      intro other _
      exact ofFile_congr (hitems other).2 weight hweight
    have hall := hput.weigh (FileItem.ofFile weight)
    rw [hown] at hall
    exact hall.trans (sub_add_cancel _ _)
  constructor
  · exact hput.servers
  · show view.fileCount = ((childrenOf _).length : ℤ)
    have hlength := hput.length
    rw [hlive] at hlength
    rw [hexact.fileCount, hlength]
    exact (sub_add_cancel _ _).symm
  · exact hexact.total.trans
      (congrArg int64 (hweigh _ knownSize_congr)).symm
  · exact hexact.unknown.trans (hweigh _ unknownSize_congr).symm

theorem updateItemSize_totals (view : QueueView) (id : ItemId)
    (item : FileItem) (size : ℤ) (hne : size ≠ item.size)
    (hunknown : item.size < 0 → view.filesWithUnknownSize ≠ 0)
    (hwrapped : int64 view.totalQueueSize = view.totalQueueSize) :
    view.updateItemSize id item size =
      { view with
        items := view.items.write id (item.setSize size)
        totalQueueSize := int64 (view.totalQueueSize - item.knownSize +
          (item.setSize size).knownSize)
        filesWithUnknownSize := view.filesWithUnknownSize - item.unknownSize +
          (item.setSize size).unknownSize } := by
  unfold updateItemSize FileItem.knownSize FileItem.unknownSize
    FileItem.setSize
  simp only
  rw [if_neg hne]
  by_cases hold : item.size < 0
  · by_cases hnew : size < 0
    · simp [hold, hnew, hold.not_ge, hnew.not_ge, hunknown hold, hwrapped]
    · simp [hold, hnew, hold.not_ge, not_lt.mp hnew, hunknown hold]
  · by_cases hnew : size < 0
    · simp [hold, hnew, not_lt.mp hold, hnew.not_ge]
    · simp [hold, hnew, not_lt.mp hold, not_lt.mp hnew, int64_add]

theorem Exact.updateItemSize (hexact : view.Exact)
    (hitem : view.items id = some item) (hmem : id ∈ view.allChildren)
    (size : ℤ) (hfile : item.type = .file ∨ size = item.size) :
    (view.updateItemSize id item size).Exact := by
  by_cases hne : size = item.size
  · unfold QueueView.updateItemSize
    rw [if_pos hne]
    exact hexact
  · have htype : item.type = .file := hfile.resolve_right hne
    have hfileWeight : ∀ (weight : FileItem → ℤ) (other : FileItem),
        other.type = .file → FileItem.ofFile weight other = weight other := by
      intro weight other hother
      unfold FileItem.ofFile
      rw [hother]
    have hunknown : item.size < 0 → view.filesWithUnknownSize ≠ 0 := by
      intro hnegative
      have hnonneg : ∀ other : FileItem,
          0 ≤ FileItem.ofFile FileItem.unknownSize other := by
        intro other
        unfold FileItem.ofFile FileItem.unknownSize
        split
        · split <;> omega
        · omega
      have hle := Items.le_weigh hnonneg hitem hmem
      have hone : item.unknownSize = 1 := if_pos hnegative
      rw [hfileWeight _ _ htype, ← hexact.unknown, hone] at hle
      omega
    rw [updateItemSize_totals view id item size hne hunknown hexact.wrapped]
    have hwrite : ∀ weight, Items.weigh
        (view.items.write id (item.setSize size))
        (FileItem.ofFile weight) view.allChildren =
        view.items.weigh (FileItem.ofFile weight) view.allChildren -
          weight item + weight (item.setSize size) := by
      intro weight
      have hwritten : (item.setSize size).type = .file := htype
      have hnodup : view.allChildren.Nodup := hexact.servers.nodup
      rw [Items.weigh_write hnodup hitem hmem, hfileWeight weight item htype,
        hfileWeight weight _ hwritten]
    constructor
    · apply hexact.servers.frame
      intro other _
      have hchildren : (item.setSize size).children = item.children := rfl
      have hqueued : (item.setSize size).queued = item.queued := rfl
      have hpriority : (item.setSize size).priority = item.priority := rfl
      constructor
      · exact Items.statuses_write_of_children hitem hchildren other
      · exact Items.listOf_write_of_same hitem hqueued hpriority other
    · exact hexact.fileCount
    · show int64 (view.totalQueueSize - _ + _) = int64 (Items.weigh _ _
        view.allChildren)
      rw [hwrite, hexact.total, sub_add_eq_add_sub, add_sub_assoc, int64_add]
      congr 1
      omega
    · show view.filesWithUnknownSize - _ + _ = Items.weigh _ _
        view.allChildren
      rw [hwrite, hexact.unknown]

theorem Exact.removeAll (hexact : view.Exact)
    (hfiles : ∀ id ∈ view.allChildren, ∀ item, view.items id = some item →
      item.active = true → item.type = .file) :
    view.removeAll.Exact := by
  obtain ⟨hservers, _, hchildren, hkept⟩ := removeAllFrom_spec hexact.servers
  unfold QueueView.removeAll
  generalize removeAllFrom view.serverList view.items = removed at *
  obtain ⟨newServerList, items⟩ := removed
  simp only at hservers hchildren hkept ⊢
  obtain ⟨hunknown, htotal⟩ := calculateFrom_spec newServerList
    hservers.servers ⟨0, 0⟩ rfl
  rw [zero_add] at hunknown htotal
  have hweight : ∀ weight : FileItem → ℤ,
      items.weigh weight (childrenOf newServerList) =
        items.weigh (FileItem.ofFile weight) (childrenOf newServerList) := by
    intro weight
    apply Items.weigh_congr_weight
    intro id hid final hfinal
    rw [hchildren, List.mem_filter] at hid
    obtain ⟨hmem, hactive⟩ := hid
    obtain ⟨item, hitem, hitemActive⟩ := (Option.any_eq_true _ _).mp hactive
    have hbind := hkept id
    rw [if_pos hmem, hitem, Option.bind_some, ItemQueue.kept,
      if_pos hitemActive, hfinal] at hbind
    have htype : final.type = .file := by
      rw [Option.some.inj hbind]
      exact hfiles id hmem item hitem hitemActive
    unfold FileItem.ofFile
    rw [htype]
  unfold calculateQueueSize
  constructor
  · exact hservers
  · exact (length_childrenOf newServerList).symm
  · exact htotal.trans (congrArg int64 (hweight _))
  · exact hunknown.trans (hweight _)

/-! ## Every run -/

end QueueView

namespace Items

def isUnknownFile (items : Items) (id : ItemId) : Bool :=
  (items id).any fun item => decide (item.type = .file ∧ item.size < 0)

def isActiveFolder (items : Items) (id : ItemId) : Bool :=
  (items id).any fun item => item.active && decide (item.type = .folder)

def isFileOrOfSize (items : Items) (id : ItemId) (size : ℤ) : Bool :=
  (items id).all fun item => decide (item.type = .file ∨ size = item.size)

theorem weigh_unknownSize (items : Items) (ids : List ItemId) :
    items.weigh (FileItem.ofFile FileItem.unknownSize) ids =
      ids.countP items.isUnknownFile := by
  induction ids with
  | nil => rfl
  | cons id rest ih =>
      rw [List.countP_cons]
      cases hitem : items id with
      | none =>
          rw [weigh_cons_of_none hitem, ih]
          simp [isUnknownFile, hitem]
      | some item =>
          rw [weigh_cons_of_some hitem, ih]
          unfold FileItem.ofFile FileItem.unknownSize isUnknownFile
          rw [hitem]
          cases htype : item.type with
          | folder => simp [htype]
          | file =>
              by_cases hsize : item.size < 0
              · simp [htype, hsize, add_comm]
              · simp [htype, hsize]

end Items

namespace QueueView

variable {view : QueueView}

/-- No folder is active when all items are removed, and only files are given
a size. -/
def Allowed (view : QueueView) : Request → Prop
  | .removeAll => ∀ id ∈ view.allChildren, view.items.isActiveFolder id = false
  | .updateItemSize id size => view.items.isFileOrOfSize id size = true
  | _ => True

instance (view : QueueView) (request : Request) :
    Decidable (view.Allowed request) := by
  cases request <;> unfold Allowed <;> infer_instance

/-- One step that meets the condition keeps the totals. -/
theorem step_exact (hexact : view.Exact) {request : Request}
    (hallowed : view.Allowed request) {following : QueueView}
    {answer : List Unit}
    (hstep : step view request = some (following, answer)) :
    following.Exact := by
  cases request with
  | createServerItem key =>
      simp only [step, Option.ite_none_right_eq_some, Option.some.injEq,
        Prod.mk.injEq] at hstep
      obtain ⟨hnone, rfl, _⟩ := hstep
      have hkeys : ∀ entry ∈ view.serverList ++ [], entry.1 ≠ key := by
        intro entry hentry heq
        rw [List.append_nil] at hentry
        have hfind := Option.map_eq_none_iff.mp hnone
        exact List.find?_eq_none.mp hfind entry hentry (decide_eq_true heq)
      have hservers := ServersSound.insertMiddle view.serverList []
        ((List.append_nil view.serverList).symm ▸ hexact.servers) hkeys
        (ItemQueue.sound_empty view.items)
        (fun _ hid => absurd hid List.not_mem_nil) (fun _ _ => rfl)
      have hsame : (view.createServerItem key).allChildren =
          view.allChildren := by
        unfold createServerItem allChildren
        rw [List.flatMap_append]
        exact List.append_nil _
      constructor
      · exact hservers
      · rw [hsame]
        exact hexact.fileCount
      · rw [hsame]
        exact hexact.total
      · rw [hsame]
        exact hexact.unknown
  | construct id item =>
      simp only [step, Option.ite_none_right_eq_some, Option.some.injEq,
        Prod.mk.injEq] at hstep
      obtain ⟨⟨_, hnew, _⟩, rfl, _⟩ := hstep
      have hothers : ∀ other ∈ view.allChildren,
          view.items.write id item other = view.items other := by
        intro other hother
        apply Items.write_of_ne
        rintro rfl
        exact hnew hother
      constructor
      · exact hexact.servers.frame fun other hother =>
          .of_eq (hothers other hother)
      · exact hexact.fileCount
      · exact hexact.total.trans
          (congrArg int64 (Items.weigh_congr_items hothers)).symm
      · exact hexact.unknown.trans (Items.weigh_congr_items hothers).symm
  | insertItem key id =>
      simp only [step] at hstep
      split at hstep
      · rename_i server item hfound hitem
        simp only [Option.ite_none_left_eq_some, Option.some.injEq,
          Prod.mk.injEq] at hstep
        obtain ⟨hnew, rfl, _⟩ := hstep
        exact hexact.insertItem hfound hitem hnew
      · exact absurd hstep.symm (Option.some_ne_none _)
  | removeItem key id destroy forward =>
      simp only [step] at hstep
      split at hstep
      · rename_i server item hfound hitem
        simp only [Option.ite_none_right_eq_some, Option.some.injEq,
          Prod.mk.injEq] at hstep
        obtain ⟨hmem, rfl, _⟩ := hstep
        exact hexact.removeItem hfound hitem hmem destroy forward
      · exact absurd hstep.symm (Option.some_ne_none _)
  | setActive key id active statusItem =>
      simp only [step] at hstep
      split at hstep
      · exact absurd hstep.symm (Option.some_ne_none _)
      · rename_i server hfound
        simp only [Option.ite_none_right_eq_some, Option.some.injEq,
          Prod.mk.injEq] at hstep
        obtain ⟨hmem, rfl, _⟩ := hstep
        exact hexact.setActive hfound hmem active statusItem
  | updateItemSize id size =>
      simp only [step] at hstep
      split at hstep
      · exact absurd hstep.symm (Option.some_ne_none _)
      · rename_i item hitem
        simp only [Option.ite_none_right_eq_some, Option.some.injEq,
          Prod.mk.injEq] at hstep
        obtain ⟨hmem, rfl, _⟩ := hstep
        apply hexact.updateItemSize hitem hmem size
        have hall : view.items.isFileOrOfSize id size = true := hallowed
        unfold Items.isFileOrOfSize at hall
        rw [hitem] at hall
        exact of_decide_eq_true hall
  | removeAll =>
      simp only [step, Option.some.injEq, Prod.mk.injEq] at hstep
      obtain ⟨rfl, _⟩ := hstep
      apply hexact.removeAll
      intro id hid item hitem hactive
      have hnone : view.items.isActiveFolder id = false := hallowed id hid
      unfold Items.isActiveFolder at hnone
      rw [hitem] at hnone
      cases htype : item.type with
      | file => rfl
      | folder =>
          rw [Option.any_some, hactive, htype] at hnone
          exact absurd hnone (by decide)

theorem exact_initial (hinitial : machine.initial view) : view.Exact := by
  obtain ⟨hnone, hcount, htotal, hunknown⟩ := hinitial
  have hchildren : view.allChildren = [] := by
    unfold allChildren
    rw [hnone]
    rfl
  constructor
  · rw [hnone]
    exact ⟨List.nodup_nil, List.nodup_nil,
      fun _ hentry => absurd hentry List.not_mem_nil⟩
  · rw [hchildren, hcount]
    rfl
  · rw [hchildren, htotal]
    rfl
  · rw [hchildren, hunknown]
    rfl

/-- The totals of every run in which no folder is active when all items are
removed, and only files are given a size.  A sum that fits is exact. -/
theorem totals_of_every_run {requests : List Request} {answers : List Unit}
    (hreach : machine.ReachesWithin Allowed requests answers view) :
    (view.items.weigh (FileItem.ofFile FileItem.knownSize) view.allChildren <
        2 ^ 63 →
      view.totalQueueSize =
        view.items.weigh (FileItem.ofFile FileItem.knownSize)
          view.allChildren) ∧
      view.filesWithUnknownSize =
        view.allChildren.countP view.items.isUnknownFile ∧
      (view.serverList = [] →
        view.totalQueueSize = 0 ∧ view.filesWithUnknownSize = 0) := by
  have hexact : view.Exact := hreach.stateInvariant Exact
    (fun _ hinitial => exact_initial hinitial)
    fun _ _ _ _ hinv hallowed hstep => step_exact hinv hallowed hstep
  refine ⟨?_, ?_, ?_⟩
  · intro hfits
    have hnonneg : 0 ≤ view.items.weigh
        (FileItem.ofFile FileItem.knownSize) view.allChildren := by
      apply Items.weigh_nonneg
      intro item
      unfold FileItem.ofFile FileItem.knownSize
      split
      · split <;> omega
      · omega
    rw [hexact.total]
    exact int64_of_lt hnonneg hfits
  · rw [hexact.unknown, Items.weigh_unknownSize]
  · intro hnone
    have hchildren : view.allChildren = [] := by
      unfold allChildren
      rw [hnone]
      rfl
    rw [hexact.total, hexact.unknown, hchildren]
    exact ⟨rfl, rfl⟩

def emptyView : QueueView := ⟨[], fun _ => none, 0, 0, 0⟩

/-- The active item of two stays until it is removed on its own. -/
def removeAllDuring (type : FileItemType) : List Request :=
  [.createServerItem 1,
    .construct 3 ((ItemQueue.newItem type 0x10).setSize (-1)),
    .insertItem 1 3, .construct 4 (ItemQueue.newItem .file 0),
    .insertItem 1 4, .setActive 1 3 true 8, .removeAll]

/-- The queue is cleared while one file is active. -/
theorem totals_of_every_run_file : ∃ view,
    machine.ReachesWithin Allowed (removeAllDuring .file) [] view ∧
      view.totalQueueSize = 0 ∧ view.filesWithUnknownSize = 1 ∧
      view.allChildren = [3] := by
  have hstart : machine.ReachesWithin Allowed [] [] emptyView :=
    .start ⟨rfl, rfl, rfl, rfl⟩
  have hreach : machine.ReachesWithin Allowed (removeAllDuring .file) [] _ :=
    hstart.exec rfl
  obtain ⟨htotal, hunknown, _⟩ := totals_of_every_run hreach
  exact ⟨_, hreach, htotal (by decide), hunknown, rfl⟩

/-- The folder is removed after it has been created, and the queue is empty
but has a file of unknown size. -/
theorem unknown_of_empty : ∃ view,
    machine.Reaches (removeAllDuring .folder ++
        [.setActive 1 3 false 8, .removeItem 1 3 true true]) [] view ∧
      view.serverList = [] ∧ view.filesWithUnknownSize = 1 := by
  have hstart : machine.Reaches [] [] emptyView := .start ⟨rfl, rfl, rfl, rfl⟩
  have hreach : machine.Reaches (removeAllDuring .folder ++
      [.setActive 1 3 false 8, .removeItem 1 3 true true]) [] _ :=
    hstart.exec rfl
  exact ⟨_, hreach, rfl, rfl⟩

end QueueView

end TabFtp
