import TabFtp.QueueRows

/-!
# The lists of the scheduler

A server item has a list for each priority of the queued and of the immediate
items.  Each child is once in the list that its flag and its priority select,
and the next file to transfer is looked for in these lists only.
-/

namespace TabFtp

namespace ServerItem

variable {server : ServerItem} {items : Items} {id other : ItemId}
  {key : Bool × QueuePriority}

def Mirrors (server : ServerItem) (items : Items) (members : List ItemId) :
    Prop :=
  ∀ key id, (server.fileList key).count id =
    if id ∈ members ∧ items.listOf id = some key then 1 else 0

theorem Mirrors.congr {members changed : List ItemId} {written : Items}
    (hmirrors : server.Mirrors items members)
    (hmembers : ∀ id key, written.listOf id = some key →
      (id ∈ changed ↔ id ∈ members))
    (hlists : ∀ id, id ∈ members → written.listOf id = items.listOf id)
    (hmissing : ∀ id, id ∈ members → id ∉ changed → items.listOf id = none) :
    server.Mirrors written changed := by
  intro key id
  rw [hmirrors key id]
  by_cases hmem : id ∈ members
  · have hlist := hlists id hmem
    by_cases hkey : items.listOf id = some key
    · have hchanged : id ∈ changed := by
        by_contra hnot
        rw [hmissing id hmem hnot] at hkey
        exact absurd hkey.symm (Option.some_ne_none _)
      rw [if_pos ⟨hmem, hkey⟩, if_pos ⟨hchanged, hlist.trans hkey⟩]
    · rw [if_neg (fun h => hkey h.2),
        if_neg (fun h => hkey (hlist.symm.trans h.2))]
  · rw [if_neg (fun h => hmem h.1),
      if_neg (fun h => hmem ((hmembers id key h.2).mp h.1))]

theorem Mirrors.of_listOf {members : List ItemId} {written : Items}
    (hmirrors : server.Mirrors items members)
    (hlists : ∀ id ∈ members, written.listOf id = items.listOf id) :
    server.Mirrors written members :=
  hmirrors.congr (fun _ _ _ => Iff.rfl) hlists
    fun _ hmem hnot => absurd hmem hnot

/-! ## Single lists -/

theorem count_one (id other : ItemId) :
    (if (id == other) = true then 1 else 0) = if other = id then 1 else 0 := by
  by_cases hother : other = id
  · subst hother
    rw [if_pos (beq_self_eq_true other), if_pos rfl]
  · rw [if_neg (fun h => hother (beq_iff_eq.mp h).symm), if_neg hother]

theorem fileList_setList (server : ServerItem) (key other : Bool × QueuePriority)
    (list : List ItemId) :
    (server.setList key list).fileList other =
      if other = key then list else server.fileList other := by
  unfold setList
  simp only [Function.update_apply]

theorem count_eraseIdx (id : ItemId) {list : List ItemId} {index : ℕ}
    (hindex : index < list.length) (hget : list[index] = other) :
    (list.eraseIdx index).count id + (if id = other then 1 else 0) =
      list.count id := by
  have hperm := (List.getElem_cons_eraseIdx_perm hindex).count_eq id
  rw [List.count_cons, hget, count_one] at hperm
  exact hperm

theorem count_eraseFrom (id : ItemId) (forward : Bool) (list : List ItemId)
    (hmem : other ∈ list) :
    (eraseFrom forward other list).count id +
      (if id = other then 1 else 0) = list.count id := by
  obtain ⟨index, hfind⟩ :=
    Option.isSome_iff_exists.mp (OffsetVector.findIndex_isSome forward hmem)
  obtain ⟨hindex, hget⟩ := OffsetVector.findIndex_bound hfind
  unfold eraseFrom
  rw [hfind]
  exact count_eraseIdx id hindex hget

theorem count_addFileItemToList (server : ServerItem) (items : Items)
    (id other : ItemId) (key : Bool × QueuePriority) :
    ((server.addFileItemToList items id).fileList key).count other =
      (server.fileList key).count other +
        if other = id ∧ items.listOf id = some key then 1 else 0 := by
  unfold addFileItemToList
  split
  · rename_i hnone
    rw [if_neg (fun h => absurd (h.2.symm.trans hnone)
      (Option.some_ne_none _)), Nat.add_zero]
  · rename_i own hown
    rw [fileList_setList]
    by_cases hkey : key = own
    · subst hkey
      rw [if_pos rfl, List.count_append, List.count_singleton, count_one]
      simp only [hown, and_true]
    · rw [if_neg hkey, if_neg, Nat.add_zero]
      rintro ⟨_, hlist⟩
      rw [hown] at hlist
      exact hkey (Option.some.inj hlist).symm

theorem mem_fileList_iff {members : List ItemId}
    (hmirrors : server.Mirrors items members) :
    id ∈ server.fileList key ↔
      id ∈ members ∧ items.listOf id = some key := by
  rw [← List.count_pos_iff, hmirrors key id]
  by_cases hboth : id ∈ members ∧ items.listOf id = some key
  · rw [if_pos hboth]
    exact ⟨fun _ => hboth, fun _ => Nat.one_pos⟩
  · rw [if_neg hboth]
    exact ⟨fun h => absurd h (Nat.lt_irrefl 0), fun h => absurd h hboth⟩

theorem Mirrors.addFileItemToList {members : List ItemId}
    (hmirrors : server.Mirrors items members) (hnew : id ∉ members) :
    (server.addFileItemToList items id).Mirrors items (members ++ [id]) := by
  intro key other
  rw [count_addFileItemToList, hmirrors key other]
  by_cases hother : other = id
  · subst hother
    rw [if_neg (fun h => hnew h.1), Nat.zero_add]
    simp
  · have hmem : other ∈ members ++ [id] ↔ other ∈ members := by
      rw [List.mem_append, List.mem_singleton]
      exact ⟨fun h => h.resolve_right hother, Or.inl⟩
    have hadded : (if other = id ∧ items.listOf id = some key then 1 else 0) =
        0 := if_neg fun h => hother h.1
    rw [hadded, Nat.add_zero]
    simp only [hmem]

theorem Mirrors.removeFileItemFromList {members rest : List ItemId}
    (hmirrors : server.Mirrors items members) (hmem : id ∈ members)
    (hrest : ∀ other, other ∈ rest ↔ other ≠ id ∧ other ∈ members)
    (forward : Bool) :
    (server.removeFileItemFromList items id forward).Mirrors items rest := by
  unfold ServerItem.removeFileItemFromList
  split
  · rename_i hnone
    apply hmirrors.congr
    · intro other key hkey
      rw [hrest]
      refine ⟨fun h => h.2, fun h => ⟨?_, h⟩⟩
      intro heq
      rw [heq, hnone] at hkey
      exact absurd hkey.symm (Option.some_ne_none _)
    · exact fun _ _ => rfl
    · intro other hother hnot
      by_cases heq : other = id
      · rw [heq, hnone]
      · exact absurd ((hrest other).mpr ⟨heq, hother⟩) hnot
  · rename_i own hown
    have hlisted : id ∈ server.fileList own :=
      (mem_fileList_iff hmirrors).mpr ⟨hmem, hown⟩
    intro key other
    rw [fileList_setList]
    by_cases hother : other = id
    · have hnot : other ∉ rest := fun h => ((hrest other).mp h).1 hother
      have hnone : (if other ∈ rest ∧ items.listOf other = some key then 1
          else 0) = 0 := if_neg fun h => hnot h.1
      rw [hnone]
      subst hother
      by_cases hkey : key = own
      · have hcount := count_eraseFrom other forward _ hlisted
        have honce := hmirrors own other
        rw [if_pos ⟨hmem, hown⟩] at honce
        rw [if_pos rfl] at hcount
        rw [if_pos hkey]
        omega
      · rw [if_neg hkey, hmirrors key other, if_neg]
        rintro ⟨_, hlist⟩
        rw [hown] at hlist
        exact hkey (Option.some.inj hlist).symm
    · have hiff : other ∈ rest ↔ other ∈ members := by
        rw [hrest]
        exact ⟨fun h => h.2, fun h => ⟨hother, h⟩⟩
      simp only [hiff]
      rw [← hmirrors key other]
      by_cases hkey : key = own
      · have hcount := count_eraseFrom other forward _ hlisted
        rw [if_neg hother, Nat.add_zero] at hcount
        rw [if_pos hkey, hkey, hcount]
      · rw [if_neg hkey]

theorem count_moved (source target : Bool × QueuePriority) {index : ℕ}
    (hindex : index < (server.fileList source).length)
    (hget : (server.fileList source)[index] = id)
    {list : List ItemId} (hlist : ∀ other, list.count other =
      ((server.setList source
        ((server.fileList source).eraseIdx index)).fileList target).count
          other + if other = id then 1 else 0)
    (key : Bool × QueuePriority) (other : ItemId) :
    ((((server.setList source
      ((server.fileList source).eraseIdx index)).setList target
        list).fileList key).count other +
        if other = id ∧ key = source then 1 else 0) =
      (server.fileList key).count other +
        if other = id ∧ key = target then 1 else 0 := by
  have herased : ∀ list, (((server.setList source
      ((server.fileList source).eraseIdx index)).fileList list).count other +
        if other = id ∧ list = source then 1 else 0) =
      (server.fileList list).count other := by
    intro list
    rw [fileList_setList]
    by_cases hsource : list = source
    · subst hsource
      rw [if_pos rfl, ← count_eraseIdx other hindex hget]
      simp
    · rw [if_neg hsource, if_neg fun h => hsource h.2, Nat.add_zero]
  rw [fileList_setList]
  by_cases htarget : key = target
  · subst htarget
    rw [if_pos rfl, hlist]
    have hkey := herased key
    simp only [and_true]
    omega
  · rw [if_neg htarget, herased, if_neg fun h => htarget h.2, Nat.add_zero]

theorem Mirrors.move {members : List ItemId} {moved : ServerItem}
    {written : Items} {source target : Bool × QueuePriority}
    (hmirrors : server.Mirrors items members) (hmem : id ∈ members)
    (hsource : items.listOf id = some source)
    (htarget : written.listOf id = some target)
    (hothers : ∀ other, other ≠ id →
      written.listOf other = items.listOf other)
    (hcount : ∀ key other, ((moved.fileList key).count other +
        if other = id ∧ key = source then 1 else 0) =
      (server.fileList key).count other +
        if other = id ∧ key = target then 1 else 0) :
    moved.Mirrors written members := by
  intro key other
  have hkey := hcount key other
  rw [hmirrors key other] at hkey
  by_cases hother : other = id
  · subst hother
    rw [hsource] at hkey
    rw [htarget]
    simp only [hmem, true_and, Option.some.injEq, eq_comm] at hkey ⊢
    omega
  · have hnone : ∀ list : Bool × QueuePriority,
        (if other = id ∧ key = list then 1 else 0) = 0 :=
      fun list => if_neg fun h => hother h.1
    rw [hnone, hnone, Nat.add_zero, Nat.add_zero] at hkey
    rw [hkey, hothers other hother]

end ServerItem

namespace Items

variable {items : Items} {id : ItemId} {item changed : FileItem}

theorem listOf_write_of_ne {other : ItemId} (hne : other ≠ id) :
    (items.write id item).listOf other = items.listOf other := by
  unfold listOf
  rw [write_of_ne hne]

theorem listOf_delete_of_ne {other : ItemId} (hne : other ≠ id) :
    (items.delete id).listOf other = items.listOf other := by
  unfold listOf
  rw [delete_of_ne hne]

theorem listOf_write_self :
    (items.write id item).listOf id = some (item.queued, item.priority) := by
  unfold listOf
  rw [write_self]
  rfl

theorem listOf_of_some (hitem : items id = some item) :
    items.listOf id = some (item.queued, item.priority) := by
  unfold listOf
  rw [hitem]
  rfl

theorem listOf_write_of_same (hitem : items id = some item)
    (hqueued : changed.queued = item.queued)
    (hpriority : changed.priority = item.priority) (other : ItemId) :
    (items.write id changed).listOf other = items.listOf other := by
  by_cases hother : other = id
  · rw [hother, listOf_write_self, listOf_of_some hitem, hqueued, hpriority]
  · exact listOf_write_of_ne hother

end Items

namespace FileItem

@[simp] theorem queued_assign_active (item : FileItem) (on : Bool) :
    (item.assign TransferFlags.active on).queued = item.queued :=
  TransferFlags.has_assign_of_disjoint (by decide) (by decide) _ _

@[simp] theorem queued_setPendingRemove (item : FileItem) (on : Bool) :
    (item.setPendingRemove on).queued = item.queued :=
  TransferFlags.has_assign_of_disjoint (by decide) (by decide) _ _

@[simp] theorem queued_setQueued (item : FileItem) (on : Bool) :
    (item.setQueued on).queued = on :=
  TransferFlags.has_assign_self (by decide) (by decide) _ _

end FileItem

namespace ItemQueue

variable {queue : ItemQueue} {id : ItemId} {item : FileItem}

def Mirrored (queue : ItemQueue) : Prop :=
  queue.server.Mirrors queue.items queue.live

theorem findIdx_isSome {list : List ItemId} (hmem : id ∈ list) :
    ∃ index, (list.findIdx? fun other => decide (other = id)) = some index :=
  Option.isSome_iff_exists.mp (OffsetVector.findIndex_isSome true hmem)

theorem findIdx_bound {list : List ItemId} {index : ℕ}
    (hfind : (list.findIdx? fun other => decide (other = id)) = some index) :
    ∃ h : index < list.length, list[index] = id :=
  @OffsetVector.findIndex_bound _ _ id true list index hfind

/-! ## One item -/

theorem Mirrored.setItemPriority (hmirrored : queue.Mirrored) (id : ItemId)
    (priority : QueuePriority) :
    (queue.setItemPriority id priority).Mirrored := by
  unfold Mirrored
  rw [(queue.quiet_setItemPriority id priority).live]
  unfold ItemQueue.setItemPriority
  cases hitem : queue.items id with
  | none => exact hmirrored
  | some item =>
      simp only
      split
      · exact hmirrored
      · have hothers : ∀ other, other ≠ id →
            (queue.items.write id { item with priority := priority }).listOf
              other = queue.items.listOf other :=
          fun other hne => Items.listOf_write_of_ne hne
        unfold setChildPriority
        simp only
        split
        · rename_i hfind
          apply ServerItem.Mirrors.of_listOf hmirrored
          intro other hother
          apply hothers
          rintro rfl
          have hlisted :
              other ∈ queue.server.fileList (item.queued, item.priority) :=
            (ServerItem.mem_fileList_iff hmirrored).mpr
              ⟨hother, Items.listOf_of_some hitem⟩
          obtain ⟨index, hindex⟩ := findIdx_isSome hlisted
          rw [hfind] at hindex
          exact absurd hindex.symm (Option.some_ne_none _)
        · rename_i index hfind
          obtain ⟨hindex, hget⟩ := findIdx_bound hfind
          have hmem : id ∈ queue.live :=
            ((ServerItem.mem_fileList_iff hmirrored).mp
              (hget ▸ List.getElem_mem hindex)).1
          apply ServerItem.Mirrors.move hmirrored hmem
            (Items.listOf_of_some hitem) Items.listOf_write_self hothers
          intro key other
          apply ServerItem.count_moved _ _ hindex hget
          intro another
          rw [List.count_append, List.count_singleton, ServerItem.count_one]

theorem Mirrored.queueImmediateFile (hmirrored : queue.Mirrored)
    (id : ItemId) : (queue.queueImmediateFile id).Mirrored := by
  unfold Mirrored
  rw [(queue.quiet_queueImmediateFile id).live]
  unfold ItemQueue.queueImmediateFile
  cases hitem : queue.items id with
  | none => exact hmirrored
  | some item =>
      simp only
      split
      · exact hmirrored
      · rename_i hqueued
        split
        · exact hmirrored
        · rename_i index hfind
          obtain ⟨hindex, hget⟩ := findIdx_bound hfind
          have hmem : id ∈ queue.live :=
            ((ServerItem.mem_fileList_iff hmirrored).mp
              (hget ▸ List.getElem_mem hindex)).1
          have hsource : queue.items.listOf id =
              some (false, item.priority) := by
            rw [Items.listOf_of_some hitem]
            simp [hqueued]
          have htarget : (queue.items.write id (item.setQueued true)).listOf
              id = some (true, item.priority) := by
            rw [Items.listOf_write_self, FileItem.queued_setQueued]
            rfl
          apply ServerItem.Mirrors.move hmirrored hmem hsource htarget
            fun other hne => Items.listOf_write_of_ne hne
          intro key other
          apply ServerItem.count_moved _ _ hindex hget
          intro another
          rw [List.count_cons, ServerItem.count_one]

theorem Mirrored.setActive (hmirrored : queue.Mirrored) (id : ItemId)
    (active : Bool) (statusItem : ℕ) :
    (queue.setActive id active statusItem).Mirrored := by
  unfold Mirrored
  rw [live_setActive]
  unfold ItemQueue.setActive
  cases hitem : queue.items id with
  | none => exact hmirrored
  | some item =>
      have hlists : ∀ children : OffsetVector.Vector ℕ, ∀ other ∈ queue.live,
          (queue.items.write id
            { item.assign TransferFlags.active active with
              children := children }).listOf other =
            queue.items.listOf other := by
        intro children other _
        apply Items.listOf_write_of_same hitem
        · exact item.queued_assign_active active
        · rfl
      simp only
      split
      · exact ServerItem.Mirrors.of_listOf hmirrored (hlists item.children)
      · split
        · exact hmirrored
        · split
          · exact ServerItem.Mirrors.of_listOf hmirrored (hlists _)
          · split
            · exact ServerItem.Mirrors.of_listOf hmirrored (hlists _)
            · exact ServerItem.Mirrors.of_listOf hmirrored
                (hlists item.children)

/-! ## The children -/

theorem Mirrored.addChild (hmirrored : queue.Mirrored)
    (hnew : id ∉ queue.live) : (queue.addChild id).Mirrored := by
  unfold Mirrored
  rw [live_addChild]
  exact ServerItem.Mirrors.addFileItemToList hmirrored hnew

theorem Mirrored.removeChild (hmirrored : queue.Mirrored)
    (hnodup : queue.live.Nodup) (hmem : id ∈ queue.live)
    (destroy forward : Bool) :
    (queue.removeChild id destroy forward).Mirrored := by
  obtain ⟨children, hlive, heq⟩ :=
    removeChild_eq hnodup hmem destroy forward
  have hrest : ∀ other, other ∈ queue.live.erase id ↔
      other ≠ id ∧ other ∈ queue.live := fun other => hnodup.mem_erase_iff
  have hremoved := ServerItem.Mirrors.removeFileItemFromList hmirrored hmem
    hrest forward
  unfold Mirrored
  rw [heq]
  unfold live
  simp only
  rw [hlive]
  apply ServerItem.Mirrors.of_listOf hremoved
  intro other hother
  split
  · exact Items.listOf_delete_of_ne ((hrest other).mp hother).1
  · rfl

theorem count_rebuildLists (items : Items) (ids : List ItemId)
    (server : ServerItem) (key : Bool × QueuePriority) (id : ItemId) :
    ((rebuildLists items ids server).fileList key).count id =
      (server.fileList key).count id +
        if items.listOf id = some key then ids.count id else 0 := by
  induction ids generalizing server with
  | nil => simp [rebuildLists]
  | cons first rest ih =>
      unfold rebuildLists
      rw [ih, ServerItem.count_addFileItemToList, List.count_cons,
        ServerItem.count_one]
      by_cases hid : id = first
      · subst hid
        by_cases hkey : items.listOf id = some key
        · simp only [hkey, and_self, if_true]
          omega
        · simp only [hkey, and_false, if_false]
      · simp only [hid, false_and, if_false, Nat.add_zero]

theorem Mirrored.sort (hmirrored : queue.Mirrored)
    (hnodup : queue.live.Nodup) (collation : Collation) (col : ℤ)
    (reverse : Bool) : (queue.sort collation col reverse).Mirrored := by
  unfold ItemQueue.sort
  split
  · exact hmirrored
  · rename_i cmp _
    have hperm := List.mergeSort_perm queue.live fun l r =>
      !itemLess queue.items cmp reverse r l
    intro key id
    unfold live at hperm hnodup ⊢
    simp only
    rw [(sameTree_rebuildLists _ _ _).children, count_rebuildLists]
    simp only [List.count_nil, Nat.zero_add]
    rw [OffsetVector.live_replaceLive, hperm.count_eq, hnodup.count]
    by_cases hkey : queue.items.listOf id = some key
    · simp only [hkey, if_true, and_true, hperm.mem_iff]
    · simp only [hkey, if_false, and_false]

theorem mirrors_tryRemoveChildren (ids : List ItemId) (queue : ItemQueue)
    (keepChildren : List ItemId) (hnodup : (keepChildren ++ ids).Nodup)
    (hmirrors : queue.server.Mirrors queue.items (keepChildren ++ ids)) :
    let removed := tryRemoveChildren ids queue keepChildren
    removed.1.server.Mirrors removed.1.items removed.2 := by
  induction ids generalizing queue keepChildren with
  | nil =>
      rw [List.append_nil] at hmirrors
      exact hmirrors
  | cons id rest ih =>
      have hmem : id ∈ keepChildren ++ id :: rest := by simp
      have hrest : ∀ other, other ∈ keepChildren ++ rest ↔
          other ≠ id ∧ other ∈ keepChildren ++ id :: rest := by
        intro other
        have herase := hnodup.mem_erase_iff (a := other) (b := id)
        have hnot : id ∉ keepChildren := by
          intro hid
          exact (List.nodup_append.mp hnodup).2.2 id hid id
            List.mem_cons_self rfl
        rw [List.erase_append_right _ hnot, List.erase_cons_head] at herase
        exact herase
      have hnodup' : (keepChildren ++ rest).Nodup :=
        hnodup.sublist (List.Sublist.append_left
          (List.sublist_cons_self id rest) keepChildren)
      intro removed
      unfold removed tryRemoveChildren
      cases hitem : queue.items id with
      | none =>
          have hnone : queue.items.listOf id = none := by
            unfold Items.listOf
            rw [hitem]
            rfl
          apply ih queue keepChildren hnodup'
          apply hmirrors.congr
          · intro other key hkey
            rw [hrest]
            refine ⟨fun h => h.2, fun h => ⟨?_, h⟩⟩
            rintro rfl
            rw [hnone] at hkey
            exact absurd hkey.symm (Option.some_ne_none _)
          · exact fun _ _ => rfl
          · intro other hother hgone
            by_cases heq : other = id
            · rw [heq, hnone]
            · exact absurd ((hrest other).mpr ⟨heq, hother⟩) hgone
      | some item =>
          simp only
          split
          · have happend : keepChildren ++ [id] ++ rest =
                keepChildren ++ id :: rest := by simp
            apply ih
            · rw [happend]
              exact hnodup
            · rw [happend]
              apply hmirrors.of_listOf
              intro other _
              exact Items.listOf_write_of_same hitem
                (item.queued_setPendingRemove true) rfl other
          · apply ih _ _ hnodup'
            have hremoved :=
              hmirrors.removeFileItemFromList hmem hrest true
            apply hremoved.of_listOf
            intro other hother
            exact Items.listOf_delete_of_ne ((hrest other).mp hother).1

theorem Mirrored.tryRemoveAll (hmirrored : queue.Mirrored)
    (hnodup : queue.live.Nodup) : queue.tryRemoveAll.Mirrored :=
  mirrors_tryRemoveChildren queue.live
    { queue with server := { queue.server with visibleOffspring := 0 } } []
    hnodup hmirrored

end ItemQueue

/-! ## The priority of all children -/

instance : Fintype QueuePriority where
  elems := ⟨QueuePriority.ascending, by decide⟩
  complete := by
    intro priority
    cases priority <;> decide

namespace ServerItem

/-- How often an item is in the lists of one flag. -/
def total (server : ServerItem) (queued : Bool) (id : ItemId) : ℕ :=
  ∑ priority, (server.fileList (queued, priority)).count id

theorem total_setList (server : ServerItem) (queued : Bool)
    (priority : QueuePriority) (list : List ItemId) (id : ItemId) :
    (server.setList (queued, priority) list).total queued id +
        (server.fileList (queued, priority)).count id =
      server.total queued id + list.count id := by
  have hothers : ∀ other ∈ Finset.univ.erase priority,
      (((server.setList (queued, priority) list).fileList
        (queued, other)).count id) =
        (server.fileList (queued, other)).count id := by
    intro other hother
    rw [fileList_setList, if_neg]
    intro heq
    exact (Finset.mem_erase.mp hother).1 (Prod.mk.inj heq).2
  have hself : ((server.setList (queued, priority) list).fileList
      (queued, priority)) = list := by
    rw [fileList_setList, if_pos rfl]
  unfold total
  rw [← Finset.add_sum_erase _ _ (Finset.mem_univ priority),
    Finset.sum_congr rfl hothers, hself,
    ← Finset.add_sum_erase Finset.univ
      (fun other => (server.fileList (queued, other)).count id)
      (Finset.mem_univ priority)]
  omega

theorem total_setList_of_ne (server : ServerItem) {queued other : Bool}
    (hne : other ≠ queued) (priority : QueuePriority) (list : List ItemId)
    (id : ItemId) :
    (server.setList (queued, priority) list).total other id =
      server.total other id := by
  unfold total
  apply Finset.sum_congr rfl
  intro each _
  rw [fileList_setList, if_neg]
  intro heq
  exact hne (Prod.mk.inj heq).1

def MirrorsFlags (server : ServerItem) (items : Items)
    (members : List ItemId) : Prop :=
  ∀ queued id, server.total queued id =
    if id ∈ members ∧ (items id).map FileItem.queued = some queued then 1
    else 0

theorem Mirrors.flags {server : ServerItem} {items : Items}
    {members : List ItemId} (hmirrors : server.Mirrors items members) :
    server.MirrorsFlags items members := by
  intro queued id
  unfold total
  simp only [hmirrors _ id]
  unfold Items.listOf
  cases hitem : items id with
  | none => simp
  | some item =>
      by_cases hmem : id ∈ members
      · by_cases hqueued : item.queued = queued
        · simp [hmem, hqueued]
        · simp [hmem, hqueued]
      · simp [hmem]

theorem MirrorsFlags.mirrors {server : ServerItem} {items : Items}
    {members : List ItemId} (hflags : server.MirrorsFlags items members)
    (priority : QueuePriority)
    (hempty : ∀ queued other, other ≠ priority →
      server.fileList (queued, other) = [])
    (hpriority : ∀ id ∈ members, ∀ item, items id = some item →
      item.priority = priority) : server.Mirrors items members := by
  rintro ⟨queued, other⟩ id
  have htotal : server.total queued id =
      (server.fileList (queued, priority)).count id := by
    unfold total
    apply Finset.sum_eq_single priority
    · intro each _ hne
      rw [hempty queued each hne, List.count_nil]
    · exact fun h => absurd (Finset.mem_univ priority) h
  have hlist : id ∈ members → items.listOf id =
      (items id).map fun item => (item.queued, priority) := by
    intro hmem
    unfold Items.listOf
    cases hitem : items id with
    | none => rfl
    | some item =>
        rw [Option.map_some, Option.map_some, hpriority id hmem item hitem]
  by_cases hother : other = priority
  · subst hother
    rw [← htotal, hflags queued id]
    by_cases hmem : id ∈ members
    · rw [hlist hmem]
      cases items id with
      | none => simp
      | some item => simp
    · simp [hmem]
  · rw [hempty queued other hother, List.count_nil, if_neg]
    rintro ⟨hmem, hkey⟩
    rw [hlist hmem] at hkey
    obtain ⟨item, _, heq⟩ := Option.map_eq_some_iff.mp hkey
    exact hother (Prod.mk.inj heq).2.symm

end ServerItem

namespace ItemQueue

variable {queue : ItemQueue} {id : ItemId}

theorem total_setChildPriority (queue : ItemQueue) (id : ItemId)
    (queued : Bool) (oldPriority newPriority : QueuePriority)
    (flag : Bool) (other : ItemId) :
    (queue.setChildPriority id queued oldPriority newPriority).total flag
      other = queue.server.total flag other := by
  unfold setChildPriority
  simp only
  split
  · rfl
  · rename_i index hfind
    obtain ⟨hindex, hget⟩ := findIdx_bound hfind
    by_cases hflag : flag = queued
    · subst hflag
      have herase := queue.server.total_setList flag oldPriority
        ((queue.server.fileList (flag, oldPriority)).eraseIdx index) other
      have hcount := ServerItem.count_eraseIdx other hindex hget
      have happend := (queue.server.setList (flag, oldPriority)
        ((queue.server.fileList (flag, oldPriority)).eraseIdx
          index)).total_setList flag newPriority
        ((queue.server.setList (flag, oldPriority)
          ((queue.server.fileList (flag, oldPriority)).eraseIdx
            index)).fileList (flag, newPriority) ++ [id]) other
      rw [List.count_append, List.count_singleton,
        ServerItem.count_one] at happend
      omega
    · rw [ServerItem.total_setList_of_ne _ hflag,
        ServerItem.total_setList_of_ne _ hflag]

theorem setPriorities_spec (priority : QueuePriority) (ids : List ItemId)
    (queue : ItemQueue) :
    (∀ flag id, (setPriorities priority ids queue).server.total flag id =
        queue.server.total flag id) ∧
      ∀ id, (setPriorities priority ids queue).items id =
        (queue.items id).map fun item =>
          if id ∈ ids then { item with priority := priority } else item := by
  induction ids generalizing queue with
  | nil => simp [setPriorities]
  | cons first rest ih =>
      have hstep : ∀ changed : ItemQueue,
          (∀ flag id, changed.server.total flag id =
            queue.server.total flag id) →
          (∀ id, changed.items id = (queue.items id).map fun item =>
            if id = first then { item with priority := priority }
            else item) →
          (∀ flag id, (setPriorities priority rest changed).server.total flag
            id = queue.server.total flag id) ∧
          ∀ id, (setPriorities priority rest changed).items id =
            (queue.items id).map fun item =>
              if id ∈ first :: rest then { item with priority := priority }
              else item := by
        intro changed htotal hitems
        obtain ⟨htotal', hitems'⟩ := ih changed
        constructor
        · intro flag id
          rw [htotal', htotal]
        · intro id
          rw [hitems', hitems, Option.map_map]
          congr 1
          funext item
          by_cases hfirst : id = first
          · simp [hfirst]
          · simp [hfirst]
      have hwrite : ∀ item, queue.items first = some item →
          ∀ id, queue.items.write first { item with priority := priority } id =
            (queue.items id).map fun item =>
              if id = first then { item with priority := priority }
              else item := by
        intro item hitem id
        by_cases hid : id = first
        · rw [hid, Items.write_self, hitem]
          simp
        · rw [Items.write_of_ne hid]
          simp [hid]
      unfold setPriorities
      cases hitem : queue.items first with
      | none =>
          apply hstep queue (fun _ _ => rfl)
          intro id
          by_cases hid : id = first
          · rw [hid, hitem]
            rfl
          · simp [hid]
      | some item =>
          simp only
          split
          · exact hstep _ (fun _ _ => rfl) (hwrite item hitem)
          · unfold setItemPriority
            rw [hitem]
            simp only
            split
            · rename_i hsame
              apply hstep queue (fun _ _ => rfl)
              intro id
              by_cases hid : id = first
              · rw [hid, hitem, hsame]
                simp
              · simp [hid]
            · exact hstep _
                (fun flag id => queue.total_setChildPriority _ _ _ _ flag id)
                (hwrite item hitem)

theorem gatherLists_spec (priority : QueuePriority) (queued : Bool)
    {priorities : List QueuePriority} (hnodup : priorities.Nodup)
    (server : ServerItem) :
    let gathered := gatherLists priority queued priorities server
    (∀ flag id, gathered.total flag id = server.total flag id) ∧
      (∀ other ∈ priorities, other ≠ priority →
        gathered.fileList (queued, other) = []) ∧
      ∀ flag other, (flag ≠ queued ∨
        (other ∉ priorities ∧ other ≠ priority)) →
        gathered.fileList (flag, other) = server.fileList (flag, other) := by
  induction priorities generalizing server with
  | nil => exact ⟨fun _ _ => rfl, by simp, fun _ _ _ => rfl⟩
  | cons j rest ih =>
      obtain ⟨hj, hrest⟩ := List.nodup_cons.mp hnodup
      intro gathered
      unfold gathered gatherLists
      split
      · rename_i hsame
        obtain ⟨htotal, hempty, hothers⟩ := ih hrest server
        refine ⟨htotal, ?_, ?_⟩
        · intro other hother hne
          rcases List.mem_cons.mp hother with rfl | hother
          · exact absurd hsame hne
          · exact hempty other hother hne
        · intro flag other hother
          apply hothers
          rcases hother with hflag | ⟨hnot, hne⟩
          · exact Or.inl hflag
          · exact Or.inr ⟨fun h => hnot (List.mem_cons_of_mem _ h), hne⟩
      · rename_i hne
        obtain ⟨htotal, hempty, hothers⟩ := ih hrest
          ((server.setList (queued, priority)
            (server.fileList (queued, priority) ++
              server.fileList (queued, j))).setList (queued, j) [])
        refine ⟨?_, ?_, ?_⟩
        · intro flag id
          rw [htotal]
          by_cases hflag : flag = queued
          · subst hflag
            have happend := server.total_setList flag priority
              (server.fileList (flag, priority) ++ server.fileList (flag, j)) id
            have hclear := (server.setList (flag, priority)
              (server.fileList (flag, priority) ++
                server.fileList (flag, j))).total_setList flag j [] id
            have hkept : ((server.setList (flag, priority)
                (server.fileList (flag, priority) ++
                  server.fileList (flag, j))).fileList (flag, j)) =
                server.fileList (flag, j) := by
              rw [ServerItem.fileList_setList, if_neg]
              intro heq
              exact hne (Prod.mk.inj heq).2
            rw [hkept, List.count_nil] at hclear
            rw [List.count_append] at happend
            omega
          · rw [ServerItem.total_setList_of_ne _ hflag,
              ServerItem.total_setList_of_ne _ hflag]
        · intro other hother hne'
          rcases List.mem_cons.mp hother with rfl | hother
          · rw [hothers queued other (Or.inr ⟨hj, hne'⟩),
              ServerItem.fileList_setList, if_pos rfl]
          · exact hempty other hother hne'
        · intro flag other hother
          have hrest' : flag ≠ queued ∨ other ∉ rest ∧ other ≠ priority := by
            rcases hother with hflag | ⟨hnot, hne'⟩
            · exact Or.inl hflag
            · exact Or.inr ⟨fun h => hnot (List.mem_cons_of_mem _ h), hne'⟩
          rw [hothers flag other hrest', ServerItem.fileList_setList, if_neg,
            ServerItem.fileList_setList, if_neg]
          · rintro heq
            obtain ⟨hflag, hpriority⟩ := Prod.mk.inj heq
            rcases hother with h | ⟨_, h⟩
            · exact h hflag
            · exact h hpriority
          · rintro heq
            obtain ⟨hflag, hpriority⟩ := Prod.mk.inj heq
            rcases hother with h | ⟨h, _⟩
            · exact h hflag
            · exact h (hpriority ▸ List.mem_cons_self)

theorem Mirrored.setPriority (hmirrored : queue.Mirrored)
    (priority : QueuePriority) : (queue.setPriority priority).Mirrored := by
  have hall : ∀ other, other ∈ QueuePriority.ascending := by
    intro other
    cases other <;> decide
  have hnodup : QueuePriority.ascending.Nodup := by decide
  obtain ⟨htotal, hitems⟩ := setPriorities_spec priority queue.live queue
  obtain ⟨htotal₁, hempty₁, _⟩ := gatherLists_spec priority true hnodup
    (setPriorities priority queue.live queue).server
  obtain ⟨htotal₂, hempty₂, hothers₂⟩ := gatherLists_spec priority false
    hnodup (gatherLists priority true QueuePriority.ascending
      (setPriorities priority queue.live queue).server)
  unfold Mirrored
  rw [(queue.quiet_setPriority priority).live]
  have hflags : (queue.setPriority priority).server.MirrorsFlags
      (queue.setPriority priority).items queue.live := by
    intro flag id
    show (gatherLists priority false QueuePriority.ascending
      (gatherLists priority true QueuePriority.ascending
        (setPriorities priority queue.live queue).server)).total flag id = _
    rw [htotal₂, htotal₁, htotal, ServerItem.Mirrors.flags hmirrored flag id]
    have hflags : ((queue.setPriority priority).items id).map
        FileItem.queued = (queue.items id).map FileItem.queued := by
      have hitem : (queue.setPriority priority).items id = _ := hitems id
      rw [hitem, Option.map_map]
      congr 1
      funext item
      simp only [Function.comp_apply]
      split <;> rfl
    rw [hflags]
  apply hflags.mirrors priority
  · intro flag other hne
    cases flag with
    | false => exact hempty₂ other (hall other) hne
    | true =>
        show (gatherLists priority false QueuePriority.ascending
          (gatherLists priority true QueuePriority.ascending
            (setPriorities priority queue.live queue).server)).fileList
              (true, other) = []
        rw [hothers₂ true other (Or.inl (by decide))]
        exact hempty₁ other (hall other) hne
  · intro id hmem item hitem
    have hwritten : (queue.setPriority priority).items id = _ := hitems id
    simp only [hitem, hmem, if_true] at hwritten
    obtain ⟨old, _, rfl⟩ := Option.map_eq_some_iff.mp hwritten.symm
    rfl

/-! ## Immediate transfers -/

/-- An item that `QueueImmediateFiles` moves. -/
def isInactive (items : Items) (id : ItemId) : Bool :=
  (items id).any fun item => !item.active

theorem queueImmediateList_spec (priority : QueuePriority)
    {ids : List ItemId} (hnodup : ids.Nodup) (queue : ItemQueue)
    (activeList : List ItemId) :
    let result := queueImmediateList priority ids queue activeList
    result.2 = (ids.filter queue.items.isActive).reverse ++ activeList ∧
      (∀ key, result.1.server.fileList key =
        if key = (true, priority) then
          (ids.filter (isInactive queue.items)).reverse ++
            queue.server.fileList key
        else queue.server.fileList key) ∧
      ∀ id, result.1.items id = (queue.items id).map fun item =>
        if id ∈ ids ∧ item.active = false then item.setQueued true
        else item := by
  induction ids generalizing queue activeList with
  | nil => simp [queueImmediateList]
  | cons first rest ih =>
      obtain ⟨hfirst, hrest⟩ := List.nodup_cons.mp hnodup
      intro result
      unfold result queueImmediateList
      cases hitem : queue.items first with
      | none =>
          obtain ⟨hactive, hlists, hitems⟩ := ih hrest queue activeList
          have hneither : queue.items.isActive first = false ∧
              isInactive queue.items first = false := by
            simp [Items.isActive, isInactive, hitem]
          rw [List.filter_cons_of_neg (by simp [hneither.1]),
            List.filter_cons_of_neg (by simp [hneither.2])]
          refine ⟨hactive, hlists, ?_⟩
          intro id
          simp only
          rw [hitems]
          by_cases hid : id = first
          · simp [hid, hitem]
          · simp [hid]
      | some item =>
          simp only
          cases hactive : item.active with
          | true =>
              obtain ⟨hlist, hlists, hitems⟩ :=
                ih hrest queue (first :: activeList)
              have hthis : queue.items.isActive first = true ∧
                  isInactive queue.items first = false := by
                simp [Items.isActive, isInactive, hitem, hactive]
              rw [if_pos rfl, List.filter_cons_of_pos hthis.1,
                List.filter_cons_of_neg (by simp [hthis.2])]
              refine ⟨?_, hlists, ?_⟩
              · rw [hlist]
                simp
              · intro id
                rw [hitems]
                by_cases hid : id = first
                · simp [hid, hitem, hactive]
                · simp [hid]
          | false =>
              have hthis : queue.items.isActive first = false ∧
                  isInactive queue.items first = true := by
                simp [Items.isActive, isInactive, hitem, hactive]
              have hsame : ∀ id ∈ rest, queue.items.write first
                  (item.setQueued true) id = queue.items id := by
                intro id hid
                exact Items.write_of_ne fun heq => hfirst (heq ▸ hid)
              have hinactive : rest.filter (isInactive
                  (queue.items.write first (item.setQueued true))) =
                  rest.filter (isInactive queue.items) := by
                apply List.filter_congr
                intro id hid
                unfold isInactive
                rw [hsame id hid]
              obtain ⟨hlist, hlists, hitems⟩ := ih hrest
                ⟨queue.server.setList (true, priority)
                    (first :: queue.server.fileList (true, priority)),
                  queue.items.write first (item.setQueued true)⟩ activeList
              rw [if_neg Bool.false_ne_true,
                List.filter_cons_of_neg (by simp [hthis.1]),
                List.filter_cons_of_pos hthis.2]
              refine ⟨?_, ?_, ?_⟩
              · rw [hlist, Items.filter_isActive_congr hsame]
              · intro key
                rw [hlists, hinactive]
                simp only [ServerItem.fileList_setList]
                by_cases hkey : key = (true, priority)
                · simp [hkey]
                · simp [hkey]
              · intro id
                rw [hitems]
                simp only
                by_cases hid : id = first
                · simp [hid, hitem, hactive, hfirst, Items.write_self]
                · simp [hid, Items.write_of_ne hid]

theorem mirrored_queueImmediateList (hmirrored : queue.Mirrored)
    (priority : QueuePriority) :
    let result := queueImmediateList priority
      (queue.server.fileList (false, priority)).reverse queue []
    Mirrored
      { result.1 with
        server := result.1.server.setList (false, priority) result.2 } := by
  have hlisted : ∀ id, id ∈ queue.server.fileList (false, priority) ↔
      id ∈ queue.live ∧ queue.items.listOf id = some (false, priority) :=
    fun id => ServerItem.mem_fileList_iff hmirrored
  have hnodup : (queue.server.fileList (false, priority)).Nodup := by
    apply List.nodup_iff_count_le_one.mpr
    intro id
    rw [hmirrored (false, priority) id]
    split
    · exact Nat.le_refl 1
    · exact Nat.zero_le 1
  obtain ⟨hactiveList, hlists, hitems⟩ := queueImmediateList_spec priority
    (List.nodup_reverse.mpr hnodup) queue []
  have hquiet := quiet_queueImmediateList priority
    (queue.server.fileList (false, priority)).reverse queue []
  intro result
  have hlive : ItemQueue.live
      { result.1 with
        server := result.1.server.setList (false, priority) result.2 } =
      queue.live := by
    exact hquiet.live
  unfold Mirrored
  rw [hlive]
  intro key id
  simp only
  rw [ServerItem.fileList_setList]
  have hactive : result.2.count id =
      if queue.items.isActive id = true then
        (queue.server.fileList (false, priority)).count id else 0 := by
    rw [hactiveList, List.append_nil, List.count_reverse]
    split
    · rename_i hthis
      rw [List.count_filter hthis, List.count_reverse]
    · rename_i hthis
      apply List.count_eq_zero.mpr
      intro hmem
      exact hthis (List.mem_filter.mp hmem).2
  have hmoved : (result.1.server.fileList (true, priority)).count id =
      (if isInactive queue.items id = true then
        (queue.server.fileList (false, priority)).count id else 0) +
      (queue.server.fileList (true, priority)).count id := by
    rw [hlists, if_pos rfl, List.count_append, List.count_reverse]
    congr 1
    split
    · rename_i hthis
      rw [List.count_filter hthis, List.count_reverse]
    · rename_i hthis
      apply List.count_eq_zero.mpr
      intro hmem
      exact hthis (List.mem_filter.mp hmem).2
  have hothers : key ≠ (false, priority) → key ≠ (true, priority) →
      (result.1.server.fileList key).count id =
        (queue.server.fileList key).count id := by
    intro _ hne
    rw [hlists, if_neg hne]
  have hwritten : result.1.items id = _ := hitems id
  simp only [List.mem_reverse] at hwritten
  by_cases hmem : id ∈ queue.server.fileList (false, priority)
  · obtain ⟨hchild, hlist⟩ := (hlisted id).mp hmem
    have hsource : (queue.server.fileList (false, priority)).count id = 1 := by
      rw [hmirrored, if_pos ⟨hchild, hlist⟩]
    have htarget : ∀ key, key ≠ (false, priority) →
        (queue.server.fileList key).count id = 0 := by
      intro key hne
      rw [hmirrored, if_neg]
      rintro ⟨_, heq⟩
      rw [hlist] at heq
      exact hne (Option.some.inj heq).symm
    have hback := htarget (true, priority) (by simp)
    obtain ⟨item, hitem, hflags⟩ := Option.map_eq_some_iff.mp hlist
    obtain ⟨hqueued, hpriority⟩ := Prod.mk.inj hflags
    cases hstate : item.active with
    | true =>
        have hkept : result.1.items.listOf id = some (false, priority) := by
          unfold Items.listOf
          rw [hwritten, hitem]
          simp [hstate, hqueued, hpriority]
        have hnow : queue.items.isActive id = true ∧
            isInactive queue.items id = false := by
          simp [Items.isActive, isInactive, hitem, hstate]
        rw [hkept]
        by_cases hfalse : key = (false, priority)
        · rw [if_pos hfalse, hactive, if_pos hnow.1, hsource, hfalse,
            if_pos ⟨hchild, rfl⟩]
        · rw [if_neg hfalse, if_neg fun h => hfalse (Option.some.inj h.2).symm]
          by_cases htrue : key = (true, priority)
          · rw [htrue, hmoved, hnow.2, hback]
            rfl
          · rw [hothers hfalse htrue, htarget key hfalse]
    | false =>
        have hkept : result.1.items.listOf id = some (true, priority) := by
          unfold Items.listOf
          rw [hwritten, hitem]
          simp only [Option.map_some, hmem, hstate, and_self, if_true,
            FileItem.queued_setQueued]
          rw [← hpriority]
          rfl
        have hnow : queue.items.isActive id = false ∧
            isInactive queue.items id = true := by
          simp [Items.isActive, isInactive, hitem, hstate]
        rw [hkept]
        by_cases hfalse : key = (false, priority)
        · rw [if_pos hfalse, hactive, hnow.1, hfalse, if_neg Bool.false_ne_true,
            if_neg (by simp)]
        · rw [if_neg hfalse]
          by_cases htrue : key = (true, priority)
          · rw [htrue, hmoved, if_pos hnow.2, hsource, hback,
              if_pos ⟨hchild, rfl⟩]
          · rw [hothers hfalse htrue, htarget key hfalse,
              if_neg fun h => htrue (Option.some.inj h.2).symm]
  · have hkept : result.1.items.listOf id = queue.items.listOf id := by
      unfold Items.listOf
      rw [hwritten]
      simp [hmem]
    have hsource : (queue.server.fileList (false, priority)).count id = 0 :=
      List.count_eq_zero.mpr hmem
    rw [hkept, ← hmirrored key id]
    by_cases hfalse : key = (false, priority)
    · rw [if_pos hfalse, hactive, hfalse, hsource, ite_self]
    · rw [if_neg hfalse]
      by_cases htrue : key = (true, priority)
      · rw [htrue, hmoved, hsource, ite_self, Nat.zero_add]
      · exact hothers hfalse htrue

theorem Mirrored.queueImmediateFiles (hmirrored : queue.Mirrored) :
    queue.queueImmediateFiles.Mirrored := by
  unfold ItemQueue.queueImmediateFiles
  generalize QueuePriority.ascending = priorities
  induction priorities generalizing queue with
  | nil => exact hmirrored
  | cons priority rest ih =>
      exact ih (mirrored_queueImmediateList hmirrored priority)

/-! ## The next file -/

/-- A child that `GetIdleChild` may return. -/
structure Candidate (queue : ItemQueue) (immediateOnly : Bool)
    (direction : TransferDirection) (id : ItemId) (item : FileItem) :
    Prop where
  child : id ∈ queue.live
  found : queue.items id = some item
  idle : isIdle queue.items direction id = true
  immediate : immediateOnly = true → item.queued = false

theorem doGetIdleChild_some {items : Items}
    {fileList : QueuePriority → List ItemId} {direction : TransferDirection}
    {priorities : List QueuePriority}
    (hfound : doGetIdleChild items fileList direction priorities = some id) :
    ∃ before priority after, priorities = before ++ priority :: after ∧
      id ∈ fileList priority ∧ isIdle items direction id = true ∧
      ∀ other ∈ before, ∀ another ∈ fileList other,
        isIdle items direction another = false := by
  induction priorities with
  | nil => exact absurd hfound.symm (Option.some_ne_none _)
  | cons priority rest ih =>
      unfold doGetIdleChild at hfound
      split at hfound
      · rename_i found hfirst
        cases hfound
        exact ⟨[], priority, rest, rfl, List.mem_of_find?_eq_some hfirst,
          List.find?_some hfirst, by simp⟩
      · rename_i hnone
        obtain ⟨before, own, after, rfl, hmem, hidle, hbefore⟩ := ih hfound
        refine ⟨priority :: before, own, after, rfl, hmem, hidle, ?_⟩
        intro other hother another hanother
        rcases List.mem_cons.mp hother with rfl | hother
        · exact Bool.eq_false_iff.mpr
            (List.find?_eq_none.mp hnone another hanother)
        · exact hbefore other hother another hanother

theorem doGetIdleChild_none {items : Items}
    {fileList : QueuePriority → List ItemId} {direction : TransferDirection}
    {priorities : List QueuePriority}
    (hnone : doGetIdleChild items fileList direction priorities = none) :
    ∀ priority ∈ priorities, ∀ id ∈ fileList priority,
      isIdle items direction id = false := by
  induction priorities with
  | nil => simp
  | cons priority rest ih =>
      unfold doGetIdleChild at hnone
      split at hnone
      · exact absurd hnone (Option.some_ne_none _)
      · rename_i hfirst
        intro other hother id hid
        rcases List.mem_cons.mp hother with rfl | hother
        · exact Bool.eq_false_iff.mpr (List.find?_eq_none.mp hfirst id hid)
        · exact ih hnone other hother id hid

theorem descending_number {before after : List QueuePriority}
    {priority : QueuePriority}
    (heq : QueuePriority.descending = before ++ priority :: after)
    (other : QueuePriority) :
    other ∈ before ∨ other.number ≤ priority.number := by
  have hpairwise : QueuePriority.descending.Pairwise
      fun earlier later => later.number ≤ earlier.number := by decide
  have hmem : other ∈ QueuePriority.descending := by
    cases other <;> decide
  rw [heq] at hpairwise hmem
  rcases List.mem_append.mp hmem with hbefore | hrest
  · exact Or.inl hbefore
  · rcases List.mem_cons.mp hrest with rfl | hafter
    · exact Or.inr (Nat.le_refl _)
    · have htail := (List.pairwise_append.mp hpairwise).2.1
      exact Or.inr ((List.pairwise_cons.mp htail).1 other hafter)

theorem Mirrored.idleOf (hmirrored : queue.Mirrored) (queued : Bool)
    (direction : TransferDirection) :
    match doGetIdleChild queue.items
      (fun priority => queue.server.fileList (queued, priority)) direction
      QueuePriority.descending with
    | some id => ∃ item, queue.Candidate false direction id item ∧
        item.queued = queued ∧
        ∀ other another, queue.Candidate false direction other another →
          another.queued = queued →
          another.priority.number ≤ item.priority.number
    | none => ∀ other another, queue.Candidate false direction other another →
        another.queued ≠ queued := by
  have hlisted : ∀ other another,
      queue.Candidate false direction other another →
      other ∈ queue.server.fileList (another.queued, another.priority) :=
    fun other another hcandidate =>
      (ServerItem.mem_fileList_iff hmirrored).mpr
        ⟨hcandidate.child, Items.listOf_of_some hcandidate.found⟩
  split
  · rename_i id hfound
    obtain ⟨before, priority, after, heq, hmem, hidle, hbefore⟩ :=
      doGetIdleChild_some hfound
    obtain ⟨hchild, hlist⟩ :=
      (ServerItem.mem_fileList_iff hmirrored).mp hmem
    obtain ⟨item, hitem, hflags⟩ := Option.map_eq_some_iff.mp hlist
    obtain ⟨hqueued, hpriority⟩ := Prod.mk.inj hflags
    refine ⟨item, ⟨hchild, hitem, hidle, by simp⟩, hqueued, ?_⟩
    intro other another hcandidate hsame
    have hother := hlisted other another hcandidate
    rw [hsame] at hother
    rcases descending_number heq another.priority with hearlier | hle
    · have hnot := hbefore another.priority hearlier other hother
      rw [hcandidate.idle] at hnot
      exact absurd hnot.symm Bool.false_ne_true
    · rw [hpriority]
      exact hle
  · rename_i hnone
    intro other another hcandidate hsame
    have hother := hlisted other another hcandidate
    rw [hsame] at hother
    have hall : another.priority ∈ QueuePriority.descending := by
      cases another.priority <;> decide
    have hnot := doGetIdleChild_none hnone another.priority hall other hother
    rw [hcandidate.idle] at hnot
    exact absurd hnot.symm Bool.false_ne_true

theorem Candidate.weaken {immediateOnly : Bool}
    {direction : TransferDirection}
    (hcandidate : queue.Candidate immediateOnly direction id item) :
    queue.Candidate false direction id item :=
  ⟨hcandidate.child, hcandidate.found, hcandidate.idle, by simp⟩

/-- The idle child is of the highest priority, the first of its list. -/
theorem Mirrored.getIdleChild (hmirrored : queue.Mirrored)
    (immediateOnly : Bool) (direction : TransferDirection) :
    match queue.getIdleChild immediateOnly direction with
    | some id => ∃ item, queue.Candidate immediateOnly direction id item ∧
        ∀ other another,
          queue.Candidate immediateOnly direction other another →
          (another.queued = false → item.queued = false) ∧
          (another.queued = item.queued →
            another.priority.number ≤ item.priority.number)
    | none => ∀ id item,
        ¬ queue.Candidate immediateOnly direction id item := by
  have himmediate := hmirrored.idleOf false direction
  have hqueued := hmirrored.idleOf true direction
  cases hfound : doGetIdleChild queue.items
      (fun priority => queue.server.fileList (false, priority)) direction
      QueuePriority.descending with
  | some id =>
    have hchild : queue.getIdleChild immediateOnly direction = some id := by
      simp only [ItemQueue.getIdleChild, hfound]
    rw [hfound] at himmediate
    rw [hchild]
    obtain ⟨item, hcandidate, hflag, hmax⟩ := himmediate
    refine ⟨item, ⟨hcandidate.child, hcandidate.found, hcandidate.idle,
      fun _ => hflag⟩, ?_⟩
    intro other another hother
    refine ⟨fun _ => hflag, fun hsame => ?_⟩
    exact hmax other another hother.weaken (hsame.trans hflag)
  | none =>
    have hchild : queue.getIdleChild immediateOnly direction =
        if immediateOnly then none
        else doGetIdleChild queue.items
          (fun priority => queue.server.fileList (true, priority)) direction
          QueuePriority.descending := by
      simp only [ItemQueue.getIdleChild, hfound]
    rw [hfound] at himmediate
    rw [hchild]
    cases himmediateOnly : immediateOnly with
    | true =>
        intro id item hcandidate
        exact himmediate id item hcandidate.weaken (hcandidate.immediate rfl)
    | false =>
        rw [if_neg Bool.false_ne_true]
        cases hwaiting : doGetIdleChild queue.items
            (fun priority => queue.server.fileList (true, priority)) direction
            QueuePriority.descending with
        | some id =>
            rw [hwaiting] at hqueued
            obtain ⟨item, hcandidate, hflag, hmax⟩ := hqueued
            refine ⟨item, hcandidate, ?_⟩
            intro other another hother
            refine ⟨fun hnow => ?_, fun hsame => ?_⟩
            · exact absurd hnow (himmediate other another hother)
            · exact hmax other another hother (hsame.trans hflag)
        | none =>
            rw [hwaiting] at hqueued
            intro id item hcandidate
            cases hflag : item.queued with
            | false => exact himmediate id item hcandidate hflag
            | true => exact hqueued id item hcandidate hflag

/-! ## Every run -/

theorem mirrored_getChild (hsound : queue.RowsSound)
    (hmirrored : queue.Mirrored) (item : ℕ) :
    (queue.getChild item).2.Mirrored := by
  obtain ⟨count, hcached⟩ := hsound.cache
  obtain ⟨_, hsame, hitems, _⟩ := getChild_spec hsound.tree hcached item
  unfold Mirrored
  rw [(hsound.getChild item).2, hitems, hsame]
  exact hmirrored

theorem step_mirrored {collation : Collation} (hsound : queue.RowsSound)
    (hmirrored : queue.Mirrored) {request : Request} {following : ItemQueue}
    {answer : List (Option ItemRef)}
    (hstep : step collation queue request = some (following, answer)) :
    following.Mirrored := by
  cases request <;>
    simp only [step, Option.ite_none_right_eq_some, Option.some.injEq,
      Prod.mk.injEq] at hstep
  case construct id item =>
    obtain ⟨⟨_, hnew, _⟩, rfl, _⟩ := hstep
    apply ServerItem.Mirrors.of_listOf hmirrored
    intro other hother
    apply Items.listOf_write_of_ne
    rintro rfl
    exact hnew hother
  case addChild id =>
    obtain ⟨⟨_, hnew⟩, rfl, _⟩ := hstep
    exact hmirrored.addChild hnew
  case removeChild id destroy forward =>
    obtain ⟨hmem, rfl, _⟩ := hstep
    exact hmirrored.removeChild hsound.tree.nodup hmem destroy forward
  case setActive id active statusItem =>
    obtain ⟨_, rfl, _⟩ := hstep
    exact hmirrored.setActive id active statusItem
  case sort col reverse =>
    obtain ⟨rfl, _⟩ := hstep
    exact hmirrored.sort hsound.tree.nodup collation col reverse
  case tryRemoveAll =>
    obtain ⟨rfl, _⟩ := hstep
    exact hmirrored.tryRemoveAll hsound.tree.nodup
  case detachChildren =>
    obtain ⟨rfl, _⟩ := hstep
    intro key id
    rw [if_neg fun h => List.not_mem_nil h.1]
    exact List.count_nil
  case setPriority priority =>
    obtain ⟨rfl, _⟩ := hstep
    exact hmirrored.setPriority priority
  case setItemPriority id priority =>
    obtain ⟨rfl, _⟩ := hstep
    exact hmirrored.setItemPriority id priority
  case queueImmediateFiles =>
    obtain ⟨rfl, _⟩ := hstep
    exact hmirrored.queueImmediateFiles
  case queueImmediateFile id =>
    obtain ⟨rfl, _⟩ := hstep
    exact hmirrored.queueImmediateFile id
  case getChild item =>
    obtain ⟨rfl, _⟩ := hstep
    exact mirrored_getChild hsound hmirrored item

theorem mirrored_initial {collation : Collation}
    (hinitial : (machine collation).initial queue) : queue.Mirrored := by
  have hserver : queue.server = ServerItem.empty := hinitial
  intro key id
  unfold live
  rw [hserver, if_neg fun h => List.not_mem_nil h.1]
  rfl

/-- In every run the lists mirror the tree. -/
theorem reaches_mirrored {collation : Collation} {requests : List Request}
    {answers : List (Option ItemRef)}
    (hreach : (machine collation).Reaches requests answers queue) :
    queue.RowsSound ∧ queue.Mirrored :=
  hreach.stateInvariant (fun queue => queue.RowsSound ∧ queue.Mirrored)
    (fun _ hinitial => ⟨rowsSound_initial hinitial, mirrored_initial hinitial⟩)
    fun _ _ _ _ hinv _ hstep => ⟨(step_rowsSound hinv.1 hstep).1,
      step_mirrored hinv.1 hinv.2 hstep⟩

/-- In every run each child is once in the list of its flag and priority,
nothing else is in a list, and the next file that is found is an idle child,
immediate if there is such a one, of the highest priority. -/
theorem lists_of_every_run {collation : Collation} {requests : List Request}
    {answers : List (Option ItemRef)}
    (hreach : (machine collation).Reaches requests answers queue) :
    (∀ key id, (queue.server.fileList key).count id =
      if id ∈ queue.live ∧ queue.items.listOf id = some key then 1 else 0) ∧
      (∀ id ∈ queue.live, (queue.items.listOf id).isSome) ∧
      ∀ immediateOnly direction,
        match queue.getIdleChild immediateOnly direction with
        | some id => ∃ item,
            queue.Candidate immediateOnly direction id item ∧
            ∀ other another,
              queue.Candidate immediateOnly direction other another →
              (another.queued = false → item.queued = false) ∧
              (another.queued = item.queued →
                another.priority.number ≤ item.priority.number)
        | none => ∀ id item,
            ¬ queue.Candidate immediateOnly direction id item := by
  obtain ⟨hsound, hmirrored⟩ := reaches_mirrored hreach
  refine ⟨hmirrored, ?_, hmirrored.getIdleChild⟩
  intro id hid
  unfold Items.listOf
  rw [Option.isSome_map]
  exact hsound.tree.known id hid

def folderAndFile : List Request :=
  [.construct 3 (newItem .folder 0), .addChild 3,
    .construct 5 (newItem .file 0x01), .addChild 5,
    .setItemPriority 5 .high]

/-- A folder and then a file, whose priority is raised. -/
theorem lists_of_every_run_folderAndFile :
    ∃ queue, (machine plainCollation).Reaches folderAndFile [] queue ∧
      queue.getIdleChild false .both = some 3 ∧
      (queue.server.fileList (true, .high)).count 5 = 1 := by
  have hstart : (machine plainCollation).Reaches [] [] emptyQueue :=
    .start rfl
  have hreach : (machine plainCollation).Reaches folderAndFile [] _ :=
    hstart.exec rfl
  obtain ⟨hcount, _, _⟩ := lists_of_every_run hreach
  exact ⟨_, hreach, rfl, (hcount (true, .high) 5).trans rfl⟩

end ItemQueue

end TabFtp
