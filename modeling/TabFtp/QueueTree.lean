import TabFtp.LabelledRuns
import TabFtp.QueueItems
import Mathlib.Algebra.BigOperators.Group.List.Basic
import Mathlib.Tactic

/-!
# The tree of queue items

A machine whose inputs are the operations on a server item and its children.
What the rows of the queue show depends on the children and on their status
items, and the number of rows is what `m_visibleOffspring` counts.
-/

namespace TabFtp

namespace Items

def statuses (items : Items) (id : ItemId) : Option (List ℕ) :=
  (items id).map fun item => item.children.live

def blockRows (items : Items) (id : ItemId) : List ItemRef :=
  .item id :: ((items.statuses id).getD []).map .status

variable {items : Items} {id other : ItemId} {item : FileItem}

theorem statuses_of_some (hitem : items id = some item) :
    items.statuses id = some item.children.live := by
  unfold statuses
  rw [hitem]
  rfl

@[simp] theorem length_blockRows (items : Items) (id : ItemId) :
    (items.blockRows id).length = 1 + items.childrenCount id := by
  unfold blockRows childrenCount statuses
  cases items id with
  | none => rfl
  | some item =>
      simp [FileItem.childrenCount, Nat.add_comm]

theorem write_self : items.write id item id = some item := by
  simp [write]

theorem write_of_ne (hne : other ≠ id) :
    items.write id item other = items other := by
  simp [write, hne]

theorem delete_of_ne (hne : other ≠ id) :
    items.delete id other = items other := by
  simp [delete, hne]

theorem statuses_write_self :
    (items.write id item).statuses id = some item.children.live := by
  unfold statuses
  rw [write_self]
  rfl

theorem statuses_write_of_ne (hne : other ≠ id) :
    (items.write id item).statuses other = items.statuses other := by
  unfold statuses
  rw [write_of_ne hne]

theorem statuses_write_of_children {changed : FileItem}
    (hitem : items id = some item)
    (hchildren : changed.children = item.children) (other : ItemId) :
    (items.write id changed).statuses other = items.statuses other := by
  by_cases hother : other = id
  · subst hother
    rw [statuses_write_self, statuses_of_some hitem, hchildren]
  · exact statuses_write_of_ne hother

theorem blockRows_congr {changed : Items}
    (hstatuses : changed.statuses id = items.statuses id) :
    changed.blockRows id = items.blockRows id := by
  unfold blockRows
  rw [hstatuses]

theorem isSome_congr {changed : Items}
    (hstatuses : changed.statuses id = items.statuses id) :
    (changed id).isSome = (items id).isSome := by
  have hmap := congrArg Option.isSome hstatuses
  unfold statuses at hmap
  rw [Option.isSome_map, Option.isSome_map] at hmap
  exact hmap

def offspring (items : Items) (ids : List ItemId) : ℕ :=
  (ids.map fun id => 1 + items.childrenCount id).sum

@[simp] theorem offspring_cons (items : Items) (id : ItemId)
    (ids : List ItemId) :
    items.offspring (id :: ids) =
      1 + items.childrenCount id + items.offspring ids := by
  unfold offspring
  rw [List.map_cons, List.sum_cons]

theorem offspring_append (items : Items) (ids more : List ItemId) :
    items.offspring (ids ++ more) =
      items.offspring ids + items.offspring more := by
  unfold offspring
  rw [List.map_append, List.sum_append]

theorem offspring_erase (items : Items) {ids : List ItemId}
    (hmem : id ∈ ids) :
    1 + items.childrenCount id + items.offspring (ids.erase id) =
      items.offspring ids := by
  unfold offspring
  exact List.sum_map_erase (fun id => 1 + items.childrenCount id) hmem

theorem offspring_perm {ids more : List ItemId} (hperm : ids.Perm more) :
    items.offspring ids = items.offspring more :=
  (hperm.map _).sum_eq

theorem offspring_congr {changed : Items} {ids : List ItemId}
    (hstatuses : ∀ id ∈ ids, changed.statuses id = items.statuses id) :
    changed.offspring ids = items.offspring ids := by
  unfold offspring
  congr 1
  apply List.map_congr_left
  intro id hid
  have hrows := congrArg List.length (blockRows_congr (hstatuses id hid))
  rwa [length_blockRows, length_blockRows] at hrows

def isActive (items : Items) (id : ItemId) : Bool :=
  (items id).any FileItem.active

theorem filter_isActive_congr {changed : Items} {ids : List ItemId}
    (hitems : ∀ id ∈ ids, changed id = items id) :
    ids.filter changed.isActive = ids.filter items.isActive := by
  apply List.filter_congr
  intro id hid
  unfold isActive
  rw [hitems id hid]

theorem offspring_filter_congr {changed : Items} {ids : List ItemId}
    (hitems : ∀ id ∈ ids, changed id = items id) :
    changed.offspring (ids.filter changed.isActive) =
      items.offspring (ids.filter items.isActive) := by
  rw [filter_isActive_congr hitems]
  apply offspring_congr
  intro id hid
  unfold statuses
  rw [hitems id (List.mem_of_mem_filter hid)]

end Items

namespace ServerItem

variable {server changed : ServerItem}

def SameTree (server changed : ServerItem) : Prop :=
  changed = { server with fileList := changed.fileList }

theorem SameTree.refl (server : ServerItem) : server.SameTree server := rfl

theorem SameTree.trans {final : ServerItem}
    (hfirst : server.SameTree changed) (hsecond : changed.SameTree final) :
    server.SameTree final := by
  unfold SameTree at hfirst hsecond ⊢
  rw [hsecond, hfirst]

theorem sameTree_setList (server : ServerItem) (key : Bool × QueuePriority)
    (list : List ItemId) : server.SameTree (server.setList key list) := rfl

theorem sameTree_addFileItemToList (server : ServerItem) (items : Items)
    (id : ItemId) : server.SameTree (server.addFileItemToList items id) := by
  unfold addFileItemToList
  split
  · exact .refl server
  · exact sameTree_setList _ _ _

theorem sameTree_removeFileItemFromList (server : ServerItem) (items : Items)
    (id : ItemId) (forward : Bool) :
    server.SameTree (server.removeFileItemFromList items id forward) := by
  unfold removeFileItemFromList
  split
  · exact .refl server
  · exact sameTree_setList _ _ _

theorem SameTree.children (hsame : server.SameTree changed) :
    changed.children = server.children := by
  rw [hsame]

theorem SameTree.visibleOffspring (hsame : server.SameTree changed) :
    changed.visibleOffspring = server.visibleOffspring := by
  rw [hsame]

theorem SameTree.maxCachedIndex (hsame : server.SameTree changed) :
    changed.maxCachedIndex = server.maxCachedIndex := by
  rw [hsame]

theorem SameTree.lookupCache (hsame : server.SameTree changed) :
    changed.lookupCache = server.lookupCache := by
  rw [hsame]

end ServerItem

namespace ItemQueue

variable {queue changed : ItemQueue} {id : ItemId} {item : FileItem}

/-- What the rows show, from the first to the last. -/
def rows (queue : ItemQueue) : List ItemRef :=
  queue.live.flatMap queue.items.blockRows

theorem length_rows (queue : ItemQueue) :
    queue.rows.length = queue.items.offspring queue.live := by
  unfold rows Items.offspring
  rw [List.length_flatMap]
  simp only [Items.length_blockRows]

structure Quiet (queue changed : ItemQueue) : Prop where
  server : queue.server.SameTree changed.server
  statuses : ∀ id ∈ queue.live,
    changed.items.statuses id = queue.items.statuses id

theorem Quiet.refl (queue : ItemQueue) : queue.Quiet queue :=
  ⟨.refl _, fun _ _ => rfl⟩

theorem Quiet.live (hquiet : queue.Quiet changed) :
    changed.live = queue.live := by
  unfold ItemQueue.live
  rw [hquiet.server.children]

theorem Quiet.trans {final : ItemQueue}
    (hfirst : queue.Quiet changed) (hsecond : changed.Quiet final) :
    queue.Quiet final := by
  constructor
  · exact hfirst.server.trans hsecond.server
  · intro id hid
    rw [hsecond.statuses id (hfirst.live.symm ▸ hid), hfirst.statuses id hid]

theorem Quiet.rows (hquiet : queue.Quiet changed) :
    changed.rows = queue.rows := by
  unfold ItemQueue.rows
  rw [hquiet.live]
  apply List.flatMap_congr
  intro id hid
  exact Items.blockRows_congr (hquiet.statuses id hid)

theorem quiet_write {server : ServerItem} {changed : FileItem}
    (hserver : queue.server.SameTree server)
    (hitem : queue.items id = some item)
    (hchildren : changed.children = item.children) :
    queue.Quiet ⟨server, queue.items.write id changed⟩ :=
  ⟨hserver, fun id _ => Items.statuses_write_of_children hitem hchildren id⟩

theorem quiet_server {server : ServerItem}
    (hserver : queue.server.SameTree server) :
    queue.Quiet { queue with server := server } :=
  ⟨hserver, fun _ _ => rfl⟩

/-! ## Priorities and immediate transfers -/

theorem sameTree_setChildPriority (queue : ItemQueue) (id : ItemId)
    (queued : Bool) (oldPriority newPriority : QueuePriority) :
    queue.server.SameTree
      (queue.setChildPriority id queued oldPriority newPriority) := by
  unfold setChildPriority
  simp only
  split
  · exact .refl _
  · exact (ServerItem.sameTree_setList _ _ _).trans
      (ServerItem.sameTree_setList _ _ _)

theorem quiet_setItemPriority (queue : ItemQueue) (id : ItemId)
    (priority : QueuePriority) :
    queue.Quiet (queue.setItemPriority id priority) := by
  unfold setItemPriority
  split
  · exact .refl queue
  · rename_i item hitem
    split
    · exact .refl queue
    · exact quiet_write (sameTree_setChildPriority _ _ _ _ _) hitem rfl

theorem quiet_setPriorities (priority : QueuePriority) (ids : List ItemId)
    (queue : ItemQueue) : queue.Quiet (setPriorities priority ids queue) := by
  induction ids generalizing queue with
  | nil => exact .refl queue
  | cons id rest ih =>
      unfold setPriorities
      split
      · exact ih queue
      · rename_i item hitem
        split
        · apply Quiet.trans _ (ih _)
          exact quiet_write (.refl _) hitem rfl
        · exact (quiet_setItemPriority queue id priority).trans (ih _)

theorem sameTree_gatherLists (priority : QueuePriority) (queued : Bool)
    (priorities : List QueuePriority) (server : ServerItem) :
    server.SameTree (gatherLists priority queued priorities server) := by
  induction priorities generalizing server with
  | nil => exact .refl server
  | cons j rest ih =>
      unfold gatherLists
      split
      · exact ih server
      · exact ((ServerItem.sameTree_setList _ _ _).trans
          (ServerItem.sameTree_setList _ _ _)).trans (ih _)

theorem quiet_setPriority (queue : ItemQueue) (priority : QueuePriority) :
    queue.Quiet (queue.setPriority priority) := by
  unfold setPriority
  exact (quiet_setPriorities priority queue.live queue).trans
    (quiet_server ((sameTree_gatherLists _ _ _ _).trans
      (sameTree_gatherLists _ _ _ _)))

theorem quiet_queueImmediateList (priority : QueuePriority)
    (ids : List ItemId) (queue : ItemQueue) (activeList : List ItemId) :
    queue.Quiet (queueImmediateList priority ids queue activeList).1 := by
  induction ids generalizing queue activeList with
  | nil => exact .refl queue
  | cons id rest ih =>
      unfold queueImmediateList
      split
      · exact ih queue activeList
      · rename_i item hitem
        split
        · exact ih queue (id :: activeList)
        · apply Quiet.trans _ (ih _ activeList)
          exact quiet_write (ServerItem.sameTree_setList _ _ _) hitem rfl

theorem quiet_queueImmediatePriorities (priorities : List QueuePriority)
    (queue : ItemQueue) :
    queue.Quiet (queueImmediatePriorities priorities queue) := by
  induction priorities generalizing queue with
  | nil => exact .refl queue
  | cons priority rest ih =>
      unfold queueImmediatePriorities
      exact ((quiet_queueImmediateList priority _ queue []).trans
        (quiet_server (ServerItem.sameTree_setList _ _ _))).trans (ih _)

theorem quiet_queueImmediateFiles (queue : ItemQueue) :
    queue.Quiet queue.queueImmediateFiles :=
  quiet_queueImmediatePriorities _ _

theorem quiet_queueImmediateFile (queue : ItemQueue) (id : ItemId) :
    queue.Quiet (queue.queueImmediateFile id) := by
  unfold queueImmediateFile
  split
  · exact .refl queue
  · rename_i item hitem
    split
    · exact .refl queue
    · simp only
      split
      · exact .refl queue
      · exact quiet_write ((ServerItem.sameTree_setList _ _ _).trans
          (ServerItem.sameTree_setList _ _ _)) hitem rfl

/-! ## The children -/

theorem sameTree_rebuildLists (items : Items) (ids : List ItemId)
    (server : ServerItem) : server.SameTree (rebuildLists items ids server) := by
  induction ids generalizing server with
  | nil => exact .refl server
  | cons id rest ih =>
      exact (ServerItem.sameTree_addFileItemToList _ _ _).trans (ih _)

@[simp] theorem live_addChild (queue : ItemQueue) (id : ItemId) :
    (queue.addChild id).live = queue.live ++ [id] := by
  unfold addChild live
  rw [(ServerItem.sameTree_addFileItemToList _ _ _).children]
  rfl

theorem visibleOffspring_addChild (queue : ItemQueue) (id : ItemId) :
    (queue.addChild id).server.visibleOffspring =
      queue.server.visibleOffspring + (1 + queue.items.childrenCount id) := by
  unfold addChild
  rw [(ServerItem.sameTree_addFileItemToList _ _ _).visibleOffspring]
  rfl

theorem removeChild_eq (hnodup : queue.live.Nodup) (hmem : id ∈ queue.live)
    (destroy forward : Bool) :
    ∃ children : OffsetVector.Vector ItemId,
      children.live = queue.live.erase id ∧
      queue.removeChild id destroy forward =
        { server :=
            { queue.server.removeFileItemFromList queue.items id forward with
              children := children
              visibleOffspring := queue.server.visibleOffspring - 1 -
                queue.items.childrenCount id
              maxCachedIndex := -1 }
          items :=
            if destroy then queue.items.delete id else queue.items } := by
  have hsame := ServerItem.sameTree_removeFileItemFromList queue.server
    queue.items id forward
  obtain ⟨children, hremove, hlive⟩ :=
    OffsetVector.Vector.remove_of_mem hnodup hmem 10 forward
  refine ⟨children, hlive, ?_⟩
  unfold removeChild removeFromChildren
  simp only
  rw [hsame.children, hremove, hsame.visibleOffspring]
  rfl

/-- What `TryRemoveAll` makes of an item. -/
def kept (item : FileItem) : Option FileItem :=
  if item.active then some (item.setPendingRemove true) else none

theorem tryRemoveChildren_spec {ids : List ItemId} (hnodup : ids.Nodup)
    (queue : ItemQueue) (keepChildren : List ItemId) :
    (tryRemoveChildren ids queue keepChildren).2 =
        keepChildren ++ ids.filter queue.items.isActive ∧
      (∀ id, (tryRemoveChildren ids queue keepChildren).1.items id =
        if id ∈ ids then (queue.items id).bind kept else queue.items id) ∧
      (tryRemoveChildren ids queue keepChildren).1.server.visibleOffspring =
        queue.server.visibleOffspring +
          queue.items.offspring (ids.filter queue.items.isActive) := by
  induction ids generalizing queue keepChildren with
  | nil => simp [tryRemoveChildren, Items.offspring]
  | cons first rest ih =>
      obtain ⟨hfirst, hrest⟩ := List.nodup_cons.mp hnodup
      have hne : ∀ id ∈ rest, id ≠ first := by
        intro id hid heq
        exact hfirst (heq ▸ hid)
      unfold tryRemoveChildren
      cases hitem : queue.items first with
      | none =>
          have hinactive : ¬ queue.items.isActive first = true := by
            simp [Items.isActive, hitem]
          obtain ⟨hkeep, hitems, hoffspring⟩ := ih hrest queue keepChildren
          rw [List.filter_cons_of_neg hinactive]
          refine ⟨hkeep, ?_, hoffspring⟩
          intro id
          rw [hitems]
          by_cases hid : id = first
          · simp [hid, hitem, hfirst]
          · simp [hid]
      | some item =>
          simp only
          cases hactive : item.active with
          | true =>
              have hthis : queue.items.isActive first = true := by
                simp [Items.isActive, hitem, hactive]
              have hcount : queue.items.childrenCount first =
                  item.childrenCount := by
                unfold Items.childrenCount
                rw [hitem]
              have hsame : ∀ id ∈ rest, queue.items.write first
                  (item.setPendingRemove true) id = queue.items id :=
                fun id hid => Items.write_of_ne (hne id hid)
              rw [if_pos rfl, List.filter_cons_of_pos hthis]
              obtain ⟨hkeep, hitems, hoffspring⟩ := ih hrest
                ⟨{ queue.server with
                    visibleOffspring := queue.server.visibleOffspring + 1 +
                      item.childrenCount },
                  queue.items.write first (item.setPendingRemove true)⟩
                (keepChildren ++ [first])
              refine ⟨?_, ?_, ?_⟩
              · rw [hkeep, Items.filter_isActive_congr hsame]
                simp
              · intro id
                rw [hitems]
                by_cases hid : id = first
                · simp [hid, hitem, hfirst, Items.write_self, kept, hactive]
                · simp [hid, Items.write_of_ne hid]
              · rw [hoffspring, Items.offspring_filter_congr hsame,
                  Items.offspring_cons, hcount]
                push_cast
                omega
          | false =>
              have hthis : ¬ queue.items.isActive first = true := by
                simp [Items.isActive, hitem, hactive]
              have hsame : ∀ id ∈ rest,
                  queue.items.delete first id = queue.items id :=
                fun id hid => Items.delete_of_ne (hne id hid)
              rw [if_neg Bool.false_ne_true, List.filter_cons_of_neg hthis]
              obtain ⟨hkeep, hitems, hoffspring⟩ := ih hrest
                ⟨queue.server.removeFileItemFromList queue.items first true,
                  queue.items.delete first⟩ keepChildren
              refine ⟨?_, ?_, ?_⟩
              · rw [hkeep, Items.filter_isActive_congr hsame]
              · intro id
                rw [hitems]
                by_cases hid : id = first
                · simp [hid, hitem, hfirst, Items.delete, kept, hactive]
                · simp [hid, Items.delete_of_ne hid]
              · rw [hoffspring, Items.offspring_filter_congr hsame,
                  (ServerItem.sameTree_removeFileItemFromList _ _ _
                    _).visibleOffspring]

/-! ## The invariant of the tree -/

structure TreeSound (queue : ItemQueue) : Prop where
  known : ∀ id ∈ queue.live, (queue.items id).isSome
  nodup : queue.live.Nodup
  offspring : queue.server.visibleOffspring = queue.rows.length

theorem TreeSound.quiet (hsound : queue.TreeSound)
    (hquiet : queue.Quiet changed) : changed.TreeSound := by
  constructor
  · intro id hid
    rw [hquiet.live] at hid
    rw [Items.isSome_congr (hquiet.statuses id hid)]
    exact hsound.known id hid
  · rw [hquiet.live]
    exact hsound.nodup
  · rw [hquiet.server.visibleOffspring, hquiet.rows]
    exact hsound.offspring

theorem TreeSound.addChild (hsound : queue.TreeSound)
    (hitem : (queue.items id).isSome) (hnew : id ∉ queue.live) :
    (queue.addChild id).TreeSound := by
  constructor
  · intro other hother
    rw [live_addChild, List.mem_append, List.mem_singleton] at hother
    rcases hother with hother | rfl
    · exact hsound.known other hother
    · exact hitem
  · rw [live_addChild]
    exact List.nodup_append_comm.mp (hsound.nodup.cons hnew)
  · rw [visibleOffspring_addChild, hsound.offspring, length_rows, length_rows,
      live_addChild]
    have happend := queue.items.offspring_append queue.live [id]
    have hone : queue.items.offspring [id] =
        1 + queue.items.childrenCount id := rfl
    show _ = ((queue.items.offspring (queue.live ++ [id]) : ℕ) : ℤ)
    omega

theorem TreeSound.removeChild (hsound : queue.TreeSound)
    (hmem : id ∈ queue.live) (destroy forward : Bool) :
    (queue.removeChild id destroy forward).TreeSound := by
  obtain ⟨children, hlive, heq⟩ :=
    removeChild_eq hsound.nodup hmem destroy forward
  rw [heq]
  have hothers : ∀ other ∈ queue.live.erase id,
      (if destroy then queue.items.delete id else queue.items) other =
        queue.items other := by
    intro other hother
    have hne := (hsound.nodup.mem_erase_iff.mp hother).1
    split
    · exact Items.delete_of_ne hne
    · rfl
  have hstatuses : ∀ other ∈ queue.live.erase id,
      Items.statuses (if destroy then queue.items.delete id else queue.items)
        other = queue.items.statuses other := by
    intro other hother
    unfold Items.statuses
    rw [hothers other hother]
  constructor
  · intro other hother
    have hother' : other ∈ queue.live.erase id := hlive ▸ hother
    simp only
    rw [hothers other hother']
    exact hsound.known other (List.mem_of_mem_erase hother')
  · unfold live
    simp only
    rw [hlive]
    exact hsound.nodup.erase id
  · rw [length_rows]
    unfold live
    simp only
    rw [hlive, Items.offspring_congr hstatuses, hsound.offspring, length_rows]
    have herase := Items.offspring_erase queue.items hmem
    omega

theorem TreeSound.tryRemoveAll (hsound : queue.TreeSound) :
    queue.tryRemoveAll.TreeSound := by
  obtain ⟨hkeep, hitems, hoffspring⟩ := tryRemoveChildren_spec hsound.nodup
    { queue with server := { queue.server with visibleOffspring := 0 } } []
  have hlive : queue.tryRemoveAll.live =
      queue.live.filter queue.items.isActive := hkeep
  have hactive : ∀ id ∈ queue.live.filter queue.items.isActive,
      ∃ item, queue.items id = some item ∧
        queue.tryRemoveAll.items id = some (item.setPendingRemove true) := by
    intro id hid
    obtain ⟨hmem, hisActive⟩ := List.mem_filter.mp hid
    obtain ⟨item, hitem, hactive⟩ := (Option.any_eq_true _ _).mp hisActive
    refine ⟨item, hitem, ?_⟩
    have hkept := hitems id
    rw [if_pos hmem, hitem, Option.bind_some, kept, if_pos hactive] at hkept
    exact hkept
  have hstatuses : ∀ id ∈ queue.live.filter queue.items.isActive,
      queue.tryRemoveAll.items.statuses id = queue.items.statuses id := by
    intro id hid
    obtain ⟨item, hitem, hkept⟩ := hactive id hid
    rw [Items.statuses_of_some hkept, Items.statuses_of_some hitem]
    rfl
  constructor
  · intro id hid
    obtain ⟨item, _, hkept⟩ := hactive id (hlive ▸ hid)
    rw [hkept]
    rfl
  · rw [hlive]
    exact hsound.nodup.filter _
  · rw [length_rows, hlive, Items.offspring_congr hstatuses]
    exact hoffspring.trans (zero_add _)

theorem TreeSound.sort (hsound : queue.TreeSound) (collation : Collation)
    (col : ℤ) (reverse : Bool) :
    (queue.sort collation col reverse).TreeSound ∧
      (queue.sort collation col reverse).live.Perm queue.live := by
  unfold ItemQueue.sort
  split
  · exact ⟨hsound, .refl _⟩
  · rename_i cmp _
    have hperm := List.mergeSort_perm queue.live fun l r =>
      !itemLess queue.items cmp reverse r l
    simp only
    have hlive : ∀ server : ServerItem, ItemQueue.live
        ⟨rebuildLists queue.items
          (queue.live.mergeSort fun l r =>
            !itemLess queue.items cmp reverse r l) server, queue.items⟩ =
        server.children.live := by
      intro server
      unfold live
      rw [(sameTree_rebuildLists _ _ _).children]
    refine ⟨⟨?_, ?_, ?_⟩, ?_⟩
    · intro id hid
      rw [hlive, OffsetVector.live_replaceLive] at hid
      exact hsound.known id (hperm.mem_iff.mp hid)
    · rw [hlive, OffsetVector.live_replaceLive]
      exact hperm.nodup_iff.mpr hsound.nodup
    · rw [length_rows, hlive, OffsetVector.live_replaceLive,
        (sameTree_rebuildLists _ _ _).visibleOffspring, hsound.offspring,
        length_rows, Items.offspring_perm hperm]
    · rw [hlive, OffsetVector.live_replaceLive]
      exact hperm

theorem TreeSound.writeChildren (hsound : queue.TreeSound)
    (hmem : id ∈ queue.live) {changed : FileItem} {difference : ℤ}
    (hcount : (changed.childrenCount : ℤ) =
      queue.items.childrenCount id + difference) :
    TreeSound
      ⟨queue.server.changeOffspring difference,
        queue.items.write id changed⟩ := by
  have hothers : ∀ other ∈ queue.live.erase id,
      (queue.items.write id changed).statuses other =
        queue.items.statuses other := fun other hother =>
    Items.statuses_write_of_ne (hsound.nodup.mem_erase_iff.mp hother).1
  constructor
  · intro other hother
    simp only
    by_cases hid : other = id
    · rw [hid, Items.write_self]
      rfl
    · rw [Items.write_of_ne hid]
      exact hsound.known other hother
  · exact hsound.nodup
  · rw [length_rows]
    show queue.server.visibleOffspring + difference =
      (((queue.items.write id changed).offspring queue.live : ℕ) : ℤ)
    have hold := Items.offspring_erase queue.items hmem
    have hnew := Items.offspring_erase (queue.items.write id changed) hmem
    have hself : (queue.items.write id changed).childrenCount id =
        changed.childrenCount := by
      unfold Items.childrenCount
      rw [Items.write_self]
    rw [Items.offspring_congr hothers, hself] at hnew
    rw [hsound.offspring, length_rows]
    omega

theorem setActive_cases (queue : ItemQueue) (id : ItemId) (active : Bool)
    (statusItem : ℕ) :
    queue.Quiet (queue.setActive id active statusItem) ∨
      ∃ changed difference,
        queue.setActive id active statusItem =
            ⟨queue.server.changeOffspring difference,
              queue.items.write id changed⟩ ∧
          (changed.childrenCount : ℤ) =
            queue.items.childrenCount id + difference := by
  unfold setActive
  split
  · exact Or.inl (.refl queue)
  · rename_i item hitem
    have hcount : queue.items.childrenCount id = item.childrenCount := by
      unfold Items.childrenCount
      rw [hitem]
    simp only
    split
    · exact Or.inl (quiet_write (.refl _) hitem rfl)
    · split
      · exact Or.inl (.refl queue)
      · split
        · refine Or.inr ⟨_, _, rfl, ?_⟩
          rw [hcount]
          unfold FileItem.childrenCount
          simp
        · split
          · rename_i hchild
            refine Or.inr ⟨_, _, rfl, ?_⟩
            rw [hcount]
            unfold FileItem.childrenCount
            simp only [OffsetVector.live_removeAt]
            rw [List.length_eraseIdx_of_lt hchild]
            omega
          · exact Or.inl (quiet_write (.refl _) hitem rfl)

theorem live_setActive (queue : ItemQueue) (id : ItemId) (active : Bool)
    (statusItem : ℕ) :
    (queue.setActive id active statusItem).live = queue.live := by
  rcases queue.setActive_cases id active statusItem with hquiet |
    ⟨changed, difference, heq, _⟩
  · exact hquiet.live
  · rw [heq]
    rfl

theorem TreeSound.setActive (hsound : queue.TreeSound)
    (hmem : id ∈ queue.live) (active : Bool) (statusItem : ℕ) :
    (queue.setActive id active statusItem).TreeSound := by
  rcases queue.setActive_cases id active statusItem with hquiet |
    ⟨changed, difference, heq, hcount⟩
  · exact hsound.quiet hquiet
  · rw [heq]
    exact hsound.writeChildren hmem hcount

/-! ## The operations -/

/-- The operations on a server item and on its children, and the construction
of an item. -/
inductive Request
  | construct (id : ItemId) (item : FileItem)
  | addChild (id : ItemId)
  | removeChild (id : ItemId) (destroy forward : Bool)
  | setActive (id : ItemId) (active : Bool) (statusItem : ℕ)
  | sort (col : ℤ) (reverse : Bool)
  | tryRemoveAll
  | detachChildren
  | setPriority (priority : QueuePriority)
  | setItemPriority (id : ItemId) (priority : QueuePriority)
  | queueImmediateFiles
  | queueImmediateFile (id : ItemId)
  | getChild (item : ℕ)

/-- An item is constructed without children at an address where there is
none.  Items are added if they are no children already, and only children are
removed and activated. -/
def step (collation : Collation) (queue : ItemQueue) :
    Request → Option (ItemQueue × List (Option ItemRef))
  | .construct id item =>
      if queue.items id = none ∧ id ∉ queue.live ∧ item.children.live = [] then
        some ({ queue with items := queue.items.write id item }, [])
      else none
  | .addChild id =>
      if (queue.items id).isSome ∧ id ∉ queue.live then
        some (queue.addChild id, [])
      else none
  | .removeChild id destroy forward =>
      if id ∈ queue.live then
        some (queue.removeChild id destroy forward, [])
      else none
  | .setActive id active statusItem =>
      if id ∈ queue.live then
        some (queue.setActive id active statusItem, [])
      else none
  | .sort col reverse => some (queue.sort collation col reverse, [])
  | .tryRemoveAll => some (queue.tryRemoveAll, [])
  | .detachChildren => some (queue.detachChildren, [])
  | .setPriority priority => some (queue.setPriority priority, [])
  | .setItemPriority id priority =>
      some (queue.setItemPriority id priority, [])
  | .queueImmediateFiles => some (queue.queueImmediateFiles, [])
  | .queueImmediateFile id => some (queue.queueImmediateFile id, [])
  | .getChild item =>
      let (found, queue) := queue.getChild item
      some (queue, [found])

/-- A new server item, and any items that exist already. -/
def machine (collation : Collation) :
    LabelledRuns.Machine ItemQueue Request (Option ItemRef) where
  initial := fun queue => queue.server = ServerItem.empty
  step := step collation

/-- What happens to the children. -/
def ChildrenChange (queue : ItemQueue) (request : Request)
    (following : ItemQueue) : Prop :=
  match request with
  | .addChild id => following.live = queue.live ++ [id]
  | .removeChild id _ _ => following.live = queue.live.erase id
  | .sort _ _ => following.live.Perm queue.live
  | .tryRemoveAll =>
      following.live = queue.live.filter queue.items.isActive
  | .detachChildren => following.live = []
  | _ => following.live = queue.live

end ItemQueue

end TabFtp
