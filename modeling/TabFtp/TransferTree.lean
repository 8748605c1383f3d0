import TabFtp.QueueTotalsExact

/-!
# Activity in the tree of the queue

The transfer queue looks at an item's type, its direction and whether it is
active, and at the children of each server item.  For every operation on the
tree there is one statement here that says what it does to these.
-/

namespace TabFtp

namespace FileItem

variable (item : FileItem) (on : Bool)

def activity : FileItemType × Bool × Bool :=
  (item.type, item.active, item.download)

@[simp] theorem active_assign_active :
    (item.assign TransferFlags.active on).active = on :=
  TransferFlags.has_assign_self (by decide) (by decide) _ _

@[simp] theorem download_assign_active :
    (item.assign TransferFlags.active on).download = item.download :=
  TransferFlags.has_assign_of_disjoint (by decide) (by decide) _ _

theorem activity_assign {flag : TransferFlags}
    (hactive : ~~~flag &&& TransferFlags.active = TransferFlags.active)
    (hnotActive : flag &&& TransferFlags.active = 0)
    (hdownload : ~~~flag &&& TransferFlags.download = TransferFlags.download)
    (hnotDownload : flag &&& TransferFlags.download = 0) :
    (item.assign flag on).activity = item.activity := by
  have hsame : (item.assign flag on).active = item.active :=
    TransferFlags.has_assign_of_disjoint hactive hnotActive _ _
  have hdirection : (item.assign flag on).download = item.download :=
    TransferFlags.has_assign_of_disjoint hdownload hnotDownload _ _
  unfold activity
  rw [hsame, hdirection]
  rfl

def shown : (FileItemType × Bool × Bool) × ℕ :=
  (item.activity, item.childrenCount)

theorem shown_of_activity {written : FileItem}
    (hactivity : written.activity = item.activity)
    (hchildren : written.children = item.children) :
    written.shown = item.shown := by
  unfold shown childrenCount
  rw [hactivity, hchildren]

theorem activity_setQueued : (item.setQueued on).activity = item.activity :=
  item.activity_assign on (by decide) (by decide) (by decide) (by decide)

theorem activity_setPendingRemove :
    (item.setPendingRemove on).activity = item.activity :=
  item.activity_assign on (by decide) (by decide) (by decide) (by decide)

theorem activity_setMadeProgress :
    (item.setMadeProgress on).activity = item.activity :=
  item.activity_assign on (by decide) (by decide) (by decide) (by decide)

end FileItem

namespace Items

variable {items changed final : Items} {id : ItemId} {item : FileItem}

def SameActivity (items changed : Items) (id : ItemId) : Prop :=
  (changed id).map FileItem.shown = (items id).map FileItem.shown

theorem SameActivity.of_eq (hsame : changed id = items id) :
    items.SameActivity changed id :=
  congrArg (Option.map _) hsame

theorem SameActivity.isSome (hsame : items.SameActivity changed id) :
    (changed id).isSome = (items id).isSome := by
  have hmap := congrArg Option.isSome hsame
  rwa [Option.isSome_map, Option.isSome_map] at hmap

theorem SameActivity.isActive (hsame : items.SameActivity changed id) :
    changed.isActive id = items.isActive id := by
  have hmap := congrArg (Option.any fun part => part.1.2.1) hsame
  rwa [Option.any_map, Option.any_map] at hmap

def isDownload (items : Items) (id : ItemId) : Bool :=
  (items id).any FileItem.download

theorem SameActivity.isDownload (hsame : items.SameActivity changed id) :
    changed.isDownload id = items.isDownload id := by
  have hmap := congrArg (Option.any fun part => part.1.2.2) hsame
  rwa [Option.any_map, Option.any_map] at hmap

theorem SameActivity.childrenCount (hsame : items.SameActivity changed id) :
    changed.childrenCount id = items.childrenCount id := by
  have hcount : ∀ items : Items, items.childrenCount id =
      (((items id).map FileItem.shown).map Prod.snd).getD 0 := by
    intro items
    unfold Items.childrenCount
    cases items id with
    | none => rfl
    | some item => rfl
  rw [hcount, hcount, hsame]

theorem sameActivity_write (hitem : items id = some item)
    {written : FileItem} (hsame : written.shown = item.shown)
    (other : ItemId) : items.SameActivity (items.write id written) other := by
  by_cases hother : other = id
  · unfold SameActivity
    rw [hother, write_self, hitem, Option.map_some, Option.map_some, hsame]
  · exact .of_eq (write_of_ne hother)

end Items

namespace ItemQueue

variable {queue changed : ItemQueue} {id : ItemId} {item : FileItem}

structure Calm (queue changed : ItemQueue) : Prop where
  sound : changed.Sound
  live : changed.live = queue.live
  activity : ∀ id, queue.items.SameActivity changed.items id
  others : ∀ id, id ∉ queue.live → changed.items id = queue.items id

theorem calm_queueImmediateFile (hsound : queue.Sound) (id : ItemId) :
    queue.Calm (queue.queueImmediateFile id) := by
  have hquiet := queue.quiet_queueImmediateFile id
  have hitems : (queue.queueImmediateFile id).items = queue.items ∨
      ∃ item, id ∈ queue.live ∧ queue.items id = some item ∧
        (queue.queueImmediateFile id).items =
          queue.items.write id (item.setQueued true) := by
    unfold queueImmediateFile
    cases hitem : queue.items id with
    | none => exact Or.inl rfl
    | some item =>
        simp only
        split
        · exact Or.inl rfl
        · split
          · exact Or.inl rfl
          · rename_i index hfind
            obtain ⟨hindex, hget⟩ := findIdx_bound hfind
            have hmem := (ServerItem.mem_fileList_iff hsound.mirrored).mp
              (hget ▸ List.getElem_mem hindex)
            exact Or.inr ⟨item, hmem.1, rfl, rfl⟩
  constructor
  · exact ⟨hsound.rows.quiet hquiet, hsound.mirrored.queueImmediateFile id⟩
  · exact hquiet.live
  · intro other
    rcases hitems with heq | ⟨item, _, hitem, heq⟩
    · exact .of_eq (congrFun heq other)
    · rw [heq]
      exact Items.sameActivity_write hitem
        (item.shown_of_activity (item.activity_setQueued true) rfl) other
  · intro other hnot
    rcases hitems with heq | ⟨item, hmem, _, heq⟩
    · exact congrFun heq other
    · rw [heq]
      apply Items.write_of_ne
      intro hother
      exact hnot (hother ▸ hmem)

theorem calm_queueImmediateList (hsound : queue.Sound)
    (priority : QueuePriority) :
    let result := queueImmediateList priority
      (queue.server.fileList (false, priority)).reverse queue []
    queue.Calm
      { result.1 with
        server := result.1.server.setList (false, priority) result.2 } := by
  intro result
  have hquiet := (quiet_queueImmediateList priority
    (queue.server.fileList (false, priority)).reverse queue []).trans
    (quiet_server (ServerItem.sameTree_setList result.1.server
      (false, priority) result.2))
  have hmember : ∀ id, id ∈ queue.server.fileList (false, priority) →
      id ∈ queue.live := fun id hid =>
    ((ServerItem.mem_fileList_iff hsound.mirrored).mp hid).1
  have hnodup : (queue.server.fileList (false, priority)).Nodup := by
    apply List.nodup_iff_count_le_one.mpr
    intro id
    rw [hsound.mirrored (false, priority) id]
    split
    · exact Nat.le_refl 1
    · exact Nat.zero_le 1
  obtain ⟨_, _, hitems⟩ := queueImmediateList_spec priority
    (List.nodup_reverse.mpr hnodup) queue []
  constructor
  · exact ⟨hsound.rows.quiet hquiet,
      mirrored_queueImmediateList hsound.mirrored priority⟩
  · exact hquiet.live
  · intro id
    unfold Items.SameActivity
    show (result.1.items id).map _ = _
    rw [hitems, Option.map_map]
    apply Option.map_congr
    intro item _
    simp only [Function.comp_apply]
    split
    · exact item.shown_of_activity (item.activity_setQueued true) rfl
    · rfl
  · intro id hnot
    show result.1.items id = _
    rw [hitems]
    cases queue.items id with
    | none => rfl
    | some item =>
        rw [Option.map_some, if_neg]
        intro hboth
        exact hnot (hmember id (List.mem_reverse.mp hboth.1))

theorem Calm.refl (hsound : queue.Sound) : queue.Calm queue :=
  ⟨hsound, rfl, fun _ => .of_eq rfl, fun _ _ => rfl⟩

theorem Calm.trans {final : ItemQueue} (hfirst : queue.Calm changed)
    (hsecond : changed.Calm final) : queue.Calm final := by
  constructor
  · exact hsecond.sound
  · exact hsecond.live.trans hfirst.live
  · intro id
    exact (hsecond.activity id).trans (hfirst.activity id)
  · intro id hnot
    rw [hsecond.others id (hfirst.live.symm ▸ hnot), hfirst.others id hnot]

theorem calm_queueImmediateFiles (hsound : queue.Sound) :
    queue.Calm queue.queueImmediateFiles := by
  unfold ItemQueue.queueImmediateFiles
  generalize QueuePriority.ascending = priorities
  induction priorities generalizing queue with
  | nil => exact .refl hsound
  | cons priority rest ih =>
      have hfirst := calm_queueImmediateList hsound priority
      exact hfirst.trans (ih hfirst.sound)

theorem calm_getChild (hsound : queue.Sound) (row : ℕ) :
    queue.Calm (queue.getChild row).2 := by
  obtain ⟨count, hcached⟩ := hsound.rows.cache
  obtain ⟨_, _, hitems, _⟩ := getChild_spec hsound.rows.tree hcached row
  constructor
  · exact hsound.getChild row
  · exact (hsound.rows.getChild row).2
  · intro id
    exact .of_eq (congrFun hitems id)
  · intro id _
    exact congrFun hitems id

theorem activity_setActive (hitem : queue.items id = some item)
    (active : Bool) (statusItem : ℕ) :
    ((queue.setActive id active statusItem).items id).map FileItem.activity =
      some (item.type, active, item.download) := by
  have hwritten : ∀ written : FileItem,
      written.flags = (item.assign TransferFlags.active active).flags →
      written.type = item.type →
      (queue.items.write id written id).map FileItem.activity =
        some (item.type, active, item.download) := by
    intro written hflags htype
    have hactive : written.active = active := by
      unfold FileItem.active
      rw [hflags]
      exact item.active_assign_active active
    have hdownload : written.download = item.download := by
      unfold FileItem.download
      rw [hflags]
      exact item.download_assign_active active
    rw [Items.write_self, Option.map_some, FileItem.activity, hactive,
      hdownload, htype]
  unfold setActive
  rw [hitem]
  simp only
  split
  · exact hwritten _ rfl rfl
  · split
    · rename_i hsame
      rw [hitem, hsame]
      rfl
    · split
      · exact hwritten _ rfl rfl
      · split
        · exact hwritten _ rfl rfl
        · exact hwritten _ rfl rfl

end ItemQueue

namespace QueueView

variable {view : QueueView} {key : ServerId} {server : ServerItem}
  {id : ItemId} {item : FileItem} {tree : ItemQueue}

def shapeOf (serverList : List (ServerId × ServerItem)) :
    List (ServerId × List ItemId) :=
  serverList.map fun entry => (entry.1, entry.2.children.live)

def shape (view : QueueView) : List (ServerId × List ItemId) :=
  shapeOf view.serverList

theorem allChildren_eq (view : QueueView) :
    view.allChildren = view.shape.flatMap Prod.snd := by
  unfold allChildren shape shapeOf
  rw [List.flatMap_map]

theorem mem_shape (hfound : view.server key = some server) :
    (key, server.children.live) ∈ view.shape := by
  obtain ⟨before, after, heq⟩ := exists_middle hfound
  unfold shape shapeOf
  rw [heq]
  simp

theorem put_spec (hsound : ServersSound view.serverList view.items)
    (hfound : view.server key = some server) (htree : tree.Sound)
    (hlive : tree.live = server.children.live)
    (hothers : ∀ id, id ∉ server.children.live →
      tree.items id = view.items id) :
    ServersSound (view.put key tree).serverList (view.put key tree).items ∧
      (view.put key tree).shape = view.shape := by
  constructor
  · apply (hsound.put hfound htree _ _).servers
    · intro id hid
      exact Or.inl (hlive ▸ hid)
    · intro id _ hnot
      exact hothers id hnot
  · obtain ⟨before, after, heq⟩ := exists_middle hfound
    have hunique := hsound.unique
    rw [heq] at hunique
    have hwritten : UniqueKeys.write Prod.fst key
        (fun entry => (entry.1, tree.server))
        (before ++ (key, server) :: after) =
        before ++ (key, tree.server) :: after := hunique.write_append
    unfold QueueView.put shape shapeOf
    simp only
    rw [heq, hwritten, List.map_append, List.map_append, List.map_cons,
      List.map_cons]
    have hchildren : tree.server.children.live = server.children.live := hlive
    rw [hchildren]

structure Calm (view changed : QueueView) : Prop where
  servers : ServersSound changed.serverList changed.items
  shape : changed.shape = view.shape
  activity : ∀ id, view.items.SameActivity changed.items id

theorem calm_put (hsound : ServersSound view.serverList view.items)
    (hfound : view.server key = some server)
    (hcalm : ItemQueue.Calm ⟨server, view.items⟩ tree) :
    view.Calm (view.put key tree) := by
  obtain ⟨hservers, hshape⟩ := put_spec hsound hfound hcalm.sound hcalm.live
    hcalm.others
  exact ⟨hservers, hshape, hcalm.activity⟩

theorem ServersSound.queue
    (hsound : ServersSound view.serverList view.items)
    (hfound : view.server key = some server) :
    ItemQueue.Sound ⟨server, view.items⟩ := by
  obtain ⟨before, after, heq⟩ := exists_middle hfound
  apply hsound.servers (key, server)
  rw [heq]
  exact List.mem_append_right _ List.mem_cons_self

theorem put_setActive (hsound : ServersSound view.serverList view.items)
    (hfound : view.server key = some server)
    (hmem : id ∈ server.children.live) (hitem : view.items id = some item)
    (active : Bool) (statusItem : ℕ) :
    let changed := view.put key
      (ItemQueue.setActive ⟨server, view.items⟩ id active statusItem)
    ServersSound changed.serverList changed.items ∧
      changed.shape = view.shape ∧
      (changed.items id).map FileItem.activity =
        some (item.type, active, item.download) ∧
      ∀ other, other ≠ id → changed.items other = view.items other := by
  intro changed
  have hothers : ∀ other, other ≠ id → changed.items other =
      view.items other := fun other =>
    (setActive_item ⟨server, view.items⟩ id active statusItem other).1
  obtain ⟨hservers, hshape⟩ := put_spec hsound hfound
    ((hsound.queue hfound).setActive hmem active statusItem)
    (ItemQueue.live_setActive _ id active statusItem)
    (fun other hnot => hothers other fun heq => hnot (heq ▸ hmem))
  exact ⟨hservers, hshape, ItemQueue.activity_setActive hitem active statusItem,
    hothers⟩

/-! ## Items come and go -/

theorem insertItem_spec (hsound : ServersSound view.serverList view.items)
    (hfound : view.server key = some server)
    (hitem : view.items id = some item) (hnew : id ∉ view.allChildren) :
    let changed := view.insertItem key server id item
    ServersSound changed.serverList changed.items ∧
      changed.items = view.items ∧
      ∃ before after, view.shape =
          before ++ (key, server.children.live) :: after ∧
        changed.shape =
          before ++ (key, server.children.live ++ [id]) :: after := by
  intro changed
  have htree := hsound.queue hfound
  have hchild : id ∉ server.children.live := by
    intro hid
    obtain ⟨before, after, heq⟩ := exists_middle hfound
    have hin : (key, server) ∈ view.serverList := by
      rw [heq]
      exact List.mem_append_right _ List.mem_cons_self
    exact hnew (mem_childrenOf hin hid)
  have hadded := htree.addChild (Option.isSome_iff_exists.mpr ⟨item, hitem⟩)
    hchild
  have hlive := ItemQueue.live_addChild ⟨server, view.items⟩ id
  have hput := hsound.put hfound hadded
    (fun other hother => by
      rw [hlive, List.mem_append, List.mem_singleton] at hother
      rcases hother with hold | rfl
      · exact Or.inl hold
      · exact Or.inr hnew)
    (fun _ _ _ => rfl)
  have hlist : changed.serverList =
      (view.put key (ItemQueue.addChild ⟨server, view.items⟩ id)).serverList ∧
      changed.items = view.items := by
    unfold changed insertItem
    simp only
    split
    · exact ⟨rfl, rfl⟩
    · split
      · exact ⟨rfl, rfl⟩
      · split
        · exact ⟨rfl, rfl⟩
        · exact ⟨rfl, rfl⟩
  refine ⟨?_, hlist.2, ?_⟩
  · rw [hlist.1, hlist.2]
    exact hput.servers
  · obtain ⟨before, after, heq⟩ := exists_middle hfound
    have hunique := hsound.unique
    rw [heq] at hunique
    refine ⟨shapeOf before, shapeOf after, ?_, ?_⟩
    · unfold shape shapeOf
      rw [heq, List.map_append, List.map_cons]
    · have hwritten : UniqueKeys.write Prod.fst key
          (fun entry => (entry.1,
            (ItemQueue.addChild ⟨server, view.items⟩ id).server))
          (before ++ (key, server) :: after) = _ := hunique.write_append
      unfold shape shapeOf
      rw [hlist.1]
      unfold QueueView.put
      simp only
      rw [heq, hwritten, List.map_append, List.map_cons]
      have hchildren : (ItemQueue.addChild ⟨server, view.items⟩
          id).server.children.live = server.children.live ++ [id] := hlive
      simp only [hchildren]

/-- What is left of a server item, the child of which has been removed. -/
def remaining (key : ServerId) (ids : List ItemId) :
    List (ServerId × List ItemId) :=
  if ids = [] then [] else [(key, ids)]

theorem removeItem_spec (hsound : ServersSound view.serverList view.items)
    (hfound : view.server key = some server)
    (hmem : id ∈ server.children.live) (item : FileItem)
    (destroy forward : Bool) :
    let changed := view.removeItem key server id item destroy forward
    ServersSound changed.serverList changed.items ∧
      (changed.items id = if destroy then none else view.items id) ∧
      (∀ other, other ≠ id → changed.items other = view.items other) ∧
      ∃ before after, view.shape =
          before ++ (key, server.children.live) :: after ∧
        changed.shape =
          before ++ (remaining key (server.children.live.erase id) ++
            after) := by
  have hsubtract : ∃ total unknown, view.subtractItem item =
      { view with
        totalQueueSize := total, filesWithUnknownSize := unknown } := by
    unfold subtractItem
    split
    · exact ⟨_, _, rfl⟩
    · split
      · exact ⟨_, _, rfl⟩
      · split
        · exact ⟨_, _, rfl⟩
        · exact ⟨_, _, rfl⟩
  obtain ⟨total, unknown, hsubtracted⟩ := hsubtract
  obtain ⟨removed, _, _, hexchanged, hfrom⟩ := removeFromServer_spec
    { view with totalQueueSize := total, filesWithUnknownSize := unknown }
    key server id destroy forward hsound hfound hmem
  have htree := hsound.queue hfound
  obtain ⟨children, hlive, heq⟩ :=
    ItemQueue.removeChild_eq htree.rows.tree.nodup hmem destroy forward
  have hafter := htree.removeChild hmem destroy forward
  obtain ⟨count, hcached⟩ := hafter.rows.cache
  obtain ⟨hwalk, _, hsame, _⟩ :=
    ItemQueue.getChild_spec hafter.rows.tree hcached 0
  have hfirst := hwalk (by decide)
  have hchildren := (hafter.rows.getChild 0).2
  have hremovedLive : (ItemQueue.removeChild ⟨server, view.items⟩ id destroy
      forward).live = server.children.live.erase id := by
    rw [heq]
    exact hlive
  have hremovedItems : (ItemQueue.removeChild ⟨server, view.items⟩ id destroy
      forward).items =
      if destroy then view.items.delete id else view.items := by
    rw [heq]
  intro changed
  have hchanged : changed = QueueView.removeFromServer
      { view with totalQueueSize := total, filesWithUnknownSize := unknown }
      key server id destroy forward := by
    unfold changed removeItem
    rw [hsubtracted]
  rw [hchanged]
  have hitems : (QueueView.removeFromServer
      { view with totalQueueSize := total, filesWithUnknownSize := unknown }
      key server id destroy forward).items =
      if destroy then view.items.delete id else view.items := by
    rw [← hremovedItems, ← hsame]
    unfold removeFromServer
    simp only
    split
    · rename_i hgot
      rw [hgot]
    · rename_i hgot
      rw [hgot]
      rfl
  refine ⟨?_, ?_, ?_, ?_⟩
  · rw [hfrom]
    exact hexchanged.servers
  · rw [hitems]
    split
    · exact Function.update_self id none view.items
    · rfl
  · intro other hne
    rw [hitems]
    split
    · exact Items.delete_of_ne hne
    · rfl
  · obtain ⟨before, after, hlist⟩ := exists_middle hfound
    have hunique := hsound.unique
    rw [hlist] at hunique
    refine ⟨shapeOf before, shapeOf after, ?_, ?_⟩
    · unfold shape shapeOf
      rw [hlist, List.map_append, List.map_cons]
    · rw [hremovedLive] at hfirst hchildren
      unfold removeFromServer shape remaining
      simp only
      cases hrest : server.children.live.erase id with
      | nil =>
          rw [hrest] at hfirst
          rw [if_pos rfl, List.nil_append]
          split
          · have hfiltered : (before ++ (key, server) :: after).filter
                (fun entry => !decide (entry.1 = key)) = before ++ after :=
              hunique.filter_append
            simp only
            rw [hlist, hfiltered]
            exact List.map_append
          · rename_i found tree hgot
            rw [hgot] at hfirst
            exact absurd hfirst.symm (Option.some_ne_none found).symm
      | cons first rest =>
          rw [hrest] at hfirst hchildren
          rw [if_neg (List.cons_ne_nil first rest)]
          split
          · rename_i tree hgot
            rw [hgot] at hfirst
            exact absurd hfirst (Option.some_ne_none _).symm
          · rename_i found tree hgot
            rw [hgot] at hchildren
            have hwritten : UniqueKeys.write Prod.fst key
                (fun entry => (entry.1, tree.server))
                (before ++ (key, server) :: after) = _ := hunique.write_append
            unfold QueueView.put
            simp only
            rw [hlist, hwritten]
            unfold shapeOf
            rw [List.map_append, List.map_cons]
            have hfinal : tree.server.children.live = first :: rest :=
              hchildren
            simp only [hfinal, List.singleton_append]

def activePart (items : Items) (entry : ServerId × List ItemId) :
    List (ServerId × List ItemId) :=
  remaining entry.1 (entry.2.filter items.isActive)

theorem removeAllFrom_shape {serverList : List (ServerId × ServerItem)}
    {items : Items} (hsound : ServersSound serverList items) :
    shapeOf (removeAllFrom serverList items).1 =
      (shapeOf serverList).flatMap (activePart items) := by
  induction serverList generalizing items with
  | nil => rfl
  | cons entry rest ih =>
      obtain ⟨key, server⟩ := entry
      obtain ⟨hrest, _, hdisjoint⟩ := ServersSound.others [] rest hsound
      have hqueue : ItemQueue.Sound ⟨server, items⟩ :=
        hsound.servers (key, server) List.mem_cons_self
      obtain ⟨_, hlive, hitems⟩ := hqueue.tryRemoveAll
      unfold removeAllFrom
      simp only
      generalize ItemQueue.tryRemoveAll ⟨server, items⟩ = removed at *
      have hsame : ∀ id ∈ childrenOf rest, removed.items id = items id := by
        intro id hid
        exact (hitems id).trans (if_neg fun h => hdisjoint id h hid)
      have hlater := ih (hrest.frame fun id hid => .of_eq (hsame id hid))
      have hparts : (shapeOf rest).flatMap (activePart removed.items) =
          (shapeOf rest).flatMap (activePart items) := by
        apply List.flatMap_congr
        intro part hpart
        obtain ⟨other, hother, rfl⟩ := List.mem_map.mp hpart
        unfold activePart
        rw [Items.filter_isActive_congr fun id hid =>
          hsame id (mem_childrenOf hother hid)]
      rw [hparts] at hlater
      have hchildren : removed.server.children.live =
          server.children.live.filter items.isActive := hlive
      have hfirst : shapeOf ((key, server) :: rest) =
          (key, server.children.live) :: shapeOf rest := rfl
      rw [hfirst, List.flatMap_cons, ← hlater]
      unfold activePart remaining
      simp only [hchildren, List.isEmpty_iff]
      split
      · rfl
      · show (key, removed.server.children.live) :: _ = _
        rw [hchildren]
        rfl

theorem removeAll_spec (hsound : ServersSound view.serverList view.items) :
    ServersSound view.removeAll.serverList view.removeAll.items ∧
      view.removeAll.shape = view.shape.flatMap (activePart view.items) ∧
      ∀ id, view.removeAll.items id =
        if id ∈ view.allChildren then (view.items id).bind ItemQueue.kept
        else view.items id := by
  obtain ⟨hservers, _, _, hitems⟩ := removeAllFrom_spec hsound
  exact ⟨hservers, removeAllFrom_shape hsound, hitems⟩

end QueueView

end TabFtp
