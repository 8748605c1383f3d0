import TabFtp.TransferRecords

/-!
# The counters of the transfer queue

What is kept is split by what it depends on: the items and where they are,
the records of the engines, and the counters.  Each single change of the queue
view keeps all of it, and the items of the calls of `ResetEngine` that are
being executed are not counted by their server items.
-/

namespace TabFtp

namespace TransferQueue

open QueueView

/-! ## What is kept -/

structure ItemsSound (view : QueueView) (failed successful : List ItemId)
    (nextServer : ServerId) (nextItem : ItemId) : Prop where
  servers : ServersSound view.serverList view.items
  keys : ∀ entry ∈ view.shape, entry.1 < nextServer
  nodup : (view.allChildren ++ (failed ++ successful)).Nodup
  placed : ∀ id, (view.items id).isSome = true ↔
    id ∈ view.allChildren ++ (failed ++ successful)
  fresh : ∀ id, (view.items id).isSome = true → id < nextItem
  active : ∀ id, view.items.isActive id = true → id ∈ view.allChildren

def countsDown (items : Items) (id : ItemId) : Bool :=
  items.isActive id && items.isDownload id

def countsUp (items : Items) (id : ItemId) : Bool :=
  items.isActive id && !items.isDownload id

def countsFor (items : Items) (resetting : List ItemId) (id : ItemId) : Bool :=
  items.isActive id && !decide (id ∈ resetting)

structure Counted (view : QueueView) (resetting : List ItemId)
    (engineData : List EngineData) (activeCount activeCountDown
    activeCountUp : ℤ) (serverActiveCount : ServerId → ℤ) : Prop where
  records : activeCount = engineData.countP EngineData.active
  down : activeCountDown = view.allChildren.countP (countsDown view.items)
  up : activeCountUp = view.allChildren.countP (countsUp view.items)
  servers : ∀ entry ∈ view.shape, serverActiveCount entry.1 =
    entry.2.countP (countsFor view.items resetting)
  resetting : resetting.Nodup ∧
    ∀ id ∈ resetting, view.items.isActive id = true

structure Sound (queue : TransferQueue) (known : ℕ → Prop) : Prop where
  items : ItemsSound queue.view queue.failed queue.successful
    queue.nextServer queue.nextItem
  records : RecordsSound known queue.nextAddress queue.view.items
    queue.engineDataOf queue.engineData
  counted : Counted queue.view queue.resetting queue.engineData
    queue.activeCount queue.activeCountDown queue.activeCountUp
    queue.serverActiveCount
  plain : ∀ id file, queue.postTransferAction id = some file →
    file.isPlain = true

variable {view changed : QueueView} {failed successful : List ItemId}
  {nextServer : ServerId} {nextItem : ItemId} {resetting : List ItemId}
  {engineData : List EngineData}
  {activeCount activeCountDown activeCountUp : ℤ}
  {serverActiveCount : ServerId → ℤ} {id : ItemId} {key : ServerId}
  {server : ServerItem}

/-! ## The tree stays -/

theorem allChildren_of_calm (hcalm : view.Calm changed) :
    changed.allChildren = view.allChildren := by
  rw [changed.allChildren_eq, view.allChildren_eq, hcalm.shape]

theorem ItemsSound.calm
    (hsound : ItemsSound view failed successful nextServer nextItem)
    (hcalm : view.Calm changed) :
    ItemsSound changed failed successful nextServer nextItem := by
  have hchildren := allChildren_of_calm hcalm
  constructor
  · exact hcalm.servers
  · rw [hcalm.shape]
    exact hsound.keys
  · rw [hchildren]
    exact hsound.nodup
  · intro id
    rw [hchildren, (hcalm.activity id).isSome]
    exact hsound.placed id
  · intro id hsome
    rw [(hcalm.activity id).isSome] at hsome
    exact hsound.fresh id hsome
  · intro id hactive
    rw [(hcalm.activity id).isActive] at hactive
    rw [hchildren]
    exact hsound.active id hactive

theorem Counted.calm
    (hcounted : Counted view resetting engineData activeCount activeCountDown
      activeCountUp serverActiveCount)
    (hcalm : view.Calm changed) :
    Counted changed resetting engineData activeCount activeCountDown
      activeCountUp serverActiveCount := by
  have hchildren := allChildren_of_calm hcalm
  have hactive : changed.items.isActive = view.items.isActive :=
    funext fun id => (hcalm.activity id).isActive
  have hdownload : changed.items.isDownload = view.items.isDownload :=
    funext fun id => (hcalm.activity id).isDownload
  constructor
  · exact hcounted.records
  · rw [hchildren, hcounted.down]
    unfold countsDown
    rw [hactive, hdownload]
  · rw [hchildren, hcounted.up]
    unfold countsUp
    rw [hactive, hdownload]
  · intro entry hentry
    rw [hcalm.shape] at hentry
    rw [hcounted.servers entry hentry]
    unfold countsFor
    rw [hactive]
  · rw [hactive]
    exact hcounted.resetting

/-! ## An item in the tree -/

theorem shape_cases (hsound : ServersSound view.serverList view.items)
    (hfound : view.server key = some server)
    (hmem : id ∈ server.children.live) :
    ∀ entry ∈ view.shape,
      entry.1 = key ∧ entry.2 = server.children.live ∨
        entry.1 ≠ key ∧ id ∉ entry.2 := by
  obtain ⟨before, after, heq⟩ := exists_middle hfound
  have hservers := hsound
  rw [heq] at hservers
  obtain ⟨_, hkeys, hdisjoint⟩ := ServersSound.others before after hservers
  intro entry hentry
  obtain ⟨source, hsource, rfl⟩ := List.mem_map.mp hentry
  rw [heq] at hsource
  by_cases hthis : source ∈ before ++ after
  · refine Or.inr ⟨hkeys source hthis, ?_⟩
    intro hid
    exact hdisjoint id hmem (mem_childrenOf hthis hid)
  · rcases List.mem_append.mp hsource with hbefore | hrest
    · exact absurd (List.mem_append_left after hbefore) hthis
    · rcases List.mem_cons.mp hrest with rfl | hafter
      · exact Or.inl ⟨rfl, rfl⟩
      · exact absurd (List.mem_append_right before hafter) hthis

theorem nodup_of_server (hsound : ServersSound view.serverList view.items)
    (hfound : view.server key = some server) :
    server.children.live.Nodup :=
  (hsound.queue hfound).rows.tree.nodup

theorem mem_allChildren (hfound : view.server key = some server)
    (hmem : id ∈ server.children.live) : id ∈ view.allChildren := by
  rw [view.allChildren_eq]
  exact List.mem_flatMap.mpr ⟨_, mem_shape hfound, hmem⟩

structure Toggled (view changed : QueueView) (id : ItemId) (active : Bool) :
    Prop where
  servers : ServersSound changed.serverList changed.items
  shape : changed.shape = view.shape
  this : changed.items.isActive id = active ∧
    changed.items.isDownload id = view.items.isDownload id ∧
    (changed.items id).isSome = (view.items id).isSome
  others : ∀ other, other ≠ id → changed.items other = view.items other

theorem toggled_setActive
    (hsound : ServersSound view.serverList view.items)
    (hfound : view.server key = some server)
    (hmem : id ∈ server.children.live) {item : FileItem}
    (hitem : view.items id = some item) (active : Bool) (statusItem : ℕ) :
    Toggled view (view.put key
      (ItemQueue.setActive ⟨server, view.items⟩ id active statusItem)) id
      active := by
  obtain ⟨hservers, hshape, hactivity, hothers⟩ :=
    put_setActive hsound hfound hmem hitem active statusItem
  refine ⟨hservers, hshape, ?_, hothers⟩
  obtain ⟨written, hwritten, hparts⟩ := Option.map_eq_some_iff.mp hactivity
  obtain ⟨_, hactive, hdownload⟩ : written.type = item.type ∧
      written.active = active ∧ written.download = item.download := by
    simpa [FileItem.activity] using hparts
  unfold Items.isActive Items.isDownload
  rw [hwritten, hitem]
  exact ⟨hactive, hdownload, rfl⟩

theorem Toggled.allChildren {active : Bool}
    (htoggled : Toggled view changed id active) :
    changed.allChildren = view.allChildren := by
  rw [changed.allChildren_eq, view.allChildren_eq, htoggled.shape]

theorem Toggled.isActive {active : Bool}
    (htoggled : Toggled view changed id active) (other : ItemId)
    (hne : other ≠ id) :
    changed.items.isActive other = view.items.isActive other := by
  unfold Items.isActive
  rw [htoggled.others other hne]

theorem Toggled.isDownload {active : Bool}
    (htoggled : Toggled view changed id active) (other : ItemId) :
    changed.items.isDownload other = view.items.isDownload other := by
  by_cases hne : other = id
  · rw [hne]
    exact htoggled.this.2.1
  · unfold Items.isDownload
    rw [htoggled.others other hne]

theorem ItemsSound.toggled {active : Bool}
    (hsound : ItemsSound view failed successful nextServer nextItem)
    (htoggled : Toggled view changed id active)
    (hmem : id ∈ view.allChildren) :
    ItemsSound changed failed successful nextServer nextItem := by
  have hsome : ∀ other, (changed.items other).isSome =
      (view.items other).isSome := by
    intro other
    by_cases hne : other = id
    · rw [hne]
      exact htoggled.this.2.2
    · rw [htoggled.others other hne]
  constructor
  · exact htoggled.servers
  · rw [htoggled.shape]
    exact hsound.keys
  · rw [htoggled.allChildren]
    exact hsound.nodup
  · intro other
    rw [hsome, htoggled.allChildren]
    exact hsound.placed other
  · intro other hother
    rw [hsome] at hother
    exact hsound.fresh other hother
  · intro other hother
    rw [htoggled.allChildren]
    by_cases hne : other = id
    · rw [hne]
      exact hmem
    · rw [htoggled.isActive other hne] at hother
      exact hsound.active other hother

theorem countP_int {ids : List ItemId} (hnodup : ids.Nodup) (hmem : id ∈ ids)
    (keep other : ItemId → Bool)
    (hagree : ∀ another, another ≠ id → other another = keep another) :
    (ids.countP other : ℤ) + (if keep id then 1 else 0) =
      ids.countP keep + if other id then 1 else 0 := by
  have hcount := UniqueKeys.countP_of_agree hnodup hmem
    fun another _ hne => hagree another hne
  split_ifs at hcount ⊢ <;> omega

theorem nodup_allChildren
    (hsound : ItemsSound view failed successful nextServer nextItem) :
    view.allChildren.Nodup :=
  (List.nodup_append.mp hsound.nodup).1

theorem Toggled.directions {active : Bool}
    (hsound : ItemsSound view failed successful nextServer nextItem)
    (htoggled : Toggled view changed id active)
    (hmem : id ∈ view.allChildren)
    (hbefore : view.items.isActive id = !active) :
    let down : ℤ := if view.items.isDownload id then 1 else 0
    let difference : ℤ := if active then 1 else -1
    (changed.allChildren.countP (countsDown changed.items) : ℤ) =
        view.allChildren.countP (countsDown view.items) +
          down * difference ∧
      (changed.allChildren.countP (countsUp changed.items) : ℤ) =
        view.allChildren.countP (countsUp view.items) +
          (1 - down) * difference := by
  have hnodup := nodup_allChildren hsound
  obtain ⟨hthis, hdirection, _⟩ := htoggled.this
  have hdown := countP_int hnodup hmem (countsDown view.items)
    (countsDown changed.items) fun another hne => by
      unfold countsDown
      rw [htoggled.isActive another hne, htoggled.isDownload]
  have hup := countP_int hnodup hmem (countsUp view.items)
    (countsUp changed.items) fun another hne => by
      unfold countsUp
      rw [htoggled.isActive another hne, htoggled.isDownload]
  unfold countsDown at hdown
  unfold countsUp at hup
  rw [hthis, hdirection, hbefore] at hdown hup
  rw [htoggled.allChildren]
  unfold countsDown countsUp
  cases active <;> cases hdownload : view.items.isDownload id <;>
    simp only [hdownload] at hdown hup ⊢ <;> simp at hdown hup ⊢ <;> omega

theorem Toggled.serverCount {active : Bool}
    (hsound : ItemsSound view failed successful nextServer nextItem)
    (htoggled : Toggled view changed id active)
    (hfound : view.server key = some server)
    (hmem : id ∈ server.children.live) (before later : List ItemId)
    (hagree : ∀ other, other ≠ id → (other ∈ later ↔ other ∈ before)) :
    ∀ entry ∈ changed.shape,
      (entry.2.countP (countsFor changed.items later) : ℤ) +
          (if entry.1 = key ∧ countsFor view.items before id then 1 else 0) =
        entry.2.countP (countsFor view.items before) +
          if entry.1 = key ∧ countsFor changed.items later id then 1
            else 0 := by
  have hothers : ∀ other, other ≠ id → countsFor changed.items later other =
      countsFor view.items before other := by
    intro other hne
    unfold countsFor
    rw [htoggled.isActive other hne, decide_eq_decide.mpr (hagree other hne)]
  intro entry hentry
  rw [htoggled.shape] at hentry
  rcases shape_cases hsound.servers hfound hmem entry hentry with
    ⟨hkey, hchildren⟩ | ⟨hkey, hnot⟩
  · have hcount := countP_int (nodup_of_server hsound.servers hfound) hmem
      _ _ hothers
    rw [hchildren]
    simpa only [hkey, true_and] using hcount
  · rw [if_neg fun h => hkey h.1, if_neg fun h => hkey h.1]
    congr 2
    apply List.countP_congr
    intro other hother
    rw [hothers other fun heq => hnot (heq ▸ hother)]

/-! ## Transfers begin and end -/

section Transfers

variable (hsound : ItemsSound view failed successful nextServer nextItem)
  (hcounted : Counted view resetting engineData activeCount activeCountDown
    activeCountUp serverActiveCount)
  (hfound : view.server key = some server)
  (hmem : id ∈ server.children.live)

include hsound hcounted hfound hmem

theorem Counted.assign {data : EngineData} {change : EngineData → EngineData}
    (htoggled : Toggled view changed id true)
    (hinactive : view.items.isActive id = false)
    (hunique : UniqueKeys.Unique EngineData.address engineData)
    (hdata : data ∈ engineData) (hidle : data.active = false)
    (hbusy : (change data).active = true) :
    Counted changed resetting
      (UniqueKeys.write EngineData.address data.address change engineData)
      (activeCount + 1)
      (activeCountDown + if view.items.isDownload id then 1 else 0)
      (activeCountUp + if view.items.isDownload id then 0 else 1)
      (Function.update serverActiveCount key
        (serverActiveCount key + 1)) := by
  have hin := mem_allChildren hfound hmem
  obtain ⟨hdown, hup⟩ := htoggled.directions hsound hin
    (hinactive.trans rfl)
  have hnot : id ∉ resetting := by
    intro hid
    have hactive := hcounted.resetting.2 id hid
    rw [hinactive] at hactive
    cases hactive
  have hserver := htoggled.serverCount hsound hfound hmem resetting resetting
    fun _ _ => Iff.rfl
  constructor
  · have hcount : (UniqueKeys.write EngineData.address data.address change
        engineData).countP EngineData.active + _ = _ :=
      hunique.countP_write hdata EngineData.active
    rw [hidle, hbusy, if_neg Bool.false_ne_true, if_pos rfl] at hcount
    rw [hcounted.records]
    omega
  · rw [hdown, hcounted.down]
    split <;> simp
  · rw [hup, hcounted.up]
    split <;> simp
  · intro entry hentry
    have hthis := hserver entry hentry
    rw [htoggled.shape] at hentry
    unfold countsFor at hthis
    rw [hinactive, htoggled.this.1, decide_eq_false hnot] at hthis
    by_cases hkey : entry.1 = key
    · have hold := hcounted.servers entry hentry
      rw [hkey] at hold ⊢
      rw [Function.update_self, hold]
      unfold countsFor
      simpa [hkey] using hthis.symm
    · rw [Function.update_of_ne hkey, hcounted.servers entry hentry]
      unfold countsFor
      simpa [hkey] using hthis.symm
  · refine ⟨hcounted.resetting.1, ?_⟩
    intro other hother
    rw [htoggled.isActive other fun heq => hnot (heq ▸ hother)]
    exact hcounted.resetting.2 other hother

theorem Counted.leave (hactive : view.items.isActive id = true)
    (hnot : id ∉ resetting) :
    0 < serverActiveCount key ∧
      Counted view (id :: resetting) engineData activeCount activeCountDown
        activeCountUp (Function.update serverActiveCount key
          (serverActiveCount key - 1)) := by
  have htoggled : Toggled view view id true :=
    ⟨hsound.servers, rfl, ⟨hactive, rfl, rfl⟩, fun _ _ => rfl⟩
  have hserver := htoggled.serverCount hsound hfound hmem resetting
    (id :: resetting) fun other hne =>
      ⟨fun h => (List.mem_cons.mp h).resolve_left hne,
        List.mem_cons_of_mem id⟩
  have hthis : ∀ entry ∈ view.shape, serverActiveCount entry.1 =
      (entry.2.countP (countsFor view.items (id :: resetting)) : ℤ) +
        if entry.1 = key then 1 else 0 := by
    intro entry hentry
    have hcount := hserver entry hentry
    have hbefore : countsFor view.items resetting id = true := by
      unfold countsFor
      rw [hactive, decide_eq_false hnot]
      rfl
    have hafter : countsFor view.items (id :: resetting) id = false := by
      unfold countsFor
      rw [decide_eq_true List.mem_cons_self]
      exact Bool.and_false _
    rw [hbefore, hafter] at hcount
    rw [hcounted.servers entry hentry]
    simpa using hcount.symm
  constructor
  · have hkey := hthis _ (mem_shape hfound)
    rw [if_pos rfl] at hkey
    rw [hkey]
    omega
  constructor
  · exact hcounted.records
  · exact hcounted.down
  · exact hcounted.up
  · intro entry hentry
    have hcount := hthis entry hentry
    by_cases hkey : entry.1 = key
    · rw [if_pos hkey] at hcount
      rw [hkey] at hcount ⊢
      rw [Function.update_self, hcount]
      omega
    · rw [if_neg hkey] at hcount
      rw [Function.update_of_ne hkey, hcount]
      omega
  · refine ⟨List.nodup_cons.mpr ⟨hnot, hcounted.resetting.1⟩, ?_⟩
    intro other hother
    rcases List.mem_cons.mp hother with rfl | hlater
    · exact hactive
    · exact hcounted.resetting.2 other hlater

theorem Counted.deactivate (htoggled : Toggled view changed id false)
    (hid : id ∈ resetting) :
    (if view.items.isDownload id then 0 < activeCountDown
      else 0 < activeCountUp) ∧
    Counted changed (resetting.erase id) engineData activeCount
      (activeCountDown - if view.items.isDownload id then 1 else 0)
      (activeCountUp - if view.items.isDownload id then 0 else 1)
      serverActiveCount := by
  have hactive := hcounted.resetting.2 id hid
  have hin := mem_allChildren hfound hmem
  have hnodup := hcounted.resetting.1
  obtain ⟨hdown, hup⟩ := htoggled.directions hsound hin (hactive.trans rfl)
  have hserver := htoggled.serverCount hsound hfound hmem resetting
    (resetting.erase id) fun other hne =>
      ⟨List.mem_of_mem_erase, hnodup.mem_erase_iff.mpr ∘ And.intro hne⟩
  refine ⟨?_, ?_, ?_, ?_, ?_, hnodup.erase id, ?_⟩
  · split
    · rename_i hdownload
      rw [if_pos hdownload, if_neg Bool.false_ne_true] at hdown
      rw [hcounted.down]
      omega
    · rename_i hupload
      rw [if_neg hupload, if_neg Bool.false_ne_true] at hup
      rw [hcounted.up]
      omega
  · exact hcounted.records
  · rw [hdown, hcounted.down, if_neg Bool.false_ne_true]
    omega
  · rw [hup, hcounted.up, if_neg Bool.false_ne_true]
    split
    · omega
    · omega
  · intro entry hentry
    have hcount := hserver entry hentry
    rw [htoggled.shape] at hentry
    have hbefore : countsFor view.items resetting id = false := by
      unfold countsFor
      rw [decide_eq_true hid]
      exact Bool.and_false _
    have hafter : countsFor changed.items (resetting.erase id) id = false := by
      unfold countsFor
      rw [htoggled.this.1]
      rfl
    rw [hbefore, hafter] at hcount
    rw [hcounted.servers entry hentry]
    simpa using hcount.symm
  · intro other hother
    obtain ⟨hne, hold⟩ := hnodup.mem_erase_iff.mp hother
    rw [htoggled.isActive other hne]
    exact hcounted.resetting.2 other hold

end Transfers

/-! ## Items are removed -/

structure Removed (view changed : QueueView) (id : ItemId) (destroy : Bool) :
    Prop where
  servers : ServersSound changed.serverList changed.items
  this : changed.items id = if destroy then none else view.items id
  others : ∀ other, other ≠ id → changed.items other = view.items other
  children : view.allChildren.Perm (id :: changed.allChildren)
  entries : ∀ entry ∈ changed.shape, ∃ other ∈ view.shape,
    other.1 = entry.1 ∧ entry.2 = other.2.erase id
  stays : ∀ entry ∈ view.shape, id ∉ entry.2 → entry ∈ changed.shape

theorem children_remaining (key : ServerId) (ids : List ItemId) :
    (remaining key ids).flatMap Prod.snd = ids := by
  unfold remaining
  split
  · rename_i hempty
    rw [hempty]
    rfl
  · simp

theorem removed_removeItem
    (hsound : ServersSound view.serverList view.items)
    (hfound : view.server key = some server)
    (hmem : id ∈ server.children.live) (item : FileItem)
    (destroy forward : Bool) :
    Removed view (view.removeItem key server id item destroy forward) id
      destroy := by
  obtain ⟨hservers, hthis, hothers, before, after, hshape, hchanged⟩ :=
    removeItem_spec hsound hfound hmem item destroy forward
  generalize view.removeItem key server id item destroy forward = changed at *
  have hcases := shape_cases hsound hfound hmem
  have hsame : ∀ entry ∈ before ++ after, entry.2.erase id = entry.2 := by
    intro entry hentry
    have hin : entry ∈ view.shape := by
      rw [hshape]
      rcases List.mem_append.mp hentry with hbefore | hafter
      · exact List.mem_append_left _ hbefore
      · exact List.mem_append_right _ (List.mem_cons_of_mem _ hafter)
    rcases hcases entry hin with ⟨hkey, _⟩ | ⟨_, hnot⟩
    · have hunique : (view.shape.map Prod.fst).Nodup := by
        have hkeys := hsound.unique
        unfold UniqueKeys.Unique at hkeys
        unfold shape shapeOf
        rw [List.map_map]
        exact hkeys
      rw [hshape] at hunique
      exact absurd hkey (UniqueKeys.Unique.ne_of_append hunique entry hentry)
    · exact List.erase_of_not_mem hnot
  refine ⟨hservers, hthis, hothers, ?_, ?_, ?_⟩
  · rw [view.allChildren_eq, changed.allChildren_eq, hshape, hchanged,
      List.flatMap_append, List.flatMap_append, List.flatMap_append,
      List.flatMap_cons, children_remaining]
    apply List.Perm.trans _ List.perm_middle
    apply List.Perm.append_left
    exact (List.perm_cons_erase hmem).append_right _
  · intro entry hentry
    rw [hchanged] at hentry
    rw [hshape]
    rcases List.mem_append.mp hentry with hbefore | hrest
    · exact ⟨entry, List.mem_append_left _ hbefore, rfl,
        (hsame entry (List.mem_append_left _ hbefore)).symm⟩
    · rcases List.mem_append.mp hrest with hremaining | hafter
      · refine ⟨(key, server.children.live),
          List.mem_append_right _ List.mem_cons_self, ?_⟩
        unfold remaining at hremaining
        split at hremaining
        · exact absurd hremaining List.not_mem_nil
        · rw [List.mem_singleton] at hremaining
          rw [hremaining]
          exact ⟨rfl, rfl⟩
      · exact ⟨entry,
          List.mem_append_right _ (List.mem_cons_of_mem _ hafter), rfl,
          (hsame entry (List.mem_append_right _ hafter)).symm⟩
  · intro entry hentry hnot
    rw [hshape] at hentry
    rw [hchanged]
    rcases List.mem_append.mp hentry with hbefore | hrest
    · exact List.mem_append_left _ hbefore
    · rcases List.mem_cons.mp hrest with hthis | hafter
      · rw [hthis] at hnot
        exact absurd hmem hnot
      · exact List.mem_append_right _ (List.mem_append_right _ hafter)

theorem Removed.isActive {destroy : Bool}
    (hremoved : Removed view changed id destroy)
    (hinactive : view.items.isActive id = false) (other : ItemId) :
    changed.items.isActive other = view.items.isActive other := by
  by_cases hne : other = id
  · rw [hne, hinactive]
    unfold Items.isActive
    rw [hremoved.this]
    split
    · rfl
    · exact hinactive
  · unfold Items.isActive
    rw [hremoved.others other hne]

section Removal

variable {destroy : Bool} (hsound : ItemsSound view failed successful
    nextServer nextItem)
  (hremoved : Removed view changed id destroy)
  (hinactive : view.items.isActive id = false)

include hsound hremoved hinactive

theorem ItemsSound.removed {failed' successful' : List ItemId}
    (hplaces : (failed' ++ successful').Perm
      (if destroy then failed ++ successful
        else id :: (failed ++ successful))) :
    ItemsSound changed failed' successful' nextServer nextItem := by
  have hnodup := (hremoved.children.append_right
    (failed ++ successful)).nodup_iff.mp hsound.nodup
  obtain ⟨hnew, hrest⟩ := List.nodup_cons.mp hnodup
  have hall : (changed.allChildren ++ (failed' ++ successful')).Perm
      (if destroy then changed.allChildren ++ (failed ++ successful)
        else id :: (changed.allChildren ++ (failed ++ successful))) := by
    apply (hplaces.append_left changed.allChildren).trans
    split
    · exact .refl _
    · exact List.perm_middle
  have hold : ∀ other, (view.items other).isSome = true ↔
      other = id ∨ other ∈ changed.allChildren ++ (failed ++ successful) := by
    intro other
    rw [hsound.placed other, (hremoved.children.append_right
      (failed ++ successful)).mem_iff]
    exact List.mem_cons
  constructor
  · exact hremoved.servers
  · intro entry hentry
    obtain ⟨other, hother, hkey, _⟩ := hremoved.entries entry hentry
    rw [← hkey]
    exact hsound.keys other hother
  · rw [hall.nodup_iff]
    split
    · exact hrest
    · exact List.nodup_cons.mpr ⟨hnew, hrest⟩
  · intro other
    rw [hall.mem_iff]
    by_cases hne : other = id
    · rw [hne, hremoved.this]
      split
      · exact ⟨fun h => absurd h Bool.false_ne_true, fun h => absurd h hnew⟩
      · exact ⟨fun _ => List.mem_cons_self,
          fun _ => (hold id).mpr (Or.inl rfl)⟩
    · rw [hremoved.others other hne, hold other]
      split
      · exact ⟨fun h => h.resolve_left hne, Or.inr⟩
      · exact List.mem_cons.symm
  · intro other hother
    apply hsound.fresh other
    by_cases hne : other = id
    · rw [hne]
      exact (hold id).mpr (Or.inl rfl)
    · rwa [hremoved.others other hne] at hother
  · intro other hother
    rw [hremoved.isActive hinactive other] at hother
    have hin := hsound.active other hother
    rw [hremoved.children.mem_iff] at hin
    apply (List.mem_cons.mp hin).resolve_left
    intro heq
    rw [heq, hinactive] at hother
    cases hother

theorem Counted.removed
    (hcounted : Counted view resetting engineData activeCount activeCountDown
      activeCountUp serverActiveCount) :
    Counted changed resetting engineData activeCount activeCountDown
      activeCountUp serverActiveCount := by
  have hactive := hremoved.isActive hinactive
  have hnew : id ∉ changed.allChildren :=
    (List.nodup_cons.mp (hremoved.children.nodup_iff.mp
      (nodup_allChildren hsound))).1
  have hsame : ∀ {ids : List ItemId} {keep other : ItemId → Bool},
      id ∉ ids → (∀ another, another ≠ id → other another = keep another) →
      ids.countP other = ids.countP keep := by
    intro ids keep other hnot hagree
    apply List.countP_congr
    intro another hanother
    rw [hagree another fun heq => hnot (heq ▸ hanother)]
  have hdownload : ∀ other, other ≠ id → changed.items.isDownload other =
      view.items.isDownload other := by
    intro other hne
    unfold Items.isDownload
    rw [hremoved.others other hne]
  constructor
  · exact hcounted.records
  · rw [hcounted.down, hremoved.children.countP_eq, List.countP_cons_of_neg
      (by unfold countsDown; rw [hinactive]; exact Bool.false_ne_true)]
    congr 1
    refine (hsame hnew fun other hne => ?_).symm
    unfold countsDown
    rw [hactive, hdownload other hne]
  · rw [hcounted.up, hremoved.children.countP_eq, List.countP_cons_of_neg
      (by unfold countsUp; rw [hinactive]; exact Bool.false_ne_true)]
    congr 1
    refine (hsame hnew fun other hne => ?_).symm
    unfold countsUp
    rw [hactive, hdownload other hne]
  · intro entry hentry
    obtain ⟨other, hother, hkey, hchildren⟩ := hremoved.entries entry hentry
    have hcount : countsFor changed.items resetting =
        countsFor view.items resetting := by
      funext another
      unfold countsFor
      rw [hactive]
    rw [← hkey, hcounted.servers other hother, hchildren, hcount]
    congr 1
    by_cases hin : id ∈ other.2
    · rw [(List.perm_cons_erase hin).countP_eq, List.countP_cons_of_neg]
      unfold countsFor
      rw [hinactive]
      exact Bool.false_ne_true
    · rw [List.erase_of_not_mem hin]
  · refine ⟨hcounted.resetting.1, ?_⟩
    intro other hother
    rw [hactive]
    exact hcounted.resetting.2 other hother

end Removal

theorem ItemsSound.removeAll
    (hsound : ItemsSound view failed successful nextServer nextItem) :
    ItemsSound view.removeAll failed successful nextServer nextItem ∧
      (∀ id, view.removeAll.items.isActive id = view.items.isActive id) ∧
      view.removeAll.allChildren =
        view.allChildren.filter view.items.isActive := by
  obtain ⟨hservers, hshape, hitems⟩ := removeAll_spec hsound.servers
  have hchildren : view.removeAll.allChildren =
      view.allChildren.filter view.items.isActive := by
    rw [allChildren_eq, hshape, view.allChildren_eq, List.flatMap_assoc,
      List.filter_flatMap]
    apply List.flatMap_congr
    intro entry _
    exact children_remaining entry.1 _
  have hsome : ∀ id, (view.removeAll.items id).isSome = true ↔
      (view.items id).isSome = true ∧
        (id ∈ view.allChildren → view.items.isActive id = true) := by
    intro id
    rw [hitems]
    unfold Items.isActive ItemQueue.kept
    by_cases hin : id ∈ view.allChildren
    · rw [if_pos hin]
      cases view.items id with
      | none => simp
      | some item => cases hactive : item.active <;> simp [hin, hactive]
    · simp [hin]
  have hactive : ∀ id, view.removeAll.items.isActive id =
      view.items.isActive id := by
    intro id
    unfold Items.isActive
    rw [hitems]
    split
    · cases hitem : view.items id with
      | none => rfl
      | some item =>
          have hsame : (item.setPendingRemove true).active = item.active :=
            congrArg (fun part => part.2.1)
              (item.activity_setPendingRemove true)
          unfold ItemQueue.kept
          rw [Option.bind_some]
          split
          · exact hsame
          · rename_i hnot
            exact (eq_false_of_ne_true hnot).symm
    · rfl
  refine ⟨⟨hservers, ?_, ?_, ?_, ?_, ?_⟩, hactive, hchildren⟩
  · intro entry hentry
    rw [hshape] at hentry
    obtain ⟨other, hother, hpart⟩ := List.mem_flatMap.mp hentry
    unfold activePart remaining at hpart
    split at hpart
    · exact absurd hpart List.not_mem_nil
    · rw [List.mem_singleton] at hpart
      rw [hpart]
      exact hsound.keys other hother
  · rw [hchildren]
    apply List.Nodup.sublist _ hsound.nodup
    exact (List.filter_sublist).append_right _
  · intro id
    rw [hsome, hsound.placed, hchildren]
    simp only [List.mem_append (t := failed ++ successful), List.mem_filter]
    have hdisjoint := List.disjoint_of_nodup_append hsound.nodup
    constructor
    · intro h
      rcases h.1 with hin | hother
      · exact Or.inl ⟨hin, h.2 hin⟩
      · exact Or.inr hother
    · intro h
      rcases h with ⟨hin, hthis⟩ | hother
      · exact ⟨Or.inl hin, fun _ => hthis⟩
      · exact ⟨Or.inr hother, fun hin => absurd hother (hdisjoint hin)⟩
  · intro id hid
    exact hsound.fresh id ((hsome id).mp hid).1
  · intro id hid
    rw [hactive] at hid
    rw [hchildren]
    exact List.mem_filter.mpr ⟨hsound.active id hid, hid⟩

theorem Counted.removeAll
    (hsound : ItemsSound view failed successful nextServer nextItem)
    (hcounted : Counted view resetting engineData activeCount activeCountDown
      activeCountUp serverActiveCount) :
    Counted view.removeAll resetting engineData activeCount activeCountDown
      activeCountUp serverActiveCount := by
  obtain ⟨_, hshape, hitems⟩ := removeAll_spec hsound.servers
  obtain ⟨_, hactive, hchildren⟩ := hsound.removeAll
  have hdownload : ∀ id, view.items.isActive id = true →
      view.removeAll.items.isDownload id = view.items.isDownload id := by
    intro id hid
    obtain ⟨item, hitem, hthis⟩ := (Option.any_eq_true _ _).mp hid
    have hsame : (item.setPendingRemove true).download = item.download :=
      congrArg (fun part => part.2.2) (item.activity_setPendingRemove true)
    unfold Items.isDownload
    rw [hitems, if_pos (hsound.active id hid), hitem, Option.bind_some,
      ItemQueue.kept, if_pos hthis, Option.any_some, Option.any_some, hsame]
  have hfilter : ∀ {ids : List ItemId} {keep other : ItemId → Bool},
      (∀ id, keep id = true → view.items.isActive id = true) →
      (∀ id, view.items.isActive id = true → other id = keep id) →
      (ids.filter view.items.isActive).countP other = ids.countP keep := by
    intro ids keep other hkeep hagree
    rw [List.countP_filter]
    apply List.countP_congr
    intro id _
    cases hthis : view.items.isActive id with
    | true => rw [Bool.and_true, hagree id hthis]
    | false =>
        rw [Bool.and_false]
        refine ⟨fun h => absurd h Bool.false_ne_true, fun h => ?_⟩
        rw [hkeep id h] at hthis
        cases hthis
  constructor
  · exact hcounted.records
  · rw [hcounted.down, hchildren]
    congr 1
    apply (hfilter _ _).symm
    · intro id hid
      exact (Bool.and_eq_true_iff.mp hid).1
    · intro id hid
      unfold countsDown
      rw [hactive, hdownload id hid]
  · rw [hcounted.up, hchildren]
    congr 1
    apply (hfilter _ _).symm
    · intro id hid
      exact (Bool.and_eq_true_iff.mp hid).1
    · intro id hid
      unfold countsUp
      rw [hactive, hdownload id hid]
  · intro entry hentry
    rw [hshape] at hentry
    obtain ⟨other, hother, hpart⟩ := List.mem_flatMap.mp hentry
    unfold activePart remaining at hpart
    split at hpart
    · exact absurd hpart List.not_mem_nil
    · rw [List.mem_singleton] at hpart
      rw [hpart, hcounted.servers other hother]
      congr 1
      apply (hfilter _ _).symm
      · intro id hid
        exact (Bool.and_eq_true_iff.mp hid).1
      · intro id _
        unfold countsFor
        rw [hactive]
  · refine ⟨hcounted.resetting.1, ?_⟩
    intro id hid
    rw [hactive]
    exact hcounted.resetting.2 id hid

/-! ## Items are added -/

theorem insertItem_sound
    (hsound : ItemsSound view failed successful nextServer nextItem)
    (hfound : view.server key = some server) (item : FileItem)
    (hplain : item.active = false) :
    let written := { view with items := view.items.write nextItem item }
    let changed := written.insertItem key server nextItem item
    ItemsSound changed failed successful nextServer (nextItem + 1) ∧
      (∀ id, changed.items.isActive id = view.items.isActive id) ∧
      ∀ {resetting : List ItemId} {engineData : List EngineData}
        {activeCount activeCountDown activeCountUp : ℤ}
        {serverActiveCount : ServerId → ℤ},
        Counted view resetting engineData activeCount activeCountDown
          activeCountUp serverActiveCount →
        Counted changed resetting engineData activeCount activeCountDown
          activeCountUp serverActiveCount := by
  intro written
  have hnone : view.items nextItem = none := by
    cases hitem : view.items nextItem with
    | none => rfl
    | some other =>
        have hlt := hsound.fresh nextItem (by rw [hitem]; rfl)
        exact absurd hlt (Nat.lt_irrefl _)
  have hnew : nextItem ∉
      view.allChildren ++ (failed ++ successful) := by
    rw [← hsound.placed, hnone]
    exact Bool.false_ne_true
  have hnewChild : nextItem ∉ view.allChildren := fun h =>
    hnew (List.mem_append_left _ h)
  have hothers : ∀ other, other ≠ nextItem →
      written.items other = view.items other := fun _ =>
    Items.write_of_ne
  have hframed : ServersSound written.serverList written.items := by
    apply hsound.servers.frame
    intro id hid
    exact .of_eq (hothers id fun heq => hnewChild (heq ▸ hid))
  have hserver : written.server key = some server := hfound
  obtain ⟨hservers, hitems, before, after, hshape, hchanged⟩ :=
    insertItem_spec hframed hserver Items.write_self hnewChild
  intro changed
  have hactive : ∀ id, changed.items.isActive id = view.items.isActive id := by
    intro id
    unfold Items.isActive
    rw [hitems]
    by_cases hne : id = nextItem
    · rw [hne, hnone]
      show Option.any _ (view.items.write nextItem item nextItem) = false
      rw [Items.write_self]
      exact hplain
    · rw [hothers id hne]
  have hdownload : ∀ id, id ≠ nextItem → changed.items.isDownload id =
      view.items.isDownload id := by
    intro id hne
    unfold Items.isDownload
    rw [hitems, hothers id hne]
  have hinactive : view.items.isActive nextItem = false := by
    unfold Items.isActive
    rw [hnone]
    rfl
  have hchildren : changed.allChildren.Perm (nextItem :: view.allChildren) := by
    have hold : view.shape = before ++ (key, server.children.live) :: after :=
      hshape
    rw [changed.allChildren_eq, view.allChildren_eq, hchanged, hold,
      List.flatMap_append, List.flatMap_append, List.flatMap_cons,
      List.flatMap_cons]
    apply List.Perm.trans _ List.perm_middle
    apply List.Perm.append_left
    rw [List.append_assoc]
    exact List.perm_middle
  have hcount : ∀ {keep other : ItemId → Bool}, other nextItem = false →
      (∀ id, id ≠ nextItem → other id = keep id) →
      changed.allChildren.countP other = view.allChildren.countP keep := by
    intro keep other hfalse hagree
    rw [hchildren.countP_eq, List.countP_cons_of_neg
      (by rw [hfalse]; exact Bool.false_ne_true)]
    apply List.countP_congr
    intro id hid
    rw [hagree id fun heq => hnewChild (heq ▸ hid)]
  refine ⟨?_, hactive, ?_⟩
  · have hall := hchildren.append_right (failed ++ successful)
    constructor
    · exact hservers
    · intro entry hentry
      have hold : view.shape = before ++ (key, server.children.live) :: after :=
        hshape
      rw [hchanged] at hentry
      rcases List.mem_append.mp hentry with hbefore | hrest
      · exact hsound.keys entry (hold ▸ List.mem_append_left _ hbefore)
      · rcases List.mem_cons.mp hrest with rfl | hafter
        · exact hsound.keys (key, server.children.live) (mem_shape hfound)
        · exact hsound.keys entry (hold ▸ List.mem_append_right _
            (List.mem_cons_of_mem _ hafter))
    · exact hall.nodup_iff.mpr (List.nodup_cons.mpr ⟨hnew, hsound.nodup⟩)
    · intro id
      rw [hall.mem_iff, List.cons_append, List.mem_cons, hitems,
        ← hsound.placed]
      by_cases hne : id = nextItem
      · rw [hne]
        show Option.isSome (view.items.write nextItem item nextItem) = true ↔ _
        rw [Items.write_self]
        exact ⟨fun _ => Or.inl rfl, fun _ => rfl⟩
      · rw [hothers id hne]
        exact ⟨Or.inr, fun h => h.resolve_left hne⟩
    · intro id hid
      by_cases hne : id = nextItem
      · rw [hne]
        exact Nat.lt_succ_self nextItem
      · rw [hitems, hothers id hne] at hid
        exact (hsound.fresh id hid).trans (Nat.lt_succ_self nextItem)
    · intro id hid
      rw [hactive] at hid
      exact hchildren.mem_iff.mpr
        (List.mem_cons_of_mem _ (hsound.active id hid))
  · intro resetting _ _ _ _ _ hcounted
    constructor
    · exact hcounted.records
    · rw [hcounted.down]
      congr 1
      apply (hcount _ _).symm
      · unfold countsDown
        rw [hactive, hinactive]
        rfl
      · intro id hne
        unfold countsDown
        rw [hactive, hdownload id hne]
    · rw [hcounted.up]
      congr 1
      apply (hcount _ _).symm
      · unfold countsUp
        rw [hactive, hinactive]
        rfl
      · intro id hne
        unfold countsUp
        rw [hactive, hdownload id hne]
    · have hfor : countsFor changed.items resetting =
          countsFor view.items resetting := by
        funext id
        unfold countsFor
        rw [hactive]
      have hold : view.shape = before ++ (key, server.children.live) :: after :=
        hshape
      intro entry hentry
      rw [hfor]
      rw [hchanged] at hentry
      rcases List.mem_append.mp hentry with hbefore | hrest
      · exact hcounted.servers entry (hold ▸ List.mem_append_left _ hbefore)
      · rcases List.mem_cons.mp hrest with rfl | hafter
        · rw [hcounted.servers _ (mem_shape hfound), List.countP_append]
          have hzero : [nextItem].countP (countsFor view.items resetting) =
              0 := by
            rw [List.countP_singleton, if_neg]
            unfold countsFor
            rw [hinactive]
            exact Bool.false_ne_true
          rw [hzero, Nat.add_zero]
        · exact hcounted.servers entry (hold ▸ List.mem_append_right _
            (List.mem_cons_of_mem _ hafter))
    · refine ⟨hcounted.resetting.1, ?_⟩
      intro id hid
      rw [hactive]
      exact hcounted.resetting.2 id hid

end TransferQueue

end TabFtp
