import TabFtp.TransferAccounting

/-!
# The single changes of the transfer queue

Each change that the routines of the queue view are made of keeps what is said
of the items, the records and the counters.
-/

namespace TabFtp

namespace TransferQueue

open QueueView

variable {queue : TransferQueue} {known : ℕ → Prop} {id : ItemId}
  {key : ServerId} {server : ServerItem} {data : EngineData}

/-! ## Looking up -/

section Lookup

variable (hservers : ServersSound queue.view.serverList queue.view.items)

include hservers

theorem server_of_mem {entry : ServerId × ServerItem}
    (hentry : entry ∈ queue.view.serverList) :
    queue.view.server entry.1 = some entry.2 := by
  unfold QueueView.server
  rw [hservers.unique.find hentry fun other _ => by rw [decide_eq_true_eq]]
  rfl

theorem topLevelItem_some
    (hfound : queue.topLevelItem id = some (key, server)) :
    queue.view.server key = some server ∧ id ∈ server.children.live := by
  have hmem := List.mem_of_find?_eq_some hfound
  have hchild := List.find?_some hfound
  exact ⟨server_of_mem hservers hmem, of_decide_eq_true hchild⟩

theorem exists_topLevelItem (hmem : id ∈ queue.view.allChildren) :
    ∃ key server, queue.topLevelItem id = some (key, server) ∧
      queue.view.server key = some server ∧ id ∈ server.children.live := by
  obtain ⟨entry, hentry, hchild⟩ := List.mem_flatMap.mp hmem
  cases hfound : queue.topLevelItem id with
  | none =>
      have hnot := List.find?_eq_none.mp hfound entry hentry
      exact absurd (decide_eq_true hchild) hnot
  | some found =>
      obtain ⟨key, server⟩ := found
      exact ⟨key, server, rfl, topLevelItem_some hservers hfound⟩

theorem onServer_calm (key : ServerId) {operation : ItemQueue → ItemQueue}
    (hcalm : ∀ tree : ItemQueue, tree.Sound → tree.Calm (operation tree)) :
    ∃ changed, queue.onServer key operation =
        { queue with view := changed } ∧ queue.view.Calm changed := by
  unfold TransferQueue.onServer
  split
  · exact ⟨queue.view, rfl, hservers, rfl, fun _ => .of_eq rfl⟩
  · rename_i server hfound
    exact ⟨_, rfl, calm_put hservers hfound (hcalm _ (hservers.queue hfound))⟩

theorem removeItem_removed (hmem : id ∈ queue.view.allChildren)
    (destroy forward : Bool) :
    ∃ changed, (queue.removeItem id destroy forward).1 =
        { queue with view := changed } ∧
      Removed queue.view changed id destroy := by
  obtain ⟨key, server, hfound, hserver, hchild⟩ :=
    exists_topLevelItem hservers hmem
  obtain ⟨item, hitem⟩ := Option.isSome_iff_exists.mp (hservers.known id hmem)
  unfold TransferQueue.removeItem TransferQueue.item
  rw [hfound, hitem]
  exact ⟨_, rfl, removed_removeItem hservers hserver hchild item destroy
    forward⟩

end Lookup

theorem removeItem_absent (hnot : id ∉ queue.view.allChildren)
    (destroy forward : Bool) :
    queue.removeItem id destroy forward = (queue, false) := by
  have hnone : queue.topLevelItem id = none := by
    apply List.find?_eq_none.mpr
    intro entry hentry hchild
    exact hnot (mem_childrenOf hentry (of_decide_eq_true hchild))
  unfold TransferQueue.removeItem
  rw [hnone]

theorem find_mem {address : ℕ} (hfound : queue.find address = some data) :
    data ∈ queue.engineData ∧ data.address = address := by
  have haddress := List.find?_some hfound
  exact ⟨List.mem_of_find?_eq_some hfound, of_decide_eq_true haddress⟩

theorem Sound.find (hsound : queue.Sound known)
    (hdata : data ∈ queue.engineData) :
    queue.find data.address = some data :=
  hsound.records.addresses.find hdata fun _ _ => decide_eq_true_iff

theorem isActiveItem_eq (queue : TransferQueue) (id : ItemId) :
    queue.isActiveItem id = queue.view.items.isActive id := rfl

/-! ## The tree stays -/

theorem Sound.calm (hsound : queue.Sound known) {changed : QueueView}
    (hcalm : queue.view.Calm changed) :
    Sound { queue with view := changed } known := by
  constructor
  · exact hsound.items.calm hcalm
  · exact hsound.records.calm fun id => (hcalm.activity id).isActive
  · exact hsound.counted.calm hcalm
  · exact hsound.plain

theorem calm_refl (hsound : queue.Sound known) :
    queue.view.Calm queue.view :=
  ⟨hsound.items.servers, rfl, fun _ => .of_eq rfl⟩

theorem Sound.onServer (hsound : queue.Sound known) (key : ServerId)
    {operation : ItemQueue → ItemQueue}
    (hcalm : ∀ tree : ItemQueue, tree.Sound → tree.Calm (operation tree)) :
    (queue.onServer key operation).Sound known := by
  obtain ⟨changed, heq, hchanged⟩ :=
    onServer_calm hsound.items.servers key hcalm
  rw [heq]
  exact hsound.calm hchanged

theorem getServerChild_calm (hsound : queue.Sound known) (key : ServerId)
    (row : ℕ) :
    ∃ changed, (queue.getServerChild key row).2 =
        { queue with view := changed } ∧ queue.view.Calm changed := by
  unfold TransferQueue.getServerChild
  split
  · exact ⟨queue.view, rfl, calm_refl hsound⟩
  · rename_i server hfound
    have htree := hsound.items.servers.queue hfound
    exact ⟨_, rfl, calm_put hsound.items.servers hfound
      (ItemQueue.calm_getChild htree row)⟩

theorem Sound.getServerChild (hsound : queue.Sound known) (key : ServerId)
    (row : ℕ) : (queue.getServerChild key row).2.Sound known := by
  obtain ⟨changed, heq, hcalm⟩ := getServerChild_calm hsound key row
  rw [heq]
  exact hsound.calm hcalm

structure Unnoticed (change : FileItem → FileItem) : Prop where
  activity : ∀ item, (change item).activity = item.activity
  children : ∀ item, (change item).children = item.children
  lists : ∀ item, (change item).queued = item.queued ∧
    (change item).priority = item.priority

theorem calm_modifyItem (hsound : queue.Sound known) (id : ItemId)
    {change : FileItem → FileItem} (hchange : Unnoticed change) :
    queue.view.Calm (queue.modifyItem id change).view := by
  unfold TransferQueue.modifyItem
  simp only
  cases hitem : queue.view.items id with
  | none =>
      have hsame : queue.view.items.modify id change = queue.view.items := by
        unfold Items.modify
        rw [hitem]
      rw [hsame]
      exact calm_refl hsound
  | some item =>
      have hwritten : queue.view.items.modify id change =
          queue.view.items.write id (change item) := by
        unfold Items.modify
        rw [hitem]
      rw [hwritten]
      refine ⟨?_, rfl, Items.sameActivity_write hitem
        (item.shown_of_activity (hchange.activity item)
          (hchange.children item))⟩
      apply hsound.items.servers.frame
      intro other _
      refine ⟨Items.statuses_write_of_children hitem (hchange.children item)
        other, ?_⟩
      exact Items.listOf_write_of_same hitem (hchange.lists item).1
        (hchange.lists item).2 other

theorem Sound.modifyItem (hsound : queue.Sound known) (id : ItemId)
    {change : FileItem → FileItem} (hchange : Unnoticed change) :
    (queue.modifyItem id change).Sound known :=
  hsound.calm (calm_modifyItem hsound id hchange)

theorem unnoticed_errorCount :
    Unnoticed fun item => { item with errorCount := item.errorCount + 1 } :=
  ⟨fun _ => rfl, fun _ => rfl, fun _ => ⟨rfl, rfl⟩⟩

theorem unnoticed_setMadeProgress (on : Bool) :
    Unnoticed fun item => item.setMadeProgress on := by
  constructor
  · intro item
    exact item.activity_setMadeProgress on
  · intro item
    rfl
  · intro item
    exact ⟨TransferFlags.has_assign_of_disjoint (by decide) (by decide) _ _,
      rfl⟩

theorem unnoticed_setPendingRemove (on : Bool) :
    Unnoticed fun item => item.setPendingRemove on := by
  constructor
  · intro item
    exact item.activity_setPendingRemove on
  · intro item
    rfl
  · intro item
    exact ⟨item.queued_setPendingRemove on, rfl⟩

/-! ## Items come and go -/

theorem Sound.createServerItem (hsound : queue.Sound known)
    (site : QueueSite) :
    (queue.createServerItem site).2.Sound known ∧
      ((queue.createServerItem site).2.view.server
        (queue.createServerItem site).1).isSome := by
  unfold TransferQueue.createServerItem
  cases hfound : queue.getServerItem site with
  | some key =>
      obtain ⟨entry, hentry, rfl⟩ := Option.map_eq_some_iff.mp hfound
      refine ⟨hsound, ?_⟩
      rw [server_of_mem hsound.items.servers
        (List.mem_of_find?_eq_some hentry)]
      rfl
  | none =>
      have hkeys : ∀ entry ∈ queue.view.serverList,
          entry.1 ≠ queue.nextServer := by
        intro entry hentry
        apply (hsound.items.keys (entry.1, entry.2.children.live) _).ne
        exact List.mem_map_of_mem hentry
      have hservers : ServersSound
          (queue.view.serverList ++ [(queue.nextServer, ServerItem.empty)])
          queue.view.items := by
        have hall : ServersSound (queue.view.serverList ++ [])
            queue.view.items := by
          rw [List.append_nil]
          exact hsound.items.servers
        apply ServersSound.insertMiddle queue.view.serverList [] hall _
          (ItemQueue.sound_empty queue.view.items)
        · intro id hid
          exact absurd hid List.not_mem_nil
        · intro id _
          rfl
        · intro entry hentry
          rw [List.append_nil] at hentry
          exact hkeys entry hentry
      have hshape : (queue.view.createServerItem queue.nextServer).shape =
          queue.view.shape ++ [(queue.nextServer, [])] := List.map_append
      have hchildren : (queue.view.createServerItem
          queue.nextServer).allChildren = queue.view.allChildren := by
        rw [allChildren_eq, hshape, List.flatMap_append, allChildren_eq]
        exact List.append_nil _
      refine ⟨⟨?_, hsound.records, ?_, hsound.plain⟩, ?_⟩
      · constructor
        · exact hservers
        · intro entry hentry
          rcases List.mem_append.mp (hshape ▸ hentry) with hold | hnew
          · exact (hsound.items.keys entry hold).trans
              (Nat.lt_succ_self queue.nextServer)
          · rw [List.mem_singleton.mp hnew]
            exact Nat.lt_succ_self queue.nextServer
        · rw [hchildren]
          exact hsound.items.nodup
        · intro id
          rw [hchildren]
          exact hsound.items.placed id
        · exact hsound.items.fresh
        · intro id hactive
          rw [hchildren]
          exact hsound.items.active id hactive
      · constructor
        · exact hsound.counted.records
        · rw [hchildren]
          exact hsound.counted.down
        · rw [hchildren]
          exact hsound.counted.up
        · intro entry hentry
          rcases List.mem_append.mp (hshape ▸ hentry) with hold | hnew
          · have hne := (hsound.items.keys entry hold).ne
            simp only [Function.update_of_ne hne]
            exact hsound.counted.servers entry hold
          · rw [List.mem_singleton.mp hnew]
            simp
        · exact hsound.counted.resetting
      · simp only
        unfold QueueView.server QueueView.createServerItem
        rw [Option.isSome_map, List.find?_isSome]
        exact ⟨(queue.nextServer, ServerItem.empty),
          List.mem_append_right _ List.mem_cons_self, decide_eq_true rfl⟩

theorem RecordsSound.pointers {nextAddress : ℕ} {items : Items}
    {engineDataOf pointers : ItemId → Option ℕ} {engineData : List EngineData}
    (hsound : RecordsSound known nextAddress items engineDataOf engineData)
    (hsame : ∀ id, items.isActive id = true →
      pointers id = engineDataOf id) :
    RecordsSound known nextAddress items pointers engineData := by
  constructor
  · exact hsound.addresses
  · exact hsound.engines
  · intro data hdata
    have hthis := hsound.each data hdata
    apply hthis.congr (Nat.le_refl _)
    intro id hid
    exact ⟨rfl, hsame id (hthis.item id hid).1⟩
  · exact hsound.owned

theorem Sound.insertItem (hsound : queue.Sound known) (key : ServerId)
    {file : NewFile} (hplain : file.isPlain = true)
    {onSuccess : Option NewFile}
    (haction : ∀ later, onSuccess = some later → later.isPlain = true) :
    (queue.insertItem key file.item onSuccess).Sound known := by
  have hinactive : file.item.active = false := by
    unfold NewFile.isPlain at hplain
    rw [Bool.and_eq_true, Bool.not_eq_true'] at hplain
    exact hplain.1
  unfold TransferQueue.insertItem
  split
  · exact hsound
  · rename_i server hfound
    obtain ⟨hitems, hactive, hcounted⟩ :=
      insertItem_sound hsound.items hfound file.item hinactive
    constructor
    · exact hitems
    · apply (hsound.records.calm hactive).pointers
      intro id hid
      rw [hactive] at hid
      have hlt := hsound.items.fresh id (by
        rw [Option.isSome_iff_exists]
        obtain ⟨item, hitem, _⟩ := (Option.any_eq_true _ _).mp hid
        exact ⟨item, hitem⟩)
      exact Function.update_of_ne hlt.ne _ _
    · exact hcounted hsound.counted
    · intro id later hlater
      simp only at hlater
      by_cases hne : id = queue.nextItem
      · rw [hne, Function.update_self] at hlater
        exact haction later hlater
      · rw [Function.update_of_ne hne] at hlater
        exact hsound.plain id later hlater

theorem Sound.removeItem (hsound : queue.Sound known)
    (hinactive : queue.view.items.isActive id = false) (forward : Bool) :
    (queue.removeItem id true forward).1.Sound known := by
  by_cases hmem : id ∈ queue.view.allChildren
  · obtain ⟨changed, heq, hremoved⟩ :=
      removeItem_removed hsound.items.servers hmem true forward
    rw [heq]
    constructor
    · exact hsound.items.removed hremoved hinactive (.refl _)
    · exact hsound.records.calm (hremoved.isActive hinactive)
    · exact Counted.removed hsound.items hremoved hinactive hsound.counted
    · exact hsound.plain
  · rw [removeItem_absent hmem]
    exact hsound

theorem Sound.removeAll (hsound : queue.Sound known) :
    Sound { queue with view := queue.view.removeAll } known := by
  obtain ⟨hitems, hactive, _⟩ := hsound.items.removeAll
  constructor
  · exact hitems
  · exact hsound.records.calm hactive
  · exact Counted.removeAll hsound.items hsound.counted
  · exact hsound.plain

/-! ## Records come and go -/

theorem Sound.createEngine (hsound : queue.Sound known) :
    queue.createEngine.Sound known := by
  constructor
  · exact hsound.items
  · apply hsound.records.append rfl
    · intro other hother
      exact hsound.records.own_ne hother
    · constructor
      · exact Nat.lt_succ_self queue.nextAddress
      · intro _
        rfl
      · intro h
        cases h
      · intro h
        cases h
      · intro _
        exact ⟨rfl, Or.inl rfl⟩
      · intro h
        cases h
      · intro id h
        cases h
      · intro id h
        cases h
  · have hcounted := hsound.counted
    refine ⟨?_, hcounted.down, hcounted.up, hcounted.servers,
      hcounted.resetting⟩
    show queue.activeCount = _
    rw [hcounted.records]
    unfold TransferQueue.createEngine
    rw [List.countP_append]
    rfl
  · exact hsound.plain

theorem getEngineData_none {engine : Engine}
    (hnone : queue.getEngineData engine = none)
    (hdata : data ∈ queue.engineData) : data.engine ≠ engine := by
  intro heq
  exact List.find?_eq_none.mp hnone data hdata (decide_eq_true heq)

theorem Sound.createTransient (hsound : queue.Sound known) {context : ℕ}
    (hknown : known context)
    (hnone : queue.getEngineData (.browsing context) = none) :
    (queue.createTransient context).Sound known := by
  constructor
  · exact hsound.items
  · apply hsound.records.append rfl
    · intro other hother
      exact getEngineData_none hnone hother
    · constructor
      · exact Nat.lt_succ_self queue.nextAddress
      · intro h
        cases h
      · intro _
        exact ⟨context, rfl, hknown⟩
      · intro _
        rfl
      · intro _
        exact ⟨rfl, Or.inr rfl⟩
      · intro h
        cases h
      · intro id h
        cases h
      · intro id h
        cases h
  · have hcounted := hsound.counted
    refine ⟨?_, hcounted.down, hcounted.up, hcounted.servers,
      hcounted.resetting⟩
    show queue.activeCount = _
    rw [hcounted.records]
    unfold TransferQueue.createTransient
    rw [List.countP_append]
    rfl
  · exact hsound.plain

theorem Sound.eraseTransient (hsound : queue.Sound known) :
    queue.eraseTransient.Sound known := by
  constructor
  · exact hsound.items
  · apply hsound.records.filter
    intro data hactive
    rw [hactive]
    rfl
  · have hcounted := hsound.counted
    refine ⟨?_, hcounted.down, hcounted.up, hcounted.servers,
      hcounted.resetting⟩
    show queue.activeCount = _
    rw [hcounted.records]
    unfold TransferQueue.eraseTransient
    rw [List.countP_filter]
    congr 1
    apply List.countP_congr
    intro data _
    cases data.active <;> simp
  · exact hsound.plain

theorem Sound.setState (hsound : queue.Sound known)
    (hdata : data ∈ queue.engineData) (hitem : data.item = some id)
    {state : EngineState} (hnone : state ≠ .none) (hlist : state ≠ .list)
    (hwaiting : state = .waitprimary → data.transient = true) :
    (queue.setState data.address state).Sound known := by
  have hthis := hsound.records.each data hdata
  obtain ⟨hactive, _, _⟩ := hthis.busy id hitem
  constructor
  · exact hsound.items
  · apply hsound.records.writeState hdata
    · intro _
      rfl
    · intro _
      rfl
    · rfl
    · constructor
      · exact hthis.address
      · exact hthis.own
      · exact hthis.browsing
      · exact hwaiting
      · intro hidle
        rw [hactive] at hidle
        cases hidle
      · intro _ hempty
        rw [hitem] at hempty
        cases hempty
      · intro other _
        exact ⟨hactive, hnone, hlist⟩
      · exact hthis.item
  · have hcounted := hsound.counted
    refine ⟨?_, hcounted.down, hcounted.up, hcounted.servers,
      hcounted.resetting⟩
    have hcount : (queue.setState data.address state).engineData.countP
        EngineData.active + _ = _ :=
      hsound.records.addresses.countP_write hdata EngineData.active
    simp only [hactive, if_true] at hcount
    show queue.activeCount = _
    rw [hcounted.records]
    omega
  · exact hsound.plain

theorem Sound.startListing (hsound : queue.Sound known)
    (hdata : data ∈ queue.engineData) (hidle : data.active = false)
    (hown : data.transient = false) :
    Sound ({ queue with activeCount := queue.activeCount + 1 }.modify
      data.address fun data => { data with active := true, state := .list })
      known := by
  have hthis := hsound.records.each data hdata
  obtain ⟨hempty, _⟩ := hthis.idle hidle
  constructor
  · exact hsound.items
  · apply hsound.records.writeState hdata
    · intro _
      rfl
    · intro _
      rfl
    · rfl
    · constructor
      · exact hthis.address
      · exact hthis.own
      · exact hthis.browsing
      · intro h
        cases h
      · intro h
        cases h
      · intro _ _
        exact ⟨rfl, hown⟩
      · intro id hitem
        have hsome : data.item = some id := hitem
        rw [hempty] at hsome
        cases hsome
      · exact hthis.item
  · have hcounted := hsound.counted
    refine ⟨?_, hcounted.down, hcounted.up, hcounted.servers,
      hcounted.resetting⟩
    have hcount : (UniqueKeys.write EngineData.address data.address
        (fun data => { data with active := true, state := .list })
        queue.engineData).countP EngineData.active + _ = _ :=
      hsound.records.addresses.countP_write hdata EngineData.active
    simp only [hidle, Bool.false_eq_true, if_true, if_false] at hcount
    show queue.activeCount + 1 = _
    rw [hcounted.records]
    show _ = ((UniqueKeys.write EngineData.address data.address _
      queue.engineData).countP EngineData.active : ℤ)
    omega
  · exact hsound.plain

/-! ## A transfer begins and ends -/

theorem onServer_eq (hfound : queue.view.server key = some server)
    (operation : ItemQueue → ItemQueue) :
    queue.onServer key operation =
      { queue with
        view := queue.view.put key
          (operation ⟨server, queue.view.items⟩) } := by
  unfold TransferQueue.onServer
  rw [hfound]

theorem firstState_busy (world : World) (data : EngineData)
    (site : QueueSite) (item : FileItem) :
    firstState world data site item ≠ .none ∧
      firstState world data site item ≠ .list ∧
      (firstState world data site item = .waitprimary →
        data.state = .waitprimary) := by
  unfold firstState
  split_ifs with hwaiting
  · simp [hwaiting]
  · simp
  · simp
  · simp
  · cases item.type with
    | file => simp
    | folder => simp

theorem countActive_eq (queue : TransferQueue) {item : FileItem}
    (hitem : queue.view.items id = some item) (difference : ℤ) :
    queue.countActive id difference =
      { queue with
        activeCountDown := queue.activeCountDown +
          if item.download then difference else 0
        activeCountUp := queue.activeCountUp +
          if item.download then 0 else difference } := by
  unfold countActive TransferQueue.item
  rw [hitem]
  cases hdownload : item.download with
  | true => simp [hdownload]
  | false => simp [hdownload]

theorem Sound.assign (hsound : queue.Sound known) (world : World)
    (hdata : data ∈ queue.engineData) (hidle : data.active = false)
    (hfound : queue.view.server key = some server)
    (hmem : id ∈ server.children.live) {item : FileItem}
    (hitem : queue.view.items id = some item)
    (hinactive : item.active = false) :
    (queue.assign world data key id item).Sound known := by
  have hthis := hsound.records.each data hdata
  obtain ⟨hempty, _⟩ := hthis.idle hidle
  have hnotActive : queue.view.items.isActive id = false := by
    unfold Items.isActive
    rw [hitem]
    exact hinactive
  have hdirection : queue.view.items.isDownload id = item.download := by
    unfold Items.isDownload
    rw [hitem]
    rfl
  have htoggled := toggled_setActive hsound.items.servers hfound hmem hitem
    true 0
  obtain ⟨hisActive, hsameDirection, hsome⟩ := htoggled.this
  unfold TransferQueue.assign
  rw [onServer_eq hfound]
  generalize queue.view.put key _ = changed at *
  obtain ⟨written, hwritten⟩ := Option.isSome_iff_exists.mp
    (hsome.trans (by rw [hitem]; rfl))
  have hdownload : written.download = item.download := by
    rw [← hdirection, ← hsameDirection]
    unfold Items.isDownload
    rw [hwritten]
    rfl
  have hactiveItem : ∀ other, other ≠ id →
      changed.items.isActive other = queue.view.items.isActive other :=
    htoggled.isActive
  simp only
  rw [countActive_eq _ hwritten]
  constructor
  · exact hsound.items.toggled htoggled (mem_allChildren hfound hmem)
  · apply RecordsSound.write hsound.records hdata
    · intro _
      rfl
    · intro _
      rfl
    · obtain ⟨hnone, hlist, hwaiting⟩ :=
        firstState_busy world data (queue.site key) item
      constructor
      · exact hthis.address
      · exact hthis.own
      · exact hthis.browsing
      · intro h
        exact hthis.waiting (hwaiting h)
      · intro h
        cases h
      · intro _ h
        cases h
      · intro _ _
        exact ⟨rfl, hnone, hlist⟩
      · intro other hother
        cases hother
        exact ⟨hisActive, Function.update_self id _ _⟩
    · intro other hother _ another hanother
      have hne : another ≠ id := by
        intro heq
        have hactive := ((hsound.records.each other hother).item another
          hanother).1
        rw [heq, hnotActive] at hactive
        cases hactive
      exact ⟨hactiveItem another hne, Function.update_of_ne hne _ _⟩
    · intro other hactive
      by_cases hne : other = id
      · exact Or.inl (hne ▸ rfl)
      · refine Or.inr ⟨(hactiveItem other hne) ▸ hactive, ?_⟩
        rw [hempty]
        exact (Option.some_ne_none other).symm
  · rw [hdownload, ← hdirection]
    exact Counted.assign hsound.items hsound.counted hfound hmem htoggled
      hnotActive hsound.records.addresses hdata hidle rfl
  · exact hsound.plain

theorem Sound.leaveServer (hsound : queue.Sound known)
    (hactive : queue.view.items.isActive id = true)
    (hnot : id ∉ queue.resetting) :
    (queue.leaveServer id).Sound known ∧
      ∃ serverActiveCount, queue.leaveServer id =
        { queue with
          serverActiveCount := serverActiveCount
          resetting := id :: queue.resetting } := by
  obtain ⟨key, server, hfound, hserver, hmem⟩ :=
    exists_topLevelItem hsound.items.servers (hsound.items.active id hactive)
  obtain ⟨hpositive, hcounted⟩ := Counted.leave hsound.items hsound.counted
    hserver hmem hactive hnot
  unfold TransferQueue.leaveServer
  rw [hfound]
  simp only
  rw [if_pos hpositive]
  refine ⟨?_, _, rfl⟩
  constructor
  · exact hsound.items
  · exact hsound.records
  · exact hcounted
  · exact hsound.plain

theorem freeEngine_eq (queue : TransferQueue) (data : EngineData) :
    queue.freeEngine data =
      { queue with
        activeCount :=
          if 0 < queue.activeCount then queue.activeCount - 1
          else queue.activeCount
        effects := queue.effects ++
          if data.state = .waitprimary then [.releaseEngine data.engine]
          else []
        engineData := UniqueKeys.write EngineData.address data.address
          (fun data =>
            { data with item := none, active := false, state := .none })
          queue.engineData } := by
  unfold TransferQueue.freeEngine
  by_cases hwaiting : data.state = .waitprimary
  · simp only [hwaiting, if_true]
    rfl
  · simp only [hwaiting, if_false, List.append_nil]
    rfl

theorem Counted.free {view : QueueView} {resetting : List ItemId}
    {engineData : List EngineData}
    {activeCount activeCountDown activeCountUp : ℤ}
    {serverActiveCount : ServerId → ℤ}
    (hcounted : Counted view resetting engineData activeCount activeCountDown
      activeCountUp serverActiveCount)
    (hunique : UniqueKeys.Unique EngineData.address engineData)
    (hdata : data ∈ engineData) (hactive : data.active = true) :
    Counted view resetting
      (UniqueKeys.write EngineData.address data.address
        (fun data =>
          { data with item := none, active := false, state := .none })
        engineData)
      (if 0 < activeCount then activeCount - 1 else activeCount)
      activeCountDown activeCountUp serverActiveCount := by
  refine ⟨?_, hcounted.down, hcounted.up, hcounted.servers,
    hcounted.resetting⟩
  have hcount : (UniqueKeys.write EngineData.address data.address
      (fun data =>
        { data with item := none, active := false, state := .none })
      engineData).countP EngineData.active + _ = _ :=
    hunique.countP_write hdata EngineData.active
  simp only [hactive, Bool.false_eq_true, if_true, if_false] at hcount
  rw [hcounted.records]
  split
  · omega
  · omega

theorem DataSound.free {nextAddress : ℕ} {items changed : Items}
    {engineDataOf : ItemId → Option ℕ}
    (hthis : DataSound known nextAddress items engineDataOf data) :
    DataSound known nextAddress changed engineDataOf
      { data with item := none, active := false, state := .none } := by
  constructor
  · exact hthis.address
  · exact hthis.own
  · exact hthis.browsing
  · intro h
    cases h
  · intro _
    exact ⟨rfl, Or.inl rfl⟩
  · intro h
    cases h
  · intro id h
    cases h
  · intro id h
    cases h

theorem Sound.freeEngine (hsound : queue.Sound known)
    (hdata : data ∈ queue.engineData) (hactive : data.active = true)
    (hempty : data.item = none) :
    (queue.freeEngine data).Sound known := by
  rw [freeEngine_eq]
  constructor
  · exact hsound.items
  · apply hsound.records.writeState hdata
    · intro _
      rfl
    · intro _
      rfl
    · exact hempty.symm
    · exact (hsound.records.each data hdata).free
  · exact hsound.counted.free hsound.records.addresses hdata hactive
  · exact hsound.plain

structure Ended (queue changed : TransferQueue) (id : ItemId) : Prop where
  items : ItemsSound changed.view changed.failed changed.successful
    changed.nextServer changed.nextItem
  counted : Counted changed.view changed.resetting changed.engineData
    changed.activeCount changed.activeCountDown changed.activeCountUp
    changed.serverActiveCount
  this : changed.view.items.isActive id = false
  others : ∀ other, other ≠ id → changed.view.items.isActive other =
    queue.view.items.isActive other
  records : changed.engineData = queue.engineData ∧
    changed.engineDataOf = queue.engineDataOf ∧
    changed.nextAddress = queue.nextAddress
  action : changed.postTransferAction = queue.postTransferAction

theorem Sound.deactivate (hsound : queue.Sound known)
    (hid : id ∈ queue.resetting) :
    queue.Ended (queue.deactivate id) id ∧
      id ∈ (queue.deactivate id).view.allChildren ∧
      (queue.deactivate id).resetting = queue.resetting.erase id := by
  have hactive := hsound.counted.resetting.2 id hid
  have hin := hsound.items.active id hactive
  obtain ⟨key, server, hfound, hserver, hmem⟩ :=
    exists_topLevelItem hsound.items.servers hin
  obtain ⟨item, hitem, _⟩ := (Option.any_eq_true _ _).mp hactive
  have htoggled := toggled_setActive hsound.items.servers hserver hmem hitem
    false 0
  obtain ⟨hpositive, hcounted⟩ := Counted.deactivate hsound.items
    hsound.counted hserver hmem htoggled hid
  have hitems := hsound.items.toggled htoggled hin
  obtain ⟨hinactive, hsameDirection, hsome⟩ := htoggled.this
  unfold TransferQueue.deactivate
  rw [hfound]
  simp only
  rw [onServer_eq hserver]
  generalize queue.view.put key _ = changed at *
  obtain ⟨written, hwritten⟩ := Option.isSome_iff_exists.mp
    (hsome.trans (by rw [hitem]; rfl))
  have hdownload : queue.view.items.isDownload id = written.download := by
    rw [← hsameDirection]
    unfold Items.isDownload
    rw [hwritten]
    rfl
  rw [hdownload] at hpositive hcounted
  unfold TransferQueue.item
  simp only [hwritten]
  cases hdirection : written.download with
  | true =>
      rw [hdirection] at hpositive hcounted
      simp only [if_true] at hpositive hcounted ⊢
      rw [if_pos hpositive]
      rw [sub_zero] at hcounted
      exact ⟨⟨hitems, hcounted, hinactive, htoggled.isActive, ⟨rfl, rfl, rfl⟩,
        rfl⟩, htoggled.allChildren ▸ hin, rfl⟩
  | false =>
      rw [hdirection] at hpositive hcounted
      simp only [Bool.false_eq_true, if_false] at hpositive hcounted ⊢
      rw [if_pos hpositive]
      rw [sub_zero] at hcounted
      exact ⟨⟨hitems, hcounted, hinactive, htoggled.isActive, ⟨rfl, rfl, rfl⟩,
        rfl⟩, htoggled.allChildren ▸ hin, rfl⟩

theorem Ended.settle {changed : TransferQueue} (hended : queue.Ended changed id)
    (hmem : id ∈ changed.view.allChildren) (world : World)
    (reason : ResetReason) :
    queue.Ended (changed.settle world id reason) id ∧
      (changed.settle world id reason).resetting = changed.resetting := by
  have hservers := hended.items.servers
  have hremove : ∀ destroy failed successful,
      (failed ++ successful).Perm
        (if destroy then changed.failed ++ changed.successful
          else id :: (changed.failed ++ changed.successful)) →
      queue.Ended
        { (changed.removeItem id destroy true).1 with
          failed := failed
          successful := successful } id ∧
        (changed.removeItem id destroy true).1.resetting =
          changed.resetting ∧
        (changed.removeItem id destroy true).1.failed = changed.failed ∧
        (changed.removeItem id destroy true).1.successful =
          changed.successful := by
    intro destroy failed successful hplaces
    obtain ⟨view, heq, hremoved⟩ :=
      removeItem_removed hservers hmem destroy true
    rw [heq]
    have hactive := hremoved.isActive hended.this
    refine ⟨⟨?_, ?_, ?_, ?_, hended.records, hended.action⟩, rfl, rfl, rfl⟩
    · exact hended.items.removed hremoved hended.this hplaces
    · exact Counted.removed hended.items hremoved hended.this hended.counted
    · exact (hactive id).trans hended.this
    · intro other hne
      exact (hactive other).trans (hended.others other hne)
  cases reason with
  | reset =>
      unfold TransferQueue.settle
      simp only
      split
      · exact ⟨hended, rfl⟩
      · obtain ⟨view, heq, hcalm⟩ := onServer_calm hservers _
          fun tree htree => ItemQueue.calm_queueImmediateFile htree id
        rw [heq]
        have hactive := fun other => (hcalm.activity other).isActive
        refine ⟨⟨hended.items.calm hcalm, hended.counted.calm hcalm, ?_, ?_,
          hended.records, hended.action⟩, rfl⟩
        · exact (hactive id).trans hended.this
        · intro other hne
          exact (hactive other).trans (hended.others other hne)
  | failure =>
      obtain ⟨hresult, hresetting, hfailed, hsuccessful⟩ := hremove false
        (changed.failed ++ [id]) changed.successful (by
          rw [List.append_assoc]
          exact List.perm_middle)
      unfold TransferQueue.settle
      simp only
      rw [hfailed]
      refine ⟨?_, hresetting⟩
      rw [← hsuccessful] at hresult
      exact hresult
  | success =>
      unfold TransferQueue.settle
      simp only
      split
      · obtain ⟨hresult, hresetting, hfailed, hsuccessful⟩ := hremove true
          changed.failed changed.successful (.refl _)
        refine ⟨?_, hresetting⟩
        rw [← hfailed, ← hsuccessful] at hresult
        exact hresult
      · obtain ⟨hresult, hresetting, hfailed, hsuccessful⟩ := hremove false
          changed.failed (changed.successful ++ [id]) (by
            rw [← List.append_assoc]
            exact List.perm_append_singleton _ _)
        rw [hsuccessful]
        refine ⟨?_, hresetting⟩
        rw [← hfailed] at hresult
        exact hresult
  | retry => exact ⟨hended, rfl⟩
  | remove =>
      obtain ⟨hresult, hresetting, hfailed, hsuccessful⟩ := hremove true
        changed.failed changed.successful (.refl _)
      refine ⟨?_, hresetting⟩
      rw [← hfailed, ← hsuccessful] at hresult
      exact hresult

/-- The rest of `ResetEngine`, before the queue is advanced. -/
def finish (queue : TransferQueue) (world : World) (data : EngineData)
    (id : ItemId) (reason : ResetReason) : TransferQueue :=
  ((queue.deactivate id).settle world id reason).freeEngine data

theorem Sound.finish (hsound : queue.Sound known)
    (hdata : data ∈ queue.engineData) (hitem : data.item = some id)
    (hid : id ∈ queue.resetting) (world : World) (reason : ResetReason) :
    (queue.finish world data id reason).Sound known ∧
      (queue.finish world data id reason).resetting =
        queue.resetting.erase id ∧
      (queue.finish world data id reason).engineData =
        UniqueKeys.write EngineData.address data.address
          (fun data =>
            { data with item := none, active := false, state := .none })
          queue.engineData := by
  obtain ⟨hdeactivated, hmem, hresetting⟩ := hsound.deactivate hid
  obtain ⟨hended, hsame⟩ := hdeactivated.settle hmem world reason
  obtain ⟨hactive, _, _⟩ := (hsound.records.each data hdata).busy id hitem
  unfold TransferQueue.finish
  generalize (queue.deactivate id).settle world id reason = changed at *
  obtain ⟨hrecords, hpointers, haddress⟩ := hended.records
  rw [freeEngine_eq]
  refine ⟨?_, hsame.trans hresetting, by rw [hrecords]⟩
  constructor
  · exact hended.items
  · simp only
    rw [hrecords, hpointers, haddress]
    apply hsound.records.write hdata
    · intro _
      rfl
    · intro _
      rfl
    · exact (hsound.records.each data hdata).free
    · intro other hother hne another hanother
      refine ⟨hended.others another ?_, rfl⟩
      intro heq
      exact hne (hsound.records.owner_unique hdata hother hitem
        (heq ▸ hanother))
    · intro other hother
      have hne : other ≠ id := by
        intro heq
        rw [heq, hended.this] at hother
        cases hother
      refine Or.inr ⟨(hended.others other hne) ▸ hother, ?_⟩
      rw [hitem]
      exact fun heq => hne (Option.some.inj heq).symm
  · have hcounted := hended.counted
    simp only
    rw [hrecords] at hcounted ⊢
    exact hcounted.free hsound.records.addresses hdata hactive
  · simp only
    rw [hended.action]
    exact hsound.plain

end TransferQueue

end TabFtp
