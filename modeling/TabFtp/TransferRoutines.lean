import TabFtp.TransferMoves

/-!
# The routines make moves

Every routine of the queue view that ends has made moves, and it has ended
every transfer that it has begun to end.
-/

namespace TabFtp

namespace TransferQueue

open QueueView

/-- The queue is sound, and only the transfers of `base` are being ended. -/
structure Ready (terms : Terms) (base : List ItemId) (queue : TransferQueue) :
    Prop where
  sound : queue.Sound terms.known
  resetting : queue.resetting = base

def Settled (queue : TransferQueue) : Prop :=
  ∀ data ∈ queue.engineData, data.transient = true → data.active = true

structure Leads (terms : Terms) (base : List ItemId)
    (queue changed : TransferQueue) : Prop where
  moves : Moves terms base queue changed
  resetting : changed.resetting = base
  settled : terms.tidy → queue.Settled → changed.Settled

variable {terms : Terms} {base : List ItemId}
  {queue changed final : TransferQueue} {id : ItemId} {key : ServerId}
  {server : ServerItem} {data : EngineData} {address : ℕ}

theorem Ready.leads (hready : Ready terms base queue)
    (hleads : Leads terms base queue changed) : Ready terms base changed :=
  ⟨hleads.moves.sound hready.sound, hleads.resetting⟩

theorem Leads.refl (hready : Ready terms base queue) :
    Leads terms base queue queue :=
  ⟨.refl, hready.resetting, fun _ h => h⟩

theorem Leads.trans (hfirst : Leads terms base queue changed)
    (hsecond : Leads terms base changed final) :
    Leads terms base queue final :=
  ⟨hfirst.moves.trans hsecond.moves, hsecond.resetting,
    fun htidy h => hsecond.settled htidy (hfirst.settled htidy h)⟩

theorem Leads.move (hmove : Move terms base queue changed)
    (hresetting : changed.resetting = base)
    (hsettled : terms.tidy → queue.Settled → changed.Settled) :
    Leads terms base queue changed :=
  ⟨.single hmove, hresetting, hsettled⟩

theorem Leads.same (hmove : Move terms base queue changed)
    (hready : Ready terms base queue)
    (hframe : changed.engineData = queue.engineData ∧
      changed.resetting = queue.resetting) :
    Leads terms base queue changed := by
  refine Leads.move hmove (hframe.2.trans hready.resetting) ?_
  intro _ hsettled
  unfold Settled
  rw [hframe.1]
  exact hsettled

theorem Settled.write (hsettled : queue.Settled)
    {change : EngineData → EngineData}
    (hchange : ∀ data, (change data).transient = true →
      data.active = true → (change data).active = true)
    (htransient : ∀ data, (change data).transient = data.transient)
    (hdata : changed.engineData = UniqueKeys.write EngineData.address address
      change queue.engineData) : changed.Settled := by
  intro data hmem
  rw [hdata] at hmem
  obtain ⟨source, hsource, rfl⟩ := List.mem_map.mp hmem
  split
  · intro h
    have hactive := hsettled source hsource ((htransient source) ▸ h)
    exact hchange source h hactive
  · exact hsettled source hsource

/-! ## Choosing what to transfer -/

def Extends (queue changed : TransferQueue) : Prop :=
  ∃ more nextAddress, changed =
    { queue with
      engineData := queue.engineData ++ more
      nextAddress := nextAddress }

theorem Extends.refl (queue : TransferQueue) : queue.Extends queue :=
  ⟨[], queue.nextAddress, by rw [List.append_nil]⟩

theorem Extends.trans (hfirst : queue.Extends changed)
    (hsecond : changed.Extends final) : queue.Extends final := by
  obtain ⟨more, _, rfl⟩ := hfirst
  obtain ⟨later, nextAddress, rfl⟩ := hsecond
  exact ⟨more ++ later, nextAddress, by rw [List.append_assoc]⟩

theorem Extends.mem (hextends : queue.Extends changed)
    (hdata : data ∈ queue.engineData) : data ∈ changed.engineData := by
  obtain ⟨more, _, rfl⟩ := hextends
  exact List.mem_append_left more hdata

def IdleRecord (queue : TransferQueue) (address : ℕ) (own : Bool) : Prop :=
  ∃ data ∈ queue.engineData, data.address = address ∧ data.active = false ∧
    (own = true → data.transient = false)

theorem IdleRecord.extends {own : Bool}
    (hidle : queue.IdleRecord address own)
    (hextends : queue.Extends changed) : changed.IdleRecord address own := by
  obtain ⟨data, hdata, hthis⟩ := hidle
  exact ⟨data, hextends.mem hdata, hthis⟩

theorem getIdleEngine_spec (hready : Ready terms base queue) (world : World)
    (site : QueueSite) (allowTransient : Bool) :
    let result := queue.getIdleEngine world site allowTransient
    Leads terms base queue result.2 ∧ queue.Extends result.2 ∧
      ∀ address, result.1 = some address →
        result.2.IdleRecord address !allowTransient := by
  have hidle : ∀ data ∈ queue.engineData.filter fun data =>
      !data.active && (allowTransient || !data.transient),
      data ∈ queue.engineData ∧ data.active = false ∧
        ((!allowTransient) = true → data.transient = false) := by
    intro data hdata
    obtain ⟨hmem, hkeep⟩ := List.mem_filter.mp hdata
    refine ⟨hmem, ?_⟩
    cases hactive : data.active <;> cases allowTransient <;>
      cases htransient : data.transient <;>
      simp [hactive, htransient] at hkeep ⊢
  intro result
  unfold result getIdleEngine
  simp only
  split
  · rename_i data hfound
    obtain ⟨hmem, hthis⟩ := hidle data (List.mem_of_find?_eq_some hfound)
    refine ⟨.refl hready, .refl queue, ?_⟩
    intro address haddress
    exact ⟨data, hmem, Option.some.inj haddress, hthis⟩
  · split
    · rename_i data hfirst
      obtain ⟨hmem, hthis⟩ := hidle data (List.mem_of_mem_head? hfirst)
      refine ⟨.refl hready, .refl queue, ?_⟩
      intro address haddress
      exact ⟨data, hmem, Option.some.inj haddress, hthis⟩
    · split
      · have hsettled : queue.Settled → queue.createEngine.Settled := by
          intro hsettled data hdata htransient
          rcases List.mem_append.mp hdata with hold | hnew
          · exact hsettled data hold htransient
          · rw [List.mem_singleton.mp hnew] at htransient
            cases htransient
        refine ⟨.move (.createEngine queue) hready.resetting
          fun _ => hsettled, ⟨_, _, rfl⟩, ?_⟩
        intro address haddress
        exact ⟨_, List.mem_append_right _ List.mem_cons_self,
          Option.some.inj haddress, rfl, fun _ => rfl⟩
      · refine ⟨.refl hready, .refl queue, ?_⟩
        intro address haddress
        cases haddress

theorem getEngineData_some {engine : Engine}
    (hfound : queue.getEngineData engine = some data) :
    data ∈ queue.engineData ∧ data.engine = engine := by
  have hengine := List.find?_some hfound
  exact ⟨List.mem_of_find?_eq_some hfound, of_decide_eq_true hengine⟩

theorem canStartTransfer_spec (hloose : ¬ terms.tidy)
    (hready : Ready terms base queue)
    {world : World} (hstates : ∀ state ∈ world.states,
      terms.known state.context) (key : ServerId) :
    let result := queue.canStartTransfer world key
    Leads terms base queue result.2.2 ∧ queue.Extends result.2.2 ∧
      ∀ address, result.1 = true → result.2.1 = some address →
        result.2.2.IdleRecord address false := by
  obtain ⟨hleads, hextends, hidle⟩ := getIdleEngine_spec hready world
    (queue.site key) true
  intro result
  unfold result canStartTransfer
  simp only
  split
  · exact ⟨.refl hready, .refl queue, fun _ _ h => by cases h⟩
  · generalize queue.serverActiveCount key +
      (if (browsingStateOnSameServer world (queue.site key)).isSome then 1
        else 0) = activeCount
    split
    · exact ⟨.refl hready, .refl queue, fun _ _ h => by cases h⟩
    · generalize queue.getIdleEngine world (queue.site key) true = found at *
      obtain ⟨idle, searched⟩ := found
      simp only at hleads hextends hidle ⊢
      split
      · exact ⟨hleads, hextends, fun address _ h => hidle address h⟩
      · split
        · exact ⟨hleads, hextends, fun _ h => by cases h⟩
        · rename_i state hbrowsing
          have hknown := hstates state (List.mem_of_find?_eq_some hbrowsing)
          split
          · exact ⟨hleads, hextends, fun _ h => by cases h⟩
          · split
            · rename_i data hdata
              refine ⟨hleads, hextends, ?_⟩
              intro address husable haddress
              rw [Bool.and_eq_true, Bool.not_eq_true'] at husable
              exact ⟨data, (getEngineData_some hdata).1,
                Option.some.inj haddress, husable.2, fun h => by cases h⟩
            · rename_i hnone
              refine ⟨hleads.trans (.move (.createTransient hknown hnone)
                hleads.resetting fun h => absurd h hloose),
                hextends.trans ⟨_, _, rfl⟩, ?_⟩
              intro address _ haddress
              exact ⟨_, List.mem_append_right _ List.mem_cons_self,
                Option.some.inj haddress, rfl, fun h => by cases h⟩

def IdleItem (queue : TransferQueue) (key : ServerId) (id : ItemId) : Prop :=
  ∃ server item, queue.view.server key = some server ∧
    id ∈ server.children.live ∧ queue.view.items id = some item ∧
    item.active = false ∧ ¬ (item.download = true ∧ item.type = .folder)

theorem IdleItem.extends (hidle : queue.IdleItem key id)
    (hextends : queue.Extends changed) : changed.IdleItem key id := by
  obtain ⟨more, _, rfl⟩ := hextends
  exact hidle

theorem Removed.keeps {view changed : QueueView} {other : ItemId}
    {destroy : Bool}
    (hservers : ServersSound view.serverList view.items)
    (hremoved : Removed view changed other destroy)
    (hfound : view.server key = some server)
    (hmem : id ∈ server.children.live) (hne : id ≠ other) :
    ∃ left, changed.server key = some left ∧ id ∈ left.children.live := by
  have hin := hremoved.children.mem_iff.mp (mem_allChildren hfound hmem)
  have hlater := (List.mem_cons.mp hin).resolve_left hne
  obtain ⟨entry, hentry, hchild⟩ := List.mem_flatMap.mp hlater
  obtain ⟨source, hsource, hkey, hchildren⟩ := hremoved.entries
    (entry.1, entry.2.children.live) (List.mem_map_of_mem hentry)
  have hthis : source.1 = key := by
    rcases shape_cases hservers hfound hmem source hsource with
      ⟨hsame, _⟩ | ⟨_, hnot⟩
    · exact hsame
    · have heq : entry.2.children.live = source.2.erase other := hchildren
      exact absurd (List.mem_of_mem_erase (heq ▸ hchild)) hnot
  refine ⟨entry.2, ?_, hchild⟩
  have hserver : changed.server entry.1 = some entry.2 := by
    unfold QueueView.server
    rw [hremoved.servers.unique.find hentry fun other _ => by
      rw [decide_eq_true_eq]]
    rfl
  rw [← hthis, hkey]
  exact hserver

theorem IdleItem.removeItem (hsound : queue.Sound terms.known)
    (hidle : queue.IdleItem key id) {other : ItemId} {item : FileItem}
    (hother : queue.view.items other = some item)
    (hfolder : item.download = true ∧ item.type = .folder)
    (forward : Bool) :
    (queue.removeItem other true forward).1.IdleItem key id := by
  obtain ⟨server, found, hfound, hmem, hitem, hinactive, hnot⟩ := hidle
  have hne : id ≠ other := by
    intro heq
    rw [heq, hother] at hitem
    cases hitem
    exact hnot hfolder
  by_cases hin : other ∈ queue.view.allChildren
  · obtain ⟨changed, heq, hremoved⟩ :=
      removeItem_removed hsound.items.servers hin true forward
    rw [heq]
    obtain ⟨left, hleft, hchild⟩ :=
      hremoved.keeps hsound.items.servers hfound hmem hne
    exact ⟨left, found, hleft, hchild,
      (hremoved.others id hne).trans hitem, hinactive, hnot⟩
  · rw [removeItem_absent hin]
    exact ⟨server, found, hfound, hmem, hitem, hinactive, hnot⟩

theorem getIdleChild_spec (hsound : queue.Sound terms.known)
    {direction : TransferDirection}
    (hfound : queue.getIdleChild key direction = some id) :
    ∃ server item, queue.view.server key = some server ∧
      id ∈ server.children.live ∧ queue.view.items id = some item ∧
      item.active = false := by
  unfold TransferQueue.getIdleChild at hfound
  split at hfound
  · cases hfound
  · rename_i server hserver
    have htree := hsound.items.servers.queue hserver
    have hcandidate := htree.mirrored.getIdleChild
      (decide (queue.activeMode = 1)) direction
    rw [hfound] at hcandidate
    obtain ⟨item, hthis, _⟩ := hcandidate
    refine ⟨server, item, hserver, hthis.child, hthis.found, ?_⟩
    have hidle := hthis.idle
    unfold ItemQueue.isIdle at hidle
    rw [hthis.found] at hidle
    simp only at hidle
    split at hidle
    · cases hidle
    · rename_i hinactive
      exact eq_false_of_ne_true hinactive

theorem idleFile_spec (direction : TransferDirection) (fuel : ℕ)
    (hready : Ready terms base queue) {result : IdleFile}
    (hrun : idleFile key direction fuel queue = some (result, changed)) :
    Leads terms base queue changed ∧
      changed.engineData = queue.engineData ∧
      (∀ other id, queue.IdleItem other id → changed.IdleItem other id) ∧
      ∀ id, result = .found (some id) → changed.IdleItem key id := by
  induction fuel generalizing queue with
  | zero => cases hrun
  | succ fuel ih =>
      unfold idleFile at hrun
      split at hrun
      · cases hrun
        exact ⟨.refl hready, rfl, fun _ _ h => h, fun _ h => by cases h⟩
      · rename_i id hchild
        obtain ⟨server, item, hserver, hmem, hitem, hinactive⟩ :=
          getIdleChild_spec hready.sound hchild
        have hthis : queue.item id = some item := hitem
        rw [hthis] at hrun
        simp only at hrun
        split_ifs at hrun with hfolder
        · have hnotActive : queue.view.items.isActive id = false := by
            unfold Items.isActive
            rw [hitem]
            exact hinactive
          have hframe := queue.removeItem_frame id true true
          have hdata := hframe.1
          have hkeeps : ∀ other another, queue.IdleItem other another →
              (queue.removeItem id true true).1.IdleItem other another :=
            fun _ _ h => h.removeItem hready.sound hitem hfolder true
          have hleads : Leads terms base queue
              (queue.removeItem id true true).1 :=
            .same (.removeItem hnotActive true) hready hframe
          generalize queue.removeItem id true true = removed at *
          obtain ⟨left, deleted⟩ := removed
          cases deleted with
          | true =>
              cases hrun
              exact ⟨hleads, hdata, hkeeps, fun _ h => by cases h⟩
          | false =>
              obtain ⟨hlater, hsame, hkept, hfound⟩ :=
                ih (hready.leads hleads) hrun
              exact ⟨hleads.trans hlater, hsame.trans hdata,
                fun other another h => hkept other another
                  (hkeeps other another h), hfound⟩
        · cases hrun
          refine ⟨.refl hready, rfl, fun _ _ h => h, ?_⟩
          intro other hother
          cases hother
          exact ⟨server, item, hserver, hmem, hitem, hinactive, hfolder⟩

def BestFits (queue : TransferQueue) (best : BestMatch) : Prop :=
  queue.IdleItem best.serverItem best.fileItem ∧
    ∀ address, best.engineData = some address →
      queue.IdleRecord address false

theorem searchServers_spec (hloose : ¬ terms.tidy) {world : World}
    (hstates : ∀ state ∈ world.states, terms.known state.context)
    (direction : TransferDirection) (fuel : ℕ) (keys : List ServerId)
    {best : Option BestMatch} (hready : Ready terms base queue)
    (hfits : ∀ found, best = some found → queue.BestFits found)
    {result : Search}
    (hrun : searchServers world direction fuel keys best queue =
      some (result, changed)) :
    Leads terms base queue changed ∧
      ∀ found, result = .best (some found) → changed.BestFits found := by
  induction keys generalizing queue best with
  | nil =>
      cases hrun
      refine ⟨.refl hready, ?_⟩
      intro found hfound
      cases hfound
      exact hfits found rfl
  | cons key rest ih =>
      obtain ⟨hleads, hextends, hrecord⟩ :=
        canStartTransfer_spec hloose hready hstates key
      unfold searchServers at hrun
      generalize queue.canStartTransfer world key = started at *
      obtain ⟨usable, engineData, searched⟩ := started
      simp only at hleads hextends hrecord hrun
      have hready' := hready.leads hleads
      have hkeeps : ∀ found, best = some found → searched.BestFits found := by
        intro found hfound
        obtain ⟨hitem, hengine⟩ := hfits found hfound
        exact ⟨hitem.extends hextends, fun address haddress =>
          (hengine address haddress).extends hextends⟩
      cases usable with
      | false =>
          obtain ⟨hlater, hfound⟩ := ih hready' hkeeps hrun
          exact ⟨hleads.trans hlater, hfound⟩
      | true =>
          simp only at hrun
          cases hidle : idleFile key direction fuel searched with
          | none =>
              rw [hidle] at hrun
              cases hrun
          | some file =>
              obtain ⟨file, left⟩ := file
              obtain ⟨hfile, hdata, hitems, hthis⟩ :=
                idleFile_spec direction fuel hready' hidle
              have hleads' := hleads.trans hfile
              have hready'' := hready.leads hleads'
              have hrecords : ∀ address own,
                  searched.IdleRecord address own →
                  left.IdleRecord address own := by
                intro address own h
                unfold IdleRecord
                rw [hdata]
                exact h
              have hkeeps' : ∀ found, best = some found →
                  left.BestFits found := by
                intro found hfound
                obtain ⟨hitem, hengine⟩ := hkeeps found hfound
                exact ⟨hitems _ _ hitem, fun address haddress =>
                  hrecords _ _ (hengine address haddress)⟩
              have hskip : searchServers world direction fuel rest best left =
                  some (result, changed) →
                  Leads terms base queue changed ∧ ∀ found,
                    result = .best (some found) →
                      changed.BestFits found := by
                intro hlater
                obtain ⟨hmore, hfound⟩ := ih hready'' hkeeps' hlater
                exact ⟨hleads'.trans hmore, hfound⟩
              rw [hidle] at hrun
              cases file with
              | serverDeleted =>
                  cases hrun
                  exact ⟨hleads', fun _ h => by cases h⟩
              | found id =>
                  cases id with
                  | none => exact hskip hrun
                  | some id =>
                      have hnew : ∀ priority,
                          left.BestFits ⟨id, key, priority, engineData⟩ :=
                        fun _ => ⟨hthis id rfl, fun address h =>
                          hrecords _ _ (hrecord address rfl h)⟩
                      simp only at hrun
                      split at hrun
                      · cases hrun
                      · split_ifs at hrun
                        · cases hrun
                          refine ⟨hleads', ?_⟩
                          intro found hfound
                          cases hfound
                          exact hnew _
                        · obtain ⟨hmore, hfound⟩ := ih hready'' (by
                            intro found hfound
                            cases hfound
                            exact hnew _) hrun
                          exact ⟨hleads'.trans hmore, hfound⟩
                        · exact hskip hrun

theorem engineFor_spec (hready : Ready terms base queue) (world : World)
    {best : BestMatch} (hfits : queue.BestFits best) :
    let result := engineFor world queue best
    Leads terms base queue result.2 ∧
      result.2.IdleItem best.serverItem best.fileItem ∧
      ∀ address, result.1 = some address →
        result.2.IdleRecord address false := by
  intro result
  unfold result engineFor
  cases hengine : best.engineData with
  | some address =>
      refine ⟨.refl hready, hfits.1, ?_⟩
      intro other hother
      cases hother
      exact hfits.2 address hengine
  | none =>
      obtain ⟨hleads, hextends, hidle⟩ := getIdleEngine_spec hready world
        (queue.site best.serverItem) false
      refine ⟨hleads, hfits.1.extends hextends, ?_⟩
      intro address haddress
      obtain ⟨data, hdata, hthis, hinactive, _⟩ := hidle address haddress
      exact ⟨data, hdata, hthis, hinactive, fun h => by cases h⟩

end TransferQueue

end TabFtp
