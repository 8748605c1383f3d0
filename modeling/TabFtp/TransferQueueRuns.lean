import TabFtp.TransferSelection

/-!
# Runs of the transfer queue

As long as no item is used that has been destroyed, the counters agree with
the records and the items between all events.  A destroyed item can only be
used after an item has been stopped that waits for a browsing connection.
-/

namespace TabFtp

namespace TransferQueue

open QueueView

variable {queue changed : TransferQueue} {requests : List Request}
  {outputs answer : List Effect} {environment : Environment} {fuel : ℕ}

/-- A removal that uses nothing after an item that waits for a browsing
connection. -/
def removesInOrder (queue : TransferQueue) (request : Request) : Prop :=
  match request.event with
  | .removeSelected selected =>
      queue.WaitsLast ((queue.selectedItems selected).map Prod.snd)
  | _ => True

/-! ## Items that are used while rows are removed -/

theorem Safe.cleared (hused : queue.usedDestroyed = false) :
    Safe { queue with effects := [] } :=
  ⟨hused, fun _ _ h => by cases h⟩

theorem collectRows_cleared (selected : ℕ → Bool) (rows : List QueueRow)
    (index : ℕ) (skipTo : ℤ) (collected : List (ℕ × QueueRow)) :
    collectRows { queue with effects := [] } selected rows index skipTo
        collected =
      queue.collectRows selected rows index skipTo collected := by
  induction rows generalizing index skipTo collected with
  | nil => rfl
  | cons row rest ih =>
      unfold collectRows
      simp only [ih]

theorem waitsLast_cleared {selected : ℕ → Bool}
    (hlast : queue.WaitsLast ((queue.selectedItems selected).map Prod.snd)) :
    WaitsLast { queue with effects := [] }
      ((selectedItems { queue with effects := [] } selected).map
        Prod.snd) := by
  have hsame : selectedItems { queue with effects := [] } selected =
      queue.selectedItems selected := collectRows_cleared selected _ 0 (-1) []
  rw [hsame]
  exact hlast

theorem handle_unused {event : Event}
    (hevent : ∀ selected, event ≠ .removeSelected selected)
    (hready : Ready .all [] queue)
    (hrun : handle environment fuel queue event = some changed) :
    queue.Unused changed := by
  have hquiet : Ready .quiet [] queue := ⟨hready.sound, hready.resetting⟩
  have hfollows : Follows .quiet environment :=
    ⟨fun _ _ _ => trivial, Or.inl trivial⟩
  apply Moves.unused (handle_leads hfollows trivial _ (fun _ _ => trivial)
    hquiet hrun).moves fun h => h
  intro selected heq
  exact absurd heq (hevent selected)

/-- One request that removes items in order uses no deleted item. -/
theorem step_safe (hready : Ready .all [] queue) {request : Request}
    (hinOrder : queue.removesInOrder request)
    (hstep : step queue request = some (changed, answer)) :
    changed.Safe ∧ answer = changed.effects := by
  unfold step at hstep
  split_ifs at hstep with hused
  obtain ⟨handled, hhandled, heq⟩ := Option.map_eq_some_iff.mp hstep
  cases heq
  refine ⟨?_, rfl⟩
  have hsafe : Safe { queue with effects := [] } :=
    .cleared (eq_false_of_ne_true hused)
  have hcleared := hready.cleared
  obtain ⟨environment, fuel, event⟩ := request
  cases event with
  | removeSelected selected =>
      exact removeRows_safe hcleared hsafe
        (selectedItems_apart hcleared.sound selected)
        (waitsLast_cleared hinOrder) hhandled
  | queueFile | queueFileFinish | setActive | reply | madeProgress
  | askPassword | granted | removeAll | stopAndClear =>
      apply hsafe.unused (handle_unused _ hcleared hhandled)
      intro selected heq
      cases heq

/-- Where an item can be that has been queued. -/
inductive Place
  | queue | failed | successful | destroyed

def IsAt (queue : TransferQueue) (id : ItemId) : Place → Prop
  | .queue => id ∈ queue.view.allChildren
  | .failed => id ∈ queue.failed
  | .successful => id ∈ queue.successful
  | .destroyed => queue.item id = none

def activeItems (queue : TransferQueue) (download : Bool) : List ItemId :=
  queue.view.allChildren.filter fun id =>
    (queue.item id).any fun item => item.active && item.download == download

/-- No destroyed item has been used, and all counters are right. -/
structure Accounted (queue : TransferQueue) : Prop where
  used : queue.usedDestroyed = false
  records : queue.activeCount =
    (queue.engineData.filter EngineData.active).length
  down : queue.activeCountDown = (queue.activeItems true).length
  up : queue.activeCountUp = (queue.activeItems false).length
  servers : ∀ key server, queue.view.server key = some server →
    queue.serverActiveCount key =
      (server.children.live.filter queue.isActiveItem).length
  owners : ∀ id, queue.isActiveItem id = true ↔
    ∃! data, data ∈ queue.engineData ∧ data.active = true ∧
      data.item = some id
  places : ∀ id, id < queue.nextItem → ∃! place, queue.IsAt id place

theorem activeItems_down (queue : TransferQueue) :
    (queue.activeItems true).length =
      queue.view.allChildren.countP (countsDown queue.view.items) := by
  unfold activeItems
  rw [← List.countP_eq_length_filter]
  congr 1
  funext id
  unfold countsDown Items.isActive Items.isDownload TransferQueue.item
  cases queue.view.items id with
  | none => rfl
  | some item => simp

theorem activeItems_up (queue : TransferQueue) :
    (queue.activeItems false).length =
      queue.view.allChildren.countP (countsUp queue.view.items) := by
  unfold activeItems
  rw [← List.countP_eq_length_filter]
  congr 1
  funext id
  unfold countsUp Items.isActive Items.isDownload TransferQueue.item
  cases queue.view.items id with
  | none => rfl
  | some item => simp

theorem Ready.owners (hready : Ready .all [] queue) (id : ItemId) :
    queue.isActiveItem id = true ↔
      ∃! data, data ∈ queue.engineData ∧ data.active = true ∧
        data.item = some id := by
  have hrecords := hready.sound.records
  rw [isActiveItem_eq]
  constructor
  · intro hactive
    obtain ⟨data, hdata, hitem⟩ := hrecords.owned id hactive
    refine ⟨data, ⟨hdata, ((hrecords.each data hdata).busy id hitem).1,
      hitem⟩, ?_⟩
    intro other hother
    exact hrecords.owner_unique hdata hother.1 hitem hother.2.2
  · intro howner
    obtain ⟨data, ⟨hdata, _, hitem⟩, _⟩ := howner
    exact ((hrecords.each data hdata).item id hitem).1

theorem Ready.places (hready : Ready .all [] queue) (id : ItemId) :
    ∃! place, queue.IsAt id place := by
  have hitems := hready.sound.items
  have hnodup := hitems.nodup
  rw [List.nodup_append] at hnodup
  obtain ⟨_, hrest, hapart⟩ := hnodup
  rw [List.nodup_append] at hrest
  obtain ⟨_, _, hlists⟩ := hrest
  have hsome : (queue.view.items id).isSome = true ↔
      id ∈ queue.view.allChildren ∨ id ∈ queue.failed ∨
        id ∈ queue.successful := by
    rw [hitems.placed id, List.mem_append, List.mem_append]
  by_cases hqueue : id ∈ queue.view.allChildren
  · refine ⟨.queue, hqueue, ?_⟩
    intro place hplace
    cases place with
    | queue => rfl
    | failed =>
        exact absurd rfl (hapart id hqueue id (List.mem_append_left _ hplace))
    | successful =>
        exact absurd rfl (hapart id hqueue id (List.mem_append_right _ hplace))
    | destroyed =>
        have hnone : queue.view.items id = none := hplace
        rw [hnone] at hsome
        cases hsome.mpr (Or.inl hqueue)
  · by_cases hfailed : id ∈ queue.failed
    · refine ⟨.failed, hfailed, ?_⟩
      intro place hplace
      cases place with
      | queue => exact absurd hplace hqueue
      | failed => rfl
      | successful => exact absurd rfl (hlists id hfailed id hplace)
      | destroyed =>
          have hnone : queue.view.items id = none := hplace
          rw [hnone] at hsome
          cases hsome.mpr (Or.inr (Or.inl hfailed))
    · by_cases hsuccessful : id ∈ queue.successful
      · refine ⟨.successful, hsuccessful, ?_⟩
        intro place hplace
        cases place with
        | queue => exact absurd hplace hqueue
        | failed => exact absurd hplace hfailed
        | successful => rfl
        | destroyed =>
            have hnone : queue.view.items id = none := hplace
            rw [hnone] at hsome
            cases hsome.mpr (Or.inr (Or.inr hsuccessful))
      · refine ⟨.destroyed, ?_, ?_⟩
        · show queue.view.items id = none
          rw [← Option.not_isSome_iff_eq_none, hsome]
          intro h
          rcases h with h | h | h
          · exact hqueue h
          · exact hfailed h
          · exact hsuccessful h
        · intro place hplace
          cases place with
          | queue => exact absurd hplace hqueue
          | failed => exact absurd hplace hfailed
          | successful => exact absurd hplace hsuccessful
          | destroyed => rfl

theorem Ready.accounted (hready : Ready .all [] queue)
    (hused : queue.usedDestroyed = false) : queue.Accounted := by
  have hcounted := hready.sound.counted
  constructor
  · exact hused
  · rw [hcounted.records, List.countP_eq_length_filter]
  · rw [hcounted.down, activeItems_down]
  · rw [hcounted.up, activeItems_up]
  · intro key server hserver
    have hcount := hcounted.servers _ (mem_shape hserver)
    rw [hready.resetting] at hcount
    simp only at hcount
    rw [hcount, ← List.countP_eq_length_filter]
    congr 2
    funext id
    unfold countsFor
    simp [isActiveItem_eq]
  · exact hready.owners
  · intro id _
    exact hready.places id

/-- The accounts are right in every state of a run in which nothing is used
after an item that waits for a browsing connection. -/
theorem reaches_accounted
    (hrun : machine.ReachesWithin removesInOrder requests outputs queue) :
    queue.Accounted := by
  have hready := reaches_ready hrun
  cases hrun with
  | start hinitial =>
      apply hready.accounted
      rw [hinitial]
      rfl
  | next hbefore hinOrder hstep =>
      have hsafe := (step_safe (reaches_ready hbefore) hinOrder hstep).1
      exact hready.accounted hsafe.used

/-! ## A queue with a browsing connection -/

def limitedSite : QueueSite :=
  ⟨⟨.ftp, .default, [], [], 21, 0, .default, false, .auto, [], [], []⟩, 1, 0⟩

def browsedWorld : World where
  states := [⟨0, some limitedSite, none⟩]
  isConnected := fun engine => decide (engine = .browsing 0)
  hasPassword := fun _ => true
  reply := Reply.wouldblock
  autoClear := false
  numTransfers := 2
  concurrentDownloadLimit := 0
  concurrentUploadLimit := 0
  reconnectCount := 2

def plainUpload : FileItem :=
  FileItem.create 0 [] [] ⟨[]⟩ ⟨none, .default⟩ 0 [] []

def plainDownload : FileItem :=
  FileItem.create TransferFlags.download [] [] ⟨[]⟩ ⟨none, .default⟩ 0 [] []

def downloadFolder : FileItem :=
  { plainDownload with type := .folder }

/-- A site without a limit. -/
def openSite (port : ℕ) : QueueSite :=
  { limitedSite with
    server := { limitedSite.server with port := port }
    connectionLimit := 0 }

def browsedRequest (event : Event) : Request :=
  ⟨fun _ => browsedWorld, 8, event⟩

def engineOf (data : EngineData) : ℕ × Engine × Bool :=
  (data.address, data.engine, data.active)

def removesNothing (request : Request) : Bool :=
  match request.event with
  | .removeSelected _ => false
  | _ => true

theorem removesInOrder_of_removesNothing {request : Request}
    (hnothing : removesNothing request = true) :
    queue.removesInOrder request := by
  unfold removesInOrder
  unfold removesNothing at hnothing
  cases hevent : request.event with
  | removeSelected selected =>
      rw [hevent] at hnothing
      cases hnothing
  | _ => trivial

/-- A file is downloaded, and the first of two uploads waits for the browsing
connection. -/
def transferringRequests : List Request :=
  [browsedRequest (.queueFile ⟨openSite 1, plainDownload⟩ none),
    browsedRequest (.setActive true),
    browsedRequest (.queueFile ⟨limitedSite, plainUpload⟩ none),
    browsedRequest (.queueFile ⟨limitedSite, plainUpload⟩ none),
    browsedRequest (.queueFileFinish true)]

def transferringRun : Option (TransferQueue × List Effect) :=
  machine.exec (fun _ request => removesNothing request = true) empty
    transferringRequests

def transferring : TransferQueue :=
  (transferringRun.getD (empty, [])).1

theorem reaches_transferring :
    ∃ outputs, machine.ReachesWithin removesInOrder transferringRequests
      outputs transferring := by
  have hsome : transferringRun.isSome = true := rfl
  obtain ⟨⟨queue, outputs⟩, hexec⟩ := Option.isSome_iff_exists.mp hsome
  have hqueue : transferring = queue := by
    unfold transferring
    rw [hexec]
    rfl
  have hstart : machine.ReachesWithin
      (fun _ request => removesNothing request = true) [] [] empty :=
    .start rfl
  rw [hqueue]
  exact ⟨outputs, (hstart.exec hexec).mono fun _ _ =>
    removesInOrder_of_removesNothing⟩

/-- Two transfers and the listing of a browser are under way. -/
theorem transferring_accounted :
    transferring.engineData.map engineOf =
        [(0, .own 0, true), (1, .own 1, false), (2, .browsing 0, true)] ∧
      transferring.activeCount = 2 ∧ transferring.activeCountDown = 1 ∧
      transferring.activeCountUp = 1 ∧ transferring.Accounted := by
  obtain ⟨outputs, hrun⟩ := reaches_transferring
  exact ⟨rfl, rfl, rfl, rfl, reaches_accounted hrun⟩

/-- A folder to be downloaded and a file that is transferred first are
removed, when the file waits for the browsing connection. -/
def removedWhileWaiting : List Request :=
  [browsedRequest (.queueFile ⟨limitedSite, downloadFolder⟩ none),
    browsedRequest (.queueFile
      ⟨limitedSite, { plainUpload with priority := .high }⟩ none),
    browsedRequest (.setActive true),
    browsedRequest (.removeSelected fun index => index != 0)]

theorem exec_removedWhileWaiting :
    (machine.exec (fun _ _ => True) empty removedWhileWaiting).map
        (fun result => (result.1.usedDestroyed, result.2)) =
      some (true, [.requestExclusiveEngine (.browsing 0),
        .use (.status 1) true, .use (.file 1) true,
        .releaseEngine (.browsing 0), .releaseEngine (.browsing 0),
        .use (.file 0) false]) := rfl

theorem reaches_removedWhileWaiting :
    ∃ outputs queue, machine.Reaches removedWhileWaiting outputs queue ∧
      queue.usedDestroyed = true ∧ .use (.file 0) false ∈ outputs := by
  obtain ⟨⟨queue, outputs⟩, hexec, heq⟩ :=
    Option.map_eq_some_iff.mp exec_removedWhileWaiting
  have hstart : machine.Reaches [] [] empty := .start rfl
  simp only [Prod.mk.injEq] at heq
  obtain ⟨hused, rfl⟩ := heq
  exact ⟨_, queue, hstart.exec hexec, hused, by decide⟩

/-- An item that waits is deleted under its engine. -/
theorem destroyed_not_accounted :
    ¬ ∀ requests outputs queue, machine.Reaches requests outputs queue →
      queue.Accounted := by
  intro hall
  obtain ⟨outputs, queue, hrun, hused, _⟩ := reaches_removedWhileWaiting
  have hnot := (hall _ outputs queue hrun).used
  rw [hused] at hnot
  cases hnot

end TransferQueue

end TabFtp
