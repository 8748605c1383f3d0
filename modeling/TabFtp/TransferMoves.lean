import TabFtp.TransferChanges

/-!
# The moves of the transfer queue

Whatever the routines of the queue view do, they do it by single moves: a
record gets a state, an item is removed, a server item is told that a transfer
ends.  A move has the conditions under which the code makes it, and keeps what
is said of records, items and counters.

Between telling the server item and freeing the record, `ResetEngine` may
advance the queue.  The moves that are made in the meantime do not end a
transfer that is being ended already: these are the items in `base`.
-/

namespace TabFtp

namespace TransferQueue

/-- The browsing connections that there are, those of which the engine has
been granted, whether a record that waits may be freed, and whether the items
of the rows that are removed are used.  If the terms are `tidy`, transient
records that are not active are deleted again. -/
structure Terms where
  known : ℕ → Prop
  granted : ℕ → Prop
  waiting : Prop
  uses : Prop
  tidy : Prop

def Terms.loose (terms : Terms) : Terms := { terms with tidy := False }

inductive Move (terms : Terms) (base : List ItemId) :
    TransferQueue → TransferQueue → Prop
  | note (queue : TransferQueue) (activeMode : ℕ)
      (waitingForPassword : List Engine)
      (lastRefresh : Option (Server × Listing)) :
      Move terms base queue
        { queue with
          activeMode := activeMode
          waitingForPassword := waitingForPassword
          lastRefresh := lastRefresh }
  | useRow (queue : TransferQueue) (huses : terms.uses) (row : QueueRow) :
      Move terms base queue (queue.useRow row)
  | cancel (queue : TransferQueue) (engine : Engine) :
      Move terms base queue (queue.emit (.cancel engine))
  | request {queue : TransferQueue} {data : EngineData}
      (hdata : data ∈ queue.engineData) (hactive : data.active = true)
      (hwaiting : data.state = .waitprimary) :
      Move terms base queue (queue.emit (.requestExclusiveEngine data.engine))
  | release {queue : TransferQueue} {context : ℕ}
      (hnone : queue.getEngineData (.browsing context) = none ∨
        terms.waiting) :
      Move terms base queue (queue.emit (.releaseEngine (.browsing context)))
  | execute {queue : TransferQueue} {data : EngineData}
      (hdata : data ∈ queue.engineData)
      (huse : data.transient = true → data.state ≠ .waitprimary)
      (command : Command) :
      Move terms base queue (queue.execute data command)
  | modifyItem (queue : TransferQueue) (id : ItemId)
      {change : FileItem → FileItem} (hchange : Unnoticed change) :
      Move terms base queue (queue.modifyItem id change)
  | onServer (queue : TransferQueue) (key : ServerId)
      {operation : ItemQueue → ItemQueue}
      (hcalm : ∀ tree : ItemQueue, tree.Sound → tree.Calm (operation tree)) :
      Move terms base queue (queue.onServer key operation)
  | getServerChild (queue : TransferQueue) (key : ServerId) (row : ℕ) :
      Move terms base queue (queue.getServerChild key row).2
  | createServerItem (queue : TransferQueue) (site : QueueSite) :
      Move terms base queue (queue.createServerItem site).2
  | insertItem (queue : TransferQueue) (key : ServerId) {file : NewFile}
      (hplain : file.isPlain = true) {onSuccess : Option NewFile}
      (haction : ∀ later, onSuccess = some later → later.isPlain = true) :
      Move terms base queue (queue.insertItem key file.item onSuccess)
  | removeItem {queue : TransferQueue} {id : ItemId}
      (hinactive : queue.view.items.isActive id = false) (forward : Bool) :
      Move terms base queue (queue.removeItem id true forward).1
  | removeAll (queue : TransferQueue) :
      Move terms base queue { queue with view := queue.view.removeAll }
  | createEngine (queue : TransferQueue) :
      Move terms base queue queue.createEngine
  | createTransient {queue : TransferQueue} {context : ℕ}
      (hknown : terms.known context)
      (hnone : queue.getEngineData (.browsing context) = none) :
      Move terms base queue (queue.createTransient context)
  | assign {queue : TransferQueue} (world : World) {data : EngineData}
      {key : ServerId} {server : ServerItem} {id : ItemId} {item : FileItem}
      (hdata : data ∈ queue.engineData) (hidle : data.active = false)
      (hfound : queue.view.server key = some server)
      (hmem : id ∈ server.children.live)
      (hitem : queue.view.items id = some item)
      (hinactive : item.active = false) :
      Move terms base queue (queue.assign world data key id item)
  | setState {queue : TransferQueue} {data : EngineData} {id : ItemId}
      {state : EngineState} (hdata : data ∈ queue.engineData)
      (hitem : data.item = some id) (hbase : id ∉ base)
      (hnone : state ≠ .none) (hlist : state ≠ .list)
      (hwaiting : state ≠ .waitprimary)
      (hgranted : data.state = .waitprimary → ∀ context,
        data.engine = .browsing context → terms.granted context) :
      Move terms base queue (queue.setState data.address state)
  | startListing {queue : TransferQueue} {data : EngineData}
      (hdata : data ∈ queue.engineData) (hidle : data.active = false)
      (hown : data.transient = false) :
      Move terms base queue
        ({ queue with activeCount := queue.activeCount + 1 }.modify
          data.address fun data => { data with active := true, state := .list })
  | leaveServer {queue : TransferQueue} {id : ItemId}
      (hactive : queue.view.items.isActive id = true)
      (hnot : id ∉ queue.resetting) :
      Move terms base queue (queue.leaveServer id)
  | finish {queue : TransferQueue} {data : EngineData} {id : ItemId}
      (hdata : data ∈ queue.engineData) (hitem : data.item = some id)
      (hid : id ∈ queue.resetting) (hbase : id ∉ base)
      (hwaiting : data.state = .waitprimary → terms.waiting) (world : World)
      (reason : ResetReason) :
      Move terms base queue (queue.finish world data id reason)
  | freeEngine {queue : TransferQueue} {data : EngineData}
      (hdata : data ∈ queue.engineData) (hactive : data.active = true)
      (hempty : data.item = none) :
      Move terms base queue (queue.freeEngine data)
  | eraseTransient (queue : TransferQueue) :
      Move terms base queue queue.eraseTransient

abbrev Moves (terms : Terms) (base : List ItemId) :
    TransferQueue → TransferQueue → Prop :=
  Relation.ReflTransGen (Move terms base)

variable {terms : Terms} {base : List ItemId}
  {queue changed : TransferQueue} {data : EngineData} {id : ItemId}

theorem Move.sound (hmove : Move terms base queue changed)
    (hsound : queue.Sound terms.known) : changed.Sound terms.known := by
  have hsame : ∀ {other : TransferQueue},
      ItemsSound other.view other.failed other.successful other.nextServer
        other.nextItem →
      RecordsSound terms.known other.nextAddress other.view.items
        other.engineDataOf other.engineData →
      Counted other.view other.resetting other.engineData other.activeCount
        other.activeCountDown other.activeCountUp other.serverActiveCount →
      (∀ id file, other.postTransferAction id = some file →
        file.isPlain = true) →
      other.Sound terms.known := fun hitems hrecords hcounted hplain =>
    ⟨hitems, hrecords, hcounted, hplain⟩
  cases hmove with
  | note | useRow | cancel | request | release | execute =>
      exact hsame hsound.items hsound.records hsound.counted hsound.plain
  | modifyItem _ hchange => exact hsound.modifyItem _ hchange
  | onServer _ hcalm => exact hsound.onServer _ hcalm
  | getServerChild => exact hsound.getServerChild _ _
  | createServerItem => exact (hsound.createServerItem _).1
  | insertItem _ hplain haction => exact hsound.insertItem _ hplain haction
  | removeItem hinactive => exact hsound.removeItem hinactive _
  | removeAll => exact hsound.removeAll
  | createEngine => exact hsound.createEngine
  | createTransient hknown hnone => exact hsound.createTransient hknown hnone
  | assign world hdata hidle hfound hmem hitem hinactive =>
      exact hsound.assign world hdata hidle hfound hmem hitem hinactive
  | setState hdata hitem _ hnone hlist hwaiting =>
      exact hsound.setState hdata hitem hnone hlist
        fun h => absurd h hwaiting
  | startListing hdata hidle hown => exact hsound.startListing hdata hidle hown
  | leaveServer hactive hnot => exact (hsound.leaveServer hactive hnot).1
  | finish hdata hitem hid => exact (hsound.finish hdata hitem hid _ _).1
  | freeEngine hdata hactive hempty =>
      exact hsound.freeEngine hdata hactive hempty
  | eraseTransient => exact hsound.eraseTransient

theorem Moves.sound (hmoves : Moves terms base queue changed)
    (hsound : queue.Sound terms.known) : changed.Sound terms.known := by
  induction hmoves with
  | refl => exact hsound
  | tail _ hmove ih => exact hmove.sound ih

theorem Move.mono {other : Terms} (hterms : other.loose = terms.loose)
    {fewer : List ItemId} (hsubset : fewer ⊆ base)
    (hmove : Move other base queue changed) :
    Move terms fewer queue changed := by
  obtain ⟨known, granted, waiting, uses, tidy⟩ := terms
  obtain ⟨known', granted', waiting', uses', tidy'⟩ := other
  simp only [Terms.loose, Terms.mk.injEq, and_true] at hterms
  obtain ⟨rfl, rfl, rfl, rfl⟩ := hterms
  cases hmove with
  | note => exact .note _ _ _ _
  | useRow huses =>
      have huses' : uses' := huses
      exact .useRow _ huses' _
  | cancel => exact .cancel _ _
  | request hdata hactive hwaiting => exact .request hdata hactive hwaiting
  | release hnone => exact .release hnone
  | execute hdata huse => exact .execute hdata huse _
  | modifyItem _ hchange => exact .modifyItem _ _ hchange
  | onServer _ hcalm => exact .onServer _ _ hcalm
  | getServerChild => exact .getServerChild _ _ _
  | createServerItem => exact .createServerItem _ _
  | insertItem _ hplain haction => exact .insertItem _ _ hplain haction
  | removeItem hinactive => exact .removeItem hinactive _
  | removeAll => exact .removeAll _
  | createEngine => exact .createEngine _
  | createTransient hknown hnone => exact .createTransient hknown hnone
  | assign world hdata hidle hfound hmem hitem hinactive =>
      exact .assign world hdata hidle hfound hmem hitem hinactive
  | setState hdata hitem hbase hnone hlist hwaiting hgranted =>
      exact .setState hdata hitem (fun h => hbase (hsubset h)) hnone hlist
        hwaiting hgranted
  | startListing hdata hidle hown => exact .startListing hdata hidle hown
  | leaveServer hactive hnot => exact .leaveServer hactive hnot
  | @finish data _ hdata hitem hid hbase hwaiting =>
      have hwaiting' : data.state = .waitprimary → waiting' := hwaiting
      exact .finish hdata hitem hid (fun h => hbase (hsubset h)) hwaiting' _ _
  | freeEngine hdata hactive hempty => exact .freeEngine hdata hactive hempty
  | eraseTransient => exact .eraseTransient _

theorem Moves.mono {other : Terms} (hterms : other.loose = terms.loose)
    {fewer : List ItemId} (hsubset : fewer ⊆ base)
    (hmoves : Moves other base queue changed) :
    Moves terms fewer queue changed := by
  induction hmoves with
  | refl => exact .refl
  | tail _ hmove ih => exact ih.tail (hmove.mono hterms hsubset)

/-! ## The record of a transfer that is being ended -/

theorem onServer_frame (queue : TransferQueue) (key : ServerId)
    (operation : ItemQueue → ItemQueue) :
    (queue.onServer key operation).engineData = queue.engineData ∧
      (queue.onServer key operation).resetting = queue.resetting := by
  unfold TransferQueue.onServer
  split
  · exact ⟨rfl, rfl⟩
  · exact ⟨rfl, rfl⟩

theorem getServerChild_frame (queue : TransferQueue) (key : ServerId)
    (row : ℕ) :
    (queue.getServerChild key row).2.engineData = queue.engineData ∧
      (queue.getServerChild key row).2.resetting = queue.resetting := by
  unfold TransferQueue.getServerChild
  split
  · exact ⟨rfl, rfl⟩
  · exact ⟨rfl, rfl⟩

theorem createServerItem_frame (queue : TransferQueue) (site : QueueSite) :
    (queue.createServerItem site).2.engineData = queue.engineData ∧
      (queue.createServerItem site).2.resetting = queue.resetting := by
  unfold TransferQueue.createServerItem
  split
  · exact ⟨rfl, rfl⟩
  · exact ⟨rfl, rfl⟩

theorem insertItem_frame (queue : TransferQueue) (key : ServerId)
    (item : FileItem) (onSuccess : Option NewFile) :
    (queue.insertItem key item onSuccess).engineData = queue.engineData ∧
      (queue.insertItem key item onSuccess).resetting = queue.resetting := by
  unfold TransferQueue.insertItem
  split
  · exact ⟨rfl, rfl⟩
  · exact ⟨rfl, rfl⟩

theorem removeItem_frame (queue : TransferQueue) (id : ItemId)
    (destroy forward : Bool) :
    (queue.removeItem id destroy forward).1.engineData = queue.engineData ∧
      (queue.removeItem id destroy forward).1.resetting =
        queue.resetting := by
  unfold TransferQueue.removeItem
  split
  · exact ⟨rfl, rfl⟩
  · exact ⟨rfl, rfl⟩

theorem assign_frame (queue : TransferQueue) (world : World)
    (data : EngineData) (key : ServerId) (id : ItemId) (item : FileItem) :
    (queue.assign world data key id item).engineData =
        UniqueKeys.write EngineData.address data.address
          (fun data =>
            { data with
              item := some id
              active := true
              lastSite := some (queue.site key)
              state := firstState world data (queue.site key) item })
          queue.engineData ∧
      (queue.assign world data key id item).resetting = queue.resetting := by
  obtain ⟨hdata, hresetting⟩ := queue.onServer_frame key
    fun queue => queue.setActive id true 0
  unfold TransferQueue.assign countActive TransferQueue.modify
  simp only
  rw [← hdata, ← hresetting]
  split
  · exact ⟨rfl, rfl⟩
  · split
    · exact ⟨rfl, rfl⟩
    · exact ⟨rfl, rfl⟩

theorem Move.frame (hmove : Move terms base queue changed)
    (hsound : queue.Sound terms.known) (hdata : data ∈ queue.engineData)
    (hitem : data.item = some id) (hbase : id ∈ base)
    (hresetting : id ∈ queue.resetting) :
    data ∈ changed.engineData ∧ id ∈ changed.resetting := by
  have hbusy := ((hsound.records.each data hdata).busy id hitem).1
  have hwritten : ∀ {other : EngineData} {change : EngineData → EngineData},
      other ∈ queue.engineData → other ≠ data →
      data ∈ UniqueKeys.write EngineData.address other.address change
        queue.engineData := by
    intro other change hother hne
    apply (UniqueKeys.mem_write_iff hsound.records.addresses hother).mpr
    exact Or.inr ⟨hdata, fun hkey => hne
      (hsound.records.addresses.eq_of_key hdata hother hkey).symm⟩
  cases hmove with
  | note | useRow | cancel | request | release | execute | modifyItem
  | removeAll => exact ⟨hdata, hresetting⟩
  | onServer key =>
      obtain ⟨hsame, hlist⟩ := queue.onServer_frame key _
      exact ⟨hsame ▸ hdata, hlist ▸ hresetting⟩
  | getServerChild key row =>
      obtain ⟨hsame, hlist⟩ := queue.getServerChild_frame key row
      exact ⟨hsame ▸ hdata, hlist ▸ hresetting⟩
  | createServerItem site =>
      obtain ⟨hsame, hlist⟩ := queue.createServerItem_frame site
      exact ⟨hsame ▸ hdata, hlist ▸ hresetting⟩
  | insertItem key =>
      obtain ⟨hsame, hlist⟩ := queue.insertItem_frame key _ _
      exact ⟨hsame ▸ hdata, hlist ▸ hresetting⟩
  | removeItem hinactive forward =>
      obtain ⟨hsame, hlist⟩ := queue.removeItem_frame _ true forward
      exact ⟨hsame ▸ hdata, hlist ▸ hresetting⟩
  | createEngine => exact ⟨List.mem_append_left _ hdata, hresetting⟩
  | createTransient => exact ⟨List.mem_append_left _ hdata, hresetting⟩
  | assign world hother hidle =>
      obtain ⟨hsame, hlist⟩ := queue.assign_frame world _ _ _ _
      refine ⟨hsame ▸ hwritten hother ?_, hlist ▸ hresetting⟩
      intro heq
      rw [heq, hbusy] at hidle
      cases hidle
  | setState hother hsource hnot =>
      refine ⟨hwritten hother ?_, hresetting⟩
      intro heq
      rw [heq, hitem] at hsource
      exact hnot (Option.some.inj hsource ▸ hbase)
  | startListing hother hidle =>
      refine ⟨hwritten hother ?_, hresetting⟩
      intro heq
      rw [heq, hbusy] at hidle
      cases hidle
  | leaveServer hactive hnot =>
      obtain ⟨_, counts, heq⟩ := hsound.leaveServer hactive hnot
      rw [heq]
      exact ⟨hdata, List.mem_cons_of_mem _ hresetting⟩
  | finish hother hsource hid hnot _ world reason =>
      obtain ⟨_, hlist, hsame⟩ := hsound.finish hother hsource hid world reason
      rw [hsame, hlist]
      constructor
      · apply hwritten hother
        intro heq
        rw [heq, hitem] at hsource
        exact hnot (Option.some.inj hsource ▸ hbase)
      · apply hsound.counted.resetting.1.mem_erase_iff.mpr
        exact ⟨fun heq => hnot (heq ▸ hbase), hresetting⟩
  | freeEngine hother hactive hempty =>
      rw [freeEngine_eq]
      refine ⟨hwritten hother ?_, hresetting⟩
      intro heq
      rw [heq, hitem] at hempty
      cases hempty
  | eraseTransient =>
      refine ⟨List.mem_filter.mpr ⟨hdata, ?_⟩, hresetting⟩
      rw [hbusy]
      rfl

theorem Moves.frame (hmoves : Moves terms base queue changed)
    (hsound : queue.Sound terms.known) (hdata : data ∈ queue.engineData)
    (hitem : data.item = some id) (hbase : id ∈ base)
    (hresetting : id ∈ queue.resetting) :
    data ∈ changed.engineData ∧ id ∈ changed.resetting := by
  induction hmoves with
  | refl => exact ⟨hdata, hresetting⟩
  | tail hbefore hmove ih =>
      exact hmove.frame (Moves.sound hbefore hsound) ih.1 hitem hbase ih.2

end TransferQueue

end TabFtp
