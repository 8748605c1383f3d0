import TabFtp.TransferRoutines

/-!
# Advancing the queue

`SendNextCommand`, `ResetEngine` and `AdvanceQueue` end with the transfers
being ended that were being ended before.
-/

namespace TabFtp

namespace TransferQueue

variable {terms : Terms} {base : List ItemId}
  {queue changed final : TransferQueue} {id : ItemId} {key : ServerId}
  {server : ServerItem} {data : EngineData} {address : ℕ}
  {environment : Environment}

/-- The browsing connections are there, or a record that waits may be
freed. -/
structure Follows (terms : Terms) (environment : Environment) : Prop where
  known : ∀ n, ∀ state ∈ (environment n).states, terms.known state.context
  retry : terms.waiting ∨ ∀ n context, terms.known context →
    ∃ state ∈ (environment n).states, state.context = context

def Advances (terms : Terms) (base : List ItemId)
    (advance : TransferQueue → Option TransferQueue) : Prop :=
  ∀ queue changed, Ready terms base queue → advance queue = some changed →
    Leads terms base queue changed ∧ (terms.tidy → changed.Settled)

def Sends (terms : Terms) (base : List ItemId)
    (send : ℕ → TransferQueue → Option TransferQueue) : Prop :=
  ∀ queue changed data id, Ready terms base queue →
    data ∈ queue.engineData → data.item = some id → id ∉ base →
    send data.address queue = some changed → Leads terms base queue changed

def Resets (terms : Terms) (base : List ItemId)
    (reset : ℕ → ResetReason → TransferQueue → Option TransferQueue) :
    Prop :=
  ∀ reason queue changed data, Ready terms base queue →
    data ∈ queue.engineData → (∀ id, data.item = some id → id ∉ base) →
    (data.state = .waitprimary → terms.waiting) →
    reset data.address reason queue = some changed →
    Leads terms base queue changed

theorem advances_some (hloose : ¬ terms.tidy) :
    Advances terms base some := by
  intro queue changed hready hrun
  cases hrun
  exact ⟨.refl hready, fun h => absurd h hloose⟩

/-! ## A transfer is started -/

theorem tryStartNextTransfer_leads (hloose : ¬ terms.tidy)
    (hfollows : Follows terms environment)
    {send : ℕ → TransferQueue → Option TransferQueue}
    (hsend : Sends terms base send) (fuel : ℕ)
    (hready : Ready terms base queue) {started : Bool}
    (hrun : tryStartNextTransfer environment send fuel queue =
      some (started, changed)) : Leads terms base queue changed := by
  unfold tryStartNextTransfer at hrun
  simp only at hrun
  split_ifs at hrun
  · cases hrun
    exact .refl hready
  split at hrun
  · cases hrun
    exact .refl hready
  · rename_i direction _
    have hsearch := fun result changed => @searchServers_spec terms base queue
      changed hloose (queue.world environment) (hfollows.known _) direction fuel
      (queue.view.serverList.map Prod.fst) none hready
      (fun _ h => by cases h) result
    split at hrun
    · cases hrun
    · rename_i hresult
      cases hrun
      exact (hsearch _ _ hresult).1
    · rename_i hresult
      cases hrun
      exact (hsearch _ _ hresult).1
    · rename_i best searched hresult
      obtain ⟨hleads, hfits⟩ := hsearch _ _ hresult
      have hready' := hready.leads hleads
      obtain ⟨hchosen, hitem, hrecord⟩ := engineFor_spec hready'
        (queue.world environment) (hfits best rfl)
      have hleads' := hleads.trans hchosen
      split at hrun
      · rename_i heq
        rw [heq] at hleads'
        cases hrun
        exact hleads'
      · rename_i address chosen heq
        rw [heq] at hitem hrecord hleads'
        have hready'' := hready.leads hleads'
        split at hrun
        · rename_i data item hfound hfile
          obtain ⟨hdata, haddress⟩ := find_mem hfound
          obtain ⟨record, hrecordMem, hsame, hidle, _⟩ :=
            hrecord address rfl
          have hthis : record = data :=
            hready''.sound.records.addresses.eq_of_key hrecordMem hdata
              (hsame.trans haddress.symm)
          rw [hthis] at hidle
          obtain ⟨server, found, hserver, hmem, hsome, hinactive, _⟩ := hitem
          cases hsome.symm.trans hfile
          obtain ⟨after, hafter, heq⟩ := Option.map_eq_some_iff.mp hrun
          cases heq
          obtain ⟨hwritten, hlist⟩ := chosen.assign_frame
            (queue.world environment) data best.serverItem best.fileItem item
          have hassigned : Leads terms base chosen
              (chosen.assign (queue.world environment) data best.serverItem
                best.fileItem item) :=
            .move (.assign _ hdata hidle hserver hmem hsome hinactive)
              (hlist.trans hready''.resetting) fun h => absurd h hloose
          have hbase : best.fileItem ∉ base := by
            intro hin
            rw [← hready''.resetting] at hin
            have hactive := hready''.sound.counted.resetting.2 _ hin
            unfold Items.isActive at hactive
            rw [hsome] at hactive
            exact absurd (hactive.symm.trans hinactive) Bool.noConfusion
          have hchanged :
              { data with
                item := some best.fileItem
                active := true
                lastSite := some (chosen.site best.serverItem)
                state := firstState (queue.world environment) data
                  (chosen.site best.serverItem) item } ∈
              (chosen.assign (queue.world environment) data best.serverItem
                best.fileItem item).engineData := by
            rw [hwritten]
            apply (UniqueKeys.mem_write_iff
              hready''.sound.records.addresses hdata).mpr
            exact Or.inl rfl
          rw [← haddress] at hafter
          exact (hleads'.trans hassigned).trans (hsend _ _ _ _
            (hready''.leads hassigned) hchanged rfl hbase hafter)
        · cases hrun

/-! ## The commands -/

theorem executed_leads (hready : Ready terms base queue)
    (hdata : data ∈ queue.engineData) (hstate : data.state ≠ .waitprimary)
    (command : Command) :
    Leads terms base queue (queue.execute data command) :=
  .move (.execute hdata (fun _ => hstate) command) hready.resetting
    fun _ h => h

theorem increaseErrorCount_leads
    {reset : ℕ → ResetReason → TransferQueue → Option TransferQueue}
    (hreset : Resets terms base reset)
    {retry : TransferQueue → Option TransferQueue}
    (hready : Ready terms base queue) (hdata : data ∈ queue.engineData)
    (hitem : data.item = some id) (hbase : id ∉ base)
    (hstate : data.state ≠ .waitprimary)
    (hretry : ∀ middle, Ready terms base middle → data ∈ middle.engineData →
      retry middle = some changed → Leads terms base middle changed)
    (hrun : increaseErrorCount environment reset data.address id retry queue =
      some changed) : Leads terms base queue changed := by
  have hleads : Leads terms base queue (queue.modifyItem id fun item =>
      { item with errorCount := item.errorCount + 1 }) :=
    .move (.modifyItem queue id unnoticed_errorCount) hready.resetting
      fun _ h => h
  have hready' := hready.leads hleads
  unfold increaseErrorCount at hrun
  simp only at hrun
  split at hrun
  · cases hrun
  · split_ifs at hrun
    · exact hleads.trans (hretry _ hready' hdata hrun)
    · apply hleads.trans
      apply hreset .failure _ _ data hready' hdata _ _ hrun
      · intro other hother
        exact Option.some.inj (hitem.symm.trans hother) ▸ hbase
      · intro h
        exact absurd h hstate

theorem setState_leads (hready : Ready terms base queue)
    (hdata : data ∈ queue.engineData) (hitem : data.item = some id)
    (hbase : id ∉ base) {state : EngineState} (hnone : state ≠ .none)
    (hlist : state ≠ .list) (hwaiting : state ≠ .waitprimary)
    (hgranted : data.state = .waitprimary → ∀ context,
      data.engine = .browsing context → terms.granted context) :
    Leads terms base queue (queue.setState data.address state) ∧
      { data with state := state } ∈
        (queue.setState data.address state).engineData := by
  constructor
  · refine .move (.setState hdata hitem hbase hnone hlist hwaiting hgranted)
      hready.resetting ?_
    intro _ hsettled
    have hdata : (queue.setState data.address state).engineData =
        UniqueKeys.write EngineData.address data.address
          (fun data => { data with state := state }) queue.engineData := rfl
    apply hsettled.write _ _ hdata
    · intro _ _ h
      exact h
    · intro _
      rfl
  · exact (UniqueKeys.mem_write_iff hready.sound.records.addresses hdata).mpr
      (Or.inl rfl)

theorem transferState_busy (item : FileItem) :
    transferState item ≠ .none ∧ transferState item ≠ .list ∧
      transferState item ≠ .waitprimary := by
  unfold transferState
  cases item.type <;> decide

theorem sendNextCommand_leads (hfollows : Follows terms environment)
    {reset : ℕ → ResetReason → TransferQueue → Option TransferQueue}
    (hreset : Resets terms base reset) (fuel : ℕ) :
    Sends terms base (sendNextCommand environment reset fuel) := by
  induction fuel with
  | zero =>
      intro queue changed data id _ _ _ _ hrun
      cases hrun
  | succ fuel ih =>
      intro queue changed data id hready hdata hitem hbase hrun
      have hthis := hready.sound.records.each data hdata
      obtain ⟨hactive, _⟩ := hthis.item id hitem
      obtain ⟨item, hsome, _⟩ := (Option.any_eq_true _ _).mp hactive
      have hfile : queue.item id = some item := hsome
      have hnot : ∀ other, data.item = some other → other ∉ base := by
        intro other hother
        exact Option.some.inj (hitem.symm.trans hother) ▸ hbase
      unfold sendNextCommand at hrun
      rw [hready.sound.find hdata] at hrun
      simp only [hitem, Option.bind_some, hfile] at hrun
      -- The record is in another state, and the loop goes on.
      have hagain : ∀ middle (state : EngineState),
          Ready terms base middle → data ∈ middle.engineData →
          data.state ≠ .waitprimary →
          state ≠ .none → state ≠ .list → state ≠ .waitprimary →
          sendNextCommand environment reset fuel data.address
            (middle.setState data.address state) = some changed →
          Leads terms base middle changed := by
        intro middle state hmiddle hmem hstate hnone hlist hwaiting hlater
        obtain ⟨hleads, hchanged⟩ := setState_leads hmiddle hmem hitem hbase
          hnone hlist hwaiting fun h => absurd h hstate
        exact hleads.trans
          (ih _ _ _ id (hmiddle.leads hleads) hchanged hitem hbase hlater)
      have hexecuted : data.state ≠ .waitprimary → ∀ command,
          Leads terms base queue (queue.execute data command) :=
        fun hstate command => executed_leads hready hdata hstate command
      have hreturned : ∀ command, data.state ≠ .waitprimary →
          some (queue.execute data command) = some changed →
          Leads terms base queue changed := by
        intro command hstate heq
        cases heq
        exact hexecuted hstate command
      have hended : ∀ command reason, data.state ≠ .waitprimary →
          reset data.address reason (queue.execute data command) =
            some changed → Leads terms base queue changed := by
        intro command reason hstate hlater
        have hleads := hexecuted hstate command
        exact hleads.trans (hreset reason _ _ data (hready.leads hleads) hdata
          hnot (fun h => absurd h hstate) hlater)
      have hcounted : ∀ command, data.state ≠ .waitprimary →
          increaseErrorCount environment reset data.address id
            (fun queue => sendNextCommand environment reset fuel data.address
              queue) (queue.execute data command) = some changed →
          Leads terms base queue changed := by
        intro command hstate hlater
        have hleads := hexecuted hstate command
        exact hleads.trans (increaseErrorCount_leads hreset
          (hready.leads hleads) hdata hitem hbase hstate
          (fun middle hmiddle hmem hsent =>
            ih _ _ _ id hmiddle hmem hitem hbase hsent) hlater)
      cases hstate : data.state with
      | none | cancel | list =>
          rw [hstate] at hrun
          cases hrun
      | waitprimary =>
          obtain ⟨context, hengine, hknown⟩ :=
            hthis.browsing (hthis.waiting hstate)
          rw [hstate] at hrun
          simp only at hrun
          split_ifs at hrun with hany
          · cases hrun
            exact .move (.request hdata (hthis.busy id hitem).1 hstate)
              hready.resetting fun _ h => h
          · apply hreset .retry _ _ data hready hdata hnot _ hrun
            intro _
            apply hfollows.retry.resolve_right
            intro hall
            obtain ⟨state, hmem, hcontext⟩ :=
              hall queue.executions context hknown
            apply hany
            apply List.any_eq_true.mpr
            refine ⟨state, hmem, decide_eq_true ?_⟩
            rw [hengine, hcontext]
      | disconnect =>
          have hnotWaiting : data.state ≠ .waitprimary := by
            rw [hstate]
            decide
          rw [hstate] at hrun
          simp only at hrun
          have hleads := hexecuted hnotWaiting .disconnect
          split_ifs at hrun
          · exact hreturned .disconnect hnotWaiting hrun
          · exact hleads.trans (hagain _ _ (hready.leads hleads) hdata
              hnotWaiting (by decide) (by decide) (by decide) hrun)
          · exact hleads.trans (hagain _ _ (hready.leads hleads) hdata
              hnotWaiting (by decide) (by decide) (by decide) hrun)
      | askpassword =>
          rw [hstate] at hrun
          cases hrun
          exact .move (.note _ _ _ _) hready.resetting fun _ h => h
      | connect =>
          have hnotWaiting : data.state ≠ .waitprimary := by
            rw [hstate]
            decide
          rw [hstate] at hrun
          simp only at hrun
          have hleads := hexecuted hnotWaiting .connect
          split_ifs at hrun
          · exact hreturned .connect hnotWaiting hrun
          · exact hleads.trans (hagain _ _ (hready.leads hleads) hdata
              hnotWaiting (by decide) (by decide) (by decide) hrun)
          · cases hrun
            obtain ⟨hnone, hlist, hwaiting⟩ := transferState_busy item
            exact hleads.trans (setState_leads (hready.leads hleads) hdata
              hitem hbase hnone hlist hwaiting
              fun h => absurd h hnotWaiting).1
          · exact hcounted .connect hnotWaiting hrun
      | transfer =>
          have hnotWaiting : data.state ≠ .waitprimary := by
            rw [hstate]
            decide
          rw [hstate] at hrun
          simp only at hrun
          split_ifs at hrun
          · exact hreturned .transfer hnotWaiting hrun
          · exact hended .transfer .success hnotWaiting hrun
          · exact hcounted .transfer hnotWaiting hrun
      | mkdir =>
          have hnotWaiting : data.state ≠ .waitprimary := by
            rw [hstate]
            decide
          rw [hstate] at hrun
          simp only at hrun
          split_ifs at hrun
          · exact hreturned .mkdir hnotWaiting hrun
          · exact hended .mkdir .success hnotWaiting hrun
          · exact hcounted .mkdir hnotWaiting hrun
          · exact hended .mkdir .failure hnotWaiting hrun

/-! ## The end of a transfer -/

theorem queueFile_leads (hready : Ready terms base queue) {file : NewFile}
    (hplain : file.isPlain = true) {onSuccess : Option NewFile}
    (haction : ∀ later, onSuccess = some later → later.isPlain = true) :
    Leads terms base queue (queue.queueFile file onSuccess) := by
  have hcreated : Leads terms base queue (queue.createServerItem file.site).2 :=
    .same (.createServerItem queue file.site) hready
      (queue.createServerItem_frame file.site)
  unfold queueFile
  generalize queue.createServerItem file.site = created at *
  obtain ⟨key, created⟩ := created
  exact hcreated.trans (.same (.insertItem created key hplain haction)
    (hready.leads hcreated) (created.insertItem_frame key _ _))

theorem Leads.inside {middle : TransferQueue} (hready : Ready terms base queue)
    (hactive : queue.view.items.isActive id = true) (hbase : id ∉ base)
    (hdata : data ∈ queue.engineData) (hitem : data.item = some id)
    (hinside : Ready terms (id :: base) (queue.leaveServer id) →
      Leads terms (id :: base) (queue.leaveServer id) middle) :
    Moves terms base queue middle ∧ middle.resetting = id :: base ∧
      data ∈ middle.engineData := by
  have hnot : id ∉ queue.resetting := hready.resetting ▸ hbase
  obtain ⟨hleft, counts, heq⟩ := hready.sound.leaveServer hactive hnot
  have hresetting : (queue.leaveServer id).resetting = id :: base := by
    rw [heq, ← hready.resetting]
  have hmem : data ∈ (queue.leaveServer id).engineData := by
    rw [heq]
    exact hdata
  have hleads := hinside ⟨hleft, hresetting⟩
  have hmoves : Moves terms base queue middle :=
    (Relation.ReflTransGen.single (Move.leaveServer hactive hnot)).trans
      (Moves.mono rfl (List.subset_cons_self id base) hleads.moves)
  have hkept := Moves.frame hleads.moves hleft hmem hitem List.mem_cons_self
    (hresetting ▸ List.mem_cons_self)
  exact ⟨hmoves, hleads.resetting, hkept.1⟩

theorem advanced_leads {advance : TransferQueue → Option TransferQueue}
    (hadvance : Advances terms base advance) (hready : Ready terms base queue)
    (hleads : Leads terms base queue changed) (activeMode : ℕ)
    (hrun : advance { changed with activeMode := activeMode } = some final) :
    Leads terms base queue final := by
  have hnoted : Leads terms base changed
      { changed with activeMode := activeMode } :=
    .move (.note _ _ _ _) hleads.resetting fun _ h => h
  exact (hleads.trans hnoted).trans
    (hadvance _ _ ((hready.leads hleads).leads hnoted) hrun).1

theorem resetEngine_leads {advance : TransferQueue → Option TransferQueue}
    (hadvance : ∀ base, Advances terms base advance) :
    Resets terms base (resetEngine environment advance) := by
  intro reason queue changed data hready hdata hnot hwaiting hrun
  have hthis := hready.sound.records.each data hdata
  unfold resetEngine at hrun
  rw [hready.sound.find hdata] at hrun
  simp only at hrun
  split_ifs at hrun with hinactive
  · cases hrun
    exact .refl hready
  · have hactive : data.active = true := by
      rwa [Bool.not_eq_false] at hinactive
    cases hitem : data.item with
    | none =>
        rw [hitem] at hrun
        have hmove : Move terms base queue (queue.freeEngine data) :=
          .freeEngine hdata hactive hitem
        have hresetting : (queue.freeEngine data).resetting = base := by
          rw [freeEngine_eq]
          exact hready.resetting
        obtain ⟨hleads, hsettled⟩ := hadvance base _ _
          ⟨hmove.sound hready.sound, hresetting⟩ hrun
        exact ⟨hleads.moves.head hmove, hleads.resetting,
          fun htidy _ => hsettled htidy⟩
    | some id =>
        rw [hitem] at hrun
        obtain ⟨middle, hexecuted, hlater⟩ := Option.bind_eq_some_iff.mp hrun
        clear hrun
        have hinside : Ready terms (id :: base) (queue.leaveServer id) →
            Leads terms (id :: base) (queue.leaveServer id) middle := by
          intro hleft
          split at hexecuted
          · rename_i file haction
            have hqueued : Leads terms (id :: base) (queue.leaveServer id)
                ((queue.leaveServer id).queueFile file none) :=
              queueFile_leads hleft (hleft.sound.plain id file haction)
                fun _ h => by cases h
            exact advanced_leads (hadvance _) hleft hqueued _ hexecuted
          · cases hexecuted
            exact .refl hleft
        obtain ⟨hmoves, hlist, hkept⟩ := Leads.inside hready
          (hthis.item id hitem).1 (hnot id hitem) hdata hitem hinside
        have hmiddle := Moves.sound hmoves hready.sound
        have hid : id ∈ middle.resetting := hlist ▸ List.mem_cons_self
        have hmove : Move terms base middle (middle.finish
            (middle.world environment) data id reason) :=
          .finish hkept hitem hid (hnot id hitem) hwaiting _ reason
        have hresetting : (middle.finish (middle.world environment) data id
            reason).resetting = base := by
          rw [(hmiddle.finish hkept hitem hid _ reason).2.1, hlist,
            List.erase_cons_head]
        obtain ⟨hleads, hsettled⟩ := hadvance base _ _
          ⟨hmove.sound hmiddle, hresetting⟩ hlater
        exact ⟨(hmoves.tail hmove).trans hleads.moves, hleads.resetting,
          fun htidy _ => hsettled htidy⟩

theorem startTransfers_leads (hloose : ¬ terms.tidy)
    (hfollows : Follows terms environment) (fuel : ℕ) :
    Advances terms base (startTransfers environment fuel) := by
  induction fuel with
  | zero =>
      intro queue changed _ hrun
      cases hrun
  | succ fuel ih =>
      intro queue changed hready hrun
      have hsend : Sends terms base
          (sendNextCommand environment (resetEngine environment some) fuel) :=
        sendNextCommand_leads hfollows
          (resetEngine_leads fun _ => advances_some hloose) fuel
      unfold startTransfers at hrun
      simp only at hrun
      split at hrun
      · cases hrun
      · rename_i hstarted
        cases hrun
        exact ⟨tryStartNextTransfer_leads hloose hfollows hsend fuel hready
          hstarted, fun h => absurd h hloose⟩
      · rename_i started hstarted
        have hleads := tryStartNextTransfer_leads hloose hfollows hsend fuel
          hready hstarted
        exact ⟨hleads.trans (ih _ _ (hready.leads hleads) hrun).1,
          fun h => absurd h hloose⟩

/-! ## The queue stops -/

theorem listing_leads (hready : Ready terms base queue)
    (hdata : data ∈ queue.engineData) (hinactive : data.active = false)
    (hown : data.transient = false) :
    Leads terms base queue (queue.execute data .list) ∧
      Leads terms base queue
        ({ queue.execute data .list with
            activeCount := (queue.execute data .list).activeCount + 1 }.modify
          data.address fun data =>
            { data with active := true, state := .list }) := by
  have hexecuted : Leads terms base queue (queue.execute data .list) := by
    apply Leads.move (.execute hdata _ _) hready.resetting fun _ h => h
    intro htransient
    rw [hown] at htransient
    cases htransient
  have hmem : data ∈ (queue.execute data .list).engineData := hdata
  refine ⟨hexecuted, hexecuted.trans
    (.move (.startListing hmem hinactive hown) hexecuted.resetting ?_)⟩
  intro _ hsettled
  have hwritten :
      ({ queue.execute data .list with
          activeCount := (queue.execute data .list).activeCount + 1 }.modify
        data.address fun data =>
          { data with active := true, state := .list }).engineData =
      UniqueKeys.write EngineData.address data.address
        (fun data => { data with active := true, state := .list })
        (queue.execute data .list).engineData := rfl
  apply hsettled.write _ _ hwritten
  · intro _ _ _
    rfl
  · intro _
    rfl

theorem tryRefreshListings_leads (states : List BrowsingState)
    (hready : Ready terms base queue) :
    Leads terms base queue (tryRefreshListings environment states queue) := by
  induction states generalizing queue with
  | nil => exact .refl hready
  | cons state rest ih =>
      unfold tryRefreshListings
      split
      · rename_i site listing _ _
        split_ifs
        · exact ih hready
        · obtain ⟨hleads, _, hidle⟩ := getIdleEngine_spec hready
            (queue.world environment) site false
          simp only
          generalize queue.getIdleEngine (queue.world environment) site
            false = found at *
          obtain ⟨idle, searched⟩ := found
          have hready' := hready.leads hleads
          simp only at hleads hidle ⊢
          split
          · exact hleads.trans (ih hready')
          · rename_i data hfound
            obtain ⟨address, rfl, hfind⟩ := Option.bind_eq_some_iff.mp hfound
            obtain ⟨hdata, haddress⟩ := find_mem hfind
            obtain ⟨record, hrecord, hsame, hinactive, hown⟩ :=
              hidle address rfl
            have hthis : record = data :=
              hready'.sound.records.addresses.eq_of_key hrecord hdata
                (hsame.trans haddress.symm)
            rw [hthis] at hinactive hown
            split_ifs
            · exact hleads.trans (ih hready')
            · have hnoted : Leads terms base searched
                  { searched with lastRefresh := some (site.server, listing) } :=
                .move (.note _ _ _ _) hleads.resetting fun _ h => h
              have hexecuted := (listing_leads (hready'.leads hnoted) hdata
                hinactive (hown rfl)).1
              exact ((hleads.trans hnoted).trans hexecuted).trans
                (ih ((hready'.leads hnoted).leads hexecuted))
            · have hnoted : Leads terms base searched
                  { searched with lastRefresh := some (site.server, listing) } :=
                .move (.note _ _ _ _) hleads.resetting fun _ h => h
              exact (hleads.trans hnoted).trans (listing_leads
                (hready'.leads hnoted) hdata hinactive (hown rfl)).2
      · exact ih hready

theorem checkQueueState_leads (hready : Ready terms base queue) :
    Leads terms base queue (checkQueueState environment queue) ∧
      (terms.tidy → (checkQueueState environment queue).Settled) := by
  have hsettled : queue.eraseTransient.Settled := by
    intro data hdata htransient
    have hkept := (List.mem_filter.mp hdata).2
    rw [htransient] at hkept
    simpa using hkept
  have herased : Leads terms base queue queue.eraseTransient :=
    .move (.eraseTransient queue) hready.resetting fun _ _ => hsettled
  have hchecked : Leads terms base queue.eraseTransient
      (checkQueueState environment queue) := by
    have hready' := hready.leads herased
    unfold checkQueueState
    simp only
    split_ifs
    · exact .refl hready'
    · have hnoted : Leads terms base queue.eraseTransient
          { queue.eraseTransient with activeMode := 0 } :=
        .move (.note _ _ _ _) herased.resetting fun _ h => h
      exact hnoted.trans (tryRefreshListings_leads _ (hready'.leads hnoted))
  exact ⟨herased.trans hchecked,
    fun htidy => hchecked.settled htidy hsettled⟩

theorem advanceQueue_leads (hfollows : Follows terms environment) (fuel : ℕ)
    (base : List ItemId) :
    Advances terms base (advanceQueue environment fuel) := by
  intro queue changed hready hrun
  obtain ⟨middle, hstarted, rfl⟩ := Option.map_eq_some_iff.mp hrun
  have hready' : Ready terms.loose base queue :=
    ⟨hready.sound, hready.resetting⟩
  have hfollows' : Follows terms.loose environment :=
    ⟨hfollows.known, hfollows.retry⟩
  have hleads := (startTransfers_leads (fun h => h) hfollows' fuel _ _ hready'
    hstarted).1
  have hterms : terms.loose.loose = terms.loose := rfl
  have hmoves : Moves terms base queue middle :=
    Moves.mono hterms (List.Subset.refl base) hleads.moves
  have hmiddle : Ready terms base middle :=
    ⟨hleads.moves.sound hready'.sound, hleads.resetting⟩
  obtain ⟨hchecked, hsettled⟩ :=
    @checkQueueState_leads terms base middle environment hmiddle
  exact ⟨⟨hmoves.trans hchecked.moves, hchecked.resetting,
    fun htidy _ => hsettled htidy⟩, hsettled⟩

theorem resetOutside_leads (hfollows : Follows terms environment)
    (fuel : ℕ) : Resets terms base (resetOutside environment fuel) :=
  resetEngine_leads (advanceQueue_leads hfollows fuel)

theorem sendOutside_leads (hfollows : Follows terms environment)
    (fuel : ℕ) : Sends terms base (sendOutside environment fuel) :=
  sendNextCommand_leads hfollows (resetOutside_leads hfollows fuel) fuel

end TransferQueue

end TabFtp
