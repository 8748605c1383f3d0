import TabFtp.TransferAdvance

/-!
# The events of the transfer queue

Whatever happens, the queue view makes moves, and between the events no
transfer is being ended.  So the items, the records and the counters agree in
every state that a run reaches.
-/

namespace TabFtp

namespace TransferQueue

variable {terms : Terms} {queue changed : TransferQueue} {id : ItemId}
  {data : EngineData} {environment : Environment} {fuel : ℕ}

theorem Ready.hasItem {base : List ItemId} (hready : Ready terms base queue)
    (hdata : data ∈ queue.engineData) (hnone : data.state ≠ .none)
    (hlist : data.state ≠ .list) (hwaiting : data.state ≠ .waitprimary) :
    ∃ id, data.item = some id := by
  have hthis := hready.sound.records.each data hdata
  apply Option.ne_none_iff_exists'.mp
  intro hitem
  cases hactive : data.active with
  | true => exact hlist (hthis.listing hactive hitem).1
  | false =>
      rcases (hthis.idle hactive).2 with h | h
      · exact hnone h
      · exact hwaiting h

section Outside

variable (hfollows : Follows terms environment) (hwaiting : terms.waiting)
  (huses : terms.uses)

include hfollows hwaiting

theorem reset_leads {address : ℕ} {reason : ResetReason}
    (hready : Ready terms [] queue)
    (hrun : resetOutside environment fuel address reason queue =
      some changed) : Leads terms [] queue changed := by
  cases hfound : queue.find address with
  | none =>
      unfold resetOutside resetEngine at hrun
      rw [hfound] at hrun
      cases hrun
  | some data =>
      obtain ⟨hdata, rfl⟩ := find_mem hfound
      exact resetOutside_leads hfollows fuel reason _ _ data hready hdata
        (fun _ _ => List.not_mem_nil) (fun _ => hwaiting) hrun

omit hwaiting in
theorem send_leads {address : ℕ} (hready : Ready terms [] queue)
    (hrun : sendOutside environment fuel address queue = some changed) :
    Leads terms [] queue changed := by
  cases fuel with
  | zero => cases hrun
  | succ fuel =>
      cases hfound : queue.find address with
      | none =>
          unfold sendOutside sendNextCommand at hrun
          rw [hfound] at hrun
          cases hrun
      | some data =>
          obtain ⟨hdata, rfl⟩ := find_mem hfound
          cases hitem : data.item with
          | none =>
              unfold sendOutside sendNextCommand at hrun
              rw [hfound] at hrun
              simp only [hitem] at hrun
              cases hrun
          | some id =>
              exact sendOutside_leads hfollows (fuel + 1) _ _ data id hready
                hdata hitem List.not_mem_nil hrun

theorem stopEngines_leads {more engineIndex : ℕ}
    (hready : Ready terms [] queue)
    (hrun : stopEngines environment fuel more engineIndex queue =
      some changed) : Leads terms [] queue changed := by
  induction more generalizing queue engineIndex with
  | zero => cases hrun
  | succ more ih =>
      unfold stopEngines at hrun
      split at hrun
      · cases hrun
        exact .refl hready
      · rename_i data _
        split_ifs at hrun
        · exact ih hready hrun
        · obtain ⟨middle, hreset, hlater⟩ := Option.bind_eq_some_iff.mp hrun
          have hleads := reset_leads hfollows hwaiting hready hreset
          exact hleads.trans (ih (hready.leads hleads) hlater)
        · have hleads : Leads terms [] queue
              (queue.emit (.cancel data.engine)) :=
            .move (.cancel queue data.engine) hready.resetting fun _ h => h
          exact hleads.trans (ih (hready.leads hleads) hrun)

omit hfollows hwaiting in
theorem queueImmediateFiles_leads {base : List ItemId}
    (hready : Ready terms base queue) :
    Leads terms base queue queue.queueImmediateFiles := by
  unfold queueImmediateFiles
  generalize queue.view.serverList.map Prod.fst = keys
  induction keys generalizing queue with
  | nil => exact .refl hready
  | cons key rest ih =>
      have hleads : Leads terms base queue
          (queue.onServer key ItemQueue.queueImmediateFiles) :=
        .same (.onServer queue key fun _ htree =>
          ItemQueue.calm_queueImmediateFiles htree) hready
          (queue.onServer_frame key _)
      exact hleads.trans (ih (hready.leads hleads))

theorem setActive_leads {active : Bool} (hready : Ready terms [] queue)
    (hrun : setActive environment fuel active queue = some changed) :
    Leads terms [] queue changed := by
  have hnoted : ∀ activeMode, Leads terms [] queue
      { queue with activeMode := activeMode } := fun activeMode =>
    .move (.note queue activeMode _ _) hready.resetting fun _ h => h
  unfold setActive at hrun
  split_ifs at hrun
  · cases hrun
    exact .refl hready
  · exact (hnoted 2).trans (advanceQueue_leads hfollows fuel [] _ _
      (hready.leads (hnoted 2)) hrun).1
  · have hready' := hready.leads (hnoted 0)
    have hqueued := queueImmediateFiles_leads hready'
    exact ((hnoted 0).trans hqueued).trans
      (stopEngines_leads hfollows hwaiting (hready'.leads hqueued) hrun)

/-! ## Replies -/

omit hfollows hwaiting in
theorem setStateOutside_leads (hready : Ready terms [] queue)
    (hdata : data ∈ queue.engineData) (hnone : data.state ≠ .none)
    (hlist : data.state ≠ .list) (hwaiting : data.state ≠ .waitprimary)
    {state : EngineState} (hbusy : state ≠ .none ∧ state ≠ .list ∧
      state ≠ .waitprimary) :
    Leads terms [] queue (queue.setState data.address state) := by
  obtain ⟨id, hitem⟩ := hready.hasItem hdata hnone hlist hwaiting
  exact (setState_leads hready hdata hitem List.not_mem_nil hbusy.1 hbusy.2.1
    hbusy.2.2 fun h => absurd h hwaiting).1

theorem proceed_leads {address : ℕ} (hready : Ready terms [] queue)
    (hrun : proceed environment fuel address queue = some changed) :
    Leads terms [] queue changed := by
  unfold proceed at hrun
  split at hrun
  · cases hrun
  · rename_i data hfound
    obtain ⟨hdata, rfl⟩ := find_mem hfound
    simp only at hrun
    have hasked : Leads terms [] queue
        (if data.state = .connect ∧
            (queue.world environment).hasPassword data.lastSite = false then
          queue.setState data.address EngineState.askpassword
        else queue) := by
      split_ifs with hconnect
      · apply setStateOutside_leads hready hdata
        · rw [hconnect.1]
          decide
        · rw [hconnect.1]
          decide
        · rw [hconnect.1]
          decide
        · decide
      · exact .refl hready
    generalize (if data.state = .connect ∧
        (queue.world environment).hasPassword data.lastSite = false then
      queue.setState data.address EngineState.askpassword
      else queue) = asked at hrun hasked
    have hready' := hready.leads hasked
    split_ifs at hrun
    · exact hasked.trans (reset_leads hfollows hwaiting hready' hrun)
    · exact hasked.trans (reset_leads hfollows hwaiting hready' hrun)
    · exact hasked.trans (send_leads hfollows hready' hrun)

omit hfollows hwaiting in
theorem canceledItem_leads (data : EngineData)
    (hready : Ready terms [] queue) :
    Leads terms [] queue
      (match data.item, data.item.bind queue.item with
      | some id, some item =>
          if !item.pendingRemove && item.type = .file && item.madeProgress
            then queue.modifyItem id fun item => item.setMadeProgress false
          else queue
      | _, _ => queue) := by
  split
  · split_ifs
    · exact .move (.modifyItem queue _ (unnoticed_setMadeProgress false))
        hready.resetting fun _ h => h
    · exact .refl hready
  · exact .refl hready

theorem processCanceled_leads (hready : Ready terms [] queue)
    (hrun : processCanceled environment fuel data queue = some changed) :
    Leads terms [] queue changed := by
  have hmarked := canceledItem_leads data hready
  unfold processCanceled at hrun
  simp only at hrun
  obtain ⟨middle, hstopped, hreset⟩ := Option.bind_eq_some_iff.mp hrun
  clear hrun
  have hready' := hready.leads hmarked
  have hleads : Leads terms [] queue middle := by
    split at hstopped
    · exact hmarked.trans (setActive_leads hfollows hwaiting hready' hstopped)
    · cases hstopped
      exact hmarked
  exact hleads.trans (reset_leads hfollows hwaiting (hready.leads hleads)
    hreset)

omit hwaiting in
theorem countError_leads (hready : Ready terms [] queue)
    (hdata : data ∈ queue.engineData) (hitem : data.item = some id)
    (hstate : data.state ≠ .waitprimary)
    {retry : TransferQueue → Option TransferQueue}
    (hretry : ∀ middle, Ready terms [] middle →
      retry middle = some changed → Leads terms [] middle changed)
    (hrun : increaseErrorCount environment (resetOutside environment fuel)
      data.address id retry queue = some changed) :
    Leads terms [] queue changed :=
  increaseErrorCount_leads (resetOutside_leads hfollows fuel) hready hdata
    hitem List.not_mem_nil hstate (fun middle hmiddle _ => hretry middle hmiddle)
    hrun

theorem processReply_leads {address : ℕ} {replyCode : Reply}
    (hready : Ready terms [] queue)
    (hrun : processReply environment fuel address replyCode queue =
      some changed) : Leads terms [] queue changed := by
  have hreset : ∀ {reason}, resetOutside environment fuel address reason
      queue = some changed → Leads terms [] queue changed := fun h =>
    reset_leads hfollows hwaiting hready h
  have hproceed : ∀ {middle}, Leads terms [] queue middle →
      proceed environment fuel address middle = some changed →
      Leads terms [] queue changed := fun hleads h =>
    hleads.trans (proceed_leads hfollows hwaiting (hready.leads hleads) h)
  have hretry : ∀ middle, Ready terms [] middle →
      proceed environment fuel address middle = some changed →
      Leads terms [] middle changed := fun _ hmiddle h =>
    proceed_leads hfollows hwaiting hmiddle h
  unfold processReply at hrun
  split at hrun
  · cases hrun
  · rename_i data hfound
    obtain ⟨hdata, rfl⟩ := find_mem hfound
    split at hrun
    · exact processCanceled_leads hfollows hwaiting hready hrun
    · have hthis := hready.sound.records.each data hdata
      have hset : data.state = .disconnect ∨ data.state = .connect →
          ∀ state : EngineState, state ≠ .none ∧ state ≠ .list ∧
            state ≠ .waitprimary →
          Leads terms [] queue (queue.setState data.address state) := by
        intro hor state hbusy
        apply setStateOutside_leads hready hdata _ _ _ hbusy
        all_goals rcases hor with h | h <;> rw [h] <;> decide
      cases hstate : data.state with
      | disconnect =>
          rw [hstate] at hrun
          have hactive : data.active = true := by
            by_contra hnot
            rcases (hthis.idle (eq_false_of_ne_true hnot)).2 with h | h
            · rw [hstate] at h
              cases h
            · rw [hstate] at h
              cases h
          simp only [hactive, if_true] at hrun
          exact hproceed (hset (Or.inl hstate) .connect (by decide)) hrun
      | connect =>
          rw [hstate] at hrun
          simp only at hrun
          split at hrun
          · exact hreset hrun
          · cases hrun
          · rename_i id item hitem _
            split_ifs at hrun
            · exact hproceed (hset (Or.inr hstate) _
                (transferState_busy item)) hrun
            · exact countError_leads hfollows hready hdata hitem
                (by rw [hstate]; decide) hretry hrun
            · exact hproceed (.refl hready) hrun
      | transfer =>
          rw [hstate] at hrun
          simp only at hrun
          split at hrun
          · exact hreset hrun
          · cases hrun
          · rename_i id item hitem _
            split_ifs at hrun
            · exact hreset hrun
            · exact hproceed (.move (.modifyItem queue id
                (unnoticed_setMadeProgress false)) hready.resetting
                fun _ h => h) hrun
            · exact hreset hrun
            · exact countError_leads hfollows hready hdata hitem
                (by rw [hstate]; decide) (fun _ hmiddle hlater =>
                  reset_leads hfollows hwaiting hmiddle hlater) hrun
            · exact countError_leads hfollows hready hdata hitem
                (by rw [hstate]; decide) hretry hrun
      | mkdir =>
          rw [hstate] at hrun
          simp only at hrun
          split_ifs at hrun
          · exact hreset hrun
          · split at hrun
            · cases hrun
            · rename_i id hitem
              exact countError_leads hfollows hready hdata hitem
                (by rw [hstate]; decide) hretry hrun
          · exact hreset hrun
      | list =>
          rw [hstate] at hrun
          exact hreset hrun
      | none | cancel | askpassword | waitprimary =>
          rw [hstate] at hrun
          cases hrun
          exact .refl hready

/-! ## Passwords and browsing connections -/

theorem onAskPassword_leads {passwords : List Bool}
    (hready : Ready terms [] queue)
    (hrun : onAskPassword environment fuel passwords queue = some changed) :
    Leads terms [] queue changed := by
  induction passwords generalizing queue with
  | nil =>
      unfold onAskPassword at hrun
      split at hrun
      · cases hrun
        exact .refl hready
      · cases hrun
      · rename_i h
        cases h
  | cons password rest ih =>
      unfold onAskPassword at hrun
      split at hrun
      · cases hrun
        exact .refl hready
      · cases hrun
      · rename_i engine _ password passwords _ heq
        cases heq
        obtain ⟨middle, hdone, hlater⟩ := Option.bind_eq_some_iff.mp hrun
        clear hrun
        have hleads : Leads terms [] queue middle := by
          split at hdone
          · cases hdone
            exact .refl hready
          · rename_i data hfound
            have hdata := (getEngineData_some hfound).1
            split_ifs at hdone with hother
            · cases hdone
              exact .refl hready
            · rw [not_ne_iff] at hother
              have hset : Leads terms [] queue
                  (queue.setState data.address .connect) := by
                apply setStateOutside_leads hready hdata
                · rw [hother]
                  decide
                · rw [hother]
                  decide
                · rw [hother]
                  decide
                · decide
              exact hset.trans
                (send_leads hfollows (hready.leads hset) hdone)
            · obtain ⟨stopped, hstopped, hreset⟩ :=
                Option.bind_eq_some_iff.mp hdone
              have hset := setActive_leads hfollows hwaiting hready hstopped
              exact hset.trans (reset_leads hfollows hwaiting
                (hready.leads hset) hreset)
        have hnoted : Leads terms [] queue
            { middle with
              waitingForPassword := middle.waitingForPassword.tail } :=
          hleads.trans
            (.move (.note _ _ _ _) hleads.resetting fun _ h => h)
        exact hnoted.trans (ih (hready.leads hnoted) hlater)

theorem granted_leads {context : ℕ} (hgranted : terms.granted context)
    (hready : Ready terms [] queue)
    (hrun : onExclusiveEngineRequestGranted environment fuel context queue =
      some changed) : Leads terms [] queue changed := by
  have hreleased : Leads terms [] queue
      (queue.emit (.releaseEngine (.browsing context))) :=
    .move (.release (Or.inr hwaiting)) hready.resetting fun _ h => h
  unfold onExclusiveEngineRequestGranted at hrun
  simp only at hrun
  split at hrun
  · cases hrun
    exact hreleased
  · rename_i data hfound
    obtain ⟨hdata, hengine⟩ := getEngineData_some hfound
    split_ifs at hrun
    · cases hrun
      exact hreleased
    · cases hrun
      exact .refl hready
    · split at hrun
      · rename_i id item hitem _
        split at hrun
        · cases hrun
        · split_ifs at hrun
          · obtain ⟨hnone, hlist, hbusy⟩ := transferState_busy item
            have hset : Leads terms [] queue
                (queue.setState data.address (transferState item)) := by
              apply (setState_leads hready hdata hitem List.not_mem_nil hnone
                hlist hbusy _).1
              intro _ other hother
              rw [hengine] at hother
              cases hother
              exact hgranted
            exact hset.trans (send_leads hfollows (hready.leads hset) hrun)
          · exact hreleased.trans (reset_leads hfollows hwaiting
              (hready.leads hreleased) hrun)
      · cases hrun

/-! ## Removing items -/

omit hfollows hwaiting in
theorem stoppedItem_leads (id : ItemId) (hready : Ready terms [] queue) :
    Leads terms [] queue
      (match queue.topLevelItem id with
      | none => queue
      | some (key, _) =>
          queue.onServer key fun queue => queue.queueImmediateFile id) := by
  split
  · exact .refl hready
  · exact .same (.onServer queue _ fun _ htree =>
      ItemQueue.calm_queueImmediateFile htree id) hready
      (queue.onServer_frame _ _)

theorem stopItem_leads (hready : Ready terms [] queue)
    (hrun : stopItem environment fuel id queue = some changed) :
    Leads terms [] queue changed := by
  have hstopped := stoppedItem_leads id hready
  unfold stopItem at hrun
  simp only at hrun
  have hready' := hready.leads hstopped
  split at hrun
  · cases hrun
  · split_ifs at hrun
    · exact hstopped.trans (reset_leads hfollows hwaiting hready' hrun)
    · exact hstopped.trans (reset_leads hfollows hwaiting hready' hrun)
    · cases hrun
      exact hstopped.trans
        (.move (.cancel _ _) hready'.resetting fun _ h => h)

theorem stopAndRemove_leads (hready : Ready terms [] queue)
    (hrun : stopAndRemove environment fuel id queue = some changed) :
    Leads terms [] queue changed := by
  have hmarked : Leads terms [] queue
      (queue.modifyItem id fun item => item.setPendingRemove true) :=
    .move (.modifyItem queue id (unnoticed_setPendingRemove true))
      hready.resetting fun _ h => h
  exact hmarked.trans
    (stopItem_leads hfollows hwaiting (hready.leads hmarked) hrun)

omit hfollows hwaiting in
include huses in
theorem useRow_leads {base : List ItemId} (hready : Ready terms base queue)
    (row : QueueRow) : Leads terms base queue (queue.useRow row) :=
  .move (.useRow queue huses row) hready.resetting fun _ h => h

omit hfollows hwaiting in
theorem removeIdle_leads {base : List ItemId} (hready : Ready terms base queue)
    (hinactive : ¬ queue.isActiveItem id = true) (forward : Bool) :
    Leads terms base queue (queue.removeItem id true forward).1 :=
  .same (.removeItem (eq_false_of_ne_true hinactive) forward) hready
    (queue.removeItem_frame id true forward)

include huses in
theorem stopChildren_leads {ids : List ItemId} (hready : Ready terms [] queue)
    (hrun : stopChildren environment fuel ids queue = some changed) :
    Leads terms [] queue changed := by
  induction ids generalizing queue with
  | nil =>
      cases hrun
      exact .refl hready
  | cons id rest ih =>
      have hused := useRow_leads huses hready (.file id)
      have hready' := hready.leads hused
      unfold stopChildren at hrun
      simp only at hrun
      split_ifs at hrun with _ hactive
      · cases hrun
        exact hused
      · obtain ⟨middle, hstopped, hlater⟩ := Option.bind_eq_some_iff.mp hrun
        have hleads := hused.trans
          (stopAndRemove_leads hfollows hwaiting hready' hstopped)
        exact hleads.trans (ih (hready.leads hleads) hlater)
      · have hremoved := hused.trans (removeIdle_leads hready' hactive false)
        generalize (queue.useRow (.file id)).removeItem id true false = removed
          at hrun hremoved
        obtain ⟨left, deleted⟩ := removed
        cases deleted with
        | true =>
            cases hrun
            exact hremoved
        | false =>
            exact hremoved.trans (ih (hready.leads hremoved) hrun)

include huses in
theorem removeRows_leads {deleted : Option ServerId}
    {selected : List (ℕ × QueueRow)} (hready : Ready terms [] queue)
    (hrun : removeRows environment fuel deleted selected queue =
      some changed) : Leads terms [] queue changed := by
  induction selected generalizing queue deleted with
  | nil =>
      unfold removeRows at hrun
      cases hrun
      exact .refl hready
  | cons entry rest ih =>
      obtain ⟨index, row⟩ := entry
      unfold removeRows at hrun
      simp only at hrun
      split at hrun
      · exact ih hready hrun
      · have hused := useRow_leads huses hready row
        have hready' := hready.leads hused
        split at hrun
        · cases hrun
          exact hused
        · cases row with
          | status id => exact hused.trans (ih hready' hrun)
          | server key =>
              simp only at hrun
              split at hrun
              · cases hrun
              · obtain ⟨middle, hstopped, hlater⟩ :=
                  Option.bind_eq_some_iff.mp hrun
                have hleads := hused.trans
                  (stopChildren_leads hfollows hwaiting huses hready' hstopped)
                exact hleads.trans (ih (hready.leads hleads) hlater)
          | file id =>
              simp only at hrun
              split at hrun
              · obtain ⟨middle, hstopped, hlater⟩ :=
                  Option.bind_eq_some_iff.mp hrun
                have hleads := hused.trans
                  (stopAndRemove_leads hfollows hwaiting hready' hstopped)
                exact hleads.trans (ih (hready.leads hleads) hlater)
              · rename_i hactive
                split at hrun
                · cases hrun
                · rename_i key server _
                  have hchild : Leads terms [] queue
                      ((queue.useRow (.file id)).getServerChild key 1).2 :=
                    hused.trans (.same (.getServerChild _ key 1) hready'
                      (getServerChild_frame _ key 1))
                  obtain ⟨view, heq, hcalm⟩ :=
                    getServerChild_calm hready'.sound key 1
                  have hsame : ¬ ((queue.useRow (.file id)).getServerChild
                      key 1).2.isActiveItem id = true := by
                    rw [heq, isActiveItem_eq]
                    rw [isActiveItem_eq] at hactive
                    exact (hcalm.activity id).isActive ▸ hactive
                  have hremoved := fun forward => hchild.trans
                    (removeIdle_leads (hready.leads hchild) hsame forward)
                  exact (hremoved _).trans
                    (ih (hready.leads (hremoved _)) hrun)

omit hfollows hwaiting in
theorem removeAll_leads {base : List ItemId}
    (hready : Ready terms base queue) :
    Leads terms base queue (removeAll environment queue) := by
  have hremoved : Leads terms base queue
      { queue with view := queue.view.removeAll } :=
    .move (.removeAll queue) hready.resetting fun _ h => h
  exact hremoved.trans (checkQueueState_leads (hready.leads hremoved)).1

/-! ## Any event -/

theorem handle_leads {event : Event}
    (huses : ∀ selected, event = .removeSelected selected → terms.uses)
    (hgranted : ∀ context, event = .granted context →
      terms.granted context)
    (hready : Ready terms [] queue)
    (hrun : handle environment fuel queue event = some changed) :
    Leads terms [] queue changed := by
  cases event with
  | queueFile file onSuccess =>
      unfold handle at hrun
      simp only at hrun
      split_ifs at hrun with hplain
      cases hrun
      obtain ⟨hfile, hlater, _⟩ := hplain
      apply queueFile_leads hready hfile
      intro later heq
      rw [heq] at hlater
      exact hlater
  | queueFileFinish start =>
      unfold handle at hrun
      simp only at hrun
      generalize (if queue.activeMode = 0 ∧ start = true then 1
        else queue.activeMode) = activeMode at hrun
      split at hrun
      · cases hrun
        exact .refl hready
      · exact advanced_leads (advanceQueue_leads hfollows fuel []) hready
          (.refl hready) _ hrun
  | setActive active => exact setActive_leads hfollows hwaiting hready hrun
  | reply address replyCode =>
      unfold handle at hrun
      simp only at hrun
      split at hrun
      · exact processReply_leads hfollows hwaiting hready hrun
      · cases hrun
  | madeProgress address =>
      unfold handle at hrun
      simp only at hrun
      split at hrun
      · cases hrun
      · split at hrun
        · split_ifs at hrun
          · cases hrun
            exact .move (.modifyItem queue _ (unnoticed_setMadeProgress true))
              hready.resetting fun _ h => h
          · cases hrun
            exact .refl hready
        · cases hrun
          exact .refl hready
  | askPassword passwords =>
      exact onAskPassword_leads hfollows hwaiting hready hrun
  | granted context =>
      exact granted_leads hfollows hwaiting (hgranted context rfl) hready hrun
  | removeSelected selected =>
      exact removeRows_leads hfollows hwaiting (huses selected rfl) hready hrun
  | removeAll =>
      cases hrun
      exact removeAll_leads hready
  | stopAndClear =>
      obtain ⟨stopped, hstopped, rfl⟩ := Option.map_eq_some_iff.mp hrun
      have hleads := setActive_leads hfollows hwaiting hready hstopped
      exact hleads.trans (removeAll_leads (hready.leads hleads))

end Outside

/-! ## Runs -/

/-- Any browsing connection, and any record that waits may be freed. -/
def Terms.all : Terms :=
  ⟨fun _ => True, fun _ => True, True, True, True⟩

theorem follows_all (environment : Environment) :
    Follows .all environment :=
  ⟨fun _ _ _ => trivial, Or.inl trivial⟩

theorem sound_empty {known : ℕ → Prop} : empty.Sound known := by
  have hnone : ∀ id, empty.view.items.isActive id = false := fun _ => rfl
  have hrecords : ∀ data, data ∉ empty.engineData := fun _ =>
    List.not_mem_nil
  constructor
  · constructor
    · exact ⟨List.Pairwise.nil, List.nodup_nil, fun _ h => by cases h⟩
    · intro entry hentry
      cases hentry
    · exact List.nodup_nil
    · intro id
      constructor
      · intro h
        cases h
      · intro h
        cases h
    · intro id h
      cases h
    · intro id h
      rw [hnone] at h
      cases h
  · constructor
    · exact List.Pairwise.nil
    · exact List.Pairwise.nil
    · intro data hdata
      exact absurd hdata (hrecords data)
    · intro id h
      rw [hnone] at h
      cases h
  · refine ⟨rfl, rfl, rfl, ?_, List.nodup_nil, ?_⟩
    · intro entry hentry
      cases hentry
    · intro id hid
      cases hid
  · intro id file h
    cases h

theorem Ready.cleared {base : List ItemId} (hready : Ready terms base queue) :
    Ready terms base { queue with effects := [] } := by
  have hsound := hready.sound
  exact ⟨⟨hsound.items, hsound.records, hsound.counted, hsound.plain⟩,
    hready.resetting⟩

theorem step_leads (hready : Ready .all [] queue) {request : Request}
    {answer : List Effect}
    (hstep : step queue request = some (changed, answer)) :
    Leads .all [] { queue with effects := [] } changed ∧
      answer = changed.effects := by
  unfold step at hstep
  split_ifs at hstep
  obtain ⟨handled, hhandled, heq⟩ := Option.map_eq_some_iff.mp hstep
  cases heq
  exact ⟨handle_leads (follows_all _) trivial (fun _ _ => trivial)
    (fun _ _ => trivial) hready.cleared hhandled, rfl⟩

/-- Between requests the queue has nothing left to do. -/
theorem reaches_settled {requests : List Request} {outputs : List Effect}
    {allowed : TransferQueue → Request → Prop}
    (hrun : machine.ReachesWithin allowed requests outputs queue) :
    Ready .all [] queue ∧ queue.Settled := by
  apply hrun.stateInvariant fun queue => Ready .all [] queue ∧ queue.Settled
  · intro state hinitial
    rw [hinitial]
    refine ⟨⟨sound_empty, rfl⟩, ?_⟩
    intro data hdata
    cases hdata
  · intro state request following answer hboth _ hstep
    obtain ⟨hready, hsettled⟩ := hboth
    have hleads := (step_leads hready hstep).1
    exact ⟨hready.cleared.leads hleads, hleads.settled trivial hsettled⟩

theorem reaches_ready {requests : List Request} {outputs : List Effect}
    {allowed : TransferQueue → Request → Prop}
    (hrun : machine.ReachesWithin allowed requests outputs queue) :
    Ready .all [] queue :=
  (reaches_settled hrun).1

end TransferQueue

end TabFtp
