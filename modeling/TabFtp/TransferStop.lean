import TabFtp.TransferQueueRuns

/-!
# Stopping the queue

`SetActive(false)` walks over the records by their index.  A record that waits
for a browsing connection is deleted on the way, and the one after it moves to
its index.
-/

namespace TabFtp

namespace TransferQueue

variable {queue changed : TransferQueue} {requests : List Request}
  {outputs : List Effect} {environment : Environment} {fuel : ℕ}
  {data : EngineData} {records : List EngineData}

/-! ## The walk over the records -/

def walked : List EngineData → List EngineData × List Engine
  | [] => ([], [])
  | data :: rest =>
      if data.active = false then
        (data :: (walked rest).1, (walked rest).2)
      else if data.state = .waitprimary then
        match rest with
        | [] => ([], [])
        | skipped :: rest => (skipped :: (walked rest).1, (walked rest).2)
      else (data :: (walked rest).1, data.engine :: (walked rest).2)

theorem walked_subset (records : List EngineData) :
    (∀ data ∈ (walked records).1, data ∈ records) ∧
      ∀ engine ∈ (walked records).2, ∃ data ∈ records,
        data.engine = engine := by
  fun_induction walked records with
  | case1 =>
      constructor
      · intro other hother
        cases hother
      · intro engine hengine
        cases hengine
  | case2 data rest _ ih =>
      constructor
      · intro other hother
        rcases List.mem_cons.mp hother with rfl | hlater
        · exact List.mem_cons_self
        · exact List.mem_cons_of_mem _ (ih.1 other hlater)
      · intro engine hengine
        obtain ⟨other, hother, heq⟩ := ih.2 engine hengine
        exact ⟨other, List.mem_cons_of_mem _ hother, heq⟩
  | case3 data =>
      constructor
      · intro other hother
        cases hother
      · intro engine hengine
        cases hengine
  | case4 data _ _ skipped rest ih =>
      constructor
      · intro other hother
        rcases List.mem_cons.mp hother with rfl | hlater
        · exact List.mem_cons_of_mem _ List.mem_cons_self
        · exact List.mem_cons_of_mem _
            (List.mem_cons_of_mem _ (ih.1 other hlater))
      · intro engine hengine
        obtain ⟨other, hother, heq⟩ := ih.2 engine hengine
        exact ⟨other, List.mem_cons_of_mem _ (List.mem_cons_of_mem _ hother),
          heq⟩
  | case5 data rest _ _ ih =>
      constructor
      · intro other hother
        rcases List.mem_cons.mp hother with rfl | hlater
        · exact List.mem_cons_self
        · exact List.mem_cons_of_mem _ (ih.1 other hlater)
      · intro engine hengine
        rcases List.mem_cons.mp hengine with rfl | hlater
        · exact ⟨data, List.mem_cons_self, rfl⟩
        · obtain ⟨other, hother, heq⟩ := ih.2 engine hlater
          exact ⟨other, List.mem_cons_of_mem _ hother, heq⟩

def IsStopped (left : List EngineData) (canceled : List Engine)
    (data : EngineData) : Prop :=
  (∀ other ∈ left, other.address = data.address → other.active = false) ∨
    data.engine ∈ canceled

def Spaced (records : List EngineData) : Prop :=
  records.IsChain fun data next =>
    ¬ (data.active = true ∧ data.state = .waitprimary ∧ next.active = true)

theorem isStopped_cons {left : List EngineData} {canceled : List Engine}
    {other : EngineData} (haddress : other.address ≠ data.address) :
    IsStopped (other :: left) canceled data ↔
      IsStopped left canceled data := by
  unfold IsStopped
  rw [List.forall_mem_cons]
  constructor
  · intro h
    rcases h with ⟨_, h⟩ | h
    · exact Or.inl h
    · exact Or.inr h
  · intro h
    rcases h with h | h
    · exact Or.inl ⟨fun heq => absurd heq haddress, h⟩
    · exact Or.inr h

theorem isStopped_cancel {left : List EngineData} {canceled : List Engine}
    {other : EngineData} (hengine : other.engine ≠ data.engine) :
    IsStopped left (other.engine :: canceled) data ↔
      IsStopped left canceled data := by
  unfold IsStopped
  rw [List.mem_cons]
  constructor
  · intro h
    rcases h with h | h | h
    · exact Or.inl h
    · exact absurd h.symm hengine
    · exact Or.inr h
  · intro h
    rcases h with h | h
    · exact Or.inl h
    · exact Or.inr (Or.inr h)

theorem spaced_cons (hnot : ¬ (data.active = true ∧
    data.state = .waitprimary)) : Spaced (data :: records) ↔ Spaced records := by
  unfold Spaced
  cases records with
  | nil => exact ⟨fun _ => .nil, fun _ => .singleton data⟩
  | cons next rest =>
      rw [List.isChain_cons_cons]
      exact ⟨fun h => h.2, fun h => ⟨fun hall => hnot ⟨hall.1, hall.2.1⟩, h⟩⟩

/-- The walk stops all records if no active one follows one that waits. -/
theorem walked_stops_iff
    (haddresses : UniqueKeys.Unique EngineData.address records)
    (hengines : UniqueKeys.Unique EngineData.engine records) :
    (∀ data ∈ records, data.active = true →
      IsStopped (walked records).1 (walked records).2 data) ↔
      Spaced records := by
  -- Records of the rest differ from the first one.
  have hapart : ∀ {data : EngineData} {rest : List EngineData},
      UniqueKeys.Unique EngineData.address (data :: rest) →
      UniqueKeys.Unique EngineData.engine (data :: rest) →
      (∀ other ∈ rest, data.address ≠ other.address ∧
        data.engine ≠ other.engine) ∧
      UniqueKeys.Unique EngineData.address rest ∧
        UniqueKeys.Unique EngineData.engine rest := by
    intro data rest haddress hengine
    obtain ⟨hfirst, haddress⟩ := List.nodup_cons.mp haddress
    obtain ⟨hsecond, hengine⟩ := List.nodup_cons.mp hengine
    refine ⟨fun other hother => ⟨?_, ?_⟩, haddress, hengine⟩
    · intro heq
      exact hfirst (heq ▸ List.mem_map_of_mem hother)
    · intro heq
      exact hsecond (heq ▸ List.mem_map_of_mem hother)
  fun_induction walked records with
  | case1 =>
      constructor
      · intro _
        exact .nil
      · intro _ data hdata
        cases hdata
  | case2 data rest hinactive ih =>
      obtain ⟨hothers, haddress, hengine⟩ := hapart haddresses hengines
      have hnot : ¬ (data.active = true ∧ data.state = .waitprimary) := by
        intro h
        rw [hinactive] at h
        cases h.1
      have hiff : (∀ data ∈ rest, data.active = true →
          IsStopped (walked rest).1 (walked rest).2 data) ↔ Spaced rest :=
        ih haddress hengine
      rw [spaced_cons hnot, ← hiff, List.forall_mem_cons]
      constructor
      · intro h other hother hactive
        exact (isStopped_cons (hothers other hother).1).mp
          (h.2 other hother hactive)
      · intro h
        refine ⟨fun hactive => ?_, fun other hother hactive => ?_⟩
        · rw [hinactive] at hactive
          cases hactive
        · exact (isStopped_cons (hothers other hother).1).mpr
            (h other hother hactive)
  | case3 data =>
      constructor
      · intro _
        exact .singleton data
      · intro _ other _ _
        exact Or.inl fun _ h => absurd h List.not_mem_nil
  | case4 data hactive hwaiting skipped rest ih =>
      obtain ⟨hothers, haddress, hengine⟩ := hapart haddresses hengines
      obtain ⟨hrest, haddress, hengine⟩ := hapart haddress hengine
      obtain ⟨hsubset, hcanceled⟩ := walked_subset rest
      have hskipped : skipped.active = true →
          ¬ IsStopped (skipped :: (walked rest).1) (walked rest).2 skipped := by
        intro hthis hstopped
        rcases hstopped with hleft | hcancel
        · have hnot := hleft skipped List.mem_cons_self rfl
          rw [hthis] at hnot
          cases hnot
        · obtain ⟨other, hother, heq⟩ := hcanceled _ hcancel
          exact (hrest other hother).2 heq.symm
      have hgone : IsStopped (skipped :: (walked rest).1) (walked rest).2
          data := by
        apply Or.inl
        intro other hother heq
        rcases List.mem_cons.mp hother with hsame | hlater
        · rw [hsame] at heq
          exact absurd heq.symm (hothers skipped List.mem_cons_self).1
        · exact absurd heq.symm (hothers other
            (List.mem_cons_of_mem _ (hsubset other hlater))).1
      have hspaced : Spaced (data :: skipped :: rest) ↔
          skipped.active = false ∧ Spaced rest := by
        unfold Spaced
        rw [List.isChain_cons_cons]
        have hdata : data.active = true := by
          rwa [Bool.not_eq_false] at hactive
        constructor
        · intro h
          have hinactive : skipped.active = false := by
            apply eq_false_of_ne_true
            intro hthis
            exact h.1 ⟨hdata, hwaiting, hthis⟩
          refine ⟨hinactive, (spaced_cons ?_).mp h.2⟩
          intro hboth
          rw [hinactive] at hboth
          cases hboth.1
        · intro h
          have hnot : ¬ skipped.active = true := by
            rw [h.1]
            exact Bool.false_ne_true
          exact ⟨fun hall => hnot hall.2.2,
            (spaced_cons fun hboth => hnot hboth.1).mpr h.2⟩
      have hiff : (∀ data ∈ rest, data.active = true →
          IsStopped (walked rest).1 (walked rest).2 data) ↔ Spaced rest :=
        ih haddress hengine
      rw [hspaced, ← hiff]
      constructor
      · intro h
        constructor
        · apply eq_false_of_ne_true
          intro hthis
          exact hskipped hthis (h skipped
            (List.mem_cons_of_mem _ List.mem_cons_self) hthis)
        · intro other hother hthis
          exact (isStopped_cons (hrest other hother).1).mp (h other
            (List.mem_cons_of_mem _ (List.mem_cons_of_mem _ hother)) hthis)
      · intro h other hother hthis
        rcases List.mem_cons.mp hother with rfl | hlater
        · exact hgone
        · rcases List.mem_cons.mp hlater with rfl | hlast
          · rw [h.1] at hthis
            cases hthis
          · exact (isStopped_cons (hrest other hlast).1).mpr
              (h.2 other hlast hthis)
  | case5 data rest hactive hwaiting ih =>
      obtain ⟨hothers, haddress, hengine⟩ := hapart haddresses hengines
      have hiff : (∀ data ∈ rest, data.active = true →
          IsStopped (walked rest).1 (walked rest).2 data) ↔ Spaced rest :=
        ih haddress hengine
      rw [spaced_cons fun h => hwaiting h.2, ← hiff, List.forall_mem_cons]
      have hsame : ∀ other ∈ rest,
          IsStopped (data :: (walked rest).1)
            (data.engine :: (walked rest).2) other ↔
          IsStopped (walked rest).1 (walked rest).2 other := by
        intro other hother
        rw [isStopped_cons (hothers other hother).1,
          isStopped_cancel (hothers other hother).2]
      constructor
      · intro h other hother hthis
        exact (hsame other hother).mp (h.2 other hother hthis)
      · intro h
        refine ⟨fun _ => Or.inr List.mem_cons_self, ?_⟩
        intro other hother hthis
        exact (hsame other hother).mpr (h other hother hthis)

/-! ## The loop of `SetActive` -/

theorem advanceQueue_inactive (hmode : queue.activeMode = 0) (fuel : ℕ) :
    advanceQueue environment (fuel + 1) queue = some queue.eraseTransient := by
  have htry : ∀ send, tryStartNextTransfer environment send fuel queue =
      some (false, queue) := fun send => if_pos (Or.inl hmode)
  unfold advanceQueue startTransfers
  simp only [htry]
  have hchecked : checkQueueState environment queue =
      queue.eraseTransient := if_pos (Or.inr hmode)
  rw [Option.map_some, hchecked]

theorem resetOutside_waiting {before after : List EngineData}
    (hready : Ready .all [] queue) (hsettled : queue.Settled)
    (hmode : queue.activeMode = 0)
    (hlist : queue.engineData = before ++ data :: after)
    (hactive : data.active = true) (hwaiting : data.state = .waitprimary) :
    ∃ changed, resetOutside environment (fuel + 1) data.address .reset queue =
        some changed ∧
      changed.activeMode = 0 ∧ changed.engineData = before ++ after ∧
      ∀ engine, .cancel engine ∈ changed.effects ↔
        .cancel engine ∈ queue.effects := by
  have hdata : data ∈ queue.engineData := by
    rw [hlist]
    exact List.mem_append_right _ List.mem_cons_self
  have hthis := hready.sound.records.each data hdata
  obtain ⟨id, hitem⟩ : ∃ id, data.item = some id := by
    apply Option.ne_none_iff_exists'.mp
    intro hnone
    have hstate := (hthis.listing hactive hnone).1
    rw [hwaiting] at hstate
    cases hstate
  have hresetting : id ∉ queue.resetting := by
    rw [hready.resetting]
    exact List.not_mem_nil
  obtain ⟨hleft, counts, heq⟩ :=
    hready.sound.leaveServer (hthis.item id hitem).1 hresetting
  have hquiet := queue.silent_leaveServer id
  have hrecords : (queue.leaveServer id).engineData = queue.engineData := by
    rw [heq]
  have hid : id ∈ (queue.leaveServer id).resetting := by
    rw [heq]
    exact List.mem_cons_self
  generalize hgeneral : queue.leaveServer id = left at *
  have hmem : data ∈ left.engineData := hrecords ▸ hdata
  have hfinished := hleft.finish hmem hitem hid (left.world environment) .reset
  obtain ⟨heffects, _, hfinishedMode⟩ :=
    left.finish_effects (left.world environment) data id .reset
  have hrun : resetOutside environment (fuel + 1) data.address .reset queue =
      some (left.finish (left.world environment) data id
        .reset).eraseTransient := by
    unfold resetOutside resetEngine
    rw [hready.sound.find hdata]
    simp only [hactive, hitem, hgeneral]
    exact advanceQueue_inactive (hfinishedMode.trans (hquiet.mode.trans hmode))
      fuel
  refine ⟨_, hrun, hfinishedMode.trans (hquiet.mode.trans hmode), ?_, ?_⟩
  · have hunique := hready.sound.records.addresses
    rw [hlist] at hunique
    have hwritten := hfinished.2.2
    rw [hrecords, hlist, hunique.write_append] at hwritten
    have htransient := hthis.waiting hwaiting
    show ((left.finish _ data id .reset).engineData.filter _) = _
    rw [hwritten, List.filter_append, List.filter_cons_of_neg,
      ← List.filter_append]
    · apply List.filter_eq_self.mpr
      intro other hother
      have hold : other ∈ queue.engineData := by
        rw [hlist]
        rcases List.mem_append.mp hother with hbefore | hafter
        · exact List.mem_append_left _ hbefore
        · exact List.mem_append_right _ (List.mem_cons_of_mem _ hafter)
      cases htransient : other.transient with
      | false => simp
      | true => simp [hsettled other hold htransient]
    · simp [htransient]
  · intro engine
    show Effect.cancel engine ∈ (left.finish _ data id .reset).effects ++ _ ↔ _
    rw [heffects, hquiet.effects, if_pos hwaiting]
    constructor
    · intro h
      rcases List.mem_append.mp h with hfinish | herased
      · rcases List.mem_append.mp hfinish with hold | hreleased
        · exact hold
        · cases List.mem_singleton.mp hreleased
      · obtain ⟨other, _, hother⟩ := List.mem_map.mp herased
        cases hother
    · intro h
      exact List.mem_append_left _ (List.mem_append_left _ h)

/-- The loop walks through the records that were there at its start. -/
theorem stopEngines_spec {visited rest : List EngineData}
    (hready : Ready .all [] queue) (hsettled : queue.Settled)
    (hmode : queue.activeMode = 0)
    (hlist : queue.engineData = visited ++ rest) {more : ℕ}
    (hmore : rest.length < more) :
    ∃ changed, stopEngines environment (fuel + 1) more visited.length queue =
        some changed ∧
      changed.engineData = visited ++ (walked rest).1 ∧
      ∀ engine, .cancel engine ∈ changed.effects ↔
        .cancel engine ∈ queue.effects ∨ engine ∈ (walked rest).2 := by
  -- The index goes on, and the record at it is visited.
  have hget : ∀ (before after : List EngineData) (data : EngineData),
      (before ++ data :: after)[before.length]? = some data := by
    intro before after data
    rw [List.getElem?_append_right (Nat.le_refl _), Nat.sub_self]
    rfl
  have hnext : ∀ (before after : List EngineData) (data : EngineData),
      before ++ data :: after = (before ++ [data]) ++ after ∧
        before.length + 1 = (before ++ [data]).length := by
    intro before after data
    rw [List.append_assoc, List.length_append]
    exact ⟨rfl, rfl⟩
  fun_induction walked rest generalizing queue visited more with
  | case1 =>
      obtain ⟨more, rfl⟩ := Nat.exists_eq_succ_of_ne_zero
        (Nat.ne_of_gt (Nat.zero_lt_of_lt hmore))
      refine ⟨queue, ?_, hlist, ?_⟩
      · unfold stopEngines
        rw [hlist, List.append_nil, List.getElem?_length]
      · intro engine
        exact ⟨Or.inl, fun h => h.resolve_right List.not_mem_nil⟩
  | case2 data rest hinactive ih =>
      obtain ⟨more, rfl⟩ := Nat.exists_eq_succ_of_ne_zero
        (Nat.ne_of_gt (Nat.zero_lt_of_lt hmore))
      obtain ⟨hvisited, hindex⟩ := hnext visited rest data
      obtain ⟨changed, hrun, hleft, hcanceled⟩ := ih hready hsettled hmode
        (hlist.trans hvisited) (Nat.lt_of_succ_lt_succ hmore)
      refine ⟨changed, ?_, ?_, hcanceled⟩
      · unfold stopEngines
        rw [hlist, hget]
        simp only
        rw [if_pos hinactive, hindex]
        exact hrun
      · rw [hleft, ← (hnext visited (walked rest).1 data).1]
  | case3 data hinactive hwaiting =>
      obtain ⟨more, rfl⟩ := Nat.exists_eq_succ_of_ne_zero
        (Nat.ne_of_gt (Nat.zero_lt_of_lt hmore))
      have hactive : data.active = true := by
        rwa [Bool.not_eq_false] at hinactive
      obtain ⟨changed, hreset, _, hleft, hcanceled⟩ :=
        @resetOutside_waiting queue environment fuel data _ _ hready hsettled
          hmode hlist hactive hwaiting
      obtain ⟨more, rfl⟩ := Nat.exists_eq_succ_of_ne_zero
        (Nat.ne_of_gt (Nat.zero_lt_of_lt (Nat.lt_of_succ_lt_succ hmore)))
      refine ⟨changed, ?_, hleft, ?_⟩
      · unfold stopEngines
        rw [hlist, hget]
        simp only
        rw [if_neg hinactive, if_pos hwaiting, hreset, Option.bind_some]
        unfold stopEngines
        rw [hleft, List.append_nil,
          List.getElem?_eq_none (Nat.le_succ visited.length)]
      · intro engine
        rw [hcanceled]
        exact ⟨Or.inl, fun h => h.resolve_right List.not_mem_nil⟩
  | case4 data hinactive hwaiting skipped rest ih =>
      obtain ⟨more, rfl⟩ := Nat.exists_eq_succ_of_ne_zero
        (Nat.ne_of_gt (Nat.zero_lt_of_lt hmore))
      have hactive : data.active = true := by
        rwa [Bool.not_eq_false] at hinactive
      obtain ⟨middle, hreset, hstill, hleft, hcanceled⟩ :=
        @resetOutside_waiting queue environment fuel data _ _ hready hsettled
          hmode hlist hactive hwaiting
      have hleads := reset_leads (follows_all environment) trivial hready hreset
      obtain ⟨hvisited, hindex⟩ := hnext visited rest skipped
      obtain ⟨changed, hrun, hkept, hlater⟩ := ih (hready.leads hleads)
        (hleads.settled trivial hsettled) hstill (hleft.trans hvisited)
        (Nat.lt_of_succ_lt (Nat.lt_of_succ_lt_succ hmore))
      refine ⟨changed, ?_, ?_, ?_⟩
      · unfold stopEngines
        rw [hlist, hget]
        simp only
        rw [if_neg hinactive, if_pos hwaiting, hreset, Option.bind_some,
          hindex]
        exact hrun
      · rw [hkept, ← (hnext visited (walked rest).1 skipped).1]
      · intro engine
        rw [hlater, hcanceled]
  | case5 data rest hinactive hwaiting ih =>
      obtain ⟨more, rfl⟩ := Nat.exists_eq_succ_of_ne_zero
        (Nat.ne_of_gt (Nat.zero_lt_of_lt hmore))
      have hleads : Leads .all [] queue (queue.emit (.cancel data.engine)) :=
        .move (.cancel queue data.engine) hready.resetting fun _ h => h
      obtain ⟨hvisited, hindex⟩ := hnext visited rest data
      obtain ⟨changed, hrun, hkept, hlater⟩ := ih (hready.leads hleads)
        (hleads.settled trivial hsettled) hmode (hlist.trans hvisited)
        (Nat.lt_of_succ_lt_succ hmore)
      refine ⟨changed, ?_, ?_, ?_⟩
      · unfold stopEngines
        rw [hlist, hget]
        simp only
        rw [if_neg hinactive, if_neg hwaiting, hindex]
        exact hrun
      · rw [hkept, ← (hnext visited (walked rest).1 data).1]
      · intro engine
        rw [hlater]
        unfold TransferQueue.emit
        simp only [List.mem_append, List.mem_cons, Effect.cancel.injEq]
        tauto

theorem queueImmediateFiles_frame (queue : TransferQueue) :
    queue.Silent queue.queueImmediateFiles ∧
      queue.queueImmediateFiles.engineData = queue.engineData := by
  unfold queueImmediateFiles
  generalize queue.view.serverList.map Prod.fst = keys
  induction keys generalizing queue with
  | nil => exact ⟨⟨rfl, rfl, rfl⟩, rfl⟩
  | cons key rest ih =>
      obtain ⟨hsilent, hdata⟩ :=
        ih (queue.onServer key ItemQueue.queueImmediateFiles)
      exact ⟨(queue.silent_onServer key _).trans hsilent,
        hdata.trans (queue.onServer_frame key _).1⟩

/-- Stopping the queue ends the transfers or cancels the engines of all active
records, if and only if no active record comes right after one that waits for
a browsing connection. -/
theorem setActive_stops_iff (hrun : machine.Reaches requests outputs queue)
    (environment : Environment) (hfuel : queue.engineData.length < fuel) :
    ∃ changed, handle environment fuel { queue with effects := [] }
        (.setActive false) = some changed ∧
      ((∀ data ∈ queue.engineData, data.active = true →
        (∀ other ∈ changed.engineData, other.address = data.address →
          other.active = false) ∨
        .cancel data.engine ∈ changed.effects) ↔ Spaced queue.engineData) := by
  obtain ⟨hready, hsettled⟩ := reaches_settled hrun
  obtain ⟨fuel, rfl⟩ := Nat.exists_eq_succ_of_ne_zero
    (Nat.ne_of_gt (Nat.zero_lt_of_lt hfuel))
  have hstopped : Ready .all []
      { queue with effects := [], activeMode := 0 } := by
    have hsound := hready.sound
    exact ⟨⟨hsound.items, hsound.records, hsound.counted, hsound.plain⟩,
      hready.resetting⟩
  have hleads := queueImmediateFiles_leads hstopped
  obtain ⟨hsilent, hdata⟩ := queueImmediateFiles_frame
    { queue with effects := [], activeMode := 0 }
  obtain ⟨changed, hchanged, hleft, hcanceled⟩ :=
    @stopEngines_spec _ environment fuel [] queue.engineData
      (hstopped.leads hleads) (hleads.settled trivial hsettled) hsilent.mode
      hdata _ hfuel
  refine ⟨changed, hchanged, ?_⟩
  have hcancel : ∀ engine, .cancel engine ∈ changed.effects ↔
      engine ∈ (walked queue.engineData).2 := by
    intro engine
    rw [hcanceled, hsilent.effects]
    exact ⟨fun h => h.resolve_left List.not_mem_nil, Or.inr⟩
  have hrecords := hready.sound.records
  rw [← walked_stops_iff hrecords.addresses hrecords.engines]
  unfold IsStopped
  rw [List.nil_append] at hleft
  rw [hleft]
  simp only [hcancel]

/-- One engine is cancelled, the record that waits is reset. -/
theorem setActive_stops_iff_transferring :
    ∃ changed, handle (fun _ => browsedWorld) 8
        { transferring with effects := [] } (.setActive false) =
          some changed ∧
      ∀ data ∈ transferring.engineData, data.active = true →
        (∀ other ∈ changed.engineData, other.address = data.address →
          other.active = false) ∨
        .cancel data.engine ∈ changed.effects := by
  obtain ⟨outputs, hrun⟩ := reaches_transferring
  obtain ⟨changed, hchanged, hstops⟩ := setActive_stops_iff
    (hrun.mono fun _ _ _ => trivial) (fun _ => browsedWorld)
    (show transferring.engineData.length < 8 by decide)
  have hspaced : Spaced transferring.engineData := by
    unfold Spaced
    decide
  exact ⟨changed, hchanged, hstops.mpr hspaced⟩

/-! ## A record that is skipped -/

def busyRequest (event : Event) : Request :=
  ⟨fun _ => { browsedWorld with numTransfers := 3 }, 8, event⟩

/-- The file of the first site waits for the browsing connection, those of the
others are transferred. -/
def busyRequests : List Request :=
  [busyRequest (.queueFile ⟨limitedSite, plainUpload⟩ none),
    busyRequest (.queueFile ⟨openSite 1, plainUpload⟩ none),
    busyRequest (.queueFile ⟨openSite 2, plainUpload⟩ none),
    busyRequest (.setActive true)]

theorem exec_busyRequests :
    ((machine.exec (fun _ _ => True) empty busyRequests).bind fun result =>
      (handle (fun _ => browsedWorld) 8 { result.1 with effects := [] }
          (.setActive false)).map fun changed =>
        (result.1.engineData.map engineOf, changed.engineData.map engineOf,
          changed.effects)) =
      some ([(0, .own 0, true), (1, .browsing 0, true), (2, .own 2, true)],
        [(0, .own 0, true), (2, .own 2, true)],
        [.cancel (.own 0), .releaseEngine (.browsing 0),
          .releaseEngine (.browsing 0)]) := rfl

/-- The record after the one that waits is skipped. -/
theorem setActive_skips_record :
    ¬ ∀ requests outputs queue, machine.Reaches requests outputs queue →
      ∀ environment fuel changed,
        handle environment fuel { queue with effects := [] }
          (.setActive false) = some changed →
        ∀ data ∈ queue.engineData, data.active = true →
          (∀ other ∈ changed.engineData, other.address = data.address →
            other.active = false) ∨
          .cancel data.engine ∈ changed.effects := by
  intro hall
  obtain ⟨⟨queue, outputs⟩, hexec, hstop⟩ :=
    Option.bind_eq_some_iff.mp exec_busyRequests
  obtain ⟨changed, hhandle, heq⟩ := Option.map_eq_some_iff.mp hstop
  simp only [Prod.mk.injEq] at heq
  obtain ⟨hbefore, hafter, heffects⟩ := heq
  have hstart : machine.Reaches [] [] empty := .start rfl
  have hfirst : (2, .own 2, true) ∈ queue.engineData.map engineOf := by
    rw [hbefore]
    decide
  have hlast : (2, .own 2, true) ∈ changed.engineData.map engineOf := by
    rw [hafter]
    decide
  obtain ⟨data, hdata, hthis⟩ := List.mem_map.mp hfirst
  obtain ⟨other, hother, hthat⟩ := List.mem_map.mp hlast
  simp only [engineOf, Prod.mk.injEq] at hthis hthat
  rcases hall _ _ queue (hstart.exec hexec) _ _ changed hhandle data hdata
    hthis.2.2 with hleft | hcanceled
  · have hnot := hleft other hother (hthat.1.trans hthis.1.symm)
    rw [hthat.2.2] at hnot
    cases hnot
  · rw [heffects, hthis.2.1] at hcanceled
    exact absurd hcanceled (by decide)

end TransferQueue

end TabFtp
