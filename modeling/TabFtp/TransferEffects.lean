import TabFtp.TransferEvents

/-!
# What others see of the moves

Most moves of the transfer queue have no effect that others see.
-/

namespace TabFtp

namespace TransferQueue

variable {terms : Terms} {base : List ItemId}
  {queue changed final : TransferQueue} {id : ItemId} {data : EngineData}

structure Silent (queue changed : TransferQueue) : Prop where
  effects : changed.effects = queue.effects
  used : changed.usedDestroyed = queue.usedDestroyed
  mode : changed.activeMode = queue.activeMode

theorem Silent.trans (hfirst : queue.Silent changed)
    (hsecond : changed.Silent final) : queue.Silent final :=
  ⟨hsecond.effects.trans hfirst.effects, hsecond.used.trans hfirst.used,
    hsecond.mode.trans hfirst.mode⟩

variable (queue)

theorem silent_onServer (key : ServerId)
    (operation : ItemQueue → ItemQueue) :
    queue.Silent (queue.onServer key operation) := by
  unfold TransferQueue.onServer
  split
  · exact ⟨rfl, rfl, rfl⟩
  · exact ⟨rfl, rfl, rfl⟩

theorem silent_getServerChild (key : ServerId) (row : ℕ) :
    queue.Silent (queue.getServerChild key row).2 := by
  unfold TransferQueue.getServerChild
  split
  · exact ⟨rfl, rfl, rfl⟩
  · exact ⟨rfl, rfl, rfl⟩

theorem silent_createServerItem (site : QueueSite) :
    queue.Silent (queue.createServerItem site).2 := by
  unfold TransferQueue.createServerItem
  split
  · exact ⟨rfl, rfl, rfl⟩
  · exact ⟨rfl, rfl, rfl⟩

theorem silent_insertItem (key : ServerId) (item : FileItem)
    (onSuccess : Option NewFile) :
    queue.Silent (queue.insertItem key item onSuccess) := by
  unfold TransferQueue.insertItem
  split
  · exact ⟨rfl, rfl, rfl⟩
  · exact ⟨rfl, rfl, rfl⟩

theorem silent_removeItem (id : ItemId) (destroy forward : Bool) :
    queue.Silent (queue.removeItem id destroy forward).1 := by
  unfold TransferQueue.removeItem
  split
  · exact ⟨rfl, rfl, rfl⟩
  · exact ⟨rfl, rfl, rfl⟩

theorem silent_countActive (id : ItemId) (difference : ℤ) :
    queue.Silent (queue.countActive id difference) := by
  unfold countActive
  split
  · exact ⟨rfl, rfl, rfl⟩
  · split
    · exact ⟨rfl, rfl, rfl⟩
    · exact ⟨rfl, rfl, rfl⟩

theorem silent_assign (world : World) (data : EngineData) (key : ServerId)
    (id : ItemId) (item : FileItem) :
    queue.Silent (queue.assign world data key id item) := by
  have hserver := queue.silent_onServer key
    fun queue => queue.setActive id true 0
  unfold TransferQueue.assign
  generalize queue.onServer key _ = changed at *
  simp only
  have hcounted := silent_countActive
    { changed with
      engineDataOf :=
        Function.update changed.engineDataOf id (some data.address)
      serverActiveCount := Function.update changed.serverActiveCount key
        (changed.serverActiveCount key + 1)
      activeCount := changed.activeCount + 1 } id 1
  exact ⟨hcounted.effects.trans hserver.effects,
    hcounted.used.trans hserver.used, hcounted.mode.trans hserver.mode⟩

theorem silent_leaveServer (id : ItemId) :
    queue.Silent (queue.leaveServer id) := by
  unfold TransferQueue.leaveServer
  split
  · exact ⟨rfl, rfl, rfl⟩
  · split
    · exact ⟨rfl, rfl, rfl⟩
    · exact ⟨rfl, rfl, rfl⟩

theorem silent_counted (id : ItemId) (middle : TransferQueue) :
    middle.Silent
      (match middle.item id with
      | none => middle
      | some item =>
          if item.download then
            if 0 < middle.activeCountDown then
              { middle with activeCountDown := middle.activeCountDown - 1 }
            else middle
          else
            if 0 < middle.activeCountUp then
              { middle with activeCountUp := middle.activeCountUp - 1 }
            else middle) := by
  split
  · exact ⟨rfl, rfl, rfl⟩
  · split_ifs
    · exact ⟨rfl, rfl, rfl⟩
    · exact ⟨rfl, rfl, rfl⟩
    · exact ⟨rfl, rfl, rfl⟩
    · exact ⟨rfl, rfl, rfl⟩

theorem silent_deactivate (id : ItemId) :
    queue.Silent (queue.deactivate id) := by
  cases hfound : queue.topLevelItem id with
  | none =>
      unfold TransferQueue.deactivate
      rw [hfound]
      have hlater := silent_counted id
        { queue with resetting := queue.resetting.erase id }
      exact ⟨hlater.effects, hlater.used, hlater.mode⟩
  | some found =>
      have hserver := queue.silent_onServer found.1
        fun queue => queue.setActive id false 0
      unfold TransferQueue.deactivate
      rw [hfound]
      simp only
      generalize queue.onServer found.1 _ = changed at *
      have hlater := silent_counted id
        { changed with resetting := changed.resetting.erase id }
      exact ⟨hlater.effects.trans hserver.effects,
        hlater.used.trans hserver.used, hlater.mode.trans hserver.mode⟩

theorem silent_settle (world : World) (id : ItemId) (reason : ResetReason) :
    queue.Silent (queue.settle world id reason) := by
  cases reason with
  | reset =>
      unfold TransferQueue.settle
      simp only
      split
      · exact ⟨rfl, rfl, rfl⟩
      · exact queue.silent_onServer _ _
  | failure =>
      have hremoved := queue.silent_removeItem id false true
      exact ⟨hremoved.effects, hremoved.used, hremoved.mode⟩
  | success =>
      unfold TransferQueue.settle
      simp only
      split
      · exact queue.silent_removeItem id true true
      · have hremoved := queue.silent_removeItem id false true
        exact ⟨hremoved.effects, hremoved.used, hremoved.mode⟩
  | retry => exact ⟨rfl, rfl, rfl⟩
  | remove => exact queue.silent_removeItem id true true

theorem finish_effects (world : World) (data : EngineData) (id : ItemId)
    (reason : ResetReason) :
    (queue.finish world data id reason).effects = queue.effects ++
        (if data.state = .waitprimary then [.releaseEngine data.engine]
          else []) ∧
      (queue.finish world data id reason).usedDestroyed =
        queue.usedDestroyed ∧
      (queue.finish world data id reason).activeMode = queue.activeMode := by
  have hsettled := (queue.silent_deactivate id).trans
    ((queue.deactivate id).silent_settle world id reason)
  unfold TransferQueue.finish
  rw [freeEngine_eq, ← hsettled.effects, ← hsettled.used, ← hsettled.mode]
  exact ⟨rfl, rfl, rfl⟩

variable {queue}

def Effect.isUse : Effect → Bool
  | .use _ _ => true
  | _ => false

structure Unused (queue changed : TransferQueue) : Prop where
  effects : ∃ more, changed.effects = queue.effects ++ more ∧
    more.all (fun effect => !effect.isUse) = true
  used : changed.usedDestroyed = queue.usedDestroyed

theorem unused_of_same (heffects : changed.effects = queue.effects)
    (hused : changed.usedDestroyed = queue.usedDestroyed) :
    queue.Unused changed :=
  ⟨⟨[], by rw [heffects, List.append_nil], rfl⟩, hused⟩

theorem Silent.unused (hsilent : queue.Silent changed) :
    queue.Unused changed :=
  unused_of_same hsilent.effects hsilent.used

theorem Unused.trans (hfirst : queue.Unused changed)
    (hsecond : changed.Unused final) : queue.Unused final := by
  obtain ⟨more, hmore, hall⟩ := hfirst.effects
  obtain ⟨later, hlater, hrest⟩ := hsecond.effects
  refine ⟨⟨more ++ later, ?_, ?_⟩, hsecond.used.trans hfirst.used⟩
  · rw [hlater, hmore, List.append_assoc]
  · rw [List.all_append, hall, hrest]
    rfl

theorem Move.unused (hmove : Move terms base queue changed)
    (huses : ¬ terms.uses) : queue.Unused changed := by
  cases hmove with
  | useRow h => exact absurd h huses
  | note | modifyItem | removeAll | createEngine | createTransient | setState
  | startListing => exact unused_of_same rfl rfl
  | onServer key => exact (queue.silent_onServer key _).unused
  | getServerChild key row => exact (queue.silent_getServerChild key row).unused
  | createServerItem site => exact (queue.silent_createServerItem site).unused
  | insertItem key => exact (queue.silent_insertItem key _ _).unused
  | removeItem _ forward => exact (queue.silent_removeItem _ true forward).unused
  | assign world => exact (queue.silent_assign world _ _ _ _).unused
  | leaveServer => exact (queue.silent_leaveServer _).unused
  | cancel | request | release | execute =>
      exact ⟨⟨_, rfl, rfl⟩, rfl⟩
  | @finish data _ _ _ _ _ _ world reason =>
      obtain ⟨heffects, hused, _⟩ := queue.finish_effects world data _ reason
      refine ⟨⟨_, heffects, ?_⟩, hused⟩
      split
      · rfl
      · rfl
  | @freeEngine data =>
      rw [freeEngine_eq]
      refine ⟨⟨_, rfl, ?_⟩, rfl⟩
      split
      · rfl
      · rfl
  | eraseTransient =>
      refine ⟨⟨_, rfl, ?_⟩, rfl⟩
      rw [List.all_map]
      apply List.all_eq_true.mpr
      intro data _
      rfl

theorem Moves.unused (hmoves : Moves terms base queue changed)
    (huses : ¬ terms.uses) : queue.Unused changed := by
  induction hmoves with
  | refl => exact unused_of_same rfl rfl
  | tail _ hmove ih => exact ih.trans (hmove.unused huses)

end TransferQueue

end TabFtp
