import TabFtp.TransferEffects

/-!
# Removing rows from the queue

The rows that are removed have been collected before the first item is
stopped.  A row that is removed takes a few other rows with it, and none of
these comes later in the list.  This is so as long as no item is stopped that
waits for a browsing connection: stopping that one advances the queue.
-/

namespace TabFtp

namespace TransferQueue

open QueueView

variable {queue changed final : TransferQueue} {id : ItemId}
  {key : ServerId} {row later : QueueRow} {environment : Environment}
  {fuel : ℕ}

/-! ## The rows that are in the tree -/

theorem isPresent_server :
    queue.isPresent (.server key) = true ↔
      ∃ entry ∈ queue.view.shape, entry.1 = key := by
  show (queue.view.server key).isSome = true ↔ _
  unfold QueueView.server QueueView.shape shapeOf
  rw [Option.isSome_map, List.find?_isSome]
  constructor
  · intro hsome
    obtain ⟨entry, hentry, hkey⟩ := hsome
    exact ⟨_, List.mem_map_of_mem hentry, of_decide_eq_true hkey⟩
  · intro hsome
    obtain ⟨entry, hentry, hkey⟩ := hsome
    obtain ⟨source, hsource, rfl⟩ := List.mem_map.mp hentry
    exact ⟨source, hsource, decide_eq_true hkey⟩

theorem isPresent_file :
    queue.isPresent (.file id) = true ↔
      ∃ entry ∈ queue.view.shape, id ∈ entry.2 := by
  unfold isPresent
  rw [decide_eq_true_eq, queue.view.allChildren_eq, List.mem_flatMap]

theorem isPresent_status :
    queue.isPresent (.status id) = true ↔
      queue.isPresent (.file id) = true ∧
        0 < queue.view.items.childrenCount id := by
  unfold isPresent
  simp only [Bool.and_eq_true, decide_eq_true_eq]

def Covers (view : QueueView) : QueueRow → QueueRow → Prop
  | .status _, _ => False
  | .file id, row => row = .file id ∨ row = .status id ∨
      ∃ entry ∈ view.shape, id ∈ entry.2 ∧ row = .server entry.1
  | .server key, row => row = .server key ∨
      ∃ entry ∈ view.shape, entry.1 = key ∧
        ∃ id ∈ entry.2, row = .file id ∨ row = .status id

def isWaiting (queue : TransferQueue) (id : ItemId) : Bool :=
  queue.isActiveItem id &&
    ((queue.engineDataOf id).bind queue.find).any fun data =>
      decide (data.state = .waitprimary)

/-- What is left when the rows that are `gone` have been removed. -/
structure Leaves (queue changed : TransferQueue) (gone : QueueRow → Prop) :
    Prop where
  kept : ∀ row, queue.isPresent row = true → ¬ gone row →
    changed.isPresent row = true
  shrinks : ∀ entry ∈ changed.view.shape, ∃ other ∈ queue.view.shape,
    other.1 = entry.1 ∧ entry.2.Sublist other.2
  waiting : ∀ id, changed.isWaiting id = queue.isWaiting id

theorem Covers.shrinks {gone : QueueRow → Prop}
    (hleaves : queue.Leaves changed gone)
    (hcovers : Covers changed.view row later) :
    Covers queue.view row later := by
  cases row with
  | status id => exact hcovers
  | file id =>
      rcases hcovers with h | h | ⟨entry, hentry, hmem, h⟩
      · exact Or.inl h
      · exact Or.inr (Or.inl h)
      · obtain ⟨other, hother, hkey, hsub⟩ := hleaves.shrinks entry hentry
        exact Or.inr (Or.inr ⟨other, hother, hsub.subset hmem, hkey ▸ h⟩)
  | server key =>
      rcases hcovers with h | ⟨entry, hentry, hkey, id, hmem, h⟩
      · exact Or.inl h
      · obtain ⟨other, hother, hsame, hsub⟩ := hleaves.shrinks entry hentry
        exact Or.inr ⟨other, hother, hsame.trans hkey, id, hsub.subset hmem, h⟩

theorem Leaves.refl (queue : TransferQueue) (gone : QueueRow → Prop) :
    queue.Leaves queue gone :=
  ⟨fun _ h _ => h, fun entry h => ⟨entry, h, rfl, .refl _⟩, fun _ => rfl⟩

theorem Leaves.trans {gone more : QueueRow → Prop}
    (hfirst : queue.Leaves changed gone) (hsecond : changed.Leaves final more)
    (hmore : ∀ row, more row → gone row) : queue.Leaves final gone := by
  constructor
  · intro row hpresent hnot
    exact hsecond.kept row (hfirst.kept row hpresent hnot)
      fun h => hnot (hmore row h)
  · intro entry hentry
    obtain ⟨middle, hmiddle, hkey, hsub⟩ := hsecond.shrinks entry hentry
    obtain ⟨other, hother, hsame, hsub'⟩ := hfirst.shrinks middle hmiddle
    exact ⟨other, hother, hsame.trans hkey, hsub.trans hsub'⟩
  · intro id
    rw [hsecond.waiting, hfirst.waiting]

theorem Leaves.mono {gone more : QueueRow → Prop}
    (hleaves : queue.Leaves changed gone) (hmore : ∀ row, gone row → more row) :
    queue.Leaves changed more :=
  ⟨fun row h hnot => hleaves.kept row h fun hgone => hnot (hmore row hgone),
    hleaves.shrinks, hleaves.waiting⟩

theorem leaves_calm {view : QueueView} (hcalm : queue.view.Calm view)
    (gone : QueueRow → Prop) :
    queue.Leaves { queue with view := view } gone := by
  have hfile : ∀ id, queue.isPresent (.file id) =
      TransferQueue.isPresent { queue with view := view } (.file id) := by
    intro id
    unfold isPresent
    simp only
    rw [allChildren_of_calm hcalm]
  constructor
  · intro row hpresent _
    cases row with
    | server key =>
        rw [isPresent_server] at hpresent ⊢
        rw [hcalm.shape]
        exact hpresent
    | file id => exact (hfile id) ▸ hpresent
    | status id =>
        rw [isPresent_status] at hpresent ⊢
        rw [← hfile, (hcalm.activity id).childrenCount]
        exact hpresent
  · intro entry hentry
    rw [hcalm.shape] at hentry
    exact ⟨entry, hentry, rfl, .refl _⟩
  · intro id
    unfold isWaiting
    rw [isActiveItem_eq, isActiveItem_eq, (hcalm.activity id).isActive]
    rfl

theorem leaves_removeItem {known : ℕ → Prop} (hsound : queue.Sound known)
    (hpresent : queue.isPresent (.file id) = true)
    (hinactive : queue.view.items.isActive id = false) (forward : Bool) :
    queue.Leaves (queue.removeItem id true forward).1
      (Covers queue.view (.file id)) := by
  have hmem : id ∈ queue.view.allChildren := of_decide_eq_true hpresent
  obtain ⟨view, heq, hremoved⟩ :=
    removeItem_removed hsound.items.servers hmem true forward
  rw [heq]
  have hfile : ∀ other, queue.isPresent (.file other) = true → other ≠ id →
      TransferQueue.isPresent { queue with view := view } (.file other) =
        true := by
    intro other hother hne
    have hin := hremoved.children.mem_iff.mp (of_decide_eq_true hother)
    exact decide_eq_true ((List.mem_cons.mp hin).resolve_left hne)
  constructor
  · intro row hrow hnot
    cases row with
    | server key =>
        obtain ⟨entry, hentry, rfl⟩ := isPresent_server.mp hrow
        apply isPresent_server.mpr
        refine ⟨entry, hremoved.stays entry hentry ?_, rfl⟩
        intro hchild
        exact hnot (Or.inr (Or.inr ⟨entry, hentry, hchild, rfl⟩))
    | file other =>
        exact hfile other hrow fun h => hnot (Or.inl (congrArg _ h))
    | status other =>
        rw [isPresent_status] at hrow ⊢
        have hne : other ≠ id := fun h => hnot (Or.inr (Or.inl (congrArg _ h)))
        refine ⟨hfile other hrow.1 hne, ?_⟩
        have hsame : view.items.childrenCount other =
            queue.view.items.childrenCount other := by
          unfold Items.childrenCount
          rw [hremoved.others other hne]
        simp only
        rw [hsame]
        exact hrow.2
  · intro entry hentry
    obtain ⟨other, hother, hkey, hchildren⟩ := hremoved.entries entry hentry
    exact ⟨other, hother, hkey, hchildren ▸ List.erase_sublist⟩
  · intro other
    unfold isWaiting
    rw [isActiveItem_eq, isActiveItem_eq, hremoved.isActive hinactive other]
    rfl

theorem leaves_same (hview : changed.view = queue.view)
    (hpointers : changed.engineDataOf = queue.engineDataOf)
    (hrecords : changed.engineData = queue.engineData)
    (gone : QueueRow → Prop) : queue.Leaves changed gone := by
  constructor
  · intro row hpresent _
    unfold isPresent at hpresent ⊢
    rw [hview]
    exact hpresent
  · intro entry hentry
    rw [hview] at hentry
    exact ⟨entry, hentry, rfl, .refl _⟩
  · intro id
    unfold isWaiting isActiveItem TransferQueue.item TransferQueue.find
    rw [hview, hpointers, hrecords]

theorem leaves_emit (queue : TransferQueue) (effect : Effect)
    (gone : QueueRow → Prop) : queue.Leaves (queue.emit effect) gone := by
  have hview : (queue.emit effect).view = queue.view := rfl
  have hpointers : (queue.emit effect).engineDataOf = queue.engineDataOf := rfl
  have hrecords : (queue.emit effect).engineData = queue.engineData := rfl
  exact leaves_same hview hpointers hrecords gone

/-! ## Using a row -/

/-- Only items of the tree have been used. -/
structure Safe (queue : TransferQueue) : Prop where
  used : queue.usedDestroyed = false
  present : ∀ row present, Effect.use row present ∈ queue.effects →
    present = true

theorem Safe.unused (hsafe : queue.Safe) (hunused : queue.Unused changed) :
    changed.Safe := by
  obtain ⟨more, hmore, hall⟩ := hunused.effects
  constructor
  · rw [hunused.used, hsafe.used]
  · intro row present huse
    rw [hmore] at huse
    rcases List.mem_append.mp huse with hold | hnew
    · exact hsafe.present row present hold
    · have hnot := List.all_eq_true.mp hall _ hnew
      cases hnot

theorem Safe.useRow (hsafe : queue.Safe)
    (hpresent : queue.isPresent row = true) : (queue.useRow row).Safe := by
  unfold TransferQueue.useRow
  rw [hpresent]
  constructor
  · exact Bool.or_eq_false_iff.mpr ⟨hsafe.used, rfl⟩
  · intro other present huse
    rcases List.mem_append.mp huse with hold | hnew
    · exact hsafe.present other present hold
    · cases List.mem_singleton.mp hnew
      rfl

theorem leaves_useRow (queue : TransferQueue) (row : QueueRow)
    (gone : QueueRow → Prop) : queue.Leaves (queue.useRow row) gone := by
  have hview : (queue.useRow row).view = queue.view := rfl
  have hpointers : (queue.useRow row).engineDataOf = queue.engineDataOf := rfl
  have hrecords : (queue.useRow row).engineData = queue.engineData := rfl
  exact leaves_same hview hpointers hrecords gone

/-! ## Stopping an item -/

def Terms.quiet : Terms :=
  ⟨fun _ => True, fun _ => True, True, False, True⟩

theorem stopAndRemove_unused (hready : Ready .all [] queue)
    (hrun : stopAndRemove environment fuel id queue = some changed) :
    queue.Unused changed := by
  have hquiet : Ready .quiet [] queue := ⟨hready.sound, hready.resetting⟩
  have hfollows : Follows .quiet environment :=
    ⟨fun _ _ _ => trivial, Or.inl trivial⟩
  exact Moves.unused
    (stopAndRemove_leads hfollows trivial hquiet hrun).moves fun h => h

theorem stoppedItem_leaves {stopped : TransferQueue}
    (hactive : queue.isActiveItem id = true)
    (hnot : queue.isWaiting id = false)
    (hstopped : ∃ view, stopped = { queue with view := view } ∧
      queue.view.Calm view)
    (hrun : (match (queue.engineDataOf id).bind stopped.find with
      | none => none
      | some data =>
          if data.state = .waitprimary then
            resetOutside environment fuel data.address
              (if (data.item.bind stopped.item).any FileItem.pendingRemove
                then .remove else .reset) stopped
          else some (stopped.emit (.cancel data.engine))) = some changed)
    (gone : QueueRow → Prop) : queue.Leaves changed gone := by
  obtain ⟨view, rfl, hcalm⟩ := hstopped
  split at hrun
  · cases hrun
  · rename_i data hdata
    have hfound : (queue.engineDataOf id).bind queue.find = some data :=
      hdata
    unfold isWaiting at hnot
    rw [hactive, Bool.true_and, hfound] at hnot
    rw [if_neg (of_decide_eq_false hnot)] at hrun
    cases hrun
    have hcalmed : queue.Leaves { queue with view := view } gone :=
      leaves_calm hcalm gone
    exact hcalmed.trans (leaves_emit _ _ gone) fun _ h => h

theorem stopAndRemove_leaves (hready : Ready .all [] queue)
    (hactive : queue.isActiveItem id = true)
    (hnot : queue.isWaiting id = false)
    (hrun : stopAndRemove environment fuel id queue = some changed)
    (gone : QueueRow → Prop) : queue.Leaves changed gone := by
  have hmarked := calm_modifyItem hready.sound id
    (unnoticed_setPendingRemove true)
  have hsound := hready.sound.modifyItem id (unnoticed_setPendingRemove true)
  have hleaves : queue.Leaves
      (queue.modifyItem id fun item => item.setPendingRemove true) gone :=
    leaves_calm hmarked gone
  have hnot' := (hleaves.waiting id).trans hnot
  have hactive' : (queue.modifyItem id fun item =>
      item.setPendingRemove true).isActiveItem id = true := by
    rw [isActiveItem_eq, (hmarked.activity id).isActive]
    exact hactive
  unfold stopAndRemove at hrun
  generalize (queue.modifyItem id fun item => item.setPendingRemove true) =
    marked at *
  refine hleaves.trans ?_ fun _ h => h
  apply stoppedItem_leaves hactive' hnot' _ hrun
  split
  · exact ⟨marked.view, rfl, calm_refl hsound⟩
  · exact onServer_calm hsound.items.servers _ fun _ htree =>
      ItemQueue.calm_queueImmediateFile htree id

/-! ## Removing rows one after another -/

theorem removeItem_unused (queue : TransferQueue) (id : ItemId)
    (forward : Bool) : queue.Unused (queue.removeItem id true forward).1 :=
  (queue.silent_removeItem id true forward).unused

theorem Leaves.child {gone : QueueRow → Prop}
    (hsound : ItemsSound queue.view queue.failed queue.successful
      queue.nextServer queue.nextItem)
    (hleaves : queue.Leaves changed gone)
    (hpresent : changed.isPresent (.file id) = true)
    (hchild : ∃ entry ∈ queue.view.shape, entry.1 = key ∧ id ∈ entry.2) :
    ∃ entry ∈ changed.view.shape, entry.1 = key ∧ id ∈ entry.2 := by
  obtain ⟨entry, hentry, hmem⟩ := isPresent_file.mp hpresent
  obtain ⟨other, hother, hkey, hsub⟩ := hleaves.shrinks entry hentry
  obtain ⟨source, hsource, hhome, hin⟩ := hchild
  have hsame : other.1 = source.1 := by
    obtain ⟨server, hserver, heq⟩ := List.mem_map.mp hsource
    have hfound := server_of_mem hsound.servers hserver
    have hmem' : id ∈ server.2.children.live := by
      rw [← heq] at hin
      exact hin
    rcases shape_cases hsound.servers hfound hmem' other hother with
      ⟨hthis, _⟩ | ⟨_, hnot⟩
    · rw [hthis, ← heq]
    · exact absurd (hsub.subset hmem) hnot
  exact ⟨entry, hentry, hkey.symm.trans (hsame.trans hhome), hmem⟩

theorem stopChildren_spec {ids : List ItemId} (hready : Ready .all [] queue)
    (hsafe : queue.Safe) (hnodup : ids.Nodup)
    (hchildren : ∀ id ∈ ids,
      ∃ entry ∈ queue.view.shape, entry.1 = key ∧ id ∈ entry.2)
    (hlast : ids.Pairwise fun id _ => queue.isWaiting id = false)
    (hrun : stopChildren environment fuel ids queue = some changed) :
    changed.Safe ∧ ((∀ id ∈ ids, queue.isWaiting id = false) →
      queue.Leaves changed (Covers queue.view (.server key))) := by
  induction ids generalizing queue with
  | nil =>
      cases hrun
      exact ⟨hsafe, fun _ => .refl _ _⟩
  | cons id rest ih =>
      obtain ⟨hnotMem, hnodup'⟩ := List.nodup_cons.mp hnodup
      obtain ⟨hfirst, hlast'⟩ := List.pairwise_cons.mp hlast
      have hthis := hchildren id List.mem_cons_self
      have hpresent : queue.isPresent (.file id) = true := by
        obtain ⟨entry, hentry, _, hmem⟩ := hthis
        exact isPresent_file.mpr ⟨entry, hentry, hmem⟩
      have hsafe' := hsafe.useRow hpresent
      have hready' : Ready .all [] (queue.useRow (.file id)) :=
        hready.leads (useRow_leads trivial hready _)
      have hused := leaves_useRow queue (.file id)
        (Covers queue.view (.server key))
      unfold stopChildren at hrun
      simp only at hrun
      rw [if_neg (by rw [hsafe'.used]; exact Bool.false_ne_true)] at hrun
      have hcovers : ∀ row, Covers queue.view (.file id) row →
          Covers queue.view (.server key) row := by
        intro row hrow
        obtain ⟨entry, hentry, hkey, hmem⟩ := hthis
        rcases hrow with h | h | ⟨other, hother, hin, h⟩
        · exact Or.inr ⟨entry, hentry, hkey, id, hmem, Or.inl h⟩
        · exact Or.inr ⟨entry, hentry, hkey, id, hmem, Or.inr h⟩
        · obtain ⟨server, hserver, heq⟩ := List.mem_map.mp hentry
          have hfound :=
            server_of_mem hready.sound.items.servers hserver
          rw [← heq] at hmem hkey
          rcases shape_cases hready.sound.items.servers hfound hmem other
            hother with ⟨hsame, _⟩ | ⟨_, hnot⟩
          · exact Or.inl (h.trans (congrArg _ (hsame.trans hkey)))
          · exact absurd hin hnot
      -- The loop goes on with the other children.
      have hnext : ∀ middle, Ready .all [] middle → middle.Safe →
          (queue.useRow (.file id)).Leaves middle
            (Covers queue.view (.file id)) →
          stopChildren environment fuel rest middle = some changed →
          changed.Safe ∧ ((∀ id ∈ rest, queue.isWaiting id = false) →
            queue.Leaves changed (Covers queue.view (.server key))) := by
        intro middle hmiddle hkept hleaves hlater
        have hleaves' : queue.Leaves middle
            (Covers queue.view (.server key)) :=
          hused.trans hleaves hcovers
        have hchildren' : ∀ other ∈ rest,
            ∃ entry ∈ middle.view.shape, entry.1 = key ∧ other ∈ entry.2 := by
          intro other hother
          have hin := hchildren other (List.mem_cons_of_mem _ hother)
          apply hleaves'.child hready.sound.items _ hin
          obtain ⟨entry, hentry, _, hmem⟩ := hin
          apply hleaves.kept
          · exact isPresent_file.mpr ⟨entry, hentry, hmem⟩
          · intro hgone
            rcases hgone with h | h | ⟨_, _, _, h⟩
            · cases h
              exact hnotMem hother
            · cases h
            · cases h
        have hwaiting : ∀ other,
            middle.isWaiting other = queue.isWaiting other :=
          hleaves'.waiting
        obtain ⟨hdone, hall⟩ := ih hmiddle hkept hnodup' hchildren'
          (hlast'.imp fun {other _} h => (hwaiting other).trans h) hlater
        refine ⟨hdone, fun hnone => ?_⟩
        exact hleaves'.trans (hall fun other h =>
          (hwaiting other).trans (hnone other h))
          fun _ h => Covers.shrinks hleaves' h
      split_ifs at hrun with hactive
      · obtain ⟨middle, hstopped, hlater⟩ := Option.bind_eq_some_iff.mp hrun
        have hmiddle : Ready .all [] middle := hready'.leads
          (stopAndRemove_leads (follows_all _) trivial hready' hstopped)
        have hkept := hsafe'.unused (stopAndRemove_unused hready' hstopped)
        have hsame : (queue.useRow (.file id)).isWaiting id =
            queue.isWaiting id := hused.waiting id
        cases hwaiting : queue.isWaiting id with
        | false =>
            obtain ⟨hdone, hall⟩ := hnext middle hmiddle hkept
              (stopAndRemove_leaves hready' hactive (hsame.trans hwaiting)
                hstopped _) hlater
            exact ⟨hdone, fun hnone =>
              hall fun other h => hnone other (List.mem_cons_of_mem _ h)⟩
        | true =>
            -- No item comes after one that waits.
            cases rest with
            | nil =>
                cases hlater
                refine ⟨hkept, fun hnone => ?_⟩
                have hnot := hnone id List.mem_cons_self
                rw [hwaiting] at hnot
                cases hnot
            | cons other rest =>
                have hnot := hfirst other List.mem_cons_self
                rw [hwaiting] at hnot
                cases hnot
      · have hinactive := eq_false_of_ne_true hactive
        have hremoved := leaves_removeItem hready'.sound hpresent hinactive
          false
        have hmiddle : Ready .all [] _ := hready'.leads
          (removeIdle_leads hready' hactive false)
        have hkept := hsafe'.unused (removeItem_unused _ id false)
        generalize (queue.useRow (.file id)).removeItem id true false = removed
          at hrun hremoved hmiddle hkept
        obtain ⟨left, deleted⟩ := removed
        cases deleted with
        | true =>
            cases hrun
            exact ⟨hkept, fun _ => hused.trans hremoved hcovers⟩
        | false =>
            obtain ⟨hdone, hall⟩ := hnext left hmiddle hkept hremoved hrun
            exact ⟨hdone, fun hnone =>
              hall fun other h => hnone other (List.mem_cons_of_mem _ h)⟩

def uses (queue : TransferQueue) : QueueRow → List QueueRow
  | .server key =>
      match queue.view.server key with
      | none => [.server key]
      | some server =>
          .server key :: server.children.live.reverse.map QueueRow.file
  | row => [row]

def waitsAt (queue : TransferQueue) : QueueRow → Bool
  | .file id => queue.isWaiting id
  | _ => false

/-- Nothing is used after an item that waits for a browsing connection. -/
def WaitsLast (queue : TransferQueue) (rows : List QueueRow) : Prop :=
  (rows.flatMap queue.uses).Pairwise fun row _ => queue.waitsAt row = false

instance (queue : TransferQueue) (rows : List QueueRow) :
    Decidable (queue.WaitsLast rows) :=
  inferInstanceAs (Decidable (List.Pairwise _ _))

/-- Rows that can be removed one after another. -/
structure Apart (queue : TransferQueue) (rows : List QueueRow) : Prop where
  present : ∀ row ∈ rows, queue.isPresent row = true
  apart : rows.Pairwise fun row later => ¬ Covers queue.view row later

theorem uses_ne_nil (queue : TransferQueue) (row : QueueRow) :
    queue.uses row ≠ [] := by
  unfold uses
  split
  · split
    · exact List.cons_ne_nil _ _
    · exact List.cons_ne_nil _ _
  · exact List.cons_ne_nil _ _

section Shrinking

variable {gone : QueueRow → Prop} {rows : List QueueRow}
  (hsound : ItemsSound queue.view queue.failed queue.successful
    queue.nextServer queue.nextItem)
  (hleaves : queue.Leaves changed gone)

include hsound hleaves

theorem Leaves.uses (row : QueueRow) :
    (changed.uses row).Sublist (queue.uses row) := by
  unfold TransferQueue.uses
  cases row with
  | file id => exact .refl _
  | status id => exact .refl _
  | server key =>
      simp only
      cases hserver : changed.view.server key with
      | none =>
          cases queue.view.server key with
          | none => exact .refl _
          | some server =>
              exact (List.nil_sublist _).cons_cons _
      | some server =>
          obtain ⟨other, hother, hkey, hsub⟩ :=
            hleaves.shrinks _ (mem_shape hserver)
          obtain ⟨source, hsource, rfl⟩ := List.mem_map.mp hother
          have hfound := server_of_mem hsound.servers hsource
          simp only at hkey hsub
          rw [hkey] at hfound
          rw [hfound]
          exact ((hsub.reverse).map QueueRow.file).cons_cons _

theorem WaitsLast.next (hlast : queue.WaitsLast (row :: rows)) :
    changed.WaitsLast rows := by
  have hsub : (rows.flatMap changed.uses).Sublist
      (rows.flatMap queue.uses) := by
    clear hlast
    induction rows with
    | nil => exact .refl _
    | cons row rest ih => exact (hleaves.uses hsound row).append ih
  unfold WaitsLast at hlast ⊢
  rw [List.flatMap_cons, List.pairwise_append] at hlast
  apply (hlast.2.1.sublist hsub).imp
  intro row _ hnot
  cases row with
  | file id => exact (hleaves.waiting id).trans hnot
  | server key => rfl
  | status id => rfl

omit hsound in
theorem Apart.next (hapart : queue.Apart (row :: rows))
    (hgone : gone = Covers queue.view row) : changed.Apart rows := by
  obtain ⟨hfirst, hrest⟩ := List.pairwise_cons.mp hapart.apart
  constructor
  · intro later hlater
    apply hleaves.kept later
    · exact hapart.present later (List.mem_cons_of_mem _ hlater)
    · rw [hgone]
      exact hfirst later hlater
  · apply hrest.imp
    intro first second hnot hcovers
    exact hnot (hcovers.shrinks hleaves)

end Shrinking

theorem removeRows_safe {deleted : Option ServerId}
    {selected : List (ℕ × QueueRow)} (hready : Ready .all [] queue)
    (hsafe : queue.Safe) (hapart : queue.Apart (selected.map Prod.snd))
    (hlast : queue.WaitsLast (selected.map Prod.snd))
    (hrun : removeRows environment fuel deleted selected queue =
      some changed) : changed.Safe := by
  induction selected generalizing queue deleted with
  | nil =>
      unfold removeRows at hrun
      cases hrun
      exact hsafe
  | cons entry rest ih =>
      obtain ⟨index, row⟩ := entry
      rw [List.map_cons] at hapart hlast
      have hitems := hready.sound.items
      have hpresent := hapart.present row List.mem_cons_self
      unfold removeRows at hrun
      simp only at hrun
      split at hrun
      · exact ih hready hsafe
          (Apart.next (Leaves.refl queue _) hapart rfl)
          (WaitsLast.next hitems (Leaves.refl queue fun _ => False) hlast) hrun
      have hsafe' := hsafe.useRow hpresent
      have hready' : Ready .all [] (queue.useRow row) :=
        hready.leads (useRow_leads trivial hready row)
      have hused := leaves_useRow queue row (Covers queue.view row)
      rw [if_neg (by rw [hsafe'.used]; exact Bool.false_ne_true)] at hrun
      -- If nothing comes later, it does not matter what is left.
      have hnext : ∀ deleted middle, Ready .all [] middle → middle.Safe →
          (rest ≠ [] →
            (queue.useRow row).Leaves middle (Covers queue.view row)) →
          removeRows environment fuel deleted rest middle = some changed →
          changed.Safe := by
        intro deleted middle hmiddle hkept hleaves hlater
        by_cases hrest : rest = []
        · rw [hrest] at hlater
          unfold removeRows at hlater
          cases hlater
          exact hkept
        · have hall := hused.trans (hleaves hrest) fun _ h => h
          exact ih hmiddle hkept (Apart.next hall hapart rfl)
            (WaitsLast.next hitems hall hlast) hlater
      have hbefore : rest ≠ [] → ∀ first ∈ queue.uses row,
          queue.waitsAt first = false := by
        intro hrest first hfirst
        unfold WaitsLast at hlast
        rw [List.flatMap_cons, List.pairwise_append] at hlast
        obtain ⟨entry, more, rfl⟩ := List.exists_cons_of_ne_nil hrest
        obtain ⟨later, hlater⟩ :=
          List.exists_mem_of_ne_nil _ (queue.uses_ne_nil entry.2)
        exact hlast.2.2 first hfirst later
          (List.mem_flatMap.mpr ⟨entry.2, List.mem_cons_self, hlater⟩)
      cases row with
      | status id =>
          exact hnext none _ hready' hsafe' (fun _ => .refl _ _) hrun
      | server key =>
          simp only at hrun
          split at hrun
          · cases hrun
          · rename_i server hserver
            obtain ⟨middle, hstopped, hlater⟩ :=
              Option.bind_eq_some_iff.mp hrun
            have hfound : queue.view.server key = some server := hserver
            have huses : queue.uses (.server key) = .server key ::
                server.children.live.reverse.map QueueRow.file := by
              unfold TransferQueue.uses
              simp only [hfound]
            have hwaiting : ∀ id,
                (queue.useRow (.server key)).isWaiting id =
                  queue.isWaiting id := hused.waiting
            have hpairs : server.children.live.reverse.Pairwise fun id _ =>
                (queue.useRow (.server key)).isWaiting id = false := by
              unfold WaitsLast at hlast
              rw [List.flatMap_cons, List.pairwise_append, huses,
                List.pairwise_cons, List.pairwise_map] at hlast
              exact hlast.1.2.imp fun {id _} h => (hwaiting id).trans h
            have hchildren : ∀ id ∈ server.children.live.reverse,
                ∃ entry ∈ (queue.useRow (.server key)).view.shape,
                  entry.1 = key ∧ id ∈ entry.2 := by
              intro id hid
              exact ⟨_, mem_shape hfound, rfl, List.mem_reverse.mp hid⟩
            have hnodup : server.children.live.reverse.Nodup :=
              List.nodup_reverse.mpr (nodup_of_server hitems.servers hfound)
            obtain ⟨hkept, hleaves⟩ := stopChildren_spec hready' hsafe' hnodup
              hchildren hpairs hstopped
            have hmiddle : Ready .all [] middle := hready'.leads
              (stopChildren_leads (follows_all _) trivial trivial hready'
                hstopped)
            apply hnext none middle hmiddle hkept _ hlater
            intro hrest
            apply hleaves
            intro id hid
            rw [hwaiting]
            exact hbefore hrest (.file id) (huses ▸
              List.mem_cons_of_mem _ (List.mem_map_of_mem hid))
      | file id =>
          simp only at hrun
          split at hrun
          · rename_i hactive
            obtain ⟨middle, hstopped, hlater⟩ :=
              Option.bind_eq_some_iff.mp hrun
            have hmiddle : Ready .all [] middle := hready'.leads
              (stopAndRemove_leads (follows_all _) trivial hready' hstopped)
            have hkept := hsafe'.unused
              (stopAndRemove_unused hready' hstopped)
            apply hnext none middle hmiddle hkept _ hlater
            intro hrest
            have hnot : queue.isWaiting id = false :=
              hbefore hrest (.file id) List.mem_cons_self
            exact stopAndRemove_leaves hready' hactive
              ((hused.waiting id).trans hnot) hstopped _
          · rename_i hactive
            split at hrun
            · cases hrun
            · rename_i key server _
              obtain ⟨view, heq, hcalm⟩ :=
                getServerChild_calm hready'.sound key 1
              have hchild : Leads .all [] (queue.useRow (.file id))
                  ((queue.useRow (.file id)).getServerChild key 1).2 :=
                .same (.getServerChild _ key 1) hready'
                  (getServerChild_frame _ key 1)
              have hready'' := hready'.leads hchild
              have hquiet := silent_getServerChild
                (queue.useRow (.file id)) key 1
              have hleaves : (queue.useRow (.file id)).Leaves
                  ((queue.useRow (.file id)).getServerChild key 1).2
                  fun _ => False := by
                rw [heq]
                exact leaves_calm hcalm _
              have hactive' : ¬ ((queue.useRow (.file id)).getServerChild
                  key 1).2.isActiveItem id = true := by
                rw [heq, isActiveItem_eq, (hcalm.activity id).isActive]
                exact hactive
              have hshape : Covers ((queue.useRow (.file id)).getServerChild
                  key 1).2.view (.file id) = Covers queue.view (.file id) := by
                have hsame : view.shape = queue.view.shape := hcalm.shape
                unfold Covers
                rw [heq, hsame]
              have hpresent' := hleaves.kept (.file id) hpresent fun h => h
              generalize ((queue.useRow (.file id)).getServerChild key 1) =
                searched at *
              obtain ⟨second, searched⟩ := searched
              have hremoved := fun forward => leaves_removeItem
                hready''.sound hpresent' (eq_false_of_ne_true hactive') forward
              rw [hshape] at hremoved
              exact hnext _ _ (hready''.leads
                  (removeIdle_leads hready'' hactive' _))
                ((hsafe'.unused hquiet.unused).unused
                  (removeItem_unused searched id _))
                (fun _ => (hleaves.mono fun _ h => h.elim).trans (hremoved _)
                  fun _ h => h) hrun

end TransferQueue

end TabFtp
