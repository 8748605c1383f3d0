import TabFtp.TransferRemoval

/-!
# The rows that are selected

The rows of a server item that is selected are left out, so a row that is
removed does not take one with it that comes later.
-/

namespace TabFtp

namespace TransferQueue

open QueueView

variable {queue : TransferQueue} {id : ItemId} {key other : ServerId}
  {row later : QueueRow} {selected : ℕ → Bool}

def Belongs (view : QueueView) (key : ServerId) : QueueRow → Prop
  | .server other => other = key
  | .file id => ∃ entry ∈ view.shape, entry.1 = key ∧ id ∈ entry.2
  | .status id => ∃ entry ∈ view.shape, entry.1 = key ∧ id ∈ entry.2

theorem home_unique {view : QueueView}
    (hservers : ServersSound view.serverList view.items)
    {first second : ServerId × List ItemId} (hfirst : first ∈ view.shape)
    (hsecond : second ∈ view.shape) (hid : id ∈ first.2)
    (hmem : id ∈ second.2) : first.1 = second.1 := by
  obtain ⟨source, hsource, rfl⟩ := List.mem_map.mp hfirst
  have hfound : view.server source.1 = some source.2 := by
    unfold QueueView.server
    rw [hservers.unique.find hsource fun other _ => by rw [decide_eq_true_eq]]
    rfl
  rcases shape_cases hservers hfound hid second hsecond with
    ⟨hsame, _⟩ | ⟨_, hnot⟩
  · exact hsame.symm
  · exact absurd hmem hnot

theorem Covers.belongs {view : QueueView}
    (hservers : ServersSound view.serverList view.items)
    (hcovers : Covers view row later) (hrow : Belongs view key row)
    (hlater : Belongs view other later) : key = other := by
  cases row with
  | status id => exact hcovers.elim
  | file id =>
      obtain ⟨source, hsource, hkey, hid⟩ := hrow
      rcases hcovers with rfl | rfl | ⟨entry, hentry, hmem, rfl⟩
      · obtain ⟨target, htarget, hother, hmem⟩ := hlater
        rw [← hkey, ← hother]
        exact home_unique hservers hsource htarget hid hmem
      · obtain ⟨target, htarget, hother, hmem⟩ := hlater
        rw [← hkey, ← hother]
        exact home_unique hservers hsource htarget hid hmem
      · have hother : entry.1 = other := hlater
        rw [← hkey, ← hother]
        exact home_unique hservers hsource hentry hid hmem
  | server home =>
      have hkey : home = key := hrow
      rcases hcovers with rfl | ⟨entry, hentry, hhome, id, hmem, rfl | rfl⟩
      · exact hkey.symm.trans hlater
      · obtain ⟨target, htarget, hother, hid⟩ := hlater
        rw [← hkey, ← hhome, ← hother]
        exact home_unique hservers hentry htarget hmem hid
      · obtain ⟨target, htarget, hother, hid⟩ := hlater
        rw [← hkey, ← hhome, ← hother]
        exact home_unique hservers hentry htarget hmem hid

/-! ## The rows of one server item -/

def childRows (items : Items) (ids : List ItemId) : List QueueRow :=
  ids.flatMap fun id =>
    .file id :: List.replicate (items.childrenCount id) (.status id)

theorem mem_childRows {items : Items} {ids : List ItemId}
    (hrow : row ∈ childRows items ids) :
    ∃ id ∈ ids, row = .file id ∨
      row = .status id ∧ 0 < items.childrenCount id := by
  obtain ⟨id, hid, hmem⟩ := List.mem_flatMap.mp hrow
  rcases List.mem_cons.mp hmem with hfile | hstatus
  · exact ⟨id, hid, Or.inl hfile⟩
  · obtain ⟨hcount, heq⟩ := List.mem_replicate.mp hstatus
    exact ⟨id, hid, Or.inr ⟨heq, Nat.pos_of_ne_zero hcount⟩⟩

theorem childRows_apart (view : QueueView) {ids : List ItemId}
    (hnodup : ids.Nodup) :
    (childRows view.items ids).reverse.Pairwise fun row later =>
      ¬ Covers view row later := by
  rw [List.pairwise_reverse]
  induction ids with
  | nil => exact List.Pairwise.nil
  | cons id rest ih =>
      obtain ⟨hnot, hnodup⟩ := List.nodup_cons.mp hnodup
      unfold childRows at ih ⊢
      rw [List.flatMap_cons, List.cons_append, List.pairwise_cons,
        List.pairwise_append]
      have hstatus : ∀ row other, row = QueueRow.status other →
          ¬ Covers view row (.file id) := by
        intro row other heq hcovers
        rw [heq] at hcovers
        exact hcovers
      have hrest : ∀ row ∈ childRows view.items rest, ∀ first,
          first = QueueRow.file id ∨ first = QueueRow.status id →
          ¬ Covers view row first := by
        intro row hrow first hfirst hcovers
        obtain ⟨other, hother, rfl | ⟨rfl, _⟩⟩ := mem_childRows hrow
        · have hne : other ≠ id := fun h => hnot (h ▸ hother)
          rcases hfirst with rfl | rfl
          · rcases hcovers with h | h | ⟨_, _, _, h⟩
            · cases h
              exact hne rfl
            · cases h
            · cases h
          · rcases hcovers with h | h | ⟨_, _, _, h⟩
            · cases h
            · cases h
              exact hne rfl
            · cases h
        · exact hcovers
      refine ⟨?_, ?_, ih hnodup, ?_⟩
      · intro row hrow
        rcases List.mem_append.mp hrow with hthis | hlater
        · exact hstatus row id (List.mem_replicate.mp hthis).2
        · exact hrest row hlater _ (Or.inl rfl)
      · apply List.pairwise_replicate.mpr
        exact Or.inr fun hcovers => hcovers
      · intro first hfirst row hrow
        exact hrest row hrow first
          (Or.inr (List.mem_replicate.mp hfirst).2)

/-! ## Collecting the rows -/

theorem collectRows_pass {index : ℕ} {skipTo : ℤ}
    (hskip : selected index = false ∨ (index : ℤ) ≤ skipTo)
    (row : QueueRow) (rest : List QueueRow)
    (collected : List (ℕ × QueueRow)) :
    queue.collectRows selected (row :: rest) index skipTo collected =
      queue.collectRows selected rest (index + 1) skipTo collected :=
  if_pos hskip

theorem collectRows_take {index : ℕ} {skipTo : ℤ}
    (hskip : ¬ (selected index = false ∨ (index : ℤ) ≤ skipTo))
    (rest : List QueueRow) (collected : List (ℕ × QueueRow))
    (hplain : ∀ key, row ≠ .server key) :
    queue.collectRows selected (row :: rest) index skipTo collected =
      queue.collectRows selected rest (index + 1) skipTo
        ((index, row) :: collected) := by
  cases row with
  | server key => exact absurd rfl (hplain key)
  | file id => exact if_neg hskip
  | status id => exact if_neg hskip

theorem collectRows_skipped (block rest : List QueueRow) {index : ℕ}
    {skipTo : ℤ} (hskip : index + block.length ≤ skipTo + 1)
    (collected : List (ℕ × QueueRow)) :
    queue.collectRows selected (block ++ rest) index skipTo collected =
      queue.collectRows selected rest (index + block.length) skipTo
        collected := by
  induction block generalizing index with
  | nil => rfl
  | cons row block ih =>
      rw [List.length_cons] at hskip ⊢
      have hthis : (index : ℤ) ≤ skipTo := by omega
      rw [List.cons_append, collectRows_pass (Or.inr hthis),
        ih (by push_cast at hskip ⊢; omega)]
      congr 1
      omega

theorem collectRows_children (block : List QueueRow)
    (hplain : ∀ row ∈ block, ∀ key, row ≠ .server key) (index : ℕ)
    (skipTo : ℤ) :
    ∃ chosen : List (ℕ × QueueRow),
      (chosen.map Prod.snd).Sublist block.reverse ∧
      ∀ rest collected,
        queue.collectRows selected (block ++ rest) index skipTo collected =
          queue.collectRows selected rest (index + block.length) skipTo
            (chosen ++ collected) := by
  induction block generalizing index with
  | nil => exact ⟨[], List.nil_sublist _, fun _ _ => rfl⟩
  | cons row block ih =>
      obtain ⟨chosen, hsub, heq⟩ := ih
        (fun row hrow => hplain row (List.mem_cons_of_mem _ hrow)) (index + 1)
      have hindex : index + 1 + block.length = index + (row :: block).length :=
        by rw [List.length_cons]; omega
      rw [List.reverse_cons]
      by_cases hskip : selected index = false ∨ (index : ℤ) ≤ skipTo
      · refine ⟨chosen, hsub.trans (List.sublist_append_left _ _), ?_⟩
        intro rest collected
        rw [List.cons_append, collectRows_pass hskip, heq, hindex]
      · refine ⟨chosen ++ [(index, row)], ?_, ?_⟩
        · rw [List.map_append]
          exact hsub.append (.refl _)
        · intro rest collected
          rw [List.cons_append, collectRows_take hskip _ _
            (hplain row List.mem_cons_self), heq, hindex, List.append_assoc]
          rfl

theorem length_childRows (items : Items) (ids : List ItemId) :
    (childRows items ids).length = items.offspring ids := by
  unfold childRows Items.offspring
  rw [List.length_flatMap]
  congr 1
  apply List.map_congr_left
  intro id _
  rw [List.length_cons, List.length_replicate, Nat.add_comm]

theorem collectRows_server
    (hservers : ServersSound queue.view.serverList queue.view.items)
    {entry : ServerId × ServerItem} (hentry : entry ∈ queue.view.serverList)
    {index : ℕ} {skipTo : ℤ} (hskip : skipTo < index) :
    ∃ (chosen : List (ℕ × QueueRow)) (following : ℕ) (skipped : ℤ),
      skipped < following ∧
      (chosen.map Prod.snd = [.server entry.1] ∨
        (chosen.map Prod.snd).Sublist
          (childRows queue.view.items entry.2.children.live).reverse) ∧
      ∀ rest collected,
        queue.collectRows selected
          ((.server entry.1 ::
            childRows queue.view.items entry.2.children.live) ++ rest)
          index skipTo collected =
        queue.collectRows selected rest following skipped
          (chosen ++ collected) := by
  have hfound := server_of_mem hservers hentry
  have htree := (hservers.queue hfound).rows.tree
  have hlength : (entry.2.visibleOffspring : ℤ) =
      (childRows queue.view.items entry.2.children.live).length := by
    have hoffspring := htree.offspring
    rw [ItemQueue.length_rows] at hoffspring
    rw [length_childRows]
    exact hoffspring
  generalize hrows : childRows queue.view.items entry.2.children.live =
    children at *
  by_cases hselected : selected index = false
  · obtain ⟨chosen, hsub, heq⟩ := @collectRows_children queue selected
      children (by
        intro row hrow key
        rw [← hrows] at hrow
        obtain ⟨id, _, rfl | ⟨rfl, _⟩⟩ := mem_childRows hrow
        · intro h
          cases h
        · intro h
          cases h) (index + 1) skipTo
    refine ⟨chosen, index + 1 + children.length, skipTo, ?_, Or.inr hsub, ?_⟩
    · push_cast
      omega
    · intro rest collected
      rw [List.cons_append, collectRows_pass (Or.inl hselected), heq]
  · refine ⟨[(index, .server entry.1)], index + 1 + children.length,
      index + entry.2.visibleOffspring, ?_, Or.inl rfl, ?_⟩
    · push_cast
      omega
    · intro rest collected
      have hnot : ¬ (selected index = false ∨ (index : ℤ) ≤ skipTo) := by
        intro h
        rcases h with h | h
        · exact hselected h
        · omega
      have htake : queue.collectRows selected
          (.server entry.1 :: (children ++ rest)) index skipTo collected =
          queue.collectRows selected (children ++ rest) (index + 1)
            (index + entry.2.visibleOffspring)
            ((index, .server entry.1) :: collected) := by
        show (if _ then _ else _) = _
        rw [if_neg hnot]
        simp only [hfound]
      rw [List.cons_append, htake]
      apply collectRows_skipped
      push_cast
      omega

theorem collectRows_apart
    (hservers : ServersSound queue.view.serverList queue.view.items)
    (entries : List (ServerId × ServerItem))
    (hentries : ∀ entry ∈ entries, entry ∈ queue.view.serverList)
    (hkeys : (entries.map Prod.fst).Nodup) {index : ℕ} {skipTo : ℤ}
    (hskip : skipTo < index) {collected : List (ℕ × QueueRow)}
    (hapart : queue.Apart (collected.map Prod.snd))
    (hbefore : ∀ row ∈ collected.map Prod.snd,
      ∃ key, Belongs queue.view key row ∧ key ∉ entries.map Prod.fst) :
    queue.Apart ((queue.collectRows selected
      (entries.flatMap fun entry => .server entry.1 ::
        childRows queue.view.items entry.2.children.live)
      index skipTo collected).map Prod.snd) := by
  induction entries generalizing index skipTo collected with
  | nil => exact hapart
  | cons entry rest ih =>
      have hentry := hentries entry List.mem_cons_self
      obtain ⟨hnot, hkeys'⟩ := List.nodup_cons.mp hkeys
      obtain ⟨chosen, following, skipped, hfollowing, hchosen, heq⟩ :=
        @collectRows_server queue selected hservers entry hentry index skipTo
          hskip
      have hfound := server_of_mem hservers hentry
      have hshape : (entry.1, entry.2.children.live) ∈ queue.view.shape :=
        List.mem_map_of_mem hentry
      -- What has been chosen is shown under this server item.
      have hthis : ∀ row ∈ chosen.map Prod.snd,
          queue.isPresent row = true ∧ Belongs queue.view entry.1 row := by
        intro row hrow
        rcases hchosen with hserver | hsub
        · rw [hserver] at hrow
          rw [List.mem_singleton.mp hrow]
          exact ⟨isPresent_server.mpr ⟨_, hshape, rfl⟩, rfl⟩
        · have hmem := List.mem_reverse.mp (hsub.subset hrow)
          obtain ⟨id, hid, rfl | ⟨rfl, hcount⟩⟩ := mem_childRows hmem
          · exact ⟨isPresent_file.mpr ⟨_, hshape, hid⟩, _, hshape, rfl, hid⟩
          · exact ⟨isPresent_status.mpr
              ⟨isPresent_file.mpr ⟨_, hshape, hid⟩, hcount⟩,
              _, hshape, rfl, hid⟩
      have hpairs : (chosen.map Prod.snd).Pairwise fun row later =>
          ¬ Covers queue.view row later := by
        rcases hchosen with hserver | hsub
        · rw [hserver]
          exact List.pairwise_singleton _ _
        · exact (childRows_apart queue.view
            (nodup_of_server hservers hfound)).sublist hsub
      rw [List.flatMap_cons, heq]
      apply ih (fun other h => hentries other (List.mem_cons_of_mem _ h))
        hkeys' hfollowing
      · rw [List.map_append]
        constructor
        · intro row hrow
          rcases List.mem_append.mp hrow with hnew | hold
          · exact (hthis row hnew).1
          · exact hapart.present row hold
        · apply List.pairwise_append.mpr
          refine ⟨hpairs, hapart.apart, ?_⟩
          intro row hrow later hlater hcovers
          obtain ⟨key, hbelongs, hother⟩ := hbefore later hlater
          have hsame := hcovers.belongs hservers (hthis row hrow).2 hbelongs
          exact hother (hsame ▸ List.mem_cons_self)
      · intro row hrow
        rw [List.map_append] at hrow
        rcases List.mem_append.mp hrow with hnew | hold
        · exact ⟨entry.1, (hthis row hnew).2, hnot⟩
        · obtain ⟨key, hbelongs, hother⟩ := hbefore row hold
          exact ⟨key, hbelongs, fun h => hother (List.mem_cons_of_mem _ h)⟩

theorem selectedItems_apart {known : ℕ → Prop} (hsound : queue.Sound known)
    (selected : ℕ → Bool) :
    queue.Apart ((queue.selectedItems selected).map Prod.snd) := by
  have hservers := hsound.items.servers
  apply collectRows_apart hservers queue.view.serverList (fun _ h => h)
    hservers.unique
  · exact Int.negSucc_lt_zero 0
  · constructor
    · intro row hrow
      cases hrow
    · exact List.Pairwise.nil
  · intro row hrow
    cases hrow

end TransferQueue

end TabFtp
