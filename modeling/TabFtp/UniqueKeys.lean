import Mathlib.Tactic

/-!
# Lists whose elements have distinct keys

A key then stands for one element of the list, and writing to the element
with a key changes this element only.
-/

namespace UniqueKeys

universe u v

variable {Element : Type u} {Key : Type v}

def Unique (key : Element → Key) (elements : List Element) : Prop :=
  (elements.map key).Nodup

def write [DecidableEq Key] (key : Element → Key) (wanted : Key)
    (change : Element → Element) (elements : List Element) : List Element :=
  elements.map fun element =>
    if key element = wanted then change element else element

variable {key : Element → Key} {elements : List Element}
  {element other : Element} {change : Element → Element}

theorem Unique.eq_of_key
    (hunique : Unique key elements) (helement : element ∈ elements)
    (hother : other ∈ elements) (hkey : key element = key other) :
    element = other :=
  List.inj_on_of_nodup_map hunique helement hother hkey

theorem Unique.find
    (hunique : Unique key elements) (hmem : element ∈ elements)
    {isWanted : Element → Bool}
    (hwanted : ∀ other ∈ elements,
      isWanted other = true ↔ key other = key element) :
    elements.find? isWanted = some element := by
  cases hfound : elements.find? isWanted with
  | none =>
      have hnot := List.find?_eq_none.mp hfound element hmem
      exact absurd ((hwanted element hmem).mpr rfl) hnot
  | some other =>
      have hother := List.mem_of_find?_eq_some hfound
      have hkey := (hwanted other hother).mp (List.find?_some hfound)
      rw [hunique.eq_of_key hother hmem hkey]

theorem Unique.filter
    (hunique : Unique key elements) (keep : Element → Bool) :
    Unique key (elements.filter keep) :=
  hunique.sublist (List.filter_sublist.map key)

theorem Unique.append_singleton
    (hunique : Unique key elements)
    (hnew : ∀ other ∈ elements, key other ≠ key element) :
    Unique key (elements ++ [element]) := by
  unfold Unique
  rw [List.map_append, List.nodup_append]
  refine ⟨hunique, List.nodup_singleton _, ?_⟩
  intro first hfirst second hsecond
  obtain ⟨other, hother, rfl⟩ := List.mem_map.mp hfirst
  rw [List.map_singleton, List.mem_singleton] at hsecond
  rw [hsecond]
  exact hnew other hother

theorem map_congr_key
    (hchange : ∀ element ∈ elements, key (change element) = key element) :
    (elements.map change).map key = elements.map key := by
  rw [List.map_map]
  exact List.map_congr_left hchange

theorem Unique.map
    (hunique : Unique key elements)
    (hchange : ∀ element ∈ elements, key (change element) = key element) :
    Unique key (elements.map change) := by
  unfold Unique
  rw [map_congr_key hchange]
  exact hunique

theorem sum_filter (keep : Element → Bool) (weight : Element → ℤ)
    (elements : List Element) :
    ((elements.filter keep).map weight).sum =
      (elements.map weight).sum -
        ((elements.filter fun element => !keep element).map weight).sum := by
  induction elements with
  | nil => rfl
  | cons first elements ih =>
      cases hkeep : keep first
      · simp [hkeep, ih]
      · simp [hkeep, ih]
        omega

theorem Unique.ne_of_append {before after : List Element}
    (hunique : Unique key (before ++ element :: after)) :
    ∀ other ∈ before ++ after, key other ≠ key element := by
  unfold Unique at hunique
  rw [List.map_append, List.map_cons] at hunique
  have hfirst := (List.nodup_cons.mp (List.nodup_middle.mp hunique)).1
  intro other hother heq
  apply hfirst
  rw [← heq, ← List.map_append]
  exact List.mem_map_of_mem hother

variable [DecidableEq Key]

theorem Unique.filter_key
    (hunique : Unique key elements) (hmem : element ∈ elements) :
    elements.filter (fun other => decide (key other = key element)) =
      [element] := by
  have hnodup := List.Nodup.of_map key hunique
  apply List.perm_singleton.mp
  rw [List.perm_ext_iff_of_nodup (hnodup.filter _) (List.nodup_singleton _)]
  intro other
  rw [List.mem_filter, List.mem_singleton, decide_eq_true_eq]
  constructor
  · rintro ⟨hother, hkey⟩
    exact hunique.eq_of_key hother hmem hkey
  · rintro rfl
    exact ⟨hmem, rfl⟩

theorem mem_write_iff
    (hunique : Unique key elements) (hmem : element ∈ elements) :
    other ∈ write key (key element) change elements ↔
      other = change element ∨
        other ∈ elements ∧ key other ≠ key element := by
  unfold write
  rw [List.mem_map]
  constructor
  · rintro ⟨source, hsource, rfl⟩
    by_cases hkey : key source = key element
    · rw [if_pos hkey, hunique.eq_of_key hsource hmem hkey]
      exact Or.inl rfl
    · rw [if_neg hkey]
      exact Or.inr ⟨hsource, hkey⟩
  · rintro (rfl | ⟨hother, hkey⟩)
    · exact ⟨element, hmem, if_pos rfl⟩
    · exact ⟨other, hother, if_neg hkey⟩

theorem write_of_absent
    {wanted : Key} (habsent : ∀ element ∈ elements, key element ≠ wanted) :
    write key wanted change elements = elements := by
  have hsame : write key wanted change elements = elements.map id := by
    apply List.map_congr_left
    intro element hmem
    exact if_neg (habsent element hmem)
  rw [hsame, List.map_id]

theorem Unique.write_append {before after : List Element}
    (hunique : Unique key (before ++ element :: after)) :
    write key (key element) change (before ++ element :: after) =
      before ++ change element :: after := by
  have hne := hunique.ne_of_append
  have hbefore : write key (key element) change before = before :=
    write_of_absent fun other hother =>
      hne other (List.mem_append_left after hother)
  have hafter : write key (key element) change after = after :=
    write_of_absent fun other hother =>
      hne other (List.mem_append_right before hother)
  unfold write at hbefore hafter ⊢
  rw [List.map_append, List.map_cons, hbefore, hafter, if_pos rfl]

theorem Unique.filter_append {before after : List Element}
    (hunique : Unique key (before ++ element :: after)) :
    (before ++ element :: after).filter
      (fun other => !decide (key other = key element)) = before ++ after := by
  have hne := hunique.ne_of_append
  have hkept : ∀ other ∈ before ++ after,
      (!decide (key other = key element)) = true := by
    intro other hother
    rw [decide_eq_false (hne other hother)]
    rfl
  have hself : (element :: after).filter
      (fun other => !decide (key other = key element)) =
      after.filter fun other => !decide (key other = key element) := by
    apply List.filter_cons_of_neg
    simp
  rw [List.filter_append, hself, ← List.filter_append]
  exact List.filter_eq_self.mpr hkept

theorem write_of_fixed
    (hunique : Unique key elements) (hmem : element ∈ elements)
    (hfixed : change element = element) :
    write key (key element) change elements = elements := by
  have hsame : write key (key element) change elements =
      elements.map id := by
    apply List.map_congr_left
    intro other hother
    by_cases hkey : key other = key element
    · rw [if_pos hkey, hunique.eq_of_key hother hmem hkey, hfixed]
      rfl
    · exact if_neg hkey
  rw [hsame, List.map_id]

theorem sum_write
    (hunique : Unique key elements) (hmem : element ∈ elements)
    (weight : Element → ℤ) :
    ((write key (key element) change elements).map weight).sum =
      (elements.map weight).sum - weight element +
        weight (change element) := by
  induction elements with
  | nil => cases hmem
  | cons first elements ih =>
      have hparts := List.nodup_cons.mp hunique
      have hwrite : write key (key element) change (first :: elements) =
          (if key first = key element then change first else first) ::
            write key (key element) change elements := rfl
      rw [hwrite, List.map_cons, List.sum_cons, List.map_cons, List.sum_cons]
      rcases List.mem_cons.mp hmem with rfl | hlater
      · have hrest : write key (key element) change elements = elements := by
          apply write_of_absent
          intro other hother heq
          apply hparts.1
          rw [← heq]
          exact List.mem_map_of_mem hother
        rw [if_pos rfl, hrest]
        omega
      · have hkey : key first ≠ key element := by
          intro heq
          apply hparts.1
          rw [heq]
          exact List.mem_map_of_mem hlater
        rw [if_neg hkey, ih hparts.2 hlater]
        omega

/-- A write that keeps the keys keeps them unique. -/
theorem Unique.write
    (hunique : Unique key elements) {wanted : Key}
    (hchange : ∀ element, key (change element) = key element) :
    Unique key (write key wanted change elements) := by
  apply hunique.map
  intro element _
  split
  · exact hchange element
  · rfl

theorem Unique.countP_write
    (hunique : Unique key elements) (hmem : element ∈ elements)
    (keep : Element → Bool) :
    (UniqueKeys.write key (key element) change elements).countP keep +
        (if keep element then 1 else 0) =
      elements.countP keep + if keep (change element) then 1 else 0 := by
  obtain ⟨before, after, rfl⟩ := List.append_of_mem hmem
  rw [hunique.write_append, List.countP_append, List.countP_append,
    List.countP_cons, List.countP_cons]
  omega

theorem countP_of_agree {ids : List Element} (hnodup : ids.Nodup)
    (hmem : element ∈ ids) {keep other : Element → Bool}
    (hagree : ∀ another ∈ ids, another ≠ element →
      other another = keep another) :
    ids.countP other + (if keep element then 1 else 0) =
      ids.countP keep + if other element then 1 else 0 := by
  obtain ⟨before, after, rfl⟩ := List.append_of_mem hmem
  have hnot := (List.nodup_cons.mp (List.nodup_middle.mp hnodup)).1
  rw [List.mem_append, not_or] at hnot
  have hbefore : before.countP other = before.countP keep := by
    apply List.countP_congr
    intro another hanother
    rw [hagree another (List.mem_append_left _ hanother)
      fun heq => hnot.1 (heq ▸ hanother)]
  have hafter : after.countP other = after.countP keep := by
    apply List.countP_congr
    intro another hanother
    rw [hagree another
      (List.mem_append_right _ (List.mem_cons_of_mem _ hanother))
      fun heq => hnot.2 (heq ▸ hanother)]
  rw [List.countP_append, List.countP_append, List.countP_cons,
    List.countP_cons, hbefore, hafter]
  omega

end UniqueKeys
