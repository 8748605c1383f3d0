import TabFtp.OrderedSet

/-!
# Maps kept in the order of a comparison

A map is an ordered set of pairs.  A key finds the pair whose key is
equivalent to it, which need not be the key that the pair was made with.
-/

namespace OrderedMap

open OrderedSet

universe u v

variable {Key : Type u} {Value : Type v} (less : Key → Key → Bool)

def find (wanted : Key) (pairs : List (Key × Value)) :
    Option (Key × Value) :=
  match lowerBound Prod.fst less wanted pairs with
  | none => none
  | some pair => if less wanted pair.1 then none else some pair

def update (wanted : Key) (change : Value → Value)
    (pairs : List (Key × Value)) : List (Key × Value) :=
  pairs.map fun pair =>
    if less pair.1 wanted || less wanted pair.1 then pair
    else (pair.1, change pair.2)

/-- `std::map::erase` with a key. -/
def erase (wanted : Key) (pairs : List (Key × Value)) :
    List (Key × Value) :=
  pairs.filter fun pair => less pair.1 wanted || less wanted pair.1

/-- The assignment `map[wanted] = value`. -/
def assign (wanted : Key) (value : Value) (pairs : List (Key × Value)) :
    List (Key × Value) :=
  update less wanted (fun _ => value)
    (emplace Prod.fst less (wanted, value) pairs).1

variable {less} {wanted : Key} {pairs : List (Key × Value)}
  {pair : Key × Value} {change : Value → Value} {value : Value}

theorem find_mem (hfind : find less wanted pairs = some pair) :
    pair ∈ pairs ∧ Equivalent less pair.1 wanted := by
  unfold find at hfind
  cases hbound : lowerBound Prod.fst less wanted pairs with
  | none => simp [hbound] at hfind
  | some found =>
      rw [hbound] at hfind
      dsimp only at hfind
      split_ifs at hfind with hafter
      obtain rfl : found = pair := Option.some.inj hfind
      have hbefore : less found.1 wanted = false := by
        simpa using List.find?_some hbound
      exact ⟨lowerBound_mem hbound, hbefore, by simpa using hafter⟩

theorem find_singleton (hsame : Equivalent less pair.1 wanted) :
    find less wanted [pair] = some pair := by
  unfold find lowerBound
  rw [List.find?_cons_of_pos (by simp [hsame.1])]
  simp [hsame.2]

theorem mem_update (hmem : pair ∈ update less wanted change pairs) :
    pair ∈ pairs ∨
      ∃ value, (pair.1, value) ∈ pairs ∧
        Equivalent less pair.1 wanted ∧ pair.2 = change value := by
  obtain ⟨old, hold, rfl⟩ := List.mem_map.mp hmem
  by_cases hdiffer : (less old.1 wanted || less wanted old.1) = true
  · rw [if_pos hdiffer]
    exact Or.inl hold
  · rw [if_neg hdiffer]
    have hsame : Equivalent less old.1 wanted := by
      simpa [Equivalent] using hdiffer
    exact Or.inr ⟨old.2, hold, hsame, rfl⟩

theorem mem_erase (hmem : pair ∈ erase less wanted pairs) :
    pair ∈ pairs :=
  List.mem_of_mem_filter hmem

theorem mem_emplace
    (hmem : pair ∈ (emplace Prod.fst less (wanted, value) pairs).1) :
    pair ∈ pairs ∨ pair = (wanted, value) := by
  rcases @emplace_cases _ _ Prod.fst less (wanted, value) pairs with
    ⟨_, hperm⟩ | ⟨hkept, _⟩
  · rcases List.mem_cons.mp (hperm.mem_iff.mp hmem) with hnew | hold
    · exact Or.inr hnew
    · exact Or.inl hold
  · rw [hkept] at hmem
    exact Or.inl hmem

theorem mem_emplace_of_mem (hmem : pair ∈ pairs) :
    pair ∈ (emplace Prod.fst less (wanted, value) pairs).1 := by
  rcases @emplace_cases _ _ Prod.fst less (wanted, value) pairs with
    ⟨_, hperm⟩ | ⟨hkept, _⟩
  · exact hperm.mem_iff.mpr (List.mem_cons_of_mem _ hmem)
  · rw [hkept]
    exact hmem

theorem mem_assign (hmem : pair ∈ assign less wanted value pairs) :
    pair ∈ pairs ∨ pair.2 = value := by
  rcases mem_update hmem with hold | ⟨_, _, _, hvalue⟩
  · rcases mem_emplace hold with hbefore | hnew
    · exact Or.inl hbefore
    · exact Or.inr (by rw [hnew])
  · exact Or.inr hvalue

/-! ## Maps in order -/

section Ordered

variable {other : Key}

theorem mem_erase_iff :
    pair ∈ erase less wanted pairs ↔
      pair ∈ pairs ∧ ¬Equivalent less pair.1 wanted := by
  unfold erase Equivalent
  rw [List.mem_filter, Bool.or_eq_true, not_and_or, Bool.not_eq_false,
    Bool.not_eq_false]

theorem mem_update_iff :
    pair ∈ update less wanted change pairs ↔
      (pair ∈ pairs ∧ ¬Equivalent less pair.1 wanted) ∨
        ∃ value, (pair.1, value) ∈ pairs ∧
          Equivalent less pair.1 wanted ∧ pair.2 = change value := by
  constructor
  · intro hmem
    rcases List.mem_map.mp hmem with ⟨old, hold, rfl⟩
    by_cases hdiffer : (less old.1 wanted || less wanted old.1) = true
    · rw [if_pos hdiffer]
      left
      refine ⟨hold, ?_⟩
      intro hsame
      rw [hsame.1, hsame.2] at hdiffer
      cases hdiffer
    · rw [if_neg hdiffer]
      right
      exact ⟨old.2, hold, by simpa [Equivalent] using hdiffer, rfl⟩
  · intro hpair
    rcases hpair with ⟨hmem, hdiffer⟩ | ⟨value, hmem, hsame, hvalue⟩
    · refine List.mem_map.mpr ⟨pair, hmem, ?_⟩
      rw [if_pos]
      rw [Bool.or_eq_true]
      simpa [Equivalent, or_iff_not_imp_left] using hdiffer
    · refine List.mem_map.mpr ⟨(pair.1, value), hmem, ?_⟩
      dsimp only
      rw [if_neg (by simp [hsame.1, hsame.2]), ← hvalue]

theorem Ordered.update (hordered : Ordered Prod.fst less pairs)
    (wanted : Key) (change : Value → Value) :
    Ordered Prod.fst less (OrderedMap.update less wanted change pairs) := by
  apply OrderedSet.Ordered.map hordered
  intro element _
  split_ifs <;> rfl

theorem Ordered.erase (hordered : Ordered Prod.fst less pairs)
    (wanted : Key) :
    Ordered Prod.fst less (OrderedMap.erase less wanted pairs) :=
  OrderedSet.Ordered.filter hordered _

theorem Ordered.assign (hless : StrictWeak less)
    (hordered : Ordered Prod.fst less pairs) (wanted : Key) (value : Value) :
    Ordered Prod.fst less (OrderedMap.assign less wanted value pairs) :=
  Ordered.update (OrderedSet.Ordered.emplace hless hordered (wanted, value))
    wanted _

theorem find_eq_some_iff (hless : StrictWeak less)
    (hordered : Ordered Prod.fst less pairs) :
    find less wanted pairs = some pair ↔
      pair ∈ pairs ∧ Equivalent less pair.1 wanted := by
  constructor
  · exact find_mem
  · rintro ⟨hmem, hsame⟩
    unfold find
    rw [OrderedSet.Ordered.lowerBound_eq hless hordered hmem hsame]
    dsimp only
    rw [if_neg (by simp [hsame.2])]

theorem find_eq_none_iff (hless : StrictWeak less)
    (hordered : Ordered Prod.fst less pairs) :
    find less wanted pairs = none ↔
      ∀ pair ∈ pairs, ¬Equivalent less pair.1 wanted := by
  rw [Option.eq_none_iff_forall_ne_some]
  constructor
  · intro hnone pair hmem hsame
    exact hnone pair ((find_eq_some_iff hless hordered).mpr ⟨hmem, hsame⟩)
  · intro hnone pair hfind
    rcases find_mem hfind with ⟨hmem, hsame⟩
    exact hnone pair hmem hsame

theorem find_congr (hless : StrictWeak less)
    (hordered : Ordered Prod.fst less pairs)
    (hsame : Equivalent less other wanted) :
    find less other pairs = find less wanted pairs := by
  apply Option.ext
  intro pair
  rw [find_eq_some_iff hless hordered, find_eq_some_iff hless hordered]
  constructor
  · rintro ⟨hmem, hkey⟩
    exact ⟨hmem, hless.equivalent_trans hkey hsame⟩
  · rintro ⟨hmem, hkey⟩
    exact ⟨hmem, hless.equivalent_trans hkey hsame.symm⟩

theorem find_update_none (hless : StrictWeak less)
    (hordered : Ordered Prod.fst less pairs)
    (hnone : find less other pairs = none) :
    find less other (update less wanted change pairs) = none := by
  rw [find_eq_none_iff hless (Ordered.update hordered wanted change)]
  rw [find_eq_none_iff hless hordered] at hnone
  intro pair hmem
  rcases mem_update_iff.mp hmem with ⟨hold, _⟩ | ⟨value, hold, _, _⟩
  · exact hnone pair hold
  · exact hnone (pair.1, value) hold

theorem find_update_self (hless : StrictWeak less)
    (hordered : Ordered Prod.fst less pairs)
    (hsame : Equivalent less other wanted) :
    find less other (update less wanted change pairs) =
      (find less other pairs).map fun pair => (pair.1, change pair.2) := by
  have hupdated := Ordered.update hordered wanted change
  cases hfind : find less other pairs with
  | none => exact find_update_none hless hordered hfind
  | some pair =>
      rcases find_mem hfind with ⟨hmem, hkey⟩
      rw [Option.map_some, find_eq_some_iff hless hupdated, mem_update_iff]
      refine ⟨.inr ⟨pair.2, hmem, ?_, rfl⟩, hkey⟩
      exact hless.equivalent_trans hkey hsame

theorem find_update_other (hless : StrictWeak less)
    (hordered : Ordered Prod.fst less pairs)
    (hdiffer : ¬Equivalent less other wanted) :
    find less other (update less wanted change pairs) =
      find less other pairs := by
  have hupdated := Ordered.update hordered wanted change
  cases hfind : find less other pairs with
  | none => exact find_update_none hless hordered hfind
  | some pair =>
      rcases find_mem hfind with ⟨hmem, hkey⟩
      rw [find_eq_some_iff hless hupdated, mem_update_iff]
      refine ⟨.inl ⟨hmem, ?_⟩, hkey⟩
      intro hsame
      exact hdiffer (hless.equivalent_trans hkey.symm hsame)

theorem find_emplace_of_some (hless : StrictWeak less)
    (hordered : Ordered Prod.fst less pairs)
    (hfind : find less other pairs = some pair) :
    find less other (emplace Prod.fst less (wanted, value) pairs).1 =
      some pair := by
  rcases find_mem hfind with ⟨hmem, hkey⟩
  have hemplaced := OrderedSet.Ordered.emplace hless hordered (wanted, value)
  exact (find_eq_some_iff hless hemplaced).mpr
    ⟨mem_emplace_of_mem hmem, hkey⟩

theorem find_emplace_self (hless : StrictWeak less)
    (hordered : Ordered Prod.fst less pairs)
    (hnone : find less other pairs = none)
    (hsame : Equivalent less other wanted) :
    find less other (emplace Prod.fst less (wanted, value) pairs).1 =
      some (wanted, value) := by
  have hemplaced := OrderedSet.Ordered.emplace hless hordered (wanted, value)
  rw [find_eq_none_iff hless hordered] at hnone
  rcases @emplace_cases _ _ Prod.fst less (wanted, value) pairs with
    ⟨_, hperm⟩ | ⟨_, hmem, hkey⟩
  · exact (find_eq_some_iff hless hemplaced).mpr
      ⟨hperm.mem_iff.mpr List.mem_cons_self, hsame.symm⟩
  · exact absurd (hless.equivalent_trans hkey hsame.symm) (hnone _ hmem)

theorem find_emplace_other (hless : StrictWeak less)
    (hordered : Ordered Prod.fst less pairs)
    (hdiffer : ¬Equivalent less other wanted) :
    find less other (emplace Prod.fst less (wanted, value) pairs).1 =
      find less other pairs := by
  cases hfind : find less other pairs with
  | some pair => exact find_emplace_of_some hless hordered hfind
  | none =>
      have hemplaced :=
        OrderedSet.Ordered.emplace hless hordered (wanted, value)
      rw [find_eq_none_iff hless hemplaced]
      rw [find_eq_none_iff hless hordered] at hfind
      intro pair hmem hkey
      rcases mem_emplace hmem with hold | hnew
      · exact hfind pair hold hkey
      · rw [hnew] at hkey
        exact hdiffer hkey.symm

/-- An assignment keeps the key that is there. -/
theorem find_assign_self (hless : StrictWeak less)
    (hordered : Ordered Prod.fst less pairs)
    (hsame : Equivalent less other wanted) :
    find less other (assign less wanted value pairs) =
      some (((find less other pairs).map Prod.fst).getD wanted, value) := by
  have hemplaced := OrderedSet.Ordered.emplace hless hordered (wanted, value)
  unfold assign
  rw [find_update_self hless hemplaced hsame]
  cases hfind : find less other pairs with
  | none => rw [find_emplace_self hless hordered hfind hsame]; rfl
  | some pair => rw [find_emplace_of_some hless hordered hfind]; rfl

theorem find_assign_other (hless : StrictWeak less)
    (hordered : Ordered Prod.fst less pairs)
    (hdiffer : ¬Equivalent less other wanted) :
    find less other (assign less wanted value pairs) =
      find less other pairs := by
  have hemplaced := OrderedSet.Ordered.emplace hless hordered (wanted, value)
  unfold assign
  rw [find_update_other hless hemplaced hdiffer,
    find_emplace_other hless hordered hdiffer]

theorem find_erase_self (hless : StrictWeak less)
    (hordered : Ordered Prod.fst less pairs)
    (hsame : Equivalent less other wanted) :
    find less other (erase less wanted pairs) = none := by
  rw [find_eq_none_iff hless (Ordered.erase hordered wanted)]
  intro pair hmem hkey
  exact (mem_erase_iff.mp hmem).2 (hless.equivalent_trans hkey hsame)

theorem find_erase_other (hless : StrictWeak less)
    (hordered : Ordered Prod.fst less pairs)
    (hdiffer : ¬Equivalent less other wanted) :
    find less other (erase less wanted pairs) = find less other pairs := by
  have herased := Ordered.erase hordered wanted
  cases hfind : find less other pairs with
  | none =>
      rw [find_eq_none_iff hless herased]
      rw [find_eq_none_iff hless hordered] at hfind
      exact fun pair hmem => hfind pair (mem_erase hmem)
  | some pair =>
      rcases find_mem hfind with ⟨hmem, hkey⟩
      rw [find_eq_some_iff hless herased, mem_erase_iff]
      refine ⟨⟨hmem, fun hsame => ?_⟩, hkey⟩
      exact hdiffer (hless.equivalent_trans hkey.symm hsame)

end Ordered

end OrderedMap
