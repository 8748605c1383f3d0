import Mathlib.Tactic

/-!
# Sets kept in the order of a comparison

A set is a list whose keys are in strictly ascending order.  Two keys of which
neither is before the other are the same as far as the set is concerned, even
where they are different values: looking for one finds the other, and
inserting one keeps the other.
-/

namespace OrderedSet

universe u v

variable {Element : Type u} {Key : Type v}

/-- What the comparison of a set has to satisfy. -/
structure StrictWeak (less : Key → Key → Bool) : Prop where
  irrefl : ∀ key, less key key = false
  trans : ∀ {first second third}, less first second = true →
    less second third = true → less first third = true
  separates : ∀ {first third} (second), less first third = true →
    less first second = true ∨ less second third = true

variable (key : Element → Key) (less : Key → Key → Bool)

/-- Neither key is before the other. -/
def Equivalent (first second : Key) : Prop :=
  less first second = false ∧ less second first = false

def Ordered (elements : List Element) : Prop :=
  elements.Pairwise fun first second => less (key first) (key second) = true

/-- The first element that is not before the key. -/
def lowerBound (wanted : Key) (elements : List Element) : Option Element :=
  elements.find? fun element => !less (key element) wanted

/-- Insertion.  The second result is the element of the set that has the key,
which need not be the new one. -/
def emplace (element : Element) : List Element → List Element × Element
  | [] => ([element], element)
  | first :: elements =>
      if less (key first) (key element) then
        let rest := emplace element elements
        (first :: rest.1, rest.2)
      else if less (key element) (key first) then
        (element :: first :: elements, element)
      else (first :: elements, first)

variable {key less} {elements : List Element} {element other : Element}
  {wanted : Key}

theorem Equivalent.symm {first second : Key}
    (hsame : Equivalent less first second) : Equivalent less second first :=
  ⟨hsame.2, hsame.1⟩

theorem StrictWeak.refl (hless : StrictWeak less) (wanted : Key) :
    Equivalent less wanted wanted :=
  ⟨hless.irrefl wanted, hless.irrefl wanted⟩

theorem StrictWeak.equivalent_trans
    (hless : StrictWeak less) {first second third : Key}
    (hleft : Equivalent less first second)
    (hright : Equivalent less second third) :
    Equivalent less first third := by
  constructor
  · by_contra hlt
    rcases hless.separates second (by simpa using hlt) with h | h
    · rw [hleft.1] at h
      cases h
    · rw [hright.1] at h
      cases h
  · by_contra hlt
    rcases hless.separates second (by simpa using hlt) with h | h
    · rw [hright.2] at h
      cases h
    · rw [hleft.2] at h
      cases h

theorem Ordered.eq_of_equivalent
    (hordered : Ordered key less elements) (helement : element ∈ elements)
    (hother : other ∈ elements)
    (hsame : Equivalent less (key element) (key other)) :
    element = other := by
  by_contra hne
  have hpair : less (key element) (key other) = true ∨
      less (key other) (key element) = true := by
    unfold Ordered at hordered
    induction elements with
    | nil => cases helement
    | cons first elements ih =>
        rw [List.pairwise_cons] at hordered
        rcases List.mem_cons.mp helement with hfirst | hlater
        · rcases List.mem_cons.mp hother with hsecond | hrest
          · exact absurd (hfirst.trans hsecond.symm) hne
          · rw [hfirst]
            exact Or.inl (hordered.1 other hrest)
        · rcases List.mem_cons.mp hother with hsecond | hrest
          · rw [hsecond]
            exact Or.inr (hordered.1 element hlater)
          · exact ih hordered.2 hlater hrest
  rcases hpair with hlt | hlt
  · rw [hsame.1] at hlt
    cases hlt
  · rw [hsame.2] at hlt
    cases hlt

theorem Ordered.lowerBound_eq
    (hless : StrictWeak less) (hordered : Ordered key less elements)
    (hmem : element ∈ elements)
    (hsame : Equivalent less (key element) wanted) :
    lowerBound key less wanted elements = some element := by
  unfold Ordered at hordered
  unfold lowerBound
  induction elements with
  | nil => cases hmem
  | cons first elements ih =>
      rw [List.pairwise_cons] at hordered
      rcases List.mem_cons.mp hmem with rfl | hmem
      · rw [List.find?_cons_of_pos]
        simp [hsame.1]
      · have hbefore : less (key first) wanted = true := by
          rcases hless.separates wanted (hordered.1 element hmem) with h | h
          · exact h
          · rw [hsame.2] at h
            cases h
        rw [List.find?_cons_of_neg]
        · exact ih hordered.2 hmem
        · simp [hbefore]

theorem lowerBound_mem
    (hfound : lowerBound key less wanted elements = some element) :
    element ∈ elements :=
  List.mem_of_find?_eq_some hfound

theorem mem_emplace_self (element : Element) (elements : List Element) :
    (emplace key less element elements).2 ∈
      (emplace key less element elements).1 := by
  induction elements with
  | nil => simp [emplace]
  | cons first elements ih =>
      unfold emplace
      split_ifs
      · exact List.mem_cons_of_mem _ ih
      · exact List.mem_cons_self
      · exact List.mem_cons_self

theorem emplace_cases (element : Element) (elements : List Element) :
    ((emplace key less element elements).2 = element ∧
        (emplace key less element elements).1.Perm (element :: elements)) ∨
      (emplace key less element elements).1 = elements ∧
        (emplace key less element elements).2 ∈ elements ∧
        Equivalent less (key (emplace key less element elements).2)
          (key element) := by
  induction elements with
  | nil => exact Or.inl ⟨rfl, List.Perm.refl _⟩
  | cons first elements ih =>
      unfold emplace
      split_ifs with hbefore hafter
      · rcases ih with ⟨helement, hperm⟩ | ⟨hkept, hmem, hsame⟩
        · refine Or.inl ⟨helement, ?_⟩
          exact (hperm.cons first).trans (List.Perm.swap element first _)
        · refine Or.inr ⟨?_, List.mem_cons_of_mem _ hmem, hsame⟩
          simp only [hkept]
      · exact Or.inl ⟨rfl, List.Perm.refl _⟩
      · refine Or.inr ⟨rfl, List.mem_cons_self, ?_⟩
        exact ⟨by simpa using hbefore, by simpa using hafter⟩

/-- A new element goes to its place. -/
theorem Ordered.emplace
    (hless : StrictWeak less) (hordered : Ordered key less elements)
    (element : Element) :
    Ordered key less (OrderedSet.emplace key less element elements).1 := by
  induction elements with
  | nil => exact List.pairwise_singleton _ _
  | cons first elements ih =>
      have hparts := List.pairwise_cons.mp hordered
      have hrest := ih hparts.2
      unfold OrderedSet.emplace
      split_ifs with hbefore hafter
      · apply List.pairwise_cons.mpr
        refine ⟨?_, hrest⟩
        intro other hmem
        have hcases := @emplace_cases _ _ key less element elements
        rcases hcases with ⟨_, hperm⟩ | ⟨hkept, _⟩
        · rcases List.mem_cons.mp (hperm.mem_iff.mp hmem) with rfl | hold
          · exact hbefore
          · exact hparts.1 other hold
        · rw [hkept] at hmem
          exact hparts.1 other hmem
      · apply List.pairwise_cons.mpr
        refine ⟨?_, hordered⟩
        intro other hmem
        rcases List.mem_cons.mp hmem with rfl | hold
        · exact hafter
        · exact hless.trans hafter (hparts.1 other hold)
      · exact hordered

theorem emplace_last
    (hlast : ∀ other ∈ elements, less (key other) (key element) = true) :
    (emplace key less element elements).1 = elements ++ [element] := by
  induction elements with
  | nil => rfl
  | cons first elements ih =>
      obtain ⟨hfirst, hrest⟩ := List.forall_mem_cons.mp hlast
      rw [emplace, if_pos hfirst, List.cons_append, ← ih hrest]

/-- Inserting the elements of an ordered list one by one rebuilds it. -/
theorem Ordered.foldl_emplace (hordered : Ordered key less elements) :
    elements.foldl
        (fun set element => (OrderedSet.emplace key less element set).1) [] =
      elements := by
  have hrest : ∀ (rest set : List Element), Ordered key less (set ++ rest) →
      rest.foldl
          (fun set element => (OrderedSet.emplace key less element set).1) set =
        set ++ rest := by
    intro rest
    induction rest with
    | nil => exact fun set _ => (List.append_nil set).symm
    | cons element rest ih =>
        intro set hset
        have hbefore : ∀ other ∈ set, less (key other) (key element) = true :=
          fun other hother => (List.pairwise_append.mp hset).2.2 other hother
            element List.mem_cons_self
        rw [List.foldl_cons, emplace_last hbefore,
          ih _ (by rwa [List.append_assoc]), List.append_assoc]
        rfl
  exact hrest elements [] hordered

theorem Ordered.map
    (hordered : Ordered key less elements) {change : Element → Element}
    (hkey : ∀ element ∈ elements, key (change element) = key element) :
    Ordered key less (elements.map change) := by
  unfold Ordered
  rw [List.pairwise_map]
  apply List.Pairwise.imp_of_mem _ hordered
  intro first second hfirst hsecond hlt
  rw [hkey first hfirst, hkey second hsecond]
  exact hlt

theorem Ordered.filter
    (hordered : Ordered key less elements) (keep : Element → Bool) :
    Ordered key less (elements.filter keep) :=
  List.Pairwise.filter keep hordered

end OrderedSet
