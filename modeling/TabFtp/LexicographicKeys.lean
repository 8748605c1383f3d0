import TabFtp.OrderedSet
import Mathlib.Data.List.Lex
import Mathlib.Data.Prod.Lex

/-!
# Comparisons written as a chain of tests

A comparison that tests one field after the other, first for `<` and then for
`>`, is the lexicographic order of the fields.  A comparison that is the
order of a key is one that a set can use, and two values with the same key
are the same for the set.
-/

namespace LexicographicKeys

universe u v

def lexThen {First : Type u} [LinearOrder First]
    (left right : First) (rest : Bool) : Bool :=
  if left < right then true
  else if left > right then false
  else rest

theorem lexThen_iff
    {First : Type u} [LinearOrder First] {Rest : Type v} [LinearOrder Rest]
    {left right : First} {lefts rights : Rest} {rest : Bool}
    (hrest : left = right → (rest = true ↔ lefts < rights)) :
    lexThen left right rest = true ↔
      toLex (left, lefts) < toLex (right, rights) := by
  unfold lexThen
  rw [Prod.Lex.toLex_lt_toLex]
  rcases lt_trichotomy left right with hlt | heq | hgt
  · simp [hlt]
  · simp [heq, hrest heq]
  · simp [hgt, hgt.asymm, hgt.ne']

/-- The loop of `std::lexicographical_compare`. -/
def listLess {Element : Type u} (less : Element → Element → Bool) :
    List Element → List Element → Bool
  | _, [] => false
  | [], _ :: _ => true
  | left :: lefts, right :: rights =>
      if less left right then true
      else if less right left then false
      else listLess less lefts rights

theorem listLess_iff
    {Element : Type u} {Key : Type v} [LinearOrder Key]
    {less : Element → Element → Bool} (key : Element → Key)
    (hless : ∀ left right, less left right = true ↔ key left < key right)
    (lefts rights : List Element) :
    listLess less lefts rights = true ↔
      lefts.map key < rights.map key := by
  induction lefts generalizing rights with
  | nil => cases rights <;> simp [listLess]
  | cons left lefts ih =>
      cases rights with
      | nil => simp [listLess]
      | cons right rights =>
          rw [List.map_cons, List.map_cons, List.cons_lt_cons_iff, ← ih]
          simp only [listLess, hless]
          rcases lt_trichotomy (key left) (key right) with hlt | heq | hgt
          · simp [hlt]
          · simp [heq]
          · simp [hgt, hgt.asymm, hgt.ne']

section OfKey

variable {Value : Type u} {Key : Type v} [LinearOrder Key]
  {less : Value → Value → Bool} {key : Value → Key}

theorem strictWeak_of_key
    (hless : ∀ left right, less left right = true ↔ key left < key right) :
    OrderedSet.StrictWeak less where
  irrefl value := by
    have hnot : ¬ less value value = true := by
      rw [hless]
      exact lt_irrefl _
    simpa using hnot
  trans := by
    intro first second third hleft hright
    rw [hless] at hleft hright ⊢
    exact hleft.trans hright
  separates := by
    intro first third second hlt
    rw [hless] at hlt
    rw [hless, hless]
    rcases lt_or_ge (key first) (key second) with hbefore | hnot
    · exact Or.inl hbefore
    · exact Or.inr (lt_of_le_of_lt hnot hlt)

theorem equivalent_iff_key
    (hless : ∀ left right, less left right = true ↔ key left < key right)
    (first second : Value) :
    OrderedSet.Equivalent less first second ↔ key first = key second := by
  unfold OrderedSet.Equivalent
  rw [← Bool.not_eq_true, ← Bool.not_eq_true, hless, hless, not_lt, not_lt]
  exact ⟨fun hboth => le_antisymm hboth.2 hboth.1,
    fun heq => ⟨heq.ge, heq.le⟩⟩

end OfKey

end LexicographicKeys
