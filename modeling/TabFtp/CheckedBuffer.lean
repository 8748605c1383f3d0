import Mathlib.Data.List.Basic
import Mathlib.Data.List.TakeWhile

/-!
# Buffers with checked accesses

Reading a buffer by positions, taking symbols off its front and searching it,
where an access outside of the buffer is a fault and not a default value.  A
search for a pattern goes by the length of the buffer, a search for a symbol
goes on until it meets a terminator.
-/

namespace CheckedBuffer

universe u

variable {Symbol : Type u}

inductive Fault
  | position (index : ℕ)
  | length (count : ℕ)
  | nullPointer
  deriving DecidableEq

def readAt (buffer : List Symbol) (index : ℕ) : Except Fault Symbol :=
  match buffer[index]? with
  | some symbol => .ok symbol
  | none => .error (.position index)

def consume (buffer : List Symbol) (count : ℕ) :
    Except Fault (List Symbol) :=
  if count ≤ buffer.length then .ok (buffer.drop count)
  else .error (.length count)

section Searching

variable [DecidableEq Symbol]

/-- The symbols from a position on are those of the pattern; the comparison
stops at the first difference. -/
def matchesAt (buffer : List Symbol) :
    List Symbol → ℕ → Except Fault Bool
  | [], _ => .ok true
  | wanted :: pattern, index =>
      match readAt buffer index with
      | .error fault => .error fault
      | .ok symbol =>
          if symbol = wanted then matchesAt buffer pattern (index + 1)
          else .ok false

/-- The first of `count` positions at which the pattern is found. -/
def search (buffer pattern : List Symbol) :
    ℕ → ℕ → Except Fault (Option ℕ)
  | 0, _ => .ok none
  | count + 1, index =>
      match matchesAt buffer pattern index with
      | .error fault => .error fault
      | .ok true => .ok (some index)
      | .ok false => search buffer pattern count (index + 1)

def findBefore (terminator wanted : Symbol) :
    List Symbol → ℕ → Except Fault (Option ℕ)
  | [], index => .error (.position index)
  | symbol :: buffer, index =>
      if symbol = wanted then .ok (some index)
      else if symbol = terminator then .ok none
      else findBefore terminator wanted buffer (index + 1)

end Searching

/-! ## Accesses inside of the buffer -/

variable {buffer pattern : List Symbol}

theorem readAt_of_lt {index : ℕ} (hlt : index < buffer.length) :
    readAt buffer index = .ok buffer[index] := by
  unfold readAt
  rw [List.getElem?_eq_getElem hlt]

theorem consume_of_le {count : ℕ} (hle : count ≤ buffer.length) :
    consume buffer count = .ok (buffer.drop count) :=
  if_pos hle

variable [DecidableEq Symbol]

def StandsAt (buffer pattern : List Symbol) (index : ℕ) : Prop :=
  pattern <+: buffer.drop index

theorem matchesAt_eq {index : ℕ}
    (hbound : index + pattern.length ≤ buffer.length) :
    matchesAt buffer pattern index =
      .ok (pattern.isPrefixOf (buffer.drop index)) := by
  induction pattern generalizing index with
  | nil => simp [matchesAt]
  | cons wanted pattern ih =>
      rw [List.length_cons] at hbound
      have hlt : index < buffer.length := by omega
      have hrest : index + 1 + pattern.length ≤ buffer.length := by omega
      rw [List.drop_eq_getElem_cons hlt]
      unfold matchesAt
      rw [readAt_of_lt hlt]
      dsimp only
      by_cases hsymbol : buffer[index] = wanted
      · rw [if_pos hsymbol, ih hrest, hsymbol]
        simp
      · have hother : (wanted == buffer[index]) = false := by
          simpa using fun h => hsymbol h.symm
        rw [if_neg hsymbol]
        simp [List.isPrefixOf, hother]

theorem search_spec {count index : ℕ}
    (hbound : count = 0 ∨
      index + count + pattern.length ≤ buffer.length + 1) :
    ∃ found, search buffer pattern count index = .ok found ∧
      (∀ i, found = some i → index ≤ i ∧ i < index + count ∧
        StandsAt buffer pattern i ∧
        ∀ j, index ≤ j → j < i → ¬StandsAt buffer pattern j) ∧
      (found = none → ∀ i, index ≤ i → i < index + count →
        ¬StandsAt buffer pattern i) := by
  induction count generalizing index with
  | zero =>
      refine ⟨none, rfl, nofun, ?_⟩
      intro _ i hle hlt
      omega
  | succ count ih =>
      have hfits : index + pattern.length ≤ buffer.length := by omega
      have hnext : count = 0 ∨
          index + 1 + count + pattern.length ≤ buffer.length + 1 := by omega
      unfold search
      rw [matchesAt_eq hfits]
      cases hstands : pattern.isPrefixOf (buffer.drop index) with
      | true =>
          refine ⟨some index, rfl, ?_, nofun⟩
          intro i hi
          cases hi
          refine ⟨Nat.le_refl _, by omega, List.isPrefixOf_iff_prefix.mp
            hstands, ?_⟩
          intro j hle hlt
          omega
      | false =>
          have hnot : ¬StandsAt buffer pattern index := by
            intro hplaced
            rw [List.isPrefixOf_iff_prefix.mpr hplaced] at hstands
            cases hstands
          rcases ih hnext with ⟨found, hsearch, hsome, hnone⟩
          refine ⟨found, hsearch, ?_, ?_⟩
          · intro i hi
            rcases hsome i hi with ⟨hle, hlt, hat, hbefore⟩
            refine ⟨by omega, by omega, hat, ?_⟩
            intro j hj hji
            by_cases hsame : j = index
            · rw [hsame]
              exact hnot
            · exact hbefore j (by omega) hji
          · intro hfound i hle hlt
            by_cases hsame : i = index
            · rw [hsame]
              exact hnot
            · exact hnone hfound i (by omega) (by omega)

theorem findBefore_spec {terminator wanted : Symbol}
    (hmem : wanted ∈ buffer) (index : ℕ) :
    findBefore terminator wanted buffer index =
      .ok (if terminator ∈ buffer.takeWhile (· ≠ wanted) then none
        else some (index + (buffer.takeWhile (· ≠ wanted)).length)) := by
  induction buffer generalizing index with
  | nil => cases hmem
  | cons symbol buffer ih =>
      unfold findBefore
      by_cases hsymbol : symbol = wanted
      · rw [if_pos hsymbol]
        simp [hsymbol]
      · have hrest : wanted ∈ buffer :=
          (List.mem_cons.mp hmem).resolve_left fun h => hsymbol h.symm
        rw [if_neg hsymbol]
        by_cases hterminator : symbol = terminator
        · rw [if_pos hterminator]
          simp [hterminator ▸ hsymbol, hterminator]
        · rw [if_neg hterminator, ih hrest]
          have hother : ¬terminator = symbol := fun h => hterminator h.symm
          simp [hsymbol, hother, Nat.add_assoc, Nat.add_comm 1]

end CheckedBuffer
