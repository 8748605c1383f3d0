import Mathlib.Data.List.Basic
import Mathlib.Order.Basic

/-!
# Rows in the order of a comparison

A list is sorted by a comparison when no member comes behind one that it
should be before.  A new member belongs between the members that come before
it and the others.
-/

namespace SortedRows

universe u

variable {α : Type u} {cmp other : α → α → Ordering} {rows : List α} {row : α}

def Sorted (cmp : α → α → Ordering) (rows : List α) : Prop :=
  rows.Pairwise fun a b => (cmp a b).isLE

theorem Sorted.of_length_lt_two (hlength : rows.length < 2) :
    Sorted cmp rows := by
  match rows with
  | [] => exact List.Pairwise.nil
  | [row] => exact List.pairwise_singleton _ row
  | _ :: _ :: _ => exact absurd hlength (by simp)

theorem Sorted.congr (hsorted : Sorted cmp rows)
    (hsame : ∀ a ∈ rows, ∀ b ∈ rows, other a b = cmp a b) :
    Sorted other rows := by
  refine List.Pairwise.imp_of_mem ?_ hsorted
  intro a b ha hb hle
  rw [hsame a ha b hb]
  exact hle

theorem Sorted.reverse (hsorted : Sorted cmp rows) :
    Sorted (fun a b => cmp b a) rows.reverse :=
  List.pairwise_reverse.mpr hsorted

section Transitive

variable [Std.TransCmp cmp]

theorem Sorted.split (hsorted : Sorted cmp rows) (row : α) :
    ∃ front back, rows = front ++ back ∧
      (∀ other ∈ front, cmp other row = .lt) ∧
      ∀ other ∈ back, cmp other row ≠ .lt := by
  induction rows with
  | nil => exact ⟨[], [], rfl, by simp, by simp⟩
  | cons first rows ih =>
      have hrest := (List.pairwise_cons.mp hsorted).2
      have hfirst := (List.pairwise_cons.mp hsorted).1
      by_cases hbefore : cmp first row = .lt
      · rcases ih hrest with ⟨front, back, hrows, hfront, hback⟩
        refine ⟨first :: front, back, by rw [hrows]; rfl, ?_, hback⟩
        intro other hother
        rcases List.mem_cons.mp hother with rfl | hother
        · exact hbefore
        · exact hfront other hother
      · refine ⟨[], first :: rows, rfl, by simp, ?_⟩
        intro other hother hlt
        rcases List.mem_cons.mp hother with rfl | hother
        · exact hbefore hlt
        · exact hbefore (Std.TransCmp.lt_of_isLE_of_lt
            (hfirst other hother) hlt)

theorem Sorted.insert {front back : List α}
    (hsorted : Sorted cmp (front ++ back))
    (hfront : ∀ other ∈ front, cmp other row = .lt)
    (hback : ∀ other ∈ back, cmp other row ≠ .lt) :
    Sorted cmp (front ++ row :: back) := by
  have hparts := List.pairwise_append.mp hsorted
  refine List.pairwise_append.mpr ⟨hparts.1, ?_, ?_⟩
  · refine List.pairwise_cons.mpr ⟨?_, hparts.2.1⟩
    intro other hother
    have hnot := hback other hother
    have hswap : cmp row other = (cmp other row).swap :=
      Std.OrientedCmp.eq_swap
    rw [hswap]
    cases hcmp : cmp other row with
    | lt => exact absurd hcmp hnot
    | eq => rfl
    | gt => rfl
  · intro a ha b hb
    rcases List.mem_cons.mp hb with rfl | hb
    · rw [hfront a ha]
      rfl
    · exact hparts.2.2 a ha b hb

end Transitive

end SortedRows
