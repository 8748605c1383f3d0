import Mathlib.Data.List.Basic
import Mathlib.Data.List.InsertIdx
import Mathlib.Data.List.Perm.Basic

/-!
# Vectors with a removed front

A vector in which an offset says how many elements at the front have been
removed.  An element near the front is removed by moving the elements before
it back by one place and increasing the offset, others are erased.  Whichever
is done, the elements behind the offset are those of a list from which one
element has been erased.
-/

namespace OffsetVector

universe u

variable {Element : Type u}

structure Vector (Element : Type u) where
  elements : List Element
  removedAtFront : ℕ
  bounded : removedAtFront ≤ elements.length

/-- The elements that have not been removed. -/
def Vector.live (vector : Vector Element) : List Element :=
  vector.elements.drop vector.removedAtFront

def empty : Vector Element := ⟨[], 0, Nat.le_refl 0⟩

def ofList (elements : List Element) : Vector Element :=
  ⟨elements, 0, Nat.zero_le _⟩

def Vector.pushBack (vector : Vector Element) (element : Element) :
    Vector Element :=
  ofList (vector.live ++ [element])

def Vector.replaceLive (vector : Vector Element) (others : List Element) :
    Vector Element where
  elements := vector.elements.take vector.removedAtFront ++ others
  removedAtFront := vector.removedAtFront
  bounded := by
    rw [List.length_append, List.length_take_of_le vector.bounded]
    exact Nat.le_add_right _ _

/-- Each of `count` elements from `first` on becomes the one before it, the
last of them first. -/
def shift (first : ℕ) : ℕ → List Element → List Element
  | 0, elements => elements
  | count + 1, elements =>
      match elements[first + count - 1]? with
      | none => shift first count elements
      | some previous =>
          shift first count (elements.set (first + count) previous)

@[simp] theorem length_shift (first count : ℕ) (elements : List Element) :
    (shift first count elements).length = elements.length := by
  induction count generalizing elements with
  | zero => rfl
  | succ count ih =>
      unfold shift
      split
      · exact ih elements
      · rw [ih, List.length_set]

/-- The removal of the element at a place behind the offset.  Up to a
`threshold` the elements before it are moved. -/
def Vector.removeAt (threshold : ℕ) (vector : Vector Element) (index : ℕ)
    (hindex : index < vector.live.length) : Vector Element :=
  if index ≤ threshold then
    { elements := shift (vector.removedAtFront + 1) index vector.elements
      removedAtFront := vector.removedAtFront + 1
      bounded := by
        unfold Vector.live at hindex
        rw [List.length_drop] at hindex
        rw [length_shift]
        omega }
  else
    { elements := vector.elements.eraseIdx (vector.removedAtFront + index)
      removedAtFront := vector.removedAtFront
      bounded := by
        unfold Vector.live at hindex
        rw [List.length_drop] at hindex
        rw [List.length_eraseIdx]
        split <;> omega }

/-! ## What remains -/

variable {vector : Vector Element}

@[simp] theorem live_empty : (empty : Vector Element).live = [] := rfl

@[simp] theorem live_ofList (elements : List Element) :
    (ofList elements).live = elements := rfl

@[simp] theorem live_pushBack (element : Element) :
    (vector.pushBack element).live = vector.live ++ [element] := rfl

@[simp] theorem live_replaceLive (others : List Element) :
    (vector.replaceLive others).live = others := by
  unfold Vector.live Vector.replaceLive
  apply List.drop_left'
  exact List.length_take_of_le vector.bounded

theorem getElem?_shift (first count : ℕ) (hfirst : 0 < first)
    (elements : List Element) (hbound : first + count ≤ elements.length)
    (index : ℕ) :
    (shift first count elements)[index]? =
      if first ≤ index ∧ index < first + count then elements[index - 1]?
      else elements[index]? := by
  induction count generalizing elements with
  | zero =>
      rw [shift, if_neg (by omega)]
  | succ count ih =>
      have hprevious : first + count - 1 < elements.length := by omega
      rw [shift, List.getElem?_eq_getElem hprevious]
      simp only
      rw [ih _ (by rw [List.length_set]; omega)]
      by_cases hlast : index = first + count
      · subst hlast
        have hset : first + count < elements.length := by omega
        rw [if_neg (by omega), if_pos (by omega), List.getElem?_set_self hset,
          List.getElem?_eq_getElem hprevious]
      · rw [List.getElem?_set_ne (Ne.symm hlast)]
        by_cases hmoved : first ≤ index ∧ index < first + count
        · rw [if_pos hmoved, if_pos (by omega),
            List.getElem?_set_ne (by omega)]
        · rw [if_neg hmoved, if_neg (by omega)]

theorem drop_shift (removed count : ℕ) (elements : List Element)
    (hbound : removed + count < elements.length) :
    (shift (removed + 1) count elements).drop (removed + 1) =
      (elements.drop removed).eraseIdx count := by
  apply List.ext_getElem?
  intro index
  rw [List.getElem?_drop, getElem?_shift _ _ (Nat.succ_pos _) _ (by omega),
    List.getElem?_eraseIdx]
  by_cases hbefore : index < count
  · rw [if_pos (by omega), if_pos hbefore, List.getElem?_drop]
    congr 1
    omega
  · rw [if_neg (by omega), if_neg hbefore, List.getElem?_drop]
    congr 1
    omega

theorem drop_eraseIdx (removed index : ℕ) (elements : List Element) :
    (elements.eraseIdx (removed + index)).drop removed =
      (elements.drop removed).eraseIdx index := by
  apply List.ext_getElem?
  intro other
  rw [List.getElem?_drop, List.getElem?_eraseIdx, List.getElem?_eraseIdx,
    List.getElem?_drop, List.getElem?_drop]
  by_cases hbefore : other < index
  · rw [if_pos (by omega), if_pos hbefore]
  · rw [if_neg (by omega), if_neg hbefore, Nat.add_assoc]

@[simp] theorem live_removeAt (threshold index : ℕ)
    (hindex : index < vector.live.length) :
    (vector.removeAt threshold index hindex).live =
      vector.live.eraseIdx index := by
  have hlength := hindex
  unfold Vector.live at hlength
  rw [List.length_drop] at hlength
  unfold Vector.removeAt
  split
  · exact drop_shift _ _ _ (by omega)
  · exact drop_eraseIdx _ _ _

/-! ## Searching from either end -/

variable [DecidableEq Element] {element : Element}

def findIndex (forward : Bool) (element : Element) (live : List Element) :
    Option ℕ :=
  if forward then live.findIdx? fun other => decide (other = element)
  else
    (live.reverse.findIdx? fun other => decide (other = element)).map
      fun index => live.length - 1 - index

theorem findIndex_bound {forward : Bool} {live : List Element} {index : ℕ}
    (hfind : findIndex forward element live = some index) :
    ∃ h : index < live.length, live[index] = element := by
  unfold findIndex at hfind
  split at hfind
  · obtain ⟨h, hfound, _⟩ := List.findIdx?_eq_some_iff_getElem.mp hfind
    exact ⟨h, of_decide_eq_true hfound⟩
  · obtain ⟨back, hback, rfl⟩ := Option.map_eq_some_iff.mp hfind
    obtain ⟨h, hfound, _⟩ := List.findIdx?_eq_some_iff_getElem.mp hback
    rw [List.length_reverse] at h
    have hreverse := of_decide_eq_true hfound
    rw [List.getElem_reverse] at hreverse
    exact ⟨by omega, hreverse⟩

theorem findIndex_isSome (forward : Bool) {live : List Element}
    (hmem : element ∈ live) : (findIndex forward element live).isSome := by
  unfold findIndex
  split
  · rw [List.findIdx?_isSome, List.any_eq_true]
    exact ⟨element, hmem, decide_eq_true rfl⟩
  · rw [Option.isSome_map, List.findIdx?_isSome, List.any_eq_true]
    exact ⟨element, List.mem_reverse.mpr hmem, decide_eq_true rfl⟩

theorem findIndex_eq (forward : Bool) {live : List Element}
    (hnodup : live.Nodup) (hmem : element ∈ live) :
    findIndex forward element live = some (live.idxOf element) := by
  obtain ⟨index, hfind⟩ :=
    Option.isSome_iff_exists.mp (findIndex_isSome forward hmem)
  obtain ⟨h, hget⟩ := findIndex_bound hfind
  have hindex : live.idxOf element = index := by
    rw [← hget]
    exact hnodup.idxOf_getElem index h
  rw [hfind, hindex]

/-- Nothing is found of an element that is not there. -/
def Vector.remove (threshold : ℕ) (forward : Bool) (element : Element)
    (vector : Vector Element) : Option (Vector Element) :=
  match h : findIndex forward element vector.live with
  | none => none
  | some index => some (vector.removeAt threshold index (findIndex_bound h).1)

theorem Vector.remove_of_mem {vector : Vector Element}
    (hnodup : vector.live.Nodup) (hmem : element ∈ vector.live)
    (threshold : ℕ) (forward : Bool) :
    ∃ removed, vector.remove threshold forward element = some removed ∧
      removed.live = vector.live.erase element := by
  have hindex := findIndex_eq forward hnodup hmem
  unfold Vector.remove
  split
  · rename_i hnone
    rw [hindex] at hnone
    exact absurd hnone (Option.some_ne_none _)
  · rename_i index hfind
    rw [hindex] at hfind
    cases hfind
    refine ⟨_, rfl, ?_⟩
    rw [live_removeAt]
    exact (List.erase_eq_eraseIdx_of_idxOf rfl).symm

end OffsetVector
