import Mathlib.Data.List.Basic

/-!
# Paths as stacks of segments

A path is read segment by segment.  A segment can leave the current directory
as it is, lead to its parent, or lead into it; the parent of the root is the
root itself.  The directory is the stack of the segments that lead to it.
-/

namespace SegmentStack

universe u

inductive Kind
  | stay | up | down
  deriving DecidableEq

variable {Segment : Type u} (kind : Segment → Kind)

def enter (directory : List Segment) (segment : Segment) : List Segment :=
  match kind segment with
  | .stay => directory
  | .up => directory.tail
  | .down => segment :: directory

def enterAll (directory segments : List Segment) : List Segment :=
  segments.foldl (enter kind) directory

def resolve (segments : List Segment) : List Segment :=
  (enterAll kind [] segments).reverse

variable {kind} {directory segments : List Segment} {segment : Segment}

@[simp] theorem enterAll_nil : enterAll kind directory [] = directory := rfl

@[simp] theorem enterAll_cons :
    enterAll kind directory (segment :: segments) =
      enterAll kind (enter kind directory segment) segments := rfl

theorem mem_enter {other : Segment}
    (hmem : other ∈ enter kind directory segment) :
    other ∈ directory ∨ other = segment ∧ kind segment = .down := by
  unfold enter at hmem
  cases hkind : kind segment with
  | stay =>
      rw [hkind] at hmem
      exact Or.inl hmem
  | up =>
      rw [hkind] at hmem
      exact Or.inl (List.mem_of_mem_tail hmem)
  | down =>
      rw [hkind] at hmem
      rcases List.mem_cons.mp hmem with heq | hold
      · exact Or.inr ⟨heq, rfl⟩
      · exact Or.inl hold

theorem mem_enterAll {other : Segment}
    (hmem : other ∈ enterAll kind directory segments) :
    other ∈ directory ∨ other ∈ segments ∧ kind other = .down := by
  induction segments generalizing directory with
  | nil => exact Or.inl hmem
  | cons segment segments ih =>
      rcases ih hmem with hentered | ⟨hin, hdown⟩
      · rcases mem_enter hentered with hold | ⟨heq, hdown⟩
        · exact Or.inl hold
        · rw [← heq] at hdown
          exact Or.inr ⟨by simp [heq], hdown⟩
      · exact Or.inr ⟨List.mem_cons_of_mem _ hin, hdown⟩

theorem mem_resolve {other : Segment}
    (hmem : other ∈ resolve kind segments) :
    other ∈ segments ∧ kind other = .down := by
  rcases mem_enterAll (List.mem_reverse.mp hmem) with hnone | hboth
  · cases hnone
  · exact hboth

theorem enterAll_of_down
    (hdown : ∀ segment ∈ segments, kind segment = .down) :
    enterAll kind directory segments = segments.reverse ++ directory := by
  induction segments generalizing directory with
  | nil => rfl
  | cons segment segments ih =>
      have hfirst := hdown segment List.mem_cons_self
      have hrest : ∀ other ∈ segments, kind other = .down := by
        intro other hmem
        exact hdown other (List.mem_cons_of_mem _ hmem)
      rw [enterAll_cons, enter, hfirst, ih hrest]
      simp

end SegmentStack
