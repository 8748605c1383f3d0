import Mathlib.Data.List.Nodup
import Mathlib.Order.Basic

/-!
# Merging two lists row by row

Two lists are merged by a comparison of their heads.  Heads that compare equal
get a row of their own; otherwise the head that comes first stands alone.  The
merge puts matching members on the same row exactly if the lists are cut into
blocks that end with two members comparing equal, and all other members of a
block come before them and match nothing.
-/

namespace AlignedMerge

universe u v w

variable {α : Type u} {β : Type v}

section Align

variable (cmp : α → β → Ordering)

def align : List α → List β → List (Option α × Option β)
  | [], bs => bs.map fun b => (none, some b)
  | as, [] => as.map fun a => (some a, none)
  | a :: as, b :: bs =>
      match cmp a b with
      | .lt => (some a, none) :: align as (b :: bs)
      | .eq => (some a, some b) :: align as bs
      | .gt => (none, some b) :: align (a :: as) bs
  termination_by as bs => as.length + bs.length

variable {cmp} {a : α} {b : β} {as : List α} {bs : List β}

theorem align_nil_left :
    align cmp [] bs = bs.map fun b => (none, some b) := by
  rw [align]

theorem align_nil_right :
    align cmp as [] = as.map fun a => (some a, none) := by
  cases as with
  | nil => simp [align]
  | cons a as => simp [align]

theorem align_lt (hcmp : cmp a b = .lt) :
    align cmp (a :: as) (b :: bs) =
      (some a, none) :: align cmp as (b :: bs) := by
  rw [align, hcmp]

theorem align_eq (hcmp : cmp a b = .eq) :
    align cmp (a :: as) (b :: bs) = (some a, some b) :: align cmp as bs := by
  rw [align, hcmp]

theorem align_gt (hcmp : cmp a b = .gt) :
    align cmp (a :: as) (b :: bs) =
      (none, some b) :: align cmp (a :: as) bs := by
  rw [align, hcmp]

theorem filterMap_fst_align :
    (align cmp as bs).filterMap Prod.fst = as := by
  fun_induction align cmp as bs with
  | case1 bs => simp
  | case2 as => simp
  | case3 a as b bs hcmp ih => simp [ih]
  | case4 a as b bs hcmp ih => simp [ih]
  | case5 a as b bs hcmp ih => simp [ih]

theorem filterMap_snd_align :
    (align cmp as bs).filterMap Prod.snd = bs := by
  fun_induction align cmp as bs with
  | case1 bs => simp
  | case2 as => simp
  | case3 a as b bs hcmp ih => simp [ih]
  | case4 a as b bs hcmp ih => simp [ih]
  | case5 a as b bs hcmp ih => simp [ih]

theorem left_mem_of_align {other : Option β}
    (hrow : (some a, other) ∈ align cmp as bs) : a ∈ as := by
  have hmem : a ∈ (align cmp as bs).filterMap Prod.fst :=
    List.mem_filterMap.mpr ⟨_, hrow, rfl⟩
  rwa [filterMap_fst_align] at hmem

theorem right_mem_of_align {other : Option α}
    (hrow : (other, some b) ∈ align cmp as bs) : b ∈ bs := by
  have hmem : b ∈ (align cmp as bs).filterMap Prod.snd :=
    List.mem_filterMap.mpr ⟨_, hrow, rfl⟩
  rwa [filterMap_snd_align] at hmem

end Align

/-! ## Matching members -/

section Blocks

variable (cmp : α → β → Ordering) (Match : α → β → Prop)

def Paired (as : List α) (bs : List β) : Prop :=
  ∀ a ∈ as, ∀ b ∈ bs, Match a b → (some a, some b) ∈ align cmp as bs

/-- The members `us` and `vs` match nothing and come before `a` and `b`, which
match nothing but one another. -/
structure Block (us : List α) (a : α) (as : List α)
    (vs : List β) (b : β) (bs : List β) : Prop where
  tie : cmp a b = .eq
  left_before : ∀ u ∈ us, cmp u b = .lt
  right_before : ∀ v ∈ vs, cmp a v = .gt
  left_alone : ∀ u ∈ us, ∀ y ∈ vs ++ b :: bs, ¬ Match u y
  right_alone : ∀ v ∈ vs, ∀ x ∈ us ++ a :: as, ¬ Match x v
  left_only : ∀ y ∈ bs, ¬ Match a y
  right_only : ∀ x ∈ as, ¬ Match x b

inductive Aligned : List α → List β → Prop
  | apart {as bs} (halone : ∀ a ∈ as, ∀ b ∈ bs, ¬ Match a b) : Aligned as bs
  | block {us a as vs b bs} (hblock : Block cmp Match us a as vs b bs)
      (hrest : Aligned as bs) : Aligned (us ++ a :: as) (vs ++ b :: bs)

variable {cmp Match} {a : α} {b : β} {as us : List α} {bs vs : List β}

theorem align_before (htie : cmp a b = .eq)
    (hleft : ∀ u ∈ us, cmp u b = .lt) (hright : ∀ v ∈ vs, cmp a v = .gt) :
    ∃ front, align cmp (us ++ a :: as) (vs ++ b :: bs) =
      front ++ (some a, some b) :: align cmp as bs := by
  induction us generalizing vs with
  | nil =>
      induction vs with
      | nil => exact ⟨[], align_eq htie⟩
      | cons v vs ih =>
          have hrest : ∀ v' ∈ vs, cmp a v' = .gt := by
            intro v' hmem
            exact hright v' (List.mem_cons_of_mem v hmem)
          rcases ih hrest with ⟨front, hfront⟩
          refine ⟨(none, some v) :: front, ?_⟩
          have hstep : align cmp (a :: as) (v :: (vs ++ b :: bs)) =
              (none, some v) :: align cmp (a :: as) (vs ++ b :: bs) :=
            align_gt (hright v List.mem_cons_self)
          rw [List.nil_append] at hfront ⊢
          rw [List.cons_append, hstep, hfront, List.cons_append]
  | cons u us ihLeft =>
      have hleftRest : ∀ u' ∈ us, cmp u' b = .lt := by
        intro u' hmem
        exact hleft u' (List.mem_cons_of_mem u hmem)
      induction vs with
      | nil =>
          rcases ihLeft hleftRest hright with ⟨front, hfront⟩
          refine ⟨(some u, none) :: front, ?_⟩
          have hstep : align cmp (u :: (us ++ a :: as)) (b :: bs) =
              (some u, none) :: align cmp (us ++ a :: as) (b :: bs) :=
            align_lt (hleft u List.mem_cons_self)
          rw [List.nil_append] at hfront ⊢
          rw [List.cons_append, hstep, hfront, List.cons_append]
      | cons v vs ihRight =>
          have hrightRest : ∀ v' ∈ vs, cmp a v' = .gt := by
            intro v' hmem
            exact hright v' (List.mem_cons_of_mem v hmem)
          cases hcmp : cmp u v with
          | lt =>
              rcases ihLeft hleftRest hright with ⟨front, hfront⟩
              refine ⟨(some u, none) :: front, ?_⟩
              rw [List.cons_append, List.cons_append, align_lt hcmp,
                ← List.cons_append, hfront, List.cons_append]
          | eq =>
              rcases ihLeft hleftRest hrightRest with ⟨front, hfront⟩
              refine ⟨(some u, some v) :: front, ?_⟩
              rw [List.cons_append, List.cons_append, align_eq hcmp, hfront,
                List.cons_append]
          | gt =>
              rcases ihRight hrightRest with ⟨front, hfront⟩
              refine ⟨(none, some v) :: front, ?_⟩
              rw [List.cons_append, List.cons_append, align_gt hcmp,
                ← List.cons_append, hfront, List.cons_append]

theorem Aligned.paired (haligned : Aligned cmp Match as bs) :
    Paired cmp Match as bs := by
  induction haligned with
  | apart halone =>
      intro a ha b hb hmatch
      exact absurd hmatch (halone a ha b hb)
  | @block us a as vs b bs hblock hrest ih =>
      intro x hx y hy hmatch
      have hreach : ∃ front, align cmp (us ++ a :: as) (vs ++ b :: bs) =
          front ++ (some a, some b) :: align cmp as bs :=
        align_before hblock.tie hblock.left_before hblock.right_before
      rcases hreach with ⟨front, hfront⟩
      rw [hfront]
      have hxRest : x ∈ a :: as := by
        rcases List.mem_append.mp hx with hu | hrest
        · exact absurd hmatch (hblock.left_alone x hu y hy)
        · exact hrest
      have hyRest : y ∈ b :: bs := by
        rcases List.mem_append.mp hy with hv | hrest
        · exact absurd hmatch (hblock.right_alone y hv x hx)
        · exact hrest
      rcases List.mem_cons.mp hxRest with rfl | hxTail
      · rcases List.mem_cons.mp hyRest with rfl | hyTail
        · simp
        · exact absurd hmatch (hblock.left_only y hyTail)
      · rcases List.mem_cons.mp hyRest with rfl | hyTail
        · exact absurd hmatch (hblock.right_only x hxTail)
        · have hrow := ih x hxTail y hyTail hmatch
          exact List.mem_append_right _ (List.mem_cons_of_mem _ hrow)

/-! ## Comparisons that order the members -/

/-- The comparison agrees with an order in which tied members have the same
place. -/
structure Ordered (cmp : α → β → Ordering) (as : List α) (bs : List β) :
    Prop where
  left : ∀ a ∈ as, ∀ b ∈ bs, ∀ a' ∈ as, ∀ b' ∈ bs, cmp a b = .lt →
    cmp a' b = .gt → cmp a' b' = .eq → cmp a b' = .lt
  right : ∀ a ∈ as, ∀ b ∈ bs, ∀ a' ∈ as, ∀ b' ∈ bs, cmp a b = .gt →
    cmp a b' = .lt → cmp a' b' = .eq → cmp a' b = .gt

theorem Ordered.mono {as' : List α} {bs' : List β}
    (hordered : Ordered cmp as bs) (hleft : as' ⊆ as) (hright : bs' ⊆ bs) :
    Ordered cmp as' bs' where
  left a ha b hb a' ha' b' hb' :=
    hordered.left a (hleft ha) b (hright hb) a' (hleft ha') b' (hright hb')
  right a ha b hb a' ha' b' hb' :=
    hordered.right a (hleft ha) b (hright hb) a' (hleft ha') b' (hright hb')

theorem Aligned.cons_left (haligned : Aligned cmp Match as (b :: bs))
    (hordered : Ordered cmp (a :: as) (b :: bs)) (hcmp : cmp a b = .lt)
    (halone : ∀ y ∈ b :: bs, ¬ Match a y) :
    Aligned cmp Match (a :: as) (b :: bs) := by
  generalize hys : b :: bs = ys at haligned
  cases haligned with
  | apart hrest =>
      refine .apart ?_
      intro x hx y hy
      rw [← hys] at hy
      rcases List.mem_cons.mp hx with rfl | hx
      · exact halone y hy
      · exact hrest x hx y (hys ▸ hy)
  | @block us a' as vs b' bs' hblock hrest =>
      have hbefore : cmp a b' = .lt := by
        cases vs with
        | nil =>
            have hhead := (List.cons.inj hys).1
            rwa [← hhead]
        | cons v vs =>
            have hhead := (List.cons.inj hys).1
            have hgt := hblock.right_before v List.mem_cons_self
            rw [← hhead] at hgt
            refine hordered.left a List.mem_cons_self b List.mem_cons_self
              a' (by simp) b' ?_ hcmp hgt hblock.tie
            rw [hys]
            simp
      have hnew : Block cmp Match (a :: us) a' as vs b' bs' := by
        constructor
        · exact hblock.tie
        · intro u hu
          rcases List.mem_cons.mp hu with rfl | hu
          · exact hbefore
          · exact hblock.left_before u hu
        · exact hblock.right_before
        · intro u hu y hy
          rcases List.mem_cons.mp hu with rfl | hu
          · exact halone y (hys ▸ hy)
          · exact hblock.left_alone u hu y hy
        · intro v hv x hx
          rcases List.mem_cons.mp hx with rfl | hx
          · exact halone v (hys ▸ List.mem_append_left _ hv)
          · exact hblock.right_alone v hv x hx
        · exact hblock.left_only
        · exact hblock.right_only
      exact .block hnew hrest

/-! ## Both sides exchanged -/

def exchanged (cmp : α → β → Ordering) (b : β) (a : α) : Ordering :=
  (cmp a b).swap

@[simp] theorem exchanged_eq : exchanged cmp b a = .eq ↔ cmp a b = .eq := by
  unfold exchanged
  cases cmp a b <;> simp

@[simp] theorem exchanged_lt : exchanged cmp b a = .lt ↔ cmp a b = .gt := by
  unfold exchanged
  cases cmp a b <;> simp

@[simp] theorem exchanged_gt : exchanged cmp b a = .gt ↔ cmp a b = .lt := by
  unfold exchanged
  cases cmp a b <;> simp

theorem Block.exchange (hblock : Block cmp Match us a as vs b bs) :
    Block (exchanged cmp) (fun b a => Match a b) vs b bs us a as where
  tie := exchanged_eq.mpr hblock.tie
  left_before v hv := exchanged_lt.mpr (hblock.right_before v hv)
  right_before u hu := exchanged_gt.mpr (hblock.left_before u hu)
  left_alone := hblock.right_alone
  right_alone := hblock.left_alone
  left_only := hblock.right_only
  right_only := hblock.left_only

theorem Aligned.exchange (haligned : Aligned cmp Match as bs) :
    Aligned (exchanged cmp) (fun b a => Match a b) bs as := by
  induction haligned with
  | apart halone =>
      refine .apart ?_
      intro b hb a ha
      exact halone a ha b hb
  | block hblock hrest ih => exact .block hblock.exchange ih

theorem Ordered.exchange (hordered : Ordered cmp as bs) :
    Ordered (exchanged cmp) bs as where
  left b hb a ha b' hb' a' ha' hlt hgt heq :=
    exchanged_lt.mpr <| hordered.right a ha b hb a' ha' b' hb'
      (exchanged_lt.mp hlt) (exchanged_gt.mp hgt) (exchanged_eq.mp heq)
  right b hb a ha b' hb' a' ha' hgt hlt heq :=
    exchanged_gt.mpr <| hordered.left a ha b hb a' ha' b' hb'
      (exchanged_gt.mp hgt) (exchanged_lt.mp hlt) (exchanged_eq.mp heq)

theorem Aligned.cons_right (haligned : Aligned cmp Match (a :: as) bs)
    (hordered : Ordered cmp (a :: as) (b :: bs)) (hcmp : cmp a b = .gt)
    (halone : ∀ x ∈ a :: as, ¬ Match x b) :
    Aligned cmp Match (a :: as) (b :: bs) := by
  have hcons := haligned.exchange.cons_left hordered.exchange
    (exchanged_lt.mpr hcmp) halone
  have hback := hcons.exchange
  have hsame : exchanged (exchanged cmp) = cmp := by
    funext x y
    exact Ordering.swap_swap
  rwa [hsame] at hback

/-! ## The merge puts matching members on one row only in aligned lists -/

theorem Paired.left_only (hpaired : Paired cmp Match (a :: as) (b :: bs))
    (hcmp : cmp a b = .eq) (hleft : (a :: as).Nodup) (hright : (b :: bs).Nodup) :
    ∀ y ∈ bs, ¬ Match a y := by
  intro y hy hmatch
  have hrow := hpaired a List.mem_cons_self y (List.mem_cons_of_mem b hy) hmatch
  rw [align_eq hcmp] at hrow
  rcases List.mem_cons.mp hrow with heq | hrest
  · have hsame : y = b := by simpa using heq
    exact (List.nodup_cons.mp hright).1 (hsame ▸ hy)
  · exact (List.nodup_cons.mp hleft).1 (left_mem_of_align hrest)

theorem Paired.right_only (hpaired : Paired cmp Match (a :: as) (b :: bs))
    (hcmp : cmp a b = .eq) (hleft : (a :: as).Nodup) (hright : (b :: bs).Nodup) :
    ∀ x ∈ as, ¬ Match x b := by
  intro x hx hmatch
  have hrow := hpaired x (List.mem_cons_of_mem a hx) b List.mem_cons_self hmatch
  rw [align_eq hcmp] at hrow
  rcases List.mem_cons.mp hrow with heq | hrest
  · have hsame : x = a := by simpa using heq
    exact (List.nodup_cons.mp hleft).1 (hsame ▸ hx)
  · exact (List.nodup_cons.mp hright).1 (right_mem_of_align hrest)

theorem Paired.left_alone (hpaired : Paired cmp Match (a :: as) (b :: bs))
    (hcmp : cmp a b = .lt) (hleft : (a :: as).Nodup) :
    ∀ y ∈ b :: bs, ¬ Match a y := by
  intro y hy hmatch
  have hrow := hpaired a List.mem_cons_self y hy hmatch
  rw [align_lt hcmp] at hrow
  have hrest : (some a, some y) ∈ align cmp as (b :: bs) := by
    simpa using hrow
  exact (List.nodup_cons.mp hleft).1 (left_mem_of_align hrest)

theorem Paired.right_alone (hpaired : Paired cmp Match (a :: as) (b :: bs))
    (hcmp : cmp a b = .gt) (hright : (b :: bs).Nodup) :
    ∀ x ∈ a :: as, ¬ Match x b := by
  intro x hx hmatch
  have hrow := hpaired x hx b List.mem_cons_self hmatch
  rw [align_gt hcmp] at hrow
  have hrest : (some x, some b) ∈ align cmp (a :: as) bs := by
    simpa using hrow
  exact (List.nodup_cons.mp hright).1 (right_mem_of_align hrest)

theorem Paired.aligned (hpaired : Paired cmp Match as bs)
    (hordered : Ordered cmp as bs) (hleft : as.Nodup) (hright : bs.Nodup) :
    Aligned cmp Match as bs := by
  fun_induction align cmp as bs with
  | case1 bs => exact .apart (by simp)
  | case2 as => exact .apart (by simp)
  | case3 a as b bs hcmp ih =>
      have hrest : Paired cmp Match as (b :: bs) := by
        intro x hx y hy hmatch
        have hrow := hpaired x (List.mem_cons_of_mem a hx) y hy hmatch
        rw [align_lt hcmp] at hrow
        simpa using hrow
      have htail := ih hrest
        (hordered.mono (List.subset_cons_self a as)
          (List.Subset.refl _))
        (List.nodup_cons.mp hleft).2 hright
      exact htail.cons_left hordered hcmp (hpaired.left_alone hcmp hleft)
  | case4 a as b bs hcmp ih =>
      have honlyLeft := hpaired.left_only hcmp hleft hright
      have honlyRight := hpaired.right_only hcmp hleft hright
      have hnew : b ∉ bs := (List.nodup_cons.mp hright).1
      have hrest : Paired cmp Match as bs := by
        intro x hx y hy hmatch
        have hrow := hpaired x (List.mem_cons_of_mem a hx) y
          (List.mem_cons_of_mem b hy) hmatch
        rw [align_eq hcmp] at hrow
        rcases List.mem_cons.mp hrow with heq | htail
        · have hsame : y = b := by
            have hsnd := congrArg Prod.snd heq
            simpa using hsnd
          exact absurd (hsame ▸ hy) hnew
        · exact htail
      have htail := ih hrest
        (hordered.mono (List.subset_cons_self a as)
          (List.subset_cons_self b bs))
        (List.nodup_cons.mp hleft).2 (List.nodup_cons.mp hright).2
      have hblock : Block cmp Match [] a as [] b bs := by
        constructor
        · exact hcmp
        · simp
        · simp
        · simp
        · simp
        · exact honlyLeft
        · exact honlyRight
      exact .block hblock htail
  | case5 a as b bs hcmp ih =>
      have hrest : Paired cmp Match (a :: as) bs := by
        intro x hx y hy hmatch
        have hrow := hpaired x hx y (List.mem_cons_of_mem b hy) hmatch
        rw [align_gt hcmp] at hrow
        simpa using hrow
      have htail := ih hrest
        (hordered.mono (List.Subset.refl _)
          (List.subset_cons_self b bs))
        hleft (List.nodup_cons.mp hright).2
      exact htail.cons_right hordered hcmp (hpaired.right_alone hcmp hright)

end Blocks

/-! ## Lists in the order of the comparison -/

section Sorted

open Std

variable {cmp : α → α → Ordering} [TransCmp cmp]
variable {Match : α → α → Prop} {as bs : List α}

/-- A comparison that is a total preorder orders the members of any lists. -/
theorem ordered_of_transCmp (as bs : List α) : Ordered cmp as bs where
  left _ _ _ _ _ _ _ _ hlt hgt heq :=
    TransCmp.lt_of_lt_of_eq
      (TransCmp.lt_trans hlt (OrientedCmp.lt_of_gt hgt)) heq
  right _ _ _ _ _ _ _ _ hgt hlt heq :=
    OrientedCmp.gt_of_lt (TransCmp.lt_of_lt_of_eq
      (TransCmp.lt_trans (OrientedCmp.lt_of_gt hgt) hlt)
      (OrientedCmp.eq_symm heq))

/-- Strictly sorted lists are aligned if only tied members match. -/
theorem aligned_of_sorted
    (htied : ∀ a ∈ as, ∀ b ∈ bs, Match a b → cmp a b = .eq)
    (hleft : as.Pairwise (cmp · · = .lt))
    (hright : bs.Pairwise (cmp · · = .lt)) : Aligned cmp Match as bs := by
  fun_induction align cmp as bs with
  | case1 bs => exact .apart (by simp)
  | case2 as => exact .apart (by simp)
  | case3 a as b bs hcmp ih =>
      have htail := ih (fun x hx => htied x (List.mem_cons_of_mem a hx))
        (List.pairwise_cons.mp hleft).2 hright
      apply htail.cons_left (ordered_of_transCmp _ _) hcmp
      intro y hy hmatch
      have htie := htied a List.mem_cons_self y hy hmatch
      rcases List.mem_cons.mp hy with rfl | hy
      · simp [hcmp] at htie
      · have hlater := (List.pairwise_cons.mp hright).1 y hy
        simp [TransCmp.lt_trans hcmp hlater] at htie
  | case4 a as b bs hcmp ih =>
      have htail := ih
        (fun x hx y hy => htied x (List.mem_cons_of_mem a hx) y
          (List.mem_cons_of_mem b hy))
        (List.pairwise_cons.mp hleft).2 (List.pairwise_cons.mp hright).2
      have hblock : Block cmp Match [] a as [] b bs := by
        refine ⟨hcmp, by simp, by simp, by simp, by simp, ?_, ?_⟩
        · intro y hy hmatch
          have htie := htied a List.mem_cons_self y
            (List.mem_cons_of_mem b hy) hmatch
          have hlater := (List.pairwise_cons.mp hright).1 y hy
          simp [TransCmp.lt_of_eq_of_lt hcmp hlater] at htie
        · intro x hx hmatch
          have htie := htied x (List.mem_cons_of_mem a hx) b
            List.mem_cons_self hmatch
          have hlater := (List.pairwise_cons.mp hleft).1 x hx
          simp [TransCmp.lt_of_lt_of_eq hlater htie] at hcmp
      exact .block hblock htail
  | case5 a as b bs hcmp ih =>
      have htail := ih
        (fun x hx y hy => htied x hx y (List.mem_cons_of_mem b hy)) hleft
        (List.pairwise_cons.mp hright).2
      apply htail.cons_right (ordered_of_transCmp _ _) hcmp
      intro x hx hmatch
      have htie := htied x hx b List.mem_cons_self hmatch
      rcases List.mem_cons.mp hx with rfl | hx
      · simp [hcmp] at htie
      · have hlater := (List.pairwise_cons.mp hleft).1 x hx
        simp [TransCmp.lt_of_lt_of_eq hlater htie] at hcmp

end Sorted

end AlignedMerge
