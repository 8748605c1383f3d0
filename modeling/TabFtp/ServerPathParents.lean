import TabFtp.ServerPathRoundTrip

/-!
# Parents of a server path

`MakeParent` takes the last segment of a path away, and on MVS makes it a
directory.  The nonempty paths that it leads to are the proper prefixes of the
segments, where a type without a root keeps at least one segment.
`IsSubdirOf` and `GetCommonParent` agree with this description.
-/

namespace TabFtp

namespace ServerPath

variable {path op ancestor : ServerPath} {type : ServerType}
  {data : ServerPathData} {upper lower : List WString}
  {pathPrefix : Option WString}

/-! ## Repeated `MakeParent` -/

def directoryPrefix (type : ServerType) (pathPrefix : Option WString) :
    Option WString :=
  if type = .mvs then some ['.'] else pathPrefix

def Stands (type : ServerType) (segments : List WString) : Prop :=
  (traits type).hasRoot = true ∨ segments ≠ []

@[simp] theorem directoryPrefix_idem (type : ServerType)
    (pathPrefix : Option WString) :
    directoryPrefix type (directoryPrefix type pathPrefix) =
      directoryPrefix type pathPrefix := by
  unfold directoryPrefix
  split_ifs <;> rfl

theorem hasParent_iff :
    hasParent ⟨some data, type⟩ = true ↔
      ∃ upper last, data.segments = upper ++ [last] ∧ Stands type upper := by
  unfold hasParent Stands
  rcases List.eq_nil_or_concat' data.segments with hnil | ⟨upper, last, hlast⟩
  · simp [hnil]
  · have hunique : ∀ other segment,
        upper ++ [last] = other ++ [segment] ↔
          upper = other ∧ last = segment := by
      intro other segment
      simp
    simp only [hlast, hunique]
    cases (traits type).hasRoot with
    | true => simp
    | false => simp [List.length_pos_iff]

theorem makeParent_concat (hstands : Stands type upper) (last : WString) :
    makeParent ⟨some ⟨upper ++ [last], pathPrefix⟩, type⟩ =
      ⟨some ⟨upper, directoryPrefix type pathPrefix⟩, type⟩ := by
  have hparent :
      hasParent ⟨some ⟨upper ++ [last], pathPrefix⟩, type⟩ = true :=
    hasParent_iff.mpr ⟨upper, last, rfl, hstands⟩
  simp [makeParent, hparent, directoryPrefix]

theorem makeParent_of_not_hasParent (hparent : path.hasParent = false) :
    path.makeParent = path.clear := by
  unfold makeParent
  cases path.data with
  | none => rfl
  | some data => simp [hparent]

theorem clear_parents (path : ServerPath) (n : ℕ) :
    makeParent^[n] path.clear = path.clear := by
  induction n with
  | zero => rfl
  | succ n ih =>
      rw [Function.iterate_succ_apply]
      exact ih

theorem iterate_makeParent
    (hstands : Stands type upper) (hlower : lower ≠ []) :
    makeParent^[lower.length] ⟨some ⟨upper ++ lower, pathPrefix⟩, type⟩ =
      ⟨some ⟨upper, directoryPrefix type pathPrefix⟩, type⟩ := by
  induction lower using List.reverseRecOn generalizing pathPrefix with
  | nil => exact absurd rfl hlower
  | append_singleton lower last ih =>
      have hlonger : Stands type (upper ++ lower) := by
        rcases hstands with hroot | hupper
        · exact Or.inl hroot
        · exact Or.inr (by simp [hupper])
      rw [List.length_append, List.length_singleton,
        Function.iterate_succ_apply, ← List.append_assoc,
        makeParent_concat hlonger]
      by_cases hnil : lower = []
      · subst hnil
        simp
      · rw [ih hnil, directoryPrefix_idem]

def IsAbove (ancestor : ServerPath) (type : ServerType)
    (data : ServerPathData) : Prop :=
  ∃ upper lower, data.segments = upper ++ lower ∧ lower ≠ [] ∧
    Stands type upper ∧
    ancestor = ⟨some ⟨upper, directoryPrefix type data.pathPrefix⟩, type⟩

theorem isAbove_of_iterate
    {n : ℕ} (hancestor : ancestor.empty = false)
    (hiterate : ancestor = makeParent^[n + 1] ⟨some data, type⟩) :
    ancestor.IsAbove type data := by
  induction n generalizing data with
  | zero =>
      by_cases hparent : hasParent ⟨some data, type⟩ = true
      · obtain ⟨upper, last, hsegments, hstands⟩ := hasParent_iff.mp hparent
        refine ⟨upper, [last], hsegments, List.cons_ne_nil _ _, hstands, ?_⟩
        obtain ⟨segments, pathPrefix⟩ := data
        simp only at hsegments
        subst hsegments
        rw [hiterate]
        exact makeParent_concat hstands last
      · rw [hiterate, Function.iterate_one, makeParent_of_not_hasParent
          (by simpa using hparent)] at hancestor
        cases hancestor
  | succ n ih =>
      rw [Function.iterate_succ_apply] at hiterate
      by_cases hparent : hasParent ⟨some data, type⟩ = true
      · obtain ⟨middle, last, hsegments, hstands⟩ := hasParent_iff.mp hparent
        obtain ⟨segments, pathPrefix⟩ := data
        simp only at hsegments
        subst hsegments
        rw [makeParent_concat hstands] at hiterate
        obtain ⟨upper, lower, hmiddle, _, hupper, hresult⟩ := ih hiterate
        simp only at hmiddle
        subst hmiddle
        refine ⟨upper, lower ++ [last], by simp, by simp, hupper, ?_⟩
        simpa using hresult
      · rw [hiterate, makeParent_of_not_hasParent (by simpa using hparent),
          clear_parents] at hancestor
        cases hancestor

theorem isAbove_iff :
    ancestor.IsAbove type data ↔
      ancestor.empty = false ∧
        ∃ n, 1 ≤ n ∧ ancestor = makeParent^[n] ⟨some data, type⟩ := by
  constructor
  · rintro ⟨upper, lower, hsegments, hlower, hstands, rfl⟩
    refine ⟨rfl, lower.length, List.length_pos_iff.mpr hlower, ?_⟩
    obtain ⟨segments, pathPrefix⟩ := data
    simp only at hsegments
    subst hsegments
    exact (iterate_makeParent hstands hlower).symm
  · rintro ⟨hancestor, n, hpos, hiterate⟩
    obtain ⟨m, rfl⟩ := Nat.exists_eq_add_of_le' hpos
    exact isAbove_of_iterate hancestor hiterate

/-! ## `IsSubdirOf` -/

theorem segmentsBelow_iff (lefts rights : List WString) :
    segmentsBelow exactName false lefts rights = true ↔
      ∃ lower, lower ≠ [] ∧ lefts = rights ++ lower := by
  induction lefts generalizing rights with
  | nil =>
      cases rights with
      | nil => simp [segmentsBelow]
      | cons right rights => simp [segmentsBelow]
  | cons left lefts ih =>
      cases rights with
      | nil => simp [segmentsBelow]
      | cons right rights =>
          rw [segmentsBelow, Bool.and_eq_true, ih]
          simp only [exactName, beq_iff_eq, List.cons_append, List.cons.injEq]
          constructor
          · rintro ⟨hfirst, lower, hlower, hrest⟩
            exact ⟨lower, hlower, hfirst, hrest⟩
          · rintro ⟨lower, hlower, hfirst, hrest⟩
            exact ⟨hfirst, lower, hlower, hrest⟩

theorem samePrefix_iff (left right : Option WString) :
    samePrefix exactName left right = true ↔ left = right := by
  cases left <;> cases right <;> simp [samePrefix, exactName]

theorem prefixmode_iff (type : ServerType) :
    (traits type).prefixmode = 1 ↔ type = .mvs := by
  cases type <;> simp [traits]

/-- What the parents of a path depend on; the segments can be anything. -/
structure SturdyData (type : ServerType) (data : ServerPathData) : Prop where
  pathPrefix : type = .mvs →
    data.pathPrefix = none ∨ data.pathPrefix = some ['.']
  nonempty : (traits type).hasRoot = false → data.segments ≠ []

def Sturdy (path : ServerPath) : Prop :=
  ∀ data, path.data = some data → SturdyData path.type data

theorem WellFormed.sturdy (hwell : path.WellFormed) : path.Sturdy := by
  intro data hdata
  have hgood := hwell data hdata
  constructor
  · intro hmvs
    have hpathPrefix := hgood.pathPrefix
    rw [hmvs] at hpathPrefix
    rcases hpathPrefix with hdot | ⟨hnone, _⟩
    · exact Or.inr hdot
    · exact Or.inl hnone
  · exact hgood.nonempty

theorem Sturdy.addSegment (hsturdy : path.Sturdy) {segment : WString}
    {below : ServerPath} (hadd : path.addSegment segment = some below) :
    below.Sturdy := by
  intro data hdata
  rcases Option.map_eq_some_iff.mp hadd with ⟨old, hold, rfl⟩
  cases hdata
  have hgood := hsturdy old hold
  constructor
  · exact hgood.pathPrefix
  · intro _
    exact List.append_ne_nil_of_right_ne_nil _ (List.cons_ne_nil _ _)

theorem directoryPrefix_iff
    {type : ServerType} {other : ServerPathData}
    (hgood : SturdyData type other) (pathPrefix : Option WString) :
    other.pathPrefix = directoryPrefix type pathPrefix ↔
      ¬ ((traits type).prefixmode ≠ 1 ∧
          !samePrefix exactName pathPrefix other.pathPrefix) ∧
        ¬ ((traits type).prefixmode = 1 ∧ other.pathPrefix.isNone) := by
  rw [ne_eq, prefixmode_iff]
  unfold directoryPrefix
  by_cases hmvs : type = .mvs
  · subst hmvs
    rcases hgood.pathPrefix rfl with hnone | hdot
    · simp [hnone]
    · simp [hdot]
  · have hsame := samePrefix_iff pathPrefix other.pathPrefix
    simp only [hmvs, if_false, not_false_eq_true, true_and, false_and,
      and_true, Bool.not_eq_true', Bool.not_eq_false]
    rw [hsame]
    exact eq_comm

/-- `IsSubdirOf` compares the segments that are there. -/
theorem isSubdirOf_iff_isAbove (hgood : op.Sturdy) :
    isSubdirOf exactName ⟨some data, type⟩ op false = true ↔
      op.IsAbove type data := by
  obtain ⟨other, otherType⟩ := op
  cases other with
  | none => simp [isSubdirOf, IsAbove]
  | some other =>
      simp only [isSubdirOf]
      constructor
      · intro hbelow
        split_ifs at hbelow with htype hparent hbegins hdirectory
        simp only [ne_eq, not_not] at htype
        subst htype
        obtain ⟨lower, hlower, hsegments⟩ :=
          (segmentsBelow_iff data.segments other.segments).mp hbelow
        have hother := hgood other rfl
        refine ⟨other.segments, lower, hsegments, hlower, ?_, ?_⟩
        · cases hroot : (traits type).hasRoot with
          | true => exact Or.inl hroot
          | false => exact Or.inr (hother.nonempty hroot)
        · rw [← (directoryPrefix_iff hother data.pathPrefix).mpr
            ⟨hbegins, hdirectory⟩]
      · rintro ⟨upper, lower, hsegments, hlower, hstands, hop⟩
        simp only [ServerPath.mk.injEq, Option.some.injEq] at hop
        obtain ⟨rfl, rfl⟩ := hop
        have hparent : hasParent ⟨some data, otherType⟩ = true := by
          obtain ⟨before, last, rfl⟩ :=
            (List.eq_nil_or_concat' lower).resolve_left hlower
          refine hasParent_iff.mpr
            ⟨upper ++ before, last, by rw [hsegments]; simp, ?_⟩
          rcases hstands with hroot | hupper
          · exact Or.inl hroot
          · exact Or.inr (by simp [hupper])
        obtain ⟨hbegins, hdirectory⟩ :=
          (directoryPrefix_iff (hgood _ rfl) data.pathPrefix).mp rfl
        rw [if_neg (by simp), if_neg (by simp [hparent]), if_neg hbegins,
          if_neg hdirectory]
        exact (segmentsBelow_iff _ _).mpr ⟨lower, hlower, hsegments⟩

/-! ## `GetCommonParent` -/

def AncestorOrSelf (ancestor path : ServerPath) : Prop :=
  ancestor.empty = false ∧ ∃ n, ancestor = makeParent^[n] path

theorem ancestorOrSelf_iff :
    AncestorOrSelf ancestor ⟨some data, type⟩ ↔
      ancestor = ⟨some data, type⟩ ∨ ancestor.IsAbove type data := by
  rw [isAbove_iff]
  constructor
  · rintro ⟨hancestor, n, hiterate⟩
    cases n with
    | zero => exact Or.inl hiterate
    | succ n => exact Or.inr ⟨hancestor, n + 1, Nat.le_add_left 1 n, hiterate⟩
  · rintro (rfl | ⟨hancestor, n, _, hiterate⟩)
    · exact ⟨rfl, 0, rfl⟩
    · exact ⟨hancestor, n, hiterate⟩

theorem not_ancestorOrSelf_of_empty (hempty : path.empty = true) :
    ¬ AncestorOrSelf ancestor path := by
  rintro ⟨hancestor, n, rfl⟩
  obtain ⟨data, type⟩ := path
  cases data with
  | none =>
      rw [show (⟨none, type⟩ : ServerPath) =
        (⟨none, type⟩ : ServerPath).clear from rfl, clear_parents] at hancestor
      cases hancestor
  | some data => cases hempty

theorem isAbove_directory
    (hsegments : data.segments = upper ++ lower) (hlower : lower ≠ []) :
    IsAbove ancestor type data ↔
      ∃ above, above <+: data.segments.dropLast ∧ Stands type above ∧
        ancestor = ⟨some ⟨above, directoryPrefix type data.pathPrefix⟩,
          type⟩ := by
  obtain ⟨before, last, rfl⟩ :=
    (List.eq_nil_or_concat' lower).resolve_left hlower
  have hdrop : data.segments.dropLast = upper ++ before := by
    rw [hsegments, ← List.append_assoc, List.dropLast_concat]
  rw [hdrop]
  constructor
  · rintro ⟨above, below, hsplit, hbelow, hstands, hancestor⟩
    refine ⟨above, ?_, hstands, hancestor⟩
    obtain ⟨middle, final, rfl⟩ :=
      (List.eq_nil_or_concat' below).resolve_left hbelow
    rw [hsegments, ← List.append_assoc, ← List.append_assoc] at hsplit
    exact ⟨middle, (List.append_inj_left' hsplit rfl).symm⟩
  · rintro ⟨above, ⟨middle, hmiddle⟩, hstands, hancestor⟩
    refine ⟨above, middle ++ [last], ?_, by simp, hstands, hancestor⟩
    rw [hsegments, ← List.append_assoc, ← hmiddle, List.append_assoc]

theorem directoryPrefix_or
    (hgood : GoodData type data) :
    data.pathPrefix = directoryPrefix type data.pathPrefix ∨
      type = .mvs ∧ data.pathPrefix = none := by
  unfold directoryPrefix
  by_cases hmvs : type = .mvs
  · subst hmvs
    rcases hgood.pathPrefix with hdot | ⟨hnone, _⟩
    · exact Or.inl (by simp [hdot])
    · exact Or.inr ⟨rfl, hnone⟩
  · exact Or.inl (by simp [hmvs])

theorem directorySegments_eq (type : ServerType) (data : ServerPathData) :
    directorySegments type data =
      if type = .mvs ∧ data.pathPrefix.isNone then data.segments.dropLast
      else data.segments := by
  unfold directorySegments
  simp only [prefixmode_iff]

theorem ancestorOrSelf_directory
    (hgood : GoodData type data)
    (hparent : hasParent ⟨some data, type⟩ = true) :
    AncestorOrSelf ancestor ⟨some data, type⟩ ↔
      (∃ above, above <+: directorySegments type data ∧ Stands type above ∧
        ancestor = ⟨some ⟨above, directoryPrefix type data.pathPrefix⟩,
          type⟩) ∨
      ancestor = ⟨some data, type⟩ := by
  obtain ⟨upper, last, hsegments, hstands⟩ := hasParent_iff.mp hparent
  have hself : Stands type data.segments := Or.inr (by simp [hsegments])
  rw [ancestorOrSelf_iff, isAbove_directory hsegments (List.cons_ne_nil _ _)]
  rw [directorySegments_eq]
  rcases directoryPrefix_or hgood with hdirectory | ⟨rfl, hnone⟩
  · have hnot : ¬ (type = .mvs ∧ data.pathPrefix.isNone = true) := by
      rintro ⟨rfl, hnone⟩
      rw [hdirectory] at hnone
      cases hnone
    rw [if_neg hnot]
    constructor
    · rintro (rfl | ⟨above, hbegins, habove, rfl⟩)
      · exact Or.inr rfl
      · exact Or.inl ⟨above, hbegins.trans (List.dropLast_prefix _), habove,
          rfl⟩
    · rintro (⟨above, hbegins, habove, rfl⟩ | rfl)
      · by_cases hwhole : above = data.segments
        · left
          rw [hwhole, ← hdirectory]
        · right
          refine ⟨above, ?_, habove, rfl⟩
          obtain ⟨below, hbelow⟩ := hbegins
          have hne : below ≠ [] := by
            rintro rfl
            exact hwhole (by simpa using hbelow)
          obtain ⟨middle, final, rfl⟩ :=
            (List.eq_nil_or_concat' below).resolve_left hne
          rw [← hbelow, ← List.append_assoc, List.dropLast_concat]
          exact ⟨middle, rfl⟩
      · exact Or.inl rfl
  · rw [if_pos ⟨rfl, by simp [hnone]⟩]
    exact or_comm

theorem ancestorOrSelf_of_not_hasParent
    (hparent : hasParent ⟨some data, type⟩ = false) :
    AncestorOrSelf ancestor ⟨some data, type⟩ ↔
      ancestor = ⟨some data, type⟩ := by
  rw [ancestorOrSelf_iff]
  constructor
  · rintro (hself | ⟨upper, lower, hsegments, hlower, hstands, _⟩)
    · exact hself
    · obtain ⟨before, last, rfl⟩ :=
        (List.eq_nil_or_concat' lower).resolve_left hlower
      have hhas : hasParent ⟨some data, type⟩ = true := by
        refine hasParent_iff.mpr
          ⟨upper ++ before, last, by rw [hsegments]; simp, ?_⟩
        rcases hstands with hroot | hupper
        · exact Or.inl hroot
        · exact Or.inr (by simp [hupper])
      rw [hhas] at hparent
      cases hparent
  · exact Or.inl

theorem prefix_commonSegments_iff (lefts rights segments : List WString) :
    segments <+: commonSegments lefts rights ↔
      segments <+: lefts ∧ segments <+: rights := by
  induction lefts generalizing rights segments with
  | nil =>
      rw [commonSegments]
      · constructor
        · intro hbegins
          rw [List.prefix_nil] at hbegins
          simp [hbegins]
        · rintro ⟨hbegins, _⟩
          exact hbegins
      · simp
  | cons left lefts ih =>
      cases rights with
      | nil =>
          rw [commonSegments]
          · constructor
            · intro hbegins
              rw [List.prefix_nil] at hbegins
              simp [hbegins]
            · rintro ⟨_, hbegins⟩
              exact hbegins
          · simp
      | cons right rights =>
          rw [commonSegments]
          cases segments with
          | nil => simp
          | cons segment segments =>
              by_cases hsame : left = right
              · subst hsame
                simp only [if_true, List.cons_prefix_cons, ih]
                constructor
                · rintro ⟨rfl, hleft, hright⟩
                  exact ⟨⟨rfl, hleft⟩, rfl, hright⟩
                · rintro ⟨⟨rfl, hleft⟩, _, hright⟩
                  exact ⟨rfl, hleft, hright⟩
              · rw [if_neg hsame]
                constructor
                · intro hbegins
                  simp at hbegins
                · rintro ⟨hleft, hright⟩
                  rw [List.cons_prefix_cons] at hleft hright
                  exact absurd (hleft.1.symm.trans hright.1) hsame

theorem directories_common
    (lefts rights : List WString) (pathPrefix : Option WString) :
    (∃ above, above <+: lefts ∧ Stands type above ∧
        ancestor = ⟨some ⟨above, pathPrefix⟩, type⟩) ∧
      (∃ above, above <+: rights ∧ Stands type above ∧
        ancestor = ⟨some ⟨above, pathPrefix⟩, type⟩) ↔
      ∃ above, above <+: commonSegments lefts rights ∧ Stands type above ∧
        ancestor = ⟨some ⟨above, pathPrefix⟩, type⟩ := by
  constructor
  · rintro ⟨⟨above, hleft, hstands, rfl⟩, other, hright, _, hsame⟩
    simp only [ServerPath.mk.injEq, Option.some.injEq,
      ServerPathData.mk.injEq, and_true] at hsame
    subst hsame
    exact ⟨above, (prefix_commonSegments_iff _ _ _).mpr ⟨hleft, hright⟩,
      hstands, rfl⟩
  · rintro ⟨above, hcommon, hstands, rfl⟩
    obtain ⟨hleft, hright⟩ := (prefix_commonSegments_iff _ _ _).mp hcommon
    exact ⟨⟨above, hleft, hstands, rfl⟩, above, hright, hstands, rfl⟩

theorem ancestorOrSelf_of_directory
    (hstands : Stands type upper)
    (hdirectory : pathPrefix = directoryPrefix type pathPrefix) :
    AncestorOrSelf ancestor ⟨some ⟨upper, pathPrefix⟩, type⟩ ↔
      ∃ above, above <+: upper ∧ Stands type above ∧
        ancestor = ⟨some ⟨above, pathPrefix⟩, type⟩ := by
  rw [ancestorOrSelf_iff]
  constructor
  · rintro (rfl | ⟨above, below, hsplit, _, habove, rfl⟩)
    · exact ⟨upper, List.prefix_refl _, hstands, rfl⟩
    · refine ⟨above, ⟨below, hsplit.symm⟩, habove, ?_⟩
      rw [← hdirectory]
  · rintro ⟨above, ⟨below, hbelow⟩, habove, rfl⟩
    by_cases hnil : below = []
    · left
      rw [← hbelow, hnil, List.append_nil]
    · right
      refine ⟨above, below, hbelow.symm, hnil, habove, ?_⟩
      rw [← hdirectory]

theorem AncestorOrSelf.type_eq (habove : AncestorOrSelf ancestor path) :
    ancestor.type = path.type ∧
      (path.type ≠ .mvs → ancestor.data.bind ServerPathData.pathPrefix =
        path.data.bind ServerPathData.pathPrefix) := by
  obtain ⟨data, type⟩ := path
  cases data with
  | none => exact absurd habove (not_ancestorOrSelf_of_empty rfl)
  | some data =>
      rcases ancestorOrSelf_iff.mp habove with
        rfl | ⟨upper, lower, _, _, _, rfl⟩
      · exact ⟨rfl, fun _ => rfl⟩
      · refine ⟨rfl, ?_⟩
        intro hmvs
        simp only at hmvs
        simp [directoryPrefix, hmvs]

theorem blank_not_above (type : ServerType) :
    ¬ AncestorOrSelf ancestor (blank type) :=
  not_ancestorOrSelf_of_empty rfl

theorem common_of_not_hasParent
    (hwell : WellFormed ⟨some data, type⟩)
    (hparent : hasParent ⟨some data, type⟩ = false)
    {other : ServerPathData} {otherType : ServerType}
    (hdiffer : (⟨some data, type⟩ : ServerPath) ≠ ⟨some other, otherType⟩) :
    AncestorOrSelf ancestor
        (if isSubdirOf exactName ⟨some other, otherType⟩ ⟨some data, type⟩
            false = true then
          ⟨some data, type⟩ else blank .default) ↔
      AncestorOrSelf ancestor ⟨some data, type⟩ ∧
        AncestorOrSelf ancestor ⟨some other, otherType⟩ := by
  have honly := @ancestorOrSelf_of_not_hasParent ancestor type data hparent
  have hbelow := @isSubdirOf_iff_isAbove ⟨some data, type⟩ otherType other
    hwell.sturdy
  by_cases hsubdir : isSubdirOf exactName ⟨some other, otherType⟩
      ⟨some data, type⟩ false = true
  · rw [if_pos hsubdir]
    constructor
    · intro habove
      have hself := honly.mp habove
      refine ⟨habove, ?_⟩
      rw [hself]
      exact ancestorOrSelf_iff.mpr (Or.inr (hbelow.mp hsubdir))
    · exact fun hboth => hboth.1
  · rw [if_neg hsubdir]
    constructor
    · intro habove
      exact absurd habove (blank_not_above _)
    · rintro ⟨habove, hother⟩
      rw [honly.mp habove] at hother
      rcases ancestorOrSelf_iff.mp hother with hself | hproper
      · exact absurd hself hdiffer
      · exact absurd (hbelow.mpr hproper) hsubdir

theorem stands_directorySegments
    (hparent : hasParent ⟨some data, type⟩ = true) :
    Stands type (directorySegments type data) := by
  cases hroot : (traits type).hasRoot with
  | true => exact Or.inl hroot
  | false =>
      have hdata : (⟨some data, type⟩ : ServerPath).data = some data := rfl
      have hpos := directorySegments_pos hdata hparent hroot
      exact Or.inr (List.length_pos_iff.mp hpos)

theorem directory_self
    (hstands : Stands type upper)
    (hdata : data = ⟨upper, directoryPrefix type pathPrefix⟩) :
    ∃ above, above <+: directorySegments type data ∧ Stands type above ∧
      (⟨some data, type⟩ : ServerPath) =
        ⟨some ⟨above, directoryPrefix type data.pathPrefix⟩, type⟩ := by
  subst hdata
  refine ⟨upper, ?_, hstands, by simp⟩
  rw [directorySegments_eq, if_neg]
  rintro ⟨rfl, hnone⟩
  cases hnone

theorem common_of_hasParent
    {other : ServerPathData}
    (hgood : GoodData type data) (hother : GoodData type other)
    (hparent : hasParent ⟨some data, type⟩ = true)
    (hotherParent : hasParent ⟨some other, type⟩ = true)
    (hsame : directoryPrefix type data.pathPrefix =
      directoryPrefix type other.pathPrefix)
    (hdiffer : data ≠ other) :
    AncestorOrSelf ancestor ⟨some data, type⟩ ∧
        AncestorOrSelf ancestor ⟨some other, type⟩ ↔
      ∃ above, above <+: commonSegments (directorySegments type data)
          (directorySegments type other) ∧ Stands type above ∧
        ancestor = ⟨some ⟨above, directoryPrefix type data.pathPrefix⟩,
          type⟩ := by
  rw [ancestorOrSelf_directory hgood hparent,
    ancestorOrSelf_directory hother hotherParent, ← hsame,
    ← directories_common]
  constructor
  · rintro ⟨hleft | rfl, hright | hself⟩
    · exact ⟨hleft, hright⟩
    · refine ⟨hleft, ?_⟩
      obtain ⟨above, _, habove, heq⟩ := hleft
      rw [hself] at heq ⊢
      simp only [ServerPath.mk.injEq, Option.some.injEq, and_true] at heq
      rw [hsame]
      exact directory_self habove heq
    · refine ⟨?_, hright⟩
      obtain ⟨above, _, habove, heq⟩ := hright
      simp only [ServerPath.mk.injEq, Option.some.injEq, and_true] at heq
      exact directory_self habove heq
    · simp only [ServerPath.mk.injEq, Option.some.injEq, and_true] at hself
      exact absurd hself hdiffer
  · rintro ⟨hleft, hright⟩
    exact ⟨Or.inl hleft, Or.inl hright⟩

theorem commonPrefix_eq (hdata : path.data = some data)
    (hparent : path.hasParent = true) :
    (if (traits path.type).prefixmode = 1 then
        path.makeParent.data.bind ServerPathData.pathPrefix
      else data.pathPrefix) = directoryPrefix path.type data.pathPrefix := by
  unfold directoryPrefix
  simp only [prefixmode_iff]
  by_cases hmvs : path.type = .mvs
  · rw [if_pos hmvs, if_pos hmvs]
    simp [makeParent, hdata, hparent, hmvs]
  · rw [if_neg hmvs, if_neg hmvs]

theorem not_common_of_differs
    {other : ServerPathData} {otherType : ServerType}
    (hdiffer : type ≠ otherType ∨ (traits type).prefixmode = 0 ∧
      data.pathPrefix ≠ other.pathPrefix) :
    ¬ (AncestorOrSelf ancestor ⟨some data, type⟩ ∧
      AncestorOrSelf ancestor ⟨some other, otherType⟩) := by
  rintro ⟨hleft, hright⟩
  obtain ⟨hleftType, hleftPrefix⟩ := hleft.type_eq
  obtain ⟨hrightType, hrightPrefix⟩ := hright.type_eq
  have htype : type = otherType := hleftType.symm.trans hrightType
  subst htype
  rcases hdiffer with htype | ⟨hmode, hbegins⟩
  · exact htype rfl
  · have hmvs : type ≠ .mvs := by
      rintro rfl
      cases hmode
    apply hbegins
    exact (hleftPrefix hmvs).symm.trans (hrightPrefix hmvs)

theorem directoryPrefix_congr
    {other : ServerPathData}
    (hsame : ¬ ((traits type).prefixmode = 0 ∧
      data.pathPrefix ≠ other.pathPrefix)) :
    directoryPrefix type data.pathPrefix =
      directoryPrefix type other.pathPrefix := by
  unfold directoryPrefix
  by_cases hmvs : type = .mvs
  · rw [if_pos hmvs, if_pos hmvs]
  · have hmode : (traits type).prefixmode = 0 := by
      cases type <;> first | rfl | exact absurd rfl hmvs
    rw [if_neg hmvs, if_neg hmvs]
    by_contra hbegins
    exact hsame ⟨hmode, hbegins⟩

theorem stands_common_iff
    {lefts rights : List WString}
    (hlefts : Stands type lefts) (hrights : Stands type rights) :
    ¬ (segmentsDiffer lefts rights = true ∧
        (!(traits type).hasRoot) = true ∧
        (commonSegments lefts rights).isEmpty = true) ↔
      Stands type (commonSegments lefts rights) := by
  unfold Stands at hlefts hrights ⊢
  cases hroot : (traits type).hasRoot with
  | true => simp
  | false =>
      simp only [hroot, Bool.false_eq_true, false_or] at hlefts hrights ⊢
      have hleft := List.length_pos_iff.mpr hlefts
      have hright := List.length_pos_iff.mpr hrights
      constructor
      · intro hnot
        apply commonSegments_ne_nil hleft hright
        exact fun hboth => hnot ⟨hboth.1, rfl, hboth.2⟩
      · rintro hcommon ⟨_, _, hnil⟩
        exact hcommon (List.isEmpty_iff.mp hnil)

/-- The ancestors of the common parent are the common ancestors. -/
theorem ancestorOrSelf_getCommonParent
    {other : ServerPathData} {otherType : ServerType}
    (hpath : WellFormed ⟨some data, type⟩)
    (hop : WellFormed ⟨some other, otherType⟩) :
    AncestorOrSelf ancestor
        (getCommonParent ⟨some data, type⟩ ⟨some other, otherType⟩) ↔
      AncestorOrSelf ancestor ⟨some data, type⟩ ∧
        AncestorOrSelf ancestor ⟨some other, otherType⟩ := by
  unfold getCommonParent
  by_cases hsame : same ⟨some data, type⟩ ⟨some other, otherType⟩ = true
  · rw [if_pos hsame, (same_iff _ _).mp hsame, and_self_iff]
  · rw [if_neg hsame]
    have hne : (⟨some data, type⟩ : ServerPath) ≠ ⟨some other, otherType⟩ :=
      fun heq => hsame ((same_iff _ _).mpr heq)
    simp only
    by_cases hdiffer : type ≠ otherType ∨ (traits type).prefixmode = 0 ∧
        data.pathPrefix ≠ other.pathPrefix
    · rw [if_pos hdiffer]
      constructor
      · intro habove
        exact absurd habove (blank_not_above _)
      · intro hboth
        exact absurd hboth (not_common_of_differs hdiffer)
    · rw [if_neg hdiffer]
      rw [not_or, ne_eq, not_not] at hdiffer
      obtain ⟨rfl, hbegins⟩ := hdiffer
      by_cases hparent : hasParent ⟨some data, type⟩ = true
      · rw [if_neg (by simp [hparent])]
        by_cases hotherParent : hasParent ⟨some other, type⟩ = true
        · rw [if_neg (by simp [hotherParent])]
          have hlefts := stands_directorySegments hparent
          have hrights := stands_directorySegments hotherParent
          have hcommon := stands_common_iff hlefts hrights
          have hstart := directoryPrefix_congr hbegins
          have hdata : data ≠ other := by
            rintro rfl
            exact hne rfl
          rw [common_of_hasParent (hpath data rfl) (hop other rfl) hparent
            hotherParent hstart hdata]
          have hkept : (⟨some data, type⟩ : ServerPath).data = some data := rfl
          simp only [commonPrefix_eq hkept hparent]
          by_cases hstands : Stands type (commonSegments
              (directorySegments type data) (directorySegments type other))
          · rw [if_neg (hcommon.mpr hstands)]
            exact ancestorOrSelf_of_directory hstands (by simp)
          · rw [if_pos (not_not.mp (mt hcommon.mp hstands))]
            constructor
            · intro habove
              exact absurd habove (blank_not_above _)
            · rintro ⟨above, habove, hroot | hsegments, _⟩
              · exact absurd (Or.inl hroot) hstands
              · apply absurd _ hstands
                right
                rintro hnil
                rw [hnil, List.prefix_nil] at habove
                exact hsegments habove
        · rw [if_pos (by simpa using hotherParent), and_comm]
          exact common_of_not_hasParent hop (by simpa using hotherParent)
            hne.symm
      · rw [if_pos (by simpa using hparent)]
        exact common_of_not_hasParent hpath (by simpa using hparent) hne

theorem iterate_segments_length
    {n : ℕ} {other : ServerPathData}
    (hiterate : (⟨some other, type⟩ : ServerPath) =
      makeParent^[n + 1] ⟨some data, type⟩) :
    other.segments.length < data.segments.length := by
  obtain ⟨upper, lower, hsegments, hlower, _, hother⟩ :=
    isAbove_of_iterate rfl hiterate
  simp only [ServerPath.mk.injEq, Option.some.injEq, and_true] at hother
  subst hother
  change upper.length < data.segments.length
  rw [hsegments, List.length_append]
  have hpos := List.length_pos_iff.mpr hlower
  omega

theorem AncestorOrSelf.antisymm
    (hleft : AncestorOrSelf path op) (hright : AncestorOrSelf op path) :
    path = op := by
  have htype := hleft.type_eq.1
  obtain ⟨data, type⟩ := path
  obtain ⟨other, otherType⟩ := op
  simp only at htype
  subst htype
  obtain ⟨hpath, n, hn⟩ := hleft
  obtain ⟨hop, m, hm⟩ := hright
  cases data with
  | none => cases hpath
  | some data =>
      cases other with
      | none => cases hop
      | some other =>
          cases n with
          | zero => exact hn
          | succ n =>
              cases m with
              | zero => exact hm.symm
              | succ m =>
                  have hless := iterate_segments_length hn
                  have hmore := iterate_segments_length hm
                  omega

theorem getCommonParent_of_empty
    {other : ServerPathData} {otherType : ServerType}
    (hempty : (getCommonParent ⟨some data, type⟩
      ⟨some other, otherType⟩).empty = true) :
    getCommonParent ⟨some data, type⟩ ⟨some other, otherType⟩ =
      blank .default := by
  unfold getCommonParent at hempty ⊢
  simp only at hempty ⊢
  split_ifs at hempty ⊢ <;> first | rfl | cases hempty

end ServerPath

open ServerPath

/-- A path is below another exactly if repeated `GetParent` leads from it to
the other. -/
theorem subdir_iff_parent
    {start : ServerType} (path : ServerPath) {op : ServerPath}
    (hop : Reachable start op) :
    path.isSubdirOf exactName op false = true ↔
      op.empty = false ∧ ∃ n, 1 ≤ n ∧ op = makeParent^[n] path := by
  obtain ⟨data, type⟩ := path
  cases data with
  | none =>
      have hclear := clear_parents (⟨none, type⟩ : ServerPath)
      constructor
      · intro hbelow
        simp [isSubdirOf] at hbelow
      · rintro ⟨hempty, n, _, rfl⟩
        rw [show (⟨none, type⟩ : ServerPath) =
          (⟨none, type⟩ : ServerPath).clear from rfl, hclear n] at hempty
        cases hempty
  | some data =>
      rw [isSubdirOf_iff_isAbove hop.wellFormed.sturdy, isAbove_iff]

/-- A dataset on MVS is below its directory, which has a dot at its end. -/
theorem subdir_iff_parent_mvs :
    isSubdirOf exactName ((blank .mvs).setPath "'A.B.C'".toList).1
        ((blank .mvs).setPath "'A.'".toList).1 false = true ∧
      ∃ n, 1 ≤ n ∧ ((blank .mvs).setPath "'A.'".toList).1 =
        makeParent^[n] ((blank .mvs).setPath "'A.B.C'".toList).1 := by
  have hbelow : isSubdirOf exactName
      ((blank .mvs).setPath "'A.B.C'".toList).1
      ((blank .mvs).setPath "'A.'".toList).1 false = true := by decide
  have hparent := (subdir_iff_parent _
    (Reachable.setPath "'A.'".toList (@Reachable.empty .mvs))).mp hbelow
  exact ⟨hbelow, hparent.2⟩

/-- The common parent of two paths is their greatest common ancestor, and does
not depend on their order. -/
theorem common_parent_greatest
    {start otherStart : ServerType} {path op : ServerPath}
    (hpath : Reachable start path) (hop : Reachable otherStart op)
    (hnonempty : path.empty = false) (hopNonempty : op.empty = false) :
    ((path.getCommonParent op).empty = true ↔
        ¬ ∃ ancestor, AncestorOrSelf ancestor path ∧
          AncestorOrSelf ancestor op) ∧
      ((path.getCommonParent op).empty = false →
        AncestorOrSelf (path.getCommonParent op) path ∧
          AncestorOrSelf (path.getCommonParent op) op ∧
          ∀ ancestor, AncestorOrSelf ancestor path →
            AncestorOrSelf ancestor op →
            AncestorOrSelf ancestor (path.getCommonParent op)) ∧
      path.getCommonParent op = op.getCommonParent path := by
  have hwell := hpath.wellFormed
  have hopWell := hop.wellFormed
  obtain ⟨data, type⟩ := path
  obtain ⟨other, otherType⟩ := op
  cases data with
  | none => cases hnonempty
  | some data =>
      cases other with
      | none => cases hopNonempty
      | some other =>
          have hcommon := fun ancestor =>
            @ancestorOrSelf_getCommonParent ancestor type data other otherType
              hwell hopWell
          have hswapped := fun ancestor =>
            @ancestorOrSelf_getCommonParent ancestor otherType other data type
              hopWell hwell
          refine ⟨?_, ?_, ?_⟩
          · constructor
            · rintro hempty ⟨ancestor, hboth⟩
              exact not_ancestorOrSelf_of_empty hempty
                ((hcommon ancestor).mpr hboth)
            · intro hnone
              by_contra hnot
              rw [Bool.not_eq_true] at hnot
              exact hnone ⟨_, (hcommon _).mp ⟨hnot, 0, rfl⟩⟩
          · intro hsome
            obtain ⟨hleft, hright⟩ := (hcommon _).mp ⟨hsome, 0, rfl⟩
            exact ⟨hleft, hright, fun ancestor habove hother =>
              (hcommon ancestor).mpr ⟨habove, hother⟩⟩
          · by_cases hempty : (getCommonParent ⟨some data, type⟩
                ⟨some other, otherType⟩).empty = true
            · rw [getCommonParent_of_empty hempty, getCommonParent_of_empty]
              by_contra hnot
              rw [Bool.not_eq_true] at hnot
              have hboth := ((hswapped _).mp ⟨hnot, 0, rfl⟩).symm
              exact not_ancestorOrSelf_of_empty hempty ((hcommon _).mpr hboth)
            · rw [Bool.not_eq_true] at hempty
              have hboth := ((hcommon _).mp ⟨hempty, 0, rfl⟩).symm
              have habove := (hswapped _).mpr hboth
              have hback := ((hswapped _).mp
                ⟨?_, 0, rfl⟩).symm
              · exact habove.antisymm ((hcommon _).mpr hback)
              · by_contra hnot
                rw [Bool.not_eq_false] at hnot
                exact not_ancestorOrSelf_of_empty hnot habove

/-- A dataset on MVS and the directory above it. -/
theorem common_parent_greatest_mvs :
    let dataset := ((blank .mvs).setPath "'A.B.C'".toList).1
    let directory := ((blank .mvs).setPath "'A.B.'".toList).1
    dataset.getCommonParent directory = directory ∧
      AncestorOrSelf directory dataset ∧
      directory.getCommonParent dataset = directory := by
  intro dataset directory
  have hcommon : dataset.getCommonParent directory = directory := by
    decide
  obtain ⟨_, hgreatest, hswapped⟩ := common_parent_greatest
    (Reachable.setPath "'A.B.C'".toList (@Reachable.empty .mvs))
    (Reachable.setPath "'A.B.'".toList (@Reachable.empty .mvs))
    (by decide) (by decide)
  rw [show ((blank .mvs).setPath "'A.B.C'".toList).1.getCommonParent
    ((blank .mvs).setPath "'A.B.'".toList).1 = directory from hcommon]
    at hgreatest hswapped
  exact ⟨hcommon, (hgreatest (by decide)).1, hswapped.symm⟩

end TabFtp
