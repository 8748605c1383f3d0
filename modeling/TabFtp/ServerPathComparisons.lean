import TabFtp.ServerPathOrder
import TabFtp.ServerOrder

/-!
# The comparisons of server paths

`compare_case` and `compare_nocase` differ in how they compare the prefixes
only.  The segments are compared with their case in both, whereas
`equal_nocase` ignores it.
-/

namespace TabFtp

/-- `std::wstring::compare` -/
def compareStrings : WString → WString → Ordering :=
  List.compareLex compare

namespace ServerPath

def compareOptional {α : Type} (cmp : α → α → Ordering) :
    Option α → Option α → Ordering
  | none, none => .eq
  | none, some _ => .lt
  | some _, none => .gt
  | some left, some right => cmp left right

/-- The body that `compare_case` and `compare_nocase` share. -/
def comparePaths (comparePrefix : WString → WString → Ordering)
    (path op : ServerPath) : Ordering :=
  match path.data, op.data with
  | none, none => .eq
  | none, some _ => .lt
  | some _, none => .gt
  | some ld, some rd =>
      (compare path.type.number op.type.number).then
        ((compareOptional comparePrefix ld.pathPrefix rd.pathPrefix).then
          (List.compareLex compareStrings ld.segments rd.segments))

def compareCase : ServerPath → ServerPath → Ordering :=
  comparePaths compareStrings

/-- `stricmp` belongs to another library. -/
def compareNocase (stricmp : WString → WString → Ordering) :
    ServerPath → ServerPath → Ordering :=
  comparePaths stricmp

/-- What `equal_nocase` takes for the same name. -/
def sameNocase (stricmp : WString → WString → Ordering)
    (left right : WString) : Bool :=
  stricmp left right == .eq

/-! ## Comparisons are orders -/

section Orders

variable {α : Type} {cmp : α → α → Ordering}

instance [Std.OrientedCmp cmp] : Std.OrientedCmp (compareOptional cmp) where
  eq_swap := by
    intro left right
    cases left <;> cases right <;>
      first | rfl | exact @Std.OrientedCmp.eq_swap _ cmp _ _ _

instance [Std.TransCmp cmp] : Std.TransCmp (compareOptional cmp) where
  isLE_trans := by
    intro first second third hleft hright
    cases first <;> cases second <;> cases third <;>
      first
        | rfl
        | exact absurd hleft Bool.false_ne_true
        | exact absurd hright Bool.false_ne_true
        | exact @Std.TransCmp.isLE_trans _ cmp _ _ _ _ hleft hright

end Orders

instance : Std.TransCmp compareStrings :=
  inferInstanceAs (Std.TransCmp (List.compareLex compare))

instance : Std.LawfulEqCmp compareStrings :=
  inferInstanceAs (Std.LawfulEqCmp (List.compareLex compare))

def comparedPart (path : ServerPath) : Option (ServerType × ServerPathData) :=
  path.data.map fun data => (path.type, data)

def compareParts (comparePrefix : WString → WString → Ordering) :
    ServerType × ServerPathData → ServerType × ServerPathData → Ordering :=
  compareLex (fun left right => compare left.1.number right.1.number)
    (compareLex
      (fun left right =>
        compareOptional comparePrefix left.2.pathPrefix right.2.pathPrefix)
      (fun left right =>
        List.compareLex compareStrings left.2.segments right.2.segments))

variable {comparePrefix : WString → WString → Ordering}

theorem comparePaths_eq (path op : ServerPath) :
    comparePaths comparePrefix path op =
      compareOptional (compareParts comparePrefix) path.comparedPart
        op.comparedPart := by
  rcases path with ⟨data, type⟩
  rcases op with ⟨opData, opType⟩
  cases data <;> cases opData <;> rfl

section Transport

variable {α β : Type} {cmp : β → β → Ordering}

theorem orientedCmp_on [Std.OrientedCmp cmp] (f : α → β) :
    Std.OrientedCmp fun left right => cmp (f left) (f right) where
  eq_swap := Std.OrientedCmp.eq_swap

theorem transCmp_on [Std.TransCmp cmp] (f : α → β) :
    Std.TransCmp fun left right => cmp (f left) (f right) where
  toOrientedCmp := orientedCmp_on f
  isLE_trans := Std.TransCmp.isLE_trans

end Transport

theorem compareParts_transCmp (hcomparison : Std.TransCmp comparePrefix) :
    Std.TransCmp (compareParts comparePrefix) := by
  have htype : Std.TransCmp
      fun left right : ServerType × ServerPathData =>
        compare left.1.number right.1.number :=
    transCmp_on fun part : ServerType × ServerPathData => part.1.number
  have hpathPrefix : Std.TransCmp
      fun left right : ServerType × ServerPathData =>
        compareOptional comparePrefix left.2.pathPrefix right.2.pathPrefix :=
    transCmp_on fun part : ServerType × ServerPathData => part.2.pathPrefix
  have hsegments : Std.TransCmp
      fun left right : ServerType × ServerPathData =>
        List.compareLex compareStrings left.2.segments right.2.segments :=
    transCmp_on fun part : ServerType × ServerPathData => part.2.segments
  unfold compareParts
  infer_instance

theorem comparePaths_transCmp (hcomparison : Std.TransCmp comparePrefix) :
    Std.TransCmp (comparePaths comparePrefix) := by
  have hparts := compareParts_transCmp hcomparison
  have hpaths : Std.TransCmp fun path op : ServerPath =>
      compareOptional (compareParts comparePrefix) path.comparedPart
        op.comparedPart :=
    transCmp_on comparedPart
  have heq : comparePaths comparePrefix = fun path op : ServerPath =>
      compareOptional (compareParts comparePrefix) path.comparedPart
        op.comparedPart := by
    funext path op
    exact comparePaths_eq path op
  rw [heq]
  exact hpaths

/-! ## Paths that are equal -/

theorem compareOptional_eq_iff (left right : Option WString) :
    compareOptional comparePrefix left right = .eq ↔
      samePrefix (sameNocase comparePrefix) left right = true := by
  cases left <;> cases right <;>
    simp [compareOptional, samePrefix, sameNocase]

theorem sameNocase_compareStrings :
    sameNocase compareStrings = fun left right => decide (left = right) := by
  funext left right
  unfold sameNocase
  rw [Bool.eq_iff_iff]
  simp [Std.LawfulEqCmp.compare_eq_iff_eq]

theorem samePrefix_decide (left right : Option WString) :
    samePrefix (fun left right => decide (left = right)) left right = true ↔
      left = right := by
  cases left <;> cases right <;> simp [samePrefix]

theorem comparePaths_data_eq_iff (ld rd : ServerPathData)
    (type opType : ServerType) :
    comparePaths comparePrefix ⟨some ld, type⟩ ⟨some rd, opType⟩ = .eq ↔
      type = opType ∧
        samePrefix (sameNocase comparePrefix) ld.pathPrefix rd.pathPrefix =
          true ∧
        ld.segments = rd.segments := by
  unfold comparePaths
  dsimp only
  rw [Ordering.then_eq_eq, Ordering.then_eq_eq, compareOptional_eq_iff,
    Std.LawfulEqCmp.compare_eq_iff_eq, Std.LawfulEqCmp.compare_eq_iff_eq,
    ServerType.number_injective.eq_iff]

theorem segmentsEqual_iff (sameName : WString → WString → Bool)
    (lefts rights : List WString) (hlength : lefts.length = rights.length) :
    segmentsEqual sameName lefts rights = true ↔
      List.Forall₂ (fun left right => sameName left right = true) lefts
        rights := by
  induction lefts generalizing rights with
  | nil =>
      cases rights with
      | nil => simp [segmentsEqual]
      | cons right rights => simp at hlength
  | cons left lefts ih =>
      cases rights with
      | nil => simp at hlength
      | cons right rights =>
          have htail : lefts.length = rights.length := by
            simpa using hlength
          rw [segmentsEqual, Bool.and_eq_true, ih rights htail,
            List.forall₂_cons]

theorem equalNocase_data_iff (sameName : WString → WString → Bool)
    (ld rd : ServerPathData) (type opType : ServerType) :
    equalNocase sameName ⟨some ld, type⟩ ⟨some rd, opType⟩ = true ↔
      type = opType ∧
        samePrefix sameName ld.pathPrefix rd.pathPrefix = true ∧
        List.Forall₂ (fun left right => sameName left right = true)
          ld.segments rd.segments := by
  unfold equalNocase
  dsimp only
  by_cases htype : type = opType
  · rw [if_neg (not_not_intro htype)]
    by_cases hlength : ld.segments.length = rd.segments.length
    · rw [if_neg (not_not_intro hlength), ← segmentsEqual_iff _ _ _ hlength]
      by_cases hsame :
          samePrefix sameName ld.pathPrefix rd.pathPrefix = true
      · simp [htype, hsame]
      · simp [hsame]
    · rw [if_pos hlength]
      constructor
      · intro hfalse
        cases hfalse
      · intro hequal
        exact absurd hequal.2.2.length_eq hlength
  · rw [if_pos htype]
    simp [htype]

/-- No segment has a NUL. -/
def WithoutNul (path : ServerPath) : Prop :=
  ∀ data, path.data = some data →
    ∀ segment ∈ data.segments, '\x00' ∉ segment

theorem cString_of_not_mem {text : WString} (hnul : '\x00' ∉ text) :
    WString.cString text = text := by
  unfold WString.cString
  rw [List.takeWhile_eq_self_iff]
  intro char hmem
  have hne : char ≠ '\x00' := by
    intro heq
    rw [heq] at hmem
    exact hnul hmem
  simpa using hne

theorem map_cString {segments : List WString}
    (hnul : ∀ segment ∈ segments, '\x00' ∉ segment) :
    segments.map WString.cString = segments := by
  have hsame : segments.map WString.cString = segments.map id := by
    apply List.map_congr_left
    intro segment hmem
    exact cString_of_not_mem (hnul segment hmem)
  rw [hsame, List.map_id]

theorem prefixKey_injective : Function.Injective prefixKey := by
  intro left right heq
  cases left with
  | none =>
      cases right with
      | none => rfl
      | some right => exact absurd heq (WithBot.bot_ne_coe)
  | some left =>
      cases right with
      | none => exact absurd heq (WithBot.coe_ne_bot)
      | some right => exact congrArg some (WithBot.coe_injective heq)

theorem dataKey_eq_iff {type opType : ServerType} {ld rd : ServerPathData}
    (hleft : ∀ segment ∈ ld.segments, '\x00' ∉ segment)
    (hright : ∀ segment ∈ rd.segments, '\x00' ∉ segment) :
    dataKey type ld = dataKey opType rd ↔ type = opType ∧ ld = rd := by
  unfold dataKey
  rw [map_cString hleft, map_cString hright]
  simp only [EmbeddingLike.apply_eq_iff_eq, Prod.mk.injEq,
    prefixKey_injective.eq_iff, ServerType.number_injective.eq_iff]
  rcases ld with ⟨segments, pathPrefix⟩
  rcases rd with ⟨opSegments, opPrefix⟩
  simp only [ServerPathData.mk.injEq]
  tauto

theorem same_data_iff (ld rd : ServerPathData) (type opType : ServerType) :
    same ⟨some ld, type⟩ ⟨some rd, opType⟩ = true ↔
      type = opType ∧ ld = rd := by
  simp [same, empty]

/-! ## What the comparisons agree on -/

/-- The comparisons are orders on these paths, and each is zero, or undecided,
exactly for paths that its equality takes for equal. -/
structure ComparisonsAgree (stricmp : WString → WString → Ordering)
    (paths : Set ServerPath) : Prop where
  less_irrefl : ∀ path ∈ paths, path.less path = false
  less_trans : ∀ first ∈ paths, ∀ second ∈ paths, ∀ third ∈ paths,
    first.less second = true → second.less third = true →
      first.less third = true
  less_total : ∀ path ∈ paths, ∀ op ∈ paths, path.same op = false →
    path.less op = true ∨ op.less path = true
  incomparable_iff : ∀ path ∈ paths, ∀ op ∈ paths,
    (path.less op = false ∧ op.less path = false) ↔ path.same op = true
  case_antisymm : ∀ path ∈ paths, ∀ op ∈ paths,
    path.compareCase op = (op.compareCase path).swap
  case_trans : ∀ first ∈ paths, ∀ second ∈ paths, ∀ third ∈ paths,
    (first.compareCase second).isLE = true →
      (second.compareCase third).isLE = true →
        (first.compareCase third).isLE = true
  case_eq_iff : ∀ path ∈ paths, ∀ op ∈ paths,
    path.compareCase op = .eq ↔ path.same op = true
  nocase_antisymm : ∀ path ∈ paths, ∀ op ∈ paths,
    compareNocase stricmp path op = (compareNocase stricmp op path).swap
  nocase_trans : ∀ first ∈ paths, ∀ second ∈ paths, ∀ third ∈ paths,
    (compareNocase stricmp first second).isLE = true →
      (compareNocase stricmp second third).isLE = true →
        (compareNocase stricmp first third).isLE = true
  nocase_eq_iff : ∀ path ∈ paths, ∀ op ∈ paths,
    compareNocase stricmp path op = .eq ↔
      equalNocase (sameNocase stricmp) path op = true

/-- Two empty paths have the same type, and segments that are the same but
for their case are the same. -/
structure Unambiguous (stricmp : WString → WString → Ordering)
    (path op : ServerPath) : Prop where
  emptyTypes : path.data = none → op.data = none → path.type = op.type
  segments : ∀ ld rd, path.data = some ld → op.data = some rd →
    path.type = op.type →
    samePrefix (sameNocase stricmp) ld.pathPrefix rd.pathPrefix = true →
    List.Forall₂ (fun left right => sameNocase stricmp left right = true)
      ld.segments rd.segments →
    ld.segments = rd.segments

variable {stricmp : WString → WString → Ordering} {path op : ServerPath}

/-- Paths are the same to `operator<` if their keys are. -/
theorem incomparable_iff_orderKey :
    (path.less op = false ∧ op.less path = false) ↔
      path.orderKey = op.orderKey := by
  rw [← Bool.not_eq_true, ← Bool.not_eq_true, less_iff, less_iff]
  constructor
  · intro hnot
    exact le_antisymm (not_lt.mp hnot.2) (not_lt.mp hnot.1)
  · intro heq
    rw [heq]
    exact ⟨lt_irrefl _, lt_irrefl _⟩

theorem orderKey_eq_iff (hpath : path.WithoutNul) (hop : op.WithoutNul)
    (hempty : path.data = none → op.data = none → path.type = op.type) :
    path.orderKey = op.orderKey ↔ path.same op = true := by
  rcases path with ⟨data, type⟩
  rcases op with ⟨opData, opType⟩
  cases data with
  | none =>
      cases opData with
      | none =>
          have htype : type = opType := hempty rfl rfl
          exact iff_of_true rfl (by simp [same, empty, htype])
      | some rd =>
          exact iff_of_false WithBot.bot_ne_coe (by simp [same, empty])
  | some ld =>
      cases opData with
      | none => exact iff_of_false WithBot.coe_ne_bot (by simp [same, empty])
      | some rd =>
          rw [same_data_iff,
            ← dataKey_eq_iff (hpath ld rfl) (hop rd rfl)]
          exact WithBot.coe_injective.eq_iff

theorem compareCase_eq_iff
    (hempty : path.data = none → op.data = none → path.type = op.type) :
    path.compareCase op = .eq ↔ path.same op = true := by
  rcases path with ⟨data, type⟩
  rcases op with ⟨opData, opType⟩
  cases data with
  | none =>
      cases opData with
      | none =>
          have htype : type = opType := hempty rfl rfl
          exact iff_of_true rfl (by simp [same, empty, htype])
      | some rd => simp [compareCase, comparePaths, same, empty]
  | some ld =>
      cases opData with
      | none => simp [compareCase, comparePaths, same, empty]
      | some rd =>
          unfold compareCase
          rw [comparePaths_data_eq_iff, same_data_iff,
            sameNocase_compareStrings, samePrefix_decide]
          rcases ld with ⟨segments, pathPrefix⟩
          rcases rd with ⟨opSegments, opPrefix⟩
          rw [ServerPathData.mk.injEq]
          tauto

/-- The two agree unless segments differ in case only. -/
theorem compareNocase_eq_iff (hstricmp : Std.TransCmp stricmp)
    (hsegments : ∀ ld rd, path.data = some ld → op.data = some rd →
      path.type = op.type →
      samePrefix (sameNocase stricmp) ld.pathPrefix rd.pathPrefix = true →
      List.Forall₂ (fun left right => sameNocase stricmp left right = true)
        ld.segments rd.segments →
      ld.segments = rd.segments) :
    compareNocase stricmp path op = .eq ↔
      equalNocase (sameNocase stricmp) path op = true := by
  rcases path with ⟨data, type⟩
  rcases op with ⟨opData, opType⟩
  cases data with
  | none =>
      cases opData with
      | none => exact iff_of_true rfl rfl
      | some rd => simp [compareNocase, comparePaths, equalNocase]
  | some ld =>
      cases opData with
      | none => simp [compareNocase, comparePaths, equalNocase]
      | some rd =>
          unfold compareNocase
          rw [comparePaths_data_eq_iff, equalNocase_data_iff]
          constructor
          · intro heq
            rw [heq.2.2]
            refine ⟨heq.1, heq.2.1, List.forall₂_same.mpr ?_⟩
            intro segment _
            unfold sameNocase
            rw [beq_iff_eq]
            exact Std.ReflCmp.compare_self
          · intro hequal
            exact ⟨hequal.1, hequal.2.1,
              hsegments ld rd rfl rfl hequal.1 hequal.2.1 hequal.2.2⟩

/-- Exactly which paths the comparisons agree on. -/
theorem comparisonsAgree_iff (stricmp : WString → WString → Ordering)
    (hstricmp : Std.TransCmp stricmp) (paths : Set ServerPath)
    (hnul : ∀ path ∈ paths, path.WithoutNul) :
    ComparisonsAgree stricmp paths ↔
      ∀ path ∈ paths, ∀ op ∈ paths, Unambiguous stricmp path op := by
  constructor
  · intro hagree path hpath op hop
    constructor
    · intro hempty hopEmpty
      have heq : path.compareCase op = .eq := by
        unfold compareCase comparePaths
        rw [hempty, hopEmpty]
      have hsame := (hagree.case_eq_iff path hpath op hop).mp heq
      unfold same at hsame
      rw [Bool.and_eq_true, Bool.and_eq_true] at hsame
      exact beq_iff_eq.mp hsame.1.2
    · intro ld rd hld hrd htype hpathPrefix hsegments
      rcases path with ⟨data, type⟩
      rcases op with ⟨opData, opType⟩
      cases hld
      cases hrd
      have hequal := (equalNocase_data_iff (sameNocase stricmp) ld rd type
        opType).mpr ⟨htype, hpathPrefix, hsegments⟩
      have heq := (hagree.nocase_eq_iff _ hpath _ hop).mpr hequal
      exact (comparePaths_data_eq_iff ld rd type opType).mp heq |>.2.2
  · intro hunambiguous
    have hcase : Std.TransCmp compareCase := comparePaths_transCmp
      inferInstance
    have hnocase : Std.TransCmp (compareNocase stricmp) :=
      comparePaths_transCmp hstricmp
    have hincomparable : ∀ path ∈ paths, ∀ op ∈ paths,
        (path.less op = false ∧ op.less path = false) ↔
          path.same op = true := by
      intro path hpath op hop
      rw [incomparable_iff_orderKey]
      exact orderKey_eq_iff (hnul path hpath) (hnul op hop)
        (hunambiguous path hpath op hop).emptyTypes
    constructor
    · intro path _
      exact less_strictWeak.irrefl path
    · intro first _ second _ third _ hleft hright
      exact less_strictWeak.trans hleft hright
    · intro path hpath op hop hdifferent
      by_contra hnot
      rw [not_or, Bool.not_eq_true, Bool.not_eq_true,
        hincomparable path hpath op hop, hdifferent] at hnot
      cases hnot
    · exact hincomparable
    · intro path _ op _
      exact Std.OrientedCmp.eq_swap
    · intro first _ second _ third _
      exact Std.TransCmp.isLE_trans
    · intro path hpath op hop
      exact compareCase_eq_iff (hunambiguous path hpath op hop).emptyTypes
    · intro path _ op _
      exact Std.OrientedCmp.eq_swap
    · intro first _ second _ third _
      exact Std.TransCmp.isLE_trans
    · intro path hpath op hop
      exact compareNocase_eq_iff hstricmp
        (hunambiguous path hpath op hop).segments

/-- Case-insensitive comparison of ASCII text. -/
def asciiStricmp (left right : WString) : Ordering :=
  compareStrings (left.map Char.toLower) (right.map Char.toLower)

def unixPath (segments : List WString) : ServerPath :=
  ⟨some ⟨segments, none⟩, .unix⟩

/-- Two directories with different names. -/
theorem comparisonsAgree_pub_src :
    ComparisonsAgree asciiStricmp
      {unixPath ["pub".toList], unixPath ["src".toList]} := by
  have hstricmp : Std.TransCmp asciiStricmp :=
    transCmp_on (List.map Char.toLower)
  refine (comparisonsAgree_iff asciiStricmp hstricmp _ ?_).mpr ?_
  · intro path hpath data hdata segment hsegment
    rcases hpath with rfl | rfl
    · cases hdata
      rw [List.mem_singleton.mp hsegment]
      decide
    · cases hdata
      rw [List.mem_singleton.mp hsegment]
      decide
  · intro path hpath op hop
    constructor
    · intro hempty
      rcases hpath with rfl | rfl <;> cases hempty
    · intro ld rd hld hrd _ _ hsegments
      rcases hpath with rfl | rfl <;> rcases hop with rfl | rfl <;>
        cases hld <;> cases hrd
      · rfl
      · rcases hsegments with _ | ⟨hsame, _⟩
        exact absurd hsame (by decide)
      · rcases hsegments with _ | ⟨hsame, _⟩
        exact absurd hsame (by decide)
      · rfl

/-- `/A` and `/a` are equal without their case, but do not compare as
equal. -/
theorem compareNocase_of_different_case :
    equalNocase (sameNocase asciiStricmp) (unixPath ["A".toList])
        (unixPath ["a".toList]) = true ∧
      compareNocase asciiStricmp (unixPath ["A".toList])
        (unixPath ["a".toList]) = .lt ∧
      ¬ComparisonsAgree asciiStricmp
        {unixPath ["A".toList], unixPath ["a".toList]} := by
  have hequal : equalNocase (sameNocase asciiStricmp)
      (unixPath ["A".toList]) (unixPath ["a".toList]) = true := by
    decide
  have hless : compareNocase asciiStricmp (unixPath ["A".toList])
      (unixPath ["a".toList]) = .lt := by
    decide
  refine ⟨hequal, hless, ?_⟩
  intro hagree
  have heq := (hagree.nocase_eq_iff _ (Or.inl rfl) _ (Or.inr rfl)).mpr hequal
  rw [hless] at heq
  cases heq

end ServerPath

end TabFtp
