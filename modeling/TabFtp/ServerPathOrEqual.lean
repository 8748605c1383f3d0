import TabFtp.DirectoryListing
import TabFtp.ServerPathOrder

/-!
# A directory, or one below it

`CServerPath::IsSubdirOf` can be asked to count the directory itself as below
itself.  Its tests in front of the segments were written for directories that
are really below: a path without a parent never passes them, and on MVS
neither does the question about a directory without the trailing dot, while
the prefixes are not compared there at all.
-/

namespace TabFtp

namespace ServerPath

/-- The comparison of names that `cmpNoCase` selects. -/
def compareName (folding : NameFolding) (cmpNoCase : Bool) :
    WString → WString → Bool :=
  if cmpNoCase then folding.same else exactName

/-- The comparison of paths that `cmpNoCase` selects. -/
def equalPath (folding : NameFolding) (cmpNoCase : Bool)
    (path op : ServerPath) : Bool :=
  if cmpNoCase then path.equalNocase folding.same op else path.same op

def SameSegments (sameName : WString → WString → Bool)
    (lefts rights : List WString) : Prop :=
  lefts.length = rights.length ∧
    segmentsEqual sameName lefts rights = true

variable {sameName : WString → WString → Bool}

theorem sameSegments_cons (left right : WString)
    (lefts rights : List WString) :
    SameSegments sameName (left :: lefts) (right :: rights) ↔
      sameName left right = true ∧ SameSegments sameName lefts rights := by
  have hstep : segmentsEqual sameName (left :: lefts) (right :: rights) =
      (sameName left right && segmentsEqual sameName lefts rights) := rfl
  unfold SameSegments
  rw [hstep, List.length_cons, List.length_cons, Nat.add_right_cancel_iff,
    Bool.and_eq_true]
  tauto

theorem segmentsBelow_orEqual (lefts rights : List WString) :
    segmentsBelow sameName true lefts rights = true ↔
      segmentsBelow sameName false lefts rights = true ∨
        SameSegments sameName lefts rights := by
  induction lefts generalizing rights with
  | nil =>
      cases rights with
      | nil => simp [segmentsBelow, SameSegments, segmentsEqual]
      | cons right rights => simp [segmentsBelow, SameSegments]
  | cons left lefts ih =>
      cases rights with
      | nil => simp [segmentsBelow]
      | cons right rights =>
          rw [sameSegments_cons]
          unfold segmentsBelow
          rw [Bool.and_eq_true, Bool.and_eq_true, ih rights]
          tauto

theorem not_below_of_same {lefts rights : List WString}
    (hsame : SameSegments sameName lefts rights) :
    ¬ segmentsBelow sameName false lefts rights = true := by
  induction lefts generalizing rights with
  | nil =>
      cases rights with
      | nil => simp [segmentsBelow]
      | cons right rights => simp [segmentsBelow]
  | cons left lefts ih =>
      cases rights with
      | nil => cases hsame.1
      | cons right rights =>
          have hrest := ih ((sameSegments_cons left right lefts rights).mp
            hsame).2
          unfold segmentsBelow
          rw [Bool.and_eq_true]
          exact fun hbelow => hrest hbelow.2

theorem segmentsEqual_exact {lefts rights : List WString} :
    SameSegments exactName lefts rights ↔ lefts = rights := by
  induction lefts generalizing rights with
  | nil =>
      cases rights with
      | nil => simp [SameSegments, segmentsEqual]
      | cons right rights => simp [SameSegments]
  | cons left lefts ih =>
      cases rights with
      | nil => simp [SameSegments]
      | cons right rights =>
          rw [sameSegments_cons, ih, exactName, beq_iff_eq, List.cons.injEq]

theorem samePrefix_exact (left right : Option WString) :
    samePrefix exactName left right = true ↔ left = right := by
  cases left with
  | none => cases right <;> simp [samePrefix]
  | some left => cases right <;> simp [samePrefix, exactName]

variable {folding : NameFolding} {cmpNoCase : Bool}
  {path parent : ServerPath} {ld rd : ServerPathData}

theorem equalPath_iff (hpath : path.data = some ld)
    (hparent : parent.data = some rd) (htype : path.type = parent.type) :
    equalPath folding cmpNoCase path parent = true ↔
      samePrefix (compareName folding cmpNoCase) ld.pathPrefix rd.pathPrefix =
          true ∧
        SameSegments (compareName folding cmpNoCase) ld.segments
          rd.segments := by
  unfold equalPath compareName
  cases cmpNoCase with
  | true =>
      simp only [if_true]
      unfold equalNocase SameSegments
      rw [hpath, hparent]
      simp only [htype, ne_eq, not_true_eq_false, if_false]
      by_cases hlength : ld.segments.length = rd.segments.length
      · cases samePrefix folding.same ld.pathPrefix rd.pathPrefix <;>
          simp [hlength]
      · simp [hlength]
  | false =>
      have hdata : path = parent ↔ ld = rd := by
        cases path
        cases parent
        simp_all
      have hfields : ld = rd ↔
          ld.pathPrefix = rd.pathPrefix ∧ ld.segments = rd.segments := by
        cases ld
        cases rd
        simp only [ServerPathData.mk.injEq]
        tauto
      simp only [Bool.false_eq_true, if_false]
      rw [same_iff, samePrefix_exact, segmentsEqual_exact, hdata, hfields]

/-- The tests of `IsSubdirOf` in front of the segments. -/
def Reached (sameName : WString → WString → Bool) (path : ServerPath)
    (ld rd : ServerPathData) : Prop :=
  path.hasParent = true ∧
    if (traits path.type).prefixmode = 1 then rd.pathPrefix.isSome = true
    else samePrefix sameName ld.pathPrefix rd.pathPrefix = true

theorem isSubdirOf_iff (hpath : path.data = some ld)
    (hparent : parent.data = some rd) (htype : path.type = parent.type)
    (allowEqual : Bool) :
    path.isSubdirOf sameName parent allowEqual = true ↔
      Reached sameName path ld rd ∧
        segmentsBelow sameName allowEqual ld.segments rd.segments = true := by
  unfold isSubdirOf Reached
  rw [hpath, hparent]
  simp only [htype, ne_eq, not_true_eq_false, if_false]
  by_cases hmode : (traits parent.type).prefixmode = 1
  · cases path.hasParent <;> cases rd.pathPrefix <;> simp [hmode]
  · cases path.hasParent <;>
      cases samePrefix sameName ld.pathPrefix rd.pathPrefix <;> simp [hmode]

/-- For paths with the same segments, the tests in front of the segments let
through exactly the pairs with the same prefix: a path that equals the other
has a parent and, on MVS, the trailing dot, and on MVS a pair that is let
through agrees in the dot. -/
def EqualCaseTested (sameName : WString → WString → Bool)
    (path parent : ServerPath) : Prop :=
  ∀ ld rd, path.data = some ld → parent.data = some rd →
    SameSegments sameName ld.segments rd.segments →
      (samePrefix sameName ld.pathPrefix rd.pathPrefix = true →
        path.hasParent = true ∧
          ((traits path.type).prefixmode = 1 → rd.pathPrefix.isSome = true)) ∧
      ((traits path.type).prefixmode = 1 → path.hasParent = true →
        rd.pathPrefix.isSome = true →
          samePrefix sameName ld.pathPrefix rd.pathPrefix = true)

theorem equalCaseTested_iff (hpath : path.data = some ld)
    (hparent : parent.data = some rd) :
    EqualCaseTested sameName path parent ↔
      (SameSegments sameName ld.segments rd.segments →
        (Reached sameName path ld rd ↔
          samePrefix sameName ld.pathPrefix rd.pathPrefix = true)) := by
  have hdata : EqualCaseTested sameName path parent ↔
      (SameSegments sameName ld.segments rd.segments →
        (samePrefix sameName ld.pathPrefix rd.pathPrefix = true →
          path.hasParent = true ∧ ((traits path.type).prefixmode = 1 →
            rd.pathPrefix.isSome = true)) ∧
        ((traits path.type).prefixmode = 1 → path.hasParent = true →
          rd.pathPrefix.isSome = true →
            samePrefix sameName ld.pathPrefix rd.pathPrefix = true)) := by
    constructor
    · intro htested
      exact htested ld rd hpath hparent
    · intro htested ld' rd' hpath' hparent'
      rw [hpath] at hpath'
      rw [hparent] at hparent'
      cases hpath'
      cases hparent'
      exact htested
  rw [hdata]
  unfold Reached
  by_cases hmode : (traits path.type).prefixmode = 1
  · simp only [hmode, if_true, true_implies]
    tauto
  · simp only [hmode, if_false, false_implies]
    tauto

/-- Counting the directory itself as below itself adds exactly the equal
paths when the tests in front of the segments fit the equal case. -/
theorem isSubdirOf_orEqual_iff (folding : NameFolding) (cmpNoCase : Bool)
    (path parent : ServerPath) (hpath : path.empty = false)
    (hparent : parent.empty = false) (htype : path.type = parent.type) :
    (path.isSubdirOf (compareName folding cmpNoCase) parent true = true ↔
      path.isSubdirOf (compareName folding cmpNoCase) parent false = true ∨
        equalPath folding cmpNoCase path parent = true) ↔
      EqualCaseTested (compareName folding cmpNoCase) path parent := by
  have hsome : ∀ {p : ServerPath}, p.empty = false → ∃ d, p.data = some d := by
    intro p hp
    exact Option.isSome_iff_exists.mp (by simpa [empty] using hp)
  obtain ⟨ld, hld⟩ := hsome hpath
  obtain ⟨rd, hrd⟩ := hsome hparent
  rw [isSubdirOf_iff hld hrd htype, isSubdirOf_iff hld hrd htype,
    segmentsBelow_orEqual, equalPath_iff hld hrd htype,
    equalCaseTested_iff hld hrd]
  by_cases hsame :
      SameSegments (compareName folding cmpNoCase) ld.segments rd.segments
  · have hbelow := not_below_of_same hsame
    simp only [hsame, hbelow]
    tauto
  · simp only [hsame]
    tauto

/-- `/pub`, a directory with a parent. -/
def pubDirectory : ServerPath := ⟨some ⟨["pub".toList], none⟩, .unix⟩

/-- A directory is below or equal to itself. -/
theorem pubDirectory_orEqual :
    pubDirectory.empty = false ∧
      (pubDirectory.isSubdirOf exactName pubDirectory true = true ↔
        pubDirectory.isSubdirOf exactName pubDirectory false = true ∨
          pubDirectory.same pubDirectory = true) :=
  ⟨rfl, (isSubdirOf_orEqual_iff ⟨exactName, id⟩ false pubDirectory
    pubDirectory rfl rfl rfl).mpr (by
      intro ld rd hld hrd _
      cases hld
      cases hrd
      decide)⟩

/-- The root directory is not found below or equal to itself. -/
theorem rootDirectory_not_orEqual :
    ¬ ∀ (folding : NameFolding) (cmpNoCase : Bool)
      (path parent : ServerPath), path.empty = false → parent.empty = false →
        path.type = parent.type →
        (path.isSubdirOf (compareName folding cmpNoCase) parent true = true ↔
          path.isSubdirOf (compareName folding cmpNoCase) parent false =
              true ∨
            equalPath folding cmpNoCase path parent = true) := by
  intro hclaim
  have hroot := hclaim ⟨exactName, id⟩ false ⟨some ⟨[], none⟩, .unix⟩
    ⟨some ⟨[], none⟩, .unix⟩ rfl rfl rfl
  exact absurd (hroot.mpr (.inr rfl)) (by decide)

end ServerPath

end TabFtp
