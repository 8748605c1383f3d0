import TabFtp.ServerPathRoundTrip

/-!
# Dots in a subdirectory

`Segmentize` resolves the dots of a text on the list of segments that it
extends.  The prefix is settled before.  A type with a root stays at the root
when there is nothing left to take away.  On DOS the first segment is the
drive, which is taken away like any other segment, and only a list that is
empty in the end is rejected.
-/

namespace TabFtp

open DelimitedText

namespace ServerPath

/-! ## Resolving dots -/

def isName (piece : WString) : Bool :=
  piece != ['.'] && piece != ['.', '.']

/-- One piece of a text, for a type with special dots and no escape. -/
def climb (segments : List WString) (piece : WString) : List WString :=
  if piece = ['.'] then segments
  else if piece = ['.', '.'] then segments.dropLast
  else segments ++ [piece]

def depth (start : ℕ) (pieces : List WString) : ℕ :=
  pieces.foldl (fun count piece =>
    if piece = ['.'] then count
    else if piece = ['.', '.'] then count - 1
    else count + 1) start

variable {type : ServerType} {segments pieces : List WString}
  {piece drive text : WString}

theorem climb_length (segments : List WString) (piece : WString) :
    (climb segments piece).length = depth segments.length [piece] := by
  unfold climb depth
  simp only [List.foldl_cons, List.foldl_nil]
  split_ifs <;> simp

theorem depth_cons (segments : List WString) (piece : WString)
    (pieces : List WString) :
    depth segments.length (piece :: pieces) =
      depth (climb segments piece).length pieces := by
  rw [climb_length]
  rfl

theorem climb_name (hname : isName piece = true) :
    climb segments piece = segments ++ [piece] := by
  simp only [isName, Bool.and_eq_true, bne_iff_ne, ne_eq] at hname
  simp [climb, hname.1, hname.2]

theorem climb_head {first : WString}
    (hfirst : segments.head? = some first)
    (hlong : 0 < (climb segments piece).length) :
    (climb segments piece).head? = some first := by
  unfold climb at hlong ⊢
  split_ifs at hlong ⊢
  · exact hfirst
  · rw [List.head?_dropLast, hfirst]
    rw [List.length_dropLast] at hlong
    exact if_pos (by omega)
  · rw [List.head?_append, hfirst]
    rfl

theorem climb_nil (hlong : 0 < (climb [] piece).length) :
    isName piece = true ∧ climb [] piece = [piece] := by
  unfold climb at hlong ⊢
  split_ifs at hlong ⊢ with hself hparent
  · cases hlong
  · cases hlong
  · exact ⟨by simp [isName, hself, hparent], rfl⟩

def Lands (start : ℕ) (pieces : List WString) (name : WString) : Prop :=
  ∃ before after, pieces = before ++ name :: after ∧ isName name = true ∧
    depth start before = 0 ∧ ∀ part, part <+: after → 0 < depth 1 part

/-- The first segment in the end is the one of the beginning, if that is
never taken away, or else the last name put into an empty list. -/
theorem head_climb_iff (segments pieces : List WString) (name : WString) :
    (pieces.foldl climb segments).head? = some name ↔
      (segments.head? = some name ∧
        ∀ part, part <+: pieces → 0 < depth segments.length part) ∨
      Lands segments.length pieces name := by
  induction pieces generalizing segments with
  | nil =>
      rw [List.foldl_nil]
      constructor
      · intro hhead
        refine Or.inl ⟨hhead, ?_⟩
        intro part hpart
        rw [List.prefix_nil.mp hpart]
        cases segments with
        | nil => cases hhead
        | cons first rest => exact Nat.succ_pos _
      · rintro (hboth | ⟨before, after, hsplit, _⟩)
        · exact hboth.1
        · simp at hsplit
  | cons piece pieces ih =>
      rw [List.foldl_cons, ih]
      have hdepth := depth_cons segments piece
      constructor
      · rintro (⟨hhead, hpositive⟩ | ⟨before, after, rfl, hname, hzero,
          hstays⟩)
        · have hlong := hpositive [] (List.nil_prefix)
          cases segments with
          | nil =>
              obtain ⟨hname, hlist⟩ := climb_nil hlong
              rw [hlist] at hhead hpositive
              obtain rfl := Option.some.inj hhead
              exact Or.inr ⟨[], pieces, rfl, hname, rfl, hpositive⟩
          | cons first rest =>
              have hfirst := climb_head (List.head?_cons) hlong
              rw [hfirst] at hhead
              refine Or.inl ⟨hhead, ?_⟩
              intro part hpart
              cases part with
              | nil => exact Nat.succ_pos _
              | cons other part =>
                  obtain ⟨rfl, hrest⟩ := List.cons_prefix_cons.mp hpart
                  rw [hdepth]
                  exact hpositive part hrest
        · refine Or.inr ⟨piece :: before, after, rfl, hname, ?_, hstays⟩
          rw [hdepth]
          exact hzero
      · rintro (⟨hhead, hpositive⟩ | ⟨before, after, hsplit, hname, hzero,
          hstays⟩)
        · have hlong := hpositive [piece] (by simp)
          rw [← climb_length] at hlong
          refine Or.inl ⟨climb_head hhead hlong, ?_⟩
          intro part hpart
          rw [← hdepth]
          exact hpositive (piece :: part)
            (List.cons_prefix_cons.mpr ⟨rfl, hpart⟩)
        · cases before with
          | nil =>
              simp only [List.nil_append, List.cons.injEq] at hsplit
              obtain ⟨rfl, rfl⟩ := hsplit
              have hnil : segments = [] := List.length_eq_zero_iff.mp hzero
              subst hnil
              left
              rw [climb_name hname]
              exact ⟨rfl, hstays⟩
          | cons first before =>
              simp only [List.cons_append, List.cons.injEq] at hsplit
              obtain ⟨rfl, rfl⟩ := hsplit
              refine Or.inr ⟨before, after, rfl, hname, ?_, hstays⟩
              rw [← hdepth]
              exact hzero

theorem mem_climb {segment : WString}
    (hmem : segment ∈ pieces.foldl climb segments) :
    segment ∈ segments ∨ segment ∈ pieces ∧ isName segment = true := by
  induction pieces generalizing segments with
  | nil => exact Or.inl hmem
  | cons piece pieces ih =>
      rcases ih hmem with hold | ⟨hnew, hname⟩
      · unfold climb at hold
        split_ifs at hold with hself hparent
        · exact Or.inl hold
        · exact Or.inl (List.mem_of_mem_dropLast hold)
        · rcases List.mem_append.mp hold with hbefore | hlast
          · exact Or.inl hbefore
          · rw [List.mem_singleton] at hlast
            subst hlast
            exact Or.inr ⟨List.mem_cons_self, by simp [isName, hself, hparent]⟩
      · exact Or.inr ⟨List.mem_cons_of_mem _ hnew, hname⟩

theorem segmentize_climb
    (hdots : (traits type).hasDots = true)
    (text : WString) (segments : List WString) :
    segmentize type text segments =
      some ((fields (isSeparator type) text).foldl climb segments) := by
  have hescape : (traits type).separatorEscape = none := by
    cases type <;> first | rfl | cases hdots
  have hpiece : ∀ (segments : List WString) (piece : WString),
      segmentizeAddSegment type (segments, false) piece =
        (climb segments piece, false) := by
    intro segments piece
    unfold segmentizeAddSegment climb
    simp only [hdots, hescape, Bool.true_and, beq_iff_eq, Option.any_none,
      Bool.false_eq_true, if_false]
    split_ifs <;> rfl
  have hfold : ∀ (pieces segments : List WString),
      pieces.foldl (segmentizeAddSegment type) (segments, false) =
        (pieces.foldl climb segments, false) := by
    intro pieces
    induction pieces with
    | nil => exact fun _ => rfl
    | cons piece pieces ih =>
        intro segments
        rw [List.foldl_cons, hpiece, ih, List.foldl_cons]
  unfold segmentize
  simp [hfold]

/-! ## The drive of a DOS path -/

def frontSegment (path : ServerPath) : Option WString :=
  path.data.bind fun data => data.segments.head?

theorem unlessStillEmpty_false (changed : Option Changed) :
    unlessStillEmpty false changed = changed := by
  cases changed <;> simp [unlessStillEmpty]

theorem fields_drop_separator
    (hstart : startsWithSeparator type text = true) :
    fields (isSeparator type) (text.drop 1) =
      fields (isSeparator type) text := by
  cases text with
  | nil => rfl
  | cons char text =>
      have hchar : isSeparator type char = true := by
        simpa [startsWithSeparator] using hstart
      exact (fields_cons_delimiter hchar text).symm

def dosStart (type : ServerType) (drive : WString) (rest : List WString)
    (subdir : WString) : List WString :=
  if startsWithSeparator type subdir then [drive] else drive :: rest

theorem changePath_dos
    {rest : List WString} {pathPrefix : Option WString} {subdir : WString}
    (htype : type = .dos ∨ type = .dosFwdSlashes) (hsubdir : subdir ≠ [])
    (hdrive : namesDrive type subdir = false) :
    changePath ⟨some ⟨drive :: rest, pathPrefix⟩, type⟩ subdir =
      let segments := (fields (isSeparator type) subdir).foldl climb
        (dosStart type drive rest subdir)
      if segments.isEmpty then (⟨none, type⟩, false)
      else (⟨some ⟨segments, pathPrefix⟩, type⟩, true) := by
  have hdots : (traits type).hasDots = true := by
    rcases htype with rfl | rfl <;> rfl
  have hroot : (traits type).hasRoot = false := by
    rcases htype with rfl | rfl <;> rfl
  have hchange : changeByType type false false
      ⟨drive :: rest, pathPrefix⟩ subdir =
        some (⟨(fields (isSeparator type) subdir).foldl climb
          (dosStart type drive rest subdir), pathPrefix⟩, []) := by
    have hdos : changeByType type false false ⟨drive :: rest, pathPrefix⟩
        subdir = changeDos type false false ⟨drive :: rest, pathPrefix⟩
          subdir := by
      rcases htype with rfl | rfl <;> rfl
    rw [hdos]
    unfold changeDos dosStart
    rw [if_neg (by simp [hdrive])]
    by_cases hstart : startsWithSeparator type subdir = true
    · rw [if_pos hstart, if_pos hstart]
      simp only [unlessStillEmpty_false, segmentizeInto, Bool.false_eq_true,
        if_false, segmentize_climb hdots, fields_drop_separator hstart,
        Option.map_some]
    · rw [if_neg hstart, if_neg hstart]
      simp only [unlessStillEmpty_false, segmentizeInto, Bool.false_eq_true,
        if_false, segmentize_climb hdots, Option.map_some]
  unfold changePath doChangePath
  rw [if_neg (by simpa using hsubdir)]
  simp only [ServerPath.empty, Option.isNone_some, Option.getD_some, hchange,
    hroot, Bool.not_false, Bool.true_and]
  generalize (fields (isSeparator type) subdir).foldl climb
    (dosStart type drive rest subdir) = segments
  by_cases hnil : segments.isEmpty = true
  · simp [hnil, clear]
  · simp [hnil]

/-- Whatever takes the place of the drive, and is not taken away again, is the
drive. -/
def KeepsDrive (type : ServerType) (drive : WString) (rest : List WString)
    (subdir : WString) : Prop :=
  ∀ name, Lands (dosStart type drive rest subdir).length
    (fields (isSeparator type) subdir) name → name = drive

theorem dosStart_head (type : ServerType) (drive : WString)
    (rest : List WString) (subdir : WString) :
    (dosStart type drive rest subdir).head? = some drive := by
  unfold dosStart
  split_ifs <;> rfl

theorem changePath_keepsDrive_iff
    {rest : List WString} {pathPrefix : Option WString} {subdir : WString}
    (htype : type = .dos ∨ type = .dosFwdSlashes)
    (hdrive : namesDrive type subdir = false) :
    ((changePath ⟨some ⟨drive :: rest, pathPrefix⟩, type⟩ subdir).2 = true →
        frontSegment (changePath ⟨some ⟨drive :: rest, pathPrefix⟩, type⟩
          subdir).1 = some drive) ↔
      KeepsDrive type drive rest subdir := by
  by_cases hsubdir : subdir = []
  · subst hsubdir
    constructor
    · rintro _ name ⟨before, after, hsplit, _⟩
      simp at hsplit
    · intro _ _
      rfl
  · rw [changePath_dos htype hsubdir hdrive]
    have hhead := head_climb_iff (dosStart type drive rest subdir)
      (fields (isSeparator type) subdir)
    unfold KeepsDrive
    generalize (fields (isSeparator type) subdir).foldl climb
      (dosStart type drive rest subdir) = resolved at *
    rw [dosStart_head] at hhead
    cases resolved with
    | nil =>
        constructor
        · intro _ name hlands
          have hfirst := (hhead name).mpr (Or.inr hlands)
          cases hfirst
        · intro _ hdone
          cases hdone
    | cons first resolved =>
        simp only [List.head?_cons, Option.some.injEq] at hhead
        constructor
        · intro hsame name hlands
          have hfirst := (hhead name).mpr (Or.inr hlands)
          have hkept := hsame rfl
          simp only [List.isEmpty_cons, Bool.false_eq_true, if_false,
            frontSegment, Option.bind_some, List.head?_cons,
            Option.some.injEq] at hkept
          exact hfirst.symm.trans hkept
        · intro hlands _
          rcases (hhead first).mp rfl with ⟨hsame, _⟩ | hlast
          · rw [hsame]
            rfl
          · rw [← hlands first hlast]
            rfl

/-! ## The root of other paths -/

def isAbsolute (type : ServerType) (subdir : WString) : Bool :=
  if type = .vxworks then subdir.head? == some ':'
  else startsWithSeparator type subdir

/-- The root that an absolute text starts at, and the rest of the text.  Only
the device of VxWorks and the two slashes of Cygwin set a prefix, and a Cygwin
root without them has none. -/
def textRoot (type : ServerType) (data : ServerPathData) (subdir : WString) :
    ServerPathData × WString :=
  match type with
  | .vxworks =>
      let device := ((WString.find ':' (subdir.drop 1)).getD 0) + 2
      (⟨[], some (subdir.take device)⟩, subdir.drop device)
  | .cygwin =>
      if subdir.head? = some '/' ∧ (subdir.drop 1).head? = some '/' then
        (⟨[], some ['/']⟩, subdir.drop 1)
      else (⟨[], none⟩, subdir)
  | _ => (⟨[], data.pathPrefix⟩, subdir)

/-- Where the rest of the text is resolved: at the path, or at a root. -/
def anchor (type : ServerType) (data : ServerPathData) (subdir : WString) :
    ServerPathData × WString :=
  if isAbsolute type subdir then textRoot type data subdir
  else (data, subdir)

/-- The pieces of the text put at its anchor. -/
def climbFrom (type : ServerType) (start : ServerPathData × WString) :
    ServerPathData :=
  ⟨(fields (isSeparator type) start.2).foldl climb start.1.segments,
    start.1.pathPrefix⟩

theorem textRoot_plain {data : ServerPathData} {subdir : WString}
    (hvxworks : type ≠ .vxworks) (hcygwin : type ≠ .cygwin) :
    textRoot type data subdir = (⟨[], data.pathPrefix⟩, subdir) := by
  cases type <;> first | rfl | contradiction

theorem segmentizeInto_climb
    {changed : Changed} {start : ServerPathData} {dir : WString}
    (hdots : (traits type).hasDots = true)
    (hchange : segmentizeInto type false start dir = some changed) :
    changed.1 = climbFrom type (start, dir) := by
  obtain ⟨following, hread, rfl⟩ := segmentizeInto_cases hchange
  rw [segmentize_climb hdots, Option.some.injEq] at hread
  rw [← hread]
  rfl

theorem changeByType_climb
    {data : ServerPathData} {changed : Changed} {wasEmpty : Bool}
    {subdir : WString}
    (hdots : (traits type).hasDots = true)
    (htype : type ≠ .dos ∧ type ≠ .dosFwdSlashes)
    (hchange : changeByType type false wasEmpty data subdir = some changed) :
    changed.1 = climbFrom type (anchor type data subdir) := by
  have hrooted : type ≠ .vxworks → type ≠ .cygwin →
      changeRooted type false wasEmpty data subdir = some changed →
      changed.1 = climbFrom type (anchor type data subdir) := by
    intro hvxworks hcygwin hrooted
    have hroot : textRoot type data subdir = (⟨[], data.pathPrefix⟩, subdir) :=
      textRoot_plain hvxworks hcygwin
    unfold changeRooted at hrooted
    unfold anchor isAbsolute
    rw [if_neg hvxworks, hroot]
    split_ifs at hrooted ⊢ with hstart
    · exact segmentizeInto_climb hdots hrooted
    · exact segmentizeInto_climb hdots hrooted
  cases type with
  | default => exact hrooted (by simp) (by simp) hchange
  | unix => exact hrooted (by simp) (by simp) hchange
  | zvm => exact hrooted (by simp) (by simp) hchange
  | dosVirtual => exact hrooted (by simp) (by simp) hchange
  | vms => cases hdots
  | mvs => cases hdots
  | hpnonstop => cases hdots
  | dos => exact absurd rfl htype.1
  | dosFwdSlashes => exact absurd rfl htype.2
  | vxworks =>
      change changeVxworks false wasEmpty data subdir = some changed at hchange
      unfold changeVxworks at hchange
      unfold anchor isAbsolute textRoot
      by_cases hcolon : subdir.head? = some ':'
      · rw [if_neg (by simpa using hcolon)] at hchange
        simp only [hcolon, if_true, beq_self_eq_true]
        split at hchange
        · cases hchange
        · cases hchange
        · rename_i device hdevice
          rw [hdevice]
          exact segmentizeInto_climb hdots hchange
      · rw [if_pos hcolon] at hchange
        split_ifs at hchange
        simp only [if_true, beq_iff_eq, hcolon, if_false]
        exact segmentizeInto_climb hdots hchange
  | cygwin =>
      change changeCygwin false wasEmpty data subdir = some changed at hchange
      unfold changeCygwin at hchange
      have hvxworks : ServerType.cygwin ≠ .vxworks := by simp
      unfold anchor isAbsolute textRoot
      rw [if_neg hvxworks]
      split_ifs at hchange ⊢
      · exact segmentizeInto_climb hdots hchange
      · exact segmentizeInto_climb hdots hchange
      · exact segmentizeInto_climb hdots hchange

/-- The new path is the anchor with the dots resolved. -/
theorem changePath_climb
    {path changed : ServerPath} {subdir : WString}
    (hdots : (traits path.type).hasDots = true)
    (htype : path.type ≠ .dos ∧ path.type ≠ .dosFwdSlashes)
    (hsubdir : subdir ≠ [])
    (hchange : path.changePath subdir = (changed, true)) :
    changed = ⟨some (climbFrom path.type
      (anchor path.type (path.data.getD ⟨[], none⟩) subdir)), path.type⟩ := by
  unfold changePath doChangePath at hchange
  rw [if_neg (by simpa using hsubdir)] at hchange
  cases hread : changeByType path.type false path.empty
      (path.data.getD ⟨[], none⟩) subdir with
  | none => simp [hread] at hchange
  | some result =>
      have hresult := changeByType_climb hdots htype hread
      obtain ⟨data, file⟩ := result
      simp only [hread, Bool.false_eq_true, if_false] at hchange
      rw [← hresult]
      by_cases hnone : (!(traits path.type).hasRoot && data.segments.isEmpty) =
          true
      · rw [if_pos hnone] at hchange
        simp at hchange
      · rw [if_neg hnone] at hchange
        exact (congrArg Prod.fst hchange).symm

end ServerPath

open ServerPath

/-- On DOS a subdirectory that names no drive leads to the same drive or fails,
exactly if nothing takes the place of the drive.  For all other types with
special dots the dots stay below the path or the root that the text starts at,
and leave its prefix alone. -/
theorem dots_keep_drive_iff (path : ServerPath) (subdir : WString) :
    (∀ (drive : WString) (rest : List WString) (pathPrefix : Option WString),
      path.type = .dos ∨ path.type = .dosFwdSlashes →
      path.data = some ⟨drive :: rest, pathPrefix⟩ →
      namesDrive path.type subdir = false →
      (((path.changePath subdir).2 = true →
          frontSegment (path.changePath subdir).1 = some drive) ↔
        KeepsDrive path.type drive rest subdir)) ∧
    (∀ changed : ServerPath,
      (traits path.type).hasDots = true →
      path.type ≠ .dos ∧ path.type ≠ .dosFwdSlashes → subdir ≠ [] →
      path.changePath subdir = (changed, true) →
      let start := anchor path.type (path.data.getD ⟨[], none⟩) subdir
      ∃ segments,
        changed = ⟨some ⟨segments, start.1.pathPrefix⟩, path.type⟩ ∧
          segments = (fields (isSeparator path.type) start.2).foldl climb
            start.1.segments ∧
          ∀ segment ∈ segments, segment ∈ start.1.segments ∨
            segment ∈ fields (isSeparator path.type) start.2 ∧
              isName segment = true) := by
  constructor
  · intro drive rest pathPrefix htype hdata hdrive
    obtain ⟨data, type⟩ := path
    obtain rfl : data = some ⟨drive :: rest, pathPrefix⟩ := hdata
    exact changePath_keepsDrive_iff htype hdrive
  · intro changed hdots htype hsubdir hchange
    have hchanged := changePath_climb hdots htype hsubdir hchange
    exact ⟨_, hchanged, rfl, fun _ => mem_climb⟩

/-- From `C:\a` to its neighbour, and from `/a` beyond the root. -/
theorem dots_keep_drive_iff_neighbour :
    KeepsDrive .dos "C:".toList ["a".toList] "..\\b".toList ∧
      ((blank .unix).setPath "/a".toList).1.changePath "../../b".toList =
        (((blank .unix).setPath "/b".toList).1, true) ∧
      ∃ segments,
        ((blank .unix).setPath "/b".toList).1 =
            ⟨some ⟨segments, none⟩, .unix⟩ ∧
          ∀ segment ∈ segments, segment ∈ ["a".toList] ∨
            segment ∈ fields (isSeparator .unix) "../../b".toList ∧
              isName segment = true := by
  have hchange : ((blank .unix).setPath "/a".toList).1.changePath
      "../../b".toList = (((blank .unix).setPath "/b".toList).1, true) := by
    decide
  refine ⟨?_, hchange, ?_⟩
  · have hkeeps := (dots_keep_drive_iff
      ⟨some ⟨["C:".toList, "a".toList], none⟩, .dos⟩ "..\\b".toList).1
      "C:".toList ["a".toList] none (Or.inl rfl) rfl (by decide)
    apply hkeeps.mp
    intro _
    decide
  · obtain ⟨segments, hchanged, _, hnames⟩ :=
      (dots_keep_drive_iff _ _).2 _ rfl (by decide) (by decide) hchange
    exact ⟨segments, hchanged, hnames⟩

/-- From the root of a drive a subdirectory leads to a path without a
drive. -/
theorem dots_leave_drive :
    namesDrive .dos "..\\b".toList = false ∧
      changePath ⟨some ⟨["C:".toList], none⟩, .dos⟩ "..\\b".toList =
        (⟨some ⟨["b".toList], none⟩, .dos⟩, true) ∧
      ¬ KeepsDrive .dos "C:".toList [] "..\\b".toList := by
  refine ⟨by decide, by decide, ?_⟩
  intro hkeeps
  have hname := hkeeps "b".toList
    ⟨[['.', '.']], [], by decide, by decide, by decide, by simp [depth]⟩
  exact absurd hname (by decide)

end TabFtp
