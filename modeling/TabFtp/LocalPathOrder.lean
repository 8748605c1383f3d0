import TabFtp.LocalPathSyntax
import Mathlib.Data.List.Lex

/-!
# The order of local paths

`CLocalPath::operator<` compares paths segment by segment, `IsParentOf`
compares their texts.  In a canonical path each segment ends with a separator,
so that a text that begins with another one has all of its segments, and the
paths below a directory come directly after it.
-/

namespace TabFtp

namespace LocalPath

/-- `do_compare`, case sensitive. -/
def doCompare : List WString → List WString → Ordering
  | left :: lefts, right :: rights =>
      match compare left right with
      | .eq => doCompare lefts rights
      | other => other
  | _ :: _, [] => .gt
  | [], _ :: _ => .lt
  | [], [] => .eq

/-- `operator<`; `strtokenizer` is `fz::strtokenizer` of the library, called
with the separator and with empty tokens. -/
def less (strtokenizer : WString → List WString) (path op : LocalPath) :
    Bool :=
  doCompare (strtokenizer path.path) (strtokenizer op.path) = .lt

/-- `operator==` -/
def same (path op : LocalPath) : Bool :=
  path.path = op.path

def isParentOf (path other : LocalPath) : Bool :=
  if path.path.isEmpty || other.path.isEmpty then false
  else if other.path.length ≤ path.path.length then false
  else path.path = other.path.take path.path.length

def isSubdirOf (path other : LocalPath) : Bool :=
  other.isParentOf path

def segments (path : LocalPath) : List WString :=
  (path.path.splitOn '/').filter (· ≠ [])

/-- Each separator ends a token. -/
def EndsTokens (strtokenizer : WString → List WString) : Prop :=
  ∀ tokens : List WString, (∀ token ∈ tokens, '/' ∉ token) →
    strtokenizer (tokens.flatMap (· ++ ['/'])) = tokens

/-! ## Segments -/

variable {strtokenizer : WString → List WString}

theorem doCompare_eq_compare (lefts rights : List WString) :
    doCompare lefts rights = compare lefts rights := by
  induction lefts generalizing rights with
  | nil =>
      cases rights with
      | nil => rfl
      | cons right rights => rfl
  | cons left lefts ih =>
      cases rights with
      | nil => rfl
      | cons right rights =>
          rw [List.compare_cons_cons, ← ih, doCompare]
          cases compare left right <;> rfl

theorem PlainSegment.ne_nil {segment : WString}
    (hplain : PlainSegment segment) : segment ≠ [] := by
  intro hnil
  have hdown := hplain.down
  rw [hnil] at hdown
  cases hdown

theorem free_render {segments : List WString}
    (hplain : ∀ segment ∈ segments, PlainSegment segment) :
    ∀ segment ∈ [] :: segments, '/' ∉ segment :=
  List.forall_mem_cons.mpr ⟨List.not_mem_nil, fun segment hmem =>
    (hplain segment hmem).noSeparator⟩

theorem segments_render {segments : List WString}
    (hplain : ∀ segment ∈ segments, PlainSegment segment) :
    LocalPath.segments ⟨render segments⟩ = segments := by
  have hkept : segments.filter (· ≠ []) = segments := by
    refine List.filter_eq_self.mpr ?_
    intro segment hmem
    simpa using (hplain segment hmem).ne_nil
  have hsplit : (render segments).splitOn '/' = [] :: segments ++ [[]] :=
    splitOn_render (free_render hplain)
  unfold LocalPath.segments
  rw [hsplit, List.filter_append, List.filter_cons_of_neg (by simp), hkept]
  simp

/-- Canonical paths are compared by their segments. -/
theorem less_iff (htokens : EndsTokens strtokenizer) {path op : LocalPath}
    (hpath : path.Canonical) (hop : op.Canonical) :
    path.less strtokenizer op = true ↔
      compare path.segments op.segments = .lt := by
  rcases hpath.segments with ⟨lefts, rfl, hlefts⟩
  rcases hop.segments with ⟨rights, rfl, hrights⟩
  have htokensOf : ∀ {segments : List WString},
      (∀ segment ∈ segments, PlainSegment segment) →
        strtokenizer (render segments) = [] :: segments :=
    fun hplain => htokens _ (free_render hplain)
  unfold less
  rw [segments_render hlefts, segments_render hrights, htokensOf hlefts,
    htokensOf hrights, doCompare_eq_compare, List.compare_cons_cons,
    decide_eq_true_iff]
  rfl

theorem eq_of_segments {path op : LocalPath} (hpath : path.Canonical)
    (hop : op.Canonical) (hsame : path.segments = op.segments) : path = op := by
  rcases hpath.segments with ⟨lefts, rfl, hlefts⟩
  rcases hop.segments with ⟨rights, rfl, hrights⟩
  rw [segments_render hlefts, segments_render hrights] at hsame
  rw [hsame]

theorem same_iff {path op : LocalPath} : path.same op = true ↔ path = op := by
  unfold same
  rw [decide_eq_true_iff]
  constructor
  · intro hsame
    cases path
    cases op
    exact congrArg LocalPath.mk hsame
  · intro hsame
    rw [hsame]

/-! ## Directories and what is below them -/

def Below (directory path : List WString) : Prop :=
  directory <+: path ∧ directory ≠ path

theorem flatMap_prefix_iff {lefts rights : List WString}
    (hlefts : ∀ segment ∈ lefts, PlainSegment segment)
    (hrights : ∀ segment ∈ rights, PlainSegment segment) :
    lefts.flatMap (· ++ ['/']) <+: rights.flatMap (· ++ ['/']) ↔
      lefts <+: rights := by
  induction lefts generalizing rights with
  | nil => simp
  | cons left lefts ih =>
      cases rights with
      | nil => simp
      | cons right rights =>
          have hleft := (hlefts left List.mem_cons_self).noSeparator
          have hright := (hrights right List.mem_cons_self).noSeparator
          have hrest := @ih rights
            (fun segment hmem => hlefts segment (List.mem_cons_of_mem _ hmem))
            (fun segment hmem => hrights segment (List.mem_cons_of_mem _ hmem))
          rw [List.flatMap_cons, List.flatMap_cons, List.append_assoc,
            List.append_assoc, List.singleton_append, List.singleton_append,
            List.cons_prefix_cons, ← hrest]
          constructor
          · intro htext
            rcases htext with ⟨more, hmore⟩
            rw [List.append_assoc, List.cons_append] at hmore
            have hpieces := congrArg (List.splitOn '/') hmore
            rw [List.splitOn_append_cons_self_of_not_mem hleft,
              List.splitOn_append_cons_self_of_not_mem hright] at hpieces
            have hsegment : left = right := (List.cons.inj hpieces).1
            rw [hsegment] at hmore
            have htail := (List.cons.inj (List.append_cancel_left hmore)).2
            exact ⟨hsegment, ⟨more, htail⟩⟩
          · intro hboth
            rcases hboth with ⟨hsegment, more, hmore⟩
            refine ⟨more, ?_⟩
            rw [hsegment, List.append_assoc, List.cons_append, hmore]

/-- A parent has the first segments of a path. -/
theorem isParentOf_iff {path other : LocalPath} (hpath : path.Canonical)
    (hother : other.Canonical) :
    path.isParentOf other = true ↔ Below path.segments other.segments := by
  rcases hpath.segments with ⟨lefts, rfl, hlefts⟩
  rcases hother.segments with ⟨rights, rfl, hrights⟩
  rw [segments_render hlefts, segments_render hrights]
  have hbegins : render lefts <+: render rights ↔ lefts <+: rights := by
    unfold render
    rw [List.cons_prefix_cons, flatMap_prefix_iff hlefts hrights]
    exact and_iff_right rfl
  have hempty : ((render lefts).isEmpty || (render rights).isEmpty) = false :=
    rfl
  unfold isParentOf Below
  simp only [hempty, Bool.false_eq_true, if_false]
  rw [← hbegins]
  by_cases hlength : (render rights).length ≤ (render lefts).length
  · rw [if_pos hlength]
    refine iff_of_false Bool.false_ne_true ?_
    intro hboth
    have hsame := hboth.1.eq_of_length_le hlength
    have hpaths : LocalPath.segments ⟨render lefts⟩ =
        LocalPath.segments ⟨render rights⟩ := by rw [hsame]
    rw [segments_render hlefts, segments_render hrights] at hpaths
    exact hboth.2 hpaths
  · rw [if_neg hlength, decide_eq_true_iff, ← List.prefix_iff_eq_take]
    refine ⟨fun htext => ⟨htext, ?_⟩, fun hboth => hboth.1⟩
    intro hsame
    rw [hsame] at hlength
    exact hlength (Nat.le_refl _)

theorem compare_of_below {directory path : List WString}
    (hbelow : Below directory path) : compare directory path = .lt := by
  rcases hbelow with ⟨⟨rest, rfl⟩, hne⟩
  induction directory with
  | nil =>
      cases rest with
      | nil => exact absurd rfl hne
      | cons segment rest => rfl
  | cons segment directory ih =>
      have hrest := ih fun hsame => hne (by
        rw [List.cons_append, ← hsame])
      rw [List.cons_append, List.compare_cons_cons, Std.ReflOrd.compare_self,
        hrest]
      rfl

/-- What is between a directory and something in it is in it, too. -/
theorem below_of_between {directory path between : List WString}
    (hbegins : directory <+: path)
    (hafter : compare directory between = .lt)
    (hbefore : compare between path = .lt) : Below directory between := by
  refine ⟨?_, ?_⟩
  · induction directory generalizing path between with
    | nil => exact List.nil_prefix
    | cons segment directory ih =>
        rcases hbegins with ⟨rest, rfl⟩
        cases between with
        | nil => cases hafter
        | cons other between =>
            rw [List.compare_cons_cons] at hafter
            rw [List.cons_append, List.compare_cons_cons] at hbefore
            rcases Ordering.then_eq_lt.mp hafter with hlt | ⟨heq, hafter⟩
            · have hgt : compare other segment = .gt :=
                Std.OrientedCmp.gt_iff_lt.mpr hlt
              rw [hgt] at hbefore
              cases hbefore
            · have hsame : segment = other :=
                Std.LawfulEqOrd.compare_eq_iff_eq.mp heq
              rw [hsame] at hbefore ⊢
              rw [Std.ReflOrd.compare_self] at hbefore
              have hrest := ih ⟨rest, rfl⟩ hafter hbefore
              exact List.cons_prefix_cons.mpr ⟨rfl, hrest⟩
  · intro hsame
    rw [hsame, Std.ReflOrd.compare_self] at hafter
    cases hafter

/-- Canonical paths are totally ordered, what is below a path comes directly
after it, and a path is a parent exactly if its segments are the first ones. -/
theorem path_order (htokens : EndsTokens strtokenizer)
    {path other last : LocalPath} (hpath : path.Canonical)
    (hother : other.Canonical) (hlast : last.Canonical) :
    path.less strtokenizer path = false ∧
      (path.less strtokenizer other = true →
        other.less strtokenizer last = true →
          path.less strtokenizer last = true) ∧
      (path.less strtokenizer other = false ∧
          other.less strtokenizer path = false ↔
        path.same other = true) ∧
      (path.isParentOf other = true →
        path.less strtokenizer other = true) ∧
      (path.isParentOf last = true → path.less strtokenizer other = true →
        other.less strtokenizer last = true →
          path.isParentOf other = true) ∧
      (path.isParentOf other = true ↔
        path.segments <+: other.segments ∧ path.segments ≠ other.segments) ∧
      (other.isSubdirOf path = true ↔ path.isParentOf other = true) := by
  refine ⟨?_, ?_, ?_, ?_, ?_, isParentOf_iff hpath hother, Iff.rfl⟩
  · rw [Bool.eq_false_iff, ne_eq, less_iff htokens hpath hpath,
      Std.ReflOrd.compare_self]
    exact nofun
  · intro hfirst hsecond
    rw [less_iff htokens hpath hother] at hfirst
    rw [less_iff htokens hother hlast] at hsecond
    rw [less_iff htokens hpath hlast]
    exact Std.TransCmp.lt_trans hfirst hsecond
  · have hswap : compare other.segments path.segments = .lt ↔
        compare path.segments other.segments = .gt :=
      Std.OrientedCmp.gt_iff_lt.symm
    rw [Bool.eq_false_iff, Bool.eq_false_iff, ne_eq, ne_eq,
      less_iff htokens hpath hother, less_iff htokens hother hpath, same_iff,
      hswap]
    constructor
    · intro hneither
      refine eq_of_segments hpath hother ?_
      refine Std.LawfulEqOrd.compare_eq_iff_eq.mp ?_
      cases hcompare : compare path.segments other.segments with
      | lt => exact absurd hcompare hneither.1
      | eq => rfl
      | gt => exact absurd hcompare hneither.2
    · intro hsame
      rw [hsame, Std.ReflOrd.compare_self]
      exact ⟨nofun, nofun⟩
  · intro hparent
    rw [less_iff htokens hpath hother]
    exact compare_of_below ((isParentOf_iff hpath hother).mp hparent)
  · intro hparent hafter hbefore
    rw [less_iff htokens hpath hother] at hafter
    rw [less_iff htokens hother hlast] at hbefore
    rw [isParentOf_iff hpath hother]
    exact below_of_between ((isParentOf_iff hpath hlast).mp hparent).1 hafter
      hbefore

/-- Nothing after the last separator is no token. -/
def tokenize (text : WString) : List WString :=
  let tokens := text.splitOn '/'
  if tokens.getLast? = some [] then tokens.dropLast else tokens

theorem tokenize_ends : EndsTokens tokenize := by
  intro tokens hfree
  unfold tokenize
  rw [splitOn_render hfree]
  simp only [List.getLast?_concat, if_true, List.dropLast_concat]

/-- `/p-2/` is not between `/p/` and `/p/x/`, although the hyphen is a smaller
character than the separator. -/
theorem path_order_hyphen :
    LocalPath.less tokenize ⟨"/p/".toList⟩ ⟨"/p-2/".toList⟩ = true ∧
      LocalPath.less tokenize ⟨"/p/x/".toList⟩ ⟨"/p-2/".toList⟩ = true ∧
      (LocalPath.isParentOf ⟨"/p/".toList⟩ ⟨"/p-2/".toList⟩ = true ↔
        LocalPath.segments ⟨"/p/".toList⟩ <+:
            LocalPath.segments ⟨"/p-2/".toList⟩ ∧
          LocalPath.segments ⟨"/p/".toList⟩ ≠
            LocalPath.segments ⟨"/p-2/".toList⟩) := by
  have hfirst : Canonical ⟨"/p/".toList⟩ := ⟨"/p".toList, false, rfl, rfl⟩
  have hsecond : Canonical ⟨"/p-2/".toList⟩ :=
    ⟨"/p-2".toList, false, rfl, rfl⟩
  have horder := path_order tokenize_ends hfirst hsecond hsecond
  exact ⟨by decide, by decide, horder.2.2.2.2.2.1⟩

end LocalPath

end TabFtp
