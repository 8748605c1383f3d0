import TabFtp.DelimitedText
import TabFtp.QueueItems
import TabFtp.SegmentStack
import TabFtp.ServerPathOrder

/-!
# Local paths on POSIX

`CLocalPath::SetPath` reads the characters of a path into a buffer and goes
back to the beginning of a segment whenever it has read a dot or two dots, or
a name that is asked for separately.  It stops at a NUL, which ends a C
string.
-/

namespace TabFtp

namespace LocalPath

/-- `_last` -/
inductive LastRead
  | separator | dot | dotdot | segment

/-- The characters in front of `out`, and the beginnings of the segments, the
last one first. -/
structure PathBuffer where
  out : WString
  segments : List ℕ
  last : LastRead

namespace PathBuffer

def back (buffer : PathBuffer) : ℕ := buffer.segments.headD 0

/-- `out = segments.back()` -/
def rewind (buffer : PathBuffer) : PathBuffer :=
  { buffer with out := buffer.out.take buffer.back }

def popSegment (buffer : PathBuffer) : PathBuffer :=
  if 1 < buffer.segments.length then
    { buffer with segments := buffer.segments.tail }
  else buffer

def readSeparator (buffer : PathBuffer) : PathBuffer :=
  match buffer.last with
  | .separator => buffer
  | .dot => { buffer with last := .separator }.rewind
  | .dotdot => { buffer with last := .separator }.popSegment.rewind
  | .segment =>
      let out := buffer.out ++ ['/']
      ⟨out, out.length :: buffer.segments, .separator⟩

def readOther (buffer : PathBuffer) (char : Char) : PathBuffer :=
  let last : LastRead :=
    if char = '.' then
      match buffer.last with
      | .separator => .dot
      | .dot => .dotdot
      | .dotdot | .segment => .segment
    else .segment
  ⟨buffer.out ++ [char], buffer.segments, last⟩

/-- The loop over the characters. -/
def read (buffer : PathBuffer) : WString → PathBuffer
  | [] => buffer
  | char :: text =>
      if char = '/' then buffer.readSeparator.read text
      else (buffer.readOther char).read text

def finish (buffer : PathBuffer) (file : Bool) :
    WString × Option WString :=
  match buffer.last with
  | .separator => (buffer.out, none)
  | .dot => (buffer.rewind.out, none)
  | .dotdot => (buffer.popSegment.rewind.out, none)
  | .segment =>
      if file then
        (buffer.rewind.out, some (buffer.out.drop buffer.back))
      else (buffer.out ++ ['/'], none)

/-- The root, from which every path starts. -/
def root : PathBuffer := ⟨['/'], [1], .separator⟩

end PathBuffer

/-- The path, the result, and what is written to `file`, if anything. -/
structure PathSet where
  path : LocalPath
  result : Bool
  file : Option WString
  deriving DecidableEq

def setPath (path : WString) (file : Bool) : PathSet :=
  if path.isEmpty then ⟨⟨[]⟩, false, none⟩
  else
    match WString.cString path with
    | '/' :: text =>
        let read := (PathBuffer.root.read text).finish file
        ⟨⟨read.1⟩, true, read.2⟩
    -- only absolute paths are accepted
    | _ => ⟨⟨[]⟩, false, none⟩

def changePath (path : LocalPath) (newPath : WString) (file : Bool) :
    PathSet :=
  if newPath.isEmpty then ⟨path, false, none⟩
  else if newPath.head? = some '/' then setPath newPath file
  else if path.path.isEmpty then ⟨path, false, none⟩
  else setPath (path.path ++ newPath) file

/-! ## The reference -/

def kindOf : WString → SegmentStack.Kind
  | [] | ['.'] => .stay
  | ['.', '.'] => .up
  | _ => .down

/-- The segments that an absolute path stands for, and in file mode the name
behind the last separator, unless it is empty or made of one or two dots. -/
def normalise (text : WString) (file : Bool) :
    Option (List WString × Option WString) :=
  match text with
  | '/' :: text =>
      let pieces := text.splitOn '/'
      let name := pieces.getLastD []
      if file ∧ kindOf name = .down then
        some (SegmentStack.resolve kindOf pieces.dropLast, some name)
      else some (SegmentStack.resolve kindOf pieces, none)
  | _ => none

/-- `/`, and each segment with a separator behind it. -/
def render (segments : List WString) : WString :=
  '/' :: segments.flatMap (· ++ ['/'])

/-! ## The buffer -/

namespace PathBuffer

/-- The directory with these segments, the last one first, as it stands in
the buffer. -/
def written : List WString → WString
  | [] => ['/']
  | segment :: segments => written segments ++ segment ++ ['/']

def starts : List WString → List ℕ
  | [] => [1]
  | segment :: segments =>
      (written (segment :: segments)).length :: starts segments

def lastOf : WString → LastRead
  | [] => .separator
  | ['.'] => .dot
  | ['.', '.'] => .dotdot
  | _ => .segment

structure Holds (buffer : PathBuffer) (directory : List WString)
    (segment : WString) : Prop where
  out : buffer.out = written directory ++ segment
  segments : buffer.segments = starts directory
  last : buffer.last = lastOf segment

variable {buffer : PathBuffer} {directory : List WString}
  {segment : WString}

theorem root_holds : root.Holds [] [] := ⟨rfl, rfl, rfl⟩

theorem headD_starts (directory : List WString) :
    (starts directory).headD 0 = (written directory).length := by
  cases directory with
  | nil => rfl
  | cons segment segments => rfl

theorem Holds.rewind (hholds : buffer.Holds directory segment) :
    buffer.rewind.out = written directory := by
  unfold PathBuffer.rewind back
  rw [hholds.segments, headD_starts, hholds.out, List.take_left]

theorem Holds.name (hholds : buffer.Holds directory segment) :
    buffer.out.drop buffer.back = segment := by
  unfold back
  rw [hholds.segments, headD_starts, hholds.out, List.drop_left]

theorem popSegment_segments (buffer : PathBuffer)
    (hsegments : buffer.segments = starts directory) :
    buffer.popSegment.segments = starts directory.tail := by
  unfold popSegment
  rw [hsegments]
  cases directory with
  | nil => exact hsegments
  | cons first rest =>
      have hlength : 1 < (starts (first :: rest)).length := by
        cases rest <;> simp [starts]
      rw [if_pos hlength]
      rfl

theorem popSegment_out : buffer.popSegment.out = buffer.out := by
  unfold popSegment
  split_ifs <;> rfl

theorem popSegment_last : buffer.popSegment.last = buffer.last := by
  unfold popSegment
  split_ifs <;> rfl

theorem lastOf_cases (segment : WString) :
    segment = [] ∨ segment = ['.'] ∨ segment = ['.', '.'] ∨
      lastOf segment = .segment ∧ kindOf segment = .down := by
  match segment with
  | [] => exact .inl rfl
  | [first] =>
      by_cases hfirst : first = '.'
      · exact .inr (.inl (by rw [hfirst]))
      · refine .inr (.inr (.inr ⟨?_, ?_⟩))
        · unfold lastOf
          simp [hfirst]
        · unfold kindOf
          simp [hfirst]
  | [first, second] =>
      by_cases hboth : first = '.' ∧ second = '.'
      · exact .inr (.inr (.inl (by rw [hboth.1, hboth.2])))
      · refine .inr (.inr (.inr ⟨?_, ?_⟩))
        · unfold lastOf
          simp only [not_and] at hboth
          split <;> simp_all
        · unfold kindOf
          simp only [not_and] at hboth
          split <;> simp_all
  | _ :: _ :: _ :: _ =>
      exact .inr (.inr (.inr ⟨by simp [lastOf], by simp [kindOf]⟩))

theorem Holds.readSeparator (hholds : buffer.Holds directory segment) :
    buffer.readSeparator.Holds
      (SegmentStack.enter kindOf directory segment) [] := by
  have hrewind := hholds.rewind
  unfold PathBuffer.readSeparator
  rcases lastOf_cases segment with rfl | rfl | rfl | ⟨hlast, hkind⟩
  · rw [hholds.last]
    exact hholds
  · rw [hholds.last]
    refine ⟨?_, hholds.segments, rfl⟩
    rw [List.append_nil]
    exact hrewind
  · rw [hholds.last]
    have hsegments := popSegment_segments
      { buffer with last := .separator } hholds.segments
    refine ⟨?_, hsegments, popSegment_last⟩
    unfold PathBuffer.rewind back
    rw [hsegments, headD_starts, List.append_nil, popSegment_out]
    change buffer.out.take _ = written directory.tail
    rw [hholds.out]
    cases directory with
    | nil => rfl
    | cons first rest =>
        rw [List.tail_cons, written, List.append_assoc, List.append_assoc,
          List.take_left]
  · rw [hholds.last, hlast]
    have hout : buffer.out ++ ['/'] = written (segment :: directory) := by
      rw [hholds.out, written]
    unfold SegmentStack.enter
    rw [hkind]
    constructor
    · rw [List.append_nil]
      exact hout
    · simp only [hout, hholds.segments, starts]
    · rfl

theorem lastOf_append (segment : WString) (char : Char) :
    lastOf (segment ++ [char]) =
      if char = '.' then
        match lastOf segment with
        | .separator => .dot
        | .dot => .dotdot
        | .dotdot | .segment => .segment
      else .segment := by
  rcases lastOf_cases segment with rfl | rfl | rfl | ⟨hlast, _⟩
  · by_cases hchar : char = '.'
    · rw [hchar]
      rfl
    · rw [if_neg hchar]
      simp [lastOf, hchar]
  · by_cases hchar : char = '.'
    · rw [hchar]
      rfl
    · rw [if_neg hchar]
      simp [lastOf, hchar]
  · by_cases hchar : char = '.'
    · rw [hchar]
      rfl
    · rw [if_neg hchar]
      rfl
  · rw [hlast, ite_self]
    match segment with
    | [] => cases hlast
    | [first] =>
        have hfirst : first ≠ '.' := by
          rintro rfl
          cases hlast
        simp [lastOf, hfirst]
    | _ :: _ :: _ => simp [lastOf]

theorem Holds.readOther (hholds : buffer.Holds directory segment)
    (char : Char) :
    (buffer.readOther char).Holds directory (segment ++ [char]) where
  out := by
    unfold PathBuffer.readOther
    rw [hholds.out, List.append_assoc]
  segments := hholds.segments
  last := by
    unfold PathBuffer.readOther
    rw [lastOf_append, hholds.last]

theorem Holds.read (hholds : buffer.Holds directory segment)
    (hsegment : '/' ∉ segment) (text : WString) :
    (buffer.read text).Holds
      (SegmentStack.enterAll kindOf directory
        ((segment ++ text).splitOn '/').dropLast)
      (((segment ++ text).splitOn '/').getLastD []) := by
  induction text generalizing buffer directory segment with
  | nil =>
      rw [List.append_nil, List.splitOn_eq_singleton hsegment]
      exact hholds
  | cons char text ih =>
      unfold PathBuffer.read
      by_cases hchar : char = '/'
      · subst hchar
        have hnext := ih hholds.readSeparator List.not_mem_nil
        have hpieces : (text.splitOn '/') ≠ [] :=
          List.splitOn_ne_nil _ _
        rw [if_pos rfl,
          List.splitOn_append_cons_self_of_not_mem hsegment,
          List.dropLast_cons_of_ne_nil hpieces]
        cases hsplit : text.splitOn '/' with
        | nil => exact absurd hsplit hpieces
        | cons piece pieces =>
            rw [List.nil_append, hsplit] at hnext
            exact hnext
      · have hfree : '/' ∉ segment ++ [char] := by
          simp only [List.mem_append, List.mem_singleton, not_or]
          exact ⟨hsegment, fun h => hchar h.symm⟩
        have hnext := ih (hholds.readOther char) hfree
        rw [List.append_assoc, List.singleton_append] at hnext
        rw [if_neg hchar]
        exact hnext

theorem Holds.finish (hholds : buffer.Holds directory segment)
    (file : Bool) :
    buffer.finish file =
      if file ∧ kindOf segment = .down then
        (written directory, some segment)
      else (written (SegmentStack.enter kindOf directory segment), none) := by
  have hrewind := hholds.rewind
  unfold PathBuffer.finish
  rcases lastOf_cases segment with rfl | rfl | rfl | ⟨hlast, hkind⟩
  · rw [hholds.last, hholds.out, List.append_nil]
    simp [lastOf, kindOf, SegmentStack.enter]
  · rw [hholds.last]
    simp [lastOf, kindOf, SegmentStack.enter, hrewind]
  · have hseparator := hholds.readSeparator
    have hout := hseparator.out
    unfold PathBuffer.readSeparator at hout
    rw [hholds.last, List.append_nil] at hout
    rw [hholds.last]
    have hsame : buffer.popSegment.rewind.out =
        ({ buffer with last := .separator } :
          PathBuffer).popSegment.rewind.out := by
      unfold PathBuffer.rewind back popSegment
      split_ifs <;> rfl
    simp only [lastOf, kindOf]
    rw [if_neg (by simp), hsame]
    exact congrArg (·, none) hout
  · rw [hholds.last, hlast]
    cases file with
    | true =>
        simp only [if_true, hkind, and_self, hrewind, hholds.name]
    | false =>
        simp [SegmentStack.enter, hkind, written, hholds.out]

end PathBuffer

/-! ## The path that is set -/

theorem written_eq (directory : List WString) :
    PathBuffer.written directory = render directory.reverse := by
  induction directory with
  | nil => rfl
  | cons segment directory ih =>
      unfold PathBuffer.written
      rw [ih, List.reverse_cons]
      simp [render, List.flatMap_append]

theorem normalise_of_relative {text : WString}
    (hrelative : ∀ rest, text ≠ '/' :: rest) (file : Bool) :
    normalise text file = none := by
  unfold normalise
  split
  · rename_i rest
    exact absurd rfl (hrelative rest)
  · rfl

/-- `SetPath` is normalisation up to the first NUL. -/
theorem setPath_eq (path : WString) (file : Bool) :
    setPath path file =
      match normalise (WString.cString path) file with
      | none => ⟨⟨[]⟩, false, none⟩
      | some (segments, name) => ⟨⟨render segments⟩, true, name⟩ := by
  unfold setPath
  by_cases hempty : path.isEmpty = true
  · rw [if_pos hempty, List.isEmpty_iff.mp hempty]
    rfl
  · rw [if_neg hempty]
    by_cases habsolute : ∃ text, WString.cString path = '/' :: text
    · obtain ⟨text, htext⟩ := habsolute
      have hread := PathBuffer.root_holds.read List.not_mem_nil text
      have hpieces : text.splitOn '/' ≠ [] := List.splitOn_ne_nil _ _
      have hall : SegmentStack.enter kindOf
          (SegmentStack.enterAll kindOf [] (text.splitOn '/').dropLast)
            ((text.splitOn '/').getLastD []) =
          SegmentStack.enterAll kindOf [] (text.splitOn '/') := by
        conv_rhs => rw [← List.dropLast_append_getLast hpieces]
        unfold SegmentStack.enterAll
        rw [List.foldl_append, List.getLastD_eq_getLast?,
          List.getLast?_eq_some_getLast hpieces]
        rfl
      rw [List.nil_append] at hread
      rw [htext]
      unfold normalise
      simp only
      rw [hread.finish file, written_eq, written_eq, hall]
      split_ifs <;> rfl
    · have hrelative : ∀ text, WString.cString path ≠ '/' :: text :=
        fun text htext => habsolute ⟨text, htext⟩
      rw [normalise_of_relative hrelative]
      split
      · rename_i text htext
        exact absurd htext (hrelative text)
      · rfl

/-! ## Canonical paths -/

theorem mem_pieces {text piece : WString}
    (hmem : piece ∈ text.splitOn '/') :
    '/' ∉ piece ∧ ∀ char ∈ piece, char ∈ text :=
  DelimitedText.mem_splitOn hmem

structure PlainSegment (segment : WString) : Prop where
  down : kindOf segment = .down
  noSeparator : '/' ∉ segment
  noNul : '\x00' ∉ segment

theorem splitOn_render {segments : List WString}
    (hfree : ∀ segment ∈ segments, '/' ∉ segment) :
    (segments.flatMap (· ++ ['/'])).splitOn '/' = segments ++ [[]] := by
  induction segments with
  | nil => rfl
  | cons segment segments ih =>
      have hfirst := hfree segment List.mem_cons_self
      rw [List.flatMap_cons, List.append_assoc, List.singleton_append,
        List.splitOn_append_cons_self_of_not_mem hfirst,
        ih fun other hmem => hfree other (List.mem_cons_of_mem _ hmem)]
      rfl

theorem cString_render {segments : List WString}
    (hplain : ∀ segment ∈ segments, PlainSegment segment) :
    WString.cString (render segments) = render segments := by
  apply List.takeWhile_eq_self_iff.mpr
  intro char hchar
  have hne : char ≠ '\x00' := by
    rintro rfl
    rcases List.mem_cons.mp hchar with hslash | hrest
    · exact absurd hslash (by decide)
    · obtain ⟨segment, hsegment, hin⟩ := List.mem_flatMap.mp hrest
      rcases List.mem_append.mp hin with hname | hslash
      · exact (hplain segment hsegment).noNul hname
      · exact absurd (List.mem_singleton.mp hslash) (by decide)
  simpa using hne

theorem setPath_render {segments : List WString}
    (hplain : ∀ segment ∈ segments, PlainSegment segment) (file : Bool) :
    setPath (render segments) file = ⟨⟨render segments⟩, true, none⟩ := by
  have hresolve : SegmentStack.resolve kindOf (segments ++ [[]]) =
      segments := by
    have hdown : SegmentStack.enterAll kindOf [] segments =
        segments.reverse ++ [] := SegmentStack.enterAll_of_down
      fun segment hmem => (hplain segment hmem).down
    unfold SegmentStack.resolve SegmentStack.enterAll at *
    rw [List.foldl_append, hdown]
    simp [SegmentStack.enter, kindOf]
  rw [setPath_eq, cString_render hplain]
  unfold normalise render
  simp only [splitOn_render fun segment hmem => (hplain segment hmem).2]
  rw [if_neg (by simp [kindOf]), hresolve]

theorem normalise_plain {text : WString} {file : Bool}
    {segments : List WString} {name : Option WString}
    (hnul : '\x00' ∉ text)
    (hnormal : normalise text file = some (segments, name)) :
    ∀ segment ∈ segments, PlainSegment segment := by
  have hresolved : ∀ rest pieces, text = '/' :: rest →
      (∀ piece ∈ pieces, piece ∈ rest.splitOn '/') →
      ∀ segment ∈ SegmentStack.resolve kindOf pieces,
        PlainSegment segment := by
    intro rest pieces htext hpieces segment hmem
    obtain ⟨hin, hdown⟩ := SegmentStack.mem_resolve hmem
    obtain ⟨hfree, hchars⟩ := mem_pieces (hpieces segment hin)
    refine ⟨hdown, hfree, fun hzero => hnul ?_⟩
    rw [htext]
    exact List.mem_cons_of_mem _ (hchars _ hzero)
  unfold normalise at hnormal
  split at hnormal
  · rename_i rest
    dsimp only at hnormal
    split_ifs at hnormal
    · cases hnormal
      exact hresolved rest _ rfl fun piece hmem =>
        List.mem_of_mem_dropLast hmem
    · cases hnormal
      exact hresolved rest _ rfl fun piece hmem => hmem
  · cases hnormal

/-- The path can be the result of `SetPath`. -/
def Canonical (path : LocalPath) : Prop :=
  ∃ text file, (setPath text file).result = true ∧
    (setPath text file).path = path

theorem Canonical.segments {path : LocalPath} (hcanonical : path.Canonical) :
    ∃ segments, path = ⟨render segments⟩ ∧
      ∀ segment ∈ segments, PlainSegment segment := by
  obtain ⟨text, file, hresult, hpath⟩ := hcanonical
  rw [setPath_eq] at hresult hpath
  cases hnormal : normalise (WString.cString text) file with
  | none =>
      rw [hnormal] at hresult
      cases hresult
  | some normal =>
      obtain ⟨segments, name⟩ := normal
      have hnul : '\x00' ∉ WString.cString text := by
        intro hmem
        have hkept := List.mem_takeWhile_imp hmem
        simp at hkept
      rw [hnormal] at hpath
      exact ⟨segments, hpath.symm, normalise_plain hnul hnormal⟩

theorem Canonical.setPath {path : LocalPath} (hcanonical : path.Canonical)
    (file : Bool) : setPath path.path file = ⟨path, true, none⟩ := by
  obtain ⟨segments, hpath, hplain⟩ := hcanonical.segments
  rw [hpath]
  exact setPath_render hplain file

theorem setPath_result_iff (path : WString) (file : Bool) :
    (setPath path file).result = true ↔
      (WString.cString path).head? = some '/' := by
  rw [setPath_eq]
  cases htext : WString.cString path with
  | nil => simp [normalise]
  | cons first rest =>
      by_cases hfirst : first = '/'
      · subst hfirst
        unfold normalise
        simp only
        split_ifs <;> simp
      · have hrelative : ∀ text, first :: rest ≠ '/' :: text := by
          intro text heq
          exact hfirst (List.cons.inj heq).1
        rw [normalise_of_relative hrelative]
        simpa using hfirst

/-- Setting a path normalises the text in front of its first NUL, a path that
has been set stays as it is, and a relative path goes on from the path. -/
theorem setPath_normalises (path : WString) (file : Bool)
    {canonical : LocalPath} (hcanonical : canonical.Canonical)
    {newPath : WString} (hnew : newPath ≠ [])
    (hrelative : newPath.head? ≠ some '/') :
    ((LocalPath.setPath path file).result = true ↔
        (WString.cString path).head? = some '/') ∧
      LocalPath.setPath path file =
        (match normalise (WString.cString path) file with
        | none => ⟨⟨[]⟩, false, none⟩
        | some (segments, name) => ⟨⟨render segments⟩, true, name⟩) ∧
      ((LocalPath.setPath path file).result = true →
        ∀ asFile, LocalPath.setPath (LocalPath.setPath path file).path.path
            asFile =
          ⟨(LocalPath.setPath path file).path, true, none⟩) ∧
      canonical.changePath newPath file =
        LocalPath.setPath (canonical.path ++ newPath) file := by
  refine ⟨setPath_result_iff path file, setPath_eq path file, ?_, ?_⟩
  · intro hresult asFile
    have hset : Canonical (LocalPath.setPath path file).path :=
      ⟨path, file, hresult, rfl⟩
    exact hset.setPath asFile
  · have hpath : canonical.path.isEmpty = false := by
      obtain ⟨segments, hsegments, _⟩ := hcanonical.segments
      rw [hsegments]
      rfl
    unfold changePath
    rw [if_neg (by simpa using hnew), if_neg hrelative,
      if_neg (by rw [hpath]; exact Bool.false_ne_true)]

/-- A path with dots, empty segments and parents is the root directory. -/
theorem setPath_normalises_root :
    LocalPath.setPath "/a/./..//b/..".toList false = ⟨⟨['/']⟩, true, none⟩ ∧
      Canonical ⟨['/']⟩ ∧
      changePath ⟨['/']⟩ "b/..".toList false =
        LocalPath.setPath (['/'] ++ "b/..".toList) false := by
  have hroot : Canonical ⟨['/']⟩ := ⟨['/'], false, rfl, rfl⟩
  have hnew : "b/..".toList ≠ [] := by decide
  have hrelative : "b/..".toList.head? ≠ some '/' := by decide
  have hboth := setPath_normalises "/a/./..//b/..".toList false hroot hnew
    hrelative
  exact ⟨by decide, hroot, hboth.2.2.2⟩

/-- A NUL ends the path, and an empty text does not name the directory
itself. -/
theorem setPath_not_normalises :
    (normalise "/a\x00b".toList false =
        some (["a\x00b".toList], none) ∧
      LocalPath.setPath "/a\x00b".toList false ≠
        ⟨⟨render ["a\x00b".toList]⟩, true, none⟩) ∧
      Canonical ⟨['/']⟩ ∧
      changePath ⟨['/']⟩ [] false ≠
        LocalPath.setPath (['/'] ++ []) false := by
  refine ⟨⟨?_, by decide⟩, ⟨['/'], false, rfl, rfl⟩, by decide⟩
  have hpieces : "a\x00b".toList.splitOn '/' = ["a\x00b".toList] :=
    List.splitOn_eq_singleton (by decide)
  change normalise ('/' :: "a\x00b".toList) false = _
  unfold normalise
  simp only [hpieces]
  decide

end LocalPath

end TabFtp
