import TabFtp.ServerPathRoundTrip

/-!
# File names under a server path

`FormatFilename` prints a path with a file in it, and `SetPath` in file mode
reads both back.  Only a path whose type is still to be detected is not read
back, because the printed text decides its type.
-/

namespace TabFtp

open DelimitedText

namespace ServerPath

/-! ## Changing and setting a path in file mode -/

/-- `ChangePath` in file mode. -/
def changeFilePath (path : ServerPath) (subdir : WString) :
    ServerPath × WString × Bool :=
  match path.doChangePath subdir true with
  | none => (path.clear, subdir, false)
  | some (path, file) => (path, file, true)

/-- `SetPath` in file mode.  The text becomes the file if that succeeds. -/
def setFilePath (path : ServerPath) (newPath : WString) :
    ServerPath × WString × Bool :=
  if newPath.isEmpty then (path, newPath, false)
  else
    let type :=
      if path.type = .default then detectType newPath true else path.type
    let changed := (blank type).changeFilePath newPath
    if changed.2.2 then changed else (changed.1, newPath, false)

/-! ## Printing a file name -/

def separateFile (type : ServerType) (text : WString) : WString :=
  if text.getLast?.any fun char => !isSeparator type char then
    text ++ [separator type]
  else text

def formatFilename (path : ServerPath) (filename : WString)
    (omitPath : Bool) : WString :=
  match path.data with
  | none => filename
  | some data =>
      let traits := traits path.type
      let enclosed :=
        traits.leftEnclosure.isSome && traits.filenameInsideEnclosure
      if filename.isEmpty then filename
      else if omitPath &&
          (traits.prefixmode = 0 || data.pathPrefix = some ['.']) then
        filename
      else
        let result := path.getPath
        let result := if enclosed then result.dropLast else result
        let result :=
          match path.type with
          | .vxworks =>
              if data.segments.isEmpty then result
              else separateFile path.type result
          | .vms | .mvs => result
          | _ => separateFile path.type result
        let result :=
          if traits.prefixmode = 1 && data.pathPrefix.isNone then
            result ++ '(' :: (filename ++ [')'])
          else result ++ filename
        if enclosed then result ++ traits.rightEnclosure.toList else result

/-! ## File names that can be read back -/

/-- No separators, enclosures or parentheses of the type, and not special. -/
structure GoodFilename (type : ServerType) (filename : WString) : Prop where
  nonempty : filename ≠ []
  free : Free (isSeparator type) filename
  enclosures : ∀ char ∈ filename,
    (traits type).leftEnclosure ≠ some char ∧
      (traits type).rightEnclosure ≠ some char
  parentheses : type = .mvs → '(' ∉ filename ∧ ')' ∉ filename
  dots : filename ≠ ['.'] ∧ filename ≠ ['.', '.']

/-- What a path needs so that a file in it is read back. -/
def NoParentheses (path : ServerPath) : Prop :=
  path.type = .mvs → ∀ data, path.data = some data →
    ∀ segment ∈ data.segments, '(' ∉ segment ∧ ')' ∉ segment

variable {type : ServerType} {data : ServerPathData}
  {segments : List WString} {filename front : WString}

theorem rtakeWhile_append
    {keep : Char → Bool} (hkeep : ∀ char ∈ filename, keep char = true)
    (hfront : front.rtakeWhile keep = []) :
    (front ++ filename).rtakeWhile keep = filename := by
  unfold List.rtakeWhile at hfront ⊢
  rw [List.reverse_eq_nil_iff] at hfront
  rw [List.reverse_append, List.takeWhile_append_of_pos, hfront,
    List.append_nil, List.reverse_reverse]
  intro char hmem
  exact hkeep char (List.mem_reverse.mp hmem)

def Separates (type : ServerType) (front : WString) : Prop :=
  front = [] ∨ ∃ before last, front = before ++ [last] ∧
    isSeparator type last = true

theorem extractFile_append
    (hfree : Free (isSeparator type) filename) (hne : filename ≠ [])
    (hfront : Separates type front) :
    extractFile type (front ++ filename) = some (front, filename) := by
  have hstop : front.rtakeWhile (fun char => !isSeparator type char) = [] := by
    rcases hfront with rfl | ⟨before, last, rfl, hlast⟩
    · rfl
    · rw [List.rtakeWhile_concat_neg]
      simp [hlast]
  have hfile := @rtakeWhile_append filename front
    (fun char => !isSeparator type char)
    (fun char hmem => by simp [hfree char hmem]) hstop
  unfold extractFile
  simp only [hfile]
  rw [show (front ++ filename).length - filename.length = front.length by simp,
    List.take_left]
  simp [hne]

theorem segmentizeInto_file
    (pathPrefix : Option WString)
    (hfree : Free (isSeparator type) filename) (hne : filename ≠ [])
    (hfront : Separates type front)
    (hread : segmentize type front [] = some segments) :
    segmentizeInto type true ⟨[], pathPrefix⟩ (front ++ filename) =
      some (⟨segments, pathPrefix⟩, filename) := by
  unfold segmentizeInto
  rw [if_pos rfl, extractFile_append hfree hne hfront]
  simp [hread]

def directoryBody (type : ServerType) (segments : List WString) : WString :=
  if segments.isEmpty then []
  else body type segments ++ [separator type]

theorem directoryBody_separates (type : ServerType)
    (segments : List WString) :
    Separates type (directoryBody type segments) := by
  unfold directoryBody
  split_ifs
  · exact Or.inl rfl
  · exact Or.inr ⟨_, _, rfl, separator_isSeparator type⟩

theorem segmentize_directoryBody
    (hescape : (traits type).separatorEscape = none)
    (hgood : ∀ segment ∈ segments, GoodSegment type segment) :
    segmentize type (directoryBody type segments) [] = some segments := by
  unfold directoryBody
  by_cases hnil : segments = []
  · subst hnil
    rfl
  · rw [if_neg (by simpa using hnil)]
    exact segmentize_body_separator hescape hgood

theorem body_getLast
    (hescape : (traits type).separatorEscape = none)
    (hgood : ∀ segment ∈ segments, GoodSegment type segment)
    (hsegments : segments ≠ []) :
    ∃ before last, body type segments = before ++ [last] ∧
      isSeparator type last = false := by
  obtain ⟨before, segment, rfl⟩ :=
    (List.eq_nil_or_concat' segments).resolve_left hsegments
  obtain ⟨hne, hfree⟩ := (hgood segment (by simp)).free hescape
  have hlast : (body type (before ++ [segment])).getLast? =
      segment.getLast? := by
    unfold body
    rw [map_escapeSeparators_plain hescape]
    exact join_concat_getLast _ before hne
  obtain ⟨inside, last, rfl⟩ :=
    (List.eq_nil_or_concat' segment).resolve_left hne
  rw [List.getLast?_concat, List.getLast?_eq_some_iff] at hlast
  obtain ⟨text, htext⟩ := hlast
  exact ⟨text, last, htext, hfree last (by simp)⟩

theorem separateFile_body
    (hescape : (traits type).separatorEscape = none)
    (hgood : ∀ segment ∈ segments, GoodSegment type segment)
    (hsegments : segments ≠ []) (start : WString) :
    separateFile type (start ++ body type segments) =
      start ++ directoryBody type segments := by
  obtain ⟨before, last, hbody, hlast⟩ :=
    body_getLast hescape hgood hsegments
  have hnil : ¬ segments.isEmpty = true := by simpa using hsegments
  unfold separateFile directoryBody
  simp only [if_neg hnil, hbody, ← List.append_assoc, List.getLast?_concat]
  simp [hlast]

theorem separateFile_separator {char : Char}
    (hchar : isSeparator type char = true) (start : WString) :
    separateFile type (start ++ [char]) = start ++ [char] := by
  unfold separateFile
  rw [List.getLast?_concat]
  simp [hchar]

theorem Separates.cons (hfront : Separates type front) :
    Separates type (separator type :: front) := by
  rcases hfront with rfl | ⟨before, last, rfl, hlast⟩
  · exact Or.inr ⟨[], separator type, rfl, separator_isSeparator type⟩
  · exact Or.inr ⟨separator type :: before, last, rfl, hlast⟩

theorem directoryBody_not_separator
    (hescape : (traits type).separatorEscape = none)
    (hgood : ∀ segment ∈ segments, GoodSegment type segment)
    (hfile : GoodFilename type filename) :
    startsWithSeparator type (directoryBody type segments ++ filename) =
      false := by
  unfold directoryBody
  by_cases hnil : segments = []
  · subst hnil
    have hstart := not_startsWithSeparator ⟨hfile.nonempty, hfile.free⟩ []
    simpa using hstart
  · rw [if_neg (by simpa using hnil), List.append_assoc]
    exact body_not_separator hescape hgood hnil _

/-! ## Reading a file name, type by type -/

theorem segmentizeInto_directoryBody
    (hescape : (traits type).separatorEscape = none)
    (hgood : ∀ segment ∈ segments, GoodSegment type segment)
    (hfile : GoodFilename type filename) (pathPrefix : Option WString) :
    segmentizeInto type true ⟨[], pathPrefix⟩
        (directoryBody type segments ++ filename) =
      some (⟨segments, pathPrefix⟩, filename) :=
  segmentizeInto_file pathPrefix hfile.free hfile.nonempty
    (directoryBody_separates type segments)
    (segmentize_directoryBody hescape hgood)

theorem segmentizeInto_rootBody
    (hescape : (traits type).separatorEscape = none)
    (hgood : ∀ segment ∈ segments, GoodSegment type segment)
    (hfile : GoodFilename type filename) (pathPrefix : Option WString) :
    segmentizeInto type true ⟨[], pathPrefix⟩
        (separator type :: directoryBody type segments ++ filename) =
      some (⟨segments, pathPrefix⟩, filename) := by
  apply segmentizeInto_file pathPrefix hfile.free hfile.nonempty
    (directoryBody_separates type segments).cons
  rw [segmentize_cons_separator]
  exact segmentize_directoryBody hescape hgood

theorem separateFile_root
    (hescape : (traits type).separatorEscape = none)
    (hgood : ∀ segment ∈ segments, GoodSegment type segment)
    (start : WString) :
    separateFile type (start ++ separator type :: body type segments) =
      start ++ separator type :: directoryBody type segments := by
  by_cases hnil : segments = []
  · subst hnil
    exact separateFile_separator (separator_isSeparator type) start
  · have hseparate := separateFile_body hescape hgood hnil
      (start ++ [separator type])
    simpa using hseparate

theorem changeRooted_file
    (hescape : (traits type).separatorEscape = none)
    (hgood : ∀ segment ∈ segments, GoodSegment type segment)
    (hfile : GoodFilename type filename) :
    changeRooted type true true ⟨[], none⟩
        (separator type :: directoryBody type segments ++ filename) =
      some (⟨segments, none⟩, filename) := by
  unfold changeRooted
  rw [if_pos (by simp [startsWithSeparator, separator_isSeparator])]
  exact segmentizeInto_rootBody hescape hgood hfile none

theorem changeCygwin_file
    {pathPrefix : Option WString}
    (hgood : GoodData .cygwin ⟨segments, pathPrefix⟩)
    (hfile : GoodFilename .cygwin filename) :
    changeCygwin true true ⟨[], none⟩ (pathPrefix.getD [] ++
        '/' :: directoryBody .cygwin segments ++ filename) =
      some (⟨segments, pathPrefix⟩, filename) := by
  have hread := segmentizeInto_rootBody rfl hgood.segments hfile
  have hsecond := directoryBody_not_separator rfl hgood.segments hfile
  unfold changeCygwin
  rcases hgood.pathPrefix with hnone | hserver
  · simp only at hnone
    subst hnone
    have hnext : (directoryBody .cygwin segments ++ filename).head? ≠
        some '/' := by
      intro hhead
      rw [startsWithSeparator, hhead] at hsecond
      cases hsecond
    have hstart : startsWithSeparator .cygwin
        ('/' :: (directoryBody .cygwin segments ++ filename)) = true := rfl
    simp only [Option.getD_none, List.nil_append, List.cons_append, hstart,
      if_true]
    rw [if_neg (by simpa using hnext)]
    exact hread none
  · simp only at hserver
    subst hserver
    have hstart : startsWithSeparator .cygwin
        ('/' :: '/' :: (directoryBody .cygwin segments ++ filename)) =
        true := rfl
    simp only [Option.getD_some, List.cons_append, List.nil_append, hstart,
      if_true]
    rw [if_pos (by simp)]
    exact hread (some ['/'])

theorem changeDos_file
    (htype : type = .dos ∨ type = .dosFwdSlashes)
    (hgood : ∀ segment ∈ segments, GoodSegment type segment)
    (hsegments : segments ≠ []) (hfile : GoodFilename type filename) :
    changeDos type true true ⟨[], none⟩
        (directoryBody type segments ++ filename) =
      some (⟨segments, none⟩, filename) := by
  have hescape : (traits type).separatorEscape = none := by
    rcases htype with rfl | rfl <;> rfl
  have hread := segmentizeInto_directoryBody hescape hgood hfile none
  unfold changeDos
  rw [directoryBody_not_separator hescape hgood hfile]
  simp only [hread, unlessStillEmpty_of_segments hsegments, ite_self,
    Bool.false_eq_true, if_false]

theorem changeHpnonstop_file
    (hgood : ∀ segment ∈ segments, GoodSegment .hpnonstop segment)
    (hsegments : segments ≠ []) (hfile : GoodFilename .hpnonstop filename) :
    changeHpnonstop true true ⟨[], none⟩
        (directoryBody .hpnonstop segments ++ filename) =
      some (⟨segments, none⟩, filename) := by
  unfold changeHpnonstop
  simp only [ite_self]
  rw [segmentizeInto_directoryBody rfl hgood hfile none,
    unlessStillEmpty_of_segments hsegments]

theorem changeVxworks_file
    {device : WString} (hdevice : device ≠ []) (hcolon : ':' ∉ device)
    (hgood : ∀ segment ∈ segments, GoodSegment .vxworks segment)
    (hfile : GoodFilename .vxworks filename) :
    changeVxworks true true ⟨[], none⟩ (':' :: (device ++
        ':' :: (directoryBody .vxworks segments ++ filename))) =
      some (⟨segments, some (':' :: (device ++ [':']))⟩, filename) := by
  have hread := segmentizeInto_directoryBody rfl hgood hfile
  generalize directoryBody .vxworks segments ++ filename = rest at hread ⊢
  have hfind := find_append hcolon rest
  obtain ⟨length, hlength⟩ :=
    Nat.exists_eq_succ_of_ne_zero (List.length_pos_iff.mpr hdevice).ne'
  rw [hlength] at hfind
  unfold changeVxworks
  simp only [List.head?_cons, ne_eq, not_true_eq_false, if_false,
    List.drop_succ_cons, List.drop_zero, hfind]
  have htake : (device ++ ':' :: rest).take (length + 2) =
      device ++ [':'] := by
    rw [show length + 2 = device.length + 1 by omega, List.take_append]
    simp
  have hdrop : (device ++ ':' :: rest).drop (length + 2) = rest := by
    rw [show length + 2 = device.length + 1 by omega, List.drop_append]
    simp
  simp only [List.take_succ_cons, htake, hdrop]
  exact hread _

theorem rfind_append
    {char : Char} {after : WString} (hafter : char ∉ after)
    (before : WString) :
    WString.rfind char (before ++ char :: after) = some before.length := by
  have hreversed : char ∉ after.reverse := by simpa using hafter
  have hfind := find_append hreversed before.reverse
  unfold WString.rfind
  unfold WString.find at hfind
  rw [List.reverse_append, List.reverse_cons, List.append_assoc,
    List.singleton_append, hfind]
  simp

theorem changeVms_file
    {pathPrefix : Option WString}
    (hgood : GoodData .vms ⟨segments, pathPrefix⟩)
    (hfile : GoodFilename .vms filename) :
    changeVms true true ⟨[], none⟩ (pathPrefix.getD [] ++
        '[' :: (body .vms segments ++ ']' :: filename)) =
      some (⟨segments, pathPrefix⟩, filename) := by
  have hsegments : segments ≠ [] := hgood.nonempty rfl
  have hbody := body_ne_nil hgood.segments hsegments
  have hread := segmentizeInto_of pathPrefix (segmentize_body hgood.segments)
  obtain ⟨hdevice, hkept⟩ := hgood.device
  have hclosing : ']' ∉ filename := by
    intro hmem
    exact (hfile.enclosures ']' hmem).2 rfl
  generalize body .vms segments = inside at *
  generalize pathPrefix.getD [] = device at *
  have hfind := find_append hdevice (inside ++ ']' :: filename)
  have hrfind := rfind_append hclosing (device ++ '[' :: inside)
  have hsplit : device ++ '[' :: (inside ++ ']' :: filename) =
      (device ++ '[' :: inside) ++ ']' :: filename := by simp
  rw [← hsplit] at hrfind
  have hlength : 0 < inside.length := List.length_pos_iff.mpr hbody
  have hfileLength : 0 < filename.length :=
    List.length_pos_iff.mpr hfile.nonempty
  unfold changeVms
  simp only [hfind, hrfind]
  have hlast : ¬ true = decide ((device ++ '[' :: inside).length =
      (device ++ '[' :: (inside ++ ']' :: filename)).length - 1) := by
    intro hsame
    have hend := of_decide_eq_true hsame.symm
    simp only [List.length_append, List.length_cons] at hend
    omega
  rw [if_neg (by simp; omega), if_neg hlast]
  have htake : (device ++ '[' :: (inside ++ ']' :: filename)).take
      (device ++ '[' :: inside).length = device ++ '[' :: inside := by
    rw [hsplit, List.take_left]
  have hdropFile : (device ++ '[' :: (inside ++ ']' :: filename)).drop
      ((device ++ '[' :: inside).length + 1) = filename := by
    rw [hsplit, List.drop_append]
    simp
  have hdrop : (device ++ '[' :: inside).drop (device.length + 1) =
      inside := by
    simp [List.drop_append]
  simp only [if_true, htake, hdropFile, List.take_left, hdrop, hkept, hread,
    unlessStillEmpty_of_segments hsegments, Option.map_some]

theorem not_mem_join
    {char between : Char} (hbetween : char ≠ between)
    {pieces : List WString} (hpieces : ∀ piece ∈ pieces, char ∉ piece) :
    char ∉ join between pieces := by
  cases pieces with
  | nil => simp [join]
  | cons piece pieces =>
      rw [join_cons]
      intro hmem
      rcases List.mem_append.mp hmem with hfirst | hrest
      · exact hpieces piece List.mem_cons_self hfirst
      · obtain ⟨next, hnext, hchar⟩ := List.mem_flatMap.mp hrest
        rcases List.mem_cons.mp hchar with heq | hinside
        · exact hbetween heq
        · exact hpieces next (List.mem_cons_of_mem _ hnext) hinside

theorem changeMvs_directory_file
    (hgood : ∀ segment ∈ segments, GoodSegment .mvs segment)
    (hfile : GoodFilename .mvs filename) :
    changeMvs true true ⟨[], none⟩
        ('\'' :: ((directoryBody .mvs segments ++ filename) ++ ['\''])) =
      some (⟨segments, some ['.']⟩, filename) := by
  have hend : (directoryBody .mvs segments ++ filename).getLast? ≠
      some ')' := by
    rw [List.getLast?_append_of_ne_nil _ hfile.nonempty]
    intro hlast
    exact (hfile.parentheses rfl).2 (List.mem_of_getLast? hlast)
  rw [changeMvs_enclosed]
  unfold changeMvsInside
  rw [if_neg hend]
  exact segmentizeInto_directoryBody rfl hgood hfile (some ['.'])

theorem changeMvs_member_file
    (hgood : ∀ segment ∈ segments, GoodSegment .mvs segment)
    (hparentheses : ∀ segment ∈ segments, '(' ∉ segment)
    (filename : WString) :
    changeMvs true true ⟨[], none⟩
        ('\'' :: ((body .mvs segments ++ '(' :: (filename ++ [')'])) ++
          ['\''])) =
      some (⟨segments, none⟩, filename) := by
  have hread := segmentizeInto_of none (segmentize_body hgood)
  have hopening : '(' ∉ body .mvs segments := by
    unfold body
    rw [map_escapeSeparators_plain rfl]
    exact not_mem_join (by decide) hparentheses
  have hfind := find_append hopening (filename ++ [')'])
  generalize body .mvs segments = inside at *
  have hsplit : inside ++ '(' :: (filename ++ [')']) =
      (inside ++ '(' :: filename) ++ [')'] := by simp
  have hend : (inside ++ '(' :: (filename ++ [')'])).getLast? =
      some ')' := by
    rw [hsplit, List.getLast?_concat]
  have hdrop : (inside ++ '(' :: (filename ++ [')'])).dropLast.drop
      (inside.length + 1) = filename := by
    rw [hsplit, List.dropLast_concat, List.drop_append]
    simp
  rw [changeMvs_enclosed]
  unfold changeMvsInside
  rw [if_pos hend, if_neg (by simp)]
  simp only [hfind, hdrop, List.take_left]
  simp [hread]

/-! ## What `FormatFilename` prints -/

theorem formatFilename_rooted
    (htype : type = .default ∨ type = .unix ∨ type = .zvm ∨
      type = .dosVirtual)
    (hgood : ∀ segment ∈ segments, GoodSegment type segment)
    (hne : filename ≠ []) :
    formatFilename ⟨some ⟨segments, none⟩, type⟩ filename false =
      separator type :: directoryBody type segments ++ filename := by
  have hprint : getPath ⟨some ⟨segments, none⟩, type⟩ =
      separator type :: body type segments := by
    have hsegments := @printSegments_rooted type
      (by rcases htype with rfl | rfl | rfl | rfl <;> rfl) none
      (Or.inl rfl) segments
    rw [← hsegments]
    unfold getPath
    rcases htype with rfl | rfl | rfl | rfl <;> simp [traits]
  have hseparate := separateFile_root
    (by rcases htype with rfl | rfl | rfl | rfl <;> rfl) hgood []
  rw [List.nil_append, ← hprint] at hseparate
  unfold formatFilename
  rcases htype with rfl | rfl | rfl | rfl <;>
    simp [hne, traits, hseparate]

theorem formatFilename_cygwin
    {pathPrefix : Option WString}
    (hgood : ∀ segment ∈ segments, GoodSegment .cygwin segment)
    (hne : filename ≠ []) :
    formatFilename ⟨some ⟨segments, pathPrefix⟩, .cygwin⟩ filename false =
      pathPrefix.getD [] ++ '/' :: directoryBody .cygwin segments ++
        filename := by
  have hprint : getPath ⟨some ⟨segments, pathPrefix⟩, .cygwin⟩ =
      pathPrefix.getD [] ++ '/' :: body .cygwin segments := by
    have hsegments :=
      @printSegments_rooted .cygwin rfl pathPrefix (Or.inr rfl) segments
    unfold getPath
    simp only [hsegments]
    simp [traits, separator]
  have hseparate := separateFile_root rfl hgood (pathPrefix.getD [])
  rw [show separator .cygwin = '/' from rfl, ← hprint] at hseparate
  unfold formatFilename
  simp [hne, traits, hseparate]

theorem formatFilename_dos
    (htype : type = .dos ∨ type = .dosFwdSlashes)
    (hgood : ∀ segment ∈ segments, GoodSegment type segment)
    (hsegments : segments ≠ []) (hne : filename ≠ []) :
    formatFilename ⟨some ⟨segments, none⟩, type⟩ filename false =
      directoryBody type segments ++ filename := by
  have hescape : (traits type).separatorEscape = none := by
    rcases htype with rfl | rfl <;> rfl
  have hprint : getPath ⟨some ⟨segments, none⟩, type⟩ =
      body type segments ++
        if segments.length = 1 then [separator type] else [] := by
    obtain ⟨first, rest, rfl⟩ := List.exists_cons_of_ne_nil hsegments
    unfold getPath
    simp only [printSegments_cons]
    rcases htype with rfl | rfl <;> simp [traits]
  have hseparate : separateFile type
      (getPath ⟨some ⟨segments, none⟩, type⟩) =
      directoryBody type segments := by
    rw [hprint]
    by_cases hone : segments.length = 1
    · rw [if_pos hone, separateFile_separator (separator_isSeparator type)]
      simp [directoryBody, hsegments]
    · rw [if_neg hone, List.append_nil]
      have hbody := separateFile_body hescape hgood hsegments []
      simpa using hbody
  unfold formatFilename
  rcases htype with rfl | rfl <;> simp [hne, traits, hseparate]

theorem formatFilename_hpnonstop
    (hgood : ∀ segment ∈ segments, GoodSegment .hpnonstop segment)
    (hsegments : segments ≠ []) (hne : filename ≠ []) :
    formatFilename ⟨some ⟨segments, none⟩, .hpnonstop⟩ filename false =
      directoryBody .hpnonstop segments ++ filename := by
  have hprint : getPath ⟨some ⟨segments, none⟩, .hpnonstop⟩ =
      body .hpnonstop segments := by
    obtain ⟨first, rest, rfl⟩ := List.exists_cons_of_ne_nil hsegments
    unfold getPath
    simp only [printSegments_cons]
    simp [traits]
  have hseparate := separateFile_body rfl hgood hsegments []
  rw [List.nil_append, ← hprint] at hseparate
  unfold formatFilename
  simp [hne, traits, hseparate]

theorem formatFilename_vxworks
    {device : WString}
    (hgood : ∀ segment ∈ segments, GoodSegment .vxworks segment)
    (hne : filename ≠ []) :
    formatFilename ⟨some ⟨segments, some (':' :: (device ++ [':']))⟩,
        .vxworks⟩ filename false =
      ':' :: (device ++ ':' :: (directoryBody .vxworks segments ++
        filename)) := by
  have hprint : getPath ⟨some ⟨segments, some (':' :: (device ++ [':']))⟩,
      .vxworks⟩ = ':' :: (device ++ [':']) ++ body .vxworks segments := by
    unfold getPath
    cases segments with
    | nil => simp [traits, printSegments, body, join]
    | cons first rest =>
        simp only [printSegments_cons]
        simp [traits]
  unfold formatFilename
  by_cases hnil : segments = []
  · subst hnil
    simp [hne, traits, hprint, directoryBody, body, join]
  · have hseparate := separateFile_body rfl hgood hnil
      (':' :: (device ++ [':']))
    rw [← hprint] at hseparate
    simp [hne, hnil, traits, hseparate]

theorem formatFilename_vms
    {pathPrefix : Option WString} (hsegments : segments ≠ [])
    (hne : filename ≠ []) :
    formatFilename ⟨some ⟨segments, pathPrefix⟩, .vms⟩ filename false =
      pathPrefix.getD [] ++ '[' :: (body .vms segments ++ ']' :: filename) := by
  have hprint : getPath ⟨some ⟨segments, pathPrefix⟩, .vms⟩ =
      pathPrefix.getD [] ++ '[' :: (body .vms segments ++ [']']) := by
    obtain ⟨first, rest, rfl⟩ := List.exists_cons_of_ne_nil hsegments
    unfold getPath
    simp only [printSegments_cons]
    simp [traits]
  unfold formatFilename
  rw [hprint]
  simp [hne, traits]

theorem formatFilename_mvs
    {pathPrefix : Option WString} (hsegments : segments ≠ [])
    (hne : filename ≠ []) :
    formatFilename ⟨some ⟨segments, pathPrefix⟩, .mvs⟩ filename false =
      '\'' :: ((body .mvs segments ++ pathPrefix.getD [] ++
        if pathPrefix.isNone then '(' :: (filename ++ [')'])
        else filename) ++ ['\'']) := by
  have hprint : getPath ⟨some ⟨segments, pathPrefix⟩, .mvs⟩ =
      ('\'' :: (body .mvs segments ++ pathPrefix.getD [])) ++ ['\''] := by
    obtain ⟨first, rest, rfl⟩ := List.exists_cons_of_ne_nil hsegments
    unfold getPath
    simp only [printSegments_cons]
    simp [traits]
  have hopen : (getPath ⟨some ⟨segments, pathPrefix⟩, .mvs⟩).dropLast =
      '\'' :: (body .mvs segments ++ pathPrefix.getD []) := by
    rw [hprint, List.dropLast_concat]
  unfold formatFilename
  cases pathPrefix with
  | none => simp [hne, traits, hopen]
  | some text => simp [hne, traits, hopen]

/-! ## Reading the name back -/

/-- A formatted name is split into its path and its name again. -/
theorem change_formatFilename
    (hgood : GoodData type data) (hfile : GoodFilename type filename)
    (hmembers : NoParentheses ⟨some data, type⟩) :
    changeByType type true true ⟨[], none⟩
        (formatFilename ⟨some data, type⟩ filename false) =
      some (data, filename) := by
  obtain ⟨segments, pathPrefix⟩ := data
  have hsegments := hgood.segments
  have hstart := hgood.pathPrefix
  have hne := hfile.nonempty
  have hrooted : type = .default ∨ type = .unix ∨ type = .zvm ∨
      type = .dosVirtual → pathPrefix = none →
      changeRooted type true true ⟨[], none⟩
          (formatFilename ⟨some ⟨segments, pathPrefix⟩, type⟩ filename false) =
        some (⟨segments, pathPrefix⟩, filename) := by
    rintro htype rfl
    have hescape : (traits type).separatorEscape = none := by
      rcases htype with rfl | rfl | rfl | rfl <;> rfl
    rw [formatFilename_rooted htype hsegments hne]
    exact changeRooted_file hescape hsegments hfile
  cases type with
  | default => exact hrooted (Or.inl rfl) hstart
  | unix => exact hrooted (Or.inr (Or.inl rfl)) hstart
  | zvm => exact hrooted (Or.inr (Or.inr (Or.inl rfl))) hstart
  | dosVirtual => exact hrooted (Or.inr (Or.inr (Or.inr rfl))) hstart
  | vms =>
      rw [formatFilename_vms (hgood.nonempty rfl) hne]
      exact changeVms_file hgood hfile
  | dos =>
      obtain rfl : pathPrefix = none := hstart
      rw [formatFilename_dos (Or.inl rfl) hsegments (hgood.nonempty rfl) hne]
      exact changeDos_file (Or.inl rfl) hsegments (hgood.nonempty rfl) hfile
  | dosFwdSlashes =>
      obtain rfl : pathPrefix = none := hstart
      rw [formatFilename_dos (Or.inr rfl) hsegments (hgood.nonempty rfl) hne]
      exact changeDos_file (Or.inr rfl) hsegments (hgood.nonempty rfl) hfile
  | mvs =>
      have hnonempty : segments ≠ [] := hgood.nonempty rfl
      rw [formatFilename_mvs hnonempty hne]
      rcases hstart with hdot | ⟨hnone, _⟩
      · obtain rfl : pathPrefix = some ['.'] := hdot
        have hread := changeMvs_directory_file hsegments hfile
        unfold directoryBody at hread
        rw [if_neg (by simpa using hnonempty)] at hread
        exact hread
      · obtain rfl : pathPrefix = none := hnone
        have hparentheses : ∀ segment ∈ segments, '(' ∉ segment := by
          intro segment hmem
          exact (hmembers rfl _ rfl segment hmem).1
        have hread := changeMvs_member_file hsegments hparentheses filename
        rw [Option.getD_none, List.append_nil]
        exact hread
  | vxworks =>
      obtain ⟨device, hdevice, hcolon, hdevicePrefix⟩ := hstart
      obtain rfl : pathPrefix = some (':' :: (device ++ [':'])) :=
        hdevicePrefix
      rw [formatFilename_vxworks hsegments hne]
      exact changeVxworks_file hdevice hcolon hsegments hfile
  | hpnonstop =>
      obtain rfl : pathPrefix = none := hstart
      rw [formatFilename_hpnonstop hsegments (hgood.nonempty rfl) hne]
      exact changeHpnonstop_file hsegments (hgood.nonempty rfl) hfile
  | cygwin =>
      rw [formatFilename_cygwin hsegments hne]
      exact changeCygwin_file hgood hfile

theorem formatFilename_ne_nil (hne : filename ≠ []) :
    formatFilename ⟨some data, type⟩ filename false ≠ [] := by
  have hresult : ∀ (front : WString) (member : Bool),
      (if member then front ++ '(' :: (filename ++ [')'])
        else front ++ filename) ≠ [] := by
    intro front member
    cases member <;> simp [hne]
  unfold formatFilename
  simp only [List.isEmpty_iff, hne, if_false, Bool.false_and,
    Bool.false_eq_true]
  intro hnil
  split at hnil
  · exact hresult _ _ (List.append_eq_nil_iff.mp hnil).1
  · exact hresult _ _ hnil

theorem setFilePath_of_change
    {text : WString} (htype : type ≠ .default)
    (hgood : GoodData type data) (hfile : GoodFilename type filename)
    (htext : text ≠ [])
    (hchange : changeByType type true true ⟨[], none⟩ text =
      some (data, filename)) :
    (blank type).setFilePath text = (⟨some data, type⟩, filename, true) := by
  have hroot : ¬ ((!(traits type).hasRoot && data.segments.isEmpty) =
      true) := by
    intro hempty
    simp only [Bool.and_eq_true, Bool.not_eq_true', List.isEmpty_iff] at hempty
    exact hgood.nonempty hempty.1 hempty.2
  have hdots : ¬ (((traits type).hasDots &&
      (filename == ['.', '.'] || filename == ['.'])) = true) := by
    simp [hfile.dots.1, hfile.dots.2]
  have hdo : (blank type).doChangePath text true =
      some (⟨some data, type⟩, filename) := by
    unfold doChangePath
    rw [if_neg (by simpa using htext)]
    simp only [blank, ServerPath.empty, Option.isNone_none, Option.getD_none,
      hchange, if_true]
    exact (if_neg hroot).trans (if_neg hdots)
  have hset : (blank type).changeFilePath text =
      (⟨some data, type⟩, filename, true) := by
    unfold changeFilePath
    rw [hdo]
  unfold setFilePath
  rw [if_neg (by simpa using htext)]
  have htypes : (if (blank type).type = .default then detectType text true
      else (blank type).type) = type := if_neg htype
  simp only [htypes, hset, if_true]

end ServerPath

open ServerPath

/-- A file name under a path is read back in file mode, on a fresh path of its
type, unless that is still to be detected. -/
theorem formatted_filename_reads_back
    {start : ServerType} {path : ServerPath} {filename : WString}
    (hreach : Reachable start path) (hpath : path.empty = false)
    (htype : path.type ≠ .default)
    (hfile : GoodFilename path.type filename) (hmembers : NoParentheses path) :
    (blank path.type).setFilePath (path.formatFilename filename false) =
      (path, filename, true) := by
  obtain ⟨data, type⟩ := path
  cases data with
  | none => cases hpath
  | some data =>
      have hgood := hreach.wellFormed data rfl
      have hchange := change_formatFilename hgood hfile hmembers
      apply setFilePath_of_change htype hgood hfile _ hchange
      exact formatFilename_ne_nil hfile.nonempty

/-- A member of a dataset on MVS. -/
theorem formatted_filename_reads_back_member :
    let dataset := ((blank .mvs).setPath "'A.B'".toList).1
    dataset.formatFilename "M".toList false = "'A.B(M)'".toList ∧
      (blank .mvs).setFilePath "'A.B(M)'".toList =
        (dataset, "M".toList, true) := by
  intro dataset
  have hprint : dataset.formatFilename "M".toList false =
      "'A.B(M)'".toList := by
    decide
  have hfile : GoodFilename .mvs "M".toList := by
    constructor <;> simp [Free, isSeparator, traits]
  have hmembers : NoParentheses dataset := by
    intro _ data hdata
    rw [show dataset.data =
      some ⟨["A".toList, "B".toList], none⟩ by decide] at hdata
    obtain rfl := Option.some.inj hdata
    simp
  have hread := formatted_filename_reads_back
    (Reachable.setPath "'A.B'".toList (@Reachable.empty .mvs))
    (by decide) (by decide) hfile hmembers
  refine ⟨hprint, ?_⟩
  rw [← hprint]
  exact hread

/-- A path whose type is still to be detected gets one when it is read. -/
theorem undetected_filename_gets_type :
    let path := ((blank .default).changePath "/a".toList).1
    Reachable .default path ∧ path.empty = false ∧
      GoodFilename path.type "f".toList ∧ NoParentheses path ∧
      (blank path.type).setFilePath (path.formatFilename "f".toList false) =
        (⟨path.data, .unix⟩, "f".toList, true) ∧
      (⟨path.data, .unix⟩ : ServerPath) ≠ path := by
  intro path
  refine ⟨Reachable.changePath _ .empty, by decide, ?_, ?_, by decide,
    by decide⟩
  · have htype : path.type = .default := by decide
    rw [htype]
    constructor <;> simp [Free, isSeparator, traits]
  · intro htype
    exact absurd htype (by decide)

end TabFtp
