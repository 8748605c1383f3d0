import TabFtp.DelimitedText
import TabFtp.ServerPathContainment
import Mathlib.Data.List.DropRight

/-!
# Reading and printing server paths

`CServerPath::SetPath` and `ChangePath` read a text under the conventions of
the server type, `GetPath` prints a path.  A text that is not accepted leaves
the path empty.
-/

namespace TabFtp

namespace WString

/-- `std::wstring::find` for a character. -/
def find (char : Char) (text : WString) : Option ℕ :=
  text.findIdx? (· == char)

/-- `std::wstring::rfind` for a character. -/
def rfind (char : Char) (text : WString) : Option ℕ :=
  (text.reverse.findIdx? (· == char)).map fun index =>
    text.length - 1 - index

/-- `fz::replace_substrings` for a single character. -/
def replaceChar (char : Char) (replacement : WString) (text : WString) :
    WString :=
  text.flatMap fun other => if other == char then replacement else [other]

end WString

/-- `FTP_MVS_DOUBLE_QUOTE` -/
def mvsDoubleQuote : Char := Char.ofNat 0xDC

namespace ServerPath

/-- A path without data. -/
def blank (type : ServerType) : ServerPath := ⟨none, type⟩

def clear (path : ServerPath) : ServerPath := ⟨none, path.type⟩

def isSeparator (type : ServerType) (char : Char) : Bool :=
  (traits type).separators.contains char

def separator (type : ServerType) : Char :=
  (traits type).separators.headD '/'

/-! ## Segments -/

/-- `segments.back() += segment` -/
def appendToBack (segments : List WString) (segment : WString) :
    List WString :=
  match segments.getLast? with
  | none => [segment]
  | some back => segments.dropLast ++ [back ++ segment]

/-- `SegmentizeAddSegment`.  The flag says that the next segment belongs to
the last one, because that has ended with an escaped separator. -/
def segmentizeAddSegment (type : ServerType)
    (state : List WString × Bool) (segment : WString) :
    List WString × Bool :=
  let traits := traits type
  if traits.hasDots && segment == ['.'] then state
  else if traits.hasDots && segment == ['.', '.'] then
    (state.1.dropLast, state.2)
  else
    let appendNext := traits.separatorEscape.any fun escape =>
      segment.getLast? == some escape
    let segment :=
      if appendNext then segment.dropLast ++ [separator type] else segment
    if state.2 then (appendToBack state.1 segment, appendNext)
    else (state.1 ++ [segment], appendNext)

def segmentize (type : ServerType) (text : WString)
    (segments : List WString) : Option (List WString) :=
  let result :=
    (DelimitedText.fields (isSeparator type) text).foldl
      (segmentizeAddSegment type) (segments, false)
  if result.2 then none else some result.1

/-- `ExtractFile`: the text up to the last separator and the file behind it. -/
def extractFile (type : ServerType) (dir : WString) :
    Option (WString × WString) :=
  let file := dir.rtakeWhile fun char => !isSeparator type char
  let rest := dir.take (dir.length - file.length)
  if !rest.isEmpty && file.isEmpty then none else some (rest, file)

/-! ## Changing a path -/

abbrev Changed := ServerPathData × WString

/-- The file is taken from the text if one is asked for, the rest is read as
segments. -/
def segmentizeInto (type : ServerType) (isFile : Bool)
    (data : ServerPathData) (dir : WString) : Option Changed :=
  if isFile then
    match extractFile type dir with
    | none => none
    | some (dir, file) =>
        (segmentize type dir data.segments).map fun segments =>
          ({ data with segments := segments }, file)
  else
    (segmentize type dir data.segments).map fun segments =>
      ({ data with segments := segments }, [])

/-- `if (data.m_segments.empty() && was_empty) return false` -/
def unlessStillEmpty (wasEmpty : Bool) (changed : Option Changed) :
    Option Changed :=
  changed.filter fun changed => !(changed.1.segments.isEmpty && wasEmpty)

def changeVms (isFile wasEmpty : Bool) (data : ServerPathData)
    (dir : WString) : Option Changed :=
  match WString.find '[' dir with
  | none =>
      if (WString.rfind ']' dir).isSome then none
      else if isFile then
        if wasEmpty then none else some (data, dir)
      else unlessStillEmpty wasEmpty (segmentizeInto .vms false data dir)
  | some pos1 =>
      match WString.rfind ']' dir with
      | none => none
      | some pos2 =>
          let enclosureIsLast := decide (pos2 = dir.length - 1)
          if pos2 ≤ pos1 + 1 then none
          else if isFile = enclosureIsLast then none
          else
            let file := if isFile then dir.drop (pos2 + 1) else []
            let dir := dir.take pos2
            let pathPrefix :=
              if pos1 ≠ 0 then some (dir.take pos1) else data.pathPrefix
            (unlessStillEmpty wasEmpty
              (segmentizeInto .vms false ⟨[], pathPrefix⟩
                (dir.drop (pos1 + 1)))).map fun changed => (changed.1, file)

/-- The text names a drive in front of its first separator. -/
def namesDrive (type : ServerType) (dir : WString) : Bool :=
  let sep := (dir.findIdx? (isSeparator type)).getD dir.length
  match WString.find ':' dir with
  | none => false
  | some colon => decide (0 < colon ∧ colon + 1 = sep)

def startsWithSeparator (type : ServerType) (dir : WString) : Bool :=
  dir.head?.any (isSeparator type)

def changeDos (type : ServerType) (isFile wasEmpty : Bool)
    (data : ServerPathData) (dir : WString) : Option Changed :=
  if namesDrive type dir then
    unlessStillEmpty wasEmpty
      (segmentizeInto type isFile { data with segments := [] } dir)
  else if startsWithSeparator type dir then
    -- relative to the drive
    match data.segments with
    | [] => none
    | first :: _ =>
        unlessStillEmpty wasEmpty
          (segmentizeInto type isFile { data with segments := [first] }
            (dir.drop 1))
  else unlessStillEmpty wasEmpty (segmentizeInto type isFile data dir)

def dropDoubleQuotes (dir : WString) : WString :=
  (dir.dropWhile (· == mvsDoubleQuote)).rdropWhile (· == mvsDoubleQuote)

def changeMvsInside (isFile wasEmpty : Bool) (data : ServerPathData)
    (dir : WString) : Option Changed :=
  if dir.getLast? = some ')' then
    -- partitioned dataset member
    if !isFile then none
    else
      match WString.find '(' dir with
      | none => none
      | some pos =>
          let file := dir.dropLast.drop (pos + 1)
          let dir := dir.take pos
          if !wasEmpty && data.pathPrefix.isNone && !dir.isEmpty then none
          else
            (segmentizeInto .mvs false { data with pathPrefix := none } dir).map
              fun changed => (changed.1, file)
  else if !wasEmpty && data.pathPrefix.isNone &&
      ((WString.find '.' dir).isSome || !isFile) then none
  else if isFile then
    segmentizeInto .mvs true { data with pathPrefix := some ['.'] } dir
  else if dir.getLast? = some '.' then
    segmentizeInto .mvs false { data with pathPrefix := some ['.'] } dir
  else segmentizeInto .mvs false { data with pathPrefix := none } dir

def changeMvs (isFile wasEmpty : Bool) (data : ServerPathData)
    (dir : WString) : Option Changed :=
  let dir := dropDoubleQuotes dir
  if dir.isEmpty then none
  else if dir.head? = some '\'' then
    if dir.getLast? ≠ some '\'' then none
    else
      changeMvsInside isFile wasEmpty { data with segments := [] }
        (dir.drop 1).dropLast
  else if dir.getLast? = some '\'' then none
  else if wasEmpty then none
  else changeMvsInside isFile wasEmpty data dir

def changeHpnonstop (isFile wasEmpty : Bool) (data : ServerPathData)
    (dir : WString) : Option Changed :=
  let data :=
    if dir.head? = some '\\' then { data with segments := [] } else data
  unlessStillEmpty wasEmpty (segmentizeInto .hpnonstop isFile data dir)

def changeVxworks (isFile wasEmpty : Bool) (data : ServerPathData)
    (dir : WString) : Option Changed :=
  if dir.head? ≠ some ':' then
    if wasEmpty then none else segmentizeInto .vxworks isFile data dir
  else
    match WString.find ':' (dir.drop 1) with
    | none => none
    | some 0 => none
    | some (device + 1) =>
        let colon2 := device + 2
        segmentizeInto .vxworks isFile ⟨[], some (dir.take (colon2 + 1))⟩
          (dir.drop (colon2 + 1))

def changeCygwin (isFile wasEmpty : Bool) (data : ServerPathData)
    (dir : WString) : Option Changed :=
  if startsWithSeparator .cygwin dir then
    if dir.head? = some '/' ∧ (dir.drop 1).head? = some '/' then
      segmentizeInto .cygwin isFile ⟨[], some ['/']⟩ (dir.drop 1)
    else segmentizeInto .cygwin isFile ⟨[], none⟩ dir
  else if wasEmpty then none
  else segmentizeInto .cygwin isFile data dir

def changeRooted (type : ServerType) (isFile wasEmpty : Bool)
    (data : ServerPathData) (dir : WString) : Option Changed :=
  if startsWithSeparator type dir then
    segmentizeInto type isFile { data with segments := [] } dir
  else if wasEmpty then none
  else segmentizeInto type isFile data dir

def changeByType (type : ServerType) (isFile wasEmpty : Bool)
    (data : ServerPathData) (dir : WString) : Option Changed :=
  match type with
  | .vms => changeVms isFile wasEmpty data dir
  | .dos | .dosFwdSlashes => changeDos type isFile wasEmpty data dir
  | .mvs => changeMvs isFile wasEmpty data dir
  | .hpnonstop => changeHpnonstop isFile wasEmpty data dir
  | .vxworks => changeVxworks isFile wasEmpty data dir
  | .cygwin => changeCygwin isFile wasEmpty data dir
  | .default | .unix | .zvm | .dosVirtual =>
      changeRooted type isFile wasEmpty data dir

/-- `DoChangePath`.  The result is the path with the new value of `subdir`. -/
def doChangePath (path : ServerPath) (subdir : WString) (isFile : Bool) :
    Option (ServerPath × WString) :=
  if subdir.isEmpty then
    if path.empty || isFile then none else some (path, subdir)
  else
    match changeByType path.type isFile path.empty
        (path.data.getD ⟨[], none⟩) subdir with
    | none => none
    | some (data, file) =>
        if !(traits path.type).hasRoot && data.segments.isEmpty then none
        else if isFile then
          if (traits path.type).hasDots &&
              (file == ['.', '.'] || file == ['.']) then none
          else some (⟨some data, path.type⟩, file)
        else some (⟨some data, path.type⟩, subdir)

/-- `ChangePath`.  A path that cannot be changed becomes empty. -/
def changePath (path : ServerPath) (subdir : WString) : ServerPath × Bool :=
  match path.doChangePath subdir false with
  | none => (path.clear, false)
  | some (path, _) => (path, true)

/-! ## Setting a path -/

/-- Where `:[` starts in the text. -/
def findDevice : WString → Option ℕ
  | [] => none
  | char :: text =>
      if char = ':' ∧ text.head? = some '[' then some 0
      else (findDevice text).map (· + 1)

def isDriveLetter (char : Char) : Bool :=
  ('A' ≤ char && char ≤ 'Z') || ('a' ≤ char && char ≤ 'z')

/-- The text starts like `C:\`. -/
def startsWithDrive : WString → Bool
  | letter :: colon :: slash :: _ =>
      isDriveLetter letter && colon == ':' && (slash == '\\' || slash == '/')
  | _ => false

/-- The type that `SetPath` chooses when there is none yet. -/
def detectType (text : WString) (isFile : Bool) : ServerType :=
  match findDevice text with
  | some pos1 =>
      match WString.rfind ']' text with
      | none => if isFile then .vms else .unix
      | some pos2 =>
          if pos2 = text.length - 1 ∧ !isFile then .vms
          else if isFile ∧ pos1 < pos2 then .vms
          else .unix
  | none =>
      if startsWithDrive text then .dos
      else if text.head? = some mvsDoubleQuote ∧
          text.getLast? = some mvsDoubleQuote then .mvs
      else if text.head? = some ':' then .vxworks
      else if text.head? = some '\\' then .dosVirtual
      else .unix

def setPath (path : ServerPath) (newPath : WString) : ServerPath × Bool :=
  if newPath.isEmpty then (path, false)
  else
    let type :=
      if path.type = .default then detectType newPath false else path.type
    (blank type).changePath newPath

/-! ## Printing a path -/

def escapeSeparators (type : ServerType) (subdir : WString) : WString :=
  match (traits type).separatorEscape with
  | none => subdir
  | some escape =>
      (traits type).separators.foldl
        (fun subdir separator' =>
          WString.replaceChar separator' [escape, separator type] subdir)
        subdir

/-- The loop over the segments in `GetPath`. -/
def printSegments (type : ServerType) (pathPrefix : Option WString) :
    List WString → WString
  | [] =>
      if !(traits type).hasRoot || pathPrefix.isNone ||
          (traits type).separatorAfterPrefix then [separator type]
      else []
  | first :: segments =>
      (if (traits type).hasRoot &&
          (pathPrefix.isNone || (traits type).separatorAfterPrefix) then
        [separator type] else []) ++ escapeSeparators type first ++
        segments.flatMap fun segment =>
          separator type :: escapeSeparators type segment

def getPath (path : ServerPath) : WString :=
  match path.data with
  | none => []
  | some data =>
      let traits := traits path.type
      (if traits.prefixmode = 0 then data.pathPrefix.getD [] else []) ++
        traits.leftEnclosure.toList ++
        printSegments path.type data.pathPrefix data.segments ++
        (if traits.prefixmode ≠ 0 then data.pathPrefix.getD [] else []) ++
        traits.rightEnclosure.toList ++
        -- `C:` is the current directory on the drive, `C:\` its root
        if (path.type = .dos ∨ path.type = .dosFwdSlashes) ∧
            data.segments.length = 1 then [separator path.type]
        else []

/-! ## Parents -/

def makeParent (path : ServerPath) : ServerPath :=
  match path.data with
  | none => path.clear
  | some data =>
      if path.hasParent then
        ⟨some ⟨data.segments.dropLast,
          if path.type = .mvs then some ['.'] else data.pathPrefix⟩, path.type⟩
      else path.clear

def commonSegments : List WString → List WString → List WString
  | left :: lefts, right :: rights =>
      if left = right then left :: commonSegments lefts rights else []
  | _, _ => []

def segmentsDiffer (lefts rights : List WString) : Bool :=
  let common := (commonSegments lefts rights).length
  decide (common < lefts.length ∧ common < rights.length)

/-- The segments that a common parent can have.  An MVS path without a
trailing dot is no directory. -/
def directorySegments (type : ServerType) (data : ServerPathData) :
    List WString :=
  if (traits type).prefixmode = 1 ∧ data.pathPrefix.isNone then
    data.segments.dropLast
  else data.segments

def getCommonParent (path op : ServerPath) : ServerPath :=
  if path.same op then path
  else
    match path.data, op.data with
    | some ld, some rd =>
        if path.type ≠ op.type ∨
            (traits path.type).prefixmode = 0 ∧
              ld.pathPrefix ≠ rd.pathPrefix then blank .default
        else if !path.hasParent then
          if op.isSubdirOf exactName path false then path else blank .default
        else if !op.hasParent then
          if path.isSubdirOf exactName op false then op else blank .default
        else
          let lefts := directorySegments path.type ld
          let rights := directorySegments path.type rd
          let common := commonSegments lefts rights
          let pathPrefix :=
            if (traits path.type).prefixmode = 1 then
              path.makeParent.data.bind ServerPathData.pathPrefix
            else ld.pathPrefix
          if segmentsDiffer lefts rights ∧ !(traits path.type).hasRoot ∧
              common.isEmpty then blank .default
          else ⟨some ⟨common, pathPrefix⟩, path.type⟩
    | _, _ => blank .default

/-! ## Adding a segment and comparing -/

def addSegment (path : ServerPath) (segment : WString) : Option ServerPath :=
  path.data.map fun data =>
    ⟨some { data with segments := data.segments ++ [segment] }, path.type⟩

end ServerPath

end TabFtp
