import TabFtp.ServerIdentity

/-!
# Server paths and containment between them

A server path is a list of segments with an optional prefix, under the
conventions of a server type.  `CServerPath::IsSubdirOf` takes a flag for
comparing without case; the flag only selects how two names are compared, so
the comparison itself is the argument here.
-/

namespace TabFtp

structure ServerTypeTraits where
  separators : WString
  hasRoot : Bool
  leftEnclosure : Option Char
  rightEnclosure : Option Char
  filenameInsideEnclosure : Bool
  prefixmode : ℕ
  separatorEscape : Option Char
  hasDots : Bool
  separatorAfterPrefix : Bool

def traits : ServerType → ServerTypeTraits
  | .default =>
      ⟨['/'], true, none, none, false, 0, none, true, false⟩
  | .unix =>
      ⟨['/'], true, none, none, false, 0, none, true, false⟩
  | .vms =>
      ⟨['.'], false, some '[', some ']', false, 0, some '^', false, false⟩
  | .dos =>
      ⟨['\\', '/'], false, none, none, false, 0, none, true, false⟩
  | .mvs =>
      ⟨['.'], false, some '\'', some '\'', true, 1, none, false, false⟩
  | .vxworks =>
      ⟨['/'], true, none, none, false, 0, none, true, false⟩
  | .zvm =>
      ⟨['/'], true, none, none, false, 0, none, true, false⟩
  | .hpnonstop =>
      ⟨['.'], false, none, none, false, 0, none, false, false⟩
  | .dosVirtual =>
      ⟨['\\'], true, none, none, false, 0, none, true, false⟩
  | .cygwin =>
      ⟨['/'], true, none, none, false, 0, none, true, true⟩
  | .dosFwdSlashes =>
      ⟨['/', '\\'], false, none, none, false, 0, none, true, false⟩

structure ServerPathData where
  segments : List WString
  pathPrefix : Option WString
  deriving DecidableEq

/-- `CServerPath`.  A path without data is the empty path. -/
structure ServerPath where
  data : Option ServerPathData
  type : ServerType
  deriving DecidableEq

namespace ServerPath

def empty (path : ServerPath) : Bool :=
  path.data.isNone

def hasParent (path : ServerPath) : Bool :=
  match path.data with
  | none => false
  | some data =>
      if (traits path.type).hasRoot then !data.segments.isEmpty
      else decide (1 < data.segments.length)

/-- `CServerPath::operator==`. -/
def same (path op : ServerPath) : Bool :=
  path.empty == op.empty && path.type == op.type && path.data == op.data

/-- The comparison of prefixes in `IsSubdirOf`. -/
def samePrefix (sameName : WString → WString → Bool) :
    Option WString → Option WString → Bool
  | none, none => true
  | some left, some right => sameName left right
  | _, _ => false

/-- The loop over the segments in `IsSubdirOf`. -/
def segmentsBelow
    (sameName : WString → WString → Bool) (allowEqual : Bool) :
    List WString → List WString → Bool
  | _ :: _, [] => true
  | left :: lefts, right :: rights =>
      sameName left right && segmentsBelow sameName allowEqual lefts rights
  | [], [] => allowEqual
  | [], _ :: _ => false

def isSubdirOf
    (sameName : WString → WString → Bool)
    (path parent : ServerPath) (allowEqual : Bool) : Bool :=
  match path.data, parent.data with
  | some ld, some rd =>
      if path.type ≠ parent.type then false
      else if !path.hasParent then false
      else if (traits path.type).prefixmode ≠ 1 ∧
          !samePrefix sameName ld.pathPrefix rd.pathPrefix then false
      -- on MVS a directory without a trailing dot has no subdirectories
      else if (traits path.type).prefixmode = 1 ∧ rd.pathPrefix.isNone then
        false
      else segmentsBelow sameName allowEqual ld.segments rd.segments
  | _, _ => false

def isParentOf
    (sameName : WString → WString → Bool)
    (path child : ServerPath) (allowEqual : Bool) : Bool :=
  child.isSubdirOf sameName path allowEqual

/-- The comparison of names that `cmpNoCase = false` selects. -/
def exactName (left right : WString) : Bool :=
  left == right

theorem same_iff (path op : ServerPath) :
    path.same op = true ↔ path = op := by
  constructor
  · intro hsame
    simp only [same, Bool.and_eq_true, beq_iff_eq] at hsame
    obtain ⟨⟨_, htype⟩, hdata⟩ := hsame
    cases path
    cases op
    simp_all
  · rintro rfl
    simp [same]

theorem same_comm (path op : ServerPath) : path.same op = op.same path := by
  rw [Bool.eq_iff_iff, same_iff, same_iff]
  exact eq_comm

end ServerPath

end TabFtp
