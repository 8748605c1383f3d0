import TabFtp.DirectoryListing
import Mathlib.Order.Compare

/-!
# The order of the file lists

The local and the remote file list sort their rows with the same comparison
objects: directories and files first, then the key of the sort column, then
the names.  A comparison is the sign of the number that the source computes.
-/

namespace TabFtp

inductive NameSortMode
  | caseInsensitive | caseSensitive | natural

inductive DirSortMode
  | onTop | onBottom | inline

structure FileOrder where
  stricmp : WString → WString → Ordering
  /-- `fz::datetime::operator<` and `operator>` -/
  compareTime : Option Datetime → Option Datetime → Ordering

/-! ## Names -/

def cmpCase (str1 str2 : WString) : Ordering :=
  compare str1 str2

def firstDigit (text : WString) : Option ℕ :=
  text.findIdx? Char.isDigit

def leadingZeros (digits : WString) : ℕ :=
  min (digits.length - 1) (digits.takeWhile (· = '0')).length

def cmpNumbers (n1 n2 : WString) : Ordering :=
  let digits1 := n1.drop (leadingZeros n1)
  let digits2 := n2.drop (leadingZeros n2)
  (compare digits1.length digits2.length).then
    ((compare digits1 digits2).then
      (compare (leadingZeros n1) (leadingZeros n2)))

theorem firstDigit_lt {text : WString} {position : ℕ}
    (hfirst : firstDigit text = some position) : position < text.length := by
  rcases List.findIdx?_eq_some_iff_getElem.mp hfirst with ⟨hlt, -, -⟩
  exact hlt

theorem takeWhile_length_pos {text : WString} {position : ℕ}
    (hfirst : firstDigit text = some position) :
    0 < ((text.drop position).takeWhile Char.isDigit).length := by
  rcases List.findIdx?_eq_some_iff_getElem.mp hfirst with ⟨hlt, hdigit, -⟩
  rw [List.drop_eq_getElem_cons hlt, List.takeWhile_cons, hdigit]
  simp

namespace FileOrder

variable (order : FileOrder)

def cmpNoCase (str1 str2 : WString) : Ordering :=
  (order.stricmp str1 str2).then (compare str1 str2)

/-- Both texts are cut at the first digit of the first text: up to there they
are equal for `stricmp`, which compares character by character. -/
def cmpNatural (str1 str2 : WString) : Ordering :=
  match _hfirst : firstDigit str1, firstDigit str2 with
  | some p1, some p2 =>
      match order.stricmp (str1.take p1) (str2.take p2) with
      | .eq =>
          let n1 := (str1.drop p1).takeWhile Char.isDigit
          let n2 := (str2.drop p1).takeWhile Char.isDigit
          match cmpNumbers n1 n2 with
          | .eq => cmpNatural (str1.drop (p1 + n1.length))
              (str2.drop (p1 + n2.length))
          | result => result
      | result => result
  | _, _ => order.stricmp str1 str2
  termination_by str1.length
  decreasing_by
    have hlt := firstDigit_lt _hfirst
    have hpos := takeWhile_length_pos _hfirst
    rw [List.length_drop]
    omega

/-- `GetCmpFunction` and `DoCmpName` -/
def cmpName (mode : NameSortMode) : WString → WString → Ordering :=
  match mode with
  | .caseInsensitive => order.cmpNoCase
  | .caseSensitive => cmpCase
  | .natural => order.cmpNatural

end FileOrder

/-! ## Directories and the sort columns -/

def cmpDir (mode : DirSortMode) (dir1 dir2 : Bool) : Ordering :=
  match mode with
  | .onTop =>
      if dir1 then (if dir2 then .eq else .lt)
      else if dir2 then .gt else .eq
  | .onBottom =>
      if dir1 then (if dir2 then .eq else .gt)
      else if dir2 then .lt else .eq
  | .inline => .eq

def cmpSize (size1 size2 : ℤ) : Ordering :=
  compare size1 size2

/-! ## Orders -/

theorem transCmp_on {α κ : Type} {cmp : κ → κ → Ordering} [Std.TransCmp cmp]
    (key : α → κ) : Std.TransCmp fun a b => cmp (key a) (key b) where
  eq_swap := Std.OrientedCmp.eq_swap
  isLE_trans := Std.TransCmp.isLE_trans

instance (mode : DirSortMode) : Std.TransCmp (cmpDir mode) where
  eq_swap {a b} := by cases mode <;> cases a <;> cases b <;> rfl
  isLE_trans {a b c} := by
    cases mode <;> cases a <;> cases b <;> cases c <;> decide

instance : Std.TransCmp cmpSize :=
  inferInstanceAs (Std.TransCmp (compare : ℤ → ℤ → Ordering))

instance (order : FileOrder) [Std.TransCmp order.stricmp] :
    Std.TransCmp order.cmpNoCase :=
  inferInstanceAs (Std.TransCmp
    (compareLex order.stricmp (compare : List Char → List Char → Ordering)))

/-! ## The options -/

def getNameSortMode (nameSortOption : ℤ) : NameSortMode :=
  if nameSortOption = 1 then .caseSensitive
  else if nameSortOption = 2 then .natural
  else .caseInsensitive

/-- `CFileListCtrl::GetDirSortMode`: directories that are kept on top are at
the bottom of a list that is reversed afterwards. -/
def getDirSortMode (dirSortOption : ℤ) (descending : Bool) : DirSortMode :=
  if dirSortOption = 1 then (if descending then .onBottom else .onTop)
  else if dirSortOption = 2 then .inline
  else .onTop

end TabFtp
