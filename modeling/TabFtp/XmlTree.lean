import Mathlib.Data.List.TakeWhile
import Mathlib.Tactic.Linarith

/-!
# XML elements

An element has a name, attributes, a text and elements inside it.  An element
without a text and one with an empty text read the same.  Numbers are stored
as decimal texts; a text that is read as a number may have blanks and a sign
in front of the digits and anything behind them, and a number that is too
large or too small is replaced by the nearest one that fits.
-/

namespace XmlTree

structure XmlNode where
  name : String
  attributes : List (String × List Char)
  text : List Char
  children : List XmlNode

/-! ## Numbers -/

def intMin : ℤ := -2 ^ 31

def intMax : ℤ := 2 ^ 31 - 1

def llongMin : ℤ := -2 ^ 63

def llongMax : ℤ := 2 ^ 63 - 1

def isSpace (char : Char) : Bool :=
  char == ' ' || char == '\t' || char == '\n' || char == '\r'

def isHexDigit (char : Char) : Bool :=
  char.isDigit || ('a' ≤ char && char ≤ 'f') || ('A' ≤ char && char ≤ 'F')

def hexDigitValue (char : Char) : ℕ :=
  if char.isDigit then char.toNat - '0'.toNat
  else if 'a' ≤ char then char.toNat - 'a'.toNat + 10
  else char.toNat - 'A'.toNat + 10

def magnitude : List Char → ℕ
  | '0' :: 'x' :: digits | '0' :: 'X' :: digits =>
      (digits.takeWhile isHexDigit).foldl
        (fun value digit => value * 16 + hexDigitValue digit) 0
  | text => Nat.ofDigitChars 10 (text.takeWhile Char.isDigit) 0

def stringToInteger (low high : ℤ) (text : List Char) : ℤ :=
  let text := text.dropWhile isSpace
  match text with
  | '-' :: digits => max low (min high (-(magnitude digits : ℤ)))
  | '+' :: digits => max low (min high (magnitude digits : ℤ))
  | digits => max low (min high (magnitude digits : ℤ))

def integerToString (value : ℤ) : List Char :=
  if value < 0 then '-' :: Nat.toDigits 10 value.natAbs
  else Nat.toDigits 10 value.natAbs

def asInteger (low high : ℤ) (text : List Char) (default : ℤ) : ℤ :=
  if text = [] then default else stringToInteger low high text

theorem isDigit_of_mem_toDigits {value : ℕ} {char : Char}
    (hmem : char ∈ Nat.toDigits 10 value) : char.isDigit = true :=
  Nat.isDigit_of_mem_toDigits (by decide) (by decide) hmem

theorem magnitude_digits {digits : List Char}
    (hdigits : ∀ char ∈ digits, char.isDigit = true) :
    magnitude digits = Nat.ofDigitChars 10 digits 0 := by
  have hwhile : digits.takeWhile Char.isDigit = digits :=
    List.takeWhile_eq_self_iff.mpr hdigits
  unfold magnitude
  split
  · have hx := hdigits 'x' (by simp)
    exact absurd hx (by decide)
  · have hx := hdigits 'X' (by simp)
    exact absurd hx (by decide)
  · rw [hwhile]

theorem magnitude_toDigits (value : ℕ) :
    magnitude (Nat.toDigits 10 value) = value := by
  rw [magnitude_digits fun char hmem => isDigit_of_mem_toDigits hmem]
  exact Nat.ofDigitChars_ten_toDigits

theorem integerToString_ne_nil (value : ℤ) : integerToString value ≠ [] := by
  unfold integerToString
  split_ifs
  · exact List.cons_ne_nil _ _
  · exact Nat.toDigits_ne_nil

theorem stringToInteger_integerToString {low high value : ℤ}
    (hlow : low ≤ value) (hhigh : value ≤ high) :
    stringToInteger low high (integerToString value) = value := by
  have hclamp : max low (min high value) = value := by
    rw [min_eq_right hhigh, max_eq_right hlow]
  by_cases hneg : value < 0
  · have habs : -((value.natAbs : ℕ) : ℤ) = value := by omega
    unfold integerToString stringToInteger
    rw [if_pos hneg]
    simp only [List.dropWhile_cons, show isSpace '-' = false from rfl,
      Bool.false_eq_true, if_false, magnitude_toDigits, habs]
    exact hclamp
  · have habs : ((value.natAbs : ℕ) : ℤ) = value := by omega
    have hread := magnitude_toDigits value.natAbs
    have hdigits : ∀ char ∈ Nat.toDigits 10 value.natAbs,
        char.isDigit = true :=
      fun char hmem => isDigit_of_mem_toDigits hmem
    unfold integerToString stringToInteger
    rw [if_neg hneg]
    cases hall : Nat.toDigits 10 value.natAbs with
    | nil => exact absurd hall Nat.toDigits_ne_nil
    | cons first rest =>
        rw [hall] at hdigits hread
        have hfirst : first.isDigit = true := hdigits first (by simp)
        have hspace : isSpace first = false := by
          by_contra hblank
          simp only [isSpace, Bool.not_eq_false, Bool.or_eq_true,
            beq_iff_eq] at hblank
          rcases hblank with ((rfl | rfl) | rfl) | rfl
          all_goals exact absurd hfirst (by decide)
        have hdrop : (first :: rest).dropWhile isSpace = first :: rest := by
          rw [List.dropWhile_cons, hspace]
          rfl
        simp only [hdrop]
        split
        · rename_i hminus
          cases hminus
          exact absurd hfirst (by decide)
        · rename_i hplus
          cases hplus
          exact absurd hfirst (by decide)
        · rw [hread, habs]
          exact hclamp

theorem asInteger_integerToString {low high value : ℤ} (hlow : low ≤ value)
    (hhigh : value ≤ high) (default : ℤ) :
    asInteger low high (integerToString value) default = value := by
  unfold asInteger
  rw [if_neg (integerToString_ne_nil value)]
  exact stringToInteger_integerToString hlow hhigh

/-! ## Elements -/

namespace XmlNode

/-- An element with nothing in it. -/
def empty (name : String) : XmlNode :=
  ⟨name, [], [], []⟩

def child (node : XmlNode) (name : String) : Option XmlNode :=
  node.children.find? fun child => decide (child.name = name)

/-- The elements that `child` and `next_sibling` go through. -/
def childrenNamed (node : XmlNode) (name : String) : List XmlNode :=
  node.children.filter fun child => decide (child.name = name)

def appendChild (node child : XmlNode) : XmlNode :=
  { node with children := node.children ++ [child] }

def removeChildren (node : XmlNode) (name : String) : XmlNode :=
  { node with
    children := node.children.filter fun child => decide (child.name ≠ name) }

def childValue (node : XmlNode) (name : String) : List Char :=
  match node.child name with
  | none => []
  | some child => child.text

def getAttribute (node : XmlNode) (name : String) : List Char :=
  (node.attributes.lookup name).getD []

def appendAttribute (node : XmlNode) (name : String) (value : List Char) :
    XmlNode :=
  { node with attributes := node.attributes ++ [(name, value)] }

def addTextElement (node : XmlNode) (name : String) (value : List Char) :
    XmlNode :=
  node.appendChild ⟨name, [], value, []⟩

/-- `AddTextElement` for a number. -/
def addIntElement (node : XmlNode) (name : String) (value : ℤ) : XmlNode :=
  node.addTextElement name (integerToString value)

/-- `GetTextElementInt` -/
def getInt (node : XmlNode) (name : String) (default : ℤ) : ℤ :=
  asInteger llongMin llongMax (node.childValue name) default

variable {name other : String}

theorem children_appendChild (node child : XmlNode) :
    (node.appendChild child).children = node.children ++ [child] :=
  rfl

theorem child_empty (element name : String) :
    (empty element).child name = none :=
  rfl

theorem child_appendChild (node child : XmlNode) (name : String) :
    (node.appendChild child).child name =
      (node.child name).or
        (if child.name = name then some child else none) := by
  unfold XmlNode.child
  rw [children_appendChild, List.find?_append]
  congr 1
  by_cases hname : child.name = name
  · simp [hname]
  · simp [hname]

theorem child_addTextElement (node : XmlNode) (element : String)
    (value : List Char) (name : String) :
    (node.addTextElement element value).child name =
      (node.child name).or
        (if element = name then some ⟨element, [], value, []⟩ else none) :=
  child_appendChild node _ name

theorem child_eq_head? (node : XmlNode) (name : String) :
    node.child name = (node.childrenNamed name).head? := by
  unfold child childrenNamed
  rw [List.head?_filter]

theorem childrenNamed_removeChildren (node : XmlNode) (name : String) :
    (node.removeChildren name).childrenNamed name = [] := by
  unfold childrenNamed removeChildren
  rw [List.filter_filter]
  apply List.filter_eq_nil_iff.mpr
  intro child _
  simp

theorem childrenNamed_removeChildren_of_ne (node : XmlNode)
    (hne : name ≠ other) :
    (node.removeChildren name).childrenNamed other =
      node.childrenNamed other := by
  unfold childrenNamed removeChildren
  rw [List.filter_filter]
  apply List.filter_congr
  intro child _
  by_cases hother : child.name = other
  · have hdifferent : child.name ≠ name := by
      rw [hother]
      exact hne.symm
    simp [hother, hne.symm]
  · simp [hother]

theorem child_removeChildren (node : XmlNode) (name : String) :
    (node.removeChildren name).child name = none := by
  rw [child_eq_head?, childrenNamed_removeChildren]
  rfl

theorem child_removeChildren_of_ne (node : XmlNode) (hne : name ≠ other) :
    (node.removeChildren name).child other = node.child other := by
  rw [child_eq_head?, childrenNamed_removeChildren_of_ne node hne,
    child_eq_head?]

theorem childValue_eq (node : XmlNode) (name : String) :
    node.childValue name =
      match (node.childrenNamed name).head? with
      | none => []
      | some child => child.text := by
  unfold childValue
  rw [child_eq_head?]

/-! ## Appending an element for each item -/

variable {α : Type*} {toNode : α → XmlNode}

theorem children_foldl_appendChild (items : List α) (node : XmlNode) :
    (items.foldl (fun node item => node.appendChild (toNode item))
      node).children = node.children ++ items.map toNode := by
  induction items generalizing node with
  | nil => simp
  | cons item items ih =>
      rw [List.foldl_cons, ih, children_appendChild]
      simp

theorem attributes_foldl_appendChild (items : List α) (node : XmlNode) :
    (items.foldl (fun node item => node.appendChild (toNode item))
      node).attributes = node.attributes := by
  induction items generalizing node with
  | nil => rfl
  | cons item items ih => exact ih _

theorem name_foldl_appendChild (items : List α) (node : XmlNode) :
    (items.foldl (fun node item => node.appendChild (toNode item))
      node).name = node.name := by
  induction items generalizing node with
  | nil => rfl
  | cons item items ih => exact ih _

theorem childrenNamed_foldl_appendChild
    (hname : ∀ item, (toNode item).name = name) (items : List α)
    (node : XmlNode) :
    (items.foldl (fun node item => node.appendChild (toNode item))
      node).childrenNamed name =
        node.childrenNamed name ++ items.map toNode := by
  unfold childrenNamed
  rw [children_foldl_appendChild, List.filter_append]
  congr 1
  apply List.filter_eq_self.mpr
  intro child hmem
  obtain ⟨item, -, rfl⟩ := List.mem_map.mp hmem
  exact decide_eq_true (hname item)

theorem childrenNamed_foldl_appendChild_of_ne
    (hname : ∀ item, (toNode item).name ≠ name) (items : List α)
    (node : XmlNode) :
    (items.foldl (fun node item => node.appendChild (toNode item))
      node).childrenNamed name = node.childrenNamed name := by
  unfold childrenNamed
  rw [children_foldl_appendChild, List.filter_append]
  have hnone : (items.map toNode).filter
      (fun child => decide (child.name = name)) = [] := by
    apply List.filter_eq_nil_iff.mpr
    intro child hmem hfound
    obtain ⟨item, -, rfl⟩ := List.mem_map.mp hmem
    exact hname item (of_decide_eq_true hfound)
  rw [hnone, List.append_nil]

end XmlNode

end XmlTree
