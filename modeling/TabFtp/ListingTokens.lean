import TabFtp.ListingLine

/-!
# Characters and numbers of a token

Every index and every offset that the parsers of a listing compute is checked
where it is used.  The numbers are those of the source: 64 bits wide, with -1
for a number that does not fit or is not there.
-/

namespace TabFtp

open CheckedAttempts Attempt

/-! ## Checked accesses -/

/-- `operator[]` -/
def charAt (text : WString) (i : ℤ) : Parse Char := do
  inRange (0 ≤ i)
  ofOption text[i.toNat]?

def back (text : WString) : Parse Char :=
  ofOption text.getLast?

def popBack (text : WString) : Parse WString := do
  inRange (!text.isEmpty)
  pure text.dropLast

/-- `substr` with one argument. -/
def cutFrom (text : WString) (pos : ℤ) : Parse WString := do
  inRange (0 ≤ pos && pos ≤ text.length)
  pure (text.drop pos.toNat)

/-- `substr` with two arguments. -/
def cut (text : WString) (pos len : ℤ) : Parse WString := do
  inRange (0 ≤ pos && pos ≤ text.length && 0 ≤ len)
  pure ((text.drop pos.toNat).take len.toNat)

def divide (number divisor : ℤ) : Parse ℤ := do
  inRange (divisor != 0)
  pure (number.tdiv divisor)

variable {inv : ParseState → Prop} {text : WString}

theorem charAt_spec {i : ℤ} (hstart : 0 ≤ i) (hend : i < text.length) :
    Spec inv (charAt text i) fun char => text[i.toNat]? = some char := by
  apply Spec.bind (Spec.inRange (decide_eq_true hstart))
  intro _ _
  have hlt : i.toNat < text.length := by omega
  exact Spec.ofOption
    ⟨_, List.getElem?_eq_getElem hlt, List.getElem?_eq_getElem hlt⟩

theorem back_spec (htext : text ≠ []) :
    Spec inv (back text) fun char => text.getLast? = some char := by
  have hlast := List.getLast?_eq_some_getLast htext
  exact Spec.ofOption ⟨_, hlast, hlast⟩

theorem popBack_spec (htext : text ≠ []) :
    Spec inv (popBack text) fun rest => rest = text.dropLast := by
  apply Spec.bind (Spec.inRange (by simpa using htext))
  intro _ _
  exact Spec.pure rfl

theorem cutFrom_spec {pos : ℤ} (hstart : 0 ≤ pos) (hend : pos ≤ text.length) :
    Spec inv (cutFrom text pos) fun rest => rest = text.drop pos.toNat := by
  apply Spec.bind (Spec.inRange (by simp [hstart, hend]))
  intro _ _
  exact Spec.pure rfl

theorem cut_spec {pos len : ℤ} (hstart : 0 ≤ pos) (hend : pos ≤ text.length)
    (hlen : 0 ≤ len) :
    Spec inv (cut text pos len) fun part =>
      part = (text.drop pos.toNat).take len.toNat := by
  apply Spec.bind (Spec.inRange (by simp [hstart, hend, hlen]))
  intro _ _
  exact Spec.pure rfl

theorem divide_spec {number divisor : ℤ} (hdivisor : divisor ≠ 0) :
    Spec inv (divide number divisor) fun _ => True := by
  apply Spec.bind (Spec.inRange (by simpa using hdivisor))
  intro _ _
  exact Spec.pure trivial

/-! ## Numbers -/

def int64 (number : ℤ) : ℤ :=
  Int.bmod number (2 ^ 64)

theorem int64_of_lt {number : ℤ} (hpos : 0 ≤ number)
    (hlt : number < 2 ^ 63) : int64 number = number := by
  unfold int64
  apply Int.bmod_eq_of_le_mul_two <;> norm_num <;> omega

/-- What an `int` keeps of a number. -/
def int32 (number : ℤ) : ℤ :=
  Int.bmod number (2 ^ 32)

def digitValue (char : Char) : ℤ :=
  (char.toNat : ℤ) - '0'.toNat

def isHexDigit (char : Char) : Bool :=
  char.isDigit || ('A' ≤ char && char ≤ 'F') || ('a' ≤ char && char ≤ 'f')

def appendDigit (number : ℤ) (char : Char) : ℤ :=
  int64 (int64 (number * 10) + digitValue char)

namespace Token

/-- `CToken(token.data(), len)` -/
def take (token : Token) (len : ℕ) : Parse Token := do
  inRange (len ≤ token.text.length)
  pure ⟨token.offset, token.text.take len⟩

def isNumeric (token : Token) : Bool :=
  token.text.all Char.isDigit

def isHexNumeric (token : Token) : Bool :=
  token.text.all isHexDigit

/-- `IsNumeric` for a part of the token. -/
def isNumericIn (token : Token) (start len : ℕ) : Bool :=
  ((token.text.drop start).take len).all Char.isDigit

def isLeftNumeric (token : Token) : Bool :=
  decide (2 ≤ token.text.length) && token.text.head?.any Char.isDigit

def isRightNumeric (token : Token) : Bool :=
  decide (2 ≤ token.text.length) && token.text.getLast?.any Char.isDigit

/-- `Find`, the first of some characters from a position on. -/
def find (token : Token) (chars : List Char) (start : ℕ) : Option ℕ :=
  ((token.text.drop start).findIdx? fun char => chars.contains char).map
    (· + start)

/-- The loop in `GetNumber` for a part of the token. -/
def readDigits (text : WString) : ℕ → ℕ → ℤ → Parse ℤ
  | 0, _, number => pure number
  | count + 1, i, number => do
      let char ← charAt text i
      if char.isDigit then
        readDigits text count (i + 1) (appendDigit number char)
      else pure number

/-- `GetNumber` for a part of the token of a known length. -/
def numberOf (token : Token) (start : ℕ) (len : ℤ) : Parse ℤ :=
  if len < 1 then pure (-1)
  else if token.text.length < start + len then pure (-1)
  else do
    let char ← charAt token.text start
    if char.isDigit then readDigits token.text len.toNat start 0
    else pure (-1)

/-- `GetNumber` for a part of the token, where the length -1 stands for the
rest. -/
def numberIn (token : Token) (start : ℕ) (len : ℤ) : Parse ℤ :=
  token.numberOf start
    (if len = -1 then (token.text.length : ℤ) - start else len)

/-- The loops in `GetNumber`, which give up on numbers that are too large. -/
def accumulate : WString → ℤ → ℤ
  | [], number => number
  | char :: chars, number =>
      if 922337203685477579 < number then -1
      else accumulate chars (number * 10 + digitValue char)

/-- Where the digits at the end of a token start, of which those from an index
on are known. -/
def digitsStart (text : WString) : ℕ → Parse ℕ
  | 0 => fault
  | start + 1 => do
      let char ← charAt text start
      if char.isDigit then digitsStart text start else pure (start + 1)

/-- `GetNumber`.  A token without digits at either end has the smallest
number. -/
def number (token : Token) : Parse ℤ :=
  if token.isNumeric || token.isLeftNumeric then
    pure (accumulate (token.text.takeWhile Char.isDigit) 0)
  else if token.isRightNumeric then do
    let start ← digitsStart token.text (token.text.length - 1)
    pure (accumulate (token.text.drop start) 0)
  else pure (-2 ^ 63)

/-- The value of a hexadecimal digit as it stands in the source. -/
def hexValue (char : Char) : ℤ :=
  if char.isDigit then digitValue char
  else if 'a' ≤ char ∧ char ≤ 'f' then digitValue char + 10
  else (char.toNat : ℤ) - 'A'.toNat + 10

/-- `GetNumber` for hexadecimal numbers. -/
def hexNumberFrom : WString → ℤ → ℤ
  | [], number => number
  | char :: chars, number =>
      if 576460752303423487 < number then -1
      else if isHexDigit char then
        hexNumberFrom chars (int64 (number * 16 + hexValue char))
      else -1

def hexNumber (token : Token) : ℤ := hexNumberFrom token.text 0

/-! ## Accesses to a token are in range -/

variable {token : Token}

theorem find_spec {chars : List Char} {start pos : ℕ}
    (hfind : token.find chars start = some pos) :
    start ≤ pos ∧ pos < token.text.length ∧
      ∃ char ∈ chars, token.text[pos]? = some char := by
  unfold find at hfind
  rcases Option.map_eq_some_iff.mp hfind with ⟨i, hi, rfl⟩
  have hidx := List.findIdx?_eq_some_iff_getElem.mp hi
  rcases hidx with ⟨hlt, hchar, _⟩
  rw [List.length_drop] at hlt
  have hpos : i + start < token.text.length := by omega
  refine ⟨Nat.le_add_left _ _, hpos, _, by simpa using hchar, ?_⟩
  rw [List.getElem?_eq_getElem hpos]
  congr 1
  simp only [Nat.add_comm i start]

theorem take_spec {len : ℕ} (hlen : len ≤ token.text.length) :
    Spec inv (token.take len) fun part =>
      part = ⟨token.offset, token.text.take len⟩ := by
  apply Spec.bind (Spec.inRange (decide_eq_true hlen))
  intro _ _
  exact Spec.pure rfl

theorem readDigits_spec {count i : ℕ} {number : ℤ}
    (hrange : i + count ≤ text.length) :
    Spec inv (readDigits text count i number) fun _ => True := by
  induction count generalizing i number with
  | zero => exact Spec.pure trivial
  | succ count ih =>
      unfold readDigits
      apply Spec.bind (charAt_spec (Int.natCast_nonneg i) (by omega))
      intro char _
      apply Spec.ite
      · intro _
        exact ih (by omega)
      · intro _
        exact Spec.pure trivial

theorem numberOf_spec (token : Token) (start : ℕ) (len : ℤ) :
    Spec inv (token.numberOf start len) fun _ => True := by
  unfold numberOf
  apply Spec.ite
  · intro _
    exact Spec.pure trivial
  intro hlen
  apply Spec.ite
  · intro _
    exact Spec.pure trivial
  intro hend
  apply Spec.bind (charAt_spec (Int.natCast_nonneg start) (by omega))
  intro char _
  apply Spec.ite
  · intro _
    exact readDigits_spec (by omega)
  · intro _
    exact Spec.pure trivial

theorem numberIn_spec (token : Token) (start : ℕ) (len : ℤ) :
    Spec inv (token.numberIn start len) fun _ => True :=
  numberOf_spec token start _

theorem digitsStart_spec {first : Char} {rest : WString}
    (htext : text = first :: rest) (hfirst : first.isDigit = false)
    {start : ℕ} (hstart : 0 < start) (hend : start < text.length) :
    Spec inv (digitsStart text start) fun found => found ≤ text.length := by
  induction start with
  | zero => omega
  | succ start ih =>
      unfold digitsStart
      apply Spec.bind (charAt_spec (Int.natCast_nonneg start) (by omega))
      intro char hchar
      apply Spec.ite
      · intro hdigit
        apply ih _ (by omega)
        by_contra hzero
        have hat : start = 0 := by omega
        rw [hat, htext] at hchar
        have hsame : first = char := by simpa using hchar
        rw [← hsame, hfirst] at hdigit
        cases hdigit
      · intro _
        exact Spec.pure hend.le

theorem number_spec (token : Token) :
    Spec inv token.number fun _ => True := by
  unfold number
  apply Spec.ite
  · intro _
    exact Spec.pure trivial
  intro hleft
  apply Spec.ite
  · intro hright
    have hsize : 2 ≤ token.text.length := by
      simp only [isRightNumeric, Bool.and_eq_true, decide_eq_true_eq] at hright
      exact hright.1
    obtain ⟨first, rest, htext⟩ : ∃ first rest, token.text = first :: rest := by
      cases hcase : token.text with
      | nil =>
          rw [hcase] at hsize
          cases hsize
      | cons first rest => exact ⟨first, rest, rfl⟩
    have hfirst : first.isDigit = false := by
      rw [Bool.or_eq_true, not_or] at hleft
      by_contra hdigit
      apply hleft.2
      unfold isLeftNumeric
      rw [decide_eq_true hsize, htext]
      simpa using hdigit
    apply Spec.bind (digitsStart_spec htext hfirst (by omega) (by omega))
    intro start _
    exact Spec.pure trivial
  · intro _
    exact Spec.pure trivial

end Token

end TabFtp
