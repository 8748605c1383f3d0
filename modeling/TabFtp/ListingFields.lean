import TabFtp.ListingTokens

/-!
# Months, file sizes and the entry that is parsed

The parsers of the formats fill one entry, field by field, and what they have
filled stays there when they give up.
-/

namespace TabFtp

open CheckedAttempts Attempt

/-- What `get_tm` tells of a date. -/
structure Tm where
  year : ℤ
  mon : ℤ
  mday : ℤ

/-- What the parser uses of the library for strings and times.  The clock is
read once. -/
structure ListingLibrary where
  /-- `fz::str_tolower_ascii` -/
  lowerAscii : WString → WString
  /-- `fz::to_integral<int>` with the value for texts that are no number -/
  toIntegral : WString → ℤ → ℤ
  /-- `datetime::set` with year, month, day, hour and minute -/
  setTime : Option Datetime → ℤ → ℤ → ℤ → ℤ → ℤ → Option Datetime × Bool
  /-- `datetime::imbue_time` -/
  imbueTime : Option Datetime → ℤ → ℤ → ℤ → Option Datetime × Bool
  /-- `datetime::get_tm` -/
  getTm : Option Datetime → Tm
  /-- `datetime::now` -/
  now : Option Datetime
  /-- `datetime` from a text -/
  ofText : WString → Option Datetime
  /-- `datetime` from seconds -/
  ofSeconds : ℤ → Option Datetime
  /-- `datetime::operator+=` with milliseconds -/
  shift : Option Datetime → ℤ → Option Datetime

/-! ## The entry -/

def getEntry : Parse DirectoryEntry := read ParseState.entry

def setEntry (change : DirectoryEntry → DirectoryEntry) : Parse Unit :=
  update fun state => { state with entry := change state.entry }

def setSize (size : ℤ) : Parse Unit :=
  setEntry fun entry => { entry with size := size }

def setTime (time : Option Datetime) : Parse Unit :=
  setEntry fun entry => { entry with time := time }

def setFlags (flags : ℕ) : Parse Unit :=
  setEntry fun entry => { entry with flags := flags }

/-- `flags |= flag` -/
def addFlag (flag : ℕ) : Parse Unit :=
  setEntry fun entry => { entry with flags := entry.flags ||| flag }

def setOwner (permissions ownerGroup : WString) : Parse Unit :=
  setEntry fun entry =>
    { entry with permissions := permissions, ownerGroup := ownerGroup }

def clearTarget : Parse Unit :=
  setEntry fun entry => { entry with target := none }

variable {text : WString}

theorem getEntry_spec : Spec (OnLine text) getEntry fun _ => True :=
  Spec.read fun _ _ => trivial

theorem setEntry_spec (change : DirectoryEntry → DirectoryEntry) :
    Spec (OnLine text) (setEntry change) fun _ => True :=
  Spec.update fun _ hstate => hstate

theorem setEntry_then {Value : Type} {change : DirectoryEntry → DirectoryEntry}
    {next : Parse Value} {post : Value → Prop}
    (hnext : Spec (OnLine text) next post) :
    Spec (OnLine text) (setEntry change >>= fun _ => next) post :=
  Spec.bind (setEntry_spec change) fun _ _ => hnext

/-! ## Months -/

def monthNames : List (String × ℕ) :=
  [
    -- English month names
    ("jan", 1), ("feb", 2), ("mar", 3), ("apr", 4), ("may", 5), ("jun", 6),
    ("june", 6), ("jul", 7), ("july", 7), ("aug", 8), ("sep", 9), ("sept", 9),
    ("oct", 10), ("nov", 11), ("dec", 12),
    -- Numerical values for the month
    ("1", 1), ("01", 1), ("2", 2), ("02", 2), ("3", 3), ("03", 3), ("4", 4),
    ("04", 4), ("5", 5), ("05", 5), ("6", 6), ("06", 6), ("7", 7), ("07", 7),
    ("8", 8), ("08", 8), ("9", 9), ("09", 9), ("10", 10), ("11", 11),
    ("12", 12),
    -- German month names
    ("mrz", 3), ("m\xe4r", 3), ("m\xe4rz", 3), ("mai", 5), ("juni", 6),
    ("juli", 7), ("okt", 10), ("dez", 12),
    -- Austrian month names
    ("j\xe4n", 1),
    -- French month names
    ("janv", 1), ("f\xe9b", 1), ("f\xe9v", 2), ("fev", 2), ("f\xe9vr", 2),
    ("fevr", 2), ("mars", 3), ("mrs", 3), ("avr", 4), ("avril", 4),
    ("juin", 6), ("juil", 7), ("jui", 7), ("ao\xfb", 8), ("ao\xfbt", 8),
    ("aout", 8), ("d\xe9c", 12), ("dec", 12),
    -- Italian month names
    ("gen", 1), ("mag", 5), ("giu", 6), ("lug", 7), ("ago", 8), ("set", 9),
    ("ott", 10), ("dic", 12),
    -- Spanish month names
    ("ene", 1), ("fbro", 2), ("mzo", 3), ("ab", 4), ("abr", 4), ("agto", 8),
    ("sbre", 9), ("obre", 9), ("nbre", 9), ("dbre", 9),
    -- Polish month names
    ("sty", 1), ("lut", 2), ("kwi", 4), ("maj", 5), ("cze", 6), ("lip", 7),
    ("sie", 8), ("wrz", 9), ("pa\x9f", 10), ("pa\xbc", 10), ("paz", 10),
    ("pa\xc5\xba", 10), ("pa\u017a", 10), ("lis", 11), ("gru", 12),
    -- Russian month names
    ("\xff\xed\xe2", 1), ("\xf4\xe5\xe2", 2), ("\xec\xe0\xf0", 3),
    ("\xe0\xef\xf0", 4), ("\xec\xe0\xe9", 5), ("\xe8\xfe\xed", 6),
    ("\xe8\xfe\xeb", 7), ("\xe0\xe2\xe3", 8), ("\xf1\xe5\xed", 9),
    ("\xee\xea\xf2", 10), ("\xed\xee\xff", 11), ("\xe4\xe5\xea", 12),
    -- Dutch month names
    ("mrt", 3), ("mei", 5),
    -- Portuguese month names
    ("out", 10),
    -- Finnish month names
    ("tammi", 1), ("helmi", 2), ("maalis", 3), ("huhti", 4), ("touko", 5),
    ("kes\xe4", 6), ("hein\xe4", 7), ("elo", 8), ("syys", 9), ("loka", 10),
    ("marras", 11), ("joulu", 12),
    -- Slovenian month names
    ("avg", 8),
    -- Icelandic
    ("ma\xed", 5), ("j\xfan", 6), ("j\xfal", 7), ("\xe1g", 8), ("n\xf3v", 11),
    ("des", 12),
    -- Lithuanian
    ("sau", 1), ("vas", 2), ("kov", 3), ("bal", 4), ("geg", 5), ("bir", 6),
    ("lie", 7), ("rgp", 8), ("rgs", 9), ("spa", 10), ("lap", 11), ("grd", 12),
    -- Hungarian
    ("szept", 9)
  ]

/-- An assignment to an entry of a `std::map`. -/
def assignMonth (name : WString) (month : ℕ) :
    List (WString × ℕ) → List (WString × ℕ)
  | [] => [(name, month)]
  | (other, value) :: map =>
      if name = other then (name, month) :: map
      else if name < other then (name, month) :: (other, value) :: map
      else (other, value) :: assignMonth name month map

def assignMonths (names : List (WString × ℕ)) (map : List (WString × ℕ)) :
    List (WString × ℕ) :=
  names.foldl (fun map name => assignMonth name.1 name.2 map) map

/-- `%d` for a number with one digit. -/
def oneDigit (number : ℕ) : WString := [Nat.digitChar number]

/-- `%02d` for a number with at most two digits. -/
def twoDigits (number : ℕ) : WString :=
  [Nat.digitChar (number / 10), Nat.digitChar (number % 10)]

def monthCombos (name : WString × ℕ) : List (WString × ℕ) :=
  [(name.1 ++ twoDigits name.2, name.2),
    (name.1 ++ twoDigits (name.2 - 1), name.2),
    (name.1 ++ oneDigit (if name.2 < 10 then name.2 else name.2 % 10), name.2),
    (name.1 ++ oneDigit
      (if name.2 ≤ 10 then name.2 - 1 else (name.2 - 1) % 10), name.2)]

/-- `m_MonthNamesMap`, where a combination does not replace a name. -/
def monthNamesMap : List (WString × ℕ) :=
  let names := assignMonths
    (monthNames.map fun name => (name.1.toList, name.2)) []
  let combos := assignMonths (names.flatMap monthCombos) []
  let all := assignMonths
    (combos.filter fun combo => (names.lookup combo.1).isNone) names
  assignMonths
    ((List.range' 1 12).map fun month => ((toString month).toList, month)) all

@[irreducible]
def getMonthFromName (lib : ListingLibrary) (name : WString) : Option ℕ :=
  monthNamesMap.lookup (lib.lowerAscii name)

/-! ## File sizes -/

/-- The length of the number and the unit behind it, which is the terminator
if there is none. -/
def sizeUnit (text : WString) : Parse (ℤ × Char) := do
  let len : ℤ := text.length
  let last ← charAt text (len - 1)
  if last = 'B' ∨ last = 'b' then
    if len = 1 then mismatch
    else do
      let char ← charAt text (len - 2)
      if char.isDigit then pure (len - 1, '\x00') else pure (len - 2, char)
  else if last.isDigit then pure (len, '\x00')
  else if len - 1 = 0 then mismatch
  else pure (len - 1, last)

/-- The loop over the number, which has `count` characters left.  The result
is the number of digits behind the dot. -/
def sizeDigits (text : WString) (len : ℤ) : ℕ → ℤ → ℤ → Parse ℤ
  | 0, _, dot => pure dot
  | count + 1, i, dot => do
      let char ← charAt text i
      if char.isDigit then do
        let entry ← getEntry
        setSize (appendDigit entry.size char)
        sizeDigits text len count (i + 1) dot
      else if char = '.' then
        if dot ≠ -1 then mismatch
        else sizeDigits text len count (i + 1) (len - i - 1)
      else mismatch

def scaleSize (last : Char) (blocksize size : ℤ) : Option ℤ :=
  if last = 'k' ∨ last = 'K' then some (int64 (size * 1024))
  else if last = 'm' ∨ last = 'M' then some (int64 (size * (1024 * 1024)))
  else if last = 'g' ∨ last = 'G' then
    some (int64 (size * (1024 * 1024 * 1024)))
  else if last = 't' ∨ last = 'T' then
    some (int64 (int64 (size * (1024 * 1024)) * (1024 * 1024)))
  else if last = 'b' ∨ last = 'B' then some size
  else if last = '\x00' then
    some (if blocksize ≠ -1 then int64 (size * blocksize) else size)
  else none

def dropDecimals : ℕ → Parse Unit
  | 0 => pure ()
  | count + 1 => do
      let entry ← getEntry
      let size ← divide entry.size 10
      setSize size
      dropDecimals count

/-- `ParseComplexFileSize` for the size of the entry. -/
def parseComplexFileSize (token : Token) (blocksize : ℤ) : Parse Unit :=
  if token.isNumeric then do
    let number ← token.number
    setSize (if blocksize ≠ -1 then int64 (number * blocksize) else number)
  else do
    let unit ← sizeUnit token.text
    setSize 0
    let dot ← sizeDigits token.text unit.1 unit.1.toNat 0 (-1)
    let entry ← getEntry
    let size ← expect (scaleSize unit.2 blocksize entry.size)
    setSize size
    dropDecimals dot.toNat

theorem sizeUnit_spec (htext : text ≠ []) {inv : ParseState → Prop} :
    Spec inv (sizeUnit text) fun unit => unit.1 ≤ text.length := by
  have hpos := List.length_pos_iff.mpr htext
  unfold sizeUnit
  apply Spec.bind (charAt_spec (by omega) (by omega))
  intro last _
  apply Spec.ite
  · intro _
    apply Spec.ite
    · intro _
      exact Spec.mismatch
    · intro hlen
      apply Spec.bind (charAt_spec (by omega) (by omega))
      intro char _
      apply Spec.ite
      · intro _
        exact Spec.pure (by omega)
      · intro _
        exact Spec.pure (by omega)
  · intro _
    apply Spec.ite
    · intro _
      exact Spec.pure le_rfl
    · intro _
      apply Spec.ite
      · intro _
        exact Spec.mismatch
      · intro _
        exact Spec.pure (by omega)

theorem sizeDigits_spec {size : WString} {len : ℤ} {count : ℕ} {i dot : ℤ}
    (hstart : 0 ≤ i) (hend : i + count ≤ size.length) :
    Spec (OnLine text) (sizeDigits size len count i dot) fun _ => True := by
  induction count generalizing i dot with
  | zero => exact Spec.pure trivial
  | succ count ih =>
      have hnext : 0 ≤ i + 1 := by omega
      have hrange : i + 1 + count ≤ size.length := by omega
      unfold sizeDigits
      apply Spec.bind (charAt_spec hstart (by omega))
      intro char _
      apply Spec.ite
      · intro _
        apply Spec.bind getEntry_spec
        intro entry _
        apply setEntry_then
        exact ih hnext hrange
      · intro _
        apply Spec.ite
        · intro _
          apply Spec.ite
          · intro _
            exact Spec.mismatch
          · intro _
            exact ih hnext hrange
        · intro _
          exact Spec.mismatch

theorem dropDecimals_spec (count : ℕ) :
    Spec (OnLine text) (dropDecimals count) fun _ => True := by
  induction count with
  | zero => exact Spec.pure trivial
  | succ count ih =>
      unfold dropDecimals
      apply Spec.bind getEntry_spec
      intro entry _
      apply Spec.bind (divide_spec (by decide))
      intro size _
      apply setEntry_then
      exact ih

theorem parseComplexFileSize_spec {token : Token} (htoken : token.text ≠ [])
    (blocksize : ℤ) :
    Spec (OnLine text) (parseComplexFileSize token blocksize)
      fun _ => True := by
  unfold parseComplexFileSize
  apply Spec.ite
  · intro _
    apply Spec.bind token.number_spec
    intro number _
    exact setEntry_spec _
  · intro _
    apply Spec.bind (sizeUnit_spec htoken)
    intro unit hunit
    apply setEntry_then
    apply Spec.bind (sizeDigits_spec le_rfl (by omega))
    intro dot _
    apply Spec.bind getEntry_spec
    intro entry _
    apply Spec.bind (Spec.expect _)
    intro size _
    apply setEntry_then
    exact dropDecimals_spec _

end TabFtp
