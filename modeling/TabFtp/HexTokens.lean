import TabFtp.ListingFormats

/-!
# Hexadecimal tokens

The loop of `GetNumber` takes the value of a lower-case digit from `'0'`
instead of `'a'`, which makes it larger by 49.  The sizes of load modules on
MVS are read with it.
-/

namespace TabFtp

open CheckedAttempts Attempt
open Token (hexValue)

/-! ## What the digits stand for -/

def isLowerHex (char : Char) : Bool :=
  'a' ≤ char && char ≤ 'f'

def hexDigitValue (char : Char) : ℤ :=
  if isLowerHex char then (char.toNat : ℤ) - 'a'.toNat + 10 else hexValue char

/-- The digits behind a number that is known. -/
def hexReading (digits : WString) (number : ℤ) : ℤ :=
  digits.foldl (fun number char => number * 16 + hexDigitValue char) number

def looseReading (digits : WString) (number : ℤ) : ℤ :=
  digits.foldl (fun number char => number * 16 + hexValue char) number

/-- The token is a number that an `int64_t` can hold. -/
def FitsHex (text : WString) : Prop :=
  text.all isHexDigit = true ∧ hexReading text 0 < 2 ^ 63

def HexInRange : WString → ℤ → Prop
  | [], _ => True
  | char :: chars, number =>
      number ≤ 576460752303423487 → isHexDigit char = true →
        number * 16 + hexValue char < 2 ^ 63 ∧
          HexInRange chars (number * 16 + hexValue char)

/-- A digit that is added to a number below the guard does not make it too
large, in any of the digits at the front. -/
def NoDigitOverflows (text : WString) : Prop :=
  ∀ front char rest, text = front ++ char :: rest →
    (front ++ [char]).all isHexDigit = true →
    looseReading front 0 ≤ 576460752303423487 →
    looseReading (front ++ [char]) 0 < 2 ^ 63

theorem isLowerHex_iff {char : Char} :
    isLowerHex char = true ↔ 97 ≤ char.toNat ∧ char.toNat ≤ 102 := by
  simp only [isLowerHex, Bool.and_eq_true, decide_eq_true_eq, Char.le_def,
    UInt32.le_iff_toNat_le]
  rfl

theorem hexDigit_cases {char : Char} (hdigit : isHexDigit char = true) :
    (48 ≤ char.toNat ∧ char.toNat ≤ 57 ∧ char.isDigit = true) ∨
      (65 ≤ char.toNat ∧ char.toNat ≤ 70) ∨
      (97 ≤ char.toNat ∧ char.toNat ≤ 102) := by
  simp only [isHexDigit, Char.isDigit, Bool.or_eq_true, Bool.and_eq_true,
    decide_eq_true_eq, Char.le_def, UInt32.le_iff_toNat_le, ge_iff_le] at *
  change (48 ≤ char.toNat ∧ char.toNat ≤ 57 ∨
    65 ≤ char.toNat ∧ char.toNat ≤ 70) ∨
      97 ≤ char.toNat ∧ char.toNat ≤ 102 at hdigit
  change (48 ≤ char.toNat ∧ char.toNat ≤ 57 ∧
    (48 ≤ char.toNat ∧ char.toNat ≤ 57)) ∨ _
  omega

theorem isDigit_iff {char : Char} :
    char.isDigit = true ↔ 48 ≤ char.toNat ∧ char.toNat ≤ 57 := by
  simp only [Char.isDigit, Bool.and_eq_true, decide_eq_true_eq, ge_iff_le,
    UInt32.le_iff_toNat_le]
  rfl

theorem hexDigit_bounds {char : Char} (hdigit : isHexDigit char = true) :
    0 ≤ hexDigitValue char ∧ hexDigitValue char ≤ 15 ∧
      hexValue char = hexDigitValue char +
        if isLowerHex char then 49 else 0 := by
  have hzero : ('0' : Char).toNat = 48 := rfl
  have hlower : ('a' : Char).toNat = 97 := rfl
  have hupper : ('A' : Char).toNat = 65 := rfl
  have hbetween : ('a' ≤ char ∧ char ≤ 'f') ↔ isLowerHex char = true := by
    simp [isLowerHex]
  unfold hexDigitValue hexValue digitValue
  simp only [hbetween, isLowerHex_iff, isDigit_iff, hzero, hlower, hupper]
  rcases hexDigit_cases hdigit with ⟨hfrom, hto, -⟩ | ⟨hfrom, hto⟩ | ⟨hfrom, hto⟩
  · rw [if_neg (by omega), if_pos ⟨hfrom, hto⟩, if_neg (by omega)]
    omega
  · rw [if_neg (by omega), if_neg (by omega), if_neg (by omega),
      if_neg (by omega)]
    omega
  · rw [if_pos ⟨hfrom, hto⟩, if_neg (by omega), if_pos ⟨hfrom, hto⟩,
      if_pos ⟨hfrom, hto⟩]
    omega

theorem hexValue_bounds {char : Char} (hdigit : isHexDigit char = true) :
    hexDigitValue char ≤ hexValue char := by
  obtain ⟨-, -, hvalue⟩ := hexDigit_bounds hdigit
  rw [hvalue]
  split
  · omega
  · omega

/-! ## The readings grow with the digits -/

variable {text : WString} {number exact : ℤ}

theorem le_hexReading (hdigits : text.all isHexDigit = true)
    (hpos : 0 ≤ number) : number ≤ hexReading text number := by
  induction text generalizing number with
  | nil => exact le_refl _
  | cons char chars ih =>
      rw [List.all_cons, Bool.and_eq_true] at hdigits
      have hdigit := hexDigit_bounds hdigits.1
      have hrest := @ih (number * 16 + hexDigitValue char) hdigits.2 (by omega)
      change number ≤ hexReading chars (number * 16 + hexDigitValue char)
      omega

theorem le_looseReading (hdigits : text.all isHexDigit = true)
    (hpos : 0 ≤ number) : number ≤ looseReading text number := by
  induction text generalizing number with
  | nil => exact le_refl _
  | cons char chars ih =>
      rw [List.all_cons, Bool.and_eq_true] at hdigits
      have hdigit := hexDigit_bounds hdigits.1
      have hvalue := hexValue_bounds hdigits.1
      have hrest := @ih (number * 16 + hexValue char) hdigits.2 (by omega)
      change number ≤ looseReading chars (number * 16 + hexValue char)
      omega

/-! ## The loop -/

namespace Token

theorem hexNumberFrom_guard {char : Char} {chars : WString}
    (hlarge : 576460752303423487 < number) :
    hexNumberFrom (char :: chars) number = -1 := by
  rw [hexNumberFrom, if_pos hlarge]

theorem hexNumberFrom_other {char : Char} {chars : WString}
    (hother : isHexDigit char = false) :
    hexNumberFrom (char :: chars) number = -1 := by
  rw [hexNumberFrom]
  simp [hother]

theorem hexNumberFrom_digit {char : Char} {chars : WString}
    (hpos : 0 ≤ number) (hsmall : number ≤ 576460752303423487)
    (hdigit : isHexDigit char = true)
    (hrange : number * 16 + hexValue char < 2 ^ 63) :
    hexNumberFrom (char :: chars) number =
      hexNumberFrom chars (number * 16 + hexValue char) := by
  have hvalue := hexValue_bounds hdigit
  have hdigitPos := (hexDigit_bounds hdigit).1
  rw [hexNumberFrom, if_neg (by omega), if_pos hdigit,
    int64_of_lt (by omega) hrange]

/-- What is not a hexadecimal number of an `int64_t` is rejected. -/
theorem hexNumberFrom_rejects (hrange : HexInRange text number)
    (hpos : 0 ≤ exact) (hle : exact ≤ number) (hnumber : number < 2 ^ 63)
    (hnot : ¬ (text.all isHexDigit = true ∧
      hexReading text exact < 2 ^ 63)) :
    hexNumberFrom text number = -1 := by
  induction text generalizing number exact with
  | nil => exact absurd ⟨rfl, lt_of_le_of_lt hle hnumber⟩ hnot
  | cons char chars ih =>
      rcases Int.lt_or_le 576460752303423487 number with hlarge | hsmall
      · exact hexNumberFrom_guard hlarge
      cases hdigit : isHexDigit char with
      | false => exact hexNumberFrom_other hdigit
      | true =>
          obtain ⟨hfits, hrest⟩ := hrange hsmall hdigit
          have hdigitPos := (hexDigit_bounds hdigit).1
          have hvalue := hexValue_bounds hdigit
          rw [hexNumberFrom_digit (by omega) hsmall hdigit hfits]
          refine @ih _ (exact * 16 + hexDigitValue char) hrest (by omega)
            (by omega) hfits ?_
          rintro ⟨hall, hreading⟩
          apply hnot
          rw [List.all_cons, hdigit, hall]
          exact ⟨rfl, hreading⟩

/-- Without lower-case digits the loop does not overflow, -/
theorem hexInRange_of_upper (hupper : ∀ char ∈ text, isLowerHex char = false) :
    HexInRange text number := by
  induction text generalizing number with
  | nil => trivial
  | cons char chars ih =>
      intro hsmall hdigit
      obtain ⟨-, hle, hvalue⟩ := hexDigit_bounds hdigit
      rw [hupper char List.mem_cons_self] at hvalue
      refine ⟨?_, ih fun other hmem =>
        hupper other (List.mem_cons_of_mem char hmem)⟩
      simp only [Bool.false_eq_true, if_false, add_zero] at hvalue
      omega

/-- and the result is exact. -/
theorem hexNumberFrom_upper (hupper : ∀ char ∈ text, isLowerHex char = false)
    (hpos : 0 ≤ number) (hdigits : text.all isHexDigit = true)
    (hfits : hexReading text number < 2 ^ 63) :
    hexNumberFrom text number = hexReading text number := by
  induction text generalizing number with
  | nil => rfl
  | cons char chars ih =>
      rw [List.all_cons, Bool.and_eq_true] at hdigits
      obtain ⟨hdigitPos, hle, hvalue⟩ := hexDigit_bounds hdigits.1
      rw [hupper char List.mem_cons_self] at hvalue
      simp only [Bool.false_eq_true, if_false, add_zero] at hvalue
      change hexReading chars (number * 16 + hexDigitValue char) < 2 ^ 63
        at hfits
      have hnext := le_hexReading hdigits.2
        (by omega : 0 ≤ number * 16 + hexDigitValue char)
      rw [hexNumberFrom_digit hpos (by omega) hdigits.1 (by omega), hvalue]
      exact ih (fun other hmem => hupper other (List.mem_cons_of_mem _ hmem))
        (by omega) hdigits.2 hfits

/-- A lower-case digit makes the result too large for good. -/
theorem hexNumberFrom_lower (hrange : HexInRange text number)
    (hpos : 0 ≤ exact) (hle : exact ≤ number)
    (hdigits : text.all isHexDigit = true)
    (hlower : exact < number ∨ ∃ char ∈ text, isLowerHex char = true) :
    hexNumberFrom text number = -1 ∨
      hexReading text exact < hexNumberFrom text number := by
  induction text generalizing number exact with
  | nil =>
      right
      rcases hlower with hless | ⟨char, hmem, -⟩
      · exact hless
      · cases hmem
  | cons char chars ih =>
      rcases Int.lt_or_le 576460752303423487 number with hlarge | hsmall
      · exact .inl (hexNumberFrom_guard hlarge)
      rw [List.all_cons, Bool.and_eq_true] at hdigits
      obtain ⟨hfits, hrest⟩ := hrange hsmall hdigits.1
      obtain ⟨hdigitPos, -, hvalue⟩ := hexDigit_bounds hdigits.1
      have hnext := hexValue_bounds hdigits.1
      rw [hexNumberFrom_digit (by omega) hsmall hdigits.1 hfits]
      refine @ih _ (exact * 16 + hexDigitValue char) hrest (by omega)
        (by omega) hdigits.2 ?_
      rcases hlower with hless | ⟨other, hmem, hother⟩
      · exact .inl (by omega)
      rcases List.mem_cons.mp hmem with rfl | hlater
      · rw [hother, if_pos rfl] at hvalue
        exact .inl (by omega)
      · exact .inr ⟨other, hlater, hother⟩

/-- The loop overflows only where a digit makes the number too large. -/
theorem hexInRange_iff (hpos : 0 ≤ number) :
    HexInRange text number ↔
      ∀ front char rest, text = front ++ char :: rest →
        (front ++ [char]).all isHexDigit = true →
        looseReading front number ≤ 576460752303423487 →
        looseReading (front ++ [char]) number < 2 ^ 63 := by
  induction text generalizing number with
  | nil =>
      constructor
      · intro _ front char rest hsplit
        exact absurd hsplit.symm (by simp)
      · intro _
        trivial
  | cons char chars ih =>
      constructor
      · intro hrange front other rest hsplit hdigits hsmall
        cases front with
        | nil =>
            obtain ⟨rfl, -⟩ := List.cons.inj hsplit
            rw [List.nil_append, List.all_cons, Bool.and_eq_true] at hdigits
            exact (hrange hsmall hdigits.1).1
        | cons first front =>
            obtain ⟨rfl, hrest⟩ := List.cons.inj hsplit
            rw [List.cons_append, List.all_cons, Bool.and_eq_true] at hdigits
            have hvalue := hexValue_bounds hdigits.1
            have hdigitPos := (hexDigit_bounds hdigits.1).1
            have hfront : front.all isHexDigit = true := by
              rw [List.all_append, Bool.and_eq_true] at hdigits
              exact hdigits.2.1
            have hnext := le_looseReading hfront
              (by omega : 0 ≤ number * 16 + hexValue char)
            change looseReading front (number * 16 + hexValue char) ≤ _
              at hsmall
            have hlater := (hrange (by omega) hdigits.1).2
            exact (ih (by omega)).mp hlater front other rest hrest hdigits.2
              hsmall
      · intro hall hsmall hdigit
        have hvalue := hexValue_bounds hdigit
        have hdigitPos := (hexDigit_bounds hdigit).1
        refine ⟨hall [] char chars rfl (by simp [hdigit]) hsmall, ?_⟩
        rw [ih (by omega)]
        intro front other rest hsplit hdigits hguard
        refine hall (char :: front) other rest (by rw [hsplit]; rfl) ?_ hguard
        rw [List.cons_append, List.all_cons, hdigit, hdigits]
        rfl

end Token

/-! ## The size of a load module -/

section Steps

variable {Value Result : Type}

def KeepsEntry (attempt : Parse Value) : Prop :=
  ∀ state value after, attempt state = .success value after →
    after.entry = state.entry

theorem success_of_bind {attempt : Parse Value}
    {next : Value → Parse Result} {state after : ParseState} {result : Result}
    (hboth : (attempt >>= next) state = .success result after) :
    ∃ value mid, attempt state = .success value mid ∧
      next value mid = .success result after := by
  cases hfirst : attempt state with
  | fault =>
      rw [bind_of_fault hfirst] at hboth
      contradiction
  | mismatch mid =>
      rw [bind_of_mismatch hfirst] at hboth
      contradiction
  | success value mid =>
      rw [bind_of_success hfirst] at hboth
      exact ⟨value, mid, rfl, hboth⟩

theorem KeepsEntry.bind {attempt : Parse Value} {next : Value → Parse Result}
    (hfirst : KeepsEntry attempt) (hnext : ∀ value, KeepsEntry (next value)) :
    KeepsEntry (attempt >>= next) := by
  intro state result after hboth
  obtain ⟨value, mid, hvalue, hresult⟩ := success_of_bind hboth
  exact (hnext value mid result after hresult).trans
    (hfirst state value mid hvalue)

theorem KeepsEntry.pure (value : Value) :
    KeepsEntry (Pure.pure value : Parse Value) := by
  intro state result after hpure
  cases hpure
  rfl

theorem KeepsEntry.require (condition : Bool) :
    KeepsEntry (Attempt.require condition : Parse Unit) := by
  intro state result after hrequire
  unfold Attempt.require at hrequire
  split at hrequire
  · cases hrequire
    rfl
  · contradiction

theorem KeepsEntry.read (part : ParseState → Value) :
    KeepsEntry (Attempt.read part) := by
  intro state result after hread
  cases hread
  rfl

theorem KeepsEntry.getToken (n : ℕ) : KeepsEntry (getToken n) := by
  intro state token after htoken
  unfold TabFtp.getToken at htoken
  split at htoken
  · cases htoken
    rfl
  · split at htoken
    · contradiction
    · cases htoken
      rfl

theorem KeepsEntry.needToken (n : ℕ) : KeepsEntry (needToken n) :=
  (KeepsEntry.getToken n).bind fun _ =>
    (KeepsEntry.require _).bind fun _ => KeepsEntry.pure _

theorem tokensEnd_keepsEntry (fuel index : ℕ) :
    KeepsEntry (tokensEnd fuel index) := by
  induction fuel generalizing index with
  | zero =>
      intro state value after hfault
      contradiction
  | succ fuel ih =>
      apply (KeepsEntry.getToken index).bind
      intro token
      split
      · exact KeepsEntry.pure _
      · exact ih _

theorem pds2Attributes_keepsEntry (count index : ℕ) :
    KeepsEntry (pds2Attributes count index) := by
  induction count generalizing index with
  | zero => exact KeepsEntry.pure _
  | succ count ih =>
      apply (KeepsEntry.needToken index).bind
      intro token
      exact (KeepsEntry.require _).bind fun _ => ih _

theorem pds2Number_keepsEntry (n : ℕ) : KeepsEntry (pds2Number n) :=
  (KeepsEntry.needToken n).bind fun _ => KeepsEntry.require _

theorem pds2Rest_keepsEntry : KeepsEntry pds2Rest := by
  unfold pds2Rest needNumber
  apply (KeepsEntry.needToken 2).bind
  intro _
  apply (KeepsEntry.require _).bind
  intro _
  apply KeepsEntry.bind
  · exact (KeepsEntry.needToken 3).bind fun _ =>
      (KeepsEntry.require _).bind fun _ => KeepsEntry.pure _
  intro _
  apply (KeepsEntry.read _).bind
  intro _
  apply (tokensEnd_keepsEntry _ _).bind
  intro _
  apply (KeepsEntry.require _).bind
  intro _
  apply (pds2Number_keepsEntry _).bind
  intro _
  exact (pds2Number_keepsEntry _).bind fun _ => pds2Attributes_keepsEntry _ _

end Steps

/-- The token that `getToken` hands out does not depend on the entry. -/
theorem getToken_entry {n : ℕ} {state after : ParseState} {token : Token}
    (htoken : getToken n state = .success token after)
    (entry : DirectoryEntry) :
    getToken n { state with entry := entry } =
      .success token { after with entry := entry } := by
  unfold getToken at htoken ⊢
  cases hfound : state.line.tokens[n]? with
  | some found =>
      simp only [hfound] at htoken ⊢
      cases htoken
      rfl
  | none =>
      cases hscan : state.line.scan n
          (state.line.text.drop state.line.parsePos)
          (some state.line.parsePos) with
      | none =>
          simp only [hfound, hscan] at htoken
          contradiction
      | some line =>
          simp only [hfound, hscan] at htoken ⊢
          cases htoken
          rfl

/-- The second token of an accepted line gives the size. -/
theorem parseAsIbmMvsPds2_size {state first second after : ParseState}
    {name token : Token} {named : Named}
    (hparsed : parseAsIbmMvsPds2 state = .success named after)
    (hname : getToken 0 state = .success name first)
    (htoken : getToken 1 first = .success token second)
    (hthere : token.text ≠ []) :
    after.entry.size = token.hexNumber ∧ token.hexNumber ≠ -1 := by
  unfold parseAsIbmMvsPds2 needToken at hparsed
  obtain ⟨_, _, hneed, hparsed⟩ := success_of_bind hparsed
  obtain ⟨_, _, hget, hneed⟩ := success_of_bind hneed
  rw [hname] at hget
  cases hget
  obtain ⟨_, _, hrequire, hneed⟩ := success_of_bind hneed
  unfold require at hrequire
  split at hrequire
  swap
  · contradiction
  cases hrequire
  cases hneed
  obtain ⟨_, _, hset, hparsed⟩ := success_of_bind hparsed
  cases hset
  obtain ⟨_, _, hset, hparsed⟩ := success_of_bind hparsed
  cases hset
  obtain ⟨_, _, hset, hparsed⟩ := success_of_bind hparsed
  cases hset
  obtain ⟨_, _, hget, hparsed⟩ := success_of_bind hparsed
  rw [getToken_entry htoken] at hget
  cases hget
  rw [if_neg (by simpa using hthere)] at hparsed
  obtain ⟨_, _, hset, hparsed⟩ := success_of_bind hparsed
  cases hset
  obtain ⟨_, _, hrequire, hparsed⟩ := success_of_bind hparsed
  unfold require at hrequire
  split at hrequire
  swap
  · contradiction
  rename_i hsome
  cases hrequire
  obtain ⟨_, _, hrest, hparsed⟩ := success_of_bind hparsed
  have hentry := pds2Rest_keepsEntry _ _ _ hrest
  cases hparsed
  rw [hentry]
  exact ⟨rfl, by simpa using hsome⟩

/-! ## Exact values -/

/-- A token is read as the hexadecimal number that it is. -/
structure HexReadExactly (token : Token) : Prop where
  exact : FitsHex token.text → token.hexNumber = hexReading token.text 0
  rejects : ¬ FitsHex token.text → token.hexNumber = -1
  inRange : HexInRange token.text 0
  recorded : ∀ {state first second after : ParseState} {name : Token}
    {named : Named}, parseAsIbmMvsPds2 state = .success named after →
    getToken 0 state = .success name first →
    getToken 1 first = .success token second →
    after.entry.size = hexReading token.text 0

/-- What has to be shown of the number of the token. -/
theorem HexReadExactly.of_number {token : Token} (hthere : token.text ≠ [])
    (hexact : FitsHex token.text →
      token.hexNumber = hexReading token.text 0)
    (hrejects : ¬ FitsHex token.text → token.hexNumber = -1)
    (hrange : HexInRange token.text 0) : HexReadExactly token := by
  refine ⟨hexact, hrejects, hrange, ?_⟩
  intro state first second after name named hparsed hname htoken
  obtain ⟨hsize, hsome⟩ :=
    parseAsIbmMvsPds2_size hparsed hname htoken hthere
  have hfits : FitsHex token.text := by
    by_contra hnot
    exact hsome (hrejects hnot)
  rw [hsize, hexact hfits]

/-- Only tokens without lower-case digits are read exactly, and those that are
rejected without an overflow. -/
theorem hex_token_read_iff {token : Token} (hthere : token.text ≠ []) :
    HexReadExactly token ↔
      (∀ char ∈ token.text, isLowerHex char = false) ∨
        ¬ FitsHex token.text ∧ NoDigitOverflows token.text := by
  constructor
  · intro hread
    by_cases hupper : ∀ char ∈ token.text, isLowerHex char = false
    · exact .inl hupper
    right
    refine ⟨?_, (Token.hexInRange_iff (le_refl 0)).mp hread.inRange⟩
    intro hfits
    have hlower : ∃ char ∈ token.text, isLowerHex char = true := by
      simpa using hupper
    have hresult := hread.exact hfits
    have hpos := le_hexReading hfits.1 (le_refl 0)
    rcases Token.hexNumberFrom_lower hread.inRange (le_refl 0) (le_refl 0)
      hfits.1 (.inr hlower) with hnone | hmore
    · rw [Token.hexNumber, hnone] at hresult
      omega
    · rw [Token.hexNumber] at hresult
      omega
  · intro hcondition
    rcases hcondition with hupper | ⟨hnot, hdigits⟩
    · have hrange := @Token.hexInRange_of_upper token.text 0 hupper
      apply HexReadExactly.of_number hthere
      · intro hfits
        exact Token.hexNumberFrom_upper hupper (le_refl 0) hfits.1 hfits.2
      · exact Token.hexNumberFrom_rejects hrange (le_refl 0) (le_refl 0)
          (by norm_num)
      · exact hrange
    · have hrange := (Token.hexInRange_iff (le_refl 0)).mpr hdigits
      apply HexReadExactly.of_number hthere
      · intro hfits
        exact absurd hfits hnot
      · exact Token.hexNumberFrom_rejects hrange (le_refl 0) (le_refl 0)
          (by norm_num)
      · exact hrange

/-- Upper-case digits are read exactly. -/
theorem hex_token_read_iff_upper :
    Token.hexNumber ⟨0, ['1', 'F']⟩ = 31 ∧ HexReadExactly ⟨0, ['1', 'F']⟩ := by
  have hupper : ∀ char ∈ ['1', 'F'], isLowerHex char = false :=
    List.forall_mem_cons.mpr ⟨rfl, List.forall_mem_singleton.mpr rfl⟩
  exact ⟨by decide,
    (hex_token_read_iff (List.cons_ne_nil _ _)).mpr (.inl hupper)⟩

/-- The letter is counted as 59. -/
theorem lower_case_token_misread :
    Token.hexNumber ⟨0, "a".toList⟩ = 59 ∧ hexReading "a".toList 0 = 10 ∧
      ¬ HexReadExactly ⟨0, "a".toList⟩ := by
  have hcode : Token.hexNumber ⟨0, "a".toList⟩ = 59 := by decide
  have hvalue : hexReading "a".toList 0 = 10 := by decide
  refine ⟨hcode, hvalue, ?_⟩
  intro hread
  have hresult := hread.exact ⟨rfl, by rw [hvalue]; norm_num⟩
  rw [hcode, hvalue] at hresult
  omega

end TabFtp
