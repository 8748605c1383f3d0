import TabFtp.ServerPathContainment

/-!
# Values of options

An option has a definition, which says what values it can have, and a value.
`validate` tells whether a text is a value for an option, `set` makes it the
value.  The two are separate code.
-/

namespace TabFtp

/-- What options use of the string library. -/
structure IntegerText where
  /-- `fz::to_integral<int>`, with the result for a text that is not a
  number. -/
  toIntegral : WString → ℤ → ℤ
  /-- `fz::to_wstring` -/
  toWstring : ℤ → WString

inductive OptionType
  | string | number | boolean | xml
  deriving DecidableEq

/-- `option_def`.  A validator tells whether it accepts a value, and can put
another one in its place.  Which of the two there is depends on the type. -/
structure OptionDef where
  type : OptionType
  flags : ℕ
  min : ℤ
  max : ℤ
  numberValidator : Option (ℤ → Bool × ℤ)
  textValidator : Option (WString → Bool × WString)
  mnemonics : List WString

/-- `option_value`, without the XML document. -/
structure OptionValue where
  str : WString
  v : ℤ
  predefined : Bool
  changeCounter : ℕ

namespace OptionDef

def predefinedOnly : ℕ := 2

def predefinedPriority : ℕ := 4

def numericClamp : ℕ := 16

def intMin : ℤ := -2147483648

def hasFlag (option : OptionDef) (flag : ℕ) : Bool :=
  option.flags &&& flag != 0

def valFromMnemonic (option : OptionDef) (value : WString) : ℤ :=
  option.mnemonics.findIdx fun mnemonic => mnemonic == value

/-- `static_cast<size_t>(max())` -/
def maxLength (option : OptionDef) : ℕ :=
  (option.max % 2 ^ 64).toNat

def runNumber (option : OptionDef) (value : ℤ) : Bool × ℤ :=
  match option.numberValidator with
  | some validator => validator value
  | none => (true, value)

def runText (option : OptionDef) (value : WString) : Bool × WString :=
  match option.textValidator with
  | some validator => validator value
  | none => (true, value)

def clamp (option : OptionDef) (value : ℤ) : ℤ :=
  if value < option.min then option.min
  else if option.max < value then option.max
  else value

/-! ## Validation -/

/-- `validate` for a number. -/
def validateNumber (option : OptionDef) (value : ℤ) : Bool :=
  if option.type = .number then
    if (value < option.min ∨ option.max < value) ∧
        option.hasFlag numericClamp = false then
      false
    else (option.runNumber value).1
  else true

def validate (lib : IntegerText) (option : OptionDef) (value : WString) :
    Bool :=
  match option.type with
  | .number =>
      let v := lib.toIntegral value intMin
      if v = intMin then
        if option.mnemonics.isEmpty then false
        else option.validateNumber (option.valFromMnemonic value)
      else option.validateNumber v
  | .string => (option.runText value).1
  | _ => true

/-! ## Assignment -/

def isRestricted (option : OptionDef) (val : OptionValue)
    (predefined : Bool) : Bool :=
  (option.hasFlag predefinedOnly && !predefined) ||
    (option.hasFlag predefinedPriority && !predefined && val.predefined)

/-- `set` for a number.  The second result is whether the option has
changed. -/
def setNumber (lib : IntegerText) (option : OptionDef) (val : OptionValue)
    (value : ℤ) (predefined : Bool) : OptionValue × Bool :=
  if option.isRestricted val predefined then (val, false)
  else if value < option.min ∧ option.hasFlag numericClamp = false then
    (val, false)
  else if ¬ value < option.min ∧ option.max < value ∧
      option.hasFlag numericClamp = false then
    (val, false)
  else
    let validated := option.runNumber (option.clamp value)
    if validated.1 then
      let val := { val with predefined := predefined }
      if validated.2 = val.v then (val, false)
      else
        ({ val with
            v := validated.2
            str := lib.toWstring validated.2
            changeCounter := val.changeCounter + 1 }, true)
    else (val, false)

/-- `set` for a text. -/
def setText (lib : IntegerText) (option : OptionDef) (val : OptionValue)
    (value : WString) (predefined : Bool) : OptionValue × Bool :=
  if option.isRestricted val predefined then (val, false)
  else if option.maxLength < value.length then (val, false)
  else
    let validated := option.runText value
    if validated.1 then
      let val := { val with predefined := predefined }
      if validated.2 = val.str then (val, false)
      else
        ({ val with
            v := lib.toIntegral validated.2 0
            str := validated.2
            changeCounter := val.changeCounter + 1 }, true)
    else (val, false)

/-- `set` from a text, which converts it to the type of the option. -/
def set (lib : IntegerText) (option : OptionDef) (val : OptionValue)
    (value : WString) (predefined : Bool) : OptionValue × Bool :=
  match option.type with
  | .number =>
      let v := lib.toIntegral value intMin
      let v :=
        if v = intMin ∧ option.mnemonics.isEmpty = false then
          option.valFromMnemonic value
        else v
      option.setNumber lib val v predefined
  | .boolean =>
      option.setNumber lib val (lib.toIntegral value 0) predefined
  | .string => option.setText lib val value predefined
  | .xml => (val, false)

/-! ## What a text stands for -/

inductive Content
  | number (v : ℤ)
  | text (str : WString)
  deriving DecidableEq

def content (option : OptionDef) (val : OptionValue) : Content :=
  match option.type with
  | .string => .text val.str
  | _ => .number val.v

def numberOf (lib : IntegerText) (option : OptionDef) (value : WString) : ℤ :=
  if lib.toIntegral value intMin = intMin ∧ option.mnemonics ≠ [] then
    option.valFromMnemonic value
  else lib.toIntegral value intMin

def InRange (option : OptionDef) (value : ℤ) : Prop :=
  option.min ≤ value ∧ value ≤ option.max

/-- The normal form of a text. -/
def normalised (lib : IntegerText) (option : OptionDef) (value : WString) :
    Content :=
  match option.type with
  | .string => .text (option.runText value).2
  | _ => .number
      (option.runNumber (option.clamp (option.numberOf lib value))).2

/-- Validation tells what assignment does. -/
structure ValidationAgrees (lib : IntegerText) (option : OptionDef)
    (val : OptionValue) (value : WString) (predefined : Bool) : Prop where
  rejected : option.validate lib value = false →
    option.content (option.set lib val value predefined).1 =
      option.content val
  accepted : option.validate lib value = true →
    option.content (option.set lib val value predefined).1 =
      option.normalised lib value

def Admits (option : OptionDef) (value : ℤ) : Prop :=
  option.hasFlag numericClamp = true ∨ option.InRange value

instance (option : OptionDef) (value : ℤ) :
    Decidable (option.Admits value) :=
  inferInstanceAs (Decidable (_ ∨ _ ≤ _ ∧ _ ≤ _))

/-- No text for a number is one that only the assignment takes, the validator
does not tell a number from the one that it is clamped to, and no text is too
long. -/
def ValidationExact (lib : IntegerText) (option : OptionDef)
    (value : WString) : Prop :=
  match option.type with
  | .string =>
      value.length ≤ option.maxLength ∨ (option.runText value).1 = false
  | _ =>
      if lib.toIntegral value intMin = intMin ∧ option.mnemonics = [] then
        ¬ option.Admits intMin ∨
          (option.runNumber (option.clamp intMin)).1 = false
      else
        ¬ option.Admits (option.numberOf lib value) ∨
          (option.runNumber (option.numberOf lib value)).1 =
            (option.runNumber
              (option.clamp (option.numberOf lib value))).1

variable {lib : IntegerText} {option : OptionDef} {val : OptionValue}
  {value : WString} {predefined : Bool}

/-! ## Assignment -/

theorem setNumber_refused (number : ℤ)
    (hrefused : ¬ option.Admits number) :
    (option.setNumber lib val number predefined).1.v = val.v := by
  have hflag : option.hasFlag numericClamp = false := by
    by_contra htrue
    exact hrefused (Or.inl (by simpa using htrue))
  unfold setNumber
  by_cases hrestricted : option.isRestricted val predefined = true
  · rw [if_pos hrestricted]
  · rw [if_neg hrestricted]
    by_cases hlow : number < option.min
    · rw [if_pos ⟨hlow, hflag⟩]
    · have hhigh : option.max < number := by
        by_contra hless
        exact hrefused (Or.inr ⟨not_lt.mp hlow, not_lt.mp hless⟩)
      rw [if_neg (fun hboth => hlow hboth.1), if_pos ⟨hlow, hhigh, hflag⟩]

theorem setNumber_admitted
    (hfree : option.isRestricted val predefined = false)
    (number : ℤ) (hadmits : option.Admits number) :
    (option.setNumber lib val number predefined).1.v =
      if (option.runNumber (option.clamp number)).1 = true then
        (option.runNumber (option.clamp number)).2
      else val.v := by
  have hlow : ¬ (number < option.min ∧
      option.hasFlag numericClamp = false) := by
    rintro ⟨hless, hflag⟩
    rcases hadmits with hclamp | hrange
    · rw [hflag] at hclamp
      cases hclamp
    · exact absurd hrange.1 (not_le.mpr hless)
  have hhigh : ¬ (¬ number < option.min ∧ option.max < number ∧
      option.hasFlag numericClamp = false) := by
    rintro ⟨_, hmore, hflag⟩
    rcases hadmits with hclamp | hrange
    · rw [hflag] at hclamp
      cases hclamp
    · exact absurd hrange.2 (not_le.mpr hmore)
  have hrestricted : ¬ option.isRestricted val predefined = true := by
    rw [hfree]
    exact Bool.false_ne_true
  unfold setNumber
  rw [if_neg hrestricted, if_neg hlow, if_neg hhigh]
  simp only
  by_cases happroved : (option.runNumber (option.clamp number)).1 = true
  · rw [if_pos happroved, if_pos happroved]
    by_cases hsame : (option.runNumber (option.clamp number)).2 = val.v
    · rw [if_pos hsame, hsame]
    · rw [if_neg hsame]
  · rw [if_neg happroved, if_neg happroved]

theorem setText_str (hfree : option.isRestricted val predefined = false) :
    (option.setText lib val value predefined).1.str =
      if value.length ≤ option.maxLength ∧
          (option.runText value).1 = true then
        (option.runText value).2
      else val.str := by
  have hrestricted : ¬ option.isRestricted val predefined = true := by
    rw [hfree]
    exact Bool.false_ne_true
  unfold setText
  rw [if_neg hrestricted]
  by_cases hlong : option.maxLength < value.length
  · rw [if_pos hlong, if_neg]
    rintro ⟨hshort, _⟩
    exact absurd hshort (not_le.mpr hlong)
  · rw [if_neg hlong]
    simp only
    by_cases happroved : (option.runText value).1 = true
    · have hboth : value.length ≤ option.maxLength ∧
          (option.runText value).1 = true := ⟨not_lt.mp hlong, happroved⟩
      rw [if_pos happroved, if_pos hboth]
      by_cases hsame : (option.runText value).2 = val.str
      · rw [if_pos hsame, hsame]
      · rw [if_neg hsame]
    · rw [if_neg happroved, if_neg fun hboth => happroved hboth.2]

/-! ## Validation against assignment -/

theorem agrees_iff {before after normal : Content} {valid taken : Bool}
    (hafter : after = if taken = true then normal else before) :
    ((valid = false → after = before) ∧ (valid = true → after = normal)) ↔
      before = normal ∨ valid = taken := by
  rw [hafter]
  cases valid with
  | true =>
      cases taken with
      | true => simp
      | false => simp
  | false =>
      cases taken with
      | true => simp [eq_comm]
      | false => simp

theorem validateNumber_eq (htype : option.type = .number) (number : ℤ) :
    option.validateNumber number = true ↔
      option.Admits number ∧ (option.runNumber number).1 = true := by
  unfold validateNumber
  rw [if_pos htype]
  by_cases hadmits : option.Admits number
  · have hfine : ¬ ((number < option.min ∨ option.max < number) ∧
        option.hasFlag numericClamp = false) := by
      rintro ⟨houtside, hflag⟩
      rcases hadmits with hclamp | hrange
      · rw [hflag] at hclamp
        cases hclamp
      · rcases houtside with hless | hmore
        · exact absurd hrange.1 (not_le.mpr hless)
        · exact absurd hrange.2 (not_le.mpr hmore)
    rw [if_neg hfine]
    simp [hadmits]
  · have hbad : (number < option.min ∨ option.max < number) ∧
        option.hasFlag numericClamp = false := by
      unfold Admits InRange at hadmits
      obtain ⟨hflag, hrange⟩ := not_or.mp hadmits
      refine ⟨?_, by simpa using hflag⟩
      by_contra hinside
      obtain ⟨hlow, hhigh⟩ := not_or.mp hinside
      exact hrange ⟨not_lt.mp hlow, not_lt.mp hhigh⟩
    rw [if_pos hbad]
    simp [hadmits]

theorem set_number (htype : option.type = .number) :
    option.set lib val value predefined =
      option.setNumber lib val (option.numberOf lib value) predefined := by
  unfold set numberOf
  rw [htype]
  simp only [List.isEmpty_eq_false_iff]

theorem exact_iff {valid approved clamped : Bool} {admitted : Prop}
    [Decidable admitted]
    (hvalid : valid = true ↔ admitted ∧ approved = true) :
    (¬ admitted ∨ approved = clamped) ↔
      valid = (decide admitted && clamped) := by
  have heq : valid = (decide admitted && approved) := by
    rw [Bool.eq_iff_iff, hvalid]
    simp
  rw [heq]
  by_cases hadmitted : admitted
  · simp [hadmitted]
  · simp [hadmitted]

theorem refused_iff {clamped : Bool} {admitted : Prop}
    [Decidable admitted] :
    (¬ admitted ∨ clamped = false) ↔ false = (decide admitted && clamped) := by
  by_cases hadmitted : admitted
  · simp [hadmitted, eq_comm]
  · simp [hadmitted]

/-- For an option with a number. -/
theorem validationAgrees_number (htype : option.type = .number)
    (hfree : option.isRestricted val predefined = false) :
    option.ValidationAgrees lib val value predefined ↔
      option.content val = option.normalised lib value ∨
        option.ValidationExact lib value := by
  have hafter : option.content (option.set lib val value predefined).1 =
      if (decide (option.Admits (option.numberOf lib value)) &&
          (option.runNumber
            (option.clamp (option.numberOf lib value))).1) = true then
        option.normalised lib value
      else option.content val := by
    rw [set_number htype]
    unfold content normalised
    rw [htype]
    simp only
    by_cases hadmits : option.Admits (option.numberOf lib value)
    · rw [setNumber_admitted hfree _ hadmits]
      simp only [hadmits, decide_true, Bool.true_and]
      split
      · rfl
      · rfl
    · rw [setNumber_refused _ hadmits]
      simp [hadmits]
  have hexact : option.ValidationExact lib value ↔
      option.validate lib value =
        (decide (option.Admits (option.numberOf lib value)) &&
          (option.runNumber
            (option.clamp (option.numberOf lib value))).1) := by
    have hvalid := @validateNumber_eq option htype (option.numberOf lib value)
    unfold ValidationExact validate
    rw [htype]
    simp only
    by_cases hunread : lib.toIntegral value intMin = intMin
    · by_cases hnames : option.mnemonics = []
      · have hnumber : option.numberOf lib value = intMin := by
          unfold numberOf
          rw [if_neg (fun hboth => hboth.2 hnames), hunread]
        rw [if_pos ⟨hunread, hnames⟩, if_pos hunread, hnumber, hnames,
          List.isEmpty_nil, if_pos rfl]
        exact refused_iff
      · have hnumber : option.numberOf lib value =
            option.valFromMnemonic value := by
          unfold numberOf
          rw [if_pos ⟨hunread, hnames⟩]
        have hnonempty : ¬ option.mnemonics.isEmpty = true := by
          rw [List.isEmpty_iff]
          exact hnames
        rw [if_neg (fun hboth => hnames hboth.2), if_pos hunread,
          if_neg hnonempty, ← hnumber]
        exact exact_iff hvalid
    · have hnumber : option.numberOf lib value =
          lib.toIntegral value intMin := by
        unfold numberOf
        rw [if_neg (fun hboth => hunread hboth.1)]
      rw [if_neg (fun hboth => hunread hboth.1), if_neg hunread, ← hnumber]
      exact exact_iff hvalid
  rw [hexact, ← agrees_iff hafter]
  constructor
  · intro hagrees
    exact ⟨hagrees.rejected, hagrees.accepted⟩
  · intro hboth
    exact ⟨hboth.1, hboth.2⟩

/-- For an option with a text. -/
theorem validationAgrees_text (htype : option.type = .string)
    (hfree : option.isRestricted val predefined = false) :
    option.ValidationAgrees lib val value predefined ↔
      option.content val = option.normalised lib value ∨
        option.ValidationExact lib value := by
  have hset : option.set lib val value predefined =
      option.setText lib val value predefined := by
    unfold set
    rw [htype]
  have hvalid : option.validate lib value = (option.runText value).1 := by
    unfold validate
    rw [htype]
  have hstr := @setText_str lib option val value predefined hfree
  have hafter : option.content (option.set lib val value predefined).1 =
      if (decide (value.length ≤ option.maxLength) &&
          (option.runText value).1) = true then
        option.normalised lib value
      else option.content val := by
    unfold content normalised
    rw [htype, hset]
    simp only
    rw [hstr]
    by_cases htaken : value.length ≤ option.maxLength ∧
        (option.runText value).1 = true
    · rw [if_pos htaken, if_pos (by simpa using htaken)]
    · rw [if_neg htaken, if_neg (by simpa using htaken)]
  have hexact : option.ValidationExact lib value ↔
      option.validate lib value =
        (decide (value.length ≤ option.maxLength) &&
          (option.runText value).1) := by
    unfold ValidationExact
    rw [htype, hvalid]
    simp only
    cases (option.runText value).1 with
    | true => simp
    | false => simp
  rw [hexact, ← agrees_iff hafter]
  constructor
  · intro hagrees
    exact ⟨hagrees.rejected, hagrees.accepted⟩
  · intro hboth
    exact ⟨hboth.1, hboth.2⟩

theorem isRestricted_of_normal
    (honly : option.hasFlag predefinedOnly = false)
    (hpriority : option.hasFlag predefinedPriority = false) :
    option.isRestricted val predefined = false := by
  unfold isRestricted
  rw [honly, hpriority]
  rfl

end OptionDef

open OptionDef

/-- Validation of a text agrees with its assignment exactly if the option has
its normal form already, or nothing is amiss with the text. -/
theorem validation_agrees_iff (lib : IntegerText) (option : OptionDef)
    (val : OptionValue) (value : WString) (predefined : Bool)
    (htype : option.type = .number ∨ option.type = .string)
    (honly : option.hasFlag predefinedOnly = false)
    (hpriority : option.hasFlag predefinedPriority = false) :
    option.ValidationAgrees lib val value predefined ↔
      option.content val = option.normalised lib value ∨
        option.ValidationExact lib value := by
  have hfree := @isRestricted_of_normal option val predefined honly hpriority
  rcases htype with hnumber | htext
  · exact validationAgrees_number hnumber hfree
  · exact validationAgrees_text htext hfree

/-- Numbers below ten, and nothing else. -/
def digitText : IntegerText where
  toIntegral text value :=
    match text with
    | [digit] => if digit.isDigit then digit.toNat - '0'.toNat else value
    | _ => value
  toWstring value := [Char.ofNat ('0'.toNat + value.toNat)]

/-- The option for the number of reconnects. -/
def reconnectCount : OptionDef where
  type := .number
  flags := numericClamp
  min := 0
  max := 99
  numberValidator := none
  textValidator := none
  mnemonics := []

def twoReconnects : OptionValue := ⟨['2'], 2, false, 0⟩

/-- A number in range is accepted and set. -/
theorem validation_agrees_iff_number :
    reconnectCount.validate digitText ['5'] = true ∧
      reconnectCount.content
          (reconnectCount.set digitText twoReconnects ['5'] false).1 =
        .number 5 ∧
      reconnectCount.ValidationAgrees digitText twoReconnects ['5'] false := by
  have hexact : reconnectCount.ValidationExact digitText ['5'] := .inr rfl
  exact ⟨by decide, by decide,
    (validation_agrees_iff digitText reconnectCount twoReconnects ['5'] false
      (.inl rfl) (by decide) (by decide)).mpr (.inr hexact)⟩

/-- A text that is not a number is rejected, but sets the smallest number. -/
theorem rejected_text_assigned :
    ¬ reconnectCount.ValidationAgrees digitText twoReconnects
      ['n', 'o'] false := by
  intro hagrees
  have hrejected : reconnectCount.validate digitText ['n', 'o'] = false := by
    decide
  have hsame := hagrees.rejected hrejected
  revert hsame
  decide

end TabFtp
