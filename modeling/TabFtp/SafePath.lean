import TabFtp.ServerPathContainment
import Mathlib.Data.List.TakeWhile

/-!
# The safe form of a server path

`GetSafePath` writes the type, the prefix and the segments of a path with the
length of each in front of it, `SetSafePath` reads them with a pointer into the
text.  A read is recorded as an error here when it goes past the terminator,
and so is a loop that does not end.
-/

namespace TabFtp

/-- `static_cast<ServerType>` -/
def ServerType.ofNumber : ℕ → ServerType
  | 1 => .unix
  | 2 => .vms
  | 3 => .dos
  | 4 => .mvs
  | 5 => .vxworks
  | 6 => .zvm
  | 7 => .hpnonstop
  | 8 => .dosVirtual
  | 9 => .cygwin
  | 10 => .dosFwdSlashes
  | _ => .default

inductive SafePathStop
  | rejected
  | pastTerminator
  | outOfFuel

namespace SafePath

/-! ## Writing -/

/-- What `wcscpy` leaves in a field of zeros. -/
def copied (text : WString) : WString :=
  let start := text.takeWhile (· ≠ '\x00')
  start ++ List.replicate (text.length - start.length) '\x00'

/-- `fast_sprint_number` -/
def sprintNumber (n : ℕ) : WString :=
  Nat.toDigits 10 n

def segmentFields (segments : List WString) : WString :=
  segments.flatMap fun segment =>
    ' ' :: (sprintNumber segment.length ++ ' ' :: copied segment)

/-! ## Reading -/

def readAt (text : WString) (p : ℕ) : Except SafePathStop Char :=
  match (text ++ ['\x00'])[p]? with
  | some char => .ok char
  | none => .error .pastTerminator

/-- The characters from `p` to `p + length`. -/
def readRange (text : WString) (p length : ℕ) :
    Except SafePathStop WString :=
  if p + length ≤ text.length + 1 then
    .ok (((text ++ ['\x00']).drop p).take length)
  else .error .pastTerminator

/-- One of the loops that read a number, up to a character that stops it.
`limit` is the largest number that is accepted. -/
def readNumber (text : WString) (limit : ℕ) (stop : Char → Bool) :
    ℕ → ℕ → ℕ → Except SafePathStop (ℕ × ℕ)
  | 0, _, _ => .error .outOfFuel
  | fuel + 1, p, number => do
      let char ← readAt text p
      if char < '0' || '9' < char then .error .rejected
      else
        let number := 10 * number + (char.toNat - '0'.toNat)
        if limit < number then .error .rejected
        else
          let next ← readAt text (p + 1)
          if stop next then .ok (number, p + 1)
          else readNumber text limit stop fuel (p + 1) number

def readSegments (text : WString) :
    ℕ → ℕ → List WString → Except SafePathStop (List WString)
  | 0, p, segments =>
      if p < text.length then .error .outOfFuel else .ok segments
  | fuel + 1, p, segments =>
      if p < text.length then do
        let (length, p) ← readNumber text 32767 (· == ' ') (text.length + 1) p 0
        if length = 0 then .error .rejected
        else if text.length < p + 1 + length then .error .rejected
        else
          let segment ← readRange text (p + 1) length
          readSegments text fuel (p + 1 + length + 1) (segments ++ [segment])
      else .ok segments

/-- `DoSetSafePath` behind the type. -/
def readData (text : WString) (p : ℕ) : Except SafePathStop ServerPathData := do
  let (length, p) ← readNumber text 32767
    (fun char => char == '\x00' || char == ' ') (text.length + 1) p 0
  let char ← readAt text p
  if char = '\x00' then
    -- a root directory
    if length ≠ 0 then .error .rejected else .ok ⟨[], none⟩
  else if text.length < p + 1 + length then .error .rejected
  else if length ≠ 0 then
    let pathPrefix ← readRange text (p + 1) length
    let segments ←
      readSegments text (text.length + 1) (p + 1 + length + 1) []
    .ok ⟨segments, some pathPrefix⟩
  else
    let segments ← readSegments text (text.length + 1) (p + 1) []
    .ok ⟨segments, none⟩

end SafePath

namespace ServerPath

open SafePath

def getSafePath (path : ServerPath) : WString :=
  match path.data with
  | none => []
  | some data =>
      sprintNumber path.type.number ++ ' ' ::
        match data.pathPrefix with
        | none => sprintNumber 0 ++ segmentFields data.segments
        | some pathPrefix =>
            sprintNumber pathPrefix.length ++
              ' ' :: (copied pathPrefix ++ segmentFields data.segments)

/-- `SetSafePath`, with an error only for a read past the terminator or a
loop without end.  A text that is rejected behind the type still sets it. -/
def setSafePath (path : ServerPath) (text : WString) :
    Except SafePathStop (ServerPath × Bool) :=
  match readNumber text 10 (· == ' ') (text.length + 1) 0 0 with
  | .error .rejected => .ok (⟨none, path.type⟩, false)
  | .error stop => .error stop
  | .ok (number, p) =>
      let type := ServerType.ofNumber number
      match readData text (p + 1) with
      | .error .rejected => .ok (⟨none, type⟩, false)
      | .error stop => .error stop
      | .ok data => .ok (⟨some data, type⟩, true)

end ServerPath

namespace SafePath

/-! ## No read goes past the terminator -/

variable {text : WString} {p : ℕ}

theorem readAt_of_lt (hp : p < text.length) : readAt text p = .ok text[p] := by
  unfold readAt
  rw [List.getElem?_append_left hp, List.getElem?_eq_getElem hp]

theorem readAt_end (text : WString) : readAt text text.length = .ok '\x00' := by
  simp [readAt]

theorem readAt_ok (hp : p ≤ text.length) :
    ∃ char, readAt text p = .ok char ∧ (char ≠ '\x00' → p < text.length) := by
  rcases Nat.lt_or_eq_of_le hp with hlt | hend
  · exact ⟨text[p], readAt_of_lt hlt, fun _ => hlt⟩
  · rw [hend]
    exact ⟨'\x00', readAt_end text, fun hne => absurd rfl hne⟩

theorem readRange_ok {length : ℕ} (hp : p + length ≤ text.length) :
    readRange text p length = .ok ((text.drop p).take length) := by
  unfold readRange
  rw [if_pos (by omega), List.drop_append_of_le_length (by omega),
    List.take_append_of_le_length (by rw [List.length_drop]; omega)]

/-- A number that is read ends within the text at a character that stops it.
The induction is on the fuel: a digit is not the terminator, so the next
character can be read. -/
theorem readNumber_safe
    {limit fuel number : ℕ} {stop : Char → Bool} (hp : p ≤ text.length)
    (hfuel : text.length < fuel + p) :
    readNumber text limit stop fuel p number = .error .rejected ∨
      ∃ value last char,
        readNumber text limit stop fuel p number = .ok (value, last) ∧
        p < last ∧ last ≤ text.length ∧ readAt text last = .ok char ∧
        stop char = true := by
  induction fuel generalizing p number with
  | zero => omega
  | succ fuel ih =>
      obtain ⟨char, hchar, hinside⟩ := readAt_ok hp
      unfold readNumber
      rw [hchar]
      by_cases hdigit : (decide (char < '0') || decide ('9' < char)) = true
      · exact Or.inl (if_pos hdigit)
      · have hlt : p < text.length := by
          apply hinside
          intro hterminator
          subst hterminator
          exact hdigit rfl
        obtain ⟨next, hnext, _⟩ := readAt_ok (Nat.succ_le_of_lt hlt)
        simp only [bind, Except.bind, hnext]
        rw [if_neg hdigit]
        split_ifs with hlarge hstop
        · exact Or.inl rfl
        · exact Or.inr ⟨_, _, next, rfl, Nat.lt_succ_self p, hlt, hnext, hstop⟩
        · rcases @ih (p + 1) (10 * number + (char.toNat - '0'.toNat)) hlt
            (by omega) with
            hrejected | ⟨value, last, final, hvalue, hlast, hrest⟩
          · exact Or.inl hrejected
          · exact Or.inr ⟨value, last, final, hvalue, by omega, hrest⟩

theorem readSegments_safe
    {fuel : ℕ} {segments : List WString}
    (hfuel : text.length < fuel + p) :
    readSegments text fuel p segments = .error .rejected ∨
      ∃ result, readSegments text fuel p segments = .ok result := by
  induction fuel generalizing p segments with
  | zero =>
      unfold readSegments
      rw [if_neg (by omega)]
      exact Or.inr ⟨_, rfl⟩
  | succ fuel ih =>
      unfold readSegments
      by_cases hlt : p < text.length
      · rw [if_pos hlt]
        rcases @readNumber_safe text p 32767 (text.length + 1) 0 (· == ' ')
          (by omega) (by omega) with
          hrejected | ⟨length, last, _, hnumber, hlast, _⟩
        · rw [hrejected]
          exact Or.inl rfl
        · rw [hnumber]
          simp only [bind, Except.bind]
          split_ifs with hzero hlong
          · exact Or.inl rfl
          · exact Or.inl rfl
          · rw [readRange_ok (by omega)]
            apply ih
            omega
      · rw [if_neg hlt]
        exact Or.inr ⟨_, rfl⟩

theorem readData_safe (hp : p ≤ text.length) :
    readData text p = .error .rejected ∨
      ∃ data, readData text p = .ok data := by
  unfold readData
  rcases @readNumber_safe text p 32767 (text.length + 1) 0
    (fun char => char == '\x00' || char == ' ') hp (by omega) with
    hrejected | ⟨length, last, char, hnumber, hlast, hinside, hchar, _⟩
  · rw [hrejected]
    exact Or.inl rfl
  · rw [hnumber]
    simp only [bind, Except.bind, hchar]
    split_ifs with hterminator hzero hlong hstart
    · exact Or.inl rfl
    · exact Or.inr ⟨_, rfl⟩
    · exact Or.inl rfl
    · rw [readRange_ok (by omega)]
      rcases @readSegments_safe text (last + 1 + length + 1)
        (text.length + 1) [] (by omega) with
        hrejected | ⟨segments, hsegments⟩
      · simp only
        rw [hrejected]
        exact Or.inl rfl
      · simp only
        rw [hsegments]
        exact Or.inr ⟨_, rfl⟩
    · rcases @readSegments_safe text (last + 1) (text.length + 1) []
        (by omega) with hrejected | ⟨segments, hsegments⟩
      · rw [hrejected]
        exact Or.inl rfl
      · rw [hsegments]
        exact Or.inr ⟨_, rfl⟩

theorem setSafePath_safe (path : ServerPath) (text : WString) :
    ∃ result, path.setSafePath text = .ok result ∧
      (result.2 = false → result.1.empty = true) := by
  unfold ServerPath.setSafePath
  rcases @readNumber_safe text 0 10 (text.length + 1) 0 (· == ' ')
    (by omega) (by omega) with
    hrejected | ⟨number, last, char, hnumber, _, hinside, hchar, hstop⟩
  · rw [hrejected]
    exact ⟨_, rfl, fun _ => rfl⟩
  · rw [hnumber]
    have hlast : last + 1 ≤ text.length := by
      obtain ⟨other, hother, hlt⟩ := readAt_ok hinside
      rw [hchar, Except.ok.injEq] at hother
      apply hlt
      intro hterminator
      rw [← hother] at hterminator
      subst hterminator
      cases hstop
    simp only
    rcases readData_safe hlast with hrejected | ⟨data, hdata⟩
    · rw [hrejected]
      exact ⟨_, rfl, fun _ => rfl⟩
    · rw [hdata]
      exact ⟨_, rfl, fun hfalse => by cases hfalse⟩

/-! ## What is written is read back -/

/-- A text that can be stored as a prefix or a segment. -/
structure Storable (text : WString) : Prop where
  nonempty : text ≠ []
  nulFree : '\x00' ∉ text
  short : text.length < 32768

theorem copied_of_nulFree {text : WString} (hfree : '\x00' ∉ text) :
    copied text = text := by
  have hall : text.takeWhile (· ≠ '\x00') = text := by
    rw [List.takeWhile_eq_self_iff]
    intro char hmem
    have hne : char ≠ '\x00' := by
      intro heq
      exact hfree (heq ▸ hmem)
    simpa using hne
  unfold copied
  rw [hall]
  simp

theorem readAt_append (before : WString) (char : Char) (after : WString) :
    readAt (before ++ char :: after) before.length = .ok char := by
  simp [readAt]

theorem readRange_append (before middle after : WString) :
    readRange (before ++ middle ++ after) before.length middle.length =
      .ok middle := by
  rw [readRange_ok (by simp), List.append_assoc, List.drop_left,
    List.take_left]

theorem ofDigitChars_le {digits : WString} {number : ℕ} :
    number ≤ Nat.ofDigitChars 10 digits number := by
  induction digits generalizing number with
  | nil => simp
  | cons digit digits ih =>
      rw [Nat.ofDigitChars_cons]
      exact le_trans (by omega) ih

/-- Digits are read as the number they stand for.  The induction is on the
digits that are left. -/
theorem readNumber_digits
    {before digits : WString} {limit number fuel : ℕ} {stop : Char → Bool}
    (hdigits : ∀ digit ∈ digits, digit.isDigit = true ∧ stop digit = false)
    (hne : digits ≠ []) (hlimit : Nat.ofDigitChars 10 digits number ≤ limit)
    (hfuel : digits.length ≤ fuel) {after : WString} {last : Char}
    (hlast : readAt (before ++ digits ++ after)
      (before.length + digits.length) = .ok last) (hstop : stop last = true) :
    readNumber (before ++ digits ++ after) limit stop fuel before.length
        number =
      .ok (Nat.ofDigitChars 10 digits number,
        before.length + digits.length) := by
  induction digits generalizing before number fuel with
  | nil => exact absurd rfl hne
  | cons digit digits ih =>
      obtain ⟨fuel, rfl⟩ : ∃ rest, fuel = rest + 1 := by
        rw [List.length_cons] at hfuel
        exact ⟨fuel - 1, by omega⟩
      rw [Nat.ofDigitChars_cons] at hlimit ⊢
      obtain ⟨hdigit, hgoes⟩ := hdigits digit List.mem_cons_self
      have hread : readAt (before ++ digit :: digits ++ after)
          before.length = .ok digit := by
        rw [List.append_assoc]
        exact readAt_append before digit (digits ++ after)
      have hinside : ¬ ((decide (digit < '0') ||
          decide ('9' < digit)) = true) := by
        have hrange : 48 ≤ digit.toNat ∧ digit.toNat ≤ 57 := by
          simpa [Char.isDigit, UInt32.le_iff_toNat_le] using hdigit
        have hzero : ¬ digit < '0' := by
          intro hlt
          have hless : digit.toNat < 48 := hlt
          omega
        have hnine : ¬ '9' < digit := by
          intro hlt
          have hless : 57 < digit.toNat := hlt
          omega
        simp [hzero, hnine]
      have hsmall : ¬ limit <
          10 * number + (digit.toNat - '0'.toNat) := by
        have hle := @ofDigitChars_le digits
          (10 * number + (digit.toNat - '0'.toNat))
        omega
      unfold readNumber
      simp only [hread, bind, Except.bind]
      rw [if_neg hinside, if_neg hsmall]
      cases digits with
      | nil =>
          simp only [List.length_cons, List.length_nil, Nat.zero_add] at hlast
          simp only [hlast, hstop, if_true, Nat.ofDigitChars_nil]
          rfl
      | cons next digits =>
          obtain ⟨_, hnext⟩ := hdigits next (by simp)
          have hreadNext : readAt (before ++ digit :: next :: digits ++ after)
              (before.length + 1) = .ok next := by
            have hat := readAt_append (before ++ [digit]) next (digits ++ after)
            simpa using hat
          have hrest := @ih (before ++ [digit])
            (10 * number + (digit.toNat - '0'.toNat)) fuel
            (fun other hmem => hdigits other (List.mem_cons_of_mem _ hmem))
            (List.cons_ne_nil _ _) hlimit (by simpa using hfuel)
            (by simpa [Nat.add_assoc, Nat.add_comm 1] using hlast)
          simp only [hreadNext, hnext, Bool.false_eq_true, if_false]
          simpa [Nat.add_assoc, Nat.add_comm 1] using hrest

/-- A number that has been written is read back. -/
theorem readNumber_sprintNumber
    {before after : WString} {limit number : ℕ} {stop : Char → Bool}
    (hstop : ∀ char, stop char = true → char = '\x00' ∨ char = ' ')
    (hlimit : number ≤ limit) {last : Char}
    (hlast : readAt (before ++ sprintNumber number ++ after)
      (before.length + (sprintNumber number).length) = .ok last)
    (hends : stop last = true) :
    readNumber (before ++ sprintNumber number ++ after) limit stop
        ((before ++ sprintNumber number ++ after).length + 1)
        before.length 0 =
      .ok (number, before.length + (sprintNumber number).length) := by
  have hdigits : ∀ digit ∈ sprintNumber number,
      digit.isDigit = true ∧ stop digit = false := by
    intro digit hmem
    have hdigit : digit.isDigit = true :=
      Nat.isDigit_of_mem_toDigits (by omega) (by omega) hmem
    refine ⟨hdigit, ?_⟩
    by_contra hstops
    rcases hstop digit (by simpa using hstops) with hnul | hblank
    · rw [hnul] at hdigit
      cases hdigit
    · rw [hblank] at hdigit
      cases hdigit
  have hvalue : Nat.ofDigitChars 10 (sprintNumber number) 0 = number :=
    Nat.ofDigitChars_ten_toDigits
  have hbound : Nat.ofDigitChars 10 (sprintNumber number) 0 ≤ limit := by
    rw [hvalue]
    exact hlimit
  have hfuel : (sprintNumber number).length ≤
      (before ++ sprintNumber number ++ after).length + 1 := by
    simp only [List.length_append]
    omega
  have hread := readNumber_digits hdigits Nat.toDigits_ne_nil hbound hfuel
    hlast hends
  rw [hvalue] at hread
  exact hread

/-- The segments are read back.  The induction is on the segments that are
left; what is in front of them has been read. -/
theorem readSegments_fields
    {segments : List WString} {before : WString} {fuel : ℕ}
    (hsegments : ∀ segment ∈ segments, Storable segment)
    (hfuel : (before ++ segmentFields segments).length <
      fuel + (before.length + 1)) (done : List WString) :
    readSegments (before ++ segmentFields segments) fuel (before.length + 1)
        done =
      .ok (done ++ segments) := by
  induction segments generalizing before fuel done with
  | nil =>
      have hend : ¬ before.length + 1 <
          (before ++ segmentFields []).length := by
        simp [segmentFields]
      cases fuel with
      | zero =>
          unfold readSegments
          rw [if_neg hend, List.append_nil]
      | succ fuel =>
          unfold readSegments
          rw [if_neg hend, List.append_nil]
  | cons segment segments ih =>
      obtain ⟨hne, hfree, hshort⟩ := hsegments segment List.mem_cons_self
      have hpos : 0 < segment.length := List.length_pos_iff.mpr hne
      have htext : before ++ segmentFields (segment :: segments) =
          (before ++ [' ']) ++ sprintNumber segment.length ++
            ' ' :: (segment ++ segmentFields segments) := by
        simp [segmentFields, copied_of_nulFree hfree]
      have hrest : before ++ segmentFields (segment :: segments) =
          (before ++ ' ' :: (sprintNumber segment.length ++ ' ' :: segment)) ++
            segmentFields segments := by
        simp [segmentFields, copied_of_nulFree hfree]
      obtain ⟨fuel, rfl⟩ : ∃ rest, fuel = rest + 1 := by
        rw [hrest] at hfuel
        simp only [List.length_append, List.length_cons] at hfuel
        exact ⟨fuel - 1, by omega⟩
      have hcount := congrArg List.length htext
      generalize before ++ segmentFields (segment :: segments) = text at *
      have hblank : readAt text
          ((before ++ [' ']).length + (sprintNumber segment.length).length) =
          .ok ' ' := by
        rw [htext, ← List.length_append]
        exact readAt_append _ ' ' (segment ++ segmentFields segments)
      have hnumber : readNumber text 32767 (· == ' ') (text.length + 1)
          (before ++ [' ']).length 0 =
          .ok (segment.length,
            (before ++ [' ']).length + (sprintNumber segment.length).length) := by
        rw [htext] at hblank ⊢
        apply readNumber_sprintNumber _ (by omega) hblank (by simp)
        intro char hstop
        exact Or.inr (by simpa using hstop)
      simp only [List.length_append, List.length_cons, List.length_nil,
        Nat.zero_add] at hnumber hcount hfuel
      have hrange : readRange text
          (before.length + 1 + (sprintNumber segment.length).length + 1)
          segment.length = .ok segment := by
        have hread := readRange_append
          (before ++ ' ' :: (sprintNumber segment.length ++ [' '])) segment
          (segmentFields segments)
        rw [hrest]
        simpa [Nat.add_assoc, Nat.add_comm 1] using hread
      unfold readSegments
      rw [if_pos (by omega), hnumber]
      simp only [bind, Except.bind]
      rw [if_neg (by omega), if_neg (by omega), hrange]
      simp only
      have hnext := @ih
        (before ++ ' ' :: (sprintNumber segment.length ++ ' ' :: segment)) fuel
        (fun other hmem => hsegments other (List.mem_cons_of_mem _ hmem))
        (by
          rw [← hrest]
          simp only [List.length_append, List.length_cons]
          omega)
        (done ++ [segment])
      have hposition :
          (before ++ ' ' ::
            (sprintNumber segment.length ++ ' ' :: segment)).length + 1 =
          before.length + 1 + (sprintNumber segment.length).length + 1 +
            segment.length + 1 := by
        simp only [List.length_append, List.length_cons]
        omega
      rw [← hrest, hposition, List.append_assoc] at hnext
      exact hnext

theorem stops_number (char : Char)
    (hstop : (char == '\x00' || char == ' ') = true) :
    char = '\x00' ∨ char = ' ' := by
  simpa using hstop

/-- Segments are read back without a prefix. -/
theorem readData_fields
    {segments : List WString} (before : WString)
    (hsegments : ∀ segment ∈ segments, Storable segment) :
    readData (before ++ sprintNumber 0 ++ segmentFields segments)
        before.length =
      .ok ⟨segments, none⟩ := by
  have hafter : ∃ last, readAt
      (before ++ sprintNumber 0 ++ segmentFields segments)
      (before.length + (sprintNumber 0).length) = .ok last ∧
      (last = '\x00' ∧ segments = [] ∨ last = ' ' ∧ segments ≠ []) := by
    rw [← List.length_append]
    cases segments with
    | nil =>
        refine ⟨'\x00', ?_, Or.inl ⟨rfl, rfl⟩⟩
        simp [segmentFields, readAt]
    | cons segment segments =>
        exact ⟨' ', readAt_append _ _ _, Or.inr ⟨rfl, List.cons_ne_nil _ _⟩⟩
  obtain ⟨last, hlast, hcases⟩ := hafter
  have hends : (last == '\x00' || last == ' ') = true := by
    rcases hcases with ⟨rfl, _⟩ | ⟨rfl, _⟩ <;> rfl
  have hnumber := readNumber_sprintNumber stops_number
    (Nat.zero_le 32767) hlast hends
  unfold readData
  simp only [hnumber, hlast, bind, Except.bind]
  rcases hcases with ⟨rfl, rfl⟩ | ⟨rfl, hne⟩
  · rfl
  · have hread := @readSegments_fields segments (before ++ sprintNumber 0)
      ((before ++ sprintNumber 0 ++ segmentFields segments).length + 1)
      hsegments (by omega) []
    rw [@List.length_append _ before] at hread
    rw [if_neg (by decide), if_neg, if_neg (by simp), hread]
    · rfl
    · obtain ⟨first, rest, rfl⟩ := List.exists_cons_of_ne_nil hne
      simp only [List.length_append, segmentFields, List.flatMap_cons,
        List.length_cons]
      omega

/-- Segments are read back with a prefix. -/
theorem readData_prefix
    {segments : List WString} {pathPrefix : WString} (before : WString)
    (hstart : Storable pathPrefix)
    (hsegments : ∀ segment ∈ segments, Storable segment) :
    readData (before ++ sprintNumber pathPrefix.length ++
        ' ' :: (pathPrefix ++ segmentFields segments)) before.length =
      .ok ⟨segments, some pathPrefix⟩ := by
  obtain ⟨hne, _, hshort⟩ := hstart
  have hpos : 0 < pathPrefix.length := List.length_pos_iff.mpr hne
  have hlast : readAt (before ++ sprintNumber pathPrefix.length ++
      ' ' :: (pathPrefix ++ segmentFields segments))
      (before.length + (sprintNumber pathPrefix.length).length) = .ok ' ' := by
    rw [← List.length_append]
    exact readAt_append _ _ _
  have hnumber := readNumber_sprintNumber stops_number
    (show pathPrefix.length ≤ 32767 by omega) hlast rfl
  have htext : before ++ sprintNumber pathPrefix.length ++ [' '] ++
      pathPrefix ++ segmentFields segments =
      before ++ sprintNumber pathPrefix.length ++
        ' ' :: (pathPrefix ++ segmentFields segments) := by
    simp
  have hrange := readRange_append
    (before ++ sprintNumber pathPrefix.length ++ [' ']) pathPrefix
    (segmentFields segments)
  rw [htext] at hrange
  have hcount := congrArg List.length htext
  generalize before ++ sprintNumber pathPrefix.length ++
    ' ' :: (pathPrefix ++ segmentFields segments) = text at *
  have hread := @readSegments_fields segments
    (before ++ sprintNumber pathPrefix.length ++ [' '] ++ pathPrefix)
    (text.length + 1) hsegments (by rw [htext]; omega) []
  rw [htext] at hread
  simp only [List.length_append, List.length_cons, List.length_nil,
    Nat.zero_add] at hrange hread hcount
  unfold readData
  simp only [hnumber, hlast, bind, Except.bind]
  rw [if_neg (by decide), if_neg (by omega), if_pos (by omega), hrange]
  simp only
  rw [hread]
  rfl

theorem ofNumber_number (type : ServerType) :
    ServerType.ofNumber type.number = type := by
  cases type <;> rfl

theorem number_le (type : ServerType) : type.number ≤ 10 := by
  cases type <;> simp [ServerType.number]

end SafePath

open SafePath

/-- A path with storable parts is read back from its safe form.  Every text
at all is read to its end without a read past the terminator, and leaves the
path empty if it is rejected. -/
theorem safe_path_reads_back
    {path : ServerPath} {data : ServerPathData} (hdata : path.data = some data)
    (hsegments : ∀ segment ∈ data.segments, SafePath.Storable segment)
    (hstart : ∀ pathPrefix, data.pathPrefix = some pathPrefix →
      SafePath.Storable pathPrefix) :
    (∀ other : ServerPath,
        other.setSafePath path.getSafePath = .ok (path, true)) ∧
      ∀ (other : ServerPath) (text : WString), ∃ result,
        other.setSafePath text = .ok result ∧
          (result.2 = false → result.1.empty = true) := by
  refine ⟨?_, setSafePath_safe⟩
  intro other
  obtain ⟨_, type⟩ := path
  simp only at hdata
  subst hdata
  obtain ⟨segments, pathPrefix⟩ := data
  have hblank : ∀ rest, readAt ([] ++ sprintNumber type.number ++ ' ' :: rest)
      (([] : WString).length + (sprintNumber type.number).length) =
      .ok ' ' := by
    intro rest
    rw [List.nil_append, List.length_nil, Nat.zero_add]
    exact readAt_append _ ' ' rest
  have hnumber : ∀ rest, readNumber (sprintNumber type.number ++ ' ' :: rest)
      10 (· == ' ') ((sprintNumber type.number ++ ' ' :: rest).length + 1) 0
        0 = .ok (type.number, (sprintNumber type.number).length) := by
    intro rest
    have hstop : ∀ char, (char == ' ') = true → char = '\x00' ∨ char = ' ' := by
      intro char hblank
      exact Or.inr (by simpa using hblank)
    have hread := readNumber_sprintNumber hstop (number_le type)
      (hblank rest) rfl
    simpa using hread
  have hset : ∀ rest, readData (sprintNumber type.number ++ ' ' :: rest)
      ((sprintNumber type.number).length + 1) =
      .ok ⟨segments, pathPrefix⟩ →
      other.setSafePath (sprintNumber type.number ++ ' ' :: rest) =
        .ok (⟨some ⟨segments, pathPrefix⟩, type⟩, true) := by
    intro rest hread
    unfold ServerPath.setSafePath
    rw [hnumber]
    simp only [hread, ofNumber_number]
  have hcons : ∀ rest, sprintNumber type.number ++ ' ' :: rest =
      (sprintNumber type.number ++ [' ']) ++ rest := by
    intro rest
    simp
  have hlength : (sprintNumber type.number).length + 1 =
      (sprintNumber type.number ++ [' ']).length := by
    simp
  cases pathPrefix with
  | none =>
      apply hset
      rw [hcons, hlength, ← List.append_assoc]
      exact readData_fields _ hsegments
  | some pathPrefix =>
      have hstorable := hstart pathPrefix rfl
      apply hset
      rw [hcons, hlength, ← List.append_assoc,
        copied_of_nulFree hstorable.nulFree]
      exact readData_prefix _ hstorable hsegments

/-- A device with a directory on it. -/
theorem safe_path_reads_back_device :
    (⟨none, .unix⟩ : ServerPath).setSafePath "5 3 :x: 3 a 1".toList =
      .ok (⟨some ⟨["a 1".toList], some ":x:".toList⟩, .vxworks⟩, true) := by
  let path : ServerPath :=
    ⟨some ⟨["a 1".toList], some ":x:".toList⟩, .vxworks⟩
  have hsafe : path.getSafePath = "5 3 :x: 3 a 1".toList := by
    decide
  have hback := (@safe_path_reads_back path _ rfl
    (by
      intro segment hmem
      rw [List.mem_singleton] at hmem
      rw [hmem]
      exact ⟨by decide, by decide, by decide⟩)
    (by
      intro pathPrefix hstart
      rw [← Option.some.inj hstart]
      exact ⟨by decide, by decide, by decide⟩)).1 ⟨none, .unix⟩
  rw [hsafe] at hback
  exact hback

theorem exists_device (count : ℕ) :
    ∃ device : WString, device.length = count + 2 ∧ device ≠ [] := by
  refine ⟨':' :: (List.replicate count 'x' ++ [':']), ?_,
    List.cons_ne_nil _ _⟩
  simp

/-- A prefix that is too long to be read. -/
theorem long_prefix_rejected :
    ¬ ∀ (path other : ServerPath) (data : ServerPathData),
      path.data = some data →
      (∀ segment ∈ data.segments, SafePath.Storable segment) →
      (∀ pathPrefix, data.pathPrefix = some pathPrefix → pathPrefix ≠ []) →
      other.setSafePath path.getSafePath = .ok (path, true) := by
  intro hall
  obtain ⟨device, hlength, hany⟩ := exists_device 32766
  have hnonempty : ∀ pathPrefix, some device = some pathPrefix →
      pathPrefix ≠ [] := by
    intro pathPrefix hstart
    rw [← Option.some.inj hstart]
    exact hany
  have hback := hall ⟨some ⟨[], some device⟩, .vxworks⟩ ⟨none, .default⟩
    ⟨[], some device⟩ rfl nofun hnonempty
  have hdigits : sprintNumber 32768 = ['3', '2', '7', '6', '8'] := rfl
  have hrejected : ∀ rest, ServerPath.setSafePath ⟨none, .default⟩
      ('5' :: ' ' :: '3' :: '2' :: '7' :: '6' :: '8' :: ' ' :: rest) =
      .ok (⟨none, .vxworks⟩, false) := by
    intro rest
    rfl
  have htext : ServerPath.getSafePath ⟨some ⟨[], some device⟩, .vxworks⟩ =
      '5' :: ' ' :: '3' :: '2' :: '7' :: '6' :: '8' :: ' ' ::
        (copied device ++ segmentFields []) := by
    simp only [ServerPath.getSafePath, hlength, hdigits]
    rfl
  rw [htext, hrejected] at hback
  cases hback

end TabFtp
