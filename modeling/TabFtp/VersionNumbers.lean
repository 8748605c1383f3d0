import TabFtp.ServerIdentity
import Mathlib.Tactic

/-!
# Version numbers

`ConvertToVersionNumber` packs a version into a 64-bit number, ten bits for
each of its parts, in which final releases have a bit above the numbers of
betas and release candidates.
-/

namespace TabFtp

/-- The variables of the loop of `ConvertToVersionNumber`. -/
structure VersionScan where
  v : ℕ
  segment : ℕ
  shifts : ℕ

namespace VersionScan

/-- `<<` of an `int64_t`, with no result if it overflows. -/
def shiftLeft (v count : ℕ) : Option ℕ :=
  if v <<< count < 2 ^ 63 then some (v <<< count) else none

/-- What `.`, `-` and `b` have in common. -/
def shift (scan : VersionScan) : Option VersionScan :=
  (shiftLeft (scan.v + scan.segment) 10).map fun v =>
    { v := v, segment := 0, shifts := scan.shifts + 1 }

/-- The digits of an `int`, and the dash in front of `rc` and `beta`. -/
def take (scan : VersionScan) (c : Char) : Option VersionScan :=
  if c = '-' ∧ scan.shifts < 4 then
    (shiftLeft scan.v ((4 - scan.shifts) * 10)).map fun v =>
      { scan with v := v, shifts := 4 }
  else if c.isDigit then
    let segment := 10 * scan.segment + (c.toNat - '0'.toNat)
    if segment < 2 ^ 31 then some { scan with segment := segment } else none
  else some scan

def step (scan : VersionScan) (c : Char) : Option VersionScan :=
  if c = '.' ∨ c = '-' ∨ c = 'b' then scan.shift.bind (·.take c)
  else scan.take c

def finish (scan : VersionScan) : Option ℕ :=
  if 5 < scan.shifts then none
  else
    (shiftLeft (scan.v + scan.segment) ((5 - scan.shifts) * 10)).map fun v =>
      -- final releases have a higher number than rc or beta releases
      if v &&& 0x0FFFFF = 0 then v ||| 0x080000 else v

end VersionScan

def convertToVersionNumber (version : WString) : Option ℤ :=
  if (version.head?.any Char.isDigit) then
    ((version.foldlM VersionScan.step ⟨0, 0, 0⟩).bind
      VersionScan.finish).map Int.ofNat
  else some (-1)

/-! ## Versions -/

inductive ReleaseKind
  | beta (number : ℕ)
  | candidate (number : ℕ)
  | final

/-- A version of one of the supported formats. -/
structure ReleaseVersion where
  first : ℕ
  more : List ℕ
  kind : ReleaseKind
  small : first < 1024 ∧ ∀ part ∈ more, part < 1024
  parts : more.length ≤ 3
  numbered : match kind with
    | .beta number => 1 ≤ number ∧ number ≤ 1023
    | .candidate number => 1 ≤ number ∧ number ≤ 511
    | .final => True

namespace ReleaseVersion

def kindText : ReleaseKind → WString
  | .beta number => "-beta".toList ++ Nat.toDigits 10 number
  | .candidate number => "-rc".toList ++ Nat.toDigits 10 number
  | .final => []

def text (version : ReleaseVersion) : WString :=
  Nat.toDigits 10 version.first ++
    (version.more.flatMap fun part => '.' :: Nat.toDigits 10 part) ++
      kindText version.kind

def kindRank : ReleaseKind → List ℕ
  | .beta number => [0, number]
  | .candidate number => [1, number]
  | .final => [2, 0]

/-- What versions are compared by, with the parts that are missing as zeros. -/
def key (version : ReleaseVersion) : List ℕ :=
  version.first ::
    [version.more.getD 0 0, version.more.getD 1 0, version.more.getD 2 0] ++
      kindRank version.kind

def Precedes (version other : ReleaseVersion) : Prop :=
  List.Lex (· < ·) version.key other.key

def packed (version : ReleaseVersion) : ℕ :=
  version.first * 2 ^ 30 + version.more.getD 0 0 * 2 ^ 20 +
    version.more.getD 1 0 * 2 ^ 10 + version.more.getD 2 0

def kindBits : ReleaseKind → ℕ
  | .beta number => number
  | .candidate number => number * 2 ^ 10
  | .final => 2 ^ 19

end ReleaseVersion

open VersionScan ReleaseVersion

/-! ## Scanning -/

namespace VersionScan

theorem shiftLeft_eq {v count : ℕ} (hfits : v * 2 ^ count < 2 ^ 63) :
    shiftLeft v count = some (v * 2 ^ count) := by
  rw [← Nat.shiftLeft_eq] at hfits ⊢
  exact if_pos hfits

theorem shift_eq {scan : VersionScan}
    (hfits : (scan.v + scan.segment) * 2 ^ 10 < 2 ^ 63) :
    scan.shift = some
      { v := (scan.v + scan.segment) * 2 ^ 10, segment := 0,
        shifts := scan.shifts + 1 } := by
  rw [shift, shiftLeft_eq hfits]
  rfl

theorem foldlM_append_some {front back : WString} {scan read : VersionScan}
    (hfront : front.foldlM step scan = some read) :
    (front ++ back).foldlM step scan = back.foldlM step read := by
  rw [List.foldlM_append, hfront]
  rfl

theorem le_ofDigitChars (digits : WString) (segment : ℕ) :
    segment ≤ Nat.ofDigitChars 10 digits segment := by
  induction digits generalizing segment with
  | nil => simp
  | cons c digits ih =>
      rw [Nat.ofDigitChars_cons]
      have hrest := ih (10 * segment + (c.toNat - '0'.toNat))
      omega

theorem step_digit {scan : VersionScan} {c : Char} (hdigit : c.isDigit = true)
    (hfits : 10 * scan.segment + (c.toNat - '0'.toNat) < 2 ^ 31) :
    scan.step c = some
      { scan with segment := 10 * scan.segment + (c.toNat - '0'.toNat) } := by
  have hother : ∀ {d : Char}, d.isDigit = false → c ≠ d := by
    rintro d hd rfl
    rw [hd] at hdigit
    contradiction
  have hdot : c ≠ '.' := hother rfl
  have hdash : c ≠ '-' := hother rfl
  have hbeta : c ≠ 'b' := hother rfl
  simp only [step, take, hdot, hdash, hbeta, hdigit, false_or, false_and,
    if_false, if_true, if_pos hfits]

/-- The digits of a number are added to the segment. -/
theorem foldlM_digits (digits : WString) (scan : VersionScan)
    (hdigits : ∀ c ∈ digits, c.isDigit = true)
    (hfits : Nat.ofDigitChars 10 digits scan.segment < 2 ^ 31) :
    digits.foldlM step scan =
      some { scan with segment :=
        Nat.ofDigitChars 10 digits scan.segment } := by
  induction digits generalizing scan with
  | nil => simp
  | cons c digits ih =>
      rw [Nat.ofDigitChars_cons] at hfits ⊢
      have hfirst := (le_ofDigitChars digits _).trans_lt hfits
      rw [List.foldlM_cons, step_digit (hdigits c List.mem_cons_self) hfirst]
      exact ih { scan with segment := _ }
        (fun d hd => hdigits d (List.mem_cons_of_mem c hd)) hfits

theorem foldlM_number (number : ℕ) (scan : VersionScan)
    (hnone : scan.segment = 0) (hsmall : number < 2 ^ 31) :
    (Nat.toDigits 10 number).foldlM step scan =
      some { scan with segment := number } := by
  have hdigits : ∀ c ∈ Nat.toDigits 10 number, c.isDigit = true :=
    fun c hc => Nat.isDigit_of_mem_toDigits (by decide) (by decide) hc
  have hvalue : Nat.ofDigitChars 10 (Nat.toDigits 10 number) scan.segment =
      number := by
    rw [hnone]
    exact Nat.ofDigitChars_ten_toDigits
  rw [foldlM_digits _ scan hdigits (by omega), hvalue]

theorem step_dot {scan : VersionScan}
    (hfits : (scan.v + scan.segment) * 2 ^ 10 < 2 ^ 63) :
    scan.step '.' = some
      { v := (scan.v + scan.segment) * 2 ^ 10, segment := 0,
        shifts := scan.shifts + 1 } := by
  have htake : ∀ scan : VersionScan, scan.take '.' = some scan := by
    intro scan
    simp [take, Char.isDigit]
  simp only [step, true_or, if_true, shift_eq hfits, Option.bind_some, htake]

/-- The number so far, if its parts are read as digits to the base 1024. -/
def total (scan : VersionScan) : ℕ := scan.v + scan.segment

/-- Every part is shifted in behind those before it. -/
theorem foldlM_parts (more : List ℕ) (scan : VersionScan)
    (hsmall : ∀ part ∈ more, part < 1024)
    (hroom : (scan.total + 1) * 2 ^ (10 * more.length) ≤ 2 ^ 40) :
    ∃ after, (more.flatMap fun part => '.' :: Nat.toDigits 10 part).foldlM
        step scan = some after ∧
      after.total = more.foldl (fun t part => t * 2 ^ 10 + part) scan.total ∧
      after.shifts = scan.shifts + more.length ∧
      after.total + 1 ≤ 2 ^ 40 := by
  induction more generalizing scan with
  | nil => exact ⟨scan, rfl, rfl, rfl, by simpa using hroom⟩
  | cons part more ih =>
      have hpart : part < 1024 := hsmall part List.mem_cons_self
      have hpower : 2 ^ (10 * (part :: more).length) =
          2 ^ 10 * 2 ^ (10 * more.length) := by
        rw [List.length_cons, ← Nat.pow_add]
        congr 1
        omega
      have hpos : 1 ≤ 2 ^ (10 * more.length) := Nat.one_le_two_pow
      have hthis : (scan.total + 1) * 2 ^ 10 ≤ 2 ^ 40 := by
        refine le_trans ?_ hroom
        rw [hpower]
        nlinarith
      have hfits : (scan.v + scan.segment) * 2 ^ 10 < 2 ^ 63 := by
        have htotal : scan.total = scan.v + scan.segment := rfl
        omega
      let read : VersionScan :=
        { v := (scan.v + scan.segment) * 2 ^ 10, segment := part,
          shifts := scan.shifts + 1 }
      have hread : ('.' :: Nat.toDigits 10 part).foldlM step scan =
          some read := by
        rw [List.foldlM_cons, step_dot hfits]
        exact foldlM_number part _ rfl (by omega)
      have htotal : read.total = scan.total * 2 ^ 10 + part := rfl
      have hlater : (read.total + 1) * 2 ^ (10 * more.length) ≤ 2 ^ 40 := by
        refine le_trans ?_ hroom
        rw [hpower, htotal, ← Nat.mul_assoc]
        apply Nat.mul_le_mul_right
        omega
      obtain ⟨after, hafter, hsum, hshifts, hbound⟩ := ih read
        (fun other hmem => hsmall other (List.mem_cons_of_mem _ hmem)) hlater
      refine ⟨after, ?_, ?_, ?_, hbound⟩
      · rw [List.flatMap_cons, List.foldlM_append, hread]
        exact hafter
      · rw [hsum, htotal]
        rfl
      · rw [hshifts, List.length_cons]
        change scan.shifts + 1 + more.length = _
        omega

/-- The dash makes room for the parts that are missing. -/
theorem step_dash {scan : VersionScan} (hshifts : scan.shifts ≤ 3)
    (hfits : scan.total * 2 ^ (10 * (4 - scan.shifts)) < 2 ^ 50) :
    scan.step '-' = some
      { v := scan.total * 2 ^ (10 * (4 - scan.shifts)), segment := 0,
        shifts := 4 } := by
  have hpower : 2 ^ (10 * (4 - scan.shifts)) =
      2 ^ 10 * 2 ^ ((4 - (scan.shifts + 1)) * 10) := by
    rw [← Nat.pow_add]
    congr 1
    omega
  have hpos : 1 ≤ 2 ^ ((4 - (scan.shifts + 1)) * 10) := Nat.one_le_two_pow
  have hfirst : (scan.v + scan.segment) * 2 ^ 10 < 2 ^ 63 := by
    rw [hpower, ← Nat.mul_assoc] at hfits
    have hle := Nat.le_mul_of_pos_right ((scan.v + scan.segment) * 2 ^ 10) hpos
    have htotal : scan.total = scan.v + scan.segment := rfl
    rw [htotal] at hfits
    omega
  simp only [step, or_true, true_or, if_true, shift_eq hfirst,
    Option.bind_some, take]
  rcases Nat.lt_or_ge (scan.shifts + 1) 4 with hless | hfull
  · have hsecond : (scan.v + scan.segment) * 2 ^ 10 *
        2 ^ ((4 - (scan.shifts + 1)) * 10) < 2 ^ 63 := by
      rw [Nat.mul_assoc, ← hpower]
      exact hfits.trans (by norm_num)
    rw [if_pos ⟨trivial, hless⟩, shiftLeft_eq hsecond, Option.map_some,
      Nat.mul_assoc, ← hpower]
    rfl
  · have hthree : scan.shifts = 3 := by omega
    rw [if_neg (by omega), if_neg (by decide), hthree]
    rfl

theorem step_letter {scan : VersionScan} {c : Char}
    (hshift : ¬ (c = '.' ∨ c = '-' ∨ c = 'b')) (hdigit : c.isDigit = false) :
    scan.step c = some scan := by
  have hdash : c ≠ '-' := fun hdash => hshift (.inr (.inl hdash))
  rw [step, if_neg hshift, take, if_neg (by simp [hdash]), hdigit]
  rfl

theorem step_b {scan : VersionScan}
    (hfits : (scan.v + scan.segment) * 2 ^ 10 < 2 ^ 63) :
    scan.step 'b' = some
      { v := (scan.v + scan.segment) * 2 ^ 10, segment := 0,
        shifts := scan.shifts + 1 } := by
  have htake : ∀ scan : VersionScan, scan.take 'b' = some scan := by
    intro scan
    simp [take, Char.isDigit]
  simp only [step, or_true, if_true, shift_eq hfits, Option.bind_some, htake]

theorem finish_eq {scan : VersionScan} {bits : ℕ} (hshifts : scan.shifts ≤ 5)
    (hbits : scan.total * 2 ^ ((5 - scan.shifts) * 10) = bits)
    (hfits : bits < 2 ^ 63) :
    scan.finish = some
      (if bits &&& 0x0FFFFF = 0 then bits ||| 0x080000 else bits) := by
  subst hbits
  have hshifted : shiftLeft (scan.v + scan.segment) ((5 - scan.shifts) * 10) =
      some (scan.total * 2 ^ ((5 - scan.shifts) * 10)) :=
    shiftLeft_eq hfits
  rw [finish, if_neg (by omega), hshifted]
  rfl

end VersionScan

namespace ReleaseVersion

variable (version : ReleaseVersion)

theorem part_lt (i : ℕ) : version.more.getD i 0 < 1024 := by
  rw [List.getD_eq_getElem?_getD]
  cases hpart : version.more[i]? with
  | none => decide
  | some part => exact version.small.2 part (List.mem_of_getElem? hpart)

theorem packed_lt : version.packed < 2 ^ 40 := by
  have hfirst := version.small.1
  have h0 := version.part_lt 0
  have h1 := version.part_lt 1
  have h2 := version.part_lt 2
  unfold packed
  omega

theorem kindBits_lt : kindBits version.kind < 2 ^ 20 := by
  have hnumbered := version.numbered
  cases hkind : version.kind with
  | beta number =>
      rw [hkind] at hnumbered
      exact lt_of_le_of_lt hnumbered.2 (by norm_num)
  | candidate number =>
      rw [hkind] at hnumbered
      have hle : number ≤ 511 := hnumbered.2
      change number * 2 ^ 10 < 2 ^ 20
      omega
  | final =>
      change 2 ^ 19 < 2 ^ 20
      norm_num

/-- The parts, filled up with zeros. -/
theorem foldl_parts :
    version.more.foldl (fun t part => t * 2 ^ 10 + part) version.first *
        2 ^ (10 * (3 - version.more.length)) =
      version.packed := by
  have hparts := version.parts
  unfold packed
  match hmore : version.more with
  | [] => simp
  | [b] =>
      simp only [List.foldl_cons, List.foldl_nil, List.length_cons,
        List.length_nil, List.getD_cons_zero, List.getD_cons_succ,
        List.getD_nil]
      omega
  | [b, c] =>
      simp only [List.foldl_cons, List.foldl_nil, List.length_cons,
        List.length_nil, List.getD_cons_zero, List.getD_cons_succ,
        List.getD_nil]
      omega
  | [b, c, d] =>
      simp only [List.foldl_cons, List.foldl_nil, List.length_cons,
        List.length_nil, List.getD_cons_zero, List.getD_cons_succ]
      omega
  | b :: c :: d :: e :: more =>
      rw [hmore] at hparts
      exact absurd hparts (by simp)

/-- The parts as the loop has read them. -/
theorem foldlM_text_parts :
    ∃ scan, (Nat.toDigits 10 version.first ++
        version.more.flatMap fun part => '.' :: Nat.toDigits 10 part).foldlM
          step ⟨0, 0, 0⟩ = some scan ∧
      scan.shifts = version.more.length ∧
      scan.total * 2 ^ (10 * (3 - version.more.length)) = version.packed := by
  have hfirst := version.small.1
  have hroom : (version.first + 1) * 2 ^ (10 * version.more.length) ≤
      2 ^ 40 := by
    have hpower : 2 ^ (10 * version.more.length) ≤ 2 ^ 30 :=
      Nat.pow_le_pow_right (by decide) (by have := version.parts; omega)
    calc (version.first + 1) * 2 ^ (10 * version.more.length)
        ≤ 1024 * 2 ^ 30 := Nat.mul_le_mul hfirst hpower
      _ = 2 ^ 40 := by norm_num
  have hread : (Nat.toDigits 10 version.first).foldlM step ⟨0, 0, 0⟩ =
      some ⟨0, version.first, 0⟩ :=
    foldlM_number version.first ⟨0, 0, 0⟩ rfl (by omega)
  obtain ⟨scan, hscan, htotal, hshifts, -⟩ := foldlM_parts version.more
    ⟨0, version.first, 0⟩ version.small.2 (by simpa [total] using hroom)
  refine ⟨scan, ?_, by simpa using hshifts, ?_⟩
  · rw [foldlM_append_some hread]
    exact hscan
  · rw [htotal]
    simpa [total] using version.foldl_parts

/-- The number of a version. -/
def number : ℕ := version.packed * 2 ^ 20 + kindBits version.kind

theorem low_bits {packed bits : ℕ} (hbits : bits < 2 ^ 20) :
    (packed * 2 ^ 20 + bits) &&& 0x0FFFFF = bits := by
  have hmask : (0x0FFFFF : ℕ) = 2 ^ 20 - 1 := by norm_num
  rw [hmask, Nat.and_two_pow_sub_one_eq_mod]
  omega

theorem high_bits (packed : ℕ) :
    packed * 2 ^ 20 ||| 0x080000 = packed * 2 ^ 20 + 2 ^ 19 := by
  rw [Nat.mul_comm]
  exact (Nat.two_pow_add_eq_or_of_lt (by norm_num) packed).symm

/-- What the loop makes of a dash behind the parts. -/
theorem foldlM_dash :
    ∃ scan, (Nat.toDigits 10 version.first ++
        (version.more.flatMap fun part => '.' :: Nat.toDigits 10 part) ++
          ['-']).foldlM step ⟨0, 0, 0⟩ = some scan ∧
      scan = ⟨version.packed * 2 ^ 10, 0, 4⟩ := by
  obtain ⟨scan, hscan, hshifts, htotal⟩ := version.foldlM_text_parts
  have hparts := version.parts
  have hpacked := version.packed_lt
  have hvalue : scan.total * 2 ^ (10 * (4 - scan.shifts)) =
      version.packed * 2 ^ 10 := by
    have hmore : 10 * (4 - scan.shifts) =
        10 * (3 - version.more.length) + 10 := by
      omega
    rw [hmore, Nat.pow_add, ← Nat.mul_assoc, htotal]
  refine ⟨_, ?_, rfl⟩
  rw [foldlM_append_some hscan, List.foldlM_cons,
    step_dash (by omega) (by rw [hvalue]; omega), hvalue]
  rfl

/-- `b` makes room for a last number. -/
theorem foldlM_beta {packed : ℕ} (hpacked : packed < 2 ^ 40) {number : ℕ}
    (hsmall : number ≤ 1023) :
    ("beta".toList ++ Nat.toDigits 10 number).foldlM step
        ⟨packed * 2 ^ 10, 0, 4⟩ =
      some ⟨packed * 2 ^ 20, number, 5⟩ := by
  have hb : step ⟨packed * 2 ^ 10, 0, 4⟩ 'b' =
      some ⟨packed * 2 ^ 20, 0, 5⟩ := by
    rw [step_b (by simp only; omega)]
    simp only [Option.some.injEq, VersionScan.mk.injEq, and_true]
    omega
  have hword : "beta".toList.foldlM step ⟨packed * 2 ^ 10, 0, 4⟩ =
      some ⟨packed * 2 ^ 20, 0, 5⟩ := by
    change ['b', 'e', 't', 'a'].foldlM step _ = _
    simp only [List.foldlM_cons, List.foldlM_nil, hb,
      step_letter (c := 'e') (by decide) rfl,
      step_letter (c := 't') (by decide) rfl,
      step_letter (c := 'a') (by decide) rfl, Option.bind_eq_bind,
      Option.bind_some]
    rfl
  rw [foldlM_append_some hword]
  exact foldlM_number number _ rfl (by omega)

theorem foldlM_candidate (packed : ℕ) {number : ℕ} (hsmall : number ≤ 511) :
    ("rc".toList ++ Nat.toDigits 10 number).foldlM step
        ⟨packed * 2 ^ 10, 0, 4⟩ =
      some ⟨packed * 2 ^ 10, number, 4⟩ := by
  have hword : "rc".toList.foldlM step ⟨packed * 2 ^ 10, 0, 4⟩ =
      some ⟨packed * 2 ^ 10, 0, 4⟩ := by
    change ['r', 'c'].foldlM step _ = _
    simp only [List.foldlM_cons, List.foldlM_nil,
      step_letter (c := 'r') (by decide) rfl,
      step_letter (c := 'c') (by decide) rfl, Option.bind_eq_bind,
      Option.bind_some]
    rfl
  rw [foldlM_append_some hword]
  exact foldlM_number number _ rfl (by omega)

theorem finish_numbered {packed bits : ℕ} {scan : VersionScan}
    (hshifts : scan.shifts ≤ 5)
    (hvalue : scan.total * 2 ^ ((5 - scan.shifts) * 10) =
      packed * 2 ^ 20 + bits)
    (hpacked : packed < 2 ^ 40) (hbits : bits < 2 ^ 20) (hsome : bits ≠ 0) :
    scan.finish = some (packed * 2 ^ 20 + bits) := by
  have hlow := @low_bits packed bits hbits
  rw [finish_eq hshifts hvalue (by omega), hlow, if_neg hsome]

theorem finish_final {packed : ℕ} {scan : VersionScan}
    (hshifts : scan.shifts ≤ 5)
    (hvalue : scan.total * 2 ^ ((5 - scan.shifts) * 10) = packed * 2 ^ 20)
    (hpacked : packed < 2 ^ 40) :
    scan.finish = some (packed * 2 ^ 20 + 2 ^ 19) := by
  have hlow := @low_bits packed 0 (by norm_num)
  rw [Nat.add_zero] at hlow
  rw [finish_eq hshifts hvalue (by omega), if_pos hlow, high_bits]

theorem scan_beta {number : ℕ} (hkind : version.kind = .beta number) :
    (version.text.foldlM step ⟨0, 0, 0⟩).bind finish =
      some (version.packed * 2 ^ 20 + number) := by
  have hpacked := version.packed_lt
  have hnumbered := version.numbered
  rw [hkind] at hnumbered
  obtain ⟨hone, hsmall⟩ := hnumbered
  obtain ⟨dashed, hdash, rfl⟩ := version.foldlM_dash
  have hsplit : kindText (.beta number) =
      ['-'] ++ ("beta".toList ++ Nat.toDigits 10 number) := rfl
  rw [text, hkind, hsplit, ← List.append_assoc, foldlM_append_some hdash,
    foldlM_beta hpacked hsmall, Option.bind_some]
  have hvalue : (⟨version.packed * 2 ^ 20, number, 5⟩ : VersionScan).total *
      2 ^ ((5 - 5) * 10) = version.packed * 2 ^ 20 + number :=
    Nat.mul_one _
  exact finish_numbered (le_refl 5) hvalue hpacked (by omega) (by omega)

theorem scan_candidate {number : ℕ} (hkind : version.kind = .candidate number) :
    (version.text.foldlM step ⟨0, 0, 0⟩).bind finish =
      some (version.packed * 2 ^ 20 + number * 2 ^ 10) := by
  have hpacked := version.packed_lt
  have hnumbered := version.numbered
  rw [hkind] at hnumbered
  obtain ⟨hone, hsmall⟩ := hnumbered
  obtain ⟨dashed, hdash, rfl⟩ := version.foldlM_dash
  have hsplit : kindText (.candidate number) =
      ['-'] ++ ("rc".toList ++ Nat.toDigits 10 number) := rfl
  rw [text, hkind, hsplit, ← List.append_assoc, foldlM_append_some hdash,
    foldlM_candidate version.packed hsmall, Option.bind_some]
  exact finish_numbered (by simp) (by simp only [total]; omega) hpacked
    (by omega) (by omega)

theorem scan_final (hkind : version.kind = .final) :
    (version.text.foldlM step ⟨0, 0, 0⟩).bind finish =
      some (version.packed * 2 ^ 20 + 2 ^ 19) := by
  have hparts := version.parts
  obtain ⟨scan, hscan, hshifts, htotal⟩ := version.foldlM_text_parts
  have hvalue : scan.total * 2 ^ ((5 - scan.shifts) * 10) =
      version.packed * 2 ^ 20 := by
    have hmore : (5 - scan.shifts) * 10 =
        10 * (3 - version.more.length) + 20 := by
      omega
    rw [hmore, Nat.pow_add, ← Nat.mul_assoc, htotal]
  rw [text, hkind, kindText, List.append_nil, hscan, Option.bind_some]
  exact finish_final (by omega) hvalue version.packed_lt

/-- The numbers of betas and candidates are above zero, so that only those of
final releases get their bit. -/
theorem scan_text :
    (version.text.foldlM step ⟨0, 0, 0⟩).bind finish =
      some version.number := by
  unfold number
  cases hkind : version.kind with
  | beta number => exact version.scan_beta hkind
  | candidate number => exact version.scan_candidate hkind
  | final => exact version.scan_final hkind

theorem convert_text : convertToVersionNumber version.text =
    some (Int.ofNat version.number) := by
  have hhead : version.text.head?.any Char.isDigit = true := by
    cases hdigits : Nat.toDigits 10 version.first with
    | nil => exact absurd hdigits Nat.toDigits_ne_nil
    | cons c digits =>
        have hdigit : c.isDigit = true :=
          Nat.isDigit_of_mem_toDigits (by decide) (by decide)
            (hdigits ▸ List.mem_cons_self)
        simp [text, hdigits, hdigit]
  rw [convertToVersionNumber, if_pos hhead, version.scan_text]
  rfl

/-! ## The order -/

theorem kindBits_lt_iff {kind other : ReleaseKind}
    (hkind : match kind with
      | .beta number => 1 ≤ number ∧ number ≤ 1023
      | .candidate number => 1 ≤ number ∧ number ≤ 511
      | .final => True)
    (hother : match other with
      | .beta number => 1 ≤ number ∧ number ≤ 1023
      | .candidate number => 1 ≤ number ∧ number ≤ 511
      | .final => True) :
    (kindBits kind < kindBits other ↔
        List.Lex (· < ·) (kindRank kind) (kindRank other)) ∧
      (kindBits kind = kindBits other ↔ kindRank kind = kindRank other) := by
  cases kind <;> cases other <;>
    simp [kindBits, kindRank, List.cons_lex_cons_iff] <;> omega

/-- The numbers are in the order of the versions. -/
theorem number_lt_iff (other : ReleaseVersion) :
    (version.number < other.number ↔ version.Precedes other) ∧
      (version.number = other.number ↔ version.key = other.key) := by
  obtain ⟨hless, hsame⟩ := kindBits_lt_iff version.numbered other.numbered
  have hbits := version.kindBits_lt
  have hotherBits := other.kindBits_lt
  have h0 := version.part_lt 0
  have h1 := version.part_lt 1
  have h2 := version.part_lt 2
  have k0 := other.part_lt 0
  have k1 := other.part_lt 1
  have k2 := other.part_lt 2
  unfold Precedes number packed key
  simp only [List.cons_append, List.nil_append, List.cons_lex_cons_iff,
    List.cons.injEq, ← hless, ← hsame]
  constructor
  · omega
  · omega

end ReleaseVersion

/-- The numbers of versions are ordered as the versions are. -/
theorem version_numbers_ordered (version other : ReleaseVersion) :
    ∃ v w : ℤ, convertToVersionNumber version.text = some v ∧
      convertToVersionNumber other.text = some w ∧
      (v < w ↔ version.Precedes other) ∧
      (v = w ↔ version.key = other.key) := by
  obtain ⟨hless, hsame⟩ := version.number_lt_iff other
  refine ⟨_, _, version.convert_text, other.convert_text, ?_, ?_⟩
  · rw [← hless]
    exact Int.ofNat_lt
  · rw [← hsame]
    exact Int.ofNat_inj

example : convertToVersionNumber "2.2.26-beta3".toList =
    some 2254026754228227 := by
  decide +kernel

end TabFtp
