import TabFtp.ListingTokens

/-!
# Sizes of the chunks of a file

A file is sent in parts.  The size of the next part follows from how long the
last one took, is large enough for the parts that are left to hold the rest,
and is rounded up to a multiple.  Products and sums have 64 bits.
-/

namespace TabFtp

/-- What does not change from one part to the next. -/
structure ChunkLimits where
  minChunkSize : ℤ
  multiple : ℤ
  /-- 0 for any number of parts -/
  maxPartCount : ℤ
  /-- 0 for any size -/
  maxChunkSize : ℤ

structure ChunkCall where
  remaining : ℤ
  lastChunkSize : ℤ
  /-- in milliseconds -/
  lastChunkDuration : ℤ
  partCount : ℤ

namespace ChunkLimits

def measuredSize (limits : ChunkLimits) (call : ChunkCall) : ℤ :=
  if call.lastChunkDuration ≠ 0 ∧ call.lastChunkSize ≠ 0 then
    let size := (int64 (call.lastChunkSize * 30000)).tdiv call.lastChunkDuration
    if size > limits.minChunkSize then size else limits.minChunkSize
  else
    limits.minChunkSize

def budgetedSize (limits : ChunkLimits) (call : ChunkCall)
    (newChunkSize : ℤ) : ℤ :=
  if limits.maxPartCount ≠ 0 ∧
      int64 (newChunkSize * (limits.maxPartCount - call.partCount)) <
        call.remaining then
    if limits.maxPartCount - call.partCount ≤ 1 then
      call.remaining
    else
      call.remaining.tdiv (limits.maxPartCount - call.partCount - 1)
  else
    newChunkSize

def roundUp (multiple newChunkSize : ℤ) : ℤ :=
  if multiple ≠ 0 then
    let modulus := newChunkSize.tmod multiple
    if modulus ≠ 0 then
      int64 (newChunkSize + (multiple - modulus))
    else
      newChunkSize
  else
    newChunkSize

def calculateNextChunkSize (limits : ChunkLimits) (call : ChunkCall) : ℤ :=
  if call.remaining ≤ 0 then
    0
  else
    let newChunkSize := limits.measuredSize call
    let newChunkSize := limits.budgetedSize call newChunkSize
    let newChunkSize := roundUp limits.multiple newChunkSize
    let newChunkSize :=
      if limits.maxChunkSize ≠ 0 ∧ newChunkSize > limits.maxChunkSize then
        limits.maxChunkSize
      else
        newChunkSize
    if newChunkSize > call.remaining then call.remaining else newChunkSize

/-- The calls that are made for a file: each with what remains, the size of
the last chunk and how many chunks there were.  A duration is measured before
each of them. -/
def calls (limits : ChunkLimits) : List ℤ → ℤ → ℤ → ℤ → List ChunkCall
  | [], _, _, _ => []
  | duration :: durations, remaining, lastChunkSize, partCount =>
    if remaining ≤ 0 then
      []
    else
      let call : ChunkCall := ⟨remaining, lastChunkSize, duration, partCount⟩
      let chunk := limits.calculateNextChunkSize call
      call :: limits.calls durations (remaining - chunk) chunk (partCount + 1)

def chunks (limits : ChunkLimits) (durations : List ℤ)
    (remaining lastChunkSize partCount : ℤ) : List ℤ :=
  (limits.calls durations remaining lastChunkSize partCount).map
    limits.calculateNextChunkSize

/-! ## Overflow -/

def Fits (number : ℤ) : Prop :=
  -2 ^ 63 ≤ number ∧ number < 2 ^ 63

instance (number : ℤ) : Decidable (Fits number) :=
  inferInstanceAs (Decidable (_ ∧ _))

theorem Fits.int64 {number : ℤ} (hfits : Fits number) :
    int64 number = number := by
  unfold TabFtp.int64
  have hlow := hfits.1
  have hhigh := hfits.2
  apply Int.bmod_eq_of_le_mul_two <;> norm_num <;> omega

/-- The products that a call computes do not overflow. -/
def ProductsFit (limits : ChunkLimits) (call : ChunkCall) : Prop :=
  (call.lastChunkDuration ≠ 0 → call.lastChunkSize ≠ 0 →
    Fits (call.lastChunkSize * 30000)) ∧
  (limits.maxPartCount ≠ 0 →
    Fits (limits.measuredSize call * (limits.maxPartCount - call.partCount)))

/-- Nor does the sum that rounds up. -/
def SumFits (limits : ChunkLimits) (call : ChunkCall) : Prop :=
  let newChunkSize := limits.budgetedSize call (limits.measuredSize call)
  limits.multiple ≠ 0 → newChunkSize.tmod limits.multiple ≠ 0 →
    Fits (newChunkSize + (limits.multiple -
      newChunkSize.tmod limits.multiple))

instance (limits : ChunkLimits) (call : ChunkCall) :
    Decidable (limits.ProductsFit call) :=
  inferInstanceAs (Decidable (_ ∧ _))

instance (limits : ChunkLimits) (call : ChunkCall) :
    Decidable (limits.SumFits call) :=
  inferInstanceAs (Decidable (_ → _ → Fits _))

/-! ## One chunk -/

variable {limits : ChunkLimits} {call : ChunkCall}

theorem minChunkSize_le_measuredSize (limits : ChunkLimits)
    (call : ChunkCall) : limits.minChunkSize ≤ limits.measuredSize call := by
  unfold measuredSize
  dsimp only
  split_ifs <;> omega

theorem budgetedSize_pos {newChunkSize : ℤ} (hpos : 0 < newChunkSize)
    (hremaining : 0 < call.remaining)
    (hfits : limits.maxPartCount ≠ 0 →
      Fits (newChunkSize * (limits.maxPartCount - call.partCount))) :
    0 < limits.budgetedSize call newChunkSize := by
  unfold budgetedSize
  split_ifs with hsmall hlast
  · exact hremaining
  · rcases hsmall with ⟨hparts, hlt⟩
    rw [(hfits hparts).int64] at hlt
    have hleft : limits.maxPartCount - call.partCount ≤
        newChunkSize * (limits.maxPartCount - call.partCount) := by
      nlinarith
    rw [Int.tdiv_eq_ediv_of_nonneg hremaining.le]
    exact Int.le_ediv_of_mul_le (by omega) (by omega)
  · exact hpos

theorem remaining_le_budgetedSize {newChunkSize : ℤ}
    (hparts : limits.maxPartCount ≠ 0)
    (hlast : limits.maxPartCount - call.partCount = 1)
    (hfits : Fits (newChunkSize *
      (limits.maxPartCount - call.partCount))) :
    call.remaining ≤ limits.budgetedSize call newChunkSize := by
  unfold budgetedSize
  rw [hfits.int64, hlast, Int.mul_one]
  split_ifs with hsmall hone
  · exact le_refl _
  · omega
  · have hlarge : ¬newChunkSize < call.remaining := by
      intro hlt
      exact hsmall ⟨hparts, hlt⟩
    omega

theorem le_roundUp {multiple newChunkSize : ℤ} (hmultiple : 0 ≤ multiple)
    (hfits : multiple ≠ 0 → newChunkSize.tmod multiple ≠ 0 →
      Fits (newChunkSize + (multiple - newChunkSize.tmod multiple))) :
    newChunkSize ≤ roundUp multiple newChunkSize := by
  unfold roundUp
  dsimp only
  split_ifs with hzero hmodulus
  · rw [(hfits hzero hmodulus).int64]
    have hlt : newChunkSize.tmod multiple < multiple :=
      Int.tmod_lt_of_pos newChunkSize (by omega)
    omega
  · exact le_refl _
  · exact le_refl _

theorem dvd_roundUp {multiple newChunkSize : ℤ} (hmultiple : multiple ≠ 0)
    (hfits : newChunkSize.tmod multiple ≠ 0 →
      Fits (newChunkSize + (multiple - newChunkSize.tmod multiple))) :
    multiple ∣ roundUp multiple newChunkSize := by
  unfold roundUp
  rw [if_pos hmultiple]
  dsimp only
  split_ifs with hmodulus
  · rw [(hfits hmodulus).int64]
    have hquotient := Int.mul_tdiv_add_tmod newChunkSize multiple
    refine ⟨newChunkSize.tdiv multiple + 1, ?_⟩
    rw [Int.mul_add, Int.mul_one]
    omega
  · have hzero : newChunkSize.tmod multiple = 0 := by
      omega
    exact Int.dvd_of_tmod_eq_zero hzero

def roundedSize (limits : ChunkLimits) (call : ChunkCall) : ℤ :=
  roundUp limits.multiple
    (limits.budgetedSize call (limits.measuredSize call))

theorem calculateNextChunkSize_eq (hmax : limits.maxChunkSize = 0)
    (hremaining : 0 < call.remaining) :
    limits.calculateNextChunkSize call =
      min (limits.roundedSize call) call.remaining := by
  unfold calculateNextChunkSize roundedSize
  rw [if_neg (by omega), min_def]
  dsimp only
  have hnone (size : ℤ) :
      ¬(limits.maxChunkSize ≠ 0 ∧ size > limits.maxChunkSize) := by
    omega
  rw [if_neg (hnone _)]
  split_ifs <;> omega

theorem calculateNextChunkSize_pos (hmin : 0 < limits.minChunkSize)
    (hmultiple : 0 ≤ limits.multiple) (hmax : limits.maxChunkSize = 0)
    (hremaining : 0 < call.remaining) (hproducts : limits.ProductsFit call)
    (hsum : limits.SumFits call) :
    0 < limits.calculateNextChunkSize call := by
  have hmeasured := limits.minChunkSize_le_measuredSize call
  have hbudgeted : 0 < limits.budgetedSize call (limits.measuredSize call) :=
    budgetedSize_pos (by omega) hremaining hproducts.2
  have hrounded : limits.budgetedSize call (limits.measuredSize call) ≤
      limits.roundedSize call := le_roundUp hmultiple hsum
  rw [calculateNextChunkSize_eq hmax hremaining]
  omega

theorem calculateNextChunkSize_le (hmax : limits.maxChunkSize = 0)
    (hremaining : 0 < call.remaining) :
    limits.calculateNextChunkSize call ≤ call.remaining := by
  rw [calculateNextChunkSize_eq hmax hremaining]
  exact min_le_right _ _

theorem calculateNextChunkSize_last (hmultiple : 0 ≤ limits.multiple)
    (hparts : limits.maxPartCount ≠ 0) (hmax : limits.maxChunkSize = 0)
    (hremaining : 0 < call.remaining)
    (hlast : limits.maxPartCount - call.partCount = 1)
    (hproducts : limits.ProductsFit call) (hsum : limits.SumFits call) :
    limits.calculateNextChunkSize call = call.remaining := by
  have hbudgeted :=
    remaining_le_budgetedSize hparts hlast (hproducts.2 hparts)
  have hrounded : limits.budgetedSize call (limits.measuredSize call) ≤
      limits.roundedSize call := le_roundUp hmultiple hsum
  rw [calculateNextChunkSize_eq hmax hremaining]
  omega

theorem dvd_calculateNextChunkSize (hmultiple : limits.multiple ≠ 0)
    (hmax : limits.maxChunkSize = 0) (hremaining : 0 < call.remaining)
    (hsum : limits.SumFits call)
    (hmore : limits.calculateNextChunkSize call < call.remaining) :
    limits.multiple ∣ limits.calculateNextChunkSize call := by
  have hrounded : limits.multiple ∣ limits.roundedSize call :=
    dvd_roundUp hmultiple (hsum hmultiple)
  rw [calculateNextChunkSize_eq hmax hremaining] at hmore ⊢
  rw [min_eq_left (by omega)]
  exact hrounded

/-! ## The whole file -/

/-- What the chunks of a file have in common: they are positive, no larger
than the remainder, together as large as the file and at most `room` many,
and all but the last are multiples. -/
structure Covers (limits : ChunkLimits) (calls : List ChunkCall)
    (remaining room : ℤ) : Prop where
  bounds : ∀ call ∈ calls, 0 < limits.calculateNextChunkSize call ∧
    limits.calculateNextChunkSize call ≤ call.remaining
  sum : (calls.map limits.calculateNextChunkSize).sum = remaining
  length : (calls.length : ℤ) ≤ room
  multiples : limits.multiple ≠ 0 →
    ∀ chunk ∈ (calls.map limits.calculateNextChunkSize).dropLast,
      limits.multiple ∣ chunk

theorem Covers.nil {room : ℤ} (hroom : 0 ≤ room) :
    limits.Covers [] 0 room := by
  constructor
  · simp
  · rfl
  · simpa using hroom
  · simp

theorem Covers.cons {calls : List ChunkCall} {room : ℤ}
    (hbounds : 0 < limits.calculateNextChunkSize call ∧
      limits.calculateNextChunkSize call ≤ call.remaining)
    (hmultiple : limits.multiple ≠ 0 →
      limits.calculateNextChunkSize call < call.remaining →
        limits.multiple ∣ limits.calculateNextChunkSize call)
    (hcovers : limits.Covers calls
      (call.remaining - limits.calculateNextChunkSize call) (room - 1)) :
    limits.Covers (call :: calls) call.remaining room := by
  constructor
  · intro other hother
    rcases List.mem_cons.mp hother with rfl | hrest
    · exact hbounds
    · exact hcovers.bounds other hrest
  · rw [List.map_cons, List.sum_cons, hcovers.sum]
    omega
  · have hlength := hcovers.length
    rw [List.length_cons]
    omega
  · intro hzero chunk hchunk
    cases hcalls : calls with
    | nil =>
        rw [hcalls] at hchunk
        simp at hchunk
    | cons next rest =>
        have hsum := hcovers.sum
        rw [hcalls] at hchunk hsum
        rw [List.map_cons, List.map_cons, List.dropLast_cons_cons,
          ← List.map_cons] at hchunk
        rcases List.mem_cons.mp hchunk with rfl | hrest
        · apply hmultiple hzero
          have hnext : 0 < limits.calculateNextChunkSize next := by
            apply (hcovers.bounds next _).1
            rw [hcalls]
            exact List.mem_cons_self
          have hothers :
              0 ≤ (rest.map limits.calculateNextChunkSize).sum := by
            apply List.sum_nonneg
            intro size hsize
            rcases List.mem_map.mp hsize with ⟨other, hother, rfl⟩
            apply (hcovers.bounds other _).1.le
            rw [hcalls]
            exact List.mem_cons_of_mem next hother
          rw [List.map_cons, List.sum_cons] at hsum
          omega
        · rw [← hcalls] at hrest
          exact hcovers.multiples hzero chunk hrest

/-- Induction on the durations: a part is left as long as something remains,
and the last part takes all of it. -/
theorem calls_covers (hmin : 0 < limits.minChunkSize)
    (hmultiple : 0 ≤ limits.multiple) (hparts : limits.maxPartCount ≠ 0)
    (hmax : limits.maxChunkSize = 0) (durations : List ℤ)
    (remaining lastChunkSize partCount : ℤ) (hremaining : 0 ≤ remaining)
    (hcount : partCount ≤ limits.maxPartCount)
    (hleft : 0 < remaining → partCount < limits.maxPartCount)
    (henough : limits.maxPartCount - partCount ≤ durations.length)
    (hfits : ∀ call ∈
      limits.calls durations remaining lastChunkSize partCount,
        limits.ProductsFit call ∧ limits.SumFits call) :
    limits.Covers (limits.calls durations remaining lastChunkSize partCount)
      remaining (limits.maxPartCount - partCount) := by
  induction durations generalizing remaining lastChunkSize partCount with
  | nil =>
      have hzero : remaining = 0 := by
        simp only [List.length_nil, Nat.cast_zero] at henough
        omega
      rw [hzero]
      exact Covers.nil (by omega)
  | cons duration durations ih =>
      unfold calls at hfits ⊢
      by_cases hdone : remaining ≤ 0
      · have hzero : remaining = 0 := by
          omega
        rw [if_pos hdone, hzero]
        exact Covers.nil (by omega)
      · rw [if_neg hdone] at hfits ⊢
        dsimp only at hfits ⊢
        have hpositive : 0 < remaining := by
          omega
        have hroom := hleft hpositive
        rcases hfits _ List.mem_cons_self with ⟨hproducts, hsum⟩
        have hchunk := calculateNextChunkSize_pos hmin hmultiple hmax
          hpositive hproducts hsum
        have hle : limits.calculateNextChunkSize
            ⟨remaining, lastChunkSize, duration, partCount⟩ ≤ remaining :=
          calculateNextChunkSize_le hmax hpositive
        have hlast := fun hone => calculateNextChunkSize_last hmultiple hparts
          hmax hpositive hone hproducts hsum
        dsimp only at hlast
        apply Covers.cons ⟨hchunk, hle⟩
        · intro hzero hmore
          exact dvd_calculateNextChunkSize hzero hmax hpositive hsum hmore
        · have hcovers := ih
            (remaining - limits.calculateNextChunkSize
              ⟨remaining, lastChunkSize, duration, partCount⟩)
            (limits.calculateNextChunkSize
              ⟨remaining, lastChunkSize, duration, partCount⟩)
            (partCount + 1) (by omega) (by omega) (by omega)
            (by
              rw [List.length_cons, Nat.cast_add, Nat.cast_one] at henough
              omega)
            (fun other hother =>
              hfits other (List.mem_cons_of_mem _ hother))
          rw [show limits.maxPartCount - partCount - 1 =
            limits.maxPartCount - (partCount + 1) by omega]
          exact hcovers

/-- The chunks of a file of `total` bytes. -/
theorem chunks_cover_file (limits : ChunkLimits) (total lastChunkSize : ℤ)
    (durations : List ℤ) (htotal : 0 ≤ total)
    (hmin : 0 < limits.minChunkSize) (hmultiple : 0 ≤ limits.multiple)
    (hparts : 1 ≤ limits.maxPartCount) (hmax : limits.maxChunkSize = 0)
    (henough : limits.maxPartCount ≤ durations.length)
    (hfits : ∀ call ∈ limits.calls durations total lastChunkSize 0,
      limits.ProductsFit call ∧ limits.SumFits call) :
    (∀ call ∈ limits.calls durations total lastChunkSize 0,
      0 < limits.calculateNextChunkSize call ∧
        limits.calculateNextChunkSize call ≤ call.remaining) ∧
    (limits.chunks durations total lastChunkSize 0).sum = total ∧
    ((limits.chunks durations total lastChunkSize 0).length : ℤ) ≤
      limits.maxPartCount ∧
    (limits.multiple ≠ 0 →
      ∀ chunk ∈ (limits.chunks durations total lastChunkSize 0).dropLast,
        limits.multiple ∣ chunk) := by
  have hcovers := calls_covers hmin hmultiple (by omega) hmax durations total
    lastChunkSize 0 htotal (by omega) (by omega) (by omega) hfits
  rw [Int.sub_zero] at hcovers
  have hlength := hcovers.length
  unfold chunks
  rw [List.length_map]
  exact ⟨hcovers.bounds, hcovers.sum, hlength, hcovers.multiples⟩

/-- 200 bytes in at most five parts. -/
theorem chunks_cover_two_hundred_bytes :
    let limits : ChunkLimits := ⟨10, 16, 5, 0⟩
    let durations := [0, 30000, 30000, 30000, 30000]
    limits.chunks durations 200 0 0 = [64, 64, 64, 8] ∧
      (limits.chunks durations 200 0 0).sum = 200 ∧
      ∀ chunk ∈ (limits.chunks durations 200 0 0).dropLast, 16 ∣ chunk := by
  intro limits durations
  have hcover := chunks_cover_file limits 200 0 durations (by decide)
    (by decide) (by decide) (by decide) rfl (by decide) (by decide +kernel)
  exact ⟨by decide +kernel, hcover.2.1, hcover.2.2.2 (by decide)⟩

/-- Without a multiple the chunks are no multiples of it, and a sum that is
too large makes a chunk negative although the products fit. -/
theorem chunks_without_multiple_and_of_large_sum :
    let noMultiple : ChunkLimits := ⟨1, 0, 2, 0⟩
    let largeSum : ChunkLimits := ⟨2 ^ 63 - 1, 2, 1, 0⟩
    (∀ call ∈ noMultiple.calls [0, 0] 2 0 0, noMultiple.ProductsFit call) ∧
      noMultiple.chunks [0, 0] 2 0 0 = [1, 1] ∧
      ¬noMultiple.multiple ∣ 1 ∧
      (∀ call ∈ largeSum.calls [0] (2 ^ 63 - 1) 0 0,
        largeSum.ProductsFit call) ∧
      largeSum.chunks [0] (2 ^ 63 - 1) 0 0 = [-2 ^ 63] := by
  decide +kernel

end ChunkLimits

end TabFtp
