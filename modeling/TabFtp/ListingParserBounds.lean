import TabFtp.ListingParser

/-!
# A line is parsed within its bounds

Every format keeps the line in order, also when it gives up, so the next one
may start on the tokens that the others have found.  No line, on no server,
makes an access out of range.
-/

namespace TabFtp

open CheckedAttempts Attempt

/-- The name of an entry is empty only if all of its field has been cut off. -/
def Recognition.Sound (lib : ListingLibrary) (found : Recognition) : Prop :=
  ∀ named, found = .named named → named.Sound lib

variable {env : FormatEnv} {text : WString}

theorem matched_spec {format : Parse Named}
    (hformat : Spec (OnLine text) format (Named.Sound env.lib)) :
    Spec (OnLine text) (matched format) (Recognition.Sound env.lib) := by
  apply Spec.bind hformat
  intro named hnamed
  apply Spec.pure
  intro other hother
  rw [← Recognition.named.inj hother]
  exact hnamed

theorem mlsdMatched_spec (env : FormatEnv) :
    Spec (OnLine text) (mlsdMatched env) (Recognition.Sound env.lib) := by
  apply Spec.bind (parseAsMlsd_spec env)
  intro found hfound
  cases found with
  | none =>
      apply Spec.pure
      intro named hnamed
      cases hnamed
  | some named =>
      apply Spec.pure
      intro other hother
      rw [← Recognition.named.inj hother]
      exact hfound named rfl

theorem serverFormats_spec (hlib : env.lib.SetsDates) (serverType : ServerType) :
    ∀ format ∈ serverFormats env serverType,
      Spec (OnLine text) format (Recognition.Sound env.lib) := by
  intro format hmem
  cases serverType <;>
    simp only [serverFormats, List.mem_singleton, List.not_mem_nil] at hmem
  · rw [hmem]
    exact matched_spec (parseAsZvm_spec hlib)
  · rw [hmem]
    exact matched_spec (parseAsHPNonstop_spec hlib)

theorem mvsFormats_spec (env : FormatEnv) (serverType : ServerType) :
    ∀ format ∈ mvsFormats env serverType,
      Spec (OnLine text) format (Recognition.Sound env.lib) := by
  intro format hmem
  cases serverType <;>
    simp only [mvsFormats, List.mem_cons, List.not_mem_nil, or_false] at hmem
  rcases hmem with rfl | rfl | rfl
  · exact matched_spec (parseAsIbmMvsMigrated_spec env)
  · exact matched_spec parseAsIbmMvsPds2_spec
  · exact matched_spec (parseAsIbmMvsTape_spec env)

theorem formats_spec (hlib : env.lib.SetsDates) (serverType : ServerType) :
    ∀ format ∈ formats env serverType,
      Spec (OnLine text) format (Recognition.Sound env.lib) := by
  intro format hmem
  rcases List.mem_append.mp hmem with hmem | hlast
  · rcases List.mem_append.mp hmem with hmem | hmvs
    · rcases List.mem_append.mp hmem with hserver | hmem
      · exact serverFormats_spec hlib serverType format hserver
      · simp only [List.mem_cons, List.not_mem_nil, or_false] at hmem
        rcases hmem with rfl | rfl | rfl | rfl | rfl | rfl | rfl | rfl | rfl |
          rfl | rfl
        · exact mlsdMatched_spec env
        · exact matched_spec (parseAsUnix_spec hlib true)
        · exact matched_spec (parseAsDos_spec hlib)
        · exact matched_spec (parseAsEplf_spec env)
        · exact matched_spec (parseAsVms_spec hlib)
        · exact matched_spec (parseOther_spec hlib)
        · exact matched_spec (parseAsIbm_spec hlib)
        · exact matched_spec (parseAsWfFtp_spec hlib)
        · exact matched_spec (parseAsIbmMvs_spec hlib)
        · exact matched_spec (parseAsIbmMvsPds_spec hlib)
        · exact matched_spec (parseAsOS9_spec hlib)
    · exact mvsFormats_spec env serverType format hmvs
  · rw [List.mem_singleton.mp hlast]
    exact matched_spec (parseAsUnix_spec hlib false)

theorem recognize_spec (hlib : env.lib.SetsDates) (serverType : ServerType) :
    Spec (OnLine text) (recognize env serverType)
      (Recognition.Sound env.lib) :=
  Spec.firstOf (formats_spec hlib serverType)

theorem keepLine_success (config : ParserConfig) (core : ListingCore)
    (concatenated : Bool) (state : ParseState) (hstate : OnLine text state) :
    ∃ kept after, core.keepLine config concatenated state =
      .success kept after ∧ OnLine text after := by
  unfold ListingCore.keepLine
  cases concatenated with
  | true => exact ⟨_, _, rfl, hstate⟩
  | false =>
      rcases getEndToken_success 0 state hstate
        with ⟨token, after, hrun, hafter, _⟩
      simp only [Bool.false_eq_true, if_false, Attempt.bind_of_success hrun]
      split
      · exact ⟨_, _, rfl, hafter⟩
      · exact ⟨_, _, rfl, hafter⟩

/-- No format reads beyond the line. -/
theorem parseLine_line (config : ParserConfig) (hlib : config.lib.SetsDates)
    (core : ListingCore) (line : Line) (hline : LineInv text line)
    (concatenated : Bool) (override : Option Override) :
    ∃ kept after found, parseLine config core line concatenated override =
      some (kept, after, found) ∧ LineInv text after := by
  have hspec := @recognize_spec (config.formatEnv core) text hlib
    config.server.type ⟨line, emptyEntry⟩ hline
  unfold parseLine
  cases hrun : recognize (config.formatEnv core) config.server.type
      ⟨line, emptyEntry⟩ with
  | fault =>
      rw [hrun] at hspec
      exact hspec.elim
  | success found state =>
      rw [hrun] at hspec
      cases found with
      | skip => exact ⟨_, _, _, rfl, hspec.1⟩
      | named named => exact ⟨_, _, _, rfl, hspec.1⟩
  | mismatch state =>
      rw [hrun] at hspec
      rcases keepLine_success config core concatenated state hspec
        with ⟨kept, after, hkeep, hafter⟩
      simp only [hkeep]
      split
      · exact ⟨_, _, _, rfl, hafter⟩
      · exact ⟨_, _, _, rfl, hafter⟩

/-- No line makes an access out of range, whatever the server is and whatever
has been parsed before. -/
theorem parseLine_inBounds (config : ParserConfig)
    (hlib : config.lib.SetsDates) (core : ListingCore) (text : WString)
    (trailingWhitespace : Option ℕ) (concatenated : Bool)
    (override : Option Override) :
    parseLine config core (Line.make text trailingWhitespace) concatenated
      override ≠ none := by
  rcases parseLine_line config hlib core _
      (Line.make_inv text trailingWhitespace) concatenated override
    with ⟨kept, after, found, hrun, _⟩
  rw [hrun]
  exact Option.some_ne_none _

/-! ## A library with the Gregorian calendar -/

def daysFromCivil (year month day : ℤ) : ℤ :=
  let y := if month ≤ 2 then year - 1 else year
  let yoe := y - y / 400 * 400
  let doy := (153 * (if 2 < month then month - 3 else month + 9) + 2) / 5 +
    day - 1
  y / 400 * 146097 + (yoe * 365 + yoe / 4 - yoe / 100 + doy) - 719468

def civilFromDays (days : ℤ) : Tm :=
  let z := days + 719468
  let doe := z - z / 146097 * 146097
  let yoe := (doe - doe / 1460 + doe / 36524 - doe / 146096) / 365
  let doy := doe - (365 * yoe + yoe / 4 - yoe / 100)
  let mp := (5 * doy + 2) / 153
  let mon := if mp < 10 then mp + 2 else mp - 10
  let year := yoe + z / 146097 * 400 + if mon ≤ 1 then 1 else 0
  ⟨year - 1900, mon, doy - (153 * mp + 2) / 5 + 1⟩

theorem civilFromDays_mday (days : ℤ) : 1 ≤ (civilFromDays days).mday := by
  simp only [civilFromDays]
  omega

def decimalValue (text : WString) : ℤ :=
  text.foldl (fun number char => number * 10 + digitValue char) 0

def civilLibrary : ListingLibrary where
  lowerAscii := List.map Char.toLower
  toIntegral text value :=
    if text ≠ [] ∧ text.all Char.isDigit then decimalValue text else value
  setTime _ year month day hour minute :=
    if 1 ≤ month ∧ month ≤ 12 ∧ 1 ≤ day ∧ day ≤ 31 then
      (some ⟨daysFromCivil year month day * 86400000 +
        max hour 0 * 3600000 + max minute 0 * 60000,
        if hour < 0 then 0 else 2⟩, true)
    else (none, false)
  imbueTime time hour minute second :=
    match time with
    | none => (none, false)
    | some time =>
        (some ⟨time.value + hour * 3600000 + minute * 60000 +
          max second 0 * 1000, if second < 0 then 2 else 3⟩, true)
  getTm time :=
    match time with
    | none => civilFromDays 0
    | some time => civilFromDays (time.value / 86400000)
  now := some ⟨0, 3⟩
  ofText text :=
    if text.length = 14 ∧ text.all Char.isDigit then
      some ⟨daysFromCivil (decimalValue (text.take 4))
          (decimalValue ((text.drop 4).take 2))
          (decimalValue ((text.drop 6).take 2)) * 86400000 +
        decimalValue ((text.drop 8).take 2) * 3600000 +
        decimalValue ((text.drop 10).take 2) * 60000 +
        decimalValue (text.drop 12) * 1000, 3⟩
    else none
  ofSeconds seconds := some ⟨seconds * 1000, 3⟩
  shift time span :=
    time.map fun time => { time with value := time.value + span }

theorem civilLibrary_setsDates : civilLibrary.SetsDates := by
  intro time year month day hour minute _
  cases (civilLibrary.setTime time year month day hour minute).1 with
  | none => exact civilFromDays_mday 0
  | some time => exact civilFromDays_mday _

def civilConfig (type : ServerType) : ParserConfig where
  lib := civilLibrary
  convToLocal bytes := bytes.map fun byte => Char.ofNat byte.toNat
  server := ⟨.ftp, type, "host".toList, [], 21, 0, .default, false, .auto, [],
    [], []⟩
  timezoneOffset := 0
  limit := 1000

/-- The line ends where a date begins. -/
theorem parseLine_inBounds_unfinished :
    parseLine (civilConfig .unix) .initial
      (Line.make "drwxr-xr-x 2 ftp ftp 4096 Jan".toList none) false none ≠
        none :=
  parseLine_inBounds (civilConfig .unix) civilLibrary_setsDates .initial
    "drwxr-xr-x 2 ftp ftp 4096 Jan".toList none false none

end TabFtp
