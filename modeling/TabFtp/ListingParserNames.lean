import TabFtp.ListingParserBounds

/-!
# The names that the parser delivers

The filter for dot names stands in front of the step that trims versions, and
the list of names only does not pass it at all; no step filters empty names.
A parser that meets none of these delivers names that are neither empty nor a
dot name.
-/

namespace TabFtp

open CheckedAttempts Attempt

/-! ## Runs -/

/-- A call to the parser in front of `Parse`. -/
inductive ListingCall
  | addData (data : List UInt8)
  | addLine (line name : WString) (time : Option Datetime)

/-- What the result of `AddData` says is left to the caller. -/
def ListingCall.run (config : ParserConfig) (parser : ListingParser) :
    ListingCall → Option ListingParser
  | .addData data => (parser.addData config data).map Prod.fst
  | .addLine line name time => parser.addLine config line name time

/-- The parser after some calls. -/
def runCalls (config : ParserConfig) :
    List ListingCall → ListingParser → Option ListingParser
  | [], parser => some parser
  | call :: calls, parser =>
      match call.run config parser with
      | none => none
      | some parser => runCalls config calls parser

/-! ## Where a name is lost -/

def isVersionedDot (name : WString) : Bool :=
  match WString.rfind ';' name with
  | none => false
  | some pos => isDotName (name.take pos)

/-- Neither is everything cut off from the field of the name, nor is a dot
name set free by trimming its version. -/
def NameKept (config : ParserConfig) (override : Option Override)
    (named : Named) (entry : DirectoryEntry) : Prop :=
  let entry := Override.apply override { entry with name := named.name }
  (entry.name = named.name → ¬ named.field.CutAway config.lib) ∧
    (config.server.type = .vms ∧ entry.isDir = true →
      isVersionedDot entry.name = false)

def OverrideKept (config : ParserConfig) (override : Option Override)
    (entry : DirectoryEntry) : Prop :=
  config.server.type = .vms ∧ entry.isDir = true →
    isVersionedDot (Override.apply override entry).name = false

def FoundKept (config : ParserConfig) (core : ListingCore)
    (concatenated : Bool) (override : Option Override) :
    Outcome ParseState Recognition → Prop
  | .success (.named named) state =>
      NameKept config override named state.entry
  | .mismatch state =>
      match core.keepLine config concatenated state with
      | .success _ after => OverrideKept config override after.entry
      | _ => True
  | _ => True

/-- A line without an entry puts no dot name on the list of names only. -/
def StoredKept (config : ParserConfig) (core : ListingCore)
    (concatenated : Bool) : Outcome ParseState Recognition → Prop
  | .mismatch state =>
      match core.keepLine config concatenated state with
      | .success kept _ =>
          ∀ name ∈ kept.fileList, name ∈ core.fileList ∨ isDotName name = false
      | _ => True
  | _ => True

def LineKept (config : ParserConfig) (core : ListingCore) (line : Line)
    (concatenated : Bool) (override : Option Override) : Prop :=
  let found := recognize (config.formatEnv core) config.server.type
    ⟨line, emptyEntry⟩
  (core.entries.length < config.limit →
      FoundKept config core concatenated override found) ∧
    StoredKept config core concatenated found

def JoinedKept (config : ParserConfig) :
    Option (ListingCore × Line × Bool) → Prop
  | some (core, line, false) =>
      match core.prevLine with
      | none => True
      | some prevLine =>
          LineKept config core (prevLine.concat line) true none
  | _ => True

def HandledKept (config : ParserConfig) (core : ListingCore) (line : Line) :
    Prop :=
  LineKept config core line false none ∧
    JoinedKept config (parseLine config core line false none)

def LinesKept (config : ParserConfig) (isPartial : Bool) :
    ℕ → ListingParser → Prop
  | 0, _ => True
  | fuel + 1, parser =>
      match getLine config isPartial (parser.size + 1) parser with
      | (.line text, parser) =>
          HandledKept config parser.core (Line.make text none) ∧
            match handleLine config parser.core (Line.make text none) with
            | none => True
            | some core =>
                LinesKept config isPartial fuel { parser with core := core }
      | _ => True

def DataKept (config : ParserConfig) (isPartial : Bool)
    (parser : ListingParser) : Prop :=
  LinesKept config isPartial (parser.deduceEncoding.size + 1)
    parser.deduceEncoding

def ListingCall.Kept (config : ParserConfig) (parser : ListingParser) :
    ListingCall → Prop
  | .addData data =>
      512 ≤ (parser.receive data).totalData →
        DataKept config true (parser.receive data)
  | .addLine line name time =>
      LineKept config parser.core (Line.make line none) true
        (some ⟨name, time⟩)

def CallsKept (config : ParserConfig) :
    List ListingCall → ListingParser → Prop
  | [], _ => True
  | call :: calls, parser =>
      call.Kept config parser ∧
        match call.run config parser with
        | none => True
        | some parser => CallsKept config calls parser

section

variable (config : ParserConfig)

instance (override : Option Override) (named : Named)
    (entry : DirectoryEntry) :
    Decidable (NameKept config override named entry) := by
  unfold NameKept
  infer_instance

instance (override : Option Override) (entry : DirectoryEntry) :
    Decidable (OverrideKept config override entry) := by
  unfold OverrideKept
  infer_instance

instance (core : ListingCore) (concatenated : Bool)
    (override : Option Override) (found : Outcome ParseState Recognition) :
    Decidable (FoundKept config core concatenated override found) := by
  unfold FoundKept
  split
  · infer_instance
  · split <;> infer_instance
  · infer_instance

instance (core : ListingCore) (concatenated : Bool)
    (found : Outcome ParseState Recognition) :
    Decidable (StoredKept config core concatenated found) := by
  unfold StoredKept
  split
  · split <;> infer_instance
  · infer_instance

instance (core : ListingCore) (line : Line) (concatenated : Bool)
    (override : Option Override) :
    Decidable (LineKept config core line concatenated override) := by
  unfold LineKept
  infer_instance

instance (result : Option (ListingCore × Line × Bool)) :
    Decidable (JoinedKept config result) := by
  unfold JoinedKept
  split
  · split <;> infer_instance
  · infer_instance

instance (core : ListingCore) (line : Line) :
    Decidable (HandledKept config core line) := by
  unfold HandledKept
  infer_instance

instance decidableLinesKept (isPartial : Bool) (fuel : ℕ)
    (parser : ListingParser) :
    Decidable (LinesKept config isPartial fuel parser) :=
  match fuel with
  | 0 => .isTrue trivial
  | fuel + 1 => by
      have := decidableLinesKept isPartial fuel
      unfold LinesKept
      split
      · have : ∀ found : Option ListingCore, ∀ parser : ListingParser,
            Decidable (match found with
              | none => True
              | some core =>
                  LinesKept config isPartial fuel
                    { parser with core := core }) := by
          intro found parser
          cases found <;> infer_instance
        infer_instance
      · infer_instance

instance (isPartial : Bool) (parser : ListingParser) :
    Decidable (DataKept config isPartial parser) := by
  unfold DataKept
  infer_instance

end

/-! ## The invariant -/

def RealName (name : WString) : Prop :=
  name ≠ [] ∧ name ≠ ".".toList ∧ name ≠ "..".toList

theorem realName_iff {name : WString} :
    RealName name ↔ name ≠ [] ∧ isDotName name = false := by
  unfold RealName isDotName
  rw [Bool.or_eq_false_iff, beq_eq_false_iff_ne, beq_eq_false_iff_ne]

structure RealNames (core : ListingCore) : Prop where
  entries : ∀ entry ∈ core.entries, RealName entry.name
  fileList : ∀ name ∈ core.fileList, RealName name

theorem RealNames.initial : RealNames .initial := by
  constructor
  · intro entry hmem
    cases hmem
  · intro name hmem
    cases hmem

variable {config : ParserConfig} {core : ListingCore}

theorem RealNames.settle (hcore : RealNames core) : RealNames core.settle := by
  constructor
  · exact hcore.entries
  · intro name hmem
    cases hmem

theorem keepName_cases (core : ListingCore) (name : WString) :
    (core.keepName config name).entries = core.entries ∧
      ∀ other ∈ (core.keepName config name).fileList,
        other ∈ core.fileList ∨ other = name := by
  unfold ListingCore.keepName
  split_ifs
  · refine ⟨rfl, fun other hmem => ?_⟩
    exact (List.mem_append.mp hmem).imp_right List.mem_singleton.mp
  · exact ⟨rfl, fun _ => Or.inl⟩
  · exact ⟨rfl, fun _ => Or.inl⟩

theorem RealNames.appendEntry (hcore : RealNames core)
    {entry : DirectoryEntry}
    (hentry : core.entries.length < config.limit → RealName entry.name) :
    RealNames (core.appendEntry config entry) := by
  unfold ListingCore.appendEntry
  split_ifs with hroom
  · constructor
    · intro other hmem
      rcases List.mem_append.mp hmem with hold | hnew
      · exact hcore.entries other hold
      · rw [List.mem_singleton.mp hnew]
        exact hentry hroom
    · exact hcore.fileList
  · exact ⟨hcore.entries, hcore.fileList⟩

theorem shiftToServer_name (entry : DirectoryEntry) :
    (shiftToServer config entry).name = entry.name := by
  unfold shiftToServer
  split_ifs <;> rfl

theorem trimVersion_real {type : ServerType} {entry : DirectoryEntry}
    (hentry : RealName entry.name)
    (hdot : type = .vms ∧ entry.isDir = true →
      isVersionedDot entry.name = false) :
    RealName (trimVersion type entry).name := by
  unfold trimVersion
  by_cases hdir : type = .vms ∧ entry.isDir
  · rw [if_pos hdir]
    have hversion := hdot hdir
    unfold isVersionedDot at hversion
    cases hfind : WString.rfind ';' entry.name with
    | none => exact hentry
    | some pos =>
        rw [hfind] at hversion
        simp only
        by_cases hpos : 0 < pos
        · rw [if_pos hpos]
          apply realName_iff.mpr
          refine ⟨?_, hversion⟩
          intro hempty
          rcases List.take_eq_nil_iff.mp hempty with hzero | hnil
          · omega
          · exact hentry.1 hnil
        · rw [if_neg hpos]
          exact hentry
  · rw [if_neg hdir]
    exact hentry

theorem RealNames.addEntry (hcore : RealNames core)
    {override : Option Override} {entry : DirectoryEntry}
    (hname : core.entries.length < config.limit →
      (Override.apply override entry).name ≠ [])
    (hdot : core.entries.length < config.limit →
      config.server.type = .vms ∧
        (Override.apply override entry).isDir = true →
      isVersionedDot (Override.apply override entry).name = false) :
    RealNames (TabFtp.addEntry config core override entry) := by
  unfold TabFtp.addEntry
  simp only
  by_cases hdots : isDotName (Override.apply override entry).name
  · rw [if_pos hdots]
    exact hcore.settle
  · rw [if_neg hdots]
    apply hcore.settle.appendEntry
    intro hroom
    rw [shiftToServer_name]
    apply trimVersion_real
    · exact realName_iff.mpr ⟨hname hroom, Bool.eq_false_of_not_eq_true hdots⟩
    · exact hdot hroom

theorem apply_isDir (override : Option Override) (entry : DirectoryEntry) :
    (Override.apply override entry).isDir = entry.isDir := by
  cases override <;> rfl

theorem RealNames.keepLine (hcore : RealNames core) {concatenated : Bool}
    {state after : ParseState} {kept : ListingCore}
    (hkeep : core.keepLine config concatenated state = .success kept after)
    (hstored : ∀ name ∈ kept.fileList,
      name ∈ core.fileList ∨ isDotName name = false) :
    RealNames kept ∧ kept.entries = core.entries := by
  unfold ListingCore.keepLine at hkeep
  cases concatenated with
  | true =>
      cases hkeep
      exact ⟨⟨hcore.entries, hcore.fileList⟩, rfl⟩
  | false =>
      simp only [Bool.false_eq_true, if_false] at hkeep
      cases hrun : getEndToken 0 state with
      | fault =>
          rw [Attempt.bind_of_fault hrun] at hkeep
          cases hkeep
      | mismatch _ =>
          rw [Attempt.bind_of_mismatch hrun] at hkeep
          cases hkeep
      | success token between =>
          rw [Attempt.bind_of_success hrun] at hkeep
          by_cases hclear :
              token.text.isEmpty || (token.find [' '] 0).isSome
          · rw [if_pos hclear] at hkeep
            cases hkeep
            exact ⟨hcore.settle, rfl⟩
          · rw [if_neg hclear] at hkeep
            cases hkeep
            have hne : token.text ≠ [] := by
              intro hempty
              apply hclear
              rw [hempty]
              rfl
            have hkeptName := @keepName_cases config
              { core with maybeMultilineVms := (token.find [';'] 0).isSome }
              token.text
            refine ⟨⟨?_, ?_⟩, hkeptName.1⟩
            · rw [hkeptName.1]
              exact hcore.entries
            · intro name hmem
              rcases hkeptName.2 name hmem with hold | rfl
              · exact hcore.fileList name hold
              · rcases hstored _ hmem with hold | hdot
                · exact hcore.fileList _ hold
                · exact realName_iff.mpr ⟨hne, hdot⟩

theorem parseLine_real (hlib : config.lib.SetsDates)
    (hcore : RealNames core) {text : WString} {line : Line}
    (hline : LineInv text line) {concatenated : Bool}
    {override : Option Override}
    (hkept : LineKept config core line concatenated override)
    {kept : ListingCore} {after : Line} {found : Bool}
    (hparse : parseLine config core line concatenated override =
      some (kept, after, found)) :
    RealNames kept := by
  have hspec := @recognize_spec (config.formatEnv core) text hlib
    config.server.type ⟨line, emptyEntry⟩ hline
  unfold parseLine at hparse
  unfold LineKept at hkept
  cases hrun : recognize (config.formatEnv core) config.server.type
      ⟨line, emptyEntry⟩ with
  | fault =>
      rw [hrun] at hparse
      cases hparse
  | success recognition state =>
      rw [hrun] at hparse hspec hkept
      cases recognition with
      | skip =>
          cases hparse
          exact hcore.settle
      | named named =>
          cases hparse
          apply hcore.addEntry
          · intro hroom hempty
            have hname := (hkept.1 hroom).1
            by_cases hsame : (Override.apply override
                { state.entry with name := named.name }).name = named.name
            · apply hname hsame
              exact hspec.2 named rfl (hsame ▸ hempty)
            · -- another name is the one of the override, which is not empty
              cases override with
              | none => exact hsame rfl
              | some override =>
                  simp only [Override.apply] at hempty hsame
                  by_cases hover : override.name.isEmpty
                  · rw [if_pos hover] at hsame
                    exact hsame rfl
                  · rw [if_neg hover] at hempty
                    rw [hempty] at hover
                    exact hover rfl
          · intro hroom
            exact (hkept.1 hroom).2
  | mismatch state =>
      rw [hrun] at hparse hkept
      simp only at hparse
      cases hkeep : core.keepLine config concatenated state with
      | fault =>
          rw [hkeep] at hparse
          cases hparse
      | mismatch _ =>
          rw [hkeep] at hparse
          cases hparse
      | success between last =>
          rw [hkeep] at hparse
          simp only at hparse
          have hstored := hkept.2
          simp only [StoredKept, hkeep] at hstored
          rcases hcore.keepLine hkeep hstored with ⟨hbetween, hentries⟩
          by_cases hover : override.any fun override => !override.name.isEmpty
          · rw [if_pos hover] at hparse
            cases hparse
            apply hbetween.addEntry
            · intro _ hempty
              cases override with
              | none => cases hover
              | some override =>
                  simp only [Option.any_some, Bool.not_eq_true'] at hover
                  simp only [Override.apply, hover] at hempty
                  rw [if_neg Bool.false_ne_true] at hempty
                  rw [hempty] at hover
                  cases hover
            · intro hroom hdir
              rw [hentries] at hroom
              rw [apply_isDir] at hdir
              have hfound := hkept.1 hroom
              simp only [FoundKept, hkeep] at hfound
              exact hfound hdir
          · rw [if_neg hover] at hparse
            cases hparse
            exact hbetween

theorem handleLine_real (hlib : config.lib.SetsDates)
    (hcore : RealNames core) {text : WString}
    (hkept : HandledKept config core (Line.make text none))
    {kept : ListingCore}
    (hhandle : handleLine config core (Line.make text none) = some kept) :
    RealNames kept := by
  unfold handleLine at hhandle
  have hline := Line.make_inv text none
  cases hparse : parseLine config core (Line.make text none) false none with
  | none =>
      rw [hparse] at hhandle
      cases hhandle
  | some result =>
      obtain ⟨between, after, found⟩ := result
      have hbetween := parseLine_real hlib hcore hline hkept.1 hparse
      rw [hparse] at hhandle
      cases found with
      | true =>
          cases hhandle
          exact ⟨hbetween.entries, hbetween.fileList⟩
      | false =>
          simp only at hhandle
          cases hprev : between.prevLine with
          | none =>
              rw [hprev] at hhandle
              cases hhandle
              exact ⟨hbetween.entries, hbetween.fileList⟩
          | some prevLine =>
              rw [hprev] at hhandle
              simp only at hhandle
              have hjoined := hkept.2
              simp only [hparse, JoinedKept, hprev] at hjoined
              have hconcat := Line.make_inv
                (prevLine.text ++ [' '] ++ after.text) after.trailingWhitespace
              cases hsecond :
                  parseLine config between (prevLine.concat after) true none with
              | none =>
                  rw [hsecond] at hhandle
                  cases hhandle
              | some result =>
                  obtain ⟨last, _, found⟩ := result
                  have hlast :=
                    parseLine_real hlib hbetween hconcat hjoined hsecond
                  rw [hsecond] at hhandle
                  cases found <;> cases hhandle <;>
                    exact ⟨hlast.entries, hlast.fileList⟩

theorem getLine_core (breakAtEnd : Bool) (fuel : ℕ) (parser : ListingParser) :
    (getLine config breakAtEnd fuel parser).2.core = parser.core := by
  induction fuel generalizing parser with
  | zero => rfl
  | succ fuel ih =>
      unfold getLine
      by_cases hempty : parser.dataList.isEmpty
      · rw [if_pos hempty]
      · rw [if_neg hempty]
        cases skipToLine parser.dataList parser.currentOffset with
        | none => rfl
        | some found =>
            simp only
            split_ifs
            · rfl
            · rfl
            · exact ih _
            · rfl

theorem parseLines_real (hlib : config.lib.SetsDates) (isPartial : Bool)
    {fuel : ℕ} {parser after : ListingParser} {ok : Bool}
    (hcore : RealNames parser.core)
    (hkept : LinesKept config isPartial fuel parser)
    (hparse : parseLines config isPartial fuel parser = some (after, ok)) :
    RealNames after.core := by
  induction fuel generalizing parser with
  | zero => cases hparse
  | succ fuel ih =>
      unfold parseLines at hparse
      unfold LinesKept at hkept
      have hsame := @getLine_core config isPartial (parser.size + 1) parser
      cases hget : getLine config isPartial (parser.size + 1) parser with
      | mk got between =>
          rw [hget] at hparse hkept hsame
          cases got with
          | nothing =>
              cases hparse
              exact hsame ▸ hcore
          | error =>
              cases hparse
              exact hsame ▸ hcore
          | line text =>
              simp only at hparse hkept
              have hmore := hkept.2
              cases hhandle : handleLine config between.core
                  (Line.make text none) with
              | none =>
                  rw [hhandle] at hparse
                  cases hparse
              | some kept =>
                  rw [hhandle] at hparse hmore
                  apply ih _ hmore hparse
                  exact handleLine_real hlib (hsame ▸ hcore) hkept.1 hhandle

theorem deduceEncoding_core (parser : ListingParser) :
    parser.deduceEncoding.core = parser.core := by
  unfold ListingParser.deduceEncoding
  split_ifs <;> rfl

/-- Real names stay real while the data meets the condition. -/
theorem parseData_real (hlib : config.lib.SetsDates) (isPartial : Bool)
    {parser after : ListingParser} {ok : Bool} (hcore : RealNames parser.core)
    (hkept : DataKept config isPartial parser)
    (hparse : parser.parseData config isPartial = some (after, ok)) :
    RealNames after.core := by
  apply parseLines_real hlib isPartial _ hkept hparse
  rw [deduceEncoding_core]
  exact hcore

theorem ListingCall.run_real (hlib : config.lib.SetsDates)
    {parser after : ListingParser} (hcore : RealNames parser.core)
    {call : ListingCall} (hkept : call.Kept config parser)
    (hrun : call.run config parser = some after) : RealNames after.core := by
  cases call with
  | addData data =>
      rcases Option.map_eq_some_iff.mp hrun with ⟨result, hadd, rfl⟩
      unfold ListingParser.addData at hadd
      simp only at hadd
      by_cases hwait : (parser.receive data).totalData < 512
      · rw [if_pos hwait] at hadd
        cases hadd
        exact hcore
      · rw [if_neg hwait] at hadd
        have hreceived : RealNames (parser.receive data).core := hcore
        exact parseData_real hlib true hreceived (hkept (not_lt.mp hwait)) hadd
  | addLine line name time =>
      change parser.addLine config line name time = some after at hrun
      unfold ListingParser.addLine at hrun
      cases hparse : parseLine config parser.core (Line.make line none) true
          (some ⟨name, time⟩) with
      | none =>
          rw [hparse] at hrun
          cases hrun
      | some result =>
          rw [hparse] at hrun
          cases hrun
          have hline : LineKept config parser.core (Line.make line none) true
              (some ⟨name, time⟩) := hkept
          exact parseLine_real hlib hcore (Line.make_inv line none) hline hparse

theorem runCalls_real (hlib : config.lib.SetsDates) {calls : List ListingCall}
    {parser after : ListingParser} (hcore : RealNames parser.core)
    (hkept : CallsKept config calls parser)
    (hrun : runCalls config calls parser = some after) :
    RealNames after.core := by
  induction calls generalizing parser with
  | nil =>
      cases hrun
      exact hcore
  | cons call calls ih =>
      unfold runCalls at hrun
      cases hcall : call.run config parser with
      | none =>
          rw [hcall] at hrun
          cases hrun
      | some between =>
          have hmore := hkept.2
          rw [hcall] at hrun hmore
          apply ih _ hmore hrun
          exact ListingCall.run_real hlib hcore hkept.1 hcall

/-- A parser none of whose lines loses a name delivers real names only,
whatever the server, the encoding and the calls are. -/
theorem parse_realNames (config : ParserConfig) (hlib : config.lib.SetsDates)
    (encoding : ListingEncoding) (calls : List ListingCall)
    (parser : ListingParser) (path : ServerPath) (now : ℤ)
    (listing : DirectoryListing)
    (hrun : runCalls config calls (.initial encoding) = some parser)
    (hcalls : CallsKept config calls (.initial encoding))
    (hlast : DataKept config false parser)
    (hparse : parser.parse config path now = some listing) :
    ∀ entry ∈ listing.entries, RealName entry.name := by
  have hcore := runCalls_real hlib RealNames.initial hcalls hrun
  unfold ListingParser.parse at hparse
  simp only at hparse
  cases hdata : parser.parseData config false with
  | none =>
      rw [hdata] at hparse
      cases hparse
  | some result =>
      obtain ⟨after, ok⟩ := result
      have hafter := parseData_real hlib false hcore hlast hdata
      rw [hdata] at hparse
      cases ok with
      | false =>
          cases hparse
          intro entry hmem
          cases hmem
      | true =>
          cases hparse
          intro entry hmem
          rcases List.mem_append.mp hmem with hentry | hname
          · exact hafter.entries entry hentry
          · rcases List.mem_map.mp hname with ⟨name, hlist, rfl⟩
            exact hafter.fileList name hlist

def twoLines : List UInt8 :=
  "+r,\t..\r\n+r,\tx\r\n".toList.map fun char => UInt8.ofNat char.toNat

/-- Of a directory and its parent the directory is listed. -/
theorem parse_realNames_twoLines :
    ∃ listing ∈ ((ListingParser.initial .normal).receive twoLines).parse
        (civilConfig .unix) (.blank .unix) 0,
      listing.entries.map DirectoryEntry.name = [['x']] ∧
        ∀ entry ∈ listing.entries, RealName entry.name := by
  have hnames : (((ListingParser.initial .normal).receive twoLines).parse
      (civilConfig .unix) (.blank .unix) 0).map
        (fun listing => listing.entries.map DirectoryEntry.name) =
          some [['x']] := by
    decide +kernel
  rcases Option.map_eq_some_iff.mp hnames with ⟨listing, hlisting, hentries⟩
  have hrun : runCalls (civilConfig .unix) [.addData twoLines]
      (.initial .normal) =
        some ((ListingParser.initial .normal).receive twoLines) := by
    decide +kernel
  have hcalls : CallsKept (civilConfig .unix) [.addData twoLines]
      (.initial .normal) := by
    constructor
    · intro hmany
      exact absurd hmany (by decide +kernel)
    · split <;> trivial
  have hlast : DataKept (civilConfig .unix) false
      ((ListingParser.initial .normal).receive twoLines) := by
    decide +kernel
  exact ⟨listing, hlisting, hentries,
    parse_realNames (civilConfig .unix) civilLibrary_setsDates .normal
      [.addData twoLines] _ (.blank .unix) 0 listing hrun hcalls hlast
      hlisting⟩

/-- A server that sends the names of its files only may send its parent
directory, too. -/
theorem dotName_delivered :
    ∃ listing ∈ (runCalls (civilConfig .default) [.addData [46, 46, 13, 10]]
        (.initial .normal)).bind fun parser =>
          parser.parse (civilConfig .default) ⟨none, .default⟩ 0,
      ¬ ∀ entry ∈ listing.entries, RealName entry.name := by
  have hnames : ((runCalls (civilConfig .default) [.addData [46, 46, 13, 10]]
        (.initial .normal)).bind fun parser =>
          parser.parse (civilConfig .default) ⟨none, .default⟩ 0).map
      (fun listing => listing.entries.map DirectoryEntry.name) =
        some ["..".toList] := by
    decide +kernel
  rcases Option.map_eq_some_iff.mp hnames with ⟨listing, hlisting, hentries⟩
  refine ⟨listing, hlisting, ?_⟩
  intro hreal
  have hmem : "..".toList ∈ listing.entries.map DirectoryEntry.name := by
    rw [hentries]
    exact List.mem_cons_self
  rcases List.mem_map.mp hmem with ⟨entry, hentry, hname⟩
  exact (hreal entry hentry).2.2 hname

end TabFtp
