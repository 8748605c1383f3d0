import TabFtp.LineFrames
import TabFtp.SftpInputParser

/-!
# Frames from fzsftp

Between two reads the parser is at a position of a stream of frames.  What it
does with a read follows from the frames that the bytes complete there, in
whatever way the stream is cut into reads.
-/

namespace TabFtp

open LineFrames

/-- Every line is accepted: the conversion has a last resort that does not
fail. -/
def sftpFormat : Format SftpEvent UInt8 :=
  ⟨lf, SftpEvent.ofByte, SftpEvent.lines, fun _ _ _ => true⟩

/-- A message as fzsftp writes it. -/
def sftpBytes (frame : Frame SftpEvent UInt8) : List UInt8 :=
  frame.kind.header :: sftpFormat.encodeLines frame.lines

section

variable (lib : LocalText) (server : Server)

/-- The pending event, and `m_useUTF8`, after these lines. -/
def assemble (useUtf8 : Bool) (type : SftpEvent)
    (done : List (List UInt8)) : SftpNotification × Bool :=
  done.zipIdx.foldl
    (fun state entry =>
      let stored :=
        state.1.store lib server state.2 entry.2 (stripCr entry.1)
      (stored.1.getD state.1, stored.2))
    (.start type, useUtf8)

def notifications :
    Bool → List (Frame SftpEvent UInt8) → List SftpNotification × Bool
  | useUtf8, [] => ([], useUtf8)
  | useUtf8, frame :: frames =>
      let first := assemble lib server useUtf8 frame.kind frame.lines
      let later := notifications first.2 frames
      (first.1 :: later.1, later.2)

/-- The parser is at a position, and `rest` is what its buffer holds beyond
it. -/
def AtPosition
    (useUtf8 : Bool) (position : Position SftpEvent UInt8)
    (parser : SftpInputParser) (rest : List UInt8) : Prop :=
  match position with
  | .idle =>
      parser.recvBuffer = rest ∧ parser.searchOffset = 0 ∧
        parser.pending = none ∧ parser.useUtf8 = useUtf8
  | .within type done current =>
      parser.recvBuffer = current ++ rest ∧ lf ∉ current ∧
        parser.searchOffset ≤ current.length ∧
        done.length < type.lines ∧
        parser.pendingLines = type.lines - done.length ∧
        parser.pending = some (assemble lib server useUtf8 type done).1 ∧
        parser.useUtf8 = (assemble lib server useUtf8 type done).2

/-! ## Storing a line -/

theorem convToLocal_ne_nil
    (useUtf8 : Bool) {line : List UInt8} (hline : line.length ≠ 0) :
    (convToLocal lib server useUtf8 line).1.isEmpty = false := by
  have hnonempty : line.isEmpty = false := by
    cases line with
    | nil => exact absurd rfl hline
    | cons => rfl
  unfold convToLocal
  rw [hnonempty, if_neg Bool.false_ne_true]
  dsimp only
  split_ifs with h1 h2 h3 h4 h5 h6 <;> simp_all

theorem converted_of_line (useUtf8 : Bool) (line : List UInt8) :
    ¬ (line.length ≠ 0 ∧
      (convToLocal lib server useUtf8 line).1.isEmpty = true) := by
  intro hfail
  rw [convToLocal_ne_nil lib server useUtf8 hfail.1] at hfail
  exact Bool.false_ne_true hfail.2

theorem SftpNotification.store_event
    (useUtf8 : Bool) (message : SftpMessage) (i : ℕ) (line : List UInt8) :
    (SftpNotification.event message).store lib server useUtf8 i line =
      (some (.event
        { message with
          text :=
            message.text.set i (convToLocal lib server useUtf8 line).1 }),
        (convToLocal lib server useUtf8 line).2) := by
  rw [SftpNotification.store]
  exact if_neg (converted_of_line lib server useUtf8 line)

theorem SftpNotification.store_listEvent
    (useUtf8 : Bool) (message : SftpListMessage) (i : ℕ)
    (line : List UInt8) :
    (SftpNotification.listEvent message).store lib server useUtf8 i line =
      if i = 1 then
        (some (.listEvent { message with mtime := lib.toIntegral line }),
          useUtf8)
      else if i ≠ 0 then
        (some (.listEvent
          { message with name := (convToLocal lib server useUtf8 line).1 }),
          (convToLocal lib server useUtf8 line).2)
      else
        (some (.listEvent
          { message with text := (convToLocal lib server useUtf8 line).1 }),
          (convToLocal lib server useUtf8 line).2) := by
  simp only [SftpNotification.store,
    if_neg (converted_of_line lib server useUtf8 line)]

theorem SftpNotification.store_some
    (useUtf8 : Bool) (notification : SftpNotification) (i : ℕ)
    (line : List UInt8) :
    ∃ stored useUtf8',
      notification.store lib server useUtf8 i line =
        (some stored, useUtf8') ∧ stored.type = notification.type := by
  cases notification with
  | event message =>
      exact ⟨_, _, SftpNotification.store_event lib server useUtf8 message i
        line, rfl⟩
  | listEvent message =>
      rw [SftpNotification.store_listEvent]
      by_cases hmtime : i = 1
      · rw [if_pos hmtime]
        exact ⟨_, _, rfl, rfl⟩
      · rw [if_neg hmtime]
        by_cases hname : i ≠ 0
        · rw [if_pos hname]
          exact ⟨_, _, rfl, rfl⟩
        · rw [if_neg hname]
          exact ⟨_, _, rfl, rfl⟩

theorem SftpNotification.start_type (type : SftpEvent) :
    (SftpNotification.start type).type = type := by
  unfold SftpNotification.start
  by_cases htype : type = .listentry
  · rw [if_pos htype, htype]
    rfl
  · rw [if_neg htype]
    rfl

theorem assemble_concat
    (useUtf8 : Bool) (type : SftpEvent) (done : List (List UInt8))
    (line : List UInt8) :
    (assemble lib server useUtf8 type done).1.store lib server
        (assemble lib server useUtf8 type done).2 done.length
        (stripCr line) =
      (some (assemble lib server useUtf8 type (done ++ [line])).1,
        (assemble lib server useUtf8 type (done ++ [line])).2) := by
  have hsplit :
      (done ++ [line]).zipIdx = done.zipIdx ++ [(line, done.length)] := by
    simp [List.zipIdx_append]
  rcases SftpNotification.store_some lib server
      (assemble lib server useUtf8 type done).2
      (assemble lib server useUtf8 type done).1 done.length
      (stripCr line) with ⟨stored, useUtf8', hstore, -⟩
  have hconcat :
      assemble lib server useUtf8 type (done ++ [line]) =
        (stored, useUtf8') := by
    unfold assemble at hstore ⊢
    rw [hsplit, List.foldl_concat, hstore]
    rfl
  rw [hstore, hconcat]

theorem assemble_type
    (useUtf8 : Bool) (type : SftpEvent) (done : List (List UInt8)) :
    (assemble lib server useUtf8 type done).1.type = type := by
  induction done using List.reverseRecOn with
  | nil => exact SftpNotification.start_type type
  | append_singleton done line ih =>
      rcases SftpNotification.store_some lib server
          (assemble lib server useUtf8 type done).2
          (assemble lib server useUtf8 type done).1 done.length
          (stripCr line) with ⟨stored, useUtf8', hstore, htype⟩
      have hconcat := assemble_concat lib server useUtf8 type done line
      rw [hstore] at hconcat
      rw [← Option.some.inj (congrArg Prod.fst hconcat), htype, ih]

theorem notifications_append
    (useUtf8 : Bool) (first second : List (Frame SftpEvent UInt8)) :
    notifications lib server useUtf8 (first ++ second) =
      ((notifications lib server useUtf8 first).1 ++
          (notifications lib server
            (notifications lib server useUtf8 first).2 second).1,
        (notifications lib server
          (notifications lib server useUtf8 first).2 second).2) := by
  induction first generalizing useUtf8 with
  | nil => rfl
  | cons frame frames ih => simp [notifications, ih]

/-! ## The search for the end of a line -/

theorem findFrom_none {current rest : List UInt8} {offset : ℕ}
    (hcurrent : lf ∉ current) (hrest : lf ∉ rest) :
    findFrom (current ++ rest) lf offset = none := by
  have hnone :
      ((current ++ rest).drop offset).findIdx? (· == lf) = none := by
    rw [List.findIdx?_eq_none_iff]
    intro byte hmem
    have hbyte := List.mem_of_mem_drop hmem
    have hne : byte ≠ lf := by
      rintro rfl
      exact (List.mem_append.mp hbyte).elim hcurrent hrest
    exact beq_eq_false_iff_ne.mpr hne
  rw [findFrom, hnone, Option.map_none]

theorem findFrom_some {current text rest : List UInt8} {offset : ℕ}
    (hcurrent : lf ∉ current) (htext : lf ∉ text)
    (hoffset : offset ≤ current.length) :
    findFrom (current ++ (text ++ lf :: rest)) lf offset =
      some (current ++ text).length := by
  have hdrop :
      (current ++ (text ++ lf :: rest)).drop offset =
        (current.drop offset ++ text) ++ lf :: rest := by
    rw [List.drop_append_of_le_length hoffset, List.append_assoc]
  have hfree : ∀ byte ∈ current.drop offset ++ text, (byte == lf) = false := by
    intro byte hmem
    have hne : byte ≠ lf := by
      rintro rfl
      rcases List.mem_append.mp hmem with hin | hin
      · exact hcurrent (List.mem_of_mem_drop hin)
      · exact htext hin
    exact beq_eq_false_iff_ne.mpr hne
  have hfound :
      ((current ++ (text ++ lf :: rest)).drop offset).findIdx? (· == lf) =
        some (current.drop offset ++ text).length := by
    rw [hdrop, List.findIdx?_append, List.findIdx?_eq_none_iff.mpr hfree]
    simp [List.findIdx?_cons]
  rw [findFrom, hfound, Option.map_some]
  simp only [List.length_append, List.length_drop]
  congr 1
  omega

theorem split_line (rest : List UInt8) :
    lf ∉ rest ∨
      ∃ text more, rest = text ++ lf :: more ∧ lf ∉ text := by
  by_cases hmem : lf ∈ rest
  · right
    rcases List.eq_append_cons_of_mem hmem with ⟨text, more, hrest, htext⟩
    exact ⟨text, more, hrest, htext⟩
  · left
    exact hmem

/-! ## The lines of one event -/

/-- The parser waits for more of an event, or gives up on a line that is too
long. -/
def Unfinished (useUtf8 : Bool) (position : Position SftpEvent UInt8)
    (drained : SftpDrained) : Prop :=
  (position.current.length ≤ 4096 ∧
    ∃ parser, drained = .needRead parser ∧
      AtPosition lib server useUtf8 position parser []) ∨
  (4096 < position.current.length ∧
    ∃ parser, drained = .returned parser .overlongLine Reply.wouldblock)

theorem run_line_end
    (type : SftpEvent) (done : List (List UInt8))
    {current text more : List UInt8} (htext : lf ∉ text) :
    sftpFormat.run (.within type done current) (text ++ lf :: more) =
      (sftpFormat.advance type (done ++ [current ++ text])).andThen
        fun next => sftpFormat.run next more := by
  have hsplit : text ++ lf :: more = (text ++ [sftpFormat.stop]) ++ more := by
    rw [List.append_assoc]
    rfl
  rw [hsplit, Format.run_append,
    Format.run_line sftpFormat type done current htext rfl]

theorem readLines_stopped
    (left : ℕ) {useUtf8 : Bool} {type : SftpEvent}
    {done : List (List UInt8)} {current rest : List UInt8}
    {parser : SftpInputParser}
    (hat : AtPosition lib server useUtf8 (.within type done current) parser rest)
    (hrest : lf ∉ rest) (notification : SftpNotification) :
    ∃ drained,
      SftpInputParser.readLines lib server (left + 1) parser notification =
        .stopped drained ∧
      Unfinished lib server useUtf8 (.within type done (current ++ rest))
        drained := by
  rcases hat with
    ⟨hbuffer, hcurrent, hoffset, hmore, hpending, hevent, hutf8⟩
  have hfind : findFrom parser.recvBuffer lf parser.searchOffset = none := by
    rw [hbuffer]
    exact findFrom_none hcurrent hrest
  have hfree : lf ∉ current ++ rest := by
    intro hmem
    exact (List.mem_append.mp hmem).elim hcurrent hrest
  simp only [SftpInputParser.readLines, hfind]
  by_cases hlong : parser.recvBuffer.length > 4096
  · rw [if_pos hlong]
    rw [hbuffer] at hlong
    exact ⟨_, rfl, Or.inr ⟨hlong, parser, rfl⟩⟩
  · rw [if_neg hlong]
    rw [hbuffer] at hlong
    refine ⟨_, rfl, Or.inl ⟨not_lt.mp hlong, _, rfl, ?_⟩⟩
    exact ⟨by rw [hbuffer, List.append_nil], hfree,
      by rw [hbuffer], hmore, hpending, hevent, hutf8⟩

theorem readLines_line
    {left : ℕ} {useUtf8 : Bool} {type : SftpEvent}
    {done : List (List UInt8)} {current text more : List UInt8}
    {parser : SftpInputParser}
    (hat :
      AtPosition lib server useUtf8 (.within type done current) parser
        (text ++ lf :: more))
    (htext : lf ∉ text) (hleft : parser.pendingLines = left + 1) :
    SftpInputParser.readLines lib server (left + 1) parser
        (assemble lib server useUtf8 type done).1 =
      SftpInputParser.readLines lib server left
        { recvBuffer := more
          pendingLines := left
          searchOffset := 0
          pending :=
            some (assemble lib server useUtf8 type
              (done ++ [current ++ text])).1
          useUtf8 :=
            (assemble lib server useUtf8 type
              (done ++ [current ++ text])).2 }
        (assemble lib server useUtf8 type (done ++ [current ++ text])).1 := by
  rcases hat with
    ⟨hbuffer, hcurrent, hoffset, hmore, hpending, hevent, hutf8⟩
  have hfind :
      findFrom parser.recvBuffer lf parser.searchOffset =
        some (current ++ text).length := by
    rw [hbuffer]
    exact findFrom_some hcurrent htext hoffset
  have hsplit : parser.recvBuffer = (current ++ text) ++ lf :: more := by
    rw [hbuffer, List.append_assoc]
  have hline :
      parser.recvBuffer.take (current ++ text).length = current ++ text := by
    rw [hsplit, List.take_left]
  have hdrop :
      parser.recvBuffer.drop ((current ++ text).length + 1) = more := by
    rw [hsplit, List.drop_append]
    simp
  have hindex : type.lines - (left + 1) = done.length := by omega
  simp only [SftpInputParser.readLines, hfind, hline, hdrop, hindex, hutf8,
    assemble_type, assemble_concat]

theorem unfinished_of_more
    {useUtf8 : Bool} {type : SftpEvent} {done : List (List UInt8)}
    {left : ℕ} {more : List UInt8}
    (hleft : done.length + (left + 1) = type.lines) :
    AtPosition lib server useUtf8 (.within type done [])
      { recvBuffer := more
        pendingLines := left + 1
        searchOffset := 0
        pending := some (assemble lib server useUtf8 type done).1
        useUtf8 := (assemble lib server useUtf8 type done).2 } more :=
  ⟨rfl, List.not_mem_nil, le_rfl, by omega, by dsimp only; omega, rfl, rfl⟩

theorem readLines_run
    (left : ℕ) {useUtf8 : Bool} {type : SftpEvent}
    {done : List (List UInt8)} {current rest : List UInt8}
    {parser : SftpInputParser}
    (hat : AtPosition lib server useUtf8 (.within type done current) parser rest)
    (hleft : parser.pendingLines = left + 1) :
    (∃ lines more after,
      SftpInputParser.readLines lib server (left + 1) parser
          (assemble lib server useUtf8 type done).1 =
        .complete after (assemble lib server useUtf8 type lines).1 ∧
      sftpFormat.run (.within type done current) rest =
        (sftpFormat.run .idle more).after [⟨type, lines⟩] ∧
      more.length < rest.length ∧
      AtPosition lib server (assemble lib server useUtf8 type lines).2 .idle
        { after with pending := none } more) ∨
    ∃ position drained,
      SftpInputParser.readLines lib server (left + 1) parser
          (assemble lib server useUtf8 type done).1 = .stopped drained ∧
      sftpFormat.run (.within type done current) rest =
        .running [] position ∧
      Unfinished lib server useUtf8 position drained := by
  induction left generalizing done current rest parser with
  | zero =>
      rcases split_line rest with hrest | ⟨text, more, rfl, htext⟩
      · right
        rcases readLines_stopped lib server 0 hat hrest
          (assemble lib server useUtf8 type done).1 with
            ⟨drained, hstopped, hunfinished⟩
        exact ⟨_, drained, hstopped,
          Format.run_text sftpFormat type done current hrest, hunfinished⟩
      · left
        have hlast :
            ¬ (done ++ [current ++ text]).length < type.lines := by
          rcases hat with ⟨-, -, -, -, hpending, -, -⟩
          simp only [List.length_append, List.length_singleton]
          omega
        have hadvance :
            sftpFormat.advance type (done ++ [current ++ text]) =
              .running [⟨type, done ++ [current ++ text]⟩] .idle :=
          if_neg hlast
        refine ⟨done ++ [current ++ text], more, _,
          readLines_line lib server hat htext hleft, ?_, ?_, ?_⟩
        · rw [run_line_end type done htext, hadvance]
          rfl
        · simp only [List.length_append, List.length_cons]
          omega
        · exact ⟨rfl, rfl, rfl, rfl⟩
  | succ left ih =>
      rcases split_line rest with hrest | ⟨text, more, rfl, htext⟩
      · right
        rcases readLines_stopped lib server (left + 1) hat hrest
          (assemble lib server useUtf8 type done).1 with
            ⟨drained, hstopped, hunfinished⟩
        exact ⟨_, drained, hstopped,
          Format.run_text sftpFormat type done current hrest, hunfinished⟩
      · have hnext :
            (done ++ [current ++ text]).length + (left + 1) = type.lines := by
          rcases hat with ⟨-, -, -, -, hpending, -, -⟩
          simp only [List.length_append, List.length_singleton]
          omega
        have hadvance :
            sftpFormat.advance type (done ++ [current ++ text]) =
              .running [] (.within type (done ++ [current ++ text]) []) :=
          if_pos (show _ < type.lines by omega)
        have hrun :
            sftpFormat.run (.within type done current) (text ++ lf :: more) =
              sftpFormat.run (.within type (done ++ [current ++ text]) [])
                more := by
          rw [run_line_end type done htext, hadvance]
          exact Scan.after_nil _
        rw [readLines_line lib server hat htext hleft, hrun]
        rcases ih (unfinished_of_more lib server hnext) rfl with
          ⟨lines, after, parser', hcomplete, hafter, hlength, hidle⟩ | hstopped
        · left
          refine ⟨lines, after, parser', hcomplete, hafter, ?_, hidle⟩
          simp only [List.length_append, List.length_cons]
          omega
        · right
          exact hstopped

/-! ## One read -/

def Drains (useUtf8 : Bool) (scan : Scan SftpEvent UInt8)
    (drained : List SftpNotification × SftpDrained) : Prop :=
  drained.1 = (notifications lib server useUtf8 scan.frames).1 ∧
    match scan with
    | .running frames position =>
        Unfinished lib server (notifications lib server useUtf8 frames).2
          position drained.2
    | .unknown _ byte =>
        ∃ parser,
          drained.2 =
            .returned parser (.unknownEventType ((byte.toNat : ℤ) - 48))
              Reply.wouldblock
    | .refused _ => False

theorem Drains.after
    {useUtf8 : Bool} {scan : Scan SftpEvent UInt8}
    {drained : List SftpNotification × SftpDrained}
    (early : List (Frame SftpEvent UInt8))
    (hdrains :
      Drains lib server (notifications lib server useUtf8 early).2 scan
        drained) :
    Drains lib server useUtf8 (scan.after early)
      ((notifications lib server useUtf8 early).1 ++ drained.1,
        drained.2) := by
  rcases hdrains with ⟨hsent, hend⟩
  cases scan with
  | running frames position =>
      refine ⟨?_, ?_⟩
      · simp only [Scan.after, Scan.frames, notifications_append, hsent]
      · simp only [Scan.after, notifications_append]
        exact hend
  | unknown frames byte =>
      refine ⟨?_, hend⟩
      simp only [Scan.after, Scan.frames, notifications_append, hsent]
  | refused frames => exact hend.elim

theorem drain_nil
    {useUtf8 : Bool} {position : Position SftpEvent UInt8}
    {parser : SftpInputParser} {fuel : ℕ}
    (hat : AtPosition lib server useUtf8 position parser [])
    (hbuffer : parser.recvBuffer = []) (hcurrent : position.current = []) :
    Drains lib server useUtf8 (sftpFormat.run position [])
      (parser.drain lib server (fuel + 1)) := by
  have hdrain :
      parser.drain lib server (fuel + 1) = ([], .needRead parser) := by
    simp only [SftpInputParser.drain, hbuffer]
  rw [hdrain]
  have hshort : position.current.length ≤ 4096 := by
    rw [hcurrent]
    exact Nat.zero_le _
  exact ⟨rfl, Or.inl ⟨hshort, parser, rfl, hat⟩⟩

theorem drain_idle
    {useUtf8 : Bool} {parser : SftpInputParser} {byte : UInt8}
    {rest : List UInt8} {fuel : ℕ}
    (hat : AtPosition lib server useUtf8 .idle parser (byte :: rest))
    (ih :
      ∀ {useUtf8 : Bool} {position : Position SftpEvent UInt8}
        {parser : SftpInputParser},
        AtPosition lib server useUtf8 position parser rest →
        Drains lib server useUtf8 (sftpFormat.run position rest)
          (parser.drain lib server fuel)) :
    Drains lib server useUtf8 (sftpFormat.run .idle (byte :: rest))
      (parser.drain lib server (fuel + 1)) := by
  rcases hat with ⟨hbuffer, hoffset, hpending, hutf8⟩
  simp only [SftpInputParser.drain, hbuffer, hpending]
  cases htype : SftpEvent.ofByte byte with
  | none =>
      have hrun :
          sftpFormat.run .idle (byte :: rest) = .unknown [] byte := by
        simp only [Format.run, Format.step, sftpFormat, htype, Scan.andThen]
      rw [hrun]
      exact ⟨rfl, _, rfl⟩
  | some type =>
      have hrun :
          sftpFormat.run .idle (byte :: rest) =
            (sftpFormat.advance type []).andThen
              fun next => sftpFormat.run next rest := by
        simp only [Format.run, Format.step, sftpFormat, htype]
      rw [hrun]
      by_cases hlines : type.lines = 0
      · have hadvance :
            sftpFormat.advance type [] = .running [⟨type, []⟩] .idle :=
          if_neg (show ¬ 0 < type.lines by omega)
        rw [hadvance]
        simp only [hlines, if_pos]
        have hnext :=
          @ih useUtf8 .idle
            ⟨rest, 0, parser.searchOffset, none, parser.useUtf8⟩
            ⟨rfl, hoffset, rfl, hutf8⟩
        exact Drains.after lib server [⟨type, []⟩] hnext
      · have hadvance :
            sftpFormat.advance type [] = .running [] (.within type [] []) :=
          if_pos (show 0 < type.lines by omega)
        rw [hadvance]
        simp only [hlines, if_neg, not_false_eq_true, Scan.andThen,
          Scan.after_nil]
        exact ih ⟨rfl, List.not_mem_nil, hoffset.le, by
          simpa using Nat.pos_of_ne_zero hlines, rfl, rfl, hutf8⟩

theorem drain_run
    (fuel : ℕ) {useUtf8 : Bool} {position : Position SftpEvent UInt8}
    {parser : SftpInputParser} {rest : List UInt8}
    (hat : AtPosition lib server useUtf8 position parser rest)
    (hfuel : rest.length < fuel) :
    Drains lib server useUtf8 (sftpFormat.run position rest)
      (parser.drain lib server fuel) := by
  induction fuel generalizing useUtf8 position parser rest with
  | zero => exact absurd hfuel (Nat.not_lt_zero _)
  | succ fuel ih =>
      cases position with
      | idle =>
          cases rest with
          | nil => exact drain_nil lib server hat hat.1 rfl
          | cons byte rest =>
              exact drain_idle lib server hat fun hat =>
                ih hat (Nat.lt_of_succ_lt_succ hfuel)
      | within type done current =>
          have hpending := hat.2.2.2.2.2.1
          have hleft :
              parser.pendingLines = type.lines - done.length - 1 + 1 := by
            rcases hat with ⟨-, -, -, hmore, hleft, -, -⟩
            omega
          cases hbuffer : parser.recvBuffer with
          | nil =>
              have hempty := hat.1
              rw [hbuffer] at hempty
              rcases List.append_eq_nil_iff.mp hempty.symm with ⟨hcurrent, rfl⟩
              exact drain_nil lib server hat hbuffer hcurrent
          | cons byte buffer =>
              simp only [SftpInputParser.drain, hbuffer, hpending]
              rw [hleft]
              rcases readLines_run lib server _ hat hleft with
                ⟨lines, more, after, hlines, hrun, hlength, hidle⟩ |
                ⟨position, drained, hlines, hrun, hunfinished⟩
              · rw [hlines, hrun]
                exact Drains.after lib server [⟨type, lines⟩]
                  (ih hidle (by omega))
              · rw [hlines, hrun]
                exact ⟨rfl, hunfinished⟩

end

end TabFtp
