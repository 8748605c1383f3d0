import TabFtp.SftpFraming

/-!
# What the control socket gets from fzsftp

The messages that fzsftp writes are sent as they were written, however the
pipe cuts them.  Input that is not framed is noticed by the parser, but the
call that notices it returns as if it waited for more.
-/

namespace TabFtp

open LineFrames

section

variable (lib : LocalText) (server : Server)

/-- The event for a message whose lines leave `m_useUTF8` alone.  A place
without a line is empty. -/
def sftpNotification
    (useUtf8 : Bool) (frame : Frame SftpEvent UInt8) : SftpNotification :=
  let line (i : ℕ) := stripCr (frame.lines.getD i [])
  let text (i : ℕ) := (convToLocal lib server useUtf8 (line i)).1
  if frame.kind = .listentry then
    .listEvent ⟨text 0, text 2, lib.toIntegral (line 1)⟩
  else .event ⟨frame.kind, [text 0, text 1]⟩

/-- The bytes that are read before the pipe is closed or fails. -/
def received : List ChildRead → List (List UInt8)
  | [] => []
  | .error _ _ :: _ => []
  | .value bytes :: reads =>
      if bytes.isEmpty then [] else bytes :: received reads

def SftpParserLog.malformed : SftpParserLog → Bool
  | .overlongLine | .unknownEventType _ => true
  | _ => false

/-- A call that has met malformed input closes the socket, and nothing of what
follows is sent as an event. -/
def AbortsMalformed : List SftpOnData → Prop
  | [] => True
  | call :: later =>
      (∀ before message after,
        call.outputs = before ++ .log message :: after →
        message.malformed = true →
        call.reply = Reply.disconnected ∧
          ∀ notification,
            .sendEvent notification ∉ after ∧
              ∀ next ∈ later, .sendEvent notification ∉ next.outputs) ∧
      AbortsMalformed later

/-! ## One read of a call -/

theorem AtPosition.append
    {useUtf8 : Bool} {position : Position SftpEvent UInt8}
    {parser : SftpInputParser}
    (hat : AtPosition lib server useUtf8 position parser [])
    (bytes : List UInt8) :
    AtPosition lib server useUtf8 position
      { parser with recvBuffer := parser.recvBuffer ++ bytes } bytes := by
  cases position with
  | idle =>
      rcases hat with ⟨hbuffer, hrest⟩
      exact ⟨by simp [hbuffer], hrest⟩
  | within type done current =>
      rcases hat with ⟨hbuffer, hrest⟩
      exact ⟨by simp [hbuffer], hrest⟩

theorem drain_read
    {useUtf8 : Bool} {position : Position SftpEvent UInt8}
    {parser : SftpInputParser}
    (hat : AtPosition lib server useUtf8 position parser [])
    (bytes : List UInt8) :
    Drains lib server useUtf8 (sftpFormat.run position bytes)
      (SftpInputParser.drain lib server
        (2 * (parser.recvBuffer ++ bytes).length + 1)
        { parser with recvBuffer := parser.recvBuffer ++ bytes }) := by
  have hfuel :
      bytes.length < 2 * (parser.recvBuffer ++ bytes).length + 1 := by
    rw [List.length_append]
    omega
  exact drain_run lib server _ (AtPosition.append lib server hat bytes) hfuel

theorem onData_needRead
    {parser next : SftpInputParser} {bytes : List UInt8}
    {sent : List SftpNotification} (hbytes : bytes ≠ [])
    (hdrain :
      SftpInputParser.drain lib server
        (2 * (parser.recvBuffer ++ bytes).length + 1)
        { parser with recvBuffer := parser.recvBuffer ++ bytes } =
          (sent, .needRead next))
    (reads : List ChildRead) :
    parser.onData lib server (.value bytes :: reads) =
      (next.onData lib server reads).after (sent.map .sendEvent) := by
  have hnonempty : ¬ bytes.isEmpty = true := by
    simpa [List.isEmpty_iff] using hbytes
  rw [SftpInputParser.onData, if_neg hnonempty]
  dsimp only
  rw [hdrain]

theorem onData_returned
    {parser next : SftpInputParser} {bytes : List UInt8}
    {sent : List SftpNotification} {message : SftpParserLog} {reply : Reply}
    (hbytes : bytes ≠ [])
    (hdrain :
      SftpInputParser.drain lib server
        (2 * (parser.recvBuffer ++ bytes).length + 1)
        { parser with recvBuffer := parser.recvBuffer ++ bytes } =
          (sent, .returned next message reply))
    (reads : List ChildRead) :
    parser.onData lib server (.value bytes :: reads) =
      ⟨sent.map .sendEvent ++ [.log message], next, reply, reads⟩ := by
  have hnonempty : ¬ bytes.isEmpty = true := by
    simpa [List.isEmpty_iff] using hbytes
  rw [SftpInputParser.onData, if_neg hnonempty]
  dsimp only
  rw [hdrain]

theorem onData_framed
    {useUtf8 : Bool} {position next : Position SftpEvent UInt8}
    {parser : SftpInputParser} {bytes : List UInt8}
    {frames : List (Frame SftpEvent UInt8)}
    (hat : AtPosition lib server useUtf8 position parser [])
    (hbytes : bytes ≠ [])
    (hrun : sftpFormat.run position bytes = .running frames next)
    (hshort : next.current.length ≤ 4096) :
    ∃ after,
      AtPosition lib server (notifications lib server useUtf8 frames).2 next
        after [] ∧
      ∀ reads,
        parser.onData lib server (.value bytes :: reads) =
          (after.onData lib server reads).after
            ((notifications lib server useUtf8 frames).1.map .sendEvent) := by
  have hdrains := drain_read lib server hat bytes
  rw [hrun] at hdrains
  rcases hdrains with
    ⟨hsent, ⟨-, after, hafter, hposition⟩ | ⟨hlong, -⟩⟩
  · exact ⟨after, hposition,
      onData_needRead lib server hbytes (Prod.ext hsent hafter)⟩
  · omega

def MeetsMalformed
    (position : Position SftpEvent UInt8) (bytes : List UInt8) : Prop :=
  match sftpFormat.run position bytes with
  | .running _ next => 4096 < next.current.length
  | .unknown _ _ => True
  | .refused _ => False

theorem onData_malformed
    {useUtf8 : Bool} {position : Position SftpEvent UInt8}
    {parser : SftpInputParser} {bytes : List UInt8}
    (hat : AtPosition lib server useUtf8 position parser [])
    (hbytes : bytes ≠ [])
    (hmeets : MeetsMalformed position bytes) :
    ∃ (sent : List SftpNotification) (message : SftpParserLog)
      (after : SftpInputParser), message.malformed = true ∧
      ∀ reads,
        parser.onData lib server (.value bytes :: reads) =
          ⟨sent.map .sendEvent ++ [.log message], after, Reply.wouldblock,
            reads⟩ := by
  have hdrains := drain_read lib server hat bytes
  unfold MeetsMalformed at hmeets
  cases hrun : sftpFormat.run position bytes with
  | running frames next =>
      rw [hrun] at hmeets hdrains
      rcases hdrains with
        ⟨hsent, ⟨hshort, -⟩ | ⟨-, after, hafter⟩⟩
      · exact absurd hmeets (not_lt.mpr hshort)
      · exact ⟨_, .overlongLine, after, rfl,
          onData_returned lib server hbytes (Prod.ext hsent hafter)⟩
  | unknown frames byte =>
      rw [hrun] at hdrains
      rcases hdrains with ⟨hsent, after, hafter⟩
      exact ⟨_, .unknownEventType ((byte.toNat : ℤ) - 48), after, rfl,
        onData_returned lib server hbytes (Prod.ext hsent hafter)⟩
  | refused frames =>
      rw [hrun] at hmeets
      exact hmeets.elim

/-! ## Messages as they were written -/

theorem onData_chunks
    {useUtf8 : Bool} {position next : Position SftpEvent UInt8}
    {parser : SftpInputParser} {chunks : List (List UInt8)}
    {frames : List (Frame SftpEvent UInt8)}
    (hat : AtPosition lib server useUtf8 position parser [])
    (hchunks : ∀ bytes ∈ chunks, bytes ≠ [])
    (hframed : sftpFormat.Framed 4096 position chunks)
    (hrun : sftpFormat.run position chunks.flatten = .running frames next) :
    ∃ after,
      AtPosition lib server (notifications lib server useUtf8 frames).2 next
        after [] ∧
      parser.onData lib server (chunks.map .value) =
        ⟨(notifications lib server useUtf8 frames).1.map .sendEvent, after,
          Reply.wouldblock, []⟩ := by
  induction chunks generalizing useUtf8 position parser frames with
  | nil =>
      injection hrun with hframes hposition
      subst hframes hposition
      exact ⟨parser, hat, rfl⟩
  | cons bytes rest ih =>
      rw [List.flatten_cons, Format.run_append] at hrun
      rcases Scan.andThen_eq_running hrun with
        ⟨early, late, middle, hbytes, hrest, rfl⟩
      simp only [Format.Framed, hbytes] at hframed
      rcases onData_framed lib server hat
        (hchunks bytes List.mem_cons_self) hbytes hframed.1 with
          ⟨between, hbetween, hread⟩
      rcases ih hbetween
        (fun other hmem => hchunks other (List.mem_cons_of_mem bytes hmem))
        hframed.2 hrest with ⟨after, hafter, hcall⟩
      refine ⟨after, ?_, ?_⟩
      · rw [notifications_append]
        exact hafter
      · rw [List.map_cons, hread, hcall, notifications_append]
        simp [SftpOnData.after]

/-- Reads that are cut differently give the same messages. -/
theorem onProcessEvents_chunks
    {useUtf8 : Bool} {position next : Position SftpEvent UInt8}
    {parser : SftpInputParser} {calls : List (List (List UInt8))}
    {frames : List (Frame SftpEvent UInt8)}
    (hat : AtPosition lib server useUtf8 position parser [])
    (hcalls : ∀ chunks ∈ calls, ∀ bytes ∈ chunks, bytes ≠ [])
    (hframed : sftpFormat.Framed 4096 position calls.flatten)
    (hrun :
      sftpFormat.run position calls.flatten.flatten = .running frames next) :
    (∀ call ∈ parser.onProcessEvents lib server []
        (calls.map fun chunks => chunks.map .value),
      call.reply = Reply.wouldblock) ∧
    (parser.onProcessEvents lib server []
        (calls.map fun chunks => chunks.map .value)).flatMap
          SftpOnData.outputs =
      (notifications lib server useUtf8 frames).1.map .sendEvent := by
  induction calls generalizing useUtf8 position parser frames with
  | nil =>
      injection hrun with hframes
      subst hframes
      exact ⟨fun call hcall => (List.not_mem_nil hcall).elim, rfl⟩
  | cons chunks rest ih =>
      rw [List.flatten_cons, List.flatten_append, Format.run_append] at hrun
      rcases Scan.andThen_eq_running hrun with
        ⟨early, late, middle, hchunks, hrest, rfl⟩
      rcases Format.Framed.append sftpFormat hframed hchunks with
        ⟨hfirst, hsecond⟩
      rcases onData_chunks lib server hat (hcalls chunks List.mem_cons_self)
        hfirst hchunks with ⟨after, hafter, hcall⟩
      rcases ih hafter
        (fun other hmem => hcalls other (List.mem_cons_of_mem chunks hmem))
        hsecond hrest with ⟨hreplies, houtputs⟩
      have hevents :
          parser.onProcessEvents lib server []
              ((chunks :: rest).map fun chunks => chunks.map .value) =
            ⟨(notifications lib server useUtf8 early).1.map .sendEvent, after,
                Reply.wouldblock, []⟩ ::
              after.onProcessEvents lib server []
                (rest.map fun chunks => chunks.map .value) := by
        simp only [List.map_cons, SftpInputParser.onProcessEvents,
          List.nil_append, hcall, ne_eq, not_true_eq_false, if_false]
      rw [hevents]
      refine ⟨?_, ?_⟩
      · intro call hmem
        rcases List.mem_cons.mp hmem with rfl | hmem
        · rfl
        · exact hreplies call hmem
      · rw [List.flatMap_cons, houtputs, notifications_append, List.map_append]

theorem SftpEvent.lines_le {type : SftpEvent} (hlist : type ≠ .listentry) :
    type.lines ≤ 2 := by
  cases type <;> simp [SftpEvent.lines] at hlist ⊢

@[simp] theorem convToLocal_nil (useUtf8 : Bool) :
    convToLocal lib server useUtf8 [] = ([], useUtf8) := rfl

theorem assemble_eq
    {useUtf8 : Bool} {frame : Frame SftpEvent UInt8}
    (hlength : frame.lines.length = frame.kind.lines)
    (hconv :
      ∀ line ∈ frame.lines,
        (convToLocal lib server useUtf8 (stripCr line)).2 = useUtf8) :
    assemble lib server useUtf8 frame.kind frame.lines =
      (sftpNotification lib server useUtf8 frame, useUtf8) := by
  rcases frame with ⟨type, lines⟩
  dsimp only at hlength hconv
  by_cases hlist : type = .listentry
  · subst hlist
    rcases List.length_eq_three.mp hlength with ⟨first, second, third, rfl⟩
    simp [assemble, SftpNotification.start, sftpNotification,
      SftpNotification.store_listEvent, hconv]
  · have hcount := SftpEvent.lines_le hlist
    rw [← hlength] at hcount
    have hempty : stripCr [] = [] := rfl
    match lines, hcount with
    | [], _ =>
        simp [assemble, SftpNotification.start, sftpNotification, hlist, hempty]
    | [first], _ =>
        simp [assemble, SftpNotification.start, sftpNotification, hlist,
          hempty, SftpNotification.store_event, hconv]
    | [first, second], _ =>
        simp [assemble, SftpNotification.start, sftpNotification, hlist,
          SftpNotification.store_event, hconv]

theorem notifications_eq
    {useUtf8 : Bool} {frames : List (Frame SftpEvent UInt8)}
    (hlength : ∀ frame ∈ frames, frame.lines.length = frame.kind.lines)
    (hconv :
      ∀ frame ∈ frames, ∀ line ∈ frame.lines,
        (convToLocal lib server useUtf8 (stripCr line)).2 = useUtf8) :
    notifications lib server useUtf8 frames =
      (frames.map (sftpNotification lib server useUtf8), useUtf8) := by
  induction frames with
  | nil => rfl
  | cons frame frames ih =>
      have hfirst :=
        assemble_eq lib server (hlength frame List.mem_cons_self)
          (hconv frame List.mem_cons_self)
      have hrest := ih
        (fun other hmem => hlength other (List.mem_cons_of_mem frame hmem))
        (fun other hmem => hconv other (List.mem_cons_of_mem frame hmem))
      simp only [notifications, hfirst, hrest, List.map_cons]

theorem run_messages
    {frames : List (Frame SftpEvent UInt8)}
    (hlength : ∀ frame ∈ frames, frame.lines.length = frame.kind.lines)
    (hstop : ∀ frame ∈ frames, ∀ line ∈ frame.lines, lf ∉ line) :
    sftpFormat.run .idle (frames.flatMap sftpBytes) = .running frames .idle :=
  Format.run_frames sftpFormat SftpEvent.header SftpEvent.ofByte_header
    fun frame hmem =>
      ⟨hlength frame hmem, hstop frame hmem, fun _ _ _ => rfl⟩

/-- Every call waits for more, and together the calls send the messages that
were written, in their order and with their own texts. -/
theorem messages_received
    (useUtf8 : Bool) (frames : List (Frame SftpEvent UInt8))
    (calls : List (List (List UInt8)))
    (hlength : ∀ frame ∈ frames, frame.lines.length = frame.kind.lines)
    (hline :
      ∀ frame ∈ frames, ∀ line ∈ frame.lines,
        lf ∉ line ∧ line.length ≤ 4096)
    (hconv :
      ∀ frame ∈ frames, ∀ line ∈ frame.lines,
        (convToLocal lib server useUtf8 (stripCr line)).2 = useUtf8)
    (hcalls : ∀ chunks ∈ calls, ∀ bytes ∈ chunks, bytes ≠ [])
    (hstream : calls.flatten.flatten = frames.flatMap sftpBytes) :
    let results :=
      (SftpInputParser.initial useUtf8).onProcessEvents lib server []
        (calls.map fun chunks => chunks.map .value)
    (∀ call ∈ results, call.reply = Reply.wouldblock) ∧
      results.flatMap SftpOnData.outputs =
        frames.map fun frame =>
          .sendEvent (sftpNotification lib server useUtf8 frame) := by
  have hrun :
      sftpFormat.run .idle calls.flatten.flatten = .running frames .idle := by
    rw [hstream]
    exact run_messages hlength fun frame hframe line hmem =>
      (hline frame hframe line hmem).1
  have hframed : sftpFormat.Framed 4096 .idle calls.flatten :=
    Format.framed_of_run sftpFormat calls.flatten hrun
      fun frame hframe line hmem => (hline frame hframe line hmem).2
  have hinitial :
      AtPosition lib server useUtf8 .idle (SftpInputParser.initial useUtf8)
        [] := ⟨rfl, rfl, rfl, rfl⟩
  rcases onProcessEvents_chunks lib server hinitial hcalls hframed hrun with
    ⟨hreplies, houtputs⟩
  rw [notifications_eq lib server hlength hconv, List.map_map] at houtputs
  exact ⟨hreplies, houtputs⟩

def byteText : LocalText where
  fromUtf8 := List.map fun byte => Char.ofNat byte.toNat
  toLocal := fun _ _ => []
  toWString := fun _ => []
  toIntegral := fun line => (line.headD 48).toNat - 48

def sftpServer : Server :=
  ⟨.sftp, .default, ['h'], ['u'], 22, 0, .default, false, .auto, [], [], []⟩

/-- An entry of a listing and a question without text, cut inside a line and
next to the carriage return. -/
theorem messages_received_cut :
    let entry : Frame SftpEvent UInt8 :=
      ⟨.listentry, [asciiBytes ['-', ' ', 'a'], [55], [97, cr]]⟩
    let size : Frame SftpEvent UInt8 := ⟨.ioSize, []⟩
    let results :=
      (SftpInputParser.initial true).onProcessEvents byteText sftpServer []
        [[.value [56, 45]], [.value [32], .value [97, lf, 55, lf, 97]],
          [.value [cr]], [.value [lf, 74]]]
    (∀ call ∈ results, call.reply = Reply.wouldblock) ∧
      results.flatMap SftpOnData.outputs =
        [entry, size].map fun frame =>
          .sendEvent (sftpNotification byteText sftpServer true frame) := by
  have hlines :
      ∀ line ∈ ([asciiBytes ['-', ' ', 'a'], [55], [97, cr]] :
          List (List UInt8)),
        (lf ∉ line ∧ line.length ≤ 4096) ∧
          (convToLocal byteText sftpServer true (stripCr line)).2 = true := by
    decide
  refine messages_received byteText sftpServer true
    [⟨.listentry, [asciiBytes ['-', ' ', 'a'], [55], [97, cr]]⟩,
      ⟨.ioSize, []⟩]
    [[[56, 45]], [[32], [97, lf, 55, lf, 97]], [[cr]], [[lf, 74]]]
    (by decide) ?_ ?_ (by decide) (by decide)
  · intro frame hframe line hline
    rcases List.mem_pair.mp hframe with rfl | rfl
    · exact (hlines line hline).1
    · cases hline
  · intro frame hframe line hline
    rcases List.mem_pair.mp hframe with rfl | rfl
    · exact (hlines line hline).2
    · cases hline

/-! ## Input that is not framed -/

inductive CallFate (position : Position SftpEvent UInt8)
    (reads : List ChildRead) : SftpOnData → Prop
  | waits (useUtf8 : Bool) (sent : List SftpNotification)
      (next : Position SftpEvent UInt8) (parser : SftpInputParser)
      (hat : AtPosition lib server useUtf8 next parser [])
      (hframed :
        ∀ more,
          sftpFormat.Framed 4096 position (received (reads ++ more)) ↔
            sftpFormat.Framed 4096 next (received more)) :
      CallFate position reads
        ⟨sent.map .sendEvent, parser, Reply.wouldblock, []⟩
  | closes (sent : List SftpNotification) (message : SftpParserLog)
      (parser : SftpInputParser) (unread : List ChildRead)
      (hmessage : message.malformed = false)
      (hframed :
        ∀ more,
          sftpFormat.Framed 4096 position (received (reads ++ more))) :
      CallFate position reads
        ⟨sent.map .sendEvent ++ [.log message], parser, Reply.disconnected,
          unread⟩
  | loses (sent : List SftpNotification) (message : SftpParserLog)
      (parser : SftpInputParser) (unread : List ChildRead)
      (hmessage : message.malformed = true)
      (hframed :
        ∀ more,
          ¬ sftpFormat.Framed 4096 position (received (reads ++ more))) :
      CallFate position reads
        ⟨sent.map .sendEvent ++ [.log message], parser, Reply.wouldblock,
          unread⟩

theorem CallFate.after
    {position middle : Position SftpEvent UInt8} {bytes : List UInt8}
    {reads : List ChildRead} {call : SftpOnData}
    (hfate : CallFate lib server middle reads call)
    (early : List SftpNotification)
    (hread :
      ∀ more,
        sftpFormat.Framed 4096 position
            (received (.value bytes :: reads ++ more)) ↔
          sftpFormat.Framed 4096 middle (received (reads ++ more))) :
    CallFate lib server position (.value bytes :: reads)
      (call.after (early.map .sendEvent)) := by
  cases hfate with
  | waits useUtf8 sent next parser hat hframed =>
      have hcall :=
        @CallFate.waits lib server position (.value bytes :: reads) useUtf8
          (early ++ sent) next parser hat
          fun more => (hread more).trans (hframed more)
      rw [List.map_append] at hcall
      exact hcall
  | closes sent message parser unread hmessage hframed =>
      have hcall :=
        @CallFate.closes lib server position (.value bytes :: reads)
          (early ++ sent) message parser unread hmessage
          fun more => (hread more).mpr (hframed more)
      rw [List.map_append, List.append_assoc] at hcall
      exact hcall
  | loses sent message parser unread hmessage hframed =>
      have hcall :=
        @CallFate.loses lib server position (.value bytes :: reads)
          (early ++ sent) message parser unread hmessage
          fun more hmore => hframed more ((hread more).mp hmore)
      rw [List.map_append, List.append_assoc] at hcall
      exact hcall

theorem received_value
    {bytes : List UInt8} (hbytes : bytes ≠ []) (reads : List ChildRead) :
    received (.value bytes :: reads) = bytes :: received reads := by
  have hnonempty : ¬ bytes.isEmpty = true := by
    simpa [List.isEmpty_iff] using hbytes
  rw [received, if_neg hnonempty]

theorem not_framed_of_meets
    {position : Position SftpEvent UInt8} {bytes : List UInt8}
    (hmeets : MeetsMalformed position bytes) (rest : List (List UInt8)) :
    ¬ sftpFormat.Framed 4096 position (bytes :: rest) := by
  intro hframed
  unfold MeetsMalformed at hmeets
  cases hrun : sftpFormat.run position bytes with
  | running frames next =>
      simp only [Format.Framed, hrun] at hmeets hframed
      exact absurd hframed.1 (not_le.mpr hmeets)
  | unknown frames byte =>
      simp only [Format.Framed, hrun] at hframed
  | refused frames =>
      rw [hrun] at hmeets
      exact hmeets

theorem onData_eof
    (parser : SftpInputParser) (reads : List ChildRead) :
    ∃ message : SftpParserLog, message.malformed = false ∧
      parser.onData lib server (.value [] :: reads) =
        ⟨[.log message], parser, Reply.disconnected, reads⟩ := by
  cases hpending : parser.pending with
  | none => exact ⟨.eof, rfl, by simp [SftpInputParser.onData, hpending]⟩
  | some notification =>
      exact ⟨.unexpectedEof, rfl, by simp [SftpInputParser.onData, hpending]⟩

theorem onData_fate
    {useUtf8 : Bool} {position : Position SftpEvent UInt8}
    {parser : SftpInputParser}
    (hat : AtPosition lib server useUtf8 position parser [])
    (reads : List ChildRead) :
    CallFate lib server position reads (parser.onData lib server reads) := by
  induction reads generalizing useUtf8 position parser with
  | nil => exact CallFate.waits useUtf8 [] position parser hat fun _ => Iff.rfl
  | cons read reads ih =>
      cases read with
      | error error raw =>
          exact CallFate.closes [] _ parser reads rfl fun _ => trivial
      | value bytes =>
          by_cases hempty : bytes = []
          · subst hempty
            rcases onData_eof lib server parser reads with
              ⟨message, hmessage, hcall⟩
            rw [hcall]
            exact CallFate.closes [] message parser reads hmessage
              fun _ => trivial
          · have hreceived (more : List ChildRead) :
                received (.value bytes :: reads ++ more) =
                  bytes :: received (reads ++ more) :=
              received_value hempty (reads ++ more)
            by_cases hmeets : MeetsMalformed position bytes
            · rcases onData_malformed lib server hat hempty hmeets with
                ⟨sent, message, after, hmessage, hcall⟩
              rw [hcall]
              refine CallFate.loses sent message after reads hmessage ?_
              intro more
              rw [hreceived]
              exact not_framed_of_meets hmeets _
            · cases hrun : sftpFormat.run position bytes with
              | running frames next =>
                  have hshort : next.current.length ≤ 4096 := by
                    simpa [MeetsMalformed, hrun] using hmeets
                  rcases onData_framed lib server hat hempty hrun hshort with
                    ⟨after, hafter, hcall⟩
                  rw [hcall]
                  refine (ih hafter).after lib server _ ?_
                  intro more
                  rw [hreceived]
                  simp only [Format.Framed, hrun, hshort, true_and]
              | unknown frames byte =>
                  simp [MeetsMalformed, hrun] at hmeets
              | refused frames =>
                  have hdrains := drain_read lib server hat bytes
                  rw [hrun] at hdrains
                  exact hdrains.2.elim

theorem log_not_sent
    {sent : List SftpNotification} {message : SftpParserLog} :
    .log message ∉ sent.map SftpOutput.sendEvent := by
  intro hmem
  rcases List.mem_map.mp hmem with ⟨notification, -, hlog⟩
  cases hlog

/-- The parser stops at malformed input, and only there, exactly if the reads
are framed. -/
theorem aborts_iff_framed
    {useUtf8 : Bool} {position : Position SftpEvent UInt8}
    {parser : SftpInputParser}
    (hat : AtPosition lib server useUtf8 position parser [])
    (calls : List (List ChildRead)) :
    AbortsMalformed (parser.onProcessEvents lib server [] calls) ↔
      sftpFormat.Framed 4096 position (received calls.flatten) := by
  induction calls generalizing useUtf8 position parser with
  | nil => exact Iff.intro (fun _ => trivial) fun _ => trivial
  | cons reads later ih =>
      have hfate := onData_fate lib server hat reads
      rw [SftpInputParser.onProcessEvents, List.nil_append,
        List.flatten_cons]
      generalize parser.onData lib server reads = call at hfate
      cases hfate with
      | waits useUtf8' sent next after hafter hframed =>
          rw [hframed, ← ih hafter]
          dsimp only
          rw [if_neg (not_not.mpr rfl)]
          refine and_iff_right ?_
          intro before message rest houtputs
          have hmem :
              SftpOutput.log message ∈ sent.map SftpOutput.sendEvent := by
            rw [show sent.map SftpOutput.sendEvent = _ from houtputs]
            exact List.mem_append_right before List.mem_cons_self
          exact absurd hmem log_not_sent
      | closes sent message after unread hmessage hframed =>
          rw [iff_true_right (hframed later.flatten)]
          dsimp only
          rw [if_pos (show Reply.disconnected ≠ Reply.wouldblock by decide)]
          refine ⟨?_, trivial⟩
          intro before other rest houtputs hother
          have hmem :
              SftpOutput.log other ∈
                sent.map SftpOutput.sendEvent ++ [.log message] := by
            rw [show sent.map SftpOutput.sendEvent ++ _ = _ from houtputs]
            exact List.mem_append_right before List.mem_cons_self
          rcases List.mem_append.mp hmem with hin | hin
          · exact absurd hin log_not_sent
          · cases List.mem_singleton.mp hin
            rw [hmessage] at hother
            cases hother
      | loses sent message after unread hmessage hframed =>
          rw [iff_false_right (hframed later.flatten)]
          intro haborts
          have hreply : Reply.wouldblock = Reply.disconnected :=
            (haborts.1 _ message [] rfl hmessage).1
          exact absurd hreply (by decide)

/-- Malformed input is answered by closing the socket exactly when there is
none: as long as every byte at the start of a message is a type, and no read
leaves more than 4096 bytes of a line. -/
theorem malformed_aborts_iff
    (useUtf8 : Bool) (calls : List (List ChildRead)) :
    AbortsMalformed
        ((SftpInputParser.initial useUtf8).onProcessEvents lib server []
          calls) ↔
      sftpFormat.Framed 4096 .idle (received calls.flatten) :=
  aborts_iff_framed lib server
    (show AtPosition lib server useUtf8 .idle _ [] from ⟨rfl, rfl, rfl, rfl⟩)
    calls

end

/-- A letter that is no type; what follows in the pipe is sent as a message
by the next call. -/
theorem unknown_type_goes_on :
    let results :=
      (SftpInputParser.initial true).onProcessEvents byteText sftpServer []
        [[.value [122]], [.value [52, 104, 105, lf]]]
    ¬ AbortsMalformed results ∧
      results.map (fun call => (call.outputs, call.reply)) =
        [([.log (.unknownEventType 74)], Reply.wouldblock),
          ([.sendEvent (.event ⟨.info, [['h', 'i'], []]⟩)],
            Reply.wouldblock)] := by
  refine ⟨?_, by decide +kernel⟩
  intro haborts
  have hreply : Reply.wouldblock = Reply.disconnected :=
    (haborts.1 [] (.unknownEventType 74) [] rfl rfl).1
  exact absurd hreply (by decide)

end TabFtp
