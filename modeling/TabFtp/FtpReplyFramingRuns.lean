import TabFtp.FtpReplyFraming

/-!
# Every reply is parsed once

Replies are sent as lines with runs of separators behind them.  However the
bytes are cut into reads, the buffer always holds what has been read of the
next line, and the lines that are kept are those of the reply that has begun.
-/

namespace TabFtp

namespace FtpReplyFraming

open LabelledRuns LineSocket

universe u

variable {σ : Type u}

/-! ## Replies as they are sent -/

structure WireLine where
  bytes : List UInt8
  run : List UInt8

def WireLine.text (line : WireLine) : List UInt8 :=
  line.bytes ++ line.run

/-- A reply of one line, or one that the other lines precede. -/
structure WireReply where
  preceding : List WireLine
  final : WireLine

def WireReply.wireLines (reply : WireReply) : List WireLine :=
  reply.preceding ++ [reply.final]

def lineBytes (lines : List WireLine) : List UInt8 :=
  lines.flatMap WireLine.text

/-- The bytes of the replies behind some separators. -/
def stream (leading : List UInt8) (replies : List WireReply) : List UInt8 :=
  leading ++ lineBytes (replies.flatMap WireReply.wireLines)

def ReadsAs (env : LineEnv σ) (line : WireLine) (text : WString) : Prop :=
  ∃ useUtf8, text = (convToLocal env.lib env.server useUtf8 line.bytes).1

/-- The reply that is parsed has the lines of the one that is sent. -/
structure Answers (env : LineEnv σ) (sent : WireReply)
    (reply : FramedReply) : Prop where
  response : ReadsAs env sent.final reply.response
  lines : List.Forall₂ (ReadsAs env) sent.preceding reply.lines

structure WireLine.WellFormed (line : WireLine) : Prop where
  bytes_ne_nil : line.bytes ≠ []
  bytes_plain : ∀ byte ∈ line.bytes, isLineEnd byte = false
  short : line.bytes.length < maxLine
  run_ne_nil : line.run ≠ []
  run_ends : ∀ byte ∈ line.run, isLineEnd byte = true

/-- `ddd text`, or `ddd-text` and lines up to `ddd text`. -/
structure WireReply.WellFormed (env : LineEnv σ) (reply : WireReply)
    (code : WString) : Prop where
  digits : code.length = 3 ∧ ∀ char ∈ code, char.isDigit = true
  wellFormed : ∀ line ∈ reply.wireLines, line.WellFormed
  long : ∀ line ∈ reply.wireLines, ∀ text, ReadsAs env line text →
    3 < text.length
  final : ∀ text, ReadsAs env reply.final text →
    text.take 4 = code ++ [' ']
  opening : ∀ line ∈ reply.preceding.head?, ∀ text, ReadsAs env line text →
    text.take 4 = code ++ ['-']
  between : ∀ line ∈ reply.preceding.tail, ∀ text, ReadsAs env line text →
    text.take 4 ≠ code ++ [' ']
  few : reply.preceding.tail.length < maxLines

/-- All replies are well formed. -/
def AllWellFormed (env : LineEnv σ) (replies : List WireReply) : Prop :=
  ∀ reply ∈ replies, ∃ code, reply.WellFormed env code

/-! ## The buffer -/

/-- The lines that are still to be taken, given what is in the buffer and the
bytes to come. -/
inductive Ahead : List UInt8 → List WireLine → List UInt8 → Prop
  | within {part more : List UInt8} {line : WireLine}
      {lines : List WireLine} :
      part ++ more = line.bytes →
      Ahead part (line :: lines) (more ++ line.run ++ lineBytes lines)
  | between {run : List UInt8} {lines : List WireLine} :
      (∀ byte ∈ run, isLineEnd byte = true) →
      Ahead [] lines (run ++ lineBytes lines)

/-! ## The reply that has begun -/

structure Idle (socket : LineSocket σ) : Prop where
  code : socket.multilineResponseCode = []
  lines : socket.multilineResponseLines = []

/-- The lines `seen` of the reply have been kept. -/
structure Within (env : LineEnv σ) (socket : LineSocket σ)
    (reply : WireReply) (code : WString) (seen : List WireLine) : Prop where
  begun : seen ≠ []
  code : socket.multilineResponseCode = code ++ [' ']
  lines : List.Forall₂ (ReadsAs env) seen socket.multilineResponseLines
  past : socket.around.logon.any LogonLines.awaitsWelcome = false

inductive Due (env : LineEnv σ) (socket : LineSocket σ) :
    List WireReply → List WireLine → Prop
  | idle {replies : List WireReply} :
      Idle socket → Due env socket replies
        (replies.flatMap WireReply.wireLines)
  | within {reply : WireReply} {replies : List WireReply} {code : WString}
      {seen left : List WireLine} :
      reply.WellFormed env code → reply.preceding = seen ++ left →
      Within env socket reply code seen →
      Due env socket (reply :: replies)
        (left ++ reply.final :: replies.flatMap WireReply.wireLines)

/-! ## Taking bytes -/

theorem Ahead.push
    {part left : List UInt8} {lines : List WireLine} {byte : UInt8}
    (hahead : Ahead part lines (byte :: left))
    (hgood : ∀ line ∈ lines, line.WellFormed)
    (hbyte : isLineEnd byte = false) :
    Ahead (part ++ [byte]) lines left := by
  generalize hall : byte :: left = all at hahead
  cases hahead with
  | @within _ more line lines hline =>
      cases more with
      | nil =>
          obtain ⟨first, run, hrun⟩ := List.exists_cons_of_ne_nil
            (hgood line List.mem_cons_self).run_ne_nil
          rw [hrun] at hall
          simp only [List.nil_append, List.cons_append, List.cons.injEq]
            at hall
          have hends := (hgood line List.mem_cons_self).run_ends first
            (by rw [hrun]; exact List.mem_cons_self)
          rw [← hall.1, hbyte] at hends
          cases hends
      | cons first more =>
          simp only [List.cons_append, List.cons.injEq] at hall
          obtain ⟨rfl, rfl⟩ := hall
          apply Ahead.within
          simpa using hline
  | @between run lines hrun =>
      cases run with
      | cons first run =>
          simp only [List.cons_append, List.cons.injEq] at hall
          have hends := hrun first List.mem_cons_self
          rw [← hall.1, hbyte] at hends
          cases hends
      | nil =>
          cases lines with
          | nil => cases hall
          | cons line lines =>
              obtain ⟨first, more, hline⟩ := List.exists_cons_of_ne_nil
                (hgood line List.mem_cons_self).bytes_ne_nil
              have hbytes : byte :: left =
                  first :: (more ++ line.run ++ lineBytes lines) := by
                rw [hall]
                simp [lineBytes, WireLine.text, hline]
              rw [List.cons.injEq] at hbytes
              obtain ⟨rfl, rfl⟩ := hbytes
              exact Ahead.within (by simp [hline])

theorem plain_of_more
    {line : WireLine} (hgood : line.WellFormed) {part more : List UInt8}
    {byte : UInt8} (hline : part ++ byte :: more = line.bytes) :
    isLineEnd byte = false := by
  apply hgood.bytes_plain
  rw [← hline]
  simp

theorem Ahead.skip
    {left : List UInt8} {lines : List WireLine} {byte : UInt8}
    (hahead : Ahead [] lines (byte :: left))
    (hgood : ∀ line ∈ lines, line.WellFormed)
    (hbyte : isLineEnd byte = true) :
    Ahead [] lines left := by
  generalize hall : byte :: left = all at hahead
  generalize hpart : ([] : List UInt8) = part at hahead
  cases hahead with
  | @within _ more line lines hline =>
      have hline' := hgood line List.mem_cons_self
      rw [← hpart, List.nil_append] at hline
      obtain ⟨first, rest, hfirst⟩ :=
        List.exists_cons_of_ne_nil hline'.bytes_ne_nil
      rw [hline, hfirst] at hall
      simp only [List.cons_append, List.cons.injEq] at hall
      have hplain := @plain_of_more _ hline' [] _ _ hfirst.symm
      rw [← hall.1, hbyte] at hplain
      cases hplain
  | @between run lines hrun =>
      cases run with
      | cons first run =>
          simp only [List.cons_append, List.cons.injEq] at hall
          obtain ⟨_, rfl⟩ := hall
          exact Ahead.between fun other hother =>
            hrun other (List.mem_cons_of_mem _ hother)
      | nil =>
          cases lines with
          | nil => cases hall
          | cons line lines =>
              have hline' := hgood line List.mem_cons_self
              obtain ⟨first, rest, hfirst⟩ :=
                List.exists_cons_of_ne_nil hline'.bytes_ne_nil
              have hbytes : byte :: left =
                  first :: (rest ++ line.run ++ lineBytes lines) := by
                rw [hall]
                simp [lineBytes, WireLine.text, hfirst]
              rw [List.cons.injEq] at hbytes
              have hplain := @plain_of_more _ hline' [] _ _ hfirst.symm
              rw [← hbytes.1, hbyte] at hplain
              cases hplain

theorem Ahead.take
    {part left : List UInt8} {lines : List WireLine} {byte : UInt8}
    (hahead : Ahead part lines (byte :: left))
    (hgood : ∀ line ∈ lines, line.WellFormed) (hpart : part ≠ [])
    (hbyte : isLineEnd byte = true) :
    ∃ line rest, lines = line :: rest ∧ part = line.bytes ∧
      Ahead [] rest left := by
  generalize hall : byte :: left = all at hahead
  cases hahead with
  | @within _ more line lines hline =>
      have hline' := hgood line List.mem_cons_self
      cases more with
      | cons first more =>
          simp only [List.cons_append, List.cons.injEq] at hall
          have hplain := plain_of_more hline' hline
          rw [← hall.1, hbyte] at hplain
          cases hplain
      | nil =>
          obtain ⟨first, run, hrun⟩ :=
            List.exists_cons_of_ne_nil hline'.run_ne_nil
          rw [hrun] at hall
          simp only [List.nil_append, List.cons_append, List.cons.injEq]
            at hall
          obtain ⟨_, rfl⟩ := hall
          have hends : ∀ other ∈ run, isLineEnd other = true := by
            intro other hother
            apply hline'.run_ends
            rw [hrun]
            exact List.mem_cons_of_mem _ hother
          exact ⟨line, lines, rfl, by simpa using hline, Ahead.between hends⟩
  | between _ => exact absurd rfl hpart

theorem Ahead.short
    {part left : List UInt8} {lines : List WireLine}
    (hahead : Ahead part lines left)
    (hgood : ∀ line ∈ lines, line.WellFormed) :
    part.length < maxLine := by
  cases hahead with
  | @within _ more line lines hline =>
      have hshort := (hgood line List.mem_cons_self).short
      rw [← hline, List.length_append] at hshort
      omega
  | between _ => simp [maxLine]

theorem Ahead.lines_nil
    {part : List UInt8} {lines : List WireLine}
    (hahead : Ahead part lines [])
    (hgood : ∀ line ∈ lines, line.WellFormed) : lines = [] := by
  generalize hall : ([] : List UInt8) = all at hahead
  cases hahead with
  | @within _ more line lines hline =>
      have hrun := (hgood line List.mem_cons_self).run_ne_nil
      simp [hrun] at hall
  | @between run lines hrun =>
      cases lines with
      | nil => rfl
      | cons line lines =>
          have hbytes := (hgood line List.mem_cons_self).bytes_ne_nil
          simp [lineBytes, WireLine.text, hbytes] at hall

/-! ## Taking lines -/

def NotSsh (text : WString) : Prop :=
  (FileTransfer.lowerAscii text).take 3 ≠ "ssh".toList

theorem parseLine_noted (env : LineEnv σ) (socket : LineSocket σ)
    (text : WString)
    (hnoted : socket.around.logon.any LogonLines.awaitsWelcome = false ∨
      NotSsh text) :
    ∃ logon, logon.any LogonLines.awaitsWelcome = false ∧
      LineSocket.parseLine env socket text =
        ((frameLine env
            { socket with around := { socket.around with logon := logon } }
            text).1,
          .line text :: (frameLine env
            { socket with around := { socket.around with logon := logon } }
            text).2) := by
  obtain ⟨⟨connected, useUtf8, current, rest⟩, buffer, code, lines⟩ := socket
  cases current with
  | none => exact ⟨none, rfl, rfl⟩
  | some logon =>
      have hnote : ∃ noted, logon.note text = some noted ∧
          noted.awaitsWelcome = false := by
        unfold LogonLines.note
        by_cases hchallenge : logon.inChallenge = true
        · rw [if_pos hchallenge]
          exact ⟨_, rfl, by simp [LogonLines.awaitsWelcome, hchallenge]⟩
        rw [if_neg hchallenge]
        by_cases hfeat : logon.opState = .feat
        · rw [if_pos hfeat]
          exact ⟨_, rfl, by simp [LogonLines.awaitsWelcome, hfeat]⟩
        rw [if_neg hfeat]
        by_cases hwelcome :
            logon.opState = .welcome ∧ logon.gotFirstWelcomeLine = false
        · rw [if_pos hwelcome]
          have hssh : NotSsh text := by
            rcases hnoted with hpast | hssh
            · simp [LogonLines.awaitsWelcome, hchallenge, hwelcome]
                at hpast
            · exact hssh
          rw [if_neg hssh]
          exact ⟨_, rfl, by simp [LogonLines.awaitsWelcome]⟩
        · rw [if_neg hwelcome]
          refine ⟨_, rfl, ?_⟩
          by_contra hawaits
          simp only [LogonLines.awaitsWelcome, Bool.not_eq_false,
            Bool.and_eq_true, Bool.not_eq_true', beq_iff_eq] at hawaits
          exact hwelcome ⟨hawaits.1.2, hawaits.2⟩
      obtain ⟨noted, hnote, hpast⟩ := hnote
      refine ⟨some noted, hpast, ?_⟩
      simp only [LineSocket.parseLine, hnote]

theorem take_code {text code : WString} {char : Char}
    (hcode : code.length = 3) (htext : text.take 4 = code ++ [char]) :
    text.take 3 = code ∧ (text.drop 3).head? = some char := by
  have hshort : text.take 3 = (text.take 4).take 3 := by
    rw [List.take_take]
    rfl
  have hnext : (text.drop 3).head? = ((text.take 4).drop 3).head? := by
    rw [List.drop_take]
    cases text.drop 3 <;> rfl
  rw [hshort, hnext, htext, List.take_left' hcode, List.drop_left' hcode]
  exact ⟨rfl, rfl⟩

theorem tolowerAscii_of_isDigit {char : Char} (hdigit : char.isDigit = true) :
    FileTransfer.tolowerAscii char = char := by
  have hvalue : char.val ≤ 57 := by
    simp only [Char.isDigit, Bool.and_eq_true, decide_eq_true_eq] at hdigit
    exact hdigit.2
  have hupper : ¬ (char.val ≥ 65 ∧ char.val ≤ 90) := by
    intro hrange
    have hle := UInt32.le_trans hrange.1 hvalue
    exact absurd hle (by decide)
  have hplain : ¬ (char.toNat = 0x130 ∨ char.toNat = 0x131) := by
    have hle : char.toNat ≤ 57 := UInt32.le_iff_toNat_le.mp hvalue
    omega
  rw [FileTransfer.tolowerAscii, if_neg hplain]
  exact dif_neg hupper

theorem notSsh_of_digits {text code : WString} {char : Char}
    (hdigits : code.length = 3 ∧ ∀ char ∈ code, char.isDigit = true)
    (htext : text.take 4 = code ++ [char]) : NotSsh text := by
  intro hssh
  rw [FileTransfer.lowerAscii, ← List.map_take,
    (take_code hdigits.1 htext).1] at hssh
  obtain ⟨first, rest, hcode⟩ : ∃ first rest, code = first :: rest := by
    apply List.exists_cons_of_ne_nil
    rintro rfl
    simp at hdigits
  have hdigit := hdigits.2 first (by rw [hcode]; exact List.mem_cons_self)
  have hfirst : FileTransfer.tolowerAscii first = 's' := by
    rw [hcode] at hssh
    exact (List.cons.inj hssh).1
  rw [tolowerAscii_of_isDigit hdigit] at hfirst
  rw [hfirst] at hdigit
  revert hdigit
  decide

/-- What a line comes to: the reply goes on, or it is complete and handed to
`ParseResponse`. -/
inductive Framed (env : LineEnv σ) (replies : List WireReply)
    (lines : List WireLine) (buffer : List UInt8) :
    LineSocket σ × List Output → Prop
  | goesOn {socket : LineSocket σ} :
      socket.around.connected = true → socket.receiveBuffer = buffer →
      Due env socket replies lines →
      Framed env replies lines buffer (socket, [])
  | complete {socket : LineSocket σ} {around : Surroundings σ}
      {sent : WireReply} {rest : List WireReply} {reply : FramedReply} :
      replies = sent :: rest → Answers env sent reply →
      around.connected = true →
      env.parseResponse around reply = socket.around →
      (socket.around.connected = true →
        socket.receiveBuffer = buffer ∧ Due env socket rest lines) →
      Framed env replies lines buffer (socket, [.reply reply])

theorem respond_spec (env : LineEnv σ) (socket : LineSocket σ)
    (text : WString) (hidle : socket.multilineResponseCode = []) :
    (respond env socket text).2 =
        [.reply ⟨text, socket.multilineResponseLines⟩] ∧
      env.parseResponse socket.around ⟨text, socket.multilineResponseLines⟩ =
        (respond env socket text).1.around ∧
      ((respond env socket text).1.around.connected = true →
        (respond env socket text).1.receiveBuffer = socket.receiveBuffer ∧
          (respond env socket text).1.multilineResponseCode = [] ∧
          (respond env socket text).1.multilineResponseLines =
            socket.multilineResponseLines) := by
  refine ⟨rfl, (surround_around _ _).symm, ?_⟩
  intro hconnected
  simp only [respond, surround] at hconnected ⊢
  split at hconnected
  · rename_i hopen
    rw [if_pos hopen]
    exact ⟨rfl, hidle, rfl⟩
  · cases hconnected

theorem frameLine_begins
    {env : LineEnv σ} {socket : LineSocket σ} {reply : WireReply}
    {replies : List WireReply} {line : WireLine} {lines : List WireLine}
    {text code : WString}
    (hconnected : socket.around.connected = true)
    (hpast : socket.around.logon.any LogonLines.awaitsWelcome = false)
    (hidle : Idle socket) (hreply : reply.WellFormed env code)
    (hall : line :: lines = (reply :: replies).flatMap WireReply.wireLines)
    (htext : ReadsAs env line text) :
    Framed env (reply :: replies) lines socket.receiveBuffer
      (frameLine env socket text) := by
  obtain ⟨preceding, final⟩ := reply
  cases preceding with
  | nil =>
      rw [List.flatMap_cons, WireReply.wireLines] at hall
      simp only [List.nil_append, List.cons_append, List.cons.injEq] at hall
      obtain ⟨rfl, rfl⟩ := hall
      have hlong := hreply.long line (by simp [WireReply.wireLines]) text htext
      have htake := hreply.final text htext
      have hnext := (take_code hreply.digits.1 htake).2
      obtain ⟨houtput, haround, hafter⟩ :=
        respond_spec env socket text hidle.code
      have hframe : frameLine env socket text = respond env socket text := by
        rw [frameLine, if_neg (by omega), if_neg (by simp [hidle.code]),
          if_neg (by simp [hnext])]
      rw [hframe, ← Prod.mk.eta (p := respond env socket text), houtput]
      have hanswers : Answers env ⟨[], line⟩
          ⟨text, socket.multilineResponseLines⟩ := by
        constructor
        · exact htext
        · rw [hidle.lines]
          exact List.Forall₂.nil
      refine Framed.complete rfl hanswers hconnected ?_ ?_
      · exact haround
      · intro hopen
        obtain ⟨hbuffer, hcode, hlines⟩ := hafter hopen
        rw [hidle.lines] at hlines
        exact ⟨hbuffer, Due.idle ⟨hcode, hlines⟩⟩
  | cons first inner =>
      rw [List.flatMap_cons, WireReply.wireLines] at hall
      simp only [List.cons_append, List.cons.injEq] at hall
      obtain ⟨rfl, rfl⟩ := hall
      have hlong := hreply.long line (by simp [WireReply.wireLines]) text htext
      have htake := hreply.opening line rfl text htext
      obtain ⟨hcode, hnext⟩ := take_code hreply.digits.1 htake
      rw [frameLine, if_neg (by omega), if_neg (by simp [hidle.code]),
        if_pos hnext, hcode, hidle.lines, List.nil_append]
      have hwithin : Within env
          { socket with
            multilineResponseCode := code ++ [' ']
            multilineResponseLines := [text] }
          ⟨line :: inner, final⟩ code [line] := by
        constructor
        · exact List.cons_ne_nil _ _
        · rfl
        · exact List.Forall₂.cons htext List.Forall₂.nil
        · exact hpast
      have hdue := @Due.within _ env _ ⟨line :: inner, final⟩ replies code
        [line] inner hreply rfl hwithin
      have hleft : inner ++ [final] ++ replies.flatMap WireReply.wireLines =
          inner ++ final :: replies.flatMap WireReply.wireLines := by simp
      rw [hleft]
      exact Framed.goesOn hconnected rfl hdue

theorem frameLine_within
    {env : LineEnv σ} {socket : LineSocket σ} {reply : WireReply}
    {replies : List WireReply} {line : WireLine} {lines : List WireLine}
    {seen left : List WireLine} {text code : WString}
    (hconnected : socket.around.connected = true)
    (hpast : socket.around.logon.any LogonLines.awaitsWelcome = false)
    (hreply : reply.WellFormed env code)
    (hseen : reply.preceding = seen ++ left)
    (hwithin : Within env socket reply code seen)
    (hall : line :: lines =
      left ++ reply.final :: replies.flatMap WireReply.wireLines)
    (htext : ReadsAs env line text) :
    Framed env (reply :: replies) lines socket.receiveBuffer
      (frameLine env socket text) := by
  have hbegun : socket.multilineResponseCode ≠ [] := by
    rw [hwithin.code]
    simp
  cases left with
  | nil =>
      simp only [List.nil_append, List.cons.injEq] at hall
      obtain ⟨rfl, rfl⟩ := hall
      have hlong := hreply.long reply.final (by simp [WireReply.wireLines])
        text htext
      have hclosing : text.take 4 = socket.multilineResponseCode := by
        rw [hwithin.code]
        exact hreply.final text htext
      obtain ⟨houtput, haround, hafter⟩ := respond_spec env
        { socket with multilineResponseCode := [] } text rfl
      rw [frameLine, if_neg (by omega), if_pos hbegun, if_pos hclosing]
      simp only [houtput]
      have hanswers : Answers env reply
          ⟨text, socket.multilineResponseLines⟩ := by
        constructor
        · exact htext
        · rw [hseen, List.append_nil]
          exact hwithin.lines
      refine Framed.complete rfl hanswers hconnected ?_ ?_
      · exact haround
      · intro hopen
        obtain ⟨hbuffer, hcode, _⟩ := hafter hopen
        exact ⟨hbuffer, Due.idle ⟨hcode, rfl⟩⟩
  | cons next left =>
      simp only [List.cons_append, List.cons.injEq] at hall
      obtain ⟨rfl, rfl⟩ := hall
      have hmem : line ∈ reply.preceding := by
        rw [hseen]
        simp
      obtain ⟨first, kept, rfl⟩ := List.exists_cons_of_ne_nil hwithin.begun
      have htail : reply.preceding.tail = kept ++ line :: left := by
        rw [hseen]
        rfl
      have hlong := hreply.long line
        (List.mem_append_left _ hmem) text htext
      have hother : text.take 4 ≠ socket.multilineResponseCode := by
        rw [hwithin.code]
        exact hreply.between line (by rw [htail]; simp) text htext
      have hroom : socket.multilineResponseLines.length < maxLines := by
        have hfew := hreply.few
        rw [htail] at hfew
        have hlength := hwithin.lines.length_eq
        simp only [List.length_append, List.length_cons] at hfew hlength
        omega
      rw [frameLine, if_neg (by omega), if_pos hbegun, if_neg hother,
        if_pos hroom]
      have hnext : Within env
          { socket with
            multilineResponseLines :=
              socket.multilineResponseLines ++ [text] }
          reply code (first :: kept ++ [line]) := by
        constructor
        · simp
        · exact hwithin.code
        · exact List.rel_append hwithin.lines
            (List.Forall₂.cons htext List.Forall₂.nil)
        · exact hpast
      have hsplit : reply.preceding = first :: kept ++ [line] ++ left := by
        simp [hseen]
      exact Framed.goesOn hconnected rfl (Due.within hreply hsplit hnext)

theorem frameLine_due
    {env : LineEnv σ} {socket : LineSocket σ} {replies : List WireReply}
    {line : WireLine} {lines : List WireLine} {text : WString}
    (hgood : AllWellFormed env replies)
    (hconnected : socket.around.connected = true)
    (hpast : socket.around.logon.any LogonLines.awaitsWelcome = false)
    (hdue : Due env socket replies (line :: lines))
    (htext : ReadsAs env line text) :
    Framed env replies lines socket.receiveBuffer
      (frameLine env socket text) := by
  generalize hall : line :: lines = all at hdue
  cases hdue with
  | @idle replies hidle =>
      cases replies with
      | nil => cases hall
      | cons reply replies =>
          obtain ⟨code, hreply⟩ := hgood reply List.mem_cons_self
          exact frameLine_begins hconnected hpast hidle hreply hall htext
  | @within reply replies code seen left hreply hseen hwithin =>
      exact frameLine_within hconnected hpast hreply hseen hwithin hall htext

/-! ## Runs -/

/-- The connection has been closed by what the surroundings did last: by
`ParseResponse` with the last reply, or by the last event. -/
def ClosedAround (env : LineEnv σ) (last : Option (Input σ))
    (result : LineSocket σ × List Output) : Prop :=
  (∃ around reply, (repliesOf result.2).getLast? = some reply ∧
      around.connected = true ∧
      env.parseResponse around reply = result.1.around) ∨
    last = some (.happen result.1.around)

/-- What has been done with the bytes in front of `left`: replies have been
parsed in order, and the rest is still to come if the connection stays. -/
structure Progress (env : LineEnv σ) (replies : List WireReply)
    (left : List UInt8) (last : Option (Input σ))
    (result : LineSocket σ × List Output) : Prop where
  held : .gaveUp ∉ result.2
  closed : result.1.around.connected = false → ClosedAround env last result
  parsed : ∃ done rest, replies = done ++ rest ∧
    List.Forall₂ (Answers env) done (repliesOf result.2) ∧
    (result.1.around.connected = true →
      ∃ lines, Ahead result.1.receiveBuffer lines left ∧
        Due env result.1 rest lines)

theorem Due.wellFormed
    {env : LineEnv σ} {socket : LineSocket σ} {replies : List WireReply}
    {lines : List WireLine} (hgood : AllWellFormed env replies)
    (hdue : Due env socket replies lines) :
    ∀ line ∈ lines, line.WellFormed := by
  intro line hline
  have hreply : ∃ reply ∈ replies, line ∈ reply.wireLines := by
    cases hdue with
    | idle _ => exact List.mem_flatMap.mp hline
    | @within reply replies _ seen left _ hseen _ =>
        rw [List.append_cons, List.mem_append] at hline
        rcases hline with hline | hline
        · refine ⟨reply, List.mem_cons_self, ?_⟩
          rw [WireReply.wireLines, hseen, List.append_assoc]
          exact List.mem_append_right _ hline
        · obtain ⟨other, hother, hmem⟩ := List.mem_flatMap.mp hline
          exact ⟨other, List.mem_cons_of_mem _ hother, hmem⟩
  obtain ⟨reply, hmem, hline⟩ := hreply
  obtain ⟨code, hwell⟩ := hgood reply hmem
  exact hwell.wellFormed line hline

theorem Due.replies_nil
    {env : LineEnv σ} {socket : LineSocket σ} {replies : List WireReply}
    (hdue : Due env socket replies []) : replies = [] := by
  generalize hempty : ([] : List WireLine) = empty at hdue
  cases hdue with
  | idle _ =>
      cases replies with
      | nil => rfl
      | cons reply replies => simp [WireReply.wireLines] at hempty
  | within _ _ _ => simp at hempty

theorem Due.congr
    {env : LineEnv σ} {socket : LineSocket σ} {replies : List WireReply}
    {lines : List WireLine} (hdue : Due env socket replies lines)
    (other : LineSocket σ)
    (hcode : other.multilineResponseCode = socket.multilineResponseCode)
    (hlines : other.multilineResponseLines = socket.multilineResponseLines)
    (hlogon : other.around.logon.any LogonLines.awaitsWelcome = true →
      socket.around.logon.any LogonLines.awaitsWelcome = true) :
    Due env other replies lines := by
  cases hdue with
  | idle hidle =>
      exact Due.idle ⟨hcode.trans hidle.code, hlines.trans hidle.lines⟩
  | @within reply _ code seen _ hreply hseen hwithin =>
      have hnext : Within env other reply code seen := by
        constructor
        · exact hwithin.begun
        · exact hcode.trans hwithin.code
        · rw [hlines]
          exact hwithin.lines
        · by_contra hawaits
          rw [Bool.not_eq_false] at hawaits
          have hbefore := hlogon hawaits
          rw [hwithin.past] at hbefore
          cases hbefore
      exact Due.within hreply hseen hnext

theorem Due.noted
    {env : LineEnv σ} {socket : LineSocket σ} {replies : List WireReply}
    {line : WireLine} {lines : List WireLine} {text : WString}
    (hgood : AllWellFormed env replies)
    (hdue : Due env socket replies (line :: lines))
    (htext : ReadsAs env line text) :
    socket.around.logon.any LogonLines.awaitsWelcome = false ∨
      NotSsh text := by
  generalize hall : line :: lines = all at hdue
  cases hdue with
  | within _ _ hwithin => exact Or.inl hwithin.past
  | @idle replies hidle =>
      right
      cases replies with
      | nil => cases hall
      | cons reply replies =>
          obtain ⟨code, hreply⟩ := hgood reply List.mem_cons_self
          obtain ⟨preceding, final⟩ := reply
          rw [List.flatMap_cons, WireReply.wireLines] at hall
          cases preceding with
          | nil =>
              simp only [List.nil_append, List.cons_append,
                List.cons.injEq] at hall
              obtain ⟨rfl, _⟩ := hall
              exact notSsh_of_digits hreply.digits (hreply.final text htext)
          | cons first inner =>
              simp only [List.cons_append, List.cons.injEq] at hall
              obtain ⟨rfl, _⟩ := hall
              exact notSsh_of_digits hreply.digits
                (hreply.opening line rfl text htext)

theorem takeLine_due
    {env : LineEnv σ} {socket : LineSocket σ} {replies : List WireReply}
    {line : WireLine} {lines : List WireLine} (rest : List UInt8)
    (hgood : AllWellFormed env replies)
    (hconnected : socket.around.connected = true)
    (hdue : Due env socket replies (line :: lines)) :
    ∃ text framed, Framed env replies lines rest framed ∧
      LineSocket.takeLine env socket line.bytes rest =
        (framed.1, .line text :: framed.2) := by
  let converted := convToLocal env.lib env.server socket.around.useUtf8
    line.bytes
  let current : LineSocket σ :=
    { socket with
      receiveBuffer := rest
      around := { socket.around with useUtf8 := converted.2 } }
  have htext : ReadsAs env line converted.1 := ⟨_, rfl⟩
  have hcurrent : Due env current replies (line :: lines) :=
    hdue.congr current rfl rfl id
  obtain ⟨logon, hpast, hparse⟩ := parseLine_noted env current converted.1
    (hcurrent.noted hgood htext)
  let noted : LineSocket σ :=
    { current with around := { current.around with logon := logon } }
  have hnoted : Due env noted replies (line :: lines) := by
    apply hcurrent.congr noted rfl rfl
    intro hawaits
    have hfalse : logon.any LogonLines.awaitsWelcome = true := hawaits
    rw [hpast] at hfalse
    cases hfalse
  have hopen : noted.around.connected = true := hconnected
  have hframed := frameLine_due hgood hopen hpast hnoted htext
  exact ⟨converted.1, _, hframed, hparse⟩

theorem repliesOf_append (first second : List Output) :
    repliesOf (first ++ second) = repliesOf first ++ repliesOf second :=
  List.filterMap_append

theorem Progress.after
    {env : LineEnv σ} {done rest : List WireReply} {left : List UInt8}
    {last : Option (Input σ)} {outputs : List Output}
    {result : LineSocket σ × List Output}
    (hheld : .gaveUp ∉ outputs)
    (hdone : List.Forall₂ (Answers env) done (repliesOf outputs))
    (hnext : Progress env rest left last result) :
    Progress env (done ++ rest) left last
      (result.1, outputs ++ result.2) := by
  obtain ⟨later, remaining, hrest, hlater, hstays⟩ := hnext.parsed
  constructor
  · intro hmem
    rcases List.mem_append.mp hmem with hmem | hmem
    · exact hheld hmem
    · exact hnext.held hmem
  · intro hclosed
    rcases hnext.closed hclosed with ⟨around, reply, hlast, hclose⟩ | hlast
    · refine Or.inl ⟨around, reply, ?_, hclose⟩
      rw [repliesOf_append, List.getLast?_append, hlast]
      rfl
    · exact Or.inr hlast
  · refine ⟨done ++ later, remaining, by rw [hrest, List.append_assoc], ?_,
      hstays⟩
    rw [repliesOf_append]
    exact List.rel_append hdone hlater

theorem Progress.start
    {env : LineEnv σ} {socket : LineSocket σ} {replies : List WireReply}
    {lines : List WireLine} {left : List UInt8} {last : Option (Input σ)}
    (hconnected : socket.around.connected = true)
    (hahead : Ahead socket.receiveBuffer lines left)
    (hdue : Due env socket replies lines) :
    Progress env replies left last (socket, []) where
  held := List.not_mem_nil
  closed := fun hclosed => by
    rw [hconnected] at hclosed
    cases hclosed
  parsed := ⟨[], replies, rfl, List.Forall₂.nil,
    fun _ => ⟨lines, hahead, hdue⟩⟩

theorem AllWellFormed.rest
    {env : LineEnv σ} {done rest : List WireReply}
    (hgood : AllWellFormed env (done ++ rest)) : AllWellFormed env rest :=
  fun reply hreply => hgood reply (List.mem_append_right _ hreply)

theorem scan_progress (last : Option (Input σ))
    {env : LineEnv σ} {socket : LineSocket σ} {replies : List WireReply}
    {lines : List WireLine} {part bytes left : List UInt8}
    (hgood : AllWellFormed env replies)
    (hconnected : socket.around.connected = true)
    (hahead : Ahead part lines (bytes ++ left))
    (hdue : Due env socket replies lines) :
    Progress env replies left last (scan env socket part bytes) := by
  induction bytes generalizing socket replies lines part with
  | nil =>
      let kept : LineSocket σ := { socket with receiveBuffer := part }
      have hkept : Due env kept replies lines := hdue.congr kept rfl rfl id
      exact Progress.start hconnected hahead hkept
  | cons byte bytes ih =>
      rw [List.cons_append] at hahead
      have hlines := hdue.wellFormed hgood
      cases hbyte : isLineEnd byte with
      | false =>
          rw [scan, if_neg (by simp [hbyte])]
          exact ih hgood hconnected (hahead.push hlines hbyte) hdue
      | true =>
          rw [scan, if_pos hbyte]
          by_cases hpart : part = []
          · rw [if_pos hpart]
            rw [hpart] at hahead
            exact ih hgood hconnected (hahead.skip hlines hbyte) hdue
          rw [if_neg hpart]
          obtain ⟨line, rest, rfl, rfl, hnext⟩ :=
            hahead.take hlines hpart hbyte
          obtain ⟨text, framed, hframed, htaken⟩ :=
            takeLine_due bytes hgood hconnected hdue
          simp only [htaken]
          cases hframed with
          | @goesOn socket hopen _ hdue =>
              rw [if_pos hopen]
              have hlater := ih hgood hopen hnext hdue
              have hnone : List.Forall₂ (Answers env) []
                  (repliesOf [.line text]) := List.Forall₂.nil
              exact Progress.after (by simp) hnone hlater
          | @complete socket around sent later reply hreplies hanswers hbefore
              haround hstays =>
              rw [hreplies] at hgood ⊢
              have hdone : List.Forall₂ (Answers env) [sent]
                  (repliesOf [.line text, .reply reply]) :=
                List.Forall₂.cons hanswers List.Forall₂.nil
              by_cases hopen : socket.around.connected = true
              · rw [if_pos hopen]
                have hrest : AllWellFormed env later := fun reply hreply =>
                  hgood reply (List.mem_cons_of_mem _ hreply)
                have hlater := ih hrest hopen hnext (hstays hopen).2
                exact Progress.after (by simp) hdone hlater
              · rw [if_neg hopen]
                constructor
                · simp
                · exact fun _ => Or.inl ⟨around, reply, rfl, hbefore, haround⟩
                · exact ⟨[sent], later, rfl, hdone,
                    fun hconn => absurd hconn hopen⟩

theorem addRead_progress (last : Option (Input σ))
    {env : LineEnv σ} {socket : LineSocket σ} {replies : List WireReply}
    {lines : List WireLine} {read left : List UInt8}
    (hgood : AllWellFormed env replies)
    (hconnected : socket.around.connected = true)
    (hahead : Ahead socket.receiveBuffer lines (read ++ left))
    (hdue : Due env socket replies lines) :
    Progress env replies left last (addRead env socket read) := by
  have hscan := scan_progress last hgood hconnected hahead hdue
  have hroom : ¬ ((scan env socket socket.receiveBuffer read).1.around.connected
      = true ∧ (scan env socket socket.receiveBuffer
        read).1.receiveBuffer.length = maxLine) := by
    rintro ⟨hopen, hfull⟩
    obtain ⟨done, rest, hreplies, _, hstays⟩ := hscan.parsed
    obtain ⟨lines, hahead, hdue⟩ := hstays hopen
    rw [hreplies] at hgood
    have hshort := hahead.short (hdue.wellFormed hgood.rest)
    omega
  rw [addRead, if_neg hroom]
  exact hscan

theorem onReceive_progress
    {env : LineEnv σ} {fuel : ℕ} {socket : LineSocket σ}
    {replies : List WireReply} {lines : List WireLine}
    {available left : List UInt8} {last : Option (Input σ)}
    (hfuel : available.length ≤ fuel)
    (hgood : AllWellFormed env replies)
    (hconnected : socket.around.connected = true)
    (hahead : Ahead socket.receiveBuffer lines (available ++ left))
    (hdue : Due env socket replies lines) :
    Progress env replies left last
      (onReceive env fuel socket available) := by
  induction fuel generalizing socket replies lines available with
  | zero =>
      have hnil : available = [] := List.length_eq_zero_iff.mp (by omega)
      rw [hnil] at hahead
      exact Progress.start hconnected hahead hdue
  | succ fuel ih =>
      rw [onReceive]
      by_cases hnil : available = []
      · rw [if_pos hnil]
        rw [hnil] at hahead
        exact Progress.start hconnected hahead hdue
      rw [if_neg hnil]
      have hshort := hahead.short (hdue.wellFormed hgood)
      generalize htoRead : maxLine - socket.receiveBuffer.length = toRead
      have hsplit : available ++ left =
          available.take toRead ++ (available.drop toRead ++ left) := by
        rw [← List.append_assoc, List.take_append_drop]
      rw [hsplit] at hahead
      have hadded := addRead_progress last hgood hconnected hahead hdue
      obtain ⟨done, rest, hreplies, hdone, hstays⟩ := hadded.parsed
      simp only
      by_cases hopen : (addRead env socket
          (available.take toRead)).1.around.connected = true
      · rw [if_pos hopen]
        obtain ⟨lines, hnext, hdue⟩ := hstays hopen
        rw [hreplies] at hgood ⊢
        have hless : (available.drop toRead).length ≤ fuel := by
          have hpos := List.length_pos_iff.mpr hnil
          rw [List.length_drop]
          omega
        exact Progress.after hadded.held hdone
          (ih hless hgood.rest hopen hnext hdue)
      · rw [if_neg hopen]
        constructor
        · exact hadded.held
        · exact hadded.closed
        · exact ⟨done, rest, hreplies, hdone,
            fun hconn => absurd hconn hopen⟩

theorem receivedBytes_append (first second : List (Input σ)) :
    receivedBytes (first ++ second) =
      receivedBytes first ++ receivedBytes second :=
  List.flatMap_append

theorem step_progress
    {env : LineEnv σ} {socket following : LineSocket σ} {input : Input σ}
    {answer : List Output} {replies : List WireReply}
    {lines : List WireLine} {left : List UInt8}
    (hgood : AllWellFormed env replies)
    (hahead : Ahead socket.receiveBuffer lines
      (receivedBytes [input] ++ left))
    (hdue : Due env socket replies lines)
    (hstep : step env socket input = some (following, answer)) :
    Progress env replies left (some input) (following, answer) := by
  cases input with
  | arrive bytes =>
      simp only [step] at hstep
      split at hstep
      · rename_i hconnected
        rw [Option.some.injEq] at hstep
        rw [← hstep]
        have harrived : receivedBytes ([.arrive bytes] : List (Input σ)) =
            bytes := List.append_nil bytes
        rw [harrived] at hahead
        exact onReceive_progress le_rfl hgood hconnected hahead hdue
      · cases hstep
  | happen around =>
      simp only [step] at hstep
      split at hstep
      · rename_i henabled
        simp only [Option.some.injEq, Prod.mk.injEq] at hstep
        obtain ⟨rfl, rfl⟩ := hstep
        by_cases hopen : around.connected = true
        · rw [surround, if_pos hopen]
          exact Progress.start hopen hahead
            (hdue.congr { socket with around := around } rfl rfl henabled.2)
        · have haround := surround_around socket around
          constructor
          · exact List.not_mem_nil
          · intro _
            right
            rw [haround]
          · exact ⟨[], replies, rfl, List.Forall₂.nil, fun hconn => by
              rw [haround] at hconn
              exact absurd hconn hopen⟩
      · cases hstep

theorem connection_due (env : LineEnv σ) (around : Surroundings σ)
    (replies : List WireReply) :
    Due env (connection around) replies
      (replies.flatMap WireReply.wireLines) :=
  Due.idle ⟨rfl, rfl⟩

theorem step_connected
    {env : LineEnv σ} {socket following : LineSocket σ} {input : Input σ}
    {answer : List Output}
    (hstep : step env socket input = some (following, answer)) :
    socket.around.connected = true := by
  cases input with
  | arrive bytes =>
      simp only [step] at hstep
      split at hstep
      · assumption
      · cases hstep
  | happen around =>
      simp only [step] at hstep
      split at hstep
      · rename_i henabled
        exact henabled.1
      · cases hstep

/-- How far a run has come when this much is left of the stream. -/
theorem reaches_progress
    {env : LineEnv σ} {leading : List UInt8} {replies : List WireReply}
    (hleading : ∀ byte ∈ leading, isLineEnd byte = true)
    (hgood : AllWellFormed env replies)
    {inputs : List (Input σ)} {outputs : List Output}
    {socket : LineSocket σ}
    (hreach : (machine env).Reaches inputs outputs socket) :
    ∀ left, receivedBytes inputs ++ left = stream leading replies →
      Progress env replies left inputs.getLast? (socket, outputs) := by
  apply hreach.history (fun inputs outputs socket =>
    ∀ left, receivedBytes inputs ++ left = stream leading replies →
      Progress env replies left inputs.getLast? (socket, outputs))
  · rintro state ⟨around, hopen, rfl⟩ left hleft
    have hstream : left = stream leading replies := hleft
    rw [hstream]
    exact Progress.start hopen (Ahead.between hleading)
      (connection_due env around replies)
  · intro inputs outputs state input following answer ih _ hstep left hleft
    rw [receivedBytes_append, List.append_assoc] at hleft
    have hbefore := ih _ hleft
    obtain ⟨done, rest, rfl, hdone, hstays⟩ := hbefore.parsed
    obtain ⟨lines, hahead, hdue⟩ := hstays (step_connected hstep)
    rw [List.getLast?_concat]
    exact Progress.after hbefore.held hdone
      (step_progress hgood.rest hahead hdue hstep)

/-- However the replies are cut into reads and whatever happens in between,
`ParseResponse` is called for them in order, each with its own lines, and for
all of them unless `ParseResponse` of the last one or the last event has
closed the connection. -/
theorem replies_framed
    (env : LineEnv σ) {leading : List UInt8} {replies : List WireReply}
    (hleading : ∀ byte ∈ leading, isLineEnd byte = true)
    (hgood : AllWellFormed env replies)
    {inputs : List (Input σ)} {outputs : List Output}
    {socket : LineSocket σ}
    (hreach : (machine env).Reaches inputs outputs socket)
    (hreceived : receivedBytes inputs <+: stream leading replies) :
    .gaveUp ∉ outputs ∧
      (socket.around.connected = false →
        ClosedAround env inputs.getLast? (socket, outputs)) ∧
      ∃ done rest, replies = done ++ rest ∧
        List.Forall₂ (Answers env) done (repliesOf outputs) ∧
        (receivedBytes inputs = stream leading replies →
          rest = [] ∨ socket.around.connected = false) := by
  obtain ⟨left, hleft⟩ := hreceived
  have hprogress := reaches_progress hleading hgood hreach left hleft
  obtain ⟨done, rest, rfl, hdone, hstays⟩ := hprogress.parsed
  refine ⟨hprogress.held, hprogress.closed, done, rest, rfl, hdone, ?_⟩
  intro hall
  by_cases hopen : socket.around.connected = true
  · obtain ⟨lines, hahead, hdue⟩ := hstays hopen
    have hnil : left = [] := by
      rw [hall] at hleft
      simpa using hleft
    rw [hnil] at hahead
    have hlines := hahead.lines_nil (hdue.wellFormed hgood.rest)
    rw [hlines] at hdue
    exact Or.inl (hdue.replies_nil)
  · exact Or.inr (Bool.not_eq_true _ ▸ hopen)

def asciiText : LocalText where
  fromUtf8 bytes := bytes.map fun byte => Char.ofNat byte.toNat
  toLocal _ bytes := bytes.map fun byte => Char.ofNat byte.toNat
  toWString _ := []
  toIntegral _ := 0

def asciiEnv : LineEnv Unit where
  lib := asciiText
  server :=
    ⟨.ftp, .default, "ftp.example.com".toList, [], 21, 0, .default, false,
      .auto, [], [], []⟩
  parseResponse around _ := around

def asciiLine (text : String) : WireLine :=
  ⟨text.toList.map fun char => UInt8.ofNat char.toNat, [13, 10]⟩

theorem readsAs_ascii {line : WireLine} {text : WString}
    (hreads : ReadsAs asciiEnv line text) :
    text = line.bytes.map fun byte => Char.ofNat byte.toNat := by
  obtain ⟨useUtf8, rfl⟩ := hreads
  obtain ⟨bytes, run⟩ := line
  cases bytes with
  | nil => rfl
  | cons byte bytes =>
      cases useUtf8
      · rfl
      · rfl

def greetings : List WireReply :=
  [⟨[asciiLine "220-Hi"], asciiLine "220 ok"⟩, ⟨[], asciiLine "331 pw"⟩]

theorem greetings_wellFormed : AllWellFormed asciiEnv greetings := by
  have hline : ∀ text ∈ ["220-Hi", "220 ok", "331 pw"],
      (asciiLine text).WellFormed := by
    intro text htext
    simp only [List.mem_cons, List.not_mem_nil, or_false] at htext
    have hplain : ∀ {bytes : List UInt8}, bytes.all (!isLineEnd ·) = true →
        ∀ byte ∈ bytes, isLineEnd byte = false := by
      intro bytes hall byte hbyte
      simpa using List.all_eq_true.mp hall byte hbyte
    rcases htext with rfl | rfl | rfl <;>
      exact ⟨by decide, hplain (by decide), by decide, by decide,
        List.all_eq_true.mp (by decide)⟩
  have hlong : ∀ line ∈ ["220-Hi", "220 ok", "331 pw"].map asciiLine,
      ∀ text, ReadsAs asciiEnv line text → 3 < text.length := by
    intro line hmem text htext
    simp only [List.map_cons, List.map_nil, List.mem_cons, List.not_mem_nil,
      or_false] at hmem
    rw [readsAs_ascii htext]
    rcases hmem with rfl | rfl | rfl <;> decide
  intro reply hreply
  simp only [greetings, List.mem_cons, List.not_mem_nil, or_false] at hreply
  rcases hreply with rfl | rfl
  · refine ⟨"220".toList, ⟨⟨rfl, by simp⟩, ?_, ?_, ?_, ?_, by simp, by decide⟩⟩
    · intro line hmem
      simp only [WireReply.wireLines, List.singleton_append, List.mem_cons,
        List.not_mem_nil, or_false] at hmem
      rcases hmem with rfl | rfl
      · exact hline _ (by simp)
      · exact hline _ (by simp)
    · intro line hmem
      simp only [WireReply.wireLines, List.singleton_append, List.mem_cons,
        List.not_mem_nil, or_false] at hmem
      rcases hmem with rfl | rfl
      · exact hlong _ (by simp)
      · exact hlong _ (by simp)
    · intro text htext
      rw [readsAs_ascii htext]
      decide
    · intro line hmem text htext
      obtain rfl : asciiLine "220-Hi" = line := by simpa using hmem
      rw [readsAs_ascii htext]
      decide
  · refine ⟨"331".toList, ⟨⟨rfl, by simp⟩, ?_, ?_, ?_, by simp, by simp,
      by decide⟩⟩
    · intro line hmem
      obtain rfl : line = asciiLine "331 pw" := by
        simpa [WireReply.wireLines] using hmem
      exact hline _ (by simp)
    · intro line hmem
      obtain rfl : line = asciiLine "331 pw" := by
        simpa [WireReply.wireLines] using hmem
      exact hlong _ (by simp)
    · intro text htext
      rw [readsAs_ascii htext]
      decide

/-- The first read ends within the first line, the second one within its
separators. -/
theorem replies_framed_greetings :
    ∃ (inputs : List (Input Unit)) (outputs : List Output)
      (socket : LineSocket Unit) (first second : FramedReply),
      (machine asciiEnv).Reaches inputs outputs socket ∧
        inputs.length = 3 ∧
        receivedBytes inputs = stream [] greetings ∧
        repliesOf outputs = [first, second] ∧
        first.lines.length = 1 ∧ second.lines = [] ∧
        List.Forall₂ (Answers asciiEnv) greetings (repliesOf outputs) := by
  let around : Surroundings Unit := ⟨true, true, none, ()⟩
  let bytes := stream [] greetings
  have hstart : (machine asciiEnv).Reaches [] [] (connection around) :=
    .start ⟨around, rfl, rfl⟩
  have hexec : ((machine asciiEnv).exec (fun _ _ => True)
      (connection around)
      [.arrive (bytes.take 4), .arrive ((bytes.drop 4).take 3),
        .arrive (bytes.drop 7)]).any (fun result =>
          result.1.around.connected && decide (repliesOf result.2 =
            [⟨"220 ok".toList, ["220-Hi".toList]⟩,
              ⟨"331 pw".toList, []⟩])) = true := by
    decide +kernel
  obtain ⟨⟨socket, outputs⟩, hexec, hresult⟩ :=
    (Option.any_eq_true _ _).mp hexec
  rw [Bool.and_eq_true, decide_eq_true_eq] at hresult
  have hreceived : receivedBytes ([] ++ [.arrive (bytes.take 4),
      .arrive ((bytes.drop 4).take 3), .arrive (bytes.drop 7)] :
        List (Input Unit)) = stream [] greetings := by
    decide
  have hleading : ∀ byte ∈ ([] : List UInt8), isLineEnd byte = true := by
    simp
  have hreach := hstart.exec hexec
  obtain ⟨_, _, done, rest, hreplies, hanswers, hall⟩ :=
    replies_framed asciiEnv hleading greetings_wellFormed hreach
      (by rw [hreceived])
  have hopen : socket.around.connected = true := hresult.1
  have hrest : rest = [] :=
    (hall hreceived).resolve_right (by rw [hopen]; decide)
  rw [hrest, List.append_nil] at hreplies
  rw [← hreplies] at hanswers
  exact ⟨_, _, _, _, _, hreach, rfl, hreceived, hresult.2, rfl, rfl, hanswers⟩

end FtpReplyFraming

end TabFtp
