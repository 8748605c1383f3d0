import TabFtp.FtpReplyFraming

/-!
# The upgrade of the control connection to TLS

The reply that accepts `AUTH TLS` or `AUTH SSL` makes the logon put a TLS layer
under the control connection.  `OnReceive` goes on with what it has read
together with that reply, which came without protection.
-/

namespace TabFtp

namespace FtpReplyFraming

open LabelledRuns LineSocket

universe u

variable {σ : Type u}

/-! ## The logon -/

/-- What `ParseResponse` looks at besides the current operation. -/
structure AuthSession (σ : Type u) where
  pendingReplies : ℤ
  repliesToSkip : ℤ
  hasOperation : Bool
  tlsLayer : Bool
  others : σ

abbrev AuthSurroundings (σ : Type u) := Surroundings (AuthSession σ)

/-- The parts of the socket in which no TLS layer is created: whether the
handshake can be started, `SendNextCommand` after the last skipped reply, and
what is done with all other replies. -/
structure AuthEnv (σ : Type u) where
  lib : LocalText
  server : Server
  clientHandshake : AuthSession σ → Bool
  sendNextCommand : AuthSurroundings σ → AuthSurroundings σ
  otherResponse : AuthSurroundings σ → FramedReply → AuthSurroundings σ

namespace Surroundings

variable (around : AuthSurroundings σ)

def setSession (session : AuthSession σ) : AuthSurroundings σ :=
  { around with rest := session }

def keepTls (tlsLayer : Bool) : AuthSurroundings σ :=
  { around with rest := { around.rest with tlsLayer := tlsLayer } }

/-- The logon has not left the states in front of the TLS handshake. -/
def undecided : Bool :=
  around.logon.any fun logon =>
    logon.opState == .connect || logon.opState == .welcome ||
      logon.opState == .authTls || logon.opState == .authSsl

/-- The logon has sent `AUTH TLS` or `AUTH SSL`. -/
def awaitsAuth : Bool :=
  around.logon.any fun logon =>
    logon.opState == .authTls || logon.opState == .authSsl

/-- The branch of `CFtpLogonOpData::ParseResponse` that starts TLS. -/
def startTls (env : AuthEnv σ) : AuthSurroundings σ :=
  if env.clientHandshake around.rest then
    { around with
      logon := around.logon.map fun logon =>
        { logon with opState := .authWait }
      rest := { around.rest with tlsLayer := true } }
  else { around with connected := false }

def accepts (reply : FramedReply) : Bool :=
  reply.response.head? == some '2' || reply.response.head? == some '3'

def parseResponse (env : AuthEnv σ) (reply : FramedReply) :
    AuthSurroundings σ :=
  let session := around.rest
  let preliminary := reply.response.head? == some '1'
  if reply.response = [] then around
  else if preliminary = false ∧ session.pendingReplies ≤ 0 then around
  else
    let session :=
      if preliminary then session
      else { session with pendingReplies := session.pendingReplies - 1 }
    if session.repliesToSkip ≠ 0 then
      let session :=
        if preliminary then session
        else { session with repliesToSkip := session.repliesToSkip - 1 }
      let around := around.setSession session
      if session.repliesToSkip = 0 ∧ session.hasOperation = true ∧
          session.pendingReplies = 0 then
        keepTls (env.sendNextCommand around) session.tlsLayer
      else around
    else
      let around := around.setSession session
      if session.hasOperation = false then around
      else if around.awaitsAuth ∧ accepts reply then around.startTls env
      else keepTls (env.otherResponse around reply) session.tlsLayer

end Surroundings

/-- The framing with this logon. -/
def AuthEnv.framing (env : AuthEnv σ) : LineEnv (AuthSession σ) where
  lib := env.lib
  server := env.server
  parseResponse := fun around reply => around.parseResponse env reply

/-! ## Single reads -/

inductive ReadInput (σ : Type u)
  /-- The layer that is active returns bytes. -/
  | read (bytes : List UInt8)
  | happen (around : Surroundings σ)

/-- One read at a time, because the layer that is read from can change. -/
def readMachine (env : LineEnv σ) :
    Machine (LineSocket σ) (ReadInput σ) Output where
  initial := fun socket =>
    ∃ around, around.connected = true ∧ socket = connection around
  step := fun socket input =>
    match input with
    | .read bytes =>
        if socket.around.connected ∧
            bytes.length ≤ maxLine - socket.receiveBuffer.length then
          some (addRead env socket bytes)
        else none
    | .happen around => step env socket (.happen around)

/-- The outputs of the steps from a state on, if they are all enabled. -/
def behaviour (env : LineEnv σ) (socket : LineSocket σ)
    (inputs : List (ReadInput σ)) : Option (List Output) :=
  ((readMachine env).exec (fun _ _ => True) socket inputs).map Prod.snd

/-- The read ends behind the reply with which the TLS layer is started. -/
def StartsTls (env : AuthEnv σ) (socket : LineSocket (AuthSession σ))
    (front : List UInt8) : Prop :=
  socket.around.connected = true ∧
  ∃ before last, front = before ++ [last] ∧
    (scan env.framing socket socket.receiveBuffer
      before).1.around.connected = true ∧
    (scan env.framing socket socket.receiveBuffer
      before).1.around.rest.tlsLayer = false ∧
    (scan env.framing socket socket.receiveBuffer
      front).1.around.connected = true ∧
    (scan env.framing socket socket.receiveBuffer
      front).1.around.rest.tlsLayer = true

/-! ## Scanning in parts -/

def Rebuffered (buffer : List UInt8)
    (first second : LineSocket σ × List Output) : Prop :=
  first.2 = second.2 ∧
    first.1 = if second.1.around.connected then
      { second.1 with receiveBuffer := buffer } else second.1

theorem surround_rebuffered (socket : LineSocket σ) (buffer : List UInt8)
    (around : Surroundings σ) :
    ({ socket with receiveBuffer := buffer }.surround around) =
      if (socket.surround around).around.connected then
        { socket.surround around with receiveBuffer := buffer }
      else socket.surround around := by
  unfold surround
  by_cases hopen : around.connected = true
  · simp [hopen]
  · simp [hopen, doClose]

theorem frameLine_rebuffered (env : LineEnv σ) {socket : LineSocket σ}
    (hconnected : socket.around.connected = true) (buffer : List UInt8)
    (line : WString) :
    Rebuffered buffer
      (frameLine env { socket with receiveBuffer := buffer } line)
      (frameLine env socket line) := by
  unfold frameLine
  by_cases hshort : line.length ≤ 3
  · simp [hshort, Rebuffered, hconnected]
  simp only [if_neg hshort]
  by_cases hcode : socket.multilineResponseCode ≠ []
  · simp only [if_pos hcode]
    by_cases hclosing : line.take 4 = socket.multilineResponseCode
    · simp only [if_pos hclosing, respond]
      have hsurround := surround_rebuffered
        { socket with multilineResponseCode := [] } buffer
        (env.parseResponse socket.around
          ⟨line, socket.multilineResponseLines⟩)
      refine ⟨rfl, ?_⟩
      simp only [hsurround]
      split
      · rfl
      · rfl
    simp only [if_neg hclosing]
    by_cases hroom : socket.multilineResponseLines.length < maxLines
    · simp [hroom, Rebuffered, hconnected]
    · simp [hroom, Rebuffered, doClose]
  simp only [if_neg hcode]
  by_cases hopening : (line.drop 3).head? = some '-'
  · simp [hopening, Rebuffered, hconnected]
  simp only [if_neg hopening, respond]
  exact ⟨rfl, surround_rebuffered socket buffer _⟩

theorem parseLine_rebuffered (env : LineEnv σ) {socket : LineSocket σ}
    (hconnected : socket.around.connected = true) (buffer : List UInt8)
    (line : WString) :
    Rebuffered buffer
      (LineSocket.parseLine env { socket with receiveBuffer := buffer } line)
      (LineSocket.parseLine env socket line) := by
  obtain ⟨⟨connected, useUtf8, logon, rest⟩, old, code, lines⟩ := socket
  cases logon with
  | none =>
      obtain ⟨houtputs, hsocket⟩ := @frameLine_rebuffered _ env
        ⟨⟨connected, useUtf8, none, rest⟩, old, code, lines⟩
        hconnected buffer line
      exact ⟨congrArg (List.cons _) houtputs, hsocket⟩
  | some logon =>
      unfold LineSocket.parseLine
      cases hnote : logon.note line with
      | none => simp [hnote, Rebuffered, doClose]
      | some noted =>
          obtain ⟨houtputs, hsocket⟩ := @frameLine_rebuffered _ env
            ⟨⟨connected, useUtf8, some noted, rest⟩, old, code, lines⟩
            hconnected buffer line
          simp only [hnote]
          exact ⟨congrArg (List.cons _) houtputs, hsocket⟩

theorem takeLine_rebuffered (env : LineEnv σ) {socket : LineSocket σ}
    (hconnected : socket.around.connected = true)
    (line rest other : List UInt8) :
    Rebuffered rest (LineSocket.takeLine env socket line rest)
      (LineSocket.takeLine env socket line other) :=
  @parseLine_rebuffered _ env
    { socket with
      receiveBuffer := other
      around :=
        { socket.around with
          useUtf8 := (convToLocal env.lib env.server
            socket.around.useUtf8 line).2 } }
    hconnected rest _

theorem scan_rebuffered (env : LineEnv σ) (socket : LineSocket σ)
    (buffer line bytes : List UInt8) :
    scan env { socket with receiveBuffer := buffer } line bytes =
      scan env socket line bytes := by
  induction bytes generalizing line with
  | nil => rfl
  | cons byte bytes ih =>
      rw [scan, scan, ih, ih]
      rfl

theorem scan_append (env : LineEnv σ) {socket : LineSocket σ}
    (hconnected : socket.around.connected = true)
    (line first second : List UInt8)
    (hstays : (scan env socket line first).1.around.connected = true) :
    scan env socket line (first ++ second) =
      ((scan env (scan env socket line first).1
          (scan env socket line first).1.receiveBuffer second).1,
        (scan env socket line first).2 ++
          (scan env (scan env socket line first).1
            (scan env socket line first).1.receiveBuffer second).2) := by
  induction first generalizing socket line with
  | nil => simp [scan, scan_rebuffered]
  | cons byte first ih =>
      rw [List.cons_append]
      cases hbyte : isLineEnd byte with
      | false =>
          simp only [scan, hbyte, Bool.false_eq_true, if_false] at hstays ⊢
          exact ih hconnected _ hstays
      | true =>
          simp only [scan, hbyte, if_true] at hstays ⊢
          by_cases hline : line = []
          · simp only [if_pos hline] at hstays ⊢
            exact ih hconnected _ hstays
          simp only [if_neg hline] at hstays ⊢
          obtain ⟨houtputs, hsocket⟩ := takeLine_rebuffered env hconnected
            line (first ++ second) first
          by_cases hopen :
              (LineSocket.takeLine env socket line first).1.around.connected =
                true
          · simp only [if_pos hopen] at hstays hsocket ⊢
            have hopen' : (LineSocket.takeLine env socket line
                (first ++ second)).1.around.connected = true := by
              rw [hsocket]
              exact hopen
            rw [if_pos hopen', houtputs, hsocket, scan_rebuffered,
              ih hopen [] hstays]
            simp
          · simp only [if_neg hopen] at hstays
            exact absurd hstays hopen

theorem scan_separators (env : LineEnv σ) (socket : LineSocket σ)
    {rest : List UInt8} (hrest : ∀ byte ∈ rest, isLineEnd byte = true) :
    scan env socket [] rest =
      ({ socket with receiveBuffer := [] }, []) := by
  induction rest with
  | nil => rfl
  | cons byte rest ih =>
      rw [scan, if_pos (hrest byte List.mem_cons_self), if_pos rfl]
      exact ih fun other hother =>
        hrest other (List.mem_cons_of_mem _ hother)

theorem takeLine_outputs (env : LineEnv σ) (socket : LineSocket σ)
    (line rest : List UInt8) :
    ∃ text more,
      (LineSocket.takeLine env socket line rest).2 = .line text :: more := by
  unfold LineSocket.takeLine LineSocket.parseLine
  simp only
  split
  · exact ⟨_, _, rfl⟩
  · split
    · exact ⟨_, _, rfl⟩
    · exact ⟨_, _, rfl⟩

theorem scan_traces (env : LineEnv σ) {socket : LineSocket σ}
    (hconnected : socket.around.connected = true) (line rest : List UInt8)
    (hbyte : line ≠ [] ∨ ∃ byte ∈ rest, isLineEnd byte = false) :
    (scan env socket line rest).2 ≠ [] ∨
      ((scan env socket line rest).1.around.connected = true ∧
        (scan env socket line rest).1.receiveBuffer ≠ []) := by
  induction rest generalizing line with
  | nil =>
      right
      refine ⟨hconnected, ?_⟩
      rcases hbyte with hline | ⟨byte, hbyte, _⟩
      · exact hline
      · exact absurd hbyte List.not_mem_nil
  | cons byte rest ih =>
      cases hend : isLineEnd byte with
      | false =>
          simp only [scan, hend, Bool.false_eq_true, if_false]
          exact ih (line ++ [byte]) (Or.inl (by simp))
      | true =>
          simp only [scan, hend, if_true]
          by_cases hline : line = []
          · rw [if_pos hline]
            apply ih
            right
            rcases hbyte with hne | ⟨other, hother, hplain⟩
            · exact absurd hline hne
            · rcases List.mem_cons.mp hother with rfl | hmem
              · rw [hend] at hplain
                cases hplain
              · exact ⟨other, hmem, hplain⟩
          · rw [if_neg hline]
            left
            obtain ⟨text, more, houtputs⟩ :=
              takeLine_outputs env socket line rest
            split
            · simp [houtputs]
            · simp [houtputs]

theorem scan_buffer_length (env : LineEnv σ) {socket : LineSocket σ}
    (hconnected : socket.around.connected = true) (line bytes : List UInt8)
    (hstays : (scan env socket line bytes).1.around.connected = true) :
    (scan env socket line bytes).1.receiveBuffer.length ≤
      line.length + bytes.length := by
  induction bytes generalizing socket line with
  | nil => exact le_rfl
  | cons byte bytes ih =>
      rw [List.length_cons]
      cases hbyte : isLineEnd byte with
      | false =>
          simp only [scan, hbyte, Bool.false_eq_true, if_false] at hstays ⊢
          have hrest := ih hconnected _ hstays
          rw [List.length_append, List.length_singleton] at hrest
          omega
      | true =>
          simp only [scan, hbyte, if_true] at hstays ⊢
          by_cases hline : line = []
          · simp only [if_pos hline] at hstays ⊢
            have hrest := ih hconnected _ hstays
            rw [List.length_nil] at hrest
            omega
          simp only [if_neg hline] at hstays ⊢
          by_cases hopen :
              (LineSocket.takeLine env socket line bytes).1.around.connected =
                true
          · simp only [if_pos hopen] at hstays ⊢
            have hrest := ih hopen _ hstays
            rw [List.length_nil] at hrest
            omega
          · simp only [if_neg hopen] at hstays
            exact absurd hstays hopen

theorem addRead_separator_outputs (env : LineEnv σ) (socket : LineSocket σ)
    (hbuffer : socket.receiveBuffer ≠ []) :
    ∃ text more, (addRead env socket [10]).2 = .line text :: more := by
  obtain ⟨text, more, houtputs⟩ :=
    takeLine_outputs env socket socket.receiveBuffer []
  have hscan : ∃ later, (scan env socket socket.receiveBuffer [10]).2 =
      .line text :: later := by
    have hend : isLineEnd 10 = true := rfl
    rw [scan, if_pos hend, if_neg hbuffer]
    simp only
    split
    · exact ⟨more ++ _, by rw [houtputs]; rfl⟩
    · exact ⟨more, houtputs⟩
  obtain ⟨later, hscan⟩ := hscan
  unfold addRead
  simp only
  split
  · exact ⟨text, later ++ [.gaveUp], by rw [hscan]; rfl⟩
  · exact ⟨text, later, hscan⟩

/-! ## What is left in the read -/

section Leftover

variable {env : LineEnv σ} {socket : LineSocket σ}
  {front rest : List UInt8}

theorem behaviour_read (henabled : socket.around.connected = true)
    {bytes : List UInt8}
    (hroom : bytes.length ≤ maxLine - socket.receiveBuffer.length)
    (future : List (ReadInput σ)) :
    behaviour env socket (.read bytes :: future) =
      (behaviour env (addRead env socket bytes).1 future).map
        ((addRead env socket bytes).2 ++ ·) := by
  have hstep : (readMachine env).step socket (.read bytes) =
      some (addRead env socket bytes) := if_pos ⟨henabled, hroom⟩
  simp only [behaviour, Machine.exec, if_true, hstep]
  cases (readMachine env).exec (fun _ _ => True)
      (addRead env socket bytes).1 future with
  | none => rfl
  | some result => rfl

structure Emptied (env : LineEnv σ) (socket : LineSocket σ)
    (front : List UInt8) : Prop where
  enabled : socket.around.connected = true
  connected :
    (scan env socket socket.receiveBuffer front).1.around.connected = true
  buffer : (scan env socket socket.receiveBuffer front).1.receiveBuffer = []

theorem Emptied.addRead_front (hfront : Emptied env socket front) :
    addRead env socket front =
      scan env socket socket.receiveBuffer front := by
  rw [addRead, if_neg]
  rintro ⟨_, hfull⟩
  rw [hfront.buffer] at hfull
  simp [maxLine] at hfull

theorem Emptied.scan_rest (hfront : Emptied env socket front)
    (rest : List UInt8) :
    scan env socket socket.receiveBuffer (front ++ rest) =
      ((scan env (scan env socket socket.receiveBuffer front).1 [] rest).1,
        (scan env socket socket.receiveBuffer front).2 ++
          (scan env (scan env socket socket.receiveBuffer front).1 []
            rest).2) := by
  have happend := scan_append env hfront.enabled socket.receiveBuffer front
    rest hfront.connected
  rw [hfront.buffer] at happend
  exact happend

theorem Emptied.addRead_separators (hfront : Emptied env socket front)
    (hrest : ∀ byte ∈ rest, isLineEnd byte = true) :
    addRead env socket (front ++ rest) = addRead env socket front := by
  have hscan : scan env socket socket.receiveBuffer (front ++ rest) =
      scan env socket socket.receiveBuffer front := by
    rw [hfront.scan_rest, scan_separators env _ hrest, List.append_nil]
    have hempty : { (scan env socket socket.receiveBuffer front).1 with
        receiveBuffer := [] } =
        (scan env socket socket.receiveBuffer front).1 := by
      rw [← hfront.buffer]
    rw [hempty]
  rw [addRead, addRead, hscan]

theorem Emptied.seen (hfront : Emptied env socket front)
    (hroom : (front ++ rest).length ≤
      maxLine - socket.receiveBuffer.length)
    (hplain : ∃ byte ∈ rest, isLineEnd byte = false) :
    ∃ future, behaviour env socket (.read (front ++ rest) :: future) ≠
      behaviour env socket (.read front :: future) := by
  have hfrontRoom : front.length ≤
      maxLine - socket.receiveBuffer.length := by
    rw [List.length_append] at hroom
    omega
  have htraces := scan_traces env hfront.connected [] rest (Or.inr hplain)
  have hscan := hfront.scan_rest rest
  by_cases houtputs :
      (scan env (scan env socket socket.receiveBuffer front).1 [] rest).2 = []
  · obtain ⟨hopen, hbuffer⟩ := htraces.resolve_left (not_not_intro houtputs)
    by_cases hfull : (scan env (scan env socket socket.receiveBuffer front).1
        [] rest).1.receiveBuffer.length = maxLine
    · -- the line is too long
      refine ⟨[], ?_⟩
      rw [behaviour_read hfront.enabled hroom,
        behaviour_read hfront.enabled hfrontRoom, hfront.addRead_front,
        addRead, hscan, if_pos ⟨hopen, hfull⟩]
      simp [behaviour, Machine.exec]
    · refine ⟨[.read [10]], ?_⟩
      have hadded : addRead env socket (front ++ rest) =
          scan env socket socket.receiveBuffer (front ++ rest) := by
        rw [addRead, hscan, if_neg (fun hboth => hfull hboth.2)]
      have hlength := scan_buffer_length env hfront.connected [] rest hopen
      rw [List.length_append] at hroom
      rw [List.length_nil, Nat.zero_add] at hlength
      have hlast : ∀ bytes : List UInt8, bytes.length ≤ maxLine →
          bytes.length ≠ maxLine →
          [(10 : UInt8)].length ≤ maxLine - bytes.length := by
        intro bytes hle hne
        rw [List.length_singleton]
        omega
      have hnone : (addRead env
          (scan env socket socket.receiveBuffer front).1 [10]).2 = [] := by
        have hseparator : ∀ byte ∈ [(10 : UInt8)], isLineEnd byte = true := by
          intro byte hbyte
          rw [List.mem_singleton.mp hbyte]
          rfl
        rw [addRead, hfront.buffer, scan_separators env _ hseparator]
        simp [maxLine]
      rw [behaviour_read hfront.enabled (by rw [List.length_append]; omega),
        behaviour_read hfront.enabled hfrontRoom, hfront.addRead_front,
        hadded, hscan, houtputs, List.append_nil,
        behaviour_read hopen (hlast _ (by omega) hfull),
        behaviour_read hfront.connected
          (hlast _ (by simp [hfront.buffer]) (by
            simp [hfront.buffer, maxLine])), hnone]
      obtain ⟨text, more, hline⟩ := addRead_separator_outputs env _ hbuffer
      rw [hline]
      simp [behaviour, Machine.exec]
  · refine ⟨[], ?_⟩
    rw [behaviour_read hfront.enabled hroom,
      behaviour_read hfront.enabled hfrontRoom, hfront.addRead_front,
      addRead, hscan]
    split
    · simp [behaviour, Machine.exec]
    · simp [behaviour, Machine.exec, houtputs]

/-- What follows in the same read is unseen only if it is line ends. -/
theorem Emptied.unseen_iff (hfront : Emptied env socket front)
    (hroom : (front ++ rest).length ≤
      maxLine - socket.receiveBuffer.length) :
    (∀ future, behaviour env socket (.read (front ++ rest) :: future) =
        behaviour env socket (.read front :: future)) ↔
      ∀ byte ∈ rest, isLineEnd byte = true := by
  have hfrontRoom : front.length ≤
      maxLine - socket.receiveBuffer.length := by
    rw [List.length_append] at hroom
    omega
  constructor
  · intro hsame byte hbyte
    by_contra hplain
    rw [Bool.not_eq_true] at hplain
    obtain ⟨future, hseen⟩ := hfront.seen hroom ⟨byte, hbyte, hplain⟩
    exact hseen (hsame future)
  · intro hrest future
    rw [behaviour_read hfront.enabled hroom,
      behaviour_read hfront.enabled hfrontRoom,
      hfront.addRead_separators hrest]

end Leftover

/-- Nothing is left in the buffer when TLS starts. -/
theorem StartsTls.emptied {env : AuthEnv σ}
    {socket : LineSocket (AuthSession σ)} {front : List UInt8}
    (hstarts : StartsTls env socket front) :
    Emptied env.framing socket front := by
  obtain ⟨henabled, before, last, rfl, hbefore, habsent, hconnected,
    hpresent⟩ := hstarts
  have happend := scan_append env.framing henabled socket.receiveBuffer
    before [last] hbefore
  refine ⟨henabled, hconnected, ?_⟩
  rw [happend] at hconnected hpresent ⊢
  generalize (scan env.framing socket socket.receiveBuffer before).1 = middle
    at hconnected hpresent habsent ⊢
  cases hend : isLineEnd last with
  | false =>
      simp only [scan, hend, Bool.false_eq_true, if_false] at hpresent
      rw [habsent] at hpresent
      cases hpresent
  | true =>
      simp only [scan, hend, if_true] at hconnected hpresent ⊢
      by_cases hline : middle.receiveBuffer = []
      · simp only [if_pos hline] at hpresent
        rw [habsent] at hpresent
        cases hpresent
      · simp only [if_neg hline] at hconnected ⊢
        split
        · rfl
        · rename_i hclosed
          simp only [if_neg hclosed] at hconnected
          exact absurd hconnected hclosed

/-! ## What was received before -/

/-- The logon does not come back to the states in front of the handshake, and
in these `m_useUTF8` stays as it is. -/
def StaysQuiet (around following : AuthSurroundings σ) : Prop :=
  following.undecided = true →
    around.undecided = true ∧ following.useUtf8 = around.useUtf8

/-- The states of `CFtpLogonOpData` only go on, and the replies to the commands
in front of the handshake tell nothing about character sets. -/
structure AuthEnv.LogonOrder (env : AuthEnv σ) : Prop where
  otherResponse : ∀ around reply,
    StaysQuiet around (env.otherResponse around reply)
  sendNextCommand : ∀ around, StaysQuiet around (env.sendNextCommand around)

/-- The lines that the bytes complete, `line` being in front of them. -/
def cutLines : List UInt8 → List UInt8 → List (List UInt8)
  | _, [] => []
  | line, byte :: rest =>
      if isLineEnd byte then
        if line = [] then cutLines [] rest else line :: cutLines [] rest
      else cutLines (line ++ [byte]) rest

/-- `ConvToLocal` of the line leaves `m_useUTF8` as it is. -/
def Decodes (env : AuthEnv σ) (useUtf8 : Bool) (line : List UInt8) : Prop :=
  (convToLocal env.lib env.server useUtf8 line).2 = useUtf8

def KeepsEncoding (env : AuthEnv σ) (socket : LineSocket (AuthSession σ)) :
    ReadInput (AuthSession σ) → Prop
  | .read bytes => ∀ line ∈ cutLines socket.receiveBuffer bytes,
      Decodes env socket.around.useUtf8 line
  | .happen around => StaysQuiet socket.around around

/-- In front of the handshake no byte received so far has left a trace other
than a reply that has begun. -/
structure Untouched (useUtf8 : Bool) (socket : LineSocket (AuthSession σ)) :
    Prop where
  encoding : socket.around.undecided = true →
    socket.around.useUtf8 = useUtf8
  lines : socket.multilineResponseCode = [] →
    socket.multilineResponseLines = []

/-- What a line can do to the framing. -/
inductive Frames (env : LineEnv σ) (socket : LineSocket σ) :
    LineSocket σ → Prop
  | waits {following : LineSocket σ} :
      following.around = socket.around →
      (following.multilineResponseCode = [] →
        socket.multilineResponseCode = [] ∧
          following.multilineResponseLines = socket.multilineResponseLines) →
      Frames env socket following
  | closes : Frames env socket socket.doClose
  | responds {following : LineSocket σ} {reply : FramedReply} :
      following.around = env.parseResponse socket.around reply →
      following.multilineResponseCode = [] →
      ((socket.multilineResponseCode = [] →
        socket.multilineResponseLines = []) →
        following.multilineResponseLines = []) →
      Frames env socket following

theorem surround_idle {socket : LineSocket σ} (around : Surroundings σ)
    (hcode : socket.multilineResponseCode = []) :
    (socket.surround around).multilineResponseCode = [] ∧
      (socket.multilineResponseLines = [] →
        (socket.surround around).multilineResponseLines = []) := by
  unfold surround
  split
  · exact ⟨hcode, id⟩
  · exact ⟨rfl, fun _ => rfl⟩

theorem frameLine_frames (env : LineEnv σ) (socket : LineSocket σ)
    (line : WString) : Frames env socket (frameLine env socket line).1 := by
  unfold frameLine
  split_ifs with hshort hbegun hclosing hroom hopening
  · exact .waits rfl fun hcode => ⟨hcode, rfl⟩
  · exact .responds (surround_around _ _) (surround_idle _ rfl).1 fun _ => rfl
  · exact .waits rfl fun hcode => absurd hcode hbegun
  · exact .closes
  · exact .waits rfl fun hcode => by simp at hcode
  · have hcode := not_not.mp hbegun
    obtain ⟨hidle, hlines⟩ := surround_idle
      (env.parseResponse socket.around ⟨line, socket.multilineResponseLines⟩)
      hcode
    exact .responds (surround_around _ _) hidle fun hnone =>
      hlines (hnone hcode)

theorem note_opState {logon noted : LogonLines} {line : WString}
    (hnote : logon.note line = some noted) :
    noted.opState = logon.opState := by
  unfold LogonLines.note at hnote
  split_ifs at hnote <;> (cases hnote; rfl)

/-- The socket with the line converted and noted, before it is framed. -/
theorem takeLine_frames (env : LineEnv σ) (socket : LineSocket σ)
    (line rest : List UInt8) :
    ∃ noted : LineSocket σ,
      Frames env noted (LineSocket.takeLine env socket line rest).1 ∧
        noted.multilineResponseCode = socket.multilineResponseCode ∧
        noted.multilineResponseLines = socket.multilineResponseLines ∧
        noted.around.rest = socket.around.rest ∧
        noted.around.useUtf8 = (convToLocal env.lib env.server
          socket.around.useUtf8 line).2 ∧
        noted.around.logon.map LogonLines.opState =
          socket.around.logon.map LogonLines.opState := by
  obtain ⟨⟨connected, useUtf8, current, session⟩, buffer, code, lines⟩ :=
    socket
  unfold LineSocket.takeLine LineSocket.parseLine
  cases current with
  | none => exact ⟨_, frameLine_frames env _ _, rfl, rfl, rfl, rfl, rfl⟩
  | some logon =>
      dsimp only
      cases hnote : logon.note
          (convToLocal env.lib env.server useUtf8 line).1 with
      | none => exact ⟨_, .closes, rfl, rfl, rfl, rfl, rfl⟩
      | some noted =>
          exact ⟨_, frameLine_frames env _ _, rfl, rfl, rfl, rfl,
            congrArg some (note_opState hnote)⟩

theorem undecided_congr {around other : AuthSurroundings σ}
    (hstate : around.logon.map LogonLines.opState =
      other.logon.map LogonLines.opState) :
    around.undecided = other.undecided := by
  unfold Surroundings.undecided
  cases hlogon : around.logon <;> cases hother : other.logon <;>
    simp_all

section Takeover

variable {σ' : Type u} {env : AuthEnv σ} {useUtf8 : Bool}
  {socket : LineSocket (AuthSession σ)}

theorem startTls_quiet (around : AuthSurroundings σ) :
    StaysQuiet around (around.startTls env) := by
  unfold Surroundings.startTls
  split_ifs
  · intro hundecided
    cases hlogon : around.logon <;>
      simp [Surroundings.undecided, hlogon] at hundecided
  · exact fun hundecided => ⟨hundecided, rfl⟩

variable (horder : env.LogonOrder)

include horder

theorem parseResponse_quiet (around : AuthSurroundings σ)
    (reply : FramedReply) :
    StaysQuiet around (around.parseResponse env reply) := by
  unfold Surroundings.parseResponse
  dsimp only
  split_ifs
  all_goals first
    | exact horder.sendNextCommand (around.setSession _)
    | exact horder.otherResponse (around.setSession _) reply
    | exact startTls_quiet (around.setSession _)
    | exact fun hundecided => ⟨hundecided, rfl⟩

/-- A line in front of the handshake leaves no trace. -/
theorem takeLine_untouched (huntouched : Untouched useUtf8 socket)
    (line rest : List UInt8)
    (hline : socket.around.undecided = true → Decodes env useUtf8 line) :
    Untouched useUtf8
        (LineSocket.takeLine env.framing socket line rest).1 ∧
      ((LineSocket.takeLine env.framing socket
        line rest).1.around.undecided = true →
          socket.around.undecided = true) := by
  obtain ⟨noted, hframes, hcode, hlines, _, hutf8, hstate⟩ :=
    takeLine_frames env.framing socket line rest
  have hundecided := undecided_congr hstate
  have hnoted : noted.around.undecided = true →
      noted.around.useUtf8 = useUtf8 := by
    intro hsame
    rw [hundecided] at hsame
    rw [hutf8, huntouched.encoding hsame]
    exact hline hsame
  have hidle : noted.multilineResponseCode = [] →
      noted.multilineResponseLines = [] := by
    rw [hcode, hlines]
    exact huntouched.lines
  rw [← hundecided]
  generalize (LineSocket.takeLine env.framing socket line rest).1 = taken
    at hframes ⊢
  cases hframes with
  | waits haround hwaits =>
      rw [haround]
      refine ⟨⟨?_, ?_⟩, id⟩
      · rw [haround]
        exact hnoted
      · intro hnone
        obtain ⟨hbefore, hsame⟩ := hwaits hnone
        rw [hsame]
        exact hidle hbefore
  | closes => exact ⟨⟨hnoted, fun _ => rfl⟩, id⟩
  | responds haround _ hresponds =>
      have hquiet := parseResponse_quiet horder noted.around
      rw [haround]
      refine ⟨⟨?_, fun _ => hresponds hidle⟩, fun hlater =>
        (hquiet _ hlater).1⟩
      rw [haround]
      intro hlater
      obtain ⟨hbefore, hsame⟩ := hquiet _ hlater
      exact hsame.trans (hnoted hbefore)

theorem scan_untouched (huntouched : Untouched useUtf8 socket)
    (line bytes : List UInt8)
    (hlines : socket.around.undecided = true →
      ∀ cut ∈ cutLines line bytes, Decodes env useUtf8 cut) :
    Untouched useUtf8 (scan env.framing socket line bytes).1 ∧
      ((scan env.framing socket line bytes).1.around.undecided = true →
        socket.around.undecided = true) := by
  induction bytes generalizing socket line with
  | nil => exact ⟨⟨huntouched.encoding, huntouched.lines⟩, id⟩
  | cons byte bytes ih =>
      unfold cutLines at hlines
      rw [scan]
      split_ifs at hlines ⊢ with hend hline
      · exact ih huntouched [] hlines
      · obtain ⟨htaken, hback⟩ := takeLine_untouched horder huntouched line
          bytes fun hundecided => hlines hundecided line List.mem_cons_self
        dsimp only
        split
        · obtain ⟨hlater, hbefore⟩ := ih htaken [] fun hundecided cut hcut =>
            hlines (hback hundecided) cut (List.mem_cons_of_mem _ hcut)
          exact ⟨hlater, fun hundecided => hback (hbefore hundecided)⟩
        · exact ⟨htaken, hback⟩
      · exact ih huntouched _ hlines

theorem reaches_untouched {around : AuthSurroundings σ}
    {inputs : List (ReadInput (AuthSession σ))} {outputs : List Output}
    (hreach : ((readMachine env.framing).startingAt
      (connection around)).ReachesWithin (KeepsEncoding env) inputs outputs
        socket) :
    Untouched around.useUtf8 socket := by
  apply hreach.stateInvariant (Untouched around.useUtf8)
  · rintro _ rfl
    exact ⟨fun _ => rfl, fun _ => rfl⟩
  · intro current input following answer huntouched hallowed hstep
    change (readMachine env.framing).step current input = _ at hstep
    cases input with
    | read bytes =>
        have hscan := (scan_untouched horder huntouched
          current.receiveBuffer bytes fun hundecided => by
            rw [← huntouched.encoding hundecided]
            exact hallowed).1
        obtain ⟨_, hadded⟩ := Option.ite_none_right_eq_some.mp hstep
        rw [Option.some.injEq] at hadded
        have hfollowing : (addRead env.framing current bytes).1 = following :=
          congrArg Prod.fst hadded
        rw [← hfollowing]
        unfold addRead
        dsimp only
        split
        · exact ⟨hscan.encoding, fun _ => rfl⟩
        · exact hscan
    | happen event =>
        obtain ⟨_, hsurround⟩ := Option.ite_none_right_eq_some.mp hstep
        simp only [Option.some.injEq, Prod.mk.injEq] at hsurround
        rw [← hsurround.1]
        constructor
        · rw [surround_around]
          intro hundecided
          obtain ⟨hbefore, hsame⟩ := hallowed hundecided
          exact hsame.trans (huntouched.encoding hbefore)
        · unfold surround
          split
          · exact huntouched.lines
          · exact fun _ => rfl

omit horder

theorem startTls_useUtf8 (around : AuthSurroundings σ) :
    (around.startTls env).useUtf8 = around.useUtf8 := by
  unfold Surroundings.startTls
  split_ifs <;> rfl

theorem undecided_of_awaitsAuth {around : AuthSurroundings σ}
    (hawaits : around.awaitsAuth = true) : around.undecided = true := by
  unfold Surroundings.awaitsAuth at hawaits
  unfold Surroundings.undecided
  cases hlogon : around.logon with
  | none =>
      rw [hlogon] at hawaits
      cases hawaits
  | some logon =>
      rw [hlogon, Option.any_some, Bool.or_eq_true] at hawaits
      rw [Option.any_some]
      rcases hawaits with hstate | hstate <;> simp [hstate]

theorem parseResponse_starts {around : AuthSurroundings σ}
    {reply : FramedReply} (habsent : around.rest.tlsLayer = false)
    (hpresent : (around.parseResponse env reply).rest.tlsLayer = true) :
    around.undecided = true ∧
      (around.parseResponse env reply).useUtf8 = around.useUtf8 := by
  unfold Surroundings.parseResponse at hpresent ⊢
  dsimp only at hpresent ⊢
  split_ifs at hpresent ⊢ <;> rename_i hbranch
  -- Only the branch that starts TLS creates a layer.
  all_goals first
    | exact absurd (habsent.symm.trans hpresent) Bool.false_ne_true
    | exact ⟨undecided_of_awaitsAuth hbranch.1, startTls_useUtf8 _⟩

/-- The line that starts TLS leaves an idle framing. -/
theorem takeLine_takeover (huntouched : Untouched useUtf8 socket)
    (line rest : List UInt8)
    (hline : socket.around.undecided = true → Decodes env useUtf8 line)
    (habsent : socket.around.rest.tlsLayer = false)
    (hpresent : (LineSocket.takeLine env.framing socket
      line rest).1.around.rest.tlsLayer = true) :
    (LineSocket.takeLine env.framing socket line rest).1.around.useUtf8 =
        useUtf8 ∧
      (LineSocket.takeLine env.framing socket
        line rest).1.multilineResponseCode = [] ∧
      (LineSocket.takeLine env.framing socket
        line rest).1.multilineResponseLines = [] := by
  obtain ⟨noted, hframes, hcode, hlines, hrest, hutf8, hstate⟩ :=
    takeLine_frames env.framing socket line rest
  have hundecided := undecided_congr hstate
  generalize (LineSocket.takeLine env.framing socket line rest).1 = taken
    at hframes hpresent ⊢
  rw [← hrest] at habsent
  cases hframes with
  | waits haround _ =>
      rw [haround, habsent] at hpresent
      cases hpresent
  | closes =>
      have hsame : noted.around.rest.tlsLayer = true := hpresent
      rw [habsent] at hsame
      cases hsame
  | responds haround hidle hresponds =>
      rw [haround] at hpresent ⊢
      obtain ⟨hbefore, hsame⟩ := parseResponse_starts habsent hpresent
      rw [hundecided] at hbefore
      have hencoding := hutf8
      rw [huntouched.encoding hbefore] at hencoding
      refine ⟨hsame.trans (hencoding.trans (hline hbefore)), hidle, ?_⟩
      apply hresponds
      rw [hcode, hlines]
      exact huntouched.lines

/-- What is cut from bytes that follow on others. -/
theorem cutLines_append (lines : LineEnv σ') {socket : LineSocket σ'}
    (line before after : List UInt8)
    (hstays : (scan lines socket line before).1.around.connected = true) :
    cutLines line (before ++ after) = cutLines line before ++
      cutLines (scan lines socket line before).1.receiveBuffer after := by
  induction before generalizing socket line with
  | nil => rfl
  | cons byte before ih =>
      rw [List.cons_append, cutLines, cutLines]
      rw [scan] at hstays ⊢
      split_ifs at hstays ⊢ with hend hline
      · exact ih [] hstays
      · dsimp only at hstays ⊢
        split_ifs at hstays ⊢ with hopen
        · rw [ih [] hstays]
          rfl
        · exact absurd hstays hopen
      · exact ih _ hstays

end Takeover

/-- What the operations are left with when the read starts TLS. -/
def takeover (env : AuthEnv σ) (socket : LineSocket (AuthSession σ))
    (front : List UInt8) : AuthSurroundings σ :=
  (scan env.framing socket socket.receiveBuffer front).1.around

theorem eq_connection {useUtf8 : Bool} {socket : LineSocket (AuthSession σ)}
    (hbuffer : socket.receiveBuffer = [])
    (hidle : socket.around.useUtf8 = useUtf8 ∧
      socket.multilineResponseCode = [] ∧
      socket.multilineResponseLines = []) :
    socket = connection { socket.around with useUtf8 := useUtf8 } := by
  obtain ⟨⟨connected, encoding, logon, session⟩, buffer, code, lines⟩ := socket
  obtain ⟨rfl, rfl, rfl⟩ := hidle
  subst hbuffer
  rfl

theorem StartsTls.takeover_eq {env : AuthEnv σ} (horder : env.LogonOrder)
    {useUtf8 : Bool} {socket : LineSocket (AuthSession σ)}
    {front : List UInt8} (hstarts : StartsTls env socket front)
    (huntouched : Untouched useUtf8 socket)
    (hlines : socket.around.undecided = true →
      ∀ line ∈ cutLines socket.receiveBuffer front,
        Decodes env useUtf8 line) :
    (scan env.framing socket socket.receiveBuffer front).1 =
      connection { takeover env socket front with useUtf8 := useUtf8 } := by
  apply eq_connection hstarts.emptied.buffer
  obtain ⟨henabled, before, last, rfl, hbefore, habsent, hconnected,
    hpresent⟩ := hstarts
  have hcuts := cutLines_append env.framing socket.receiveBuffer before
    [last] hbefore
  rw [hcuts] at hlines
  obtain ⟨hmiddle, hback⟩ := scan_untouched horder huntouched
    socket.receiveBuffer before fun hundecided cut hcut =>
      hlines hundecided cut (List.mem_append_left _ hcut)
  rw [scan_append env.framing henabled socket.receiveBuffer before [last]
    hbefore] at hconnected hpresent ⊢
  generalize (scan env.framing socket socket.receiveBuffer before).1 = middle
    at *
  rw [scan] at hconnected hpresent ⊢
  split_ifs at hconnected hpresent ⊢ with hend hline
  · rw [scan, habsent] at hpresent
    cases hpresent
  · have hdecodes : middle.around.undecided = true →
        Decodes env useUtf8 middle.receiveBuffer := by
      intro hundecided
      apply hlines (hback hundecided)
      rw [cutLines, if_pos hend, if_neg hline]
      exact List.mem_append_right _ List.mem_cons_self
    dsimp only at hconnected hpresent ⊢
    split_ifs at hconnected hpresent ⊢ with hopen
    · exact takeLine_takeover hmiddle middle.receiveBuffer [] hdecodes habsent
        hpresent
    · exact absurd hconnected hopen
  · rw [scan, habsent] at hpresent
    cases hpresent

/-- A logon that accepts every certificate and does nothing else. -/
def plainAuth : AuthEnv Unit where
  lib :=
    ⟨fun bytes => bytes.map fun byte => Char.ofNat byte.toNat,
      fun _ _ => [], fun _ => [], fun _ => 0⟩
  server :=
    ⟨.ftpes, .default, "ftp.example.com".toList, [], 21, 0, .default, false,
      .auto, [], [], []⟩
  clientHandshake := fun _ => true
  sendNextCommand := id
  otherResponse := fun around _ => around

/-- `AUTH TLS` has been sent. -/
def authSent : LineSocket (AuthSession Unit) :=
  connection ⟨true, true, some ⟨false, [], .authTls, true, []⟩,
    ⟨1, 0, true, false, ()⟩⟩

/-- The welcome message is to come. -/
def welcoming : AuthSurroundings Unit :=
  ⟨true, true, some ⟨false, [], .welcome, false, []⟩, ⟨1, 0, true, false, ()⟩⟩

/-- The welcome message has been parsed. -/
def greeted : LineSocket (AuthSession Unit) :=
  connection ⟨true, true, some ⟨false, [], .welcome, true, []⟩,
    ⟨0, 0, true, false, ()⟩⟩

def asciiBytes (text : String) : List UInt8 :=
  text.toList.map fun char => UInt8.ofNat char.toNat

theorem authSent_starts :
    StartsTls plainAuth authSent (asciiBytes "234 go\r") := by
  refine ⟨rfl, asciiBytes "234 go", 13, rfl, ?_⟩
  decide +kernel

theorem plainAuth_order : plainAuth.LogonOrder :=
  ⟨fun _ _ hundecided => ⟨hundecided, rfl⟩,
    fun _ hundecided => ⟨hundecided, rfl⟩⟩

end FtpReplyFraming

end TabFtp
