import TabFtp.ProxySocket

/-!
# Parsing the replies of a proxy

What one round of the loop of `OnReceive` does with the bytes that have
arrived.  All its accesses are inside of the buffer.  The line of an HTTP
reply is searched as a C string, though, and a NUL in front of the end of the
line ends the search without a result.
-/

namespace TabFtp

open LabelledRuns CheckedBuffer

def crlfCrlf : Bytes := [13, 10, 13, 10]

def HeaderComplete (buffer : Bytes) : Prop :=
  ∃ i, StandsAt buffer crlfCrlf i

def firstLine (buffer : Bytes) : Bytes :=
  buffer.takeWhile (· ≠ 13)

def NulInFirstLine (buffer : Bytes) : Prop :=
  0 ∈ firstLine buffer

/-- `HTTP/1.1 2` or `HTTP/1.0 2`. -/
def StartsAccepted (received : Bytes) : Prop :=
  received.take 10 = ProxySocket.ascii "HTTP/1.1 2" ∨
    received.take 10 = ProxySocket.ascii "HTTP/1.0 2"

/-- What is not UTF-8 is read as an empty text. -/
def AddressLibrary.ReadsUtf8 (lib : AddressLibrary) : Prop :=
  ∀ bytes, lib.toWstringFromUtf8 bytes ≠ [] →
    utf8 (lib.toWstringFromUtf8 bytes) = bytes

namespace ProxySocket

variable {lib : AddressLibrary} {socket following : ProxySocket}

/-- The first line is a success, as the library reads it. -/
def ReadsAccepted (lib : AddressLibrary) (buffer : Bytes) : Prop :=
  accepted (lib.toWstringFromUtf8 (firstLine buffer)) = true

def established (socket : ProxySocket) (count : ℕ) : Handled :=
  ⟨{ socket with
      state := .connected
      receiveBuffer := socket.receiveBuffer.drop count
      passthrough := true },
    [.connection none], .returns⟩

inductive Asks (lib : AddressLibrary) (socket : ProxySocket) :
    HandshakeState → Bytes → Prop
  | afterMethod : socket.handshakeState = .socks5Method →
      Asks lib socket .socks5Request (socket.socks5Request lib)
  | credentials : socket.handshakeState = .socks5Method →
      Asks lib socket .socks5Auth socket.socks5Credentials
  | afterCredentials : socket.handshakeState = .socks5Auth →
      Asks lib socket .socks5Request (socket.socks5Request lib)

inductive ReplyStep (lib : AddressLibrary) (socket : ProxySocket) :
    Handled → Prop
  | waits : ReplyStep lib socket socket.goesOn
  | fails (buffer : Bytes) (error : SocketError) :
      ReplyStep lib socket
        ({ socket with receiveBuffer := buffer }.fails error)
  | http (i : ℕ) : socket.handshakeState = .httpWait →
      StandsAt socket.receiveBuffer crlfCrlf i →
      ReadsAccepted lib socket.receiveBuffer →
      ReplyStep lib socket (socket.established (i + 4))
  | socks4 : socket.handshakeState = .socks4Handshake →
      8 ≤ socket.receiveBuffer.length →
      ReplyStep lib socket (socket.established 8)
  | socks5 (count : ℕ) : socket.handshakeState = .socks5Request →
      socket.sendBuffer = [] → count ≤ socket.receiveBuffer.length →
      ReplyStep lib socket (socket.established count)
  | asks (next : HandshakeState) (request : Bytes) :
      socket.sendBuffer = [] → 2 ≤ socket.receiveBuffer.length →
      Asks lib socket next request →
      ReplyStep lib socket
        ({ socket with
            handshakeState := next
            receiveBuffer := socket.receiveBuffer.drop 2 }.queues request)

theorem establishes_eq {count : ℕ}
    (hle : count ≤ socket.receiveBuffer.length) :
    socket.establishes count = .ok (socket.established count) := by
  unfold establishes
  rw [consume_of_le hle]
  rfl

theorem advances_eq {next : HandshakeState} {request : Bytes}
    (hle : 2 ≤ socket.receiveBuffer.length) :
    socket.advances next request =
      .ok ({ socket with
          handshakeState := next
          receiveBuffer := socket.receiveBuffer.drop 2 }.queues request) := by
  unfold advances
  rw [consume_of_le hle]

theorem readAt_ok {index : ℕ} (hlt : index < socket.receiveBuffer.length) :
    ∃ byte, readAt socket.receiveBuffer index = .ok byte :=
  ⟨_, readAt_of_lt hlt⟩

/-! ## SOCKS -/

theorem onSocks4Reply_spec
    (hstate : socket.handshakeState = .socks4Handshake) :
    ∃ handled, socket.onSocks4Reply = .ok handled ∧
      ReplyStep lib socket handled := by
  unfold onSocks4Reply
  by_cases hshort : socket.receiveBuffer.length < 8
  · rw [if_pos hshort]
    exact ⟨_, rfl, .waits⟩
  · rw [if_neg hshort]
    rcases @readAt_ok socket 1 (by omega) with ⟨code, hcode⟩
    rw [hcode]
    dsimp only
    by_cases hrejected : code ≠ 90
    · rw [if_pos hrejected]
      exact ⟨_, rfl, .fails socket.receiveBuffer .econnaborted⟩
    · rw [if_neg hrejected, establishes_eq (by omega)]
      exact ⟨_, rfl, .socks4 hstate (by omega)⟩

theorem onSocks5Method_spec
    (hstate : socket.handshakeState = .socks5Method)
    (hsent : socket.sendBuffer = []) :
    ∃ handled, socket.onSocks5Method lib = .ok handled ∧
      ReplyStep lib socket handled := by
  unfold onSocks5Method
  by_cases hshort : socket.receiveBuffer.length < 2
  · rw [if_pos hshort]
    exact ⟨_, rfl, .waits⟩
  · rw [if_neg hshort]
    rcases @readAt_ok socket 1 (by omega) with ⟨method, hmethod⟩
    rw [hmethod]
    dsimp only
    by_cases hnone : method = 0
    · rw [if_pos hnone, advances_eq (by omega)]
      exact ⟨_, rfl, .asks _ _ hsent (by omega) (.afterMethod hstate)⟩
    · rw [if_neg hnone]
      by_cases hpassword : method = 2
      · rw [if_pos hpassword, advances_eq (by omega)]
        exact ⟨_, rfl, .asks _ _ hsent (by omega) (.credentials hstate)⟩
      · rw [if_neg hpassword]
        exact ⟨_, rfl, .fails socket.receiveBuffer .econnaborted⟩

theorem onSocks5Auth_spec
    (hstate : socket.handshakeState = .socks5Auth)
    (hsent : socket.sendBuffer = []) :
    ∃ handled, socket.onSocks5Auth lib = .ok handled ∧
      ReplyStep lib socket handled := by
  unfold onSocks5Auth
  by_cases hshort : socket.receiveBuffer.length < 2
  · rw [if_pos hshort]
    exact ⟨_, rfl, .waits⟩
  · rw [if_neg hshort]
    rcases @readAt_ok socket 1 (by omega) with ⟨status, hstatus⟩
    rw [hstatus]
    dsimp only
    by_cases hrejected : status ≠ 0
    · rw [if_pos hrejected]
      exact ⟨_, rfl, .fails socket.receiveBuffer .econnaborted⟩
    · rw [if_neg hrejected, advances_eq (by omega)]
      exact ⟨_, rfl, .asks _ _ hsent (by omega) (.afterCredentials hstate)⟩

theorem whole_spec (hstate : socket.handshakeState = .socks5Request)
    (hsent : socket.sendBuffer = []) (count : ℕ) :
    ∃ handled,
      (if socket.receiveBuffer.length < count then .ok socket.goesOn
        else socket.establishes count) = .ok handled ∧
      ReplyStep lib socket handled := by
  by_cases hshort : socket.receiveBuffer.length < count
  · rw [if_pos hshort]
    exact ⟨_, rfl, .waits⟩
  · rw [if_neg hshort, establishes_eq (by omega)]
    exact ⟨_, rfl, .socks5 count hstate hsent (by omega)⟩

theorem onSocks5Address_spec
    (hstate : socket.handshakeState = .socks5Request)
    (hsent : socket.sendBuffer = [])
    (hlength : 4 ≤ socket.receiveBuffer.length) :
    ∃ handled, socket.onSocks5Address = .ok handled ∧
      ReplyStep lib socket handled := by
  unfold onSocks5Address
  rcases @readAt_ok socket 3 (by omega) with ⟨type, htype⟩
  rw [htype]
  dsimp only
  by_cases hipv4 : type = 1
  · rw [if_pos hipv4]
    exact whole_spec hstate hsent 10
  · rw [if_neg hipv4]
    by_cases hname : type = 3
    · rw [if_pos hname]
      by_cases hshort : socket.receiveBuffer.length < 5
      · rw [if_pos hshort]
        exact ⟨_, rfl, .waits⟩
      · rw [if_neg hshort]
        rcases @readAt_ok socket 4 (by omega) with ⟨length, hlen⟩
        rw [hlen]
        exact whole_spec hstate hsent (length.toNat + 7)
    · rw [if_neg hname]
      by_cases hipv6 : type = 4
      · rw [if_pos hipv6]
        exact whole_spec hstate hsent 22
      · rw [if_neg hipv6]
        exact ⟨_, rfl, .fails socket.receiveBuffer .econnaborted⟩

theorem onSocks5Request_spec
    (hstate : socket.handshakeState = .socks5Request)
    (hsent : socket.sendBuffer = []) :
    ∃ handled, socket.onSocks5Request = .ok handled ∧
      ReplyStep lib socket handled := by
  unfold onSocks5Request
  by_cases hshort : socket.receiveBuffer.length < 2
  · rw [if_pos hshort]
    exact ⟨_, rfl, .waits⟩
  · rw [if_neg hshort]
    rcases @readAt_ok socket 1 (by omega) with ⟨code, hcode⟩
    rw [hcode]
    dsimp only
    by_cases hrejected : code ≠ 0
    · rw [if_pos hrejected]
      exact ⟨_, rfl, .fails socket.receiveBuffer .econnaborted⟩
    · rw [if_neg hrejected]
      by_cases hfour : socket.receiveBuffer.length < 4
      · rw [if_pos hfour]
        exact ⟨_, rfl, .waits⟩
      · rw [if_neg hfour]
        exact onSocks5Address_spec hstate hsent (by omega)

theorem onSocks5Reply_spec
    {parse : ProxySocket → Except Fault Handled}
    (hnonempty : socket.receiveBuffer ≠ [])
    (hparse : socket.sendBuffer = [] →
      ∃ handled, parse socket = .ok handled ∧
        ReplyStep lib socket handled) :
    ∃ handled, socket.onSocks5Reply parse = .ok handled ∧
      ReplyStep lib socket handled := by
  have hpositive := List.length_pos_iff.mpr hnonempty
  unfold onSocks5Reply
  by_cases hsent : socket.sendBuffer = []
  · rw [if_neg (not_not.mpr hsent)]
    rcases @readAt_ok socket 0 hpositive with ⟨version, hversion⟩
    rw [hversion]
    dsimp only
    by_cases hother : version ≠ replyVersion socket.handshakeState
    · rw [if_pos hother]
      exact ⟨_, rfl, .fails socket.receiveBuffer .econnaborted⟩
    · rw [if_neg hother]
      exact hparse hsent
  · rw [if_pos hsent]
    exact ⟨_, rfl, .fails socket.receiveBuffer .econnaborted⟩

/-! ## HTTP -/

theorem take_of_accepted (hlib : lib.ReadsUtf8) {reply : String}
    {line rest : Bytes} (hlength : (ascii reply).length = 10)
    (hreply : reply.toList ≠ [])
    (haccepted : (lib.toWstringFromUtf8 line).take 10 = reply.toList) :
    (line ++ rest).take 10 = ascii reply := by
  have hdecoded : lib.toWstringFromUtf8 line ≠ [] := by
    intro hempty
    rw [hempty, List.take_nil] at haccepted
    exact hreply haccepted.symm
  have hline : line =
      ascii reply ++ utf8 ((lib.toWstringFromUtf8 line).drop 10) := by
    unfold ascii
    rw [← haccepted, ← utf8_append, List.take_append_drop,
      hlib line hdecoded]
  rw [hline, List.append_assoc, ← hlength, List.take_left]

theorem ReadsAccepted.starts (hlib : lib.ReadsUtf8) {buffer : Bytes}
    (haccepted : ReadsAccepted lib buffer) : StartsAccepted buffer := by
  have hbuffer : firstLine buffer ++ buffer.dropWhile (· ≠ 13) = buffer :=
    List.takeWhile_append_dropWhile
  unfold ReadsAccepted accepted at haccepted
  rw [Bool.or_eq_true, decide_eq_true_eq, decide_eq_true_eq] at haccepted
  rw [← hbuffer]
  rcases haccepted with haccepted | haccepted
  · exact Or.inl (take_of_accepted hlib (by decide) (by decide) haccepted)
  · exact Or.inr (take_of_accepted hlib (by decide) (by decide) haccepted)

theorem exists_line {buffer : Bytes} (hreturn : 13 ∈ buffer) :
    ∃ rest, buffer = firstLine buffer ++ 13 :: rest := by
  have hdrop : buffer.dropWhile (· ≠ 13) ≠ [] := by
    intro hempty
    rw [List.dropWhile_eq_nil_iff] at hempty
    have hnot := hempty 13 hreturn
    revert hnot
    decide
  rcases List.exists_cons_of_ne_nil hdrop with ⟨symbol, rest, hcons⟩
  have hhead := List.head?_dropWhile_not (· ≠ (13 : UInt8)) buffer
  rw [hcons] at hhead
  have hsymbol : symbol = 13 := by simpa using hhead
  subst hsymbol
  refine ⟨rest, ?_⟩
  unfold firstLine
  rw [← hcons, List.takeWhile_append_dropWhile]

theorem cString_set {buffer : Bytes} (hreturn : 13 ∈ buffer)
    (hfree : ¬NulInFirstLine buffer) :
    cString (buffer.set (firstLine buffer).length 0) = firstLine buffer := by
  rcases exists_line hreturn with ⟨rest, hbuffer⟩
  unfold NulInFirstLine at hfree
  generalize firstLine buffer = line at hbuffer hfree ⊢
  have hnonzero : ∀ byte ∈ line, decide (byte ≠ 0) = true := by
    intro byte hbyte
    rw [decide_eq_true_eq]
    rintro rfl
    exact hfree hbyte
  have hset : buffer.set line.length 0 = line ++ 0 :: rest := by
    rw [hbuffer]
    simp
  unfold cString
  rw [hset, List.takeWhile_append_of_pos hnonzero]
  simp

theorem findBefore_line {buffer : Bytes} (hreturn : 13 ∈ buffer) :
    (NulInFirstLine buffer → findBefore 0 13 buffer 0 = .ok none) ∧
      (¬NulInFirstLine buffer →
        findBefore 0 13 buffer 0 = .ok (some (firstLine buffer).length)) := by
  rw [findBefore_spec hreturn 0, Nat.zero_add]
  constructor
  · intro hnul
    exact congrArg Except.ok (if_pos hnul)
  · intro hfree
    exact congrArg Except.ok (if_neg hfree)

theorem length_line_le {buffer : Bytes} {i : ℕ}
    (hstands : StandsAt buffer crlfCrlf i) :
    13 ∈ buffer ∧ i + 4 ≤ buffer.length ∧ (firstLine buffer).length ≤ i := by
  rcases hstands with ⟨rest, hdrop⟩
  have hlength := congrArg List.length hdrop
  rw [List.length_append, List.length_drop] at hlength
  have hfour : crlfCrlf.length = 4 := rfl
  have hget : buffer[i]? = some 13 := by
    rw [← List.head?_drop, ← hdrop]
    rfl
  have hreturn := List.mem_of_getElem? hget
  refine ⟨hreturn, by omega, ?_⟩
  by_contra hlt
  rcases exists_line hreturn with ⟨more, hbuffer⟩
  have hline : (firstLine buffer)[i]? = some 13 := by
    rw [hbuffer, List.getElem?_append_left (by omega)] at hget
    exact hget
  have hmem := List.mem_takeWhile_imp (List.mem_of_getElem? hline)
  revert hmem
  decide

theorem onHttpReply_spec (hstate : socket.handshakeState = .httpWait) :
    (HeaderComplete socket.receiveBuffer ∧
        NulInFirstLine socket.receiveBuffer ∧
        socket.onHttpReply lib = .error .nullPointer) ∨
      (¬(HeaderComplete socket.receiveBuffer ∧
          NulInFirstLine socket.receiveBuffer) ∧
        ∃ handled, socket.onHttpReply lib = .ok handled ∧
          ReplyStep lib socket handled) := by
  have hbound : socket.receiveBuffer.length - 3 = 0 ∨
      0 + (socket.receiveBuffer.length - 3) + crlfCrlf.length ≤
        socket.receiveBuffer.length + 1 := by
    have hfour : crlfCrlf.length = 4 := rfl
    omega
  rcases search_spec hbound with ⟨found, hsearch, hsome, hnone⟩
  have hsearch' : search socket.receiveBuffer [13, 10, 13, 10]
      (socket.receiveBuffer.length - 3) 0 = .ok found := hsearch
  unfold onHttpReply
  dsimp only
  rw [hsearch']
  cases found with
  | none =>
      right
      have hincomplete : ¬HeaderComplete socket.receiveBuffer := by
        rintro ⟨i, hstands⟩
        have hlength := (length_line_le hstands).2.1
        exact hnone rfl i (Nat.zero_le _) (by omega) hstands
      refine ⟨fun h => hincomplete h.1, ?_⟩
      dsimp only
      split_ifs
      · exact ⟨_, rfl, .fails socket.receiveBuffer .enomem⟩
      · exact ⟨_, rfl, .waits⟩
  | some i =>
      have hstands := (hsome i rfl).2.2.1
      rcases length_line_le hstands with ⟨hreturn, hlength, hline⟩
      dsimp only
      by_cases hnul : NulInFirstLine socket.receiveBuffer
      · left
        rw [(findBefore_line hreturn).1 hnul]
        exact ⟨⟨i, hstands⟩, hnul, rfl⟩
      · right
        refine ⟨fun h => hnul h.2, ?_⟩
        rw [(findBefore_line hreturn).2 hnul]
        dsimp only
        rw [cString_set hreturn hnul]
        cases haccepted : accepted (lib.toWstringFromUtf8
            (firstLine socket.receiveBuffer)) with
        | false =>
            exact ⟨_, rfl, .fails _ .econnreset⟩
        | true =>
            have hkept : (socket.receiveBuffer.set
                (firstLine socket.receiveBuffer).length 0).drop (i + 4) =
                socket.receiveBuffer.drop (i + 4) := by
              rw [List.drop_set, if_pos (by omega)]
            refine ⟨socket.established (i + 4), ?_,
              .http i hstate hstands haccepted⟩
            have hle : i + 4 ≤ (socket.receiveBuffer.set
                (firstLine socket.receiveBuffer).length 0).length := by
              rw [List.length_set]
              exact hlength
            rw [if_neg (by decide)]
            refine (establishes_eq hle).trans ?_
            unfold established
            dsimp only
            rw [hkept]

/-! ## One round -/

/-- The search for the end of the first line ends at a NUL, and its result is
used as a pointer. -/
def Crashes (socket : ProxySocket) : Prop :=
  socket.handshakeState = .httpWait ∧
    HeaderComplete socket.receiveBuffer ∧ NulInFirstLine socket.receiveBuffer

theorem onReply_spec (hnonempty : socket.receiveBuffer ≠ []) :
    (socket.Crashes ∧ socket.onReply lib = .error .nullPointer) ∨
      (¬socket.Crashes ∧ ∃ handled, socket.onReply lib = .ok handled ∧
        ReplyStep lib socket handled) := by
  unfold onReply
  cases hstate : socket.handshakeState with
  | httpWait =>
      rcases @onHttpReply_spec lib socket hstate with
        ⟨hcomplete, hnul, hfault⟩ | ⟨hfree, hhandled⟩
      · exact Or.inl ⟨⟨hstate, hcomplete, hnul⟩, hfault⟩
      · exact Or.inr ⟨fun hcrash => hfree hcrash.2, hhandled⟩
  | socks4Handshake =>
      refine Or.inr ⟨?_, onSocks4Reply_spec hstate⟩
      rintro ⟨hhttp, _⟩
      rw [hstate] at hhttp
      cases hhttp
  | socks5Method =>
      refine Or.inr ⟨?_, onSocks5Reply_spec hnonempty
        (onSocks5Method_spec hstate)⟩
      rintro ⟨hhttp, _⟩
      rw [hstate] at hhttp
      cases hhttp
  | socks5Auth =>
      refine Or.inr ⟨?_, onSocks5Reply_spec hnonempty
        (onSocks5Auth_spec hstate)⟩
      rintro ⟨hhttp, _⟩
      rw [hstate] at hhttp
      cases hhttp
  | socks5Request =>
      refine Or.inr ⟨?_, onSocks5Reply_spec hnonempty
        (onSocks5Request_spec hstate)⟩
      rintro ⟨hhttp, _⟩
      rw [hstate] at hhttp
      cases hhttp

/-- The socket when bytes have arrived. -/
def received (socket : ProxySocket) (data : Bytes) : ProxySocket :=
  { socket with receiveBuffer := socket.receiveBuffer ++ data }

/-- What is read does not make the search fail. -/
def SparesNul (socket : ProxySocket) (input : ProxyInput) : Prop :=
  ∀ data, input = .readAnswer (.bytes data) →
    ¬(socket.received data).Crashes

/-! ## Steps -/

/-- The elementary effects of a step. -/
inductive Effect (lib : AddressLibrary) (socket : ProxySocket) :
    ProxyInput → ProxySocket × List ProxyOutput → Prop
  | ignores (event : SocketEvent) (error : Option SocketError) :
      Effect lib socket (.event event error) (socket, [])
  | forwards (event : SocketEvent) (error : Option SocketError) :
      Effect lib socket (.event event error) (socket, [.forwarded error])
  | eventFails (event : SocketEvent) (error : SocketError) :
      socket.frames = [] → socket.state = .connecting →
      Effect lib socket (.event event (some error))
        ({ socket with state := .failed }, [.forwarded (some error)])
  | receives (event : SocketEvent) :
      socket.frames = [] → socket.state = .connecting →
      Effect lib socket (.event event none)
        ({ socket with canRead := true, frames := [.receiving] }, [])
  | sends (event : SocketEvent) : socket.frames = [] →
      socket.state = .connecting → socket.sendBuffer ≠ [] →
      Effect lib socket (.event event none)
        ({ socket with canWrite := true, frames := [.sending] }, [])
  | sendsNothing (event : SocketEvent) :
      Effect lib socket (.event event none)
        ({ socket with canWrite := true }, [])
  | readFails (answer : ReadAnswer) (error : SocketError) :
      socket.frames.head? = some .receiving →
      (∀ data, answer ≠ .bytes data) →
      Effect lib socket (.readAnswer answer)
        ({ socket with state := .failed }.leave, [.connection (some error)])
  | readsAgain : socket.frames.head? = some .receiving →
      Effect lib socket (.readAnswer .again)
        ({ socket with canRead := false }.leave, [])
  | crashes (data : Bytes) : socket.frames.head? = some .receiving →
      (socket.received data).Crashes →
      Effect lib socket (.readAnswer (.bytes data))
        ({ socket.received data with fault := some .nullPointer }, [])
  | replies (data : Bytes) (handled : Handled) :
      socket.frames.head? = some .receiving →
      ¬(socket.received data).Crashes →
      ReplyStep lib (socket.received data) handled →
      Effect lib socket (.readAnswer (.bytes data)) handled.resume
  | writes (count : ℕ) : socket.frames.head? = some .sending →
      socket.sendBuffer.drop count ≠ [] →
      Effect lib socket (.writeAnswer (.written count))
        ({ socket with sendBuffer := socket.sendBuffer.drop count },
          [.sent (socket.sendBuffer.take count)])
  | writesAll (count : ℕ) : socket.frames.head? = some .sending →
      Effect lib socket (.writeAnswer (.written count))
        ({ socket with sendBuffer := [] }.leave, [.sent socket.sendBuffer])
  | writesAllAndReceives (count : ℕ) :
      socket.frames.head? = some .sending → socket.state = .connecting →
      Effect lib socket (.writeAnswer (.written count))
        ({ socket with
            sendBuffer := []
            canRead := true
            frames := .receiving :: socket.frames },
          [.sent socket.sendBuffer])
  | writesAgain : socket.frames.head? = some .sending →
      Effect lib socket (.writeAnswer .again)
        ({ socket with canWrite := false }.leave, [])
  | writeFails (error : SocketError) :
      socket.frames.head? = some .sending →
      Effect lib socket (.writeAnswer (.error error))
        ({ socket with state := .failed }.leave, [.connection (some error)])
  | delivers (size : ℕ) (answer : ReadAnswer) (buffer data : Bytes) :
      socket.frames = [] → socket.state = .connected →
      Effect lib socket (.read size answer)
        ({ socket with receiveBuffer := buffer }, [.delivered data])
  | deliversNothing (size : ℕ) (answer : ReadAnswer) :
      Effect lib socket (.read size answer) (socket, [])

theorem onSocketEvent_effect (event : SocketEvent)
    (error : Option SocketError) (hidle : socket.frames = []) :
    Effect lib socket (.event event error)
      (socket.onSocketEvent event error) := by
  unfold onSocketEvent
  by_cases hstate : socket.state = .connecting
  · rw [if_neg (not_not.mpr hstate)]
    by_cases hnext : event = .connectionNext
    · rw [if_pos hnext]
      exact .forwards event error
    · rw [if_neg hnext]
      cases error with
      | some error => exact .eventFails event error hidle hstate
      | none =>
          dsimp only
          by_cases hread : event = .read
          · rw [if_pos hread]
            unfold onReceive
            dsimp only
            rw [if_neg (not_not.mpr hstate), hidle]
            exact .receives event hidle hstate
          · rw [if_neg hread]
            unfold onSend
            dsimp only
            by_cases hempty : socket.sendBuffer = []
            · rw [if_pos (Or.inr hempty)]
              exact .sendsNothing event
            · rw [if_neg (by simp [hstate, hempty]), hidle]
              exact .sends event hidle hstate hempty
  · rw [if_pos hstate]
    exact .ignores event error

theorem afterRead_bytes (data : Bytes) :
    socket.afterRead lib (.bytes data) =
      match (socket.received data).onReply lib with
      | .error fault =>
          ({ socket.received data with fault := some fault }, [])
      | .ok handled => handled.resume :=
  rfl

theorem afterRead_effect (answer : ReadAnswer)
    (hcall : socket.frames.head? = some .receiving)
    (hfits : answer.fits 1024 = true) :
    Effect lib socket (.readAnswer answer) (socket.afterRead lib answer) := by
  cases answer with
  | error error => exact .readFails (.error error) error hcall nofun
  | closed => exact .readFails .closed .econnaborted hcall nofun
  | again => exact .readsAgain hcall
  | bytes data =>
      unfold ReadAnswer.fits at hfits
      rw [Bool.and_eq_true, decide_eq_true_eq] at hfits
      have hbuffer : (socket.received data).receiveBuffer ≠ [] := by
        unfold received
        simp [hfits.1]
      rw [afterRead_bytes]
      rcases @onReply_spec lib (socket.received data) hbuffer with
        ⟨hcrash, hreply⟩ | ⟨hspared, handled, hreply, hstep⟩
      · rw [hreply]
        exact .crashes data hcall hcrash
      · rw [hreply]
        exact .replies data handled hcall hspared hstep

theorem afterWrite_effect (answer : WriteAnswer)
    (hcall : socket.frames.head? = some .sending) :
    Effect lib socket (.writeAnswer answer) (socket.afterWrite answer) := by
  cases answer with
  | error error => exact .writeFails error hcall
  | again => exact .writesAgain hcall
  | written count =>
      unfold afterWrite
      dsimp only
      by_cases hrest : socket.sendBuffer.drop count = []
      · have hall : socket.sendBuffer.take count = socket.sendBuffer := by
          apply List.take_of_length_le
          exact List.drop_eq_nil_iff.mp hrest
        rw [if_pos hrest, hall, hrest]
        by_cases hreads : socket.canRead ∧ socket.state = .connecting
        · rw [if_pos hreads]
          unfold onReceive
          dsimp only
          rw [if_neg (not_not.mpr hreads.2)]
          exact .writesAllAndReceives count hcall hreads.2
        · rw [if_neg hreads]
          exact .writesAll count hcall
      · rw [if_neg hrest]
        exact .writes count hcall hrest

theorem read_effect (size : ℕ) (answer : ReadAnswer)
    (hidle : socket.frames = []) (hstate : socket.state = .connected) :
    Effect lib socket (.read size answer) (socket.read size answer) := by
  unfold read
  split_ifs
  · exact .delivers size answer _ _ hidle hstate
  · cases answer with
    | bytes data =>
        exact .delivers size (.bytes data) socket.receiveBuffer data hidle
          hstate
    | closed => exact .deliversNothing size .closed
    | again => exact .deliversNothing size .again
    | error error => exact .deliversNothing size (.error error)

theorem step_effect {input : ProxyInput}
    {result : ProxySocket × List ProxyOutput}
    (hstep : socket.step lib input = some result) :
    socket.fault = none ∧ Effect lib socket input result := by
  unfold step at hstep
  by_cases hfault : socket.fault = none
  · rw [if_neg (not_not.mpr hfault)] at hstep
    refine ⟨hfault, ?_⟩
    cases input with
    | event event error =>
        dsimp only at hstep
        split_ifs at hstep with hidle
        cases hstep
        exact onSocketEvent_effect event error hidle
    | readAnswer answer =>
        dsimp only at hstep
        split_ifs at hstep with hcall
        cases hstep
        exact afterRead_effect answer hcall.1 hcall.2
    | writeAnswer answer =>
        dsimp only at hstep
        split_ifs at hstep with hcall
        cases hstep
        exact afterWrite_effect answer hcall.1
    | read size answer =>
        dsimp only at hstep
        split_ifs at hstep with hcall
        cases hstep
        exact read_effect size answer hcall.1 hcall.2.1
  · rw [if_pos hfault] at hstep
    cases hstep

/-! ## Faults -/

theorem resume_fault (handled : Handled) :
    handled.resume.1.fault = handled.socket.fault := by
  unfold Handled.resume
  split
  · rfl
  · rfl
  · unfold onSend
    dsimp only
    split_ifs <;> rfl

/-- A step faults exactly if it does not meet the condition. -/
theorem step_fault_iff {input : ProxyInput}
    {result : ProxySocket × List ProxyOutput}
    (hstep : socket.step lib input = some result) :
    result.1.fault = none ↔ socket.SparesNul input := by
  rcases step_effect hstep with ⟨hfault, heffect⟩
  cases heffect with
  | crashes data hcall hcrash =>
      constructor
      · intro hnone
        cases hnone
      · intro hspares
        exact absurd hcrash (hspares data rfl)
  | replies data handled hcall hspared hreply =>
      have hkept : handled.socket.fault = none := by
        cases hreply <;> exact hfault
      constructor
      · intro _ other heq
        cases heq
        exact hspared
      · intro _
        exact (resume_fault handled).trans hkept
  | readFails answer error hcall hother =>
      refine iff_of_true hfault ?_
      intro data heq
      cases heq
      exact absurd rfl (hother data)
  | _ => exact iff_of_true hfault nofun

/-! ## HTTP -/

/-- The bytes that were read from the proxy. -/
def replyBytes (inputs : List ProxyInput) : Bytes :=
  inputs.flatMap fun input =>
    match input with
    | .readAnswer (.bytes data) => data
    | _ => []

def ShallowFrames (frames : List ProxyFrame) : Prop :=
  frames = [] ∨ frames = [.sending] ∨ frames = [.receiving] ∨
    frames = [.receiving, .sending]

structure HttpHandshake (inputs : List ProxyInput)
    (outputs : List ProxyOutput) (socket : ProxySocket) : Prop where
  handshake : socket.handshakeState = .httpWait
  frames : ShallowFrames socket.frames
  buffer : socket.state = .connecting →
    socket.receiveBuffer = replyBytes inputs ∧
      .connection none ∉ outputs
  ended : socket.state ≠ .connecting → socket.frames = []
  reported : .connection none ∈ outputs →
    StartsAccepted (replyBytes inputs)

theorem replyBytes_append (inputs more : List ProxyInput) :
    replyBytes (inputs ++ more) =
      replyBytes inputs ++ replyBytes more := by
  unfold replyBytes
  rw [List.flatMap_append]

theorem ShallowFrames.leave {frames : List ProxyFrame}
    (hshallow : ShallowFrames frames) (canRead : Bool) :
    unwind canRead frames.tail = [] := by
  rcases hshallow with rfl | rfl | rfl | rfl <;> rfl

theorem ShallowFrames.unwind {frames : List ProxyFrame}
    (hshallow : ShallowFrames frames) (canRead : Bool) :
    ShallowFrames (unwind canRead frames) := by
  unfold ShallowFrames
  rcases hshallow with rfl | rfl | rfl | rfl <;> cases canRead <;>
    simp [ProxySocket.unwind]

variable {inputs : List ProxyInput} {outputs : List ProxyOutput}

theorem HttpHandshake.connecting
    (hhttp : HttpHandshake inputs outputs socket) {frame : ProxyFrame}
    (hcall : socket.frames.head? = some frame) :
    socket.state = .connecting := by
  by_contra hstate
  rw [hhttp.ended hstate] at hcall
  cases hcall

theorem HttpHandshake.fails
    (hhttp : HttpHandshake inputs outputs socket) {input : ProxyInput}
    {answer : List ProxyOutput} (hidle : following.frames = [])
    (hstate : following.state ≠ .connecting)
    (hhandshake : following.handshakeState = socket.handshakeState)
    (hconnecting : socket.state = .connecting)
    (hanswer : .connection none ∉ answer) :
    HttpHandshake (inputs ++ [input]) (outputs ++ answer) following := by
  refine ⟨hhandshake.trans hhttp.handshake, Or.inl hidle,
    fun h => absurd h hstate, fun _ => hidle, ?_⟩
  intro hreported
  rcases List.mem_append.mp hreported with hold | hnew
  · exact absurd hold (hhttp.buffer hconnecting).2
  · exact absurd hnew hanswer

theorem HttpHandshake.goesOn
    (hhttp : HttpHandshake inputs outputs socket) {input : ProxyInput}
    {answer : List ProxyOutput} (hframes : ShallowFrames following.frames)
    (hstate : following.state = socket.state)
    (hended : socket.state ≠ .connecting → following.frames = [])
    (hhandshake : following.handshakeState = socket.handshakeState)
    (hbuffer : socket.state = .connecting →
      following.receiveBuffer =
        socket.receiveBuffer ++ replyBytes [input])
    (hidle : socket.state ≠ .connecting → replyBytes [input] = [])
    (hanswer : .connection none ∉ answer) :
    HttpHandshake (inputs ++ [input]) (outputs ++ answer) following := by
  refine ⟨hhandshake.trans hhttp.handshake, hframes, ?_, ?_, ?_⟩
  · intro hconnecting
    rw [hstate] at hconnecting
    rcases hhttp.buffer hconnecting with ⟨hold, hnone⟩
    rw [hbuffer hconnecting, hold, replyBytes_append]
    refine ⟨rfl, ?_⟩
    intro hreported
    rcases List.mem_append.mp hreported with hreported | hreported
    · exact hnone hreported
    · exact hanswer hreported
  · intro hnot
    rw [hstate] at hnot
    exact hended hnot
  · intro hreported
    rcases List.mem_append.mp hreported with hold | hnew
    · by_cases hconnecting : socket.state = .connecting
      · exact absurd hold (hhttp.buffer hconnecting).2
      · rw [replyBytes_append, hidle hconnecting, List.append_nil]
        exact hhttp.reported hold
    · exact absurd hnew hanswer

theorem replyBytes_singleton (data : Bytes) :
    replyBytes [.readAnswer (.bytes data)] = data :=
  List.append_nil data

theorem HttpHandshake.replies (hlib : lib.ReadsUtf8)
    (hhttp : HttpHandshake inputs outputs socket) {data : Bytes}
    {handled : Handled} (hcall : socket.frames.head? = some .receiving)
    (hreply : ReplyStep lib (socket.received data) handled) :
    HttpHandshake (inputs ++ [.readAnswer (.bytes data)])
      (outputs ++ handled.resume.2) handled.resume.1 := by
  have hconnecting := hhttp.connecting hcall
  have hbuffer : (socket.received data).receiveBuffer =
      replyBytes (inputs ++ [.readAnswer (.bytes data)]) := by
    rw [replyBytes_append, replyBytes_singleton,
      ← (hhttp.buffer hconnecting).1]
    rfl
  cases hreply with
  | waits =>
      exact hhttp.goesOn (hhttp.frames.unwind _) rfl
        (fun hnot => absurd hconnecting hnot) rfl
        (fun _ => by rw [replyBytes_singleton]; rfl)
        (fun hnot => absurd hconnecting hnot) (by exact List.not_mem_nil)
  | fails buffer error =>
      refine hhttp.fails (hhttp.frames.leave _) nofun rfl hconnecting ?_
      simp [ProxySocket.fails, Handled.resume]
  | http i hstate hstands haccepted =>
      refine ⟨hhttp.handshake, Or.inl (hhttp.frames.leave _), nofun,
        fun _ => hhttp.frames.leave _, ?_⟩
      intro _
      rw [← hbuffer]
      exact haccepted.starts hlib
  | socks4 hstate =>
      exact absurd (hhttp.handshake.symm.trans hstate) nofun
  | socks5 count hstate =>
      exact absurd (hhttp.handshake.symm.trans hstate) nofun
  | asks next request hsent hlength hasks =>
      have hhttpWait : (socket.received data).handshakeState = .httpWait :=
        hhttp.handshake
      cases hasks with
      | afterMethod hstate => exact absurd (hhttpWait.symm.trans hstate) nofun
      | credentials hstate => exact absurd (hhttpWait.symm.trans hstate) nofun
      | afterCredentials hstate =>
          exact absurd (hhttpWait.symm.trans hstate) nofun

/-- One step of the handshake by HTTP. -/
theorem HttpHandshake.step (hlib : lib.ReadsUtf8)
    (hhttp : HttpHandshake inputs outputs socket) {input : ProxyInput}
    {result : ProxySocket × List ProxyOutput}
    (hstep : socket.step lib input = some result) :
    HttpHandshake (inputs ++ [input]) (outputs ++ result.2) result.1 := by
  rcases step_effect hstep with ⟨hfault, heffect⟩
  cases heffect with
  | ignores event error =>
      exact hhttp.goesOn hhttp.frames rfl hhttp.ended rfl
        (fun _ => (List.append_nil _).symm) (fun _ => rfl) (by simp)
  | forwards event error =>
      exact hhttp.goesOn hhttp.frames rfl hhttp.ended rfl
        (fun _ => (List.append_nil _).symm) (fun _ => rfl) (by simp)
  | sendsNothing event =>
      exact hhttp.goesOn hhttp.frames rfl hhttp.ended rfl
        (fun _ => (List.append_nil _).symm) (fun _ => rfl) (by simp)
  | deliversNothing size answer =>
      exact hhttp.goesOn hhttp.frames rfl hhttp.ended rfl
        (fun _ => (List.append_nil _).symm) (fun _ => rfl) (by simp)
  | eventFails event error hidle hconnecting =>
      exact hhttp.fails hidle nofun rfl hconnecting (by simp)
  | receives event hidle hconnecting =>
      exact hhttp.goesOn (Or.inr (Or.inr (Or.inl rfl))) rfl
        (fun hnot => absurd hconnecting hnot) rfl
        (fun _ => (List.append_nil _).symm) (fun _ => rfl) (by simp)
  | sends event hidle hconnecting hbuffer =>
      exact hhttp.goesOn (Or.inr (Or.inl rfl)) rfl
        (fun hnot => absurd hconnecting hnot) rfl
        (fun _ => (List.append_nil _).symm) (fun _ => rfl) (by simp)
  | readFails answer error hcall hother =>
      exact hhttp.fails (hhttp.frames.leave _) nofun rfl
        (hhttp.connecting hcall) (by simp)
  | readsAgain hcall =>
      exact hhttp.goesOn (Or.inl (hhttp.frames.leave _)) rfl
        (fun _ => hhttp.frames.leave _) rfl
        (fun _ => (List.append_nil _).symm) (fun _ => rfl) (by simp)
  | crashes data hcall hcrash =>
      have hconnecting := hhttp.connecting hcall
      exact hhttp.goesOn hhttp.frames rfl hhttp.ended rfl
        (fun _ => by rw [replyBytes_singleton]; rfl)
        (fun hnot => absurd hconnecting hnot) (by simp)
  | replies data handled hcall hspared hreply =>
      exact hhttp.replies hlib hcall hreply
  | writes count hcall hrest =>
      exact hhttp.goesOn hhttp.frames rfl hhttp.ended rfl
        (fun _ => (List.append_nil _).symm) (fun _ => rfl) (by simp)
  | writesAll count hcall =>
      exact hhttp.goesOn (Or.inl (hhttp.frames.leave _)) rfl
        (fun _ => hhttp.frames.leave _) rfl
        (fun _ => (List.append_nil _).symm) (fun _ => rfl) (by simp)
  | writesAllAndReceives count hcall hconnecting =>
      have hframes : ShallowFrames (.receiving :: socket.frames) := by
        rcases hhttp.frames with h | h | h | h
        · rw [h] at hcall
          cases hcall
        · rw [h]
          exact Or.inr (Or.inr (Or.inr rfl))
        · rw [h] at hcall
          cases hcall
        · rw [h] at hcall
          cases hcall
      exact hhttp.goesOn hframes rfl
        (fun hnot => absurd hconnecting hnot) rfl
        (fun _ => (List.append_nil _).symm) (fun _ => rfl) (by simp)
  | writesAgain hcall =>
      exact hhttp.goesOn (Or.inl (hhttp.frames.leave _)) rfl
        (fun _ => hhttp.frames.leave _) rfl
        (fun _ => (List.append_nil _).symm) (fun _ => rfl) (by simp)
  | writeFails error hcall =>
      exact hhttp.fails (hhttp.frames.leave _) nofun rfl
        (hhttp.connecting hcall) (by simp)
  | delivers size answer buffer data hidle hconnected =>
      have hnot : socket.state ≠ .connecting := by
        rw [hconnected]
        exact nofun
      exact hhttp.goesOn hhttp.frames rfl hhttp.ended rfl
        (fun hconnecting => absurd hconnecting hnot) (fun _ => rfl) (by simp)

def beforeHandshake (type : ProxyType) (proxyHost : WString) (proxyPort : ℕ)
    (user pass host : WString) (port : ℕ) : ProxySocket :=
  { create type proxyHost proxyPort user pass with
    host := host
    port := port
    state := .connecting }

theorem startHandshake_canWrite (hstart :
    socket.startHandshake lib = some following) :
    following.canWrite = socket.canWrite := by
  unfold startHandshake at hstart
  split at hstart
  · split_ifs at hstart
    cases hstart
    rfl
  · split_ifs at hstart
    cases hstart
    rfl
  · cases hstart
    rfl

theorem connectBy_ok {next : NextLayer} {result : Option SocketError}
    (hblocked : socket.canWrite = false)
    (hconnect : socket.connectBy lib next result = (following, none)) :
    socket.startHandshake lib = some following := by
  unfold connectBy at hconnect
  cases hstart : socket.startHandshake lib with
  | none =>
      rw [hstart] at hconnect
      cases congrArg Prod.snd hconnect
  | some started =>
      rw [hstart] at hconnect
      dsimp only at hconnect
      unfold connectNext at hconnect
      by_cases hnone : next = .none
      · rw [if_pos hnone] at hconnect
        cases result with
        | none => exact congrArg (fun pair => some pair.1) hconnect
        | some error => cases congrArg Prod.snd hconnect
      · rw [if_neg hnone, startHandshake_canWrite hstart, hblocked,
          if_neg Bool.false_ne_true] at hconnect
        exact congrArg (fun pair => some pair.1) hconnect

theorem Connects.handshake {type : ProxyType} {user pass host : WString}
    {port : ℕ} (hconnects : Connects lib type user pass host port socket) :
    1 ≤ port ∧ port ≤ 65535 ∧ ∃ proxyHost proxyPort,
      (beforeHandshake type proxyHost proxyPort user pass host port
        ).startHandshake lib = some socket := by
  rcases hconnects with ⟨proxyHost, proxyPort, next, result, hconnect⟩
  unfold connect at hconnect
  rw [if_neg (by simp [create])] at hconnect
  by_cases hother : next = .other
  · rw [if_pos hother] at hconnect
    cases congrArg Prod.snd hconnect
  · rw [if_neg hother] at hconnect
    dsimp only at hconnect
    split_ifs at hconnect with hproxy hhost
    · cases congrArg Prod.snd hconnect
    · cases congrArg Prod.snd hconnect
    · simp only [not_or] at hhost
      exact ⟨by omega, by omega, proxyHost, proxyPort,
        connectBy_ok rfl hconnect⟩

theorem startHandshake_fault
    (hstart : socket.startHandshake lib = some following) :
    following.fault = socket.fault := by
  unfold startHandshake at hstart
  split at hstart
  · split_ifs at hstart
    cases hstart
    rfl
  · split_ifs at hstart
    cases hstart
    rfl
  · cases hstart
    rfl

theorem HttpHandshake.start {user pass host : WString} {port : ℕ}
    (hconnects : Connects lib .http user pass host port socket) :
    HttpHandshake [] [] socket := by
  rcases hconnects.handshake with ⟨_, _, proxyHost, proxyPort, hstart⟩
  cases hstart
  exact ⟨rfl, Or.inl rfl, fun _ => ⟨rfl, List.not_mem_nil⟩, fun _ => rfl,
    fun hreported => absurd hreported List.not_mem_nil⟩

end ProxySocket

open ProxySocket

/-- The bytes that end the header, and the end of the first line in it. -/
def LineFound (buffer : Bytes) : Prop :=
  ∀ i, StandsAt buffer crlfCrlf i →
    ∃ eol, findBefore 0 13 buffer 0 = .ok (some eol) ∧ eol ≤ i

/-- Replies are parsed inside of what has arrived, as long as no NUL stands in
the first line of a header; such a NUL is always a fault. -/
theorem proxy_replies_in_bounds {lib : AddressLibrary}
    (hlib : lib.ReadsUtf8) {type : ProxyType} {user pass host : WString}
    {port : ℕ} {inputs : List ProxyInput} {outputs : List ProxyOutput}
    {socket : ProxySocket}
    (hreach :
      (proxySocket lib type user pass host port).ReachesWithin SparesNul
        inputs outputs socket) :
    socket.fault = none ∧
      (∀ data, socket.SparesNul (.readAnswer (.bytes data)) →
        socket.handshakeState = .httpWait →
        LineFound (socket.receiveBuffer ++ data)) ∧
      (type = .http → .connection none ∈ outputs →
        StartsAccepted (replyBytes inputs)) ∧
      ∀ (socket : ProxySocket) input result,
        socket.step lib input = some result →
        (result.1.fault = none ↔ socket.SparesNul input) := by
  have hfault : socket.fault = none := by
    refine hreach.invariant (fun _ socket => socket.fault = none) ?_ ?_
    · intro start hconnects
      rcases hconnects.handshake with ⟨_, _, proxyHost, proxyPort, hstart⟩
      exact startHandshake_fault hstart
    · intro outputs socket input following answer _ hspares hstep
      exact (step_fault_iff hstep).mpr hspares
  refine ⟨hfault, ?_, ?_, fun _ _ _ hstep => step_fault_iff hstep⟩
  · intro data hspares hstate i hstands
    have hfree : ¬NulInFirstLine (socket.receiveBuffer ++ data) :=
      fun hnul => hspares data rfl ⟨hstate, ⟨i, hstands⟩, hnul⟩
    rcases length_line_le hstands with ⟨hreturn, _, hle⟩
    exact ⟨_, (findBefore_line hreturn).2 hfree, hle⟩
  · rintro rfl hreported
    have hhttp : HttpHandshake inputs outputs socket := by
      refine hreach.history HttpHandshake ?_ ?_
      · intro start hconnects
        exact HttpHandshake.start hconnects
      · intro inputs outputs socket input following answer hhttp _ hstep
        exact hhttp.step hlib hstep
    exact hhttp.reported hreported

/-- A library that knows no addresses. -/
def AddressLibrary.namesOnly : AddressLibrary where
  getAddressType _ := .unknown
  getIpv6LongForm _ := []
  hexCharToInt _ := 255
  base64Encode bytes := bytes
  toWstringFromUtf8 bytes :=
    match ByteArray.utf8Decode? ⟨bytes.toArray⟩ with
    | some text => text.toList
    | none => []

theorem AddressLibrary.namesOnly_readsUtf8 :
    AddressLibrary.namesOnly.ReadsUtf8 := by
  intro bytes hdecoded
  unfold namesOnly at hdecoded ⊢
  dsimp only at hdecoded ⊢
  cases hdecode : ByteArray.utf8Decode? ⟨bytes.toArray⟩ with
  | none =>
      rw [hdecode] at hdecoded
      exact absurd rfl hdecoded
  | some text =>
      have hencode : text.toList.utf8Encode = ⟨bytes.toArray⟩ := by
        have hsome : (ByteArray.utf8Decode? ⟨bytes.toArray⟩).isSome = true := by
          rw [hdecode]
          rfl
        have hget := @ByteArray.utf8Encode_get_utf8Decode?
          ⟨bytes.toArray⟩ hsome
        simpa [hdecode] using hget
      have hbytes := congrArg (fun array => array.data.toList) hencode
      simp only [List.utf8Encode, List.data_toByteArray] at hbytes
      exact hbytes

/-- A connection by HTTP with a proxy `p` on port 8080. -/
def ProxySocket.httpExample : ProxySocket :=
  ((create .http "p".toList 8080 [] []).connect .namesOnly "h".toList 21
    .none none).1

theorem ProxySocket.httpExample_reaches
    (allowed : ProxySocket → ProxyInput → Prop) :
    (proxySocket .namesOnly .http [] [] "h".toList 21).ReachesWithin allowed
      [] [] ProxySocket.httpExample := by
  refine .start ⟨"p".toList, 8080, .none, none, ?_⟩
  decide +kernel

/-- The proxy accepts the connection in two pieces. -/
theorem proxy_replies_in_bounds_accepted :
    ∃ inputs outputs socket,
      (proxySocket .namesOnly .http [] [] "h".toList 21).ReachesWithin
        SparesNul inputs outputs socket ∧
      socket.fault = none ∧ .connection none ∈ outputs ∧
      replyBytes inputs = ascii "HTTP/1.0 200\r\n\r\n" ∧
      StartsAccepted (replyBytes inputs) := by
  let inputs : List ProxyInput :=
    [.event .connection none,
      .writeAnswer (.written ProxySocket.httpExample.sendBuffer.length),
      .event .read none, .readAnswer (.bytes (ascii "HTTP/1.0 200\r")),
      .readAnswer (.bytes (ascii "\n\r\n"))]
  let faultless (socket : ProxySocket) (input : ProxyInput) : Bool :=
    (socket.step .namesOnly input).any fun result =>
      decide (result.1.fault = none)
  have hexec : ((proxySocket .namesOnly .http [] [] "h".toList 21).exec
      (fun socket input => faultless socket input = true)
      ProxySocket.httpExample inputs).map Prod.snd =
        some [.sent ProxySocket.httpExample.sendBuffer, .connection none] := by
    decide +kernel
  obtain ⟨⟨socket, outputs⟩, hrun, houtputs⟩ :=
    Option.map_eq_some_iff.mp hexec
  have hreach := ((ProxySocket.httpExample_reaches _).exec hrun).mono
    fun socket input hfaultless => by
      obtain ⟨result, hstep, hfault⟩ :=
        (Option.any_eq_true _ _).mp hfaultless
      exact (step_fault_iff hstep).mp (decide_eq_true_iff.mp hfault)
  rw [List.nil_append, List.nil_append] at hreach
  obtain ⟨hfault, _, haccepted, _⟩ :=
    proxy_replies_in_bounds AddressLibrary.namesOnly_readsUtf8 hreach
  have hreported : .connection none ∈ outputs := by
    change outputs = _ at houtputs
    rw [houtputs]
    exact List.mem_cons_of_mem _ List.mem_cons_self
  exact ⟨inputs, outputs, socket, hreach, hfault, hreported, rfl,
    haccepted rfl hreported⟩

/-- The proxy answers `H`, a NUL and the end of a header. -/
theorem proxy_reply_with_nul :
    ∃ inputs outputs socket,
      (proxySocket .namesOnly .http [] [] "h".toList 21).Reaches inputs
        outputs socket ∧
      socket.fault = some .nullPointer := by
  let inputs : List ProxyInput :=
    [.event .connection none,
      .writeAnswer (.written ProxySocket.httpExample.sendBuffer.length),
      .event .read none, .readAnswer (.bytes [72, 0, 13, 10, 13, 10])]
  have hexec : ((proxySocket .namesOnly .http [] [] "h".toList 21).exec
      (fun _ _ => True) ProxySocket.httpExample inputs).map
        (fun final => final.1.fault) = some (some .nullPointer) := by
    decide +kernel
  obtain ⟨⟨socket, outputs⟩, hrun, hfault⟩ :=
    Option.map_eq_some_iff.mp hexec
  have hreach := (ProxySocket.httpExample_reaches _).exec hrun
  rw [List.nil_append, List.nil_append] at hreach
  exact ⟨inputs, outputs, socket, hreach, hfault⟩

end TabFtp
