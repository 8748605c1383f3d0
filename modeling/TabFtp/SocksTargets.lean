import TabFtp.SocksRequests

/-!
# The target of a SOCKS handshake

The bytes that go to the proxy are the messages of the handshake in order.
When the connection is reported as established, all of them were sent, and
the proxy has read the wanted target, unless the name of the host was cut.
-/

namespace TabFtp

open LabelledRuns CheckedBuffer ProxySocket

namespace ProxySocket

def Spoken (lib : AddressLibrary) (origin : ProxySocket) (said : Bytes) :
    HandshakeState → Prop
  | .httpWait => False
  | .socks4Handshake => said = origin.socks4Request
  | .socks5Method => said = origin.socks5Greeting
  | .socks5Auth => said = origin.socks5Greeting ++ origin.socks5Credentials
  | .socks5Request =>
      said = origin.socks5Greeting ++ origin.socks5Request lib ∨
        said = origin.socks5Greeting ++
          (origin.socks5Credentials ++ origin.socks5Request lib)

/-- The target does not change, and neither does what is left to be sent. -/
structure SameTalk (socket following : ProxySocket) : Prop where
  host : following.host = socket.host
  port : following.port = socket.port
  user : following.user = socket.user
  pass : following.pass = socket.pass
  handshake : following.handshakeState = socket.handshakeState
  sendBuffer : following.sendBuffer = socket.sendBuffer

structure Conversation (lib : AddressLibrary) (origin : ProxySocket)
    (outputs : List ProxyOutput) (socket : ProxySocket) : Prop where
  host : socket.host = origin.host
  port : socket.port = origin.port
  user : socket.user = origin.user
  pass : socket.pass = origin.pass
  protocol : socket.handshakeState = .socks4Handshake ↔
    origin.handshakeState = .socks4Handshake
  spoken : Spoken lib origin (requestBytes outputs ++ socket.sendBuffer)
    socket.handshakeState
  reported : .connection none ∈ outputs → socket.sendBuffer = [] ∧
    (socket.handshakeState = .socks4Handshake ∨
      socket.handshakeState = .socks5Request)

variable {lib : AddressLibrary} {origin socket following : ProxySocket}
  {outputs answer : List ProxyOutput}

theorem requestBytes_append (outputs more : List ProxyOutput) :
    requestBytes (outputs ++ more) = requestBytes outputs ++ requestBytes more := by
  unfold requestBytes
  rw [List.flatMap_append]

theorem resume_sameTalk (handled : Handled) :
    SameTalk handled.socket handled.resume.1 ∧
      handled.resume.2 = handled.outputs := by
  unfold Handled.resume
  split
  · exact ⟨⟨rfl, rfl, rfl, rfl, rfl, rfl⟩, rfl⟩
  · exact ⟨⟨rfl, rfl, rfl, rfl, rfl, rfl⟩, rfl⟩
  · unfold onSend
    dsimp only
    split_ifs
    · exact ⟨⟨rfl, rfl, rfl, rfl, rfl, rfl⟩, rfl⟩
    · exact ⟨⟨rfl, rfl, rfl, rfl, rfl, rfl⟩, rfl⟩

theorem Conversation.silent
    (htalk : Conversation lib origin outputs socket)
    (hsame : SameTalk socket following) (hsent : requestBytes answer = [])
    (hanswer : .connection none ∉ answer) :
    Conversation lib origin (outputs ++ answer) following := by
  refine ⟨hsame.host.trans htalk.host, hsame.port.trans htalk.port,
    hsame.user.trans htalk.user, hsame.pass.trans htalk.pass, ?_, ?_, ?_⟩
  · rw [hsame.handshake]
    exact htalk.protocol
  · rw [hsame.handshake, hsame.sendBuffer, requestBytes_append, hsent,
      List.append_nil]
    exact htalk.spoken
  · intro hreported
    rw [hsame.handshake, hsame.sendBuffer]
    rcases List.mem_append.mp hreported with hold | hnew
    · exact htalk.reported hold
    · exact absurd hnew hanswer

theorem Conversation.writes
    (htalk : Conversation lib origin outputs socket) {sent rest : Bytes}
    (hbuffer : socket.sendBuffer = sent ++ rest)
    (hsame : SameTalk { socket with sendBuffer := rest } following) :
    Conversation lib origin (outputs ++ [.sent sent]) following := by
  refine ⟨hsame.host.trans htalk.host, hsame.port.trans htalk.port,
    hsame.user.trans htalk.user, hsame.pass.trans htalk.pass, ?_, ?_, ?_⟩
  · rw [hsame.handshake]
    exact htalk.protocol
  · have hspoken := htalk.spoken
    rw [hbuffer] at hspoken
    have hone : requestBytes [.sent sent] = sent := List.append_nil sent
    rw [hsame.handshake, hsame.sendBuffer, requestBytes_append, hone,
      List.append_assoc]
    exact hspoken
  · intro hreported
    rcases List.mem_append.mp hreported with hold | hnew
    · rcases htalk.reported hold with ⟨hempty, hhandshake⟩
      rw [hbuffer] at hempty
      rw [hsame.handshake, hsame.sendBuffer]
      exact ⟨(List.append_eq_nil_iff.mp hempty).2, hhandshake⟩
    · simp at hnew

theorem Conversation.establishes
    (htalk : Conversation lib origin outputs socket)
    (hsame : SameTalk socket following) (hempty : socket.sendBuffer = [])
    (hhandshake : socket.handshakeState = .socks4Handshake ∨
      socket.handshakeState = .socks5Request) :
    Conversation lib origin (outputs ++ [.connection none]) following := by
  refine ⟨hsame.host.trans htalk.host, hsame.port.trans htalk.port,
    hsame.user.trans htalk.user, hsame.pass.trans htalk.pass, ?_, ?_, ?_⟩
  · rw [hsame.handshake]
    exact htalk.protocol
  · have hnone : requestBytes [.connection none] = [] := rfl
    rw [hsame.handshake, hsame.sendBuffer, requestBytes_append, hnone,
      List.append_nil]
    exact htalk.spoken
  · intro _
    rw [hsame.handshake, hsame.sendBuffer]
    exact ⟨hempty, hhandshake⟩

theorem Conversation.asks
    (htalk : Conversation lib origin outputs socket)
    {next : HandshakeState} {request rest : Bytes}
    (hempty : socket.sendBuffer = [])
    (hasks : Asks lib socket next request)
    (hsame : SameTalk { socket with
      handshakeState := next
      receiveBuffer := rest
      sendBuffer := socket.sendBuffer ++ request } following) :
    Conversation lib origin outputs following := by
  have hspoken := htalk.spoken
  rw [hempty, List.append_nil] at hspoken
  have hrequest : socket.socks5Request lib = origin.socks5Request lib := by
    unfold ProxySocket.socks5Request socks5Address
    rw [htalk.host, htalk.port]
  have hcredentials :
      socket.socks5Credentials = origin.socks5Credentials := by
    unfold socks5Credentials
    rw [htalk.user, htalk.pass]
  have hasking : socket.handshakeState = .socks5Method ∨
      socket.handshakeState = .socks5Auth := by
    cases hasks with
    | afterMethod hstate => exact Or.inl hstate
    | credentials hstate => exact Or.inl hstate
    | afterCredentials hstate => exact Or.inr hstate
  have hnotreported : .connection none ∉ outputs := by
    intro hreported
    rcases (htalk.reported hreported).2 with hother | hother <;>
      rcases hasking with hstate | hstate <;> rw [hstate] at hother <;>
      cases hother
  have hsocks5 : origin.handshakeState ≠ .socks4Handshake := by
    intro horigin
    have hsocks4 := htalk.protocol.mpr horigin
    rcases hasking with hstate | hstate <;> rw [hstate] at hsocks4 <;>
      cases hsocks4
  have hsaid : requestBytes outputs ++ following.sendBuffer =
      requestBytes outputs ++ request := by
    rw [hsame.sendBuffer, hempty, List.nil_append]
  refine ⟨hsame.host.trans htalk.host, hsame.port.trans htalk.port,
    hsame.user.trans htalk.user, hsame.pass.trans htalk.pass, ?_, ?_,
    fun hreported => absurd hreported hnotreported⟩
  · rw [hsame.handshake]
    refine iff_of_false ?_ hsocks5
    cases hasks <;> exact nofun
  · rw [hsame.handshake, hsaid]
    cases hasks with
    | afterMethod hstate =>
        rw [hstate] at hspoken
        rw [show requestBytes outputs = origin.socks5Greeting from hspoken,
          hrequest]
        exact Or.inl rfl
    | credentials hstate =>
        rw [hstate] at hspoken
        rw [show requestBytes outputs = origin.socks5Greeting from hspoken,
          hcredentials]
        rfl
    | afterCredentials hstate =>
        rw [hstate] at hspoken
        rw [show requestBytes outputs =
          origin.socks5Greeting ++ origin.socks5Credentials from hspoken,
          hrequest, List.append_assoc]
        exact Or.inr rfl

/-- A proxy answers when it has the whole request. -/
def AnswersInTurn (socket : ProxySocket) (input : ProxyInput) : Prop :=
  ∀ data, input = .readAnswer (.bytes data) → socket.sendBuffer = []

theorem Conversation.replies
    (htalk : Conversation lib origin outputs socket) {data : Bytes}
    {handled : Handled} (hempty : socket.sendBuffer = [])
    (hreply : ReplyStep lib (socket.received data) handled) :
    Conversation lib origin (outputs ++ handled.resume.2)
      handled.resume.1 := by
  rcases resume_sameTalk handled with ⟨hsame, houtputs⟩
  rw [houtputs]
  have hreceived : Conversation lib origin outputs (socket.received data) :=
    ⟨htalk.host, htalk.port, htalk.user, htalk.pass, htalk.protocol,
      htalk.spoken, htalk.reported⟩
  cases hreply with
  | waits => exact hreceived.silent hsame rfl List.not_mem_nil
  | fails buffer error =>
      exact hreceived.silent
        ⟨hsame.host, hsame.port, hsame.user, hsame.pass, hsame.handshake,
          hsame.sendBuffer⟩ rfl (by simp [ProxySocket.fails])
  | http i hstate =>
      have hspoken := hreceived.spoken
      rw [hstate] at hspoken
      exact hspoken.elim
  | socks4 hstate =>
      exact hreceived.establishes
        ⟨hsame.host, hsame.port, hsame.user, hsame.pass, hsame.handshake,
          hsame.sendBuffer⟩ hempty (Or.inl hstate)
  | socks5 count hstate =>
      exact hreceived.establishes
        ⟨hsame.host, hsame.port, hsame.user, hsame.pass, hsame.handshake,
          hsame.sendBuffer⟩ hempty (Or.inr hstate)
  | asks next request hsent hlength hasks =>
      have hnext := hreceived.asks hempty hasks hsame
      simpa [queues] using hnext

/-- One step of a conversation in turns. -/
theorem Conversation.step
    (htalk : Conversation lib origin outputs socket) {input : ProxyInput}
    {result : ProxySocket × List ProxyOutput}
    (hturn : socket.AnswersInTurn input)
    (hstep : socket.step lib input = some result) :
    Conversation lib origin (outputs ++ result.2) result.1 := by
  have hkept : SameTalk socket socket := ⟨rfl, rfl, rfl, rfl, rfl, rfl⟩
  rcases step_effect hstep with ⟨hfault, heffect⟩
  cases heffect with
  | replies data handled hcall hspared hreply =>
      exact htalk.replies (hturn data rfl) hreply
  | writes count hcall hrest =>
      exact htalk.writes (List.take_append_drop count _).symm
        ⟨rfl, rfl, rfl, rfl, rfl, rfl⟩
  | writesAll count hcall =>
      exact htalk.writes (List.append_nil _).symm
        ⟨rfl, rfl, rfl, rfl, rfl, rfl⟩
  | writesAllAndReceives count hcall hconnecting =>
      exact htalk.writes (List.append_nil _).symm
        ⟨rfl, rfl, rfl, rfl, rfl, rfl⟩
  | _ => exact htalk.silent ⟨rfl, rfl, rfl, rfl, rfl, rfl⟩ rfl (by simp)

/-! ## The end of the handshake -/

theorem Connects.socks4 {user pass host : WString} {port : ℕ}
    (hconnects : Connects lib .socks4 user pass host port socket) :
    Conversation lib socket [] socket ∧ socket.host = host ∧
      socket.port = port ∧ port ≤ 65535 ∧
      socket.handshakeState = .socks4Handshake ∧
      lib.getAddressType host = .ipv4 := by
  rcases hconnects.handshake with ⟨_, hport, proxyHost, proxyPort, hstart⟩
  unfold startHandshake at hstart
  have htype : lib.getAddressType host = .ipv4 := by
    by_contra hother
    cases hstart.symm.trans (if_neg hother)
  cases hstart.symm.trans (if_pos htype)
  exact ⟨⟨rfl, rfl, rfl, rfl, Iff.rfl, rfl, nofun⟩, rfl, rfl, hport, rfl,
    htype⟩

theorem Connects.socks5 {user pass host : WString} {port : ℕ}
    (hconnects : Connects lib .socks5 user pass host port socket) :
    Conversation lib socket [] socket ∧ socket.host = host ∧
      socket.port = port ∧ port ≤ 65535 ∧ socket.user = utf8 user ∧
      socket.pass = utf8 pass ∧ socket.user.length ≤ 255 ∧
      socket.pass.length ≤ 255 ∧ socket.handshakeState = .socks5Method := by
  rcases hconnects.handshake with ⟨_, hport, proxyHost, proxyPort, hstart⟩
  unfold startHandshake at hstart
  have hlong : ¬(255 < (utf8 user).length ∨ 255 < (utf8 pass).length) := by
    intro hlong
    cases hstart.symm.trans (if_pos hlong)
  cases hstart.symm.trans (if_neg hlong)
  rw [not_or, Nat.not_lt, Nat.not_lt] at hlong
  exact ⟨⟨rfl, rfl, rfl, rfl, Iff.rfl, rfl, nofun⟩, rfl, rfl, hport, rfl, rfl,
    hlong.1, hlong.2, rfl⟩

/-- What the proxy has read: the wanted target, and the credentials if it
asked for them. -/
def NamesTarget (ipv6Value : WString → Option Bytes) (type : ProxyType)
    (user pass host : WString) (port : ℕ) (outputs : List ProxyOutput) :
    Prop :=
  ∃ creds, decodeSocks type (requestBytes outputs) =
      some ⟨wantedAddress ipv6Value host, port, creds⟩ ∧
    ∀ pair, creds = some pair → pair = (utf8 user, utf8 pass)

variable {ipv6Value : WString → Option Bytes} {user pass host : WString}
  {port : ℕ}

theorem Conversation.namesTarget_socks4 (hlib : lib.Correct ipv6Value)
    (hconnects : Connects lib .socks4 user pass host port origin)
    (htalk : Conversation lib origin outputs socket)
    (hreported : .connection none ∈ outputs) :
    NamesTarget ipv6Value .socks4 user pass host port outputs := by
  rcases hconnects.socks4 with ⟨_, rfl, rfl, hport, hstate, htype⟩
  have hspoken := htalk.spoken
  rw [htalk.protocol.mpr hstate, (htalk.reported hreported).1,
    List.append_nil] at hspoken
  refine ⟨none, ?_, nofun⟩
  rw [show requestBytes outputs = origin.socks4Request from hspoken]
  exact socks4_socks4Request hlib htype hport

theorem Conversation.namesTarget_socks5 (hlib : lib.Correct ipv6Value)
    (hconnects : Connects lib .socks5 user pass host port origin)
    (hfits : ¬NameTooLong lib host)
    (htalk : Conversation lib origin outputs socket)
    (hreported : .connection none ∈ outputs) :
    NamesTarget ipv6Value .socks5 user pass host port outputs := by
  rcases hconnects.socks5 with
    ⟨_, rfl, rfl, hport, huser, hpass, huserfits, hpassfits, hstate⟩
  have hrequest := request_socks5Request hlib hfits hport
  have hspoken := htalk.spoken
  rcases htalk.reported hreported with ⟨hempty, hhandshake⟩
  have hdone : socket.handshakeState = .socks5Request := by
    apply hhandshake.resolve_left
    intro hsocks4
    have horigin := htalk.protocol.mp hsocks4
    rw [hstate] at horigin
    cases horigin
  rw [hdone, hempty, List.append_nil] at hspoken
  rcases hspoken with hspoken | hspoken
  · refine ⟨none, ?_, nofun⟩
    unfold decodeSocks
    rw [if_neg (by decide), hspoken, socks5_greeting, afterMethods_request,
      hrequest]
    rfl
  · refine ⟨some (origin.user, origin.pass), ?_, ?_⟩
    · unfold decodeSocks
      rw [if_neg (by decide), hspoken, socks5_greeting,
        afterMethods_credentials huserfits hpassfits, hrequest]
      rfl
    · intro pair hpair
      rw [← Option.some.inj hpair, huser, hpass]

/-! ## A name that is cut -/

theorem request_cut (hlong : NameTooLong lib socket.host)
    (hport : socket.port ≤ 65535) :
    SocksFormat.request (socket.socks5Request lib) =
      some (.domain ((utf8 socket.host).take 255), socket.port) := by
  have hlength : ((utf8 socket.host).take 255).length = 255 := by
    rw [List.length_take]
    exact Nat.min_eq_left hlong.2.le
  have haddress : SocksFormat.address (socket.socks5Address lib ++
      portBytes socket.port) =
      some (.domain ((utf8 socket.host).take 255), portBytes socket.port) := by
    unfold socks5Address
    rw [hlong.1]
    dsimp only
    rw [Nat.min_eq_right hlong.2.le]
    have hdomain := SocksFormat.address_domain hlength.le
      (portBytes socket.port)
    rw [hlength] at hdomain
    exact hdomain
  exact SocksFormat.request_of_address haddress
    (SocksFormat.portNumber_portBytes hport)

structure Idle (socket : ProxySocket) : Prop where
  state : socket.state = .connecting
  frames : socket.frames = []
  fault : socket.fault = none
  receiveBuffer : socket.receiveBuffer = []

theorem Connects.idle {type : ProxyType}
    (hconnects : Connects lib type user pass host port socket) :
    Idle socket ∧ socket.canRead = false := by
  rcases hconnects.handshake with ⟨_, _, proxyHost, proxyPort, hstart⟩
  unfold startHandshake at hstart
  split at hstart
  · split_ifs at hstart
    cases hstart
    exact ⟨⟨rfl, rfl, rfl, rfl⟩, rfl⟩
  · split_ifs at hstart
    cases hstart
    exact ⟨⟨rfl, rfl, rfl, rfl⟩, rfl⟩
  · cases hstart
    exact ⟨⟨rfl, rfl, rfl, rfl⟩, rfl⟩

theorem step_connection (hidle : Idle socket)
    (hbuffer : socket.sendBuffer ≠ []) :
    socket.step lib (.event .connection none) =
      some ({ socket with canWrite := true, frames := [.sending] }, []) := by
  unfold step onSocketEvent onSend
  simp [hidle.fault, hidle.frames, hidle.state, hbuffer]

theorem step_readable (hidle : Idle socket) :
    socket.step lib (.event .read none) =
      some ({ socket with canRead := true, frames := [.receiving] }, []) := by
  unfold step onSocketEvent onReceive
  simp [hidle.fault, hidle.frames, hidle.state]

theorem step_written (hfault : socket.fault = none)
    (hframes : socket.frames = [.sending]) (hread : socket.canRead = false) :
    socket.step lib (.writeAnswer (.written socket.sendBuffer.length)) =
      some ({ socket with sendBuffer := [], frames := [] },
        [.sent socket.sendBuffer]) := by
  unfold step afterWrite leave WriteAnswer.fits
  simp [hfault, hframes, hread, unwind]

theorem step_written_receives {frames : List ProxyFrame}
    (hfault : socket.fault = none) (hframes : socket.frames = .sending :: frames)
    (hread : socket.canRead = true) (hstate : socket.state = .connecting) :
    socket.step lib (.writeAnswer (.written socket.sendBuffer.length)) =
      some ({ socket with
          sendBuffer := []
          frames := .receiving :: .sending :: frames },
        [.sent socket.sendBuffer]) := by
  unfold step afterWrite onReceive WriteAnswer.fits
  simp [hfault, hframes, hread, hstate]

theorem step_again {frames : List ProxyFrame} (hfault : socket.fault = none)
    (hframes : socket.frames = .receiving :: frames) :
    socket.step lib (.readAnswer .again) =
      some ({ socket with canRead := false, frames := unwind false frames },
        []) := by
  unfold step afterRead leave ReadAnswer.fits
  simp [hfault, hframes]

theorem step_noAuthentication (hfault : socket.fault = none)
    (hframes : socket.frames = [.receiving])
    (hhandshake : socket.handshakeState = .socks5Method)
    (hsent : socket.sendBuffer = []) (hbuffer : socket.receiveBuffer = [])
    (hstate : socket.state = .connecting) (hwrite : socket.canWrite = true) :
    socket.step lib (.readAnswer (.bytes [5, 0])) =
      some ({ socket with
          handshakeState := .socks5Request
          sendBuffer := socket.socks5Request lib
          frames := [.sending, .receiving] }, []) := by
  unfold step afterRead ReadAnswer.fits
  simp [hfault, hframes, hhandshake, hsent, hbuffer, onReply, onSocks5Reply,
    readAt, replyVersion, onSocks5Method, advances, consume, queues, hwrite,
    Handled.resume, onSend, hstate]
  exact if_neg (List.cons_ne_nil _ _)

theorem step_accepted (hfault : socket.fault = none)
    (hframes : socket.frames = [.receiving])
    (hhandshake : socket.handshakeState = .socks5Request)
    (hsent : socket.sendBuffer = []) (hbuffer : socket.receiveBuffer = []) :
    socket.step lib (.readAnswer (.bytes [5, 0, 0, 1, 0, 0, 0, 0, 0, 0])) =
      some ({ socket with
          state := .connected
          passthrough := true
          frames := [] }, [.connection none]) := by
  unfold step afterRead ReadAnswer.fits
  simp [hfault, hframes, hhandshake, hsent, hbuffer, onReply, onSocks5Reply,
    readAt, replyVersion, onSocks5Request, onSocks5Address, establishes,
    consume, Handled.resume, leave, unwind]

theorem reaches_step {type : ProxyType} {inputs : List ProxyInput}
    (hreach : (proxySocket lib type user pass host port).ReachesWithin
      AnswersInTurn inputs outputs socket)
    {input : ProxyInput}
    (hstep : socket.step lib input = some (following, answer))
    (hturn : socket.AnswersInTurn input) :
    (proxySocket lib type user pass host port).ReachesWithin AnswersInTurn
      (inputs ++ [input]) (outputs ++ answer) following :=
  hreach.next hturn hstep

theorem exists_established
    (hconnects : Connects lib .socks5 user pass host port socket) :
    ∃ inputs final, (proxySocket lib .socks5 user pass host port
        ).ReachesWithin AnswersInTurn inputs
        [.sent socket.socks5Greeting, .sent (socket.socks5Request lib),
          .connection none] final := by
  rcases hconnects.socks5 with ⟨htalk, _, _, _, _, _, _, _, hhandshake⟩
  rcases hconnects.idle with ⟨hidle, hread⟩
  have hgreeting : socket.sendBuffer = socket.socks5Greeting := by
    have hspoken := htalk.spoken
    rw [hhandshake] at hspoken
    exact hspoken
  have hbuffer : socket.sendBuffer ≠ [] := by
    rw [hgreeting]
    unfold socks5Greeting
    split_ifs <;> exact List.cons_ne_nil _ _
  have hnodata : ∀ (socket : ProxySocket) (input : ProxyInput),
      (∀ data, input ≠ .readAnswer (.bytes data)) →
      socket.AnswersInTurn input := by
    intro socket input hinput data heq
    exact absurd heq (hinput data)
  have hstart : (proxySocket lib .socks5 user pass host port
      ).ReachesWithin AnswersInTurn [] [] socket := .start hconnects
  have h1 := reaches_step hstart (step_connection hidle hbuffer)
    (hnodata _ _ nofun)
  have h2 := reaches_step h1 (step_written hidle.fault rfl hread)
    (hnodata _ _ nofun)
  have h3 := reaches_step h2
    (step_readable ⟨hidle.state, rfl, hidle.fault, hidle.receiveBuffer⟩)
    (hnodata _ _ nofun)
  have h4 := reaches_step h3
    (step_noAuthentication hidle.fault rfl hhandshake rfl
      hidle.receiveBuffer hidle.state rfl) (fun _ _ => rfl)
  have h5 := reaches_step h4
    (step_written_receives hidle.fault rfl rfl hidle.state)
    (hnodata _ _ nofun)
  have h6 := reaches_step h5 (step_again hidle.fault rfl)
    (hnodata _ _ nofun)
  have h7 := reaches_step h6
    (step_readable ⟨hidle.state, rfl, hidle.fault, hidle.receiveBuffer⟩)
    (hnodata _ _ nofun)
  have h8 := reaches_step h7
    (step_accepted hidle.fault rfl rfl rfl hidle.receiveBuffer)
    (fun _ _ => rfl)
  rw [← hgreeting]
  exact ⟨_, _, h8⟩

/-- A name that is cut off is another one. -/
theorem not_namesTarget_cut (hlib : lib.Correct ipv6Value)
    (hconnects : Connects lib .socks5 user pass host port socket)
    (hlong : NameTooLong lib host) :
    ¬NamesTarget ipv6Value .socks5 user pass host port
      [.sent socket.socks5Greeting, .sent (socket.socks5Request lib),
        .connection none] := by
  rcases hconnects.socks5 with ⟨_, rfl, rfl, hport, _⟩
  have hbytes : requestBytes [.sent socket.socks5Greeting,
      .sent (socket.socks5Request lib), .connection none] =
      socket.socks5Greeting ++ socket.socks5Request lib := by
    simp [requestBytes]
  rintro ⟨creds, hdecode, _⟩
  unfold decodeSocks at hdecode
  rw [if_neg (by decide), hbytes, socks5_greeting, afterMethods_request,
    request_cut hlong hport, Option.map_some, Option.some.injEq,
    SocksTarget.mk.injEq, wantedAddress_unknown hlib hlong.1,
    SocksAddress.domain.injEq] at hdecode
  have hlength := congrArg List.length hdecode.1
  rw [List.length_take] at hlength
  have hover := hlong.2
  omega
theorem exists_connects (lib : AddressLibrary) (hhost : host ≠ [])
    (hlow : 1 ≤ port) (hhigh : port ≤ 65535)
    (huser : (utf8 user).length ≤ 255) (hpass : (utf8 pass).length ≤ 255) :
    ∃ socket, Connects lib .socks5 user pass host port socket := by
  have hstart : ∃ socket,
      (beforeHandshake .socks5 "p".toList 1080 user pass host port
        ).startHandshake lib = some socket := by
    unfold startHandshake
    refine ⟨_, if_neg ?_⟩
    rw [not_or, Nat.not_lt, Nat.not_lt]
    exact ⟨huser, hpass⟩
  rcases hstart with ⟨socket, hstart⟩
  refine ⟨socket, "p".toList, 1080, .none, none, ?_⟩
  have hargs : ¬(host = [] ∨ port < 1 ∨ 65535 < port) := by
    simp only [hhost, not_or, not_false_eq_true, true_and]
    omega
  unfold connect
  rw [if_neg (by simp [create]), if_neg (by decide)]
  dsimp only
  rw [if_neg (by simp [create]), if_neg hargs]
  change (beforeHandshake .socks5 "p".toList 1080 user pass host port
    ).connectBy lib .none none = _
  unfold connectBy
  rw [hstart]
  rfl

end ProxySocket

/-- A SOCKS proxy is asked for the wanted target whenever the connection is
established, unless a name does not fit in the request. -/
theorem socks_names_target_iff (lib : AddressLibrary)
    (ipv6Value : WString → Option Bytes) (hlib : lib.Correct ipv6Value)
    (type : ProxyType) (htype : type = .socks4 ∨ type = .socks5)
    (user pass host : WString) (port : ℕ) (hlow : 1 ≤ port)
    (hhigh : port ≤ 65535) :
    (∀ inputs outputs socket,
      (proxySocket lib type user pass host port).ReachesWithin AnswersInTurn
        inputs outputs socket →
      .connection none ∈ outputs →
      NamesTarget ipv6Value type user pass host port outputs) ↔
    ¬(type = .socks5 ∧ NameTooLong lib host ∧ (utf8 user).length ≤ 255 ∧
      (utf8 pass).length ≤ 255) := by
  constructor
  · rintro hnames ⟨rfl, hlong, huser, hpass⟩
    have hhost : host ≠ [] := by
      rintro rfl
      exact absurd hlong.2 (by decide)
    rcases exists_connects lib hhost hlow hhigh huser hpass with
      ⟨socket, hconnects⟩
    rcases exists_established hconnects with ⟨inputs, final, hreach⟩
    exact not_namesTarget_cut hlib hconnects hlong
      (hnames _ _ _ hreach (by simp))
  · intro hfits inputs outputs socket hreach hreported
    have htalk : ∃ origin, Connects lib type user pass host port origin ∧
        Conversation lib origin outputs socket := by
      refine hreach.invariant (fun outputs socket =>
        ∃ origin, Connects lib type user pass host port origin ∧
          Conversation lib origin outputs socket) ?_ ?_
      · intro start hconnects
        rcases htype with rfl | rfl
        · exact ⟨start, hconnects, hconnects.socks4.1⟩
        · exact ⟨start, hconnects, hconnects.socks5.1⟩
      · rintro outputs socket input following answer
          ⟨origin, hconnects, htalk⟩ hturn hstep
        exact ⟨origin, hconnects, htalk.step hturn hstep⟩
    rcases htalk with ⟨origin, hconnects, htalk⟩
    rcases htype with rfl | rfl
    · exact htalk.namesTarget_socks4 hlib hconnects hreported
    · have hshort : ¬NameTooLong lib host := by
        intro hlong
        rcases hconnects.socks5 with
          ⟨_, _, _, _, huser, hpass, huserfits, hpassfits, _⟩
        rw [huser] at huserfits
        rw [hpass] at hpassfits
        exact hfits ⟨rfl, hlong, huserfits, hpassfits⟩
      exact htalk.namesTarget_socks5 hlib hconnects hshort hreported

/-- A library that knows IPv4 addresses only. -/
def AddressLibrary.ipv4Only : AddressLibrary where
  getAddressType host :=
    if (ipv4Value host).isSome = true then .ipv4 else .unknown
  getIpv6LongForm _ := []
  hexCharToInt := hexDigit
  base64Encode bytes := bytes
  toWstringFromUtf8 := AddressLibrary.namesOnly.toWstringFromUtf8

theorem AddressLibrary.ipv4Only_correct :
    AddressLibrary.ipv4Only.Correct fun _ => none := by
  constructor
  · intro host
    unfold AddressLibrary.ipv4Only
    dsimp only
    split_ifs with hipv4
    · exact iff_of_true rfl hipv4
    · exact iff_of_false nofun hipv4
  · intro host
    unfold AddressLibrary.ipv4Only
    dsimp only
    split_ifs <;> simp
  · exact nofun
  · exact fun _ _ => rfl

/-- The address `10.0.0.1` by SOCKS5. -/
theorem socks5_names_target :
    ∃ inputs outputs socket,
      (proxySocket .ipv4Only .socks5 [] [] "10.0.0.1".toList 21).ReachesWithin
        AnswersInTurn inputs outputs socket ∧
      .connection none ∈ outputs ∧
      NamesTarget (fun _ => none) .socks5 [] [] "10.0.0.1".toList 21
        outputs := by
  rcases @exists_connects [] [] "10.0.0.1".toList 21 .ipv4Only (by decide)
    (by decide) (by decide) (by decide) (by decide) with ⟨socket, hconnects⟩
  rcases exists_established hconnects with ⟨inputs, final, hreach⟩
  have hshort : ¬NameTooLong .ipv4Only "10.0.0.1".toList := fun hlong =>
    absurd hlong.2 (by decide)
  have hnames := (socks_names_target_iff .ipv4Only (fun _ => none)
    AddressLibrary.ipv4Only_correct .socks5 (Or.inr rfl) [] []
    "10.0.0.1".toList 21 (by decide) (by decide)).mpr
      fun hcut => hshort hcut.2.1
  exact ⟨inputs, _, final, hreach, by simp, hnames _ _ _ hreach (by simp)⟩

/-- A name with 256 characters. -/
def longName : WString :=
  List.replicate 256 'a'

theorem longName_tooLong : NameTooLong .ipv4Only longName := by
  constructor
  · decide +kernel
  · decide +kernel

/-- The proxy is asked for a name of 255 characters. -/
theorem socks5_names_other_target :
    ∃ inputs outputs socket,
      (proxySocket .ipv4Only .socks5 [] [] longName 21).ReachesWithin
        AnswersInTurn inputs outputs socket ∧
      .connection none ∈ outputs ∧
      ¬NamesTarget (fun _ => none) .socks5 [] [] longName 21 outputs := by
  rcases @exists_connects [] [] longName 21 .ipv4Only (by decide) (by decide)
    (by decide) (by decide) (by decide) with ⟨socket, hconnects⟩
  rcases exists_established hconnects with ⟨inputs, final, hreach⟩
  exact ⟨inputs, _, final, hreach, by simp,
    not_namesTarget_cut AddressLibrary.ipv4Only_correct hconnects
      longName_tooLong⟩

end TabFtp
