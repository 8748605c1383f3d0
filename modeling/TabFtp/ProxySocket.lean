import TabFtp.CheckedBuffer
import TabFtp.CommandLines
import TabFtp.LabelledRuns

/-!
# The connection by a proxy

`CProxySocket` is a layer on top of the connection with the proxy.  It sends
the requests of the handshake and parses the replies, and when the handshake
is done it passes everything through.

`OnReceive` calls `OnSend` from inside its loop when a reply asks for another
request, and `OnSend` calls `OnReceive` when everything is sent.  The calls
that have not returned are a stack.  The next layer answers one call at a
time.
-/

namespace TabFtp

open LabelledRuns CheckedBuffer

abbrev Bytes := List UInt8

inductive ProxyType
  | none | http | socks5 | socks4
  deriving DecidableEq

inductive ProxyState
  | none | connecting | connected | failed
  deriving DecidableEq

inductive HandshakeState
  | httpWait | socks5Method | socks5Auth | socks5Request | socks4Handshake
  deriving DecidableEq

inductive SocketError
  | einval | ealready | enomem | econnaborted | econnreset
  | other (code : ℤ)
  deriving DecidableEq

inductive AddressType
  | unknown | ipv4 | ipv6
  deriving DecidableEq

/-- The functions of the library, under its names. -/
structure AddressLibrary where
  getAddressType : WString → AddressType
  getIpv6LongForm : WString → Bytes
  /-- As it is stored in a byte. -/
  hexCharToInt : UInt8 → UInt8
  base64Encode : Bytes → Bytes
  toWstringFromUtf8 : Bytes → WString

/-- The calls of `CProxySocket` that go on when a call of the next layer has
returned. -/
inductive ProxyFrame
  | receiving | sending
  deriving DecidableEq

structure ProxySocket where
  type : ProxyType
  proxyHost : WString
  proxyPort : ℕ
  user : Bytes
  pass : Bytes
  host : WString
  port : ℕ
  state : ProxyState
  handshakeState : HandshakeState
  sendBuffer : Bytes
  receiveBuffer : Bytes
  canRead : Bool
  canWrite : Bool
  passthrough : Bool
  frames : List ProxyFrame
  fault : Option Fault
  deriving DecidableEq

/-- `send_event<socket_event>` with `connection`, and the event of the next
layer that is passed on. -/
inductive ProxyOutput
  | sent (bytes : Bytes)
  | connection (error : Option SocketError)
  | forwarded (error : Option SocketError)
  | delivered (bytes : Bytes)
  deriving DecidableEq

namespace ProxySocket

def create (type : ProxyType) (proxyHost : WString) (proxyPort : ℕ)
    (user pass : WString) : ProxySocket where
  type := type
  proxyHost := proxyHost
  proxyPort := proxyPort
  user := utf8 user
  pass := utf8 pass
  host := []
  port := 0
  state := .none
  handshakeState := .httpWait
  sendBuffer := []
  receiveBuffer := []
  canRead := false
  canWrite := false
  passthrough := false
  frames := []
  fault := .none

/-! ## Requests -/

def ascii (text : String) : Bytes :=
  utf8 text.toList

/-- `CONNECT` with the credentials of the proxy. -/
def httpRequest (lib : AddressLibrary) (socket : ProxySocket) : Bytes :=
  let target :=
    utf8 socket.host ++ ascii ":" ++ utf8 (Nat.toDigits 10 socket.port)
  let auth :=
    if socket.user.isEmpty then []
    else
      ascii "Proxy-Authorization: Basic " ++
        lib.base64Encode (socket.user ++ ascii ":" ++ socket.pass) ++
        ascii "\r\n"
  ascii "CONNECT " ++ target ++ ascii " HTTP/1.1\r\nHost: " ++ target ++
    ascii "\r\n" ++ auth ++ ascii "User-Agent: FileZilla/\r\n\r\n"

def portBytes (port : ℕ) : Bytes :=
  [UInt8.ofNat (port >>> 8), UInt8.ofNat port]

def addOctets : Bytes → ℕ → Bytes → Bytes
  | [], _, out => out
  | c :: text, i, out =>
      if c = 0 ∨ 4 ≤ i then out
      else if c = 46 then addOctets text (i + 1) out
      else
        addOctets text i (out.modify i fun octet => octet * 10 + (c - 48))

def ipv4Octets (text : Bytes) : Bytes :=
  addOctets text 0 [0, 0, 0, 0]

def socks4Request (socket : ProxySocket) : Bytes :=
  [4, 1] ++ portBytes socket.port ++ ipv4Octets (utf8 socket.host) ++ [0]

def socks5Greeting (socket : ProxySocket) : Bytes :=
  if socket.user.isEmpty then [5, 1, 0] else [5, 2, 0, 2]

def socks5Credentials (socket : ProxySocket) : Bytes :=
  let ulen := min socket.user.length 255
  let plen := min socket.pass.length 255
  [1, UInt8.ofNat ulen] ++ socket.user.take ulen ++
    [UInt8.ofNat plen] ++ socket.pass.take plen

def ipv6Byte (lib : AddressLibrary) (ipv6 : Bytes) (i : ℕ) : UInt8 :=
  (lib.hexCharToInt (ipv6.getD (i * 2 + i / 2) 0) <<< 4) +
    lib.hexCharToInt (ipv6.getD (i * 2 + 1 + i / 2) 0)

def socks5Address (lib : AddressLibrary) (socket : ProxySocket) : Bytes :=
  match lib.getAddressType socket.host with
  | .ipv6 =>
      4 :: (List.range 16).map
        (ipv6Byte lib (lib.getIpv6LongForm socket.host))
  | .ipv4 => 1 :: ipv4Octets (utf8 socket.host)
  | .unknown =>
      let hlen := min (utf8 socket.host).length 255
      [3, UInt8.ofNat hlen] ++ (utf8 socket.host).take hlen

def socks5Request (lib : AddressLibrary) (socket : ProxySocket) : Bytes :=
  [5, 1, 0] ++ socks5Address lib socket ++ portBytes socket.port

/-! ## Connecting -/

inductive NextLayer
  | none | connecting | other
  deriving DecidableEq

def startHandshake (lib : AddressLibrary) (socket : ProxySocket) :
    Option ProxySocket :=
  match socket.type with
  | .socks4 =>
      if lib.getAddressType socket.host = .ipv4 then
        some { socket with
          sendBuffer := socket.sendBuffer ++ socket.socks4Request
          handshakeState := .socks4Handshake }
      else none
  | .socks5 =>
      if 255 < socket.user.length ∨ 255 < socket.pass.length then none
      else
        some { socket with
          sendBuffer := socket.sendBuffer ++ socket.socks5Greeting
          handshakeState := .socks5Method }
  | _ =>
      some { socket with
        sendBuffer := socket.sendBuffer ++ socket.httpRequest lib
        handshakeState := .httpWait }

/-- `OnSend` up to its loop. -/
def onSend (socket : ProxySocket) : ProxySocket :=
  let socket := { socket with canWrite := true }
  if socket.state ≠ .connecting ∨ socket.sendBuffer = [] then socket
  else { socket with frames := .sending :: socket.frames }

/-- `OnReceive` up to its loop. -/
def onReceive (socket : ProxySocket) : ProxySocket :=
  let socket := { socket with canRead := true }
  if socket.state ≠ .connecting then socket
  else { socket with frames := .receiving :: socket.frames }

def connectFailed (socket : ProxySocket) (error : SocketError) :
    ProxySocket × Option SocketError :=
  ({ socket with state := .failed }, some error)

def connectNext (socket : ProxySocket) (next : NextLayer)
    (result : Option SocketError) : ProxySocket × Option SocketError :=
  if next = .none then
    match result with
    | some error => socket.connectFailed error
    | none => (socket, none)
  else if socket.canWrite then (socket.onSend, none)
  else (socket, none)

/-- `connect` once the arguments are checked.  A request that cannot be made
does not change the state. -/
def connectBy (lib : AddressLibrary) (socket : ProxySocket)
    (next : NextLayer) (result : Option SocketError) :
    ProxySocket × Option SocketError :=
  match socket.startHandshake lib with
  | none => (socket, some .einval)
  | some socket => socket.connectNext next result

/-- `connect`; `result` is what the next layer returns. -/
def connect (lib : AddressLibrary) (socket : ProxySocket) (host : WString)
    (port : ℕ) (next : NextLayer) (result : Option SocketError) :
    ProxySocket × Option SocketError :=
  if socket.state ≠ .none then
    (socket, some (if socket.state = .failed then .einval else .ealready))
  else if next = .other then socket.connectFailed .einval
  else
    let socket := { socket with host := host, port := port }
    if socket.type = .none ∨ socket.proxyHost = [] ∨
        socket.proxyPort < 1 ∨ 65535 < socket.proxyPort then
      socket.connectFailed .einval
    else if host = [] ∨ port < 1 ∨ 65535 < port then
      socket.connectFailed .einval
    else { socket with state := .connecting }.connectBy lib next result

/-! ## Replies -/

/-- How the body of the loop of `OnReceive` ends. -/
inductive Flow
  | continues | returns | sends

structure Handled where
  socket : ProxySocket
  outputs : List ProxyOutput
  flow : Flow

def goesOn (socket : ProxySocket) : Handled :=
  ⟨socket, [], .continues⟩

def fails (socket : ProxySocket) (error : SocketError) : Handled :=
  ⟨{ socket with state := .failed }, [.connection (some error)], .returns⟩

def establishes (socket : ProxySocket) (count : ℕ) : Except Fault Handled :=
  match consume socket.receiveBuffer count with
  | .error fault => .error fault
  | .ok rest =>
      .ok ⟨{ socket with
          state := .connected
          receiveBuffer := rest
          passthrough := true },
        [.connection none], .returns⟩

/-- The bytes of a C string. -/
def cString (buffer : Bytes) : Bytes :=
  buffer.takeWhile (· ≠ 0)

def accepted (reply : WString) : Bool :=
  reply.take 10 = "HTTP/1.1 2".toList || reply.take 10 = "HTTP/1.0 2".toList

def onHttpReply (lib : AddressLibrary) (socket : ProxySocket) :
    Except Fault Handled :=
  let buffer := socket.receiveBuffer
  match search buffer [13, 10, 13, 10] (buffer.length - 3) 0 with
  | .error fault => .error fault
  | .ok none =>
      if 2048 ≤ buffer.length then .ok (socket.fails .enomem)
      else .ok socket.goesOn
  | .ok (some i) =>
      match findBefore 0 13 buffer 0 with
      | .error fault => .error fault
      | .ok none => .error .nullPointer
      | .ok (some eol) =>
          let socket := { socket with receiveBuffer := buffer.set eol 0 }
          let reply := lib.toWstringFromUtf8 (cString socket.receiveBuffer)
          if !accepted reply then .ok (socket.fails .econnreset)
          else socket.establishes (i + 4)

def onSocks4Reply (socket : ProxySocket) : Except Fault Handled :=
  if socket.receiveBuffer.length < 8 then .ok socket.goesOn
  else
    match readAt socket.receiveBuffer 1 with
    | .error fault => .error fault
    | .ok code =>
        if code ≠ 90 then .ok (socket.fails .econnaborted)
        else socket.establishes 8

def queues (socket : ProxySocket) (request : Bytes) : Handled :=
  let socket := { socket with sendBuffer := socket.sendBuffer ++ request }
  ⟨socket, [], if socket.canWrite then .sends else .continues⟩

def advances (socket : ProxySocket) (next : HandshakeState)
    (request : Bytes) : Except Fault Handled :=
  match consume socket.receiveBuffer 2 with
  | .error fault => .error fault
  | .ok rest =>
      .ok ({ socket with
        handshakeState := next, receiveBuffer := rest }.queues request)

def onSocks5Method (lib : AddressLibrary) (socket : ProxySocket) :
    Except Fault Handled :=
  if socket.receiveBuffer.length < 2 then .ok socket.goesOn
  else
    match readAt socket.receiveBuffer 1 with
    | .error fault => .error fault
    | .ok method =>
        if method = 0 then
          socket.advances .socks5Request (socket.socks5Request lib)
        else if method = 2 then
          socket.advances .socks5Auth socket.socks5Credentials
        else .ok (socket.fails .econnaborted)

def onSocks5Auth (lib : AddressLibrary) (socket : ProxySocket) :
    Except Fault Handled :=
  if socket.receiveBuffer.length < 2 then .ok socket.goesOn
  else
    match readAt socket.receiveBuffer 1 with
    | .error fault => .error fault
    | .ok status =>
        if status ≠ 0 then .ok (socket.fails .econnaborted)
        else socket.advances .socks5Request (socket.socks5Request lib)

def onSocks5Address (socket : ProxySocket) : Except Fault Handled :=
  match readAt socket.receiveBuffer 3 with
  | .error fault => .error fault
  | .ok type =>
      if type = 1 then
        if socket.receiveBuffer.length < 10 then .ok socket.goesOn
        else socket.establishes 10
      else if type = 3 then
        if socket.receiveBuffer.length < 5 then .ok socket.goesOn
        else
          match readAt socket.receiveBuffer 4 with
          | .error fault => .error fault
          | .ok length =>
              if socket.receiveBuffer.length < length.toNat + 7 then
                .ok socket.goesOn
              else socket.establishes (length.toNat + 7)
      else if type = 4 then
        if socket.receiveBuffer.length < 22 then .ok socket.goesOn
        else socket.establishes 22
      else .ok (socket.fails .econnaborted)

def onSocks5Request (socket : ProxySocket) : Except Fault Handled :=
  if socket.receiveBuffer.length < 2 then .ok socket.goesOn
  else
    match readAt socket.receiveBuffer 1 with
    | .error fault => .error fault
    | .ok code =>
        if code ≠ 0 then .ok (socket.fails .econnaborted)
        else if socket.receiveBuffer.length < 4 then .ok socket.goesOn
        else socket.onSocks5Address

def replyVersion (handshake : HandshakeState) : UInt8 :=
  if handshake = .socks5Auth then 1 else 5

def onSocks5Reply (socket : ProxySocket)
    (parse : ProxySocket → Except Fault Handled) : Except Fault Handled :=
  if socket.sendBuffer ≠ [] then .ok (socket.fails .econnaborted)
  else
    match readAt socket.receiveBuffer 0 with
    | .error fault => .error fault
    | .ok version =>
        if version ≠ replyVersion socket.handshakeState then
          .ok (socket.fails .econnaborted)
        else parse socket

def onReply (lib : AddressLibrary) (socket : ProxySocket) :
    Except Fault Handled :=
  match socket.handshakeState with
  | .httpWait => socket.onHttpReply lib
  | .socks4Handshake => socket.onSocks4Reply
  | .socks5Method => socket.onSocks5Reply (onSocks5Method lib)
  | .socks5Auth => socket.onSocks5Reply (onSocks5Auth lib)
  | .socks5Request => socket.onSocks5Reply onSocks5Request

/-! ## Calls of the next layer -/

inductive ReadAnswer
  | bytes (data : Bytes)
  | closed
  | again
  | error (error : SocketError)

inductive WriteAnswer
  | written (count : ℕ)
  | again
  | error (error : SocketError)

/-- The calls that are left when the call on top has returned.  `OnSend` has
nothing more to do then, and `OnReceive` looks whether it can read. -/
def unwind (canRead : Bool) : List ProxyFrame → List ProxyFrame
  | [] => []
  | .sending :: frames => unwind canRead frames
  | .receiving :: frames =>
      if canRead then .receiving :: frames else unwind canRead frames

def leave (socket : ProxySocket) : ProxySocket :=
  { socket with frames := unwind socket.canRead socket.frames.tail }

def Handled.resume (handled : Handled) : ProxySocket × List ProxyOutput :=
  match handled.flow with
  | .continues =>
      ({ handled.socket with
        frames := unwind handled.socket.canRead handled.socket.frames },
        handled.outputs)
  | .returns => (handled.socket.leave, handled.outputs)
  | .sends => (handled.socket.onSend, handled.outputs)

/-- `read` in the loop of `OnReceive`. -/
def afterRead (lib : AddressLibrary) (socket : ProxySocket) :
    ReadAnswer → ProxySocket × List ProxyOutput
  | .error error => (socket.fails error).resume
  | .again => ({ socket with canRead := false }.leave, [])
  | .closed => (socket.fails .econnaborted).resume
  | .bytes data =>
      let socket :=
        { socket with receiveBuffer := socket.receiveBuffer ++ data }
      match socket.onReply lib with
      | .error fault => ({ socket with fault := some fault }, [])
      | .ok handled => handled.resume

/-- `write` in the loop of `OnSend`. -/
def afterWrite (socket : ProxySocket) :
    WriteAnswer → ProxySocket × List ProxyOutput
  | .error error => (socket.fails error).resume
  | .again => ({ socket with canWrite := false }.leave, [])
  | .written count =>
      let sent := socket.sendBuffer.take count
      let socket := { socket with sendBuffer := socket.sendBuffer.drop count }
      if socket.sendBuffer = [] then
        if socket.canRead ∧ socket.state = .connecting then
          (socket.onReceive, [.sent sent])
        else (socket.leave, [.sent sent])
      else (socket, [.sent sent])

/-- `socket_event_flag`. -/
inductive SocketEvent
  | connectionNext | connection | read | write
  deriving DecidableEq

def onSocketEvent (socket : ProxySocket) (event : SocketEvent)
    (error : Option SocketError) : ProxySocket × List ProxyOutput :=
  if socket.state ≠ .connecting then (socket, [])
  else if event = .connectionNext then (socket, [.forwarded error])
  else
    match error with
    | some error =>
        ({ socket with state := .failed }, [.forwarded (some error)])
    | none =>
        if event = .read then (socket.onReceive, [])
        else (socket.onSend, [])

/-- `read`, which the user calls; the answer is what the next layer would
return. -/
def read (socket : ProxySocket) (size : ℕ) (answer : ReadAnswer) :
    ProxySocket × List ProxyOutput :=
  if socket.receiveBuffer ≠ [] then
    ({ socket with receiveBuffer := socket.receiveBuffer.drop size },
      [.delivered (socket.receiveBuffer.take size)])
  else
    match answer with
    | .bytes data => (socket, [.delivered data])
    | _ => (socket, [])

inductive ProxyInput
  | event (event : SocketEvent) (error : Option SocketError)
  | readAnswer (answer : ReadAnswer)
  | writeAnswer (answer : WriteAnswer)
  | read (size : ℕ) (answer : ReadAnswer)

def ReadAnswer.fits (size : ℕ) : ReadAnswer → Bool
  | .bytes data => data ≠ [] && data.length ≤ size
  | _ => true

def WriteAnswer.fits (size : ℕ) : WriteAnswer → Bool
  | .written count => count ≤ size
  | _ => true

/-- Events arrive, and the user reads from a connection, when no call is
going on. -/
def step (lib : AddressLibrary) (socket : ProxySocket) (input : ProxyInput) :
    Option (ProxySocket × List ProxyOutput) :=
  if socket.fault ≠ none then none
  else
    match input with
    | .event event error =>
        if socket.frames = [] then some (socket.onSocketEvent event error)
        else none
    | .readAnswer answer =>
        if socket.frames.head? = some .receiving ∧ answer.fits 1024 then
          some (socket.afterRead lib answer)
        else none
    | .writeAnswer answer =>
        if socket.frames.head? = some .sending ∧
            answer.fits socket.sendBuffer.length then
          some (socket.afterWrite answer)
        else none
    | .read size answer =>
        if socket.frames = [] ∧ socket.state = .connected ∧
            answer.fits size then
          some (socket.read size answer)
        else none

def Connects (lib : AddressLibrary) (type : ProxyType)
    (user pass host : WString) (port : ℕ) (socket : ProxySocket) : Prop :=
  ∃ proxyHost proxyPort next result,
    (create type proxyHost proxyPort user pass).connect lib host port next
      result = (socket, none)

end ProxySocket

def proxySocket (lib : AddressLibrary) (type : ProxyType)
    (user pass host : WString) (port : ℕ) :
    Machine ProxySocket ProxySocket.ProxyInput ProxyOutput where
  initial := ProxySocket.Connects lib type user pass host port
  step := ProxySocket.step lib

end TabFtp
