import TabFtp.ProxyReplies

/-!
# What a SOCKS proxy is asked for

The messages of SOCKS4 and SOCKS5 are read back as the proxy reads them, and
compared with the target that the caller named.
-/

namespace TabFtp

open LabelledRuns CheckedBuffer

/-! ## Reading the messages -/

inductive SocksAddress
  | ipv4 (octets : Bytes)
  | ipv6 (octets : Bytes)
  | domain (name : Bytes)

/-- What a proxy is told: the address, the port, and the credentials if the
client was asked for them. -/
structure SocksTarget where
  address : SocksAddress
  port : ℕ
  credentials : Option (Bytes × Bytes)

namespace SocksFormat

def field (count : ℕ) (message : Bytes) : Option (Bytes × Bytes) :=
  if count ≤ message.length then
    some (message.take count, message.drop count)
  else none

def countedField : Bytes → Option (Bytes × Bytes)
  | [] => none
  | length :: message => field length.toNat message

def portNumber : Bytes → Option ℕ
  | [high, low] => some (high.toNat * 256 + low.toNat)
  | _ => none

/-- A SOCKS4 request with an empty user id. -/
def socks4 : Bytes → Option SocksTarget
  | 4 :: 1 :: high :: low :: rest =>
      match field 4 rest with
      | some (octets, [0]) =>
          (portNumber [high, low]).map fun port =>
            ⟨.ipv4 octets, port, none⟩
      | _ => none
  | _ => none

def address : Bytes → Option (SocksAddress × Bytes)
  | 1 :: message =>
      (field 4 message).map fun (octets, rest) => (.ipv4 octets, rest)
  | 3 :: message =>
      (countedField message).map fun (name, rest) => (.domain name, rest)
  | 4 :: message =>
      (field 16 message).map fun (octets, rest) => (.ipv6 octets, rest)
  | _ => none

/-- The request, which is the last message. -/
def request : Bytes → Option (SocksAddress × ℕ)
  | 5 :: 1 :: 0 :: message =>
      match address message with
      | some (address, rest) =>
          (portNumber rest).map fun port => (address, port)
      | none => none
  | _ => none

def credentials (message : Bytes) :
    Option ((Bytes × Bytes) × Bytes) :=
  match countedField message with
  | some (user, rest) =>
      (countedField rest).map fun (pass, rest) => ((user, pass), rest)
  | none => none

/-- The messages behind the offered methods; the first byte tells whether the
subnegotiation comes first. -/
def afterMethods (message : Bytes) : Option SocksTarget :=
  match message with
  | 1 :: rest =>
      match credentials rest with
      | some (creds, rest) =>
          (request rest).map fun (address, port) =>
            ⟨address, port, some creds⟩
      | none => none
  | _ =>
      (request message).map fun (address, port) => ⟨address, port, none⟩

def socks5 : Bytes → Option SocksTarget
  | 5 :: message =>
      match countedField message with
      | some (_, rest) => afterMethods rest
      | none => none
  | _ => none

end SocksFormat

/-! ## The target -/

def ipv4Field (field : WString) : Option UInt8 :=
  if field ≠ [] ∧ field.all Char.isDigit ∧
      Nat.ofDigitChars 10 field 0 ≤ 255 then
    some (UInt8.ofNat (Nat.ofDigitChars 10 field 0))
  else none

def ipv4Value (host : WString) : Option Bytes :=
  match host.splitOn '.' with
  | [a, b, c, d] =>
      match ipv4Field a, ipv4Field b, ipv4Field c, ipv4Field d with
      | some a, some b, some c, some d => some [a, b, c, d]
      | _, _, _, _ => none
  | _ => none

def hexDigit (c : UInt8) : UInt8 :=
  if 97 ≤ c ∧ c ≤ 102 then c - 97 + 10
  else if 65 ≤ c ∧ c ≤ 70 then c - 65 + 10
  else if 48 ≤ c ∧ c ≤ 57 then c - 48
  else 255

def IsHexByte (high low : UInt8) (byte : UInt8) : Prop :=
  hexDigit high < 16 ∧ hexDigit low < 16 ∧
    byte.toNat = (hexDigit high).toNat * 16 + (hexDigit low).toNat

inductive IsHexGroup : Bytes → Bytes → Prop
  | group (a b c d first second : UInt8) :
      IsHexByte a b first → IsHexByte c d second →
      IsHexGroup [a, b, c, d] [first, second]

def IsLongForm (text octets : Bytes) : Prop :=
  ∃ groups values : List Bytes, groups.length = 8 ∧
    List.Forall₂ IsHexGroup groups values ∧
    text = [58].intercalate groups ∧ octets = values.flatten

/-- The library tells addresses apart, expands them and reads digits;
`ipv6Value` is the value that an IPv6 literal has. -/
structure AddressLibrary.Correct (lib : AddressLibrary)
    (ipv6Value : WString → Option Bytes) : Prop where
  ipv4 : ∀ host, lib.getAddressType host = .ipv4 ↔
    (ipv4Value host).isSome = true
  ipv6 : ∀ host, lib.getAddressType host = .ipv6 ↔
    ipv4Value host = none ∧ (ipv6Value host).isSome = true
  longForm : ∀ host octets, ipv6Value host = some octets →
    IsLongForm (lib.getIpv6LongForm host) octets
  hexCharToInt : ∀ c, hexDigit c < 16 → lib.hexCharToInt c = hexDigit c

def wantedAddress (ipv6Value : WString → Option Bytes) (host : WString) :
    SocksAddress :=
  match ipv4Value host with
  | some octets => .ipv4 octets
  | none =>
      match ipv6Value host with
      | some octets => .ipv6 octets
      | none => .domain (utf8 host)

def requestBytes (outputs : List ProxyOutput) : Bytes :=
  outputs.flatMap fun output =>
    match output with
    | .sent bytes => bytes
    | _ => []

def decodeSocks (type : ProxyType) (bytes : Bytes) : Option SocksTarget :=
  if type = .socks4 then SocksFormat.socks4 bytes
  else SocksFormat.socks5 bytes

/-! ## Fields -/

namespace SocksFormat

theorem field_append (name rest : Bytes) :
    field name.length (name ++ rest) = some (name, rest) := by
  unfold field
  rw [if_pos (by simp), List.take_left, List.drop_left]

theorem countedField_append {name rest : Bytes} (hlength : name.length ≤ 255) :
    countedField (UInt8.ofNat name.length :: (name ++ rest)) =
      some (name, rest) := by
  have hcount : (UInt8.ofNat name.length).toNat = name.length := by
    rw [UInt8.toNat_ofNat']
    omega
  unfold countedField
  dsimp only
  rw [hcount]
  exact field_append name rest

theorem portNumber_portBytes {port : ℕ} (hport : port ≤ 65535) :
    portNumber (ProxySocket.portBytes port) = some port := by
  unfold portNumber ProxySocket.portBytes
  dsimp only
  rw [UInt8.toNat_ofNat', UInt8.toNat_ofNat', Nat.shiftRight_eq_div_pow]
  congr 1
  omega

end SocksFormat

namespace SocksFormat

theorem address_ipv4 {octets : Bytes} (hlength : octets.length = 4)
    (rest : Bytes) :
    address (1 :: (octets ++ rest)) = some (.ipv4 octets, rest) := by
  have hfield := field_append octets rest
  rw [hlength] at hfield
  exact congrArg
    (Option.map fun pair => (SocksAddress.ipv4 pair.1, pair.2)) hfield

theorem address_ipv6 {octets : Bytes} (hlength : octets.length = 16)
    (rest : Bytes) :
    address (4 :: (octets ++ rest)) = some (.ipv6 octets, rest) := by
  have hfield := field_append octets rest
  rw [hlength] at hfield
  exact congrArg
    (Option.map fun pair => (SocksAddress.ipv6 pair.1, pair.2)) hfield

theorem address_domain {name : Bytes} (hlength : name.length ≤ 255)
    (rest : Bytes) :
    address (3 :: UInt8.ofNat name.length :: (name ++ rest)) =
      some (.domain name, rest) := by
  have hfield := @countedField_append name rest hlength
  exact congrArg
    (Option.map fun pair => (SocksAddress.domain pair.1, pair.2)) hfield

theorem request_of_address {message rest : Bytes} {target : SocksAddress}
    {port : ℕ} (haddress : address message = some (target, rest))
    (hport : portNumber rest = some port) :
    request (5 :: 1 :: 0 :: message) = some (target, port) := by
  have hrequest : request (5 :: 1 :: 0 :: message) =
      match address message with
      | some (address, rest) =>
          (portNumber rest).map fun port => (address, port)
      | none => none := rfl
  rw [hrequest, haddress]
  dsimp only
  rw [hport]
  rfl

theorem afterMethods_of_credentials {message rest : Bytes}
    {creds : Bytes × Bytes}
    (hcredentials : credentials message = some (creds, rest)) :
    afterMethods (1 :: message) =
      (request rest).map fun (address, port) =>
        ⟨address, port, some creds⟩ := by
  have hafter : afterMethods (1 :: message) =
      match credentials message with
      | some (creds, rest) =>
          (request rest).map fun (address, port) =>
            ⟨address, port, some creds⟩
      | none => none := rfl
  rw [hafter, hcredentials]

theorem socks4_of_octets {high low : UInt8} {octets : Bytes} {port : ℕ}
    (hlength : octets.length = 4)
    (hport : portNumber [high, low] = some port) :
    socks4 (4 :: 1 :: high :: low :: (octets ++ [0])) =
      some ⟨.ipv4 octets, port, none⟩ := by
  have hfield := field_append octets [0]
  rw [hlength] at hfield
  have hsocks4 : socks4 (4 :: 1 :: high :: low :: (octets ++ [0])) =
      match field 4 (octets ++ [0]) with
      | some (octets, [0]) =>
          (portNumber [high, low]).map fun port =>
            ⟨.ipv4 octets, port, none⟩
      | _ => none := rfl
  rw [hsocks4, hfield]
  exact congrArg (Option.map fun port =>
    (⟨.ipv4 octets, port, none⟩ : SocksTarget)) hport

end SocksFormat

/-! ## IPv4 -/

theorem utf8EncodeChar_ascii {c : Char} (hascii : c.toNat < 128) :
    String.utf8EncodeChar c = [UInt8.ofNat c.toNat] := by
  have hval : c.val.toNat ≤ 127 := by
    change c.toNat ≤ 127
    omega
  unfold String.utf8EncodeChar
  dsimp only
  rw [if_pos hval]
  rfl

theorem isDigit_bounds {c : Char} (hdigit : c.isDigit = true) :
    48 ≤ c.toNat ∧ c.toNat ≤ 57 := by
  unfold Char.isDigit at hdigit
  rw [Bool.and_eq_true, decide_eq_true_eq, decide_eq_true_eq] at hdigit
  exact ⟨hdigit.1, hdigit.2⟩

theorem ofDigitChars_mod {digits : WString} {n m : ℕ}
    (hsame : n % 256 = m % 256) :
    Nat.ofDigitChars 10 digits n % 256 =
      Nat.ofDigitChars 10 digits m % 256 := by
  induction digits generalizing n m with
  | nil => simpa using hsame
  | cons c digits ih =>
      rw [Nat.ofDigitChars_cons, Nat.ofDigitChars_cons]
      apply ih
      omega

theorem addOctet_digit {c : Char} (hdigit : c.isDigit = true)
    (digits : WString) (octet : UInt8) :
    UInt8.ofNat (Nat.ofDigitChars 10 digits
        (octet * 10 + (UInt8.ofNat c.toNat - 48)).toNat) =
      UInt8.ofNat (Nat.ofDigitChars 10 (c :: digits) octet.toNat) := by
  rcases isDigit_bounds hdigit with ⟨hlow, hhigh⟩
  have hzero : '0'.toNat = 48 := rfl
  have hsub : (UInt8.ofNat c.toNat - 48).toNat = c.toNat - 48 := by
    rw [UInt8.toNat_sub, UInt8.toNat_ofNat']
    simp
    omega
  apply UInt8.toNat.inj
  rw [UInt8.toNat_ofNat', UInt8.toNat_ofNat', Nat.ofDigitChars_cons]
  apply ofDigitChars_mod
  rw [UInt8.toNat_add, UInt8.toNat_mul, hsub, hzero]
  simp
  omega

theorem addOctets_digits {field : WString} {i : ℕ} (hi : i < 4)
    (hdigits : ∀ c ∈ field, c.isDigit = true) (rest out : Bytes) :
    ProxySocket.addOctets (utf8 field ++ rest) i out =
      ProxySocket.addOctets rest i (out.modify i fun octet =>
        UInt8.ofNat (Nat.ofDigitChars 10 field octet.toNat)) := by
  induction field generalizing out with
  | nil =>
      have hid : (fun octet : UInt8 =>
          UInt8.ofNat (Nat.ofDigitChars 10 [] octet.toNat)) = id := by
        funext octet
        simp
      rw [hid, List.modify_id]
      rfl
  | cons c field ih =>
      have hdigit := hdigits c List.mem_cons_self
      rcases isDigit_bounds hdigit with ⟨hlow, hhigh⟩
      have hbyte : (UInt8.ofNat c.toNat).toNat = c.toNat := by
        rw [UInt8.toNat_ofNat']
        omega
      have hother : ∀ byte : UInt8, byte.toNat < 48 →
          UInt8.ofNat c.toNat ≠ byte := by
        rintro byte hless rfl
        omega
      have hnul := hother 0 (by decide)
      have hdot := hother 46 (by decide)
      have hcons : utf8 (c :: field) ++ rest =
          UInt8.ofNat c.toNat :: (utf8 field ++ rest) := by
        unfold utf8
        rw [List.flatMap_cons, utf8EncodeChar_ascii (by omega)]
        rfl
      rw [hcons, ProxySocket.addOctets, if_neg (by simp [hnul]; omega),
        if_neg hdot, ih fun other hother =>
          hdigits other (List.mem_cons_of_mem _ hother),
        List.modify_modify_eq]
      congr 2
      funext octet
      exact addOctet_digit hdigit field octet

theorem ipv4Field_some {field : WString} {octet : UInt8}
    (hfield : ipv4Field field = some octet) :
    (∀ c ∈ field, c.isDigit = true) ∧
      octet = UInt8.ofNat (Nat.ofDigitChars 10 field 0) := by
  unfold ipv4Field at hfield
  split_ifs at hfield with hvalid
  cases hfield
  exact ⟨List.all_eq_true.mp hvalid.2.1, rfl⟩

theorem addOctets_dot {i : ℕ} (hi : i < 4) (rest : WString) (out : Bytes) :
    ProxySocket.addOctets (utf8 ('.' :: rest)) i out =
      ProxySocket.addOctets (utf8 rest) (i + 1) out := by
  have hcons : utf8 ('.' :: rest) = 46 :: utf8 rest := rfl
  rw [hcons, ProxySocket.addOctets, if_neg (by simp; omega), if_pos rfl]

theorem ipv4Octets_eq {host : WString} {octets : Bytes}
    (hvalue : ipv4Value host = some octets) :
    ProxySocket.ipv4Octets (utf8 host) = octets ∧ octets.length = 4 := by
  have hjoin : ['.'].intercalate (host.splitOn '.') = host :=
    List.intercalate_splitOn '.'
  unfold ipv4Value at hvalue
  split at hvalue
  · rename_i a b c d hsplit
    rw [hsplit] at hjoin
    split at hvalue
    · rename_i first second third fourth ha hb hc hd
      cases hvalue
      rcases ipv4Field_some ha with ⟨hadigits, rfl⟩
      rcases ipv4Field_some hb with ⟨hbdigits, rfl⟩
      rcases ipv4Field_some hc with ⟨hcdigits, rfl⟩
      rcases ipv4Field_some hd with ⟨hddigits, rfl⟩
      have hhost : host =
          a ++ '.' :: (b ++ '.' :: (c ++ '.' :: (d ++ []))) := by
        rw [← hjoin]
        simp [List.intercalate_cons_cons]
      refine ⟨?_, rfl⟩
      unfold ProxySocket.ipv4Octets
      rw [hhost, utf8_append, addOctets_digits (by omega) hadigits,
        addOctets_dot (by omega), utf8_append,
        addOctets_digits (by omega) hbdigits, addOctets_dot (by omega),
        utf8_append, addOctets_digits (by omega) hcdigits,
        addOctets_dot (by omega), utf8_append,
        addOctets_digits (by omega) hddigits]
      rfl
    · cases hvalue
  · cases hvalue

/-! ## IPv6 -/

section LongForm

variable {lib : AddressLibrary} {ipv6Value : WString → Option Bytes}
  (hlib : lib.Correct ipv6Value)

include hlib

theorem ipv6Byte_of_hex {text : Bytes} {i : ℕ} {high low byte : UInt8}
    (hhigh : text.getD (i * 2 + i / 2) 0 = high)
    (hlow : text.getD (i * 2 + 1 + i / 2) 0 = low)
    (hhex : IsHexByte high low byte) :
    ProxySocket.ipv6Byte lib text i = byte := by
  rcases hhex with ⟨hfirst, hsecond, hvalue⟩
  unfold ProxySocket.ipv6Byte
  rw [hhigh, hlow, hlib.hexCharToInt high hfirst,
    hlib.hexCharToInt low hsecond]
  generalize hexDigit high = first at hfirst hvalue
  generalize hexDigit low = second at hsecond hvalue
  apply UInt8.toNat.inj
  have hfirst' : first.toNat < 16 := hfirst
  have hsecond' : second.toNat < 16 := hsecond
  rw [UInt8.toNat_add, UInt8.toNat_shiftLeft, hvalue]
  simp only [UInt8.reduceToNat, Nat.reduceMod, Nat.shiftLeft_eq]
  omega

theorem ipv6Byte_group {a b c d first second : UInt8} (rest : Bytes)
    (hfirst : IsHexByte a b first) (hsecond : IsHexByte c d second) :
    ProxySocket.ipv6Byte lib ([a, b, c, d] ++ rest) 0 = first ∧
      ProxySocket.ipv6Byte lib ([a, b, c, d] ++ rest) 1 = second :=
  ⟨ipv6Byte_of_hex hlib rfl rfl hfirst, ipv6Byte_of_hex hlib rfl rfl hsecond⟩

omit hlib in
theorem ipv6Byte_next {group : Bytes} (hgroup : group.length = 4)
    (text : Bytes) (i : ℕ) :
    ProxySocket.ipv6Byte lib (group ++ 58 :: text) (i + 2) =
      ProxySocket.ipv6Byte lib text i := by
  have hget : ∀ j, (group ++ 58 :: text).getD (j + 5) 0 =
      text.getD j 0 := by
    intro j
    have hindex : j + 5 - group.length = j + 1 := by omega
    rw [List.getD_eq_getElem?_getD, List.getD_eq_getElem?_getD,
      List.getElem?_append_right (by omega), hindex,
      List.getElem?_cons_succ]
  unfold ProxySocket.ipv6Byte
  rw [show (i + 2) * 2 + (i + 2) / 2 = i * 2 + i / 2 + 5 by omega,
    show (i + 2) * 2 + 1 + (i + 2) / 2 = i * 2 + 1 + i / 2 + 5 by omega,
    hget, hget]

theorem ipv6Bytes_groups {groups values : List Bytes}
    (hgroups : List.Forall₂ IsHexGroup groups values) :
    (List.range (2 * groups.length)).map
        (ProxySocket.ipv6Byte lib ([58].intercalate groups)) =
          values.flatten ∧
      values.flatten.length = 2 * groups.length := by
  induction hgroups with
  | nil => exact ⟨rfl, rfl⟩
  | @cons group value groups values hgroup hgroups ih =>
      cases hgroup with
      | group a b c d first second hfirst hsecond =>
          have hlength : 2 * ([a, b, c, d] :: groups).length =
              2 * groups.length + 1 + 1 := by
            rw [List.length_cons]
            omega
          have hflatten : ([first, second] :: values).flatten =
              first :: second :: values.flatten := rfl
          rw [hlength, hflatten, List.length_cons, List.length_cons, ih.2,
            List.range_succ_eq_map, List.range_succ_eq_map, List.map_cons,
            List.map_cons, List.map_cons, List.map_map, List.map_map]
          refine ⟨?_, rfl⟩
          cases groups with
          | nil =>
              have hvalues : values = [] := by
                cases hgroups
                rfl
              have hpair := ipv6Byte_group hlib [] hfirst hsecond
              rw [List.append_nil] at hpair
              rw [List.intercalate_singleton, hpair.1, hvalues]
              exact congrArg (fun byte => [first, byte]) hpair.2
          | cons next groups =>
              rw [List.intercalate_cons_cons, List.append_assoc]
              have hpair := ipv6Byte_group hlib
                ([58] ++ [58].intercalate (next :: groups)) hfirst hsecond
              have hrest : (ProxySocket.ipv6Byte lib ([a, b, c, d] ++
                  ([58] ++ [58].intercalate (next :: groups))) ∘ Nat.succ) ∘
                  Nat.succ =
                  ProxySocket.ipv6Byte lib
                    ([58].intercalate (next :: groups)) := by
                funext i
                exact ipv6Byte_next rfl _ i
              have hone : ProxySocket.ipv6Byte lib ([a, b, c, d] ++
                  ([58] ++ [58].intercalate (next :: groups))) (Nat.succ 0) =
                  second := hpair.2
              rw [hpair.1, hone, hrest, ih.1]

theorem ipv6Bytes_eq {text octets : Bytes} (hform : IsLongForm text octets) :
    (List.range 16).map (ProxySocket.ipv6Byte lib text) = octets ∧
      octets.length = 16 := by
  rcases hform with ⟨groups, values, hlength, hgroups, rfl, rfl⟩
  have heq := ipv6Bytes_groups hlib hgroups
  rw [hlength] at heq
  exact heq

end LongForm

/-! ## The messages -/

open ProxySocket

variable {lib : AddressLibrary} {ipv6Value : WString → Option Bytes}
  {socket following : ProxySocket}

/-- A name that does not fit in the request. -/
def NameTooLong (lib : AddressLibrary) (host : WString) : Prop :=
  lib.getAddressType host = .unknown ∧ 255 < (utf8 host).length

theorem wantedAddress_unknown (hlib : lib.Correct ipv6Value) {host : WString}
    (htype : lib.getAddressType host = .unknown) :
    wantedAddress ipv6Value host = .domain (utf8 host) := by
  have hipv4 : ipv4Value host = none := by
    rw [← Option.not_isSome_iff_eq_none, ← hlib.ipv4, htype]
    exact nofun
  have hipv6 : ipv6Value host = none := by
    rw [← Option.not_isSome_iff_eq_none]
    intro hsome
    have hother := (hlib.ipv6 host).mpr ⟨hipv4, hsome⟩
    rw [htype] at hother
    cases hother
  unfold wantedAddress
  rw [hipv4, hipv6]

theorem wantedAddress_ipv4 (hlib : lib.Correct ipv6Value) {host : WString}
    (htype : lib.getAddressType host = .ipv4) :
    wantedAddress ipv6Value host = .ipv4 (ipv4Octets (utf8 host)) ∧
      (ipv4Octets (utf8 host)).length = 4 := by
  rcases Option.isSome_iff_exists.mp ((hlib.ipv4 host).mp htype) with
    ⟨octets, hvalue⟩
  rcases ipv4Octets_eq hvalue with ⟨hoctets, hlength⟩
  unfold wantedAddress
  rw [hvalue, hoctets]
  exact ⟨rfl, hlength⟩

theorem address_socks5Address (hlib : lib.Correct ipv6Value)
    (hfits : ¬NameTooLong lib socket.host) (rest : Bytes) :
    SocksFormat.address (socket.socks5Address lib ++ rest) =
      some (wantedAddress ipv6Value socket.host, rest) := by
  unfold socks5Address
  cases htype : lib.getAddressType socket.host with
  | ipv4 =>
      rcases wantedAddress_ipv4 hlib htype with ⟨hwanted, hlength⟩
      rw [hwanted]
      exact SocksFormat.address_ipv4 hlength rest
  | ipv6 =>
      rcases (hlib.ipv6 socket.host).mp htype with ⟨hipv4, hsome⟩
      rcases Option.isSome_iff_exists.mp hsome with ⟨octets, hvalue⟩
      rcases ipv6Bytes_eq hlib (hlib.longForm socket.host octets hvalue) with
        ⟨hoctets, hlength⟩
      have hwanted : wantedAddress ipv6Value socket.host = .ipv6 octets := by
        unfold wantedAddress
        rw [hipv4, hvalue]
      dsimp only
      rw [hoctets, hwanted]
      exact SocksFormat.address_ipv6 hlength rest
  | unknown =>
      have hlength : (utf8 socket.host).length ≤ 255 := by
        by_contra hlong
        exact hfits ⟨htype, by omega⟩
      dsimp only
      rw [Nat.min_eq_left hlength, List.take_length,
        wantedAddress_unknown hlib htype]
      exact SocksFormat.address_domain hlength rest

theorem request_socks5Request (hlib : lib.Correct ipv6Value)
    (hfits : ¬NameTooLong lib socket.host) (hport : socket.port ≤ 65535) :
    SocksFormat.request (socket.socks5Request lib) =
      some (wantedAddress ipv6Value socket.host, socket.port) :=
  SocksFormat.request_of_address (address_socks5Address hlib hfits _)
    (SocksFormat.portNumber_portBytes hport)

theorem socks5_greeting (message : Bytes) :
    SocksFormat.socks5 (socket.socks5Greeting ++ message) =
      SocksFormat.afterMethods message := by
  unfold socks5Greeting
  split_ifs
  · rfl
  · rfl

theorem afterMethods_request :
    SocksFormat.afterMethods (socket.socks5Request lib) =
      (SocksFormat.request (socket.socks5Request lib)).map
        fun (address, port) => ⟨address, port, none⟩ :=
  rfl

theorem afterMethods_credentials (huser : socket.user.length ≤ 255)
    (hpass : socket.pass.length ≤ 255) (message : Bytes) :
    SocksFormat.afterMethods (socket.socks5Credentials ++ message) =
      (SocksFormat.request message).map
        fun (address, port) =>
          ⟨address, port, some (socket.user, socket.pass)⟩ := by
  have hcredentials : SocksFormat.credentials
      (UInt8.ofNat socket.user.length :: (socket.user ++
        UInt8.ofNat socket.pass.length :: (socket.pass ++ message))) =
      some ((socket.user, socket.pass), message) := by
    unfold SocksFormat.credentials
    rw [SocksFormat.countedField_append huser]
    dsimp only
    rw [SocksFormat.countedField_append hpass]
    rfl
  have hmessage : socket.socks5Credentials ++ message =
      1 :: UInt8.ofNat socket.user.length :: (socket.user ++
        UInt8.ofNat socket.pass.length :: (socket.pass ++ message)) := by
    unfold socks5Credentials
    dsimp only
    rw [Nat.min_eq_left huser, Nat.min_eq_left hpass, List.take_length,
      List.take_length]
    simp
  rw [hmessage]
  exact SocksFormat.afterMethods_of_credentials hcredentials

theorem socks4_socks4Request (hlib : lib.Correct ipv6Value)
    (htype : lib.getAddressType socket.host = .ipv4)
    (hport : socket.port ≤ 65535) :
    SocksFormat.socks4 socket.socks4Request =
      some ⟨wantedAddress ipv6Value socket.host, socket.port, none⟩ := by
  rcases wantedAddress_ipv4 hlib htype with ⟨hwanted, hlength⟩
  rw [hwanted]
  exact SocksFormat.socks4_of_octets hlength
    (SocksFormat.portNumber_portBytes hport)

end TabFtp
