import TabFtp.LexicographicKeys
import TabFtp.ServerIdentity
import Mathlib.Data.Char
import Mathlib.Data.String.Basic

/-!
# The order of servers

`CServer::operator<` is a chain of tests like `operator==`, but it does not
look at the post-login commands.  It is an order that a map can use; two
servers that differ in nothing but these commands are one key.
-/

namespace TabFtp

open LexicographicKeys

/-- The value of the enumerator. -/
def ServerProtocol.number : ServerProtocol → ℤ
  | .unknown => -1
  | .ftp => 0
  | .sftp => 1
  | .http => 2
  | .ftps => 3
  | .ftpes => 4
  | .https => 5
  | .insecureFtp => 6
  | .s3 => 7
  | .storj => 8
  | .webdav => 9
  | .azureFile => 10
  | .azureBlob => 11
  | .swift => 12
  | .googleCloud => 13
  | .googleDrive => 14
  | .dropbox => 15
  | .onedrive => 16
  | .b2 => 17
  | .box => 18
  | .insecureWebdav => 19
  | .rackspace => 20
  | .storjGrant => 21
  | .s3Sso => 22
  | .googleCloudSvcAcc => 23
  | .cloudflareR2 => 24

/-- The value of the enumerator. -/
def PasvMode.number : PasvMode → ℕ
  | .default => 0
  | .active => 1
  | .passive => 2

/-- The value of the enumerator. -/
def CharsetEncoding.number : CharsetEncoding → ℕ
  | .auto => 0
  | .utf8 => 1
  | .custom => 2

/-- `std::pair::operator<` -/
def parameterLess (left right : String × WString) : Bool :=
  if left.1 < right.1 then true
  else if right.1 < left.1 then false
  else decide (left.2 < right.2)

/-- `std::map::operator<` -/
def extraParametersLess :
    List (String × WString) → List (String × WString) → Bool :=
  listLess parameterLess

/-- `CServer::operator<` -/
def Server.less (server op : Server) : Bool :=
  lexThen server.protocol.number op.protocol.number <|
  lexThen server.type.number op.type.number <|
  lexThen server.host op.host <|
  lexThen server.port op.port <|
  lexThen server.user op.user <|
  lexThen server.timezoneOffset op.timezoneOffset <|
  lexThen server.pasvMode.number op.pasvMode.number <|
  lexThen server.encodingType.number op.encodingType.number <|
  let rest :=
    lexThen server.bypassProxy op.bypassProxy <|
    if extraParametersLess server.extraParameters op.extraParameters then
      true
    else false
  if server.encodingType = .custom then
    lexThen server.customEncoding op.customEncoding rest
  else rest

/-- The servers agree in every field that `operator<` compares. -/
structure Server.ComparedAlike (server op : Server) : Prop where
  protocol : server.protocol = op.protocol
  type : server.type = op.type
  host : server.host = op.host
  port : server.port = op.port
  user : server.user = op.user
  timezoneOffset : server.timezoneOffset = op.timezoneOffset
  pasvMode : server.pasvMode = op.pasvMode
  encodingType : server.encodingType = op.encodingType
  customEncoding : server.encodingType = .custom →
    server.customEncoding = op.customEncoding
  bypassProxy : server.bypassProxy = op.bypassProxy
  extraParameters : server.extraParameters = op.extraParameters

/-! ## The key -/

theorem ServerProtocol.number_injective :
    Function.Injective ServerProtocol.number := by
  intro left right heq
  cases left <;> cases right <;> first | rfl | cases heq

theorem ServerType.number_injective :
    Function.Injective ServerType.number := by
  intro left right heq
  cases left <;> cases right <;> first | rfl | cases heq

theorem PasvMode.number_injective : Function.Injective PasvMode.number := by
  intro left right heq
  cases left <;> cases right <;> first | rfl | cases heq

theorem CharsetEncoding.number_injective :
    Function.Injective CharsetEncoding.number := by
  intro left right heq
  cases left <;> cases right <;> first | rfl | cases heq

abbrev ServerKey :=
  ℤ ×ₗ ℕ ×ₗ WString ×ₗ ℕ ×ₗ WString ×ₗ ℤ ×ₗ ℕ ×ₗ ℕ ×ₗ WString ×ₗ Bool ×ₗ
    List (String ×ₗ WString)

def Server.comparedEncoding (server : Server) : WString :=
  if server.encodingType = .custom then server.customEncoding else []

def Server.orderKey (server : Server) : ServerKey :=
  toLex (server.protocol.number,
    toLex (server.type.number,
      toLex (server.host,
        toLex (server.port,
          toLex (server.user,
            toLex (server.timezoneOffset,
              toLex (server.pasvMode.number,
                toLex (server.encodingType.number,
                  toLex (server.comparedEncoding,
                    toLex (server.bypassProxy,
                      server.extraParameters.map toLex))))))))))

theorem parameterLess_iff (left right : String × WString) :
    parameterLess left right = true ↔ toLex left < toLex right := by
  have hrest : left.1 = right.1 →
      (decide (left.2 < right.2) = true ↔ left.2 < right.2) :=
    fun _ => decide_eq_true_iff
  exact lexThen_iff hrest

theorem extraParametersLess_iff (lefts rights : List (String × WString)) :
    extraParametersLess lefts rights = true ↔
      (lefts.map toLex : List (String ×ₗ WString)) < rights.map toLex :=
  listLess_iff toLex parameterLess_iff lefts rights

theorem Server.less_iff (server op : Server) :
    server.less op = true ↔ server.orderKey < op.orderKey := by
  have hparameters :
      (if extraParametersLess server.extraParameters op.extraParameters then
          true
        else false) = true ↔
      (server.extraParameters.map toLex : List (String ×ₗ WString)) <
        op.extraParameters.map toLex := by
    simpa using
      extraParametersLess_iff server.extraParameters op.extraParameters
  unfold Server.less Server.orderKey
  iterate 8
    apply lexThen_iff
    intro heq
  -- the encoding types agree here, so both keys hold the same kind of text
  have htype := CharsetEncoding.number_injective heq
  have hrest := @lexThen_iff _ _ _ _ server.bypassProxy op.bypassProxy _ _ _
    fun _ => hparameters
  by_cases hcustom : server.encodingType = .custom
  · have hop : op.encodingType = .custom := htype ▸ hcustom
    simp only [comparedEncoding, if_pos hcustom, if_pos hop]
    exact lexThen_iff fun _ => hrest
  · have hop : op.encodingType ≠ .custom := htype ▸ hcustom
    simp only [comparedEncoding, if_neg hcustom, if_neg hop]
    rw [hrest]
    simp [Prod.Lex.toLex_lt_toLex]

theorem Server.less_strictWeak : OrderedSet.StrictWeak Server.less :=
  strictWeak_of_key Server.less_iff

theorem Server.orderKey_eq_iff (server op : Server) :
    server.orderKey = op.orderKey ↔ server.ComparedAlike op := by
  have hparameters :
      (server.extraParameters.map toLex : List (String ×ₗ WString)) =
          op.extraParameters.map toLex ↔
        server.extraParameters = op.extraParameters :=
    (List.map_injective_iff.mpr toLex.injective).eq_iff
  unfold orderKey
  simp only [EmbeddingLike.apply_eq_iff_eq, Prod.mk.injEq, hparameters,
    ServerProtocol.number_injective.eq_iff, ServerType.number_injective.eq_iff,
    PasvMode.number_injective.eq_iff, CharsetEncoding.number_injective.eq_iff]
  constructor
  · rintro ⟨hprotocol, htype, hhost, hport, huser, htime, hpasv, hencoding,
      hcustom, hbypass, hextra⟩
    have hcompared : server.encodingType = .custom →
        server.customEncoding = op.customEncoding := by
      intro hserver
      have hop : op.encodingType = .custom := hencoding ▸ hserver
      simpa [comparedEncoding, hserver, hop] using hcustom
    exact ⟨hprotocol, htype, hhost, hport, huser, htime, hpasv, hencoding,
      hcompared, hbypass, hextra⟩
  · intro halike
    have hcustom : server.comparedEncoding = op.comparedEncoding := by
      unfold comparedEncoding
      rw [← halike.encodingType]
      by_cases hserver : server.encodingType = .custom
      · rw [if_pos hserver, if_pos hserver]
        exact halike.customEncoding hserver
      · rw [if_neg hserver, if_neg hserver]
    exact ⟨halike.protocol, halike.type, halike.host, halike.port,
      halike.user, halike.timezoneOffset, halike.pasvMode,
      halike.encodingType, hcustom, halike.bypassProxy,
      halike.extraParameters⟩

theorem Server.equivalent_iff (server op : Server) :
    OrderedSet.Equivalent Server.less server op ↔
      server.ComparedAlike op := by
  rw [equivalent_iff_key Server.less_iff, Server.orderKey_eq_iff]

theorem Server.same_iff_comparedAlike (server op : Server) :
    server.same op = true ↔
      server.ComparedAlike op ∧
        server.postLoginCommands = op.postLoginCommands := by
  rw [Server.same_iff]
  constructor
  · rintro ⟨hprotocol, htype, hhost, hport, huser, htime, hpasv, hencoding,
      hcustom, hcommands, hbypass, hextra⟩
    exact ⟨⟨hprotocol, htype, hhost, hport, huser, htime, hpasv, hencoding,
      hcustom, hbypass, hextra⟩, hcommands⟩
  · rintro ⟨halike, hcommands⟩
    exact ⟨halike.protocol, halike.type, halike.host, halike.port,
      halike.user, halike.timezoneOffset, halike.pasvMode,
      halike.encodingType, halike.customEncoding, hcommands,
      halike.bypassProxy, halike.extraParameters⟩

end TabFtp
