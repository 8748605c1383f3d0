import Mathlib.Tactic

/-!
# Servers and when two of them are the same

`CServer` is the description of a site that the engine passes around.  Its
comparison is written out field by field in the source and looks at the
custom encoding only where a custom encoding is selected, so it is coarser
than equality of records.
-/

namespace TabFtp

abbrev WString := List Char

inductive ServerProtocol
  | unknown
  | ftp | sftp | http | ftps | ftpes | https | insecureFtp
  | s3 | storj | webdav | azureFile | azureBlob | swift
  | googleCloud | googleDrive | dropbox | onedrive | b2 | box
  | insecureWebdav | rackspace | storjGrant | s3Sso
  | googleCloudSvcAcc | cloudflareR2
  deriving DecidableEq

inductive ServerType
  | default | unix | vms | dos | mvs | vxworks | zvm | hpnonstop
  | dosVirtual | cygwin | dosFwdSlashes
  deriving DecidableEq

/-- The value of the enumerator. -/
def ServerType.number : ServerType → ℕ
  | .default => 0
  | .unix => 1
  | .vms => 2
  | .dos => 3
  | .mvs => 4
  | .vxworks => 5
  | .zvm => 6
  | .hpnonstop => 7
  | .dosVirtual => 8
  | .cygwin => 9
  | .dosFwdSlashes => 10

inductive PasvMode
  | default | active | passive
  deriving DecidableEq

inductive CharsetEncoding
  | auto | utf8 | custom
  deriving DecidableEq

structure Server where
  protocol : ServerProtocol
  type : ServerType
  host : WString
  user : WString
  port : ℕ
  timezoneOffset : ℤ
  pasvMode : PasvMode
  bypassProxy : Bool
  encodingType : CharsetEncoding
  customEncoding : WString
  postLoginCommands : List WString
  extraParameters : List (String × WString)
  deriving DecidableEq

/-- `CServer::operator==`, one conjunct for each early `return false`. -/
def Server.same (server op : Server) : Bool :=
  server.protocol == op.protocol &&
  server.type == op.type &&
  server.host == op.host &&
  server.port == op.port &&
  server.user == op.user &&
  server.timezoneOffset == op.timezoneOffset &&
  server.pasvMode == op.pasvMode &&
  server.encodingType == op.encodingType &&
  (server.encodingType != .custom ||
    server.customEncoding == op.customEncoding) &&
  server.postLoginCommands == op.postLoginCommands &&
  server.bypassProxy == op.bypassProxy &&
  server.extraParameters == op.extraParameters

theorem Server.same_iff (server op : Server) :
    server.same op = true ↔
      server.protocol = op.protocol ∧ server.type = op.type ∧
      server.host = op.host ∧ server.port = op.port ∧
      server.user = op.user ∧ server.timezoneOffset = op.timezoneOffset ∧
      server.pasvMode = op.pasvMode ∧
      server.encodingType = op.encodingType ∧
      (server.encodingType = .custom →
        server.customEncoding = op.customEncoding) ∧
      server.postLoginCommands = op.postLoginCommands ∧
      server.bypassProxy = op.bypassProxy ∧
      server.extraParameters = op.extraParameters := by
  simp only [Server.same, Bool.and_eq_true, Bool.or_eq_true, beq_iff_eq,
    bne_iff_ne, and_assoc, ne_eq, ← imp_iff_not_or]

@[simp] theorem Server.same_refl (server : Server) :
    server.same server = true := by
  rw [Server.same_iff]
  simp

theorem Server.same_comm (server op : Server) :
    server.same op = op.same server := by
  rw [Bool.eq_iff_iff, Server.same_iff, Server.same_iff]
  constructor
  · rintro ⟨h₁, h₂, h₃, h₄, h₅, h₆, h₇, h₈, h₉, h₁₀, h₁₁, h₁₂⟩
    exact ⟨h₁.symm, h₂.symm, h₃.symm, h₄.symm, h₅.symm, h₆.symm, h₇.symm,
      h₈.symm, fun hop => (h₉ (h₈.trans hop)).symm, h₁₀.symm, h₁₁.symm,
      h₁₂.symm⟩
  · rintro ⟨h₁, h₂, h₃, h₄, h₅, h₆, h₇, h₈, h₉, h₁₀, h₁₁, h₁₂⟩
    exact ⟨h₁.symm, h₂.symm, h₃.symm, h₄.symm, h₅.symm, h₆.symm, h₇.symm,
      h₈.symm, fun hop => (h₉ (h₈.trans hop)).symm, h₁₀.symm, h₁₁.symm,
      h₁₂.symm⟩

/-- The names in `ExtraServerParameterTraits`, none of which is flagged
`content_transparent`. -/
def extraParameterNames : ServerProtocol → List String
  | .ftp | .ftps => ["otp_code"]
  | .googleCloud => ["login_hint", "oauth_identity"]
  | .googleCloudSvcAcc => ["oauth_identity"]
  | .swift => ["identpath", "identuser", "keystone_version", "domain"]
  | .rackspace => ["identpath", "identuser"]
  | .s3 | .s3Sso =>
      ["ssealgorithm", "ssekmskey", "ssecustomerkey", "stsrolearn",
        "stsmfaserial", "region", "original_profile", "ssoregion", "ssorole",
        "ssourl", "accelerate"]
  | .googleDrive | .onedrive => ["login_hint", "oauth_identity"]
  | .dropbox => ["oauth_identity", "root_namespace"]
  | .box => ["oauth_identity"]
  | .storj => ["passphrase_hash"]
  | .storjGrant => ["credentials_hash"]
  | .cloudflareR2 => ["identuser", "jurisdiction"]
  | _ => []

def Server.getExtraParameter (server : Server) (name : String) : WString :=
  (server.extraParameters.lookup name).getD []

def Server.sameResource (server other : Server) : Bool :=
  server.protocol == other.protocol &&
  server.host == other.host &&
  server.port == other.port &&
  server.user == other.user &&
  server.postLoginCommands == other.postLoginCommands &&
  (extraParameterNames server.protocol).all fun name =>
    server.getExtraParameter name == other.getExtraParameter name

def Server.sameContent (server other : Server) : Bool :=
  server.sameResource other &&
  server.timezoneOffset == other.timezoneOffset &&
  server.encodingType == other.encodingType &&
  server.customEncoding == other.customEncoding

inductive CaseSensitivity
  | unspecified | yes | no
  deriving DecidableEq

def ServerProtocol.caseSensitivity : ServerProtocol → CaseSensitivity
  | .b2 | .googleDrive => .yes
  | .box | .onedrive => .no
  | _ => .unspecified

theorem Server.sameContent_iff (server other : Server) :
    server.sameContent other = true ↔
      (server.protocol = other.protocol ∧ server.host = other.host ∧
        server.port = other.port ∧ server.user = other.user ∧
        server.postLoginCommands = other.postLoginCommands ∧
        ∀ name ∈ extraParameterNames server.protocol,
          server.getExtraParameter name = other.getExtraParameter name) ∧
      server.timezoneOffset = other.timezoneOffset ∧
      server.encodingType = other.encodingType ∧
      server.customEncoding = other.customEncoding := by
  simp only [Server.sameContent, Server.sameResource, Bool.and_eq_true,
    beq_iff_eq, List.all_eq_true, and_assoc]

@[simp] theorem Server.sameContent_refl (server : Server) :
    server.sameContent server = true := by
  rw [Server.sameContent_iff]
  simp

theorem Server.sameContent_symm {server other : Server}
    (hsame : server.sameContent other = true) :
    other.sameContent server = true := by
  rw [Server.sameContent_iff] at hsame ⊢
  obtain ⟨⟨hprotocol, hhost, hport, huser, hcommands, hnames⟩, htime, htype,
    hencoding⟩ := hsame
  refine ⟨⟨hprotocol.symm, hhost.symm, hport.symm, huser.symm,
    hcommands.symm, ?_⟩, htime.symm, htype.symm, hencoding.symm⟩
  intro name hname
  rw [← hprotocol] at hname
  exact (hnames name hname).symm

theorem Server.sameContent_trans {server other third : Server}
    (hleft : server.sameContent other = true)
    (hright : other.sameContent third = true) :
    server.sameContent third = true := by
  rw [Server.sameContent_iff] at hleft hright ⊢
  obtain ⟨⟨hprotocol, hhost, hport, huser, hcommands, hnames⟩, htime, htype,
    hencoding⟩ := hleft
  obtain ⟨⟨hprotocol', hhost', hport', huser', hcommands', hnames'⟩, htime',
    htype', hencoding'⟩ := hright
  refine ⟨⟨hprotocol.trans hprotocol', hhost.trans hhost', hport.trans hport',
    huser.trans huser', hcommands.trans hcommands', ?_⟩,
    htime.trans htime', htype.trans htype', hencoding.trans hencoding'⟩
  intro name hname
  apply (hnames name hname).trans
  rw [hprotocol] at hname
  exact hnames' name hname

end TabFtp
