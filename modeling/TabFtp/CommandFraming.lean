import TabFtp.ReplyCodes
import TabFtp.ServerIdentity

/-!
# Commands on the wire

How the text of a command becomes bytes on the control connection of an FTP
server or in the pipe to the `fzsftp` process.  There are three ways: the
`SendCommand` of the FTP socket, the `SendCommand` of the SFTP socket, and
the transfer commands of SFTP, which mix two encodings and therefore go to
the send buffer directly.  The charset conversions belong to another library
and are arguments.
-/

namespace TabFtp

/-- The conversions of text to bytes; one that fails has no bytes. -/
structure Converters where
  toUtf8 : WString → List UInt8
  toServer : WString → WString → List UInt8
  toString : WString → List UInt8

inductive Backend
  | absent | failing | accepting

/-- What became of a command: the reply of the function that sent it, the
bytes it passed on, at once or by way of the send buffer, and whether a reply
of the server is now expected. -/
structure Sent where
  reply : Reply
  bytes : List UInt8
  pending : Bool

def lf : UInt8 := 10
def cr : UInt8 := 13

def convToServer
    (converters : Converters) (useUtf8 : Bool) (server : Server)
    (str : WString) : List UInt8 :=
  let utf8 := if useUtf8 then converters.toUtf8 str else []
  if !utf8.isEmpty then utf8
  else
    let custom :=
      if server.encodingType = .custom then
        converters.toServer server.customEncoding str
      else []
    if !custom.isEmpty then custom else converters.toString str

/-- `CRealControlSocket::Send`. -/
def realSend (backend : Backend) (buffer : List UInt8) :
    Reply × List UInt8 :=
  match backend with
  | .absent => (Reply.internalerror, [])
  | .failing => (Reply.error ||| Reply.disconnected, [])
  | .accepting => (Reply.wouldblock, buffer)

/-- `CFtpControlSocket::SendCommand`, which takes the reply of `Send` for a
truth value. -/
def ftpSendCommand
    (convert : WString → List UInt8) (backend : Backend) (str : WString) :
    Sent :=
  let buffer := convert str
  if buffer.isEmpty then ⟨Reply.error, [], false⟩
  else
    let result := realSend backend (buffer ++ [cr, lf])
    let res := result.1 ≠ 0
    ⟨if res then Reply.wouldblock else Reply.error, result.2, res⟩

/-- `CSftpControlSocket::AddToSendBuffer` for bytes. -/
def addToSendBuffer (backend : Backend) (cmd : List UInt8) : Sent :=
  match backend with
  | .absent => ⟨Reply.internalerror, [], false⟩
  | .failing => ⟨Reply.error ||| Reply.disconnected, cmd, false⟩
  | .accepting => ⟨Reply.wouldblock, cmd, false⟩

/-- `CSftpControlSocket::SendCommand`.  The line feed is converted together
with the command. -/
def sftpSendCommand
    (convert : WString → List UInt8) (backend : Backend) (cmd : WString) :
    Sent :=
  if cmd.contains '\n' || cmd.contains '\r' then
    ⟨Reply.internalerror, [], false⟩
  else
    let str := convert (cmd ++ ['\n'])
    if str.isEmpty then ⟨Reply.error, [], false⟩
    else addToSendBuffer backend str

def quoteFilename (filename : WString) : WString :=
  ['"'] ++ filename.flatMap (fun c => if c = '"' then ['"', '"'] else [c]) ++
    ['"']

/-- A transfer command of SFTP; `remoteFile` is the formatted name. -/
structure SftpTransfer where
  download : Bool
  resume : Bool
  localName : WString
  remoteFile : WString

namespace SftpTransfer

def verb (transfer : SftpTransfer) : WString :=
  (if transfer.resume then ['r', 'e'] else []) ++
    (if transfer.download then ['g', 'e', 't', ' '] else ['p', 'u', 't', ' '])

/-- The command as it is logged. -/
def text (transfer : SftpTransfer) : WString :=
  if transfer.download then
    transfer.verb ++ quoteFilename transfer.remoteFile ++ [' '] ++
      quoteFilename transfer.localName
  else
    transfer.verb ++ quoteFilename transfer.localName ++ [' '] ++
      quoteFilename transfer.remoteFile

end SftpTransfer

/-- The bytes of a text of ASCII characters. -/
def asciiBytes (text : WString) : List UInt8 :=
  text.map fun c => UInt8.ofNat c.toNat

/-- The bytes of a transfer command, from those of its two quoted names. -/
def SftpTransfer.line
    (transfer : SftpTransfer) (remoteFile localFile : List UInt8) :
    List UInt8 :=
  if transfer.download then
    asciiBytes transfer.verb ++ remoteFile ++ asciiBytes [' '] ++ localFile
  else
    asciiBytes transfer.verb ++ localFile ++ asciiBytes [' '] ++ remoteFile

/-- The state `filetransfer_transfer` of `CSftpFileTransferOpData::Send`. -/
def sftpTransferCommand
    (converters : Converters) (convert : WString → List UInt8)
    (backend : Backend) (transfer : SftpTransfer) : Sent :=
  let remoteFile := convert (quoteFilename transfer.remoteFile)
  let localFile := converters.toUtf8 (quoteFilename transfer.localName)
  if remoteFile.isEmpty then ⟨Reply.error, [], false⟩
  else
    addToSendBuffer backend
      (transfer.line remoteFile localFile ++ [cr, lf])

/-! ## Newlines -/

def HasNewline (text : WString) : Prop :=
  '\n' ∈ text ∨ '\r' ∈ text

def HasNewlineByte (bytes : List UInt8) : Prop :=
  lf ∈ bytes ∨ cr ∈ bytes

instance (text : WString) : Decidable (HasNewline text) :=
  inferInstanceAs (Decidable (_ ∨ _))

instance (bytes : List UInt8) : Decidable (HasNewlineByte bytes) :=
  inferInstanceAs (Decidable (_ ∨ _))

/-- Bytes that end with a line feed, or with both newline characters, and
contain no other. -/
def OneLine (bytes : List UInt8) : Prop :=
  ∃ line, ¬ HasNewlineByte line ∧
    (bytes = line ++ [lf] ∨ bytes = line ++ [cr, lf])

@[simp] theorem hasNewline_nil : ¬ HasNewline [] := by
  simp [HasNewline]

@[simp] theorem hasNewline_append (left right : WString) :
    HasNewline (left ++ right) ↔ HasNewline left ∨ HasNewline right := by
  simp only [HasNewline, List.mem_append]
  tauto

@[simp] theorem hasNewline_cons (c : Char) (text : WString) :
    HasNewline (c :: text) ↔ (c = '\n' ∨ c = '\r') ∨ HasNewline text := by
  simp only [HasNewline, List.mem_cons, eq_comm]
  tauto

@[simp] theorem hasNewlineByte_append (left right : List UInt8) :
    HasNewlineByte (left ++ right) ↔
      HasNewlineByte left ∨ HasNewlineByte right := by
  simp only [HasNewlineByte, List.mem_append]
  tauto

@[simp] theorem hasNewline_quoteFilename (filename : WString) :
    HasNewline (quoteFilename filename) ↔ HasNewline filename := by
  have hmem : ∀ c : Char, c ≠ '"' →
      (c ∈ quoteFilename filename ↔ c ∈ filename) := by
    intro c hc
    have hdouble : ∀ d : Char,
        c ∈ (if d = '"' then ['"', '"'] else [d]) ↔ c = d := by
      intro d
      by_cases hd : d = '"'
      · subst hd
        simp [hc]
      · simp [hd]
    simp [quoteFilename, hc, List.mem_flatMap, hdouble]
  unfold HasNewline
  rw [hmem '\n' (by decide), hmem '\r' (by decide)]

theorem oneLine_terminated (line : List UInt8) :
    OneLine (line ++ [cr, lf]) ↔ ¬ HasNewlineByte line := by
  constructor
  · rintro ⟨other, hother, heq | heq⟩
    · have hcr : line ++ [cr] = other := by
        have hsplit : (line ++ [cr]) ++ [lf] = other ++ [lf] := by
          simpa using heq
        exact List.append_cancel_right hsplit
      subst hcr
      exact absurd (Or.inr (by simp)) hother
    · rw [List.append_cancel_right heq]
      exact hother
  · intro hline
    exact ⟨line, hline, Or.inr rfl⟩

@[simp] theorem not_oneLine_nil : ¬ OneLine [] := by
  rintro ⟨line, _, heq | heq⟩ <;> simp at heq

end TabFtp
