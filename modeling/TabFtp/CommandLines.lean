import TabFtp.CommandFraming

/-!
# One command, one line

The commands of the operations with the values that callers supply, and the
question whether each of them reaches the other side as a single line.  The
text route of SFTP refuses newlines.  The FTP route and the transfer commands
of SFTP do not look for them, so there the answer depends on the values.
-/

namespace TabFtp

inductive CommandPiece
  | fixed (text : WString) (clean : ¬ HasNewline text)
  | value (text : WString)
  | quoted (text : WString)

namespace CommandPiece

def text : CommandPiece → WString
  | .fixed text _ => text
  | .value text => text
  | .quoted text => quoteFilename text

def supplied : CommandPiece → List WString
  | .fixed _ _ => []
  | .value text => [text]
  | .quoted text => [text]

theorem hasNewline_text (piece : CommandPiece) :
    HasNewline piece.text ↔ ∃ value ∈ piece.supplied, HasNewline value := by
  cases piece with
  | fixed text clean => simp [CommandPiece.text, supplied, clean]
  | value text => simp [CommandPiece.text, supplied]
  | quoted text => simp [CommandPiece.text, supplied]

end CommandPiece

def commandText (pieces : List CommandPiece) : WString :=
  pieces.flatMap CommandPiece.text

def suppliedValues (pieces : List CommandPiece) : List WString :=
  pieces.flatMap CommandPiece.supplied

theorem hasNewline_commandText (pieces : List CommandPiece) :
    HasNewline (commandText pieces) ↔
      ∃ value ∈ suppliedValues pieces, HasNewline value := by
  induction pieces with
  | nil => simp [commandText, suppliedValues]
  | cons piece rest ih =>
      have htext : commandText (piece :: rest) =
          piece.text ++ commandText rest := by
        simp [commandText]
      have hvalues : suppliedValues (piece :: rest) =
          piece.supplied ++ suppliedValues rest := by
        simp [suppliedValues]
      rw [htext, hvalues, hasNewline_append, piece.hasNewline_text, ih]
      simp only [List.mem_append, or_and_right, exists_or]

/-! ## The commands -/

/-- The commands of the FTP operations.  Names of files and directories are
formatted by their path before they get here. -/
inductive FtpCommand
  | siteChmod (permission file : WString)
  | cwd (path : WString)
  | cdup
  | pwd
  | dele (file : WString)
  | size (file : WString)
  | mdtm (file : WString)
  | mfmt (time file : WString)
  | mkd (path : WString)
  | rmd (path : WString)
  | rnfr (file : WString)
  | rnto (file : WString)
  | retr (file : WString)
  | stor (file : WString)
  | appe (file : WString)
  | list
  | listHidden
  | mlsd
  | typeI
  | typeA
  | pasv
  | epsv
  | port (argument : WString)
  | eprt (argument : WString)
  | rest (offset : WString)
  | noop
  | authTls
  | authSsl
  | syst
  | user (name : WString)
  | pass (password : WString)
  | acct (account : WString)
  | proxyLogon (line : WString)
  | feat
  | clnt
  | optsUtf8
  | pbsz
  | prot
  | postLogin (line : WString)
  | optsMlst (facts : WString)
  | raw (line : WString)

def FtpCommand.pieces : FtpCommand → List CommandPiece
  | .siteChmod permission file =>
      [.fixed "SITE CHMOD ".toList (by decide), .value permission,
        .fixed " ".toList (by decide), .value file]
  | .cwd path => [.fixed "CWD ".toList (by decide), .value path]
  | .cdup => [.fixed "CDUP".toList (by decide)]
  | .pwd => [.fixed "PWD".toList (by decide)]
  | .dele file => [.fixed "DELE ".toList (by decide), .value file]
  | .size file => [.fixed "SIZE ".toList (by decide), .value file]
  | .mdtm file => [.fixed "MDTM ".toList (by decide), .value file]
  | .mfmt time file =>
      [.fixed "MFMT ".toList (by decide), .value time,
        .fixed " ".toList (by decide), .value file]
  | .mkd path => [.fixed "MKD ".toList (by decide), .value path]
  | .rmd path => [.fixed "RMD ".toList (by decide), .value path]
  | .rnfr file => [.fixed "RNFR ".toList (by decide), .value file]
  | .rnto file => [.fixed "RNTO ".toList (by decide), .value file]
  | .retr file => [.fixed "RETR ".toList (by decide), .value file]
  | .stor file => [.fixed "STOR ".toList (by decide), .value file]
  | .appe file => [.fixed "APPE ".toList (by decide), .value file]
  | .list => [.fixed "LIST".toList (by decide)]
  | .listHidden => [.fixed "LIST -a".toList (by decide)]
  | .mlsd => [.fixed "MLSD".toList (by decide)]
  | .typeI => [.fixed "TYPE I".toList (by decide)]
  | .typeA => [.fixed "TYPE A".toList (by decide)]
  | .pasv => [.fixed "PASV".toList (by decide)]
  | .epsv => [.fixed "EPSV".toList (by decide)]
  | .port argument => [.fixed "PORT ".toList (by decide), .value argument]
  | .eprt argument => [.fixed "EPRT ".toList (by decide), .value argument]
  | .rest offset => [.fixed "REST ".toList (by decide), .value offset]
  | .noop => [.fixed "NOOP".toList (by decide)]
  | .authTls => [.fixed "AUTH TLS".toList (by decide)]
  | .authSsl => [.fixed "AUTH SSL".toList (by decide)]
  | .syst => [.fixed "SYST".toList (by decide)]
  | .user name => [.fixed "USER ".toList (by decide), .value name]
  | .pass password => [.fixed "PASS ".toList (by decide), .value password]
  | .acct account => [.fixed "ACCT ".toList (by decide), .value account]
  | .proxyLogon line => [.value line]
  | .feat => [.fixed "FEAT".toList (by decide)]
  | .clnt => [.fixed "CLNT FileZilla".toList (by decide)]
  | .optsUtf8 => [.fixed "OPTS UTF8 ON".toList (by decide)]
  | .pbsz => [.fixed "PBSZ 0".toList (by decide)]
  | .prot => [.fixed "PROT P".toList (by decide)]
  | .postLogin line => [.value line]
  | .optsMlst facts => [.fixed "OPTS MLST ".toList (by decide), .value facts]
  | .raw line => [.value line]

inductive SftpCommand
  | proxy (kind host port user password : WString)
  | keyfile (file : WString)
  | open (user host port : WString)
  | pwd
  | cd (path : WString)
  | ls
  | chmod (permission file : WString)
  | rm (file : WString)
  | mtime (file : WString)
  | chmtime (seconds file : WString)
  | mkdir (path : WString)
  | mv (source target : WString)
  | rmdir (path : WString)
  | answer (line : WString)

def SftpCommand.pieces : SftpCommand → List CommandPiece
  | .proxy kind host port user password =>
      [.fixed "proxy ".toList (by decide), .value kind,
        .fixed " \"".toList (by decide), .value host,
        .fixed "\" ".toList (by decide), .value port] ++
      (if user.isEmpty then []
        else [.fixed " \"".toList (by decide), .value user,
          .fixed "\"".toList (by decide)]) ++
      (if password.isEmpty then []
        else [.fixed " \"".toList (by decide), .value password,
          .fixed "\"".toList (by decide)])
  | .keyfile file =>
      [.fixed "keyfile \"".toList (by decide), .value file,
        .fixed "\"".toList (by decide)]
  | .open user host port =>
      [.fixed "open \"".toList (by decide), .value user,
        .fixed "@".toList (by decide), .value host,
        .fixed "\" ".toList (by decide), .value port]
  | .pwd => [.fixed "pwd".toList (by decide)]
  | .cd path => [.fixed "cd ".toList (by decide), .quoted path]
  | .ls => [.fixed "ls".toList (by decide)]
  | .chmod permission file =>
      [.fixed "chmod ".toList (by decide), .value permission,
        .fixed " ".toList (by decide), .quoted file]
  | .rm file => [.fixed "rm ".toList (by decide), .quoted file]
  | .mtime file => [.fixed "mtime ".toList (by decide), .quoted file]
  | .chmtime seconds file =>
      [.fixed "chmtime ".toList (by decide), .value seconds,
        .fixed " ".toList (by decide), .quoted file]
  | .mkdir path => [.fixed "mkdir ".toList (by decide), .quoted path]
  | .mv source target =>
      [.fixed "mv ".toList (by decide), .quoted source,
        .fixed " ".toList (by decide), .quoted target]
  | .rmdir path => [.fixed "rmdir ".toList (by decide), .quoted path]
  | .answer line => [.value line]

/-- Anything that an operation sends as a command. -/
inductive Outgoing
  | ftp (command : FtpCommand)
  | sftp (command : SftpCommand)
  | sftpTransfer (transfer : SftpTransfer)

/-- The socket that a command is sent on. -/
structure CommandSocket where
  converters : Converters
  useUtf8 : Bool
  server : Server
  backend : Backend

namespace CommandSocket

def convert (socket : CommandSocket) (text : WString) : List UInt8 :=
  convToServer socket.converters socket.useUtf8 socket.server text

def send (socket : CommandSocket) : Outgoing → Sent
  | .ftp command =>
      ftpSendCommand socket.convert socket.backend
        (commandText command.pieces)
  | .sftp command =>
      sftpSendCommand socket.convert socket.backend
        (commandText command.pieces)
  | .sftpTransfer transfer =>
      sftpTransferCommand socket.converters socket.convert socket.backend
        transfer

end CommandSocket

def Outgoing.text : Outgoing → WString
  | .ftp command => commandText command.pieces
  | .sftp command => commandText command.pieces
  | .sftpTransfer transfer => transfer.text

def Outgoing.supplied : Outgoing → List WString
  | .ftp command => suppliedValues command.pieces
  | .sftp command => suppliedValues command.pieces
  | .sftpTransfer transfer => [transfer.localName, transfer.remoteFile]

theorem SftpTransfer.verb_clean (transfer : SftpTransfer) :
    ¬ HasNewline transfer.verb := by
  unfold SftpTransfer.verb
  cases transfer.resume <;> cases transfer.download <;> decide

theorem SftpTransfer.hasNewline_text (transfer : SftpTransfer) :
    HasNewline transfer.text ↔
      HasNewline transfer.localName ∨ HasNewline transfer.remoteFile := by
  have hverb := transfer.verb_clean
  unfold SftpTransfer.text
  cases transfer.download with
  | true =>
      simp [hverb]
      exact or_comm
  | false => simp [hverb]

theorem Outgoing.hasNewline_text (outgoing : Outgoing) :
    HasNewline outgoing.text ↔
      ∃ value ∈ outgoing.supplied, HasNewline value := by
  cases outgoing with
  | ftp command => exact hasNewline_commandText command.pieces
  | sftp command => exact hasNewline_commandText command.pieces
  | sftpTransfer transfer =>
      simp [Outgoing.text, Outgoing.supplied, transfer.hasNewline_text]

/-! ## One line for each command -/

/-- What is promised of a command: its bytes are one line, if there are any,
and with a newline in its text it is refused and there are none. -/
def Sent.OneCommand (sent : Sent) (text : WString) : Prop :=
  (sent.bytes = [] ∨ OneLine sent.bytes) ∧
    (HasNewline text →
      sent.reply ≠ Reply.wouldblock ∧ sent.bytes = [])

/-- The condition under which a command is one line.  Its values contain no
newline, or the route refuses it or has no bytes for it, and what the charset
makes of the command contains no newline of its own. -/
def CommandSocket.Frames (socket : CommandSocket) (outgoing : Outgoing) :
    Prop :=
  let clean := ∀ value ∈ outgoing.supplied, ¬ HasNewline value
  match outgoing with
  | .ftp _ =>
      let bytes := socket.convert outgoing.text
      bytes = [] ∨
        clean ∧ (socket.backend = .accepting → ¬ HasNewlineByte bytes)
  | .sftp _ =>
      let bytes := socket.convert (outgoing.text ++ ['\n'])
      ¬ clean ∨ socket.backend = .absent ∨ bytes = [] ∨ OneLine bytes
  | .sftpTransfer transfer =>
      let remoteFile := socket.convert (quoteFilename transfer.remoteFile)
      let localFile :=
        socket.converters.toUtf8 (quoteFilename transfer.localName)
      socket.backend = .absent ∨ remoteFile = [] ∨
        clean ∧ ¬ HasNewlineByte remoteFile ∧ ¬ HasNewlineByte localFile

theorem ftpSendCommand_oneCommand
    (convert : WString → List UInt8) (backend : Backend) (text : WString) :
    (ftpSendCommand convert backend text).OneCommand text ↔
      convert text = [] ∨ ¬ HasNewline text ∧
        (backend = .accepting → ¬ HasNewlineByte (convert text)) := by
  by_cases hempty : convert text = []
  · simp [ftpSendCommand, hempty, Sent.OneCommand, Reply.error,
      Reply.wouldblock]
  · cases backend with
    | absent =>
        simp [ftpSendCommand, hempty, Sent.OneCommand, realSend,
          Reply.internalerror, Reply.error]
    | failing =>
        simp [ftpSendCommand, hempty, Sent.OneCommand, realSend,
          Reply.disconnected, Reply.error]
    | accepting =>
        have hline := oneLine_terminated (convert text)
        simp [ftpSendCommand, hempty, Sent.OneCommand, realSend,
          Reply.wouldblock, hline, and_comm]

theorem sftpSendCommand_oneCommand
    (convert : WString → List UInt8) (backend : Backend) (text : WString) :
    (sftpSendCommand convert backend text).OneCommand text ↔
      HasNewline text ∨ backend = .absent ∨
        convert (text ++ ['\n']) = [] ∨
          OneLine (convert (text ++ ['\n'])) := by
  by_cases hnewline : HasNewline text
  · have hmem : '\n' ∈ text ∨ '\r' ∈ text := hnewline
    simp [sftpSendCommand, hmem, Sent.OneCommand, hnewline,
      Reply.internalerror, Reply.error, Reply.wouldblock]
  · have hmem : ¬ ('\n' ∈ text ∨ '\r' ∈ text) := hnewline
    by_cases hempty : convert (text ++ ['\n']) = []
    · simp [sftpSendCommand, hmem, hempty, Sent.OneCommand, hnewline]
    · cases backend <;>
        simp [sftpSendCommand, hmem, hempty, Sent.OneCommand, hnewline,
          addToSendBuffer]

theorem SftpTransfer.asciiBytes_verb (transfer : SftpTransfer) :
    ¬ HasNewlineByte (asciiBytes transfer.verb) := by
  unfold SftpTransfer.verb
  cases transfer.resume <;> cases transfer.download <;> decide

theorem SftpTransfer.hasNewlineByte_line
    (transfer : SftpTransfer) (remoteFile localFile : List UInt8) :
    HasNewlineByte (transfer.line remoteFile localFile) ↔
      HasNewlineByte remoteFile ∨ HasNewlineByte localFile := by
  have hverb := transfer.asciiBytes_verb
  have hspace : ¬ HasNewlineByte (asciiBytes [' ']) := by decide
  unfold SftpTransfer.line
  split_ifs
  · simp only [hasNewlineByte_append, hverb, hspace, false_or, or_false]
  · simp only [hasNewlineByte_append, hverb, hspace, false_or, or_false]
    exact or_comm

theorem sftpTransferCommand_oneCommand
    (converters : Converters) (convert : WString → List UInt8)
    (backend : Backend) (transfer : SftpTransfer) :
    (sftpTransferCommand converters convert backend transfer).OneCommand
        transfer.text ↔
      backend = .absent ∨ convert (quoteFilename transfer.remoteFile) = [] ∨
        ¬ HasNewline transfer.text ∧
          ¬ HasNewlineByte (convert (quoteFilename transfer.remoteFile)) ∧
          ¬ HasNewlineByte
            (converters.toUtf8 (quoteFilename transfer.localName)) := by
  unfold sftpTransferCommand
  generalize convert (quoteFilename transfer.remoteFile) = remoteFile
  generalize converters.toUtf8 (quoteFilename transfer.localName) = localFile
  by_cases hempty : remoteFile = []
  · simp [hempty, Sent.OneCommand, Reply.error, Reply.wouldblock]
  · have hline := oneLine_terminated (transfer.line remoteFile localFile)
    rw [transfer.hasNewlineByte_line, not_or] at hline
    cases backend with
    | absent =>
        simp [addToSendBuffer, Sent.OneCommand, hempty, Reply.internalerror,
          Reply.error, Reply.wouldblock]
    | failing =>
        simp [addToSendBuffer, Sent.OneCommand, hline, hempty, and_comm]
    | accepting =>
        simp [addToSendBuffer, Sent.OneCommand, hline, hempty, and_comm]

/-- A command is one line exactly when the condition holds. -/
theorem one_command_one_line
    (socket : CommandSocket) (outgoing : Outgoing) :
    (socket.send outgoing).OneCommand outgoing.text ↔
      socket.Frames outgoing := by
  have hsupplied : (∀ value ∈ outgoing.supplied, ¬ HasNewline value) ↔
      ¬ HasNewline outgoing.text := by
    rw [outgoing.hasNewline_text]
    simp only [not_exists, not_and]
  unfold CommandSocket.Frames
  simp only [hsupplied]
  cases outgoing with
  | ftp command => exact ftpSendCommand_oneCommand _ _ _
  | sftp command =>
      simp only [not_not]
      exact sftpSendCommand_oneCommand _ _ _
  | sftpTransfer transfer => exact sftpTransferCommand_oneCommand _ _ _ _

/-! ## UTF-8 -/

def utf8 (text : WString) : List UInt8 :=
  text.flatMap String.utf8EncodeChar

theorem utf8_append (left right : WString) :
    utf8 (left ++ right) = utf8 left ++ utf8 right := by
  simp [utf8]

/-- A byte below 128 stands for itself only. -/
theorem mem_utf8EncodeChar {c : Char} {byte : UInt8}
    (hascii : byte.toNat < 128) :
    byte ∈ String.utf8EncodeChar c ↔ c.toNat = byte.toNat := by
  have hother : ∀ number, 128 ≤ number % 256 → byte ≠ UInt8.ofNat number := by
    rintro number hlarge rfl
    rw [UInt8.toNat_ofNat'] at hascii
    omega
  change _ ↔ c.val.toNat = byte.toNat
  unfold String.utf8EncodeChar
  dsimp only
  split_ifs with hone htwo hthree
  · rw [List.mem_singleton, ← UInt8.toNat_inj, UInt8.toNat_ofNat']
    omega
  all_goals
    simp only [List.mem_cons, List.not_mem_nil, or_false]
    refine iff_of_false ?_ (by omega)
    simp only [not_or]
  · exact ⟨hother _ (by omega), hother _ (by omega)⟩
  · exact ⟨hother _ (by omega), hother _ (by omega), hother _ (by omega)⟩
  · exact ⟨hother _ (by omega), hother _ (by omega), hother _ (by omega),
      hother _ (by omega)⟩

/-- In UTF-8 the conditions on the bytes follow from those on the values. -/
theorem hasNewlineByte_utf8 (text : WString) :
    HasNewlineByte (utf8 text) ↔ HasNewline text := by
  have hmem : ∀ (c : Char) (byte : UInt8), byte.toNat < 128 →
      byte.toNat = c.toNat → (byte ∈ utf8 text ↔ c ∈ text) := by
    intro c byte hascii hsame
    have hequal : ∀ other : Char, other.toNat = c.toNat ↔ other = c :=
      fun other => ⟨Char.toNat_inj.mp, congrArg Char.toNat⟩
    simp only [utf8, List.mem_flatMap, mem_utf8EncodeChar hascii, hsame,
      hequal, exists_eq_right]
  unfold HasNewlineByte HasNewline
  rw [hmem '\n' lf (by decide) rfl, hmem '\r' cr (by decide) rfl]

/-- Deleting a file on an FTP server whose name contains a line break: what
follows the break is a command of its own. -/
theorem ftp_command_with_newline :
    ¬ ∀ (socket : CommandSocket) (outgoing : Outgoing),
      (socket.send outgoing).OneCommand outgoing.text := by
  intro hall
  let socket : CommandSocket :=
    { converters := ⟨utf8, fun _ _ => [], fun _ => []⟩
      useUtf8 := true
      server :=
        { protocol := .ftp
          type := .unix
          host := ['h']
          user := []
          port := 21
          timezoneOffset := 0
          pasvMode := .default
          bypassProxy := false
          encodingType := .auto
          customEncoding := []
          postLoginCommands := []
          extraParameters := [] }
      backend := .accepting }
  have hsent := hall socket (.ftp (.dele "a\r\nDELE b".toList))
  have hrefused := hsent.2 (by decide)
  exact hrefused.1 (by decide)

end TabFtp
