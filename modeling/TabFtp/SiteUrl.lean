import TabFtp.FtpFileTransfer
import TabFtp.ServerPathSyntax

/-!
# Sites

A site is a server with the credentials for it.
-/

namespace TabFtp

inductive LogonType
  | anonymous | normal | ask | interactive | account | key | profile | adc
  deriving DecidableEq

/-- `Credentials`, without the key file and the extra parameters. -/
structure Credentials where
  logonType : LogonType
  password : WString
  account : WString

namespace Credentials

def setPass (credentials : Credentials) (password : WString) : Credentials :=
  if credentials.logonType ≠ .anonymous then
    { credentials with password := password }
  else credentials

def getPass (credentials : Credentials) : WString :=
  if credentials.logonType = .anonymous then [] else credentials.password

end Credentials

/-- `Site`, without what is not part of its URL. -/
structure Site where
  server : Server
  credentials : Credentials

end TabFtp
