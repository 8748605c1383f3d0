import Mathlib.Tactic

/-!
# Commands and reply codes

The identifiers of commands and operations, and the values that operations and
engine calls return.  The latter are bit masks: every failure contains the
error bit, and some causes are further bits.
-/

namespace TabFtp

inductive Command
  | none | connect | disconnect | list | transfer | del | removedir | mkdir
  | rename | chmod | raw | httprequest | sleep | lookup | cwd
  | commonPrivate1 | commonPrivate2
  | private1 | private2 | private3 | private4 | private5 | private6
  deriving DecidableEq

abbrev Reply := ℕ

namespace Reply

def ok : Reply := 0x0000
def wouldblock : Reply := 0x0001
def error : Reply := 0x0002
def criticalerror : Reply := 0x0004 ||| error
def canceled : Reply := 0x0008 ||| error
def syntaxerror : Reply := 0x0010 ||| error
def notconnected : Reply := 0x0020 ||| error
def disconnected : Reply := 0x0040
def internalerror : Reply := 0x0080 ||| error
def busy : Reply := 0x0100 ||| error
def alreadyconnected : Reply := 0x0200 ||| error
def passwordfailed : Reply := 0x0400
def timeout : Reply := 0x0800 ||| error
def notsupported : Reply := 0x1000 ||| error
def writefailed : Reply := 0x2000 ||| error
def linknotdir : Reply := 0x4000 ||| error
def continued : Reply := 0x8000
def errorNotfound : Reply := 0x10000 ||| error

/-- `(reply & mask) == mask`. -/
def has (reply mask : Reply) : Bool :=
  reply &&& mask == mask

end Reply

end TabFtp
