import TabFtp.ListingDates

/-!
# The formats of a line

One parser for each format.  A parser that matches tells the field of the line
that it has taken for the name, and the name that is left of it; the name of
the entry is written where the parsers are called, as nothing reads it before.
All other fields of the entry are filled as in the source and stay when a
parser gives up.
-/

namespace TabFtp

open CheckedAttempts Attempt

inductive NameField
  | plain (field : WString)
  | unix (field : WString)
  | ibm (field : WString)
  | vshell (field : WString)
  | os2 (field : WString)
  | vms (field : WString)

def NameField.CutAway (lib : ListingLibrary) : NameField → Prop
  | .plain _ => False
  | .unix field => field = ['/'] ∨ field = ['|'] ∨ field = ['*']
  | .ibm field => field = ['/']
  | .vshell field => field = ['/'] ∨ field = ['\\']
  | .os2 field => field.length = 5 ∧ lib.lowerAscii field = "<dir>".toList
  | .vms field => field = ['^'] ∨ ['^', '\x00'] <+: field

instance (lib : ListingLibrary) (field : NameField) :
    Decidable (field.CutAway lib) := by
  cases field <;> unfold NameField.CutAway <;> infer_instance

structure Named where
  field : NameField
  name : WString

def Named.whole (field : WString) : Named := ⟨.plain field, field⟩

structure FormatEnv where
  lib : ListingLibrary
  timezoneOffset : ℤ
  maybeMultilineVms : Bool

/-- `entry.time += m_timezoneOffset` -/
def shiftTime (env : FormatEnv) : Parse Unit := do
  let entry ← getEntry
  setTime (env.lib.shift entry.time env.timezoneOffset)

def needNumber (n : ℕ) : Parse Token := do
  let token ← needToken n
  require token.isNumeric
  pure token

def noFurtherToken (n : ℕ) : Parse Unit := do
  let token ← getToken n
  require token.text.isEmpty

def needDateTime (env : FormatEnv) (saneFieldOrder : Bool) (n : ℕ) :
    Parse Unit := do
  let date ← needToken n
  let _ ← parseShortDate env.lib saneFieldOrder date
  let time ← needToken (n + 1)
  let _ ← parseTime env.lib time
  pure ()

/-! ## z/VM and HP NonStop -/

def parseAsZvm (env : FormatEnv) : Parse Named := do
  let name ← needToken 0
  let extension ← needToken 1
  let format ← needToken 2
  require (format.text = "V".toList || format.text = "F".toList)
  let recordLength ← needNumber 3
  let size ← recordLength.number
  setSize size
  let records ← needNumber 4
  let number ← records.number
  setSize (int64 (size * number))
  let _ ← needNumber 5
  setFlags 0
  needDateTime env true 6
  let ownerGroup ← needToken 8
  noFurtherToken 9
  setOwner [] ownerGroup.text
  clearTarget
  shiftTime env
  pure (Named.whole (name.text ++ ".".toList ++ extension.text))

def nonstopOwner (owner : Token) : Parse (ℕ × WString) := do
  let last ← charAt owner.text ((owner.text.length : ℤ) - 1)
  if last = ',' then do
    let second ← needToken 6
    pure (6, owner.text ++ " ".toList ++ second.text)
  else pure (5, owner.text)

def parseAsHPNonstop (env : FormatEnv) : Parse Named := do
  let name ← needToken 0
  let _ ← needNumber 1
  let sizeToken ← needNumber 2
  let size ← sizeToken.number
  setSize size
  setFlags 0
  needDateTime env false 3
  let owner ← needToken 5
  let ownerGroup ← nonstopOwner owner
  let permissions ← needToken (ownerGroup.1 + 1)
  noFurtherToken (ownerGroup.1 + 2)
  setOwner permissions.text ownerGroup.2
  pure (Named.whole name.text)

/-! ## MLSD -/

structure MlsdFacts where
  owner : WString
  ownername : WString
  group : WString
  groupname : WString
  user : WString
  uid : WString
  gid : WString
  permissions : WString

def noFacts : MlsdFacts := ⟨[], [], [], [], [], [], [], []⟩

def mlsdSize : WString → Parse Unit
  | [] => pure ()
  | char :: chars =>
      if char.isDigit then do
        let entry ← getEntry
        setSize (appendDigit entry.size char)
        mlsdSize chars
      else mismatch

/-- The fact with the type.  The result is whether the line is skipped, since
it is the one of the directory itself or of its parent. -/
def mlsdType (lib : ListingLibrary) (value : Token) : Parse Bool := do
  let colonPos := value.find [':'] 0
  let valuePrefix := lib.lowerAscii (value.text.take
    (colonPos.getD value.text.length))
  if valuePrefix = "dir".toList ∧ colonPos = none then do
    addFlag DirectoryEntry.flagDir
    pure false
  else if valuePrefix = "os.unix=slink".toList ∨
      valuePrefix = "os.unix=symlink".toList then do
    addFlag (DirectoryEntry.flagDir ||| DirectoryEntry.flagLink)
    match colonPos with
    | none => pure false
    | some colonPos => do
        let target ← cutFrom value.text colonPos
        setEntry fun entry => { entry with target := some target }
        pure false
  else
    pure (decide ((valuePrefix = "cdir".toList ∨
      valuePrefix = "pdir".toList) ∧ colonPos = none))

def mlsdTime (lib : ListingLibrary) (value : WString) : Parse Unit := do
  setTime (lib.ofText value)
  require (lib.ofText value).isSome

def mlsdOwnerFact (factname value : WString) (facts : MlsdFacts) : MlsdFacts :=
  if factname = "perm".toList then
    if value.isEmpty then facts
    else if facts.permissions.isEmpty then { facts with permissions := value }
    else
      { facts with
        permissions :=
          value ++ " (".toList ++ facts.permissions ++ ")".toList }
  else if factname = "unix.mode".toList then
    if facts.permissions.isEmpty then { facts with permissions := value }
    else
      { facts with
        permissions :=
          facts.permissions ++ " (".toList ++ value ++ ")".toList }
  else if factname = "unix.owner".toList then { facts with owner := value }
  else if factname = "unix.ownername".toList then
    { facts with ownername := value }
  else if factname = "unix.group".toList then { facts with group := value }
  else if factname = "unix.groupname".toList then
    { facts with groupname := value }
  else if factname = "unix.user".toList then { facts with user := value }
  else if factname = "unix.uid".toList then { facts with uid := value }
  else if factname = "unix.gid".toList then { facts with gid := value }
  else facts

def mlsdFact (lib : ListingLibrary) (factname : WString) (value : Token)
    (facts : MlsdFacts) : Parse (Option MlsdFacts) := do
  let entry ← getEntry
  if factname = "type".toList then do
    let skipped ← mlsdType lib value
    pure (if skipped then none else some facts)
  else if factname = "size".toList then do
    setSize 0
    mlsdSize value.text
    pure (some facts)
  else if factname = "modify".toList ∨
      (entry.time.isNone ∧ factname = "create".toList) then do
    mlsdTime lib value.text
    pure (some facts)
  else pure (some (mlsdOwnerFact factname value.text facts))

/-- The loop over the facts, which go on at `start`. -/
def mlsdFacts (lib : ListingLibrary) (token : Token) :
    ℕ → ℕ → MlsdFacts → Parse (Option MlsdFacts)
  | 0, _, _ => fault
  | fuel + 1, start, facts =>
      if start < token.text.length then do
        let found := token.find [';'] start
        require (found.all fun delim => start + 3 ≤ delim)
        let delim := found.getD token.text.length
        let pos ← expect (token.find ['='] start)
        require (start + 1 ≤ pos && pos ≤ delim)
        let factname ← cut token.text start ((pos : ℤ) - start)
        let value ← cut token.text (pos + 1) ((delim : ℤ) - pos - 1)
        let facts ← mlsdFact lib (lib.lowerAscii factname) ⟨0, value⟩ facts
        match facts with
        | none => pure none
        | some facts => mlsdFacts lib token fuel (delim + 1) facts
      else pure (some facts)

def firstFact : List WString → WString
  | [] => []
  | value :: values => if value.isEmpty then firstFact values else value

def MlsdFacts.ownerGroup (facts : MlsdFacts) : WString :=
  let owner := firstFact [facts.ownername, facts.owner, facts.user, facts.uid]
  let group := firstFact [facts.groupname, facts.group, facts.gid]
  if group.isEmpty then owner else owner ++ " ".toList ++ group

/-- `ParseAsMlsd`.  There is no result if the line is skipped. -/
def parseAsMlsd (env : FormatEnv) : Parse (Option Named) := do
  let token ← needToken 0
  setEntry fun entry =>
    { entry with flags := 0, size := -1, time := none, target := none }
  let facts ← mlsdFacts env.lib token (token.text.length + 1) 0 noFacts
  match facts with
  | none => pure none
  | some facts => do
      let nameToken ← getEndTokenWithWhitespace 1
      require (!nameToken.text.isEmpty)
      setOwner facts.permissions facts.ownerGroup
      pure (some (Named.whole nameToken.text))

/-! ## Unix -/

def ownerTokens : ℕ → Bool → ℕ → WString → Parse (ℕ × WString)
  | 0, _, index, ownerGroup => pure (index, ownerGroup)
  | count + 1, further, index, ownerGroup => do
      let token ← needToken (index + 1)
      let ownerGroup := if further then ownerGroup ++ " ".toList else ownerGroup
      ownerTokens count true (index + 1) (ownerGroup ++ token.text)

def groupEnd (group : WString) : ℕ → Parse ℕ
  | 0 => pure 0
  | i + 1 => do
      let char ← charAt group i
      if char.isDigit then groupEnd group i else pure (i + 1)

/-- The size of the entry and the owner.  A size may be behind the group in
the same token.  There is no result if the token has no size. -/
def unixSize (sizeToken : Token) (ownerGroup : WString) :
    Parse (Option WString) := do
  let sized ← perhaps (parseComplexFileSize sizeToken (-1))
  if sized.isSome then pure (some ownerGroup)
  else if !sizeToken.isRightNumeric then pure none
  else do
    let size ← sizeToken.number
    setSize size
    let stop ← groupEnd sizeToken.text sizeToken.text.length
    let group ← cut sizeToken.text 0 stop
    pure (some
      ((if ownerGroup.isEmpty then ownerGroup else ownerGroup ++ " ".toList) ++
        group))

def unixDate (env : FormatEnv) (expectDate : Bool) (index : ℕ) :
    Parse (Option ℕ) :=
  if expectDate then do
    setTime none
    perhaps (parseUnixDateTime env.lib index)
  else pure (some index)

/-- `find(L" -> ")` -/
def findArrow : WString → Option ℕ
  | [] => none
  | char :: chars =>
      if " -> ".toList.isPrefixOf (char :: chars) then some 0
      else (findArrow chars).map (· + 1)

def unixTrimmed (field : WString) : Parse WString := do
  let char ← charAt field ((field.length : ℤ) - 1)
  if char = '/' ∨ char = '|' ∨ char = '*' then popBack field else pure field

def unixLinkName (name : WString) : Parse WString := do
  let entry ← getEntry
  if entry.flags &&& DirectoryEntry.flagLink ≠ 0 then
    match findArrow name with
    | none => pure name
    | some pos => do
        let target ← cutFrom name (pos + 4)
        setEntry fun entry => { entry with target := some target }
        cut name 0 pos
  else pure name

/-- One turn of the loop, for a number of tokens for owner and group.  There
is no result if the next turn is tried. -/
def unixAttempt (env : FormatEnv) (expectDate : Bool) (permissions : WString)
    (startindex numOwnerGroup : ℕ) : Parse (Option Named) := do
  let owner ← ownerTokens numOwnerGroup false startindex []
  let index := owner.1 + 1
  let sizeToken ← needToken index
  let sized ← unixSize sizeToken owner.2
  match sized with
  | none => pure none
  | some ownerGroup => do
      let date ← unixDate env expectDate index
      match date with
      | none => pure none
      | some index => do
          let nameToken ← getEndToken (index + 1)
          if nameToken.text.isEmpty then pure none
          else do
            let trimmed ← unixTrimmed nameToken.text
            let name ← unixLinkName trimmed
            shiftTime env
            setOwner permissions ownerGroup
            pure (some ⟨.unix nameToken.text, name⟩)

def unixAttempts (env : FormatEnv) (expectDate : Bool) (permissions : WString)
    (startindex : ℕ) : List ℕ → Parse Named
  | [] => mismatch
  | numOwnerGroup :: numbers => do
      let named ←
        unixAttempt env expectDate permissions startindex numOwnerGroup
      match named with
      | some named => pure named
      | none => unixAttempts env expectDate permissions startindex numbers

/-- The permissions and the index of the last token in front of the owner.
Some servers split the permissions into two tokens. -/
def unixPermissions (permissionToken : Token) : Parse (ℕ × WString) :=
  if permissionToken.text.length = 1 then do
    let contPerm ← needToken 1
    pure (1, permissionToken.text ++ " ".toList ++ contPerm.text)
  else do
    -- the link count is not needed
    let linkCount ← needToken 1
    pure (if linkCount.isNumeric then 1 else 0, permissionToken.text)

def parseAsUnix (env : FormatEnv) (expectDate : Bool) : Parse Named := do
  let permissionToken ← needToken 0
  let char ← charAt permissionToken.text 0
  require ("bcdlps-".toList.contains char)
  setFlags ((if char = 'd' ∨ char = 'l' then DirectoryEntry.flagDir else 0) |||
    if char = 'l' then DirectoryEntry.flagLink else 0)
  let permissions ← unixPermissions permissionToken
  unixAttempts env expectDate permissions.2 permissions.1 [3, 2, 1, 0]

/-! ## DOS -/

def dosSize : WString → ℤ → Parse ℤ
  | [], size => pure size
  | char :: chars, size =>
      if char = ',' ∨ char = '.' then dosSize chars size
      else if char.isDigit then dosSize chars (appendDigit size char)
      else mismatch

def dosKind (token : Token) : Parse Unit :=
  if token.text = "<DIR>".toList then do
    addFlag DirectoryEntry.flagDir
    setSize (-1)
  else if token.isNumeric || token.isLeftNumeric then do
    let size ← dosSize token.text 0
    setSize size
  else mismatch

def parseAsDos (env : FormatEnv) : Parse Named := do
  let date ← needToken 0
  setFlags 0
  let _ ← parseShortDate env.lib false date
  let time ← needToken 1
  let _ ← parseTime env.lib time
  let token ← needToken 2
  dosKind token
  let nameToken ← needEndToken 3
  clearTarget
  setOwner [] []
  shiftTime env
  pure (Named.whole nameToken.text)

/-! ## EPLF -/

/-- One fact from `fact` on with a positive length.  The result is the
permissions. -/
def eplfFact (lib : ListingLibrary) (token : Token) (fact len : ℕ)
    (permissions : WString) : Parse WString := do
  let type ← charAt token.text fact
  if type = '/' then do
    addFlag DirectoryEntry.flagDir
    pure permissions
  else if type = 's' then do
    let size ← token.numberIn (fact + 1) ((len : ℤ) - 1)
    setSize size
    pure permissions
  else if type = 'm' then do
    let number ← token.numberIn (fact + 1) ((len : ℤ) - 1)
    require (0 ≤ number)
    setTime (lib.ofSeconds number)
    pure permissions
  else if type = 'u' ∧ 2 < len then do
    let second ← charAt token.text (fact + 1)
    if second = 'p' then cut token.text (fact + 2) ((len : ℤ) - 2)
    else pure permissions
  else pure permissions

/-- The loop over the facts, which end at `pos`. -/
def eplfFacts (lib : ListingLibrary) (token : Token) (pos : ℕ) :
    ℕ → ℕ → WString → Parse WString
  | 0, _, _ => fault
  | fuel + 1, fact, permissions =>
      if fact < pos then do
        let len := (token.find [','] fact).getD pos - fact
        if len = 0 then eplfFacts lib token pos fuel (fact + 1) permissions
        else do
          let permissions ← eplfFact lib token fact len permissions
          eplfFacts lib token pos fuel (fact + len + 1) permissions
      else pure permissions

def parseAsEplf (env : FormatEnv) : Parse Named := do
  let token ← needEndToken 0
  let char ← charAt token.text 0
  require (char = '+')
  let pos ← expect (token.find ['\t'] 0)
  require (pos ≠ token.text.length - 1)
  let name ← cutFrom token.text (pos + 1)
  setEntry fun entry => { entry with flags := 0, size := -1 }
  let permissions ← eplfFacts env.lib token pos (pos + 1) 1 []
  setOwner permissions []
  pure (Named.whole name)

/-! ## VMS -/

def unescape (escape : Char) : WString → WString
  | [] => []
  | char :: chars =>
      if char = escape then
        match chars with
        | [] => []
        | next :: rest =>
            if next = '\x00' then [] else next :: unescape escape rest
      else char :: unescape escape chars

def vmsName (token : Token) (pos : ℕ) : Parse (WString × Bool) :=
  if 4 < pos then do
    let extension ← cut token.text ((pos : ℤ) - 4) 4
    if extension = ".DIR".toList then do
      let name ← cut token.text 0 ((pos : ℤ) - 4)
      let version ← cutFrom token.text pos
      if version = ";1".toList then pure (name, true)
      else pure (name ++ version, true)
    else pure (token.text, false)
  else pure (token.text, false)

def unbracket (text : WString) : Parse WString :=
  cut text 1 ((text.length : ℤ) - 2)

/-- Whether a token starts and ends with the brackets and has something in
between. -/
def isBracketed (opening closing : Char) (token : Token) : Parse Bool := do
  let first ← charAt token.text 0
  let last ← charAt token.text ((token.text.length : ℤ) - 1)
  pure (decide (2 < token.text.length ∧ first = opening ∧ last = closing))

/-- A user in front of the size.  The result is the user, the index of the
next token and that token. -/
def vmsUser (token : Token) : Parse (WString × ℕ × Token) :=
  if !token.isNumeric && !token.isLeftNumeric then do
    let bracketed ← isBracketed '[' ']' token
    require bracketed
    let user ← unbracket token.text
    let token ← needToken 2
    require (token.isNumeric || token.isLeftNumeric)
    pure (user, 2, token)
  else pure ([], 1, token)

def vmsBlocks (token : Token) : Option ℕ → Parse Token
  | none => pure token
  | some pos => token.take pos

/-- A size in front of the date.  The result is the index of the token with
the date, that token and whether there is a size. -/
def vmsFirstSize (index : ℕ) (token : Token) : Parse (ℕ × Token × Bool) := do
  let pos := token.find ['/'] 0
  require (pos ≠ some 0)
  if token.isNumeric ||
      pos.any fun pos => (token.find ['/'] (pos + 1)).isNone then do
    let sizeToken ← vmsBlocks token pos
    parseComplexFileSize sizeToken 512
    let token ← needToken (index + 1)
    pure (index + 1, token, true)
  else if pos.isNone && token.isLeftNumeric then do
    let sized ← perhaps (parseComplexFileSize token 512)
    if sized.isSome then do
      let token ← needToken (index + 1)
      pure (index + 1, token, true)
    else pure (index, token, false)
  else pure (index, token, false)

/-- A token that is no time has to be bracketed on both sides or on none.  The
result is the index of the last token that belongs to the time. -/
def vmsTime (env : FormatEnv) (index : ℕ) (token : Token) : Parse ℕ := do
  let timed ← perhaps (parseTime env.lib token)
  if timed.isSome then pure index
  else do
    let first ← charAt token.text 0
    let last ← charAt token.text ((token.text.length : ℤ) - 1)
    require (!(first == '[' && last != ']'))
    require (!(first == '(' && last != ')'))
    require (!(first != '[' && last == ']'))
    require (!(first != '(' && last == ')'))
    pure (index - 1)

def vmsSecondSize (gotSize : Bool) (index : ℕ) : Parse ℕ :=
  if gotSize then pure index
  else do
    let token ← needToken (index + 1)
    require (token.isNumeric || token.isLeftNumeric)
    let pos := token.find ['/'] 0
    require (pos ≠ some 0)
    let sizeToken ← vmsBlocks token pos
    parseComplexFileSize sizeToken 512
    pure (index + 1)

def appendWord (text word : WString) : WString :=
  (if text.isEmpty then text else text ++ " ".toList) ++ word

def vmsOwner : ℕ → ℕ → WString → WString → Parse (WString × WString)
  | 0, _, _, _ => fault
  | fuel + 1, index, permissions, ownerGroup => do
      let token ← getToken index
      if token.text.isEmpty then pure (permissions, ownerGroup)
      else do
        let permission ← isBracketed '(' ')' token
        let owner ← isBracketed '[' ']' token
        if permission then do
          let word ← unbracket token.text
          vmsOwner fuel (index + 1) (appendWord permissions word) ownerGroup
        else if owner then do
          let word ← unbracket token.text
          vmsOwner fuel (index + 1) permissions (appendWord ownerGroup word)
        else
          vmsOwner fuel (index + 1) permissions
            (appendWord ownerGroup token.text)

def vmsRest (env : FormatEnv) (index : ℕ) (token : Token) (gotSize : Bool)
    (user : WString) : Parse Unit := do
  let index ← vmsTime env index token
  let index ← vmsSecondSize gotSize index
  let line ← read ParseState.line
  let owner ← vmsOwner (line.text.length + 2) (index + 1) [] user
  setOwner owner.1 owner.2
  shiftTime env

def parseAsVms (env : FormatEnv) : Parse Named := do
  let token ← needToken 0
  let pos ← expect (token.find [';'] 0)
  setFlags 0
  let name ← vmsName token pos
  setFlags (if name.2 then DirectoryEntry.flagDir else 0)
  let named : Named := ⟨.vms name.1, unescape '^' name.1⟩
  let token ← needToken 1
  let user ← vmsUser token
  let date ← vmsFirstSize user.2.1 user.2.2
  let _ ← parseShortDate env.lib false date.2.1
  let token ← getToken (date.1 + 1)
  -- a line may end with the date
  if token.text.isEmpty then pure named
  else do
    vmsRest env (date.1 + 1) token date.2.2 user.1
    pure named

/-! ## Numerical Unix, OS/2 and VShell -/

def secondChar (token : Token) : Parse Char :=
  if 2 ≤ token.text.length then charAt token.text 1 else pure '\x00'

def numericalUnix (env : FormatEnv) (firstToken token : Token) :
    Parse Named := do
  let second ← secondChar firstToken
  setFlags (if second = '4' then DirectoryEntry.flagDir else 0)
  let groupToken ← needToken 2
  let sizeToken ← needNumber 3
  let size ← sizeToken.number
  setSize size
  let timeToken ← needToken 4
  let number ← timeToken.number
  require (0 ≤ number)
  setTime (env.lib.ofSeconds number)
  let nameToken ← needEndToken 5
  clearTarget
  setOwner firstToken.text (token.text ++ " ".toList ++ groupToken.text)
  pure (Named.whole nameToken.text)

/-- The loop over the tokens in front of the date.  The result is the index of
the token with the date, that token and how many tokens have been skipped. -/
def os2Skip : ℕ → ℕ → Token → ℕ → Parse (ℕ × Token × ℕ)
  | 0, _, _, _ => fault
  | fuel + 1, index, token, skippedCount =>
      if token.text = "DIR".toList then do
        addFlag DirectoryEntry.flagDir
        let next ← needToken (index + 1)
        os2Skip fuel (index + 1) next (skippedCount + 1)
      else if (token.find ['-', '/', '.'] 0).isSome then
        pure (index, token, skippedCount)
      else do
        let next ← needToken (index + 1)
        os2Skip fuel (index + 1) next (skippedCount + 1)

def os2Name (lib : ListingLibrary) (skippedCount : ℕ) (field : WString) :
    Parse Named :=
  if 5 ≤ field.length then do
    let type ← cutFrom field ((field.length : ℤ) - 5)
    if skippedCount = 0 ∧ lib.lowerAscii type = "<dir>".toList then do
      addFlag DirectoryEntry.flagDir
      let name ← cut field 0 ((field.length : ℤ) - 5)
      pure ⟨.os2 field, name.rdropWhile fun char => char == ' '⟩
    else pure (Named.whole field)
  else pure (Named.whole field)

def os2 (env : FormatEnv) (token : Token) : Parse Named := do
  let line ← read ParseState.line
  let date ← os2Skip (line.text.length + 2) 1 token 0
  let _ ← parseShortDate env.lib false date.2.1
  let time ← needToken (date.1 + 1)
  let _ ← parseTime env.lib time
  let nameToken ← needEndToken (date.1 + 2)
  os2Name env.lib date.2.2 nameToken.text

def vshellName (field : WString) : Parse Named := do
  let char ← charAt field ((field.length : ℤ) - 1)
  if char = '/' ∨ char = '\\' then do
    addFlag DirectoryEntry.flagDir
    let name ← popBack field
    pure ⟨.vshell field, name⟩
  else pure ⟨.vshell field, field⟩

def vshell (env : FormatEnv) (month : ℕ) : Parse Named := do
  let dayToken ← needToken 2
  require (dayToken.isNumeric || dayToken.isLeftNumeric)
  let day ← dayToken.number
  require (0 ≤ day && day ≤ 31)
  let yearToken ← needNumber 3
  let year ← yearToken.number
  let year :=
    if year < 50 then year + 2000
    else if year < 1000 then year + 1900
    else year
  let _ ← changeTime fun time =>
    env.lib.setTime time (int32 year) month day (-1) (-1)
  let time ← needToken 4
  let _ ← parseTime env.lib time
  let nameToken ← needEndToken 5
  vshellName nameToken.text

def otherNamed (env : FormatEnv) (token : Token) : Option ℕ → Parse Named
  | none => os2 env token
  | some month => vshell env month

def parseOther (env : FormatEnv) : Parse Named := do
  let firstToken ← needNumber 0
  let token ← needToken 1
  setFlags 0
  if token.isNumeric then numericalUnix env firstToken token
  else do
    -- a line of a VMS listing may look the same
    require (!env.maybeMultilineVms)
    let size ← firstToken.number
    setSize size
    let named ← otherNamed env token (getMonthFromName env.lib token.text)
    clearTarget
    setOwner [] []
    shiftTime env
    pure named

/-! ## IBM and WfFtp -/

def ibmName (field : WString) : Parse Named := do
  let char ← charAt field ((field.length : ℤ) - 1)
  if char = '/' then do
    addFlag DirectoryEntry.flagDir
    let name ← popBack field
    pure ⟨.ibm field, name⟩
  else pure ⟨.ibm field, field⟩

def parseAsIbm (env : FormatEnv) : Parse Named := do
  let ownerGroupToken ← needToken 0
  let sizeToken ← needNumber 1
  let size ← sizeToken.number
  setSize size
  let date ← needToken 2
  setFlags 0
  let _ ← parseShortDate env.lib false date
  let time ← needToken 3
  let _ ← parseTime env.lib time
  let nameToken ← needEndToken 5
  let named ← ibmName nameToken.text
  setOwner [] ownerGroupToken.text
  shiftTime env
  pure named

def parseAsWfFtp (env : FormatEnv) : Parse Named := do
  let name ← needToken 0
  let sizeToken ← needNumber 1
  let size ← sizeToken.number
  setSize size
  setFlags 0
  let date ← needToken 2
  let _ ← parseShortDate env.lib false date
  let unused ← needToken 3
  let last ← back unused.text
  require (last = '.')
  let time ← needEndToken 4
  let _ ← parseTime env.lib time
  setOwner [] []
  shiftTime env
  pure (Named.whole name.text)

/-! ## MVS -/

/-- A dataset in a VSAM catalog: TSO004 3390 VSAM FOO.BAR -/
def mvsVsam (token : Token) : Parse Named := do
  require (token.text = "VSAM".toList)
  let name ← needToken 3
  require (!name.text.contains ' ')
  setSize (-1)
  setOwner [] []
  pure (Named.whole name.text)

/-- The tokens up to the record format.  The result is the index of the next
token. -/
def mvsRecfm (ext : Token) : Parse ℕ := do
  let used ← needToken 4
  if used.isNumeric ∨ used.text = "????".toList ∨
      used.text = "++++".toList then do
    let recfm ← needToken 5
    require (!recfm.isNumeric)
    pure 6
  else do
    require (6 ≤ ext.text.length)
    pure 5

def mvsDataset : Parse Named := do
  let ext ← needNumber 3
  let index ← mvsRecfm ext
  let _ ← needNumber index
  let _ ← needNumber (index + 1)
  let dsorg ← needToken (index + 2)
  if dsorg.text = "PO".toList ∨ dsorg.text = "PO-E".toList then do
    addFlag DirectoryEntry.flagDir
    setSize (-1)
  else setSize 100
  let name ← needEndToken (index + 3)
  setOwner [] []
  pure (Named.whole name.text)

def parseAsIbmMvs (env : FormatEnv) : Parse Named := do
  let _ ← needToken 0
  let _ ← needToken 1
  let token ← needToken 2
  setFlags 0
  if token.text = "**NONE**".toList then mvsDataset
  else do
    let date ← perhaps (parseShortDate env.lib false token)
    if date.isSome then mvsDataset else mvsVsam token

def parseAsIbmMvsPds (env : FormatEnv) : Parse Named := do
  let name ← needToken 0
  let _ ← needToken 1
  setFlags 0
  let creation ← needToken 2
  let _ ← parseShortDate env.lib false creation
  needDateTime env false 3
  let sizeToken ← needNumber 5
  let size ← sizeToken.number
  setSize size
  let _ ← needNumber 6
  let _ ← needNumber 7
  let _ ← needEndToken 8
  setOwner [] []
  shiftTime env
  pure (Named.whole name.text)

def parseAsIbmMvsMigrated (env : FormatEnv) : Parse Named := do
  let token ← needToken 0
  require (env.lib.lowerAscii token.text = "migrated".toList)
  let name ← needToken 1
  noFurtherToken 2
  setEntry fun entry => { entry with flags := 0, size := -1 }
  setOwner [] []
  pure (Named.whole name.text)

def tokensEnd : ℕ → ℕ → Parse ℕ
  | 0, _ => fault
  | fuel + 1, index => do
      let token ← getToken index
      if token.text.isEmpty then pure index else tokensEnd fuel (index + 1)

def isUpper (char : Char) : Bool := 'A' ≤ char && char ≤ 'Z'

def pds2Attributes : ℕ → ℕ → Parse Unit
  | 0, _ => pure ()
  | count + 1, index => do
      let token ← needToken index
      require (token.text.all isUpper)
      pds2Attributes count (index + 1)

def pds2Number (n : ℕ) : Parse Unit := do
  let token ← needToken n
  require (token.isNumeric || token.text = "ANY".toList)

def pds2Rest : Parse Unit := do
  let unused ← needToken 2
  require unused.isHexNumeric
  let _ ← needNumber 3
  let line ← read ParseState.line
  let stop ← tokensEnd (line.text.length + 2) 4
  require (2 ≤ stop - 4)
  pds2Number (stop - 1)
  pds2Number (stop - 2)
  pds2Attributes (stop - 1 - 1 - 4) 4

def parseAsIbmMvsPds2 : Parse Named := do
  let name ← needToken 0
  setFlags 0
  setOwner [] []
  setSize (-1)
  let token ← getToken 1
  if token.text.isEmpty then pure (Named.whole name.text)
  else do
    setSize token.hexNumber
    require (token.hexNumber ≠ -1)
    pds2Rest
    pure (Named.whole name.text)

def parseAsIbmMvsTape (env : FormatEnv) : Parse Named := do
  let _ ← needToken 0
  let device ← needToken 1
  require (env.lib.lowerAscii device.text = "tape".toList)
  let name ← needToken 2
  setFlags 0
  setOwner [] []
  setSize (-1)
  noFurtherToken 3
  pure (Named.whole name.text)

/-! ## OS-9 -/

def parseAsOS9 (env : FormatEnv) : Parse Named := do
  let ownerGroupToken ← needToken 0
  let pos ← expect (ownerGroupToken.find ['.'] 0)
  let size := ownerGroupToken.text.length
  require (pos ≠ 0 && pos ≠ size - 1)
  require (ownerGroupToken.isNumericIn 0 pos)
  require (ownerGroupToken.isNumericIn (pos + 1) (size - pos - 1))
  setFlags 0
  let date ← needToken 1
  let _ ← parseShortDate env.lib true date
  let _ ← needToken 2
  let permToken ← needToken 3
  let char ← charAt permToken.text 0
  setFlags (if char = 'd' then DirectoryEntry.flagDir else 0)
  let _ ← needToken 4
  let sizeToken ← needNumber 5
  let number ← sizeToken.number
  setSize number
  let nameToken ← needEndToken 6
  setOwner permToken.text ownerGroupToken.text
  pure (Named.whole nameToken.text)

end TabFtp
