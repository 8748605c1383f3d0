import TabFtp.ListingFormatBounds
import TabFtp.ServerPathSyntax

/-!
# The parser of directory listings

`CDirectoryListingParser`.  Data is collected in buffers and cut into lines, a
line is tried with all formats, and a line that no format matches is kept to
be joined with the next one.  The length of a line is limited, so the `int`
positions of the source are natural numbers here.
-/

namespace TabFtp

open CheckedAttempts Attempt

/-! ## One line -/

/-- What the parser is made with and what does not change. -/
structure ParserConfig where
  lib : ListingLibrary
  /-- The characters of the bytes of a line. -/
  convToLocal : List UInt8 → WString
  server : Server
  /-- `m_timezoneOffset` in milliseconds -/
  timezoneOffset : ℤ
  limit : ℕ

/-- What `ParseLine` works on. -/
structure ListingCore where
  entries : List DirectoryEntry
  fileListOnly : Bool
  fileList : List WString
  maybeMultilineVms : Bool
  truncated : Bool
  prevLine : Option Line
  deriving DecidableEq

def ListingCore.initial : ListingCore := ⟨[], true, [], false, false, none⟩

/-- A name and a time that are known already. -/
structure Override where
  name : WString
  time : Option Datetime

inductive Recognition
  | skip
  | named (named : Named)

def ParserConfig.formatEnv (config : ParserConfig) (core : ListingCore) :
    FormatEnv :=
  ⟨config.lib, config.timezoneOffset, core.maybeMultilineVms⟩

def matched (format : Parse Named) : Parse Recognition := do
  let named ← format
  pure (.named named)

def mlsdMatched (env : FormatEnv) : Parse Recognition := do
  let named ← parseAsMlsd env
  match named with
  | none => pure .skip
  | some named => pure (.named named)

def serverFormats (env : FormatEnv) : ServerType → List (Parse Recognition)
  | .zvm => [matched (parseAsZvm env)]
  | .hpnonstop => [matched (parseAsHPNonstop env)]
  | _ => []

def mvsFormats (env : FormatEnv) : ServerType → List (Parse Recognition)
  | .mvs =>
      [matched (parseAsIbmMvsMigrated env), matched parseAsIbmMvsPds2,
        matched (parseAsIbmMvsTape env)]
  | _ => []

def formats (env : FormatEnv) (serverType : ServerType) :
    List (Parse Recognition) :=
  serverFormats env serverType ++
    [mlsdMatched env,
      matched (parseAsUnix env true),
      matched (parseAsDos env),
      matched (parseAsEplf env),
      matched (parseAsVms env),
      matched (parseOther env),
      matched (parseAsIbm env),
      matched (parseAsWfFtp env),
      matched (parseAsIbmMvs env),
      matched (parseAsIbmMvsPds env),
      matched (parseAsOS9 env)] ++
    mvsFormats env serverType ++
    [matched (parseAsUnix env false)]

def recognize (env : FormatEnv) (serverType : ServerType) :
    Parse Recognition :=
  firstOf (formats env serverType)

/-- `CDirentry()` -/
def emptyEntry : DirectoryEntry := ⟨[], -1, [], [], none, none, 0⟩

namespace ListingCore

/-- A line with an entry ends the search for multiline entries and for names
only. -/
def settle (core : ListingCore) : ListingCore :=
  { core with
    maybeMultilineVms := false, fileList := [], fileListOnly := false }

def keepName (config : ParserConfig) (core : ListingCore) (name : WString) :
    ListingCore :=
  if core.fileListOnly then
    if core.fileList.length < config.limit then
      { core with fileList := core.fileList ++ [name] }
    else { core with truncated := true }
  else core

def appendEntry (config : ParserConfig) (core : ListingCore)
    (entry : DirectoryEntry) : ListingCore :=
  if core.entries.length < config.limit then
    { core with entries := core.entries ++ [entry] }
  else { core with truncated := true }

def keepLine (config : ParserConfig) (core : ListingCore)
    (concatenated : Bool) : Parse ListingCore :=
  if concatenated then pure { core with maybeMultilineVms := false }
  else do
    let token ← getEndToken 0
    if token.text.isEmpty || (token.find [' '] 0).isSome then
      pure core.settle
    else
      pure (keepName config
        { core with maybeMultilineVms := (token.find [';'] 0).isSome }
        token.text)

end ListingCore

def Override.apply (override : Option Override) (entry : DirectoryEntry) :
    DirectoryEntry :=
  match override with
  | none => entry
  | some override =>
      { entry with
        name := if override.name.isEmpty then entry.name else override.name
        time := if override.time.isNone then entry.time else override.time }

/-- `name == L"." || name == L".."` -/
def isDotName (name : WString) : Bool :=
  name == ".".toList || name == "..".toList

def trimVersion (serverType : ServerType) (entry : DirectoryEntry) :
    DirectoryEntry :=
  if serverType = .vms ∧ entry.isDir then
    match WString.rfind ';' entry.name with
    | none => entry
    | some pos =>
        if 0 < pos then { entry with name := entry.name.take pos } else entry
  else entry

def shiftToServer (config : ParserConfig) (entry : DirectoryEntry) :
    DirectoryEntry :=
  if config.server.timezoneOffset ≠ 0 then
    { entry with
      time := config.lib.shift entry.time
        (config.server.timezoneOffset * 60000) }
  else entry

/-- The part of `ParseLine` behind `done`. -/
def addEntry (config : ParserConfig) (core : ListingCore)
    (override : Option Override) (entry : DirectoryEntry) : ListingCore :=
  let entry := Override.apply override entry
  if isDotName entry.name then core.settle
  else
    ListingCore.appendEntry config core.settle
      (shiftToServer config (trimVersion config.server.type entry))

/-- `ParseLine`.  The result has the line with the tokens found so far, and
whether there is an entry or the line is skipped. -/
def parseLine (config : ParserConfig) (core : ListingCore) (line : Line)
    (concatenated : Bool) (override : Option Override) :
    Option (ListingCore × Line × Bool) :=
  match recognize (config.formatEnv core) config.server.type
      ⟨line, emptyEntry⟩ with
  | .fault => none
  | .success .skip state => some (core.settle, state.line, true)
  | .success (.named named) state =>
      some (addEntry config core override
        { state.entry with name := named.name }, state.line, true)
  | .mismatch state =>
      match core.keepLine config concatenated state with
      | .fault => none
      | .mismatch _ => none
      | .success core after =>
          if override.any fun override => !override.name.isEmpty then
            some (addEntry config core override after.entry, after.line, true)
          else some (core, after.line, false)

/-- The loop body of `ParseData`. -/
def handleLine (config : ParserConfig) (core : ListingCore) (line : Line) :
    Option ListingCore :=
  match parseLine config core line false none with
  | none => none
  | some (core, _, true) => some { core with prevLine := none }
  | some (core, line, false) =>
      match core.prevLine with
      | none => some { core with prevLine := some line }
      | some prevLine =>
          match parseLine config core (prevLine.concat line) true none with
          | none => none
          | some (core, _, true) => some { core with prevLine := none }
          | some (core, _, false) => some { core with prevLine := some line }

/-! ## Lines of the data -/

inductive ListingEncoding
  | unknown | normal | ebcdic
  deriving DecidableEq

/-- `CDirectoryListingParser` -/
structure ListingParser where
  core : ListingCore
  encoding : ListingEncoding
  dataList : List (List UInt8)
  currentOffset : ℕ
  totalData : ℤ
  deriving DecidableEq

def ListingParser.initial (encoding : ListingEncoding) : ListingParser :=
  ⟨.initial, encoding, [], 0, 0⟩

def isLineEnd (byte : UInt8) : Bool :=
  byte == 10 || byte == 13 || byte == 0

def isSkipped (byte : UInt8) : Bool :=
  isLineEnd byte || byte == 32 || byte == 9

/-- The loop that skips the bytes in front of a line.  There is no result if
nothing else is left. -/
def skipToLine : List (List UInt8) → ℕ → Option (List (List UInt8) × ℕ)
  | [], _ => none
  | buffer :: buffers, offset =>
      match (buffer.drop offset).findIdx? fun byte => !isSkipped byte with
      | some i => some (buffer :: buffers, offset + i)
      | none => skipToLine buffers 0

/-- Where a line ends: its length, how many buffers are in front of the end,
the offset of the end in its buffer, and whether there is a byte that ends
the line. -/
structure LineStop where
  reslen : ℕ
  iter : ℕ
  currentOffset : ℕ
  ended : Bool

def findLineEnd : List (List UInt8) → ℕ → ℕ → ℕ → LineStop
  | [], offset, reslen, iter => ⟨reslen, iter, offset, false⟩
  | buffer :: buffers, offset, reslen, iter =>
      match (buffer.drop offset).findIdx? isLineEnd with
      | some i => ⟨reslen + i, iter, offset + i, true⟩
      | none =>
          match buffers with
          | [] =>
              ⟨reslen + (buffer.length - offset), iter + 1, buffer.length,
                false⟩
          | _ =>
              findLineEnd buffers 0 (reslen + (buffer.length - offset))
                (iter + 1)

/-- The loop that copies the buffers in front of the end of a line.  The
result is the copy, what is left of its length and the start in the next
buffer. -/
def copyBuffers : List (List UInt8) → ℕ → ℕ → List UInt8 × ℕ × ℕ
  | [], startpos, reslen => ([], reslen, startpos)
  | buffer :: buffers, startpos, reslen =>
      if reslen = 0 then ([], reslen, startpos)
      else
        let copylen := min (buffer.length - startpos) reslen
        let rest := copyBuffers buffers 0 (reslen - copylen)
        ((buffer.drop startpos).take copylen ++ rest.1, rest.2)

def takeLine (buffers : List (List UInt8)) (startpos : ℕ) (stop : LineStop) :
    List UInt8 × List (List UInt8) :=
  let copied := copyBuffers (buffers.take stop.iter) startpos stop.reslen
  match buffers.drop stop.iter with
  | [] => (copied.1, [])
  | last :: rest =>
      if copied.2.1 ≠ 0 then
        let copylen := min (stop.currentOffset - copied.2.2) copied.2.1
        (copied.1 ++ (last.drop copied.2.2).take copylen,
          if last.length ≤ copied.2.1 then rest else last :: rest)
      else (copied.1, last :: rest)

def ParserConfig.lineText (config : ParserConfig) (bytes : List UInt8) :
    WString :=
  match config.convToLocal bytes with
  | [] => []
  | char :: chars => if char.toNat = 0xfeff then chars else char :: chars

inductive GotLine
  | line (text : WString)
  | nothing
  | error

/-- `GetLine`.  A line that has no characters is left out; the fuel is for the
lines that may be left out. -/
def getLine (config : ParserConfig) (breakAtEnd : Bool) :
    ℕ → ListingParser → GotLine × ListingParser
  | 0, parser => (.nothing, parser)
  | fuel + 1, parser =>
      if parser.dataList.isEmpty then (.nothing, parser)
      else
        match skipToLine parser.dataList parser.currentOffset with
        | none =>
            (.nothing, { parser with dataList := [], currentOffset := 0 })
        | some (dataList, startpos) =>
            let parser :=
              { parser with dataList := dataList, currentOffset := startpos }
            let stop := findLineEnd dataList startpos 0 0
            if 10000 < stop.reslen then (.error, parser)
            else if breakAtEnd && !stop.ended then (.nothing, parser)
            else
              let taken := takeLine dataList startpos stop
              let parser :=
                { parser with
                  dataList := taken.2, currentOffset := stop.currentOffset }
              if (config.lineText taken.1).isEmpty then
                getLine config breakAtEnd fuel parser
              else (.line (config.lineText taken.1), parser)

/-- The number of bytes in the buffers, which bounds the number of lines. -/
def ListingParser.size (parser : ListingParser) : ℕ :=
  parser.dataList.flatten.length

/-- The loop of `ParseData`. -/
def parseLines (config : ParserConfig) (isPartial : Bool) :
    ℕ → ListingParser → Option (ListingParser × Bool)
  | 0, _ => none
  | fuel + 1, parser =>
      match getLine config isPartial (parser.size + 1) parser with
      | (.nothing, parser) => some (parser, true)
      | (.error, parser) => some (parser, false)
      | (.line text, parser) =>
          match handleLine config parser.core (Line.make text none) with
          | none => none
          | some core =>
              parseLines config isPartial fuel { parser with core := core }

/-! ## Encodings -/

def ebcdicTable : List Char :=
  ("                " ++ "     \n         \n" ++ "     \n          " ++
    "                " ++ "           .<(+|" ++ "&         !$*); " ++
    "-/        |,%_>?" ++ "         `:#@'=\"" ++ " abcdefghi      " ++
    " jklmnopqr      " ++ " ~stuvwxyz      " ++ "^         []    " ++
    "\x7bABCDEFGHI      " ++ "\x7dJKLMNOPQR      " ++ "\\ STUVWXYZ      " ++
    "0123456789      ").toList

/-- `ConvertEncoding` for one byte. -/
def convertByte (encoding : ListingEncoding) (byte : UInt8) : UInt8 :=
  if encoding = .ebcdic then
    UInt8.ofNat ((ebcdicTable[byte.toNat]?.getD ' ').toNat)
  else byte

def convertEncoding (encoding : ListingEncoding) (data : List UInt8) :
    List UInt8 :=
  data.map (convertByte encoding)

def countRange (data : List UInt8) (first last : ℕ) : ℕ :=
  data.countP fun byte => first ≤ byte.toNat && byte.toNat ≤ last

def looksLikeEbcdic (data : List UInt8) : Bool :=
  let count (byte : ℕ) := countRange data byte byte
  let countNormal :=
    countRange data 0x30 0x39 + countRange data 0x61 0x7a +
      countRange data 0x41 0x5a
  let countEbcdic :=
    countRange data 0x81 0x89 + countRange data 0x91 0x99 +
      countRange data 0xa2 0xa9 + countRange data 0xc1 0xc9 +
      countRange data 0xd1 0xd9 + countRange data 0xe2 0xe9 +
      countRange data 0xf0 0xf9
  (count 0x1f != 0 || count 0x15 != 0 || count 0x25 != 0) &&
    count 0x0a == 0 && count 0x40 != 0 && count 0x20 < count 0x40 &&
    countNormal < countEbcdic

namespace ListingParser

def deduceEncoding (parser : ListingParser) : ListingParser :=
  if parser.encoding ≠ .unknown then parser
  else if looksLikeEbcdic parser.dataList.flatten then
    { parser with
      encoding := .ebcdic
      dataList := parser.dataList.map (convertEncoding .ebcdic) }
  else { parser with encoding := .normal }

/-- `ParseData`.  There is no result if an access is out of range. -/
def parseData (config : ParserConfig) (isPartial : Bool)
    (parser : ListingParser) : Option (ListingParser × Bool) :=
  let parser := parser.deduceEncoding
  parseLines config isPartial (parser.size + 1) parser

/-- The first steps of `AddData`. -/
def receive (parser : ListingParser) (data : List UInt8) : ListingParser :=
  { parser with
    dataList := parser.dataList ++ [convertEncoding parser.encoding data]
    totalData := parser.totalData + data.length }

def addData (config : ParserConfig) (parser : ListingParser)
    (data : List UInt8) : Option (ListingParser × Bool) :=
  let parser := parser.receive data
  if parser.totalData < 512 then some (parser, true)
  else parser.parseData config true

def addLine (config : ParserConfig) (parser : ListingParser)
    (line name : WString) (time : Option Datetime) : Option ListingParser :=
  match parseLine config parser.core (Line.make line none) true
      (some ⟨name, time⟩) with
  | none => none
  | some (core, _, _) => some { parser with core := core }

end ListingParser

/-! ## The listing -/

namespace DirectoryListing

def listingFailed : ℕ := 0x100

def listingHasPerms : ℕ := 0x400

def listingHasUsergroup : ℕ := 0x800

/-- The flags that `Assign` sets for an entry. -/
def entryFlags (entry : DirectoryEntry) : ℕ :=
  (if entry.isDir then listingHasDirs else 0) |||
    (if entry.permissions.isEmpty then 0 else listingHasPerms) |||
    if entry.ownerGroup.isEmpty then 0 else listingHasUsergroup

/-- `Assign` to a listing without these flags. -/
def assign (listing : DirectoryListing) (entries : List DirectoryEntry) :
    DirectoryListing :=
  { listing with
    entries := entries
    searchmapCase := none
    searchmapNocase := none
    flags := entries.foldl (fun flags entry => flags ||| entryFlags entry)
      listing.flags }

end DirectoryListing

def nameEntry (name : WString) : DirectoryEntry :=
  { emptyEntry with name := name }

/-- The entries at the end of `Parse`. -/
def ListingCore.finalEntries (core : ListingCore) : List DirectoryEntry :=
  core.entries ++ core.fileList.map nameEntry

/-- `Parse`, where `now` is the time on the monotonic clock. -/
def ListingParser.parse (config : ParserConfig) (parser : ListingParser)
    (path : ServerPath) (now : ℤ) : Option DirectoryListing :=
  let listing : DirectoryListing := ⟨path, now, [], none, none, 0⟩
  match parser.parseData config false with
  | none => none
  | some (_, false) => some (listing.addFlag DirectoryListing.listingFailed)
  | some (parser, true) => some (listing.assign parser.core.finalEntries)

end TabFtp
