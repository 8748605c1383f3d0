import TabFtp.LabelledRuns
import TabFtp.DurableFiles

/-!
# Settings files

`CXmlFile` keeps a document in a file and, while the file is being replaced,
a copy of it in a second file whose name ends in `~`.  A run consists of calls
of `Load` and `Save` and of the file-system steps inside them.  It may stop
before any of these steps; the object is created anew afterwards.
-/

namespace TabFtp

open DurableFiles

/-- The XML library: writing and parsing a document, the names of its elements
at the top, an element added to a document without any, and the document that
`CreateEmpty` makes. -/
structure XmlLibrary (Document : Type) where
  save : Document → List UInt8
  loadBuffer : List UInt8 → Option Document
  children : Document → List String
  appendChild : Document → String → Document
  createEmpty : String → Document

/-- What is parsed from an incomplete document is that document, if it can be
parsed at all. -/
structure XmlLibrary.Documented {Document : Type}
    (library : XmlLibrary Document) : Prop where
  save_ne_nil : ∀ document, library.save document ≠ []
  loadBuffer_save : ∀ document,
    library.loadBuffer (library.save document) = some document
  loadBuffer_front : ∀ document text, text <+: library.save document →
    library.loadBuffer text = none ∨ library.loadBuffer text = some document

/-- The element that `GetXmlFile` uses, among those at the top of a document,
which is the new value of `m_rootName`. -/
def acceptedRoot (rootName : String) (children : List String) :
    Option String :=
  let fallbackRoot := if rootName = "TabFTP3" then "FileZilla3" else "TabFTP3"
  if rootName ∈ children then some rootName
  else if fallbackRoot ∈ children then some fallbackRoot
  else
    match children.head? with
    | none => none
    | some name =>
        if name ∈ ["TabFTP3", "FileZilla3", "FileZilla2"] then some name
        else none

inductive XmlFilePhase (Document : Type)
  /-- Between two calls, with the elements at the top of the document that is
  loaded. -/
  | idle (loaded : Option (List String))
  /-- `Save` copies the file to the backup. -/
  | backingUp (document : Document) (opened : Bool)
  /-- `Save` writes the document to the file. -/
  | writing (document : Document) (existed opened : Bool)
  /-- `Save` removes a file that could not be written. -/
  | removing (document : Document) (existed : Bool)
  /-- `Save` gives the backup its old name back. -/
  | renaming (document : Document)
  /-- `Save` removes the backup. -/
  | cleaning (document : Document)
  /-- `Load` copies the backup to the file. -/
  | restoring (document : Document) (opened : Bool)
  /-- `Load` removes the backup. -/
  | dropping (document : Document)
  deriving DecidableEq

structure CXmlFile (Document : Type) where
  rootName : String
  main : Option (DiskFile UInt8)
  backup : Option (DiskFile UInt8)
  phase : XmlFilePhase Document
  deriving DecidableEq

inductive XmlFileInput (Document : Type)
  | load (overwriteInvalid : Bool)
  | save (document : Document)
  | file (input : WriteInput)
  | remove
  | rename
  /-- Everything stops; of data not synced this many bytes are left. -/
  | stop (mainKept backupKept : ℕ)

def XmlFileInput.fails {Document : Type} : XmlFileInput Document → Bool
  | .file input => input.fails
  | _ => false

inductive XmlFileOutput (Document : Type)
  | started (document : Document)
  | saved (document : Document) (succeeded : Bool)
  | loaded (document : Document)
  | loadFailed
  deriving DecidableEq

def contentOf (file : Option (DiskFile UInt8)) : List UInt8 :=
  (file.map DiskFile.content).getD []

namespace CXmlFile

variable {Document : Type}

def getXmlFile (library : XmlLibrary Document) (rootName : String)
    (file : Option (DiskFile UInt8)) : Option (Document × String) :=
  if contentOf file = [] then none
  else
    match library.loadBuffer (contentOf file) with
    | none => none
    | some document =>
        match acceptedRoot rootName (library.children document) with
        | some name => some (document, name)
        | none =>
            if library.children document = [] then
              some (library.appendChild document rootName, rootName)
            else none

def returned (library : XmlLibrary Document) (file : CXmlFile Document)
    (document : Document) : CXmlFile Document :=
  { file with phase := .idle (some (library.children document)) }

def load (library : XmlLibrary Document) (file : CXmlFile Document)
    (overwriteInvalid : Bool) :
    CXmlFile Document × List (XmlFileOutput Document) :=
  match getXmlFile library file.rootName file.main with
  | some (document, name) =>
      ({ file with rootName := name }.returned library document,
        [.loaded document])
  | none =>
      match getXmlFile library file.rootName file.backup with
      | some (document, name) =>
          ({ file with
              rootName := name, phase := .restoring document false }, [])
      | none =>
          if overwriteInvalid ∨
              contentOf file.main = [] ∧ contentOf file.backup = [] then
            let document := library.createEmpty file.rootName
            (file.returned library document, [.loaded document])
          else ({ file with phase := .idle none }, [.loadFailed])

/-- `Save`, up to its first change to a file. -/
def save (file : CXmlFile Document) (document : Document) :
    CXmlFile Document × List (XmlFileOutput Document) :=
  match file.main with
  | some _ =>
      ({ file with phase := .backingUp document false }, [.started document])
  | none =>
      ({ file with phase := .writing document false false },
        [.started document])

/-- What follows a step of `copy_file` in `Save`. -/
def afterBackingUp (library : XmlLibrary Document) (file : CXmlFile Document)
    (document : Document) :
    Progress → CXmlFile Document × List (XmlFileOutput Document)
  | .opened => ({ file with phase := .backingUp document true }, [])
  | .finished true => ({ file with phase := .writing document true false }, [])
  | .finished false =>
      (file.returned library document, [.saved document false])

/-- What follows a step of `flushing_xml_writer::save`. -/
def afterWriting (library : XmlLibrary Document) (file : CXmlFile Document)
    (document : Document) (existed : Bool) :
    Progress → CXmlFile Document × List (XmlFileOutput Document)
  | .opened => ({ file with phase := .writing document existed true }, [])
  | .finished true =>
      if existed then ({ file with phase := .cleaning document }, [])
      else (file.returned library document, [.saved document true])
  | .finished false => ({ file with phase := .removing document existed }, [])

/-- What follows a step of `copy_file` in `Load`. -/
def afterRestoring (file : CXmlFile Document) (document : Document) :
    Progress → CXmlFile Document × List (XmlFileOutput Document)
  | .opened => ({ file with phase := .restoring document true }, [])
  | .finished true => ({ file with phase := .dropping document }, [])
  | .finished false => ({ file with phase := .idle none }, [.loadFailed])

def step (library : XmlLibrary Document) (constructed : String)
    (file : CXmlFile Document) (input : XmlFileInput Document) :
    Option (CXmlFile Document × List (XmlFileOutput Document)) :=
  match file.phase, input with
  | _, .stop mainKept backupKept =>
      some
        (⟨constructed, file.main.map (·.stop mainKept),
          file.backup.map (·.stop backupKept), .idle none⟩, [])
  | .idle _, .load overwriteInvalid =>
      some (file.load library overwriteInvalid)
  | .idle (some children), .save document =>
      if library.children document = children then some (file.save document)
      else none
  | .backingUp document opened, .file input =>
      (writeStep (contentOf file.main) file.backup opened input).map
        fun (backup, progress) =>
          { file with backup := backup }.afterBackingUp library document
            progress
  | .writing document existed opened, .file input =>
      (writeStep (library.save document) file.main opened input).map
        fun (main, progress) =>
          { file with main := main }.afterWriting library document existed
            progress
  | .removing document existed, .remove =>
      let file := { file with main := none }
      if existed then some ({ file with phase := .renaming document }, [])
      else some (file.returned library document, [.saved document false])
  | .renaming document, .rename =>
      some
        ({ file with main := file.backup, backup := none }.returned library
          document, [.saved document false])
  | .cleaning document, .remove =>
      some
        ({ file with backup := none }.returned library document,
          [.saved document true])
  | .restoring document opened, .file input =>
      (writeStep (contentOf file.backup) file.main opened input).map
        fun (main, progress) =>
          { file with main := main }.afterRestoring document progress
  | .dropping document, .remove =>
      some
        ({ file with backup := none }.returned library document,
          [.loaded document])
  | _, _ => none

/-- Runs from a file that holds a complete document. -/
def machine (library : XmlLibrary Document) (constructed : String)
    (first : Document) :
    LabelledRuns.Machine (CXmlFile Document) (XmlFileInput Document)
      (XmlFileOutput Document) where
  initial file :=
    file.rootName = constructed ∧
      file.main = some ⟨library.save first, true⟩ ∧ file.phase = .idle none
  step := step library constructed

/-- The documents that `Load` may return after one more output. -/
def note (documents : List Document) :
    XmlFileOutput Document → List Document
  | .started document => documents ++ [document]
  | .saved document true => [document]
  | _ => documents

/-- The document of the last `Save` that has returned true, or the first one,
and the documents of the calls that have been started since. -/
def accepted (first : Document) (outputs : List (XmlFileOutput Document)) :
    List Document :=
  outputs.foldl note [first]

end CXmlFile

end TabFtp
