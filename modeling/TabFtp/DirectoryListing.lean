import TabFtp.ServerPathContainment

/-!
# Directory listings

A listing has its entries in a vector and, besides, two maps from names to
indexes that are built while names are looked up.  The flags of a listing
record in what way it has been changed since the server has sent it.
-/

namespace TabFtp

structure Datetime where
  value : ℤ
  accuracy : ℕ
  deriving DecidableEq

/-- `CDirentry` -/
structure DirectoryEntry where
  name : WString
  size : ℤ
  permissions : WString
  ownerGroup : WString
  target : Option WString
  time : Option Datetime
  flags : ℕ
  deriving DecidableEq

namespace DirectoryEntry

def flagDir : ℕ := 1

def flagLink : ℕ := 2

def flagUnsure : ℕ := 4

def isDir (entry : DirectoryEntry) : Bool :=
  entry.flags &&& flagDir != 0

def markUnsure (entry : DirectoryEntry) : DirectoryEntry :=
  { entry with flags := entry.flags ||| flagUnsure }

@[simp] theorem markUnsure_name (entry : DirectoryEntry) :
    entry.markUnsure.name = entry.name := rfl

@[simp] theorem markUnsure_isDir (entry : DirectoryEntry) :
    entry.markUnsure.isDir = entry.isDir := by
  simp [isDir, markUnsure, flagDir, flagUnsure]

end DirectoryEntry

/-- What a listing uses of the string library. -/
structure NameFolding where
  /-- `!fz::stricmp` -/
  same : WString → WString → Bool
  /-- `fz::str_tolower` -/
  lower : WString → WString

/-- An `unordered_multimap` from names to indexes, in which a name that is
already there is put in front of the others. -/
abbrev SearchMap := List (WString × ℕ)

structure DirectoryListing where
  path : ServerPath
  firstListTime : ℤ
  entries : List DirectoryEntry
  searchmapCase : Option SearchMap
  searchmapNocase : Option SearchMap
  flags : ℕ
  deriving DecidableEq

namespace DirectoryListing

def unsureFileAdded : ℕ := 0x01

def unsureFileRemoved : ℕ := 0x02

def unsureFileChanged : ℕ := 0x04

def unsureDirAdded : ℕ := 0x08

def unsureDirRemoved : ℕ := 0x10

def unsureDirChanged : ℕ := 0x20

def unsureUnknown : ℕ := 0x40

def unsureInvalid : ℕ := 0x80

def unsureMask : ℕ := 0xff

def listingHasDirs : ℕ := 0x200

def unsureFlags (listing : DirectoryListing) : ℕ :=
  listing.flags &&& unsureMask

def size (listing : DirectoryListing) : ℕ :=
  listing.entries.length

/-- `m_flags |= flag` -/
def addFlag (listing : DirectoryListing) (flag : ℕ) : DirectoryListing :=
  { listing with flags := listing.flags ||| flag }

def append (listing : DirectoryListing) (entry : DirectoryEntry) :
    DirectoryListing :=
  { listing with entries := listing.entries ++ [entry] }

def clearFindMap (listing : DirectoryListing) : DirectoryListing :=
  match listing.searchmapCase with
  | none => listing
  | some _ => { listing with searchmapCase := none, searchmapNocase := none }

def removeEntry (listing : DirectoryListing) (index : ℕ) :
    DirectoryListing :=
  match listing.entries[index]? with
  | none => listing
  | some entry =>
      { listing with
        entries := listing.entries.eraseIdx index
        searchmapCase := none
        searchmapNocase := none
        flags := listing.flags |||
          if entry.isDir then unsureDirRemoved else unsureFileRemoved }

/-! ## Looking up names -/

def extendMap (fold : WString → WString) (name : WString) :
    List DirectoryEntry → ℕ → SearchMap → Option ℕ × SearchMap
  | [], _, map => (none, map)
  | entry :: entries, i, map =>
      let map := (fold entry.name, i) :: map
      if fold entry.name = name then (some i, map)
      else extendMap fold name entries (i + 1) map

def findFile (fold : WString → WString) (entries : List DirectoryEntry)
    (searchmap : Option SearchMap) (name : WString) :
    Option ℕ × Option SearchMap :=
  if entries.isEmpty then (none, searchmap)
  else
    let map := searchmap.getD []
    match map.lookup (fold name) with
    | some i => (some i, some map)
    | none =>
        if map.length = entries.length then (none, some map)
        else
          let found := extendMap fold (fold name) (entries.drop map.length)
            map.length map
          (found.1, some found.2)

def findFileCmpCase (listing : DirectoryListing) (name : WString) :
    Option ℕ × DirectoryListing :=
  let found := findFile id listing.entries listing.searchmapCase name
  (found.1, { listing with searchmapCase := found.2 })

def findFileCmpNoCase (folding : NameFolding) (listing : DirectoryListing)
    (name : WString) : Option ℕ × DirectoryListing :=
  let found :=
    findFile folding.lower listing.entries listing.searchmapNocase name
  (found.1, { listing with searchmapNocase := found.2 })

def indexOf (listing : DirectoryListing) (name : WString) : Option ℕ :=
  listing.entries.findIdx? fun entry => entry.name == name

def entryOf (listing : DirectoryListing) (name : WString) :
    Option DirectoryEntry :=
  listing.entries.find? fun entry => entry.name == name

variable {listing : DirectoryListing}

@[simp] theorem addFlag_path (listing : DirectoryListing) (flag : ℕ) :
    (listing.addFlag flag).path = listing.path := rfl

@[simp] theorem addFlag_entries (listing : DirectoryListing) (flag : ℕ) :
    (listing.addFlag flag).entries = listing.entries := rfl

@[simp] theorem append_path
    (listing : DirectoryListing) (entry : DirectoryEntry) :
    (listing.append entry).path = listing.path := rfl

theorem unsureFlags_or (flags flag : ℕ) :
    (flags ||| flag) &&& unsureMask ≠ 0 ↔
      flags &&& unsureMask ≠ 0 ∨ flag &&& unsureMask ≠ 0 := by
  rw [Nat.and_or_distrib_right, ne_eq, Nat.or_eq_zero_iff]
  exact Classical.not_and_iff_not_or_not

theorem unsureFlags_addFlag (listing : DirectoryListing) (flag : ℕ) :
    (listing.addFlag flag).unsureFlags ≠ 0 ↔
      listing.unsureFlags ≠ 0 ∨ flag &&& unsureMask ≠ 0 :=
  unsureFlags_or listing.flags flag

@[simp] theorem removeEntry_path (listing : DirectoryListing) (index : ℕ) :
    (listing.removeEntry index).path = listing.path := by
  unfold removeEntry
  split <;> rfl

theorem removeEntry_unsure {index : ℕ} (hindex : index < listing.size) :
    (listing.removeEntry index).unsureFlags ≠ 0 := by
  unfold removeEntry
  rw [List.getElem?_eq_getElem hindex]
  simp only
  unfold unsureFlags
  rw [unsureFlags_or]
  right
  split <;> decide

theorem removeEntry_size {index : ℕ} (hindex : index < listing.size) :
    (listing.removeEntry index).size + 1 = listing.size := by
  unfold removeEntry
  rw [List.getElem?_eq_getElem hindex]
  unfold size at hindex ⊢
  simp only
  rw [List.length_eraseIdx_of_lt hindex]
  omega

end DirectoryListing

end TabFtp
