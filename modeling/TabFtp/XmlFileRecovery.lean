import TabFtp.XmlFile

/-!
# Recovering a settings file

At any time one of the two files holds a complete document that has been
synced, and the one that `Load` prefers holds nothing else than a front part
of a document that may be returned.  `Save` overwrites the backup first, so
this depends on the file itself being synced when `Save` starts.
-/

namespace TabFtp

open DurableFiles

theorem mem_of_acceptedRoot {rootName name : String} {children : List String}
    (haccepted : acceptedRoot rootName children = some name) :
    name ∈ children := by
  unfold acceptedRoot at haccepted
  generalize (if rootName = "TabFTP3" then "FileZilla3" else "TabFTP3") =
    fallbackRoot at haccepted
  simp only at haccepted
  split_ifs at haccepted with hroot hfallback
  · rw [← Option.some.inj haccepted]
    exact hroot
  · rw [← Option.some.inj haccepted]
    exact hfallback
  · cases children with
    | nil => cases haccepted
    | cons head rest =>
        simp only [List.head?_cons] at haccepted
        split_ifs at haccepted
        rw [← Option.some.inj haccepted]
        exact List.mem_cons_self

theorem acceptedRoot_again {rootName name : String} {children : List String}
    (haccepted : acceptedRoot rootName children = some name) :
    acceptedRoot name children = some name := by
  unfold acceptedRoot
  exact if_pos (mem_of_acceptedRoot haccepted)

namespace CXmlFile

variable {Document : Type} {library : XmlLibrary Document}
  {constructed : String} {first : Document}

structure Readable (library : XmlLibrary Document)
    (file : Option (DiskFile UInt8)) (document : Document) : Prop where
  nonempty : contentOf file ≠ []
  parsed : library.loadBuffer (contentOf file) = some document
  front : contentOf file <+: library.save document

structure Whole (library : XmlLibrary Document)
    (file : Option (DiskFile UInt8)) (document : Document) : Prop
    extends Readable library file document where
  synced : ∀ found, file = some found → found.synced = true

def Fragment (library : XmlLibrary Document) (documents : List Document)
    (file : Option (DiskFile UInt8)) : Prop :=
  ∃ document ∈ documents, contentOf file <+: library.save document

def Safe (library : XmlLibrary Document) (documents : List Document)
    (file : Option (DiskFile UInt8)) : Prop :=
  ∃ document ∈ documents, Whole library file document

structure Recoverable (library : XmlLibrary Document)
    (documents : List Document) (main backup : Option (DiskFile UInt8)) :
    Prop where
  fragment : Fragment library documents main
  safe : Safe library documents main ∨ Safe library documents backup

def Underway (library : XmlLibrary Document) (children : List String)
    (documents : List Document) (file : CXmlFile Document) : Prop :=
  match file.phase with
  | .idle none => True
  | .idle (some found) =>
      found = children ∧
        ∃ document ∈ documents, Readable library file.main document
  | .backingUp document opened =>
      document ∈ documents ∧ Safe library documents file.main ∧
        (opened = true → HoldsFront (contentOf file.main) file.backup)
  | .writing document existed opened =>
      document ∈ documents ∧ existed = true ∧
        Safe library documents file.backup ∧
        (opened = true → HoldsFront (library.save document) file.main)
  | .removing document existed =>
      document ∈ documents ∧ existed = true ∧
        Safe library documents file.backup
  | .renaming document =>
      document ∈ documents ∧ Safe library documents file.backup
  | .cleaning document =>
      document ∈ documents ∧ file.main = some ⟨library.save document, true⟩
  | .restoring document opened =>
      document ∈ documents ∧ Whole library file.backup document ∧
        (opened = true → HoldsFront (contentOf file.backup) file.main)
  | .dropping document =>
      document ∈ documents ∧ Whole library file.main document

structure Invariant (library : XmlLibrary Document) (children : List String)
    (documents : List Document) (file : CXmlFile Document) : Prop where
  rooted : (acceptedRoot file.rootName children).isSome
  sameRoot : ∀ document ∈ documents, library.children document = children
  recoverable : Recoverable library documents file.main file.backup
  underway : Underway library children documents file

def Synced (file : CXmlFile Document) : Prop :=
  ∀ found ∈ file.main, found.synced = true

instance (file : CXmlFile Document) : Decidable file.Synced :=
  inferInstanceAs (Decidable (∀ found ∈ file.main, found.synced = true))

/-- The condition on a step: a `Save` does not start while what is in the file
may still be lost. -/
def SavesSynced (file : CXmlFile Document) : XmlFileInput Document → Prop
  | .save _ => file.Synced
  | _ => True

instance (file : CXmlFile Document) (input : XmlFileInput Document) :
    Decidable (file.SavesSynced input) :=
  match input with
  | .save _ => inferInstanceAs (Decidable file.Synced)
  | .load _ => isTrue trivial
  | .file _ => isTrue trivial
  | .remove => isTrue trivial
  | .rename => isTrue trivial
  | .stop _ _ => isTrue trivial

variable {children : List String} {documents : List Document}

/-! ## Reading a file -/

theorem Safe.fragment {file : Option (DiskFile UInt8)}
    (hsafe : Safe library documents file) : Fragment library documents file := by
  obtain ⟨document, hmem, hwhole⟩ := hsafe
  exact ⟨document, hmem, hwhole.front⟩

theorem Whole.saved (hlibrary : library.Documented) (document : Document) :
    Whole library (some ⟨library.save document, true⟩) document := by
  refine ⟨⟨hlibrary.save_ne_nil document, hlibrary.loadBuffer_save document,
    List.prefix_refl _⟩, ?_⟩
  intro found hfound
  rw [← Option.some.inj hfound]

theorem Readable.copied {file : Option (DiskFile UInt8)} {document : Document}
    (hreadable : Readable library file document) :
    Whole library (some ⟨contentOf file, true⟩) document := by
  refine ⟨⟨hreadable.nonempty, hreadable.parsed, hreadable.front⟩, ?_⟩
  intro found hfound
  rw [← Option.some.inj hfound]

theorem Whole.stop {file : Option (DiskFile UInt8)} {document : Document}
    (hwhole : Whole library file document) (kept : ℕ) :
    Whole library (file.map (·.stop kept)) document := by
  cases file with
  | none => exact hwhole
  | some found =>
      have hsame : found.stop kept = found :=
        stop_of_synced (hwhole.synced found rfl) kept
      rw [Option.map_some, hsame]
      exact hwhole

theorem Fragment.stop {file : Option (DiskFile UInt8)}
    (hfragment : Fragment library documents file) (kept : ℕ) :
    Fragment library documents (file.map (·.stop kept)) := by
  obtain ⟨document, hmem, hfront⟩ := hfragment
  cases file with
  | none => exact ⟨document, hmem, hfront⟩
  | some found => exact ⟨document, hmem, (stop_front found kept).trans hfront⟩

theorem Fragment.of_holdsFront {document : Document}
    {file : Option (DiskFile UInt8)} (hmem : document ∈ documents)
    (hfront : HoldsFront (library.save document) file) :
    Fragment library documents file := by
  obtain ⟨found, rfl, hcontent⟩ := hfront
  exact ⟨document, hmem, hcontent⟩

theorem Safe.recoverable {main : Option (DiskFile UInt8)}
    (hsafe : Safe library documents main)
    (backup : Option (DiskFile UInt8)) :
    Recoverable library documents main backup :=
  ⟨hsafe.fragment, Or.inl hsafe⟩

theorem Recoverable.stop {main backup : Option (DiskFile UInt8)}
    (hrecoverable : Recoverable library documents main backup)
    (mainKept backupKept : ℕ) :
    Recoverable library documents (main.map (·.stop mainKept))
      (backup.map (·.stop backupKept)) := by
  refine ⟨hrecoverable.fragment.stop mainKept, ?_⟩
  rcases hrecoverable.safe with hmain | hbackup
  · obtain ⟨document, hmem, hwhole⟩ := hmain
    exact Or.inl ⟨document, hmem, hwhole.stop mainKept⟩
  · obtain ⟨document, hmem, hwhole⟩ := hbackup
    exact Or.inr ⟨document, hmem, hwhole.stop backupKept⟩

theorem getXmlFile_readable {rootName : String}
    {file : Option (DiskFile UInt8)} {document : Document}
    (hreadable : Readable library file document)
    (hchildren : library.children document = children)
    (hrooted : (acceptedRoot rootName children).isSome) :
    ∃ name, acceptedRoot rootName children = some name ∧
      getXmlFile library rootName file = some (document, name) := by
  obtain ⟨name, hname⟩ := Option.isSome_iff_exists.mp hrooted
  refine ⟨name, hname, ?_⟩
  unfold getXmlFile
  rw [if_neg hreadable.nonempty, hreadable.parsed]
  simp only [hchildren, hname]

theorem readable_of_getXmlFile (hlibrary : library.Documented)
    {rootName name : String} {file : Option (DiskFile UInt8)}
    {document : Document}
    (hchildren : ∀ document ∈ documents, library.children document = children)
    (hrooted : (acceptedRoot rootName children).isSome)
    (hfragment : Fragment library documents file)
    (hget : getXmlFile library rootName file = some (document, name)) :
    document ∈ documents ∧ Readable library file document ∧
      acceptedRoot rootName children = some name := by
  obtain ⟨origin, hmem, hfront⟩ := hfragment
  have hget' := hget
  unfold getXmlFile at hget
  split_ifs at hget with hempty
  rcases hlibrary.loadBuffer_front origin _ hfront with hnone | hsome
  · rw [hnone] at hget
    cases hget
  · have hreadable : Readable library file origin := ⟨hempty, hsome, hfront⟩
    obtain ⟨found, hfound, hsame⟩ :=
      getXmlFile_readable hreadable (hchildren origin hmem) hrooted
    rw [hget'] at hsame
    cases hsame
    exact ⟨hmem, hreadable, hfound⟩

/-! ## One step -/

/-- `Load` only returns one of the documents, and it fails only if the file
system does. -/
structure Answers (documents : List Document) (input : XmlFileInput Document)
    (answer : List (XmlFileOutput Document)) : Prop where
  loaded : ∀ document, .loaded document ∈ answer → document ∈ documents
  loadFailed : .loadFailed ∈ answer → input.fails = true

theorem Answers.nil (input : XmlFileInput Document) :
    Answers documents input [] := by
  constructor
  · intro document hmem
    cases hmem
  · intro hmem
    cases hmem

theorem Answers.of_loaded {document : Document} (hmem : document ∈ documents)
    (input : XmlFileInput Document) :
    Answers documents input [.loaded document] := by
  constructor
  · intro other hloaded
    cases List.mem_singleton.mp hloaded
    exact hmem
  · intro hfailed
    cases List.mem_singleton.mp hfailed

theorem Answers.of_started (document : Document)
    (input : XmlFileInput Document) :
    Answers documents input [.started document] := by
  constructor
  · intro other hloaded
    cases List.mem_singleton.mp hloaded
  · intro hfailed
    cases List.mem_singleton.mp hfailed

theorem Answers.of_saved (document : Document) (succeeded : Bool)
    (input : XmlFileInput Document) :
    Answers documents input [.saved document succeeded] := by
  constructor
  · intro other hloaded
    cases List.mem_singleton.mp hloaded
  · intro hfailed
    cases List.mem_singleton.mp hfailed

theorem Answers.of_loadFailed {input : XmlFileInput Document}
    (hfails : input.fails = true) :
    Answers documents input [.loadFailed] := by
  constructor
  · intro other hloaded
    cases List.mem_singleton.mp hloaded
  · intro _
    exact hfails

def Kept (library : XmlLibrary Document) (children : List String)
    (documents : List Document) (input : XmlFileInput Document)
    (following : CXmlFile Document)
    (answer : List (XmlFileOutput Document)) : Prop :=
  Invariant library children (answer.foldl note documents) following ∧
    Answers documents input answer

variable {file following : CXmlFile Document}
  {answer : List (XmlFileOutput Document)}

theorem Invariant.load (hlibrary : library.Documented)
    (hinv : Invariant library children documents file)
    (overwriteInvalid : Bool) :
    Kept library children documents (.load overwriteInvalid)
      (file.load library overwriteInvalid).1
      (file.load library overwriteInvalid).2 := by
  obtain ⟨hrooted, hsame, hrecoverable, -⟩ := hinv
  unfold CXmlFile.load
  cases hmain : getXmlFile library file.rootName file.main with
  | some found =>
      obtain ⟨document, name⟩ := found
      obtain ⟨hmem, hreadable, hname⟩ :=
        readable_of_getXmlFile hlibrary hsame hrooted hrecoverable.fragment
          hmain
      have hagain : (acceptedRoot name children).isSome := by
        rw [acceptedRoot_again hname]
        rfl
      exact ⟨⟨hagain, hsame, hrecoverable, hsame document hmem, document,
        hmem, hreadable⟩, .of_loaded hmem _⟩
  | none =>
      have hbackup : Safe library documents file.backup := by
        rcases hrecoverable.safe with hsafe | hsafe
        · obtain ⟨document, hmem, hwhole⟩ := hsafe
          obtain ⟨name, -, hget⟩ :=
            getXmlFile_readable hwhole.toReadable (hsame document hmem) hrooted
          rw [hget] at hmain
          cases hmain
        · exact hsafe
      obtain ⟨document, hmem, hwhole⟩ := hbackup
      obtain ⟨name, hname, hget⟩ :=
        getXmlFile_readable hwhole.toReadable (hsame document hmem) hrooted
      have hagain : (acceptedRoot name children).isSome := by
        rw [acceptedRoot_again hname]
        rfl
      rw [hget]
      exact ⟨⟨hagain, hsame, hrecoverable, hmem, hwhole, nofun⟩, .nil _⟩

theorem Invariant.save (hinv : Invariant library children documents file)
    {found : List String} (hphase : file.phase = .idle (some found))
    (hsynced : file.Synced) {document : Document}
    (hchildren : library.children document = found) :
    Kept library children documents (.save document) (file.save document).1
      (file.save document).2 := by
  obtain ⟨hrooted, hsame, hrecoverable, hunderway⟩ := hinv
  unfold Underway at hunderway
  rw [hphase] at hunderway
  obtain ⟨rfl, current, hcurrent, hreadable⟩ := hunderway
  have hsub : documents ⊆ documents ++ [document] :=
    List.subset_append_left _ _
  have hsafe : Safe library (documents ++ [document]) file.main :=
    ⟨current, hsub hcurrent, hreadable, hsynced⟩
  have hsame' : ∀ other ∈ documents ++ [document],
      library.children other = found := by
    intro other hother
    rcases List.mem_append.mp hother with hold | hnew
    · exact hsame other hold
    · rw [List.mem_singleton.mp hnew]
      exact hchildren
  have hexists : ∃ main, file.main = some main := by
    cases hmain : file.main with
    | none =>
        rw [hmain] at hreadable
        exact absurd rfl hreadable.nonempty
    | some main => exact ⟨main, rfl⟩
  obtain ⟨main, hmain⟩ := hexists
  have hlast : document ∈ documents ++ [document] :=
    List.mem_append_right _ (List.mem_singleton_self _)
  rw [hmain] at hsafe
  unfold CXmlFile.save
  rw [hmain]
  refine ⟨⟨hrooted, hsame', ?_, hlast, ?_, nofun⟩, .of_started _ _⟩
  · exact hsafe.recoverable _
  · exact hsafe

theorem Invariant.backingUp
    (hinv : Invariant library children documents file)
    {document : Document} {opened : Bool}
    (hphase : file.phase = .backingUp document opened) {input : WriteInput}
    {backup : Option (DiskFile UInt8)} {progress : Progress}
    (hwrite : writeStep (contentOf file.main) file.backup opened input =
      some (backup, progress)) :
    Kept library children documents (.file input)
      ({ file with backup := backup }.afterBackingUp library document
        progress).1
      ({ file with backup := backup }.afterBackingUp library document
        progress).2 := by
  obtain ⟨hrooted, hsame, -, hunderway⟩ := hinv
  unfold Underway at hunderway
  rw [hphase] at hunderway
  obtain ⟨hmem, hsafe, hopened⟩ := hunderway
  have hrecoverable : Recoverable library documents file.main backup :=
    hsafe.recoverable backup
  rcases writeStep_cases hopened hwrite with
    ⟨rfl, hfront⟩ | ⟨rfl, -, -⟩ | ⟨rfl, rfl⟩
  · exact ⟨⟨hrooted, hsame, hrecoverable, hmem, hsafe,
      fun _ => hfront⟩, .nil _⟩
  · obtain ⟨current, hcurrent, hwhole⟩ := hsafe
    exact ⟨⟨hrooted, hsame, hrecoverable, hsame document hmem, current,
      hcurrent, hwhole.toReadable⟩, .of_saved _ _ _⟩
  · obtain ⟨current, hcurrent, hwhole⟩ := hsafe
    have hcopy : Safe library documents (some ⟨contentOf file.main, true⟩) :=
      ⟨current, hcurrent, hwhole.copied⟩
    exact ⟨⟨hrooted, hsame, hrecoverable, hmem, rfl, hcopy, nofun⟩,
      .nil _⟩

theorem Invariant.writing (hlibrary : library.Documented)
    (hinv : Invariant library children documents file)
    {document : Document} {existed opened : Bool}
    (hphase : file.phase = .writing document existed opened)
    {input : WriteInput} {main : Option (DiskFile UInt8)}
    {progress : Progress}
    (hwrite : writeStep (library.save document) file.main opened input =
      some (main, progress)) :
    Kept library children documents (.file input)
      ({ file with main := main }.afterWriting library document existed
        progress).1
      ({ file with main := main }.afterWriting library document existed
        progress).2 := by
  obtain ⟨hrooted, hsame, hrecoverable, hunderway⟩ := hinv
  unfold Underway at hunderway
  rw [hphase] at hunderway
  obtain ⟨hmem, rfl, hsafe, hopened⟩ := hunderway
  rcases writeStep_cases hopened hwrite with
    ⟨rfl, hfront⟩ | ⟨rfl, -, hafter⟩ | ⟨rfl, rfl⟩
  · exact ⟨⟨hrooted, hsame, ⟨.of_holdsFront hmem hfront, Or.inr hsafe⟩, hmem,
      rfl, hsafe, fun _ => hfront⟩, .nil _⟩
  · have hfragment : Fragment library documents main := by
      rcases hafter with rfl | hfront
      · exact hrecoverable.fragment
      · exact .of_holdsFront hmem hfront
    exact ⟨⟨hrooted, hsame, ⟨hfragment, Or.inr hsafe⟩, hmem, rfl, hsafe⟩,
      .nil _⟩
  · have hmain : Safe library documents (some ⟨library.save document, true⟩) :=
      ⟨document, hmem, .saved hlibrary document⟩
    exact ⟨⟨hrooted, hsame, hmain.recoverable _, hmem, rfl⟩, .nil _⟩

theorem Invariant.restoring
    (hinv : Invariant library children documents file)
    {document : Document} {opened : Bool}
    (hphase : file.phase = .restoring document opened) {input : WriteInput}
    {main : Option (DiskFile UInt8)} {progress : Progress}
    (hwrite : writeStep (contentOf file.backup) file.main opened input =
      some (main, progress)) :
    Kept library children documents (.file input)
      ({ file with main := main }.afterRestoring document progress).1
      ({ file with main := main }.afterRestoring document progress).2 := by
  obtain ⟨hrooted, hsame, hrecoverable, hunderway⟩ := hinv
  unfold Underway at hunderway
  rw [hphase] at hunderway
  obtain ⟨hmem, hwhole, hopened⟩ := hunderway
  have hsafe : Safe library documents file.backup := ⟨document, hmem, hwhole⟩
  have hfragment : HoldsFront (contentOf file.backup) main →
      Fragment library documents main := by
    intro hfront
    obtain ⟨found, rfl, hcontent⟩ := hfront
    exact ⟨document, hmem, hcontent.trans hwhole.front⟩
  rcases writeStep_cases hopened hwrite with
    ⟨rfl, hfront⟩ | ⟨rfl, hfails, hafter⟩ | ⟨rfl, rfl⟩
  · exact ⟨⟨hrooted, hsame, ⟨hfragment hfront, Or.inr hsafe⟩, hmem, hwhole,
      fun _ => hfront⟩, .nil _⟩
  · have hkept : Fragment library documents main := by
      rcases hafter with rfl | hfront
      · exact hrecoverable.fragment
      · exact hfragment hfront
    exact ⟨⟨hrooted, hsame, ⟨hkept, Or.inr hsafe⟩, trivial⟩,
      .of_loadFailed hfails⟩
  · have hmain : Safe library documents (some ⟨contentOf file.backup, true⟩) :=
      ⟨document, hmem, hwhole.copied⟩
    exact ⟨⟨hrooted, hsame, hmain.recoverable _, hmem, hwhole.copied⟩, .nil _⟩

theorem Invariant.removing (hinv : Invariant library children documents file)
    {document : Document} {existed : Bool}
    (hphase : file.phase = .removing document existed) :
    existed = true ∧
      Invariant library children documents
        { file with main := none, phase := .renaming document } := by
  obtain ⟨hrooted, hsame, -, hunderway⟩ := hinv
  unfold Underway at hunderway
  rw [hphase] at hunderway
  obtain ⟨hmem, hexisted, hsafe⟩ := hunderway
  have hnothing : Fragment library documents none :=
    ⟨document, hmem, List.nil_prefix⟩
  exact ⟨hexisted, hrooted, hsame, ⟨hnothing, Or.inr hsafe⟩, hmem, hsafe⟩

theorem Invariant.returned (hinv : Invariant library children documents file)
    {main backup : Option (DiskFile UInt8)} {document : Document}
    (hmem : document ∈ documents) (hsafe : Safe library documents main) :
    Invariant library children documents
      ({ file with main := main, backup := backup }.returned library
        document) := by
  have hrecoverable : Recoverable library documents main backup :=
    hsafe.recoverable backup
  obtain ⟨current, hcurrent, hwhole⟩ := hsafe
  exact ⟨hinv.rooted, hinv.sameRoot, hrecoverable,
    hinv.sameRoot document hmem, current, hcurrent, hwhole.toReadable⟩

theorem Invariant.renaming (hinv : Invariant library children documents file)
    {document : Document} (hphase : file.phase = .renaming document) :
    Invariant library children documents
      ({ file with main := file.backup, backup := none }.returned library
        document) := by
  have hunderway := hinv.underway
  unfold Underway at hunderway
  rw [hphase] at hunderway
  exact hinv.returned hunderway.1 hunderway.2

theorem Invariant.cleaning (hlibrary : library.Documented)
    (hinv : Invariant library children documents file)
    {document : Document} (hphase : file.phase = .cleaning document) :
    Invariant library children [document]
      ({ file with backup := none }.returned library document) := by
  obtain ⟨hrooted, hsame, -, hunderway⟩ := hinv
  unfold Underway at hunderway
  rw [hphase] at hunderway
  obtain ⟨hmem, hmain⟩ := hunderway
  have hsafe : Safe library [document] file.main := by
    rw [hmain]
    exact ⟨document, List.mem_singleton_self _, .saved hlibrary document⟩
  have honly : ∀ other ∈ [document], library.children other = children := by
    intro other hother
    rw [List.mem_singleton.mp hother]
    exact hsame document hmem
  have hcleaned : Invariant library children [document]
      { file with phase := .idle none } :=
    ⟨hrooted, honly, hsafe.recoverable _, trivial⟩
  exact hcleaned.returned (List.mem_singleton_self _) hsafe

theorem Invariant.dropping (hinv : Invariant library children documents file)
    {document : Document} (hphase : file.phase = .dropping document) :
    document ∈ documents ∧
      Invariant library children documents
        ({ file with backup := none }.returned library document) := by
  have hunderway := hinv.underway
  unfold Underway at hunderway
  rw [hphase] at hunderway
  exact ⟨hunderway.1,
    hinv.returned hunderway.1 ⟨document, hunderway.1, hunderway.2⟩⟩

theorem Invariant.stop (hinv : Invariant library children documents file)
    (hconstructed : (acceptedRoot constructed children).isSome)
    (mainKept backupKept : ℕ) :
    Invariant library children documents
      ⟨constructed, file.main.map (·.stop mainKept),
        file.backup.map (·.stop backupKept), .idle none⟩ :=
  ⟨hconstructed, hinv.sameRoot, hinv.recoverable.stop mainKept backupKept,
    trivial⟩

theorem Invariant.step (hlibrary : library.Documented)
    (hconstructed : (acceptedRoot constructed children).isSome)
    (hinv : Invariant library children documents file)
    {input : XmlFileInput Document} (hallowed : file.SavesSynced input)
    (hstep : CXmlFile.step library constructed file input =
      some (following, answer)) :
    Kept library children documents input following answer := by
  unfold CXmlFile.step at hstep
  split at hstep
  · rename_i mainKept backupKept
    cases hstep
    exact ⟨hinv.stop hconstructed mainKept backupKept, .nil _⟩
  · rename_i overwriteInvalid hphase
    have hkept := hinv.load hlibrary overwriteInvalid
    rw [Option.some.inj hstep] at hkept
    exact hkept
  · rename_i found document hphase
    split_ifs at hstep with hchildren
    have hkept := hinv.save hphase hallowed hchildren
    rw [Option.some.inj hstep] at hkept
    exact hkept
  · rename_i document opened input hphase
    obtain ⟨⟨written, progress⟩, hwrite, hpair⟩ :=
      Option.map_eq_some_iff.mp hstep
    dsimp only at hpair
    have hkept := hinv.backingUp hphase hwrite
    rw [hpair] at hkept
    exact hkept
  · rename_i document existed opened input hphase
    obtain ⟨⟨written, progress⟩, hwrite, hpair⟩ :=
      Option.map_eq_some_iff.mp hstep
    dsimp only at hpair
    have hkept := hinv.writing hlibrary hphase hwrite
    rw [hpair] at hkept
    exact hkept
  · rename_i document existed hphase
    obtain ⟨rfl, hfollowing⟩ := hinv.removing hphase
    cases hstep
    exact ⟨hfollowing, .nil _⟩
  · rename_i document hphase
    cases hstep
    exact ⟨hinv.renaming hphase, .of_saved _ _ _⟩
  · rename_i document hphase
    cases hstep
    exact ⟨hinv.cleaning hlibrary hphase, .of_saved _ _ _⟩
  · rename_i document opened input hphase
    obtain ⟨⟨written, progress⟩, hwrite, hpair⟩ :=
      Option.map_eq_some_iff.mp hstep
    dsimp only at hpair
    have hkept := hinv.restoring hphase hwrite
    rw [hpair] at hkept
    exact hkept
  · rename_i document hphase
    obtain ⟨hmem, hfollowing⟩ := hinv.dropping hphase
    cases hstep
    exact ⟨hfollowing, .of_loaded hmem _⟩
  · cases hstep

end CXmlFile

end TabFtp
