import TabFtp.XmlFileRecovery

/-!
# Settings files survive a crash

`Load` restores the file from its backup and fails if the copy cannot be
synced, but it does not remove the copy.  The next `Load` takes it for the
settings file, and the next `Save` overwrites the backup while the file itself
may still be lost.  No other run loses a document.
-/

namespace TabFtp

open DurableFiles

def XmlFileInput.Undisturbed {Document : Type}
    (input : XmlFileInput Document) : Prop :=
  input.fails = false ∧
    ∀ mainKept backupKept, input ≠ .stop mainKept backupKept

namespace CXmlFile

variable {Document : Type} {library : XmlLibrary Document}
  {constructed : String} {first : Document}

/-- Unless it is disturbed, the next `Load` returns one of these documents. -/
structure Survives (library : XmlLibrary Document) (constructed : String)
    (first : Document) (documents : List Document)
    (file : CXmlFile Document) : Prop where
  answers : ∀ input following answer,
    file.step library constructed input = some (following, answer) →
    Answers documents input answer
  nextLoad : ∀ loaded, file.phase = .idle loaded →
    ∃ more following, (∀ input ∈ more, input.Undisturbed) ∧
      ∃ document ∈ documents,
        (machine library constructed first).exec (fun _ _ => True) file
          (.load false :: more) = some (following, [.loaded document])

theorem accepted_append (outputs answer : List (XmlFileOutput Document)) :
    accepted first (outputs ++ answer) =
      answer.foldl note (accepted first outputs) :=
  List.foldl_append

theorem Invariant.start (hlibrary : library.Documented)
    (hconstructed : (acceptedRoot constructed (library.children first)).isSome)
    {file : CXmlFile Document}
    (hstart : (machine library constructed first).initial file) :
    Invariant library (library.children first) (accepted first []) file := by
  obtain ⟨hroot, hmain, hphase⟩ := hstart
  have hmem : first ∈ accepted first ([] : List (XmlFileOutput Document)) :=
    List.mem_singleton_self _
  have hsafe : Safe library (accepted first []) file.main := by
    rw [hmain]
    exact ⟨first, hmem, .saved hlibrary first⟩
  refine ⟨?_, ?_, hsafe.recoverable _, ?_⟩
  · rw [hroot]
    exact hconstructed
  · intro document hdocument
    rw [List.mem_singleton.mp hdocument]
  · unfold Underway
    rw [hphase]
    trivial

/-- In every run one of the two files has an accepted document. -/
theorem Invariant.of_reaches (hlibrary : library.Documented)
    (hconstructed : (acceptedRoot constructed (library.children first)).isSome)
    {inputs : List (XmlFileInput Document)}
    {outputs : List (XmlFileOutput Document)} {file : CXmlFile Document}
    (hreach : (machine library constructed first).ReachesWithin SavesSynced
      inputs outputs file) :
    Invariant library (library.children first) (accepted first outputs)
      file := by
  refine hreach.invariant
    (fun outputs file =>
      Invariant library (library.children first) (accepted first outputs)
        file) ?_ ?_
  · intro start hstart
    exact .start hlibrary hconstructed hstart
  · intro before current input following answer hinv hallowed hstep
    rw [accepted_append]
    exact (hinv.step hlibrary hconstructed hallowed hstep).1

/-- What a load gives has been accepted before. -/
theorem Invariant.answers {children : List String} {documents : List Document}
    {file following : CXmlFile Document} {input : XmlFileInput Document}
    {answer : List (XmlFileOutput Document)} (hlibrary : library.Documented)
    (hconstructed : (acceptedRoot constructed children).isSome)
    (hinv : Invariant library children documents file)
    (hstep : CXmlFile.step library constructed file input =
      some (following, answer)) :
    Answers documents input answer := by
  by_cases hallowed : file.SavesSynced input
  · exact (hinv.step hlibrary hconstructed hallowed hstep).2
  · have hsave : ∃ document, input = .save document := by
      cases input with
      | save document => exact ⟨document, rfl⟩
      | load overwriteInvalid => exact absurd trivial hallowed
      | file input => exact absurd trivial hallowed
      | remove => exact absurd trivial hallowed
      | rename => exact absurd trivial hallowed
      | stop mainKept backupKept => exact absurd trivial hallowed
    obtain ⟨document, rfl⟩ := hsave
    have hstarted : answer = [.started document] := by
      unfold CXmlFile.step at hstep
      split at hstep
      all_goals try contradiction
      rename_i hsave
      cases hsave
      split_ifs at hstep
      have hpair := Option.some.inj hstep
      unfold CXmlFile.save at hpair
      split at hpair
      all_goals
        cases hpair
        rfl
    rw [hstarted]
    exact .of_started document _

/-! ## The next `Load` -/

/-- The steps of an undisturbed `Load` that has to restore the file. -/
def restoreInputs (text : List UInt8) : List (XmlFileInput Document) :=
  [.file (.create true), .file (.write text.length), .file (.sync true),
    .remove]

theorem undisturbed_restoreInputs (text : List UInt8) :
    ∀ input ∈ (restoreInputs text : List (XmlFileInput Document)),
      input.Undisturbed := by
  intro input hinput
  simp only [restoreInputs, List.mem_cons, List.not_mem_nil, or_false] at hinput
  rcases hinput with rfl | rfl | rfl | rfl
  all_goals exact ⟨rfl, nofun⟩

theorem exec_restore (rootName : String) (main : Option (DiskFile UInt8))
    {backup : Option (DiskFile UInt8)} (document : Document)
    (hne : contentOf backup ≠ []) :
    (machine library constructed first).exec (fun _ _ => True)
        ⟨rootName, main, backup, .restoring document false⟩
        (restoreInputs (contentOf backup)) =
      some
        (⟨rootName, some ⟨contentOf backup, true⟩, none,
            .idle (some (library.children document))⟩,
          [.loaded document]) := by
  simp only [restoreInputs, LabelledRuns.Machine.exec, if_true, machine,
    CXmlFile.step, writeStep_create, Option.map_some, afterRestoring,
    writeStep_all hne, writeStep_sync, List.append_nil, List.nil_append,
    CXmlFile.returned]

theorem load_cases (library : XmlLibrary Document) (file : CXmlFile Document)
    (overwriteInvalid : Bool) :
    (∃ following document,
      file.load library overwriteInvalid =
        (following, [.loaded document])) ∨
      (∃ name document,
        file.load library overwriteInvalid =
          (⟨name, file.main, file.backup, .restoring document false⟩, [])) ∨
      ∃ following,
        file.load library overwriteInvalid = (following, [.loadFailed]) := by
  unfold CXmlFile.load
  split
  · exact Or.inl ⟨_, _, rfl⟩
  · split
    · exact Or.inr (Or.inl ⟨_, _, rfl⟩)
    · split_ifs
      · exact Or.inl ⟨_, _, rfl⟩
      · exact Or.inr (Or.inr ⟨_, rfl⟩)

theorem Invariant.nextLoad {children : List String}
    {documents : List Document} {file : CXmlFile Document}
    (hlibrary : library.Documented)
    (hinv : Invariant library children documents file)
    {loaded : Option (List String)} (hphase : file.phase = .idle loaded) :
    ∃ more following, (∀ input ∈ more, input.Undisturbed) ∧
      ∃ document ∈ documents,
        (machine library constructed first).exec (fun _ _ => True) file
          (.load false :: more) = some (following, [.loaded document]) := by
  have hstep : CXmlFile.step library constructed file (.load false) =
      some (file.load library false) := by
    unfold CXmlFile.step
    rw [hphase]
  have hkept := hinv.load hlibrary false
  rcases load_cases library file false with
    ⟨following, document, hload⟩ | ⟨name, document, hload⟩ |
      ⟨following, hload⟩
  · rw [hload] at hkept hstep
    have hmem : document ∈ documents :=
      hkept.2.loaded document (List.mem_singleton_self _)
    have hexec : (machine library constructed first).exec (fun _ _ => True)
        file [.load false] = some (following, [.loaded document] ++ []) :=
      LabelledRuns.Machine.exec_cons trivial hstep rfl
    exact ⟨[], following, nofun, document, hmem, hexec⟩
  · rw [hload] at hkept hstep
    obtain ⟨hmem, hwhole, -⟩ := hkept.1.underway
    exact ⟨restoreInputs (contentOf file.backup), _,
      undisturbed_restoreInputs _, document, hmem,
      LabelledRuns.Machine.exec_cons trivial hstep
        (exec_restore name file.main document hwhole.nonempty)⟩
  · rw [hload] at hkept
    have hfails : (XmlFileInput.load false : XmlFileInput Document).fails =
        true :=
      hkept.2.loadFailed (List.mem_singleton_self _)
    cases hfails

/-! ## A restored file that has not been synced -/

def siteElements : ℕ → List UInt8
  -- `</TabFTP3>`
  | 0 => [60, 47, 84, 97, 98, 70, 84, 80, 51, 62]
  -- `<S />`
  | count + 1 => [60, 83, 32, 47, 62] ++ siteElements count

/-- `<TabFTP3>`, some sites and `</TabFTP3>`. -/
def siteDocument (count : ℕ) : List UInt8 :=
  [60, 84, 97, 98, 70, 84, 80, 51, 62] ++ siteElements count

def siteLibrary : XmlLibrary ℕ where
  save := siteDocument
  loadBuffer text :=
    (List.range text.length).find? fun count => siteDocument count = text
  children _ := ["TabFTP3"]
  appendChild count _ := count
  createEmpty _ := 0

theorem siteElements_front {count other : ℕ}
    (hfront : siteElements count <+: siteElements other) : count = other := by
  induction count generalizing other with
  | zero =>
      cases other with
      | zero => rfl
      | succ other => simp [siteElements] at hfront
  | succ count ih =>
      cases other with
      | zero => simp [siteElements] at hfront
      | succ other =>
          rw [siteElements, siteElements,
            List.prefix_append_right_inj] at hfront
          rw [ih hfront]

theorem siteDocument_front {count other : ℕ}
    (hfront : siteDocument count <+: siteDocument other) : count = other :=
  siteElements_front ((List.prefix_append_right_inj _).mp hfront)

theorem lt_length_siteDocument (count : ℕ) :
    count < (siteDocument count).length := by
  have hlength : ∀ count, count < (siteElements count).length := by
    intro count
    induction count with
    | zero => decide
    | succ count ih =>
        simp only [siteElements, List.length_append, List.length_cons,
          List.length_nil]
        omega
  rw [siteDocument, List.length_append]
  exact Nat.lt_add_left _ (hlength count)

theorem siteLibrary_front (count : ℕ) (text : List UInt8)
    (hfront : text <+: siteDocument count) :
    siteLibrary.loadBuffer text = none ∨
      siteLibrary.loadBuffer text = some count := by
  cases hfound : siteLibrary.loadBuffer text with
  | none => exact Or.inl rfl
  | some found =>
      unfold siteLibrary at hfound
      have htext : siteDocument found = text :=
        of_decide_eq_true
          (@List.find?_some _ (fun count => siteDocument count = text) _ _
            hfound)
      rw [← htext] at hfront
      rw [siteDocument_front hfront]
      exact Or.inr rfl

theorem siteLibrary_documented : siteLibrary.Documented := by
  refine ⟨?_, ?_, siteLibrary_front⟩
  · intro count
    exact List.cons_ne_nil _ _
  · intro count
    rcases siteLibrary_front count _ (List.prefix_refl _) with hnone | hsome
    · have hall := List.find?_eq_none.mp hnone count
        (List.mem_range.mpr (lt_length_siteDocument count))
      exact absurd (decide_eq_true rfl) hall
    · exact hsome

def oneSite : CXmlFile ℕ :=
  ⟨"TabFTP3", some ⟨siteDocument 1, true⟩, none, .idle none⟩

/-- Two calls of `Save` are cut short; between them the file is restored
without being synced. -/
def unsyncedRestore : List (XmlFileInput ℕ) :=
  [.load false, .save 2, .file (.create true), .file (.write 24),
    .file (.sync true), .file (.create true), .stop 0 0,
    .load false, .file (.create true), .file (.write 24),
    .file (.sync false), .load false, .save 3, .file (.create true),
    .stop 0 0]

/-- Of every run in which no `Save` starts while the settings file has not
been synced. -/
theorem settings_survive (hlibrary : library.Documented)
    (hconstructed : (acceptedRoot constructed (library.children first)).isSome)
    {inputs : List (XmlFileInput Document)}
    {outputs : List (XmlFileOutput Document)} {file : CXmlFile Document}
    (hreach : (machine library constructed first).ReachesWithin SavesSynced
      inputs outputs file) :
    Survives library constructed first (accepted first outputs) file := by
  have hinv := Invariant.of_reaches hlibrary hconstructed hreach
  constructor
  · intro input following answer hstep
    exact hinv.answers hlibrary hconstructed hstep
  · intro loaded hphase
    exact hinv.nextLoad hlibrary hphase

/-- A `Save` is cut short when it begins to write the file. -/
theorem settings_survive_one_save :
    Survives siteLibrary "TabFTP3" 1 [1, 2]
      ⟨"TabFTP3", some ⟨[], true⟩, some ⟨siteDocument 1, true⟩,
        .idle none⟩ := by
  have hexec :
      (machine siteLibrary "TabFTP3" 1).exec SavesSynced oneSite
          (unsyncedRestore.take 7) =
        some
          (⟨"TabFTP3", some ⟨[], true⟩, some ⟨siteDocument 1, true⟩,
            .idle none⟩, [.loaded 1, .started 2]) := by
    decide +kernel
  have hstart : (machine siteLibrary "TabFTP3" 1).ReachesWithin SavesSynced
      [] [] oneSite :=
    .start ⟨rfl, rfl, rfl⟩
  exact settings_survive siteLibrary_documented rfl (hstart.exec hexec)

/-- The copy back is not synced before the program crashes. -/
theorem settings_lost :
    siteLibrary.Documented ∧
      (acceptedRoot "TabFTP3" (siteLibrary.children 1)).isSome ∧
      ¬ ∀ inputs outputs file,
        (machine siteLibrary "TabFTP3" 1).Reaches inputs outputs file →
        Survives siteLibrary "TabFTP3" 1 (accepted 1 outputs) file := by
  refine ⟨siteLibrary_documented, rfl, ?_⟩
  intro hall
  have hexec :
      (machine siteLibrary "TabFTP3" 1).exec (fun _ _ => True) oneSite
          unsyncedRestore =
        some
          (⟨"TabFTP3", some ⟨[], true⟩, some ⟨[], true⟩, .idle none⟩,
            [.loaded 1, .started 2, .loadFailed, .loaded 1, .started 3]) := by
    decide +kernel
  have hstart : (machine siteLibrary "TabFTP3" 1).Reaches [] [] oneSite :=
    .start ⟨rfl, rfl, rfl⟩
  have hsurvives := hall _ _ _ (hstart.exec hexec)
  have hzero : 0 ∈ [1, 2, 3] :=
    (hsurvives.answers (.load false) _ _ rfl).loaded 0
      (List.mem_singleton_self _)
  exact absurd hzero (by decide)

end CXmlFile

end TabFtp
