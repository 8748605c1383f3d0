import TabFtp.FtpFileTransfer
import TabFtp.ServerPathComparisons
import Mathlib.Data.List.Count

/-!
# Listings with hidden files

`LIST -a` is tried once for each server, after a plain `LIST`.  Its listing
is taken if `CheckInclusion` finds all names of the plain one in it.
-/

namespace TabFtp

namespace DirectoryListing

def filenames (listing : DirectoryListing) : List WString :=
  listing.entries.map DirectoryEntry.name

/-- `std::sort` -/
def sortNames (names : List WString) : List WString :=
  names.mergeSort fun left right => (compareStrings left right).isLE

/-- The loop of `CheckInclusion` on the names that `iter1` has not passed. -/
def inclusionWalk (names2 : List WString) : List WString → ℕ → Bool
  | [], iter2 =>
      decide (iter2 = 0)
  | name :: names1, iter2 =>
      -- the condition of the loop is `iter2 != names2.cbegin()`
      if iter2 = 0 then true
      else if names2[iter2]? ≠ some name then inclusionWalk names2 names1 iter2
      else inclusionWalk names2 names1 (iter2 + 1)

def checkInclusion (listing1 listing2 : DirectoryListing) : Bool :=
  if listing2.size > listing1.size then false
  else
    inclusionWalk (sortNames listing2.filenames) (sortNames listing1.filenames)
      0

/-- Every name of the second listing occurs in the first one at least as
often. -/
def Included (listing1 listing2 : DirectoryListing) : Prop :=
  ∀ name, listing2.filenames.count name ≤ listing1.filenames.count name

variable {listing1 listing2 : DirectoryListing}

theorem Included.size_le (hincluded : Included listing1 listing2) :
    listing2.size ≤ listing1.size := by
  have hsubperm : listing2.filenames.Subperm listing1.filenames := by
    rw [List.subperm_ext_iff]
    intro name _
    exact hincluded name
  have hlength := hsubperm.length_le
  simpa [filenames, size] using hlength

/-- The loop is left before its first round. -/
theorem inclusionWalk_begin (names2 names1 : List WString) :
    inclusionWalk names2 names1 0 = true := by
  cases names1 with
  | nil => rfl
  | cons name names1 => rfl

theorem checkInclusion_iff :
    checkInclusion listing1 listing2 = true ↔
      listing2.size ≤ listing1.size := by
  unfold checkInclusion
  split
  · rename_i hmore
    simp only [Bool.false_eq_true, false_iff]
    omega
  · rename_i hmore
    rw [inclusionWalk_begin]
    simp only [true_iff]
    omega

theorem checkInclusion_of_included (hincluded : Included listing1 listing2) :
    checkInclusion listing1 listing2 = true :=
  checkInclusion_iff.mpr hincluded.size_le

end DirectoryListing

open DirectoryListing (checkInclusion Included)

/-- The part of `CFtpListOpData` that decides between the two listings, with
the capability `list_hidden_support` of its server. -/
structure FtpListOp where
  currentPath : ServerPath
  viewHiddenCheck : Bool
  viewHidden : Bool
  directoryListing : DirectoryListing
  listHiddenSupport : CapabilityState

inductive ListTransferResult
  /-- what `Parse` makes of the data -/
  | received (listing : DirectoryListing)
  | failed (commandSent : Bool) (response : WString)
      (reason : TransferEndReason) (now : ℤ)

inductive ListResult
  /-- `LIST -a` is sent -/
  | repeats
  /-- The listing goes to the directory cache. -/
  | stores (listing : DirectoryListing)
  | fails

namespace FtpListOp

def isMisleadingListResponse (folding : NameFolding) (response : WString) :
    Bool :=
  folding.same response "550 No members found.".toList ||
    folding.same response "550 No data sets found.".toList ||
      FileTransfer.lowerAscii response = "550 no files found.".toList

/-- The end of `Send` in the state `list_waitlock`. -/
def sendList (op : FtpListOp) (mlsdCommand : CapabilityState)
    (viewHiddenFiles : Bool) : FtpListOp × WString :=
  if mlsdCommand = .yes then (op, "MLSD".toList)
  else
    let checked :=
      if viewHiddenFiles then
        match op.listHiddenSupport with
        | .unknown => { op with viewHiddenCheck := true }
        | .yes => { op with viewHidden := true }
        | .no => op
      else op
    (checked, if checked.viewHidden then "LIST -a".toList else "LIST".toList)

def emptyListing (op : FtpListOp) (now : ℤ) : DirectoryListing :=
  { path := op.currentPath, firstListTime := now, entries := []
    searchmapCase := none, searchmapNocase := none, flags := 0 }

/-- `SubcommandResult` in the state `list_waittransfer` -/
def subcommandResult (folding : NameFolding) (op : FtpListOp) :
    ListTransferResult → ListResult × FtpListOp
  | .received listing =>
      if op.viewHiddenCheck then
        if !op.viewHidden then
          (.repeats, { op with viewHidden := true, directoryListing := listing })
        else if checkInclusion listing op.directoryListing then
          (.stores listing, { op with listHiddenSupport := .yes })
        else
          (.stores op.directoryListing, { op with listHiddenSupport := .no })
      else (.stores listing, op)
  | .failed commandSent response reason now =>
      if commandSent && isMisleadingListResponse folding response then
        let listing := op.emptyListing now
        if op.viewHiddenCheck then
          if op.viewHidden then
            if op.directoryListing.size ≠ 0 then
              (.stores op.directoryListing,
                { op with listHiddenSupport := .no })
            else (.stores listing, { op with listHiddenSupport := .yes })
          else
            (.repeats,
              { op with viewHidden := true, directoryListing := listing })
        else (.stores listing, op)
      else if op.viewHiddenCheck && op.viewHidden &&
          decide (reason = .transferCommandFailureImmediate) then
        (.stores op.directoryListing, { op with listHiddenSupport := .no })
      else (.fails, op)

/-- The transfers of an operation one after the other. -/
def run (folding : NameFolding) :
    FtpListOp → List ListTransferResult → ListResult × FtpListOp
  | op, [] => (.repeats, op)
  | op, result :: results =>
      match op.subcommandResult folding result with
      | (.repeats, repeated) => run folding repeated results
      | ended => ended

/-- The listing that a transfer has given. -/
def listingOf (folding : NameFolding) (op : FtpListOp) :
    ListTransferResult → Option DirectoryListing
  | .received listing => some listing
  | .failed commandSent response _ now =>
      if commandSent && isMisleadingListResponse folding response then
        some (op.emptyListing now)
      else none

/-- Support of `LIST -a` is recorded only if its listing has all names of the
plain one, which is kept otherwise.  A `LIST -a` that is refused at once gives
no listing to compare: there the plain one is kept in any case. -/
def DecidesOn (folding : NameFolding)
    (hidden plain : DirectoryListing) : Prop :=
  ∀ (op : FtpListOp) (mlsdCommand : CapabilityState) (viewHiddenFiles : Bool)
    (first second : ListTransferResult),
    op.viewHiddenCheck = false → op.viewHidden = false →
    let sent := (op.sendList mlsdCommand viewHiddenFiles).1
    sent.viewHiddenCheck = true →
    listingOf folding sent first = some plain →
    listingOf folding sent second = some hidden →
    let ended := sent.run folding [first, second]
    (ended.2.listHiddenSupport = .yes → Included hidden plain) ∧
      (ended.2.listHiddenSupport ≠ .yes → ended.1 = .stores plain)

variable {folding : NameFolding} {op : FtpListOp}
  {first second : ListTransferResult} {hidden plain : DirectoryListing}

theorem sendList_checks {mlsdCommand : CapabilityState}
    {viewHiddenFiles : Bool} (hplain : op.viewHidden = false)
    (hnew : op.viewHiddenCheck = false)
    (hchecks : (op.sendList mlsdCommand viewHiddenFiles).1.viewHiddenCheck =
      true) :
    (op.sendList mlsdCommand viewHiddenFiles).1.viewHidden = false := by
  unfold sendList at hchecks ⊢
  split at hchecks
  · rw [hnew] at hchecks
    contradiction
  · rename_i hmlsd
    rw [if_neg hmlsd]
    cases viewHiddenFiles with
    | false => exact hplain
    | true =>
        cases hsupport : op.listHiddenSupport with
        | unknown => simpa [hsupport] using hplain
        | yes => simp [hsupport, hnew] at hchecks
        | no => simpa [hsupport] using hplain

/-- The first listing is put aside. -/
theorem subcommandResult_first (hchecks : op.viewHiddenCheck = true)
    (hplain : op.viewHidden = false)
    (hfirst : listingOf folding op first = some plain) :
    op.subcommandResult folding first =
      (.repeats,
        { op with viewHidden := true, directoryListing := plain }) := by
  cases first with
  | received listing =>
      simp only [listingOf, Option.some.injEq] at hfirst
      simp [subcommandResult, hchecks, hplain, hfirst]
  | failed commandSent response reason now =>
      simp only [listingOf] at hfirst
      split at hfirst
      · rename_i hmisleading
        simp only [Option.some.injEq] at hfirst
        simp only [subcommandResult, hmisleading, hchecks, hplain, hfirst,
          if_true, Bool.false_eq_true, if_false]
      · contradiction

theorem checkInclusion_empty (op : FtpListOp) (now : ℤ)
    (plain : DirectoryListing) :
    checkInclusion (op.emptyListing now) plain = decide (plain.size = 0) := by
  rw [Bool.eq_iff_iff, DirectoryListing.checkInclusion_iff, decide_eq_true_iff]
  exact Nat.le_zero

/-- The second listing is compared with the one put aside, also if the server
has only said that there are no files. -/
theorem subcommandResult_second (hchecks : op.viewHiddenCheck = true)
    (hhidden : op.viewHidden = true)
    (hsecond : listingOf folding op second = some hidden) :
    op.subcommandResult folding second =
      if checkInclusion hidden op.directoryListing then
        (.stores hidden, { op with listHiddenSupport := .yes })
      else
        (.stores op.directoryListing,
          { op with listHiddenSupport := .no }) := by
  cases second with
  | received listing =>
      simp only [listingOf, Option.some.injEq] at hsecond
      simp [subcommandResult, hchecks, hhidden, hsecond]
  | failed commandSent response reason now =>
      simp only [listingOf] at hsecond
      split at hsecond
      · rename_i hmisleading
        simp only [Option.some.injEq] at hsecond
        subst hsecond
        rw [checkInclusion_empty]
        simp only [subcommandResult, hmisleading, hchecks, hhidden, if_true]
        by_cases hsize : op.directoryListing.size = 0
        · simp [hsize]
        · simp [hsize]
      · contradiction

theorem run_two (hchecks : op.viewHiddenCheck = true)
    (hplain : op.viewHidden = false)
    (hfirst : listingOf folding op first = some plain)
    (hsecond : listingOf folding op second = some hidden) :
    op.run folding [first, second] =
      if checkInclusion hidden plain then
        (.stores hidden,
          { op with viewHidden := true, directoryListing := plain,
                    listHiddenSupport := .yes })
      else
        (.stores plain,
          { op with viewHidden := true, directoryListing := plain,
                    listHiddenSupport := .no }) := by
  have hlater : listingOf folding
      { op with viewHidden := true, directoryListing := plain } second =
        some hidden := by
    cases second with
    | received listing => exact hsecond
    | failed commandSent response reason now => exact hsecond
  have hlast := @subcommandResult_second folding
    { op with viewHidden := true, directoryListing := plain } second hidden
    hchecks rfl hlater
  rw [run, subcommandResult_first hchecks hplain hfirst]
  simp only [run]
  rw [hlast]
  cases checkInclusion hidden plain with
  | true => rfl
  | false => rfl

/-- The operation decides right if the test does. -/
theorem decidesOn_of_exact
    (hexact : checkInclusion hidden plain = true → Included hidden plain) :
    DecidesOn folding hidden plain := by
  intro op mlsdCommand viewHiddenFiles first second hnew hplain sent hchecks
    hfirst hsecond
  have hstart : sent.viewHidden = false :=
    sendList_checks hplain hnew hchecks
  rw [run_two hchecks hstart hfirst hsecond]
  by_cases hincluded : checkInclusion hidden plain = true
  · rw [if_pos hincluded]
    exact ⟨fun _ => hexact hincluded, fun hno => absurd rfl hno⟩
  · rw [if_neg hincluded]
    exact ⟨fun hyes => CapabilityState.noConfusion hyes, fun _ => rfl⟩

/-- The test looks at the sizes only. -/
theorem inclusion_decided_iff (folding : NameFolding)
    (hidden plain : DirectoryListing) :
    ((checkInclusion hidden plain = true ↔ Included hidden plain) ∧
        DecidesOn folding hidden plain) ↔
      (hidden.size < plain.size ∨ Included hidden plain) := by
  constructor
  · rintro ⟨hexact, -⟩
    rcases Nat.lt_or_ge hidden.size plain.size with hmore | hsize
    · exact .inl hmore
    · exact .inr (hexact.mp (DirectoryListing.checkInclusion_iff.mpr hsize))
  · intro hcondition
    have hexact : checkInclusion hidden plain = true ↔
        Included hidden plain := by
      constructor
      · intro htest
        have hsize := DirectoryListing.checkInclusion_iff.mp htest
        rcases hcondition with hmore | hincluded
        · omega
        · exact hincluded
      · exact DirectoryListing.checkInclusion_of_included
    exact ⟨hexact, decidesOn_of_exact hexact.mp⟩

/-- A directory listing with one file. -/
def listingWith (name : WString) : DirectoryListing :=
  { path := { data := none, type := .unix }, firstListTime := 0
    entries :=
      [{ name := name, size := 0, permissions := [], ownerGroup := []
         target := none, time := none, flags := 0 }]
    searchmapCase := none, searchmapNocase := none, flags := 0 }

/-- `file` is not found in a listing that has `-a` only, yet the test says
so, and the operation takes that listing. -/
theorem other_names_included :
    checkInclusion (listingWith "-a".toList) (listingWith "file".toList) =
        true ∧
      ¬ Included (listingWith "-a".toList) (listingWith "file".toList) ∧
      ∀ folding, ¬ DecidesOn folding (listingWith "-a".toList)
        (listingWith "file".toList) := by
  have hnot :
      ¬ Included (listingWith "-a".toList) (listingWith "file".toList) := by
    intro hincluded
    have hcount := hincluded "file".toList
    revert hcount
    decide
  refine ⟨DirectoryListing.checkInclusion_iff.mpr (le_refl 1), hnot, ?_⟩
  intro folding hdecides
  let op : FtpListOp :=
    { currentPath := { data := none, type := .unix }, viewHiddenCheck := false
      viewHidden := false, directoryListing := listingWith []
      listHiddenSupport := .unknown }
  have hrecorded := (hdecides op .no true
    (.received (listingWith "file".toList))
    (.received (listingWith "-a".toList)) rfl rfl rfl rfl rfl).1
  refine hnot (hrecorded ?_)
  have hrun := @run_two folding { op with viewHiddenCheck := true }
    (.received (listingWith "file".toList))
    (.received (listingWith "-a".toList)) (listingWith "-a".toList)
    (listingWith "file".toList) rfl rfl rfl rfl
  rw [if_pos (DirectoryListing.checkInclusion_iff.mpr (le_refl 1))] at hrun
  exact congrArg (fun ended => ended.2.listHiddenSupport) hrun

end FtpListOp

end TabFtp
