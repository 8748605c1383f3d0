import TabFtp.AlignedMerge
import TabFtp.FileListCtrl
import Mathlib.Data.List.TakeWhile

/-!
# Directory comparison

`CComparisonManager::CompareListings` merges the rows of the local and of the
remote list by `CompareFiles` and shows both lists side by side.  The merge is
right for rows in the order of `CompareFiles`.  The parent row is the first of
its list wherever that order has its name, and natural sorting treats names
that differ in case as equal, so that lists as they are displayed need not be
in that order.
-/

namespace TabFtp

/-- What `get_next_file` reads.  The parent row of the remote list leaves the
date as it was, for which there is no date here. -/
structure NextFile where
  name : WString
  dir : Bool
  size : ℤ
  date : Option (Option Datetime)

structure ComparedFile where
  index : ℕ
  name : WString
  dir : Bool
  size : ℤ
  date : Option Datetime
  deriving DecidableEq

/-- Files of equal name and kind. -/
def ComparedFile.Same (file other : ComparedFile) : Prop :=
  file.name = other.name ∧ file.dir = other.dir

/-- The options of a comparison and what it uses of the library. -/
structure ComparisonEnvironment where
  algorithms : RowAlgorithms
  order : FileOrder
  dirSortOption : ℤ
  nameSortOption : ℤ
  comparisonMode : ℤ
  hideIdentical : Bool
  /-- `fz::datetime::compare` -/
  compareDates : Datetime → Datetime → Ordering
  /-- A date and the threshold added to it. -/
  addThreshold : Datetime → Datetime

namespace ComparisonEnvironment

variable (env : ComparisonEnvironment)

/-- The paths of both files are empty. -/
def compareFiles (localFile remoteFile : ComparedFile) : Ordering :=
  let cmp := env.order.cmpName (getNameSortMode env.nameSortOption)
  let names :=
    (cmp localFile.name remoteFile.name).then (cmp [] [])
  if env.dirSortOption = 2 then names
  else if localFile.dir && !remoteFile.dir then .lt
  else if !localFile.dir && remoteFile.dir then .gt
  else names

def compareWithThreshold (a b : Datetime) : Ordering :=
  match env.compareDates a b with
  | .eq => .eq
  | .lt =>
      if env.compareDates (env.addThreshold a) b = .gt then .eq else .lt
  | .gt =>
      if env.compareDates a (env.addThreshold b) = .lt then .eq else .gt

def dotdot : WString := ['.', '.']

def pairFlags (localFile remoteFile : ComparedFile) :
    Option (FileEntryFlag × FileEntryFlag) :=
  let shown (differs : Bool) (flags : FileEntryFlag × FileEntryFlag) :=
    if !env.hideIdentical || differs || localFile.name = dotdot then some flags
    else none
  if env.comparisonMode = 0 then
    let flag : FileEntryFlag :=
      if localFile.dir || localFile.size = remoteFile.size then .normal
      else .different
    shown (flag ≠ .normal) (flag, flag)
  else
    match localFile.date, remoteFile.date with
    | some localDate, some remoteDate =>
        match env.compareWithThreshold localDate remoteDate with
        | .lt => shown true (.normal, .newer)
        | .gt => shown true (.newer, .normal)
        | .eq => shown false (.normal, .normal)
    | localDate, remoteDate =>
        shown (localDate.isSome || remoteDate.isSome) (.normal, .normal)

/-- The calls of `CompareAddFile` for the left and for the right side. -/
abbrev AddedRow :=
  Option (ℕ × FileEntryFlag) × Option (ℕ × FileEntryFlag)

def lonelyLeft (file : ComparedFile) : AddedRow :=
  (some (file.index, .lonely), none)

def lonelyRight (file : ComparedFile) : AddedRow :=
  (none, some (file.index, .lonely))

def pairRow (localFile remoteFile : ComparedFile) : Option AddedRow :=
  (env.pairFlags localFile remoteFile).map fun flags =>
    (some (localFile.index, flags.1), some (remoteFile.index, flags.2))

/-- The loops of `CompareListings`. -/
def compareLoop : List ComparedFile → List ComparedFile → List AddedRow
  | [], remotes => remotes.map lonelyRight
  | locals, [] => locals.map lonelyLeft
  | localFile :: locals, remoteFile :: remotes =>
      match env.compareFiles localFile remoteFile with
      | .eq =>
          (env.pairRow localFile remoteFile).toList ++
            compareLoop locals remotes
      | .lt => lonelyLeft localFile :: compareLoop locals (remoteFile :: remotes)
      | .gt => lonelyRight remoteFile :: compareLoop (localFile :: locals) remotes
  termination_by locals remotes => locals.length + remotes.length

end ComparisonEnvironment

/-- The files in the order of the rows; a row without a date has the date of
the row before. -/
def readFiles (read : ℕ → NextFile) (date : Option Datetime) :
    List ℕ → List ComparedFile
  | [] => []
  | index :: rows =>
      let file := read index
      let date := file.date.getD date
      { index, name := file.name, dir := file.dir, size := file.size, date } ::
        readFiles read date rows

/-- A list that is compared: `read` is what `get_next_file` reads at an
index. -/
structure ComparedList (φ : Type) where
  ctrl : FileListCtrl φ
  columnVisible : ℤ → Bool
  less : SortObject → ℕ → ℕ → Bool
  filler : φ
  read : ℕ → NextFile

def ComparisonEnvironment.view (env : ComparisonEnvironment)
    (columnVisible : ℤ → Bool) : FileListEnvironment :=
  { algorithms := env.algorithms
    columnVisible
    dirSortOption := env.dirSortOption
    nameSortOption := env.nameSortOption }

/-- `CLocalListView::get_next_file` at an index of the file data. -/
def readLocal (fileData : List LocalFileData) (index : ℕ) : NextFile :=
  match fileData[index]? with
  | some data =>
      { name := data.name, dir := data.dir, size := data.size,
        date := some data.time }
  | none => { name := [], dir := false, size := -1, date := none }

/-- `CRemoteListView::get_next_file`: the parent row has the index behind the
entries. -/
def readRemote (entries : List DirectoryEntry) (index : ℕ) : NextFile :=
  match entries[index]? with
  | some entry =>
      { name := entry.name, dir := entry.isDir, size := entry.size,
        date := some entry.time }
  | none =>
      { name := ComparisonEnvironment.dotdot, dir := true, size := -1,
        date := none }

namespace ComparedList

variable {φ ψ : Type} [FileData φ] [FileData ψ]
variable (env : ComparisonEnvironment)

def start (list : ComparedList φ) : FileListCtrl φ :=
  list.ctrl.startComparison (env.view list.columnVisible) list.less list.filler

/-- `get_next_file` ends at an index that is no slot of the file data. -/
def files (list : ComparedList φ) : List ComparedFile :=
  readFiles list.read none <|
    (list.start env).originalIndexMapping.takeWhile
      (· < (list.start env).fileData.length)

end ComparedList

section

variable {φ ψ : Type} [FileData φ] [FileData ψ]
variable (env : ComparisonEnvironment)
variable (left : ComparedList φ) (right : ComparedList ψ)

def comparedRows : List ComparisonEnvironment.AddedRow :=
  env.compareLoop (left.files env) (right.files env)

/-- `CComparisonManager::CompareListings`, once both lists can be compared. -/
def compareListings : FileListCtrl φ × FileListCtrl ψ :=
  ((left.start env).addFiles ((comparedRows env left right).map Prod.fst),
    (right.start env).addFiles ((comparedRows env left right).map Prod.snd))

end

/-! ## The rows of both sides -/

def shownRow (row : Option ComparedFile × Option ComparedFile) :
    Option ℕ × Option ℕ :=
  (row.1.map ComparedFile.index, row.2.map ComparedFile.index)

def addedIndexes (row : ComparisonEnvironment.AddedRow) :
    Option ℕ × Option ℕ :=
  (row.1.map Prod.fst, row.2.map Prod.fst)

namespace ComparisonEnvironment

variable {env : ComparisonEnvironment}

theorem pairFlags_isSome (hshown : env.hideIdentical = false)
    (localFile remoteFile : ComparedFile) :
    (env.pairFlags localFile remoteFile).isSome := by
  unfold pairFlags
  simp only [hshown, Bool.not_false, Bool.true_or, if_true]
  split
  · rfl
  · split
    · split <;> rfl
    · rfl

variable (env) in
/-- Two files that are not shown because they are identical. -/
def hidden (row : Option ComparedFile × Option ComparedFile) : Bool :=
  match row with
  | (some localFile, some remoteFile) =>
      (env.pairFlags localFile remoteFile).isNone
  | _ => false

theorem hidden_eq_false (hshown : env.hideIdentical = false)
    (row : Option ComparedFile × Option ComparedFile) :
    env.hidden row = false := by
  match row with
  | (none, _) => rfl
  | (some _, none) => rfl
  | (some localFile, some remoteFile) =>
      have hsome := pairFlags_isSome hshown localFile remoteFile
      change (env.pairFlags localFile remoteFile).isNone = false
      rw [← Option.not_isSome, hsome]
      rfl

theorem compareLoop_eq_align (locals remotes : List ComparedFile) :
    (env.compareLoop locals remotes).map addedIndexes =
      ((AlignedMerge.align env.compareFiles locals remotes).filter
        fun row => !env.hidden row).map shownRow := by
  fun_induction env.compareLoop locals remotes with
  | case1 remotes =>
      have hall : (remotes.map fun file =>
            ((none, some file) : Option ComparedFile × Option ComparedFile)).filter
          (fun row => !env.hidden row) =
            remotes.map fun file => (none, some file) := by
        apply List.filter_eq_self.mpr
        intro row hrow
        rcases List.mem_map.mp hrow with ⟨file, -, rfl⟩
        rfl
      rw [AlignedMerge.align_nil_left, hall, List.map_map, List.map_map]
      rfl
  | case2 locals =>
      have hall : (locals.map fun file =>
            ((some file, none) : Option ComparedFile × Option ComparedFile)).filter
          (fun row => !env.hidden row) =
            locals.map fun file => (some file, none) := by
        apply List.filter_eq_self.mpr
        intro row hrow
        rcases List.mem_map.mp hrow with ⟨file, -, rfl⟩
        rfl
      rw [AlignedMerge.align_nil_right, hall, List.map_map, List.map_map]
      rfl
  | case3 localFile locals remoteFile remotes hcmp ih =>
      rw [AlignedMerge.align_eq hcmp, List.map_append, ih, List.filter_cons]
      unfold pairRow hidden
      cases hflags : env.pairFlags localFile remoteFile with
      | none => simp [hflags]
      | some flags => simp [hflags, addedIndexes, shownRow]
  | case4 localFile locals remoteFile remotes hcmp ih =>
      rw [AlignedMerge.align_lt hcmp, List.map_cons, ih]
      rfl
  | case5 localFile locals remoteFile remotes hcmp ih =>
      rw [AlignedMerge.align_gt hcmp, List.map_cons, ih]
      rfl

end ComparisonEnvironment

theorem readFiles_index {read : ℕ → NextFile} {date : Option Datetime}
    {rows : List ℕ} :
    (readFiles read date rows).map ComparedFile.index = rows := by
  induction rows generalizing date with
  | nil => rfl
  | cons index rows ih => simp [readFiles, ih]

section Results

variable {φ ψ : Type} [FileData φ] [FileData ψ]
variable {env : ComparisonEnvironment}
variable {left : ComparedList φ} {right : ComparedList ψ}

theorem ComparedList.files_index (hdisplayed : left.ctrl.Displayed) :
    (left.files env).map ComparedFile.index =
      (left.start env).originalIndexMapping := by
  rw [ComparedList.files, readFiles_index]
  apply List.takeWhile_eq_self_iff.mpr
  intro index hmem
  have hlt := hdisplayed.lt_filler index hmem
  simp only [FileListCtrl.fillerIndex] at hlt
  have hlength : index < (left.start env).fileData.length := by
    change index < (left.ctrl.startComparison _ _ _).fileData.length
    omega
  simpa using hlength

theorem ComparedList.files_lt_filler (hdisplayed : left.ctrl.Displayed)
    {file : ComparedFile} (hfile : file ∈ left.files env) :
    file.index < (left.start env).fillerIndex := by
  have hmem : file.index ∈ (left.start env).originalIndexMapping := by
    rw [← ComparedList.files_index hdisplayed]
    exact List.mem_map_of_mem hfile
  exact hdisplayed.lt_filler file.index hmem

theorem ComparedList.files_nodup (hdisplayed : left.ctrl.Displayed) :
    ((left.files env).map ComparedFile.index).Nodup := by
  rw [ComparedList.files_index hdisplayed]
  exact FileListCtrl.startComparison_perm.nodup_iff.mpr hdisplayed.nodup

theorem compareListings_left :
    (compareListings env left right).1.indexMapping =
      (comparedRows env left right).map fun row =>
        (addedIndexes row).1.getD (left.start env).fillerIndex := by
  simp only [compareListings, FileListCtrl.addFiles_indexMapping,
    List.map_map]
  have hstart : (left.start env).indexMapping = [] :=
    FileListCtrl.startComparison_indexMapping
  rw [hstart]
  rfl

theorem compareListings_right :
    (compareListings env left right).2.indexMapping =
      (comparedRows env left right).map fun row =>
        (addedIndexes row).2.getD (right.start env).fillerIndex := by
  simp only [compareListings, FileListCtrl.addFiles_indexMapping,
    List.map_map]
  have hstart : (right.start env).indexMapping = [] :=
    FileListCtrl.startComparison_indexMapping
  rw [hstart]
  rfl

theorem compareListings_sameLength :
    (compareListings env left right).1.indexMapping.length =
      (compareListings env left right).2.indexMapping.length := by
  rw [compareListings_left, compareListings_right]
  simp

variable (env left right) in
def keptRows : List (Option ComparedFile × Option ComparedFile) :=
  (AlignedMerge.align env.compareFiles (left.files env)
    (right.files env)).filter fun row => !env.hidden row

theorem keptRows_eq_align (hshown : env.hideIdentical = false) :
    keptRows env left right =
      AlignedMerge.align env.compareFiles (left.files env)
        (right.files env) := by
  apply List.filter_eq_self.mpr
  intro row _
  rw [ComparisonEnvironment.hidden_eq_false hshown]
  rfl

theorem compareListings_left_kept :
    (compareListings env left right).1.indexMapping =
      (keptRows env left right).map fun row =>
        (row.1.map ComparedFile.index).getD (left.start env).fillerIndex := by
  have hrows := congrArg
    (List.map fun row : Option ℕ × Option ℕ =>
      row.1.getD (left.start env).fillerIndex)
    (@ComparisonEnvironment.compareLoop_eq_align env (left.files env)
      (right.files env))
  rw [List.map_map, List.map_map] at hrows
  rw [compareListings_left]
  exact hrows

theorem compareListings_right_kept :
    (compareListings env left right).2.indexMapping =
      (keptRows env left right).map fun row =>
        (row.2.map ComparedFile.index).getD
          (right.start env).fillerIndex := by
  have hrows := congrArg
    (List.map fun row : Option ℕ × Option ℕ =>
      row.2.getD (right.start env).fillerIndex)
    (@ComparisonEnvironment.compareLoop_eq_align env (left.files env)
      (right.files env))
  rw [List.map_map, List.map_map] at hrows
  rw [compareListings_right]
  exact hrows

theorem filter_shown {ρ : Type} {side : ρ → Option ComparedFile}
    {rows : List ρ} {filler : ℕ}
    (hfiles : ∀ file ∈ rows.filterMap side, file.index < filler) :
    (rows.map fun row =>
        ((side row).map ComparedFile.index).getD filler).filter
      (· ≠ filler) = (rows.filterMap side).map ComparedFile.index := by
  induction rows with
  | nil => rfl
  | cons row rows ih =>
      cases hrow : side row with
      | none =>
          rw [List.filterMap_cons_none hrow] at hfiles ⊢
          simpa [hrow] using ih hfiles
      | some file =>
          rw [List.filterMap_cons_some hrow] at hfiles ⊢
          have hrest := ih fun other hmem =>
            hfiles other (List.mem_cons_of_mem _ hmem)
          have hne : file.index ≠ filler :=
            Nat.ne_of_lt (hfiles file List.mem_cons_self)
          simpa [hrow, hne] using hrest

theorem compareListings_left_filter (hdisplayed : left.ctrl.Displayed) :
    (compareListings env left right).1.indexMapping.filter
        (· ≠ (left.start env).fillerIndex) =
      ((keptRows env left right).filterMap Prod.fst).map
        ComparedFile.index := by
  rw [compareListings_left_kept, filter_shown]
  intro file hfile
  have hmem : file ∈ left.files env := by
    rcases List.mem_filterMap.mp hfile with ⟨row, hrow, hfirst⟩
    have halign := (List.mem_filter.mp hrow).1
    have hsome : (some file, row.2) ∈ AlignedMerge.align env.compareFiles
        (left.files env) (right.files env) := by
      rw [← hfirst]
      exact halign
    exact AlignedMerge.left_mem_of_align hsome
  exact ComparedList.files_lt_filler hdisplayed hmem

theorem compareListings_left_files (hshown : env.hideIdentical = false)
    (hdisplayed : left.ctrl.Displayed) :
    (compareListings env left right).1.indexMapping.filter
        (· ≠ (left.start env).fillerIndex) =
      (left.start env).originalIndexMapping := by
  rw [compareListings_left_filter hdisplayed, keptRows_eq_align hshown,
    AlignedMerge.filterMap_fst_align, ComparedList.files_index hdisplayed]

theorem compareListings_right_files (hshown : env.hideIdentical = false)
    (hdisplayed : right.ctrl.Displayed) :
    (compareListings env left right).2.indexMapping.filter
        (· ≠ (right.start env).fillerIndex) =
      (right.start env).originalIndexMapping := by
  have hside := @AlignedMerge.filterMap_snd_align _ _ env.compareFiles
    (left.files env) (right.files env)
  rw [compareListings_right_kept, keptRows_eq_align hshown, filter_shown,
    hside, ComparedList.files_index hdisplayed]
  intro file hfile
  rw [hside] at hfile
  exact ComparedList.files_lt_filler hdisplayed hfile

variable (env left right) in
/-- Files of equal name and kind are on the same row. -/
def PairsEqualNames : Prop :=
  ∀ localFile ∈ left.files env, ∀ remoteFile ∈ right.files env,
    localFile.Same remoteFile →
      (localFile.index, remoteFile.index) ∈
        (compareListings env left right).1.indexMapping.zip
          (compareListings env left right).2.indexMapping

theorem pairsEqualNames_iff (hshown : env.hideIdentical = false)
    (hleft : left.ctrl.Displayed) (hright : right.ctrl.Displayed) :
    PairsEqualNames env left right ↔
      AlignedMerge.Paired env.compareFiles ComparedFile.Same
        (left.files env) (right.files env) := by
  unfold PairsEqualNames
  rw [compareListings_left_kept, compareListings_right_kept,
    keptRows_eq_align hshown, List.zip_map']
  constructor
  · intro hpairs localFile hlocal remoteFile hremote hsame
    have hrow := hpairs localFile hlocal remoteFile hremote hsame
    rcases List.mem_map.mp hrow with ⟨⟨first, second⟩, hmem, heq⟩
    have hfirst := congrArg Prod.fst heq
    have hsecond := congrArg Prod.snd heq
    dsimp only at hfirst hsecond
    have hlocalLt := ComparedList.files_lt_filler hleft hlocal
    have hremoteLt := ComparedList.files_lt_filler hright hremote
    cases first with
    | none =>
        have hfiller : (left.start env).fillerIndex = localFile.index := hfirst
        omega
    | some file =>
        cases second with
        | none =>
            have hfiller : (right.start env).fillerIndex =
                remoteFile.index := hsecond
            omega
        | some other =>
            have hsameLeft : file = localFile :=
              List.inj_on_of_nodup_map (ComparedList.files_nodup hleft)
                (AlignedMerge.left_mem_of_align hmem) hlocal hfirst
            have hsameRight : other = remoteFile :=
              List.inj_on_of_nodup_map (ComparedList.files_nodup hright)
                (AlignedMerge.right_mem_of_align hmem) hremote hsecond
            rw [← hsameLeft, ← hsameRight]
            exact hmem
  · intro hpaired localFile hlocal remoteFile hremote hsame
    have hmem := hpaired localFile hlocal remoteFile hremote hsame
    exact List.mem_map.mpr ⟨_, hmem, rfl⟩

theorem ComparedList.files_nodup_self (hdisplayed : left.ctrl.Displayed) :
    (left.files env).Nodup :=
  List.Nodup.of_map _ (ComparedList.files_nodup hdisplayed)

/-- Both lists get equally many rows and keep their files and their order, and
files of equal name and kind are on the same row in aligned lists, and in no
others if the comparison orders the rows. -/
theorem compareListings_pairs (hleft : left.ctrl.Displayed)
    (hright : right.ctrl.Displayed) :
    (compareListings env left right).1.indexMapping.length =
        (compareListings env left right).2.indexMapping.length ∧
      (env.hideIdentical = false →
        ((compareListings env left right).1.indexMapping.filter
            (· ≠ (left.start env).fillerIndex) =
              (left.start env).originalIndexMapping ∧
          (compareListings env left right).2.indexMapping.filter
            (· ≠ (right.start env).fillerIndex) =
              (right.start env).originalIndexMapping) ∧
        ((left.start env).originalIndexMapping.Nodup ∧
          (right.start env).originalIndexMapping.Nodup) ∧
        (AlignedMerge.Aligned env.compareFiles ComparedFile.Same
            (left.files env) (right.files env) →
          PairsEqualNames env left right) ∧
        (AlignedMerge.Ordered env.compareFiles (left.files env)
            (right.files env) →
          PairsEqualNames env left right →
          AlignedMerge.Aligned env.compareFiles ComparedFile.Same
            (left.files env) (right.files env))) := by
  constructor
  · exact compareListings_sameLength
  · intro hshown
    have hiff := pairsEqualNames_iff hshown hleft hright
    constructor
    · constructor
      · exact compareListings_left_files hshown hleft
      · exact compareListings_right_files hshown hright
    · constructor
      · constructor
        · exact FileListCtrl.startComparison_perm.nodup_iff.mpr hleft.nodup
        · exact FileListCtrl.startComparison_perm.nodup_iff.mpr hright.nodup
      · constructor
        · intro haligned
          exact hiff.mpr haligned.paired
        · intro hordered hpairs
          exact (hiff.mp hpairs).aligned hordered
            (ComparedList.files_nodup_self hleft)
            (ComparedList.files_nodup_self hright)

/-! ## Lists in the order of the merge -/

/-- `CompareFiles` is a total preorder if the comparison of names is one. -/
theorem compareFiles_transCmp
    [Std.TransCmp (env.order.cmpName (getNameSortMode env.nameSortOption))] :
    Std.TransCmp env.compareFiles := by
  let mode := if env.dirSortOption = 2 then DirSortMode.inline else .onTop
  have hdir : Std.TransCmp fun file other : ComparedFile =>
      cmpDir mode file.dir other.dir := transCmp_on ComparedFile.dir
  have hname : Std.TransCmp fun file other : ComparedFile =>
      env.order.cmpName (getNameSortMode env.nameSortOption) file.name
        other.name := transCmp_on ComparedFile.name
  have hself : env.order.cmpName (getNameSortMode env.nameSortOption) [] [] =
      .eq := Std.ReflCmp.compare_self
  have hfiles : env.compareFiles = compareLex
      (fun file other : ComparedFile => cmpDir mode file.dir other.dir)
      fun file other => env.order.cmpName
        (getNameSortMode env.nameSortOption) file.name other.name := by
    funext file other
    unfold ComparisonEnvironment.compareFiles
    by_cases hmixed : env.dirSortOption = 2
    · simp [hmixed, hself, compareLex, mode, cmpDir]
    · cases hfile : file.dir <;> cases hother : other.dir <;>
        simp [hmixed, hself, compareLex, mode, cmpDir, hfile, hother]
  rw [hfiles]
  infer_instance

theorem ComparedFile.Same.tie [Std.TransCmp env.compareFiles]
    {file other : ComparedFile} (hsame : file.Same other) :
    env.compareFiles file other = .eq := by
  have hself : env.compareFiles file other = env.compareFiles file file := by
    unfold ComparisonEnvironment.compareFiles
    rw [hsame.1, hsame.2]
  rw [hself]
  exact Std.ReflCmp.compare_self

/-- Lists that `CompareFiles` sorts strictly are aligned. -/
theorem files_aligned [Std.TransCmp env.compareFiles]
    (hleft : (left.files env).Pairwise (env.compareFiles · · = .lt))
    (hright : (right.files env).Pairwise (env.compareFiles · · = .lt)) :
    AlignedMerge.Aligned env.compareFiles ComparedFile.Same
      (left.files env) (right.files env) :=
  AlignedMerge.aligned_of_sorted
    (fun _ _ _ _ hsame => ComparedFile.Same.tie hsame) hleft hright

end Results

/-! ## A directory beside a parent row -/

def plainOrder : FileOrder where
  stricmp str1 str2 :=
    compare (str1.map Char.toLower) (str2.map Char.toLower)
  compareTime time1 time2 :=
    (compare (time1.map Datetime.value) (time2.map Datetime.value)).then
      (compare (time1.map Datetime.accuracy) (time2.map Datetime.accuracy))

instance : Std.TransCmp plainOrder.stricmp :=
  @transCmp_on (List Char) (List Char) compare _ (List.map Char.toLower)

instance : Std.TransCmp plainOrder.compareTime := by
  have hvalue : Std.TransCmp fun time1 time2 : Option Datetime =>
      compare (time1.map Datetime.value) (time2.map Datetime.value) :=
    transCmp_on (Option.map Datetime.value)
  have haccuracy : Std.TransCmp fun time1 time2 : Option Datetime =>
      compare (time1.map Datetime.accuracy) (time2.map Datetime.accuracy) :=
    transCmp_on (Option.map Datetime.accuracy)
  exact inferInstanceAs (Std.TransCmp (compareLex
    (fun time1 time2 : Option Datetime =>
      compare (time1.map Datetime.value) (time2.map Datetime.value))
    fun time1 time2 =>
      compare (time1.map Datetime.accuracy) (time2.map Datetime.accuracy)))

def plainComparison : ComparisonEnvironment where
  algorithms := .stable
  order := plainOrder
  dirSortOption := 0
  nameSortOption := 0
  comparisonMode := 0
  hideIdentical := false
  compareDates a b := compare a.value b.value
  addThreshold date := { date with value := date.value + 60000 }

def dashed : WString := ['-', 'x']

/-- A local root directory with directories, which has no parent row. -/
def localRoot (names : List WString) : ComparedList LocalFileData :=
  let fileData : List LocalFileData := names.map fun name =>
    { fileType := [], comparisonFlags := .normal, name, time := none
      size := -1, attributes := 0, dir := true, link := false }
  { ctrl :=
      { fileData
        indexMapping := List.range names.length
        originalIndexMapping := []
        hasParent := false
        sortColumn := 0
        sortDirection := false
        sortComparisonObject := none }
    columnVisible := fun _ => true
    less := fun _ _ _ => false
    filler :=
      { fileType := [], comparisonFlags := .fill, name := [], time := none
        size := -1, attributes := 0, dir := false, link := false }
    read := readLocal fileData }

/-- A remote directory with directories behind the parent row. -/
def remoteFolder (names : List WString) : ComparedList GenericFileData :=
  let slot : GenericFileData := { fileType := [], comparisonFlags := .normal }
  let entries : List DirectoryEntry := names.map fun name =>
    { name, size := -1, permissions := [], ownerGroup := []
      target := none, time := none, flags := DirectoryEntry.flagDir }
  { ctrl :=
      { fileData := slot :: names.map fun _ => slot
        indexMapping := names.length :: List.range names.length
        originalIndexMapping := []
        hasParent := true
        sortColumn := 0
        sortDirection := false
        sortComparisonObject := none }
    columnVisible := fun _ => true
    less := fun _ _ _ => false
    filler := { slot with comparisonFlags := .fill }
    read := readRemote entries }

/-- Equal names meet behind a lonely row of either side. -/
theorem compareListings_pairs_shared :
    let left := localRoot [['a'], ['b'], ['c']]
    let right := remoteFolder [['b'], ['d']]
    let compared := compareListings plainComparison left right
    compared.1.indexMapping.length = compared.2.indexMapping.length ∧
      compared.1.indexMapping.filter (· ≠ 3) = [0, 1, 2] ∧
      compared.2.indexMapping.filter (· ≠ 3) = [2, 0, 1] ∧
      (1, 0) ∈ compared.1.indexMapping.zip compared.2.indexMapping := by
  intro left right compared
  have hleft : left.ctrl.Displayed := ⟨by decide, by decide, by decide⟩
  have hright : right.ctrl.Displayed := ⟨by decide, by decide, by decide⟩
  have hcompared := @compareListings_pairs _ _ _ _ plainComparison _ _ hleft
    hright
  have hshown := hcompared.2 rfl
  refine ⟨hcompared.1, hshown.1.1, hshown.1.2, ?_⟩
  let file (index : ℕ) (name : WString) : ComparedFile :=
    { index, name, dir := true, size := -1, date := none }
  have hlocals : left.files plainComparison =
      [file 0 ['a'], file 1 ['b'], file 2 ['c']] := by decide
  have hremotes : right.files plainComparison =
      [file 2 ComparisonEnvironment.dotdot, file 0 ['b'], file 1 ['d']] := by
    decide
  have hnames : Std.TransCmp (plainComparison.order.cmpName
      (getNameSortMode plainComparison.nameSortOption)) :=
    inferInstanceAs (Std.TransCmp plainOrder.cmpNoCase)
  have htrans : Std.TransCmp plainComparison.compareFiles :=
    compareFiles_transCmp
  have haligned : AlignedMerge.Aligned plainComparison.compareFiles
      ComparedFile.Same (left.files plainComparison)
        (right.files plainComparison) := by
    apply files_aligned
    · rw [hlocals]
      decide
    · rw [hremotes]
      decide
  exact hshown.2.2.1 haligned (file 1 ['b']) (by simp [hlocals])
    (file 0 ['b']) (by simp [hremotes]) ⟨rfl, rfl⟩

/-- The parent row is the first row of its list, whatever sorts before it. -/
theorem dashed_unpaired :
    let left := localRoot [dashed]
    let right := remoteFolder [dashed]
    left.ctrl.Displayed ∧ right.ctrl.Displayed ∧
      (left.files plainComparison).map ComparedFile.name = [dashed] ∧
      (right.files plainComparison).map ComparedFile.name =
        [ComparisonEnvironment.dotdot, dashed] ∧
      ¬ PairsEqualNames plainComparison left right := by
  intro left right
  have hleft : left.ctrl.Displayed := ⟨by decide, by decide, by decide⟩
  have hright : right.ctrl.Displayed := ⟨by decide, by decide, by decide⟩
  refine ⟨hleft, hright, by decide, by decide, ?_⟩
  intro hpairs
  have hpaired := (pairsEqualNames_iff rfl hleft hright).mp hpairs
  let file (index : ℕ) (name : WString) : ComparedFile :=
    { index, name, dir := true, size := -1, date := none }
  have hlocals : left.files plainComparison = [file 0 dashed] := by
    decide
  have hremotes : right.files plainComparison =
      [file 1 ComparisonEnvironment.dotdot, file 0 dashed] := by decide
  rw [hlocals, hremotes] at hpaired
  have hrow := hpaired (file 0 dashed) (by simp) (file 0 dashed) (by simp)
    ⟨rfl, rfl⟩
  have hbefore : plainComparison.compareFiles (file 0 dashed)
      (file 1 ComparisonEnvironment.dotdot) = .lt := by decide
  rw [AlignedMerge.align_lt hbefore, AlignedMerge.align_nil_left] at hrow
  simp at hrow

end TabFtp
