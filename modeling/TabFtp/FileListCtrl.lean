import TabFtp.FileListOrder
import Mathlib.Data.List.Nodup
import Mathlib.Data.List.Sort

/-!
# Rows of the file lists

`CFileListCtrl` shows rows that are indexes into the file data.  It sorts the
rows, and during a directory comparison it adds rows for files that exist on
the other side only; such a row shows the filler, which is the last slot of the
file data.
-/

namespace TabFtp

/-- `CComparableListing::t_fileEntryFlags` -/
inductive FileEntryFlag
  | normal | fill | different | newer | lonely
  deriving DecidableEq

/-- What the list control uses of its file data. -/
class FileData (φ : Type) where
  comparisonFlags : φ → FileEntryFlag
  setComparisonFlags : FileEntryFlag → φ → φ
  comparisonFlags_set : ∀ flag data,
    comparisonFlags (setComparisonFlags flag data) = flag

/-- `CGenericFileData` without the icon. -/
structure GenericFileData where
  fileType : WString
  comparisonFlags : FileEntryFlag

instance : FileData GenericFileData where
  comparisonFlags data := data.comparisonFlags
  setComparisonFlags flag data := { data with comparisonFlags := flag }
  comparisonFlags_set _ _ := rfl

/-- `CLocalFileData`, with the two flags of the entry as fields. -/
structure LocalFileData extends GenericFileData where
  name : WString
  time : Option Datetime
  size : ℤ
  attributes : ℤ
  dir : Bool
  link : Bool

instance : FileData LocalFileData where
  comparisonFlags data := data.comparisonFlags
  setComparisonFlags flag data := { data with comparisonFlags := flag }
  comparisonFlags_set _ _ := rfl

/-- The comparison objects, of which a reversed one exchanges the rows. -/
structure SortObject where
  column : ℤ
  reversed : Bool
  dirSortMode : DirSortMode
  nameSortMode : NameSortMode

/-- The algorithms of the standard library.  `lowerBound` gets the predicate
that holds of the rows before the searched one. -/
structure RowAlgorithms where
  sort : (ℕ → ℕ → Bool) → List ℕ → List ℕ
  lowerBound : (ℕ → Bool) → List ℕ → ℕ
  sort_perm : ∀ less rows, (sort less rows).Perm rows
  sort_sorted : ∀ (cmp : ℕ → ℕ → Ordering) [Std.TransCmp cmp] (rows),
    (sort (fun a b => cmp a b == .lt) rows).Pairwise
      fun a b => (cmp a b).isLE
  lowerBound_le : ∀ before rows, lowerBound before rows ≤ rows.length
  lowerBound_append : ∀ before front back,
    (∀ row ∈ front, before row = true) →
    (∀ row ∈ back, before row = false) →
    lowerBound before (front ++ back) = front.length

namespace RowAlgorithms

def stable : RowAlgorithms where
  sort less rows := rows.insertionSort fun a b => !less b a
  lowerBound before rows := (rows.takeWhile before).length
  sort_perm less rows := List.perm_insertionSort _ rows
  sort_sorted cmp _ rows := by
    have hle : (fun a b => (!(cmp b a == .lt)) = true) =
        fun a b => (cmp a b).isLE = true := by
      funext a b
      have hswap : cmp b a = (cmp a b).swap := Std.OrientedCmp.eq_swap
      rw [hswap]
      cases cmp a b <;> rfl
    have htotal : Std.Total fun a b => (cmp a b).isLE = true := by
      constructor
      intro a b
      have hswap : cmp b a = (cmp a b).swap := Std.OrientedCmp.eq_swap
      rw [hswap]
      cases cmp a b <;> simp
    have htrans : IsTrans ℕ fun a b => (cmp a b).isLE = true := by
      constructor
      intro a b c hab hbc
      exact Std.TransCmp.isLE_trans hab hbc
    have hsorted := List.pairwise_insertionSort
      (fun a b => (cmp a b).isLE = true) rows
    convert hsorted using 2
  lowerBound_le before rows := (List.takeWhile_sublist before).length_le
  lowerBound_append before front back hfront hback := by
    have hall : (front ++ back).takeWhile before =
        front ++ back.takeWhile before := List.takeWhile_append_of_pos hfront
    have hnone : back.takeWhile before = [] := by
      cases back with
      | nil => rfl
      | cons row back => simp [hback row List.mem_cons_self]
    rw [hall, hnone, List.append_nil]

end RowAlgorithms

structure FileListEnvironment where
  algorithms : RowAlgorithms
  /-- `GetColumnVisibleIndex(column) != -1` -/
  columnVisible : ℤ → Bool
  dirSortOption : ℤ
  nameSortOption : ℤ

structure FileListCtrl (φ : Type) where
  fileData : List φ
  indexMapping : List ℕ
  originalIndexMapping : List ℕ
  hasParent : Bool
  sortColumn : ℤ
  /-- Whether the list is in descending order. -/
  sortDirection : Bool
  sortComparisonObject : Option SortObject

namespace FileListCtrl

variable {φ : Type} (env : FileListEnvironment) (ctrl : FileListCtrl φ)

/-- The rows before and after the iterator `start`. -/
def parentRows : ℕ :=
  if ctrl.hasParent then 1 else 0

/-- What `UpdateSortComparisonObject` puts in place. -/
def currentSortObject : SortObject :=
  { column := ctrl.sortColumn
    reversed := ctrl.sortDirection
    dirSortMode := getDirSortMode env.dirSortOption ctrl.sortDirection
    nameSortMode := getNameSortMode env.nameSortOption }

def updateSortComparisonObject : FileListCtrl φ :=
  { ctrl with sortComparisonObject := some (ctrl.currentSortObject env) }

def getSortComparisonObject : SortObject :=
  match ctrl.sortComparisonObject with
  | some object => object
  | none => ctrl.currentSortObject env

def mapRows (change : List ℕ → List ℕ) : FileListCtrl φ :=
  { ctrl with
    indexMapping := ctrl.indexMapping.take ctrl.parentRows ++
      change (ctrl.indexMapping.drop ctrl.parentRows) }

/-- The column and the direction that `SortList` sorts by; no direction is the
current one. -/
def sortTarget (column : ℤ) (direction : Option Bool) : ℤ × Bool :=
  let column :=
    if column ≠ -1 then column
    else if ctrl.sortColumn ≠ -1 then ctrl.sortColumn else 0
  let direction := direction.getD ctrl.sortDirection
  if (column ≠ ctrl.sortColumn ∨ direction ≠ ctrl.sortDirection) ∧
      ¬ env.columnVisible column then (0, direction)
  else (column, direction)

/-- `CFileListCtrl::SortList`, where `less` is the call operator of the
comparison objects. -/
def sortList (less : SortObject → ℕ → ℕ → Bool) (column : ℤ)
    (direction : Option Bool) : FileListCtrl φ :=
  let target := ctrl.sortTarget env column direction
  let sorted :=
    { ctrl with sortColumn := target.1, sortDirection := target.2 }
  if target.1 = ctrl.sortColumn ∧ target.2 ≠ ctrl.sortDirection ∧
      ctrl.indexMapping ≠ [] ∧ env.dirSortOption ≠ 1 then
    sorted.mapRows List.reverse
  else if ctrl.indexMapping.length < ctrl.parentRows + 2 then sorted
  else
    let sorted := sorted.updateSortComparisonObject env
    sorted.mapRows
      (env.algorithms.sort (less (sorted.getSortComparisonObject env)))

/-! ## Directory comparison -/

def sortByName (less : SortObject → ℕ → ℕ → Bool) : FileListCtrl φ :=
  if ctrl.sortDirection ∨ ctrl.sortColumn ≠ 0 then
    ctrl.sortList env less 0 (some false)
  else ctrl

/-- The rows become the original rows, unless they are those of a previous
comparison. -/
def setRowsAside : FileListCtrl φ :=
  if ctrl.originalIndexMapping = [] then
    { ctrl with
      originalIndexMapping := ctrl.indexMapping, indexMapping := [] }
  else { ctrl with indexMapping := [] }

variable [FileData φ]

def ensureFiller (filler : φ) : FileListCtrl φ :=
  if ctrl.fileData.getLast?.map FileData.comparisonFlags = some .fill then ctrl
  else { ctrl with fileData := ctrl.fileData ++ [filler] }

/-- `StartComparison` of both views, which differ in the filler. -/
def startComparison (less : SortObject → ℕ → ℕ → Bool) (filler : φ) :
    FileListCtrl φ :=
  ((ctrl.sortByName env less).setRowsAside).ensureFiller filler

/-- The index of the filler, and of every row that shows it. -/
def fillerIndex : ℕ :=
  ctrl.fileData.length - 1

/-- `CompareAddFile`, which gets the index of the file that was read last
unless it adds the filler. -/
def compareAddFile (added : Option (ℕ × FileEntryFlag)) : FileListCtrl φ :=
  match added with
  | none =>
      { ctrl with indexMapping := ctrl.indexMapping ++ [ctrl.fillerIndex] }
  | some (index, flags) =>
      { ctrl with
        fileData :=
          ctrl.fileData.modify index (FileData.setComparisonFlags flags)
        indexMapping := ctrl.indexMapping ++ [index] }

def addFiles (added : List (Option (ℕ × FileEntryFlag))) : FileListCtrl φ :=
  added.foldl (fun ctrl row => ctrl.compareAddFile row) ctrl

def onExitComparisonMode : FileListCtrl φ :=
  if ctrl.originalIndexMapping = [] then ctrl
  else
    { ctrl with
      indexMapping := ctrl.originalIndexMapping
      originalIndexMapping := []
      fileData :=
        (ctrl.fileData.take ctrl.fillerIndex).map
            (FileData.setComparisonFlags .normal) ++
          ctrl.fileData.drop ctrl.fillerIndex }

/-! ## What the operations keep -/

section Sorting

variable {env ctrl} {less : SortObject → ℕ → ℕ → Bool}
variable {column : ℤ} {direction : Option Bool}

omit [FileData φ] in
theorem mapRows_perm {change : List ℕ → List ℕ}
    (hchange : ∀ rows, (change rows).Perm rows) :
    (ctrl.mapRows change).indexMapping.Perm ctrl.indexMapping := by
  have hsplit : ctrl.indexMapping.take ctrl.parentRows ++
      ctrl.indexMapping.drop ctrl.parentRows = ctrl.indexMapping :=
    List.take_append_drop _ _
  have hperm := (hchange (ctrl.indexMapping.drop ctrl.parentRows)).append_left
    (ctrl.indexMapping.take ctrl.parentRows)
  rwa [hsplit] at hperm

omit [FileData φ] in
theorem sortList_perm :
    (ctrl.sortList env less column direction).indexMapping.Perm
      ctrl.indexMapping := by
  unfold sortList
  dsimp only
  split
  · exact mapRows_perm List.reverse_perm
  · split
    · exact List.Perm.refl _
    · exact mapRows_perm (env.algorithms.sort_perm _)

omit [FileData φ] in
@[simp] theorem sortList_fileData :
    (ctrl.sortList env less column direction).fileData = ctrl.fileData := by
  unfold sortList
  dsimp only
  split
  · rfl
  · split <;> rfl

omit [FileData φ] in
@[simp] theorem sortList_originalIndexMapping :
    (ctrl.sortList env less column direction).originalIndexMapping =
      ctrl.originalIndexMapping := by
  unfold sortList
  dsimp only
  split
  · rfl
  · split <;> rfl

omit [FileData φ] in
@[simp] theorem sortList_hasParent :
    (ctrl.sortList env less column direction).hasParent = ctrl.hasParent := by
  unfold sortList
  dsimp only
  split
  · rfl
  · split <;> rfl

omit [FileData φ] in
theorem sortList_target :
    ((ctrl.sortList env less column direction).sortColumn,
        (ctrl.sortList env less column direction).sortDirection) =
      ctrl.sortTarget env column direction := by
  unfold sortList
  dsimp only
  split
  · rfl
  · split <;> rfl

omit [FileData φ] in
theorem sortTarget_direction :
    (ctrl.sortTarget env column direction).2 =
      direction.getD ctrl.sortDirection := by
  unfold sortTarget
  dsimp only
  rw [apply_ite Prod.snd]
  exact ite_self _

omit [FileData φ] in
/-- What `SortList` does with the rows: it reverses them, leaves them when
there are too few, or sorts them by the current comparison object. -/
theorem sortList_rows :
    ((ctrl.sortList env less column direction).sortColumn = ctrl.sortColumn ∧
        (ctrl.sortList env less column direction).sortDirection =
          !ctrl.sortDirection ∧
        env.dirSortOption ≠ 1 ∧
        (ctrl.sortList env less column direction).indexMapping =
          (ctrl.mapRows List.reverse).indexMapping) ∨
      (ctrl.indexMapping.length < ctrl.parentRows + 2 ∧
        (ctrl.sortList env less column direction).indexMapping =
          ctrl.indexMapping) ∨
      (ctrl.sortList env less column direction).indexMapping =
        (ctrl.mapRows (env.algorithms.sort (less
          ((ctrl.sortList env less column direction).currentSortObject
            env)))).indexMapping := by
  by_cases hreverse : (ctrl.sortTarget env column direction).1 =
      ctrl.sortColumn ∧
    (ctrl.sortTarget env column direction).2 ≠ ctrl.sortDirection ∧
      ctrl.indexMapping ≠ [] ∧ env.dirSortOption ≠ 1
  · have hresult : ctrl.sortList env less column direction =
        mapRows
          { ctrl with
            sortColumn := (ctrl.sortTarget env column direction).1
            sortDirection := (ctrl.sortTarget env column direction).2 }
          List.reverse := by
      unfold sortList
      dsimp only
      rw [if_pos hreverse]
    rw [hresult]
    refine Or.inl ⟨hreverse.1, ?_, hreverse.2.2.2, rfl⟩
    have hne := hreverse.2.1
    change (ctrl.sortTarget env column direction).2 = !ctrl.sortDirection
    revert hne
    cases (ctrl.sortTarget env column direction).2 <;>
      cases ctrl.sortDirection <;> simp
  · refine Or.inr ?_
    by_cases hshort : ctrl.indexMapping.length < ctrl.parentRows + 2
    · refine Or.inl ⟨hshort, ?_⟩
      unfold sortList
      dsimp only
      rw [if_neg hreverse, if_pos hshort]
    · refine Or.inr ?_
      unfold sortList
      dsimp only
      rw [if_neg hreverse, if_neg hshort]
      rfl

omit [FileData φ] in
theorem mapRows_drop {change : List ℕ → List ℕ}
    (hparent : ctrl.parentRows ≤ ctrl.indexMapping.length) :
    (ctrl.mapRows change).indexMapping.drop ctrl.parentRows =
      change (ctrl.indexMapping.drop ctrl.parentRows) := by
  have hlength : (ctrl.indexMapping.take ctrl.parentRows).length =
      ctrl.parentRows := by
    rw [List.length_take]
    omega
  simp only [mapRows]
  rw [List.drop_append_of_le_length (by omega), List.drop_eq_nil_of_le
    (by omega), List.nil_append]

end Sorting

section Added

variable {ctrl} {added : List (Option (ℕ × FileEntryFlag))}

@[simp] theorem compareAddFile_length {row : Option (ℕ × FileEntryFlag)} :
    (ctrl.compareAddFile row).fileData.length = ctrl.fileData.length := by
  cases row with
  | none => rfl
  | some row => simp [compareAddFile]

theorem compareAddFile_indexMapping {row : Option (ℕ × FileEntryFlag)} :
    (ctrl.compareAddFile row).indexMapping =
      ctrl.indexMapping ++ [(row.map Prod.fst).getD ctrl.fillerIndex] := by
  cases row with
  | none => rfl
  | some row => rfl

theorem addFiles_indexMapping :
    (ctrl.addFiles added).indexMapping = ctrl.indexMapping ++
      added.map fun row => (row.map Prod.fst).getD ctrl.fillerIndex := by
  induction added generalizing ctrl with
  | nil => simp [addFiles]
  | cons row added ih =>
      have hrest := @ih (ctrl.compareAddFile row)
      have hfiller : (ctrl.compareAddFile row).fillerIndex =
          ctrl.fillerIndex := by
        simp [fillerIndex]
      rw [compareAddFile_indexMapping, hfiller] at hrest
      change ((ctrl.compareAddFile row).addFiles added).indexMapping = _
      rw [hrest]
      simp

end Added

/-! ## Rows that can be compared -/

def plainRows : List ℕ :=
  if ctrl.originalIndexMapping = [] then ctrl.indexMapping
  else ctrl.originalIndexMapping

/-- Every row has a slot of its own that is not the filler. -/
structure Displayed : Prop where
  nodup : ctrl.plainRows.Nodup
  slots : ∀ index ∈ ctrl.plainRows, index < ctrl.fileData.length
  shown : ctrl.fileData.getLast?.map FileData.comparisonFlags = some .fill →
    ctrl.fillerIndex ∉ ctrl.plainRows

section Start

variable {env ctrl} {less : SortObject → ℕ → ℕ → Bool} {filler : φ}

omit [FileData φ] in
@[simp] theorem sortByName_fileData :
    (ctrl.sortByName env less).fileData = ctrl.fileData := by
  unfold sortByName
  split
  · exact sortList_fileData
  · rfl

omit [FileData φ] in
@[simp] theorem sortByName_originalIndexMapping :
    (ctrl.sortByName env less).originalIndexMapping =
      ctrl.originalIndexMapping := by
  unfold sortByName
  split
  · exact sortList_originalIndexMapping
  · rfl

omit [FileData φ] in
theorem sortByName_perm :
    (ctrl.sortByName env less).indexMapping.Perm ctrl.indexMapping := by
  unfold sortByName
  split
  · exact sortList_perm
  · exact List.Perm.refl _

omit [FileData φ] in
@[simp] theorem setRowsAside_fileData :
    ctrl.setRowsAside.fileData = ctrl.fileData := by
  unfold setRowsAside
  split <;> rfl

omit [FileData φ] in
@[simp] theorem setRowsAside_indexMapping :
    ctrl.setRowsAside.indexMapping = [] := by
  unfold setRowsAside
  split <;> rfl

omit [FileData φ] in
@[simp] theorem setRowsAside_originalIndexMapping :
    ctrl.setRowsAside.originalIndexMapping = ctrl.plainRows := by
  unfold setRowsAside plainRows
  split <;> rfl

@[simp] theorem ensureFiller_indexMapping :
    (ctrl.ensureFiller filler).indexMapping = ctrl.indexMapping := by
  unfold ensureFiller
  split <;> rfl

@[simp] theorem ensureFiller_originalIndexMapping :
    (ctrl.ensureFiller filler).originalIndexMapping =
      ctrl.originalIndexMapping := by
  unfold ensureFiller
  split <;> rfl

@[simp] theorem startComparison_indexMapping :
    (ctrl.startComparison env less filler).indexMapping = [] := by
  simp [startComparison]

theorem startComparison_perm :
    (ctrl.startComparison env less filler).originalIndexMapping.Perm
      ctrl.plainRows := by
  simp only [startComparison, ensureFiller_originalIndexMapping,
    setRowsAside_originalIndexMapping, plainRows,
    sortByName_originalIndexMapping]
  split
  · exact sortByName_perm
  · exact List.Perm.refl _

theorem Displayed.lt_filler (hdisplayed : ctrl.Displayed) :
    ∀ index ∈ (ctrl.startComparison env less filler).originalIndexMapping,
      index < (ctrl.startComparison env less filler).fillerIndex := by
  intro index hmem
  have hrow : index ∈ ctrl.plainRows := startComparison_perm.mem_iff.mp hmem
  have hslot := hdisplayed.slots index hrow
  by_cases hfill :
      ctrl.fileData.getLast?.map FileData.comparisonFlags = some .fill
  · have hlast : index ≠ ctrl.fillerIndex := by
      intro heq
      exact hdisplayed.shown hfill (heq ▸ hrow)
    have hsame : (ctrl.startComparison env less filler).fileData =
        ctrl.fileData := by
      simp [startComparison, ensureFiller, hfill]
    rw [fillerIndex, hsame]
    unfold fillerIndex at hlast
    omega
  · have hnew : (ctrl.startComparison env less filler).fileData =
        ctrl.fileData ++ [filler] := by
      simp [startComparison, ensureFiller, hfill]
    rw [fillerIndex, hnew]
    simpa using hslot

end Start

end FileListCtrl

end TabFtp
