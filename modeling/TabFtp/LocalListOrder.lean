import TabFtp.LocalListView
import Mathlib.Data.List.GetD

/-!
# The order of the local file list

The rows behind the parent row are sorted by the comparison object that
belongs to the sort column and the direction.  `SortList` does not build it
when it reverses the rows or when there are too few of them, so that a file
that is inserted afterwards gets its row by the order of before; and a file
that becomes a directory keeps its row in a list that is sorted by name.
-/

namespace TabFtp

open SortedRows

namespace LocalListEnvironment

/-- The orders of the library and the order of the names are total
preorders. -/
class Preorders (env : LocalListEnvironment) : Prop where
  stricmp : Std.TransCmp env.comparison.order.stricmp
  compareTime : Std.TransCmp env.comparison.order.compareTime
  cmpName : Std.TransCmp (env.comparison.order.cmpName
    (getNameSortMode env.comparison.nameSortOption))

variable {env : LocalListEnvironment}

section Preorder

variable [hpreorders : Preorders env]

theorem transCmp_cmpColumn (column : ℤ) :
    Std.TransCmp (env.cmpColumn column) := by
  have hstricmp := hpreorders.stricmp
  have hcompareTime := hpreorders.compareTime
  have hsizes : Std.TransCmp fun data1 data2 : LocalFileData =>
      cmpSize data1.size data2.size := transCmp_on LocalFileData.size
  have htypes : Std.TransCmp fun data1 data2 : LocalFileData =>
      env.comparison.order.stricmp (env.typeOf data1) (env.typeOf data2) :=
    transCmp_on env.typeOf
  have htimes : Std.TransCmp fun data1 data2 : LocalFileData =>
      env.comparison.order.compareTime data1.time data2.time :=
    transCmp_on LocalFileData.time
  by_cases hsize : column = 1
  · have hcolumn : env.cmpColumn column = fun data1 data2 =>
        cmpSize data1.size data2.size := by
      funext data1 data2
      rw [cmpColumn, if_pos hsize]
    rw [hcolumn]
    exact hsizes
  · by_cases htype : column = 2
    · have hcolumn : env.cmpColumn column = fun data1 data2 =>
          env.comparison.order.stricmp (env.typeOf data1)
            (env.typeOf data2) := by
        funext data1 data2
        rw [cmpColumn, if_neg hsize, if_pos htype]
      rw [hcolumn]
      exact htypes
    · by_cases htime : column = 3
      · have hcolumn : env.cmpColumn column = fun data1 data2 =>
            env.comparison.order.compareTime data1.time data2.time := by
          funext data1 data2
          rw [cmpColumn, if_neg hsize, if_neg htype, if_pos htime]
        rw [hcolumn]
        exact htimes
      · have hcolumn : env.cmpColumn column = fun _ _ => .eq := by
          funext data1 data2
          rw [cmpColumn, if_neg hsize, if_neg htype, if_neg htime]
        rw [hcolumn]
        exact { eq_swap := rfl, isLE_trans := fun _ _ => rfl }

theorem transCmp_cmpData {object : SortObject}
    (hnames : object.nameSortMode =
      getNameSortMode env.comparison.nameSortOption) :
    Std.TransCmp (env.cmpData object) := by
  have hcmpName := hpreorders.cmpName
  rw [← hnames] at hcmpName
  have hdirs : Std.TransCmp fun data1 data2 : LocalFileData =>
      cmpDir object.dirSortMode data1.dir data2.dir :=
    transCmp_on LocalFileData.dir
  have hcolumn : Std.TransCmp (env.cmpColumn object.column) :=
    transCmp_cmpColumn object.column
  have hname : Std.TransCmp fun data1 data2 : LocalFileData =>
      env.comparison.order.cmpName object.nameSortMode data1.name
        data2.name := transCmp_on LocalFileData.name
  exact inferInstanceAs (Std.TransCmp (compareLex
    (fun data1 data2 : LocalFileData =>
      cmpDir object.dirSortMode data1.dir data2.dir)
    (compareLex (env.cmpColumn object.column)
      fun data1 data2 : LocalFileData =>
        env.comparison.order.cmpName object.nameSortMode data1.name
          data2.name)))

theorem transCmp_cmpRows {fileData : List LocalFileData} {object : SortObject}
    (hnames : object.nameSortMode =
      getNameSortMode env.comparison.nameSortOption) :
    Std.TransCmp (env.cmpRows fileData object) := by
  have hdata := transCmp_cmpData hnames
  have hforward : Std.TransCmp fun a b : ℕ =>
      env.cmpData object (fileData.getD a noData) (fileData.getD b noData) :=
    transCmp_on fun row => fileData.getD row noData
  cases hreversed : object.reversed with
  | false =>
      have hrows : env.cmpRows fileData object = fun a b =>
          env.cmpData object (fileData.getD a noData)
            (fileData.getD b noData) := by
        funext a b
        simp [cmpRows, hreversed]
      rw [hrows]
      exact hforward
  | true =>
      have hrows : env.cmpRows fileData object = fun a b =>
          env.cmpData object (fileData.getD b noData)
            (fileData.getD a noData) := by
        funext a b
        simp [cmpRows, hreversed]
      rw [hrows]
      exact Std.TransCmp.opposite

end Preorder

theorem cmpRows_congr {fileData changed : List LocalFileData}
    {object : SortObject} {rows : List ℕ}
    (hsame : ∀ a ∈ rows, ∀ b ∈ rows,
      env.cmpData object (changed.getD a noData) (changed.getD b noData) =
        env.cmpData object (fileData.getD a noData) (fileData.getD b noData)) :
    ∀ a ∈ rows, ∀ b ∈ rows,
      env.cmpRows changed object a b = env.cmpRows fileData object a b := by
  intro a ha b hb
  simp only [cmpRows]
  split
  · exact hsame b hb a ha
  · exact hsame a ha b hb

theorem cmpData_of_name {object : SortObject} (hcolumn : object.column = 0)
    (data1 data2 : LocalFileData) :
    env.cmpData object data1 data2 =
      (cmpDir object.dirSortMode data1.dir data2.dir).then
        (env.comparison.order.cmpName object.nameSortMode data1.name
          data2.name) := by
  simp [cmpData, cmpColumn, hcolumn]

theorem cmpRows_opposite (fileData : List LocalFileData)
    (object : SortObject) (a b : ℕ) :
    env.cmpRows fileData { object with reversed := !object.reversed } a b =
      env.cmpRows fileData object b a := by
  cases hreversed : object.reversed with
  | false =>
      simp only [cmpRows, hreversed, Bool.not_false, if_true]
      rfl
  | true =>
      simp only [cmpRows, hreversed, Bool.not_true, if_true]
      rfl

end LocalListEnvironment

namespace LocalListView

variable {env : LocalListEnvironment} {view : LocalListView}

def fileRows (view : LocalListView) : List ℕ :=
  view.ctrl.indexMapping.drop view.ctrl.parentRows

variable (env view) in
def currentOrder : ℕ → ℕ → Ordering :=
  env.cmpRows view.ctrl.fileData (view.ctrl.currentSortObject env.view)

variable (env view) in
def InOrder : Prop :=
  Sorted (view.currentOrder env) view.fileRows

/-- The parent row is there, and every row has a file. -/
structure RowsSound (view : LocalListView) : Prop where
  parent : view.ctrl.parentRows ≤ view.ctrl.indexMapping.length
  slots : ∀ row ∈ view.ctrl.indexMapping, row < view.ctrl.fileData.length

theorem transCmp_currentOrder [LocalListEnvironment.Preorders env] :
    Std.TransCmp (view.currentOrder env) :=
  LocalListEnvironment.transCmp_cmpRows rfl

/-! ## Sorting -/

section Sorting

variable {column : ℤ} {direction : Option Bool}

@[simp] theorem sortList_parentRows :
    (view.sortList env column direction).ctrl.parentRows =
      view.ctrl.parentRows := by
  simp [sortList, FileListCtrl.parentRows]

@[simp] theorem sortList_fileData :
    (view.sortList env column direction).ctrl.fileData =
      view.ctrl.fileData := by
  simp [sortList]

theorem RowsSound.sortList (hsound : view.RowsSound) :
    (view.sortList env column direction).RowsSound := by
  have hperm : (view.sortList env column direction).ctrl.indexMapping.Perm
      view.ctrl.indexMapping := FileListCtrl.sortList_perm
  constructor
  · rw [sortList_parentRows, hperm.length_eq]
    exact hsound.parent
  · intro row hrow
    rw [sortList_fileData]
    exact hsound.slots row (hperm.mem_iff.mp hrow)

theorem sortList_fileRows {change : List ℕ → List ℕ}
    (hsound : view.RowsSound)
    (hrows : (view.sortList env column direction).ctrl.indexMapping =
      (view.ctrl.mapRows change).indexMapping) :
    (view.sortList env column direction).fileRows = change view.fileRows := by
  unfold fileRows
  rw [sortList_parentRows, hrows, FileListCtrl.mapRows_drop hsound.parent]

theorem InOrder.of_short (hshort : view.fileRows.length < 2) :
    view.InOrder env :=
  Sorted.of_length_lt_two hshort

theorem currentOrder_reversed {other : LocalListView}
    (hfileData : other.ctrl.fileData = view.ctrl.fileData)
    (hcolumn : other.ctrl.sortColumn = view.ctrl.sortColumn)
    (hdirection : other.ctrl.sortDirection = !view.ctrl.sortDirection)
    (hoption : env.comparison.dirSortOption ≠ 1) (a b : ℕ) :
    other.currentOrder env a b = view.currentOrder env b a := by
  have hdirs : getDirSortMode env.comparison.dirSortOption
      other.ctrl.sortDirection =
        getDirSortMode env.comparison.dirSortOption
          view.ctrl.sortDirection := by
    simp [getDirSortMode, hoption]
  have hobject : other.ctrl.currentSortObject env.view =
      { view.ctrl.currentSortObject env.view with
        reversed := !(view.ctrl.currentSortObject env.view).reversed } := by
    simp only [FileListCtrl.currentSortObject, LocalListEnvironment.view,
      ComparisonEnvironment.view, hcolumn, hdirs]
    rw [hdirection]
  unfold currentOrder
  rw [hfileData, hobject]
  exact LocalListEnvironment.cmpRows_opposite _ _ _ _

variable [LocalListEnvironment.Preorders env]

theorem InOrder.sortList (hsound : view.RowsSound)
    (hbefore : (view.sortList env column direction).ctrl.sortDirection ≠
        view.ctrl.sortDirection → view.InOrder env) :
    (view.sortList env column direction).InOrder env := by
  have hcases := @FileListCtrl.sortList_rows _ env.view view.ctrl
    (env.less view.ctrl.fileData) column direction
  rcases hcases with ⟨hcolumn, hdirection, hoption, hrows⟩ | hshort | hrows
  · have hsorted : view.InOrder env := by
      refine hbefore ?_
      change (view.ctrl.sortList _ _ _ _).sortDirection ≠ _
      rw [hdirection]
      simp
    unfold InOrder
    rw [sortList_fileRows hsound hrows]
    have hreverse := Sorted.reverse hsorted
    refine hreverse.congr ?_
    intro a _ b _
    exact currentOrder_reversed sortList_fileData hcolumn hdirection hoption a b
  · refine InOrder.of_short ?_
    have hrows : (view.sortList env column direction).ctrl.indexMapping =
        view.ctrl.indexMapping := hshort.2
    unfold fileRows
    rw [sortList_parentRows, hrows, List.length_drop]
    omega
  · unfold InOrder
    rw [sortList_fileRows hsound hrows]
    have htrans : Std.TransCmp
        ((view.sortList env column direction).currentOrder env) :=
      transCmp_currentOrder
    have hsorted := env.comparison.algorithms.sort_sorted
      ((view.sortList env column direction).currentOrder env) view.fileRows
    have hless : env.less view.ctrl.fileData
        ((view.sortList env column direction).ctrl.currentSortObject env.view) =
        fun a b => (view.sortList env column direction).currentOrder env a b ==
          .lt := by
      funext a b
      simp only [LocalListEnvironment.less, currentOrder, sortList_fileData]
    have hobject : (view.ctrl.sortList env.view (env.less view.ctrl.fileData)
        column direction).currentSortObject env.view =
          (view.sortList env column direction).ctrl.currentSortObject
            env.view := rfl
    rw [hobject, hless]
    exact hsorted

theorem InOrder.sortList_again (hsound : view.RowsSound) :
    (view.sortList env (-1) none).InOrder env := by
  refine InOrder.sortList hsound ?_
  intro hne
  have htarget := congrArg Prod.snd (@FileListCtrl.sortList_target _ env.view
    view.ctrl (env.less view.ctrl.fileData) (-1) none)
  rw [FileListCtrl.sortTarget_direction] at htarget
  exact absurd htarget hne

end Sorting

/-! ## Listing and filtering -/

section Listing

variable {dirname : WString} {hasParent : Bool} {other : Other}

theorem enterDir_isComparing (hplain : view.isComparing = false) :
    (view.enterDir dirname hasParent).isComparing = false := by
  unfold enterDir
  dsimp only
  split
  · simp [exitComparisonMode, hplain]
  · exact hplain

theorem enterDir_rowsSound : (view.enterDir dirname hasParent).RowsSound := by
  cases hasParent with
  | false =>
      constructor
      · simp [enterDir, FileListCtrl.parentRows]
      · intro row hrow
        simp [enterDir, parentRow] at hrow
  | true =>
      constructor
      · simp [enterDir, FileListCtrl.parentRows, parentRow]
      · intro row hrow
        have hzero : row = 0 := by simpa [enterDir, parentRow] using hrow
        simp [enterDir, parentEntry, hzero]

theorem enterDir_fileRows : (view.enterDir dirname hasParent).fileRows = [] := by
  cases hasParent <;>
    simp [fileRows, enterDir, parentRow, FileListCtrl.parentRows]

theorem RowsSound.addEntries (hsound : view.RowsSound)
    (entries : List LocalEntry) : (view.addEntries entries).RowsSound := by
  constructor
  · have hparent := hsound.parent
    change view.ctrl.parentRows ≤ (view.ctrl.indexMapping ++ _).length
    rw [List.length_append]
    omega
  · intro row hrow
    change row < (view.ctrl.fileData ++ _).length
    rw [List.length_append, List.length_map]
    rcases List.mem_append.mp hrow with hold | hnew
    · have hlt := hsound.slots row hold
      omega
    · have hmem := List.mem_range'_1.mp (List.mem_filter.mp hnew).1
      exact hmem.2

theorem restartComparison_plain (hplain : view.isComparing = false) :
    view.restartComparison env other = view := by
  simp [restartComparison, hplain]

theorem displayDir_some (hplain : view.isComparing = false)
    (entries : List LocalEntry) :
    view.displayDir env dirname hasParent (some entries) other =
      ((view.enterDir dirname hasParent).addEntries entries).sortList env
        (-1) none := by
  have henter : (((view.enterDir dirname hasParent).addEntries
      entries).sortList env (-1) none).isComparing = false :=
    @enterDir_isComparing view dirname hasParent hplain
  exact restartComparison_plain henter

theorem displayDir_isComparing (hplain : view.isComparing = false)
    (listing : Option (List LocalEntry)) :
    (view.displayDir env dirname hasParent listing other).isComparing =
      false := by
  cases listing with
  | none => exact enterDir_isComparing hplain
  | some entries =>
      rw [displayDir_some hplain]
      exact @enterDir_isComparing view dirname hasParent hplain

theorem displayDir_rowsSound (hplain : view.isComparing = false)
    (listing : Option (List LocalEntry)) :
    (view.displayDir env dirname hasParent listing other).RowsSound := by
  cases listing with
  | none => exact enterDir_rowsSound
  | some entries =>
      rw [displayDir_some hplain]
      exact (enterDir_rowsSound.addEntries entries).sortList

theorem displayDir_inOrder [LocalListEnvironment.Preorders env]
    (hplain : view.isComparing = false) (listing : Option (List LocalEntry)) :
    (view.displayDir env dirname hasParent listing other).InOrder env := by
  cases listing with
  | none =>
      refine InOrder.of_short ?_
      rw [displayDir, enterDir_fileRows]
      simp
  | some entries =>
      rw [displayDir_some hplain]
      exact InOrder.sortList_again (enterDir_rowsSound.addEntries entries)

theorem filterRows_rowsSound
    (hfiles : view.ctrl.parentRows < view.ctrl.fileData.length) :
    view.filterRows.RowsSound := by
  constructor
  · change view.ctrl.parentRows ≤ (parentRow view.ctrl.hasParent ++ _).length
    rw [List.length_append]
    cases hparent : view.ctrl.hasParent <;>
      simp [FileListCtrl.parentRows, parentRow, hparent]
  · intro row hrow
    change row < view.ctrl.fileData.length
    rcases List.mem_append.mp hrow with hparent | hfile
    · have hzero : row = 0 := by
        cases hhas : view.ctrl.hasParent with
        | false => simp [parentRow, hhas] at hparent
        | true => simpa [parentRow, hhas] using hparent
      omega
    · have hmem := List.mem_range'_1.mp (List.mem_filter.mp hfile).1
      omega

theorem applyCurrentFilter_plain (hplain : view.isComparing = false)
    (filters : LocalFilters) (sameFilters : Bool) :
    view.applyCurrentFilter env filters sameFilters other =
      if view.ctrl.fileData.length ≤ view.ctrl.parentRows then
        { view with filters }
      else
        ({ view with filters } : LocalListView).filterRows.sortList env (-1)
          none := by
  have hview : (if sameFilters then ({ view with filters } : LocalListView)
      else exitComparisonMode { view with filters }) = { view with filters } := by
    simp [exitComparisonMode, hplain]
  unfold applyCurrentFilter
  dsimp only
  rw [hview]
  split
  · rfl
  · have hsorted : (({ view with filters } : LocalListView).filterRows.sortList
        env (-1) none).isComparing = false := hplain
    exact restartComparison_plain hsorted

end Listing

/-! ## One file -/

section File

variable {file : WString} {entry : LocalEntry} {other : Other} {index : ℕ}
variable {data : LocalFileData}

@[simp] theorem updateFile_length :
    (view.updateFile index data).ctrl.fileData.length =
      view.ctrl.fileData.length := by
  simp [updateFile]

theorem RowsSound.updateFile (hsound : view.RowsSound) :
    (view.updateFile index data).RowsSound := by
  constructor
  · exact hsound.parent
  · intro row hrow
    rw [updateFile_length]
    exact hsound.slots row hrow

theorem updateFile_getD (row : ℕ) :
    (view.updateFile index data).ctrl.fileData.getD row
        LocalListEnvironment.noData =
      if index = row ∧ row < view.ctrl.fileData.length then
        { data with
          fileType := (view.ctrl.fileData.getD row
            LocalListEnvironment.noData).fileType }
      else view.ctrl.fileData.getD row LocalListEnvironment.noData := by
  simp only [updateFile, List.getD_eq_getElem?_getD, List.getElem?_modify]
  by_cases hlt : row < view.ctrl.fileData.length
  · by_cases hindex : index = row
    · simp [hlt, hindex]
    · simp [hindex]
  · simp [hlt]

theorem InOrder.updateFile (hsorted : view.InOrder env)
    (hcolumn : view.ctrl.sortColumn = 0)
    (hname : (view.ctrl.fileData.getD index
      LocalListEnvironment.noData).name = data.name)
    (hkind : env.comparison.dirSortOption = 2 ∨ index ∉ view.fileRows ∨
      (view.ctrl.fileData.getD index LocalListEnvironment.noData).dir =
        data.dir) :
    (view.updateFile index data).InOrder env := by
  have hnames : ∀ row, ((view.updateFile index data).ctrl.fileData.getD row
      LocalListEnvironment.noData).name =
        (view.ctrl.fileData.getD row LocalListEnvironment.noData).name := by
    intro row
    rw [updateFile_getD]
    split
    · next hrow =>
        rw [← hrow.1]
        exact hname.symm
    · rfl
  have hdirs : ∀ a ∈ view.fileRows, ∀ b ∈ view.fileRows,
      cmpDir (view.ctrl.currentSortObject env.view).dirSortMode
          ((view.updateFile index data).ctrl.fileData.getD a
            LocalListEnvironment.noData).dir
          ((view.updateFile index data).ctrl.fileData.getD b
            LocalListEnvironment.noData).dir =
        cmpDir (view.ctrl.currentSortObject env.view).dirSortMode
          (view.ctrl.fileData.getD a LocalListEnvironment.noData).dir
          (view.ctrl.fileData.getD b LocalListEnvironment.noData).dir := by
    intro a ha b hb
    rcases hkind with hinline | hkept
    · have hmode : (view.ctrl.currentSortObject env.view).dirSortMode =
          .inline := by
        simp [FileListCtrl.currentSortObject, LocalListEnvironment.view,
          ComparisonEnvironment.view, getDirSortMode, hinline]
      rw [hmode]
      rfl
    · have hsame : ∀ row ∈ view.fileRows,
          ((view.updateFile index data).ctrl.fileData.getD row
              LocalListEnvironment.noData).dir =
            (view.ctrl.fileData.getD row LocalListEnvironment.noData).dir := by
        intro row hmem
        rw [updateFile_getD]
        split
        · next hrow =>
            rcases hkept with hhidden | hdir
            · rw [hrow.1] at hhidden
              exact absurd hmem hhidden
            · rw [← hrow.1]
              exact hdir.symm
        · rfl
      rw [hsame a ha, hsame b hb]
  refine Sorted.congr hsorted ?_
  refine LocalListEnvironment.cmpRows_congr ?_
  intro a ha b hb
  have hobject : (view.updateFile index data).ctrl.currentSortObject env.view =
      view.ctrl.currentSortObject env.view := rfl
  have hzero : (view.ctrl.currentSortObject env.view).column = 0 := hcolumn
  rw [hobject, LocalListEnvironment.cmpData_of_name hzero,
    LocalListEnvironment.cmpData_of_name hzero, hdirs a ha b hb, hnames a,
    hnames b]

variable (env view data) in
def insertPosition : ℕ :=
  env.comparison.algorithms.lowerBound
    (fun row => env.less (view.ctrl.fileData ++ [data])
      (view.ctrl.getSortComparisonObject env.view) row
      view.ctrl.fileData.length) view.fileRows

theorem insertFile_fileRows (hsound : view.RowsSound) :
    (view.insertFile env data).fileRows =
      view.fileRows.take (view.insertPosition env data) ++
        view.ctrl.fileData.length ::
          view.fileRows.drop (view.insertPosition env data) := by
  let insert (rows : List ℕ) : List ℕ :=
    let position := env.comparison.algorithms.lowerBound
      (fun row => env.less (view.ctrl.fileData ++ [data])
        (view.ctrl.getSortComparisonObject env.view) row
        view.ctrl.fileData.length) rows
    rows.take position ++ view.ctrl.fileData.length :: rows.drop position
  have hrows : (view.ctrl.mapRows insert).indexMapping.drop
      view.ctrl.parentRows = insert view.fileRows :=
    FileListCtrl.mapRows_drop hsound.parent
  exact hrows

theorem RowsSound.insertFile (hsound : view.RowsSound) :
    (view.insertFile env data).RowsSound := by
  have hrows : (view.insertFile env data).ctrl.indexMapping =
      view.ctrl.indexMapping.take view.ctrl.parentRows ++
        (view.fileRows.take (view.insertPosition env data) ++
          view.ctrl.fileData.length ::
            view.fileRows.drop (view.insertPosition env data)) := rfl
  have hlength : (view.insertFile env data).ctrl.fileData.length =
      view.ctrl.fileData.length + 1 := by
    simp [LocalListView.insertFile]
  constructor
  · change view.ctrl.parentRows ≤ _
    rw [hrows, List.length_append, List.length_take]
    have hparent := hsound.parent
    omega
  · intro row hrow
    rw [hlength]
    rw [hrows] at hrow
    rcases List.mem_append.mp hrow with hparent | hfile
    · have hlt := hsound.slots row (List.mem_of_mem_take hparent)
      omega
    · rcases List.mem_append.mp hfile with hfront | hback
      · have hlt := hsound.slots row
          (List.mem_of_mem_drop (List.mem_of_mem_take hfront))
        omega
      · rcases List.mem_cons.mp hback with hnew | hold
        · omega
        · have hlt := hsound.slots row
            (List.mem_of_mem_drop (List.mem_of_mem_drop hold))
          omega

theorem InOrder.insertFile [LocalListEnvironment.Preorders env]
    (hsorted : view.InOrder env) (hsound : view.RowsSound)
    (hobject : view.fileRows = [] ∨
      view.ctrl.getSortComparisonObject env.view =
        view.ctrl.currentSortObject env.view) :
    (view.insertFile env data).InOrder env := by
  unfold InOrder
  rw [insertFile_fileRows hsound]
  rcases hobject with hempty | hcurrent
  · refine Sorted.of_length_lt_two ?_
    simp [hempty]
  · have htrans : Std.TransCmp ((view.insertFile env data).currentOrder env) :=
      transCmp_currentOrder
    have hold : Sorted ((view.insertFile env data).currentOrder env)
        view.fileRows := by
      refine Sorted.congr hsorted ?_
      refine LocalListEnvironment.cmpRows_congr ?_
      intro a ha b hb
      have hfirst := hsound.slots a (List.mem_of_mem_drop ha)
      have hsecond := hsound.slots b (List.mem_of_mem_drop hb)
      have hdata : (view.insertFile env data).ctrl.fileData =
          view.ctrl.fileData ++ [data] := rfl
      rw [hdata, List.getD_append _ _ _ _ hfirst,
        List.getD_append _ _ _ _ hsecond]
    rcases hold.split view.ctrl.fileData.length with
      ⟨front, back, hrows, hfront, hback⟩
    have hposition : view.insertPosition env data = front.length := by
      unfold insertPosition
      rw [hrows, hcurrent]
      apply env.comparison.algorithms.lowerBound_append
      · intro row hrow
        have hlt : env.cmpRows (view.ctrl.fileData ++ [data])
            (view.ctrl.currentSortObject env.view) row
            view.ctrl.fileData.length = .lt := hfront row hrow
        simp [LocalListEnvironment.less, hlt]
      · intro row hrow
        have hnot : env.cmpRows (view.ctrl.fileData ++ [data])
            (view.ctrl.currentSortObject env.view) row
            view.ctrl.fileData.length ≠ .lt := hback row hrow
        simpa [LocalListEnvironment.less] using hnot
    rw [hposition, hrows, List.take_left, List.drop_left]
    rw [hrows] at hold
    exact hold.insert hfront hback

end File

/-! ## Runs -/

/-- What the list does outside of a directory comparison. -/
def Plain (input : LocalListInput) : Prop :=
  match input with
  | .displayDir .. | .sortList .. | .refreshFile .. | .applyCurrentFilter ..
  | .computeTypes .. => True
  | .compareListings .. | .refreshComparison .. | .exitComparisonMode => False

variable (env) in
/-- A file that is listed keeps its kind when the list is sorted by name, and
a new file finds the comparison object of the current order. -/
def KeepsOrder (view : LocalListView) (input : LocalListInput) : Prop :=
  match input with
  | .refreshFile file (some entry) _ =>
      view.filters view.dir { entry with name := file } = false →
      match view.ctrl.fileData.findIdx? fun oldData => oldData.name = file with
      | some index =>
          view.ctrl.sortColumn = 0 → env.comparison.dirSortOption = 2 ∨
            index ∉ view.fileRows ∨
            (view.ctrl.fileData.getD index
              LocalListEnvironment.noData).dir = entry.dir
      | none =>
          view.fileRows = [] ∨
            view.ctrl.getSortComparisonObject env.view =
              view.ctrl.currentSortObject env.view
  | _ => True

structure PlainSorted (env : LocalListEnvironment) (view : LocalListView) :
    Prop where
  plain : view.isComparing = false
  sound : view.RowsSound
  sorted : view.InOrder env

section Steps

variable {other : Other} [LocalListEnvironment.Preorders env]

theorem New.displayDir {dirname : WString} {hasParent : Bool}
    {listing : Option (List LocalEntry)} (hnew : view.New) :
    PlainSorted env (view.displayDir env dirname hasParent listing other) where
  plain := displayDir_isComparing hnew.isComparing listing
  sound := displayDir_rowsSound hnew.isComparing listing
  sorted := displayDir_inOrder hnew.isComparing listing

theorem PlainSorted.sortList (hsorted : PlainSorted env view) (column : ℤ)
    (direction : Option Bool) :
    PlainSorted env (view.sortList env column direction) where
  plain := hsorted.plain
  sound := hsorted.sound.sortList
  sorted := InOrder.sortList hsorted.sound fun _ => hsorted.sorted

theorem PlainSorted.applyCurrentFilter (hsorted : PlainSorted env view)
    (filters : LocalFilters) (sameFilters : Bool) :
    PlainSorted env
      (view.applyCurrentFilter env filters sameFilters other) := by
  rw [applyCurrentFilter_plain hsorted.plain]
  split
  · exact ⟨hsorted.plain, ⟨hsorted.sound.parent, hsorted.sound.slots⟩,
      hsorted.sorted⟩
  · next hfiles =>
      have hsound : ({ view with filters } : LocalListView).filterRows.RowsSound :=
        filterRows_rowsSound (by
          change view.ctrl.parentRows < view.ctrl.fileData.length
          omega)
      exact ⟨hsorted.plain, hsound.sortList, InOrder.sortList_again hsound⟩

omit [LocalListEnvironment.Preorders env] in
theorem refreshComparison_plain (hplain : view.isComparing = false) :
    view.refreshComparison env other = view := by
  cases other with
  | none => rfl
  | some remote => simp [refreshComparison, hplain]

theorem PlainSorted.updateFile {file : WString} {data : LocalFileData}
    {index : ℕ} (hsorted : PlainSorted env view) (hname : data.name = file)
    (hfind : view.ctrl.fileData.findIdx? (fun oldData => oldData.name = file) =
      some index)
    (hkeeps : view.ctrl.sortColumn = 0 → env.comparison.dirSortOption = 2 ∨
      index ∉ view.fileRows ∨
      (view.ctrl.fileData.getD index LocalListEnvironment.noData).dir =
        data.dir) :
    PlainSorted env
      (if (view.updateFile index data).ctrl.sortColumn ≠ 0 then
        (view.updateFile index data).sortList env (-1) none
      else view.updateFile index data) := by
  have hsound := @RowsSound.updateFile view index data hsorted.sound
  split
  · exact ⟨hsorted.plain, hsound.sortList, InOrder.sortList_again hsound⟩
  · next hcolumn =>
      have hzero : view.ctrl.sortColumn = 0 := not_ne_iff.mp hcolumn
      rcases List.findIdx?_eq_some_iff_getElem.mp hfind with
        ⟨hlt, hfound, -⟩
      have hold : (view.ctrl.fileData.getD index
          LocalListEnvironment.noData).name = data.name := by
        rw [List.getD_eq_getElem _ _ hlt, hname]
        simpa using hfound
      exact ⟨hsorted.plain, hsound,
        InOrder.updateFile hsorted.sorted hzero hold (hkeeps hzero)⟩

theorem PlainSorted.insertFile {data : LocalFileData}
    (hsorted : PlainSorted env view)
    (hobject : view.fileRows = [] ∨
      view.ctrl.getSortComparisonObject env.view =
        view.ctrl.currentSortObject env.view) :
    PlainSorted env (view.insertFile env data) where
  plain := hsorted.plain
  sound := hsorted.sound.insertFile
  sorted := InOrder.insertFile hsorted.sorted hsorted.sound hobject

theorem PlainSorted.refreshFile (hsorted : PlainSorted env view)
    {file : WString} {info : Option LocalEntry}
    (hkeeps : view.KeepsOrder env (.refreshFile file info other)) :
    PlainSorted env (view.refreshFile env file info other) := by
  cases info with
  | none => exact hsorted
  | some entry =>
      unfold LocalListView.refreshFile
      dsimp only
      split
      · exact hsorted
      · next hshown =>
          have hkept := hkeeps (Bool.eq_false_iff.mpr hshown)
          cases hfind : view.ctrl.fileData.findIdx?
              fun oldData => oldData.name = file with
          | some index =>
              rw [hfind] at hkept
              have hplain : (view.updateFile index
                  { entry.data with name := file }).isComparing = false :=
                hsorted.plain
              dsimp only
              rw [hplain, if_neg (by decide)]
              exact hsorted.updateFile rfl hfind hkept
          | none =>
              rw [hfind] at hkept
              have hback : view.takeBackRows = view := by
                simp [takeBackRows, hsorted.plain]
              dsimp only
              rw [hback]
              have hinserted : PlainSorted env (view.insertFile env
                  { entry.data with name := file }) :=
                hsorted.insertFile hkept
              rw [refreshComparison_plain hinserted.plain]
              exact hinserted

omit [LocalListEnvironment.Preorders env] in
theorem typeOf_computed (data : LocalFileData) :
    env.typeOf { data with fileType := env.typeOf data } = env.typeOf data := by
  by_cases hgiven : data.fileType = []
  · simp [LocalListEnvironment.typeOf, hgiven]
  · simp [LocalListEnvironment.typeOf, hgiven]

omit [LocalListEnvironment.Preorders env] in
theorem cmpData_computed {object : SortObject} (rows : List ℕ) (a b : ℕ) :
    env.cmpData object
        ((view.computeTypes env rows).ctrl.fileData.getD a
          LocalListEnvironment.noData)
        ((view.computeTypes env rows).ctrl.fileData.getD b
          LocalListEnvironment.noData) =
      env.cmpData object
        (view.ctrl.fileData.getD a LocalListEnvironment.noData)
        (view.ctrl.fileData.getD b LocalListEnvironment.noData) := by
  have hdata : ∀ row, ∃ fileType,
      (view.computeTypes env rows).ctrl.fileData.getD row
          LocalListEnvironment.noData =
        { view.ctrl.fileData.getD row LocalListEnvironment.noData with
          fileType } ∧
      env.typeOf
        { view.ctrl.fileData.getD row LocalListEnvironment.noData with
          fileType } =
        env.typeOf (view.ctrl.fileData.getD row
          LocalListEnvironment.noData) := by
    intro row
    simp only [LocalListView.computeTypes, List.getD_eq_getElem?_getD,
      List.getElem?_mapIdx]
    cases hrow : view.ctrl.fileData[row]? with
    | none => exact ⟨_, rfl, rfl⟩
    | some data =>
        by_cases hmem : row ∈ rows
        · refine ⟨env.typeOf data, ?_, typeOf_computed data⟩
          simp [hmem]
        · refine ⟨data.fileType, ?_, rfl⟩
          simp [hmem]
  rcases hdata a with ⟨first, hfirst, htype⟩
  rcases hdata b with ⟨second, hsecond, htype'⟩
  rw [hfirst, hsecond]
  unfold LocalListEnvironment.cmpData LocalListEnvironment.cmpColumn
  rw [htype, htype']

omit [LocalListEnvironment.Preorders env] in
theorem PlainSorted.computeTypes (hsorted : PlainSorted env view)
    (rows : List ℕ) : PlainSorted env (view.computeTypes env rows) := by
  have hlength : (view.computeTypes env rows).ctrl.fileData.length =
      view.ctrl.fileData.length := by
    simp [LocalListView.computeTypes]
  constructor
  · exact hsorted.plain
  · constructor
    · exact hsorted.sound.parent
    · intro row hrow
      rw [hlength]
      exact hsorted.sound.slots row hrow
  · refine Sorted.congr hsorted.sorted ?_
    refine LocalListEnvironment.cmpRows_congr ?_
    intro a _ b _
    exact cmpData_computed rows a b

/-- One input that keeps the order. -/
theorem PlainSorted.handle (hsorted : PlainSorted env view)
    {input : LocalListInput} (hplain : Plain input)
    (hkeeps : view.KeepsOrder env input) :
    PlainSorted env (view.handle env input) := by
  cases input with
  | displayDir dirname hasParent listing other =>
      exact ⟨displayDir_isComparing hsorted.plain listing,
        displayDir_rowsSound hsorted.plain listing,
        displayDir_inOrder hsorted.plain listing⟩
  | sortList column direction => exact hsorted.sortList column direction
  | refreshFile file info other => exact hsorted.refreshFile hkeeps
  | applyCurrentFilter filters sameFilters other =>
      exact hsorted.applyCurrentFilter filters sameFilters
  | compareListings other => cases hplain
  | refreshComparison other => cases hplain
  | exitComparisonMode => cases hplain
  | computeTypes rows => exact hsorted.computeTypes rows

/-- The rows are in the order of the comparison after every run that keeps it.
-/
theorem local_list_sorted {inputs : List LocalListInput}
    {outputs : List Empty}
    (hreach : (machine env).ReachesWithin
      (fun view input => Plain input ∧ view.KeepsOrder env input)
      inputs outputs view) :
    view.InOrder env := by
  have hinvariant : PlainSorted env view := by
    refine hreach.stateInvariant (PlainSorted env) ?_ ?_
    · intro state hinitial
      rcases hinitial with ⟨new, dirname, hasParent, listing, hnew, rfl⟩
      exact hnew.displayDir
    · intro state input following answer hsorted hallowed hstep
      have hfollowing : state.handle env input = following := by
        have hpair := Option.some.inj hstep
        exact congrArg Prod.fst hpair
      rw [← hfollowing]
      exact hsorted.handle hallowed.1 hallowed.2
  exact hinvariant.sorted

end Steps

/-! ## Rows out of order -/

instance : LocalListEnvironment.Preorders plainLocalList where
  stricmp := inferInstanceAs (Std.TransCmp plainOrder.stricmp)
  compareTime := inferInstanceAs (Std.TransCmp plainOrder.compareTime)
  cmpName := inferInstanceAs (Std.TransCmp plainOrder.cmpNoCase)

/-- A new file is inserted by the order before the list was reversed, and a
file that has become a directory stays among the files. -/
theorem local_list_unsorted :
    (∃ view, (machine plainLocalList).Reaches
        [.sortList 0 (some true),
          .displayDir ['/'] false (some [plainFile 'a']) none,
          .refreshFile ['b'] (some (plainFile 'b')) none] [] view ∧
        ¬ view.InOrder plainLocalList) ∧
      ∃ view, (machine plainLocalList).Reaches
        [.refreshFile ['c'] (some { plainFile 'c' with dir := true }) none] []
          view ∧
        ¬ view.InOrder plainLocalList := by
  have hstart : (machine plainLocalList).Reaches [] [] twoFiles :=
    .start twoFiles_initial
  constructor
  · refine ⟨_, ((hstart.next trivial rfl).next trivial rfl).next trivial rfl, ?_⟩
    unfold InOrder Sorted
    decide
  · refine ⟨_, hstart.next trivial rfl, ?_⟩
    unfold InOrder Sorted
    decide

/-- A new file in a list that has been sorted. -/
theorem local_list_sorted_twoFiles :
    ∃ view, (machine plainLocalList).ReachesWithin
        (fun view input => Plain input ∧ view.KeepsOrder plainLocalList input)
        [.refreshFile ['b'] (some (plainFile 'b')) none] [] view ∧
      view.ctrl.indexMapping = [0, 2, 1] ∧ view.InOrder plainLocalList := by
  have hallowed : Plain (.refreshFile ['b'] (some (plainFile 'b')) none) ∧
      twoFiles.KeepsOrder plainLocalList
        (.refreshFile ['b'] (some (plainFile 'b')) none) := by
    refine ⟨trivial, ?_⟩
    intro _
    exact Or.inr rfl
  have hstart : (machine plainLocalList).ReachesWithin
      (fun view input => Plain input ∧ view.KeepsOrder plainLocalList input)
      [] [] twoFiles := .start twoFiles_initial
  have hreach := hstart.next hallowed rfl
  exact ⟨_, hreach, by decide, local_list_sorted hreach⟩

end LocalListView

end TabFtp
