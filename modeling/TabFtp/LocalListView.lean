import TabFtp.DirectoryComparison
import TabFtp.LabelledRuns
import TabFtp.SortedRows

/-!
# The local file list

`CLocalListView` shows the entries of a local directory.  Its operations are
listing the directory, looking at one file again, filtering, sorting and
directory comparison; what the file system, the filters and the other list
answer is an input of the operation that asks.
-/

namespace TabFtp

structure LocalEntry where
  name : WString
  time : Option Datetime
  size : ℤ
  attributes : ℤ
  dir : Bool
  link : Bool

def LocalEntry.data (entry : LocalEntry) : LocalFileData :=
  { fileType := [], comparisonFlags := .normal, name := entry.name
    time := entry.time, size := entry.size, attributes := entry.attributes
    dir := entry.dir, link := entry.link }

def LocalFileData.entry (data : LocalFileData) : LocalEntry :=
  { name := data.name, time := data.time, size := data.size
    attributes := data.attributes, dir := data.dir, link := data.link }

/-- `FilenameFiltered`: the files of a directory that are hidden. -/
abbrev LocalFilters := WString → LocalEntry → Bool

structure LocalListEnvironment where
  comparison : ComparisonEnvironment
  columnVisible : ℤ → Bool
  /-- `GetType` -/
  getType : WString → Bool → WString

structure LocalListView where
  ctrl : FileListCtrl LocalFileData
  dir : WString
  filters : LocalFilters
  isComparing : Bool

namespace LocalListEnvironment

variable (env : LocalListEnvironment)

def view : FileListEnvironment :=
  env.comparison.view env.columnVisible

def typeOf (data : LocalFileData) : WString :=
  if data.fileType = [] then env.getType data.name data.dir
  else data.fileType

def cmpColumn (column : ℤ) (data1 data2 : LocalFileData) : Ordering :=
  if column = 1 then cmpSize data1.size data2.size
  else if column = 2 then
    env.comparison.order.stricmp (env.typeOf data1) (env.typeOf data2)
  else if column = 3 then
    env.comparison.order.compareTime data1.time data2.time
  else .eq

/-- The comparison objects `CFileListCtrlSortName`, `CFileListCtrlSortSize`,
`CFileListCtrlSortType` and `CFileListCtrlSortTime`. -/
def cmpData (object : SortObject) (data1 data2 : LocalFileData) : Ordering :=
  (cmpDir object.dirSortMode data1.dir data2.dir).then
    ((env.cmpColumn object.column data1 data2).then
      (env.comparison.order.cmpName object.nameSortMode data1.name
        data2.name))

def noData : LocalFileData :=
  { fileType := [], comparisonFlags := .normal, name := [], time := none
    size := -1, attributes := 0, dir := false, link := false }

/-- A comparison object on two rows; `CReverseSort` exchanges them. -/
def cmpRows (fileData : List LocalFileData) (object : SortObject) (a b : ℕ) :
    Ordering :=
  let data (row : ℕ) := fileData.getD row noData
  if object.reversed then env.cmpData object (data b) (data a)
  else env.cmpData object (data a) (data b)

def less (fileData : List LocalFileData) (object : SortObject) (a b : ℕ) :
    Bool :=
  env.cmpRows fileData object a b == .lt

end LocalListEnvironment

namespace LocalListView

variable (env : LocalListEnvironment) (view : LocalListView)

/-- The remote list, if it can be compared with. -/
abbrev Other := Option (ComparedList GenericFileData)

def sortList (column : ℤ) (direction : Option Bool) : LocalListView :=
  { view with
    ctrl := view.ctrl.sortList env.view (env.less view.ctrl.fileData) column
      direction }

def filler : LocalFileData :=
  { LocalListEnvironment.noData with comparisonFlags := .fill }

def comparedList : ComparedList LocalFileData :=
  { ctrl := view.ctrl
    columnVisible := env.columnVisible
    less := env.less view.ctrl.fileData
    filler
    read := readLocal (view.ctrl.ensureFiller filler).fileData }

def compareListings (other : Other) : LocalListView :=
  match other with
  | none => { view with isComparing := true }
  | some remote =>
      { view with
        isComparing := true
        ctrl := (TabFtp.compareListings env.comparison
          (view.comparedList env) remote).1 }

def refreshComparison (other : Other) : LocalListView :=
  match other with
  | none => view
  | some remote =>
      if view.isComparing then view.compareListings env (some remote) else view

def exitComparisonMode : LocalListView :=
  if view.isComparing then
    { view with isComparing := false, ctrl := view.ctrl.onExitComparisonMode }
  else view

def unfiltered (row : ℕ) : Bool :=
  match view.ctrl.fileData[row]? with
  | some data => !view.filters view.dir data.entry
  | none => false

def parentData : LocalFileData :=
  { LocalListEnvironment.noData with
    name := ComparisonEnvironment.dotdot, dir := true }

def parentEntry (hasParent : Bool) : List LocalFileData :=
  if hasParent then [parentData] else []

def parentRow (hasParent : Bool) : List ℕ :=
  if hasParent then [0] else []

/-- `DisplayDir` up to the question for the entries. -/
def enterDir (dirname : WString) (hasParent : Bool) : LocalListView :=
  let view :=
    if view.dir ≠ dirname then
      { view.exitComparisonMode with dir := dirname }
    else view
  { view with
    ctrl :=
      { view.ctrl with
        fileData := parentEntry hasParent
        indexMapping := parentRow hasParent
        hasParent } }

def addEntries (entries : List LocalEntry) : LocalListView :=
  let named := entries.filter fun entry => entry.name ≠ []
  let fileData := view.ctrl.fileData ++ named.map LocalEntry.data
  let listed := { view with ctrl := { view.ctrl with fileData } }
  let rows := List.range' view.ctrl.fileData.length named.length
  { listed with
    ctrl :=
      { listed.ctrl with
        indexMapping :=
          listed.ctrl.indexMapping ++ rows.filter listed.unfiltered } }

def restartComparison (other : Other) : LocalListView :=
  if view.isComparing then
    { view with
      ctrl := { view.ctrl with originalIndexMapping := [] } }.refreshComparison
        env other
  else view

def displayDir (dirname : WString) (hasParent : Bool)
    (listing : Option (List LocalEntry)) (other : Other) : LocalListView :=
  match listing with
  | none => view.enterDir dirname hasParent
  | some entries =>
      (((view.enterDir dirname hasParent).addEntries entries).sortList env
        (-1) none).restartComparison env other

/-- The rows of `ApplyCurrentFilter`, which leaves out the filler. -/
def filterRows : LocalListView :=
  let first := view.ctrl.parentRows
  let rows := List.range' first (view.ctrl.fileData.length - first)
  let shown (row : ℕ) : Bool :=
    view.ctrl.fileData[row]?.map FileData.comparisonFlags ≠ some .fill &&
      view.unfiltered row
  { view with
    ctrl :=
      { view.ctrl with
        indexMapping :=
          parentRow view.ctrl.hasParent ++ rows.filter shown } }

def applyCurrentFilter (filters : LocalFilters) (sameFilters : Bool)
    (other : Other) : LocalListView :=
  let view := { view with filters }
  let view := if sameFilters then view else view.exitComparisonMode
  if view.ctrl.fileData.length ≤ view.ctrl.parentRows then view
  else
    ((view.filterRows).sortList env (-1) none).restartComparison env other

def updateFile (index : ℕ) (data : LocalFileData) : LocalListView :=
  { view with
    ctrl :=
      { view.ctrl with
        fileData := view.ctrl.fileData.modify index fun oldData =>
          { data with fileType := oldData.fileType } } }

def takeBackRows : LocalListView :=
  if view.isComparing && view.ctrl.originalIndexMapping ≠ [] then
    { view with
      ctrl :=
        { view.ctrl with
          indexMapping := view.ctrl.originalIndexMapping
          originalIndexMapping := [] } }
  else view

def insertFile (data : LocalFileData) : LocalListView :=
  let index := view.ctrl.fileData.length
  let fileData := view.ctrl.fileData ++ [data]
  let object := view.ctrl.getSortComparisonObject env.view
  let insert (rows : List ℕ) : List ℕ :=
    let position := env.comparison.algorithms.lowerBound
      (fun row => env.less fileData object row index) rows
    rows.take position ++ index :: rows.drop position
  { view with
    ctrl :=
      { view.ctrl.mapRows insert with
        fileData, sortComparisonObject := some object } }

def refreshFile (file : WString) (info : Option LocalEntry) (other : Other) :
    LocalListView :=
  match info with
  | none => view
  | some entry =>
      let data := { entry.data with name := file }
      if view.filters view.dir data.entry then view
      else
        match view.ctrl.fileData.findIdx? fun oldData => oldData.name = file with
        | some index =>
            let view := view.updateFile index data
            if view.isComparing then view.refreshComparison env other
            else if view.ctrl.sortColumn ≠ 0 then view.sortList env (-1) none
            else view
        | none => (view.takeBackRows.insertFile env data).refreshComparison env
            other

def computeTypes (rows : List ℕ) : LocalListView :=
  { view with
    ctrl :=
      { view.ctrl with
        fileData := view.ctrl.fileData.mapIdx fun index data =>
          if index ∈ rows then { data with fileType := env.typeOf data }
          else data } }

end LocalListView

inductive LocalListInput
  | displayDir (dirname : WString) (hasParent : Bool)
      (listing : Option (List LocalEntry)) (other : LocalListView.Other)
  | sortList (column : ℤ) (direction : Option Bool)
  | refreshFile (file : WString) (info : Option LocalEntry)
      (other : LocalListView.Other)
  | applyCurrentFilter (filters : LocalFilters) (sameFilters : Bool)
      (other : LocalListView.Other)
  | compareListings (other : LocalListView.Other)
  | refreshComparison (other : LocalListView.Other)
  | exitComparisonMode
  | computeTypes (rows : List ℕ)

namespace LocalListView

variable (env : LocalListEnvironment)

def handle (view : LocalListView) (input : LocalListInput) : LocalListView :=
  match input with
  | .displayDir dirname hasParent listing other =>
      view.displayDir env dirname hasParent listing other
  | .sortList column direction => view.sortList env column direction
  | .refreshFile file info other => view.refreshFile env file info other
  | .applyCurrentFilter filters sameFilters other =>
      view.applyCurrentFilter env filters sameFilters other
  | .compareListings other => view.compareListings env other
  | .refreshComparison other => view.refreshComparison env other
  | .exitComparisonMode => view.exitComparisonMode
  | .computeTypes rows => view.computeTypes env rows

structure New (view : LocalListView) : Prop where
  originalIndexMapping : view.ctrl.originalIndexMapping = []
  sortComparisonObject : view.ctrl.sortComparisonObject = none
  isComparing : view.isComparing = false

/-- The list shows a directory before anything else happens. -/
def machine : LabelledRuns.Machine LocalListView LocalListInput Empty where
  initial view := ∃ new dirname hasParent listing, New new ∧
    view = new.displayDir env dirname hasParent listing none
  step view input := some (view.handle env input, [])

/-! ## A small directory -/

def plainLocalList : LocalListEnvironment where
  comparison := plainComparison
  columnVisible _ := true
  getType _ dir := if dir then ['d'] else ['f']

def emptyLocalList : LocalListView where
  ctrl :=
    { fileData := []
      indexMapping := []
      originalIndexMapping := []
      hasParent := true
      sortColumn := 0
      sortDirection := false
      sortComparisonObject := none }
  dir := []
  filters _ _ := false
  isComparing := false

def plainFile (name : Char) : LocalEntry :=
  { name := [name], time := none, size := 0, attributes := 0, dir := false
    link := false }

def twoFiles : LocalListView :=
  emptyLocalList.displayDir plainLocalList ['/'] false
    (some [plainFile 'a', plainFile 'c']) none

theorem twoFiles_initial : (machine plainLocalList).initial twoFiles :=
  ⟨emptyLocalList, _, _, _, ⟨rfl, rfl, rfl⟩, rfl⟩

end LocalListView

end TabFtp
