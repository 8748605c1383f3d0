import TabFtp.DirectoryListing
import TabFtp.XmlTree

/-!
# Filters and their XML elements

A filter has conditions on the name, path, size, attributes and date of a
file, and a rule that combines them.  `CFilterCondition::set` derives from the
text of a condition what its type needs; only the type, the operator and the
text are stored, and reading a filter derives the rest again.
-/

namespace TabFtp

open XmlTree

structure FilterLibrary (Regex : Type) where
  /-- `fz::str_tolower` -/
  strToLower : WString → WString
  /-- `regex_ns::wregex`, where an expression may be invalid -/
  wregex : WString → Bool → Option Regex
  /-- `regex_ns::regex_search` -/
  regexSearch : WString → Regex → Bool
  /-- `fz::to_integral<int64_t>` -/
  toIntegral : WString → ℤ
  /-- `fz::datetime` from a text in local time -/
  localTime : WString → Option Datetime
  /-- `fz::datetime::compare` -/
  compare : Datetime → Datetime → ℤ

/-- `t_filterType` -/
inductive FilterType
  | name | size | attributes | permissions | path | date

structure FilterCondition (Regex : Type) where
  strValue : WString
  lowerValue : WString
  date : Option Datetime
  value : ℤ
  pRegEx : Option Regex
  type : FilterType
  condition : Int32

/-- `CFilter::t_matchType` -/
inductive MatchType
  | all | any | none | notAll
  deriving DecidableEq

structure Filter (Regex : Type) where
  filters : List (FilterCondition Regex)
  name : WString
  matchType : MatchType
  filterFiles : Bool
  filterDirs : Bool
  matchCase : Bool

structure FilterSet where
  name : WString
  localFilters : List Bool
  remoteFilters : List Bool

structure FilterData (Regex : Type) where
  filters : List (Filter Regex)
  filterSets : List FilterSet
  currentFilterSet : UInt32

variable {Regex : Type}

/-! ## Conditions -/

def compileRegex (lib : FilterLibrary Regex) (text : WString)
    (matchCase : Bool) : Option Regex :=
  if 2000 < text.length then none else lib.wregex text matchCase

namespace FilterCondition

def default : FilterCondition Regex := ⟨[], [], none, 0, none, .name, 0⟩

/-- `set`.  A condition that it refuses is not used any more. -/
def set (lib : FilterLibrary Regex) (current : FilterCondition Regex)
    (type : FilterType) (text : WString) (condition : Int32)
    (matchCase : Bool) : Option (FilterCondition Regex) :=
  if text = [] then none
  else
    let current := { current with
      type := type, condition := condition, strValue := text, pRegEx := none }
    match type with
    | .name | .path =>
        if condition = 4 then
          match compileRegex lib text matchCase with
          | none => none
          | some regex => some { current with pRegEx := some regex }
        else if matchCase then some current
        else some { current with lowerValue := lib.strToLower text }
    | .size | .attributes | .permissions =>
        some { current with value := lib.toIntegral text }
    | .date =>
        match lib.localTime text with
        | none => none
        | some date => some { current with date := some date }

def stringMatch (lib : FilterLibrary Regex) (subject : WString)
    (current : FilterCondition Regex) (matchCase : Bool) : Bool :=
  let text := if matchCase then subject else lib.strToLower subject
  let value := if matchCase then current.strValue else current.lowerValue
  match current.condition.toInt with
  | 0 => decide (value <:+: text)
  | 1 => text == value
  | 2 => value.isPrefixOf text
  | 3 => value.isSuffixOf text
  | 4 =>
      match current.pRegEx with
      | none => false
      | some regex => lib.regexSearch subject regex
  | 5 => !decide (value <:+: text)
  | _ => false

def attributeFlag : ℤ → Int32
  | 0 => 0x20
  | 1 => 0x800
  | 2 => 0x4000
  | 3 => 0x2
  | 4 => 0x1
  | 5 => 0x4
  | _ => 0

def permissionFlag : ℤ → Int32
  | 0 => 0o400
  | 1 => 0o200
  | 2 => 0o100
  | 3 => 0o40
  | 4 => 0o20
  | 5 => 0o10
  | 6 => 0o4
  | 7 => 0o2
  | 8 => 0o1
  | _ => 0

def flagMatch (flag attributes : Int32) (value : ℤ) : Bool :=
  (if flag &&& attributes = 0 then 0 else 1) == value

/-- Whether a file meets a condition; nothing if the condition does not apply
to it. -/
def test (lib : FilterLibrary Regex) (windows matchCase : Bool)
    (current : FilterCondition Regex) (name path : WString) (size : ℤ)
    (attributes : Int32) (date : Option Datetime) : Option Bool :=
  match current.type with
  | .name => some (current.stringMatch lib name matchCase)
  | .path => some (current.stringMatch lib path matchCase)
  | .size =>
      if size = -1 then none
      else
        match current.condition.toInt with
        | 0 => some (decide (current.value < size))
        | 1 => some (decide (size = current.value))
        | 2 => some (decide (size ≠ current.value))
        | 3 => some (decide (size < current.value))
        | _ => some false
  | .attributes =>
      if windows = false ∨ attributes = 0 then none
      else
        some (flagMatch (attributeFlag current.condition.toInt) attributes
          current.value)
  | .permissions =>
      if windows = true ∨ attributes = -1 then none
      else
        some (flagMatch (permissionFlag current.condition.toInt) attributes
          current.value)
  | .date =>
      match date, current.date with
      | some date, some limit =>
          let cmp := lib.compare date limit
          match current.condition.toInt with
          | 0 => some (decide (cmp < 0))
          | 1 => some (decide (cmp = 0))
          | 2 => some (decide (cmp ≠ 0))
          | 3 => some (decide (0 < cmp))
          | _ => some false
      | _, _ => some false

end FilterCondition

/-! ## Filters -/

/-- The answer that a condition gives on its own. -/
def MatchType.answer : MatchType → Bool → Option Bool
  | .any, true => some true
  | .none, true => some false
  | .all, false => some false
  | .notAll, false => some true
  | _, _ => Option.none

namespace Filter

def decideFrom (lib : FilterLibrary Regex) (windows : Bool)
    (filter : Filter Regex) (name path : WString) (size : ℤ)
    (attributes : Int32) (date : Option Datetime) :
    List (FilterCondition Regex) → Bool
  | [] =>
      if filter.matchType = .notAll then false
      else filter.matchType != .any || filter.filters.isEmpty
  | condition :: rest =>
      match condition.test lib windows filter.matchCase name path size
          attributes date with
      | none =>
          decideFrom lib windows filter name path size attributes date rest
      | some isMatch =>
          match filter.matchType.answer isMatch with
          | some answer => answer
          | none =>
              decideFrom lib windows filter name path size attributes date
                rest

/-- `FilenameFilteredByFilter` -/
def filtered (lib : FilterLibrary Regex) (windows : Bool)
    (filter : Filter Regex) (name path : WString) (dir : Bool) (size : ℤ)
    (attributes : Int32) (date : Option Datetime) : Bool :=
  if dir = true ∧ filter.filterDirs = false then false
  else if dir = false ∧ filter.filterFiles = false then false
  else
    decideFrom lib windows filter name path size attributes date
      filter.filters

end Filter

/-! ## XML elements -/

def MatchType.xmlName : MatchType → WString
  | .all => "All".toList
  | .any => "Any".toList
  | .none => "None".toList
  | .notAll => "Not all".toList

/-- The match type of this name, or `all`. -/
def MatchType.ofXmlName (name : WString) : MatchType :=
  [MatchType.all, .any, .none, .notAll].foldl
    (fun found type => if name = type.xmlName then type else found) .all

/-- The numbers that stand for the types of conditions in a file. -/
def FilterType.number : FilterType → ℤ
  | .name => 0
  | .size => 1
  | .attributes => 2
  | .permissions => 3
  | .path => 4
  | .date => 5

def FilterType.ofNumber : ℤ → Option FilterType
  | 0 => some .name
  | 1 => some .size
  | 2 => some .attributes
  | 3 => some .permissions
  | 4 => some .path
  | 5 => some .date
  | _ => none

def boolText (value : Bool) : WString :=
  if value then ['1'] else ['0']

/-- The element of a condition within `save_filter`. -/
def saveCondition (condition : FilterCondition Regex) : XmlNode :=
  (((XmlNode.empty "Condition").addIntElement "Type"
    condition.type.number).addIntElement "Condition"
      condition.condition.toInt).addTextElement "Value" condition.strValue

def saveFilter (element : XmlNode) (filter : Filter Regex) : XmlNode :=
  let element := element.addTextElement "Name" filter.name
  let element := element.addTextElement "ApplyToFiles"
    (boolText filter.filterFiles)
  let element := element.addTextElement "ApplyToDirs"
    (boolText filter.filterDirs)
  let element := element.addTextElement "MatchType" filter.matchType.xmlName
  let element := element.addTextElement "MatchCase"
    (boolText filter.matchCase)
  element.appendChild
    (filter.filters.foldl
      (fun conditions condition =>
        conditions.appendChild (saveCondition condition))
      (.empty "Conditions"))

def saveItem (item : Bool × Bool) : XmlNode :=
  ((XmlNode.empty "Item").addTextElement "Local"
    (boolText item.1)).addTextElement "Remote" (boolText item.2)

/-- The element of a set within `save_filters`. -/
def saveSet (set : FilterSet) : XmlNode :=
  (set.localFilters.zip set.remoteFilters).foldl
    (fun element item => element.appendChild (saveItem item))
    (if set.name = [] then .empty "Set"
      else (XmlNode.empty "Set").addTextElement "Name" set.name)

def saveFilters (element : XmlNode) (data : FilterData Regex) : XmlNode :=
  let filters := data.filters.foldl
    (fun filters filter =>
      filters.appendChild (saveFilter (.empty "Filter") filter))
    (.empty "Filters")
  let element := (element.removeChildren "Filters").appendChild filters
  let sets := data.filterSets.foldl
    (fun sets set => sets.appendChild (saveSet set))
    ((XmlNode.empty "Sets").appendAttribute "Current"
      (integerToString data.currentFilterSet.toInt32.toInt))
  (element.removeChildren "Sets").appendChild sets

/-- One condition within `load_filter`. -/
def loadCondition (lib : FilterLibrary Regex) (matchCase : Bool)
    (element : XmlNode) : Option (FilterCondition Regex) :=
  match FilterType.ofNumber (element.getInt "Type" (-1)) with
  | none => none
  | some type =>
      FilterCondition.default.set lib type (element.childValue "Value")
        (Int32.ofInt (element.getInt "Condition" 0)) matchCase

/-- The loop over the conditions in `load_filter`, which takes a thousand of
them. -/
def pushCondition (lib : FilterLibrary Regex) (filter : Filter Regex)
    (element : XmlNode) : Filter Regex :=
  match loadCondition lib filter.matchCase element with
  | none => filter
  | some condition =>
      if filter.filters.length < 1000 then
        { filter with filters := filter.filters ++ [condition] }
      else filter

def loadFilter (lib : FilterLibrary Regex) (element : XmlNode) :
    Filter Regex × Bool :=
  let filter : Filter Regex :=
    { filters := []
      name := (element.childValue "Name").take 255
      matchType := .ofXmlName (element.childValue "MatchType")
      filterFiles := element.childValue "ApplyToFiles" == ['1']
      filterDirs := element.childValue "ApplyToDirs" == ['1']
      matchCase := element.childValue "MatchCase" == ['1'] }
  match element.child "Conditions" with
  | none => (filter, false)
  | some conditions =>
      let filter :=
        (conditions.childrenNamed "Condition").foldl (pushCondition lib) filter
      (filter, !filter.filters.isEmpty)

/-- One filter within `load_filters`. -/
def pushFilter (lib : FilterLibrary Regex) (data : FilterData Regex)
    (element : XmlNode) : FilterData Regex :=
  let loaded := loadFilter lib element
  if loaded.2 = true ∧ loaded.1.name ≠ [] ∧ loaded.1.filters ≠ [] then
    { data with filters := data.filters ++ [loaded.1] }
  else data

/-- One set within `load_filters`. -/
def pushSet (data : FilterData Regex) (element : XmlNode) :
    FilterData Regex :=
  let items := element.childrenNamed "Item"
  let set : FilterSet :=
    { name :=
        if data.filterSets.isEmpty then []
        else (element.childValue "Name").take 255
      localFilters := items.map fun item => item.childValue "Local" == ['1']
      remoteFilters :=
        items.map fun item => item.childValue "Remote" == ['1'] }
  if data.filterSets.isEmpty = false ∧ set.name = [] then data
  else if set.localFilters.length = data.filters.length then
    { data with filterSets := data.filterSets ++ [set] }
  else data

def loadFilters (lib : FilterLibrary Regex) (element : XmlNode)
    (data : FilterData Regex) : FilterData Regex :=
  let data :=
    match element.child "Filters" with
    | none => data
    | some filters =>
        let data :=
          (filters.childrenNamed "Filter").foldl (pushFilter lib) data
        match element.child "Sets" with
        | none => data
        | some sets =>
            let data := (sets.childrenNamed "Set").foldl pushSet data
            let value := asInteger intMin intMax
              (sets.getAttribute "Current") 0
            if 0 ≤ value ∧ value < data.filterSets.length then
              { data with currentFilterSet := UInt32.ofNat value.toNat }
            else data
  if data.filterSets = [] then
    { data with
      filterSets :=
        [⟨[], List.replicate data.filters.length false,
          List.replicate data.filters.length false⟩] }
  else data

def FilterData.empty : FilterData Regex := ⟨[], [], 0⟩

end TabFtp
