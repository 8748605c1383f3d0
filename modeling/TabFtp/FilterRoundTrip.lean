import TabFtp.FilterData

/-!
# Filters survive being saved and loaded

What a condition tests is determined by its type, its operator and its text,
whatever else is left in it from earlier uses.  As no condition and no filter
is dropped, the sets still fit the filters.
-/

namespace TabFtp

open XmlTree

variable {Regex : Type} {lib : FilterLibrary Regex}

/-! ## Conditions -/

namespace FilterCondition

variable {before current loaded : FilterCondition Regex} {type : FilterType}
  {text : WString} {condition : Int32} {matchCase : Bool}

structure Derived (lib : FilterLibrary Regex) (matchCase : Bool)
    (current : FilterCondition Regex) : Prop where
  pRegEx : current.type = .name ∨ current.type = .path →
    current.condition = 4 →
    current.pRegEx = compileRegex lib current.strValue matchCase
  lowerValue : current.type = .name ∨ current.type = .path →
    current.condition ≠ 4 → matchCase = false →
    current.lowerValue = lib.strToLower current.strValue
  value : current.type = .size ∨ current.type = .attributes ∨
    current.type = .permissions →
    current.value = lib.toIntegral current.strValue
  date : current.type = .date → current.date = lib.localTime current.strValue

/-- The result of `set` does not depend on the condition before. -/
structure SetFrom (lib : FilterLibrary Regex) (type : FilterType)
    (text : WString) (condition : Int32) (matchCase : Bool)
    (current : FilterCondition Regex) : Prop where
  type_eq : current.type = type
  strValue_eq : current.strValue = text
  condition_eq : current.condition = condition
  derived : Derived lib matchCase current

theorem set_text_eq (htype : type = .name ∨ type = .path) :
    before.set lib type text condition matchCase =
      if text = [] then none
      else if condition = 4 then
        match compileRegex lib text matchCase with
        | none => none
        | some regex =>
            some { before with
              type := type, condition := condition, strValue := text
              pRegEx := some regex }
      else if matchCase then
        some { before with
          type := type, condition := condition, strValue := text
          pRegEx := none }
      else
        some { before with
          type := type, condition := condition, strValue := text
          pRegEx := none, lowerValue := lib.strToLower text } := by
  rcases htype with rfl | rfl
  · rfl
  · rfl

theorem set_text_cases (htype : type = .name ∨ type = .path)
    (hset : before.set lib type text condition matchCase = some current) :
    condition = 4 ∧ (∃ regex, compileRegex lib text matchCase = some regex ∧
        current = { before with
          type := type, condition := condition, strValue := text
          pRegEx := some regex }) ∨
      condition ≠ 4 ∧ matchCase = true ∧
        current = { before with
          type := type, condition := condition, strValue := text
          pRegEx := none } ∨
      condition ≠ 4 ∧ matchCase = false ∧
        current = { before with
          type := type, condition := condition, strValue := text
          pRegEx := none, lowerValue := lib.strToLower text } := by
  rw [set_text_eq htype] at hset
  split_ifs at hset with hempty hfour hcase
  · cases hregex : compileRegex lib text matchCase with
    | none => simp [hregex] at hset
    | some regex =>
        rw [hregex] at hset
        exact Or.inl ⟨hfour, regex, rfl, (Option.some.inj hset).symm⟩
  · exact Or.inr (Or.inl ⟨hfour, hcase, (Option.some.inj hset).symm⟩)
  · have hfalse : matchCase = false := Bool.eq_false_iff.mpr hcase
    exact Or.inr (Or.inr ⟨hfour, hfalse, (Option.some.inj hset).symm⟩)

theorem setFrom_text (htype : type = .name ∨ type = .path)
    (hset : before.set lib type text condition matchCase = some current) :
    SetFrom lib type text condition matchCase current := by
  have hnumber : ¬(type = .size ∨ type = .attributes ∨
      type = .permissions) := by
    rcases htype with rfl | rfl
    · simp
    · simp
  have hdate : type ≠ .date := by
    rcases htype with rfl | rfl
    · simp
    · simp
  rcases set_text_cases htype hset with
    ⟨hfour, regex, hregex, rfl⟩ | ⟨hother, hcase, rfl⟩ | ⟨hother, hcase, rfl⟩
  · exact ⟨rfl, rfl, rfl, fun _ _ => hregex.symm,
      fun _ hother _ => absurd hfour hother, fun h => absurd h hnumber,
      fun h => absurd h hdate⟩
  · refine ⟨rfl, rfl, rfl, fun _ hfour => absurd hfour hother, ?_,
      fun h => absurd h hnumber, fun h => absurd h hdate⟩
    intro _ _ hfalse
    rw [hcase] at hfalse
    cases hfalse
  · exact ⟨rfl, rfl, rfl, fun _ hfour => absurd hfour hother,
      fun _ _ _ => rfl, fun h => absurd h hnumber, fun h => absurd h hdate⟩

theorem setFrom_number
    (htype : type = .size ∨ type = .attributes ∨ type = .permissions)
    (hset : before.set lib type text condition matchCase = some current) :
    SetFrom lib type text condition matchCase current := by
  have htext : ¬(type = .name ∨ type = .path) := by
    rcases htype with rfl | rfl | rfl
    all_goals simp
  have hdate : type ≠ .date := by
    rcases htype with rfl | rfl | rfl
    all_goals simp
  have hbranch : before.set lib type text condition matchCase =
      if text = [] then none
      else
        some { before with
          type := type, condition := condition, strValue := text
          pRegEx := none, value := lib.toIntegral text } := by
    rcases htype with rfl | rfl | rfl
    all_goals rfl
  rw [hbranch] at hset
  split_ifs at hset
  cases hset
  exact ⟨rfl, rfl, rfl, fun h => absurd h htext, fun h => absurd h htext,
    fun _ => rfl, fun h => absurd h hdate⟩

theorem set_date_eq :
    before.set lib .date text condition matchCase =
      if text = [] then none
      else
        match lib.localTime text with
        | none => none
        | some date =>
            some { before with
              type := .date, condition := condition, strValue := text
              pRegEx := none, date := some date } :=
  rfl

theorem setFrom_date
    (hset : before.set lib .date text condition matchCase = some current) :
    SetFrom lib .date text condition matchCase current := by
  rw [set_date_eq] at hset
  split_ifs at hset
  cases htime : lib.localTime text with
  | none => simp [htime] at hset
  | some date =>
      rw [htime] at hset
      cases hset
      exact ⟨rfl, rfl, rfl, fun h => by simp at h, fun h => by simp at h,
        fun h => by simp at h, fun _ => htime.symm⟩

theorem setFrom_of_set
    (hset : before.set lib type text condition matchCase = some current) :
    SetFrom lib type text condition matchCase current := by
  cases type with
  | name => exact setFrom_text (Or.inl rfl) hset
  | path => exact setFrom_text (Or.inr rfl) hset
  | size => exact setFrom_number (Or.inl rfl) hset
  | attributes => exact setFrom_number (Or.inr (Or.inl rfl)) hset
  | permissions => exact setFrom_number (Or.inr (Or.inr rfl)) hset
  | date => exact setFrom_date hset

theorem ne_nil_of_set
    (hset : before.set lib type text condition matchCase = some current) :
    text ≠ [] := by
  intro hempty
  unfold set at hset
  rw [if_pos hempty] at hset
  cases hset

theorem set_text_isSome (htype : type = .name ∨ type = .path)
    (hset : before.set lib type text condition matchCase = some current)
    (other : FilterCondition Regex) :
    (other.set lib type text condition matchCase).isSome := by
  have hne := ne_nil_of_set hset
  rcases set_text_cases htype hset with
    ⟨hfour, regex, hregex, -⟩ | ⟨hother, hcase, -⟩ | ⟨hother, hcase, -⟩
  · rcases htype with rfl | rfl
    all_goals simp [set, hne, hfour, hregex]
  · rcases htype with rfl | rfl
    all_goals simp [set, hne, hother, hcase]
  · rcases htype with rfl | rfl
    all_goals simp [set, hne, hother, hcase]

theorem set_isSome
    (hset : before.set lib type text condition matchCase = some current)
    (other : FilterCondition Regex) :
    (other.set lib type text condition matchCase).isSome := by
  have hne := ne_nil_of_set hset
  cases type with
  | name => exact set_text_isSome (Or.inl rfl) hset other
  | path => exact set_text_isSome (Or.inr rfl) hset other
  | size => simp [set, hne]
  | attributes => simp [set, hne]
  | permissions => simp [set, hne]
  | date =>
      have hdate := (setFrom_date hset).derived.date (setFrom_date hset).type_eq
      cases htime : lib.localTime text with
      | none => simp [set, htime] at hset
      | some date => simp [set, hne, htime]

theorem stringMatch_eq (hcurrent : Derived lib matchCase current)
    (hloaded : Derived lib matchCase loaded)
    (htext : current.type = .name ∨ current.type = .path)
    (htype : loaded.type = current.type)
    (hvalue : loaded.strValue = current.strValue)
    (hcondition : loaded.condition = current.condition) (subject : WString) :
    loaded.stringMatch lib subject matchCase =
      current.stringMatch lib subject matchCase := by
  have htext' : loaded.type = .name ∨ loaded.type = .path := by
    rw [htype]
    exact htext
  by_cases hfour : current.condition = 4
  · have hregex : loaded.pRegEx = current.pRegEx := by
      rw [hloaded.pRegEx htext' (hcondition.trans hfour),
        hcurrent.pRegEx htext hfour, hvalue]
    unfold stringMatch
    rw [hcondition, hfour, hregex]
    rfl
  · have hnotfour : current.condition.toInt ≠ 4 := by
      intro hint
      exact hfour (Int32.toInt.inj hint)
    have hlower : matchCase = false →
        loaded.lowerValue = current.lowerValue := by
      intro hcase
      have hother : loaded.condition ≠ 4 := by
        rw [hcondition]
        exact hfour
      rw [hloaded.lowerValue htext' hother hcase,
        hcurrent.lowerValue htext hfour hcase, hvalue]
    have hpattern :
        (if matchCase then loaded.strValue else loaded.lowerValue) =
          if matchCase then current.strValue else current.lowerValue := by
      cases matchCase with
      | true => exact hvalue
      | false => exact hlower rfl
    unfold stringMatch
    simp only [hcondition, hpattern]
    split
    all_goals first | rfl | contradiction

theorem test_eq (hcurrent : Derived lib matchCase current)
    (hloaded : Derived lib matchCase loaded)
    (htype : loaded.type = current.type)
    (hvalue : loaded.strValue = current.strValue)
    (hcondition : loaded.condition = current.condition) (windows : Bool)
    (name path : WString) (size : ℤ) (attributes : Int32)
    (date : Option Datetime) :
    loaded.test lib windows matchCase name path size attributes date =
      current.test lib windows matchCase name path size attributes date := by
  have hnumber : current.type = .size ∨ current.type = .attributes ∨
      current.type = .permissions → loaded.value = current.value := by
    intro hkind
    have hkind' : loaded.type = .size ∨ loaded.type = .attributes ∨
        loaded.type = .permissions := by
      rw [htype]
      exact hkind
    rw [hloaded.value hkind', hcurrent.value hkind, hvalue]
  unfold test
  rw [htype]
  cases hkind : current.type with
  | name =>
      simp only
      rw [stringMatch_eq hcurrent hloaded (Or.inl hkind) htype hvalue
        hcondition]
  | path =>
      simp only
      rw [stringMatch_eq hcurrent hloaded (Or.inr hkind) htype hvalue
        hcondition]
  | size =>
      simp only
      rw [hnumber (Or.inl hkind), hcondition]
  | attributes =>
      simp only
      rw [hnumber (Or.inr (Or.inl hkind)), hcondition]
  | permissions =>
      simp only
      rw [hnumber (Or.inr (Or.inr hkind)), hcondition]
  | date =>
      have hdate : loaded.date = current.date := by
        rw [hloaded.date (htype.trans hkind), hcurrent.date hkind, hvalue]
      simp only
      rw [hdate, hcondition]

/-- A condition that `set` has built. -/
def Built (lib : FilterLibrary Regex) (matchCase : Bool)
    (current : FilterCondition Regex) : Prop :=
  ∃ before type text condition,
    FilterCondition.set lib before type text condition matchCase =
      some current

def SameTest (lib : FilterLibrary Regex) (matchCase : Bool)
    (current loaded : FilterCondition Regex) : Prop :=
  ∀ windows name path size attributes date,
    loaded.test lib windows matchCase name path size attributes date =
      current.test lib windows matchCase name path size attributes date

theorem ofNumber_number (type : FilterType) :
    FilterType.ofNumber type.number = some type := by
  cases type
  all_goals rfl

theorem number_bounds (type : FilterType) :
    llongMin ≤ type.number ∧ type.number ≤ llongMax := by
  cases type
  all_goals decide

theorem getInt_type (current : FilterCondition Regex) :
    (saveCondition current).getInt "Type" (-1) = current.type.number :=
  asInteger_integerToString (number_bounds _).1 (number_bounds _).2 (-1)

theorem getInt_condition (current : FilterCondition Regex) :
    (saveCondition current).getInt "Condition" 0 = current.condition.toInt := by
  have hlow := Int32.le_toInt current.condition
  have hhigh := Int32.toInt_lt current.condition
  refine asInteger_integerToString ?_ ?_ 0
  · unfold llongMin
    omega
  · unfold llongMax
    omega

theorem childValue_value (current : FilterCondition Regex) :
    (saveCondition current).childValue "Value" = current.strValue :=
  rfl

theorem loadCondition_saveCondition
    (hbuilt : Built lib matchCase current) :
    ∃ loaded, loadCondition lib matchCase (saveCondition current) =
        some loaded ∧
      SameTest lib matchCase current loaded := by
  obtain ⟨before, type, text, condition, hset⟩ := hbuilt
  have hfrom := setFrom_of_set hset
  obtain ⟨loaded, hloaded⟩ := Option.isSome_iff_exists.mp
    (set_isSome hset FilterCondition.default)
  have hfrom' := setFrom_of_set hloaded
  refine ⟨loaded, ?_, ?_⟩
  · unfold loadCondition
    rw [getInt_type, ofNumber_number, getInt_condition, childValue_value,
      Int32.ofInt_toInt, hfrom.type_eq, hfrom.strValue_eq,
      hfrom.condition_eq]
    exact hloaded
  · intro windows name path size attributes date
    exact test_eq hfrom.derived hfrom'.derived
      (hfrom'.type_eq.trans hfrom.type_eq.symm)
      (hfrom'.strValue_eq.trans hfrom.strValue_eq.symm)
      (hfrom'.condition_eq.trans hfrom.condition_eq.symm)
      windows name path size attributes date

end FilterCondition

/-! ## Filters -/

namespace Filter

theorem decideFrom_eq {filter loaded : Filter Regex}
    (hmatch : loaded.matchType = filter.matchType)
    (hcase : loaded.matchCase = filter.matchCase)
    (hempty : loaded.filters.isEmpty = filter.filters.isEmpty)
    {conditions others : List (FilterCondition Regex)}
    (hsame : List.Forall₂ (FilterCondition.SameTest lib filter.matchCase)
      conditions others)
    (windows : Bool) (name path : WString) (size : ℤ) (attributes : Int32)
    (date : Option Datetime) :
    loaded.decideFrom lib windows name path size attributes date others =
      filter.decideFrom lib windows name path size attributes date
        conditions := by
  induction hsame with
  | nil =>
      unfold decideFrom
      rw [hmatch, hempty]
  | cons htest _ ih =>
      unfold decideFrom
      rw [hcase, hmatch, htest, ih]

/-- Filters of the same name that decide every file alike. -/
structure Same (lib : FilterLibrary Regex) (filter loaded : Filter Regex) :
    Prop where
  name : loaded.name = filter.name
  filtered : ∀ windows name path dir size attributes date,
    loaded.filtered lib windows name path dir size attributes date =
      filter.filtered lib windows name path dir size attributes date

/-- What the editor of filters sees to. -/
structure WellFormed (lib : FilterLibrary Regex) (filter : Filter Regex) :
    Prop where
  named : filter.name ≠ []
  name_le : filter.name.length ≤ 255
  nonempty : filter.filters ≠ []
  count_le : filter.filters.length ≤ 1000
  built : ∀ condition ∈ filter.filters,
    FilterCondition.Built lib filter.matchCase condition

theorem ofXmlName_xmlName (type : MatchType) :
    MatchType.ofXmlName type.xmlName = type := by
  cases type
  all_goals rfl

theorem boolText_eq_one (value : Bool) : (boolText value == ['1']) = value := by
  cases value
  all_goals rfl

theorem load_conditions (conditions : List (FilterCondition Regex))
    (start : Filter Regex)
    (hbuilt : ∀ condition ∈ conditions,
      FilterCondition.Built lib start.matchCase condition)
    (hcount : start.filters.length + conditions.length ≤ 1000) :
    ∃ loaded,
      (conditions.map saveCondition).foldl (pushCondition lib) start =
          { start with filters := start.filters ++ loaded } ∧
        List.Forall₂ (FilterCondition.SameTest lib start.matchCase) conditions
          loaded := by
  induction conditions generalizing start with
  | nil =>
      refine ⟨[], ?_, .nil⟩
      rw [List.append_nil]
      rfl
  | cons condition conditions ih =>
      obtain ⟨first, hfirst, hsame⟩ :=
        FilterCondition.loadCondition_saveCondition
          (hbuilt condition List.mem_cons_self)
      rw [List.length_cons] at hcount
      have hroom : start.filters.length < 1000 := by omega
      have hcount' : (start.filters ++ [first]).length +
          conditions.length ≤ 1000 := by
        rw [List.length_append, List.length_singleton]
        omega
      obtain ⟨rest, hrest, hothers⟩ :=
        ih { start with filters := start.filters ++ [first] }
          (fun other hmem => hbuilt other (List.mem_cons_of_mem _ hmem))
          hcount'
      refine ⟨first :: rest, ?_, .cons hsame hothers⟩
      have hpush : pushCondition lib start (saveCondition condition) =
          { start with filters := start.filters ++ [first] } := by
        unfold pushCondition
        rw [hfirst]
        exact if_pos hroom
      rw [List.map_cons, List.foldl_cons, hpush, hrest]
      simp only [List.append_assoc, List.singleton_append]

theorem childValue_saveFilter (filter : Filter Regex) :
    let element := saveFilter (.empty "Filter") filter
    element.childValue "Name" = filter.name ∧
      element.childValue "ApplyToFiles" = boolText filter.filterFiles ∧
      element.childValue "ApplyToDirs" = boolText filter.filterDirs ∧
      element.childValue "MatchType" = filter.matchType.xmlName ∧
      element.childValue "MatchCase" = boolText filter.matchCase := by
  simp [saveFilter, XmlNode.childValue, XmlNode.child_appendChild,
    XmlNode.child_addTextElement, XmlNode.child_empty]

theorem child_conditions (filter : Filter Regex) :
    (saveFilter (.empty "Filter") filter).child "Conditions" =
      some (filter.filters.foldl
        (fun conditions condition =>
          conditions.appendChild (saveCondition condition))
        (.empty "Conditions")) := by
  have hname : (filter.filters.foldl
      (fun (conditions : XmlNode) condition =>
        conditions.appendChild (saveCondition condition))
      (XmlNode.empty "Conditions")).name = "Conditions" :=
    XmlNode.name_foldl_appendChild _ _
  simp [saveFilter, XmlNode.child_appendChild, XmlNode.child_addTextElement,
    XmlNode.child_empty, hname]

theorem loadFilter_saveFilter {filter : Filter Regex}
    (hfilter : filter.WellFormed lib) :
    ∃ loaded, loadFilter lib (saveFilter (.empty "Filter") filter) =
        (loaded, true) ∧ loaded.filters ≠ [] ∧ filter.Same lib loaded := by
  obtain ⟨hname, hfiles, hdirs, htype, hcase⟩ := childValue_saveFilter filter
  obtain ⟨conditions, hload, hsame⟩ :=
    load_conditions filter.filters { filter with filters := [] }
      hfilter.built
      (by
        have hcount := hfilter.count_le
        simpa using hcount)
  replace hsame : List.Forall₂
      (FilterCondition.SameTest lib filter.matchCase) filter.filters
      conditions := hsame
  have hne : conditions ≠ [] := by
    intro hnil
    rw [hnil] at hsame
    exact hfilter.nonempty (List.forall₂_nil_right_iff.mp hsame)
  refine ⟨{ filter with filters := conditions }, ?_, hne, rfl, ?_⟩
  · have hnamed : ∀ condition : FilterCondition Regex,
        (saveCondition condition).name = "Condition" := fun _ => rfl
    have hchildren := XmlNode.childrenNamed_foldl_appendChild hnamed
      filter.filters (.empty "Conditions")
    have hempty : (XmlNode.empty "Conditions").childrenNamed "Condition" =
        [] := rfl
    rw [hempty, List.nil_append] at hchildren
    unfold loadFilter
    simp only [child_conditions, hname, hfiles, hdirs, htype, hcase,
      boolText_eq_one, ofXmlName_xmlName,
      List.take_of_length_le hfilter.name_le]
    rw [hchildren, hload]
    simp only [List.nil_append]
    rw [List.isEmpty_eq_false_iff.mpr hne]
    rfl
  · intro windows name path dir size attributes date
    have hempty : conditions.isEmpty = filter.filters.isEmpty := by
      rw [List.isEmpty_eq_false_iff.mpr hne,
        List.isEmpty_eq_false_iff.mpr hfilter.nonempty]
    have hdecide : decideFrom lib windows { filter with filters := conditions }
          name path size attributes date conditions =
        filter.decideFrom lib windows name path size attributes date
          filter.filters :=
      @decideFrom_eq Regex lib filter { filter with filters := conditions } rfl
        rfl hempty _ _ hsame windows name path size attributes date
    unfold filtered
    simp only
    rw [hdecide]

/-- Saved filters are read back one after the other. -/
theorem push_filters (filters : List (Filter Regex))
    (hfilters : ∀ filter ∈ filters, filter.WellFormed lib)
    (data : FilterData Regex) :
    ∃ loaded,
      (filters.map (saveFilter (.empty "Filter"))).foldl (pushFilter lib)
          data = { data with filters := data.filters ++ loaded } ∧
        List.Forall₂ (Filter.Same lib) filters loaded := by
  induction filters generalizing data with
  | nil =>
      refine ⟨[], ?_, .nil⟩
      rw [List.append_nil]
      rfl
  | cons filter filters ih =>
      have hfilter := hfilters filter List.mem_cons_self
      obtain ⟨first, hload, hne, hsame⟩ := loadFilter_saveFilter hfilter
      have hpush : pushFilter lib data (saveFilter (.empty "Filter") filter) =
          { data with filters := data.filters ++ [first] } := by
        have hname : first.name ≠ [] := by
          rw [hsame.name]
          exact hfilter.named
        unfold pushFilter
        rw [hload]
        exact if_pos ⟨rfl, hname, hne⟩
      obtain ⟨rest, hrest, hothers⟩ :=
        ih (fun other hmem => hfilters other (List.mem_cons_of_mem _ hmem))
          { data with filters := data.filters ++ [first] }
      refine ⟨first :: rest, ?_, .cons hsame hothers⟩
      rw [List.map_cons, List.foldl_cons, hpush, hrest]
      simp only [List.append_assoc, List.singleton_append]

end Filter

/-! ## Sets -/

namespace FilterSet

def Fits (set : FilterSet) (count : ℕ) : Prop :=
  set.localFilters.length = count ∧ set.remoteFilters.length = count

def Named (set : FilterSet) : Prop :=
  set.name ≠ [] ∧ set.name.length ≤ 255

theorem saveItem_values (item : Bool × Bool) :
    ((saveItem item).childValue "Local" == ['1']) = item.1 ∧
      ((saveItem item).childValue "Remote" == ['1']) = item.2 :=
  ⟨Filter.boolText_eq_one item.1, Filter.boolText_eq_one item.2⟩

theorem childrenNamed_saveSet (set : FilterSet) :
    (saveSet set).childrenNamed "Item" =
      (set.localFilters.zip set.remoteFilters).map saveItem := by
  have hname : ∀ item, (saveItem item).name = "Item" := fun _ => rfl
  unfold saveSet
  rw [XmlNode.childrenNamed_foldl_appendChild hname]
  split_ifs
  · rfl
  · rfl

theorem childValue_saveSet (set : FilterSet) :
    (saveSet set).childValue "Name" = set.name := by
  have hname : ∀ item, (saveItem item).name ≠ "Name" := by
    intro item
    change "Item" ≠ "Name"
    decide
  unfold saveSet
  rw [XmlNode.childValue_eq, XmlNode.childrenNamed_foldl_appendChild_of_ne hname]
  split_ifs with hempty
  · rw [hempty]
    rfl
  · rfl

theorem pushSet_saveSet {set : FilterSet} {data : FilterData Regex}
    (hfits : set.Fits data.filters.length)
    (hnamed : data.filterSets ≠ [] → set.Named) :
    pushSet data (saveSet set) =
      { data with
        filterSets := data.filterSets ++
          [if data.filterSets = [] then { set with name := [] } else set] } := by
  obtain ⟨hlocal, hremote⟩ := hfits
  have hlength : set.localFilters.length = set.remoteFilters.length :=
    hlocal.trans hremote.symm
  have hlocals : ((saveSet set).childrenNamed "Item").map
      (fun item => item.childValue "Local" == ['1']) = set.localFilters := by
    rw [childrenNamed_saveSet, List.map_map]
    have hfst : ((fun item : XmlNode => item.childValue "Local" == ['1']) ∘
        saveItem) = Prod.fst :=
      funext fun item => (saveItem_values item).1
    rw [hfst, List.map_fst_zip hlength.le]
  have hremotes : ((saveSet set).childrenNamed "Item").map
      (fun item => item.childValue "Remote" == ['1']) =
        set.remoteFilters := by
    rw [childrenNamed_saveSet, List.map_map]
    have hsnd : ((fun item : XmlNode => item.childValue "Remote" == ['1']) ∘
        saveItem) = Prod.snd :=
      funext fun item => (saveItem_values item).2
    rw [hsnd, List.map_snd_zip hlength.ge]
  unfold pushSet
  simp only [hlocals, hremotes, childValue_saveSet, hlocal, if_true]
  by_cases hsets : data.filterSets = []
  · simp [hsets]
  · obtain ⟨hname, hshort⟩ := hnamed hsets
    have hsome : data.filterSets.isEmpty = false :=
      List.isEmpty_eq_false_iff.mpr hsets
    simp [hsome, hsets, hname, List.take_of_length_le hshort]

theorem push_sets {sets : List FilterSet} {data : FilterData Regex}
    (hfits : ∀ set ∈ sets, set.Fits data.filters.length)
    (hnamed : ∀ set ∈ sets, set.Named) (hsome : data.filterSets ≠ []) :
    (sets.map saveSet).foldl pushSet data =
      { data with filterSets := data.filterSets ++ sets } := by
  induction sets generalizing data with
  | nil => simp
  | cons set sets ih =>
      have hpush := pushSet_saveSet (hfits set List.mem_cons_self)
        fun _ => hnamed set List.mem_cons_self
      rw [if_neg hsome] at hpush
      rw [List.map_cons, List.foldl_cons, hpush, ih]
      · simp
      · intro other hmem
        exact hfits other (List.mem_cons_of_mem _ hmem)
      · intro other hmem
        exact hnamed other (List.mem_cons_of_mem _ hmem)
      · simp

end FilterSet

/-! ## The whole element -/

namespace FilterData

/-- Filters as the editor leaves them, with sets that fit. -/
structure WellFormed (lib : FilterLibrary Regex) (data : FilterData Regex) :
    Prop where
  filters : ∀ filter ∈ data.filters, filter.WellFormed lib
  fits : ∀ set ∈ data.filterSets, set.Fits data.filters.length
  named : ∀ set ∈ data.filterSets.tail, set.Named

/-- The sets that are read back: the first one is the one without a name, and
there is always one. -/
def loadedSets (data : FilterData Regex) : List FilterSet :=
  match data.filterSets with
  | [] =>
      [⟨[], List.replicate data.filters.length false,
        List.replicate data.filters.length false⟩]
  | first :: rest => { first with name := [] } :: rest

def loadedCurrent (data : FilterData Regex) : UInt32 :=
  if data.currentFilterSet.toNat < 2 ^ 31 ∧
      data.currentFilterSet.toNat < data.filterSets.length then
    data.currentFilterSet
  else 0

variable {data : FilterData Regex}

theorem loadedSets_length (hsome : data.filterSets ≠ []) :
    data.loadedSets.length = data.filterSets.length := by
  unfold loadedSets
  cases hsets : data.filterSets with
  | nil => exact absurd hsets hsome
  | cons first rest => rfl

theorem toInt_of_lt {value : UInt32} (hlt : value.toNat < 2 ^ 31) :
    value.toInt32.toInt = value.toNat := by
  have hnat : value.toBitVec.toNat = value.toNat := rfl
  change value.toBitVec.toInt = _
  rw [BitVec.toInt_eq_toNat_of_lt (by omega), hnat]

theorem toInt_of_ge {value : UInt32} (hge : 2 ^ 31 ≤ value.toNat) :
    value.toInt32.toInt < 0 := by
  have hnat : value.toBitVec.toNat = value.toNat := rfl
  have hlt := value.toNat_lt
  change value.toBitVec.toInt < 0
  rw [BitVec.toInt_eq_toNat_cond]
  split
  · omega
  · omega

/-- Saved sets are read back, the first without its name. -/
theorem push_all_sets (hdata : data.WellFormed lib)
    {start : FilterData Regex} (hstart : start.filterSets = [])
    (hcount : start.filters.length = data.filters.length) :
    (data.filterSets.map saveSet).foldl pushSet start =
      { start with
        filterSets :=
          if data.filterSets = [] then [] else data.loadedSets } := by
  obtain ⟨filters, sets, current⟩ := start
  cases hstart
  cases hsets : data.filterSets with
  | nil => rfl
  | cons first rest =>
      have hfits : ∀ set ∈ first :: rest, set.Fits filters.length := by
        rw [hcount, ← hsets]
        exact hdata.fits
      have hnamed : ∀ set ∈ rest, set.Named := by
        have htail := hdata.named
        rw [hsets] at htail
        exact htail
      have hfirst := @FilterSet.pushSet_saveSet Regex first
        ⟨filters, [], current⟩ (hfits first List.mem_cons_self)
        fun hsome => absurd rfl hsome
      have hrest := @FilterSet.push_sets Regex rest
        ⟨filters, [{ first with name := [] }], current⟩
        (fun set hmem => hfits set (List.mem_cons_of_mem _ hmem)) hnamed
        (List.cons_ne_nil _ _)
      rw [List.map_cons, List.foldl_cons, hfirst]
      refine hrest.trans ?_
      simp [loadedSets, hsets]

def filtersElement (data : FilterData Regex) : XmlNode :=
  data.filters.foldl
    (fun filters filter =>
      filters.appendChild (saveFilter (.empty "Filter") filter))
    (.empty "Filters")

def setsElement (data : FilterData Regex) : XmlNode :=
  data.filterSets.foldl (fun sets set => sets.appendChild (saveSet set))
    ((XmlNode.empty "Sets").appendAttribute "Current"
      (integerToString data.currentFilterSet.toInt32.toInt))

theorem child_saveFilters (element : XmlNode) (data : FilterData Regex) :
    (saveFilters element data).child "Filters" = some data.filtersElement ∧
      (saveFilters element data).child "Sets" = some data.setsElement := by
  have hfilters : data.filtersElement.name = "Filters" :=
    XmlNode.name_foldl_appendChild _ _
  have hsets : data.setsElement.name = "Sets" :=
    XmlNode.name_foldl_appendChild _ _
  have hsave : saveFilters element data =
      (((element.removeChildren "Filters").appendChild
        data.filtersElement).removeChildren "Sets").appendChild
          data.setsElement :=
    rfl
  have hne : "Sets" ≠ "Filters" := by decide
  rw [hsave]
  constructor
  · rw [XmlNode.child_appendChild, XmlNode.child_removeChildren_of_ne _ hne,
      XmlNode.child_appendChild, XmlNode.child_removeChildren, if_pos hfilters]
    rfl
  · rw [XmlNode.child_appendChild, XmlNode.child_removeChildren, if_pos hsets]
    rfl

theorem childrenNamed_filtersElement (data : FilterData Regex) :
    data.filtersElement.childrenNamed "Filter" =
      data.filters.map (saveFilter (.empty "Filter")) := by
  have hname : ∀ filter : Filter Regex,
      (saveFilter (.empty "Filter") filter).name = "Filter" := fun _ => rfl
  exact XmlNode.childrenNamed_foldl_appendChild hname data.filters _

theorem childrenNamed_setsElement (data : FilterData Regex) :
    data.setsElement.childrenNamed "Set" = data.filterSets.map saveSet := by
  have hname : ∀ set : FilterSet, (saveSet set).name = "Set" := by
    intro set
    unfold saveSet
    rw [XmlNode.name_foldl_appendChild]
    split_ifs
    · rfl
    · rfl
  exact XmlNode.childrenNamed_foldl_appendChild hname data.filterSets _

theorem getAttribute_setsElement (data : FilterData Regex) :
    asInteger intMin intMax (data.setsElement.getAttribute "Current") 0 =
      data.currentFilterSet.toInt32.toInt := by
  have hattributes : data.setsElement.attributes =
      [("Current", integerToString data.currentFilterSet.toInt32.toInt)] :=
    XmlNode.attributes_foldl_appendChild _ _
  have hlow := Int32.le_toInt data.currentFilterSet.toInt32
  have hhigh := Int32.toInt_lt data.currentFilterSet.toInt32
  unfold XmlNode.getAttribute
  rw [hattributes]
  refine asInteger_integerToString ?_ ?_ 0
  · exact hlow
  · unfold intMax
    omega

theorem current_in_range (data : FilterData Regex) :
    (0 ≤ data.currentFilterSet.toInt32.toInt ∧
        data.currentFilterSet.toInt32.toInt < data.filterSets.length) ↔
      data.currentFilterSet.toNat < 2 ^ 31 ∧
        data.currentFilterSet.toNat < data.filterSets.length := by
  by_cases hlt : data.currentFilterSet.toNat < 2 ^ 31
  · rw [toInt_of_lt hlt]
    omega
  · have hneg := toInt_of_ge (not_lt.mp hlt)
    omega

/-- `save_filters` and `load_filters`. -/
theorem filters_round_trip (hdata : data.WellFormed lib)
    (element : XmlNode) :
    let loaded := loadFilters lib (saveFilters element data) .empty
    List.Forall₂ (Filter.Same lib) data.filters loaded.filters ∧
      loaded.filterSets = data.loadedSets ∧
      loaded.currentFilterSet = data.loadedCurrent := by
  obtain ⟨hfilters, hsets⟩ := child_saveFilters element data
  obtain ⟨loaded, hload, hsame⟩ :=
    Filter.push_filters data.filters hdata.filters .empty
  have hcount : loaded.length = data.filters.length := hsame.length_eq.symm
  have hpush := @push_all_sets Regex lib data hdata ⟨loaded, [], 0⟩ rfl hcount
  have hcurrent := current_in_range data
  replace hload : (data.filters.map (saveFilter (.empty "Filter"))).foldl
      (pushFilter lib) .empty = ⟨loaded, [], 0⟩ := hload
  have hall : loadFilters lib (saveFilters element data) .empty =
      ⟨loaded, data.loadedSets, data.loadedCurrent⟩ := by
    unfold loadFilters
    simp only [hfilters, hsets, childrenNamed_filtersElement,
      childrenNamed_setsElement, getAttribute_setsElement]
    rw [hload, hpush]
    by_cases hnone : data.filterSets = []
    · have hout : ¬(0 ≤ data.currentFilterSet.toInt32.toInt ∧
          data.currentFilterSet.toInt32.toInt < 0) := by omega
      simp [hnone, hout, loadedSets, loadedCurrent, hcount]
    · have hlength := loadedSets_length hnone
      have hloaded : data.loadedSets ≠ [] := by
        intro hnil
        rw [hnil] at hlength
        exact hnone (List.eq_nil_of_length_eq_zero hlength.symm)
      simp only [if_neg hnone, hlength]
      by_cases hin : data.currentFilterSet.toNat < 2 ^ 31 ∧
          data.currentFilterSet.toNat < data.filterSets.length
      · have hvalue : UInt32.ofNat data.currentFilterSet.toInt32.toInt.toNat =
            data.currentFilterSet := by
          rw [toInt_of_lt hin.1, Int.toNat_natCast]
          exact UInt32.ofNat_toNat
        rw [if_pos (hcurrent.mpr hin), hvalue, if_neg hloaded]
        unfold loadedCurrent
        rw [if_pos hin]
      · rw [if_neg fun hrange => hin (hcurrent.mp hrange), if_neg hloaded]
        unfold loadedCurrent
        rw [if_neg hin]
  rw [hall]
  exact ⟨hsame, rfl, rfl⟩

def plainTexts : FilterLibrary WString where
  strToLower := List.map Char.toLower
  wregex text _ := some text
  regexSearch subject text := decide (text <:+: subject)
  toIntegral text := (stringToInteger llongMin llongMax text)
  localTime _ := none
  compare date limit := date.value - limit.value

/-- Names that end in `.bak`, upper or lower case. -/
def backups : FilterCondition WString :=
  ⟨".bak".toList, ".bak".toList, none, 0, none, .name, 3⟩

def backupFilter : FilterData WString :=
  ⟨[⟨[backups], "Backups".toList, .any, true, false, false⟩],
    [⟨[], [false], [false]⟩, ⟨"No backups".toList, [false], [true]⟩], 1⟩

/-- One filter and two sets, the second of which is current. -/
theorem filters_round_trip_backups :
    let loaded :=
      loadFilters plainTexts (saveFilters (.empty "Root") backupFilter) .empty
    List.Forall₂ (Filter.Same plainTexts) backupFilter.filters
        loaded.filters ∧
      loaded.filterSets = backupFilter.loadedSets ∧
      loaded.currentFilterSet = backupFilter.loadedCurrent := by
  refine filters_round_trip ⟨?_, ?_, ?_⟩ _
  · intro filter hmem
    cases List.mem_singleton.mp hmem
    refine ⟨List.cons_ne_nil _ _, by decide, List.cons_ne_nil _ _, by decide,
      ?_⟩
    intro condition hcondition
    cases List.mem_singleton.mp hcondition
    exact ⟨.default, .name, ".bak".toList, 3, rfl⟩
  · intro set hmem
    simp only [backupFilter, List.mem_cons, List.not_mem_nil, or_false] at hmem
    rcases hmem with rfl | rfl
    all_goals exact ⟨rfl, rfl⟩
  · intro set hmem
    cases List.mem_singleton.mp hmem
    exact ⟨List.cons_ne_nil _ _, by decide⟩

def namedFirstSet : FilterData WString :=
  ⟨[], [⟨"Mine".toList, [], []⟩], 1⟩

/-- The name of the first set is not written, and it is not current again. -/
theorem first_set_loses_name :
    let loaded :=
      loadFilters plainTexts (saveFilters (.empty "Root") namedFirstSet) .empty
    namedFirstSet.WellFormed plainTexts ∧
      loaded.filterSets.map FilterSet.name ≠
        namedFirstSet.filterSets.map FilterSet.name ∧
      loaded.currentFilterSet ≠ namedFirstSet.currentFilterSet := by
  refine ⟨⟨?_, ?_, ?_⟩, ?_, ?_⟩
  · intro filter hmem
    cases hmem
  · intro set hmem
    cases List.mem_singleton.mp hmem
    exact ⟨rfl, rfl⟩
  · intro set hmem
    cases hmem
  · decide +kernel
  · decide +kernel

end FilterData

end TabFtp
