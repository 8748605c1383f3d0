import TabFtp.ServerPathSyntax

/-!
# A printed server path reads back as itself

Every path that the operations on paths can make is well formed: its segments
are what `Segmentize` can leave behind, and its prefix is one that its type
can have.  A well-formed path is read back from its printed form.
-/

namespace TabFtp

open DelimitedText

namespace ServerPath

/-! ## Segments and prefixes -/

/-- A segment that `Segmentize` can leave behind.  With an escape for the
separator a segment may have separators, but not as its last character. -/
def GoodSegment (type : ServerType) (segment : WString) : Prop :=
  segment ≠ [] ∧
    ((traits type).hasDots = true →
      segment ≠ ['.'] ∧ segment ≠ ['.', '.']) ∧
    match (traits type).separatorEscape with
    | none => Free (isSeparator type) segment
    | some escape => ∃ before last, segment = before ++ [last] ∧
        isSeparator type last = false ∧ last ≠ escape

def GoodPrefix (type : ServerType) (data : ServerPathData) : Prop :=
  match type with
  | .vms => ∀ device, data.pathPrefix = some device →
      device ≠ [] ∧ '[' ∉ device
  | .mvs => data.pathPrefix = some ['.'] ∨
      data.pathPrefix = none ∧ ∀ segment,
        data.segments.getLast? = some segment → segment.getLast? ≠ some ')'
  | .vxworks => ∃ device, device ≠ [] ∧ ':' ∉ device ∧
      data.pathPrefix = some (':' :: (device ++ [':']))
  | .cygwin => data.pathPrefix = none ∨ data.pathPrefix = some ['/']
  | _ => data.pathPrefix = none

structure GoodData (type : ServerType) (data : ServerPathData) : Prop where
  segments : ∀ segment ∈ data.segments, GoodSegment type segment
  pathPrefix : GoodPrefix type data
  nonempty : (traits type).hasRoot = false → data.segments ≠ []

def WellFormed (path : ServerPath) : Prop :=
  ∀ data, path.data = some data → GoodData path.type data

variable {type : ServerType} {data : ServerPathData}
  {segments : List WString} {segment text : WString}

theorem separator_isSeparator (type : ServerType) :
    isSeparator type (separator type) = true := by
  cases type <;> rfl

theorem vms_of_escape
    {escape : Char} (hescape : (traits type).separatorEscape = some escape) :
    type = .vms := by
  cases type <;> first | rfl | cases hescape

/-! ## Reading segments -/

def inProgress (segments : List WString) :
    Option WString → List WString × Bool
  | none => (segments, false)
  | some back => (segments ++ [back], true)

def Pending (type : ServerType) (state : List WString × Bool) : Prop :=
  ∃ segments back, state = inProgress segments back ∧
    (back ≠ none → (traits type).separatorEscape ≠ none) ∧
    ∀ segment ∈ segments, GoodSegment type segment

theorem GoodSegment.append
    (hgood : ∀ other ∈ segments, GoodSegment type other)
    (hsegment : GoodSegment type segment) :
    ∀ other ∈ segments ++ [segment], GoodSegment type other := by
  intro other hmem
  rcases List.mem_append.mp hmem with hold | hnew
  · exact hgood other hold
  · rw [List.mem_singleton] at hnew
    rw [hnew]
    exact hsegment

theorem segmentizeAddSegment_plain
    (hescape : (traits type).separatorEscape = none)
    (hdots : (traits type).hasDots = true →
      segment ≠ ['.'] ∧ segment ≠ ['.', '.']) (segments : List WString) :
    segmentizeAddSegment type (segments, false) segment =
      (segments ++ [segment], false) := by
  unfold segmentizeAddSegment
  cases hhas : (traits type).hasDots with
  | false => simp [hescape, hhas]
  | true => simp [hescape, hdots hhas]

theorem Pending.add_plain
    {state : List WString × Bool} (hpending : Pending type state)
    (hescape : (traits type).separatorEscape = none)
    (hpiece : segment ≠ [] ∧ Free (isSeparator type) segment) :
    Pending type (segmentizeAddSegment type state segment) := by
  obtain ⟨segments, back, rfl, hback, hgood⟩ := hpending
  have hnone : back = none := by
    by_contra hpresent
    exact hback hpresent hescape
  subst hnone
  unfold inProgress
  by_cases hself : (traits type).hasDots = true ∧ segment = ['.']
  · have hstay : segmentizeAddSegment type (segments, false) segment =
        (segments, false) := by
      simp [segmentizeAddSegment, hself.1, hself.2]
    rw [hstay]
    exact ⟨segments, none, rfl, hback, hgood⟩
  · by_cases hparent : (traits type).hasDots = true ∧ segment = ['.', '.']
    · have hup : segmentizeAddSegment type (segments, false) segment =
          (segments.dropLast, false) := by
        simp [segmentizeAddSegment, hparent.1, hparent.2]
      rw [hup]
      refine ⟨segments.dropLast, none, rfl, hback, ?_⟩
      intro other hmem
      exact hgood other (List.mem_of_mem_dropLast hmem)
    · have hdots : (traits type).hasDots = true →
          segment ≠ ['.'] ∧ segment ≠ ['.', '.'] := by
        intro hhas
        exact ⟨fun h => hself ⟨hhas, h⟩, fun h => hparent ⟨hhas, h⟩⟩
      rw [segmentizeAddSegment_plain hescape hdots]
      refine ⟨segments ++ [segment], none, rfl, hback, ?_⟩
      apply GoodSegment.append hgood
      refine ⟨hpiece.1, hdots, ?_⟩
      rw [hescape]
      exact hpiece.2

theorem segmentizeAddSegment_escaped
    (segments : List WString) (back : Option WString) (before : WString) :
    segmentizeAddSegment .vms (inProgress segments back) (before ++ ['^']) =
      inProgress segments (some (back.getD [] ++ (before ++ ['.']))) := by
  cases back <;>
    simp [segmentizeAddSegment, inProgress, traits, separator, appendToBack]

theorem segmentizeAddSegment_completes
    {last : Char} (hlast : last ≠ '^') (segments : List WString)
    (back : Option WString) (before : WString) :
    segmentizeAddSegment .vms (inProgress segments back) (before ++ [last]) =
      inProgress (segments ++ [back.getD [] ++ (before ++ [last])]) none := by
  cases back <;>
    simp [segmentizeAddSegment, inProgress, traits, appendToBack, hlast]

theorem Pending.add_vms
    {state : List WString × Bool} (hpending : Pending .vms state)
    (hpiece : segment ≠ [] ∧ Free (isSeparator .vms) segment) :
    Pending .vms (segmentizeAddSegment .vms state segment) := by
  obtain ⟨segments, back, rfl, hback, hgood⟩ := hpending
  obtain ⟨before, last, rfl⟩ :=
    (List.eq_nil_or_concat' segment).resolve_left hpiece.1
  by_cases hlast : last = '^'
  · rw [hlast, segmentizeAddSegment_escaped]
    exact ⟨segments, _, rfl, by simp [traits], hgood⟩
  · rw [segmentizeAddSegment_completes hlast]
    refine ⟨_, none, rfl, by simp, ?_⟩
    apply GoodSegment.append hgood
    refine ⟨by simp, by simp [traits], back.getD [] ++ before, last, ?_, ?_,
      hlast⟩
    · rw [List.append_assoc]
    · exact hpiece.2 last (by simp)

theorem Pending.add
    {state : List WString × Bool} (hpending : Pending type state)
    (hpiece : segment ≠ [] ∧ Free (isSeparator type) segment) :
    Pending type (segmentizeAddSegment type state segment) := by
  cases hescape : (traits type).separatorEscape with
  | none => exact hpending.add_plain hescape hpiece
  | some escape =>
      obtain rfl := vms_of_escape hescape
      exact hpending.add_vms hpiece

/-- Reading the pieces of a text.  The induction is on the pieces; what is
unfinished stays the last segment. -/
theorem Pending.fold
    {pieces : List WString} {state : List WString × Bool}
    (hpending : Pending type state)
    (hpieces : ∀ piece ∈ pieces,
      piece ≠ [] ∧ Free (isSeparator type) piece) :
    Pending type (pieces.foldl (segmentizeAddSegment type) state) := by
  induction pieces generalizing state with
  | nil => exact hpending
  | cons piece pieces ih =>
      apply ih
      · exact hpending.add (hpieces piece List.mem_cons_self)
      · intro other hmem
        exact hpieces other (List.mem_cons_of_mem _ hmem)

theorem segmentize_good
    {following : List WString}
    (hgood : ∀ segment ∈ segments, GoodSegment type segment)
    (hread : segmentize type text segments = some following) :
    ∀ segment ∈ following, GoodSegment type segment := by
  have hstart : Pending type (segments, false) :=
    ⟨segments, none, rfl, by simp, hgood⟩
  obtain ⟨complete, back, hstate, _, hcomplete⟩ :=
    hstart.fold (fields_good text)
  unfold segmentize at hread
  rw [hstate] at hread
  cases back with
  | none =>
      simp only [inProgress, Bool.false_eq_true, if_false,
        Option.some.injEq] at hread
      subst hread
      exact hcomplete
  | some back => simp [inProgress] at hread

/-! ## Printing segments and reading them -/

theorem escapeSeparators_plain
    (hescape : (traits type).separatorEscape = none) (segment : WString) :
    escapeSeparators type segment = segment := by
  simp [escapeSeparators, hescape]

theorem escapeSeparators_free
    (hfree : '.' ∉ segment) : escapeSeparators .vms segment = segment := by
  induction segment with
  | nil => rfl
  | cons char segment ih =>
      simp only [List.mem_cons, not_or] at hfree
      have hrest := ih hfree.2
      simp only [escapeSeparators, traits, List.foldl_cons, List.foldl_nil,
        WString.replaceChar, List.flatMap_cons] at hrest ⊢
      rw [hrest]
      simp [Ne.symm hfree.1]

theorem escapeSeparators_split
    (before after : WString) :
    escapeSeparators .vms (before ++ '.' :: after) =
      escapeSeparators .vms before ++
        '^' :: '.' :: escapeSeparators .vms after := by
  simp [escapeSeparators, traits, WString.replaceChar, separator]

def Bounded (tail : WString) : Prop :=
  tail = [] ∨ ∃ text, tail = '.' :: text

theorem vms_free {piece : WString} (hfree : '.' ∉ piece) :
    Free (isSeparator .vms) piece := by
  intro char hmem
  have hne : char ≠ '.' := by
    intro heq
    exact hfree (heq ▸ hmem)
  simp [isSeparator, traits, hne]

theorem fields_bounded
    {piece tail : WString} (hfree : '.' ∉ piece) (hpiece : piece ≠ [])
    (htail : Bounded tail) :
    fields (isSeparator .vms) (piece ++ tail) =
      piece :: fields (isSeparator .vms) tail := by
  rcases htail with hend | ⟨text, htext⟩
  · rw [hend, List.append_nil, fields_of_free (vms_free hfree) hpiece,
      fields_nil]
  · rw [htext, fields_append_delimiter (vms_free hfree) hpiece rfl,
      fields_cons_delimiter rfl]

/-- An escaped segment is read as one segment.  The induction is on its
length: up to its first separator it is one piece, which leaves the segment
unfinished. -/
theorem read_escaped
    (segments : List WString) (length : ℕ) {before : WString} {last : Char}
    (hlength : before.length ≤ length) (hdot : last ≠ '.')
    (hescape : last ≠ '^') {tail : WString} (htail : Bounded tail)
    (back : Option WString) :
    (fields (isSeparator .vms)
        (escapeSeparators .vms (before ++ [last]) ++ tail)).foldl
        (segmentizeAddSegment .vms) (inProgress segments back) =
      (fields (isSeparator .vms) tail).foldl (segmentizeAddSegment .vms)
        (inProgress (segments ++ [back.getD [] ++ (before ++ [last])])
          none) := by
  induction length generalizing before back with
  | zero =>
      have hnil : before = [] := by
        simpa using hlength
      subst hnil
      have hfree : '.' ∉ [last] := by
        simpa using Ne.symm hdot
      rw [List.nil_append, escapeSeparators_free hfree,
        fields_bounded hfree (by simp) htail, List.foldl_cons]
      have hadd := segmentizeAddSegment_completes hescape segments back []
      rw [List.nil_append] at hadd
      rw [hadd]
  | succ length ih =>
      by_cases hmem : '.' ∈ before
      · obtain ⟨piece, rest, rfl, hpiece⟩ := List.eq_append_cons_of_mem hmem
        have hshorter : rest.length ≤ length := by
          simp only [List.length_append, List.length_cons] at hlength
          omega
        have hunfinished : '.' ∉ piece ++ ['^'] := by
          simp [hpiece]
        have htext : escapeSeparators .vms (piece ++ '.' :: rest ++ [last]) ++
            tail = (piece ++ ['^']) ++
              '.' :: (escapeSeparators .vms (rest ++ [last]) ++ tail) := by
          rw [List.append_assoc, List.cons_append, escapeSeparators_split,
            escapeSeparators_free hpiece]
          simp
        rw [htext, fields_append_delimiter (vms_free hunfinished) (by simp)
          rfl, List.foldl_cons, segmentizeAddSegment_escaped, ih hshorter]
        simp
      · have hfree : '.' ∉ before ++ [last] := by
          simp [hmem, Ne.symm hdot]
        rw [escapeSeparators_free hfree,
          fields_bounded hfree (by simp) htail, List.foldl_cons,
          segmentizeAddSegment_completes hescape]

theorem join_bounded (segments : List WString) :
    Bounded (segments.flatMap fun next => '.' :: next) := by
  cases segments with
  | nil => exact Or.inl rfl
  | cons segment segments => exact Or.inr ⟨_, rfl⟩

theorem read_join_vms
    (hgood : ∀ segment ∈ segments, GoodSegment .vms segment)
    (complete : List WString) :
    (fields (isSeparator .vms)
        (join '.' (segments.map (escapeSeparators .vms)))).foldl
        (segmentizeAddSegment .vms) (complete, false) =
      (complete ++ segments, false) := by
  induction segments generalizing complete with
  | nil => simp [join]
  | cons segment segments ih =>
      obtain ⟨_, _, before, last, rfl, hdot, hescape⟩ :=
        hgood segment List.mem_cons_self
      have hseparator : last ≠ '.' := by
        simpa [isSeparator, traits] using hdot
      have hread := read_escaped complete before.length le_rfl
        hseparator hescape
        (join_bounded (segments.map (escapeSeparators .vms))) none
      simp only [inProgress, Option.getD_none, List.nil_append] at hread
      rw [List.map_cons, join_cons, hread]
      have hrest : fields (isSeparator .vms)
          ((segments.map (escapeSeparators .vms)).flatMap
            fun next => '.' :: next) =
          fields (isSeparator .vms)
            (join '.' (segments.map (escapeSeparators .vms))) := by
        cases segments with
        | nil => rfl
        | cons next segments =>
            rw [List.map_cons, join_cons, List.flatMap_cons,
              List.cons_append, fields_cons_delimiter rfl]
      rw [hrest, ih]
      · simp
      · intro other hmem
        exact hgood other (List.mem_cons_of_mem _ hmem)

theorem fold_plain
    (hescape : (traits type).separatorEscape = none)
    (hgood : ∀ segment ∈ segments, GoodSegment type segment)
    (complete : List WString) :
    segments.foldl (segmentizeAddSegment type) (complete, false) =
      (complete ++ segments, false) := by
  induction segments generalizing complete with
  | nil => simp
  | cons segment segments ih =>
      have hsegment := hgood segment List.mem_cons_self
      rw [List.foldl_cons, segmentizeAddSegment_plain hescape hsegment.2.1, ih]
      · simp
      · intro other hmem
        exact hgood other (List.mem_cons_of_mem _ hmem)

theorem GoodSegment.free
    (hescape : (traits type).separatorEscape = none)
    (hgood : GoodSegment type segment) :
    segment ≠ [] ∧ Free (isSeparator type) segment := by
  obtain ⟨hne, _, hfree⟩ := hgood
  rw [hescape] at hfree
  exact ⟨hne, hfree⟩

theorem map_escapeSeparators_plain
    (hescape : (traits type).separatorEscape = none)
    (segments : List WString) :
    segments.map (escapeSeparators type) = segments := by
  have hid : escapeSeparators type = id := by
    funext segment
    exact escapeSeparators_plain hescape segment
  rw [hid, List.map_id]

def body (type : ServerType) (segments : List WString) : WString :=
  join (separator type) (segments.map (escapeSeparators type))

theorem segmentize_body
    (hgood : ∀ segment ∈ segments, GoodSegment type segment) :
    segmentize type (body type segments) [] = some segments := by
  unfold segmentize body
  cases hescape : (traits type).separatorEscape with
  | none =>
      rw [map_escapeSeparators_plain hescape,
        fields_join (separator_isSeparator type)
          (fun segment hmem => (hgood segment hmem).free hescape),
        fold_plain hescape hgood]
      rfl
  | some escape =>
      obtain rfl := vms_of_escape hescape
      have hread := read_join_vms hgood []
      rw [show separator .vms = '.' from rfl, hread]
      rfl

theorem segmentize_cons_separator (text : WString) (segments : List WString) :
    segmentize type (separator type :: text) segments =
      segmentize type text segments := by
  unfold segmentize
  rw [fields_cons_delimiter (separator_isSeparator type)]

theorem segmentize_body_separator
    (hescape : (traits type).separatorEscape = none)
    (hgood : ∀ segment ∈ segments, GoodSegment type segment) :
    segmentize type (body type segments ++ [separator type]) [] =
      some segments := by
  unfold segmentize body
  rw [map_escapeSeparators_plain hescape,
    fields_join_delimiter (separator_isSeparator type)
      (separator_isSeparator type)
      (fun segment hmem => (hgood segment hmem).free hescape),
    fold_plain hescape hgood]
  rfl

theorem printSegments_cons
    (pathPrefix : Option WString) (first : WString)
    (segments : List WString) :
    printSegments type pathPrefix (first :: segments) =
      (if (traits type).hasRoot &&
          (pathPrefix.isNone || (traits type).separatorAfterPrefix) then
        [separator type] else []) ++ body type (first :: segments) := by
  rw [printSegments, body, List.map_cons, join_cons, List.append_assoc,
    List.flatMap_map]

/-! ## Reading a printed path -/

theorem find_append
    {char : Char} {before : WString} (hbefore : char ∉ before)
    (after : WString) :
    WString.find char (before ++ char :: after) = some before.length := by
  unfold WString.find
  rw [List.findIdx?_append]
  have hnone : before.findIdx? (· == char) = none := by
    rw [List.findIdx?_eq_none_iff]
    intro other hmem
    have hne : other ≠ char := by
      intro heq
      exact hbefore (heq ▸ hmem)
    simpa using hne
  simp [hnone, List.findIdx?_cons]

theorem rfind_concat (char : Char) (text : WString) :
    WString.rfind char (text ++ [char]) = some text.length := by
  simp [WString.rfind, List.findIdx?_cons]

theorem segmentizeInto_of
    (pathPrefix : Option WString) {dir : WString}
    (hread : segmentize type dir [] = some segments) :
    segmentizeInto type false ⟨[], pathPrefix⟩ dir =
      some (⟨segments, pathPrefix⟩, []) := by
  simp [segmentizeInto, hread]

theorem unlessStillEmpty_of_segments
    (hsegments : segments ≠ []) (pathPrefix : Option WString)
    (file : WString) (wasEmpty : Bool) :
    unlessStillEmpty wasEmpty (some (⟨segments, pathPrefix⟩, file)) =
      some (⟨segments, pathPrefix⟩, file) := by
  simp [unlessStillEmpty, hsegments]

theorem body_ne_nil
    (hgood : ∀ segment ∈ segments, GoodSegment type segment)
    (hsegments : segments ≠ []) : body type segments ≠ [] := by
  intro hnil
  have hread := segmentize_body hgood
  rw [hnil] at hread
  simp only [segmentize, fields_nil, List.foldl_nil, Bool.false_eq_true,
    if_false, Option.some.injEq] at hread
  exact hsegments hread.symm

theorem changeVms_enclosed
    {device inside : WString} (hdevice : '[' ∉ device) (hinside : inside ≠ []) :
    changeVms false true ⟨[], none⟩ (device ++ '[' :: (inside ++ [']'])) =
      (unlessStillEmpty true
        (segmentizeInto .vms false
          ⟨[], if device.length ≠ 0 then some device else none⟩ inside)).map
        fun changed => (changed.1, []) := by
  have hfind := find_append hdevice (inside ++ [']'])
  have hsplit : device ++ '[' :: (inside ++ [']']) =
      (device ++ '[' :: inside) ++ [']'] := by
    simp
  have hrfind := rfind_concat ']' (device ++ '[' :: inside)
  rw [← hsplit] at hrfind
  have hlength : 0 < inside.length := List.length_pos_iff.mpr hinside
  unfold changeVms
  simp only [hfind, hrfind]
  rw [if_neg (by simp; omega), if_neg (by simp)]
  have htake : (device ++ '[' :: (inside ++ [']'])).take
      (device ++ '[' :: inside).length = device ++ '[' :: inside := by
    rw [hsplit, List.take_left]
  simp only [htake, Bool.false_eq_true, if_false, List.take_left]
  have hdrop : (device ++ '[' :: inside).drop (device.length + 1) =
      inside := by
    simp [List.drop_append]
  rw [hdrop]

theorem GoodData.device {pathPrefix : Option WString}
    (hgood : GoodData .vms ⟨segments, pathPrefix⟩) :
    '[' ∉ pathPrefix.getD [] ∧
      (if (pathPrefix.getD []).length ≠ 0 then some (pathPrefix.getD [])
        else none) = pathPrefix := by
  cases pathPrefix with
  | none => exact ⟨List.not_mem_nil, rfl⟩
  | some device =>
      obtain ⟨hne, hfree⟩ := hgood.pathPrefix device rfl
      exact ⟨hfree, by simp [hne]⟩

theorem change_vms (hgood : GoodData .vms data) :
    changeVms false true ⟨[], none⟩ (getPath ⟨some data, .vms⟩) =
      some (data, []) := by
  obtain ⟨segments, pathPrefix⟩ := data
  have hsegments : segments ≠ [] := hgood.nonempty rfl
  have hbody := body_ne_nil hgood.segments hsegments
  have hread := segmentize_body hgood.segments
  obtain ⟨first, rest, rfl⟩ := List.exists_cons_of_ne_nil hsegments
  have hprint : getPath ⟨some ⟨first :: rest, pathPrefix⟩, .vms⟩ =
      pathPrefix.getD [] ++ '[' :: (body .vms (first :: rest) ++ [']']) := by
    unfold getPath
    simp only [printSegments_cons]
    simp [traits]
  obtain ⟨hdevice, hkept⟩ := hgood.device
  rw [hprint, changeVms_enclosed hdevice hbody, hkept,
    segmentizeInto_of _ hread, unlessStillEmpty_of_segments hsegments]
  rfl

theorem not_startsWithSeparator
    {first : WString} (hfirst : first ≠ [] ∧ Free (isSeparator type) first)
    (text : WString) :
    startsWithSeparator type (first ++ text) = false := by
  obtain ⟨char, rest, rfl⟩ := List.exists_cons_of_ne_nil hfirst.1
  have hchar := hfirst.2 char List.mem_cons_self
  simp [startsWithSeparator, hchar]

theorem body_not_separator
    (hescape : (traits type).separatorEscape = none)
    (hgood : ∀ segment ∈ segments, GoodSegment type segment)
    (hsegments : segments ≠ []) (text : WString) :
    startsWithSeparator type (body type segments ++ text) = false := by
  obtain ⟨first, rest, rfl⟩ := List.exists_cons_of_ne_nil hsegments
  unfold body
  rw [map_escapeSeparators_plain hescape, join_cons, List.append_assoc]
  apply not_startsWithSeparator
  exact (hgood first List.mem_cons_self).free hescape

theorem change_dos
    (htype : type = .dos ∨ type = .dosFwdSlashes)
    (hgood : GoodData type data) :
    changeDos type false true ⟨[], none⟩ (getPath ⟨some data, type⟩) =
      some (data, []) := by
  obtain ⟨segments, pathPrefix⟩ := data
  have hescape : (traits type).separatorEscape = none := by
    rcases htype with rfl | rfl <;> rfl
  have hstart : pathPrefix = none := by
    rcases htype with rfl | rfl <;> exact hgood.pathPrefix
  have hsegments : segments ≠ [] := by
    rcases htype with rfl | rfl <;> exact hgood.nonempty rfl
  subst hstart
  have hprint : getPath ⟨some ⟨segments, none⟩, type⟩ =
      body type segments ++
        if segments.length = 1 then [separator type] else [] := by
    obtain ⟨first, rest, rfl⟩ := List.exists_cons_of_ne_nil hsegments
    unfold getPath
    simp only [printSegments_cons]
    rcases htype with rfl | rfl <;> simp [traits]
  have hread : segmentize type (body type segments ++
      if segments.length = 1 then [separator type] else []) [] =
      some segments := by
    split_ifs
    · exact segmentize_body_separator hescape hgood.segments
    · rw [List.append_nil]
      exact segmentize_body hgood.segments
  rw [hprint]
  unfold changeDos
  rw [body_not_separator hescape hgood.segments hsegments,
    segmentizeInto_of _ hread, unlessStillEmpty_of_segments hsegments]
  simp

theorem dropDoubleQuotes_enclosed (inside : WString) :
    dropDoubleQuotes ('\'' :: (inside ++ ['\''])) =
      '\'' :: (inside ++ ['\'']) := by
  have hquote : ('\'' == mvsDoubleQuote) = false := rfl
  unfold dropDoubleQuotes
  rw [List.dropWhile_cons, if_neg (by simp [hquote]), ← List.cons_append,
    List.rdropWhile_concat_neg]
  simp [hquote]

theorem changeMvs_enclosed (isFile : Bool) (inside : WString) :
    changeMvs isFile true ⟨[], none⟩ ('\'' :: (inside ++ ['\''])) =
      changeMvsInside isFile true ⟨[], none⟩ inside := by
  have hlast : ('\'' :: (inside ++ ['\''])).getLast? = some '\'' := by
    rw [← List.cons_append, List.getLast?_concat]
  unfold changeMvs
  rw [dropDoubleQuotes_enclosed]
  simp [hlast]

theorem change_mvs (hgood : GoodData .mvs data) :
    changeMvs false true ⟨[], none⟩ (getPath ⟨some data, .mvs⟩) =
      some (data, []) := by
  obtain ⟨segments, pathPrefix⟩ := data
  have hescape : (traits .mvs).separatorEscape = none := rfl
  have hsegments : segments ≠ [] := hgood.nonempty rfl
  have hprint : getPath ⟨some ⟨segments, pathPrefix⟩, .mvs⟩ =
      '\'' :: ((body .mvs segments ++ pathPrefix.getD []) ++ ['\'']) := by
    obtain ⟨first, rest, rfl⟩ := List.exists_cons_of_ne_nil hsegments
    unfold getPath
    simp only [printSegments_cons]
    simp [traits]
  rw [hprint, changeMvs_enclosed]
  unfold changeMvsInside
  rcases hgood.pathPrefix with hdot | ⟨hnone, hmember⟩
  · simp only at hdot
    subst hdot
    have hread := segmentize_body_separator hescape hgood.segments
    rw [show separator .mvs = '.' from rfl] at hread
    have hinto := segmentizeInto_of (some ['.']) hread
    simp [hinto]
  · simp only at hnone
    subst hnone
    obtain ⟨before, last, rfl⟩ :=
      (List.eq_nil_or_concat' segments).resolve_left hsegments
    obtain ⟨hlast, hfree⟩ :=
      (hgood.segments last (by simp)).free hescape
    have hend : (body .mvs (before ++ [last])).getLast? = last.getLast? := by
      unfold body
      rw [map_escapeSeparators_plain hescape]
      exact join_concat_getLast _ before hlast
    have hparen : last.getLast? ≠ some ')' := hmember last (by simp)
    have hdot : last.getLast? ≠ some '.' := by
      intro heq
      have hseparator := hfree '.' (List.mem_of_getLast? heq)
      cases hseparator
    have hinto := segmentizeInto_of none (segmentize_body hgood.segments)
    simp only [Option.getD_none, List.append_nil, hend, if_neg hparen,
      if_neg hdot]
    simp [hinto]

theorem change_hpnonstop (hgood : GoodData .hpnonstop data) :
    changeHpnonstop false true ⟨[], none⟩ (getPath ⟨some data, .hpnonstop⟩) =
      some (data, []) := by
  obtain ⟨segments, pathPrefix⟩ := data
  have hstart : pathPrefix = none := hgood.pathPrefix
  have hsegments : segments ≠ [] := hgood.nonempty rfl
  subst hstart
  have hprint : getPath ⟨some ⟨segments, none⟩, .hpnonstop⟩ =
      body .hpnonstop segments := by
    obtain ⟨first, rest, rfl⟩ := List.exists_cons_of_ne_nil hsegments
    unfold getPath
    simp only [printSegments_cons]
    simp [traits]
  have hread := segmentize_body hgood.segments
  rw [hprint]
  unfold changeHpnonstop
  simp only [ite_self]
  rw [segmentizeInto_of _ hread, unlessStillEmpty_of_segments hsegments]

theorem change_vxworks (hgood : GoodData .vxworks data) :
    changeVxworks false true ⟨[], none⟩ (getPath ⟨some data, .vxworks⟩) =
      some (data, []) := by
  obtain ⟨segments, pathPrefix⟩ := data
  obtain ⟨device, hdevice, hcolon, hstart⟩ := hgood.pathPrefix
  simp only at hstart
  subst hstart
  have hprint : getPath ⟨some ⟨segments, some (':' :: (device ++ [':']))⟩,
      .vxworks⟩ = ':' :: (device ++ ':' :: body .vxworks segments) := by
    unfold getPath
    cases segments with
    | nil => simp [traits, printSegments, body, join]
    | cons first rest =>
        simp only [printSegments_cons]
        simp [traits]
  have hread := segmentize_body hgood.segments
  have hfind := find_append hcolon (body .vxworks segments)
  obtain ⟨length, hlength⟩ :=
    Nat.exists_eq_succ_of_ne_zero (List.length_pos_iff.mpr hdevice).ne'
  rw [hlength] at hfind
  rw [hprint]
  unfold changeVxworks
  simp only [List.head?_cons, ne_eq, not_true_eq_false, if_false,
    List.drop_succ_cons, List.drop_zero, hfind]
  have htake : (device ++ ':' :: body .vxworks segments).take (length + 2) =
      device ++ [':'] := by
    rw [show length + 2 = device.length + 1 by omega, List.take_append]
    simp
  have hdrop : (device ++ ':' :: body .vxworks segments).drop (length + 2) =
      body .vxworks segments := by
    rw [show length + 2 = device.length + 1 by omega, List.drop_append]
    simp
  simp only [List.take_succ_cons, htake, hdrop]
  exact segmentizeInto_of _ hread

theorem printSegments_rooted
    (hroot : (traits type).hasRoot = true) {pathPrefix : Option WString}
    (hstart : pathPrefix.isNone ∨ (traits type).separatorAfterPrefix = true)
    (segments : List WString) :
    printSegments type pathPrefix segments =
      separator type :: body type segments := by
  have hcondition : (pathPrefix.isNone ||
      (traits type).separatorAfterPrefix) = true := by
    simpa using hstart
  cases segments with
  | nil =>
      simp only [printSegments, hroot, Bool.not_true, Bool.false_or,
        hcondition, if_true]
      rfl
  | cons first rest =>
      rw [printSegments_cons, hroot, Bool.true_and, if_pos hcondition]
      rfl

theorem change_cygwin (hgood : GoodData .cygwin data) :
    changeCygwin false true ⟨[], none⟩ (getPath ⟨some data, .cygwin⟩) =
      some (data, []) := by
  obtain ⟨segments, pathPrefix⟩ := data
  have hescape : (traits .cygwin).separatorEscape = none := rfl
  have hprint : getPath ⟨some ⟨segments, pathPrefix⟩, .cygwin⟩ =
      pathPrefix.getD [] ++ '/' :: body .cygwin segments := by
    have hsegments :=
      @printSegments_rooted .cygwin rfl pathPrefix (Or.inr rfl) segments
    unfold getPath
    simp only [hsegments]
    simp [traits, separator]
  have hread : segmentize .cygwin ('/' :: body .cygwin segments) [] =
      some segments := by
    rw [show '/' = separator .cygwin from rfl, segmentize_cons_separator]
    exact segmentize_body hgood.segments
  rw [hprint]
  unfold changeCygwin
  rcases hgood.pathPrefix with hnone | hserver
  · simp only at hnone
    subst hnone
    have hsecond : (body .cygwin segments).head? ≠ some '/' := by
      intro hhead
      cases segments with
      | nil => simp [body, join] at hhead
      | cons first rest =>
          have hstart := body_not_separator hescape hgood.segments
            (List.cons_ne_nil _ _) []
          rw [List.append_nil, startsWithSeparator, hhead] at hstart
          cases hstart
    have hstart : startsWithSeparator .cygwin
        ('/' :: body .cygwin segments) = true := rfl
    simp only [Option.getD_none, List.nil_append, hstart, if_true]
    rw [if_neg (by simpa using hsecond)]
    exact segmentizeInto_of _ hread
  · simp only at hserver
    subst hserver
    have hstart : startsWithSeparator .cygwin
        ('/' :: '/' :: body .cygwin segments) = true := rfl
    simp only [Option.getD_some, List.cons_append, List.nil_append, hstart,
      if_true]
    rw [if_pos (by simp)]
    exact segmentizeInto_of _ hread

theorem change_rooted
    (hroot : (traits type).hasRoot = true)
    (hgood : GoodData type data) (hstart : data.pathPrefix = none)
    (hprint : getPath ⟨some data, type⟩ =
      printSegments type none data.segments) :
    changeRooted type false true ⟨[], none⟩ (getPath ⟨some data, type⟩) =
      some (data, []) := by
  obtain ⟨segments, pathPrefix⟩ := data
  simp only at hstart
  subst hstart
  have hread : segmentize type (separator type :: body type segments) [] =
      some segments := by
    rw [segmentize_cons_separator]
    exact segmentize_body hgood.segments
  rw [hprint, printSegments_rooted hroot (Or.inl rfl)]
  unfold changeRooted
  rw [if_pos (by simp [startsWithSeparator, separator_isSeparator])]
  exact segmentizeInto_of _ hread

theorem changeByType_getPath (hgood : GoodData type data) :
    changeByType type false true ⟨[], none⟩ (getPath ⟨some data, type⟩) =
      some (data, []) := by
  have hrooted : type = .default ∨ type = .unix ∨ type = .zvm ∨
      type = .dosVirtual →
      changeRooted type false true ⟨[], none⟩ (getPath ⟨some data, type⟩) =
        some (data, []) := by
    intro htype
    have hstart : data.pathPrefix = none := by
      rcases htype with rfl | rfl | rfl | rfl <;> exact hgood.pathPrefix
    apply change_rooted
    · rcases htype with rfl | rfl | rfl | rfl <;> rfl
    · exact hgood
    · exact hstart
    · unfold getPath
      rcases htype with rfl | rfl | rfl | rfl <;> simp [traits, hstart]
  cases type with
  | default => exact hrooted (Or.inl rfl)
  | unix => exact hrooted (Or.inr (Or.inl rfl))
  | vms => exact change_vms hgood
  | dos => exact change_dos (Or.inl rfl) hgood
  | mvs => exact change_mvs hgood
  | vxworks => exact change_vxworks hgood
  | zvm => exact hrooted (Or.inr (Or.inr (Or.inl rfl)))
  | hpnonstop => exact change_hpnonstop hgood
  | dosVirtual => exact hrooted (Or.inr (Or.inr (Or.inr rfl)))
  | cygwin => exact change_cygwin hgood
  | dosFwdSlashes => exact change_dos (Or.inr rfl) hgood

theorem getPath_ne_nil (hgood : GoodData type data) :
    getPath ⟨some data, type⟩ ≠ [] := by
  intro hnil
  have hchange := changeByType_getPath hgood
  rw [hnil] at hchange
  cases type <;> cases hchange

/-- The text of a path gives the path back. -/
theorem setPath_getPath
    (htype : type ≠ .default) (hgood : GoodData type data) :
    (blank type).setPath (getPath ⟨some data, type⟩) =
      (⟨some data, type⟩, true) := by
  have hne := getPath_ne_nil hgood
  have hchange := changeByType_getPath hgood
  have hroot : ¬ ((!(traits type).hasRoot && data.segments.isEmpty) = true) := by
    intro hempty
    simp only [Bool.and_eq_true, Bool.not_eq_true', List.isEmpty_iff] at hempty
    exact hgood.nonempty hempty.1 hempty.2
  generalize getPath ⟨some data, type⟩ = text at *
  have hdo : (blank type).doChangePath text false =
      some (⟨some data, type⟩, text) := by
    unfold doChangePath
    rw [if_neg (by simpa using hne)]
    simp only [blank, ServerPath.empty, Option.isNone_none, Option.getD_none,
      hchange]
    exact (if_neg hroot).trans (if_neg Bool.false_ne_true)
  unfold setPath
  rw [if_neg (by simpa using hne)]
  simp only [blank, htype, if_false] at hdo ⊢
  unfold changePath
  rw [hdo]

/-! ## Every operation keeps paths well formed -/

/-- What `DoChangePath` starts with. -/
structure Basis (type : ServerType) (wasEmpty : Bool)
    (data : ServerPathData) : Prop where
  segments : ∀ segment ∈ data.segments, GoodSegment type segment
  pathPrefix : wasEmpty = false → GoodPrefix type data
  fresh : wasEmpty = true → data = ⟨[], none⟩

structure Acceptable (type : ServerType) (data : ServerPathData) : Prop where
  segments : ∀ segment ∈ data.segments, GoodSegment type segment
  pathPrefix : GoodPrefix type data

theorem segmentizeInto_cases
    {changed : Changed} {dir : WString}
    (hchange : segmentizeInto type false data dir = some changed) :
    ∃ following, segmentize type dir data.segments = some following ∧
      changed = ({ data with segments := following }, []) := by
  simp only [segmentizeInto, Bool.false_eq_true, if_false,
    Option.map_eq_some_iff] at hchange
  obtain ⟨following, hread, hchanged⟩ := hchange
  exact ⟨following, hread, hchanged.symm⟩

theorem unlessStillEmpty_cases
    {changed : Changed} {wasEmpty : Bool} {result : Option Changed}
    (hchange : unlessStillEmpty wasEmpty result = some changed) :
    result = some changed := by
  cases result with
  | none => cases hchange
  | some other =>
      simp only [unlessStillEmpty, Option.filter_some] at hchange
      split_ifs at hchange
      exact hchange

theorem nil_good : ∀ segment ∈ ([] : List WString), GoodSegment type segment := by
  intro segment hmem
  cases hmem

theorem Acceptable.of_segmentizeInto
    {changed : Changed} {dir : WString} (htype : type ≠ .mvs)
    (hgood : ∀ segment ∈ data.segments, GoodSegment type segment)
    (hstart : GoodPrefix type data)
    (hchange : segmentizeInto type false data dir = some changed) :
    Acceptable type changed.1 := by
  obtain ⟨following, hread, rfl⟩ := segmentizeInto_cases hchange
  refine ⟨segmentize_good hgood hread, ?_⟩
  cases type <;> first | exact hstart | exact absurd rfl htype

theorem find_spec
    {char : Char} {text : WString} {index : ℕ}
    (hfind : WString.find char text = some index) :
    char ∉ text.take index ∧ index < text.length ∧
      text = text.take index ++ char :: text.drop (index + 1) := by
  obtain ⟨hlt, hfound, hbefore⟩ := List.findIdx?_eq_some_iff_getElem.mp hfind
  refine ⟨?_, hlt, ?_⟩
  · intro hmem
    obtain ⟨earlier, hearlier, hchar⟩ := List.mem_take_iff_getElem.mp hmem
    have hdiffers := hbefore earlier (by omega)
    simp [hchar] at hdiffers
  · have hchar : text[index] = char := by
      simpa using hfound
    rw [← hchar, List.getElem_cons_drop, List.take_append_drop]

theorem changeVms_acceptable
    {changed : Changed} {wasEmpty : Bool} {dir : WString}
    (hbasis : Basis .vms wasEmpty data)
    (hchange : changeVms false wasEmpty data dir = some changed) :
    Acceptable .vms changed.1 := by
  have hstart : GoodPrefix .vms data := by
    cases wasEmpty with
    | false => exact hbasis.pathPrefix rfl
    | true =>
        rw [hbasis.fresh rfl]
        intro device hdevice
        cases hdevice
  unfold changeVms at hchange
  cases hfind : WString.find '[' dir with
  | none =>
      simp only [hfind, Bool.false_eq_true, if_false] at hchange
      split_ifs at hchange
      exact Acceptable.of_segmentizeInto (by simp) hbasis.segments hstart
        (unlessStillEmpty_cases hchange)
  | some pos1 =>
      obtain ⟨hbefore, hlength, _⟩ := find_spec hfind
      cases hrfind : WString.rfind ']' dir with
      | none => simp [hfind, hrfind] at hchange
      | some pos2 =>
          simp only [hfind, hrfind] at hchange
          by_cases hshort : pos2 ≤ pos1 + 1
          · rw [if_pos hshort] at hchange
            cases hchange
          · rw [if_neg hshort] at hchange
            by_cases hlast : false = decide (pos2 = dir.length - 1)
            · rw [if_pos hlast] at hchange
              cases hchange
            · rw [if_neg hlast] at hchange
              simp only [Option.map_eq_some_iff] at hchange
              obtain ⟨inner, hinner, rfl⟩ := hchange
              apply Acceptable.of_segmentizeInto (by simp) nil_good ?_
                (unlessStillEmpty_cases hinner)
              intro device hdevice
              simp only at hdevice
              split_ifs at hdevice with hpos
              · rw [List.take_take, Nat.min_eq_left (by omega),
                  Option.some.injEq] at hdevice
                subst hdevice
                refine ⟨?_, hbefore⟩
                intro hnil
                have hnone := congrArg List.length hnil
                rw [List.length_take, List.length_nil] at hnone
                omega
              · exact hstart device hdevice

theorem changeDos_acceptable
    {changed : Changed} {wasEmpty : Bool} {dir : WString}
    (htype : type = .dos ∨ type = .dosFwdSlashes)
    (hbasis : Basis type wasEmpty data)
    (hchange : changeDos type false wasEmpty data dir = some changed) :
    Acceptable type changed.1 := by
  have hmvs : type ≠ .mvs := by
    rcases htype with rfl | rfl <;> simp
  have hnone : data.pathPrefix = none := by
    cases wasEmpty with
    | false =>
        have hstart := hbasis.pathPrefix rfl
        rcases htype with rfl | rfl <;> exact hstart
    | true => rw [hbasis.fresh rfl]
  have hstart : ∀ segments, GoodPrefix type ⟨segments, data.pathPrefix⟩ := by
    intro segments
    rcases htype with rfl | rfl <;> exact hnone
  unfold changeDos at hchange
  split_ifs at hchange
  · exact Acceptable.of_segmentizeInto hmvs nil_good (hstart [])
      (unlessStillEmpty_cases hchange)
  · cases hsegments : data.segments with
    | nil => simp [hsegments] at hchange
    | cons first rest =>
        simp only [hsegments] at hchange
        apply Acceptable.of_segmentizeInto hmvs ?_ (hstart [first])
          (unlessStillEmpty_cases hchange)
        intro segment hmem
        rw [List.mem_singleton] at hmem
        rw [hmem]
        exact hbasis.segments first (by simp [hsegments])
  · exact Acceptable.of_segmentizeInto hmvs hbasis.segments
      (hstart data.segments) (unlessStillEmpty_cases hchange)

theorem segmentize_last
    {following : List WString} {last : Char}
    (hescape : (traits type).separatorEscape = none)
    (hdots : (traits type).hasDots = false)
    (hlast : isSeparator type last = false)
    (hgood : ∀ segment ∈ segments, GoodSegment type segment)
    (hread : segmentize type (text ++ [last]) segments = some following) :
    ∃ before field, following = before ++ [field ++ [last]] := by
  obtain ⟨pieces, field, hfields⟩ :=
    @fieldsFrom_last _ (isSeparator type) [] text last hlast
  have hpieces : ∀ piece ∈ pieces,
      piece ≠ [] ∧ Free (isSeparator type) piece := by
    intro piece hmem
    apply @fields_good _ (isSeparator type) (text ++ [last])
    unfold fields
    rw [hfields]
    exact List.mem_append_left _ hmem
  have hstart : Pending type (segments, false) :=
    ⟨segments, none, rfl, by simp, hgood⟩
  obtain ⟨complete, back, hstate, hback, _⟩ := hstart.fold hpieces
  have hnone : back = none := by
    by_contra hpresent
    exact hback hpresent hescape
  subst hnone
  unfold segmentize fields at hread
  rw [hfields, List.foldl_append, hstate, List.foldl_cons, List.foldl_nil,
    inProgress, segmentizeAddSegment_plain hescape (by simp [hdots])] at hread
  simp only [Bool.false_eq_true, if_false, Option.some.injEq] at hread
  exact ⟨complete, field, hread.symm⟩

theorem changeMvsInside_acceptable
    {changed : Changed} {wasEmpty : Bool} {dir : WString}
    (hgood : ∀ segment ∈ data.segments, GoodSegment .mvs segment)
    (hdir : dir = [] → data.segments = [])
    (hchange : changeMvsInside false wasEmpty data dir = some changed) :
    Acceptable .mvs changed.1 := by
  simp only [changeMvsInside, Bool.not_false, if_true, Bool.or_true,
    Bool.and_true, Bool.false_eq_true, if_false] at hchange
  split_ifs at hchange with hmember hclosed hdot
  · obtain ⟨following, hread, rfl⟩ := segmentizeInto_cases hchange
    exact ⟨segmentize_good hgood hread, Or.inl rfl⟩
  · obtain ⟨following, hread, rfl⟩ := segmentizeInto_cases hchange
    refine ⟨segmentize_good hgood hread, Or.inr ⟨rfl, ?_⟩⟩
    intro segment hsegment
    rcases List.eq_nil_or_concat' dir with hnil | ⟨before, last, hsplit⟩
    · rw [hdir hnil, hnil] at hread
      simp only [segmentize, fields_nil, List.foldl_nil, Bool.false_eq_true,
        if_false, Option.some.injEq] at hread
      rw [← hread] at hsegment
      cases hsegment
    · rw [hsplit, List.getLast?_concat, Option.some.injEq] at hmember hdot
      have hlast : isSeparator .mvs last = false := by
        simp [isSeparator, traits, hdot]
      rw [hsplit] at hread
      obtain ⟨complete, field, hfollowing⟩ :=
        segmentize_last rfl rfl hlast hgood hread
      simp only [hfollowing, List.getLast?_concat,
        Option.some.injEq] at hsegment
      rw [← hsegment, List.getLast?_concat]
      simpa using hmember

theorem changeMvs_acceptable
    {changed : Changed} {wasEmpty : Bool} {dir : WString}
    (hbasis : Basis .mvs wasEmpty data)
    (hchange : changeMvs false wasEmpty data dir = some changed) :
    Acceptable .mvs changed.1 := by
  unfold changeMvs at hchange
  simp only at hchange
  split_ifs at hchange with hempty henclosed hclosed
  · exact changeMvsInside_acceptable nil_good (fun _ => rfl) hchange
  · apply changeMvsInside_acceptable hbasis.segments _ hchange
    intro hnil
    simp [hnil] at hempty

theorem changeHpnonstop_acceptable
    {changed : Changed} {wasEmpty : Bool} {dir : WString}
    (hbasis : Basis .hpnonstop wasEmpty data)
    (hchange : changeHpnonstop false wasEmpty data dir = some changed) :
    Acceptable .hpnonstop changed.1 := by
  have hnone : data.pathPrefix = none := by
    cases wasEmpty with
    | false => exact hbasis.pathPrefix rfl
    | true => rw [hbasis.fresh rfl]
  have hreset : GoodPrefix .hpnonstop ⟨[], data.pathPrefix⟩ := hnone
  unfold changeHpnonstop at hchange
  simp only at hchange
  split_ifs at hchange
  · exact Acceptable.of_segmentizeInto (by simp) nil_good hreset
      (unlessStillEmpty_cases hchange)
  · exact Acceptable.of_segmentizeInto (by simp) hbasis.segments hnone
      (unlessStillEmpty_cases hchange)

theorem changeVxworks_acceptable
    {changed : Changed} {wasEmpty : Bool} {dir : WString}
    (hbasis : Basis .vxworks wasEmpty data)
    (hchange : changeVxworks false wasEmpty data dir = some changed) :
    Acceptable .vxworks changed.1 := by
  unfold changeVxworks at hchange
  split_ifs at hchange with hhead hempty
  · exact Acceptable.of_segmentizeInto (by simp) hbasis.segments
      (hbasis.pathPrefix (by simpa using hempty)) hchange
  · have hcolon : dir.head? = some ':' := by
      simpa using hhead
    obtain ⟨rest, rfl⟩ := List.head?_eq_some_iff.mp hcolon
    rw [List.drop_succ_cons, List.drop_zero] at hchange
    cases hfind : WString.find ':' rest with
    | none => simp [hfind] at hchange
    | some length =>
        cases length with
        | zero => simp [hfind] at hchange
        | succ length =>
            obtain ⟨hbefore, hlength, hsplit⟩ := find_spec hfind
            simp only [hfind] at hchange
            apply Acceptable.of_segmentizeInto (by simp) nil_good ?_ hchange
            refine ⟨rest.take (length + 1), ?_, hbefore, ?_⟩
            · intro hnil
              have hnone := congrArg List.length hnil
              rw [List.length_take, List.length_nil] at hnone
              omega
            · have htake : rest.take (length + 1 + 1) =
                  rest.take (length + 1) ++ [':'] := by
                conv_lhs => rw [hsplit]
                rw [List.take_append, List.length_take,
                  Nat.min_eq_left (by omega), List.take_of_length_le (by simp)]
                simp
              simp only [List.take_succ_cons, htake]

theorem changeCygwin_acceptable
    {changed : Changed} {wasEmpty : Bool} {dir : WString}
    (hbasis : Basis .cygwin wasEmpty data)
    (hchange : changeCygwin false wasEmpty data dir = some changed) :
    Acceptable .cygwin changed.1 := by
  unfold changeCygwin at hchange
  split_ifs at hchange with hstart hserver hempty
  · exact Acceptable.of_segmentizeInto (by simp) nil_good (Or.inr rfl) hchange
  · exact Acceptable.of_segmentizeInto (by simp) nil_good (Or.inl rfl) hchange
  · exact Acceptable.of_segmentizeInto (by simp) hbasis.segments
      (hbasis.pathPrefix (by simpa using hempty)) hchange

theorem changeRooted_acceptable
    {changed : Changed} {wasEmpty : Bool} {dir : WString}
    (htype : type = .default ∨ type = .unix ∨ type = .zvm ∨
      type = .dosVirtual)
    (hbasis : Basis type wasEmpty data)
    (hchange : changeRooted type false wasEmpty data dir = some changed) :
    Acceptable type changed.1 := by
  have hmvs : type ≠ .mvs := by
    rcases htype with rfl | rfl | rfl | rfl <;> simp
  have hnone : data.pathPrefix = none := by
    cases wasEmpty with
    | false =>
        have hstart := hbasis.pathPrefix rfl
        rcases htype with rfl | rfl | rfl | rfl <;> exact hstart
    | true => rw [hbasis.fresh rfl]
  have hstart : ∀ segments, GoodPrefix type ⟨segments, data.pathPrefix⟩ := by
    intro segments
    rcases htype with rfl | rfl | rfl | rfl <;> exact hnone
  unfold changeRooted at hchange
  split_ifs at hchange
  · exact Acceptable.of_segmentizeInto hmvs nil_good (hstart []) hchange
  · exact Acceptable.of_segmentizeInto hmvs hbasis.segments
      (hstart data.segments) hchange

theorem changeByType_acceptable
    {changed : Changed} {wasEmpty : Bool} {dir : WString}
    (hbasis : Basis type wasEmpty data)
    (hchange : changeByType type false wasEmpty data dir = some changed) :
    Acceptable type changed.1 := by
  cases type with
  | default => exact changeRooted_acceptable (by simp) hbasis hchange
  | unix => exact changeRooted_acceptable (by simp) hbasis hchange
  | vms => exact changeVms_acceptable hbasis hchange
  | dos => exact changeDos_acceptable (by simp) hbasis hchange
  | mvs => exact changeMvs_acceptable hbasis hchange
  | vxworks => exact changeVxworks_acceptable hbasis hchange
  | zvm => exact changeRooted_acceptable (by simp) hbasis hchange
  | hpnonstop => exact changeHpnonstop_acceptable hbasis hchange
  | dosVirtual => exact changeRooted_acceptable (by simp) hbasis hchange
  | cygwin => exact changeCygwin_acceptable hbasis hchange
  | dosFwdSlashes => exact changeDos_acceptable (by simp) hbasis hchange

variable {path op : ServerPath}

theorem WellFormed.basis (hwell : path.WellFormed) :
    Basis path.type path.empty (path.data.getD ⟨[], none⟩) := by
  cases hdata : path.data with
  | none =>
      refine ⟨nil_good, ?_, fun _ => rfl⟩
      intro hempty
      simp [ServerPath.empty, hdata] at hempty
  | some data =>
      have hgood := hwell data hdata
      refine ⟨hgood.segments, fun _ => hgood.pathPrefix, ?_⟩
      intro hempty
      simp [ServerPath.empty, hdata] at hempty

theorem blank_wellFormed (type : ServerType) : (blank type).WellFormed := by
  intro data hdata
  cases hdata

theorem clear_wellFormed (path : ServerPath) : path.clear.WellFormed := by
  intro data hdata
  cases hdata

theorem WellFormed.changePath
    (hwell : path.WellFormed) (subdir : WString) :
    (path.changePath subdir).1.WellFormed := by
  unfold ServerPath.changePath doChangePath
  by_cases hempty : subdir.isEmpty = true
  · rw [if_pos hempty]
    split_ifs
    · exact clear_wellFormed path
    · exact hwell
  · rw [if_neg hempty]
    cases hchange : changeByType path.type false path.empty
        (path.data.getD ⟨[], none⟩) subdir with
    | none => exact clear_wellFormed path
    | some changed =>
        obtain ⟨data, file⟩ := changed
        obtain ⟨hsegments, hstart⟩ := changeByType_acceptable hwell.basis hchange
        simp only [Bool.false_eq_true, if_false]
        by_cases hroot :
            (!(traits path.type).hasRoot && data.segments.isEmpty) = true
        · rw [if_pos hroot]
          exact clear_wellFormed path
        · rw [if_neg hroot]
          intro other hother
          obtain rfl := Option.some.inj hother
          refine ⟨hsegments, hstart, ?_⟩
          intro hnone hnil
          simp [hnone, hnil] at hroot

theorem WellFormed.setPath
    (hwell : path.WellFormed) (newPath : WString) :
    (path.setPath newPath).1.WellFormed := by
  unfold ServerPath.setPath
  by_cases hempty : newPath.isEmpty = true
  · rw [if_pos hempty]
    exact hwell
  · rw [if_neg hempty]
    exact (blank_wellFormed _).changePath newPath

theorem GoodPrefix.of_same
    {other : ServerPathData} (hgood : GoodPrefix type data)
    (htype : type ≠ .mvs) (hsame : other.pathPrefix = data.pathPrefix) :
    GoodPrefix type other := by
  cases type <;> first
    | exact absurd rfl htype
    | (unfold GoodPrefix at hgood ⊢; simp only [hsame]; exact hgood)

theorem WellFormed.makeParent (hwell : path.WellFormed) :
    path.makeParent.WellFormed := by
  unfold ServerPath.makeParent
  cases hdata : path.data with
  | none => exact clear_wellFormed path
  | some data =>
      have hgood := hwell data hdata
      by_cases hparent : path.hasParent = true
      · simp only [if_pos hparent]
        intro other hother
        obtain rfl := Option.some.inj hother
        refine ⟨?_, ?_, ?_⟩
        · intro segment hmem
          exact hgood.segments segment (List.mem_of_mem_dropLast hmem)
        · by_cases hmvs : path.type = .mvs
          · simp only [if_pos hmvs]
            rw [hmvs]
            exact Or.inl rfl
          · simp only [if_neg hmvs]
            exact hgood.pathPrefix.of_same hmvs rfl
        · intro hroot hnil
          have hlong : 1 < data.segments.length := by
            simpa [ServerPath.hasParent, hdata, hroot] using hparent
          have hshort := congrArg List.length hnil
          rw [List.length_dropLast, List.length_nil] at hshort
          omega
      · simp only [if_neg hparent]
        exact clear_wellFormed path

theorem commonSegments_subset (lefts rights : List WString) :
    ∀ segment ∈ commonSegments lefts rights, segment ∈ lefts := by
  induction lefts generalizing rights with
  | nil =>
      intro segment hmem
      cases hmem
  | cons left lefts ih =>
      intro segment hmem
      cases rights with
      | nil => cases hmem
      | cons right rights =>
          rw [commonSegments] at hmem
          split_ifs at hmem
          · rcases List.mem_cons.mp hmem with hfirst | hrest
            · exact List.mem_cons.mpr (Or.inl hfirst)
            · exact List.mem_cons_of_mem _ (ih rights segment hrest)
          · cases hmem

theorem directorySegments_subset (type : ServerType) (data : ServerPathData) :
    ∀ segment ∈ directorySegments type data, segment ∈ data.segments := by
  intro segment hmem
  unfold directorySegments at hmem
  split_ifs at hmem
  · exact List.mem_of_mem_dropLast hmem
  · exact hmem

theorem directorySegments_pos
    (hdata : path.data = some data) (hparent : path.hasParent = true)
    (hroot : (traits path.type).hasRoot = false) :
    0 < (directorySegments path.type data).length := by
  have hlong : 1 < data.segments.length := by
    simpa [ServerPath.hasParent, hdata, hroot] using hparent
  unfold directorySegments
  split_ifs
  · rw [List.length_dropLast]
    omega
  · omega

theorem commonSegments_ne_nil
    {lefts rights : List WString} (hlefts : 0 < lefts.length)
    (hrights : 0 < rights.length)
    (hnot : ¬ (segmentsDiffer lefts rights = true ∧
      (commonSegments lefts rights).isEmpty = true)) :
    commonSegments lefts rights ≠ [] := by
  intro hnil
  apply hnot
  simp [segmentsDiffer, hnil, hlefts, hrights]

theorem commonPrefix_good
    (hdata : path.data = some data) (hparent : path.hasParent = true)
    (hgood : GoodData path.type data) (common : List WString) :
    GoodPrefix path.type ⟨common,
      if (traits path.type).prefixmode = 1 then
        path.makeParent.data.bind ServerPathData.pathPrefix
      else data.pathPrefix⟩ := by
  by_cases hmvs : path.type = .mvs
  · have hmode : (traits path.type).prefixmode = 1 := by
      rw [hmvs]
      rfl
    have hdot : path.makeParent.data.bind ServerPathData.pathPrefix =
        some ['.'] := by
      simp [ServerPath.makeParent, hdata, hparent, hmvs]
    rw [if_pos hmode, hdot, hmvs]
    exact Or.inl rfl
  · have hmode : (traits path.type).prefixmode ≠ 1 := by
      cases htype : path.type <;> first
        | exact absurd htype hmvs
        | simp [traits]
    rw [if_neg hmode]
    exact hgood.pathPrefix.of_same hmvs rfl

theorem WellFormed.getCommonParent
    (hpath : path.WellFormed) (hop : op.WellFormed) :
    (path.getCommonParent op).WellFormed := by
  unfold ServerPath.getCommonParent
  by_cases hsame : path.same op = true
  · rw [if_pos hsame]
    exact hpath
  · rw [if_neg hsame]
    cases hleft : path.data with
    | none => exact blank_wellFormed _
    | some ld =>
        cases hright : op.data with
        | none => exact blank_wellFormed _
        | some rd =>
            have hgood := hpath ld hleft
            simp only
            by_cases hdiffer : path.type ≠ op.type ∨
                (traits path.type).prefixmode = 0 ∧
                  ld.pathPrefix ≠ rd.pathPrefix
            · rw [if_pos hdiffer]
              exact blank_wellFormed _
            · rw [if_neg hdiffer]
              simp only [not_or, not_not] at hdiffer
              by_cases hparent : path.hasParent = true
              · rw [if_neg (by simp [hparent])]
                by_cases hopParent : op.hasParent = true
                · rw [if_neg (by simp [hopParent])]
                  have hstart := commonPrefix_good hleft hparent hgood
                  generalize (if (traits path.type).prefixmode = 1 then
                    path.makeParent.data.bind ServerPathData.pathPrefix
                    else ld.pathPrefix) = pathPrefix at hstart ⊢
                  split_ifs with hnone
                  · exact blank_wellFormed _
                  · intro data hdata
                    obtain rfl := Option.some.inj hdata
                    refine ⟨?_, hstart _, ?_⟩
                    · intro segment hmem
                      apply hgood.segments
                      apply directorySegments_subset path.type
                      exact commonSegments_subset _ _ segment hmem
                    · intro hroot
                      apply commonSegments_ne_nil
                      · exact directorySegments_pos hleft hparent hroot
                      · rw [hdiffer.1]
                        apply directorySegments_pos hright hopParent
                        rw [← hdiffer.1]
                        exact hroot
                      · intro hboth
                        apply hnone
                        exact ⟨hboth.1, by simpa using hroot, hboth.2⟩
                · rw [if_pos (by simpa using hopParent)]
                  split_ifs
                  · exact hop
                  · exact blank_wellFormed _
              · rw [if_pos (by simpa using hparent)]
                split_ifs
                · exact hpath
                · exact blank_wellFormed _

/-- The paths that can be made from the empty path of a type.  The forms of
`SetPath` and `ChangePath` that split off the name of a file are left out. -/
inductive Reachable (start : ServerType) : ServerPath → Prop
  | empty : Reachable start (blank start)
  | setPath {path : ServerPath} (newPath : WString) :
      Reachable start path → Reachable start (path.setPath newPath).1
  | changePath {path : ServerPath} (subdir : WString) :
      Reachable start path → Reachable start (path.changePath subdir).1
  | makeParent {path : ServerPath} :
      Reachable start path → Reachable start path.makeParent
  | getCommonParent {path op : ServerPath} :
      Reachable start path → Reachable start op →
      Reachable start (path.getCommonParent op)

/-- Every path that can be made is well formed. -/
theorem Reachable.wellFormed
    {start : ServerType} (hreach : Reachable start path) :
    path.WellFormed := by
  induction hreach with
  | empty => exact blank_wellFormed start
  | setPath newPath _ ih => exact ih.setPath newPath
  | changePath subdir _ ih => exact ih.changePath subdir
  | makeParent _ ih => exact ih.makeParent
  | getCommonParent _ _ ihpath ihop => exact ihpath.getCommonParent ihop

end ServerPath

open ServerPath

/-- A path that is not empty is read back from its printed form, on a fresh
path of its type. -/
theorem printed_path_reads_back
    {start : ServerType} {path : ServerPath}
    (hreach : Reachable start path) (hpath : path.empty = false)
    (htype : path.type ≠ .default) :
    (blank path.type).setPath path.getPath = (path, true) := by
  obtain ⟨data, type⟩ := path
  cases data with
  | none => cases hpath
  | some data =>
      exact setPath_getPath htype (hreach.wellFormed data rfl)

/-- A VMS directory whose name has a dot in it. -/
theorem printed_path_reads_back_escaped :
    (blank .vms).setPath "D:[A^.B.C]".toList =
      (⟨some ⟨["A.B".toList, "C".toList], some "D:".toList⟩, .vms⟩, true) := by
  have hset : ((blank .vms).setPath "D:[A^.B.C]".toList).1 =
      ⟨some ⟨["A.B".toList, "C".toList], some "D:".toList⟩, .vms⟩ := by
    decide
  have hreach := Reachable.setPath "D:[A^.B.C]".toList
    (@Reachable.empty .vms)
  rw [hset] at hreach
  exact printed_path_reads_back hreach rfl (by decide)

end TabFtp
