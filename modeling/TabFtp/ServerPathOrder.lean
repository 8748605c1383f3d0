import TabFtp.OrderedSet
import TabFtp.ServerPathSyntax
import Mathlib.Data.Char
import Mathlib.Data.List.Lex
import Mathlib.Data.Prod.Lex
import Mathlib.Order.WithBot

/-!
# The order of server paths

`CServerPath::operator<` compares segments with `wcscmp`, which does not look
behind a NUL, whereas `operator==` compares the segments as they are.  Paths
that differ only behind a NUL are therefore neither before one another nor
equal.
-/

namespace TabFtp

/-- The text that a C function sees. -/
def WString.cString (text : WString) : WString :=
  text.takeWhile (· ≠ '\x00')

def wcscmp (left right : WString) : Ordering :=
  if WString.cString left < WString.cString right then .lt
  else if WString.cString right < WString.cString left then .gt
  else .eq

namespace ServerPath

/-- `fz::sparse_optional::operator<` -/
def prefixLess : Option WString → Option WString → Bool
  | _, none => false
  | none, some _ => true
  | some left, some right => decide (left < right)

/-- The loop over the segments in `operator<`. -/
def segmentsLess : List WString → List WString → Bool
  | [], [] => false
  | [], _ :: _ => true
  | _ :: _, [] => false
  | left :: lefts, right :: rights =>
      match wcscmp left right with
      | .lt => true
      | .gt => false
      | .eq => segmentsLess lefts rights

/-- `CServerPath::operator<` -/
def less (path op : ServerPath) : Bool :=
  match path.data, op.data with
  | none, none => false
  | none, some _ => true
  | some _, none => false
  | some ld, some rd =>
      if prefixLess ld.pathPrefix rd.pathPrefix then true
      else if prefixLess rd.pathPrefix ld.pathPrefix then false
      else if op.type.number < path.type.number then false
      else if path.type.number < op.type.number then true
      else segmentsLess ld.segments rd.segments

/-- The comparison of the segments in `equal_nocase`, which have the same
number. -/
def segmentsEqual (sameName : WString → WString → Bool) :
    List WString → List WString → Bool
  | left :: lefts, right :: rights =>
      sameName left right && segmentsEqual sameName lefts rights
  | _, _ => true

def equalNocase (sameName : WString → WString → Bool)
    (path op : ServerPath) : Bool :=
  match path.data, op.data with
  | none, none => true
  | some ld, some rd =>
      if path.type ≠ op.type then false
      else if ld.segments.length ≠ rd.segments.length then false
      else if !samePrefix sameName ld.pathPrefix rd.pathPrefix then false
      else segmentsEqual sameName ld.segments rd.segments
  | _, _ => false

/-! ## The key that `operator<` compares -/

abbrev DataKey :=
  WithBot WString ×ₗ ℕ ×ₗ List WString

def prefixKey : Option WString → WithBot WString
  | none => ⊥
  | some pathPrefix => pathPrefix

def dataKey (type : ServerType) (data : ServerPathData) : DataKey :=
  toLex (prefixKey data.pathPrefix,
    toLex (type.number, data.segments.map WString.cString))

def orderKey (path : ServerPath) : WithBot DataKey :=
  match path.data with
  | none => ⊥
  | some data => dataKey path.type data

theorem segmentsLess_iff (lefts rights : List WString) :
    segmentsLess lefts rights = true ↔
      lefts.map WString.cString < rights.map WString.cString := by
  induction lefts generalizing rights with
  | nil =>
      cases rights <;> simp [segmentsLess]
  | cons left lefts ih =>
      cases rights with
      | nil => simp [segmentsLess]
      | cons right rights =>
          rw [List.map_cons, List.map_cons, List.cons_lt_cons_iff, ← ih]
          rw [segmentsLess, wcscmp]
          rcases lt_trichotomy (WString.cString left)
            (WString.cString right) with hlt | heq | hgt
          · simp [hlt]
          · simp [heq]
          · have hnot : ¬ WString.cString left < WString.cString right :=
              hgt.asymm
            simp [hnot, hgt, hgt.ne']

theorem prefixLess_iff (left right : Option WString) :
    prefixLess left right = true ↔ prefixKey left < prefixKey right := by
  cases left with
  | none =>
      cases right with
      | none => exact iff_of_false Bool.false_ne_true (lt_irrefl _)
      | some right => exact iff_of_true rfl (WithBot.bot_lt_coe right)
  | some left =>
      cases right with
      | none => exact iff_of_false Bool.false_ne_true not_lt_bot
      | some right =>
          rw [prefixLess, decide_eq_true_eq]
          exact WithBot.coe_lt_coe.symm

theorem dataLess_iff
    (type opType : ServerType) (ld rd : ServerPathData) :
    less ⟨some ld, type⟩ ⟨some rd, opType⟩ = true ↔
      dataKey type ld < dataKey opType rd := by
  have hleft := prefixLess_iff ld.pathPrefix rd.pathPrefix
  have hright := prefixLess_iff rd.pathPrefix ld.pathPrefix
  have hsegments := segmentsLess_iff ld.segments rd.segments
  unfold dataKey less
  rw [Prod.Lex.toLex_lt_toLex, Prod.Lex.toLex_lt_toLex]
  simp only
  rcases lt_trichotomy (prefixKey ld.pathPrefix) (prefixKey rd.pathPrefix) with
    hlt | heq | hgt
  · rw [if_pos (hleft.mpr hlt)]
    exact iff_of_true rfl (Or.inl hlt)
  · rw [if_neg (by rw [hleft, heq]; exact lt_irrefl _),
      if_neg (by rw [hright, heq]; exact lt_irrefl _)]
    rcases lt_trichotomy type.number opType.number with hless | hsame | hmore
    · rw [if_neg hless.asymm, if_pos hless]
      exact iff_of_true rfl (Or.inr ⟨heq, Or.inl hless⟩)
    · rw [hsame, if_neg (lt_irrefl _), if_neg (lt_irrefl _), hsegments]
      simp [heq]
    · rw [if_pos hmore]
      simp [heq, hmore.asymm, hmore.ne']
  · rw [if_neg (by rw [hleft]; exact hgt.asymm), if_pos (hright.mpr hgt)]
    simp [hgt.asymm, hgt.ne']

theorem less_iff (path op : ServerPath) :
    path.less op = true ↔ path.orderKey < op.orderKey := by
  obtain ⟨left, type⟩ := path
  obtain ⟨right, opType⟩ := op
  cases left with
  | none =>
      cases right with
      | none => exact iff_of_false Bool.false_ne_true (lt_irrefl _)
      | some rd => exact iff_of_true rfl (WithBot.bot_lt_coe _)
  | some ld =>
      cases right with
      | none => exact iff_of_false Bool.false_ne_true not_lt_bot
      | some rd =>
          rw [dataLess_iff]
          exact WithBot.coe_lt_coe.symm

theorem less_strictWeak : OrderedSet.StrictWeak less where
  irrefl path := by
    have hnot : ¬ path.less path = true := by
      rw [less_iff]
      exact lt_irrefl _
    simpa using hnot
  trans := by
    intro first second third hleft hright
    rw [less_iff] at hleft hright ⊢
    exact hleft.trans hright
  separates := by
    intro first third second hlt
    rw [less_iff] at hlt
    rw [less_iff, less_iff]
    rcases lt_or_ge first.orderKey second.orderKey with hbefore | hnot
    · exact Or.inl hbefore
    · exact Or.inr (lt_of_le_of_lt hnot hlt)

end ServerPath

end TabFtp
