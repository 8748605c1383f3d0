import TabFtp.DelimitedText
import TabFtp.ServerPathOrder
import Mathlib.Data.List.ReduceOption

/-!
# Paths in the Site Manager

The path of a site has its folders between slashes, in which slashes and
backslashes are escaped by a backslash.  The loop that undoes this keeps one
flag, which a character that needs no escape does not reset.
-/

namespace TabFtp

open DelimitedText (fields fieldsFrom)

namespace SitePath

/-- The variables of the loop of `UnescapeSitePath`. -/
structure Unescaping where
  name : WString
  lastBackslash : Bool
  result : List WString

namespace Unescaping

def start : Unescaping :=
  { name := [], lastBackslash := false, result := [] }

/-- The segments if the name is complete. -/
def segments (state : Unescaping) : List WString :=
  if state.name.isEmpty then state.result else state.result ++ [state.name]

/-- One round of the loop. -/
def step (state : Unescaping) (c : Char) : Unescaping :=
  if c = '\\' then
    if state.lastBackslash then
      { state with name := state.name ++ ['\\'], lastBackslash := false }
    else { state with lastBackslash := true }
  else if c = '/' then
    if state.lastBackslash then
      { state with name := state.name ++ ['/'], lastBackslash := false }
    else { state with name := [], result := state.segments }
  else { state with name := state.name ++ [c] }

def finish (state : Unescaping) : Option (List WString) :=
  if state.lastBackslash then none
  else if state.segments.isEmpty then none
  else some state.segments

end Unescaping

open Unescaping (start step)

def unescapeSitePath (path : WString) : Option (List WString) :=
  ((WString.cString path).foldl step start).finish

def escapeSegment (segment : WString) : WString :=
  (segment.flatMap fun c => if c = '\\' then ['\\', '\\'] else [c]).flatMap
    fun c => if c = '/' then ['\\', '/'] else [c]

def buildPath (root : Char) (segments : List WString) : WString :=
  root :: segments.flatMap fun segment => '/' :: escapeSegment segment

/-! ## What the path means -/

/-- The characters of a path, in which a slash that is not escaped is
`none`.  A backslash escapes the character behind it. -/
def readEscapes : WString → Option (List (Option Char))
  | [] => some []
  | '\\' :: c :: path =>
      (readEscapes path).map (some c :: ·)
  | ['\\'] => none
  | '/' :: path =>
      (readEscapes path).map (none :: ·)
  | c :: path =>
      (readEscapes path).map (some c :: ·)

/-- The segments between the slashes that are not escaped. -/
def sitePathSegments (path : WString) : Option (List WString) :=
  match readEscapes path with
  | none => none
  | some marks =>
      let segments := (fields Option.isNone marks).map List.reduceOption
      if segments.isEmpty then none else some segments

/-- Behind a backslash that is not escaped there are only slashes and
backslashes. -/
def escapesOnly : Bool → WString → Bool
  | _, [] => true
  | false, c :: path => escapesOnly (c == '\\') path
  | true, c :: path => (c == '\\' || c == '/') && escapesOnly false path

def backslashesBehindSlash (path : WString) : ℕ :=
  (path.reverse.takeWhile (· ≠ '/')).count '\\'

def trailingBackslashes (path : WString) : ℕ :=
  (path.reverse.takeWhile (· = '\\')).length

namespace Unescaping

def resettingStep (state : Unescaping) (c : Char) : Unescaping :=
  if c = '\\' ∨ c = '/' then state.step c
  else { state.step c with lastBackslash := false }

variable {state later : Unescaping} {c : Char} {path : WString}

theorem step_backslash (hflag : state.lastBackslash = false) :
    state.step '\\' = { state with lastBackslash := true } := by
  simp [step, hflag]

theorem step_escapedBackslash (hflag : state.lastBackslash = true) :
    state.step '\\' =
      { state with name := state.name ++ ['\\'], lastBackslash := false } := by
  simp [step, hflag]

theorem step_slash (hflag : state.lastBackslash = false) :
    state.step '/' = { state with name := [], result := state.segments } := by
  simp [step, hflag]

theorem step_escapedSlash (hflag : state.lastBackslash = true) :
    state.step '/' =
      { state with name := state.name ++ ['/'], lastBackslash := false } := by
  simp [step, hflag]

theorem step_other (hbackslash : c ≠ '\\') (hslash : c ≠ '/') :
    state.step c = { state with name := state.name ++ [c] } := by
  simp [step, hbackslash, hslash]

theorem resettingStep_other (hbackslash : c ≠ '\\') (hslash : c ≠ '/') :
    state.resettingStep c =
      { state with name := state.name ++ [c], lastBackslash := false } := by
  simp [resettingStep, step, hbackslash, hslash]

@[simp] theorem resettingStep_backslash (state : Unescaping) :
    state.resettingStep '\\' = state.step '\\' := by
  simp [resettingStep]

@[simp] theorem resettingStep_slash (state : Unescaping) :
    state.resettingStep '/' = state.step '/' := by
  simp [resettingStep]

theorem segments_of_nonempty (hname : state.name ≠ []) :
    state.segments = state.result ++ [state.name] := by
  simp [segments, hname]

/-! ## The segments while the loop goes on -/

def Moves (state later : Unescaping) : Prop :=
  (later.result = state.result ∧ state.name <+: later.name) ∨
    (later.result = state.segments ∧ later.name = [])

theorem step_moves (state : Unescaping) (c : Char) :
    Moves state (state.step c) := by
  unfold step
  split
  · split
    · exact .inl ⟨rfl, List.prefix_append _ _⟩
    · exact .inl ⟨rfl, List.prefix_refl _⟩
  · split
    · split
      · exact .inl ⟨rfl, List.prefix_append _ _⟩
      · exact .inr ⟨rfl, rfl⟩
    · exact .inl ⟨rfl, List.prefix_append _ _⟩

theorem resettingStep_moves (state : Unescaping) (c : Char) :
    Moves state (state.resettingStep c) := by
  unfold resettingStep
  split
  · exact step_moves state c
  · exact step_moves state c

section Loops

variable {next : Unescaping → Char → Unescaping}
  (hmoves : ∀ state c, Moves state (next state c))
include hmoves

/-- Segments that are in the result stay there. -/
theorem result_prefix_segments (path : WString) (state : Unescaping) :
    state.result <+: (path.foldl next state).segments := by
  have hown : ∀ state : Unescaping, state.result <+: state.segments := by
    intro state
    unfold segments
    split
    · exact List.prefix_refl _
    · exact List.prefix_append _ _
  induction path generalizing state with
  | nil => exact hown state
  | cons c path ih =>
      have hlater := ih (next state c)
      rcases hmoves state c with ⟨hresult, -⟩ | ⟨hresult, -⟩
      · rwa [hresult] at hlater
      · rw [hresult] at hlater
        exact (hown state).trans hlater

/-- The segment that has been begun can only be continued. -/
theorem exists_segment (path : WString) (hname : state.name ≠ []) :
    ∃ segment more,
      (path.foldl next state).segments = state.result ++ segment :: more ∧
        state.name <+: segment := by
  induction path generalizing state with
  | nil =>
      exact ⟨state.name, [], segments_of_nonempty hname, List.prefix_refl _⟩
  | cons c path ih =>
      rcases hmoves state c with ⟨hresult, hgrown⟩ | ⟨hresult, -⟩
      · have hlater : (next state c).name ≠ [] := by
          intro hnil
          rw [hnil, List.prefix_nil] at hgrown
          exact hname hgrown
        obtain ⟨segment, more, hsegments, hprefixed⟩ := ih hlater
        rw [hresult] at hsegments
        exact ⟨segment, more, hsegments, hgrown.trans hprefixed⟩
      · obtain ⟨more, hmore⟩ :=
          result_prefix_segments hmoves path (next state c)
        rw [hresult, segments_of_nonempty hname, List.append_assoc] at hmore
        exact ⟨state.name, more, hmore.symm, List.prefix_refl _⟩

end Loops

/-! ## Behind an escape that is not needed -/

/-- The flags differ, and a second backslash is in one of the names only. -/
structure Opposite (state resetting : Unescaping) : Prop where
  result : state.result = resetting.result
  named : resetting.name ≠ []
  flags : (state.lastBackslash = true ∧ resetting.lastBackslash = false ∧
      state.name = resetting.name) ∨
    (state.lastBackslash = false ∧ resetting.lastBackslash = true ∧
      state.name = resetting.name ++ ['\\'])

variable {resetting : Unescaping}

theorem Opposite.flags_ne (hopposite : Opposite state resetting) :
    state.lastBackslash ≠ resetting.lastBackslash := by
  rcases hopposite.flags with ⟨hon, hoff, -⟩ | ⟨hoff, hon, -⟩
  · rw [hon, hoff]
    decide
  · rw [hon, hoff]
    decide

theorem Opposite.backslash (hopposite : Opposite state resetting) :
    Opposite (state.step '\\') (resetting.resettingStep '\\') := by
  rw [resettingStep_backslash]
  rcases hopposite.flags with ⟨hon, hoff, hname⟩ | ⟨hoff, hon, hname⟩
  · rw [step_escapedBackslash hon, step_backslash hoff]
    refine ⟨hopposite.result, hopposite.named, .inr ⟨rfl, rfl, ?_⟩⟩
    exact congrArg (· ++ ['\\']) hname
  · rw [step_backslash hoff, step_escapedBackslash hon]
    refine ⟨hopposite.result, ?_, .inl ⟨rfl, rfl, hname⟩⟩
    simp

/-- A slash ends the segment in one of the loops and belongs to it in the
other. -/
theorem Opposite.slash (hopposite : Opposite state resetting)
    (path : WString) :
    (path.foldl step (state.step '/')).segments ≠
      (path.foldl resettingStep (resetting.resettingStep '/')).segments := by
  intro hsame
  rw [resettingStep_slash] at hsame
  rcases hopposite.flags with ⟨hon, hoff, hname⟩ | ⟨hoff, hon, hname⟩
  · rw [step_escapedSlash hon, step_slash hoff] at hsame
    let longer : Unescaping :=
      { state with name := state.name ++ ['/'], lastBackslash := false }
    have hlonger : longer.name ≠ [] := by simp [longer]
    obtain ⟨segment, more, hsegments, hlong⟩ :=
      exists_segment step_moves path hlonger
    obtain ⟨rest, hrest⟩ := result_prefix_segments resettingStep_moves path
      { resetting with name := [], result := resetting.segments }
    rw [segments_of_nonempty hopposite.named] at hrest hsame
    rw [← hsame, hsegments, hopposite.result, List.append_assoc,
      List.append_cancel_left_eq] at hrest
    have hsegment : resetting.name = segment := (List.cons.inj hrest).1
    have hlength := hlong.length_le
    rw [← hsegment] at hlength
    simp [longer, hname] at hlength
  · rw [step_slash hoff, step_escapedSlash hon] at hsame
    have hnamed : state.name ≠ [] := by
      rw [hname]
      simp
    let longer : Unescaping :=
      { resetting with name := resetting.name ++ ['/'], lastBackslash := false }
    have hlonger : longer.name ≠ [] := by simp [longer]
    obtain ⟨segment, more, hsegments, hlong⟩ :=
      exists_segment resettingStep_moves path hlonger
    obtain ⟨rest, hrest⟩ := result_prefix_segments step_moves path
      { state with name := [], result := state.segments }
    rw [segments_of_nonempty hnamed] at hrest hsame
    rw [hsame, hsegments, hopposite.result, List.append_assoc,
      List.append_cancel_left_eq] at hrest
    have hsegment : state.name = segment := (List.cons.inj hrest).1
    rw [← hsegment, hname] at hlong
    have hchars : ['/'] <+: ['\\'] := (List.prefix_append_right_inj _).mp hlong
    revert hchars
    decide

/-- The backslash that only one of the names has stays there. -/
theorem Opposite.other (hopposite : Opposite state resetting)
    (hbackslash : c ≠ '\\') (hslash : c ≠ '/') :
    Opposite (state.step c) (resetting.resettingStep c) ∨
      ∀ path : WString, (path.foldl step (state.step c)).segments ≠
        (path.foldl resettingStep (resetting.resettingStep c)).segments := by
  rw [step_other hbackslash hslash, resettingStep_other hbackslash hslash]
  rcases hopposite.flags with ⟨hon, hoff, hname⟩ | ⟨hoff, hon, hname⟩
  · left
    refine ⟨hopposite.result, by simp, .inl ⟨hon, rfl, ?_⟩⟩
    exact congrArg (· ++ [c]) hname
  · right
    intro path hsame
    let longer : Unescaping := { state with name := state.name ++ [c] }
    have hlonger : longer.name ≠ [] := by simp [longer]
    obtain ⟨left, more, hleft, hlong⟩ :=
      exists_segment step_moves path hlonger
    let other : Unescaping :=
      { resetting with name := resetting.name ++ [c], lastBackslash := false }
    have hnamed : other.name ≠ [] := by simp [other]
    obtain ⟨right, rest, hright, hother⟩ :=
      exists_segment resettingStep_moves path hnamed
    rw [hleft, hright, hopposite.result, List.append_cancel_left_eq] at hsame
    have hsegment : left = right := (List.cons.inj hsame).1
    rw [← hsegment] at hother
    have hlong' : resetting.name ++ ['\\', c] <+: left := by
      simpa [longer, hname] using hlong
    have hshorter : resetting.name ++ [c] <+: resetting.name ++ ['\\', c] :=
      List.prefix_of_prefix_length_le hother hlong' (by simp)
    have hchars : [c] <+: ['\\', c] :=
      (List.prefix_append_right_inj _).mp hshorter
    rw [List.cons_prefix_cons] at hchars
    exact hbackslash hchars.1

theorem Opposite.segments_ne (hopposite : Opposite state resetting)
    (hflags : (path.foldl step state).lastBackslash =
      (path.foldl resettingStep resetting).lastBackslash) :
    (path.foldl step state).segments ≠
      (path.foldl resettingStep resetting).segments := by
  induction path generalizing state resetting with
  | nil => exact absurd hflags hopposite.flags_ne
  | cons c path ih =>
      by_cases hbackslash : c = '\\'
      · subst hbackslash
        exact ih hopposite.backslash hflags
      by_cases hslash : c = '/'
      · subst hslash
        exact hopposite.slash path
      rcases hopposite.other hbackslash hslash with hstill | hapart
      · exact ih hstill hflags
      · exact hapart path

/-- Up to an escape that is not needed both loops do the same. -/
theorem foldl_resettingStep
    (honly : escapesOnly state.lastBackslash path = true) :
    path.foldl resettingStep state = path.foldl step state := by
  induction path generalizing state with
  | nil => rfl
  | cons c path ih =>
      have hsame : state.resettingStep c = state.step c ∧
          escapesOnly (state.step c).lastBackslash path = true := by
        cases hflag : state.lastBackslash with
        | false =>
            rw [hflag, escapesOnly] at honly
            by_cases hbackslash : c = '\\'
            · subst hbackslash
              rw [step_backslash hflag]
              exact ⟨by rw [resettingStep_backslash, step_backslash hflag],
                honly⟩
            by_cases hslash : c = '/'
            · subst hslash
              rw [resettingStep_slash, step_slash hflag]
              exact ⟨rfl, by simpa [hflag] using honly⟩
            have hrest : escapesOnly false path = true := by
              rwa [beq_false_of_ne hbackslash] at honly
            rw [step_other hbackslash hslash,
              resettingStep_other hbackslash hslash, hflag]
            exact ⟨rfl, hrest⟩
        | true =>
            rw [hflag, escapesOnly, Bool.and_eq_true, Bool.or_eq_true,
              beq_iff_eq, beq_iff_eq] at honly
            rcases honly with ⟨rfl | rfl, hrest⟩
            · rw [resettingStep_backslash, step_escapedBackslash hflag]
              exact ⟨rfl, hrest⟩
            · rw [resettingStep_slash, step_escapedSlash hflag]
              exact ⟨rfl, hrest⟩
      rw [List.foldl_cons, List.foldl_cons, hsame.1]
      exact ih hsame.2

/-- At an escape that is not needed they part. -/
theorem exists_opposite
    (hmore : escapesOnly state.lastBackslash path = false) :
    ∃ (parted resetting : Unescaping) (rest : WString),
      Opposite parted resetting ∧
      path.foldl step state = rest.foldl step parted ∧
      path.foldl resettingStep state = rest.foldl resettingStep resetting := by
  induction path generalizing state with
  | nil => exact absurd hmore (by simp [escapesOnly])
  | cons c path ih =>
      cases hflag : state.lastBackslash with
      | false =>
          rw [hflag, escapesOnly] at hmore
          have hfirst : escapesOnly state.lastBackslash [c] = true := by
            simp [escapesOnly, hflag]
          have hsame : state.resettingStep c = state.step c :=
            foldl_resettingStep hfirst
          have hnext : (state.step c).lastBackslash = (c == '\\') := by
            by_cases hbackslash : c = '\\'
            · subst hbackslash
              rw [step_backslash hflag]
              rfl
            by_cases hslash : c = '/'
            · subst hslash
              rw [step_slash hflag]
              exact hflag
            rw [step_other hbackslash hslash]
            simp [hflag, hbackslash]
          rw [← hnext] at hmore
          obtain ⟨parted, resetting, rest, hopposite, hstep, hreset⟩ :=
            ih hmore
          refine ⟨parted, resetting, rest, hopposite, hstep, ?_⟩
          rw [List.foldl_cons, hsame]
          exact hreset
      | true =>
          rw [hflag, escapesOnly] at hmore
          by_cases hbackslash : c = '\\'
          · subst hbackslash
            have hnext : (state.step '\\').lastBackslash = false := by
              rw [step_escapedBackslash hflag]
            obtain ⟨parted, resetting, rest, hopposite, hstep, hreset⟩ :=
              @ih (state.step '\\') (by simpa [hnext] using hmore)
            refine ⟨parted, resetting, rest, hopposite, hstep, ?_⟩
            rw [List.foldl_cons, resettingStep_backslash]
            exact hreset
          by_cases hslash : c = '/'
          · subst hslash
            have hnext : (state.step '/').lastBackslash = false := by
              rw [step_escapedSlash hflag]
            obtain ⟨parted, resetting, rest, hopposite, hstep, hreset⟩ :=
              @ih (state.step '/') (by simpa [hnext] using hmore)
            refine ⟨parted, resetting, rest, hopposite, hstep, ?_⟩
            rw [List.foldl_cons, resettingStep_slash]
            exact hreset
          refine ⟨state.step c, state.resettingStep c, path, ?_, rfl, rfl⟩
          rw [step_other hbackslash hslash,
            resettingStep_other hbackslash hslash]
          exact ⟨rfl, by simp, .inl ⟨hflag, rfl, rfl⟩⟩

/-! ## The flags at the end -/

theorem foldl_step_lastBackslash (path : WString) :
    (path.foldl step start).lastBackslash =
      decide (backslashesBehindSlash path % 2 = 1) := by
  induction path using List.reverseRecOn with
  | nil => rfl
  | append_singleton front c ih =>
      rw [List.foldl_append, List.foldl_cons, List.foldl_nil]
      by_cases hbackslash : c = '\\'
      · subst hbackslash
        have hcount : backslashesBehindSlash (front ++ ['\\']) =
            backslashesBehindSlash front + 1 := by
          simp [backslashesBehindSlash]
        rw [hcount]
        cases hflag : (front.foldl step start).lastBackslash with
        | true =>
            rw [step_escapedBackslash hflag]
            rw [hflag, eq_comm, decide_eq_true_iff] at ih
            exact (decide_eq_false (by omega)).symm
        | false =>
            rw [step_backslash hflag]
            rw [hflag, eq_comm, decide_eq_false_iff_not] at ih
            exact (decide_eq_true (by omega)).symm
      by_cases hslash : c = '/'
      · subst hslash
        have hcount : backslashesBehindSlash (front ++ ['/']) = 0 := by
          simp [backslashesBehindSlash]
        rw [hcount]
        cases hflag : (front.foldl step start).lastBackslash with
        | true =>
            rw [step_escapedSlash hflag]
            rfl
        | false =>
            rw [step_slash hflag]
            exact hflag
      have hcount : backslashesBehindSlash (front ++ [c]) =
          backslashesBehindSlash front := by
        simp [backslashesBehindSlash, hslash, hbackslash]
      rw [hcount, ← ih, step_other hbackslash hslash]

theorem foldl_resettingStep_lastBackslash (path : WString) :
    (path.foldl resettingStep start).lastBackslash =
      decide (trailingBackslashes path % 2 = 1) := by
  induction path using List.reverseRecOn with
  | nil => rfl
  | append_singleton front c ih =>
      rw [List.foldl_append, List.foldl_cons, List.foldl_nil]
      by_cases hbackslash : c = '\\'
      · subst hbackslash
        have hcount : trailingBackslashes (front ++ ['\\']) =
            trailingBackslashes front + 1 := by
          simp [trailingBackslashes]
        rw [hcount, resettingStep_backslash]
        cases hflag : (front.foldl resettingStep start).lastBackslash with
        | true =>
            rw [step_escapedBackslash hflag]
            rw [hflag, eq_comm, decide_eq_true_iff] at ih
            exact (decide_eq_false (by omega)).symm
        | false =>
            rw [step_backslash hflag]
            rw [hflag, eq_comm, decide_eq_false_iff_not] at ih
            exact (decide_eq_true (by omega)).symm
      have hcount : trailingBackslashes (front ++ [c]) = 0 := by
        simp [trailingBackslashes, hbackslash]
      rw [hcount]
      by_cases hslash : c = '/'
      · subst hslash
        rw [resettingStep_slash]
        cases hflag : (front.foldl resettingStep start).lastBackslash with
        | true =>
            rw [step_escapedSlash hflag]
            rfl
        | false =>
            rw [step_slash hflag]
            exact hflag
      rw [resettingStep_other hbackslash hslash]
      rfl

/-! ## The loop that resets the flag reads the path -/

def completes (state : Unescaping) (marks : List (Option Char)) :
    List WString :=
  state.result ++
    (fieldsFrom Option.isNone (state.name.map some) marks).map
      List.reduceOption

theorem completes_nil (state : Unescaping) :
    state.completes [] = state.segments := by
  unfold completes fieldsFrom segments
  cases hname : state.name with
  | nil => simp
  | cons c name => simp [List.reduceOption]

theorem completes_some (state : Unescaping) (c : Char) (flag : Bool)
    (marks : List (Option Char)) :
    ({ state with name := state.name ++ [c],
                  lastBackslash := flag } : Unescaping).completes marks =
      state.completes (some c :: marks) := by
  simp [completes, fieldsFrom]

theorem completes_none (state : Unescaping) (marks : List (Option Char)) :
    ({ state with name := [],
                  result := state.segments } : Unescaping).completes marks =
      state.completes (none :: marks) := by
  unfold completes segments
  rw [fieldsFrom]
  cases hname : state.name with
  | nil => simp
  | cons c name => simp [List.reduceOption]

/-- What the resetting loop ends with. -/
theorem foldl_resettingStep_reads (path : WString) (state : Unescaping)
    (hflag : state.lastBackslash = false) :
    match readEscapes path with
    | none => (path.foldl resettingStep state).lastBackslash = true
    | some marks =>
        (path.foldl resettingStep state).lastBackslash = false ∧
          (path.foldl resettingStep state).segments =
            state.completes marks := by
  fun_induction readEscapes path generalizing state with
  | case1 => exact ⟨hflag, (completes_nil state).symm⟩
  | case2 c path ih =>
      have hescaped : ('\\' :: c :: path).foldl resettingStep state =
          path.foldl resettingStep
            { state with name := state.name ++ [c], lastBackslash := false } := by
        rw [List.foldl_cons, List.foldl_cons, resettingStep_backslash,
          step_backslash hflag]
        by_cases hbackslash : c = '\\'
        · subst hbackslash
          rw [resettingStep_backslash, step_escapedBackslash rfl]
        by_cases hslash : c = '/'
        · subst hslash
          rw [resettingStep_slash, step_escapedSlash rfl]
        rw [resettingStep_other hbackslash hslash]
      have hrest := ih
        { state with name := state.name ++ [c], lastBackslash := false } rfl
      rw [hescaped]
      cases hmarks : readEscapes path with
      | none =>
          rw [hmarks] at hrest
          exact hrest
      | some marks =>
          rw [hmarks] at hrest
          exact ⟨hrest.1, hrest.2.trans (completes_some state c false marks)⟩
  | case3 =>
      rw [List.foldl_cons, resettingStep_backslash, step_backslash hflag]
      rfl
  | case4 path ih =>
      have hrest := ih { state with name := [], result := state.segments } hflag
      rw [List.foldl_cons, resettingStep_slash, step_slash hflag]
      cases hmarks : readEscapes path with
      | none =>
          rw [hmarks] at hrest
          exact hrest
      | some marks =>
          rw [hmarks] at hrest
          exact ⟨hrest.1, hrest.2.trans (completes_none state marks)⟩
  | case5 c path hpair hlone hslash ih =>
      have hbackslash : c ≠ '\\' := by
        rintro rfl
        cases path with
        | nil => exact hlone rfl rfl
        | cons next path => exact hpair next path rfl rfl
      have hother : c ≠ '/' := by
        rintro rfl
        exact hslash rfl
      have hrest := ih
        { state with name := state.name ++ [c], lastBackslash := false } rfl
      rw [List.foldl_cons, resettingStep_other hbackslash hother]
      cases hmarks : readEscapes path with
      | none =>
          rw [hmarks] at hrest
          exact hrest
      | some marks =>
          rw [hmarks] at hrest
          exact ⟨hrest.1, hrest.2.trans (completes_some state c false marks)⟩

theorem finish_foldl_resettingStep (path : WString) :
    (path.foldl resettingStep start).finish = sitePathSegments path := by
  have hreads := foldl_resettingStep_reads path start rfl
  unfold finish sitePathSegments
  cases hmarks : readEscapes path with
  | none =>
      rw [hmarks] at hreads
      rw [if_pos hreads]
  | some marks =>
      rw [hmarks] at hreads
      rw [if_neg (by simp [hreads.1]), hreads.2]
      rfl

/-! ## Both loops at the end of the path -/

theorem finish_some (hflag : state.lastBackslash = false)
    (hsegments : state.segments ≠ []) :
    state.finish = some state.segments := by
  simp [finish, hflag, hsegments]

theorem Opposite.segments_nonempty (hopposite : Opposite state resetting)
    (path : WString) :
    (path.foldl step state).segments ≠ [] ∧
      (path.foldl resettingStep resetting).segments ≠ [] := by
  have hnamed : state.name ≠ [] := by
    rcases hopposite.flags with ⟨-, -, hname⟩ | ⟨-, -, hname⟩
    · rw [hname]
      exact hopposite.named
    · rw [hname]
      simp
  obtain ⟨segment, more, hsegments, -⟩ :=
    exists_segment step_moves path hnamed
  obtain ⟨other, rest, hothers, -⟩ :=
    exists_segment resettingStep_moves path hopposite.named
  rw [hsegments, hothers]
  simp

/-- The loops end alike behind an escape that is not needed only if both of
them fail. -/
theorem Opposite.finish_iff (hopposite : Opposite state resetting)
    (path : WString) :
    (path.foldl step state).finish =
        (path.foldl resettingStep resetting).finish ↔
      (path.foldl step state).lastBackslash = true ∧
        (path.foldl resettingStep resetting).lastBackslash = true := by
  obtain ⟨hleft, hright⟩ := hopposite.segments_nonempty path
  cases hstate : (path.foldl step state).lastBackslash with
  | true =>
      cases hresetting : (path.foldl resettingStep resetting).lastBackslash with
      | true => simp [finish, hstate, hresetting]
      | false =>
          rw [finish_some hresetting hright]
          simp [finish, hstate]
  | false =>
      cases hresetting : (path.foldl resettingStep resetting).lastBackslash with
      | true =>
          rw [finish_some hstate hleft]
          simp [finish, hresetting]
      | false =>
          rw [finish_some hstate hleft, finish_some hresetting hright,
            Option.some.injEq]
          have hapart := hopposite.segments_ne (hstate.trans hresetting.symm)
          simpa using hapart

theorem foldl_escapeSegment (segment : WString) (state : Unescaping)
    (hflag : state.lastBackslash = false) :
    (escapeSegment segment).foldl step state =
      { state with name := state.name ++ segment } := by
  induction segment generalizing state with
  | nil => simp [escapeSegment]
  | cons c segment ih =>
      have hescape : escapeSegment (c :: segment) =
          escapeSegment [c] ++ escapeSegment segment := by
        simp [escapeSegment]
      have hfirst : (escapeSegment [c]).foldl step state =
          { state with name := state.name ++ [c] } := by
        by_cases hbackslash : c = '\\'
        · subst hbackslash
          have hpair : escapeSegment ['\\'] = ['\\', '\\'] := by decide
          rw [hpair, List.foldl_cons, List.foldl_cons, step_backslash hflag,
            step_escapedBackslash rfl, List.foldl_nil, ← hflag]
        by_cases hslash : c = '/'
        · subst hslash
          have hpair : escapeSegment ['/'] = ['\\', '/'] := by decide
          rw [hpair, List.foldl_cons, List.foldl_cons, step_backslash hflag,
            step_escapedSlash rfl, List.foldl_nil, ← hflag]
        have hplain : escapeSegment [c] = [c] := by
          simp [escapeSegment, hbackslash, hslash]
        rw [hplain, List.foldl_cons, step_other hbackslash hslash,
          List.foldl_nil]
      have hrest := ih { state with name := state.name ++ [c] } hflag
      rw [hescape, List.foldl_append, hfirst, hrest]
      simp

/-- The path that was built fills the result up to its last segment. -/
theorem foldl_buildPath (segments : List WString) (state : Unescaping)
    (hflag : state.lastBackslash = false)
    (hsegments : ∀ segment ∈ segments, segment ≠ []) :
    let built := (segments.flatMap fun segment =>
      '/' :: escapeSegment segment).foldl step state
    built.lastBackslash = false ∧
      built.segments = state.segments ++ segments := by
  induction segments generalizing state with
  | nil => exact ⟨hflag, (List.append_nil _).symm⟩
  | cons segment segments ih =>
      have hnamed : segment ≠ [] := hsegments segment List.mem_cons_self
      have hrest := ih
        { state with name := segment, result := state.segments } hflag
        (fun other hmem => hsegments other (List.mem_cons_of_mem _ hmem))
      rw [List.flatMap_cons, List.cons_append, List.foldl_cons,
        step_slash hflag, List.foldl_append, foldl_escapeSegment]
      · have hnext : ({ state with name := segment,
                                   result := state.segments } : Unescaping
            ).segments = state.segments ++ [segment] :=
          segments_of_nonempty hnamed
        rw [hnext] at hrest
        simpa using hrest
      · exact hflag

end Unescaping

open Unescaping

/-! ## Parsing -/

theorem cString_of_nulFree {text : WString} (hnul : '\x00' ∉ text) :
    WString.cString text = text := by
  unfold WString.cString
  rw [List.takeWhile_eq_self_iff]
  intro c hc
  exact decide_eq_true (ne_of_mem_of_not_mem hc hnul)

/-- The parser agrees with the syntax unless its flag is left set. -/
theorem unescapeSitePath_iff {path : WString} (hnul : '\x00' ∉ path) :
    unescapeSitePath path = sitePathSegments path ↔
      (escapesOnly false path = true ∨
        trailingBackslashes path % 2 = 1 ∧
          backslashesBehindSlash path % 2 = 1) := by
  unfold unescapeSitePath
  rw [cString_of_nulFree hnul, ← finish_foldl_resettingStep]
  cases honly : escapesOnly false path with
  | true =>
      rw [@foldl_resettingStep start path honly]
      simp
  | false =>
      obtain ⟨parted, resetting, rest, hopposite, hstep, hreset⟩ :=
        @exists_opposite start path honly
      have hiff := hopposite.finish_iff rest
      rw [← hstep, ← hreset, foldl_step_lastBackslash,
        foldl_resettingStep_lastBackslash, decide_eq_true_iff,
        decide_eq_true_iff] at hiff
      rw [hiff]
      simp [and_comm]

theorem not_mem_escapeSegment {segment : WString} (hnul : '\x00' ∉ segment) :
    '\x00' ∉ escapeSegment segment := by
  intro hmem
  simp only [escapeSegment, List.mem_flatMap] at hmem
  obtain ⟨d, ⟨c, hc, hd⟩, hzero⟩ := hmem
  have hchar : d = c ∨ d = '\\' := by
    split at hd
    · simp only [List.mem_cons, List.not_mem_nil, or_false] at hd
      rcases hd with rfl | rfl <;> exact .inr rfl
    · exact .inl (List.mem_singleton.mp hd)
  have hsame : d = '\x00' := by
    split at hzero
    · simp at hzero
    · exact (List.mem_singleton.mp hzero).symm
  rcases hchar with rfl | hbackslash
  · exact hnul (hsame ▸ hc)
  · rw [hsame] at hbackslash
    exact absurd hbackslash (by decide)

/-- A path that was built from segments gives them back. -/
theorem unescapeSitePath_buildPath (root : Char) {segments : List WString}
    (hany : segments ≠ []) (hsegments : ∀ segment ∈ segments, segment ≠ [])
    (hnul : ∀ segment ∈ segments, '\x00' ∉ segment) :
    unescapeSitePath (buildPath root segments).tail = some segments := by
  have hfree : '\x00' ∉ (buildPath root segments).tail := by
    intro hmem
    simp only [buildPath, List.tail_cons, List.mem_flatMap] at hmem
    obtain ⟨segment, hsegment, hmem⟩ := hmem
    rcases List.mem_cons.mp hmem with hslash | hinside
    · exact absurd hslash (by decide)
    · exact not_mem_escapeSegment (hnul segment hsegment) hinside
  obtain ⟨hflag, hbuilt⟩ := foldl_buildPath segments start rfl hsegments
  unfold unescapeSitePath
  rw [cString_of_nulFree hfree, buildPath, List.tail_cons,
    finish_some hflag]
  · rw [hbuilt]
    rfl
  · rw [hbuilt]
    simpa [Unescaping.segments, start] using hany

/-- The flag of `UnescapeSitePath` is still set behind a character that
follows a backslash and is neither a slash nor a backslash. -/
theorem site_path_parsed_iff (root : Char) (path : WString)
    (segments : List WString) (hnul : '\x00' ∉ path)
    (hfree : ∀ segment ∈ segments, '\x00' ∉ segment) :
    (unescapeSitePath path = sitePathSegments path ↔
        (escapesOnly false path = true ∨
          trailingBackslashes path % 2 = 1 ∧
            backslashesBehindSlash path % 2 = 1)) ∧
      (segments ≠ [] → (∀ segment ∈ segments, segment ≠ []) →
        unescapeSitePath (buildPath root segments).tail = some segments) :=
  ⟨unescapeSitePath_iff hnul, fun hany hsegments =>
    unescapeSitePath_buildPath root hany hsegments hfree⟩

/-- A folder whose name has a slash, with a site in it. -/
theorem site_path_parsed_folders :
    unescapeSitePath "a\\/b/site".toList = some ["a/b".toList, "site".toList] ∧
      unescapeSitePath "a\\/b/site".toList =
        sitePathSegments "a\\/b/site".toList ∧
      unescapeSitePath
          (buildPath '0' ["a/b".toList, "site".toList]).tail =
        some ["a/b".toList, "site".toList] := by
  have hparsed := site_path_parsed_iff '0' "a\\/b/site".toList
    ["a/b".toList, "site".toList] (by decide) (by decide)
  exact ⟨by decide, hparsed.1.mpr (.inl (by decide)),
    hparsed.2 (by decide) (by decide)⟩

/-- The slash is not escaped, yet the path is one segment. -/
theorem escaped_letter_joins_segments :
    unescapeSitePath "\\a/b".toList = some ["a/b".toList] ∧
      sitePathSegments "\\a/b".toList = some ["a".toList, "b".toList] ∧
      unescapeSitePath "\\a/b".toList ≠ sitePathSegments "\\a/b".toList := by
  have hcode : unescapeSitePath "\\a/b".toList = some ["a/b".toList] := by
    decide
  have hread : sitePathSegments "\\a/b".toList =
      some ["a".toList, "b".toList] := by
    decide
  refine ⟨hcode, hread, ?_⟩
  rw [hcode, hread]
  decide

end SitePath

end TabFtp
