import Mathlib.Data.List.Basic

/-!
# Texts with delimiters

The fields of a text are its maximal runs without a delimiter.  Adjacent
delimiters enclose no field, so a text can have more delimiters than fields.
-/

namespace DelimitedText

universe u

variable {Symbol : Type u} (delimiter : Symbol → Bool)

/-- The fields of a text that goes on after the symbols `run`. -/
def fieldsFrom (run : List Symbol) : List Symbol → List (List Symbol)
  | [] => if run.isEmpty then [] else [run]
  | symbol :: text =>
      if delimiter symbol then
        if run.isEmpty then fieldsFrom [] text
        else run :: fieldsFrom [] text
      else fieldsFrom (run ++ [symbol]) text

def fields (text : List Symbol) : List (List Symbol) :=
  fieldsFrom delimiter [] text

def Free (text : List Symbol) : Prop :=
  ∀ symbol ∈ text, delimiter symbol = false

def join (between : Symbol) : List (List Symbol) → List Symbol
  | [] => []
  | [piece] => piece
  | piece :: next :: pieces => piece ++ between :: join between (next :: pieces)

variable {delimiter}

theorem fieldsFrom_nil (run : List Symbol) :
    fieldsFrom delimiter run [] = if run.isEmpty then [] else [run] := rfl

theorem fieldsFrom_cons (run : List Symbol) (symbol : Symbol)
    (text : List Symbol) :
    fieldsFrom delimiter run (symbol :: text) =
      if delimiter symbol then
        if run.isEmpty then fieldsFrom delimiter [] text
        else run :: fieldsFrom delimiter [] text
      else fieldsFrom delimiter (run ++ [symbol]) text := rfl

theorem join_cons_cons (between : Symbol) (piece next : List Symbol)
    (pieces : List (List Symbol)) :
    join between (piece :: next :: pieces) =
      piece ++ between :: join between (next :: pieces) := rfl

theorem fieldsFrom_append
    {run piece : List Symbol} (hfree : Free delimiter piece)
    (text : List Symbol) :
    fieldsFrom delimiter run (piece ++ text) =
      fieldsFrom delimiter (run ++ piece) text := by
  induction piece generalizing run with
  | nil => simp
  | cons symbol piece ih =>
      have hsymbol : delimiter symbol = false :=
        hfree symbol List.mem_cons_self
      have hrest : Free delimiter piece := by
        intro other hmem
        exact hfree other (List.mem_cons_of_mem _ hmem)
      rw [List.cons_append, fieldsFrom_cons, if_neg (by simp [hsymbol]),
        ih hrest]
      simp

@[simp] theorem fields_nil : fields delimiter [] = [] := rfl

theorem fields_cons_delimiter
    {symbol : Symbol} (hsymbol : delimiter symbol = true)
    (text : List Symbol) :
    fields delimiter (symbol :: text) = fields delimiter text := by
  simp [fields, fieldsFrom_cons, hsymbol]

theorem fields_append_delimiter
    {piece : List Symbol} {symbol : Symbol} (hfree : Free delimiter piece)
    (hpiece : piece ≠ []) (hsymbol : delimiter symbol = true)
    (text : List Symbol) :
    fields delimiter (piece ++ symbol :: text) =
      piece :: fields delimiter text := by
  unfold fields
  rw [fieldsFrom_append hfree, fieldsFrom_cons, if_pos hsymbol]
  simp [hpiece]

theorem fields_of_free
    {piece : List Symbol} (hfree : Free delimiter piece)
    (hpiece : piece ≠ []) : fields delimiter piece = [piece] := by
  unfold fields
  have hrun := @fieldsFrom_append _ _ [] _ hfree []
  rw [List.append_nil, List.nil_append] at hrun
  simp [hrun, fieldsFrom_nil, hpiece]

theorem fields_join
    {between : Symbol} (hbetween : delimiter between = true)
    {pieces : List (List Symbol)}
    (hpieces : ∀ piece ∈ pieces, piece ≠ [] ∧ Free delimiter piece) :
    fields delimiter (join between pieces) = pieces := by
  induction pieces with
  | nil => rfl
  | cons piece pieces ih =>
      obtain ⟨hpiece, hfree⟩ := hpieces piece List.mem_cons_self
      cases pieces with
      | nil => exact fields_of_free hfree hpiece
      | cons next pieces =>
          rw [join_cons_cons, fields_append_delimiter hfree hpiece hbetween,
            ih]
          intro other hmem
          exact hpieces other (List.mem_cons_of_mem _ hmem)

theorem fields_join_delimiter
    {between last : Symbol} (hbetween : delimiter between = true)
    (hlast : delimiter last = true) {pieces : List (List Symbol)}
    (hpieces : ∀ piece ∈ pieces, piece ≠ [] ∧ Free delimiter piece) :
    fields delimiter (join between pieces ++ [last]) = pieces := by
  induction pieces with
  | nil => exact fields_cons_delimiter hlast []
  | cons piece pieces ih =>
      obtain ⟨hpiece, hfree⟩ := hpieces piece List.mem_cons_self
      cases pieces with
      | nil =>
          exact (fields_append_delimiter hfree hpiece hlast []).trans rfl
      | cons next pieces =>
          rw [join_cons_cons, List.append_assoc, List.cons_append,
            fields_append_delimiter hfree hpiece hbetween, ih]
          intro other hmem
          exact hpieces other (List.mem_cons_of_mem _ hmem)

theorem join_cons
    (between : Symbol) (piece : List Symbol) (pieces : List (List Symbol)) :
    join between (piece :: pieces) =
      piece ++ pieces.flatMap fun next => between :: next := by
  induction pieces generalizing piece with
  | nil => exact (List.append_nil piece).symm
  | cons next pieces ih =>
      rw [join_cons_cons, ih, List.flatMap_cons, List.cons_append]

/-- A loop that appends the pieces and writes the delimiter before each but
the first one. -/
theorem foldl_join {Item : Type u} (between : Symbol)
    {write : Item → List Symbol} {items : List Item}
    (hitems : ∀ item ∈ items, write item ≠ []) :
    items.foldl
        (fun text item =>
          (if text.isEmpty then text else text ++ [between]) ++ write item) [] =
      join between (items.map write) := by
  have hrest : ∀ (items : List Item) (text : List Symbol), text ≠ [] →
      items.foldl
          (fun text item =>
            (if text.isEmpty then text else text ++ [between]) ++ write item)
          text =
        text ++ (items.map write).flatMap fun next => between :: next := by
    intro items
    induction items with
    | nil => exact fun text _ => (List.append_nil text).symm
    | cons item items ih =>
        intro text htext
        rw [List.foldl_cons, if_neg (by simpa using htext), ih _ (by simp)]
        simp
  cases items with
  | nil => rfl
  | cons item items =>
      have hitem := hitems item List.mem_cons_self
      rw [List.map_cons, join_cons, ← hrest items (write item) hitem]
      rfl

theorem join_concat_getLast
    (between : Symbol) (pieces : List (List Symbol)) {last : List Symbol}
    (hlast : last ≠ []) :
    (join between (pieces ++ [last])).getLast? = last.getLast? := by
  induction pieces with
  | nil => rfl
  | cons piece pieces ih =>
      have htail : pieces ++ [last] ≠ [] := by simp
      obtain ⟨next, rest, hnext⟩ := List.exists_cons_of_ne_nil htail
      have hjoin : join between (next :: rest) ≠ [] := by
        intro hnil
        rw [hnext, hnil, List.getLast?_nil] at ih
        exact hlast (List.getLast?_eq_none_iff.mp ih.symm)
      rw [List.cons_append, hnext, join_cons_cons, List.getLast?_append, ← ih,
        hnext]
      obtain ⟨first, text, htext⟩ := List.exists_cons_of_ne_nil hjoin
      simp [htext, List.getLast?_cons]

theorem fieldsFrom_good
    {run text : List Symbol} (hrun : Free delimiter run) :
    ∀ field ∈ fieldsFrom delimiter run text,
      field ≠ [] ∧ Free delimiter field := by
  induction text generalizing run with
  | nil =>
      intro field hmem
      cases run with
      | nil => simp [fieldsFrom_nil] at hmem
      | cons symbol run =>
          simp only [fieldsFrom_nil, List.isEmpty_cons, Bool.false_eq_true,
            if_false, List.mem_singleton] at hmem
          subst hmem
          exact ⟨List.cons_ne_nil _ _, hrun⟩
  | cons symbol text ih =>
      have hnone : Free delimiter ([] : List Symbol) := by
        intro other hmem
        cases hmem
      intro field hmem
      by_cases hsymbol : delimiter symbol = true
      · rw [fieldsFrom_cons, if_pos hsymbol] at hmem
        cases run with
        | nil => exact ih hnone field (by simpa using hmem)
        | cons first run =>
            simp only [List.isEmpty_cons, Bool.false_eq_true, if_false,
              List.mem_cons] at hmem
            rcases hmem with hfirst | hrest
            · rw [hfirst]
              exact ⟨List.cons_ne_nil _ _, hrun⟩
            · exact ih hnone field hrest
      · rw [fieldsFrom_cons, if_neg hsymbol] at hmem
        apply ih _ field hmem
        intro other hother
        rcases List.mem_append.mp hother with hold | hnew
        · exact hrun other hold
        · rw [List.mem_singleton] at hnew
          subst hnew
          simpa using hsymbol

theorem fields_good (text : List Symbol) :
    ∀ field ∈ fields delimiter text, field ≠ [] ∧ Free delimiter field := by
  apply fieldsFrom_good
  intro symbol hmem
  cases hmem

theorem fieldsFrom_last
    {run text : List Symbol} {last : Symbol}
    (hlast : delimiter last = false) :
    ∃ before field, fieldsFrom delimiter run (text ++ [last]) =
      before ++ [field ++ [last]] := by
  induction text generalizing run with
  | nil =>
      refine ⟨[], run, ?_⟩
      simp [fieldsFrom_nil, fieldsFrom_cons, hlast]
  | cons symbol text ih =>
      rw [List.cons_append, fieldsFrom_cons]
      split_ifs
      · exact ih
      · obtain ⟨before, field, hfields⟩ := @ih []
        exact ⟨run :: before, field, by rw [hfields]; rfl⟩
      · exact ih

theorem mem_splitOn [BEq Symbol] [LawfulBEq Symbol] {separator : Symbol}
    {text piece : List Symbol} (hmem : piece ∈ text.splitOn separator) :
    separator ∉ piece ∧ ∀ symbol ∈ piece, symbol ∈ text := by
  induction text generalizing piece with
  | nil =>
      rw [List.splitOn_nil, List.mem_singleton] at hmem
      rw [hmem]
      exact ⟨List.not_mem_nil, nofun⟩
  | cons symbol text ih =>
      rw [List.splitOn_cons_eq_if_modifyHead] at hmem
      by_cases hsymbol : symbol = separator
      · rw [if_pos (by simp [hsymbol])] at hmem
        rcases List.mem_cons.mp hmem with hempty | hrest
        · rw [hempty]
          exact ⟨List.not_mem_nil, nofun⟩
        · exact ⟨(ih hrest).1, fun other hother =>
            List.mem_cons_of_mem _ ((ih hrest).2 other hother)⟩
      · rw [if_neg (by simp [hsymbol])] at hmem
        cases hsplit : text.splitOn separator with
        | nil => exact absurd hsplit (List.splitOn_ne_nil _ _)
        | cons first rest =>
            rw [hsplit, List.modifyHead_cons] at hmem
            rw [hsplit] at ih
            rcases List.mem_cons.mp hmem with hfirst | hrest
            · obtain ⟨hfree, hin⟩ := ih List.mem_cons_self
              rw [hfirst]
              constructor
              · simp only [List.mem_cons, not_or]
                exact ⟨fun h => hsymbol h.symm, hfree⟩
              · intro other hother
                rcases List.mem_cons.mp hother with heq | hold
                · exact heq ▸ List.mem_cons_self
                · exact List.mem_cons_of_mem _ (hin other hold)
            · obtain ⟨hfree, hin⟩ := ih (List.mem_cons_of_mem _ hrest)
              exact ⟨hfree, fun other hother =>
                List.mem_cons_of_mem _ (hin other hother)⟩

end DelimitedText
