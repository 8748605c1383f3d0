import TabFtp.DelimitedText
import TabFtp.OrderedMap
import TabFtp.ServerPathComparisons

/-!
# Commands with quoted arguments

A command and its arguments are written on one line, with quotes around an
argument that has a blank or a quote.  The reader separates the parts at line
ends too, which the writer does not quote, and the lines of the associations
are cut apart before any quote is looked at.
-/

namespace TabFtp

namespace CommandQuoting

open DelimitedText (Free fields join)
open OrderedSet (Ordered)

/-! ## The writer and the reader -/

/-- The characters that `QuoteCommand` looks for. -/
def isQuotable (c : Char) : Bool :=
  c == ' ' || c == '\t' || c == '"' || c == '\''

/-- The characters between two parts. -/
def isSeparator (c : Char) : Bool :=
  c == ' ' || c == '\t' || c == '\r' || c == '\n'

def needsQuotes (arg : WString) : Bool :=
  arg.any isQuotable || arg.isEmpty

def doubleQuotes (arg : WString) : WString :=
  arg.flatMap fun c => if c = '"' then ['"', '"'] else [c]

def enquote (arg : WString) : WString :=
  '"' :: (doubleQuotes arg ++ ['"'])

def quoteArgument (arg : WString) : WString :=
  if needsQuotes arg then enquote arg else arg

def quoteCommand (args : List WString) : WString :=
  args.foldl
    (fun ret arg =>
      (if ret.isEmpty then ret else ret ++ [' ']) ++ quoteArgument arg) []

/-- The loop of `UnquoteFirst` with its variables `ret` and `quoted`.  The
first argument is whether the character has been passed by `++i` already. -/
def unquoteLoop :
    Bool → Option WString → Bool → WString → Option WString × Bool × WString
  | _, ret, quoted, [] => (ret, quoted, [])
  | true, ret, quoted, _ :: rest => unquoteLoop false ret quoted rest
  | false, ret, quoted, c :: rest =>
      if isSeparator c && !quoted then
        match ret with
        | some word => (some word, quoted, c :: rest)
        | none => unquoteLoop false none quoted rest
      else if c = '"' then
        if !quoted then unquoteLoop false (some (ret.getD [])) true rest
        else if rest.head? = some '"' then
          unquoteLoop true (some (ret.getD [] ++ ['"'])) true rest
        else unquoteLoop false (some (ret.getD [])) false rest
      else unquoteLoop false (some (ret.getD [] ++ [c])) quoted rest

def unquoteFirst (command : WString) : Option WString × WString :=
  match unquoteLoop false none false command with
  | (some word, false, rest) => (some word, rest.dropWhile isSeparator)
  | _ => (none, command)

/-- The loop of `UnquoteCommand`, with the command that it leaves.  Every
round takes a character, so the fuel need not exceed the length. -/
def unquoteParts : ℕ → WString → List WString × WString
  | 0, command => ([], command)
  | fuel + 1, command =>
      if command.isEmpty then ([], command)
      else
        match unquoteFirst command with
        | (none, _) => ([], command)
        | (some part, rest) =>
            let parts := unquoteParts fuel rest
            (part :: parts.1, parts.2)

def unquoteCommand (command : WString) : List WString :=
  let parts := unquoteParts (command.length + 1) command
  if !parts.2.isEmpty then []
  else if parts.1.head? = some [] then []
  else parts.1

/-! ## Associations -/

/-- `std::map`, in the order of its keys. -/
abbrev Associations := List (WString × List WString)

def stringLess (left right : WString) : Bool :=
  (compareStrings left right).isLT

def endsLine (c : Char) : Bool :=
  c == '\r' || c == '\n'

def saveAssociation (assoc : WString × List WString) : WString :=
  (if assoc.1.any isQuotable then enquote assoc.1 else assoc.1) ++
    ' ' :: quoteCommand assoc.2

def saveAssociations (assocs : Associations) : WString :=
  assocs.foldl
    (fun quoted assoc =>
      (if quoted.isEmpty then quoted else quoted ++ ['\n']) ++
        saveAssociation assoc) []

/-- The option of the associations after `SaveAssociations`.  `set` drops a
text that is longer than the option may be. -/
def storeAssociations (stored : WString) (assocs : Associations) : WString :=
  let quoted := saveAssociations assocs
  if 10000000 < quoted.length then stored else quoted

/-- One round of the loop of `LoadAssociations`. -/
def loadAssociation (line : WString) : Option (WString × List WString) :=
  match unquoteFirst line with
  | (none, _) => none
  | (some ext, rest) =>
      if ext.isEmpty then none
      else if (unquoteCommand rest).head?.any fun first => !first.isEmpty then
        some (ext, unquoteCommand rest)
      else none

/-- `strtokView` is `fz::strtok_view` of the library, called with the two line
ends and without empty tokens.  `emplace` keeps an entry that is there. -/
def loadAssociations (strtokView : WString → List WString) (raw : WString) :
    Associations :=
  (strtokView raw).foldl
    (fun ret line =>
      match loadAssociation line with
      | none => ret
      | some assoc => (OrderedSet.emplace Prod.fst stringLess assoc ret).1) []

def SplitsLines (strtokView : WString → List WString) : Prop :=
  ∀ text, strtokView text = fields endsLine text

/-! ## What the loop reads -/

def Closed (text : WString) : Prop :=
  ∀ c, text.head? = some c → isSeparator c = true

theorem closed_nil : Closed [] := nofun

theorem closed_blank (text : WString) : Closed (' ' :: text) := by
  intro c hc
  rw [← Option.some.inj hc]
  rfl

theorem Closed.head_ne_quote {text : WString} (htext : Closed text) :
    text.head? ≠ some '"' := by
  intro hquote
  cases htext '"' hquote

variable {word text : WString} {c : Char}

theorem unquoteLoop_cons (ret : Option WString) (quoted : Bool) (c : Char)
    (rest : WString) :
    unquoteLoop false ret quoted (c :: rest) =
      if isSeparator c && !quoted then
        match ret with
        | some word => (some word, quoted, c :: rest)
        | none => unquoteLoop false none quoted rest
      else if c = '"' then
        if !quoted then unquoteLoop false (some (ret.getD [])) true rest
        else if rest.head? = some '"' then
          unquoteLoop true (some (ret.getD [] ++ ['"'])) true rest
        else unquoteLoop false (some (ret.getD [])) false rest
      else unquoteLoop false (some (ret.getD [] ++ [c])) quoted rest := rfl

theorem unquoteLoop_skipSeparator (hc : isSeparator c = true) :
    unquoteLoop false none false (c :: text) =
      unquoteLoop false none false text := by
  rw [unquoteLoop_cons, if_pos (by simp [hc])]

theorem unquoteLoop_closed (htext : Closed text) :
    unquoteLoop false (some word) false text = (some word, false, text) := by
  cases text with
  | nil => rfl
  | cons c text =>
      have hc : isSeparator c = true := htext c rfl
      rw [unquoteLoop_cons, if_pos (by simp [hc])]

theorem unquoteLoop_plain {ret : Option WString}
    (hc : isSeparator c = false) (hquote : c ≠ '"') :
    unquoteLoop false ret false (c :: text) =
      unquoteLoop false (some (ret.getD [] ++ [c])) false text := by
  rw [unquoteLoop_cons, if_neg (by simp [hc]), if_neg hquote]

theorem unquoteLoop_quoted (arg : WString) (htext : Closed text) :
    unquoteLoop false (some word) true (doubleQuotes arg ++ '"' :: text) =
      unquoteLoop false (some (word ++ arg)) false text := by
  induction arg generalizing word with
  | nil =>
      change unquoteLoop false (some word) true ('"' :: text) = _
      rw [unquoteLoop_cons, if_neg (by simp), if_pos rfl, if_neg (by simp),
        if_neg htext.head_ne_quote, List.append_nil]
      rfl
  | cons c arg ih =>
      by_cases hc : c = '"'
      · have htwice : doubleQuotes (c :: arg) = '"' :: '"' :: doubleQuotes arg := by
          simp [doubleQuotes, hc]
        have hskip : ∀ (ret : WString) (rest : WString),
            unquoteLoop true (some ret) true ('"' :: rest) =
              unquoteLoop false (some ret) true rest := fun _ _ => rfl
        rw [htwice, List.cons_append, List.cons_append, unquoteLoop_cons,
          if_neg (by simp), if_pos rfl, if_neg (by simp), List.head?_cons,
          if_pos rfl, hskip, ih, hc, Option.getD_some, List.append_assoc]
        rfl
      · have honce : doubleQuotes (c :: arg) = c :: doubleQuotes arg := by
          simp [doubleQuotes, hc]
        rw [honce, List.cons_append, unquoteLoop_cons, if_neg (by simp),
          if_neg hc, ih, Option.getD_some, List.append_assoc]
        rfl

theorem unquoteLoop_enquote (arg : WString) (htext : Closed text) :
    unquoteLoop false none false (enquote arg ++ text) =
      (some arg, false, text) := by
  unfold enquote
  rw [List.cons_append, List.append_assoc, unquoteLoop_cons,
    if_neg (by simp [isSeparator]), if_pos rfl, if_pos (by simp)]
  exact (unquoteLoop_quoted arg htext).trans (unquoteLoop_closed htext)

theorem unquoteFirst_enquote (arg : WString) (htext : Closed text) :
    unquoteFirst (enquote arg ++ text) =
      (some arg, text.dropWhile isSeparator) := by
  unfold unquoteFirst
  rw [unquoteLoop_enquote arg htext]

theorem unquoteLoop_word {ret : WString}
    (hword : ∀ c ∈ word, isSeparator c = false ∧ c ≠ '"')
    (htext : Closed text) :
    unquoteLoop false (some ret) false (word ++ text) =
      (some (ret ++ word), false, text) := by
  induction word generalizing ret with
  | nil => rw [List.nil_append, List.append_nil, unquoteLoop_closed htext]
  | cons c word ih =>
      have hc := hword c List.mem_cons_self
      rw [List.cons_append, unquoteLoop_plain hc.1 hc.2,
        ih fun other hother => hword other (List.mem_cons_of_mem _ hother),
        Option.getD_some, List.append_assoc]
      rfl

theorem unquoteFirst_word (hne : word ≠ [])
    (hword : ∀ c ∈ word, isSeparator c = false ∧ c ≠ '"')
    (htext : Closed text) :
    unquoteFirst (word ++ text) = (some word, text.dropWhile isSeparator) := by
  have hloop : unquoteLoop false none false (word ++ text) =
      (some word, false, text) := by
    cases word with
    | nil => exact absurd rfl hne
    | cons c word =>
        have hc := hword c List.mem_cons_self
        rw [List.cons_append, unquoteLoop_plain hc.1 hc.2]
        exact unquoteLoop_word
          (fun other hother => hword other (List.mem_cons_of_mem _ hother))
          htext
  unfold unquoteFirst
  rw [hloop]

/-! ## Arguments that survive -/

/-- An argument with a line end is quoted for another character. -/
def Survives (arg : WString) : Prop :=
  (∃ c ∈ arg, endsLine c = true) → ∃ c ∈ arg, isQuotable c = true

theorem isSeparator_eq (c : Char) (hc : isQuotable c = false) :
    isSeparator c = endsLine c ∧ c ≠ '"' := by
  simp only [isQuotable, Bool.or_eq_false_iff] at hc
  obtain ⟨⟨⟨hspace, htab⟩, hquote⟩, _⟩ := hc
  refine ⟨?_, beq_eq_false_iff_ne.mp hquote⟩
  unfold isSeparator endsLine
  rw [hspace, htab]
  rfl

theorem quotable_false {arg : WString} (harg : ¬ arg.any isQuotable = true) :
    ∀ c ∈ arg, isQuotable c = false := by
  intro c hc
  by_contra htrue
  exact harg (List.any_eq_true.mpr ⟨c, hc, by simpa using htrue⟩)

theorem Survives.plain {arg : WString} (harg : Survives arg)
    (hquotes : ¬ needsQuotes arg = true) :
    arg ≠ [] ∧ ∀ c ∈ arg, isSeparator c = false ∧ c ≠ '"' := by
  have hparts := (not_congr Bool.or_eq_true_iff).mp hquotes
  rw [not_or] at hparts
  have hclear := quotable_false hparts.1
  refine ⟨fun hnil => hparts.2 (by rw [hnil]; rfl), ?_⟩
  intro c hc
  obtain ⟨hsame, hquote⟩ := isSeparator_eq c (hclear c hc)
  refine ⟨?_, hquote⟩
  rw [hsame]
  by_contra hend
  obtain ⟨other, hother, hquotable⟩ := harg ⟨c, hc, by simpa using hend⟩
  rw [hclear other hother] at hquotable
  cases hquotable

theorem unquoteFirst_argument {arg : WString} (harg : Survives arg)
    (htext : Closed text) :
    unquoteFirst (quoteArgument arg ++ text) =
      (some arg, text.dropWhile isSeparator) := by
  unfold quoteArgument
  by_cases hquotes : needsQuotes arg = true
  · rw [if_pos hquotes]
    exact unquoteFirst_enquote arg htext
  · rw [if_neg hquotes]
    exact unquoteFirst_word (harg.plain hquotes).1 (harg.plain hquotes).2 htext

/-- No argument is written as nothing. -/
theorem quoteArgument_ne_nil (arg : WString) : quoteArgument arg ≠ [] := by
  unfold quoteArgument
  by_cases hquotes : needsQuotes arg = true
  · rw [if_pos hquotes]
    exact List.cons_ne_nil _ _
  · rw [if_neg hquotes]
    rintro rfl
    exact hquotes rfl

theorem Survives.dropWhile {arg : WString} (harg : Survives arg) :
    (quoteArgument arg ++ text).dropWhile isSeparator =
      quoteArgument arg ++ text := by
  have hhead : ∀ c rest, quoteArgument arg = c :: rest →
      isSeparator c = false := by
    intro c rest hcons
    unfold quoteArgument at hcons
    by_cases hquotes : needsQuotes arg = true
    · rw [if_pos hquotes] at hcons
      rw [← (List.cons.inj hcons).1]
      rfl
    · rw [if_neg hquotes] at hcons
      exact ((harg.plain hquotes).2 c (by simp [hcons])).1
  obtain ⟨c, rest, hcons⟩ :=
    List.exists_cons_of_ne_nil (quoteArgument_ne_nil arg)
  rw [hcons, List.cons_append,
    List.dropWhile_cons_of_neg (by simp [hhead c rest hcons])]

/-! ## Whole commands -/

theorem quoteCommand_eq_join (args : List WString) :
    quoteCommand args = join ' ' (args.map quoteArgument) :=
  DelimitedText.foldl_join ' ' fun arg _ => quoteArgument_ne_nil arg

theorem unquoteParts_join (args : List WString)
    (hargs : ∀ arg ∈ args, Survives arg) {fuel : ℕ}
    (hfuel : args.length ≤ fuel) :
    unquoteParts fuel (join ' ' (args.map quoteArgument)) = (args, []) := by
  induction args generalizing fuel with
  | nil => cases fuel <;> rfl
  | cons arg args ih =>
      obtain ⟨fuel, rfl⟩ : ∃ rest, fuel = rest + 1 :=
        ⟨fuel - 1, by rw [List.length_cons] at hfuel; omega⟩
      have harg : Survives arg := hargs arg List.mem_cons_self
      have hrest := ih
        (fun other hother => hargs other (List.mem_cons_of_mem _ hother))
        (Nat.le_of_succ_le_succ hfuel)
      have hround : ∀ {text : WString}, Closed text →
          unquoteParts (fuel + 1) (quoteArgument arg ++ text) =
            (arg :: (unquoteParts fuel (text.dropWhile isSeparator)).1,
              (unquoteParts fuel (text.dropWhile isSeparator)).2) := by
        intro text htext
        rw [unquoteParts, if_neg (by simp [quoteArgument_ne_nil]),
          unquoteFirst_argument harg htext]
      cases args with
      | nil =>
          have hlast := hround closed_nil
          rw [List.append_nil] at hlast
          have hdone : unquoteParts fuel [] = ([], []) := hrest
          rw [List.map_singleton]
          refine hlast.trans ?_
          rw [List.dropWhile_nil, hdone]
      | cons next args =>
          have hnext : Survives next :=
            hargs next (List.mem_cons_of_mem _ List.mem_cons_self)
          have hskip : (' ' :: join ' ' ((next :: args).map quoteArgument)).dropWhile
              isSeparator = join ' ' ((next :: args).map quoteArgument) := by
            rw [List.dropWhile_cons_of_pos rfl, List.map_cons,
              DelimitedText.join_cons, hnext.dropWhile]
          rw [List.map_cons, List.map_cons, DelimitedText.join_cons_cons,
            ← List.map_cons, hround (closed_blank _), hskip, hrest]

theorem length_le_join (args : List WString) :
    args.length ≤ (join ' ' (args.map quoteArgument)).length + 1 := by
  induction args with
  | nil => exact Nat.zero_le _
  | cons arg args ih =>
      cases args with
      | nil => exact Nat.le_add_left _ _
      | cons next args =>
          rw [List.map_cons, List.map_cons, DelimitedText.join_cons_cons,
            ← List.map_cons]
          simp only [List.length_append, List.length_cons] at ih ⊢
          omega

theorem unquote_quote {first : WString} {args : List WString}
    (hfirst : first ≠ []) (hargs : ∀ arg ∈ first :: args, Survives arg) :
    unquoteCommand (quoteCommand (first :: args)) = first :: args := by
  have hparts := unquoteParts_join (first :: args) hargs
    (length_le_join (first :: args))
  unfold unquoteCommand
  rw [quoteCommand_eq_join, hparts]
  simp [hfirst]

/-! ## What the reader makes of every command -/

/-- A text of quoted arguments and of runs without quotes. -/
inductive Written : WString → Prop
  | nil : Written []
  | separator {c : Char} {text : WString} :
      isSeparator c = true → Written text → Written (c :: text)
  | plain {c : Char} {text : WString} :
      isSeparator c = false → c ≠ '"' → text.head? ≠ some '"' →
      Written text → Written (c :: text)
  | quoted {arg text : WString} :
      needsQuotes arg = true → Closed text → Written text →
      Written (enquote arg ++ text)

def Kept (part : WString) : Prop :=
  needsQuotes part = true ∨ ∀ c ∈ part, isSeparator c = false

theorem Written.plainRun (htext : Written text) (hhead : text.head? ≠ some '"') :
    ∃ run rest, unquoteLoop false (some word) false text =
      (some (word ++ run), false, rest) ∧
        (∀ c ∈ run, isSeparator c = false) ∧ Written rest := by
  induction htext generalizing word with
  | nil => exact ⟨[], [], by rw [List.append_nil]; rfl, nofun, .nil⟩
  | @separator c text hc htext _ =>
      have hclosed : Closed (c :: text) := by
        intro other hother
        rw [← Option.some.inj hother]
        exact hc
      refine ⟨[], c :: text, ?_, nofun, .separator hc htext⟩
      rw [List.append_nil, unquoteLoop_closed hclosed]
  | @plain c text hc hquote hnext _ ih =>
      obtain ⟨run, rest, hloop, hrun, hrest⟩ := @ih (word ++ [c]) hnext
      refine ⟨c :: run, rest, ?_, ?_, hrest⟩
      · rw [unquoteLoop_plain hc hquote, Option.getD_some, hloop,
          List.append_assoc]
        rfl
      · exact List.forall_mem_cons.mpr ⟨hc, hrun⟩
  | quoted => exact absurd rfl hhead

theorem Written.first (htext : Written text) :
    unquoteFirst text = (none, text) ∨
      ∃ part rest, unquoteFirst text = (some part, rest.dropWhile isSeparator) ∧
        Kept part ∧ Written rest := by
  have hloop : (unquoteLoop false none false text).1 = none ∨
      ∃ part rest, unquoteLoop false none false text = (some part, false, rest) ∧
        Kept part ∧ Written rest := by
    induction htext with
    | nil => exact Or.inl rfl
    | separator hc _ ih =>
        rw [unquoteLoop_skipSeparator hc]
        exact ih
    | @plain c text hc hquote hnext htext _ =>
        obtain ⟨run, rest, hword, hrun, hrest⟩ :=
          @Written.plainRun [c] _ htext hnext
        refine Or.inr ⟨c :: run, rest, ?_, Or.inr ?_, hrest⟩
        · rw [unquoteLoop_plain hc hquote]
          exact hword
        · exact List.forall_mem_cons.mpr ⟨hc, hrun⟩
    | @quoted arg text hquotes hclosed htext _ =>
        exact Or.inr
          ⟨arg, text, unquoteLoop_enquote arg hclosed, Or.inl hquotes, htext⟩
  unfold unquoteFirst
  rcases hloop with hnone | ⟨part, rest, hsome, hkept, hrest⟩
  · left
    generalize unquoteLoop false none false text = result at hnone
    obtain ⟨ret, quoted, rest⟩ := result
    cases hnone
    rfl
  · right
    rw [hsome]
    exact ⟨part, rest, rfl, hkept, hrest⟩

theorem Written.dropWhile (htext : Written text) :
    Written (text.dropWhile isSeparator) := by
  induction htext with
  | nil => exact .nil
  | separator hc _ ih =>
      rw [List.dropWhile_cons_of_pos hc]
      exact ih
  | plain hc hquote hnext htext _ =>
      rw [List.dropWhile_cons_of_neg (by simp [hc])]
      exact .plain hc hquote hnext htext
  | quoted hquotes hclosed htext _ =>
      rw [enquote, List.cons_append, List.dropWhile_cons_of_neg (by decide),
        ← List.cons_append]
      exact .quoted hquotes hclosed htext

theorem Written.parts (htext : Written text) (fuel : ℕ) :
    ∀ part ∈ (unquoteParts fuel text).1, Kept part := by
  induction fuel generalizing text with
  | zero => exact nofun
  | succ fuel ih =>
      unfold unquoteParts
      by_cases hempty : text.isEmpty = true
      · rw [if_pos hempty]
        exact nofun
      · rw [if_neg hempty]
        rcases htext.first with hnone | ⟨part, rest, hsome, hkept, hrest⟩
        · rw [hnone]
          exact nofun
        · rw [hsome]
          exact List.forall_mem_cons.mpr ⟨hkept, ih hrest.dropWhile⟩

theorem written_argument (arg : WString) (hclosed : Closed text)
    (htext : Written text) : Written (quoteArgument arg ++ text) := by
  unfold quoteArgument
  by_cases hquotes : needsQuotes arg = true
  · rw [if_pos hquotes]
    exact .quoted hquotes hclosed htext
  · rw [if_neg hquotes]
    have hclear : ∀ c ∈ arg, isQuotable c = false :=
      quotable_false fun hany => hquotes (Bool.or_eq_true_iff.mpr (Or.inl hany))
    clear hquotes
    induction arg with
    | nil => exact htext
    | cons c arg ih =>
        have hrest := ih fun other hother =>
          hclear other (List.mem_cons_of_mem _ hother)
        have hquote := (isSeparator_eq c (hclear c List.mem_cons_self)).2
        by_cases hc : isSeparator c = true
        · exact .separator hc hrest
        · refine .plain (by simpa using hc) hquote ?_ hrest
          cases arg with
          | nil => exact hclosed.head_ne_quote
          | cons next arg =>
              intro hhead
              have hnext := hclear next
                (List.mem_cons_of_mem _ List.mem_cons_self)
              rw [Option.some.inj hhead] at hnext
              cases hnext

theorem written_join (args : List WString) :
    Written (join ' ' (args.map quoteArgument)) := by
  induction args with
  | nil => exact .nil
  | cons arg args ih =>
      cases args with
      | nil =>
          have hlast := written_argument arg closed_nil .nil
          rw [List.append_nil] at hlast
          exact hlast
      | cons next args =>
          exact written_argument arg (closed_blank _) (.separator rfl ih)

theorem Kept.survives {part : WString} (hkept : Kept part) :
    Survives part := by
  rintro ⟨c, hc, hend⟩
  rcases hkept with hquotes | hclear
  · rcases Bool.or_eq_true_iff.mp hquotes with hany | hempty
    · exact List.any_eq_true.mp hany
    · rw [List.isEmpty_iff.mp hempty] at hc
      cases hc
  · have hsep : isSeparator c = true := by
      rcases Bool.or_eq_true_iff.mp hend with h | h <;> simp [isSeparator, h]
    rw [hclear c hc] at hsep
    cases hsep

theorem mem_unquoteCommand {command part : WString}
    (hpart : part ∈ unquoteCommand command) :
    part ∈ (unquoteParts (command.length + 1) command).1 := by
  unfold unquoteCommand at hpart
  dsimp only at hpart
  split_ifs at hpart
  · cases hpart
  · cases hpart
  · exact hpart

/-- Every argument has to survive. -/
theorem unquote_quote_iff {first : WString} {args : List WString}
    (hfirst : first ≠ []) :
    unquoteCommand (quoteCommand (first :: args)) = first :: args ↔
      ∀ arg ∈ first :: args, Survives arg := by
  constructor
  · intro hsame arg harg
    rw [← hsame, quoteCommand_eq_join] at harg
    exact ((written_join _).parts _ arg (mem_unquoteCommand harg)).survives
  · exact unquote_quote hfirst

/-! ## Associations -/

/-- No text of the association ends a line. -/
def OnOneLine (assoc : WString × List WString) : Prop :=
  ∀ text ∈ assoc.1 :: assoc.2, Free endsLine text

theorem unquoteLoop_free {ret : Option WString}
    (hret : ∀ word, ret = some word → Free endsLine word)
    (htext : Free endsLine text) (skip quoted : Bool) :
    (∀ word, (unquoteLoop skip ret quoted text).1 = some word →
      Free endsLine word) ∧
      Free endsLine (unquoteLoop skip ret quoted text).2.2 := by
  induction text generalizing skip ret quoted with
  | nil => cases skip <;> exact ⟨hret, htext⟩
  | cons c text ih =>
      obtain ⟨hc, hrest⟩ := List.forall_mem_cons.mp htext
      have hword : Free endsLine (ret.getD []) := by
        cases hcase : ret with
        | none => exact fun other hother => absurd hother List.not_mem_nil
        | some word => exact hret word hcase
      have hpush : ∀ {other : Char}, endsLine other = false →
          ∀ word, some (ret.getD [] ++ [other]) = some word →
            Free endsLine word := by
        intro other hother word hsome
        rw [← Option.some.inj hsome]
        exact List.forall_mem_append.mpr
          ⟨hword, List.forall_mem_singleton.mpr hother⟩
      have hsame : ∀ word, some (ret.getD []) = some word →
          Free endsLine word := by
        intro word hsome
        rw [← Option.some.inj hsome]
        exact hword
      cases skip with
      | true => exact ih hret hrest false quoted
      | false =>
          unfold unquoteLoop
          split_ifs with hstop hquote hopen htwice
          · cases ret with
            | some word => exact ⟨hret, htext⟩
            | none => exact ih hret hrest false quoted
          · exact ih hsame hrest false true
          · exact ih (hpush rfl) hrest true true
          · exact ih hsame hrest false false
          · exact ih (hpush hc) hrest false quoted

theorem unquoteFirst_free {rest : WString} (htext : Free endsLine text)
    (hfirst : unquoteFirst text = (some word, rest)) :
    Free endsLine word ∧ Free endsLine rest := by
  have hnone : ∀ part, (none : Option WString) = some part →
      Free endsLine part := nofun
  have hloop := unquoteLoop_free hnone htext false false
  unfold unquoteFirst at hfirst
  generalize unquoteLoop false none false text = result at hloop hfirst
  obtain ⟨ret, quoted, left⟩ := result
  cases ret with
  | none => cases hfirst
  | some part =>
      cases quoted with
      | true => cases hfirst
      | false =>
          obtain ⟨hword, hrest⟩ := Prod.mk.inj hfirst
          rw [← Option.some.inj hword, ← hrest]
          exact ⟨hloop.1 part rfl, fun c hc =>
            hloop.2 c ((List.dropWhile_suffix isSeparator).subset hc)⟩

theorem unquoteParts_free (fuel : ℕ) (htext : Free endsLine text) :
    ∀ part ∈ (unquoteParts fuel text).1, Free endsLine part := by
  induction fuel generalizing text with
  | zero => exact nofun
  | succ fuel ih =>
      unfold unquoteParts
      by_cases hempty : text.isEmpty = true
      · rw [if_pos hempty]
        exact nofun
      · rw [if_neg hempty]
        match hfirst : unquoteFirst text with
        | (none, _) => exact nofun
        | (some part, rest) =>
            have hfree := unquoteFirst_free htext hfirst
            exact List.forall_mem_cons.mpr ⟨hfree.1, ih hfree.2⟩

theorem loadAssociation_onOneLine {line : WString}
    {assoc : WString × List WString} (hline : Free endsLine line)
    (hload : loadAssociation line = some assoc) : OnOneLine assoc := by
  unfold loadAssociation at hload
  match hfirst : unquoteFirst line with
  | (none, _) =>
      rw [hfirst] at hload
      cases hload
  | (some ext, rest) =>
      have hfree := unquoteFirst_free hline hfirst
      rw [hfirst] at hload
      dsimp only at hload
      split_ifs at hload
      rw [← Option.some.inj hload]
      exact List.forall_mem_cons.mpr ⟨hfree.1, fun part hpart =>
        unquoteParts_free _ hfree.2 part (mem_unquoteCommand hpart)⟩

theorem loadAssociations_onOneLine (raw : WString) :
    ∀ assoc ∈ loadAssociations (fields endsLine) raw, OnOneLine assoc := by
  have hlines : ∀ line ∈ fields endsLine raw, Free endsLine line :=
    fun line hline => (DelimitedText.fields_good raw line hline).2
  have hfold : ∀ (lines : List WString) (ret : Associations),
      (∀ line ∈ lines, Free endsLine line) → (∀ assoc ∈ ret, OnOneLine assoc) →
      ∀ assoc ∈ lines.foldl
        (fun ret line =>
          match loadAssociation line with
          | none => ret
          | some assoc =>
              (OrderedSet.emplace Prod.fst stringLess assoc ret).1) ret,
        OnOneLine assoc := by
    intro lines
    induction lines with
    | nil => exact fun _ _ hret => hret
    | cons line lines ih =>
        intro ret hfree hret
        obtain ⟨hline, hrest⟩ := List.forall_mem_cons.mp hfree
        rw [List.foldl_cons]
        apply ih _ hrest
        cases hload : loadAssociation line with
        | none => exact hret
        | some new =>
            intro assoc hassoc
            rcases OrderedMap.mem_emplace hassoc with hold | hnew
            · exact hret assoc hold
            · rw [hnew]
              exact loadAssociation_onOneLine hline hload
  exact hfold _ [] hlines nofun

theorem Free.survives {arg : WString} (harg : Free endsLine arg) :
    Survives arg := by
  rintro ⟨c, hc, hend⟩
  rw [harg c hc] at hend
  cases hend

theorem doubleQuotes_free {arg : WString} (harg : Free endsLine arg) :
    Free endsLine (doubleQuotes arg) := by
  intro c hc
  obtain ⟨other, hother, hmem⟩ := List.mem_flatMap.mp hc
  have hfree := harg other hother
  split_ifs at hmem with hquote
  · rcases List.mem_pair.mp hmem with rfl | rfl <;> rfl
  · rw [List.mem_singleton.mp hmem]
    exact hfree

theorem enquote_free {arg : WString} (harg : Free endsLine arg) :
    Free endsLine (enquote arg) := by
  have hquote : endsLine '"' = false := rfl
  exact List.forall_mem_cons.mpr ⟨hquote, List.forall_mem_append.mpr
    ⟨doubleQuotes_free harg, List.forall_mem_singleton.mpr hquote⟩⟩

theorem quoteArgument_free {arg : WString} (harg : Free endsLine arg) :
    Free endsLine (quoteArgument arg) := by
  unfold quoteArgument
  split_ifs
  · exact enquote_free harg
  · exact harg

theorem quoteCommand_free {args : List WString}
    (hargs : ∀ arg ∈ args, Free endsLine arg) :
    Free endsLine (quoteCommand args) := by
  rw [quoteCommand_eq_join]
  induction args with
  | nil => exact nofun
  | cons arg args ih =>
      obtain ⟨harg, hrest⟩ := List.forall_mem_cons.mp hargs
      rw [List.map_cons, DelimitedText.join_cons]
      refine List.forall_mem_append.mpr ⟨quoteArgument_free harg, ?_⟩
      intro c hc
      obtain ⟨text, htext, hmem⟩ := List.mem_flatMap.mp hc
      obtain ⟨other, hother, rfl⟩ := List.mem_map.mp htext
      rcases List.mem_cons.mp hmem with rfl | hmem
      · rfl
      · exact quoteArgument_free (hrest other hother) c hmem

/-- An association as the user can make it. -/
def Usable (assoc : WString × List WString) : Prop :=
  assoc.1 ≠ [] ∧ ∃ first args, assoc.2 = first :: args ∧ first ≠ []

section Saved

variable {assoc : WString × List WString}

theorem Usable.saveAssociation_eq (husable : Usable assoc) :
    saveAssociation assoc =
      quoteArgument assoc.1 ++ ' ' :: quoteCommand assoc.2 := by
  have hempty : assoc.1.isEmpty = false := by simp [husable.1]
  unfold saveAssociation quoteArgument needsQuotes
  rw [hempty, Bool.or_false]

theorem Usable.load_save (husable : Usable assoc) (hline : OnOneLine assoc) :
    loadAssociation (saveAssociation assoc) = some assoc := by
  obtain ⟨hext, hargs⟩ := List.forall_mem_cons.mp hline
  obtain ⟨first, args, hcommand, hfirst⟩ := husable.2
  have hsurvive : ∀ arg ∈ first :: args, Survives arg := by
    intro arg harg
    exact Free.survives (hargs arg (hcommand ▸ harg))
  have hunquote : unquoteCommand (quoteCommand assoc.2) = assoc.2 := by
    rw [hcommand]
    exact unquote_quote hfirst hsurvive
  have hskip : (' ' :: quoteCommand assoc.2).dropWhile isSeparator =
      quoteCommand assoc.2 := by
    rw [List.dropWhile_cons_of_pos rfl, hcommand, quoteCommand_eq_join,
      List.map_cons, DelimitedText.join_cons,
      (hsurvive first List.mem_cons_self).dropWhile]
  unfold loadAssociation
  rw [husable.saveAssociation_eq,
    unquoteFirst_argument (Free.survives hext) (closed_blank _), hskip]
  dsimp only
  rw [hunquote, if_neg (by simpa using husable.1), hcommand,
    if_pos (by simpa using hfirst), ← hcommand]

theorem Usable.line (husable : Usable assoc) (hline : OnOneLine assoc) :
    saveAssociation assoc ≠ [] ∧ Free endsLine (saveAssociation assoc) := by
  obtain ⟨hext, hargs⟩ := List.forall_mem_cons.mp hline
  rw [husable.saveAssociation_eq]
  constructor
  · simp
  · exact List.forall_mem_append.mpr ⟨quoteArgument_free hext,
      List.forall_mem_cons.mpr ⟨rfl, quoteCommand_free hargs⟩⟩

end Saved

/-- Every association has to stand on one line. -/
theorem load_save_iff {assocs : Associations}
    (hordered : Ordered Prod.fst stringLess assocs)
    (husable : ∀ assoc ∈ assocs, Usable assoc) :
    loadAssociations (fields endsLine) (saveAssociations assocs) = assocs ↔
      ∀ assoc ∈ assocs, OnOneLine assoc := by
  constructor
  · intro hsame assoc hassoc
    rw [← hsame] at hassoc
    exact loadAssociations_onOneLine _ assoc hassoc
  · intro hlines
    have hjoin : saveAssociations assocs =
        join '\n' (assocs.map saveAssociation) :=
      DelimitedText.foldl_join '\n' fun assoc hassoc =>
        ((husable assoc hassoc).line (hlines assoc hassoc)).1
    have hfields : fields endsLine (saveAssociations assocs) =
        assocs.map saveAssociation := by
      rw [hjoin]
      apply DelimitedText.fields_join rfl
      intro line hline
      obtain ⟨assoc, hassoc, rfl⟩ := List.mem_map.mp hline
      exact (husable assoc hassoc).line (hlines assoc hassoc)
    unfold loadAssociations
    rw [hfields, List.foldl_map]
    have hround : ∀ (ret : Associations) (assoc : WString × List WString),
        assoc ∈ assocs →
        (match loadAssociation (saveAssociation assoc) with
          | none => ret
          | some assoc =>
              (OrderedSet.emplace Prod.fst stringLess assoc ret).1) =
          (OrderedSet.emplace Prod.fst stringLess assoc ret).1 := by
      intro ret assoc hassoc
      rw [(husable assoc hassoc).load_save (hlines assoc hassoc)]
    rw [List.foldl_ext _ _ _ hround]
    exact OrderedSet.Ordered.foldl_emplace hordered

/-- A command comes back if and only if every argument with a line end is
quoted for another character.  Saved associations do if and only if they have
no line end at all, unless they are too long to be stored. -/
theorem quoting_round_trip_iff {strtokView : WString → List WString}
    (hstrtok : SplitsLines strtokView) {first : WString} (args : List WString)
    (hfirst : first ≠ []) (stored : WString) {assocs : Associations}
    (hordered : Ordered Prod.fst stringLess assocs)
    (husable : ∀ assoc ∈ assocs, Usable assoc) :
    (unquoteCommand (quoteCommand (first :: args)) = first :: args ↔
      ∀ arg ∈ first :: args, Survives arg) ∧
      (loadAssociations strtokView (storeAssociations stored assocs) =
          assocs ↔
        if 10000000 < (saveAssociations assocs).length then
          loadAssociations strtokView stored = assocs
        else ∀ assoc ∈ assocs, OnOneLine assoc) := by
  obtain rfl : strtokView = fields endsLine := funext hstrtok
  refine ⟨unquote_quote_iff hfirst, ?_⟩
  unfold storeAssociations
  split_ifs with hlong
  · simp only [if_pos hlong]
  · simp only [if_neg hlong]
    exact load_save_iff hordered husable

/-- Two extensions, one with a blank, for an editor whose name has a blank and
an argument with a quote. -/
def twoAssociations : Associations :=
  [(['c'], [['v', ' '], ['"', 'x']]), (['h', ' '], [['v'], []])]

/-- An argument and an extension with blanks, a quote and an empty argument. -/
theorem quoting_round_trip_blank :
    unquoteCommand (quoteCommand [['v'], ['a', ' ']]) = [['v'], ['a', ' ']] ∧
      loadAssociations (fields endsLine)
        (storeAssociations [] twoAssociations) = twoAssociations := by
  have husable : ∀ assoc ∈ twoAssociations, Usable assoc := by
    refine List.forall_mem_cons.mpr ⟨?_, List.forall_mem_singleton.mpr ?_⟩
    · exact ⟨List.cons_ne_nil _ _, ['v', ' '], [['"', 'x']], rfl,
        List.cons_ne_nil _ _⟩
    · exact ⟨List.cons_ne_nil _ _, ['v'], [[]], rfl, List.cons_ne_nil _ _⟩
  have hordered : Ordered Prod.fst stringLess twoAssociations :=
    List.pairwise_pair.mpr rfl
  have hsingle : Free endsLine ['v'] := List.forall_mem_singleton.mpr rfl
  have hpair : Free endsLine ['a', ' '] :=
    List.forall_mem_cons.mpr ⟨rfl, List.forall_mem_singleton.mpr rfl⟩
  have hlines : twoAssociations.all (fun assoc => (assoc.1 :: assoc.2).all
      fun text => text.all fun c => !endsLine c) = true := rfl
  have hboth := quoting_round_trip_iff (fun _ => rfl) [['a', ' ']]
    (List.cons_ne_nil 'v' []) [] hordered husable
  refine ⟨hboth.1.mpr (List.forall_mem_cons.mpr ⟨Free.survives hsingle,
    List.forall_mem_singleton.mpr (Free.survives hpair)⟩), hboth.2.mpr ?_⟩
  rw [if_neg (by decide)]
  simp only [List.all_eq_true, Bool.not_eq_true'] at hlines
  exact hlines

/-- The editor is started with two arguments for one. -/
theorem line_end_splits_argument :
    ¬ ∀ (first : WString) (args : List WString), first ≠ [] →
      unquoteCommand (quoteCommand (first :: args)) = first :: args := by
  intro hall
  have hsplit := hall "vi".toList ["a\nb".toList] (by decide)
  revert hsplit
  decide

end CommandQuoting

end TabFtp
