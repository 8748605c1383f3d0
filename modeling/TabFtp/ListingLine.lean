import TabFtp.CheckedAttempts
import TabFtp.DirectoryListing

/-!
# Lines of a listing and their tokens

A line hands out its tokens by number and remembers the ones it has found.  It
looks for further tokens only as far as it is asked, and what it finds at the
end of the line depends on how far that is: a line that ends with a blank has
the terminator of its string as its last token if the search is for more
tokens than there are.  Tokens are views of the string with its terminator.
-/

namespace TabFtp

open CheckedAttempts Attempt

def isBlank (char : Char) : Bool :=
  char == ' ' || char == '\t'

/-! ## Lines -/

structure Token where
  offset : ℕ
  text : WString
  deriving DecidableEq

def noToken : Token := ⟨0, []⟩

/-- `CLine`.  `trailingWhitespace` is unknown until it is needed. -/
structure Line where
  text : WString
  tokens : List Token
  lineEndTokens : List Token
  parsePos : ℕ
  trailingWhitespace : Option ℕ
  deriving DecidableEq

def Line.make (text : WString) (trailingWhitespace : Option ℕ) : Line :=
  ⟨text, [], [], (text.takeWhile isBlank).length, trailingWhitespace⟩

def Line.concat (line other : Line) : Line :=
  Line.make (line.text ++ [' '] ++ other.text) other.trailingWhitespace

/-- The characters behind `c_str()`. -/
def Line.cStr (line : Line) : WString :=
  line.text ++ ['\x00']

/-- A view of the string, unless it leaves the string. -/
def Line.view (line : Line) (start len : ℕ) : Option Token :=
  if start + len ≤ line.cStr.length then
    some ⟨start, (line.cStr.drop start).take len⟩
  else none

structure ParseState where
  line : Line
  entry : DirectoryEntry

abbrev Parse (Value : Type) : Type := Attempt ParseState Value

def Line.push (line : Line) (token : Token) : Line :=
  { line with tokens := line.tokens ++ [token] }

/-- The loop in `GetToken` from `parsePos` on.  `start` is where the current
token starts; there is none while the blanks behind a token are skipped.  A
view that leaves the string has no result. -/
def Line.scan (n : ℕ) : WString → Option ℕ → Line → Option Line
  | [], some start, line =>
      if line.parsePos ≠ start then
        (line.view start (line.parsePos - start)).map line.push
      else some line
  | [], none, line =>
      if n < line.tokens.length then some line
      else
        (line.view line.parsePos 1).map fun token =>
          { line.push token with parsePos := line.parsePos + 1 }
  | char :: chars, some start, line =>
      if isBlank char then
        match line.view start (line.parsePos - start) with
        | none => none
        | some token =>
            Line.scan n chars none
              { line.push token with parsePos := line.parsePos + 1 }
      else
        Line.scan n chars (some start)
          { line with parsePos := line.parsePos + 1 }
  | char :: chars, none, line =>
      if isBlank char then
        Line.scan n chars none { line with parsePos := line.parsePos + 1 }
      else if n < line.tokens.length then some line
      else
        Line.scan n chars (some line.parsePos)
          { line with parsePos := line.parsePos + 1 }

/-- `GetToken`.  A token that is not there is empty. -/
def getToken (n : ℕ) : Parse Token := fun state =>
  match state.line.tokens[n]? with
  | some token => .success token state
  | none =>
      match state.line.scan n (state.line.text.drop state.line.parsePos)
          (some state.line.parsePos) with
      | none => .fault
      | some line =>
          .success (line.tokens[n]?.getD noToken) { state with line := line }

def needToken (n : ℕ) : Parse Token := do
  let token ← getToken n
  require (!token.text.isEmpty)
  pure token

/-- `trailing_whitespace_`, which is counted when it is first needed. -/
def Line.trailing (line : Line) : ℕ :=
  line.trailingWhitespace.getD (line.text.reverse.takeWhile isBlank).length

/-- The loop in `GetEndToken` for the tokens from `lineEndTokens.size()` to
`n`.  The second result is whether it was left early. -/
def Line.fillEndTokens (line : Line) : List Token → Option (Line × Bool)
  | [] => some (line, false)
  | token :: tokens =>
      if line.text.length ≤ token.offset + line.trailing then
        some (line, true)
      else
        match line.view token.offset
            (line.text.length - token.offset - line.trailing) with
        | none => none
        | some endToken =>
            Line.fillEndTokens
              { line with lineEndTokens := line.lineEndTokens ++ [endToken] }
              tokens

/-- The tokens that `GetEndToken` finds at first. -/
def fillTokens (n : ℕ) : Parse Bool := do
  let line ← read ParseState.line
  if n < line.tokens.length then pure true
  else do
    let token ← getToken n
    pure (!token.text.isEmpty)

/-- `GetEndToken` behind the tokens that are there already. -/
def newEndToken (n : ℕ) : Parse Token := fun state =>
  let line := { state.line with
    trailingWhitespace := some state.line.trailing }
  match line.fillEndTokens
      ((line.tokens.take (n + 1)).drop line.lineEndTokens.length) with
  | none => .fault
  | some (line, true) => .success noToken { state with line := line }
  | some (line, false) =>
      match line.lineEndTokens[n]? with
      | none => .fault
      | some token => .success token { state with line := line }

/-- `GetEndToken`, the rest of the line from a token on. -/
def getEndToken (n : ℕ) : Parse Token := do
  let line ← read ParseState.line
  match line.lineEndTokens[n]? with
  | some token => pure token
  | none => do
      let found ← fillTokens n
      if found then newEndToken n else pure noToken

def needEndToken (n : ℕ) : Parse Token := do
  let token ← getEndToken n
  require (!token.text.isEmpty)
  pure token

/-- `GetEndToken` with whitespace: what follows the blank behind the token
before. -/
def getEndTokenWithWhitespace (n : ℕ) : Parse Token := do
  let ref ← getToken (n - 1)
  if ref.text.isEmpty then pure ref
  else do
    let line ← read ParseState.line
    let start := ref.offset + ref.text.length + 1
    -- the pointer may be at most one behind the terminator
    inRange (start ≤ line.cStr.length)
    if line.text.length ≤ start then pure noToken
    else ofOption (line.view start (line.text.length - start))

/-! ## Tokens lie in their line -/

/-- A token is a view of the string that starts with a character that is not
blank. -/
structure IsToken (text : WString) (token : Token) : Prop where
  inside : token.offset + token.text.length ≤ text.length + 1
  starts : ∃ char rest, token.text = char :: rest ∧ isBlank char = false ∧
    (text ++ ['\x00'])[token.offset]? = some char

theorem IsToken.nonempty {text : WString} {token : Token}
    (htoken : IsToken text token) : token.text ≠ [] := by
  rcases htoken.starts with ⟨char, rest, htext, _⟩
  rw [htext]
  exact List.cons_ne_nil _ _

structure LineData (text : WString) (line : Line) : Prop where
  same : line.text = text
  pos : line.parsePos ≤ text.length + 1
  tokens : ∀ token ∈ line.tokens, IsToken text token
  -- only a later token can be the terminator
  first : ∀ token, line.tokens[0]? = some token →
    token.offset + token.text.length ≤ text.length
  lineEndTokens : ∀ token ∈ line.lineEndTokens, IsToken text token

/-- No token starts with a blank, and every token has taken at least one
character. -/
def StartsAt (text : WString) (line : Line) (start : ℕ) : Prop :=
  line.tokens.length ≤ start ∧
    ∀ char, text[start]? = some char → isBlank char = false

structure LineInv (text : WString) (line : Line) : Prop
    extends LineData text line where
  starts : StartsAt text line line.parsePos

def Scanning (text : WString) (line : Line) : Option ℕ → Prop
  | some start =>
      StartsAt text line start ∧ start ≤ line.parsePos ∧
        (line.parsePos = start ∨ line.parsePos ≤ text.length)
  | none =>
      line.tokens.length ≤ line.parsePos ∧ line.parsePos ≤ text.length ∧
        line.tokens ≠ []

theorem isBlank_after_blanks {text : WString} {char : Char}
    (hchar : text[(text.takeWhile isBlank).length]? = some char) :
    isBlank char = false := by
  induction text with
  | nil => simp at hchar
  | cons first text ih =>
      cases hfirst : isBlank first
      · rw [List.takeWhile_cons_of_neg (by simp [hfirst])] at hchar
        have hsame : first = char := by simpa using hchar
        rw [← hsame]
        exact hfirst
      · rw [List.takeWhile_cons_of_pos hfirst] at hchar
        apply ih
        simpa using hchar

theorem Line.make_inv (text : WString) (trailing : Option ℕ) :
    LineInv text (Line.make text trailing) := by
  have hpos : (text.takeWhile isBlank).length ≤ text.length :=
    (List.takeWhile_prefix isBlank).length_le
  refine ⟨⟨rfl, Nat.le_succ_of_le hpos, ?_, ?_, ?_⟩, Nat.zero_le _, ?_⟩
  · intro token hmem
    cases hmem
  · intro token htoken
    cases htoken
  · intro token hmem
    cases hmem
  · intro char hchar
    exact isBlank_after_blanks hchar

variable {text : WString} {line : Line}

theorem LineData.view (hline : LineData text line) {start len : ℕ}
    (hlen : 0 < len) (hinside : start + len ≤ text.length + 1)
    (hstart : ∀ char, text[start]? = some char → isBlank char = false) :
    ∃ token, line.view start len = some token ∧ IsToken text token ∧
      token.offset + token.text.length ≤ start + len := by
  have hfits : start + len ≤ line.cStr.length := by
    simpa [Line.cStr, hline.same] using hinside
  have hlt : start < (text ++ ['\x00']).length := by
    rw [List.length_append]
    simp only [List.length_singleton]
    omega
  have hsize : start + ((line.cStr.drop start).take len).length ≤
      start + len :=
    Nat.add_le_add_left (List.length_take_le _ _) _
  refine ⟨⟨start, (line.cStr.drop start).take len⟩, ?_,
    ⟨hsize.trans hinside, ?_⟩, hsize⟩
  · unfold Line.view
    rw [if_pos hfits]
  · refine ⟨(text ++ ['\x00'])[start],
      ((text ++ ['\x00']).drop (start + 1)).take (len - 1), ?_, ?_,
      List.getElem?_eq_getElem hlt⟩
    · change (line.cStr.drop start).take len = _
      rw [Line.cStr, hline.same, List.drop_eq_getElem_cons hlt]
      obtain ⟨rest, rfl⟩ : ∃ rest, len = rest + 1 := ⟨len - 1, by omega⟩
      rfl
    · by_cases hstop : start < text.length
      · rw [List.getElem_append_left hstop]
        exact hstart _ (List.getElem?_eq_getElem hstop)
      · have hend : start = text.length := by
          rw [List.length_append, List.length_singleton] at hlt
          omega
        subst hend
        simp [isBlank]

theorem LineData.push (hline : LineData text line) {token : Token}
    (htoken : IsToken text token)
    (hfirst : line.tokens = [] →
      token.offset + token.text.length ≤ text.length) :
    LineData text (line.push token) := by
  refine ⟨hline.same, hline.pos, ?_, ?_, hline.lineEndTokens⟩
  · intro other hmem
    rcases List.mem_append.mp hmem with hold | hnew
    · exact hline.tokens other hold
    · rw [List.mem_singleton.mp hnew]
      exact htoken
  · intro other hother
    change (line.tokens ++ [token])[0]? = some other at hother
    cases htokens : line.tokens with
    | nil =>
        rw [htokens] at hother
        rw [← Option.some.inj hother]
        exact hfirst htokens
    | cons head tail =>
        apply hline.first
        rw [htokens] at hother ⊢
        exact hother

theorem LineData.moveTo (hline : LineData text line) {pos : ℕ}
    (hpos : pos ≤ text.length + 1) :
    LineData text { line with parsePos := pos } :=
  ⟨hline.same, hpos, hline.tokens, hline.first, hline.lineEndTokens⟩

theorem Scanning.push {start : ℕ} (hline : LineData text line)
    (hscan : Scanning text line (some start)) (hmoved : line.parsePos ≠ start) :
    ∃ token, line.view start (line.parsePos - start) = some token ∧
      LineData text (line.push token) ∧
      (line.push token).tokens.length ≤ line.parsePos ∧
      line.parsePos ≤ text.length := by
  rcases hscan with ⟨⟨hfew, hstart⟩, hle, hpos⟩
  have hbound : line.parsePos ≤ text.length := by
    rcases hpos with heq | hbound
    · exact absurd heq hmoved
    · exact hbound
  rcases hline.view (by omega : 0 < line.parsePos - start) (by omega) hstart
    with ⟨token, hview, htoken, hsize⟩
  refine ⟨token, hview, hline.push htoken fun _ => by omega, ?_, hbound⟩
  change (line.tokens ++ [token]).length ≤ line.parsePos
  rw [List.length_append, List.length_singleton]
  omega

theorem Line.scan_inv (n : ℕ) (chars : WString) (start : Option ℕ)
    (line : Line) (hline : LineData text line)
    (hscan : Scanning text line start)
    (hchars : text.drop line.parsePos = chars) :
    ∃ after, line.scan n chars start = some after ∧ LineInv text after := by
  induction chars generalizing start line with
  | nil =>
      have hend : text.length ≤ line.parsePos := List.drop_eq_nil_iff.mp hchars
      have hnone : ∀ {pos : ℕ}, line.parsePos ≤ pos → text[pos]? = none :=
        fun hpos => List.getElem?_eq_none (hend.trans hpos)
      cases start with
      | none =>
          unfold Line.scan
          by_cases hn : n < line.tokens.length
          · rw [if_pos hn]
            refine ⟨line, rfl, hline, hscan.1, ?_⟩
            simp [hnone le_rfl]
          · rw [if_neg hn]
            have hpos : line.parsePos = text.length :=
              le_antisymm hscan.2.1 hend
            rcases hline.view Nat.one_pos (by omega : line.parsePos + 1 ≤ _)
              (by simp [hnone le_rfl]) with ⟨token, hview, htoken, _⟩
            rw [hview]
            have hpush := hline.push htoken fun h => absurd h hscan.2.2
            refine ⟨_, rfl, hpush.moveTo (by omega), ?_, ?_⟩
            · change (line.tokens ++ [token]).length ≤ line.parsePos + 1
              rw [List.length_append, List.length_singleton]
              exact Nat.succ_le_succ hscan.1
            · simp [hnone (Nat.le_succ _)]
      | some start =>
          unfold Line.scan
          by_cases hmoved : line.parsePos = start
          · rw [if_neg (not_not.mpr hmoved)]
            refine ⟨line, rfl, hline, ?_⟩
            rw [hmoved]
            exact hscan.1
          · rw [if_pos hmoved]
            rcases hscan.push hline hmoved with ⟨token, hview, hpush, hfew, _⟩
            rw [hview]
            refine ⟨_, rfl, hpush, hfew, ?_⟩
            change ∀ char, text[line.parsePos]? = some char → _
            simp [hnone le_rfl]
  | cons char chars ih =>
      have hlt : line.parsePos < text.length := by
        by_contra hge
        rw [List.drop_eq_nil_of_le (not_lt.mp hge)] at hchars
        cases hchars
      have hchar : text[line.parsePos]? = some char := by
        rw [← List.head?_drop, hchars]
        rfl
      have hrest : text.drop (line.parsePos + 1) = chars := by
        rw [← List.tail_drop, hchars]
        rfl
      cases start with
      | none =>
          unfold Line.scan
          by_cases hblank : isBlank char
          · rw [if_pos hblank]
            apply ih none _ (hline.moveTo (by omega)) _ hrest
            exact ⟨Nat.le_succ_of_le hscan.1, hlt, hscan.2.2⟩
          · have hstarts : StartsAt text line line.parsePos := by
              refine ⟨hscan.1, ?_⟩
              intro other hother
              rw [hchar] at hother
              rw [← Option.some.inj hother]
              simpa using hblank
            rw [if_neg hblank]
            by_cases hn : n < line.tokens.length
            · rw [if_pos hn]
              exact ⟨line, rfl, hline, hstarts⟩
            · rw [if_neg hn]
              apply ih _ _ (hline.moveTo (by omega)) _ hrest
              exact ⟨hstarts, Nat.le_succ _, Or.inr hlt⟩
      | some start =>
          unfold Line.scan
          by_cases hblank : isBlank char
          · have hmoved : line.parsePos ≠ start := by
              intro heq
              have hclear := hscan.1.2 char (heq ▸ hchar)
              rw [hclear] at hblank
              cases hblank
            rw [if_pos hblank]
            rcases hscan.push hline hmoved with ⟨token, hview, hpush, hfew, _⟩
            rw [hview]
            apply ih none _ (hpush.moveTo (by omega)) _ hrest
            exact ⟨Nat.le_succ_of_le hfew, hlt, by simp [Line.push]⟩
          · rw [if_neg hblank]
            apply ih _ _ (hline.moveTo (by omega)) _ hrest
            exact ⟨hscan.1, Nat.le_succ_of_le hscan.2.1, Or.inr hlt⟩

theorem LineInv.scan (hline : LineInv text line) (n : ℕ) :
    ∃ after, line.scan n (line.text.drop line.parsePos) (some line.parsePos) =
      some after ∧ LineInv text after := by
  rw [hline.same]
  exact Line.scan_inv n _ _ line hline.toLineData
    ⟨hline.starts, le_rfl, Or.inl rfl⟩ rfl

def OnLine (text : WString) (state : ParseState) : Prop :=
  LineInv text state.line

/-- The outcome of `GetToken`. -/
def IsTokenOrNone (text : WString) (token : Token) : Prop :=
  token.text ≠ [] → IsToken text token

theorem isTokenOrNone_noToken : IsTokenOrNone text noToken :=
  fun hne => absurd rfl hne

theorem getToken_spec (n : ℕ) :
    Spec (OnLine text) (getToken n) (IsTokenOrNone text) := by
  intro state hstate
  unfold getToken
  cases htoken : state.line.tokens[n]? with
  | some token =>
      exact ⟨hstate, fun _ =>
        hstate.tokens token (List.mem_of_getElem? htoken)⟩
  | none =>
      rcases LineInv.scan hstate n with ⟨after, hscan, hafter⟩
      simp only [hscan]
      refine ⟨hafter, ?_⟩
      cases hfound : after.tokens[n]? with
      | none => exact isTokenOrNone_noToken
      | some token =>
          exact fun _ => hafter.tokens token (List.mem_of_getElem? hfound)

theorem getToken_bound (n : ℕ) :
    Spec (OnLine text) (getToken n) fun token =>
      token.text ≠ [] → n ≤ text.length := by
  intro state hstate
  have hbound {line : Line} {token : Token} (hline : LineInv text line)
      (htoken : line.tokens[n]? = some token) : n ≤ text.length := by
    have hlt := (List.getElem?_eq_some_iff.mp htoken).1
    have hfew := hline.starts.1
    have hpos := hline.pos
    omega
  unfold getToken
  cases htoken : state.line.tokens[n]? with
  | some token => exact ⟨hstate, fun _ => hbound hstate htoken⟩
  | none =>
      rcases LineInv.scan hstate n with ⟨after, hscan, hafter⟩
      simp only [hscan]
      refine ⟨hafter, ?_⟩
      cases hfound : after.tokens[n]? with
      | none => exact fun hne => absurd rfl hne
      | some token => exact fun _ => hbound hafter hfound

theorem Spec.needed {attempt : Parse Token}
    (hattempt : Spec (OnLine text) attempt (IsTokenOrNone text)) :
    Spec (OnLine text)
      (do
        let token ← attempt
        require (!token.text.isEmpty)
        pure token)
      (IsToken text) := by
  apply Spec.bind hattempt
  intro token htoken
  apply Spec.bind (Spec.require _)
  intro _ hthere
  apply Spec.pure
  apply htoken
  simpa using hthere

theorem needToken_spec (n : ℕ) :
    Spec (OnLine text) (needToken n) (IsToken text) :=
  Spec.needed (getToken_spec n)

theorem Line.fillEndTokens_inv (tokens : List Token) (line : Line)
    (hline : LineInv text line)
    (htokens : ∀ token ∈ tokens, IsToken text token) :
    ∃ after early, line.fillEndTokens tokens = some (after, early) ∧
      LineInv text after ∧
      (early = false →
        after.lineEndTokens.length =
          line.lineEndTokens.length + tokens.length) := by
  induction tokens generalizing line with
  | nil => exact ⟨line, false, rfl, hline, fun _ => rfl⟩
  | cons token tokens ih =>
      unfold Line.fillEndTokens
      by_cases hshort :
          line.text.length ≤ token.offset + line.trailing
      · rw [if_pos hshort]
        exact ⟨line, true, rfl, hline, fun h => by cases h⟩
      · rw [if_neg hshort]
        have htoken := htokens token List.mem_cons_self
        have hlen : line.text.length = text.length := by rw [hline.same]
        rcases hline.toLineData.view
            (by omega : 0 < line.text.length - token.offset - line.trailing)
            (by omega : token.offset + _ ≤ _) (by
              intro char hchar
              rcases htoken.starts with ⟨other, _, _, hblank, hother⟩
              have hlt := (List.getElem?_eq_some_iff.mp hchar).1
              rw [List.getElem?_append_left hlt, hchar] at hother
              rw [Option.some.inj hother]
              exact hblank)
          with ⟨endToken, hview, hendToken, _⟩
        rw [hview]
        have hnext : LineInv text
            { line with
              lineEndTokens := line.lineEndTokens ++ [endToken] } := by
          refine ⟨⟨hline.same, hline.pos, hline.tokens, hline.first, ?_⟩,
            hline.starts⟩
          intro other hmem
          rcases List.mem_append.mp hmem with hold | hnew
          · exact hline.lineEndTokens other hold
          · rw [List.mem_singleton.mp hnew]
            exact hendToken
        rcases ih _ hnext (fun other hmem =>
            htokens other (List.mem_cons_of_mem _ hmem))
          with ⟨after, early, hfill, hafter, hlength⟩
        refine ⟨after, early, hfill, hafter, ?_⟩
        intro hearly
        rw [hlength hearly]
        simp only [List.length_append, List.length_cons, List.length_nil]
        omega

theorem fillTokens_spec (n : ℕ) (state : ParseState)
    (hstate : OnLine text state) :
    ∃ found after, fillTokens n state = .success found after ∧
      OnLine text after ∧ (found = true → n < after.line.tokens.length) := by
  by_cases hn : n < state.line.tokens.length
  · refine ⟨true, state, ?_, hstate, fun _ => hn⟩
    change (if n < state.line.tokens.length then _ else _ : Parse Bool) state = _
    rw [if_pos hn]
    rfl
  · have hrun : fillTokens n state =
        (do
          let token ← getToken n
          pure (!token.text.isEmpty) : Parse Bool) state := by
      change (if n < state.line.tokens.length then _ else _ : Parse Bool)
        state = _
      rw [if_neg hn]
    have hnone : state.line.tokens[n]? = none :=
      List.getElem?_eq_none (not_lt.mp hn)
    rcases LineInv.scan hstate n with ⟨line, hscan, hline⟩
    have htoken : getToken n state =
        .success (line.tokens[n]?.getD noToken)
          { state with line := line } := by
      unfold getToken
      simp only [hnone, hscan]
    rw [hrun, Attempt.bind_of_success htoken]
    refine ⟨_, _, rfl, hline, ?_⟩
    intro hfound
    by_contra hge
    rw [List.getElem?_eq_none (not_lt.mp hge)] at hfound
    cases hfound

theorem newEndToken_spec (n : ℕ) (state : ParseState)
    (hstate : OnLine text state) (hn : n < state.line.tokens.length) :
    ∃ token after, newEndToken n state = .success token after ∧
      OnLine text after ∧ IsTokenOrNone text token := by
  rcases Line.fillEndTokens_inv
      ((state.line.tokens.take (n + 1)).drop state.line.lineEndTokens.length)
      { state.line with trailingWhitespace := some state.line.trailing }
      ⟨⟨hstate.same, hstate.pos, hstate.tokens, hstate.first,
        hstate.lineEndTokens⟩, hstate.starts⟩
      (fun token hmem => hstate.tokens token
        (List.mem_of_mem_take (List.mem_of_mem_drop hmem)))
    with ⟨line, early, hfill, hline, hlength⟩
  unfold newEndToken
  simp only [hfill]
  cases early with
  | true => exact ⟨_, _, rfl, hline, isTokenOrNone_noToken⟩
  | false =>
      have hthere : n < line.lineEndTokens.length := by
        rw [hlength rfl, List.length_drop, List.length_take]
        change n < state.line.lineEndTokens.length + _
        omega
      simp only [List.getElem?_eq_getElem hthere]
      exact ⟨_, _, rfl, hline, fun _ =>
        hline.lineEndTokens _ (List.getElem_mem hthere)⟩

theorem getEndToken_success (n : ℕ) (state : ParseState)
    (hstate : OnLine text state) :
    ∃ token after, getEndToken n state = .success token after ∧
      OnLine text after ∧ IsTokenOrNone text token := by
  have hread : (read ParseState.line : Parse Line) state =
      .success state.line state := rfl
  unfold getEndToken
  rw [Attempt.bind_of_success hread]
  cases hold : state.line.lineEndTokens[n]? with
  | some token =>
      exact ⟨token, state, rfl, hstate, fun _ =>
        hstate.lineEndTokens token (List.mem_of_getElem? hold)⟩
  | none =>
      rcases fillTokens_spec n state hstate
        with ⟨found, after, hfill, hafter, hthere⟩
      simp only [Attempt.bind_of_success hfill]
      cases found with
      | false => exact ⟨noToken, after, rfl, hafter, isTokenOrNone_noToken⟩
      | true => exact newEndToken_spec n after hafter (hthere rfl)

theorem getEndToken_spec (n : ℕ) :
    Spec (OnLine text) (getEndToken n) (IsTokenOrNone text) := by
  intro state hstate
  rcases getEndToken_success n state hstate
    with ⟨token, after, hrun, hafter, htoken⟩
  rw [hrun]
  exact ⟨hafter, htoken⟩

theorem needEndToken_spec (n : ℕ) :
    Spec (OnLine text) (needEndToken n) (IsToken text) :=
  Spec.needed (getEndToken_spec n)

theorem needToken_bound (n : ℕ) :
    Spec (OnLine text) (needToken n) fun _ => n ≤ text.length := by
  apply Spec.bind (getToken_bound n)
  intro token hbound
  apply Spec.bind (Spec.require _)
  intro _ hthere
  exact Spec.pure (hbound (by simpa using hthere))

theorem getFirstToken_spec :
    Spec (OnLine text) (getToken 0) fun token =>
      token.text ≠ [] →
        token.offset + token.text.length ≤ text.length := by
  intro state hstate
  unfold getToken
  cases htoken : state.line.tokens[0]? with
  | some token => exact ⟨hstate, fun _ => hstate.first token htoken⟩
  | none =>
      rcases LineInv.scan hstate 0 with ⟨after, hscan, hafter⟩
      simp only [hscan]
      refine ⟨hafter, ?_⟩
      cases hfound : after.tokens[0]? with
      | none => exact fun hne => absurd rfl hne
      | some token => exact fun _ => hafter.first token hfound

theorem getEndTokenWithWhitespace_spec :
    Spec (OnLine text) (getEndTokenWithWhitespace 1) fun _ => True := by
  unfold getEndTokenWithWhitespace
  apply Spec.bind getFirstToken_spec
  intro ref href
  apply Spec.ite
  · intro _
    exact Spec.pure trivial
  · intro hne
    have hinside := href (by simpa using hne)
    have hread : Spec (OnLine text) (read ParseState.line) fun line =>
        line.text = text :=
      Spec.read fun state hstate => LineData.same hstate.toLineData
    apply Spec.bind hread
    intro line hline
    have hsize : line.cStr.length = line.text.length + 1 := by
      rw [Line.cStr, List.length_append, List.length_singleton]
    apply Spec.bind (Spec.inRange _)
    · intro _ _
      apply Spec.ite
      · intro _
        exact Spec.pure trivial
      · intro hshort
        have hview : ∃ token, line.view (ref.offset + ref.text.length + 1)
            (line.text.length - (ref.offset + ref.text.length + 1)) =
              some token ∧ True := by
          unfold Line.view
          rw [if_pos (by omega)]
          exact ⟨_, rfl, trivial⟩
        exact Spec.ofOption hview
    · rw [decide_eq_true_iff, hsize, hline]
      omega

end TabFtp
