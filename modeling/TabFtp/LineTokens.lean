import TabFtp.ListingLine

/-!
# The tokens of a line in any order

The tokens of a line should be its runs of characters that are not blank,
whatever was asked before.  The loop of `GetToken` makes one step too many
when the line ends while blanks are skipped.
-/

namespace TabFtp

open CheckedAttempts Attempt

/-! ## The runs of a line -/

/-- The maximal runs of characters that are not blank, with the run that has
been begun in front of them. -/
def runsFrom : WString → ℕ → Option Token → List Token
  | [], _, current => current.toList
  | char :: chars, pos, current =>
      if isBlank char then current.toList ++ runsFrom chars (pos + 1) none
      else
        runsFrom chars (pos + 1)
          (some
            { offset := (current.map Token.offset).getD pos
              text := (current.map Token.text).getD [] ++ [char] })

def lineRuns (text : WString) : List Token :=
  runsFrom text 0 none

def EndsBlank (text : WString) : Prop :=
  text.getLast?.any isBlank = true

/-- There are no blanks at the end, except on a line of blanks. -/
def CleanEnd (text : WString) : Prop :=
  lineRuns text = [] ∨ ¬ EndsBlank text

/-! ## Calls -/

/-- What a format may ask of a line. -/
inductive LineCall
  | token (n : ℕ)
  | endToken (n : ℕ)
  | endTokenWithWhitespace (n : ℕ)

def LineCall.perform : LineCall → Parse Token
  | .token n => getToken n
  | .endToken n => getEndToken n
  | .endTokenWithWhitespace n => getEndTokenWithWhitespace n

def performAll : List LineCall → ParseState → Option ParseState
  | [], state => some state
  | call :: calls, state =>
      match call.perform state with
      | .success _ after => performAll calls after
      | _ => none

/-- Every token is a run of the line and there are as many, whatever has been
asked before. -/
structure TokensAreRuns (text : WString) (start : ParseState) : Prop where
  runs : ∀ (calls : List LineCall) (n : ℕ), ∃ state after,
    performAll calls start = some state ∧
      getToken n state = .success ((lineRuns text)[n]?.getD noToken) after
  count : ∀ (calls others : List LineCall) (m : ℕ) {state other after last}
    {token another : Token}, (lineRuns text).length ≤ m →
    performAll calls start = some state →
    performAll others start = some other →
    getToken m state = .success token after →
    getToken m other = .success another last →
    after.line.tokens.length = last.line.tokens.length

structure OnRuns (text : WString) (state : ParseState) : Prop where
  sound : OnLine text state
  inside : state.line.parsePos ≤ text.length
  runs : state.line.tokens ++ runsFrom (text.drop state.line.parsePos)
    state.line.parsePos none = lineRuns text

variable {text : WString} {line after : Line} {state : ParseState}

/-! ## A new line -/

theorem runsFrom_dropWhile (text : WString) (pos : ℕ) :
    runsFrom (text.dropWhile isBlank)
        (pos + (text.takeWhile isBlank).length) none =
      runsFrom text pos none := by
  induction text generalizing pos with
  | nil => rfl
  | cons char chars ih =>
      cases hblank : isBlank char with
      | true =>
          have hrest := ih (pos + 1)
          rw [List.dropWhile_cons_of_pos hblank,
            List.takeWhile_cons_of_pos hblank, List.length_cons,
            runsFrom, if_pos hblank, ← hrest]
          simp [Nat.add_comm, Nat.add_left_comm]
      | false =>
          rw [List.dropWhile_cons_of_neg (by simp [hblank]),
            List.takeWhile_cons_of_neg (by simp [hblank])]
          rfl

theorem onRuns_make (text : WString) (trailing : Option ℕ)
    (entry : DirectoryEntry) :
    OnRuns text ⟨Line.make text trailing, entry⟩ := by
  have hdrop : text.drop (text.takeWhile isBlank).length =
      text.dropWhile isBlank := by
    have hsplit : text.takeWhile isBlank ++ text.dropWhile isBlank = text :=
      List.takeWhile_append_dropWhile
    have hleft : (text.takeWhile isBlank ++ text.dropWhile isBlank).drop
        (text.takeWhile isBlank).length = text.dropWhile isBlank :=
      List.drop_left
    rwa [hsplit] at hleft
  refine ⟨Line.make_inv text trailing,
    (List.takeWhile_prefix isBlank).length_le, ?_⟩
  have hruns := runsFrom_dropWhile text 0
  rw [Nat.zero_add] at hruns
  change [] ++ runsFrom (text.drop (text.takeWhile isBlank).length)
    (text.takeWhile isBlank).length none = _
  rw [hdrop, List.nil_append, hruns]
  rfl

/-! ## One search -/

def currentRun (line : Line) : Option ℕ → Option Token
  | none => none
  | some start =>
      if line.parsePos = start then none
      else some ⟨start, (line.cStr.drop start).take (line.parsePos - start)⟩

def PassedLast (text : WString) (line : Line) : Option ℕ → Prop
  | none => ∃ char, 0 < line.parsePos ∧
      text[line.parsePos - 1]? = some char ∧ isBlank char = true
  | some start => start ≤ line.parsePos ∧
      (∀ char, text[start]? = some char → isBlank char = false) ∧
      (start < line.parsePos → ∃ char,
        text[line.parsePos - 1]? = some char ∧ isBlank char = false)

def SearchEnds (text : WString) (n : ℕ) (unread : Prop) (after : Line) :
    Prop :=
  after.text = text ∧
    ((after.parsePos ≤ text.length ∧
        after.tokens ++ runsFrom (text.drop after.parsePos) after.parsePos
          none = lineRuns text ∧
        (n < after.tokens.length ∨
          after.tokens = lineRuns text ∧ (¬ EndsBlank text ∨ unread))) ∨
      EndsBlank text ∧ lineRuns text ≠ [] ∧ (lineRuns text).length ≤ n ∧
        after.tokens = lineRuns text ++ [⟨text.length, ['\x00']⟩])

theorem currentRun_step {char : Char} {chars : WString} {start : ℕ}
    (hsame : line.text = text)
    (hchars : text.drop line.parsePos = char :: chars)
    (hstart : start ≤ line.parsePos) :
    currentRun { line with parsePos := line.parsePos + 1 } (some start) =
      some
        { offset :=
            ((currentRun line (some start)).map Token.offset).getD
              line.parsePos
          text :=
            ((currentRun line (some start)).map Token.text).getD [] ++
              [char] } := by
  have hhere : line.cStr[line.parsePos]? = some char := by
    have hchar : text[line.parsePos]? = some char := by
      rw [← List.head?_drop, hchars]
      rfl
    have hlt := (List.getElem?_eq_some_iff.mp hchar).1
    rw [Line.cStr, hsame, List.getElem?_append_left hlt, hchar]
  have htake : (line.cStr.drop start).take (line.parsePos + 1 - start) =
      (line.cStr.drop start).take (line.parsePos - start) ++ [char] := by
    have hnext : line.parsePos + 1 - start = line.parsePos - start + 1 := by
      omega
    have hthere : (line.cStr.drop start)[line.parsePos - start]? =
        some char := by
      rw [List.getElem?_drop]
      rwa [Nat.add_sub_cancel' hstart]
    rw [hnext, List.take_add_one, hthere]
    rfl
  simp only [currentRun]
  rw [if_neg (by omega)]
  by_cases hfirst : line.parsePos = start
  · rw [if_pos hfirst]
    have hnone : line.parsePos - start = 0 := by omega
    rw [hnone, List.take_zero, List.nil_append] at htake
    simp only [Option.map_none, Option.getD_none, List.nil_append,
      Option.some.injEq, Token.mk.injEq]
    exact ⟨hfirst.symm, htake⟩
  · rw [if_neg hfirst]
    simp only [Option.map_some, Option.getD_some, Option.some.injEq,
      Token.mk.injEq, true_and]
    exact htake

theorem scan_runs (n : ℕ) (chars : WString) (start : Option ℕ) (line : Line)
    (hsame : line.text = text) (hchars : text.drop line.parsePos = chars)
    (hinside : line.parsePos ≤ text.length)
    (hruns : line.tokens ++
      runsFrom chars line.parsePos (currentRun line start) = lineRuns text)
    (hlast : PassedLast text line start)
    (hfound : start = none → line.tokens ≠ [])
    (hscan : line.scan n chars start = some after) :
    SearchEnds text n (start = some line.parsePos ∧ chars = []) after := by
  induction chars generalizing start line with
  | nil =>
      have hend : line.parsePos = text.length :=
        le_antisymm hinside (List.drop_eq_nil_iff.mp hchars)
      have hlastChar : ∀ {char}, 0 < line.parsePos →
          text[line.parsePos - 1]? = some char →
          (EndsBlank text ↔ isBlank char = true) := by
        intro char hpos hchar
        rw [EndsBlank, List.getLast?_eq_getElem?, ← hend, hchar]
        rfl
      cases start with
      | none =>
          obtain ⟨char, hpos, hchar, hblank⟩ := hlast
          have hends : EndsBlank text := (hlastChar hpos hchar).mpr hblank
          have hall : line.tokens = lineRuns text := by
            simpa [currentRun, runsFrom] using hruns
          unfold Line.scan at hscan
          split at hscan
          · rename_i hn
            cases hscan
            refine ⟨hsame, .inl ⟨hinside, ?_, .inl hn⟩⟩
            rw [hchars]
            simpa [runsFrom] using hall
          · rename_i hn
            obtain ⟨token, hview, rfl⟩ := Option.map_eq_some_iff.mp hscan
            have htoken : token = ⟨text.length, ['\x00']⟩ := by
              unfold Line.view at hview
              split at hview
              · rw [← Option.some.inj hview, Line.cStr, hsame, hend]
                simp
              · contradiction
            refine ⟨hsame, .inr ⟨hends, ?_, ?_, ?_⟩⟩
            · rw [← hall]
              exact hfound rfl
            · rw [← hall]
              omega
            · rw [← hall, ← htoken]
              rfl
      | some start =>
          obtain ⟨hle, -, hchar⟩ := hlast
          unfold Line.scan at hscan
          split at hscan
          · rename_i hmoved
            obtain ⟨token, hview, rfl⟩ := Option.map_eq_some_iff.mp hscan
            obtain ⟨char, hchar, hblank⟩ := hchar (by omega)
            have hclean : ¬ EndsBlank text := by
              rw [hlastChar (by omega) hchar, hblank]
              decide
            have hall : line.tokens ++ [token] = lineRuns text := by
              unfold Line.view at hview
              split at hview
              · rw [← hruns, ← Option.some.inj hview]
                simp [currentRun, hmoved, runsFrom]
              · contradiction
            refine ⟨hsame, .inl ⟨hinside, ?_, .inr ⟨hall, .inl hclean⟩⟩⟩
            change (line.tokens ++ [token]) ++ runsFrom
              (text.drop line.parsePos) line.parsePos none = _
            rw [hall, hchars]
            simp [runsFrom]
          · rename_i hstill
            have hafter := Option.some.inj hscan
            subst hafter
            have hthere : line.parsePos = start := not_not.mp hstill
            have hall : line.tokens = lineRuns text := by
              simpa [currentRun, hthere, runsFrom] using hruns
            refine ⟨hsame, .inl ⟨hinside, ?_, .inr ⟨hall, .inr ?_⟩⟩⟩
            · rw [hchars]
              simpa [runsFrom] using hall
            · rw [hthere]
              exact ⟨rfl, rfl⟩
  | cons char chars ih =>
      have hchar : text[line.parsePos]? = some char := by
        rw [← List.head?_drop, hchars]
        rfl
      have hlt : line.parsePos < text.length :=
        (List.getElem?_eq_some_iff.mp hchar).1
      have hrest : text.drop (line.parsePos + 1) = chars := by
        rw [← List.tail_drop, hchars]
        rfl
      have hpassed : text[line.parsePos + 1 - 1]? = some char := by
        rwa [Nat.add_sub_cancel]
      have hweaken : ∀ {unread : Prop} {other : Line}, ¬ unread →
          SearchEnds text n unread other →
          SearchEnds text n (start = some line.parsePos ∧
            char :: chars = []) other := by
        rintro unread other hread ⟨htext, hends | hends⟩
        · obtain ⟨hpos, hsplit, hn | ⟨hall, hclean⟩⟩ := hends
          · exact ⟨htext, .inl ⟨hpos, hsplit, .inl hn⟩⟩
          · exact ⟨htext, .inl ⟨hpos, hsplit,
              .inr ⟨hall, .inl (hclean.resolve_right hread)⟩⟩⟩
        · exact ⟨htext, .inr hends⟩
      cases start with
      | none =>
          unfold Line.scan at hscan
          cases hblank : isBlank char with
          | true =>
              rw [if_pos hblank] at hscan
              refine hweaken (by simp) (ih none
                { line with parsePos := line.parsePos + 1 } hsame hrest hlt ?_
                ⟨char, Nat.succ_pos _, hpassed, hblank⟩ hfound hscan)
              rw [← hruns, runsFrom, if_pos hblank]
              rfl
          | false =>
              rw [if_neg (by simp [hblank])] at hscan
              split at hscan
              · rename_i hn
                cases hscan
                refine ⟨hsame, .inl ⟨hinside, ?_, .inl hn⟩⟩
                rw [hchars]
                exact hruns
              · refine hweaken (by simp) (ih (some line.parsePos)
                  { line with parsePos := line.parsePos + 1 } hsame hrest hlt
                  ?_ ⟨Nat.le_succ _, ?_, fun _ => ⟨char, hpassed, hblank⟩⟩
                  (by simp) hscan)
                · rw [currentRun_step hsame hchars (le_refl _), ← hruns,
                    runsFrom, if_neg (by simp [hblank])]
                  simp [currentRun]
                · intro other hother
                  rw [hchar] at hother
                  rw [← Option.some.inj hother]
                  exact hblank
      | some start =>
          obtain ⟨hle, hstarts, -⟩ := hlast
          unfold Line.scan at hscan
          cases hblank : isBlank char with
          | true =>
              have hmoved : line.parsePos ≠ start := by
                intro hsame
                rw [hstarts char (hsame ▸ hchar)] at hblank
                contradiction
              rw [if_pos hblank] at hscan
              split at hscan
              · contradiction
              · rename_i token hview
                have htoken : token =
                    ⟨start, (line.cStr.drop start).take
                      (line.parsePos - start)⟩ := by
                  unfold Line.view at hview
                  split at hview
                  · exact (Option.some.inj hview).symm
                  · contradiction
                refine hweaken (by simp) (ih none
                  { line.push token with parsePos := line.parsePos + 1 }
                  hsame hrest hlt ?_
                  ⟨char, Nat.succ_pos _, hpassed, hblank⟩
                  (by simp [Line.push]) hscan)
                rw [← hruns, runsFrom, if_pos hblank]
                simp [currentRun, hmoved, htoken, Line.push]
          | false =>
              rw [if_neg (by simp [hblank])] at hscan
              refine hweaken ?_ (ih (some start)
                { line with parsePos := line.parsePos + 1 } hsame hrest hlt
                ?_ ⟨Nat.le_succ_of_le hle, hstarts,
                  fun _ => ⟨char, hpassed, hblank⟩⟩ (by simp) hscan)
              · rintro ⟨hsomewhere, -⟩
                have hequal := Option.some.inj hsomewhere
                simp only at hequal
                omega
              · rw [currentRun_step hsame hchars hle, ← hruns, runsFrom,
                  if_neg (by simp [hblank])]

/-- A search that starts where the search before it has ended. -/
theorem OnRuns.scan (hstate : OnRuns text state) (n : ℕ)
    (hscan : state.line.scan n (state.line.text.drop state.line.parsePos)
      (some state.line.parsePos) = some after) :
    SearchEnds text n (text.drop state.line.parsePos = []) after := by
  have hsame := hstate.sound.same
  rw [hsame] at hscan
  have hends := scan_runs n _ (some state.line.parsePos) state.line hsame rfl
    hstate.inside (by simpa [currentRun] using hstate.runs)
    ⟨le_refl _, hstate.sound.starts.2, fun hlt => absurd hlt (lt_irrefl _)⟩
    (by simp) hscan
  simpa using hends

/-! ## Lines without blanks at the end -/

theorem OnRuns.token_eq {token : Token} {n : ℕ} (hstate : OnRuns text state)
    (htoken : state.line.tokens[n]? = some token) :
    (lineRuns text)[n]? = some token := by
  have hlt := (List.getElem?_eq_some_iff.mp htoken).1
  rw [← hstate.runs, List.getElem?_append_left hlt]
  exact htoken

theorem OnRuns.tokens_le (hstate : OnRuns text state) :
    state.line.tokens.length ≤ (lineRuns text).length := by
  rw [← hstate.runs, List.length_append]
  exact Nat.le_add_right _ _

/-- The tokens are the runs without blanks. -/
theorem getToken_runs (hclean : CleanEnd text) (hstate : OnRuns text state)
    (n : ℕ) :
    ∃ after, getToken n state =
        .success ((lineRuns text)[n]?.getD noToken) after ∧
      OnRuns text after ∧
      ((lineRuns text).length ≤ n → after.line.tokens = lineRuns text) := by
  have hfew := hstate.tokens_le
  unfold getToken
  cases htoken : state.line.tokens[n]? with
  | some token =>
      have hlt := (List.getElem?_eq_some_iff.mp htoken).1
      rw [hstate.token_eq htoken]
      exact ⟨state, rfl, hstate, fun hn => by omega⟩
  | none =>
      obtain ⟨line, hscan, hline⟩ := LineInv.scan hstate.sound n
      simp only [hscan]
      obtain ⟨hsame, ⟨hinside, hruns, hfound⟩ | ⟨hends, hsome, -, -⟩⟩ :=
        hstate.scan n hscan
      · have hafter : OnRuns text { state with line := line } :=
          ⟨hline, hinside, hruns⟩
        have hvalue : line.tokens[n]?.getD noToken =
            (lineRuns text)[n]?.getD noToken := by
          cases hthere : line.tokens[n]? with
          | some token => rw [hafter.token_eq hthere]
          | none =>
              rcases hfound with hn | ⟨hall, -⟩
              · rw [List.getElem?_eq_getElem hn] at hthere
                contradiction
              · rw [← hall, hthere]
        rw [hvalue]
        refine ⟨_, rfl, hafter, ?_⟩
        intro hn
        rcases hfound with hless | ⟨hall, -⟩
        · have hbound := hafter.tokens_le
          change line.tokens.length ≤ _ at hbound
          omega
        · exact hall
      · rcases hclean with hnone | hclean
        · exact absurd hnone hsome
        · exact absurd hends hclean

theorem fillEndTokens_frame {tokens : List Token} {early : Bool}
    (line : Line) (hfill : line.fillEndTokens tokens = some (after, early)) :
    after.tokens = line.tokens ∧ after.parsePos = line.parsePos := by
  induction tokens generalizing line with
  | nil =>
      cases hfill
      exact ⟨rfl, rfl⟩
  | cons token tokens ih =>
      unfold Line.fillEndTokens at hfill
      split at hfill
      · cases hfill
        exact ⟨rfl, rfl⟩
      · split at hfill
        · contradiction
        · have hframe := ih _ hfill
          exact ⟨hframe.1, hframe.2⟩

theorem newEndToken_frame {n : ℕ} {token : Token} {last : ParseState}
    (hnew : newEndToken n state = .success token last) :
    last.line.tokens = state.line.tokens ∧
      last.line.parsePos = state.line.parsePos := by
  unfold newEndToken at hnew
  simp only at hnew
  split at hnew
  · contradiction
  · rename_i hfill
    cases hnew
    have hframe := fillEndTokens_frame _ hfill
    exact ⟨hframe.1, hframe.2⟩
  · rename_i hfill
    split at hnew
    · contradiction
    · cases hnew
      have hframe := fillEndTokens_frame _ hfill
      exact ⟨hframe.1, hframe.2⟩

theorem fillTokens_runs (hclean : CleanEnd text) (hstate : OnRuns text state)
    (n : ℕ) :
    ∃ found last, fillTokens n state = .success found last ∧
      OnRuns text last ∧ (found = true → n < last.line.tokens.length) := by
  obtain ⟨found, last, hfill, hlast, hthere⟩ :=
    fillTokens_spec n state hstate.sound
  refine ⟨found, last, hfill, ?_, hthere⟩
  have hread : (read ParseState.line : Parse Line) state =
      .success state.line state := rfl
  unfold fillTokens at hfill
  rw [bind_of_success hread] at hfill
  split at hfill
  · cases hfill
    exact hstate
  · obtain ⟨after, htoken, hafter, -⟩ := getToken_runs hclean hstate n
    rw [bind_of_success htoken] at hfill
    cases hfill
    exact hafter

theorem getEndToken_runs (hclean : CleanEnd text) (hstate : OnRuns text state)
    (n : ℕ) :
    ∃ token last, getEndToken n state = .success token last ∧
      OnRuns text last := by
  have hread : (read ParseState.line : Parse Line) state =
      .success state.line state := rfl
  unfold getEndToken
  rw [bind_of_success hread]
  cases hold : state.line.lineEndTokens[n]? with
  | some token => exact ⟨token, state, rfl, hstate⟩
  | none =>
      obtain ⟨found, mid, hfill, hmid, hthere⟩ :=
        fillTokens_runs hclean hstate n
      simp only [bind_of_success hfill]
      cases found with
      | false => exact ⟨noToken, mid, rfl, hmid⟩
      | true =>
          obtain ⟨token, last, hnew, hlast, -⟩ :=
            newEndToken_spec n mid hmid.sound (hthere rfl)
          obtain ⟨htokens, hpos⟩ := newEndToken_frame hnew
          refine ⟨token, last, hnew, hlast, ?_, ?_⟩
          · rw [hpos]
            exact hmid.inside
          · rw [htokens, hpos]
            exact hmid.runs

/-- Runs lie in the line. -/
theorem runsFrom_inside {chars : WString} {pos : ℕ} {current : Option Token}
    (hcurrent : ∀ run, current = some run →
      run.offset + run.text.length = pos) :
    ∀ run ∈ runsFrom chars pos current,
      run.offset + run.text.length ≤ pos + chars.length := by
  induction chars generalizing pos current with
  | nil =>
      intro run hrun
      rw [runsFrom, Option.mem_toList] at hrun
      exact (hcurrent run hrun).le
  | cons char chars ih =>
      intro run hrun
      unfold runsFrom at hrun
      rw [List.length_cons]
      split at hrun
      · rcases List.mem_append.mp hrun with hnow | hlater
        · rw [Option.mem_toList] at hnow
          have hend := hcurrent run hnow
          omega
        · have hbound := ih (by simp) run hlater
          omega
      · have hnext : ∀ next, some
            ({ offset := (current.map Token.offset).getD pos
               text := (current.map Token.text).getD [] ++ [char] } : Token) =
              some next → next.offset + next.text.length = pos + 1 := by
          intro next hnext
          rw [← Option.some.inj hnext]
          cases hrunning : current with
          | none => simp
          | some running =>
              have hend := hcurrent running hrunning
              simp only [Option.map_some, Option.getD_some,
                List.length_append, List.length_singleton]
              omega
        have hbound := ih hnext run hrun
        omega

theorem lineRuns_inside {run : Token} (hrun : run ∈ lineRuns text) :
    run.offset + run.text.length ≤ text.length := by
  have hbound := @runsFrom_inside text 0 none (by simp) run hrun
  rwa [Nat.zero_add] at hbound

theorem getEndTokenWithWhitespace_runs (hclean : CleanEnd text)
    (hstate : OnRuns text state) (n : ℕ) :
    ∃ token last, getEndTokenWithWhitespace n state = .success token last ∧
      OnRuns text last := by
  obtain ⟨mid, htoken, hmid, -⟩ := getToken_runs hclean hstate (n - 1)
  unfold getEndTokenWithWhitespace
  rw [bind_of_success htoken]
  split
  · exact ⟨_, mid, rfl, hmid⟩
  · rename_i hthere
    have hinside : ((lineRuns text)[n - 1]?.getD noToken).offset +
        ((lineRuns text)[n - 1]?.getD noToken).text.length ≤
          text.length := by
      cases hrun : (lineRuns text)[n - 1]? with
      | none =>
          rw [hrun] at hthere
          exact absurd rfl hthere
      | some run => exact lineRuns_inside (List.mem_of_getElem? hrun)
    have hread : (read ParseState.line : Parse Line) mid =
        .success mid.line mid := rfl
    have hsame : mid.line.text = text := hmid.sound.same
    have hsize : mid.line.cStr.length = text.length + 1 := by
      rw [Line.cStr, List.length_append, List.length_singleton, hsame]
    rw [bind_of_success hread]
    have hrange : (inRange
        (((lineRuns text)[n - 1]?.getD noToken).offset +
          ((lineRuns text)[n - 1]?.getD noToken).text.length + 1 ≤
            mid.line.cStr.length) : Parse Unit) mid = .success () mid := by
      unfold inRange
      rw [if_pos]
      rw [decide_eq_true_iff, hsize]
      omega
    by_cases hshort : mid.line.text.length ≤
        ((lineRuns text)[n - 1]?.getD noToken).offset +
          ((lineRuns text)[n - 1]?.getD noToken).text.length + 1
    · refine ⟨noToken, mid, (bind_of_success hrange).trans ?_, hmid⟩
      rw [if_pos hshort]
      rfl
    · have hview : ∃ rest, mid.line.view
          (((lineRuns text)[n - 1]?.getD noToken).offset +
            ((lineRuns text)[n - 1]?.getD noToken).text.length + 1)
          (mid.line.text.length -
            (((lineRuns text)[n - 1]?.getD noToken).offset +
              ((lineRuns text)[n - 1]?.getD noToken).text.length + 1)) =
          some rest := by
        unfold Line.view
        rw [hsame] at hshort ⊢
        rw [if_pos (by omega)]
        exact ⟨_, rfl⟩
      obtain ⟨rest, hview⟩ := hview
      refine ⟨rest, mid, (bind_of_success hrange).trans ?_, hmid⟩
      rw [if_neg hshort, hview]
      rfl

theorem performAll_runs (hclean : CleanEnd text) (hstate : OnRuns text state)
    (calls : List LineCall) :
    ∃ last, performAll calls state = some last ∧ OnRuns text last := by
  induction calls generalizing state with
  | nil => exact ⟨state, rfl, hstate⟩
  | cons call calls ih =>
      have hcall : ∃ token mid, call.perform state = .success token mid ∧
          OnRuns text mid := by
        cases call with
        | token n =>
            obtain ⟨mid, htoken, hmid, -⟩ := getToken_runs hclean hstate n
            exact ⟨_, mid, htoken, hmid⟩
        | endToken n => exact getEndToken_runs hclean hstate n
        | endTokenWithWhitespace n =>
            exact getEndTokenWithWhitespace_runs hclean hstate n
      obtain ⟨token, mid, hperform, hmid⟩ := hcall
      unfold performAll
      simp only [hperform]
      exact ih hmid

/-! ## Every line -/

/-- The terminator is taken for a token if the line ends with blanks and more
tokens are asked for than there are. -/
theorem getToken_terminator (hsome : lineRuns text ≠ [])
    (hends : EndsBlank text) (trailing : Option ℕ) (entry : DirectoryEntry) :
    ∃ after, getToken (lineRuns text).length
        ⟨Line.make text trailing, entry⟩ =
      .success ⟨text.length, ['\x00']⟩ after := by
  have hstart := onRuns_make text trailing entry
  obtain ⟨line, hscan, hline⟩ :=
    LineInv.scan hstart.sound (lineRuns text).length
  have hsearch := hstart.scan _ hscan
  have htokens : line.tokens = lineRuns text ++ [⟨text.length, ['\x00']⟩] := by
    obtain ⟨-, ⟨-, hruns, hfound⟩ | ⟨-, -, -, hall⟩⟩ := hsearch
    · exfalso
      rcases hfound with hmore | ⟨-, hclean | hunread⟩
      · have hlength := congrArg List.length hruns
        rw [List.length_append] at hlength
        omega
      · exact hclean hends
      · have hnone := hstart.runs
        rw [hunread] at hnone
        exact hsome hnone.symm
    · exact hall
  refine ⟨{ line := line, entry := entry }, ?_⟩
  unfold getToken
  have hfresh : (Line.make text trailing).tokens[(lineRuns text).length]? =
      none := rfl
  simp only [hfresh, hscan, htokens]
  simp

/-- The tokens are the runs of the line, in every order of the calls, exactly
if the line does not end with blanks behind a token. -/
theorem line_tokens_iff (text : WString) (trailing : Option ℕ)
    (entry : DirectoryEntry) :
    TokensAreRuns text ⟨Line.make text trailing, entry⟩ ↔ CleanEnd text := by
  constructor
  · intro hruns
    by_contra hunclean
    simp only [CleanEnd, not_or, not_not] at hunclean
    obtain ⟨hsome, hends⟩ := hunclean
    obtain ⟨state, after, hstate, htoken⟩ :=
      hruns.runs [] (lineRuns text).length
    cases hstate
    obtain ⟨other, hother⟩ :=
      getToken_terminator hsome hends trailing entry
    rw [hother, List.getElem?_eq_none (le_refl _)] at htoken
    have htext := congrArg Token.text (Outcome.success.inj htoken).1
    exact absurd htext (List.cons_ne_nil _ _)
  · intro hclean
    have hstart := onRuns_make text trailing entry
    constructor
    · intro calls n
      obtain ⟨state, hcalls, hstate⟩ := performAll_runs hclean hstart calls
      obtain ⟨after, htoken, -, -⟩ := getToken_runs hclean hstate n
      exact ⟨state, after, hcalls, htoken⟩
    · intro calls others m state other after last token another hm hcalls
        hothers htoken hanother
      obtain ⟨_, hcalls', hstate⟩ := performAll_runs hclean hstart calls
      rw [hcalls] at hcalls'
      cases hcalls'
      obtain ⟨_, hothers', hother⟩ := performAll_runs hclean hstart others
      rw [hothers] at hothers'
      cases hothers'
      obtain ⟨_, htoken', -, hall⟩ := getToken_runs hclean hstate m
      rw [htoken] at htoken'
      cases htoken'
      obtain ⟨_, hanother', -, hall'⟩ := getToken_runs hclean hother m
      rw [hanother] at hanother'
      cases hanother'
      rw [hall hm, hall' hm]

/-- There is one token more if it is asked for before the blanks behind the
first one have been skipped. -/
theorem trailing_blank_token :
    ∃ entry after,
      getToken 1 ⟨Line.make "a ".toList none, entry⟩ =
          .success ⟨2, ['\x00']⟩ after ∧
        ¬ TokensAreRuns "a ".toList ⟨Line.make "a ".toList none, entry⟩ := by
  let entry : DirectoryEntry := ⟨[], -1, [], [], none, none, 0⟩
  let after : ParseState :=
    ⟨⟨"a ".toList, [⟨0, ['a']⟩, ⟨2, ['\x00']⟩], [], 3, none⟩, entry⟩
  have hcode : getToken 1 ⟨Line.make "a ".toList none, entry⟩ =
      .success ⟨2, ['\x00']⟩ after := rfl
  refine ⟨entry, after, hcode, ?_⟩
  intro hruns
  obtain ⟨state, last, hstate, htoken⟩ := hruns.runs [] 1
  cases hstate
  rw [hcode] at htoken
  have hnone : (lineRuns "a ".toList)[1]?.getD noToken = noToken := rfl
  rw [hnone] at htoken
  have htext := congrArg Token.text (Outcome.success.inj htoken).1
  exact absurd htext (List.cons_ne_nil _ _)

end TabFtp
