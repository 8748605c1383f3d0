import TabFtp.ListingFormats

/-!
# The formats access their line within its bounds

One specification for each format: it makes no access out of range, it leaves
the line in order, and it takes a name that is not empty unless everything has
been cut off from the field.
-/

namespace TabFtp

open CheckedAttempts Attempt

def Named.Sound (lib : ListingLibrary) (named : Named) : Prop :=
  named.name = [] → named.field.CutAway lib

variable {env : FormatEnv} {text : WString} {token : Token}

theorem Named.whole_sound {field : WString} (hfield : field ≠ []) :
    (Named.whole field).Sound env.lib :=
  fun hname => absurd hname hfield

theorem shiftTime_spec :
    Spec (OnLine text) (shiftTime env) fun _ => True := by
  apply Spec.bind getEntry_spec
  intro entry _
  exact setEntry_spec _

theorem needNumber_spec (n : ℕ) :
    Spec (OnLine text) (needNumber n) (IsToken text) := by
  apply Spec.bind (needToken_spec n)
  intro token htoken
  apply Spec.require_then
  exact Spec.pure htoken

theorem noFurtherToken_spec (n : ℕ) :
    Spec (OnLine text) (noFurtherToken n) fun _ => True := by
  apply Spec.bind (getToken_spec n)
  intro token _
  exact Spec.weaken (Spec.require _) fun _ _ => trivial

theorem needDateTime_spec (hlib : env.lib.SetsDates) (saneFieldOrder : Bool)
    (n : ℕ) :
    Spec (OnLine text) (needDateTime env saneFieldOrder n) fun _ => True := by
  apply Spec.bind (needToken_spec n)
  intro date _
  apply Spec.bind (parseShortDate_spec hlib saneFieldOrder date)
  intro _ _
  apply Spec.bind (needToken_spec (n + 1))
  intro time _
  apply Spec.bind (parseTime_spec env.lib time)
  intro _ _
  exact Spec.pure trivial

/-! ## z/VM and HP NonStop -/

theorem parseAsZvm_spec (hlib : env.lib.SetsDates) :
    Spec (OnLine text) (parseAsZvm env) (Named.Sound env.lib) := by
  unfold parseAsZvm
  apply Spec.bind (needToken_spec 0)
  intro name _
  apply Spec.bind (needToken_spec 1)
  intro extension _
  apply Spec.bind (needToken_spec 2)
  intro format _
  apply Spec.require_then
  apply Spec.bind (needNumber_spec 3)
  intro recordLength _
  apply Spec.bind recordLength.number_spec
  intro size _
  apply setEntry_then
  apply Spec.bind (needNumber_spec 4)
  intro records _
  apply Spec.bind records.number_spec
  intro number _
  apply setEntry_then
  apply Spec.bind (needNumber_spec 5)
  intro _ _
  apply setEntry_then
  apply Spec.bind (needDateTime_spec hlib true 6)
  intro _ _
  apply Spec.bind (needToken_spec 8)
  intro ownerGroup _
  apply Spec.bind (noFurtherToken_spec 9)
  intro _ _
  apply setEntry_then
  apply setEntry_then
  apply Spec.bind shiftTime_spec
  intro _ _
  exact Spec.pure (Named.whole_sound (by simp))

theorem nonstopOwner_spec (htoken : token.text ≠ []) :
    Spec (OnLine text) (nonstopOwner token) fun _ => True := by
  have hpos := List.length_pos_iff.mpr htoken
  unfold nonstopOwner
  apply Spec.bind (charAt_spec (by omega) (by omega))
  intro last _
  apply Spec.ite
  · intro _
    apply Spec.bind (needToken_spec 6)
    intro second _
    exact Spec.pure trivial
  · intro _
    exact Spec.pure trivial

theorem parseAsHPNonstop_spec (hlib : env.lib.SetsDates) :
    Spec (OnLine text) (parseAsHPNonstop env) (Named.Sound env.lib) := by
  unfold parseAsHPNonstop
  apply Spec.bind (needToken_spec 0)
  intro name hname
  apply Spec.bind (needNumber_spec 1)
  intro _ _
  apply Spec.bind (needNumber_spec 2)
  intro sizeToken _
  apply Spec.bind sizeToken.number_spec
  intro size _
  apply setEntry_then
  apply setEntry_then
  apply Spec.bind (needDateTime_spec hlib false 3)
  intro _ _
  apply Spec.bind (needToken_spec 5)
  intro owner howner
  apply Spec.bind (nonstopOwner_spec howner.nonempty)
  intro ownerGroup _
  apply Spec.bind (needToken_spec _)
  intro permissions _
  apply Spec.bind (noFurtherToken_spec _)
  intro _ _
  apply setEntry_then
  exact Spec.pure (Named.whole_sound hname.nonempty)

/-! ## MLSD -/

theorem mlsdSize_spec (value : WString) :
    Spec (OnLine text) (mlsdSize value) fun _ => True := by
  induction value with
  | nil => exact Spec.pure trivial
  | cons char chars ih =>
      unfold mlsdSize
      apply Spec.ite
      · intro _
        apply Spec.bind getEntry_spec
        intro entry _
        apply setEntry_then
        exact ih
      · intro _
        exact Spec.mismatch

theorem mlsdType_spec (lib : ListingLibrary) (value : Token) :
    Spec (OnLine text) (mlsdType lib value) fun _ => True := by
  unfold mlsdType
  apply Spec.ite
  · intro _
    apply setEntry_then
    exact Spec.pure trivial
  intro _
  apply Spec.ite
  · intro _
    apply setEntry_then
    cases hcolon : value.find [':'] 0 with
    | none => exact Spec.pure trivial
    | some colonPos =>
        have hpos := (Token.find_spec hcolon).2.1
        apply Spec.bind (cutFrom_spec (by omega) (by omega))
        intro target _
        apply setEntry_then
        exact Spec.pure trivial
  · intro _
    exact Spec.pure trivial

theorem mlsdTime_spec (lib : ListingLibrary) (value : WString) :
    Spec (OnLine text) (mlsdTime lib value) fun _ => True := by
  apply setEntry_then
  exact Spec.weaken (Spec.require _) fun _ _ => trivial

theorem mlsdFact_spec (lib : ListingLibrary) (factname : WString)
    (value : Token) (facts : MlsdFacts) :
    Spec (OnLine text) (mlsdFact lib factname value facts) fun _ => True := by
  unfold mlsdFact
  apply Spec.bind getEntry_spec
  intro entry _
  apply Spec.ite
  · intro _
    apply Spec.bind (mlsdType_spec lib value)
    intro skipped _
    exact Spec.pure trivial
  intro _
  apply Spec.ite
  · intro _
    apply setEntry_then
    apply Spec.bind (mlsdSize_spec value.text)
    intro _ _
    exact Spec.pure trivial
  intro _
  apply Spec.ite
  · intro _
    apply Spec.bind (mlsdTime_spec lib value.text)
    intro _ _
    exact Spec.pure trivial
  · intro _
    exact Spec.pure trivial

theorem mlsdFacts_spec (lib : ListingLibrary) (token : Token)
    {fuel start : ℕ} (facts : MlsdFacts) (hfuel : 1 ≤ fuel)
    (hstart : token.text.length < fuel + start) :
    Spec (OnLine text) (mlsdFacts lib token fuel start facts)
      fun _ => True := by
  induction fuel generalizing start facts with
  | zero => omega
  | succ fuel ih =>
      unfold mlsdFacts
      apply Spec.ite
      · intro hmore
        apply Spec.bind (Spec.require _)
        intro _ hlen
        apply Spec.bind (Spec.expect _)
        intro pos hfind
        have hpos := Token.find_spec hfind
        apply Spec.bind (Spec.require _)
        intro _ hrange
        rw [Bool.and_eq_true, decide_eq_true_eq, decide_eq_true_eq] at hrange
        have hdelim : start ≤
              (token.find [';'] start).getD token.text.length ∧
            (token.find [';'] start).getD token.text.length ≤
              token.text.length ∧
            pos < (token.find [';'] start).getD token.text.length := by
          cases hcase : token.find [';'] start with
          | none => exact ⟨hmore.le, le_rfl, hpos.2.1⟩
          | some delim =>
              have hfound := Token.find_spec hcase
              refine ⟨hfound.1, hfound.2.1.le, ?_⟩
              -- a character is not both delimiters
              rw [hcase] at hrange
              apply lt_of_le_of_ne hrange.2
              intro hsame
              obtain ⟨char, hchar, hat⟩ := hpos.2.2
              obtain ⟨other, hother, hat2⟩ := hfound.2.2
              change pos = delim at hsame
              rw [hsame, hat2, Option.some.injEq] at hat
              rw [List.mem_singleton] at hchar hother
              rw [hchar, hother] at hat
              exact absurd hat (by decide)
        apply Spec.bind (cut_spec (by omega) (by omega) (by omega))
        intro factname _
        apply Spec.bind (cut_spec (by omega) (by omega) (by omega))
        intro value _
        apply Spec.bind (mlsdFact_spec lib _ _ facts)
        intro found _
        cases found with
        | none => exact Spec.pure trivial
        | some facts => exact ih facts (by omega) (by omega)
      · intro _
        exact Spec.pure trivial

theorem parseAsMlsd_spec (env : FormatEnv) :
    Spec (OnLine text) (parseAsMlsd env) fun result =>
      ∀ named ∈ result, named.Sound env.lib := by
  unfold parseAsMlsd
  apply Spec.bind (needToken_spec 0)
  intro token _
  apply setEntry_then
  apply Spec.bind (mlsdFacts_spec env.lib token noFacts (by omega) (by omega))
  intro facts _
  cases facts with
  | none =>
      apply Spec.pure
      intro named hmem
      cases hmem
  | some facts =>
      apply Spec.bind getEndTokenWithWhitespace_spec
      intro nameToken _
      apply Spec.bind (Spec.require _)
      intro _ hname
      apply setEntry_then
      apply Spec.pure
      intro named hmem
      rw [← Option.mem_some_iff.mp hmem]
      exact Named.whole_sound (by simpa using hname)

/-! ## Unix -/

theorem ownerTokens_spec (count : ℕ) (further : Bool) (index : ℕ)
    (ownerGroup : WString) :
    Spec (OnLine text) (ownerTokens count further index ownerGroup)
      fun _ => True := by
  induction count generalizing further index ownerGroup with
  | zero => exact Spec.pure trivial
  | succ count ih =>
      unfold ownerTokens
      apply Spec.bind (needToken_spec _)
      intro token _
      exact ih _ _ _

theorem groupEnd_spec {group : WString} {i : ℕ} (hi : i ≤ group.length) :
    Spec (OnLine text) (groupEnd group i) fun stop =>
      stop ≤ group.length := by
  induction i with
  | zero => exact Spec.pure hi
  | succ i ih =>
      unfold groupEnd
      apply Spec.bind (charAt_spec (by omega) (by omega))
      intro char _
      apply Spec.ite
      · intro _
        exact ih (by omega)
      · intro _
        exact Spec.pure hi

theorem unixSize_spec (htoken : token.text ≠ []) (ownerGroup : WString) :
    Spec (OnLine text) (unixSize token ownerGroup) fun _ => True := by
  unfold unixSize
  apply Spec.bind (Spec.perhaps (parseComplexFileSize_spec htoken (-1)))
  intro sized _
  apply Spec.ite
  · intro _
    exact Spec.pure trivial
  intro _
  apply Spec.ite
  · intro _
    exact Spec.pure trivial
  · intro _
    apply Spec.bind token.number_spec
    intro size _
    apply setEntry_then
    apply Spec.bind (groupEnd_spec le_rfl)
    intro stop _
    apply Spec.bind (cut_spec le_rfl (by omega) (by omega))
    intro group _
    exact Spec.pure trivial

theorem unixDate_spec (hlib : env.lib.SetsDates) (expectDate : Bool)
    (index : ℕ) :
    Spec (OnLine text) (unixDate env expectDate index) fun _ => True := by
  unfold unixDate
  apply Spec.ite
  · intro _
    apply setEntry_then
    exact Spec.weaken (Spec.perhaps (parseUnixDateTime_spec hlib index))
      fun _ _ => trivial
  · intro _
    exact Spec.pure trivial

theorem findArrow_bound {name : WString} {pos : ℕ}
    (hfind : findArrow name = some pos) :
    pos + 4 ≤ name.length ∧ (pos = 0 → name.head? = some ' ') := by
  induction name generalizing pos with
  | nil => cases hfind
  | cons char chars ih =>
      unfold findArrow at hfind
      by_cases harrow : " -> ".toList.isPrefixOf (char :: chars)
      · rw [if_pos harrow] at hfind
        have hstart := List.isPrefixOf_iff_prefix.mp harrow
        have hlen : 4 ≤ (char :: chars).length := hstart.length_le
        rw [← Option.some.inj hfind]
        refine ⟨by omega, fun _ => ?_⟩
        rcases hstart with ⟨rest, hrest⟩
        rw [← hrest]
        rfl
      · rw [if_neg harrow] at hfind
        rcases Option.map_eq_some_iff.mp hfind with ⟨found, hfound, rfl⟩
        have hbound := (ih hfound).1
        simp only [List.length_cons]
        exact ⟨by omega, fun h => by omega⟩

theorem dropLast_eq_nil {field : WString} {char : Char}
    (hlast : field[field.length - 1]? = some char)
    (hempty : field.dropLast = []) : field = [char] := by
  cases field with
  | nil => cases hlast
  | cons first rest =>
      cases rest with
      | nil =>
          rw [Option.some.inj hlast]
      | cons second rest => cases hempty

theorem unixTrimmed_spec {field : WString} (hfield : field ≠ []) :
    Spec (OnLine text) (unixTrimmed field) fun name =>
      (name = [] → field = ['/'] ∨ field = ['|'] ∨ field = ['*']) ∧
        (name ≠ [] → name.head? = field.head?) := by
  have hpos := List.length_pos_iff.mpr hfield
  unfold unixTrimmed
  apply Spec.bind (charAt_spec (by omega) (by omega))
  intro char hchar
  apply Spec.ite
  · intro hspecial
    apply Spec.weaken (popBack_spec hfield)
    intro name hname
    subst hname
    constructor
    · intro hempty
      have hat : field[field.length - 1]? = some char := by
        rw [← hchar]
        congr 1
        omega
      rw [dropLast_eq_nil hat hempty]
      rcases hspecial with rfl | rfl | rfl
      · exact Or.inl rfl
      · exact Or.inr (Or.inl rfl)
      · exact Or.inr (Or.inr rfl)
    · intro hne
      cases field with
      | nil => exact absurd rfl hfield
      | cons first rest =>
          cases rest with
          | nil => exact absurd rfl hne
          | cons second rest => rfl
  · intro _
    exact Spec.pure ⟨fun h => absurd h hfield, fun _ => rfl⟩

theorem unixLinkName_spec {name : WString}
    (hname : name.head? ≠ some ' ') :
    Spec (OnLine text) (unixLinkName name) fun rest =>
      rest = [] → name = [] := by
  unfold unixLinkName
  apply Spec.bind getEntry_spec
  intro entry _
  apply Spec.ite
  · intro _
    cases hfind : findArrow name with
    | none => exact Spec.pure id
    | some pos =>
        have hbound := findArrow_bound hfind
        apply Spec.bind (cutFrom_spec (by omega) (by omega))
        intro target _
        apply setEntry_then
        apply Spec.weaken (cut_spec le_rfl (by omega) (by omega))
        intro rest hrest hempty
        -- an arrow at the start would start with a blank
        have hzero : pos ≠ 0 := fun h => hname (hbound.2 h)
        rw [hrest, Int.toNat_zero, List.drop_zero, Int.toNat_natCast,
          List.take_eq_nil_iff] at hempty
        exact hempty.resolve_left hzero
  · intro _
    exact Spec.pure id

theorem unixAttempt_spec (hlib : env.lib.SetsDates) (expectDate : Bool)
    (permissions : WString) (startindex numOwnerGroup : ℕ) :
    Spec (OnLine text)
      (unixAttempt env expectDate permissions startindex numOwnerGroup)
      fun result => ∀ named ∈ result, named.Sound env.lib := by
  have hnone : ∀ named ∈ (none : Option Named), named.Sound env.lib :=
    fun named hmem => by cases hmem
  unfold unixAttempt
  apply Spec.bind (ownerTokens_spec _ _ _ _)
  intro owner _
  apply Spec.bind (needToken_spec _)
  intro sizeToken hsize
  apply Spec.bind (unixSize_spec hsize.nonempty _)
  intro sized _
  cases sized with
  | none => exact Spec.pure hnone
  | some ownerGroup =>
      apply Spec.bind (unixDate_spec hlib expectDate _)
      intro date _
      cases date with
      | none => exact Spec.pure hnone
      | some index =>
          apply Spec.bind (getEndToken_spec (index + 1))
          intro nameToken hnameToken
          apply Spec.ite
          · intro _
            exact Spec.pure hnone
          · intro hthere
            have hne : nameToken.text ≠ [] := by simpa using hthere
            rcases (hnameToken hne).starts with
              ⟨first, rest, htext, hblank, _⟩
            apply Spec.bind (unixTrimmed_spec hne)
            intro trimmed htrimmed
            have hhead : trimmed.head? ≠ some ' ' := by
              by_cases hempty : trimmed = []
              · rw [hempty]
                exact fun h => by cases h
              · rw [htrimmed.2 hempty, htext]
                intro h
                rw [Option.some.inj h] at hblank
                cases hblank
            apply Spec.bind (unixLinkName_spec hhead)
            intro name hname
            apply Spec.bind shiftTime_spec
            intro _ _
            apply setEntry_then
            apply Spec.pure
            intro named hmem
            rw [← Option.mem_some_iff.mp hmem]
            exact fun hempty => htrimmed.1 (hname hempty)

theorem unixAttempts_spec (hlib : env.lib.SetsDates) (expectDate : Bool)
    (permissions : WString) (startindex : ℕ) (numbers : List ℕ) :
    Spec (OnLine text)
      (unixAttempts env expectDate permissions startindex numbers)
      (Named.Sound env.lib) := by
  induction numbers with
  | nil => exact Spec.mismatch
  | cons numOwnerGroup numbers ih =>
      unfold unixAttempts
      apply Spec.bind (unixAttempt_spec hlib _ _ _ _)
      intro result hresult
      cases result with
      | none => exact ih
      | some named => exact Spec.pure (hresult named rfl)

theorem unixPermissions_spec (permissionToken : Token) :
    Spec (OnLine text) (unixPermissions permissionToken) fun _ => True := by
  unfold unixPermissions
  apply Spec.ite
  · intro _
    apply Spec.bind (needToken_spec 1)
    intro contPerm _
    exact Spec.pure trivial
  · intro _
    apply Spec.bind (needToken_spec 1)
    intro linkCount _
    exact Spec.pure trivial

theorem parseAsUnix_spec (hlib : env.lib.SetsDates) (expectDate : Bool) :
    Spec (OnLine text) (parseAsUnix env expectDate)
      (Named.Sound env.lib) := by
  unfold parseAsUnix
  apply Spec.bind (needToken_spec 0)
  intro permissionToken htoken
  have hpos := List.length_pos_iff.mpr htoken.nonempty
  apply Spec.bind (charAt_spec le_rfl (by omega))
  intro char _
  apply Spec.require_then
  apply setEntry_then
  apply Spec.bind (unixPermissions_spec permissionToken)
  intro permissions _
  exact unixAttempts_spec hlib _ _ _ _

/-! ## DOS and EPLF -/

theorem dosSize_spec (digits : WString) (size : ℤ) :
    Spec (OnLine text) (dosSize digits size) fun _ => True := by
  induction digits generalizing size with
  | nil => exact Spec.pure trivial
  | cons char chars ih =>
      unfold dosSize
      apply Spec.ite
      · intro _
        exact ih _
      intro _
      apply Spec.ite
      · intro _
        exact ih _
      · intro _
        exact Spec.mismatch

theorem dosKind_spec (token : Token) :
    Spec (OnLine text) (dosKind token) fun _ => True := by
  unfold dosKind
  apply Spec.ite
  · intro _
    apply setEntry_then
    exact setEntry_spec _
  intro _
  apply Spec.ite
  · intro _
    apply Spec.bind (dosSize_spec _ _)
    intro size _
    exact setEntry_spec _
  · intro _
    exact Spec.mismatch

theorem parseAsDos_spec (hlib : env.lib.SetsDates) :
    Spec (OnLine text) (parseAsDos env) (Named.Sound env.lib) := by
  unfold parseAsDos
  apply Spec.bind (needToken_spec 0)
  intro date _
  apply setEntry_then
  apply Spec.bind (parseShortDate_spec hlib false date)
  intro _ _
  apply Spec.bind (needToken_spec 1)
  intro time _
  apply Spec.bind (parseTime_spec env.lib time)
  intro _ _
  apply Spec.bind (needToken_spec 2)
  intro token _
  apply Spec.bind (dosKind_spec token)
  intro _ _
  apply Spec.bind (needEndToken_spec 3)
  intro nameToken hname
  apply setEntry_then
  apply setEntry_then
  apply Spec.bind shiftTime_spec
  intro _ _
  exact Spec.pure (Named.whole_sound hname.nonempty)

theorem eplfFact_spec (lib : ListingLibrary) {fact len : ℕ}
    (hlen : 0 < len) (hfact : fact + len ≤ token.text.length)
    (permissions : WString) :
    Spec (OnLine text) (eplfFact lib token fact len permissions)
      fun _ => True := by
  unfold eplfFact
  apply Spec.bind (charAt_spec (by omega) (by omega))
  intro type _
  apply Spec.ite
  · intro _
    apply setEntry_then
    exact Spec.pure trivial
  intro _
  apply Spec.ite
  · intro _
    apply Spec.bind (token.numberIn_spec _ _)
    intro size _
    apply setEntry_then
    exact Spec.pure trivial
  intro _
  apply Spec.ite
  · intro _
    apply Spec.bind (token.numberIn_spec _ _)
    intro number _
    apply Spec.require_then
    apply setEntry_then
    exact Spec.pure trivial
  intro _
  apply Spec.ite
  · intro htype
    have hlong := htype.2
    apply Spec.bind (charAt_spec (by omega) (by omega))
    intro second _
    apply Spec.ite
    · intro _
      exact Spec.weaken (cut_spec (by omega) (by omega) (by omega))
        fun _ _ => trivial
    · intro _
      exact Spec.pure trivial
  · intro _
    exact Spec.pure trivial

theorem eplfFacts_spec (lib : ListingLibrary) {pos fuel fact : ℕ}
    (hpos : pos < token.text.length) (permissions : WString)
    (hfuel : 1 ≤ fuel) (hfact : pos < fuel + fact) :
    Spec (OnLine text) (eplfFacts lib token pos fuel fact permissions)
      fun _ => True := by
  induction fuel generalizing fact permissions with
  | zero => omega
  | succ fuel ih =>
      unfold eplfFacts
      apply Spec.ite
      · intro hmore
        have hstop : (token.find [','] fact).getD pos < token.text.length := by
          cases hcase : token.find [','] fact with
          | none => exact hpos
          | some separator => exact (Token.find_spec hcase).2.1
        apply Spec.ite
        · intro _
          exact ih _ (by omega) (by omega)
        · intro hlen
          apply Spec.bind (eplfFact_spec lib (by omega) (by omega) permissions)
          intro permissions _
          exact ih _ (by omega) (by omega)
      · intro _
        exact Spec.pure trivial

theorem parseAsEplf_spec (env : FormatEnv) :
    Spec (OnLine text) (parseAsEplf env) (Named.Sound env.lib) := by
  unfold parseAsEplf
  apply Spec.bind (needEndToken_spec 0)
  intro token htoken
  have hsize := List.length_pos_iff.mpr htoken.nonempty
  apply Spec.bind (charAt_spec le_rfl (by omega))
  intro char _
  apply Spec.require_then
  apply Spec.bind (Spec.expect _)
  intro pos hfind
  have hpos := (Token.find_spec hfind).2.1
  apply Spec.bind (Spec.require _)
  intro _ hlast
  rw [decide_eq_true_eq] at hlast
  apply Spec.bind (cutFrom_spec (by omega) (by omega))
  intro name hname
  apply setEntry_then
  apply Spec.bind (eplfFacts_spec env.lib hpos [] (by omega) (by omega))
  intro permissions _
  apply setEntry_then
  apply Spec.pure
  apply Named.whole_sound
  rw [hname]
  intro hempty
  rw [List.drop_eq_nil_iff] at hempty
  omega

/-! ## VMS -/

theorem unescape_eq_nil {name : WString} (hname : unescape '^' name = []) :
    name = [] ∨ name = ['^'] ∨ ['^', '\x00'] <+: name := by
  cases name with
  | nil => exact Or.inl rfl
  | cons char chars =>
      unfold unescape at hname
      by_cases hescape : char = '^'
      · rw [if_pos hescape] at hname
        subst hescape
        cases chars with
        | nil => exact Or.inr (Or.inl rfl)
        | cons next rest =>
            simp only at hname
            by_cases hnul : next = '\x00'
            · subst hnul
              exact Or.inr (Or.inr ⟨rest, rfl⟩)
            · rw [if_neg hnul] at hname
              cases hname
      · rw [if_neg hescape] at hname
        cases hname

theorem vmsName_spec {pos : ℕ} (hpos : pos < token.text.length) :
    Spec (OnLine text) (vmsName token pos) fun name => name.1 ≠ [] := by
  have hne : token.text ≠ [] := List.length_pos_iff.mp (by omega)
  unfold vmsName
  apply Spec.ite
  · intro hlong
    apply Spec.bind (cut_spec (by omega) (by omega) (by decide))
    intro extension _
    apply Spec.ite
    · intro _
      apply Spec.bind (cut_spec le_rfl (by omega) (by omega))
      intro name hname
      have hstem : name ≠ [] := by
        rw [hname]
        intro hempty
        rw [Int.toNat_zero, List.drop_zero, List.take_eq_nil_iff] at hempty
        rcases hempty with hzero | hnil
        · omega
        · exact hne hnil
      apply Spec.bind (cutFrom_spec (by omega) (by omega))
      intro version _
      apply Spec.ite
      · intro _
        exact Spec.pure hstem
      · intro _
        exact Spec.pure (List.append_ne_nil_of_left_ne_nil hstem version)
    · intro _
      exact Spec.pure hne
  · intro _
    exact Spec.pure hne

theorem isBracketed_spec (opening closing : Char) (htoken : token.text ≠ []) :
    Spec (OnLine text) (isBracketed opening closing token) fun bracketed =>
      bracketed = true → 2 < token.text.length := by
  have hpos := List.length_pos_iff.mpr htoken
  unfold isBracketed
  apply Spec.bind (charAt_spec le_rfl (by omega))
  intro first _
  apply Spec.bind (charAt_spec (by omega) (by omega))
  intro last _
  apply Spec.pure
  intro h
  exact (of_decide_eq_true h).1

theorem unbracket_spec {word : WString} (hword : 2 < word.length) :
    Spec (OnLine text) (unbracket word) fun _ => True :=
  Spec.weaken (cut_spec (by decide) (by omega) (by omega)) fun _ _ => trivial

theorem vmsUser_spec (htoken : IsToken text token) :
    Spec (OnLine text) (vmsUser token) fun user => IsToken text user.2.2 := by
  unfold vmsUser
  apply Spec.ite
  · intro _
    apply Spec.bind (isBracketed_spec _ _ htoken.nonempty)
    intro bracketed hlong
    apply Spec.bind (Spec.require _)
    intro _ hbracketed
    apply Spec.bind (unbracket_spec (hlong hbracketed))
    intro user _
    apply Spec.bind (needToken_spec 2)
    intro next hnext
    apply Spec.require_then
    exact Spec.pure hnext
  · intro _
    exact Spec.pure htoken

theorem vmsBlocks_spec (htoken : token.text ≠ []) {pos : Option ℕ}
    (hfind : token.find ['/'] 0 = pos) (hpos : pos ≠ some 0) :
    Spec (OnLine text) (vmsBlocks token pos) fun part => part.text ≠ [] := by
  cases pos with
  | none => exact Spec.pure htoken
  | some pos =>
      have hlt := (Token.find_spec hfind).2.1
      apply Spec.weaken (Token.take_spec hlt.le)
      intro part hpart hempty
      rw [hpart] at hempty
      rcases List.take_eq_nil_iff.mp hempty with hzero | hnil
      · exact hpos (congrArg some hzero)
      · exact htoken hnil

theorem vmsFirstSize_spec (htoken : IsToken text token) (index : ℕ) :
    Spec (OnLine text) (vmsFirstSize index token) fun _ => True := by
  unfold vmsFirstSize
  apply Spec.bind (Spec.require _)
  intro _ hpos
  rw [decide_eq_true_eq] at hpos
  apply Spec.ite
  · intro _
    apply Spec.bind (vmsBlocks_spec htoken.nonempty rfl hpos)
    intro sizeToken hsize
    apply Spec.bind (parseComplexFileSize_spec hsize 512)
    intro _ _
    apply Spec.bind (needToken_spec _)
    intro next _
    exact Spec.pure trivial
  intro _
  apply Spec.ite
  · intro _
    apply Spec.bind
      (Spec.perhaps (parseComplexFileSize_spec htoken.nonempty 512))
    intro sized _
    apply Spec.ite
    · intro _
      apply Spec.bind (needToken_spec _)
      intro next _
      exact Spec.pure trivial
    · intro _
      exact Spec.pure trivial
  · intro _
    exact Spec.pure trivial

theorem vmsTime_spec (index : ℕ) (htoken : token.text ≠ []) :
    Spec (OnLine text) (vmsTime env index token) fun _ => True := by
  have hpos := List.length_pos_iff.mpr htoken
  unfold vmsTime
  apply Spec.bind (Spec.perhaps (parseTime_spec env.lib token))
  intro timed _
  apply Spec.ite
  · intro _
    exact Spec.pure trivial
  · intro _
    apply Spec.bind (charAt_spec le_rfl (by omega))
    intro first _
    apply Spec.bind (charAt_spec (by omega) (by omega))
    intro last _
    apply Spec.require_then
    apply Spec.require_then
    apply Spec.require_then
    apply Spec.require_then
    exact Spec.pure trivial

theorem vmsSecondSize_spec (gotSize : Bool) (index : ℕ) :
    Spec (OnLine text) (vmsSecondSize gotSize index) fun _ => True := by
  unfold vmsSecondSize
  apply Spec.ite
  · intro _
    exact Spec.pure trivial
  · intro _
    apply Spec.bind (needToken_spec _)
    intro token htoken
    apply Spec.require_then
    apply Spec.bind (Spec.require _)
    intro _ hpos
    rw [decide_eq_true_eq] at hpos
    apply Spec.bind (vmsBlocks_spec htoken.nonempty rfl hpos)
    intro sizeToken hsize
    apply Spec.bind (parseComplexFileSize_spec hsize 512)
    intro _ _
    exact Spec.pure trivial

theorem getToken_both (n : ℕ) :
    Spec (OnLine text) (getToken n) fun token =>
      token.text ≠ [] → IsToken text token ∧ n ≤ text.length := by
  intro state hstate
  have htoken := getToken_spec n state hstate
  have hbound := getToken_bound n state hstate
  cases hcase : getToken n state with
  | fault =>
      rw [hcase] at htoken
      exact htoken
  | mismatch after =>
      rw [hcase] at htoken
      exact htoken
  | success token after =>
      rw [hcase] at htoken hbound
      exact ⟨htoken.1, fun hne => ⟨htoken.2 hne, hbound.2 hne⟩⟩

theorem vmsOwner_spec {fuel index : ℕ} (hfuel : 1 ≤ fuel)
    (hindex : text.length + 1 < fuel + index)
    (permissions ownerGroup : WString) :
    Spec (OnLine text) (vmsOwner fuel index permissions ownerGroup)
      fun _ => True := by
  induction fuel generalizing index permissions ownerGroup with
  | zero => omega
  | succ fuel ih =>
      unfold vmsOwner
      apply Spec.bind (getToken_both index)
      intro token htoken
      apply Spec.ite
      · intro _
        exact Spec.pure trivial
      · intro hthere
        have hne : token.text ≠ [] := by simpa using hthere
        have hbound := (htoken hne).2
        apply Spec.bind (isBracketed_spec '(' ')' hne)
        intro permission hpermission
        apply Spec.bind (isBracketed_spec '[' ']' hne)
        intro owner howner
        apply Spec.ite
        · intro hbracketed
          apply Spec.bind (unbracket_spec (hpermission hbracketed))
          intro word _
          exact ih (by omega) (by omega) _ _
        intro _
        apply Spec.ite
        · intro hbracketed
          apply Spec.bind (unbracket_spec (howner hbracketed))
          intro word _
          exact ih (by omega) (by omega) _ _
        · intro _
          exact ih (by omega) (by omega) _ _

theorem readLine_spec :
    Spec (OnLine text) (read ParseState.line) fun line => line.text = text :=
  Spec.read fun _ hstate => LineData.same hstate.toLineData

theorem vmsRest_spec (index : ℕ) (htoken : token.text ≠ []) (gotSize : Bool)
    (user : WString) :
    Spec (OnLine text) (vmsRest env index token gotSize user)
      fun _ => True := by
  unfold vmsRest
  apply Spec.bind (vmsTime_spec index htoken)
  intro index _
  apply Spec.bind (vmsSecondSize_spec gotSize index)
  intro index _
  apply Spec.bind readLine_spec
  intro line hline
  apply Spec.bind (vmsOwner_spec (by omega) (by rw [hline]; omega) _ _)
  intro owner _
  apply setEntry_then
  exact shiftTime_spec

theorem parseAsVms_spec (hlib : env.lib.SetsDates) :
    Spec (OnLine text) (parseAsVms env) (Named.Sound env.lib) := by
  unfold parseAsVms
  apply Spec.bind (needToken_spec 0)
  intro token _
  apply Spec.bind (Spec.expect _)
  intro pos hfind
  apply setEntry_then
  apply Spec.bind (vmsName_spec (Token.find_spec hfind).2.1)
  intro name hname
  have hnamed : Named.Sound env.lib ⟨.vms name.1, unescape '^' name.1⟩ :=
    fun hempty => (unescape_eq_nil hempty).resolve_left hname
  apply setEntry_then
  apply Spec.bind (needToken_spec 1)
  intro next hnext
  apply Spec.bind (vmsUser_spec hnext)
  intro user huser
  apply Spec.bind (vmsFirstSize_spec huser _)
  intro date _
  apply Spec.bind (parseShortDate_spec hlib false _)
  intro _ _
  apply Spec.bind (getToken_spec _)
  intro last _
  apply Spec.ite
  · intro _
    exact Spec.pure hnamed
  · intro hthere
    apply Spec.bind (vmsRest_spec _ (by simpa using hthere) _ _)
    intro _ _
    exact Spec.pure hnamed

/-! ## Numerical Unix, OS/2 and VShell -/

theorem secondChar_spec (token : Token) :
    Spec (OnLine text) (secondChar token) fun _ => True := by
  unfold secondChar
  apply Spec.ite
  · intro hlong
    exact Spec.weaken (charAt_spec (by decide) (by omega)) fun _ _ => trivial
  · intro _
    exact Spec.pure trivial

theorem numericalUnix_spec (firstToken token : Token) :
    Spec (OnLine text) (numericalUnix env firstToken token)
      (Named.Sound env.lib) := by
  unfold numericalUnix
  apply Spec.bind (secondChar_spec firstToken)
  intro second _
  apply setEntry_then
  apply Spec.bind (needToken_spec 2)
  intro groupToken _
  apply Spec.bind (needNumber_spec 3)
  intro sizeToken _
  apply Spec.bind sizeToken.number_spec
  intro size _
  apply setEntry_then
  apply Spec.bind (needToken_spec 4)
  intro timeToken _
  apply Spec.bind timeToken.number_spec
  intro number _
  apply Spec.require_then
  apply setEntry_then
  apply Spec.bind (needEndToken_spec 5)
  intro nameToken hname
  apply setEntry_then
  apply setEntry_then
  exact Spec.pure (Named.whole_sound hname.nonempty)

theorem os2Skip_spec {fuel index : ℕ} (hfuel : 1 ≤ fuel)
    (hindex : text.length + 1 < fuel + index) (token : Token)
    (skippedCount : ℕ) :
    Spec (OnLine text) (os2Skip fuel index token skippedCount)
      fun _ => True := by
  induction fuel generalizing index token skippedCount with
  | zero => omega
  | succ fuel ih =>
      have hnext : Spec (OnLine text)
          (do
            let next ← needToken (index + 1)
            os2Skip fuel (index + 1) next (skippedCount + 1))
          fun _ => True := by
        apply Spec.bind (needToken_bound (index + 1))
        intro next hbound
        exact ih (by omega) (by omega) next _
      unfold os2Skip
      apply Spec.ite
      · intro _
        apply setEntry_then
        exact hnext
      intro _
      apply Spec.ite
      · intro _
        exact Spec.pure trivial
      · intro _
        exact hnext

theorem rdropWhile_blank_eq_nil {name : WString}
    (hname : name.head? ≠ some ' ')
    (hempty : (name.rdropWhile fun char => char == ' ') = []) :
    name = [] := by
  cases name with
  | nil => rfl
  | cons first rest =>
      have hall := List.rdropWhile_eq_nil_iff.mp hempty first
        List.mem_cons_self
      rw [beq_iff_eq] at hall
      rw [hall] at hname
      exact absurd rfl hname

theorem os2Name_spec (lib : ListingLibrary) (skippedCount : ℕ)
    {field : WString} (hfield : field ≠ []) (hhead : field.head? ≠ some ' ') :
    Spec (OnLine text) (os2Name lib skippedCount field)
      (Named.Sound lib) := by
  have hwhole : (Named.whole field).Sound lib :=
    fun hname => absurd hname hfield
  unfold os2Name
  apply Spec.ite
  · intro hlong
    apply Spec.bind (cutFrom_spec (by omega) (by omega))
    intro type htype
    apply Spec.ite
    · intro hdir
      apply setEntry_then
      apply Spec.bind (cut_spec le_rfl (by omega) (by omega))
      intro name hname
      apply Spec.pure
      intro hempty
      have hcount : ((field.length : ℤ) - 5).toNat = field.length - 5 := by
        omega
      rw [Int.toNat_zero, List.drop_zero, hcount] at hname
      rw [hcount] at htype
      have hnil : name = [] := by
        apply rdropWhile_blank_eq_nil _ hempty
        intro hblank
        apply hhead
        rw [hname, List.head?_take] at hblank
        by_cases hzero : field.length - 5 = 0
        · rw [if_pos hzero] at hblank
          cases hblank
        · rw [if_neg hzero] at hblank
          exact hblank
      rw [hname, List.take_eq_nil_iff] at hnil
      have hlen : field.length - 5 = 0 := hnil.resolve_right hfield
      rw [hlen, List.drop_zero] at htype
      rw [htype] at hdir
      exact ⟨by omega, hdir.2⟩
    · intro _
      exact Spec.pure hwhole
  · intro _
    exact Spec.pure hwhole

theorem IsToken.head?_ne_blank (htoken : IsToken text token) :
    token.text.head? ≠ some ' ' := by
  rcases htoken.starts with ⟨first, rest, htext, hblank, _⟩
  rw [htext]
  intro h
  rw [Option.some.inj h] at hblank
  cases hblank

theorem os2_spec (hlib : env.lib.SetsDates) (token : Token) :
    Spec (OnLine text) (os2 env token) (Named.Sound env.lib) := by
  unfold os2
  apply Spec.bind readLine_spec
  intro line hline
  apply Spec.bind (os2Skip_spec (by omega) (by rw [hline]; omega) token 0)
  intro date _
  apply Spec.bind (parseShortDate_spec hlib false _)
  intro _ _
  apply Spec.bind (needToken_spec _)
  intro time _
  apply Spec.bind (parseTime_spec env.lib time)
  intro _ _
  apply Spec.bind (needEndToken_spec _)
  intro nameToken hname
  exact os2Name_spec env.lib _ hname.nonempty hname.head?_ne_blank

theorem popBack_last {field : WString} {char : Char} {name : WString}
    (hchar : field[((field.length : ℤ) - 1).toNat]? = some char)
    (hname : name = field.dropLast) (hempty : name = []) : field = [char] := by
  apply dropLast_eq_nil _ (hname ▸ hempty)
  rw [← hchar]
  congr 1
  omega

theorem vshellName_spec (lib : ListingLibrary) {field : WString}
    (hfield : field ≠ []) :
    Spec (OnLine text) (vshellName field) (Named.Sound lib) := by
  have hpos := List.length_pos_iff.mpr hfield
  unfold vshellName
  apply Spec.bind (charAt_spec (by omega) (by omega))
  intro char hchar
  apply Spec.ite
  · intro hslash
    apply setEntry_then
    apply Spec.bind (popBack_spec hfield)
    intro name hname
    apply Spec.pure
    intro hempty
    change field = ['/'] ∨ field = ['\\']
    rw [popBack_last hchar hname hempty]
    rcases hslash with rfl | rfl
    · exact Or.inl rfl
    · exact Or.inr rfl
  · intro _
    exact Spec.pure fun hempty => absurd hempty hfield

theorem vshell_spec (month : ℕ) :
    Spec (OnLine text) (vshell env month) (Named.Sound env.lib) := by
  unfold vshell
  apply Spec.bind (needToken_spec 2)
  intro dayToken _
  apply Spec.require_then
  apply Spec.bind dayToken.number_spec
  intro day _
  apply Spec.require_then
  apply Spec.bind (needNumber_spec 3)
  intro yearToken _
  apply Spec.bind yearToken.number_spec
  intro year _
  apply Spec.bind (changeTime_spec _)
  intro _ _
  apply Spec.bind (needToken_spec 4)
  intro time _
  apply Spec.bind (parseTime_spec env.lib time)
  intro _ _
  apply Spec.bind (needEndToken_spec 5)
  intro nameToken hname
  exact vshellName_spec env.lib hname.nonempty

theorem otherNamed_spec (hlib : env.lib.SetsDates) (token : Token)
    (month : Option ℕ) :
    Spec (OnLine text) (otherNamed env token month) (Named.Sound env.lib) := by
  cases month with
  | none => exact os2_spec hlib token
  | some month => exact vshell_spec month

theorem parseOther_spec (hlib : env.lib.SetsDates) :
    Spec (OnLine text) (parseOther env) (Named.Sound env.lib) := by
  unfold parseOther
  apply Spec.bind (needNumber_spec 0)
  intro firstToken _
  apply Spec.bind (needToken_spec 1)
  intro token _
  apply setEntry_then
  apply Spec.ite
  · intro _
    exact numericalUnix_spec firstToken token
  · intro _
    apply Spec.require_then
    apply Spec.bind firstToken.number_spec
    intro size _
    apply setEntry_then
    apply Spec.bind (otherNamed_spec hlib token _)
    intro named hnamed
    apply setEntry_then
    apply setEntry_then
    apply Spec.bind shiftTime_spec
    intro _ _
    exact Spec.pure hnamed

/-! ## IBM and WfFtp -/

theorem ibmName_spec (lib : ListingLibrary) {field : WString}
    (hfield : field ≠ []) :
    Spec (OnLine text) (ibmName field) (Named.Sound lib) := by
  have hpos := List.length_pos_iff.mpr hfield
  unfold ibmName
  apply Spec.bind (charAt_spec (by omega) (by omega))
  intro char hchar
  apply Spec.ite
  · intro hslash
    apply setEntry_then
    apply Spec.bind (popBack_spec hfield)
    intro name hname
    apply Spec.pure
    intro hempty
    change field = ['/']
    rw [popBack_last hchar hname hempty, hslash]
  · intro _
    exact Spec.pure fun hempty => absurd hempty hfield

theorem parseAsIbm_spec (hlib : env.lib.SetsDates) :
    Spec (OnLine text) (parseAsIbm env) (Named.Sound env.lib) := by
  unfold parseAsIbm
  apply Spec.bind (needToken_spec 0)
  intro ownerGroupToken _
  apply Spec.bind (needNumber_spec 1)
  intro sizeToken _
  apply Spec.bind sizeToken.number_spec
  intro size _
  apply setEntry_then
  apply Spec.bind (needToken_spec 2)
  intro date _
  apply setEntry_then
  apply Spec.bind (parseShortDate_spec hlib false date)
  intro _ _
  apply Spec.bind (needToken_spec 3)
  intro time _
  apply Spec.bind (parseTime_spec env.lib time)
  intro _ _
  apply Spec.bind (needEndToken_spec 5)
  intro nameToken hname
  apply Spec.bind (ibmName_spec env.lib hname.nonempty)
  intro named hnamed
  apply setEntry_then
  apply Spec.bind shiftTime_spec
  intro _ _
  exact Spec.pure hnamed

theorem parseAsWfFtp_spec (hlib : env.lib.SetsDates) :
    Spec (OnLine text) (parseAsWfFtp env) (Named.Sound env.lib) := by
  unfold parseAsWfFtp
  apply Spec.bind (needToken_spec 0)
  intro name hname
  apply Spec.bind (needNumber_spec 1)
  intro sizeToken _
  apply Spec.bind sizeToken.number_spec
  intro size _
  apply setEntry_then
  apply setEntry_then
  apply Spec.bind (needToken_spec 2)
  intro date _
  apply Spec.bind (parseShortDate_spec hlib false date)
  intro _ _
  apply Spec.bind (needToken_spec 3)
  intro unused hunused
  apply Spec.bind (back_spec hunused.nonempty)
  intro last _
  apply Spec.require_then
  apply Spec.bind (needEndToken_spec 4)
  intro time _
  apply Spec.bind (parseTime_spec env.lib time)
  intro _ _
  apply setEntry_then
  apply Spec.bind shiftTime_spec
  intro _ _
  exact Spec.pure (Named.whole_sound hname.nonempty)

/-! ## MVS -/

theorem mvsVsam_spec (token : Token) :
    Spec (OnLine text) (mvsVsam token) (Named.Sound env.lib) := by
  unfold mvsVsam
  apply Spec.require_then
  apply Spec.bind (needToken_spec 3)
  intro name hname
  apply Spec.require_then
  apply setEntry_then
  apply setEntry_then
  exact Spec.pure (Named.whole_sound hname.nonempty)

theorem mvsRecfm_spec (ext : Token) :
    Spec (OnLine text) (mvsRecfm ext) fun _ => True := by
  unfold mvsRecfm
  apply Spec.bind (needToken_spec 4)
  intro used _
  apply Spec.ite
  · intro _
    apply Spec.bind (needToken_spec 5)
    intro recfm _
    apply Spec.require_then
    exact Spec.pure trivial
  · intro _
    apply Spec.require_then
    exact Spec.pure trivial

theorem mvsName_spec (index : ℕ) :
    Spec (OnLine text)
      (do
        let name ← needEndToken index
        setOwner [] []
        pure (Named.whole name.text))
      (Named.Sound env.lib) := by
  apply Spec.bind (needEndToken_spec index)
  intro name hname
  apply setEntry_then
  exact Spec.pure (Named.whole_sound hname.nonempty)

theorem mvsDataset_spec :
    Spec (OnLine text) mvsDataset (Named.Sound env.lib) := by
  unfold mvsDataset
  apply Spec.bind (needNumber_spec 3)
  intro ext _
  apply Spec.bind (mvsRecfm_spec ext)
  intro index _
  apply Spec.bind (needNumber_spec _)
  intro _ _
  apply Spec.bind (needNumber_spec _)
  intro _ _
  apply Spec.bind (needToken_spec _)
  intro dsorg _
  apply Spec.ite
  · intro _
    apply setEntry_then
    apply setEntry_then
    exact mvsName_spec _
  · intro _
    apply setEntry_then
    exact mvsName_spec _

theorem parseAsIbmMvs_spec (hlib : env.lib.SetsDates) :
    Spec (OnLine text) (parseAsIbmMvs env) (Named.Sound env.lib) := by
  unfold parseAsIbmMvs
  apply Spec.bind (needToken_spec 0)
  intro _ _
  apply Spec.bind (needToken_spec 1)
  intro _ _
  apply Spec.bind (needToken_spec 2)
  intro token _
  apply setEntry_then
  apply Spec.ite
  · intro _
    exact mvsDataset_spec
  · intro _
    apply Spec.bind (Spec.perhaps (parseShortDate_spec hlib false token))
    intro date _
    apply Spec.ite
    · intro _
      exact mvsDataset_spec
    · intro _
      exact mvsVsam_spec token

theorem parseAsIbmMvsPds_spec (hlib : env.lib.SetsDates) :
    Spec (OnLine text) (parseAsIbmMvsPds env) (Named.Sound env.lib) := by
  unfold parseAsIbmMvsPds
  apply Spec.bind (needToken_spec 0)
  intro name hname
  apply Spec.bind (needToken_spec 1)
  intro _ _
  apply setEntry_then
  apply Spec.bind (needToken_spec 2)
  intro creation _
  apply Spec.bind (parseShortDate_spec hlib false creation)
  intro _ _
  apply Spec.bind (needDateTime_spec hlib false 3)
  intro _ _
  apply Spec.bind (needNumber_spec 5)
  intro sizeToken _
  apply Spec.bind sizeToken.number_spec
  intro size _
  apply setEntry_then
  apply Spec.bind (needNumber_spec 6)
  intro _ _
  apply Spec.bind (needNumber_spec 7)
  intro _ _
  apply Spec.bind (needEndToken_spec 8)
  intro _ _
  apply setEntry_then
  apply Spec.bind shiftTime_spec
  intro _ _
  exact Spec.pure (Named.whole_sound hname.nonempty)

theorem parseAsIbmMvsMigrated_spec (env : FormatEnv) :
    Spec (OnLine text) (parseAsIbmMvsMigrated env) (Named.Sound env.lib) := by
  unfold parseAsIbmMvsMigrated
  apply Spec.bind (needToken_spec 0)
  intro token _
  apply Spec.require_then
  apply Spec.bind (needToken_spec 1)
  intro name hname
  apply Spec.bind (noFurtherToken_spec 2)
  intro _ _
  apply setEntry_then
  apply setEntry_then
  exact Spec.pure (Named.whole_sound hname.nonempty)

theorem tokensEnd_spec {fuel index : ℕ} (hfuel : 1 ≤ fuel)
    (hindex : text.length + 1 < fuel + index) :
    Spec (OnLine text) (tokensEnd fuel index) fun _ => True := by
  induction fuel generalizing index with
  | zero => omega
  | succ fuel ih =>
      unfold tokensEnd
      apply Spec.bind (getToken_bound index)
      intro token hbound
      apply Spec.ite
      · intro _
        exact Spec.pure trivial
      · intro hthere
        have hle := hbound (by simpa using hthere)
        exact ih (by omega) (by omega)

theorem pds2Attributes_spec (count index : ℕ) :
    Spec (OnLine text) (pds2Attributes count index) fun _ => True := by
  induction count generalizing index with
  | zero => exact Spec.pure trivial
  | succ count ih =>
      unfold pds2Attributes
      apply Spec.bind (needToken_spec index)
      intro token _
      apply Spec.require_then
      exact ih _

theorem pds2Number_spec (n : ℕ) :
    Spec (OnLine text) (pds2Number n) fun _ => True := by
  apply Spec.bind (needToken_spec n)
  intro token _
  exact Spec.weaken (Spec.require _) fun _ _ => trivial

theorem pds2Rest_spec : Spec (OnLine text) pds2Rest fun _ => True := by
  unfold pds2Rest
  apply Spec.bind (needToken_spec 2)
  intro unused _
  apply Spec.require_then
  apply Spec.bind (needNumber_spec 3)
  intro _ _
  apply Spec.bind readLine_spec
  intro line hline
  apply Spec.bind (tokensEnd_spec (by omega) (by rw [hline]; omega))
  intro stop _
  apply Spec.require_then
  apply Spec.bind (pds2Number_spec _)
  intro _ _
  apply Spec.bind (pds2Number_spec _)
  intro _ _
  exact pds2Attributes_spec _ _

theorem parseAsIbmMvsPds2_spec :
    Spec (OnLine text) parseAsIbmMvsPds2 (Named.Sound env.lib) := by
  unfold parseAsIbmMvsPds2
  apply Spec.bind (needToken_spec 0)
  intro name hname
  have hnamed : (Named.whole name.text).Sound env.lib :=
    Named.whole_sound hname.nonempty
  apply setEntry_then
  apply setEntry_then
  apply setEntry_then
  apply Spec.bind (getToken_spec 1)
  intro token _
  apply Spec.ite
  · intro _
    exact Spec.pure hnamed
  · intro _
    apply setEntry_then
    apply Spec.require_then
    apply Spec.bind pds2Rest_spec
    intro _ _
    exact Spec.pure hnamed

theorem parseAsIbmMvsTape_spec (env : FormatEnv) :
    Spec (OnLine text) (parseAsIbmMvsTape env) (Named.Sound env.lib) := by
  unfold parseAsIbmMvsTape
  apply Spec.bind (needToken_spec 0)
  intro _ _
  apply Spec.bind (needToken_spec 1)
  intro device _
  apply Spec.require_then
  apply Spec.bind (needToken_spec 2)
  intro name hname
  apply setEntry_then
  apply setEntry_then
  apply setEntry_then
  apply Spec.bind (noFurtherToken_spec 3)
  intro _ _
  exact Spec.pure (Named.whole_sound hname.nonempty)

/-! ## OS-9 -/

theorem parseAsOS9_spec (hlib : env.lib.SetsDates) :
    Spec (OnLine text) (parseAsOS9 env) (Named.Sound env.lib) := by
  unfold parseAsOS9
  apply Spec.bind (needToken_spec 0)
  intro ownerGroupToken _
  apply Spec.bind (Spec.expect _)
  intro pos _
  apply Spec.require_then
  apply Spec.require_then
  apply Spec.require_then
  apply setEntry_then
  apply Spec.bind (needToken_spec 1)
  intro date _
  apply Spec.bind (parseShortDate_spec hlib true date)
  intro _ _
  apply Spec.bind (needToken_spec 2)
  intro _ _
  apply Spec.bind (needToken_spec 3)
  intro permToken hperm
  have hpos := List.length_pos_iff.mpr hperm.nonempty
  apply Spec.bind (charAt_spec le_rfl (by omega))
  intro char _
  apply setEntry_then
  apply Spec.bind (needToken_spec 4)
  intro _ _
  apply Spec.bind (needNumber_spec 5)
  intro sizeToken _
  apply Spec.bind sizeToken.number_spec
  intro number _
  apply setEntry_then
  apply Spec.bind (needEndToken_spec 6)
  intro nameToken hname
  apply setEntry_then
  exact Spec.pure (Named.whole_sound hname.nonempty)

end TabFtp
