import TabFtp.OptionNotifications

/-!
# No change of an option is missed

What a watcher is interested in follows from its calls alone.  The watchers
that are stored say the same, so whoever takes the changed options tells every
watcher that is interested in one of them.  Changed options that nobody has
taken yet have a notification that nobody has followed yet.
-/

namespace TabFtp

namespace OptionsBase

variable {Handler Notifier Thread : Type}
  [DecidableEq Handler] [DecidableEq Thread]

/-! ## Interests -/

/-- What a call does to the options that handlers want to hear of, where
`none` is for all of them. -/
def heed (interests : List (Handler × Option ℕ))
    (call : OptionCall Handler Notifier Thread) :
    List (Handler × Option ℕ) :=
  match call with
  | .watch opt (some handler) (some _) => (handler, some opt) :: interests
  | .watchAll (some handler) _ => (handler, none) :: interests
  | .unwatch opt (some handler) =>
      interests.filter fun interest => interest ≠ (handler, some opt)
  | .unwatchAll (some handler) (some _) =>
      interests.filter fun interest => interest.1 ≠ handler
  | _ => interests

def interests (calls : List (OptionCall Handler Notifier Thread)) :
    List (Handler × Option ℕ) :=
  calls.foldl heed []

end OptionsBase

namespace OptionWatcher

variable {Handler Notifier : Type}

def wants (watcher : OptionWatcher Handler Notifier) :
    Option ℕ → Bool
  | some opt => watcher.options.test opt
  | none => watcher.all

structure Represents (watchers : List (OptionWatcher Handler Notifier))
    (interests : List (Handler × Option ℕ)) : Prop where
  unique : (watchers.map OptionWatcher.handler).Nodup
  wants : ∀ handler subject, (handler, subject) ∈ interests ↔
    ∃ watcher ∈ watchers,
      watcher.handler = handler ∧ watcher.wants subject = true

variable {watchers rest : List (OptionWatcher Handler Notifier)}
  {watcher changed : OptionWatcher Handler Notifier}
  {interests others : List (Handler × Option ℕ)} {handler : Handler}

theorem represents_nil :
    Represents ([] : List (OptionWatcher Handler Notifier)) [] :=
  ⟨List.nodup_nil, by simp⟩

theorem Represents.perm {reordered : List (OptionWatcher Handler Notifier)}
    (hrep : Represents watchers interests)
    (hperm : reordered.Perm watchers) : Represents reordered interests where
  unique := (hperm.map _).nodup_iff.mpr hrep.unique
  wants := by
    intro handler subject
    rw [hrep.wants]
    constructor
    · rintro ⟨watcher, hmem, hboth⟩
      exact ⟨watcher, hperm.mem_iff.mpr hmem, hboth⟩
    · rintro ⟨watcher, hmem, hboth⟩
      exact ⟨watcher, hperm.mem_iff.mp hmem, hboth⟩

theorem represents_cons :
    Represents (watcher :: rest) interests ↔
      (∀ other ∈ rest, other.handler ≠ watcher.handler) ∧
      (rest.map OptionWatcher.handler).Nodup ∧
      ∀ handler subject, (handler, subject) ∈ interests ↔
        (watcher.handler = handler ∧ watcher.wants subject = true) ∨
          ∃ other ∈ rest, other.handler = handler ∧
            other.wants subject = true := by
  constructor
  · intro hrep
    have hunique := hrep.unique
    rw [List.map_cons, List.nodup_cons] at hunique
    refine ⟨?_, hunique.2, ?_⟩
    · intro other hother heq
      exact hunique.1 (List.mem_map.mpr ⟨other, hother, heq⟩)
    · intro handler subject
      rw [hrep.wants]
      simp only [List.mem_cons, exists_eq_or_imp]
  · rintro ⟨hfirst, hunique, hwants⟩
    constructor
    · rw [List.map_cons, List.nodup_cons]
      refine ⟨?_, hunique⟩
      intro hmem
      obtain ⟨other, hother, heq⟩ := List.mem_map.mp hmem
      exact hfirst other hother heq
    · intro handler subject
      rw [hwants]
      simp only [List.mem_cons, exists_eq_or_imp]

theorem Represents.first (hrep : Represents (watcher :: rest) interests)
    (subject : Option ℕ) :
    (watcher.handler, subject) ∈ interests ↔
      watcher.wants subject = true := by
  obtain ⟨hfirst, _, hwants⟩ := represents_cons.mp hrep
  have hnone : ¬ ∃ other ∈ rest, other.handler = watcher.handler ∧
      other.wants subject = true := by
    rintro ⟨other, hother, hsame, _⟩
    exact hfirst other hother hsame
  simp [hwants, hnone]

theorem Represents.absent (hrep : Represents watchers interests)
    (hnew : ∀ other ∈ watchers, other.handler ≠ handler)
    (subject : Option ℕ) : (handler, subject) ∉ interests := by
  rw [hrep.wants]
  rintro ⟨other, hother, hsame, _⟩
  exact hnew other hother hsame

theorem Represents.change (hrep : Represents (watcher :: rest) interests)
    (hhandler : changed.handler = watcher.handler)
    (hsame : ∀ subject, (watcher.handler, subject) ∈ others ↔
      changed.wants subject = true)
    (hothers : ∀ handler subject, handler ≠ watcher.handler →
      ((handler, subject) ∈ others ↔ (handler, subject) ∈ interests)) :
    Represents (changed :: rest) others := by
  obtain ⟨hfirst, hunique, hwants⟩ := represents_cons.mp hrep
  apply represents_cons.mpr
  rw [hhandler]
  refine ⟨hfirst, hunique, ?_⟩
  intro handler subject
  by_cases heq : watcher.handler = handler
  · subst heq
    have hnone : ¬ ∃ other ∈ rest, other.handler = watcher.handler ∧
        other.wants subject = true := by
      rintro ⟨other, hother, hsame, _⟩
      exact hfirst other hother hsame
    simp [hsame, hnone]
  · rw [hothers handler subject (Ne.symm heq), hwants]
    simp [heq]

theorem Represents.leave (hrep : Represents (watcher :: rest) interests)
    (hnothing : ∀ subject, watcher.wants subject = false) :
    Represents rest interests := by
  obtain ⟨hfirst, hunique, hwants⟩ := represents_cons.mp hrep
  refine ⟨hunique, ?_⟩
  intro handler subject
  rw [hwants]
  simp [hnothing]

theorem Represents.add (hrep : Represents watchers interests)
    (hnew : ∀ other ∈ watchers, other.handler ≠ watcher.handler)
    (hsame : ∀ subject, (watcher.handler, subject) ∈ others ↔
      watcher.wants subject = true)
    (hothers : ∀ handler subject, handler ≠ watcher.handler →
      ((handler, subject) ∈ others ↔ (handler, subject) ∈ interests)) :
    Represents (watchers ++ [watcher]) others := by
  have hcons : Represents (watcher :: watchers) others := by
    apply represents_cons.mpr
    refine ⟨hnew, hrep.unique, ?_⟩
    intro handler subject
    by_cases heq : watcher.handler = handler
    · subst heq
      have hnone : ¬ ∃ other ∈ watchers, other.handler = watcher.handler ∧
          other.wants subject = true := by
        rintro ⟨other, hother, hsame, _⟩
        exact hnew other hother hsame
      simp [hsame, hnone]
    · rw [hothers handler subject (Ne.symm heq), hrep.wants]
      simp [heq]
  exact hcons.perm (List.perm_append_singleton watcher watchers)

/-! ## Finding and removing -/

theorem modify_split (front back : List (OptionWatcher Handler Notifier))
    (watcher : OptionWatcher Handler Notifier)
    (change : OptionWatcher Handler Notifier →
      OptionWatcher Handler Notifier) :
    (front ++ watcher :: back).modify front.length change =
      front ++ change watcher :: back := by
  induction front with
  | nil => rfl
  | cons first front ih => simp [ih]

theorem swapRemove_perm (front back : List (OptionWatcher Handler Notifier))
    (watcher : OptionWatcher Handler Notifier) :
    (swapRemove front.length (front ++ watcher :: back)).Perm
      (front ++ back) := by
  unfold swapRemove
  rcases List.eq_nil_or_concat back with rfl | ⟨rest, last, rfl⟩
  · simp
  · have hsplit : front ++ watcher :: rest.concat last =
        (front ++ watcher :: rest) ++ [last] := by
      simp
    have hset : ((front ++ watcher :: rest) ++ [last]).set front.length
        last = (front ++ last :: rest) ++ [last] := by
      simp
    rw [hsplit, List.getLast?_concat]
    simp only
    rw [hset, List.dropLast_concat, List.concat_eq_append]
    apply List.Perm.append_left
    exact (List.perm_append_singleton last rest).symm

variable [DecidableEq Handler]

theorem indexOf_some {i : ℕ} (hindex : indexOf handler watchers = some i) :
    ∃ front watcher back, watchers = front ++ watcher :: back ∧
      front.length = i ∧ watcher.handler = handler := by
  obtain ⟨hlt, hsame, _⟩ := List.findIdx?_eq_some_iff_getElem.mp hindex
  refine ⟨watchers.take i, watchers[i], watchers.drop (i + 1), ?_, ?_, ?_⟩
  · rw [← List.drop_eq_getElem_cons hlt, List.take_append_drop]
  · exact List.length_take_of_le hlt.le
  · simpa using hsame

theorem indexOf_none (hindex : indexOf handler watchers = none) :
    ∀ watcher ∈ watchers, watcher.handler ≠ handler := by
  intro watcher hwatcher
  have hnot := List.findIdx?_eq_none_iff.mp hindex watcher hwatcher
  simpa using hnot

/-! ## Watching keeps to the interests -/

theorem Represents.watch (hrep : Represents watchers interests) (opt : ℕ)
    (handler : Handler) (notifier : Notifier) :
    Represents (OptionWatcher.watch opt (some handler) (some notifier)
      watchers) ((handler, some opt) :: interests) := by
  have hothers : ∀ other subject, other ≠ handler →
      ((other, subject) ∈ (handler, some opt) :: interests ↔
        (other, subject) ∈ interests) := by
    intro other subject hne
    simp [hne]
  unfold OptionWatcher.watch
  simp only
  cases hindex : indexOf handler watchers with
  | some i =>
      obtain ⟨front, watcher, back, rfl, rfl, rfl⟩ := indexOf_some hindex
      have hfront := hrep.perm List.perm_middle.symm
      simp only
      rw [modify_split]
      apply Represents.perm _ List.perm_middle
      refine hfront.change ?_ ?_ hothers
      · rfl
      intro subject
      rw [List.mem_cons, hfront.first]
      cases subject with
      | none => simp [OptionWatcher.wants]
      | some p =>
          simp [OptionWatcher.wants, WatchedOptions.test_set,
            @eq_comm _ p opt, or_comm]
  | none =>
      apply hrep.add (indexOf_none hindex) _ hothers
      intro subject
      have habsent := hrep.absent (indexOf_none hindex) subject
      cases subject with
      | none => simp [OptionWatcher.wants, habsent]
      | some p =>
          simp [OptionWatcher.wants, habsent, WatchedOptions.test_set,
            @eq_comm _ p opt]

theorem Represents.watchAll (hrep : Represents watchers interests)
    (handler : Handler) (notifier : Option Notifier) :
    Represents (OptionWatcher.watchAll (some handler) notifier watchers)
      ((handler, none) :: interests) := by
  have hothers : ∀ other subject, other ≠ handler →
      ((other, subject) ∈ (handler, none) :: interests ↔
        (other, subject) ∈ interests) := by
    intro other subject hne
    simp [hne]
  unfold OptionWatcher.watchAll
  simp only
  cases hindex : indexOf handler watchers with
  | some i =>
      obtain ⟨front, watcher, back, rfl, rfl, rfl⟩ := indexOf_some hindex
      have hfront := hrep.perm List.perm_middle.symm
      simp only
      rw [modify_split]
      apply Represents.perm _ List.perm_middle
      refine hfront.change ?_ ?_ hothers
      · rfl
      intro subject
      rw [List.mem_cons, hfront.first]
      cases subject with
      | none => simp [OptionWatcher.wants]
      | some p => simp [OptionWatcher.wants]
  | none =>
      apply hrep.add (indexOf_none hindex) _ hothers
      intro subject
      have habsent := hrep.absent (indexOf_none hindex) subject
      cases subject with
      | none => simp [OptionWatcher.wants]
      | some p => simp [OptionWatcher.wants, habsent]

theorem Represents.unwatch (hrep : Represents watchers interests) (opt : ℕ)
    (handler : Handler) :
    Represents (OptionWatcher.unwatch opt (some handler) watchers)
      (interests.filter fun interest => interest ≠ (handler, some opt)) := by
  have hothers : ∀ other subject, other ≠ handler →
      ((other, subject) ∈ interests.filter
          (fun interest => interest ≠ (handler, some opt)) ↔
        (other, subject) ∈ interests) := by
    intro other subject hne
    simp [hne]
  unfold OptionWatcher.unwatch
  simp only
  cases hindex : indexOf handler watchers with
  | some i =>
      obtain ⟨front, watcher, back, rfl, rfl, rfl⟩ := indexOf_some hindex
      have hfront := hrep.perm List.perm_middle.symm
      have hchanged : Represents
          ({ watcher with options := watcher.options.unset opt } ::
            (front ++ back))
          (interests.filter fun interest =>
            interest ≠ (watcher.handler, some opt)) := by
        refine hfront.change ?_ ?_ hothers
        · rfl
        intro subject
        rw [List.mem_filter, hfront.first]
        cases subject with
        | none => simp [OptionWatcher.wants]
        | some p =>
            simp [OptionWatcher.wants, WatchedOptions.test_unset,
              @eq_comm _ p opt]
      simp only
      rw [modify_split]
      split
      · exact hchanged.perm List.perm_middle
      · rename_i hnothing
        apply Represents.perm _ (swapRemove_perm front back _)
        apply hchanged.leave
        intro subject
        have hat : (front ++ { watcher with
            options := watcher.options.unset opt } :: back)[front.length]? =
              some { watcher with options := watcher.options.unset opt } := by
          simp
        rw [hat] at hnothing
        obtain ⟨hany, hall⟩ : (watcher.options.unset opt).any = false ∧
            watcher.all = false := by
          simpa using hnothing
        cases subject with
        | none => exact hall
        | some p =>
            by_contra htest
            have hnotempty := WatchedOptions.any_of_test
              (by simpa [OptionWatcher.wants] using htest)
            rw [hany] at hnotempty
            cases hnotempty
  | none =>
      constructor
      · exact hrep.unique
      · intro other subject
        by_cases heq : other = handler
        · subst heq
          have habsent := hrep.absent (indexOf_none hindex) subject
          rw [List.mem_filter]
          simp only [habsent, false_and, false_iff]
          rintro ⟨watcher, hwatcher, hsame, _⟩
          exact indexOf_none hindex watcher hwatcher hsame
        · rw [hothers other subject heq]
          exact hrep.wants other subject

theorem Represents.filter_absent (hrep : Represents watchers interests)
    (hnew : ∀ other ∈ watchers, other.handler ≠ handler) :
    interests.filter (fun interest => interest.1 ≠ handler) = interests := by
  rw [List.filter_eq_self]
  intro interest hinterest
  have habsent := hrep.absent hnew interest.2
  apply decide_eq_true
  rintro rfl
  exact habsent hinterest

theorem Represents.forget (hrep : Represents (watcher :: rest) interests) :
    Represents rest (interests.filter fun interest =>
      interest.1 ≠ watcher.handler) := by
  obtain ⟨hfirst, hunique, hwants⟩ := represents_cons.mp hrep
  refine ⟨hunique, ?_⟩
  intro handler subject
  rw [List.mem_filter, hwants]
  by_cases heq : watcher.handler = handler
  · subst heq
    have hnone : ¬ ∃ other ∈ rest, other.handler = watcher.handler ∧
        other.wants subject = true := by
      rintro ⟨other, hother, hsame, _⟩
      exact hfirst other hother hsame
    simp [hnone]
  · simp [heq, Ne.symm heq]

theorem Represents.unwatchAll (hrep : Represents watchers interests)
    (handler : Handler) (notifier : Notifier) :
    Represents (OptionWatcher.unwatchAll (some handler) (some notifier)
        watchers)
      (interests.filter fun interest => interest.1 ≠ handler) := by
  unfold OptionWatcher.unwatchAll
  simp only
  cases hindex : indexOf handler watchers with
  | some i =>
      obtain ⟨front, watcher, back, rfl, rfl, rfl⟩ := indexOf_some hindex
      have hfront := hrep.perm List.perm_middle.symm
      exact hfront.forget.perm (swapRemove_perm front back watcher)
  | none =>
      rw [hrep.filter_absent (indexOf_none hindex)]
      exact hrep

end OptionWatcher

namespace OptionDef

variable {lib : IntegerText} {option : OptionDef} {val : OptionValue}

theorem setNumber_current {value : ℤ} {predefined : Bool}
    (hsame : (option.setNumber lib val value predefined).2 = false) :
    (option.setNumber lib val value predefined).1.current =
      val.current := by
  unfold setNumber at hsame ⊢
  split_ifs at hsame ⊢
  · rfl
  · rfl
  · rfl
  · simp only at hsame ⊢
    split_ifs at hsame ⊢
    · rfl
    · rfl

theorem setText_current {value : WString} {predefined : Bool}
    (hsame : (option.setText lib val value predefined).2 = false) :
    (option.setText lib val value predefined).1.current = val.current := by
  unfold setText at hsame ⊢
  split_ifs at hsame ⊢
  · rfl
  · rfl
  · simp only at hsame ⊢
    split_ifs at hsame ⊢
    · rfl
    · rfl

theorem perform_current {call : SetCall}
    (hsame : (option.perform lib val call).2 = false) :
    (option.perform lib val call).1.current = val.current := by
  cases call with
  | text value predefined =>
      unfold perform set at hsame ⊢
      simp only at hsame ⊢
      cases htype : option.type with
      | string =>
          rw [htype] at hsame
          exact setText_current hsame
      | number =>
          rw [htype] at hsame
          exact setNumber_current hsame
      | boolean =>
          rw [htype] at hsame
          exact setNumber_current hsame
      | xml => rfl
  | number value =>
      unfold perform at hsame ⊢
      simp only at hsame ⊢
      cases htype : option.type with
      | string =>
          rw [htype] at hsame
          exact setText_current hsame
      | number =>
          rw [htype] at hsame
          exact setNumber_current hsame
      | boolean =>
          rw [htype] at hsame
          exact setNumber_current hsame
      | xml => rfl
  | document approved =>
      unfold perform setDocument at hsame ⊢
      simp only at hsame ⊢
      split_ifs at hsame ⊢
      rfl

end OptionDef

namespace OptionsBase

open OptionWatcher

variable {Handler Notifier Thread : Type}
  [DecidableEq Handler] [DecidableEq Thread] {lib : IntegerText}
  {base after : OptionsBase Handler Notifier Thread}
  {answer : List (OptionSignal Handler Notifier)}

/-! ## What a step does -/

omit [DecidableEq Handler] [DecidableEq Thread] in
theorem set_cases (lib : IntegerText)
    (base : OptionsBase Handler Notifier Thread) (opt : ℕ) (call : SetCall) :
    (∃ values : List OptionValue,
      base.set lib opt call = ({ base with values := values }, []) ∧
      ∀ i : ℕ, values[i]?.map OptionValue.current =
        base.values[i]?.map OptionValue.current) ∨
    ∃ values : List OptionValue, base.set lib opt call =
      { base with values := values }.setChanged opt := by
  unfold set
  cases hoption : base.options[opt]? with
  | none => exact Or.inl ⟨base.values, rfl, fun _ => rfl⟩
  | some option =>
      cases hval : base.values[opt]? with
      | none => exact Or.inl ⟨base.values, rfl, fun _ => rfl⟩
      | some val =>
          simp only
          cases hresult : (option.perform lib val call).2 with
          | true => exact Or.inr ⟨_, rfl⟩
          | false =>
              refine Or.inl ⟨_, rfl, ?_⟩
              intro i
              rw [List.getElem?_set]
              by_cases hi : opt = i
              · subst hi
                have hlt := (List.getElem?_eq_some_iff.mp hval).1
                rw [if_pos rfl, if_pos hlt, hval]
                exact congrArg some (OptionDef.perform_current hresult)
              · rw [if_neg hi]

theorem step_represents {interests : List (Handler × Option ℕ)}
    (hrep : Represents base.watchers interests)
    {call : OptionCall Handler Notifier Thread}
    (hstep : step lib base call = some (after, answer)) :
    Represents after.watchers (heed interests call) := by
  cases call with
  | load =>
      unfold step at hstep
      simp only at hstep
      split at hstep
      · cases hstep
      · cases hstep
        exact hrep
  | set opt call =>
      have hset : base.set lib opt call = (after, answer) :=
        Option.some.inj hstep
      rcases set_cases lib base opt call with ⟨values, heq, _⟩ | ⟨values, heq⟩
      · cases heq.symm.trans hset
        exact hrep
      · cases heq.symm.trans hset
        exact hrep
  | watch opt handler notifier =>
      cases hstep
      cases handler with
      | none => exact hrep
      | some handler =>
          cases notifier with
          | none => exact hrep
          | some notifier => exact hrep.watch opt handler notifier
  | watchAll handler notifier =>
      cases hstep
      cases handler with
      | none => exact hrep
      | some handler => exact hrep.watchAll handler notifier
  | unwatch opt handler =>
      cases hstep
      cases handler with
      | none => exact hrep
      | some handler => exact hrep.unwatch opt handler
  | unwatchAll handler notifier =>
      cases hstep
      cases handler with
      | none => exact hrep
      | some handler =>
          cases notifier with
          | none => exact hrep
          | some notifier => exact hrep.unwatchAll handler notifier
  | continueNotifyChanged thread =>
      unfold step at hstep
      simp only at hstep
      split at hstep
      · cases hstep
      · split at hstep
        · cases hstep
          exact hrep
        · cases hstep
          exact hrep
  | tellWatchers thread =>
      unfold step at hstep
      simp only at hstep
      split at hstep
      · cases hstep
      · cases hstep
        exact hrep

theorem reaches_represents
    {calls : List (OptionCall Handler Notifier Thread)}
    {signals : List (OptionSignal Handler Notifier)}
    (hreach : (machine Handler Notifier Thread lib).Reaches calls signals
      base) : Represents base.watchers (interests calls) := by
  apply hreach.history fun calls _ state =>
    Represents state.watchers (interests calls)
  · intro state hinitial
    rw [hinitial.2.1]
    exact represents_nil
  · intro calls signals state call following answer hrep _ hstep
    unfold interests
    rw [List.foldl_concat]
    exact step_represents hrep hstep

/-! ## Notifications -/

/-- `notify_changed` has been called, and `continue_notify_changed` not
since. -/
def Unfollowed (signals : List (OptionSignal Handler Notifier)) : Prop :=
  ∃ before after, signals = before ++ .notifyChanged :: after ∧
    .continued ∉ after

omit [DecidableEq Handler] in
theorem Unfollowed.append {signals more : List (OptionSignal Handler Notifier)}
    (hsignals : Unfollowed signals) (hmore : .continued ∉ more) :
    Unfollowed (signals ++ more) := by
  obtain ⟨before, after, rfl, hafter⟩ := hsignals
  refine ⟨before, after ++ more, by simp, ?_⟩
  rw [List.mem_append]
  exact not_or_intro hafter hmore

def Attended (signals : List (OptionSignal Handler Notifier))
    (base : OptionsBase Handler Notifier Thread) : Prop :=
  base.canNotify = true → base.changed.any = true → Unfollowed signals

omit [DecidableEq Handler] [DecidableEq Thread] in
theorem Attended.setChanged
    {signals : List (OptionSignal Handler Notifier)}
    (hattended : Attended signals base) (opt : ℕ) :
    Attended (signals ++ (base.setChanged opt).2)
      (base.setChanged opt).1 := by
  intro hcan _
  have hcan' : base.canNotify = true := hcan
  unfold OptionsBase.setChanged
  rw [hcan']
  cases hany : base.changed.any with
  | true => simpa using hattended hcan' hany
  | false => exact ⟨signals, [], by simp, by simp⟩

omit [DecidableEq Handler] in
theorem told_not_continued (changed : WatchedOptions)
    (watchers : List (OptionWatcher Handler Notifier)) :
    OptionSignal.continued ∉ watchers.filterMap (tell changed) := by
  rw [List.mem_filterMap]
  rintro ⟨watcher, _, htold⟩
  unfold tell at htold
  simp only at htold
  split at htold
  · split at htold
    · cases htold
    · cases htold
  · split at htold
    · cases htold
    · cases htold

theorem step_attended {signals : List (OptionSignal Handler Notifier)}
    (hattended : Attended signals base)
    {call : OptionCall Handler Notifier Thread}
    (hstep : step lib base call = some (after, answer)) :
    Attended (signals ++ answer) after := by
  cases call with
  | load =>
      unfold step at hstep
      simp only at hstep
      split at hstep
      · cases hstep
      · cases hstep
        intro _ hany
        cases hany
  | set opt call =>
      have hset : base.set lib opt call = (after, answer) :=
        Option.some.inj hstep
      rcases set_cases lib base opt call with ⟨values, heq, _⟩ | ⟨values, heq⟩
      · cases heq.symm.trans hset
        rw [List.append_nil]
        exact hattended
      · have hvalues : Attended signals { base with values := values } :=
          hattended
        have hmarked := hvalues.setChanged opt
        rw [← heq, hset] at hmarked
        exact hmarked
  | continueNotifyChanged thread =>
      unfold step at hstep
      simp only at hstep
      split at hstep
      · cases hstep
      · split at hstep
        · cases hstep
          intro _ hany
          cases hany
        · rename_i hnone
          cases hstep
          intro _ hany
          exact absurd hany hnone
  | tellWatchers thread =>
      unfold step at hstep
      simp only at hstep
      split at hstep
      · cases hstep
      · rename_i changed _
        cases hstep
        intro hcan hany
        exact (hattended hcan hany).append
          (told_not_continued changed base.watchers)
  | watch opt handler notifier =>
      cases hstep
      rw [List.append_nil]
      exact hattended
  | watchAll handler notifier =>
      cases hstep
      rw [List.append_nil]
      exact hattended
  | unwatch opt handler =>
      cases hstep
      rw [List.append_nil]
      exact hattended
  | unwatchAll handler notifier =>
      cases hstep
      rw [List.append_nil]
      exact hattended

theorem reaches_attended
    {calls : List (OptionCall Handler Notifier Thread)}
    {signals : List (OptionSignal Handler Notifier)}
    (hreach : (machine Handler Notifier Thread lib).Reaches calls signals
      base) : Attended signals base := by
  apply hreach.invariant Attended
  · intro state hinitial hcan
    rw [hinitial.1] at hcan
    cases hcan
  · intro signals state call following answer hattended _ hstep
    exact step_attended hattended hstep

/-! ## The way of one change -/

structure Collected (opt : ℕ) (base : OptionsBase Handler Notifier Thread) :
    Prop where
  canNotify : base.canNotify = true
  changed : base.changed.test opt = true

theorem set_collects {opt : ℕ} {call : SetCall}
    (hcan : base.canNotify = true)
    (hstep : step lib base (.set opt call) = some (after, answer))
    (hchanges : after.values[opt]?.map OptionValue.current ≠
      base.values[opt]?.map OptionValue.current) :
    Collected opt after := by
  have hset : base.set lib opt call = (after, answer) :=
    Option.some.inj hstep
  rcases set_cases lib base opt call with ⟨values, heq, hsame⟩ | ⟨values, heq⟩
  · cases heq.symm.trans hset
    exact absurd (hsame opt) hchanges
  · cases heq.symm.trans hset
    refine ⟨hcan, ?_⟩
    show (base.changed.set opt).test opt = true
    rw [WatchedOptions.test_set]
    simp

theorem Collected.step {opt : ℕ}
    (hcollected : Collected opt base)
    {call : OptionCall Handler Notifier Thread}
    (hcall : ∀ thread, call ≠ .continueNotifyChanged thread)
    (hstep : OptionsBase.step lib base call = some (after, answer)) :
    Collected opt after := by
  cases call with
  | load =>
      unfold OptionsBase.step at hstep
      rw [hcollected.canNotify] at hstep
      cases hstep
  | set other call =>
      have hset : base.set lib other call = (after, answer) :=
        Option.some.inj hstep
      rcases set_cases lib base other call with
        ⟨values, heq, _⟩ | ⟨values, heq⟩
      · cases heq.symm.trans hset
        exact ⟨hcollected.canNotify, hcollected.changed⟩
      · cases heq.symm.trans hset
        refine ⟨hcollected.canNotify, ?_⟩
        show (base.changed.set other).test opt = true
        rw [WatchedOptions.test_set, hcollected.changed, Bool.true_or]
  | continueNotifyChanged thread => exact absurd rfl (hcall thread)
  | tellWatchers thread =>
      unfold OptionsBase.step at hstep
      simp only at hstep
      split at hstep
      · cases hstep
      · cases hstep
        exact ⟨hcollected.canNotify, hcollected.changed⟩
  | watch other handler notifier =>
      cases hstep
      exact ⟨hcollected.canNotify, hcollected.changed⟩
  | watchAll handler notifier =>
      cases hstep
      exact ⟨hcollected.canNotify, hcollected.changed⟩
  | unwatch other handler =>
      cases hstep
      exact ⟨hcollected.canNotify, hcollected.changed⟩
  | unwatchAll handler notifier =>
      cases hstep
      exact ⟨hcollected.canNotify, hcollected.changed⟩

def Taken (thread : Thread) (opt : ℕ)
    (base : OptionsBase Handler Notifier Thread) : Prop :=
  ∃ changed, base.running.lookup thread = some changed ∧
    changed.test opt = true

theorem Collected.take {opt : ℕ} {thread : Thread}
    (hcollected : Collected opt base)
    (hstep : OptionsBase.step lib base (.continueNotifyChanged thread) =
      some (after, answer)) : Taken thread opt after := by
  have hany := WatchedOptions.any_of_test hcollected.changed
  unfold OptionsBase.step at hstep
  simp only at hstep
  split at hstep
  · cases hstep
  · rw [if_pos hany] at hstep
    cases hstep
    refine ⟨base.changed, ?_, hcollected.changed⟩
    simp

theorem lookup_filter_ne {running : List (Thread × WatchedOptions)}
    {thread other : Thread} (hne : thread ≠ other) :
    (running.filter fun entry => decide (entry.1 ≠ other)).lookup thread =
      running.lookup thread := by
  induction running with
  | nil => rfl
  | cons entry running ih =>
      obtain ⟨owner, changed⟩ := entry
      by_cases howner : owner = other
      · have hnot : (thread == owner) = false := by
          rw [howner]
          simpa using hne
        rw [List.filter_cons_of_neg (by simpa using howner), ih,
          List.lookup_cons, hnot]
      · rw [List.filter_cons_of_pos (by simpa using howner),
          List.lookup_cons, List.lookup_cons, ih]

/-- Other calls leave what a thread has taken. -/
theorem Taken.step {opt : ℕ} {thread : Thread}
    (htaken : Taken thread opt base)
    {call : OptionCall Handler Notifier Thread}
    (hcall : call ≠ .tellWatchers thread)
    (hstep : OptionsBase.step lib base call = some (after, answer)) :
    Taken thread opt after := by
  obtain ⟨changed, hlookup, htest⟩ := htaken
  cases call with
  | load =>
      unfold OptionsBase.step at hstep
      simp only at hstep
      split at hstep
      · cases hstep
      · cases hstep
        exact ⟨changed, hlookup, htest⟩
  | set other call =>
      have hset : base.set lib other call = (after, answer) :=
        Option.some.inj hstep
      rcases set_cases lib base other call with
        ⟨values, heq, _⟩ | ⟨values, heq⟩
      · cases heq.symm.trans hset
        exact ⟨changed, hlookup, htest⟩
      · cases heq.symm.trans hset
        exact ⟨changed, hlookup, htest⟩
  | continueNotifyChanged other =>
      unfold OptionsBase.step at hstep
      simp only at hstep
      split at hstep
      · cases hstep
      · rename_i hnone
        have hne : thread ≠ other := by
          rintro rfl
          rw [hlookup] at hnone
          cases hnone
        have hnot : (thread == other) = false := by
          simpa using hne
        split at hstep
        · cases hstep
          refine ⟨changed, ?_, htest⟩
          rw [List.lookup_cons, hnot]
          exact hlookup
        · cases hstep
          exact ⟨changed, hlookup, htest⟩
  | tellWatchers other =>
      have hne : thread ≠ other := by
        rintro rfl
        exact hcall rfl
      unfold OptionsBase.step at hstep
      simp only at hstep
      split at hstep
      · cases hstep
      · cases hstep
        refine ⟨changed, ?_, htest⟩
        rw [← hlookup]
        exact lookup_filter_ne hne
  | watch other handler notifier =>
      cases hstep
      exact ⟨changed, hlookup, htest⟩
  | watchAll handler notifier =>
      cases hstep
      exact ⟨changed, hlookup, htest⟩
  | unwatch other handler =>
      cases hstep
      exact ⟨changed, hlookup, htest⟩
  | unwatchAll handler notifier =>
      cases hstep
      exact ⟨changed, hlookup, htest⟩

omit [DecidableEq Handler] in
theorem tell_wanted {changed : WatchedOptions} {opt : ℕ}
    {watcher : OptionWatcher Handler Notifier}
    (htest : changed.test opt = true)
    (hwants : watcher.wants (some opt) = true ∨ watcher.wants none = true) :
    ∃ told, tell changed watcher =
        some (.told watcher.notifier watcher.handler told) ∧
      told.test opt = true := by
  let told := if watcher.all then changed
    else changed.restrict watcher.options
  have htold : told.test opt = true := by
    show (if watcher.all then changed
      else changed.restrict watcher.options).test opt = true
    cases hall : watcher.all with
    | true => exact htest
    | false =>
        have hoption : watcher.options.test opt = true :=
          hwants.resolve_right (by simp [wants, hall])
        simp [WatchedOptions.test_restrict, htest, hoption]
  refine ⟨told, ?_, htold⟩
  unfold tell
  exact if_pos (WatchedOptions.any_of_test htold)

/-- A thread tells all who are interested in what it has taken. -/
theorem Taken.tells {opt : ℕ} {thread : Thread}
    {interests : List (Handler × Option ℕ)}
    (htaken : Taken thread opt base)
    (hrep : Represents base.watchers interests) :
    ∃ after answer,
      OptionsBase.step lib base (.tellWatchers thread) =
          some (after, answer) ∧
      ∀ handler, (handler, some opt) ∈ interests ∨
          (handler, none) ∈ interests →
        ∃ notifier told, .told notifier handler told ∈ answer ∧
          told.test opt = true := by
  obtain ⟨changed, hlookup, htest⟩ := htaken
  have hstep : OptionsBase.step lib base (.tellWatchers thread) =
      some ({ base with
        running := base.running.filter fun other =>
          decide (other.1 ≠ thread) },
        base.watchers.filterMap (tell changed)) := by
    unfold OptionsBase.step
    simp only
    rw [hlookup]
  refine ⟨_, _, hstep, ?_⟩
  intro handler hinterested
  have hstored : ∃ watcher ∈ base.watchers, watcher.handler = handler ∧
      (watcher.wants (some opt) = true ∨ watcher.wants none = true) := by
    rcases hinterested with hoption | hall
    · obtain ⟨watcher, hmem, hhandler, hwants⟩ :=
        (hrep.wants handler (some opt)).mp hoption
      exact ⟨watcher, hmem, hhandler, Or.inl hwants⟩
    · obtain ⟨watcher, hmem, hhandler, hwants⟩ :=
        (hrep.wants handler none).mp hall
      exact ⟨watcher, hmem, hhandler, Or.inr hwants⟩
  obtain ⟨watcher, hmem, rfl, hwants⟩ := hstored
  obtain ⟨told, htell, htold⟩ := tell_wanted htest hwants
  exact ⟨watcher.notifier, told,
    List.mem_filterMap.mpr ⟨watcher, hmem, htell⟩, htold⟩

end OptionsBase

open OptionsBase

/-- In every run a set of changed options has a notification to follow.  And
if a call changes a value, then whoever runs `continue_notify_changed` next
gets to tell the watchers, and tells each one that is still interested that
the option has changed, whatever happens in between. -/
theorem option_changes_reported
    {Handler Notifier Thread : Type} [DecidableEq Handler]
    [DecidableEq Thread] {lib : IntegerText}
    {calls : List (OptionCall Handler Notifier Thread)}
    {signals : List (OptionSignal Handler Notifier)}
    {base : OptionsBase Handler Notifier Thread}
    (hreach : (machine Handler Notifier Thread lib).Reaches calls signals
      base) :
    (base.canNotify = true → base.changed.any = true →
      Unfollowed signals) ∧
    ∀ opt call changed answer,
      base.canNotify = true →
      step lib base (.set opt call) = some (changed, answer) →
      changed.values[opt]?.map OptionValue.current ≠
        base.values[opt]?.map OptionValue.current →
      ∀ waiting unheard later,
        ((machine Handler Notifier Thread lib).startingAt
          changed).ReachesWithin
            (fun _ call => ∀ thread, call ≠ .continueNotifyChanged thread)
            waiting unheard later →
        ∀ thread taken continued,
          step lib later (.continueNotifyChanged thread) =
            some (taken, continued) →
          ∀ meanwhile heard ready,
            ((machine Handler Notifier Thread lib).startingAt
              taken).ReachesWithin
                (fun _ call => call ≠ .tellWatchers thread) meanwhile heard
                ready →
            ∃ after told,
              step lib ready (.tellWatchers thread) = some (after, told) ∧
              ∀ handler,
                (handler, some opt) ∈ interests (calls ++ [.set opt call] ++
                  waiting ++ [.continueNotifyChanged thread] ++ meanwhile) ∨
                (handler, none) ∈ interests (calls ++ [.set opt call] ++
                  waiting ++ [.continueNotifyChanged thread] ++ meanwhile) →
                ∃ notifier options,
                  .told notifier handler options ∈ told ∧
                  options.test opt = true := by
  refine ⟨reaches_attended hreach, ?_⟩
  intro opt call changed answer hcan hset hchanges waiting unheard later
    hwaiting thread taken continued htake meanwhile heard ready hmeanwhile
  have hlater : Collected opt later := by
    apply hwaiting.stateInvariant (Collected opt)
    · intro state hinitial
      rw [show state = changed from hinitial]
      exact set_collects hcan hset hchanges
    · intro state call following answer hcollected hcall hstep
      exact hcollected.step hcall hstep
  have hready : Taken thread opt ready := by
    apply hmeanwhile.stateInvariant (Taken thread opt)
    · intro state hinitial
      rw [show state = taken from hinitial]
      exact hlater.take htake
    · intro state call following answer htaken hcall hstep
      exact htaken.step hcall hstep
  have hsetStep : (machine Handler Notifier Thread lib).step base
      (.set opt call) = some (changed, answer) := hset
  have htakeStep : (machine Handler Notifier Thread lib).step later
      (.continueNotifyChanged thread) = some (taken, continued) := htake
  have hchanged := hreach.next trivial hsetStep
  have hwaited := hchanged.resume (hwaiting.mono fun _ _ _ => trivial)
  have htaken := hwaited.next trivial htakeStep
  have hall := htaken.resume (hmeanwhile.mono fun _ _ _ => trivial)
  exact hready.tells (reaches_represents hall)

/-- One option, with its value, when options have been loaded and a handler
watches it. -/
def watchedReconnects : OptionsBase ℕ ℕ ℕ where
  options := [reconnectCount]
  values := [twoReconnects]
  canNotify := true
  changed := WatchedOptions.empty
  watchers := [⟨7, some 1, WatchedOptions.empty.set 0, false⟩]
  running := []

def takenReconnects : OptionsBase ℕ ℕ ℕ :=
  { watchedReconnects with
    values := [⟨['5'], 5, false, 1⟩]
    running := [(3, WatchedOptions.empty.set 0)] }

/-- The watcher is told when its notifier goes on. -/
theorem option_changes_reported_reconnects :
    ∃ after told,
      step digitText takenReconnects (.tellWatchers 3) = some (after, told) ∧
      ∃ notifier options, .told notifier 7 options ∈ told ∧
        options.test 0 = true := by
  let unwatched : OptionsBase ℕ ℕ ℕ :=
    { watchedReconnects with canNotify := false, watchers := [] }
  let loaded : OptionsBase ℕ ℕ ℕ := { watchedReconnects with watchers := [] }
  let changed : OptionsBase ℕ ℕ ℕ :=
    { watchedReconnects with
      values := [⟨['5'], 5, false, 1⟩]
      changed := WatchedOptions.empty.set 0 }
  have hstart : (machine ℕ ℕ ℕ digitText).Reaches [] [] unwatched :=
    .start ⟨rfl, rfl, rfl⟩
  have hload : (machine ℕ ℕ ℕ digitText).step unwatched .load =
      some (loaded, []) := rfl
  have hwatch : (machine ℕ ℕ ℕ digitText).step loaded
      (.watch 0 (some 7) (some 1)) = some (watchedReconnects, []) := rfl
  have hreach := (hstart.next trivial hload).next trivial hwatch
  have hset : step digitText watchedReconnects
      (.set 0 (.text ['5'] false)) = some (changed, [.notifyChanged]) := rfl
  have htake : step digitText changed (.continueNotifyChanged 3) =
      some (takenReconnects, [.continued]) := rfl
  have hreported := (option_changes_reported hreach).2 0 (.text ['5'] false)
    changed [.notifyChanged] rfl hset (by decide) [] [] changed (.start rfl)
    3 takenReconnects [.continued] htake [] [] takenReconnects (.start rfl)
  obtain ⟨after, told, hstep, hall⟩ := hreported
  exact ⟨after, told, hstep, hall 7 (Or.inl (by decide))⟩

end TabFtp
