import TabFtp.FtpMkdirSteps

/-!
# Runs of the directory creation

Whatever the server answers, the operation ends, it creates every directory
where it belongs, and it succeeds only if its path is there.
-/

namespace TabFtp

open LabelledRuns ServerPath MkdirOperation

/-- The calls of `Send` that get past the lock. -/
def attemptCount (inputs : List MkdirInput) : ℕ :=
  inputs.countP fun input =>
    match input with
    | .sendNextCommand lockWaiting _ => !lockWaiting
    | _ => false

theorem attemptCount_append (inputs more : List MkdirInput) :
    attemptCount (inputs ++ more) =
      attemptCount inputs + attemptCount more :=
  List.countP_append ..

def AtOrBelow (directory path : ServerPath) : Prop :=
  directory = path ∨ directory.isSubdirOf exactName path false = true

def PathIsThere (start : MkdirRun) (events : List MkdirEvent) : Prop :=
  AtOrBelow start.directory start.op.path ∨
    ∃ command response, .answered command response ∈ events ∧
      Creates start.op.path command response

/-- What holds in a run from a start on. -/
structure CreatesDirectory (start : MkdirRun) (inputs : List MkdirInput)
    (events : List MkdirEvent) (run : MkdirRun) : Prop where
  inPlace : ∀ directory segment,
    run.standing = .awaiting (.mkd directory segment) →
      run.directory = run.op.currentMkdPath ∧
        directory = run.op.currentMkdPath ∧
        run.op.segments.getLast? = some segment ∧
        start.op.path = run.op.currentMkdPath.extend run.op.segments.reverse
  bounded : answeredCount events ≤ 3 * start.op.path.segmentCount + 1
  ends : answeredCount events = 3 * start.op.path.segmentCount + 1 →
    ∃ result, run.standing = .finished result
  attempts : attemptCount inputs ≤ answeredCount events + 2
  goesOn : (∃ result, run.standing = .finished result) ∨
    (∃ command, run.standing = .awaiting command ∧
      ∀ response cached directory,
        (run.step (.parseResponse response cached directory)).isSome = true) ∨
    ∀ converted, (run.step (.sendNextCommand false converted)).isSome = true
  succeeds : run.standing = .finished Reply.ok → PathIsThere start events

/-! ## The invariant -/

variable {start run following : MkdirRun} {inputs : List MkdirInput}
  {events more : List MkdirEvent}

/-- How many calls of `Send` the run is ahead of its replies. -/
def MkdirRun.sendsDue (run : MkdirRun) : ℕ :=
  match run.standing with
  | .sending | .waiting => if run.op.opState = .init then 2 else 1
  | _ => 0

structure MkdirUnderway (start : MkdirRun) (inputs : List MkdirInput)
    (events : List MkdirEvent) (run : MkdirRun) : Prop where
  path : run.op.path = start.op.path
  tracks : run.op.Tracks run.directory
  unchanged : run.op.opState = .init →
    run.op = start.op ∧ run.directory = start.directory
  unlocked : run.holdsLock = false → run.op.opState = .init
  replies : answeredCount events + run.op.repliesLeft ≤
    3 * start.op.path.segmentCount + 1
  attempts : attemptCount inputs + run.sendsDue ≤ answeredCount events + 2

inductive MkdirPhase (start : MkdirRun) (inputs : List MkdirInput)
    (events : List MkdirEvent) (run : MkdirRun) : Prop
  | sending : run.standing = .sending →
      MkdirUnderway start inputs events run →
      MkdirPhase start inputs events run
  | waiting : run.standing = .waiting → run.op.opState = .init →
      MkdirUnderway start inputs events run →
      MkdirPhase start inputs events run
  | awaiting {command : MkdirCommand} : run.standing = .awaiting command →
      run.op.nextCommand = some command →
      MkdirUnderway start inputs events run →
      MkdirPhase start inputs events run
  | finished {result : Reply} : run.standing = .finished result →
      answeredCount events ≤ 3 * start.op.path.segmentCount + 1 →
      attemptCount inputs ≤ answeredCount events + 2 →
      (result = Reply.ok → PathIsThere start events) →
      MkdirPhase start inputs events run

theorem MkdirUnderway.of_begins (hbegins : start.Begins) :
    MkdirUnderway start [] [] start where
  path := rfl
  tracks := by
    unfold Tracks
    rw [hbegins.opState]
    exact ⟨hbegins.segments, hbegins.truthful⟩
  unchanged _ := ⟨rfl, rfl⟩
  unlocked _ := hbegins.opState
  replies := by
    unfold repliesLeft
    rw [hbegins.opState]
    exact (Nat.zero_add _).le
  attempts := by
    unfold MkdirRun.sendsDue
    rw [hbegins.standing, hbegins.opState]
    exact le_rfl

theorem MkdirUnderway.finish {result : Reply} {input : MkdirInput}
    (hunder : MkdirUnderway start inputs events run)
    (hstanding : following.standing = .finished result)
    (hattempt : attemptCount [input] ≤ run.sendsDue)
    (hresult : result = Reply.ok → PathIsThere start events) :
    MkdirPhase start (inputs ++ [input]) (events ++ []) following := by
  have hreplies := hunder.replies
  have hattempts := hunder.attempts
  rw [List.append_nil]
  refine .finished hstanding (by omega) ?_ hresult
  rw [attemptCount_append]
  omega

theorem alreadyThere_spec (htracks : run.op.Tracks run.directory)
    (hinit : run.op.opState = .init) (hthere : run.op.alreadyThere = true) :
    AtOrBelow run.directory run.op.path := by
  unfold Tracks at htracks
  rw [hinit] at htracks
  unfold alreadyThere at hthere
  rw [Bool.and_eq_true, Bool.not_eq_true', Bool.or_eq_true] at hthere
  rcases htracks.2 with hempty | hdirectory
  · rw [hempty] at hthere
    cases hthere.1
  · rw [hdirectory]
    rcases hthere.2 with hsame | hbelow
    · exact Or.inl ((same_iff _ _).mp hsame)
    · exact Or.inr hbelow

/-! ## Steps -/

theorem MkdirUnderway.sends (htype : start.op.path.type ≠ .mvs)
    (hunder : MkdirUnderway start inputs events run)
    (hstanding : run.standing = .sending ∨ run.standing = .waiting)
    (converted : Bool) :
    let result :=
      { run with holdsLock := true }.after (run.op.send converted)
    MkdirPhase start
      (inputs ++ [.sendNextCommand false converted])
      (events ++ result.2) result.1 := by
  have htype' : run.op.path.type ≠ .mvs := by
    rw [hunder.path]
    exact htype
  have heffect := send_effect hunder.tracks htype' converted
  have hdue : run.sendsDue = if run.op.opState = .init then 2 else 1 := by
    unfold MkdirRun.sendsDue
    rcases hstanding with hstanding | hstanding
    · rw [hstanding]
    · rw [hstanding]
  have hone : attemptCount [.sendNextCommand false converted] = 1 := rfl
  have hattempts := hunder.attempts
  have hreplies := hunder.replies
  generalize run.op.send converted = outcome at heffect
  have hpos : attemptCount [.sendNextCommand false converted] ≤
      run.sendsDue := by
    rw [hone, hdue]
    split_ifs
    · exact one_le_two
    · exact le_rfl
  cases heffect with
  | there hinit hthere =>
      refine hunder.finish rfl hpos ?_
      intro _
      rcases hunder.unchanged hinit with ⟨hop, hdirectory⟩
      have hbelow := alreadyThere_spec hunder.tracks hinit hthere
      rw [hop, hdirectory] at hbelow
      exact Or.inl hbelow
  | @begins following hinit hnext hpath htracks hleft =>
      rw [hdue, if_pos hinit] at hattempts
      refine .sending rfl ⟨hpath.trans hunder.path, htracks,
        fun h => absurd h hnext, nofun, ?_, ?_⟩
      · rw [answeredCount_append]
        change answeredCount events + 0 + following.repliesLeft ≤ _
        omega
      · rw [answeredCount_append, attemptCount_append, hone]
        change attemptCount inputs + 1 +
          (if following.opState = .init then 2 else 1) ≤
            answeredCount events + 0 + 2
        rw [if_neg hnext]
        omega
  | @sends following command hnext hpath htracks hleft hcommand =>
      have hdue' : 1 ≤ run.sendsDue := hpos
      refine .awaiting rfl hcommand ⟨hpath.trans hunder.path, htracks,
        fun h => absurd h hnext, nofun, ?_, ?_⟩
      · rw [answeredCount_append]
        change answeredCount events + 0 + following.repliesLeft ≤ _
        omega
      · rw [answeredCount_append, attemptCount_append, hone]
        change attemptCount inputs + 1 + 0 ≤ answeredCount events + 0 + 2
        omega
  | fails _ =>
      exact hunder.finish rfl hpos nofun

theorem MkdirUnderway.answers {command : MkdirCommand} {response : WString}
    {cached : Option Bool} {directory : ServerPath}
    (hunder : MkdirUnderway start inputs events run)
    (hstanding : run.standing = .awaiting command)
    (hcommand : run.op.nextCommand = some command)
    (hmoves : run.movesExactly (.parseResponse response cached directory) =
      true) :
    let result := run.parseResponse command response cached directory
    MkdirPhase start
      (inputs ++ [.parseResponse response cached directory])
      (events ++ result.2) result.1 := by
  have hexact : ∀ target, command = .cwd target →
      accepted response = true → directory = target := by
    intro target htarget haccepted
    unfold MkdirRun.movesExactly at hmoves
    rw [hstanding, htarget] at hmoves
    simpa [haccepted] using hmoves
  have heffect := parseResponse_effect hunder.tracks hcommand hexact cached
  have hdue : run.sendsDue = 0 := by
    unfold MkdirRun.sendsDue
    rw [hstanding]
  have hinput :
      attemptCount [.parseResponse response cached directory] = 0 := rfl
  have hattempts := hunder.attempts
  have hreplies := hunder.replies
  have hcount : ∀ more, answeredCount more = 0 →
      answeredCount (.answered command response :: more) = 1 := by
    intro more hmore
    unfold answeredCount at hmore ⊢
    rw [List.countP_cons, hmore]
    rfl
  have hpos := hunder.tracks.repliesLeft_pos
  unfold MkdirRun.parseResponse
  dsimp only
  generalize run.op.parseResponse response cached = outcome at heffect
  cases heffect with
  | @goesOn following more hquiet hnext hpath htracks hleft =>
      refine .sending rfl ⟨hpath.trans hunder.path, htracks,
        fun h => absurd h hnext, ?_, ?_, ?_⟩
      · intro hunlocked
        unfold nextCommand at hcommand
        rw [hunder.unlocked hunlocked] at hcommand
        cases hcommand
      · rw [answeredCount_append]
        change answeredCount events +
          answeredCount (.answered command response :: more) +
            following.repliesLeft ≤ _
        rw [hcount more hquiet]
        omega
      · rw [answeredCount_append, attemptCount_append, hinput]
        change attemptCount inputs + 0 +
          (if following.opState = .init then 2 else 1) ≤
            answeredCount events +
              answeredCount (.answered command response :: more) + 2
        rw [if_neg hnext, hcount more hquiet]
        omega
  | @succeeds following more hquiet hcreates =>
      have hone := hcount more hquiet
      refine .finished rfl ?_ ?_ ?_
      · rw [answeredCount_append]
        change answeredCount events +
          answeredCount (.answered command response :: more) ≤ _
        omega
      · rw [answeredCount_append, attemptCount_append, hinput]
        omega
      · intro _
        rw [hunder.path] at hcreates
        exact Or.inr ⟨command, response,
          List.mem_append_right _ (List.mem_cons_self ..), hcreates⟩
  | @fails result herror =>
      have hone := hcount [] rfl
      have hok : result ≠ Reply.ok := by
        rintro rfl
        cases herror
      have hcontinued : result ≠ Reply.continued := by
        rintro rfl
        cases herror
      refine .finished (if_neg hcontinued) ?_ ?_ (fun h => absurd h hok)
      · rw [answeredCount_append]
        change answeredCount events +
          answeredCount [.answered command response] ≤ _
        omega
      · rw [answeredCount_append, attemptCount_append, hinput]
        omega

theorem MkdirUnderway.waits {converted : Bool}
    (hunder : MkdirUnderway start inputs events run)
    (hstanding : run.standing = .sending ∨ run.standing = .waiting)
    (hlock : run.holdsLock = false) :
    MkdirPhase start (inputs ++ [.sendNextCommand true converted])
      (events ++ []) { run with standing := .waiting } := by
  have hinit := hunder.unlocked hlock
  have hdue : run.sendsDue = 2 := by
    unfold MkdirRun.sendsDue
    rcases hstanding with hstanding | hstanding
    · rw [hstanding, hinit]
      rfl
    · rw [hstanding, hinit]
      rfl
  have hattempts := hunder.attempts
  rw [hdue] at hattempts
  rw [List.append_nil]
  refine .waiting rfl hinit ⟨hunder.path, hunder.tracks, hunder.unchanged,
    hunder.unlocked, hunder.replies, ?_⟩
  rw [attemptCount_append]
  change attemptCount inputs + 0 +
    (if run.op.opState = .init then 2 else 1) ≤ _
  rw [if_pos hinit]
  exact hattempts

theorem MkdirUnderway.unexpected
    (hunder : MkdirUnderway start inputs events run)
    (hstanding : run.standing = .waiting) (hinit : run.op.opState = .init)
    (response : WString) (cached : Option Bool) (directory : ServerPath) :
    let result := run.parseUnexpected response cached
    MkdirPhase start
      (inputs ++ [.parseResponse response cached directory])
      (events ++ result.2) result.1 := by
  unfold MkdirRun.parseUnexpected
  by_cases hpreliminary : response.head? = some '1'
  · rw [if_pos hpreliminary]
    have hparse : run.op.parseResponse response cached =
        run.op.finish Reply.internalerror := by
      unfold MkdirOperation.parseResponse
      rw [hinit]
    rw [hparse]
    exact hunder.finish rfl (Nat.zero_le _) nofun
  · rw [if_neg hpreliminary]
    dsimp only
    rw [List.append_nil]
    refine .waiting hstanding hinit { hunder with attempts := ?_ }
    rw [attemptCount_append]
    exact hunder.attempts

theorem MkdirRun.abort_cases {result : Reply} {answer : List MkdirEvent}
    (hstep : run.step (.abort result) = some (following, answer)) :
    result.has Reply.error = true ∧
      following = { run with standing := .finished result } ∧
      answer = [] := by
  have hended : ∀ {ends : Option (MkdirRun × List MkdirEvent)},
      (if result.has Reply.error = true then ends else none) =
        some (following, answer) →
      result.has Reply.error = true ∧ ends = some (following, answer) := by
    intro ends hends
    split_ifs at hends with herror
    exact ⟨herror, hends⟩
  obtain ⟨op, holdsLock, standing, directory⟩ := run
  cases standing with
  | finished ended => cases hstep
  | sending =>
      obtain ⟨herror, hends⟩ := hended hstep
      cases hends
      exact ⟨herror, rfl, rfl⟩
  | waiting =>
      obtain ⟨herror, hends⟩ := hended hstep
      cases hends
      exact ⟨herror, rfl, rfl⟩
  | awaiting command =>
      obtain ⟨herror, hends⟩ := hended hstep
      cases hends
      exact ⟨herror, rfl, rfl⟩

theorem MkdirPhase.aborts {result : Reply}
    (hphase : MkdirPhase start inputs events run)
    (herror : result.has Reply.error = true) :
    MkdirPhase start (inputs ++ [.abort result]) (events ++ [])
      { run with standing := .finished result } := by
  have hok : result = Reply.ok → PathIsThere start events := by
    rintro rfl
    cases herror
  cases hphase with
  | sending _ hunder => exact hunder.finish rfl (Nat.zero_le _) hok
  | waiting _ _ hunder => exact hunder.finish rfl (Nat.zero_le _) hok
  | awaiting _ _ hunder => exact hunder.finish rfl (Nat.zero_le _) hok
  | finished _ hreplies hattempts _ =>
      rw [List.append_nil]
      refine .finished rfl hreplies ?_ hok
      rw [attemptCount_append]
      exact hattempts

theorem MkdirPhase.sendNextCommand {lockWaiting converted : Bool}
    {answer : List MkdirEvent} (htype : start.op.path.type ≠ .mvs)
    (hunder : MkdirUnderway start inputs events run)
    (hstanding : run.standing = .sending ∨ run.standing = .waiting)
    (hcall : run.sendNextCommand lockWaiting converted =
      some (following, answer)) :
    MkdirPhase start (inputs ++ [.sendNextCommand lockWaiting converted])
      (events ++ answer) following := by
  unfold MkdirRun.sendNextCommand at hcall
  cases lockWaiting with
  | false =>
      cases hcall
      exact hunder.sends htype hstanding converted
  | true =>
      rw [if_pos rfl] at hcall
      cases hlock : run.holdsLock with
      | true =>
          rw [if_pos hlock] at hcall
          cases hcall
      | false =>
          rw [if_neg (by rw [hlock]; exact Bool.false_ne_true)] at hcall
          cases hcall
          exact hunder.waits hstanding hlock

theorem MkdirPhase.step {input : MkdirInput} {answer : List MkdirEvent}
    (htype : start.op.path.type ≠ .mvs)
    (hphase : MkdirPhase start inputs events run)
    (hmoves : run.movesExactly input = true)
    (hstep : run.step input = some (following, answer)) :
    MkdirPhase start (inputs ++ [input]) (events ++ answer) following := by
  cases input with
  | sendNextCommand lockWaiting converted =>
      unfold MkdirRun.step at hstep
      cases hphase with
      | sending hstanding hunder =>
          rw [hstanding] at hstep
          exact .sendNextCommand htype hunder (Or.inl hstanding) hstep
      | waiting hstanding _ hunder =>
          rw [hstanding] at hstep
          exact .sendNextCommand htype hunder (Or.inr hstanding) hstep
      | awaiting hstanding _ _ =>
          rw [hstanding] at hstep
          cases hstep
      | finished hstanding _ _ _ =>
          rw [hstanding] at hstep
          cases hstep
  | parseResponse response cached directory =>
      unfold MkdirRun.step at hstep
      cases hphase with
      | sending hstanding _ =>
          rw [hstanding] at hstep
          cases hstep
      | waiting hstanding hinit hunder =>
          rw [hstanding] at hstep
          have hresult := hunder.unexpected hstanding hinit response cached
            directory
          rw [Option.some.inj hstep] at hresult
          exact hresult
      | awaiting hstanding hcommand hunder =>
          rw [hstanding] at hstep
          have hresult := hunder.answers hstanding hcommand hmoves
          rw [Option.some.inj hstep] at hresult
          exact hresult
      | finished hstanding _ _ _ =>
          rw [hstanding] at hstep
          cases hstep
  | abort result =>
      obtain ⟨herror, rfl, rfl⟩ := MkdirRun.abort_cases hstep
      exact hphase.aborts herror

/-! ## Whole runs -/

theorem mkdirPhase (htype : start.op.path.type ≠ .mvs)
    (hbegins : start.Begins)
    (hreach : (mkdirMachine.startingAt start).ReachesWithin
      (fun run input => run.movesExactly input = true) inputs events run) :
    MkdirPhase start inputs events run := by
  refine hreach.history (MkdirPhase start) ?_ ?_
  · intro state hstate
    cases hstate
    exact .sending hbegins.standing (.of_begins hbegins)
  · intro inputs events state input following answer hphase hmoves hstep
    exact hphase.step htype hmoves hstep

theorem MkdirUnderway.inPlace {directory : ServerPath} {segment : WString}
    (hunder : MkdirUnderway start inputs events run)
    (hcommand : run.op.nextCommand = some (.mkd directory segment)) :
    run.directory = run.op.currentMkdPath ∧
      directory = run.op.currentMkdPath ∧
      run.op.segments.getLast? = some segment ∧
      start.op.path = run.op.currentMkdPath.extend run.op.segments.reverse := by
  have htracks := hunder.tracks
  have hpath := hunder.path
  unfold Tracks at htracks
  unfold nextCommand at hcommand
  cases hstate : run.op.opState with
  | mkdsub =>
      rw [hstate] at htracks hcommand
      cases hcommand
      rcases htracks with ⟨hleads, hdirectory⟩
      refine ⟨hdirectory, rfl, ?_, hpath.symm.trans hleads.path_eq⟩
      unfold MkdirOperation.back
      rw [List.getLast?_eq_some_getLast hleads.pending]
      rfl
  | init =>
      rw [hstate] at hcommand
      cases hcommand
  | findparent =>
      rw [hstate] at hcommand
      cases hcommand
  | cwdsub =>
      rw [hstate] at hcommand
      cases hcommand
  | tryfull =>
      rw [hstate] at hcommand
      cases hcommand

theorem MkdirRun.goesOn_sends
    (hstanding : run.standing = .sending ∨ run.standing = .waiting)
    (converted : Bool) :
    (run.step (.sendNextCommand false converted)).isSome = true := by
  unfold MkdirRun.step MkdirRun.sendNextCommand
  rcases hstanding with hstanding | hstanding
  · rw [hstanding]
    rfl
  · rw [hstanding]
    rfl

theorem MkdirUnderway.bounded (hunder : MkdirUnderway start inputs events run) :
    answeredCount events ≤ 3 * start.op.path.segmentCount ∧
      attemptCount inputs ≤ answeredCount events + 2 := by
  have hpos := hunder.tracks.repliesLeft_pos
  have hreplies := hunder.replies
  have hattempts := hunder.attempts
  constructor
  · omega
  · omega

theorem MkdirUnderway.creates
    (hunder : MkdirUnderway start inputs events run)
    (hcommand : ∀ directory segment,
      run.standing = .awaiting (.mkd directory segment) →
        run.op.nextCommand = some (.mkd directory segment))
    (hgoes : (∃ command, run.standing = .awaiting command ∧
        ∀ response cached directory,
          (run.step (.parseResponse response cached directory)).isSome =
            true) ∨
      ∀ converted, (run.step (.sendNextCommand false converted)).isSome =
        true)
    (hunfinished : run.standing ≠ .finished Reply.ok) :
    CreatesDirectory start inputs events run := by
  rcases hunder.bounded with ⟨hbound, hattempts⟩
  refine ⟨?_, by omega, ?_, hattempts, Or.inr hgoes, ?_⟩
  · intro directory segment hstanding
    exact hunder.inPlace (hcommand directory segment hstanding)
  · intro hall
    omega
  · intro hfinished
    exact absurd hfinished hunfinished

/-- Against a server that a successful `CWD` moves exactly where it should,
the segments are created in their places, the operation ends, and it succeeds
only if the path is there. -/
theorem mkdir_creates_directory (start : MkdirRun) (hbegins : start.Begins)
    (htype : DropsOneSegment start.op.path.type)
    (hreach : (mkdirMachine.startingAt start).ReachesWithin
      (fun run input => run.movesExactly input = true) inputs events run) :
    CreatesDirectory start inputs events run := by
  have hphase := mkdirPhase ((dropsOneSegment_iff _).mp htype) hbegins hreach
  cases hphase with
  | sending hstanding hunder =>
      refine hunder.creates ?_ (Or.inr ?_) ?_
      · intro directory segment hawaiting
        cases hstanding.symm.trans hawaiting
      · exact MkdirRun.goesOn_sends (Or.inl hstanding)
      · rw [hstanding]
        nofun
  | waiting hstanding _ hunder =>
      refine hunder.creates ?_ (Or.inr ?_) ?_
      · intro directory segment hawaiting
        cases hstanding.symm.trans hawaiting
      · exact MkdirRun.goesOn_sends (Or.inr hstanding)
      · rw [hstanding]
        nofun
  | @awaiting command hstanding hcommand hunder =>
      refine hunder.creates ?_ (Or.inl ⟨command, hstanding, ?_⟩) ?_
      · intro directory segment hawaiting
        cases hstanding.symm.trans hawaiting
        exact hcommand
      · intro response cached directory
        unfold MkdirRun.step
        rw [hstanding]
        rfl
      · rw [hstanding]
        nofun
  | @finished result hstanding hreplies hattempts hok =>
      refine ⟨?_, hreplies, fun _ => ⟨result, hstanding⟩, hattempts,
        Or.inl ⟨result, hstanding⟩, ?_⟩
      · intro directory segment hawaiting
        cases hstanding.symm.trans hawaiting
      · intro hfinished
        cases hstanding.symm.trans hfinished
        exact hok rfl

/-! ## A run -/

def mkdirPath (segments : List WString) : ServerPath :=
  ⟨some ⟨segments, none⟩, .unix⟩

/-- The creation of `/a/b` with an unknown current directory. -/
def mkdirStart : MkdirRun where
  op :=
    { opState := .init
      path := mkdirPath ["a".toList, "b".toList]
      currentMkdPath := blank .default
      commonParent := blank .default
      segments := []
      currentPath := blank .default }
  holdsLock := false
  standing := .sending
  directory := mkdirPath []

def mkdirInputs : List MkdirInput :=
  [.sendNextCommand false true, .sendNextCommand false true,
    .parseResponse "550 No such directory".toList none (mkdirPath []),
    .sendNextCommand false true,
    .parseResponse "250 OK".toList none (mkdirPath []),
    .sendNextCommand false true,
    .parseResponse "257 Created".toList none (mkdirPath []),
    .sendNextCommand false true,
    .parseResponse "250 OK".toList none (mkdirPath ["a".toList]),
    .sendNextCommand false true,
    .parseResponse "550 b: File exists".toList none
      (mkdirPath ["a".toList])]

/-- The server has no directory `/a`, and `/a/b` is created by another client
in the meantime. -/
theorem mkdir_creates_directory_anew :
    ∃ events run,
      (mkdirMachine.startingAt mkdirStart).ReachesWithin
        (fun run input => run.movesExactly input = true) mkdirInputs events
        run ∧
      run.standing = .finished Reply.ok ∧
      CreatesDirectory mkdirStart mkdirInputs events run := by
  have hbegins : mkdirStart.Begins := ⟨rfl, rfl, rfl, rfl, Or.inl rfl⟩
  have hstart : (mkdirMachine.startingAt mkdirStart).ReachesWithin
      (fun run input => run.movesExactly input = true) [] [] mkdirStart :=
    .start rfl
  have hstanding : ((mkdirMachine.startingAt mkdirStart).exec
      (fun run input => run.movesExactly input = true) mkdirStart
      mkdirInputs).map (fun final => final.1.standing) =
        some (.finished Reply.ok) := by
    decide
  obtain ⟨⟨run, events⟩, hexec, hfinished⟩ :=
    Option.map_eq_some_iff.mp hstanding
  have hreach := hstart.exec hexec
  exact ⟨events, run, hreach, hfinished,
    mkdir_creates_directory mkdirStart hbegins
      ((dropsOneSegment_iff _).mpr nofun) hreach⟩

end TabFtp
