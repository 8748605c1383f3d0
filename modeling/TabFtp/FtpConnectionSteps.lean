import TabFtp.FtpRawTransferSteps

/-!
# The steps of a control connection

The replies that are still to come are those to skip, followed by those that
the operation on top awaits.
-/

namespace TabFtp

open LabelledRuns

namespace FtpConnection

variable {connection following : FtpConnection}

def awaited (connection : FtpConnection) : List (ServerCommand × ℕ) :=
  connection.answers.drop connection.repliesToSkip

structure Carries (connection : FtpConnection)
    (run : RawTransferRun DataCommand) : Prop where
  connected : connection.connected = true
  finished : run.finished = none
  parameters : run.parameters = connection.parameters
  sound : ∃ events, run.Sound events
  awaiting :
    run.awaiting.map RawTransferCommand.meaning =
      connection.awaited.map Prod.fst

/-- The counters agree with the replies that are still to come, and a logon
works on a new connection. -/
structure Ordered (connection : FtpConnection) : Prop where
  codes : ∀ answer ∈ connection.answers, answer.2 ≠ 1
  counted : connection.connected = true →
    connection.pendingReplies = connection.answers.length
  skipped : connection.repliesToSkip ≤ connection.pendingReplies
  closed : connection.connected = false →
    connection.repliesToSkip = 0 ∧ connection.answers = []
  logon : connection.connected = true →
    connection.operations.head? = some .logon →
      connection.parameters = ⟨-1, false⟩ ∧ connection.transfer = none
  below : .logon ∉ connection.operations.tail
  carries : ∀ run, connection.transfer = some run → connection.Carries run

theorem carries_none (hnone : connection.transfer = none) :
    ∀ run, connection.transfer = some run → connection.Carries run := by
  intro run hsome
  rw [hnone] at hsome
  cases hsome

theorem ordered_closed (hclosed : connection.connected = false)
    (hanswers : connection.answers = [])
    (hskip : connection.repliesToSkip = 0)
    (hoperations : connection.operations = [])
    (hnone : connection.transfer = none) : connection.Ordered where
  codes := by simp [hanswers]
  counted := by simp [hclosed]
  skipped := by simp [hskip]
  closed _ := ⟨hskip, hanswers⟩
  logon := by simp [hclosed]
  below := by simp [hoperations]
  carries := carries_none hnone

theorem initial_ordered : initial.Ordered :=
  ordered_closed rfl rfl rfl rfl rfl

theorem doClose_ordered : connection.doClose.Ordered :=
  ordered_closed rfl rfl rfl rfl rfl

theorem Ordered.sendCommand
    (hordered : connection.Ordered) (hnone : connection.transfer = none)
    (hconnected : connection.connected = true) {answer : ServerAnswer}
    (hcode : answer.code ≠ 1)
    (command : ServerCommand) :
    (connection.sendCommand command answer).Ordered where
  codes := by
    intro other hmem
    rcases List.mem_append.mp hmem with hold | hnew
    · exact hordered.codes other hold
    · rw [List.mem_singleton.mp hnew]
      exact hcode
  counted := by
    intro hconnected
    simp [FtpConnection.sendCommand, hordered.counted hconnected]
  skipped := Nat.le_succ_of_le hordered.skipped
  closed hclosed := by
    change connection.connected = false at hclosed
    rw [hconnected] at hclosed
    cases hclosed
  logon := hordered.logon
  below := hordered.below
  carries := carries_none hnone

theorem Ordered.resetOperation
    (hordered : connection.Ordered) (hnone : connection.transfer = none)
    (hconnected : connection.connected = true) :
    connection.resetOperation.Ordered where
  codes := hordered.codes
  counted := hordered.counted
  skipped := Nat.le_refl _
  closed := by
    intro hclosed
    rw [show connection.resetOperation.connected = true from hconnected]
      at hclosed
    cases hclosed
  logon := by
    intro _ hhead
    exact absurd (List.mem_of_head? hhead) hordered.below
  below hmem := hordered.below (List.mem_of_mem_tail hmem)
  carries := carries_none hnone

theorem Ordered.start
    (hordered : connection.Ordered) (hnone : connection.transfer = none)
    {operation : FtpOperation}
    (hlogon : ¬ (operation = .logon ∧ connection.connected = true)) :
    (connection.start operation).Ordered where
  codes := hordered.codes
  counted := hordered.counted
  skipped := hordered.skipped
  closed := hordered.closed
  logon := by
    intro hconnected hhead
    change connection.connected = true at hconnected
    simp only [FtpConnection.start, hconnected, true_or, if_true,
      List.head?_cons, Option.some.injEq] at hhead
    exact absurd ⟨hhead, hconnected⟩ hlogon
  below := by
    unfold FtpConnection.start
    by_cases hdirect :
        connection.connected = true ∨ operation = .logon
    · simp only [if_pos hdirect, List.tail_cons]
      exact List.not_mem_nil
    · simp only [if_neg hdirect]
      intro hmem
      exact hdirect (Or.inr (List.mem_singleton.mp hmem).symm)
  carries := carries_none hnone

theorem Ordered.onConnect
    (hordered : connection.Ordered) (hnone : connection.transfer = none)
    (hclosed : connection.connected = false) (binary : Bool) {code : ℕ}
    (hcode : code ≠ 1) : (connection.onConnect binary code).Ordered where
  codes := by
    intro answer hmem
    rw [List.mem_singleton.mp hmem]
    exact hcode
  counted _ := rfl
  skipped := by
    change connection.repliesToSkip ≤ 1
    rw [(hordered.closed hclosed).1]
    exact Nat.zero_le 1
  closed hconnected := absurd hconnected Bool.noConfusion
  logon _ _ := ⟨rfl, hnone⟩
  below := hordered.below
  carries := carries_none hnone

/-! ## The raw transfer -/

variable {run next : RawTransferRun DataCommand}

theorem Ordered.awaited_sendCommand
    (hordered : connection.Ordered) (hconnected : connection.connected = true)
    (command : ServerCommand) (answer : ServerAnswer) :
    (connection.sendCommand command answer).awaited =
      connection.awaited ++ [(command, answer.code)] := by
  have hskip : connection.repliesToSkip ≤ connection.answers.length := by
    rw [← hordered.counted hconnected]
    exact hordered.skipped
  exact List.drop_append_of_le_length hskip

theorem Carries.idle_awaited
    (hcarries : connection.Carries run) (hidle : run.awaiting = []) :
    connection.awaited = [] := by
  have hmap := hcarries.awaiting
  rw [hidle] at hmap
  exact List.map_eq_nil_iff.mp hmap.symm

theorem setTransfer_parameters :
    (connection.setTransfer next).parameters = next.parameters := by
  unfold FtpConnection.setTransfer
  split_ifs <;> rfl

theorem setTransfer_server :
    (connection.setTransfer next).server = connection.server := by
  unfold FtpConnection.setTransfer
  split_ifs <;> rfl

theorem setTransfer_awaited (hfinished : next.finished = none) :
    (connection.setTransfer next).awaited = connection.awaited := by
  unfold FtpConnection.setTransfer
  rw [if_pos hfinished]
  rfl

theorem setTransfer_transfer (hfinished : next.finished = none) :
    (connection.setTransfer next).transfer = some next := by
  unfold FtpConnection.setTransfer
  rw [if_pos hfinished]

theorem setTransfer_ended (hfinished : next.finished ≠ none) :
    (connection.setTransfer next).transfer = none := by
  unfold FtpConnection.setTransfer
  rw [if_neg hfinished]

theorem Ordered.writes_awaited
    (hordered : connection.Ordered) (hsome : connection.transfer = some run)
    (hidle : run.awaiting = []) (hgoes : next.finished = none)
    (written : RawTransferCommand DataCommand) (answer : ServerAnswer) :
    ((connection.deliver (some written) answer).setTransfer next).awaited =
      [(written.meaning, answer.code)] := by
  have hcarries := hordered.carries run hsome
  have hsent := hordered.awaited_sendCommand hcarries.connected
    written.meaning answer
  rw [hcarries.idle_awaited hidle] at hsent
  rw [setTransfer_awaited hgoes]
  exact hsent

theorem Ordered.settled_awaited
    (hordered : connection.Ordered) (hsettled : connection.settled = true) :
    connection.awaited = [] := by
  simp only [settled, Bool.and_eq_true, decide_eq_true_eq] at hsettled
  have hlength := hordered.counted hsettled.1
  apply List.drop_eq_nil_of_le
  omega

theorem Ordered.createTransfer
    (hordered : connection.Ordered) (hsettled : connection.settled = true)
    (hhead : connection.operations.head? ≠ some .logon)
    (cmd : DataCommand) (binary : Bool) (resumeOffset : ℤ) :
    (connection.createTransfer (.create cmd binary resumeOffset)).Ordered
    where
  codes := hordered.codes
  counted := hordered.counted
  skipped := hordered.skipped
  closed := hordered.closed
  logon _ hlogon := absurd hlogon hhead
  below := hordered.below
  carries := by
    intro run hsome
    cases hsome
    have hempty : connection.awaited = [] := hordered.settled_awaited hsettled
    have hconnected : connection.connected = true := by
      simp only [settled, Bool.and_eq_true] at hsettled
      exact hsettled.1
    constructor
    · exact hconnected
    · rfl
    · rfl
    · exact ⟨[], RawTransferRun.start_sound cmd binary resumeOffset _⟩
    · change [] = connection.awaited.map Prod.fst
      rw [hempty]
      rfl

theorem Ordered.setTransfer
    (hordered : connection.Ordered) (hsome : connection.transfer = some run)
    {base : FtpConnection}
    (hoperations : base.operations = connection.operations)
    (hconnected : base.connected = true)
    (hcodes : ∀ answer ∈ base.answers, answer.2 ≠ 1)
    (hcounted : base.pendingReplies = base.answers.length)
    (hskipped : base.repliesToSkip ≤ base.pendingReplies)
    (hsound : ∃ events, next.Sound events)
    (hawaiting : next.finished = none →
      next.awaiting.map RawTransferCommand.meaning =
        base.awaited.map Prod.fst) :
    (base.setTransfer next).Ordered := by
  have hlive := (hordered.carries run hsome).connected
  have hhead : base.operations.head? ≠ some .logon := by
    rw [hoperations]
    intro hlogon
    have hnone := (hordered.logon hlive hlogon).2
    rw [hsome] at hnone
    cases hnone
  have hbelow : .logon ∉ base.operations.tail := by
    rw [hoperations]
    exact hordered.below
  unfold FtpConnection.setTransfer
  by_cases hfinished : next.finished = none
  · rw [if_pos hfinished]
    constructor
    · exact hcodes
    · intro _
      exact hcounted
    · exact hskipped
    · intro hclosed
      change base.connected = false at hclosed
      rw [hconnected] at hclosed
      cases hclosed
    · intro _ hlogon
      exact absurd hlogon hhead
    · exact hbelow
    · intro other hother
      cases hother
      exact ⟨hconnected, hfinished, rfl, hsound, hawaiting hfinished⟩
  · rw [if_neg hfinished]
    constructor
    · exact hcodes
    · intro _
      exact hcounted
    · exact Nat.le_refl _
    · intro hclosed
      change base.connected = false at hclosed
      rw [hconnected] at hclosed
      cases hclosed
    · intro _ hlogon
      exact absurd hlogon hhead
    · exact hbelow
    · exact carries_none rfl

theorem Ordered.deliver
    (hordered : connection.Ordered) (hsome : connection.transfer = some run)
    {command : Option (RawTransferCommand DataCommand)}
    {answer : ServerAnswer} (hcode : answer.code ≠ 1)
    (hsound : ∃ events, next.Sound events)
    (hadvances : RawTransferRun.Advances run next command) :
    ((connection.deliver command answer).setTransfer next).Ordered := by
  have hcarries := hordered.carries run hsome
  have hconnected := hcarries.connected
  have hcounted := hordered.counted hconnected
  cases hadvances with
  | writes written hcommand hwrites hidle hgoes _ _ _ hawaiting =>
      subst hcommand
      have hempty := hcarries.idle_awaited hidle
      have hoperations :
          (connection.deliver (some written) answer).operations =
            connection.operations := rfl
      apply hordered.setTransfer hsome hoperations hconnected
      · intro other hmem
        rcases List.mem_append.mp hmem with hold | hnew
        · exact hordered.codes other hold
        · rw [List.mem_singleton.mp hnew]
          exact hcode
      · simp [FtpConnection.deliver, FtpConnection.sendCommand, hcounted]
      · exact Nat.le_succ_of_le hordered.skipped
      · exact hsound
      · intro _
        change _ = (connection.sendCommand written.meaning answer).awaited.map
          Prod.fst
        rw [hordered.awaited_sendCommand hconnected, hempty, hawaiting]
        rfl
  | ends hcommand hfinished _ =>
      subst hcommand
      exact hordered.setTransfer hsome rfl hconnected hordered.codes hcounted
        hordered.skipped hsound fun hgoes => absurd hgoes hfinished
  | begins hcommand hgoes _ _ _ hidle hawaiting =>
      subst hcommand
      apply hordered.setTransfer hsome rfl hconnected hordered.codes hcounted
        hordered.skipped hsound
      intro _
      rw [hawaiting, ← hidle]
      exact hcarries.awaiting
  | remains hcommand hgoes _ _ _ _ _ hawaiting =>
      subst hcommand
      apply hordered.setTransfer hsome rfl hconnected hordered.codes hcounted
        hordered.skipped hsound
      intro _
      rw [hawaiting]
      exact hcarries.awaiting

/-! ## What a step does -/

/-- What a step means for the representation type and the restart offset. -/
inductive Changes (connection : FtpConnection) (input : ConnectionInput)
    (following : FtpConnection) (events : List ConnectionEvent) : Prop
  | idles :
      following.parameters = connection.parameters →
      following.server = connection.server → following.transfer = none →
      events = [] → Changes connection input following events
  | connects (binary : Bool) :
      following.parameters = ⟨-1, false⟩ →
      following.server = ⟨binary, 0⟩ → following.transfer = none →
      events = [] → Changes connection input following events
  | logonSends (command : ServerCommand) (answer : ServerAnswer) :
      input = .operationSends command answer →
      connection.parameters = ⟨-1, false⟩ →
      following.parameters = connection.parameters →
      following.server = connection.server.execute command answer →
      following.transfer = none → events = [] →
      Changes connection input following events
  | operationSends (answer : ServerAnswer) :
      following.parameters = connection.parameters →
      following.server = connection.server.execute .other answer →
      following.transfer = none → events = [] →
      Changes connection input following events
  | rawCommandSends (command : ServerCommand) (answer : ServerAnswer) :
      input = .sendRawCommand true answer →
      connection.operations.head? = some (.rawCommand command false) →
      following.parameters =
        { connection.parameters with lastTypeBinary := -1 } →
      following.server = connection.server.execute command answer →
      following.transfer = none → events = [] →
      Changes connection input following events
  | rawCommandFails :
      following.parameters =
        { connection.parameters with lastTypeBinary := -1 } →
      following.server = connection.server → following.transfer = none →
      events = [] → Changes connection input following events
  | keepsAlive (answer : ServerAnswer) :
      following.parameters = connection.parameters →
      following.server = connection.server.execute
        (.type (connection.parameters.lastTypeBinary ≠ 0)) answer →
      following.transfer = none → events = [] →
      Changes connection input following events
  | creates (op : RawTransfer DataCommand) :
      ((∃ file env, input = .transferFile file env ∧
          startedTransfer (file.sendTransfer env) = some op) ∨
        ∃ mlsd : Bool,
          op = .create (if mlsd then .mlsd else .list) true 0) →
      op.opState = .init →
      following.parameters = connection.parameters →
      following.server = connection.server →
      following.transfer = some (.start op connection.parameters) →
      following.awaited = [] → events = [] →
      Changes connection input following events
  | skips :
      following.parameters = connection.parameters →
      following.server = connection.server →
      following.transfer = connection.transfer →
      following.awaited = connection.awaited → events = [] →
      Changes connection input following events
  | advances (run next : RawTransferRun DataCommand)
      (command : Option (RawTransferCommand DataCommand))
      (step : RawTransferInput) (answer : ServerAnswer) :
      input = .transfer step answer → connection.transfer = some run →
      RawTransferRun.Advances run next command →
      following = (connection.deliver command answer).setTransfer next →
      events = connection.dataEvents run.op command →
      Changes connection input following events
  | takes (run next : RawTransferRun DataCommand) (code : ℕ)
      (base : FtpConnection) :
      connection.transfer = some run →
      RawTransferRun.Takes run.op run.parameters code next →
      following = base.setTransfer next →
      base.server = connection.server →
      ((∃ kind, connection.awaited = [(kind, code)]) ∧ base.awaited = [] ∨
        code = 1 ∧ base.awaited = connection.awaited ∧
          ∃ final, connection.awaited = [(.data, final)]) →
      events = [] → Changes connection input following events

variable {input : ConnectionInput} {events : List ConnectionEvent}

theorem Carries.awaiting_single
    (hcarries : connection.Carries run) {kind : ServerCommand} {code : ℕ}
    {rest : List (ServerCommand × ℕ)}
    (hawaited : connection.awaited = (kind, code) :: rest) :
    rest = [] ∧ ∃ command, run.awaiting = [command] ∧
      command.meaning = kind := by
  obtain ⟨before, hsound⟩ := hcarries.sound
  have hsingle := (hsound.lockstep hcarries.finished).single
  have hmap := hcarries.awaiting
  rw [hawaited] at hmap
  cases hlist : run.awaiting with
  | nil =>
      rw [hlist] at hmap
      cases hmap
  | cons command others =>
      rw [hlist] at hmap hsingle
      have hnone : others = [] := by
        cases others with
        | nil => rfl
        | cons next more => simp at hsingle
      rw [hnone] at hmap ⊢
      simp only [List.map_cons, List.map_nil, List.cons.injEq] at hmap
      exact ⟨List.map_eq_nil_iff.mp hmap.2.symm, command, rfl, hmap.1⟩

theorem Ordered.awaits
    (hordered : connection.Ordered) (hsome : connection.transfer = some run)
    {kind : ServerCommand} {code : ℕ}
    (hawaited : connection.awaited = [(kind, code)]) :
    ∃ command : RawTransferCommand DataCommand,
      command.meaning = kind ∧ run.op.opState.Awaits command := by
  have hcarries := hordered.carries run hsome
  obtain ⟨_, command, hawaiting, hmeaning⟩ :=
    hcarries.awaiting_single hawaited
  obtain ⟨before, hsound⟩ := hcarries.sound
  have hmem : command ∈ run.awaiting := by
    rw [hawaiting]
    exact List.mem_singleton_self command
  exact ⟨command, hmeaning,
    (hsound.lockstep hcarries.finished).awaiting command hmem⟩

theorem stepTransfer_takes {base : FtpConnection}
    {command : RawTransferInput} {answer : ServerAnswer}
    (hstep : base.stepTransfer run command answer =
      some (following, events))
    (hquiet : ∀ next signals, run.step command = some (next, signals) →
      sentCommand signals = none) :
    ∃ next signals, run.step command = some (next, signals) ∧
      following = base.setTransfer next ∧ events = [] := by
  unfold stepTransfer at hstep
  obtain ⟨⟨next, signals⟩, hrun, hanswer⟩ := Option.map_eq_some_iff.mp hstep
  simp only [hquiet next signals hrun] at hanswer
  obtain ⟨rfl, rfl⟩ := Prod.mk.inj hanswer
  exact ⟨next, signals, hrun, rfl, rfl⟩

theorem Ordered.handReply
    (hordered : connection.Ordered)
    (hconnected : connection.connected = true)
    (hskip : connection.repliesToSkip = 0)
    {kind : ServerCommand} {code : ℕ} (hcode : code ≠ 1)
    {answers : List (ServerCommand × ℕ)}
    (hanswers : connection.answers = (kind, code) :: answers)
    (hcodes : ∀ answer ∈ answers, answer.2 ≠ 1)
    {base : FtpConnection}
    (hbase : base = { connection with
      answers, pendingReplies := answers.length })
    {env : RawTransferEnv}
    (hstep : base.handReply code env = some (following, events)) :
    following.Ordered ∧ Changes connection input following events := by
  have hawaited : connection.awaited = (kind, code) :: answers := by
    unfold awaited
    rw [hskip, hanswers]
    rfl
  have htop : base.transfer = connection.transfer := by rw [hbase]
  have hoperations : base.operations = connection.operations := by rw [hbase]
  have hparameters : base.parameters = connection.parameters := by rw [hbase]
  have hserver : base.server = connection.server := by rw [hbase]
  have hlive : base.connected = true := by rw [hbase, hconnected]
  have hcodes' : ∀ answer ∈ base.answers, answer.2 ≠ 1 := by
    rw [hbase]
    exact hcodes
  have hcounted : base.pendingReplies = base.answers.length := by rw [hbase]
  have hskipped : base.repliesToSkip = 0 := by rw [hbase, ← hskip]
  unfold FtpConnection.handReply at hstep
  cases htransfer : connection.transfer with
  | none =>
      rw [htransfer] at htop
      have hordered' : base.Ordered := by
        constructor
        · exact hcodes'
        · intro _
          exact hcounted
        · omega
        · intro hclosed
          rw [hlive] at hclosed
          cases hclosed
        · intro _ hlogon
          rw [hoperations] at hlogon
          rw [hparameters]
          exact ⟨(hordered.logon hconnected hlogon).1, htop⟩
        · rw [hoperations]
          exact hordered.below
        · exact carries_none htop
      rw [htop] at hstep
      dsimp only at hstep
      split at hstep
      · obtain ⟨rfl, rfl⟩ := Prod.mk.inj (Option.some.inj hstep)
        have hended := hordered'.resetOperation htop hlive
        exact ⟨hended, .idles hparameters hserver htop rfl⟩
      · obtain ⟨rfl, rfl⟩ := Prod.mk.inj (Option.some.inj hstep)
        exact ⟨hordered', .idles hparameters hserver htop rfl⟩
  | some run =>
      have hcarries := hordered.carries run htransfer
      obtain ⟨hnone, command, hawaiting, _⟩ :=
        hcarries.awaiting_single hawaited
      obtain ⟨before, hsound⟩ := hcarries.sound
      rw [htop, htransfer] at hstep
      obtain ⟨next, signals, hrun, rfl, rfl⟩ := stepTransfer_takes hstep
        fun next signals hrun =>
          (RawTransferRun.step_final hcarries.finished hcode hawaiting
            hrun).2.1
      obtain ⟨htakes, _, hempty⟩ :=
        RawTransferRun.step_final hcarries.finished hcode hawaiting hrun
      have hallowed : run.PreliminaryToTransfer (.reply code env) := by
        intro other hother
        cases hother
        exact absurd rfl hcode
      have hnothing : base.awaited = [] := by
        unfold awaited
        rw [hbase, hnone]
        exact List.drop_nil
      have hordered' : (base.setTransfer next).Ordered := by
        apply hordered.setTransfer htransfer hoperations hlive hcodes'
          hcounted
        · omega
        · exact ⟨_, hsound.step hallowed hrun⟩
        · intro _
          rw [hempty, hnothing]
          rfl
      rw [hnone] at hawaited
      exact ⟨hordered', .takes run next code base htransfer htakes rfl
        hserver (Or.inl ⟨⟨kind, hawaited⟩, hnothing⟩) rfl⟩

theorem Ordered.parseReply
    (hordered : connection.Ordered) {kind : ServerCommand} {code : ℕ}
    {answers : List (ServerCommand × ℕ)}
    (hanswers : connection.answers = (kind, code) :: answers)
    {env : RawTransferEnv}
    (hstep : { connection with answers }.parseReply code env =
      some (following, events)) :
    following.Ordered ∧ Changes connection input following events := by
  have hconnected : connection.connected = true := by
    by_contra hclosed
    have hempty := (hordered.closed (by simpa using hclosed)).2
    rw [hanswers] at hempty
    cases hempty
  have hcode : code ≠ 1 := by
    apply hordered.codes (kind, code)
    rw [hanswers]
    exact List.mem_cons_self
  have hcodes : ∀ answer ∈ answers, answer.2 ≠ 1 := by
    intro answer hmem
    apply hordered.codes
    rw [hanswers]
    exact List.mem_cons_of_mem _ hmem
  have hcounted : connection.pendingReplies = answers.length + 1 := by
    rw [hordered.counted hconnected, hanswers]
    rfl
  have hpending : connection.pendingReplies ≠ 0 := by omega
  have hfewer : connection.pendingReplies - 1 = answers.length := by omega
  have hskipped := hordered.skipped
  unfold FtpConnection.parseReply at hstep
  simp only [if_neg hpending] at hstep
  by_cases hskip : connection.repliesToSkip = 0
  · have hbase : ({ connection with
          answers
          pendingReplies := connection.pendingReplies - 1
          repliesToSkip := 0 } : FtpConnection) =
        { connection with answers, pendingReplies := answers.length } := by
      rw [hfewer, ← hskip]
    simp only [ne_eq, hskip, not_true, if_false] at hstep
    exact hordered.handReply hconnected hskip hcode hanswers hcodes hbase
      hstep
  · simp only [ne_eq, hskip, not_false_eq_true, if_true] at hstep
    obtain ⟨rfl, rfl⟩ := Prod.mk.inj (Option.some.inj hstep)
    have hawaited :
        answers.drop (connection.repliesToSkip - 1) =
          connection.awaited := by
      unfold awaited
      rw [hanswers]
      obtain ⟨count, hcount⟩ := Nat.exists_eq_succ_of_ne_zero hskip
      rw [hcount]
      rfl
    constructor
    · constructor
      · exact hcodes
      · intro _
        exact hfewer
      · dsimp only
        omega
      · intro hclosed
        change connection.connected = false at hclosed
        rw [hconnected] at hclosed
        cases hclosed
      · exact hordered.logon
      · exact hordered.below
      · intro run hsome
        have hcarries := hordered.carries run hsome
        have hawaiting :
            run.awaiting.map RawTransferCommand.meaning =
              (answers.drop (connection.repliesToSkip - 1)).map
                Prod.fst := by
          rw [hawaited]
          exact hcarries.awaiting
        exact ⟨hconnected, hcarries.finished, hcarries.parameters,
          hcarries.sound, hawaiting⟩
    · exact .skips rfl rfl rfl hawaited rfl

theorem Ordered.reply
    (hordered : connection.Ordered) {env : RawTransferEnv}
    (hstep : connection.reply env = some (following, events)) :
    following.Ordered ∧ Changes connection input following events := by
  unfold FtpConnection.reply at hstep
  cases hanswers : connection.answers with
  | nil => simp [hanswers] at hstep
  | cons first answers =>
      simp only [hanswers] at hstep
      exact hordered.parseReply hanswers hstep

theorem Ordered.preliminary
    (hordered : connection.Ordered) {env : RawTransferEnv}
    (hstep : connection.preliminary env = some (following, events)) :
    following.Ordered ∧ Changes connection input following events := by
  unfold FtpConnection.preliminary at hstep
  split at hstep
  · rename_i final answers hanswers
    have hconnected : connection.connected = true := by
      by_contra hclosed
      have hempty := (hordered.closed (by simpa using hclosed)).2
      rw [hanswers] at hempty
      cases hempty
    by_cases hskip : connection.repliesToSkip = 0
    · simp only [ne_eq, hskip, not_true, if_false] at hstep
      have hawaited : connection.awaited = (.data, final) :: answers := by
        unfold awaited
        rw [hskip, hanswers]
        rfl
      unfold FtpConnection.handReply at hstep
      cases htransfer : connection.transfer with
      | none =>
          simp only [htransfer] at hstep
          split at hstep
          · obtain ⟨rfl, rfl⟩ := Prod.mk.inj (Option.some.inj hstep)
            have hended := hordered.resetOperation htransfer hconnected
            exact ⟨hended, .idles rfl rfl htransfer rfl⟩
          · obtain ⟨rfl, rfl⟩ := Prod.mk.inj (Option.some.inj hstep)
            exact ⟨hordered, .idles rfl rfl htransfer rfl⟩
      | some run =>
          have hcarries := hordered.carries run htransfer
          obtain ⟨hnone, command, hawaiting, hmeaning⟩ :=
            hcarries.awaiting_single hawaited
          obtain ⟨before, hsound⟩ := hcarries.sound
          simp only [htransfer] at hstep
          obtain ⟨next, signals, hrun, rfl, rfl⟩ :=
            stepTransfer_takes hstep fun next signals hrun =>
              (RawTransferRun.step_preliminary hcarries.finished hrun).2.1
          obtain ⟨htakes, _, hsame⟩ :=
            RawTransferRun.step_preliminary hcarries.finished hrun
          have hallowed :
              run.PreliminaryToTransfer (.reply 1 env) := by
            intro _ _
            rw [hawaiting]
            cases command with
            | transfer verb => exact ⟨verb, rfl⟩
            | type | pasv | epsv | port | eprt | rest => cases hmeaning
          have hordered' : (connection.setTransfer next).Ordered := by
            apply hordered.setTransfer htransfer rfl hconnected
              hordered.codes (hordered.counted hconnected) hordered.skipped
            · exact ⟨_, hsound.step hallowed hrun⟩
            · intro _
              rw [hsame]
              exact hcarries.awaiting
          rw [hnone] at hawaited
          exact ⟨hordered', .takes run next 1 connection htransfer htakes rfl
            rfl (Or.inr ⟨rfl, rfl, final, hawaited⟩) rfl⟩
    · simp only [ne_eq, hskip, not_false_eq_true, if_true] at hstep
      obtain ⟨rfl, rfl⟩ := Prod.mk.inj (Option.some.inj hstep)
      exact ⟨hordered, .skips rfl rfl rfl rfl rfl⟩
  · cases hstep

theorem Ordered.stepTransfer
    (hordered : connection.Ordered) (hsome : connection.transfer = some run)
    {command : RawTransferInput}
    (hreply : ∀ code env, command ≠ .reply code env)
    {answer : ServerAnswer} (hcode : answer.code ≠ 1)
    (hstep : connection.stepTransfer run command answer =
      some (following, events)) :
    following.Ordered ∧
      Changes connection (.transfer command answer) following events := by
  have hcarries := hordered.carries run hsome
  obtain ⟨before, hsound⟩ := hcarries.sound
  unfold FtpConnection.stepTransfer at hstep
  obtain ⟨⟨next, signals⟩, hrun, hanswer⟩ := Option.map_eq_some_iff.mp hstep
  obtain ⟨rfl, rfl⟩ := Prod.mk.inj hanswer
  have hadvances := RawTransferRun.step_advances
    (hsound.lockstep hcarries.finished) hcarries.finished hreply hrun
  have hallowed : run.PreliminaryToTransfer command := by
    intro env hcommand
    exact absurd hcommand (hreply 1 env)
  have hordered' := hordered.deliver hsome hcode
    ⟨_, hsound.step hallowed hrun⟩ hadvances
  exact ⟨hordered', .advances run next _ command answer rfl hsome hadvances rfl
    rfl⟩

theorem Ordered.onTlsConnect
    (hordered : connection.Ordered) (hnone : connection.transfer = none) :
    ({ connection with parameters := ⟨-1, false⟩ } : FtpConnection).Ordered
    where
  codes := hordered.codes
  counted := hordered.counted
  skipped := hordered.skipped
  closed := hordered.closed
  logon _ _ := ⟨rfl, hnone⟩
  below := hordered.below
  carries := carries_none hnone

theorem Ordered.setOperations
    (hordered : connection.Ordered) (hnone : connection.transfer = none)
    {operations : List FtpOperation}
    (hhead : operations.head? ≠ some .logon)
    (htail : .logon ∉ operations.tail) (parameters : TransferParameters) :
    ({ connection with operations, parameters } : FtpConnection).Ordered
    where
  codes := hordered.codes
  counted := hordered.counted
  skipped := hordered.skipped
  closed := hordered.closed
  logon _ hlogon := absurd hlogon hhead
  below := htail
  carries := carries_none hnone

theorem canSend_connected {answer : ServerAnswer}
    (hsend : connection.canSend answer = true) :
    connection.connected = true ∧ answer.code ≠ 1 := by
  simp only [canSend, Bool.and_eq_true, decide_eq_true_eq] at hsend
  exact ⟨hsend.1.1, hsend.2⟩

theorem Ordered.sendRawCommand
    (hordered : connection.Ordered) (hnone : connection.transfer = none)
    {command : ServerCommand} {operations : List FtpOperation}
    (hoperations :
      connection.operations = .rawCommand command false :: operations)
    {sends : Bool} {answer : ServerAnswer}
    (hsend : connection.canSend answer = true) :
    (connection.sendRawCommand command sends answer).Ordered ∧
      Changes connection (.sendRawCommand sends answer)
        (connection.sendRawCommand command sends answer) [] := by
  obtain ⟨hconnected, hcode⟩ := canSend_connected hsend
  have htail : .logon ∉
      (FtpOperation.rawCommand command true ::
        connection.operations.tail).tail := hordered.below
  have hbase := hordered.setOperations hnone (by simp) htail
    { connection.parameters with lastTypeBinary := -1 }
  have hhead : connection.operations.head? =
      some (.rawCommand command false) := by rw [hoperations]; rfl
  unfold FtpConnection.sendRawCommand
  cases sends with
  | true =>
      have hsent := hbase.sendCommand hnone hconnected hcode command
      exact ⟨hsent, .rawCommandSends command answer rfl hhead rfl rfl hnone
        rfl⟩
  | false =>
      have hended := hbase.resetOperation hnone hconnected
      exact ⟨hended, .rawCommandFails rfl rfl hnone rfl⟩

theorem Ordered.onTimer
    (hordered : connection.Ordered) (hnone : connection.transfer = none)
    (keepAlive : KeepAlive) {answer : ServerAnswer}
    (hsend : connection.canSend answer = true) :
    (connection.onTimer keepAlive answer).Ordered ∧
      Changes connection input
        (connection.onTimer keepAlive answer) [] := by
  obtain ⟨hconnected, hcode⟩ := canSend_connected hsend
  have hsent := hordered.sendCommand hnone hconnected hcode
    (connection.keepAliveCommand keepAlive)
  have hskipped := hordered.skipped
  constructor
  · exact
      { codes := hsent.codes
        counted := hsent.counted
        skipped := Nat.succ_le_succ hskipped
        closed := fun hclosed => by
          change connection.connected = false at hclosed
          rw [hconnected] at hclosed
          cases hclosed
        logon := hsent.logon
        below := hsent.below
        carries := carries_none hnone }
  · cases keepAlive with
    | noop | pwd => exact .operationSends answer rfl rfl hnone rfl
    | type => exact .keepsAlive answer rfl rfl hnone rfl

theorem startedTransfer_create {outcome : TransferOutcome}
    {op : RawTransfer DataCommand}
    (hstarted : startedTransfer outcome = some op) :
    ∃ verb, op =
      .create (.file verb) outcome.op.binary
        outcome.op.resumeOffset.toInt := by
  obtain ⟨event, _, hevent⟩ := List.exists_of_findSome?_eq_some hstarted
  cases event with
  | transfer command =>
      cases hevent
      exact ⟨command.verb, rfl⟩
  | command | fileExists | skipped | payloadEnded | setCapability
  | ended => cases hevent

/-- One step keeps the order of the replies, and what it does to the server. -/
theorem Ordered.step
    (hordered : connection.Ordered)
    (hstep : connection.step input = some (following, events)) :
    following.Ordered ∧ Changes connection input following events := by
  unfold FtpConnection.step at hstep
  split at hstep
  · rename_i operation htransfer hoperations
    have hnew (hlogon :
        ¬ (operation = .logon ∧ connection.connected = true)) :
        (connection.start operation).Ordered ∧
          Changes connection (.start operation)
            (connection.start operation) [] :=
      ⟨hordered.start htransfer hlogon, .idles rfl rfl htransfer rfl⟩
    split at hstep
    · cases hstep
    · split_ifs at hstep with hlogon
      obtain ⟨rfl, rfl⟩ := Prod.mk.inj (Option.some.inj hstep)
      exact hnew hlogon
  · rename_i binary code operations htransfer hoperations
    split_ifs at hstep with hrefused
    simp only [not_or, Bool.not_eq_true] at hrefused
    obtain ⟨rfl, rfl⟩ := Prod.mk.inj (Option.some.inj hstep)
    exact ⟨hordered.onConnect htransfer hrefused.1 binary hrefused.2,
      .connects binary rfl rfl htransfer rfl⟩
  · rename_i operations htransfer hoperations
    split_ifs at hstep with hconnected
    obtain ⟨rfl, rfl⟩ := Prod.mk.inj (Option.some.inj hstep)
    have hparameters :=
      (hordered.logon hconnected (by rw [hoperations]; rfl)).1
    exact ⟨hordered.onTlsConnect htransfer,
      .idles hparameters.symm rfl htransfer rfl⟩
  · rename_i command answer operations htransfer hoperations
    split_ifs at hstep with hsend
    obtain ⟨rfl, rfl⟩ := Prod.mk.inj (Option.some.inj hstep)
    obtain ⟨hconnected, hcode⟩ := canSend_connected hsend
    have hparameters :=
      (hordered.logon hconnected (by rw [hoperations]; rfl)).1
    exact ⟨hordered.sendCommand htransfer hconnected hcode command,
      .logonSends command answer rfl hparameters rfl rfl htransfer rfl⟩
  · rename_i command answer operations htransfer hoperations
    split_ifs at hstep with hsend
    obtain ⟨rfl, rfl⟩ := Prod.mk.inj (Option.some.inj hstep)
    obtain ⟨hcan, rfl⟩ := hsend
    obtain ⟨hconnected, hcode⟩ := canSend_connected hcan
    exact ⟨hordered.sendCommand htransfer hconnected hcode .other,
      .operationSends answer rfl rfl htransfer rfl⟩
  · rename_i sends answer command operations htransfer hoperations
    split_ifs at hstep with hsend
    obtain ⟨rfl, rfl⟩ := Prod.mk.inj (Option.some.inj hstep)
    exact hordered.sendRawCommand htransfer hoperations hsend
  · rename_i operations htransfer hoperations
    split_ifs at hstep with hconnected
    obtain ⟨rfl, rfl⟩ := Prod.mk.inj (Option.some.inj hstep)
    have hbelow := hordered.below
    rw [hoperations] at hbelow
    have htail : .logon ∉
        (FtpOperation.other :: .other :: operations).tail := by
      simpa using hbelow
    exact ⟨hordered.setOperations htransfer (by simp) htail _,
      .idles rfl rfl htransfer rfl⟩
  · rename_i file env operations htransfer hoperations
    split_ifs at hstep with hsettled
    obtain ⟨op, hstarted, hanswer⟩ := Option.map_eq_some_iff.mp hstep
    obtain ⟨rfl, rfl⟩ := Prod.mk.inj hanswer
    have hempty := hordered.settled_awaited hsettled
    obtain ⟨verb, rfl⟩ := startedTransfer_create hstarted
    have hhead : connection.operations.head? ≠ some .logon := by
      rw [hoperations]
      nofun
    exact ⟨hordered.createTransfer hsettled hhead _ _ _,
      .creates _ (Or.inl ⟨file, env, rfl, hstarted⟩) rfl rfl rfl rfl hempty
        rfl⟩
  · rename_i mlsd operations htransfer hoperations
    by_cases hsettled : connection.settled = true
    · rw [if_pos hsettled] at hstep
      obtain ⟨rfl, rfl⟩ := Prod.mk.inj (Option.some.inj hstep)
      have hempty := hordered.settled_awaited hsettled
      have hhead : connection.operations.head? ≠ some .logon := by
        rw [hoperations]
        nofun
      exact ⟨hordered.createTransfer hsettled hhead _ _ _,
        .creates _ (Or.inr ⟨_, rfl⟩) rfl rfl rfl rfl hempty rfl⟩
    · rw [if_neg hsettled] at hstep
      cases hstep
  · rename_i command answer run htransfer
    by_cases hcode : answer.code = 1
    · rw [if_pos hcode] at hstep
      cases hstep
    · rw [if_neg hcode] at hstep
      split at hstep
      · cases hstep
      · by_cases hskip : connection.repliesToSkip ≠ 0
        · rw [if_pos hskip] at hstep
          cases hstep
        · rw [if_neg hskip] at hstep
          exact hordered.stepTransfer htransfer (by simp) hcode hstep
      · rename_i hreply _
        exact hordered.stepTransfer htransfer hreply hcode hstep
  · exact hordered.reply hstep
  · exact hordered.preliminary hstep
  · rename_i htransfer hoperations
    split_ifs at hstep with hconnected
    obtain ⟨rfl, rfl⟩ := Prod.mk.inj (Option.some.inj hstep)
    exact ⟨hordered.resetOperation htransfer hconnected,
      .idles rfl rfl htransfer rfl⟩
  · rename_i keepAlive answer htransfer hoperations
    split_ifs at hstep with hsend
    obtain ⟨rfl, rfl⟩ := Prod.mk.inj (Option.some.inj hstep)
    exact hordered.onTimer htransfer keepAlive hsend.1
  · obtain ⟨rfl, rfl⟩ := Prod.mk.inj (Option.some.inj hstep)
    exact ⟨doClose_ordered, .idles rfl rfl rfl rfl⟩
  · cases hstep

end FtpConnection

end TabFtp
