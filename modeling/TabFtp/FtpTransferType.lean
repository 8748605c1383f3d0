import TabFtp.FtpConnectionSteps

/-!
# The representation type of the server

`m_lastTypeBinary` is forgotten when a `TYPE` or a raw command is sent and is
set by the reply to a `TYPE`.  The type of the server changes when the command
is sent, so the two agree whenever the client claims to know the type.
-/

namespace TabFtp

open LabelledRuns

/-- What the client remembers of the type is true. -/
def TypeAgrees (parameters : TransferParameters) (server : FtpServer) :
    Prop :=
  (parameters.lastTypeBinary = 1 → server.binary = true) ∧
    (parameters.lastTypeBinary = 0 → server.binary = false)

/-- Every command for a data connection was sent to a server in the type that
the operation wants. -/
def SentInType (events : List ConnectionEvent) : Prop :=
  ∀ verb binary resumeOffset server,
    .dataCommand verb binary resumeOffset server ∈ events →
      server.binary = binary

namespace FtpConnection

variable {connection following : FtpConnection}
  {run next : RawTransferRun DataCommand}

/-- `decided` is about a raw transfer that does not have to send `TYPE` any
more, `sent` about one that waits for the reply to it. -/
structure TypeKnown (connection : FtpConnection) : Prop where
  agrees : TypeAgrees connection.parameters connection.server
  decided : ∀ run, connection.transfer = some run →
    run.op.opState ≠ .init → run.op.opState ≠ .type →
      connection.parameters.lastTypeBinary = if run.op.binary then 1 else 0
  sent : ∀ run, connection.transfer = some run →
    ∀ binary code, (.type binary, code) ∈ connection.awaited →
      run.op.binary = binary ∧
        (code = 2 ∨ code = 3 → connection.server.binary = binary)

theorem typeAgrees_forgotten {parameters : TransferParameters}
    (hlast : parameters.lastTypeBinary = -1) (server : FtpServer) :
    TypeAgrees parameters server := by
  constructor <;> intro hknown <;> rw [hlast] at hknown <;> cases hknown

theorem typeAgrees_of_eq {parameters : TransferParameters}
    {server : FtpServer}
    (hagrees : TypeAgrees parameters server)
    {parameters' : TransferParameters} {server' : FtpServer}
    (hlast : parameters'.lastTypeBinary = parameters.lastTypeBinary)
    (hbinary : server'.binary = server.binary) :
    TypeAgrees parameters' server' := by
  unfold TypeAgrees
  rw [hlast, hbinary]
  exact hagrees

theorem typeKnown_none (hnone : connection.transfer = none)
    (hagrees : TypeAgrees connection.parameters connection.server) :
    connection.TypeKnown where
  agrees := hagrees
  decided := by
    intro run hsome
    rw [hnone] at hsome
    cases hsome
  sent := by
    intro run hsome
    rw [hnone] at hsome
    cases hsome

theorem execute_binary (server : FtpServer) {command : ServerCommand}
    (htype : ∀ binary, command ≠ .type binary) (answer : ServerAnswer) :
    (server.execute command answer).binary = server.binary := by
  cases command with
  | type binary => exact absurd rfl (htype binary)
  | rest | data | other =>
      unfold FtpServer.execute
      dsimp only
      split_ifs <;> rfl

theorem execute_type (server : FtpServer) (binary : Bool)
    {answer : ServerAnswer} (hcode : answer.code = 2 ∨ answer.code = 3) :
    (server.execute (.type binary) answer).binary = binary := by
  have haccepts : answer.accepts = true := by
    unfold ServerAnswer.accepts
    rcases hcode with hcode | hcode <;> simp [hcode]
  simp [FtpServer.execute, haccepts]

theorem typeAgrees_keepAlive {parameters : TransferParameters}
    {server : FtpServer} (hagrees : TypeAgrees parameters server)
    (answer : ServerAnswer) :
    TypeAgrees parameters
      (server.execute (.type (parameters.lastTypeBinary ≠ 0)) answer) := by
  unfold FtpServer.execute
  by_cases haccepts : answer.accepts = true
  · simp only [if_pos haccepts]
    constructor <;> intro hlast <;> simp [hlast]
  · simp only [if_neg haccepts]
    exact hagrees

theorem sending_lastTypeBinary (parameters : TransferParameters)
    {command : RawTransferCommand DataCommand}
    (htype : ∀ binary, command ≠ .type binary) :
    (parameters.sending command).lastTypeBinary =
      parameters.lastTypeBinary := by
  cases command with
  | type binary => exact absurd rfl (htype binary)
  | rest offset =>
      unfold TransferParameters.sending
      dsimp only
      split_ifs <;> rfl
  | pasv | epsv | port | eprt | transfer => rfl

theorem typeAgrees_sending {parameters : TransferParameters}
    {server : FtpServer} (hagrees : TypeAgrees parameters server)
    (command : RawTransferCommand DataCommand) :
    TypeAgrees (parameters.sending command) server := by
  cases command with
  | type binary => exact typeAgrees_forgotten rfl server
  | rest offset =>
      exact typeAgrees_of_eq hagrees
        (sending_lastTypeBinary parameters nofun) rfl
  | pasv | epsv | port | eprt | transfer => exact hagrees

theorem deliver_binary
    {command : RawTransferCommand DataCommand}
    (htype : ∀ binary, command ≠ .type binary) (answer : ServerAnswer) :
    (connection.deliver (some command) answer).server.binary =
      connection.server.binary := by
  apply execute_binary
  cases command with
  | type binary => exact absurd rfl (htype binary)
  | pasv | epsv | port | eprt | rest | transfer =>
      simp [RawTransferCommand.meaning]

theorem deliver_agrees
    {parameters : TransferParameters}
    (hagrees : TypeAgrees parameters connection.server)
    (command : RawTransferCommand DataCommand) (answer : ServerAnswer) :
    TypeAgrees (parameters.sending command)
      (connection.deliver (some command) answer).server := by
  cases command with
  | type binary => exact typeAgrees_forgotten rfl _
  | pasv | epsv | port | eprt | rest | transfer =>
      exact typeAgrees_of_eq hagrees
        (sending_lastTypeBinary parameters (by simp))
        (deliver_binary (by simp) answer)

theorem TypeKnown.writes
    (hknown : connection.TypeKnown) (hordered : connection.Ordered)
    (hsome : connection.transfer = some run)
    {written : RawTransferCommand DataCommand} {answer : ServerAnswer}
    (hwrites : run.op.Writes written) (hidle : run.awaiting = [])
    (hgoes : next.finished = none)
    (hstate : next.op.opState = run.op.opState)
    (hjob : next.op.job = run.op.job)
    (hparameters : next.parameters = run.parameters.sending written) :
    ((connection.deliver (some written) answer).setTransfer next).TypeKnown
    := by
  have hcarries := hordered.carries run hsome
  have hawaited := hordered.writes_awaited hsome hidle hgoes written answer
  have htransfer :=
    @setTransfer_transfer (connection.deliver (some written) answer) next
      hgoes
  have hbinary := RawTransfer.job_binary hjob
  rw [hcarries.parameters] at hparameters
  constructor
  · rw [setTransfer_parameters, setTransfer_server, hparameters]
    exact deliver_agrees hknown.agrees written answer
  · intro other hother hinit htype
    rw [htransfer] at hother
    cases hother
    rw [hstate] at hinit htype
    have hnot : ∀ binary, written ≠ .type binary := by
      rintro binary rfl
      exact htype hwrites.1
    rw [setTransfer_parameters, hparameters,
      sending_lastTypeBinary _ hnot, hbinary]
    exact hknown.decided run hsome hinit htype
  · intro other hother binary code hmem
    rw [htransfer] at hother
    cases hother
    rw [hawaited] at hmem
    have hpair := List.mem_singleton.mp hmem
    obtain ⟨hmeaning, rfl⟩ := Prod.mk.inj hpair
    cases written with
    | type sent =>
        cases hmeaning
        rw [setTransfer_server, hbinary]
        exact ⟨hwrites.2.symm, execute_type connection.server binary⟩
    | pasv | epsv | port | eprt | rest | transfer => cases hmeaning

theorem TypeKnown.ends
    (hknown : connection.TypeKnown) (hordered : connection.Ordered)
    (hsome : connection.transfer = some run)
    (hfinished : next.finished ≠ none)
    (hparameters : next.parameters = run.parameters ∨
      ∃ written, run.op.Writes written ∧
        next.parameters = run.parameters.sending written) :
    (connection.setTransfer next).TypeKnown := by
  have hcarries := hordered.carries run hsome
  apply typeKnown_none (setTransfer_ended hfinished)
  rw [setTransfer_parameters, setTransfer_server]
  rw [hcarries.parameters] at hparameters
  rcases hparameters with hsame | ⟨written, _, hsending⟩
  · rw [hsame]
    exact hknown.agrees
  · rw [hsending]
    exact typeAgrees_sending hknown.agrees written

theorem TypeKnown.begins
    (hknown : connection.TypeKnown) (hordered : connection.Ordered)
    (hsome : connection.transfer = some run)
    (hgoes : next.finished = none)
    (hbegins : run.op.Begins run.parameters next.op.opState)
    (hjob : next.op.job = run.op.job)
    (hparameters : next.parameters = run.parameters)
    (hidle : run.awaiting = []) :
    (connection.setTransfer next).TypeKnown := by
  have hcarries := hordered.carries run hsome
  have hempty := hcarries.idle_awaited hidle
  rw [hcarries.parameters] at hparameters hbegins
  constructor
  · rw [setTransfer_parameters, setTransfer_server, hparameters]
    exact hknown.agrees
  · intro other hother hinit htype
    rw [setTransfer_transfer hgoes] at hother
    cases hother
    rw [setTransfer_parameters, hparameters, RawTransfer.job_binary hjob]
    cases hstate : next.op.opState with
    | portPasv =>
        rw [hstate] at hbegins
        exact hbegins
    | type => exact absurd hstate htype
    | init | rest | transfer | waitfinish | waittransferpre | waittransfer
    | waitsocket =>
        rw [hstate] at hbegins
        exact hbegins.elim
  · intro other _ binary code hmem
    rw [setTransfer_awaited hgoes, hempty] at hmem
    cases hmem

theorem TypeKnown.remains
    (hknown : connection.TypeKnown) (hordered : connection.Ordered)
    (hsome : connection.transfer = some run)
    (hgoes : next.finished = none)
    (hstate : next.op.opState = run.op.opState ∨
      run.op.opState = .transfer ∧
        next.op.opState = .waittransferpre ∨
      run.op.opState = .waitfinish ∧
        next.op.opState = .waittransfer)
    (hbinary : next.op.binary = run.op.binary)
    (hparameters : next.parameters = run.parameters) :
    (connection.setTransfer next).TypeKnown := by
  have hcarries := hordered.carries run hsome
  rw [hcarries.parameters] at hparameters
  constructor
  · rw [setTransfer_parameters, setTransfer_server, hparameters]
    exact hknown.agrees
  · intro other hother hinit htype
    rw [setTransfer_transfer hgoes] at hother
    cases hother
    rw [setTransfer_parameters, hparameters, hbinary]
    apply hknown.decided run hsome
    · rcases hstate with hsame | hmoved | hmoved
      · rw [← hsame]
        exact hinit
      · simp [hmoved.1]
      · simp [hmoved.1]
    · rcases hstate with hsame | hmoved | hmoved
      · rw [← hsame]
        exact htype
      · simp [hmoved.1]
      · simp [hmoved.1]
  · intro other hother binary code hmem
    rw [setTransfer_transfer hgoes] at hother
    cases hother
    rw [setTransfer_awaited hgoes] at hmem
    rw [hbinary, setTransfer_server]
    exact hknown.sent run hsome binary code hmem

/-! ## Replies -/

theorem TypeKnown.accepted
    (hknown : connection.TypeKnown) (hordered : connection.Ordered)
    (hsome : connection.transfer = some run)
    (hstate : run.op.opState = .type) {code : ℕ}
    (hcode : code = 2 ∨ code = 3) {kind : ServerCommand}
    (hawaited : connection.awaited = [(kind, code)]) :
    connection.server.binary = run.op.binary := by
  obtain ⟨command, hmeaning, hawaits⟩ := hordered.awaits hsome hawaited
  rw [hstate] at hawaits
  cases command with
  | type binary =>
      have hmem : (.type binary, code) ∈ connection.awaited := by
        rw [hawaited, ← hmeaning]
        exact List.mem_singleton_self _
      have hsent := hknown.sent run hsome binary code hmem
      rw [hsent.2 hcode, hsent.1]
  | pasv | epsv | port | eprt | rest | transfer => exact hawaits.elim

theorem TypeKnown.parametersAfter
    (hknown : connection.TypeKnown) (hordered : connection.Ordered)
    (hsome : connection.transfer = some run) {code : ℕ}
    (hcode : (∃ kind, connection.awaited = [(kind, code)]) ∨ code = 1) :
    TypeAgrees (run.op.parametersAfter connection.parameters code)
      connection.server := by
  unfold RawTransfer.parametersAfter
  cases hstate : run.op.opState with
  | type =>
      by_cases hpositive : code = 2 ∨ code = 3
      · rcases hcode with ⟨kind, hawaited⟩ | hfirst
        · have haccepted := hknown.accepted hordered hsome hstate hpositive
            hawaited
          simp only [if_pos hpositive]
          constructor <;> intro hlast <;> rw [haccepted] <;>
            cases hbinary : run.op.binary <;> simp [hbinary] at hlast ⊢
        · omega
      · simp only [if_neg hpositive]
        exact hknown.agrees
  | rest =>
      dsimp only
      apply typeAgrees_of_eq hknown.agrees _ rfl
      split_ifs <;> rfl
  | init | portPasv | transfer | waitfinish | waittransferpre
  | waittransfer | waitsocket => exact hknown.agrees

theorem TypeKnown.follows
    (hknown : connection.TypeKnown)
    (hsome : connection.transfer = some run) {code : ℕ}
    {state : RawTransferState} (hfollows : run.op.opState.Follows code state) :
    (run.op.parametersAfter connection.parameters code).lastTypeBinary =
      if run.op.binary then 1 else 0 := by
  have hdecided := hknown.decided run hsome
  unfold RawTransfer.parametersAfter
  cases hstate : run.op.opState with
  | init =>
      rw [hstate] at hfollows
      exact hfollows.elim
  | type =>
      rw [hstate] at hfollows
      cases state with
      | portPasv =>
          have hcode : code = 2 ∨ code = 3 := hfollows
          simp only [if_pos hcode]
      | init | type | rest | transfer | waitfinish | waittransferpre
      | waittransfer | waitsocket => exact hfollows.elim
  | rest =>
      have hlast := hdecided (by simp [hstate]) (by simp [hstate])
      by_cases hoffset : run.op.resumeOffset ≤ 0
      · simp only [if_pos hoffset]
        exact hlast
      · simp only [if_neg hoffset]
        exact hlast
  | portPasv | transfer | waitfinish | waittransferpre | waittransfer
  | waitsocket => exact hdecided (by simp [hstate]) (by simp [hstate])

theorem TypeKnown.takes
    (hknown : connection.TypeKnown) (hordered : connection.Ordered)
    (hsome : connection.transfer = some run) {code : ℕ}
    {base : FtpConnection} (hserver : base.server = connection.server)
    (htakes : RawTransferRun.Takes run.op run.parameters code next)
    (hawaited :
      (∃ kind, connection.awaited = [(kind, code)]) ∧ base.awaited = [] ∨
        code = 1 ∧ base.awaited = connection.awaited ∧
          ∃ final, connection.awaited = [(.data, final)]) :
    (base.setTransfer next).TypeKnown := by
  have hcarries := hordered.carries run hsome
  have hcode : (∃ kind, connection.awaited = [(kind, code)]) ∨ code = 1 := by
    rcases hawaited with ⟨hkind, _⟩ | ⟨hfirst, _⟩
    · exact Or.inl hkind
    · exact Or.inr hfirst
  have hagrees := hknown.parametersAfter hordered hsome hcode
  rw [hcarries.parameters] at htakes
  cases htakes with
  | ends hfinished hparameters =>
      apply typeKnown_none (setTransfer_ended hfinished)
      rw [setTransfer_parameters, setTransfer_server, hparameters, hserver]
      exact hagrees
  | goesOn hgoes hparameters hfollows hjob _ =>
      have hlast := hknown.follows hsome hfollows
      constructor
      · rw [setTransfer_parameters, setTransfer_server, hparameters, hserver]
        exact hagrees
      · intro other hother _ _
        rw [setTransfer_transfer hgoes] at hother
        cases hother
        rw [setTransfer_parameters, hparameters,
          RawTransfer.job_binary hjob]
        exact hlast
      · intro other _ binary final hmem
        rw [setTransfer_awaited hgoes] at hmem
        rcases hawaited with ⟨_, hempty⟩ | ⟨_, hsame, _, hdata⟩
        · rw [hempty] at hmem
          cases hmem
        · rw [hsame, hdata] at hmem
          cases List.mem_singleton.mp hmem

/-! ## Runs -/

theorem TypeKnown.dataEvents
    (hknown : connection.TypeKnown)
    (hsome : connection.transfer = some run)
    {command : Option (RawTransferCommand DataCommand)}
    (hwrites : ∀ written, command = some written → run.op.Writes written) :
    SentInType (connection.dataEvents run.op command) := by
  intro verb binary resumeOffset server hmem
  cases command with
  | none => cases hmem
  | some written =>
      cases written with
      | transfer sent =>
          cases List.mem_singleton.mp hmem
          have hstate := (hwrites _ rfl).1
          have hlast := hknown.decided run hsome (by simp [hstate])
            (by simp [hstate])
          cases hbinary : run.op.binary with
          | true =>
              apply hknown.agrees.1
              simpa [hbinary] using hlast
          | false =>
              apply hknown.agrees.2
              simpa [hbinary] using hlast
      | type | pasv | epsv | port | eprt | rest => cases hmem

theorem TypeKnown.advances
    (hknown : connection.TypeKnown) (hordered : connection.Ordered)
    (hsome : connection.transfer = some run)
    {command : Option (RawTransferCommand DataCommand)}
    (hadvances : RawTransferRun.Advances run next command)
    (answer : ServerAnswer) :
    ((connection.deliver command answer).setTransfer next).TypeKnown ∧
      SentInType (connection.dataEvents run.op command) := by
  have hevents := @TypeKnown.dataEvents connection run hknown hsome command
  cases hadvances with
  | writes written hcommand hwrites hidle hgoes hstate hjob hparameters _ =>
      subst hcommand
      constructor
      · exact hknown.writes hordered hsome hwrites hidle hgoes hstate hjob
          hparameters
      · apply hevents
        intro other hother
        cases hother
        exact hwrites
  | ends hcommand hfinished hparameters =>
      subst hcommand
      exact ⟨hknown.ends hordered hsome hfinished hparameters,
        hevents nofun⟩
  | begins hcommand hgoes hbegins hjob hparameters hidle _ =>
      subst hcommand
      exact ⟨hknown.begins hordered hsome hgoes hbegins hjob hparameters
        hidle, hevents nofun⟩
  | remains hcommand hgoes hstate _ hbinary _ hparameters _ =>
      subst hcommand
      exact ⟨hknown.remains hordered hsome hgoes hstate hbinary hparameters,
        hevents nofun⟩

/-- One step keeps the mirrored type, and a transfer has the wanted one. -/
theorem TypeKnown.changes
    (hknown : connection.TypeKnown) (hordered : connection.Ordered)
    {input : ConnectionInput} {events : List ConnectionEvent}
    (hchanges : Changes connection input following events) :
    following.TypeKnown ∧ SentInType events := by
  have hsilent : SentInType [] := nofun
  cases hchanges with
  | idles hparameters hserver hnone hevents =>
      subst hevents
      refine ⟨typeKnown_none hnone ?_, hsilent⟩
      rw [hparameters, hserver]
      exact hknown.agrees
  | connects binary hparameters _ hnone hevents =>
      subst hevents
      refine ⟨typeKnown_none hnone ?_, hsilent⟩
      exact typeAgrees_forgotten (by rw [hparameters]) _
  | logonSends command answer _ hlogon hparameters _ hnone hevents =>
      subst hevents
      refine ⟨typeKnown_none hnone ?_, hsilent⟩
      exact typeAgrees_forgotten (by rw [hparameters, hlogon]) _
  | operationSends answer hparameters hserver hnone hevents =>
      subst hevents
      refine ⟨typeKnown_none hnone ?_, hsilent⟩
      rw [hparameters, hserver]
      exact typeAgrees_of_eq hknown.agrees rfl
        (execute_binary _ (by simp) answer)
  | rawCommandSends command answer _ _ hparameters _ hnone hevents =>
      subst hevents
      refine ⟨typeKnown_none hnone ?_, hsilent⟩
      exact typeAgrees_forgotten (by rw [hparameters]) _
  | rawCommandFails hparameters _ hnone hevents =>
      subst hevents
      refine ⟨typeKnown_none hnone ?_, hsilent⟩
      exact typeAgrees_forgotten (by rw [hparameters]) _
  | keepsAlive answer hparameters hserver hnone hevents =>
      subst hevents
      refine ⟨typeKnown_none hnone ?_, hsilent⟩
      rw [hparameters, hserver]
      exact typeAgrees_keepAlive hknown.agrees answer
  | creates op _ hinit hparameters hserver hstarted hempty hevents =>
      subst hevents
      constructor
      · constructor
        · rw [hparameters, hserver]
          exact hknown.agrees
        · intro run hsome hnot _
          rw [hstarted] at hsome
          cases hsome
          exact absurd hinit hnot
        · intro run _ binary code hmem
          rw [hempty] at hmem
          cases hmem
      · exact hsilent
  | skips hparameters hserver htransfer hsame hevents =>
      subst hevents
      constructor
      · constructor
        · rw [hparameters, hserver]
          exact hknown.agrees
        · rw [hparameters, htransfer]
          exact hknown.decided
        · rw [htransfer, hsame, hserver]
          exact hknown.sent
      · exact hsilent
  | advances run next command _ answer _ hsome hadvances hfollowing
      hevents =>
      subst hfollowing hevents
      exact hknown.advances hordered hsome hadvances answer
  | takes run next code base hsome htakes hfollowing hserver hawaited
      hevents =>
      subst hfollowing hevents
      exact ⟨hknown.takes hordered hsome hserver htakes hawaited, hsilent⟩

end FtpConnection

/-- What the client remembers of the type is true in every state, and every
command for a data connection is sent to a server in the type that the
operation wants. -/
theorem transfer_type_agrees
    {inputs : List ConnectionInput} {events : List ConnectionEvent}
    {connection : FtpConnection}
    (hreach : ftpConnection.Reaches inputs events connection) :
    TypeAgrees connection.parameters connection.server ∧
      SentInType events := by
  have hinvariant :
      connection.Ordered ∧ connection.TypeKnown ∧ SentInType events := by
    apply hreach.invariant fun events connection =>
      connection.Ordered ∧ connection.TypeKnown ∧ SentInType events
    · rintro _ rfl
      have hknown := @FtpConnection.typeKnown_none FtpConnection.initial rfl
        (FtpConnection.typeAgrees_forgotten rfl _)
      exact ⟨FtpConnection.initial_ordered, hknown, nofun⟩
    · intro events connection input following answer hinv _ hstep
      obtain ⟨hordered, hknown, hsent⟩ := hinv
      obtain ⟨hordered', hchanges⟩ := hordered.step hstep
      obtain ⟨hknown', hsent'⟩ := hknown.changes hordered hchanges
      refine ⟨hordered', hknown', ?_⟩
      intro verb binary resumeOffset server hmem
      rcases List.mem_append.mp hmem with hold | hnew
      · exact hsent verb binary resumeOffset server hold
      · exact hsent' verb binary resumeOffset server hnew
  exact ⟨hinvariant.2.1.agrees, hinvariant.2.2⟩

/-- The first listing on a connection. -/
theorem transfer_type_agrees_mlsd :
    ∃ inputs events connection,
      ftpConnection.Reaches inputs events connection ∧
      events = [.dataCommand .mlsd true 0 ⟨true, 0⟩] ∧
      TypeAgrees connection.parameters connection.server ∧
      SentInType events := by
  let env := RawTransferEnv.fallback
  let accepted : ServerAnswer := ⟨2, false⟩
  let inputs : List ConnectionInput :=
    [.start .other, .onConnect false 2, .reply env, .endOperation,
      .list true, .transfer (.sendNextCommand env) accepted,
      .transfer (.sendNextCommand env) accepted, .reply env,
      .transfer (.sendNextCommand env) accepted, .reply env,
      .transfer (.sendNextCommand env) accepted]
  have hexec :
      (ftpConnection.exec (fun _ _ => True) FtpConnection.initial
        inputs).map Prod.snd =
          some [.dataCommand .mlsd true 0 ⟨true, 0⟩] := by
    decide +kernel
  obtain ⟨⟨connection, events⟩, hrun, hevents⟩ :=
    Option.map_eq_some_iff.mp hexec
  have hstart :
      ftpConnection.Reaches [] [] FtpConnection.initial := .start rfl
  have hreach := hstart.exec hrun
  exact ⟨inputs, events, connection, hreach, hevents,
    transfer_type_agrees hreach⟩

end TabFtp
