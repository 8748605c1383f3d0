import TabFtp.EngineDispatch
import TabFtp.JobSlot

/-!
# Accepted commands are dispatched once

The current command of the engine is the job of a slot.  The functions of the
engine are runs of that slot, so the counts of the slot are those of the
notifications.  Only the event of a command may start it, and the event does
not say which command it is for; this is why no command may be accepted while
an earlier event is still in the queue.
-/

namespace TabFtp

open LabelledRuns JobSlot

def EngineOutput.jobEvent : EngineOutput → Option JobSlot.Event
  | .accepted ticket => some (.accepted ticket)
  | .refused _ => none
  | .started ticket => some (.started ticket)
  | .operationNotification ticket _ _ => some (.finished ticket)

def jobEvents (outputs : List EngineOutput) : List JobSlot.Event :=
  outputs.filterMap EngineOutput.jobEvent

namespace Engine

structure Matches (engine : Engine) (slot : Slot) : Prop where
  next : slot.next = engine.nextTicket
  job : slot.job.map Prod.fst =
    engine.currentCommand.map EngineCommand.ticket
  unstarted : .command ∈ engine.queue → ∀ ticket, slot.job ≠ some (ticket, true)
  oneEvent : engine.queue.count .command ≤ 1
  retry : engine.retryTimer = true → ∃ command,
    engine.currentCommand = some command ∧ command.id = .connect

def Follows (engine : Engine) (result : EngineResult) : Prop :=
  ∀ slot, engine.Matches slot → ∃ following,
    slot.run (jobEvents result.2) = some following ∧
      result.1.Matches following

variable {engine : Engine}

theorem Follows.andThen
    {result : EngineResult} {next : Engine → EngineResult}
    (hfirst : engine.Follows result)
    (hsecond : result.1.Follows (next result.1)) :
    engine.Follows (result.andThen next) := by
  intro slot hmatches
  rcases hfirst slot hmatches with ⟨middle, hrun, hmiddle⟩
  rcases hsecond middle hmiddle with ⟨final, hrest, hfinal⟩
  refine ⟨final, ?_, hfinal⟩
  unfold EngineResult.andThen jobEvents
  rw [List.filterMap_append]
  exact Slot.run_append hrun hrest

theorem follows_of_same
    {following : Engine}
    (hcommand : following.currentCommand = engine.currentCommand)
    (hqueue : following.queue = engine.queue)
    (hticket : following.nextTicket = engine.nextTicket)
    (hretry : following.retryTimer = true → engine.retryTimer = true ∨
      ∃ command, engine.currentCommand = some command ∧
        command.id = .connect) :
    engine.Follows (following, []) := by
  intro slot hmatches
  refine ⟨slot, rfl, ?_⟩
  constructor
  · rw [hticket]
    exact hmatches.next
  · rw [hcommand]
    exact hmatches.job
  · rw [hqueue]
    exact hmatches.unstarted
  · rw [hqueue]
    exact hmatches.oneEvent
  · intro htimer
    rw [hcommand]
    rcases hretry htimer with hold | hnew
    · exact hmatches.retry hold
    · exact hnew

theorem follows_refl (engine : Engine) : engine.Follows (engine, []) :=
  follows_of_same rfl rfl rfl Or.inl

theorem follows_end
    {following : Engine} {command : EngineCommand} {errorCode : Reply}
    {commandId : Command}
    (hcurrent : engine.currentCommand = some command)
    (hcommand : following.currentCommand = none)
    (hqueue : following.queue = engine.queue)
    (hticket : following.nextTicket = engine.nextTicket)
    (htimer : following.retryTimer = false) :
    engine.Follows (following,
      [.operationNotification command.ticket errorCode commandId]) := by
  intro slot hmatches
  have hjob := hmatches.job
  rw [hcurrent, Option.map_some] at hjob
  refine ⟨{ slot with job := none }, ?_, ?_⟩
  · simp [jobEvents, EngineOutput.jobEvent, Slot.run, Slot.step, hjob]
  · constructor
    · rw [hticket]
      exact hmatches.next
    · rw [hcommand]
      rfl
    · intro _ ticket
      simp
    · rw [hqueue]
      exact hmatches.oneEvent
    · intro hset
      rw [htimer] at hset
      cases hset

theorem follows_notifyEnd
    {command : EngineCommand} (errorCode : Reply) (retryCount : ℤ)
    (hcurrent : engine.currentCommand = some command)
    (htimer : engine.retryTimer = false) :
    engine.Follows
      ({ engine with retryCount := retryCount }.notifyEnd command errorCode) :=
  follows_end hcurrent rfl rfl rfl htimer

theorem follows_retry
    {command : EngineCommand} (retryCount : ℤ)
    (hcurrent : engine.currentCommand = some command)
    (hid : command.id = .connect) :
    engine.Follows
      ({ engine with retryCount := retryCount, retryTimer := true }, []) := by
  refine follows_of_same rfl rfl rfl ?_
  intro _
  exact Or.inr ⟨command, hcurrent, hid⟩

theorem Matches.retryTimer_eq_false
    {slot : Slot} (hmatches : engine.Matches slot) {command : EngineCommand}
    (hcurrent : engine.currentCommand = some command)
    (hid : command.id ≠ .connect) : engine.retryTimer = false := by
  by_contra htimer
  rw [Bool.not_eq_false] at htimer
  rcases hmatches.retry htimer with ⟨other, hother, hconnect⟩
  rw [hcurrent] at hother
  cases hother
  exact hid hconnect

theorem Follows.comp
    {following : Engine} {result : EngineResult}
    (hsame : engine.Follows (following, []))
    (hresult : following.Follows result) : engine.Follows result := by
  intro slot hmatches
  rcases hsame slot hmatches with ⟨middle, hrun, hmiddle⟩
  rcases hresult middle hmiddle with ⟨final, hrest, hfinal⟩
  exact ⟨final, Slot.run_append hrun hrest, hfinal⟩

theorem follows_resetOperation (engine : Engine) (errorCode : Reply) :
    engine.Follows (engine.resetOperation errorCode) := by
  intro slot hmatches
  unfold resetOperation
  split
  · exact follows_refl engine slot hmatches
  · rename_i command hcurrent
    split_ifs with hid htimer
    · exact follows_refl engine slot hmatches
    · rw [Bool.not_eq_true] at htimer
      simp only
      split_ifs
      · exact follows_retry _ hcurrent hid slot hmatches
      · exact follows_notifyEnd _ _ hcurrent htimer slot hmatches
    · rw [Bool.not_eq_true] at htimer
      exact follows_notifyEnd _ engine.retryCount hcurrent htimer slot
        hmatches
    · have htimer := hmatches.retryTimer_eq_false hcurrent hid
      exact follows_notifyEnd _ engine.retryCount hcurrent htimer slot
        hmatches

theorem follows_setOperations (engine : Engine) (operations : List ℕ) :
    engine.Follows (engine.setOperations operations, []) :=
  follows_of_same rfl rfl rfl Or.inl

theorem follows_dropSocket (engine : Engine) :
    engine.Follows ({ engine with controlSocket := none }, []) :=
  follows_of_same rfl rfl rfl Or.inl

theorem follows_socketReset (engine : Engine) (errorCode : Reply) :
    engine.Follows ((engine.setOperations []).resetOperation errorCode) :=
  (follows_setOperations engine []).comp (follows_resetOperation _ errorCode)

theorem follows_destroySocket (engine : Engine) :
    engine.Follows engine.destroySocket := by
  unfold destroySocket
  split
  · exact follows_refl engine
  · exact (follows_dropSocket engine).comp (follows_resetOperation _ _)

theorem follows_sendNextCommand
    (engine : Engine) (surroundings : Surroundings) :
    engine.Follows (engine.sendNextCommand surroundings) := by
  unfold sendNextCommand
  split
  · exact follows_refl engine
  · exact follows_socketReset engine _

theorem follows_handleResult
    (engine : Engine) (surroundings : Surroundings) (res : Reply) :
    engine.Follows (engine.handleResult surroundings res) := by
  unfold handleResult
  split_ifs
  · exact follows_sendNextCommand engine surroundings
  · exact follows_resetOperation engine _
  · exact follows_resetOperation engine _
  · exact follows_refl engine

theorem follows_continueConnect
    {command : EngineCommand} (hcurrent : engine.currentCommand = some command)
    (hid : command.id = .connect) (surroundings : Surroundings) :
    engine.Follows
      ((engine.continueConnect command surroundings).1, []) := by
  unfold continueConnect
  split_ifs
  · refine follows_of_same rfl rfl rfl ?_
    intro _
    exact Or.inr ⟨command, hcurrent, hid⟩
  · exact follows_of_same rfl rfl rfl Or.inl
  · exact follows_refl engine

theorem follows_dispatch
    {command : EngineCommand} (hcurrent : engine.currentCommand = some command)
    (surroundings : Surroundings) :
    engine.Follows (engine.dispatch command surroundings) := by
  have hpush : engine.Follows (engine.pushOperation command, []) :=
    follows_of_same rfl rfl rfl Or.inl
  have hpushed : engine.Follows
      ((engine.pushOperation command).handleResult surroundings
        Reply.continued) :=
    hpush.comp (follows_handleResult _ _ _)
  cases hid : command.id with
  | connect =>
      simp only [dispatch, hid]
      have hcount : engine.Follows ({ engine with retryCount := 0 }, []) :=
        follows_of_same rfl rfl rfl Or.inl
      have hzero : { engine with retryCount := 0 }.currentCommand =
          some command := hcurrent
      have hconnect := follows_continueConnect hzero hid surroundings
      exact (hcount.comp hconnect).comp (follows_handleResult _ _ _)
  | disconnect =>
      simp only [dispatch, hid]
      refine Follows.andThen ?_ (follows_handleResult _ _ _)
      split
      · exact follows_refl engine
      · exact (follows_socketReset engine _).andThen (follows_destroySocket _)
  | list =>
      simp only [dispatch, hid]
      split_ifs
      · exact follows_handleResult engine _ _
      · exact hpushed
  | transfer | raw | del | removedir | mkdir | rename | chmod =>
      simp only [dispatch, hid]
      exact hpushed
  | httprequest =>
      simp only [dispatch, hid]
      split_ifs
      · exact hpushed
      · exact follows_handleResult engine _ _
  | none | sleep | lookup | cwd | commonPrivate1 | commonPrivate2 | private1
  | private2 | private3 | private4 | private5 | private6 =>
      simp only [dispatch, hid]
      exact follows_handleResult engine _ _

theorem follows_onCommandEvent
    {rest : List EngineEvent} (hqueue : engine.queue = .command :: rest)
    (surroundings : Surroundings) :
    engine.Follows
      ({ engine with queue := rest }.onCommandEvent surroundings) := by
  intro slot hmatches
  have hone := hmatches.oneEvent
  rw [hqueue, List.count_cons_self] at hone
  have hnomore : .command ∉ rest := by
    rw [← List.count_eq_zero]
    omega
  have hrest : { engine with queue := rest }.Matches slot :=
    { next := hmatches.next
      job := hmatches.job
      unstarted := fun hmem => absurd hmem hnomore
      oneEvent := by simp [List.count_eq_zero.mpr hnomore]
      retry := hmatches.retry }
  unfold onCommandEvent
  split
  · exact ⟨slot, rfl, hrest⟩
  · rename_i command hcurrent
    simp only
    split_ifs
    · have hjob := hrest.job
      rw [hcurrent, Option.map_some, Option.map_eq_some_iff] at hjob
      rcases hjob with ⟨⟨ticket, started⟩, hslot, hticket⟩
      have hunstarted := hmatches.unstarted (by rw [hqueue]; simp) ticket
      have hfalse : started = false := by
        cases started with
        | true => exact absurd hslot hunstarted
        | false => rfl
      simp only at hticket
      rw [hfalse, hticket] at hslot
      have hstarted : { engine with queue := rest }.Matches
          { slot with job := some (command.ticket, true) } :=
        { next := hrest.next
          job := by
            rw [hcurrent]
            rfl
          unstarted := fun hmem => absurd hmem hnomore
          oneEvent := hrest.oneEvent
          retry := hrest.retry }
      rcases follows_dispatch hcurrent surroundings _ hstarted with
        ⟨final, hrun, hfinal⟩
      refine ⟨final, ?_, hfinal⟩
      simp only [EngineResult.andThen, jobEvents, List.cons_append,
        List.nil_append, List.filterMap_cons, EngineOutput.jobEvent, Slot.run,
        Slot.step, hslot, if_true, Option.bind_some]
      exact hrun
    · exact follows_resetOperation _ _ slot hrest

theorem Matches.dropEvent
    {slot : Slot} (hmatches : engine.Matches slot) {event : EngineEvent}
    {rest : List EngineEvent} (hqueue : engine.queue = event :: rest) :
    { engine with queue := rest }.Matches slot where
  next := hmatches.next
  job := hmatches.job
  unstarted hmem := hmatches.unstarted (by
    rw [hqueue]
    exact List.mem_cons_of_mem _ hmem)
  oneEvent := by
    have hone := hmatches.oneEvent
    rw [hqueue] at hone
    exact le_trans (List.count_le_count_cons) hone
  retry := hmatches.retry

theorem destroySocket_of_retry
    {command : EngineCommand} (hcurrent : engine.currentCommand = some command)
    (hid : command.id = .connect) (htimer : engine.retryTimer = true) :
    engine.destroySocket = ({ engine with controlSocket := none }, []) := by
  unfold destroySocket
  split
  · rename_i hsocket
    rw [← hsocket]
  · simp [resetOperation, hcurrent, hid, htimer]

theorem follows_doCancel (engine : Engine) (surroundings : Surroundings) :
    engine.Follows (engine.doCancel surroundings) := by
  intro slot hmatches
  unfold doCancel
  split
  · exact follows_refl engine slot hmatches
  · rename_i command hcurrent
    split_ifs with htimer
    · rcases hmatches.retry htimer with ⟨other, hother, hid⟩
      rw [hcurrent] at hother
      cases hother
      rw [destroySocket_of_retry hcurrent hid htimer]
      have hend : engine.Follows
          ({ engine with
            controlSocket := none
            currentCommand := none
            retryTimer := false },
            [.operationNotification command.ticket
              (Reply.disconnected ||| Reply.canceled) .connect]) :=
        follows_end hcurrent rfl rfl rfl rfl
      exact hend slot hmatches
    · split
      · exact follows_resetOperation engine _ slot hmatches
      · exact follows_refl engine slot hmatches
      · exact follows_sendNextCommand engine _ slot hmatches

theorem follows_onTimer
    (htimer : engine.retryTimer = true) (surroundings : Surroundings) :
    engine.Follows (engine.onTimer surroundings) := by
  have hstop : ∀ socket, engine.Follows
      ({ engine with controlSocket := socket, retryTimer := false }, []) := by
    intro socket
    refine follows_of_same rfl rfl rfl ?_
    intro hset
    cases hset
  unfold onTimer
  split
  · exact hstop engine.controlSocket
  · rename_i command hcurrent
    split_ifs with hid
    · rw [destroySocket_of_retry hcurrent hid htimer]
      have hnone : { engine with
          controlSocket := none
          retryTimer := false }.currentCommand = some command := hcurrent
      have hconnect := follows_continueConnect hnone hid surroundings
      exact ((hstop none).comp hconnect).comp (follows_handleResult _ _ _)
    · exact hstop engine.controlSocket

/-- A command is accepted only when no event of an earlier one is left. -/
def noStaleEvent (engine : Engine) : Input → Prop
  | .execute id valid _ _ =>
      valid = true → engine.checkCommandPreconditions id true = Reply.ok →
        .command ∉ engine.queue
  | _ => True

theorem currentCommand_none_of_ok
    {id : Command}
    (hok : engine.checkCommandPreconditions id true = Reply.ok) :
    engine.currentCommand = none := by
  cases hcurrent : engine.currentCommand with
  | none => rfl
  | some command =>
      simp [checkCommandPreconditions, hcurrent, Reply.busy, Reply.error,
        Reply.ok] at hok

theorem follows_execute
    {id : Command} {valid retryConnecting protocolSupported : Bool}
    (hclean : engine.noStaleEvent
      (.execute id valid retryConnecting protocolSupported)) :
    engine.Follows
      (engine.execute id valid retryConnecting protocolSupported) := by
  intro slot hmatches
  unfold execute
  cases valid with
  | false => exact ⟨slot, rfl, hmatches⟩
  | true =>
      simp only [Bool.not_true, Bool.false_eq_true, if_false]
      split_ifs with hok
      · have hnone := currentCommand_none_of_ok hok
        have hnoevent := hclean rfl hok
        have hjob : slot.job = none := by
          have hmatch := hmatches.job
          rwa [hnone, Option.map_none, Option.map_eq_none_iff] at hmatch
        refine ⟨⟨some (slot.next, false), slot.next + 1⟩, ?_, ?_⟩
        · simp [jobEvents, EngineOutput.jobEvent, Slot.run, Slot.step, hjob,
            hmatches.next]
        · constructor
          · simp only [hmatches.next]
          · simp [hmatches.next]
          · intro _ ticket
            simp
          · rw [List.count_append, List.count_eq_zero.mpr hnoevent]
            simp
          · intro htimer
            rcases hmatches.retry htimer with ⟨command, hcommand, _⟩
            rw [hnone] at hcommand
            cases hcommand
      · exact ⟨slot, rfl, hmatches⟩

theorem follows_cancel (engine : Engine) :
    engine.Follows (engine.cancel, []) := by
  intro slot hmatches
  unfold cancel
  split_ifs
  · refine ⟨slot, rfl, ?_⟩
    exact
      { next := hmatches.next
        job := hmatches.job
        unstarted := fun hmem => hmatches.unstarted (by simpa using hmem)
        oneEvent := by simpa using hmatches.oneEvent
        retry := hmatches.retry }
  · exact ⟨slot, rfl, hmatches⟩

theorem follows_step
    {input : Input} {result : EngineResult} (hclean : engine.noStaleEvent input)
    (hstep : engine.step input = some result) : engine.Follows result := by
  cases input with
  | execute id valid retryConnecting protocolSupported =>
      cases hstep
      exact follows_execute hclean
  | cancel =>
      cases hstep
      exact follows_cancel engine
  | deliver surroundings =>
      simp only [step] at hstep
      split at hstep
      · cases hstep
      · rename_i rest hqueue
        cases hstep
        exact follows_onCommandEvent hqueue surroundings
      · rename_i rest hqueue
        cases hstep
        intro slot hmatches
        exact follows_doCancel _ surroundings slot (hmatches.dropEvent hqueue)
  | retryTimer surroundings =>
      simp only [step] at hstep
      split_ifs at hstep with htimer
      cases hstep
      exact follows_onTimer htimer surroundings
  | socketResets errorCode =>
      simp only [step] at hstep
      split at hstep
      · cases hstep
      · cases hstep
        exact follows_socketReset engine errorCode
  | setReconnectCount count =>
      cases hstep
      exact follows_of_same rfl rfl rfl Or.inl

/-- In every run the engine does what a slot for one job does. -/
theorem reachable_matches
    {inputs : List Input} {outputs : List EngineOutput}
    (hreach : engineMachine.ReachesWithin noStaleEvent inputs outputs engine) :
    ∃ slot, Slot.empty.run (jobEvents outputs) = some slot ∧
      engine.Matches slot := by
  refine hreach.invariant
    (fun outputs engine =>
      ∃ slot, Slot.empty.run (jobEvents outputs) = some slot ∧
        engine.Matches slot) ?_ ?_
  · intro engine hinitial
    have hengine : engine = initial := hinitial
    rw [hengine]
    refine ⟨Slot.empty, rfl, ?_⟩
    constructor <;> simp [initial, Slot.empty]
  · intro outputs engine input following answer hinv hclean hstep
    rcases hinv with ⟨slot, hrun, hmatches⟩
    rcases follows_step hclean hstep slot hmatches with
      ⟨next, hnext, hfollowing⟩
    refine ⟨next, ?_, hfollowing⟩
    unfold jobEvents
    rw [List.filterMap_append]
    exact Slot.run_append hrun hnext

end Engine

/-! ## Counting notifications -/

def EngineOutput.notifies (ticket : ℕ) : EngineOutput → Bool
  | .operationNotification other _ _ => other = ticket
  | _ => false

theorem count_started (outputs : List EngineOutput) (ticket : ℕ) :
    (jobEvents outputs).count (.started ticket) =
      outputs.count (.started ticket) := by
  rw [jobEvents, List.count_filterMap, List.count_eq_countP]
  apply List.countP_congr
  intro output _
  cases output <;> simp [EngineOutput.jobEvent]

theorem count_finished (outputs : List EngineOutput) (ticket : ℕ) :
    (jobEvents outputs).count (.finished ticket) =
      outputs.countP (EngineOutput.notifies ticket) := by
  rw [jobEvents, List.count_filterMap]
  apply List.countP_congr
  intro output _
  cases output <;> simp [EngineOutput.jobEvent, EngineOutput.notifies]

/-- Every accepted command is started at most once.  It is notified once when
it ends, and not while it is the current command. -/
def DispatchedOnce (outputs : List EngineOutput) (engine : Engine) : Prop :=
  ∀ ticket, .accepted ticket ∈ outputs →
    outputs.count (.started ticket) ≤ 1 ∧
      outputs.countP (EngineOutput.notifies ticket) =
        if engine.currentCommand.map EngineCommand.ticket = some ticket then 0
        else 1

/-- A command that is accepted is started once at most, and the application
hears of its end exactly once. -/
theorem accepted_commands_dispatched_once
    {inputs : List Engine.Input} {outputs : List EngineOutput} {engine : Engine}
    (hreach : engineMachine.ReachesWithin Engine.noStaleEvent inputs outputs
      engine) :
    DispatchedOnce outputs engine := by
  rcases Engine.reachable_matches hreach with ⟨slot, hrun, hmatches⟩
  intro ticket hticket
  have haccepted : JobSlot.Event.accepted ticket ∈ jobEvents outputs :=
    List.mem_filterMap.mpr ⟨.accepted ticket, hticket, rfl⟩
  have honce := Slot.ticket_once hrun haccepted
  rw [count_started, count_finished, hmatches.job] at honce
  exact honce

instance (engine : Engine) :
    (input : Engine.Input) → Decidable (engine.noStaleEvent input)
  | .execute id valid _ _ =>
      inferInstanceAs (Decidable
        (valid = true →
          engine.checkCommandPreconditions id true = Reply.ok →
          .command ∉ engine.queue))
  | .cancel | .deliver _ | .retryTimer _ | .socketResets _
  | .setReconnectCount _ => .isTrue trivial

def Surroundings.quiet : Surroundings := ⟨false, false, false, none⟩

/-- A connection, and a listing that is stopped by the loss of the
connection. -/
theorem accepted_commands_dispatched_once_connection_lost :
    ∃ engine, DispatchedOnce
      [.accepted 0, .started 0, .operationNotification 0 Reply.ok .connect,
        .accepted 1, .started 1,
        .operationNotification 1 (Reply.error ||| Reply.disconnected) .list]
      engine := by
  have hexec : ∃ engine, engineMachine.exec Engine.noStaleEvent Engine.initial
      [.execute .connect true false true, .deliver .quiet,
        .socketResets Reply.ok, .execute .list true false true,
        .deliver .quiet,
        .socketResets (Reply.error ||| Reply.disconnected)] =
      some (engine,
        [.accepted 0, .started 0,
          .operationNotification 0 Reply.ok .connect, .accepted 1, .started 1,
          .operationNotification 1 (Reply.error ||| Reply.disconnected)
            .list]) := ⟨_, rfl⟩
  rcases hexec with ⟨engine, hexec⟩
  have hstart : engineMachine.ReachesWithin Engine.noStaleEvent [] []
      Engine.initial := .start rfl
  exact ⟨engine, accepted_commands_dispatched_once (hstart.exec hexec)⟩

/-- The idle connection is lost after a listing was accepted and before its
event.  The next command is accepted with two events in the queue, and both of
them start it. -/
theorem stale_event_starts_twice :
    ¬ ∀ inputs outputs engine,
      engineMachine.Reaches inputs outputs engine →
        DispatchedOnce outputs engine := by
  intro hall
  have hexec : ∃ engine, engineMachine.exec (fun _ _ => True) Engine.initial
      [.execute .connect true false true, .deliver .quiet,
        .socketResets Reply.ok, .execute .list true false true,
        .socketResets (Reply.error ||| Reply.disconnected),
        .execute .list true false true, .deliver .quiet, .deliver .quiet] =
      some (engine,
        [.accepted 0, .started 0,
          .operationNotification 0 Reply.ok .connect, .accepted 1,
          .operationNotification 1 (Reply.error ||| Reply.disconnected) .list,
          .accepted 2, .started 2, .started 2]) := ⟨_, rfl⟩
  rcases hexec with ⟨engine, hexec⟩
  have hstart : engineMachine.Reaches [] [] Engine.initial := .start rfl
  have honce := hall _ _ _ (hstart.exec hexec) 2 (by decide)
  exact absurd honce.1 (by decide)

end TabFtp
