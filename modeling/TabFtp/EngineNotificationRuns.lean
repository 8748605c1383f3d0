import TabFtp.EngineNotifications

/-!
# What the application receives from an engine

The list and the flag of the callback form an edge-triggered queue, so no
wake-up is lost.  The log messages come out in the order in which they were
logged as long as no raw command starts while some of them are held back.
-/

namespace TabFtp

open EdgeTriggered LabelledRuns

variable {Text Other : Type}

def Notification.logmsg? :
    Notification Text Other → Option (LogmsgNotification Text)
  | .logmsg message => some message
  | .other _ => none

def Notification.other? : Notification Text Other → Option Other
  | .logmsg _ => none
  | .other notification => some notification

def EngineCall.logged? :
    EngineCall Text Other → Option (LogmsgNotification Text)
  | .addLogNotification message => some message
  | _ => none

/-- The notification, not a log message, that the call adds. -/
def EngineCall.added? : EngineCall Text Other → Option Other
  | .addNotification notification => notification
  | _ => none

theorem filterMap_logmsg (messages : List (LogmsgNotification Text)) :
    (messages.map Notification.logmsg).filterMap
        (Notification.logmsg? : Notification Text Other → _) =
      messages := by
  induction messages with
  | nil => rfl
  | cons message messages ih =>
      simp [Notification.logmsg?, ih]

theorem filterMap_other_logmsg
    (messages : List (LogmsgNotification Text)) :
    (messages.map Notification.logmsg).filterMap
        (Notification.other? : Notification Text Other → _) =
      [] := by
  simp [Notification.other?]

/-! ## Each call at the list -/

namespace EngineNotifications

/-- The list of notifications with the flag of the callback. -/
def queue (engine : EngineNotifications Text Other) :
    Queue (Notification Text Other) where
  items := engine.notificationList
  armed := engine.maySendNotificationEvent

/-- The effect of a call that puts `added` into the list in one block. -/
structure Inserts
    (engine : EngineNotifications Text Other)
    (added : List (Notification Text Other))
    (answer : Answer Text Other) : Prop where
  notificationList :
    answer.1.notificationList = engine.notificationList ++ added
  hasNotificationCb :
    answer.1.hasNotificationCb = engine.hasNotificationCb
  called :
    engine.hasNotificationCb = true →
      engine.queue.Step answer.2 answer.1.queue
  inserted :
    insertedItems answer.2 = added ∧ handedItems answer.2 = []

variable {engine : EngineNotifications Text Other}

theorem Inserts.of_same
    {following : EngineNotifications Text Other}
    (hqueue : following.queue = engine.queue)
    (hcb : following.hasNotificationCb = engine.hasNotificationCb) :
    engine.Inserts [] (following, []) where
  notificationList := by
    have hlist := congrArg Queue.items hqueue
    simpa [queue] using hlist
  hasNotificationCb := hcb
  called := by
    intro _
    have hstep :
        engine.queue.Step [] ⟨engine.notificationList ++ [], _⟩ :=
      .quiet [] fun _ => rfl
    rw [List.append_nil] at hstep
    rw [hqueue]
    exact hstep
  inserted := ⟨rfl, rfl⟩

theorem Inserts.of_callback
    (following : EngineNotifications Text Other)
    {added : List (Notification Text Other)}
    (hlist : following.notificationList = engine.notificationList ++ added)
    (hmay :
      following.maySendNotificationEvent =
        engine.maySendNotificationEvent)
    (hcb : following.hasNotificationCb = engine.hasNotificationCb) :
    engine.Inserts added
      (following.callback.1,
        added.map .inserted ++ following.callback.2) := by
  unfold callback
  by_cases hcall :
      (following.maySendNotificationEvent &&
        following.hasNotificationCb) = true
  · rw [if_pos hcall]
    have harmed : engine.maySendNotificationEvent = true := by
      rw [← hmay]
      exact (Bool.and_eq_true _ _ ▸ hcall).1
    have hstep :
        engine.queue.Step (added.map .inserted ++ [.wake])
          ⟨engine.notificationList ++ added, false⟩ := .ring added harmed
    rw [← hlist] at hstep
    exact ⟨hlist, hcb, fun _ => hstep, by simp [insertedItems, handedItems]⟩
  · rw [if_neg hcall]
    have hstep (hpresent : engine.hasNotificationCb = true) :
        engine.queue.Step (added.map .inserted)
          ⟨engine.notificationList ++ added,
            engine.maySendNotificationEvent⟩ := by
      have hquiet : engine.maySendNotificationEvent = true → added = [] := by
        intro harmed
        rw [hmay, hcb, harmed, hpresent] at hcall
        exact absurd rfl hcall
      exact .quiet added hquiet
    rw [← hlist, ← hmay] at hstep
    simp only [List.append_nil]
    exact ⟨hlist, hcb, hstep, by simp⟩

theorem addNotification_inserts
    (notification : Option (Notification Text Other)) :
    engine.Inserts notification.toList
      (engine.addNotification notification) := by
  have hlist :
      (engine.insert notification.toList).1.notificationList =
        engine.notificationList ++ notification.toList := rfl
  exact Inserts.of_callback _ hlist rfl rfl

theorem clearQueuedLogs_queue (resetFlag : Bool) :
    (engine.clearQueuedLogs resetFlag).queue = engine.queue := by
  cases resetFlag <;> rfl

theorem clearQueuedLogs_hasNotificationCb (resetFlag : Bool) :
    (engine.clearQueuedLogs resetFlag).hasNotificationCb =
      engine.hasNotificationCb := by
  cases resetFlag <;> rfl

def flushedBy (engine : EngineNotifications Text Other)
    (notification : LogmsgNotification Text) :
    List (LogmsgNotification Text) :=
  if notification.msgType = .error then
    engine.queuedLogs ++ [notification]
  else if notification.msgType = .status then [notification]
  else if !engine.queueLogs then [notification]
  else []

theorem addLogNotification_inserts
    (notification : LogmsgNotification Text) :
    engine.Inserts ((engine.flushedBy notification).map .logmsg)
      (engine.addLogNotification notification) := by
  unfold addLogNotification flushedBy
  by_cases herror : notification.msgType = .error
  · rw [if_pos herror, if_pos herror]
    let flushed : EngineNotifications Text Other :=
      ({ engine with queueLogs := false }).flushQueuedLogs.1
    let following : EngineNotifications Text Other :=
      (flushed.insert [.logmsg notification]).1
    have hlist :
        following.notificationList =
          engine.notificationList ++
            (engine.queuedLogs.map .logmsg ++ [.logmsg notification]) :=
      List.append_assoc _ _ _
    have hinsert := Inserts.of_callback following hlist rfl rfl
    rw [@List.map_append _ _ Signal.inserted, List.append_assoc] at hinsert
    rw [List.map_append]
    exact hinsert
  · rw [if_neg herror, if_neg herror]
    by_cases hstatus : notification.msgType = .status
    · rw [if_pos hstatus, if_pos hstatus]
      let following : EngineNotifications Text Other :=
        ((engine.clearQueuedLogs false).insert [.logmsg notification]).1
      exact Inserts.of_callback following rfl rfl rfl
    · rw [if_neg hstatus, if_neg hstatus]
      by_cases hqueue : (!engine.queueLogs) = true
      · rw [if_pos hqueue, if_pos hqueue]
        exact addNotification_inserts (some (.logmsg notification))
      · rw [if_neg hqueue, if_neg hqueue]
        exact Inserts.of_same rfl rfl

theorem flushQueuedLogs_signals :
    insertedItems engine.flushQueuedLogs.2 =
        engine.queuedLogs.map .logmsg ∧
      handedItems engine.flushQueuedLogs.2 = [] :=
  ⟨insertedItems_inserted _, handedItems_inserted _⟩

/-- The state in which `sendQueuedLogs` looks at the flag. -/
def sent (engine : EngineNotifications Text Other) (resetFlag : Bool) :
    EngineNotifications Text Other :=
  if resetFlag then
    { engine.flushQueuedLogs.1 with
      queueLogs := engine.options.shouldQueueLogsFromOptions }
  else engine.flushQueuedLogs.1

theorem sent_queue (resetFlag : Bool) :
    (engine.sent resetFlag).queue =
      ⟨engine.notificationList ++ engine.queuedLogs.map .logmsg,
        engine.maySendNotificationEvent⟩ := by
  cases resetFlag <;> rfl

theorem sent_hasNotificationCb (resetFlag : Bool) :
    (engine.sent resetFlag).hasNotificationCb =
      engine.hasNotificationCb := by
  cases resetFlag <;> rfl

theorem sent_queuedLogs (resetFlag : Bool) :
    (engine.sent resetFlag).queuedLogs = [] := by
  cases resetFlag <;> rfl

theorem sendQueuedLogs_eq (resetFlag : Bool) :
    engine.sendQueuedLogs resetFlag =
      if !(engine.sent resetFlag).maySendNotificationEvent ||
          (engine.sent resetFlag).notificationList.isEmpty ||
          !(engine.sent resetFlag).hasNotificationCb then
        (engine.sent resetFlag, engine.flushQueuedLogs.2)
      else
        ({ engine.sent resetFlag with maySendNotificationEvent := false },
          engine.flushQueuedLogs.2 ++ [.wake]) :=
  rfl

theorem sendQueuedLogs_inserts (resetFlag : Bool) :
    engine.Inserts (engine.queuedLogs.map .logmsg)
      (engine.sendQueuedLogs resetFlag) := by
  have hqueue := engine.sent_queue resetFlag
  have hlist :
      (engine.sent resetFlag).notificationList =
        engine.notificationList ++ engine.queuedLogs.map .logmsg :=
    congrArg Queue.items hqueue
  have hmay :
      (engine.sent resetFlag).maySendNotificationEvent =
        engine.maySendNotificationEvent := congrArg Queue.armed hqueue
  have hcb := engine.sent_hasNotificationCb resetFlag
  rw [sendQueuedLogs_eq]
  by_cases hreturn :
      (!(engine.sent resetFlag).maySendNotificationEvent ||
        (engine.sent resetFlag).notificationList.isEmpty ||
        !(engine.sent resetFlag).hasNotificationCb) = true
  · rw [if_pos hreturn]
    have hstep (hpresent : engine.hasNotificationCb = true) :
        engine.queue.Step
          ((engine.queuedLogs.map .logmsg).map .inserted)
          (engine.sent resetFlag).queue := by
      rw [hqueue]
      have hquiet :
          engine.maySendNotificationEvent = true →
            engine.queuedLogs.map
              (.logmsg : _ → Notification Text Other) = [] := by
        intro harmed
        rw [hmay, hcb, hlist, harmed, hpresent] at hreturn
        simp at hreturn
        simp [hreturn.2]
      exact .quiet _ hquiet
    exact ⟨hlist, hcb, hstep, engine.flushQueuedLogs_signals⟩
  · rw [if_neg hreturn]
    have harmed : engine.maySendNotificationEvent = true := by
      rw [← hmay]
      simp at hreturn
      exact hreturn.1.1
    have hstep :
        engine.queue.Step
          ((engine.queuedLogs.map .logmsg).map .inserted ++ [.wake])
          ⟨engine.notificationList ++ engine.queuedLogs.map .logmsg,
            false⟩ := .ring _ harmed
    rw [← hlist] at hstep
    have hsignals :
        insertedItems (engine.flushQueuedLogs.2 ++ [.wake]) =
            engine.queuedLogs.map .logmsg ∧
          handedItems (engine.flushQueuedLogs.2 ++ [.wake]) = [] := by
      obtain ⟨hinserted, hhanded⟩ := engine.flushQueuedLogs_signals
      simp [hinserted, hhanded, insertedItems, handedItems]
    exact ⟨hlist, hcb, fun _ => hstep, hsignals⟩

/-- What a call other than `getNextNotification` puts into the list. -/
def addedBy (engine : EngineNotifications Text Other) :
    EngineCall Text Other → List (Notification Text Other)
  | .addNotification notification =>
      (notification.map Notification.other).toList
  | .addLogNotification notification =>
      (engine.flushedBy notification).map .logmsg
  | .sendQueuedLogs _ => engine.queuedLogs.map .logmsg
  | .onOptionsChanged =>
      if engine.options.shouldQueueLogsFromOptions then []
      else engine.queuedLogs.map .logmsg
  | _ => []

theorem step_inserts
    {call : EngineCall Text Other} (hcall : call ≠ .getNextNotification) :
    engine.Inserts (engine.addedBy call) (engine.step call) := by
  cases call with
  | addNotification notification =>
      exact addNotification_inserts (notification.map .other)
  | addLogNotification notification =>
      exact addLogNotification_inserts notification
  | sendQueuedLogs resetFlag => exact sendQueuedLogs_inserts resetFlag
  | clearQueuedLogs resetFlag =>
      exact Inserts.of_same (clearQueuedLogs_queue resetFlag)
        (clearQueuedLogs_hasNotificationCb resetFlag)
  | rawCommand => exact Inserts.of_same rfl rfl
  | setOptions options => exact Inserts.of_same rfl rfl
  | onOptionsChanged =>
      simp only [step, onOptionsChanged, addedBy]
      by_cases hqueue : engine.options.shouldQueueLogsFromOptions = true
      · rw [if_pos hqueue, if_pos hqueue]
        exact Inserts.of_same rfl rfl
      · rw [if_neg hqueue, if_neg hqueue]
        exact sendQueuedLogs_inserts true
  | getNextNotification => exact absurd rfl hcall

theorem getNextNotification_step :
    engine.queue.Step engine.getNextNotification.2
      engine.getNextNotification.1.queue := by
  unfold getNextNotification queue
  cases engine.notificationList with
  | nil => exact .exhausted
  | cons notification rest => exact .take

theorem step_hasNotificationCb (call : EngineCall Text Other) :
    (engine.step call).1.hasNotificationCb = engine.hasNotificationCb := by
  by_cases hcall : call = .getNextNotification
  · subst hcall
    simp only [step, getNextNotification]
    cases engine.notificationList <;> rfl
  · exact (step_inserts hcall).hasNotificationCb

theorem step_queue
    (hcb : engine.hasNotificationCb = true) (call : EngineCall Text Other) :
    engine.queue.Step (engine.step call).2 (engine.step call).1.queue := by
  by_cases hcall : call = .getNextNotification
  · subst hcall
    exact getNextNotification_step
  · exact (step_inserts hcall).called hcb

/-! ## Wake-ups -/

theorem addedBy_other (call : EngineCall Text Other) :
    (engine.addedBy call).filterMap Notification.other? =
      call.added?.toList := by
  cases call with
  | addNotification notification => cases notification <;> rfl
  | addLogNotification notification => exact filterMap_other_logmsg _
  | sendQueuedLogs resetFlag => exact filterMap_other_logmsg _
  | onOptionsChanged =>
      simp only [addedBy, EngineCall.added?]
      by_cases hqueue : engine.options.shouldQueueLogsFromOptions = true
      · rw [if_pos hqueue]
        rfl
      · rw [if_neg hqueue]
        exact filterMap_other_logmsg _
  | clearQueuedLogs | rawCommand | setOptions | getNextNotification => rfl

theorem insertedItems_step (call : EngineCall Text Other) :
    insertedItems (engine.step call).2 = engine.addedBy call := by
  by_cases hcall : call = .getNextNotification
  · subst hcall
    simp only [step, getNextNotification]
    cases engine.notificationList <;> rfl
  · exact (step_inserts hcall).inserted.1

/-- Errors, status messages and, while none are held back, all messages. -/
theorem logmsg_inserted {message : LogmsgNotification Text}
    (hnow : message.msgType = .error ∨ message.msgType = .status ∨
      engine.queueLogs = false) :
    .logmsg message ∈
      insertedItems (engine.step (.addLogNotification message)).2 := by
  rw [insertedItems_step]
  refine List.mem_map_of_mem ?_
  unfold flushedBy
  split_ifs with herror hstatus hdirect
  · simp
  · simp
  · simp
  · simp only [herror, hstatus, false_or] at hnow
    simp [hnow] at hdirect

/-- As many calls as there are notifications, and one more, hand them out. -/
theorem drain
    (list : List (Notification Text Other))
    (hlist : engine.notificationList = list) :
    (machine Text Other).exec (fun _ _ => True) engine
        (List.replicate (list.length + 1) .getNextNotification) =
      some
        ({ engine with
            notificationList := []
            maySendNotificationEvent := true },
          list.map .handed ++ [.exhausted]) := by
  induction list generalizing engine with
  | nil =>
      simp [Machine.exec, machine, step, getNextNotification, hlist]
  | cons notification rest ih =>
      have hrest := @ih { engine with notificationList := rest } rfl
      have hstep :
          (machine Text Other).step engine .getNextNotification =
            some
              ({ engine with notificationList := rest },
                [.handed notification]) := by
        simp [machine, step, getNextNotification, hlist]
      rw [List.length_cons, List.replicate_succ]
      unfold Machine.exec
      rw [if_pos trivial, hstep]
      dsimp only
      rw [hrest]
      rfl

/-- While notifications wait, the application has been called back and has
not received null since.  Every insertion is handed out once and in order,
every notification that is no log message is inserted, log messages are unless
they are held back, and the calls that follow a wake-up hand out all that
wait. -/
theorem notifications_wake_up
    {calls : List (EngineCall Text Other)}
    {signals : List (EngineSignal Text Other)}
    {engine : EngineNotifications Text Other}
    (hreach : (machine Text Other).Reaches calls signals engine)
    (hcb : engine.hasNotificationCb = true) :
    (engine.notificationList ≠ [] → Outstanding signals) ∧
      insertedItems signals =
        handedItems signals ++ engine.notificationList ∧
      (insertedItems signals).filterMap Notification.other? =
        calls.filterMap EngineCall.added? ∧
      (∀ message : LogmsgNotification Text,
        message.msgType = .error ∨ message.msgType = .status ∨
            engine.queueLogs = false →
          .logmsg message ∈
            insertedItems (engine.step (.addLogNotification message)).2) ∧
      (machine Text Other).exec (fun _ _ => True) engine
          (List.replicate (engine.notificationList.length + 1)
            .getNextNotification) =
        some
          ({ engine with
              notificationList := []
              maySendNotificationEvent := true },
            engine.notificationList.map .handed ++ [.exhausted]) := by
  have hinv :
      engine.hasNotificationCb = true →
        engine.queue.Attended signals ∧
          insertedItems signals =
            handedItems signals ++ engine.notificationList ∧
          (insertedItems signals).filterMap Notification.other? =
            calls.filterMap EngineCall.added? := by
    refine hreach.history
      (fun calls signals engine =>
        engine.hasNotificationCb = true →
          engine.queue.Attended signals ∧
            insertedItems signals =
              handedItems signals ++ engine.notificationList ∧
            (insertedItems signals).filterMap Notification.other? =
              calls.filterMap EngineCall.added?) ?_ ?_
    · rintro _ ⟨options, hasNotificationCb, rfl⟩ _
      exact ⟨⟨fun _ => rfl, nofun⟩, rfl, rfl⟩
    · intro calls signals before call following answer hbefore _ hstep hcb
      have heq : before.step call = (following, answer) :=
        Option.some.inj hstep
      have hfollowing : (before.step call).1 = following := by rw [heq]
      have hanswer : (before.step call).2 = answer := by rw [heq]
      have hpresent : before.hasNotificationCb = true := by
        rw [← hcb, ← hfollowing]
        exact (step_hasNotificationCb call).symm
      obtain ⟨hattended, hitems, hothers⟩ := hbefore hpresent
      have hqueue := step_queue hpresent call
      have hinserted := @insertedItems_step _ _ before call
      rw [hfollowing, hanswer] at hqueue
      rw [hanswer] at hinserted
      refine ⟨hqueue.attended hattended, hqueue.conserves hitems, ?_⟩
      rw [insertedItems_append, List.filterMap_append, hothers, hinserted,
        addedBy_other, List.filterMap_append]
      cases hadded : call.added? <;> simp [hadded]
  obtain ⟨hattended, hitems, hothers⟩ := hinv hcb
  exact ⟨hattended.outstanding, hitems, hothers, fun _ => logmsg_inserted,
    drain _ rfl⟩

/-- The second notification wakes the application again. -/
theorem notifications_wake_up_second_list :
    ∃ signals engine,
      (machine String String).Reaches
        [.addNotification (some "listing"), .getNextNotification,
          .getNextNotification, .addNotification (some "operation")]
        signals engine ∧
      engine.notificationList ≠ [] ∧ Outstanding signals := by
  let options : LoggingOptions := ⟨0, 0, 0⟩
  have hstart :
      (machine String String).Reaches [] [] (create options true) :=
    .start ⟨options, true, rfl⟩
  have hreach := hstart.exec
    (show (machine String String).exec (fun _ _ => True)
        (create options true)
        [.addNotification (some "listing"), .getNextNotification,
          .getNextNotification, .addNotification (some "operation")] =
      some (_, _) from rfl)
  have hwake := notifications_wake_up hreach rfl
  have hlist : [Notification.other "operation"] ≠
      ([] : List (Notification String String)) := nofun
  exact ⟨_, _, hreach, hlist, hwake.1 hlist⟩

/-! ## The order of the log messages -/

/-- The log messages that were handed out are among those that were logged,
in the same order. -/
def LogsInOrder (calls : List (EngineCall Text Other))
    (signals : List (EngineSignal Text Other)) : Prop :=
  ((handedItems signals).filterMap Notification.logmsg?).Sublist
    (calls.filterMap EngineCall.logged?)

/-- No raw command starts while log messages are held back. -/
def NothingHeldBack (engine : EngineNotifications Text Other)
    (call : EngineCall Text Other) : Prop :=
  call = .rawCommand → engine.queuedLogs = []

def pendingLogs (engine : EngineNotifications Text Other) :
    List (LogmsgNotification Text) :=
  engine.notificationList.filterMap Notification.logmsg? ++
    engine.queuedLogs

def HoldsOrder (engine : EngineNotifications Text Other)
    (calls : List (EngineCall Text Other))
    (signals : List (EngineSignal Text Other)) : Prop :=
  (engine.queueLogs = false → engine.queuedLogs = []) ∧
    ((handedItems signals).filterMap Notification.logmsg? ++
        engine.pendingLogs).Sublist
      (calls.filterMap EngineCall.logged?)

/-- After the call: what it moved into the list and what it still holds back
was held back before or is the message that it logged. -/
def MovesInOrder (engine : EngineNotifications Text Other)
    (call : EngineCall Text Other) : Prop :=
  ((engine.step call).1.queueLogs = false →
      (engine.step call).1.queuedLogs = []) ∧
    ((engine.addedBy call).filterMap Notification.logmsg? ++
        (engine.step call).1.queuedLogs).Sublist
      (engine.queuedLogs ++ call.logged?.toList)

variable {engine : EngineNotifications Text Other}

@[simp] theorem callback_queuedLogs :
    engine.callback.1.queuedLogs = engine.queuedLogs := by
  unfold callback
  split_ifs <;> rfl

@[simp] theorem callback_queueLogs :
    engine.callback.1.queueLogs = engine.queueLogs := by
  unfold callback
  split_ifs <;> rfl

@[simp] theorem addNotification_queuedLogs
    (notification : Option (Notification Text Other)) :
    (engine.addNotification notification).1.queuedLogs =
      engine.queuedLogs := by
  simp [addNotification, insert]

@[simp] theorem addNotification_queueLogs
    (notification : Option (Notification Text Other)) :
    (engine.addNotification notification).1.queueLogs =
      engine.queueLogs := by
  simp [addNotification, insert]

@[simp] theorem sendQueuedLogs_queuedLogs (resetFlag : Bool) :
    (engine.sendQueuedLogs resetFlag).1.queuedLogs = [] := by
  rw [sendQueuedLogs_eq]
  split_ifs
  · exact sent_queuedLogs resetFlag
  · exact sent_queuedLogs resetFlag

@[simp] theorem clearQueuedLogs_queuedLogs (resetFlag : Bool) :
    (engine.clearQueuedLogs resetFlag).queuedLogs = [] := by
  cases resetFlag <;> rfl

theorem addLogNotification_moves
    (hqueue : engine.queueLogs = false → engine.queuedLogs = [])
    (notification : LogmsgNotification Text) :
    engine.MovesInOrder (.addLogNotification notification) := by
  simp only [MovesInOrder, step, addedBy, filterMap_logmsg,
    EngineCall.logged?, addLogNotification, flushedBy]
  by_cases herror : notification.msgType = .error
  · simp only [if_pos herror]
    exact ⟨by simp [flushQueuedLogs], by simp [flushQueuedLogs]⟩
  · simp only [if_neg herror]
    by_cases hstatus : notification.msgType = .status
    · simp only [if_pos hstatus]
      exact ⟨by simp, by simp⟩
    · simp only [if_neg hstatus]
      by_cases hheld : (!engine.queueLogs) = true
      · have hempty : engine.queuedLogs = [] := hqueue (by simpa using hheld)
        simp only [if_pos hheld]
        exact ⟨by simp [hempty], by simp [hempty]⟩
      · simp only [if_neg hheld]
        exact ⟨fun hfalse => absurd (by simp [hfalse]) hheld, by simp⟩

theorem sendQueuedLogs_moves (resetFlag : Bool) :
    engine.MovesInOrder (.sendQueuedLogs resetFlag) := by
  simp only [MovesInOrder, step, addedBy, filterMap_logmsg]
  exact ⟨fun _ => sendQueuedLogs_queuedLogs resetFlag,
    by simp [EngineCall.logged?]⟩

/-- One call moves log messages in their order. -/
theorem step_moves
    (hqueue : engine.queueLogs = false → engine.queuedLogs = [])
    {call : EngineCall Text Other} (hallowed : engine.NothingHeldBack call) :
    engine.MovesInOrder call := by
  cases call with
  | addNotification notification =>
      have hnone :
          ((notification.map Notification.other).toList).filterMap
            (Notification.logmsg? : Notification Text Other → _) = [] := by
        cases notification <;> rfl
      simp only [MovesInOrder, step, addedBy, hnone,
        addNotification_queuedLogs, addNotification_queueLogs]
      exact ⟨hqueue, by simp⟩
  | addLogNotification notification =>
      exact addLogNotification_moves hqueue notification
  | sendQueuedLogs resetFlag => exact sendQueuedLogs_moves resetFlag
  | clearQueuedLogs resetFlag =>
      simp only [MovesInOrder, step, addedBy, clearQueuedLogs_queuedLogs]
      exact ⟨fun _ => trivial, List.nil_sublist _⟩
  | rawCommand =>
      exact ⟨fun _ => hallowed rfl, by simp [addedBy, step, rawCommand]⟩
  | setOptions options => exact ⟨hqueue, by simp [addedBy, step]⟩
  | onOptionsChanged =>
      simp only [MovesInOrder, step, onOptionsChanged, addedBy]
      by_cases hshould : engine.options.shouldQueueLogsFromOptions = true
      · simp only [if_pos hshould]
        exact ⟨nofun, by simp⟩
      · simp only [if_neg hshould]
        exact sendQueuedLogs_moves true
  | getNextNotification =>
      simp only [MovesInOrder, step, addedBy, getNextNotification]
      cases engine.notificationList with
      | nil => exact ⟨hqueue, by simp⟩
      | cons notification rest => exact ⟨hqueue, by simp⟩

theorem step_handed (call : EngineCall Text Other) :
    handedItems (engine.step call).2 ++
        (engine.step call).1.notificationList =
      engine.notificationList ++ engine.addedBy call := by
  by_cases hcall : call = .getNextNotification
  · subst hcall
    simp only [step, getNextNotification, addedBy]
    cases engine.notificationList with
    | nil => simp [handedItems]
    | cons notification rest => simp [handedItems]
  · have hinserts := @step_inserts _ _ engine _ hcall
    rw [hinserts.inserted.2, hinserts.notificationList, List.nil_append]

/-- `AddLogNotification` inserts the messages held back when it clears the
flag for an error; `RawCommand` clears the flag and leaves them. -/
theorem logs_in_order
    {calls : List (EngineCall Text Other)}
    {signals : List (EngineSignal Text Other)}
    {engine : EngineNotifications Text Other}
    (hreach :
      (machine Text Other).ReachesWithin NothingHeldBack
        calls signals engine) :
    LogsInOrder calls signals := by
  have hinv : engine.HoldsOrder calls signals := by
    refine hreach.history
      (fun calls signals engine => engine.HoldsOrder calls signals) ?_ ?_
    · rintro _ ⟨options, hasNotificationCb, rfl⟩
      exact ⟨fun _ => rfl, List.nil_sublist _⟩
    · intro calls signals before call following answer hbefore hallowed
        hstep
      have heq : before.step call = (following, answer) :=
        Option.some.inj hstep
      obtain ⟨hflag, hmoved⟩ := step_moves hbefore.1 hallowed
      have hhanded := congrArg
        (List.filterMap Notification.logmsg?) (@step_handed _ _ before call)
      rw [heq] at hflag hmoved hhanded
      simp only [List.filterMap_append] at hhanded
      refine ⟨hflag, ?_⟩
      have hcalls :
          (calls ++ [call]).filterMap EngineCall.logged? =
            calls.filterMap EngineCall.logged? ++ call.logged?.toList := by
        cases hlogged : call.logged? <;> simp [hlogged]
      calc
        (handedItems (signals ++ answer)).filterMap Notification.logmsg? ++
              following.pendingLogs =
            (handedItems signals).filterMap Notification.logmsg? ++
              (before.notificationList.filterMap Notification.logmsg? ++
                ((before.addedBy call).filterMap Notification.logmsg? ++
                  following.queuedLogs)) := by
          rw [handedItems_append, List.filterMap_append, pendingLogs,
            List.append_assoc, ← List.append_assoc _ _ following.queuedLogs,
            hhanded, List.append_assoc]
        List.Sublist _
            ((handedItems signals).filterMap Notification.logmsg? ++
              (before.notificationList.filterMap Notification.logmsg? ++
                (before.queuedLogs ++ call.logged?.toList))) :=
          (hmoved.append_left _).append_left _
        _ = ((handedItems signals).filterMap Notification.logmsg? ++
              before.pendingLogs) ++ call.logged?.toList := by
          simp [pendingLogs]
        List.Sublist _ ((calls ++ [call]).filterMap EngineCall.logged?) := by
          rw [hcalls]
          exact hbefore.2.append_right _
  exact (List.sublist_append_left _ _).trans hinv.2

/-- A reply to a keep-alive command comes out after the first message of
the raw command that follows and fails. -/
theorem logs_reordered :
    ∃ calls signals engine,
      (machine String String).Reaches calls signals engine ∧
        ¬ LogsInOrder calls signals := by
  let options : LoggingOptions := ⟨0, 0, 0⟩
  let calls : List (EngineCall String String) :=
    [.addLogNotification ⟨.reply, "200 NOOP ok"⟩, .rawCommand,
      .addLogNotification ⟨.command, "SITE HELP"⟩] ++
    EngineCall.resetOperation none false ++
    [.getNextNotification, .getNextNotification]
  have hstart :
      (machine String String).Reaches [] [] (create options true) :=
    .start ⟨options, true, rfl⟩
  have hreach := hstart.exec
    (show (machine String String).exec (fun _ _ => True)
        (create options true) calls = some (_, _) from rfl)
  let signals : List (EngineSignal String String) :=
    [.inserted (.logmsg ⟨.command, "SITE HELP"⟩), .wake,
      .inserted (.logmsg ⟨.reply, "200 NOOP ok"⟩),
      .handed (.logmsg ⟨.command, "SITE HELP"⟩),
      .handed (.logmsg ⟨.reply, "200 NOOP ok"⟩)]
  have hreordered : ¬ LogsInOrder calls signals := by
    unfold LogsInOrder
    decide
  exact ⟨calls, signals, _, hreach, hreordered⟩

/-- The reply is dropped at the end of an operation, before the raw
command. -/
theorem logs_in_order_raw_command :
    ∃ calls signals engine,
      (machine String String).ReachesWithin NothingHeldBack
        calls signals engine ∧
      .rawCommand ∈ calls ∧
      handedItems signals = [.logmsg ⟨.command, "SITE HELP"⟩] ∧
      LogsInOrder calls signals := by
  let options : LoggingOptions := ⟨0, 0, 0⟩
  have hstart :
      (machine String String).ReachesWithin NothingHeldBack [] []
        (create options true) :=
    .start ⟨options, true, rfl⟩
  have hreply :=
    hstart.next (nofun : NothingHeldBack _
      (.addLogNotification ⟨.reply, "200 NOOP ok"⟩)) rfl
  have hreset :=
    hreply.next (nofun : NothingHeldBack _ (.clearQueuedLogs true)) rfl
  have hraw := hreset.next (fun _ => rfl : NothingHeldBack _ .rawCommand) rfl
  have hcommand :=
    hraw.next (nofun : NothingHeldBack _
      (.addLogNotification ⟨.command, "SITE HELP"⟩)) rfl
  have hreach :=
    hcommand.next (nofun : NothingHeldBack _ .getNextNotification) rfl
  have hmem :
      EngineCall.rawCommand ∈
        ([.addLogNotification ⟨.reply, "200 NOOP ok"⟩,
          .clearQueuedLogs true, .rawCommand,
          .addLogNotification ⟨.command, "SITE HELP"⟩,
          .getNextNotification] : List (EngineCall String String)) := by
    simp
  exact ⟨_, _, _, hreach, hmem, rfl, logs_in_order hreach⟩

end EngineNotifications

end TabFtp
