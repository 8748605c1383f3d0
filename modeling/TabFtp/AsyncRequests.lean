import TabFtp.FtpControlSocket
import Mathlib.Tactic

/-!
# Questions to the user and their answers

An operation asks the user with `SendAsyncRequest`.  The answer is matched by
a number of the engine, by whether a command runs, and by a state of the
operation that is on top when the answer is handled.  The state does not say
which request it belongs to.
-/

namespace TabFtp

open LabelledRuns

/-- A `COpData` on the stack.  The `id` tells the operations of a run
apart. -/
structure AsyncOperation where
  id : ℕ
  asyncRequestState : AsyncRequestState

/-- An answered `CAsyncRequestNotification`: it carries `requestNumber`, and
`serial` counts the request among all requests of the run. -/
structure AsyncReply where
  requestNumber : ℕ
  serial : ℕ

/-- `controlSocket` holds the stack `operations_`, the top first.
`asyncRequestCounter` has 32 bits.  The last two fields count the operations
and the requests of the run. -/
structure AsyncEngine where
  controlSocket : Option (List AsyncOperation)
  busy : Bool
  asyncRequestCounter : ℕ
  replyEvents : List AsyncReply
  created : ℕ
  requests : ℕ

inductive AsyncAction
  | asked (serial : ℕ) (operation : ℕ)
  | setAsyncRequestReply (serial : ℕ) (operation : ℕ)

namespace AsyncEngine

abbrev Answer := AsyncEngine × List AsyncAction

def initial : AsyncEngine := ⟨none, false, 0, [], 0, 0⟩

variable (engine : AsyncEngine)

def operations : List AsyncOperation := engine.controlSocket.getD []

def getNextAsyncRequestNumber : ℕ :=
  (engine.asyncRequestCounter + 1) % 2 ^ 32

/-- `CControlSocket::SendAsyncRequest`; the notification may be null. -/
def sendAsyncRequest (present wait : Bool) : Answer :=
  match engine.operations with
  | [] => (engine, [])
  | back :: below =>
      if !present then (engine, [])
      else
        let asyncRequestState :=
          if wait then AsyncRequestState.waiting else .parallel
        ({ engine with
            asyncRequestCounter := engine.getNextAsyncRequestNumber
            requests := engine.requests + 1
            controlSocket :=
              some ({ back with asyncRequestState } :: below) },
          [.asked (engine.requests + 1) back.id])

def isPendingAsyncRequestReply (notification : Option AsyncReply) : Bool :=
  match notification with
  | none => false
  | some reply =>
      if !engine.busy then false
      else reply.requestNumber == engine.asyncRequestCounter

/-- `CFileZillaEnginePrivate::SetAsyncRequestReply`, called by the
application. -/
def setAsyncRequestReply (notification : Option AsyncReply) : AsyncEngine :=
  if engine.isPendingAsyncRequestReply notification then
    { engine with
      replyEvents := engine.replyEvents ++ notification.toList }
  else engine

def callSetAsyncRequestReply (reply : AsyncReply) : Answer :=
  match engine.operations with
  | [] => (engine, [])
  | back :: below =>
      if back.asyncRequestState = .none then (engine, [])
      else
        ({ engine with
            controlSocket :=
              some ({ back with asyncRequestState := .none } :: below) },
          [.setAsyncRequestReply reply.serial back.id])

def onSetAsyncRequestReplyEvent (reply : AsyncReply) : Answer :=
  if engine.controlSocket.isNone then (engine, [])
  else if !engine.isPendingAsyncRequestReply (some reply) then (engine, [])
  else engine.callSetAsyncRequestReply reply

end AsyncEngine

/-- What can happen, at any time: a command starts or ends, a control socket
comes or goes, an operation is pushed or ends, one asks, the user answers a
request that was made, an answer is handled. -/
inductive AsyncInput
  | execute
  | commandEnds
  | connect
  | closeSocket
  | push
  | endOperation
  | sendAsyncRequest (present wait : Bool)
  | setAsyncRequestReply (serial : Option ℕ)
  | replyEvent

def AsyncEngine.step (engine : AsyncEngine) :
    AsyncInput → Option AsyncEngine.Answer
  | .execute =>
      if engine.busy then none
      else some ({ engine with busy := true }, [])
  | .commandEnds => some ({ engine with busy := false }, [])
  | .connect =>
      if engine.controlSocket.isSome then none
      else some ({ engine with controlSocket := some [] }, [])
  | .closeSocket => some ({ engine with controlSocket := none }, [])
  | .push =>
      match engine.controlSocket with
      | none => none
      | some operations =>
          some
            ({ engine with
                created := engine.created + 1
                controlSocket :=
                  some (⟨engine.created + 1, .none⟩ :: operations) }, [])
  | .endOperation =>
      some
        ({ engine with
            controlSocket := engine.controlSocket.map List.tail }, [])
  | .sendAsyncRequest present wait =>
      some (engine.sendAsyncRequest present wait)
  | .setAsyncRequestReply none =>
      some (engine.setAsyncRequestReply none, [])
  | .setAsyncRequestReply (some serial) =>
      if 1 ≤ serial ∧ serial ≤ engine.requests then
        some (engine.setAsyncRequestReply
          (some ⟨serial % 2 ^ 32, serial⟩), [])
      else none
  | .replyEvent =>
      match engine.replyEvents with
      | [] => none
      | reply :: rest =>
          some ({ engine with replyEvents := rest }
            |>.onSetAsyncRequestReplyEvent reply)

def asyncMachine : Machine AsyncEngine AsyncInput AsyncAction where
  initial engine := engine = .initial
  step := AsyncEngine.step

/-! ## Who is answered -/

def answeredSerials : List AsyncAction → List ℕ
  | [] => []
  | .asked _ _ :: rest => answeredSerials rest
  | .setAsyncRequestReply serial _ :: rest => serial :: answeredSerials rest

/-- No request is answered twice, and when one is, the operation on top has
made it and no request has been made since. -/
def AnswersReachAsker (actions : List AsyncAction) : Prop :=
  (answeredSerials actions).Nodup ∧
    ∀ before after serial operation,
      actions = before ++ .setAsyncRequestReply serial operation :: after →
        .asked serial operation ∈ before ∧
          ∀ later other, .asked later other ∈ before → later ≤ serial

/-- A request is made only while no operation below the top waits for an
answer, and an answer is handled before the counter comes round. -/
def AsyncEngine.OneAsker (engine : AsyncEngine) : AsyncInput → Prop
  | .sendAsyncRequest _ _ =>
      ∀ operation ∈ engine.operations.tail,
        operation.asyncRequestState = .none
  | .replyEvent =>
      ∀ reply ∈ engine.replyEvents.take 1,
        engine.requests < reply.serial + 2 ^ 32
  | _ => True

instance (engine : AsyncEngine) (input : AsyncInput) :
    Decidable (engine.OneAsker input) :=
  match input with
  | .sendAsyncRequest _ _ =>
      inferInstanceAs (Decidable (∀ operation ∈ engine.operations.tail,
        operation.asyncRequestState = .none))
  | .replyEvent =>
      inferInstanceAs (Decidable (∀ reply ∈ engine.replyEvents.take 1,
        engine.requests < reply.serial + 2 ^ 32))
  | .execute | .commandEnds | .connect | .closeSocket | .push
  | .endOperation | .setAsyncRequestReply _ => isTrue trivial

@[simp] theorem answeredSerials_append (left right : List AsyncAction) :
    answeredSerials (left ++ right) =
      answeredSerials left ++ answeredSerials right := by
  induction left with
  | nil => rfl
  | cons action left ih => cases action <;> simp [answeredSerials, ih]

/-- The requests and the operations that may still be answered. -/
structure AsyncEngine.Consistent
    (engine : AsyncEngine) (actions : List AsyncAction) : Prop where
  counter : engine.asyncRequestCounter = engine.requests % 2 ^ 32
  asked : ∀ serial operation,
    .asked serial operation ∈ actions → serial ≤ engine.requests
  asker : ∀ serial first second, .asked serial first ∈ actions →
    .asked serial second ∈ actions → first = second
  answered : ∀ serial ∈ answeredSerials actions, serial ≤ engine.requests
  events : ∀ reply ∈ engine.replyEvents,
    reply.requestNumber = reply.serial % 2 ^ 32 ∧
      reply.serial ≤ engine.requests
  ids : (engine.operations.map AsyncOperation.id).Nodup
  created : ∀ operation ∈ engine.operations,
    operation.id ≤ engine.created
  waiting : ∀ operation ∈ engine.operations,
    operation.asyncRequestState ≠ .none →
      .asked engine.requests operation.id ∈ actions ∧
        engine.requests ∉ answeredSerials actions
  reach : AnswersReachAsker actions

theorem AnswersReachAsker.append_asked
    {actions : List AsyncAction} (hreach : AnswersReachAsker actions)
    (serial operation : ℕ) :
    AnswersReachAsker (actions ++ [.asked serial operation]) := by
  constructor
  · simpa [answeredSerials] using hreach.1
  · intro before after answered replier hsplit
    rcases List.eq_nil_or_concat after with rfl | ⟨rest, last, rfl⟩
    · have hlast := List.append_inj_right' hsplit rfl
      simp at hlast
    · rw [List.concat_eq_append, ← List.cons_append, ← List.append_assoc]
        at hsplit
      exact hreach.2 before rest answered replier
        (List.append_inj_left' hsplit rfl)

theorem AnswersReachAsker.append_reply
    {actions : List AsyncAction} (hreach : AnswersReachAsker actions)
    {serial operation : ℕ} (hnew : serial ∉ answeredSerials actions)
    (hasked : .asked serial operation ∈ actions)
    (hlatest : ∀ later other,
      .asked later other ∈ actions → later ≤ serial) :
    AnswersReachAsker
      (actions ++ [.setAsyncRequestReply serial operation]) := by
  constructor
  · rw [answeredSerials_append]
    exact hreach.1.append (List.nodup_singleton _)
      (by simpa [answeredSerials] using hnew)
  · intro before after answered replier hsplit
    rcases List.eq_nil_or_concat after with rfl | ⟨rest, last, rfl⟩
    · have hbefore := List.append_inj_left' hsplit rfl
      have hlast := List.append_inj_right' hsplit rfl
      simp only [List.cons.injEq, AsyncAction.setAsyncRequestReply.injEq,
        and_true] at hlast
      obtain ⟨rfl, rfl⟩ := hlast
      rw [← hbefore]
      exact ⟨hasked, hlatest⟩
    · rw [List.concat_eq_append, ← List.cons_append, ← List.append_assoc]
        at hsplit
      exact hreach.2 before rest answered replier
        (List.append_inj_left' hsplit rfl)

namespace AsyncEngine.Consistent

variable {engine : AsyncEngine} {actions : List AsyncAction}

theorem start : AsyncEngine.initial.Consistent [] where
  counter := rfl
  asked := nofun
  asker := nofun
  answered := nofun
  events := nofun
  ids := List.nodup_nil
  created := nofun
  waiting := nofun
  reach := ⟨List.nodup_nil, by simp⟩

theorem of_sublist
    (hengine : engine.Consistent actions) {following : AsyncEngine}
    (hcounter :
      following.asyncRequestCounter = engine.asyncRequestCounter)
    (hrequests : following.requests = engine.requests)
    (hcreated : following.created = engine.created)
    (hevents : ∀ reply ∈ following.replyEvents,
      reply ∈ engine.replyEvents ∨
        reply.requestNumber = reply.serial % 2 ^ 32 ∧
          reply.serial ≤ engine.requests)
    (hoperations : following.operations.Sublist engine.operations) :
    following.Consistent actions where
  counter := by rw [hcounter, hrequests, hengine.counter]
  asked := by
    rw [hrequests]
    exact hengine.asked
  asker := hengine.asker
  answered := by
    rw [hrequests]
    exact hengine.answered
  events := by
    intro reply hreply
    rw [hrequests]
    rcases hevents reply hreply with hold | hnew
    · exact hengine.events reply hold
    · exact hnew
  ids := hengine.ids.sublist (hoperations.map _)
  created := by
    intro operation hmem
    rw [hcreated]
    exact hengine.created operation (hoperations.subset hmem)
  waiting := by
    intro operation hmem hstate
    rw [hrequests]
    exact hengine.waiting operation (hoperations.subset hmem) hstate
  reach := hengine.reach

theorem push
    (hengine : engine.Consistent actions) {operations : List AsyncOperation}
    (hsocket : engine.controlSocket = some operations) :
    Consistent
      { engine with
        created := engine.created + 1
        controlSocket :=
          some (⟨engine.created + 1, .none⟩ :: operations) } actions := by
  have hold : engine.operations = operations := by
    simp [AsyncEngine.operations, hsocket]
  have hbound : ∀ operation ∈ operations,
      operation.id ≤ engine.created := by
    rw [← hold]
    exact hengine.created
  have hfresh :
      engine.created + 1 ∉ operations.map AsyncOperation.id := by
    intro hmem
    obtain ⟨operation, hmem, hid⟩ := List.mem_map.mp hmem
    have hle := hbound operation hmem
    omega
  have hids := hengine.ids
  rw [hold] at hids
  refine
    { hengine with
      ids := List.nodup_cons.mpr ⟨hfresh, hids⟩
      created := ?_
      waiting := ?_ }
  · intro operation hmem
    rcases List.mem_cons.mp hmem with rfl | hmem
    · exact le_refl _
    · exact (hbound operation hmem).trans (Nat.le_succ _)
  · intro operation hmem hstate
    rcases List.mem_cons.mp hmem with rfl | hmem
    · exact absurd rfl hstate
    · exact hengine.waiting operation (hold ▸ hmem) hstate

theorem mem_asked {serial operation : ℕ} {later other : ℕ}
    (hmem : .asked later other ∈ actions ++ [.asked serial operation]) :
    .asked later other ∈ actions ∨ later = serial ∧ other = operation := by
  simpa using hmem

theorem ask
    (hengine : engine.Consistent actions) {back : AsyncOperation}
    {below : List AsyncOperation}
    (hstack : engine.operations = back :: below)
    (hbelow : ∀ operation ∈ below, operation.asyncRequestState = .none)
    (asyncRequestState : AsyncRequestState) :
    Consistent
      { engine with
        asyncRequestCounter := engine.getNextAsyncRequestNumber
        requests := engine.requests + 1
        controlSocket := some ({ back with asyncRequestState } :: below) }
      (actions ++ [.asked (engine.requests + 1) back.id]) where
  counter := by simp [getNextAsyncRequestNumber, hengine.counter]
  asked := by
    intro serial operation hmem
    rcases mem_asked hmem with hold | ⟨rfl, _⟩
    · exact (hengine.asked serial operation hold).trans (Nat.le_succ _)
    · exact le_refl _
  asker := by
    intro serial first second hfirst hsecond
    -- the new number is above all that were given before
    have hnew : ∀ operation,
        .asked (engine.requests + 1) operation ∉ actions := by
      intro operation hmem
      have hle := hengine.asked _ _ hmem
      omega
    rcases mem_asked hfirst with hold | ⟨rfl, rfl⟩
    · rcases mem_asked hsecond with hold' | ⟨rfl, rfl⟩
      · exact hengine.asker serial first second hold hold'
      · exact absurd hold (hnew _)
    · rcases mem_asked hsecond with hold | ⟨_, rfl⟩
      · exact absurd hold (hnew _)
      · rfl
  answered := by
    intro serial hmem
    rw [answeredSerials_append] at hmem
    have hold : serial ∈ answeredSerials actions := by
      simpa [answeredSerials] using hmem
    exact (hengine.answered serial hold).trans (Nat.le_succ _)
  events := by
    intro reply hmem
    obtain ⟨hnumber, hserial⟩ := hengine.events reply hmem
    exact ⟨hnumber, hserial.trans (Nat.le_succ _)⟩
  ids := by
    have hids := hengine.ids
    rw [hstack] at hids
    exact hids
  created := by
    have hcreated := hengine.created
    rw [hstack] at hcreated
    intro operation hmem
    rcases List.mem_cons.mp hmem with rfl | hmem
    · exact hcreated back List.mem_cons_self
    · exact hcreated operation (List.mem_cons_of_mem _ hmem)
  waiting := by
    intro operation hmem hstate
    rcases List.mem_cons.mp hmem with rfl | hmem
    · have hunanswered :
          engine.requests + 1 ∉ answeredSerials actions := by
        intro hanswered
        have hle := hengine.answered _ hanswered
        omega
      simp [answeredSerials, hunanswered]
    · exact absurd (hbelow operation hmem) hstate
  reach := hengine.reach.append_asked _ _

theorem sendAsyncRequest
    (hengine : engine.Consistent actions) (present wait : Bool)
    (hbelow : ∀ operation ∈ engine.operations.tail,
      operation.asyncRequestState = .none) :
    (engine.sendAsyncRequest present wait).1.Consistent
      (actions ++ (engine.sendAsyncRequest present wait).2) := by
  unfold AsyncEngine.sendAsyncRequest
  cases hstack : engine.operations with
  | nil =>
      rw [List.append_nil]
      exact hengine
  | cons back below =>
      cases present with
      | false =>
          simp only [Bool.not_false, if_true, List.append_nil]
          exact hengine
      | true =>
          rw [hstack] at hbelow
          exact hengine.ask hstack hbelow _

/-- The answer to the last request.  The operation on top is the only one
that waits, since another that waits would have made the same request. -/
theorem reply
    (hengine : engine.Consistent actions) {back : AsyncOperation}
    {below : List AsyncOperation}
    (hstack : engine.operations = back :: below)
    (hstate : back.asyncRequestState ≠ .none) :
    Consistent
      { engine with
        controlSocket :=
          some ({ back with asyncRequestState := .none } :: below) }
      (actions ++ [.setAsyncRequestReply engine.requests back.id]) := by
  have hmem : ∀ {operation}, operation ∈ back :: below →
      operation ∈ engine.operations := by
    intro operation
    rw [hstack]
    exact id
  obtain ⟨hasked, hunanswered⟩ :=
    hengine.waiting back (hmem List.mem_cons_self) hstate
  have hids := hengine.ids
  rw [hstack] at hids
  have hasks {serial operation : ℕ}
      (hin : .asked serial operation ∈
        actions ++ [.setAsyncRequestReply engine.requests back.id]) :
      .asked serial operation ∈ actions := by
    simpa using hin
  constructor
  · exact hengine.counter
  · intro serial operation hin
    exact hengine.asked serial operation (hasks hin)
  · intro serial first second hfirst hsecond
    exact hengine.asker serial first second (hasks hfirst) (hasks hsecond)
  · intro serial hin
    rw [answeredSerials_append] at hin
    rcases List.mem_append.mp hin with hold | hnew
    · exact hengine.answered serial hold
    · exact (List.mem_singleton.mp hnew).le
  · exact hengine.events
  · exact hids
  · intro operation hin
    rcases List.mem_cons.mp hin with rfl | hin
    · exact hengine.created back (hmem List.mem_cons_self)
    · exact hengine.created operation (hmem (List.mem_cons_of_mem _ hin))
  · intro operation hin hwaits
    rcases List.mem_cons.mp hin with rfl | hin
    · exact absurd rfl hwaits
    · have hother :=
        (hengine.waiting operation (hmem (List.mem_cons_of_mem _ hin))
          hwaits).1
      have hsame := hengine.asker _ _ _ hother hasked
      have hdiffer : back.id ∉ below.map AsyncOperation.id :=
        (List.nodup_cons.mp hids).1
      exact absurd (List.mem_map.mpr ⟨operation, hin, hsame⟩) hdiffer
  · exact hengine.reach.append_reply hunanswered hasked hengine.asked

theorem onSetAsyncRequestReplyEvent
    (hengine : engine.Consistent actions) {reply : AsyncReply}
    (hnumber : reply.requestNumber = reply.serial % 2 ^ 32)
    (hserial : reply.serial ≤ engine.requests)
    (hrecent : engine.requests < reply.serial + 2 ^ 32) :
    (engine.onSetAsyncRequestReplyEvent reply).1.Consistent
      (actions ++ (engine.onSetAsyncRequestReplyEvent reply).2) := by
  unfold AsyncEngine.onSetAsyncRequestReplyEvent
  by_cases hsocket : engine.controlSocket.isNone = true
  · rw [if_pos hsocket, List.append_nil]
    exact hengine
  · rw [if_neg hsocket]
    by_cases hpending :
        (!engine.isPendingAsyncRequestReply (some reply)) = true
    · rw [if_pos hpending, List.append_nil]
      exact hengine
    · rw [if_neg hpending]
      have hcounter : reply.requestNumber = engine.asyncRequestCounter := by
        simp only [isPendingAsyncRequestReply] at hpending
        by_cases hbusy : engine.busy = true
        · simpa [hbusy] using hpending
        · simp [hbusy] at hpending
      have hlatest : reply.serial = engine.requests := by
        have hmod : reply.serial % 2 ^ 32 = engine.requests % 2 ^ 32 := by
          rw [← hnumber, hcounter, hengine.counter]
        omega
      unfold AsyncEngine.callSetAsyncRequestReply
      cases hstack : engine.operations with
      | nil =>
          rw [List.append_nil]
          exact hengine
      | cons back below =>
          by_cases hstate : back.asyncRequestState = .none
          · simp only [if_pos hstate, List.append_nil]
            exact hengine
          · simp only [if_neg hstate, hlatest]
            exact hengine.reply hstack hstate

theorem setAsyncRequestReply
    (hengine : engine.Consistent actions) {notification : Option AsyncReply}
    (hreply : ∀ reply ∈ notification,
      reply.requestNumber = reply.serial % 2 ^ 32 ∧
        reply.serial ≤ engine.requests) :
    (engine.setAsyncRequestReply notification).Consistent actions := by
  unfold AsyncEngine.setAsyncRequestReply
  by_cases hpending : engine.isPendingAsyncRequestReply notification = true
  · rw [if_pos hpending]
    have hevents : ∀ reply ∈ engine.replyEvents ++ notification.toList,
        reply ∈ engine.replyEvents ∨
          reply.requestNumber = reply.serial % 2 ^ 32 ∧
            reply.serial ≤ engine.requests := by
      intro reply hmem
      rcases List.mem_append.mp hmem with hold | hnew
      · exact Or.inl hold
      · exact Or.inr (hreply reply (by simpa using hnew))
    exact hengine.of_sublist rfl rfl rfl hevents (.refl _)
  · rw [if_neg hpending]
    exact hengine

/-- One step with one asker keeps the requests consistent. -/
theorem step
    (hengine : engine.Consistent actions) {input : AsyncInput}
    (hallowed : engine.OneAsker input) {following : AsyncEngine}
    {answer : List AsyncAction}
    (hstep : engine.step input = some (following, answer)) :
    following.Consistent (actions ++ answer) := by
  cases input with
  | execute =>
      simp only [AsyncEngine.step] at hstep
      split_ifs at hstep
      cases hstep
      rw [List.append_nil]
      exact hengine.of_sublist rfl rfl rfl (fun _ => Or.inl) (.refl _)
  | commandEnds =>
      cases hstep
      rw [List.append_nil]
      exact hengine.of_sublist rfl rfl rfl (fun _ => Or.inl) (.refl _)
  | connect =>
      simp only [AsyncEngine.step] at hstep
      split_ifs at hstep
      cases hstep
      rw [List.append_nil]
      exact hengine.of_sublist rfl rfl rfl (fun _ => Or.inl)
        (List.nil_sublist _)
  | closeSocket =>
      cases hstep
      rw [List.append_nil]
      exact hengine.of_sublist rfl rfl rfl (fun _ => Or.inl)
        (List.nil_sublist _)
  | push =>
      simp only [AsyncEngine.step] at hstep
      cases hsocket : engine.controlSocket with
      | none => simp [hsocket] at hstep
      | some operations =>
          rw [hsocket] at hstep
          cases hstep
          rw [List.append_nil]
          exact hengine.push hsocket
  | endOperation =>
      cases hstep
      rw [List.append_nil]
      have hpopped :
          ((engine.controlSocket.map List.tail).getD []).Sublist
            engine.operations := by
        unfold operations
        cases engine.controlSocket with
        | none => exact .refl _
        | some operations => exact List.tail_sublist operations
      exact hengine.of_sublist rfl rfl rfl (fun _ => Or.inl) hpopped
  | sendAsyncRequest present wait =>
      have heq := Option.some.inj hstep
      have hnext := hengine.sendAsyncRequest present wait hallowed
      rw [heq] at hnext
      exact hnext
  | setAsyncRequestReply serial =>
      cases serial with
      | none =>
          cases hstep
          rw [List.append_nil]
          exact hengine.setAsyncRequestReply nofun
      | some serial =>
          simp only [AsyncEngine.step] at hstep
          split_ifs at hstep with hserial
          cases hstep
          rw [List.append_nil]
          apply hengine.setAsyncRequestReply
          rintro reply ⟨⟩
          exact ⟨rfl, hserial.2⟩
  | replyEvent =>
      simp only [AsyncEngine.step] at hstep
      cases hevents : engine.replyEvents with
      | nil => simp [hevents] at hstep
      | cons reply rest =>
          have hreply := hengine.events reply (by simp [hevents])
          have hrecent := hallowed reply (by simp [hevents])
          rw [hevents] at hstep
          have heq := Option.some.inj hstep
          have hkept : ∀ other ∈ rest, other ∈ engine.replyEvents ∨
              other.requestNumber = other.serial % 2 ^ 32 ∧
                other.serial ≤ engine.requests := by
            intro other hmem
            rw [hevents]
            exact Or.inl (List.mem_cons_of_mem _ hmem)
          have hrest :
              Consistent { engine with replyEvents := rest } actions :=
            hengine.of_sublist rfl rfl rfl hkept (.refl _)
          have hnext := hrest.onSetAsyncRequestReplyEvent
            hreply.1 hreply.2 hrecent
          rw [heq] at hnext
          exact hnext

end AsyncEngine.Consistent

/-- In a run in which no request is made above an operation that waits, an
answer reaches nobody but the operation that asked. -/
theorem answers_reach_asker
    {inputs : List AsyncInput} {actions : List AsyncAction}
    {engine : AsyncEngine}
    (hreach :
      asyncMachine.ReachesWithin AsyncEngine.OneAsker
        inputs actions engine) :
    AnswersReachAsker actions := by
  have hengine : engine.Consistent actions := by
    apply hreach.invariant fun actions engine => engine.Consistent actions
    · rintro _ rfl
      exact .start
    · intro actions before input following answer hbefore hallowed hstep
      exact hbefore.step hallowed hstep
  exact hengine.reach

/-- The user is asked about a file and answers twice. -/
theorem answers_reach_asker_twice :
    ∃ inputs actions engine,
      asyncMachine.ReachesWithin AsyncEngine.OneAsker
        inputs actions engine ∧
      actions = [.asked 1 1, .setAsyncRequestReply 1 1] ∧
      AnswersReachAsker actions := by
  have hstart :
      asyncMachine.ReachesWithin AsyncEngine.OneAsker [] [] .initial :=
    .start rfl
  have hreach := hstart.exec
    (show asyncMachine.exec AsyncEngine.OneAsker .initial
        [.connect, .execute, .push, .sendAsyncRequest true true,
          .setAsyncRequestReply (some 1), .setAsyncRequestReply (some 1),
          .replyEvent, .replyEvent] =
      some (_, [.asked 1 1, .setAsyncRequestReply 1 1]) from rfl)
  exact ⟨_, _, _, hreach, rfl, answers_reach_asker hreach⟩

/-- A directory change that waits for an answer has to create the directory,
and the creation asks as well and ends.  The answer to the second question
is given to the directory change. -/
theorem answer_reaches_other :
    ∃ inputs actions engine,
      asyncMachine.Reaches inputs actions engine ∧
        ¬ AnswersReachAsker actions := by
  let inputs : List AsyncInput :=
    [.connect, .execute, .push, .sendAsyncRequest true true, .push,
      .sendAsyncRequest true true, .endOperation,
      .setAsyncRequestReply (some 2), .replyEvent]
  let actions : List AsyncAction :=
    [.asked 1 1, .asked 2 2, .setAsyncRequestReply 2 1]
  have hstart : asyncMachine.Reaches [] [] .initial := .start rfl
  have hreach := hstart.exec
    (show asyncMachine.exec (fun _ _ => True) .initial inputs =
      some (_, actions) from rfl)
  refine ⟨inputs, actions, _, hreach, ?_⟩
  intro hall
  have hasked := (hall.2 [.asked 1 1, .asked 2 2] [] 2 1 rfl).1
  simp at hasked

end TabFtp
