import TabFtp.LabelledRuns
import TabFtp.ReplyCodes

/-!
# The queue of commands of the interface

The interface hands its commands to the engine one after another.  A command
is executed while it is at the front of the queue, and it stays there until
the operation has ended.  The engine is idle as soon as an operation has
ended, but the notification of it is delivered later.  A notification has a
reply code and the identifier of a command, and nothing that tells which call
it belongs to.

The calls of `Execute` are counted here, and an entry of the queue remembers
its last call, so that the replies can be compared with the calls.  What the
handlers of the interface do is a parameter of each operation: they may add
commands.  The notification of handlers at the end of an operation is none of
its effects, a handler that adds a command then is a further step.
-/

namespace TabFtp

namespace CommandQueue

/-- `command_origin` -/
inductive Origin
  | normal | recursiveOperation
  deriving DecidableEq

/-- The handlers that can lock the engine. -/
abbrev Handler := ℕ

structure CommandInfo where
  origin : Origin
  command : Command
  didReconnect : Bool
  /-- The last call of `Execute` with this command. -/
  execution : Option ℕ

structure NewCommand where
  origin : Origin
  command : Command

structure Operation where
  execution : ℕ
  command : Command

structure OperationNotification where
  execution : ℕ
  replyCode : Reply
  commandId : Command

inductive Cause
  | reply (execution : ℕ)
  | failedConnect
  | cancel

structure Removal where
  entry : CommandInfo
  cause : Cause

/-- What the interface does while a reply is processed. -/
structure Environment where
  /-- Whether `m_state` has a site. -/
  site : Bool
  linkIsNotDir : List NewCommand
  recursiveListingFailed : List NewCommand
  listingFailed : List NewCommand
  stopRecursiveOperation : List NewCommand

/-- What a call of `Execute` returns. -/
structure Answer where
  reply : Reply
  environment : Environment

end CommandQueue

open CommandQueue

/-- `CCommandQueue` and its engine.  `m_inside_commandqueue` is zero between
the operations; within them `ProcessNextCommand` returns at once. -/
structure CommandQueue where
  commandList : List CommandInfo
  exclusiveLock : Bool
  exclusiveRequests : List Handler
  quit : Bool
  /-- The operation that the engine is busy with. -/
  running : Option Operation
  /-- The notifications that have not been delivered. -/
  notifications : List OperationNotification
  nextExecution : ℕ

namespace CommandQueue

variable (queue : CommandQueue)

def isBusy : Bool := queue.running.isSome

/-- `m_CommandList.emplace_back` of `ProcessCommand` -/
def enqueue (command : NewCommand) : CommandQueue :=
  if queue.quit then queue
  else
    { queue with
      commandList := queue.commandList ++
        [⟨command.origin, command.command, false, none⟩] }

def enqueueAll (commands : List NewCommand) : CommandQueue :=
  commands.foldl enqueue queue

def popFront : CommandQueue :=
  { queue with commandList := queue.commandList.tail }

def pushFront (command : Command) : CommandQueue :=
  { queue with
    commandList := ⟨.normal, command, false, none⟩ :: queue.commandList }

/-! ## Processing replies -/

/-- The rest of `ProcessReply`, when the front of the list is not to be
executed again after a reconnect. -/
def finishFront (front : CommandInfo) (execution : ℕ) (replyCode : Reply)
    (environment : Environment) : CommandQueue × List Removal :=
  if front.command = .list ∧ replyCode ≠ Reply.ok then
    let queue :=
      if Reply.has replyCode Reply.linknotdir then
        queue.enqueueAll environment.linkIsNotDir
      else if front.origin = .recursiveOperation then
        queue.enqueueAll environment.recursiveListingFailed
      else queue.enqueueAll environment.listingFailed
    (queue.popFront, [⟨front, .reply execution⟩])
  else if replyCode = Reply.alreadyconnected ∧ front.command = .connect then
    (queue.pushFront .disconnect, [])
  else if front.command = .connect ∧ replyCode ≠ Reply.ok then
    -- The commands that wait for this connection are removed as well.
    let (pending, kept) :=
      queue.commandList.tail.span fun entry => !decide (entry.command = .connect)
    ({ queue with commandList := kept }.enqueueAll
        environment.stopRecursiveOperation,
      ⟨front, .reply execution⟩ ::
        pending.map fun entry => ⟨entry, .failedConnect⟩)
  else (queue.popFront, [⟨front, .reply execution⟩])

/-- `ProcessReply` but for the call of `ProcessNextCommand` at its end, which
is left out if the last result is false. -/
def processReply (execution : ℕ) (replyCode : Reply) (commandId : Command)
    (environment : Environment) : CommandQueue × List Removal × Bool :=
  if replyCode = Reply.wouldblock then (queue, [], false)
  else
    match queue.commandList with
    | [] => (queue, [], false)
    | front :: rest =>
        if commandId ≠ .connect ∧ commandId ≠ .disconnect ∧
            Reply.has replyCode Reply.canceled = false ∧
            Reply.has replyCode Reply.disconnected = true ∧
            front.didReconnect = false then
          -- Try automatic reconnect.
          let front := { front with didReconnect := true }
          let queue := { queue with commandList := front :: rest }
          if environment.site then (queue.pushFront .connect, [], true)
          else
            let (queue, removals) :=
              queue.finishFront front execution replyCode environment
            (queue, removals, true)
        else
          let (queue, removals) :=
            queue.finishFront front execution replyCode environment
          (queue, removals, true)

/-! ## Executing commands -/

/-- `m_pEngine->Execute` of the command at the front. -/
def execute (front : CommandInfo) (rest : List CommandInfo) (reply : Reply) :
    CommandQueue :=
  { queue with
    commandList := { front with execution := some queue.nextExecution } :: rest
    running :=
      if reply = Reply.wouldblock then
        some ⟨queue.nextExecution, front.command⟩
      else queue.running
    nextExecution := queue.nextExecution + 1 }

/-- The loop of `ProcessNextCommand`.  There are as many answers as calls. -/
def executeCommands : List Answer → CommandQueue →
    Option (CommandQueue × List Removal)
  | answers, queue =>
      match queue.commandList, answers with
      | [], [] => some (queue, [])
      | [], _ :: _ => none
      | _ :: _, [] => none
      | front :: rest, answer :: later =>
          let executed := queue.execute front rest answer.reply
          let (queue, removals, _) := executed.processReply queue.nextExecution
            answer.reply front.command answer.environment
          if answer.reply = Reply.wouldblock then
            if later = [] then some (queue, removals) else none
          else
            match executeCommands later queue with
            | none => none
            | some (final, more) => some (final, removals ++ more)

/-- `GrantExclusiveEngineRequest`.  The handler is called later. -/
def grantExclusiveEngineRequest : CommandQueue :=
  if queue.exclusiveLock ∨ queue.exclusiveRequests = [] then queue
  else { queue with exclusiveLock := true }

/-- `ProcessNextCommand`.  `nextOperation` are the commands of the recursive
operation. -/
def processNextCommand (nextOperation : List NewCommand)
    (answers : List Answer) : Option (CommandQueue × List Removal) :=
  if queue.exclusiveLock ∨ queue.isBusy then
    if answers = [] then some (queue, []) else none
  else
    let queue :=
      if queue.commandList = [] then queue.enqueueAll nextOperation else queue
    match executeCommands answers queue with
    | none => none
    | some (queue, removals) =>
        if queue.commandList = [] then
          some (queue.grantExclusiveEngineRequest, removals)
        else some (queue, removals)

def processCommand (command : NewCommand) (answers : List Answer) :
    Option (CommandQueue × List Removal) :=
  let enqueued := queue.enqueue command
  if enqueued.commandList.length = 1 ∧ queue.quit = false then
    enqueued.processNextCommand [] answers
  else if answers = [] then some (enqueued, [])
  else none

/-! ## Cancelling, and replies of the engine -/

/-- `Cancel`.  An engine that is busy will notify of the end of its
operation. -/
def cancel : CommandQueue × List Removal :=
  if queue.exclusiveLock then (queue, [])
  else
    match queue.commandList with
    | [] => (queue, [])
    | front :: rest =>
        let removed := rest.map fun entry => ⟨entry, .cancel⟩
        if queue.isBusy then ({ queue with commandList := [front] }, removed)
        else ({ queue with commandList := [] }, ⟨front, .cancel⟩ :: removed)

/-- `Quit` -/
def quitQueue : CommandQueue × List Removal :=
  { queue with quit := true }.cancel

/-- `ResetOperation`: the operation of the engine ends.  An operation that
would block has not ended. -/
def resetOperation (replyCode : Reply) : Option CommandQueue :=
  match queue.running with
  | none => none
  | some operation =>
      if replyCode = Reply.wouldblock then none
      else
        some
          { queue with
            running := none
            notifications := queue.notifications ++
              [⟨operation.execution, replyCode, operation.command⟩] }

/-- `Finish` with the first notification.  The handler that has the engine
gets it instead. -/
def finish (environment : Environment) (nextOperation : List NewCommand)
    (answers : List Answer) : Option (CommandQueue × List Removal) :=
  match queue.notifications with
  | [] => none
  | notification :: later =>
      let queue := { queue with notifications := later }
      if queue.exclusiveLock then
        if answers = [] then some (queue, []) else none
      else
        match queue.processReply notification.execution notification.replyCode
          notification.commandId environment with
        | (queue, removals, false) =>
            if answers = [] then some (queue, removals) else none
        | (queue, removals, true) =>
            match queue.processNextCommand nextOperation answers with
            | none => none
            | some (final, more) => some (final, removals ++ more)

/-! ## The exclusive engine -/

def requestExclusiveEngine (handler : Handler) : CommandQueue :=
  if handler ∈ queue.exclusiveRequests then queue
  else
    let queue :=
      { queue with exclusiveRequests := queue.exclusiveRequests ++ [handler] }
    if queue.exclusiveLock = false ∧ queue.commandList = [] then
      queue.grantExclusiveEngineRequest
    else queue

/-- The handler that has the engine calls `Execute`. -/
def executeExclusive (command : Command) : Option CommandQueue :=
  if queue.exclusiveLock ∧ queue.isBusy = false then
    some
      { queue with
        running := some ⟨queue.nextExecution, command⟩
        nextExecution := queue.nextExecution + 1 }
  else none

def releaseEngine (handler : Handler) (nextOperation : List NewCommand)
    (answers : List Answer) : Option (CommandQueue × List Removal) :=
  let released :=
    { queue with exclusiveRequests := queue.exclusiveRequests.erase handler }
  if queue.exclusiveRequests.head? = some handler then
    { released with exclusiveLock := false }.processNextCommand nextOperation
      answers
  else if answers = [] then some (released, [])
  else none

/-! ## The operations -/

inductive Request
  | processCommand (command : NewCommand) (answers : List Answer)
  | processNextCommand (nextOperation : List NewCommand)
      (answers : List Answer)
  | cancel
  | quit
  | resetOperation (replyCode : Reply)
  | finish (environment : Environment) (nextOperation : List NewCommand)
      (answers : List Answer)
  | requestExclusiveEngine (handler : Handler)
  | executeExclusive (command : Command)
  | releaseEngine (handler : Handler) (nextOperation : List NewCommand)
      (answers : List Answer)

def step (queue : CommandQueue) :
    Request → Option (CommandQueue × List Removal)
  | .processCommand command answers => queue.processCommand command answers
  | .processNextCommand nextOperation answers =>
      queue.processNextCommand nextOperation answers
  | .cancel => some queue.cancel
  | .quit => some queue.quitQueue
  | .resetOperation replyCode =>
      (queue.resetOperation replyCode).map fun queue => (queue, [])
  | .finish environment nextOperation answers =>
      queue.finish environment nextOperation answers
  | .requestExclusiveEngine handler =>
      some (queue.requestExclusiveEngine handler, [])
  | .executeExclusive command =>
      (queue.executeExclusive command).map fun queue => (queue, [])
  | .releaseEngine handler nextOperation answers =>
      queue.releaseEngine handler nextOperation answers

def empty : CommandQueue where
  commandList := []
  exclusiveLock := false
  exclusiveRequests := []
  quit := false
  running := none
  notifications := []
  nextExecution := 0

def machine : LabelledRuns.Machine CommandQueue Request Removal where
  initial := fun queue => queue = empty
  step := step

end CommandQueue

end TabFtp
