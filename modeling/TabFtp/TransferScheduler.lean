import TabFtp.LabelledRuns
import TabFtp.TransferQueue

/-!
# The routines of the transfer queue

`SendNextCommand`, `ResetEngine` and `AdvanceQueue` call each other, but a
call of `AdvanceQueue` within another one returns at once.  `ResetEngine` is
therefore given the call of `AdvanceQueue` that it ends with, and
`SendNextCommand` the call of `ResetEngine`.

The loops have an amount of fuel, and a routine has no result if it is used
up.  The handlers of the interface that are notified, the status messages of
items and the files of the edit handler are left out.
-/

namespace TabFtp

namespace TransferQueue

/-! ## Choosing what to transfer -/

section Choice

variable (world : World)

def getIdleEngine (queue : TransferQueue) (site : QueueSite)
    (allowTransient : Bool) : Option ℕ × TransferQueue :=
  let idle := queue.engineData.filter fun data =>
    !data.active && (allowTransient || !data.transient)
  let transient := queue.engineData.countP fun data =>
    !data.active && data.transient
  let connected := idle.find? fun data =>
    world.isConnected data.engine && data.lastSiteIs site
  match connected with
  | some data => (some data.address, queue)
  | none =>
      match idle.head? with
      | some data => (some data.address, queue)
      | none =>
          -- Check whether we can create another engine.
          if queue.engineData.length - transient < world.numTransfers then
            (some queue.nextAddress, queue.createEngine)
          else (none, queue)

def browsingStateOnSameServer (site : QueueSite) : Option BrowsingState :=
  world.states.find? fun state =>
    match state.site with
    | none => false
    | some browsingSite => browsingSite.server.same site.server

def isConnectedTo (queue : TransferQueue) (site : QueueSite)
    (address : Option ℕ) : Bool :=
  match address.bind queue.find with
  | none => false
  | some data => data.lastSiteIs site && world.isConnected data.engine

def canStartTransfer (queue : TransferQueue) (key : ServerId) :
    Bool × Option ℕ × TransferQueue :=
  let site := queue.site key
  if site.connectionLimit = 0 then (true, none, queue)
  else
    let browsing := browsingStateOnSameServer world site
    let activeCount :=
      queue.serverActiveCount key + if browsing.isSome then 1 else 0
    if activeCount < site.connectionLimit then (true, none, queue)
    else
      let (idle, queue) := queue.getIdleEngine world site true
      if isConnectedTo world queue site idle then (true, idle, queue)
      else
        match browsing with
        | none => (false, idle, queue)
        | some state =>
            if 1 < activeCount then (false, idle, queue)
            else
              match queue.getEngineData (.browsing state.context) with
              | some data =>
                  (data.transient && !data.active, some data.address, queue)
              | none =>
                  (true, some queue.nextAddress,
                    queue.createTransient state.context)

def getIdleChild (queue : TransferQueue) (key : ServerId)
    (direction : TransferDirection) : Option ItemId :=
  match queue.view.server key with
  | none => none
  | some server =>
      ItemQueue.getIdleChild ⟨server, queue.view.items⟩
        (decide (queue.activeMode = 1)) direction

inductive IdleFile
  | serverDeleted
  | found (id : Option ItemId)

/-- The next file of a server item.  Folders to be downloaded are created and
removed on the way. -/
def idleFile (key : ServerId) (direction : TransferDirection) :
    ℕ → TransferQueue → Option (IdleFile × TransferQueue)
  | 0, _ => none
  | fuel + 1, queue =>
      match queue.getIdleChild key direction with
      | none => some (.found none, queue)
      | some id =>
          match queue.item id with
          | none => none
          | some item =>
              if item.download ∧ item.type = .folder then
                match queue.removeItem id true true with
                | (queue, true) => some (.serverDeleted, queue)
                | (queue, false) => idleFile key direction fuel queue
              else some (.found (some id), queue)

structure BestMatch where
  fileItem : ItemId
  serverItem : ServerId
  priority : QueuePriority
  engineData : Option ℕ

inductive Search
  | startOver
  | best (found : Option BestMatch)

def improves (priority : QueuePriority) (best : Option BestMatch) : Bool :=
  match best with
  | none => true
  | some best => decide (best.priority.number < priority.number)

def searchServers (direction : TransferDirection) (fuel : ℕ) :
    List ServerId → Option BestMatch → TransferQueue →
    Option (Search × TransferQueue)
  | [], best, queue => some (.best best, queue)
  | key :: rest, best, queue =>
      match queue.canStartTransfer world key with
      | (false, _, queue) => searchServers direction fuel rest best queue
      | (true, engineData, queue) =>
          match idleFile key direction fuel queue with
          | none => none
          | some (.serverDeleted, queue) => some (.startOver, queue)
          | some (.found none, queue) =>
              searchServers direction fuel rest best queue
          | some (.found (some id), queue) =>
              match queue.item id with
              | none => none
              | some item =>
                  if improves item.priority best then
                    let best := some ⟨id, key, item.priority, engineData⟩
                    if item.priority = .highest then some (.best best, queue)
                    else searchServers direction fuel rest best queue
                  else searchServers direction fuel rest best queue

def wantedDirection (queue : TransferQueue) : Option TransferDirection :=
  let downloadsFull := world.concurrentDownloadLimit ≠ 0 ∧
    world.concurrentDownloadLimit ≤ queue.activeCountDown
  let uploadsFull := world.concurrentUploadLimit ≠ 0 ∧
    world.concurrentUploadLimit ≤ queue.activeCountUp
  if downloadsFull then
    if uploadsFull then none else some .upload
  else if uploadsFull then some .download
  else some .both

def engineFor (queue : TransferQueue) (best : BestMatch) :
    Option ℕ × TransferQueue :=
  match best.engineData with
  | some address => (some address, queue)
  | none =>
      queue.getIdleEngine world (queue.site best.serverItem) false

end Choice

variable (environment : Environment)

/-- `TryStartNextTransfer`, with the call of `SendNextCommand` at its end. -/
def tryStartNextTransfer (send : ℕ → TransferQueue → Option TransferQueue)
    (fuel : ℕ) (queue : TransferQueue) : Option (Bool × TransferQueue) :=
  let world := queue.world environment
  if queue.activeMode = 0 ∨ (world.numTransfers : ℤ) ≤ queue.activeCount then
    some (false, queue)
  else
    match wantedDirection world queue with
    | none => some (false, queue)
    | some direction =>
        match searchServers world direction fuel
          (queue.view.serverList.map Prod.fst) none queue with
        | none => none
        | some (.startOver, queue) =>
            some (!queue.view.serverList.isEmpty, queue)
        | some (.best none, queue) => some (false, queue)
        | some (.best (some best), queue) =>
            match engineFor world queue best with
            | (none, queue) => some (false, queue)
            | (some address, queue) =>
                match queue.find address, queue.item best.fileItem with
                | some data, some item =>
                    (send address (queue.assign world data best.serverItem
                      best.fileItem item)).map fun queue => (true, queue)
                | _, _ => none

/-! ## The engines -/

/-- `ResetEngine`.  After a success another file may be queued for
immediate transfer, which advances the queue before the record is free. -/
def resetEngine (advance : TransferQueue → Option TransferQueue)
    (address : ℕ) (reason : ResetReason) (queue : TransferQueue) :
    Option TransferQueue :=
  match queue.find address with
  | none => none
  | some data =>
      if data.active = false then some queue
      else
        match data.item with
        | none => advance (queue.freeEngine data)
        | some id =>
            let left := queue.leaveServer id
            let executed :=
              match reason, left.postTransferAction id with
              | .success, some file =>
                  let queued := left.queueFile file none
                  -- `QueueFile_Finish(true)`
                  advance
                    { queued with
                      activeMode :=
                        if queued.activeMode = 0 then 1
                        else queued.activeMode }
              | _, _ => some left
            executed.bind fun queue =>
              let queue := (queue.deactivate id).settle
                (queue.world environment) id reason
              advance (queue.freeEngine data)

section Commands

variable (reset : ℕ → ResetReason → TransferQueue → Option TransferQueue)

/-- `IncreaseErrorCount`, and what is done if it returns true. -/
def increaseErrorCount (address : ℕ) (id : ItemId)
    (retry : TransferQueue → Option TransferQueue) (queue : TransferQueue) :
    Option TransferQueue :=
  let queue := queue.modifyItem id fun item =>
    { item with errorCount := item.errorCount + 1 }
  match queue.item id with
  | none => none
  | some item =>
      if item.errorCount.toNat ≤ (queue.world environment).reconnectCount then
        retry queue
      else reset address .failure queue

def transferState (item : FileItem) : EngineState :=
  match item.type with
  | .file => .transfer
  | .folder => .mkdir

def sendNextCommand : ℕ → ℕ → TransferQueue → Option TransferQueue
  | 0, _, _ => none
  | fuel + 1, address, queue =>
      match queue.find address with
      | none => none
      | some data =>
          match data.item, data.item.bind queue.item with
          | some id, some item =>
              let reply := (queue.world environment).reply
              let again := fun queue => sendNextCommand fuel address queue
              match data.state with
              | .waitprimary =>
                  let states := (queue.world environment).states
                  if states.any fun state =>
                      decide (data.engine = .browsing state.context) then
                    some (queue.emit (.requestExclusiveEngine data.engine))
                  else reset address .retry queue
              | .disconnect =>
                  let executed := queue.execute data .disconnect
                  if reply = Reply.wouldblock then some executed
                  else if (executed.world environment).hasPassword
                      data.lastSite then
                    again (executed.setState address .connect)
                  else again (executed.setState address .askpassword)
              | .askpassword =>
                  some
                    { queue with
                      waitingForPassword :=
                        queue.waitingForPassword ++ [data.engine] }
              | .connect =>
                  let executed := queue.execute data .connect
                  if reply = Reply.wouldblock then some executed
                  else if reply = Reply.alreadyconnected then
                    again (executed.setState address .disconnect)
                  else if reply = Reply.ok then
                    -- The `break` leaves the loop.
                    some (executed.setState address (transferState item))
                  else
                    increaseErrorCount environment reset address id again
                      executed
              | .transfer =>
                  let executed := queue.execute data .transfer
                  if reply = Reply.wouldblock then some executed
                  else if reply = Reply.ok then
                    reset address .success executed
                  else
                    increaseErrorCount environment reset address id again
                      executed
              | .mkdir =>
                  let executed := queue.execute data .mkdir
                  if reply = Reply.wouldblock then some executed
                  else if reply = Reply.ok then
                    reset address .success executed
                  else if Reply.has reply Reply.disconnected then
                    increaseErrorCount environment reset address id again
                      executed
                  else reset address .failure executed
              -- The loop does not end.
              | .none | .cancel | .list => none
          | _, _ => none

end Commands

/-- The loop of `AdvanceQueue`. -/
def startTransfers : ℕ → TransferQueue → Option TransferQueue
  | 0, _ => none
  | fuel + 1, queue =>
      let reset := resetEngine environment some
      match tryStartNextTransfer environment
        (sendNextCommand environment reset fuel) fuel queue with
      | none => none
      | some (false, queue) => some queue
      | some (true, queue) => startTransfers fuel queue

def isListing (queue : TransferQueue) (site : QueueSite) : Bool :=
  queue.engineData.any fun data =>
    data.active && decide (data.state = .list) && data.lastSiteIs site

def refreshedLast (queue : TransferQueue) (site : QueueSite)
    (listing : Listing) : Bool :=
  match queue.lastRefresh with
  | none => false
  | some (server, last) => server.same site.server && decide (last = listing)

def tryRefreshListings : List BrowsingState → TransferQueue → TransferQueue
  | [], queue => queue
  | state :: rest, queue =>
      match state.site, state.remoteDir with
      | some site, some listing =>
          if queue.isListing site ∨ queue.refreshedLast site listing then
            tryRefreshListings rest queue
          else
            let world := queue.world environment
            let (idle, queue) := queue.getIdleEngine world site false
            match idle.bind queue.find with
            | none => tryRefreshListings rest queue
            | some data =>
                if isConnectedTo world queue site idle = false then
                  tryRefreshListings rest queue
                else
                  let queue :=
                    { queue with lastRefresh := some (site.server, listing) }
                  let executed := queue.execute data .list
                  if world.reply ≠ Reply.wouldblock then
                    tryRefreshListings rest executed
                  else
                    { executed with
                      activeCount := executed.activeCount + 1 }.modify
                      data.address fun data =>
                        { data with active := true, state := .list }
      | _, _ => tryRefreshListings rest queue

def checkQueueState (queue : TransferQueue) : TransferQueue :=
  let queue := queue.eraseTransient
  if queue.activeCount ≠ 0 ∨ queue.activeMode = 0 then queue
  else
    tryRefreshListings environment (queue.world environment).states
      { queue with activeMode := 0 }

/-- `AdvanceQueue`, when it is not called within itself. -/
def advanceQueue (fuel : ℕ) (queue : TransferQueue) : Option TransferQueue :=
  (startTransfers environment fuel queue).map (checkQueueState environment)

/-! ## Events -/

section Events

variable (fuel : ℕ)

def resetOutside : ℕ → ResetReason → TransferQueue → Option TransferQueue :=
  resetEngine environment (advanceQueue environment fuel)

def sendOutside : ℕ → TransferQueue → Option TransferQueue :=
  sendNextCommand environment (resetOutside environment fuel) fuel

/-- The loop over the engines in `SetActive(false)`. -/
def stopEngines : ℕ → ℕ → TransferQueue → Option TransferQueue
  | 0, _, _ => none
  | more + 1, engineIndex, queue =>
      match queue.engineData[engineIndex]? with
      | none => some queue
      | some data =>
          if data.active = false then
            stopEngines more (engineIndex + 1) queue
          else if data.state = .waitprimary then
            (resetOutside environment fuel data.address .reset queue).bind
              (stopEngines more (engineIndex + 1))
          else
            stopEngines more (engineIndex + 1)
              (queue.emit (.cancel data.engine))

def queueImmediateFiles (queue : TransferQueue) : TransferQueue :=
  (queue.view.serverList.map Prod.fst).foldl (fun queue key =>
    queue.onServer key ItemQueue.queueImmediateFiles) queue

def setActive (active : Bool) (queue : TransferQueue) :
    Option TransferQueue :=
  if active then
    if queue.view.serverList.isEmpty then some queue
    else advanceQueue environment fuel { queue with activeMode := 2 }
  else
    stopEngines environment fuel fuel 0
      { queue with activeMode := 0 }.queueImmediateFiles

def isOtherEngineConnected (world : World) (queue : TransferQueue)
    (data : EngineData) : Bool :=
  queue.engineData.any fun current =>
    decide (current.address ≠ data.address) &&
      (match data.lastSite with
        | none => current.lastSite.isNone
        | some site => current.lastSiteIs site) &&
      world.isConnected current.engine

/-- What follows in `ProcessReply` if the state has been changed only. -/
def proceed (address : ℕ) (queue : TransferQueue) : Option TransferQueue :=
  match queue.find address with
  | none => none
  | some data =>
      let queue :=
        if data.state = .connect ∧
            (queue.world environment).hasPassword data.lastSite = false then
          queue.setState address EngineState.askpassword
        else queue
      if queue.activeMode = 0 then
        let pendingRemove :=
          (data.item.bind queue.item).any FileItem.pendingRemove
        resetOutside environment fuel address
          (if pendingRemove then .remove else .reset) queue
      else sendOutside environment fuel address queue

/-- The canceled reply in `ProcessReply`. -/
def processCanceled (data : EngineData) (queue : TransferQueue) :
    Option TransferQueue :=
  let item := data.item.bind queue.item
  let queue :=
    match data.item, item with
    | some id, some item =>
        if !item.pendingRemove && item.type = .file && item.madeProgress then
          queue.modifyItem id fun item => item.setMadeProgress false
        else queue
    | _, _ => queue
  let stopped :=
    if data.state = .connect then setActive environment fuel false queue
    else some queue
  stopped.bind <| resetOutside environment fuel data.address
    (if item.any FileItem.pendingRemove then .remove else .reset)

def processReply (address : ℕ) (replyCode : Reply) (queue : TransferQueue) :
    Option TransferQueue :=
  let world := queue.world environment
  let reset := resetOutside environment fuel address
  let proceed := proceed environment fuel address
  let increaseErrorCount := fun id =>
    increaseErrorCount environment (resetOutside environment fuel) address id
  match queue.find address with
  | none => none
  | some data =>
      if Reply.has replyCode Reply.canceled then
        processCanceled environment fuel data queue
      else
        match data.state with
        | .disconnect =>
            proceed (queue.setState address
              (if data.active then .connect else .none))
        | .connect =>
            match data.item, data.item.bind queue.item with
            | none, _ => reset .reset queue
            | some _, none => none
            | some id, some item =>
                if replyCode = Reply.ok then
                  proceed (queue.setState address (transferState item))
                else if replyCode ≠ (Reply.error ||| Reply.disconnected) ∨
                    isOtherEngineConnected world queue data = false then
                  increaseErrorCount id proceed queue
                else proceed queue
        | .transfer =>
            match data.item, data.item.bind queue.item with
            | none, _ => reset .reset queue
            | some _, none => none
            | some id, some item =>
                if replyCode = Reply.ok then reset .success queue
                else if item.type = .file ∧ item.madeProgress = true ∧
                    Reply.has replyCode Reply.writefailed = false then
                  -- Don't increase error count if there has been progress.
                  proceed (queue.modifyItem id fun item =>
                    item.setMadeProgress false)
                else if Reply.has replyCode Reply.timeout = false ∧
                    Reply.has replyCode Reply.disconnected = false ∧
                    (Reply.has replyCode Reply.writefailed ∨
                      Reply.has replyCode Reply.criticalerror) then
                  reset .failure queue
                else
                  increaseErrorCount id (fun queue =>
                    if Reply.has replyCode Reply.disconnected ∧
                        data.transient then
                      reset .retry queue
                    else proceed queue) queue
        | .mkdir =>
            if replyCode = Reply.ok then reset .success queue
            else if Reply.has replyCode Reply.disconnected then
              match data.item with
              | none => none
              | some id => increaseErrorCount id proceed queue
            else reset .failure queue
        | .list => reset .remove queue
        | .none | .cancel | .askpassword | .waitprimary => some queue

/-- `OnAskPassword`.  `GetPassword` asks the user and returns what is given
here. -/
def onAskPassword : List Bool → TransferQueue → Option TransferQueue
  | passwords, queue =>
      match queue.waitingForPassword, passwords with
      | [], _ => some queue
      | _ :: _, [] => none
      | engine :: _, password :: passwords =>
          let done :=
            match queue.getEngineData engine with
            | none => some queue
            | some data =>
                if data.state ≠ EngineState.askpassword then some queue
                else if queue.activeMode ≠ 0 ∧ password then
                  sendOutside environment fuel data.address
                    (queue.setState data.address .connect)
                else
                  (setActive environment fuel false queue).bind
                    (resetOutside environment fuel data.address .reset)
          done.bind fun queue =>
            onAskPassword passwords
              { queue with
                waitingForPassword := queue.waitingForPassword.tail }

/-- `OnExclusiveEngineRequestGranted` for the engine of a browsing
connection. -/
def onExclusiveEngineRequestGranted (context : ℕ) (queue : TransferQueue) :
    Option TransferQueue :=
  let released := queue.emit (.releaseEngine (.browsing context))
  match queue.getEngineData (.browsing context) with
  | none => some released
  | some data =>
      if data.transient = false ∨ data.active = false then some released
      else if data.state ≠ .waitprimary then some queue
      else
        match data.item, data.item.bind queue.item with
        | some id, some item =>
            match queue.topLevelItem id with
            | none => none
            | some (key, _) =>
                let states := (queue.world environment).states
                let current := states.find? fun state =>
                  decide (state.context = context)
                let same := (current.bind BrowsingState.site).any fun site =>
                  site.server.same (queue.site key).server
                if same then
                  sendOutside environment fuel data.address
                    (queue.setState data.address (transferState item))
                else
                  resetOutside environment fuel data.address .retry released
        | _, _ => none

/-! ### Removing items -/

/-- `StopItem` of a file item -/
def stopItem (id : ItemId) (queue : TransferQueue) : Option TransferQueue :=
  let stopped :=
    match queue.topLevelItem id with
    | none => queue
    | some (key, _) =>
        queue.onServer key fun queue => queue.queueImmediateFile id
  match (queue.engineDataOf id).bind stopped.find with
  | none => none
  | some data =>
      if data.state = .waitprimary then
        let pendingRemove :=
          (data.item.bind stopped.item).any FileItem.pendingRemove
        resetOutside environment fuel data.address
          (if pendingRemove then .remove else .reset) stopped
      else some (stopped.emit (.cancel data.engine))

def isPresent (queue : TransferQueue) : QueueRow → Bool
  | .server key => (queue.view.server key).isSome
  | .file id => decide (id ∈ queue.view.allChildren)
  | .status id =>
      decide (id ∈ queue.view.allChildren) &&
        decide (0 < queue.view.items.childrenCount id)

/-- An item pointer is used.  Nothing is known of what follows if the item
has been destroyed. -/
def useRow (queue : TransferQueue) (row : QueueRow) : TransferQueue :=
  { queue.emit (.use row (queue.isPresent row)) with
    usedDestroyed := queue.usedDestroyed || !queue.isPresent row }

def stopAndRemove (id : ItemId) (queue : TransferQueue) :
    Option TransferQueue :=
  stopItem environment fuel id (queue.modifyItem id fun item =>
    item.setPendingRemove true)

def isActiveItem (queue : TransferQueue) (id : ItemId) : Bool :=
  (queue.item id).any FileItem.active

/-- The loop of `StopItem` of a server item, from the last child. -/
def stopChildren : List ItemId → TransferQueue → Option TransferQueue
  | [], queue => some queue
  | id :: rest, queue =>
      let queue := queue.useRow (.file id)
      if queue.usedDestroyed then some queue
      else if queue.isActiveItem id then
        (stopAndRemove environment fuel id queue).bind (stopChildren rest)
      else
        match queue.removeItem id true false with
        | (queue, true) => some queue
        | (queue, false) => stopChildren rest queue

/-- `GetItemIndex` of a server item -/
def itemIndex (queue : TransferQueue) (key : ServerId) : ℤ :=
  ((queue.view.serverList.takeWhile fun entry =>
    !decide (entry.1 = key)).map fun entry =>
      1 + entry.2.visibleOffspring).sum

/-- `GetChild` of a server item -/
def getServerChild (queue : TransferQueue) (key : ServerId) (row : ℕ) :
    Option ItemRef × TransferQueue :=
  match queue.view.server key with
  | none => (none, queue)
  | some server =>
      let (child, tree) := ItemQueue.getChild ⟨server, queue.view.items⟩ row
      (child, { queue with view := queue.view.put key tree })

/-- The second loop of `OnRemoveSelected`.  A server item that has been
deleted with its last child is left out if it is the next. -/
def removeRows : Option ServerId → List (ℕ × QueueRow) → TransferQueue →
    Option TransferQueue
  | _, [], queue => some queue
  | deleted, (index, row) :: rest, queue =>
      if deleted.map QueueRow.server = some row then
        removeRows none rest queue
      else
        let queue := queue.useRow row
        if queue.usedDestroyed then some queue
        else
          match row with
          | .status _ => removeRows none rest queue
          | .server key =>
              match queue.view.server key with
              | none => none
              | some server =>
                  (stopChildren environment fuel
                    server.children.live.reverse queue).bind
                    (removeRows none rest)
          | .file id =>
              if queue.isActiveItem id then
                (stopAndRemove environment fuel id queue).bind
                  (removeRows none rest)
              else
                match queue.topLevelItem id with
                | none => none
                | some (key, server) =>
                    let (second, queue) := queue.getServerChild key 1
                    let deleted := if second.isNone then some key else none
                    let middle := queue.itemIndex key +
                      server.children.live.length / 2
                    removeRows deleted rest
                      (queue.removeItem id true (decide (index < middle))).1

/-- The rows of the queue. -/
def rows (queue : TransferQueue) : List QueueRow :=
  queue.view.serverList.flatMap fun entry =>
    .server entry.1 :: entry.2.children.live.flatMap fun id =>
      .file id :: List.replicate (queue.view.items.childrenCount id)
        (.status id)

/-- The first loop of `OnRemoveSelected`.  The rows of a server item that is
selected are skipped. -/
def collectRows (queue : TransferQueue) (selected : ℕ → Bool) :
    List QueueRow → ℕ → ℤ → List (ℕ × QueueRow) → List (ℕ × QueueRow)
  | [], _, _, collected => collected
  | row :: rest, index, skipTo, collected =>
      if selected index = false ∨ index ≤ skipTo then
        queue.collectRows selected rest (index + 1) skipTo collected
      else
        let skipTo :=
          match row with
          | .server key =>
              match queue.view.server key with
              | none => skipTo
              | some server => index + server.visibleOffspring
          | .file _ | .status _ => skipTo
        queue.collectRows selected rest (index + 1) skipTo
          ((index, row) :: collected)

def selectedItems (queue : TransferQueue) (selected : ℕ → Bool) :
    List (ℕ × QueueRow) :=
  queue.collectRows selected queue.rows 0 (-1) []

def onRemoveSelected (selected : ℕ → Bool) (queue : TransferQueue) :
    Option TransferQueue :=
  removeRows environment fuel none (queue.selectedItems selected) queue

def removeAll (queue : TransferQueue) : TransferQueue :=
  checkQueueState environment { queue with view := queue.view.removeAll }

end Events

/-! ## The machine -/

inductive Event
  | queueFile (file : NewFile) (onSuccess : Option NewFile)
  | queueFileFinish (start : Bool)
  | setActive (active : Bool)
  | reply (address : ℕ) (replyCode : Reply)
  | madeProgress (address : ℕ)
  | askPassword (passwords : List Bool)
  | granted (context : ℕ)
  | removeSelected (selected : ℕ → Bool)
  | removeAll
  | stopAndClear

structure Request where
  environment : Environment
  fuel : ℕ
  event : Event

def NewFile.isPlain (file : NewFile) : Bool :=
  !file.item.active && file.item.children.live.isEmpty

/-- What an event does. -/
def handle (environment : Environment) (fuel : ℕ) (queue : TransferQueue) :
    Event → Option TransferQueue
  | .queueFile file onSuccess =>
      if file.isPlain ∧ onSuccess.all NewFile.isPlain ∧
          (onSuccess.isSome → file.item.type = .file) then
        some (queue.queueFile file onSuccess)
      else none
  | .queueFileFinish start =>
      let activeMode :=
        if queue.activeMode = 0 ∧ start then 1 else queue.activeMode
      if activeMode = 0 then some queue
      else advanceQueue environment fuel { queue with activeMode := activeMode }
  | .setActive active => setActive environment fuel active queue
  | .reply address replyCode =>
      -- The replies to a browsing connection are passed on while its engine
      -- is used.
      if (queue.find address).any fun data =>
          data.active || !data.transient then
        processReply environment fuel address replyCode queue
      else none
  | .madeProgress address =>
      match queue.find address with
      | none => none
      | some data =>
          match data.item, data.item.bind queue.item with
          | some id, some item =>
              if data.active ∧ item.type = .file then
                some (queue.modifyItem id fun item => item.setMadeProgress true)
              else some queue
          | _, _ => some queue
  | .askPassword passwords =>
      onAskPassword environment fuel passwords queue
  | .granted context =>
      onExclusiveEngineRequestGranted environment fuel context queue
  | .removeSelected selected =>
      onRemoveSelected environment fuel selected queue
  | .removeAll => some (removeAll environment queue)
  | .stopAndClear =>
      (setActive environment fuel false queue).map (removeAll environment)

/-- An event, with the effects that it has.  A run in which a destroyed item
has been used does not go on. -/
def step (queue : TransferQueue) (request : Request) :
    Option (TransferQueue × List Effect) :=
  if queue.usedDestroyed then none
  else
    (handle request.environment request.fuel { queue with effects := [] }
      request.event).map fun queue => (queue, queue.effects)

/-- A queue without items and engines. -/
def empty : TransferQueue where
  view := ⟨[], fun _ => none, 0, 0, 0⟩
  site := fun _ => ⟨⟨.ftp, .default, [], [], 21, 0, .default, false, .auto, [],
    [], []⟩, 0, 0⟩
  serverActiveCount := fun _ => 0
  engineDataOf := fun _ => none
  postTransferAction := fun _ => none
  failed := []
  successful := []
  engineData := []
  activeCount := 0
  activeCountDown := 0
  activeCountUp := 0
  activeMode := 0
  waitingForPassword := []
  lastRefresh := none
  nextItem := 0
  nextServer := 0
  nextAddress := 0
  executions := 0
  effects := []
  resetting := []
  usedDestroyed := false

def machine : LabelledRuns.Machine TransferQueue Request Effect where
  initial := fun queue => queue = empty
  step := step

end TransferQueue

end TabFtp
