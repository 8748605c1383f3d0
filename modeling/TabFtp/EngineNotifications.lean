import TabFtp.EdgeTriggeredQueue
import TabFtp.LabelledRuns

/-!
# The notifications of an engine

`CFileZillaEnginePrivate` keeps the notifications for the application in
`m_NotificationList` and holds log messages of minor types back in
`queued_logs_`.  Every function here runs under `notification_mutex_`.
-/

namespace TabFtp

open EdgeTriggered

/-- `logmsg::type` -/
inductive LogmsgType
  | status
  | error
  | command
  | reply
  | debugWarning
  | debugInfo
  | debugVerbose
  | debugDebug
  | listing
  deriving DecidableEq

structure LogmsgNotification (Text : Type) where
  msgType : LogmsgType
  msg : Text
  deriving DecidableEq

/-- `CNotification`: a log message, or one of the other classes. -/
inductive Notification (Text Other : Type)
  | logmsg (message : LogmsgNotification Text)
  | other (notification : Other)

/-- The options that `ShouldQueueLogsFromOptions` reads. -/
structure LoggingOptions where
  rawListing : Int
  debugLevel : Int
  showDetailedLogs : Int

def LoggingOptions.shouldQueueLogsFromOptions
    (options : LoggingOptions) : Bool :=
  options.rawListing == 0 && options.debugLevel == 0 &&
    options.showDetailedLogs == 0

structure EngineNotifications (Text Other : Type) where
  notificationList : List (Notification Text Other)
  maySendNotificationEvent : Bool
  queueLogs : Bool
  queuedLogs : List (LogmsgNotification Text)
  hasNotificationCb : Bool
  options : LoggingOptions

/-- The insertions into the list, the calls of the callback, and what
`GetNextNotification` returns: a notification, or null. -/
abbrev EngineSignal (Text Other : Type) :=
  Signal (Notification Text Other)

variable {Text Other : Type}

namespace EngineNotifications

abbrev Answer (Text Other : Type) :=
  EngineNotifications Text Other × List (EngineSignal Text Other)

def create (options : LoggingOptions) (hasNotificationCb : Bool) :
    EngineNotifications Text Other where
  notificationList := []
  maySendNotificationEvent := true
  queueLogs := options.shouldQueueLogsFromOptions
  queuedLogs := []
  hasNotificationCb := hasNotificationCb
  options := options

variable (engine : EngineNotifications Text Other)

/-- The insertion of all of `added` at the end of the list. -/
def insert (added : List (Notification Text Other)) :
    Answer Text Other :=
  ({ engine with notificationList := engine.notificationList ++ added },
    added.map .inserted)

def callback : Answer Text Other :=
  if engine.maySendNotificationEvent && engine.hasNotificationCb then
    ({ engine with maySendNotificationEvent := false }, [.wake])
  else (engine, [])

/-- `none` is a null pointer. -/
def addNotification (notification : Option (Notification Text Other)) :
    Answer Text Other :=
  let pushed := engine.insert notification.toList
  let called := pushed.1.callback
  (called.1, pushed.2 ++ called.2)

def flushQueuedLogs : Answer Text Other :=
  let flushed := engine.insert (engine.queuedLogs.map .logmsg)
  ({ flushed.1 with queuedLogs := [] }, flushed.2)

def clearQueuedLogs (resetFlag : Bool) : EngineNotifications Text Other :=
  let cleared := { engine with queuedLogs := [] }
  if resetFlag then
    { cleared with
      queueLogs := engine.options.shouldQueueLogsFromOptions }
  else cleared

def addLogNotification (notification : LogmsgNotification Text) :
    Answer Text Other :=
  if notification.msgType = .error then
    let flushed :=
      { engine with queueLogs := false : EngineNotifications Text Other }
        |>.flushQueuedLogs
    let added := flushed.1.addNotification (some (.logmsg notification))
    (added.1, flushed.2 ++ added.2)
  else if notification.msgType = .status then
    (engine.clearQueuedLogs false).addNotification
      (some (.logmsg notification))
  else if !engine.queueLogs then
    engine.addNotification (some (.logmsg notification))
  else
    ({ engine with queuedLogs := engine.queuedLogs ++ [notification] }, [])

def sendQueuedLogs (resetFlag : Bool) : Answer Text Other :=
  let flushed := engine.flushQueuedLogs
  let sent :=
    if resetFlag then
      { flushed.1 with
        queueLogs := engine.options.shouldQueueLogsFromOptions }
    else flushed.1
  if !sent.maySendNotificationEvent || sent.notificationList.isEmpty ||
      !sent.hasNotificationCb then
    (sent, flushed.2)
  else
    ({ sent with maySendNotificationEvent := false }, flushed.2 ++ [.wake])

/-- The locked part of `RawCommand`. -/
def rawCommand : EngineNotifications Text Other :=
  { engine with queueLogs := false }

def onOptionsChanged : Answer Text Other :=
  if engine.options.shouldQueueLogsFromOptions then
    ({ engine with queueLogs := true }, [])
  else engine.sendQueuedLogs true

def getNextNotification : Answer Text Other :=
  match engine.notificationList with
  | [] => ({ engine with maySendNotificationEvent := true }, [.exhausted])
  | notification :: rest =>
      ({ engine with notificationList := rest }, [.handed notification])

end EngineNotifications

/-- The locked sections of the engine.  An option may be changed by another
thread between any two of them. -/
inductive EngineCall (Text Other : Type)
  | addNotification (notification : Option Other)
  | addLogNotification (notification : LogmsgNotification Text)
  | sendQueuedLogs (resetFlag : Bool)
  | clearQueuedLogs (resetFlag : Bool)
  | rawCommand
  | setOptions (options : LoggingOptions)
  | onOptionsChanged
  | getNextNotification

/-- The end of `ResetOperation`: the notification about the operation, then
the queued log messages. -/
def EngineCall.resetOperation (operation : Option Other) (ok : Bool) :
    List (EngineCall Text Other) :=
  operation.toList.map (fun notification =>
      .addNotification (some notification)) ++
    [if ok then .clearQueuedLogs true else .sendQueuedLogs true]

def EngineNotifications.step (engine : EngineNotifications Text Other) :
    EngineCall Text Other → EngineNotifications.Answer Text Other
  | .addNotification notification =>
      engine.addNotification (notification.map .other)
  | .addLogNotification notification =>
      engine.addLogNotification notification
  | .sendQueuedLogs resetFlag => engine.sendQueuedLogs resetFlag
  | .clearQueuedLogs resetFlag => (engine.clearQueuedLogs resetFlag, [])
  | .rawCommand => (engine.rawCommand, [])
  | .setOptions options => ({ engine with options := options }, [])
  | .onOptionsChanged => engine.onOptionsChanged
  | .getNextNotification => engine.getNextNotification

def EngineNotifications.machine (Text Other : Type) :
    LabelledRuns.Machine (EngineNotifications Text Other)
      (EngineCall Text Other) (EngineSignal Text Other) where
  initial engine :=
    ∃ options hasNotificationCb, engine = .create options hasNotificationCb
  step engine call := some (engine.step call)

end TabFtp
