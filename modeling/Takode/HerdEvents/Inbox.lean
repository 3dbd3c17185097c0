import Takode.Lib.JsString
import Mathlib.Data.List.SplitBy

/-!
# The inbox of a leader

The entries of `herd-event-dispatcher.ts`, for one leader that has workers. An event has the data
that the dispatcher reads; what it asks the bridge is a `Bridge`, as of one moment.
-/

namespace Takode.HerdEvents

/-- The `quiet` of a turn end. -/
structure QuietTurn where
  count : Option Nat
  silent : Bool

/-- The `report` of a `worker_stream`. -/
structure WorkerReport where
  leaderSessionId : JsString
  boardCreatedAt : Nat
  phasePosition : Int

/-- The types of events that the dispatcher treats alike. -/
inductive PlainEvent
  | turnStart
  | compactionStarted
  | compactionFinished
  | permissionRequest
  | permissionResolved
  | herdReassigned
  | sessionDisconnected
  | sessionError
  | sessionArchived
  | sessionDeleted
  | notificationNeedsInput
  | notificationDismissed
  | messageDelivery
  | hostOffline
  | hostOnline
deriving DecidableEq

inductive EventData
  | turnEnd (durationMs : Nat) (quiet : Option QuietTurn)
  | workerStream (questId : Option JsString) (report : Option WorkerReport)
  | userMessage (agentSource : Option JsString)
  | boardStalled (questId : JsString) (stage signature : Option JsString)
  | boardDispatchable (questId : JsString) (signature : Option JsString) (rowUpdatedAt : Option Nat)
  | plain (event : PlainEvent)

structure TakodeEvent where
  id : Nat
  sessionId : JsString
  ts : Nat
  actorSessionId : Option JsString
  /-- What `getStableHerdEventKey` gives; it does not look at `quiet`. -/
  key : Option JsString
  data : EventData

structure BoardRow where
  questId : JsString
  worker : Option JsString
  status : JsString
  createdAt : Nat
  updatedAt : Nat
  /-- What `getQuestJourneyCurrentPhaseId` and `getQuestJourneyCurrentPhaseIndex` give. -/
  phaseId : Option JsString
  phaseIndex : Option Int

/-- What the bridge, the runtime and the clock say at one moment. -/
structure Bridge where
  now : Nat
  isSessionIdle : Bool
  /-- `wakeIdleKilledSession` or `wakeUnavailableOrchestratorForPendingEvents` takes care of it. -/
  wakes : Bool
  isHostOffline : Bool
  isStopping : Bool
  isPreservingQueuedWork : Bool
  isCodexLeader : Bool
  isScribeSession : JsString → Bool
  /-- The board of the leader's session. -/
  board : List BoardRow
  getBoardRow : JsString → Option BoardRow
  getBoardStallSignature : JsString → Option JsString
  getBoardDispatchableSignature : JsString → Option JsString
  /-- The keys of the herd messages in the leader's history. -/
  committedKeys : List JsString

namespace TakodeEvent

variable (event : TakodeEvent)

def isActionable : Bool :=
  match event.data with
  | .plain .turnStart | .plain .compactionStarted | .plain .compactionFinished => false
  | _ => true

def isCritical : Bool :=
  match event.data with
  | .plain .permissionRequest | .plain .sessionError => true
  | _ => false

def isHeldQuietTurn : Bool :=
  match event.data with
  | .turnEnd _ (some _) => true
  | _ => false

/-- The data without `quiet`, where the worker's board row changed during the turn. -/
def overrideQuietForBoardChange (board : List BoardRow) : TakodeEvent :=
  match event.data with
  | .turnEnd durationMs (some quiet) =>
    if board.any fun row => row.worker = some event.sessionId &&
        event.ts ≤ row.updatedAt + durationMs then
      { event with data := .turnEnd durationMs none }
    else { event with data := .turnEnd durationMs (some quiet) }
  | _ => event

/-- `mergeHeldQuietTurn`. -/
def mergeHeldQuietTurn (previous next : TakodeEvent) : TakodeEvent :=
  match previous.data, next.data with
  | .turnEnd _ (some earlier), .turnEnd durationMs (some later) =>
    { next with
      data := .turnEnd durationMs
        (some ⟨some (earlier.count.getD 1 + later.count.getD 1), false⟩) }
  | _, _ => next

def isRoutineScribeEvent (isScribeSession : JsString → Bool) : Bool :=
  isScribeSession event.sessionId &&
    match event.data with
    | .turnEnd _ quiet => quiet.any (·.silent)
    | .plain .sessionArchived | .plain .sessionDisconnected | .plain .herdReassigned
    | .plain .permissionResolved => true
    | _ => false

def isCurrentWorkerReport (leaderId : JsString) (board : List BoardRow) : Bool :=
  match event.data with
  | .workerStream questId (some report) =>
    report.leaderSessionId = leaderId &&
      (questId.bind fun id => board.find? fun row => row.questId = id).any fun row =>
        row.worker = some event.sessionId && row.status = js "WORKING" &&
          row.createdAt = report.boardCreatedAt && row.phaseId = some (js "work") &&
          row.phaseIndex = some (report.phasePosition - 1)
  | _ => true

/-- A board event that `pruneStaleBoardStallEntries` drops. -/
def isStale (bridge : Bridge) : Bool :=
  match event.data with
  | .boardStalled questId stage signature =>
    !(bridge.getBoardRow questId).any fun current =>
      stage.all (fun stage => stage.isEmpty || current.status = stage) &&
        signature.all fun signature =>
          signature.isEmpty || bridge.getBoardStallSignature questId = some signature
  | .boardDispatchable questId signature rowUpdatedAt =>
    !(bridge.getBoardRow questId).any fun current =>
      rowUpdatedAt.all (current.updatedAt = ·) &&
        signature.all fun signature =>
          signature.isEmpty || bridge.getBoardDispatchableSignature questId = some signature
  | _ => false

end TakodeEvent

structure InboxEntry where
  event : TakodeEvent
  seq : Nat
  /-- The `routeKey` of the thread that the event belongs to. -/
  threadRoute : JsString
  heldByRestartPrepOperationId : Option JsString
  /-- `none` is pending, and `some none` delivered without a stable owner id. -/
  deliveryOwnerId : Option (Option JsString)

def InboxEntry.isPending (entry : InboxEntry) : Bool := entry.deliveryOwnerId.isNone

structure HerdInbox where
  entries : List InboxEntry
  nextSeq : Nat
  inFlightUpTo : Option Nat
  debounceTimer : Bool
  recentEventKeys : List JsString

structure RestartPrepOperation where
  operationId : JsString
  targetSessionIds : List JsString
  /-- Whether the leader is one of the `protectedLeaderIds`. -/
  protectsLeader : Bool
  holdUntil : Nat
  suppressUntil : Nat

/-- What becomes of an event while operations run. -/
inductive DeliveryPolicy
  | deliver
  | hold (operationId : JsString)
  | suppress (operationId : JsString)

def INBOX_CAP : Nat := 200
def RECENT_EVENT_DEDUPE_CAP : Nat := 500

def getRestartPrepDeliveryPolicy (now : Nat) (event : TakodeEvent) :
    List RestartPrepOperation → DeliveryPolicy
  | [] => .deliver
  | operation :: rest =>
    if !operation.protectsLeader then getRestartPrepDeliveryPolicy now event rest
    else if operation.targetSessionIds.contains event.sessionId &&
        now ≤ operation.suppressUntil then .suppress operation.operationId
    else if now ≤ operation.holdUntil then .hold operation.operationId
    else getRestartPrepDeliveryPolicy now event rest

/-- The last event of a target session in the operation ends its part in it. -/
def recordRestartPrepSuppressed (operations : List RestartPrepOperation) (operationId : JsString)
    (event : TakodeEvent) : List RestartPrepOperation :=
  operations.map fun operation =>
    match event.data with
    | .turnEnd _ _ | .plain .sessionDisconnected =>
      if operation.operationId = operationId then
        { operation with
          targetSessionIds := operation.targetSessionIds.filter (· ≠ event.sessionId) }
      else operation
    | _ => operation

namespace HerdInbox

variable (inbox : HerdInbox)

/-- The watermark after the entries changed. -/
def recompute : HerdInbox :=
  { inbox with
    inFlightUpTo := ((inbox.entries.filter fun entry => !entry.isPending).map (·.seq)).max? }

/-- The inbox without the entries that meet a condition. -/
def remove (goes : InboxEntry → Bool) : HerdInbox :=
  { inbox with entries := inbox.entries.filter fun entry => !goes entry }

def getPendingEntries : List InboxEntry := inbox.entries.filter (·.isPending)

def pendingCount : Nat :=
  (inbox.getPendingEntries.filter fun entry => !entry.event.isHeldQuietTurn).length

/-- `scheduleDelivery` and `scheduleRetry`, which differ in how long they wait. -/
def schedule (bridge : Bridge) : HerdInbox :=
  { inbox with debounceTimer := inbox.debounceTimer || !bridge.isStopping }

/-- The keys that are remembered, trimmed to the newest. -/
def rememberKey (key : JsString) : HerdInbox :=
  let keys := if inbox.recentEventKeys.contains key then inbox.recentEventKeys
    else inbox.recentEventKeys ++ [key]
  { inbox with recentEventKeys := keys.drop (keys.length - RECENT_EVENT_DEDUPE_CAP) }

def rememberDeliveredEventKeys (events : List TakodeEvent) : HerdInbox :=
  events.foldl (fun inbox event => event.key.elim inbox inbox.rememberKey) inbox

/-- The inbox without stale board events, and how many there were. -/
def pruneStaleBoardStallEntries (bridge : Bridge) : HerdInbox × Nat :=
  let prunedCount := (inbox.entries.filter fun entry => entry.event.isStale bridge).length
  if 0 < prunedCount then
    ((inbox.remove fun entry => entry.event.isStale bridge).recompute, prunedCount)
  else (inbox, 0)

/-- Entries over the cap go, the oldest first: those that are not critical, if there are enough. -/
def capEntries : HerdInbox :=
  if INBOX_CAP < inbox.entries.length then
    let excess := inbox.entries.length - INBOX_CAP
    let nonCritical := (inbox.entries.filter fun entry => !entry.event.isCritical).take excess
    if excess ≤ nonCritical.length then
      (inbox.remove fun entry => nonCritical.any fun other => other.seq = entry.seq).recompute
    else ({ inbox with entries := inbox.entries.drop excess } : HerdInbox).recompute
  else inbox

/-- The earlier quiet turn of the worker is folded into the new one. -/
def mergeEarlierHeldQuietTurn (event : TakodeEvent) : HerdInbox × TakodeEvent :=
  match inbox.entries.find? fun entry => entry.isPending &&
      entry.event.sessionId = event.sessionId && entry.event.isHeldQuietTurn with
  | none => (inbox, event)
  | some previous =>
    (((inbox.remove fun entry => entry.seq = previous.seq).rememberDeliveredEventKeys
      [previous.event]).recompute, TakodeEvent.mergeHeldQuietTurn previous.event event)

/-- No entry is in flight any more. -/
def resetInFlight : HerdInbox :=
  if inbox.inFlightUpTo.isSome then
    ({ inbox with
      entries := inbox.entries.map fun entry =>
        { entry with deliveryOwnerId := none } } : HerdInbox).recompute
  else inbox

/-- The entries that a completed turn owns are confirmed. -/
def confirmOwned (completedOwnerIds : Option (List JsString)) : HerdInbox :=
  if inbox.inFlightUpTo.isSome then
    (inbox.remove fun entry => entry.deliveryOwnerId.any fun owner =>
      completedOwnerIds.all fun ids => owner.any ids.contains).recompute
  else inbox

def confirmCommittedHerdHistory (bridge : Bridge) : HerdInbox :=
  let committed (entry : InboxEntry) : Bool :=
    entry.isPending && entry.event.key.any bridge.committedKeys.contains
  let confirmed := inbox.entries.filter committed
  if confirmed.isEmpty then inbox
  else
    let kept := (inbox.remove committed).recompute
    let kept := if kept.pendingCount = 0 then { kept with debounceTimer := false } else kept
    kept.rememberDeliveredEventKeys (confirmed.map (·.event))

end HerdInbox

/-- Quiet turns are kept where an entry that wakes the leader shares their thread. -/
def withRideAlongQuietEntries (entries : List InboxEntry) : List InboxEntry :=
  let wakingRoutes := (entries.filter fun entry => !entry.event.isHeldQuietTurn).map (·.threadRoute)
  entries.filter fun entry => !entry.event.isHeldQuietTurn || wakingRoutes.contains entry.threadRoute

/-- Adjacent entries of one thread. -/
def groupPendingEntriesByThread (entries : List InboxEntry) : List (List InboxEntry) :=
  entries.splitBy fun a b => a.threadRoute = b.threadRoute

end Takode.HerdEvents
