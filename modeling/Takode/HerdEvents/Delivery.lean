import Takode.HerdEvents.Inbox
import Takode.Lib.Machine

/-!
# The delivery of herd events

`HerdEventDispatcher`, for one leader. The bridge answers each `injectUserMessage` as it likes, and
everything it says can change with an answer. The log of a state, the newest first, tells what was
injected and when the events in flight were given up.
-/

namespace Takode.HerdEvents

/-- What `injectUserMessage` returns. -/
inductive Delivery
  | sent
  | queued
  | pausedQueued
  | dropped
  | noSession
deriving DecidableEq

structure Answer where
  delivery : Delivery
  /-- What `findHerdDeliveryOwnerId` finds after the call. -/
  ownerId : Option JsString
  /-- What the bridge says after the call. -/
  bridge : Bridge

/-- Whether the events of the group count as delivered. -/
def Answer.accepts (answer : Answer) : Bool :=
  match answer.delivery with
  | .sent | .pausedQueued => true
  | .queued => answer.bridge.isCodexLeader || answer.bridge.isPreservingQueuedWork
  | .dropped | .noSession => false

inductive LogEntry
  | injected (seqs : List Nat) (accepted : Bool)
  | reset
deriving DecidableEq

structure HerdState where
  inbox : HerdInbox
  operations : List RestartPrepOperation
  log : List LogEntry

inductive DeliveryStatus
  | sent
  | retry
  | dropped
deriving DecidableEq

/-- What the loop of `deliverPendingEntries` has come to. -/
structure Delivering where
  inbox : HerdInbox
  log : List LogEntry
  acceptedEntries : List (InboxEntry × Option JsString)

/-- The loop over the groups, of which the next one is number `n`. It may stop with a status. -/
def deliverGroups (answers : Nat → Answer) :
    Nat → Delivering → List (List InboxEntry) → Delivering × Option DeliveryStatus
  | _, state, [] => (state, none)
  | n, state, group :: rest =>
    let answer := answers n
    let state : Delivering := { state with
      log := .injected (group.map (·.seq)) answer.accepts :: state.log }
    if answer.accepts then
      deliverGroups answers (n + 1)
        { state with
          acceptedEntries := state.acceptedEntries ++ group.map (·, answer.ownerId) } rest
    else if answer.delivery = .dropped then
      let pruned := state.inbox.pruneStaleBoardStallEntries answer.bridge
      let state := { state with inbox := pruned.1 }
      if 0 < pruned.2 then deliverGroups answers (n + 1) state rest else (state, some .dropped)
    else (state, some .retry)

def markEntriesAcceptedForDelivery (inbox : HerdInbox)
    (accepted : List (InboxEntry × Option JsString)) : HerdInbox :=
  { inbox with
    entries := inbox.entries.map fun entry =>
      match accepted.find? fun other => other.1.seq = entry.seq with
      | some (_, ownerId) => { entry with deliveryOwnerId := some ownerId }
      | none => entry }

def deliverPendingEntries (herd : HerdState) (answers : Nat → Answer) (pending : List InboxEntry) :
    HerdState × DeliveryStatus :=
  match deliverGroups answers 0 ⟨herd.inbox, herd.log, []⟩
      (groupPendingEntriesByThread pending) with
  | (state, some status) => ({ herd with inbox := state.inbox, log := state.log }, status)
  | (state, none) =>
    if state.acceptedEntries.isEmpty then
      ({ herd with inbox := state.inbox, log := state.log }, .sent)
    else
      let inbox := state.inbox.rememberDeliveredEventKeys
        (state.acceptedEntries.map fun accepted => accepted.1.event)
      let inbox := (markEntriesAcceptedForDelivery inbox state.acceptedEntries).recompute
      ({ herd with inbox, log := state.log }, .sent)

/-- The loop of `getDeliverablePendingEntries`: what is left of the inbox and the operations, and the
entries to deliver. -/
def collectDeliverable (leader : JsString) (bridge : Bridge) (inbox : HerdInbox)
    (operations : List RestartPrepOperation) :
    List InboxEntry → HerdInbox × List RestartPrepOperation × List InboxEntry
  | [] => (inbox, operations, [])
  | entry :: rest =>
    let without := (inbox.remove fun other => other.seq = entry.seq).recompute
    let mark (held : Option JsString) : HerdInbox :=
      { inbox with
        entries := inbox.entries.map fun other =>
          if other.seq = entry.seq then { other with heldByRestartPrepOperationId := held }
          else other }
    if !entry.event.isCurrentWorkerReport leader bridge.board then
      collectDeliverable leader bridge without operations rest
    else
      match getRestartPrepDeliveryPolicy bridge.now entry.event operations with
      | .deliver =>
        let collected := collectDeliverable leader bridge (mark none) operations rest
        (collected.1, collected.2.1, entry :: collected.2.2)
      | .hold operationId =>
        let held := entry.heldByRestartPrepOperationId.getD operationId
        collectDeliverable leader bridge (mark (some held)) operations rest
      | .suppress operationId =>
        collectDeliverable leader bridge without
          (recordRestartPrepSuppressed operations operationId entry.event) rest

/-- The start of a flush: the inbox after stale entries are gone, and what there is to deliver. -/
def prepareDelivery (leader : JsString) (bridge : Bridge) (herd : HerdState) :
    HerdState × List InboxEntry :=
  let pruned := (herd.inbox.pruneStaleBoardStallEntries bridge).1
  let collected :=
    collectDeliverable leader bridge pruned herd.operations pruned.getPendingEntries
  ({ herd with inbox := collected.1, operations := collected.2.1 },
    withRideAlongQuietEntries collected.2.2)

/-- What `flushInbox` injects, if it comes to that, and the state in which it does. -/
def prepareFlush (leader : JsString) (bridge : Bridge) (herd : HerdState) :
    HerdState × Option (List InboxEntry) :=
  if bridge.isStopping then (herd, none)
  else
    let prepared := prepareDelivery leader bridge herd
    if prepared.2.isEmpty || bridge.isHostOffline then (prepared.1, none)
    else if !bridge.isSessionIdle then
      (if bridge.wakes then prepared.1
        else { prepared.1 with inbox := prepared.1.inbox.schedule bridge }, none)
    else (prepared.1, some prepared.2)

/-- What `forceFlushPendingEvents` injects. -/
def prepareForceFlush (leader : JsString) (bridge : Bridge) (before : Option Nat) (herd : HerdState) :
    HerdState × Option (List InboxEntry) :=
  if bridge.isStopping || bridge.isHostOffline then (herd, none)
  else
    let prepared := prepareDelivery leader bridge herd
    let pending := prepared.2.filter fun entry => before.all (entry.event.ts ≤ ·)
    (prepared.1, if pending.isEmpty then none else some pending)

/-- The inbox after `onOrchestratorTurnEnd` has confirmed or given up what was in flight. -/
def endTurn (bridge : Bridge) (succeeded : Bool) (completedOwnerIds : Option (List JsString))
    (herd : HerdState) : HerdState :=
  let herd := if succeeded then { herd with inbox := herd.inbox.confirmOwned completedOwnerIds }
    else { herd with inbox := herd.inbox.resetInFlight, log := .reset :: herd.log }
  { herd with inbox := herd.inbox.confirmCommittedHerdHistory bridge }

/-- What `onOrchestratorTurnEnd` flushes, if events are waiting. -/
def prepareTurnEnd (leader : JsString) (bridge : Bridge) (succeeded : Bool)
    (completedOwnerIds : Option (List JsString)) (herd : HerdState) :
    HerdState × Option (List InboxEntry) :=
  let herd := endTurn bridge succeeded completedOwnerIds herd
  if 0 < herd.inbox.pendingCount then
    prepareFlush leader bridge { herd with inbox := { herd.inbox with debounceTimer := false } }
  else (herd, none)

/-- The rest of a flush. -/
def flush (bridge : Bridge) (answers : Nat → Answer) :
    HerdState × Option (List InboxEntry) → HerdState
  | (herd, none) => herd
  | (herd, some pending) =>
    match deliverPendingEntries herd answers pending with
    | (herd, .retry) => { herd with inbox := herd.inbox.schedule bridge }
    | (herd, _) => herd

/-- The rest of `forceFlushPendingEvents`, which drops stale entries once more. -/
def forceFlush (bridge : Bridge) (answers : Nat → Answer) :
    HerdState × Option (List InboxEntry) → HerdState
  | (herd, none) => herd
  | (herd, some pending) =>
    match deliverPendingEntries herd answers pending with
    | (herd, .dropped) =>
      { herd with inbox := (herd.inbox.pruneStaleBoardStallEntries bridge).1 }
    | (herd, .retry) => { herd with inbox := herd.inbox.schedule bridge }
    | (herd, .sent) => herd

/-- The event as it is appended, and the inbox that it is appended to. -/
def foldQuiet (bridge : Bridge) (inbox : HerdInbox) (event : TakodeEvent) :
    HerdInbox × TakodeEvent :=
  let event := event.overrideQuietForBoardChange bridge.board
  if event.isHeldQuietTurn then inbox.mergeEarlierHeldQuietTurn event else (inbox, event)

/-- `onWorkerEvent` from where the event is to be appended. -/
def appendEvent (bridge : Bridge) (herd : HerdState) (event : TakodeEvent) (threadRoute : JsString)
    (heldBy : Option JsString) : HerdState :=
  let folded := foldQuiet bridge herd.inbox event
  let entry : InboxEntry := ⟨folded.2, folded.1.nextSeq, threadRoute, heldBy, none⟩
  let inbox := ({ folded.1 with
    nextSeq := folded.1.nextSeq + 1
    entries := folded.1.entries ++ [entry] } : HerdInbox).capEntries
  let waits :=
    heldBy.isSome || folded.2.isHeldQuietTurn || bridge.isStopping || bridge.isHostOffline
  let inbox :=
    if !waits && (bridge.isSessionIdle || !bridge.wakes) then inbox.schedule bridge else inbox
  { herd with inbox }

/-- `onWorkerEvent`, with the thread that `resolveEventThreadRoute` gives. -/
def onWorkerEvent (leader : JsString) (bridge : Bridge) (herd : HerdState) (event : TakodeEvent)
    (threadRoute : JsString) : HerdState :=
  let injectedMessage : Bool :=
    match event.data with
    | .userMessage agentSource => agentSource.any fun id => !id.isEmpty
    | _ => false
  if !event.isActionable || injectedMessage || event.actorSessionId = some leader then herd
  else
    match getRestartPrepDeliveryPolicy bridge.now event herd.operations with
    | .suppress operationId =>
      { herd with operations := recordRestartPrepSuppressed herd.operations operationId event }
    | policy =>
      let known : Bool := event.key.any fun key => herd.inbox.recentEventKeys.contains key ||
        herd.inbox.entries.any fun entry => entry.event.key = some key
      if known then herd
      else if event.key.any bridge.committedKeys.contains then
        { herd with inbox := herd.inbox.rememberDeliveredEventKeys [event] }
      else if event.isRoutineScribeEvent bridge.isScribeSession then herd
      else
        appendEvent bridge herd event threadRoute
          (match policy with
            | .hold operationId => some operationId
            | _ => none)

def onOrchestratorDisconnect (herd : HerdState) : HerdState :=
  { herd with
    inbox := { herd.inbox.resetInFlight with debounceTimer := false }
    log := .reset :: herd.log }

/-- `operations.set`. -/
def beginRestartPrepOperation (herd : HerdState) (operation : RestartPrepOperation) : HerdState :=
  { herd with
    operations :=
      if herd.operations.any fun other => other.operationId = operation.operationId then
        herd.operations.map fun other =>
          if other.operationId = operation.operationId then operation else other
      else herd.operations ++ [operation] }

def releaseHeldRestartPrepEvents (bridge : Bridge) (herd : HerdState) (operationId : JsString) :
    HerdState :=
  match herd.operations.find? fun operation => operation.operationId = operationId with
  | none => herd
  | some operation =>
    let operations := herd.operations.map fun other =>
      if other.operationId = operationId then { other with holdUntil := 0 } else other
    if !operation.protectsLeader then { herd with operations }
    else
      let inbox := { herd.inbox with
        entries := herd.inbox.entries.map fun entry =>
          if entry.heldByRestartPrepOperationId = some operationId then
            { entry with heldByRestartPrepOperationId := none }
          else entry }
      let wakes := bridge.isSessionIdle || !bridge.wakes
      { herd with
        operations
        inbox := if 0 < inbox.pendingCount && wakes then inbox.schedule bridge else inbox }

inductive Label
  | workerEvent (bridge : Bridge) (event : TakodeEvent) (threadRoute : JsString)
  | flush (bridge : Bridge) (answers : Nat → Answer)
  | forceFlush (bridge : Bridge) (before : Option Nat) (answers : Nat → Answer) (later : Bridge)
  | turnEnd (bridge : Bridge) (succeeded : Bool) (completedOwnerIds : Option (List JsString))
      (answers : Nat → Answer)
  | disconnect
  | beginRestartPrep (operation : RestartPrepOperation)
  | releaseHeld (bridge : Bridge) (operationId : JsString)
  | endRestartPrep (operationId : JsString)

/-- The state in which a step delivers entries, and these entries. -/
def HerdState.prepare (leader : JsString) (herd : HerdState) :
    Label → HerdState × Option (List InboxEntry)
  | .flush bridge _ =>
    prepareFlush leader bridge { herd with inbox := { herd.inbox with debounceTimer := false } }
  | .forceFlush bridge before _ _ => prepareForceFlush leader bridge before herd
  | .turnEnd bridge succeeded completedOwnerIds _ =>
    prepareTurnEnd leader bridge succeeded completedOwnerIds herd
  | _ => (herd, none)

def HerdState.step (leader : JsString) (herd : HerdState) (label : Label) : Option HerdState :=
  match label with
  | .workerEvent bridge event threadRoute =>
    some (onWorkerEvent leader bridge herd event threadRoute)
  | .flush bridge answers =>
    if herd.inbox.debounceTimer then some (HerdEvents.flush bridge answers (herd.prepare leader label))
    else none
  | .forceFlush _ _ answers later =>
    some (HerdEvents.forceFlush later answers (herd.prepare leader label))
  | .turnEnd bridge _ _ answers => some (HerdEvents.flush bridge answers (herd.prepare leader label))
  | .disconnect => some (onOrchestratorDisconnect herd)
  | .beginRestartPrep operation => some (beginRestartPrepOperation herd operation)
  | .releaseHeld bridge operationId => some (releaseHeldRestartPrepEvents bridge herd operationId)
  | .endRestartPrep operationId =>
    some { herd with
      operations := herd.operations.filter fun other => other.operationId ≠ operationId }

def HerdState.start : HerdState := ⟨⟨[], 0, none, false, []⟩, [], []⟩

def dispatcher (leader : JsString) : Machine HerdState Label :=
  ⟨HerdState.start, HerdState.step leader⟩

end Takode.HerdEvents
