import Takode.CodexHistory.Incorporation
import Takode.Lib.Machine

/-!
# The Codex turn queue

The turns that wait for the adapter of a session, and the one that it works on
(`codex-turn-queue.ts`). Turns are objects that are shared with their owners, so that a turn is a
number here, counted in the order in which the turns were queued.
-/

namespace Takode.CodexTurns

open CodexHistory JsString

/-! ## Turns -/

structure QueuedTurn extends CodexOutboundTurn where
  updatedAt : Nat := 0
  lastError : Option JsString := none
  disconnectedAt : Option Nat := none
  resumeConfirmedAt : Option Nat := none

namespace QueuedTurn

def completed (turn : QueuedTurn) (updatedAt : Nat) : QueuedTurn :=
  { turn with status := .completed, updatedAt }

/-- A broken session is up again. -/
def unblocked (turn : QueuedTurn) (now : Nat) : QueuedTurn :=
  if turn.status = .blockedBrokenSession then
    { turn with
      status := .queued
      updatedAt := now
      lastError := none
      turnId := none
      acknowledgedAt := none
      disconnectedAt := none
      resumeConfirmedAt := none }
  else turn

def rejected (turn : QueuedTurn) (reason : JsString) (now : Nat) : QueuedTurn :=
  { turn with
    status := .queued
    updatedAt := now
    lastError := some (js "Codex adapter rejected outbound turn during " ++ reason ++ js ".") }

def accepted (turn : QueuedTurn) (now : Nat) : QueuedTurn :=
  { turn with
    status := .dispatched
    dispatchCount := turn.dispatchCount + 1
    updatedAt := now
    lastError := none }

/-- The turn that the provider has started. -/
def started (turn : QueuedTurn) (turnId : JsString) (receiptAwareAdapter : Bool) (now : Nat) :
    QueuedTurn :=
  let acknowledged := markCodexHistoryRpcAccepted
    { turn.toCodexOutboundTurn with
      turnId := some turnId, status := .backendAcknowledged, acknowledgedAt := some now } turnId now
  { turn with
    toCodexOutboundTurn :=
      if receiptAwareAdapter then acknowledged else { acknowledged with historyIncorporation := none }
    updatedAt := now }

/-- A turn that a session has stopped for. -/
def blocked (turn : QueuedTurn) (error : JsString) (now : Nat) : QueuedTurn :=
  { turn with status := .blockedBrokenSession, lastError := some error, updatedAt := now }

def staged (turn : QueuedTurn) (plan : CodexTerminalHistoryReconciliation) : QueuedTurn :=
  { turn with
    toCodexOutboundTurn := stageCodexTerminalHistoryReconciliation turn.toCodexOutboundTurn plan
    lastError := none
    updatedAt := plan.classifiedAt }

/-- A result does not settle a turn whose history is still open. -/
def awaitsHistory (turn : QueuedTurn) : Bool :=
  turn.terminalHistoryReconciliation.isSome || turn.historyTrackingUnknown ||
    turn.historyIncorporation.any fun history => history.recordedAt.isNone

/-- A turn of new input: nothing of it was handed out. -/
def IsQueued (turn : QueuedTurn) : Prop :=
  (turn.status = .queued ∨ turn.status = .blockedBrokenSession) ∧ turn.turnId = none

/-- A turn of input that the adapter has steered into a running one. -/
def IsSteered (turn : QueuedTurn) : Prop := turn.status = .backendAcknowledged

instance (turn : QueuedTurn) : Decidable turn.IsQueued := inferInstanceAs (Decidable (_ ∧ _))

instance (turn : QueuedTurn) : Decidable turn.IsSteered := inferInstanceAs (Decidable (_ = _))

end QueuedTurn

/-! ## The queue -/

/-- The turns that were ever queued, and those that are pending, in order. -/
structure CodexTurnQueue where
  turns : List QueuedTurn
  pendingCodexTurns : List Nat

namespace CodexTurnQueue

def modify (queue : CodexTurnQueue) (turn : Nat) (f : QueuedTurn → QueuedTurn) : CodexTurnQueue :=
  { queue with turns := queue.turns.modify turn f }

def status (queue : CodexTurnQueue) (turn : Nat) : Option CodexOutboundTurnStatus :=
  (queue.turns[turn]?).map (·.status)

def getCodexHeadTurn (queue : CodexTurnQueue) : Option Nat := queue.pendingCodexTurns.head?

def getCodexTurnAwaitingAck (queue : CodexTurnQueue) : Option Nat :=
  queue.getCodexHeadTurn.filter fun head => queue.status head = some .dispatched

def enqueueCodexTurn (queue : CodexTurnQueue) (turn : QueuedTurn) : CodexTurnQueue where
  turns := queue.turns ++ [turn]
  pendingCodexTurns := queue.pendingCodexTurns ++ [queue.turns.length]

/-- The queue from its first turn that is not completed on, and whether a turn was removed. -/
def removeCompletedCodexTurns (queue : CodexTurnQueue) : CodexTurnQueue × Bool :=
  ({ queue with
    pendingCodexTurns :=
      queue.pendingCodexTurns.dropWhile fun turn => queue.status turn = some .completed },
    queue.getCodexHeadTurn.any fun head => queue.status head = some .completed)

/-- The loop that completes turns. -/
def markCompleted (queue : CodexTurnQueue) (completed : List Nat) (updatedAt : Nat) :
    CodexTurnQueue :=
  { queue with
    turns := queue.turns.mapIdx fun index turn =>
      if index ∈ completed then turn.completed updatedAt else turn }

/-- The pending turns of a provider turn. -/
def ofProviderTurn (queue : CodexTurnQueue) (turnId : JsString) (p : QueuedTurn → Bool) : List Nat :=
  queue.pendingCodexTurns.filter fun candidate =>
    (queue.turns[candidate]?).any fun turn => turn.turnId = some turnId && p turn

def completeCodexTurn (queue : CodexTurnQueue) (turn : Option Nat) (updatedAt : Nat) :
    CodexTurnQueue × Bool :=
  match turn with
  | none => (queue, false)
  | some index =>
    let coOwners := (queue.turns[index]?).bind fun turn =>
      if turn.historyIncorporation.isNone then turn.turnId.filter (· ≠ []) else none
    let completedTurns :=
      match coOwners with
      | some turnId => queue.ofProviderTurn turnId (·.historyIncorporation.isNone)
      | none => [index]
    (queue.markCompleted completedTurns updatedAt).removeCompletedCodexTurns

/-- The queue, and whether the result is that of a pending turn. -/
def completeCodexTurnsForResult (queue : CodexTurnQueue) (codexTurnId : Option JsString)
    (updatedAt : Nat) : CodexTurnQueue × Bool :=
  match codexTurnId.filter (· ≠ []) with
  | some turnId =>
    if queue.ofProviderTurn turnId (fun _ => true) = [] then (queue, false)
    else
      let settled := queue.ofProviderTurn turnId fun turn => !turn.awaitsHistory
      ((queue.markCompleted settled updatedAt).removeCompletedCodexTurns.1, true)
  | none => ((queue.completeCodexTurn queue.getCodexHeadTurn updatedAt).1, true)

end CodexTurnQueue

inductive DispatchStatus
  | noop
  | adapterRejected
  | dispatched
deriving DecidableEq

/-- What the session and its adapter are like when turns are dispatched. -/
structure AdapterState where
  isStopping : Bool := false
  attached : Bool := true
  backendConnected : Bool := true
  isConnected : Bool := true
  accepts : Bool

def AdapterState.ready (adapter : AdapterState) : Bool :=
  !adapter.isStopping && adapter.attached && adapter.backendConnected && adapter.isConnected

/-- The queue, the outcome, the turn that it is about, and the inputs that cannot be cancelled any
more. Nothing that waits is stale. -/
def CodexTurnQueue.dispatchQueuedCodexTurns (queue : CodexTurnQueue) (adapter : AdapterState)
    (reason : JsString) (now : Nat) :
    CodexTurnQueue × DispatchStatus × Option Nat × List JsString :=
  if !adapter.ready then
    (queue, .noop, if adapter.isStopping then queue.getCodexHeadTurn else none, [])
  else
    match queue.getCodexHeadTurn with
    | none => (queue, .noop, none, [])
    | some head =>
      let queue := queue.modify head (·.unblocked now)
      match queue.status head with
      | some .backendAcknowledged | some .dispatched | some .recoveryPending =>
        (queue, .noop, some head, [])
      | _ =>
        if adapter.accepts then
          (queue.modify head (·.accepted now), .dispatched, some head,
            ((queue.turns[head]?).map (·.inputIds)).getD [])
        else (queue.modify head (·.rejected reason now), .adapterRejected, some head, [])

/-! ## Runs -/

inductive CodexTurnEvent
  | enqueue (turn : QueuedTurn)
  | dispatch (adapter : AdapterState) (reason : JsString) (now : Nat)
  | acknowledge (turnId : JsString) (receiptAwareAdapter : Bool) (now : Nat)
  | complete (turn : Option Nat) (now : Nat)
  | result (codexTurnId : Option JsString) (now : Nat)
  | breakSession (error : JsString) (now : Nat)
  | stage (turn : Nat) (plan : CodexTerminalHistoryReconciliation)
  | observe (turn : Nat) (historyIncorporation : Option CodexHistoryIncorporationState)
      (historyTrackingUnknown : Bool)

/-- The queue of a session and what happened to its turns: which were offered to the adapter, and
whether it accepted them; which it had accepted before they were queued; and which were completed
on their own account or by a result that names no turn. -/
structure TurnRun where
  queue : CodexTurnQueue
  offered : List (Nat × Bool)
  steered : List Nat
  dismissed : List Nat

namespace TurnRun

def step (run : TurnRun) : CodexTurnEvent → Option TurnRun
  | .enqueue turn =>
    if turn.IsQueued then some { run with queue := run.queue.enqueueCodexTurn turn }
    else if turn.IsSteered then
      some { run with
        queue := run.queue.enqueueCodexTurn turn
        steered := run.steered ++ [run.queue.turns.length] }
    else none
  | .dispatch adapter reason now =>
    let (queue, status, head, _) := run.queue.dispatchQueuedCodexTurns adapter reason now
    some { run with
      queue
      offered := run.offered ++
        if status = .noop then [] else head.toList.map fun head => (head, decide (status = .dispatched)) }
  | .acknowledge turnId receiptAwareAdapter now =>
    run.queue.getCodexTurnAwaitingAck.map fun head =>
      { run with
        queue := run.queue.modify head (·.started turnId receiptAwareAdapter now) }
  | .complete turn now =>
    some { run with
      queue := (run.queue.completeCodexTurn turn now).1
      dismissed := run.dismissed ++ turn.toList }
  | .result codexTurnId now =>
    some { run with
      queue := (run.queue.completeCodexTurnsForResult codexTurnId now).1
      dismissed := run.dismissed ++
        if (codexTurnId.filter (· ≠ [])).isSome then [] else run.queue.getCodexHeadTurn.toList }
  | .breakSession error now =>
    run.queue.getCodexHeadTurn.map fun head =>
      { run with queue := run.queue.modify head (·.blocked error now) }
  | .stage turn plan =>
    if turn ∈ run.queue.pendingCodexTurns ∧ run.queue.status turn ≠ some .completed then
      some { run with queue := run.queue.modify turn (·.staged plan) }
    else none
  | .observe turn historyIncorporation historyTrackingUnknown =>
    some { run with
      queue := run.queue.modify turn fun turn =>
        { turn with historyIncorporation, historyTrackingUnknown } }

end TurnRun

def codexTurns : Machine TurnRun CodexTurnEvent where
  start := ⟨⟨[], []⟩, [], [], []⟩
  step := TurnRun.step

end Takode.CodexTurns
