import Takode.Lib.FreshNames
import Takode.Lib.Json

/-!
# Sweeping the backlog of a paused session

Pending inputs and turns of a session whose automatic inputs are paused after result errors, and how
its backlog is held (`codex-result-error-auto-pause.ts`).
-/

namespace Takode.AutoPause

open JsString

inductive CodexAutoPauseInputSourceKind where
  | manual
  | automatic
deriving DecidableEq

inductive PausedInboundSource where
  | browser
  | programmatic
deriving DecidableEq

def PausedInboundSource.text : PausedInboundSource → JsString
  | browser => js "browser"
  | programmatic => js "programmatic"

structure CodexAutoPauseRecoveryLink where
  summaryId : JsString
  groupId : JsString
deriving DecidableEq

/-- A message of a browser. The properties that are only handed on are one value. -/
structure BrowserUserMessage where
  content : JsString
  deliveryContent : Option JsString
  vscodeSelection : Option JsonValue
  inputSource : Option JsString
  autoPauseSourceKind : Option CodexAutoPauseInputSourceKind
  autoPauseRecoveries : List CodexAutoPauseRecoveryLink
  agentSessionId : Option JsString
  herdEventKeys : Option (List JsString)
  threadKey : Option JsString
  questId : Option JsString
  handedOn : JsonValue
deriving DecidableEq

structure PendingCodexInput where
  id : JsString
  content : JsString
  cancelable : Bool
  deliveryFailed : Bool
  requireFreshSuccessor : Bool
  deliveryContent : Option JsString
  vscodeSelection : Option JsonValue
  autoPauseSourceKind : Option CodexAutoPauseInputSourceKind
  autoPauseRecoveries : List CodexAutoPauseRecoveryLink
  agentSessionId : Option JsString
  herdEventKeys : Option (List JsString)
  threadKey : Option JsString
  questId : Option JsString
  handedOn : JsonValue
deriving DecidableEq

structure CodexAutoPauseHeldInput where
  id : JsString
  queuedAt : Nat
  lastQueuedAt : Nat
  source : PausedInboundSource
  message : BrowserUserMessage
  count : Nat
  counted : 0 < count
deriving DecidableEq

/-- `codex_result_error_auto_pause`; it is active if it has a time that is not 0. -/
structure CodexResultErrorAutoPauseState where
  pausedAt : Option Nat
  heldInputs : List CodexAutoPauseHeldInput
deriving DecidableEq

inductive CodexOutboundTurnStatus where
  | queued
  | recovery_pending
  | dispatched
  | backend_acknowledged
  | completed
  | blocked_broken_session
deriving DecidableEq

inductive CodexProviderRecoveryFamily where
  | model_backend_stream_error
  | copilot_auth_refresh_invalidated
deriving DecidableEq

structure CodexPendingBatchInput where
  content : JsString
  vscodeSelection : Option JsonValue
deriving DecidableEq

inductive CodexAdapterMessage where
  | codex_start_pending (pendingInputIds : List JsString) (inputs : List CodexPendingBatchInput)
      (clientUserMessageId : Option JsString)
  | other (message : JsonValue)
deriving DecidableEq

structure CodexHistoryIncorporationState where
  batchId : JsString
  inputIds : List JsString
  historyIndexes : List (Option Nat)
  attempt : Nat
  clientUserMessageId : JsString
  providerTurnId : Option JsString
  rpcAcceptedAt : Option Nat
  recordedAt : Option Nat
  recordedSource : Option JsString
  activityStartHistoryIndex : Option Nat
deriving DecidableEq

structure CodexOutboundTurn where
  adapterMsg : CodexAdapterMessage
  userMessageId : JsString
  pendingInputIds : Option (List JsString)
  userContent : JsString
  status : CodexOutboundTurnStatus
  dispatchCount : Nat
  updatedAt : Nat
  acknowledgedAt : Option Nat
  lastError : Option JsString
  turnId : Option JsString
  autoPauseSourceKind : Option CodexAutoPauseInputSourceKind
  autoPauseRecoveryLinks : Option (List CodexAutoPauseRecoveryLink)
  providerRecoveryFamily : Option CodexProviderRecoveryFamily
  historyIncorporation : Option CodexHistoryIncorporationState
  historyTrackingUnknown : Bool
  terminalHistoryReconciliation : Option JsonValue
  requiresFreshSuccessor : Bool
deriving DecidableEq

structure Session where
  autoPause : Option CodexResultErrorAutoPauseState
  pendingCodexInputs : List PendingCodexInput
  pendingCodexTurns : List CodexOutboundTurn
deriving DecidableEq

structure SweepResult where
  changed : Bool
  heldInputCount : Nat
  heldInputIds : List JsString
deriving DecidableEq

/-! ## Held inputs -/

/-- The message has a kind, or comes from the composer; it is automatic in every other case. -/
def determineUserMessageSourceKind (msg : BrowserUserMessage) : CodexAutoPauseInputSourceKind :=
  match msg.autoPauseSourceKind with
  | some kind => kind
  | none => if msg.inputSource = some (js "composer") then .manual else .automatic

/-- An input's message names no `inputSource`, so it is automatic unless it has a kind. -/
def determineCodexInputSourceKind (input : PendingCodexInput) : CodexAutoPauseInputSourceKind :=
  match input.autoPauseSourceKind with
  | some kind => kind
  | none => determineUserMessageSourceKind
      { content := input.content, deliveryContent := none, vscodeSelection := none, inputSource := none
        autoPauseSourceKind := none, autoPauseRecoveries := [], agentSessionId := input.agentSessionId
        herdEventKeys := input.herdEventKeys, threadKey := none, questId := none, handedOn := .null }

def determineCodexTurnSourceKind (inputs : List PendingCodexInput) : CodexAutoPauseInputSourceKind :=
  if inputs = [] then .automatic
  else if inputs.all fun input => determineCodexInputSourceKind input = .manual then .manual
  else .automatic

def pendingCodexInputToAutoPauseMessage (input : PendingCodexInput) : BrowserUserMessage where
  content := input.content
  deliveryContent := input.deliveryContent.filter (· ≠ [])
  vscodeSelection := input.vscodeSelection
  inputSource := none
  autoPauseSourceKind := input.autoPauseSourceKind
  autoPauseRecoveries := input.autoPauseRecoveries
  agentSessionId := input.agentSessionId
  herdEventKeys := input.herdEventKeys
  threadKey := input.threadKey.filter (· ≠ [])
  questId := input.questId.filter (· ≠ [])
  handedOn := input.handedOn

/-- Links without those whose joined ids came before. -/
def dedupeLinks (links : List CodexAutoPauseRecoveryLink) : List CodexAutoPauseRecoveryLink :=
  (links.foldl (fun (seen : List JsString × List CodexAutoPauseRecoveryLink) link =>
    let key := link.summaryId ++ [0] ++ link.groupId
    if key ∈ seen.1 then seen else (key :: seen.1, seen.2 ++ [link])) ([], [])).2

def mergeRecoveryLinks (left right : List CodexAutoPauseRecoveryLink) :
    List CodexAutoPauseRecoveryLink := dedupeLinks (left ++ right)

def codexAutoPauseCoalesceKey (source : PausedInboundSource) (message : BrowserUserMessage) : JsString :=
  [0].intercalate [source.text, message.agentSessionId.getD [],
    (message.threadKey.or message.questId).getD [],
    ([44].intercalate (message.herdEventKeys.getD [])), trim message.content]

def CodexAutoPauseHeldInput.key (item : CodexAutoPauseHeldInput) : JsString :=
  codexAutoPauseCoalesceKey item.source item.message

/-- The item that takes in one more message. -/
def CodexAutoPauseHeldInput.coalesce (item : CodexAutoPauseHeldInput) (message : BrowserUserMessage)
    (now : Nat) : CodexAutoPauseHeldInput :=
  { item with
    count := item.count + 1
    counted := Nat.succ_pos _
    lastQueuedAt := now
    message := { message with
      autoPauseRecoveries :=
        mergeRecoveryLinks item.message.autoPauseRecoveries message.autoPauseRecoveries } }

/-- The list whose first item of a key takes in one more message. -/
def coalesceFirst (key : JsString) (message : BrowserUserMessage) (now : Nat) :
    List CodexAutoPauseHeldInput → List CodexAutoPauseHeldInput
  | [] => []
  | item :: rest =>
    if item.key = key then item.coalesce message now :: rest
    else item :: coalesceFirst key message now rest

/-- `codex-auto-pause-${now}-${ordinal}`, for the first ordinal that is free. -/
def freshHeldId (heldInputs : List CodexAutoPauseHeldInput) (now : Nat) : JsString :=
  let base := js "codex-auto-pause-" ++ decimal now
  nextFree (fun id => heldInputs.any fun item => item.id = id) base (heldInputs.length + 1)
    (heldInputs.length + 2) (suffixed base (heldInputs.length + 1))

def queueCodexAutoPausedInput (heldInputs : List CodexAutoPauseHeldInput)
    (source : PausedInboundSource)    (message : BrowserUserMessage) (now : Nat) : List CodexAutoPauseHeldInput :=
  let key := codexAutoPauseCoalesceKey source message
  if heldInputs.any fun item => item.key = key then coalesceFirst key message now heldInputs
  else heldInputs ++
    [{ id := freshHeldId heldInputs now, queuedAt := now, lastQueuedAt := now, source, message
       count := 1, counted := Nat.one_pos }]

def getCodexAutoPauseHeldInputCount (heldInputs : List CodexAutoPauseHeldInput) : Nat :=
  (heldInputs.map fun item => max 1 item.count).sum

/-! ## Turns -/

namespace CodexOutboundTurn

variable (turn : CodexOutboundTurn)

/-- `turn.pendingInputIds ?? [turn.userMessageId]`. -/
def inputIds : List JsString := turn.pendingInputIds.getD [turn.userMessageId]

/-- The inputs of such a turn are not to be held. -/
def isRecoverySensitive : Bool :=
  turn.historyTrackingUnknown || turn.requiresFreshSuccessor ||
    turn.historyIncorporation.any (·.attempt = 1) || 0 < turn.dispatchCount ||
    turn.acknowledgedAt.isSome || turn.historyIncorporation.any (·.rpcAcceptedAt.isSome) ||
    turn.historyIncorporation.any (·.recordedAt.isSome) || turn.status = .recovery_pending ||
    turn.terminalHistoryReconciliation.isSome

def isCodexStartPending : Bool :=
  match turn.adapterMsg with
  | .codex_start_pending .. => true
  | .other _ => false

def isQueuedCodexStartPendingTurn : Bool :=
  (turn.status = .queued || turn.status = .blocked_broken_session) && !turn.historyTrackingUnknown &&
    turn.dispatchCount = 0 && turn.acknowledgedAt.isNone && turn.turnId.isNone &&
    turn.isCodexStartPending && turn.providerRecoveryFamily.isNone &&
    !turn.historyIncorporation.any (·.rpcAcceptedAt.isSome) &&
    !turn.historyIncorporation.any (·.recordedAt.isSome)

/-- `ids.map((id) => pendingById.get(id))`, where the last input of an id counts. -/
def retainedInputs (pending : List PendingCodexInput) : List PendingCodexInput :=
  turn.inputIds.filterMap fun id => pending.reverse.find? fun input => input.id = id

end CodexOutboundTurn

def createCodexHistoryIncorporation (uuid : JsString) (inputIds : List JsString) :
    CodexHistoryIncorporationState :=
  let batchId := uuid ++ js "-" ++ inputIds.head?.getD (js "batch")
  { batchId
    inputIds
    historyIndexes := inputIds.map fun _ => none
    attempt := 0
    clientUserMessageId := batchId ++ js ":0"
    providerTurnId := none
    rpcAcceptedAt := none
    recordedAt := none
    recordedSource := none
    activityStartHistoryIndex := none }

/-- `input.deliveryContent || input.content`. -/
def PendingCodexInput.sentContent (input : PendingCodexInput) : JsString :=
  (input.deliveryContent.filter (· ≠ [])).getD input.content

def buildQueuedCodexBatchMessageInputs (inputs : List PendingCodexInput) : List CodexPendingBatchInput :=
  inputs.map fun input => ⟨input.sentContent, input.vscodeSelection⟩

def buildQueuedCodexPendingBatchText (inputs : List PendingCodexInput) : JsString :=
  (js "\n\n").intercalate ((inputs.map (·.sentContent)).filter (· ≠ []))

def collectCodexAutoPauseRecoveryLinks (inputs : List PendingCodexInput) :
    Option (List CodexAutoPauseRecoveryLink) :=
  let links := dedupeLinks (inputs.flatMap (·.autoPauseRecoveries))
  if links = [] then none else some links

/-- The turn of the inputs that are left. -/
def CodexOutboundTurn.shorten (turn : CodexOutboundTurn) (first : PendingCodexInput)
    (rest : List PendingCodexInput) (updatedAt : Nat) (uuid : JsString) : CodexOutboundTurn :=
  let retained := first :: rest
  let inputIds := retained.map (·.id)
  let historyIncorporation := createCodexHistoryIncorporation uuid inputIds
  { turn with
    adapterMsg := .codex_start_pending inputIds (buildQueuedCodexBatchMessageInputs retained)
      (some historyIncorporation.clientUserMessageId)
    userMessageId := first.id
    pendingInputIds := some inputIds
    userContent := buildQueuedCodexPendingBatchText retained
    autoPauseSourceKind := some (determineCodexTurnSourceKind retained)
    autoPauseRecoveryLinks := collectCodexAutoPauseRecoveryLinks retained
    historyIncorporation := some historyIncorporation
    historyTrackingUnknown := false
    requiresFreshSuccessor := retained.any (·.requireFreshSuccessor)
    updatedAt
    lastError := none }

/-- Whether the turn names an input that is not pending, and is not yet started. -/
def CodexOutboundTurn.isPruned (turn : CodexOutboundTurn) (pending : List PendingCodexInput) : Bool :=
  turn.isQueuedCodexStartPendingTurn && (turn.retainedInputs pending).length ≠ turn.inputIds.length

/-- One round of the loop of `pruneHeldQueuedCodexStartPendingTurns`. -/
def CodexOutboundTurn.prune (turn : CodexOutboundTurn) (pending : List PendingCodexInput)
    (updatedAt : Nat) (uuid : JsString) : Option CodexOutboundTurn :=
  if turn.isPruned pending then
    match turn.retainedInputs pending with
    | [] => none
    | first :: rest => some (turn.shorten first rest updatedAt uuid)
  else some turn

/-! ## Sessions -/

namespace PendingCodexInput

def isEligibleQueuedAutomaticCodexInput (input : PendingCodexInput) : Bool :=
  !input.deliveryFailed && input.cancelable && determineCodexInputSourceKind input = .automatic

/-- The input may be held, unless its turn forbids it. -/
def isHoldable (input : PendingCodexInput) : Bool :=
  input.isEligibleQueuedAutomaticCodexInput && !input.requireFreshSuccessor

end PendingCodexInput

namespace Session

variable (session : Session)

def getActiveCodexResultErrorAutoPause : Option CodexResultErrorAutoPauseState :=
  session.autoPause.filter fun state => state.pausedAt.getD 0 ≠ 0

def recoverySensitiveInputIds : List JsString :=
  (session.pendingCodexTurns.filter (·.isRecoverySensitive)).flatMap (·.inputIds)

/-- The input is held by a sweep. -/
def isSwept (input : PendingCodexInput) : Bool :=
  input.isHoldable && decide (input.id ∉ session.recoverySensitiveInputIds)

def sweptInputs : List PendingCodexInput := session.pendingCodexInputs.filter session.isSwept

def remainingInputs : List PendingCodexInput :=
  session.pendingCodexInputs.filter fun input => !session.isSwept input

/-- The sweep at a time; `randomUUID` gives what the call for each turn returns. -/
def sweepCodexAutoPausedQueuedBacklog (now updatedAt : Nat) (randomUUID : Nat → JsString) :
    Session × SweepResult :=
  match session.getActiveCodexResultErrorAutoPause with
  | none => (session, ⟨false, 0, []⟩)
  | some state =>
    let heldInputIds := session.sweptInputs.map (·.id)
    let heldInputs := session.sweptInputs.foldl (fun heldInputs input =>
      queueCodexAutoPausedInput heldInputs .programmatic
        (pendingCodexInputToAutoPauseMessage input) now) state.heldInputs
    let prunedQueuedTurns := session.pendingCodexTurns.any (·.isPruned session.remainingInputs)
    ({ autoPause := some { state with heldInputs }
       pendingCodexInputs := session.remainingInputs
       pendingCodexTurns := session.pendingCodexTurns.zipIdx.filterMap fun entry =>
         entry.1.prune session.remainingInputs updatedAt (randomUUID entry.2) },
      ⟨decide (heldInputIds ≠ []) || prunedQueuedTurns, heldInputIds.length, heldInputIds⟩)

end Session

end Takode.AutoPause
