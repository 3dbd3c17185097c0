import Takode.CodexHistory.Incorporation
import Takode.Lib.JsMap
import Takode.Lib.Machine
import Mathlib.Data.List.ReduceOption

/-!
# Codex inputs and the message history

An input for Codex waits until a turn hands it out and the provider has recorded it; then it is
committed to the message history (`codex-pending-input-history.ts`). Turns are objects that are
shared with their owners, so that a turn is a number here, counted in the order in which the turns
were made.
-/

namespace Takode.CodexInputs

open CodexHistory JsString

/-! ## Inputs and the history -/

/-- An input that waits, with the contents of its follow-ups. -/
structure PendingCodexInput where
  id : JsString
  content : JsString
  historyFollowUps : List JsString := []
  needsInputReminderText : Option JsString := none
  needsInputResolutionNoticeText : Option JsString := none
deriving DecidableEq

/-- A message of the history: whether it shows that Codex is at work, and for a result the turn that
the provider tries again with it. -/
structure HistoryEntry where
  isUserMessage : Bool := true
  id : Option JsString := none
  content : JsString := []
  isLocalActivity : Bool := false
  retryOwnerId : Option JsString := none
deriving DecidableEq

/-- What the notifications say of the reminder and of the resolution notice of an input, at the time
it is committed. -/
structure Notifications where
  shouldCommitReminder : JsString → Bool := fun _ => true
  shouldCommitResolutionNotice : JsString → Bool := fun _ => true

/-- The message is a user message under this id. -/
def HistoryEntry.isUnder (entry : HistoryEntry) (id : JsString) : Bool :=
  entry.isUserMessage && entry.id = some id

namespace PendingCodexInput

def reminderId (id : JsString) : JsString := js "needs-input-reminder-" ++ id

def resolutionNoticeId (id : JsString) : JsString := js "needs-input-resolution-notice-" ++ id

def followUpId (id : JsString) (index : Nat) : JsString := id ++ js "-followup-" ++ decimal index

def reminderEntries (pending : PendingCodexInput) (notifications : Notifications) :
    List HistoryEntry :=
  match pending.needsInputReminderText.filter (· ≠ []) with
  | some text =>
    if notifications.shouldCommitReminder pending.id then
      [{ id := some (reminderId pending.id), content := text }]
    else []
  | none => []

def resolutionNoticeEntries (pending : PendingCodexInput) (notifications : Notifications) :
    List HistoryEntry :=
  match pending.needsInputResolutionNoticeText.filter (· ≠ []) with
  | some text =>
    if notifications.shouldCommitResolutionNotice pending.id then
      [{ id := some (resolutionNoticeId pending.id), content := text }]
    else []
  | none => []

def userHistoryEntry (pending : PendingCodexInput) : HistoryEntry :=
  { id := some pending.id, content := pending.content }

/-- `appendPendingInputHistoryFollowUps` -/
def followUpEntries (pending : PendingCodexInput) : List HistoryEntry :=
  pending.historyFollowUps.mapIdx fun index content =>
    { id := some (followUpId pending.id index), content }

/-- The messages that are pushed when the input is committed. -/
def historyEntries (pending : PendingCodexInput) (notifications : Notifications) :
    List HistoryEntry :=
  pending.reminderEntries notifications ++ pending.resolutionNoticeEntries notifications ++
    pending.userHistoryEntry :: pending.followUpEntries

end PendingCodexInput

/-! ## Sessions -/

inductive UserDispatchTurnTarget
  | current
  | queued
deriving DecidableEq

structure SteeredTurn extends CodexOutboundTurn where
  historyIndex : Int := -1
  turnTarget : Option UserDispatchTurnTarget := none
deriving DecidableEq

structure PendingReceiptObservation where
  turnId : JsString
  observedAt : Nat
  activityStartHistoryIndex : Nat
deriving DecidableEq

structure Receipt where
  turnId : JsString
  clientUserMessageId : JsString
  observedAt : Option Nat := none

/-- For another failure, whether its message rules out that the turn is taken up again. -/
inductive TurnSteerFailureInfo
  | noActiveTurn
  | activeTurnMismatch
  | other (blocksAutomaticCodexResumeTurnRecovery : Bool)
deriving DecidableEq

/-- A session: the turns that were ever made, those that are pending, in order, and the first
messages of the history that are not in memory any more. `tracked` lists the calls of
`trackUserMessageForTurn`, and `finalized` those of `finalizeCodexBatchBrowserHistory`, each with the
target that the turn had. -/
structure Session where
  turns : List SteeredTurn := []
  pendingCodexTurns : List Nat := []
  pendingCodexInputs : List PendingCodexInput := []
  messageHistory : List HistoryEntry := []
  frozenCount : Nat := 0
  isGenerating : Bool := false
  pendingReceiptObservations : JsMap JsString PendingReceiptObservation := ∅
  tracked : List (Nat × UserDispatchTurnTarget) := []
  finalized : List (Nat × Option UserDispatchTurnTarget) := []

namespace Session

def absoluteHistoryEnd (session : Session) : Nat :=
  session.frozenCount + session.messageHistory.length

def modify (session : Session) (turn : Nat) (f : SteeredTurn → SteeredTurn) : Session :=
  { session with turns := session.turns.modify turn f }

/-- The pending turns that satisfy `p`. -/
def pendingTurns (session : Session) (p : SteeredTurn → Bool) : List Nat :=
  session.pendingCodexTurns.filter fun turn => session.turns[turn]?.any p

/-! ## Commits -/

def commitPendingCodexInput (session : Session) (notifications : Notifications) (id : JsString) :
    Session :=
  match session.pendingCodexInputs.find? fun item => item.id = id with
  | none => session
  | some pending =>
    { session with
      pendingCodexInputs := session.pendingCodexInputs.eraseP fun item => item.id = id
      messageHistory := session.messageHistory ++ pending.historyEntries notifications }

def commitPendingCodexInputs (session : Session) (notifications : Notifications)
    (ids : List JsString) : Session :=
  ids.foldl (fun session id => session.commitPendingCodexInput notifications id) session

/-- The position of each id, that of its last user message. -/
def absoluteById (frozenCount : Nat) (messageHistory : List HistoryEntry) : JsMap JsString Nat :=
  messageHistory.zipIdx.foldl
    (fun positions (message, index) =>
      match message.id.filter (· ≠ []) with
      | some id =>
        if message.isUserMessage then positions.set id (frozenCount + index) else positions
      | none => positions) ∅

def historyIndexesForInputIds (session : Session) (inputIds : List JsString) : List (Option Nat) :=
  inputIds.map fun id => (absoluteById session.frozenCount session.messageHistory).get? id

/-- The turn with the positions of its inputs. -/
def indexed (turn : SteeredTurn) (historyIndexes : List (Option Nat)) : SteeredTurn :=
  { turn with
    toCodexOutboundTurn := turn.modifyHistory fun state => { state with historyIndexes }
    historyIndex := historyIndexes.reduceOption.head?.elim turn.historyIndex fun index => (index : Int) }

def finalizeCodexBatchBrowserHistory (session : Session) (turn : Nat) (notifications : Notifications) :
    Session :=
  match session.turns[turn]? with
  | none => session
  | some found =>
    let session := session.commitPendingCodexInputs notifications found.inputIds
    let historyIndexes := session.historyIndexesForInputIds found.inputIds
    { session.modify turn fun turn => indexed turn historyIndexes with
      tracked := session.tracked ++ found.turnTarget.elim [] fun target =>
        historyIndexes.reduceOption.map fun historyIndex => (historyIndex, target)
      finalized := session.finalized ++ [(turn, found.turnTarget)] }

/-! ## Steered turns -/

/-- A turn for inputs that are steered into a turn of the provider. -/
def steeredTurn (pendingInputIds : List JsString) (clientUserMessageId : JsString)
    (status : CodexOutboundTurnStatus) (turnId : JsString) (acknowledgedAt : Option Nat)
    (historyIncorporation : CodexHistoryIncorporationState) : SteeredTurn where
  adapterMsg := { pendingInputIds, clientUserMessageId := some clientUserMessageId }
  userMessageId := pendingInputIds.head?.getD []
  pendingInputIds := some pendingInputIds
  status
  dispatchCount := 1
  acknowledgedAt
  turnId := some turnId
  historyIncorporation := some historyIncorporation
  turnTarget := some .queued

/-- Behind the last pending turn of the provider's turn, or at the end. -/
def insertAt (session : Session) (expectedTurnId : JsString) : Nat :=
  match session.pendingCodexTurns.reverse.findIdx? fun turn =>
      session.turns[turn]?.any fun turn => turn.turnId = some expectedTurnId with
  | none => session.pendingCodexTurns.length
  | some fromEnd => session.pendingCodexTurns.length - fromEnd

def recordSubmittedCodexSteerTurn (session : Session) (expectedTurnId : JsString)
    (inputs : List PendingCodexInput) (clientUserMessageId : JsString) : Session :=
  if inputs = [] then session
  else
    let pendingInputIds := inputs.map (·.id)
    match createCodexHistoryIncorporationForClient pendingInputIds clientUserMessageId with
    | none => session
    | some historyIncorporation =>
      let turn := steeredTurn pendingInputIds clientUserMessageId .dispatched expectedTurnId none
        { historyIncorporation with providerTurnId := some expectedTurnId }
      { session with
        turns := session.turns ++ [turn]
        pendingCodexTurns :=
          session.pendingCodexTurns.insertIdx (session.insertAt expectedTurnId) session.turns.length }

/-- The turn that the provider has accepted. -/
def accepted (turn : SteeredTurn) (turnId : JsString) (now : Nat) : SteeredTurn :=
  { turn with
    toCodexOutboundTurn := markCodexHistoryRpcAccepted
      { turn.toCodexOutboundTurn with
        turnId := some turnId, status := .backendAcknowledged, acknowledgedAt := some now } turnId now }

/-- The turn hands its input out under this client id. -/
def isOfClient (turn : SteeredTurn) (clientUserMessageId : JsString) : Bool :=
  turn.historyIncorporation.map (·.clientUserMessageId) = some clientUserMessageId

def recordSteeredCodexTurn (session : Session) (turnId : JsString) (inputs : List PendingCodexInput)
    (clientUserMessageId : JsString) (now : Nat) : Session :=
  match (session.pendingTurns fun turn =>
      turn.status ≠ .completed && isOfClient turn clientUserMessageId).head? with
  | some existing => session.modify existing fun turn => accepted turn turnId now
  | none =>
    if inputs = [] then session
    else
      let pendingInputIds := inputs.map (·.id)
      match createCodexHistoryIncorporationForClient pendingInputIds clientUserMessageId with
      | none => session
      | some historyIncorporation =>
        let turn := steeredTurn pendingInputIds clientUserMessageId .backendAcknowledged turnId
          (some now) { historyIncorporation with
            providerTurnId := some turnId, rpcAcceptedAt := some now }
        { session with
          turns := session.turns ++ [turn]
          pendingCodexTurns := session.pendingCodexTurns ++ [session.turns.length] }

/-- The pending turns that the failure is about. -/
def failedSteers (session : Session) (pendingInputIds : List JsString)
    (clientUserMessageId : Option JsString) : List Nat :=
  session.pendingTurns fun turn =>
    turn.status = .dispatched && turn.historyIncorporation.isSome &&
      (clientUserMessageId.filter (· ≠ [])).all (isOfClient turn) && turn.inputIds = pendingInputIds

/-- The provider has the input recorded. -/
def isRecorded (turn : SteeredTurn) : Bool :=
  turn.historyIncorporation.any fun state => state.recordedAt.isSome

/-- The provider has turned the steer down, and nothing of it is recorded. -/
def isReleased (turn : SteeredTurn) (failure : Option TurnSteerFailureInfo) : Bool :=
  (failure = some .noActiveTurn || failure = some .activeTurnMismatch) && !isRecorded turn

def isTerminalFailure (failure : Option TurnSteerFailureInfo) : Bool := failure = some (.other true)

/-- What is to be found out of a steered turn that has failed. -/
def steerFailurePlan (recorded terminalFailure : Bool) (now : Nat) :
    CodexTerminalHistoryReconciliation where
  presence := if recorded then .present else .unknown
  reason := if terminalFailure then js "turn_steer_failed_terminal_error"
    else if recorded then js "turn_steer_failed_after_history_receipt"
    else js "turn_steer_failed_before_history_receipt"
  action := if terminalFailure then .actionRequired else .continue
  continuationMode := if terminalFailure then none else some .verifyThenContinue
  classifiedAt := now

def staged (turn : SteeredTurn) (plan : CodexTerminalHistoryReconciliation) : SteeredTurn where
  toCodexOutboundTurn := stageCodexTerminalHistoryReconciliation turn.toCodexOutboundTurn plan
  historyIndex := turn.historyIndex
  turnTarget := none

def reconcileSubmittedCodexSteerFailure (session : Session) (pendingInputIds : List JsString)
    (clientUserMessageId : Option JsString) (failure : Option TurnSteerFailureInfo) (now : Nat)
    (notifications : Notifications) : Session :=
  match session.failedSteers pendingInputIds clientUserMessageId with
  | [turn] =>
    match session.turns[turn]? with
    | none => session
    | some found =>
      if isReleased found failure then
        { session with pendingCodexTurns := session.pendingCodexTurns.erase turn }
      else
        (session.finalizeCodexBatchBrowserHistory turn notifications).modify turn fun turn =>
          staged turn (steerFailurePlan (isRecorded found) (isTerminalFailure failure) now)
  | _ => session

/-! ## Receipts -/

/-- `promoteReceiptProvenSameTurnSteerToCurrent` -/
def promoteReceiptProvenSameTurnSteerToCurrent (session : Session) (turn : Nat)
    (providerTurnId : JsString) : Session :=
  if session.turns[turn]?.any (fun turn => turn.turnTarget = some .queued) && session.isGenerating &&
      (session.pendingTurns fun candidate => candidate.status ≠ .completed &&
        candidate.turnTarget = some .current && candidate.turnId = some providerTurnId).any
          fun candidate => candidate ≠ turn then
    session.modify turn fun turn => { turn with turnTarget := some .current }
  else session

def markRecorded (turn : SteeredTurn) (activityStartHistoryIndex recordedAt : Nat) : SteeredTurn :=
  { turn with
    toCodexOutboundTurn := markCodexHistoryRecorded turn.toCodexOutboundTurn .live
      (some activityStartHistoryIndex) recordedAt }

/-- `PENDING_RECEIPT_OBSERVATION_LIMIT` -/
def pendingReceiptObservationLimit : Nat := 512

/-- The newest entries of a map, so many. -/
def newest {α : Type} (limit : Nat) (observations : JsMap JsString α) : JsMap JsString α where
  entries := observations.entries.drop (observations.size - limit)
  nodup := by
    rw [List.map_drop]
    exact observations.nodup.sublist (List.drop_sublist _ _)

/-- The receipt is remembered; the first of its client id stays. -/
def observe (session : Session) (receipt : Receipt) (now : Nat) : Session :=
  { session with
    pendingReceiptObservations := newest pendingReceiptObservationLimit <|
      if session.pendingReceiptObservations.has receipt.clientUserMessageId then
        session.pendingReceiptObservations
      else session.pendingReceiptObservations.set receipt.clientUserMessageId {
        turnId := receipt.turnId
        observedAt := receipt.observedAt.getD now
        activityStartHistoryIndex := session.absoluteHistoryEnd } }

/-- The pending turns that an observed receipt can be of. -/
def observedTurns (session : Session) (receipt : Receipt) : List Nat :=
  session.pendingTurns fun turn =>
    turn.status ≠ .completed && turn.terminalHistoryReconciliation.isNone &&
      isOfClient turn receipt.clientUserMessageId &&
      (turn.historyIncorporation.bind (·.providerTurnId)).all
        (fun id => id = [] || id = receipt.turnId) &&
      turn.turnId.all fun id => id = [] || id = receipt.turnId

/-- The turn of the receipt, named after it where it had no name. -/
def named (turn : SteeredTurn) (turnId : JsString) : SteeredTurn :=
  { turn with
    toCodexOutboundTurn :=
      { turn.toCodexOutboundTurn with turnId := turn.turnId.or (some turnId) }.modifyHistory fun state =>
        { state with providerTurnId := state.providerTurnId.or (some turnId) } }

def recordCodexHistoryReceiptObservation (session : Session) (receipt : Receipt) (now : Nat)
    (notifications : Notifications) : Session :=
  let session := session.observe receipt now
  match session.observedTurns receipt with
  | [turn] =>
    -- the observation of the receipt itself is never among those that are dropped
    match session.pendingReceiptObservations.get? receipt.clientUserMessageId with
    | none => session
    | some observation =>
      let session := session.modify turn fun turn => named turn receipt.turnId
      let session := session.promoteReceiptProvenSameTurnSteerToCurrent turn receipt.turnId
      (session.finalizeCodexBatchBrowserHistory turn notifications).modify turn fun turn =>
        markRecorded turn observation.activityStartHistoryIndex observation.observedAt
  | _ => session

/-- The accepted turns that a receipt is of. -/
def receivedTurns (session : Session) (receipt : Receipt) : List Nat :=
  session.pendingTurns fun turn =>
    turn.status = .backendAcknowledged && turn.terminalHistoryReconciliation.isNone &&
      isOfClient turn receipt.clientUserMessageId &&
      turn.historyIncorporation.bind (·.providerTurnId) = some receipt.turnId &&
      turn.turnId = some receipt.turnId

/-- What has happened since: `summarizeLocalCodexDeliveryActivityFrom` counts something. -/
def hasActivityFrom (session : Session) (startHistoryIndex : Nat) (ownerId : JsString) : Bool :=
  (session.messageHistory.drop (startHistoryIndex - session.frozenCount)).any fun message =>
    message.retryOwnerId ≠ some ownerId && message.isLocalActivity

def recordCodexHistoryIncorporationReceipt (session : Session) (receipt : Receipt) (now : Nat)
    (notifications : Notifications) : Session :=
  match session.receivedTurns receipt with
  | [turn] =>
    let observation := session.pendingReceiptObservations.get? receipt.clientUserMessageId
    let session := { session with
      pendingReceiptObservations :=
        session.pendingReceiptObservations.delete receipt.clientUserMessageId }
    let activityStartHistoryIndex :=
      (observation.map (·.activityStartHistoryIndex)).getD session.absoluteHistoryEnd
    let session := session.promoteReceiptProvenSameTurnSteerToCurrent turn receipt.turnId
    let session := session.finalizeCodexBatchBrowserHistory turn notifications
    let session := session.modify turn fun turn => markRecorded turn activityStartHistoryIndex
      (((observation.map (·.observedAt)).or receipt.observedAt).getD now)
    session.modify turn fun turn =>
      if session.hasActivityFrom activityStartHistoryIndex turn.userMessageId then
        { turn with providerReplayUnsafeActivityObserved := true }
      else turn
  | _ => session

/-! ## The operations, in any order -/

/-- An operation, with the time and what the notifications say. -/
inductive Operation
  | recordSubmittedCodexSteerTurn (expectedTurnId : JsString) (inputs : List PendingCodexInput)
      (clientUserMessageId : JsString)
  | recordSteeredCodexTurn (turnId : JsString) (inputs : List PendingCodexInput)
      (clientUserMessageId : JsString) (now : Nat)
  | recordCodexHistoryReceiptObservation (receipt : Receipt) (now : Nat)
      (notifications : Notifications)
  | recordCodexHistoryIncorporationReceipt (receipt : Receipt) (now : Nat)
      (notifications : Notifications)
  | reconcileSubmittedCodexSteerFailure (pendingInputIds : List JsString)
      (clientUserMessageId : Option JsString) (failure : Option TurnSteerFailureInfo) (now : Nat)
      (notifications : Notifications)
  | finalizeCodexBatchBrowserHistory (turn : Nat) (notifications : Notifications)

def apply (session : Session) : Operation → Session
  | .recordSubmittedCodexSteerTurn expectedTurnId inputs clientUserMessageId =>
    session.recordSubmittedCodexSteerTurn expectedTurnId inputs clientUserMessageId
  | .recordSteeredCodexTurn turnId inputs clientUserMessageId now =>
    session.recordSteeredCodexTurn turnId inputs clientUserMessageId now
  | .recordCodexHistoryReceiptObservation receipt now notifications =>
    session.recordCodexHistoryReceiptObservation receipt now notifications
  | .recordCodexHistoryIncorporationReceipt receipt now notifications =>
    session.recordCodexHistoryIncorporationReceipt receipt now notifications
  | .reconcileSubmittedCodexSteerFailure pendingInputIds clientUserMessageId failure now notifications =>
    session.reconcileSubmittedCodexSteerFailure pendingInputIds clientUserMessageId failure now
      notifications
  | .finalizeCodexBatchBrowserHistory turn notifications =>
    session.finalizeCodexBatchBrowserHistory turn notifications

def machine (start : Session) : Machine Session Operation where
  start
  step session operation := some (session.apply operation)

end Session

end Takode.CodexInputs
