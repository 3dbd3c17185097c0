import Takode.CodexHistory.Incorporation
import Takode.Lib.Machine

/-!
# Sessions

The turns of a session that are not done yet, first in first out, and what is done with
them (`codex-evidence-aware-resume.ts`, `codex-terminal-history-reconciliation.ts`,
`codex-turn-queue.ts`, `codex-pending-input-history.ts`). Each turn has a log of what
happened to its input. What the rest of the session decides (which recovery is in charge,
whose inputs a failed recovery takes out, what the message history holds) is an input.
-/

namespace Takode.CodexHistory

open JsString

/-- What happened to the input of a turn. A classification has the turn that was named and the client
id of the time. -/
inductive Happening
  | handedOut (clientUserMessageId : Option JsString)
  | classified (snapshot : CodexResumeSnapshot) (turnId : Option JsString)
      (clientUserMessageId : JsString) (presence : CodexHistoryPresence)
  | recorded
deriving DecidableEq

structure PendingTurn where
  turn : CodexOutboundTurn
  log : List Happening := []
deriving DecidableEq

namespace PendingTurn

def modify (pending : PendingTurn) (f : CodexOutboundTurn → CodexOutboundTurn) : PendingTurn :=
  { pending with turn := f pending.turn }

/-- The adapter takes the message. -/
def handOut (pending : PendingTurn) : PendingTurn :=
  { pending with log := pending.log ++ [.handedOut pending.turn.adapterMsg.clientUserMessageId] }

def classify (pending : PendingTurn) (snapshot : CodexResumeSnapshot)
    (presence : CodexHistoryPresence) : PendingTurn :=
  { pending with log := pending.log ++ (pending.turn.historyIncorporation.map fun state =>
      Happening.classified snapshot pending.turn.namedTurnId state.clientUserMessageId
        presence).toList }

def record (pending : PendingTurn) (source : RecordedSource)
    (activityStartHistoryIndex : Option Nat) (recordedAt : Nat) : PendingTurn :=
  ⟨markCodexHistoryRecorded pending.turn source activityStartHistoryIndex recordedAt,
    pending.log ++ [.recorded]⟩

end PendingTurn

abbrev PendingCodexTurns := List PendingTurn

/-! ## The queue -/

def removeCompletedCodexTurns (turns : PendingCodexTurns) : PendingCodexTurns :=
  turns.dropWhile fun pending => pending.turn.status = .completed

/-- The first turn is done; untracked turns that share its turn of the provider are too. -/
def completeCodexTurn : PendingCodexTurns → PendingCodexTurns
  | [] => []
  | head :: rest =>
    let done (pending : PendingTurn) : PendingTurn :=
      pending.modify fun turn => { turn with status := .completed }
    removeCompletedCodexTurns <| done head :: rest.map fun pending =>
      if head.turn.historyIncorporation.isNone && head.turn.turnId.any (· ≠ []) &&
          pending.turn.historyIncorporation.isNone && pending.turn.turnId = head.turn.turnId then
        done pending
      else pending

/-- Whose inputs a recovery that has failed takes out of the queue, the ids for new tracking, and the
time. -/
structure Owners where
  ids : List JsString
  sourceOwned : CodexOutboundTurn → Bool := fun _ => false
  uuid : CodexOutboundTurn → JsString
  now : Nat

/-- What is left of a turn. -/
def Owners.retire (owners : Owners) (turn : CodexOutboundTurn) : Option CodexOutboundTurn :=
  let ids := turn.inputIds
  let remainingIds := ids.filter fun id => id ∉ owners.ids
  if turn.status = .completed then none
  else if remainingIds.length = ids.length && !owners.sourceOwned turn then some turn
  else if remainingIds.isEmpty || turn.adapterMsg.type = .userMessage then none
  else
    let userMessageId := remainingIds.head?.getD []
    if isCodexTurnProvablyNeverDispatched turn then
      some { turn.track (owners.uuid turn) remainingIds with userMessageId }
    else some { turn with
      adapterMsg := { turn.adapterMsg with pendingInputIds := remainingIds }
      pendingInputIds := some remainingIds
      userMessageId
      historyIncorporation := none
      historyTrackingUnknown := true
      status := .recoveryPending
      terminalHistoryReconciliation := some {
        presence := .unknown
        reason := js "recovery_owner_split"
        action := .continue
        continuationMode := some .verifyThenContinue
        classifiedAt := owners.now } }

/-- `retireCodexTurnRecoveryOwners`, where a recovery has failed. -/
def retireCodexTurnRecoveryOwners (owners : Option Owners) (turns : PendingCodexTurns) :
    PendingCodexTurns :=
  owners.elim turns fun owners => turns.filterMap fun pending =>
    (owners.retire pending.turn).map fun turn => { pending with turn }

/-! ## Acceptances and receipts -/

/-- `onTurnStarted`, for the turn that awaits its acknowledgement. -/
def onTurnStarted (turnId : JsString) (receiptAwareAdapter : Bool) (now : Nat) :
    PendingCodexTurns → PendingCodexTurns
  | [] => []
  | pending :: rest =>
    if pending.turn.status = .dispatched then
      let accepted := pending.modify fun turn => markCodexHistoryRpcAccepted
        { turn with turnId := some turnId, status := .backendAcknowledged, acknowledgedAt := some now }
        turnId now
      (if receiptAwareAdapter then accepted
        else accepted.modify fun turn => { turn with historyIncorporation := none }) :: rest
    else pending :: rest

/-- The first turn that satisfies `p` is changed, if there is one. -/
def modifyFirst (p : PendingTurn → Bool) (f : PendingTurn → PendingTurn) :
    PendingCodexTurns → Option PendingCodexTurns
  | [] => none
  | pending :: rest =>
    if p pending then some (f pending :: rest) else (modifyFirst p f rest).map (pending :: ·)

/-- The only turn that satisfies `p` is changed. -/
def modifyOnly (p : PendingTurn → Bool) (f : PendingTurn → PendingTurn) (turns : PendingCodexTurns) :
    PendingCodexTurns :=
  if (turns.filter p).length = 1 then turns.map fun pending => if p pending then f pending else pending
  else turns

/-- A turn for inputs that were steered into a turn of the provider. -/
def steeredTurn (inputIds : List JsString) (state : CodexHistoryIncorporationState)
    (status : CodexOutboundTurnStatus) (turnId : JsString) (acknowledgedAt : Option Nat) :
    PendingTurn :=
  PendingTurn.handOut ⟨{
    adapterMsg := {
      pendingInputIds := inputIds
      clientUserMessageId := some state.clientUserMessageId }
    userMessageId := inputIds.head?.getD []
    pendingInputIds := some inputIds
    status
    dispatchCount := 1
    acknowledgedAt
    turnId := some turnId
    historyIncorporation := some { state with
      providerTurnId := some turnId
      rpcAcceptedAt := acknowledgedAt } }, []⟩

/-- A turn after the last one of the same turn of the provider, or at the end. -/
def insertAfterTurn (turnId : JsString) (turn : PendingTurn) (turns : PendingCodexTurns) :
    PendingCodexTurns :=
  let back := turns.reverse.findIdx? fun pending => pending.turn.turnId = some turnId
  let insertAt := turns.length - back.getD 0
  turns.take insertAt ++ turn :: turns.drop insertAt

def recordSubmittedCodexSteerTurn (expectedTurnId : JsString) (inputIds : List JsString)
    (clientUserMessageId : JsString) (turns : PendingCodexTurns) : PendingCodexTurns :=
  if inputIds = [] then turns
  else match createCodexHistoryIncorporationForClient inputIds clientUserMessageId with
  | some state =>
    insertAfterTurn expectedTurnId (steeredTurn inputIds state .dispatched expectedTurnId none) turns
  | none => turns

/-- The turn whose input was steered under a client id. -/
def isSteered (clientUserMessageId : JsString) (pending : PendingTurn) : Bool :=
  pending.turn.status ≠ .completed &&
    (pending.turn.historyIncorporation.map (·.clientUserMessageId)) = some clientUserMessageId

def recordSteeredCodexTurn (turnId : JsString) (inputIds : List JsString)
    (clientUserMessageId : JsString) (now : Nat) (turns : PendingCodexTurns) : PendingCodexTurns :=
  match modifyFirst (isSteered clientUserMessageId) (fun pending => pending.modify fun turn =>
      markCodexHistoryRpcAccepted
        { turn with turnId := some turnId, status := .backendAcknowledged, acknowledgedAt := some now }
        turnId now) turns with
  | some turns => turns
  | none =>
    if inputIds = [] then turns
    else match createCodexHistoryIncorporationForClient inputIds clientUserMessageId with
    | some state => turns ++ [steeredTurn inputIds state .backendAcknowledged turnId (some now)]
    | none => turns

/-- `finalizeCodexBatchBrowserHistory`: where the inputs are in the message history. -/
def finalizeBatchHistory (indexes : JsString → Option Nat) (turn : CodexOutboundTurn) :
    CodexOutboundTurn :=
  turn.modifyHistory fun state => { state with historyIndexes := turn.inputIds.map indexes }

/-- The provider has recorded the item of a client id in a turn. -/
structure Receipt where
  turnId : JsString
  clientUserMessageId : JsString
  observedAt : Nat
  activityStartHistoryIndex : Nat

/-- The turns whose input a receipt is of. -/
def Receipt.observes (receipt : Receipt) (pending : PendingTurn) : Bool :=
  pending.turn.status ≠ .completed && pending.turn.terminalHistoryReconciliation.isNone &&
  pending.turn.historyIncorporation.any fun state =>
    state.clientUserMessageId = receipt.clientUserMessageId &&
    state.providerTurnId.all (fun id => id = [] || id = receipt.turnId) &&
    pending.turn.turnId.all fun id => id = [] || id = receipt.turnId

def recordCodexHistoryReceiptObservation (receipt : Receipt) (indexes : JsString → Option Nat)
    (turns : PendingCodexTurns) : PendingCodexTurns :=
  modifyOnly receipt.observes (fun pending =>
    let named := pending.modify fun turn => CodexOutboundTurn.modifyHistory
      { turn with turnId := turn.turnId.or (some receipt.turnId) } fun state =>
        { state with providerTurnId := state.providerTurnId.or (some receipt.turnId) }
    (named.modify (finalizeBatchHistory indexes)).record .live
      (some receipt.activityStartHistoryIndex) receipt.observedAt) turns

/-- The acknowledged turns whose input a receipt is of. -/
def Receipt.incorporates (receipt : Receipt) (pending : PendingTurn) : Bool :=
  pending.turn.status = .backendAcknowledged && pending.turn.terminalHistoryReconciliation.isNone &&
  pending.turn.turnId = some receipt.turnId &&
  pending.turn.historyIncorporation.any fun state =>
    state.clientUserMessageId = receipt.clientUserMessageId &&
    state.providerTurnId = some receipt.turnId

def recordCodexHistoryIncorporationReceipt (receipt : Receipt) (indexes : JsString → Option Nat)
    (activityObserved : Bool) (turns : PendingCodexTurns) : PendingCodexTurns :=
  modifyOnly receipt.incorporates (fun pending =>
    ((pending.modify (finalizeBatchHistory indexes)).record .live
      (some receipt.activityStartHistoryIndex) receipt.observedAt).modify fun turn =>
        { turn with providerReplayUnsafeActivityObserved :=
            turn.providerReplayUnsafeActivityObserved || activityObserved }) turns

/-! ## Staged plans -/

/-- What the rest of the session says of the first turn of the queue: a failed recovery that owns it,
whether another recovery is in charge, and what a recovery that fails takes out. -/
structure HeadAnswer where
  terminal : Option Owners := none
  busy : Bool := false
  failed : Option Owners := none

/-- One turn of the loop: the queue, and whether the loop goes on. -/
def advanceHead (answer : HeadAnswer) : PendingCodexTurns → PendingCodexTurns × Bool
  | [] => ([], false)
  | head :: rest =>
    match head.turn.terminalHistoryReconciliation with
    | none => (head :: rest, false)
    | some plan =>
      if head.turn.status ≠ .recoveryPending then (head :: rest, false)
      else if answer.terminal.isSome then
        (retireCodexTurnRecoveryOwners answer.terminal (head :: rest), true)
      else if answer.busy then (head :: rest, false)
      else
        let open' := head.modify fun turn =>
          { turn with terminalHistoryReconciliation := none, historyTrackingUnknown := false }
        match plan.action with
        | .complete => (completeCodexTurn (open' :: rest), true)
        | .actionRequired =>
          (removeCompletedCodexTurns (retireCodexTurnRecoveryOwners answer.failed (open' :: rest)),
            false)
        | .replay =>
          match beginCodexHistoryAbsentReplay open'.turn with
          | none => (retireCodexTurnRecoveryOwners answer.failed (open' :: rest), false)
          | some turn =>
            ({ open' with turn := { turn with
                status := .queued, turnId := none, acknowledgedAt := none } } :: rest, false)
        | .continue =>
          (retireCodexTurnRecoveryOwners answer.failed (removeCompletedCodexTurns
            (open'.modify (fun turn => { turn with status := .completed }) :: rest)), false)

/-- `advanceCodexTerminalHistoryReconciliation`, with an answer for each turn of its loop. -/
def advanceCodexTerminalHistoryReconciliation :
    List HeadAnswer → PendingCodexTurns → PendingCodexTurns
  | [], turns => turns
  | answer :: answers, turns =>
    let (turns, again) := advanceHead answer turns
    if again then advanceCodexTerminalHistoryReconciliation answers turns else turns

/-! ## Resume snapshots -/

/-- What the rest of the session says while a snapshot is reconciled. -/
structure ResumeAnswers where
  now : Nat
  /-- Where inputs are in the message history. -/
  indexes : JsString → Option Nat := fun _ => none
  /-- What was seen of a turn, in the message history and in the snapshot. -/
  observed : CodexOutboundTurn → List CodexLocalDeliveryActivityKind := fun _ => []
  omitted : Nat := 0
  /-- Another recovery is in charge, so that the turn has to wait. -/
  waiting : Bool := false
  /-- The backend is broken, so that nothing is to be dispatched. -/
  broken : Bool := false
  /-- A failed recovery that owns the turn to be retried. -/
  terminal : Option Owners := none
  failed : Option Owners := none
  loop : List HeadAnswer := []

/-- What is decided from the texts of a turn: errors after which nothing goes on by itself, and whether
there is a final outcome. -/
structure ResumeTexts where
  blocksAutomaticRecovery : JsonValue → Bool
  hasFinalOutcome : List ResumeItem → Bool

namespace ResumeTexts

variable (texts : ResumeTexts)

/-- `findAutomaticRecoveryBlockingTurn`. -/
def blocks (evidence : CodexHistoryIncorporationEvidence) : Bool :=
  let candidates := if evidence.candidateTurns.isEmpty then evidence.turn.toList
    else evidence.candidateTurns
  candidates.any fun turn => texts.blocksAutomaticRecovery turn.error

/-- The turn is complete from the receipt on. -/
def isComplete (turn : CodexResumeTurnSnapshot) (receiptItemIndex : Option Nat) : Bool :=
  turn.status = some (js "completed") && turn.error = .null &&
    texts.hasFinalOutcome (turn.items.drop (receiptItemIndex.getD 0))

def actionRequiredPlan (presence : CodexHistoryPresence) (now : Nat) :
    CodexTerminalHistoryReconciliation where
  presence
  reason := js "terminal_resume_snapshot_error"
  action := .actionRequired
  continuationMode := none
  classifiedAt := now

/-- A later batch of the turn of the provider. -/
def prepareLaterTerminalBatch (snapshot : CodexResumeSnapshot) (answers : ResumeAnswers)
    (candidate : PendingTurn) : PendingTurn :=
  let now := answers.now
  let finalize := finalizeBatchHistory answers.indexes
  let stage (plan : CodexTerminalHistoryReconciliation) (pending : PendingTurn) : PendingTurn :=
    pending.modify fun turn => stageCodexTerminalHistoryReconciliation turn plan
  let unknown (known : PendingTurn) (reason : JsString) : PendingTurn :=
    stage ⟨.unknown, reason, .continue, some .verifyThenContinue, now⟩ (known.modify finalize)
  match inspectCodexHistoryIncorporation snapshot candidate.turn with
  | none => unknown (candidate.classify snapshot .unknown) (js "invalid_tracking")
  | some evidence =>
    let known := candidate.classify snapshot evidence.presence
    if texts.blocks evidence then
      stage (actionRequiredPlan evidence.presence now) (known.modify finalize)
    else match evidence.presence, evidence.turn with
      | .unknown, _ | _, none => unknown known evidence.reason
      | .absent, some _ => stage ⟨.absent, evidence.reason, .replay, none, now⟩ known
      | .present, some turn =>
        let recorded := (known.modify finalize).record .resumeSnapshot none now
        if texts.isComplete turn evidence.receiptItemIndex then
          stage ⟨.present, evidence.reason, .complete, none, now⟩ recorded
        else stage ⟨.present, evidence.reason, .continue,
          some (chooseCodexRecoveryContinuationMode evidence (answers.observed candidate.turn) 0),
          now⟩ recorded

/-- `prepareLaterTerminalBatches`, of the turns behind `pending`. -/
def prepareLaterTerminalBatches (snapshot : CodexResumeSnapshot) (answers : ResumeAnswers)
    (pending : CodexOutboundTurn) (later : PendingCodexTurns) : PendingCodexTurns :=
  later.map fun candidate =>
    if pending.turnId.all (· = []) || candidate.turn.turnId ≠ pending.turnId ||
        candidate.turn.status = .completed || candidate.turn.terminalHistoryReconciliation.isSome then
      candidate
    else texts.prepareLaterTerminalBatch snapshot answers candidate

end ResumeTexts

/-- `completeRecoveredCodexTurnWithDiagnostic`, of the first turn. -/
def completeRecoveredCodexTurn (answers : ResumeAnswers) (mode : CodexTurnRecoveryContinuationMode) :
    PendingCodexTurns → PendingCodexTurns
  | [] => []
  | pending :: rest =>
    if answers.waiting then
      pending.modify (fun turn => stageCodexTerminalHistoryReconciliation turn {
        presence := if turn.historyIncorporation.any (·.recordedAt.isSome) then .present else .unknown
        reason := js "waiting_for_active_recovery"
        action := .continue
        continuationMode := some mode
        classifiedAt := answers.now }) :: rest
    else retireCodexTurnRecoveryOwners answers.failed (completeCodexTurn (pending :: rest))

/-- `retryPendingCodexTurn`, of the first turn, up to where the queue is dispatched. -/
def retryPendingCodexTurn (answers : ResumeAnswers) : PendingCodexTurns → PendingCodexTurns
  | [] => []
  | pending :: rest =>
    if answers.terminal.isSome then retireCodexTurnRecoveryOwners answers.terminal (pending :: rest)
    else pending.modify (fun turn => { turn with
      status := if answers.broken then .blockedBrokenSession else .queued
      acknowledgedAt := none
      turnId := none }) :: rest

/-- `reconcileEvidenceAwareCodexResume`, of the first turn. Nothing is left to the recovery that knows
of no receipts, unless the tracking is not in order. -/
def reconcileEvidenceAwareCodexResume (texts : ResumeTexts) (snapshot : CodexResumeSnapshot)
    (answers : ResumeAnswers) : PendingCodexTurns → Option PendingCodexTurns
  | [] => none
  | pending :: rest =>
    (inspectCodexHistoryIncorporation snapshot pending.turn).map fun evidence =>
      let later := texts.prepareLaterTerminalBatches snapshot answers pending.turn rest
      let known := pending.classify snapshot evidence.presence
      let finalized := known.modify (finalizeBatchHistory answers.indexes)
      let recorded := finalized.record .resumeSnapshot none answers.now
      if texts.blocks evidence then
        advanceCodexTerminalHistoryReconciliation answers.loop
          (finalized.modify (fun turn => stageCodexTerminalHistoryReconciliation turn
            (ResumeTexts.actionRequiredPlan evidence.presence answers.now)) :: later)
      else match evidence.turn.filter fun turn => isActiveResume turn snapshot with
        | some turn =>
          (if evidence.presence = .present then recorded else known).modify (fun pending =>
            { pending with status := .backendAcknowledged, turnId := some turn.id }) :: later
        | none =>
          match evidence.presence, evidence.turn with
          | .absent, _ =>
            match beginCodexHistoryAbsentReplay known.turn with
            | none => retireCodexTurnRecoveryOwners answers.failed (known :: later)
            | some turn => retryPendingCodexTurn answers ({ known with turn } :: later)
          | .unknown, _ | .present, none =>
            completeRecoveredCodexTurn answers .verifyThenContinue (finalized :: later)
          | .present, some turn =>
            if texts.isComplete turn evidence.receiptItemIndex then
              completeCodexTurn (recorded :: later)
            else completeRecoveredCodexTurn answers (chooseCodexRecoveryContinuationMode evidence
              (answers.observed pending.turn) answers.omitted) (recorded :: later)

/-! ## Dispatching -/

/-- A blocked turn is queued again. -/
def CodexOutboundTurn.unblock (turn : CodexOutboundTurn) : CodexOutboundTurn :=
  if turn.status = .blockedBrokenSession then
    { turn with status := .queued, turnId := none, acknowledgedAt := none }
  else turn

/-- `dispatchQueuedCodexTurns`, after `prepareCodexHistoryTrackingForDispatch`; the adapter takes the
message or refuses it. -/
def dispatchQueuedCodexTurns (receiptAware : Bool) (uuid : JsString) (accepted : Bool) :
    PendingCodexTurns → PendingCodexTurns
  | [] => []
  | head :: rest =>
    let prepared := head.modify fun turn =>
      prepareCodexHistoryTrackingForDispatch turn receiptAware uuid
    let ready := prepared.modify CodexOutboundTurn.unblock
    if ready.turn.status = .backendAcknowledged || ready.turn.status = .dispatched ||
        ready.turn.status = .recoveryPending then ready :: rest
    else if accepted then
      (ready.modify fun turn =>
        { turn with status := .dispatched, dispatchCount := turn.dispatchCount + 1 }).handOut :: rest
    else ready.modify (fun turn => { turn with status := .queued }) :: rest

end Takode.CodexHistory
