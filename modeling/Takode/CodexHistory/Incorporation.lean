import Takode.Lib.Json

/-!
# History incorporation of Codex inputs

What is known of whether the provider has recorded the input of a turn
(`codex-history-incorporation.ts`): the client id under which the input was handed out,
the turn that the provider named, the receipts, and what a resume snapshot says.
-/

namespace Takode.CodexHistory

open JsString

/-! ## Records -/

inductive CodexOutboundTurnStatus
  | queued
  | recoveryPending
  | dispatched
  | backendAcknowledged
  | completed
  | blockedBrokenSession
deriving DecidableEq

inductive CodexHistoryPresence
  | present
  | absent
  | unknown
deriving DecidableEq

inductive RecordedSource
  | live
  | resumeSnapshot
deriving DecidableEq

inductive CodexTurnRecoveryContinuationMode
  | finishResponse
  | verifyThenContinue
deriving DecidableEq

inductive TerminalAction
  | complete
  | replay
  | continue
  | actionRequired
deriving DecidableEq

structure CodexTerminalHistoryReconciliation where
  presence : CodexHistoryPresence
  reason : JsString
  action : TerminalAction
  continuationMode : Option CodexTurnRecoveryContinuationMode
  classifiedAt : Nat
deriving DecidableEq

structure CodexHistoryIncorporationState where
  batchId : JsString
  inputIds : List JsString
  historyIndexes : List (Option Nat)
  attempt : Nat
  clientUserMessageId : JsString
  providerTurnId : Option JsString := none
  rpcAcceptedAt : Option Nat := none
  recordedAt : Option Nat := none
  recordedSource : Option RecordedSource := none
  activityStartHistoryIndex : Option Nat := none
deriving DecidableEq

inductive AdapterMessageType
  | codexStartPending
  | codexSteerPending
  | userMessage
deriving DecidableEq

/-- The message that hands the input out. -/
structure AdapterMessage where
  type : AdapterMessageType := .codexStartPending
  pendingInputIds : List JsString
  clientUserMessageId : Option JsString := none
deriving DecidableEq

structure CodexOutboundTurn where
  adapterMsg : AdapterMessage
  userMessageId : JsString
  pendingInputIds : Option (List JsString) := none
  status : CodexOutboundTurnStatus
  dispatchCount : Nat := 0
  acknowledgedAt : Option Nat := none
  turnId : Option JsString := none
  providerReplayUnsafeActivityObserved : Bool := false
  historyIncorporation : Option CodexHistoryIncorporationState := none
  historyTrackingUnknown : Bool := false
  terminalHistoryReconciliation : Option CodexTerminalHistoryReconciliation := none
deriving DecidableEq

/-- An item of a turn; its properties are any JSON values. -/
abbrev ResumeItem := Record JsonValue

structure CodexResumeTurnSnapshot where
  id : JsString
  status : Option JsString
  error : JsonValue := .null
  items : List ResumeItem
  itemsView : Option JsString := none
deriving DecidableEq

/-- `turns` is absent where it is not an array. -/
structure CodexResumeSnapshot where
  turns : Option (List CodexResumeTurnSnapshot)
  lastTurn : Option CodexResumeTurnSnapshot
  threadStatus : Option JsString := none
deriving DecidableEq

structure CodexHistoryIncorporationEvidence where
  presence : CodexHistoryPresence
  reason : JsString
  turn : Option CodexResumeTurnSnapshot
  candidateTurns : List CodexResumeTurnSnapshot
  receiptItemIndex : Option Nat
  activityItems : List ResumeItem
  completeItems : Bool

/-! ## Helpers -/

def clientIdForAttempt (batchId : JsString) (attempt : Nat) : JsString :=
  batchId ++ js ":" ++ decimal attempt

/-- A string that is not blank is kept as it is. -/
def nonEmptyString (value : Option JsString) : Option JsString := value.filter fun s => trim s ≠ []

/-- `value.replace(/[_-]/g, "").toLowerCase()`, and `""` where it is no string. -/
def normalizeStatus (value : Option JsString) : JsString :=
  toLowerCase ((value.getD []).filter fun c => c ≠ 95 && c ≠ 45)

def asString : JsonValue → Option JsString
  | .string text => some text
  | _ => none

namespace ResumeItem

/-- The property; `undefined` and `null` are absent. -/
def field (item : ResumeItem) (name : String) : Option JsonValue :=
  (item.get? (js name)).filter fun value => value ≠ .null

/-- The `type`, if it is a string. -/
def type (item : ResumeItem) : Option JsString := (item.field "type").bind asString

def normalizeItemType (item : ResumeItem) : JsString := normalizeStatus item.type

end ResumeItem

def codexUserMessageClientId (item : ResumeItem) : Option JsString :=
  if item.normalizeItemType = js "usermessage" then
    nonEmptyString (((item.field "clientId").or (item.field "client_id")).bind asString)
  else none

def isContextCompactionItem (item : ResumeItem) : Bool :=
  item.normalizeItemType = js "contextcompaction"

def isEffectCapableOrUnknownItem (item : ResumeItem) : Bool :=
  item.normalizeItemType ≠ js "reasoning" && item.normalizeItemType ≠ js "agentmessage" &&
    item.normalizeItemType ≠ js "usermessage"

/-! ## Tracking -/

/-- `randomUUID` gives `uuid`. -/
def createCodexHistoryIncorporation (uuid : JsString) (inputIds : List JsString) :
    CodexHistoryIncorporationState :=
  let batchId := uuid ++ js "-" ++ inputIds.head?.getD (js "batch")
  { batchId, inputIds
    historyIndexes := inputIds.map fun _ => none
    attempt := 0
    clientUserMessageId := clientIdForAttempt batchId 0 }

/-- A character that `.` does not match. -/
def isLineTerminator (c : UInt16) : Bool := c = 10 || c = 13 || c = 0x2028 || c = 0x2029

def createCodexHistoryIncorporationForClient (inputIds : List JsString)
    (clientUserMessageId : JsString) : Option CodexHistoryIncorporationState :=
  let batchId := clientUserMessageId.dropLast.dropLast
  let tracked (attempt : Nat) : Option CodexHistoryIncorporationState :=
    if clientUserMessageId = clientIdForAttempt batchId attempt && batchId ≠ [] &&
        !batchId.any isLineTerminator then
      some {
        batchId, inputIds
        historyIndexes := inputIds.map fun _ => none
        attempt, clientUserMessageId }
    else none
  (tracked 0).or (tracked 1)

def clientUserMessageIdForTurn (turn : CodexOutboundTurn) : Option JsString :=
  (nonEmptyString (turn.historyIncorporation.map (·.clientUserMessageId))).or
    (nonEmptyString turn.adapterMsg.clientUserMessageId)

def CodexOutboundTurn.inputIds (turn : CodexOutboundTurn) : List JsString :=
  turn.pendingInputIds.getD [turn.userMessageId]

def normalizeCodexHistoryIncorporation (turn : CodexOutboundTurn) :
    Option CodexHistoryIncorporationState := do
  let record ← turn.historyIncorporation
  let providerTurnId := nonEmptyString record.providerTurnId
  let restoredTurnId := nonEmptyString turn.turnId
  guard ((nonEmptyString (some record.batchId)).isSome &&
    !record.inputIds.isEmpty && record.inputIds.all (fun id => trim id ≠ []) &&
    record.historyIndexes.length = record.inputIds.length &&
    (record.attempt = 0 || record.attempt = 1) &&
    nonEmptyString (some record.clientUserMessageId) =
      some (clientIdForAttempt record.batchId record.attempt) &&
    record.inputIds = turn.inputIds &&
    nonEmptyString (some record.clientUserMessageId) =
      nonEmptyString turn.adapterMsg.clientUserMessageId &&
    record.inputIds.eraseDups.length = record.inputIds.length &&
    !(providerTurnId.isSome && restoredTurnId.isSome && providerTurnId ≠ restoredTurnId) &&
    !(record.rpcAcceptedAt.isSome && providerTurnId.isNone) &&
    record.recordedAt.isSome = record.recordedSource.isSome &&
    !(record.activityStartHistoryIndex.isSome && record.recordedAt.isNone))
  return { record with providerTurnId }

def isCodexTurnProvablyNeverDispatched (turn : CodexOutboundTurn) : Bool :=
  (turn.status = .queued || turn.status = .blockedBrokenSession) &&
  !turn.historyTrackingUnknown && turn.terminalHistoryReconciliation.isNone &&
  turn.dispatchCount = 0 && turn.turnId.isNone && turn.acknowledgedAt.isNone &&
  !turn.providerReplayUnsafeActivityObserved &&
  (turn.historyIncorporation.isNone ||
    (normalizeCodexHistoryIncorporation turn).any fun normalized =>
      normalized.attempt = 0 && normalized.providerTurnId.isNone &&
        normalized.rpcAcceptedAt.isNone && normalized.recordedAt.isNone)

/-- The turn with new tracking of its inputs. -/
def CodexOutboundTurn.track (turn : CodexOutboundTurn) (uuid : JsString) (inputIds : List JsString) :
    CodexOutboundTurn :=
  let historyIncorporation := createCodexHistoryIncorporation uuid inputIds
  { turn with
    pendingInputIds := some inputIds
    adapterMsg := { turn.adapterMsg with
      pendingInputIds := inputIds
      clientUserMessageId := some historyIncorporation.clientUserMessageId }
    historyIncorporation := some historyIncorporation
    historyTrackingUnknown := false }

def prepareCodexHistoryTrackingForDispatch (turn : CodexOutboundTurn) (receiptAware : Bool)
    (uuid : JsString) : CodexOutboundTurn :=
  if turn.adapterMsg.type ≠ .codexStartPending || !isCodexTurnProvablyNeverDispatched turn then turn
  else if !receiptAware then
    { turn with
      historyIncorporation := none
      historyTrackingUnknown := false
      adapterMsg := { turn.adapterMsg with clientUserMessageId := none } }
  else if turn.historyIncorporation.isSome then turn
  else turn.track uuid turn.inputIds

def stageCodexTerminalHistoryReconciliation (turn : CodexOutboundTurn)
    (plan : CodexTerminalHistoryReconciliation) : CodexOutboundTurn :=
  { turn with terminalHistoryReconciliation := some plan, status := .recoveryPending }

/-- The turn with its tracking changed, if it is tracked. -/
def CodexOutboundTurn.modifyHistory (turn : CodexOutboundTurn)
    (f : CodexHistoryIncorporationState → CodexHistoryIncorporationState) : CodexOutboundTurn :=
  { turn with historyIncorporation := turn.historyIncorporation.map f }

def markCodexHistoryRpcAccepted (turn : CodexOutboundTurn) (providerTurnId : JsString)
    (acceptedAt : Nat) : CodexOutboundTurn :=
  turn.modifyHistory fun state =>
    if some state.clientUserMessageId = clientUserMessageIdForTurn turn then
      { state with providerTurnId := some providerTurnId, rpcAcceptedAt := some acceptedAt }
    else state

def markCodexHistoryRecorded (turn : CodexOutboundTurn) (source : RecordedSource)
    (activityStartHistoryIndex : Option Nat) (recordedAt : Nat) : CodexOutboundTurn :=
  turn.modifyHistory fun state =>
    { state with
      recordedAt := state.recordedAt.or (some recordedAt)
      recordedSource := state.recordedSource.or (some source)
      activityStartHistoryIndex := state.activityStartHistoryIndex.or activityStartHistoryIndex }

/-- The turn to be handed out again, if it may be. -/
def beginCodexHistoryAbsentReplay (turn : CodexOutboundTurn) : Option CodexOutboundTurn := do
  let state ← turn.historyIncorporation
  guard (state.recordedAt.isNone && state.attempt < 1)
  let clientUserMessageId := clientIdForAttempt state.batchId 1
  return { turn with
    historyIncorporation := some { state with
      attempt := 1
      clientUserMessageId
      providerTurnId := none
      rpcAcceptedAt := none
      recordedAt := none
      recordedSource := none
      activityStartHistoryIndex := none }
    adapterMsg :=
      if turn.adapterMsg.type = .codexStartPending || turn.adapterMsg.type = .codexSteerPending then
        { turn.adapterMsg with clientUserMessageId := some clientUserMessageId }
      else turn.adapterMsg
    providerReplayUnsafeActivityObserved := false }

/-! ## Snapshots -/

def CodexResumeSnapshot.listedTurns (snapshot : CodexResumeSnapshot) : List CodexResumeTurnSnapshot :=
  snapshot.turns.getD snapshot.lastTurn.toList

/-- The user items with a client id, with the turns that list them. -/
def receipts (turns : List CodexResumeTurnSnapshot) (clientId : JsString) :
    List (CodexResumeTurnSnapshot × Nat) :=
  turns.flatMap fun turn => turn.items.zipIdx.filterMap fun (item, index) =>
    if codexUserMessageClientId item = some clientId then some (turn, index) else none

def isActiveResume (turn : CodexResumeTurnSnapshot) (snapshot : CodexResumeSnapshot) : Bool :=
  normalizeStatus turn.status = js "inprogress" && normalizeStatus snapshot.threadStatus ≠ js "idle"

/-- `unknownEvidence`; a turn of one id is a candidate once. -/
def unknownEvidence (reason : JsString) (candidates : List (Option CodexResumeTurnSnapshot))
    (turn : Option CodexResumeTurnSnapshot) : CodexHistoryIncorporationEvidence where
  presence := .unknown
  reason
  turn
  candidateTurns := (Record.ofEntries ((candidates.filterMap id).map fun turn => (turn.id, turn))).values
  receiptItemIndex := none
  activityItems := []
  completeItems := false

/-- The turn that is known to the provider, as it is listed. -/
def expectedTurn (turns : List CodexResumeTurnSnapshot) (turnId : Option JsString) :
    Option CodexResumeTurnSnapshot :=
  (turnId.filter (· ≠ [])).bind fun turnId => turns.find? fun turn => turn.id = turnId

/-- The turn that the provider has named. -/
def CodexOutboundTurn.namedTurnId (turn : CodexOutboundTurn) : Option JsString :=
  (turn.historyIncorporation.bind (·.providerTurnId)).or turn.turnId

/-- The evidence of one receipt. -/
def receiptEvidence (listed : CodexResumeTurnSnapshot) (index : Nat) :
    CodexHistoryIncorporationEvidence where
  presence := .present
  reason := if listed.itemsView = some (js "full") then js "receipt"
    else js "receipt_" ++ listed.itemsView.getD (js "unknown_view")
  turn := some listed
  candidateTurns := [listed]
  receiptItemIndex := some index
  activityItems := listed.items.drop (index + 1)
  completeItems := listed.itemsView = some (js "full")

/-- The evidence of a turn that was not recorded, where no receipt is listed. -/
def missingEvidence (snapshot : CodexResumeSnapshot) (candidate : CodexResumeTurnSnapshot) :
    CodexHistoryIncorporationEvidence :=
  if candidate.itemsView ≠ some (js "full") then
    unknownEvidence (candidate.itemsView.elim (js "items_view_missing") (js "items_" ++ ·))
      [some candidate] (some candidate)
  else if candidate.items.any isContextCompactionItem then
    unknownEvidence (js "compacted_turn") [some candidate] (some candidate)
  else if isActiveResume candidate snapshot then
    unknownEvidence (js "turn_still_active") [some candidate] (some candidate)
  else {
    presence := .absent
    reason := js "full_turn_without_receipt"
    turn := some candidate
    candidateTurns := [candidate]
    receiptItemIndex := none
    activityItems := []
    completeItems := true }

def inspectCodexHistoryIncorporation (snapshot : CodexResumeSnapshot) (turn : CodexOutboundTurn) :
    Option CodexHistoryIncorporationEvidence :=
  (normalizeCodexHistoryIncorporation turn).map fun state =>
    let expected := expectedTurn snapshot.listedTurns (state.providerTurnId.or turn.turnId)
    match receipts snapshot.listedTurns state.clientUserMessageId with
    | [] =>
      if state.recordedAt.isSome then
        unknownEvidence (js "live_receipt_missing_from_snapshot") [expected] none
      else match expected with
        | none => unknownEvidence (js "turn_not_loaded") [] none
        | some candidate => missingEvidence snapshot candidate
    | [(listed, index)] =>
      if state.providerTurnId.any fun id => listed.id ≠ id then
        unknownEvidence (js "receipt_turn_mismatch") [some listed, expected] none
      else receiptEvidence listed index
    | found => unknownEvidence (js "duplicate_receipt") (found.map (fun m => some m.1) ++ [expected]) none

/-- What Takode itself has seen of a turn. -/
inductive CodexLocalDeliveryActivityKind
  | reasoning
  | assistantText
  | toolUse
  | toolResult
  | permission
  | result
  | stream
deriving DecidableEq

def chooseCodexRecoveryContinuationMode (evidence : CodexHistoryIncorporationEvidence)
    (kinds : List CodexLocalDeliveryActivityKind) (omittedToolResultCount : Nat) :
    CodexTurnRecoveryContinuationMode :=
  if !evidence.completeItems || 0 < omittedToolResultCount then .verifyThenContinue
  else if kinds.any fun kind => kind ≠ .reasoning && kind ≠ .assistantText then .verifyThenContinue
  else if evidence.activityItems.any isEffectCapableOrUnknownItem then .verifyThenContinue
  else .finishResponse

end Takode.CodexHistory
