import Takode.Lib.Except
import Takode.Lib.Normalizer
import Takode.Quests.Records

/-!
# Normalizing quests

Every record is normalized on each write and each read (`quest-store-helpers.ts`,
`quest-store-normalize.ts` and the modules of the parts).
-/

namespace Takode.Quests

open JsString

/-- `list.length > 0 ? list : undefined`. -/
def listed {α : Type} (list : List α) : Option (List α) := filled (some list)

/-! ## Commits -/

def isHex (c : UInt16) : Bool := isDigit c || (97 ≤ c && c ≤ 102)

/-- An item of `normalizeCommitShas`. -/
def normalizeCommitSha (item : JsString) : Except JsString JsString :=
  let sha := toLowerCase (trim item)
  if 7 ≤ sha.length && sha.length ≤ 40 && sha.all isHex then .ok sha
  else .error (js "Invalid commit SHA: " ++ item)

def normalizeCommitShas (items : List JsString) : Except JsString (List JsString) :=
  return (← items.mapM normalizeCommitSha).eraseDups

/-- `commitShaField`, for either key. -/
def commitShaField (current input : Option (List JsString)) :
    Except JsString (Option (List JsString)) :=
  match filled input with
  | some input => do return listed (← normalizeCommitShas (current.getD [] ++ input))
  | none => return filled current

/-! ## Audit events -/

def normalizeOwnershipEvent (value : QuestOwnershipEvent) : Option QuestOwnershipEvent := do
  let actorSessionId ← value.actorSessionId.nonempty
  let previousOwnerSessionId ← value.previousOwnerSessionId.nonempty
  let newOwnerSessionId ← value.newOwnerSessionId.nonempty
  let reason ← value.reason.nonempty
  guard (0 < value.ts)
  return { value with
    actorSessionId, previousOwnerSessionId, newOwnerSessionId, reason
    previousLeaderSessionId := value.previousLeaderSessionId.bind nonempty
    newLeaderSessionId := value.newLeaderSessionId.bind nonempty }

def normalizeOwnershipEvents (raw : Option (List QuestOwnershipEvent)) :
    List QuestOwnershipEvent :=
  (raw.getD []).filterMap normalizeOwnershipEvent

def requireSessionId (value label : JsString) : Except JsString JsString :=
  match value.nonempty with
  | some sessionId => .ok sessionId
  | none => .error (label ++ js " is required for ownership audit")

def buildOwnershipEvent (input : QuestOwnershipEventDraft) (now : Nat) :
    Except JsString QuestOwnershipEvent := do
  let actorSessionId ← requireSessionId input.actorSessionId (js "actorSessionId")
  let previousOwnerSessionId ←
    requireSessionId input.previousOwnerSessionId (js "previousOwnerSessionId")
  let newOwnerSessionId ← requireSessionId input.newOwnerSessionId (js "newOwnerSessionId")
  let some reason := input.reason.nonempty | .error (js "Ownership takeover reason is required")
  return {
    operation := input.operation
    actorSessionId, previousOwnerSessionId, newOwnerSessionId, reason
    previousLeaderSessionId := input.previousLeaderSessionId.bind nonempty
    newLeaderSessionId := input.newLeaderSessionId.bind nonempty
    ts := now }

def appendOwnershipEvent (existing : Option (List QuestOwnershipEvent))
    (input : Option QuestOwnershipEventDraft) (now : Nat) :
    Except JsString (Option (List QuestOwnershipEvent)) :=
  match input with
  | none => return listed (normalizeOwnershipEvents existing)
  | some input => do
    return some (normalizeOwnershipEvents existing ++ [← buildOwnershipEvent input now])

def stringList (raw : List JsString) : List JsString := raw.filterMap nonempty

def normalizeBoardRow (row : QuestRecoveryBoardSnapshot) : Option QuestRecoveryBoardSnapshot := do
  let leaderSessionId ← row.leaderSessionId.nonempty
  return { row with
    leaderSessionId
    status := row.status.bind nonempty
    workerSessionId := row.workerSessionId.bind nonempty
    phaseIds := row.phaseIds.map stringList }

def normalizeWorkerState (value : QuestRecoveryWorkerSnapshot) :
    Option QuestRecoveryWorkerSnapshot := do
  return { value with sessionId := ← value.sessionId.nonempty }

def normalizeQuestRecoveryEvent (value : QuestRecoveryEvent) : Option QuestRecoveryEvent := do
  let actorSessionId ← value.actorSessionId.nonempty
  let reason ← value.reason.nonempty
  guard (0 < value.ts)
  let bypassedChecks ← listed (stringList value.bypassedChecks)
  return { value with
    actorSessionId, reason, bypassedChecks
    previousOwnerSessionId := value.previousOwnerSessionId.bind nonempty
    previousLeaderSessionId := value.previousLeaderSessionId.bind nonempty
    boardRows := value.boardRows.filterMap normalizeBoardRow
    workerState := value.workerState.bind normalizeWorkerState
    supplied := { value.supplied with
      commitShas := stringList value.supplied.commitShas
      memoryCommitShas := stringList value.supplied.memoryCommitShas } }

def normalizeQuestRecoveryEvents (raw : Option (List QuestRecoveryEvent)) :
    List QuestRecoveryEvent :=
  (raw.getD []).filterMap normalizeQuestRecoveryEvent

def buildQuestRecoveryEvent (input : QuestRecoveryEventDraft) (now : Nat) :
    Except JsString QuestRecoveryEvent :=
  match normalizeQuestRecoveryEvent { input with ts := now } with
  | some event => .ok event
  | none => .error (js "Invalid quest recovery audit event")

def appendQuestRecoveryEvent (existing : Option (List QuestRecoveryEvent))
    (input : Option QuestRecoveryEventDraft) (now : Nat) :
    Except JsString (Option (List QuestRecoveryEvent)) :=
  match input with
  | none => return listed (normalizeQuestRecoveryEvents existing)
  | some input => do
    return some (normalizeQuestRecoveryEvents existing ++ [← buildQuestRecoveryEvent input now])

def commitShaList (value : List JsString) : Option (List JsString) :=
  (normalizeCommitShas value).toOption

def fullCommitSha (value : JsString) : Option JsString :=
  let sha := toLowerCase (trim value)
  if sha.length = 40 && sha.all isHex then some sha else none

def normalizeQuestCodeCommitEvidenceReplacementEvent
    (value : QuestCodeCommitEvidenceReplacementEvent) :
    Option QuestCodeCommitEvidenceReplacementEvent := do
  let actorSessionId ← value.actorSessionId.nonempty
  let reason ← value.reason.nonempty
  guard (reason.length ≤ 1000)
  let journeyRunId ← value.journeyRunId.nonempty
  let phaseOccurrenceId ← value.phaseOccurrenceId.nonempty
  let verifiedTargetBranch ← value.verifiedTargetBranch.nonempty
  let verifiedTargetHeadSha ← fullCommitSha value.verifiedTargetHeadSha
  guard (0 < value.ts)
  let previousCommitShas ← commitShaList value.previousCommitShas
  let replacementCommitShas ← commitShaList value.replacementCommitShas
  guard (previousCommitShas ≠ [] ∧ replacementCommitShas ≠ [] ∧
    previousCommitShas.length ≤ 50 ∧ replacementCommitShas.length ≤ 50 ∧
    previousCommitShas.length ≤ replacementCommitShas.length ∧
    previousCommitShas ≠ replacementCommitShas)
  return { value with
    actorSessionId, reason, previousCommitShas, replacementCommitShas, journeyRunId
    phaseOccurrenceId, verifiedTargetBranch, verifiedTargetHeadSha }

def normalizeQuestCodeCommitEvidenceReplacementEvents
    (raw : Option (List QuestCodeCommitEvidenceReplacementEvent)) :
    List QuestCodeCommitEvidenceReplacementEvent :=
  (raw.getD []).filterMap normalizeQuestCodeCommitEvidenceReplacementEvent

/-! ## Quiz items and relationships -/

def normalizeTldr (value : Option JsString) : Option JsString := value.bind nonempty

def normalizeQuizItemId (value : JsString) (index : Nat) : JsString :=
  value.nonempty.getD (js "quiz-" ++ decimal (index + 1))

/-- The loop of `normalizeQuestQuizItems`, from an index on. -/
def normalizeQuizItemsFrom : Nat → List QuestQuizItem → Except JsString (List QuestQuizItem)
  | _, [] => .ok []
  | index, item :: rest => do
    let place := js "quizItems[" ++ decimal index ++ js "]"
    let some question := item.question.nonempty | .error (place ++ js ".question is required")
    let some answer := item.answer.nonempty | .error (place ++ js ".answer is required")
    return ⟨normalizeQuizItemId item.id index, question, answer, item.source.bind nonempty⟩ ::
      (← normalizeQuizItemsFrom (index + 1) rest)

def normalizeQuestQuizItems (value : Option (List QuestQuizItem)) :
    Except JsString (Option (List QuestQuizItem)) :=
  match value with
  | none => return none
  | some items => return listed (← normalizeQuizItemsFrom 0 items)

/-- The digits of a quest id. -/
def questIdDigits (id : JsString) : Option JsString :=
  if startsWith id (js "q-") && !(id.drop 2).isEmpty && (id.drop 2).all isDigit then some (id.drop 2)
  else none

def questIdOf (number : Nat) : JsString := js "q-" ++ decimal number

def normalizeQuestRelationshipId (value : JsString) : Option JsString :=
  (questIdDigits (toLowerCase (trim value))).map fun digits => questIdOf (digitsValue digits)

def sameQuestId (left right : JsString) : Bool :=
  left ≠ [] && right ≠ [] && toLowerCase left = toLowerCase right

/-- `questIdNumber`, of an id in its normal form. -/
def questIdNumber (questId : JsString) : Nat := digitsValue (questId.drop 2)

def normalizeQuestIdList (values : List JsString) (ownQuestId : JsString) : List JsString :=
  ((values.filterMap normalizeQuestRelationshipId).filter fun questId =>
    !sameQuestId questId ownQuestId).eraseDups.insertionSort
      fun left right => questIdNumber left ≤ questIdNumber right

def normalizeStartedFrom (value : QuestStartedFrom) : Option QuestStartedFrom := do
  return { value with
    sessionId := ← value.sessionId.nonempty
    messageId := ← value.messageId.nonempty
    threadKey := toLowerCase (← value.threadKey.nonempty) }

def normalizeQuestRelationships (value : Option QuestRelationships) (ownQuestId : JsString) :
    Option QuestRelationships :=
  value.bind fun raw =>
    let followUpOf := normalizeQuestIdList (raw.followUpOf.getD []) ownQuestId
    let startedFrom := raw.startedFrom.bind normalizeStartedFrom
    if followUpOf = [] && startedFrom.isNone then none
    else some ⟨listed followUpOf, startedFrom⟩

def mergeQuestRelationships (current : Option QuestRelationships) (edit : QuestRelationships)
    (ownQuestId : JsString) : Option QuestRelationships :=
  let current := current.getD {}
  normalizeQuestRelationships
    (some ⟨edit.followUpOf.or current.followUpOf, edit.startedFrom.or current.startedFrom⟩)
    ownQuestId

def stripDerivedQuestRelationships (quest : Quest) : Quest := { quest with relatedQuests := none }

/-! ## Ownership -/

def appendQuestOwner (owners : List QuestOwnerRef) : Option QuestOwnerRef → List QuestOwnerRef
  | none => owners
  | some owner => if owner ∈ owners then owners else owners ++ [owner]

/-- `previousOwnerSessionIds` and `previousOwners`. -/
def previousQuestOwnerFields (owners : List QuestOwnerRef) (retainCanonicalHistory : Bool) :
    Option (List JsString) × Option (List QuestOwnerRef) :=
  (listed (takodeSessionIds owners),
    if retainCanonicalHistory || owners.any (·.kind = .codex) then listed owners else none)

/-- `sessionId` and `ownerKind`. -/
def activeQuestOwnerFields (owner : QuestOwnerRef) : Option JsString × Option QuestOwnerKind :=
  (some owner.sessionId, if owner.kind = .codex then some .codex else none)

def normalizeQuestOwnership (quest : Quest) : Quest :=
  let hadCanonicalHistory := quest.previousOwners.isSome
  let active := getQuestOwner quest
  -- Done quests used to carry their owner, who is a past one.
  let finalActive := if quest.status = .done then none else active
  let previous := appendQuestOwner (getPreviousQuestOwners quest)
    (if quest.status = .done then active else none)
  let previous := previous.filter fun owner => some owner ≠ finalActive
  let (sessionId, ownerKind) := match finalActive with
    | some owner => activeQuestOwnerFields owner
    | none =>
      let kept := if active.isSome then none else quest.sessionId
      (kept, if (filled kept).isSome then quest.ownerKind else none)
  let fields := previousQuestOwnerFields previous hadCanonicalHistory
  { quest with
    sessionId, ownerKind
    previousOwnerSessionIds := fields.1
    previousOwners := fields.2
    ownershipEvents := listed (normalizeOwnershipEvents quest.ownershipEvents)
    leaderSessionId := getLeaderSessionId quest }

/-! ## The whole record -/

/-- `normalizeLiveQuest`; `now` is what it reads of the clock. -/
def normalizeLiveQuest (now : Nat) (quest : Quest) : Except JsString Quest := do
  let normalized := normalizeQuestOwnership (stripDerivedQuestRelationships quest)
  let createdAt := if normalized.createdAt = 0 then now else normalized.createdAt
  return { normalized with
    id := normalized.questId
    prevId := none
    createdAt
    version := if 0 < normalized.version then normalized.version else 1
    statusChangedAt := some (match normalized.statusChangedAt with
      | some at' => if 0 < at' then at' else createdAt
      | none => createdAt)
    relationships := normalizeQuestRelationships normalized.relationships normalized.questId
    quizItems := ← normalizeQuestQuizItems normalized.quizItems
    recoveryEvents := listed (normalizeQuestRecoveryEvents normalized.recoveryEvents)
    codeCommitEvidenceReplacementEvents := listed
      (normalizeQuestCodeCommitEvidenceReplacementEvents
        normalized.codeCommitEvidenceReplacementEvents) }

end Takode.Quests
