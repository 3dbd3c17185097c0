import Takode.Lib.Distinct
import Takode.Lib.Json

/-!
# Quest records

The records of the quest store (`quest-types.ts`, `quest-owner.ts`). A record is what
its JSON text says: a property that is absent is `none`, so that a JSON round trip
gives the same record. Numbers of days, positions and times are natural numbers.
Properties that the store only carries along are kept as the JSON value `rest`.
-/

namespace Takode.Quests

/-! ## Parts of a record -/

inductive QuestStatus
  | idea
  | refined
  | inProgress
  | done
deriving DecidableEq

inductive QuestOwnerKind
  | takode
  | codex
deriving DecidableEq

def QuestOwnerKind.text : QuestOwnerKind → JsString
  | takode => js "takode"
  | codex => js "codex"

structure QuestOwnerRef where
  kind : QuestOwnerKind
  sessionId : JsString
deriving DecidableEq

structure QuestInvocationProvenance where
  owner : QuestOwnerRef
  turnId : Option JsString := none
  toolUseId : Option JsString := none
  cwd : Option JsString := none
  recordedAt : Nat
deriving DecidableEq

structure QuestVerificationItem where
  text : JsString
  checked : Bool
deriving DecidableEq

structure QuestQuizItem where
  id : JsString
  question : JsString
  answer : JsString
  source : Option JsString := none
deriving DecidableEq

structure QuestStartedFrom where
  sessionId : JsString
  messageId : JsString
  threadKey : JsString
  timestamp : Nat
deriving DecidableEq

structure QuestRelationships where
  followUpOf : Option (List JsString) := none
  startedFrom : Option QuestStartedFrom := none
deriving DecidableEq

structure QuestRelatedQuest where
  questId : JsString
  kind : JsString
  explicit : Bool
deriving DecidableEq

structure QuestImage where
  id : JsString
  filename : JsString
  mimeType : JsString
  path : JsString
deriving DecidableEq

inductive QuestFeedbackAuthor
  | human
  | agent
deriving DecidableEq

structure QuestFeedbackEntry where
  entryId : Option JsString := none
  author : QuestFeedbackAuthor
  kind : Option JsString := none
  text : JsString
  tldr : Option JsString := none
  ts : Nat
  authorSessionId : Option JsString := none
  machine : Option JsString := none
  provenance : Option QuestInvocationProvenance := none
  images : Option (List QuestImage) := none
  addressed : Option Bool := none
  deletedAt : Option Nat := none
  journeyRunId : Option JsString := none
  phaseOccurrenceId : Option JsString := none
  phaseId : Option JsString := none
  phaseIndex : Option Nat := none
  phasePosition : Option Nat := none
  phaseOccurrence : Option Nat := none
deriving DecidableEq

structure QuestPhaseOccurrence where
  phaseId : JsString
  startedAt : Option Nat := none
  completedAt : Option Nat := none
  rest : JsonValue := .null
deriving DecidableEq

inductive QuestJourneyRunSource
  | board
  | manual
deriving DecidableEq

inductive QuestJourneyRunStatus
  | active
  | completed
  | archived
  | manual
deriving DecidableEq

structure QuestJourneyRun where
  runId : JsString
  source : QuestJourneyRunSource
  status : QuestJourneyRunStatus
  createdAt : Nat
  completedAt : Option Nat := none
  phaseOccurrences : List QuestPhaseOccurrence
  rest : JsonValue := .null
deriving DecidableEq

structure QuestRound where
  openedAt : Nat
  title : Option JsString := none
  brief : Option JsString := none
  requests : Option (List Nat) := none
  closedAt : Option Nat := none
  outcome : Option JsString := none
  outcomeTldr : Option JsString := none
  derived : Bool := false
deriving DecidableEq

/-- A commit of a delivery. -/
structure QuestDeliveredCommit where
  sha : JsString
  rest : JsonValue := .null
deriving DecidableEq

structure QuestCodeDelivery where
  id : JsString
  recordedAt : Nat
  actorSessionId : JsString
  targetHeadSha : JsString
  commits : List QuestDeliveredCommit
  rest : JsonValue := .null
deriving DecidableEq

structure QuestDeliveryTargetApproval where
  id : JsString
  rest : JsonValue := .null
deriving DecidableEq

inductive QuestOwnershipOperation
  | forceClaim
  | reassign
  | archivedOwnerTakeover
deriving DecidableEq

structure QuestOwnershipEventDraft where
  operation : QuestOwnershipOperation
  actorSessionId : JsString
  previousOwnerSessionId : JsString
  newOwnerSessionId : JsString
  reason : JsString
  previousLeaderSessionId : Option JsString := none
  newLeaderSessionId : Option JsString := none
deriving DecidableEq

structure QuestOwnershipEvent extends QuestOwnershipEventDraft where
  ts : Nat
deriving DecidableEq

structure QuestRecoveryBoardSnapshot where
  leaderSessionId : JsString
  status : Option JsString := none
  workerSessionId : Option JsString := none
  phaseIds : Option (List JsString) := none
  activePhaseIndex : Option Nat := none
  waitForInputCount : Option Nat := none
deriving DecidableEq

/-- Flags that are absent are false. -/
structure QuestRecoveryWorkerSnapshot where
  sessionId : JsString
  known : Bool
  archived : Bool := false
  hasBridgeSession : Bool := false
  hasCwd : Bool := false
  gitStatusKnown : Bool := false
deriving DecidableEq

structure QuestRecoverySuppliedMetadata where
  verificationItemCount : Nat
  commitShas : List JsString
  memoryCommitShas : List JsString
  hasDebrief : Bool
  hasDebriefTldr : Bool
deriving DecidableEq

/-- The only operation is `leader_complete`. -/
structure QuestRecoveryEventDraft where
  actorSessionId : JsString
  reason : JsString
  previousStatus : QuestStatus
  previousOwnerSessionId : Option JsString := none
  previousLeaderSessionId : Option JsString := none
  boardRows : List QuestRecoveryBoardSnapshot
  workerState : Option QuestRecoveryWorkerSnapshot := none
  supplied : QuestRecoverySuppliedMetadata
  bypassedChecks : List JsString
deriving DecidableEq

structure QuestRecoveryEvent extends QuestRecoveryEventDraft where
  ts : Nat
deriving DecidableEq

/-- The only operation is `replace_code_commit_evidence`. -/
structure QuestCodeCommitEvidenceReplacementEvent where
  actorSessionId : JsString
  reason : JsString
  previousCommitShas : List JsString
  replacementCommitShas : List JsString
  journeyRunId : JsString
  phaseOccurrenceId : JsString
  verifiedTargetBranch : JsString
  verifiedTargetHeadSha : JsString
  ts : Nat
deriving DecidableEq

/-! ## The record -/

/-- `QuestmasterTask`: the properties of all its stages. -/
structure Quest where
  id : JsString
  questId : JsString
  version : Nat
  prevId : Option JsString := none
  title : JsString
  tldr : Option JsString := none
  createdAt : Nat
  createdBy : Option QuestInvocationProvenance := none
  updatedAt : Option Nat := none
  lastModifiedBy : Option QuestInvocationProvenance := none
  statusChangedAt : Option Nat := none
  tags : Option (List JsString) := none
  parentId : Option JsString := none
  sessionSpaceSlug : Option JsString := none
  images : Option (List QuestImage) := none
  previousOwnerSessionIds : Option (List JsString) := none
  previousOwners : Option (List QuestOwnerRef) := none
  ownershipEvents : Option (List QuestOwnershipEvent) := none
  recoveryEvents : Option (List QuestRecoveryEvent) := none
  codeCommitEvidenceReplacementEvents : Option (List QuestCodeCommitEvidenceReplacementEvent) := none
  leaderSessionId : Option JsString := none
  codeDeliveries : Option (List QuestCodeDelivery) := none
  deliveryTargetApprovals : Option (List QuestDeliveryTargetApproval) := none
  commitShas : Option (List JsString) := none
  memoryCommitShas : Option (List JsString) := none
  relationships : Option QuestRelationships := none
  relatedQuests : Option (List QuestRelatedQuest) := none
  journeyRuns : Option (List QuestJourneyRun) := none
  quizItems : Option (List QuestQuizItem) := none
  rounds : Option (List QuestRound) := none
  outcome : Option JsonValue := none
  feedback : Option (List QuestFeedbackEntry) := none
  status : QuestStatus
  description : Option JsString := none
  sessionId : Option JsString := none
  ownerKind : Option QuestOwnerKind := none
  claimedAt : Option Nat := none
  completedAt : Option Nat := none
  verificationItems : Option (List QuestVerificationItem) := none
  verificationInboxUnread : Option Bool := none
  notes : Option JsString := none
  debrief : Option JsString := none
  debriefTldr : Option JsString := none
  debriefMachine : Option JsString := none
  cancelled : Option Bool := none
deriving DecidableEq

/-- `...(list?.length ? { list } : {})`; texts are lists too. -/
def filled {α : Type} (list : Option (List α)) : Option (List α) := list.filter fun l => !l.isEmpty

@[simp] theorem getD_filled {α : Type} (list : Option (List α)) :
    (filled list).getD [] = list.getD [] := by
  cases list with
  | none => rfl
  | some l => cases l <;> rfl

@[simp] theorem filled_filled {α : Type} (list : Option (List α)) :
    filled (filled list) = filled list := by
  cases list with
  | none => rfl
  | some l => cases l <;> rfl

def hasQuestReviewMetadata (quest : Quest) : Bool :=
  quest.status = .done && quest.cancelled ≠ some true && quest.verificationInboxUnread.isSome

/-! ## Owners -/

def normalizeSessionId (value : Option JsString) : Option JsString := value.bind JsString.nonempty

def getQuestOwner (quest : Quest) : Option QuestOwnerRef :=
  (normalizeSessionId quest.sessionId).map fun sessionId =>
    ⟨quest.ownerKind.getD .takode, sessionId⟩

def normalizeQuestOwnerRef (value : QuestOwnerRef) : Option QuestOwnerRef :=
  value.sessionId.nonempty.map fun sessionId => ⟨value.kind, sessionId⟩

def getPreviousQuestOwners (quest : Quest) : List QuestOwnerRef :=
  ((quest.previousOwners.getD []).filterMap normalizeQuestOwnerRef ++
    ((quest.previousOwnerSessionIds.getD []).filterMap JsString.nonempty).map
      (QuestOwnerRef.mk .takode)).eraseDups

def sameQuestOwner (left right : Option QuestOwnerRef) : Bool := left.isSome && left = right

def getLeaderSessionId (quest : Quest) : Option JsString := normalizeSessionId quest.leaderSessionId

/-- The session ids of the owners of Takode. -/
def takodeSessionIds (owners : List QuestOwnerRef) : List JsString :=
  (owners.filter fun owner => owner.kind = .takode).map (·.sessionId)

end Takode.Quests
