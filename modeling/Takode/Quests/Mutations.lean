import Takode.Quests.Rounds

/-!
# Mutations of a quest

The builders of new records (`quest-store-mutations.ts`, `quest-store-patch.ts`,
`quest-delivery-evidence.ts`), without the store. `liveStore` is false where the store
still keeps each version in a file of its own.
-/

namespace Takode.Quests

open JsString

/-! ## Inputs -/

structure QuestCreateInput where
  title : JsString
  createdBy : Option QuestInvocationProvenance := none
  description : Option JsString := none
  tldr : Option JsString := none
  status : Option QuestStatus := none
  tags : Option (List JsString) := none
  parentId : Option JsString := none
  sessionSpaceSlug : Option JsString := none
  relationships : Option QuestRelationships := none
  images : Option (List QuestImage) := none
  quizItems : Option (List QuestQuizItem) := none
deriving DecidableEq

structure QuestPatchInput where
  lastModifiedBy : Option QuestInvocationProvenance := none
  title : Option JsString := none
  description : Option JsString := none
  tldr : Option JsString := none
  tags : Option (List JsString) := none
  sessionSpaceSlug : Option JsString := none
  relationships : Option QuestRelationships := none
  feedback : Option (List QuestFeedbackEntry) := none
  journeyRuns : Option (List QuestJourneyRun) := none
  quizItems : Option (List QuestQuizItem) := none
  round : Option QuestRoundEdit := none
deriving DecidableEq

/-- A User review check as a request gives it. -/
inductive QuestVerificationInput
  | text (text : JsString)
  | item (item : QuestVerificationItem)
deriving DecidableEq

structure QuestTransitionInput where
  status : QuestStatus
  lastModifiedBy : Option QuestInvocationProvenance := none
  description : Option JsString := none
  tldr : Option JsString := none
  sessionId : Option JsString := none
  ownerKind : Option QuestOwnerKind := none
  leaderSessionId : Option JsString := none
  ownershipEvent : Option QuestOwnershipEventDraft := none
  recoveryEvent : Option QuestRecoveryEventDraft := none
  verificationItems : Option (List QuestVerificationInput) := none
  commitShas : Option (List JsString) := none
  memoryCommitShas : Option (List JsString) := none
  relationships : Option QuestRelationships := none
  quizItems : Option (List QuestQuizItem) := none
  verificationInboxUnread : Option Bool := none
  notes : Option JsString := none
  debrief : Option JsString := none
  debriefTldr : Option JsString := none
  debriefMachine : Option JsString := none
  cancelled : Bool := false
  openRound : Option QuestRoundOpenInput := none
deriving DecidableEq

structure QuestClaimOptions where
  allowArchivedOwnerTakeover : Bool := false
  force : Bool := false
  isSessionArchived : JsString → Bool := fun _ => false
  leaderSessionId : Option JsString := none
  ownerKind : Option QuestOwnerKind := none
  ownershipEvent : Option QuestOwnershipEventDraft := none
  provenance : Option QuestInvocationProvenance := none

/-! ## Helpers -/

def normalizeVerificationItem : QuestVerificationInput → Except JsString QuestVerificationItem
  | .text text => match text.nonempty with
    | some text => .ok ⟨text, false⟩
    | none => .error (js "User review check text must not be empty")
  | .item item => match item.text.nonempty with
    | some text => .ok ⟨text, item.checked⟩
    | none => .error (js "User review check text must not be empty")

def normalizeVerificationItems (items : List QuestVerificationInput) :
    Except JsString (List QuestVerificationItem) := items.mapM normalizeVerificationItem

def normalizeQuestSessionSpaceSlug (value : Option JsString) : Option JsString := value.bind nonempty

def nextVersionId (questId : JsString) (currentVersion : Nat) : JsString :=
  questId ++ js "-v" ++ decimal (currentVersion + 1)

/-- What a builder does last with a record. -/
def finishQuest (liveStore : Bool) (now : Nat) (quest : Quest) : Except JsString Quest :=
  if liveStore then normalizeLiveQuest now quest else .ok quest

/-- The description that a record needs from `refined` on. -/
def requireDescription (description : Option JsString) (status : JsString) :
    Except JsString JsString :=
  match description with
  | some description =>
    if (nonempty description).isSome then .ok description
    else .error (js "Description is required for " ++ status ++ js " status")
  | none => .error (js "Description is required for " ++ status ++ js " status")

/-! ## Creating -/

def buildCreatedQuest (questId : JsString) (input : QuestCreateInput) (liveStore : Bool)
    (now : Nat) : Except JsString Quest := do
  let quizItems ← normalizeQuestQuizItems input.quizItems
  let base : Quest := {
    id := if liveStore then questId else questId ++ js "-v1"
    questId
    version := 1
    title := trim input.title
    createdBy := input.createdBy
    lastModifiedBy := input.createdBy
    tldr := normalizeTldr input.tldr
    createdAt := now
    statusChangedAt := if liveStore then some now else none
    tags := filled input.tags
    parentId := filled input.parentId
    sessionSpaceSlug := normalizeQuestSessionSpaceSlug input.sessionSpaceSlug
    relationships := normalizeQuestRelationships input.relationships questId
    images := filled input.images
    quizItems
    rounds := some [{ openedAt := now }]
    status := .idea }
  match input.status.getD .idea with
  | .idea => finishQuest liveStore now { base with description := filled input.description }
  | .refined => do
    let description ← requireDescription input.description (js "refined")
    finishQuest liveStore now { base with status := .refined, description := some description }
  | .inProgress => .error (js "Cannot create a quest directly in \"in_progress\" status")
  | .done => .error (js "Cannot create a quest directly in \"done\" status")

/-! ## Transitions -/

def closeActiveJourneyRuns (runs : Option (List QuestJourneyRun)) (now : Nat) :
    Option (List QuestJourneyRun) :=
  runs.map fun runs => runs.map fun run =>
    if run.status = .active then { run with status := .completed, completedAt := some now } else run

/-- A transition that changes nothing. -/
def isIdleTransition (current : Quest) (input : QuestTransitionInput) : Bool :=
  input.status = current.status &&
  input.lastModifiedBy.isNone &&
  (filled input.description).isNone &&
  (filled input.sessionId).isNone &&
  input.ownerKind.isNone &&
  input.verificationItems.isNone &&
  input.commitShas.isNone &&
  input.memoryCommitShas.isNone &&
  input.relationships.isNone &&
  (filled input.notes).isNone &&
  input.debrief.isNone &&
  input.debriefTldr.isNone &&
  !input.cancelled &&
  !(input.status = .done && hasQuestReviewMetadata current) &&
  input.tldr.isNone &&
  input.ownershipEvent.isNone &&
  input.recoveryEvent.isNone &&
  input.openRound.isNone

/-- The rounds, with the one that is opened. -/
def nextQuestRounds (current : Quest) (openRound : Option QuestRoundOpenInput) (now : Nat) :
    Except JsString (Option (List QuestRound)) :=
  match openRound with
  | some round => (reopenQuestRounds current round now).map some
  | none => .ok current.rounds

/-- What every status takes over from the record before. -/
def transitionBase (current : Quest) (input : QuestTransitionInput) (liveStore : Bool) (now : Nat) :
    Except JsString Quest := do
  require (input.openRound.isNone || input.status = .refined)
    (js "A new round opens only when reopening to refined")
  require (input.openRound.isNone || current.status = .inProgress || current.status = .done)
    (current.questId ++
      js " has not started its current round; edit that round instead of reopening")
  let rounds ← nextQuestRounds current input.openRound now
  let journeyRuns :=
    if (input.status = .done && !input.cancelled) || input.openRound.isSome then
      closeActiveJourneyRuns current.journeyRuns now
    else current.journeyRuns
  let currentQuizItems ← normalizeQuestQuizItems current.quizItems
  let inputQuizItems ← normalizeQuestQuizItems input.quizItems
  let ownershipEvents ← appendOwnershipEvent current.ownershipEvents input.ownershipEvent now
  let recoveryEvents ← appendQuestRecoveryEvent current.recoveryEvents input.recoveryEvent now
  return {
    id := if liveStore then current.questId else nextVersionId current.questId current.version
    questId := current.questId
    version := current.version + 1
    prevId := if liveStore then none else some current.id
    statusChangedAt := if liveStore then some now else none
    createdAt := if liveStore then current.createdAt else now
    updatedAt := if liveStore then current.updatedAt else none
    createdBy := current.createdBy
    lastModifiedBy := input.lastModifiedBy.or current.lastModifiedBy
    title := current.title
    tldr := match input.tldr with
      | some tldr => normalizeTldr (some tldr)
      | none => normalizeTldr current.tldr
    tags := filled current.tags
    parentId := filled current.parentId
    sessionSpaceSlug := filled current.sessionSpaceSlug
    images := filled current.images
    leaderSessionId := (input.leaderSessionId.bind nonempty).or (getLeaderSessionId current)
    commitShas := filled current.commitShas
    memoryCommitShas := filled current.memoryCommitShas
    codeDeliveries := filled current.codeDeliveries
    deliveryTargetApprovals := filled current.deliveryTargetApprovals
    relationships := match input.relationships with
      | some edit => mergeQuestRelationships current.relationships edit current.questId
      | none => normalizeQuestRelationships current.relationships current.questId
    ownershipEvents := filled ownershipEvents
    recoveryEvents := filled recoveryEvents
    codeCommitEvidenceReplacementEvents := listed
      (normalizeQuestCodeCommitEvidenceReplacementEvents current.codeCommitEvidenceReplacementEvents)
    journeyRuns := filled journeyRuns
    quizItems := inputQuizItems.or currentQuizItems
    rounds := filled rounds
    outcome := current.outcome
    feedback := filled current.feedback
    status := input.status }

/-- The record with its past owners. -/
def withPreviousOwners (quest current : Quest) (owners : List QuestOwnerRef) : Quest :=
  let fields := previousQuestOwnerFields owners current.previousOwners.isSome
  { quest with previousOwnerSessionIds := fields.1, previousOwners := fields.2 }

/-- The owner that a transition to `in_progress` gives the quest. -/
def requestedQuestOwner (current : Quest) (input : QuestTransitionInput) :
    Except JsString QuestOwnerRef :=
  let currentActiveOwner := getQuestOwner current
  let requestedOwnerKind := input.ownerKind.getD
    (if (filled input.sessionId).isSome then .takode
      else (currentActiveOwner.map (·.kind)).getD .takode)
  match (input.sessionId.or (currentActiveOwner.map (·.sessionId))).bind fun sessionId =>
    normalizeQuestOwnerRef ⟨requestedOwnerKind, sessionId⟩ with
  | none => .error (js "sessionId is required for in_progress status")
  | some nextOwner =>
    if currentActiveOwner.any fun owner => owner.kind ≠ nextOwner.kind then
      .error (js "Cross-provider quest takeover is not supported")
    else .ok nextOwner

/-- The commits of a transition, for either key. -/
def inputCommitShaList (shas : Option (List JsString)) : Except JsString (Option (List JsString)) :=
  match filled shas with
  | some shas => do return some (← normalizeCommitShas shas)
  | none => return none

/-- The done record: its debrief, checks and commits. -/
def completedQuest (base current : Quest) (input : QuestTransitionInput)
    (inputCommitShas inputMemoryCommitShas : Option (List JsString)) (now : Nat) :
    Except JsString Quest := do
  let description ←
    requireDescription (input.description.or current.description) (js "done")
  require (!input.cancelled || (input.debrief.isNone && input.debriefTldr.isNone))
    (js "Final debrief metadata is only supported for completed quests, not cancelled quests")
  let reviewed := current.status = .done && !input.cancelled
  let currentDebrief := if reviewed then current.debrief else none
  let debrief := if input.debrief.isSome && !input.cancelled then input.debrief.map trim
    else currentDebrief
  let debriefMachine := if input.debrief.isSome then input.debriefMachine
    else if (filled currentDebrief).isSome then current.debriefMachine else none
  let notes := input.notes.or (if reviewed then current.notes else none)
  let debriefTldr := if input.cancelled then none
    else match input.debriefTldr with
      | some tldr => normalizeTldr (some tldr)
      | none => if current.status = .done then normalizeTldr current.debriefTldr else none
  let completedOwner := (getQuestOwner current).or (input.sessionId.bind fun sessionId =>
    normalizeQuestOwnerRef ⟨input.ownerKind.getD .takode, sessionId⟩)
  let previousOwners := appendQuestOwner (getPreviousQuestOwners current) completedOwner
  let verificationItems ← normalizeVerificationItems
    (input.verificationItems.getD ((current.verificationItems.getD []).map .item))
  let commitShas ← commitShaField current.commitShas inputCommitShas
  let memoryCommitShas ← commitShaField current.memoryCommitShas inputMemoryCommitShas
  return { withPreviousOwners base current previousOwners with
    description := some description
    claimedAt := some (current.claimedAt.getD now)
    verificationItems := some verificationItems
    commitShas := commitShas.or base.commitShas
    memoryCommitShas := memoryCommitShas.or base.memoryCommitShas
    completedAt := some now
    verificationInboxUnread := input.verificationInboxUnread
    notes := filled notes
    debrief := filled debrief
    debriefMachine := if (filled debrief).isSome then filled debriefMachine else none
    debriefTldr
    cancelled := if input.cancelled then some true else none }

def buildTransitionedQuest (current : Quest) (input : QuestTransitionInput) (liveStore : Bool)
    (now : Nat) : Except JsString Quest := do
  if isIdleTransition current input then return current else
  let base ← transitionBase current input liveStore now
  require ((input.commitShas.isNone && input.memoryCommitShas.isNone) || input.status = .done)
    (js "commit SHAs can only be set when completing a quest")
  let inputCommitShas ← inputCommitShaList input.commitShas
  let inputMemoryCommitShas ← inputCommitShaList input.memoryCommitShas
  let currentActiveOwner := getQuestOwner current
  let previousOwners := getPreviousQuestOwners current
  match input.status with
  | .idea =>
    finishQuest liveStore now
      { withPreviousOwners base current (appendQuestOwner previousOwners currentActiveOwner) with
        description := input.description.or (filled current.description) }
  | .refined => do
    let description ←
      requireDescription (input.description.or current.description) (js "refined")
    finishQuest liveStore now
      { withPreviousOwners base current (appendQuestOwner previousOwners currentActiveOwner) with
        description := some description }
  | .inProgress => do
    let description ←
      requireDescription (input.description.or current.description) (js "in_progress")
    let nextOwner ← requestedQuestOwner current input
    let previousOwners := if sameQuestOwner currentActiveOwner (some nextOwner) then previousOwners
      else appendQuestOwner previousOwners currentActiveOwner
    let fields := activeQuestOwnerFields nextOwner
    finishQuest liveStore now
      { withPreviousOwners base current (previousOwners.filter fun owner => owner ≠ nextOwner) with
        description := some description
        sessionId := fields.1
        ownerKind := fields.2
        claimedAt := some now }
  | .done => do
    let quest ← completedQuest base current input inputCommitShas inputMemoryCommitShas now
    finishQuest liveStore now quest

/-! ## Cancelling -/

def buildCancelledQuest (current : Quest) (notes : Option JsString) (liveStore : Bool)
    (provenance : Option QuestInvocationProvenance) (now : Nat) : Except JsString Quest := do
  let cancelQuizItems ← normalizeQuestQuizItems current.quizItems
  let ownershipEvents ← appendOwnershipEvent current.ownershipEvents none now
  let previousOwners := appendQuestOwner (getPreviousQuestOwners current) (getQuestOwner current)
  let base : Quest := {
    id := if liveStore then current.questId else nextVersionId current.questId current.version
    questId := current.questId
    version := current.version + 1
    prevId := if liveStore then none else some current.id
    createdAt := if liveStore then current.createdAt else now
    statusChangedAt := if liveStore then some now else none
    updatedAt := if liveStore then current.updatedAt else none
    title := current.title
    createdBy := current.createdBy
    lastModifiedBy := provenance.or current.lastModifiedBy
    tldr := normalizeTldr current.tldr
    tags := filled current.tags
    parentId := filled current.parentId
    sessionSpaceSlug := filled current.sessionSpaceSlug
    images := filled current.images
    leaderSessionId := getLeaderSessionId current
    ownershipEvents := filled ownershipEvents
    codeCommitEvidenceReplacementEvents := listed
      (normalizeQuestCodeCommitEvidenceReplacementEvents current.codeCommitEvidenceReplacementEvents)
    relationships := normalizeQuestRelationships current.relationships current.questId
    commitShas := filled current.commitShas
    codeDeliveries := filled current.codeDeliveries
    deliveryTargetApprovals := filled current.deliveryTargetApprovals
    journeyRuns := filled current.journeyRuns
    quizItems := cancelQuizItems
    rounds := filled current.rounds
    outcome := current.outcome
    status := .done
    description := filled current.description
    claimedAt := some (current.claimedAt.getD now)
    verificationItems := some (current.verificationItems.getD [])
    completedAt := some now
    cancelled := some true
    notes := filled notes
    feedback := filled current.feedback }
  finishQuest liveStore now (withPreviousOwners base current previousOwners)

/-! ## Claiming -/

def archivedOwnerTakeoverEvent (actorSessionId previousOwnerSessionId : JsString)
    (previousLeaderSessionId newLeaderSessionId : Option JsString) : QuestOwnershipEventDraft :=
  { operation := .archivedOwnerTakeover
    actorSessionId := trim actorSessionId
    previousOwnerSessionId := trim previousOwnerSessionId
    newOwnerSessionId := trim actorSessionId
    reason := js "previous owner archived"
    previousLeaderSessionId := previousLeaderSessionId.bind nonempty
    newLeaderSessionId := newLeaderSessionId.bind nonempty }

/-- The audit event of a claim that takes the quest from its owner. -/
def takeoverEvent (getName : JsString → Option JsString) (current : Quest)
    (currentOwner nextOwner : QuestOwnerRef) (leaderSessionId : Option JsString)
    (options : QuestClaimOptions) : Except JsString QuestOwnershipEventDraft :=
  if currentOwner.kind ≠ nextOwner.kind then
    .error (js "Quest " ++ current.questId ++ js " is already claimed by " ++
      currentOwner.kind.text ++ js " owner " ++ currentOwner.sessionId ++
      js "; cross-provider takeover by " ++ nextOwner.kind.text ++ js " is not supported")
  else if options.allowArchivedOwnerTakeover && currentOwner.kind = .takode &&
      options.isSessionArchived currentOwner.sessionId then
    .ok (options.ownershipEvent.getD (archivedOwnerTakeoverEvent nextOwner.sessionId
      currentOwner.sessionId (getLeaderSessionId current) leaderSessionId))
  else if options.force then
    match options.ownershipEvent with
    | some event => .ok event
    | none => .error (js "Ownership takeover audit event is required")
  else
    let ownerName := if currentOwner.kind = .takode then filled (getName currentOwner.sessionId)
      else none
    let ownerLabel := match ownerName with
      | some name => js "\"" ++ name ++ js "\" (" ++ currentOwner.sessionId.take 8 ++ js ")"
      | none => currentOwner.sessionId
    .error (js "Quest " ++ current.questId ++ js " is already claimed by session " ++ ownerLabel)

def claimOwnershipEvent (getName : JsString → Option JsString) (current : Quest)
    (currentOwner : Option QuestOwnerRef) (nextOwner : QuestOwnerRef)
    (leaderSessionId : Option JsString) (options : QuestClaimOptions) :
    Except JsString (Option QuestOwnershipEventDraft) :=
  match currentOwner with
  | some owner => (takeoverEvent getName current owner nextOwner leaderSessionId options).map some
  | none => .ok none

/-- `getName` is the register of session names, `existing` the quest that the owner has in
progress. -/
def buildQuestClaimTransitionInput (getName : JsString → Option JsString) (current : Quest)
    (nextOwner : QuestOwnerRef) (leaderSessionId : Option JsString) (options : QuestClaimOptions)
    (existing : Option Quest) : Except JsString (Option QuestTransitionInput) :=
  let fields := activeQuestOwnerFields nextOwner
  let currentOwner := if current.status = .inProgress then getQuestOwner current else none
  let input : QuestTransitionInput := {
    status := .inProgress
    sessionId := fields.1
    ownerKind := fields.2
    leaderSessionId := filled leaderSessionId
    lastModifiedBy := options.provenance }
  if sameQuestOwner currentOwner (some nextOwner) then
    if (filled leaderSessionId).isNone || getLeaderSessionId current = leaderSessionId then .ok none
    else .ok (some input)
  else do
    let ownershipEvent ← claimOwnershipEvent getName current currentOwner nextOwner leaderSessionId
      options
    match existing.filter fun other => other.questId ≠ current.questId with
    | some other =>
      .error (js "Session already has an active quest: " ++ other.questId ++ js " \"" ++
        other.title ++ js "\". Complete or transition it before claiming another.")
    | none => return some { input with ownershipEvent }

def assertQuestMutationOwner (quest : Quest) (requestedOwner : QuestOwnerRef) (action : JsString) :
    Except JsString Unit :=
  match if quest.status = .inProgress then getQuestOwner quest else none with
  | none => .ok ()
  | some activeOwner =>
    if activeOwner = requestedOwner then .ok ()
    else .error (js "Quest " ++ quest.questId ++ js " is owned by " ++ activeOwner.kind.text ++
      js " owner " ++ activeOwner.sessionId ++ js "; " ++ requestedOwner.kind.text ++ js " owner " ++
      requestedOwner.sessionId ++ js " cannot " ++ action ++ js " it")

/-! ## Patches -/

/-- Entries are compared without the machine they came from. -/
def feedbackEntriesEqual (a b : Option QuestFeedbackEntry) : Bool :=
  a.map (fun entry => { entry with machine := none }) =
    b.map fun entry => { entry with machine := none }

def shouldMarkVerificationInboxUnreadFromFeedbackPatch (current : Quest)
    (nextFeedback : Option (List QuestFeedbackEntry)) : Bool :=
  let previous := current.feedback.getD []
  let next := nextFeedback.getD []
  hasQuestReviewMetadata current && (List.range (max previous.length next.length)).any fun index =>
    !feedbackEntriesEqual previous[index]? next[index]? &&
      (previous[index]?.any (fun entry => entry.author = .agent) ||
        next[index]?.any fun entry => entry.author = .agent)

def patchedQuizItems (current : Quest) (patch : QuestPatchInput) :
    Except JsString (Option (List QuestQuizItem)) :=
  match patch.quizItems with
  | some items => normalizeQuestQuizItems (some items)
  | none => .ok current.quizItems

def patchedRounds (current : Quest) (patch : QuestPatchInput) :
    Except JsString (Option (List QuestRound)) :=
  match patch.round with
  | some edit => (editQuestRound current edit).map some
  | none => .ok current.rounds

/-- `applyQuestPatch`, and the author of the patch. -/
def applyQuestPatch (current : Quest) (questId : JsString) (patch : QuestPatchInput) (now : Nat) :
    Except JsString Quest := do
  let unread := shouldMarkVerificationInboxUnreadFromFeedbackPatch current patch.feedback
  let quizItems ← patchedQuizItems current patch
  let rounds ← patchedRounds current patch
  return { current with
    updatedAt := some now
    title := (patch.title.map trim).getD current.title
    description := (patch.description.map trim).or current.description
    tldr := match patch.tldr with
      | some tldr => normalizeTldr (some tldr)
      | none => current.tldr
    tags := patch.tags.or current.tags
    sessionSpaceSlug := match patch.sessionSpaceSlug with
      | some slug => normalizeQuestSessionSpaceSlug (some slug)
      | none => current.sessionSpaceSlug
    relationships := match patch.relationships with
      | some edit => mergeQuestRelationships current.relationships edit questId
      | none => current.relationships
    feedback := match patch.feedback with
      | some feedback => listed feedback
      | none => current.feedback
    journeyRuns := match patch.journeyRuns with
      | some runs => listed runs
      | none => current.journeyRuns
    quizItems, rounds
    verificationInboxUnread := if unread then some true else current.verificationInboxUnread
    lastModifiedBy := patch.lastModifiedBy.or current.lastModifiedBy }

/-! ## Evidence -/

/-- `none` where the record stays as it is. -/
def appendCodeEvidence (current : Quest) (owner : QuestOwnerRef) (commitShas : List JsString)
    (delivery : Option QuestCodeDelivery) (now : Nat) : Except JsString (Option Quest) := do
  require (current.status = .inProgress)
    (js "Code commit evidence can only be attached to an in-progress quest")
  require (getQuestOwner current = some owner)
    (js "Only the exact active quest owner may attach in-progress code commit evidence")
  require (delivery.all fun delivery => delivery.actorSessionId = owner.sessionId &&
      delivery.commits.map (·.sha) = commitShas)
    (js "Delivery identity must match the exact code commit SHA submission and owner.")
  let existing := delivery.bind fun delivery =>
    (current.codeDeliveries.getD []).find? fun candidate => candidate.id = delivery.id
  let plain (delivery : QuestCodeDelivery) : QuestCodeDelivery :=
    { delivery with recordedAt := 0, targetHeadSha := [] }
  require (existing.isNone || existing.map plain = delivery.map plain)
    (js "A recorded delivery cannot be changed.")
  let next ← commitShaField current.commitShas (some commitShas)
  if (delivery.isNone || existing.isSome) && next.getD [] = current.commitShas.getD [] then
    return none
  else return some { current with
    commitShas := next.or current.commitShas
    codeDeliveries := if existing.isSome then current.codeDeliveries
      else match delivery with
        | some delivery => some (current.codeDeliveries.getD [] ++ [delivery])
        | none => current.codeDeliveries
    updatedAt := some now }

end Takode.Quests
