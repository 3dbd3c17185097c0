import Takode.Quests.Transitions

/-!
# Quest evidence

A change of status keeps what the quest has gathered: its audit events and commits only
grow, its rounds and Journey runs are at most closed, and the rest stays as it was.
-/

namespace Takode.Quests

open JsString

variable {current draft quest : Quest} {input : QuestTransitionInput} {now : Nat}

/-- What `normalizeLiveQuest` leaves alone, and what it makes of the rest. -/
structure LiveForm (draft quest : Quest) : Prop where
  questId : quest.questId = draft.questId
  status : quest.status = draft.status
  version : 0 < draft.version → quest.version = draft.version
  title : quest.title = draft.title
  tags : quest.tags = draft.tags
  parentId : quest.parentId = draft.parentId
  sessionSpaceSlug : quest.sessionSpaceSlug = draft.sessionSpaceSlug
  images : quest.images = draft.images
  feedback : quest.feedback = draft.feedback
  codeDeliveries : quest.codeDeliveries = draft.codeDeliveries
  deliveryTargetApprovals : quest.deliveryTargetApprovals = draft.deliveryTargetApprovals
  outcome : quest.outcome = draft.outcome
  commitShas : quest.commitShas = draft.commitShas
  memoryCommitShas : quest.memoryCommitShas = draft.memoryCommitShas
  journeyRuns : quest.journeyRuns = draft.journeyRuns
  rounds : quest.rounds = draft.rounds
  leaderSessionId : quest.leaderSessionId = getLeaderSessionId draft
  ownershipEvents : quest.ownershipEvents = listed (normalizeOwnershipEvents draft.ownershipEvents)
  recoveryEvents : quest.recoveryEvents = listed (normalizeQuestRecoveryEvents draft.recoveryEvents)
  replacements : quest.codeCommitEvidenceReplacementEvents =
    listed (normalizeQuestCodeCommitEvidenceReplacementEvents
      draft.codeCommitEvidenceReplacementEvents)
  relationships :
    quest.relationships = normalizeQuestRelationships draft.relationships draft.questId
  quizItems : normalizeQuestQuizItems draft.quizItems = .ok quest.quizItems

theorem liveForm_of_normalizeLiveQuest (normalized : normalizeLiveQuest now draft = .ok quest) :
    LiveForm draft quest := by
  obtain ⟨quizItems, quiz, normalized⟩ := bind_eq_ok.mp normalized
  obtain rfl := pure_eq_ok.mp normalized
  exact {
    questId := rfl, status := rfl, version := fun positive => if_pos positive, title := rfl
    tags := rfl, parentId := rfl, sessionSpaceSlug := rfl, images := rfl, feedback := rfl
    codeDeliveries := rfl, deliveryTargetApprovals := rfl, outcome := rfl, commitShas := rfl
    memoryCommitShas := rfl, journeyRuns := rfl, rounds := rfl, leaderSessionId := rfl
    ownershipEvents := rfl, recoveryEvents := rfl, replacements := rfl, relationships := rfl
    quizItems := quiz }

/-- The rounds once a round is opened: the latest one is closed and the new one follows. -/
def Reopened (old new : List QuestRound) : Prop :=
  ∃ first latest closed opened, old = first ++ [latest] ∧ new = first ++ [closed, opened] ∧
    closed = { latest with
      closedAt := closed.closedAt, outcome := closed.outcome, outcomeTldr := closed.outcomeTldr } ∧
    closed.closedAt.isSome = true ∧
    (latest.closedAt.isSome = true → closed.closedAt = latest.closedAt) ∧
    ((filled latest.outcome).isSome = true →
      closed.outcome = latest.outcome ∧ closed.outcomeTldr = latest.outcomeTldr)

/-- What stays of a record in any change of its status. -/
structure EvidenceKept (current quest : Quest) : Prop where
  title : quest.title = current.title
  tags : quest.tags = filled current.tags
  parentId : quest.parentId = filled current.parentId
  sessionSpaceSlug : quest.sessionSpaceSlug = filled current.sessionSpaceSlug
  images : quest.images = filled current.images
  feedback : quest.feedback = filled current.feedback
  codeDeliveries : quest.codeDeliveries = filled current.codeDeliveries
  deliveryTargetApprovals : quest.deliveryTargetApprovals = filled current.deliveryTargetApprovals
  outcome : quest.outcome = current.outcome
  ownershipEvents : current.ownershipEvents.getD [] <+: quest.ownershipEvents.getD []
  replacements : quest.codeCommitEvidenceReplacementEvents =
    current.codeCommitEvidenceReplacementEvents
  commitShas : Appended current.commitShas quest.commitShas
  version : quest.version = current.version + 1

/-- What stays in a transition with the input. -/
structure TransitionKept (current quest : Quest) (input : QuestTransitionInput) (now : Nat) :
    Prop extends EvidenceKept current quest where
  leaderSessionId :
    quest.leaderSessionId = (input.leaderSessionId.bind nonempty).or current.leaderSessionId
  recoveryEvents : current.recoveryEvents.getD [] <+: quest.recoveryEvents.getD []
  memoryCommitShas : Appended current.memoryCommitShas quest.memoryCommitShas
  journeyRuns : quest.journeyRuns = filled current.journeyRuns ∨
    quest.journeyRuns = filled (closeActiveJourneyRuns current.journeyRuns now)
  rounds : match input.openRound with
    | none => quest.rounds = filled current.rounds
    | some _ => Reopened (questRoundRecords current) (quest.rounds.getD [])
  quizItems : input.quizItems.getD [] = [] → quest.quizItems = current.quizItems
  relationships : input.relationships = none → quest.relationships = current.relationships

/-- What stays in a cancellation. -/
structure CancellationKept (current quest : Quest) : Prop extends EvidenceKept current quest where
  leaderSessionId : quest.leaderSessionId = current.leaderSessionId
  journeyRuns : quest.journeyRuns = filled current.journeyRuns
  rounds : quest.rounds = filled current.rounds
  quizItems : quest.quizItems = current.quizItems
  relationships : quest.relationships = current.relationships

/-! ## Audit events -/

theorem appendOwnershipEvent_eq_ok {existing events : Option (List QuestOwnershipEvent)}
    {event : Option QuestOwnershipEventDraft}
    (appended : appendOwnershipEvent existing event now = .ok events) :
    ∃ more, events.getD [] = normalizeOwnershipEvents existing ++ more := by
  unfold appendOwnershipEvent at appended
  cases event with
  | none =>
    obtain rfl := pure_eq_ok.mp appended
    exact ⟨[], by rw [getD_listed, List.append_nil]⟩
  | some event =>
    obtain ⟨built, _, appended⟩ := bind_eq_ok.mp appended
    obtain rfl := pure_eq_ok.mp appended
    exact ⟨[built], rfl⟩

theorem appendQuestRecoveryEvent_eq_ok {existing events : Option (List QuestRecoveryEvent)}
    {event : Option QuestRecoveryEventDraft}
    (appended : appendQuestRecoveryEvent existing event now = .ok events) :
    ∃ more, events.getD [] = normalizeQuestRecoveryEvents existing ++ more := by
  unfold appendQuestRecoveryEvent at appended
  cases event with
  | none =>
    obtain rfl := pure_eq_ok.mp appended
    exact ⟨[], by rw [getD_listed, List.append_nil]⟩
  | some event =>
    obtain ⟨built, _, appended⟩ := bind_eq_ok.mp appended
    obtain rfl := pure_eq_ok.mp appended
    exact ⟨[built], rfl⟩

theorem events_prefix {α : Type} {f : α → Option α} (stable : Normalizes f)
    {old events : Option (List α)} {more : List α}
    (normal : old = listed ((old.getD []).filterMap f))
    (appended : events.getD [] = (old.getD []).filterMap f ++ more) :
    old.getD [] <+: (listed (((filled events).getD []).filterMap f)).getD [] := by
  have stored : old.getD [] = (old.getD []).filterMap f := by
    conv_lhs => rw [normal]
    exact getD_listed _
  rw [getD_listed, getD_filled, appended]
  conv_lhs => rw [stored]
  exact stable.prefix_filterMap_append (old.getD []) more

/-! ## Rounds -/

theorem derivedRounds_ne_nil (feedback : Option (List QuestFeedbackEntry)) (first : Nat)
    {runs : List QuestJourneyRun} (some' : runs ≠ []) : derivedRounds feedback first runs ≠ [] := by
  match runs, some' with
  | [_], _ => exact List.cons_ne_nil _ _
  | _ :: _ :: _, _ => exact List.cons_ne_nil _ _

theorem questRoundRecords_ne_nil (quest : Quest) : questRoundRecords quest ≠ [] := by
  unfold questRoundRecords
  split
  · rename_i rounds stored
    obtain ⟨_, full⟩ := Option.filter_eq_some_iff.mp stored
    simpa using full
  · simp only
    split
    · exact List.cons_ne_nil _ _
    · rename_i many
      refine derivedRounds_ne_nil _ _ fun none' => many ?_
      rw [none']
      exact Nat.zero_le 1

theorem modify_concat {α : Type} (f : α → α) (first : List α) (last : α) :
    (first ++ [last]).modify ((first ++ [last]).length - 1) f = first ++ [f last] := by
  rw [List.length_append, List.length_singleton, Nat.add_sub_cancel]
  induction first with
  | nil => rfl
  | cons a first ih => exact congrArg (List.cons a) ih

theorem closeRound_closed (quest : Quest) (now : Nat) (latest : QuestRound) :
    let closed := closeRound quest now latest
    closed = { latest with
        closedAt := closed.closedAt, outcome := closed.outcome, outcomeTldr := closed.outcomeTldr } ∧
      closed.closedAt.isSome = true ∧
      (latest.closedAt.isSome = true → closed.closedAt = latest.closedAt) ∧
      ((filled latest.outcome).isSome = true →
        closed.outcome = latest.outcome ∧ closed.outcomeTldr = latest.outcomeTldr) := by
  obtain ⟨openedAt, title, brief, requests, closedAt, outcome, outcomeTldr, derived⟩ := latest
  unfold closeRound
  cases closedAt with
  | some at' =>
    simp only
    split
    · rename_i unsaid
      refine ⟨rfl, rfl, fun _ => rfl, fun said => ?_⟩
      simp [Option.isNone_iff_eq_none.mp (Bool.and_eq_true_iff.mp unsaid).2] at said
    · exact ⟨rfl, rfl, fun _ => rfl, fun _ => ⟨rfl, rfl⟩⟩
  | none =>
    simp only
    split
    · rename_i unsaid
      refine ⟨rfl, rfl, fun closed => (by cases closed), fun said => ?_⟩
      simp [Option.isNone_iff_eq_none.mp (Bool.and_eq_true_iff.mp unsaid).2] at said
    · exact ⟨rfl, rfl, fun closed => (by cases closed), fun _ => ⟨rfl, rfl⟩⟩

theorem reopenQuestRounds_reopened {opening : QuestRoundOpenInput} {rounds : List QuestRound}
    (reopened : reopenQuestRounds quest opening now = .ok rounds) :
    Reopened (questRoundRecords quest) rounds := by
  unfold reopenQuestRounds at reopened
  simp only at reopened
  split at reopened
  · split at reopened
    · cases reopened
    · obtain rfl := pure_eq_ok.mp reopened
      have records := List.dropLast_append_getLast (questRoundRecords_ne_nil quest)
      generalize (questRoundRecords quest).dropLast = first at records
      generalize (questRoundRecords quest).getLast _ = latest at records
      rw [← records, modify_concat]
      exact ⟨first, latest, closeRound quest now latest, _, rfl, List.append_assoc _ _ _,
        closeRound_closed quest now latest⟩
  · cases reopened

/-! ## Transitions and cancellations -/

theorem relationships_stable (normal : current.relationships =
      normalizeQuestRelationships current.relationships current.questId) :
    normalizeQuestRelationships (normalizeQuestRelationships current.relationships current.questId)
      current.questId = current.relationships := by
  rw [← normal, ← normal]

theorem replacements_stable (normal : current.codeCommitEvidenceReplacementEvents =
      listed (normalizeQuestCodeCommitEvidenceReplacementEvents
        current.codeCommitEvidenceReplacementEvents)) :
    listed (normalizeQuestCodeCommitEvidenceReplacementEvents
      (listed (normalizeQuestCodeCommitEvidenceReplacementEvents
        current.codeCommitEvidenceReplacementEvents))) =
      current.codeCommitEvidenceReplacementEvents := by
  rw [← normal, ← normal]

theorem normalizeQuestQuizItems_of_empty {items normalized : Option (List QuestQuizItem)}
    (empty : items.getD [] = []) (given : normalizeQuestQuizItems items = .ok normalized) :
    normalized = none := by
  cases items with
  | none =>
    cases given
    rfl
  | some items =>
    obtain rfl : items = [] := empty
    cases given
    rfl

theorem normalizeSessionId_or {value : Option JsString} :
    normalizeSessionId ((value.bind nonempty).or (getLeaderSessionId current)) =
      (value.bind nonempty).or (getLeaderSessionId current) := by
  cases named : value.bind nonempty with
  | some leader =>
    obtain ⟨text, _, found⟩ := Option.bind_eq_some_iff.mp named
    exact nonempty_normalizes found
  | none => exact nonempty_normalizes.bind_bind current.leaderSessionId

theorem transition_keeps_evidence {at' : Nat} (fixed : normalizeLiveQuest at' current = .ok current)
    (built : buildTransitionedQuest current input true now = .ok quest) :
    quest = current ∨ TransitionKept current quest input now := by
  rcases buildTransitionedQuest_eq_ok built with ⟨_, same⟩ | ⟨base, draft, nextOwner, owners, done⟩
  · exact .inl same
  right
  have was := liveForm_of_normalizeLiveQuest fixed
  have is := liveForm_of_normalizeLiveQuest (show normalizeLiveQuest now draft = .ok quest from
    done.finished)
  have carries := done.carries
  have began := done.began
  unfold transitionBase at began
  obtain ⟨_, _, began⟩ := bind_eq_ok.mp began
  obtain ⟨_, _, began⟩ := bind_eq_ok.mp began
  obtain ⟨rounds, opened, began⟩ := bind_eq_ok.mp began
  obtain ⟨currentQuizItems, quiz, began⟩ := bind_eq_ok.mp began
  obtain ⟨inputQuizItems, given, began⟩ := bind_eq_ok.mp began
  obtain ⟨ownershipEvents, owned, began⟩ := bind_eq_ok.mp began
  obtain ⟨recoveryEvents, recovered, began⟩ := bind_eq_ok.mp began
  obtain rfl := pure_eq_ok.mp began
  have leader : quest.leaderSessionId =
      (input.leaderSessionId.bind nonempty).or (getLeaderSessionId current) := by
    rw [is.leaderSessionId, getLeaderSessionId, carries.leaderSessionId]
    exact normalizeSessionId_or
  refine ⟨⟨?_, ?_, ?_, ?_, ?_, ?_, ?_, ?_, ?_, ?_, ?_, ?_, ?_⟩, ?_, ?_, ?_, ?_, ?_, ?_, ?_⟩
  · exact is.title.trans carries.title
  · exact is.tags.trans carries.tags
  · exact is.parentId.trans carries.parentId
  · exact is.sessionSpaceSlug.trans carries.sessionSpaceSlug
  · exact is.images.trans carries.images
  · exact is.feedback.trans carries.feedback
  · exact is.codeDeliveries.trans carries.codeDeliveries
  · exact is.deliveryTargetApprovals.trans carries.deliveryTargetApprovals
  · exact is.outcome.trans carries.outcome
  · obtain ⟨more, appended⟩ := appendOwnershipEvent_eq_ok owned
    rw [is.ownershipEvents, carries.ownershipEvents]
    exact events_prefix normalizeOwnershipEvent_normalizes was.ownershipEvents appended
  · rw [is.replacements, carries.replacements]
    exact replacements_stable was.replacements
  · rw [is.commitShas]
    exact done.commitShas
  · rw [is.version (by rw [carries.version]; exact Nat.succ_pos _), carries.version]
  · exact leader.trans (by rw [← was.leaderSessionId])
  · obtain ⟨more, appended⟩ := appendQuestRecoveryEvent_eq_ok recovered
    rw [is.recoveryEvents, carries.recoveryEvents]
    exact events_prefix normalizeQuestRecoveryEvent_normalizes was.recoveryEvents appended
  · rw [is.memoryCommitShas]
    exact done.memoryCommitShas
  · rw [is.journeyRuns, carries.journeyRuns]
    simp only
    split
    · exact .inr rfl
    · exact .inl rfl
  · have kept : quest.rounds = filled rounds := is.rounds.trans carries.rounds
    unfold nextQuestRounds at opened
    cases opening : input.openRound with
    | none =>
      rw [opening] at opened
      obtain rfl := Except.ok.inj opened
      exact kept
    | some round =>
      rw [opening] at opened
      obtain ⟨rounds', reopened, rfl⟩ := map_eq_ok.mp opened
      show Reopened _ (quest.rounds.getD [])
      rw [kept, getD_filled]
      exact reopenQuestRounds_reopened reopened
  · intro empty
    have quizItems : draft.quizItems = current.quizItems := by
      rw [carries.quizItems]
      simp only
      rw [normalizeQuestQuizItems_of_empty empty given, Option.none_or]
      exact Except.ok.inj (quiz.symm.trans was.quizItems)
    have items := is.quizItems
    rw [quizItems, was.quizItems] at items
    exact (Except.ok.inj items).symm
  · intro unedited
    rw [is.relationships, carries.relationships, carries.questId, unedited]
    exact relationships_stable was.relationships

theorem cancellation_keeps_evidence {at' : Nat} {notes : Option JsString}
    {provenance : Option QuestInvocationProvenance}
    (fixed : normalizeLiveQuest at' current = .ok current)
    (built : buildCancelledQuest current notes true provenance now = .ok quest) :
    CancellationKept current quest := by
  have was := liveForm_of_normalizeLiveQuest fixed
  unfold buildCancelledQuest at built
  obtain ⟨quizItems, quiz, built⟩ := bind_eq_ok.mp built
  obtain ⟨ownershipEvents, owned, built⟩ := bind_eq_ok.mp built
  have is := liveForm_of_normalizeLiveQuest (show normalizeLiveQuest now _ = .ok quest from built)
  refine ⟨⟨is.title, is.tags, is.parentId, is.sessionSpaceSlug, is.images, is.feedback,
    is.codeDeliveries, is.deliveryTargetApprovals, is.outcome, ?_, ?_, ?_, ?_⟩, ?_, is.journeyRuns,
    is.rounds, ?_, ?_⟩
  · obtain ⟨more, appended⟩ := appendOwnershipEvent_eq_ok owned
    rw [is.ownershipEvents]
    exact events_prefix normalizeOwnershipEvent_normalizes was.ownershipEvents appended
  · rw [is.replacements]
    exact replacements_stable was.replacements
  · rw [is.commitShas]
    exact Appended.refl current.commitShas
  · exact is.version (Nat.succ_pos _)
  · rw [is.leaderSessionId, was.leaderSessionId]
    exact nonempty_normalizes.bind_bind current.leaderSessionId
  · have items := is.quizItems
    simp only [withPreviousOwners] at items
    rw [← Except.ok.inj (was.quizItems.symm.trans quiz), was.quizItems] at items
    exact (Except.ok.inj items).symm
  · rw [is.relationships]
    exact relationships_stable was.relationships

theorem claim_input {getName : JsString → Option JsString} {nextOwner : QuestOwnerRef}
    {leaderSessionId : Option JsString} {options : QuestClaimOptions} {existing : Option Quest}
    (claimed : buildQuestClaimTransitionInput getName current nextOwner leaderSessionId options
      existing = .ok (some input)) :
    input.status = .inProgress ∧ input.sessionId = some nextOwner.sessionId ∧
      input.ownerKind = (activeQuestOwnerFields nextOwner).2 ∧ input.quizItems = none ∧
      input.relationships = none := by
  unfold buildQuestClaimTransitionInput at claimed
  simp only at claimed
  generalize (if current.status = .inProgress then getQuestOwner current else none) = owner at claimed
  split at claimed
  · split at claimed
    · cases claimed
    · obtain rfl := Option.some.inj (Except.ok.inj claimed)
      exact ⟨rfl, rfl, rfl, rfl, rfl⟩
  · obtain ⟨event, _, claimed⟩ := bind_eq_ok.mp claimed
    split at claimed
    · cases claimed
    · obtain rfl := Option.some.inj (pure_eq_ok.mp claimed)
      exact ⟨rfl, rfl, rfl, rfl, rfl⟩

/-- No change of status loses evidence: of a record in its live form, a transition keeps what
`TransitionKept` says, a claim that changes it all of that and its quiz items and relationships, and a
cancellation what `CancellationKept` says. -/
theorem quest_evidence_kept {at' : Nat} (fixed : normalizeLiveQuest at' current = .ok current) :
    (∀ now input quest, buildTransitionedQuest current input true now = .ok quest →
      quest = current ∨ TransitionKept current quest input now) ∧
    (∀ getName nextOwner leaderSessionId options existing input now quest,
      buildQuestClaimTransitionInput getName current nextOwner leaderSessionId options existing =
        .ok (some input) → buildTransitionedQuest current input true now = .ok quest →
      quest = current ∨ (TransitionKept current quest input now ∧
        quest.quizItems = current.quizItems ∧ quest.relationships = current.relationships)) ∧
    (∀ notes provenance now quest, buildCancelledQuest current notes true provenance now = .ok quest →
      CancellationKept current quest) := by
  refine ⟨fun now input quest => transition_keeps_evidence fixed, ?_,
    fun notes provenance now quest => cancellation_keeps_evidence fixed⟩
  intro getName nextOwner leaderSessionId options existing input now quest claimed built
  obtain ⟨_, _, _, unasked, unrelated⟩ := claim_input claimed
  rcases transition_keeps_evidence fixed built with same | kept
  · exact .inl same
  · exact .inr ⟨kept, kept.quizItems (by rw [unasked, Option.getD_none]), kept.relationships unrelated⟩

/-- A quest in progress with a leader, a recovery and a commit of the Memory phase. -/
def claimedQuest : Quest where
  id := js "q-1"
  questId := js "q-1"
  version := 1
  title := js "Title"
  createdAt := 1
  statusChangedAt := some 1
  status := .inProgress
  description := some (js "What to do")
  sessionId := some (js "s-1")
  claimedAt := some 1
  leaderSessionId := some (js "l-1")
  recoveryEvents := some [{
    actorSessionId := js "l-1"
    reason := js "worker gone"
    previousStatus := .inProgress
    boardRows := []
    supplied := ⟨0, [], [], false, false⟩
    bypassedChecks := [js "owner"]
    ts := 1 }]
  memoryCommitShas := some [js "abcdef1"]

theorem claimedQuest_evidence_kept : ∃ quest,
    buildTransitionedQuest claimedQuest { status := .done } true 2 = .ok quest ∧
      (quest = claimedQuest ∨ TransitionKept claimedQuest quest { status := .done } 2) := by
  obtain ⟨quest, built⟩ : ∃ quest,
    buildTransitionedQuest claimedQuest { status := .done } true 2 = .ok quest := ⟨_, rfl⟩
  refine ⟨quest, built, ?_⟩
  have normal : normalizeLiveQuest 1 claimedQuest = .ok claimedQuest := rfl
  exact (quest_evidence_kept normal).1 2 { status := .done } quest built

/-- A transition that names another leader replaces the leader, and a cancellation drops the recovery
events and the commits of the Memory phase. -/
theorem quest_evidence_changed :
    normalizeLiveQuest 1 claimedQuest = .ok claimedQuest ∧
    (buildTransitionedQuest claimedQuest { status := .done, leaderSessionId := some (js "l-2") }
      true 2).map (·.leaderSessionId) = .ok (some (js "l-2")) ∧
    (buildCancelledQuest claimedQuest none true none 2).map
      (fun quest => (quest.recoveryEvents, quest.memoryCommitShas)) = .ok (none, none) := by
  refine ⟨?_, ?_, ?_⟩ <;> rfl

end Takode.Quests
