import Takode.Quests.Live
import Takode.Quests.Mutations

/-!
# What a transition does

Each builder puts a draft together from what every status takes over and what the
status itself says, and then normalizes it.
-/

namespace Takode.Quests

open JsString

variable {current base draft quest : Quest} {input : QuestTransitionInput} {liveStore : Bool}
  {now : Nat}

/-- The fields that a status leaves to the base of its record. -/
structure Carries (base draft : Quest) : Prop where
  id : draft.id = base.id
  questId : draft.questId = base.questId
  version : draft.version = base.version
  prevId : draft.prevId = base.prevId
  createdAt : draft.createdAt = base.createdAt
  statusChangedAt : draft.statusChangedAt = base.statusChangedAt
  status : draft.status = base.status
  title : draft.title = base.title
  tags : draft.tags = base.tags
  parentId : draft.parentId = base.parentId
  sessionSpaceSlug : draft.sessionSpaceSlug = base.sessionSpaceSlug
  images : draft.images = base.images
  feedback : draft.feedback = base.feedback
  codeDeliveries : draft.codeDeliveries = base.codeDeliveries
  deliveryTargetApprovals : draft.deliveryTargetApprovals = base.deliveryTargetApprovals
  leaderSessionId : draft.leaderSessionId = base.leaderSessionId
  outcome : draft.outcome = base.outcome
  ownershipEvents : draft.ownershipEvents = base.ownershipEvents
  recoveryEvents : draft.recoveryEvents = base.recoveryEvents
  replacements :
    draft.codeCommitEvidenceReplacementEvents = base.codeCommitEvidenceReplacementEvents
  journeyRuns : draft.journeyRuns = base.journeyRuns
  rounds : draft.rounds = base.rounds
  quizItems : draft.quizItems = base.quizItems
  relationships : draft.relationships = base.relationships

/-- The owner and the past owners that a transition leaves. -/
structure Handover (current : Quest) (input : QuestTransitionInput)
    (nextOwner : Option QuestOwnerRef) (owners : List QuestOwnerRef) : Prop where
  next : nextOwner = if input.status = .inProgress then (requestedQuestOwner current input).toOption
    else none
  started : input.status = .inProgress → nextOwner.isSome = true
  valid : ∀ owner, nextOwner = some owner → normalizeQuestOwnerRef owner = some owner
  past : NormalOwners owners
  excluded : ∀ owner, nextOwner = some owner → owner ∉ owners
  kept : ∀ owner, getQuestOwner current = some owner ∨ owner ∈ getPreviousQuestOwners current →
    owner ∈ owners ∨ nextOwner = some owner

/-- The draft says who owns the quest and who did. -/
structure Owned (draft : Quest) (retain : Bool) (nextOwner : Option QuestOwnerRef)
    (owners : List QuestOwnerRef) : Prop where
  ids : draft.previousOwnerSessionIds = (previousQuestOwnerFields owners retain).1
  canonical : draft.previousOwners = (previousQuestOwnerFields owners retain).2
  session : draft.sessionId = nextOwner.bind fun owner => (activeQuestOwnerFields owner).1
  kind : draft.ownerKind = nextOwner.bind fun owner => (activeQuestOwnerFields owner).2

/-- Commits are only added to a list, once it is in its normal form. -/
def Appended (old new : Option (List JsString)) : Prop :=
  filled new = filled old ∨
    ∃ shas, normalizeCommitShas (old.getD []) = .ok shas ∧ shas <+: new.getD []

theorem mem_appendQuestOwner {owners : List QuestOwnerRef} {active : Option QuestOwnerRef}
    {owner : QuestOwnerRef} :
    owner ∈ appendQuestOwner owners active ↔ owner ∈ owners ∨ active = some owner := by
  cases active with
  | none => simp [appendQuestOwner]
  | some other =>
    unfold appendQuestOwner
    simp only [Option.some.injEq]
    split
    · rename_i known
      exact ⟨.inl, fun found => found.elim id fun same => same ▸ known⟩
    · rw [List.mem_append, List.mem_singleton, eq_comm]

theorem requestedQuestOwner_normal {owner : QuestOwnerRef}
    (found : requestedQuestOwner current input = .ok owner) :
    normalizeQuestOwnerRef owner = some owner := by
  unfold requestedQuestOwner at found
  simp only at found
  split at found
  · cases found
  · rename_i nextOwner named
    split at found
    · cases found
    · obtain rfl := Except.ok.inj found
      obtain ⟨sessionId, _, named⟩ := Option.bind_eq_some_iff.mp named
      exact normalizeQuestOwnerRef_normalizes named

/-- A status without an active owner makes the active owner a past one. -/
theorem Handover.release (plain : input.status ≠ .inProgress) (more : Option QuestOwnerRef)
    (valid : ∀ owner, more = some owner → normalizeQuestOwnerRef owner = some owner)
    (active : ∀ owner, getQuestOwner current = some owner → more = some owner) :
    Handover current input none (appendQuestOwner (getPreviousQuestOwners current) more) where
  next := (if_neg plain).symm
  started started := absurd started plain
  valid owner absent := by cases absent
  past := (getPreviousQuestOwners_normal current).append valid
  excluded owner absent := by cases absent
  kept owner held := by
    refine .inl (mem_appendQuestOwner.mpr ?_)
    exact held.elim (fun held => .inr (active owner held)) .inl

/-- A quest that is in progress has its new owner among no past ones. -/
theorem Handover.start (started : input.status = .inProgress) {nextOwner : QuestOwnerRef}
    (requested : requestedQuestOwner current input = .ok nextOwner) :
    Handover current input (some nextOwner)
      ((if sameQuestOwner (getQuestOwner current) (some nextOwner) then
        getPreviousQuestOwners current
      else appendQuestOwner (getPreviousQuestOwners current) (getQuestOwner current)).filter
        fun owner => owner ≠ nextOwner) where
  next := by rw [if_pos started, requested, Except.toOption]
  started _ := rfl
  valid owner same := Option.some.inj same ▸ requestedQuestOwner_normal requested
  past := by
    refine NormalOwners.filter ?_ _
    split
    · exact getPreviousQuestOwners_normal current
    · exact (getPreviousQuestOwners_normal current).append fun _ found => getQuestOwner_normal found
  excluded owner same := by
    obtain rfl := Option.some.inj same
    simp
  kept owner held := by
    by_cases same : owner = nextOwner
    · exact .inr (congrArg some same.symm)
    · refine .inl (List.mem_filter.mpr ⟨?_, by simpa using same⟩)
      split
      · rename_i owned
        rcases held with held | held
        · simp only [sameQuestOwner, Bool.and_eq_true, decide_eq_true_eq] at owned
          exact absurd (Option.some.inj (held.symm.trans owned.2)) same
        · exact held
      · exact mem_appendQuestOwner.mpr held.symm

theorem Appended.refl (shas : Option (List JsString)) : Appended shas (filled shas) :=
  .inl (filled_filled shas)

theorem prefix_normalizeCommitShas {old input shas : List JsString}
    (found : normalizeCommitShas (old ++ input) = .ok shas) :
    ∃ shas', normalizeCommitShas old = .ok shas' ∧ shas' <+: shas := by
  obtain ⟨each, mapped, found⟩ := bind_eq_ok.mp found
  obtain rfl := pure_eq_ok.mp found
  rw [List.mapM_append] at mapped
  obtain ⟨first, mapped', rest⟩ := bind_eq_ok.mp mapped
  obtain ⟨second, _, same⟩ := bind_eq_ok.mp rest
  obtain rfl := pure_eq_ok.mp same
  refine ⟨first.eraseDups, ?_, ?_⟩
  · rw [normalizeCommitShas, mapped']
    rfl
  · rw [List.eraseDups_append]
    exact List.prefix_append _ _

theorem commitShaField_appended {old input new : Option (List JsString)}
    (found : commitShaField old input = .ok new) : Appended old (new.or (filled old)) := by
  unfold commitShaField at found
  split at found
  · rename_i more _
    obtain ⟨shas, normalized, found⟩ := bind_eq_ok.mp found
    obtain rfl := pure_eq_ok.mp found
    obtain ⟨shas', normal, start⟩ := prefix_normalizeCommitShas normalized
    cases shas with
    | nil => exact .inl (filled_filled old)
    | cons sha rest => exact .inr ⟨shas', normal, start⟩
  · obtain rfl := pure_eq_ok.mp found
    rw [Option.or_self]
    exact Appended.refl old

/-- What a transition that is not idle goes through. -/
structure Transitioned (current : Quest) (input : QuestTransitionInput) (liveStore : Bool)
    (now : Nat) (base draft quest : Quest) (nextOwner : Option QuestOwnerRef)
    (owners : List QuestOwnerRef) : Prop where
  began : transitionBase current input liveStore now = .ok base
  finished : finishQuest liveStore now draft = .ok quest
  carries : Carries base draft
  handover : Handover current input nextOwner owners
  owned : Owned draft current.previousOwners.isSome nextOwner owners
  commitShas : Appended current.commitShas draft.commitShas
  memoryCommitShas : Appended current.memoryCommitShas draft.memoryCommitShas

theorem transitionBase_eq_ok (began : transitionBase current input liveStore now = .ok base) :
    base.sessionId = none ∧ base.ownerKind = none ∧ base.status = input.status ∧
      base.questId = current.questId ∧ base.commitShas = filled current.commitShas ∧
      base.memoryCommitShas = filled current.memoryCommitShas := by
  unfold transitionBase at began
  obtain ⟨_, _, began⟩ := bind_eq_ok.mp began
  obtain ⟨_, _, began⟩ := bind_eq_ok.mp began
  obtain ⟨_, _, began⟩ := bind_eq_ok.mp began
  obtain ⟨_, _, began⟩ := bind_eq_ok.mp began
  obtain ⟨_, _, began⟩ := bind_eq_ok.mp began
  obtain ⟨_, _, began⟩ := bind_eq_ok.mp began
  obtain ⟨_, _, began⟩ := bind_eq_ok.mp began
  obtain rfl := pure_eq_ok.mp began
  exact ⟨rfl, rfl, rfl, rfl, rfl, rfl⟩

theorem completedQuest_eq_ok {shas memoryShas : Option (List JsString)}
    (started : base.sessionId = none ∧ base.ownerKind = none)
    (commits : base.commitShas = filled current.commitShas)
    (memory : base.memoryCommitShas = filled current.memoryCommitShas)
    (completed : completedQuest base current input shas memoryShas now = .ok draft) :
    Carries base draft ∧
      Owned draft current.previousOwners.isSome none
        (appendQuestOwner (getPreviousQuestOwners current) ((getQuestOwner current).or
          (input.sessionId.bind fun sessionId =>
            normalizeQuestOwnerRef ⟨input.ownerKind.getD .takode, sessionId⟩))) ∧
      Appended current.commitShas draft.commitShas ∧
      Appended current.memoryCommitShas draft.memoryCommitShas := by
  unfold completedQuest at completed
  obtain ⟨_, _, completed⟩ := bind_eq_ok.mp completed
  obtain ⟨_, _, completed⟩ := bind_eq_ok.mp completed
  obtain ⟨_, _, completed⟩ := bind_eq_ok.mp completed
  obtain ⟨commitShas, field, completed⟩ := bind_eq_ok.mp completed
  obtain ⟨memoryCommitShas, memoryField, completed⟩ := bind_eq_ok.mp completed
  obtain rfl := pure_eq_ok.mp completed
  refine ⟨by constructor <;> rfl, ⟨rfl, rfl, started.1, started.2⟩, ?_, ?_⟩
  · show Appended current.commitShas (commitShas.or base.commitShas)
    rw [commits]
    exact commitShaField_appended field
  · show Appended current.memoryCommitShas (memoryCommitShas.or base.memoryCommitShas)
    rw [memory]
    exact commitShaField_appended memoryField

theorem completedOwner_normal {owner : QuestOwnerRef}
    (found : (getQuestOwner current).or (input.sessionId.bind fun sessionId =>
      normalizeQuestOwnerRef ⟨input.ownerKind.getD .takode, sessionId⟩) = some owner) :
    normalizeQuestOwnerRef owner = some owner := by
  rcases Option.or_eq_some_iff.mp found with found | ⟨_, found⟩
  · exact getQuestOwner_normal found
  · obtain ⟨sessionId, _, found⟩ := Option.bind_eq_some_iff.mp found
    exact normalizeQuestOwnerRef_normalizes found

theorem buildTransitionedQuest_eq_ok
    (built : buildTransitionedQuest current input liveStore now = .ok quest) :
    (isIdleTransition current input = true ∧ quest = current) ∨ ∃ base draft nextOwner owners,
      Transitioned current input liveStore now base draft quest nextOwner owners := by
  unfold buildTransitionedQuest at built
  split at built
  · exact .inl ⟨‹_›, (pure_eq_ok.mp built).symm⟩
  · right
    obtain ⟨base, began, built⟩ := bind_eq_ok.mp built
    obtain ⟨_, _, built⟩ := bind_eq_ok.mp built
    obtain ⟨shas, _, built⟩ := bind_eq_ok.mp built
    obtain ⟨memoryShas, _, built⟩ := bind_eq_ok.mp built
    obtain ⟨session, kind, status, _, commits, memory⟩ := transitionBase_eq_ok began
    have kept : Appended current.commitShas base.commitShas := commits ▸ Appended.refl _
    have keptMemory : Appended current.memoryCommitShas base.memoryCommitShas :=
      memory ▸ Appended.refl _
    have release (plain : input.status ≠ .inProgress) := Handover.release plain
      (getQuestOwner current) (fun _ found => getQuestOwner_normal found) fun _ held => held
    cases target : input.status with
    | idea =>
      rw [target] at built
      exact ⟨base, _, none, _, began, built, by constructor <;> rfl,
        release (by rw [target]; decide), ⟨rfl, rfl, session, kind⟩, kept, keptMemory⟩
    | refined =>
      rw [target] at built
      obtain ⟨description, _, built⟩ := bind_eq_ok.mp built
      exact ⟨base, _, none, _, began, built, by constructor <;> rfl,
        release (by rw [target]; decide), ⟨rfl, rfl, session, kind⟩, kept, keptMemory⟩
    | inProgress =>
      rw [target] at built
      obtain ⟨description, _, built⟩ := bind_eq_ok.mp built
      obtain ⟨nextOwner, requested, built⟩ := bind_eq_ok.mp built
      exact ⟨base, _, some nextOwner, _, began, built, by constructor <;> rfl,
        Handover.start target requested, ⟨rfl, rfl, rfl, rfl⟩, kept, keptMemory⟩
    | done =>
      rw [target] at built
      obtain ⟨draft, completed, built⟩ := bind_eq_ok.mp built
      obtain ⟨carries, owned, grown, grownMemory⟩ :=
        completedQuest_eq_ok ⟨session, kind⟩ commits memory completed
      refine ⟨base, draft, none, _, began, built, carries, ?_, owned, grown, grownMemory⟩
      refine Handover.release (by rw [target]; decide) _ (fun _ => completedOwner_normal) ?_
      intro owner held
      rw [held, Option.some_or]

end Takode.Quests
