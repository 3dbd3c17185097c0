import Takode.Quests.Normal

/-!
# Live records

What holds of a record that has been normalized, and that this is all it takes for
normalizing to leave it as it is.
-/

namespace Takode.Quests

open JsString

/-! ## Past owners -/

/-- Owners as `getPreviousQuestOwners` gives them. -/
structure NormalOwners (owners : List QuestOwnerRef) : Prop where
  distinct : owners.Nodup
  normal : ∀ owner ∈ owners, normalizeQuestOwnerRef owner = some owner

theorem normalizeQuestOwnerRef_eq_some {value owner : QuestOwnerRef} :
    normalizeQuestOwnerRef value = some owner ↔
      value.kind = owner.kind ∧ value.sessionId.nonempty = some owner.sessionId := by
  unfold normalizeQuestOwnerRef
  rw [Option.map_eq_some_iff]
  constructor
  · rintro ⟨sessionId, found, rfl⟩
    exact ⟨rfl, found⟩
  · rintro ⟨kind, found⟩
    exact ⟨owner.sessionId, found, by rw [kind]⟩

theorem normalizeQuestOwnerRef_normalizes : Normalizes normalizeQuestOwnerRef := by
  intro value owner found
  obtain ⟨_, found⟩ := normalizeQuestOwnerRef_eq_some.mp found
  exact normalizeQuestOwnerRef_eq_some.mpr ⟨rfl, nonempty_normalizes found⟩

theorem getQuestOwner_normal {quest : Quest} {owner : QuestOwnerRef}
    (found : getQuestOwner quest = some owner) : normalizeQuestOwnerRef owner = some owner := by
  obtain ⟨sessionId, session, rfl⟩ := Option.map_eq_some_iff.mp found
  obtain ⟨value, _, session⟩ := Option.bind_eq_some_iff.mp session
  exact normalizeQuestOwnerRef_eq_some.mpr ⟨rfl, nonempty_normalizes session⟩

theorem getPreviousQuestOwners_normal (quest : Quest) :
    NormalOwners (getPreviousQuestOwners quest) := by
  refine ⟨nodup_eraseDups _, fun owner inside => ?_⟩
  rw [getPreviousQuestOwners, List.mem_eraseDups, List.mem_append] at inside
  rcases inside with inside | inside
  · exact normalizeQuestOwnerRef_normalizes.of_mem inside
  · obtain ⟨sessionId, named, rfl⟩ := List.mem_map.mp inside
    exact normalizeQuestOwnerRef_eq_some.mpr ⟨rfl, nonempty_normalizes.of_mem named⟩

namespace NormalOwners

variable {owners : List QuestOwnerRef} {owner : QuestOwnerRef} {active : Option QuestOwnerRef}

theorem filter (normal : NormalOwners owners) (p : QuestOwnerRef → Bool) :
    NormalOwners (owners.filter p) :=
  ⟨normal.distinct.filter p, fun owner inside => normal.normal owner (List.mem_filter.mp inside).1⟩

theorem append (normal : NormalOwners owners)
    (valid : ∀ owner, active = some owner → normalizeQuestOwnerRef owner = some owner) :
    NormalOwners (appendQuestOwner owners active) := by
  cases active with
  | none => exact normal
  | some owner =>
    unfold appendQuestOwner
    simp only
    split
    · exact normal
    · rename_i fresh
      refine ⟨by simpa using normal.distinct.concat fresh, fun other inside => ?_⟩
      rcases List.mem_append.mp inside with inside | inside
      · exact normal.normal other inside
      · obtain rfl := List.mem_singleton.mp inside
        exact valid other rfl

theorem filterMap_takodeSessionIds (normal : NormalOwners owners) :
    ((takodeSessionIds owners).filterMap nonempty).map (QuestOwnerRef.mk .takode) =
      owners.filter fun owner => owner.kind = .takode := by
  have valid : ∀ sessionId ∈ takodeSessionIds owners, sessionId.nonempty = some sessionId := by
    intro sessionId inside
    obtain ⟨owner, listed, rfl⟩ := List.mem_map.mp inside
    exact (normalizeQuestOwnerRef_eq_some.mp
      (normal.normal owner (List.mem_filter.mp listed).1)).2
  rw [filterMap_eq_self valid, takodeSessionIds, List.map_map]
  refine (List.map_congr_left fun owner inside => ?_).trans (List.map_id _)
  have kind : owner.kind = .takode := by simpa using (List.mem_filter.mp inside).2
  show QuestOwnerRef.mk .takode owner.sessionId = owner
  rw [← kind]

theorem getPreviousQuestOwners_eq (normal : NormalOwners owners) (retain : Bool) {quest : Quest}
    (ids : quest.previousOwnerSessionIds = (previousQuestOwnerFields owners retain).1)
    (canonical : quest.previousOwners = (previousQuestOwnerFields owners retain).2) :
    getPreviousQuestOwners quest = owners := by
  unfold getPreviousQuestOwners
  rw [ids, canonical]
  simp only [previousQuestOwnerFields, getD_listed, normal.filterMap_takodeSessionIds]
  split
  · rw [getD_listed, filterMap_eq_self normal.normal, List.eraseDups_append,
      eraseDups_of_nodup normal.distinct]
    have known : (owners.filter fun owner => owner.kind = .takode).removeAll owners = [] := by
      rw [List.removeAll, List.filter_eq_nil_iff]
      intro owner inside
      simpa using (List.mem_filter.mp inside).1
    rw [known]
    simp
  · rename_i plain
    rw [Bool.or_eq_true, not_or, List.any_eq_true] at plain
    have takode : (owners.filter fun owner => owner.kind = .takode) = owners := by
      refine List.filter_eq_self.mpr fun owner inside => ?_
      cases kind : owner.kind with
      | takode => rfl
      | codex => exact absurd ⟨owner, inside, by rw [kind]; rfl⟩ plain.2
    rw [takode]
    exact eraseDups_of_nodup normal.distinct

end NormalOwners

theorem previousQuestOwnerFields_retained (owners : List QuestOwnerRef) (retain : Bool) :
    previousQuestOwnerFields owners (previousQuestOwnerFields owners retain).2.isSome =
      previousQuestOwnerFields owners retain := by
  unfold previousQuestOwnerFields
  refine congrArg (Prod.mk _) ?_
  cases owners with
  | nil => cases retain <;> rfl
  | cons owner rest =>
    cases canonical : retain || (owner :: rest).any (·.kind = .codex) with
    | true => rfl
    | false =>
      have plain : (owner :: rest).any (·.kind = .codex) = false :=
        (Bool.or_eq_false_iff.mp canonical).2
      simp only [Bool.false_eq_true, if_false, Option.isSome_none, Bool.false_or, plain]

/-! ## Ownership -/

/-- A record whose ownership is normal. -/
structure NormalOwnership (quest : Quest) : Prop where
  session : match getQuestOwner quest with
    | some owner => (quest.sessionId, quest.ownerKind) = activeQuestOwnerFields owner
    | none => (filled quest.sessionId).isSome = false → quest.ownerKind = none
  finished : quest.status = .done → getQuestOwner quest = none
  previous : (quest.previousOwnerSessionIds, quest.previousOwners) =
    previousQuestOwnerFields (getPreviousQuestOwners quest) quest.previousOwners.isSome
  past : ∀ owner, getQuestOwner quest = some owner → owner ∉ getPreviousQuestOwners quest
  events : quest.ownershipEvents = listed (normalizeOwnershipEvents quest.ownershipEvents)
  leader : quest.leaderSessionId = getLeaderSessionId quest

theorem NormalOwnership.normalize {quest : Quest} (normal : NormalOwnership quest) :
    normalizeQuestOwnership quest = quest := by
  have final : (if quest.status = .done then none else getQuestOwner quest) = getQuestOwner quest := by
    split
    · exact (normal.finished ‹_›).symm
    · rfl
  have appended : appendQuestOwner (getPreviousQuestOwners quest)
      (if quest.status = .done then getQuestOwner quest else none) = getPreviousQuestOwners quest := by
    split
    · rw [normal.finished ‹_›]
      rfl
    · rfl
  have kept : (getPreviousQuestOwners quest).filter (fun owner => some owner ≠ getQuestOwner quest) =
      getPreviousQuestOwners quest := by
    refine List.filter_eq_self.mpr fun owner inside => ?_
    have other : some owner ≠ getQuestOwner quest := fun same => normal.past owner same.symm inside
    simpa using other
  have ids := congrArg Prod.fst normal.previous
  have canonical := congrArg Prod.snd normal.previous
  unfold normalizeQuestOwnership
  simp only [final, appended, kept]
  simp only at ids canonical
  rw [← normal.events, ← normal.leader, ← ids, ← canonical]
  have session := normal.session
  cases active : getQuestOwner quest with
  | some owner =>
    rw [active] at session
    simp only at session
    simp only [← session]
  | none =>
    rw [active] at session
    have kind : (if (filled quest.sessionId).isSome then quest.ownerKind else none) =
        quest.ownerKind := by
      cases named : (filled quest.sessionId).isSome with
      | true => rfl
      | false => exact (session named).symm
    simp only [Option.isSome_none, Bool.false_eq_true, if_false, kind]

theorem getQuestOwner_activeQuestOwnerFields {quest : Quest} {owner : QuestOwnerRef}
    (normal : normalizeQuestOwnerRef owner = some owner)
    (session : quest.sessionId = (activeQuestOwnerFields owner).1)
    (kind : quest.ownerKind = (activeQuestOwnerFields owner).2) : getQuestOwner quest = some owner := by
  have valid := (normalizeQuestOwnerRef_eq_some.mp normal).2
  rw [getQuestOwner, session, kind]
  simp only [activeQuestOwnerFields, normalizeSessionId, Option.bind_some, valid, Option.map_some]
  obtain ⟨provider, sessionId⟩ := owner
  cases provider <;> rfl

theorem getQuestOwner_normalizeQuestOwnership (quest : Quest) :
    getQuestOwner (normalizeQuestOwnership quest) =
      if quest.status = .done then none else getQuestOwner quest := by
  cases final : if quest.status = .done then none else getQuestOwner quest with
  | some owner =>
    have active : getQuestOwner quest = some owner := by
      split at final
      · cases final
      · exact final
    refine getQuestOwner_activeQuestOwnerFields (getQuestOwner_normal active) ?_ ?_ <;>
      simp only [normalizeQuestOwnership, final]
  | none =>
    have session : (normalizeQuestOwnership quest).sessionId =
        if (getQuestOwner quest).isSome then none else quest.sessionId := by
      simp only [normalizeQuestOwnership, final]
    rw [getQuestOwner, session]
    split
    · rfl
    · rename_i unowned
      cases named : normalizeSessionId quest.sessionId with
      | none => rfl
      | some sessionId => simp [getQuestOwner, named] at unowned

theorem getPreviousQuestOwners_normalizeQuestOwnership (quest : Quest) :
    getPreviousQuestOwners (normalizeQuestOwnership quest) =
      (appendQuestOwner (getPreviousQuestOwners quest)
        (if quest.status = .done then getQuestOwner quest else none)).filter fun owner =>
          some owner ≠ if quest.status = .done then none else getQuestOwner quest := by
  refine NormalOwners.getPreviousQuestOwners_eq ?_ quest.previousOwners.isSome rfl rfl
  refine NormalOwners.filter (NormalOwners.append (getPreviousQuestOwners_normal quest) ?_) _
  intro owner found
  split at found
  · exact getQuestOwner_normal found
  · cases found

theorem normalOwnership_normalizeQuestOwnership (quest : Quest) :
    NormalOwnership (normalizeQuestOwnership quest) := by
  have owned := getQuestOwner_normalizeQuestOwnership quest
  have before := getPreviousQuestOwners_normalizeQuestOwnership quest
  refine ⟨?_, ?_, ?_, ?_, ?_, ?_⟩
  · rw [owned]
    cases final : if quest.status = .done then none else getQuestOwner quest with
    | some owner => simp only [normalizeQuestOwnership, final]
    | none =>
      simp only [normalizeQuestOwnership, final]
      intro unnamed
      simp [unnamed]
  · intro done
    rw [owned, if_pos (show quest.status = .done from done)]
  · rw [before]
    exact (previousQuestOwnerFields_retained _ quest.previousOwners.isSome).symm
  · intro owner found inside
    rw [before, List.mem_filter] at inside
    rw [owned] at found
    simp [found] at inside
  · show listed (normalizeOwnershipEvents quest.ownershipEvents) =
      listed (normalizeOwnershipEvents (listed (normalizeOwnershipEvents quest.ownershipEvents)))
    unfold normalizeOwnershipEvents
    rw [getD_listed, normalizeOwnershipEvent_normalizes.filterMap_filterMap]
  · show normalizeSessionId quest.leaderSessionId =
      normalizeSessionId (normalizeSessionId quest.leaderSessionId)
    exact (nonempty_normalizes.bind_bind quest.leaderSessionId).symm

/-! ## The whole record -/

/-- A record that has been normalized. -/
structure NormalQuest (quest : Quest) : Prop where
  ownership : NormalOwnership quest
  underived : quest.relatedQuests = none
  id : quest.id = quest.questId
  current : quest.prevId = none
  created : 0 < quest.createdAt
  version : 0 < quest.version
  changed : ∃ at', quest.statusChangedAt = some at' ∧ 0 < at'
  relationships :
    quest.relationships = normalizeQuestRelationships quest.relationships quest.questId
  quizItems : normalizeQuestQuizItems quest.quizItems = .ok quest.quizItems
  recoveryEvents :
    quest.recoveryEvents = listed (normalizeQuestRecoveryEvents quest.recoveryEvents)
  replacements : quest.codeCommitEvidenceReplacementEvents =
    listed (normalizeQuestCodeCommitEvidenceReplacementEvents
      quest.codeCommitEvidenceReplacementEvents)

theorem NormalQuest.normalize {quest : Quest} (normal : NormalQuest quest) (now : Nat) :
    normalizeLiveQuest now quest = .ok quest := by
  have stripped : stripDerivedQuestRelationships quest = quest := by
    rw [stripDerivedQuestRelationships, ← normal.underived]
  obtain ⟨at', changed, positive⟩ := normal.changed
  unfold normalizeLiveQuest
  rw [stripped, normal.ownership.normalize]
  simp only [normal.quizItems, if_neg (Nat.ne_of_gt normal.created), if_pos normal.version, changed,
    if_pos positive, ← normal.relationships, ← normal.recoveryEvents, ← normal.replacements]
  refine congrArg Except.ok ?_
  nth_rewrite 1 [← normal.id]
  rw [← normal.current, ← changed]

theorem normalQuest_of_normalizeLiveQuest {now : Nat} {quest quest' : Quest} (clock : 0 < now)
    (normalized : normalizeLiveQuest now quest = .ok quest') : NormalQuest quest' := by
  obtain ⟨quizItems, quiz, normalized⟩ := bind_eq_ok.mp normalized
  obtain rfl := pure_eq_ok.mp normalized
  have ownership := normalOwnership_normalizeQuestOwnership (stripDerivedQuestRelationships quest)
  have created : 0 < if (stripDerivedQuestRelationships quest).createdAt = 0 then now
      else (stripDerivedQuestRelationships quest).createdAt := by
    split
    · exact clock
    · exact Nat.pos_of_ne_zero ‹_›
  refine ⟨⟨ownership.session, ownership.finished, ownership.previous, ownership.past,
    ownership.events, ownership.leader⟩, rfl, rfl, rfl, created, ?_, ?_, ?_, ?_, ?_, ?_⟩
  · show 0 < if 0 < _ then _ else 1
    split
    · assumption
    · exact Nat.one_pos
  · refine ⟨_, rfl, ?_⟩
    split
    · split
      · assumption
      · exact created
    · exact created
  · exact (normalizeQuestRelationships_stable _ _).symm
  · exact normalizeQuestQuizItems_stable quiz
  · show listed (normalizeQuestRecoveryEvents quest.recoveryEvents) =
      listed (normalizeQuestRecoveryEvents (listed (normalizeQuestRecoveryEvents quest.recoveryEvents)))
    unfold normalizeQuestRecoveryEvents
    rw [getD_listed, normalizeQuestRecoveryEvent_normalizes.filterMap_filterMap]
  · show listed (normalizeQuestCodeCommitEvidenceReplacementEvents _) = listed
      (normalizeQuestCodeCommitEvidenceReplacementEvents
        (listed (normalizeQuestCodeCommitEvidenceReplacementEvents _)))
    unfold normalizeQuestCodeCommitEvidenceReplacementEvents
    rw [getD_listed, normalizeQuestCodeCommitEvidenceReplacementEvent_normalizes.filterMap_filterMap]

end Takode.Quests
