import Takode.Quests.Evidence
import Takode.Quests.Store

/-!
# Changes of the store

What a call does with the store: it edits the record of one quest, adds a quest, takes
one out, or leaves everything as it is.
-/

namespace Takode.Quests

open JsString

variable {current draft quest next : Quest} {input : QuestTransitionInput} {now : Nat}
  {store : LiveQuestStore} {owners : List QuestOwnerRef} {nextOwner : Option QuestOwnerRef}

/-! ## Owners of a new record -/

theorem owners_of_normalizeLiveQuest (normalized : normalizeLiveQuest now draft = .ok quest) :
    getQuestOwner quest = (if draft.status = .done then none else getQuestOwner draft) ∧
      getPreviousQuestOwners quest = (appendQuestOwner (getPreviousQuestOwners draft)
        (if draft.status = .done then getQuestOwner draft else none)).filter fun owner =>
          some owner ≠ if draft.status = .done then none else getQuestOwner draft := by
  obtain ⟨quizItems, quiz, normalized⟩ := bind_eq_ok.mp normalized
  obtain rfl := pure_eq_ok.mp normalized
  exact ⟨getQuestOwner_normalizeQuestOwnership (stripDerivedQuestRelationships draft),
    getPreviousQuestOwners_normalizeQuestOwnership (stripDerivedQuestRelationships draft)⟩

theorem filter_eq_self_of_excluded
    (excluded : ∀ owner, nextOwner = some owner → owner ∉ owners) :
    (owners.filter fun owner => some owner ≠ nextOwner) = owners := by
  refine List.filter_eq_self.mpr fun owner inside => ?_
  have other : some owner ≠ nextOwner := fun same => excluded owner same.symm inside
  simpa using other

theorem owners_of_owned {retain : Bool} (normalized : normalizeLiveQuest now draft = .ok quest)
    (owned : Owned draft retain nextOwner owners) (past : NormalOwners owners)
    (valid : ∀ owner, nextOwner = some owner → normalizeQuestOwnerRef owner = some owner)
    (excluded : ∀ owner, nextOwner = some owner → owner ∉ owners)
    (finished : draft.status = .done → nextOwner = none) :
    getQuestOwner quest = nextOwner ∧ getPreviousQuestOwners quest = owners := by
  have active : getQuestOwner draft = nextOwner := by
    cases held : nextOwner with
    | none =>
      have session := owned.session
      rw [held] at session
      rw [getQuestOwner, session]
      rfl
    | some owner =>
      have session := owned.session
      have kind := owned.kind
      rw [held] at session kind
      exact getQuestOwner_activeQuestOwnerFields (valid owner held) session kind
  have before : getPreviousQuestOwners draft = owners :=
    past.getPreviousQuestOwners_eq retain owned.ids owned.canonical
  obtain ⟨owner, previous⟩ := owners_of_normalizeLiveQuest normalized
  rw [active] at owner
  rw [active, before] at previous
  by_cases done : draft.status = .done
  · rw [if_pos done] at owner
    rw [if_pos done, if_pos done, finished done] at previous
    exact ⟨owner.trans (finished done).symm,
      previous.trans (filter_eq_self_of_excluded fun _ absent => by cases absent)⟩
  · rw [if_neg done] at owner
    rw [if_neg done, if_neg done] at previous
    exact ⟨owner, previous.trans (filter_eq_self_of_excluded excluded)⟩

/-- The next record of a quest: no owner is forgotten, and only a quest in progress has one. -/
structure Follows (current next : Quest) : Prop where
  normal : NormalQuest next
  questId : next.questId = current.questId
  active : ∀ owner, getQuestOwner next = some owner → next.status = .inProgress
  kept : ∀ owner, getQuestOwner current = some owner ∨ owner ∈ getPreviousQuestOwners current →
    owner ∈ getPreviousQuestOwners next ∨ getQuestOwner next = some owner

/-- An edit that leaves the owners alone. -/
structure SameOwnership (current draft : Quest) : Prop where
  questId : draft.questId = current.questId
  status : draft.status = current.status
  sessionId : draft.sessionId = current.sessionId
  ownerKind : draft.ownerKind = current.ownerKind
  previousOwnerSessionIds : draft.previousOwnerSessionIds = current.previousOwnerSessionIds
  previousOwners : draft.previousOwners = current.previousOwners

theorem SameOwnership.follows (same : SameOwnership current draft) (clock : 0 < now)
    (normal : NormalQuest current)
    (active : ∀ owner, getQuestOwner current = some owner → current.status = .inProgress)
    (normalized : normalizeLiveQuest now draft = .ok next) :
    Follows current next ∧ getQuestOwner next = getQuestOwner current := by
  have form := liveForm_of_normalizeLiveQuest normalized
  obtain ⟨owner, previous⟩ := owners_of_normalizeLiveQuest normalized
  have held : getQuestOwner draft = getQuestOwner current := by
    rw [getQuestOwner, same.sessionId, same.ownerKind]
    rfl
  have before : getPreviousQuestOwners draft = getPreviousQuestOwners current := by
    rw [getPreviousQuestOwners, same.previousOwners, same.previousOwnerSessionIds]
    rfl
  rw [held, same.status] at owner
  rw [held, before, same.status] at previous
  have stays : getQuestOwner next = getQuestOwner current := by
    by_cases done : current.status = .done
    · rw [owner, if_pos done, normal.ownership.finished done]
    · rw [owner, if_neg done]
  have past : getPreviousQuestOwners next = getPreviousQuestOwners current := by
    by_cases done : current.status = .done
    · rw [previous, if_pos done, if_pos done, normal.ownership.finished done]
      exact filter_eq_self_of_excluded fun _ absent => by cases absent
    · rw [previous, if_neg done, if_neg done]
      exact filter_eq_self_of_excluded normal.ownership.past
  refine ⟨⟨normalQuest_of_normalizeLiveQuest clock normalized, form.questId.trans same.questId, ?_,
    ?_⟩, stays⟩
  · intro owner found
    rw [form.status, same.status]
    exact active owner (stays ▸ found)
  · intro owner held
    rw [stays, past]
    exact held.symm

theorem transition_follows (clock : 0 < now)
    (built : buildTransitionedQuest current input true now = .ok quest) :
    quest = current ∨ (Follows current quest ∧ ∀ owner, getQuestOwner quest = some owner →
      input.status = .inProgress ∧ requestedQuestOwner current input = .ok owner) := by
  rcases buildTransitionedQuest_eq_ok built with ⟨_, same⟩ | ⟨base, draft, nextOwner, owners, done⟩
  · exact .inl same
  right
  have finished : normalizeLiveQuest now draft = .ok quest := done.finished
  have form := liveForm_of_normalizeLiveQuest finished
  obtain ⟨_, _, status, questId, _⟩ := transitionBase_eq_ok done.began
  have target : draft.status = input.status := done.carries.status.trans status
  have handover := done.handover
  have requested (owner : QuestOwnerRef) (found : nextOwner = some owner) :
      input.status = .inProgress ∧ requestedQuestOwner current input = .ok owner := by
    have next := handover.next
    rw [found] at next
    split at next
    · rename_i started
      refine ⟨started, ?_⟩
      cases asked : requestedQuestOwner current input with
      | error e => simp [asked, Except.toOption] at next
      | ok other => rw [asked] at next; exact congrArg Except.ok (Option.some.inj next).symm
    · cases next
  have unfinished : draft.status = .done → nextOwner = none := by
    intro past
    have plain : input.status ≠ .inProgress := by
      rw [← target, past]
      decide
    rw [handover.next, if_neg plain]
  obtain ⟨owner, previous⟩ := owners_of_owned finished done.owned handover.past handover.valid
    handover.excluded unfinished
  refine ⟨⟨normalQuest_of_normalizeLiveQuest clock finished, ?_, ?_, ?_⟩, ?_⟩
  · rw [form.questId, done.carries.questId, questId]
  · intro holder found
    rw [form.status, target]
    exact (requested holder (owner ▸ found)).1
  · intro holder held
    rw [owner, previous]
    exact handover.kept holder held
  · intro holder found
    exact requested holder (owner ▸ found)

theorem cancellation_follows {notes : Option JsString}
    {provenance : Option QuestInvocationProvenance} (clock : 0 < now)
    (built : buildCancelledQuest current notes true provenance now = .ok quest) :
    Follows current quest ∧ getQuestOwner quest = none := by
  unfold buildCancelledQuest at built
  obtain ⟨quizItems, _, built⟩ := bind_eq_ok.mp built
  obtain ⟨events, _, built⟩ := bind_eq_ok.mp built
  have finished : normalizeLiveQuest now _ = .ok quest := built
  have form := liveForm_of_normalizeLiveQuest finished
  obtain ⟨owner, previous⟩ := owners_of_owned finished
    (show Owned _ current.previousOwners.isSome none _ from ⟨rfl, rfl, rfl, rfl⟩)
    ((getPreviousQuestOwners_normal current).append fun _ found => getQuestOwner_normal found)
    (fun _ absent => by cases absent) (fun _ absent => by cases absent) fun _ => rfl
  refine ⟨⟨normalQuest_of_normalizeLiveQuest clock finished, form.questId, ?_, ?_⟩, owner⟩
  · intro holder found
    rw [owner] at found
    cases found
  · intro holder held
    exact .inl (previous ▸ mem_appendQuestOwner.mpr held.symm)

theorem creation_unowned {questId : JsString} {input : QuestCreateInput} (clock : 0 < now)
    (built : buildCreatedQuest questId input true now = .ok quest) :
    NormalQuest quest ∧ quest.questId = questId ∧ getQuestOwner quest = none := by
  have unowned {draft : Quest} (id : draft.questId = questId) (session : draft.sessionId = none)
      (finished : finishQuest true now draft = .ok quest) :
      NormalQuest quest ∧ quest.questId = questId ∧ getQuestOwner quest = none := by
    have normalized : normalizeLiveQuest now draft = .ok quest := finished
    refine ⟨normalQuest_of_normalizeLiveQuest clock normalized,
      (liveForm_of_normalizeLiveQuest normalized).questId.trans id, ?_⟩
    rw [(owners_of_normalizeLiveQuest normalized).1]
    split
    · rfl
    · rw [getQuestOwner, session]
      rfl
  unfold buildCreatedQuest at built
  obtain ⟨quizItems, _, built⟩ := bind_eq_ok.mp built
  simp only at built
  split at built
  · exact unowned rfl rfl built
  · obtain ⟨description, _, built⟩ := bind_eq_ok.mp built
    exact unowned rfl rfl built
  · cases built
  · cases built

theorem patch_sameOwnership {questId : JsString} {patch : QuestPatchInput}
    (patched : applyQuestPatch current questId patch now = .ok draft) :
    SameOwnership current draft := by
  unfold applyQuestPatch at patched
  obtain ⟨quizItems, _, patched⟩ := bind_eq_ok.mp patched
  obtain ⟨rounds, _, patched⟩ := bind_eq_ok.mp patched
  obtain rfl := pure_eq_ok.mp patched
  constructor <;> rfl

theorem evidence_sameOwnership {owner : QuestOwnerRef} {shas : List JsString}
    {delivery : Option QuestCodeDelivery}
    (appended : appendCodeEvidence current owner shas delivery now = .ok (some draft)) :
    SameOwnership current draft := by
  unfold appendCodeEvidence at appended
  obtain ⟨_, _, appended⟩ := bind_eq_ok.mp appended
  obtain ⟨_, _, appended⟩ := bind_eq_ok.mp appended
  obtain ⟨_, _, appended⟩ := bind_eq_ok.mp appended
  obtain ⟨_, _, appended⟩ := bind_eq_ok.mp appended
  obtain ⟨next, _, appended⟩ := bind_eq_ok.mp appended
  split at appended
  · cases pure_eq_ok.mp appended
  · obtain rfl := Option.some.inj (pure_eq_ok.mp appended)
    constructor <;> rfl

end Takode.Quests
