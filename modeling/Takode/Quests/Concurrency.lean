import Takode.Quests.Calls
import Takode.Quests.Ownership

/-!
# Concurrent edits are not lost

The store is what the calls leave that have resolved, one after another, and each leaves
alone what it does not name.
-/

namespace Takode.Quests

open JsString

variable {getName : JsString → Option JsString} {store store' : LiveQuestStore} {request : Request}
  {now : Nat} {mutation : Mutation} {current draft next quest : Quest} {questId : JsString}

/-! ## What a call writes -/

theorem readable_of_normalizeLiveQuestStore (clock : 0 < now)
    (opened : normalizeLiveQuestStore now store = .ok store') : ReadableStore store' := by
  obtain ⟨quests, normalized, opened⟩ := bind_eq_ok.mp opened
  obtain rfl := pure_eq_ok.mp opened
  refine ⟨fun quest inside => ?_, sortLatestQuests_sorted quests, ?_⟩
  · obtain ⟨parsed, _, given⟩ := exists_of_mapM normalized quest (mem_sortLatestQuests.mp inside)
    exact normalQuest_of_normalizeLiveQuest clock given
  · show computeNextQuestNumber (sortLatestQuests quests) ≤ if _ then _ else _
    split
    · assumption
    · exact Nat.le_refl _

theorem readable_insert (normals : ∀ quest ∈ store.quests, NormalQuest quest)
    (normal : NormalQuest next) : ReadableStore (store.insert next) := by
  refine ⟨fun quest inside => ?_, sortLatestQuests_sorted _, Nat.le_max_right _ _⟩
  rcases mem_insert.mp inside with ⟨old, _⟩ | rfl
  · exact normals quest old
  · exact normal

theorem ReadableStore.remove (readable : ReadableStore store) (questId : JsString) :
    ReadableStore (removeLiveQuest store questId) where
  normal quest inside := readable.normal quest (List.mem_filter.mp inside).1
  sorted := readable.sorted.filter _
  counted := Nat.le_max_right _ _

/-- What the function under the lock wants written. -/
inductive Wanted (now : Nat) (store : LiveQuestStore) (mutation : Mutation) : Prop
  | nothing (absent : mutation.store = none)
  | same (wanted : mutation.store = some store)
  | upserted (number : Nat) (quest : Quest) (written : LiveQuestStore)
      (given : upsertLiveQuest now { store with nextQuestNumber := number } quest = .ok written)
      (wanted : mutation.store = some written)
  | removed (questId : JsString) (wanted : mutation.store = some (removeLiveQuest store questId))

namespace Wanted

theorem of_upsert (number : Nat)
    (upserted : Mutation.upsert now { store with nextQuestNumber := number } quest = .ok mutation) :
    Wanted now store mutation := by
  obtain ⟨written, given, same⟩ := bind_eq_ok.mp upserted
  obtain rfl := pure_eq_ok.mp same
  exact .upserted number quest written given rfl

theorem of_edit (edited : Mutation.edit now store draft = .ok mutation) :
    Wanted now store mutation := by
  obtain ⟨written, given, edited⟩ := bind_eq_ok.mp edited
  obtain ⟨result, _, edited⟩ := bind_eq_ok.mp edited
  obtain rfl := pure_eq_ok.mp edited
  exact .upserted store.nextQuestNumber draft written given rfl

theorem of_mutate (mutated : request.mutate getName now store = .ok mutation) :
    Wanted now store mutation := by
  cases request with
  | createQuest input =>
    obtain ⟨quest, _, upserted⟩ := bind_eq_ok.mp mutated
    exact of_upsert _ upserted
  | patchQuest questId patch passed =>
    rcases Mutation.onQuest_eq_ok.mp mutated with ⟨_, rfl⟩ | ⟨current, _, mutated⟩
    · exact .nothing rfl
    · obtain ⟨draft, _, edited⟩ := bind_eq_ok.mp mutated
      exact of_edit edited
  | patchQuestForOwner questId owner patch =>
    rcases Mutation.onQuest_eq_ok.mp mutated with ⟨_, rfl⟩ | ⟨current, _, mutated⟩
    · exact .nothing rfl
    · obtain ⟨_, _, mutated⟩ := bind_eq_ok.mp mutated
      obtain ⟨_, _, mutated⟩ := bind_eq_ok.mp mutated
      split at mutated
      · obtain ⟨_, _, mutated⟩ := bind_eq_ok.mp mutated
        obtain rfl := pure_eq_ok.mp mutated
        exact .nothing rfl
      · obtain ⟨draft, _, edited⟩ := bind_eq_ok.mp mutated
        exact of_edit edited
  | appendQuestFeedback questId entry lastModifiedBy =>
    rcases Mutation.onQuest_eq_ok.mp mutated with ⟨_, rfl⟩ | ⟨current, _, mutated⟩
    · exact .nothing rfl
    · obtain ⟨draft, _, edited⟩ := bind_eq_ok.mp mutated
      exact of_edit edited
  | appendQuestCodeCommitEvidenceForOwner questId owner commitShas delivery =>
    rcases Mutation.onQuest_eq_ok.mp mutated with ⟨_, rfl⟩ | ⟨current, _, mutated⟩
    · exact .nothing rfl
    · obtain ⟨_, _, mutated⟩ := bind_eq_ok.mp mutated
      obtain ⟨_, _, mutated⟩ := bind_eq_ok.mp mutated
      obtain ⟨updated, _, mutated⟩ := bind_eq_ok.mp mutated
      cases updated with
      | none =>
        obtain rfl := pure_eq_ok.mp mutated
        exact .nothing rfl
      | some draft => exact of_edit mutated
  | transitionQuest questId input =>
    rcases Mutation.onQuest_eq_ok.mp mutated with ⟨_, rfl⟩ | ⟨current, _, mutated⟩
    · exact .nothing rfl
    · obtain ⟨quest, _, upserted⟩ := bind_eq_ok.mp mutated
      exact of_upsert store.nextQuestNumber upserted
  | claimQuest questId sessionId options =>
    rcases Mutation.onQuest_eq_ok.mp mutated with ⟨_, rfl⟩ | ⟨current, _, mutated⟩
    · exact .nothing rfl
    · obtain ⟨nextOwner, _, mutated⟩ := bind_eq_ok.mp mutated
      obtain ⟨input, _, mutated⟩ := bind_eq_ok.mp mutated
      cases input with
      | none =>
        obtain rfl := pure_eq_ok.mp mutated
        exact .nothing rfl
      | some input =>
        obtain ⟨quest, _, upserted⟩ := bind_eq_ok.mp mutated
        exact of_upsert store.nextQuestNumber upserted
  | cancelQuest questId notes provenance =>
    rcases Mutation.onQuest_eq_ok.mp mutated with ⟨_, rfl⟩ | ⟨current, _, mutated⟩
    · exact .same rfl
    · obtain ⟨quest, _, upserted⟩ := bind_eq_ok.mp mutated
      exact of_upsert store.nextQuestNumber upserted
  | deleteQuest questId =>
    rcases Mutation.onQuest_eq_ok.mp mutated with ⟨_, rfl⟩ | ⟨current, _, mutated⟩
    · exact .same rfl
    · obtain rfl := Except.ok.inj mutated
      exact .removed questId rfl

theorem readable (wanted : Wanted now store mutation) (readable : ReadableStore store)
    (clock : 0 < now) (written : mutation.store = some store') : ReadableStore store' := by
  cases wanted with
  | nothing absent =>
    rw [absent] at written
    cases written
  | same wanted => exact Option.some.inj (wanted.symm.trans written) ▸ readable
  | upserted number quest next given wanted =>
    obtain rfl := Option.some.inj (wanted.symm.trans written)
    obtain ⟨next, normalized, rfl⟩ := upsertLiveQuest_eq_ok given
    exact readable_insert readable.normal (normalQuest_of_normalizeLiveQuest clock normalized)
  | removed questId wanted =>
    exact Option.some.inj (wanted.symm.trans written) ▸ readable.remove questId

end Wanted

theorem mutate_fresh (readable : ReadableStore store) (admitted : editsFresh store request = true) :
    request.mutate getName now store = request.fresh.mutate getName now store := by
  cases request with
  | patchQuest questId patch passed =>
    have fresh : passed.all (fun quest => quest.questId ≠ questId || store.upToDate quest) = true := by
      cases passed with
      | none => rfl
      | some quest => exact (Bool.and_eq_true_iff.mp admitted).1
    unfold Request.fresh
    simp only [Request.mutate, Option.filter_none, Option.none_or]
    rw [readable.read_passed fresh, readable.read_stored]
  | _ => rfl

/-! ## What a call leaves alone -/

theorem getLiveQuestById_insert : getLiveQuestById (store.insert next) next.questId = some next := by
  have stored : next ∈ (store.insert next).quests := mem_insert.mpr (.inr rfl)
  cases found : getLiveQuestById (store.insert next) next.questId with
  | none => simpa using List.find?_eq_none.mp found next stored
  | some quest =>
    obtain ⟨inside, named⟩ := of_getLiveQuestById found
    rcases mem_insert.mp inside with ⟨_, other⟩ | rfl
    · exact absurd named other
    · rfl

/-- An edit that leaves alone what normalizing looks at, apart from relationships and quiz items. -/
structure SameRecord (current draft : Quest) : Prop extends SameOwnership current draft where
  id : draft.id = current.id
  version : draft.version = current.version
  prevId : draft.prevId = current.prevId
  createdAt : draft.createdAt = current.createdAt
  statusChangedAt : draft.statusChangedAt = current.statusChangedAt
  leaderSessionId : draft.leaderSessionId = current.leaderSessionId
  relatedQuests : draft.relatedQuests = current.relatedQuests
  ownershipEvents : draft.ownershipEvents = current.ownershipEvents
  recoveryEvents : draft.recoveryEvents = current.recoveryEvents
  replacements :
    draft.codeCommitEvidenceReplacementEvents = current.codeCommitEvidenceReplacementEvents

namespace SameRecord

theorem ownership (same : SameRecord current draft) (normal : NormalOwnership current) :
    NormalOwnership draft := by
  have owner : getQuestOwner draft = getQuestOwner current := by
    rw [getQuestOwner, same.sessionId, same.ownerKind]
    rfl
  have past : getPreviousQuestOwners draft = getPreviousQuestOwners current := by
    rw [getPreviousQuestOwners, same.previousOwners, same.previousOwnerSessionIds]
    rfl
  constructor
  · rw [owner, same.sessionId, same.ownerKind]
    exact normal.session
  · rw [owner, same.status]
    exact normal.finished
  · rw [past, same.previousOwners, same.previousOwnerSessionIds]
    exact normal.previous
  · rw [owner, past]
    exact normal.past
  · rw [same.ownershipEvents]
    exact normal.events
  · rw [getLeaderSessionId, same.leaderSessionId]
    exact normal.leader

/-- Normalizing such an edit. -/
theorem normalize (same : SameRecord current draft) (normal : NormalQuest current)
    (normalized : normalizeLiveQuest now draft = .ok next) :
    normalizeQuestQuizItems draft.quizItems = .ok next.quizItems ∧ next = { draft with
      relationships := normalizeQuestRelationships draft.relationships draft.questId
      quizItems := next.quizItems } := by
  have stripped : stripDerivedQuestRelationships draft = draft := by
    rw [stripDerivedQuestRelationships, ← normal.underived, ← same.relatedQuests]
  obtain ⟨at', changed, positive⟩ := normal.changed
  unfold normalizeLiveQuest at normalized
  rw [stripped, (same.ownership normal.ownership).normalize] at normalized
  obtain ⟨quizItems, quiz, normalized⟩ := bind_eq_ok.mp normalized
  refine ⟨by rw [quiz, ← pure_eq_ok.mp normalized], ?_⟩
  rw [← pure_eq_ok.mp normalized]
  simp only [same.createdAt, same.version, same.statusChangedAt, same.recoveryEvents,
    same.replacements, if_neg (Nat.ne_of_gt normal.created), if_pos normal.version, changed,
    if_pos positive, ← normal.recoveryEvents, ← normal.replacements]
  have id : draft.questId = draft.id := by rw [same.id, same.questId, normal.id]
  nth_rewrite 1 [id]
  rw [← normal.current, ← same.prevId, ← same.createdAt, ← same.version, ← changed,
    ← same.statusChangedAt, ← same.recoveryEvents, ← same.replacements]

end SameRecord

theorem kept_unless {α β : Type} {given : Option α} {new old : β} (kept : given = none → new = old) :
    new = if given.isSome then new else old := by
  cases given with
  | none => exact kept rfl
  | some a => rfl

theorem unnamed_of_applyQuestPatch {patch : QuestPatchInput} (normal : NormalQuest current)
    (patched : applyQuestPatch current questId patch now = .ok draft)
    (quiet : marksUnread current patch = false)
    (normalized : normalizeLiveQuest now draft = .ok next) : Unnamed patch current next := by
  obtain ⟨quizItems, quiz, patched⟩ := bind_eq_ok.mp patched
  obtain ⟨rounds, round, patched⟩ := bind_eq_ok.mp patched
  obtain rfl := pure_eq_ok.mp patched
  obtain ⟨quiz', same⟩ := SameRecord.normalize (by constructor <;> first | rfl | constructor <;> rfl)
    normal normalized
  have plainQuiz : patch.quizItems = none → next.quizItems = current.quizItems := by
    intro absent
    rw [patchedQuizItems, absent] at quiz
    obtain rfl := Except.ok.inj quiz
    exact Except.ok.inj (quiz'.symm.trans normal.quizItems)
  have plainRounds : patch.round = none → rounds = current.rounds := by
    intro absent
    rw [patchedRounds, absent] at round
    exact (Except.ok.inj round).symm
  have plainUnread : patch.feedback = none → (if
      shouldMarkVerificationInboxUnreadFromFeedbackPatch current patch.feedback = true then some true
      else current.verificationInboxUnread) = current.verificationInboxUnread := by
    intro absent
    split
    · rename_i marks
      rw [absent] at marks
      simp only [marksUnread, absent, marks, Option.isNone_none, Bool.true_and, Bool.and_true,
        decide_eq_false_iff_not, not_not] at quiet
      exact quiet.symm
    · rfl
  unfold Unnamed
  rw [same]
  congr 1
  · exact kept_unless fun absent => by rw [absent]; rfl
  · exact kept_unless fun absent => by rw [absent]
  · exact kept_unless fun absent => by rw [absent]; rfl
  · exact kept_unless fun absent => by rw [absent]; rfl
  · exact kept_unless fun absent => by rw [absent]
  · exact kept_unless fun absent => by rw [absent]; exact normal.relationships.symm
  · exact kept_unless fun absent => by rw [absent]
  · exact kept_unless plainQuiz
  · exact kept_unless plainRounds
  · exact kept_unless fun absent => by rw [absent]
  · exact kept_unless fun absent => by rw [absent]; rfl
  · exact kept_unless plainUnread

theorem evidence_kept {owner : QuestOwnerRef} {shas : List JsString}
    {delivery : Option QuestCodeDelivery} (normal : NormalQuest current)
    (appended : appendCodeEvidence current owner shas delivery now = .ok (some draft))
    (normalized : normalizeLiveQuest now draft = .ok next) : next = { current with
      updatedAt := next.updatedAt
      commitShas := next.commitShas
      codeDeliveries := next.codeDeliveries } := by
  obtain ⟨_, _, appended⟩ := bind_eq_ok.mp appended
  obtain ⟨_, _, appended⟩ := bind_eq_ok.mp appended
  obtain ⟨_, _, appended⟩ := bind_eq_ok.mp appended
  obtain ⟨_, _, appended⟩ := bind_eq_ok.mp appended
  obtain ⟨shas, _, appended⟩ := bind_eq_ok.mp appended
  split at appended
  · cases pure_eq_ok.mp appended
  · obtain rfl := Option.some.inj (pure_eq_ok.mp appended)
    obtain ⟨quiz, same⟩ := SameRecord.normalize
      (by constructor <;> first | rfl | constructor <;> rfl) normal normalized
    rw [same]
    congr 1
    · exact normal.relationships.symm
    · exact Except.ok.inj (quiz.symm.trans normal.quizItems)

theorem read_of_edit (edited : Mutation.edit now store draft = .ok mutation) :
    ∃ next, normalizeLiveQuest now draft = .ok next ∧
      getLiveQuestById (mutation.store.getD store) draft.questId = some next := by
  obtain ⟨written, upserted, edited⟩ := bind_eq_ok.mp edited
  obtain ⟨result, _, edited⟩ := bind_eq_ok.mp edited
  obtain rfl := pure_eq_ok.mp edited
  obtain ⟨next, normalized, rfl⟩ := upsertLiveQuest_eq_ok upserted
  refine ⟨next, normalized, ?_⟩
  rw [← (liveForm_of_normalizeLiveQuest normalized).questId]
  exact getLiveQuestById_insert

theorem unnamed_of_edit {patch : QuestPatchInput} (readable : ReadableStore store)
    (read : getLiveQuestById store questId = some current)
    (patched : applyQuestPatch current questId patch now = .ok draft)
    (quiet : marksUnread current patch = false)
    (edited : Mutation.edit now store draft = .ok mutation) :
    ∃ updated, getLiveQuestById (mutation.store.getD store) questId = some updated ∧
      Unnamed patch current updated := by
  obtain ⟨inside, named⟩ := of_getLiveQuestById read
  obtain ⟨next, normalized, found⟩ := read_of_edit edited
  rw [(patch_sameOwnership patched).questId, named] at found
  exact ⟨next, found, unnamed_of_applyQuestPatch (readable.normal current inside) patched quiet normalized⟩

theorem fieldsKept_of_mutate (readable : ReadableStore store)
    (admitted : editsFresh store request = true)
    (mutated : request.fresh.mutate getName now store = .ok mutation) :
    FieldsKept request store (mutation.store.getD store) := by
  have quiet {questId : JsString} {patchOf : Quest → Option QuestPatchInput} {current : Quest}
      {patch : QuestPatchInput} (patches : request.patchOf = some (questId, patchOf))
      (read : getLiveQuestById store questId = some current) (given : patchOf current = some patch) :
      marksUnread current patch = false := by
    have unread := (Bool.and_eq_true_iff.mp admitted).2
    simpa [patches, read, given] using unread
  constructor
  · intro questId patchOf current patch patches read given
    have unmarked := quiet patches read given
    have stored := readable.read_stored.trans read
    cases request with
    | patchQuest _ _ _ =>
      cases patches
      cases given
      simp only [Request.fresh, Request.mutate, Option.filter_none, Option.none_or, stored] at mutated
      obtain ⟨draft, patched, edited⟩ := bind_eq_ok.mp mutated
      exact unnamed_of_edit readable read patched unmarked edited
    | patchQuestForOwner _ owner _ =>
      cases patches
      simp only [Request.fresh, Request.mutate, stored] at mutated
      obtain ⟨_, _, mutated⟩ := bind_eq_ok.mp mutated
      obtain ⟨_, _, mutated⟩ := bind_eq_ok.mp mutated
      rw [given] at mutated
      obtain ⟨draft, patched, edited⟩ := bind_eq_ok.mp mutated
      exact unnamed_of_edit readable read patched unmarked edited
    | appendQuestFeedback _ entry lastModifiedBy =>
      cases patches
      cases given
      simp only [Request.fresh, Request.mutate, stored] at mutated
      obtain ⟨draft, patched, edited⟩ := bind_eq_ok.mp mutated
      exact unnamed_of_edit readable read patched unmarked edited
    | _ => cases patches
  · rintro questId owner commitShas delivery current rfl read
    obtain ⟨inside, named⟩ := of_getLiveQuestById read
    have stored := readable.read_stored.trans read
    simp only [Request.fresh, Request.mutate, stored] at mutated
    obtain ⟨_, _, mutated⟩ := bind_eq_ok.mp mutated
    obtain ⟨_, _, mutated⟩ := bind_eq_ok.mp mutated
    obtain ⟨updated, appended, mutated⟩ := bind_eq_ok.mp mutated
    cases updated with
    | none =>
      obtain rfl := pure_eq_ok.mp mutated
      exact ⟨current, read, rfl⟩
    | some draft =>
      obtain ⟨next, normalized, found⟩ := read_of_edit mutated
      rw [(evidence_sameOwnership appended).questId, named] at found
      exact ⟨next, found, evidence_kept (readable.normal current inside) appended normalized⟩

/-! ## Every run -/

/-- A call that is to write has made it of the store as it is. -/
structure Prepared (getName : JsString → Option JsString) (store : LiveQuestStore) (call : Call)
    (read written : LiveQuestStore) (outcome : Outcome) : Prop where
  read : read = store
  mutated : call.request.fresh.mutate getName call.now store = .ok ⟨some written, outcome⟩
  kept : FieldsKept call.request store written
  readable : ReadableStore written

/-- What holds of each call. -/
structure CallFacts (getName : JsString → Option JsString) (shared : LockedStore) (i : Nat)
    (call : Call) : Prop where
  checked : call.phase.isEnded = false → call.request.check = .ok ()
  holder : call.phase.holds = true ↔ shared.lock = some i
  prepared : ∀ read written outcome, call.phase = .writing read written outcome →
    Prepared getName shared.store call read written outcome

/-- What holds in every state of a run that meets the condition. -/
structure EditsKept (getName : JsString → Option JsString) (start : LiveQuestStore) (s : CallRun) :
    Prop where
  logged : callView.Logged s.calls.procs s.log
  readable : ReadableStore s.calls.shared.store
  serial : Serial getName start s.log s.calls.shared.store
  calls : ∀ i call, s.calls.procs[i]? = some call → CallFacts getName s.calls.shared i call
  held : ∀ i, s.calls.shared.lock = some i → i < s.calls.procs.length

section Steps

variable {start : LiveQuestStore} {s : CallRun} {shared : LockedStore} {c c' : Call} {i : Nat}

/-- A call that does not have the lock, before and after a step of another one. -/
theorem CallFacts.other {shared' : LockedStore} (facts : CallFacts getName shared i c)
    (without : shared.lock ≠ some i) (without' : shared'.lock ≠ some i) :
    CallFacts getName shared' i c := by
  have idle : c.phase.holds = false := by
    cases holds : c.phase.holds with
    | false => rfl
    | true => exact absurd (facts.holder.mp holds) without
  refine ⟨facts.checked, ?_, ?_⟩
  · rw [idle]
    exact ⟨fun held => (by cases held), fun held => absurd held without'⟩
  · intro read written outcome writing
    rw [writing] at idle
    cases idle

theorem CallFacts.past {result : Except JsString Outcome} (ended : c.phase = .ended result)
    (free : shared.lock ≠ some i) : CallFacts getName shared i c := by
  refine ⟨?_, ?_, ?_⟩
  · rw [ended]
    exact fun running => by cases running
  · rw [ended]
    exact ⟨fun held => (by cases held), fun held => absurd held free⟩
  · rw [ended]
    exact fun _ _ _ writing => by cases writing

/-- The call `i` goes on, and nobody else has the lock before or after. -/
theorem EditsKept.resumed (inv : EditsKept getName start s) (here : s.calls.procs[i]? = some c)
    (running : c.phase.isEnded = false) (before : c'.before = c.before)
    (free : s.calls.shared.lock = none ∨ s.calls.shared.lock = some i)
    (free' : shared.lock = none ∨ shared.lock = some i) (readable : ReadableStore shared.store)
    (serial : Serial getName start (s.log ++ (callView.entry i c').toList) shared.store)
    (facts : CallFacts getName shared i c') :
    EditsKept getName start (s.after i ⟨shared, s.calls.procs.set i c'⟩) := by
  have inside : i < s.calls.procs.length := (List.getElem?_eq_some_iff.mp here).1
  have unresolved : callView.entryAt s.calls.procs i = none := by
    unfold CallView.entryAt
    rw [here, Option.bind_some]
    cases phase : c.phase with
    | ended result =>
      rw [phase] at running
      cases running
    | _ => simp [callView, phase, Phase.resolved]
  have now' : (s.calls.procs.set i c')[i]? = some c' := List.getElem?_set_self inside
  have other {lock : Option Nat} (free : lock = none ∨ lock = some i) {j : Nat} (distinct : j ≠ i) :
      lock ≠ some j := by
    rcases free with absent | mine
    · rw [absent]
      exact fun same => by cases same
    · rw [mine]
      exact fun same => distinct (Option.some.inj same).symm
  refine ⟨?_, readable, ?_, ?_, ?_⟩
  · refine inv.logged.change (fun j distinct => List.getElem?_set_ne (Ne.symm distinct)) ?_ ?_ ?_
    · intro e resolved
      rw [unresolved] at resolved
      cases resolved
    · intro d there
      rw [here] at there
      exact Option.some.inj there ▸ running
    · intro d there j prior
      obtain rfl := Option.some.inj (now'.symm.trans there)
      rw [show callView.prior c' = c.before from before] at prior
      exact CallView.mem_endedCalls.mpr (inv.logged.earlier i c here j prior)
  · show Serial getName start (callView.logged _ i _ _) _
    unfold CallView.logged
    rw [unresolved, Option.isSome_none, if_neg Bool.false_ne_true]
    show Serial getName start (s.log ++ ((s.calls.procs.set i c')[i]?.bind _).toList) _
    rw [now', Option.bind_some]
    exact serial
  · intro j d there
    rcases (Processes.getElem?_set_eq_some here).mp there with ⟨rfl, rfl⟩ | ⟨distinct, there⟩
    · exact facts
    · exact (inv.calls j d there).other (other free distinct) (other free' distinct)
  · intro j held
    rcases free' with absent | mine
    · cases absent.symm.trans held
    · obtain rfl := Option.some.inj (mine.symm.trans held)
      exact (List.length_set).symm ▸ inside

theorem Request.check_fresh (request : Request) : request.fresh.check = request.check := by
  cases request <;> rfl

/-- A call that has resolved, with the store that it leaves. -/
theorem Serial.resolve {log : List Entry} {outcome : Outcome} (serial : Serial getName start log store)
    (checked : c.request.check = .ok ())
    (mutated : c.request.fresh.mutate getName c.now store = .ok mutation)
    (outcome' : mutation.result = outcome) (readable : ∀ written, mutation.store = some written →
      ReadableStore written)
    (kept : FieldsKept c.request store (mutation.store.getD store)) :
    Serial getName start
      (log ++ (callView.entry i { c with phase := .ended (.ok outcome) }).toList)
      (mutation.store.getD store) := by
  refine .snoc serial (e := ⟨i, c.request, c.now, c.before, outcome⟩) ?_ kept
  show (c.request.fresh.check >>= fun _ => _) = _
  rw [Request.check_fresh, checked]
  show (c.request.fresh.mutate getName c.now store >>= fun mutation => _) = _
  rw [mutated]
  subst outcome'
  obtain ⟨wanted, result⟩ := mutation
  cases wanted with
  | none => rfl
  | some written =>
    show (writeLiveQuestStore c.now written store >>= fun store => _) = _
    rw [(readable written rfl).write]
    rfl

theorem EditsKept.resume {t : CallRun} (inv : EditsKept getName start s) (clock : 0 < now)
    (admitted : CallEvent.editsFresh s (.resume i now) = true)
    (taken : (s.calls.stepAt i (Call.resume getName i now)).map (s.after i) = some t) :
    EditsKept getName start t := by
  obtain ⟨calls, stepped, rfl⟩ := Option.map_eq_some_iff.mp taken
  obtain ⟨c, shared, c', here, resumed, rfl⟩ := Processes.stepAt_eq_some.mp stepped
  have facts := inv.calls i c here
  have idle {log : List Entry} {d : Call} (unresolved : d.phase.resolved = none) :
      log ++ (callView.entry i d).toList = log := by
    simp [callView, unresolved]
  unfold Call.resume at resumed
  split at resumed
  · -- It takes the lock.
    rename_i waiting
    split at resumed
    · rename_i open'
      cases Option.some.inj resumed
      have free : s.calls.shared.lock = none := Option.isNone_iff_eq_none.mp open'
      refine inv.resumed here (by rw [waiting]; rfl) rfl (.inl free) (.inr rfl) inv.readable ?_ ?_
      · rw [idle rfl]
        exact inv.serial
      · refine ⟨fun _ => facts.checked (by rw [waiting]; rfl), ⟨fun _ => rfl, fun _ => rfl⟩, ?_⟩
        exact fun _ _ _ writing => by cases writing
    · cases resumed
  · rename_i reading
    have checked := facts.checked (by rw [reading]; rfl)
    have mine : s.calls.shared.lock = some i := facts.holder.mp (by rw [reading]; rfl)
    have fresh : editsFresh s.calls.shared.store c.request = true := by
      simpa [CallEvent.editsFresh, here, reading] using admitted
    have readable := inv.readable
    have mutated : c.request.mutate getName now s.calls.shared.store = _ := mutate_fresh readable fresh
    split at resumed
    · cases Option.some.inj resumed
      refine inv.resumed here (by rw [reading]; rfl) rfl (.inr mine) (.inl rfl) readable ?_
        (.past rfl (by simp))
      rw [idle rfl]
      exact inv.serial
    · rename_i outcome resolved
      cases Option.some.inj resumed
      refine inv.resumed here (by rw [reading]; rfl) rfl (.inr mine) (.inl rfl) readable ?_
        (.past rfl (by simp))
      have mutated := mutated.symm.trans resolved
      exact inv.serial.resolve (c := { c with now }) checked mutated rfl
        (fun _ written => by cases written) (fieldsKept_of_mutate readable fresh mutated)
    · rename_i written outcome wanted
      cases Option.some.inj resumed
      refine inv.resumed here (by rw [reading]; rfl) rfl (.inr mine) (.inr mine) readable ?_ ?_
      · rw [idle rfl]
        exact inv.serial
      · refine ⟨fun _ => checked, ⟨fun _ => mine, fun _ => rfl⟩, ?_⟩
        intro read written outcome writing
        cases writing
        have mutated := mutated.symm.trans wanted
        exact ⟨rfl, mutated, fieldsKept_of_mutate readable fresh mutated,
          (Wanted.of_mutate wanted).readable readable clock rfl⟩
  · rename_i read written outcome writing
    have checked := facts.checked (by rw [writing]; rfl)
    have mine : s.calls.shared.lock = some i := facts.holder.mp (by rw [writing]; rfl)
    have prepared := facts.prepared read written outcome writing
    rw [prepared.readable.write] at resumed
    cases Option.some.inj resumed
    refine inv.resumed here (by rw [writing]; rfl) rfl (.inr mine) (.inl rfl) prepared.readable ?_
      (.past rfl (by simp))
    exact inv.serial.resolve (c := c) checked prepared.mutated rfl
      (fun _ same => Option.some.inj same ▸ prepared.readable) prepared.kept
  · cases resumed

theorem EditsKept.started (inv : EditsKept getName start s) (request : Request) :
    EditsKept getName start (s.after s.calls.procs.length (s.calls.spawn
      { request, before := callView.endedCalls s.calls.procs, phase := request.start })) := by
  generalize fresh : ({ request, before := _, phase := _ } : Call) = c
  have unresolved : c.phase.resolved = none := by
    rw [← fresh]
    show request.start.resolved = none
    unfold Request.start
    split <;> rfl
  have absent : s.calls.procs[s.calls.procs.length]? = none := List.getElem?_eq_none (Nat.le_refl _)
  have last : (s.calls.spawn c).procs[s.calls.procs.length]? = some c :=
    Processes.getElem?_spawn_eq_some.mpr (.inr ⟨rfl, rfl⟩)
  have none' : callView.entryAt s.calls.procs s.calls.procs.length = none := by
    rw [CallView.entryAt, absent]
    rfl
  refine ⟨?_, inv.readable, ?_, ?_, ?_⟩
  · refine inv.logged.change (fun j distinct => ?_) (fun e resolved => ?_) (fun d there => ?_)
      fun d there j prior => ?_
    · cases there : s.calls.procs[j]? with
      | some d => exact Processes.getElem?_spawn_eq_some.mpr (.inl there)
      | none =>
        have beyond := List.getElem?_eq_none_iff.mp there
        refine List.getElem?_eq_none ?_
        show (s.calls.procs ++ [c]).length ≤ j
        rw [List.length_append, List.length_singleton]
        omega
    · rw [none'] at resolved
      cases resolved
    · rw [absent] at there
      cases there
    · obtain rfl := Option.some.inj (last.symm.trans there)
      subst fresh
      exact prior
  · show Serial getName start (callView.logged _ _ _ _) _
    unfold CallView.logged
    rw [none', Option.isSome_none, if_neg Bool.false_ne_true, CallView.entryAt]
    show Serial getName start (_ ++ ((s.calls.spawn c).procs[_]?.bind _).toList) _
    rw [last, Option.bind_some, show callView.entry _ c = none by simp [callView, unresolved],
      Option.toList_none, List.append_nil]
    exact inv.serial
  · intro j d there
    rcases Processes.getElem?_spawn_eq_some.mp there with old | ⟨rfl, rfl⟩
    · exact inv.calls j d old
    · have unheld : s.calls.shared.lock ≠ some s.calls.procs.length := fun held =>
        absurd (inv.held _ held) (Nat.lt_irrefl _)
      subst fresh
      show CallFacts getName s.calls.shared _ ⟨request, 0, _, request.start⟩
      unfold Request.start
      cases checked : request.check with
      | ok _ => exact ⟨fun _ => checked, ⟨fun held => (by cases held), fun held => absurd held unheld⟩,
          fun _ _ _ writing => by cases writing⟩
      | error error => exact .past rfl unheld
  · intro j held
    show j < (s.calls.procs ++ [c]).length
    rw [List.length_append]
    exact Nat.lt_add_right _ (inv.held j held)

end Steps

theorem editsKept {start : LiveQuestStore} (readable : ReadableStore start) {s : CallRun}
    (reached : (questCalls getName start).Reaches (fun s event => event.editsFresh s = true) s) :
    EditsKept getName start s := by
  induction reached with
  | start =>
    refine ⟨.nil, readable, .nil, ?_, ?_⟩
    · intro i call here
      cases here
    · intro i held
      cases held
  | @step s event t _ admitted taken inv =>
    cases event with
    | start request =>
      obtain rfl := Option.some.inj taken
      exact inv.started request
    | resume i now =>
      simp only [questCalls, CallRun.step] at taken
      split at taken
      · exact inv.resume ‹_› admitted taken
      · cases taken

theorem callView_entry_eq_some {i : Nat} {call : Call} {e : Entry} :
    callView.entry i call = some e ↔ call = ⟨e.request, e.now, e.before, .ended (.ok e.outcome)⟩ ∧
      e.index = i := by
  obtain ⟨request, now, before, phase⟩ := call
  obtain ⟨index, request', now', before', outcome⟩ := e
  cases phase with
  | ended result =>
    cases result with
    | ok outcome' => simp [callView, Phase.resolved]; grind
    | error error => simp [callView, Phase.resolved]
  | _ => simp [callView, Phase.resolved]

/-- In every state of a run that meets the condition: the store is what the calls that have resolved
leave one after another, each with its own result and leaving alone what it does not name, no call
coming before one that had ended when it started. -/
theorem quest_edits_kept {parsed start : LiveQuestStore} {opened : Nat} (clock : 0 < opened)
    (read : normalizeLiveQuestStore opened parsed = .ok start) {s : CallRun}
    (reached : (questCalls getName start).Reaches (fun s event => event.editsFresh s = true) s) :
    Serial getName start s.log s.calls.shared.store ∧
    (∀ (i : Nat) (call : Call) (outcome : Outcome), s.calls.procs[i]? = some call →
      call.phase = .ended (.ok outcome) → ⟨i, call.request, call.now, call.before, outcome⟩ ∈ s.log) ∧
    (∀ e ∈ s.log, s.calls.procs[e.index]? =
      some ⟨e.request, e.now, e.before, .ended (.ok e.outcome)⟩) ∧
    (s.log.map (·.index)).Nodup ∧ (s.log.Pairwise fun e e' => e'.index ∉ e.before) ∧
    ∀ now, normalizeLiveQuestStore now s.calls.shared.store = .ok s.calls.shared.store := by
  have inv := editsKept (readable_of_normalizeLiveQuestStore clock read) reached
  refine ⟨inv.serial, fun i call outcome here ended => ?_, fun e inside => ?_, inv.logged.distinct,
    inv.logged.ordered, inv.readable.restart⟩
  · refine inv.logged.listed i _ (CallView.entryAt_eq_some.mpr ⟨call, here, ?_⟩)
    exact callView_entry_eq_some.mpr ⟨by rw [← ended], rfl⟩
  · obtain ⟨call, here, told⟩ := CallView.entryAt_eq_some.mp (inv.logged.known e inside)
    exact (callView_entry_eq_some.mp told).1 ▸ here

/-- A store with one quest that is refined and one that is done, with feedback that has been read. -/
def twoStored : LiveQuestStore where
  nextQuestNumber := 3
  quests := [
    { id := js "q-1", questId := js "q-1", version := 1, title := js "A", createdAt := 1,
      statusChangedAt := some 1, status := .refined, description := some (js "a") },
    { id := js "q-2", questId := js "q-2", version := 1, title := js "B", createdAt := 1,
      statusChangedAt := some 1, status := .done, description := some (js "b"),
      feedback := some [{ author := .agent, text := js "done", ts := 1 }],
      verificationInboxUnread := some false }]

def retitle (questId : JsString) (current : Option Quest) : Request :=
  .patchQuest questId { title := some (js "C") } current

def retag (questId : JsString) (current : Option Quest) : Request :=
  .patchQuest questId { tags := some [js "t"] } current

/-- Two edits of one quest, both with the record as it was before, and one edit of the other quest. -/
def staleEdits : List CallEvent :=
  let stored := getLiveQuestById twoStored (js "q-1")
  [.start (retitle (js "q-1") stored), .start (retag (js "q-1") stored),
    .resume 0 2, .resume 0 2, .resume 0 2, .resume 1 3, .resume 1 3, .resume 1 3,
    .start (retitle (js "q-2") none), .resume 2 4, .resume 2 4, .resume 2 4]

def titleAfter (requests : List Request) : Option JsString :=
  let store := requests.foldl (fun store request =>
    ((request.fresh.perform (fun _ => none) 2 store).toOption.map (·.1)).getD store) twoStored
  (getLiveQuestById store (js "q-1")).map (·.title)

/-- The new title is lost, which it is in neither order of the calls, and the quest whose feedback was
read is unread again. -/
theorem quest_edit_lost : normalizeLiveQuestStore 1 twoStored = .ok twoStored ∧
    (∃ s, (questCalls (fun _ => none) twoStored).Reachable s ∧
      (∀ call ∈ s.calls.procs, call.phase.resolved.isSome) ∧
      (getLiveQuestById s.calls.shared.store (js "q-1")).map (·.title) = some (js "A") ∧
      (getLiveQuestById s.calls.shared.store (js "q-2")).map (·.verificationInboxUnread) =
        some (some true)) ∧
    titleAfter [retitle (js "q-1") none, retag (js "q-1") none] = some (js "C") ∧
    titleAfter [retag (js "q-1") none, retitle (js "q-1") none] = some (js "C") := by
  refine ⟨by decide +kernel, ?_, by decide +kernel, by decide +kernel⟩
  obtain ⟨s, reached, found⟩ := (questCalls (fun _ => none) twoStored).exists_reaches_of_run
    (fun _ _ => true) (fun s => (∀ call ∈ s.calls.procs, call.phase.resolved.isSome) ∧
      (getLiveQuestById s.calls.shared.store (js "q-1")).map (·.title) = some (js "A") ∧
      (getLiveQuestById s.calls.shared.store (js "q-2")).map (·.verificationInboxUnread) =
        some (some true))
    staleEdits (by decide +kernel)
  exact ⟨s, reached.reachable, found⟩

/-- Edits of one quest at the same time, one with the record as it is stored. -/
def plainEdits : List CallEvent :=
  [.start (retitle (js "q-1") (getLiveQuestById twoStored (js "q-1"))),
    .start (retag (js "q-1") none), .resume 0 2, .resume 0 2,
    .start (.appendQuestFeedback (js "q-1") { author := .human, text := js "ok", ts := 3 } none),
    .resume 0 3, .resume 2 4, .resume 2 4, .resume 2 5, .resume 1 6, .resume 1 6, .resume 1 6,
    .start (.claimQuest (js "q-1") (js "s-1") {}), .resume 3 7, .resume 3 7, .resume 3 7]

theorem plain_quest_edits_kept : ∃ s : CallRun, s.log.map (·.index) = [0, 2, 1, 3] ∧
    Serial (fun _ => none) twoStored s.log s.calls.shared.store := by
  obtain ⟨s, reached, ran⟩ := (questCalls (fun _ => none) twoStored).exists_reaches_of_run
    (fun s event => event.editsFresh s) (fun s => s.log.map (·.index) = [0, 2, 1, 3]) plainEdits
    (by decide +kernel)
  have read : normalizeLiveQuestStore 1 twoStored = .ok twoStored := by decide +kernel
  exact ⟨s, ran, (quest_edits_kept Nat.one_pos read reached).1⟩

end Takode.Quests
