import Takode.Lib.Machine
import Takode.Quests.Changes

/-!
# Owners and ids

Over any calls and restarts: an id names one quest for ever, an owner has at most one
quest in progress, and no owner that a quest had is forgotten.
-/

namespace Takode.Quests

open JsString

/-! ## Runs -/

/-- A store with the ids that `createQuest` has given out and all the stores so far. -/
structure StoreRun where
  store : LiveQuestStore := emptyLiveQuestStore
  given : List JsString := []
  history : List LiveQuestStore := [emptyLiveQuestStore]

inductive StoreEvent
  | call (request : Request) (now : Nat)
  | restart (now : Nat)

namespace StoreRun

/-- The id that a call has given out. -/
def givenId : Request → Outcome → List JsString
  | .createQuest _, .quest quest => (quest.map (·.questId)).toList
  | _, _ => []

def advance (s : StoreRun) (store : LiveQuestStore) (ids : List JsString) : StoreRun :=
  ⟨store, s.given ++ ids, s.history ++ [store]⟩

/-- A call that rejects changes nothing; the clock is past the epoch. -/
def step (getName : JsString → Option JsString) (s : StoreRun) : StoreEvent → Option StoreRun
  | .call request now =>
    if 0 < now then
      match request.perform getName now s.store with
      | .ok (store, outcome) => some (s.advance store (givenId request outcome))
      | .error _ => some s
    else none
  | .restart now =>
    if 0 < now then
      (normalizeLiveQuestStore now s.store).toOption.map fun store => s.advance store []
    else none

end StoreRun

def questStore (getName : JsString → Option JsString) : Machine StoreRun StoreEvent :=
  ⟨{}, fun s event => s.step getName event⟩

/-- No quest but `questId` is in progress with the owner. -/
def LiveQuestStore.free (store : LiveQuestStore) (questId : JsString) (owner : QuestOwnerRef) : Bool :=
  store.quests.all fun other =>
    other.questId = questId || other.status ≠ .inProgress || getQuestOwner other ≠ some owner

/-- The condition: a transition to `in_progress` names no owner that has another quest in progress,
and a record that is passed to `patchQuest` is the quest as it is stored. -/
def keepsOwners (store : LiveQuestStore) : Request → Bool
  | .transitionQuest questId input =>
    input.status ≠ .inProgress || (getLiveQuestById store questId).all fun current =>
      match requestedQuestOwner current input with
      | .ok owner => store.free questId owner
      | .error _ => true
  | .patchQuest questId _ (some current) => current.questId ≠ questId || store.upToDate current
  | _ => true

def StoreEvent.keepsOwners (s : StoreRun) : StoreEvent → Bool
  | .call request _ => Quests.keepsOwners s.store request
  | .restart _ => true

/-! ## Stores -/

variable {getName : JsString → Option JsString} {store store' : LiveQuestStore}
  {quest next current : Quest} {now : Nat} {questId : JsString} {request : Request}

/-- What holds of the quests of a store. -/
structure SoundStore (store : LiveQuestStore) : Prop where
  normal : ∀ quest ∈ store.quests, NormalQuest quest
  sorted : store.quests.Pairwise fun a b => getQuestRecencyTs b ≤ getQuestRecencyTs a
  distinct : (store.quests.map (·.questId)).Nodup
  active : ∀ quest ∈ store.quests, ∀ owner, getQuestOwner quest = some owner →
    quest.status = .inProgress
  alone : ∀ a ∈ store.quests, ∀ b ∈ store.quests, ∀ owner, getQuestOwner a = some owner →
    getQuestOwner b = some owner → a.questId = b.questId
  next : 1 ≤ store.nextQuestNumber
  numbered : ∀ quest ∈ store.quests, ∃ n, 1 ≤ n ∧ n < store.nextQuestNumber ∧
    quest.questId = questIdOf n

/-- The store with a record, in place of one of the same quest. -/
def LiveQuestStore.insert (store : LiveQuestStore) (next : Quest) : LiveQuestStore :=
  let quests := sortLatestQuests
    ((store.quests.filter fun existing => existing.questId ≠ next.questId) ++ [next])
  ⟨max store.nextQuestNumber (computeNextQuestNumber quests), quests⟩

theorem upsertLiveQuest_eq_ok (upserted : upsertLiveQuest now store quest = .ok store') :
    ∃ next, normalizeLiveQuest now quest = .ok next ∧ store' = store.insert next := by
  obtain ⟨next, normalized, upserted⟩ := bind_eq_ok.mp upserted
  exact ⟨next, normalized, (pure_eq_ok.mp upserted).symm⟩

theorem mem_sortLatestQuests {quests : List Quest} :
    quest ∈ sortLatestQuests quests ↔ quest ∈ quests := List.mem_insertionSort _

theorem sortLatestQuests_sorted (quests : List Quest) :
    (sortLatestQuests quests).Pairwise fun a b => getQuestRecencyTs b ≤ getQuestRecencyTs a := by
  have total : Std.Total fun a b : Quest => getQuestRecencyTs b ≤ getQuestRecencyTs a :=
    ⟨fun a b => Nat.le_total _ _⟩
  have trans : IsTrans Quest fun a b => getQuestRecencyTs b ≤ getQuestRecencyTs a :=
    ⟨fun _ _ _ first second => Nat.le_trans second first⟩
  exact List.pairwise_insertionSort _ quests

theorem mem_insert : quest ∈ (store.insert next).quests ↔
    (quest ∈ store.quests ∧ quest.questId ≠ next.questId) ∨ quest = next := by
  unfold LiveQuestStore.insert
  rw [mem_sortLatestQuests, List.mem_append, List.mem_filter, List.mem_singleton,
    decide_eq_true_iff]

theorem extractQuestNumber_questIdOf (n : Nat) : extractQuestNumber (questIdOf n) = n := by
  rw [extractQuestNumber, questIdDigits_questIdOf, Option.elim_some, digitsValue_decimal]

theorem computeNextQuestNumber_le {quests : List Quest} {bound : Nat} (positive : 1 ≤ bound)
    (numbered : ∀ quest ∈ quests, ∃ n, 1 ≤ n ∧ n < bound ∧ quest.questId = questIdOf n) :
    computeNextQuestNumber quests ≤ bound := by
  have below (start : Nat) (small : start < bound) :
      quests.foldl (fun m quest => max m (extractQuestNumber quest.questId)) start < bound := by
    induction quests generalizing start with
    | nil => exact small
    | cons quest rest ih =>
      obtain ⟨n, _, above, id⟩ := numbered quest List.mem_cons_self
      refine ih (fun other inside => numbered other (List.mem_cons_of_mem quest inside)) _ ?_
      show max start (extractQuestNumber quest.questId) < bound
      rw [id, extractQuestNumber_questIdOf]
      exact Nat.max_lt.mpr ⟨small, above⟩
  exact below 0 positive

theorem insert_nextQuestNumber
    (numbered : ∀ quest ∈ (store.insert next).quests, ∃ n, 1 ≤ n ∧ n < store.nextQuestNumber ∧
      quest.questId = questIdOf n) (positive : 1 ≤ store.nextQuestNumber) :
    (store.insert next).nextQuestNumber = store.nextQuestNumber :=
  Nat.max_eq_left (computeNextQuestNumber_le positive numbered)

/-- A store as it is read. -/
structure ReadableStore (store : LiveQuestStore) : Prop where
  normal : ∀ quest ∈ store.quests, NormalQuest quest
  sorted : store.quests.Pairwise fun a b => getQuestRecencyTs b ≤ getQuestRecencyTs a
  counted : computeNextQuestNumber store.quests ≤ store.nextQuestNumber

theorem of_getLiveQuestById (at' : getLiveQuestById store questId = some current) :
    current ∈ store.quests ∧ current.questId = questId :=
  ⟨List.mem_of_find?_eq_some at', of_decide_eq_true (List.find?_some at' :)⟩

namespace ReadableStore

theorem sortLatestQuests_eq (readable : ReadableStore store) :
    sortLatestQuests store.quests = store.quests := readable.sorted.insertionSort_eq

theorem restart (readable : ReadableStore store) (now : Nat) :
    normalizeLiveQuestStore now store = .ok store := by
  unfold normalizeLiveQuestStore
  rw [mapM_eq_self fun quest inside => (readable.normal quest inside).normalize now]
  show Except.ok _ = _
  simp only [readable.sortLatestQuests_eq, if_pos readable.counted]

theorem write (readable : ReadableStore store) (now : Nat) (previous : LiveQuestStore) :
    writeLiveQuestStore now store previous = .ok store := by
  unfold writeLiveQuestStore
  rw [mapM_eq_self]
  · show Except.ok _ = _
    simp only [readable.sortLatestQuests_eq, Nat.max_eq_left readable.counted]
  · intro quest inside
    split
    · rfl
    · exact (readable.normal quest inside).normalize now

theorem read_stored (readable : ReadableStore store) :
    (getLiveQuestById store questId).map stripDerivedQuestRelationships =
      getLiveQuestById store questId := by
  cases read : getLiveQuestById store questId with
  | none => rfl
  | some quest =>
    have underived := (readable.normal quest (List.mem_of_find?_eq_some read)).underived
    rw [Option.map_some, stripDerivedQuestRelationships, ← underived]

theorem read_passed {passed : Option Quest} (readable : ReadableStore store)
    (fresh : passed.all (fun quest => quest.questId ≠ questId || store.upToDate quest) = true) :
    ((passed.filter fun quest => quest.questId = questId).or (getLiveQuestById store questId)).map
      stripDerivedQuestRelationships = getLiveQuestById store questId := by
  cases passed with
  | none => exact readable.read_stored
  | some quest =>
    by_cases named : quest.questId = questId
    · simp only [Option.all_some, LiveQuestStore.upToDate, Bool.or_eq_true, decide_eq_true_eq] at fresh
      have same := fresh.resolve_left (not_not_intro named)
      rw [named, readable.read_stored] at same
      rw [same, Option.filter_some, if_pos (by simpa using named)]
      rfl
    · rw [Option.filter_some, if_neg (by simpa using named), Option.none_or]
      exact readable.read_stored

end ReadableStore

namespace SoundStore

theorem empty : SoundStore emptyLiveQuestStore := by
  refine ⟨?_, .nil, .nil, ?_, ?_, Nat.le_refl 1, ?_⟩ <;>
    exact fun _ inside => absurd inside List.not_mem_nil

theorem computeNext_le (sound : SoundStore store) :
    computeNextQuestNumber store.quests ≤ store.nextQuestNumber :=
  computeNextQuestNumber_le sound.next sound.numbered

theorem readable (sound : SoundStore store) : ReadableStore store :=
  ⟨sound.normal, sound.sorted, sound.computeNext_le⟩

theorem insert (sound : SoundStore store) (normal : NormalQuest next)
    (active : ∀ owner, getQuestOwner next = some owner → next.status = .inProgress)
    (free : ∀ owner, getQuestOwner next = some owner → ∀ other ∈ store.quests,
      other.questId ≠ next.questId → getQuestOwner other ≠ some owner)
    (numbered : ∃ n, 1 ≤ n ∧ n < store.nextQuestNumber ∧ next.questId = questIdOf n) :
    SoundStore (store.insert next) ∧
      (store.insert next).nextQuestNumber = store.nextQuestNumber := by
  have ids (quest : Quest) (inside : quest ∈ (store.insert next).quests) :
      ∃ n, 1 ≤ n ∧ n < store.nextQuestNumber ∧ quest.questId = questIdOf n := by
    rcases mem_insert.mp inside with ⟨old, _⟩ | rfl
    · exact sound.numbered quest old
    · exact numbered
  have same := insert_nextQuestNumber ids sound.next
  refine ⟨⟨?_, sortLatestQuests_sorted _, ?_, ?_, ?_, ?_, ?_⟩, same⟩
  · intro quest inside
    rcases mem_insert.mp inside with ⟨old, _⟩ | rfl
    · exact sound.normal quest old
    · exact normal
  · have perm := (List.perm_insertionSort (fun a b => getQuestRecencyTs b ≤ getQuestRecencyTs a)
      ((store.quests.filter fun existing => existing.questId ≠ next.questId) ++ [next])).map
      (·.questId)
    refine perm.nodup_iff.mpr ?_
    rw [List.map_append, List.map_singleton, List.nodup_append]
    refine ⟨sound.distinct.sublist (List.filter_sublist.map _), List.nodup_singleton _, ?_⟩
    intro id old id' new
    obtain rfl := List.mem_singleton.mp new
    obtain ⟨quest, inside, rfl⟩ := List.mem_map.mp old
    simpa using (List.mem_filter.mp inside).2
  · intro quest inside
    rcases mem_insert.mp inside with ⟨old, _⟩ | rfl
    · exact sound.active quest old
    · exact active
  · intro a first b second owner held held'
    rcases mem_insert.mp first with ⟨old, other⟩ | rfl
    · rcases mem_insert.mp second with ⟨old', _⟩ | rfl
      · exact sound.alone a old b old' owner held held'
      · exact absurd held (free owner held' a old other)
    · rcases mem_insert.mp second with ⟨old', other'⟩ | rfl
      · exact absurd held' (free owner held b old' other')
      · rfl
  · rw [same]
    exact sound.next
  · rw [same]
    exact ids

theorem remove (sound : SoundStore store) (questId : JsString) :
    SoundStore (removeLiveQuest store questId) ∧
      (removeLiveQuest store questId).nextQuestNumber = store.nextQuestNumber := by
  have inside {quest : Quest} (kept : quest ∈ (removeLiveQuest store questId).quests) :
      quest ∈ store.quests := (List.mem_filter.mp kept).1
  have same : (removeLiveQuest store questId).nextQuestNumber = store.nextQuestNumber :=
    Nat.max_eq_left (computeNextQuestNumber_le sound.next fun quest kept =>
      sound.numbered quest (inside kept))
  refine ⟨⟨fun quest kept => sound.normal quest (inside kept), sound.sorted.filter _,
    sound.distinct.sublist (List.filter_sublist.map _),
    fun quest kept => sound.active quest (inside kept),
    fun a first b second => sound.alone a (inside first) b (inside second), ?_, ?_⟩, same⟩
  · rw [same]
    exact sound.next
  · rw [same]
    exact fun quest kept => sound.numbered quest (inside kept)

theorem skip (sound : SoundStore store) {n : Nat} (above : store.nextQuestNumber ≤ n) :
    SoundStore { store with nextQuestNumber := n } where
  normal := sound.normal
  sorted := sound.sorted
  distinct := sound.distinct
  active := sound.active
  alone := sound.alone
  next := Nat.le_trans sound.next above
  numbered quest inside := by
    obtain ⟨m, low, high, id⟩ := sound.numbered quest inside
    exact ⟨m, low, Nat.lt_of_lt_of_le high above, id⟩

theorem read_passed {patch : QuestPatchInput} {passed : Option Quest} (sound : SoundStore store)
    (admitted : keepsOwners store (.patchQuest questId patch passed) = true) :
    ((passed.filter fun quest => quest.questId = questId).or (getLiveQuestById store questId)).map
      stripDerivedQuestRelationships = getLiveQuestById store questId := by
  refine sound.readable.read_passed ?_
  cases passed with
  | none => rfl
  | some quest => exact admitted

theorem free_of_keepsOwners {input : QuestTransitionInput} {owner : QuestOwnerRef}
    (sound : SoundStore store)
    (admitted : keepsOwners store (.transitionQuest questId input) = true)
    (read : getLiveQuestById store questId = some current) (started : input.status = .inProgress)
    (requested : requestedQuestOwner current input = .ok owner) :
    ∀ other ∈ store.quests, other.questId ≠ current.questId → getQuestOwner other ≠ some owner := by
  intro other inside distinct held
  simp only [keepsOwners, read, Option.all_some, requested, started, ne_eq, not_true_eq_false,
    decide_false, Bool.false_or, LiveQuestStore.free, List.all_eq_true] at admitted
  rw [(of_getLiveQuestById read).2] at distinct
  have taken := admitted other inside
  have running := sound.active other inside owner held
  simp [distinct, running, held] at taken

theorem free_of_claim {input : QuestTransitionInput} {owner : QuestOwnerRef}
    {leaderSessionId : Option JsString} {options : QuestClaimOptions} (sound : SoundStore store)
    (stored : current ∈ store.quests)
    (claimed : buildQuestClaimTransitionInput getName current owner leaderSessionId options
      (store.quests.find? fun quest =>
        quest.status = .inProgress && sameQuestOwner (getQuestOwner quest) (some owner)) =
        .ok (some input)) :
    ∀ other ∈ store.quests, other.questId ≠ current.questId → getQuestOwner other ≠ some owner := by
  intro other inside distinct held
  have running := sound.active other inside owner held
  have known : (store.quests.find? fun quest => quest.status = .inProgress &&
      sameQuestOwner (getQuestOwner quest) (some owner)).isSome = true := by
    rw [List.find?_isSome]
    exact ⟨other, inside, by simp [running, held, sameQuestOwner]⟩
  obtain ⟨existing, found⟩ := Option.isSome_iff_exists.mp known
  have among := List.mem_of_find?_eq_some found
  have matched := (List.find?_some found :)
  simp only [sameQuestOwner, Bool.and_eq_true, decide_eq_true_eq] at matched
  have other' : existing.questId ≠ current.questId := by
    rw [sound.alone existing among other inside owner matched.2.2 held]
    exact distinct
  unfold buildQuestClaimTransitionInput at claimed
  simp only [found] at claimed
  generalize at' : (if current.status = .inProgress then getQuestOwner current else none) = holder
    at claimed
  split at claimed
  · rename_i owned
    simp only [sameQuestOwner, Bool.and_eq_true, decide_eq_true_eq] at owned
    rw [owned.2] at at'
    split at at'
    · exact distinct (sound.alone other inside current stored owner held at')
    · cases at'
  · obtain ⟨_, _, claimed⟩ := bind_eq_ok.mp claimed
    rw [Option.filter_some, if_pos (by simpa using other')] at claimed
    cases claimed

end SoundStore

theorem claimingQuestOwner_normal {sessionId : JsString} {options : QuestClaimOptions}
    {owner : QuestOwnerRef} (claiming : claimingQuestOwner sessionId options = .ok owner) :
    normalizeQuestOwnerRef owner = some owner := by
  unfold claimingQuestOwner at claiming
  split at claiming
  · rename_i named
    obtain rfl := Except.ok.inj claiming
    exact normalizeQuestOwnerRef_normalizes named
  · cases claiming

/-! ## Calls -/

/-- What one call does with a sound store; the ids are those that it gives out. -/
inductive StoreChange (store : LiveQuestStore) : List JsString → LiveQuestStore → Prop
  | same : StoreChange store [] store
  | edit {current next : Quest} (stored : current ∈ store.quests) (follows : Follows current next)
      (free : ∀ owner, getQuestOwner next = some owner → ∀ other ∈ store.quests,
        other.questId ≠ next.questId → getQuestOwner other ≠ some owner) :
      StoreChange store [] (store.insert next)
  | create {next : Quest} (normal : NormalQuest next)
      (id : next.questId = questIdOf store.nextQuestNumber) (unowned : getQuestOwner next = none) :
      StoreChange store [questIdOf store.nextQuestNumber]
        (LiveQuestStore.insert { store with nextQuestNumber := store.nextQuestNumber + 1 } next)
  | remove (questId : JsString) : StoreChange store [] (removeLiveQuest store questId)

namespace StoreChange

variable {mutation : Mutation} {draft : Quest}

theorem free_of_alone (sound : SoundStore store) (stored : current ∈ store.quests)
    (questId : next.questId = current.questId) (same : getQuestOwner next = getQuestOwner current)
    (owner : QuestOwnerRef) (held : getQuestOwner next = some owner) :
    ∀ other ∈ store.quests, other.questId ≠ next.questId → getQuestOwner other ≠ some owner := by
  intro other inside distinct held'
  rw [same] at held
  exact distinct ((sound.alone other inside current stored owner held' held).trans questId.symm)

theorem follows_self (sound : SoundStore store) (stored : current ∈ store.quests) :
    Follows current current :=
  ⟨sound.normal current stored, rfl, sound.active current stored, fun _ held => held.symm⟩

theorem of_edit (sound : SoundStore store) (clock : 0 < now) (stored : current ∈ store.quests)
    (same : SameOwnership current draft) (edited : Mutation.edit now store draft = .ok mutation) :
    StoreChange store [] (mutation.store.getD store) := by
  obtain ⟨store', upserted, edited⟩ := bind_eq_ok.mp edited
  obtain ⟨result, _, edited⟩ := bind_eq_ok.mp edited
  obtain rfl := pure_eq_ok.mp edited
  obtain ⟨next, normalized, rfl⟩ := upsertLiveQuest_eq_ok upserted
  obtain ⟨follows, owner⟩ := same.follows clock (sound.normal current stored)
    (sound.active current stored) normalized
  exact .edit stored follows (free_of_alone sound stored follows.questId owner)

theorem of_upsert (normal : NormalQuest quest)
    (upserted : Mutation.upsert now store quest = .ok mutation) :
    mutation = { store := some (store.insert quest), result := .quest (some quest) } := by
  obtain ⟨store', inserted, same⟩ := bind_eq_ok.mp upserted
  obtain rfl := pure_eq_ok.mp same
  obtain ⟨next, normalized, rfl⟩ := upsertLiveQuest_eq_ok inserted
  obtain rfl := Except.ok.inj ((normal.normalize now).symm.trans normalized)
  rfl

theorem of_transition {input : QuestTransitionInput} (sound : SoundStore store) (clock : 0 < now)
    (stored : current ∈ store.quests)
    (built : buildTransitionedQuest current input true now = .ok quest)
    (free : ∀ owner, input.status = .inProgress → requestedQuestOwner current input = .ok owner →
      ∀ other ∈ store.quests, other.questId ≠ current.questId → getQuestOwner other ≠ some owner)
    (upserted : Mutation.upsert now store quest = .ok mutation) :
    StoreChange store [] (mutation.store.getD store) := by
  rcases transition_follows clock built with rfl | ⟨follows, requested⟩
  · rw [of_upsert (sound.normal quest stored) upserted]
    exact .edit stored (follows_self sound stored) (free_of_alone sound stored rfl rfl)
  · rw [of_upsert follows.normal upserted]
    refine .edit stored follows fun owner held => ?_
    obtain ⟨started, asked⟩ := requested owner held
    rw [follows.questId]
    exact free owner started asked

theorem requestedQuestOwner_of_claim {input : QuestTransitionInput} {nextOwner owner : QuestOwnerRef}
    (valid : normalizeQuestOwnerRef nextOwner = some nextOwner)
    (session : input.sessionId = some nextOwner.sessionId)
    (kind : input.ownerKind = (activeQuestOwnerFields nextOwner).2)
    (requested : requestedQuestOwner current input = .ok owner) : owner = nextOwner := by
  obtain ⟨provider, sessionId⟩ := nextOwner
  obtain ⟨_, named⟩ := normalizeQuestOwnerRef_eq_some.mp valid
  have full : (filled (some sessionId)).isSome = true := by
    obtain ⟨_, full⟩ := nonempty_eq_some.mp named
    simpa [filled] using full
  cases provider with
  | takode =>
    simp [requestedQuestOwner, session, kind, activeQuestOwnerFields, full, normalizeQuestOwnerRef,
      named] at requested
    split at requested
    · cases requested
    · exact (Except.ok.inj requested).symm
  | codex =>
    simp [requestedQuestOwner, session, kind, activeQuestOwnerFields, full, normalizeQuestOwnerRef,
      named] at requested
    split at requested
    · cases requested
    · exact (Except.ok.inj requested).symm

theorem of_mutate (sound : SoundStore store) (clock : 0 < now)
    (admitted : keepsOwners store request = true)
    (mutated : request.mutate getName now store = .ok mutation) :
    StoreChange store (StoreRun.givenId request mutation.result) (mutation.store.getD store) := by
  cases request with
  | createQuest input =>
    obtain ⟨quest, built, upserted⟩ := bind_eq_ok.mp mutated
    obtain ⟨normal, id, unowned⟩ := creation_unowned clock built
    rw [Nat.max_eq_left sound.computeNext_le] at id
    rw [Nat.max_eq_left sound.computeNext_le, extractQuestNumber_questIdOf] at upserted
    rw [of_upsert normal upserted]
    show StoreChange store [quest.questId] _
    rw [id]
    exact .create normal id unowned
  | patchQuest questId patch passed =>
    rcases Mutation.onQuest_eq_ok.mp mutated with ⟨_, rfl⟩ | ⟨current, read, mutated⟩
    · exact .same
    · obtain ⟨draft, patched, edited⟩ := bind_eq_ok.mp mutated
      rw [sound.read_passed admitted] at read
      exact of_edit sound clock (of_getLiveQuestById read).1 (patch_sameOwnership patched) edited
  | patchQuestForOwner questId owner patch =>
    rcases Mutation.onQuest_eq_ok.mp mutated with ⟨_, rfl⟩ | ⟨current, read, mutated⟩
    · exact .same
    · rw [sound.readable.read_stored] at read
      obtain ⟨_, _, mutated⟩ := bind_eq_ok.mp mutated
      obtain ⟨_, _, mutated⟩ := bind_eq_ok.mp mutated
      split at mutated
      · obtain ⟨_, _, mutated⟩ := bind_eq_ok.mp mutated
        obtain rfl := pure_eq_ok.mp mutated
        exact .same
      · obtain ⟨draft, patched, edited⟩ := bind_eq_ok.mp mutated
        exact of_edit sound clock (of_getLiveQuestById read).1 (patch_sameOwnership patched) edited
  | appendQuestFeedback questId entry lastModifiedBy =>
    rcases Mutation.onQuest_eq_ok.mp mutated with ⟨_, rfl⟩ | ⟨current, read, mutated⟩
    · exact .same
    · rw [sound.readable.read_stored] at read
      obtain ⟨draft, patched, edited⟩ := bind_eq_ok.mp mutated
      exact of_edit sound clock (of_getLiveQuestById read).1 (patch_sameOwnership patched) edited
  | appendQuestCodeCommitEvidenceForOwner questId owner commitShas delivery =>
    rcases Mutation.onQuest_eq_ok.mp mutated with ⟨_, rfl⟩ | ⟨current, read, mutated⟩
    · exact .same
    · rw [sound.readable.read_stored] at read
      obtain ⟨_, _, mutated⟩ := bind_eq_ok.mp mutated
      obtain ⟨_, _, mutated⟩ := bind_eq_ok.mp mutated
      obtain ⟨updated, appended, mutated⟩ := bind_eq_ok.mp mutated
      cases updated with
      | none =>
        obtain rfl := pure_eq_ok.mp mutated
        exact .same
      | some draft =>
        exact of_edit sound clock (of_getLiveQuestById read).1 (evidence_sameOwnership appended) mutated
  | transitionQuest questId input =>
    rcases Mutation.onQuest_eq_ok.mp mutated with ⟨_, rfl⟩ | ⟨current, read, mutated⟩
    · exact .same
    · obtain ⟨quest, built, upserted⟩ := bind_eq_ok.mp mutated
      obtain ⟨stored, named⟩ := of_getLiveQuestById read
      have change := of_transition sound clock stored built
        (fun owner started requested => sound.free_of_keepsOwners admitted read started requested)
        upserted
      obtain ⟨store', _, same⟩ := bind_eq_ok.mp upserted
      obtain rfl := pure_eq_ok.mp same
      exact change
  | claimQuest questId sessionId options =>
    rcases Mutation.onQuest_eq_ok.mp mutated with ⟨_, rfl⟩ | ⟨current, read, mutated⟩
    · exact .same
    · obtain ⟨nextOwner, claiming, mutated⟩ := bind_eq_ok.mp mutated
      obtain ⟨input, claimed, mutated⟩ := bind_eq_ok.mp mutated
      obtain ⟨stored, named⟩ := of_getLiveQuestById read
      cases input with
      | none =>
        obtain rfl := pure_eq_ok.mp mutated
        exact .same
      | some input =>
        obtain ⟨quest, built, upserted⟩ := bind_eq_ok.mp mutated
        have valid := claimingQuestOwner_normal claiming
        obtain ⟨_, session, kind, _⟩ := claim_input claimed
        refine of_transition sound clock stored built (fun owner _ requested => ?_) upserted
        obtain rfl := requestedQuestOwner_of_claim valid session kind requested
        exact sound.free_of_claim stored claimed
  | cancelQuest questId notes provenance =>
    rcases Mutation.onQuest_eq_ok.mp mutated with ⟨_, rfl⟩ | ⟨current, read, mutated⟩
    · exact .same
    · obtain ⟨quest, built, upserted⟩ := bind_eq_ok.mp mutated
      obtain ⟨follows, unowned⟩ := cancellation_follows clock built
      rw [of_upsert follows.normal upserted]
      refine .edit (of_getLiveQuestById read).1 follows fun owner held => ?_
      rw [unowned] at held
      cases held
  | deleteQuest questId =>
    rcases Mutation.onQuest_eq_ok.mp mutated with ⟨_, rfl⟩ | ⟨current, read, mutated⟩
    · exact .same
    · obtain rfl := Except.ok.inj mutated
      exact .remove questId

end StoreChange

/-- A change keeps the store sound and gives out the ids that follow. -/
theorem StoreChange.sound {ids : List JsString} (sound : SoundStore store)
    (change : StoreChange store ids store') :
    SoundStore store' ∧ store'.nextQuestNumber = store.nextQuestNumber + ids.length ∧
      ids = (List.range' store.nextQuestNumber ids.length).map questIdOf := by
  cases change with
  | same => exact ⟨sound, rfl, rfl⟩
  | edit stored follows free =>
    have numbered := sound.numbered _ stored
    rw [← follows.questId] at numbered
    obtain ⟨sound', same⟩ := sound.insert follows.normal follows.active free numbered
    exact ⟨sound', same, rfl⟩
  | create normal id unowned =>
    have above := Nat.le_succ store.nextQuestNumber
    obtain ⟨sound', same⟩ := (sound.skip above).insert normal
      (fun owner held => by rw [unowned] at held; cases held)
      (fun owner held => by rw [unowned] at held; cases held)
      ⟨store.nextQuestNumber, sound.next, Nat.lt_succ_self _, id⟩
    exact ⟨sound', same, rfl⟩
  | remove questId =>
    obtain ⟨sound', same⟩ := sound.remove questId
    exact ⟨sound', same, rfl⟩

/-- Owners of a quest are not forgotten in a change. -/
theorem StoreChange.kept {ids : List JsString} {owner : QuestOwnerRef}
    (change : StoreChange store ids store') (stored : next ∈ store'.quests)
    (old : next.questId ∉ ids) : ∃ current ∈ store.quests, current.questId = next.questId ∧
      ((getQuestOwner current = some owner ∨ owner ∈ getPreviousQuestOwners current) →
        owner ∈ getPreviousQuestOwners next ∨ getQuestOwner next = some owner) := by
  cases change with
  | same => exact ⟨next, stored, rfl, Or.symm⟩
  | edit before follows free =>
    rcases mem_insert.mp stored with ⟨other, _⟩ | rfl
    · exact ⟨next, other, rfl, Or.symm⟩
    · exact ⟨_, before, follows.questId.symm, follows.kept owner⟩
  | create normal id unowned =>
    rcases mem_insert.mp stored with ⟨other, _⟩ | rfl
    · exact ⟨next, other, rfl, Or.symm⟩
    · exact absurd (List.mem_singleton.mpr id) old
  | remove questId => exact ⟨next, (List.mem_filter.mp stored).1, rfl, Or.symm⟩

theorem StoreChange.of_perform {outcome : Outcome} (sound : SoundStore store) (clock : 0 < now)
    (admitted : keepsOwners store request = true)
    (performed : request.perform getName now store = .ok (store', outcome)) :
    StoreChange store (StoreRun.givenId request outcome) store' := by
  obtain ⟨_, _, performed⟩ := bind_eq_ok.mp performed
  obtain ⟨mutation, mutated, performed⟩ := bind_eq_ok.mp performed
  have change := StoreChange.of_mutate sound clock admitted mutated
  cases returned : mutation.store with
  | some store'' =>
    rw [returned] at performed
    rw [returned, Option.getD_some] at change
    obtain ⟨wrote, written, performed⟩ := bind_eq_ok.mp performed
    cases pure_eq_ok.mp performed
    rw [(change.sound sound).1.readable.write now store] at written
    exact Except.ok.inj written ▸ change
  | none =>
    rw [returned] at performed
    rw [returned, Option.getD_none] at change
    cases pure_eq_ok.mp performed
    exact change

/-! ## Every run -/

/-- What holds in every state of a run that meets the condition. -/
structure OwnersKept (s : StoreRun) : Prop where
  sound : SoundStore s.store
  given : s.given = (List.range' 1 (s.store.nextQuestNumber - 1)).map questIdOf
  numbered : ∀ earlier ∈ s.history, ∀ quest ∈ earlier.quests,
    ∃ n, 1 ≤ n ∧ n < s.store.nextQuestNumber ∧ quest.questId = questIdOf n
  held : ∀ earlier ∈ s.history, ∀ old ∈ earlier.quests, ∀ owner, getQuestOwner old = some owner →
    ∀ quest ∈ s.store.quests, quest.questId = old.questId →
      owner ∈ getPreviousQuestOwners quest ∨ getQuestOwner quest = some owner

theorem questIdOf_injective : Function.Injective questIdOf := fun _ _ same =>
  decimal_injective (List.append_cancel_left same)

theorem OwnersKept.advance {s : StoreRun} {ids : List JsString} (inv : OwnersKept s)
    (change : StoreChange s.store ids store') : OwnersKept (s.advance store' ids) := by
  obtain ⟨sound, next, named⟩ := change.sound inv.sound
  have above : s.store.nextQuestNumber ≤ store'.nextQuestNumber := by omega
  refine ⟨sound, ?_, ?_, ?_⟩
  · show s.given ++ ids = (List.range' 1 (store'.nextQuestNumber - 1)).map questIdOf
    have first := inv.sound.next
    have split : store'.nextQuestNumber - 1 = (s.store.nextQuestNumber - 1) + ids.length := by omega
    have from' : 1 + (s.store.nextQuestNumber - 1) = s.store.nextQuestNumber := by omega
    rw [split, ← List.range'_append_1, List.map_append, ← inv.given, from', ← named]
  · intro earlier inside quest stored
    rcases List.mem_append.mp inside with old | new
    · obtain ⟨n, low, high, id⟩ := inv.numbered earlier old quest stored
      exact ⟨n, low, Nat.lt_of_lt_of_le high above, id⟩
    · obtain rfl := List.mem_singleton.mp new
      exact sound.numbered quest stored
  · intro earlier inside old stored owner held quest now' same
    rcases List.mem_append.mp inside with past | new
    · have known : quest.questId ∉ ids := by
        rw [same, named]
        obtain ⟨n, _, high, id⟩ := inv.numbered earlier past old stored
        intro given
        obtain ⟨m, among, id'⟩ := List.mem_map.mp given
        obtain rfl := questIdOf_injective (id'.trans id)
        exact absurd (List.mem_range'_1.mp among).1 (Nat.not_le_of_lt high)
      obtain ⟨current, before, id, kept⟩ := change.kept now' known
      refine kept (Or.symm ?_)
      exact inv.held earlier past old stored owner held current before (id.trans same)
    · obtain rfl := List.mem_singleton.mp new
      have one : quest = old := List.inj_on_of_nodup_map sound.distinct now' stored same
      exact .inr (one ▸ held)

theorem ownersKept {s : StoreRun}
    (reached : (questStore getName).Reaches (fun s event => event.keepsOwners s = true) s) :
    OwnersKept s := by
  induction reached with
  | start =>
    refine ⟨SoundStore.empty, rfl, ?_, ?_⟩
    · intro earlier inside quest stored
      obtain rfl := List.mem_singleton.mp inside
      cases stored
    · intro earlier inside old stored
      obtain rfl := List.mem_singleton.mp inside
      cases stored
  | @step s event t _ admitted taken inv =>
    cases event with
    | call request now =>
      simp only [questStore, StoreRun.step] at taken
      split at taken
      · rename_i clock
        cases performed : request.perform getName now s.store with
        | error e =>
          rw [performed] at taken
          exact Option.some.inj taken ▸ inv
        | ok result =>
          rw [performed] at taken
          obtain rfl := Option.some.inj taken
          exact inv.advance (StoreChange.of_perform inv.sound clock admitted performed)
      · cases taken
    | restart now =>
      simp only [questStore, StoreRun.step] at taken
      split at taken
      · rw [inv.sound.readable.restart now] at taken
        obtain rfl := Option.some.inj taken
        exact inv.advance .same
      · cases taken

/-- The past owners of a record, in both of its fields. -/
structure PastOwners (quest : Quest) : Prop where
  distinct : (getPreviousQuestOwners quest).Nodup
  past : ∀ owner, getQuestOwner quest = some owner → owner ∉ getPreviousQuestOwners quest
  fields : (quest.previousOwnerSessionIds, quest.previousOwners) =
    previousQuestOwnerFields (getPreviousQuestOwners quest) quest.previousOwners.isSome

/-- In every state of a run that meets the condition: no id is given out twice, and each quest has
one that was; owners have one quest in progress at most; past owners are complete; and a restart
leaves the store as it is. -/
theorem quest_ownership_sound {s : StoreRun}
    (reached : (questStore getName).Reaches (fun s event => event.keepsOwners s = true) s) :
    s.given.Nodup ∧ (s.store.quests.map (·.questId)).Nodup ∧
    (∀ earlier ∈ s.history, ∀ quest ∈ earlier.quests, quest.questId ∈ s.given) ∧
    (∀ a ∈ s.store.quests, ∀ b ∈ s.store.quests, ∀ owner, a.status = .inProgress →
      b.status = .inProgress → getQuestOwner a = some owner → getQuestOwner b = some owner → a = b) ∧
    (∀ quest ∈ s.store.quests, PastOwners quest) ∧
    (∀ earlier ∈ s.history, ∀ old ∈ earlier.quests, ∀ owner, getQuestOwner old = some owner →
      ∀ quest ∈ s.store.quests, quest.questId = old.questId →
        owner ∈ getPreviousQuestOwners quest ∨ getQuestOwner quest = some owner) ∧
    ∀ now, normalizeLiveQuestStore now s.store = .ok s.store := by
  have inv := ownersKept reached
  refine ⟨?_, inv.sound.distinct, ?_, ?_, ?_, inv.held, inv.sound.readable.restart⟩
  · rw [inv.given]
    exact (List.nodup_range' _).map questIdOf_injective
  · intro earlier inside quest stored
    obtain ⟨n, low, high, id⟩ := inv.numbered earlier inside quest stored
    rw [inv.given, id]
    refine List.mem_map_of_mem (List.mem_range'_1.mpr ⟨low, ?_⟩)
    omega
  · intro a first b second owner _ _ held held'
    exact List.inj_on_of_nodup_map inv.sound.distinct first second
      (inv.sound.alone a first b second owner held held')
  · intro quest stored
    have ownership := (inv.sound.normal quest stored).ownership
    exact ⟨(getPreviousQuestOwners_normal quest).distinct, ownership.past, ownership.previous⟩

/-- Two quests that are created as refined. -/
def twoQuests : List StoreEvent :=
  [.call (.createQuest { title := js "A", status := some .refined, description := some (js "a") }) 1,
    .call (.createQuest { title := js "B", status := some .refined, description := some (js "b") }) 2]

/-- A session claims the first quest and the second one is moved to `in_progress` for it. -/
def claimedTwice : List StoreEvent := twoQuests ++
  [.call (.claimQuest (js "q-1") (js "s-1") {}) 3,
    .call (.transitionQuest (js "q-2") { status := .inProgress, sessionId := some (js "s-1") }) 4]

/-- The session has two quests in progress. -/
theorem second_quest_claimed : ∃ s, (questStore fun _ => none).Reachable s ∧
    ∃ a ∈ s.store.quests, ∃ b ∈ s.store.quests, a.questId ≠ b.questId ∧
      a.status = .inProgress ∧ b.status = .inProgress ∧
      getQuestOwner a = some ⟨.takode, js "s-1"⟩ ∧ getQuestOwner b = some ⟨.takode, js "s-1"⟩ := by
  obtain ⟨s, reached, found⟩ := (questStore fun _ => none).exists_reaches_of_run (fun _ _ => true)
    (fun s => ∃ a ∈ s.store.quests, ∃ b ∈ s.store.quests, a.questId ≠ b.questId ∧
      a.status = .inProgress ∧ b.status = .inProgress ∧
      getQuestOwner a = some ⟨.takode, js "s-1"⟩ ∧ getQuestOwner b = some ⟨.takode, js "s-1"⟩)
    claimedTwice (by decide +kernel)
  exact ⟨s, reached.reachable, found⟩

/-- A quest is claimed, completed and taken up again by another session. -/
def takenOver : List StoreEvent := twoQuests ++
  [.call (.claimQuest (js "q-1") (js "s-1") {}) 3,
    .call (.completeQuest (js "q-1") [] { status := .done }) 4,
    .restart 5,
    .call (.transitionQuest (js "q-1") { status := .inProgress, sessionId := some (js "s-2") }) 6,
    .call (.deleteQuest (js "q-2")) 7]

theorem takenOver_sound : ∃ s : StoreRun, s.history.length = 8 ∧ (s.store.quests.map (·.questId)).Nodup ∧
    ∀ now, normalizeLiveQuestStore now s.store = .ok s.store := by
  obtain ⟨s, reached, ran⟩ := (questStore fun _ => none).exists_reaches_of_run
    (fun s event => event.keepsOwners s) (fun s => s.history.length = 8) takenOver (by decide +kernel)
  obtain ⟨_, distinct, _, _, _, _, restart⟩ := quest_ownership_sound reached
  exact ⟨s, ran, distinct, restart⟩

end Takode.Quests
