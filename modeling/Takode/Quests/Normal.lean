import Takode.Quests.Normalizing

/-!
# Normal quests

What a normalizer gives, it leaves as it is, and so does `normalizeLiveQuest`: a record
is written and read any number of times without a change.
-/

namespace Takode.Quests

open JsString

theorem listed_eq_some {α : Type} {list list' : List α} :
    listed list = some list' ↔ list = list' ∧ list' ≠ [] := by
  cases list with
  | nil => exact ⟨fun absent => (by cases absent), fun ⟨same, other⟩ => absurd same.symm other⟩
  | cons a rest => exact ⟨fun same => by cases same; exact ⟨rfl, List.cons_ne_nil a rest⟩,
      fun ⟨same, _⟩ => by rw [← same]; rfl⟩

@[simp] theorem getD_listed {α : Type} (list : List α) : (listed list).getD [] = list := by
  cases list <;> rfl

theorem nonempty_normalizes : Normalizes nonempty := fun _ _ found => nonempty_of_nonempty found

/-! ## Commits -/

theorem normalizeCommitSha_stable {item sha : JsString} (found : normalizeCommitSha item = .ok sha) :
    normalizeCommitSha sha = .ok sha := by
  unfold normalizeCommitSha at found
  simp only at found
  split at found
  · rename_i valid
    obtain rfl := Except.ok.inj found
    unfold normalizeCommitSha
    simp only [trim_toLowerCase, trim_trim, toLowerCase_toLowerCase, valid, if_true]
  · cases found

/-- Lists that `normalizeCommitShas` gives. -/
def NormalCommitShas (shas : List JsString) : Prop :=
  shas.Nodup ∧ ∀ sha ∈ shas, normalizeCommitSha sha = .ok sha

theorem normal_of_normalizeCommitShas {items shas : List JsString}
    (found : normalizeCommitShas items = .ok shas) : NormalCommitShas shas := by
  obtain ⟨each, mapped, found⟩ := bind_eq_ok.mp found
  obtain rfl := pure_eq_ok.mp found
  refine ⟨nodup_eraseDups each, fun sha inside => ?_⟩
  obtain ⟨item, _, given⟩ := exists_of_mapM mapped sha (List.mem_eraseDups.mp inside)
  exact normalizeCommitSha_stable given

theorem NormalCommitShas.normalize {shas : List JsString} (normal : NormalCommitShas shas) :
    normalizeCommitShas shas = .ok shas := by
  unfold normalizeCommitShas
  rw [mapM_eq_self normal.2]
  exact congrArg Except.ok (eraseDups_of_nodup normal.1)

theorem commitShaList_normalizes : Normalizes commitShaList := by
  intro value shas found
  have given : normalizeCommitShas value = .ok shas := by
    unfold commitShaList at found
    cases normalized : normalizeCommitShas value with
    | error e => simp [normalized, Except.toOption] at found
    | ok shas' => simpa [normalized, Except.toOption] using found
  unfold commitShaList
  rw [(normal_of_normalizeCommitShas given).normalize]
  rfl

theorem fullCommitSha_normalizes : Normalizes fullCommitSha := by
  intro value sha found
  unfold fullCommitSha at found
  simp only at found
  split at found
  · rename_i valid
    obtain rfl := Option.some.inj found
    unfold fullCommitSha
    simp only [trim_toLowerCase, trim_trim, toLowerCase_toLowerCase, valid, if_true]
  · cases found

/-! ## Audit events -/

theorem bind_nonempty_bind (value : Option JsString) :
    (value.bind nonempty).bind nonempty = value.bind nonempty :=
  nonempty_normalizes.bind_bind value

theorem normalizeOwnershipEvent_normalizes : Normalizes normalizeOwnershipEvent := by
  intro value event found
  simp only [normalizeOwnershipEvent, Option.bind_eq_bind, Option.bind_eq_some_iff] at found
  obtain ⟨actor, hactor, owner, howner, next, hnext, reason, hreason, _, dated, same⟩ := found
  obtain rfl := Option.some.inj same
  simp [normalizeOwnershipEvent, nonempty_normalizes hactor, nonempty_normalizes howner,
    nonempty_normalizes hnext, nonempty_normalizes hreason, dated, bind_nonempty_bind]

theorem stringList_stringList (raw : List JsString) :
    stringList (stringList raw) = stringList raw :=
  nonempty_normalizes.filterMap_filterMap raw

theorem normalizeBoardRow_normalizes : Normalizes normalizeBoardRow := by
  intro row row' found
  simp only [normalizeBoardRow, Option.bind_eq_bind, Option.bind_eq_some_iff] at found
  obtain ⟨leader, hleader, same⟩ := found
  obtain rfl := Option.some.inj same
  simp [normalizeBoardRow, nonempty_normalizes hleader, bind_nonempty_bind, Option.map_map,
    Function.comp_def, stringList_stringList]

theorem normalizeWorkerState_normalizes : Normalizes normalizeWorkerState := by
  intro value value' found
  simp only [normalizeWorkerState, Option.bind_eq_bind, Option.bind_eq_some_iff] at found
  obtain ⟨sessionId, hsession, same⟩ := found
  obtain rfl := Option.some.inj same
  simp [normalizeWorkerState, nonempty_normalizes hsession]

theorem normalizeQuestRecoveryEvent_normalizes : Normalizes normalizeQuestRecoveryEvent := by
  intro value event found
  simp only [normalizeQuestRecoveryEvent, Option.bind_eq_bind, Option.bind_eq_some_iff] at found
  obtain ⟨actor, hactor, reason, hreason, _, dated, checks, hchecks, same⟩ := found
  obtain rfl := Option.some.inj same
  obtain ⟨rfl, _⟩ := listed_eq_some.mp hchecks
  simp only [normalizeQuestRecoveryEvent, nonempty_normalizes hactor, nonempty_normalizes hreason,
    dated, hchecks, bind_nonempty_bind, stringList_stringList, Option.bind_eq_bind, Option.bind_some,
    normalizeBoardRow_normalizes.filterMap_filterMap value.boardRows,
    normalizeWorkerState_normalizes.bind_bind value.workerState]
  rfl

theorem normalizeQuestCodeCommitEvidenceReplacementEvent_normalizes :
    Normalizes normalizeQuestCodeCommitEvidenceReplacementEvent := by
  intro value event found
  simp only [normalizeQuestCodeCommitEvidenceReplacementEvent, Option.bind_eq_bind,
    Option.bind_eq_some_iff] at found
  obtain ⟨actor, hactor, reason, hreason, _, short, run, hrun, phase, hphase, branch, hbranch, head,
    hhead, _, dated, previous, hprevious, replacement, hreplacement, _, bounds, same⟩ := found
  obtain rfl := Option.some.inj same
  simp only [normalizeQuestCodeCommitEvidenceReplacementEvent, nonempty_normalizes hactor,
    nonempty_normalizes hreason, short, nonempty_normalizes hrun, nonempty_normalizes hphase,
    nonempty_normalizes hbranch, fullCommitSha_normalizes hhead, dated,
    commitShaList_normalizes hprevious, commitShaList_normalizes hreplacement, bounds,
    Option.bind_eq_bind, Option.bind_some]
  rfl

/-! ## Quiz items and relationships -/

theorem isSpace_of_isDigit {c : UInt16} (digit : isDigit c = true) : isSpace c = false := by
  have bounds : 48 ≤ c.toNat ∧ c.toNat ≤ 57 := by
    simpa [isDigit, UInt16.le_iff_toNat_le] using digit
  obtain ⟨low, high⟩ := bounds
  rw [← UInt16.ofNat_toNat (x := c)]
  generalize c.toNat = n at low high
  interval_cases n <;> rfl

theorem lower_of_isDigit {c : UInt16} (digit : isDigit c = true) : lower c = c := by
  have bounds : 48 ≤ c.toNat ∧ c.toNat ≤ 57 := by
    simpa [isDigit, UInt16.le_iff_toNat_le] using digit
  rcases lower_cases c with ⟨low, _⟩ | same
  · omega
  · exact same

theorem nonempty_append_decimal (word : JsString) (plain : ∀ c ∈ word, isSpace c = false) (n : Nat) :
    (word ++ decimal n).nonempty = some (word ++ decimal n) := by
  refine nonempty_eq_some.mpr ⟨trim_of_not_space fun c inside => ?_, ?_⟩
  · rcases List.mem_append.mp inside with inside | inside
    · exact plain c inside
    · exact isSpace_of_isDigit (isDigit_of_mem_decimal inside)
  · exact List.append_ne_nil_of_right_ne_nil word (decimal_ne_nil n)

theorem normalizeQuizItemId_stable (value : JsString) (index : Nat) :
    normalizeQuizItemId (normalizeQuizItemId value index) index = normalizeQuizItemId value index := by
  unfold normalizeQuizItemId
  cases found : value.nonempty with
  | some id => rw [Option.getD_some, nonempty_normalizes found, Option.getD_some]
  | none => rw [Option.getD_none, nonempty_append_decimal _ (forall_mem_of_all (by decide)),
      Option.getD_some]

theorem normalizeQuizItemsFrom_stable {index : Nat} {items items' : List QuestQuizItem}
    (found : normalizeQuizItemsFrom index items = .ok items') :
    normalizeQuizItemsFrom index items' = .ok items' := by
  induction items generalizing index items' with
  | nil =>
    cases found
    rfl
  | cons item rest ih =>
    unfold normalizeQuizItemsFrom at found
    simp only at found
    cases asked : item.question.nonempty with
    | none => simp [asked] at found
    | some question =>
      cases answered : item.answer.nonempty with
      | none => simp [asked, answered] at found
      | some answer =>
        simp only [asked, answered] at found
        obtain ⟨rest', later, found⟩ := bind_eq_ok.mp found
        obtain rfl := pure_eq_ok.mp found
        unfold normalizeQuizItemsFrom
        simp only [nonempty_normalizes asked, nonempty_normalizes answered, ih later,
          normalizeQuizItemId_stable, bind_nonempty_bind]
        rfl

theorem normalizeQuestQuizItems_stable {value value' : Option (List QuestQuizItem)}
    (found : normalizeQuestQuizItems value = .ok value') :
    normalizeQuestQuizItems value' = .ok value' := by
  cases value with
  | none =>
    cases found
    rfl
  | some items =>
    obtain ⟨items', normalized, found⟩ := bind_eq_ok.mp found
    obtain rfl := pure_eq_ok.mp found
    cases items' with
    | nil => rfl
    | cons item rest =>
      show (normalizeQuizItemsFrom 0 (item :: rest)).bind _ = _
      rw [normalizeQuizItemsFrom_stable normalized]
      rfl

theorem questIdDigits_questIdOf (n : Nat) : questIdDigits (questIdOf n) = some (decimal n) := by
  have digits : (questIdOf n).drop 2 = decimal n := rfl
  have filled : (decimal n).isEmpty = false := by
    simpa using decimal_ne_nil n
  have all : (decimal n).all isDigit = true :=
    List.all_eq_true.mpr fun c inside => isDigit_of_mem_decimal inside
  have start : startsWith (questIdOf n) (js "q-") = true := by simp [startsWith, questIdOf, js]
  simp [questIdDigits, start, digits, filled, all]

theorem toLowerCase_questIdOf (n : Nat) : toLowerCase (questIdOf n) = questIdOf n := by
  have digits : (decimal n).map lower = decimal n :=
    (List.map_congr_left fun c inside => lower_of_isDigit (isDigit_of_mem_decimal inside)).trans
      (List.map_id _)
  rw [toLowerCase, questIdOf, List.map_append, digits]
  rfl

theorem normalizeQuestRelationshipId_questIdOf (n : Nat) :
    normalizeQuestRelationshipId (questIdOf n) = some (questIdOf n) := by
  have whole : trim (questIdOf n) = questIdOf n :=
    (nonempty_eq_some.mp (nonempty_append_decimal (js "q-") (forall_mem_of_all (by decide)) n)).1
  rw [normalizeQuestRelationshipId, whole, toLowerCase_questIdOf, questIdDigits_questIdOf,
    Option.map_some, digitsValue_decimal]

theorem normalizeQuestRelationshipId_normalizes : Normalizes normalizeQuestRelationshipId := by
  intro value id found
  obtain ⟨digits, _, rfl⟩ := Option.map_eq_some_iff.mp found
  exact normalizeQuestRelationshipId_questIdOf (digitsValue digits)

theorem normalizeQuestIdList_stable (values : List JsString) (ownQuestId : JsString) :
    normalizeQuestIdList (normalizeQuestIdList values ownQuestId) ownQuestId =
      normalizeQuestIdList values ownQuestId := by
  have inside (id : JsString) (found : id ∈ normalizeQuestIdList values ownQuestId) :
      normalizeQuestRelationshipId id = some id ∧ (!sameQuestId id ownQuestId) = true := by
    unfold normalizeQuestIdList at found
    rw [List.mem_insertionSort, List.mem_eraseDups, List.mem_filter] at found
    exact ⟨normalizeQuestRelationshipId_normalizes.of_mem found.1, found.2⟩
  have distinct : (normalizeQuestIdList values ownQuestId).Nodup :=
    (List.perm_insertionSort _ _).nodup_iff.mpr (nodup_eraseDups _)
  have sorted : (normalizeQuestIdList values ownQuestId).Pairwise
      fun left right => questIdNumber left ≤ questIdNumber right :=
    List.pairwise_insertionSort _ _
  generalize normalizeQuestIdList values ownQuestId = ids at inside distinct sorted
  unfold normalizeQuestIdList
  rw [filterMap_eq_self fun id found => (inside id found).1,
    List.filter_eq_self.mpr fun id found => (inside id found).2, eraseDups_of_nodup distinct]
  exact sorted.insertionSort_eq

theorem normalizeStartedFrom_normalizes : Normalizes normalizeStartedFrom := by
  intro value value' found
  simp only [normalizeStartedFrom, Option.bind_eq_bind, Option.bind_eq_some_iff] at found
  obtain ⟨session, hsession, message, hmessage, thread, hthread, same⟩ := found
  obtain rfl := Option.some.inj same
  have lowered : (toLowerCase thread).nonempty = some (toLowerCase thread) := by
    obtain ⟨trimmed, filled⟩ := nonempty_eq_some.mp (nonempty_normalizes hthread)
    refine nonempty_eq_some.mpr ⟨?_, ?_⟩
    · rw [trim_toLowerCase, trimmed]
    · simpa [toLowerCase] using filled
  simp [normalizeStartedFrom, nonempty_normalizes hsession, nonempty_normalizes hmessage, lowered]

theorem normalizeQuestRelationships_stable (value : Option QuestRelationships)
    (ownQuestId : JsString) :
    normalizeQuestRelationships (normalizeQuestRelationships value ownQuestId) ownQuestId =
      normalizeQuestRelationships value ownQuestId := by
  cases value with
  | none => rfl
  | some raw =>
    unfold normalizeQuestRelationships
    rw [Option.bind_some]
    simp only
    split
    · rfl
    · rename_i filled
      rw [Option.bind_some]
      simp only [getD_listed, normalizeQuestIdList_stable,
        normalizeStartedFrom_normalizes.bind_bind, if_neg filled]

end Takode.Quests
