import Takode.Todos.Numbering
import Takode.Todos.Restart

/-!
# Completions that can be taken back

Each change records what it does to an item, or only gives the item another rank, which among the
completed items of a category is no higher one. So an item that is as its completion left it was not
changed since.
-/

namespace Takode.Todos

open JsString

section Drafts

variable {locale : Locale} {state next : TodoState} {place there : JsString × Place}
variable {id : JsString} {change : TodoItem → TodoItem}

theorem updateItem_ids (keeps : ∀ item : TodoItem, (change item).id = item.id) :
    (state.updateItem id change).items.map (·.id) = state.items.map (·.id) := by
  rw [TodoState.updateItem, List.map_map]
  refine List.map_congr_left fun item _ => ?_
  by_cases same : item.id = id
  · simp [same, keeps]
  · simp [same]

theorem rankItems_ids (ordered : List TodoItem) :
    (state.rankItems ordered).items.map (·.id) = state.items.map (·.id) := by
  rw [TodoState.rankItems_eq, TodoState.rerank, List.map_map]
  rfl

theorem updateItem_lowered (keeps : ∀ item : TodoItem, (change item).id = item.id) :
    Lowered place id state.items (state.updateItem id change).items := by
  intro item inside
  refine ⟨_, List.mem_map.mpr ⟨item, inside, rfl⟩, ?_, ?_⟩
  · by_cases same : item.id = id
    · simp [same, keeps]
    · simp [same]
  · intro other
    simp [other]

theorem mem_updateItem_of_ne {item : TodoItem} (keeps : ∀ item : TodoItem, (change item).id = item.id)
    (inside : item ∈ (state.updateItem id change).items) (other : item.id ≠ id) :
    item ∈ state.items := by
  obtain ⟨old, listed, rfl⟩ := List.mem_map.mp inside
  by_cases same : old.id = id
  · rw [if_pos same, keeps] at other
    exact absurd same other
  · rwa [if_neg same]

theorem numberedBut_updateItem (numbered : NumberedBut place none state.items)
    (keeps : ∀ item : TodoItem, (change item).id = item.id) :
    NumberedBut place (some id) (state.updateItem id change).items := by
  have old {item : TodoItem} (inside : item ∈ (state.updateItem id change).items)
      (other : some item.id ≠ some id) : item ∈ state.items :=
    mem_updateItem_of_ne keeps inside fun same => other (congrArg some same)
  have weaker := numbered.weaken (some id)
  constructor
  · intro item inside here other
    exact weaker.steps item (old inside other) here other
  · intro a inside b inside' here here' other other'
    exact weaker.distinct a (old inside other) b (old inside' other') here here' other other'

theorem numbered_updateItem (numbered : NumberedBut place none state.items)
    (keeps : ∀ item : TodoItem, (change item).id = item.id)
    (stays : ∀ item ∈ state.items, item.id = id →
      orderSection (change item) = orderSection item ∧ (change item).rank = item.rank) :
    NumberedBut place none (state.updateItem id change).items := by
  have old {item : TodoItem} (inside : item ∈ (state.updateItem id change).items) :
      ∃ before ∈ state.items, before.id = item.id ∧ orderSection before = orderSection item ∧
        before.rank = item.rank := by
    obtain ⟨before, listed, rfl⟩ := List.mem_map.mp inside
    refine ⟨before, listed, ?_⟩
    by_cases same : before.id = id
    · obtain ⟨section', rank⟩ := stays before listed same
      rw [if_pos same]
      exact ⟨(keeps before).symm, section'.symm, rank.symm⟩
    · rw [if_neg same]
      exact ⟨rfl, rfl, rfl⟩
  constructor
  · intro item inside here _
    obtain ⟨before, listed, -, same, rank⟩ := old inside
    rw [← rank]
    exact numbered.steps before listed (same.trans here) (fun none => (by cases none))
  · intro a inside b inside' here here' _ _ equal
    obtain ⟨x, listed, ids, same, rank⟩ := old inside
    obtain ⟨y, listed', ids', same', rank'⟩ := old inside'
    rw [← ids, ← ids']
    refine numbered.distinct x listed y listed' (same.trans here) (same'.trans here')
      (fun none => (by cases none)) (fun none => (by cases none)) ?_
    rw [rank, rank', equal]

theorem reindexSection_lowered (distinct : (state.items.map (·.id)).Nodup)
    (numbered : NumberedBut place (some id) state.items)
    (elsewhere : ∀ item ∈ state.items, item.id = id → orderSection item ≠ there) :
    Lowered place id state.items (reindexSection locale state there).items ∧
      NumberedBut place (some id) (reindexSection locale state there).items := by
  by_cases own : there = place
  · subst own
    have whole : (sectionItems locale state there).filter (fun item => item.id ≠ id) =
        sectionItems locale state there := by
      refine List.filter_eq_self.mpr fun item listed => ?_
      obtain ⟨inside, here⟩ := (mem_sectionItems locale).mp listed
      exact decide_eq_true fun same => elsewhere item inside same here
    refine ⟨@lowered_rankItems locale _ _ _ _ [] distinct numbered (Or.inr ?_), ?_⟩
    · rw [whole, List.append_nil]
    · exact (numbered_rankItems (lists_sectionItems distinct)).weaken _
  · have outside : ∀ item ∈ state.items, orderSection item = place → item.id ≠ id →
        ∀ listed ∈ sectionItems locale state there, listed.id ≠ item.id := by
      intro item inside here _ listed among same
      obtain ⟨inside', here'⟩ := (mem_sectionItems locale).mp among
      obtain rfl := List.inj_on_of_nodup_map distinct inside' inside same
      exact own (here'.symm.trans here)
    exact ⟨@lowered_rankItems locale _ _ _ _ [] distinct numbered (Or.inl outside),
      numberedBut_rankItems numbered outside⟩

theorem placeItem_lowered {item : TodoItem} {beforeItemId afterItemId : Option JsString}
    (closed : place.2 = .done) (distinct : (state.items.map (·.id)).Nodup)
    (numbered : NumberedBut place (some item.id) state.items)
    (listed : ∃ listed ∈ state.items, listed.id = item.id ∧ orderSection listed = orderSection item)
    (placed : placeItem locale state item beforeItemId afterItemId = .ok next) :
    Lowered place item.id state.items next.items ∧ NumberedBut place none next.items := by
  -- A list of items of another section, the placed one among them.
  have elsewhere {ordered : List TodoItem} (other : orderSection item ≠ place)
      (members : ∀ listed ∈ ordered,
        listed ∈ sectionItems locale state (orderSection item) ∨ listed = item) :
      Lowered place item.id state.items (state.rankItems ordered).items ∧
        NumberedBut place none (state.rankItems ordered).items := by
    have outside : ∀ old ∈ state.items, orderSection old = place → old.id ≠ item.id →
        ∀ listed ∈ ordered, listed.id ≠ old.id := by
      intro old inside here different listed among same
      rcases members listed among with sectioned | rfl
      · obtain ⟨inside', here'⟩ := (mem_sectionItems locale).mp sectioned
        obtain rfl := List.inj_on_of_nodup_map distinct inside' inside same
        exact other (here'.symm.trans here)
      · exact different same.symm
    refine ⟨@lowered_rankItems locale _ _ _ _ [] distinct numbered (Or.inl outside), ?_⟩
    refine (numberedBut_rankItems numbered outside).whole ?_
    intro changed among same here
    rw [TodoState.rankItems_eq] at among
    obtain ⟨old, inside, rfl⟩ := List.mem_map.mp among
    obtain ⟨own, inside', same', here'⟩ := listed
    obtain rfl := List.inj_on_of_nodup_map distinct inside inside' (same.trans same'.symm)
    exact other (here'.symm.trans here)
  simp only [Todos.placeItem, bind_eq_ok, refuse_eq_ok, exists_and_left, exists_const] at placed
  obtain ⟨-, manual, placed⟩ := placed
  split at placed
  · cases placed
    by_cases own : orderSection item = place
    · subst own
      refine ⟨@lowered_rankItems locale _ _ _ _ _ distinct numbered (Or.inr rfl), ?_⟩
      refine numbered_rankItems (@lists_of_mem _ locale _ _ distinct listed fun other => ?_)
      simp
    · refine elsewhere own fun other among => ?_
      rcases List.mem_append.mp among with among | last
      · exact Or.inl (List.mem_filter.mp among).1
      · exact Or.inr (List.mem_singleton.mp last)
  · rename_i referenceId given
    have own : orderSection item ≠ place := by
      intro here
      have unarchived : isTime item.archivedAt = false ∧ item.status = .done := by
        rw [← here, orderSection] at closed
        by_cases archived : isTime item.archivedAt = true
        · simp [archived] at closed
        · simpa [archived] using closed
      have positioned : ((Todos.given beforeItemId).isSome || (Todos.given afterItemId).isSome) =
          true := by
        cases first : Todos.given beforeItemId with
        | some id => simp
        | none => simpa [first] using congrArg Option.isSome given
      simp [positioned, unarchived] at manual
    simp only [bind_eq_ok, refuse_eq_ok, exists_and_left, exists_const] at placed
    obtain ⟨-, reference, -, -, placed⟩ := placed
    split at placed
    · cases placed
    · cases placed
      refine elsewhere own fun other among => ?_
      rcases List.mem_append.mp among with front | rest
      · exact Or.inl (List.mem_filter.mp (List.mem_of_mem_take front)).1
      · rcases List.mem_cons.mp rest with rfl | rest
        · exact Or.inr rfl
        · exact Or.inl (List.mem_filter.mp (List.mem_of_mem_drop rest)).1

end Drafts

/-- What a change at a time does to the items, and to a section of completed ones. -/
structure Turn (place : JsString × Place) (at_ : ℚ) (state next : TodoState) : Prop where
  numbered : NumberedBut place none next.items
  kept : ∀ item ∈ state.items, ∃ changed ∈ next.items, changed.id = item.id ∧
    (changed.updatedAt = at_ ∨ changed = { item with rank := changed.rank } ∧
      (orderSection item = place → changed.rank ≤ item.rank))

section Turns

variable {locale : Locale} {state next : TodoState} {place : JsString × Place}
variable {provenance : TodoMutationProvenance} {itemId : JsString}

/-- What a change does to the state of which it changes one item, which it records. -/
structure Recorded (place : JsString × Place) (state next : TodoState) (id : JsString) : Prop where
  lowered : Lowered place id state.items next.items
  numbered : NumberedBut place none next.items

theorem Recorded.turn (recorded : Recorded place state next itemId) :
    Turn place provenance.at_ state (next.recordItemChange itemId provenance) := by
  constructor
  · exact numbered_updateItem recorded.numbered (fun _ => rfl) fun _ _ _ => ⟨rfl, rfl⟩
  · intro item inside
    obtain ⟨changed, listed, same, stays⟩ := recorded.lowered item inside
    refine ⟨_, List.mem_map.mpr ⟨changed, listed, rfl⟩, ?_, ?_⟩
    · by_cases mine : changed.id = itemId
      · simp [mine, ← same]
      · rw [if_neg mine]
        exact same
    · by_cases mine : changed.id = itemId
      · simp [mine]
      · rw [if_neg mine]
        exact Or.inr (stays (same ▸ mine))

theorem turn_refl (numbered : NumberedBut place none state.items) :
    Turn place provenance.at_ state state :=
  ⟨numbered, fun item inside => ⟨item, inside, rfl, Or.inr ⟨rfl, fun _ => le_rfl⟩⟩⟩

theorem edit_turn (numbered : NumberedBut place none state.items) {change : TodoItem → TodoItem}
    (keeps : ∀ item : TodoItem, (change item).id = item.id)
    (stays : ∀ item : TodoItem,
      orderSection (change item) = orderSection item ∧ (change item).rank = item.rank) :
    Turn place provenance.at_ state
      ((state.updateItem itemId change).recordItemChange itemId provenance) :=
  Recorded.turn ⟨updateItem_lowered keeps, numbered_updateItem numbered keeps fun item _ _ => stays item⟩

theorem settle_recorded {item : TodoItem} (closed : place.2 = .done)
    (distinct : (state.items.map (·.id)).Nodup) (numbered : NumberedBut place none state.items)
    (inside : item ∈ state.items) {change : TodoItem → TodoItem}
    (keeps : ∀ item : TodoItem, (change item).id = item.id)
    (rank : ∀ item : TodoItem, (change item).rank = item.rank)
    (settled : resettle locale (state.updateItem item.id change) item (change item) = .ok next) :
    Recorded place state next item.id := by
  have ids : ((state.updateItem item.id change).items.map (·.id)).Nodup := by
    rw [updateItem_ids keeps]
    exact distinct
  have out := @numberedBut_updateItem _ _ item.id _ numbered keeps
  have lowered := @updateItem_lowered state place item.id _ keeps
  have there := TodoState.change_mem_updateItem change inside
  unfold Todos.resettle at settled
  split at settled
  · rename_i left
    obtain ⟨lowered', out'⟩ := @reindexSection_lowered locale _ _ (orderSection item) _ ids out (by
        intro other listed same
        obtain rfl := List.inj_on_of_nodup_map ids listed there (same.trans (keeps item).symm)
        exact Ne.symm left)
    have ids' : ((reindexSection locale (state.updateItem item.id change)
        (orderSection item)).items.map (·.id)).Nodup := by
      rw [Todos.reindexSection, rankItems_ids]
      exact ids
    obtain ⟨ranks, reindexed⟩ :=
      reindexSection_eq locale (state.updateItem item.id change) (orderSection item)
    have there' := TodoState.mem_rerank ranks there
    rw [← reindexed] at there'
    have own : (change item).id = item.id := keeps item
    obtain ⟨lowered'', whole⟩ := @placeItem_lowered _ _ _ _ (change item) _ _ closed ids'
      (by rw [own]; exact out') ⟨_, there', rfl, rfl⟩ settled
    rw [own] at lowered''
    exact ⟨(lowered.trans lowered').trans lowered'', whole⟩
  · rename_i stays
    cases settled
    refine ⟨lowered, numbered_updateItem numbered keeps ?_⟩
    intro other listed same
    obtain rfl := List.inj_on_of_nodup_map distinct listed inside same
    exact ⟨(not_not.mp stays).symm, rank other⟩

variable (closed : place.2 = .done) (kept : Kept locale state)
variable (numbered : NumberedBut place none state.items)

include numbered in
theorem editItemInState_turn {input : TodoItemEditInput}
    (done : editItemInState state itemId input provenance = .ok next) :
    Turn place provenance.at_ state next := by
  simp only [Todos.editItemInState, bind_eq_ok] at done
  obtain ⟨item, -, markdown, -, done⟩ := done
  split at done
  · cases done
    exact turn_refl numbered
  · cases done
    exact edit_turn numbered (fun _ => rfl) fun _ => ⟨rfl, rfl⟩

include numbered in
theorem linkItemQuestsInState_turn {input : TodoItemLinkInput}
    (done : linkItemQuestsInState state itemId input provenance = .ok next) :
    Turn place provenance.at_ state next := by
  simp only [Todos.linkItemQuestsInState, bind_eq_ok] at done
  obtain ⟨item, -, ⟨addQuestIds, removeQuestIds⟩, -, done⟩ := done
  split at done
  · cases done
    exact turn_refl numbered
  · cases done
    exact edit_turn numbered (fun _ => rfl) fun _ => ⟨rfl, rfl⟩

include numbered in
theorem setItemDue_turn {dueValue : Option JsonValue}
    (done : setItemDue state itemId dueValue provenance = .ok next) :
    Turn place provenance.at_ state next := by
  simp only [Todos.setItemDue, bind_eq_ok] at done
  obtain ⟨item, -, due, -, done⟩ := done
  split at done
  · cases done
    exact turn_refl numbered
  · cases done
    exact edit_turn numbered (fun _ => rfl) fun _ => ⟨rfl, rfl⟩

include closed kept numbered in
theorem setItemStatusInState_turn {statusValue : Option JsonValue}
    (done : setItemStatusInState locale state itemId statusValue provenance = .ok next) :
    Turn place provenance.at_ state next := by
  simp only [Todos.setItemStatusInState, bind_eq_ok] at done
  obtain ⟨item, found, status, -, done⟩ := done
  obtain ⟨inside, rfl⟩ := itemById_eq_ok found
  split at done
  · cases done
    exact turn_refl numbered
  · simp only [bind_eq_ok] at done
    obtain ⟨settled, resettled, done⟩ := done
    cases done
    exact (settle_recorded closed kept.items.distinct numbered inside (fun _ => by rfl)
      (fun _ => by rfl) resettled).turn

include closed kept numbered in
theorem setItemArchivedInState_turn {archived : Bool}
    (done : setItemArchivedInState locale state itemId archived provenance = .ok next) :
    Turn place provenance.at_ state next := by
  simp only [Todos.setItemArchivedInState, bind_eq_ok] at done
  obtain ⟨item, found, done⟩ := done
  obtain ⟨inside, rfl⟩ := itemById_eq_ok found
  split at done
  · cases done
    exact turn_refl numbered
  · cases archived with
    | true =>
      simp only [Bool.not_true, Bool.false_eq_true, if_false, if_true, bind_eq_ok] at done
      obtain ⟨settled, resettled, done⟩ := done
      cases done
      exact (settle_recorded closed kept.items.distinct numbered inside (fun _ => by rfl)
        (fun _ => by rfl) resettled).turn
    | false =>
      simp only [Bool.not_false, if_true, Bool.false_eq_true, if_false, bind_eq_ok] at done
      obtain ⟨category, -, settled, resettled, done⟩ := done
      cases done
      exact (settle_recorded closed kept.items.distinct numbered inside (fun _ => by rfl)
        (fun _ => by rfl) resettled).turn

include closed kept numbered in
theorem moveItem_turn {input : TodoItemMoveInput}
    (done : moveItem locale state itemId input provenance = .ok next) :
    Turn place provenance.at_ state next := by
  simp only [Todos.moveItem, bind_eq_ok] at done
  obtain ⟨item, found, categoryId, -, placed, placing, done⟩ := done
  obtain ⟨inside, rfl⟩ := itemById_eq_ok found
  cases done
  let change (item : TodoItem) : TodoItem := { item with categoryId }
  have ids : ((state.updateItem item.id change).items.map (·.id)).Nodup := by
    rw [@updateItem_ids _ _ change fun _ => by rfl]
    exact kept.items.distinct
  have out := @numberedBut_updateItem _ _ item.id change numbered fun _ => rfl
  have lowered := @updateItem_lowered state place item.id change fun _ => rfl
  have there := TodoState.change_mem_updateItem change inside
  refine Recorded.turn ?_
  split at placing
  · rename_i left
    obtain ⟨lowered', out'⟩ := @reindexSection_lowered locale _ _ (orderSection item) _ ids out (by
        intro other listed same
        obtain rfl := List.inj_on_of_nodup_map ids listed there same
        exact Ne.symm left)
    have ids' : ((reindexSection locale (state.updateItem item.id change)
        (orderSection item)).items.map (·.id)).Nodup := by
      rw [Todos.reindexSection, rankItems_ids]
      exact ids
    obtain ⟨ranks, reindexed⟩ :=
      reindexSection_eq locale (state.updateItem item.id change) (orderSection item)
    have there' := TodoState.mem_rerank ranks there
    rw [← reindexed] at there'
    obtain ⟨lowered'', whole⟩ := @placeItem_lowered _ _ _ _ (change item) _ _ closed ids' out'
      ⟨_, there', rfl, rfl⟩ placing
    exact ⟨(lowered.trans lowered').trans lowered'', whole⟩
  · obtain ⟨lowered', whole⟩ := @placeItem_lowered _ _ _ _ (change item) _ _ closed ids out
      ⟨_, there, rfl, rfl⟩ placing
    exact ⟨lowered.trans lowered', whole⟩

include closed kept numbered in
theorem createItemInState_turn {input : TodoItemCreateInput}
    (done : createItemInState locale state input provenance = .ok next) :
    Turn place provenance.at_ state next := by
  simp only [Todos.createItemInState, bind_eq_ok, pure_eq_ok] at done
  obtain ⟨categoryId, -, status, -, due, -, markdown, -, placed, placing, rfl⟩ := done
  generalize made : (TodoItem.mk (js "td-" ++ decimal state.nextItemId) markdown 0 categoryId status
    provenance.at_ provenance.at_ provenance.at_ _ none none due provenance.json provenance.json) =
      item at placing
  have fresh : ∀ old ∈ state.items, old.id ≠ item.id := by
    intro old inside same
    obtain ⟨n, below, id⟩ := (kept.items.sound old inside).id
    have equal : decimal n = decimal state.nextItemId := by
      subst made
      exact List.append_cancel_left (id.symm.trans same)
    exact below.ne (decimal_injective equal)
  have ids : ((state.items ++ [item]).map (·.id)).Nodup := by
    rw [List.map_append, List.map_singleton, List.nodup_append_comm, List.singleton_append,
      List.nodup_cons]
    refine ⟨?_, kept.items.distinct⟩
    intro listed
    obtain ⟨old, inside, same⟩ := List.mem_map.mp listed
    exact fresh old inside same
  have out : NumberedBut place (some item.id) (state.items ++ [item]) := by
    have weaker := numbered.weaken (some item.id)
    have old {other : TodoItem} (inside : other ∈ state.items ++ [item])
        (different : some other.id ≠ some item.id) : other ∈ state.items := by
      rcases List.mem_append.mp inside with inside | last
      · exact inside
      · exact absurd (congrArg (fun item => some item.id) (List.mem_singleton.mp last)) different
    constructor
    · intro other inside here different
      exact weaker.steps other (old inside different) here different
    · intro a inside b inside' here here' different different'
      exact weaker.distinct a (old inside different) b (old inside' different') here here' different
        different'
  have there : item ∈ state.items ++ [item] := List.mem_append_right _ (List.mem_singleton_self _)
  obtain ⟨lowered, whole⟩ := @placeItem_lowered _
    { state with nextItemId := state.nextItemId + 1, items := state.items ++ [item] } _ _ _ _ _
    closed ids out ⟨item, there, rfl, rfl⟩ placing
  refine ⟨whole, ?_⟩
  intro old inside
  obtain ⟨changed, listed, same, stays⟩ := lowered old (List.mem_append_left _ inside)
  exact ⟨changed, listed, same, Or.inr (stays (fresh old inside))⟩

include closed kept numbered in
theorem undoItemCompletion_turn {snapshot : TodoCompletionUndoSnapshot} (sound : snapshot.Sound)
    (done : undoItemCompletion locale state snapshot provenance = .ok next) :
    Turn place provenance.at_ state next := by
  simp only [Todos.undoItemCompletion, bind_eq_ok, refuse_eq_ok, exists_and_left, exists_const,
    pure_eq_ok] at done
  obtain ⟨item, found, unchanged, -, category, live, restored, restoring, rfl⟩ := done
  obtain ⟨inside, same⟩ := itemById_eq_ok found
  have archived : item.archivedAt = none := by
    have whole : item.archivedAt = snapshot.completed.archivedAt := by
      simpa using (Bool.or_eq_false_iff.mp unchanged).2
    rw [whole, sound.unarchived]
  set change : TodoItem → TodoItem := fun item =>
    { item with
      status := snapshot.previous.status
      categoryId := snapshot.previous.categoryId
      statusChangedAt := provenance.at_
      updatedAt := provenance.at_
      lastModifiedBy := provenance.json
      completedAt := none } with changes
  have active : (orderSection (change item)).2 = .active := by
    have open' : snapshot.previous.status ≠ .done := by
      unfold PreviousSnapshot.status
      split <;> simp
    simp [orderSection, changes, archived, isTime, open']
  have elsewhere : orderSection (change item) ≠ place := by
    intro here
    rw [here, closed] at active
    cases active
  obtain ⟨rfl, places⟩ := restoreRanks_eq_ok sound.ids restoring
  rw [← same]
  have ids : ((state.updateItem item.id change).items.map (·.id)).Nodup := by
    rw [@updateItem_ids _ _ change fun _ => by rfl]
    exact kept.items.distinct
  -- An item of the section of completed ones has no rank to get back.
  have stays {other : TodoItem} (listed : other ∈ (state.updateItem item.id change).items)
      (here : orderSection other = place) :
      previousRank snapshot.previous.sectionRanks other = other.rank := by
    refine previousRank_of_notMem fun named => ?_
    obtain ⟨entry, inside', id⟩ := List.mem_map.mp named
    obtain ⟨found, listed', id', here'⟩ := places entry inside'
    rw [← same] at listed'
    obtain rfl := List.inj_on_of_nodup_map ids listed' listed (id'.trans id)
    exact elsewhere (here'.symm.trans here)
  have out := @numberedBut_updateItem _ _ item.id change numbered fun _ => rfl
  have whole : NumberedBut place none (state.updateItem item.id change).items := by
    refine out.whole ?_
    intro other listed mine
    obtain rfl := List.inj_on_of_nodup_map ids listed (TodoState.change_mem_updateItem change inside)
      mine
    exact elsewhere
  have reranked : NumberedBut place none ((state.updateItem item.id change).rerank
      (previousRank snapshot.previous.sectionRanks)).items := by
    constructor
    · intro other listed here _
      obtain ⟨old, among, rfl⟩ := List.mem_map.mp listed
      obtain ⟨k, rank⟩ := whole.steps old among here (fun none => (by cases none))
      exact ⟨k, (stays among here).trans rank⟩
    · intro a listed b listed' here here' _ _ equal
      obtain ⟨x, among, rfl⟩ := List.mem_map.mp listed
      obtain ⟨y, among', rfl⟩ := List.mem_map.mp listed'
      refine whole.distinct x among y among' here here' (fun none => (by cases none))
        (fun none => (by cases none)) ?_
      rw [← stays among here, ← stays among' here']
      exact equal
  have final := @numberedBut_updateItem _ _ item.id
    (fun item => { item with rank := snapshot.previous.rank }) reranked fun _ => by rfl
  constructor
  · refine final.whole ?_
    intro other listed mine
    obtain ⟨ranked, among, rfl⟩ := List.mem_map.mp listed
    obtain ⟨old, there, rfl⟩ := List.mem_map.mp among
    have mine : old.id = item.id := by
      by_cases other : old.id = item.id
      · exact other
      · simp [other] at mine
    obtain rfl := List.inj_on_of_nodup_map ids there (TodoState.change_mem_updateItem change inside)
      mine
    rw [if_pos mine]
    exact elsewhere
  · intro old inside
    by_cases mine : old.id = item.id
    · refine ⟨_, List.mem_map.mpr ⟨_, List.mem_map.mpr ⟨_, List.mem_map.mpr ⟨old, inside, rfl⟩, rfl⟩,
        rfl⟩, ?_, ?_⟩
      · simp [mine, changes]
      · simp [mine, changes]
    · have there : old ∈ (state.updateItem item.id change).items :=
        List.mem_map.mpr ⟨old, inside, if_neg mine⟩
      refine ⟨{ old with rank := previousRank snapshot.previous.sectionRanks old },
        List.mem_map.mpr ⟨_, TodoState.mem_rerank _ there, if_neg mine⟩, rfl, Or.inr ⟨rfl, ?_⟩⟩
      intro here
      exact (stays there here).le

include closed kept numbered in
theorem Change.apply_turn {change : Change} {undo : Option TodoCompletionUndoSnapshot}
    (issued : ∀ snapshot, change = .undoItemCompletion snapshot → snapshot.Sound)
    (done : change.apply locale state provenance = .ok (next, undo)) :
    Turn place provenance.at_ state next := by
  have plain {result : Except TodoStoreError TodoState}
      (turn : ∀ draft, result = .ok draft → Turn place provenance.at_ state draft)
      (done : result.map (·, none) = .ok (next, undo)) : Turn place provenance.at_ state next := by
    obtain ⟨draft, drafted, same⟩ := map_eq_ok.mp done
    cases same
    exact turn next drafted
  cases change with
  | createItem input => exact plain (fun _ => createItemInState_turn closed kept numbered) done
  | editItem itemId input => exact plain (fun _ => editItemInState_turn numbered) done
  | linkItemQuests itemId input => exact plain (fun _ => linkItemQuestsInState_turn numbered) done
  | setItemDue itemId dueValue => exact plain (fun _ => setItemDue_turn numbered) done
  | setItemStatus itemId statusValue =>
    exact plain (fun _ => setItemStatusInState_turn closed kept numbered) done
  | setItemStatusWithCompletionUndo itemId statusValue =>
    simp only [Change.apply, Todos.setItemStatusWithCompletionUndo, bind_eq_ok] at done
    obtain ⟨before, -, status, -, changed, completed, item, -, done⟩ := done
    have turn := setItemStatusInState_turn closed kept numbered completed
    split at done <;> (cases done; exact turn)
  | undoItemCompletion snapshot =>
    exact plain (fun _ => undoItemCompletion_turn closed kept numbered (issued snapshot rfl)) done
  | moveItem itemId input => exact plain (fun _ => moveItem_turn closed kept numbered) done
  | setItemArchived itemId archived =>
    exact plain (fun _ => setItemArchivedInState_turn closed kept numbered) done
  | createCategory name =>
    refine plain (fun draft made => ?_) done
    simp only [createCategoryInState, bind_eq_ok, pure_eq_ok] at made
    obtain ⟨name, -, -, -, rfl⟩ := made
    exact ⟨numbered, (turn_refl numbered).kept⟩
  | renameCategory categoryId nameValue =>
    refine plain (fun draft made => ?_) done
    simp only [Todos.renameCategory, bind_eq_ok, pure_eq_ok] at made
    obtain ⟨category, -, name, -, -, -, rfl⟩ := made
    exact ⟨numbered, (turn_refl numbered).kept⟩
  | archiveCategory categoryId =>
    refine plain (fun draft made => ?_) done
    simp only [Todos.archiveCategory, bind_eq_ok, pure_eq_ok] at made
    obtain ⟨-, -, category, -, -, -, rfl⟩ := made
    exact ⟨numbered, (turn_refl numbered).kept⟩
  | restoreCategory categoryId =>
    refine plain (fun draft made => ?_) done
    simp only [Todos.restoreCategory, bind_eq_ok] at made
    obtain ⟨category, -, made⟩ := made
    split at made
    · cases made
      exact turn_refl numbered
    · cases made
      exact ⟨numbered, (turn_refl numbered).kept⟩

end Turns

end Takode.Todos
