import Takode.Todos.Keeping

/-!
# Taking back a completion

A completion gives the ranks that its section had. As long as the rest of the section has the ranks
that the completion left, these are different again when the item comes back.
-/

namespace Takode.Todos

open JsString

/-- What an undo relies on, which a completion makes so. -/
structure TodoCompletionUndoSnapshot.Sound (snapshot : TodoCompletionUndoSnapshot) : Prop where
  ids : (snapshot.previous.sectionRanks.map (·.id)).Nodup
  ranks : (snapshot.previous.sectionRanks.map (·.rank)).Nodup
  own : ⟨snapshot.itemId, snapshot.previous.rank⟩ ∈ snapshot.previous.sectionRanks
  covers : ∀ entry ∈ snapshot.completed.activeSectionRanks,
    entry.id ∈ snapshot.previous.sectionRanks.map (·.id)
  unarchived : snapshot.completed.archivedAt = none

section Completion

variable {locale : Locale} {state next : TodoState} {itemId : JsString}
variable {provenance : TodoMutationProvenance} {place : JsString × Place}

theorem Drafted.sectionItems_ids {loose : Set (JsString × Place)} (drafted : Drafted loose state) :
    ((sectionItems locale state place).map (·.id)).Nodup := by
  have kept := (List.filter_sublist (p := fun item => orderSection item = place)
    (l := state.items)).map (·.id)
  exact ((List.perm_insertionSort _ _).map _).nodup_iff.mpr (kept.nodup drafted.distinct)

theorem Kept.sectionRanks_ids (kept : Kept locale state) :
    ((sectionRanks locale state place).map (·.id)).Nodup := by
  rw [sectionRanks, List.map_map]
  exact kept.items.sectionItems_ids

theorem Kept.sectionRanks_ranks (kept : Kept locale state) :
    ((sectionRanks locale state place).map (·.rank)).Nodup := by
  rw [sectionRanks, List.map_map]
  refine List.Nodup.map_on (fun a inside b inside' same => ?_) kept.items.sectionItems_ids.of_map
  obtain ⟨listed, here⟩ := (mem_sectionItems locale).mp inside
  obtain ⟨listed', here'⟩ := (mem_sectionItems locale).mp inside'
  exact kept.items.eq_of_id listed listed' (kept.items.ranked a listed b listed'
    (here.trans here'.symm) (Set.notMem_empty _) same)

theorem Kept.setItemStatusInState_items (kept : Kept locale state)
    {statusValue : Option JsonValue}
    (done : Todos.setItemStatusInState locale state itemId statusValue provenance = .ok next) :
    ∀ item ∈ next.items, ∃ old ∈ state.items, old.id = item.id ∧ old.archivedAt = item.archivedAt ∧
      (item.id ≠ itemId → orderSection old = orderSection item) := by
  simp only [Todos.setItemStatusInState, bind_eq_ok] at done
  obtain ⟨before, found, status, -, done⟩ := done
  obtain ⟨inside, rfl⟩ := itemById_eq_ok found
  split at done
  · cases done
    exact fun item listed => ⟨item, listed, rfl, rfl, fun _ => rfl⟩
  · simp only [bind_eq_ok] at done
    obtain ⟨settled, resettled, done⟩ := done
    cases done
    have sound := kept.items.sound before inside
    obtain ⟨-, rank, rfl⟩ := kept.items.resettle inside rfl rfl ⟨sound.id, by split <;> simp [*],
      sound.archived, sound.live, ⟨sound.stored.id, sound.stored.category, sound.stored.markdown,
        sound.stored.due, sound.stored.questIds⟩⟩ resettled
    intro item recorded
    obtain ⟨_, ranked, rfl⟩ := List.mem_map.mp recorded
    obtain ⟨_, changed, rfl⟩ := List.mem_map.mp ranked
    obtain ⟨old, listed, rfl⟩ := List.mem_map.mp changed
    refine ⟨old, listed, ?_⟩
    by_cases mine : old.id = before.id
    · simp [mine]
    · simp [mine, orderSection]

theorem Kept.snapshot_sound (kept : Kept locale state) {statusValue : Option JsonValue}
    {snapshot : TodoCompletionUndoSnapshot}
    (done : Todos.setItemStatusWithCompletionUndo locale state itemId statusValue provenance =
      .ok (next, some snapshot)) : snapshot.Sound := by
  simp only [Todos.setItemStatusWithCompletionUndo, bind_eq_ok] at done
  obtain ⟨before, found, status, -, changed, completed, item, there, done⟩ := done
  obtain ⟨inside, rfl⟩ := itemById_eq_ok found
  split at done
  · rename_i completedAt possible _
    cases done
    simp only [Bool.and_eq_true, decide_eq_true_eq, Bool.not_eq_true'] at possible
    obtain ⟨-, unarchived⟩ := possible
    have own : ⟨before.id, before.rank⟩ ∈ sectionRanks locale state (orderSection before) :=
      List.mem_map.mpr ⟨before, (mem_sectionItems locale).mpr ⟨inside, rfl⟩, rfl⟩
    refine ⟨kept.sectionRanks_ids, kept.sectionRanks_ranks, own, fun entry listed => ?_, ?_⟩
    · obtain ⟨left, sectioned, rfl⟩ := List.mem_map.mp listed
      obtain ⟨listed, here⟩ := (mem_sectionItems locale).mp sectioned
      obtain ⟨old, old', id, -, stays⟩ := kept.setItemStatusInState_items completed left listed
      show left.id ∈ (sectionRanks locale state (orderSection before)).map (·.id)
      by_cases mine : left.id = before.id
      · rw [mine]
        exact List.mem_map_of_mem (f := TodoRankSnapshot.id) own
      · rw [← id]
        refine List.mem_map_of_mem (f := TodoRankSnapshot.id) (a := ⟨old.id, old.rank⟩) ?_
        exact List.mem_map.mpr
          ⟨old, (mem_sectionItems locale).mpr ⟨old', (stays mine).trans here⟩, rfl⟩
    · obtain ⟨listed, same⟩ := itemById_eq_ok there
      obtain ⟨old, old', id, archived, -⟩ := kept.setItemStatusInState_items completed item listed
      obtain rfl := kept.items.eq_of_id old' inside (id.trans same)
      have none := (isTime_eq_false (kept.items.sound old inside).archived).mp unarchived
      show item.archivedAt.filter _ = Option.none
      rw [← archived, none]
      rfl
  · cases done

theorem Kept.setItemStatusWithCompletionUndo (kept : Kept locale state)
    {statusValue : Option JsonValue} {undo : Option TodoCompletionUndoSnapshot}
    (done : setItemStatusWithCompletionUndo locale state itemId statusValue provenance =
      .ok (next, undo)) : Moves locale state next := by
  simp only [Todos.setItemStatusWithCompletionUndo, bind_eq_ok] at done
  obtain ⟨before, -, status, -, changed, completed, item, -, done⟩ := done
  have moves := kept.setItemStatusInState completed
  split at done <;> (cases done; exact moves)

end Completion

section Undo

variable {locale : Locale} {state next : TodoState} {place : JsString × Place}
variable {provenance : TodoMutationProvenance}

/-- The rank that an item gets back, and the one that another item keeps. -/
def previousRank (ranks : List TodoRankSnapshot) (item : TodoItem) : ℚ :=
  ((ranks.find? fun previous => previous.id = item.id).map (·.rank)).getD item.rank

theorem previousRank_of_mem {ranks : List TodoRankSnapshot} {entry : TodoRankSnapshot}
    {item : TodoItem} (distinct : (ranks.map (·.id)).Nodup) (inside : entry ∈ ranks)
    (same : entry.id = item.id) : previousRank ranks item = entry.rank := by
  have there : (ranks.find? fun previous => previous.id = item.id).isSome = true :=
    List.find?_isSome.mpr ⟨entry, inside, decide_eq_true same⟩
  obtain ⟨found, first⟩ := Option.isSome_iff_exists.mp there
  have id : found.id = item.id := of_decide_eq_true (List.find?_some first :)
  obtain rfl := List.inj_on_of_nodup_map distinct (List.mem_of_find?_eq_some first) inside
    (id.trans same.symm)
  rw [previousRank, first, Option.map_some, Option.getD_some]

theorem previousRank_of_notMem {ranks : List TodoRankSnapshot} {item : TodoItem}
    (outside : item.id ∉ ranks.map (·.id)) : previousRank ranks item = item.rank := by
  have none : (ranks.find? fun previous => previous.id = item.id) = none := by
    rw [List.find?_eq_none]
    intro entry inside same
    exact outside (of_decide_eq_true same ▸ List.mem_map_of_mem inside)
  rw [previousRank, none, Option.map_none, Option.getD_none]

/-- The loop gives each item its rank, and has found every item in the section. -/
theorem restoreRanks_eq_ok : ∀ {ranks : List TodoRankSnapshot} {state : TodoState},
    (ranks.map (·.id)).Nodup → restoreRanks place state ranks = .ok next →
      next = state.rerank (previousRank ranks) ∧
        ∀ entry ∈ ranks, ∃ item ∈ state.items, item.id = entry.id ∧ orderSection item = place
  | [], state, _, done => by
    cases done
    exact ⟨by simp [TodoState.rerank, previousRank], fun _ none => (by cases none)⟩
  | first :: rest, state, distinct, done => by
    rw [List.map_cons, List.nodup_cons] at distinct
    simp only [restoreRanks, bind_eq_ok, refuse_eq_ok, exists_const] at done
    obtain ⟨item, found, here, done⟩ := done
    obtain ⟨inside, id⟩ := itemById_eq_ok found
    have here : orderSection item = place := by simpa using here
    obtain ⟨same, others⟩ := restoreRanks_eq_ok distinct.2 done
    constructor
    · rw [same]
      unfold TodoState.rerank TodoState.updateItem
      rw [List.map_map]
      congr 1
      refine List.map_congr_left fun other _ => ?_
      by_cases mine : other.id = first.id
      · have absent : other.id ∉ rest.map (·.id) := mine ▸ distinct.1
        have old : previousRank rest { other with rank := first.rank } = first.rank :=
          previousRank_of_notMem absent
        simp only [Function.comp_apply, if_pos mine, old]
        simp [previousRank, mine]
      · have different : first.id ≠ other.id := Ne.symm mine
        simp [previousRank, mine, different]
    · intro entry listed
      rcases List.mem_cons.mp listed with rfl | later
      · exact ⟨item, inside, id, here⟩
      · obtain ⟨updated, there, id, here⟩ := others entry later
        obtain ⟨old, listed, rfl⟩ := List.mem_map.mp there
        by_cases mine : old.id = first.id
        · rw [if_pos mine] at id here
          exact ⟨old, listed, id, here⟩
        · rw [if_neg mine] at id here
          exact ⟨old, listed, id, here⟩

theorem Kept.undoItemCompletion (kept : Kept locale state) {snapshot : TodoCompletionUndoSnapshot}
    (sound : snapshot.Sound)
    (done : undoItemCompletion locale state snapshot provenance = .ok next) :
    Moves locale state next := by
  simp only [Todos.undoItemCompletion, bind_eq_ok, refuse_eq_ok, exists_and_left, exists_const,
    pure_eq_ok] at done
  obtain ⟨item, found, unchanged, active, category, live, restored, restoring, rfl⟩ := done
  obtain ⟨inside, same⟩ := itemById_eq_ok found
  have archived : item.archivedAt = none := by
    have whole : item.archivedAt = snapshot.completed.archivedAt := by
      simpa using (Bool.or_eq_false_iff.mp unchanged).2
    rw [whole, sound.unarchived]
  have active : sectionRanks locale state (snapshot.previous.categoryId, .active) =
      snapshot.completed.activeSectionRanks := by
    simpa using active
  set change : TodoItem → TodoItem := fun item =>
    { item with
      status := snapshot.previous.status
      categoryId := snapshot.previous.categoryId
      statusChangedAt := provenance.at_
      updatedAt := provenance.at_
      lastModifiedBy := provenance.json
      completedAt := none } with changes
  have open' : snapshot.previous.status ≠ .done := by
    unfold PreviousSnapshot.status
    split <;> simp
  have place : orderSection (change item) = (snapshot.previous.categoryId, .active) := by
    simp [orderSection, changes, archived, isTime, open']
  have old := kept.items.sound item inside
  obtain ⟨known, unarchived⟩ := kept.live live
  have updated : Drafted (insert (orderSection (change item)) ∅)
      (state.updateItem item.id change) := by
    refine kept.items.updateItem inside rfl ⟨old.id, ?_, old.archived, fun _ => unarchived,
      ⟨old.stored.id, known, old.stored.markdown, old.stored.due, old.stored.questIds⟩⟩
      (.inl (Set.mem_insert _ _)) (Set.empty_subset _)
    exact ⟨fun none => (by cases none), fun closed => absurd closed open'⟩
  have there := TodoState.change_mem_updateItem change inside
  have own : ⟨item.id, snapshot.previous.rank⟩ ∈ snapshot.previous.sectionRanks :=
    same ▸ sound.own
  rw [← same] at restoring ⊢
  obtain ⟨rfl, places⟩ := restoreRanks_eq_ok sound.ids restoring
  -- The items of the section are those of the snapshot, and their ranks those that it holds.
  have entry_of {other : TodoItem} (listed : other ∈ (state.updateItem item.id change).items)
      (here : orderSection other = orderSection (change item)) :
      ∃ entry ∈ snapshot.previous.sectionRanks, entry.id = other.id ∧
        previousRank snapshot.previous.sectionRanks other = entry.rank := by
    have named : other.id ∈ snapshot.previous.sectionRanks.map (·.id) := by
      rcases kept.items.mem_updateItem inside listed with rfl | ⟨listed, _⟩
      · exact List.mem_map.mpr ⟨_, own, rfl⟩
      · refine sound.covers ⟨other.id, other.rank⟩ ?_
        rw [← active]
        exact List.mem_map.mpr
          ⟨other, (mem_sectionItems locale).mpr ⟨listed, here.trans place⟩, rfl⟩
    obtain ⟨entry, inside', id⟩ := List.mem_map.mp named
    exact ⟨entry, inside', id, previousRank_of_mem sound.ids inside' id⟩
  have kept_rank {other : TodoItem} (listed : other ∈ (state.updateItem item.id change).items)
      (elsewhere : orderSection other ≠ orderSection (change item)) :
      previousRank snapshot.previous.sectionRanks other = other.rank := by
    refine previousRank_of_notMem fun named => ?_
    obtain ⟨entry, inside', id⟩ := List.mem_map.mp named
    obtain ⟨found, listed', id', here⟩ := places entry inside'
    obtain rfl := updated.eq_of_id listed' listed (id'.trans id)
    exact elsewhere here
  have ordered : Drafted ∅ ((state.updateItem item.id change).rerank
      (previousRank snapshot.previous.sectionRanks)) := by
    refine updated.rerank fun a listed b listed' same _ equal => ?_
    by_cases here : orderSection a = orderSection (change item)
    · obtain ⟨entry, inside', id, rank⟩ := entry_of listed here
      obtain ⟨entry', inside'', id', rank'⟩ := entry_of listed' (same ▸ here)
      rw [rank, rank'] at equal
      rw [← id, ← id', List.inj_on_of_nodup_map sound.ranks inside' inside'' equal]
    · rw [kept_rank listed here, kept_rank listed' (same ▸ here)] at equal
      exact updated.ranked a listed b listed' same
        (fun loose => here (loose.resolve_right (Set.notMem_empty _))) equal
  have rank : previousRank snapshot.previous.sectionRanks (change item) = snapshot.previous.rank :=
    previousRank_of_mem sound.ids own rfl
  have there' := TodoState.mem_rerank (previousRank snapshot.previous.sectionRanks) there
  have final := @Drafted.updateItem _ ∅ ∅ _
    (fun item => { item with rank := snapshot.previous.rank }) ordered there' rfl
      ((ordered.sound _ there').rerank _) (.inr ⟨rfl, rank.symm⟩) subset_rfl
  exact .inr ⟨kept.of_items (final.touchState _) rfl rfl, rfl⟩

end Undo

end Takode.Todos
