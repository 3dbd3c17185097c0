import Takode.Todos.Completions

/-!
# A completion taken back

An undo gives the item back its status, its category and its rank, and its section the order that it
had. It is refused where the item was changed since, or where the section is not as the completion
left it.
-/

namespace Takode.Todos

open JsString

section Completing

variable {locale : Locale} {state next : TodoState} {item : TodoItem}
variable {provenance : TodoMutationProvenance}

theorem itemById_of_mem (distinct : (state.items.map (·.id)).Nodup) (inside : item ∈ state.items) :
    state.itemById item.id = .ok item := by
  unfold TodoState.itemById
  have there : (state.items.find? fun other => other.id = item.id).isSome = true :=
    List.find?_isSome.mpr ⟨item, inside, decide_eq_true rfl⟩
  obtain ⟨found, first⟩ := Option.isSome_iff_exists.mp there
  have same : found.id = item.id := of_decide_eq_true (List.find?_some first :)
  obtain rfl := List.inj_on_of_nodup_map distinct (List.mem_of_find?_eq_some first) inside same
  rw [first]

/-- An open item, which is neither archived nor done. -/
structure Open (state : TodoState) (item : TodoItem) : Prop where
  inside : item ∈ state.items
  unarchived : item.archivedAt = none
  undone : item.status ≠ .done

theorem Open.section_eq (opened : Open state item) :
    orderSection item = (item.categoryId, .active) := by
  simp [orderSection, opened.unarchived, opened.undone, isTime]

/-- What a completion leaves, and what it returns. -/
structure Completed (locale : Locale) (state : TodoState) (item : TodoItem) (at_ : ℚ)
    (next : TodoState) (snapshot : TodoCompletionUndoSnapshot) (left : TodoItem) : Prop where
  inside : left ∈ next.items
  id : left.id = item.id
  status : left.status = .done
  categoryId : left.categoryId = item.categoryId
  archivedAt : left.archivedAt = none
  updatedAt : left.updatedAt = at_
  itemId : snapshot.itemId = item.id
  previousStatus : snapshot.previous.status = item.status
  previous : snapshot.previous = { snapshot.previous with
    categoryId := item.categoryId
    rank := item.rank
    sectionRanks := sectionRanks locale state (orderSection item) }
  completed : snapshot.completed =
    { categoryId := item.categoryId
      rank := left.rank
      updatedAt := at_
      completedAt := at_
      archivedAt := none
      activeSectionRanks := sectionRanks locale next (orderSection item) }
  completedAt : left.completedAt = some at_
  numbered : NumberedBut (item.categoryId, .done) none next.items
  others : ∀ other ∈ state.items, other.id ≠ item.id → ∃ rank, { other with rank } ∈ next.items

theorem placeItem_end (locale : Locale) (state : TodoState) (item : TodoItem) :
    placeItem locale state item none none =
      .ok (state.rankItems (((sectionItems locale state (orderSection item)).filter
        fun candidate => candidate.id ≠ item.id) ++ [item])) := rfl

/-- An open item can be completed, and the completion be taken back. -/
theorem Kept.completes (kept : Kept locale state) (opened : Open state item)
    (positive : 0 < provenance.at_) :
    ∃ next snapshot left, Todos.setItemStatusWithCompletionUndo locale state item.id
        (some (.string (js "done"))) provenance = .ok (next, some snapshot) ∧
      Completed locale state item provenance.at_ next snapshot left := by
  have found := itemById_of_mem kept.items.distinct opened.inside
  let change (item : TodoItem) : TodoItem :=
    { item with
      status := .done
      statusChangedAt := provenance.at_
      completedAt := some provenance.at_ }
  have moved : orderSection (change item) = (item.categoryId, .done) := by
    simp [orderSection, change, opened.unarchived, isTime]
  have leaves : orderSection item ≠ orderSection (change item) := by
    rw [opened.section_eq, moved]
    simp
  let draft := reindexSection locale (state.updateItem item.id change) (orderSection item)
  let placed := draft.rankItems (((sectionItems locale draft (orderSection (change item))).filter
    fun candidate => candidate.id ≠ item.id) ++ [change item])
  have settles : resettle locale (state.updateItem item.id change) item (change item) =
      .ok placed := by
    rw [resettle, if_pos leaves, placeItem_end]
  have changed : Todos.setItemStatusInState locale state item.id (some (.string (js "done")))
      provenance = .ok (placed.recordItemChange item.id provenance) := by
    have read : normalizeStatus (some (.string (js "done"))) = .ok .done := by decide +kernel
    rw [Todos.setItemStatusInState, found, read]
    show (if item.status = .done then _ else _) = _
    rw [if_neg opened.undone]
    show (resettle locale (state.updateItem item.id change) item (change item) >>= _) = _
    rw [settles]
    rfl
  let done : TodoState := placed.recordItemChange item.id provenance
  have ids : (draft.items.map (·.id)).Nodup := by
    have same : draft.items.map (·.id) = (state.updateItem item.id change).items.map (·.id) :=
      rankItems_ids _
    rw [same, @updateItem_ids _ _ change fun _ => by rfl]
    exact kept.items.distinct
  have doneIds : (done.items.map (·.id)).Nodup := by
    show ((placed.updateItem item.id _).items.map (·.id)).Nodup
    rw [updateItem_ids fun _ => by rfl, rankItems_ids]
    exact ids
  -- The item goes through the draft: changed, ranked with the others of either section, recorded.
  obtain ⟨ranks, reindexed⟩ :=
    reindexSection_eq locale (state.updateItem item.id change) (orderSection item)
  have drafted := TodoState.mem_rerank ranks (TodoState.change_mem_updateItem change opened.inside)
  rw [← reindexed] at drafted
  have ranked := TodoState.mem_rerank (listedRank
    (((sectionItems locale draft (orderSection (change item))).filter
      fun candidate => candidate.id ≠ item.id) ++ [change item])) drafted
  rw [← TodoState.rankItems_eq] at ranked
  have others : ∀ other ∈ state.items, other.id ≠ item.id →
      ∃ rank, { other with rank } ∈ done.items := by
    intro other listed different
    have updated : other ∈ (state.updateItem item.id change).items :=
      List.mem_map.mpr ⟨other, listed, if_neg different⟩
    have drafted := TodoState.mem_rerank ranks updated
    rw [← reindexed] at drafted
    have ranked := TodoState.mem_rerank (listedRank
      (((sectionItems locale draft (orderSection (change item))).filter
        fun candidate => candidate.id ≠ item.id) ++ [change item])) drafted
    rw [← TodoState.rankItems_eq] at ranked
    exact ⟨_, List.mem_map.mpr ⟨_, ranked, if_neg different⟩⟩
  obtain ⟨left, there, id, status, archivedAt, categoryId, updatedAt, completedAt⟩ :
      ∃ left ∈ done.items, left.id = item.id ∧ left.status = .done ∧ left.archivedAt = none ∧
        left.categoryId = item.categoryId ∧ left.updatedAt = provenance.at_ ∧
          left.completedAt = some provenance.at_ :=
    ⟨_, List.mem_map.mpr ⟨_, ranked, if_pos rfl⟩, rfl, rfl, opened.unarchived, rfl, rfl, rfl⟩
  have foundLeft : done.itemById item.id = .ok left := by
    rw [← id]
    exact itemById_of_mem doneIds there
  have numbered : NumberedBut (item.categoryId, .done) none done.items := by
    have lists : Lists draft (orderSection (change item))
        (((sectionItems locale draft (orderSection (change item))).filter
          fun candidate => candidate.id ≠ item.id) ++ [change item]) :=
      @lists_of_mem _ locale _ _ ids ⟨_, drafted, rfl, rfl⟩ fun other => by simp [change]
    rw [← moved]
    exact numbered_updateItem (numbered_rankItems lists) (fun _ => by rfl) fun _ _ _ => ⟨rfl, rfl⟩
  refine ⟨done, ⟨item.id, ⟨item.status = .doing, item.categoryId, item.rank,
    sectionRanks locale state (orderSection item)⟩, ⟨item.categoryId, left.rank, provenance.at_,
      provenance.at_, none, sectionRanks locale done (orderSection item)⟩⟩, left, ?_,
    ⟨there, id, status, categoryId, archivedAt, updatedAt, rfl, ?_, rfl, rfl, completedAt, numbered,
      others⟩⟩
  · have read : normalizeStatus (some (.string (js "done"))) = .ok .done := by decide +kernel
    have real : provenance.at_ ≠ 0 := positive.ne'
    have unarchived : isTime item.archivedAt = false := by rw [opened.unarchived]; rfl
    simp only [Todos.setItemStatusWithCompletionUndo, bind_eq_ok]
    refine ⟨item, found, .done, read, done, changed, left, foundLeft, ?_⟩
    have possible : (decide (TodoStatus.done = .done) && decide (item.status ≠ .done) &&
        !isTime item.archivedAt) = true := by
      simp [opened.undone, unarchived]
    have timed : (some provenance.at_).filter (· ≠ 0) = some provenance.at_ := by
      simp [Option.filter, real]
    rw [possible, completedAt, timed, categoryId, archivedAt, updatedAt]
    rfl
  · have cases' : item.status = .doing ∨ item.status = .todo := by
      cases status : item.status with
      | todo => exact Or.inr rfl
      | doing => exact Or.inl rfl
      | done => exact absurd status opened.undone
    rcases cases' with doing | todo
    · simp [PreviousSnapshot.status, doing]
    · simp [PreviousSnapshot.status, todo]

end Completing

/-! ## The mutations in between -/

section Between

variable (locale : Locale) (migrateV1State : JsonValue → Except TodoStoreError TodoState)

/-- Mutations that a store accepts, at rising times after a first one, with the states before and
after each. -/
inductive Accepted : TodoStore → ℚ → List (TodoState × TodoState) → TodoStore → Prop
  | still (store : TodoStore) (at_ : ℚ) : Accepted store at_ [] store
  | more {store mid later : TodoStore} {at_ now : ℚ} {steps : List (TodoState × TodoState)}
      {before after : TodoState} {change : Change} {provenance : TodoMutationProvenance}
      {undo : Option TodoCompletionUndoSnapshot} :
      store.state = some before → at_ < provenance.at_ →
      store.admits (.mutate change provenance now true) = true →
      store.mutate locale migrateV1State change provenance now true = (mid, .ok undo) →
      mid.state = some after → Accepted mid provenance.at_ steps later →
      Accepted store at_ ((before, after) :: steps) later

variable {locale migrateV1State} {store mid later : TodoStore} {at_ now : ℚ}
variable {before after current : TodoState} {change : Change}
variable {provenance : TodoMutationProvenance} {undo : Option TodoCompletionUndoSnapshot}
variable {steps : List (TodoState × TodoState)} {place : JsString × Place}

theorem mutate_eq_ok (loaded : store.ensureLoaded migrateV1State now = .ok before) {saves : Bool}
    (accepted : store.mutate locale migrateV1State change provenance now saves = (mid, .ok undo)) :
    ∃ draft, change.apply locale before provenance = .ok (draft, undo) ∧
      mid = ⟨some draft, some draft.json, undo.toList ++ store.issued⟩ ∧ saves = true := by
  unfold TodoStore.mutate at accepted
  rw [loaded] at accepted
  simp only at accepted
  split at accepted
  · cases accepted
  · rename_i draft returned applied
    split at accepted
    · rename_i saved
      cases accepted
      exact ⟨draft, applied, rfl, saved⟩
    · cases accepted

theorem ensureLoaded_of_state (held : store.state = some before) :
    store.ensureLoaded migrateV1State now = .ok before := by
  unfold TodoStore.ensureLoaded
  rw [held]

theorem Invariant.issued_of_admits (inv : Invariant locale store) {saves : Bool}
    (admitted : store.admits (.mutate change provenance now saves) = true) :
    ∀ snapshot, change = .undoItemCompletion snapshot → snapshot.Sound := by
  intro snapshot given
  subst given
  exact inv.issued snapshot (by simpa [TodoStore.admits] using admitted)

/-- One accepted mutation keeps the store in order. -/
theorem Invariant.accepted (inv : Invariant locale store)
    (loaded : store.ensureLoaded migrateV1State now = .ok before) (positive : 0 < provenance.at_)
    (admitted : store.admits (.mutate change provenance now true) = true)
    (accepted : store.mutate locale migrateV1State change provenance now true = (mid, .ok undo)) :
    Invariant locale mid := by
  have kept := (inv.loaded loaded).1.memory before rfl
  obtain ⟨draft, applied, rfl, -⟩ := mutate_eq_ok loaded accepted
  obtain ⟨moves, sound⟩ := kept.apply positive (inv.issued_of_admits admitted) applied
  have kept' : Kept locale draft := by
    rcases moves with rfl | ⟨kept', -⟩
    · exact kept
    · exact kept'
  refine ⟨?_, ?_, ?_⟩
  · intro state given
    cases given
    exact kept'
  · intro file saved
    cases saved
    exact ⟨draft, kept', rfl, fun loaded given => (Option.some.inj given).symm⟩
  · intro snapshot listed
    rcases List.mem_append.mp listed with new | old
    · exact sound snapshot (Option.mem_toList.mp new)
    · exact inv.issued snapshot old

/-- One accepted mutation is a turn of the state in memory. -/
theorem Invariant.turn (inv : Invariant locale store) (held : store.state = some before)
    (admitted : store.admits (.mutate change provenance now true) = true)
    (accepted : store.mutate locale migrateV1State change provenance now true = (mid, .ok undo))
    (held' : mid.state = some after) (closed : place.2 = .done)
    (numbered : NumberedBut place none before.items) : Turn place provenance.at_ before after := by
  obtain ⟨draft, applied, same, -⟩ := mutate_eq_ok (ensureLoaded_of_state held) accepted
  have drafted : draft = after := by
    rw [same] at held'
    exact Option.some.inj held'
  subst drafted
  exact Change.apply_turn closed (inv.memory before held) numbered
    (inv.issued_of_admits admitted) applied

theorem Accepted.invariant
    (accepted : Accepted locale migrateV1State store at_ steps later) (inv : Invariant locale store)
    (positive : 0 < at_) : Invariant locale later := by
  induction accepted with
  | still store at_ => exact inv
  | more held rises admitted accepted mid _ ih =>
    have positive := positive.trans rises
    exact ih (inv.accepted (ensureLoaded_of_state held) positive admitted accepted) positive

/-- An item is recorded as changed, or has no more than another rank. -/
theorem Accepted.item
    (accepted : Accepted locale migrateV1State store at_ steps later) (inv : Invariant locale store)
    (positive : 0 < at_) (held : store.state = some before) (now : later.state = some current)
    (closed : place.2 = .done) (numbered : NumberedBut place none before.items) {item : TodoItem}
    (inside : item ∈ before.items) :
    ∃ there ∈ current.items, there.id = item.id ∧ (at_ < there.updatedAt ∨
      there = { item with rank := there.rank } ∧
        (orderSection item = place → there.rank ≤ item.rank)) := by
  induction accepted generalizing before item with
  | still store at_ =>
    obtain rfl := Option.some.inj (held.symm.trans now)
    exact ⟨item, inside, rfl, Or.inr ⟨rfl, fun _ => le_rfl⟩⟩
  | more held' rises admitted accepted mid _ ih =>
    obtain rfl := Option.some.inj (held.symm.trans held')
    have positive := positive.trans rises
    have turn := inv.turn held admitted accepted mid closed numbered
    have inv := inv.accepted (ensureLoaded_of_state held) positive admitted accepted
    obtain ⟨changed, listed, same, one⟩ := turn.kept item inside
    obtain ⟨there, among, same', rest⟩ := ih inv positive mid now turn.numbered listed
    refine ⟨there, among, same'.trans same, ?_⟩
    rcases rest with late | ⟨kept, lower⟩
    · exact Or.inl (rises.trans late)
    · rcases one with late | ⟨kept', lower'⟩
      · left
        rw [kept, late]
        exact rises
      · right
        refine ⟨by rw [kept, kept'], ?_⟩
        intro here
        have here' : orderSection changed = place := by
          rw [kept']
          exact here
        exact (lower here').trans (lower' here)

/-- A completed item that some mutation has changed is not as it was. -/
theorem Accepted.changed
    (accepted : Accepted locale migrateV1State store at_ steps later) (inv : Invariant locale store)
    (positive : 0 < at_) (held : store.state = some before) (now : later.state = some current)
    (closed : place.2 = .done) (numbered : NumberedBut place none before.items) {item : TodoItem}
    (inside : item ∈ before.items) (here : orderSection item = place)
    (some_ : ∃ step ∈ steps, ∃ old ∈ step.1.items, old.id = item.id ∧ old ∉ step.2.items) :
    ∃ there ∈ current.items, there.id = item.id ∧ (at_ < there.updatedAt ∨
      there = { item with rank := there.rank } ∧ there.rank < item.rank) := by
  induction accepted generalizing before item with
  | still store at_ =>
    obtain ⟨step, none, -⟩ := some_
    exact absurd none List.not_mem_nil
  | more held' rises admitted accepted mid following ih =>
    obtain rfl := Option.some.inj (held.symm.trans held')
    have positive := positive.trans rises
    have distinct := (inv.memory _ held).items.distinct
    have turn := inv.turn held admitted accepted mid closed numbered
    have inv := inv.accepted (ensureLoaded_of_state held) positive admitted accepted
    obtain ⟨changed, listed, same, one⟩ := turn.kept item inside
    have later := following.item inv positive mid now closed turn.numbered listed
    rcases one with late | ⟨kept, lower⟩
    · -- Recorded in this mutation: what comes later records it at a later time or not at all.
      obtain ⟨there, among, same', rest⟩ := later
      refine ⟨there, among, same'.trans same, Or.inl ?_⟩
      rcases rest with later | ⟨kept, -⟩
      · exact rises.trans later
      · rw [kept, late]
        exact rises
    · have here' : orderSection changed = place := by
        rw [kept]
        exact here
      obtain ⟨step, first, old, listed', mine, gone⟩ := some_
      rcases List.mem_cons.mp first with rfl | first
      · obtain rfl := List.inj_on_of_nodup_map distinct listed' inside mine
        have less : changed.rank < old.rank := by
          refine lt_of_le_of_ne (lower here) ?_
          intro equal
          refine gone ?_
          rw [equal] at kept
          have unchanged : changed = old := kept
          rw [← unchanged]
          exact listed
        obtain ⟨there, among, same', rest⟩ := later
        refine ⟨there, among, same'.trans same, ?_⟩
        rcases rest with late | ⟨kept', lower'⟩
        · exact Or.inl (rises.trans late)
        · exact Or.inr ⟨by rw [kept', kept], (lower' here').trans_lt less⟩
      · obtain ⟨there, among, same', rest⟩ := ih inv positive mid now turn.numbered listed here'
          ⟨step, first, old, listed', mine.trans same.symm, gone⟩
        refine ⟨there, among, same'.trans same, ?_⟩
        rcases rest with late | ⟨kept', less⟩
        · exact Or.inl (rises.trans late)
        · exact Or.inr ⟨by rw [kept', kept], less.trans_le (lower here)⟩

/-- A category whose items no mutation touches has the items that it had. -/
theorem Accepted.untouched
    (accepted : Accepted locale migrateV1State store at_ steps later)
    (held : store.state = some before) (now : later.state = some current) {categoryId : JsString}
    (untouched : ∀ step ∈ steps, ∀ item : TodoItem, item.categoryId = categoryId →
      (item ∈ step.1.items ↔ item ∈ step.2.items)) :
    ∀ item : TodoItem, item.categoryId = categoryId →
      (item ∈ before.items ↔ item ∈ current.items) := by
  induction accepted generalizing before with
  | still store at_ =>
    obtain rfl := Option.some.inj (held.symm.trans now)
    exact fun item _ => Iff.rfl
  | more held' rises admitted accepted mid _ ih =>
    obtain rfl := Option.some.inj (held.symm.trans held')
    intro item here
    have one := untouched _ List.mem_cons_self item here
    have rest := ih mid now (fun step later => untouched step (List.mem_cons_of_mem _ later)) item here
    exact one.trans rest

end Between

/-! ## The undo -/

section Undo

variable {locale : Locale} {state done current final : TodoState} {item left : TodoItem}
variable {snapshot : TodoCompletionUndoSnapshot} {provenance : TodoMutationProvenance} {at_ : ℚ}
variable {place : JsString × Place}

/-- What an undo asks of the item and of its former section. -/
def Expected (locale : Locale) (current : TodoState) (snapshot : TodoCompletionUndoSnapshot)
    (item : TodoItem) : Prop :=
  item.status = .done ∧ item.categoryId = snapshot.completed.categoryId ∧
    item.rank = snapshot.completed.rank ∧ item.updatedAt = snapshot.completed.updatedAt ∧
    item.completedAt = some snapshot.completed.completedAt ∧
    item.archivedAt = snapshot.completed.archivedAt ∧
    sectionRanks locale current (snapshot.previous.categoryId, .active) =
      snapshot.completed.activeSectionRanks

theorem Kept.expected (kept : Kept locale current) (inside : item ∈ current.items)
    (id : item.id = snapshot.itemId)
    (undone : Todos.undoItemCompletion locale current snapshot provenance = .ok final) :
    Expected locale current snapshot item := by
  simp only [Todos.undoItemCompletion, bind_eq_ok, refuse_eq_ok, exists_and_left, exists_const] at undone
  obtain ⟨found, there, unchanged, active, -⟩ := undone
  obtain ⟨inside', same⟩ := itemById_eq_ok there
  obtain rfl := kept.items.eq_of_id inside' inside (same.trans id.symm)
  simpa [Expected, and_assoc] using And.intro unchanged active

theorem restoreRanks_ok : ∀ {ranks : List TodoRankSnapshot} {state : TodoState},
    (state.items.map (·.id)).Nodup →
    (∀ entry ∈ ranks, ∃ item ∈ state.items, item.id = entry.id ∧ orderSection item = place) →
      ∃ next, restoreRanks place state ranks = .ok next
  | [], state, _, _ => ⟨state, rfl⟩
  | first :: rest, state, distinct, there => by
    obtain ⟨item, inside, id, here⟩ := there first List.mem_cons_self
    have found : state.itemById first.id = .ok item := by
      rw [← id]
      exact itemById_of_mem distinct inside
    have same : refuse (orderSection item ≠ place) .conflict
        (js "The original active ordering changed after completion; refresh before reopening this item") =
        .ok () := by
      rw [refuse_eq_ok]
      simpa using here
    have distinct' : ((state.updateItem first.id fun item =>
        { item with rank := first.rank }).items.map (·.id)).Nodup := by
      rw [updateItem_ids fun _ => by rfl]
      exact distinct
    obtain ⟨next, restored⟩ := @restoreRanks_ok rest _ distinct' (by
      intro entry later
      obtain ⟨other, listed, id, here⟩ := there entry (List.mem_cons_of_mem _ later)
      refine ⟨_, List.mem_map.mpr ⟨other, listed, rfl⟩, ?_⟩
      by_cases mine : other.id = first.id
      · rw [if_pos mine]
        exact ⟨id, here⟩
      · rw [if_neg mine]
        exact ⟨id, here⟩)
    refine ⟨next, ?_⟩
    simp only [restoreRanks, bind_eq_ok]
    exact ⟨item, found, (), same, restored⟩

/-- The change that an undo makes to the item, but for the rank. -/
def reopened (snapshot : TodoCompletionUndoSnapshot) (provenance : TodoMutationProvenance)
    (item : TodoItem) : TodoItem :=
  { item with
    status := snapshot.previous.status
    categoryId := snapshot.previous.categoryId
    statusChangedAt := provenance.at_
    updatedAt := provenance.at_
    lastModifiedBy := provenance.json
    completedAt := none }

theorem reopened_section (unarchived : item.archivedAt = none) :
    orderSection (reopened snapshot provenance item) = (snapshot.previous.categoryId, .active) := by
  have open' : snapshot.previous.status ≠ .done := by
    unfold PreviousSnapshot.status
    split <;> simp
  simp [orderSection, reopened, unarchived, isTime, open']

theorem Kept.takes_back (kept : Kept locale current) (inside : item ∈ current.items)
    (id : item.id = snapshot.itemId) (expected : Expected locale current snapshot item)
    (unarchived : item.archivedAt = none) (stays : snapshot.previous.categoryId = item.categoryId)
    (covered : ∀ entry ∈ snapshot.previous.sectionRanks,
      entry.id = item.id ∨ entry.id ∈ snapshot.completed.activeSectionRanks.map (·.id)) :
    ∃ final, Todos.undoItemCompletion locale current snapshot provenance = .ok final := by
  have found : current.itemById snapshot.itemId = .ok item := by
    rw [← id]
    exact itemById_of_mem kept.items.distinct inside
  obtain ⟨status, categoryId, rank, updatedAt, completedAt, archivedAt, ranks⟩ := expected
  have sound := kept.items.sound item inside
  obtain ⟨category, live⟩ :
      ∃ category, current.categoryById snapshot.previous.categoryId false = .ok category := by
    obtain ⟨category, listed, same⟩ := List.mem_map.mp sound.stored.category
    have there : (current.categories.find? fun category =>
        category.id = snapshot.previous.categoryId).isSome = true :=
      List.find?_isSome.mpr ⟨category, listed, decide_eq_true (same.trans stays.symm)⟩
    obtain ⟨category, first⟩ := Option.isSome_iff_exists.mp there
    have listed := List.mem_of_find?_eq_some first
    have same : category.id = snapshot.previous.categoryId := of_decide_eq_true (List.find?_some first :)
    have open' := sound.live unarchived category listed (same.trans stays)
    refine ⟨category, ?_⟩
    unfold TodoState.categoryById
    rw [first]
    simp [open', isTime]
  have place := @reopened_section _ snapshot provenance unarchived
  have changed := TodoState.change_mem_updateItem (reopened snapshot provenance) inside
  obtain ⟨restored, restoring⟩ := @restoreRanks_ok (orderSection (reopened snapshot provenance item))
    snapshot.previous.sectionRanks
    (current.updateItem snapshot.itemId (reopened snapshot provenance))
    (by
      rw [updateItem_ids fun _ => by rfl]
      exact kept.items.distinct)
    (by
      intro entry listed
      rw [← id]
      by_cases mine : entry.id = item.id
      · exact ⟨_, changed, mine.symm, rfl⟩
      · have among := (covered entry listed).resolve_left mine
        rw [← ranks] at among
        obtain ⟨other, sectioned, same⟩ := List.mem_map.mp among
        obtain ⟨old, listed', here, rfl⟩ := mem_sectionRanks.mp sectioned
        have different : old.id ≠ item.id := fun equal => mine (same.symm.trans equal)
        exact ⟨old, List.mem_map.mpr ⟨old, listed', if_neg different⟩, same, here.trans place.symm⟩)
  refine ⟨(restored.updateItem snapshot.itemId fun item =>
    { item with rank := snapshot.previous.rank }).touchState provenance.at_, ?_⟩
  simp only [Todos.undoItemCompletion, bind_eq_ok, refuse_eq_ok, exists_and_left, exists_const]
  refine ⟨item, found, ?_, ?_, category, live, restored, restoring, rfl⟩
  · simp [status, categoryId, rank, updatedAt, completedAt, archivedAt]
  · simp [ranks]

/-- The item is back as it was, its section has the items and the ranks that it had, and of the
other items at most the rank is another, in that section. -/
structure Restored (locale : Locale) (state current final : TodoState) (item : TodoItem) :
    Prop where
  back : ∃ back ∈ final.items, back.id = item.id ∧ back.status = item.status ∧
    back.categoryId = item.categoryId ∧ back.rank = item.rank
  ranks : sectionRanks locale final (orderSection item) =
    sectionRanks locale state (orderSection item)
  ids : final.items.map (·.id) = current.items.map (·.id)
  others : ∀ other ∈ current.items, other.id ≠ item.id →
    ∃ rank, { other with rank } ∈ final.items ∧
      (orderSection other ≠ orderSection item → rank = other.rank)

/-- What an undo that is accepted gives back. -/
theorem Kept.restored (kept : Kept locale current)
    (opened : Open state item) (completed : Completed locale state item at_ done snapshot left)
    (sound : snapshot.Sound)
    (undone : Todos.undoItemCompletion locale current snapshot provenance = .ok final) :
    Restored locale state current final item := by
  have after : Kept locale final := by
    rcases kept.undoItemCompletion sound undone with rfl | ⟨after, -⟩
    · exact kept
    · exact after
  have itemId := completed.itemId
  have ranks : snapshot.previous.sectionRanks = sectionRanks locale state (orderSection item) := by
    rw [completed.previous]
  have rank : snapshot.previous.rank = item.rank := by rw [completed.previous]
  have categoryId : snapshot.previous.categoryId = item.categoryId := by rw [completed.previous]
  simp only [Todos.undoItemCompletion, bind_eq_ok, refuse_eq_ok, exists_and_left, exists_const,
    pure_eq_ok] at undone
  obtain ⟨found, there, unchanged, active, category, live, restored, restoring, rfl⟩ := undone
  obtain ⟨inside, same⟩ := itemById_eq_ok there
  have unarchived : found.archivedAt = none := by
    have whole : found.archivedAt = snapshot.completed.archivedAt := by
      simpa using (Bool.or_eq_false_iff.mp unchanged).2
    rw [whole, sound.unarchived]
  have active : sectionRanks locale current (snapshot.previous.categoryId, .active) =
      snapshot.completed.activeSectionRanks := by
    simpa using active
  have place : orderSection (reopened snapshot provenance found) = orderSection item := by
    rw [reopened_section unarchived, opened.section_eq, categoryId]
  obtain ⟨rfl, places⟩ := restoreRanks_eq_ok sound.ids restoring
  have places : ∀ entry ∈ snapshot.previous.sectionRanks,
      ∃ other ∈ (current.updateItem found.id (reopened snapshot provenance)).items,
        other.id = entry.id ∧ orderSection other = orderSection item := by
    intro entry listed
    obtain ⟨other, among, id, here⟩ := places entry listed
    rw [← same] at among
    exact ⟨other, among, id, here.trans place⟩
  have mine : found.id = item.id := same.trans itemId
  have ids : ((current.updateItem found.id (reopened snapshot provenance)).items.map (·.id)).Nodup := by
    rw [updateItem_ids fun _ => by rfl]
    exact kept.items.distinct
  -- Where the items of the state go.
  have back : { reopened snapshot provenance found with rank := snapshot.previous.rank } ∈
      (((current.updateItem snapshot.itemId (reopened snapshot provenance)).rerank
        (previousRank snapshot.previous.sectionRanks)).updateItem snapshot.itemId fun item =>
          { item with rank := snapshot.previous.rank }).items := by
    rw [← same]
    exact List.mem_map.mpr ⟨_, TodoState.mem_rerank _ (TodoState.change_mem_updateItem _ inside),
      if_pos rfl⟩
  have others (other : TodoItem) (listed : other ∈ current.items) (different : other.id ≠ item.id) :
      { other with rank := previousRank snapshot.previous.sectionRanks other } ∈
        (((current.updateItem snapshot.itemId (reopened snapshot provenance)).rerank
          (previousRank snapshot.previous.sectionRanks)).updateItem snapshot.itemId fun item =>
            { item with rank := snapshot.previous.rank }).items := by
    rw [itemId]
    have kept : other ∈ (current.updateItem item.id (reopened snapshot provenance)).items :=
      List.mem_map.mpr ⟨other, listed, if_neg different⟩
    exact List.mem_map.mpr ⟨_, TodoState.mem_rerank _ kept, if_neg different⟩
  constructor
  · exact ⟨_, back, mine, completed.previousStatus, categoryId, rank⟩
  · rw [← ranks]
    refine ranks_eq (pairwise_sectionRanks _ _ _) (by rw [ranks]; exact pairwise_sectionRanks _ _ _)
      after.sectionRanks_ids sound.ids sound.ranks ?_
    intro entry
    rw [mem_sectionRanks]
    constructor
    · rintro ⟨there, listed, here, rfl⟩
      obtain ⟨ranked, reranked, rfl⟩ := List.mem_map.mp listed
      obtain ⟨changed, updated, rfl⟩ := List.mem_map.mp reranked
      obtain ⟨old, among, rfl⟩ := List.mem_map.mp updated
      by_cases own : old.id = snapshot.itemId
      · simpa [own] using sound.own
      · rw [if_neg own, if_neg own] at here ⊢
        have sectioned : ⟨old.id, old.rank⟩ ∈ snapshot.completed.activeSectionRanks := by
          rw [← active, categoryId, ← opened.section_eq]
          exact mem_sectionRanks.mpr ⟨old, among, here, rfl⟩
        obtain ⟨entry, inside', id⟩ := List.mem_map.mp (sound.covers _ sectioned)
        have given := @previousRank_of_mem _ _ old sound.ids inside' id
        have whole : entry = ⟨old.id, previousRank snapshot.previous.sectionRanks old⟩ := by
          rw [given]
          exact congrArg (fun id => TodoRankSnapshot.mk id entry.rank) id
        rw [← whole]
        exact inside'
    · intro listed
      obtain ⟨other, among, id, here⟩ := places entry listed
      rcases kept.items.mem_updateItem inside among with rfl | ⟨among, different⟩
      · refine ⟨_, back, place, ?_⟩
        have own := sound.own
        rw [← same] at own
        exact List.inj_on_of_nodup_map sound.ids listed own id.symm
      · refine ⟨_, others other among fun equal => different (equal.trans mine.symm), here, ?_⟩
        rw [previousRank_of_mem sound.ids listed id.symm, id]
  · show (((current.updateItem snapshot.itemId (reopened snapshot provenance)).rerank
      (previousRank snapshot.previous.sectionRanks)).updateItem snapshot.itemId fun item =>
        { item with rank := snapshot.previous.rank }).items.map (·.id) = _
    rw [updateItem_ids fun _ => by rfl]
    have reranked : ((current.updateItem snapshot.itemId (reopened snapshot provenance)).rerank
        (previousRank snapshot.previous.sectionRanks)).items.map (·.id) =
        (current.updateItem snapshot.itemId (reopened snapshot provenance)).items.map (·.id) := by
      rw [TodoState.rerank, List.map_map]
      rfl
    rw [reranked, updateItem_ids fun _ => by rfl]
  · intro other listed different
    refine ⟨_, others other listed different, ?_⟩
    intro elsewhere
    refine previousRank_of_notMem fun named => ?_
    obtain ⟨entry, inside', id⟩ := List.mem_map.mp named
    obtain ⟨there, among, id', here⟩ := places entry inside'
    have stays : other ∈ (current.updateItem found.id (reopened snapshot provenance)).items :=
      List.mem_map.mpr ⟨other, listed, if_neg fun equal => different (equal.trans mine)⟩
    obtain rfl := List.inj_on_of_nodup_map ids among stays (id'.trans id)
    exact elsewhere here

end Undo

/-- A completed item that was not touched since, in a section that is as the completion left it, can
be taken back; what an undo gives back is what there was; and it is refused otherwise. -/
theorem completion_taken_back (locale : Locale)
    (migrateV1State : JsonValue → Except TodoStoreError TodoState) (store : TodoStore)
    (reached : (todoStore locale migrateV1State).Reaches
      (fun s event => (event.isTimed && s.admits event) = true) store)
    (now : ℚ) (state : TodoState) (loaded : store.ensureLoaded migrateV1State now = .ok state)
    (item : TodoItem) (opened : Open state item) (provenance : TodoMutationProvenance)
    (positive : 0 < provenance.at_) :
    ∃ completed snapshot next,
      store.mutate locale migrateV1State (.setItemStatusWithCompletionUndo item.id
        (some (.string (js "done")))) provenance now true = (completed, .ok (some snapshot)) ∧
      completed.state = some next ∧
      ∀ steps later current, Accepted locale migrateV1State completed provenance.at_ steps later →
        later.state = some current → ∀ provenance' now' saves,
          let answer := later.mutate locale migrateV1State (.undoItemCompletion snapshot) provenance'
            now' saves
          (∀ failure, answer.2 = .error failure → answer.1 = later) ∧
          (∀ undo, answer.2 = .ok undo →
            ∃ final, answer.1.state = some final ∧ Restored locale state current final item) ∧
          ((∃ step ∈ steps, ∃ old ∈ step.1.items, old.id = item.id ∧ old ∉ step.2.items) →
            ∃ error, answer.2 = .error (.refused error)) ∧
          ((sectionItems locale current (orderSection item)).map (·.id) ≠
              (sectionItems locale next (orderSection item)).map (·.id) →
            ∃ error, answer.2 = .error (.refused error)) ∧
          ((∀ step ∈ steps, ∀ other : TodoItem, other.categoryId = item.categoryId →
              (other ∈ step.1.items ↔ other ∈ step.2.items)) → saves = true →
            answer.2 = .ok none) := by
  have inv := invariant_of_reaches reached
  have kept := (inv.loaded loaded).1.memory state rfl
  obtain ⟨next, snapshot, left, completes, completed⟩ := kept.completes opened positive
  have sound := kept.snapshot_sound completes
  have after : Kept locale next := by
    rcases kept.setItemStatusWithCompletionUndo completes with rfl | ⟨after, -⟩
    · exact kept
    · exact after
  have accepted : store.mutate locale migrateV1State (.setItemStatusWithCompletionUndo item.id
      (some (.string (js "done")))) provenance now true =
      (⟨some next, some next.json, [snapshot] ++ store.issued⟩, .ok (some snapshot)) := by
    unfold TodoStore.mutate
    rw [loaded]
    simp only [Change.apply, completes]
    rfl
  have inv' := inv.accepted loaded positive rfl accepted
  refine ⟨_, snapshot, next, accepted, rfl, ?_⟩
  intro steps later current between held provenance' now' saves
  have inv'' := between.invariant inv' positive
  have kept' := inv''.memory current held
  have loaded' : later.ensureLoaded migrateV1State now' = .ok current := ensureLoaded_of_state held
  -- The completed item, as it is now.
  obtain ⟨there, inside, id, -⟩ :=
    between.item inv' positive rfl held rfl completed.numbered completed.inside
  have id : there.id = item.id := id.trans completed.id
  -- An undo that the state refuses is refused.
  have refused : (∀ final, Todos.undoItemCompletion locale current snapshot provenance' ≠ .ok final) →
      ∃ error, (later.mutate locale migrateV1State (.undoItemCompletion snapshot) provenance' now'
        saves).2 = .error (.refused error) := by
    intro fails
    cases result : Todos.undoItemCompletion locale current snapshot provenance' with
    | ok final => exact absurd result (fails final)
    | error error =>
      refine ⟨error, ?_⟩
      unfold TodoStore.mutate
      rw [loaded']
      simp only [Change.apply, result]
      rfl
  refine ⟨?_, ?_, ?_, ?_, ?_⟩
  · intro failure failed
    have same : ({ later with state := some current } : TodoStore) = later := by
      rw [← held]
    unfold TodoStore.mutate at failed ⊢
    rw [loaded'] at failed ⊢
    simp only at failed ⊢
    split at failed
    · exact same
    · split at failed
      · cases failed
      · rename_i unsaved
        rw [if_neg unsaved]
        exact same
  · intro undo done
    obtain ⟨draft, applied, same, -⟩ := @mutate_eq_ok _ _ _ (later.mutate locale migrateV1State
      (.undoItemCompletion snapshot) provenance' now' saves).1 _ _ _ _ _ loaded' _ (Prod.ext rfl done)
    obtain ⟨final, undone, whole⟩ := map_eq_ok.mp applied
    cases whole
    exact ⟨draft, by rw [same], kept'.restored opened completed sound undone⟩
  · rintro ⟨step, among, old, listed, mine, gone⟩
    refine refused ?_
    intro final undone
    have here : orderSection left = (item.categoryId, .done) := by
      simp [orderSection, completed.status, completed.archivedAt, completed.categoryId, isTime]
    obtain ⟨there, inside, id, changed⟩ := between.changed inv' positive rfl held rfl
      completed.numbered completed.inside here
      ⟨step, among, old, listed, mine.trans completed.id.symm, gone⟩
    have expected := kept'.expected inside (id.trans (completed.id.trans completed.itemId.symm)) undone
    obtain ⟨-, -, rank, updatedAt, -⟩ := expected
    rw [completed.completed] at rank updatedAt
    rcases changed with late | ⟨-, lower⟩
    · exact late.ne updatedAt.symm
    · exact lower.ne rank
  · intro differs
    refine refused ?_
    intro final undone
    have expected := kept'.expected inside (id.trans completed.itemId.symm) undone
    obtain ⟨-, -, -, -, -, -, ranks⟩ := expected
    rw [completed.previous, completed.completed] at ranks
    refine differs ?_
    have ids := congrArg (List.map (·.id)) ranks
    rw [← opened.section_eq, sectionRanks, sectionRanks, List.map_map, List.map_map] at ids
    exact ids
  · intro untouched saved
    have members := between.untouched rfl held untouched
    have inside' : left ∈ current.items := (members left completed.categoryId).mp completed.inside
    have place := opened.section_eq
    have ranks : sectionRanks locale current (orderSection item) =
        sectionRanks locale next (orderSection item) := by
      refine ranks_eq (pairwise_sectionRanks _ _ _) (pairwise_sectionRanks _ _ _)
        kept'.sectionRanks_ids after.sectionRanks_ids after.sectionRanks_ranks ?_
      intro entry
      rw [mem_sectionRanks, mem_sectionRanks]
      refine exists_congr fun other => ?_
      refine and_congr_left fun listed => ?_
      have here := listed.1
      rw [place] at here
      exact (members other (congrArg Prod.fst here)).symm
    have expected : Expected locale current snapshot left := by
      rw [Expected, completed.previous, completed.completed, ← place]
      exact ⟨completed.status, completed.categoryId, rfl, completed.updatedAt, completed.completedAt,
        completed.archivedAt, ranks⟩
    have stays : snapshot.previous.categoryId = left.categoryId := by
      rw [completed.previous, completed.categoryId]
    have covered : ∀ entry ∈ snapshot.previous.sectionRanks, entry.id = left.id ∨
        entry.id ∈ snapshot.completed.activeSectionRanks.map (·.id) := by
      intro entry listed
      rw [completed.previous] at listed
      obtain ⟨other, among, here, rfl⟩ := mem_sectionRanks.mp listed
      by_cases mine : other.id = item.id
      · exact Or.inl (mine.trans completed.id.symm)
      · right
        obtain ⟨rank, ranked⟩ := completed.others other among mine
        rw [completed.completed]
        exact List.mem_map.mpr ⟨_, mem_sectionRanks.mpr ⟨_, ranked, here, rfl⟩, rfl⟩
    obtain ⟨final, undone⟩ := @Kept.takes_back _ _ _ _ provenance' kept' inside'
      (completed.id.trans completed.itemId.symm) expected completed.archivedAt stays covered
    unfold TodoStore.mutate
    rw [loaded', saved]
    simp only [Change.apply, undone]
    rfl

section Example

/-- What a mutation leaves, when it is saved. -/
def mutated (store : TodoStore) (change : Change) (at_ : ℚ) : TodoStore :=
  (store.mutate plainLocale migrateNothing change (userAt at_) at_ true).1

def twoItemsStore : TodoStore :=
  mutated (mutated ⟨none, none, []⟩ (.createItem (item "Milk")) 1) (.createItem (item "Bread")) 2

def completedStore : TodoStore :=
  mutated twoItemsStore (.setItemStatusWithCompletionUndo (js "td-1") done) 3

theorem twoItemsStore_reached : (todoStore plainLocale migrateNothing).Reaches
    (fun s event => (event.isTimed && s.admits event) = true) twoItemsStore := by
  refine .step (.step .start (l := .mutate (.createItem (item "Milk")) (userAt 1) 1 true) ?_ rfl)
    (l := .mutate (.createItem (item "Bread")) (userAt 2) 2 true) ?_ rfl
  · decide +kernel
  · decide +kernel

theorem eq_ok_of_toOption {ε α : Type} {result : Except ε α} {a : α}
    (given : result.toOption = some a) : result = .ok a := by
  cases result with
  | ok b => exact congrArg Except.ok (Option.some.inj given)
  | error e => cases given

theorem twoItemsStore_open : ∃ state first, twoItemsStore.state = some state ∧ Open state first ∧
    first.id = js "td-1" ∧ orderSection first = (INBOX_ID, .active) := by
  have there : (twoItemsStore.state.any fun state => state.items.any fun item =>
      item.id = js "td-1" && item.archivedAt = none && item.status ≠ .done &&
        orderSection item = (INBOX_ID, .active)) = true := by decide +kernel
  obtain ⟨state, held, there⟩ := (Option.any_eq_true _ _).mp there
  obtain ⟨first, inside, there⟩ := List.any_eq_true.mp there
  simp only [Bool.and_eq_true, decide_eq_true_eq] at there
  obtain ⟨⟨⟨id, unarchived⟩, undone⟩, place⟩ := there
  exact ⟨state, first, held, ⟨inside, unarchived, undone⟩, id, place⟩

/-- A completion that nothing followed can be taken back. -/
theorem first_taken_back : ∃ store state first completed snapshot,
    (todoStore plainLocale migrateNothing).Reaches
      (fun s event => (event.isTimed && s.admits event) = true) store ∧
    store.state = some state ∧ Open state first ∧
    store.mutate plainLocale migrateNothing (.setItemStatusWithCompletionUndo first.id
      (some (.string (js "done")))) (userAt 3) 3 true = (completed, .ok (some snapshot)) ∧
    ∀ provenance now, (completed.mutate plainLocale migrateNothing (.undoItemCompletion snapshot)
      provenance now true).2 = .ok none := by
  obtain ⟨state, first, held, opened, -⟩ := twoItemsStore_open
  obtain ⟨completed, snapshot, next, accepted, saved, undo⟩ := completion_taken_back plainLocale
    migrateNothing twoItemsStore twoItemsStore_reached 3 state (ensureLoaded_of_state held) first
    opened (userAt 3) (by decide +kernel)
  refine ⟨twoItemsStore, state, first, completed, snapshot, twoItemsStore_reached, held, opened,
    accepted, ?_⟩
  intro provenance now
  obtain ⟨-, -, -, -, untouched⟩ := undo [] completed next (.still _ _) saved provenance now true
  exact untouched (fun step none => absurd none List.not_mem_nil) rfl

def cameStore : TodoStore := mutated completedStore (.createItem (item "Eggs")) 4

def wentStore : TodoStore := mutated cameStore (.setItemArchived (js "td-3") true) 5

/-- A new item that comes into the former section and is archived again leaves the section as the
completion left it, and the undo is accepted. -/
theorem taken_back_after_change : ∃ store state first completed snapshot next steps later,
    (todoStore plainLocale migrateNothing).Reaches
      (fun s event => (event.isTimed && s.admits event) = true) store ∧
    store.state = some state ∧ Open state first ∧
    store.mutate plainLocale migrateNothing (.setItemStatusWithCompletionUndo first.id
      (some (.string (js "done")))) (userAt 3) 3 true = (completed, .ok (some snapshot)) ∧
    completed.state = some next ∧
    Accepted plainLocale migrateNothing completed 3 steps later ∧
    (∃ step ∈ steps, (sectionItems plainLocale step.2 (orderSection first)).map (·.id) ≠
      (sectionItems plainLocale next (orderSection first)).map (·.id)) ∧
    (later.mutate plainLocale migrateNothing (.undoItemCompletion snapshot) (userAt 6) 6 true).2 =
      .ok none := by
  obtain ⟨state, first, held, opened, id, place⟩ := twoItemsStore_open
  have left : completedStore.state.map (fun state =>
      (sectionItems plainLocale state (INBOX_ID, .active)).map (·.id)) =
        some [js "td-2"] := by decide +kernel
  have came : cameStore.state.map (fun state =>
      (sectionItems plainLocale state (INBOX_ID, .active)).map (·.id)) =
        some [js "td-2", js "td-3"] := by decide +kernel
  have went : wentStore.state.isSome = true := by decide +kernel
  obtain ⟨next, saved, ids⟩ := Option.map_eq_some_iff.mp left
  obtain ⟨between, saved', ids'⟩ := Option.map_eq_some_iff.mp came
  obtain ⟨last, saved''⟩ := Option.isSome_iff_exists.mp went
  refine ⟨twoItemsStore, state, first, completedStore, firstCompleted, next,
    [(next, between), (between, last)], wentStore, twoItemsStore_reached, held, opened, ?_, saved,
    ?_, ⟨_, List.mem_cons_self, ?_⟩, ?_⟩
  · rw [id]
    refine Prod.ext rfl (eq_ok_of_toOption ?_)
    decide +kernel
  · refine @Accepted.more _ _ _ _ _ _ 4 _ _ _ (.createItem (item "Eggs")) (userAt 4) none saved ?_
      rfl (Prod.ext rfl (eq_ok_of_toOption ?_)) saved' ?_
    · decide +kernel
    · decide +kernel
    · refine @Accepted.more _ _ _ _ _ _ 5 _ _ _ (.setItemArchived (js "td-3") true) (userAt 5) none
        saved' ?_ rfl (Prod.ext rfl (eq_ok_of_toOption ?_)) saved'' (.still _ _)
      · decide +kernel
      · decide +kernel
  · rw [place, ids, ids']
    decide +kernel
  · refine eq_ok_of_toOption ?_
    decide +kernel

end Example

end Takode.Todos
