import Takode.Lib.Machine
import Takode.Todos.Undoing

/-!
# Runs of the to-do store

One change at a time is applied, and saved or not; the server may start again at any time. An undo is
given a snapshot that a completion returned, as the route that calls it does.
-/

namespace Takode.Todos

open JsString

structure TodoStore where
  /-- What is in memory, once it is loaded. -/
  state : Option TodoState
  file : Option JsonValue
  /-- The snapshots that completions have returned. -/
  issued : List TodoCompletionUndoSnapshot

inductive Failure
  | refused (error : TodoStoreError)
  | notSaved

section Store

variable (locale : Locale) (migrateV1State : JsonValue → Except TodoStoreError TodoState)

def TodoStore.ensureLoaded (store : TodoStore) (now : ℚ) : Except TodoStoreError TodoState :=
  match store.state, store.file with
  | some state, _ => .ok state
  | none, some file => normalizeLoadedState migrateV1State file
  | none, none => .ok (emptyState now)

/-- `mutate`, at a time and with a save that succeeds or fails. -/
def TodoStore.mutate (store : TodoStore) (change : Change) (provenance : TodoMutationProvenance)
    (now : ℚ) (saves : Bool) :
    TodoStore × Except Failure (Option TodoCompletionUndoSnapshot) :=
  match store.ensureLoaded migrateV1State now with
  | .error error => (store, .error (.refused error))
  | .ok state =>
    let loaded := { store with state := some state }
    match change.apply locale state provenance with
    | .error error => (loaded, .error (.refused error))
    | .ok (draft, undo) =>
      if saves then
        (⟨some draft, some draft.json, undo.toList ++ store.issued⟩, .ok undo)
      else (loaded, .error .notSaved)

inductive Event
  | mutate (change : Change) (provenance : TodoMutationProvenance) (now : ℚ) (saves : Bool)
  | restart

def TodoStore.step (store : TodoStore) : Event → Option TodoStore
  | .mutate change provenance now saves =>
    some (store.mutate locale migrateV1State change provenance now saves).1
  | .restart => some { store with state := none }

def todoStore : Machine TodoStore Event := ⟨⟨none, none, []⟩, TodoStore.step locale migrateV1State⟩

end Store

/-- Times are positive. -/
def Event.isTimed : Event → Bool
  | .mutate _ provenance now _ => 0 < provenance.at_ && 0 < now
  | .restart => true

/-- An undo is given a snapshot that a completion returned. -/
def TodoStore.admits (store : TodoStore) : Event → Bool
  | .mutate (.undoItemCompletion snapshot) _ _ _ => store.issued.contains snapshot
  | _ => true

/-- The state is as the list is meant to be. -/
structure Sound (locale : Locale) (state : TodoState) : Prop where
  itemIds : (state.items.map (·.id)).Nodup
  below : ∀ item ∈ state.items, ∃ n < state.nextItemId, item.id = js "td-" ++ decimal n
  categories : ∀ item ∈ state.items, item.categoryId ∈ state.categories.map (·.id)
  completed : ∀ item ∈ state.items, item.completedAt.isSome = true ↔ item.status = .done
  ranks : ∀ a ∈ state.items, ∀ b ∈ state.items, orderSection a = orderSection b →
    a.rank = b.rank → a = b
  unarchived : ∀ item ∈ state.items, item.archivedAt = none → ∀ category ∈ state.categories,
    category.id = item.categoryId → category.archivedAt = none
  names : (state.categories.map fun category => locale.toLocaleLowerCase category.name).Nodup

section Runs

variable {locale : Locale} {migrateV1State : JsonValue → Except TodoStoreError TodoState}
variable {state next : TodoState}

theorem Kept.sound (kept : Kept locale state) : Sound locale state where
  itemIds := kept.items.distinct
  below item inside := (kept.items.sound item inside).id
  categories item inside := (kept.items.sound item inside).stored.category
  completed item inside := (kept.items.sound item inside).done
  ranks a inside b inside' same equal := kept.items.eq_of_id inside inside'
    (kept.items.ranked a inside b inside' same (Set.notMem_empty _) equal)
  unarchived item inside := (kept.items.sound item inside).live
  names := kept.categories.names

theorem Kept.loadable (kept : Kept locale state) : state.Loadable where
  categoryIds := kept.categories.distinct
  categories category inside := by
    refine ⟨fun empty => ?_, kept.categories.named category inside⟩
    rcases kept.categories.id category inside with inbox | ⟨n, -, id⟩
    · exact absurd (inbox.symm.trans empty) (by decide)
    · exact absurd (id.symm.trans empty) (by simp [js])
  inbox := kept.categories.inbox
  itemIds := kept.items.distinct
  items item inside := (kept.items.sound item inside).stored

theorem kept_emptyState (now : ℚ) : Kept locale (emptyState now) := by
  refine ⟨⟨List.nodup_nil, fun _ none => (by cases none), fun _ none => (by cases none)⟩, ?_⟩
  have only {P : TodoCategory → Prop} (holds : P ⟨INBOX_ID, js "Inbox", now, now, none,
      (bootstrapProvenance now).json, (bootstrapProvenance now).json⟩) :
      ∀ category ∈ (emptyState now).categories, P category := by
    intro category listed
    rw [List.mem_singleton.mp listed]
    exact holds
  exact ⟨List.nodup_singleton _, only (.inl rfl), List.nodup_singleton _, only (List.cons_ne_nil _ _),
    only (fun none => (by cases none)), List.mem_singleton_self _⟩

/-- A change that succeeds leaves a state in order, and returns a snapshot that can be undone. -/
theorem Kept.apply (kept : Kept locale state) {change : Change}
    {provenance : TodoMutationProvenance} (positive : 0 < provenance.at_)
    (issued : ∀ snapshot, change = .undoItemCompletion snapshot → snapshot.Sound)
    {undo : Option TodoCompletionUndoSnapshot}
    (done : change.apply locale state provenance = .ok (next, undo)) :
    Moves locale state next ∧ ∀ snapshot, undo = some snapshot → snapshot.Sound := by
  have plain {result : Except TodoStoreError TodoState}
      (moves : ∀ draft, result = .ok draft → Moves locale state draft)
      (done : result.map (·, none) = .ok (next, undo)) :
      Moves locale state next ∧ ∀ snapshot, undo = some snapshot → snapshot.Sound := by
    obtain ⟨draft, drafted, same⟩ := map_eq_ok.mp done
    cases same
    exact ⟨moves next drafted, fun snapshot none => (by cases none)⟩
  cases change with
  | createItem input => exact plain (fun _ => kept.createItemInState) done
  | editItem itemId input => exact plain (fun _ => kept.editItemInState) done
  | linkItemQuests itemId input => exact plain (fun _ => kept.linkItemQuestsInState) done
  | setItemDue itemId dueValue => exact plain (fun _ => kept.setItemDue) done
  | setItemStatus itemId statusValue => exact plain (fun _ => kept.setItemStatusInState) done
  | setItemStatusWithCompletionUndo itemId statusValue =>
    refine ⟨kept.setItemStatusWithCompletionUndo done, fun snapshot given => ?_⟩
    rw [given] at done
    exact kept.snapshot_sound done
  | undoItemCompletion snapshot =>
    exact plain (fun _ => kept.undoItemCompletion (issued snapshot rfl)) done
  | moveItem itemId input => exact plain (fun _ => kept.moveItem) done
  | setItemArchived itemId archived =>
    exact plain (fun _ => kept.setItemArchivedInState positive) done
  | createCategory name => exact plain (fun _ => kept.createCategoryInState) done
  | renameCategory categoryId nameValue => exact plain (fun _ => kept.renameCategory) done
  | archiveCategory categoryId => exact plain (fun _ => kept.archiveCategory positive) done
  | restoreCategory categoryId => exact plain (fun _ => kept.restoreCategory) done

/-- The file is a state in order, and the one in memory if there is one. -/
structure Invariant (locale : Locale) (store : TodoStore) : Prop where
  memory : ∀ state, store.state = some state → Kept locale state
  file : ∀ file, store.file = some file → ∃ state, Kept locale state ∧ file = state.json ∧
    ∀ loaded, store.state = some loaded → loaded = state
  issued : ∀ snapshot ∈ store.issued, snapshot.Sound

theorem Invariant.loaded {store : TodoStore} (inv : Invariant locale store) {now : ℚ}
    (loading : store.ensureLoaded migrateV1State now = .ok state) :
    Invariant locale { store with state := some state } ∧
      ∀ old, store.state = some old → state = old := by
  unfold TodoStore.ensureLoaded at loading
  split at loading
  · rename_i old held
    cases loading
    refine ⟨⟨fun loaded same => ?_, fun file saved => ?_, inv.issued⟩, fun other same => ?_⟩
    · cases same
      exact inv.memory state held
    · obtain ⟨written, kept, text, same⟩ := inv.file file saved
      exact ⟨written, kept, text, fun loaded given => same loaded (held.trans given)⟩
    · exact Option.some.inj (held.symm.trans same)
  · rename_i file memory saved
    obtain ⟨written, kept, rfl, -⟩ := inv.file file saved
    rw [kept.loadable.normalizeLoadedState_json] at loading
    cases loading
    refine ⟨⟨fun loaded same => ?_, fun file saved' => ?_, inv.issued⟩, fun other same => ?_⟩
    · cases same
      exact kept
    · cases saved.symm.trans saved'
      exact ⟨state, kept, rfl, fun loaded same => (Option.some.inj same).symm⟩
    · cases memory.symm.trans same
  · rename_i memory missing
    cases loading
    refine ⟨⟨fun loaded same => ?_, fun file saved => ?_, inv.issued⟩, fun other same => ?_⟩
    · cases same
      exact kept_emptyState now
    · cases missing.symm.trans saved
    · cases memory.symm.trans same

theorem Invariant.mutate {store : TodoStore} (inv : Invariant locale store) {change : Change}
    {provenance : TodoMutationProvenance} {now : ℚ} {saves : Bool}
    (timed : (Event.mutate change provenance now saves).isTimed = true)
    (admitted : store.admits (.mutate change provenance now saves) = true) :
    Invariant locale (store.mutate locale migrateV1State change provenance now saves).1 ∧
      ∀ state, store.state = some state →
        ∃ next, (store.mutate locale migrateV1State change provenance now saves).1.state = some next ∧
          (next = state ∨ state.revision < next.revision) ∧
          ∀ failure,
            (store.mutate locale migrateV1State change provenance now saves).2 = .error failure →
              next = state := by
  have positive : 0 < provenance.at_ := by
    simpa using (Bool.and_eq_true _ _).mp timed |>.1
  unfold TodoStore.mutate
  split
  · rename_i error failed
    refine ⟨inv, fun state memory => ⟨state, memory, .inl rfl, fun _ _ => rfl⟩⟩
  · rename_i state loading
    obtain ⟨loaded, same⟩ := inv.loaded loading
    have stays : ∀ old, store.state = some old → ∃ next, some state = some next ∧
        (next = old ∨ old.revision < next.revision) ∧ next = old := fun old memory =>
      ⟨state, rfl, .inl (same old memory), same old memory⟩
    simp only
    split
    · refine ⟨loaded, fun old memory => ?_⟩
      obtain ⟨next, there, moves, kept⟩ := stays old memory
      exact ⟨next, there, moves, fun _ _ => kept⟩
    · rename_i draft undo applied
      have kept := loaded.memory state rfl
      obtain ⟨moves, sound⟩ := kept.apply positive (fun snapshot given => by
        subst given
        exact inv.issued snapshot (by simpa [TodoStore.admits] using admitted)) applied
      have drafted : Kept locale draft := by
        rcases moves with rfl | ⟨kept', -⟩
        · exact kept
        · exact kept'
      split
      · refine ⟨⟨fun other given => ?_, fun file saved => ?_, fun snapshot listed => ?_⟩,
          fun old memory => ⟨draft, rfl, ?_, fun failure failed => (by cases failed)⟩⟩
        · cases given
          exact drafted
        · cases saved
          exact ⟨draft, drafted, rfl, fun other given => (Option.some.inj given).symm⟩
        · rcases List.mem_append.mp listed with new | old
          · exact sound snapshot (Option.mem_toList.mp new)
          · exact inv.issued snapshot old
        · rw [← same old memory]
          exact moves.imp_right fun moved => by
            rw [moved.2]
            exact Nat.lt_succ_self _
      · refine ⟨loaded, fun old memory => ?_⟩
        obtain ⟨next, there, moves, kept⟩ := stays old memory
        exact ⟨next, there, moves, fun _ _ => kept⟩

theorem invariant_of_reaches {store : TodoStore} (reached : (todoStore locale migrateV1State).Reaches
    (fun s event => (event.isTimed && s.admits event) = true) store) : Invariant locale store := by
  induction reached with
  | start =>
    exact ⟨fun _ none => (by cases none), fun _ none => (by cases none),
      fun _ none => (by cases none)⟩
  | @step store event next _ admitted taken inv =>
    obtain ⟨timed, admitted⟩ := (Bool.and_eq_true _ _).mp admitted
    cases event with
    | mutate change provenance now saves =>
      cases taken
      exact (inv.mutate timed admitted).1
    | restart =>
      cases taken
      refine ⟨fun _ none => (by cases none), fun file saved => ?_, inv.issued⟩
      obtain ⟨state, kept, text, -⟩ := inv.file file saved
      exact ⟨state, kept, text, fun _ none => (by cases none)⟩

/-- In every run the list is in order and survives a restart, a change that succeeds counts the
revision up unless it changes nothing, and one that fails leaves what is in memory. -/
theorem todo_list_kept (locale : Locale)
    (migrateV1State : JsonValue → Except TodoStoreError TodoState) (store : TodoStore)
    (reached : (todoStore locale migrateV1State).Reaches
      (fun s event => (event.isTimed && s.admits event) = true) store) :
    (∀ state, store.state = some state →
      Sound locale state ∧ normalizeLoadedState migrateV1State state.json = .ok state ∧
        ∀ file, store.file = some file → normalizeLoadedState migrateV1State file = .ok state) ∧
    ∀ (change : Change) (provenance : TodoMutationProvenance) (now : ℚ) (saves : Bool),
      (Event.mutate change provenance now saves).isTimed = true →
      store.admits (.mutate change provenance now saves) = true →
      ∀ state, store.state = some state →
        ∃ next, (store.mutate locale migrateV1State change provenance now saves).1.state = some next ∧
          (next = state ∨ state.revision < next.revision) ∧
          ∀ failure,
            (store.mutate locale migrateV1State change provenance now saves).2 = .error failure →
              next = state := by
  have inv := invariant_of_reaches reached
  refine ⟨fun state held => ?_, fun change provenance now saves timed admitted =>
    (inv.mutate timed admitted).2⟩
  have kept := inv.memory state held
  refine ⟨kept.sound, kept.loadable.normalizeLoadedState_json _, fun file saved => ?_⟩
  obtain ⟨written, kept', rfl, same⟩ := inv.file file saved
  rw [same state held]
  exact kept'.loadable.normalizeLoadedState_json _

end Runs

section Example

/-- A locale that knows ASCII letters and compares code units. -/
def plainLocale : Locale where
  toLocaleLowerCase text := text.map fun c => if 65 ≤ c && c ≤ 90 then c + 32 else c
  localeCompare := List.compareLex compare

def migrateNothing (_ : JsonValue) : Except TodoStoreError TodoState :=
  .error ⟨js "Unsupported to-do schema version", .unsupportedSchema⟩

def userAt (at_ : ℚ) : TodoMutationProvenance where
  actor := .fields [(js "kind", some (.string (js "user")))]
  authorization := .fields [(js "kind", some (.string (js "ui")))]
  at_ := at_
  source := none

def item (markdown : String) : TodoItemCreateInput where
  markdown := some (.string (js markdown))
  titleMarkdown := none
  detailsMarkdown := none
  categoryId := none
  status := none
  due := none
  beforeItemId := none
  afterItemId := none

def done : Option JsonValue := some (.string (js "done"))

/-- What the completion of the first of two items returns. -/
def firstCompleted : TodoCompletionUndoSnapshot where
  itemId := js "td-1"
  previous := ⟨false, INBOX_ID, 1024, [⟨js "td-1", 1024⟩, ⟨js "td-2", 2048⟩]⟩
  completed := ⟨INBOX_ID, 1024, 3, 3, none, [⟨js "td-2", 1024⟩]⟩

def twoItems : List Event :=
  [.mutate (.createItem (item "Milk")) (userAt 1) 1 true,
    .mutate (.createItem (item "Bread")) (userAt 2) 2 true]

/-- A completion is taken back after a save failed; then a category comes and goes. -/
def plainRun : List Event :=
  twoItems ++
    [.mutate (.setItemStatusWithCompletionUndo (js "td-1") done) (userAt 3) 3 true,
      .mutate (.undoItemCompletion firstCompleted) (userAt 4) 4 false,
      .mutate (.undoItemCompletion firstCompleted) (userAt 5) 5 true,
      .mutate (.createCategory (some (.string (js " Home  work ")))) (userAt 6) 6 true,
      .mutate (.moveItem (js "td-1") ⟨some (js "cat-1"), none, none⟩) (userAt 7) 7 true,
      .mutate (.archiveCategory (js "cat-1")) (userAt 8) 8 true,
      .mutate (.setItemArchived (js "td-1") true) (userAt 9) 9 true,
      .mutate (.archiveCategory (js "cat-1")) (userAt 10) 10 true,
      .mutate (.setItemArchived (js "td-1") false) (userAt 11) 11 true]

theorem plain_list_kept : ∃ store state, (todoStore plainLocale migrateNothing).Reaches
    (fun s event => (event.isTimed && s.admits event) = true) store ∧ store.state = some state ∧
      state.revision = 8 ∧ Sound plainLocale state ∧
        normalizeLoadedState migrateNothing state.json = .ok state := by
  obtain ⟨store, reached, revision⟩ := (todoStore plainLocale migrateNothing).exists_reaches_of_run
    (fun s event => event.isTimed && s.admits event)
    (fun s => s.state.map (·.revision) = some 8) plainRun (by decide +kernel)
  obtain ⟨state, held, eight⟩ := Option.map_eq_some_iff.mp revision
  obtain ⟨sound, loads, -⟩ := (todo_list_kept plainLocale migrateNothing store reached).1 state held
  exact ⟨store, state, reached, held, eight, sound, loads⟩

/-- A snapshot that no completion returned: it gives the item the rank of the other one. -/
def madeUp : TodoCompletionUndoSnapshot :=
  { firstCompleted with previous := ⟨false, INBOX_ID, 1024, []⟩ }

def madeUpRun : List Event :=
  twoItems ++
    [.mutate (.setItemStatus (js "td-1") done) (userAt 3) 3 true,
      .mutate (.undoItemCompletion madeUp) (userAt 4) 4 true]

/-- After an undo with a snapshot of the caller's own two items have one rank. -/
theorem made_up_undo_unsound : ∃ store state, (todoStore plainLocale migrateNothing).Reaches
    (fun _ event => event.isTimed = true) store ∧ store.state = some state ∧
      ¬ Sound plainLocale state := by
  obtain ⟨store, reached, clash⟩ := (todoStore plainLocale migrateNothing).exists_reaches_of_run
    (fun _ event => event.isTimed)
    (fun s => s.state.any (fun state => state.items.any fun a => state.items.any fun b =>
      a.id ≠ b.id && orderSection a = orderSection b && a.rank = b.rank) = true)
    madeUpRun (by decide +kernel)
  obtain ⟨state, held, clash⟩ := (Option.any_eq_true _ _).mp clash
  obtain ⟨a, inside, clash⟩ := List.any_eq_true.mp clash
  obtain ⟨b, inside', clash⟩ := List.any_eq_true.mp clash
  simp only [Bool.and_eq_true, decide_eq_true_eq] at clash
  obtain ⟨⟨different, place⟩, rank⟩ := clash
  refine ⟨store, state, reached, held, fun sound => different ?_⟩
  rw [sound.ranks a inside b inside' place rank]

end Example

end Takode.Todos
