import Takode.Todos.Sections

/-!
# The changes keep the list in order

Every change leaves the state as it is, or leaves one in order with the next revision. An undo does
so for a snapshot that a completion gave.
-/

namespace Takode.Todos

open JsString

structure CategoriesKept (locale : Locale) (categories : List TodoCategory) (nextCategoryId : Nat) :
    Prop where
  distinct : (categories.map (·.id)).Nodup
  id : ∀ category ∈ categories,
    category.id = INBOX_ID ∨ ∃ n < nextCategoryId, category.id = js "cat-" ++ decimal n
  names : (categories.map fun category => locale.toLocaleLowerCase category.name).Nodup
  named : ∀ category ∈ categories, category.name ≠ []
  archived : ∀ category ∈ categories, category.archivedAt ≠ some 0
  inbox : INBOX_ID ∈ categories.map (·.id)

structure Kept (locale : Locale) (state : TodoState) : Prop where
  items : Drafted ∅ state
  categories : CategoriesKept locale state.categories state.nextCategoryId

/-- What a change that succeeds does to a state. -/
def Moves (locale : Locale) (state next : TodoState) : Prop :=
  next = state ∨ Kept locale next ∧ next.revision = state.revision + 1

section Texts

variable {value : Option JsonValue} {text : JsString}

theorem requireString_eq_ok {message : JsString} (read : requireString value message = .ok text) :
    value = some (.string text) := by
  unfold requireString at read
  split at read
  · rename_i found
    obtain ⟨json, rfl, same⟩ := Option.bind_eq_some_iff.mp found
    cases json <;> cases same
    cases read
    rfl
  · cases read

theorem normalizeMarkdown_again (taken : normalizeMarkdown value = .ok text) :
    normalizeMarkdown (some (.string text)) = .ok text := by
  have taken' := taken
  simp only [normalizeMarkdown, bind_eq_ok, refuse_eq_ok, exists_const] at taken'
  obtain ⟨read, given, -, -, -, same⟩ := taken'
  cases same
  rw [← requireString_eq_ok given]
  exact taken

theorem resolveCreateMarkdown_again {input : TodoItemEditInput}
    (taken : resolveCreateMarkdown input = .ok text) :
    normalizeMarkdown (some (.string text)) = .ok text := by
  simp only [resolveCreateMarkdown, bind_eq_ok, refuse_eq_ok, exists_and_left, exists_const] at taken
  obtain ⟨-, taken⟩ := taken
  split at taken
  · exact normalizeMarkdown_again taken
  · simp only [bind_eq_ok] at taken
    obtain ⟨title, -, details, -, taken⟩ := taken
    exact normalizeMarkdown_again taken

theorem resolveEditMarkdown_again {current : JsString} {input : TodoItemEditInput}
    (taken : resolveEditMarkdown current input = .ok text) :
    normalizeMarkdown (some (.string text)) = .ok text := by
  simp only [resolveEditMarkdown, bind_eq_ok, refuse_eq_ok, exists_and_left, exists_const] at taken
  obtain ⟨-, taken⟩ := taken
  split at taken
  · exact normalizeMarkdown_again taken
  · simp only [applyLegacyTodoMarkdownEdit, bind_eq_ok, refuse_eq_ok, exists_and_left,
      exists_const] at taken
    obtain ⟨-, titled, -, detailed, -, taken⟩ := taken
    exact normalizeMarkdown_again taken

theorem normalizeDue_valid {due : Option JsString} (taken : normalizeDue value = .ok due) :
    ∀ text, due = some text → isValidTodoDue text = true := by
  rintro text rfl
  unfold normalizeDue at taken
  split at taken
  · cases taken
  · split at taken
    · rename_i found
      cases taken
      exact (Option.filter_eq_some_iff.mp found).2
    · cases taken

theorem normalizeQuestIds_valid {label : JsString} {ids : List JsString}
    (taken : normalizeQuestIds value label = .ok ids) :
    ∀ id ∈ ids, trim id = id ∧ isQuestId id = true := by
  unfold normalizeQuestIds at taken
  split at taken
  · cases taken
    exact fun id none => (by cases none)
  · cases taken
    exact fun id none => (by cases none)
  · rename_i entries
    simp only at taken
    split at taken
    · cases taken
    · rename_i passed
      cases taken
      intro id inside
      have listed := List.mem_eraseDups.mp inside
      have valid : isQuestId id = true := by
        simpa using List.find?_eq_none.mp passed id listed
      obtain ⟨entry, -, rfl⟩ := List.mem_map.mp listed
      refine ⟨?_, valid⟩
      cases entry.asString with
      | none => rfl
      | some text => exact trim_trim text
  · cases taken

theorem mem_link {addQuestIds next : List JsString} {id : JsString}
    (inside : id ∈ addQuestIds.foldl
      (fun next id => if next.contains id then next else next ++ [id]) next) :
    id ∈ next ∨ id ∈ addQuestIds := by
  induction addQuestIds generalizing next with
  | nil => exact .inl inside
  | cons added addQuestIds ih =>
    rcases ih inside with before | after
    · simp only at before
      split at before
      · exact .inl before
      · rcases List.mem_append.mp before with old | new
        · exact .inl old
        · exact .inr (List.mem_singleton.mp new ▸ List.mem_cons_self)
    · exact .inr (List.mem_cons_of_mem _ after)

end Texts

section Items

variable {locale : Locale} {state next : TodoState} {itemId : JsString}
variable {provenance : TodoMutationProvenance}

theorem Kept.of_items (kept : Kept locale state) (drafted : Drafted ∅ next)
    (categories : next.categories = state.categories)
    (nextCategoryId : next.nextCategoryId = state.nextCategoryId) : Kept locale next :=
  ⟨drafted, by
    rw [categories, nextCategoryId]
    exact kept.categories⟩

/-- A change of what an item says, which is recorded. -/
theorem Kept.edit (kept : Kept locale state) {item : TodoItem} (inside : item ∈ state.items)
    {change : TodoItem → TodoItem} (id : (change item).id = item.id)
    (rank : (change item).rank = item.rank) (stays : orderSection (change item) = orderSection item)
    (sound : (change item).Sound state.categories state.nextItemId) :
    Moves locale state ((state.updateItem item.id change).recordItemChange item.id provenance) := by
  have updated : Drafted ∅ (state.updateItem item.id change) :=
    kept.items.updateItem inside id sound (.inr ⟨stays, rank⟩) subset_rfl
  have recorded := updated.recordItemChange (TodoState.change_mem_updateItem change inside)
    provenance
  rw [id] at recorded
  exact .inr ⟨kept.of_items recorded rfl rfl, rfl⟩

theorem Kept.editItemInState (kept : Kept locale state) {input : TodoItemEditInput}
    (done : editItemInState state itemId input provenance = .ok next) : Moves locale state next := by
  simp only [Todos.editItemInState, bind_eq_ok] at done
  obtain ⟨item, found, markdown, taken, done⟩ := done
  obtain ⟨inside, rfl⟩ := itemById_eq_ok found
  split at done
  · cases done
    exact .inl rfl
  · cases done
    have sound := kept.items.sound item inside
    exact kept.edit inside rfl rfl rfl ⟨sound.id, sound.done, sound.archived, sound.live,
      ⟨sound.stored.id, sound.stored.category, resolveEditMarkdown_again taken, sound.stored.due,
        sound.stored.questIds⟩⟩

theorem Kept.setItemDue (kept : Kept locale state) {dueValue : Option JsonValue}
    (done : setItemDue state itemId dueValue provenance = .ok next) : Moves locale state next := by
  simp only [Todos.setItemDue, bind_eq_ok] at done
  obtain ⟨item, found, due, taken, done⟩ := done
  obtain ⟨inside, rfl⟩ := itemById_eq_ok found
  split at done
  · cases done
    exact .inl rfl
  · cases done
    have sound := kept.items.sound item inside
    exact kept.edit inside rfl rfl rfl ⟨sound.id, sound.done, sound.archived, sound.live,
      ⟨sound.stored.id, sound.stored.category, sound.stored.markdown, normalizeDue_valid taken,
        sound.stored.questIds⟩⟩

theorem Kept.linkItemQuestsInState (kept : Kept locale state) {input : TodoItemLinkInput}
    (done : linkItemQuestsInState state itemId input provenance = .ok next) :
    Moves locale state next := by
  simp only [Todos.linkItemQuestsInState, bind_eq_ok] at done
  obtain ⟨item, found, ⟨addQuestIds, removeQuestIds⟩, taken, done⟩ := done
  obtain ⟨inside, rfl⟩ := itemById_eq_ok found
  simp only [normalizeLinkInput, bind_eq_ok, refuse_eq_ok, exists_and_left, exists_const,
    pure_eq_ok, Prod.mk.injEq] at taken
  obtain ⟨added, valid, removed, -, -, -, rfl, rfl⟩ := taken
  split at done
  · cases done
    exact .inl rfl
  · cases done
    have sound := kept.items.sound item inside
    refine kept.edit inside rfl rfl rfl ⟨sound.id, sound.done, sound.archived, sound.live,
      ⟨sound.stored.id, sound.stored.category, sound.stored.markdown, sound.stored.due, ?_⟩⟩
    intro ids linked id listed
    simp only at linked
    split at linked
    · cases linked
    · cases linked
      rcases mem_link listed with before | after
      · have old := (List.mem_filter.mp before).1
        cases stored : item.questIds with
        | none => simp [stored] at old
        | some ids =>
          rw [stored, Option.getD_some] at old
          exact sound.stored.questIds ids stored id old
      · exact normalizeQuestIds_valid valid id after

/-- A change that may bring an item into another section, which is recorded. -/
theorem Kept.settle (kept : Kept locale state) {item : TodoItem} (inside : item ∈ state.items)
    {change : TodoItem → TodoItem} (id : (change item).id = item.id)
    (rank : (change item).rank = item.rank)
    (sound : (change item).Sound state.categories state.nextItemId)
    (settled : resettle locale (state.updateItem item.id change) item (change item) = .ok next) :
    Moves locale state (next.recordItemChange item.id provenance) := by
  obtain ⟨drafted, rank', rfl⟩ := kept.items.resettle inside id rank sound settled
  have there := TodoState.mem_rerank rank' (TodoState.change_mem_updateItem change inside)
  have recorded := drafted.recordItemChange there provenance
  simp only [id] at recorded
  exact .inr ⟨kept.of_items recorded rfl rfl, rfl⟩

theorem Kept.setItemStatusInState (kept : Kept locale state) {statusValue : Option JsonValue}
    (done : setItemStatusInState locale state itemId statusValue provenance = .ok next) :
    Moves locale state next := by
  simp only [Todos.setItemStatusInState, bind_eq_ok] at done
  obtain ⟨item, found, status, -, done⟩ := done
  obtain ⟨inside, rfl⟩ := itemById_eq_ok found
  split at done
  · cases done
    exact .inl rfl
  · simp only [bind_eq_ok] at done
    obtain ⟨settled, resettled, done⟩ := done
    cases done
    have sound := kept.items.sound item inside
    refine kept.settle inside rfl rfl ⟨sound.id, ?_, sound.archived, sound.live,
      ⟨sound.stored.id, sound.stored.category, sound.stored.markdown, sound.stored.due,
        sound.stored.questIds⟩⟩ resettled
    split <;> simp [*]

theorem isTime_eq_false {time : Option ℚ} (real : time ≠ some 0) :
    isTime time = false ↔ time = none := by
  cases time with
  | none => exact ⟨fun _ => rfl, fun _ => rfl⟩
  | some at_ =>
    have positive : at_ ≠ 0 := fun zero => real (congrArg some zero)
    simp [isTime, positive]

theorem categoryById_eq_ok {categoryId : JsString} {allowArchived : Bool} {category : TodoCategory}
    (found : state.categoryById categoryId allowArchived = .ok category) :
    category ∈ state.categories ∧ category.id = categoryId ∧
      (allowArchived = true ∨ isTime category.archivedAt = false) := by
  unfold TodoState.categoryById at found
  split at found
  · cases found
  · rename_i first
    split at found
    · cases found
    · rename_i live
      cases found
      refine ⟨List.mem_of_find?_eq_some first, of_decide_eq_true (List.find?_some first :), ?_⟩
      cases allowArchived
      · exact .inr (by simpa using live)
      · exact .inl rfl

/-- A category that items may be put into is not archived. -/
theorem Kept.live (kept : Kept locale state) {categoryId : JsString} {category : TodoCategory}
    (found : state.categoryById categoryId false = .ok category) :
    categoryId ∈ state.categories.map (·.id) ∧
      ∀ other ∈ state.categories, other.id = categoryId → other.archivedAt = none := by
  obtain ⟨inside, rfl, live⟩ := categoryById_eq_ok found
  refine ⟨List.mem_map_of_mem inside, fun other inside' same => ?_⟩
  obtain rfl := List.inj_on_of_nodup_map kept.categories.distinct inside' inside same
  have real := kept.categories.archived other inside'
  exact (isTime_eq_false real).mp (live.resolve_left Bool.false_ne_true)

theorem Kept.setItemArchivedInState (kept : Kept locale state) {archived : Bool}
    (positive : 0 < provenance.at_)
    (done : setItemArchivedInState locale state itemId archived provenance = .ok next) :
    Moves locale state next := by
  simp only [Todos.setItemArchivedInState, bind_eq_ok] at done
  obtain ⟨item, found, done⟩ := done
  obtain ⟨inside, rfl⟩ := itemById_eq_ok found
  have sound := kept.items.sound item inside
  split at done
  · cases done
    exact .inl rfl
  · cases archived with
    | true =>
      simp only [Bool.not_true, Bool.false_eq_true, if_false, if_true, bind_eq_ok] at done
      obtain ⟨settled, resettled, done⟩ := done
      cases done
      refine kept.settle inside rfl rfl ⟨sound.id, sound.done, ?_, fun none => (by cases none),
        ⟨sound.stored.id, sound.stored.category, sound.stored.markdown, sound.stored.due,
          sound.stored.questIds⟩⟩ resettled
      exact fun zero => positive.ne' (Option.some.inj zero)
    | false =>
      simp only [Bool.not_false, if_true, Bool.false_eq_true, if_false, bind_eq_ok] at done
      obtain ⟨category, found, settled, resettled, done⟩ := done
      cases done
      exact kept.settle inside rfl rfl ⟨sound.id, sound.done, fun none => (by cases none),
        fun _ => (kept.live found).2,
        ⟨sound.stored.id, sound.stored.category, sound.stored.markdown, sound.stored.due,
          sound.stored.questIds⟩⟩ resettled

theorem Kept.resolveCategory (kept : Kept locale state)
    {categoryId beforeItemId afterItemId : Option JsString} {fallback resolved : JsString}
    (taken : resolveCategory state categoryId beforeItemId afterItemId fallback = .ok resolved) :
    resolved ∈ state.categories.map (·.id) ∧
      ∀ other ∈ state.categories, other.id = resolved → other.archivedAt = none := by
  simp only [Todos.resolveCategory, bind_eq_ok, refuse_eq_ok, exists_and_left, exists_const,
    pure_eq_ok] at taken
  obtain ⟨-, reference, -, category, found, -, rfl⟩ := taken
  exact kept.live found

theorem Kept.moveItem (kept : Kept locale state) {input : TodoItemMoveInput}
    (done : moveItem locale state itemId input provenance = .ok next) :
    Moves locale state next := by
  simp only [Todos.moveItem, bind_eq_ok] at done
  obtain ⟨item, found, categoryId, resolved, placed, placing, done⟩ := done
  obtain ⟨inside, rfl⟩ := itemById_eq_ok found
  cases done
  have sound := kept.items.sound item inside
  obtain ⟨known, live⟩ := kept.resolveCategory resolved
  let change (item : TodoItem) : TodoItem := { item with categoryId }
  have updated : Drafted (insert (orderSection (change item)) ∅)
      (state.updateItem item.id change) :=
    kept.items.updateItem inside rfl ⟨sound.id, sound.done, sound.archived, fun _ => live,
      ⟨sound.stored.id, known, sound.stored.markdown, sound.stored.due, sound.stored.questIds⟩⟩
      (.inl (Set.mem_insert _ _)) (Set.empty_subset _)
  have there := TodoState.change_mem_updateItem change inside
  -- The place in the old section is closed first, if the item leaves it.
  have closed {draft : TodoState} (rank : TodoItem → ℚ)
      (drafted : Drafted (insert (orderSection (change item)) ∅) draft)
      (same : draft = (state.updateItem item.id change).rerank rank)
      (placing : placeItem locale draft (change item) input.beforeItemId input.afterItemId =
        .ok placed) : Moves locale state (placed.recordItemChange item.id provenance) := by
    have there' := same ▸ TodoState.mem_rerank rank there
    obtain ⟨ordered, rank', rfl⟩ := drafted.placeItem ⟨_, there', rfl, rfl⟩ placing
    have recorded := ordered.recordItemChange (TodoState.mem_rerank rank' there') provenance
    subst same
    exact .inr ⟨kept.of_items recorded rfl rfl, rfl⟩
  split at placing
  · obtain ⟨rank, reindexed⟩ :=
      reindexSection_eq locale (state.updateItem item.id change) (orderSection item)
    exact closed rank updated.reindexSection reindexed placing
  · exact closed (·.rank) updated (by simp [TodoState.rerank]) placing

theorem TodoItem.Sound.mono {categories : List TodoCategory} {nextItemId nextItemId' : Nat}
    {item : TodoItem} (sound : item.Sound categories nextItemId) (larger : nextItemId ≤ nextItemId') :
    item.Sound categories nextItemId' := by
  obtain ⟨n, below, id⟩ := sound.id
  exact ⟨⟨n, below.trans_le larger, id⟩, sound.done, sound.archived, sound.live,
    sound.stored⟩

theorem Kept.createItemInState (kept : Kept locale state) {input : TodoItemCreateInput}
    (done : createItemInState locale state input provenance = .ok next) :
    Moves locale state next := by
  simp only [Todos.createItemInState, bind_eq_ok, pure_eq_ok] at done
  obtain ⟨categoryId, resolved, status, -, due, dated, markdown, written, placed, placing, rfl⟩ :=
    done
  obtain ⟨known, live⟩ := kept.resolveCategory resolved
  generalize made : (TodoItem.mk (js "td-" ++ decimal state.nextItemId) markdown 0 categoryId status
    provenance.at_ provenance.at_ provenance.at_ _ none none due provenance.json provenance.json) =
      item at placing
  have sound : item.Sound state.categories (state.nextItemId + 1) := by
    subst made
    refine ⟨⟨state.nextItemId, Nat.lt_succ_self _, rfl⟩, ?_, fun none => (by cases none),
      fun _ => live, ⟨by simp [js], known, resolveCreateMarkdown_again written,
        normalizeDue_valid dated, fun ids none => (by cases none)⟩⟩
    split <;> simp [*]
  have fresh : item.id ∉ state.items.map (·.id) := by
    intro listed
    obtain ⟨old, inside, same⟩ := List.mem_map.mp listed
    obtain ⟨n, below, id⟩ := (kept.items.sound old inside).id
    have equal : decimal n = decimal state.nextItemId := by
      subst made
      exact List.append_cancel_left (id.symm.trans same)
    exact below.ne (decimal_injective equal)
  have drafted : Drafted (insert (orderSection item) ∅)
      { state with nextItemId := state.nextItemId + 1, items := state.items ++ [item] } := by
    refine ⟨?_, ?_, ?_⟩
    · rw [List.map_append, List.map_singleton, List.nodup_append_comm, List.singleton_append,
        List.nodup_cons]
      exact ⟨fresh, kept.items.distinct⟩
    · intro a inside b inside' same tight equal
      rcases List.mem_append.mp inside with old | new
      · rcases List.mem_append.mp inside' with old' | new'
        · exact kept.items.ranked a old b old' same (Set.notMem_empty _) equal
        · obtain rfl := List.mem_singleton.mp new'
          exact absurd (Set.mem_insert_iff.mpr (.inl same)) tight
      · obtain rfl := List.mem_singleton.mp new
        exact absurd (Set.mem_insert _ _) tight
    · intro other inside
      rcases List.mem_append.mp inside with old | new
      · exact (kept.items.sound other old).mono (Nat.le_succ _)
      · obtain rfl := List.mem_singleton.mp new
        exact sound
  have there : item ∈ state.items ++ [item] := List.mem_append_right _ (List.mem_singleton_self _)
  obtain ⟨ordered, rank, rfl⟩ := drafted.placeItem ⟨item, there, rfl, rfl⟩ placing
  exact .inr ⟨kept.of_items (ordered.touchState _) rfl rfl, rfl⟩

end Items

section Categories

variable {locale : Locale} {state next : TodoState} {categoryId : JsString}
variable {provenance : TodoMutationProvenance}

theorem normalizeCategoryName_ne_nil {value : Option JsonValue} {name : JsString}
    (taken : normalizeCategoryName value = .ok name) : name ≠ [] := by
  simp only [normalizeCategoryName, bind_eq_ok, refuse_eq_ok, exists_and_left, exists_const,
    pure_eq_ok] at taken
  obtain ⟨text, -, filled, -, rfl⟩ := taken
  simpa using filled

theorem CategoriesKept.append {categories : List TodoCategory} {nextCategoryId : Nat}
    (kept : CategoriesKept locale categories nextCategoryId) {category : TodoCategory}
    (id : category.id = js "cat-" ++ decimal nextCategoryId)
    (free : ∀ other ∈ categories,
      locale.toLocaleLowerCase other.name ≠ locale.toLocaleLowerCase category.name)
    (named : category.name ≠ []) (unarchived : category.archivedAt = none) :
    CategoriesKept locale (categories ++ [category]) (nextCategoryId + 1) := by
  have fresh : category.id ∉ categories.map (·.id) := by
    intro listed
    obtain ⟨old, inside, same⟩ := List.mem_map.mp listed
    rw [id] at same
    rcases kept.id old inside with inbox | ⟨n, below, id⟩
    · have digits : js "inbox" = decimal nextCategoryId :=
        List.append_cancel_left (show js "cat-" ++ js "inbox" = _ from inbox.symm.trans same)
      have number := congrArg digitsValue digits
      rw [digitsValue_decimal] at number
      rw [← number] at digits
      exact absurd digits (by decide +kernel)
    · exact below.ne (decimal_injective (List.append_cancel_left (id.symm.trans same)))
  have each {P : TodoCategory → Prop} (old : ∀ other ∈ categories, P other) (new : P category) :
      ∀ other ∈ categories ++ [category], P other := by
    intro other listed
    rcases List.mem_append.mp listed with before | last
    · exact old other before
    · exact List.mem_singleton.mp last ▸ new
  refine ⟨?_, each (fun other inside => ?_) (.inr ⟨_, Nat.lt_succ_self _, id⟩), ?_,
    each kept.named named, each kept.archived (by simp [unarchived]), ?_⟩
  · rw [List.map_append, List.map_singleton, List.nodup_append_comm, List.singleton_append,
      List.nodup_cons]
    exact ⟨fresh, kept.distinct⟩
  · exact (kept.id other inside).imp_right fun ⟨n, below, id⟩ => ⟨n, below.trans (Nat.lt_succ_self _), id⟩
  · rw [List.map_append, List.map_singleton, List.nodup_append_comm, List.singleton_append,
      List.nodup_cons]
    refine ⟨fun listed => ?_, kept.names⟩
    obtain ⟨old, inside, same⟩ := List.mem_map.mp listed
    exact free old inside same
  · rw [List.map_append]
    exact List.mem_append_left _ kept.inbox

/-- Categories are changed, and keep their ids. -/
theorem CategoriesKept.map {categories : List TodoCategory} {nextCategoryId : Nat}
    (kept : CategoriesKept locale categories nextCategoryId) {change : TodoCategory → TodoCategory}
    (id : ∀ category, (change category).id = category.id)
    (names : ∀ category ∈ categories, ∀ other ∈ categories,
      locale.toLocaleLowerCase (change category).name =
        locale.toLocaleLowerCase (change other).name → category.id = other.id)
    (named : ∀ category ∈ categories, (change category).name ≠ [])
    (archived : ∀ category ∈ categories, (change category).archivedAt ≠ some 0) :
    CategoriesKept locale (categories.map change) nextCategoryId := by
  have ids : (categories.map change).map (·.id) = categories.map (·.id) := by
    rw [List.map_map]
    exact List.map_congr_left fun category _ => id category
  have each {P : TodoCategory → Prop} (holds : ∀ category ∈ categories, P (change category)) :
      ∀ category ∈ categories.map change, P category := by
    intro category listed
    obtain ⟨old, there, rfl⟩ := List.mem_map.mp listed
    exact holds old there
  refine ⟨ids ▸ kept.distinct, each fun category inside => ?_, ?_, each named, each archived,
    ids ▸ kept.inbox⟩
  · rw [id]
    exact kept.id category inside
  · rw [List.map_map]
    refine List.Nodup.map_on (fun a inside b inside' same => ?_) kept.distinct.of_map
    exact List.inj_on_of_nodup_map kept.distinct inside inside' (names a inside b inside' same)

/-- The categories change, and every item has one that it may have. -/
theorem Drafted.recategorize {loose : Set (JsString × Place)} (drafted : Drafted loose state)
    (items : next.items = state.items) (nextItemId : next.nextItemId = state.nextItemId)
    (known : ∀ id ∈ state.categories.map (·.id), id ∈ next.categories.map (·.id))
    (live : ∀ item ∈ state.items, item.archivedAt = none → ∀ category ∈ next.categories,
      category.id = item.categoryId → category.archivedAt = none) : Drafted loose next := by
  refine ⟨items ▸ drafted.distinct, items ▸ drafted.ranked, fun item inside => ?_⟩
  rw [items] at inside
  have sound := drafted.sound item inside
  refine ⟨nextItemId ▸ sound.id, sound.done, sound.archived, live item inside, ?_⟩
  exact ⟨sound.stored.id, known _ sound.stored.category, sound.stored.markdown, sound.stored.due,
    sound.stored.questIds⟩

theorem Kept.createCategoryInState (kept : Kept locale state) {name : Option JsonValue}
    (done : createCategoryInState locale state name provenance = .ok next) :
    Moves locale state next := by
  simp only [Todos.createCategoryInState, ensureUniqueCategoryName, bind_eq_ok, refuse_eq_ok,
    exists_and_left, exists_const, pure_eq_ok] at done
  obtain ⟨name, named, unique, rfl⟩ := done
  have free : ∀ category ∈ state.categories,
      locale.toLocaleLowerCase category.name ≠ locale.toLocaleLowerCase name := by
    simpa using unique
  refine .inr ⟨⟨kept.items.recategorize rfl rfl (fun id listed => ?_)
    (fun item inside unarchived category listed same => ?_),
    kept.categories.append rfl free (normalizeCategoryName_ne_nil named) rfl⟩, rfl⟩
  · show id ∈ (state.categories ++ [_]).map TodoCategory.id
    rw [List.map_append]
    exact List.mem_append_left _ listed
  · rcases List.mem_append.mp listed with old | new
    · exact (kept.items.sound item inside).live unarchived category old same
    · obtain rfl := List.mem_singleton.mp new
      rfl

/-- A change of one category, which keeps its id. -/
theorem Kept.changeCategory (kept : Kept locale state) {change : TodoCategory → TodoCategory}
    (id : ∀ category, (change category).id = category.id)
    (names : ∀ category ∈ state.categories, ∀ other ∈ state.categories,
      category.id = categoryId → other.id ≠ categoryId →
        locale.toLocaleLowerCase other.name ≠ locale.toLocaleLowerCase (change category).name)
    (named : ∀ category ∈ state.categories, (change category).name ≠ [])
    (archived : ∀ category ∈ state.categories, (change category).archivedAt ≠ some 0)
    (live : ∀ item ∈ state.items, item.archivedAt = none → item.categoryId = categoryId →
      ∀ category ∈ state.categories, category.id = categoryId →
        (change category).archivedAt = none) :
    Moves locale state (changeCategory state categoryId provenance change) := by
  let touch (category : TodoCategory) : TodoCategory :=
    if category.id = categoryId then
      { change category with updatedAt := provenance.at_, lastModifiedBy := provenance.json }
    else category
  have touched (category : TodoCategory) : (touch category).id = category.id := by
    unfold touch
    split
    · exact id category
    · rfl
  have categories : CategoriesKept locale (state.categories.map touch) state.nextCategoryId := by
    refine kept.categories.map touched (fun a inside b inside' same => ?_)
      (fun category inside => ?_) (fun category inside => ?_)
    · by_cases mine : a.id = categoryId
      · by_cases other : b.id = categoryId
        · exact mine.trans other.symm
        · simp only [touch, if_pos mine, if_neg other] at same
          exact absurd same.symm (names a inside b inside' mine other)
      · by_cases other : b.id = categoryId
        · simp only [touch, if_neg mine, if_pos other] at same
          exact absurd same (names b inside' a inside other mine)
        · simp only [touch, if_neg mine, if_neg other] at same
          rw [List.inj_on_of_nodup_map kept.categories.names inside inside' same]
    · unfold touch
      split
      · exact named category inside
      · exact kept.categories.named category inside
    · unfold touch
      split
      · exact archived category inside
      · exact kept.categories.archived category inside
  refine .inr ⟨⟨kept.items.recategorize rfl rfl (fun id listed => ?_)
    (fun item inside unarchived category listed (same : category.id = _) => ?_), categories⟩, rfl⟩
  · obtain ⟨category, inside, rfl⟩ := List.mem_map.mp listed
    exact List.mem_map.mpr ⟨touch category, List.mem_map_of_mem inside, touched category⟩
  · obtain ⟨old, there, rfl⟩ := List.mem_map.mp listed
    have here : old.id = item.categoryId := (touched old).symm.trans same
    show (touch old).archivedAt = none
    unfold touch
    split
    · rename_i changed
      exact live item inside unarchived (here.symm.trans changed) old there changed
    · exact (kept.items.sound item inside).live unarchived old there here

theorem Kept.other_names (kept : Kept locale state) :
    ∀ category ∈ state.categories, ∀ other ∈ state.categories,
      category.id = categoryId → other.id ≠ categoryId →
        locale.toLocaleLowerCase other.name ≠ locale.toLocaleLowerCase category.name := by
  intro category inside other inside' mine different same
  have equal := List.inj_on_of_nodup_map kept.categories.names inside' inside same
  exact different (equal ▸ mine)

theorem Kept.renameCategory (kept : Kept locale state) {nameValue : Option JsonValue}
    (done : renameCategory locale state categoryId nameValue provenance = .ok next) :
    Moves locale state next := by
  simp only [Todos.renameCategory, ensureUniqueCategoryName, bind_eq_ok, refuse_eq_ok,
    exists_and_left, exists_const, pure_eq_ok] at done
  obtain ⟨old, found, name, named, unique, rfl⟩ := done
  have free : ∀ other ∈ state.categories, other.id ≠ categoryId →
      locale.toLocaleLowerCase other.name ≠ locale.toLocaleLowerCase name := by
    simpa using unique
  refine kept.changeCategory (fun _ => rfl) (fun _ _ other inside _ different => ?_)
    (fun _ _ => normalizeCategoryName_ne_nil named) kept.categories.archived
    (fun _ _ _ _ => (kept.live found).2)
  exact free other inside different

theorem Kept.archiveCategory (kept : Kept locale state) (positive : 0 < provenance.at_)
    (done : archiveCategory state categoryId provenance = .ok next) : Moves locale state next := by
  simp only [Todos.archiveCategory, bind_eq_ok, refuse_eq_ok, exists_and_left, exists_const,
    pure_eq_ok] at done
  obtain ⟨-, old, -, empty, rfl⟩ := done
  refine kept.changeCategory (fun _ => rfl) kept.other_names kept.categories.named
    (fun _ _ zero => positive.ne' (Option.some.inj zero)) ?_
  intro item inside unarchived here
  have counted := List.any_eq_false.mp empty item inside
  simp [here, unarchived, isTime] at counted

theorem Kept.restoreCategory (kept : Kept locale state)
    (done : restoreCategory state categoryId provenance = .ok next) : Moves locale state next := by
  simp only [Todos.restoreCategory, bind_eq_ok] at done
  obtain ⟨old, found, done⟩ := done
  split at done
  · cases done
    exact .inl rfl
  · cases done
    exact kept.changeCategory (fun _ => rfl) kept.other_names kept.categories.named
      (fun _ _ none => (by cases none)) fun _ _ _ _ _ _ _ => rfl

end Categories

end Takode.Todos
