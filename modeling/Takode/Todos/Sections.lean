import Takode.Lib.Except
import Takode.Todos.Loading

/-!
# The sections of a to-do list

A change may leave one section without proper ranks for a while. `placeItem` numbers the section of
its item anew, and `reindexSection` another one; neither changes anything but ranks.
-/

namespace Takode.Todos

open JsString

@[simp] theorem refuse_eq_ok {condition : Bool} {code : TodoErrorCode} {message : JsString}
    {done : Unit} : refuse condition code message = .ok done ↔ condition = false := by
  cases condition <;> simp [refuse]

/-- The items of one section have different ranks, but for the sections in `loose`. -/
def RankedBut (loose : Set (JsString × Place)) (items : List TodoItem) : Prop :=
  ∀ a ∈ items, ∀ b ∈ items, orderSection a = orderSection b → orderSection a ∉ loose →
    a.rank = b.rank → a.id = b.id

/-- What holds of an item whatever its rank is. -/
structure TodoItem.Sound (categories : List TodoCategory) (nextItemId : Nat) (item : TodoItem) :
    Prop where
  id : ∃ n < nextItemId, item.id = js "td-" ++ decimal n
  done : item.completedAt.isSome = true ↔ item.status = .done
  archived : item.archivedAt ≠ some 0
  live : item.archivedAt = none →
    ∀ category ∈ categories, category.id = item.categoryId → category.archivedAt = none
  stored : item.Stored (categories.map (·.id))

/-- The items of a draft, of which the sections in `loose` have yet to be numbered. -/
structure Drafted (loose : Set (JsString × Place)) (state : TodoState) : Prop where
  distinct : (state.items.map (·.id)).Nodup
  ranked : RankedBut loose state.items
  sound : ∀ item ∈ state.items, item.Sound state.categories state.nextItemId

/-- The state with other ranks. -/
def TodoState.rerank (state : TodoState) (rank : TodoItem → ℚ) : TodoState :=
  { state with items := state.items.map fun item => { item with rank := rank item } }

theorem TodoItem.Sound.rerank {categories : List TodoCategory} {nextItemId : Nat}
    {item : TodoItem} (sound : item.Sound categories nextItemId) (rank : ℚ) :
    ({ item with rank } : TodoItem).Sound categories nextItemId :=
  ⟨sound.id, sound.done, sound.archived, sound.live,
    ⟨sound.stored.id, sound.stored.category, sound.stored.markdown, sound.stored.due,
      sound.stored.questIds⟩⟩

/-- The rank that an item of the list gets, and the one that another item keeps. -/
def listedRank (ordered : List TodoItem) (item : TodoItem) : ℚ :=
  match ordered.findIdx? fun listed => listed.id = item.id with
  | some index => ((index + 1) * RANK_STEP : Nat)
  | none => item.rank

theorem TodoState.rankItems_eq (state : TodoState) (ordered : List TodoItem) :
    state.rankItems ordered = state.rerank (listedRank ordered) := by
  unfold rankItems rerank listedRank
  congr 1
  refine List.map_congr_left fun item _ => ?_
  cases ordered.findIdx? fun listed => listed.id = item.id <;> rfl

section Ranks

variable {state : TodoState} {loose : Set (JsString × Place)} {place : JsString × Place}

theorem Drafted.rerank {rank : TodoItem → ℚ} {loose' : Set (JsString × Place)}
    (drafted : Drafted loose state)
    (ranked : ∀ a ∈ state.items, ∀ b ∈ state.items, orderSection a = orderSection b →
      orderSection a ∉ loose' → rank a = rank b → a.id = b.id) :
    Drafted loose' (state.rerank rank) := by
  refine ⟨?_, ?_, ?_⟩
  · have ids : (state.rerank rank).items.map (·.id) = state.items.map (·.id) := by
      simp [TodoState.rerank, Function.comp_def]
    rw [ids]
    exact drafted.distinct
  · intro a inside b inside'
    obtain ⟨a, listed, rfl⟩ := List.mem_map.mp inside
    obtain ⟨b, listed', rfl⟩ := List.mem_map.mp inside'
    exact ranked a listed b listed'
  · intro item inside
    obtain ⟨old, listed, rfl⟩ := List.mem_map.mp inside
    exact (drafted.sound old listed).rerank _

/-- A list names just the items of a section. -/
def Lists (state : TodoState) (place : JsString × Place) (ordered : List TodoItem) : Prop :=
  ∀ item ∈ state.items, (∃ listed ∈ ordered, listed.id = item.id) ↔ orderSection item = place

theorem Drafted.rankItems {ordered : List TodoItem} (drafted : Drafted (insert place loose) state)
    (lists : Lists state place ordered) : Drafted loose (state.rankItems ordered) := by
  rw [TodoState.rankItems_eq]
  refine drafted.rerank fun a inside b inside' same tight equal => ?_
  have found (item : TodoItem) (listed : item ∈ state.items) :
      (ordered.findIdx? fun other => other.id = item.id).isSome = true ↔
        orderSection item = place := by
    rw [List.findIdx?_isSome, List.any_eq_true, ← lists item listed]
    simp
  unfold listedRank at equal
  cases first : ordered.findIdx? fun listed => listed.id = a.id with
  | none =>
    have outside : orderSection a ≠ place := fun here => by
      simpa [first] using (found a inside).mpr here
    have outside' : orderSection b ≠ place := same ▸ outside
    cases second : ordered.findIdx? fun listed => listed.id = b.id with
    | none =>
      rw [first, second] at equal
      refine drafted.ranked a inside b inside' same (fun there => ?_) equal
      exact there.elim outside tight
    | some j => exact absurd ((found b inside').mp (by rw [second]; rfl)) outside'
  | some i =>
    have here : orderSection b = place := same ▸ (found a inside).mp (by rw [first]; rfl)
    obtain ⟨j, second⟩ := Option.isSome_iff_exists.mp ((found b inside').mpr here)
    rw [first, second] at equal
    have index : i = j := by
      have ranks : (i + 1) * RANK_STEP = (j + 1) * RANK_STEP := Nat.cast_injective equal
      simpa [RANK_STEP] using ranks
    subst index
    have mine := (List.findIdx?_eq_some_iff_getElem.mp first).2.1
    have other := (List.findIdx?_eq_some_iff_getElem.mp second).2.1
    exact (of_decide_eq_true mine).symm.trans (of_decide_eq_true other)

variable (locale : Locale)

theorem mem_sectionItems {item : TodoItem} :
    item ∈ sectionItems locale state place ↔ item ∈ state.items ∧ orderSection item = place := by
  rw [sectionItems, List.mem_insertionSort, List.mem_filter, decide_eq_true_eq]

theorem Drafted.eq_of_id (drafted : Drafted loose state) {a b : TodoItem} (inside : a ∈ state.items)
    (inside' : b ∈ state.items) (same : a.id = b.id) : a = b :=
  List.inj_on_of_nodup_map drafted.distinct inside inside' same

variable {locale}

theorem lists_sectionItems (distinct : (state.items.map (·.id)).Nodup) :
    Lists state place (sectionItems locale state place) := by
  intro item inside
  constructor
  · rintro ⟨listed, there, same⟩
    obtain ⟨inside', here⟩ := (mem_sectionItems locale).mp there
    exact List.inj_on_of_nodup_map distinct inside' inside same ▸ here
  · exact fun here => ⟨item, (mem_sectionItems locale).mpr ⟨inside, here⟩, rfl⟩

theorem Drafted.reindexSection (drafted : Drafted loose state) :
    Drafted loose (reindexSection locale state place) := by
  have looser : Drafted (insert place loose) state := by
    refine ⟨drafted.distinct, fun a inside b inside' same tight => ?_, drafted.sound⟩
    exact drafted.ranked a inside b inside' same fun there => tight (Set.mem_insert_of_mem _ there)
  exact looser.rankItems (lists_sectionItems drafted.distinct)

theorem reindexSection_eq (locale : Locale) (state : TodoState) (place : JsString × Place) :
    ∃ rank, reindexSection locale state place = state.rerank rank :=
  ⟨_, state.rankItems_eq _⟩

theorem itemById_eq_ok {itemId : JsString} {item : TodoItem}
    (found : state.itemById itemId = .ok item) : item ∈ state.items ∧ item.id = itemId := by
  unfold TodoState.itemById at found
  split at found
  · cases found
  · rename_i first
    cases found
    exact ⟨List.mem_of_find?_eq_some first, of_decide_eq_true (List.find?_some first :)⟩

theorem lists_of_mem {item : TodoItem} {ordered : List TodoItem}
    (distinct : (state.items.map (·.id)).Nodup)
    (there : ∃ listed ∈ state.items, listed.id = item.id ∧ orderSection listed = orderSection item)
    (members : ∀ listed, listed ∈ ordered ↔
      (listed ∈ sectionItems locale state (orderSection item) ∧ listed.id ≠ item.id) ∨
        listed = item) :
    Lists state (orderSection item) ordered := by
  intro other inside
  obtain ⟨own, listed, same, here⟩ := there
  by_cases equal : other.id = item.id
  · rw [List.inj_on_of_nodup_map distinct inside listed (equal.trans same.symm)]
    exact ⟨fun _ => here, fun _ => ⟨item, (members item).mpr (.inr rfl), same.symm⟩⟩
  · rw [← lists_sectionItems distinct other inside]
    constructor
    · rintro ⟨entry, among, id⟩
      rcases (members entry).mp among with ⟨sectioned, _⟩ | rfl
      · exact ⟨entry, sectioned, id⟩
      · exact absurd id.symm equal
    · rintro ⟨entry, sectioned, id⟩
      exact ⟨entry, (members entry).mpr (.inl ⟨sectioned, fun own => equal (id ▸ own)⟩), id⟩

theorem Drafted.placeItem {item : TodoItem} {beforeItemId afterItemId : Option JsString}
    {next : TodoState} (drafted : Drafted (insert (orderSection item) loose) state)
    (there : ∃ listed ∈ state.items, listed.id = item.id ∧ orderSection listed = orderSection item)
    (placed : placeItem locale state item beforeItemId afterItemId = .ok next) :
    Drafted loose next ∧ ∃ rank, next = state.rerank rank := by
  have numbered {ordered : List TodoItem} (members : ∀ listed, listed ∈ ordered ↔
      (listed ∈ sectionItems locale state (orderSection item) ∧ listed.id ≠ item.id) ∨
        listed = item) :
      Drafted loose (state.rankItems ordered) ∧
        ∃ rank, state.rankItems ordered = state.rerank rank :=
    ⟨drafted.rankItems (lists_of_mem drafted.distinct there members), _, state.rankItems_eq ordered⟩
  simp only [Todos.placeItem, bind_eq_ok, refuse_eq_ok, exists_and_left, exists_const] at placed
  obtain ⟨-, -, placed⟩ := placed
  split at placed
  · cases placed
    exact numbered fun listed => by simp
  · simp only [bind_eq_ok, refuse_eq_ok, exists_and_left, exists_const] at placed
    obtain ⟨-, reference, -, -, placed⟩ := placed
    split at placed
    · cases placed
    · cases placed
      refine numbered fun listed => ?_
      rw [List.mem_append, List.mem_cons, ← or_assoc, or_comm (a := listed ∈ List.take _ _), or_assoc,
        ← List.mem_append, List.take_append_drop, or_comm]
      simp

end Ranks

section Items

variable {state : TodoState} {loose loose' : Set (JsString × Place)} {item : TodoItem}
variable {change : TodoItem → TodoItem}

theorem Drafted.mem_updateItem (drafted : Drafted loose state) (inside : item ∈ state.items)
    {other : TodoItem} (listed : other ∈ (state.updateItem item.id change).items) :
    other = change item ∨ other ∈ state.items ∧ other.id ≠ item.id := by
  obtain ⟨old, there, rfl⟩ := List.mem_map.mp listed
  by_cases same : old.id = item.id
  · rw [if_pos same]
    exact .inl (congrArg change (drafted.eq_of_id there inside same))
  · rw [if_neg same]
    exact .inr ⟨there, same⟩

theorem TodoState.change_mem_updateItem (change : TodoItem → TodoItem) (inside : item ∈ state.items) :
    change item ∈ (state.updateItem item.id change).items :=
  List.mem_map.mpr ⟨item, inside, if_pos rfl⟩

theorem Drafted.updateItem (drafted : Drafted loose state) (inside : item ∈ state.items)
    (id : (change item).id = item.id)
    (sound : (change item).Sound state.categories state.nextItemId)
    (settled : orderSection (change item) ∈ loose' ∨
      orderSection (change item) = orderSection item ∧ (change item).rank = item.rank)
    (weaker : loose ⊆ loose') : Drafted loose' (state.updateItem item.id change) := by
  refine ⟨?_, ?_, ?_⟩
  · have ids : (state.updateItem item.id change).items.map (·.id) = state.items.map (·.id) := by
      rw [TodoState.updateItem, List.map_map]
      refine List.map_congr_left fun other listed => ?_
      by_cases same : other.id = item.id
      · obtain rfl := drafted.eq_of_id listed inside same
        simpa using id
      · simp [same]
    rw [ids]
    exact drafted.distinct
  · intro a listed b listed' same tight equal
    have before (c : TodoItem) (there : c ∈ (state.updateItem item.id change).items)
        (tight : orderSection c ∉ loose') :
        ∃ old ∈ state.items, old.id = c.id ∧ orderSection old = orderSection c ∧
          old.rank = c.rank := by
      rcases drafted.mem_updateItem inside there with rfl | ⟨there, _⟩
      · rcases settled with here | ⟨stays, rank⟩
        · exact absurd here tight
        · exact ⟨item, inside, id.symm, stays.symm, rank.symm⟩
      · exact ⟨c, there, rfl, rfl, rfl⟩
    obtain ⟨x, old, id, here, rank⟩ := before a listed tight
    obtain ⟨y, old', id', here', rank'⟩ := before b listed' (same ▸ tight)
    rw [← id, ← id']
    refine drafted.ranked x old y old' (here.trans (same.trans here'.symm)) (fun there => ?_)
      (rank.trans (equal.trans rank'.symm))
    exact tight (weaker (here ▸ there))
  · intro other listed
    rcases drafted.mem_updateItem inside listed with rfl | ⟨there, _⟩
    · exact sound
    · exact drafted.sound other there

theorem Drafted.touchState (drafted : Drafted loose state) (now : ℚ) :
    Drafted loose (state.touchState now) := ⟨drafted.distinct, drafted.ranked, drafted.sound⟩

theorem TodoItem.Sound.record {categories : List TodoCategory} {nextItemId : Nat}
    (sound : item.Sound categories nextItemId) (updatedAt : ℚ) (lastModifiedBy : JsonValue) :
    ({ item with updatedAt, lastModifiedBy } : TodoItem).Sound categories nextItemId :=
  ⟨sound.id, sound.done, sound.archived, sound.live,
    ⟨sound.stored.id, sound.stored.category, sound.stored.markdown, sound.stored.due,
      sound.stored.questIds⟩⟩

theorem Drafted.recordItemChange (drafted : Drafted loose state) (inside : item ∈ state.items)
    (provenance : TodoMutationProvenance) :
    Drafted loose (state.recordItemChange item.id provenance) := by
  refine (drafted.updateItem inside rfl ?_ (.inr ⟨rfl, rfl⟩) subset_rfl).touchState _
  exact (drafted.sound item inside).record _ _

theorem TodoState.rerank_rerank (state : TodoState) (rank rank' : TodoItem → ℚ) :
    ∃ both, (state.rerank rank).rerank rank' = state.rerank both := by
  refine ⟨fun item => rank' { item with rank := rank item }, ?_⟩
  simp [rerank, Function.comp_def]

theorem TodoState.mem_rerank (rank : TodoItem → ℚ) (inside : item ∈ state.items) :
    { item with rank := rank item } ∈ (state.rerank rank).items :=
  List.mem_map.mpr ⟨item, inside, rfl⟩

variable {locale : Locale}

/-- A changed item is put into its new section, if it is another one. -/
theorem Drafted.resettle {next : TodoState} (drafted : Drafted loose state)
    (inside : item ∈ state.items) (id : (change item).id = item.id)
    (rank : (change item).rank = item.rank)
    (sound : (change item).Sound state.categories state.nextItemId)
    (settled : resettle locale (state.updateItem item.id change) item (change item) = .ok next) :
    Drafted loose next ∧ ∃ rank, next = (state.updateItem item.id change).rerank rank := by
  unfold Todos.resettle at settled
  split at settled
  · have updated : Drafted (insert (orderSection (change item)) loose)
        (state.updateItem item.id change) :=
      drafted.updateItem inside id sound (.inl (Set.mem_insert _ _)) (Set.subset_insert _ _)
    obtain ⟨first, reindexed⟩ :=
      reindexSection_eq locale (state.updateItem item.id change) (orderSection item)
    have there := TodoState.mem_rerank first (TodoState.change_mem_updateItem change inside)
    rw [← reindexed] at there
    obtain ⟨placed, second, same⟩ := updated.reindexSection.placeItem ⟨_, there, rfl, rfl⟩ settled
    obtain ⟨both, equal⟩ := (state.updateItem item.id change).rerank_rerank first second
    exact ⟨placed, both, by rw [same, reindexed, equal]⟩
  · rename_i stays
    cases settled
    refine ⟨drafted.updateItem inside id sound (.inr ⟨?_, rank⟩) subset_rfl, (·.rank), ?_⟩
    · exact (not_not.mp stays).symm
    · simp [TodoState.rerank]

end Items

end Takode.Todos
