import Takode.Todos.Undoing

/-!
# How a section is numbered

Where the ranks of a section are distinct multiples of the step, numbering it anew gives no item of
it a higher rank: an item at an index has at least the rank of that index.
-/

namespace Takode.Todos

open JsString

/-! ## The order of a section -/

theorem pairwise_insertionSort {α : Type} {r : α → α → Prop} [DecidableRel r] {key : α → ℚ}
    (before : ∀ a b, r a b → key a ≤ key b) (behind : ∀ a b, ¬ r a b → key b ≤ key a)
    (l : List α) : (l.insertionSort r).Pairwise fun a b => key a ≤ key b := by
  have inserted (a : α) (sorted : List α) (ordered : sorted.Pairwise fun a b => key a ≤ key b) :
      (sorted.orderedInsert r a).Pairwise fun a b => key a ≤ key b := by
    induction sorted with
    | nil => exact List.pairwise_singleton _ _
    | cons b rest ih =>
      obtain ⟨least, later⟩ := List.pairwise_cons.mp ordered
      rw [List.orderedInsert_cons]
      by_cases first : r a b
      · rw [if_pos first]
        refine List.pairwise_cons.mpr ⟨?_, ordered⟩
        intro c inside
        rcases List.mem_cons.mp inside with rfl | inside
        · exact before a c first
        · exact (before a b first).trans (least c inside)
      · rw [if_neg first]
        refine List.pairwise_cons.mpr ⟨?_, ih later⟩
        intro c inside
        rcases List.mem_cons.mp ((List.perm_orderedInsert r a rest).mem_iff.mp inside) with rfl | inside
        · exact behind c b first
        · exact least c inside
  induction l with
  | nil => exact List.Pairwise.nil
  | cons a rest ih =>
    rw [List.insertionSort_cons]
    exact inserted a _ ih

section Order

variable (locale : Locale) (state : TodoState) (place : JsString × Place)

theorem pairwise_sectionItems :
    (sectionItems locale state place).Pairwise fun a b => a.rank ≤ b.rank := by
  refine @pairwise_insertionSort _ _ _ TodoItem.rank ?_ ?_ _
  · intro a b first
    by_contra lower
    have greater : compare a.rank b.rank = .gt := compare_gt_iff_gt.mpr (not_le.mp lower)
    simp [compareRank, greater] at first
  · intro a b later
    by_contra lower
    have less : compare a.rank b.rank = .lt := compare_lt_iff_lt.mpr (not_le.mp lower)
    simp [compareRank, less] at later

theorem pairwise_sectionRanks :
    (sectionRanks locale state place).Pairwise fun a b => a.rank ≤ b.rank :=
  List.pairwise_map.mpr (pairwise_sectionItems locale state place)

variable {locale state place}

theorem mem_sectionRanks {entry : TodoRankSnapshot} :
    entry ∈ sectionRanks locale state place ↔
      ∃ item ∈ state.items, orderSection item = place ∧ entry = ⟨item.id, item.rank⟩ := by
  rw [sectionRanks, List.mem_map]
  constructor
  · rintro ⟨item, listed, rfl⟩
    obtain ⟨inside, here⟩ := (mem_sectionItems locale).mp listed
    exact ⟨item, inside, here, rfl⟩
  · rintro ⟨item, inside, here, rfl⟩
    exact ⟨item, (mem_sectionItems locale).mpr ⟨inside, here⟩, rfl⟩

theorem ranks_eq {first second : List TodoRankSnapshot}
    (ordered : first.Pairwise fun a b => a.rank ≤ b.rank)
    (ordered' : second.Pairwise fun a b => a.rank ≤ b.rank) (ids : (first.map (·.id)).Nodup)
    (ids' : (second.map (·.id)).Nodup) (ranks : (second.map (·.rank)).Nodup)
    (same : ∀ entry, entry ∈ first ↔ entry ∈ second) : first = second := by
  refine List.Perm.eq_of_pairwise ?_ ordered ordered' ?_
  · intro a b inside inside' le ge
    exact List.inj_on_of_nodup_map ranks ((same a).mp inside) inside' (le_antisymm le ge)
  · exact (List.perm_ext_iff_of_nodup ids.of_map ids'.of_map).mpr same

end Order

/-! ## Ranks that are multiples of the step -/

/-- The ranks of a section are distinct multiples of the step, but for one item perhaps. -/
structure NumberedBut (place : JsString × Place) (id : Option JsString) (items : List TodoItem) :
    Prop where
  steps : ∀ item ∈ items, orderSection item = place → some item.id ≠ id →
    ∃ k : Nat, item.rank = ((k + 1) * RANK_STEP : Nat)
  distinct : ∀ a ∈ items, ∀ b ∈ items, orderSection a = place → orderSection b = place →
    some a.id ≠ id → some b.id ≠ id → a.rank = b.rank → a.id = b.id

/-- What a draft does to the items: one is changed in any way, of the others nothing changes but
the rank, and in the section the rank does not rise. -/
def Lowered (place : JsString × Place) (id : JsString) (before after : List TodoItem) : Prop :=
  ∀ item ∈ before, ∃ changed ∈ after, changed.id = item.id ∧
    (item.id ≠ id → changed = { item with rank := changed.rank } ∧
      (orderSection item = place → changed.rank ≤ item.rank))

section Numbering

variable {locale : Locale} {state next : TodoState} {place there : JsString × Place}
variable {id : JsString} {before between after : List TodoItem}

theorem Lowered.trans (first : Lowered place id before between)
    (second : Lowered place id between after) : Lowered place id before after := by
  intro item inside
  obtain ⟨middle, listed, named, stays⟩ := first item inside
  obtain ⟨changed, listed', named', stays'⟩ := second middle listed
  refine ⟨changed, listed', named'.trans named, ?_⟩
  intro other
  obtain ⟨same, lower⟩ := stays other
  obtain ⟨same', lower'⟩ := stays' (named ▸ other)
  have kept : changed = { item with rank := changed.rank } := by
    rw [same', same]
  refine ⟨kept, ?_⟩
  intro here
  have here' : orderSection middle = place := by
    rw [same]
    exact here
  exact (lower' here').trans (lower here)

theorem rank_of_index {l : List TodoItem} {least : Nat}
    (increasing : l.Pairwise fun a b => a.rank < b.rank)
    (steps : ∀ item ∈ l, ∃ k : Nat, least ≤ k ∧ item.rank = ((k + 1) * RANK_STEP : Nat)) :
    ∀ (index : Nat) (item : TodoItem), l[index]? = some item →
      ∃ k : Nat, least + index ≤ k ∧ item.rank = ((k + 1) * RANK_STEP : Nat) := by
  induction l generalizing least with
  | nil =>
    intro index item found
    simp at found
  | cons first rest ih =>
    obtain ⟨lower, increasing⟩ := List.pairwise_cons.mp increasing
    obtain ⟨k, above, rank⟩ := steps first List.mem_cons_self
    intro index item found
    cases index with
    | zero =>
      obtain rfl : first = item := by simpa using found
      exact ⟨k, above, rank⟩
    | succ index =>
      have later : ∀ item ∈ rest, ∃ k : Nat, least + 1 ≤ k ∧
          item.rank = ((k + 1) * RANK_STEP : Nat) := by
        intro other inside
        obtain ⟨m, -, rank'⟩ := steps other (List.mem_cons_of_mem _ inside)
        have less := lower other inside
        rw [rank, rank', Nat.cast_lt] at less
        have less : k + 1 < m + 1 := Nat.lt_of_mul_lt_mul_right less
        exact ⟨m, by omega, rank'⟩
      obtain ⟨m, above, rank⟩ := ih increasing later index item (by simpa using found)
      exact ⟨m, by omega, rank⟩

theorem listedRank_le {front tail : List TodoItem}
    (increasing : front.Pairwise fun a b => a.rank < b.rank)
    (steps : ∀ item ∈ front, ∃ k : Nat, item.rank = ((k + 1) * RANK_STEP : Nat))
    {item : TodoItem} (inside : item ∈ front) :
    listedRank (front ++ tail) item ≤ item.rank := by
  obtain ⟨index, found⟩ := List.mem_iff_getElem?.mp inside
  obtain ⟨k, above, rank⟩ := @rank_of_index _ 0 increasing
    (fun other listed => (steps other listed).imp fun k rank => ⟨Nat.zero_le k, rank⟩) index item found
  have short : index < front.length := (List.getElem?_eq_some_iff.mp found).1
  unfold listedRank
  cases first : (front ++ tail).findIdx? fun listed => listed.id = item.id with
  | none => exact le_rfl
  | some i =>
    have earlier : i ≤ index := by
      by_contra later
      have missed := (List.findIdx?_eq_some_iff_getElem.mp first).2.2 index (by omega)
      rw [List.getElem_append_left short, (List.getElem?_eq_some_iff.mp found).2] at missed
      simp at missed
    show (((i + 1) * RANK_STEP : Nat) : ℚ) ≤ item.rank
    rw [rank, Nat.cast_le]
    exact Nat.mul_le_mul_right _ (by omega)

theorem numbered_rankItems {ordered : List TodoItem} (lists : Lists state place ordered) :
    NumberedBut place none (state.rankItems ordered).items := by
  rw [TodoState.rankItems_eq]
  have ranked (item : TodoItem) (inside : item ∈ state.items) (here : orderSection item = place) :
      ∃ i, (ordered.findIdx? fun listed => listed.id = item.id) = some i ∧
        listedRank ordered item = ((i + 1) * RANK_STEP : Nat) := by
    obtain ⟨listed, among, same⟩ := (lists item inside).mpr here
    have found : (ordered.findIdx? fun listed => listed.id = item.id).isSome = true := by
      rw [List.findIdx?_isSome, List.any_eq_true]
      exact ⟨listed, among, decide_eq_true same⟩
    obtain ⟨i, first⟩ := Option.isSome_iff_exists.mp found
    exact ⟨i, first, by simp [listedRank, first]⟩
  constructor
  · intro item listed here _
    obtain ⟨old, inside, rfl⟩ := List.mem_map.mp listed
    obtain ⟨i, -, rank⟩ := ranked old inside here
    exact ⟨i, rank⟩
  · intro a listed b listed' here here' _ _ equal
    obtain ⟨x, inside, rfl⟩ := List.mem_map.mp listed
    obtain ⟨y, inside', rfl⟩ := List.mem_map.mp listed'
    obtain ⟨i, first, rank⟩ := ranked x inside here
    obtain ⟨j, first', rank'⟩ := ranked y inside' here'
    have index : i = j := by
      have equal : listedRank ordered x = listedRank ordered y := equal
      rw [rank, rank'] at equal
      have ranks : (i + 1) * RANK_STEP = (j + 1) * RANK_STEP := Nat.cast_injective equal
      simpa [RANK_STEP] using ranks
    subst index
    have mine := (List.findIdx?_eq_some_iff_getElem.mp first).2.1
    have other := (List.findIdx?_eq_some_iff_getElem.mp first').2.1
    exact (of_decide_eq_true mine).symm.trans (of_decide_eq_true other)

theorem listedRank_of_notMem {ordered : List TodoItem} {item : TodoItem}
    (outside : ∀ listed ∈ ordered, listed.id ≠ item.id) :
    listedRank ordered item = item.rank := by
  have none : (ordered.findIdx? fun listed => listed.id = item.id) = none := by
    rw [List.findIdx?_eq_none_iff]
    intro listed among
    exact decide_eq_false (outside listed among)
  rw [listedRank, none]

theorem increasing_filter (distinct : (state.items.map (·.id)).Nodup)
    (numbered : NumberedBut place (some id) state.items) :
    ((sectionItems locale state place).filter fun item => item.id ≠ id).Pairwise
        (fun a b => a.rank < b.rank) ∧
      ∀ item ∈ (sectionItems locale state place).filter fun item => item.id ≠ id,
        ∃ k : Nat, item.rank = ((k + 1) * RANK_STEP : Nat) := by
  have listed {item : TodoItem}
      (inside : item ∈ (sectionItems locale state place).filter fun item => item.id ≠ id) :
      item ∈ state.items ∧ orderSection item = place ∧ some item.id ≠ some id := by
    obtain ⟨among, other⟩ := List.mem_filter.mp inside
    obtain ⟨inside, here⟩ := (mem_sectionItems locale).mp among
    exact ⟨inside, here, fun same => of_decide_eq_true other (Option.some.inj same)⟩
  constructor
  · have ids : (sectionItems locale state place).Nodup := by
      have filtered : (state.items.filter fun item => orderSection item = place).Nodup :=
        distinct.of_map.filter _
      exact (List.perm_insertionSort _ _).nodup_iff.mpr filtered
    have both := ((pairwise_sectionItems locale state place).and ids).filter
      fun item => item.id ≠ id
    refine both.imp_of_mem ?_
    rintro a b inside inside' ⟨le, different⟩
    refine lt_of_le_of_ne le ?_
    intro equal
    obtain ⟨inside, here, other⟩ := listed inside
    obtain ⟨inside', here', other'⟩ := listed inside'
    have same := numbered.distinct a inside b inside' here here' other other' equal
    exact different (List.inj_on_of_nodup_map distinct inside inside' same)
  · intro item inside
    obtain ⟨inside, here, other⟩ := listed inside
    exact numbered.steps item inside here other

theorem lowered_rankItems {ordered tail : List TodoItem}
    (distinct : (state.items.map (·.id)).Nodup)
    (numbered : NumberedBut place (some id) state.items)
    (lists : (∀ item ∈ state.items, orderSection item = place → item.id ≠ id →
        ∀ listed ∈ ordered, listed.id ≠ item.id) ∨
      ordered = ((sectionItems locale state place).filter fun item => item.id ≠ id) ++ tail) :
    Lowered place id state.items (state.rankItems ordered).items := by
  rw [TodoState.rankItems_eq]
  intro item inside
  refine ⟨{ item with rank := listedRank ordered item }, List.mem_map.mpr ⟨item, inside, rfl⟩, rfl, ?_⟩
  intro other
  refine ⟨rfl, ?_⟩
  intro here
  rcases lists with outside | rfl
  · exact (listedRank_of_notMem (outside item inside here other)).le
  · obtain ⟨increasing, steps⟩ := @increasing_filter locale _ _ _ distinct numbered
    refine listedRank_le increasing steps (List.mem_filter.mpr ⟨?_, decide_eq_true other⟩)
    exact (mem_sectionItems locale).mpr ⟨inside, here⟩

theorem numberedBut_rankItems {ordered : List TodoItem}
    (numbered : NumberedBut place (some id) state.items)
    (outside : ∀ item ∈ state.items, orderSection item = place → item.id ≠ id →
      ∀ listed ∈ ordered, listed.id ≠ item.id) :
    NumberedBut place (some id) (state.rankItems ordered).items := by
  rw [TodoState.rankItems_eq]
  have stays (item : TodoItem) (inside : item ∈ state.items) (here : orderSection item = place)
      (other : some item.id ≠ some id) : listedRank ordered item = item.rank :=
    listedRank_of_notMem (outside item inside here fun same => other (congrArg some same))
  constructor
  · intro item listed here other
    obtain ⟨old, inside, rfl⟩ := List.mem_map.mp listed
    obtain ⟨k, rank⟩ := numbered.steps old inside here other
    exact ⟨k, (stays old inside here other).trans rank⟩
  · intro a listed b listed' here here' other other' equal
    obtain ⟨x, inside, rfl⟩ := List.mem_map.mp listed
    obtain ⟨y, inside', rfl⟩ := List.mem_map.mp listed'
    refine numbered.distinct x inside y inside' here here' other other' ?_
    rw [← stays x inside here other, ← stays y inside' here' other']
    exact equal

theorem NumberedBut.weaken (numbered : NumberedBut place none before) (id : Option JsString) :
    NumberedBut place id before :=
  ⟨fun item inside here _ => numbered.steps item inside here fun same => (by cases same),
    fun a inside b inside' here here' _ _ =>
      numbered.distinct a inside b inside' here here' (fun same => (by cases same))
        fun same => (by cases same)⟩

/-- The item out of line is in another section. -/
theorem NumberedBut.whole (numbered : NumberedBut place (some id) before)
    (elsewhere : ∀ item ∈ before, item.id = id → orderSection item ≠ place) :
    NumberedBut place none before := by
  have other (item : TodoItem) (inside : item ∈ before) (here : orderSection item = place) :
      some item.id ≠ some id :=
    fun same => elsewhere item inside (Option.some.inj same) here
  constructor
  · intro item inside here _
    exact numbered.steps item inside here (other item inside here)
  · intro a inside b inside' here here' _ _
    exact numbered.distinct a inside b inside' here here' (other a inside here) (other b inside' here')

end Numbering

end Takode.Todos
