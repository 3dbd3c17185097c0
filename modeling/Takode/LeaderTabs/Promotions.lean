import Takode.LeaderTabs.Tabs

/-!
# Promotions

The record of promotions keeps the two hundred latest. Of equally late ones that the locale does not
tell apart, those stay that the record lists first, so a promotion that was dropped is dropped again.
-/

namespace Takode.LeaderTabs

open JsString

/-! ## Orders of two -/

section

variable {α : Type} {a b : α} {l m : List α}

theorem pair_sublist_append : [a, b].Sublist (l ++ m) ↔
    [a, b].Sublist l ∨ (a ∈ l ∧ b ∈ m) ∨ [a, b].Sublist m := by
  constructor
  · intro pair
    obtain ⟨first, second, same, left, right⟩ := List.sublist_append_iff.mp pair
    match first, same with
    | [], same => exact .inr (.inr (same ▸ right))
    | [_], same =>
      rw [List.singleton_append] at same
      obtain ⟨rfl, rest⟩ := List.cons.inj same
      exact .inr (.inl ⟨List.singleton_sublist.mp left, List.singleton_sublist.mp (rest ▸ right)⟩)
    | [_, _], same =>
      obtain ⟨rfl, rest⟩ := List.cons.inj same
      obtain ⟨rfl, -⟩ := List.cons.inj rest
      exact .inl left
    | _ :: _ :: _ :: _, same => cases congrArg List.length same
  · rintro (first | ⟨left, right⟩ | second)
    · exact first.trans (List.sublist_append_left l m)
    · exact (List.singleton_sublist.mpr left).append (List.singleton_sublist.mpr right)
    · exact second.trans (List.sublist_append_right l m)

theorem not_pair_sublist {before after : List α} (distinct : (before ++ a :: after).Nodup) (later : b ∈ after) :
    ¬ [b, a].Sublist (before ++ a :: after) := by
  obtain ⟨-, rest, apart⟩ := List.nodup_append.mp distinct
  have fresh : a ∉ after := (List.nodup_cons.mp rest).1
  rw [pair_sublist_append]
  rintro (pair | ⟨early, -⟩ | pair)
  · exact apart a (pair.subset (by simp)) a List.mem_cons_self rfl
  · exact apart b early b (List.mem_cons_of_mem a later) rfl
  · cases pair with
    | cons _ pair => exact fresh (pair.subset (by simp))
    | cons_cons _ _ => exact fresh later

theorem pair_sublist_or (distinct : l.Nodup) (left : a ∈ l) (right : b ∈ l) (other : a ≠ b) :
    [a, b].Sublist l ∨ [b, a].Sublist l := by
  obtain ⟨before, after, rfl⟩ := List.append_of_mem left
  obtain early | late := List.mem_append.mp right
  · exact .inr (pair_sublist_append.mpr (.inr (.inl ⟨early, List.mem_cons_self⟩)))
  · obtain rfl | late := List.mem_cons.mp late
    · exact absurd rfl other
    · exact .inl (((List.singleton_sublist.mpr late).cons_cons a).trans (List.sublist_append_right _ _))

theorem last_mergeSort {le : α → α → Bool} (trans : ∀ a b c, le a b → le b c → le a c)
    (total : ∀ a b, le a b || le b a) {init : List α} (distinct : m.Nodup) (sorted : l.mergeSort le = init ++ [a])
    (distinctBefore : l.Nodup) (same : ∀ b, b ∈ m ↔ b ∈ l)
    (order : ∀ b ∈ l, [b, a].Sublist l → [b, a].Sublist m) :
    ∃ init', m.mergeSort le = init' ++ [a] := by
  have permL := List.mergeSort_perm l le
  rw [sorted] at permL
  have inL : a ∈ l := permL.mem_iff.mp (List.mem_append_right init (List.mem_singleton_self a))
  have member : a ∈ m.mergeSort le := (List.mergeSort_perm m le).mem_iff.mpr ((same a).mpr inL)
  obtain ⟨before, after, split⟩ := List.append_of_mem member
  cases after with
  | nil => exact ⟨before, split⟩
  | cons b after =>
    -- `b` would come after `a`; but it is as early as `a`, and is listed first.
    have distinct' : (before ++ a :: b :: after).Nodup := split ▸ (List.mergeSort_perm m le).nodup_iff.mpr distinct
    have permM := List.mergeSort_perm m le
    rw [split] at permM
    have listed : b ∈ l := (same b).mp (permM.mem_iff.mp (List.mem_append_right before (by simp)))
    have other : a ≠ b := by
      rintro rfl
      simp [List.nodup_append] at distinct'
    have sortedNodup : (init ++ [a]).Nodup := permL.nodup_iff.mpr distinctBefore
    have early : b ∈ init := by
      obtain inside | last := List.mem_append.mp (permL.mem_iff.mpr listed)
      · exact inside
      · exact absurd (List.mem_singleton.mp last).symm other
    have ba : le b a := by
      have pairwise := List.pairwise_mergeSort trans total l
      rw [sorted, List.pairwise_append] at pairwise
      exact pairwise.2.2 b early a (List.mem_singleton_self a)
    have ab : le a b := by
      have pairwise := List.pairwise_mergeSort trans total m
      rw [split, List.pairwise_append, List.pairwise_cons] at pairwise
      exact pairwise.2.1.1 b List.mem_cons_self
    obtain pair | pair := pair_sublist_or distinctBefore inL listed other
    · -- Then `a` would come before `b` in the sorted list too.
      have pair' := List.pair_sublist_mergeSort trans total ab pair
      obtain ⟨first, rest, same⟩ := List.append_of_mem early
      rw [sorted, same, List.append_assoc, List.cons_append] at pair'
      rw [same, List.append_assoc, List.cons_append] at sortedNodup
      exact absurd pair' (not_pair_sublist sortedNodup (by simp))
    · have pair' := List.pair_sublist_mergeSort trans total ba (order b listed pair)
      rw [split] at pair'
      exact absurd pair' (not_pair_sublist distinct' List.mem_cons_self)

end

/-! ## Records -/

section

variable {α : Type} {r r' : Record α} {k j : JsString} {v : α}

theorem ownKeys_order (absent : r.get? k = none) (absent' : r'.get? k = none) (there' : j ∈ r'.keys)
    (order : [j, k].Sublist (Record.ownKeys (r.set k v))) : [j, k].Sublist (Record.ownKeys (r'.set k v)) := by
  have fresh : k ∉ r.keys := by simp [JsMap.mem_keys, absent]
  have other : j ≠ k := by
    rintro rfl
    simp [JsMap.mem_keys, absent'] at there'
  have pair : [j, k].Sublist (r'.keys ++ [k]) := pair_sublist_append.mpr (.inr (.inl ⟨there', List.mem_singleton_self k⟩))
  rw [Record.ownKeys, JsMap.keys_set_of_absent absent, pair_sublist_append] at order
  rw [Record.ownKeys, JsMap.keys_set_of_absent absent', pair_sublist_append]
  cases index : k.isArrayIndex with
  | false =>
    cases indexJ : j.isArrayIndex with
    | true =>
      refine .inr (.inl ⟨(List.mem_insertionSort _).mpr (List.mem_filter.mpr ?_), List.mem_filter.mpr ?_⟩)
      · exact ⟨List.mem_append_left _ there', indexJ⟩
      · exact ⟨by simp, by simp [index]⟩
    | false =>
      have filtered := pair.filter fun key => !key.isArrayIndex
      simp only [List.filter_cons, index, indexJ, Bool.not_false, if_true, List.filter_nil] at filtered
      exact .inr (.inr filtered)
  | true =>
    obtain sorted | ⟨-, last⟩ | rest := order
    · have members := sorted.subset
      have indexJ : j.isArrayIndex = true :=
        (List.mem_filter.mp ((List.mem_insertionSort _).mp (members List.mem_cons_self))).2
      have le := (List.pairwise_insertionSort (r := fun a b : JsString => a.digitsValue ≤ b.digitsValue)
        ((r.keys ++ [k]).filter JsString.isArrayIndex)).sublist sorted
      rw [List.pairwise_pair] at le
      have filtered := pair.filter JsString.isArrayIndex
      simp only [List.filter_cons, index, indexJ, if_true, List.filter_nil] at filtered
      exact .inl (List.pair_sublist_insertionSort le filtered)
    · simp [index] at last
    · have last : k ∈ (r.keys ++ [k]).filter fun key => !key.isArrayIndex := rest.subset (by simp)
      simp [index] at last

theorem ownEntries_order {u v : α} (present : r.get? j = some u) (present' : r.get? k = some v) :
    [(j, u), (k, v)].Sublist r.ownEntries ↔ [j, k].Sublist r.ownKeys := by
  constructor
  · intro pair
    rw [← Record.map_fst_ownEntries]
    exact pair.map Prod.fst
  · intro pair
    have mapped := pair.filterMap fun k => (r.get? k).map fun a => (k, a)
    rw [Record.ownEntries]
    simpa [present, present'] using mapped

theorem nodup_ownEntries : r.ownEntries.Nodup :=
  List.Nodup.of_map Prod.fst (Record.map_fst_ownEntries r ▸ Record.ownKeys_nodup r)

theorem length_ownEntries : r.ownEntries.length = r.size := by
  have keys : r.ownKeys.length = r.keys.length := by
    rw [Record.ownKeys, List.length_append, List.length_insertionSort]
    have split := List.length_eq_countP_add_countP JsString.isArrayIndex (l := r.keys)
    rw [List.countP_eq_length_filter, List.countP_eq_length_filter] at split
    have same : (r.keys.filter fun k => decide ¬ k.isArrayIndex = true) = r.keys.filter fun k => !k.isArrayIndex :=
      List.filter_congr fun k _ => by simp
    rw [same] at split
    exact split.symm
  rw [← List.length_map Prod.fst, Record.map_fst_ownEntries, keys, JsMap.size_eq_length_keys]

end

/-! ## The latest promotions -/

section

variable (localeCompare : JsString → JsString → Ordering)

/-- The latest two hundred. -/
def bounded (r : Record ℚ) : Record ℚ :=
  .ofEntries ((r.ownEntries.mergeSort (promotedBefore localeCompare)).take MAX_LEADER_SERVER_CANDIDATE_PROMOTIONS)

variable {localeCompare} {lc : LowerCase} {r : Record ℚ} {key : JsString} {t : ℚ}

theorem sorted_distinct (r : Record ℚ) (n : Nat) :
    (((r.ownEntries.mergeSort (promotedBefore localeCompare)).take n).map Prod.fst).Nodup := by
  have keys : (r.ownEntries.map Prod.fst).Nodup := Record.map_fst_ownEntries r ▸ Record.ownKeys_nodup r
  have sorted := ((List.mergeSort_perm r.ownEntries (promotedBefore localeCompare)).map Prod.fst).nodup_iff.mpr keys
  exact ((List.take_sublist n _).map Prod.fst).nodup sorted

theorem get?_bounded : (bounded localeCompare r).get? key = some t ↔
    (key, t) ∈ (r.ownEntries.mergeSort (promotedBefore localeCompare)).take MAX_LEADER_SERVER_CANDIDATE_PROMOTIONS :=
  Record.get?_ofEntries (sorted_distinct r _)

theorem get?_of_bounded (kept : (bounded localeCompare r).get? key = some t) : r.get? key = some t := by
  have inside := List.mem_of_mem_take (get?_bounded.mp kept)
  exact Record.mem_ownEntries.mp (List.mem_mergeSort.mp inside)

theorem size_bounded : (bounded localeCompare r).size = min MAX_LEADER_SERVER_CANDIDATE_PROMOTIONS r.size := by
  rw [JsMap.size, bounded, Record.entries_ofEntries (sorted_distinct r _), List.length_take, List.length_mergeSort,
    length_ownEntries]

theorem get?_bounded_of_few (few : r.size ≤ MAX_LEADER_SERVER_CANDIDATE_PROMOTIONS) (key : JsString) :
    (bounded localeCompare r).get? key = r.get? key := by
  refine Option.ext fun t => ?_
  rw [get?_bounded, List.take_of_length_le, List.mem_mergeSort, Record.mem_ownEntries]
  rwa [List.length_mergeSort, length_ownEntries]

theorem normalizeServerCandidatePromotedAt_eq (valid : ∀ {key t}, r.get? key = some t → Tab lc key ∧ 0 ≤ t) :
    normalizeServerCandidatePromotedAt lc localeCompare (some (promotionsToJson r)) = bounded localeCompare r := by
  rw [promotionsToJson, normalizeServerCandidatePromotedAt]
  simp only [JsonValue.entries_object r number]
  refine congrArg (fun entries : List (JsString × ℚ) => Record.ofEntries ((entries.mergeSort
    (promotedBefore localeCompare)).take MAX_LEADER_SERVER_CANDIDATE_PROMOTIONS)) ?_
  rw [List.filterMap_map]
  refine (List.filterMap_congr fun entry inside => ?_).trans List.filterMap_some
  obtain ⟨tab, positive⟩ := valid (Record.mem_ownEntries.mp (show (entry.1, entry.2) ∈ _ from inside))
  simp [tab.normalized, tab.persists, validTimestamp, number, max_eq_right positive]

variable [Std.TransCmp localeCompare]

theorem promotedBefore_trans (a b c : JsString × ℚ) (first : promotedBefore localeCompare a b)
    (second : promotedBefore localeCompare b c) : promotedBefore localeCompare a c := by
  simp only [promotedBefore, Bool.or_eq_true, Bool.and_eq_true, decide_eq_true_eq, ← Ordering.isLE_iff_ne_gt] at *
  obtain later | ⟨same, before⟩ := first <;> obtain later' | ⟨same', before'⟩ := second
  · exact .inl (later'.trans later)
  · exact .inl (same' ▸ later)
  · exact .inl (same ▸ later')
  · exact .inr ⟨same'.trans same, Std.TransCmp.isLE_trans before before'⟩

theorem promotedBefore_total (a b : JsString × ℚ) :
    promotedBefore localeCompare a b || promotedBefore localeCompare b a := by
  simp only [promotedBefore, Bool.or_eq_true, Bool.and_eq_true, decide_eq_true_eq]
  obtain earlier | same | later := lt_trichotomy a.2 b.2
  · exact .inr (.inl earlier)
  · by_cases after : localeCompare a.1 b.1 = .gt
    · refine .inr (.inr ⟨same, ?_⟩)
      rw [Std.OrientedCmp.lt_of_gt after]
      nofun
    · exact .inl (.inr ⟨same.symm, after⟩)
  · exact .inl (.inl later)

omit [Std.TransCmp localeCompare] in
theorem eq_take_append {α : Type} {l : List α} {a : α} {n : Nat} (length : l.length = n + 1) (inside : a ∈ l)
    (dropped : a ∉ l.take n) : l = l.take n ++ [a] := by
  have rest : (l.drop n).length = 1 := by
    rw [List.length_drop, length]
    omega
  obtain ⟨b, one⟩ := List.length_eq_one_iff.mp rest
  have whole := List.take_append_drop n l
  rw [one] at whole
  rw [← whole] at inside
  obtain taken | last := List.mem_append.mp inside
  · exact absurd taken dropped
  · rw [List.mem_singleton.mp last]
    exact whole.symm

omit [Std.TransCmp localeCompare] in
theorem mem_init {r : Record ℚ} {init : List (JsString × ℚ)} (absent : r.get? key = none)
    (sorted : (Record.ownEntries (r.set key t)).mergeSort (promotedBefore localeCompare) = init ++ [(key, t)])
    (j : JsString) (u : ℚ) : (j, u) ∈ init ↔ r.get? j = some u := by
  have member : ∀ e, e ∈ init ++ [(key, t)] ↔ e ∈ Record.ownEntries (r.set key t) :=
    fun e => by rw [← sorted, List.mem_mergeSort]
  constructor
  · intro inside
    have entry := Record.mem_ownEntries.mp ((member _).mp (List.mem_append_left _ inside))
    rw [JsMap.get?_set] at entry
    split at entry
    · next own =>
      cases entry
      subst own
      have distinct : (init ++ [(j, t)]).Nodup :=
        sorted ▸ (List.mergeSort_perm _ _).nodup_iff.mpr nodup_ownEntries
      exact absurd rfl ((List.nodup_append.mp distinct).2.2 _ inside _ (List.mem_singleton_self _))
    · exact entry
  · intro present
    have other : j ≠ key := by
      rintro rfl
      simp [absent] at present
    have entry := (member (j, u)).mpr (Record.mem_ownEntries.mpr (by rw [JsMap.get?_set_of_ne other, present]))
    obtain inside | same := List.mem_append.mp entry
    · exact inside
    · cases List.mem_singleton.mp same
      exact absurd rfl other

omit [Std.TransCmp localeCompare] in
theorem of_dropped (few : r.size ≤ MAX_LEADER_SERVER_CANDIDATE_PROMOTIONS)
    (dropped : (bounded localeCompare (r.set key t)).get? key = none) :
    r.get? key = none ∧ ∃ init, init.length = MAX_LEADER_SERVER_CANDIDATE_PROMOTIONS ∧
      (Record.ownEntries (r.set key t)).mergeSort (promotedBefore localeCompare) = init ++ [(key, t)] := by
  have full : MAX_LEADER_SERVER_CANDIDATE_PROMOTIONS < (r.set key t).size := by
    by_contra room
    rw [get?_bounded_of_few (Nat.not_lt.mp room), JsMap.get?_set_self] at dropped
    cases dropped
  have absent : r.get? key = none := by
    rw [← JsMap.has_eq_false, ← Bool.not_eq_true, JsMap.has_eq_true]
    rintro ⟨u, present⟩
    have same : (r.set key t).size = r.size := by
      rw [JsMap.size_eq_length_keys, JsMap.keys_set_of_present present, ← JsMap.size_eq_length_keys]
    omega
  have size : (r.set key t).size = MAX_LEADER_SERVER_CANDIDATE_PROMOTIONS + 1 := by
    have more := JsMap.size_set_le (m := r) (k := key) (v := t)
    omega
  have own : (key, t) ∈ Record.ownEntries (r.set key t) := Record.mem_ownEntries.mpr JsMap.get?_set_self
  generalize sorted : (Record.ownEntries (r.set key t)).mergeSort (promotedBefore localeCompare) = s
  have length : s.length = MAX_LEADER_SERVER_CANDIDATE_PROMOTIONS + 1 := by
    rw [← sorted, List.length_mergeSort, length_ownEntries, size]
  have notTaken : (key, t) ∉ s.take MAX_LEADER_SERVER_CANDIDATE_PROMOTIONS := by
    intro inside
    rw [← sorted, ← get?_bounded, dropped] at inside
    cases inside
  have inside : (key, t) ∈ s := by rwa [← sorted, List.mem_mergeSort]
  refine ⟨absent, s.take MAX_LEADER_SERVER_CANDIDATE_PROMOTIONS, ?_, eq_take_append length inside notTaken⟩
  rw [List.length_take, length, Nat.min_eq_left (Nat.le_succ _)]

omit [Std.TransCmp localeCompare] in
theorem get?_bounded_of_last {init : List (JsString × ℚ)} (absent : r.get? key = none)
    (length : init.length = MAX_LEADER_SERVER_CANDIDATE_PROMOTIONS)
    (sorted : (Record.ownEntries (r.set key t)).mergeSort (promotedBefore localeCompare) = init ++ [(key, t)])
    (j : JsString) : (bounded localeCompare (r.set key t)).get? j = r.get? j := by
  refine Option.ext fun u => ?_
  rw [get?_bounded, sorted, ← length, List.take_left, mem_init absent sorted]

theorem bounded_set_again (few : r.size ≤ MAX_LEADER_SERVER_CANDIDATE_PROMOTIONS)
    (dropped : (bounded localeCompare (r.set key t)).get? key = none) (other : JsString) :
    (bounded localeCompare ((bounded localeCompare (r.set key t)).set key t)).get? other =
      (bounded localeCompare (r.set key t)).get? other := by
  obtain ⟨absent, init, length, sorted⟩ := of_dropped few dropped
  have others := get?_bounded_of_last absent length sorted
  generalize bounded localeCompare (r.set key t) = r' at dropped others
  have same : ∀ e, e ∈ Record.ownEntries (r'.set key t) ↔ e ∈ Record.ownEntries (r.set key t) := by
    rintro ⟨j, u⟩
    rw [Record.mem_ownEntries, Record.mem_ownEntries, JsMap.get?_set, JsMap.get?_set, others]
  have order : ∀ e ∈ Record.ownEntries (r.set key t), [e, (key, t)].Sublist (Record.ownEntries (r.set key t)) →
      [e, (key, t)].Sublist (Record.ownEntries (r'.set key t)) := by
    rintro ⟨j, u⟩ listed pair
    have present := Record.mem_ownEntries.mp listed
    have present' := Record.mem_ownEntries.mp ((same _).mpr listed)
    by_cases own : j = key
    · subst own
      rw [JsMap.get?_set_self] at present
      cases present
      exact absurd (pair.nodup nodup_ownEntries) (by simp)
    · have there : j ∈ r'.keys := by
        rw [JsMap.get?_set_of_ne own] at present'
        exact JsMap.mem_keys.mpr ⟨u, present'⟩
      rw [ownEntries_order present JsMap.get?_set_self] at pair
      rw [ownEntries_order present' JsMap.get?_set_self]
      exact ownKeys_order absent dropped there pair
  obtain ⟨init', sorted'⟩ := last_mergeSort promotedBefore_trans promotedBefore_total nodup_ownEntries sorted
    nodup_ownEntries same order
  have length' : init'.length = MAX_LEADER_SERVER_CANDIDATE_PROMOTIONS := by
    have perm := (List.perm_ext_iff_of_nodup nodup_ownEntries nodup_ownEntries).mpr same
    have whole := ((List.mergeSort_perm _ (promotedBefore localeCompare)).trans perm).trans
      (List.mergeSort_perm _ (promotedBefore localeCompare)).symm
    rw [sorted, sorted'] at whole
    have lengths := whole.length_eq
    rw [List.length_append, List.length_append] at lengths
    omega
  exact get?_bounded_of_last dropped length' sorted' other

end

end Takode.LeaderTabs
