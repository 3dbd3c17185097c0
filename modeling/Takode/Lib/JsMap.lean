import Mathlib.Data.List.Nodup
import Mathlib.Data.List.Basic

/-!
# Insertion-ordered maps

The JavaScript `Map`: distinct keys, iterated in the order in which they were
first set; setting a key that is present keeps its place. The entries carry the
proof that the keys are distinct.
-/

namespace Takode

universe u v w

/-- An insertion-ordered map with distinct keys. -/
structure JsMap (κ : Type u) (α : Type v) where
  entries : List (κ × α)
  nodup : (entries.map Prod.fst).Nodup

namespace JsMap

variable {κ : Type u} {α : Type v} {β : Type w}

@[ext] theorem ext {m n : JsMap κ α} (same : m.entries = n.entries) : m = n := by
  cases m
  cases n
  cases same
  rfl

def empty : JsMap κ α := ⟨[], List.nodup_nil⟩

instance : EmptyCollection (JsMap κ α) := ⟨empty⟩
instance : Inhabited (JsMap κ α) := ⟨empty⟩

instance [DecidableEq κ] [DecidableEq α] : DecidableEq (JsMap κ α) := fun m n =>
  decidable_of_iff (m.entries = n.entries) ⟨ext, fun same => congrArg entries same⟩

def keys (m : JsMap κ α) : List κ := m.entries.map Prod.fst
def values (m : JsMap κ α) : List α := m.entries.map Prod.snd
def size (m : JsMap κ α) : Nat := m.entries.length

section Lookup

variable [DecidableEq κ]

/-- The first value listed under a key. -/
def find (k : κ) : List (κ × α) → Option α
  | [] => none
  | e :: rest => if e.1 = k then some e.2 else find k rest

/-- `Map.get`. -/
def get? (m : JsMap κ α) (k : κ) : Option α := find k m.entries

/-- `Map.has`. -/
def has (m : JsMap κ α) (k : κ) : Bool := (m.get? k).isSome

/-- The entries with `k` set to `v`, in place or at the end. -/
def put (k : κ) (v : α) : List (κ × α) → List (κ × α)
  | [] => [(k, v)]
  | e :: rest => if e.1 = k then (k, v) :: rest else e :: put k v rest

theorem mem_put_keys {k k' : κ} {v : α} {l : List (κ × α)} :
    k' ∈ (put k v l).map Prod.fst ↔ k' = k ∨ k' ∈ l.map Prod.fst := by
  induction l with
  | nil => simp [put]
  | cons e rest ih =>
    by_cases same : e.1 = k
    · subst same
      simp [put]
    · simp only [put, same, if_false, List.map_cons, List.mem_cons, ih]
      tauto

theorem nodup_put {k : κ} {v : α} {l : List (κ × α)} (distinct : (l.map Prod.fst).Nodup) :
    ((put k v l).map Prod.fst).Nodup := by
  induction l with
  | nil => simp [put]
  | cons e rest ih =>
    have split := List.nodup_cons.mp distinct
    by_cases same : e.1 = k
    · subst same
      simpa [put] using split
    · simp only [put, same, if_false, List.map_cons, List.nodup_cons, mem_put_keys, not_or]
      exact ⟨⟨not_false, split.1⟩, ih split.2⟩

/-- `Map.set`. -/
def set (m : JsMap κ α) (k : κ) (v : α) : JsMap κ α := ⟨put k v m.entries, nodup_put m.nodup⟩

end Lookup

/-- The entries whose value survives `f`, in order. -/
def filterMap (m : JsMap κ α) (f : κ → α → Option β) : JsMap κ β where
  entries := m.entries.filterMap fun e => (f e.1 e.2).map fun b => (e.1, b)
  nodup := by
    have sub : List.Sublist
        ((m.entries.filterMap fun e => (f e.1 e.2).map fun b => (e.1, b)).map Prod.fst)
        (m.entries.map Prod.fst) := by
      induction m.entries with
      | nil => simp
      | cons e rest ih =>
        cases kept : f e.1 e.2 with
        | none => simpa [kept] using ih.cons e.1
        | some b => simpa [kept] using ih.cons_cons e.1
    exact m.nodup.sublist sub

/-- The entries that satisfy `p`, in order. -/
def filter (m : JsMap κ α) (p : κ → α → Bool) : JsMap κ α :=
  m.filterMap fun k a => if p k a then some a else none

/-- Every value replaced by `f`. -/
def map (m : JsMap κ α) (f : κ → α → β) : JsMap κ β := m.filterMap fun k a => some (f k a)

/-- `Map.delete`. -/
def delete [DecidableEq κ] (m : JsMap κ α) (k : κ) : JsMap κ α := m.filter fun k' _ => k' ≠ k

section Laws

variable [DecidableEq κ] {m : JsMap κ α} {k k' : κ} {v : α}

theorem find_put {l : List (κ × α)} :
    find k' (put k v l) = if k' = k then some v else find k' l := by
  induction l with
  | nil => simp [put, find, eq_comm]
  | cons e rest ih =>
    by_cases same : e.1 = k
    · subst same
      by_cases hit : k' = e.1 <;> simp [put, find, hit, eq_comm]
    · by_cases hit : e.1 = k'
      · subst hit
        simp [put, find, same]
      · simp [put, find, same, hit, ih]

@[simp] theorem get?_empty : (∅ : JsMap κ α).get? k = none := rfl

@[simp] theorem get?_set : (m.set k v).get? k' = if k' = k then some v else m.get? k' := find_put

theorem get?_set_self : (m.set k v).get? k = some v := by simp

theorem get?_set_of_ne (other : k' ≠ k) : (m.set k v).get? k' = m.get? k' := by simp [other]

theorem find_eq_none {l : List (κ × α)} : find k l = none ↔ k ∉ l.map Prod.fst := by
  induction l with
  | nil => simp [find]
  | cons e rest ih =>
    by_cases same : e.1 = k
    · simp [find, same]
    · simp only [find, same, if_false, ih, List.map_cons, List.mem_cons, not_or]
      exact ⟨fun absent => ⟨Ne.symm same, absent⟩, And.right⟩

theorem find_filterMap {f : κ → α → Option β} {l : List (κ × α)}
    (distinct : (l.map Prod.fst).Nodup) :
    find k (l.filterMap fun e => (f e.1 e.2).map fun b => (e.1, b)) = (find k l).bind (f k) := by
  induction l with
  | nil => rfl
  | cons e rest ih =>
    have split := List.nodup_cons.mp distinct
    have tail := ih split.2
    by_cases same : e.1 = k
    · subst same
      cases kept : f e.1 e.2 with
      | none =>
        have absent : find e.1 rest = none := find_eq_none.mpr split.1
        simp only [List.filterMap_cons, kept, Option.map_none, tail, absent, find, if_true,
          Option.bind_none, Option.bind_some]
      | some b => simp [kept, find]
    · cases kept : f e.1 e.2 with
      | none => simp [kept, find, same, tail]
      | some b => simp [kept, find, same, tail]

@[simp] theorem get?_filterMap {f : κ → α → Option β} :
    (m.filterMap f).get? k = (m.get? k).bind (f k) :=
  find_filterMap m.nodup

@[simp] theorem get?_filter {p : κ → α → Bool} :
    (m.filter p).get? k = (m.get? k).bind fun a => if p k a then some a else none :=
  get?_filterMap

@[simp] theorem get?_map {f : κ → α → β} : (m.map f).get? k = (m.get? k).map (f k) := by
  rw [map, get?_filterMap]
  cases m.get? k <;> rfl

@[simp] theorem get?_delete : (m.delete k).get? k' = if k' = k then none else m.get? k' := by
  rw [delete, get?_filter]
  cases m.get? k' <;> by_cases same : k' = k <;> simp [same]

theorem find_eq_some {l : List (κ × α)} (distinct : (l.map Prod.fst).Nodup) {a : α} :
    find k l = some a ↔ (k, a) ∈ l := by
  induction l with
  | nil => simp [find]
  | cons e rest ih =>
    have split := List.nodup_cons.mp distinct
    by_cases same : e.1 = k
    · subst same
      have absent : (e.1, a) ∉ rest := fun present =>
        split.1 (List.mem_map.mpr ⟨_, present, rfl⟩)
      simp only [find, if_true, Option.some.injEq, List.mem_cons, absent, or_false]
      exact ⟨fun eq => by subst eq; rfl, fun eq => (congrArg Prod.snd eq).symm⟩
    · have other : (k, a) ≠ e := fun eq => same (congrArg Prod.fst eq).symm
      simp [find, same, ih split.2, other]

/-- Iterating over a map visits exactly what `get?` finds. -/
theorem mem_entries {a : α} : (k, a) ∈ m.entries ↔ m.get? k = some a :=
  (find_eq_some m.nodup).symm

/-- Of what is listed entry by entry, the part under one key is that of its value. -/
theorem flatMap_find {γ : Type*} {l : List (κ × α)} (distinct : (l.map Prod.fst).Nodup)
    (f : α → List γ) :
    (l.flatMap fun e => if e.1 = k then f e.2 else []) = (find k l).elim [] f := by
  induction l with
  | nil => rfl
  | cons e rest ih =>
    have split := List.nodup_cons.mp distinct
    rw [List.flatMap_cons, ih split.2]
    by_cases same : e.1 = k
    · have absent : find k rest = none := find_eq_none.mpr (same ▸ split.1)
      simp [find, same, absent]
    · simp [find, same]

theorem filter_find {l : List (κ × α)} (distinct : (l.map Prod.fst).Nodup) :
    l.filter (fun e => decide (e.1 = k)) = (find k l).toList.map fun v => (k, v) := by
  induction l with
  | nil => rfl
  | cons e rest ih =>
    have split := List.nodup_cons.mp distinct
    by_cases same : e.1 = k
    · subst same
      have absent : find e.1 rest = none := find_eq_none.mpr split.1
      simp [find, ih split.2, absent]
    · simp [find, same, ih split.2]

theorem mem_keys : k ∈ m.keys ↔ ∃ a, m.get? k = some a := by
  constructor
  · intro present
    obtain ⟨e, inside, rfl⟩ := List.mem_map.mp present
    exact ⟨e.2, mem_entries.mp inside⟩
  · rintro ⟨a, found⟩
    exact List.mem_map.mpr ⟨(k, a), mem_entries.mpr found, rfl⟩

theorem has_eq_true : m.has k = true ↔ ∃ a, m.get? k = some a := Option.isSome_iff_exists

theorem has_eq_false : m.has k = false ↔ m.get? k = none := by simp [has]

theorem length_put {l : List (κ × α)} :
    (put k v l).length = if (find k l).isSome then l.length else l.length + 1 := by
  induction l with
  | nil => rfl
  | cons e rest ih =>
    by_cases same : e.1 = k
    · simp [put, find, same]
    · simp only [put, find, same, if_false, List.length_cons, ih]
      split <;> rfl

theorem size_set_le : (m.set k v).size ≤ m.size + 1 := by
  have length : (m.set k v).size = if (find k m.entries).isSome then m.size else m.size + 1 :=
    length_put
  rw [length]
  split <;> omega

theorem size_delete_le : (m.delete k).size ≤ m.size := List.length_filterMap_le _ _

theorem delete_delete : (m.delete k).delete k = m.delete k := by
  apply ext
  show ((m.entries.filterMap fun e =>
    (if decide (e.1 ≠ k) = true then some e.2 else none).map fun b => (e.1, b)).filterMap fun e =>
      (if decide (e.1 ≠ k) = true then some e.2 else none).map fun b => (e.1, b))
        = m.entries.filterMap fun e =>
          (if decide (e.1 ≠ k) = true then some e.2 else none).map fun b => (e.1, b)
  induction m.entries with
  | nil => rfl
  | cons e rest ih =>
    by_cases same : e.1 = k <;> simpa [same] using ih

theorem size_eq_zero : m.size = 0 ↔ ∀ k, m.get? k = none := by
  constructor
  · intro empty k
    have none_left : m.entries = [] := List.length_eq_zero_iff.mp empty
    rw [get?, none_left, find]
  · intro absent
    cases listed : m.entries with
    | nil => simp [size, listed]
    | cons e rest =>
      have found : m.get? e.1 = some e.2 := by simp [get?, listed, find]
      simp [absent e.1] at found

theorem put_of_absent {l : List (κ × α)} (missing : find k l = none) :
    put k v l = l ++ [(k, v)] := by
  induction l with
  | nil => rfl
  | cons e rest ih =>
    by_cases same : e.1 = k
    · simp [find, same] at missing
    · simp only [find, same, if_false] at missing
      simp [put, same, ih missing]

theorem put_of_present {l : List (κ × α)} (present : find k l = some v) : put k v l = l := by
  induction l with
  | nil => cases present
  | cons e l ih =>
    unfold find at present
    unfold put
    split at present
    · next own =>
      cases present
      rw [if_pos own, ← own]
    · next other => rw [if_neg other, ih present]

theorem set_of_present (present : m.get? k = some v) : m.set k v = m :=
  ext (put_of_present present)

theorem keys_set_of_absent (absent : m.get? k = none) : (m.set k v).keys = m.keys ++ [k] := by
  have append : put k v m.entries = m.entries ++ [(k, v)] := put_of_absent absent
  simp [keys, set, append]

theorem keys_delete : (m.delete k).keys = m.keys.filter (· ≠ k) := by
  show ((m.entries.filterMap fun e =>
    (if decide (e.1 ≠ k) = true then some e.2 else none).map fun b => (e.1, b)).map Prod.fst)
      = (m.entries.map Prod.fst).filter (· ≠ k)
  induction m.entries with
  | nil => rfl
  | cons e rest ih =>
    by_cases same : e.1 = k
    · simpa [same] using ih
    · simpa [same] using ih

theorem keys_set_of_present {a : α} (present : m.get? k = some a) : (m.set k v).keys = m.keys := by
  have keep : ∀ l : List (κ × α), find k l = some a → (put k v l).map Prod.fst = l.map Prod.fst := by
    intro l found
    induction l with
    | nil => cases found
    | cons e rest ih =>
      by_cases same : e.1 = k
      · simp [put, same]
      · simp only [find, same, if_false] at found
        simp [put, same, ih found]
  exact keep m.entries present

theorem entries_delete : (m.delete k).entries = m.entries.filter fun e => e.1 ≠ k := by
  show (m.entries.filterMap fun e =>
    (if decide (e.1 ≠ k) = true then some e.2 else none).map fun b => (e.1, b)) =
      m.entries.filter fun e => e.1 ≠ k
  induction m.entries with
  | nil => rfl
  | cons e rest ih =>
    by_cases same : e.1 = k
    · simpa [same] using ih
    · simpa [same] using ih

theorem delete_of_absent (absent : m.get? k = none) : m.delete k = m := by
  refine ext ?_
  rw [entries_delete, List.filter_eq_self]
  intro e inside
  have found : m.get? e.1 = some e.2 := mem_entries.mp inside
  have other : e.1 ≠ k := by
    intro same
    rw [same, absent] at found
    cases found
  simpa using other

/-- The first entry goes, the others stay in order. -/
theorem entries_delete_head {rest : List (κ × α)} (listed : m.entries = (k, v) :: rest) :
    (m.delete k).entries = rest := by
  have distinct := m.nodup
  rw [listed, List.map_cons, List.nodup_cons] at distinct
  rw [entries_delete, listed, List.filter_cons_of_neg (by simp)]
  apply List.filter_eq_self.mpr
  intro e inside
  have other : e.1 ≠ k := fun same => distinct.1 (List.mem_map.mpr ⟨e, inside, same⟩)
  simpa using other

/-- The first key goes, the others stay in order. -/
theorem keys_delete_head {rest : List κ} (listed : m.keys = k :: rest) :
    (m.delete k).keys = rest := by
  have distinct : m.keys.Nodup := m.nodup
  rw [listed] at distinct
  have split := List.nodup_cons.mp distinct
  rw [keys_delete, listed, List.filter_cons_of_neg (by simp)]
  exact List.filter_eq_self.mpr fun k' inside => by
    have other : k' ≠ k := fun same => split.1 (same ▸ inside)
    simpa using other

omit [DecidableEq κ] in
theorem keys_map {f : κ → α → β} : (m.map f).keys = m.keys := by
  simp [keys, map, filterMap]

omit [DecidableEq κ] in
theorem size_eq_length_keys : m.size = m.keys.length := by simp [size, keys]

theorem size_delete_of_present {a : α} (present : m.get? k = some a) :
    (m.delete k).size < m.size := by
  have listed : k ∈ m.keys := mem_keys.mpr ⟨a, present⟩
  rw [size_eq_length_keys, size_eq_length_keys, keys_delete]
  exact List.length_filter_lt_length_iff_exists.mpr ⟨k, listed, by simp⟩

end Laws

end JsMap

/-- `Set<κ>`. -/
abbrev JsSet (κ : Type u) := JsMap κ Unit

namespace JsSet

variable {κ : Type u} [DecidableEq κ] (s : JsSet κ) (k k' : κ)

/-- `Set.add`. -/
def add : JsSet κ := s.set k ()

/-- `new Set(list)`. -/
def ofList (list : List κ) : JsSet κ := list.foldl add ∅

@[simp] theorem has_empty : (∅ : JsSet κ).has k = false := rfl

@[simp] theorem has_add : (s.add k).has k' = (k' = k || s.has k') := by
  by_cases same : k' = k <;> simp [add, JsMap.has, same]

@[simp] theorem has_delete : (s.delete k).has k' = (k' ≠ k && s.has k') := by
  by_cases same : k' = k <;> simp [JsMap.has, same]

theorem has_foldl_add (list : List κ) :
    (list.foldl add s).has k = (k ∈ list || s.has k) := by
  induction list generalizing s with
  | nil => simp
  | cons x rest ih =>
    rw [List.foldl_cons, ih, has_add]
    by_cases same : k = x <;> by_cases inside : k ∈ rest <;> simp [same, inside]

@[simp] theorem has_ofList (list : List κ) : (ofList list).has k = decide (k ∈ list) := by
  simp [ofList, has_foldl_add]

theorem has_ofList_iff {list : List κ} : (ofList list).has k = true ↔ k ∈ list := by simp

theorem mem_keys_iff : k ∈ s.keys ↔ s.has k = true := by
  rw [JsMap.mem_keys, JsMap.has_eq_true]

end JsSet

end Takode
