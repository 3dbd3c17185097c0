import Mathlib.Data.List.Induction

/-!
# Occurrences

The positions of a value in a list, and the rank of a position among them.
-/

namespace Takode

variable {α : Type} [DecidableEq α]

/-- The positions of a value, in order. -/
def indicesOf (l : List α) (a : α) : List Nat := (List.range l.length).filter fun i => l[i]? = some a

/-- How often a value stands before a position. -/
def rank (l : List α) (a : α) (position : Nat) : Nat := (l.take position).count a

theorem indicesOf_concat (l : List α) (x a : α) :
    indicesOf (l ++ [x]) a = indicesOf l a ++ if x = a then [l.length] else [] := by
  unfold indicesOf
  rw [List.length_append, List.length_singleton, List.range_succ, List.filter_append]
  congr 1
  · refine List.filter_congr fun i below => ?_
    rw [List.getElem?_append_left (List.mem_range.mp below)]
  · rw [List.filter_cons, List.filter_nil, List.getElem?_append_right (Nat.le_refl _), Nat.sub_self,
      List.getElem?_cons_zero]
    by_cases same : x = a
    · rw [if_pos same, if_pos (by simpa using same)]
    · rw [if_neg same, if_neg (by simpa using same)]

theorem length_indicesOf (l : List α) (a : α) : (indicesOf l a).length = l.count a := by
  induction l using List.reverseRecOn with
  | nil => rfl
  | append_singleton l x ih =>
    rw [indicesOf_concat, List.length_append, ih, List.count_append, List.count_singleton]
    by_cases same : x = a
    · rw [if_pos same, if_pos (by simpa using same)]
      rfl
    · rw [if_neg same, if_neg (by simpa using same)]
      rfl

/-- A value's occurrence of some rank is the one that as many stand before. -/
theorem getElem?_indicesOf (l : List α) (a : α) (k i : Nat) :
    (indicesOf l a)[k]? = some i ↔ l[i]? = some a ∧ rank l a i = k := by
  induction l using List.reverseRecOn with
  | nil =>
    refine iff_of_false (fun there => ?_) (fun both => ?_)
    · cases there
    · cases both.1
  | append_singleton l x ih =>
    unfold rank at ih ⊢
    rw [indicesOf_concat]
    rcases Nat.lt_trichotomy i l.length with below | rfl | above
    · -- A position of the list is the same in the longer one.
      rw [List.getElem?_append_left below, List.take_append_of_le_length (Nat.le_of_lt below), ← ih]
      rcases Nat.lt_or_ge k (indicesOf l a).length with short | long
      · rw [List.getElem?_append_left short]
      · rw [List.getElem?_append_right long, List.getElem?_eq_none long]
        refine iff_of_false (fun there => ?_) (fun there => by cases there)
        split at there
        · have last := List.mem_singleton.mp (List.mem_of_getElem? there)
          omega
        · cases there
    · -- The new position comes after all of them.
      rw [List.getElem?_append_right (Nat.le_refl _), Nat.sub_self, List.getElem?_cons_zero,
        List.take_left, Option.some_inj, ← length_indicesOf]
      rcases Nat.lt_or_ge k (indicesOf l a).length with short | long
      · rw [List.getElem?_append_left short]
        refine iff_of_false (fun there => ?_) (fun both => by omega)
        have inside := List.mem_of_getElem? there
        unfold indicesOf at inside
        have below := List.mem_range.mp (List.mem_filter.mp inside).1
        omega
      · rw [List.getElem?_append_right long]
        by_cases same : x = a
        · rw [if_pos same, List.getElem?_singleton]
          refine ⟨fun there => ⟨same, ?_⟩, fun both => ?_⟩
          · split at there
            · omega
            · cases there
          · rw [if_pos (by omega)]
        · rw [if_neg same]
          exact iff_of_false (fun there => by cases there) fun both => same both.1
    · have outside : (l ++ [x])[i]? = none := by
        rw [List.getElem?_eq_none]
        rw [List.length_append, List.length_singleton]
        omega
      rw [outside]
      refine iff_of_false (fun there => ?_) (fun both => by cases both.1)
      have inside := List.mem_of_getElem? there
      rw [← indicesOf_concat] at inside
      unfold indicesOf at inside
      have below := List.mem_range.mp (List.mem_filter.mp inside).1
      rw [List.length_append, List.length_singleton] at below
      omega

/-- A position is told by its value and the value's rank. -/
theorem rank_injective {l : List α} {a : α} {i j : Nat} (first : l[i]? = some a) (second : l[j]? = some a)
    (same : rank l a i = rank l a j) : i = j := by
  have there := (getElem?_indicesOf l a (rank l a j) i).mpr ⟨first, same⟩
  have also := (getElem?_indicesOf l a (rank l a j) j).mpr ⟨second, rfl⟩
  exact Option.some.inj (there.symm.trans also)

theorem rank_succ {l : List α} {a : α} {i : Nat} (there : l[i]? = some a) :
    rank l a (i + 1) = rank l a i + 1 := by
  unfold rank
  rw [List.take_add_one, there, List.count_append]
  exact congrArg _ (List.count_cons_self)

/-- A rank depends on what stands before only. -/
theorem rank_append {l rest : List α} {a : α} {i : Nat} (within : i ≤ l.length) :
    rank (l ++ rest) a i = rank l a i := by
  unfold rank
  rw [List.take_append_of_le_length within]

end Takode
