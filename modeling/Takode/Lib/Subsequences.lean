import Mathlib.Data.List.Infix
import Mathlib.Order.Bounds.Basic

/-!
# Longest common subsequences

The length of a longest common subsequence of two lists, by the recursion on their first items
that a table of suffixes is filled with.
-/

namespace Takode

variable {α : Type} [DecidableEq α]

/-- The length of a longest common subsequence of two lists. -/
def commonLength : List α → List α → Nat
  | [], _ => 0
  | _ :: _, [] => 0
  | a :: xs, b :: ys =>
    if a = b then commonLength xs ys + 1
    else max (commonLength xs (b :: ys)) (commonLength (a :: xs) ys)
termination_by xs ys => xs.length + ys.length

@[simp] theorem commonLength_nil_left (ys : List α) : commonLength [] ys = 0 := by
  rw [commonLength]

@[simp] theorem commonLength_nil_right (xs : List α) : commonLength xs [] = 0 := by
  cases xs with
  | nil => rw [commonLength]
  | cons a xs => rw [commonLength]

theorem commonLength_cons (a b : α) (xs ys : List α) :
    commonLength (a :: xs) (b :: ys) =
      if a = b then commonLength xs ys + 1
      else max (commonLength xs (b :: ys)) (commonLength (a :: xs) ys) := by
  rw [commonLength]

theorem commonLength_cons_self (a : α) (xs ys : List α) :
    commonLength (a :: xs) (a :: ys) = commonLength xs ys + 1 := by
  rw [commonLength_cons, if_pos rfl]

theorem commonLength_cons_of_ne {a b : α} (different : a ≠ b) (xs ys : List α) :
    commonLength (a :: xs) (b :: ys) =
      max (commonLength xs (b :: ys)) (commonLength (a :: xs) ys) := by
  rw [commonLength_cons, if_neg different]

/-- A common subsequence of the length that the recursion gives. -/
theorem exists_common (xs ys : List α) :
    ∃ zs : List α, zs.Sublist xs ∧ zs.Sublist ys ∧ zs.length = commonLength xs ys := by
  induction xs, ys using commonLength.induct with
  | case1 ys => exact ⟨[], List.nil_sublist _, List.nil_sublist _, by simp⟩
  | case2 a xs => exact ⟨[], List.nil_sublist _, List.nil_sublist _, by simp⟩
  | case3 xs b ys ih =>
    obtain ⟨zs, left, right, length⟩ := ih
    refine ⟨b :: zs, left.cons_cons b, right.cons_cons b, ?_⟩
    rw [commonLength_cons_self, List.length_cons, length]
  | case4 a xs b ys different ihLeft ihRight =>
    rw [commonLength_cons_of_ne different]
    by_cases longer : commonLength (a :: xs) ys ≤ commonLength xs (b :: ys)
    · obtain ⟨zs, left, right, length⟩ := ihLeft
      refine ⟨zs, left.cons a, right, ?_⟩
      rw [length, Nat.max_eq_left longer]
    · obtain ⟨zs, left, right, length⟩ := ihRight
      refine ⟨zs, left, right.cons b, ?_⟩
      rw [length, Nat.max_eq_right (by omega)]

/-- No common subsequence is longer. -/
theorem length_le_commonLength {xs ys zs : List α} (left : zs.Sublist xs) (right : zs.Sublist ys) :
    zs.length ≤ commonLength xs ys := by
  induction xs, ys using commonLength.induct generalizing zs with
  | case1 ys => simp [List.sublist_nil.mp left]
  | case2 a xs => simp [List.sublist_nil.mp right]
  | case3 xs b ys ih =>
    rw [commonLength_cons_self]
    cases zs with
    | nil => simp
    | cons c zs =>
      -- whatever the two occurrences of the first item are, the rest is common to the rests
      have restLeft : zs.Sublist xs := left.tail
      have restRight : zs.Sublist ys := right.tail
      have shorter := ih restLeft restRight
      rw [List.length_cons]
      omega
  | case4 a xs b ys different ihLeft ihRight =>
    rw [commonLength_cons_of_ne different]
    cases left with
    | cons _ left =>
      apply Nat.le_trans (ihLeft left right)
      exact Nat.le_max_left _ _
    | cons_cons _ left =>
      cases right with
      | cons _ right =>
        apply Nat.le_trans (ihRight (left.cons_cons a) right)
        exact Nat.le_max_right _ _
      | cons_cons _ right => exact absurd rfl different

/-- The recursion gives the length of a longest common subsequence. -/
theorem isGreatest_commonLength (xs ys : List α) :
    IsGreatest {n | ∃ zs : List α, zs.Sublist xs ∧ zs.Sublist ys ∧ zs.length = n}
      (commonLength xs ys) := by
  constructor
  · exact exists_common xs ys
  · rintro n ⟨zs, left, right, rfl⟩
    exact length_le_commonLength left right

end Takode
