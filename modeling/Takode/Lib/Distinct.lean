import Mathlib.Data.List.Nodup

/-!
# Lists without repetitions

`[...new Set(items)]` is `items.eraseDups`: of equal items the first one stays.
-/

namespace Takode

variable {α : Type} [BEq α] [LawfulBEq α]

theorem nodup_eraseDups (items : List α) : items.eraseDups.Nodup := by
  induction h : items.length using Nat.strongRecOn generalizing items with
  | ind n ih =>
    cases items with
    | nil => exact List.nodup_nil
    | cons a rest =>
      rw [List.eraseDups_cons, List.nodup_cons]
      constructor
      · rw [List.mem_eraseDups]
        simp
      · refine ih _ ?_ _ rfl
        rw [← h, List.length_cons]
        exact Nat.lt_succ_of_le (List.length_filter_le _ _)

theorem eraseDups_of_nodup {items : List α} (distinct : items.Nodup) : items.eraseDups = items := by
  induction items with
  | nil => rfl
  | cons a rest ih =>
    obtain ⟨fresh, distinct⟩ := List.nodup_cons.mp distinct
    have others : (rest.filter fun b => !b == a) = rest := by
      refine List.filter_eq_self.mpr fun b inside => ?_
      have other : b ≠ a := fun same => fresh (same ▸ inside)
      simpa using other
    rw [List.eraseDups_cons, others, ih distinct]

end Takode
