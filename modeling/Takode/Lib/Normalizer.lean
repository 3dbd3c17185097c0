import Mathlib.Data.List.Basic

/-!
# Normalizers

A normalizer gives a value in its normal form, or nothing where there is none. What it
gives, it leaves as it is.
-/

namespace Takode

universe u

variable {α : Type u} {f : α → Option α}

/-- What `f` gives, it leaves as it is. -/
def Normalizes (f : α → Option α) : Prop := ∀ ⦃a b : α⦄, f a = some b → f b = some b

/-- The items that stay are those in normal form. -/
theorem filterMap_eq_self {items : List α} (normal : ∀ a ∈ items, f a = some a) :
    items.filterMap f = items := by
  induction items with
  | nil => rfl
  | cons a rest ih =>
    rw [List.filterMap_cons_some (normal a List.mem_cons_self),
      ih fun b inside => normal b (List.mem_cons_of_mem a inside)]

namespace Normalizes

theorem of_mem (stable : Normalizes f) {items : List α} {b : α} (given : b ∈ items.filterMap f) :
    f b = some b := by
  obtain ⟨a, _, found⟩ := List.mem_filterMap.mp given
  exact stable found

theorem filterMap_filterMap (stable : Normalizes f) (items : List α) :
    (items.filterMap f).filterMap f = items.filterMap f :=
  filterMap_eq_self fun _ given => stable.of_mem given

/-- What is appended to items in normal form leaves them at the start. -/
theorem prefix_filterMap_append (stable : Normalizes f) (items more : List α) :
    items.filterMap f <+: (items.filterMap f ++ more).filterMap f := by
  rw [List.filterMap_append, stable.filterMap_filterMap]
  exact List.prefix_append _ _

theorem bind_bind (stable : Normalizes f) (value : Option α) :
    (value.bind f).bind f = value.bind f := by
  cases value with
  | none => rfl
  | some a =>
    cases found : f a with
    | none => simp [found]
    | some b =>
      rw [Option.bind_some, found, Option.bind_some]
      exact stable found

end Normalizes

end Takode
