import Mathlib.Data.List.Basic

/-!
# Codes

Values written as lists so that each one is read off the front of whatever it is written before.
-/

namespace Takode

variable {α β γ : Type}

/-- The list of a value is told apart from what follows it. -/
def SelfDelimiting (code : α → List β) : Prop :=
  ∀ ⦃a a' : α⦄ ⦃rest rest' : List β⦄, code a ++ rest = code a' ++ rest' → a = a' ∧ rest = rest'

namespace SelfDelimiting

variable {code : α → List β}

/-- Lists of values of one length need no mark at their end. -/
theorem flatMap_of_length (delimiting : SelfDelimiting code) {l l' : List α} {rest rest' : List β}
    (length : l.length = l'.length) (same : l.flatMap code ++ rest = l'.flatMap code ++ rest') :
    l = l' ∧ rest = rest' := by
  induction l generalizing l' with
  | nil =>
    rw [List.length_nil] at length
    obtain rfl := List.length_eq_zero_iff.mp length.symm
    exact ⟨rfl, same⟩
  | cons a l ih =>
    cases l' with
    | nil => cases length
    | cons a' l' =>
      simp only [List.flatMap_cons, List.append_assoc] at same
      obtain ⟨rfl, same'⟩ := delimiting same
      obtain ⟨rfl, after⟩ := ih (Nat.succ.inj length) same'
      exact ⟨rfl, after⟩

/-- Values that are written as something have only one list. -/
theorem flatMap_injective (delimiting : SelfDelimiting code) (filled : ∀ a, code a ≠ []) :
    Function.Injective (List.flatMap code) := by
  intro l l' same
  induction l generalizing l' with
  | nil =>
    cases l' with
    | nil => rfl
    | cons a' l' =>
      have empty := List.append_eq_nil_iff.mp (List.flatMap_cons ▸ same).symm
      exact absurd empty.1 (filled a')
  | cons a l ih =>
    cases l' with
    | nil =>
      have empty := List.append_eq_nil_iff.mp (List.flatMap_cons ▸ same)
      exact absurd empty.1 (filled a)
    | cons a' l' =>
      rw [List.flatMap_cons, List.flatMap_cons] at same
      obtain ⟨rfl, same'⟩ := delimiting same
      rw [ih same']

/-- A mark that no value contains tells where it ends. -/
theorem of_mark {mark : β} (distinct : Function.Injective code) (unmarked : ∀ a, mark ∉ code a) :
    SelfDelimiting fun a => code a ++ [mark] := by
  have split : ∀ l l' rest rest' : List β, mark ∉ l → mark ∉ l' →
      l ++ mark :: rest = l' ++ mark :: rest' → l = l' ∧ rest = rest' := by
    intro l
    induction l with
    | nil =>
      intro l' rest rest' _ outside same
      cases l' with
      | nil => exact ⟨rfl, (List.cons.inj same).2⟩
      | cons b l' => exact absurd (List.mem_cons.mpr (.inl (List.cons.inj same).1)) outside
    | cons b l ih =>
      intro l' rest rest' outside outside' same
      cases l' with
      | nil => exact absurd (List.mem_cons.mpr (.inl (List.cons.inj same).1.symm)) outside
      | cons b' l' =>
        obtain ⟨rfl, same'⟩ := List.cons.inj same
        obtain ⟨rfl, after⟩ := ih l' rest rest' (fun inside => outside (List.mem_cons_of_mem b inside))
          (fun inside => outside' (List.mem_cons_of_mem b inside)) same'
        exact ⟨rfl, after⟩
  intro a a' rest rest' same
  simp only [List.append_assoc, List.singleton_append] at same
  obtain ⟨one, after⟩ := split _ _ _ _ (unmarked a) (unmarked a') same
  exact ⟨distinct one, after⟩

end SelfDelimiting

end Takode
