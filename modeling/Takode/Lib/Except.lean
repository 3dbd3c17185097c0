import Mathlib.Data.List.Forall2

/-!
# Fallible functions that succeed

What is known of the parts of a function that may throw, once it has returned.
-/

namespace Takode

variable {ε α β : Type}

theorem bind_eq_ok {x : Except ε α} {f : α → Except ε β} {b : β} :
    (x >>= f) = .ok b ↔ ∃ a, x = .ok a ∧ f a = .ok b := by
  cases x with
  | error e => exact ⟨fun failed => (by cases failed), fun ⟨_, failed, _⟩ => (by cases failed)⟩
  | ok a => exact ⟨fun returned => ⟨a, rfl, returned⟩, fun ⟨_, same, returned⟩ => by
      cases same
      exact returned⟩

theorem map_eq_ok {x : Except ε α} {f : α → β} {b : β} :
    x.map f = .ok b ↔ ∃ a, x = .ok a ∧ f a = b := by
  cases x with
  | error e => exact ⟨fun failed => (by cases failed), fun ⟨_, failed, _⟩ => (by cases failed)⟩
  | ok a => exact ⟨fun returned => ⟨a, rfl, Except.ok.inj returned⟩, fun ⟨_, same, returned⟩ => by
      cases same
      exact congrArg Except.ok returned⟩

theorem pure_eq_ok {a b : α} : (pure a : Except ε α) = .ok b ↔ a = b :=
  ⟨Except.ok.inj, congrArg Except.ok⟩

theorem mapM_eq_self {f : α → Except ε α} {items : List α} (stays : ∀ a ∈ items, f a = .ok a) :
    items.mapM f = .ok items := by
  induction items with
  | nil => rfl
  | cons a rest ih =>
    rw [List.mapM_cons, stays a List.mem_cons_self,
      ih fun b inside => stays b (List.mem_cons_of_mem a inside)]
    rfl

theorem mapM_eq_map {f : α → Except ε β} {g : α → β} {items : List α}
    (each : ∀ a ∈ items, f a = .ok (g a)) : items.mapM f = .ok (items.map g) := by
  induction items with
  | nil => rfl
  | cons a rest ih =>
    rw [List.mapM_cons, each a List.mem_cons_self, ih fun b inside => each b (List.mem_cons_of_mem a inside)]
    rfl

theorem exists_of_mapM {f : α → Except ε β} {items : List α} {results : List β}
    (mapped : items.mapM f = .ok results) : ∀ b ∈ results, ∃ a ∈ items, f a = .ok b := by
  induction items generalizing results with
  | nil =>
    cases mapped
    exact fun b inside => absurd inside List.not_mem_nil
  | cons item rest ih =>
    rw [List.mapM_cons] at mapped
    obtain ⟨first, one, mapped⟩ := bind_eq_ok.mp mapped
    obtain ⟨others, more, mapped⟩ := bind_eq_ok.mp mapped
    obtain rfl := pure_eq_ok.mp mapped
    intro b inside
    rcases List.mem_cons.mp inside with rfl | inside
    · exact ⟨item, List.mem_cons_self, one⟩
    · obtain ⟨a, among, found⟩ := ih more b inside
      exact ⟨a, List.mem_cons_of_mem item among, found⟩

/-- `if (!valid) throw error`. -/
def require (valid : Bool) (error : ε) : Except ε Unit := if valid then .ok () else .error error

/-- The value, or an error where there is none. -/
def orThrow (value : Option α) (error : ε) : Except ε α := value.elim (.error error) .ok

end Takode
