import Mathlib.Data.List.Basic

/-!
# Processes over a shared state

Any number of processes, of which one takes a step at a time. A step of a process
reads and writes the shared state and its own. Invariants come in two kinds: what
holds of each process, and what holds between two of them.
-/

namespace Takode

universe u v

structure Processes (σ : Type u) (π : Type v) where
  shared : σ
  procs : List π := []
deriving DecidableEq

namespace Processes

variable {σ : Type u} {π : Type v}

/-- The process `i` takes a step, which may not be enabled. -/
def stepAt (s : Processes σ π) (i : Nat) (f : σ → π → Option (σ × π)) : Option (Processes σ π) :=
  (s.procs[i]?.bind (f s.shared)).map fun (shared, p) => ⟨shared, s.procs.set i p⟩

/-- Another process starts. -/
def spawn (s : Processes σ π) (p : π) : Processes σ π := { s with procs := s.procs ++ [p] }

variable {s t : Processes σ π} {i j : Nat} {p p' q : π} {f : σ → π → Option (σ × π)}

theorem stepAt_eq_some : s.stepAt i f = some t ↔ ∃ p shared p', s.procs[i]? = some p ∧
    f s.shared p = some (shared, p') ∧ t = ⟨shared, s.procs.set i p'⟩ := by
  constructor
  · intro taken
    obtain ⟨⟨shared, p'⟩, bound, rfl⟩ := Option.map_eq_some_iff.mp taken
    obtain ⟨p, found, became⟩ := Option.bind_eq_some_iff.mp bound
    exact ⟨p, shared, p', found, became, rfl⟩
  · rintro ⟨p, shared, p', found, became, rfl⟩
    simp [stepAt, found, became]

/-- A process after the process `i` has become `p'`. -/
theorem getElem?_set_eq_some (found : s.procs[i]? = some p) :
    (s.procs.set i p')[j]? = some q ↔ (j = i ∧ q = p') ∨ (j ≠ i ∧ s.procs[j]? = some q) := by
  have inside : i < s.procs.length := (List.getElem?_eq_some_iff.mp found).1
  by_cases same : j = i
  · subst same
    simp [inside, eq_comm]
  · simp [List.getElem?_set_ne (Ne.symm same), same]

/-- A process after another one was started. -/
theorem getElem?_spawn_eq_some : (s.spawn p).procs[j]? = some q ↔
    s.procs[j]? = some q ∨ (j = s.procs.length ∧ q = p) := by
  rcases Nat.lt_trichotomy j s.procs.length with old | rfl | beyond
  · simp [spawn, List.getElem?_append_left old, Nat.ne_of_lt old]
  · simp [spawn, eq_comm]
  · have none' : s.procs[j]? = none := List.getElem?_eq_none (Nat.le_of_lt beyond)
    have none'' : (s.procs ++ [p])[j]? = none := List.getElem?_eq_none (by simpa using Nat.succ_le_of_lt beyond)
    simp [spawn, none', none'', (Nat.ne_of_lt beyond).symm]

/-- What holds of each process. -/
def Each (s : Processes σ π) (P : σ → π → Prop) : Prop :=
  ∀ (i : Nat) (p : π), s.procs[i]? = some p → P s.shared p

/-- What holds between each two processes. -/
def Pairs (s : Processes σ π) (R : π → π → Prop) : Prop :=
  ∀ (i j : Nat) (p q : π), i ≠ j → s.procs[i]? = some p → s.procs[j]? = some q → R p q

theorem Each.step {P : σ → π → Prop} {shared : σ} (each : s.Each P) (found : s.procs[i]? = some p)
    (self : P shared p') (others : ∀ j q, j ≠ i → s.procs[j]? = some q → P s.shared q → P shared q) :
    Each ⟨shared, s.procs.set i p'⟩ P := by
  intro j q here
  rcases (getElem?_set_eq_some found).mp here with ⟨_, rfl⟩ | ⟨other, was⟩
  · exact self
  · exact others j q other was (each j q was)

theorem Each.spawn {P : σ → π → Prop} (each : s.Each P) (fresh : P s.shared p) :
    (s.spawn p).Each P := by
  intro j q here
  rcases getElem?_spawn_eq_some.mp here with was | ⟨_, rfl⟩
  · exact each j q was
  · exact fresh

theorem Pairs.step {R : π → π → Prop} {shared : σ} (pairs : s.Pairs R)
    (found : s.procs[i]? = some p)
    (others : ∀ j q, j ≠ i → s.procs[j]? = some q → R p' q ∧ R q p') :
    Pairs ⟨shared, s.procs.set i p'⟩ R := by
  intro j k q r distinct first second
  rcases (getElem?_set_eq_some found).mp first with ⟨rfl, rfl⟩ | ⟨other, was⟩
  · rcases (getElem?_set_eq_some found).mp second with ⟨rfl, _⟩ | ⟨other, was⟩
    · exact absurd rfl distinct
    · exact (others k r other was).1
  · rcases (getElem?_set_eq_some found).mp second with ⟨rfl, rfl⟩ | ⟨_, was'⟩
    · exact (others j q other was).2
    · exact pairs j k q r distinct was was'

theorem Pairs.spawn {R : π → π → Prop} (pairs : s.Pairs R) (fresh : ∀ q, R p q ∧ R q p) :
    (s.spawn p).Pairs R := by
  intro j k q r distinct first second
  rcases getElem?_spawn_eq_some.mp first with was | ⟨rfl, rfl⟩
  · rcases getElem?_spawn_eq_some.mp second with was' | ⟨rfl, rfl⟩
    · exact pairs j k q r distinct was was'
    · exact (fresh q).2
  · exact (fresh r).1

end Processes

end Takode
