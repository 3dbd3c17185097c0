import Mathlib.Logic.Relation

/-!
# Labelled machines

A machine is a start state and a partial step function. All nondeterminism sits
in the label, so that a concrete run can be evaluated and a theorem about every
run is a theorem about every list of labels. `Reaches ok` restricts the steps of
a run to those that meet a condition on the state before the step and its label.
-/

namespace Takode

universe u v

/-- A labelled machine; a step that is not enabled gives `none`. -/
structure Machine (σ : Type u) (ℓ : Type v) where
  start : σ
  step : σ → ℓ → Option σ

namespace Machine

variable {σ : Type u} {ℓ : Type v}

/-- The state after the labels, from left to right, if `ok` admits each step. -/
def run (m : Machine σ ℓ) (ok : σ → ℓ → Bool) : σ → List ℓ → Option σ
  | s, [] => some s
  | s, l :: ls => if ok s l then (m.step s l).bind fun t => m.run ok t ls else none

variable (m : Machine σ ℓ)

/-- The states reached by steps that all meet `ok`. -/
inductive Reaches (ok : σ → ℓ → Prop) : σ → Prop
  | start : Reaches ok m.start
  | step {s l t} : Reaches ok s → ok s l → m.step s l = some t → Reaches ok t

/-- A run from `s` to `t` whose steps all meet `ok`. -/
def Leads (ok : σ → ℓ → Prop) : σ → σ → Prop :=
  Relation.ReflTransGen fun s t => ∃ l, ok s l ∧ m.step s l = some t

/-- The states of every run. -/
abbrev Reachable (s : σ) : Prop := m.Reaches (fun _ _ => True) s

variable {m}

/-- The invariant rule: what holds at the start and survives every admitted step
holds in every state reached. -/
theorem Reaches.invariant {ok : σ → ℓ → Prop} {Inv : σ → Prop} (init : Inv m.start)
    (preserved : ∀ {s l t}, m.Reaches ok s → Inv s → ok s l → m.step s l = some t → Inv t)
    {s : σ} (reached : m.Reaches ok s) : Inv s := by
  induction reached with
  | start => exact init
  | step before admitted taken ih => exact preserved before ih admitted taken

theorem Reaches.mono {ok ok' : σ → ℓ → Prop} {s : σ} (reached : m.Reaches ok s)
    (weaker : ∀ {s l}, m.Reaches ok s → ok s l → ok' s l) : m.Reaches ok' s := by
  induction reached with
  | start => exact .start
  | step before admitted taken ih => exact .step ih (weaker before admitted) taken

theorem Reaches.leads {ok : σ → ℓ → Prop} {s t : σ} (reached : m.Reaches ok s)
    (leads : m.Leads ok s t) : m.Reaches ok t := by
  induction leads with
  | refl => exact reached
  | tail _ step ih =>
    obtain ⟨l, admitted, taken⟩ := step
    exact .step ih admitted taken

theorem Reaches.reachable {ok : σ → ℓ → Prop} {s : σ} (reached : m.Reaches ok s) :
    m.Reachable s :=
  reached.mono fun _ _ => trivial

/-- An admitted run from a reached state ends in a reached state. -/
theorem Reaches.extend {ok : σ → ℓ → Bool} {s t : σ} {ls : List ℓ}
    (reached : m.Reaches (fun s l => ok s l = true) s) (ran : m.run ok s ls = some t) :
    m.Reaches (fun s l => ok s l = true) t := by
  induction ls generalizing s with
  | nil =>
    cases ran
    exact reached
  | cons l ls ih =>
    rw [run] at ran
    split at ran
    · obtain ⟨u, first, rest⟩ := Option.bind_eq_some_iff.mp ran
      exact ih (.step reached ‹_› first) rest
    · cases ran

/-- A run that goes on for ever; at a time nothing need happen. -/
structure Endless (m : Machine σ ℓ) where
  state : Nat → σ
  label : Nat → Option ℓ
  start : state 0 = m.start
  next : ∀ n, (label n).elim (state (n + 1) = state n) fun l =>
    m.step (state n) l = some (state (n + 1))

theorem Endless.reaches (run : m.Endless) {ok : σ → ℓ → Prop}
    (admitted : ∀ n l, run.label n = some l → ok (run.state n) l) (n : Nat) :
    m.Reaches ok (run.state n) := by
  induction n with
  | zero =>
    rw [run.start]
    exact .start
  | succ n ih =>
    have next := run.next n
    cases taken : run.label n with
    | none =>
      rw [taken, Option.elim_none] at next
      rwa [next]
    | some l =>
      rw [taken, Option.elim_some] at next
      exact .step ih (admitted n l taken) next

theorem Endless.reachable (run : m.Endless) (n : Nat) : m.Reachable (run.state n) :=
  run.reaches (fun _ _ _ => trivial) n

/-- The states of a stream of labels, of which those that are not enabled are passed over. -/
def played (m : Machine σ ℓ) (labels : Nat → ℓ) : Nat → σ
  | 0 => m.start
  | n + 1 => (m.step (m.played labels n) (labels n)).getD (m.played labels n)

/-- The endless run of a stream of labels. -/
def play (m : Machine σ ℓ) (labels : Nat → ℓ) : m.Endless where
  state := m.played labels
  label n := (m.step (m.played labels n) (labels n)).map fun _ => labels n
  start := rfl
  next n := by
    cases taken : m.step (m.played labels n) (labels n) with
    | none => simp [played, taken]
    | some t => simp [played, taken]

/-- A run that can be evaluated witnesses a reached state with what can be decided of it. -/
theorem exists_reaches_of_run (m : Machine σ ℓ) (ok : σ → ℓ → Bool) (P : σ → Prop)
    [DecidablePred P] (ls : List ℓ)
    (ran : (m.run ok m.start ls).any (fun s => decide (P s)) = true) :
    ∃ s, m.Reaches (fun s l => ok s l = true) s ∧ P s := by
  cases ended : m.run ok m.start ls with
  | none => simp [ended] at ran
  | some s => exact ⟨s, .extend .start ended, by simpa [ended] using ran⟩

/-- `exists_reaches_of_run` for a condition that need not be decidable, which the labels of the
run meet where `ok` does. -/
theorem exists_reaches_of_admitted (m : Machine σ ℓ) {admissible : σ → ℓ → Prop} (ok : σ → ℓ → Bool)
    (P : σ → Prop) [DecidablePred P] (ls : List ℓ)
    (admits : ∀ s, m.Reaches admissible s → ∀ l ∈ ls, ok s l = true → admissible s l)
    (ran : (m.run ok m.start ls).any (fun s => decide (P s)) = true) :
    ∃ s, m.Reaches admissible s ∧ P s := by
  have extend : ∀ s, m.Reaches admissible s → ∀ t, m.run ok s ls = some t → m.Reaches admissible t := by
    clear ran
    induction ls with
    | nil =>
      intro s reached t ended
      cases ended
      exact reached
    | cons l rest ih =>
      intro s reached t ended
      rw [run] at ended
      split at ended
      · obtain ⟨u, first, later⟩ := Option.bind_eq_some_iff.mp ended
        have admitted := admits s reached l List.mem_cons_self ‹_›
        refine ih (fun s reached l inside => ?_) u (.step reached admitted first) t later
        exact admits s reached l (List.mem_cons_of_mem _ inside)
      · cases ended
  cases ended : m.run ok m.start ls with
  | none => simp [ended] at ran
  | some s => exact ⟨s, extend _ .start s ended, by simpa [ended] using ran⟩

end Machine

end Takode
