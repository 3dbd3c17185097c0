import Mathlib.Logic.Relation

/-!
# Programs that change a state and can fail

What a program did before it failed stays done. `Does` is a triple that also says
by which steps the state moved, whether or not the program failed: an invariant
that survives these steps survives the program.
-/

namespace Takode

/-- A program over a state `σ` that can fail with an `ε`. -/
abbrev Program (σ ε α : Type) := ExceptT ε (StateM σ) α

namespace Program

variable {σ ε α β : Type}

/-- The state a program leaves behind. -/
def after (p : Program σ ε α) (s : σ) : σ := (p.run.run s).2

/-- What a program returns. -/
def result (p : Program σ ε α) (s : σ) : Except ε α := (p.run.run s).1

/-- Goes on only where `c` holds. -/
def require (c : Bool) (failure : ε) : Program σ ε Unit := if c then pure () else throw failure

/-- Fails where there is a failure. -/
def refuse : Option ε → Program σ ε Unit
  | none => pure ()
  | some failure => throw failure

/-- What an option holds. -/
def orThrow (failure : ε) : Option α → Program σ ε α
  | some a => pure a
  | none => throw failure

/-- The program on each element, from left to right, counting from `n`. -/
def eachFrom (f : Nat → α → Program σ ε Unit) (n : Nat) : List α → Program σ ε Unit
  | [] => pure ()
  | a :: rest => do
    f n a
    eachFrom f (n + 1) rest

def each (f : α → Program σ ε Unit) (list : List α) : Program σ ε Unit :=
  eachFrom (fun _ => f) 0 list

/-- From a state with `P` the program moves by steps of `R`, and ends with `Q` unless it fails. -/
def Does (R : σ → σ → Prop) (P : σ → Prop) (p : Program σ ε α) (Q : α → σ → Prop) : Prop :=
  ∀ s, P s → Relation.ReflTransGen R s (p.after s) ∧ ∀ a, p.result s = .ok a → Q a (p.after s)

namespace Does

variable {R : σ → σ → Prop} {P P' Q' : σ → Prop} {Q : α → σ → Prop} {p : Program σ ε α}

theorem weaken {S : α → σ → Prop} (does : Does R P p Q) (pre : ∀ s, P' s → P s)
    (post : ∀ a s, Q a s → S a s) : Does R P' p S := by
  intro s holds
  obtain ⟨moved, ends⟩ := does s (pre s holds)
  exact ⟨moved, fun a returned => post a _ (ends a returned)⟩

theorem steps {R' : σ → σ → Prop} (does : Does R P p Q) (more : ∀ s t, R s t → R' s t) :
    Does R' P p Q := by
  intro s holds
  obtain ⟨moved, ends⟩ := does s holds
  exact ⟨Relation.ReflTransGen.mono more _ _ moved, ends⟩

theorem known (does : ∀ s, P s → Does R (· = s) p Q) : Does R P p Q :=
  fun s holds => does s holds s rfl

/-- A program ends where its steps have led. -/
theorem tracked {s : σ} (does : Does R (· = s) p Q) :
    Does R (· = s) p fun a t => Relation.ReflTransGen R s t ∧ Q a t := by
  rintro t rfl
  obtain ⟨moved, ends⟩ := does t rfl
  exact ⟨moved, fun a returned => ⟨moved, ends a returned⟩⟩

theorem pure {a : α} (holds : ∀ s, P s → Q a s) : Does R P (Pure.pure a : Program σ ε α) Q := by
  intro s start
  refine ⟨.refl, fun b returned => ?_⟩
  cases returned
  exact holds s start

theorem throw {failure : ε} : Does R P (MonadExcept.throw failure : Program σ ε α) Q := by
  intro s start
  exact ⟨.refl, fun b returned => by cases returned⟩

theorem bind {S : β → σ → Prop} {f : α → Program σ ε β} (first : Does R P p Q)
    (later : ∀ a, Does R (Q a) (f a) S) : Does R P (p >>= f) S := by
  intro s start
  obtain ⟨moved, ends⟩ := first s start
  have split : (p >>= f).run.run s = match p.run.run s with
      | (.ok a, t) => (f a).run.run t
      | (.error e, t) => (.error e, t) := by
    simp only [ExceptT.run_bind, StateT.run_bind]
    cases p.run.run s with
    | mk returned t => cases returned <;> rfl
  unfold after result at *
  rw [split]
  cases ran : p.run.run s with
  | mk returned t =>
    rw [ran] at moved ends
    cases returned with
    | error e => exact ⟨moved, fun b returned => by cases returned⟩
    | ok a =>
      obtain ⟨next, last⟩ := later a t (ends a rfl)
      exact ⟨moved.trans next, last⟩

theorem require {c : Bool} {failure : ε} (holds : c = true → ∀ s, P s → Q' s) :
    Does R P (Program.require c failure : Program σ ε Unit) fun _ => Q' := by
  cases c with
  | false => exact throw
  | true => exact pure (holds rfl)

/-! What a program does first, at a state that is known. -/

section First

variable {s : σ} {S : β → σ → Prop} {failure : ε}

/-- What is known of the result of a program that leaves the state alone. -/
theorem spec_bind {C : α → Prop} {f : α → Program σ ε β}
    (spec : Does R (· = s) p fun a t => t = s ∧ C a)
    (later : ∀ a, C a → Does R (· = s) (f a) S) : Does R (· = s) (p >>= f) S := by
  refine bind spec fun a => ?_
  rintro t ⟨rfl, known⟩
  exact later a known _ rfl

theorem get_bind {f : σ → Program σ ε β} (later : Does R (· = s) (f s) S) :
    Does R (· = s) (get >>= f) S := by
  refine bind (Q := fun a t => a = s ∧ t = s) ?_ fun a => ?_
  · rintro t rfl
    refine ⟨.refl, fun a returned => ?_⟩
    cases returned
    exact ⟨rfl, rfl⟩
  · rintro t ⟨rfl, rfl⟩
    exact later _ rfl

theorem modify {g : σ → σ} (step : R s (g s)) :
    Does R (· = s) (modify g : Program σ ε Unit) fun _ t => t = g s := by
  rintro t rfl
  exact ⟨.single step, fun _ _ => rfl⟩

theorem modify_bind {g : σ → σ} {f : Unit → Program σ ε β} (step : R s (g s))
    (later : Does R (· = g s) (f ()) S) :
    Does R (· = s) ((MonadState.modifyGet fun s => ((), g s) : Program σ ε Unit) >>= f) S :=
  bind (modify step) fun _ => later

theorem require_bind {c : Bool} {f : Unit → Program σ ε β}
    (later : c = true → Does R P (f ()) S) : Does R P (Program.require c failure >>= f) S := by
  cases c with
  | false => exact bind (Q := fun _ _ => False) throw fun _ _ never => never.elim
  | true => exact bind (Q := fun _ => P) (pure fun _ holds => holds) fun _ => later rfl

theorem refuse_bind {option : Option ε} {f : Unit → Program σ ε β}
    (later : option = none → Does R P (f ()) S) : Does R P (refuse option >>= f) S := by
  cases option with
  | none => exact bind (Q := fun _ => P) (pure fun _ holds => holds) fun _ => later rfl
  | some failure => exact bind (Q := fun _ _ => False) throw fun _ _ never => never.elim

theorem orThrow_bind {option : Option α} {f : α → Program σ ε β}
    (later : ∀ a, option = some a → Does R P (f a) S) :
    Does R P (orThrow failure option >>= f) S := by
  cases option with
  | none => exact bind (Q := fun _ _ => False) throw fun _ _ never => never.elim
  | some a =>
    refine bind (Q := fun b t => b = a ∧ P t) (pure fun _ holds => ⟨rfl, holds⟩) fun b => ?_
    rintro t ⟨rfl, holds⟩
    exact later _ rfl t holds

end First

theorem ite {c : Prop} [Decidable c] {q : Program σ ε α} (yes : c → Does R P p Q)
    (no : ¬ c → Does R P q Q) : Does R P (if c then p else q) Q := by
  split
  · exact yes ‹_›
  · exact no ‹_›

/-- The loop rule: `P` says what holds before the elements still to come. -/
theorem eachFrom {f : Nat → β → Program σ ε Unit} {P : List β → σ → Prop}
    (body : ∀ n b rest, Does R (P (b :: rest)) (f n b) fun _ => P rest) (n : Nat)
    (list : List β) : Does R (P list) (eachFrom f n list) fun _ => P [] := by
  induction list generalizing n with
  | nil => exact pure fun _ start => start
  | cons b rest ih => exact bind (body n b rest) fun _ => ih (n + 1)

/-- A program whose one step is from its start has taken it or has done nothing. -/
theorem one {s : σ} {S : σ → Prop} (does : Does (fun t u => t = s ∧ S u) (· = s) p Q) :
    p.after s = s ∨ S (p.after s) := by
  obtain ⟨moved, -⟩ := does s rfl
  rcases Relation.ReflTransGen.cases_tail moved with same | ⟨t, -, -, taken⟩
  · exact .inl same
  · exact .inr taken

end Does

end Program

end Takode
