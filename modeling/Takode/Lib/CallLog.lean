import Mathlib.Data.List.Nodup

/-!
# Logs of calls

Calls of a concurrent object as processes, and a log of those that have a result, in the
order in which they got it. The log is consistent with when the calls start and end.
-/

namespace Takode

universe u v

/-- What a log of calls shows: the entry of a call that has a result, the index of the call, the calls
that had ended when it started, and whether it has ended. -/
structure CallView (π : Type u) (ε : Type v) where
  entry : Nat → π → Option ε
  index : ε → Nat
  before : ε → List Nat
  prior : π → List Nat
  ended : π → Bool
  index_entry : ∀ {i p e}, entry i p = some e → index e = i
  before_entry : ∀ {i p e}, entry i p = some e → before e = prior p

namespace CallView

variable {π : Type u} {ε : Type v} (view : CallView π ε)

/-- The entry of the call `i`. -/
def entryAt (calls : List π) (i : Nat) : Option ε := calls[i]?.bind (view.entry i)

/-- The calls that have ended. -/
def endedCalls (calls : List π) : List Nat :=
  (List.range calls.length).filter fun i => calls[i]?.any view.ended

/-- The log after a step of the call `i`. -/
def logged (log : List ε) (i : Nat) (before after : List π) : List ε :=
  if (view.entryAt before i).isSome then log else log ++ (view.entryAt after i).toList

/-- The log lists the calls that have a result, each once, and never a call before one that had ended
when it started. -/
structure Logged (calls : List π) (log : List ε) : Prop where
  listed : ∀ i e, view.entryAt calls i = some e → e ∈ log
  known : ∀ e ∈ log, view.entryAt calls (view.index e) = some e
  distinct : (log.map view.index).Nodup
  earlier : ∀ (i : Nat) (p : π), calls[i]? = some p → ∀ j ∈ view.prior p,
    ∃ q, calls[j]? = some q ∧ view.ended q = true
  ordered : log.Pairwise fun e e' => view.index e' ∉ view.before e

variable {view} {calls calls' : List π} {log : List ε} {i j : Nat} {p : π} {e : ε}

theorem entryAt_eq_some :
    view.entryAt calls i = some e ↔ ∃ p, calls[i]? = some p ∧ view.entry i p = some e :=
  Option.bind_eq_some_iff

theorem entryAt_congr (same : calls'[i]? = calls[i]?) : view.entryAt calls' i = view.entryAt calls i := by
  unfold entryAt
  rw [same]

theorem mem_endedCalls :
    i ∈ view.endedCalls calls ↔ ∃ p, calls[i]? = some p ∧ view.ended p = true := by
  unfold endedCalls
  rw [List.mem_filter, List.mem_range]
  constructor
  · rintro ⟨inside, told⟩
    rw [List.getElem?_eq_getElem inside] at told
    exact ⟨_, List.getElem?_eq_getElem inside, told⟩
  · rintro ⟨p, here, told⟩
    refine ⟨(List.getElem?_eq_some_iff.mp here).1, ?_⟩
    rw [here]
    exact told

namespace Logged

theorem nil : view.Logged ([] : List π) [] where
  listed i e found := by cases found
  known e inside := absurd inside List.not_mem_nil
  distinct := .nil
  earlier i p here := by cases here
  ordered := .nil

variable (logged : view.Logged calls log)
include logged

/-- One call takes a step, or starts, and the others stay as they are. -/
theorem change (others : ∀ j, j ≠ i → calls'[j]? = calls[j]?)
    (settled : ∀ e, view.entryAt calls i = some e → view.entryAt calls' i = some e)
    (running : ∀ p, calls[i]? = some p → view.ended p = false)
    (before : ∀ p, calls'[i]? = some p → ∀ j ∈ view.prior p, j ∈ view.endedCalls calls) :
    view.Logged calls' (view.logged log i calls calls') := by
  have earlier : ∀ (j : Nat) (p : π), calls'[j]? = some p → ∀ k ∈ view.prior p,
      k ≠ i ∧ ∃ q, calls'[k]? = some q ∧ view.ended q = true := by
    intro j p here k inside
    obtain ⟨q, there, told⟩ : ∃ q, calls[k]? = some q ∧ view.ended q = true := by
      by_cases same : j = i
      · subst same
        exact mem_endedCalls.mp (before p here k inside)
      · exact logged.earlier j p ((others j same).symm.trans here) k inside
    have other : k ≠ i := by
      rintro rfl
      simp [running q there] at told
    exact ⟨other, q, (others k other).trans there, told⟩
  have known : ∀ e ∈ log, view.entryAt calls' (view.index e) = some e := by
    intro e inside
    by_cases same : view.index e = i
    · rw [same]
      exact settled e (same ▸ logged.known e inside)
    · rw [entryAt_congr (others _ same)]
      exact logged.known e inside
  have still {j : Nat} {e : ε} (other : j ≠ i) (found : view.entryAt calls' j = some e) : e ∈ log :=
    logged.listed j e ((entryAt_congr (others j other)).symm.trans found)
  unfold CallView.logged
  cases old : view.entryAt calls i with
  | some e =>
    rw [Option.isSome_some, if_pos rfl]
    refine ⟨fun j e' found => ?_, known, logged.distinct, fun j p here k inside =>
      (earlier j p here k inside).2, logged.ordered⟩
    by_cases same : j = i
    · subst same
      obtain rfl : e = e' := Option.some.inj ((settled e old).symm.trans found)
      exact logged.listed j e old
    · exact still same found
  | none =>
    rw [Option.isSome_none, if_neg Bool.false_ne_true]
    cases new : view.entryAt calls' i with
    | none =>
      rw [Option.toList_none, List.append_nil]
      refine ⟨fun j e' found => ?_, known, logged.distinct, fun j p here k inside =>
        (earlier j p here k inside).2, logged.ordered⟩
      by_cases same : j = i
      · subst same
        cases new.symm.trans found
      · exact still same found
    | some e =>
      obtain ⟨p, here, told⟩ := entryAt_eq_some.mp new
      have index : view.index e = i := view.index_entry told
      rw [Option.toList_some]
      refine ⟨fun j e' found => ?_, fun e' inside => ?_, ?_, fun j q there k inside =>
        (earlier j q there k inside).2, ?_⟩
      · by_cases same : j = i
        · subst same
          obtain rfl := Option.some.inj (new.symm.trans found)
          exact List.mem_append_right _ List.mem_cons_self
        · exact List.mem_append_left _ (still same found)
      · rcases List.mem_append.mp inside with before | last
        · exact known e' before
        · obtain rfl := List.mem_singleton.mp last
          rw [index]
          exact new
      · rw [List.map_append, List.map_singleton, List.nodup_append_comm, List.singleton_append,
          List.nodup_cons]
        refine ⟨fun listed => ?_, logged.distinct⟩
        obtain ⟨e', inside, same⟩ := List.mem_map.mp listed
        have found := logged.known e' inside
        rw [same, index, old] at found
        cases found
      · rw [List.pairwise_append]
        refine ⟨logged.ordered, List.pairwise_singleton _ _, fun e' inside last whole listed => ?_⟩
        obtain rfl := List.mem_singleton.mp whole
        obtain ⟨q, there, said⟩ := entryAt_eq_some.mp (known e' inside)
        rw [view.before_entry said, index] at listed
        exact (earlier _ q there i listed).1 rfl

end Logged

end CallView

end Takode
