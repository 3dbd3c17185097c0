import Mathlib.Algebra.Order.BigOperators.Group.List
import Takode.SessionHistory.Saving

/-!
# Obsolete bytes

A generation never holds much more than what is still referred to: where obsolete bytes outweigh live
ones, a save starts a generation, and all that it writes is live.
-/

namespace Takode.SessionHistory

open JsString JsonText

variable {sha : Sha256} {sessionId : JsString}

/-! ## Ranges -/

section Strings

variable (written : List (JsString × StringRange)) {strings : JsMap JsString StringRange}

end Strings

/-- Strings that are in no file yet, each listed with the frozen ones or with the others. -/
structure Unwritten (references : References) : Prop where
  frozen : ∀ text ∈ references.newlyFrozen, (references.frozenStrings.get? text).isSome
  distinct : (references.unwritten.map (·.1)).Nodup
  listed : (references.unwritten.map (·.1)).Perm (references.newlyFrozen ++ references.strings.keys)

theorem Unwritten.reference {references : References} (unwritten : Unwritten references)
    (use : JsString × Bool) : Unwritten (reference none references use) := by
  obtain ⟨text, frozen⟩ := use
  unfold SessionHistory.reference
  dsimp only [Option.bind_none, Option.getD_none]
  by_cases known : (references.find? text).isSome
  · rw [if_pos known]
    exact unwritten
  have absent := Option.or_eq_none_iff.mp (Option.not_isSome_iff_eq_none.mp known)
  have new : text ∉ references.unwritten.map (·.1) := by
    intro inside
    obtain inside | inside := List.mem_append.mp (unwritten.listed.mem_iff.mp inside)
    · have present := unwritten.frozen text inside
      rw [absent.1] at present
      cases present
    · obtain ⟨_, present⟩ := JsMap.mem_keys.mp inside
      rw [absent.2] at present
      cases present
  have distinct := unwritten.distinct.append (List.nodup_singleton text) (List.disjoint_singleton.mpr new)
  have listed := unwritten.listed.append_right [text]
  rw [List.append_assoc] at listed
  rw [if_neg known]
  cases frozen with
  | true =>
    refine ⟨fun other inside => ?_, by simpa using distinct, ?_⟩
    · simp only [if_true, List.mem_append, List.mem_singleton, JsMap.get?_set] at inside ⊢
      split
      · rfl
      · exact unwritten.frozen other (inside.resolve_right ‹_›)
    · simp only [if_true, List.map_append, List.map_cons, List.map_nil, List.append_assoc]
      exact listed.trans (.append_left _ List.perm_append_comm)
  | false =>
    refine ⟨unwritten.frozen, by simpa using distinct, ?_⟩
    simp only [Bool.false_eq_true, if_false, if_true, List.map_append, List.map_cons, List.map_nil]
    rw [JsMap.keys_set_of_absent absent.2]
    exact listed

end Takode.SessionHistory
