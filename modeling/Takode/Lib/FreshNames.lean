import Mathlib.Data.List.Sublists
import Mathlib.Data.Nat.Digits.Lemmas
import Takode.Lib.JsString

/-!
# Decimals and free names

The decimal digits of a number, and the first of the names `base`, `base-2`, `base-3`
and so on that is not taken.
-/

namespace Takode

namespace JsString

/-- The decimal digits of a number, as in a template literal. -/
def decimal (n : Nat) : JsString :=
  if n = 0 then [48] else (Nat.digits 10 n).reverse.map fun d => 48 + d.toUInt16

theorem digitsValue_append (s : JsString) (c : UInt16) :
    digitsValue (s ++ [c]) = 10 * digitsValue s + (c.toNat - 48) := by
  simp [digitsValue, List.foldl_append]

theorem digitsValue_digits (ds : List Nat) (small : ∀ d ∈ ds, d < 10) :
    digitsValue (ds.reverse.map fun d => 48 + d.toUInt16) = Nat.ofDigits 10 ds := by
  induction ds with
  | nil => rfl
  | cons d ds ih =>
    have below : d < 10 := small d List.mem_cons_self
    have digit : (48 + d.toUInt16 : UInt16).toNat - 48 = d := by
      interval_cases d <;> rfl
    rw [List.reverse_cons, List.map_append, List.map_singleton, digitsValue_append,
      ih fun d inside => small d (List.mem_cons_of_mem _ inside), digit, Nat.ofDigits_cons, add_comm]

@[simp] theorem digitsValue_decimal (n : Nat) : digitsValue (decimal n) = n := by
  unfold decimal
  split
  · rename_i zero
    rw [zero]
    rfl
  · rw [digitsValue_digits _ fun d inside => Nat.digits_lt_base (by decide) inside,
      Nat.ofDigits_digits]

theorem decimal_injective : Function.Injective decimal :=
  Function.LeftInverse.injective digitsValue_decimal

theorem digitsValue_eq_ofDigits (s : JsString) :
    digitsValue s = Nat.ofDigits 10 (s.reverse.map fun c => c.toNat - 48) := by
  induction s using List.reverseRecOn with
  | nil => rfl
  | append_singleton s c ih =>
    rw [digitsValue_append, ih, List.reverse_append, List.reverse_singleton, List.singleton_append,
      List.map_cons, Nat.ofDigits_cons, add_comm]

theorem toNat_of_isDigit {c : UInt16} (digit : isDigit c = true) : 48 ≤ c.toNat ∧ c.toNat ≤ 57 := by
  simpa only [isDigit, Bool.and_eq_true, decide_eq_true_eq, UInt16.le_iff_toNat_le,
    UInt16.reduceToNat] using digit

theorem digit_of_isDigit {c : UInt16} (digit : isDigit c = true) :
    48 + (c.toNat - 48).toUInt16 = c := by
  have range := toNat_of_isDigit digit
  refine UInt16.toNat_inj.mp ?_
  rw [UInt16.toNat_add, Nat.toUInt16_eq, UInt16.toNat_ofNat']
  simp only [UInt16.reduceToNat]
  omega

theorem decimal_digitsValue {s : JsString} (index : isArrayIndex s = true) :
    decimal (digitsValue s) = s := by
  simp only [isArrayIndex, Bool.and_eq_true, Bool.not_eq_true', List.isEmpty_eq_false_iff,
    List.all_eq_true, Bool.or_eq_true, decide_eq_true_eq] at index
  obtain ⟨⟨⟨filled, digits⟩, leading⟩, -⟩ := index
  cases s with
  | nil => exact absurd rfl filled
  | cons c rest =>
    by_cases zero : c = 48
    · subst zero
      have single : rest = [] := by simpa using leading
      subst single
      rfl
    · have first : c.toNat - 48 ≠ 0 := by
        have range := toNat_of_isDigit (digits c List.mem_cons_self)
        have other : c.toNat ≠ 48 := fun same => zero (UInt16.toNat_inj.mp same)
        omega
      have kept : Nat.digits 10 (digitsValue (c :: rest)) =
          (c :: rest).reverse.map fun c => c.toNat - 48 := by
        rw [digitsValue_eq_ofDigits]
        refine Nat.digits_ofDigits 10 (by decide) _ (fun d inside => ?_) fun _ => ?_
        · obtain ⟨c', listed, rfl⟩ := List.mem_map.mp inside
          have range := toNat_of_isDigit (digits c' (List.mem_reverse.mp listed))
          omega
        · simpa using first
      have positive : digitsValue (c :: rest) ≠ 0 := by
        rw [← Nat.digits_ne_nil_iff_ne_zero (b := 10), kept]
        simp
      rw [decimal, if_neg positive, kept, ← List.map_reverse, List.reverse_reverse, List.map_map]
      refine (List.map_congr_left fun c' listed => ?_).trans (List.map_id _)
      exact digit_of_isDigit (digits c' listed)

theorem isDigit_of_mem_decimal {n : Nat} {c : UInt16} (inside : c ∈ decimal n) :
    isDigit c = true := by
  unfold decimal at inside
  split at inside
  · obtain rfl := List.mem_singleton.mp inside
    rfl
  · obtain ⟨d, digit, rfl⟩ := List.mem_map.mp inside
    have below : d < 10 := Nat.digits_lt_base (by decide) (List.mem_reverse.mp digit)
    interval_cases d <;> rfl

theorem decimal_ne_nil (n : Nat) : decimal n ≠ [] := by
  unfold decimal
  split
  · exact List.cons_ne_nil _ _
  · rename_i positive
    simpa using Nat.digits_ne_nil_iff_ne_zero.mpr positive

/-- `${base}-${suffix}`. -/
def suffixed (base : JsString) (suffix : Nat) : JsString := base ++ js "-" ++ decimal suffix

theorem suffixed_injective (base : JsString) : Function.Injective (suffixed base) := fun _ _ same =>
  decimal_injective (List.append_cancel_left same)

theorem suffixed_ne (base : JsString) (suffix : Nat) : suffixed base suffix ≠ base := by
  intro same
  have short := congrArg List.length same
  simp [suffixed, js] at short

end JsString

open JsString

/-- `while (taken(name)) name = base-suffix++`, at most `fuel` times. -/
def nextFree (taken : JsString → Bool) (base : JsString) : Nat → Nat → JsString → JsString
  | 0, _, name => name
  | fuel + 1, suffix, name =>
    if taken name then nextFree taken base fuel (suffix + 1) (suffixed base suffix) else name

/-- The first of `base`, `base-2`, `base-3` and so on that is not taken, among more names than are
taken. -/
def firstFree (taken : JsString → Bool) (base : JsString) (count : Nat) : JsString :=
  nextFree taken base (count + 1) 2 base

section Free

variable {taken : JsString → Bool} {base name : JsString} {names tried : List JsString}

/-- The loop ends: it does not try as many names as there are. -/
theorem nextFree_free (listed : ∀ s, taken s = true → s ∈ names) :
    ∀ fuel suffix name tried, (name :: tried).Nodup →
      (∀ later ≥ suffix, suffixed base later ∉ name :: tried) → (∀ s ∈ tried, s ∈ names) →
      names.length < tried.length + fuel → taken (nextFree taken base fuel suffix name) = false := by
  intro fuel
  induction fuel with
  | zero =>
    intro suffix name tried distinct fresh inside many
    have short := (List.subperm_of_subset (List.nodup_cons.mp distinct).2 inside).length_le
    exact absurd many (not_lt_of_ge short)
  | succ fuel ih =>
    intro suffix name tried distinct fresh inside many
    unfold nextFree
    split
    · rename_i occupied
      refine ih (suffix + 1) (suffixed base suffix) (name :: tried) ?_ ?_ ?_ ?_
      · exact List.nodup_cons.mpr ⟨fresh suffix le_rfl, distinct⟩
      · intro later after
        rw [List.mem_cons, not_or]
        refine ⟨fun same => ?_, fresh later (Nat.le_of_succ_le after)⟩
        exact Nat.ne_of_gt after (suffixed_injective base same)
      · intro s among
        rcases List.mem_cons.mp among with rfl | among
        · exact listed _ occupied
        · exact inside s among
      · rw [List.length_cons]
        omega
    · rename_i free
      exact Bool.eq_false_iff.mpr free

theorem firstFree_free (listed : ∀ s, taken s = true → s ∈ names) :
    taken (firstFree taken base names.length) = false := by
  refine nextFree_free listed (names.length + 1) 2 base [] ?_ ?_ ?_ ?_
  · simp
  · intro later _
    simpa using suffixed_ne base later
  · simp
  · simp

theorem nextFree_ne_nil (nonempty : name ≠ []) (fuel suffix : Nat) :
    nextFree taken base fuel suffix name ≠ [] := by
  induction fuel generalizing suffix name with
  | zero => exact nonempty
  | succ fuel ih =>
    unfold nextFree
    split
    · refine ih (fun empty => ?_) (suffix + 1)
      simp [suffixed, js] at empty
    · exact nonempty

end Free

end Takode
