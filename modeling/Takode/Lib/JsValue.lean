import Takode.Lib.JsMap
import Takode.Lib.JsString
import Mathlib.Algebra.Order.Floor.Ring
import Mathlib.Data.List.Sort
import Mathlib.Data.Rat.Floor

/-!
# JavaScript numbers and records

A number is a rational or not finite; nothing here tells the values that are not
finite apart. A record is an object used as a map with string keys.
-/

namespace Takode

/-- A JavaScript number. -/
inductive JsNumber where
  | finite (value : ℚ)
  | notFinite
  deriving DecidableEq

namespace JsNumber

/-- `Number.isSafeInteger`. -/
def isSafeInteger : JsNumber → Bool
  | finite value => value.den = 1 && decide (-(2 ^ 53 - 1) ≤ value.num ∧ value.num ≤ 2 ^ 53 - 1)
  | notFinite => false

/-- `n < m`. -/
def lt : JsNumber → ℚ → Bool
  | finite value, m => decide (value < m)
  | notFinite, _ => false

/-- `n > m`. -/
def gt : JsNumber → ℚ → Bool
  | finite value, m => decide (m < value)
  | notFinite, _ => false

/-- `Math.floor` of a number that is not negative. -/
def floor : JsNumber → Nat
  | finite value => ⌊value⌋.toNat
  | notFinite => 0

theorem isSafeInteger_natCast {n : Nat} (most : n ≤ 2 ^ 53 - 1) :
    (finite n).isSafeInteger = true := by
  simp only [isSafeInteger, Rat.den_natCast, Rat.num_natCast, decide_true, Bool.true_and]
  exact decide_eq_true ⟨by omega, by omega⟩

theorem floor_natCast (n : Nat) : (finite n).floor = n := by simp [floor]

end JsNumber

/-- `Record<string, α>`, its properties in the order in which they were added. -/
abbrev Record (α : Type) := JsMap JsString α

/-- `Object.keys`: array indices first, in ascending order, then the others as they were added. -/
def Record.ownKeys {α : Type} (r : Record α) : List JsString :=
  (r.keys.filter JsString.isArrayIndex).insertionSort
      (fun a b => JsString.digitsValue a ≤ JsString.digitsValue b) ++
    r.keys.filter fun k => !JsString.isArrayIndex k

theorem Record.mem_ownKeys {α : Type} {r : Record α} {k : JsString} :
    k ∈ r.ownKeys ↔ ∃ a, r.get? k = some a := by
  rw [← JsMap.mem_keys, ownKeys, List.mem_append, List.mem_insertionSort, List.mem_filter,
    List.mem_filter]
  cases k.isArrayIndex <;> simp

end Takode
