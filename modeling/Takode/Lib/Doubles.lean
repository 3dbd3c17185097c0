import Mathlib.Data.Int.Log
import Mathlib.Data.Rat.Floor
import Mathlib.Tactic.Linarith
import Mathlib.Tactic.Positivity

/-!
# Sums of doubles

The double that is nearest to a rational of ordinary size, of two that are as near the one whose
last digit is even. Rounding keeps the order of rationals, and keeps the integers up to `2 ^ 53`.
-/

namespace Takode.Doubles

/-- The nearest integer, and of two the even one. -/
def roundHalfEven (m : ℚ) : ℤ :=
  if Int.fract m < 1 / 2 then ⌊m⌋
  else if 1 / 2 < Int.fract m then ⌊m⌋ + 1
  else if ⌊m⌋ % 2 = 0 then ⌊m⌋ else ⌊m⌋ + 1

/-- How far apart the doubles lie at a rational. -/
def spacing (q : ℚ) : ℚ := 2 ^ (Int.log 2 q - 52)

/-- The nearest double. -/
def rounded (q : ℚ) : ℚ := roundHalfEven (q / spacing q) * spacing q

theorem floor_le_roundHalfEven (m : ℚ) : ⌊m⌋ ≤ roundHalfEven m := by
  unfold roundHalfEven
  split_ifs <;> omega

theorem roundHalfEven_le (m : ℚ) : roundHalfEven m ≤ ⌊m⌋ + 1 := by
  unfold roundHalfEven
  split_ifs <;> omega

theorem roundHalfEven_intCast (n : ℤ) : roundHalfEven n = n := by
  unfold roundHalfEven
  rw [Int.fract_intCast, if_pos (by norm_num), Int.floor_intCast]

theorem roundHalfEven_mono {a b : ℚ} (le : a ≤ b) : roundHalfEven a ≤ roundHalfEven b := by
  rcases (Int.floor_mono le).lt_or_eq with below | same
  · have left := roundHalfEven_le a
    have right := floor_le_roundHalfEven b
    omega
  · have fract : Int.fract a ≤ Int.fract b := by
      unfold Int.fract
      rw [same]
      linarith
    unfold roundHalfEven
    rw [same]
    split_ifs <;> first | omega | (exfalso; linarith)

theorem spacing_pos (q : ℚ) : 0 < spacing q := zpow_pos (by norm_num) _

/-- An integral multiple of the spacing is a double. -/
theorem rounded_of_multiple {q : ℚ} {n : ℤ} (multiple : q = n * spacing q) : rounded q = q := by
  have quotient : q / spacing q = n := by
    rw [div_eq_iff (spacing_pos q).ne']
    exact multiple
  rw [rounded, quotient, roundHalfEven_intCast, ← multiple]

theorem rounded_natCast {n : Nat} (small : n ≤ 2 ^ 53) : rounded n = n := by
  rcases Nat.eq_zero_or_pos n with rfl | positive
  · rw [rounded, Nat.cast_zero, zero_div]
    simpa using congrArg (fun i : ℤ => (i : ℚ) * spacing 0) (roundHalfEven_intCast 0)
  have one : (1 : ℚ) ≤ n := by exact_mod_cast positive
  have log : Int.log 2 (n : ℚ) = Nat.log 2 n := by
    rw [Int.log_of_one_le_right 2 one, Nat.floor_natCast]
  rcases small.lt_or_eq with below | rfl
  · have short : Nat.log 2 n ≤ 52 := by
      have := Nat.log_lt_of_lt_pow positive.ne' below
      omega
    have unit : spacing n = ((2 : ℚ) ^ (52 - Nat.log 2 n))⁻¹ := by
      rw [spacing, log, ← zpow_natCast, ← zpow_neg]
      congr 1
      omega
    apply rounded_of_multiple (n := (n * 2 ^ (52 - Nat.log 2 n) : ℕ))
    rw [unit]
    push_cast
    rw [mul_assoc, mul_inv_cancel₀ (by positivity), mul_one]
  · have unit : spacing ((2 ^ 53 : ℕ) : ℚ) = 2 := by
      rw [spacing, log, Nat.log_pow (by norm_num)]
      norm_num
    apply rounded_of_multiple (n := 2 ^ 52)
    rw [unit]
    norm_num

theorem pow_mul_spacing (q : ℚ) (n : ℕ) :
    2 ^ n * spacing q = 2 ^ (Int.log 2 q + (n - 52)) := by
  rw [spacing, ← zpow_natCast, ← zpow_add₀ (by norm_num)]
  congr 1
  ring

/-- A rational in units of its spacing has 53 digits. -/
theorem div_spacing_bounds {q : ℚ} (positive : 0 < q) :
    2 ^ 52 ≤ q / spacing q ∧ q / spacing q ≤ 2 ^ 53 := by
  constructor
  · rw [le_div_iff₀ (spacing_pos q), pow_mul_spacing]
    simpa using Int.zpow_log_le_self (b := 2) (by norm_num) positive
  · rw [div_le_iff₀ (spacing_pos q), pow_mul_spacing]
    have bound := Int.lt_zpow_succ_log_self (b := 2) (by norm_num) q
    exact bound.le.trans_eq (by norm_num)

theorem rounded_mono {a b : ℚ} (positive : 0 < a) (le : a ≤ b) : rounded a ≤ rounded b := by
  have positive' : 0 < b := positive.trans_le le
  rcases (Int.log_mono_right (b := 2) positive le).lt_or_eq with below | same
  · -- The least double of the larger size lies between the two.
    have up : rounded a ≤ 2 ^ (Int.log 2 a + 1) := by
      have most : roundHalfEven (a / spacing a) ≤ 2 ^ 53 := by
        have small : a / spacing a ≤ ((2 ^ 53 : ℤ) : ℚ) := by
          exact_mod_cast (div_spacing_bounds positive).2
        exact (roundHalfEven_mono small).trans_eq (roundHalfEven_intCast _)
      have most' : (roundHalfEven (a / spacing a) : ℚ) ≤ 2 ^ 53 := by exact_mod_cast most
      refine (mul_le_mul_of_nonneg_right most' (spacing_pos a).le).trans_eq ?_
      rw [pow_mul_spacing]
      norm_num
    have down : 2 ^ Int.log 2 b ≤ rounded b := by
      have least : 2 ^ 52 ≤ roundHalfEven (b / spacing b) := by
        have large : ((2 ^ 52 : ℤ) : ℚ) ≤ b / spacing b := by
          exact_mod_cast (div_spacing_bounds positive').1
        exact (roundHalfEven_intCast _).symm.trans_le (roundHalfEven_mono large)
      have least' : (2 : ℚ) ^ 52 ≤ roundHalfEven (b / spacing b) := by exact_mod_cast least
      refine (Eq.le ?_).trans (mul_le_mul_of_nonneg_right least' (spacing_pos b).le)
      rw [pow_mul_spacing]
      norm_num
    have between : (2 : ℚ) ^ (Int.log 2 a + 1) ≤ 2 ^ Int.log 2 b :=
      zpow_le_zpow_right₀ (by norm_num) below
    exact (up.trans between).trans down
  · have unit : spacing a = spacing b := by
      rw [spacing, same]
      rfl
    rw [rounded, rounded, unit]
    have quotients : a / spacing b ≤ b / spacing b :=
      div_le_div_of_nonneg_right le (spacing_pos b).le
    exact mul_le_mul_of_nonneg_right (by exact_mod_cast roundHalfEven_mono quotients)
      (spacing_pos b).le

end Takode.Doubles
