import Mathlib.Tactic.Ring
import RipInterpreter.Number.Reading

/-!
Integers rounded to 53 significant bits, ties to the even mantissa: what a double-precision number
keeps of an integer. `roundQuotient n k` is `n / 2 ^ k` rounded, `nearest n` is rounded where its 53
leading bits end, and `nearestInteger` rounds magnitudes.
-/

namespace RipInterpreter.Number

theorem fitsInteger_iff {n : Int} : fitsInteger n = true ↔ -2 ^ 63 ≤ n ∧ n < 2 ^ 63 := by
  simp [fitsInteger]

/-- The quotient of `n` and `2 ^ k`, rounded to the nearest number, ties to even. -/
def roundQuotient (n k : Nat) : Nat :=
  if 2 * (n % 2 ^ k) < 2 ^ k then n / 2 ^ k
  else if 2 * (n % 2 ^ k) = 2 ^ k then n / 2 ^ k + n / 2 ^ k % 2
  else n / 2 ^ k + 1

/-- The number with 53 significant bits that is nearest to `n`. -/
def nearest (n : Nat) : Nat :=
  roundQuotient n (n.log2 - 52) * 2 ^ (n.log2 - 52)

/-- The integer with 53 significant bits that is nearest to `x`. -/
def nearestInteger (x : Int) : Int :=
  if x < 0 then -(nearest x.natAbs : Int) else nearest x.natAbs

variable {m n k : Nat} {x y : Int}

theorem le_roundQuotient (n k : Nat) : n / 2 ^ k ≤ roundQuotient n k := by
  unfold roundQuotient
  split
  · exact Nat.le_refl _
  · split <;> omega

theorem roundQuotient_le_succ (n k : Nat) : roundQuotient n k ≤ n / 2 ^ k + 1 := by
  unfold roundQuotient
  split
  · omega
  · split <;> omega

theorem roundQuotient_zero (n : Nat) : roundQuotient n 0 = n := by
  simp [roundQuotient, Nat.mod_one]

theorem roundQuotient_mul_pow (n k j : Nat) :
    roundQuotient (n * 2 ^ j) (k + j) = roundQuotient n k := by
  have positive : 0 < 2 ^ j := Nat.two_pow_pos j
  have quotient : n * 2 ^ j / 2 ^ (k + j) = n / 2 ^ k := by
    rw [Nat.pow_add, Nat.mul_div_mul_right _ _ positive]
  have rest : n * 2 ^ j % 2 ^ (k + j) = n % 2 ^ k * 2 ^ j := by
    rw [Nat.pow_add, Nat.mul_mod_mul_right]
  have less : 2 * (n % 2 ^ k * 2 ^ j) < 2 ^ (k + j) ↔ 2 * (n % 2 ^ k) < 2 ^ k := by
    rw [Nat.pow_add, ← Nat.mul_assoc]
    exact Nat.mul_lt_mul_right positive
  have same : 2 * (n % 2 ^ k * 2 ^ j) = 2 ^ (k + j) ↔ 2 * (n % 2 ^ k) = 2 ^ k := by
    rw [Nat.pow_add, ← Nat.mul_assoc]
    exact Nat.mul_left_inj (Nat.ne_of_gt positive)
  simp only [roundQuotient, quotient, rest, less, same]

theorem roundQuotient_mono (k : Nat) (ordered : m ≤ n) : roundQuotient m k ≤ roundQuotient n k := by
  rcases Nat.lt_or_ge (m / 2 ^ k) (n / 2 ^ k) with apart | together
  · calc roundQuotient m k ≤ m / 2 ^ k + 1 := roundQuotient_le_succ m k
      _ ≤ n / 2 ^ k := apart
      _ ≤ roundQuotient n k := le_roundQuotient n k
  · have quotients : m / 2 ^ k = n / 2 ^ k :=
      Nat.le_antisymm (Nat.div_le_div_right ordered) together
    have rests : m % 2 ^ k ≤ n % 2 ^ k := by
      have first := Nat.div_add_mod m (2 ^ k)
      have second := Nat.div_add_mod n (2 ^ k)
      rw [quotients] at first
      omega
    unfold roundQuotient
    rw [quotients]
    split <;> split <;> try split
    all_goals try split
    all_goals omega

/-- The 53 leading bits of a number, read as a number, are at least `2 ^ 52`. -/
theorem two_pow_le_leading (large : 52 ≤ n.log2) : 2 ^ 52 ≤ n / 2 ^ (n.log2 - 52) := by
  have positive : n ≠ 0 := fun zero => by simp [zero] at large
  rw [Nat.le_div_iff_mul_le (Nat.two_pow_pos _), ← Nat.pow_add, Nat.add_sub_cancel' large]
  exact Nat.log2_self_le positive

theorem leading_lt_two_pow (n : Nat) : n / 2 ^ (n.log2 - 52) < 2 ^ 53 := by
  rw [Nat.div_lt_iff_lt_mul (Nat.two_pow_pos _), ← Nat.pow_add]
  exact Nat.lt_of_lt_of_le Nat.lt_log2_self
    (Nat.pow_le_pow_right (by decide) (by omega))

theorem nearest_eq_self (small : n ≤ 2 ^ 53) : nearest n = n := by
  rcases Nat.lt_or_eq_of_le small with below | rfl
  · have few : n.log2 - 52 = 0 := by
      by_cases zero : n = 0
      · simp [zero]
      · have := (Nat.log2_lt zero).mpr below
        omega
    simp only [nearest, few, roundQuotient_zero, Nat.pow_zero, Nat.mul_one]
  · decide +kernel

theorem two_pow_log2_le_nearest (positive : n ≠ 0) : 2 ^ n.log2 ≤ nearest n := by
  rcases Nat.lt_or_ge n.log2 52 with few | many
  · have exact := nearest_eq_self (n := n)
      (Nat.le_of_lt (Nat.lt_of_lt_of_le Nat.lt_log2_self
        (Nat.pow_le_pow_right (by decide) (by omega))))
    rw [exact]
    exact Nat.log2_self_le positive
  · calc 2 ^ n.log2 = 2 ^ 52 * 2 ^ (n.log2 - 52) := by
          rw [← Nat.pow_add, Nat.add_sub_cancel' many]
      _ ≤ nearest n := Nat.mul_le_mul_right _
          (Nat.le_trans (two_pow_le_leading many) (le_roundQuotient n _))

theorem nearest_le_two_pow (n : Nat) : nearest n ≤ 2 ^ (n.log2 + 1) := by
  rcases Nat.lt_or_ge n.log2 52 with few | many
  · have below : n < 2 ^ (n.log2 + 1) := Nat.lt_log2_self
    have exact := nearest_eq_self (n := n) (Nat.le_of_lt (Nat.lt_of_lt_of_le below
      (Nat.pow_le_pow_right (by decide) (by omega))))
    omega
  · calc nearest n ≤ 2 ^ 53 * 2 ^ (n.log2 - 52) := Nat.mul_le_mul_right _
          (Nat.le_trans (roundQuotient_le_succ n _) (leading_lt_two_pow n))
      _ = 2 ^ (n.log2 + 1) := by
          rw [← Nat.pow_add]
          congr 1
          omega

theorem nearest_le (upper : n < 2 ^ 64) : nearest n ≤ 2 ^ 64 := by
  by_cases zero : n = 0
  · subst zero
    decide
  · exact Nat.le_trans (nearest_le_two_pow n)
      (Nat.pow_le_pow_right (by decide) ((Nat.log2_lt zero).mpr upper))

/-- Rounding keeps the order. -/
theorem nearest_mono (ordered : m ≤ n) : nearest m ≤ nearest n := by
  by_cases zero : m = 0
  · simp [zero, nearest, roundQuotient]
  · have positive : n ≠ 0 := by omega
    have logs : m.log2 ≤ n.log2 := by
      rw [Nat.le_log2 positive]
      exact Nat.le_trans (Nat.log2_self_le zero) ordered
    rcases Nat.lt_or_eq_of_le logs with shorter | same
    · calc nearest m ≤ 2 ^ (m.log2 + 1) := nearest_le_two_pow m
        _ ≤ 2 ^ n.log2 := Nat.pow_le_pow_right (by decide) shorter
        _ ≤ nearest n := two_pow_log2_le_nearest positive
    · simp only [nearest, same]
      exact Nat.mul_le_mul_right _ (roundQuotient_mono _ ordered)

theorem nearestInteger_mono (ordered : x ≤ y) : nearestInteger x ≤ nearestInteger y := by
  unfold nearestInteger
  split
  · split
    · have := nearest_mono (show y.natAbs ≤ x.natAbs by omega)
      omega
    · omega
  · split
    · omega
    · have := nearest_mono (show x.natAbs ≤ y.natAbs by omega)
      omega

theorem nearestInteger_eq_self (small : x.natAbs ≤ 2 ^ 53) : nearestInteger x = x := by
  unfold nearestInteger
  rw [nearest_eq_self small]
  split <;> omega

/-- Rounded integers that are apart were apart in the same order. -/
theorem lt_of_nearestInteger_lt (apart : nearestInteger x < nearestInteger y) : x < y :=
  Int.not_le.mp fun reversed => Int.not_le.mpr apart (nearestInteger_mono reversed)

end RipInterpreter.Number
