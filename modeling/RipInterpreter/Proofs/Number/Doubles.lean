import Mathlib
import RipInterpreter.Proofs.Number.Rounding

namespace RipInterpreter.Number

open Float.Model Float.Model.UnpackedFloat

variable {m n k : Nat} {x y : Int} {e : Int}

/-- The mantissa `n` after `k` shifts: the bits that fell out are kept as two, whether they make up
half a unit and whether they differ from no and from half a unit. -/
theorem shifted_mantissa (n k : Nat) :
    Nat.repeat ExtendedMantissa.shiftRightOne k ⟨n, false, false⟩ =
      ⟨n / 2 ^ k, decide (2 ^ k ≤ 2 * (n % 2 ^ k)),
        decide (n % 2 ^ k ≠ 0 ∧ 2 * (n % 2 ^ k) ≠ 2 ^ k)⟩ := by
  induction k with
  | zero => simp [Nat.repeat, Nat.mod_one]
  | succ k ih =>
      have below : n % 2 ^ k < 2 ^ k := Nat.mod_lt _ (Nat.two_pow_pos k)
      have rest : n % 2 ^ (k + 1) = n % 2 ^ k + 2 ^ k * (n / 2 ^ k % 2) := Nat.mod_pow_succ
      have quotient : n / 2 ^ (k + 1) = n / 2 ^ k / 2 := by
        rw [Nat.pow_succ, Nat.div_div_eq_div_mul]
      have double : 2 ^ (k + 1) = 2 * 2 ^ k := Nat.pow_succ'
      simp only [Nat.repeat, ih, ExtendedMantissa.shiftRightOne, rest, quotient,
        ExtendedMantissa.mk.injEq, true_and, ← Bool.decide_or]
      rw [double]
      rcases Nat.mod_two_eq_zero_or_one (n / 2 ^ k) with even | odd
      · simp only [even, Nat.mul_zero, Nat.add_zero]
        constructor
        · simp only [bne_self_eq_false, Bool.false_eq, decide_eq_false_iff_not]; omega
        · rw [decide_eq_decide]; omega
      · simp only [odd, Nat.mul_one]
        constructor
        · simp only [bne_iff_ne.mpr Nat.one_ne_zero, Bool.true_eq, decide_eq_true_eq]; omega
        · rw [decide_eq_decide]; omega

/-- Rounding what is left after shifts is rounding the quotient. -/
theorem rounded_shifted (n k : Nat) :
    (Nat.repeat ExtendedMantissa.shiftRightOne k ⟨n, false, false⟩).roundedMantissa =
      roundQuotient n k := by
  have positive := Nat.two_pow_pos k
  rw [shifted_mantissa]
  unfold roundQuotient
  split
  case isTrue under =>
    have low : decide (2 ^ k ≤ 2 * (n % 2 ^ k)) = false := by simp; omega
    rw [low]
    cases decide (n % 2 ^ k ≠ 0 ∧ 2 * (n % 2 ^ k) ≠ 2 ^ k) <;> rfl
  case isFalse beyond =>
    have high : decide (2 ^ k ≤ 2 * (n % 2 ^ k)) = true := by simp; omega
    rw [high]
    split
    case isTrue half =>
      have tie : decide (n % 2 ^ k ≠ 0 ∧ 2 * (n % 2 ^ k) ≠ 2 ^ k) = false := by simp; omega
      rw [tie]
      rfl
    case isFalse more =>
      have apart : decide (n % 2 ^ k ≠ 0 ∧ 2 * (n % 2 ^ k) ≠ 2 ^ k) = true := by simp; omega
      rw [apart]
      rfl

/-- A number in normal form that stands for an integer: zero, or `m * 2 ^ (e - 52)` with 53 bits in
`m` and the value an integer. -/
inductive Denotes : UnpackedFloat → Int → Prop where
  | zero (sign : Sign) : Denotes (.zero sign) 0
  | finite {m e value : Nat} (sign : Sign) (positive : 0 < m) (lower : 2 ^ 52 ≤ m)
      (upper : m < 2 ^ 53) (scaled : m * 2 ^ e = value * 2 ^ 52) :
      Denotes (.finite sign m ((e : Int) - 52) positive) (sign.apply value)

theorem mantissaBits_binary64 : Format.binary64.mantissaBits = 53 := rfl

theorem minExponent_binary64 : Format.binary64.minExponent = -1074 := by decide

/-- A mantissa of at least 53 bits is shifted until 53 are left. -/
theorem shiftToTargetExponent_eq (large : 52 ≤ m.log2)
    (range : -1074 ≤ e + ((m.log2 - 52 : Nat) : Int)) :
    shiftToTargetExponent Format.binary64 m e .exact =
      (Nat.repeat ExtendedMantissa.shiftRightOne (m.log2 - 52) ⟨m, false, false⟩,
        e + ((m.log2 - 52 : Nat) : Int)) := by
  have target : Format.binary64.targetExponent (totalExponent m e) =
      e + ((m.log2 - 52 : Nat) : Int) := by
    simp only [Format.targetExponent, totalExponent, mantissaBits_binary64, minExponent_binary64]
    omega
  have amount : (e + ((m.log2 - 52 : Nat) : Int) - e).toNat = m.log2 - 52 := by omega
  simp only [shiftToTargetExponent, shiftToExponent, target, amount,
    ExtendedMantissa.ofMantissaAndAccuracy]
  rfl

theorem log2_of_bounds (lower : 2 ^ 52 ≤ m) (upper : m < 2 ^ 53) : m.log2 = 52 := by
  have positive : m ≠ 0 := by omega
  exact (Nat.log2_eq_iff positive).mpr ⟨lower, upper⟩

/-- A rounded mantissa may be `2 ^ 53`; it is then shifted once more. -/
theorem denotes_carried {j value : Nat} (sign : Sign) (lower : 2 ^ 52 ≤ m) (upper : m ≤ 2 ^ 53)
    (scaled : m * 2 ^ j = value * 2 ^ 52) :
    Denotes
      (let shifted := shiftToTargetExponent Format.binary64 m ((j : Int) - 52) .exact
       if zero : shifted.1.mantissa = 0 then .zero sign
       else .finite sign shifted.1.mantissa shifted.2 (Nat.pos_of_ne_zero zero))
      (sign.apply value) := by
  rcases Nat.lt_or_eq_of_le upper with below | rfl
  · have bits := log2_of_bounds lower below
    have kept : shiftToTargetExponent Format.binary64 m ((j : Int) - 52) .exact =
        (⟨m, false, false⟩, (j : Int) - 52) := by
      rw [shiftToTargetExponent_eq (by omega) (by omega), bits]
      simp [Nat.repeat]
    simp only [kept]
    rw [dif_neg (by omega)]
    exact .finite sign _ lower below scaled
  · have carried : shiftToTargetExponent Format.binary64 (2 ^ 53) ((j : Int) - 52) .exact =
        (⟨2 ^ 52, false, false⟩, ((j + 1 : Nat) : Int) - 52) := by
      rw [shiftToTargetExponent_eq (by rw [Nat.log2_two_pow]; decide) (by omega), Nat.log2_two_pow,
        shifted_mantissa, Prod.mk.injEq]
      exact ⟨by congr, by omega⟩
    simp only [carried]
    rw [dif_neg (by decide)]
    refine .finite sign _ (by decide) (by decide) ?_
    rw [← scaled, Nat.pow_succ 2 j]
    ring

/-- A mantissa of at least 53 bits is rounded to the nearest one of 53 bits. -/
theorem denotes_roundWithAccuracy {j value : Nat} (sign : Sign) (large : 52 ≤ m.log2)
    (exponent : e + ((m.log2 - 52 : Nat) : Int) = (j : Int) - 52)
    (scaled : roundQuotient m (m.log2 - 52) * 2 ^ j = value * 2 ^ 52) :
    Denotes (roundWithAccuracy Format.binary64 sign m e .exact) (sign.apply value) := by
  have lower : 2 ^ 52 ≤ roundQuotient m (m.log2 - 52) :=
    Nat.le_trans (two_pow_le_leading large) (le_roundQuotient m _)
  have upper : roundQuotient m (m.log2 - 52) ≤ 2 ^ 53 :=
    Nat.le_trans (roundQuotient_le_succ m _) (leading_lt_two_pow m)
  have shifted := shiftToTargetExponent_eq (m := m) (e := e) large (by omega)
  rw [exponent] at shifted
  simp only [roundWithAccuracy, shifted, rounded_shifted]
  exact denotes_carried sign lower upper scaled

/-- Numbers in normal form are read back from their bits. -/
theorem unpack_pack {u : UnpackedFloat} (denoted : Denotes u x) (bounded : x.natAbs ≤ 2 ^ 64) :
    UnpackedFloat.unpack Format.binary64 (UnpackedFloat.pack Format.binary64 u) = u := by
  cases denoted with
  | zero sign => cases sign <;> rfl
  | @finite m e value sign positive lower upper scaled =>
      have magnitude : value ≤ 2 ^ 64 := by
        cases sign <;> simpa [Sign.apply] using bounded
      have range : e ≤ 64 := by
        refine (Nat.pow_le_pow_iff_right (by decide : 1 < 2)).mp (Nat.le_trans ?_ magnitude)
        refine Nat.le_of_mul_le_mul_right ?_ (Nat.two_pow_pos 52)
        rw [← scaled, Nat.mul_comm]
        exact Nat.mul_le_mul_right _ lower
      have bias : Format.binary64.exponentBias = 1023 := by decide
      have biased : ((e : Int) - 52 + Format.binary64.exponentBias +
          Format.binary64.mantissaBitsWithoutImplicit).toNat = e + 1023 := by
        rw [bias]
        change ((e : Int) - 52 + (1023 : Nat) + (52 : Nat)).toNat = e + 1023
        omega
      have packed : UnpackedFloat.pack Format.binary64 (.finite sign m ((e : Int) - 52) positive) =
          packComponents Format.binary64 sign (BitVec.ofNat 11 (e + 1023)) (BitVec.ofNat 52 m) := by
        simp only [UnpackedFloat.pack, biased, log2_of_bounds lower upper, mantissaBits_binary64]
        rw [if_neg (by simp; omega)]
        simp
      have stored : (BitVec.ofNat 11 (e + 1023)).toNat = e + 1023 := by
        rw [BitVec.toNat_ofNat]
        omega
      have notGreatest : BitVec.ofNat 11 (e + 1023) ≠ -1#11 := by
        rw [ne_eq, ← BitVec.toNat_inj, stored]
        simp
        omega
      have notLeast : BitVec.ofNat 11 (e + 1023) ≠ 0#11 := by
        rw [ne_eq, ← BitVec.toNat_inj, stored]
        simp
      -- the leading bit is left out of the bits and put back
      have leading : (1#1 ++ BitVec.ofNat 52 m).toNat = m := by
        have below : m - 2 ^ 52 < 2 ^ 52 := by omega
        have rest : m % 2 ^ 52 = m - 2 ^ 52 := by omega
        rw [BitVec.toNat_append, BitVec.toNat_ofNat, BitVec.toNat_ofNat, rest,
          ← Nat.shiftLeft_add_eq_or_of_lt below]
        omega
      rw [packed]
      simp only [UnpackedFloat.unpack, unpackMantissa_packComponents,
        unpackExponent_packComponents, unpackSign_packComponents, Sign.ofBitVec_toBitVec, stored,
        bias]
      rw [if_neg notGreatest, if_neg notLeast]
      simp only [finite.injEq, true_and]
      exact ⟨leading, by simp; omega⟩

/-- Normal forms of magnitudes are ordered by exponent, then by mantissa. -/
theorem compare_magnitudes {m₁ e₁ v₁ m₂ e₂ v₂ : Nat} (lower₁ : 2 ^ 52 ≤ m₁) (upper₁ : m₁ < 2 ^ 53)
    (scaled₁ : m₁ * 2 ^ e₁ = v₁ * 2 ^ 52) (lower₂ : 2 ^ 52 ≤ m₂) (upper₂ : m₂ < 2 ^ 53)
    (scaled₂ : m₂ * 2 ^ e₂ = v₂ * 2 ^ 52) :
    (compare ((e₁ : Int) - 52) ((e₂ : Int) - 52)).then (compare m₁ m₂) =
      compare (v₁ : Int) (v₂ : Int) := by
  have apart {m e v m' e' v' : Nat} (upper : m < 2 ^ 53) (scaled : m * 2 ^ e = v * 2 ^ 52)
      (lower : 2 ^ 52 ≤ m') (scaled' : m' * 2 ^ e' = v' * 2 ^ 52) (less : e < e') : v < v' := by
    refine Nat.lt_of_mul_lt_mul_right (a := 2 ^ 52) ?_
    calc v * 2 ^ 52 = m * 2 ^ e := scaled.symm
      _ < 2 ^ 53 * 2 ^ e := Nat.mul_lt_mul_of_pos_right upper (Nat.two_pow_pos e)
      _ = 2 ^ 52 * 2 ^ (e + 1) := by rw [Nat.pow_succ]; ring
      _ ≤ m' * 2 ^ e' := Nat.mul_le_mul lower (Nat.pow_le_pow_right (by decide) less)
      _ = v' * 2 ^ 52 := scaled'
  rcases Nat.lt_trichotomy e₁ e₂ with less | rfl | greater
  · have values := apart upper₁ scaled₁ lower₂ scaled₂ less
    rw [Int.compare_eq_lt.mpr (by omega), Int.compare_eq_lt.mpr (by omega)]
    rfl
  · have positive := Nat.two_pow_pos e₁
    rw [Int.compare_eq_eq.mpr rfl, Ordering.then]
    rcases Nat.lt_trichotomy m₁ m₂ with less | rfl | greater
    · have values : v₁ < v₂ := by
        have := Nat.mul_lt_mul_of_pos_right less positive
        omega
      rw [Nat.compare_eq_lt.mpr less, Int.compare_eq_lt.mpr (by omega)]
    · have values : v₁ = v₂ := by omega
      rw [Nat.compare_eq_eq.mpr rfl, Int.compare_eq_eq.mpr (by omega)]
    · have values : v₂ < v₁ := by
        have := Nat.mul_lt_mul_of_pos_right greater positive
        omega
      rw [Nat.compare_eq_gt.mpr greater, Int.compare_eq_gt.mpr (by omega)]
  · have values := apart upper₂ scaled₂ lower₁ scaled₁ greater
    rw [Int.compare_eq_gt.mpr (by omega), Int.compare_eq_gt.mpr (by omega)]
    rfl

theorem value_pos {e value : Nat} (lower : 2 ^ 52 ≤ m) (scaled : m * 2 ^ e = value * 2 ^ 52) :
    0 < value := by
  have := Nat.mul_pos (Nat.lt_of_lt_of_le (by decide : 0 < 2 ^ 52) lower) (Nat.two_pow_pos e)
  omega

theorem compare_of_lt (less : x < y) : some Ordering.lt = some (compare x y) :=
  congrArg some (Int.compare_eq_lt.mpr less).symm

theorem compare_of_gt (greater : y < x) : some Ordering.gt = some (compare x y) :=
  congrArg some (Int.compare_eq_gt.mpr greater).symm

/-- Numbers are ordered as the integers they stand for. -/
theorem compare_eq {u v : UnpackedFloat} (left : Denotes u x) (right : Denotes v y) :
    u.compare v = some (compare x y) := by
  cases left with
  | zero sign =>
      cases right with
      | zero other => rfl
      | finite other positive lower upper scaled =>
          have := value_pos lower scaled
          cases other with
          | negative => exact compare_of_gt (by simp [Sign.apply]; omega)
          | positive => exact compare_of_lt (by simp [Sign.apply]; omega)
  | finite sign positive lower upper scaled =>
      have leftPositive := value_pos lower scaled
      cases right with
      | zero other =>
          cases sign with
          | negative => exact compare_of_lt (by simp [Sign.apply]; omega)
          | positive => exact compare_of_gt (by simp [Sign.apply]; omega)
      | finite other positive' lower' upper' scaled' =>
          have rightPositive := value_pos lower' scaled'
          have magnitudes := compare_magnitudes lower upper scaled lower' upper' scaled'
          cases sign with
          | negative =>
              cases other with
              | negative =>
                  simp only [UnpackedFloat.compare, magnitudes, Int.compare_swap, Sign.apply]
                  exact congrArg some (by simp only [compare, compareOfLessAndEq]; grind)
              | positive =>
                  exact compare_of_lt (by simp [Sign.apply]; omega)
          | positive =>
              cases other with
              | negative =>
                  exact compare_of_gt (by simp [Sign.apply]; omega)
              | positive => exact congrArg some magnitudes

theorem denotes_pack {u : UnpackedFloat} (denoted : Denotes u x) (bounded : x.natAbs ≤ 2 ^ 64) :
    Denotes (Float.Model.pack u).unpack x := by
  have same : (Float.Model.pack u).unpack = u := unpack_pack denoted bounded
  rwa [same]

theorem log2_mul_two_pow (positive : n ≠ 0) (k : Nat) : (n * 2 ^ k).log2 = n.log2 + k := by
  induction k with
  | zero => simp
  | succ k ih =>
      have double : n * 2 ^ (k + 1) = 2 * (n * 2 ^ k) := by
        rw [Nat.pow_succ]
        ring
      rw [double, Nat.log2_two_mul (Nat.mul_ne_zero positive (Nat.ne_of_gt (Nat.two_pow_pos k))),
        ih, Nat.add_assoc]

/-- The mantissa of a number with at most 53 bits is filled up with zeros. -/
theorem denotes_round (positive : n ≠ 0) (small : n < 2 ^ 53) :
    Denotes (UnpackedFloat.round Format.binary64 .positive n 0) n := by
  have bits : n.log2 ≤ 52 := by
    have := (Nat.log2_lt positive).mpr small
    omega
  have filled : (n * 2 ^ (52 - n.log2)).log2 = 52 := by
    rw [log2_mul_two_pow positive]
    omega
  have target : Format.binary64.targetExponent (totalExponent n 0) = (n.log2 : Int) - 52 := by
    simp only [Format.targetExponent, totalExponent, mantissaBits_binary64, minExponent_binary64]
    omega
  have amount : (0 - ((n.log2 : Int) - 52)).toNat = 52 - n.log2 := by omega
  have moved : (0 : Int) - ((52 - n.log2 : Nat) : Int) = (n.log2 : Int) - 52 := by omega
  simp only [UnpackedFloat.round, UnpackedFloat.decreaseExponent, target, amount, moved,
    Nat.shiftLeft_eq]
  refine denotes_roundWithAccuracy (j := n.log2) .positive (by omega) (by omega) ?_
  rw [filled, Nat.sub_self, roundQuotient_zero, Nat.mul_assoc, ← Nat.pow_add]
  congr 2
  omega

/-- A number with at most 53 bits becomes a double-precision number exactly. -/
theorem denotes_ofUInt64 (small : n < 2 ^ 53) :
    Denotes (UnpackedFloat.ofUInt64 Format.binary64 n.toUInt64) n := by
  have read : n.toUInt64.toNat = n := by
    simp
    omega
  simp only [UnpackedFloat.ofUInt64, UnpackedFloat.ofNat, UnpackedFloat.ofInt,
    UnpackedFloat.normalize, read]
  by_cases zero : n = 0
  · subst zero
    exact .zero .positive
  · rw [Int.compare_eq_gt.mpr (by omega)]
    exact denotes_round zero small

/-- Multiplying by one keeps the integer that a number stands for. -/
theorem denotes_mul_one {u : UnpackedFloat} (denoted : Denotes u x) :
    Denotes (UnpackedFloat.mul Format.binary64 u
      (.finite .positive (2 ^ 52) (-52) (by decide))) x := by
  cases denoted with
  | zero sign => exact .zero _
  | @finite m e value sign positive lower upper scaled =>
      have bits : (m * 2 ^ 52).log2 = 104 := by
        rw [log2_mul_two_pow (Nat.ne_of_gt positive), log2_of_bounds lower upper]
      have same : sign * .positive = sign := by cases sign <;> rfl
      simp only [UnpackedFloat.mul, same]
      refine denotes_roundWithAccuracy (j := e) sign (by omega) ?_ ?_
      · rw [bits]
        omega
      rw [bits, show 104 - 52 = 0 + 52 from rfl, roundQuotient_mul_pow, roundQuotient_zero, scaled]

/-- A larger number is rounded to 53 bits. -/
theorem denotes_ofScientific (large : 2 ^ 53 ≤ n) (upper : n < 2 ^ 64) :
    Denotes (UnpackedFloat.ofScientific Format.binary64 n 0) (nearest n) := by
  have positive : n ≠ 0 := by omega
  have lowest : 53 ≤ n.log2 := (Nat.le_log2 positive).mpr large
  have highest : n.log2 < 64 := (Nat.log2_lt positive).mpr upper
  have bits : (n * 2 ^ 53 * 1).log2 = n.log2 + 53 := by
    rw [Nat.mul_one, log2_mul_two_pow positive]
  simp only [UnpackedFloat.ofScientific, positive, ↓reduceDIte]
  rw [if_neg (by decide), if_neg (by omega), if_pos (by decide)]
  simp only [UnpackedFloat.mul, Nat.shiftLeft_eq, mantissaBits_binary64, Int.toNat_zero,
    Nat.pow_zero]
  refine denotes_roundWithAccuracy (j := n.log2) .positive (by omega) ?_ ?_
  · rw [bits]
    omega
  · have shift : n.log2 + 53 - 52 = n.log2 - 52 + 53 := by omega
    rw [bits, shift, Nat.mul_one, roundQuotient_mul_pow, nearest, Nat.mul_assoc, ← Nat.pow_add]
    congr 2
    omega

/-- The double-precision number for a natural number of at most 64 bits. -/
theorem denotes_ofNat (upper : n < 2 ^ 64) :
    Denotes (Float.ofNat n).toModel.unpack (nearest n) := by
  by_cases small : n < 2 ^ 53
  · have one : (Float.ofBits 0x3FF0000000000000).toModel.unpack =
        .finite .positive (2 ^ 52) (-52) (by decide) := rfl
    have written : Float.ofNat n =
        n.toUInt64.toFloat * Float.ofBits 0x3FF0000000000000 := by
      simp only [Float.ofNat, OfScientific.ofScientific, Float.ofScientific]
      rw [dif_pos ⟨small, by decide⟩]
      rfl
    rw [nearest_eq_self (Nat.le_of_lt small), written]
    refine denotes_pack ?_ (by omega)
    rw [one]
    exact denotes_mul_one (denotes_pack (denotes_ofUInt64 small) (by omega))
  · have written : Float.ofNat n = Float.ofModel (Float.Model.ofScientific n 0) := by
      simp only [Float.ofNat, OfScientific.ofScientific, Float.ofScientific]
      rw [dif_neg (fun both => small both.1)]
      rfl
    rw [written]
    exact denotes_pack (denotes_ofScientific (by omega) upper) (nearest_le upper)

theorem denotes_neg {u : UnpackedFloat} (denoted : Denotes u x) : Denotes u.neg (-x) := by
  cases denoted with
  | zero sign => exact .zero _
  | @finite m e value sign positive lower upper scaled =>
      have negated : -(sign.apply (value : Int)) = (-sign).apply value := by
        cases sign
        · exact Int.neg_neg _
        · rfl
      rw [negated]
      exact .finite _ positive lower upper scaled

/-- The double-precision number for an integer stands for the nearest one of 53 bits. -/
theorem denotes_ofInt (bounded : x.natAbs < 2 ^ 64) :
    Denotes (Float.ofInt x).toModel.unpack (nearestInteger x) := by
  cases x with
  | ofNat n =>
      have rounded : nearestInteger (Int.ofNat n) = nearest n := if_neg (by simp)
      rw [rounded]
      exact denotes_ofNat bounded
  | negSucc n =>
      have rounded : nearestInteger (Int.negSucc n) = -(nearest (n + 1) : Int) := if_pos (by omega)
      rw [rounded]
      have magnitude : nearest (n + 1) ≤ 2 ^ 64 := nearest_le bounded
      exact denotes_pack (denotes_neg (denotes_ofNat bounded)) (by omega)

/-- Integers of at most 64 bits are compared as what double precision keeps of them. -/
theorem ofInt_lt_iff (left : x.natAbs < 2 ^ 64) (right : y.natAbs < 2 ^ 64) :
    Float.ofInt x < Float.ofInt y ↔ nearestInteger x < nearestInteger y := by
  have compared := compare_eq (denotes_ofInt left) (denotes_ofInt right)
  change decide (_ = true) = true ↔ _
  rw [decide_eq_true_eq]
  change UnpackedFloat.lt _ _ = true ↔ _
  rw [UnpackedFloat.lt, compared]
  simp [Int.compare_eq_lt]

theorem ofInt_le_iff (left : x.natAbs < 2 ^ 64) (right : y.natAbs < 2 ^ 64) :
    Float.ofInt x ≤ Float.ofInt y ↔ nearestInteger x ≤ nearestInteger y := by
  have compared := compare_eq (denotes_ofInt left) (denotes_ofInt right)
  change decide (_ = true) = true ↔ _
  rw [decide_eq_true_eq]
  change UnpackedFloat.le _ _ = true ↔ _
  rw [UnpackedFloat.le, compared]
  simp [Int.isLE_compare]

end RipInterpreter.Number
