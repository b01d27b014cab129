import Mathlib
import RipInterpreter.Proofs.Machine.KernelMethods
import RipInterpreter.Proofs.Number.Rounding

namespace RipInterpreter

open Syntax

/-- Division that truncates toward zero, with a remainder that has the sign of the dividend. -/
structure Truncates (a b quotient remainder : Int) : Prop where
  whole : remainder + b * quotient = a
  smaller : remainder.natAbs < b.natAbs
  sign : remainder = 0 ∨ remainder.sign = a.sign

theorem truncates_iff {a b quotient remainder : Int} : Truncates a b quotient remainder ↔
    b ≠ 0 ∧ a.tdiv b = quotient ∧ a.tmod b = remainder := by
  constructor
  · intro ⟨whole, smaller, sign⟩
    have divisible : b ≠ 0 := by
      rintro rfl
      cases smaller
    refine ⟨divisible, ?_⟩
    rcases Int.le_total 0 a with positive | negative
    · refine (Int.tdiv_tmod_unique positive divisible).mpr ⟨whole, ?_, by omega⟩
      rcases sign with rfl | same
      · exact Int.le_refl 0
      · exact Int.sign_nonneg_iff.mp (same ▸ Int.sign_nonneg_iff.mpr positive)
    · refine (Int.tdiv_tmod_unique' negative divisible).mpr ⟨whole, by omega, ?_⟩
      rcases sign with rfl | same
      · exact Int.le_refl 0
      · exact Int.sign_nonpos_iff.mp (same ▸ Int.sign_nonpos_iff.mpr negative)
  · rintro ⟨divisible, rfl, rfl⟩
    refine ⟨Int.tmod_add_mul_tdiv a b, ?_, ?_⟩
    · rw [Int.natAbs_tmod]
      exact Nat.mod_lt _ (Int.natAbs_pos.mpr divisible)
    · rw [Int.sign_tmod]
      split
      · exact .inl (Int.tmod_eq_zero_of_dvd ‹_›)
      · exact .inr rfl

/-- The exact result of an operator on two integers. -/
inductive Operator.Gives (a b : Int) : Operator → Int → Prop
  | add : Gives a b .add (a + b)
  | subtract : Gives a b .subtract (a - b)
  | multiply : Gives a b .multiply (a * b)
  | divide {quotient remainder : Int} (truncates : Truncates a b quotient remainder) :
    Gives a b .divide quotient
  | remainder {quotient remainder : Int} (truncates : Truncates a b quotient remainder) :
    Gives a b .remainder remainder

def Operator.DividesByZero (operator : Operator) (b : Int) : Prop :=
  (operator = .divide ∨ operator = .remainder) ∧ b = 0

/-- The remainder whose quotient is out of range: the quotient of the smallest integer and `-1` is
the largest one and one more. -/
def Operator.LacksQuotient (operator : Operator) (a b : Int) : Prop :=
  operator = .remainder ∧ a = -2 ^ 63 ∧ b = -1

instance (operator : Operator) (a b : Int) : Decidable (operator.LacksQuotient a b) :=
  inferInstanceAs (Decidable (_ ∧ _))

/-- How an operator on two integers ends: with the exact result, with an overflow, or with a division
by zero. -/
structure Operator.Calculates (operator : Operator) (a b : Int) (place : Option Location)
    (outcome : Outcome Handle) : Prop where
  exact : ∀ result, operator.Gives a b result → -2 ^ 63 ≤ result ∧ result < 2 ^ 63 →
    ¬operator.LacksQuotient a b → ∃ handle after, outcome = .value handle after ∧
      after.heap.IsInstance handle .integer (.integer result)
  overflow : ∀ result, operator.Gives a b result →
    ¬(-2 ^ 63 ≤ result ∧ result < 2 ^ 63) ∨ operator.LacksQuotient a b → ∃ after,
      outcome = .failure (.runtime (.integerOverflow a operator.name b) place) after
  divisionByZero : operator.DividesByZero b → ∃ after,
    outcome = .failure (.runtime .divisionByZero place) after

namespace Operator

variable {operator : Operator} {a b result other : Int}

theorem Gives.unique (first : operator.Gives a b result) (second : operator.Gives a b other) :
    result = other := by
  cases first with
  | divide truncates =>
      cases second with
      | divide again =>
          exact (truncates_iff.mp truncates).2.1.symm.trans (truncates_iff.mp again).2.1
  | remainder truncates =>
      cases second with
      | remainder again =>
          exact (truncates_iff.mp truncates).2.2.symm.trans (truncates_iff.mp again).2.2
  | _ =>
      cases second
      rfl

theorem gives_iff : (∃ result, operator.Gives a b result) ↔ ¬operator.DividesByZero b := by
  constructor
  · rintro ⟨result, gives⟩ ⟨divides, zero⟩
    cases gives with
    | divide truncates | remainder truncates => exact (truncates_iff.mp truncates).1 zero
    | _ => rcases divides with impossible | impossible <;> cases impossible
  · intro possible
    have truncates (divides : operator = .divide ∨ operator = .remainder) :
        Truncates a b (a.tdiv b) (a.tmod b) :=
      truncates_iff.mpr ⟨fun zero => possible ⟨divides, zero⟩, rfl, rfl⟩
    cases operator with
    | add => exact ⟨_, .add⟩
    | subtract => exact ⟨_, .subtract⟩
    | multiply => exact ⟨_, .multiply⟩
    | divide => exact ⟨_, .divide (truncates (.inl rfl))⟩
    | remainder => exact ⟨_, .remainder (truncates (.inr rfl))⟩

/-- The only quotient out of range is the one of the smallest integer and `-1`. -/
theorem tdiv_inRange_iff (fits : -2 ^ 63 ≤ a ∧ a < 2 ^ 63) :
    -2 ^ 63 ≤ a.tdiv b ∧ a.tdiv b < 2 ^ 63 ↔ ¬(a = -2 ^ 63 ∧ b = -1) := by
  constructor
  · rintro bounds ⟨rfl, rfl⟩
    revert bounds
    decide
  · intro apart
    have magnitude : (a.tdiv b).natAbs = a.natAbs / b.natAbs := Int.natAbs_tdiv a b
    by_cases unit : b.natAbs ≤ 1
    · have units : b = 0 ∨ b = 1 ∨ b = -1 := by omega
      rcases units with rfl | rfl | rfl
      · rw [Int.tdiv_zero]
        decide
      · rwa [Int.tdiv_one]
      · rw [Int.tdiv_neg, Int.tdiv_one]
        omega
    · have halved : a.natAbs / b.natAbs ≤ a.natAbs / 2 :=
        Nat.div_le_div_left (Nat.lt_of_not_le unit) (by decide)
      omega

/-- A remainder is in range with its divisor. -/
theorem tmod_inRange (divisible : b ≠ 0) (fits : -2 ^ 63 ≤ b ∧ b < 2 ^ 63) :
    -2 ^ 63 ≤ a.tmod b ∧ a.tmod b < 2 ^ 63 := by
  have smaller := (truncates_iff.mpr ⟨divisible, rfl, rfl⟩ : Truncates a b _ _).smaller
  omega

/-- The operation of the kernel is exact where both the result and, of a remainder, the quotient it
belongs to are in range. -/
theorem onIntegers_of_gives (fitsLeft : -2 ^ 63 ≤ a ∧ a < 2 ^ 63)
    (fitsRight : -2 ^ 63 ≤ b ∧ b < 2 ^ 63) (gives : operator.Gives a b result) :
    operator.onIntegers a b =
      if (-2 ^ 63 ≤ result ∧ result < 2 ^ 63) ∧ ¬operator.LacksQuotient a b then .ok result
      else .error (.integerOverflow a operator.name b) := by
  cases gives with
  | divide truncates =>
      obtain ⟨divisible, rfl, -⟩ := truncates_iff.mp truncates
      simp [onIntegers, Number.fitsInteger_iff, divisible, LacksQuotient]
  | remainder truncates =>
      obtain ⟨divisible, -, rfl⟩ := truncates_iff.mp truncates
      simp only [onIntegers, Number.fitsInteger_iff, divisible, LacksQuotient, if_false, true_and,
        tmod_inRange divisible fitsRight, tdiv_inRange_iff fitsLeft, and_self]
  | _ => simp [onIntegers, Number.fitsInteger_iff, LacksQuotient]

theorem onIntegers_of_dividesByZero (divides : operator.DividesByZero b) :
    operator.onIntegers a b = .error .divisionByZero := by
  obtain ⟨rfl | rfl, rfl⟩ := divides <;> rfl

namespace Calculates

variable {world : World} {action : Action Handle} {place : Option Location} {first second : Handle}

open RipInterpreter.Action

theorem located (calculates : operator.Calculates a b none (action world)) (place : Location) :
    operator.Calculates a b (some place) (locate place action world) where
  exact result gives fits paired := by
    obtain ⟨handle, after, ended, made⟩ := calculates.exact result gives fits paired
    exact ⟨handle, after, locate_of_value ended place, made⟩
  overflow result gives beyond := by
    obtain ⟨after, ended⟩ := calculates.overflow result gives beyond
    refine ⟨after, ?_⟩
    rw [locate, ended]
    rfl
  divisionByZero divides := by
    obtain ⟨after, ended⟩ := calculates.divisionByZero divides
    refine ⟨after, ?_⟩
    rw [locate, ended]
    rfl

theorem arithmetic (fitsLeft : -2 ^ 63 ≤ a ∧ a < 2 ^ 63)
    (fitsRight : -2 ^ 63 ≤ b ∧ b < 2 ^ 63) :
    operator.Calculates a b none (Action.arithmetic operator (.integer a) (.integer b) world) where
  exact result gives fits paired := by
    rw [Action.arithmetic, onIntegers_of_gives fitsLeft fitsRight gives, if_pos ⟨fits, paired⟩]
    exact ⟨_, _, rfl, isInstance_of_newInstance rfl⟩
  overflow result gives beyond := by
    rw [Action.arithmetic, onIntegers_of_gives fitsLeft fitsRight gives, if_neg]
    · exact ⟨world, rfl⟩
    · rintro ⟨fits, paired⟩
      exact beyond.elim (fun outside => outside fits) paired
  divisionByZero divides := by
    rw [Action.arithmetic, onIntegers_of_dividesByZero divides]
    exact ⟨world, rfl⟩

/-- The method that the kernel has for an operator calculates with the integers it is given. -/
theorem runMethod (evaluator : Evaluator) (scope : Scope)
    (isLeft : world.heap.IsInstance first .integer (.integer a))
    (isRight : world.heap.IsInstance second .integer (.integer b))
    (fitsLeft : -2 ^ 63 ≤ a ∧ a < 2 ^ 63) (fitsRight : -2 ^ 63 ≤ b ∧ b < 2 ^ 63) :
    operator.Calculates a b none
      (Action.runMethod evaluator (.arithmetic operator) ⟨some first, [second], scope⟩ world) := by
  obtain ⟨object, found, shape, -⟩ := isLeft
  obtain ⟨other, known, content, -⟩ := isRight
  change operator.Calculates a b none ((numeral first >>= fun x => numeral second >>= fun y =>
    Action.arithmetic operator x y) world)
  rw [bind_of_value (numeral_of_integer found shape),
    bind_of_value (numeral_of_integer known content)]
  exact arithmetic fitsLeft fitsRight

end Calculates

end Operator

namespace World

variable {world : World} {operator : Operator} {first second : Handle} {a b : Int}

open RipInterpreter.Action

/-- Where the methods of the kernel are unmodified, an operator on two integers has one exact result
unless it divides by zero, which is an error of its own. If the result is in range, the call answers
with it, and if it is not, the call overflows; the remainder of the smallest integer and `-1`
overflows with its quotient. So it is for the operator that is sent to a value and for the one
written between two names, whose errors have its place. -/
theorem integers_calculate (unmodified : world.heap.Unmodified)
    (isLeft : world.heap.IsInstance first .integer (.integer a))
    (isRight : world.heap.IsInstance second .integer (.integer b))
    (fitsLeft : -2 ^ 63 ≤ a ∧ a < 2 ^ 63) (fitsRight : -2 ^ 63 ≤ b ∧ b < 2 ^ 63) :
    ((∃! result, operator.Gives a b result) ↔ ¬operator.DividesByZero b) ∧
    (∀ evaluator scope, operator.Calculates a b none
      (send evaluator first operator.name [second] scope world)) ∧
    (∀ (scope : Scope) (left right : Name) (place : Location),
      world.frames.lookup scope left.text = some first →
      world.frames.lookup scope right.text = some second → ∀ depth ≥ 3,
        operator.Calculates a b (some place) (evaluate depth scope
          (operatorCall (.reference left) operator.name place (.reference right)) world)) := by
  have named : operator.name ∈ Kernel.methodNames := by cases operator <;> decide +kernel
  have implemented : Kernel.implements .integer operator.name (.arithmetic operator) = true := by
    cases operator <;> decide +kernel
  have kept (added : Object) {handle : Handle} {value : Int}
      (held : world.heap.IsInstance handle .integer (.integer value)) :
      (world.heap.add added).2.IsInstance handle .integer (.integer value) := by
    obtain ⟨object, found, shape⟩ := held
    exact ⟨object, Heap.get?_add_of_held found, shape⟩
  refine ⟨?_, fun evaluator scope => ?_,
    fun scope left right place boundLeft boundRight depth deep => ?_⟩
  · rw [← Operator.gives_iff]
    exact ⟨fun ⟨result, gives, _⟩ => ⟨result, gives⟩,
      fun ⟨result, gives⟩ => ⟨result, gives, fun _ another => another.unique gives⟩⟩
  · obtain ⟨lambda, sent⟩ := send_operation evaluator unmodified named implemented isLeft second scope
    rw [sent]
    exact .runMethod evaluator scope (kept lambda isLeft) (kept lambda isRight) fitsLeft fitsRight
  · obtain ⟨depth, rfl⟩ := Nat.exists_eq_add_of_le' deep
    obtain ⟨lambda, ran⟩ := evaluate_operation depth place unmodified named implemented isLeft
      boundLeft boundRight
    rw [ran]
    exact (Operator.Calculates.runMethod _ scope (kept lambda isLeft) (kept lambda isRight) fitsLeft
      fitsRight).located place

/-- One more than the smallest integer is in range and is answered, but the quotient of the smallest
integer and `-1` is not. -/
theorem integers_calculate_at_smallest :
    let start := World.fresh ⟨fun _ name paths => .refused (.missingModule name paths)⟩ []
    let first := Object.instanceOf KernelClass.integer.handle (.integer (-2 ^ 63))
    let second := Object.instanceOf KernelClass.integer.handle (.integer (-1))
    let middle := (start.heap.add first).2
    let world : World :=
      { start with
        heap := (middle.add second).2
        frames := ⟨#[⟨Table.ofList [("a", start.heap.next), ("b", middle.next)], none⟩]⟩ }
    let ended := fun depth operator => evaluate depth Kernel.globals (operatorCall
      (.reference ⟨"a", .start "text"⟩) operator (.start "text") (.reference ⟨"b", .start "text"⟩)) world
    world.heap.Unmodified ∧
    world.heap.IsInstance start.heap.next .integer (.integer (-2 ^ 63)) ∧
    world.heap.IsInstance middle.next .integer (.integer (-1)) ∧
    (∀ depth ≥ 3, ∃ handle after, ended depth "-" = .value handle after ∧
      after.heap.IsInstance handle .integer (.integer (-2 ^ 63 - -1))) ∧
    (∀ depth ≥ 3, ∃ after, ended depth "/" =
      .failure (.runtime (.integerOverflow (-2 ^ 63) "/" (-1)) (some (.start "text"))) after) := by
  intro start first second middle world ended
  have unmodified : world.heap.Unmodified := (Heap.unmodified_kernel.add first).add second
  have isFirst : world.heap.IsInstance start.heap.next .integer (.integer (-2 ^ 63)) :=
    Heap.isInstance_of_new (Heap.get?_add_of_held (by rw [Heap.get?_add, if_pos rfl]))
  have isSecond : world.heap.IsInstance middle.next .integer (.integer (-1)) :=
    Heap.isInstance_of_new (by rw [Heap.get?_add, if_pos rfl])
  have boundLeft : world.frames.lookup Kernel.globals "a" = some start.heap.next := by
    decide +kernel
  have boundRight : world.frames.lookup Kernel.globals "b" = some middle.next := by
    decide +kernel
  have calculated (operator : Operator) (depth : Nat) (deep : depth ≥ 3) :
      operator.Calculates (-2 ^ 63) (-1) (some (.start "text")) (ended depth operator.name) :=
    (integers_calculate unmodified isFirst isSecond (by decide) (by decide)).2.2 Kernel.globals
      ⟨"a", .start "text"⟩ ⟨"b", .start "text"⟩ (.start "text") boundLeft boundRight depth deep
  have quotient : Operator.divide.Gives (-2 ^ 63) (-1) (2 ^ 63) :=
    .divide (truncates_iff.mpr ⟨by decide, by decide, rfl⟩)
  exact ⟨unmodified, isFirst, isSecond,
    fun depth deep => (calculated .subtract depth deep).exact _ .subtract (by decide) (by decide),
    fun depth deep => (calculated .divide depth deep).overflow _ quotient (.inl (by decide))⟩

/-- The remainder of the smallest integer and `-1` is zero, but the call overflows. -/
theorem remainder_of_smallest_overflows :
    let start := World.fresh ⟨fun _ name paths => .refused (.missingModule name paths)⟩ []
    let place := Location.start "text"
    let smallest : Node := .integer "-9223372036854775808" place
    let divisor : Node := .integer "-1" place
    Operator.remainder.Gives (-9223372036854775808) (-1) 0 ∧
    (-2 ^ 63 ≤ (0 : Int) ∧ (0 : Int) < 2 ^ 63) ∧
    (evaluate 3 Kernel.globals (operatorCall smallest "%" place divisor) start).error? =
      some (.runtime (.integerOverflow (-9223372036854775808) "%" (-1)) (some place)) := by
  refine ⟨.remainder (truncates_iff.mpr ⟨by decide, rfl, by decide⟩), by decide, ?_⟩
  decide +kernel

end World

end RipInterpreter
