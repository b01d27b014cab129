import RipInterpreter.Evaluation.Session
import RipInterpreter.Proofs.Machine.KernelMethods
import RipInterpreter.Proofs.Number.Doubles

namespace RipInterpreter

open Syntax

/-- What the five operators that compare numbers answer. -/
structure Comparisons where
  less : Bool
  equal : Bool
  greater : Bool
  lessOrEqual : Bool
  greaterOrEqual : Bool
deriving DecidableEq

/-- Exactly one of less, equal and greater holds, the other two answers follow from these, and all
agree with the order of the integers. -/
structure Comparisons.Orders (answers : Comparisons) (a b : Int) : Prop where
  exactlyOne : [answers.less, answers.equal, answers.greater].count true = 1
  lessOrEqual : answers.lessOrEqual = (answers.less || answers.equal)
  greaterOrEqual : answers.greaterOrEqual = (answers.greater || answers.equal)
  agree : answers = ⟨a < b, a = b, b < a, a ≤ b, b ≤ a⟩

/-- The answers of exact equality and of an order between what double precision keeps. -/
def Comparisons.rounded (a b : Int) : Comparisons where
  less := Number.nearestInteger a < Number.nearestInteger b
  equal := a = b
  greater := Number.nearestInteger b < Number.nearestInteger a
  lessOrEqual := Number.nearestInteger a ≤ Number.nearestInteger b
  greaterOrEqual := Number.nearestInteger b ≤ Number.nearestInteger a

/-- The node has a truth value in the state, at every sufficient depth. -/
def World.Decides (world : World) (scope : Scope) (node : Node) (answer : Bool) : Prop :=
  ∀ depth ≥ 3, ∃ after, evaluate depth scope node world = .value (.ofBool answer) after

/-- The answers that the operators between two names have in a state. -/
structure World.Compares (world : World) (scope : Scope) (left right : Name) (place : Location)
    (answers : Comparisons) : Prop where
  less : world.Decides scope (operatorCall (.reference left) "<" place (.reference right)) answers.less
  equal : world.Decides scope (operatorCall (.reference left) "==" place (.reference right))
    answers.equal
  greater : world.Decides scope (operatorCall (.reference left) ">" place (.reference right))
    answers.greater
  lessOrEqual : world.Decides scope (operatorCall (.reference left) "<=" place (.reference right))
    answers.lessOrEqual
  greaterOrEqual : world.Decides scope (operatorCall (.reference left) ">=" place (.reference right))
    answers.greaterOrEqual

/-- Rounding to double precision spoils the order of two integers exactly if it makes different ones
the same. -/
theorem Comparisons.orders_rounded_iff (a b : Int) : (rounded a b).Orders a b ↔
    a = b ∨ Number.nearestInteger a ≠ Number.nearestInteger b := by
  constructor
  · intro orders
    by_contra both
    obtain ⟨apart, same⟩ := not_or.mp both
    have none : [(rounded a b).less, (rounded a b).equal, (rounded a b).greater].count true = 0 := by
      simp [rounded, apart, not_not.mp same]
    have one := orders.exactlyOne
    omega
  · intro kept
    have forward : Number.nearestInteger a < Number.nearestInteger b ↔ a < b := by
      have ordered := @Number.nearestInteger_mono a b
      have reflected := @Number.lt_of_nearestInteger_lt a b
      omega
    have backward : Number.nearestInteger b < Number.nearestInteger a ↔ b < a := by
      have ordered := @Number.nearestInteger_mono b a
      have reflected := @Number.lt_of_nearestInteger_lt b a
      omega
    have agree : rounded a b = ⟨a < b, a = b, b < a, a ≤ b, b ≤ a⟩ := by
      simp only [rounded, forward, backward, Comparisons.mk.injEq, decide_eq_decide, true_and]
      omega
    rw [agree]
    refine ⟨?_, ?_, ?_, rfl⟩
    · rcases Int.lt_trichotomy a b with less | rfl | greater
      · simp [less, Int.ne_of_lt less, Int.not_lt.mpr (Int.le_of_lt less)]
      · simp
      · simp [greater, (Int.ne_of_lt greater).symm, Int.not_lt.mpr (Int.le_of_lt greater)]
    · simp [Int.le_iff_lt_or_eq]
    · simp [Int.le_iff_lt_or_eq, eq_comm]

namespace Action

variable {world : World} {first second : Handle} {a b : Int}

theorem natAbs_lt (fits : -2 ^ 63 ≤ a ∧ a < 2 ^ 63) : a.natAbs < 2 ^ 64 := by
  omega

theorem holds_rounded (comparison : Comparison) (left : -2 ^ 63 ≤ a ∧ a < 2 ^ 63)
    (right : -2 ^ 63 ≤ b ∧ b < 2 ^ 63) :
    comparison.holds (Float.ofInt a) (Float.ofInt b) =
      match comparison with
      | .less => (Comparisons.rounded a b).less
      | .greater => (Comparisons.rounded a b).greater
      | .lessOrEqual => (Comparisons.rounded a b).lessOrEqual
      | .greaterOrEqual => (Comparisons.rounded a b).greaterOrEqual := by
  have left := natAbs_lt left
  have right := natAbs_lt right
  cases comparison with
  | less => exact decide_eq_decide.mpr (Number.ofInt_lt_iff left right)
  | greater => exact decide_eq_decide.mpr (Number.ofInt_lt_iff right left)
  | lessOrEqual => exact decide_eq_decide.mpr (Number.ofInt_le_iff left right)
  | greaterOrEqual => exact decide_eq_decide.mpr (Number.ofInt_le_iff right left)

end Action

namespace World

variable {world : World} {scope : Scope} {left right : Name} {first second : Handle} {a b : Int}

open RipInterpreter.Action

theorem decides_comparison (comparison : Comparison) (place : Location)
    (unmodified : world.heap.Unmodified)
    (boundLeft : world.frames.lookup scope left.text = some first)
    (boundRight : world.frames.lookup scope right.text = some second)
    (isLeft : world.heap.IsInstance first .integer (.integer a))
    (isRight : world.heap.IsInstance second .integer (.integer b)) :
    world.Decides scope (operatorCall (.reference left) comparison.name place (.reference right))
      (comparison.holds (Float.ofInt a) (Float.ofInt b)) := by
  rintro depth deep
  obtain ⟨depth, rfl⟩ := Nat.exists_eq_add_of_le' deep
  have named : comparison.name ∈ Kernel.methodNames := by cases comparison <;> decide +kernel
  have implemented : Kernel.implements .integer comparison.name (.comparison comparison) = true := by
    cases comparison <;> decide +kernel
  obtain ⟨lambda, ran⟩ := evaluate_operation depth place unmodified named implemented isLeft
    boundLeft boundRight
  obtain ⟨object, found, shape, -⟩ := isLeft
  obtain ⟨other, known, content, -⟩ := isRight
  let after : World := { world with heap := (world.heap.add lambda).2 }
  refine ⟨after, ran.trans (locate_of_value ?_ place)⟩
  change (numeral first >>= fun x => numeral second >>= fun y =>
    (pure (.ofBool (comparison.holds x.toDecimal y.toDecimal)) : Action Handle)) after = _
  rw [bind_of_value (numeral_of_integer (Heap.get?_add_of_held found) shape),
    bind_of_value (numeral_of_integer (Heap.get?_add_of_held known) content)]
  rfl

/-- Two integers are equal exactly if they are the same number. -/
theorem equal_integers {heap : Heap} {object other : Object}
    (found : heap.get? first = some object) (shape : object.payload = .integer a)
    (known : heap.get? second = some other) (content : other.payload = .integer b) :
    heap.equal first second = .ok (decide (a = b)) := by
  rw [Heap.equal, Heap.depth, Heap.equalWithin]
  split
  · rename_i same
    subst same
    rw [found] at known
    cases known
    rw [shape] at content
    cases content
    rw [decide_eq_true rfl]
    rfl
  · rw [Heap.read_eq_ok found, Heap.read_eq_ok known]
    simp only [bind, Except.bind, shape, content, Heap.equalPayloads]
    rfl

theorem decides_equality (place : Location) (unmodified : world.heap.Unmodified)
    (boundLeft : world.frames.lookup scope left.text = some first)
    (boundRight : world.frames.lookup scope right.text = some second)
    (isLeft : world.heap.IsInstance first .integer (.integer a))
    (isRight : world.heap.IsInstance second .integer (.integer b)) :
    world.Decides scope (operatorCall (.reference left) "==" place (.reference right)) (a = b) := by
  rintro depth deep
  obtain ⟨depth, rfl⟩ := Nat.exists_eq_add_of_le' deep
  have named : "==" ∈ Kernel.methodNames := by decide +kernel
  have implemented : Kernel.implements .integer "==" (.equality true) = true := by decide +kernel
  obtain ⟨lambda, ran⟩ := evaluate_operation depth place unmodified named implemented isLeft
    boundLeft boundRight
  obtain ⟨object, found, shape, -⟩ := isLeft
  obtain ⟨other, known, content, -⟩ := isRight
  let after : World := { world with heap := (world.heap.add lambda).2 }
  refine ⟨after, ran.trans (locate_of_value ?_ place)⟩
  have answered : after.heap.equal first second = .ok (decide (a = b)) :=
    equal_integers (Heap.get?_add_of_held found) shape (Heap.get?_add_of_held known) content
  change (ask (fun heap => heap.equal first second) >>= fun found =>
    (pure (.ofBool (found == true)) : Action Handle)) after = _
  rw [bind_of_value (ask_of_ok answered)]
  simp only [beq_true]
  rfl

/-- Where the methods of the kernel are unmodified, two integers are equal exactly if they are the
same number, but less, greater and the other two operators say how the double-precision numbers
nearest to them are ordered. So the five operators agree with the order of the integers, and exactly
one of less, equal and greater holds, if and only if the integers are the same or rounding keeps
them apart; for magnitudes up to `2 ^ 53` it always does. -/
theorem integers_compare (place : Location) (unmodified : world.heap.Unmodified)
    (boundLeft : world.frames.lookup scope left.text = some first)
    (boundRight : world.frames.lookup scope right.text = some second)
    (isLeft : world.heap.IsInstance first .integer (.integer a))
    (isRight : world.heap.IsInstance second .integer (.integer b))
    (fitsLeft : -2 ^ 63 ≤ a ∧ a < 2 ^ 63) (fitsRight : -2 ^ 63 ≤ b ∧ b < 2 ^ 63) :
    world.Compares scope left right place (.rounded a b) ∧
    ((Comparisons.rounded a b).Orders a b ↔
      a = b ∨ Number.nearestInteger a ≠ Number.nearestInteger b) ∧
    (a.natAbs ≤ 2 ^ 53 → b.natAbs ≤ 2 ^ 53 → (Comparisons.rounded a b).Orders a b) := by
  have decided (comparison : Comparison) := by
    have decides := decides_comparison comparison place unmodified boundLeft boundRight isLeft isRight
    rw [holds_rounded comparison fitsLeft fitsRight] at decides
    exact decides
  refine ⟨⟨decided .less, ?_, decided .greater, decided .lessOrEqual, decided .greaterOrEqual⟩,
    Comparisons.orders_rounded_iff a b, fun small little => ?_⟩
  · exact decides_equality place unmodified boundLeft boundRight isLeft isRight
  · refine (Comparisons.orders_rounded_iff a b).mpr ?_
    rw [Number.nearestInteger_eq_self small, Number.nearestInteger_eq_self little]
    exact Decidable.em (a = b)

/-- `2 ^ 53 + 1` and `2 ^ 53` are rounded to the same number, so that none of less, equal and
greater holds of them. -/
theorem integers_compare_after_two_pow :
    let start := World.fresh ⟨fun _ name paths => .refused (.missingModule name paths)⟩ []
    let first := Object.instanceOf KernelClass.integer.handle (.integer 9007199254740993)
    let second := Object.instanceOf KernelClass.integer.handle (.integer 9007199254740992)
    let middle := (start.heap.add first).2
    let world : World :=
      { start with
        heap := (middle.add second).2
        frames := ⟨#[⟨Table.ofList [("a", start.heap.next), ("b", middle.next)], none⟩]⟩ }
    world.heap.Unmodified ∧
    world.heap.IsInstance start.heap.next .integer (.integer 9007199254740993) ∧
    world.heap.IsInstance middle.next .integer (.integer 9007199254740992) ∧
    world.Compares Kernel.globals ⟨"a", .start "text"⟩ ⟨"b", .start "text"⟩ (.start "text")
      ⟨false, false, false, true, true⟩ := by
  intro start first second middle world
  have unmodified : world.heap.Unmodified := (Heap.unmodified_kernel.add first).add second
  have isFirst : world.heap.IsInstance start.heap.next .integer (.integer 9007199254740993) :=
    Heap.isInstance_of_new (Heap.get?_add_of_held (by rw [Heap.get?_add, if_pos rfl]))
  have isSecond : world.heap.IsInstance middle.next .integer (.integer 9007199254740992) :=
    Heap.isInstance_of_new (by rw [Heap.get?_add, if_pos rfl])
  have answers : Comparisons.rounded 9007199254740993 9007199254740992 =
      ⟨false, false, false, true, true⟩ := by decide +kernel
  let left : Name := ⟨"a", .start "text"⟩
  let right : Name := ⟨"b", .start "text"⟩
  have boundLeft : world.frames.lookup Kernel.globals left.text = some start.heap.next := by
    decide +kernel
  have boundRight : world.frames.lookup Kernel.globals right.text = some middle.next := by
    decide +kernel
  have compared := (integers_compare (.start "text") unmodified boundLeft boundRight isFirst
    isSecond (by decide) (by decide)).1
  rw [answers] at compared
  exact ⟨unmodified, isFirst, isSecond, compared⟩

/-- `9007199254740993` is neither less than `9007199254740992` nor equal to it nor greater. -/
theorem neighbours_not_ordered :
    let start := World.fresh ⟨fun _ name paths => .refused (.missingModule name paths)⟩ []
    let place := Location.start "text"
    let larger : Node := .integer "9007199254740993" place
    let smaller : Node := .integer "9007199254740992" place
    let answer := fun operator =>
      (evaluate 3 Kernel.globals (operatorCall larger operator place smaller) start).result?
    answer "<" = some .falseValue ∧ answer "==" = some .falseValue ∧
      answer ">" = some .falseValue := by
  decide +kernel

end World

end RipInterpreter
