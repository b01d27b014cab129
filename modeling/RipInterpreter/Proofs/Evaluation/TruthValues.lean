import RipInterpreter.Proofs.Evaluation.Lawful
import RipInterpreter.Proofs.Machine.KernelMethods
import RipInterpreter.Proofs.Machine.StableEquality

namespace RipInterpreter

/-- The only object with the payload, for payloads that only one object has. -/
def Payload.single? : Payload → Option Handle
  | .boolean value => some (.ofBool value)
  | .nil => some .nil
  | _ => none

theorem Payload.Becomes.single? {payload later : Payload} (becomes : payload.Becomes later) :
    later.single? = payload.single? := by
  cases becomes <;> rfl

theorem Payload.Becomes.eq_of_single {payload later : Payload} {handle : Handle}
    (becomes : payload.Becomes later) (single : payload.single? = some handle) :
    later = payload := by
  cases becomes with
  | same => rfl
  | named name ancestors => cases single

namespace Heap

variable {heap : Heap} {handle : Handle} {object : Object}

theorem Makes.single? (makes : heap.Makes object) : object.payload.single? = none := by
  cases makes with
  | @value kernelClass payload literal contents => cases payload <;> first | exact literal.elim | rfl
  | _ => rfl

/-- The truth values and `nil` are there, and no other objects have their payloads. -/
structure Single (heap : Heap) : Prop where
  truth : ∀ value, ∃ object, heap.get? (.ofBool value) = some object ∧
    object.payload = .boolean value
  nil : ∃ object, heap.get? .nil = some object ∧ object.payload = .nil
  only : ∀ handle object single, heap.get? handle = some object →
    object.payload.single? = some single → handle = single

theorem Single.boolean_iff (single : heap.Single) (found : heap.get? handle = some object)
    (value : Bool) : object.payload = .boolean value ↔ handle = .ofBool value := by
  constructor
  · intro shape
    exact single.only handle object _ found (by rw [shape]; rfl)
  · rintro rfl
    obtain ⟨known, present, shape⟩ := single.truth value
    cases found.symm.trans present
    exact shape

theorem Single.nil_iff (single : heap.Single) (found : heap.get? handle = some object) :
    object.payload = .nil ↔ handle = .nil := by
  constructor
  · intro shape
    exact single.only handle object _ found (by rw [shape]; rfl)
  · rintro rfl
    obtain ⟨known, present, shape⟩ := single.nil
    cases found.symm.trans present
    exact shape

/-- Content and identity agree: another object that were equal to a truth value would have its
payload. -/
theorem Single.equal_ofBool (single : heap.Single) (held : heap.Holds handle) (value : Bool) :
    heap.equal handle (.ofBool value) = .ok (decide (handle = .ofBool value)) ∧
      heap.equal (.ofBool value) handle = .ok (decide (handle = .ofBool value)) := by
  obtain ⟨object, found⟩ := held
  obtain ⟨known, present, shape⟩ := single.truth value
  rw [equal_payloads found present, equal_payloads present found, shape]
  by_cases same : handle = .ofBool value
  · simp [same]
  · have other : object.payload ≠ .boolean value :=
      fun shape => same ((single.boolean_iff found value).mp shape)
    rw [if_neg same, if_neg (Ne.symm same), decide_eq_false same]
    cases content : object.payload with
    | boolean truth =>
        have apart : truth ≠ value := fun equal => other (by rw [content, equal])
        exact ⟨congrArg Except.ok (beq_eq_false_iff_ne.mpr apart),
          congrArg Except.ok (beq_eq_false_iff_ne.mpr apart.symm)⟩
    | _ => exact ⟨rfl, rfl⟩

end Heap

/-- An object after a step was made by it, or it was there with the same payload, up to the name of a
class. -/
theorem World.Step.origin {world after : World} (step : World.Step world after) {handle : Handle}
    {later : Object} (found : after.heap.get? handle = some later) :
    (handle = world.heap.next ∧ world.heap.Makes later) ∨
      ∃ object, world.heap.get? handle = some object ∧ object.payload.Becomes later.payload := by
  cases step with
  | make makes =>
      rw [Heap.get?_add] at found
      split at found
      · cases found
        exact .inl ⟨‹_›, makes⟩
      · exact .inr ⟨later, found, .same _⟩
  | store owner key proper => exact .inr (Heap.origin_modify found fun _ => .same _)
  | name owner name => exact .inr (Heap.origin_modify found (Heap.becomes_named name))
  | _ => exact .inr ⟨later, found, .same _⟩

theorem Heap.Grows.single {heap after : Heap} (grows : heap.Grows after) {handle : Handle}
    {payload : Payload} (single : payload.single? = some handle)
    (held : ∃ object, heap.get? handle = some object ∧ object.payload = payload) :
    ∃ object, after.get? handle = some object ∧ object.payload = payload := by
  obtain ⟨object, found, rfl⟩ := held
  obtain ⟨later, kept, becomes⟩ := grows handle object found
  exact ⟨later, kept, becomes.eq_of_single single⟩

theorem World.Step.single {world after : World} (step : World.Step world after)
    (single : world.heap.Single) : after.heap.Single where
  truth value := step.grows.single rfl (single.truth value)
  nil := step.grows.single rfl single.nil
  only handle later owner found shape := by
    rcases step.origin found with ⟨-, makes⟩ | ⟨object, present, becomes⟩
    · rw [makes.single?] at shape
      cases shape
    · rw [becomes.single?] at shape
      exact single.only handle object owner present shape

/-- By induction on the number of steps. -/
theorem World.Leads.single {world after : World} (leads : world.Leads after)
    (single : world.heap.Single) : after.heap.Single := by
  induction leads with
  | refl => exact single
  | tail _ step ih => exact step.single ih

theorem Kernel.single_heap : Kernel.heap.Single where
  truth value := by cases value <;> exact ⟨_, rfl, rfl⟩
  nil := ⟨_, rfl, rfl⟩
  only handle object single found shape := by
    have known : (objects.zipIdx.all fun entry =>
        entry.1.payload.single?.all fun single => single.index == entry.2) = true := by
      decide +kernel
    rw [get?_heap] at found
    have own := List.all_eq_true.mp known _ (List.mk_mem_zipIdx_iff_getElem?.mpr found)
    rw [shape] at own
    have same : single.index = handle.index := eq_of_beq own
    cases handle
    cases single
    cases same
    rfl

open RipInterpreter.Action RipInterpreter.Syntax

/-- However a state is asked whether a value is a truth value, the answer is the same: by a
comparison, by a method, by an overload with a literal, by a case of a switch. -/
structure World.Tells (world : World) (value : Handle) (truth same : Bool) : Prop where
  equal : world.heap.equal value (.ofBool truth) = .ok same
  equalTo : world.heap.equal (.ofBool truth) value = .ok same
  method : ∀ evaluator wanted scope,
    runMethod evaluator (.equality wanted) ⟨some value, [.ofBool truth], scope⟩ world =
      .value (.ofBool (same == wanted)) world
  parameter : ∀ parameters arguments,
    world.heap.matchParameters (.matcher (.ofBool truth) :: parameters) (value :: arguments) =
      if same then do return (← world.heap.matchParameters parameters arguments).map (· + 1)
      else .ok none
  overload : ∀ name body otherwise,
    world.heap.selectOverload [value] none
        [⟨[.matcher (.ofBool truth)], body⟩, ⟨[.binding name], otherwise⟩] =
      .ok (some (if same then (⟨[.matcher (.ofBool truth)], body⟩, 1)
        else (⟨[.binding name], otherwise⟩, 0)))
  case : ∀ depth scope node body place cases after,
    evaluate depth scope node world = .value (.ofBool truth) after →
    findCase (evaluate depth) scope value (⟨[node], body, place⟩ :: cases) world =
      if same then .value (some body) after
      else findCase (evaluate depth) scope value cases after

theorem World.tells {world : World} {value : Handle} (sound : world.SoundState)
    (single : world.heap.Single) (held : world.heap.Holds value) (truth : Bool) :
    world.Tells value truth (decide (value = .ofBool truth)) := by
  obtain ⟨equal, equalTo⟩ := single.equal_ofBool held truth
  have parameter (parameters : List Parameter) (arguments : List Handle) :
      world.heap.matchParameters (.matcher (.ofBool truth) :: parameters) (value :: arguments) =
        if decide (value = .ofBool truth) then do
          return (← world.heap.matchParameters parameters arguments).map (· + 1)
        else .ok none := by
    rw [Heap.matchParameters, equalTo]
    rfl
  refine ⟨equal, equalTo, fun evaluator wanted scope => ?_, parameter,
    fun name body otherwise => ?_, fun depth scope node body place cases after evaluated => ?_⟩
  · change (ask (fun heap => heap.equal value (.ofBool truth)) >>= fun found =>
      (pure (.ofBool (found == wanted)) : Action Handle)) world = _
    rw [bind_of_value (ask_of_ok equal)]
    rfl
  · unfold Heap.selectOverload Heap.selectOverload Heap.selectOverload
    rw [parameter]
    cases decide (value = .ofBool truth) <;> rfl
  · have leads := (Session.runsLead sound).evaluate depth scope node after (by rw [evaluated]; rfl)
    have asked := ((leads.single single).equal_ofBool (leads.grows.holds held) truth).1
    rw [findCase, bind_apply, matchesAny, bind_of_value evaluated, bind_of_value (ask_of_ok asked)]
    cases decide (value = .ofBool truth) <;> rfl

/-- The `to_boolean` of the value is the method of the kernel that answers with the value itself. -/
def Heap.AnswersItself (heap : Heap) (value : Handle) : Prop :=
  ∃ owner found object closure receiver,
    heap.findProperty value "to_boolean" = .ok (some (owner, .plain found)) ∧
    heap.read found = .ok object ∧
    object.payload = .lambda ⟨closure, [⟨[], .method .itself⟩], receiver⟩

namespace Action

variable {evaluator : Evaluator} {scope : Scope} {world after : World} {value : Handle}

/-- A condition holds exactly if what the value answers with is the true value. -/
theorem holds_eq_value {answer : Bool}
    (decided : holds evaluator scope value world = .value answer after) :
    ∃ sent, send evaluator value "to_boolean" [] scope world = .value sent after ∧
      answer = decide (sent = .ofBool true) := by
  obtain ⟨sent, later, ended, decided⟩ := value_of_bind decided
  cases decided
  exact ⟨sent, ended, rfl⟩

theorem send_itself (answers : world.heap.AnswersItself value) (evaluator : Evaluator)
    (scope : Scope) :
    ∃ tied, send evaluator value "to_boolean" [] scope world =
      .value value { world with heap := (world.heap.add tied).2 } := by
  obtain ⟨owner, found, object, closure, receiver, located, read, shape⟩ := answers
  let tied := Object.instanceOf KernelClass.lambda.handle
    (.lambda ⟨closure, [⟨[], .method .itself⟩], some value⟩)
  have got : get value "to_boolean" world =
      .value world.heap.next { world with heap := (world.heap.add tied).2 } := by
    rw [get, bind_of_value (ask_of_ok located)]
    change tie found value world = _
    rw [tie, bind_of_value (payload_of_read read), shape]
    rfl
  have made : (world.heap.add tied).2.read world.heap.next = .ok tied :=
    Heap.read_eq_ok (by rw [Heap.get?_add, if_pos rfl])
  refine ⟨tied, ?_⟩
  rw [send, bind_of_value got, call, bind_of_value (payload_of_read made)]
  rfl

theorem locate_of_run {α : Type} {action rest : Action α} (ran : action world = rest after)
    (place : Location) : locate place action world = locate place rest after := by
  unfold locate
  rw [ran]

/-- The block of the first case with the value itself among its matchers, where the values of all
matchers that are evaluated are truth values. -/
inductive Picks (evaluator : Evaluator) (scope : Scope) (value : Handle) :
    List Case → World → Option Block → World → Prop
  | none {world : World} : Picks evaluator scope value [] world none world
  | taken {node : Node} {truth : Bool} {matchers : List Node} {body : Block} {place : Location}
    {cases : List Case} {world after : World}
    (evaluated : evaluator scope node world = .value (.ofBool truth) after)
    (same : value = .ofBool truth) :
    Picks evaluator scope value (⟨node :: matchers, body, place⟩ :: cases) world (some body) after
  | passed {node : Node} {truth : Bool} {matchers : List Node} {body : Block} {place : Location}
    {cases : List Case} {world after last : World} {found : Option Block}
    (evaluated : evaluator scope node world = .value (.ofBool truth) after)
    (differs : value ≠ .ofBool truth)
    (behind : Picks evaluator scope value (⟨matchers, body, place⟩ :: cases) after found last) :
    Picks evaluator scope value (⟨node :: matchers, body, place⟩ :: cases) world found last
  | further {body : Block} {place : Location} {cases : List Case} {world last : World}
    {found : Option Block} (behind : Picks evaluator scope value cases world found last) :
    Picks evaluator scope value (⟨[], body, place⟩ :: cases) world found last

/-- Cases are told from each other by identity. -/
theorem Picks.findCase {depth : Nat} {cases : List Case} {found : Option Block}
    (picks : Picks (evaluate depth) scope value cases world found after)
    (sound : world.SoundState) (single : world.heap.Single) (held : world.heap.Holds value) :
    findCase (evaluate depth) scope value cases world = .value found after := by
  have asked {node : Node} {truth : Bool} {world after : World} (sound : world.SoundState)
      (single : world.heap.Single) (held : world.heap.Holds value)
      (evaluated : evaluate depth scope node world = .value (.ofBool truth) after) :
      after.SoundState ∧ after.heap.Single ∧ after.heap.Holds value ∧
        ask (fun heap => heap.equal value (.ofBool truth)) after =
          .value (decide (value = .ofBool truth)) after := by
    have leads := (lawful_evaluate depth scope node world sound).leads (by rw [evaluated]; rfl)
    have held := leads.grows.holds held
    exact ⟨leads.soundState sound, leads.single single, held,
      ask_of_ok ((leads.single single).equal_ofBool held truth).1⟩
  induction picks with
  | none => rfl
  | @taken node truth matchers body place cases world after evaluated same =>
      obtain ⟨-, -, -, equal⟩ := asked sound single held evaluated
      rw [Action.findCase, bind_apply, matchesAny, bind_of_value evaluated, bind_of_value equal,
        decide_eq_true same]
      rfl
  | @passed node truth matchers body place cases world after last found evaluated differs _ ih =>
      obtain ⟨sound, single, held, equal⟩ := asked sound single held evaluated
      rw [← ih sound single held, Action.findCase, bind_apply, matchesAny, bind_of_value evaluated,
        bind_of_value equal, decide_eq_false differs, Action.findCase, bind_apply]
      rfl
  | further behind ih =>
      rw [← ih sound single held]
      rfl

end Action

/-- What is run for a truth value, by identity: a block of a conditional, that of a case or the one
for all others, the body of an overload. -/
structure World.Branches (world : World) : Prop where
  conditional : ∀ depth scope condition body otherwise place value sent middle after,
    evaluate depth scope condition world = .value value middle →
    send (evaluate depth) value "to_boolean" [] scope middle = .value sent after →
    evaluate (depth + 1) scope (.conditional condition body otherwise place) world =
      locate place (runBlock (evaluate depth) scope (if sent = .trueValue then body else otherwise))
        after
  truth : ∀ depth scope condition body otherwise place truth middle,
    evaluate depth scope condition world = .value (.ofBool truth) middle →
    middle.heap.AnswersItself (.ofBool truth) →
    ∃ tied, evaluate (depth + 1) scope (.conditional condition body otherwise place) world =
      locate place (runBlock (evaluate depth) scope (if truth then body else otherwise))
        { middle with heap := (middle.heap.add tied).2 }
  switch : ∀ depth scope subject cases otherwise place value middle found after,
    evaluate depth scope subject world = .value value middle →
    Picks (evaluate depth) scope value cases middle found after →
    ∀ body ∈ found.or (otherwise.map Clause.body),
      evaluate (depth + 1) scope (.switch subject cases otherwise place) world =
        locate place (runBlock (evaluate depth) scope body) after
  call : ∀ depth caller value lambda object callable truth name body otherwise,
    world.heap.get? lambda = some object → object.payload = .lambda callable →
    callable.overloads =
      [⟨[.matcher (.ofBool truth)], .block body⟩, ⟨[.binding name], .block otherwise⟩] →
    world.heap.Holds value →
    call (evaluate depth) lambda [value] caller world =
      if value = .ofBool truth then
        callBlock (evaluate depth) callable [.matcher (.ofBool truth)] [value] body world
      else callBlock (evaluate depth) callable [.binding name] [value] otherwise world

theorem Action.evaluate_conditional {depth : Nat} {scope : Scope} {condition : Node}
    {value sent : Handle} {world middle after : World}
    (evaluated : evaluate depth scope condition world = .value value middle)
    (asked : send (evaluate depth) value "to_boolean" [] scope middle = .value sent after)
    (body otherwise : Block) (place : Location) :
    evaluate (depth + 1) scope (.conditional condition body otherwise place) world =
      locate place (runBlock (evaluate depth) scope (if sent = .trueValue then body else otherwise))
        after := by
  refine locate_of_run ?_ place
  change (evaluate depth scope condition >>= fun value => holds (evaluate depth) scope value >>=
    fun answer => if answer then runBlock (evaluate depth) scope body
      else runBlock (evaluate depth) scope otherwise) world = _
  have decided : holds (evaluate depth) scope value middle =
      .value (decide (sent = .trueValue)) after := by
    rw [holds, bind_of_value asked]
    rfl
  rw [bind_of_value evaluated, bind_of_value decided]
  by_cases same : sent = .trueValue
  · rw [decide_eq_true same, if_pos same, if_pos rfl]
  · rw [decide_eq_false same, if_neg same, if_neg Bool.false_ne_true]

theorem World.branches {world : World} (sound : world.SoundState) (single : world.heap.Single) :
    world.Branches where
  conditional depth scope condition body otherwise place value sent middle after evaluated asked :=
    evaluate_conditional evaluated asked body otherwise place
  truth depth scope condition body otherwise place truth middle evaluated answers := by
    obtain ⟨tied, asked⟩ := send_itself answers (evaluate depth) scope
    refine ⟨tied, (evaluate_conditional evaluated asked body otherwise place).trans ?_⟩
    cases truth <;> rfl
  switch depth scope subject cases otherwise place value middle found after evaluated picks body
      chosen := by
    obtain ⟨leads, proper⟩ := (lawful_evaluate depth scope subject world sound).ended evaluated
    have found_case := picks.findCase (leads.soundState sound) (leads.single single) proper.holds
    refine locate_of_run ?_ place
    change evaluateSwitch (evaluate depth) scope subject cases otherwise world = _
    rw [evaluateSwitch, bind_of_value evaluated, bind_of_value found_case]
    cases found with
    | some block =>
        cases chosen
        rfl
    | none =>
        obtain ⟨clause, rfl, rfl⟩ := Option.map_eq_some_iff.mp chosen
        rfl
  call depth caller value lambda object callable truth name body otherwise found shape overloads
      held := by
    have selected := (World.tells sound single held truth).overload name (.block body)
      (.block otherwise)
    rw [← overloads] at selected
    rw [call, bind_of_value (payload_of_read (Heap.read_eq_ok found)), shape]
    refine (bind_of_value (ask_of_ok selected) _).trans ?_
    by_cases same : value = .ofBool truth
    · simp only [same, decide_true, if_true]
    · simp only [same, decide_false, if_false]
      rfl

namespace Session

/-- In every state of a driver, also in the midst of runs, `true` and `false` are the only objects
with a truth value as payload, and `nil` is the only one with its payload. So a value equals a truth
value exactly if it is that very object, and comparisons, overloads and switches agree on it with
conditionals, which look at nothing but the identity of what the value answers with. -/
theorem truth_values_are_single {loader : Loader} {searchPaths : List String} {world : World}
    (reached : Reachable loader searchPaths world) :
    RunsLead world ∧ ∀ middle, world.Leads middle →
      RunsLead middle ∧
      (∀ handle object, middle.heap.get? handle = some object →
        (∀ truth, object.payload = .boolean truth ↔ handle = .ofBool truth) ∧
        (object.payload = .nil ↔ handle = .nil)) ∧
      (∀ value truth, middle.heap.Holds value →
        middle.Tells value truth (decide (value = .ofBool truth))) ∧
      middle.Branches ∧
      ∀ depth scope value answer after, middle.heap.Proper value →
        holds (evaluate depth) scope value middle = .value answer after →
        ∃ sent, send (evaluate depth) value "to_boolean" [] scope middle = .value sent after ∧
          answer = decide (sent = .ofBool true) ∧ after.Tells sent true answer := by
  obtain ⟨sound, started⟩ := reached.soundState
  refine ⟨runsLead sound, fun middle leads => ?_⟩
  have sound := leads.soundState sound
  have single : middle.heap.Single := (started.trans leads).single Kernel.single_heap
  refine ⟨runsLead sound, fun handle object found =>
    ⟨single.boolean_iff found, single.nil_iff found⟩,
    fun value truth held => World.tells sound single held truth, World.branches sound single,
    fun depth scope value answer after proper decided => ?_⟩
  obtain ⟨sent, ended, rfl⟩ := holds_eq_value decided
  obtain ⟨leads, given⟩ := (gives_send (lawful_evaluate depth) "to_boolean" scope sound proper
    (List.forall_mem_nil _)).ended ended
  exact ⟨sent, ended, rfl,
    World.tells (leads.soundState sound) (leads.single single) given.holds true⟩

/-- A driver has made a lambda with one overload for the true value and one for all others. The
lambda is not taken for the true value, and the false value takes the second block of a conditional,
of a switch and of the lambda. -/
theorem truth_values_are_single_in_branches :
    let start := World.fresh ⟨fun _ name paths => .refused (.missingModule name paths)⟩ []
    let place := Location.start "text"
    let truth : Node := .reference ⟨"true", place⟩
    let falsehood : Node := .reference ⟨"false", place⟩
    let yes : Block := ⟨[.integer "1" place], place⟩
    let no : Block := ⟨[.integer "2" place], place⟩
    let fork : Node := .overloads [⟨.lambda, [.block ⟨[truth], place⟩], yes, place⟩,
      ⟨.lambda, [.reference ⟨"x", place⟩], no, place⟩] place
    ∃ lambda after, interpret 4 ⟨[fork], place⟩ start = .value lambda after ∧
      after.Tells (.ofBool true) true true ∧ after.Tells (.ofBool false) true false ∧
      after.Tells lambda true false ∧
      (∃ later, evaluate 2 Kernel.globals (.conditional falsehood yes no place) after =
        locate place (runBlock (evaluate 1) Kernel.globals no) later) ∧
      evaluate 2 Kernel.globals (.switch falsehood [⟨[truth], yes, place⟩] (some ⟨no, place⟩) place)
          after = locate place (runBlock (evaluate 1) Kernel.globals no) after ∧
      ∃ callable, call (evaluate 1) lambda [.ofBool false] Kernel.globals after =
        callBlock (evaluate 1) callable [.binding "x"] [.ofBool false] no after := by
  intro start place truth falsehood yes no fork
  obtain ⟨lambda, after, object, callable, ran, found, shape, overloads, other, first, second,
      answers⟩ :
      ∃ lambda after object callable, interpret 4 ⟨[fork], place⟩ start = .value lambda after ∧
        after.heap.get? lambda = some object ∧ object.payload = .lambda callable ∧
        callable.overloads =
          [⟨[.matcher (.ofBool true)], .block yes⟩, ⟨[.binding "x"], .block no⟩] ∧
        decide (lambda = .ofBool true) = false ∧
        evaluate 1 Kernel.globals truth after = .value (.ofBool true) after ∧
        evaluate 1 Kernel.globals falsehood after = .value (.ofBool false) after ∧
        after.heap.AnswersItself (.ofBool false) :=
    ⟨_, _, _, _, rfl, rfl, rfl, rfl, rfl, rfl, rfl, _, _, _, _, _, rfl, rfl, rfl⟩
  have reached : Reachable _ [] after := .interpret .fresh 4 ⟨[fork], place⟩ (by rw [ran]; rfl)
  obtain ⟨-, along⟩ := truth_values_are_single reached
  obtain ⟨-, -, tells, branches, -⟩ := along after (.refl after)
  have held (value : Bool) : after.heap.Holds (.ofBool value) := by
    obtain ⟨object, found, -⟩ := (reached.soundState.2.single Kernel.single_heap).truth value
    exact ⟨object, found⟩
  refine ⟨lambda, after, ran, tells _ true (held true), tells _ true (held false), ?_, ?_, ?_,
    callable, ?_⟩
  · rw [← other]
    exact tells lambda true ⟨object, found⟩
  · obtain ⟨tied, chosen⟩ := branches.truth 1 _ _ yes no place false after second answers
    exact ⟨_, chosen⟩
  · have picks : Picks (evaluate 1) Kernel.globals (.ofBool false) [⟨[truth], yes, place⟩] after
        none after := .passed first (by decide) (.further .none)
    exact branches.switch 1 _ _ _ _ place _ after none after second picks no rfl
  · exact branches.call 1 _ _ _ object callable true "x" yes no found shape overloads (held false)

end Session

end RipInterpreter
