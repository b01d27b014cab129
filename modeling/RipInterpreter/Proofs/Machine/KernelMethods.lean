import RipInterpreter.Evaluation.Step
import RipInterpreter.Syntax.Text
import RipInterpreter.Proofs.Machine.FreshWorld
import RipInterpreter.Proofs.Machine.Steps

namespace RipInterpreter

/-- The names under which the kernel has methods. -/
def Kernel.methodNames : List String := allMembers.map Member.name

/-- What instances of a kernel class inherit under a name is a method of one parameter. -/
def Kernel.implements (kernelClass : KernelClass) (name : String) (method : Method) : Bool :=
  match Kernel.heap.findInherited name kernelClass.lineage with
  | .ok (some (_, .plain found)) =>
    match Kernel.heap.get? found with
    | some ⟨_, .lambda ⟨_, [⟨[.binding _], .method native⟩], none⟩⟩ => native == method
    | _ => false
  | _ => false

namespace Heap

variable {heap : Heap} {handle : Handle} {kernelClass : KernelClass} {key : String}

/-- Every object of the kernel still has its payload and its prototype, and under the names of
methods what it had at first. -/
def Unmodified (heap : Heap) : Prop :=
  ∀ handle object, Kernel.heap.get? handle = some object →
    ∃ kept, heap.get? handle = some kept ∧ kept.payload = object.payload ∧
      ∀ key ∈ "@" :: Kernel.methodNames, kept.properties.get? key = object.properties.get? key

/-- The object is an instance of a kernel class with nothing of its own under the names of
methods. -/
def IsInstance (heap : Heap) (handle : Handle) (kernelClass : KernelClass) (payload : Payload) :
    Prop :=
  ∃ object, heap.get? handle = some object ∧ object.payload = payload ∧
    object.classHandle = some kernelClass.handle ∧
    ∀ key ∈ Kernel.methodNames, object.properties.get? key = none

theorem get?_add_of_held {object stored : Object} (found : heap.get? handle = some stored) :
    (heap.add object).2.get? handle = some stored := by
  rw [get?_add, if_neg (next_ne found), found]

theorem Unmodified.read {object : Object} (unmodified : heap.Unmodified)
    (read : Kernel.heap.read handle = .ok object) :
    ∃ kept, heap.read handle = .ok kept ∧ kept.payload = object.payload ∧
      ∀ key ∈ "@" :: Kernel.methodNames, kept.properties.get? key = object.properties.get? key := by
  obtain ⟨kept, found, same⟩ := unmodified handle object (get?_of_read read)
  exact ⟨kept, read_eq_ok found, same⟩

theorem Unmodified.ancestors (unmodified : heap.Unmodified) (kernelClass : KernelClass) :
    heap.ancestors kernelClass.handle = .ok kernelClass.lineage := by
  have first : ((Kernel.heap.get? kernelClass.handle).any fun object =>
      object.payload.ancestors == kernelClass.lineage) = true := by
    cases kernelClass <;> decide +kernel
  obtain ⟨object, found, shape⟩ := (Option.any_eq_true _ _).mp first
  obtain ⟨kept, held, same, -⟩ := unmodified _ object found
  unfold Heap.ancestors
  rw [read_eq_ok held]
  cases own : object.payload with
  | classObject name ancestors =>
      rw [own] at shape
      simp only [bind, Except.bind, same, own]
      exact congrArg Except.ok (eq_of_beq shape)
  | _ =>
      rw [own] at shape
      cases kernelClass <;> cases shape

/-- What classes pass on is the same where all their objects keep it and their prototypes. -/
theorem findInherited_of_kept {after : Heap} {ancestors : List Handle}
    {answer : Option (Handle × Property)}
    (kept : ∀ handle object, heap.read handle = .ok object → ∃ later, after.read handle = .ok later ∧
      later.properties.get? "@" = object.properties.get? "@" ∧
      later.properties.get? key = object.properties.get? key)
    (first : heap.findInherited key ancestors = .ok answer) :
    after.findInherited key ancestors = .ok answer := by
  induction ancestors with
  | nil => exact first
  | cons ancestor rest ih =>
      unfold Heap.findInherited at first ⊢
      cases read : heap.read ancestor with
      | error fault => rw [read] at first; cases first
      | ok object =>
          obtain ⟨later, held, same, -⟩ := kept ancestor object read
          rw [read] at first
          rw [held]
          simp only [bind, Except.bind, same] at first ⊢
          split at first
          · rename_i prototype stored
            cases present : heap.read prototype with
            | error fault => rw [present] at first; cases first
            | ok holder =>
                obtain ⟨last, known, -, same⟩ := kept prototype holder present
                rw [present] at first
                rw [known]
                simp only [same] at first ⊢
                split at first
                · exact first
                · exact ih first
          · exact ih first

/-- Methods are inherited as they were at first. -/
theorem Unmodified.findInherited (unmodified : heap.Unmodified) (named : key ∈ Kernel.methodNames)
    {ancestors : List Handle} {answer : Option (Handle × Property)}
    (first : Kernel.heap.findInherited key ancestors = .ok answer) :
    heap.findInherited key ancestors = .ok answer := by
  refine findInherited_of_kept (fun handle object read => ?_) first
  obtain ⟨kept, held, -, same⟩ := unmodified.read read
  exact ⟨kept, held, same "@" List.mem_cons_self, same key (List.mem_cons_of_mem _ named)⟩

theorem unmodified_kernel : Kernel.heap.Unmodified :=
  fun _ object found => ⟨object, found, rfl, fun _ _ => rfl⟩

theorem Unmodified.add (unmodified : heap.Unmodified) (object : Object) :
    (heap.add object).2.Unmodified := by
  intro handle first found
  obtain ⟨kept, held, same⟩ := unmodified handle first found
  exact ⟨kept, get?_add_of_held held, same⟩

/-- A new instance has no properties of its own but its class. -/
theorem isInstance_of_new {payload : Payload}
    (found : heap.get? handle = some (.instanceOf kernelClass.handle payload)) :
    heap.IsInstance handle kernelClass payload := by
  refine ⟨_, found, rfl, rfl, fun key named => ?_⟩
  have other : key ≠ "class" := by
    rintro rfl
    exact absurd named (by decide +kernel)
  rw [Object.instanceOf, Table.ofList]
  exact (Table.get?_insert ..).trans (if_neg other)

/-- The method that the kernel has for a class is found from its instances. -/
theorem Unmodified.findProperty {payload : Payload} {method : Method} (unmodified : heap.Unmodified)
    (named : key ∈ Kernel.methodNames)
    (implemented : Kernel.implements kernelClass key method = true)
    (value : heap.IsInstance handle kernelClass payload) :
    ∃ owner found object closure parameter,
      heap.findProperty handle key = .ok (some (owner, .plain found)) ∧
      heap.read found = .ok object ∧
      object.payload = .lambda ⟨closure, [⟨[.binding parameter], .method method⟩], none⟩ := by
  obtain ⟨own, held, -, ofClass, plain⟩ := value
  unfold Kernel.implements at implemented
  split at implemented
  case h_2 => cases implemented
  case h_1 owner found inherited =>
    split at implemented
    case h_2 => cases implemented
    case h_1 properties closure parameter native lambda =>
      obtain ⟨kept, known, shape, -⟩ := unmodified found _ lambda
      refine ⟨owner, found, kept, closure, parameter, ?_, read_eq_ok known, ?_⟩
      · unfold Heap.findProperty
        rw [read_eq_ok held]
        simp only [bind, Except.bind, plain key named, ofClass, unmodified.ancestors]
        exact unmodified.findInherited named inherited
      · rw [shape, eq_of_beq implemented]

end Heap

namespace Action

open Syntax

variable {world : World} {receiver argument : Handle} {kernelClass : KernelClass} {key : String}
  {content : Payload} {method : Method}

theorem ask_of_ok {α : Type} {question : Heap → Except ReadFault α} {result : α}
    (answered : question world.heap = .ok result) : ask question world = .value result world := by
  rw [ask, answered]

theorem payload_of_read {handle : Handle} {object : Object}
    (read : world.heap.read handle = .ok object) :
    payload handle world = .value object.payload world := by
  rw [payload, bind_of_value (ask_of_ok read)]
  rfl

theorem mapPairs_of_found {map : Handle} {object : Object} {pairs : List Handle}
    (found : world.heap.get? map = some object) (shape : object.payload = .map pairs) :
    mapPairs map world = .value pairs world := by
  rw [mapPairs, bind_of_value (payload_of_read (Heap.read_eq_ok found)), shape]
  rfl

/-- Reading a method of the kernel makes a lambda that belongs to the receiver. -/
theorem get_kernel_method (unmodified : world.heap.Unmodified) (named : key ∈ Kernel.methodNames)
    (implemented : Kernel.implements kernelClass key method = true)
    (value : world.heap.IsInstance receiver kernelClass content) :
    ∃ closure parameter,
      get receiver key world = newInstance .lambda (.lambda
        ⟨closure, [⟨[.binding parameter], .method method⟩], some receiver⟩) world := by
  obtain ⟨owner, found, object, closure, parameter, located, read, shape⟩ :=
    unmodified.findProperty named implemented value
  refine ⟨closure, parameter, ?_⟩
  rw [get, bind_of_value (ask_of_ok located)]
  change tie found receiver world = _
  rw [tie, bind_of_value (payload_of_read read), shape]

theorem isInstance_of_newInstance {payload : Payload} {result : Handle} {after : World}
    (ended : newInstance kernelClass payload world = .value result after) :
    after.heap.IsInstance result kernelClass payload := by
  cases ended
  refine Heap.isInstance_of_new ?_
  change (world.heap.add (.instanceOf kernelClass.handle payload)).2.get? world.heap.next = _
  rw [Heap.get?_add, if_pos rfl]

theorem numeral_of_integer {handle : Handle} {object : Object} {a : Int}
    (found : world.heap.get? handle = some object) (shape : object.payload = .integer a) :
    numeral handle world = .value (.integer a) world := by
  rw [numeral, bind_of_value (payload_of_read (Heap.read_eq_ok found)), shape]
  rfl

theorem locate_of_value {α : Type} {action : Action α} {result : α} {after : World}
    (ended : action world = .value result after) (place : Location) :
    locate place action world = .value result after := by
  rw [locate, ended]

theorem evaluate_reference (depth : Nat) {scope : Scope} {name : Name} {value : Handle}
    (bound : world.frames.lookup scope name.text = some value) :
    evaluate (depth + 1) scope (.reference name) world = .value value world := by
  refine locate_of_value ?_ name.location
  have found : Action.world world = .value world world := rfl
  rw [step, bind_of_value found, bound]
  rfl

/-- Calling a method of one parameter that is tied to a receiver. -/
theorem call_tied_method (evaluator : Evaluator) {lambda : Handle} {object : Object}
    {closure : Scope} {parameter : String} (read : world.heap.read lambda = .ok object)
    (shape : object.payload = .lambda
      ⟨closure, [⟨[.binding parameter], .method method⟩], some receiver⟩) (scope : Scope) :
    call evaluator lambda [argument] scope world =
      runMethod evaluator method ⟨some receiver, [argument], scope⟩ world := by
  rw [call, bind_of_value (payload_of_read read), shape]
  rfl

/-- Sending an operator to a value runs the method that the kernel has for its class. -/
theorem send_operation (evaluator : Evaluator) (unmodified : world.heap.Unmodified)
    (named : key ∈ Kernel.methodNames)
    (implemented : Kernel.implements kernelClass key method = true)
    (value : world.heap.IsInstance receiver kernelClass content) (argument : Handle)
    (scope : Scope) :
    ∃ lambda, send evaluator receiver key [argument] scope world =
      runMethod evaluator method ⟨some receiver, [argument], scope⟩
        { world with heap := (world.heap.add lambda).2 } := by
  obtain ⟨closure, parameter, got⟩ := get_kernel_method unmodified named implemented value
  let lambda := Object.instanceOf KernelClass.lambda.handle (.lambda
    ⟨closure, [⟨[.binding parameter], .method method⟩], some receiver⟩)
  have read : (world.heap.add lambda).2.read world.heap.next = .ok lambda :=
    Heap.read_eq_ok (by rw [Heap.get?_add, if_pos rfl])
  refine ⟨lambda, ?_⟩
  rw [send, bind_of_value got]
  exact call_tied_method evaluator read rfl scope

/-- An operator between two names runs the method that the kernel has for the class of the first. -/
theorem evaluate_operation (depth : Nat) {scope : Scope} {left right : Name}
    (place : Location) (unmodified : world.heap.Unmodified)
    (named : key ∈ Kernel.methodNames)
    (implemented : Kernel.implements kernelClass key method = true)
    (value : world.heap.IsInstance receiver kernelClass content)
    (first : world.frames.lookup scope left.text = some receiver)
    (second : world.frames.lookup scope right.text = some argument) :
    ∃ lambda, evaluate (depth + 3) scope
        (operatorCall (.reference left) key place (.reference right)) world =
      locate place (runMethod (evaluate (depth + 2)) method ⟨some receiver, [argument], scope⟩)
        { world with heap := (world.heap.add lambda).2 } := by
  obtain ⟨closure, parameter, got⟩ := get_kernel_method unmodified named implemented value
  let callable : Callable :=
    ⟨closure, [⟨[.binding parameter], .method method⟩], some receiver⟩
  let lambda := Object.instanceOf KernelClass.lambda.handle (.lambda callable)
  let after : World := { world with heap := (world.heap.add lambda).2 }
  have read : after.heap.read world.heap.next = .ok lambda :=
    Heap.read_eq_ok (by rw [Heap.get?_add, if_pos rfl])
  have property : evaluate (depth + 2) scope (.property (.reference left) key place) world =
      .value world.heap.next after := by
    refine locate_of_value ?_ place
    change (evaluate (depth + 1) scope (.reference left) >>= fun object => get object key) world = _
    rw [bind_of_value (evaluate_reference depth first), got]
    rfl
  have operand : evaluateAll (evaluate (depth + 2)) scope [.reference right] after =
      .value [argument] after := by
    have found : evaluate (depth + 2) scope (.reference right) after = .value argument after :=
      evaluate_reference (depth + 1) second
    rw [evaluateAll, List.mapM_cons]
    exact (bind_of_value found _).trans rfl
  have called : call (evaluate (depth + 2)) world.heap.next [argument] scope after =
      runMethod (evaluate (depth + 2)) method ⟨some receiver, [argument], scope⟩ after :=
    call_tied_method _ read rfl scope
  refine ⟨lambda, ?_⟩
  change locate place (evaluate (depth + 2) scope _ >>= fun callable =>
    evaluateAll (evaluate (depth + 2)) scope [.reference right] >>= fun arguments =>
      call (evaluate (depth + 2)) callable arguments scope) world = _
  unfold locate
  rw [bind_of_value property, bind_of_value operand, called]

end Action

end RipInterpreter
