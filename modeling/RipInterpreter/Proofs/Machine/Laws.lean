import RipInterpreter.Evaluation.Step
import RipInterpreter.Proofs.Machine.Steps

/-!
Between one node and the next a machine makes objects, reads properties, runs methods of the kernel.
All of this is put together from a few smallest steps. What is true of these and passes on to
sequences of steps is true of it.
-/

namespace RipInterpreter.Action

variable {α β : Type}

/-- The property is one of the smallest steps that deal with objects, and sequences of steps inherit
it. -/
structure Law (holds : {α : Type} → Action α → Prop) : Prop where
  pure : ∀ {α : Type} (result : α), holds (pure result : Action α)
  bind : ∀ {α β : Type} {action : Action α} {continuation : α → Action β}, holds action →
    (∀ result, holds (continuation result)) → holds (action >>= continuation)
  /-- Errors do not know their place. -/
  fail : ∀ {α : Type} {error : Error}, error.location = none → holds (fail error : Action α)
  world : holds Action.world
  ask : ∀ {α : Type} (question : Heap → Except ReadFault α), holds (ask question)
  /-- Only the objects change, and the number of resolver runs. -/
  change : ∀ update : World → World, (∀ world, ∃ heap resolverRuns, update world =
    { world with heap := heap, resolverRuns := resolverRuns }) → holds (change update)

namespace Law

variable {holds : {α : Type} → Action α → Prop} (law : Law holds)
include law

theorem fault (reason : RuntimeFault) : holds (Action.fault reason : Action α) :=
  law.fail rfl

theorem mapM {items : List α} {visit : α → Action β} (each : ∀ item, holds (visit item)) :
    holds (items.mapM visit) := by
  induction items with
  | nil => exact law.pure []
  | cons item rest ih =>
      rw [List.mapM_cons]
      exact law.bind (each item) fun _ => law.bind ih fun _ => law.pure _

theorem allocate (object : Object) : holds (Action.allocate object) :=
  law.bind law.world fun world =>
    law.bind (law.change (fun world => { world with heap := (world.heap.add object).2 })
      fun _ => ⟨_, _, rfl⟩) fun _ => law.pure (world.heap.add object).1

theorem setProperty (object : Handle) (key : String) (property : Property) :
    holds (Action.setProperty object key property) :=
  law.bind (law.ask _) fun _ => law.change _ fun _ => ⟨_, _, rfl⟩

theorem set (object : Handle) (key : String) (value : Handle) :
    holds (Action.set object key value) := law.setProperty object key (.plain value)

theorem newInstance (kernelClass : KernelClass) (payload : Payload) :
    holds (Action.newInstance kernelClass payload) := law.allocate _

theorem newKeyValue (key value : Handle) : holds (Action.newKeyValue key value) :=
  law.bind (law.newInstance _ _) fun pair => law.bind (law.set pair _ _) fun _ =>
    law.bind (law.set pair _ _) fun _ => law.pure pair

theorem newRange (start last : Handle) (exclusive : Bool) :
    holds (Action.newRange start last exclusive) :=
  law.bind (law.newInstance _ _) fun range => law.bind (law.set range _ _) fun _ =>
    law.bind (law.set range _ _) fun _ => law.bind (law.set range _ _) fun _ => law.pure range

theorem newException (message : String) : holds (Action.newException message) :=
  law.bind (law.newInstance _ _) fun exception => law.bind (law.newInstance _ _) fun _ =>
    law.bind (law.set exception _ _) fun _ => law.pure exception

theorem newClass (name : Option String) (parents : List Handle) :
    holds (Action.newClass name parents) :=
  law.bind (law.allocate _) fun _ => law.bind law.world fun _ =>
    law.bind (law.ask _) fun ancestors => by
      cases ancestors with
      | none => exact law.fault _
      | some ancestors => exact law.allocate _

theorem nameClass (object : Handle) (name : String) :
    holds (Action.nameClass object name) :=
  law.bind (law.ask _) fun _ => law.change _ fun _ => ⟨_, _, rfl⟩

theorem payload (handle : Handle) : holds (Action.payload handle) :=
  law.bind (law.ask _) fun _ => law.pure _

theorem unexpected (expected : String) (found : Handle) :
    holds (Action.unexpected expected found : Action α) :=
  law.bind (law.ask _) fun _ => law.fault _

theorem stringValue (handle : Handle) : holds (Action.stringValue handle) :=
  law.bind (law.payload handle) fun found => by
    cases found with
    | string value => exact law.pure value
    | _ => exact law.unexpected _ _

theorem integerValue (handle : Handle) : holds (Action.integerValue handle) :=
  law.bind (law.payload handle) fun found => by
    cases found with
    | integer value => exact law.pure value
    | _ => exact law.unexpected _ _

theorem listItems (handle : Handle) : holds (Action.listItems handle) :=
  law.bind (law.payload handle) fun found => by
    cases found with
    | list items => exact law.pure items
    | _ => exact law.unexpected _ _

theorem mapPairs (handle : Handle) : holds (Action.mapPairs handle) :=
  law.bind (law.payload handle) fun found => by
    cases found with
    | map pairs => exact law.pure pairs
    | _ => exact law.unexpected _ _

theorem numeral (handle : Handle) : holds (Action.numeral handle) :=
  law.bind (law.payload handle) fun found => by
    cases found with
    | integer value => exact law.pure _
    | decimal value => exact law.pure _
    | _ => exact law.unexpected _ _

theorem characterValue (handle : Handle) : holds (Action.characterValue handle) :=
  law.bind (law.payload handle) fun found => by
    cases found with
    | character value => exact law.pure value
    | _ => exact law.unexpected _ _

theorem textValue (handle : Handle) : holds (Action.textValue handle) :=
  law.bind (law.payload handle) fun found => by
    cases found with
    | string value => exact law.pure value
    | character value => exact law.pure _
    | _ => exact law.unexpected _ _

theorem patternValue (handle : Handle) : holds (Action.patternValue handle) :=
  law.bind (law.payload handle) fun found => by
    cases found with
    | regularExpression pattern => exact law.pure pattern
    | _ => exact law.unexpected _ _

theorem tie (value receiver : Handle) : holds (Action.tie value receiver) :=
  law.bind (law.payload value) fun found => by
    cases found with
    | lambda callable => exact law.newInstance _ _
    | _ => exact law.pure value

theorem runHostResolver (resolver : HostResolver) (key : String) (receiver : Handle) :
    holds (Action.runHostResolver resolver key receiver) :=
  law.bind (law.change _ fun _ => ⟨_, _, rfl⟩) fun _ => by
    cases resolver with
    | constant value => exact law.pure value
    | key => exact law.newInstance _ _
    | receiver => exact law.pure receiver
    | fail => exact law.fault _
    | counter => exact law.bind law.world fun _ => law.newInstance _ _

theorem runResolver (resolver : Resolver) (key : String) (receiver : Handle) :
    holds (Action.runResolver resolver key receiver) := by
  cases resolver with
  | ancestors => exact law.bind (law.ask _) fun _ => law.newInstance _ _
  | stringLength =>
      exact law.bind (law.stringValue receiver) fun _ => law.newInstance _ _
  | stringCharacters =>
      exact law.bind (law.stringValue receiver) fun _ =>
        law.bind (law.mapM fun _ => law.newInstance _ _) fun _ =>
          law.newInstance _ _
  | listLength =>
      exact law.bind (law.listItems receiver) fun _ => law.newInstance _ _
  | mapLength =>
      exact law.bind (law.mapPairs receiver) fun _ => law.newInstance _ _
  | kernelClass kernelClass => exact law.pure _
  | host resolver => exact law.runHostResolver resolver key receiver

theorem finalize (receiver owner : Handle) (key : String) (property : Property) :
    holds (Action.finalize receiver owner key property) := by
  cases property with
  | plain value => exact law.tie value receiver
  | dynamic resolver => exact law.runResolver resolver key receiver
  | delayed resolver =>
      exact law.bind (law.runResolver resolver key receiver) fun value =>
        law.bind (law.set owner key value) fun _ => law.tie value receiver

theorem get (receiver : Handle) (key : String) : holds (Action.get receiver key) :=
  law.bind (law.ask _) fun found => by
    cases found with
    | none => exact law.fault _
    | some place => exact law.finalize receiver place.1 key place.2

theorem receiverOf (call : Call) : holds (Action.receiverOf call) := by
  unfold Action.receiverOf
  cases call.receiver with
  | none => exact law.fail rfl
  | some receiver => exact law.pure receiver

theorem argumentOf (call : Call) (index : Nat) :
    holds (Action.argumentOf call index) := by
  unfold Action.argumentOf
  cases call.arguments[index]? with
  | none => exact law.fail rfl
  | some argument => exact law.pure argument

theorem arithmetic (operator : Operator) (left right : Numeral) :
    holds (Action.arithmetic operator left right) := by
  unfold Action.arithmetic
  split
  · split
    · exact law.newInstance _ _
    · exact law.fault _
  · exact law.newInstance _ _

theorem valueAt (wanted : Handle) (pairs : List Handle) :
    holds (Action.valueAt wanted pairs) := by
  induction pairs with
  | nil => exact law.pure _
  | cons pair rest ih =>
      refine law.bind (law.payload pair) fun found => ?_
      cases found with
      | keyValue key value =>
          refine law.bind (law.ask _) fun same => ?_
          cases same with
          | true => exact law.pure value
          | false => exact ih
      | _ => exact ih

theorem runHostMethod (method : HostMethod) (call : Call) :
    holds (Action.runHostMethod method call) := by
  cases method with
  | receiver => exact law.receiverOf call
  | argument index => exact law.argumentOf call index
  | fail message => exact law.fault _
  | collect tag =>
      exact law.bind (law.newInstance _ _) fun _ => law.newInstance _ _

/-- Only the method that requires a module runs code of a program. -/
theorem runMethod (evaluator : Evaluator) {method : Method} (other : method ≠ .require)
    (call : Call) : holds (Action.runMethod evaluator method call) := by
  have received {α : Type} {next : Handle → Action α} (each : ∀ handle, holds (next handle)) :
      holds (Action.receiverOf call >>= next) := law.bind (law.receiverOf call) each
  have argued {α : Type} {next : Handle → Action α} (each : ∀ handle, holds (next handle)) :
      holds (Action.argumentOf call 0 >>= next) := law.bind (law.argumentOf call 0) each
  have made := law.newInstance
  cases method with
  | constant truth => exact law.pure _
  | itself => exact law.receiverOf call
  | equality equal =>
      exact received fun _ => argued fun _ => law.bind (law.ask _) fun _ => law.pure _
  | negation => exact received fun _ => law.pure _
  | display => exact received fun _ => law.bind (law.ask _) fun _ => made _ _
  | instantiate => exact received fun _ => law.allocate _
  | arithmetic operator =>
      exact received fun _ => law.bind (law.numeral _) fun _ => argued fun _ =>
        law.bind (law.numeral _) fun _ => law.arithmetic _ _ _
  | comparison comparison =>
      exact received fun _ => law.bind (law.numeral _) fun _ => argued fun _ =>
        law.bind (law.numeral _) fun _ => law.pure _
  | upperCharacter =>
      exact received fun _ => law.bind (law.characterValue _) fun _ => made _ _
  | lowerCharacter =>
      exact received fun _ => law.bind (law.characterValue _) fun _ => made _ _
  | upperString => exact received fun _ => law.bind (law.stringValue _) fun _ => made _ _
  | lowerString => exact received fun _ => law.bind (law.stringValue _) fun _ => made _ _
  | appendString =>
      exact received fun _ => law.bind (law.stringValue _) fun _ => argued fun _ =>
        law.bind (law.textValue _) fun _ => made _ _
  | appendPattern =>
      refine received fun _ => law.bind (law.patternValue _) fun _ =>
        argued fun _ => law.bind (law.payload _) fun found => ?_
      cases found with
      | regularExpression more => exact made _ _
      | _ => exact law.bind (law.textValue _) fun _ => made _ _
  | patternText => exact received fun _ => law.bind (law.patternValue _) fun _ => made _ _
  | appendList =>
      exact received fun _ => law.bind (law.listItems _) fun _ => argued fun _ =>
        law.bind (law.listItems _) fun _ => made _ _
  | listAt =>
      exact received fun _ => law.bind (law.listItems _) fun _ => argued fun _ =>
        law.bind (law.integerValue _) fun _ => law.pure _
  | mapAt =>
      exact argued fun _ => received fun _ => law.bind (law.mapPairs _) fun _ =>
        law.valueAt _ _
  | exceptionText =>
      refine received fun _ => law.bind (law.ask _) fun message => ?_
      cases message with
      | some message => exact made _ _
      | none => exact law.bind (law.ask _) fun _ => made _ _
  | require => exact absurd rfl other
  | host method => exact law.runHostMethod method call

theorem integerLiteral (digits : String) : holds (Action.integerLiteral digits) := by
  unfold Action.integerLiteral
  split
  · exact law.newInstance _ _
  · exact law.fault _

theorem decimalLiteral (digits : String) : holds (Action.decimalLiteral digits) := by
  unfold Action.decimalLiteral
  split
  · exact law.newInstance _ _
  · exact law.fault _

end Law

end RipInterpreter.Action
