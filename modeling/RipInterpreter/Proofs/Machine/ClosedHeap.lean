import RipInterpreter.Proofs.Machine.SoundHeap

namespace RipInterpreter

/-- The value that is stored under a property, or that its resolver answers with. -/
def Property.mentions : Property → List Handle
  | .plain value => [value]
  | .dynamic (.host (.constant value)) | .delayed (.host (.constant value)) => [value]
  | _ => []

def Parameter.mentions : Parameter → List Handle
  | .binding _ => []
  | .matcher value => [value]

def Overload.mentions (overload : Overload) : List Handle :=
  overload.parameters.flatMap Parameter.mentions

def Callable.mentions (callable : Callable) : List Handle :=
  callable.receiver.toList ++ callable.overloads.flatMap Overload.mentions

def Payload.mentions : Payload → List Handle
  | .lambda callable => callable.mentions
  | .classObject _ ancestors => ancestors
  | payload => payload.contents

theorem Payload.mentions_of_contents {payload : Payload} {item : Handle}
    (inside : item ∈ payload.contents) : item ∈ payload.mentions := by
  cases payload with
  | lambda callable => cases inside
  | classObject name ancestors => cases inside
  | _ => exact inside

theorem Payload.mentions_of_ancestors {payload : Payload} {ancestor : Handle}
    (inside : ancestor ∈ payload.ancestors) : ancestor ∈ payload.mentions := by
  cases payload with
  | classObject name ancestors => exact inside
  | _ => cases inside

theorem Payload.Becomes.mentions {payload later : Payload} (becomes : payload.Becomes later) :
    later.mentions = payload.mentions := by
  cases becomes <;> rfl

theorem Payload.Becomes.contents {payload later : Payload} (becomes : payload.Becomes later) :
    later.contents = payload.contents := by
  cases becomes <;> rfl

namespace Heap

variable {heap : Heap} {handle : Handle} {object : Object}

/-- All objects that an object mentions exist, and its content is older than itself. -/
structure ClosedObject (heap : Heap) (handle : Handle) (object : Object) : Prop where
  properties : ∀ key property, object.properties.get? key = some property →
    ∀ value ∈ property.mentions, heap.Holds value
  payload : ∀ value ∈ object.payload.mentions, heap.Holds value
  older : ∀ item ∈ object.payload.contents, item.index < handle.index

structure Closed (heap : Heap) : Prop where
  kernel : ∀ index < Handle.firstMethod, heap.Holds ⟨index⟩
  objects : ∀ handle object, heap.get? handle = some object → heap.ClosedObject handle object

theorem ClosedObject.contents (closed : heap.ClosedObject handle object) {item : Handle}
    (inside : item ∈ object.payload.contents) : heap.Holds item ∧ item.index < handle.index :=
  ⟨closed.payload item (Payload.mentions_of_contents inside), closed.older item inside⟩

theorem ClosedObject.stored (closed : heap.ClosedObject handle object) {key : String}
    {value : Handle} (found : object.properties.get? key = some (.plain value)) :
    heap.Holds value := closed.properties key _ found value (List.mem_singleton_self value)

theorem SoundObject.closed (sound : heap.SoundObject handle object) :
    heap.ClosedObject handle object where
  properties key property found value inside := by
    have ofKernel := sound.computed key property found
    cases property with
    | plain stored => exact List.mem_singleton.mp inside ▸ sound.stored key stored found
    | dynamic resolver =>
        cases resolver with
        | host resolver => cases ofKernel
        | _ => cases inside
    | delayed resolver =>
        cases resolver with
        | host resolver => cases ofKernel
        | _ => cases inside
  payload value inside := by
    have contents := sound.contents value
    have ancestors := sound.ancestors value
    have callables := sound.callable
    cases shape : object.payload with
    | lambda callable =>
        rw [shape] at inside
        rcases List.mem_append.mp inside with tied | compared
        · exact ((callables callable shape).receiver value (Option.mem_toList.mp tied)).holds
        · obtain ⟨overload, listed, compared⟩ := List.mem_flatMap.mp compared
          obtain ⟨parameter, taken, compared⟩ := List.mem_flatMap.mp compared
          cases parameter with
          | binding name => cases compared
          | matcher expected =>
              cases List.mem_singleton.mp compared
              exact (((callables callable shape).overloads overload listed).matchers value
                taken).holds
    | classObject name line =>
        rw [shape] at inside ancestors
        exact (ancestors inside).holds
    | _ =>
        rw [shape] at inside contents
        exact (contents inside).1.holds
  older item inside := (sound.contents item inside).2

theorem Sound.closed (sound : heap.Sound) : heap.Closed where
  kernel index bound := (sound.kernel index bound).holds
  objects handle object found := (sound.objects handle object found).closed

instance {heap : Heap} : Coe heap.Sound heap.Closed := ⟨Sound.closed⟩

theorem Closed.kernelClass (closed : heap.Closed) (kernelClass : KernelClass) :
    heap.Holds kernelClass.handle :=
  closed.kernel _ (by cases kernelClass <;> decide)

theorem Closed.classHandle {parent : Handle} (closed : heap.Closed)
    (found : heap.get? handle = some object) (own : object.classHandle = some parent) :
    heap.Holds parent := by
  unfold Object.classHandle at own
  split at own
  · cases own
    exact (closed.objects handle object found).stored ‹_›
  · cases own

theorem Closed.nil (closed : heap.Closed) : heap.Holds .nil := closed.kernel _ (by decide)

theorem Closed.ofBool (closed : heap.Closed) (holds : Bool) : heap.Holds (.ofBool holds) := by
  cases holds <;> exact closed.kernel _ (by decide)

theorem Grows.closedObject {after : Heap} (grows : heap.Grows after)
    (closed : heap.ClosedObject handle object) : after.ClosedObject handle object where
  properties key property found value inside :=
    grows.holds (closed.properties key property found value inside)
  payload value inside := grows.holds (closed.payload value inside)
  older := closed.older

/-- The new object has to be closed among all objects, itself included. -/
theorem Closed.add (closed : heap.Closed)
    (fits : (heap.add object).2.ClosedObject heap.next object) : (heap.add object).2.Closed where
  kernel index bound := (grows_add heap object).holds (closed.kernel index bound)
  objects handle found stored := by
    rw [get?_add] at stored
    split at stored
    · rename_i same
      cases stored
      exact same ▸ fits
    · exact (grows_add heap object).closedObject (closed.objects handle found stored)

theorem Closed.modify {change : Object → Object} (closed : heap.Closed)
    (becomes : ∀ object, heap.get? handle = some object →
      object.payload.Becomes (change object).payload)
    (fits : ∀ object, heap.get? handle = some object → heap.ClosedObject handle object →
      heap.ClosedObject handle (change object)) :
    (heap.modify handle change).Closed where
  kernel index bound := (grows_modify becomes).holds (closed.kernel index bound)
  objects other found stored := by
    refine (grows_modify becomes).closedObject ?_
    rw [get?_modify] at stored
    split at stored
    · rename_i same
      subst same
      obtain ⟨earlier, present, rfl⟩ := Option.map_eq_some_iff.mp stored
      exact fits earlier present (closed.objects other earlier present)
    · exact closed.objects other found stored

end Heap

end RipInterpreter
