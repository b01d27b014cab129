import RipInterpreter.Proofs.Machine.SoundWorld

namespace RipInterpreter

namespace Kernel

/-- The property is not computed by an embedding program, and a stored value is an object of the
kernel. -/
def closedProperty : Property → Bool
  | .plain value => value.index < objects.length
  | .dynamic (.host _) | .delayed (.host _) => false
  | _ => true

/-- The overload has no values to compare with, and its method reads as many arguments as it has
parameters. -/
def closedOverload (overload : Overload) : Bool :=
  (overload.parameters.all fun parameter => parameter matches .binding _) &&
    match overload.body with
    | .method method => method.arity == some overload.parameters.length
    | .block _ => true

/-- The payload refers to nothing but classes of the kernel. -/
def closedPayload : Payload → Bool
  | .classObject _ ancestors => ancestors.all fun ancestor => ancestor.index < Handle.firstMethod
  | .lambda callable => callable.receiver.isNone && callable.overloads.all closedOverload
  | payload => payload.contents.isEmpty

/-- Whatever an object of the kernel refers to is one, too. -/
def closedObject (object : Object) : Bool :=
  (object.properties.entries.all fun entry => closedProperty entry.2) && closedPayload object.payload

theorem closed_objects : objects.all closedObject = true := by decide +kernel

theorem ready_first_objects : (objects.take Handle.firstMethod).all
    (fun object => !(object.payload matches .lambda _)) = true := by decide +kernel

theorem firstMethod_le : Handle.firstMethod ≤ objects.length := by decide +kernel

/-- The objects of a new machine. -/
def heap : Heap := ⟨objects.toArray⟩

theorem get?_heap (handle : Handle) : heap.get? handle = objects[handle.index]? := by
  simp [heap, Heap.get?]

theorem holds_heap {handle : Handle} (bound : handle.index < objects.length) :
    heap.Holds handle :=
  ⟨objects[handle.index], by rw [get?_heap, List.getElem?_eq_getElem bound]⟩

theorem proper_heap {handle : Handle} (first : handle.index < Handle.firstMethod) :
    heap.Proper handle := by
  have bound := Nat.lt_of_lt_of_le first firstMethod_le
  refine ⟨objects[handle.index], by rw [get?_heap, List.getElem?_eq_getElem bound], ?_⟩
  have inside : objects[handle.index] ∈ objects.take Handle.firstMethod :=
    List.mem_take_iff_getElem.mpr ⟨handle.index, by omega, rfl⟩
  have plain := List.all_eq_true.mp ready_first_objects _ inside
  cases shape : objects[handle.index].payload with
  | lambda callable => simp [shape] at plain
  | _ => trivial

theorem soundOverload_of_closed {overload : Overload} (closed : closedOverload overload = true) :
    heap.SoundOverload overload := by
  unfold closedOverload at closed
  obtain ⟨bindings, native⟩ := Bool.and_eq_true_iff.mp closed
  constructor
  · intro value inside
    have binding := List.all_eq_true.mp bindings _ inside
    cases binding
  · intro method shape
    rw [shape] at native
    exact eq_of_beq native

theorem ofKernel_of_closed {property : Property} (closed : closedProperty property = true) :
    property.OfKernel := by
  cases property with
  | plain value => trivial
  | dynamic resolver => cases resolver <;> trivial
  | delayed resolver => cases resolver <;> trivial

theorem soundObject_of_closed {handle : Handle} {object : Object}
    (closed : closedObject object = true) : heap.SoundObject handle object := by
  obtain ⟨properties, inside⟩ := Bool.and_eq_true_iff.mp closed
  have known {key : String} {property : Property}
      (found : object.properties.get? key = some property) : closedProperty property = true :=
    List.all_eq_true.mp properties _ (Table.mem_of_get? found)
  constructor
  case stored =>
      intro key value found
      exact holds_heap (of_decide_eq_true (known found))
  case computed =>
      intro key property found
      exact ofKernel_of_closed (known found)
  case contents =>
      intro item held
      unfold closedPayload at inside
      split at inside
      · rename_i shape
        rw [shape] at held
        cases held
      · rename_i shape
        rw [shape] at held
        cases held
      · rw [List.isEmpty_iff.mp inside] at held
        cases held
  case ancestors =>
      intro ancestor held
      unfold closedPayload at inside
      split at inside
      · rename_i shape
        rw [shape] at held
        exact proper_heap (of_decide_eq_true (List.all_eq_true.mp inside _ held))
      · rename_i shape
        rw [shape] at held
        cases held
      · rename_i other _
        cases shape : object.payload with
        | classObject name ancestors => exact absurd shape (other name ancestors)
        | _ =>
            rw [shape] at held
            cases held
  case callable =>
      intro callable shape
      rw [shape] at inside
      obtain ⟨untied, closed⟩ := Bool.and_eq_true_iff.mp inside
      constructor
      · intro receiver tied
        rw [tied] at untied
        cases untied
      · intro overload held
        exact soundOverload_of_closed (List.all_eq_true.mp closed _ held)

theorem sound_heap : heap.Sound where
  kernel _ bound := proper_heap bound
  objects handle object found := by
    rw [get?_heap] at found
    exact soundObject_of_closed
      (List.all_eq_true.mp closed_objects _ (List.mem_of_getElem? found))

end Kernel

theorem World.soundState_fresh (loader : Loader) (searchPaths : List String) :
    (World.fresh loader searchPaths).SoundState where
  heap := Kernel.sound_heap
  bindings number name value found := by
    have bound : (name, value) ∈ Kernel.bindings := by
      cases number with
      | zero => exact Table.mem_of_get?_ofList found
      | succ number => cases found
    have first : ∀ entry ∈ Kernel.bindings, entry.2.index < Handle.firstMethod := by decide
    exact Kernel.proper_heap (first _ bound)
  loaded entry inside := nomatch inside

/-- A new machine is sound if its loader never blames the interpreter. -/
theorem World.sound_fresh {loader : Loader} (searchPaths : List String)
    (loads : ∀ request name searchPaths error,
      loader.answer request name searchPaths = .refused error → error.isInternal = false) :
    (World.fresh loader searchPaths).Sound :=
  have state := World.soundState_fresh loader searchPaths
  ⟨state.heap, state.bindings, state.loaded, loads⟩

end RipInterpreter
