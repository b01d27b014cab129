import RipInterpreter.Machine.Lineage

namespace RipInterpreter

/-- The number of arguments that a method of the kernel reads. -/
def Method.arity : Method → Option Nat
  | .equality _ | .arithmetic _ | .comparison _ | .appendString | .appendPattern | .appendList
  | .listAt | .mapAt | .require => some 1
  | .host _ => none
  | _ => some 0

/-- The values inside a collection, a pair or a range. -/
def Payload.contents : Payload → List Handle
  | .list items => items
  | .map pairs => pairs
  | .keyValue key value => [key, value]
  | .range start last _ => [start, last]
  | _ => []

/-- The ancestors of a class, itself included. -/
def Payload.ancestors : Payload → List Handle
  | .classObject _ ancestors => ancestors
  | _ => []

/-- A lambda that belongs to no object has only bodies written in the language. -/
def Callable.Ready (callable : Callable) : Prop :=
  callable.receiver = none → ∀ overload ∈ callable.overloads, ∃ block, overload.body = .block block

/-- What is no lambda is ready, too. -/
def Payload.Ready : Payload → Prop
  | .lambda callable => callable.Ready
  | _ => True

/-- How a payload may change over time: a class without a name may get one. -/
inductive Payload.Becomes : Payload → Payload → Prop
  | same (payload : Payload) : Becomes payload payload
  | named (name : String) (ancestors : List Handle) :
    Becomes (.classObject none ancestors) (.classObject (some name) ancestors)

/-- No resolver of an embedding program computes the property. -/
def Property.OfKernel : Property → Prop
  | .dynamic (.host _) | .delayed (.host _) => False
  | _ => True

theorem Payload.Becomes.ready {payload later : Payload} (becomes : payload.Becomes later)
    (ready : payload.Ready) : later.Ready := by
  cases becomes with
  | same => exact ready
  | named name ancestors => trivial

theorem Payload.Becomes.trans {payload middle later : Payload} (first : payload.Becomes middle)
    (second : middle.Becomes later) : payload.Becomes later := by
  cases first with
  | same => exact second
  | named name ancestors =>
      cases second with
      | same => exact .named name ancestors

namespace Heap

variable {heap middle after : Heap} {handle : Handle} {object : Object}

/-- The handle belongs to an object. -/
def Holds (heap : Heap) (handle : Handle) : Prop := ∃ object, heap.get? handle = some object

/-- A value that a program may have: it exists, and if it is a lambda it is ready to be called. -/
def Proper (heap : Heap) (handle : Handle) : Prop :=
  ∃ object, heap.get? handle = some object ∧ object.payload.Ready

/-- Arguments are compared with values, and a method gets the arguments that it reads. -/
structure SoundOverload (heap : Heap) (overload : Overload) : Prop where
  matchers : ∀ value, .matcher value ∈ overload.parameters → heap.Proper value
  methods : ∀ method, overload.body = .method method →
    method.arity = some overload.parameters.length

structure SoundCallable (heap : Heap) (callable : Callable) : Prop where
  receiver : ∀ receiver, callable.receiver = some receiver → heap.Proper receiver
  overloads : ∀ overload ∈ callable.overloads, heap.SoundOverload overload

/-- Everything that an object refers to exists. Values inside a collection, a pair or a range are
older than it. -/
structure SoundObject (heap : Heap) (handle : Handle) (object : Object) : Prop where
  stored : ∀ key value, object.properties.get? key = some (.plain value) → heap.Holds value
  computed : ∀ key property, object.properties.get? key = some property → property.OfKernel
  contents : ∀ item ∈ object.payload.contents, heap.Proper item ∧ item.index < handle.index
  ancestors : ∀ ancestor ∈ object.payload.ancestors, heap.Proper ancestor
  callable : ∀ callable, object.payload = .lambda callable → heap.SoundCallable callable

/-- Every object is sound, and the classes and single values of the kernel are there. -/
structure Sound (heap : Heap) : Prop where
  kernel : ∀ index < Handle.firstMethod, heap.Proper ⟨index⟩
  objects : ∀ handle object, heap.get? handle = some object → heap.SoundObject handle object

/-- No object is lost, and its payload stays but for the name of a class. -/
def Grows (heap after : Heap) : Prop :=
  ∀ handle object, heap.get? handle = some object →
    ∃ later, after.get? handle = some later ∧ object.payload.Becomes later.payload

theorem Proper.holds (proper : heap.Proper handle) : heap.Holds handle := by
  obtain ⟨object, found, _⟩ := proper
  exact ⟨object, found⟩

theorem read_eq_ok (found : heap.get? handle = some object) : heap.read handle = .ok object := by
  rw [read, found]

theorem get?_of_read (read : heap.read handle = .ok object) : heap.get? handle = some object := by
  unfold Heap.read at read
  split at read
  · cases read
    assumption
  · cases read

theorem holds_iff : heap.Holds handle ↔ handle.index < heap.objects.size := by
  unfold Holds get?
  rw [← Option.isSome_iff_exists, isSome_getElem?]

theorem Sound.kernelClass (sound : heap.Sound) (kernelClass : KernelClass) :
    heap.Proper kernelClass.handle :=
  sound.kernel _ (by cases kernelClass <;> decide)

theorem Sound.nil (sound : heap.Sound) : heap.Proper .nil := sound.kernel _ (by decide)

theorem Sound.ofBool (sound : heap.Sound) (holds : Bool) : heap.Proper (.ofBool holds) := by
  cases holds <;> exact sound.kernel _ (by decide)

theorem Grows.refl (heap : Heap) : heap.Grows heap := fun _ object found => ⟨object, found, .same _⟩

theorem Grows.trans (first : heap.Grows middle) (second : middle.Grows after) :
    heap.Grows after := by
  intro handle object found
  obtain ⟨later, kept, becomes⟩ := first handle object found
  obtain ⟨last, held, again⟩ := second handle later kept
  exact ⟨last, held, becomes.trans again⟩

theorem Grows.holds (grows : heap.Grows after) (held : heap.Holds handle) :
    after.Holds handle := by
  obtain ⟨object, found⟩ := held
  obtain ⟨later, kept, _⟩ := grows handle object found
  exact ⟨later, kept⟩

theorem Grows.proper (grows : heap.Grows after) (proper : heap.Proper handle) :
    after.Proper handle := by
  obtain ⟨object, found, ready⟩ := proper
  obtain ⟨later, kept, becomes⟩ := grows handle object found
  exact ⟨later, kept, becomes.ready ready⟩

theorem Grows.soundOverload {overload : Overload} (grows : heap.Grows after)
    (sound : heap.SoundOverload overload) : after.SoundOverload overload where
  matchers value inside := grows.proper (sound.matchers value inside)
  methods := sound.methods

theorem Grows.soundCallable {callable : Callable} (grows : heap.Grows after)
    (sound : heap.SoundCallable callable) : after.SoundCallable callable where
  receiver receiver tied := grows.proper (sound.receiver receiver tied)
  overloads overload inside := grows.soundOverload (sound.overloads overload inside)

theorem Grows.soundObject (grows : heap.Grows after) (sound : heap.SoundObject handle object) :
    after.SoundObject handle object where
  stored key value found := grows.holds (sound.stored key value found)
  computed := sound.computed
  contents item inside :=
    (sound.contents item inside).imp_left grows.proper
  ancestors ancestor inside := grows.proper (sound.ancestors ancestor inside)
  callable callable found := grows.soundCallable (sound.callable callable found)

theorem get?_next (heap : Heap) : heap.get? heap.next = none := by
  simp [get?, next]

theorem next_ne (found : heap.get? handle = some object) : handle ≠ heap.next := by
  rintro rfl
  rw [get?_next] at found
  cases found

theorem grows_add (heap : Heap) (object : Object) : heap.Grows (heap.add object).2 := by
  intro handle stored found
  rw [get?_add, if_neg (next_ne found)]
  exact ⟨stored, found, .same _⟩

theorem grows_modify {change : Object → Object}
    (becomes : ∀ object, heap.get? handle = some object →
      object.payload.Becomes (change object).payload) :
    heap.Grows (heap.modify handle change) := by
  intro other stored found
  rw [get?_modify]
  split
  · rename_i same
    subst same
    rw [found]
    exact ⟨change stored, rfl, becomes stored found⟩
  · exact ⟨stored, found, .same _⟩

/-- A change of an object that keeps its payload brings no payloads with it. -/
theorem origin_modify {change : Object → Object} {other : Handle} {later : Object}
    (found : (heap.modify handle change).get? other = some later)
    (becomes : ∀ object : Object, object.payload.Becomes (change object).payload) :
    ∃ object, heap.get? other = some object ∧ object.payload.Becomes later.payload := by
  rw [get?_modify] at found
  split at found
  · obtain ⟨object, present, rfl⟩ := Option.map_eq_some_iff.mp found
    exact ⟨object, present, becomes object⟩
  · exact ⟨later, found, .same _⟩

/-- The new object has to be sound among all objects, itself included. -/
theorem Sound.add (sound : heap.Sound) (fits : (heap.add object).2.SoundObject heap.next object) :
    (heap.add object).2.Sound where
  kernel index bound := (grows_add heap object).proper (sound.kernel index bound)
  objects handle found stored := by
    rw [get?_add] at stored
    split at stored
    · rename_i same
      cases stored
      exact same ▸ fits
    · exact (grows_add heap object).soundObject (sound.objects handle found stored)

theorem Sound.modify {change : Object → Object} (sound : heap.Sound)
    (becomes : ∀ object, heap.get? handle = some object →
      object.payload.Becomes (change object).payload)
    (fits : ∀ object, heap.get? handle = some object → heap.SoundObject handle object →
      heap.SoundObject handle (change object)) :
    (heap.modify handle change).Sound where
  kernel index bound := (grows_modify becomes).proper (sound.kernel index bound)
  objects other found stored := by
    refine (grows_modify becomes).soundObject ?_
    rw [get?_modify] at stored
    split at stored
    · rename_i same
      subst same
      obtain ⟨earlier, present, rfl⟩ := Option.map_eq_some_iff.mp stored
      exact fits earlier present (sound.objects other earlier present)
    · exact sound.objects other found stored

end Heap

end RipInterpreter
