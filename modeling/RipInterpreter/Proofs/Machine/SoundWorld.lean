import Mathlib.Logic.Relation
import RipInterpreter.Machine.Construction
import RipInterpreter.Machine.Kernel
import RipInterpreter.Proofs.Frames
import RipInterpreter.Proofs.Machine.Questions

/-!
The single steps that a run of programs takes on the state of a machine. `World.Sound` holds of a new
machine, and each of the steps keeps it.
-/

namespace RipInterpreter

/-- Payloads of values that a program can make any number of. -/
def Payload.IsValue : Payload → Prop
  | .plain | .nil | .boolean _ | .lambda _ | .classObject .. => False
  | _ => True

/-- The class gets a name if it has none. -/
def Object.named (name : String) (object : Object) : Object :=
  match object.payload with
  | .classObject none ancestors => { object with payload := .classObject (some name) ancestors }
  | _ => object

namespace Heap

variable {heap : Heap} {object : Object}

/-- The objects that are ever added. -/
inductive Makes (heap : Heap) : Object → Prop
  | value (kernelClass : KernelClass) {payload : Payload} (literal : payload.IsValue)
    (contents : ∀ item ∈ payload.contents, heap.Proper item) :
    Makes heap (.instanceOf kernelClass.handle payload)
  | lambda {callable : Callable} (ready : callable.Ready) (sound : heap.SoundCallable callable) :
    Makes heap (.instanceOf KernelClass.lambda.handle (.lambda callable))
  | object {parent : Handle} (proper : heap.Proper parent) : Makes heap (.instanceOf parent .plain)
  | prototype : Makes heap ⟨.empty, .plain⟩
  | classObject (name : Option String) {prototype : Handle} {parents ancestors : List Handle}
    (proper : heap.Proper prototype) (given : ∀ parent ∈ parents, heap.Proper parent)
    (lineage : heap.lineage heap.next parents = .ok (some ancestors)) :
    Makes heap ⟨Table.ofList [("@", .plain prototype),
      ("class", .plain KernelClass.classClass.handle)], .classObject name ancestors⟩

theorem property_instanceOf {parent : Handle} {payload : Payload} {key : String}
    {property : Property}
    (found : (Object.instanceOf parent payload).properties.get? key = some property) :
    property = .plain parent := by
  cases List.mem_singleton.mp (Table.mem_of_get?_ofList found)
  rfl

theorem Makes.ready (makes : heap.Makes object) : object.payload.Ready := by
  cases makes with
  | @value kernelClass payload literal contents => cases payload <;> trivial
  | lambda ready sound => exact ready
  | _ => trivial

theorem Makes.stored (makes : heap.Makes object) (sound : heap.Sound) {key : String}
    {property : Property} (found : object.properties.get? key = some property) :
    ∃ value, property = .plain value ∧ heap.Proper value := by
  cases makes with
  | value kernelClass literal contents =>
      exact ⟨_, property_instanceOf found, sound.kernelClass kernelClass⟩
  | lambda ready callable => exact ⟨_, property_instanceOf found, sound.kernelClass .lambda⟩
  | object parent => exact ⟨_, property_instanceOf found, parent⟩
  | prototype => cases found
  | classObject name prototype given lineage =>
      rcases List.mem_cons.mp (Table.mem_of_get?_ofList found) with same | inside
      · cases same
        exact ⟨_, rfl, prototype⟩
      · cases List.mem_singleton.mp inside
        exact ⟨_, rfl, sound.kernelClass .classClass⟩

theorem Makes.contents (makes : heap.Makes object) {item : Handle}
    (inside : item ∈ object.payload.contents) : heap.Proper item := by
  cases makes with
  | value kernelClass literal contents => exact contents item inside
  | _ => cases inside

theorem Makes.ancestors (makes : heap.Makes object) (sound : heap.Sound) {ancestor : Handle}
    (inside : ancestor ∈ object.payload.ancestors) : ancestor = heap.next ∨ heap.Proper ancestor := by
  cases makes with
  | @value kernelClass payload literal contents =>
      cases payload <;> first | exact literal.elim | cases inside
  | classObject name prototype given lineage =>
      obtain ⟨answer, answered, known⟩ := answers_lineage sound
        fun parent inside => (given parent inside).holds
      cases lineage.symm.trans answered
      exact (known _ rfl ancestor inside).imp_right fun inherits => inherits.proper sound
  | _ => cases inside

theorem Makes.callable (makes : heap.Makes object) {callable : Callable}
    (shape : object.payload = .lambda callable) : heap.SoundCallable callable := by
  cases makes with
  | value kernelClass literal contents =>
      subst shape
      exact literal.elim
  | lambda ready sound =>
      cases shape
      exact sound
  | _ => cases shape

theorem Makes.proper (makes : heap.Makes object) : (heap.add object).2.Proper heap.next :=
  ⟨object, by rw [get?_add, if_pos rfl], makes.ready⟩

theorem Sound.makes (sound : heap.Sound) (makes : heap.Makes object) :
    (heap.add object).2.Sound := by
  have grows := grows_add heap object
  refine sound.add ?_
  constructor
  case stored =>
      intro key value found
      obtain ⟨_, same, proper⟩ := makes.stored sound found
      cases same
      exact grows.holds proper.holds
  case computed =>
      intro key property found
      obtain ⟨_, same, _⟩ := makes.stored sound found
      cases same
      trivial
  case contents =>
      intro item inside
      have proper := makes.contents inside
      exact ⟨grows.proper proper, holds_iff.mp proper.holds⟩
  case ancestors =>
      intro ancestor inside
      rcases makes.ancestors sound inside with rfl | proper
      · exact makes.proper
      · exact grows.proper proper
  case callable =>
      intro callable shape
      exact grows.soundCallable (makes.callable shape)

theorem becomes_named (name : String) (object : Object) :
    object.payload.Becomes (object.named name).payload := by
  unfold Object.named
  split
  · rename_i ancestors shape
    rw [shape]
    exact .named name ancestors
  · exact .same _

theorem SoundObject.named {handle : Handle} (sound : heap.SoundObject handle object)
    (name : String) : heap.SoundObject handle (object.named name) := by
  unfold Object.named
  split
  · rename_i ancestors shape
    refine { sound with contents := ?_, ancestors := ?_, callable := ?_ }
    · exact fun _ inside => nomatch inside
    · have inherited := sound.ancestors
      rwa [shape] at inherited
    · exact fun _ shape => nomatch shape
  · exact sound

theorem SoundObject.insert {handle value : Handle} (sound : heap.SoundObject handle object)
    (key : String) (held : heap.Holds value) :
    heap.SoundObject handle
      { object with properties := object.properties.insert key (.plain value) } := by
  refine { sound with stored := ?_, computed := ?_ }
  · intro other stored found
    rw [Table.get?_insert] at found
    split at found
    · cases found
      exact held
    · exact sound.stored other stored found
  · intro other property found
    rw [Table.get?_insert] at found
    split at found
    · cases found
      trivial
    · exact sound.computed other property found

end Heap

namespace World

variable {world after : World}

/-- What a run does to the state, one thing at a time. -/
inductive Step : World → World → Prop
  | make {world : World} {object : Object} (makes : world.heap.Makes object) :
    Step world { world with heap := (world.heap.add object).2 }
  | store {world : World} (owner : Handle) (key : String) {value : Handle}
    (proper : world.heap.Proper value) :
    Step world { world with heap := world.heap.modify owner fun found =>
      { found with properties := found.properties.insert key (.plain value) } }
  | name {world : World} (owner : Handle) (name : String) :
    Step world { world with heap := world.heap.modify owner (Object.named name) }
  | enter {world : World} (outer : List Nat) (origin : Option String) :
    Step world { world with frames := (world.frames.enter outer origin).2 }
  | bind {world : World} {scope : Scope} {name : String} {value : Handle} {frames : Frames Handle}
    (proper : world.heap.Proper value)
    (bound : world.frames.bind scope name value = .ok frames) :
    Step world { world with frames := frames }
  | request {world : World} : Step world { world with requests := world.requests + 1 }
  | begin {world : World} (key : List String) :
    Step world { world with loading := key :: world.loading }
  | finish {world : World} (key : List String) :
    Step world { world with loading := world.loading.filter (· != key) }
  | load {world : World} (key : List String) {value : Handle} (proper : world.heap.Proper value) :
    Step world { world with loaded := (key, value) :: world.loaded }

/-- Any number of steps. -/
def Leads : World → World → Prop := Relation.ReflTransGen Step

/-- Every handle that a program can get hold of belongs to an object. -/
structure SoundState (world : World) : Prop where
  heap : world.heap.Sound
  bindings : ∀ number name value, (world.frames.bindingsOf number).get? name = some value →
    world.heap.Proper value
  loaded : ∀ entry ∈ world.loaded, world.heap.Proper entry.2

/-- Every handle that a program can get hold of belongs to an object, and the loader never blames
the interpreter. -/
structure Sound (world : World) : Prop where
  heap : world.heap.Sound
  bindings : ∀ number name value, (world.frames.bindingsOf number).get? name = some value →
    world.heap.Proper value
  loaded : ∀ entry ∈ world.loaded, world.heap.Proper entry.2
  loader : ∀ request name searchPaths error,
    world.loader.answer request name searchPaths = .refused error → error.isInternal = false

theorem Step.grows (step : Step world after) : world.heap.Grows after.heap := by
  cases step with
  | make makes => exact Heap.grows_add _ _
  | store owner key proper => exact Heap.grows_modify fun _ _ => .same _
  | name owner name => exact Heap.grows_modify fun object _ => Heap.becomes_named name object
  | _ => exact .refl _

theorem Step.loader (step : Step world after) : after.loader = world.loader := by
  cases step <;> rfl

theorem Step.soundHeap (step : Step world after) (sound : world.heap.Sound) :
    after.heap.Sound := by
  cases step with
  | make makes => exact sound.makes makes
  | store owner key proper =>
      exact sound.modify (fun _ _ => .same _) fun _ _ fits => fits.insert key proper.holds
  | name owner name =>
      exact sound.modify (fun object _ => Heap.becomes_named name object)
        fun _ _ fits => fits.named name
  | _ => exact sound

theorem Step.binding (step : Step world after) {number : Nat} {name : String} {value : Handle}
    (found : (after.frames.bindingsOf number).get? name = some value) :
    (world.frames.bindingsOf number).get? name = some value ∨ world.heap.Proper value := by
  cases step with
  | enter outer origin =>
      rw [Frames.bindingsOf_enter] at found
      exact .inl found
  | bind proper bound =>
      rcases Frames.bound_or_held bound found with rfl | held
      · exact .inr proper
      · exact .inl held
  | _ => exact .inl found

theorem Step.module (step : Step world after) {entry : List String × Handle}
    (inside : entry ∈ after.loaded) : entry ∈ world.loaded ∨ world.heap.Proper entry.2 := by
  cases step with
  | load key proper =>
      rcases List.mem_cons.mp inside with rfl | earlier
      · exact .inr proper
      · exact .inl earlier
  | _ => exact .inl inside

theorem Step.soundState (step : Step world after) (sound : world.SoundState) :
    after.SoundState where
  heap := step.soundHeap sound.heap
  bindings number name value found := by
    rcases step.binding found with held | proper
    · exact step.grows.proper (sound.bindings number name value held)
    · exact step.grows.proper proper
  loaded entry inside := by
    rcases step.module inside with earlier | proper
    · exact step.grows.proper (sound.loaded entry earlier)
    · exact step.grows.proper proper

theorem Sound.state (sound : world.Sound) : world.SoundState :=
  ⟨sound.heap, sound.bindings, sound.loaded⟩

instance {world : World} : Coe world.Sound world.SoundState := ⟨Sound.state⟩

theorem Leads.refl (world : World) : world.Leads world := Relation.ReflTransGen.refl

theorem Leads.trans {middle : World} (first : world.Leads middle) (second : middle.Leads after) :
    world.Leads after := Relation.ReflTransGen.trans first second

theorem Step.leads (step : Step world after) : world.Leads after := .single step

theorem Leads.grows (leads : world.Leads after) : world.heap.Grows after.heap := by
  induction leads with
  | refl => exact .refl _
  | tail _ step ih => exact ih.trans step.grows

theorem Leads.loader (leads : world.Leads after) : after.loader = world.loader := by
  induction leads with
  | refl => rfl
  | tail _ step ih => exact step.loader.trans ih

/-- By induction on the number of steps. -/
theorem Leads.soundState (leads : world.Leads after) (sound : world.SoundState) :
    after.SoundState := by
  induction leads with
  | refl => exact sound
  | tail _ step ih => exact step.soundState ih

theorem Leads.sound (leads : world.Leads after) (sound : world.Sound) : after.Sound :=
  have state := leads.soundState sound.state
  ⟨state.heap, state.bindings, state.loaded, by
    rw [leads.loader]
    exact sound.loader⟩

theorem Leads.proper (leads : world.Leads after) {handle : Handle}
    (proper : world.heap.Proper handle) : after.heap.Proper handle := leads.grows.proper proper

end World

end RipInterpreter
