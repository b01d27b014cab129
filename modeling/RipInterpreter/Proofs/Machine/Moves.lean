import RipInterpreter.Proofs.Machine.SoundWorld

/-!
The single changes that a program, or the program it is embedded in, brings about in the state of a
machine. `World.Tidy` holds of a new machine and is kept by each of them: whatever is mentioned
anywhere exists, content is older than what holds it, and no module is in progress twice, or once it
is loaded.
-/

namespace RipInterpreter

namespace Heap

variable {heap : Heap} {handle : Handle} {object : Object}

/-- The object may be added: what it mentions exists, or is the class itself among its ancestors. -/
structure Admits (heap : Heap) (object : Object) : Prop where
  properties : ∀ key property, object.properties.get? key = some property →
    ∀ value ∈ property.mentions, heap.Holds value
  payload : ∀ value ∈ object.payload.mentions,
    heap.Holds value ∨ value = heap.next ∧ object.payload.contents = []

/-- An instance of a class that exists may have any content that exists. -/
theorem admits_instance {parent : Handle} {payload : Payload} (held : heap.Holds parent)
    (known : ∀ value ∈ payload.mentions, heap.Holds value) :
    heap.Admits (.instanceOf parent payload) where
  properties key property found value inside := by
    cases property_instanceOf found
    exact List.mem_singleton.mp inside ▸ held
  payload value inside := .inl (known value inside)

theorem holds_next (heap : Heap) (object : Object) : (heap.add object).2.Holds heap.next :=
  ⟨object, by rw [get?_add, if_pos rfl]⟩

theorem Closed.admits (closed : heap.Closed) (admits : heap.Admits object) :
    (heap.add object).2.Closed := by
  have grows := grows_add heap object
  refine closed.add ⟨?_, ?_, ?_⟩
  · intro key property found value inside
    exact grows.holds (admits.properties key property found value inside)
  · intro value inside
    rcases admits.payload value inside with held | ⟨rfl, -⟩
    · exact grows.holds held
    · exact holds_next heap object
  · intro item inside
    rcases admits.payload item (Payload.mentions_of_contents inside) with held | ⟨-, empty⟩
    · exact holds_iff.mp held
    · rw [empty] at inside
      cases inside

theorem ClosedObject.named (closed : heap.ClosedObject handle object) (name : String) :
    heap.ClosedObject handle (object.named name) := by
  have becomes := becomes_named name object
  refine ⟨?_, ?_, ?_⟩
  · have same : (object.named name).properties = object.properties := by
      unfold Object.named
      split <;> rfl
    rw [same]
    exact closed.properties
  · rw [becomes.mentions]
    exact closed.payload
  · rw [becomes.contents]
    exact closed.older

theorem ClosedObject.insert {property : Property} (closed : heap.ClosedObject handle object)
    (key : String) (known : ∀ value ∈ property.mentions, heap.Holds value) :
    heap.ClosedObject handle
      { object with properties := object.properties.insert key property } where
  properties other stored found value inside := by
    rw [Table.get?_insert] at found
    split at found
    · cases found
      exact known value inside
    · exact closed.properties other stored found value inside
  payload := closed.payload
  older := closed.older

end Heap

namespace World

variable {world middle after : World}

/-- The module is in progress or was loaded. -/
def Settled (world : World) (key : List String) : Prop :=
  key ∈ world.loading ∨ (world.loaded.lookup key).isSome

/-- One change of the state. Only modules that are neither in progress nor loaded begin, and only
those are kept as loaded. -/
inductive Move : World → World → Prop
  | make {world : World} {object : Object} (admits : world.heap.Admits object) :
    Move world { world with heap := (world.heap.add object).2 }
  | store {world : World} (owner : Handle) (key : String) {property : Property}
    (known : ∀ value ∈ property.mentions, world.heap.Holds value) :
    Move world { world with heap := world.heap.modify owner fun found =>
      { found with properties := found.properties.insert key property } }
  | name {world : World} (owner : Handle) (name : String) :
    Move world { world with heap := world.heap.modify owner (Object.named name) }
  | enter {world : World} (outer : List Nat) (origin : Option String) :
    Move world { world with frames := (world.frames.enter outer origin).2 }
  | bind {world : World} {scope : Scope} {name : String} {value : Handle} {frames : Frames Handle}
    (held : world.heap.Holds value)
    (bound : world.frames.bind scope name value = .ok frames) :
    Move world { world with frames := frames }
  | request {world : World} : Move world { world with requests := world.requests + 1 }
  | resolve {world : World} : Move world { world with resolverRuns := world.resolverRuns + 1 }
  | begin {world : World} {key : List String} (unsettled : ¬ world.Settled key) :
    Move world { world with loading := key :: world.loading }
  | finish {world : World} (key : List String) :
    Move world { world with loading := world.loading.filter (· != key) }
  | load {world : World} {key : List String} {value : Handle} (unsettled : ¬ world.Settled key)
    (held : world.heap.Holds value) : Move world { world with loaded := (key, value) :: world.loaded }

/-- Any number of changes. -/
def Reaches : World → World → Prop := Relation.ReflTransGen Move

/-- Any number of changes, after each of which some modules are in progress still. -/
def ReachesDuring (running : List (List String)) : World → World → Prop :=
  Relation.ReflTransGen fun world after => Move world after ∧ running <:+ after.loading

/-- What is mentioned anywhere exists, content is older than what holds it, and no module is in
progress twice, or once it is loaded. -/
structure Tidy (world : World) : Prop where
  heap : world.heap.Closed
  bindings : ∀ number name value, (world.frames.bindingsOf number).get? name = some value →
    world.heap.Holds value
  loaded : ∀ entry ∈ world.loaded, world.heap.Holds entry.2
  once : world.loading.Nodup
  apart : ∀ key ∈ world.loading, world.loaded.lookup key = none

theorem lookup_of_not_settled {key : List String} (unsettled : ¬ world.Settled key) :
    world.loaded.lookup key = none := by
  cases found : world.loaded.lookup key with
  | none => rfl
  | some value => exact absurd (.inr (by rw [found]; rfl)) unsettled

theorem Move.grows (move : Move world after) : world.heap.Grows after.heap := by
  cases move with
  | make admits => exact Heap.grows_add _ _
  | store owner key known => exact Heap.grows_modify fun _ _ => .same _
  | name owner name => exact Heap.grows_modify fun object _ => Heap.becomes_named name object
  | _ => exact .refl _

theorem Move.closed (move : Move world after) (closed : world.heap.Closed) : after.heap.Closed := by
  cases move with
  | make admits => exact closed.admits admits
  | store owner key known =>
      exact closed.modify (fun _ _ => .same _) fun _ _ fits => fits.insert key known
  | name owner name =>
      exact closed.modify (fun object _ => Heap.becomes_named name object)
        fun _ _ fits => fits.named name
  | _ => exact closed

theorem Move.binding (move : Move world after) {number : Nat} {name : String} {value : Handle}
    (found : (after.frames.bindingsOf number).get? name = some value) :
    (world.frames.bindingsOf number).get? name = some value ∨ world.heap.Holds value := by
  cases move with
  | enter outer origin =>
      rw [Frames.bindingsOf_enter] at found
      exact .inl found
  | bind held bound =>
      rcases Frames.bound_or_held bound found with rfl | earlier
      · exact .inr held
      · exact .inl earlier
  | _ => exact .inl found

theorem Move.module (move : Move world after) {entry : List String × Handle}
    (inside : entry ∈ after.loaded) : entry ∈ world.loaded ∨ world.heap.Holds entry.2 := by
  cases move with
  | load unsettled held =>
      rcases List.mem_cons.mp inside with rfl | earlier
      · exact .inr held
      · exact .inl earlier
  | _ => exact .inl inside

/-- What was loaded stays loaded, with the same value. -/
theorem Move.cached (move : Move world after) {key : List String} {value : Handle}
    (found : world.loaded.lookup key = some value) : after.loaded.lookup key = some value := by
  cases move with
  | @load other stored unsettled held =>
      have apart : (key == other) = false := by
        refine beq_eq_false_iff_ne.mpr fun same => ?_
        subst same
        rw [lookup_of_not_settled unsettled] at found
        cases found
      rw [List.lookup_cons, apart]
      exact found
  | _ => exact found

theorem Move.apart (move : Move world after)
    (apart : ∀ key ∈ world.loading, world.loaded.lookup key = none) :
    ∀ key ∈ after.loading, after.loaded.lookup key = none := by
  intro key inside
  cases move with
  | begin unsettled =>
      have absent := lookup_of_not_settled unsettled
      rcases List.mem_cons.mp inside with rfl | earlier
      · exact absent
      · exact apart key earlier
  | finish other => exact apart key (List.mem_filter.mp inside).1
  | @load other value unsettled held =>
      have apart₁ : (key == other) = false := by
        refine beq_eq_false_iff_ne.mpr fun same => ?_
        subst same
        exact unsettled (.inl inside)
      rw [List.lookup_cons, apart₁]
      exact apart key inside
  | _ => exact apart key inside

theorem Move.once (move : Move world after) (once : world.loading.Nodup) :
    after.loading.Nodup := by
  cases move with
  | begin unsettled => exact List.nodup_cons.mpr ⟨fun inside => unsettled (.inl inside), once⟩
  | finish key => exact once.filter _
  | _ => exact once

theorem Move.tidy (move : Move world after) (tidy : world.Tidy) : after.Tidy where
  heap := move.closed tidy.heap
  bindings number name value found := by
    rcases move.binding found with earlier | held
    · exact move.grows.holds (tidy.bindings number name value earlier)
    · exact move.grows.holds held
  loaded entry inside := by
    rcases move.module inside with earlier | held
    · exact move.grows.holds (tidy.loaded entry earlier)
    · exact move.grows.holds held
  once := move.once tidy.once
  apart := move.apart tidy.apart

theorem Reaches.refl (world : World) : world.Reaches world := Relation.ReflTransGen.refl

theorem Reaches.trans (first : world.Reaches middle) (second : middle.Reaches after) :
    world.Reaches after := Relation.ReflTransGen.trans first second

theorem Move.reaches (move : Move world after) : world.Reaches after := .single move

section

variable {running : List (List String)}

theorem ReachesDuring.trans (first : world.ReachesDuring running middle)
    (second : middle.ReachesDuring running after) : world.ReachesDuring running after :=
  Relation.ReflTransGen.trans first second

theorem Move.during (move : Move world after) (still : running <:+ after.loading) :
    world.ReachesDuring running after := .single ⟨move, still⟩

/-- Modules that were put in progress earlier are still in progress, too. -/
theorem ReachesDuring.earlier {base : List (List String)}
    (reaches : world.ReachesDuring running after) (part : base <:+ running) :
    world.ReachesDuring base after :=
  Relation.ReflTransGen.mono (fun _ _ step => ⟨step.1, part.trans step.2⟩) _ _ reaches

theorem ReachesDuring.reaches (reaches : world.ReachesDuring running after) :
    world.Reaches after := Relation.ReflTransGen.mono (fun _ _ step => step.1) _ _ reaches

theorem ReachesDuring.still (reaches : world.ReachesDuring running after)
    (started : running <:+ world.loading) : running <:+ after.loading := by
  cases reaches with
  | refl => exact started
  | tail _ last => exact last.2

end

/-- Only a module that is neither in progress nor loaded begins. -/
theorem Move.begins (move : Move world after) {key : List String} (now : key ∈ after.loading)
    (earlier : key ∉ world.loading) : ¬ world.Settled key := by
  cases move with
  | begin unsettled =>
      rcases List.mem_cons.mp now with rfl | inside
      · exact unsettled
      · exact absurd inside earlier
  | finish other => exact absurd (List.mem_filter.mp now).1 earlier
  | _ => exact absurd now earlier

theorem Reaches.grows (reaches : world.Reaches after) : world.heap.Grows after.heap := by
  induction reaches with
  | refl => exact .refl _
  | tail _ move ih => exact ih.trans move.grows

theorem Reaches.cached (reaches : world.Reaches after) {key : List String} {value : Handle}
    (found : world.loaded.lookup key = some value) : after.loaded.lookup key = some value := by
  induction reaches with
  | refl => exact found
  | tail _ move ih => exact move.cached ih

theorem Reaches.holds (reaches : world.Reaches after) {handle : Handle}
    (held : world.heap.Holds handle) : after.heap.Holds handle := reaches.grows.holds held

/-- By induction on the number of changes. -/
theorem Reaches.tidy (reaches : world.Reaches after) (tidy : world.Tidy) : after.Tidy := by
  induction reaches with
  | refl => exact tidy
  | tail _ move ih => exact move.tidy ih

end World

end RipInterpreter
