import RipInterpreter.Proofs.Machine.Alters
import RipInterpreter.Proofs.Machine.Moves

/-!
Properties that are computed when they are read. What resolvers do is left open: a machine may run
any, and a statement about all of them tells how often a read runs one. Of all that happens to such
a property only the reads that find it in its object matter, in the order in which they happen.
-/

namespace RipInterpreter

variable {owner receiver value : Handle} {key : String}

/-- What the resolvers do, each for the name of a property and the object it is read from. -/
def Resolving : Type := Resolver → String → Handle → Action Handle

namespace Action

/-- Like `finalize`, with resolvers that do as they are told. -/
def finalizeBy (run : Resolving) (receiver owner : Handle) (key : String) (property : Property) :
    Action Handle := do
  match property with
  | .plain value => tie value receiver
  | .dynamic resolver => run resolver key receiver
  | .delayed resolver =>
    let value ← run resolver key receiver
    set owner key value
    tie value receiver

/-- Like `get`, with resolvers that do as they are told. -/
def getBy (run : Resolving) (receiver : Handle) (key : String) : Action Handle := do
  match ← ask fun heap => heap.findProperty receiver key with
  | some (owner, property) => finalizeBy run receiver owner key property
  | none => fault (.unknownProperty key)

theorem getBy_runResolver : getBy runResolver = get := rfl

end Action

open RipInterpreter.Action

namespace Heap

variable {heap middle after : Heap} {property other : Property} {content : Payload}

theorem Stores.unique (stores : heap.Stores owner key property)
    (again : heap.Stores owner key other) : property = other := by
  obtain ⟨object, found, held⟩ := stores
  obtain ⟨same, present, stored⟩ := again
  cases found.symm.trans present
  exact Option.some.inj (held.symm.trans stored)

/-- The object exists with this payload, up to the name of a class. -/
def Carries (heap : Heap) (value : Handle) (content : Payload) : Prop :=
  ∃ object, heap.get? value = some object ∧ content.Becomes object.payload

theorem Grows.carries (grows : heap.Grows after) (carries : heap.Carries value content) :
    after.Carries value content := by
  obtain ⟨object, found, becomes⟩ := carries
  obtain ⟨later, kept, again⟩ := grows value object found
  exact ⟨later, kept, becomes.trans again⟩

theorem Holds.carries (held : heap.Holds value) : ∃ content, heap.Carries value content := by
  obtain ⟨object, found⟩ := held
  exact ⟨object.payload, object, found, .same _⟩

theorem holds_of_findProperty {found : Option (Handle × Property)}
    (answered : heap.findProperty receiver key = .ok found) : heap.Holds receiver := by
  unfold findProperty at answered
  cases known : heap.read receiver with
  | ok object => exact ⟨object, get?_of_read known⟩
  | error fault =>
      rw [known] at answered
      cases answered

end Heap

/-- From one state to another no object is lost, and one of them still stores what it did under a
name. -/
structure World.Leaves (owner : Handle) (key : String) (world after : World) : Prop where
  grows : world.heap.Grows after.heap
  stores : ∀ property, world.heap.Stores owner key property → after.heap.Stores owner key property

namespace World.Leaves

variable {world after : World} {allows : Deed → Prop}

theorem refl (world : World) : world.Leaves owner key world := ⟨.refl _, fun _ => id⟩

/-- Neither assigned nor replaced by what it computes to, a property stays. -/
theorem of_alters (alters : world.Alters allows after) (unassigned : ¬ allows (.assign owner key))
    (uncached : ¬ allows (.cache owner key)) : world.Leaves owner key after where
  grows := alters.grows
  stores _ stored := alters.stores stored unassigned fun _ _ => uncached

end World.Leaves

/-- A read of a property: through which object, and in which state. -/
structure PropertyRead where
  receiver : Handle
  before : World

/-- What a resolver has to do with the property that it computes for the read: however its run ends,
the property is as it was, and its value exists. -/
structure PropertyRead.Apart (reading : PropertyRead) (run : Resolving) (resolver : Resolver)
    (owner : Handle) (key : String) : Prop where
  leaves : ∀ after, (run resolver key reading.receiver reading.before).world? = some after →
    reading.before.Leaves owner key after
  holds : ∀ result after, run resolver key reading.receiver reading.before = .value result after →
    after.heap.Holds result

/-- The same of all reads that find the property not computed yet, on a machine that has come out of
the given one. -/
def Resolving.Apart (run : Resolving) (resolver : Resolver) (owner : Handle) (key : String)
    (start : Heap) (readings : List PropertyRead) : Prop :=
  ∀ reading ∈ readings, start.Grows reading.before.heap → reading.before.heap.Holds reading.receiver →
    reading.before.heap.Stores owner key (.delayed resolver) →
    reading.Apart run resolver owner key

/-- What happens around a property of an object: reads that find it there, which are listed, and
whatever else leaves it as it is. -/
inductive Course (run : Resolving) (owner : Handle) (key : String) :
    World → List PropertyRead → World → Prop
  | done (world : World) : Course run owner key world [] world
  | read {world middle after : World} {receiver : Handle} {property : Property}
    {readings : List PropertyRead}
    (found : world.heap.findProperty receiver key = .ok (some (owner, property)))
    (left : (getBy run receiver key world).world? = some middle)
    (rest : Course run owner key middle readings after) :
    Course run owner key world (⟨receiver, world⟩ :: readings) after
  | other {world middle after : World} {readings : List PropertyRead}
    (leaves : world.Leaves owner key middle)
    (rest : Course run owner key middle readings after) :
    Course run owner key world readings after

/-- A read of a stored value ends with the value itself or, if that is a lambda, with a copy that
has the same closure and the same overloads and is tied to the receiver. -/
def Payload.tied (content : Payload) (value receiver : Handle) (world : World) : Outcome Handle :=
  match content with
  | .lambda callable =>
    .value world.heap.next { world with
      heap := (world.heap.add (.instanceOf KernelClass.lambda.handle
        (.lambda ⟨callable.closure, callable.overloads, some receiver⟩))).2 }
  | _ => .value value world

namespace PropertyRead

variable (run : Resolving) (owner : Handle) (key : String) (resolver : Resolver)
  (reading : PropertyRead)

/-- The read runs the resolver once, and then stores its value: so it would whatever resolvers
did. -/
def Computes : Prop := ∀ run : Resolving,
  getBy run reading.receiver key reading.before = (do
    let value ← run resolver key reading.receiver
    set owner key value
    tie value reading.receiver : Action Handle) reading.before

/-- The resolver fails, which ends the read and leaves the property as it was. -/
structure Fails : Prop where
  computes : reading.Computes owner key resolver
  failed : ∀ value after, run resolver key reading.receiver reading.before ≠ .value value after
  outcome : getBy run reading.receiver key reading.before =
    run resolver key reading.receiver reading.before
  delayed : ∀ after, (getBy run reading.receiver key reading.before).world? = some after →
    after.heap.Stores owner key (.delayed resolver)

/-- The resolver ends with a value, which is stored in the owner and tied to the receiver. -/
structure Succeeds (value : Handle) (content : Payload) : Prop where
  computes : reading.Computes owner key resolver
  outcome : ∃ middle, run resolver key reading.receiver reading.before = .value value middle ∧
    middle.heap.Carries value content ∧
    getBy run reading.receiver key reading.before = content.tied value reading.receiver
      { middle with heap := middle.heap.modify owner (Object.insert key value) }

/-- The read gives the value that is stored, and runs no resolver: so it would whatever resolvers
did. -/
structure Repeats (value : Handle) (content : Payload) : Prop where
  stored : reading.before.heap.Stores owner key (.plain value)
  outcome : ∀ run : Resolving, getBy run reading.receiver key reading.before =
    content.tied value reading.receiver reading.before

/-- The read runs the resolver once, and its end is that of the read: so it would be whatever
resolvers did. -/
structure RunsOnce : Prop where
  stored : reading.before.heap.Stores owner key (.dynamic resolver)
  outcome : ∀ run : Resolving, getBy run reading.receiver key reading.before =
    run resolver key reading.receiver reading.before

end PropertyRead

/-- How the reads of a delayed property go, one after the other: the resolver fails until a first
read succeeds, and the reads after that one repeat its value. -/
inductive ResolvesOnce (run : Resolving) (owner : Handle) (key : String) (resolver : Resolver)
    (after : World) : List PropertyRead → Prop
  | pending (delayed : after.heap.Stores owner key (.delayed resolver)) :
    ResolvesOnce run owner key resolver after []
  | failed {reading : PropertyRead} {readings : List PropertyRead}
    (fails : reading.Fails run owner key resolver)
    (rest : ResolvesOnce run owner key resolver after readings) :
    ResolvesOnce run owner key resolver after (reading :: readings)
  | resolved {first : PropertyRead} {later : List PropertyRead} {value : Handle} {content : Payload}
    (succeeds : first.Succeeds run owner key resolver value content)
    (repeats : ∀ reading ∈ later, reading.Repeats owner key value content)
    (stored : after.heap.Stores owner key (.plain value)) :
    ResolvesOnce run owner key resolver after (first :: later)

/-- What the resolvers do that a machine comes with, they do to new objects. -/
theorem leaves_runResolver (resolver : Resolver) (name : String) (receiver : Handle) :
    (runResolver resolver name receiver).Relates (World.Leaves owner key) := by
  have alters : (runResolver resolver name receiver).Alters fun _ => False :=
    alters_runResolver resolver name receiver
  exact alters.mono fun world after changes => .of_alters changes id id

theorem holds_runResolver {resolver : Resolver} {before after : World}
    (kernel : ∀ kernelClass : KernelClass, before.heap.Holds kernelClass.handle)
    (mentioned : ∀ value ∈ (Property.delayed resolver).mentions, before.heap.Holds value)
    (held : before.heap.Holds receiver)
    (ended : runResolver resolver key receiver before = .value value after) :
    after.heap.Holds value := by
  have made {kernelClass : KernelClass} {payload : Payload} {world : World}
      (ended : newInstance kernelClass payload world = .value value after) :
      after.heap.Holds value := by
    cases ended
    exact Heap.holds_next _ _
  cases resolver with
  | kernelClass kernelClass =>
      cases ended
      exact kernel kernelClass
  | host resolver =>
      obtain ⟨_, counted, run, ended⟩ := value_of_bind ended
      cases run
      cases resolver with
      | constant answer =>
          cases ended
          exact mentioned value List.mem_cons_self
      | receiver =>
          cases ended
          exact held
      | key => exact made ended
      | fail => cases ended
      | counter => exact made ended
  | stringCharacters =>
      obtain ⟨text, first, -, ended⟩ := value_of_bind ended
      obtain ⟨characters, second, -, ended⟩ := value_of_bind ended
      exact made ended
  | _ =>
      obtain ⟨asked, middle, -, ended⟩ := value_of_bind ended
      exact made ended

/-- The resolvers of a machine have nothing to do with the properties that they compute. -/
theorem apart_runResolver {resolver : Resolver} {start : Heap} (closed : start.Closed)
    (mentioned : ∀ value ∈ (Property.delayed resolver).mentions, start.Holds value)
    {reading : PropertyRead} (grown : start.Grows reading.before.heap)
    (held : reading.before.heap.Holds reading.receiver) :
    reading.Apart runResolver resolver owner key where
  leaves := leaves_runResolver resolver key reading.receiver reading.before
  holds _ _ ended :=
    holds_runResolver (fun kernelClass => grown.holds (closed.kernelClass kernelClass))
      (fun value inside => grown.holds (mentioned value inside)) held ended

theorem Payload.Becomes.tied {content later : Payload} (becomes : content.Becomes later) :
    later.tied = content.tied := by
  cases becomes <;> rfl

theorem tie_of_carries {world : World} {content : Payload}
    (carries : world.heap.Carries value content) (receiver : Handle) :
    tie value receiver world = content.tied value receiver world := by
  obtain ⟨object, found, becomes⟩ := carries
  have known : Action.payload value world = .value object.payload world := by
    have read : ask (fun heap => heap.read value) world = .value object world := by
      simp only [ask, Heap.read, found]
    exact bind_of_value read _
  rw [← becomes.tied]
  refine (bind_of_value known _).trans ?_
  cases object.payload <;> rfl

theorem leaves_of_tied {content : Payload} {world after : World}
    (left : (content.tied value receiver world).world? = some after) :
    world.Leaves owner key after := by
  unfold Payload.tied at left
  split at left <;> cases left
  · exact ⟨Heap.grows_add _ _, fun property stored => by
      obtain ⟨object, found, held⟩ := stored
      exact ⟨object, by rw [Heap.get?_add, if_neg (Heap.next_ne found), found], held⟩⟩
  · exact .refl world

theorem getBy_of_found {world : World} {property : Property}
    (found : world.heap.findProperty receiver key = .ok (some (owner, property)))
    (run : Resolving) : getBy run receiver key world =
      finalizeBy run receiver owner key property world := by
  have asked : ask (fun heap => heap.findProperty receiver key) world =
      .value (some (owner, property)) world := by
    simp only [ask, found]
  exact bind_of_value asked _

namespace Course

variable {run : Resolving} {resolver : Resolver} {world middle after : World}
  {readings more : List PropertyRead}

theorem append (first : Course run owner key world readings middle)
    (second : Course run owner key middle more after) :
    Course run owner key world (readings ++ more) after := by
  induction first with
  | done world => exact second
  | read found left rest ih => exact .read found left (ih second)
  | other leaves rest ih => exact .other leaves (ih second)

/-- Once a value is stored, every read repeats it. -/
theorem repeats {content : Payload} (course : Course run owner key world readings after)
    (stored : world.heap.Stores owner key (.plain value))
    (carries : world.heap.Carries value content) :
    (∀ reading ∈ readings, reading.Repeats owner key value content) ∧
      after.heap.Stores owner key (.plain value) := by
  induction course with
  | done world => exact ⟨nofun, stored⟩
  | @read world middle after receiver property readings found left rest ih =>
      cases (Heap.stores_of_findProperty found).unique stored
      have outcome (run : Resolving) :
          getBy run receiver key world = content.tied value receiver world :=
        (getBy_of_found found run).trans (tie_of_carries carries receiver)
      rw [outcome run] at left
      have leaves : world.Leaves owner key middle := leaves_of_tied left
      obtain ⟨others, last⟩ := ih (leaves.stores _ stored) (leaves.grows.carries carries)
      exact ⟨List.forall_mem_cons.mpr ⟨⟨stored, outcome⟩, others⟩, last⟩
  | other leaves rest ih => exact ih (leaves.stores _ stored) (leaves.grows.carries carries)

/-- By induction on what happens: as long as the resolver fails the property is still delayed. -/
theorem resolvesOnce {start : Heap} (course : Course run owner key world readings after)
    (apart : run.Apart resolver owner key start readings) (grown : start.Grows world.heap)
    (stored : world.heap.Stores owner key (.delayed resolver)) :
    ResolvesOnce run owner key resolver after readings := by
  induction course with
  | done world => exact .pending stored
  | @read world middle after receiver property readings found left rest ih =>
      cases (Heap.stores_of_findProperty found).unique stored
      have computes : PropertyRead.Computes owner key resolver ⟨receiver, world⟩ := getBy_of_found found
      have here : PropertyRead.Apart ⟨receiver, world⟩ run resolver owner key :=
        apart _ List.mem_cons_self grown (Heap.holds_of_findProperty found) stored
      have there : run.Apart resolver owner key start readings := fun reading listed =>
        apart reading (List.mem_cons_of_mem _ listed)
      -- A run that ends without a value ends the read.
      have failing (failed : ∀ value after, run resolver key receiver world ≠ .value value after)
          (outcome : getBy run receiver key world = run resolver key receiver world) :
          ResolvesOnce run owner key resolver after (⟨receiver, world⟩ :: readings) := by
        have leaves (after : World) (left : (getBy run receiver key world).world? = some after) :
            world.Leaves owner key after := by
          rw [outcome] at left
          exact here.leaves after left
        have fails : PropertyRead.Fails run owner key resolver ⟨receiver, world⟩ :=
          ⟨computes, failed, outcome, fun after left => (leaves after left).stores _ stored⟩
        exact .failed fails (ih there (grown.trans (leaves middle left).grows)
          ((leaves middle left).stores _ stored))
      cases ended : run resolver key receiver world with
      | value value between =>
          have leaves := here.leaves between (by rw [ended]; rfl)
          obtain ⟨owned, present, held⟩ := leaves.stores _ stored
          obtain ⟨content, carries⟩ := (here.holds value between ended).carries
          have grows : between.heap.Grows (between.heap.modify owner (Object.insert key value)) :=
            Heap.grows_modify fun object _ => Heap.becomes_insert key value object
          have outcome : getBy run receiver key world = content.tied value receiver
              { between with heap := between.heap.modify owner (Object.insert key value) } := by
            rw [computes run, bind_of_value ended, bind_of_value (set_apply key value present)]
            exact tie_of_carries (grows.carries carries) receiver
          rw [outcome] at left
          have later : World.Leaves owner key _ middle := leaves_of_tied left
          obtain ⟨repeats, last⟩ := rest.repeats
            (later.stores _ (Heap.stores_inserted ⟨owned, present⟩ key value))
            (later.grows.carries (grows.carries carries))
          exact .resolved ⟨computes, between, ended, carries, outcome⟩ repeats last
      | halted reason =>
          rw [computes run, bind_apply, ended] at left
          cases left
      | _ =>
          refine failing (fun _ _ same => nomatch ended.symm.trans same) ?_
          rw [computes run, bind_apply, ended]
  | other leaves rest ih => exact ih apart (grown.trans leaves.grows) (leaves.stores _ stored)

/-- A dynamic property is computed anew by every read. -/
theorem runsEachTime (course : Course run owner key world readings after)
    (leaves : ∀ reading ∈ readings, ∀ later,
      (run resolver key reading.receiver reading.before).world? = some later →
      reading.before.Leaves owner key later)
    (stored : world.heap.Stores owner key (.dynamic resolver)) :
    (∀ reading ∈ readings, reading.RunsOnce owner key resolver) ∧
      after.heap.Stores owner key (.dynamic resolver) := by
  induction course with
  | done world => exact ⟨nofun, stored⟩
  | @read world middle after receiver property readings found left rest ih =>
      cases (Heap.stores_of_findProperty found).unique stored
      have outcome : ∀ run : Resolving,
          getBy run receiver key world = run resolver key receiver world := getBy_of_found found
      rw [outcome run] at left
      have kept : world.Leaves owner key middle := leaves _ List.mem_cons_self middle left
      obtain ⟨others, last⟩ := ih (fun reading listed => leaves reading (List.mem_cons_of_mem _ listed))
        (kept.stores _ stored)
      exact ⟨List.forall_mem_cons.mpr ⟨⟨stored, outcome⟩, others⟩, last⟩
  | other kept rest ih => exact ih leaves (kept.stores _ stored)

end Course

end RipInterpreter
