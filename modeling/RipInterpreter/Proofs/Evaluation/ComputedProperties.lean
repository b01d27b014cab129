import RipInterpreter.Proofs.Evaluation.Embedding
import RipInterpreter.Proofs.Evaluation.Sparing
import RipInterpreter.Proofs.Machine.ComputedProperties

namespace RipInterpreter

open Syntax

/-- Evaluates a node with another way to read properties, but does not go on where it would assign
a spared one. -/
def Action.stepReadingSparing (read : Handle → String → Action Handle)
    (spared : Handle → String → Bool) (evaluator : Evaluator) (scope : Scope) :
    Node → Action Handle
  | .assignment (.property object key _) value _ => do
    let owner ← evaluator scope object
    let value ← evaluator scope value
    if spared owner key then halt .tooDeep
    else
      set owner key value
      return value
  | node => stepReading read evaluator scope node

/-- Evaluates like `evaluateSparing`, but reads properties in another way. -/
def evaluateReading (read : Handle → String → Action Handle) (spared : Handle → String → Bool) :
    (depth : Nat) → Evaluator
  | 0, _, _ => Action.halt .tooDeep
  | depth + 1, scope, node => Action.locate node.location
    (Action.stepReadingSparing read spared (evaluateReading read spared depth) scope node)

theorem Action.stepReadingSparing_get (spared : Handle → String → Bool) (evaluator : Evaluator)
    (scope : Scope) (node : Node) :
    stepReadingSparing get spared evaluator scope node =
      stepSparing spared evaluator scope node := by
  unfold stepReadingSparing
  split
  · rfl
  · rename_i other
    rw [stepReading_get, stepSparing]
    exact other

theorem evaluateReading_get (spared : Handle → String → Bool) (depth : Nat) :
    evaluateReading Action.get spared depth = evaluateSparing spared depth := by
  induction depth with
  | zero => rfl
  | succ depth ih =>
      funext scope node
      rw [evaluateReading, evaluateSparing, ih, Action.stepReadingSparing_get]

/-- One property of one object. -/
def only (owner : Handle) (key : String) : Handle → String → Bool :=
  fun handle name => handle == owner && name == key

/-- Some reads of the property, and whatever else leaves it as it is, lead from one state to the
other. -/
def Passes (run : Resolving) (owner : Handle) (key : String) (world after : World) : Prop :=
  ∃ readings, Course run owner key world readings after

variable {run : Resolving} {owner : Handle} {key : String}

/-- Neither a write to the property nor a computed value that takes its place. -/
def Deed.SparesStored (owner : Handle) (key : String) (deed : Deed) : Prop :=
  deed ≠ .assign owner key ∧ deed ≠ .cache owner key

theorem covers_passes : World.Covers (Deed.SparesStored owner key) (Passes run owner key) where
  altered _ after alters :=
    ⟨[], .other (.of_alters alters (fun allowed => allowed.1 rfl) fun allowed => allowed.2 rfl)
      (.done after)⟩
  trans _ _ _ := fun ⟨_, first⟩ ⟨_, second⟩ => ⟨_, first.append second⟩

namespace Action

variable (resolvers : ∀ resolver name receiver,
  (run resolver name receiver).Relates (Passes run owner key))
include resolvers

/-- A read that finds another property leaves this one alone, up to what its resolver reads. -/
theorem passes_finalizeBy {receiver found : Handle} {name : String} {property : Property}
    (apart : ¬ (found = owner ∧ name = key)) :
    (finalizeBy run receiver found name property).Relates (Passes run owner key) := by
  have tied (value : Handle) : (tie value receiver).Relates (Passes run owner key) :=
    covers_passes.of (alters_tie value receiver)
  cases property with
  | plain value => exact tied value
  | dynamic resolver => exact resolvers resolver name receiver
  | delayed resolver =>
      have allowed : Deed.SparesStored owner key (.assign found name) :=
        ⟨fun same => apart (by cases same; exact ⟨rfl, rfl⟩), nofun⟩
      exact covers_passes.bind (resolvers resolver name receiver) fun value =>
        covers_passes.bind (covers_passes.of (alters_set name value allowed)) fun _ => tied value

theorem passes_getBy (receiver : Handle) (name : String) :
    (getBy run receiver name).Relates (Passes run owner key) := by
  intro world after left
  cases answered : world.heap.findProperty receiver name with
  | error fault =>
      rw [getBy, bind_apply, ask, answered] at left
      cases fault <;> cases left
      exact ⟨[], .done world⟩
  | ok place =>
      rcases place with - | ⟨found, property⟩
      · rw [getBy, bind_apply, ask, answered] at left
        cases left
        exact ⟨[], .done world⟩
      · by_cases same : found = owner ∧ name = key
        · obtain ⟨rfl, rfl⟩ := same
          exact ⟨_, .read answered left (.done after)⟩
        · rw [getBy_of_found answered] at left
          exact passes_finalizeBy resolvers same world after left

theorem passes_stepReadingSparing {evaluator : Evaluator}
    (nested : evaluator.Relates (Passes run owner key)) (scope : Scope) (node : Node) :
    (stepReadingSparing (getBy run) (only owner key) evaluator scope node).Relates
      (Passes run owner key) := by
  unfold stepReadingSparing
  split
  · rename_i object name inner value place
    refine covers_passes.bind (nested scope object) fun found =>
      covers_passes.bind (nested scope value) fun value => ?_
    split
    · exact .halt _
    · rename_i unspared
      have allowed : Deed.SparesStored owner key (.assign found name) :=
        ⟨fun same => unspared (by cases same; simp [only]), nofun⟩
      exact covers_passes.bind (covers_passes.of (alters_set name value allowed)) fun _ =>
        covers_passes.pure value
  · rename_i other
    exact relates_stepReading covers_passes nested (passes_getBy resolvers)
      (fun _ _ => ⟨nofun, nofun⟩) scope node
      fun object name inner value place shape => (other object name inner value place shape).elim

end Action

/-- By induction on the depth: what a step calls or nests runs one level deeper. -/
theorem passes_evaluateReading (resolvers : ∀ resolver name receiver,
      (run resolver name receiver).Relates (Passes run owner key)) (depth : Nat) :
    (evaluateReading (Action.getBy run) (only owner key) depth).Relates (Passes run owner key) := by
  induction depth with
  | zero => exact fun _ _ => .halt _
  | succ depth ih =>
      exact fun scope node => .locate (Action.passes_stepReadingSparing resolvers ih scope node) _

open RipInterpreter.Action

/-- Whatever resolvers do, reads of a delayed property run its resolver until one succeeds, the value
of which all later ones repeat, and each read of a dynamic property runs its resolver once, as long
as the resolver, where it is run, has nothing to do with the property and nothing else writes to it.
Programs that do not assign the property are made of such reads and of steps that leave it alone, if
that is true of the resolvers. The resolvers that a machine comes with are of that kind, in the midst
of runs, too. -/
theorem computed_properties_resolve (run : Resolving) (owner : Handle) (key : String) :
    (∀ world readings after, Course run owner key world readings after →
      (∀ resolver, run.Apart resolver owner key world.heap readings →
        world.heap.Stores owner key (.delayed resolver) →
        ResolvesOnce run owner key resolver after readings) ∧
      ∀ resolver, (∀ reading ∈ readings, ∀ later,
          (run resolver key reading.receiver reading.before).world? = some later →
          reading.before.Leaves owner key later) →
        world.heap.Stores owner key (.dynamic resolver) →
        (∀ reading ∈ readings, reading.RunsOnce owner key resolver) ∧
          after.heap.Stores owner key (.dynamic resolver)) ∧
    ((∀ resolver name receiver,
        (run resolver name receiver).Relates (Passes run owner key)) → ∀ depth,
      (evaluateReading (getBy run) (only owner key) depth).Relates (Passes run owner key) ∧
      ∀ module, (Session.interpretBy (evaluateReading (getBy run) (only owner key) depth)
        module).Relates (Passes run owner key)) ∧
    (∀ resolver name receiver,
      (runResolver resolver name receiver).Relates (World.Leaves owner key)) ∧
    (∀ loader searchPaths start world, Session.Embedded loader searchPaths start →
      start.Reaches world → ∀ resolver, world.heap.Stores owner key (.delayed resolver) →
      ∀ reading : PropertyRead, world.heap.Grows reading.before.heap →
        reading.before.heap.Holds reading.receiver →
        reading.Apart runResolver resolver owner key) ∧
    ∀ depth, evaluateReading (getBy runResolver) (only owner key) depth =
      evaluateSparing (only owner key) depth := by
  refine ⟨fun world readings after course => ⟨fun resolver apart stored => ?_,
    fun resolver leaves stored => course.runsEachTime leaves stored⟩, fun resolvers depth => ?_,
    leaves_runResolver, fun loader searchPaths start world reached reaches resolver stored => ?_,
    fun depth => by rw [getBy_runResolver, evaluateReading_get]⟩
  · exact course.resolvesOnce apart (.refl _) stored
  · have nested := passes_evaluateReading resolvers depth
    exact ⟨nested, Session.relates_interpretBy covers_passes nested⟩
  · obtain ⟨object, found, held⟩ := stored
    have closed := (reaches.tidy reached.tidy).heap
    exact fun reading =>
      apart_runResolver closed ((closed.objects owner object found).properties key _ held)

/-- The number of characters as a delayed property of all objects: asking `nil` for it fails, asking
a text computes it, and asking `nil` again gives the number of the text. -/
theorem computed_properties_resolve_after_failure :
    let fresh := World.fresh ⟨fun _ name paths => .refused (.missingModule name paths)⟩ []
    let root := KernelClass.object.prototype
    let text := fresh.heap.next
    let number : Handle := ⟨text.index + 1⟩
    ∃ world failed computed after,
      Course runResolver root "size" world [⟨.nil, world⟩, ⟨text, failed⟩, ⟨.nil, computed⟩] after ∧
      ResolvesOnce runResolver root "size" .stringLength after
        [⟨.nil, world⟩, ⟨text, failed⟩, ⟨.nil, computed⟩] ∧
      after.heap.Stores root "size" (.plain number) ∧ after.heap.inspect number = .ok "2" := by
  intro fresh root text number
  let made := { fresh with
    heap := (fresh.heap.add (.instanceOf KernelClass.string.handle (.string "ab"))).2 }
  let finds (world : World) (receiver : Handle) (property : Property) : Bool :=
    (world.heap.findProperty receiver "size").toOption == some (some (root, property))
  have checked : ((Session.Operation.run (.setProperty root "size" (.delayed .stringLength))
        made).world?.any fun world => finds world .nil (.delayed .stringLength) &&
      (get .nil "size" world).world?.any fun failed =>
        finds failed text (.delayed .stringLength) &&
      (get text "size" failed).world?.any fun computed => finds computed .nil (.plain number) &&
      (get .nil "size" computed).world?.any fun after =>
        decide (after.heap.Stores root "size" (.plain number)) &&
          (after.heap.inspect number).toOption == some "2") = true := by
    decide +kernel
  have found {world : World} {receiver : Handle} {property : Property}
      (met : finds world receiver property = true) :
      world.heap.findProperty receiver "size" = .ok (some (root, property)) :=
    eq_ok_of_toOption (eq_of_beq met)
  obtain ⟨world, stored, met⟩ := (Option.any_eq_true _ _).mp checked
  obtain ⟨first, met⟩ := Bool.and_eq_true_iff.mp met
  obtain ⟨failed, asked, met⟩ := (Option.any_eq_true _ _).mp met
  obtain ⟨second, met⟩ := Bool.and_eq_true_iff.mp met
  obtain ⟨computed, ran, met⟩ := (Option.any_eq_true _ _).mp met
  obtain ⟨third, met⟩ := Bool.and_eq_true_iff.mp met
  obtain ⟨after, repeated, met⟩ := (Option.any_eq_true _ _).mp met
  obtain ⟨kept, shown⟩ := Bool.and_eq_true_iff.mp met
  have course : Course runResolver root "size" world
      [⟨.nil, world⟩, ⟨text, failed⟩, ⟨.nil, computed⟩] after :=
    .read (found first) asked (.read (found second) ran (.read (found third) repeated (.done after)))
  have reached : Session.Embedded fresh.loader [] world :=
    .operation (.operation .fresh (.newString "ab") nofun rfl)
      (.setProperty root "size" (.delayed .stringLength)) nofun stored
  have delayed := Heap.stores_of_findProperty (found first)
  obtain ⟨resolves, -, -, apart, -⟩ := computed_properties_resolve runResolver root "size"
  refine ⟨world, failed, computed, after, course, ?_, of_decide_eq_true kept,
    eq_ok_of_toOption (eq_of_beq shown)⟩
  exact (resolves world _ after course).1 .stringLength (fun reading _ grown held _ =>
    apart _ _ world world reached (.refl world) .stringLength delayed reading grown held) delayed

end RipInterpreter
