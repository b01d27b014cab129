import RipInterpreter.Proofs.Evaluation.Alters
import RipInterpreter.Proofs.Machine.Showing

namespace RipInterpreter

open Syntax

/-- Evaluates a node, but does not go on where it would assign a spared property. -/
def Action.stepSparing (spared : Handle → String → Bool) (evaluator : Evaluator) (scope : Scope) :
    Node → Action Handle
  | .assignment (.property object key _) value _ => do
    let owner ← evaluator scope object
    let value ← evaluator scope value
    if spared owner key then halt .tooDeep
    else
      set owner key value
      return value
  | node => step evaluator scope node

/-- Evaluates like `evaluate`, but is halted as soon as a program is about to assign a spared
property. -/
def evaluateSparing (spared : Handle → String → Bool) : (depth : Nat) → Evaluator
  | 0, _, _ => Action.halt .tooDeep
  | depth + 1, scope, node =>
    Action.locate node.location
      (Action.stepSparing spared (evaluateSparing spared depth) scope node)

variable {spared : Handle → String → Bool}

theorem Action.alters_stepSparing {evaluator : Evaluator}
    (nested : evaluator.Alters (Deed.Spares spared)) (scope : Scope) (node : Node) :
    (stepSparing spared evaluator scope node).Alters (Deed.Spares spared) := by
  unfold stepSparing
  split
  · rename_i object key inner value place
    refine (nested scope object).bind fun owner => (nested scope value).bind fun value => ?_
    split
    · exact .halt _
    · rename_i unspared
      have allowed : Deed.Spares spared (.assign owner key) := Bool.eq_false_iff.mpr unspared
      exact Alters.bind ((Alters.ask _).bind fun _ => .change _ fun _ =>
        (Heap.Change.assign value allowed).changes) fun _ => .pure value
  · rename_i other
    exact alters_step nested (fun _ _ => trivial) (fun _ _ => trivial) scope node
      fun object key inner value place shape => (other object key inner value place shape).elim

/-- By induction on the depth: what a step calls or nests runs one level deeper. -/
theorem alters_evaluateSparing (depth : Nat) :
    (evaluateSparing spared depth).Alters (Deed.Spares spared) := by
  induction depth with
  | zero => exact fun _ _ => .halt _
  | succ depth ih => exact fun scope node => .locate (Action.alters_stepSparing ih scope node) _

namespace Session

open RipInterpreter.Action

/-- The states of a driver that runs modules which assign no spared property: each run is the same
if it is halted where it would do so. -/
inductive ReachableSparing (spared : Handle → String → Bool) (loader : Loader)
    (searchPaths : List String) : World → Prop
  | fresh : ReachableSparing spared loader searchPaths (World.fresh loader searchPaths)
  | globalContext {world after : World} (reached : ReachableSparing spared loader searchPaths world)
    (left : (globalContext world).world? = some after) :
    ReachableSparing spared loader searchPaths after
  | interpretIn {world after : World} (reached : ReachableSparing spared loader searchPaths world)
    (depth : Nat) (module : Syntax.Module) (scope : Scope)
    (spares : interpretInBy (evaluateSparing spared depth) module scope world =
      interpretIn depth module scope world)
    (left : (interpretIn depth module scope world).world? = some after) :
    ReachableSparing spared loader searchPaths after
  | interpret {world after : World} (reached : ReachableSparing spared loader searchPaths world)
    (depth : Nat) (module : Syntax.Module)
    (spares : interpretBy (evaluateSparing spared depth) module world =
      interpret depth module world)
    (left : (interpret depth module world).world? = some after) :
    ReachableSparing spared loader searchPaths after

theorem ReachableSparing.reachable {loader : Loader} {searchPaths : List String} {world : World}
    (reached : ReachableSparing spared loader searchPaths world) :
    Reachable loader searchPaths world := by
  induction reached with
  | fresh => exact .fresh
  | globalContext _ left ih => exact .globalContext ih left
  | interpretIn _ depth module scope _ left ih => exact .interpretIn ih depth module scope left
  | interpret _ depth module _ left ih => exact .interpret ih depth module left

/-- By induction on what the driver was asked to do. -/
theorem ReachableSparing.changes {loader : Loader} {searchPaths : List String} {world : World}
    (reached : ReachableSparing spared loader searchPaths world) :
    Kernel.heap.Changes (Deed.Spares spared) world.heap := by
  induction reached with
  | fresh => exact .refl _
  | globalContext _ left ih => exact ih.trans (alters_enter _ _ _ left)
  | interpretIn _ depth module scope spares left ih =>
      rw [← spares] at left
      exact ih.trans (alters_interpretInBy (alters_evaluateSparing depth) module scope _ _ left)
  | interpret _ depth module spares left ih =>
      rw [← spares] at left
      exact ih.trans (alters_interpretBy (alters_evaluateSparing depth) module _ _ left)

/-- Programs lead from the first state to the second one, and assign no spared property on the
way. -/
structure LeadsSparing (spared : Handle → String → Bool) (world after : World) : Prop where
  leads : world.Leads after
  changes : world.heap.Changes (Deed.Spares spared) after.heap

/-- As long as programs assign no spared property, each property that shows the content of a pair or
of a range and is spared refers to that content, and reading it gives just that. In whatever
state, assigned or not, the text of a pair or a range, what equals it and what a map finds in it
come from its content. So it is in every state that a driver comes to, and wherever runs and
evaluations lead from there without assigning a spared property. -/
theorem pairs_tell_content {loader : Loader} {searchPaths : List String} {world : World}
    (reached : ReachableSparing spared loader searchPaths world) :
    (∀ depth module after,
      interpretBy (evaluateSparing spared depth) module world = interpret depth module world →
      (interpret depth module world).world? = some after → LeadsSparing spared world after) ∧
    ∀ middle, LeadsSparing spared world middle →
      (∀ depth scope node after,
        evaluateSparing spared depth scope node middle = evaluate depth scope node middle →
        (evaluate depth scope node middle).world? = some after →
        LeadsSparing spared middle after) ∧
      (∀ handle object, middle.heap.get? handle = some object → ∀ name value,
        (name, value) ∈ object.payload.shown → spared handle name = true →
        middle.heap.Stores handle name (.plain value) ∧
          get handle name middle = tie value handle middle) ∧
      (∀ handle object key value, middle.heap.get? handle = some object →
        object.payload = .keyValue key value → middle.heap.TellsPair handle key value) ∧
      ∀ handle object start last exclusive, middle.heap.get? handle = some object →
        object.payload = .range start last exclusive →
        middle.heap.TellsRange handle start last exclusive := by
  have sound := reached.reachable.soundState.1
  constructor
  · intro depth module after spares left
    refine ⟨(gives_interpret depth module sound).leads left, ?_⟩
    exact alters_interpretBy (alters_evaluateSparing depth) module world after (by rw [spares, left])
  · intro middle further
    have sound := further.leads.soundState sound
    have shows := (reached.changes.trans further.changes).shows Kernel.shows_heap
    refine ⟨?_, ?_, ?_, ?_⟩
    · intro depth scope node after spares left
      refine ⟨(lawful_evaluate depth scope node middle sound).leads left, ?_⟩
      exact alters_evaluateSparing depth scope node middle after (by rw [spares, left])
    · intro handle object found name value shown kept
      have stores := shows handle object found name value shown kept
      exact ⟨stores, get_own stores⟩
    · exact fun handle object key value found => sound.heap.closed.tellsPair found
    · exact fun handle object start last exclusive found => sound.heap.closed.tellsRange found

/-- After `p = true: false; p.value = nil` the pair still shows its key, and is inspected and
compared by its old content. -/
theorem pairs_tell_content_after_assignment :
    let start := World.fresh ⟨fun _ name paths => .refused (.missingModule name paths)⟩ []
    let place := Location.start "text"
    let reference (name : String) : Syntax.Node := .reference ⟨name, place⟩
    let module : Syntax.Module := ⟨[.assignment (reference "p")
      (.keyValue ⟨reference "true", reference "false", place⟩) place,
      .assignment (.property (reference "p") "value" place) (reference "nil") place], place⟩
    let pair := start.heap.next
    ∃ world, (interpret 4 module start).world? = some world ∧
      world.heap.Stores pair "key" (.plain .trueValue) ∧
      world.heap.TellsPair pair .trueValue .falseValue := by
  intro start place reference module pair
  have checked : ((interpret 4 module start).world?.any fun world =>
      (world.heap.get? pair).any fun object =>
        object.payload.shown == [("key", .trueValue), ("value", .falseValue)]) = true := by
    decide +kernel
  obtain ⟨world, ran, met⟩ := (Option.any_eq_true _ _).mp checked
  obtain ⟨object, found, met⟩ := (Option.any_eq_true _ _).mp met
  have shown : object.payload.shown = [("key", .trueValue), ("value", .falseValue)] :=
    eq_of_beq met
  have shape := Payload.keyValue_of_shown shown
  -- Only the key of the pair is spared, so that the run may assign its value.
  let spared : Handle → String → Bool := fun handle name => handle == pair && name == "key"
  have spares : interpretBy (evaluateSparing spared 4) module start = interpret 4 module start :=
    rfl
  have reached : ReachableSparing spared start.loader [] world :=
    .interpret .fresh 4 module spares ran
  obtain ⟨-, shows, told, -⟩ :=
    (pairs_tell_content reached).2 world ⟨.refl world, .refl world.heap⟩
  have first : ("key", .trueValue) ∈ object.payload.shown := by
    rw [shown]
    exact List.mem_cons_self
  have kept : spared pair "key" = true := by simp [spared]
  exact ⟨world, ran, (shows pair object found _ _ first kept).1, told pair object _ _ found shape⟩

/-- Programs may assign what a pair shows: after `p = true: false; p.key = nil` it shows another key
than the one it has, by which it is still inspected. -/
theorem assigned_pair_shows_another_key :
    let start := World.fresh ⟨fun _ name paths => .refused (.missingModule name paths)⟩ []
    let pair := start.heap.next
    ∃ world object, Reachable start.loader [] world ∧ world.heap.get? pair = some object ∧
      object.payload = .keyValue .trueValue .falseValue ∧
      object.properties.get? "key" = some (.plain .nil) ∧
      world.heap.inspect pair = .ok "true: false" := by
  intro start pair
  let place := Location.start "text"
  let reference (name : String) : Syntax.Node := .reference ⟨name, place⟩
  let module : Syntax.Module := ⟨[.assignment (reference "p")
    (.keyValue ⟨reference "true", reference "false", place⟩) place,
    .assignment (.property (reference "p") "key" place) (reference "nil") place], place⟩
  have checked : ((interpret 4 module start).world?.any fun world =>
      (world.heap.get? pair).any fun object =>
        object.payload.shown == [("key", .trueValue), ("value", .falseValue)] &&
        decide (object.properties.get? "key" = some (.plain .nil)) &&
        decide ((world.heap.inspect pair).toOption = some "true: false")) = true := by
    decide +kernel
  obtain ⟨world, ran, met⟩ := (Option.any_eq_true _ _).mp checked
  obtain ⟨object, found, met⟩ := (Option.any_eq_true _ _).mp met
  obtain ⟨met, inspected⟩ := Bool.and_eq_true_iff.mp met
  obtain ⟨shown, assigned⟩ := Bool.and_eq_true_iff.mp met
  exact ⟨world, object, .interpret .fresh 4 module ran, found,
    Payload.keyValue_of_shown (eq_of_beq shown), of_decide_eq_true assigned,
    eq_ok_of_toOption (of_decide_eq_true inspected)⟩

end Session

end RipInterpreter
