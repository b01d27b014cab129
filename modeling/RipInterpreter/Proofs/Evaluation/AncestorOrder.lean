import RipInterpreter.Proofs.Evaluation.Alters
import RipInterpreter.Proofs.Machine.AncestorOrder

namespace RipInterpreter

open Syntax

/-- One state comes from another one in runs of programs. -/
structure World.Evolves (world after : World) : Prop where
  leads : world.Leads after
  changes : world.heap.Changes (fun _ => True) after.heap

namespace Action

variable {world after : World} {made : Handle}

/-- A new class extends its parents, or the root if it has none. -/
theorem extends_newClass {name : Option String} {parents : List Handle}
    (ancestral : world.heap.Ancestral) (ended : newClass name parents world = .value made after) :
    after.heap.Extends made (if parents.isEmpty then [KernelClass.object.handle] else parents) := by
  unfold newClass at ended
  obtain ⟨prototype, middle, allocated, ended⟩ := value_of_bind ended
  cases allocated
  rw [bind_of_value (rfl : Action.world _ = .value _ _)] at ended
  obtain ⟨answer, last, asked, ended⟩ := value_of_bind ended
  obtain ⟨lineage, rfl⟩ := ask_eq_value asked
  have given : (if parents.isEmpty then [KernelClass.object.handle] else parents) ≠ [] := by
    cases parents <;> simp
  cases answer with
  | none => cases ended
  | some ancestors =>
      cases ended
      have prepared : world.heap.Change (fun _ => True) _ := .add .prototype
      refine Heap.extends_of_lineage (prepared.ancestral ancestral) given lineage
        (Heap.grows_add _ _) ⟨_, name, (Heap.get?_add _ _ _).trans (if_pos rfl), rfl⟩

/-- So does a class that a program defines, for the values of its parents. -/
theorem extends_evaluateClass {evaluator : Evaluator} {scope : Scope} {ancestors : List Node}
    {body : Block} (nested : evaluator.Alters fun _ => True) (ancestral : world.heap.Ancestral)
    (ended : evaluateClass evaluator scope ancestors body world = .value made after) :
    ∃ parents middle,
      ancestors.mapM (evaluateParent evaluator scope) world = .value parents middle ∧
      after.heap.Extends made
        (if parents.isEmpty then [KernelClass.object.handle] else parents) := by
  obtain ⟨parents, middle, evaluated, ended⟩ := value_of_bind ended
  have before : world.heap.Changes (fun _ => True) middle.heap :=
    Alters.mapM (fun ancestor _ => alters_evaluateParent nested scope ancestor) world middle
      (by rw [evaluated]; rfl)
  obtain ⟨own, first, defined, ended⟩ := value_of_bind ended
  have extended := extends_newClass (before.ancestral ancestral) defined
  have later : first.heap.Changes (fun _ => True) after.heap :=
    alters_classBody nested (fun _ _ => trivial) own scope body first after (by rw [ended]; rfl)
  -- The value of the definition is the class that its body is run for.
  obtain ⟨prototype, _, -, returned⟩ := value_of_bind ended
  obtain ⟨inner, _, -, returned⟩ := value_of_bind returned
  obtain ⟨_, _, -, returned⟩ := value_of_bind returned
  obtain ⟨_, _, -, returned⟩ := value_of_bind returned
  obtain ⟨_, _, -, returned⟩ := value_of_bind returned
  cases returned
  exact ⟨parents, middle, evaluated, later.grows.extends extended⟩

end Action

theorem World.Evolves.refl (world : World) : world.Evolves world := ⟨.refl world, .refl world.heap⟩

namespace Session

/-- Whatever is run in the state, as a whole or for a single node, evolves it. -/
structure RunsEvolve (world : World) : Prop where
  globalContext : ∀ after, (globalContext world).world? = some after → world.Evolves after
  interpretIn : ∀ depth module scope after,
    (interpretIn depth module scope world).world? = some after → world.Evolves after
  interpret : ∀ depth module after, (interpret depth module world).world? = some after →
    world.Evolves after
  evaluate : ∀ depth scope node after, (evaluate depth scope node world).world? = some after →
    world.Evolves after

theorem runsEvolve {world : World} (sound : world.SoundState) : RunsEvolve world where
  globalContext _ left := ⟨(runsLead sound).globalContext _ left, Action.alters_enter _ _ _ left⟩
  interpretIn _ module scope _ left :=
    ⟨(runsLead sound).interpretIn _ _ _ _ left, alters_interpretIn _ module scope _ _ left⟩
  interpret _ module _ left :=
    ⟨(runsLead sound).interpret _ _ _ left, alters_interpret _ module _ _ left⟩
  evaluate _ scope node _ left :=
    ⟨(runsLead sound).evaluate _ _ _ _ left, alters_evaluate _ scope node _ _ left⟩

/-- In every state of a driver, also in the midst of runs, the ancestors of a class stand as its
parents mention theirs. Of two ancestors of a class one of which derives from the other, the lower
one comes first exactly if one passes it on the way up to the other, always going to the first parent
that leads there, or if the other is the root. What both define values of the class never get from
the one that comes second. -/
theorem subclass_precedes_iff_climbs {loader : Loader} {searchPaths : List String} {world : World}
    (reached : Reachable loader searchPaths world) :
    RunsEvolve world ∧ ∀ middle, world.Evolves middle →
      RunsEvolve middle ∧
      (∀ depth scope ancestors body place made after,
        evaluate (depth + 1) scope (.classDefinition ancestors body place) middle =
          .value made after →
        ∃ parents before,
          ancestors.mapM (Action.evaluateParent (evaluate depth) scope) middle =
            .value parents before ∧
          ∀ later, after.Evolves later → later.heap.Extends made
            (if parents.isEmpty then [KernelClass.object.handle] else parents)) ∧
      (∀ own line, middle.heap.ClassAt own line →
        own = KernelClass.object.handle ∨ ∃ parents, middle.heap.Extends own parents) ∧
      ∀ own lower upper, lower ∈ middle.heap.ancestry own → upper ∈ middle.heap.ancestry own →
        upper ∈ middle.heap.ancestry lower → lower ≠ upper →
        ([lower, upper].Sublist (middle.heap.ancestry own) ↔
          upper = KernelClass.object.handle ∨ middle.heap.Climbs upper own lower) ∧
        ([lower, upper].Sublist (middle.heap.ancestry own) ∧
            middle.heap.Shadows own lower upper ∨
          [upper, lower].Sublist (middle.heap.ancestry own) ∧
            middle.heap.Shadows own upper lower) := by
  have sound := reached.soundState.1
  refine ⟨runsEvolve sound, fun middle evolves => ?_⟩
  have changes := reached.changes.trans evolves.changes
  have ancestral : middle.heap.Ancestral := changes.ancestral Kernel.ancestral_heap
  have derived : middle.heap.Derived := changes.derived Kernel.ancestral_heap Kernel.derived_heap
  have sound := evolves.leads.soundState sound
  refine ⟨runsEvolve sound, ?_, derived, ?_⟩
  · intro depth scope ancestors body place made after ended
    have ended := Action.value_of_locate ended
    obtain ⟨parents, before, evaluated, extended⟩ :=
      Action.extends_evaluateClass (alters_evaluate depth) ancestral ended
    exact ⟨parents, before, evaluated, fun later evolves =>
      evolves.leads.grows.extends extended⟩
  · intro own lower upper below above derives apart
    refine ⟨ancestral.precedes_iff derived below above derives apart, ?_⟩
    have shadows {front back : Handle}
        (ordered : [front, back].Sublist (middle.heap.ancestry own)) :=
      And.intro ordered (ancestral.shadows sound.heap.closed ordered)
    exact (Heap.pair_sublist_or below above apart).imp shadows shadows

/-- With `A = class { }; B = class (A) { }; C = class (A) { }`, what both override is found at `B` by
values of `class (B, C) { }`, which one passes on the way up to `A`, but never at `C`. -/
theorem subclass_precedes_iff_climbs_in_diamond :
    let start := World.fresh ⟨fun _ name paths => .refused (.missingModule name paths)⟩ []
    let place := Location.start "text"
    let reference (name : String) : Node := .reference ⟨name, place⟩
    let made (parents : List String) : Node :=
      .classDefinition (parents.map reference) (.empty place) place
    let module : Module := ⟨[.assignment (reference "A") (made []) place,
      .assignment (reference "B") (made ["A"]) place,
      .assignment (reference "C") (made ["A"]) place], place⟩
    let next (count : Nat) : Handle := ⟨start.heap.next.index + count⟩
    ∃ world own after, (interpret 6 module start).world? = some world ∧
      evaluate 6 ⟨1, [0]⟩ (made ["B", "C"]) world = .value own after ∧
      (∃ parents, after.heap.Extends own parents) ∧
      after.heap.Climbs (next 1) own (next 3) ∧ after.heap.Shadows own (next 3) (next 1) ∧
      ¬ after.heap.Climbs (next 1) own (next 5) ∧ after.heap.Shadows own (next 1) (next 5) := by
  intro start place reference made module next
  have checked : ((interpret 6 module start).world?.any fun world =>
      (evaluate 6 ⟨1, [0]⟩ (made ["B", "C"]) world).endsIn fun own after =>
        decide (after.heap.ancestry own =
            [own, next 3, next 1, next 5, KernelClass.object.handle] ∧
          (next 1 ∈ after.heap.ancestry (next 3) ∧ next 1 ∈ after.heap.ancestry (next 5)) ∧
          ¬ [next 1, next 3].Sublist (after.heap.ancestry own) ∧
          ¬ [next 5, next 1].Sublist (after.heap.ancestry own))) = true := by decide +kernel
  obtain ⟨world, ran, met⟩ := (Option.any_eq_true _ _).mp checked
  obtain ⟨own, after, evaluated, met⟩ := Outcome.value_of_endsIn met
  obtain ⟨line, ⟨first, second⟩, ahead, behind⟩ := of_decide_eq_true met
  have reached : Reachable _ [] world := .interpret .fresh 6 module ran
  obtain ⟨runs, along⟩ := subclass_precedes_iff_climbs reached
  obtain ⟨-, defined, -⟩ := along world (.refl world)
  obtain ⟨parents, before, -, extended⟩ := defined 5 _ _ _ _ own after evaluated
  obtain ⟨-, -, -, order⟩ := along after
    (runs.evaluate 6 ⟨1, [0]⟩ (made ["B", "C"]) after (by rw [evaluated]; rfl))
  have inside (count : Nat) (some : count = 1 ∨ count = 3 ∨ count = 5) :
      next count ∈ after.heap.ancestry own := by
    rw [line]
    rcases some with rfl | rfl | rfl <;> simp
  have notRoot : next 1 ≠ KernelClass.object.handle := by decide +kernel
  obtain ⟨climbs, shadows⟩ := order own (next 3) (next 1) (inside 3 (by simp))
    (inside 1 (by simp)) first (by decide +kernel)
  obtain ⟨never, hides⟩ := order own (next 5) (next 1) (inside 5 (by simp))
    (inside 1 (by simp)) second (by decide +kernel)
  have shadows := shadows.resolve_right fun reversed => ahead reversed.1
  have hides := hides.resolve_left fun reversed => behind reversed.1
  exact ⟨world, own, after, ran, evaluated, ⟨_, extended after (.refl after)⟩,
    (climbs.mp shadows.1).resolve_left notRoot, shadows.2,
    fun passes => behind (never.mpr (.inr passes)), hides.2⟩

/-- After `A = class { @.m = -> () { :a } }; B = class (A) { @.m = -> () { :b } };
C = class (A, B) { }` the second class comes behind the first, from which it derives, among the
ancestors of the third, and `C.new().m()` is `a`: what `B` overrides hides the override. -/
theorem override_hidden_by_overridden :
    let start := World.fresh ⟨fun _ name paths => .refused (.missingModule name paths)⟩ []
    let place := Location.start "text"
    let reference (name : String) : Node := .reference ⟨name, place⟩
    let made (name : String) (parents : List String) (body : List Node) : Node :=
      .assignment (reference name)
        (.classDefinition (parents.map reference) ⟨body, place⟩ place) place
    let method (answer : Char) : Node := .assignment (.property (reference "@") "m" place)
      (.lambda ⟨.arrow, [], ⟨[.string [⟨answer, place⟩] place], place⟩, place⟩) place
    let object : Node := .invocation (.property (reference "C") "new" place) [] place
    let module : Module := ⟨[made "A" [] [method 'a'], made "B" ["A"] [method 'b'],
      made "C" ["A", "B"] [], .invocation (.property object "m" place) [] place], place⟩
    let next (count : Nat) : Handle := ⟨start.heap.next.index + count⟩
    ∃ world value, interpret 8 module start = .value value world ∧
      world.heap.display value = .ok "a" ∧
      world.heap.ancestry (next 7) = [next 7, next 1, next 4, KernelClass.object.handle] ∧
      next 1 ∈ world.heap.ancestry (next 4) ∧
      ¬ [next 4, next 1].Sublist (world.heap.ancestry (next 7)) ∧
      world.heap.Defines "m" (next 1) (next 0) (.plain (next 2)) ∧
      world.heap.Defines "m" (next 4) (next 3) (.plain (next 5)) ∧
      world.heap.findProperty (next 9) "m" = .ok (some (next 0, .plain (next 2))) := by
  intro start place reference made method object module next
  have checked : (interpret 8 module start).endsIn (fun value world =>
      decide (world.heap.display value = .ok "a" ∧
        world.heap.ancestry (next 7) =
          [next 7, next 1, next 4, KernelClass.object.handle] ∧
        next 1 ∈ world.heap.ancestry (next 4) ∧
        ¬ [next 4, next 1].Sublist (world.heap.ancestry (next 7)) ∧
        world.heap.Defines "m" (next 1) (next 0) (.plain (next 2)) ∧
        world.heap.Defines "m" (next 4) (next 3) (.plain (next 5)) ∧
        world.heap.findProperty (next 9) "m" = .ok (some (next 0, .plain (next 2))))) = true := by
    decide +kernel
  obtain ⟨value, world, ran, met⟩ := Outcome.value_of_endsIn checked
  exact ⟨world, value, ran, of_decide_eq_true met⟩

end Session

end RipInterpreter
