import RipInterpreter.Proofs.Evaluation.Alters
import RipInterpreter.Proofs.Machine.Ancestry

namespace RipInterpreter.Session

open RipInterpreter.Action

/-- Whatever modules a driver has interpreted before, all that it is asked to do next, and every
evaluation on the way, changes objects by single changes only; and whatever changes the objects of a
machine have gone through, the ancestors of all classes are in order, so that a value of a class is a
value of every ancestor of that class. -/
theorem classes_stay_lineal {loader : Loader} {searchPaths : List String} {world : World}
    (reached : Reachable loader searchPaths world) :
    (∀ after, (globalContext world).world? = some after →
      world.heap.Changes (fun _ => True) after.heap) ∧
    (∀ depth module after, (interpret depth module world).world? = some after →
      world.heap.Changes (fun _ => True) after.heap) ∧
    ∀ middle : World, world.heap.Changes (fun _ => True) middle.heap →
      (∀ depth module scope after, (interpretIn depth module scope middle).world? = some after →
        middle.heap.Changes (fun _ => True) after.heap) ∧
      (∀ depth scope node after, (evaluate depth scope node middle).world? = some after →
        middle.heap.Changes (fun _ => True) after.heap) ∧
      (∀ own line, middle.heap.ClassAt own line → middle.heap.Lineal own line) ∧
      ∀ value parent line ancestor, middle.heap.isA value parent = .ok true →
        middle.heap.ancestors parent = .ok line → ancestor ∈ line →
        middle.heap.isA value ancestor = .ok true := by
  refine ⟨alters_enter _ world, fun depth module => alters_interpret depth module world, ?_⟩
  intro middle changes
  have ancestral : middle.heap.Ancestral :=
    (reached.changes.trans changes).ancestral Kernel.ancestral_heap
  exact ⟨fun depth module scope => alters_interpretIn depth module scope middle,
    fun depth scope node => alters_evaluate depth scope node middle, ancestral.classes,
    fun value parent line ancestor => ancestral.isA⟩

/-- So they are after `A = class { }; B = class A { }; C = class A { }; D = class B, C { }; D.new()`,
where the two middle classes share an ancestor. -/
theorem classes_stay_lineal_in_diamond :
    let start := World.fresh ⟨fun _ name paths => .refused (.missingModule name paths)⟩ []
    let place := Location.start "text"
    let reference (name : String) : Syntax.Node := .reference ⟨name, place⟩
    let made (name : String) (parents : List String) : Syntax.Node :=
      .assignment (reference name)
        (.classDefinition (parents.map reference) (.empty place) place) place
    let module : Syntax.Module := ⟨[made "A" [], made "B" ["A"], made "C" ["A"],
      made "D" ["B", "C"], .invocation (.property (reference "D") "new" place) [] place], place⟩
    let next (count : Nat) : Handle := ⟨start.heap.next.index + count⟩
    ∃ world, (interpret 6 module start).world? = some world ∧
      world.heap.ClassAt (next 7) [next 7, next 3, next 1, next 5, KernelClass.object.handle] ∧
      world.heap.Lineal (next 7) [next 7, next 3, next 1, next 5, KernelClass.object.handle] ∧
      world.heap.isA (next 9) (next 5) = .ok true ∧ world.heap.isA (next 9) (next 1) = .ok true := by
  intro start place reference made module next
  let line := [next 7, next 3, next 1, next 5, KernelClass.object.handle]
  -- That the value is one of the first class, too, is left to the theorem.
  have checked : ((interpret 6 module start).world?.any fun world =>
      (world.heap.get? (next 7)).any (fun object => object.payload.ancestors == line) &&
      decide ((world.heap.isA (next 9) (next 5)).toOption = some true) &&
      decide ((world.heap.ancestors (next 5)).toOption =
        some [next 5, next 1, KernelClass.object.handle])) = true := by decide +kernel
  obtain ⟨world, ran, met⟩ := (Option.any_eq_true _ _).mp checked
  obtain ⟨met, inherited⟩ := Bool.and_eq_true_iff.mp met
  obtain ⟨made, is⟩ := Bool.and_eq_true_iff.mp met
  have classAt : world.heap.ClassAt (next 7) line := by
    obtain ⟨object, found, same⟩ := (Option.any_eq_true _ _).mp made
    obtain ⟨name, shape⟩ := Payload.classObject_of_ancestors (List.cons_ne_nil _ _)
      (eq_of_beq same : object.payload.ancestors = line)
    exact ⟨object, name, found, shape⟩
  have is := eq_ok_of_toOption (of_decide_eq_true is)
  have reached : Reachable _ [] world := .interpret .fresh 6 module ran
  obtain ⟨-, -, lineal, upward⟩ := (classes_stay_lineal reached).2.2 world (.refl _)
  exact ⟨world, ran, classAt, lineal _ _ classAt, is,
    upward _ _ _ _ is (eq_ok_of_toOption (of_decide_eq_true inherited))
      (List.mem_cons_of_mem _ List.mem_cons_self)⟩

end RipInterpreter.Session
