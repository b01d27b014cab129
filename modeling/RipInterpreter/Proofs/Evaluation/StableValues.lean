import RipInterpreter.Proofs.Evaluation.Lawful
import RipInterpreter.Proofs.Machine.StableEquality

namespace RipInterpreter

/-- The only change of a payload is that a class without a name gets one. -/
theorem Payload.becomes_iff {payload later : Payload} :
    payload.Becomes later ↔ later = payload ∨ ∃ name ancestors,
      payload = .classObject none ancestors ∧ later = .classObject (some name) ancestors := by
  constructor
  · rintro (_ | ⟨name, ancestors⟩)
    · exact .inl rfl
    · exact .inr ⟨name, ancestors, rfl, rfl⟩
  · rintro (rfl | ⟨name, ancestors, rfl, rfl⟩)
    · exact .same _
    · exact .named name ancestors

namespace Session

open RipInterpreter.Action

/-- Whatever modules a driver has interpreted before, all that it is asked to do next, and every
evaluation on the way, leads on from the state it finds. Wherever one state leads to another, every
object of the first one still has its payload in the second, but that a class without a name may
have got one, for good; and the question whether two objects of the first are equal has the same
answer in both. -/
theorem values_never_change {loader : Loader} {searchPaths : List String} {world : World}
    (reached : Reachable loader searchPaths world) :
    (∀ after, (globalContext world).world? = some after → world.Leads after) ∧
    (∀ depth module after, (interpret depth module world).world? = some after →
      world.Leads after) ∧
    ∀ middle, world.Leads middle →
      (∀ depth module scope after, (interpretIn depth module scope middle).world? = some after →
        middle.Leads after) ∧
      (∀ depth scope node after, (evaluate depth scope node middle).world? = some after →
        middle.Leads after) ∧
      ∀ after, middle.Leads after →
        (∀ handle object, middle.heap.get? handle = some object →
          ∃ later, after.heap.get? handle = some later ∧
            (later.payload = object.payload ∨ ∃ name ancestors,
              object.payload = .classObject none ancestors ∧
              later.payload = .classObject (some name) ancestors)) ∧
        ∀ left right, middle.heap.Holds left → middle.heap.Holds right →
          ∃ same, middle.heap.equal left right = .ok same ∧
            after.heap.equal left right = .ok same := by
  have sound := reached.soundState.1
  refine ⟨fun _ left => (lawful_enter _).leads left,
    fun depth module _ left => (gives_interpret depth module sound).leads left, ?_⟩
  intro middle leads
  have sound := leads.soundState sound
  refine ⟨fun depth module scope _ left => (gives_interpretIn depth module scope sound).leads left,
    fun depth scope node _ left => (lawful_evaluate depth scope node middle sound).leads left, ?_⟩
  intro after later
  refine ⟨fun handle object found => ?_,
    fun _ _ held present => later.grows.equal sound.heap held present⟩
  obtain ⟨kept, stored, becomes⟩ := later.grows handle object found
  exact ⟨kept, stored, Payload.becomes_iff.mp becomes⟩

/-- Two lists that `[true]; [true]` leaves behind are equal, also after `C = class { }`. -/
theorem values_never_change_after_lists :
    let start := World.fresh ⟨fun _ name paths => .refused (.missingModule name paths)⟩ []
    let place := Location.start "text"
    let list : Syntax.Node := .list [.reference ⟨"true", place⟩] place
    let first : Syntax.Module := ⟨[list, list], place⟩
    let second : Syntax.Module := ⟨[.assignment (.reference ⟨"C", place⟩)
      (.classDefinition [] (.empty place) place) place], place⟩
    let left := start.heap.next
    let right : Handle := ⟨left.index + 1⟩
    ∃ middle after, (interpret 3 first start).world? = some middle ∧
      (interpret 4 second middle).world? = some after ∧ middle.heap.next ≠ after.heap.next ∧
      middle.heap.equal left right = .ok true ∧ after.heap.equal left right = .ok true := by
  intro start place list first second left right
  -- What the two runs compute is checked first; what is left to show is that the answer stays.
  have checked : ((interpret 3 first start).world?.any fun middle =>
      decide (right.index < middle.heap.objects.size) &&
      decide ((middle.heap.equal left right).toOption = some true) &&
      (interpret 4 second middle).world?.any fun after =>
        decide (middle.heap.next ≠ after.heap.next)) = true := by decide +kernel
  obtain ⟨middle, ran, met⟩ := (Option.any_eq_true _ _).mp checked
  obtain ⟨met, later⟩ := Bool.and_eq_true_iff.mp met
  obtain ⟨size, before⟩ := Bool.and_eq_true_iff.mp met
  obtain ⟨after, followed, grown⟩ := (Option.any_eq_true _ _).mp later
  have size : left.index + 1 < middle.heap.objects.size := of_decide_eq_true size
  have held : middle.heap.Holds left := Heap.holds_iff.mpr (Nat.lt_of_succ_lt size)
  have reached : Reachable _ [] middle := .interpret .fresh 3 first ran
  obtain ⟨-, further, along⟩ := values_never_change reached
  obtain ⟨same, answered, again⟩ := ((along middle (.refl middle)).2.2 after
    (further 4 second after followed)).2 left right held (Heap.holds_iff.mpr size)
  have equal : same = true := by
    have found : (middle.heap.equal left right).toOption = some true := of_decide_eq_true before
    rw [answered] at found
    exact Option.some.inj found
  subst equal
  exact ⟨middle, after, ran, followed, of_decide_eq_true grown, answered, again⟩

end Session

end RipInterpreter
