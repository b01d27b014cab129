import RipInterpreter.Proofs.Evaluation.Lawful
import RipInterpreter.Proofs.Machine.KernelMethods

namespace RipInterpreter

open Syntax

variable {world after : World} {heap : Heap} {object : Object} {value : Handle} {name : String}

/-- A class that has no name yet. -/
def Payload.isAnonymous : Payload → Bool
  | .classObject none _ => true
  | _ => false

theorem Payload.isAnonymous_iff {payload : Payload} :
    payload.isAnonymous = true ↔ ∃ ancestors, payload = .classObject none ancestors := by
  unfold isAnonymous
  split
  · simp
  · rename_i other
    exact ⟨nofun, fun ⟨ancestors, same⟩ => absurd same (other ancestors)⟩

theorem Object.named_of_anonymous (anonymous : object.payload.isAnonymous = true) (name : String) :
    ∃ ancestors, (object.named name).payload = .classObject (some name) ancestors := by
  obtain ⟨ancestors, shape⟩ := Payload.isAnonymous_iff.mp anonymous
  exact ⟨ancestors, by rw [Object.named, shape]⟩

theorem Object.named_of_not_anonymous (known : object.payload.isAnonymous = false) (name : String) :
    object.named name = object := by
  unfold Object.named
  split
  · rename_i ancestors shape
    rw [shape] at known
    cases known
  · rfl

/-- A change that leaves the object of its handle alone changes nothing. -/
theorem Heap.modify_of_same {change : Object → Object} (found : heap.get? value = some object)
    (same : change object = object) : heap.modify value change = heap := by
  obtain ⟨objects⟩ := heap
  unfold Heap.modify
  congr 1
  refine Array.ext_getElem? fun index => ?_
  rw [Array.getElem?_modify]
  split
  · rename_i here
    have stored : objects[index]? = some object := here ▸ found
    rw [stored, Option.map_some, same]
  · rfl

/-- The state with a name for a class, if it had none. -/
def World.named (world : World) (value : Handle) (name : String) : World :=
  { world with heap := world.heap.modify value (Object.named name) }

theorem World.className_named (found : world.heap.get? value = some object)
    (anonymous : object.payload.isAnonymous = true) :
    (world.named value name).heap.className value = .ok (some name) := by
  obtain ⟨ancestors, shape⟩ := Object.named_of_anonymous anonymous name
  have renamed : (world.named value name).heap.get? value = some (object.named name) := by
    rw [World.named, Heap.get?_modify, if_pos rfl, found]
    rfl
  simp only [Heap.className, Heap.read_eq_ok renamed, bind, Except.bind, shape]
  rfl

theorem Heap.className_of_anonymous (found : heap.get? value = some object)
    (anonymous : object.payload.isAnonymous = true) : heap.className value = .ok none := by
  obtain ⟨ancestors, shape⟩ := Payload.isAnonymous_iff.mp anonymous
  simp only [Heap.className, Heap.read_eq_ok found, bind, Except.bind, shape]
  rfl

theorem World.named_eq_iff (found : world.heap.get? value = some object) :
    world.named value name = world ↔ object.payload.isAnonymous = false := by
  constructor
  · refine fun same => Bool.eq_false_iff.mpr fun anonymous => ?_
    have named : (world.named value name).heap.className value = .ok (some name) :=
      World.className_named found anonymous
    rw [same, Heap.className_of_anonymous found anonymous] at named
    cases named
  · intro known
    rw [World.named, Heap.modify_of_same found (Object.named_of_not_anonymous known name)]

namespace Action

theorem bindName_of_held {scope : Scope} (held : world.frames.hasOwn scope name = true) :
    bindName scope name value world = .failure (.compiler (.alreadyDefined name) none) world := by
  rw [bindName, Frames.bind, if_pos held]

theorem nameClass_apply (found : world.heap.get? value = some object) :
    nameClass value name world = .value () (world.named value name) := by
  have read : ask (fun heap => heap.read value) world = .value object world :=
    ask_of_ok (Heap.read_eq_ok found)
  exact bind_of_value read _

theorem isAnonymous_of_not_class (found : world.heap.get? value = some object)
    (asked : world.heap.isClass value = .ok false) : object.payload.isAnonymous = false := by
  refine Bool.eq_false_iff.mpr fun anonymous => ?_
  obtain ⟨ancestors, shape⟩ := Payload.isAnonymous_iff.mp anonymous
  simp only [Heap.isClass, Heap.read_eq_ok found, bind, Except.bind, shape] at asked
  cases asked

end Action

open RipInterpreter.Action

theorem evaluate_rebinding {depth : Nat} {scope : Scope} {name : Name} {node : Node}
    (ran : evaluate depth scope node world = .value value after)
    (found : after.heap.get? value = some object)
    (held : after.frames.hasOwn scope name.text = true) (place : Location) :
    evaluate (depth + 1) scope (.assignment (.reference name) node place) world =
      .failure (.compiler (.alreadyDefined name.text) (some place))
        (after.named value name.text) := by
  obtain ⟨kind, asked, -⟩ := Heap.answers_isClass ⟨object, found⟩
  have known : ask (fun heap => heap.isClass value) after = .value kind after := ask_of_ok asked
  have failing (state : World) (same : state.frames = after.frames) :
      (bindName scope name.text value >>= fun _ => (pure value : Action Handle)) state =
        .failure (.compiler (.alreadyDefined name.text) none) state := by
    rw [bind_apply, bindName_of_held (same ▸ held)]
  have assigned : assign (evaluate depth) scope (.reference name) node world =
      .failure (.compiler (.alreadyDefined name.text) none) (after.named value name.text) := by
    refine (bind_of_value ran _).trans ((bind_of_value known _).trans ?_)
    cases kind with
    | true => exact (bind_of_value (nameClass_apply found) _).trans (failing _ rfl)
    | false =>
        rw [(World.named_eq_iff found).mpr (isAnonymous_of_not_class found asked)]
        exact failing after rfl
  change locate place (assign (evaluate depth) scope (.reference name) node) world = _
  rw [locate, assigned]
  rfl

/-- Giving a value to a name that the innermost frame holds by then is an error. Nothing has changed
since the value was there, unless it is a class without a name: that has got the name. -/
theorem rebinding_fails (depth : Nat) (scope : Scope) (name : Name) (node : Node) (place : Location)
    {world after : World} {value : Handle} (sound : world.SoundState)
    (ran : evaluate depth scope node world = .value value after)
    (held : after.frames.hasOwn scope name.text = true) :
    evaluate (depth + 1) scope (.assignment (.reference name) node place) world =
        .failure (.compiler (.alreadyDefined name.text) (some place))
          (after.named value name.text) ∧
      ∃ object, after.heap.get? value = some object ∧
        (after.named value name.text = after ↔ object.payload.isAnonymous = false) := by
  obtain ⟨-, proper⟩ := (lawful_evaluate depth scope node world sound).ended ran
  obtain ⟨object, found⟩ := proper.holds
  exact ⟨evaluate_rebinding ran found held place, object, found, World.named_eq_iff found⟩

/-- After `l = [class { }]` the assignment `l = l.at(0)` fails, and the class in the list is called
`l` from then on. -/
theorem failed_rebinding_names_class :
    let start := World.fresh ⟨fun _ name paths => .refused (.missingModule name paths)⟩ []
    let place := Location.start "text"
    let name : Name := ⟨"l", place⟩
    let made : Node := .list [.classDefinition [] (.empty place) place] place
    let element : Node := .invocation (.property (.reference name) "at" place)
      [.integer "0" place] place
    ∃ scope opened world value after,
      Session.globalContext start = .value scope opened ∧
      (evaluate 5 scope (.assignment (.reference name) made place) opened).world? = some world ∧
      evaluate 5 scope element world = .value value after ∧
      after.frames.hasOwn scope "l" = true ∧ after.heap.className value = .ok none ∧
      ∃ final, evaluate 6 scope (.assignment (.reference name) element place) world =
          .failure (.compiler (.alreadyDefined "l") (some place)) final ∧
        final.heap.className value = .ok (some "l") ∧ final ≠ after := by
  intro start place name made element
  have checked : ((evaluate 5 ⟨1, [0]⟩ (.assignment (.reference name) made place)
        { start with frames := (start.frames.child Kernel.globals).2 }).world?.any fun world =>
      (evaluate 5 ⟨1, [0]⟩ element world).endsIn fun value after =>
        after.frames.hasOwn ⟨1, [0]⟩ "l" &&
          (after.heap.get? value).any fun object => object.payload.isAnonymous) = true := by
    decide +kernel
  obtain ⟨world, ran, met⟩ := (Option.any_eq_true _ _).mp checked
  obtain ⟨value, after, evaluated, met⟩ := Outcome.value_of_endsIn met
  obtain ⟨held, met⟩ := Bool.and_eq_true_iff.mp met
  obtain ⟨object, found, anonymous⟩ := (Option.any_eq_true _ _).mp met
  have unnamed := Heap.className_of_anonymous found anonymous
  refine ⟨_, _, world, value, after, rfl, ran, evaluated, held, unnamed, after.named value "l",
    evaluate_rebinding evaluated found held place, World.className_named found anonymous, ?_⟩
  intro same
  rw [World.named_eq_iff found, anonymous] at same
  cases same

/-- In `nil = true` no class is named, and the assignment leaves everything as it was. -/
theorem rebinding_fails_without_class :
    let start := World.fresh ⟨fun _ name paths => .refused (.missingModule name paths)⟩ []
    let place := Location.start "text"
    evaluate 1 Kernel.globals (.reference ⟨"true", place⟩) start = .value .trueValue start ∧
    start.frames.hasOwn Kernel.globals "nil" = true ∧
    evaluate 2 Kernel.globals
        (.assignment (.reference ⟨"nil", place⟩) (.reference ⟨"true", place⟩) place) start =
      .failure (.compiler (.alreadyDefined "nil") (some place)) start := by
  intro start place
  obtain ⟨failed, object, found, unchanged⟩ := rebinding_fails 1 Kernel.globals ⟨"nil", place⟩
    (.reference ⟨"true", place⟩) place (World.soundState_fresh _ []) rfl rfl
  refine ⟨rfl, rfl, ?_⟩
  rw [unchanged.mpr ?_] at failed
  · exact failed
  · cases found
    rfl

end RipInterpreter
