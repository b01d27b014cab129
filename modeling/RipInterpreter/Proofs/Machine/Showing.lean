import RipInterpreter.Proofs.Machine.Alters
import RipInterpreter.Proofs.Machine.Content
import RipInterpreter.Proofs.Machine.FreshWorld
import RipInterpreter.Proofs.Machine.KernelMethods

namespace RipInterpreter

variable {spared : Handle → String → Bool}

/-- The content that an object shows as properties. -/
def Payload.shown : Payload → List (String × Handle)
  | .keyValue key value => [("key", key), ("value", value)]
  | .range start last exclusive =>
    [("start", start), ("end", last), ("exclusive", if exclusive then .trueValue else .falseValue)]
  | _ => []

/-- Everything but assigning a spared property. -/
def Deed.Spares (spared : Handle → String → Bool) : Deed → Prop
  | .assign owner key => spared owner key = false
  | _ => True

theorem Payload.Becomes.shown {payload later : Payload} (becomes : payload.Becomes later) :
    later.shown = payload.shown := by
  cases becomes <;> rfl

/-- Only a pair shows a key and a value. -/
theorem Payload.keyValue_of_shown {payload : Payload} {key value : Handle}
    (shown : payload.shown = [("key", key), ("value", value)]) : payload = .keyValue key value := by
  cases payload <;> simp_all [Payload.shown]

namespace Heap

variable {heap after : Heap} {left right : Handle}

/-- Every spared property that shows the content of an object refers to that content. -/
def Shows (spared : Handle → String → Bool) (heap : Heap) : Prop :=
  ∀ handle object, heap.get? handle = some object → ∀ name value,
    (name, value) ∈ object.payload.shown → spared handle name = true →
    heap.Stores handle name (.plain value)

theorem Brings.shows {allows : Deed → Prop} {object : Object} (brings : heap.Brings allows object)
    {name : String} {value : Handle} (shown : (name, value) ∈ object.payload.shown) :
    object.properties.get? name = some (.plain value) := by
  cases brings with
  | @literal kernelClass payload literal =>
      cases payload <;> first | exact literal.elim | cases shown
  | pair key content =>
      simp only [Object.pair, Object.insert, Object.instanceOf, Payload.shown, List.mem_cons,
        Prod.mk.injEq, List.not_mem_nil, or_false] at shown ⊢
      rcases shown with ⟨rfl, rfl⟩ | ⟨rfl, rfl⟩ <;> simp [Table.get?_insert]
  | range start last exclusive =>
      simp only [Object.range, Object.insert, Object.instanceOf, Payload.shown, List.mem_cons,
        Prod.mk.injEq, List.not_mem_nil, or_false] at shown ⊢
      rcases shown with ⟨rfl, rfl⟩ | ⟨rfl, rfl⟩ | ⟨rfl, rfl⟩ <;>
        simp [Table.get?_insert, Handle.ofBool]
  | _ => cases shown

theorem Change.shows (change : heap.Change (Deed.Spares spared) after)
    (shows : heap.Shows spared) : after.Shows spared := by
  intro handle later found name value shown kept
  rcases change.origin found with ⟨rfl, brings⟩ | ⟨object, present, becomes⟩
  · exact ⟨later, found, brings.shows shown⟩
  · rw [becomes.shown] at shown
    refine change.stores (shows handle object present name value shown kept) ?_ fun _ delayed => ?_
    · simp [Deed.Spares, kept]
    · cases delayed

/-- By induction on the number of changes. -/
theorem Changes.shows (changes : heap.Changes (Deed.Spares spared) after)
    (shows : heap.Shows spared) : after.Shows spared := by
  induction changes with
  | refl => exact shows
  | tail _ change ih => exact change.shows ih

/-- A look-up for this key passes the object: it is no pair with an equal key. -/
def Passes (heap : Heap) (wanted handle : Handle) : Prop :=
  ∃ object, heap.get? handle = some object ∧ ∀ key value, object.payload = .keyValue key value →
    heap.equal key wanted = .ok false

/-- The method `==` of the object says whether another one is equal. -/
def AnswersEqual (heap : Heap) (handle : Handle) : Prop :=
  ∀ evaluator scope other object (world : World), heap.get? other = some object →
    world.heap = heap →
    ∃ same, heap.equal handle other = .ok same ∧
      Action.runMethod evaluator (.equality true) ⟨some handle, [other], scope⟩ world =
        .value (if same then .trueValue else .falseValue) world

/-- The text of a pair, what `==` says of it and another pair, and what `at` finds in a map that holds
it, all tell the same content. -/
structure TellsPair (heap : Heap) (pair key value : Handle) : Prop where
  inspects : heap.inspect pair = do
    return (← heap.inspect key) ++ ": " ++ (← heap.inspect value)
  equals : ∀ other object key₁ value₁, heap.get? other = some object →
    object.payload = .keyValue key₁ value₁ →
    (heap.equal pair other = .ok true ↔
      pair = other ∨ heap.equal key key₁ = .ok true ∧ heap.equal value value₁ = .ok true)
  compares : heap.AnswersEqual pair
  finds : ∀ evaluator scope map object before rest wanted (world : World),
    heap.get? map = some object → object.payload = .map (before ++ pair :: rest) →
    world.heap = heap →
    (heap.equal key wanted = .ok true → (∀ earlier ∈ before, heap.Passes wanted earlier) →
      Action.runMethod evaluator .mapAt ⟨some map, [wanted], scope⟩ world = .value value world) ∧
    (heap.equal key wanted = .ok false → ∀ other object₁, heap.get? other = some object₁ →
      object₁.payload = .map (before ++ rest) →
      Action.runMethod evaluator .mapAt ⟨some map, [wanted], scope⟩ world =
        Action.runMethod evaluator .mapAt ⟨some other, [wanted], scope⟩ world)

/-- So do the text of a range and what `==` says of it and another range. -/
structure TellsRange (heap : Heap) (range start last : Handle) (exclusive : Bool) : Prop where
  inspects : heap.inspect range = do
    return (← heap.inspect start) ++ (if exclusive then "..." else "..") ++ (← heap.inspect last)
  equals : ∀ other object start₁ last₁ exclusive₁, heap.get? other = some object →
    object.payload = .range start₁ last₁ exclusive₁ →
    (heap.equal range other = .ok true ↔
      range = other ∨ exclusive = exclusive₁ ∧ heap.equal start start₁ = .ok true ∧
        heap.equal last last₁ = .ok true)
  compares : heap.AnswersEqual range

end Heap

namespace Action

variable {world : World} {wanted pair key value : Handle} {object : Object}
  {before rest : List Handle}

theorem valueAt_of_equal (found : world.heap.get? pair = some object)
    (shape : object.payload = .keyValue key value) (same : world.heap.equal key wanted = .ok true) :
    valueAt wanted (pair :: rest) world = .value value world := by
  have known := payload_of_read (Heap.read_eq_ok found)
  have compared : ask (fun heap => heap.equal key wanted) world = .value true world :=
    ask_of_ok same
  rw [valueAt, bind_of_value known, shape]
  exact bind_of_value compared _

theorem valueAt_of_passes (passes : world.heap.Passes wanted pair) :
    valueAt wanted (pair :: rest) world = valueAt wanted rest world := by
  obtain ⟨object, found, other⟩ := passes
  rw [valueAt, bind_of_value (payload_of_read (Heap.read_eq_ok found))]
  cases shape : object.payload with
  | keyValue key value =>
      have compared : ask (fun heap => heap.equal key wanted) world = .value false world :=
        ask_of_ok (other key value shape)
      exact bind_of_value compared _
  | _ => rfl

theorem valueAt_append_of_passes (passes : ∀ earlier ∈ before, world.heap.Passes wanted earlier) :
    valueAt wanted (before ++ rest) world = valueAt wanted rest world := by
  induction before with
  | nil => rfl
  | cons first before ih =>
      rw [List.cons_append, valueAt_of_passes (passes first List.mem_cons_self)]
      exact ih fun earlier listed => passes earlier (List.mem_cons_of_mem first listed)

/-- What a look-up passes makes no difference to it, wherever it stands. -/
theorem valueAt_of_passes_later (passes : world.heap.Passes wanted pair) :
    valueAt wanted (before ++ pair :: rest) world = valueAt wanted (before ++ rest) world := by
  induction before with
  | nil => exact valueAt_of_passes passes
  | cons first before ih =>
      rw [List.cons_append, List.cons_append, valueAt, valueAt]
      cases read : world.heap.read first with
      | error fault =>
          simp only [payload, bind_apply, ask, read]
          cases fault <;> rfl
      | ok object =>
          rw [bind_of_value (payload_of_read read), bind_of_value (payload_of_read read)]
          cases object.payload with
          | keyValue key value =>
              dsimp only
              rw [bind_apply, bind_apply, ask]
              cases world.heap.equal key wanted with
              | error fault => cases fault <;> rfl
              | ok same => cases same <;> [exact ih; rfl]
          | _ => exact ih

theorem mapAt_apply {map : Handle} {pairs : List Handle} (found : world.heap.get? map = some object)
    (holds : object.payload = .map pairs) (evaluator : Evaluator) (scope : Scope) :
    runMethod evaluator .mapAt ⟨some map, [wanted], scope⟩ world = valueAt wanted pairs world := by
  change (mapPairs map >>= valueAt wanted) world = _
  rw [bind_of_value (mapPairs_of_found found holds)]

end Action

namespace Heap

section

variable {heap : Heap} {handle item : Handle} {object : Object}

/-- Values inside a collection are inspected as they are on their own. -/
theorem Closed.inspects (closed : heap.Closed) (found : heap.get? handle = some object)
    (inside : item ∈ object.payload.contents) :
    heap.inspectWithin heap.objects.size item = heap.inspect item := by
  have content := (closed.objects handle object found).contents inside
  have bound : item.index < heap.objects.size := holds_iff.mp content.1
  exact inspectWithin_levels closed (Nat.lt_succ_of_lt bound) bound

theorem Closed.answersEqual (closed : heap.Closed) (found : heap.get? handle = some object) :
    heap.AnswersEqual handle := by
  rintro evaluator scope other object₁ world found₁ rfl
  obtain ⟨same, answered, -⟩ := answers_equal closed ⟨object, found⟩ ⟨object₁, found₁⟩
  refine ⟨same, answered, ?_⟩
  change (Action.ask (fun heap => heap.equal handle other) >>= fun found =>
    (pure (Handle.ofBool (found == true)) : Action Handle)) world = _
  rw [Action.bind_of_value (Action.ask_of_ok answered)]
  cases same <;> rfl

theorem Closed.tellsPair {key value : Handle} (closed : heap.Closed)
    (found : heap.get? handle = some object) (shape : object.payload = .keyValue key value) :
    heap.TellsPair handle key value where
  inspects := by
    have content : object.payload.contents = [key, value] := by rw [shape]; rfl
    have first : key ∈ object.payload.contents := by simp [content]
    have second : value ∈ object.payload.contents := by simp [content]
    rw [inspect, depth, inspectWithin, read_eq_ok found]
    simp only [bind, Except.bind, shape, closed.inspects found first, closed.inspects found second]
  equals other object₁ key₁ value₁ found₁ shape₁ := by
    rw [closed.equal_iff found found₁, shape, shape₁]
    simp [Payload.label, Label.Agrees, Payload.contents]
  compares := closed.answersEqual found
  finds evaluator scope map holder before rest wanted world present holds here := by
    subst here
    refine ⟨fun same passes => ?_, fun other short shorter present₁ holds₁ => ?_⟩
    · rw [Action.mapAt_apply present holds, Action.valueAt_append_of_passes passes]
      exact Action.valueAt_of_equal found shape same
    · rw [Action.mapAt_apply present holds, Action.mapAt_apply present₁ holds₁]
      refine Action.valueAt_of_passes_later ⟨object, found, fun key value shown => ?_⟩
      cases shape.symm.trans shown
      exact other

theorem Closed.tellsRange {start last : Handle} {exclusive : Bool} (closed : heap.Closed)
    (found : heap.get? handle = some object)
    (shape : object.payload = .range start last exclusive) :
    heap.TellsRange handle start last exclusive where
  inspects := by
    have content : object.payload.contents = [start, last] := by rw [shape]; rfl
    have first : start ∈ object.payload.contents := by simp [content]
    have second : last ∈ object.payload.contents := by simp [content]
    rw [inspect, depth, inspectWithin, read_eq_ok found]
    simp only [bind, Except.bind, shape, closed.inspects found first, closed.inspects found second]
  equals other object₁ start₁ last₁ exclusive₁ found₁ shape₁ := by
    rw [closed.equal_iff found found₁, shape, shape₁]
    simp [Payload.label, Label.Agrees, Payload.contents]
  compares := closed.answersEqual found

end

end Heap

/-- Reading a property that a value holds itself gives what is stored, tied to the value if it is a
lambda. -/
theorem Action.get_own {world : World} {receiver value : Handle} {key : String}
    (stores : world.heap.Stores receiver key (.plain value)) :
    get receiver key world = tie value receiver world := by
  obtain ⟨object, found, held⟩ := stores
  have property : world.heap.findProperty receiver key = .ok (some (receiver, .plain value)) := by
    simp only [Heap.findProperty, Heap.read_eq_ok found, bind, Except.bind, held]
    rfl
  have asked : ask (fun heap => heap.findProperty receiver key) world =
      .value (some (receiver, .plain value)) world := by
    simp [ask, property]
  rw [get, bind_of_value asked]
  rfl

theorem Kernel.shows_heap : heap.Shows spared := by
  have contentless : objects.all (fun object => object.payload.shown.isEmpty) = true := by
    decide +kernel
  intro handle object found name value shown
  rw [get?_heap] at found
  have empty := List.all_eq_true.mp contentless object (List.mem_of_getElem? found)
  rw [List.isEmpty_iff.mp empty] at shown
  cases shown

end RipInterpreter
