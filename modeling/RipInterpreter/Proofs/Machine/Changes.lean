import RipInterpreter.Proofs.Machine.SoundWorld
import RipInterpreter.Proofs.Machine.Steps

/-!
What runs of programs do to objects, one change at a time. Most changes come about in only one way;
those that depend on the text of a program, and those that a read of a property leaves behind, are
named by a `Deed`, so that a run without certain deeds can be told from others. A pair and a range
appear together with the properties that show their content.
-/

namespace RipInterpreter

/-- The changes of objects that a statement may leave out. -/
inductive Deed where
  /-- A program assigns a property of an object. -/
  | assign (owner : Handle) (key : String)
  /-- The value that a property was computed to on its first read takes the place of its resolver. -/
  | cache (owner : Handle) (key : String)
  /-- A program makes a lambda. -/
  | define (closure : Scope) (overloads : List Overload)

/-- The data of literals and of collections. -/
def Payload.IsLiteral : Payload → Prop
  | .integer _ | .decimal _ | .character _ | .string _ | .regularExpression _ | .list _ | .map _ =>
    True
  | _ => False

def Object.insert (key : String) (value : Handle) (object : Object) : Object :=
  { object with properties := object.properties.insert key (.plain value) }

/-- A pair with the properties that show its content. -/
def Object.pair (key value : Handle) : Object :=
  ((Object.instanceOf KernelClass.keyValue.handle (.keyValue key value)).insert "key" key).insert
    "value" value

/-- A range with the properties that show its content. -/
def Object.range (start last : Handle) (exclusive : Bool) : Object :=
  (((Object.instanceOf KernelClass.range.handle (.range start last exclusive)).insert
    "start" start).insert "end" last).insert "exclusive" (.ofBool exclusive)

namespace Heap

variable {heap middle after : Heap} {object : Object} {allows : Deed → Prop}
  {owner : Handle} {key : String} {property : Property}

/-- The objects that are ever added. -/
inductive Brings (allows : Deed → Prop) (heap : Heap) : Object → Prop
  | literal (kernelClass : KernelClass) {payload : Payload} (literal : payload.IsLiteral) :
    Brings allows heap (.instanceOf kernelClass.handle payload)
  | plain (parent : Handle) : Brings allows heap (.instanceOf parent .plain)
  | pair (key value : Handle) : Brings allows heap (.pair key value)
  | range (start last : Handle) (exclusive : Bool) :
    Brings allows heap (.range start last exclusive)
  | lambda {closure : Scope} {overloads : List Overload}
    (allowed : allows (.define closure overloads)) :
    Brings allows heap
      (.instanceOf KernelClass.lambda.handle (.lambda ⟨closure, overloads, none⟩))
  /-- A lambda that is there already, tied to an object. -/
  | tied {origin : Handle} {untied : Object} {callable : Callable} (receiver : Handle)
    (found : heap.get? origin = some untied) (shape : untied.payload = .lambda callable) :
    Brings allows heap (.instanceOf KernelClass.lambda.handle
      (.lambda { callable with receiver := some receiver }))
  | prototype : Brings allows heap ⟨.empty, .plain⟩
  | classObject (name : Option String) (prototype : Handle) {parents ancestors : List Handle}
    (given : parents ≠ []) (lineage : heap.lineage heap.next parents = .ok (some ancestors)) :
    Brings allows heap ⟨Table.ofList [("@", .plain prototype),
      ("class", .plain KernelClass.classClass.handle)], .classObject name ancestors⟩

/-- A single change, with no other deeds than those allowed. -/
inductive Change (allows : Deed → Prop) (heap : Heap) : Heap → Prop
  | add {object : Object} (brings : heap.Brings allows object) :
    Change allows heap (heap.add object).2
  | assign {owner : Handle} {key : String} (value : Handle)
    (allowed : allows (.assign owner key)) :
    Change allows heap (heap.modify owner (Object.insert key value))
  | cache {owner : Handle} {key : String} {resolver : Resolver} (value : Handle)
    (delayed : heap.Stores owner key (.delayed resolver)) (allowed : allows (.cache owner key)) :
    Change allows heap (heap.modify owner (Object.insert key value))
  /-- The text of a runtime error is stored in the exception made for it. -/
  | describe {exception : Handle} (text : Handle)
    (found : heap.get? exception = some (.instanceOf KernelClass.exception.handle .plain)) :
    Change allows heap (heap.modify exception (Object.insert "message" text))
  | name (owner : Handle) (name : String) :
    Change allows heap (heap.modify owner (Object.named name))

/-- Any number of changes. -/
def Changes (allows : Deed → Prop) : Heap → Heap → Prop := Relation.ReflTransGen (Change allows)

theorem Changes.refl (heap : Heap) : heap.Changes allows heap := Relation.ReflTransGen.refl

theorem Changes.trans (first : heap.Changes allows middle) (second : middle.Changes allows after) :
    heap.Changes allows after := Relation.ReflTransGen.trans first second

theorem Change.changes (change : heap.Change allows after) : heap.Changes allows after :=
  .single change

theorem becomes_insert (key : String) (value : Handle) (object : Object) :
    object.payload.Becomes (object.insert key value).payload := .same _

theorem Change.grows (change : heap.Change allows after) : heap.Grows after := by
  cases change with
  | add brings => exact grows_add heap _
  | name owner name => exact grows_modify fun object _ => becomes_named name object
  | _ => exact grows_modify fun object _ => becomes_insert _ _ object

theorem Changes.grows (changes : heap.Changes allows after) : heap.Grows after := by
  induction changes with
  | refl => exact .refl heap
  | tail _ change ih => exact ih.trans change.grows

/-- An object after a change was added by it, or it was there with the same payload, up to the name
of a class. -/
theorem Change.origin (change : heap.Change allows after) {handle : Handle} {later : Object}
    (found : after.get? handle = some later) :
    (handle = heap.next ∧ heap.Brings allows later) ∨
      ∃ object, heap.get? handle = some object ∧ object.payload.Becomes later.payload := by
  cases change with
  | add brings =>
      rw [get?_add] at found
      split at found
      · cases found
        exact .inl ⟨‹_›, brings⟩
      · exact .inr ⟨later, found, .same _⟩
  | name owner name => exact .inr (origin_modify found (becomes_named name))
  | _ => exact .inr (origin_modify found (becomes_insert _ _))

/-- A lambda after a change was defined by it, or it was there already, at most without the object it
is tied to. -/
theorem Change.lambda (change : heap.Change allows after) {handle : Handle} {later : Object}
    {callable : Callable} (found : after.get? handle = some later)
    (shape : later.payload = .lambda callable) :
    allows (.define callable.closure callable.overloads) ∨
      ∃ handle object earlier, heap.get? handle = some object ∧ object.payload = .lambda earlier ∧
        earlier.closure = callable.closure ∧ earlier.overloads = callable.overloads := by
  rcases change.origin found with ⟨-, brings⟩ | ⟨object, present, becomes⟩
  · cases brings with
    | literal kernelClass literal =>
        cases shape
        exact literal.elim
    | lambda allowed =>
        cases shape
        exact .inl allowed
    | tied receiver present known =>
        cases shape
        exact .inr ⟨_, _, _, present, known, rfl, rfl⟩
    | _ => cases shape
  · refine .inr ⟨handle, object, callable, present, ?_, rfl, rfl⟩
    generalize object.payload = earlier at becomes ⊢
    rw [shape] at becomes
    cases becomes with
    | same => rfl

theorem Changes.lambda (changes : heap.Changes allows after) {handle : Handle} {later : Object}
    {callable : Callable} (found : after.get? handle = some later)
    (shape : later.payload = .lambda callable) :
    allows (.define callable.closure callable.overloads) ∨
      ∃ handle object earlier, heap.get? handle = some object ∧ object.payload = .lambda earlier ∧
        earlier.closure = callable.closure ∧ earlier.overloads = callable.overloads := by
  induction changes generalizing handle later callable with
  | refl => exact .inr ⟨handle, later, callable, found, shape, rfl, rfl⟩
  | tail _ change ih =>
      rcases change.lambda found shape with allowed | ⟨_, _, earlier, present, known, closure, same⟩
      · exact .inl allowed
      · rw [← closure, ← same]
        exact ih present known

theorem stores_modify {change : Object → Object} {changed : Handle}
    (stores : heap.Stores owner key property)
    (kept : ∀ object, heap.get? owner = some object → changed = owner →
      object.properties.get? key = some property →
      (change object).properties.get? key = some property) :
    (heap.modify changed change).Stores owner key property := by
  obtain ⟨object, found, held⟩ := stores
  by_cases same : owner = changed
  · exact ⟨change object, by rw [get?_modify, if_pos same, found]; rfl,
      kept object found same.symm held⟩
  · exact ⟨object, by rw [get?_modify, if_neg same, found], held⟩

theorem stores_insert {changed value : Handle} {other : String}
    (stores : heap.Stores owner key property) (apart : changed = owner → other ≠ key) :
    (heap.modify changed (Object.insert other value)).Stores owner key property :=
  stores_modify stores fun object _ same held => by
    change (object.properties.insert other _).get? key = _
    rw [Table.get?_insert, if_neg fun equal => apart same equal.symm]
    exact held

theorem stores_inserted (held : heap.Holds owner) (key : String) (value : Handle) :
    (heap.modify owner (Object.insert key value)).Stores owner key (.plain value) := by
  obtain ⟨object, found⟩ := held
  refine ⟨object.insert key value, by rw [get?_modify, if_pos rfl, found]; rfl, ?_⟩
  exact (Table.get?_insert ..).trans (if_pos rfl)

/-- A stored property stays until a program assigns it, or until it is replaced by what it computes
to. -/
theorem Change.stores (change : heap.Change allows after) (stores : heap.Stores owner key property)
    (unassigned : ¬ allows (.assign owner key))
    (uncached : ∀ resolver, property = .delayed resolver → ¬ allows (.cache owner key)) :
    after.Stores owner key property := by
  have apart {deed : Handle → String → Deed} (never : ¬ allows (deed owner key)) {changed : Handle}
      {other : String} (allowed : allows (deed changed other)) : changed = owner → other ≠ key := by
    rintro rfl rfl
    exact never allowed
  cases change with
  | add brings =>
      obtain ⟨object, found, held⟩ := stores
      exact ⟨object, by rw [get?_add, if_neg (next_ne found), found], held⟩
  | assign value allowed => exact stores_insert stores (apart unassigned allowed)
  | cache value delayed allowed =>
      refine stores_insert stores ?_
      rintro rfl rfl
      obtain ⟨object, found, held⟩ := stores
      obtain ⟨same, present, computed⟩ := delayed
      cases found.symm.trans present
      exact uncached _ (Option.some.inj (held.symm.trans computed)) allowed
  | describe text made =>
      -- An exception without a message has no property but its class.
      refine stores_insert stores ?_
      rintro rfl rfl
      obtain ⟨object, found, held⟩ := stores
      cases found.symm.trans made
      cases held
  | name changed name =>
      refine stores_modify stores fun object _ _ held => ?_
      unfold Object.named
      split <;> exact held

theorem Changes.stores (changes : heap.Changes allows after)
    (stores : heap.Stores owner key property) (unassigned : ¬ allows (.assign owner key))
    (uncached : ∀ resolver, property = .delayed resolver → ¬ allows (.cache owner key)) :
    after.Stores owner key property := by
  induction changes with
  | refl => exact stores
  | tail _ change ih => exact change.stores ih unassigned uncached

end Heap

end RipInterpreter
