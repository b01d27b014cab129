import RipInterpreter.Evaluation.Step
import RipInterpreter.Proofs.Machine.Changes

namespace RipInterpreter

/-- Nothing but an allowed deed, and what is no deed, happens to the objects. -/
def World.Alters (allows : Deed → Prop) (world after : World) : Prop :=
  world.heap.Changes allows after.heap

theorem World.Alters.refl {allows : Deed → Prop} (world : World) : world.Alters allows world :=
  Heap.Changes.refl world.heap

theorem World.Alters.trans {allows : Deed → Prop} {world middle after : World}
    (first : world.Alters allows middle) (second : middle.Alters allows after) :
    world.Alters allows after := Heap.Changes.trans first second

namespace Heap

variable {heap : Heap} {receiver owner : Handle} {key : String} {property : Property}

theorem stores_of_findInherited {ancestors : List Handle}
    (found : heap.findInherited key ancestors = .ok (some (owner, property))) :
    heap.Stores owner key property := by
  induction ancestors with
  | nil => cases found
  | cons ancestor rest ih =>
      unfold findInherited at found
      cases known : heap.read ancestor with
      | error fault =>
          rw [known] at found
          cases found
      | ok object =>
          rw [known] at found
          dsimp only [bind, Except.bind] at found
          split at found
          · rename_i prototype _
            cases present : heap.read prototype with
            | error fault =>
                rw [present] at found
                cases found
            | ok holder =>
                rw [present] at found
                dsimp only at found
                split at found
                · cases found
                  exact ⟨holder, get?_of_read present, ‹_›⟩
                · exact ih found
          · exact ih found

/-- The object in which a property is found stores it. -/
theorem stores_of_findProperty
    (found : heap.findProperty receiver key = .ok (some (owner, property))) :
    heap.Stores owner key property := by
  unfold findProperty at found
  cases known : heap.read receiver with
  | error fault =>
      rw [known] at found
      cases found
  | ok object =>
      rw [known] at found
      dsimp only [bind, Except.bind] at found
      split at found
      · cases found
        exact ⟨object, get?_of_read known, ‹_›⟩
      · split at found
        · rename_i parent _
          cases line : heap.ancestors parent with
          | error fault =>
              rw [line] at found
              cases found
          | ok ancestors =>
              rw [line] at found
              exact stores_of_findInherited found
        · cases found

/-- An object that has just been added can be completed as if it had been added complete. -/
theorem modify_add (heap : Heap) (object : Object) (change : Object → Object) :
    (heap.add object).2.modify heap.next change = (heap.add (change object)).2 := by
  simp only [add, modify, next, Heap.mk.injEq]
  apply Array.ext_getElem?
  intro index
  rw [Array.getElem?_modify]
  grind

end Heap

namespace Action

variable {α β : Type} {allows : Deed → Prop}

/-- The step changes objects by allowed deeds only. -/
def Alters (allows : Deed → Prop) (action : Action α) : Prop :=
  action.Relates (World.Alters allows)

namespace Alters

variable {action : Action α} {continuation : α → Action β}

theorem bind (first : action.Alters allows) (next : ∀ result, (continuation result).Alters allows) :
    (action >>= continuation).Alters allows :=
  Relates.bind first next (fun _ _ changes => changes) fun _ _ _ => .trans

/-- What the second step finds may depend on how the first one ended. -/
theorem follow {world after : World} (first : action.Alters allows)
    (next : ∀ result middle, action world = .value result middle →
      (continuation result middle).world? = some after → middle.Alters allows after)
    (left : ((action >>= continuation) world).world? = some after) :
    world.Alters allows after := by
  have reached := first world
  rw [bind_apply] at left
  cases ended : action world with
  | value result middle =>
      rw [ended] at left reached
      exact (reached middle rfl).trans (next result middle ended left)
  | signal raised middle =>
      rw [ended] at left reached
      exact reached after left
  | failure error middle =>
      rw [ended] at left reached
      exact reached after left
  | halted reason =>
      rw [ended] at left
      cases left

theorem pure (result : α) : (pure result : Action α).Alters allows :=
  Relates.pure World.Alters.refl result

theorem fail (error : Error) : (fail error : Action α).Alters allows :=
  Relates.fail World.Alters.refl error

theorem fault (reason : RuntimeFault) : (fault reason : Action α).Alters allows :=
  Relates.fail World.Alters.refl _

theorem world : Action.world.Alters allows := Relates.world World.Alters.refl

theorem ask (question : Heap → Except ReadFault α) : (ask question).Alters allows :=
  Relates.ask World.Alters.refl question

/-- What leaves the objects as they are does nothing to them. -/
theorem of_heap (same : ∀ world after, (action world).world? = some after →
    after.heap = world.heap) : action.Alters allows := by
  intro world after left
  unfold World.Alters
  rw [same world after left]
  exact .refl world.heap

theorem mapM {items : List α} {visit : α → Action β}
    (each : ∀ item ∈ items, (visit item).Alters allows) : (items.mapM visit).Alters allows := by
  induction items with
  | nil => exact .pure []
  | cons item rest ih =>
      rw [List.mapM_cons]
      exact (each item List.mem_cons_self).bind fun _ =>
        (ih fun other inside => each other (List.mem_cons_of_mem item inside)).bind fun _ =>
          .pure _

end Alters

theorem value_of_payload {handle : Handle} {world after : World} {found : Payload}
    (known : payload handle world = .value found after) :
    ∃ object, world.heap.get? handle = some object ∧ object.payload = found ∧ after = world := by
  obtain ⟨object, middle, asked, read⟩ := value_of_bind known
  obtain ⟨present, rfl⟩ := ask_eq_value asked
  cases read
  exact ⟨object, Heap.get?_of_read present, rfl, rfl⟩

theorem newInstance_apply (kernelClass : KernelClass) (payload : Payload) (world : World) :
    newInstance kernelClass payload world = .value world.heap.next
      { world with heap := (world.heap.add (.instanceOf kernelClass.handle payload)).2 } := rfl

theorem setProperty_apply {world : World} {owner : Handle} {object : Object} (key : String)
    (property : Property) (found : world.heap.get? owner = some object) :
    setProperty owner key property world = .value () { world with
      heap := world.heap.modify owner fun found =>
        { found with properties := found.properties.insert key property } } := by
  have read : ask (fun heap => heap.read owner) world = .value object world := by
    simp [ask, Heap.read, found]
  exact bind_of_value read _

theorem set_apply {world : World} {owner : Handle} {object : Object} (key : String)
    (value : Handle) (found : world.heap.get? owner = some object) :
    set owner key value world =
      .value () { world with heap := world.heap.modify owner (Object.insert key value) } :=
  setProperty_apply key (.plain value) found

theorem set_added (world : World) (object : Object) (key : String) (value : Handle) :
    set world.heap.next key value { world with heap := (world.heap.add object).2 } =
      .value () { world with heap := (world.heap.add (object.insert key value)).2 } := by
  have found : (world.heap.add object).2.get? world.heap.next = some object := by
    rw [Heap.get?_add, if_pos rfl]
  rw [set_apply key value found, Heap.modify_add]

/-- A pair is as good as made at once. -/
theorem newKeyValue_apply (key value : Handle) (world : World) :
    newKeyValue key value world =
      .value world.heap.next { world with heap := (world.heap.add (.pair key value)).2 } := by
  unfold newKeyValue
  rw [bind_of_value (newInstance_apply _ _ world), bind_of_value (set_added world _ _ _),
    bind_of_value (set_added world _ _ _)]
  rfl

/-- So is a range. -/
theorem newRange_apply (start last : Handle) (exclusive : Bool) (world : World) :
    newRange start last exclusive world =
      .value world.heap.next
        { world with heap := (world.heap.add (.range start last exclusive)).2 } := by
  unfold newRange
  rw [bind_of_value (newInstance_apply _ _ world), bind_of_value (set_added world _ _ _),
    bind_of_value (set_added world _ _ _), bind_of_value (set_added world _ _ _)]
  rfl

/-- An exception is told its message once the text of that is there. -/
theorem newException_apply (message : String) (world : World) :
    let first := (world.heap.add (.instanceOf KernelClass.exception.handle .plain)).2
    let second := (first.add (.instanceOf KernelClass.string.handle (.string message))).2
    second.get? world.heap.next = some (.instanceOf KernelClass.exception.handle .plain) ∧
      newException message world = .value world.heap.next { world with
        heap := second.modify world.heap.next (Object.insert "message" first.next) } := by
  intro first second
  have fresh : first.get? world.heap.next =
      some (.instanceOf KernelClass.exception.handle .plain) := by
    rw [Heap.get?_add, if_pos rfl]
  have made : second.get? world.heap.next =
      some (.instanceOf KernelClass.exception.handle .plain) := by
    rw [Heap.get?_add, if_neg (Heap.next_ne fresh), fresh]
  refine ⟨made, ?_⟩
  unfold newException
  rw [bind_of_value (newInstance_apply _ _ world), newString,
    bind_of_value (newInstance_apply _ _ _), bind_of_value (set_apply "message" first.next made)]
  rfl

theorem alters_allocate {object : Object}
    (brings : ∀ heap : Heap, heap.Brings allows object) : (allocate object).Alters allows := by
  intro world after left
  cases left
  exact (Heap.Change.add (brings world.heap)).changes

theorem alters_set {owner : Handle} (key : String) (value : Handle)
    (allowed : allows (.assign owner key)) : (set owner key value).Alters allows :=
  (Alters.ask _).bind fun _ => .change _ fun _ => (Heap.Change.assign value allowed).changes

theorem alters_newLiteral (kernelClass : KernelClass) {payload : Payload}
    (literal : payload.IsLiteral) : (newInstance kernelClass payload).Alters allows :=
  alters_allocate fun _ => .literal kernelClass literal

theorem alters_newInteger (value : Int) : (newInteger value).Alters allows :=
  alters_newLiteral _ trivial

theorem alters_newDecimal (value : Float) : (newDecimal value).Alters allows :=
  alters_newLiteral _ trivial

theorem alters_newCharacter (value : Char) : (newCharacter value).Alters allows :=
  alters_newLiteral _ trivial

theorem alters_newString (value : String) : (newString value).Alters allows :=
  alters_newLiteral _ trivial

theorem alters_newRegularExpression (pattern : String) :
    (newRegularExpression pattern).Alters allows := alters_newLiteral _ trivial

theorem alters_newList (items : List Handle) : (newList items).Alters allows :=
  alters_newLiteral _ trivial

theorem alters_newMap (pairs : List Handle) : (newMap pairs).Alters allows :=
  alters_newLiteral _ trivial

theorem alters_newKeyValue (key value : Handle) : (newKeyValue key value).Alters allows := by
  intro world after left
  rw [newKeyValue_apply] at left
  cases left
  exact (Heap.Change.add (.pair key value)).changes

theorem alters_newRange (start last : Handle) (exclusive : Bool) :
    (newRange start last exclusive).Alters allows := by
  intro world after left
  rw [newRange_apply] at left
  cases left
  exact (Heap.Change.add (.range start last exclusive)).changes

theorem alters_newLambda {closure : Scope} {overloads : List Overload}
    (allowed : allows (.define closure overloads)) :
    (newLambda closure overloads).Alters allows := alters_allocate fun _ => .lambda allowed

theorem alters_newException (message : String) : (newException message).Alters allows := by
  intro world after left
  obtain ⟨made, ran⟩ := newException_apply message world
  rw [ran] at left
  cases left
  have text : (Payload.string message).IsLiteral := trivial
  exact (Heap.Change.add (.plain _)).changes.trans
    ((Heap.Change.add (.literal _ text)).changes.trans (Heap.Change.describe _ made).changes)

theorem alters_newClass (name : Option String) (parents : List Handle) :
    (newClass name parents).Alters allows := by
  refine (alters_allocate fun _ => .prototype).bind fun prototype => ?_
  -- The handle of the class is the next one of the state in which its ancestors are collected.
  intro world after left
  rw [bind_of_value (rfl : Action.world world = .value world world)] at left
  have given : (if parents.isEmpty then [KernelClass.object.handle] else parents) ≠ [] := by
    cases parents <;> simp
  refine (Alters.ask _).follow (fun line middle asked left => ?_) left
  obtain ⟨lineage, rfl⟩ := ask_eq_value asked
  cases line with
  | none => exact Alters.fault .notInheritable _ after left
  | some ancestors =>
      cases left
      exact (Heap.Change.add (.classObject name prototype given lineage)).changes

theorem alters_nameClass (object : Handle) (name : String) :
    (nameClass object name).Alters allows :=
  (Alters.ask _).bind fun _ => .change _ fun _ => (Heap.Change.name object name).changes

theorem alters_payload (handle : Handle) : (payload handle).Alters allows :=
  (Alters.ask _).bind fun _ => .pure _

theorem alters_unexpected (expected : String) (found : Handle) :
    (unexpected expected found : Action α).Alters allows :=
  (Alters.ask _).bind fun _ => .fault _

theorem alters_stringValue (handle : Handle) : (stringValue handle).Alters allows :=
  (alters_payload handle).bind fun found => by
    cases found with
    | string value => exact .pure value
    | _ => exact alters_unexpected _ _

theorem alters_integerValue (handle : Handle) : (integerValue handle).Alters allows :=
  (alters_payload handle).bind fun found => by
    cases found with
    | integer value => exact .pure value
    | _ => exact alters_unexpected _ _

theorem alters_listItems (handle : Handle) : (listItems handle).Alters allows :=
  (alters_payload handle).bind fun found => by
    cases found with
    | list items => exact .pure items
    | _ => exact alters_unexpected _ _

theorem alters_mapPairs (handle : Handle) : (mapPairs handle).Alters allows :=
  (alters_payload handle).bind fun found => by
    cases found with
    | map pairs => exact .pure pairs
    | _ => exact alters_unexpected _ _

theorem alters_numeral (handle : Handle) : (numeral handle).Alters allows :=
  (alters_payload handle).bind fun found => by
    cases found with
    | integer value => exact .pure _
    | decimal value => exact .pure _
    | _ => exact alters_unexpected _ _

theorem alters_characterValue (handle : Handle) : (characterValue handle).Alters allows :=
  (alters_payload handle).bind fun found => by
    cases found with
    | character value => exact .pure value
    | _ => exact alters_unexpected _ _

theorem alters_textValue (handle : Handle) : (textValue handle).Alters allows :=
  (alters_payload handle).bind fun found => by
    cases found with
    | string value => exact .pure value
    | character value => exact .pure _
    | _ => exact alters_unexpected _ _

theorem alters_patternValue (handle : Handle) : (patternValue handle).Alters allows :=
  (alters_payload handle).bind fun found => by
    cases found with
    | regularExpression pattern => exact .pure pattern
    | _ => exact alters_unexpected _ _

theorem alters_tie (value receiver : Handle) : (tie value receiver).Alters allows := by
  intro world after ended
  refine (alters_payload value).follow (fun found middle known left => ?_) ended
  cases found with
  | lambda callable =>
      obtain ⟨untied, present, shape, rfl⟩ := value_of_payload known
      cases left
      exact (Heap.Change.add (.tied receiver present shape)).changes
  | _ => exact Alters.pure value middle after left

theorem alters_runHostResolver (resolver : HostResolver) (key : String) (receiver : Handle) :
    (runHostResolver resolver key receiver).Alters allows := by
  refine Alters.bind (.of_heap fun _ _ left => by cases left; rfl) fun _ => ?_
  cases resolver with
  | constant value => exact .pure value
  | key => exact alters_newString _
  | receiver => exact .pure receiver
  | fail => exact .fault _
  | counter => exact Alters.world.bind fun _ => alters_newInteger _

theorem alters_runResolver (resolver : Resolver) (key : String) (receiver : Handle) :
    (runResolver resolver key receiver).Alters allows := by
  cases resolver with
  | ancestors => exact (Alters.ask _).bind fun _ => alters_newList _
  | stringLength => exact (alters_stringValue receiver).bind fun _ => alters_newInteger _
  | stringCharacters =>
      exact (alters_stringValue receiver).bind fun _ =>
        (Alters.mapM fun _ _ => alters_newCharacter _).bind fun _ => alters_newList _
  | listLength => exact (alters_listItems receiver).bind fun _ => alters_newInteger _
  | mapLength => exact (alters_mapPairs receiver).bind fun _ => alters_newInteger _
  | kernelClass kernelClass => exact Alters.pure _
  | host resolver => exact alters_runHostResolver resolver key receiver

section

variable (caches : ∀ owner key, allows (.cache owner key))
include caches

theorem alters_finalize {receiver owner : Handle} {key : String} {property : Property}
    {world after : World} (stored : world.heap.Stores owner key property)
    (left : (finalize receiver owner key property world).world? = some after) :
    world.Alters allows after := by
  cases property with
  | plain value => exact alters_tie value receiver world after left
  | dynamic resolver => exact alters_runResolver resolver key receiver world after left
  | delayed resolver =>
      refine (alters_runResolver resolver key receiver).follow
        (fun value middle ended left => ?_) left
      -- No deed of the resolver has replaced the property meanwhile.
      have adds : (runResolver resolver key receiver).Alters fun _ => False :=
        alters_runResolver resolver key receiver
      have still : middle.heap.Stores owner key (.delayed resolver) :=
        (adds world middle (by rw [ended]; rfl)).stores stored id fun _ _ => id
      obtain ⟨object, found, _⟩ := id still
      rw [bind_of_value (set_apply key value found)] at left
      exact (Heap.Change.cache value still (caches owner key)).changes.trans
        (alters_tie value receiver _ after left)

theorem alters_get (receiver : Handle) (key : String) : (get receiver key).Alters allows := by
  intro world after left
  refine (Alters.ask _).follow (fun place middle asked left => ?_) left
  obtain ⟨found, rfl⟩ := ask_eq_value asked
  cases place with
  | none => exact Alters.fault _ _ after left
  | some place => exact alters_finalize caches (Heap.stores_of_findProperty found) left

end

theorem alters_receiverOf (call : Call) : (receiverOf call).Alters allows := by
  unfold receiverOf
  cases call.receiver with
  | none => exact .fail _
  | some receiver => exact .pure receiver

theorem alters_argumentOf (call : Call) (index : Nat) : (argumentOf call index).Alters allows := by
  unfold argumentOf
  cases call.arguments[index]? with
  | none => exact .fail _
  | some argument => exact .pure argument

theorem alters_arithmetic (operator : Operator) (left right : Numeral) :
    (arithmetic operator left right).Alters allows := by
  unfold arithmetic
  split
  · split
    · exact alters_newInteger _
    · exact .fault _
  · exact alters_newDecimal _

theorem alters_valueAt (wanted : Handle) (pairs : List Handle) :
    (valueAt wanted pairs).Alters allows := by
  induction pairs with
  | nil => exact .pure _
  | cons pair rest ih =>
      refine (alters_payload pair).bind fun found => ?_
      cases found with
      | keyValue key value =>
          refine (Alters.ask _).bind fun same => ?_
          cases same with
          | true => exact .pure value
          | false => exact ih
      | _ => exact ih

theorem alters_runHostMethod (method : HostMethod) (call : Call) :
    (runHostMethod method call).Alters allows := by
  cases method with
  | receiver => exact alters_receiverOf call
  | argument index => exact alters_argumentOf call index
  | fail message => exact Alters.fault _
  | collect tag => exact (alters_newString _).bind fun _ => alters_newList _

/-- Every method but the one that requires a module makes plain objects and literals only. -/
theorem alters_runMethod (evaluator : Evaluator) {method : Method} (other : method ≠ .require)
    (call : Call) : (runMethod evaluator method call).Alters allows := by
  have received : (receiverOf call).Alters allows := alters_receiverOf call
  have argued (index : Nat) : (argumentOf call index).Alters allows := alters_argumentOf call index
  cases method with
  | constant holds => exact Alters.pure _
  | itself => exact received
  | equality equal =>
      exact received.bind fun _ => (argued 0).bind fun _ => (Alters.ask _).bind fun _ => .pure _
  | negation => exact received.bind fun _ => .pure _
  | display => exact received.bind fun _ => (Alters.ask _).bind fun _ => alters_newString _
  | instantiate => exact received.bind fun _ => alters_allocate fun _ => .plain _
  | arithmetic operator =>
      exact received.bind fun _ => (alters_numeral _).bind fun _ => (argued 0).bind fun _ =>
        (alters_numeral _).bind fun _ => alters_arithmetic _ _ _
  | comparison comparison =>
      exact received.bind fun _ => (alters_numeral _).bind fun _ => (argued 0).bind fun _ =>
        (alters_numeral _).bind fun _ => .pure _
  | upperCharacter =>
      exact received.bind fun _ => (alters_characterValue _).bind fun _ => alters_newCharacter _
  | lowerCharacter =>
      exact received.bind fun _ => (alters_characterValue _).bind fun _ => alters_newCharacter _
  | upperString =>
      exact received.bind fun _ => (alters_stringValue _).bind fun _ => alters_newString _
  | lowerString =>
      exact received.bind fun _ => (alters_stringValue _).bind fun _ => alters_newString _
  | appendString =>
      exact received.bind fun _ => (alters_stringValue _).bind fun _ => (argued 0).bind fun _ =>
        (alters_textValue _).bind fun _ => alters_newString _
  | appendPattern =>
      refine received.bind fun _ => (alters_patternValue _).bind fun _ =>
        (argued 0).bind fun _ => (alters_payload _).bind fun found => ?_
      cases found with
      | regularExpression more => exact alters_newRegularExpression _
      | _ => exact (alters_textValue _).bind fun _ => alters_newRegularExpression _
  | patternText =>
      exact received.bind fun _ => (alters_patternValue _).bind fun _ => alters_newString _
  | appendList =>
      exact received.bind fun _ => (alters_listItems _).bind fun _ => (argued 0).bind fun _ =>
        (alters_listItems _).bind fun _ => alters_newList _
  | listAt =>
      exact received.bind fun _ => (alters_listItems _).bind fun _ => (argued 0).bind fun _ =>
        (alters_integerValue _).bind fun _ => .pure _
  | mapAt =>
      exact (argued 0).bind fun _ => received.bind fun _ => (alters_mapPairs _).bind fun _ =>
        alters_valueAt _ _
  | exceptionText =>
      refine received.bind fun _ => (Alters.ask _).bind fun message => ?_
      cases message with
      | some message => exact alters_newString _
      | none => exact (Alters.ask _).bind fun _ => alters_newString _
  | require => exact absurd rfl other
  | host method => exact alters_runHostMethod method call

theorem alters_integerLiteral (digits : String) : (integerLiteral digits).Alters allows := by
  unfold integerLiteral
  split
  · exact alters_newInteger _
  · exact .fault _

theorem alters_decimalLiteral (digits : String) : (decimalLiteral digits).Alters allows := by
  unfold decimalLiteral
  split
  · exact alters_newDecimal _
  · exact .fault _

theorem alters_accepts (scope : Scope) (matcher : Syntax.Name) (value : Handle) :
    (accepts scope matcher value).Alters allows := by
  refine Alters.world.bind fun world => ?_
  split
  · exact .fail _
  · refine (Alters.ask _).bind fun isClass => ?_
    split
    · exact .ask _
    · exact .ask _

theorem alters_findHandler (scope : Scope) (value : Handle) (handlers : List Syntax.Handler) :
    (findHandler scope value handlers).Alters allows := by
  induction handlers with
  | nil => exact .pure _
  | cons handler rest ih =>
      have decided (taken : Bool) : (if taken = true then (pure (some handler) : Action _)
          else findHandler scope value rest).Alters allows := by
        cases taken with
        | true => exact .pure _
        | false => exact ih
      unfold findHandler
      cases handler.matcher with
      | none => exact decided true
      | some matcher => exact (alters_accepts scope matcher value).bind decided

theorem alters_caught (completion : Completion Handle) : (caught completion).Alters allows := by
  unfold caught
  split
  · exact .pure _
  · exact (alters_newException _).bind fun _ => .pure _
  · exact .pure _

end Action

end RipInterpreter
