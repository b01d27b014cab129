import RipInterpreter.Proofs.Machine.Lawful

namespace RipInterpreter

/-- The call provides everything that the method reads. -/
structure Call.Complete (call : Call) (method : Method) (heap : Heap) : Prop where
  receiver : ∃ receiver, call.receiver = some receiver ∧ heap.Proper receiver
  arity : method.arity = some call.arguments.length
  arguments : ∀ argument ∈ call.arguments, heap.Proper argument

theorem Heap.answers_chosen {heap : Heap} {callable : Callable} {arguments : List Handle}
    (sound : heap.Sound) (fits : heap.SoundCallable callable)
    (given : ∀ argument ∈ arguments, heap.Proper argument) :
    Answers (heap.selectOverload arguments none callable.overloads) fun selected =>
      ∀ overload literals, selected = some (overload, literals) →
        overload ∈ callable.overloads ∧ overload.parameters.length = arguments.length :=
  answers_selectOverload sound (fun argument inside => (given argument inside).holds)
    (fun overload inside value matched => ((fits.overloads overload inside).matchers value
      matched).holds)
    (fun _ _ same => nomatch same) fun _ inside count => ⟨inside, count⟩

/-- A lambda that is ready belongs to an object if a method of the kernel is behind it, and the
overload that is chosen takes the arguments that there are. -/
theorem Call.complete_of_chosen {heap : Heap} {callable : Callable} {parameters : List Parameter}
    {method : Method} {arguments : List Handle} (fits : heap.SoundCallable callable)
    (ready : callable.Ready)
    (chosen : ⟨parameters, .method method⟩ ∈ callable.overloads ∧
      parameters.length = arguments.length)
    (given : ∀ argument ∈ arguments, heap.Proper argument) (caller : Scope) :
    Call.Complete ⟨callable.receiver, arguments, caller⟩ method heap := by
  obtain ⟨inside, count⟩ := chosen
  refine ⟨?_, count ▸ (fits.overloads _ inside).methods method rfl, given⟩
  cases tied : callable.receiver with
  | none =>
      obtain ⟨block, written⟩ := ready tied _ inside
      cases written
  | some receiver => exact ⟨receiver, rfl, fits.receiver receiver tied⟩

/-- Whenever the call of a value picks a method of the kernel, the call is complete. -/
def Heap.CompletesCalls (heap : Heap) : Prop :=
  ∀ value object callable arguments parameters method literals caller,
    heap.Proper value → heap.get? value = some object → object.payload = .lambda callable →
    (∀ argument ∈ arguments, heap.Proper argument) →
    heap.selectOverload arguments none callable.overloads =
      .ok (some (⟨parameters, .method method⟩, literals)) →
    Call.Complete ⟨callable.receiver, arguments, caller⟩ method heap

theorem Heap.Sound.completesCalls {heap : Heap} (sound : heap.Sound) : heap.CompletesCalls := by
  intro value object callable arguments parameters method literals caller proper found shape given
    selected
  obtain ⟨_, stored, ready⟩ := proper
  cases found.symm.trans stored
  rw [shape] at ready
  have fits := (sound.objects value object found).callable callable shape
  obtain ⟨answer, answered, known⟩ := answers_chosen sound fits given
  cases selected.symm.trans answered
  exact Call.complete_of_chosen fits ready (known _ literals rfl) given caller

namespace Action

variable {α : Type} {world : World} {handle : Handle} {expected : α → World → Prop}

theorem reads_payload (held : world.heap.Holds handle) :
    (payload handle).Reads world fun found =>
      ∃ object, world.heap.get? handle = some object ∧ object.payload = found :=
  (reads_ask (Heap.answers_read held)).bind fun object found => Reads.pure ⟨object, found, rfl⟩

theorem lawful_unexpected (sound : world.SoundState) (held : world.heap.Holds handle)
    (wanted : String) : (unexpected wanted handle : Action α).Lawful world expected :=
  (reads_ask (Heap.answers_inspect sound.heap held)).bind fun _ _ => .fault _

section

variable (sound : world.SoundState) (held : world.heap.Holds handle)
include sound held

theorem reads_stringValue : (stringValue handle).Reads world fun _ => True := by
  refine (reads_payload held).bind fun found _ => ?_
  cases found with
  | string value => exact Reads.pure trivial
  | _ => exact lawful_unexpected sound held _

theorem reads_integerValue : (integerValue handle).Reads world fun _ => True := by
  refine (reads_payload held).bind fun found _ => ?_
  cases found with
  | integer value => exact Reads.pure trivial
  | _ => exact lawful_unexpected sound held _

theorem reads_listItems :
    (listItems handle).Reads world fun items => ∀ item ∈ items, world.heap.Proper item := by
  refine (reads_payload held).bind fun found ⟨object, stored, shape⟩ => ?_
  cases found with
  | list items =>
      have fits := (sound.heap.objects handle object stored).contents
      rw [shape] at fits
      exact Reads.pure fun item inside => (fits item inside).1
  | _ => exact lawful_unexpected sound held _

theorem reads_mapPairs :
    (mapPairs handle).Reads world fun pairs => ∀ pair ∈ pairs, world.heap.Proper pair := by
  refine (reads_payload held).bind fun found ⟨object, stored, shape⟩ => ?_
  cases found with
  | map pairs =>
      have fits := (sound.heap.objects handle object stored).contents
      rw [shape] at fits
      exact Reads.pure fun item inside => (fits item inside).1
  | _ => exact lawful_unexpected sound held _

theorem reads_numeral : (numeral handle).Reads world fun _ => True := by
  refine (reads_payload held).bind fun found _ => ?_
  cases found with
  | integer value => exact Reads.pure trivial
  | decimal value => exact Reads.pure trivial
  | _ => exact lawful_unexpected sound held _

theorem reads_characterValue : (characterValue handle).Reads world fun _ => True := by
  refine (reads_payload held).bind fun found _ => ?_
  cases found with
  | character value => exact Reads.pure trivial
  | _ => exact lawful_unexpected sound held _

theorem reads_textValue : (textValue handle).Reads world fun _ => True := by
  refine (reads_payload held).bind fun found _ => ?_
  cases found with
  | string value => exact Reads.pure trivial
  | character value => exact Reads.pure trivial
  | _ => exact lawful_unexpected sound held _

theorem reads_patternValue : (patternValue handle).Reads world fun _ => True := by
  refine (reads_payload held).bind fun found _ => ?_
  cases found with
  | regularExpression pattern => exact Reads.pure trivial
  | _ => exact lawful_unexpected sound held _

/-- Whatever a program reads from an object is ready to be called. -/
theorem gives_tie {receiver : Handle} (proper : world.heap.Proper receiver) :
    (tie handle receiver).Gives world := by
  refine (reads_payload held).bind fun found ⟨object, stored, shape⟩ => ?_
  cases found with
  | lambda callable =>
      have fits := (sound.heap.objects handle object stored).callable callable shape
      refine gives_allocate (.lambda (fun untied => nomatch untied) ⟨?_, fits.overloads⟩)
      rintro _ ⟨⟩
      exact proper
  | _ => exact .pure ⟨object, stored, shape ▸ trivial⟩

end

theorem gives_runResolver {resolver : Resolver} {receiver : Handle} (key : String)
    (sound : world.SoundState) (proper : world.heap.Proper receiver)
    (native : (Property.dynamic resolver).OfKernel) :
    (runResolver resolver key receiver).Gives world := by
  cases resolver with
  | ancestors =>
      refine (reads_ask (Heap.answers_ancestors proper.holds)).bind
        fun ancestors known => gives_newList fun ancestor inside => ?_
      rcases known ancestor inside with rfl | inherits
      · exact proper
      · exact inherits.proper sound.heap
  | stringLength =>
      exact (reads_stringValue sound proper.holds).bind fun _ _ => gives_newInteger _
  | stringCharacters =>
      refine (reads_stringValue sound proper.holds).bind fun text _ => ?_
      exact .bind sound (Gives.mapM sound fun _ _ _ _ _ => gives_newCharacter _)
        fun _ _ _ _ made => gives_newList made
  | listLength => exact (reads_listItems sound proper.holds).bind fun _ _ => gives_newInteger _
  | mapLength => exact (reads_mapPairs sound proper.holds).bind fun _ _ => gives_newInteger _
  | kernelClass kernelClass => exact .pure (sound.heap.kernelClass kernelClass)
  | host resolver => exact native.elim

theorem gives_finalize {receiver owner : Handle} {key : String} {property : Property}
    (sound : world.SoundState) (proper : world.heap.Proper receiver)
    (stored : world.heap.Stores owner key property) :
    (finalize receiver owner key property).Gives world := by
  obtain ⟨object, found, present⟩ := stored
  have fits := sound.heap.objects owner object found
  cases property with
  | plain value => exact gives_tie sound (fits.stored key value present) proper
  | dynamic resolver => exact gives_runResolver key sound proper (fits.computed key _ present)
  | delayed resolver =>
      have native : (Property.dynamic resolver).OfKernel := by
        have known := fits.computed key _ present
        cases resolver <;> trivial
      refine .bind sound (gives_runResolver key sound proper native)
        fun value middle leads sound made => ?_
      refine .bind sound (lawful_set key (leads.grows.holds ⟨object, found⟩) made)
        fun _ after more sound _ => ?_
      exact gives_tie sound (more.proper made).holds ((leads.trans more).proper proper)

theorem gives_get {receiver : Handle} (key : String) (sound : world.SoundState)
    (proper : world.heap.Proper receiver) : (get receiver key).Gives world := by
  refine (reads_ask (Heap.answers_findProperty sound.heap key proper.holds)).bind
    fun found known => ?_
  cases found with
  | none => exact .fault _
  | some place => exact gives_finalize sound proper (known place.1 place.2 rfl)

theorem lawful_uncaught (sound : world.SoundState) (held : world.heap.Holds handle)
    (place : Location) :
    (uncaught handle place : Action α).Lawful world expected := by
  refine (reads_ask (Heap.answers_messageOf sound.heap held)).bind fun message _ => ?_
  cases message with
  | some message => exact .fail rfl
  | none => exact (reads_ask (Heap.answers_inspect sound.heap held)).bind fun _ _ => .fail rfl

theorem gives_valueAt {wanted : Handle} {pairs : List Handle} (sound : world.SoundState)
    (proper : world.heap.Proper wanted) (held : ∀ pair ∈ pairs, world.heap.Proper pair) :
    (valueAt wanted pairs).Gives world := by
  induction pairs with
  | nil => exact .pure sound.heap.nil
  | cons pair rest ih =>
      have later := ih fun other inside => held other (List.mem_cons_of_mem pair inside)
      refine (reads_payload (held pair List.mem_cons_self).holds).bind
        fun found ⟨object, stored, shape⟩ => ?_
      cases found with
      | keyValue key value =>
          have fits := (sound.heap.objects pair object stored).contents
          rw [shape] at fits
          have key_proper := (fits key List.mem_cons_self).1
          refine (reads_ask (Heap.answers_equal sound.heap key_proper.holds proper.holds)).bind
            fun same _ => ?_
          split
          · exact .pure (fits value (List.mem_cons_of_mem key List.mem_cons_self)).1
          · exact later
      | _ => exact later

/-- Every method of the kernel but the one that requires a module. -/
theorem gives_runMethod {method : Method} {call : Call} (evaluator : Evaluator)
    (other : method ≠ .require) (sound : world.SoundState)
    (complete : call.Complete method world.heap) :
    (runMethod evaluator method call).Gives world := by
  obtain ⟨⟨receiver, tied, proper⟩, arity, fine⟩ := complete
  have received : (receiverOf call).Reads world (· = receiver) := by
    unfold receiverOf
    rw [tied]
    exact Reads.pure rfl
  have argued (one : method.arity = some 1) :
      (argumentOf call 0).Reads world world.heap.Proper := by
    have count : call.arguments.length = 1 := Option.some.inj (arity.symm.trans one)
    obtain ⟨argument, single⟩ := List.length_eq_one_iff.mp count
    unfold argumentOf
    rw [single]
    exact Reads.pure (fine argument (single ▸ List.mem_cons_self))
  have truth := sound.heap.ofBool
  cases method with
  | constant holds => exact .pure (truth holds)
  | itself => exact received.mono fun _ _ _ ⟨same, found⟩ => same ▸ found ▸ proper
  | equality equal =>
      refine received.bind fun _ same => (argued rfl).bind fun argument given => ?_
      exact (reads_ask (Heap.answers_equal sound.heap (same ▸ proper.holds) given.holds)).bind
        fun _ _ => .pure (truth _)
  | negation => exact received.bind fun _ _ => .pure (truth _)
  | display =>
      refine received.bind fun _ same => ?_
      exact (reads_ask (Heap.answers_display sound.heap (same ▸ proper.holds))).bind
        fun _ _ => gives_newString _
  | instantiate =>
      exact received.bind fun _ same => gives_allocate (.object (same ▸ proper))
  | arithmetic operator =>
      refine received.bind fun _ same => (reads_numeral sound (same ▸ proper.holds)).bind
        fun left _ => (argued rfl).bind fun _ given =>
          (reads_numeral sound given.holds).bind fun right _ => ?_
      unfold arithmetic
      split
      · split
        · exact gives_newInteger _
        · exact .fault _
      · exact gives_newDecimal _
  | comparison comparison =>
      exact received.bind fun _ same => (reads_numeral sound (same ▸ proper.holds)).bind
        fun _ _ => (argued rfl).bind fun _ given => (reads_numeral sound given.holds).bind
          fun _ _ => .pure (truth _)
  | upperCharacter =>
      exact received.bind fun _ same =>
        (reads_characterValue sound (same ▸ proper.holds)).bind fun _ _ => gives_newCharacter _
  | lowerCharacter =>
      exact received.bind fun _ same =>
        (reads_characterValue sound (same ▸ proper.holds)).bind fun _ _ => gives_newCharacter _
  | upperString =>
      exact received.bind fun _ same =>
        (reads_stringValue sound (same ▸ proper.holds)).bind fun _ _ => gives_newString _
  | lowerString =>
      exact received.bind fun _ same =>
        (reads_stringValue sound (same ▸ proper.holds)).bind fun _ _ => gives_newString _
  | appendString =>
      exact received.bind fun _ same => (reads_stringValue sound (same ▸ proper.holds)).bind
        fun _ _ => (argued rfl).bind fun _ given => (reads_textValue sound given.holds).bind
          fun _ _ => gives_newString _
  | appendPattern =>
      refine received.bind fun _ same => (reads_patternValue sound (same ▸ proper.holds)).bind
        fun _ _ => (argued rfl).bind fun other given => (reads_payload given.holds).bind
          fun found _ => ?_
      cases found with
      | regularExpression more => exact gives_newRegularExpression _
      | _ =>
          exact (reads_textValue sound given.holds).bind fun _ _ => gives_newRegularExpression _
  | patternText =>
      exact received.bind fun _ same =>
        (reads_patternValue sound (same ▸ proper.holds)).bind fun _ _ => gives_newString _
  | appendList =>
      refine received.bind fun _ same => (reads_listItems sound (same ▸ proper.holds)).bind
        fun items held => (argued rfl).bind fun _ given => (reads_listItems sound given.holds).bind
          fun more present => gives_newList fun item inside => ?_
      rcases List.mem_append.mp inside with first | second
      · exact held item first
      · exact present item second
  | listAt =>
      refine received.bind fun _ same => (reads_listItems sound (same ▸ proper.holds)).bind
        fun items held => (argued rfl).bind fun _ given =>
          (reads_integerValue sound given.holds).bind fun index _ => .pure ?_
      split
      · exact sound.heap.nil
      · cases found : items[index.toNat]? with
        | none => exact sound.heap.nil
        | some item => exact held item (List.mem_of_getElem? found)
  | mapAt =>
      exact (argued rfl).bind fun wanted given => received.bind fun _ same =>
        (reads_mapPairs sound (same ▸ proper.holds)).bind fun pairs held =>
          gives_valueAt sound given held
  | exceptionText =>
      refine received.bind fun _ same =>
        (reads_ask (Heap.answers_messageOf sound.heap (same ▸ proper.holds))).bind
          fun message _ => ?_
      cases message with
      | some message => exact gives_newString _
      | none =>
          exact (reads_ask (Heap.answers_inspect sound.heap (same ▸ proper.holds))).bind
            fun _ _ => gives_newString _
  | require => exact absurd rfl other
  | host method => cases arity

end Action

end RipInterpreter
