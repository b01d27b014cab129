import RipInterpreter.Proofs.Machine.Orderly

namespace RipInterpreter.Action

variable {α : Type} {world : World} {handle : Handle} {expected : α → World → Prop}

/-- The payload of an object mentions objects that exist. -/
theorem finds_payload (tidy : world.Tidy) (handle : Handle) :
    (payload handle).Finds world fun found => ∀ value ∈ found.mentions, world.heap.Holds value :=
  (finds_ask _).bind fun object read => Finds.pure
    (tidy.heap.objects handle object (Heap.get?_of_read read)).payload

theorem orderly_unexpected (wanted : String) (handle : Handle) :
    (unexpected wanted handle : Action α).Orderly world expected :=
  (finds_ask _).bind fun _ _ => .fault _

section

variable (tidy : world.Tidy)
include tidy

theorem finds_stringValue (handle : Handle) : (stringValue handle).Finds world fun _ => True := by
  refine (finds_payload tidy handle).bind fun found _ => ?_
  cases found with
  | string value => exact Finds.pure trivial
  | _ => exact orderly_unexpected _ _

theorem finds_integerValue (handle : Handle) : (integerValue handle).Finds world fun _ => True := by
  refine (finds_payload tidy handle).bind fun found _ => ?_
  cases found with
  | integer value => exact Finds.pure trivial
  | _ => exact orderly_unexpected _ _

theorem finds_listItems (handle : Handle) :
    (listItems handle).Finds world fun items => ∀ item ∈ items, world.heap.Holds item := by
  refine (finds_payload tidy handle).bind fun found known => ?_
  cases found with
  | list items => exact Finds.pure known
  | _ => exact orderly_unexpected _ _

theorem finds_mapPairs (handle : Handle) :
    (mapPairs handle).Finds world fun pairs => ∀ pair ∈ pairs, world.heap.Holds pair := by
  refine (finds_payload tidy handle).bind fun found known => ?_
  cases found with
  | map pairs => exact Finds.pure known
  | _ => exact orderly_unexpected _ _

theorem finds_numeral (handle : Handle) : (numeral handle).Finds world fun _ => True := by
  refine (finds_payload tidy handle).bind fun found _ => ?_
  cases found with
  | integer value => exact Finds.pure trivial
  | decimal value => exact Finds.pure trivial
  | _ => exact orderly_unexpected _ _

theorem finds_characterValue (handle : Handle) :
    (characterValue handle).Finds world fun _ => True := by
  refine (finds_payload tidy handle).bind fun found _ => ?_
  cases found with
  | character value => exact Finds.pure trivial
  | _ => exact orderly_unexpected _ _

theorem finds_textValue (handle : Handle) : (textValue handle).Finds world fun _ => True := by
  refine (finds_payload tidy handle).bind fun found _ => ?_
  cases found with
  | string value => exact Finds.pure trivial
  | character value => exact Finds.pure trivial
  | _ => exact orderly_unexpected _ _

theorem finds_patternValue (handle : Handle) : (patternValue handle).Finds world fun _ => True := by
  refine (finds_payload tidy handle).bind fun found _ => ?_
  cases found with
  | regularExpression pattern => exact Finds.pure trivial
  | _ => exact orderly_unexpected _ _

theorem hands_tie {value receiver : Handle} (held : world.heap.Holds value)
    (present : world.heap.Holds receiver) : (tie value receiver).Hands world := by
  refine (finds_payload tidy value).bind fun found known => ?_
  cases found with
  | lambda callable =>
      refine hands_newInstance .lambda tidy fun other inside => ?_
      rcases List.mem_append.mp inside with tied | compared
      · cases Option.mem_toList.mp tied
        exact present
      · exact known other (List.mem_append_right _ compared)
  | _ => exact .pure held

theorem hands_runHostResolver {resolver : HostResolver} {receiver : Handle} (key : String)
    (held : world.heap.Holds receiver)
    (known : ∀ value ∈ (Property.dynamic (.host resolver)).mentions, world.heap.Holds value) :
    (runHostResolver resolver key receiver).Hands world := by
  refine .bind tidy (.change .resolve rfl) fun _ after ran tidy _ => ?_
  cases resolver with
  | constant value => exact .pure (ran.holds (known value List.mem_cons_self))
  | key => exact hands_newString key tidy
  | receiver => exact .pure (ran.holds held)
  | fail => exact .fault _
  | counter => exact finds_world.bind fun _ _ => hands_newInteger _ tidy

theorem hands_runResolver {resolver : Resolver} {receiver : Handle} (key : String)
    (held : world.heap.Holds receiver)
    (known : ∀ value ∈ (Property.dynamic resolver).mentions, world.heap.Holds value) :
    (runResolver resolver key receiver).Hands world := by
  cases resolver with
  | ancestors =>
      refine (finds_answer (Heap.answers_ancestors held)).bind fun ancestors inherited =>
        hands_newList tidy fun ancestor inside => ?_
      rcases inherited ancestor inside with rfl | inherits
      · exact held
      · exact inherits.holds tidy.heap
  | stringLength =>
      exact (finds_stringValue tidy receiver).bind fun _ _ => hands_newInteger _ tidy
  | stringCharacters =>
      refine (finds_stringValue tidy receiver).bind fun text _ => ?_
      exact .bind tidy (Hands.mapM tidy fun _ _ _ _ tidy => hands_simple .character tidy rfl)
        fun _ _ _ tidy made => hands_newList tidy made
  | listLength => exact (finds_listItems tidy receiver).bind fun _ _ => hands_newInteger _ tidy
  | mapLength => exact (finds_mapPairs tidy receiver).bind fun _ _ => hands_newInteger _ tidy
  | kernelClass kernelClass => exact .pure (tidy.heap.kernelClass kernelClass)
  | host resolver => exact hands_runHostResolver tidy key held known

theorem hands_finalize {receiver owner : Handle} {key : String} {property : Property}
    (held : world.heap.Holds receiver) (stored : world.heap.Stores owner key property) :
    (finalize receiver owner key property).Hands world := by
  obtain ⟨object, found, present⟩ := stored
  have known := (tidy.heap.objects owner object found).properties key property present
  cases property with
  | plain value => exact hands_tie tidy (known value List.mem_cons_self) held
  | dynamic resolver => exact hands_runResolver tidy key held known
  | delayed resolver =>
      have known : ∀ value ∈ (Property.dynamic resolver).mentions, world.heap.Holds value := by
        cases resolver with
        | host resolver => cases resolver <;> exact known
        | _ => exact known
      refine .bind tidy (hands_runResolver tidy key held known) fun value middle ran tidy made => ?_
      refine .bind tidy (orderly_set owner key made) fun _ after more tidy _ => ?_
      exact hands_tie tidy (more.holds made) ((ran.trans more).holds held)

theorem hands_get {receiver : Handle} (key : String) (held : world.heap.Holds receiver) :
    (get receiver key).Hands world := by
  refine (finds_answer (Heap.answers_findProperty tidy.heap key held)).bind fun found known => ?_
  cases found with
  | none => exact .fault _
  | some place => exact hands_finalize tidy held (known place.1 place.2 rfl)

theorem hands_valueAt (wanted : Handle) (pairs : List Handle) :
    (valueAt wanted pairs).Hands world := by
  induction pairs with
  | nil => exact .pure tidy.heap.nil
  | cons pair rest ih =>
      refine (finds_payload tidy pair).bind fun found known => ?_
      cases found with
      | keyValue key value =>
          refine (finds_ask _).bind fun same _ => ?_
          split
          · exact .pure (known value (List.mem_cons_of_mem key List.mem_cons_self))
          · exact ih
      | _ => exact ih

end

theorem orderly_uncaught (value : Handle) (place : Location) :
    (uncaught value place : Action α).Orderly world expected := by
  refine (finds_ask _).bind fun message _ => ?_
  cases message with
  | some message => exact .fail _
  | none => exact (finds_ask _).bind fun _ _ => .fail _

/-- What a call hands to a method exists. -/
structure Known (call : Call) (heap : Heap) : Prop where
  receiver : ∀ receiver, call.receiver = some receiver → heap.Holds receiver
  arguments : ∀ argument ∈ call.arguments, heap.Holds argument

theorem finds_receiverOf {call : Call} (known : Known call world.heap) :
    (receiverOf call).Finds world world.heap.Holds := by
  unfold receiverOf
  split
  · exact Finds.pure (known.receiver _ ‹_›)
  · exact .fail _

theorem finds_argumentOf {call : Call} (known : Known call world.heap) (index : Nat) :
    (argumentOf call index).Finds world world.heap.Holds := by
  unfold argumentOf
  split
  · exact Finds.pure (known.arguments _ (List.mem_of_getElem? ‹_›))
  · exact .fail _

theorem hands_runHostMethod (method : HostMethod) {call : Call} (tidy : world.Tidy)
    (known : Known call world.heap) : (runHostMethod method call).Hands world := by
  cases method with
  | receiver => exact (finds_receiverOf known).mono fun _ _ ⟨same, held⟩ => same ▸ held
  | argument index => exact (finds_argumentOf known index).mono fun _ _ ⟨same, held⟩ => same ▸ held
  | fail message => exact .fault _
  | collect tag =>
      refine .bind tidy (hands_newString tag tidy) fun text after ran tidy made => ?_
      refine hands_newList tidy fun item inside => ?_
      rcases List.mem_cons.mp inside with rfl | given
      · exact made
      · exact ran.holds (known.arguments item given)

/-- Every method but the one that requires a module. -/
theorem hands_runMethod {method : Method} {call : Call} (evaluator : Evaluator)
    (other : method ≠ .require) (tidy : world.Tidy) (known : Known call world.heap) :
    (runMethod evaluator method call).Hands world := by
  have received := finds_receiverOf known
  have argued := finds_argumentOf known 0
  have truth := tidy.heap.ofBool
  cases method with
  | constant holds => exact .pure (truth holds)
  | itself => exact received.mono fun _ _ ⟨same, held⟩ => same ▸ held
  | equality equal =>
      exact received.bind fun _ _ => argued.bind fun _ _ => (finds_ask _).bind fun _ _ =>
        .pure (truth _)
  | negation => exact received.bind fun _ _ => .pure (truth _)
  | display =>
      exact received.bind fun _ _ => (finds_ask _).bind fun _ _ => hands_newString _ tidy
  | instantiate =>
      exact received.bind fun _ held => hands_instance held fun _ inside => nomatch inside
  | arithmetic operator =>
      refine received.bind fun _ _ => (finds_numeral tidy _).bind fun _ _ => argued.bind
        fun _ _ => (finds_numeral tidy _).bind fun _ _ => ?_
      unfold arithmetic
      split
      · split
        · exact hands_newInteger _ tidy
        · exact .fault _
      · exact hands_simple .decimal tidy rfl
  | comparison comparison =>
      exact received.bind fun _ _ => (finds_numeral tidy _).bind fun _ _ => argued.bind
        fun _ _ => (finds_numeral tidy _).bind fun _ _ => .pure (truth _)
  | upperCharacter =>
      exact received.bind fun _ _ => (finds_characterValue tidy _).bind fun _ _ =>
        hands_simple .character tidy rfl
  | lowerCharacter =>
      exact received.bind fun _ _ => (finds_characterValue tidy _).bind fun _ _ =>
        hands_simple .character tidy rfl
  | upperString =>
      exact received.bind fun _ _ => (finds_stringValue tidy _).bind fun _ _ =>
        hands_newString _ tidy
  | lowerString =>
      exact received.bind fun _ _ => (finds_stringValue tidy _).bind fun _ _ =>
        hands_newString _ tidy
  | appendString =>
      exact received.bind fun _ _ => (finds_stringValue tidy _).bind fun _ _ => argued.bind
        fun _ _ => (finds_textValue tidy _).bind fun _ _ => hands_newString _ tidy
  | appendPattern =>
      refine received.bind fun _ _ => (finds_patternValue tidy _).bind fun _ _ => argued.bind
        fun other _ => (finds_payload tidy other).bind fun found _ => ?_
      cases found with
      | regularExpression more => exact hands_simple .regularExpression tidy rfl
      | _ =>
          exact (finds_textValue tidy other).bind fun _ _ =>
            hands_simple .regularExpression tidy rfl
  | patternText =>
      exact received.bind fun _ _ => (finds_patternValue tidy _).bind fun _ _ =>
        hands_newString _ tidy
  | appendList =>
      refine received.bind fun _ _ => (finds_listItems tidy _).bind fun items held => argued.bind
        fun _ _ => (finds_listItems tidy _).bind fun more present =>
          hands_newList tidy fun item inside => ?_
      rcases List.mem_append.mp inside with first | second
      · exact held item first
      · exact present item second
  | listAt =>
      refine received.bind fun _ _ => (finds_listItems tidy _).bind fun items held => argued.bind
        fun _ _ => (finds_integerValue tidy _).bind fun index _ => .pure ?_
      split
      · exact tidy.heap.nil
      · cases found : items[index.toNat]? with
        | none => exact tidy.heap.nil
        | some item => exact held item (List.mem_of_getElem? found)
  | mapAt =>
      exact argued.bind fun wanted _ => received.bind fun _ _ => (finds_mapPairs tidy _).bind
        fun pairs _ => hands_valueAt tidy wanted pairs
  | exceptionText =>
      refine received.bind fun _ _ => (finds_ask _).bind fun message _ => ?_
      cases message with
      | some message => exact hands_newString _ tidy
      | none => exact (finds_ask _).bind fun _ _ => hands_newString _ tidy
  | require => exact absurd rfl other
  | host method => exact hands_runHostMethod method tidy known

end RipInterpreter.Action
