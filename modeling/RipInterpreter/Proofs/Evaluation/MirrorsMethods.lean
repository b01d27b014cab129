import RipInterpreter.Proofs.Machine.Mirrors

namespace RipInterpreter.Action

variable {α : Type} {side : Side}

theorem mirrors_payload (handle : Handle) :
    (payload handle).Mirrors side Payload.bare (payload handle) :=
  (mirrors_read handle).bind fun object => .pure Payload.bare object.payload

theorem blind_unexpected (expected : String) (found : Handle) :
    (unexpected expected found : Action α).Blind side :=
  (Blind.ask fun _ => Heap.inspect_bare).bind fun _ => .fault _

theorem blind_stringValue (handle : Handle) : (stringValue handle).Blind side :=
  (mirrors_payload handle).bind fun found => by
    cases found with
    | string value => exact Blind.pure value
    | _ => exact blind_unexpected _ _

theorem blind_integerValue (handle : Handle) : (integerValue handle).Blind side :=
  (mirrors_payload handle).bind fun found => by
    cases found with
    | integer value => exact Blind.pure value
    | _ => exact blind_unexpected _ _

theorem blind_listItems (handle : Handle) : (listItems handle).Blind side :=
  (mirrors_payload handle).bind fun found => by
    cases found with
    | list items => exact Blind.pure items
    | _ => exact blind_unexpected _ _

theorem blind_mapPairs (handle : Handle) : (mapPairs handle).Blind side :=
  (mirrors_payload handle).bind fun found => by
    cases found with
    | map pairs => exact Blind.pure pairs
    | _ => exact blind_unexpected _ _

theorem blind_numeral (handle : Handle) : (numeral handle).Blind side :=
  (mirrors_payload handle).bind fun found => by
    cases found with
    | integer value => exact Blind.pure _
    | decimal value => exact Blind.pure _
    | _ => exact blind_unexpected _ _

theorem blind_characterValue (handle : Handle) : (characterValue handle).Blind side :=
  (mirrors_payload handle).bind fun found => by
    cases found with
    | character value => exact Blind.pure value
    | _ => exact blind_unexpected _ _

theorem blind_textValue (handle : Handle) : (textValue handle).Blind side :=
  (mirrors_payload handle).bind fun found => by
    cases found with
    | string value => exact Blind.pure value
    | character value => exact Blind.pure _
    | _ => exact blind_unexpected _ _

theorem blind_patternValue (handle : Handle) : (patternValue handle).Blind side :=
  (mirrors_payload handle).bind fun found => by
    cases found with
    | regularExpression pattern => exact Blind.pure pattern
    | _ => exact blind_unexpected _ _

theorem blind_tie (value receiver : Handle) : (tie value receiver).Blind side :=
  (mirrors_payload value).bind fun found => by
    cases found with
    | lambda callable => exact mirrors_allocate _
    | _ => exact Blind.pure value

theorem blind_runHostResolver (resolver : HostResolver) (key : String) (receiver : Handle) :
    (runHostResolver resolver key receiver).Blind side := by
  refine Mirrors.bind (.change (fun _ => rfl) fun _ => rfl) fun _ => ?_
  cases resolver with
  | constant value => exact Blind.pure value
  | key => exact blind_newString key
  | receiver => exact Blind.pure receiver
  | fail => exact Blind.fault _
  | counter => exact Mirrors.bind .world fun state => blind_newInteger state.resolverRuns

theorem blind_runResolver (resolver : Resolver) (key : String) (receiver : Handle) :
    (runResolver resolver key receiver).Blind side := by
  cases resolver with
  | ancestors => exact (Blind.ask fun _ => Heap.ancestors_bare).bind blind_newList
  | stringLength => exact (blind_stringValue receiver).bind fun _ => blind_newInteger _
  | stringCharacters =>
      exact (blind_stringValue receiver).bind fun text =>
        (Blind.mapM blind_newCharacter text.toList).bind blind_newList
  | listLength => exact (blind_listItems receiver).bind fun _ => blind_newInteger _
  | mapLength => exact (blind_mapPairs receiver).bind fun _ => blind_newInteger _
  | kernelClass kernelClass => exact Blind.pure _
  | host resolver => exact blind_runHostResolver resolver key receiver

theorem blind_finalize (receiver owner : Handle) (key : String) (property : Property) :
    (finalize receiver owner key property).Blind side := by
  cases property with
  | plain value => exact blind_tie value receiver
  | dynamic resolver => exact blind_runResolver resolver key receiver
  | delayed resolver =>
      exact (blind_runResolver resolver key receiver).bind fun value =>
        (blind_set owner key value).bind fun _ => blind_tie value receiver

theorem blind_get (receiver : Handle) (key : String) : (get receiver key).Blind side :=
  (Blind.ask fun _ => Heap.findProperty_bare).bind fun found => by
    cases found with
    | none => exact Blind.fault _
    | some place => exact blind_finalize receiver place.1 key place.2

theorem mirrors_uncaught (image : α → α) (value : Handle) (place : Location) :
    (uncaught value place : Action α).Mirrors side image (uncaught value place.bare) := by
  refine Mirrors.bind (Blind.ask fun _ => Heap.messageOf_bare) fun message => ?_
  cases message with
  | some message => exact .fail image _
  | none => exact Mirrors.bind (Blind.ask fun _ => Heap.inspect_bare) fun _ => .fail image _

theorem blind_valueAt (wanted : Handle) (pairs : List Handle) :
    (valueAt wanted pairs).Blind side := by
  induction pairs with
  | nil => exact Blind.pure _
  | cons pair rest ih =>
      refine (mirrors_payload pair).bind fun found => ?_
      cases found with
      | keyValue key value =>
          refine (Blind.ask fun _ => Heap.equal_bare).bind fun same => ?_
          cases same with
          | true => exact Blind.pure value
          | false => exact ih
      | _ => exact ih

theorem blind_receiverOf (call : Call) : (receiverOf call).Blind side := by
  unfold receiverOf
  split
  · exact Blind.pure _
  · exact Mirrors.fail id _

theorem blind_argumentOf (call : Call) (index : Nat) : (argumentOf call index).Blind side := by
  unfold argumentOf
  split
  · exact Blind.pure _
  · exact Mirrors.fail id _

theorem blind_arithmetic (operator : Operator) (left right : Numeral) :
    (arithmetic operator left right).Blind side := by
  unfold arithmetic
  split
  · split
    · exact blind_newInteger _
    · exact Blind.fault _
  · exact blind_newDecimal _

theorem blind_runHostMethod (method : HostMethod) (call : Call) :
    (runHostMethod method call).Blind side := by
  cases method with
  | receiver => exact blind_receiverOf call
  | argument index => exact blind_argumentOf call index
  | fail message => exact Blind.fault _
  | collect tag => exact (blind_newString tag).bind fun text => blind_newList _

/-- Every method but the one that requires a module, whatever evaluates nodes. -/
theorem mirrors_runMethod {method : Method} (evaluator evaluator₁ : Evaluator)
    (other : method ≠ .require) (call : Call) :
    (runMethod evaluator method call).Mirrors side id (runMethod evaluator₁ method call) := by
  have received : (receiverOf call).Blind side := blind_receiverOf call
  have argued : (argumentOf call 0).Blind side := blind_argumentOf call 0
  cases method with
  | constant holds => exact Blind.pure _
  | itself => exact received
  | equality equal =>
      exact received.bind fun _ => argued.bind fun _ => (Blind.ask fun _ => Heap.equal_bare).bind
        fun _ => Blind.pure _
  | negation => exact received.bind fun _ => Blind.pure _
  | display =>
      exact received.bind fun _ => (Blind.ask fun _ => Heap.display_bare).bind blind_newString
  | instantiate => exact received.bind fun _ => mirrors_allocate _
  | arithmetic operator =>
      exact received.bind fun _ => (blind_numeral _).bind fun _ => argued.bind fun _ =>
        (blind_numeral _).bind fun _ => blind_arithmetic operator _ _
  | comparison comparison =>
      exact received.bind fun _ => (blind_numeral _).bind fun _ => argued.bind fun _ =>
        (blind_numeral _).bind fun _ => Blind.pure _
  | upperCharacter =>
      exact received.bind fun _ => (blind_characterValue _).bind fun _ => blind_newCharacter _
  | lowerCharacter =>
      exact received.bind fun _ => (blind_characterValue _).bind fun _ => blind_newCharacter _
  | upperString =>
      exact received.bind fun _ => (blind_stringValue _).bind fun _ => blind_newString _
  | lowerString =>
      exact received.bind fun _ => (blind_stringValue _).bind fun _ => blind_newString _
  | appendString =>
      exact received.bind fun _ => (blind_stringValue _).bind fun _ => argued.bind fun _ =>
        (blind_textValue _).bind fun _ => blind_newString _
  | appendPattern =>
      refine received.bind fun _ => (blind_patternValue _).bind fun _ => argued.bind fun other =>
        (mirrors_payload other).bind fun found => ?_
      cases found with
      | regularExpression more => exact blind_newRegularExpression _
      | _ => exact (blind_textValue other).bind fun _ => blind_newRegularExpression _
  | patternText =>
      exact received.bind fun _ => (blind_patternValue _).bind fun _ => blind_newString _
  | appendList =>
      exact received.bind fun _ => (blind_listItems _).bind fun _ => argued.bind fun _ =>
        (blind_listItems _).bind fun _ => blind_newList _
  | listAt =>
      exact received.bind fun _ => (blind_listItems _).bind fun _ => argued.bind fun _ =>
        (blind_integerValue _).bind fun _ => Blind.pure _
  | mapAt =>
      exact argued.bind fun wanted => received.bind fun _ => (blind_mapPairs _).bind fun pairs =>
        blind_valueAt wanted pairs
  | exceptionText =>
      refine received.bind fun _ => (Blind.ask fun _ => Heap.messageOf_bare).bind fun message => ?_
      cases message with
      | some message => exact blind_newString message
      | none => exact (Blind.ask fun _ => Heap.inspect_bare).bind blind_newString
  | require => exact absurd rfl other
  | host method => exact blind_runHostMethod method call

end RipInterpreter.Action
