import RipInterpreter.Evaluation.Modules
import RipInterpreter.Number.Reading
import RipInterpreter.Number.Remainder
import RipInterpreter.Text.LetterCase

namespace RipInterpreter

inductive Numeral where
  | integer (value : Int)
  | decimal (value : Float)

def Numeral.toDecimal : Numeral → Float
  | .integer value => Float.ofInt value
  | .decimal value => value

/-- The exact result of an operator, if it is an integer in range. Quotients are truncated toward
zero; a remainder exists only if the quotient does. -/
def Operator.onIntegers (operator : Operator) (a b : Int) : Except RuntimeFault Int :=
  let checked (fits result : Int) : Except RuntimeFault Int :=
    if Number.fitsInteger fits then .ok result
    else .error (.integerOverflow a operator.name b)
  match operator with
  | .add => checked (a + b) (a + b)
  | .subtract => checked (a - b) (a - b)
  | .multiply => checked (a * b) (a * b)
  | .divide => if b = 0 then .error .divisionByZero else checked (a.tdiv b) (a.tdiv b)
  | .remainder => if b = 0 then .error .divisionByZero else checked (a.tdiv b) (a.tmod b)

/-- The result of an operator on decimals, rounded to the nearest one. -/
def Operator.onDecimals (operator : Operator) (x y : Float) : Float :=
  match operator with
  | .add => x + y
  | .subtract => x - y
  | .multiply => x * y
  | .divide => x / y
  | .remainder => Number.remainder x y

def Comparison.holds (comparison : Comparison) (x y : Float) : Bool :=
  match comparison with
  | .less => x < y
  | .greater => y < x
  | .lessOrEqual => x ≤ y
  | .greaterOrEqual => y ≤ x

/-- What a method sees of its call. -/
structure Call where
  receiver : Option Handle
  arguments : List Handle
  /-- The scope of the calling code. -/
  scope : Scope

namespace Action

def receiverOf (call : Call) : Action Handle :=
  match call.receiver with
  | some receiver => return receiver
  | none => fail (.internal .missingReceiver)

def argumentOf (call : Call) (index : Nat) : Action Handle :=
  match call.arguments[index]? with
  | some argument => return argument
  | none => fail (.internal (.missingArgument index))

def numeral (handle : Handle) : Action Numeral := do
  match ← payload handle with
  | .integer value => return .integer value
  | .decimal value => return .decimal value
  | _ => unexpected "Integer or Decimal" handle

def characterValue (handle : Handle) : Action Char := do
  match ← payload handle with
  | .character value => return value
  | _ => unexpected "Character" handle

def textValue (handle : Handle) : Action String := do
  match ← payload handle with
  | .string value => return value
  | .character value => return String.singleton value
  | _ => unexpected "String" handle

def patternValue (handle : Handle) : Action String := do
  match ← payload handle with
  | .regularExpression pattern => return pattern
  | _ => unexpected "RegularExpression" handle

/-- Integers stay integers; with a decimal on either side the result is a decimal. -/
def arithmetic (operator : Operator) (left right : Numeral) : Action Handle :=
  match left, right with
  | .integer a, .integer b =>
    match operator.onIntegers a b with
    | .ok result => newInteger result
    | .error reason => fault reason
  | _, _ => newDecimal (operator.onDecimals left.toDecimal right.toDecimal)

/-- The value of the first pair whose key equals `wanted`, or `nil`. -/
def valueAt (wanted : Handle) : List Handle → Action Handle
  | [] => return .nil
  | pair :: rest => do
    match ← payload pair with
    | .keyValue key value =>
      if ← ask fun heap => heap.equal key wanted then return value else valueAt wanted rest
    | _ => valueAt wanted rest

def runHostMethod (method : HostMethod) (call : Call) : Action Handle := do
  match method with
  | .receiver => receiverOf call
  | .argument index => argumentOf call index
  | .fail message => fault (.remark message)
  | .collect tag => newList ((← newString tag) :: call.arguments)

def runMethod (evaluator : Evaluator) (method : Method) (call : Call) : Action Handle := do
  match method with
  | .constant holds => return .ofBool holds
  | .itself => receiverOf call
  | .equality equal =>
    let receiver ← receiverOf call
    let argument ← argumentOf call 0
    let found ← ask fun heap => heap.equal receiver argument
    return .ofBool (found == equal)
  | .negation => return .ofBool ((← receiverOf call) != .trueValue)
  | .display =>
    let receiver ← receiverOf call
    newString (← ask fun heap => heap.display receiver)
  | .instantiate => allocate (.instanceOf (← receiverOf call) .plain)
  | .arithmetic operator =>
    let left ← numeral (← receiverOf call)
    let right ← numeral (← argumentOf call 0)
    arithmetic operator left right
  | .comparison comparison =>
    let left ← numeral (← receiverOf call)
    let right ← numeral (← argumentOf call 0)
    return .ofBool (comparison.holds left.toDecimal right.toDecimal)
  | .upperCharacter =>
    let c ← characterValue (← receiverOf call)
    newCharacter ((Text.upperChar c).headD c)
  | .lowerCharacter =>
    let c ← characterValue (← receiverOf call)
    newCharacter ((Text.lowerChar c).headD c)
  | .upperString => newString (Text.uppercase (← stringValue (← receiverOf call)))
  | .lowerString => newString (Text.lowercase (← stringValue (← receiverOf call)))
  | .appendString =>
    let text ← stringValue (← receiverOf call)
    newString (text ++ (← textValue (← argumentOf call 0)))
  | .appendPattern =>
    let pattern ← patternValue (← receiverOf call)
    let other ← argumentOf call 0
    match ← payload other with
    | .regularExpression more => newRegularExpression (pattern ++ more)
    | _ => newRegularExpression (pattern ++ (← textValue other))
  | .patternText => newString (← patternValue (← receiverOf call))
  | .appendList =>
    let items ← listItems (← receiverOf call)
    newList (items ++ (← listItems (← argumentOf call 0)))
  | .listAt =>
    let items ← listItems (← receiverOf call)
    let index ← integerValue (← argumentOf call 0)
    return if index < 0 then .nil else (items[index.toNat]?).getD .nil
  | .mapAt =>
    let wanted ← argumentOf call 0
    valueAt wanted (← mapPairs (← receiverOf call))
  | .exceptionText =>
    let receiver ← receiverOf call
    match ← ask fun heap => heap.messageOf receiver with
    | some message => newString message
    | none => newString (← ask fun heap => heap.inspect receiver)
  | .require =>
    let name ← stringValue (← argumentOf call 0)
    require evaluator name call.scope
  | .host method => runHostMethod method call

/-- Calls a value. `caller` is the scope of the calling code. -/
def call (evaluator : Evaluator) (value : Handle) (arguments : List Handle) (caller : Scope) :
    Action Handle := do
  match ← payload value with
  | .lambda callable =>
    match ← ask fun heap => heap.selectOverload arguments none callable.overloads with
    | none => fault (.noMatchingOverload arguments.length)
    | some (overload, _) =>
      match overload.body with
      | .method method => runMethod evaluator method ⟨callable.receiver, arguments, caller⟩
      | .block body => callBlock evaluator callable overload.parameters arguments body
  | _ =>
    let text ← ask fun heap => heap.inspect value
    fault (.notCallable text)

def send (evaluator : Evaluator) (receiver : Handle) (method : String) (arguments : List Handle)
    (caller : Scope) : Action Handle := do
  let value ← get receiver method
  call evaluator value arguments caller

end Action

end RipInterpreter
