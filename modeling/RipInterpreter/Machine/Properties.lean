import RipInterpreter.Machine.Construction

namespace RipInterpreter.Action

def payload (handle : Handle) : Action Payload := do
  return (← ask fun heap => heap.read handle).payload

/-- Ends with the error that a value of another type was expected. -/
def unexpected {α : Type} (expected : String) (found : Handle) : Action α := do
  let text ← ask fun heap => heap.inspect found
  fault (.unexpectedType expected text)

def stringValue (handle : Handle) : Action String := do
  match ← payload handle with
  | .string value => return value
  | _ => unexpected "String" handle

def integerValue (handle : Handle) : Action Int := do
  match ← payload handle with
  | .integer value => return value
  | _ => unexpected "Integer" handle

def listItems (handle : Handle) : Action (List Handle) := do
  match ← payload handle with
  | .list items => return items
  | _ => unexpected "List" handle

def mapPairs (handle : Handle) : Action (List Handle) := do
  match ← payload handle with
  | .map pairs => return pairs
  | _ => unexpected "Map" handle

/-- Ties a lambda to the object it was read from; all other values stay as they are. -/
def tie (value receiver : Handle) : Action Handle := do
  match ← payload value with
  | .lambda callable => newInstance .lambda (.lambda { callable with receiver := some receiver })
  | _ => return value

def runHostResolver (resolver : HostResolver) (key : String) (receiver : Handle) : Action Handle := do
  change fun world => { world with resolverRuns := world.resolverRuns + 1 }
  match resolver with
  | .constant value => return value
  | .key => newString key
  | .receiver => return receiver
  | .fail => fault (.remark ("cannot resolve " ++ key))
  | .counter => newInteger (← world).resolverRuns

def runResolver (resolver : Resolver) (key : String) (receiver : Handle) : Action Handle := do
  match resolver with
  | .ancestors => newList (← ask fun heap => heap.ancestors receiver)
  | .stringLength => newInteger (← stringValue receiver).length
  | .stringCharacters => newList (← (← stringValue receiver).toList.mapM newCharacter)
  | .listLength => newInteger (← listItems receiver).length
  | .mapLength => newInteger (← mapPairs receiver).length
  | .kernelClass kernelClass => return kernelClass.handle
  | .host resolver => runHostResolver resolver key receiver

/-- Turns a property that was found in `owner` into a value of the receiver. -/
def finalize (receiver owner : Handle) (key : String) (property : Property) : Action Handle := do
  match property with
  | .plain value => tie value receiver
  | .dynamic resolver => runResolver resolver key receiver
  | .delayed resolver =>
    let value ← runResolver resolver key receiver
    set owner key value
    tie value receiver

def get (receiver : Handle) (key : String) : Action Handle := do
  match ← ask fun heap => heap.findProperty receiver key with
  | some (owner, property) => finalize receiver owner key property
  | none => fault (.unknownProperty key)

/-- The error for a thrown value that no handler took. -/
def uncaught {α : Type} (value : Handle) (place : Location) : Action α := do
  let description ← match ← ask fun heap => heap.messageOf value with
    | some message => pure message
    | none => ask fun heap => heap.inspect value
  fail (.runtime (.uncaught description) (some place))

end RipInterpreter.Action
