import RipInterpreter.Machine.KernelClass
import RipInterpreter.Scope
import RipInterpreter.Syntax.Node

namespace RipInterpreter

inductive Operator where
  | add
  | subtract
  | multiply
  | divide
  | remainder
deriving DecidableEq, Inhabited

/-- The operators that order numbers. -/
inductive Comparison where
  | less
  | greater
  | lessOrEqual
  | greaterOrEqual
deriving DecidableEq, Inhabited

/-- What a method that an embedding program provides does when it is called. -/
inductive HostMethod where
  | receiver
  | argument (index : Nat)
  | fail (message : String)
  /-- Answers with a list of its tag and its arguments. -/
  | collect (tag : String)
deriving DecidableEq, Inhabited

/-- The bodies of methods that are not written in the language. -/
inductive Method where
  | constant (holds : Bool)
  | itself
  /-- Whether its receiver equals the argument, or differs from it. -/
  | equality (equal : Bool)
  | negation
  /-- The text of its receiver as a string. -/
  | display
  | instantiate
  | arithmetic (operator : Operator)
  | comparison (comparison : Comparison)
  | upperCharacter
  | lowerCharacter
  | upperString
  | lowerString
  | appendString
  | appendPattern
  | patternText
  | appendList
  | listAt
  | mapAt
  | exceptionText
  | require
  | host (method : HostMethod)
deriving DecidableEq, Inhabited

/-- How an embedding program computes a property. Each run is counted first. -/
inductive HostResolver where
  | constant (value : Handle)
  /-- The name of the property as a string. -/
  | key
  | receiver
  | fail
  /-- The number of runs so far. -/
  | counter
deriving DecidableEq, Inhabited

inductive Resolver where
  | ancestors
  | stringLength
  | stringCharacters
  | listLength
  | mapLength
  | kernelClass (kernelClass : KernelClass)
  | host (resolver : HostResolver)
deriving DecidableEq, Inhabited

/-- How a stored property becomes a value when it is read. -/
inductive Property where
  /-- The value itself. -/
  | plain (value : Handle)
  /-- Computed on every read. -/
  | dynamic (resolver : Resolver)
  /-- Computed on the first read, and replaced by the result. -/
  | delayed (resolver : Resolver)
deriving DecidableEq, Inhabited

inductive Parameter where
  /-- Binds the argument under a name. -/
  | binding (name : String)
  /-- Accepts only arguments equal to a value. -/
  | matcher (value : Handle)
deriving DecidableEq, Inhabited

inductive Body where
  | block (block : Syntax.Block)
  | method (method : Method)

/-- Parameters with a body. -/
structure Overload where
  parameters : List Parameter
  body : Body

/-- What can be called: the scope it was made in, its overloads and, once it was read from an
object, that object. -/
structure Callable where
  closure : Scope
  overloads : List Overload
  receiver : Option Handle

/-- The data that an object carries besides its properties. -/
inductive Payload where
  | plain
  | nil
  | boolean (value : Bool)
  | integer (value : Int)
  | decimal (value : Float)
  | character (value : Char)
  | string (value : String)
  | regularExpression (pattern : String)
  | list (items : List Handle)
  /-- The entries of a map are pairs. -/
  | map (pairs : List Handle)
  | keyValue (key value : Handle)
  | range (start last : Handle) (exclusive : Bool)
  | lambda (callable : Callable)
  /-- A class with its ancestors: itself first, the root last. -/
  | classObject (name : Option String) (ancestors : List Handle)

structure Object where
  properties : Table Property
  payload : Payload

/-- The class of an object: its plain property of that name. -/
def Object.classHandle (object : Object) : Option Handle :=
  match object.properties.get? "class" with
  | some (.plain value) => some value
  | _ => none

def Object.instanceOf (parent : Handle) (payload : Payload) : Object :=
  ⟨Table.ofList [("class", .plain parent)], payload⟩

end RipInterpreter
