import RipInterpreter.Parsing.Failure

/-!
Everything that can go wrong, as causes. `Error.message` is the one place that words them.

Only a `runtime` error can be caught by a program; an `internal` one would be a fault of the
interpreter itself.
-/

namespace RipInterpreter

/-- Faults found in a program without running it, or when it rebinds a name. -/
inductive CompilerFault where
  | alreadyDefined (name : String)
  | malformed (label : String)
  | unrecognized (label : String)
  | mislabelled (expected : List String) (found : String)
  | notAssignable (kind : String)
  /-- A fault in words of its own. -/
  | remark (text : String)
deriving DecidableEq, Inhabited

/-- Faults of a running program. -/
inductive RuntimeFault where
  | unknownReference (name : String)
  | unknownProperty (key : String)
  | integerOutOfRange (literal : String)
  | invalidDecimal (literal : String)
  | noMatchingCase (subject : String)
  | notCallable (callable : String)
  | noMatchingOverload (arguments : Nat)
  | unexpectedType (expected found : String)
  | notInheritable
  | divisionByZero
  | integerOverflow (left : Int) (operator : String) (right : Int)
  | circularRequire (path : String)
  | uncaught (description : String)
  /-- A fault in words of its own. -/
  | remark (text : String)
deriving DecidableEq, Inhabited

/-- Faults of the interpreter. -/
inductive InternalFault where
  | missingReceiver
  | missingArgument (index : Nat)
  | danglingHandle (index : Nat)
  | nestingExhausted
  /-- A fault in words of its own. -/
  | remark (text : String)
deriving DecidableEq, Inhabited

/-- An error with the place where it arose, as far as that is known. -/
inductive Error where
  | parse (failure : Parsing.Failure)
  | compiler (fault : CompilerFault) (location : Option Location)
  | runtime (fault : RuntimeFault) (location : Option Location)
  | missingModule (name : String) (searchPaths : List String)
  | unreadableModule (path message : String)
  | internal (fault : InternalFault)
deriving DecidableEq, Inhabited

def CompilerFault.message : CompilerFault → String
  | .alreadyDefined name => "\x60" ++ name ++ "\x60 has already been defined in this scope"
  | .malformed label => "malformed \x60" ++ label ++ "\x60 syntax"
  | .unrecognized label => "unrecognized syntax \x60" ++ label ++ "\x60"
  | .mislabelled expected found =>
    "expected " ++ " or ".intercalate expected ++ ", found \x60" ++ found ++ "\x60"
  | .notAssignable kind => "cannot assign to " ++ kind
  | .remark text => text

/-- The words for a runtime fault. They are also the message of the exception that a program
catches. -/
def RuntimeFault.message : RuntimeFault → String
  | .unknownReference name => "Unknown reference \x60" ++ name ++ "\x60"
  | .unknownProperty key => "Unknown property \x60" ++ key ++ "\x60"
  | .integerOutOfRange literal => "integer literal \x60" ++ literal ++ "\x60 is out of range"
  | .invalidDecimal literal => "invalid decimal literal \x60" ++ literal ++ "\x60"
  | .noMatchingCase subject => "no case matches " ++ subject
  | .notCallable callable => callable ++ " is not callable"
  | .noMatchingOverload arguments =>
    "no matching overload for " ++ toString arguments ++ " argument(s)"
  | .unexpectedType expected found => "expected " ++ expected ++ ", found " ++ found
  | .notInheritable => "only classes can be inherited from"
  | .divisionByZero => "division by zero"
  | .integerOverflow left operator right =>
    "integer overflow in " ++ toString left ++ " " ++ operator ++ " " ++ toString right
  | .circularRequire path => "circular require of \x60" ++ path ++ "\x60"
  | .uncaught description => "uncaught " ++ description
  | .remark text => text

def InternalFault.message : InternalFault → String
  | .missingReceiver => "native method called without a receiver"
  | .missingArgument index => "missing argument " ++ toString index
  | .danglingHandle index => "dangling object handle " ++ toString index
  | .nestingExhausted => "the grammar ran out of nesting levels"
  | .remark text => text

namespace Error

def placeText : Option Location → String
  | some place => " (at " ++ place.text ++ ")"
  | none => ""

def message : Error → String
  | .parse failure => failure.text
  | .compiler fault place => "compiler error: " ++ fault.message ++ placeText place
  | .runtime fault place => "runtime error: " ++ fault.message ++ placeText place
  | .missingModule name searchPaths =>
    let searched := if searchPaths.isEmpty then "no search paths" else ", ".intercalate searchPaths
    "load error: cannot find module \x60" ++ name ++ "\x60 (searched " ++ searched ++ ")"
  | .unreadableModule path message =>
    "load error: cannot read \x60" ++ path ++ "\x60: " ++ message
  | .internal fault => "unexpected failure, please report: " ++ fault.message

/-- Tells an error where it happened, unless it knows already. -/
def locate (error : Error) (place : Location) : Error :=
  match error with
  | .compiler fault none => .compiler fault (some place)
  | .runtime fault none => .runtime fault (some place)
  | other => other

def location : Error → Option Location
  | .parse failure => failure.location
  | .compiler _ place => place
  | .runtime _ place => place
  | _ => none

/-- Whether the interpreter is to blame rather than the program. -/
def isInternal : Error → Bool
  | .internal _ => true
  | _ => false

end Error

end RipInterpreter
