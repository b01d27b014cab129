namespace RipInterpreter

/-- The number of an object of a machine. Objects are never moved or removed. -/
structure Handle where
  index : Nat
deriving DecidableEq, Inhabited

/-- The classes that every machine starts with. -/
inductive KernelClass where
  | object
  | boolean
  | classClass
  | lambda
  | nil
  | integer
  | decimal
  | character
  | string
  | regularExpression
  | list
  | map
  | keyValue
  | range
  | exception
  | system
deriving DecidableEq, Inhabited

namespace KernelClass

def all : List KernelClass :=
  [.object, .boolean, .classClass, .lambda, .nil, .integer, .decimal, .character, .string,
    .regularExpression, .list, .map, .keyValue, .range, .exception, .system]

def name : KernelClass → String
  | .object => "Object"
  | .boolean => "Boolean"
  | .classClass => "Class"
  | .lambda => "Lambda"
  | .nil => "Nil"
  | .integer => "Integer"
  | .decimal => "Decimal"
  | .character => "Character"
  | .string => "String"
  | .regularExpression => "RegularExpression"
  | .list => "List"
  | .map => "Map"
  | .keyValue => "KeyValue"
  | .range => "Range"
  | .exception => "Exception"
  | .system => "System"

/-- The place of a kernel class in the order. -/
def number : KernelClass → Nat
  | .object => 0
  | .boolean => 1
  | .classClass => 2
  | .lambda => 3
  | .nil => 4
  | .integer => 5
  | .decimal => 6
  | .character => 7
  | .string => 8
  | .regularExpression => 9
  | .list => 10
  | .map => 11
  | .keyValue => 12
  | .range => 13
  | .exception => 14
  | .system => 15

/-- The object with the properties that instances of a kernel class inherit. -/
def prototype (kernelClass : KernelClass) : Handle := ⟨2 * kernelClass.number⟩

/-- The class object of a kernel class, which comes right after its prototype. -/
def handle (kernelClass : KernelClass) : Handle := ⟨2 * kernelClass.number + 1⟩

def lineage (kernelClass : KernelClass) : List Handle :=
  if kernelClass = .object then [object.handle] else [kernelClass.handle, object.handle]

end KernelClass

namespace Handle

/-- The only true value. -/
def trueValue : Handle := ⟨32⟩

/-- The only false value. -/
def falseValue : Handle := ⟨33⟩

/-- The only absent value. -/
def nil : Handle := ⟨34⟩

/-- The object that stands for a truth value. -/
def ofBool (holds : Bool) : Handle := if holds then trueValue else falseValue

/-- The first object after the kernel classes and the single values. -/
def firstMethod : Nat := 35

end Handle

end RipInterpreter
