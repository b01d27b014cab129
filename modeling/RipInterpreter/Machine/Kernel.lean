import RipInterpreter.Machine.World

namespace RipInterpreter

def Operator.name : Operator → String
  | .add => "+"
  | .subtract => "-"
  | .multiply => "*"
  | .divide => "/"
  | .remainder => "%"

def Comparison.name : Comparison → String
  | .less => "<"
  | .greater => ">"
  | .lessOrEqual => "<="
  | .greaterOrEqual => ">="

namespace Kernel

/-- A method under its name, with the names of its parameters. -/
structure Member where
  name : String
  parameters : List String
  method : Method

/-- The members that integers and decimals have in common. -/
def numberMembers : List Member :=
  ([.add, .subtract, .multiply, .divide, .remainder] : List Operator).map
      (fun operator => ⟨operator.name, ["other"], .arithmetic operator⟩) ++
    ([.less, .greater, .lessOrEqual, .greaterOrEqual] : List Comparison).map
      (fun comparison => ⟨comparison.name, ["other"], .comparison comparison⟩)

def members : KernelClass → List Member
  | .object =>
    [⟨"to_boolean", [], .constant true⟩, ⟨"==", ["other"], .equality true⟩,
      ⟨"!=", ["other"], .equality false⟩, ⟨"to_string", [], .display⟩]
  | .boolean => [⟨"to_boolean", [], .itself⟩, ⟨"!", [], .negation⟩]
  | .classClass => [⟨"new", [], .instantiate⟩]
  | .nil => [⟨"to_boolean", [], .constant false⟩]
  | .integer => numberMembers
  | .decimal => numberMembers
  | .character => [⟨"uppercase", [], .upperCharacter⟩, ⟨"lowercase", [], .lowerCharacter⟩]
  | .string =>
    [⟨"+", ["other"], .appendString⟩, ⟨"uppercase", [], .upperString⟩,
      ⟨"lowercase", [], .lowerString⟩, ⟨"to_string", [], .itself⟩]
  | .regularExpression => [⟨"+", ["other"], .appendPattern⟩, ⟨"to_string", [], .patternText⟩]
  | .list => [⟨"+", ["other"], .appendList⟩, ⟨"at", ["index"], .listAt⟩]
  | .map => [⟨"at", ["key"], .mapAt⟩]
  | .exception => [⟨"to_string", [], .exceptionText⟩]
  | .lambda | .keyValue | .range | .system => []

/-- The computed properties of the instances of a kernel class. -/
def resolvers : KernelClass → List (String × Resolver)
  | .classClass => [("ancestors", .ancestors)]
  | .string => [("length", .stringLength), ("characters", .stringCharacters)]
  | .list => [("length", .listLength)]
  | .map => [("length", .mapLength)]
  | _ => []

def systemMembers : List Member := [⟨"require", ["name"], .require⟩]

/-- All members in the order of their objects: those of the instances class by class, then those of
the system object. -/
def allMembers : List Member := KernelClass.all.flatMap members ++ systemMembers

/-- The scope of the frame with the bindings of the kernel. -/
def globals : Scope := ⟨0, []⟩

def lambdaOf (member : Member) : Object :=
  .instanceOf KernelClass.lambda.handle
    (.lambda ⟨globals, [⟨member.parameters.map .binding, .method member.method⟩], none⟩)

/-- Members as properties, for lambdas from the handle `first` on. -/
def memberProperties (first : Nat) : List Member → List (String × Property)
  | [] => []
  | member :: rest => (member.name, .plain ⟨first⟩) :: memberProperties (first + 1) rest

/-- The prototype of a kernel class whose methods start at the handle `first`. -/
def prototypeObject (kernelClass : KernelClass) (first : Nat) : Object :=
  ⟨Table.ofList (memberProperties first (members kernelClass) ++
      (resolvers kernelClass).map fun (name, resolver) => (name, .dynamic resolver)), .plain⟩

/-- What the system object shows besides being a class: its methods, which start at the handle
`first`, and the other kernel classes. -/
def systemProperties (first : Nat) : List (String × Property) :=
  memberProperties first systemMembers ++
    (KernelClass.all.filter (· != .system)).map fun kernelClass =>
      (kernelClass.name, .delayed (.kernelClass kernelClass))

def classObject (kernelClass : KernelClass) (more : List (String × Property)) : Object :=
  ⟨Table.ofList (("@", .plain kernelClass.prototype) ::
      ("class", .plain KernelClass.classClass.handle) :: more),
    .classObject (some kernelClass.name) kernelClass.lineage⟩

/-- Prototypes and class objects in turn, for classes whose methods start at the handle `first`. -/
def classObjects (first : Nat) : List KernelClass → List Object
  | [] => []
  | kernelClass :: rest =>
    let next := first + (members kernelClass).length
    let more := if kernelClass = .system then systemProperties next else []
    prototypeObject kernelClass first :: classObject kernelClass more :: classObjects next rest

def objects : List Object :=
  classObjects Handle.firstMethod KernelClass.all ++
    [.instanceOf KernelClass.boolean.handle (.boolean true),
      .instanceOf KernelClass.boolean.handle (.boolean false),
      .instanceOf KernelClass.nil.handle .nil] ++
    allMembers.map lambdaOf

/-- The names that every module can look up. -/
def bindings : List (String × Handle) :=
  [("System", KernelClass.system.handle), ("true", .trueValue), ("false", .falseValue),
    ("nil", .nil)]

end Kernel

def World.fresh (loader : Loader) (searchPaths : List String) : World where
  heap := ⟨Kernel.objects.toArray⟩
  frames := ⟨#[⟨Table.ofList Kernel.bindings, none⟩]⟩
  loader := loader
  searchPaths := searchPaths
  loaded := []
  loading := []
  requests := 0
  resolverRuns := 0

end RipInterpreter
