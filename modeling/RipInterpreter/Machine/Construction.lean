import RipInterpreter.Machine.World

namespace RipInterpreter.Action

def allocate (object : Object) : Action Handle := fun world =>
  let (handle, heap) := world.heap.add object
  .value handle { world with heap := heap }

def setProperty (object : Handle) (key : String) (property : Property) : Action Unit := do
  let _ ← ask fun heap => heap.read object
  change fun world =>
    { world with
      heap := world.heap.modify object fun found =>
        { found with properties := found.properties.insert key property } }

/-- Stores a value under a key in an object itself, in front of any inherited one. -/
def set (object : Handle) (key : String) (value : Handle) : Action Unit :=
  setProperty object key (.plain value)

def newInstance (kernelClass : KernelClass) (payload : Payload) : Action Handle :=
  allocate (.instanceOf kernelClass.handle payload)

def newInteger (value : Int) : Action Handle := newInstance .integer (.integer value)

def newDecimal (value : Float) : Action Handle := newInstance .decimal (.decimal value)

def newCharacter (value : Char) : Action Handle := newInstance .character (.character value)

def newString (value : String) : Action Handle := newInstance .string (.string value)

def newRegularExpression (pattern : String) : Action Handle :=
  newInstance .regularExpression (.regularExpression pattern)

def newList (items : List Handle) : Action Handle := newInstance .list (.list items)

def newMap (pairs : List Handle) : Action Handle := newInstance .map (.map pairs)

/-- A new pair, which shows its content as properties, too. -/
def newKeyValue (key value : Handle) : Action Handle := do
  let pair ← newInstance .keyValue (.keyValue key value)
  set pair "key" key
  set pair "value" value
  return pair

/-- A new range, which shows its content as properties, too. -/
def newRange (start last : Handle) (exclusive : Bool) : Action Handle := do
  let range ← newInstance .range (.range start last exclusive)
  set range "start" start
  set range "end" last
  set range "exclusive" (.ofBool exclusive)
  return range

def newLambda (closure : Scope) (overloads : List Overload) : Action Handle :=
  newInstance .lambda (.lambda ⟨closure, overloads, none⟩)

def newException (message : String) : Action Handle := do
  let exception ← newInstance .exception .plain
  let text ← newString message
  set exception "message" text
  return exception

/-- A new class with an empty prototype. Without parents it derives from the root class. -/
def newClass (name : Option String) (parents : List Handle) : Action Handle := do
  let parents := if parents.isEmpty then [KernelClass.object.handle] else parents
  let prototype ← allocate ⟨.empty, .plain⟩
  let own := (← world).heap.next
  match ← ask fun heap => heap.lineage own parents with
  | none => fault .notInheritable
  | some ancestors =>
    allocate
      ⟨Table.ofList [("@", .plain prototype), ("class", .plain KernelClass.classClass.handle)],
        .classObject name ancestors⟩

/-- Names a class, unless it has a name. -/
def nameClass (object : Handle) (name : String) : Action Unit := do
  let _ ← ask fun heap => heap.read object
  change fun world =>
    { world with
      heap := world.heap.modify object fun found =>
        match found.payload with
        | .classObject none ancestors => { found with payload := .classObject (some name) ancestors }
        | _ => found }

def enter (scope : Scope) : Action Scope := fun world =>
  let (inner, frames) := world.frames.child scope
  .value inner { world with frames := frames }

/-- A new frame inside a scope, for code from the text `origin`. -/
def enterFrom (scope : Scope) (origin : String) : Action Scope := fun world =>
  let (inner, frames) := world.frames.childFrom scope origin
  .value inner { world with frames := frames }

/-- Binds a name in a scope, unless its innermost frame binds it already. -/
def bindName (scope : Scope) (name : String) (value : Handle) : Action Unit := fun world =>
  match world.frames.bind scope name value with
  | .ok frames => .value () { world with frames := frames }
  | .error fault => .failure (.compiler fault none) world

end RipInterpreter.Action
