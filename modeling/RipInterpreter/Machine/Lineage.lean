import RipInterpreter.Machine.Heap

namespace RipInterpreter.Heap

def isClass (heap : Heap) (handle : Handle) : Except ReadFault Bool := do
  match (← heap.read handle).payload with
  | .classObject .. => return true
  | _ => return false

/-- The ancestors of a class, itself first. Any other object in the place of a class stands alone. -/
def ancestors (heap : Heap) (handle : Handle) : Except ReadFault (List Handle) := do
  match (← heap.read handle).payload with
  | .classObject _ ancestors => return ancestors
  | _ => return [handle]

/-- Whether a class is among the ancestors of the class of a value. -/
def isA (heap : Heap) (value parent : Handle) : Except ReadFault Bool := do
  match (← heap.read value).classHandle with
  | some own => return (← heap.ancestors own).contains parent
  | none => return false

/-- Whether a class is its own only ancestor. -/
def isRoot (heap : Heap) (handle : Handle) : Except ReadFault Bool := do
  match (← heap.read handle).payload with
  | .classObject _ ancestors => return ancestors.length = 1
  | _ => return false

/-- Adds inherited classes that are not there yet; roots are kept apart. -/
def mergeAncestors (heap : Heap) (line roots : List Handle) :
    List Handle → Except ReadFault (List Handle × List Handle)
  | [] => .ok (line, roots)
  | ancestor :: rest => do
    let root ← heap.isRoot ancestor
    if line.contains ancestor || roots.contains ancestor then heap.mergeAncestors line roots rest
    else if root then heap.mergeAncestors line (roots ++ [ancestor]) rest
    else heap.mergeAncestors (line ++ [ancestor]) roots rest

/-- Adds the ancestors of several parents in order. -/
def mergeParents (heap : Heap) (line roots : List Handle) :
    List Handle → Except ReadFault (Option (List Handle))
  | [] => .ok (some (line ++ roots))
  | parent :: rest => do
    match (← heap.read parent).payload with
    | .classObject _ inherited =>
      let (line, roots) ← heap.mergeAncestors line roots inherited
      heap.mergeParents line roots rest
    | _ => return none

/-- The ancestors of a new class: itself, those of its parents in order and each once, and the roots
last. There are none if a parent is not a class. -/
def lineage (heap : Heap) (newClass : Handle) (parents : List Handle) :
    Except ReadFault (Option (List Handle)) :=
  heap.mergeParents [newClass] [] parents

/-- The first of several classes whose prototype owns a property, as that prototype and the
property. -/
def findInherited (heap : Heap) (key : String) :
    List Handle → Except ReadFault (Option (Handle × Property))
  | [] => .ok none
  | ancestor :: rest => do
    match (← heap.read ancestor).properties.get? "@" with
    | some (.plain prototype) =>
      match (← heap.read prototype).properties.get? key with
      | some property => return some (prototype, property)
      | none => heap.findInherited key rest
    | _ => heap.findInherited key rest

/-- The object that holds a property for a receiver, and the property as stored: the receiver
itself, or the first prototype among those of its class and the ancestors of that. -/
def findProperty (heap : Heap) (receiver : Handle) (key : String) :
    Except ReadFault (Option (Handle × Property)) := do
  let object ← heap.read receiver
  match object.properties.get? key with
  | some property => return some (receiver, property)
  | none =>
    match object.classHandle with
    | some parent => heap.findInherited key (← heap.ancestors parent)
    | none => return none

end RipInterpreter.Heap
