import RipInterpreter.Machine.Heap
import RipInterpreter.Number.Notation

namespace RipInterpreter.Heap

/-- The message that an object carries: its plain property of that name, if that is a string. -/
def messageOf (heap : Heap) (handle : Handle) : Except ReadFault (Option String) := do
  match (← heap.read handle).properties.get? "message" with
  | some (.plain message) =>
    match (← heap.read message).payload with
    | .string text => return some text
    | _ => return none
  | _ => return none

def classOf (heap : Heap) (handle : Handle) : Except ReadFault (Option Handle) := do
  return (← heap.read handle).classHandle

def className (heap : Heap) (handle : Handle) : Except ReadFault (Option String) := do
  match (← heap.read handle).payload with
  | .classObject name _ => return name
  | _ => return none

/-- The text of an object without data: its message, or the name of its class. -/
def inspectPlain (heap : Heap) (handle : Handle) : Except ReadFault String := do
  match ← heap.messageOf handle with
  | some message => return "#<Exception: " ++ message ++ ">"
  | none =>
    let name ← match ← heap.classOf handle with
      | some parent => heap.className parent
      | none => .ok none
    return "#<" ++ name.getD "Object" ++ ">"

/-- The text of a value with strings quoted, looking so many levels into collections. -/
def inspectWithin (heap : Heap) : (levels : Nat) → Handle → Except ReadFault String
  | 0, _ => .error .tooDeep
  | levels + 1, handle => do
    match (← heap.read handle).payload with
    | .plain => heap.inspectPlain handle
    | .nil => return "nil"
    | .boolean value => return if value then "true" else "false"
    | .integer value => return toString value
    | .decimal value => return Number.plainFormat.write value
    | .character value => return "\x60" ++ String.singleton value
    | .string value => return Text.quoteText value
    | .regularExpression pattern => return "/" ++ pattern ++ "/"
    | .list items =>
      return "[" ++ ", ".intercalate (← items.mapM (heap.inspectWithin levels)) ++ "]"
    | .map pairs =>
      return "\x7b" ++ ", ".intercalate (← pairs.mapM (heap.inspectWithin levels)) ++ "\x7d"
    | .keyValue key value =>
      return (← heap.inspectWithin levels key) ++ ": " ++ (← heap.inspectWithin levels value)
    | .range start last exclusive =>
      let dots := if exclusive then "..." else ".."
      return (← heap.inspectWithin levels start) ++ dots ++ (← heap.inspectWithin levels last)
    | .lambda _ => return "#<Lambda>"
    | .classObject name _ => return name.getD "#<Class>"

/-- The text of a value for a reader, strings quoted. -/
def inspect (heap : Heap) (handle : Handle) : Except ReadFault String :=
  heap.inspectWithin heap.depth handle

/-- The text of a value; that of a string or a character is the string or character itself. -/
def display (heap : Heap) (handle : Handle) : Except ReadFault String := do
  match (← heap.read handle).payload with
  | .string value => return value
  | .character value => return String.singleton value
  | _ => heap.inspect handle

end RipInterpreter.Heap
