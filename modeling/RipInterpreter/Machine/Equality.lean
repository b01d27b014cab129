import RipInterpreter.Machine.Heap

namespace RipInterpreter

/-- Whether a question has the answer "yes" for each two values at the same place. -/
def allPairs {ε : Type} (question : Handle → Handle → Except ε Bool) :
    List Handle → List Handle → Except ε Bool
  | left :: lefts, right :: rights => do
    if ← question left right then allPairs question lefts rights else return false
  | [], [] => .ok true
  | _, _ => .ok false

namespace Heap

/-- Whether two payloads are equal, given when the values inside them are. -/
def equalPayloads {ε : Type} (equal : Handle → Handle → Except ε Bool) :
    Payload → Payload → Except ε Bool
  | .nil, .nil => .ok true
  | .boolean a, .boolean b => .ok (a == b)
  | .integer a, .integer b => .ok (a == b)
  | .decimal a, .decimal b => .ok (a == b)
  | .integer a, .decimal b => .ok (Float.ofInt a == b)
  | .decimal a, .integer b => .ok (a == Float.ofInt b)
  | .character a, .character b => .ok (a == b)
  | .string a, .string b => .ok (a == b)
  | .regularExpression a, .regularExpression b => .ok (a == b)
  | .list a, .list b => if a.length = b.length then allPairs equal a b else .ok false
  | .map a, .map b => if a.length = b.length then allPairs equal a b else .ok false
  | .keyValue key value, .keyValue key₁ value₁ => do
    if ← equal key key₁ then equal value value₁ else return false
  | .range start last exclusive, .range start₁ last₁ exclusive₁ => do
    if exclusive != exclusive₁ then return false
    else if ← equal start start₁ then equal last last₁
    else return false
  | _, _ => .ok false

/-- Whether two values are equal, looking so many levels into collections. -/
def equalWithin (heap : Heap) : (levels : Nat) → Handle → Handle → Except ReadFault Bool
  | 0, _, _ => .error .tooDeep
  | levels + 1, left, right => do
    if left = right then return true
    else
      let first ← heap.read left
      let second ← heap.read right
      equalPayloads (heap.equalWithin levels) first.payload second.payload

def equal (heap : Heap) (left right : Handle) : Except ReadFault Bool :=
  heap.equalWithin heap.depth left right

end Heap

end RipInterpreter
