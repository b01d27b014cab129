import RipInterpreter.Machine.Object

/-!
The objects of a machine. Reading one may fail if its handle belongs to no object, and questions
about the objects inside an object may run out of depth; neither happens on a machine that only
programs have changed. `get?_add` and `get?_modify` say what the two ways to change a heap do.
-/

namespace RipInterpreter

/-- Why a question about objects has no answer. -/
inductive ReadFault where
  | dangling (handle : Handle)
  | tooDeep
deriving DecidableEq, Inhabited

/-- All objects of a machine, in the order of their making. -/
structure Heap where
  objects : Array Object

namespace Heap

def next (heap : Heap) : Handle := ⟨heap.objects.size⟩

def get? (heap : Heap) (handle : Handle) : Option Object := heap.objects[handle.index]?

def read (heap : Heap) (handle : Handle) : Except ReadFault Object :=
  match heap.get? handle with
  | some object => .ok object
  | none => .error (.dangling handle)

def add (heap : Heap) (object : Object) : Handle × Heap :=
  (heap.next, ⟨heap.objects.push object⟩)

def modify (heap : Heap) (handle : Handle) (change : Object → Object) : Heap :=
  ⟨heap.objects.modify handle.index change⟩

/-- A depth that suffices for questions about the objects inside an object: what a list, a map, a
pair or a range holds is older than the list, map, pair or range itself. -/
def depth (heap : Heap) : Nat := heap.objects.size + 1

/-- The new object lies under the next handle; all others stay. -/
theorem get?_add (heap : Heap) (object : Object) (handle : Handle) :
    (heap.add object).2.get? handle =
      if handle = heap.next then some object else heap.get? handle := by
  obtain ⟨index⟩ := handle
  simp only [add, get?, next, Array.getElem?_push, Handle.mk.injEq]

/-- A change reaches the object of its handle and no other. -/
theorem get?_modify (heap : Heap) (handle other : Handle) (change : Object → Object) :
    (heap.modify handle change).get? other =
      if other = handle then (heap.get? other).map change else heap.get? other := by
  obtain ⟨index⟩ := handle
  obtain ⟨place⟩ := other
  by_cases same : place = index
  · subst same
    simp [modify, get?, Array.getElem?_modify]
  · simp [modify, get?, Array.getElem?_modify, same, Ne.symm same]

end Heap

end RipInterpreter
