import RipInterpreter.Error
import RipInterpreter.SortedNames
import RipInterpreter.Table
import RipInterpreter.Text.Quoted

/-!
Lexical scopes. Frames live in one store and are never removed; a scope is the chain of the frames
that a name is looked up in, innermost first. Only the innermost frame of a scope gets new bindings,
and a name is bound at most once in a frame (`isOk_bind`, `bindingsOf_bind`).
-/

namespace RipInterpreter

/-- The bindings of one frame, and the text that the code running in it comes from. -/
structure Frame (α : Type) where
  bindings : Table α
  origin : Option String

/-- The chain of frames that names are looked up in, by their numbers. -/
structure Scope where
  own : Nat
  outer : List Nat
deriving DecidableEq, Inhabited

/-- All frames of a machine. -/
structure Frames (α : Type) where
  frames : Array (Frame α)

/-- The numbers of the frames of a scope, innermost first. -/
def Scope.chain (scope : Scope) : List Nat := scope.own :: scope.outer

namespace Frames

variable {α : Type}

def empty : Frames α := ⟨#[]⟩

def frame? (store : Frames α) (number : Nat) : Option (Frame α) := store.frames[number]?

/-- Adds a frame that is looked up in front of the frames `outer`. -/
def enter (store : Frames α) (outer : List Nat) (origin : Option String) : Scope × Frames α :=
  (⟨store.frames.size, outer⟩, ⟨store.frames.push ⟨.empty, origin⟩⟩)

/-- A scope of one new frame. -/
def root (store : Frames α) : Scope × Frames α := store.enter [] none

/-- The text that the code in a scope comes from. -/
def originOf (store : Frames α) (scope : Scope) : Option String :=
  (store.frame? scope.own).bind Frame.origin

/-- A new frame inside a scope, for code from the same text. -/
def child (store : Frames α) (scope : Scope) : Scope × Frames α :=
  store.enter scope.chain (store.originOf scope)

/-- A new frame inside a scope, for code from the text `origin`. -/
def childFrom (store : Frames α) (scope : Scope) (origin : String) : Scope × Frames α :=
  store.enter scope.chain (some origin)

def bindingsOf (store : Frames α) (number : Nat) : Table α :=
  match store.frame? number with
  | some frame => frame.bindings
  | none => .empty

/-- The value of a name in the innermost frame that binds it. -/
def lookup (store : Frames α) (scope : Scope) (name : String) : Option α :=
  scope.chain.findSome? fun number => (store.bindingsOf number).get? name

def hasOwn (store : Frames α) (scope : Scope) (name : String) : Bool :=
  (store.bindingsOf scope.own).contains name

/-- Binds a name in the innermost frame, unless it is bound there already. -/
def bind (store : Frames α) (scope : Scope) (name : String) (value : α) :
    Except CompilerFault (Frames α) :=
  if store.hasOwn scope name then .error (.alreadyDefined name)
  else .ok ⟨store.frames.modify scope.own fun frame =>
    { frame with bindings := frame.bindings.insert name value }⟩

/-- All names that can be looked up, in increasing order. -/
def identifiers (store : Frames α) (scope : Scope) : List String :=
  scope.chain.foldr (fun number names => mergeNames (store.bindingsOf number).names names) []

/-- Whether two chains hold frame by frame the same bindings. -/
def sameChain [BEq α] (store : Frames α) : List Nat → List Nat → Bool
  | [], [] => true
  | number :: rest, number₁ :: rest₁ =>
    number == number₁ ||
      ((store.bindingsOf number).agrees (store.bindingsOf number₁) && store.sameChain rest rest₁)
  | _, _ => false

/-- Whether two scopes hold the same bindings in the same nesting, whatever texts they serve. -/
def same [BEq α] (store : Frames α) (scope scope₁ : Scope) : Bool :=
  store.sameChain scope.chain scope₁.chain

/-- An optional text for a reader. -/
def describeOrigin : Option String → String
  | some origin => "Some(" ++ Text.quoteText origin ++ ")"
  | none => "None"

/-- The frames of a chain for a reader: the names they bind, not the values. -/
def describeChain (store : Frames α) : List Nat → String
  | [] => "None"
  | number :: rest =>
    let names := (mergeNames (store.bindingsOf number).names []).map Text.quoteText
    let outer := match rest with
      | [] => "None"
      | _ => "Some(" ++ store.describeChain rest ++ ")"
    "Scope \x7b bindings: \x7b" ++ ", ".intercalate names ++ "\x7d, origin: " ++
      describeOrigin ((store.frame? number).bind Frame.origin) ++ ", outer: " ++ outer ++ " \x7d"

def describe (store : Frames α) (scope : Scope) : String := store.describeChain scope.chain

/-- A new frame binds nothing. -/
theorem bindingsOf_enter (store : Frames α) (outer : List Nat) (origin : Option String)
    (number : Nat) : (store.enter outer origin).2.bindingsOf number = store.bindingsOf number := by
  by_cases fresh : number = store.frames.size
  · subst fresh
    simp [bindingsOf, enter, frame?]
  · simp [bindingsOf, enter, frame?, Array.getElem?_push, fresh]

/-- A name can be bound exactly if the innermost frame does not hold it yet. -/
theorem isOk_bind (store : Frames α) (scope : Scope) (name : String) (value : α) :
    (store.bind scope name value).isOk = !store.hasOwn scope name := by
  unfold bind
  cases store.hasOwn scope name <;> rfl

/-- Binding changes no frame but the innermost one. -/
theorem bindingsOf_bind {store changed : Frames α} {scope : Scope} {name : String} {value : α}
    (bound : store.bind scope name value = .ok changed) {number : Nat}
    (other : number ≠ scope.own) : changed.bindingsOf number = store.bindingsOf number := by
  unfold bind at bound
  split at bound
  · cases bound
  · cases bound
    simp [bindingsOf, frame?, Array.getElem?_modify, Ne.symm other]

end Frames

end RipInterpreter
