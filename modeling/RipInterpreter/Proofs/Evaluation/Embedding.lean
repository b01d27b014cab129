import RipInterpreter.Proofs.Evaluation.Orderly
import RipInterpreter.Proofs.Machine.FreshWorld
import RipInterpreter.Proofs.Machine.StableEquality

/-!
Machines that an embedding program works with, too. Between runs it may make objects of any kind,
store properties of any kind, call values and bind names, as long as it uses values of the machine
itself. Collections still hold only older values, so that comparing and describing values ends.
-/

namespace RipInterpreter

namespace Session

/-- What an embedding program may ask of a machine besides running modules. -/
inductive Operation where
  | ofClass (parent : Handle) (payload : Payload)
  | newInteger (value : Int)
  | newDecimal (value : Float)
  | newCharacter (value : Char)
  | newString (value : String)
  | newRegularExpression (pattern : String)
  | newList (items : List Handle)
  | newMap (pairs : List Handle)
  | newKeyValue (key value : Handle)
  | newRange (start last : Handle) (exclusive : Bool)
  | newLambda (closure : Scope) (overloads : List Overload)
  | newException (message : String)
  | newClass (name : Option String) (parents : List Handle)
  | nameClass (object : Handle) (name : String)
  | setProperty (object : Handle) (key : String) (property : Property)
  | get (receiver : Handle) (key : String)
  | tie (value receiver : Handle)
  | call (depth : Nat) (value : Handle) (arguments : List Handle) (caller : Scope)
  | send (depth : Nat) (receiver : Handle) (method : String) (arguments : List Handle)
    (caller : Scope)
  | require (depth : Nat) (name : String) (caller : Scope)
  | root
  | enter (scope : Scope)
  | enterFrom (scope : Scope) (origin : String)
  | bindName (scope : Scope) (name : String) (value : Handle)

/-- The values that an embedding program hands over. -/
def Operation.mentions : Operation → List Handle
  | .ofClass parent payload => parent :: payload.mentions
  | .newList items => items
  | .newMap pairs => pairs
  | .newKeyValue key value => [key, value]
  | .newRange start last _ => [start, last]
  | .newLambda _ overloads => overloads.flatMap Overload.mentions
  | .newClass _ parents => parents
  | .setProperty _ _ property => property.mentions
  | .get receiver _ => [receiver]
  | .tie value receiver => [value, receiver]
  | .call _ value arguments _ => value :: arguments
  | .send _ receiver _ arguments _ => receiver :: arguments
  | .bindName _ _ value => [value]
  | _ => []

/-- What the machine does; the state it leaves is all that matters here. -/
def Operation.run : Operation → Action Unit
  | .ofClass parent payload => do let _ ← Action.allocate (.instanceOf parent payload)
  | .newInteger value => do let _ ← Action.newInteger value
  | .newDecimal value => do let _ ← Action.newDecimal value
  | .newCharacter value => do let _ ← Action.newCharacter value
  | .newString value => do let _ ← Action.newString value
  | .newRegularExpression pattern => do let _ ← Action.newRegularExpression pattern
  | .newList items => do let _ ← Action.newList items
  | .newMap pairs => do let _ ← Action.newMap pairs
  | .newKeyValue key value => do let _ ← Action.newKeyValue key value
  | .newRange start last exclusive => do let _ ← Action.newRange start last exclusive
  | .newLambda closure overloads => do let _ ← Action.newLambda closure overloads
  | .newException message => do let _ ← Action.newException message
  | .newClass name parents => do let _ ← Action.newClass name parents
  | .nameClass object name => Action.nameClass object name
  | .setProperty object key property => Action.setProperty object key property
  | .get receiver key => do let _ ← Action.get receiver key
  | .tie value receiver => do let _ ← Action.tie value receiver
  | .call depth value arguments caller => do
    let _ ← Action.call (evaluate depth) value arguments caller
  | .send depth receiver method arguments caller => do
    let _ ← Action.send (evaluate depth) receiver method arguments caller
  | .require depth name caller => do let _ ← Action.require (evaluate depth) name caller
  | .root => Action.change fun world => { world with frames := world.frames.root.2 }
  | .enter scope => do let _ ← Action.enter scope
  | .enterFrom scope origin => do let _ ← Action.enterFrom scope origin
  | .bindName scope name value => Action.bindName scope name value

open RipInterpreter.Action

theorem Operation.orderly {world : World} (operation : Operation) (tidy : world.Tidy)
    (known : ∀ value ∈ operation.mentions, world.heap.Holds value) :
    operation.run.Orderly world fun _ _ => True := by
  have handed {action : Action Handle} (hands : action.Hands world) :
      (action >>= fun _ => (pure () : Action Unit)).Orderly world fun _ _ => True :=
    .bind tidy hands fun _ _ _ _ _ => .pure trivial
  have simple (kernelClass : KernelClass) {payload : Payload} (empty : payload.mentions = []) :=
    handed (hands_simple kernelClass tidy empty)
  cases operation with
  | ofClass parent payload =>
      exact handed (hands_instance (known parent List.mem_cons_self) fun value inside =>
        known value (List.mem_cons_of_mem parent inside))
  | newInteger value => exact simple .integer rfl
  | newDecimal value => exact simple .decimal rfl
  | newCharacter value => exact simple .character rfl
  | newString value => exact simple .string rfl
  | newRegularExpression pattern => exact simple .regularExpression rfl
  | newList items => exact handed (hands_newList tidy known)
  | newMap pairs => exact handed (hands_newMap tidy known)
  | newKeyValue key value =>
      exact handed (hands_newKeyValue tidy (known key List.mem_cons_self)
        (known value (List.mem_cons_of_mem key List.mem_cons_self)))
  | newRange start last exclusive =>
      exact handed (hands_newRange exclusive tidy (known start List.mem_cons_self)
        (known last (List.mem_cons_of_mem start List.mem_cons_self)))
  | newLambda closure overloads =>
      exact handed (hands_newLambda tidy fun overload listed value inside =>
        known value (List.mem_flatMap.mpr ⟨overload, listed, inside⟩))
  | newException message => exact handed (hands_newException message tidy)
  | newClass name parents => exact handed (hands_newClass name tidy known)
  | nameClass object name => exact orderly_nameClass object name
  | setProperty object key property => exact orderly_setProperty object key known
  | get receiver key => exact handed (hands_get tidy key (known receiver List.mem_cons_self))
  | tie value receiver =>
      exact handed (hands_tie tidy (known value List.mem_cons_self)
        (known receiver (List.mem_cons_of_mem value List.mem_cons_self)))
  | call depth value arguments caller =>
      exact handed (hands_call (orderly_evaluate depth) value caller tidy fun argument inside =>
        known argument (List.mem_cons_of_mem value inside))
  | send depth receiver method arguments caller =>
      exact handed (hands_send (orderly_evaluate depth) method caller tidy
        (known receiver List.mem_cons_self) fun argument inside =>
          known argument (List.mem_cons_of_mem receiver inside))
  | require depth name caller =>
      exact handed (hands_require (orderly_evaluate depth) name caller tidy)
  | root => exact .change (.enter [] none) rfl
  | enter scope => exact .bind tidy (orderly_enter scope) fun _ _ _ _ _ => .pure trivial
  | enterFrom scope origin =>
      exact .bind tidy (orderly_enterFrom scope origin) fun _ _ _ _ _ => .pure trivial
  | bindName scope name value => exact orderly_bindName scope name (known value List.mem_cons_self)

/-- The states of a machine that an embedding program works with. It starts new and goes on with
modules, in new frames or in any scopes, and with operations on values that the machine has. -/
inductive Embedded (loader : Loader) (searchPaths : List String) : World → Prop
  | fresh : Embedded loader searchPaths (World.fresh loader searchPaths)
  | globalContext {world after : World} (reached : Embedded loader searchPaths world)
    (left : (globalContext world).world? = some after) : Embedded loader searchPaths after
  | interpretIn {world after : World} (reached : Embedded loader searchPaths world) (depth : Nat)
    (module : Syntax.Module) (scope : Scope)
    (left : (interpretIn depth module scope world).world? = some after) :
    Embedded loader searchPaths after
  | interpret {world after : World} (reached : Embedded loader searchPaths world) (depth : Nat)
    (module : Syntax.Module) (left : (interpret depth module world).world? = some after) :
    Embedded loader searchPaths after
  | operation {world after : World} (reached : Embedded loader searchPaths world)
    (operation : Operation) (known : ∀ value ∈ operation.mentions, world.heap.Holds value)
    (left : (operation.run world).world? = some after) : Embedded loader searchPaths after

theorem tidy_fresh (loader : Loader) (searchPaths : List String) :
    (World.fresh loader searchPaths).Tidy where
  heap := Kernel.sound_heap.closed
  bindings number name value found :=
    ((World.soundState_fresh loader searchPaths).bindings number name value found).holds
  loaded _ inside := nomatch inside
  once := .nil
  apart _ inside := nomatch inside

/-- By induction on what the machine was asked to do. -/
theorem Embedded.tidy {loader : Loader} {searchPaths : List String} {world : World}
    (reached : Embedded loader searchPaths world) : world.Tidy := by
  induction reached with
  | fresh => exact tidy_fresh loader searchPaths
  | globalContext _ left ih => exact ((orderly_enter _).ran left).tidy ih
  | interpretIn _ depth module scope left ih =>
      exact ((hands_interpretIn depth module scope ih).ran left).tidy ih
  | interpret _ depth module left ih => exact ((hands_interpret depth module ih).ran left).tidy ih
  | operation _ operation known left ih => exact ((operation.orderly ih known).ran left).tidy ih

/-- In all states on the way collections hold only older values, so that comparing, inspecting and
displaying values ends. Evaluating, running modules and operations change the state by moves only,
which covers the states in the midst of them. -/
theorem Embedded.grounded {loader : Loader} {searchPaths : List String} {world middle : World}
    (reached : Embedded loader searchPaths world) (reaches : world.Reaches middle) :
    middle.heap.Grounded ∧
      (∀ depth scope node after, (evaluate depth scope node middle).world? = some after →
        middle.Reaches after) ∧
      (∀ depth module scope after,
        (Session.interpretIn depth module scope middle).world? = some after →
        middle.Reaches after) ∧
      (∀ (operation : Operation) (after : World),
        (∀ value ∈ operation.mentions, middle.heap.Holds value) →
        (operation.run middle).world? = some after → middle.Reaches after) := by
  have tidy := reaches.tidy reached.tidy
  refine ⟨Heap.grounded_of_closed tidy.heap, fun depth scope node after left => ?_,
    fun depth module scope after left => ?_, fun operation after known left => ?_⟩
  · exact (Orderly.ran (orderly_evaluate depth scope node middle tidy) left).reaches
  · exact ((hands_interpretIn depth module scope tidy).ran left).reaches
  · exact ((operation.orderly tidy known).ran left).reaches

/-- A list that a property of its own leads back to: describing it ends all the same. -/
theorem Embedded.grounded_with_cycle :
    let fresh := World.fresh ⟨fun _ _ _ => .unseen ""⟩ []
    let list := Object.instanceOf KernelClass.list.handle (.list [.trueValue, .trueValue])
    let made := { fresh with heap := (fresh.heap.add list).2 }
    let middle := { made with heap := made.heap.modify fresh.heap.next fun found =>
      { found with properties := found.properties.insert "own" (.plain fresh.heap.next) } }
    fresh.Reaches middle ∧ ∃ text, middle.heap.inspect fresh.heap.next = .ok text := by
  intro fresh list made middle
  have closed := (tidy_fresh ⟨fun _ _ _ => .unseen ""⟩ []).heap
  have admits : fresh.heap.Admits list :=
    Heap.admits_instance (closed.kernelClass .list) fun value inside => by
      have same : value = .trueValue := by simpa [Payload.mentions, Payload.contents] using inside
      exact same ▸ closed.ofBool true
  have held : made.heap.Holds fresh.heap.next := Heap.holds_next fresh.heap list
  have tied : made.Move middle := .store fresh.heap.next "own"
    fun value inside => List.mem_singleton.mp inside ▸ held
  have reaches : fresh.Reaches middle := (World.Move.make admits).reaches.trans tied.reaches
  obtain ⟨text, described, -⟩ :=
    (Embedded.grounded .fresh reaches).1.inspects fresh.heap.next (tied.grows.holds held)
  exact ⟨reaches, text, described⟩

end Session

end RipInterpreter
