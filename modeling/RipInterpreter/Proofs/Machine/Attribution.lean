import RipInterpreter.Proofs.Frames
import RipInterpreter.Proofs.Machine.Alters
import RipInterpreter.Proofs.Machine.FreshWorld
import RipInterpreter.Proofs.Machine.ObjectsOnly
import RipInterpreter.Proofs.Syntax.Origins

namespace RipInterpreter

/-- The modules that a loader finds stand in the texts of their paths. -/
def Loader.Faithful (loader : Loader) : Prop :=
  ∀ request name searchPaths path module,
    loader.answer request name searchPaths = .found path module →
    ∀ statement ∈ module.statements, statement.From path

theorem Loader.from_of_read {file path : String} {bytes : ByteArray} {module : Syntax.Module}
    (found : read file bytes = .found path module) :
    ∀ statement ∈ module.statements, statement.From path := by
  unfold read at found
  split at found
  · cases found
  · split at found
    · cases found
      exact (Syntax.Module.from_of_text ‹_›).2
    · cases found

/-- The loader of files is faithful, by the paths that it tries one after the other. -/
theorem Loader.faithful_ofFiles (look : String → Look) : (ofFiles look).Faithful := by
  have tries (missing : Error) (paths : List String) {path : String} {module : Syntax.Module}
      (found : firstFile look missing paths = .found path module) :
      ∀ statement ∈ module.statements, statement.From path := by
    induction paths with
    | nil => cases found
    | cons first rest ih =>
        unfold firstFile at found
        split at found
        · exact from_of_read found
        · cases found
        · exact ih found
        · cases found
  exact fun _ name searchPaths _ _ found => tries _ (candidates name searchPaths) found

/-- What is written in the language stands in a text that the scope serves. -/
def Overload.Stands (frames : Frames Handle) (closure : Scope) (overload : Overload) : Prop :=
  ∀ body, overload.body = .block body → ∃ origin, frames.originOf closure = some origin ∧
    ∀ statement ∈ body.statements, statement.From origin

/-- All code has its text. -/
structure World.Attributed (world : World) : Prop where
  loader : world.loader.Faithful
  lambdas : ∀ handle object callable, world.heap.get? handle = some object →
    object.payload = .lambda callable →
    ∀ overload ∈ callable.overloads, overload.Stands world.frames callable.closure

/-- In the second state all code has its text, too, and each scope serves the same text as in the
first one. -/
structure World.Continues (world after : World) : Prop where
  attributed : after.Attributed
  serves : ∀ scope origin, world.frames.originOf scope = some origin →
    after.frames.originOf scope = some origin

namespace World

variable {world middle after : World}

theorem Attributed.refl (attributed : world.Attributed) : world.Continues world :=
  ⟨attributed, fun _ _ serves => serves⟩

theorem Continues.trans (first : world.Continues middle) (second : middle.Continues after) :
    world.Continues after :=
  ⟨second.attributed, fun scope origin serves => second.serves scope origin
    (first.serves scope origin serves)⟩

/-- By the lambdas of the second state: each is one of the first state, at most tied to an object
since, or stands in its text anyway. -/
theorem Attributed.continues (attributed : world.Attributed) (loader : after.loader = world.loader)
    (serves : ∀ scope origin, world.frames.originOf scope = some origin →
      after.frames.originOf scope = some origin)
    (lambdas : ∀ handle object callable, after.heap.get? handle = some object →
      object.payload = .lambda callable →
      (∀ overload ∈ callable.overloads, overload.Stands after.frames callable.closure) ∨
        ∃ handle object earlier, world.heap.get? handle = some object ∧
          object.payload = .lambda earlier ∧ earlier.closure = callable.closure ∧
          earlier.overloads = callable.overloads) :
    world.Continues after := by
  refine ⟨⟨by rw [loader]; exact attributed.loader, ?_⟩, serves⟩
  intro handle object callable found shape overload listed body written
  rcases lambdas handle object callable found shape with stands | earlier
  · exact stands overload listed body written
  · obtain ⟨place, untied, earlier, present, known, closure, overloads⟩ := earlier
    rw [← overloads] at listed
    obtain ⟨origin, served, inside⟩ :=
      attributed.lambdas place untied earlier present known overload listed body written
    exact ⟨origin, serves _ _ (closure ▸ served), inside⟩

/-- Nothing happens to lambdas where nothing happens to objects. -/
theorem Attributed.continues_of_heap (attributed : world.Attributed)
    (loader : after.loader = world.loader) (heap : after.heap = world.heap)
    (serves : ∀ scope origin, world.frames.originOf scope = some origin →
      after.frames.originOf scope = some origin) : world.Continues after :=
  attributed.continues loader serves fun handle object callable found shape =>
    .inr ⟨handle, object, callable, heap ▸ found, shape, rfl, rfl⟩

end World

/-- The deeds that make no lambdas. -/
def Deed.MakesNoLambda : Deed → Prop
  | .define _ _ => False
  | _ => True

/-- Where no lambda is made all code keeps its text. -/
theorem World.Attributed.of_changes {world after : World} (attributed : world.Attributed)
    (same : world.SameOutside after) (alters : world.Alters Deed.MakesNoLambda after) :
    world.Continues after :=
  attributed.continues same.loader (fun _ _ serves => same.frames ▸ serves)
    fun _ _ _ found shape => (alters.lambda found shape).imp False.elim id

namespace Kernel

/-- A lambda runs methods of the kernel only. -/
def nativeObject (object : Object) : Bool :=
  match object.payload with
  | .lambda callable => callable.overloads.all fun overload => (overload.body matches .method _)
  | _ => true

theorem native_objects : objects.all nativeObject = true := by decide +kernel

end Kernel

/-- The lambdas of a new machine are methods of the kernel. -/
theorem World.attributed_fresh {loader : Loader} (faithful : loader.Faithful)
    (searchPaths : List String) : (World.fresh loader searchPaths).Attributed := by
  refine ⟨faithful, fun handle object callable found shape overload listed body written => ?_⟩
  rw [World.fresh, ← Kernel.heap, Kernel.get?_heap] at found
  have native := List.all_eq_true.mp Kernel.native_objects object (List.mem_of_getElem? found)
  rw [Kernel.nativeObject, shape] at native
  have plain := List.all_eq_true.mp native overload listed
  rw [written] at plain
  cases plain

namespace Action

variable {α β : Type} {world : World}

/-- In this state the second step does what the first one does, all code keeps its text on the way,
and a value that the step ends with is as expected. -/
structure Agrees (world : World) (action other : Action α) (expected : α → World → Prop) : Prop where
  same : other world = action world
  continues : ∀ after, (action world).world? = some after → world.Continues after
  meets : ∀ result after, action world = .value result after → expected result after

namespace Agrees

variable {action other : Action α} {continuation further : α → Action β}
  {known wider : α → World → Prop} {expected : β → World → Prop}

theorem mono (agrees : Agrees world action other known)
    (weaker : ∀ result after, known result after → wider result after) :
    Agrees world action other wider :=
  { agrees with meets := fun result after ended => weaker result after (agrees.meets result after ended) }

theorem bind (first : Agrees world action other known)
    (next : ∀ result middle, world.Continues middle → known result middle →
      Agrees middle (continuation result) (further result) expected) :
    Agrees world (action >>= continuation) (other >>= further) expected := by
  have later (result : α) (middle : World) (ended : action world = .value result middle) :
      world.Continues middle ∧ Agrees middle (continuation result) (further result) expected := by
    have reached := first.continues middle (by rw [ended]; rfl)
    exact ⟨reached, next result middle reached (first.meets result middle ended)⟩
  refine ⟨?_, fun after left => ?_, fun result after ended => ?_⟩
  · rw [bind_apply, bind_apply, first.same]
    cases ended : action world with
    | value result middle => exact (later result middle ended).2.same
    | _ => rfl
  · rw [bind_apply] at left
    cases ended : action world with
    | value result middle =>
        rw [ended] at left
        obtain ⟨reached, agrees⟩ := later result middle ended
        exact reached.trans (agrees.continues after left)
    | signal raised middle =>
        rw [ended] at left
        exact first.continues after (by rw [ended]; exact left)
    | failure error middle =>
        rw [ended] at left
        exact first.continues after (by rw [ended]; exact left)
    | halted reason =>
        rw [ended] at left
        cases left
  · obtain ⟨found, middle, began, ended⟩ := value_of_bind ended
    exact (later found middle began).2.meets result after ended

section

variable (attributed : world.Attributed)
include attributed

theorem of_unchanged {action : Action α}
    (same : ∀ after, (action world).world? = some after → after = world)
    (meets : ∀ result after, action world = .value result after → known result after) :
    Agrees world action action known := by
  refine ⟨rfl, fun after left => ?_, meets⟩
  rw [same after left]
  exact attributed.refl

theorem pure {result : α} (met : known result world) :
    Agrees world (pure result) (pure result) known :=
  of_unchanged attributed (fun _ left => (Option.some.inj left).symm) (by rintro _ _ ⟨⟩; exact met)

theorem fail (error : Error) : Agrees world (fail error) (fail error) known :=
  of_unchanged attributed (fun _ left => (Option.some.inj left).symm) (by nofun)

theorem fault (reason : RuntimeFault) : Agrees world (fault reason) (fault reason) known :=
  fail attributed _

theorem raise (raised : Signal) : Agrees world (raise raised) (raise raised) known :=
  of_unchanged attributed (fun _ left => (Option.some.inj left).symm) (by nofun)

theorem current : Agrees world Action.world Action.world fun result _ => result = world :=
  of_unchanged attributed (fun _ left => (Option.some.inj left).symm) (by rintro _ _ ⟨⟩; rfl)

theorem ask (question : Heap → Except ReadFault α) :
    Agrees world (ask question) (ask question) fun result after =>
      question world.heap = .ok result ∧ after = world :=
  of_unchanged attributed
    (fun after left => (Relates.ask Eq.refl question world after left).symm) fun _ _ => ask_eq_value

/-- What changes objects only and makes no lambda. -/
theorem quiet {action : Action α} (objectsOnly : action.ObjectsOnly)
    (alters : action.Alters Deed.MakesNoLambda) :
    Agrees world action action fun _ _ => True :=
  ⟨rfl, fun after left => attributed.of_changes (objectsOnly world after left)
    (alters world after left), fun _ _ _ => trivial⟩

theorem change {update : World → World} (loader : (update world).loader = world.loader)
    (heap : (update world).heap = world.heap) (frames : (update world).frames = world.frames) :
    Agrees world (change update) (change update) fun _ _ => True := by
  refine ⟨rfl, ?_, fun _ _ _ => trivial⟩
  rintro _ ⟨⟩
  exact attributed.continues_of_heap loader heap fun _ _ serves => frames ▸ serves

/-- One item after the other, each where all code has its text. -/
theorem mapM {items : List α} {visit other : α → Action β} {met : β → Prop}
    (each : ∀ item ∈ items, ∀ middle, world.Continues middle →
      Agrees middle (visit item) (other item) fun result _ => met result) :
    Agrees world (items.mapM visit) (items.mapM other) fun results _ =>
      ∀ result ∈ results, met result := by
  induction items generalizing world with
  | nil => exact pure attributed (List.forall_mem_nil _)
  | cons item rest ih =>
      rw [List.mapM_cons, List.mapM_cons]
      refine (each item List.mem_cons_self world attributed.refl).bind
        fun result middle reached found => ?_
      have others := ih reached.attributed fun other inside last onward =>
        each other (List.mem_cons_of_mem item inside) last (reached.trans onward)
      exact others.bind fun results after onward more =>
        pure onward.attributed (List.forall_mem_cons.mpr ⟨found, more⟩)

end

theorem halt (reason : Halt) : Agrees world (halt reason) (halt reason) known :=
  ⟨rfl, by nofun, by nofun⟩

theorem locate (agrees : Agrees world action other known) (place : Location) :
    Agrees world (locate place action) (locate place other) known := by
  refine ⟨?_, fun after left => agrees.continues after (by rwa [world?_locate] at left), ?_⟩
  · unfold Action.locate
    rw [agrees.same]
  · intro result after ended
    unfold Action.locate at ended
    cases found : action world with
    | value result middle =>
        rw [found] at ended
        cases ended
        exact agrees.meets _ _ found
    | _ =>
        rw [found] at ended
        cases ended

theorem settle (agrees : Agrees world action other known) :
    Agrees world (settle action) (settle other) fun _ _ => True := by
  refine ⟨?_, fun after left => agrees.continues after (by rwa [world?_settle] at left),
    fun _ _ _ => trivial⟩
  unfold Action.settle
  rw [agrees.same]

theorem catchReturned {action other : Action Handle} {known : Handle → World → Prop}
    (agrees : Agrees world action other known) :
    Agrees world (catchReturned action) (catchReturned other) fun _ _ => True := by
  refine ⟨?_, fun after left => agrees.continues after (by rwa [world?_catchReturned] at left),
    fun _ _ _ => trivial⟩
  unfold Action.catchReturned
  rw [agrees.same]

theorem resume (attributed : world.Attributed) (completion : Completion α) :
    Agrees world completion.resume completion.resume fun _ _ => True := by
  cases completion with
  | value result => exact pure attributed trivial
  | signal raised => exact raise attributed raised
  | failure error => exact fail attributed error

end Agrees

section

variable (attributed : world.Attributed)
include attributed

theorem continues_enter (outer : List Nat) (text : Option String) :
    world.Continues { world with frames := (world.frames.enter outer text).2 } :=
  attributed.continues_of_heap rfl rfl fun _ _ serves => Frames.originOf_enter outer text serves

/-- A frame inside a scope serves the same text. -/
theorem agrees_enter {scope : Scope} {origin : String}
    (serves : world.frames.originOf scope = some origin) :
    Agrees world (enter scope) (enter scope) fun frame after =>
      after.frames.originOf frame = some origin := by
  refine ⟨rfl, ?_, ?_⟩
  · rintro _ ⟨⟩
    exact continues_enter attributed scope.chain (world.frames.originOf scope)
  · rintro _ _ ⟨⟩
    exact (Frames.originOf_enter_own _ _).trans serves

theorem agrees_enterFrom (scope : Scope) (origin : String) :
    Agrees world (enterFrom scope origin) (enterFrom scope origin) fun frame after =>
      after.frames.originOf frame = some origin := by
  refine ⟨rfl, ?_, ?_⟩
  · rintro _ ⟨⟩
    exact continues_enter attributed scope.chain (some origin)
  · rintro _ _ ⟨⟩
    exact Frames.originOf_enter_own _ _

theorem agrees_bindName (scope : Scope) (name : String) (value : Handle) :
    Agrees world (bindName scope name value) (bindName scope name value) fun _ _ => True := by
  refine ⟨rfl, fun after left => ?_, fun _ _ _ => trivial⟩
  unfold bindName at left
  split at left
  · rename_i frames bound
    cases left
    exact attributed.continues_of_heap rfl rfl fun _ _ serves =>
      (Frames.originOf_bind bound).trans serves
  · cases left
    exact attributed.refl

theorem agrees_bindParameters (scope : Scope) (parameters : List Parameter)
    (arguments : List Handle) :
    Agrees world (bindParameters scope parameters arguments)
      (bindParameters scope parameters arguments) fun _ _ => True := by
  induction parameters generalizing world arguments with
  | nil => exact .pure attributed trivial
  | cons parameter rest ih =>
      cases arguments with
      | nil => cases parameter <;> exact .pure attributed trivial
      | cons argument others =>
          cases parameter with
          | binding name =>
              exact (agrees_bindName attributed scope name argument).bind fun _ _ reached _ =>
                ih reached.attributed others
          | matcher value => exact ih attributed others

theorem agrees_payload (handle : Handle) :
    Agrees world (payload handle) (payload handle) fun found after =>
      (∃ object, world.heap.get? handle = some object ∧ object.payload = found) ∧ after = world :=
  (Agrees.ask attributed _).bind fun object middle _ asked => by
    obtain ⟨read, rfl⟩ := asked
    exact .pure attributed ⟨⟨object, Heap.get?_of_read read, rfl⟩, rfl⟩

theorem agrees_newLambda {closure : Scope} {overloads : List Overload}
    (stands : ∀ overload ∈ overloads, overload.Stands world.frames closure) :
    Agrees world (newLambda closure overloads) (newLambda closure overloads) fun _ _ => True := by
  refine ⟨rfl, fun after left => ?_, fun _ _ _ => trivial⟩
  rw [newLambda, newInstance_apply] at left
  cases left
  refine attributed.continues rfl (fun _ _ serves => serves)
    fun handle object callable found shape => ?_
  rw [Heap.get?_add] at found
  split at found
  · cases found
    cases shape
    exact .inl stands
  · exact .inr ⟨handle, object, callable, found, shape, rfl, rfl⟩

end

end Action

end RipInterpreter
