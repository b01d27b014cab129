import RipInterpreter.Evaluation.Session
import RipInterpreter.Proofs.Evaluation.Lawful
import RipInterpreter.Proofs.Machine.Alters

/-!
What evaluations do to objects. A node assigns properties only if it is such an assignment; making
lambdas is the one other deed that belongs to the text of a program. The walk over the nodes serves
every relation of states that composes and covers such alterations, and leaves open how properties
are read.
-/

namespace RipInterpreter

open Syntax

/-- Whatever node is evaluated, the state it leaves behind is related to the one before. -/
def Evaluator.Relates (relation : World → World → Prop) (evaluator : Evaluator) : Prop :=
  ∀ scope node, (evaluator scope node).Relates relation

/-- Every node alters objects by allowed deeds only. -/
def Evaluator.Alters (allows : Deed → Prop) (evaluator : Evaluator) : Prop :=
  ∀ scope node, (evaluator scope node).Alters allows

/-- A relation that composes, and that holds wherever objects are altered by allowed deeds only. -/
structure World.Covers (allows : Deed → Prop) (relation : World → World → Prop) : Prop where
  altered : ∀ world after, world.Alters allows after → relation world after
  trans : ∀ world middle after, relation world middle → relation middle after →
    relation world after

namespace World.Covers

open RipInterpreter.Action

variable {α β : Type} {allows : Deed → Prop} {relation : World → World → Prop}

theorem alters : World.Covers allows (World.Alters allows) where
  altered _ _ changes := changes
  trans _ _ _ := World.Alters.trans

variable (covers : World.Covers allows relation)
include covers

theorem refl (world : World) : relation world world := covers.altered world world (.refl world)

theorem of {action : Action α} (altered : action.Alters allows) : action.Relates relation :=
  altered.mono covers.altered

theorem bind {action : Action α} {continuation : α → Action β} (first : action.Relates relation)
    (next : ∀ result, (continuation result).Relates relation) :
    (action >>= continuation).Relates relation :=
  Relates.bind first next (fun _ _ related => related) covers.trans

theorem pure (result : α) : (pure result : Action α).Relates relation := .pure covers.refl result

theorem fault (reason : RuntimeFault) : (fault reason : Action α).Relates relation :=
  .fail covers.refl _

theorem ask (question : Heap → Except ReadFault α) : (ask question).Relates relation :=
  .ask covers.refl question

theorem mapM {items : List α} {visit : α → Action β}
    (each : ∀ item, (visit item).Relates relation) : (items.mapM visit).Relates relation := by
  induction items with
  | nil => exact covers.pure []
  | cons item rest ih =>
      rw [List.mapM_cons]
      exact covers.bind (each item) fun _ => covers.bind ih fun _ => covers.pure _

end World.Covers

namespace Action

variable {α β : Type} {allows : Deed → Prop} {relation : World → World → Prop}

/-- Evaluates a node like `step`, but reads properties in another way. -/
def stepReading (read : Handle → String → Action Handle) (evaluator : Evaluator) (scope : Scope) :
    Node → Action Handle
  | .interpolation body _ => do
    let last ← run evaluator (← enter scope) body
    call evaluator (← read last "to_string") [] scope
  | .property object key _ => do read (← evaluator scope object) key
  | .classDefinition ancestors body _ => do
    let parents ← ancestors.mapM (evaluateParent evaluator scope)
    let made ← newClass none parents
    let prototype ← read made "@"
    let inner ← enter scope
    bindName inner "self" made
    bindName inner "@" prototype
    let _ ← run evaluator inner body.statements
    return made
  | .conditional condition body otherwise _ => do
    let value ← evaluator scope condition
    if (← call evaluator (← read value "to_boolean") [] scope) = .trueValue then
      runBlock evaluator scope body
    else runBlock evaluator scope otherwise
  | node => step evaluator scope node

theorem stepReading_get (evaluator : Evaluator) (scope : Scope) (node : Node) :
    stepReading get evaluator scope node = step evaluator scope node := by
  cases node with
  | conditional condition body otherwise place =>
      simp only [stepReading, step, holds, send, bind_assoc, pure_bind, decide_eq_true_eq]
  | _ => rfl

theorem alters_enter (scope : Scope) : (enter scope).Alters allows :=
  .of_heap fun _ _ left => by cases left; rfl

theorem alters_enterFrom (scope : Scope) (origin : String) :
    (enterFrom scope origin).Alters allows := .of_heap fun _ _ left => by cases left; rfl

theorem alters_bindName (scope : Scope) (name : String) (value : Handle) :
    (bindName scope name value).Alters allows :=
  .of_heap fun world after left => by
    unfold bindName at left
    split at left <;> cases left <;> rfl

theorem alters_bindParameters (scope : Scope) (parameters : List Parameter)
    (arguments : List Handle) : (bindParameters scope parameters arguments).Alters allows := by
  induction parameters generalizing arguments with
  | nil => exact .pure ()
  | cons parameter rest ih =>
      cases arguments with
      | nil => cases parameter <;> exact .pure ()
      | cons argument others =>
          cases parameter with
          | binding name => exact (alters_bindName scope name argument).bind fun _ => ih others
          | matcher value => exact ih others

section

variable {evaluator : Evaluator} (covers : World.Covers allows relation)
  (nested : evaluator.Relates relation)
include covers nested

theorem relates_runFrom (scope : Scope) (last : Handle) (statements : List Node) :
    (runFrom evaluator scope last statements).Relates relation := by
  induction statements generalizing last with
  | nil => exact covers.pure last
  | cons statement rest ih => exact covers.bind (nested scope statement) fun _ => ih _

theorem relates_run (scope : Scope) (statements : List Node) :
    (run evaluator scope statements).Relates relation :=
  relates_runFrom covers nested scope .nil statements

theorem relates_runBlock (scope : Scope) (block : Block) :
    (runBlock evaluator scope block).Relates relation :=
  covers.bind (covers.of (alters_enter scope)) fun inner =>
    relates_run covers nested inner block.statements

theorem relates_callBlock (callable : Callable) (parameters : List Parameter)
    (arguments : List Handle) (body : Block) :
    (callBlock evaluator callable parameters arguments body).Relates relation := by
  refine covers.bind (covers.of (alters_enter _)) fun frame => ?_
  have ran : (bindParameters frame parameters arguments >>= fun _ =>
      catchReturned (run evaluator frame body.statements)).Relates relation :=
    covers.bind (covers.of (alters_bindParameters frame parameters arguments)) fun _ =>
      .catchReturned (relates_run covers nested frame body.statements)
  cases callable.receiver with
  | none => exact ran
  | some receiver =>
      exact covers.bind (covers.of (alters_bindName frame "@" receiver)) fun _ => ran

theorem relates_runModule (path : String) (module : Syntax.Module) :
    (runModule evaluator path module).Relates relation := by
  have noted {update : World → World} (same : ∀ world, (update world).heap = world.heap) :
      (change update).Relates relation :=
    covers.of (.of_heap fun world _ left => by cases left; exact same world)
  unfold runModule
  refine covers.bind ?_ fun _ => covers.bind (covers.of (alters_enterFrom _ path)) fun scope =>
    covers.bind (.settle (relates_run covers nested scope module.statements)) fun completion =>
      covers.bind ?_ fun _ => ?_
  · exact noted fun _ => rfl
  · exact noted fun _ => rfl
  · split
    · exact covers.bind (noted fun _ => rfl) fun _ => covers.pure _
    · exact covers.bind (noted fun _ => rfl) fun _ => covers.pure _
    · exact .resume covers.refl completion

theorem relates_require (name : String) (scope : Scope) :
    (require evaluator name scope).Relates relation := by
  have requested : (requestModule name scope).Alters allows :=
    .of_heap fun _ _ left => by cases left; rfl
  refine covers.bind (covers.of requested) fun answer => ?_
  cases answer with
  | refused error => exact .fail covers.refl error
  | unseen path => exact .halt _
  | found path module =>
      refine covers.bind (.world covers.refl) fun state => ?_
      split
      · exact covers.pure _
      · split
        · exact covers.fault _
        · exact relates_runModule covers nested path module

theorem relates_call (value : Handle) (arguments : List Handle) (caller : Scope) :
    (call evaluator value arguments caller).Relates relation := by
  have method (method : Method) (call : Call) :
      (runMethod evaluator method call).Relates relation := by
    by_cases requiring : method = .require
    · subst requiring
      exact covers.bind (covers.of (alters_argumentOf call 0)) fun _ =>
        covers.bind (covers.of (alters_stringValue _)) fun _ => relates_require covers nested _ _
    · exact covers.of (alters_runMethod evaluator requiring call)
  refine covers.bind (covers.of (alters_payload value)) fun found => ?_
  cases found with
  | lambda callable =>
      refine covers.bind (covers.ask _) fun selected => ?_
      cases selected with
      | none => exact covers.fault _
      | some best =>
          obtain ⟨⟨parameters, body⟩, literals⟩ := best
          cases body with
          | method native => exact method native _
          | block body => exact relates_callBlock covers nested callable parameters arguments body
  | _ => exact covers.bind (covers.ask _) fun _ => covers.fault _

theorem relates_evaluatePair (scope : Scope) (pair : Pair) :
    (evaluatePair evaluator scope pair).Relates relation :=
  covers.bind (nested scope pair.key) fun _ => covers.bind (nested scope pair.value) fun _ =>
    covers.of (alters_newKeyValue _ _)

theorem relates_evaluateOverload (scope : Scope) (definition : Lambda) :
    (evaluateOverload evaluator scope definition).Relates relation := by
  refine covers.bind (covers.mapM fun parameter => ?_) fun _ => covers.pure _
  unfold evaluateParameter
  split
  · exact covers.pure _
  · exact covers.bind (nested scope _) fun _ => covers.pure _

theorem relates_evaluateParent (scope : Scope) (ancestor : Node) :
    (evaluateParent evaluator scope ancestor).Relates relation := by
  refine covers.bind (nested scope ancestor) fun parent =>
    covers.bind (covers.ask _) fun isClass => ?_
  cases isClass with
  | true => exact covers.pure parent
  | false => exact .locate (covers.of (alters_unexpected _ _)) _

theorem relates_matchesAny (scope : Scope) (subject : Handle) (matchers : List Node) :
    (matchesAny evaluator scope subject matchers).Relates relation := by
  induction matchers with
  | nil => exact covers.pure _
  | cons candidate rest ih =>
      refine covers.bind (nested scope candidate) fun value =>
        covers.bind (covers.ask _) fun same => ?_
      cases same with
      | true => exact covers.pure true
      | false => exact ih

theorem relates_findCase (scope : Scope) (subject : Handle) (cases : List Case) :
    (findCase evaluator scope subject cases).Relates relation := by
  induction cases with
  | nil => exact covers.pure _
  | cons case rest ih =>
      refine covers.bind (relates_matchesAny covers nested scope subject case.matchers)
        fun found => ?_
      cases found with
      | true => exact covers.pure _
      | false => exact ih

theorem relates_evaluateSwitch (scope : Scope) (subject : Node) (cases : List Case)
    (otherwise : Option Clause) :
    (evaluateSwitch evaluator scope subject cases otherwise).Relates relation := by
  refine covers.bind (nested scope subject) fun value =>
    covers.bind (relates_findCase covers nested scope value cases) fun found => ?_
  cases found with
  | some body => exact relates_runBlock covers nested scope body
  | none =>
      cases otherwise with
      | some clause => exact relates_runBlock covers nested scope clause.body
      | none => exact covers.bind (covers.ask _) fun _ => covers.fault _

theorem relates_attempt (scope : Scope) (body : Block) (handlers : List Handler)
    (cleanup : Option Clause) :
    (attempt evaluator scope body handlers cleanup).Relates relation := by
  have handled : (handled evaluator scope body handlers).Relates relation := by
    refine covers.bind (.settle (relates_runBlock covers nested scope body)) fun completion =>
      covers.bind (covers.of (alters_caught completion)) fun value => ?_
    cases value with
    | none => exact covers.pure _
    | some value =>
        refine covers.bind (covers.of (alters_findHandler scope value handlers)) fun handler => ?_
        cases handler with
        | none => exact covers.pure _
        | some handler =>
            exact .settle (covers.bind (covers.of (alters_enter scope)) fun frame =>
              covers.bind (covers.of (alters_bindName frame _ value)) fun _ =>
                relates_runBlock covers nested frame handler.body)
  have resumed (completion : Completion Handle) : completion.resume.Relates relation :=
    .resume covers.refl completion
  refine covers.bind handled fun completion => ?_
  cases cleanup with
  | none => exact resumed completion
  | some clause =>
      exact covers.bind (relates_runBlock covers nested scope clause.body) fun _ =>
        resumed completion

theorem relates_evaluatePayload (scope : Scope) (payload : Option Node) :
    (evaluatePayload evaluator scope payload).Relates relation := by
  cases payload with
  | none => exact covers.pure _
  | some node => exact nested scope node

theorem relates_assign (scope : Scope) (target value : Node)
    (assigns : ∀ object key place, target = .property object key place →
      ∀ owner, allows (.assign owner key)) :
    (assign evaluator scope target value).Relates relation := by
  unfold assign
  split
  · rename_i name
    have bound (value : Handle) : (bindName scope name.text value >>= fun _ =>
        (pure value : Action Handle)).Relates relation :=
      covers.bind (covers.of (alters_bindName scope name.text value)) fun _ => covers.pure value
    refine covers.bind (nested scope value) fun value => covers.bind (covers.ask _) fun isClass => ?_
    cases isClass with
    | true =>
        exact covers.bind (covers.of (alters_nameClass value name.text)) fun _ => bound value
    | false => exact bound value
  · rename_i object key place
    refine covers.bind (nested scope object) fun owner => covers.bind (nested scope value)
      fun value => covers.bind (covers.of (alters_set key value (assigns object key place rfl owner)))
        fun _ => covers.pure value
  · exact .fail covers.refl _

section

variable {read : Handle → String → Action Handle}
  (reads : ∀ receiver key, (read receiver key).Relates relation)
include reads

/-- Running the body of a class that has been made. -/
theorem relates_classBody (made : Handle) (scope : Scope) (body : Block) :
    (do
      let prototype ← read made "@"
      let inner ← enter scope
      bindName inner "self" made
      bindName inner "@" prototype
      let _ ← run evaluator inner body.statements
      return made : Action Handle).Relates relation :=
  covers.bind (reads made "@") fun _ => covers.bind (covers.of (alters_enter scope)) fun inner =>
    covers.bind (covers.of (alters_bindName inner "self" made)) fun _ =>
      covers.bind (covers.of (alters_bindName inner "@" _)) fun _ =>
        covers.bind (relates_run covers nested inner body.statements) fun _ => covers.pure made

theorem relates_stepReading (defines : ∀ closure overloads, allows (.define closure overloads))
    (scope : Scope) (node : Node)
    (assigns : ∀ object key inner value place,
      node = .assignment (.property object key inner) value place →
      ∀ owner, allows (.assign owner key)) :
    (stepReading read evaluator scope node).Relates relation := by
  have raised (signal : Signal) : (raise signal : Action Handle).Relates relation :=
    .raise covers.refl signal
  cases node with
  | comment text place => exact covers.pure _
  | reference name =>
      refine covers.bind (.world covers.refl) fun world => ?_
      split
      · exact covers.pure _
      · exact covers.fault _
  | integer digits place => exact covers.of (alters_integerLiteral digits)
  | decimal digits place => exact covers.of (alters_decimalLiteral digits)
  | character glyph => exact covers.of (alters_newCharacter _)
  | string glyphs place => exact covers.of (alters_newString _)
  | regularExpression glyphs place => exact covers.of (alters_newRegularExpression _)
  | interpolation body place =>
      exact covers.bind (covers.of (alters_enter scope)) fun inner =>
        covers.bind (relates_run covers nested inner body) fun last =>
          covers.bind (reads last _) fun _ => relates_call covers nested _ _ _
  | keyValue pair => exact relates_evaluatePair covers nested scope pair
  | range start last exclusive place =>
      exact covers.bind (nested scope start) fun _ => covers.bind (nested scope last) fun _ =>
        covers.of (alters_newRange _ _ _)
  | list items place =>
      exact covers.bind (covers.mapM fun item => nested scope item) fun _ =>
        covers.of (alters_newList _)
  | map pairs place =>
      exact covers.bind (covers.mapM fun pair => relates_evaluatePair covers nested scope pair)
        fun _ => covers.of (alters_newMap _)
  | assignment target value place =>
      refine relates_assign covers nested scope target value fun object key inner shape => ?_
      exact assigns object key inner value place (by rw [shape])
  | property object key place =>
      exact covers.bind (nested scope object) fun _ => reads _ key
  | invocation callable arguments place =>
      exact covers.bind (nested scope callable) fun _ =>
        covers.bind (covers.mapM fun argument => nested scope argument) fun _ =>
          relates_call covers nested _ _ scope
  | lambda definition =>
      exact covers.bind (relates_evaluateOverload covers nested scope definition) fun _ =>
        covers.of (alters_newLambda (defines _ _))
  | overloads definitions place =>
      exact covers.bind
        (covers.mapM fun definition => relates_evaluateOverload covers nested scope definition)
        fun _ => covers.of (alters_newLambda (defines _ _))
  | classDefinition ancestors body place =>
      exact covers.bind
        (covers.mapM fun ancestor => relates_evaluateParent covers nested scope ancestor)
        fun parents => covers.bind (covers.of (alters_newClass none parents)) fun made =>
          relates_classBody covers nested reads made scope body
  | block body => exact relates_runBlock covers nested scope body
  | conditional condition body otherwise place =>
      refine covers.bind (nested scope condition) fun value =>
        covers.bind (reads value _) fun _ =>
          covers.bind (relates_call covers nested _ _ _) fun truth => ?_
      split
      · exact relates_runBlock covers nested scope body
      · exact relates_runBlock covers nested scope otherwise
  | switch subject cases otherwise place =>
      exact relates_evaluateSwitch covers nested scope subject cases otherwise
  | attempt body handlers cleanup place =>
      exact relates_attempt covers nested scope body handlers cleanup
  | throwing payload place => exact covers.bind (nested scope payload) fun _ => raised _
  | returning payload place =>
      exact covers.bind (relates_evaluatePayload covers nested scope payload) fun _ => raised _
  | exiting payload place =>
      exact covers.bind (relates_evaluatePayload covers nested scope payload) fun _ => raised _

end

end

section

variable {evaluator : Evaluator} (nested : evaluator.Alters allows)
include nested

theorem alters_evaluateParent (scope : Scope) (ancestor : Node) :
    (evaluateParent evaluator scope ancestor).Alters allows :=
  relates_evaluateParent .alters nested scope ancestor

variable (caches : ∀ owner key, allows (.cache owner key))
include caches

theorem alters_classBody (made : Handle) (scope : Scope) (body : Block) :
    (do
      let prototype ← get made "@"
      let inner ← enter scope
      bindName inner "self" made
      bindName inner "@" prototype
      let _ ← run evaluator inner body.statements
      return made : Action Handle).Alters allows :=
  relates_classBody .alters nested (alters_get caches) made scope body

theorem alters_step (defines : ∀ closure overloads, allows (.define closure overloads))
    (scope : Scope) (node : Node)
    (assigns : ∀ object key inner value place,
      node = .assignment (.property object key inner) value place →
      ∀ owner, allows (.assign owner key)) :
    (step evaluator scope node).Alters allows := by
  rw [← stepReading_get]
  exact relates_stepReading .alters nested (alters_get caches) defines scope node assigns

end

theorem alters_uncaught (value : Handle) (place : Location) :
    (uncaught value place : Action α).Alters allows := by
  refine (Alters.ask _).bind fun message => ?_
  cases message with
  | some message => exact .fail _
  | none => exact (Alters.ask _).bind fun _ => .fail _

end Action

/-- By induction on the depth: what a step calls or nests runs one level deeper. -/
theorem alters_evaluate (depth : Nat) : (evaluate depth).Alters fun _ => True := by
  induction depth with
  | zero => exact fun _ _ => .halt _
  | succ depth ih =>
      exact fun scope node => .locate (Action.alters_step ih (fun _ _ => trivial)
        (fun _ _ => trivial) scope node fun _ _ _ _ _ _ _ => trivial) _

namespace Session

open RipInterpreter.Action

/-- Runs a module in a scope with any evaluator. -/
def interpretInBy (evaluator : Evaluator) (module : Syntax.Module) (scope : Scope) :
    Action Handle := do
  endModule (← settle (run evaluator scope module.statements))

/-- Runs a module in a frame of its own with any evaluator. -/
def interpretBy (evaluator : Evaluator) (module : Syntax.Module) : Action Handle := do
  interpretInBy evaluator module (← enterFrom Kernel.globals module.location.origin)

theorem alters_endModule {allows : Deed → Prop} (completion : Completion Handle) :
    (endModule completion).Alters allows := by
  unfold endModule
  split
  · exact .pure _
  · exact .pure _
  · exact alters_uncaught _ _
  · exact .resume World.Alters.refl _

theorem relates_interpretInBy {allows : Deed → Prop} {relation : World → World → Prop}
    {evaluator : Evaluator} (covers : World.Covers allows relation)
    (nested : evaluator.Relates relation) (module : Syntax.Module) (scope : Scope) :
    (interpretInBy evaluator module scope).Relates relation :=
  covers.bind (.settle (relates_run covers nested scope module.statements)) fun completion =>
    covers.of (alters_endModule completion)

theorem relates_interpretBy {allows : Deed → Prop} {relation : World → World → Prop}
    {evaluator : Evaluator} (covers : World.Covers allows relation)
    (nested : evaluator.Relates relation) (module : Syntax.Module) :
    (interpretBy evaluator module).Relates relation :=
  covers.bind (covers.of (alters_enterFrom _ _)) fun scope =>
    relates_interpretInBy covers nested module scope

theorem alters_interpretInBy {allows : Deed → Prop} {evaluator : Evaluator}
    (nested : evaluator.Alters allows) (module : Syntax.Module) (scope : Scope) :
    (interpretInBy evaluator module scope).Alters allows :=
  relates_interpretInBy .alters nested module scope

theorem alters_interpretBy {allows : Deed → Prop} {evaluator : Evaluator}
    (nested : evaluator.Alters allows) (module : Syntax.Module) :
    (interpretBy evaluator module).Alters allows := relates_interpretBy .alters nested module

theorem alters_interpretIn (depth : Nat) (module : Syntax.Module) (scope : Scope) :
    (interpretIn depth module scope).Alters fun _ => True :=
  alters_interpretInBy (alters_evaluate depth) module scope

theorem alters_interpret (depth : Nat) (module : Syntax.Module) :
    (interpret depth module).Alters fun _ => True :=
  alters_interpretBy (alters_evaluate depth) module

/-- By induction on what the driver was asked to do. -/
theorem Reachable.changes {loader : Loader} {searchPaths : List String} {world : World}
    (reached : Reachable loader searchPaths world) :
    Kernel.heap.Changes (fun _ => True) world.heap := by
  induction reached with
  | fresh => exact .refl _
  | globalContext _ left ih => exact ih.trans (alters_enter _ _ _ left)
  | interpretIn _ depth module scope left ih =>
      exact ih.trans (alters_interpretIn depth module scope _ _ left)
  | interpret _ depth module left ih => exact ih.trans (alters_interpret depth module _ _ left)

end Session

end RipInterpreter
