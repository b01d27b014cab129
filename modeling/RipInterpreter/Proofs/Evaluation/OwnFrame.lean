import RipInterpreter.Evaluation.Session
import RipInterpreter.Proofs.Machine.FrameWrites
import RipInterpreter.Proofs.Machine.Questions
import RipInterpreter.Proofs.Syntax.PlainModules

namespace RipInterpreter

open Syntax

/-- Every node binds its targets at most. -/
def Evaluator.WritesTargets (evaluator : Evaluator) : Prop :=
  ∀ scope node, (evaluator scope node).Writes scope node.Binds

namespace Action

theorem writes_bindParameters (scope : Scope) (parameters : List Parameter)
    (arguments : List Handle) :
    (bindParameters scope parameters arguments).Writes scope fun _ => True := by
  induction parameters generalizing arguments with
  | nil => exact (ObjectsOnly.pure ()).writes
  | cons parameter rest ih =>
      cases arguments with
      | nil => cases parameter <;> exact (ObjectsOnly.pure ()).writes
      | cons argument others =>
          cases parameter with
          | binding name =>
              exact ((writes_bindName scope name argument).mono fun _ _ => trivial).bind
                fun _ => ih others
          | matcher value => exact ih others

theorem writes_runFrom {evaluator : Evaluator} {scope : Scope} {new : String → Prop} (last : Handle)
    {statements : List Node}
    (each : ∀ statement ∈ statements, (evaluator scope statement).Writes scope new) :
    (runFrom evaluator scope last statements).Writes scope new := by
  induction statements generalizing last with
  | nil => exact (ObjectsOnly.pure last).writes
  | cons statement rest ih =>
      exact (each statement List.mem_cons_self).bind fun value =>
        ih _ fun other inside => each other (List.mem_cons_of_mem statement inside)

section

variable {evaluator : Evaluator} (nested : evaluator.WritesTargets)
include nested

theorem writes_run (scope : Scope) (statements : List Node) :
    (run evaluator scope statements).Writes scope
      fun name => ∃ statement ∈ statements, statement.Binds name :=
  writes_runFrom .nil fun statement inside =>
    (nested scope statement).mono fun _ bound => ⟨statement, inside, bound⟩

theorem keepsFrames_runBlock (scope : Scope) (block : Block) :
    (runBlock evaluator scope block).KeepsFrames :=
  keepsFrames_enter fun inner => ⟨_, writes_run nested inner block.statements⟩

theorem keepsFrames_callBlock (callable : Callable) (parameters : List Parameter)
    (arguments : List Handle) (body : Block) :
    (callBlock evaluator callable parameters arguments body).KeepsFrames := by
  refine keepsFrames_enter fun frame => ⟨fun _ => True, ?_⟩
  have ran : (bindParameters frame parameters arguments >>= fun _ =>
      catchReturned (run evaluator frame body.statements)).Writes frame fun _ => True :=
    (writes_bindParameters frame parameters arguments).bind fun _ =>
      .catchReturned ((writes_run nested frame body.statements).mono fun _ _ => trivial)
  cases callable.receiver with
  | none => exact ran
  | some receiver =>
      exact ((writes_bindName frame "@" receiver).mono fun _ _ => trivial).bind fun _ => ran

theorem keepsFrames_runModule (path : String) (module : Syntax.Module) :
    (runModule evaluator path module).KeepsFrames := by
  have resumed (completion : Completion Handle) : completion.resume.KeepsFrames :=
    .resume (fun world => .refl world.frames) completion
  have noted (value : Handle) : (do
      change fun world => { world with loaded := (Path.key path, value) :: world.loaded }
      return value : Action Handle).KeepsFrames := by
    refine KeepsFrames.bind ?_ fun _ => (ObjectsOnly.pure value).keepsFrames
    exact keepsFrames_change fun _ => rfl
  unfold runModule
  refine KeepsFrames.bind ?_ fun _ => keepsFrames_enterFrom fun scope => ⟨_,
    Writes.bind (Relates.settle (writes_run nested scope module.statements)) fun completion =>
      (KeepsFrames.bind ?_ fun _ => ?_).writes⟩
  · exact keepsFrames_change fun _ => rfl
  · exact keepsFrames_change fun _ => rfl
  · split
    · exact noted _
    · exact noted _
    · exact resumed completion

theorem keepsFrames_require (name : String) (scope : Scope) :
    (require evaluator name scope).KeepsFrames := by
  have requested : (requestModule name scope).KeepsFrames := by
    intro world after left
    cases left
    exact .refl world.frames
  refine requested.bind fun answer => ?_
  cases answer with
  | refused error => exact (ObjectsOnly.fail error).keepsFrames
  | unseen path => exact .halt _
  | found path module =>
      refine ObjectsOnly.world.keepsFrames.bind fun state => ?_
      split
      · exact (ObjectsOnly.pure _).keepsFrames
      · split
        · exact (ObjectsOnly.fault _).keepsFrames
        · exact keepsFrames_runModule nested path module

theorem keepsFrames_runMethod (method : Method) (call : Call) :
    (runMethod evaluator method call).KeepsFrames := by
  by_cases requiring : method = .require
  · subst requiring
    exact (ObjectsOnly.law.argumentOf call 0).keepsFrames.bind fun _ =>
      (ObjectsOnly.law.stringValue _).keepsFrames.bind fun _ => keepsFrames_require nested _ _
  · exact (ObjectsOnly.law.runMethod evaluator requiring call).keepsFrames

theorem keepsFrames_call (value : Handle) (arguments : List Handle) (caller : Scope) :
    (call evaluator value arguments caller).KeepsFrames := by
  refine (ObjectsOnly.law.payload value).keepsFrames.bind fun found => ?_
  cases found with
  | lambda callable =>
      refine (ObjectsOnly.ask _).keepsFrames.bind fun selected => ?_
      cases selected with
      | none => exact (ObjectsOnly.fault _).keepsFrames
      | some best =>
          obtain ⟨⟨parameters, body⟩, literals⟩ := best
          cases body with
          | method method => exact keepsFrames_runMethod nested method _
          | block body => exact keepsFrames_callBlock nested callable parameters arguments body
  | _ => exact ((ObjectsOnly.ask _).bind fun _ => .fault _ : ObjectsOnly _).keepsFrames

theorem keepsFrames_send (receiver : Handle) (method : String) (arguments : List Handle)
    (caller : Scope) : (send evaluator receiver method arguments caller).KeepsFrames :=
  (ObjectsOnly.law.get receiver method).keepsFrames.bind fun _ => keepsFrames_call nested _ _ _

theorem writes_assign (scope : Scope) (target value : Node) (place : Location) :
    (assign evaluator scope target value).Writes scope
      (Node.assignment target value place).Binds := by
  unfold assign
  split
  · rename_i name
    have bound (value' : Handle) : (bindName scope name.text value' >>= fun _ =>
        (pure value' : Action Handle)).Writes scope
          (Node.assignment (.reference name) value place).Binds :=
      ((writes_bindName scope name.text value').mono fun _ same =>
        same ▸ .target name value place).bind fun _ => (ObjectsOnly.pure value').writes
    refine ((nested scope value).mono fun _ => .part List.mem_cons_self).bind fun value' =>
      (ObjectsOnly.ask _).writes.bind fun isClass => ?_
    cases isClass with
    | true => exact (ObjectsOnly.law.nameClass value' name.text).writes.bind fun _ => bound value'
    | false => exact bound value'
  · rename_i object key location
    have second : value ∈ (Node.assignment (.property object key location) value place).parts :=
      List.mem_cons_of_mem object List.mem_cons_self
    exact ((nested scope object).mono fun _ => .part List.mem_cons_self).bind fun object =>
      ((nested scope value).mono fun _ => .part second).bind fun value =>
        (ObjectsOnly.law.set object key value).writes.bind fun _ => (ObjectsOnly.pure value).writes
  · exact (ObjectsOnly.fail _).writes

theorem writes_evaluateOverload (scope : Scope) (definition : Lambda) :
    (evaluateOverload evaluator scope definition).Writes scope
      fun name => ∃ parameter ∈ definition.parameters, parameter.Binds name := by
  refine (Writes.mapM fun parameter inside => ?_).bind fun _ => (ObjectsOnly.pure _).writes
  unfold evaluateParameter
  split
  · exact (ObjectsOnly.pure _).writes
  · exact ((nested scope _).mono fun _ bound => ⟨_, inside, bound⟩).bind fun _ =>
      (ObjectsOnly.pure _).writes

theorem writes_evaluatePair (scope : Scope) (pair : Pair) :
    (evaluatePair evaluator scope pair).Writes scope
      fun name => pair.key.Binds name ∨ pair.value.Binds name :=
  ((nested scope pair.key).mono fun _ => .inl).bind fun _ =>
    ((nested scope pair.value).mono fun _ => .inr).bind fun _ =>
      (ObjectsOnly.law.newKeyValue _ _).writes

theorem writes_evaluateParent (scope : Scope) (ancestor : Node) :
    (evaluateParent evaluator scope ancestor).Writes scope ancestor.Binds := by
  refine (nested scope ancestor).bind fun parent => (ObjectsOnly.ask _).writes.bind fun isClass => ?_
  cases isClass with
  | true => exact (ObjectsOnly.pure parent).writes
  | false => exact .locate (ObjectsOnly.law.unexpected _ _).writes _

theorem writes_evaluateClass (scope : Scope) (ancestors : List Node) (body : Block) :
    (evaluateClass evaluator scope ancestors body).Writes scope
      fun name => ∃ ancestor ∈ ancestors, ancestor.Binds name := by
  have parents : (ancestors.mapM (evaluateParent evaluator scope)).Writes scope
      fun name => ∃ ancestor ∈ ancestors, ancestor.Binds name :=
    .mapM fun ancestor inside =>
      (writes_evaluateParent nested scope ancestor).mono fun _ bound => ⟨ancestor, inside, bound⟩
  refine parents.bind fun parents => (ObjectsOnly.law.newClass none parents).writes.bind fun made =>
    (ObjectsOnly.law.get made "@").writes.bind fun prototype =>
      (keepsFrames_enter fun inner => ⟨fun _ => True, ?_⟩).writes
  exact ((writes_bindName inner "self" made).mono fun _ _ => trivial).bind fun _ =>
    ((writes_bindName inner "@" prototype).mono fun _ _ => trivial).bind fun _ =>
      ((writes_run nested inner body.statements).mono fun _ _ => trivial).bind fun _ =>
        (ObjectsOnly.pure made).writes

theorem keepsFrames_holds (scope : Scope) (value : Handle) :
    (holds evaluator scope value).KeepsFrames :=
  (keepsFrames_send nested value "to_boolean" [] scope).bind fun _ =>
    (ObjectsOnly.pure _).keepsFrames

theorem writes_matchesAny (scope : Scope) (subject : Handle) (matchers : List Node) :
    (matchesAny evaluator scope subject matchers).Writes scope
      fun name => ∃ matcher ∈ matchers, matcher.Binds name := by
  induction matchers with
  | nil => exact (ObjectsOnly.pure _).writes
  | cons candidate rest ih =>
      refine ((nested scope candidate).mono fun _ bound =>
        ⟨candidate, List.mem_cons_self, bound⟩).bind fun value =>
          (ObjectsOnly.ask _).writes.bind fun same => ?_
      cases same with
      | true => exact (ObjectsOnly.pure true).writes
      | false =>
          exact ih.mono fun _ ⟨matcher, inside, bound⟩ =>
            ⟨matcher, List.mem_cons_of_mem candidate inside, bound⟩

theorem writes_findCase (scope : Scope) (subject : Handle) (cases : List Case) :
    (findCase evaluator scope subject cases).Writes scope
      fun name => ∃ matcher ∈ cases.flatMap Case.matchers, matcher.Binds name := by
  induction cases with
  | nil => exact (ObjectsOnly.pure _).writes
  | cons case rest ih =>
      refine ((writes_matchesAny nested scope subject case.matchers).mono
        fun _ ⟨matcher, inside, bound⟩ =>
          ⟨matcher, List.mem_append_left _ inside, bound⟩).bind fun found => ?_
      cases found with
      | true => exact (ObjectsOnly.pure _).writes
      | false =>
          exact ih.mono fun _ ⟨matcher, inside, bound⟩ =>
            ⟨matcher, List.mem_append_right _ inside, bound⟩

theorem writes_evaluateSwitch (scope : Scope) (subject : Node) (cases : List Case)
    (otherwise : Option Clause) (place : Location) :
    (evaluateSwitch evaluator scope subject cases otherwise).Writes scope
      (Node.switch subject cases otherwise place).Binds := by
  refine ((nested scope subject).mono fun _ => .part List.mem_cons_self).bind fun value =>
    ((writes_findCase nested scope value cases).mono fun _ ⟨matcher, inside, bound⟩ =>
      .part (List.mem_cons_of_mem subject inside) bound).bind fun found => ?_
  cases found with
  | some body => exact (keepsFrames_runBlock nested scope body).writes
  | none =>
      cases otherwise with
      | some clause => exact (keepsFrames_runBlock nested scope clause.body).writes
      | none => exact ((ObjectsOnly.ask _).bind fun _ => .fault _ : ObjectsOnly _).writes

theorem keepsFrames_runHandler (scope : Scope) (handler : Handler) (value : Handle) :
    (runHandler evaluator scope handler value).KeepsFrames :=
  keepsFrames_enter fun frame => ⟨_, (writes_bindName frame handler.binding.text value).bind
    fun _ => (keepsFrames_runBlock nested frame handler.body).writes⟩

theorem keepsFrames_handled (scope : Scope) (body : Block) (handlers : List Handler) :
    (handled evaluator scope body handlers).KeepsFrames := by
  refine KeepsFrames.bind (Relates.settle (keepsFrames_runBlock nested scope body))
    fun completion => (objectsOnly_caught completion).keepsFrames.bind fun value => ?_
  cases value with
  | none => exact (ObjectsOnly.pure _).keepsFrames
  | some value =>
      refine (objectsOnly_findHandler scope value handlers).keepsFrames.bind fun handler => ?_
      cases handler with
      | none => exact (ObjectsOnly.pure _).keepsFrames
      | some handler => exact Relates.settle (keepsFrames_runHandler nested scope handler value)

theorem keepsFrames_attempt (scope : Scope) (body : Block) (handlers : List Handler)
    (cleanup : Option Clause) : (attempt evaluator scope body handlers cleanup).KeepsFrames := by
  have resumed (completion : Completion Handle) : completion.resume.KeepsFrames :=
    .resume (fun world => .refl world.frames) completion
  refine (keepsFrames_handled nested scope body handlers).bind fun completion => ?_
  cases cleanup with
  | none => exact resumed completion
  | some clause =>
      exact (keepsFrames_runBlock nested scope clause.body).bind fun _ => resumed completion

theorem writes_evaluatePayload (scope : Scope) (payload : Option Node) :
    (evaluatePayload evaluator scope payload).Writes scope
      fun name => ∃ node ∈ payload.toList, node.Binds name := by
  cases payload with
  | none => exact (ObjectsOnly.pure _).writes
  | some node =>
      exact (nested scope node).mono fun _ bound => ⟨node, List.mem_singleton_self node, bound⟩

theorem writes_step (scope : Scope) (node : Node) :
    (step evaluator scope node).Writes scope node.Binds := by
  have raised (signal : Signal) : (raise signal : Action Handle).KeepsFrames :=
    .raise (fun world => .refl world.frames) signal
  have made := ObjectsOnly.law.newInstance
  have part {inner : Node} (inside : inner ∈ node.parts) :
      (evaluator scope inner).Writes scope node.Binds :=
    (nested scope inner).mono fun _ => .part inside
  cases node with
  | comment text place => exact (ObjectsOnly.pure _).writes
  | reference name =>
      refine (ObjectsOnly.world.bind fun world => ?_).writes
      split
      · exact .pure _
      · exact .fault _
  | integer digits place => exact (ObjectsOnly.law.integerLiteral digits).writes
  | decimal digits place => exact (ObjectsOnly.law.decimalLiteral digits).writes
  | character glyph => exact (made _ _).writes
  | string glyphs place => exact (made _ _).writes
  | regularExpression glyphs place => exact (made _ _).writes
  | interpolation body place =>
      exact KeepsFrames.writes <| keepsFrames_enter fun inner =>
        ⟨_, (writes_run nested inner body).bind fun _ => (keepsFrames_send nested _ _ _ _).writes⟩
  | keyValue pair =>
      refine (writes_evaluatePair nested scope pair).mono fun name bound => ?_
      rcases bound with bound | bound
      · exact .part List.mem_cons_self bound
      · exact .part (List.mem_cons_of_mem _ List.mem_cons_self) bound
  | range start last exclusive place =>
      exact (part List.mem_cons_self).bind fun _ =>
        (part (List.mem_cons_of_mem start List.mem_cons_self)).bind fun _ =>
          (ObjectsOnly.law.newRange _ _ _).writes
  | list items place =>
      exact (Writes.mapM fun item inside => part inside).bind fun _ => (made _ _).writes
  | map pairs place =>
      refine (Writes.mapM fun pair inside =>
        (writes_evaluatePair nested scope pair).mono fun name bound => ?_).bind fun _ =>
          (made _ _).writes
      have inner {content : Node} (held : content ∈ [pair.key, pair.value]) :
          content ∈ (Node.map pairs place).parts :=
        List.mem_flatMap.mpr ⟨pair, inside, held⟩
      rcases bound with bound | bound
      · exact .part (inner List.mem_cons_self) bound
      · exact .part (inner (List.mem_cons_of_mem _ List.mem_cons_self)) bound
  | assignment target value place => exact writes_assign nested scope target value place
  | property object key place =>
      exact (part List.mem_cons_self).bind fun _ => (ObjectsOnly.law.get _ key).writes
  | invocation callable arguments place =>
      exact (part List.mem_cons_self).bind fun _ =>
        (Writes.mapM fun argument inside => part (List.mem_cons_of_mem callable inside)).bind
          fun _ => (keepsFrames_call nested _ _ scope).writes
  | lambda definition =>
      exact ((writes_evaluateOverload nested scope definition).mono
        fun _ ⟨_, inside, bound⟩ => .parameter inside bound).bind fun _ => (made _ _).writes
  | overloads definitions place =>
      refine (Writes.mapM fun definition written =>
        (writes_evaluateOverload nested scope definition).mono
          fun _ ⟨parameter, inside, bound⟩ => ?_).bind fun _ => (made _ _).writes
      exact .parameter (List.mem_flatMap.mpr ⟨definition, written, inside⟩) bound
  | classDefinition ancestors body place =>
      exact (writes_evaluateClass nested scope ancestors body).mono
        fun _ ⟨_, inside, bound⟩ => .part inside bound
  | block body => exact (keepsFrames_runBlock nested scope body).writes
  | conditional condition body otherwise place =>
      refine (part List.mem_cons_self).bind fun value =>
        (keepsFrames_holds nested scope value).writes.bind fun truth => ?_
      cases truth with
      | true => exact (keepsFrames_runBlock nested scope body).writes
      | false => exact (keepsFrames_runBlock nested scope otherwise).writes
  | switch subject cases otherwise place =>
      exact writes_evaluateSwitch nested scope subject cases otherwise place
  | attempt body handlers cleanup place =>
      exact (keepsFrames_attempt nested scope body handlers cleanup).writes
  | throwing payload place => exact (part List.mem_cons_self).bind fun _ => (raised _).writes
  | returning payload place =>
      exact ((writes_evaluatePayload nested scope payload).mono
        fun _ ⟨_, inside, bound⟩ => .part inside bound).bind fun _ => (raised _).writes
  | exiting payload place =>
      exact ((writes_evaluatePayload nested scope payload).mono
        fun _ ⟨_, inside, bound⟩ => .part inside bound).bind fun _ => (raised _).writes

end

end Action

/-- By induction on the depth: what a step calls or nests runs one level deeper. -/
theorem writesTargets_evaluate (depth : Nat) : (evaluate depth).WritesTargets := by
  induction depth with
  | zero => exact fun _ _ => .halt _
  | succ depth ih => exact fun scope node => .locate (Action.writes_step ih scope node) _

/-- However a node or a list of statements ends, every frame that was there is the same afterwards,
but for the innermost one of its scope. That one keeps its bindings, and the names it gains are
targets of assignments written in the node itself. In what is read from a text the heads of lambdas
hold only names and literals; in a tree made by hand an assignment may hide there. -/
theorem evaluation_extends_own_frame (depth : Nat) (scope : Scope) (world : World)
    (held : scope.own < world.frames.frames.size) :
    (∀ node after, (evaluate depth scope node world).world? = some after →
      world.frames.Extended scope.own node.Binds after.frames ∧
      (node.Written → world.frames.Extended scope.own node.Assigns after.frames)) ∧
    ∀ statements after, (Action.run (evaluate depth) scope statements world).world? = some after →
      world.frames.Extended scope.own (fun name => ∃ statement ∈ statements, statement.Binds name)
        after.frames ∧
      ((∀ statement ∈ statements, statement.Written) →
        world.frames.Extended scope.own
          (fun name => ∃ statement ∈ statements, statement.Assigns name) after.frames) := by
  constructor
  · intro node after left
    have extended := writesTargets_evaluate depth scope node world after left held
    exact ⟨extended, fun written => extended.mono fun _ bound => bound.assigns written.plain⟩
  · intro statements after left
    have extended :=
      Action.writes_run (writesTargets_evaluate depth) scope statements world after left held
    refine ⟨extended, fun written => extended.mono fun name ⟨statement, inside, bound⟩ => ?_⟩
    exact ⟨statement, inside, bound.assigns (written statement inside).plain⟩

/-- After `x = true` on a new machine its frame binds `x` as well, and nothing else. So it does once a
lambda was made that has `x = true` in its head, which no text can have there. -/
theorem evaluation_extends_own_frame_of_assignment :
    let start := World.fresh ⟨fun _ name paths => .refused (.missingModule name paths)⟩ []
    let place := Location.start "text"
    let assignment : Node := .assignment (.reference ⟨"x", place⟩) (.reference ⟨"true", place⟩) place
    let lambda : Node := .lambda ⟨.lambda, [assignment], ⟨[], place⟩, place⟩
    (∃ module after, Module.ofText "text" "x = true" = .ok module ∧
      (Action.run (evaluate 2) Kernel.globals module.statements start).world? = some after ∧
      (after.frames.bindingsOf 0).get? "x" = some .trueValue ∧
      start.frames.Extended 0 (fun name => ∃ statement ∈ module.statements, statement.Assigns name)
        after.frames) ∧
    ∃ after, (evaluate 3 Kernel.globals lambda start).world? = some after ∧
      (after.frames.bindingsOf 0).get? "x" = some .trueValue ∧
      start.frames.Extended 0 lambda.Binds after.frames := by
  intro start place assignment lambda
  constructor
  · have computed : ((Module.ofText "text" "x = true").toOption.bind fun module =>
        (Action.run (evaluate 2) Kernel.globals module.statements start).world?.bind fun after =>
          (after.frames.bindingsOf 0).get? "x") = some .trueValue := by
      decide +kernel
    obtain ⟨module, parsed, ran⟩ := Option.bind_eq_some_iff.mp computed
    obtain ⟨after, left, bound⟩ := Option.bind_eq_some_iff.mp ran
    have read : Module.ofText "text" "x = true" = .ok module := eq_ok_of_toOption parsed
    have extended := (evaluation_extends_own_frame 2 Kernel.globals start (by decide)).2
      module.statements after left
    exact ⟨module, after, read, left, bound, extended.2 fun _ stands => .statement read stands⟩
  · have computed : ((evaluate 3 Kernel.globals lambda start).world?.bind fun after =>
        (after.frames.bindingsOf 0).get? "x") = some .trueValue := by
      decide +kernel
    obtain ⟨after, left, bound⟩ := Option.bind_eq_some_iff.mp computed
    have extended := (evaluation_extends_own_frame 3 Kernel.globals start (by decide)).1
      lambda after left
    exact ⟨after, left, bound, extended.1⟩

/-- No assignment is written in this node outside of its lambda, and yet `x` is bound where the lambda
is made. -/
theorem own_frame_gains_names_of_lambda_head :
    let start := World.fresh ⟨fun _ name paths => .refused (.missingModule name paths)⟩ []
    let place := Location.start "text"
    let assignment : Node := .assignment (.reference ⟨"x", place⟩) (.reference ⟨"true", place⟩) place
    let lambda : Node := .lambda ⟨.lambda, [assignment], ⟨[], place⟩, place⟩
    ∃ after, (evaluate 3 Kernel.globals lambda start).world? = some after ∧
      (after.frames.bindingsOf 0).get? "x" = some .trueValue ∧
      ¬ start.frames.Extended 0 lambda.Assigns after.frames := by
  intro start place assignment lambda
  have computed : ((evaluate 3 Kernel.globals lambda start).world?.bind fun after =>
      (after.frames.bindingsOf 0).get? "x") = some .trueValue := by
    decide +kernel
  obtain ⟨after, left, bound⟩ := Option.bind_eq_some_iff.mp computed
  refine ⟨after, left, bound, fun extended => ?_⟩
  rcases extended.gained "x" .trueValue bound with earlier | assigned
  · have unbound : (start.frames.bindingsOf 0).get? "x" = none := by decide +kernel
    rw [unbound] at earlier
    cases earlier
  · change (Node.lambda _).Assigns "x" at assigned
    cases assigned with
    | part inside => cases inside

end RipInterpreter
