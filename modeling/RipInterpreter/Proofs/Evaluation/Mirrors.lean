import RipInterpreter.Evaluation.Session
import RipInterpreter.Proofs.Evaluation.MirrorsMethods

namespace RipInterpreter

open Syntax

/-- The second evaluator does with bare trees what the first one does with trees, which passes over
comments. -/
structure Evaluator.Mirrors (side : Side) (evaluator evaluator₁ : Evaluator) : Prop where
  nodes : ∀ scope node, (evaluator scope node).Mirrors side id (evaluator₁ scope node.bare)
  comments : ∀ scope text place, (evaluator scope (.comment text place)).Mirrors side id (pure .nil)

namespace Action

variable {side : Side} {evaluator evaluator₁ : Evaluator}

theorem blind_integerLiteral (digits : String) : (integerLiteral digits).Blind side := by
  unfold integerLiteral
  split
  · exact blind_newInteger _
  · exact .fault _

theorem blind_decimalLiteral (digits : String) : (decimalLiteral digits).Blind side := by
  unfold decimalLiteral
  split
  · exact blind_newDecimal _
  · exact .fault _

theorem blind_bindParameters (scope : Scope) (parameters : List Parameter)
    (arguments : List Handle) : (bindParameters scope parameters arguments).Blind side := by
  induction parameters generalizing arguments with
  | nil => exact .pure ()
  | cons parameter rest ih =>
      cases arguments with
      | nil => cases parameter <;> exact .pure ()
      | cons argument others =>
          cases parameter with
          | binding name => exact (blind_bindName scope name argument).bind fun _ => ih others
          | matcher value => exact ih others

theorem lookup_stripped (world : World) (scope : Scope) (name : Name) :
    world.stripped.frames.lookup scope name.bare.text = world.frames.lookup scope name.text := rfl

theorem mirrors_accepts (scope : Scope) (matcher : Name) (value : Handle) :
    (accepts scope matcher value).Mirrors side id (accepts scope matcher.bare value) := by
  refine Mirrors.bind .world fun state => ?_
  rw [lookup_stripped]
  cases state.frames.lookup scope matcher.text with
  | none => exact .fail id _
  | some expected =>
      refine Mirrors.bind (Blind.ask fun _ => Heap.isClass_bare) fun isClass => ?_
      cases isClass with
      | true =>
          change Blind side (ask fun heap => heap.isA value expected)
          exact .ask fun _ => Heap.isA_bare
      | false =>
          change Blind side (ask fun heap => heap.equal value expected)
          exact .ask fun _ => Heap.equal_bare

theorem mirrors_findHandler (scope : Scope) (value : Handle) (handlers : List Handler) :
    (findHandler scope value handlers).Mirrors side (Option.map Handler.bare)
      (findHandler scope value (bareHandlers handlers)) := by
  induction handlers with
  | nil => exact .pure (Option.map Handler.bare) none
  | cons handler rest ih =>
      obtain ⟨matcher, binding, body, place⟩ := handler
      have decided (taken : Bool) : Mirrors side (Option.map Handler.bare)
          (if taken = true then (pure (some ⟨matcher, binding, body, place⟩) : Action _)
            else findHandler scope value rest)
          (if taken = true then
            (pure (some ⟨matcher.map Name.bare, binding.bare, body.bare, place.bare⟩) : Action _)
            else findHandler scope value (bareHandlers rest)) := by
        cases taken with
        | true => exact .pure (Option.map Handler.bare) (some ⟨matcher, binding, body, place⟩)
        | false => exact ih
      cases matcher with
      | none => exact decided true
      | some matcher => exact (mirrors_accepts scope matcher value).bind decided

theorem blind_caught (completion : Completion Handle) :
    (caught completion).Mirrors side id (caught completion.bare) := by
  cases completion with
  | value result => exact .pure id none
  | signal raised =>
      cases raised with
      | thrown value place => exact .pure id (some value)
      | _ => exact .pure id none
  | failure error =>
      cases error with
      | runtime reason place =>
          exact (blind_newException reason.message).bind fun exception => .pure (some exception)
      | _ => exact .pure id none

section

variable (nested : evaluator.Mirrors side evaluator₁)
include nested

/-- By induction on the statements; a comment leaves the last value as it was. -/
theorem mirrors_runFrom (scope : Scope) (last : Handle) (statements : List Node) :
    (runFrom evaluator scope last statements).Mirrors side id
      (runFrom evaluator₁ scope last (bareStatements statements)) := by
  induction statements generalizing last with
  | nil => exact .pure id last
  | cons statement rest ih =>
      cases statement with
      | comment text place =>
          have passed : Mirrors side id
              (evaluator scope (.comment text place) >>= fun _ => runFrom evaluator scope last rest)
              ((pure .nil : Action Handle) >>= fun _ =>
                runFrom evaluator₁ scope last (bareStatements rest)) :=
            .bind (nested.comments scope text place) fun _ => ih last
          exact passed
      | _ => exact (nested.nodes scope _).bind fun value => ih value

theorem mirrors_run (scope : Scope) (statements : List Node) :
    (run evaluator scope statements).Mirrors side id
      (run evaluator₁ scope (bareStatements statements)) :=
  mirrors_runFrom nested scope .nil statements

theorem mirrors_runBlock (scope : Scope) (block : Block) :
    (runBlock evaluator scope block).Mirrors side id (runBlock evaluator₁ scope block.bare) := by
  obtain ⟨statements, place⟩ := block
  exact Mirrors.bind (blind_enter scope) fun inner => mirrors_run nested inner statements

theorem mirrors_callBlock (callable : Callable) (parameters : List Parameter)
    (arguments : List Handle) (body : Block) :
    (callBlock evaluator callable parameters arguments body).Mirrors side id
      (callBlock evaluator₁ callable.bare parameters arguments body.bare) := by
  obtain ⟨statements, place⟩ := body
  obtain ⟨closure, overloads, receiver⟩ := callable
  refine Mirrors.bind (blind_enter closure) fun frame => ?_
  have bound : Mirrors side id
      (bindParameters frame parameters arguments >>= fun _ =>
        catchReturned (run evaluator frame statements))
      (bindParameters frame parameters arguments >>= fun _ =>
        catchReturned (run evaluator₁ frame (bareStatements statements))) :=
    .bind (blind_bindParameters frame parameters arguments) fun _ =>
      .catchReturned (mirrors_run nested frame statements)
  cases receiver with
  | none => exact bound
  | some receiver => exact .bind (blind_bindName frame "@" receiver) fun _ => bound

theorem mirrors_runModule (path : String) (module : Syntax.Module) :
    (runModule evaluator path module).Mirrors side id
      (runModule evaluator₁ path module.bare) := by
  refine Mirrors.bind (.change (fun _ => rfl) fun _ => rfl) fun _ => ?_
  refine Mirrors.bind (blind_enterFrom Kernel.globals path) fun scope => ?_
  refine Mirrors.bind (.settle (mirrors_run nested scope module.statements)) fun completion => ?_
  refine Mirrors.bind (.change (fun _ => rfl) fun _ => rfl) fun _ => ?_
  have kept (value : Handle) : Blind side (do
      change fun world => { world with loaded := (Path.key path, value) :: world.loaded }
      return value) := Mirrors.bind (.change (fun _ => rfl) fun _ => rfl) fun _ => .pure id value
  cases completion with
  | value result => exact kept result
  | signal raised =>
      cases raised with
      | returned value => exact kept value
      | thrown value place => exact .raise id (.thrown value place)
      | exited value => exact .raise id (.exited value)
  | failure error => exact .fail id error

theorem mirrors_require (name : String) (scope : Scope) :
    (require evaluator name scope).Mirrors side id (require evaluator₁ name scope) := by
  have requested : (requestModule name scope).Mirrors side LoadAnswer.bare
      (requestModule name scope) := fun _ => .value rfl
  refine Mirrors.bind requested fun answer => ?_
  cases answer with
  | refused error => exact .fail id error
  | unseen path => exact .halt id _ _
  | found path module =>
      refine Mirrors.bind .world fun state => ?_
      have loaded : state.stripped.loaded = state.loaded := rfl
      have loading : state.stripped.loading = state.loading := rfl
      rw [loaded, loading]
      cases state.loaded.lookup (Path.key path) with
      | some value => exact .pure id value
      | none =>
          cases state.loading.contains (Path.key path) with
          | true => exact .fault id _
          | false => exact mirrors_runModule nested path module

theorem mirrors_callMethod (method : Method) (call : Call) :
    (runMethod evaluator method call).Mirrors side id (runMethod evaluator₁ method call) := by
  by_cases requiring : method = .require
  · subst requiring
    exact Mirrors.bind (blind_argumentOf call 0) fun argument =>
      Mirrors.bind (blind_stringValue argument) fun name => mirrors_require nested name call.scope
  · exact mirrors_runMethod evaluator evaluator₁ requiring call

theorem mirrors_call (value : Handle) (arguments : List Handle) (caller : Scope) :
    (call evaluator value arguments caller).Mirrors side id
      (call evaluator₁ value arguments caller) := by
  refine Mirrors.bind (mirrors_payload value) fun found => ?_
  have refused : Blind side (α := Handle) (do
      let text ← ask fun heap => heap.inspect value
      fault (.notCallable text)) := (Blind.ask fun _ => Heap.inspect_bare).bind fun _ => .fault _
  cases found with
  | lambda callable =>
      have selected : Mirrors side Heap.bareBest
          (ask fun heap => heap.selectOverload arguments none callable.overloads)
          (ask fun heap =>
            heap.selectOverload arguments none (callable.overloads.map Overload.bare)) :=
        .ask fun _ => Heap.selectOverload_bare none
      refine Mirrors.bind selected fun best => ?_
      cases best with
      | none => exact .fault id _
      | some best =>
          obtain ⟨⟨parameters, body⟩, literals⟩ := best
          cases body with
          | method method => exact mirrors_callMethod nested method _
          | block body => exact mirrors_callBlock nested callable parameters arguments body
  | _ => exact refused

theorem mirrors_send (receiver : Handle) (method : String) (arguments : List Handle)
    (caller : Scope) :
    (send evaluator receiver method arguments caller).Mirrors side id
      (send evaluator₁ receiver method arguments caller) :=
  Mirrors.bind (blind_get receiver method) fun value => mirrors_call nested value arguments caller

theorem mirrors_assign (scope : Scope) (target value : Node) :
    (assign evaluator scope target value).Mirrors side id
      (assign evaluator₁ scope target.bare value.bare) := by
  have refused : Mirrors side id (fail (.compiler (.notAssignable target.kind) none) : Action Handle)
      (fail (.compiler (.notAssignable target.bare.kind) none)) := by
    rw [kind_bare]
    exact .fail id _
  cases target with
  | reference name =>
      refine Mirrors.bind (nested.nodes scope value) fun value => ?_
      refine Mirrors.bind (Blind.ask fun _ => Heap.isClass_bare) fun isClass => ?_
      have bound : Blind side (do
          bindName scope name.text value
          return value) := (blind_bindName scope name.text value).bind fun _ => .pure value
      cases isClass with
      | true => exact Mirrors.bind (blind_nameClass value name.text) fun _ => bound
      | false => exact bound
  | property object key place =>
      exact .bind (nested.nodes scope object) fun object =>
        .bind (nested.nodes scope value) fun value =>
          Mirrors.bind (blind_set object key value) fun _ => .pure id value
  | _ => exact refused

theorem mirrors_evaluatePair (scope : Scope) (pair : Pair) :
    (evaluatePair evaluator scope pair).Mirrors side id
      (evaluatePair evaluator₁ scope pair.bare) := by
  obtain ⟨key, value, place⟩ := pair
  exact .bind (nested.nodes scope key) fun key => .bind (nested.nodes scope value) fun value =>
    blind_newKeyValue key value

theorem mirrors_evaluateParameter (scope : Scope) (parameter : Node) :
    (evaluateParameter evaluator scope parameter).Mirrors side id
      (evaluateParameter evaluator₁ scope parameter.bare) := by
  have compared : Mirrors side id (Parameter.matcher <$> evaluator scope parameter)
      (Parameter.matcher <$> evaluator₁ scope parameter.bare) :=
    .bind (nested.nodes scope parameter) fun value => .pure id (Parameter.matcher value)
  cases parameter with
  | reference name => exact .pure id (Parameter.binding name.text)
  | _ => exact compared

theorem mirrors_evaluateOverload (scope : Scope) (definition : Lambda) :
    (evaluateOverload evaluator scope definition).Mirrors side Overload.bare
      (evaluateOverload evaluator₁ scope definition.bare) := by
  obtain ⟨word, parameters, body, place⟩ := definition
  have taken := Mirrors.mapM_id (mirrors_evaluateParameter nested scope) parameters
  rw [← bareNodes_eq] at taken
  exact .bind taken fun parameters => .pure Overload.bare ⟨parameters, .block body⟩

theorem mirrors_evaluateParent (scope : Scope) (ancestor : Node) :
    (evaluateParent evaluator scope ancestor).Mirrors side id
      (evaluateParent evaluator₁ scope ancestor.bare) := by
  refine .bind (nested.nodes scope ancestor) fun parent => ?_
  refine Mirrors.bind (Blind.ask fun _ => Heap.isClass_bare) fun isClass => ?_
  cases isClass with
  | true => exact .pure id parent
  | false =>
      change Mirrors side id _ (locate ancestor.bare.location (unexpected "Class" parent))
      rw [location_bare]
      exact .locate (blind_unexpected "Class" parent) ancestor.location

theorem mirrors_evaluateClass (scope : Scope) (ancestors : List Node) (body : Block) :
    (evaluateClass evaluator scope ancestors body).Mirrors side id
      (evaluateClass evaluator₁ scope (bareNodes ancestors) body.bare) := by
  obtain ⟨statements, place⟩ := body
  have parents := Mirrors.mapM_id (mirrors_evaluateParent nested scope) ancestors
  rw [← bareNodes_eq] at parents
  exact .bind parents fun parents => Mirrors.bind (blind_newClass none parents) fun made =>
    Mirrors.bind (blind_get made "@") fun prototype =>
      Mirrors.bind (blind_enter scope) fun inner =>
        Mirrors.bind (blind_bindName inner "self" made) fun _ =>
          Mirrors.bind (blind_bindName inner "@" prototype) fun _ =>
            .bind (mirrors_run nested inner statements) fun _ => .pure id made

theorem mirrors_holds (scope : Scope) (value : Handle) :
    (holds evaluator scope value).Mirrors side id (holds evaluator₁ scope value) :=
  .bind (mirrors_send nested value "to_boolean" [] scope) fun answer =>
    .pure id (decide (answer = .trueValue))

theorem mirrors_matchesAny (scope : Scope) (subject : Handle) (matchers : List Node) :
    (matchesAny evaluator scope subject matchers).Mirrors side id
      (matchesAny evaluator₁ scope subject (bareNodes matchers)) := by
  induction matchers with
  | nil => exact .pure id false
  | cons candidate rest ih =>
      refine .bind (nested.nodes scope candidate) fun value => ?_
      refine Mirrors.bind (Blind.ask fun _ => Heap.equal_bare) fun same => ?_
      cases same with
      | true => exact .pure id true
      | false => exact ih

theorem mirrors_findCase (scope : Scope) (subject : Handle) (cases : List Case) :
    (findCase evaluator scope subject cases).Mirrors side (Option.map Block.bare)
      (findCase evaluator₁ scope subject (bareCases cases)) := by
  induction cases with
  | nil => exact .pure (Option.map Block.bare) none
  | cons case rest ih =>
      obtain ⟨matchers, body, place⟩ := case
      refine .bind (mirrors_matchesAny nested scope subject matchers) fun found => ?_
      cases found with
      | true => exact .pure (Option.map Block.bare) (some body)
      | false => exact ih

theorem mirrors_clause (scope : Scope) (clause : Clause) :
    (runBlock evaluator scope clause.body).Mirrors side id
      (runBlock evaluator₁ scope clause.bare.body) := by
  obtain ⟨body, place⟩ := clause
  exact mirrors_runBlock nested scope body

theorem mirrors_evaluateSwitch (scope : Scope) (subject : Node) (cases : List Case)
    (otherwise : Option Clause) :
    (evaluateSwitch evaluator scope subject cases otherwise).Mirrors side id
      (evaluateSwitch evaluator₁ scope subject.bare (bareCases cases) (bareClause otherwise)) := by
  refine .bind (nested.nodes scope subject) fun value => ?_
  refine .bind (mirrors_findCase nested scope value cases) fun found => ?_
  cases found with
  | some body => exact mirrors_runBlock nested scope body
  | none =>
      cases otherwise with
      | some clause => exact mirrors_clause nested scope clause
      | none => exact Mirrors.bind (Blind.ask fun _ => Heap.inspect_bare) fun _ => .fault id _

theorem mirrors_runHandler (scope : Scope) (handler : Handler) (value : Handle) :
    (runHandler evaluator scope handler value).Mirrors side id
      (runHandler evaluator₁ scope handler.bare value) := by
  obtain ⟨matcher, binding, body, place⟩ := handler
  exact Mirrors.bind (blind_enter scope) fun frame =>
    Mirrors.bind (blind_bindName frame binding.text value) fun _ =>
      mirrors_runBlock nested frame body

theorem mirrors_handled (scope : Scope) (body : Block) (handlers : List Handler) :
    (handled evaluator scope body handlers).Mirrors side Completion.bare
      (handled evaluator₁ scope body.bare (bareHandlers handlers)) := by
  refine .bind (.settle (mirrors_runBlock nested scope body)) fun completion => ?_
  refine .bind (blind_caught completion) fun value => ?_
  cases value with
  | none => exact .pure Completion.bare completion
  | some value =>
      refine .bind (mirrors_findHandler scope value handlers) fun handler => ?_
      cases handler with
      | none => exact .pure Completion.bare completion
      | some handler => exact .settle (mirrors_runHandler nested scope handler value)

theorem mirrors_attempt (scope : Scope) (body : Block) (handlers : List Handler)
    (cleanup : Option Clause) :
    (attempt evaluator scope body handlers cleanup).Mirrors side id
      (attempt evaluator₁ scope body.bare (bareHandlers handlers) (bareClause cleanup)) := by
  refine .bind (mirrors_handled nested scope body handlers) fun completion => ?_
  cases cleanup with
  | none => exact .resume completion
  | some clause =>
      exact .bind (mirrors_clause nested scope clause) fun _ => .resume completion

theorem mirrors_evaluatePayload (scope : Scope) (payload : Option Node) :
    (evaluatePayload evaluator scope payload).Mirrors side id
      (evaluatePayload evaluator₁ scope (barePayload payload)) := by
  cases payload with
  | none => exact .pure id Handle.nil
  | some node => exact nested.nodes scope node

theorem mirrors_evaluateAll (scope : Scope) (nodes : List Node) :
    (evaluateAll evaluator scope nodes).Mirrors side id
      (evaluateAll evaluator₁ scope (bareNodes nodes)) := by
  rw [bareNodes_eq]
  exact .mapM_id (nested.nodes scope) nodes

/-- One case per kind of node. -/
theorem mirrors_step (scope : Scope) (node : Node) :
    (step evaluator scope node).Mirrors side id (step evaluator₁ scope node.bare) := by
  cases node with
  | comment text place => exact .pure id Handle.nil
  | reference name =>
      refine Mirrors.bind .world fun state => ?_
      rw [lookup_stripped]
      cases state.frames.lookup scope name.text with
      | some value => exact .pure id value
      | none => exact .fault id _
  | integer digits place => exact blind_integerLiteral digits
  | decimal digits place => exact blind_decimalLiteral digits
  | character glyph => exact blind_newCharacter glyph.char
  | string glyphs place =>
      change Mirrors side id _ (newString (spell (glyphs.map Glyph.bare)))
      rw [spell_bare]
      exact blind_newString (spell glyphs)
  | regularExpression glyphs place =>
      change Mirrors side id _ (newRegularExpression (spell (glyphs.map Glyph.bare)))
      rw [spell_bare]
      exact blind_newRegularExpression (spell glyphs)
  | interpolation body place =>
      exact Mirrors.bind (blind_enter scope) fun inner => .bind (mirrors_run nested inner body)
        fun last => mirrors_send nested last "to_string" [] scope
  | keyValue pair => exact mirrors_evaluatePair nested scope pair
  | range start last exclusive place =>
      exact .bind (nested.nodes scope start) fun start => .bind (nested.nodes scope last)
        fun last => blind_newRange start last exclusive
  | list items place => exact .bind (mirrors_evaluateAll nested scope items) blind_newList
  | map pairs place =>
      have made := Mirrors.mapM_id (mirrors_evaluatePair nested scope) pairs
      rw [← barePairs_eq] at made
      exact .bind made blind_newMap
  | assignment target value place => exact mirrors_assign nested scope target value
  | property object key place =>
      exact .bind (nested.nodes scope object) fun object => blind_get object key
  | invocation callable arguments place =>
      exact .bind (nested.nodes scope callable) fun callable =>
        .bind (mirrors_evaluateAll nested scope arguments) fun arguments =>
          mirrors_call nested callable arguments scope
  | lambda definition =>
      exact .bind (mirrors_evaluateOverload nested scope definition) fun overload =>
        mirrors_newLambda scope [overload]
  | overloads definitions place =>
      have made := Mirrors.mapM (mirrors_evaluateOverload nested scope) definitions
      rw [← bareLambdas_eq] at made
      exact .bind made (mirrors_newLambda scope)
  | classDefinition ancestors body place => exact mirrors_evaluateClass nested scope ancestors body
  | block body => exact mirrors_runBlock nested scope body
  | conditional condition body otherwise place =>
      refine .bind (nested.nodes scope condition) fun value => ?_
      refine .bind (mirrors_holds nested scope value) fun truth => ?_
      cases truth with
      | true => exact mirrors_runBlock nested scope body
      | false => exact mirrors_runBlock nested scope otherwise
  | switch subject cases otherwise place =>
      exact mirrors_evaluateSwitch nested scope subject cases otherwise
  | attempt body handlers cleanup place => exact mirrors_attempt nested scope body handlers cleanup
  | throwing payload place =>
      exact .bind (nested.nodes scope payload) fun value => .raise id (.thrown value place)
  | returning payload place =>
      exact .bind (mirrors_evaluatePayload nested scope payload) fun value =>
        .raise id (.returned value)
  | exiting payload place =>
      exact .bind (mirrors_evaluatePayload nested scope payload) fun value =>
        .raise id (.exited value)

end

end Action

/-- The depths for which one of two runs is halted no later than the other. -/
def Side.Fits : Side → Nat → Nat → Prop
  | .full, depth, depth₁ => depth ≤ depth₁
  | .bare, depth, depth₁ => depth₁ < depth

/-- By induction on the depth; the bare evaluation may have the same depth, or any smaller one if it
may be halted first. -/
theorem mirrors_evaluate {side : Side} {depth depth₁ : Nat} (fits : side.Fits depth depth₁) :
    (evaluate depth).Mirrors side (evaluate depth₁) := by
  induction depth generalizing depth₁ with
  | zero =>
      cases side with
      | full => exact ⟨fun _ _ _ => .cut rfl, fun _ _ _ _ => .cut rfl⟩
      | bare => exact absurd fits (Nat.not_lt_zero depth₁)
  | succ depth ih =>
      refine ⟨fun scope node => ?_, fun _ _ _ _ => .value rfl⟩
      cases depth₁ with
      | zero =>
          cases side with
          | full => exact absurd fits (Nat.not_succ_le_zero depth)
          | bare => exact fun _ => .cutBare rfl
      | succ depth₁ =>
          have inner : side.Fits depth depth₁ := by
            cases side with
            | full => exact Nat.le_of_succ_le_succ fits
            | bare => exact Nat.lt_of_succ_lt_succ fits
          change Action.Mirrors side id _
            (Action.locate node.bare.location (Action.step (evaluate depth₁) scope node.bare))
          rw [Syntax.location_bare]
          exact .locate (Action.mirrors_step (ih inner) scope node) node.location

end RipInterpreter
