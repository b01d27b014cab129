import RipInterpreter.Evaluation.Session
import RipInterpreter.Proofs.Evaluation.OrderlyMethods

namespace RipInterpreter

open Syntax

namespace World

/-- The state in which the statements of a module start: its key is in progress, and there is a new
frame for it. -/
def beginning (world : World) (path : String) : World :=
  { world with
    loading := Path.key path :: world.loading
    frames := (world.frames.childFrom Kernel.globals path).2 }

/-- The scope in which the statements of a module start. -/
def moduleScope (world : World) (path : String) : Scope :=
  (world.frames.childFrom Kernel.globals path).1

/-- The module is no longer in progress. -/
def finished (world : World) (path : String) : World :=
  { world with loading := world.loading.filter (· != Path.key path) }

/-- The module was loaded and has the value. -/
def keeping (world : World) (path : String) (value : Handle) : World :=
  { world with loaded := (Path.key path, value) :: world.loaded }

theorem during_beginning {world : World} {path : String}
    (unsettled : ¬ world.Settled (Path.key path)) :
    world.ReachesDuring world.loading (world.beginning path) :=
  (Move.during (.begin unsettled) (List.suffix_cons _ _)).trans
    (Move.during (.enter Kernel.globals.chain (some path)) (List.suffix_cons _ _))

/-- A module that began and whose run was orderly leaves the same modules in progress as before. -/
theorem finished_loading {world after : World} {path : String}
    (unsettled : ¬ world.Settled (Path.key path)) (ran : (world.beginning path).Ran after) :
    (after.finished path).loading = world.loading := by
  have others : ∀ key ∈ world.loading, (key != Path.key path) = true := fun key inside =>
    bne_iff_ne.mpr fun same => unsettled (.inl (same ▸ inside))
  calc (after.finished path).loading
      = (Path.key path :: world.loading).filter (· != Path.key path) :=
        congrArg (List.filter _) ran.loading
    _ = world.loading.filter (· != Path.key path) :=
        List.filter_cons_of_neg (by simp)
    _ = world.loading := List.filter_eq_self.mpr others

theorem unsettled_finished {world after : World} {path : String} (tidy : after.Tidy)
    (ran : (world.beginning path).Ran after) :
    ¬ (after.finished path).Settled (Path.key path) := by
  rintro (loading | loaded)
  · simpa using (List.mem_filter.mp loading).2
  · have inside : Path.key path ∈ after.loading := by
      rw [ran.loading]
      exact List.mem_cons_self
    have absent : (after.finished path).loaded.lookup (Path.key path) = none :=
      tidy.apart _ inside
    rw [absent] at loaded
    cases loaded

end World

/-- Every node is evaluated in an orderly way. -/
def Evaluator.Orderly (evaluator : Evaluator) : Prop :=
  ∀ scope node world, world.Tidy → (evaluator scope node).Hands world

namespace Action

variable {evaluator : Evaluator} {world : World}

theorem orderly_bindParameters (scope : Scope) (parameters : List Parameter)
    {arguments : List Handle} (tidy : world.Tidy)
    (given : ∀ argument ∈ arguments, world.heap.Holds argument) :
    (bindParameters scope parameters arguments).Orderly world fun _ _ => True := by
  induction parameters generalizing arguments world with
  | nil => exact .pure trivial
  | cons parameter rest ih =>
      cases arguments with
      | nil => cases parameter <;> exact .pure trivial
      | cons argument others =>
          cases parameter with
          | binding name =>
              refine .bind tidy (orderly_bindName scope name (given argument List.mem_cons_self))
                fun _ after ran tidy _ => ih tidy fun other inside => ?_
              exact ran.holds (given other (List.mem_cons_of_mem argument inside))
          | matcher value =>
              exact ih tidy fun other inside => given other (List.mem_cons_of_mem argument inside)

theorem finds_accepts (scope : Scope) (matcher : Name) (value : Handle) :
    (accepts scope matcher value).Finds world fun _ => True := by
  have asked (question : Heap → Except ReadFault Bool) :
      (ask question).Finds world fun _ => True :=
    (finds_ask question).mono fun _ _ ⟨same, _⟩ => ⟨same, trivial⟩
  refine finds_world.bind fun _ same => ?_
  subst same
  split
  · exact .fail _
  · refine (finds_ask _).bind fun isClass _ => ?_
    split
    · exact asked _
    · exact asked _

theorem finds_findHandler (scope : Scope) (value : Handle) (handlers : List Handler) :
    (findHandler scope value handlers).Finds world fun _ => True := by
  induction handlers with
  | nil => exact Finds.pure trivial
  | cons handler rest ih =>
      have decided (taken : Bool) : (if taken = true then (pure (some handler) : Action _)
          else findHandler scope value rest).Finds world fun _ => True := by
        split
        · exact Finds.pure trivial
        · exact ih
      unfold findHandler
      cases handler.matcher with
      | none => exact decided true
      | some matcher => exact (finds_accepts scope matcher value).bind fun taken _ => decided taken

theorem orderly_caught {completion : Completion Handle} (tidy : world.Tidy)
    (orderly : completion.Orderly world fun result after => after.heap.Holds result) :
    (caught completion).Orderly world fun value after =>
      ∀ caught, value = some caught → after.heap.Holds caught := by
  unfold caught
  split
  · refine .pure fun caught same => ?_
    cases same
    exact orderly
  · refine .bind tidy (hands_newException _ tidy) fun exception after _ _ made => .pure ?_
    rintro _ ⟨⟩
    exact made
  · exact .pure fun _ same => nomatch same

theorem hands_integerLiteral (digits : String) (tidy : world.Tidy) :
    (integerLiteral digits).Hands world := by
  unfold integerLiteral
  split
  · exact hands_newInteger _ tidy
  · exact .fault _

theorem hands_decimalLiteral (digits : String) (tidy : world.Tidy) :
    (decimalLiteral digits).Hands world := by
  unfold decimalLiteral
  split
  · exact hands_simple .decimal tidy rfl
  · exact .fault _

/-- The end of a module whose statements ended like this: a value or `return` is kept, any other end
is that of the module. Either way the module is no longer in progress. -/
def moduleEnd (path : String) : Outcome Handle → Outcome Handle
  | .value value after => .value value ((after.finished path).keeping path value)
  | .signal (.returned value) after => .value value ((after.finished path).keeping path value)
  | .signal raised after => .signal raised (after.finished path)
  | .failure error after => .failure error (after.finished path)
  | .halted reason => .halted reason

theorem runModule_apply (evaluator : Evaluator) (path : String) (module : Syntax.Module)
    (world : World) :
    runModule evaluator path module world = moduleEnd path
      (run evaluator (world.moduleScope path) module.statements (world.beginning path)) := by
  change (settle (run evaluator (world.moduleScope path) module.statements) >>= _)
    (world.beginning path) = _
  rw [bind_apply, settle]
  cases run evaluator (world.moduleScope path) module.statements (world.beginning path) with
  | signal raised after => cases raised <;> rfl
  | _ => rfl

section

variable (nested : evaluator.Orderly)
include nested

theorem hands_runFrom (scope : Scope) {last : Handle} (statements : List Node)
    (tidy : world.Tidy) (held : world.heap.Holds last) :
    (runFrom evaluator scope last statements).Hands world := by
  induction statements generalizing last world with
  | nil => exact .pure held
  | cons statement rest ih =>
      refine .bind tidy (nested scope statement world tidy)
        fun value after ran tidy made => ih tidy ?_
      split
      · exact ran.holds held
      · exact made

theorem hands_run (scope : Scope) (statements : List Node) (tidy : world.Tidy) :
    (run evaluator scope statements).Hands world :=
  hands_runFrom nested scope statements tidy tidy.heap.nil

theorem hands_runBlock (scope : Scope) (block : Block) (tidy : world.Tidy) :
    (runBlock evaluator scope block).Hands world :=
  .bind tidy (orderly_enter scope) fun inner _ _ tidy _ =>
    hands_run nested inner block.statements tidy

theorem hands_callBlock {callable : Callable} {arguments : List Handle}
    (parameters : List Parameter) (body : Block) (tidy : world.Tidy)
    (tied : ∀ receiver, callable.receiver = some receiver → world.heap.Holds receiver)
    (given : ∀ argument ∈ arguments, world.heap.Holds argument) :
    (callBlock evaluator callable parameters arguments body).Hands world := by
  refine .bind tidy (orderly_enter callable.closure) fun frame after ran tidy _ => ?_
  have bound {after : World} (ran : world.Ran after) (tidy : after.Tidy) :
      (bindParameters frame parameters arguments >>= fun _ =>
        catchReturned (run evaluator frame body.statements)).Hands after := by
    refine .bind tidy (orderly_bindParameters frame parameters tidy fun argument inside =>
      ran.holds (given argument inside)) fun _ _ _ tidy _ => ?_
    exact Hands.catchReturned (hands_run nested frame body.statements tidy)
  cases held : callable.receiver with
  | none => exact bound ran tidy
  | some receiver =>
      exact .bind tidy (orderly_bindName frame "@" (ran.holds (tied receiver held)))
        fun _ _ more tidy _ => bound (ran.trans more) tidy

/-- The statements of a module run in an orderly way while its key, which was not settled, is in
progress; afterwards it is not, and a value is kept under it. -/
theorem hands_runModule (path : String) (module : Syntax.Module) (tidy : world.Tidy)
    (unsettled : ¬ world.Settled (Path.key path)) :
    (runModule evaluator path module).Hands world := by
  have begun := World.during_beginning unsettled
  have ready := begun.reaches.tidy tidy
  have hands := hands_run nested (world.moduleScope path) module.statements ready
  have left {after : World} (ran : (world.beginning path).Ran after) :
      world.Ran (after.finished path) := by
    have restored := World.finished_loading unsettled ran
    have finish : after.ReachesDuring world.loading (after.finished path) :=
      World.Move.during (.finish _) (restored ▸ List.suffix_rfl)
    exact ⟨begun.trans ((ran.during.earlier (List.suffix_cons _ _)).trans finish), restored⟩
  have kept {after : World} {value : Handle} (ran : (world.beginning path).Ran after)
      (held : after.heap.Holds value) :
      world.Ran ((after.finished path).keeping path value) :=
    (left ran).trans (World.Move.ran (.load (World.unsettled_finished (ran.tidy ready) ran) held)
      rfl)
  unfold Hands Orderly at hands ⊢
  rw [runModule_apply]
  generalize run evaluator (world.moduleScope path) module.statements (world.beginning path) =
    outcome at hands ⊢
  cases hands with
  | value ran held => exact .value (kept ran held) held
  | @signal raised after ran held =>
      cases raised with
      | returned value => exact .value (kept ran held) held
      | _ => exact .signal (left ran) held
  | failure ran => exact .failure (left ran)
  | halted reason => exact .halted reason

theorem hands_require (name : String) (scope : Scope) (tidy : world.Tidy) :
    (require evaluator name scope).Hands world := by
  have requested : (requestModule name scope).Orderly world fun _ _ => True :=
    .value (World.Move.ran .request rfl) trivial
  refine .bind tidy requested fun answer after ran tidy _ => ?_
  cases answer with
  | refused error => exact .fail error
  | unseen path => exact .halt _
  | found path module =>
      refine finds_world.bind fun _ same => ?_
      subst same
      split
      · rename_i value found
        exact .pure (tidy.loaded _ (mem_of_lookup found))
      · rename_i absent
        split
        · exact .fault _
        · rename_i idle
          refine hands_runModule nested path module tidy ?_
          rintro (loading | loaded)
          · exact idle (List.contains_iff_mem.mpr loading)
          · rw [absent] at loaded
            cases loaded

theorem hands_callMethod (method : Method) {call : Call} (tidy : world.Tidy)
    (known : Known call world.heap) : (runMethod evaluator method call).Hands world := by
  by_cases requiring : method = .require
  · subst requiring
    exact (finds_argumentOf known 0).bind fun _ _ => (finds_stringValue tidy _).bind fun _ _ =>
      hands_require nested _ _ tidy
  · exact hands_runMethod evaluator requiring tidy known

theorem hands_call (value : Handle) {arguments : List Handle} (caller : Scope)
    (tidy : world.Tidy) (given : ∀ argument ∈ arguments, world.heap.Holds argument) :
    (call evaluator value arguments caller).Hands world := by
  refine (finds_payload tidy value).bind fun found known => ?_
  cases found with
  | lambda callable =>
      have tied (receiver : Handle) (held : callable.receiver = some receiver) :
          world.heap.Holds receiver :=
        known receiver (List.mem_append_left _ (Option.mem_toList.mpr held))
      refine (finds_ask _).bind fun selected _ => ?_
      cases selected with
      | none => exact .fault _
      | some best =>
          obtain ⟨⟨parameters, body⟩, literals⟩ := best
          cases body with
          | method method => exact hands_callMethod nested method tidy ⟨tied, given⟩
          | block body => exact hands_callBlock nested parameters body tidy tied given
  | _ => exact (finds_ask _).bind fun _ _ => .fault _

theorem hands_send {receiver : Handle} {arguments : List Handle} (method : String) (caller : Scope)
    (tidy : world.Tidy) (held : world.heap.Holds receiver)
    (given : ∀ argument ∈ arguments, world.heap.Holds argument) :
    (send evaluator receiver method arguments caller).Hands world :=
  .bind tidy (hands_get tidy method held) fun value _ ran tidy _ =>
    hands_call nested value caller tidy fun argument inside => ran.holds (given argument inside)

theorem hands_assign (scope : Scope) (target value : Node) (tidy : world.Tidy) :
    (assign evaluator scope target value).Hands world := by
  unfold assign
  split
  · rename_i name
    have bound {world : World} (value : Handle) (tidy : world.Tidy)
        (held : world.heap.Holds value) : (bindName scope name.text value >>= fun _ =>
          (pure value : Action Handle)).Hands world :=
      .bind tidy (orderly_bindName scope name.text held) fun _ _ ran _ _ => .pure (ran.holds held)
    refine .bind tidy (nested scope value world tidy) fun value after _ tidy held => ?_
    refine (finds_ask _).bind fun isClass _ => ?_
    split
    · exact .bind tidy (orderly_nameClass value name.text) fun _ _ ran tidy _ =>
        bound value tidy (ran.holds held)
    · exact bound value tidy held
  · rename_i object key place
    refine .bind tidy (nested scope object world tidy) fun object after _ tidy _ => ?_
    refine .bind tidy (nested scope value after tidy) fun value after _ tidy made => ?_
    exact .bind tidy (orderly_set object key made) fun _ _ ran _ _ => .pure (ran.holds made)
  · exact .fail _

theorem orderly_evaluateOverload (scope : Scope) (definition : Lambda) (tidy : world.Tidy) :
    (evaluateOverload evaluator scope definition).Orderly world fun overload after =>
      ∀ value ∈ overload.mentions, after.heap.Holds value := by
  have each (parameter : Node) (world : World) (tidy : world.Tidy) :
      (evaluateParameter evaluator scope parameter).Orderly world fun parameter after =>
        ∀ value ∈ parameter.mentions, after.heap.Holds value := by
    unfold evaluateParameter
    split
    · exact .pure fun value inside => nomatch inside
    · refine .bind tidy (nested scope _ world tidy) fun value after _ _ held => .pure ?_
      exact fun _ inside => List.mem_singleton.mp inside ▸ held
  refine .bind tidy (.mapM tidy (fun parameter _ after _ => each parameter after)
    fun parameter middle after ran known value inside => ran.holds (known value inside))
    fun parameters after _ _ known => .pure fun value inside => ?_
  obtain ⟨parameter, listed, inside⟩ := List.mem_flatMap.mp inside
  exact known parameter listed value inside

theorem hands_evaluatePair (scope : Scope) (pair : Pair) (tidy : world.Tidy) :
    (evaluatePair evaluator scope pair).Hands world :=
  .bind tidy (nested scope pair.key world tidy) fun _ after _ tidy first =>
    .bind tidy (nested scope pair.value after tidy) fun _ _ ran tidy second =>
      hands_newKeyValue tidy (ran.holds first) second

theorem hands_evaluateParent (scope : Scope) (ancestor : Node) (tidy : world.Tidy) :
    (evaluateParent evaluator scope ancestor).Hands world := by
  refine .bind tidy (nested scope ancestor world tidy) fun parent after _ tidy held => ?_
  refine (finds_ask _).bind fun isClass _ => ?_
  split
  · exact .pure held
  · exact Orderly.locate (orderly_unexpected "Class" parent) _

theorem hands_evaluateClass (scope : Scope) (ancestors : List Node) (body : Block)
    (tidy : world.Tidy) : (evaluateClass evaluator scope ancestors body).Hands world := by
  refine .bind tidy (Hands.mapM tidy fun ancestor _ after _ =>
    hands_evaluateParent nested scope ancestor) fun parents _ _ tidy given => ?_
  refine .bind tidy (hands_newClass none tidy given) fun made _ _ tidy held => ?_
  refine .bind tidy (hands_get tidy "@" held) fun prototype _ ran tidy present => ?_
  have held := ran.holds held
  refine .bind tidy (orderly_enter scope) fun inner _ ran tidy _ => ?_
  have held := ran.holds held
  have present := ran.holds present
  refine .bind tidy (orderly_bindName inner "self" held) fun _ _ ran tidy _ => ?_
  have held := ran.holds held
  refine .bind tidy (orderly_bindName inner "@" (ran.holds present)) fun _ _ ran tidy _ => ?_
  have held := ran.holds held
  refine .bind tidy (hands_run nested inner body.statements tidy) fun _ _ ran _ _ => ?_
  exact .pure (ran.holds held)

theorem orderly_holds (scope : Scope) {value : Handle} (tidy : world.Tidy)
    (held : world.heap.Holds value) :
    (holds evaluator scope value).Orderly world fun _ _ => True :=
  .bind tidy (hands_send nested "to_boolean" scope tidy held fun _ inside => nomatch inside)
    fun _ _ _ _ _ => .pure trivial

theorem orderly_matchesAny (scope : Scope) (subject : Handle) (matchers : List Node)
    (tidy : world.Tidy) :
    (matchesAny evaluator scope subject matchers).Orderly world fun _ _ => True := by
  induction matchers generalizing world with
  | nil => exact .pure trivial
  | cons candidate rest ih =>
      refine .bind tidy (nested scope candidate world tidy) fun value after _ tidy _ => ?_
      refine (finds_ask _).bind fun same _ => ?_
      split
      · exact .pure trivial
      · exact ih tidy

theorem orderly_findCase (scope : Scope) (subject : Handle) (cases : List Case)
    (tidy : world.Tidy) :
    (findCase evaluator scope subject cases).Orderly world fun _ _ => True := by
  induction cases generalizing world with
  | nil => exact .pure trivial
  | cons case rest ih =>
      refine .bind tidy (orderly_matchesAny nested scope subject case.matchers tidy)
        fun found after _ tidy _ => ?_
      split
      · exact .pure trivial
      · exact ih tidy

theorem hands_evaluateSwitch (scope : Scope) (subject : Node) (cases : List Case)
    (otherwise : Option Clause) (tidy : world.Tidy) :
    (evaluateSwitch evaluator scope subject cases otherwise).Hands world := by
  refine .bind tidy (nested scope subject world tidy) fun value _ _ tidy _ => ?_
  refine .bind tidy (orderly_findCase nested scope value cases tidy) fun found _ _ tidy _ => ?_
  cases found with
  | some body => exact hands_runBlock nested scope body tidy
  | none =>
      cases otherwise with
      | some clause => exact hands_runBlock nested scope clause.body tidy
      | none => exact (finds_ask _).bind fun _ _ => .fault _

theorem hands_runHandler (scope : Scope) (handler : Handler) {value : Handle}
    (tidy : world.Tidy) (held : world.heap.Holds value) :
    (runHandler evaluator scope handler value).Hands world :=
  .bind tidy (orderly_enter scope) fun frame _ ran tidy _ =>
    .bind tidy (orderly_bindName frame handler.binding.text (ran.holds held))
      fun _ _ _ tidy _ => hands_runBlock nested frame handler.body tidy

theorem orderly_handled (scope : Scope) (body : Block) (handlers : List Handler)
    (tidy : world.Tidy) :
    (handled evaluator scope body handlers).Orderly world fun completion after =>
      completion.Orderly after fun result after => after.heap.Holds result := by
  refine .bind tidy (.settle (hands_runBlock nested scope body tidy))
    fun completion _ _ tidy orderly => ?_
  refine .bind tidy (orderly_caught tidy orderly) fun value after ran tidy known => ?_
  have orderly := orderly.later ran.reaches
  cases value with
  | none => exact .pure orderly
  | some value =>
      refine (finds_findHandler scope value handlers).bind fun handler _ => ?_
      cases handler with
      | none => exact .pure orderly
      | some handler =>
          exact .settle (hands_runHandler nested scope handler tidy (known value rfl))

theorem hands_attempt (scope : Scope) (body : Block) (handlers : List Handler)
    (cleanup : Option Clause) (tidy : world.Tidy) :
    (attempt evaluator scope body handlers cleanup).Hands world := by
  refine .bind tidy (orderly_handled nested scope body handlers tidy)
    fun completion _ _ tidy orderly => ?_
  cases cleanup with
  | none => exact .resume orderly
  | some clause =>
      exact .bind tidy (hands_runBlock nested scope clause.body tidy) fun _ _ ran _ _ =>
        .resume (orderly.later ran.reaches)

theorem hands_evaluatePayload (scope : Scope) (payload : Option Node) (tidy : world.Tidy) :
    (evaluatePayload evaluator scope payload).Hands world := by
  cases payload with
  | none => exact .pure tidy.heap.nil
  | some node => exact nested scope node world tidy

theorem hands_step (scope : Scope) (node : Node) (tidy : world.Tidy) :
    (step evaluator scope node).Hands world := by
  cases node with
  | comment text place => exact .pure tidy.heap.nil
  | reference name =>
      refine finds_world.bind fun _ same => ?_
      subst same
      split
      · exact .pure (tidy.lookup ‹_›)
      · exact .fault _
  | integer digits place => exact hands_integerLiteral digits tidy
  | decimal digits place => exact hands_decimalLiteral digits tidy
  | character glyph => exact hands_simple .character tidy rfl
  | string glyphs place => exact hands_newString (spell glyphs) tidy
  | regularExpression glyphs place => exact hands_simple .regularExpression tidy rfl
  | interpolation body place =>
      exact .bind tidy (orderly_enter scope) fun inner _ _ tidy _ =>
        .bind tidy (hands_run nested inner body tidy) fun _ _ _ tidy held =>
          hands_send nested "to_string" scope tidy held fun _ inside => nomatch inside
  | keyValue pair => exact hands_evaluatePair nested scope pair tidy
  | range start last exclusive place =>
      exact .bind tidy (nested scope start world tidy) fun _ after _ tidy first =>
        .bind tidy (nested scope last after tidy) fun _ _ ran tidy second =>
          hands_newRange exclusive tidy (ran.holds first) second
  | list items place =>
      exact .bind tidy (Hands.mapM tidy fun item _ after _ => nested scope item after)
        fun _ _ _ tidy made => hands_newList tidy made
  | map pairs place =>
      exact .bind tidy (Hands.mapM tidy fun pair _ _ _ => hands_evaluatePair nested scope pair)
        fun _ _ _ tidy made => hands_newMap tidy made
  | assignment target value place => exact hands_assign nested scope target value tidy
  | property object key place =>
      exact .bind tidy (nested scope object world tidy) fun _ _ _ tidy held =>
        hands_get tidy key held
  | invocation callable arguments place =>
      exact .bind tidy (nested scope callable world tidy) fun value _ _ tidy _ =>
        .bind tidy (Hands.mapM tidy fun item _ after _ => nested scope item after)
          fun _ _ _ tidy given => hands_call nested value scope tidy given
  | lambda definition =>
      refine .bind tidy (orderly_evaluateOverload nested scope definition tidy)
        fun overload _ _ tidy known => hands_newLambda tidy ?_
      exact fun other inside => List.mem_singleton.mp inside ▸ known
  | overloads definitions place =>
      exact .bind tidy (.mapM tidy (fun definition _ _ _ tidy =>
        orderly_evaluateOverload nested scope definition tidy)
        fun overload _ _ ran known value inside => ran.holds (known value inside))
        fun _ _ _ tidy known => hands_newLambda tidy known
  | classDefinition ancestors body place =>
      exact hands_evaluateClass nested scope ancestors body tidy
  | block body => exact hands_runBlock nested scope body tidy
  | conditional condition body otherwise place =>
      refine .bind tidy (nested scope condition world tidy) fun value _ _ tidy held => ?_
      refine .bind tidy (orderly_holds nested scope tidy held) fun truth _ _ tidy _ => ?_
      split
      · exact hands_runBlock nested scope body tidy
      · exact hands_runBlock nested scope otherwise tidy
  | switch subject cases otherwise place =>
      exact hands_evaluateSwitch nested scope subject cases otherwise tidy
  | attempt body handlers cleanup place =>
      exact hands_attempt nested scope body handlers cleanup tidy
  | throwing payload place =>
      exact .bind tidy (nested scope payload world tidy) fun _ _ _ _ held => .raise held
  | returning payload place =>
      exact .bind tidy (hands_evaluatePayload nested scope payload tidy)
        fun _ _ _ _ held => .raise held
  | exiting payload place =>
      exact .bind tidy (hands_evaluatePayload nested scope payload tidy)
        fun _ _ _ _ held => .raise held

end

end Action

/-- By induction on the depth: what a step calls or nests runs one level deeper. -/
theorem orderly_evaluate (depth : Nat) : (evaluate depth).Orderly := by
  induction depth with
  | zero => exact fun _ _ _ _ => .halt _
  | succ depth ih => exact fun scope node _ tidy => (Action.hands_step ih scope node tidy).locate _

namespace Session

open RipInterpreter.Action

theorem hands_interpretIn (depth : Nat) (module : Syntax.Module) (scope : Scope) {world : World}
    (tidy : world.Tidy) : (interpretIn depth module scope).Hands world := by
  refine .bind tidy (.settle (hands_run (orderly_evaluate depth) scope module.statements tidy))
    fun completion after _ tidy orderly => ?_
  unfold endModule
  split
  · exact .pure orderly
  · exact .pure orderly
  · exact orderly_uncaught _ _
  · exact .resume orderly

theorem hands_interpret (depth : Nat) (module : Syntax.Module) {world : World}
    (tidy : world.Tidy) : (interpret depth module).Hands world :=
  .bind tidy (orderly_enterFrom _ _) fun scope _ _ tidy _ =>
    hands_interpretIn depth module scope tidy

end Session

end RipInterpreter
