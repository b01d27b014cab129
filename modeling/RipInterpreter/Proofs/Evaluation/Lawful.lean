import RipInterpreter.Evaluation.Session
import RipInterpreter.Proofs.Evaluation.LawfulMethods
import RipInterpreter.Proofs.Machine.FreshWorld

namespace RipInterpreter

open Syntax

/-- Every node is evaluated lawfully. -/
def Evaluator.Lawful (evaluator : Evaluator) : Prop :=
  ∀ scope node world, world.SoundState → (evaluator scope node).Gives world

namespace Action

variable {evaluator : Evaluator} {world : World}

theorem lawful_bindParameters (scope : Scope) (parameters : List Parameter)
    {arguments : List Handle} (sound : world.SoundState)
    (given : ∀ argument ∈ arguments, world.heap.Proper argument) :
    (bindParameters scope parameters arguments).Lawful world fun _ _ => True := by
  induction parameters generalizing arguments world with
  | nil => exact .pure trivial
  | cons parameter rest ih =>
      cases arguments with
      | nil => cases parameter <;> exact .pure trivial
      | cons argument others =>
          cases parameter with
          | binding name =>
              refine .bind sound (lawful_bindName scope name (given argument List.mem_cons_self))
                fun _ after leads sound _ => ih sound fun other inside => ?_
              exact leads.proper (given other (List.mem_cons_of_mem argument inside))
          | matcher value =>
              exact ih sound fun other inside => given other (List.mem_cons_of_mem argument inside)

theorem reads_accepts {scope : Scope} {matcher : Name} {value : Handle} (sound : world.SoundState)
    (proper : world.heap.Proper value) : (accepts scope matcher value).Reads world fun _ => True := by
  refine reads_world.bind fun _ same => ?_
  subst same
  split
  · exact .fail rfl
  · rename_i expected found
    have present := (sound.lookup found).holds
    refine (reads_ask (Heap.answers_isClass present)).bind fun isClass _ => ?_
    split
    · exact reads_ask (Heap.answers_isA sound.heap proper.holds)
    · exact reads_ask (Heap.answers_equal sound.heap proper.holds present)

theorem reads_findHandler {scope : Scope} {value : Handle} (handlers : List Handler)
    (sound : world.SoundState) (proper : world.heap.Proper value) :
    (findHandler scope value handlers).Reads world fun _ => True := by
  induction handlers with
  | nil => exact Reads.pure trivial
  | cons handler rest ih =>
      have decided (taken : Bool) : (if taken = true then (pure (some handler) : Action _)
          else findHandler scope value rest).Reads world fun _ => True := by
        split
        · exact Reads.pure trivial
        · exact ih
      unfold findHandler
      cases handler.matcher with
      | none => exact decided true
      | some matcher => exact (reads_accepts sound proper).bind fun taken _ => decided taken

/-- What handlers get to see is proper; the end of the body stays what it is. -/
theorem lawful_caught {completion : Completion Handle} (sound : world.SoundState)
    (meets : completion.Meets world fun result after => after.heap.Proper result) :
    (caught completion).Lawful world fun value after =>
      ∀ caught, value = some caught → after.heap.Proper caught := by
  unfold caught
  split
  · refine .pure fun caught same => ?_
    cases same
    exact meets
  · refine .bind sound (gives_newException _ sound) fun exception after _ _ made => .pure ?_
    rintro _ ⟨⟩
    exact made
  · exact .pure fun _ same => nomatch same

theorem gives_integerLiteral (digits : String) : (integerLiteral digits).Gives world := by
  unfold integerLiteral
  split
  · exact gives_newInteger _
  · exact .fault _

theorem gives_decimalLiteral (digits : String) : (decimalLiteral digits).Gives world := by
  unfold decimalLiteral
  split
  · exact gives_newDecimal _
  · exact .fault _

section

variable (nested : evaluator.Lawful)
include nested

theorem gives_runFrom (scope : Scope) {last : Handle} (statements : List Node)
    (sound : world.SoundState) (proper : world.heap.Proper last) :
    (runFrom evaluator scope last statements).Gives world := by
  induction statements generalizing last world with
  | nil => exact .pure proper
  | cons statement rest ih =>
      refine .bind sound (nested scope statement world sound)
        fun value after leads sound made => ih sound ?_
      split
      · exact leads.proper proper
      · exact made

theorem gives_run (scope : Scope) (statements : List Node) (sound : world.SoundState) :
    (run evaluator scope statements).Gives world :=
  gives_runFrom nested scope statements sound sound.heap.nil

theorem gives_runBlock (scope : Scope) (block : Block) (sound : world.SoundState) :
    (runBlock evaluator scope block).Gives world :=
  .bind sound (lawful_enter scope) fun inner _ _ sound _ =>
    gives_run nested inner block.statements sound

theorem gives_callBlock {callable : Callable} {arguments : List Handle}
    (parameters : List Parameter) (body : Block) (sound : world.SoundState)
    (tied : ∀ receiver, callable.receiver = some receiver → world.heap.Proper receiver)
    (given : ∀ argument ∈ arguments, world.heap.Proper argument) :
    (callBlock evaluator callable parameters arguments body).Gives world := by
  refine .bind sound (lawful_enter callable.closure) fun frame after leads sound _ => ?_
  have ran {after : World} (leads : world.Leads after) (sound : after.SoundState) :
      (bindParameters frame parameters arguments >>= fun _ =>
        catchReturned (run evaluator frame body.statements)).Gives after := by
    refine .bind sound (lawful_bindParameters frame parameters sound fun argument inside =>
      leads.proper (given argument inside)) fun _ _ _ sound _ => ?_
    exact Gives.catchReturned (gives_run nested frame body.statements sound)
  cases held : callable.receiver with
  | none => exact ran leads sound
  | some receiver =>
      exact .bind sound (lawful_bindName frame "@" (leads.proper (tied receiver held)))
        fun _ _ more sound _ => ran (leads.trans more) sound

theorem gives_runModule (path : String) (module : Syntax.Module) (sound : world.SoundState) :
    (runModule evaluator path module).Gives world := by
  have noted {world : World} (value : Handle) (proper : world.heap.Proper value)
      (sound : world.SoundState) : (do
        change fun world => { world with loaded := (Path.key path, value) :: world.loaded }
        return value : Action Handle).Gives world :=
    .bind sound (.change (.load (Path.key path) proper)) fun _ _ leads _ _ =>
      .pure (leads.proper proper)
  refine .bind sound (.change (.begin (Path.key path))) fun _ _ _ sound _ => ?_
  refine .bind sound (lawful_enterFrom _ path) fun scope _ _ sound _ => ?_
  refine .bind sound (.settle (gives_run nested scope module.statements sound))
    fun completion _ _ sound meets => ?_
  refine .bind sound (.change (.finish (Path.key path))) fun _ after leads sound _ => ?_
  have meets := meets.later leads
  split
  · exact noted _ meets sound
  · exact noted _ meets sound
  · exact .resume meets

theorem gives_require (name : String) (scope : Scope) (sound : world.SoundState) :
    (require evaluator name scope).Gives world := by
  have requested : (requestModule name scope).Lawful world fun answer _ =>
      ∀ error, answer = .refused error → world.loader.Explains error :=
    .value World.Step.request.leads fun _ refused _ => ⟨_, _, _, refused⟩
  refine .bind sound requested fun answer after leads sound known => ?_
  cases answer with
  | refused error => exact .failure (.refl after) (leads.loader ▸ known error rfl)
  | unseen path => exact .halt _
  | found path module =>
      refine reads_world.bind fun _ same => ?_
      subst same
      split
      · rename_i value found
        exact .pure (sound.loaded _ (mem_of_lookup found))
      · split
        · exact .fault _
        · exact gives_runModule nested path module sound

theorem gives_callMethod {method : Method} {call : Call} (sound : world.SoundState)
    (complete : call.Complete method world.heap) : (runMethod evaluator method call).Gives world := by
  by_cases requiring : method = .require
  · subst requiring
    obtain ⟨argument, single⟩ :=
      List.length_eq_one_iff.mp (Option.some.inj complete.arity).symm
    have given := complete.arguments argument (single ▸ List.mem_cons_self)
    have argued : (argumentOf call 0).Reads world world.heap.Proper := by
      unfold argumentOf
      rw [single]
      exact Reads.pure given
    exact argued.bind fun _ given => (reads_stringValue sound given.holds).bind fun _ _ =>
      gives_require nested _ _ sound
  · exact gives_runMethod evaluator requiring sound complete

theorem gives_call {value : Handle} {arguments : List Handle} (caller : Scope)
    (sound : world.SoundState) (proper : world.heap.Proper value)
    (given : ∀ argument ∈ arguments, world.heap.Proper argument) :
    (call evaluator value arguments caller).Gives world := by
  obtain ⟨object, present, ready⟩ := proper
  refine (reads_payload ⟨object, present⟩).bind fun found ⟨_, stored, shape⟩ => ?_
  cases present.symm.trans stored
  cases found with
  | lambda callable =>
      rw [shape] at ready
      have fits := (sound.heap.objects value object stored).callable callable shape
      refine (reads_ask (Heap.answers_chosen sound.heap fits given)).bind fun selected known => ?_
      cases selected with
      | none => exact .fault _
      | some best =>
          obtain ⟨⟨parameters, body⟩, literals⟩ := best
          have chosen := known _ literals rfl
          cases body with
          | method method =>
              exact gives_callMethod nested sound
                (Call.complete_of_chosen fits ready chosen given caller)
          | block body => exact gives_callBlock nested parameters body sound fits.receiver given
  | _ =>
      exact (reads_ask (Heap.answers_inspect sound.heap ⟨object, stored⟩)).bind fun _ _ => .fault _

theorem gives_send {receiver : Handle} {arguments : List Handle} (method : String) (caller : Scope)
    (sound : world.SoundState) (proper : world.heap.Proper receiver)
    (given : ∀ argument ∈ arguments, world.heap.Proper argument) :
    (send evaluator receiver method arguments caller).Gives world :=
  .bind sound (gives_get method sound proper) fun _ _ leads sound made =>
    gives_call nested caller sound made fun argument inside => leads.proper (given argument inside)

theorem gives_assign (scope : Scope) (target value : Node) (sound : world.SoundState) :
    (assign evaluator scope target value).Gives world := by
  unfold assign
  split
  · rename_i name
    have bound {world : World} (value : Handle) (sound : world.SoundState)
        (proper : world.heap.Proper value) : (bindName scope name.text value >>= fun _ =>
          (pure value : Action Handle)).Gives world :=
      .bind sound (lawful_bindName scope name.text proper) fun _ _ leads _ _ =>
        .pure (leads.proper proper)
    refine .bind sound (nested scope value world sound) fun value after _ sound proper => ?_
    refine (reads_ask (Heap.answers_isClass proper.holds)).bind fun isClass _ => ?_
    split
    · exact .bind sound (lawful_nameClass name.text proper.holds) fun _ _ leads sound _ =>
        bound value sound (leads.proper proper)
    · exact bound value sound proper
  · rename_i object key place
    refine .bind sound (nested scope object world sound) fun object after _ sound proper => ?_
    refine .bind sound (nested scope value after sound) fun value after leads sound made => ?_
    exact .bind sound (lawful_set key (leads.proper proper).holds made) fun _ _ more _ _ =>
      .pure (more.proper made)
  · exact .fail rfl

theorem lawful_evaluateOverload (scope : Scope) (definition : Lambda) (sound : world.SoundState) :
    (evaluateOverload evaluator scope definition).Lawful world fun overload after =>
      (∃ block, overload.body = .block block) ∧ after.heap.SoundOverload overload := by
  have each (parameter : Node) (world : World) (sound : world.SoundState) :
      (evaluateParameter evaluator scope parameter).Lawful world fun parameter after =>
        ∀ value, parameter = .matcher value → after.heap.Proper value := by
    unfold evaluateParameter
    split
    · exact .pure fun value same => nomatch same
    · refine .bind sound (nested scope _ world sound) fun value after _ _ proper => .pure ?_
      rintro _ ⟨⟩
      exact proper
  refine .bind sound (.mapM sound (fun parameter _ after _ => each parameter after)
    fun parameter middle after leads known value same => leads.proper (known value same))
    fun parameters after _ _ known => .pure ⟨⟨_, rfl⟩, ?_⟩
  exact ⟨fun value inside => known _ inside value rfl, fun method shape => nomatch shape⟩

theorem gives_evaluatePair (scope : Scope) (pair : Pair) (sound : world.SoundState) :
    (evaluatePair evaluator scope pair).Gives world :=
  .bind sound (nested scope pair.key world sound) fun _ after _ sound first =>
    .bind sound (nested scope pair.value after sound) fun _ _ leads sound second =>
      gives_newKeyValue sound (leads.proper first) second

theorem gives_evaluateParent (scope : Scope) (ancestor : Node) (sound : world.SoundState) :
    (evaluateParent evaluator scope ancestor).Gives world := by
  refine .bind sound (nested scope ancestor world sound) fun parent after _ sound proper => ?_
  refine (reads_ask (Heap.answers_isClass proper.holds)).bind fun isClass _ => ?_
  split
  · exact .pure proper
  · exact Lawful.locate (lawful_unexpected sound proper.holds "Class") _

theorem gives_evaluateClass (scope : Scope) (ancestors : List Node) (body : Block)
    (sound : world.SoundState) : (evaluateClass evaluator scope ancestors body).Gives world := by
  refine .bind sound (Gives.mapM sound fun ancestor _ after _ =>
    gives_evaluateParent nested scope ancestor) fun parents _ _ sound given => ?_
  refine .bind sound (gives_newClass none sound given) fun made _ _ sound proper => ?_
  refine .bind sound (gives_get "@" sound proper) fun prototype _ leads sound present => ?_
  have proper := leads.proper proper
  refine .bind sound (lawful_enter scope) fun inner _ leads sound _ => ?_
  have proper := leads.proper proper
  have present := leads.proper present
  refine .bind sound (lawful_bindName inner "self" proper) fun _ _ leads sound _ => ?_
  have proper := leads.proper proper
  refine .bind sound (lawful_bindName inner "@" (leads.proper present)) fun _ _ leads sound _ => ?_
  have proper := leads.proper proper
  refine .bind sound (gives_run nested inner body.statements sound) fun _ _ leads _ _ => ?_
  exact .pure (leads.proper proper)

theorem lawful_holds (scope : Scope) {value : Handle} (sound : world.SoundState)
    (proper : world.heap.Proper value) :
    (holds evaluator scope value).Lawful world fun _ _ => True :=
  .bind sound (gives_send nested "to_boolean" scope sound proper fun _ inside => nomatch inside)
    fun _ _ _ _ _ => .pure trivial

theorem lawful_matchesAny (scope : Scope) {subject : Handle} (matchers : List Node)
    (sound : world.SoundState) (proper : world.heap.Proper subject) :
    (matchesAny evaluator scope subject matchers).Lawful world fun _ _ => True := by
  induction matchers generalizing world with
  | nil => exact .pure trivial
  | cons candidate rest ih =>
      refine .bind sound (nested scope candidate world sound) fun value after leads sound made => ?_
      have proper := leads.proper proper
      refine (reads_ask (Heap.answers_equal sound.heap proper.holds made.holds)).bind
        fun same _ => ?_
      split
      · exact .pure trivial
      · exact ih sound proper

theorem lawful_findCase (scope : Scope) {subject : Handle} (cases : List Case)
    (sound : world.SoundState) (proper : world.heap.Proper subject) :
    (findCase evaluator scope subject cases).Lawful world fun _ _ => True := by
  induction cases generalizing world with
  | nil => exact .pure trivial
  | cons case rest ih =>
      refine .bind sound (lawful_matchesAny nested scope case.matchers sound proper)
        fun found after leads sound _ => ?_
      split
      · exact .pure trivial
      · exact ih sound (leads.proper proper)

theorem gives_evaluateSwitch (scope : Scope) (subject : Node) (cases : List Case)
    (otherwise : Option Clause) (sound : world.SoundState) :
    (evaluateSwitch evaluator scope subject cases otherwise).Gives world := by
  refine .bind sound (nested scope subject world sound) fun value _ _ sound proper => ?_
  refine .bind sound (lawful_findCase nested scope cases sound proper)
    fun found _ leads sound _ => ?_
  cases found with
  | some body => exact gives_runBlock nested scope body sound
  | none =>
      cases otherwise with
      | some clause => exact gives_runBlock nested scope clause.body sound
      | none =>
          exact (reads_ask (Heap.answers_inspect sound.heap (leads.proper proper).holds)).bind
            fun _ _ => .fault _

theorem gives_runHandler (scope : Scope) (handler : Handler) {value : Handle}
    (sound : world.SoundState) (proper : world.heap.Proper value) :
    (runHandler evaluator scope handler value).Gives world :=
  .bind sound (lawful_enter scope) fun frame _ leads sound _ =>
    .bind sound (lawful_bindName frame handler.binding.text (leads.proper proper))
      fun _ _ _ sound _ => gives_runBlock nested frame handler.body sound

theorem lawful_handled (scope : Scope) (body : Block) (handlers : List Handler)
    (sound : world.SoundState) :
    (handled evaluator scope body handlers).Lawful world fun completion after =>
      completion.Meets after fun result after => after.heap.Proper result := by
  refine .bind sound (.settle (gives_runBlock nested scope body sound))
    fun completion _ _ sound meets => ?_
  refine .bind sound (lawful_caught sound meets) fun value after leads sound known => ?_
  have meets := meets.later leads
  cases value with
  | none => exact .pure meets
  | some value =>
      refine (reads_findHandler handlers sound (known value rfl)).bind fun handler _ => ?_
      cases handler with
      | none => exact .pure meets
      | some handler => exact .settle (gives_runHandler nested scope handler sound (known value rfl))

theorem gives_attempt (scope : Scope) (body : Block) (handlers : List Handler)
    (cleanup : Option Clause) (sound : world.SoundState) :
    (attempt evaluator scope body handlers cleanup).Gives world := by
  refine .bind sound (lawful_handled nested scope body handlers sound)
    fun completion _ _ sound meets => ?_
  cases cleanup with
  | none => exact .resume meets
  | some clause =>
      exact .bind sound (gives_runBlock nested scope clause.body sound) fun _ _ leads _ _ =>
        .resume (meets.later leads)

theorem gives_evaluatePayload (scope : Scope) (payload : Option Node) (sound : world.SoundState) :
    (evaluatePayload evaluator scope payload).Gives world := by
  cases payload with
  | none => exact .pure sound.heap.nil
  | some node => exact nested scope node world sound

theorem gives_step (scope : Scope) (node : Node) (sound : world.SoundState) :
    (step evaluator scope node).Gives world := by
  cases node with
  | comment text place => exact .pure sound.heap.nil
  | reference name =>
      refine reads_world.bind fun _ same => ?_
      subst same
      split
      · exact .pure (sound.lookup ‹_›)
      · exact .fault _
  | integer digits place => exact gives_integerLiteral digits
  | decimal digits place => exact gives_decimalLiteral digits
  | character glyph => exact gives_newCharacter glyph.char
  | string glyphs place => exact gives_newString (spell glyphs)
  | regularExpression glyphs place => exact gives_newRegularExpression (spell glyphs)
  | interpolation body place =>
      exact .bind sound (lawful_enter scope) fun inner _ _ sound _ =>
        .bind sound (gives_run nested inner body sound) fun _ _ _ sound proper =>
          gives_send nested "to_string" scope sound proper fun _ inside => nomatch inside
  | keyValue pair => exact gives_evaluatePair nested scope pair sound
  | range start last exclusive place =>
      exact .bind sound (nested scope start world sound) fun _ after _ sound first =>
        .bind sound (nested scope last after sound) fun _ _ leads sound second =>
          gives_newRange exclusive sound (leads.proper first) second
  | list items place =>
      exact .bind sound (Gives.mapM sound fun item _ after _ => nested scope item after)
        fun _ _ _ _ made => gives_newList made
  | map pairs place =>
      exact .bind sound (Gives.mapM sound fun pair _ _ _ => gives_evaluatePair nested scope pair)
        fun _ _ _ _ made => gives_newMap made
  | assignment target value place => exact gives_assign nested scope target value sound
  | property object key place =>
      exact .bind sound (nested scope object world sound) fun _ _ _ sound proper =>
        gives_get key sound proper
  | invocation callable arguments place =>
      exact .bind sound (nested scope callable world sound) fun _ _ _ sound proper =>
        .bind sound (Gives.mapM sound fun item _ after _ => nested scope item after)
          fun _ _ leads sound given => gives_call nested scope sound (leads.proper proper) given
  | lambda definition =>
      refine .bind sound (lawful_evaluateOverload nested scope definition sound)
        fun overload _ _ _ ⟨written, fine⟩ => gives_newLambda ?_ ?_
      · exact fun other inside => List.mem_singleton.mp inside ▸ written
      · exact fun other inside => List.mem_singleton.mp inside ▸ fine
  | overloads definitions place =>
      refine .bind sound (.mapM sound (fun definition _ _ _ sound =>
        lawful_evaluateOverload nested scope definition sound)
        fun overload _ _ leads ⟨written, fine⟩ => ⟨written, leads.grows.soundOverload fine⟩)
        fun _ _ _ _ known => ?_
      exact gives_newLambda (fun overload inside => (known overload inside).1)
        fun overload inside => (known overload inside).2
  | classDefinition ancestors body place =>
      exact gives_evaluateClass nested scope ancestors body sound
  | block body => exact gives_runBlock nested scope body sound
  | conditional condition body otherwise place =>
      refine .bind sound (nested scope condition world sound) fun value _ _ sound proper => ?_
      refine .bind sound (lawful_holds nested scope sound proper) fun truth _ _ sound _ => ?_
      split
      · exact gives_runBlock nested scope body sound
      · exact gives_runBlock nested scope otherwise sound
  | switch subject cases otherwise place =>
      exact gives_evaluateSwitch nested scope subject cases otherwise sound
  | attempt body handlers cleanup place =>
      exact gives_attempt nested scope body handlers cleanup sound
  | throwing payload place =>
      exact .bind sound (nested scope payload world sound) fun _ _ _ _ proper => .raise proper
  | returning payload place =>
      exact .bind sound (gives_evaluatePayload nested scope payload sound)
        fun _ _ _ _ proper => .raise proper
  | exiting payload place =>
      exact .bind sound (gives_evaluatePayload nested scope payload sound)
        fun _ _ _ _ proper => .raise proper

end

end Action

/-- By induction on the depth: what a step calls or nests runs one level deeper. -/
theorem lawful_evaluate (depth : Nat) : (evaluate depth).Lawful := by
  induction depth with
  | zero => exact fun _ _ _ _ => .halt _
  | succ depth ih => exact fun scope node _ sound => (Action.gives_step ih scope node sound).locate _

namespace Session

open RipInterpreter.Action

theorem gives_interpretIn (depth : Nat) (module : Syntax.Module) (scope : Scope) {world : World}
    (sound : world.SoundState) : (interpretIn depth module scope).Gives world := by
  refine .bind sound (.settle (gives_run (lawful_evaluate depth) scope module.statements sound))
    fun completion after _ sound meets => ?_
  unfold endModule
  split
  · exact .pure meets
  · exact .pure meets
  · exact lawful_uncaught sound (Heap.Proper.holds meets) _
  · exact .resume meets

theorem gives_interpret (depth : Nat) (module : Syntax.Module) {world : World}
    (sound : world.SoundState) : (interpret depth module).Gives world :=
  .bind sound (lawful_enterFrom _ _) fun scope _ _ sound _ => gives_interpretIn depth module scope sound

/-- The states of a driver. It starts new and goes on with any modules, in new frames or in any
scopes. -/
inductive Reachable (loader : Loader) (searchPaths : List String) : World → Prop
  | fresh : Reachable loader searchPaths (World.fresh loader searchPaths)
  | globalContext {world after : World} (reached : Reachable loader searchPaths world)
    (left : (globalContext world).world? = some after) : Reachable loader searchPaths after
  | interpretIn {world after : World} (reached : Reachable loader searchPaths world) (depth : Nat)
    (module : Syntax.Module) (scope : Scope)
    (left : (interpretIn depth module scope world).world? = some after) :
    Reachable loader searchPaths after
  | interpret {world after : World} (reached : Reachable loader searchPaths world) (depth : Nat)
    (module : Syntax.Module) (left : (interpret depth module world).world? = some after) :
    Reachable loader searchPaths after

/-- By induction on what the driver was asked to do. -/
theorem Reachable.soundState {loader : Loader} {searchPaths : List String} {world : World}
    (reached : Reachable loader searchPaths world) :
    world.SoundState ∧ (World.fresh loader searchPaths).Leads world := by
  have further {world after : World} (ih : world.SoundState ∧
      (World.fresh loader searchPaths).Leads world) (leads : world.Leads after) :
      after.SoundState ∧ (World.fresh loader searchPaths).Leads after :=
    ⟨leads.soundState ih.1, ih.2.trans leads⟩
  induction reached with
  | fresh => exact ⟨World.soundState_fresh loader searchPaths, .refl _⟩
  | globalContext _ left ih => exact further ih ((lawful_enter _).leads left)
  | interpretIn _ depth module scope left ih =>
      exact further ih ((gives_interpretIn depth module scope ih.1).leads left)
  | interpret _ depth module left ih =>
      exact further ih ((gives_interpret depth module ih.1).leads left)

theorem Reachable.sound {loader : Loader} {searchPaths : List String} {world : World}
    (reached : Reachable loader searchPaths world)
    (loads : ∀ request name searchPaths error,
      loader.answer request name searchPaths = .refused error → error.isInternal = false) :
    world.Sound := reached.soundState.2.sound (World.sound_fresh searchPaths loads)

/-- Whatever is run in the state, as a whole or for a single node, leads on from it. -/
structure RunsLead (world : World) : Prop where
  globalContext : ∀ after, (globalContext world).world? = some after → world.Leads after
  interpretIn : ∀ depth module scope after,
    (interpretIn depth module scope world).world? = some after → world.Leads after
  interpret : ∀ depth module after, (interpret depth module world).world? = some after →
    world.Leads after
  evaluate : ∀ depth scope node after, (evaluate depth scope node world).world? = some after →
    world.Leads after

theorem runsLead {world : World} (sound : world.SoundState) : RunsLead world where
  globalContext _ left := (lawful_enter _).leads left
  interpretIn depth module scope _ left := (gives_interpretIn depth module scope sound).leads left
  interpret depth module _ left := (gives_interpret depth module sound).leads left
  evaluate depth scope node _ left := (lawful_evaluate depth scope node world sound).leads left

/-- Whatever modules a driver has interpreted before, no further run ends with an internal error, and
a value it ends with exists. In every state on the way all handles that a program can reach belong to
objects, no node fails internally, and a call that picks a method of the kernel gives it a receiver
and every argument that it reads. -/
theorem runs_never_fail_internally {loader : Loader} {searchPaths : List String} {world : World}
    (loads : ∀ request name searchPaths error,
      loader.answer request name searchPaths = .refused error → error.isInternal = false)
    (reached : Reachable loader searchPaths world) (depth : Nat) :
    (∀ module, (interpret depth module world).Blameless) ∧
    (∀ module scope, (interpretIn depth module scope world).Blameless) ∧
    ∀ middle, world.Leads middle →
      middle.Sound ∧ middle.heap.CompletesCalls ∧
      ∀ scope node, (evaluate depth scope node middle).Blameless := by
  have sound := reached.sound loads
  refine ⟨fun module => (gives_interpret depth module sound).blameless,
    fun module scope => (gives_interpretIn depth module scope sound).blameless, ?_⟩
  intro middle leads
  have sound := leads.sound sound
  exact ⟨sound, sound.heap.completesCalls,
    fun scope node => (lawful_evaluate depth scope node middle sound).blameless⟩

/-- So it is on a driver that has run `x = true`. -/
theorem runs_never_fail_internally_after_assignment :
    let loader : Loader := ⟨fun _ name paths => .refused (.missingModule name paths)⟩
    let place := Location.start "text"
    let first : Syntax.Module :=
      ⟨[.assignment (.reference ⟨"x", place⟩) (.reference ⟨"true", place⟩) place], place⟩
    ∃ world, (interpret 2 first (World.fresh loader [])).world? = some world ∧ world.Sound ∧
      ∀ depth module, (interpret depth module world).Blameless := by
  intro loader place first
  have loads : ∀ request name searchPaths error,
      loader.answer request name searchPaths = .refused error → error.isInternal = false := by
    rintro request name searchPaths error ⟨⟩
    rfl
  have reached : Reachable loader [] _ := .interpret .fresh 2 first rfl
  refine ⟨_, rfl, ?_, fun depth => (runs_never_fail_internally loads reached depth).1⟩
  exact ((runs_never_fail_internally loads reached 0).2.2 _ (.refl _)).1

end Session

end RipInterpreter
