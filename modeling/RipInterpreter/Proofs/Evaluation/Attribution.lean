import RipInterpreter.Proofs.Evaluation.Alters
import RipInterpreter.Proofs.Machine.Attribution
import RipInterpreter.Proofs.Modules.Directories

namespace RipInterpreter

open Syntax

/-- The directories to search for what code in the text `origin` requires: first that of the text. -/
def World.searchPathsOf (world : World) (origin : String) : List String :=
  match Path.parent origin with
  | some directory => (if directory = "" then "." else directory) :: world.searchPaths
  | none => world.searchPaths

theorem World.searchPathsOf_of_leadsInto {origin directory : String}
    (leads : Path.LeadsInto origin directory) (world : World) :
    world.searchPathsOf origin = directory :: world.searchPaths := by
  obtain ⟨found, parent, named⟩ := leads.parent
  rw [searchPathsOf, parent]
  exact congrArg (· :: world.searchPaths) named

/-- The overload that is chosen is one of those given. -/
theorem Heap.fits_of_selectOverload {heap : Heap} {arguments : List Handle}
    {best : Option (Overload × Nat)} {overloads : List Overload} {chosen : Overload} {count : Nat}
    {fits : Overload → Prop} (earlier : ∀ overload literals, best = some (overload, literals) →
      fits overload) (given : ∀ overload ∈ overloads, fits overload)
    (selected : heap.selectOverload arguments best overloads = .ok (some (chosen, count))) :
    fits chosen := by
  induction overloads generalizing best with
  | nil => exact earlier chosen count (Except.ok.inj selected)
  | cons overload rest ih =>
      obtain ⟨one, more⟩ := List.forall_mem_cons.mp given
      have later (compared : Option Nat) :=
        ih (fits_better best overload compared earlier fun _ _ => one) more
      unfold selectOverload at selected
      split at selected
      · cases matched : heap.matchParameters overload.parameters arguments with
        | error fault =>
            rw [matched] at selected
            cases selected
        | ok compared =>
            rw [matched] at selected
            exact later compared selected
      · exact later none selected

namespace Action

/-- What becomes of the answer to the request for a module. -/
def settleAnswer (evaluator : Evaluator) : LoadAnswer → Action Handle
  | .refused error => fail error
  | .unseen path => halt (.unseenPath path)
  | .found path module => do
    let state ← world
    match state.loaded.lookup (Path.key path) with
    | some value => return value
    | none =>
      if state.loading.contains (Path.key path) then fault (.circularRequire path)
      else runModule evaluator path module

theorem require_eq (evaluator : Evaluator) (name : String) (scope : Scope) :
    require evaluator name scope = requestModule name scope >>= settleAnswer evaluator := rfl

/-- Requests a module for code in the text `origin`. -/
def requestWritten (name origin : String) : Action LoadAnswer := fun world =>
  .value (world.loader.answer world.requests name (world.searchPathsOf origin))
    { world with requests := world.requests + 1 }

/-- From a scope that serves a text the same is requested as from the text. -/
theorem requestWritten_apply {world : World} {scope : Scope} {origin : String}
    (serves : world.frames.originOf scope = some origin) (name : String) :
    requestWritten name origin world = requestModule name scope world := by
  have paths : searchPathsFrom world scope = world.searchPathsOf origin := by
    unfold searchPathsFrom
    rw [serves]
    rfl
  unfold requestModule requestWritten
  rw [paths]

/-- Requires a module for code in the text `origin`. -/
def requireWritten (evaluator : Evaluator) (name origin : String) : Action Handle := do
  settleAnswer evaluator (← requestWritten name origin)

/-- Calls a value like `call`, with a way to run the methods of the kernel. -/
def callWith (native : Method → Call → Action Handle) (evaluator : Evaluator) (value : Handle)
    (arguments : List Handle) (caller : Scope) : Action Handle := do
  match ← payload value with
  | .lambda callable =>
    match ← ask fun heap => heap.selectOverload arguments none callable.overloads with
    | none => fault (.noMatchingOverload arguments.length)
    | some (overload, _) =>
      match overload.body with
      | .method method => native method ⟨callable.receiver, arguments, caller⟩
      | .block body => callBlock evaluator callable overload.parameters arguments body
  | _ =>
    let text ← ask fun heap => heap.inspect value
    fault (.notCallable text)

theorem call_eq (evaluator : Evaluator) :
    call evaluator = callWith (runMethod evaluator) evaluator := rfl

/-- Runs a method that is called in the text `origin`. -/
def runMethodWritten (evaluator : Evaluator) (origin : String) (method : Method) (call : Call) :
    Action Handle := do
  match method with
  | .require =>
    let name ← stringValue (← argumentOf call 0)
    requireWritten evaluator name origin
  | method => runMethod evaluator method call

/-- Only the method that requires a module evaluates nodes. -/
theorem runMethod_eq {method : Method} (evaluator other : Evaluator) (plain : method ≠ .require)
    (call : Call) : runMethod other method call = runMethod evaluator method call := by
  cases method with
  | require => exact absurd rfl plain
  | _ => rfl

theorem runMethodWritten_eq {method : Method} (evaluator : Evaluator) (plain : method ≠ .require)
    (origin : String) (call : Call) :
    runMethodWritten evaluator origin method call = runMethod evaluator method call := by
  cases method with
  | require => exact absurd rfl plain
  | _ => rfl

/-- Evaluates a node like `step`, but a module that is required by a call in the node is searched
from the text that the call is written in. -/
def stepWritten (evaluator : Evaluator) (scope : Scope) : Node → Action Handle
  | .invocation callable arguments place => do
    let callable ← evaluator scope callable
    let arguments ← evaluateAll evaluator scope arguments
    callWith (runMethodWritten evaluator place.origin) evaluator callable arguments scope
  | node => step evaluator scope node

end Action

/-- Evaluates like `evaluate` as long as every node is evaluated in a scope that serves the text it
stands in, and does something else everywhere else. Calls search modules from the texts that they
are written in, and not from the scopes in which they are made. -/
def evaluateWritten (elsewhere : Evaluator) : (depth : Nat) → Evaluator
  | 0, _, _ => Action.halt .tooDeep
  | depth + 1, scope, node => do
    if (← Action.world).frames.originOf scope = some node.location.origin then
      Action.locate node.location (Action.stepWritten (evaluateWritten elsewhere depth) scope node)
    else elsewhere scope node

/-- The second evaluator does what the first one does wherever code has its text and is evaluated in
a scope that serves it. -/
def Evaluator.Agrees (evaluator other : Evaluator) : Prop :=
  ∀ {world : World} {scope : Scope} {origin : String} {node : Node}, world.Attributed →
    world.frames.originOf scope = some origin → node.From origin →
    Action.Agrees world (evaluator scope node) (other scope node) fun _ _ => True

namespace Action

section

variable {evaluator other : Evaluator} (nested : evaluator.Agrees other) {world : World}
  (attributed : world.Attributed) {scope : Scope} {origin : String}
include nested attributed

section

variable (serves : world.frames.originOf scope = some origin)
include serves

theorem agrees_runFrom (last : Handle) {statements : List Node}
    (written : ∀ statement ∈ statements, statement.From origin) :
    Agrees world (runFrom evaluator scope last statements) (runFrom other scope last statements)
      fun _ _ => True := by
  induction statements generalizing world last with
  | nil => exact .pure attributed trivial
  | cons statement rest ih =>
      obtain ⟨one, more⟩ := List.forall_mem_cons.mp written
      exact (nested attributed serves one).bind fun value middle reached _ =>
        ih reached.attributed (reached.serves scope origin serves) _ more

theorem agrees_run {statements : List Node}
    (written : ∀ statement ∈ statements, statement.From origin) :
    Agrees world (run evaluator scope statements) (run other scope statements) fun _ _ => True :=
  agrees_runFrom nested attributed serves .nil written

theorem agrees_runBlock {block : Block}
    (written : ∀ statement ∈ block.statements, statement.From origin) :
    Agrees world (runBlock evaluator scope block) (runBlock other scope block) fun _ _ => True :=
  (agrees_enter attributed serves).bind fun _ _ reached inside =>
    agrees_run nested reached.attributed inside written

end

/-- The body of a lambda runs in a frame of the scope that the lambda was made in. -/
theorem agrees_callBlock {callable : Callable} (parameters : List Parameter)
    (arguments : List Handle) {body : Block}
    (serves : world.frames.originOf callable.closure = some origin)
    (written : ∀ statement ∈ body.statements, statement.From origin) :
    Agrees world (callBlock evaluator callable parameters arguments body)
      (callBlock other callable parameters arguments body) fun _ _ => True := by
  refine (agrees_enter attributed serves).bind fun frame middle reached inside => ?_
  have ran {start : World} (onward : middle.Continues start) : Agrees start
      (bindParameters frame parameters arguments >>= fun _ =>
        catchReturned (run evaluator frame body.statements))
      (bindParameters frame parameters arguments >>= fun _ =>
        catchReturned (run other frame body.statements)) fun _ _ => True :=
    (agrees_bindParameters onward.attributed frame parameters arguments).bind
      fun _ _ further _ => .catchReturned <| agrees_run nested further.attributed
        ((onward.trans further).serves frame origin inside) written
  cases callable.receiver with
  | none => exact ran reached.attributed.refl
  | some receiver =>
      exact (agrees_bindName reached.attributed frame "@" receiver).bind fun _ _ onward _ =>
        ran onward

/-- A module runs in a frame that serves its path. -/
theorem agrees_runModule {path : String} {module : Syntax.Module}
    (written : ∀ statement ∈ module.statements, statement.From path) :
    Agrees world (runModule evaluator path module) (runModule other path module)
      fun _ _ => True := by
  unfold runModule
  refine (Agrees.change attributed rfl rfl rfl).bind fun _ _ noted _ =>
    (agrees_enterFrom noted.attributed _ path).bind fun frame _ reached inside =>
      (Agrees.settle (agrees_run nested reached.attributed inside written)).bind
        fun completion _ ran _ => (Agrees.change ran.attributed rfl rfl rfl).bind
          fun _ _ done _ => ?_
  split
  · exact (Agrees.change done.attributed rfl rfl rfl).bind fun _ _ kept _ =>
      .pure kept.attributed trivial
  · exact (Agrees.change done.attributed rfl rfl rfl).bind fun _ _ kept _ =>
      .pure kept.attributed trivial
  · exact .resume done.attributed completion

theorem agrees_settleAnswer {answer : LoadAnswer}
    (faithful : ∀ path module, answer = .found path module →
      ∀ statement ∈ module.statements, statement.From path) :
    Agrees world (settleAnswer evaluator answer) (settleAnswer other answer) fun _ _ => True := by
  cases answer with
  | refused error => exact .fail attributed error
  | unseen path => exact .halt _
  | found path module =>
      refine (Agrees.current attributed).bind fun state _ reached _ => ?_
      split
      · exact .pure reached.attributed trivial
      · split
        · exact .fault reached.attributed _
        · exact agrees_runModule nested reached.attributed (faithful path module rfl)

omit nested in
theorem agrees_requestModule (name : String) (scope : Scope) :
    Agrees world (requestModule name scope) (requestModule name scope) fun answer _ =>
      ∀ path module, answer = .found path module →
        ∀ statement ∈ module.statements, statement.From path := by
  refine ⟨rfl, ?_, ?_⟩
  · rintro _ ⟨⟩
    exact attributed.continues_of_heap rfl rfl fun _ _ serves => serves
  · rintro _ _ ⟨⟩
    exact attributed.loader _ _ _

theorem agrees_require (name : String) (scope : Scope) :
    Agrees world (require evaluator name scope) (require other name scope) fun _ _ => True :=
  (agrees_requestModule attributed name scope).bind fun _ _ reached faithful =>
    agrees_settleAnswer nested reached.attributed faithful

theorem agrees_requireWritten (name : String) (serves : world.frames.originOf scope = some origin) :
    Agrees world (require evaluator name scope) (requireWritten other name origin)
      fun _ _ => True := by
  have requires := agrees_require nested attributed name scope
  refine { requires with same := ?_ }
  rw [← requires.same, requireWritten, require_eq, bind_apply, bind_apply,
    requestWritten_apply serves]

theorem agrees_runMethod (method : Method) (call : Call) :
    Agrees world (runMethod evaluator method call) (runMethod other method call)
      fun _ _ => True := by
  by_cases requiring : method = .require
  · subst requiring
    exact (Agrees.quiet attributed (ObjectsOnly.law.argumentOf call 0) (alters_argumentOf call 0)).bind
      fun argument _ reached _ => (Agrees.quiet reached.attributed (ObjectsOnly.law.stringValue argument)
        (alters_stringValue argument)).bind fun name _ further _ =>
          agrees_require nested further.attributed name call.scope
  · have plain := Agrees.quiet attributed (ObjectsOnly.law.runMethod evaluator requiring call)
      (alters_runMethod evaluator requiring call)
    exact { plain with same := congrFun (runMethod_eq evaluator other requiring call) world }

theorem agrees_runMethodWritten (method : Method) (call : Call)
    (serves : world.frames.originOf call.scope = some origin) :
    Agrees world (runMethod evaluator method call) (runMethodWritten other origin method call)
      fun _ _ => True := by
  by_cases requiring : method = .require
  · subst requiring
    exact (Agrees.quiet attributed (ObjectsOnly.law.argumentOf call 0) (alters_argumentOf call 0)).bind
      fun argument _ reached _ => (Agrees.quiet reached.attributed (ObjectsOnly.law.stringValue argument)
        (alters_stringValue argument)).bind fun name _ further _ =>
          agrees_requireWritten nested further.attributed name
            (further.serves _ _ (reached.serves _ _ serves))
  · rw [runMethodWritten_eq other requiring]
    exact agrees_runMethod nested attributed method call

/-- Whatever is called: a lambda stands in the text that the scope of its making serves. -/
theorem agrees_callWith {native otherNative : Method → Call → Action Handle} {caller : Scope}
    (natively : ∀ {start : World}, world.Continues start → ∀ method call, call.scope = caller →
      Agrees start (native method call) (otherNative method call) fun _ _ => True)
    (value : Handle) (arguments : List Handle) :
    Agrees world (callWith native evaluator value arguments caller)
      (callWith otherNative other value arguments caller) fun _ _ => True := by
  refine (agrees_payload attributed value).bind fun found middle reached known => ?_
  obtain ⟨⟨object, present, shape⟩, rfl⟩ := known
  have failed {question : Heap → Except ReadFault String} : Agrees middle
      (ask question >>= fun text => fault (.notCallable text) : Action Handle)
      (ask question >>= fun text => fault (.notCallable text)) fun _ _ => True :=
    (Agrees.ask reached.attributed _).bind fun _ _ onward _ => .fault onward.attributed _
  cases found with
  | lambda callable =>
      refine (Agrees.ask reached.attributed _).bind fun selected last onward chosen => ?_
      obtain ⟨chosen, rfl⟩ := chosen
      cases selected with
      | none => exact .fault onward.attributed _
      | some best =>
          obtain ⟨⟨parameters, body⟩, literals⟩ := best
          have stands := Heap.fits_of_selectOverload (by nofun)
            (reached.attributed.lambdas value object callable present shape) chosen
          cases body with
          | method method => exact natively onward method _ rfl
          | block body =>
              obtain ⟨origin, serves, written⟩ := stands body rfl
              exact agrees_callBlock nested onward.attributed parameters arguments serves written
  | _ => exact failed

theorem agrees_call (value : Handle) (arguments : List Handle) (caller : Scope) :
    Agrees world (call evaluator value arguments caller) (call other value arguments caller)
      fun _ _ => True :=
  agrees_callWith nested attributed
    (fun reached method call _ => agrees_runMethod nested reached.attributed method call)
    value arguments

theorem agrees_send (receiver : Handle) (method : String) (arguments : List Handle)
    (caller : Scope) :
    Agrees world (send evaluator receiver method arguments caller)
      (send other receiver method arguments caller) fun _ _ => True :=
  (Agrees.quiet attributed (ObjectsOnly.law.get receiver method)
    (alters_get (fun _ _ => trivial) receiver method)).bind fun _ _ reached _ =>
      agrees_call nested reached.attributed _ _ _

theorem agrees_holds (scope : Scope) (value : Handle) :
    Agrees world (holds evaluator scope value) (holds other scope value) fun _ _ => True :=
  (agrees_send nested attributed value "to_boolean" [] scope).bind fun _ _ reached _ =>
    .pure reached.attributed trivial

section

variable (serves : world.frames.originOf scope = some origin)
include serves

theorem agrees_evaluateAll {nodes : List Node} (written : ∀ node ∈ nodes, node.From origin) :
    Agrees world (evaluateAll evaluator scope nodes) (evaluateAll other scope nodes)
      fun _ _ => True :=
  (Agrees.mapM attributed fun node listed middle reached =>
    (nested reached.attributed (reached.serves scope origin serves) (written node listed) :
      Agrees middle _ _ fun _ _ => True)).mono fun _ _ _ => trivial

theorem agrees_evaluatePair {pair : Pair} (key : pair.key.From origin)
    (value : pair.value.From origin) :
    Agrees world (evaluatePair evaluator scope pair) (evaluatePair other scope pair)
      fun _ _ => True :=
  (nested attributed serves key).bind fun _ _ reached _ =>
    (nested reached.attributed (reached.serves scope origin serves) value).bind
      fun _ _ onward _ => .quiet onward.attributed (ObjectsOnly.law.newKeyValue _ _)
        (alters_newKeyValue _ _)

theorem agrees_assign {target value : Node} {place : Location}
    (written : (Node.assignment target value place).From origin) :
    Agrees world (assign evaluator scope target value) (assign other scope target value)
      fun _ _ => True := by
  have valued : value.From origin := written.inner (List.mem_cons_of_mem _ List.mem_cons_self)
  have targeted : target.From origin := written.inner List.mem_cons_self
  unfold assign
  split
  · rename_i name
    have bound {start : World} (ready : start.Attributed) (value : Handle) : Agrees start
        (bindName scope name.text value >>= fun _ => (pure value : Action Handle))
        (bindName scope name.text value >>= fun _ => pure value) fun _ _ => True :=
      (agrees_bindName ready scope name.text value).bind fun _ _ reached _ =>
        .pure reached.attributed trivial
    refine (nested attributed serves valued).bind fun value _ reached _ =>
      (Agrees.ask reached.attributed _).bind fun isClass _ onward _ => ?_
    cases isClass with
    | true =>
        exact (Agrees.quiet onward.attributed (ObjectsOnly.law.nameClass value name.text)
          (alters_nameClass value name.text)).bind fun _ _ named _ => bound named.attributed value
    | false => exact bound onward.attributed value
  · rename_i object key inner
    have owner : object.From origin := targeted.inner List.mem_cons_self
    refine (nested attributed serves owner).bind fun object _ reached _ =>
      (nested reached.attributed (reached.serves scope origin serves) valued).bind
        fun value _ onward _ => (Agrees.quiet onward.attributed (ObjectsOnly.law.set object key value)
          ?_).bind fun _ _ done _ => .pure done.attributed trivial
    exact (Alters.ask _).bind fun _ => .change _ fun _ => (Heap.Change.assign value trivial).changes
  · exact .fail attributed _

/-- What is made of the head and the body of a lambda stands in the text of the lambda. -/
theorem agrees_evaluateOverload {definition : Lambda}
    (parameters : ∀ parameter ∈ definition.parameters, parameter.From origin)
    (body : ∀ statement ∈ definition.body.statements, statement.From origin) :
    Agrees world (evaluateOverload evaluator scope definition)
      (evaluateOverload other scope definition) fun overload _ =>
        ∀ block, overload.body = .block block →
          ∀ statement ∈ block.statements, statement.From origin := by
  have evaluated : Agrees world (definition.parameters.mapM (evaluateParameter evaluator scope))
      (definition.parameters.mapM (evaluateParameter other scope)) fun parameters _ =>
        ∀ parameter ∈ parameters, True := by
    refine .mapM attributed fun parameter listed middle reached => ?_
    unfold evaluateParameter
    split
    · exact .pure reached.attributed trivial
    · exact (nested reached.attributed (reached.serves scope origin serves)
        (parameters _ listed)).bind fun _ _ onward _ => .pure onward.attributed trivial
  refine evaluated.bind fun found _ reached _ => .pure reached.attributed ?_
  rintro _ ⟨⟩
  exact body

theorem agrees_evaluateParent {ancestor : Node} (written : ancestor.From origin) :
    Agrees world (evaluateParent evaluator scope ancestor) (evaluateParent other scope ancestor)
      fun _ _ => True := by
  refine (nested attributed serves written).bind fun parent _ reached _ =>
    (Agrees.ask reached.attributed _).bind fun isClass _ onward _ => ?_
  cases isClass with
  | true => exact .pure onward.attributed trivial
  | false =>
      exact .locate (.quiet onward.attributed (ObjectsOnly.law.unexpected _ _) (alters_unexpected _ _)) _

theorem agrees_evaluateClass {ancestors : List Node} {body : Block}
    (parents : ∀ ancestor ∈ ancestors, ancestor.From origin)
    (written : ∀ statement ∈ body.statements, statement.From origin) :
    Agrees world (evaluateClass evaluator scope ancestors body)
      (evaluateClass other scope ancestors body) fun _ _ => True := by
  have evaluated : Agrees world (ancestors.mapM (evaluateParent evaluator scope))
      (ancestors.mapM (evaluateParent other scope)) fun found _ => ∀ parent ∈ found, True :=
    .mapM attributed fun ancestor listed _ reached => agrees_evaluateParent nested
      reached.attributed (reached.serves scope origin serves) (parents ancestor listed)
  refine evaluated.bind fun parents _ reached _ =>
    (Agrees.quiet reached.attributed (ObjectsOnly.law.newClass none parents)
      (alters_newClass none parents)).bind fun made _ grown _ =>
        (Agrees.quiet grown.attributed (ObjectsOnly.law.get made "@")
          (alters_get (fun _ _ => trivial) made "@")).bind fun prototype _ read _ => ?_
  have still := ((reached.trans grown).trans read).serves scope origin serves
  exact (agrees_enter read.attributed still).bind fun inner _ entered inside =>
    (agrees_bindName entered.attributed inner "self" made).bind fun _ _ first _ =>
      (agrees_bindName first.attributed inner "@" prototype).bind fun _ _ second _ =>
        (agrees_run nested second.attributed
          ((first.trans second).serves inner origin inside) written).bind
            fun _ _ done _ => .pure done.attributed trivial

theorem agrees_matchesAny (subject : Handle) {matchers : List Node}
    (written : ∀ matcher ∈ matchers, matcher.From origin) :
    Agrees world (matchesAny evaluator scope subject matchers)
      (matchesAny other scope subject matchers) fun _ _ => True := by
  induction matchers generalizing world with
  | nil => exact .pure attributed trivial
  | cons candidate rest ih =>
      obtain ⟨one, more⟩ := List.forall_mem_cons.mp written
      refine (nested attributed serves one).bind fun value _ reached _ =>
        (Agrees.ask reached.attributed _).bind fun same _ onward _ => ?_
      cases same with
      | true => exact .pure onward.attributed trivial
      | false => exact ih onward.attributed ((reached.trans onward).serves scope origin serves) more

/-- The block of a case stands where the case stands. -/
theorem agrees_findCase (subject : Handle) {cases : List Case}
    (written : ∀ case ∈ cases, (∀ matcher ∈ case.matchers, matcher.From origin) ∧
      ∀ statement ∈ case.body.statements, statement.From origin) :
    Agrees world (findCase evaluator scope subject cases) (findCase other scope subject cases)
      fun found _ => ∀ body, found = some body →
        ∀ statement ∈ body.statements, statement.From origin := by
  induction cases generalizing world with
  | nil => exact .pure attributed (by nofun)
  | cons case rest ih =>
      obtain ⟨one, more⟩ := List.forall_mem_cons.mp written
      refine (agrees_matchesAny nested attributed serves subject one.1).bind
        fun found _ reached _ => ?_
      cases found with
      | true =>
          refine .pure reached.attributed ?_
          rintro _ ⟨⟩
          exact one.2
      | false => exact ih reached.attributed (reached.serves scope origin serves) more

theorem agrees_evaluateSwitch {subject : Node} {cases : List Case} {otherwise : Option Clause}
    {place : Location} (written : (Node.switch subject cases otherwise place).From origin) :
    Agrees world (evaluateSwitch evaluator scope subject cases otherwise)
      (evaluateSwitch other scope subject cases otherwise) fun _ _ => True := by
  have branch (case : Case) (listed : case ∈ cases) :
      (∀ matcher ∈ case.matchers, matcher.From origin) ∧
        ∀ statement ∈ case.body.statements, statement.From origin := by
    rw [← List.forall_mem_append]
    exact fun inner inside => written.inner (List.mem_append_left _ (List.mem_cons_of_mem _
      (List.mem_flatMap.mpr ⟨case, listed, inside⟩)))
  refine (nested attributed serves (written.inner (List.mem_append_left _ List.mem_cons_self))).bind
    fun value _ reached _ => ?_
  refine (agrees_findCase nested reached.attributed (reached.serves scope origin serves) value
    branch).bind fun found _ onward known => ?_
  have still := (reached.trans onward).serves scope origin serves
  cases found with
  | some body => exact agrees_runBlock nested onward.attributed still (known body rfl)
  | none =>
      cases otherwise with
      | some clause =>
          exact agrees_runBlock nested onward.attributed still fun statement inside =>
            written.inner (List.mem_append_right _
              (List.mem_flatMap.mpr ⟨clause, List.mem_singleton_self clause, inside⟩))
      | none => exact (Agrees.ask onward.attributed _).bind fun _ _ done _ => .fault done.attributed _

omit nested serves in
theorem agrees_findHandler (scope : Scope) (value : Handle) (handlers : List Handler) :
    Agrees world (findHandler scope value handlers) (findHandler scope value handlers)
      fun found _ => ∀ handler, found = some handler → handler ∈ handlers := by
  induction handlers generalizing world with
  | nil => exact .pure attributed (by nofun)
  | cons handler rest ih =>
      have decided {start : World} (ready : start.Attributed) (taken : Bool) : Agrees start
          (if taken = true then (pure (some handler) : Action _) else findHandler scope value rest)
          (if taken = true then (pure (some handler) : Action _) else findHandler scope value rest)
          fun found _ => ∀ chosen, found = some chosen → chosen ∈ handler :: rest := by
        cases taken with
        | true =>
            refine .pure ready ?_
            rintro _ ⟨⟩
            exact List.mem_cons_self
        | false =>
            exact (ih ready).mono fun found _ known chosen same =>
              List.mem_cons_of_mem handler (known chosen same)
      unfold findHandler
      cases handler.matcher with
      | none => exact decided attributed true
      | some matcher =>
          exact (Agrees.quiet attributed (objectsOnly_accepts scope matcher value)
            (alters_accepts scope matcher value)).bind fun taken _ reached _ =>
              decided reached.attributed taken

theorem agrees_handled {body : Block} {handlers : List Handler}
    (written : ∀ statement ∈ body.statements, statement.From origin)
    (handling : ∀ handler ∈ handlers, ∀ statement ∈ handler.body.statements,
      statement.From origin) :
    Agrees world (handled evaluator scope body handlers) (handled other scope body handlers)
      fun _ _ => True := by
  refine (Agrees.settle (agrees_runBlock nested attributed serves written)).bind
    fun completion _ reached _ => ?_
  refine (Agrees.quiet reached.attributed (objectsOnly_caught completion)
    (alters_caught completion)).bind fun value _ taken _ => ?_
  cases value with
  | none => exact .pure taken.attributed trivial
  | some value =>
      have before := (reached.trans taken).serves scope origin serves
      refine (agrees_findHandler taken.attributed scope value handlers).bind
        fun found _ chosen known => ?_
      cases found with
      | none => exact .pure chosen.attributed trivial
      | some handler =>
          exact .settle <| (agrees_enter chosen.attributed (chosen.serves scope origin before)).bind
            fun frame _ entered inside =>
              (agrees_bindName entered.attributed frame _ value).bind fun _ _ bound _ =>
                agrees_runBlock nested bound.attributed (bound.serves frame origin inside)
                  (handling handler (known handler rfl))

theorem agrees_attempt {body : Block} {handlers : List Handler} {cleanup : Option Clause}
    {place : Location} (written : (Node.attempt body handlers cleanup place).From origin) :
    Agrees world (attempt evaluator scope body handlers cleanup)
      (attempt other scope body handlers cleanup) fun _ _ => True := by
  have tried := agrees_handled nested attributed serves
    (fun statement inside => written.inner (List.mem_append_left _ (List.mem_append_left _ inside)))
    fun handler listed statement inside => written.inner (List.mem_append_left _
      (List.mem_append_right _ (List.mem_flatMap.mpr ⟨handler, listed, inside⟩)))
  refine tried.bind fun completion _ reached _ => ?_
  cases cleanup with
  | none => exact .resume reached.attributed completion
  | some clause =>
      exact (agrees_runBlock nested reached.attributed (reached.serves scope origin serves)
        fun statement inside => written.inner (List.mem_append_right _
          (List.mem_flatMap.mpr ⟨clause, List.mem_singleton_self clause, inside⟩))).bind
            fun _ _ done _ => .resume done.attributed completion

theorem agrees_evaluatePayload {payload : Option Node}
    (written : ∀ node ∈ payload.toList, node.From origin) :
    Agrees world (evaluatePayload evaluator scope payload) (evaluatePayload other scope payload)
      fun _ _ => True := by
  cases payload with
  | none => exact .pure attributed trivial
  | some node => exact nested attributed serves (written node List.mem_cons_self)

theorem agrees_map {pairs : List Pair} {place : Location}
    (written : (Node.map pairs place).From origin) :
    Agrees world (step evaluator scope (.map pairs place))
      (stepWritten other scope (.map pairs place)) fun _ _ => True := by
  have made : Agrees world (pairs.mapM (evaluatePair evaluator scope))
      (pairs.mapM (evaluatePair other scope)) fun found _ => ∀ pair ∈ found, True :=
    .mapM attributed fun pair listed _ reached =>
      have inside {node : Node} (part : node ∈ [pair.key, pair.value]) : node.From origin :=
        written.inner (List.mem_flatMap.mpr ⟨pair, listed, part⟩)
      agrees_evaluatePair nested reached.attributed (reached.serves scope origin serves)
        (inside List.mem_cons_self) (inside (List.mem_cons_of_mem _ List.mem_cons_self))
  exact made.bind fun _ _ reached _ =>
    .quiet reached.attributed (ObjectsOnly.law.newInstance _ _) (alters_newMap _)

/-- The text that a call is written in is the one its frame serves. -/
theorem agrees_invocation {callable : Node} {arguments : List Node} {place : Location}
    (written : (Node.invocation callable arguments place).From origin) :
    Agrees world (step evaluator scope (.invocation callable arguments place))
      (stepWritten other scope (.invocation callable arguments place)) fun _ _ => True := by
  have own : place.origin = origin := written.own
  refine (nested attributed serves (written.inner List.mem_cons_self)).bind fun value _ reached _ =>
    (agrees_evaluateAll nested reached.attributed (reached.serves scope origin serves)
      fun argument listed => written.inner (List.mem_cons_of_mem _ listed)).bind
        fun given _ onward _ => ?_
  rw [call_eq, own]
  refine agrees_callWith nested onward.attributed (fun further method call same => ?_) value given
  refine agrees_runMethodWritten nested further.attributed method call ?_
  rw [same]
  exact ((reached.trans onward).trans further).serves scope origin serves

theorem agrees_overloads {definitions : List Lambda} {place : Location}
    (written : (Node.overloads definitions place).From origin) :
    Agrees world (step evaluator scope (.overloads definitions place))
      (stepWritten other scope (.overloads definitions place)) fun _ _ => True := by
  have inside (definition : Lambda) (listed : definition ∈ definitions) :
      (∀ parameter ∈ definition.parameters, parameter.From origin) ∧
        ∀ statement ∈ definition.body.statements, statement.From origin := by
    rw [← List.forall_mem_append]
    exact fun node part => written.inner (List.mem_flatMap.mpr ⟨definition, listed, part⟩)
  have made := Agrees.mapM attributed fun definition listed middle reached =>
    agrees_evaluateOverload nested reached.attributed (reached.serves scope origin serves)
      (inside definition listed).1 (inside definition listed).2
  refine made.bind fun found _ reached stands => agrees_newLambda reached.attributed ?_
  intro overload listed body shape
  exact ⟨origin, reached.serves scope origin serves, stands overload listed body shape⟩

theorem agrees_conditional {condition : Node} {body otherwise : Block} {place : Location}
    (written : (Node.conditional condition body otherwise place).From origin) :
    Agrees world (step evaluator scope (.conditional condition body otherwise place))
      (stepWritten other scope (.conditional condition body otherwise place)) fun _ _ => True := by
  refine (nested attributed serves (written.inner (List.mem_append_left _ List.mem_cons_self))).bind
    fun value _ reached _ => (agrees_holds nested reached.attributed scope value).bind
      fun truth _ onward _ => ?_
  have still := (reached.trans onward).serves scope origin serves
  cases truth with
  | true =>
      exact agrees_runBlock nested onward.attributed still fun statement listed =>
        written.inner (List.mem_append_left _ (List.mem_cons_of_mem _ listed))
  | false =>
      exact agrees_runBlock nested onward.attributed still fun statement listed =>
        written.inner (List.mem_append_right _ listed)

/-- By the node. Calls are the only ones that differ. -/
theorem agrees_step {node : Node} (written : node.From origin) :
    Agrees world (step evaluator scope node) (stepWritten other scope node) fun _ _ => True := by
  have quietly {action : Action Handle} (objectsOnly : action.ObjectsOnly)
      (alters : action.Alters Deed.MakesNoLambda) : Agrees world action action fun _ _ => True :=
    .quiet attributed objectsOnly alters
  have inner {node : Node} (inside : node.From origin) := nested attributed serves inside
  cases node with
  | comment text place => exact .pure attributed trivial
  | reference name =>
      refine (Agrees.current attributed).bind fun state _ reached _ => ?_
      split
      · exact .pure reached.attributed trivial
      · exact .fault reached.attributed _
  | integer digits place =>
      exact quietly (ObjectsOnly.law.integerLiteral digits) (alters_integerLiteral digits)
  | decimal digits place =>
      exact quietly (ObjectsOnly.law.decimalLiteral digits) (alters_decimalLiteral digits)
  | character glyph => exact quietly (ObjectsOnly.law.newInstance _ _) (alters_newCharacter _)
  | string glyphs place => exact quietly (ObjectsOnly.law.newInstance _ _) (alters_newString _)
  | regularExpression glyphs place =>
      exact quietly (ObjectsOnly.law.newInstance _ _) (alters_newRegularExpression _)
  | interpolation body place =>
      exact (agrees_enter attributed serves).bind fun frame _ reached inside =>
        (agrees_run nested reached.attributed inside fun statement listed =>
          written.inner listed).bind fun last _ onward _ =>
            agrees_send nested onward.attributed last "to_string" [] scope
  | keyValue pair =>
      exact agrees_evaluatePair nested attributed serves (written.inner List.mem_cons_self)
        (written.inner (List.mem_cons_of_mem _ List.mem_cons_self))
  | range start last exclusive place =>
      exact (inner (written.inner List.mem_cons_self)).bind fun _ _ reached _ =>
        (nested reached.attributed (reached.serves scope origin serves)
          (written.inner (List.mem_cons_of_mem _ List.mem_cons_self))).bind fun _ _ onward _ =>
            .quiet onward.attributed (ObjectsOnly.law.newRange _ _ _) (alters_newRange _ _ _)
  | list items place =>
      exact (agrees_evaluateAll nested attributed serves fun item listed =>
        written.inner listed).bind fun _ _ reached _ =>
          .quiet reached.attributed (ObjectsOnly.law.newInstance _ _) (alters_newList _)
  | map pairs place => exact agrees_map nested attributed serves written
  | assignment target value place => exact agrees_assign nested attributed serves written
  | property object key place =>
      exact (inner (written.inner List.mem_cons_self)).bind fun object _ reached _ =>
        .quiet reached.attributed (ObjectsOnly.law.get object key)
          (alters_get (fun _ _ => trivial) object key)
  | invocation callable arguments place => exact agrees_invocation nested attributed serves written
  | lambda definition =>
      refine (agrees_evaluateOverload nested attributed serves
        (fun parameter listed => written.inner (List.mem_append_left _ listed))
        fun statement listed => written.inner (List.mem_append_right _ listed)).bind
          fun overload _ reached stands => agrees_newLambda reached.attributed ?_
      refine List.forall_mem_singleton.mpr fun body shape => ?_
      exact ⟨origin, reached.serves scope origin serves, stands body shape⟩
  | overloads definitions place => exact agrees_overloads nested attributed serves written
  | classDefinition ancestors body place =>
      exact agrees_evaluateClass nested attributed serves
        (fun ancestor listed => written.inner (List.mem_append_left _ listed))
        fun statement listed => written.inner (List.mem_append_right _ listed)
  | block body =>
      exact agrees_runBlock nested attributed serves fun statement listed => written.inner listed
  | conditional condition body otherwise place =>
      exact agrees_conditional nested attributed serves written
  | switch subject cases otherwise place =>
      exact agrees_evaluateSwitch nested attributed serves written
  | attempt body handlers cleanup place => exact agrees_attempt nested attributed serves written
  | throwing payload place =>
      exact (inner (written.inner List.mem_cons_self)).bind fun _ _ reached _ =>
        .raise reached.attributed _
  | returning payload place =>
      exact (agrees_evaluatePayload nested attributed serves fun node listed =>
        written.inner listed).bind fun _ _ reached _ => .raise reached.attributed _
  | exiting payload place =>
      exact (agrees_evaluatePayload nested attributed serves fun node listed =>
        written.inner listed).bind fun _ _ reached _ => .raise reached.attributed _

end

end

end Action

/-- By induction on the depth: what a step calls or nests runs one level deeper. -/
theorem agrees_evaluate (elsewhere : Evaluator) (depth : Nat) :
    (evaluate depth).Agrees (evaluateWritten elsewhere depth) := by
  induction depth with
  | zero => exact fun _ _ _ => .halt _
  | succ depth ih =>
      intro world scope origin node attributed serves written
      have agrees := (Action.agrees_step ih attributed serves written).locate node.location
      have inside : world.frames.originOf scope = some node.location.origin :=
        serves.trans (congrArg some written.own.symm)
      have passed := Action.bind_of_value (rfl : Action.world world = .value world world) fun state =>
        if state.frames.originOf scope = some node.location.origin then Action.locate node.location
          (Action.stepWritten (evaluateWritten elsewhere depth) scope node)
        else elsewhere scope node
      rw [if_pos inside] at passed
      exact { agrees with same := passed.trans agrees.same }

namespace Session

open RipInterpreter.Action

theorem agrees_endModule {world : World} (attributed : world.Attributed)
    (completion : Completion Handle) :
    Agrees world (endModule completion) (endModule completion) fun _ _ => True := by
  unfold endModule
  split
  · exact .pure attributed trivial
  · exact .pure attributed trivial
  · exact .quiet attributed (objectsOnly_uncaught _ _) (alters_uncaught _ _)
  · exact .resume attributed _

/-- A module that was read from a text runs in a frame that serves the text. -/
theorem agrees_interpret (elsewhere : Evaluator) (depth : Nat) {world : World}
    (attributed : world.Attributed) {origin text : String} {module : Syntax.Module}
    (read : Module.ofText origin text = .ok module) :
    Agrees world (interpret depth module)
      (interpretBy (evaluateWritten elsewhere depth) module) fun _ _ => True := by
  obtain ⟨place, written⟩ := Module.from_of_text read
  exact (agrees_enterFrom attributed _ _).bind fun frame _ reached inside =>
    (Agrees.settle (agrees_run (agrees_evaluate elsewhere depth) reached.attributed
      (inside.trans (congrArg some place)) written)).bind fun completion _ ran _ =>
        agrees_endModule ran.attributed completion

/-- The states of a driver that runs modules read from texts, each in a frame of its own. -/
inductive ReachableFromTexts (loader : Loader) (searchPaths : List String) : World → Prop
  | fresh : ReachableFromTexts loader searchPaths (World.fresh loader searchPaths)
  | globalContext {world after : World} (reached : ReachableFromTexts loader searchPaths world)
    (left : (globalContext world).world? = some after) :
    ReachableFromTexts loader searchPaths after
  | interpret {world after : World} (reached : ReachableFromTexts loader searchPaths world)
    (depth : Nat) {origin text : String} {module : Syntax.Module}
    (read : Module.ofText origin text = .ok module)
    (left : (interpret depth module world).world? = some after) :
    ReachableFromTexts loader searchPaths after

/-- By induction on what the driver was asked to do. -/
theorem ReachableFromTexts.attributed {loader : Loader} {searchPaths : List String} {world : World}
    (reached : ReachableFromTexts loader searchPaths world) (faithful : loader.Faithful) :
    world.Attributed := by
  induction reached with
  | fresh => exact World.attributed_fresh faithful searchPaths
  | globalContext _ left ih =>
      cases left
      exact (continues_enter ih Kernel.globals.chain _).attributed
  | interpret _ depth read left ih =>
      exact ((agrees_interpret (evaluate 0) depth ih read).continues _ left).attributed

/-- On a driver that runs modules read from texts, with a loader that finds modules which stand in
the texts of their paths, every lambda was made in a scope that serves the text its body stands in.
A further run evaluates each node in a scope that serves the text the node stands in: it would be
the same if anything else happened elsewhere. And a call that requires a module searches first the
directory of the text that the call is written in, whatever module runs it. -/
theorem code_runs_in_its_text {loader : Loader} {searchPaths : List String} {world : World}
    (faithful : loader.Faithful) (reached : ReachableFromTexts loader searchPaths world) :
    world.Attributed ∧
    (∀ (elsewhere : Evaluator) (depth : Nat) (origin text : String) (module : Syntax.Module),
      Module.ofText origin text = .ok module →
      interpretBy (evaluateWritten elsewhere depth) module world = interpret depth module world) ∧
    ∀ (middle : World) (origin directory : String), Path.LeadsInto origin directory →
      middle.searchPathsOf origin = directory :: middle.searchPaths := by
  have attributed := reached.attributed faithful
  exact ⟨attributed, fun elsewhere depth origin text module read =>
      (agrees_interpret elsewhere depth attributed read).same,
    fun middle origin directory leads => World.searchPathsOf_of_leadsInto leads middle⟩

/-- The lambda of a module in another directory is called here. Its body runs in a frame that serves
the text of that module, and what it requires is found beside that text and not here. -/
theorem code_runs_in_its_text_across_directories :
    let look (path : String) : Look :=
      if path = "./lib/make.rip" then .file "-> () \x7b System.require('part') \x7d".toUTF8
      else if path = "./lib/part.rip" then .file "1".toUTF8
      else if path = "./part.rip" then .file "2".toUTF8
      else .notFile "No such file"
    let start := World.fresh (Loader.ofFiles look) []
    let text := "make = System.require('lib/make')\nmake()"
    let elsewhere : Evaluator := fun _ _ => Action.halt .tooDeep
    ∃ module handle world, Module.ofText "main.rip" text = .ok module ∧
      (interpretBy (evaluateWritten elsewhere 9) module start).result? = some handle ∧
      (interpretBy (evaluateWritten elsewhere 9) module start).world? = some world ∧
      world.heap.inspect handle = .ok "1" ∧
      start.searchPathsOf "./lib/make.rip" = ["./lib"] ∧ start.searchPathsOf "main.rip" = ["."] := by
  intro look start text elsewhere
  have checked : ((Module.ofText "main.rip" text).toOption.any
      fun module => (interpret 9 module start).result?.any fun handle =>
        (interpret 9 module start).world?.any fun world =>
          decide ((world.heap.inspect handle).toOption = some "1")) = true := by
    decide +kernel
  obtain ⟨module, found, met⟩ := (Option.any_eq_true _ _).mp checked
  obtain ⟨handle, result, met⟩ := (Option.any_eq_true _ _).mp met
  obtain ⟨world, left, met⟩ := (Option.any_eq_true _ _).mp met
  have read : Module.ofText "main.rip" text = .ok module := eq_ok_of_toOption found
  obtain ⟨-, runs, searches⟩ := code_runs_in_its_text (Loader.faithful_ofFiles look)
    (.fresh : ReachableFromTexts _ [] start)
  have same := runs elsewhere 9 "main.rip" text module read
  rw [← same] at result left
  refine ⟨module, handle, world, read, result, left, eq_ok_of_toOption (of_decide_eq_true met),
    searches start _ "./lib" ?_, searches start _ "." ?_⟩
  · have leads : Path.LeadsInto ("./lib" ++ Path.further [] ++ "/" ++ "make.rip" ++ Path.further [])
        "./lib" :=
      .directory (by decide) (by decide) (by decide) ⟨by decide, by decide, by decide⟩
        (List.forall_mem_nil _) (List.forall_mem_nil _)
    exact leads
  · have leads : Path.LeadsInto ("main.rip" ++ Path.further []) "." :=
      .working ⟨by decide, by decide, by decide⟩ (List.forall_mem_nil _)
    exact leads

end Session

end RipInterpreter
