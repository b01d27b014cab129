import RipInterpreter.Proofs.Evaluation.Alters
import RipInterpreter.Proofs.Machine.KernelMethods
import RipInterpreter.Syntax.Reading

namespace RipInterpreter

open Syntax

namespace Syntax.TextKind

/-- The class of the values that literals of the kind make. -/
def kernelClass : TextKind → KernelClass
  | .string => .string
  | .regularExpression => .regularExpression

/-- What the kernel has as `+` for texts of the kind. -/
def append : TextKind → Method
  | .string => .appendString
  | .regularExpression => .appendPattern

def payload : TextKind → String → Payload
  | .string => .string
  | .regularExpression => .regularExpression

def isOf : TextKind → Payload → Bool
  | .string, .string _ => true
  | .regularExpression, .regularExpression _ => true
  | _, _ => false

theorem isOf_iff {kind : TextKind} {payload : Payload} :
    kind.isOf payload = true ↔ ∃ text, payload = kind.payload text := by
  constructor
  · intro isText
    unfold isOf at isText
    split at isText
    · exact ⟨_, rfl⟩
    · exact ⟨_, rfl⟩
    · cases isText
  · rintro ⟨text, rfl⟩
    cases kind <;> rfl

end Syntax.TextKind

variable {kind : TextKind} {value result : Handle} {world after : World} {scope : Scope}

namespace Heap

variable {heap : Heap} {kernelClass : KernelClass} {key : String} {method : Method}

/-- Whether a look-up ends at a lambda with one parameter that runs a method of the kernel. -/
def comesTo (heap : Heap) (found : Except ReadFault (Option (Handle × Property))) (method : Method) :
    Bool :=
  match found with
  | .ok (some (_, .plain lambda)) =>
    match heap.get? lambda with
    | some ⟨_, .lambda ⟨_, [⟨[.binding _], .method native⟩], _⟩⟩ => native == method
    | _ => false
  | _ => false

/-- Whether a value has a method of the kernel under the name. -/
def finds (heap : Heap) (value : Handle) (key : String) (method : Method) : Bool :=
  heap.comesTo (heap.findProperty value key) method

/-- Whether the instances of a kernel class inherit a method of the kernel under the name. -/
def implements (heap : Heap) (kernelClass : KernelClass) (key : String) (method : Method) : Bool :=
  heap.comesTo (heap.ancestors kernelClass.handle >>= heap.findInherited key) method

/-- The value is a text of the kind. -/
def IsText (heap : Heap) (kind : TextKind) (value : Handle) : Prop :=
  ∃ object text, heap.get? value = some object ∧ object.payload = kind.payload text

theorem isText_iff {heap : Heap} {kind : TextKind} {value : Handle} : heap.IsText kind value ↔
    (heap.get? value).any (fun object => kind.isOf object.payload) = true := by
  rw [Option.any_eq_true]
  constructor
  · rintro ⟨object, text, held, shape⟩
    exact ⟨object, held, TextKind.isOf_iff.mpr ⟨text, shape⟩⟩
  · rintro ⟨object, held, isText⟩
    obtain ⟨text, shape⟩ := TextKind.isOf_iff.mp isText
    exact ⟨object, text, held, shape⟩

instance (heap : Heap) (kind : TextKind) (value : Handle) : Decidable (heap.IsText kind value) :=
  decidable_of_iff _ isText_iff.symm

theorem comesTo_iff {found : Except ReadFault (Option (Handle × Property))} :
    heap.comesTo found method = true ↔ ∃ owner lambda object closure parameter receiver,
      found = .ok (some (owner, .plain lambda)) ∧ heap.get? lambda = some object ∧
      object.payload = .lambda ⟨closure, [⟨[.binding parameter], .method method⟩], receiver⟩ := by
  constructor
  · intro comes
    unfold comesTo at comes
    split at comes
    case h_2 => cases comes
    case h_1 owner lambda =>
      split at comes
      case h_2 => cases comes
      case h_1 properties closure parameter native receiver held =>
        exact ⟨owner, lambda, _, closure, parameter, receiver, rfl, held, by rw [eq_of_beq comes]⟩
  · rintro ⟨owner, lambda, ⟨properties, payload⟩, closure, parameter, receiver, rfl, held, rfl⟩
    simp only [comesTo, held, beq_self_eq_true]

/-- An instance has what its class provides, unless it has something of its own. -/
theorem finds_of_implements {payload : Payload} (named : key ∈ Kernel.methodNames)
    (implemented : heap.implements kernelClass key method = true)
    (instanceOf : heap.IsInstance value kernelClass payload) :
    heap.finds value key method = true := by
  obtain ⟨object, found, -, ofClass, plain⟩ := instanceOf
  have same : heap.findProperty value key =
      heap.ancestors kernelClass.handle >>= heap.findInherited key := by
    unfold findProperty
    rw [read_eq_ok found]
    simp only [bind, Except.bind, plain key named, ofClass]
  rw [finds, same]
  exact implemented

theorem implements_add (implemented : heap.implements kernelClass key method = true)
    (object : Object) : (heap.add object).2.implements kernelClass key method = true := by
  have kept (handle : Handle) (stored : Object) (read : heap.read handle = .ok stored) :
      (heap.add object).2.read handle = .ok stored :=
    read_eq_ok (get?_add_of_held (get?_of_read read))
  obtain ⟨owner, lambda, native, closure, parameter, receiver, inherited, held, shape⟩ :=
    comesTo_iff.mp implemented
  refine comesTo_iff.mpr ⟨owner, lambda, native, closure, parameter, receiver, ?_,
    get?_add_of_held held, shape⟩
  cases line : heap.ancestors kernelClass.handle with
  | error fault =>
      rw [line] at inherited
      cases inherited
  | ok ancestors =>
      rw [line] at inherited
      have same : (heap.add object).2.ancestors kernelClass.handle = .ok ancestors := by
        unfold Heap.ancestors at line ⊢
        cases read : heap.read kernelClass.handle with
        | error fault =>
            rw [read] at line
            cases line
        | ok stored =>
            rw [read] at line
            rw [kept _ _ read]
            exact line
      rw [same]
      exact findInherited_of_kept
        (fun handle stored read => ⟨stored, kept handle stored read, rfl, rfl⟩) inherited

theorem IsInstance.isText {text : String}
    (made : heap.IsInstance value kind.kernelClass (kind.payload text)) :
    heap.IsText kind value := by
  obtain ⟨object, found, shape, -⟩ := made
  exact ⟨object, text, found, shape⟩

end Heap

namespace Action

/-- What the kernel appends to a text is a new text of the same kind. -/
theorem isInstance_of_append {evaluator : Evaluator} {call : Call}
    (ended : runMethod evaluator kind.append call world = .value result after) :
    ∃ text, after.heap.IsInstance result kind.kernelClass (kind.payload text) := by
  cases kind with
  | string =>
      obtain ⟨receiver, _, -, ended⟩ := value_of_bind ended
      obtain ⟨text, _, -, ended⟩ := value_of_bind ended
      obtain ⟨argument, _, -, ended⟩ := value_of_bind ended
      obtain ⟨more, _, -, ended⟩ := value_of_bind ended
      exact ⟨_, isInstance_of_newInstance ended⟩
  | regularExpression =>
      obtain ⟨receiver, _, -, ended⟩ := value_of_bind ended
      obtain ⟨pattern, _, -, ended⟩ := value_of_bind ended
      obtain ⟨argument, _, -, ended⟩ := value_of_bind ended
      obtain ⟨found, _, -, ended⟩ := value_of_bind ended
      cases found with
      | regularExpression more => exact ⟨_, isInstance_of_newInstance ended⟩
      | _ =>
          obtain ⟨more, _, -, ended⟩ := value_of_bind ended
          exact ⟨_, isInstance_of_newInstance ended⟩

/-- Reading a method of the kernel makes a lambda that is tied to the value. -/
theorem get_of_finds {key : String} {method : Method}
    (finds : world.heap.finds value key method = true) : ∃ closure parameter,
      get value key world = newInstance .lambda (.lambda
        ⟨closure, [⟨[.binding parameter], .method method⟩], some value⟩) world := by
  obtain ⟨owner, lambda, object, closure, parameter, receiver, found, held, shape⟩ :=
    Heap.comesTo_iff.mp finds
  refine ⟨closure, parameter, ?_⟩
  rw [get, bind_of_value (ask_of_ok found)]
  change tie lambda value world = _
  rw [tie, bind_of_value (payload_of_read (Heap.read_eq_ok held)), shape]

end Action

open RipInterpreter.Action

theorem Payload.Becomes.lambda_eq {callable : Callable} {later : Payload}
    (becomes : (Payload.lambda callable).Becomes later) : later = .lambda callable := by
  cases becomes
  rfl

/-- What an operator call ends with: the operand in front comes first, and if that has a method of the
kernel under the name of the operator, the method gives the value of the call. -/
theorem evaluate_operatorCall {depth : Nat} {receiver argument : Node} {operator : String}
    {place : Location}
    (ended : evaluate depth scope (operatorCall receiver operator place argument) world =
      .value result after) :
    ∃ depth value middle, evaluate depth scope receiver world = .value value middle ∧
      ∀ method, middle.heap.finds value operator method = true → ∃ depth call state,
        runMethod (evaluate depth) method call state = .value result after := by
  match depth with
  | 0 => cases ended
  | 1 =>
      obtain ⟨callable, _, read, -⟩ := value_of_bind (value_of_locate ended)
      cases read
  | depth + 2 =>
      obtain ⟨callable, made, read, ended⟩ := value_of_bind (value_of_locate ended)
      obtain ⟨value, middle, ran, read⟩ := value_of_bind (value_of_locate read)
      refine ⟨depth, value, middle, ran, fun method finds => ?_⟩
      obtain ⟨closure, parameter, got⟩ := get_of_finds finds
      rw [got, newInstance_apply] at read
      cases read
      obtain ⟨arguments, state, evaluated, called⟩ := value_of_bind ended
      obtain ⟨given, _, last, rest⟩ := value_of_bind
        ((congrFun (List.mapM_cons ..) _).symm.trans evaluated)
      cases rest
      -- The lambda that was read is still there when the argument has its value.
      have grows := (alters_evaluate (depth + 1) scope argument _ state (by rw [last]; rfl)).grows
      obtain ⟨object, kept, becomes⟩ := grows middle.heap.next _
        (by rw [Heap.get?_add, if_pos rfl])
      have shape := becomes.lambda_eq
      rw [call, bind_of_value (payload_of_read (Heap.read_eq_ok kept)), shape] at called
      exact ⟨depth + 1, _, state, called⟩

/-- Whenever the node ends with a value, the value is a text of the kind made by the kernel. -/
def Syntax.Node.MakesText (kind : TextKind) (scope : Scope) (world : World) (node : Node) : Prop :=
  ∀ depth value middle, evaluate depth scope node world = .value value middle →
    ∃ text, middle.heap.IsInstance value kind.kernelClass (kind.payload text)

/-- Whenever the node ends with a value, the kernel's way to append to it is found there. -/
def Syntax.Node.TakesMore (kind : TextKind) (scope : Scope) (world : World) (node : Node) : Prop :=
  ∀ depth value middle, evaluate depth scope node world = .value value middle →
    middle.heap.finds value "+" kind.append = true

/-- Whenever the node ends with a value, texts of the kind take `+` from the kernel. -/
def Syntax.Node.LeavesAppend (kind : TextKind) (scope : Scope) (world : World) (node : Node) : Prop :=
  ∀ depth value middle, evaluate depth scope node world = .value value middle →
    middle.heap.implements kind.kernelClass "+" kind.append = true

namespace Syntax.Node

variable {place : Location} {joined : Node}

theorem TakesMore.makesText (takes : joined.TakesMore kind scope world) (plus : Location)
    (argument : Node) : (operatorCall joined "+" plus argument).MakesText kind scope world := by
  intro depth value middle ended
  obtain ⟨_, first, between, ran, appended⟩ := evaluate_operatorCall ended
  obtain ⟨_, call, state, appended⟩ := appended kind.append (takes _ first between ran)
  exact isInstance_of_append appended

theorem MakesText.takesMore (makes : joined.MakesText kind scope world)
    (leaves : joined.LeavesAppend kind scope world) : joined.TakesMore kind scope world := by
  intro depth value middle ended
  obtain ⟨text, made⟩ := makes depth value middle ended
  exact Heap.finds_of_implements (by decide +kernel) (leaves depth value middle ended) made

end Syntax.Node

/-- Appending fragments to what takes more makes a text. By induction on the fragments: each call
makes a text, which takes more as long as nothing has changed that. -/
theorem makesText_appendFragments {place : Location} {fragment : Fragment} {rest : List Fragment}
    {joined : Node} {closing : Option Location} (takes : joined.TakesMore kind scope world)
    (leaves : ∀ front behind, rest = front ++ behind → behind ≠ [] →
      (appendFragments kind place joined closing (fragment :: front)).LeavesAppend kind scope
        world) :
    (appendFragments kind place joined closing (fragment :: rest)).MakesText kind scope world := by
  induction rest generalizing fragment joined closing with
  | nil => cases fragment <;> exact takes.makesText _ _
  | cons next rest ih =>
      have first := leaves [] (next :: rest) rfl (List.cons_ne_nil _ _)
      cases fragment with
      | literal glyphs =>
          refine ih ((takes.makesText _ _).takesMore first) fun front behind split more => ?_
          exact leaves (next :: front) behind (by rw [split]; rfl) more
      | interpolated body location ending =>
          refine ih ((takes.makesText _ _).takesMore first) fun front behind split more => ?_
          exact leaves (next :: front) behind (by rw [split]; rfl) more

/-- A literal without interpolations adds one object. -/
theorem evaluate_literal {depth : Nat} {glyphs : List Glyph} {place : Location}
    (ended : evaluate depth scope (kind.literal glyphs place) world = .value result after) :
    newInstance kind.kernelClass (kind.payload (spell glyphs)) world = .value result after := by
  cases depth with
  | zero => cases ended
  | succ depth =>
      have ran := value_of_locate ended
      cases kind <;> exact ran

theorem makesText_literal (glyphs : List Glyph) (place : Location) :
    (kind.literal glyphs place).MakesText kind scope world :=
  fun _ _ _ ended => ⟨_, isInstance_of_newInstance (evaluate_literal ended)⟩

theorem leavesAppend_literal (unmodified : world.heap.implements kind.kernelClass "+" kind.append = true)
    (glyphs : List Glyph) (place : Location) :
    (kind.literal glyphs place).LeavesAppend kind scope world := by
  intro depth value middle ended
  have made := evaluate_literal ended
  rw [newInstance_apply] at made
  cases made
  exact Heap.implements_add unmodified _

/-- The first of the fragments is an interpolation. -/
def Syntax.Fragment.IsInterpolated : Fragment → Prop
  | .literal _ => False
  | .interpolated _ _ _ => True

/-- What the kernel has as `+` is still there whenever a further fragment is to be appended. -/
def LeavesAppendBetween (kind : TextKind) (place : Location) (fragments : List Fragment)
    (scope : Scope) (world : World) : Prop :=
  ∀ front behind, fragments = front ++ behind → front ≠ [] → behind ≠ [] →
    (joinFragments kind place front).LeavesAppend kind scope world

section

variable {place : Location} {fragments : List Fragment}
  (unmodified : world.heap.implements kind.kernelClass "+" kind.append = true)
include unmodified

/-- What begins with characters, if only with none, is a text from there on. -/
theorem makesText_joinFragments (leaves : LeavesAppendBetween kind place fragments scope world)
    (begins : kind = .regularExpression ∨ ∀ first ∈ fragments.head?, ¬ first.IsInterpolated) :
    (joinFragments kind place fragments).MakesText kind scope world := by
  match fragments, kind with
  | [], kind => exact makesText_literal [] place
  | [.literal glyphs], kind => exact makesText_literal glyphs _
  | .literal glyphs :: next :: rest, kind =>
      refine makesText_appendFragments ((makesText_literal glyphs _).takesMore
        (leavesAppend_literal unmodified glyphs _)) fun front behind split more => ?_
      exact leaves (.literal glyphs :: next :: front) behind (by rw [split]; rfl)
        (List.cons_ne_nil _ _) more
  | .interpolated body location closing :: rest, .regularExpression =>
      refine makesText_appendFragments ((makesText_literal [] _).takesMore
        (leavesAppend_literal unmodified [] _)) fun front behind split more => ?_
      exact leaves (.interpolated body location closing :: front) behind (by rw [split]; rfl)
        (List.cons_ne_nil _ _) more
  | .interpolated body location closing :: rest, .string =>
      rcases begins with other | characters
      · cases other
      · exact absurd trivial (characters _ rfl)

end

/-- An interpolation ends with what `to_string` of its value answers. -/
theorem value_of_interpolation {depth : Nat} {body : List Node} {location : Location}
    (ended : evaluate depth scope (.interpolation body location) world = .value result after) :
    ∃ depth last between,
      (enter scope >>= fun inner => run (evaluate depth) inner body) world = .value last between ∧
      send (evaluate depth) last "to_string" [] scope between = .value result after := by
  cases depth with
  | zero => cases ended
  | succ depth =>
      obtain ⟨inner, opened, entered, ran⟩ := value_of_bind (value_of_locate ended)
      obtain ⟨last, between, ran, sent⟩ := value_of_bind ran
      exact ⟨depth, last, between, (bind_of_value entered _).trans ran, sent⟩

namespace Syntax.Fragment

variable {pieces : List Piece}

theorem gather_eq_nil : gather pieces = [] ↔ pieces = [] := by
  refine ⟨fun gathered => ?_, fun none => by rw [none]; rfl⟩
  cases pieces with
  | nil => rfl
  | cons piece rest =>
      cases piece with
      | glyph glyph =>
          rw [gather] at gathered
          split at gathered <;> cases gathered
      | interpolated body location closing => cases gathered

/-- What begins with a character is gathered to what begins with a run of them. -/
theorem not_isInterpolated_of_gather
    (begins : ∀ body location closing rest, pieces ≠ .interpolated body location closing :: rest) :
    ∀ first ∈ (gather pieces).head?, ¬ first.IsInterpolated := by
  intro first listed
  cases pieces with
  | nil => cases listed
  | cons piece rest =>
      cases piece with
      | glyph glyph =>
          rw [gather] at listed
          split at listed <;> cases listed <;> exact id
      | interpolated body location closing => exact absurd rfl (begins body location closing rest)

end Syntax.Fragment

/-- The pieces of a literal are gathered into fragments, which are joined by calls of `+`. Where texts
of its kind take `+` from the kernel, and still do whenever a further fragment is to be appended,
a literal that does not begin with an interpolation, and any regular expression, is a text of its
kind, if it ends with a value. A string that begins with an interpolation is what `to_string` answered
if nothing follows, and a string if the answer has the `+` of the kernel. -/
theorem interpolated_texts_keep_kind {kind : TextKind} {tree : Concrete.Tree}
    {parts : List Syntax.Reading} {pieces : List (List Piece)}
    (read : parts.mapM (fun part => Syntax.Reading.pieces kind part.tree part.parts) = .ok pieces) :
    ∃ node, Syntax.Reading.text kind tree parts = .ok node ∧ ∀ scope world,
      world.heap.implements kind.kernelClass "+" kind.append = true →
      LeavesAppendBetween kind tree.location (Fragment.gather pieces.flatten) scope world →
      ∀ depth result after, evaluate depth scope node world = .value result after →
      (kind = .regularExpression ∨ (∀ body location closing rest,
          pieces.flatten ≠ .interpolated body location closing :: rest) →
        after.heap.IsText kind result) ∧
      ∀ body location closing rest, kind = .string →
        pieces.flatten = .interpolated body location closing :: rest →
        (rest = [] → ∃ depth last between,
          (enter scope >>= fun inner => run (evaluate depth) inner body) world =
            .value last between ∧
          send (evaluate depth) last "to_string" [] scope between = .value result after) ∧
        (rest ≠ [] → (Node.interpolation body location).TakesMore .string scope world →
          after.heap.IsText .string result) := by
  refine ⟨joinFragments kind tree.location (Fragment.gather pieces.flatten),
    by rw [Syntax.Reading.text, read]; rfl, ?_⟩
  intro scope world unmodified leaves depth result after ended
  generalize pieces.flatten = pieces at leaves ended ⊢
  constructor
  · intro begins
    obtain ⟨text, made⟩ := makesText_joinFragments unmodified leaves
      (begins.imp_right Fragment.not_isInterpolated_of_gather) _ _ _ ended
    exact made.isText
  · rintro body location closing rest rfl rfl
    have begins : Fragment.gather (.interpolated body location closing :: rest) =
        .interpolated body location closing :: Fragment.gather rest := rfl
    rw [begins] at leaves ended
    refine ⟨?_, fun more takes => ?_⟩
    · rintro rfl
      exact value_of_interpolation ended
    · obtain ⟨next, others, gathered⟩ :=
        List.exists_cons_of_ne_nil (mt Fragment.gather_eq_nil.mp more)
      rw [gathered] at leaves ended
      obtain ⟨text, made⟩ := makesText_appendFragments takes (fun front behind split more =>
        leaves (.interpolated body location closing :: next :: front) behind (by rw [split]; rfl)
          (List.cons_ne_nil _ _) more) _ _ _ ended
      exact made.isText

/-- The string `"a#{nil}"` on a new machine. -/
theorem interpolated_texts_keep_kind_of_nil :
    let start := World.fresh ⟨fun _ name paths => .refused (.missingModule name paths)⟩ []
    let place := Location.start "text"
    let leaf (label text : String) : Concrete.Tree := ⟨label, place, some text, []⟩
    let parts := Syntax.Reading.ofTrees [leaf "character" "a",
      ⟨"interpolation", place, none, [leaf "reference" "nil", leaf "interpolation_end" "\x7d"]⟩]
    ∃ node result after, Syntax.Reading.text .string (leaf "string" "") parts = .ok node ∧
      evaluate 5 Kernel.globals node start = .value result after ∧
      after.heap.IsText .string result := by
  intro start place leaf parts
  have read : parts.mapM (fun part => Syntax.Reading.pieces .string part.tree part.parts) =
      .ok [[.glyph ⟨'a', place⟩], [.interpolated [.reference ⟨"nil", place⟩] place place]] := by
    simp [parts, leaf, Reading.ofTrees, Reading.ofTree, Reading.pieces, Reading.glyph,
      Concrete.Tree.content]
    rfl
  obtain ⟨node, same, texts⟩ := @interpolated_texts_keep_kind .string (leaf "string" "") _ _ read
  have shape : node = joinFragments .string place
      [.literal [⟨'a', place⟩], .interpolated [.reference ⟨"nil", place⟩] place place] := by
    rw [Syntax.Reading.text, read] at same
    exact (Except.ok.inj same).symm
  have checked : ((evaluate 5 Kernel.globals (joinFragments .string place [.literal [⟨'a', place⟩],
      .interpolated [.reference ⟨"nil", place⟩] place place]) start).endsIn fun _ _ => true) = true := by
    decide +kernel
  obtain ⟨result, after, ended, -⟩ := Outcome.value_of_endsIn checked
  rw [← shape] at ended
  have unmodified : start.heap.implements .string "+" .appendString = true := by decide +kernel
  have leaves : LeavesAppendBetween .string place [.literal [⟨'a', place⟩],
      .interpolated [.reference ⟨"nil", place⟩] place place] Kernel.globals start := by
    intro front behind split begun left
    -- Only the character can stand in front of something else.
    rcases front with - | ⟨first, - | ⟨second, rest⟩⟩
    · exact absurd rfl begun
    · simp only [List.singleton_append, List.cons.injEq] at split
      obtain ⟨rfl, -⟩ := split
      exact leavesAppend_literal unmodified _ _
    · simp only [List.cons_append, List.cons.injEq, List.nil_eq, List.append_eq_nil_iff] at split
      exact absurd split.2.2.2 left
  refine ⟨node, result, after, same, ended, ?_⟩
  exact (texts _ start unmodified leaves _ _ _ ended).1 (.inr fun _ _ _ _ => nofun)

/-- The literals need not keep to their kind. After `A = class { @.to_string = -> () { 3 } }` the
string `"#{A.new()}"` is the integer, and the string `"a#{System.String.@.+ = -> (x) { 3 }}b"` is one,
too: it replaces the `+` of the kernel on the way. -/
theorem interpolated_texts_of_integers :
    let start := World.fresh ⟨fun _ name paths => .refused (.missingModule name paths)⟩ []
    let place := Location.start "text"
    let reference (name : String) : Node := .reference ⟨name, place⟩
    let three (parameters : List Node) : Node :=
      .lambda ⟨.arrow, parameters, ⟨[.integer "3" place], place⟩, place⟩
    let property (object : Node) (key : String) : Node := .property object key place
    let definition : Node := .assignment (reference "A") (.classDefinition []
      ⟨[.assignment (property (reference "@") "to_string") (three []) place], place⟩ place) place
    let ofClass : Fragment :=
      .interpolated [.invocation (property (reference "A") "new") [] place] place place
    let replacing : Fragment := .interpolated [.assignment
      (property (property (property (reference "System") "String") "@") "+")
      (three [reference "x"]) place] place place
    ∃ world first middle second after,
      (evaluate 6 Kernel.globals definition start).world? = some world ∧
      (∀ kind : TextKind, start.heap.implements kind.kernelClass "+" kind.append = true ∧
        world.heap.implements kind.kernelClass "+" kind.append = true) ∧
      evaluate 6 Kernel.globals (joinFragments .string place [ofClass]) world =
        .value first middle ∧ ¬ middle.heap.IsText .string first ∧
      evaluate 12 Kernel.globals (joinFragments .string place
        [.literal [⟨'a', place⟩], replacing, .literal [⟨'b', place⟩]]) start =
        .value second after ∧ ¬ after.heap.IsText .string second := by
  intro start place reference three property definition ofClass replacing
  let noText (value : Handle) (world : World) : Bool := decide (¬ world.heap.IsText .string value)
  have answered : ((evaluate 6 Kernel.globals definition start).world?.any fun world =>
      decide (∀ kind ∈ [TextKind.string, .regularExpression],
        start.heap.implements kind.kernelClass "+" kind.append = true ∧
        world.heap.implements kind.kernelClass "+" kind.append = true) &&
      (evaluate 6 Kernel.globals (joinFragments .string place [ofClass]) world).endsIn
        noText) = true := by
    decide +kernel
  have replaced : (evaluate 12 Kernel.globals (joinFragments .string place
      [.literal [⟨'a', place⟩], replacing, .literal [⟨'b', place⟩]]) start).endsIn noText =
        true := by
    decide +kernel
  obtain ⟨world, ran, met⟩ := (Option.any_eq_true _ _).mp answered
  obtain ⟨unmodified, met⟩ := Bool.and_eq_true_iff.mp met
  obtain ⟨first, middle, ended, integer⟩ := Outcome.value_of_endsIn met
  obtain ⟨second, after, joined, other⟩ := Outcome.value_of_endsIn replaced
  refine ⟨world, first, middle, second, after, ran, fun kind => ?_, ended,
    of_decide_eq_true integer, joined, of_decide_eq_true other⟩
  exact of_decide_eq_true unmodified kind (by cases kind <;> decide)

end RipInterpreter
