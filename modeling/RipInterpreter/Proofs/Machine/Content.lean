import Mathlib.Data.List.Forall2
import RipInterpreter.Proofs.Machine.StableEquality

/-!
The content of values. It is a tree: what a value shows by itself, and the content of the values
inside it. Without decimals in them, two values are equal exactly if their trees are the same, so
that one may stand for the other wherever values are compared.
-/

namespace RipInterpreter

/-- What a value shows without the values inside it. Plain objects, lambdas and classes show nothing
but which one they are. -/
inductive Label where
  | nil
  | boolean (value : Bool)
  | integer (value : Int)
  | decimal (value : Float)
  | character (value : Char)
  | string (value : String)
  | regularExpression (pattern : String)
  | list
  | map
  | keyValue
  | range (exclusive : Bool)
  | itself (handle : Handle)

/-- A label with the trees inside. -/
inductive Content where
  | node (label : Label) (inside : List Content)

def Payload.label (self : Handle) : Payload → Label
  | .nil => .nil
  | .boolean value => .boolean value
  | .integer value => .integer value
  | .decimal value => .decimal value
  | .character value => .character value
  | .string value => .string value
  | .regularExpression pattern => .regularExpression pattern
  | .list _ => .list
  | .map _ => .map
  | .keyValue _ _ => .keyValue
  | .range _ _ exclusive => .range exclusive
  | .plain | .lambda _ | .classObject _ _ => .itself self

def Label.Exact : Label → Prop
  | .decimal _ => False
  | _ => True

/-- Labels of equal values are the same, but for decimals, which need not equal themselves and may
equal integers. -/
def Label.Agrees : Label → Label → Prop
  | .decimal left, .decimal right => (left == right) = true
  | .integer left, .decimal right => (Float.ofInt left == right) = true
  | .decimal left, .integer right => (left == Float.ofInt right) = true
  | left, right => left = right

theorem Label.Exact.agrees_iff {left right : Label} (exact : left.Exact) (exact₁ : right.Exact) :
    left.Agrees right ↔ left = right := by
  unfold Agrees
  split
  case h_1 | h_3 => exact exact.elim
  case h_2 => exact exact₁.elim
  case h_4 => exact Iff.rfl

theorem forall₂_iff_map_eq {α β : Type} {related : α → α → Prop} {look : α → β}
    {items others : List α} (each : ∀ item ∈ items, ∀ other ∈ others,
      related item other ↔ look item = look other) :
    List.Forall₂ related items others ↔ items.map look = others.map look := by
  induction items generalizing others with
  | nil => cases others <;> simp
  | cons item items ih =>
      cases others with
      | nil => simp
      | cons other others =>
          have rest := ih fun item inside other inside₁ => each
            item (List.mem_cons_of_mem _ inside) other (List.mem_cons_of_mem _ inside₁)
          rw [List.forall₂_cons, List.map_cons, List.map_cons, List.cons.injEq, rest,
            each item List.mem_cons_self other List.mem_cons_self]

/-- Two lists are related place by place also after the second is replaced by one that looks alike. -/
theorem forall₂_of_map_eq {α β γ : Type} {related : α → β → Prop} {look : β → γ} {items : List α}
    {others others₁ : List β} (each : List.Forall₂ related items others)
    (alike : others.map look = others₁.map look)
    (carry : ∀ item, ∀ other ∈ others, ∀ other₁ ∈ others₁, item ∈ items →
      look other = look other₁ → related item other → related item other₁) :
    List.Forall₂ related items others₁ := by
  induction each generalizing others₁ with
  | nil =>
      cases List.map_eq_nil_iff.mp alike.symm
      exact .nil
  | cons head tail ih =>
      cases others₁ with
      | nil => cases alike
      | cons other₁ others₁ =>
          obtain ⟨first, rest⟩ := List.cons.inj alike
          exact .cons
            (carry _ _ List.mem_cons_self _ List.mem_cons_self List.mem_cons_self first head)
            (ih rest fun item other inside other₁ inside₁ mine => carry item
              other (List.mem_cons_of_mem _ inside) other₁ (List.mem_cons_of_mem _ inside₁)
              (List.mem_cons_of_mem _ mine))

namespace Heap

variable {heap : Heap} {left right value other third : Handle} {object object₁ : Object}

/-- So many levels of what is inside a value. -/
def contentWithin (heap : Heap) : (levels : Nat) → Handle → Content
  | 0, value => .node (.itself value) []
  | levels + 1, value =>
    match heap.get? value with
    | some object => .node (object.payload.label value)
        (object.payload.contents.map (heap.contentWithin levels))
    | none => .node (.itself value) []

def content (heap : Heap) (value : Handle) : Content := heap.contentWithin heap.depth value

/-- There is no decimal inside the value, and it is none itself. -/
inductive Exact (heap : Heap) : Handle → Prop
  | intro {value : Handle} {object : Object} (found : heap.get? value = some object)
      (label : (object.payload.label value).Exact)
      (inside : ∀ item ∈ object.payload.contents, heap.Exact item) : Exact heap value

theorem Exact.holds (exact : heap.Exact value) : heap.Holds value := by
  obtain ⟨found, -, -⟩ := exact
  exact ⟨_, found⟩

theorem contentWithin_levels (closed : heap.Closed) {levels levels₁ : Nat}
    (deep : value.index < levels) (deep₁ : value.index < levels₁) :
    heap.contentWithin levels₁ value = heap.contentWithin levels value := by
  induction levels generalizing levels₁ value with
  | zero => omega
  | succ levels ih =>
      obtain ⟨levels₁, rfl⟩ : ∃ fewer, levels₁ = fewer + 1 := ⟨levels₁ - 1, by omega⟩
      unfold contentWithin
      cases found : heap.get? value with
      | none => rfl
      | some object =>
          refine congrArg (Content.node _) (List.map_congr_left fun item inside => ?_)
          have older := (closed.objects value object found).older item inside
          exact ih (by omega) (by omega)

theorem content_eq (closed : heap.Closed) (found : heap.get? value = some object) :
    heap.content value =
      .node (object.payload.label value) (object.payload.contents.map heap.content) := by
  have held : value.index < heap.objects.size := holds_iff.mp ⟨object, found⟩
  rw [content, depth, contentWithin, found]
  refine congrArg (Content.node _) (List.map_congr_left fun item inside => ?_)
  have older := (closed.objects value object found).older item inside
  exact contentWithin_levels closed (Nat.lt_succ_of_lt (Nat.lt_trans older held))
    (Nat.lt_trans older held)

theorem allPairs_eq_true_iff {ε : Type} {question : Handle → Handle → Except ε Bool}
    {lefts rights : List Handle} :
    allPairs question lefts rights = .ok true ↔
      List.Forall₂ (fun left right => question left right = .ok true) lefts rights := by
  induction lefts generalizing rights with
  | nil => cases rights <;> simp [allPairs]
  | cons left lefts ih =>
      cases rights with
      | nil => simp [allPairs]
      | cons right rights =>
          rw [List.forall₂_cons, ← ih, allPairs]
          cases question left right with
          | error fault => simp [bind, Except.bind]
          | ok same => cases same <;> simp [bind, Except.bind, pure, Except.pure]

/-- The values inside are compared place by place. -/
theorem equalPayloads_eq_true_iff {ε : Type} {equal : Handle → Handle → Except ε Bool}
    {first second : Payload} (apart : left ≠ right) :
    equalPayloads equal first second = .ok true ↔
      (first.label left).Agrees (second.label right) ∧
        List.Forall₂ (fun left right => equal left right = .ok true)
          first.contents second.contents := by
  have pairwise (lefts rights : List Handle) :
      (if lefts.length = rights.length then allPairs equal lefts rights else .ok false) = .ok true ↔
        List.Forall₂ (fun left right => equal left right = .ok true) lefts rights := by
    split
    · exact allPairs_eq_true_iff
    · exact iff_of_false nofun fun each => absurd each.length_eq ‹_›
  have both (key value key₁ value₁ : Handle) :
      (do if ← equal key key₁ then equal value value₁ else return false) = .ok true ↔
        List.Forall₂ (fun left right => equal left right = .ok true) [key, value] [key₁, value₁] := by
    cases compared : equal key key₁ with
    | error fault => simp [compared, bind, Except.bind]
    | ok same => cases same <;> simp [compared, bind, Except.bind, pure, Except.pure]
  -- Only collections of one kind look at what is inside; their labels decide about all others.
  cases first <;> cases second
  case list.list items others => exact (pairwise items others).trans (and_iff_right rfl).symm
  case map.map pairs others => exact (pairwise pairs others).trans (and_iff_right rfl).symm
  case keyValue.keyValue key value key₁ value₁ =>
      exact (both key value key₁ value₁).trans (and_iff_right rfl).symm
  case range.range start last exclusive start₁ last₁ exclusive₁ =>
      by_cases shape : exclusive = exclusive₁
      · subst shape
        simp only [equalPayloads, bne_self_eq_false, Bool.false_eq_true, if_false]
        exact (both start last start₁ last₁).trans (and_iff_right rfl).symm
      · simp [equalPayloads, Payload.label, Label.Agrees, shape, pure, Except.pure]
  all_goals simp [equalPayloads, Payload.label, Label.Agrees, Payload.contents, apart]

/-- Other values than one and the same are equal if they show equal labels and if the values inside
them are equal. -/
theorem Closed.equal_iff (closed : heap.Closed) (found : heap.get? left = some object)
    (found₁ : heap.get? right = some object₁) :
    heap.equal left right = .ok true ↔ left = right ∨
      (object.payload.label left).Agrees (object₁.payload.label right) ∧
        List.Forall₂ (fun left right => heap.equal left right = .ok true)
          object.payload.contents object₁.payload.contents := by
  rw [equal_payloads found found₁]
  by_cases same : left = right
  · simp [same]
  · have alone : equalPayloads heap.equal object.payload object₁.payload =
        equalPayloads (heap.equalWithin heap.objects.size) object.payload object₁.payload :=
      equalPayloads_congr fun item inside item₁ inside₁ => by
        obtain ⟨same, within, alone⟩ := closed.compares found found₁ inside inside₁
        exact alone.trans within.symm
    rw [if_neg same, ← alone, equalPayloads_eq_true_iff same, or_iff_right same]

/-- By induction on what is inside the left value. -/
theorem Exact.equal_iff_content (closed : heap.Closed) (exact : heap.Exact left)
    (exact₁ : heap.Exact right) :
    heap.equal left right = .ok true ↔ heap.content left = heap.content right := by
  induction exact generalizing right with
  | @intro left object found label inside ih =>
      obtain @⟨_, object₁, found₁, label₁, inside₁⟩ := exact₁
      have each : List.Forall₂ (fun left right => heap.equal left right = .ok true)
            object.payload.contents object₁.payload.contents ↔
          object.payload.contents.map heap.content = object₁.payload.contents.map heap.content :=
        forall₂_iff_map_eq fun item within item₁ within₁ => ih item within (inside₁ item₁ within₁)
      rw [closed.equal_iff found found₁, label.agrees_iff label₁, each]
      constructor
      · rintro (rfl | ⟨labels, items⟩)
        · rfl
        · rw [content_eq closed found, content_eq closed found₁, labels, items]
      · intro same
        rw [content_eq closed found, content_eq closed found₁] at same
        exact .inr (Content.node.inj same)

/-- What equals a value, or is equalled by it, does so with any value of the same content: by
induction on what is inside the value. The third value may well have decimals inside. -/
theorem Exact.equal_of_content_eq (closed : heap.Closed) (exact : heap.Exact value)
    (exact₁ : heap.Exact other) (same : heap.content value = heap.content other)
    (held : heap.Holds third) :
    (heap.equal third value = .ok true → heap.equal third other = .ok true) ∧
      (heap.equal value third = .ok true → heap.equal other third = .ok true) := by
  -- The third value may be one of the two itself, which is then compared with the other one.
  have equal := (exact.equal_iff_content closed exact₁).mpr same
  have equal₁ := (exact₁.equal_iff_content closed exact).mpr same.symm
  induction exact generalizing other third with
  | @intro value object found label inside ih =>
      obtain @⟨_, object₁, found₁, label₁, inside₁⟩ := exact₁
      obtain ⟨object₂, found₂⟩ := held
      rw [content_eq closed found, content_eq closed found₁] at same
      obtain ⟨labels, items⟩ := Content.node.inj same
      have carry (item₂) (within₂ : item₂ ∈ object₂.payload.contents)
          (item) (within : item ∈ object.payload.contents)
          (item₁) (within₁ : item₁ ∈ object₁.payload.contents)
          (alike : heap.content item = heap.content item₁) :=
        ih item within (inside₁ item₁ within₁) alike
          ((closed.objects third object₂ found₂).contents within₂).1
          (((inside item within).equal_iff_content closed (inside₁ item₁ within₁)).mpr alike)
          (((inside₁ item₁ within₁).equal_iff_content closed (inside item within)).mpr alike.symm)
      constructor <;> intro compared
      · rcases (closed.equal_iff found₂ found).mp compared with rfl | ⟨agree, each⟩
        · exact equal
        · refine (closed.equal_iff found₂ found₁).mpr (.inr ⟨labels ▸ agree, ?_⟩)
          exact forall₂_of_map_eq each items fun item₂ item within item₁ within₁ within₂ alike =>
            (carry item₂ within₂ item within item₁ within₁ alike).1
      · rcases (closed.equal_iff found found₂).mp compared with rfl | ⟨agree, each⟩
        · exact equal₁
        · refine (closed.equal_iff found₁ found₂).mpr (.inr ⟨labels ▸ agree, ?_⟩)
          exact (forall₂_of_map_eq each.flip items
            fun item₂ item within item₁ within₁ within₂ alike =>
              (carry item₂ within₂ item within item₁ within₁ alike).2).flip

/-- The two are one value, or equal ones without decimals inside. -/
def Interchangeable (heap : Heap) (left right : Handle) : Prop :=
  left = right ∨ heap.Exact left ∧ heap.Exact right ∧ heap.equal left right = .ok true

theorem equal_of_missing (missing : heap.get? third = none) (held : heap.Holds value) :
    heap.equal third value = .error (.dangling third) ∧
      heap.equal value third = .error (.dangling third) := by
  obtain ⟨object, found⟩ := held
  have unread : heap.read third = .error (.dangling third) := by rw [read, missing]
  have apart : third ≠ value := by
    rintro rfl
    cases missing.symm.trans found
  constructor <;> unfold equal depth equalWithin
  · rw [if_neg apart, unread]
    rfl
  · rw [if_neg apart.symm, read_eq_ok found, unread]
    rfl

/-- Every comparison with a value answers as the one with its replacement. -/
theorem Interchangeable.equal (closed : heap.Closed) (alike : heap.Interchangeable left right)
    (third : Handle) :
    heap.equal third left = heap.equal third right ∧
      heap.equal left third = heap.equal right third := by
  obtain rfl | ⟨exact, exact₁, same⟩ := alike
  · exact ⟨rfl, rfl⟩
  have content := (exact.equal_iff_content closed exact₁).mp same
  cases found : heap.get? third with
  | none =>
      have ⟨first, second⟩ := equal_of_missing found exact.holds
      have ⟨first₁, second₁⟩ := equal_of_missing found exact₁.holds
      exact ⟨first.trans first₁.symm, second.trans second₁.symm⟩
  | some object =>
      have held : heap.Holds third := ⟨object, found⟩
      have ⟨first, second⟩ := exact.equal_of_content_eq closed exact₁ content held
      have ⟨first₁, second₁⟩ := exact₁.equal_of_content_eq closed exact content.symm held
      have agree {answer answer₁ : Except ReadFault Bool} (answers : Answers answer fun _ => True)
          (answers₁ : Answers answer₁ fun _ => True) (there : answer = .ok true → answer₁ = .ok true)
          (back : answer₁ = .ok true → answer = .ok true) : answer = answer₁ := by
        obtain ⟨same, rfl, -⟩ := answers
        obtain ⟨same₁, rfl, -⟩ := answers₁
        cases same <;> cases same₁ <;> simp_all
      exact ⟨agree (answers_equal closed held exact.holds) (answers_equal closed held exact₁.holds)
          first first₁,
        agree (answers_equal closed exact.holds held) (answers_equal closed exact₁.holds held)
          second second₁⟩

theorem matchParameters_of_interchangeable (closed : heap.Closed) {arguments arguments₁ : List Handle}
    (each : List.Forall₂ heap.Interchangeable arguments arguments₁) (parameters : List Parameter) :
    heap.matchParameters parameters arguments = heap.matchParameters parameters arguments₁ := by
  induction each generalizing parameters with
  | nil => rfl
  | cons alike _ ih =>
      cases parameters with
      | nil => rfl
      | cons parameter parameters =>
          cases parameter with
          | binding name => exact ih parameters
          | matcher expected =>
              rw [matchParameters, matchParameters, (alike.equal closed expected).1, ih parameters]

theorem selectOverload_of_interchangeable (closed : heap.Closed)
    {arguments arguments₁ : List Handle}
    (each : List.Forall₂ heap.Interchangeable arguments arguments₁)
    (best : Option (Overload × Nat)) (overloads : List Overload) :
    heap.selectOverload arguments best overloads = heap.selectOverload arguments₁ best overloads := by
  induction overloads generalizing best with
  | nil => rfl
  | cons overload rest ih =>
      rw [selectOverload, selectOverload, each.length_eq,
        matchParameters_of_interchangeable closed each]
      simp only [ih]

end Heap

end RipInterpreter
