import RipInterpreter.Proofs.Evaluation.Embedding
import RipInterpreter.Proofs.Machine.Content
import RipInterpreter.Proofs.Machine.KernelMethods

namespace RipInterpreter

namespace Heap

/-- The two are one pair, or pairs of one value under interchangeable keys. -/
inductive Rekeyed (heap : Heap) : Handle → Handle → Prop
  | same (pair : Handle) : Rekeyed heap pair pair
  | pair {pair pair₁ key key₁ value : Handle} {object object₁ : Object}
      (found : heap.get? pair = some object) (found₁ : heap.get? pair₁ = some object₁)
      (shape : object.payload = .keyValue key value)
      (shape₁ : object₁.payload = .keyValue key₁ value)
      (alike : heap.Interchangeable key key₁) : Rekeyed heap pair pair₁

/-- The two are one value, or maps of the same values under interchangeable keys. -/
inductive RekeyedMap (heap : Heap) : Handle → Handle → Prop
  | same (map : Handle) : RekeyedMap heap map map
  | map {map map₁ : Handle} {pairs pairs₁ : List Handle} {object object₁ : Object}
      (found : heap.get? map = some object) (found₁ : heap.get? map₁ = some object₁)
      (shape : object.payload = .map pairs) (shape₁ : object₁.payload = .map pairs₁)
      (each : List.Forall₂ heap.Rekeyed pairs pairs₁) : RekeyedMap heap map map₁

end Heap

namespace Action

variable {world : World} {wanted wanted₁ : Handle}

open RipInterpreter.Heap

theorem valueAt_of_interchangeable (tidy : world.Tidy)
    (alike : world.heap.Interchangeable wanted wanted₁) {pairs pairs₁ : List Handle}
    (each : List.Forall₂ world.heap.Rekeyed pairs pairs₁) :
    valueAt wanted pairs world = valueAt wanted₁ pairs₁ world := by
  have closed := tidy.heap
  induction each with
  | nil => rfl
  | @cons pair pair₁ pairs pairs₁ rekeyed _ ih =>
      -- If the keys differ from what is wanted, the search goes on in both maps.
      have found {key key₁ value : Handle} (keys : world.heap.Interchangeable key key₁) :
          (do if ← ask fun heap => heap.equal key wanted then return value
              else valueAt wanted pairs : Action Handle) world =
            (do if ← ask fun heap => heap.equal key₁ wanted₁ then return value
                else valueAt wanted₁ pairs₁ : Action Handle) world := by
        rw [bind_apply, bind_apply, ask, ask, (keys.equal closed wanted).2,
          (alike.equal closed key₁).1]
        cases world.heap.equal key₁ wanted₁ with
        | error fault => cases fault <;> rfl
        | ok same => cases same <;> [exact ih; rfl]
      cases rekeyed with
      | same =>
          refine (finds_payload tidy pair).bind_congr fun content _ => ?_
          cases content with
          | keyValue key value => exact found (.inl rfl)
          | _ => exact ih
      | pair known known₁ shape shape₁ keys =>
          have shown := payload_of_read (read_eq_ok known)
          have shown₁ := payload_of_read (read_eq_ok known₁)
          rw [shape] at shown
          rw [shape₁] at shown₁
          rw [valueAt, valueAt, bind_of_value shown, bind_of_value shown₁]
          exact found keys

theorem mapAt_of_interchangeable (tidy : world.Tidy) (evaluator : Evaluator) {map map₁ : Handle}
    (maps : world.heap.RekeyedMap map map₁) {arguments arguments₁ : List Handle}
    (each : List.Forall₂ world.heap.Interchangeable arguments arguments₁) (scope : Scope) :
    runMethod evaluator .mapAt ⟨some map, arguments, scope⟩ world =
      runMethod evaluator .mapAt ⟨some map₁, arguments₁, scope⟩ world := by
  cases each with
  | nil => rfl
  | @cons wanted wanted₁ _ _ alike _ =>
      change (mapPairs map >>= valueAt wanted) world = (mapPairs map₁ >>= valueAt wanted₁) world
      cases maps with
      | same =>
          refine (finds_mapPairs tidy map).bind_congr fun pairs _ => ?_
          exact valueAt_of_interchangeable tidy alike
            (List.forall₂_same.mpr fun pair _ => .same pair)
      | map found found₁ shape shape₁ each =>
          rw [bind_of_value (mapPairs_of_found found shape),
            bind_of_value (mapPairs_of_found found₁ shape₁)]
          exact valueAt_of_interchangeable tidy alike each

end Action

namespace Session

/-- On the way of a machine that an embedding program works with, values without decimals inside are
equal exactly if their content is the same. So equality is an equivalence among them, and neither
the choice of an overload nor a lookup in a map tells equal ones apart, whatever else they are
compared with. -/
theorem Embedded.equality_compares_content {loader : Loader} {searchPaths : List String}
    {world middle : World} (reached : Embedded loader searchPaths world)
    (reaches : world.Reaches middle) :
    (∀ value object, middle.heap.get? value = some object →
      middle.heap.content value = .node (object.payload.label value)
        (object.payload.contents.map middle.heap.content)) ∧
      (∀ left right, middle.heap.Exact left → middle.heap.Exact right →
        ∃ same, middle.heap.equal left right = .ok same ∧
          (same = true ↔ middle.heap.content left = middle.heap.content right)) ∧
      (Equivalence fun left right : {value // middle.heap.Exact value} =>
        middle.heap.equal left right = .ok true) ∧
      (∀ arguments arguments₁, List.Forall₂ middle.heap.Interchangeable arguments arguments₁ →
        ∀ best overloads, middle.heap.selectOverload arguments best overloads =
          middle.heap.selectOverload arguments₁ best overloads) ∧
      ∀ evaluator map map₁ arguments arguments₁ scope, middle.heap.RekeyedMap map map₁ →
        List.Forall₂ middle.heap.Interchangeable arguments arguments₁ →
        Action.runMethod evaluator .mapAt ⟨some map, arguments, scope⟩ middle =
          Action.runMethod evaluator .mapAt ⟨some map₁, arguments₁, scope⟩ middle := by
  have tidy := reaches.tidy reached.tidy
  have closed := tidy.heap
  refine ⟨fun value object found => Heap.content_eq closed found, fun left right exact exact₁ => ?_,
    ⟨fun value => ?_, fun {left right} => ?_, fun {left right third} => ?_⟩,
    fun arguments arguments₁ each => Heap.selectOverload_of_interchangeable closed each,
    fun evaluator map map₁ arguments arguments₁ scope maps each =>
      Action.mapAt_of_interchangeable tidy evaluator maps each scope⟩
  · obtain ⟨same, answered, -⟩ := Heap.answers_equal closed exact.holds exact₁.holds
    refine ⟨same, answered, ?_⟩
    rw [← exact.equal_iff_content closed exact₁, answered, Except.ok.injEq]
  · exact (value.2.equal_iff_content closed value.2).mpr rfl
  · rw [left.2.equal_iff_content closed right.2, right.2.equal_iff_content closed left.2]
    exact Eq.symm
  · rw [left.2.equal_iff_content closed right.2, right.2.equal_iff_content closed third.2,
      left.2.equal_iff_content closed third.2]
    exact Eq.trans

/-- Two lists that hold an integer each. -/
theorem Embedded.equality_compares_content_of_lists :
    let fresh := World.fresh ⟨fun _ _ _ => .unseen ""⟩ []
    let one := fresh.heap.add (.instanceOf KernelClass.integer.handle (.integer 1))
    let other := one.2.add (.instanceOf KernelClass.integer.handle (.integer 1))
    let first := other.2.add (.instanceOf KernelClass.list.handle (.list [one.1]))
    let second := first.2.add (.instanceOf KernelClass.list.handle (.list [other.1]))
    let middle := { fresh with heap := second.2 }
    fresh.Reaches middle ∧ first.1 ≠ second.1 ∧
      middle.heap.equal first.1 second.1 = .ok true ∧
      middle.heap.content first.1 = middle.heap.content second.1 ∧
      (∀ overloads, middle.heap.selectOverload [first.1] none overloads =
        middle.heap.selectOverload [second.1] none overloads) ∧
      ∀ evaluator map scope, Action.runMethod evaluator .mapAt ⟨some map, [first.1], scope⟩ middle =
        Action.runMethod evaluator .mapAt ⟨some map, [second.1], scope⟩ middle := by
  intro fresh one other first second middle
  have make {world : World} (reaches : fresh.Reaches world) (kernelClass : KernelClass)
      (payload : Payload) (known : ∀ value ∈ payload.mentions, world.heap.Holds value) :
      fresh.Reaches { world with
        heap := (world.heap.add (.instanceOf kernelClass.handle payload)).2 } :=
    have closed := (reaches.tidy (tidy_fresh _ [])).heap
    reaches.trans (World.Move.make
      (Heap.admits_instance (closed.kernelClass kernelClass) known)).reaches
  have reaches : fresh.Reaches middle := by
    refine make (make (make (make (.refl fresh) .integer (.integer 1) nofun)
      .integer (.integer 1) nofun) .list (.list [one.1]) ?_) .list (.list [other.1]) ?_ <;>
    · intro value inside
      cases List.mem_singleton.mp inside
      exact ⟨_, rfl⟩
  have exact : middle.heap.Exact first.1 := .intro rfl trivial fun item inside => by
    cases List.mem_singleton.mp inside
    exact .intro rfl trivial nofun
  have exact₁ : middle.heap.Exact second.1 := .intro rfl trivial fun item inside => by
    cases List.mem_singleton.mp inside
    exact .intro rfl trivial nofun
  have equal : middle.heap.equal first.1 second.1 = .ok true :=
    eq_ok_of_toOption (by decide +kernel)
  obtain ⟨-, compare, -, select, look⟩ := Embedded.equality_compares_content .fresh reaches
  obtain ⟨same, answered, content⟩ := compare first.1 second.1 exact exact₁
  have each : List.Forall₂ middle.heap.Interchangeable [first.1] [second.1] :=
    .cons (.inr ⟨exact, exact₁, equal⟩) .nil
  cases equal.symm.trans answered
  exact ⟨reaches, by decide +kernel, equal, content.mp rfl, select _ _ each none,
    fun evaluator map scope => look evaluator map map _ _ scope (.same map) each⟩

end Session

end RipInterpreter
