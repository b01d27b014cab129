import RipInterpreter.Proofs.Evaluation.Mirrors

namespace RipInterpreter

variable {α : Type}

namespace Outcome

/-- The step was not halted from outside. -/
def Ends : Outcome α → Prop
  | .halted _ => False
  | _ => True

/-- The outcome with places left out of errors and signals, and something left out of the state. -/
def erase (erased : World → World) : Outcome α → Outcome α
  | .value result after => .value result (erased after)
  | .signal raised after => .signal raised.bare (erased after)
  | .failure error after => .failure error.bare (erased after)
  | .halted reason => .halted reason

/-- The outcome without places in errors, signals and the bodies of lambdas, and without comments in
the latter. -/
def bare (outcome : Outcome α) : Outcome α := outcome.erase World.bare

/-- An end in a state with the given loader. -/
def EndsWith (loader : Loader) (outcome : Outcome α) : Prop :=
  outcome.Ends ∧ ∀ after, outcome.world? = some after → after.loader = loader

end Outcome

theorem World.bare_of_stripped {first second : World} (same : first.stripped = second.stripped)
    (loader : first.loader = second.loader) : first.bare = second.bare := by
  have restored (world : World) :
      world.bare = { world.stripped with loader := world.loader } := rfl
  rw [restored, restored, same, loader]

namespace Outcome

variable {side : Side} {loader : Loader} {outcome outcome₁ : Outcome α}

/-- A mirrored end is the bare end, and the loader is kept. -/
theorem Mirrors.ended (mirrors : outcome.Mirrors side id loader outcome₁) (ends : outcome.Ends)
    (ends₁ : outcome₁.Ends) :
    outcome₁ = outcome.erase World.stripped ∧ outcome.EndsWith loader := by
  cases mirrors with
  | value kept => exact ⟨rfl, ends, fun _ left => by cases left; exact kept⟩
  | signal kept => exact ⟨rfl, ends, fun _ left => by cases left; exact kept⟩
  | failure kept => exact ⟨rfl, ends, fun _ left => by cases left; exact kept⟩
  | cut => exact ends.elim
  | cutBare => exact ends₁.elim

theorem Mirrors.ends_bare (mirrors : outcome.Mirrors .full id loader outcome₁)
    (ends : outcome.Ends) : outcome₁.Ends := by
  cases mirrors with
  | cut => exact ends.elim
  | cutBare earlier => cases earlier
  | _ => trivial

theorem Mirrors.ends_full (mirrors : outcome.Mirrors .bare id loader outcome₁)
    (ends : outcome₁.Ends) : outcome.Ends := by
  cases mirrors with
  | cut earlier => cases earlier
  | cutBare => exact ends.elim
  | _ => trivial

/-- Two ends that have the same mirrored end. -/
theorem bare_of_stripped {second : Outcome α}
    (same : outcome.erase World.stripped = second.erase World.stripped)
    (first : outcome.EndsWith loader) (last : second.EndsWith loader) :
    outcome.bare = second.bare := by
  have states {world after : World} (left : outcome.world? = some world)
      (left₁ : second.world? = some after) (equal : world.stripped = after.stripped) :
      world.bare = after.bare :=
    World.bare_of_stripped equal ((first.2 world left).trans (last.2 after left₁).symm)
  unfold bare
  cases outcome <;> cases second <;> simp only [erase, reduceCtorEq, value.injEq, signal.injEq,
    failure.injEq, halted.injEq] at same ⊢
  · exact ⟨same.1, states rfl rfl same.2⟩
  · exact ⟨same.1, states rfl rfl same.2⟩
  · exact ⟨same.1, states rfl rfl same.2⟩
  · exact same

end Outcome

/-- Two runs, each given by its outcomes at all depths, end alike: if the first one ends at some
depth, then the second one ends at every greater depth; and at all depths where it ends, its outcome
is the same but for comments and places. -/
def EndAlike (first second : Nat → Outcome α) : Prop :=
  ∀ depth, (first depth).Ends → ∀ depth₁,
    (depth < depth₁ → (second depth₁).Ends) ∧
      ((second depth₁).Ends → (second depth₁).bare = (first depth).bare)

/-- Both runs mirror the same bare run. -/
theorem EndAlike.of_mirrors {first second common : Nat → Action α}
    (mirrors : ∀ side depth depth₁, side.Fits depth depth₁ →
      (first depth).Mirrors side id (common depth₁))
    (mirrors₁ : ∀ side depth depth₁, side.Fits depth depth₁ →
      (second depth).Mirrors side id (common depth₁)) (world : World) :
    EndAlike (fun depth => first depth world) (fun depth => second depth world) := by
  intro depth ends depth₁
  refine ⟨fun deeper => ?_, fun ends₁ => ?_⟩
  · have bareEnds := (mirrors .full depth depth (Nat.le_refl depth) world).ends_bare ends
    exact (mirrors₁ .bare depth₁ depth deeper world).ends_full bareEnds
  · have one := mirrors .full depth (max depth depth₁) (Nat.le_max_left _ _) world
    have other := mirrors₁ .full depth₁ (max depth depth₁) (Nat.le_max_right _ _) world
    obtain ⟨same, left⟩ := one.ended ends (one.ends_bare ends)
    obtain ⟨same₁, left₁⟩ := other.ended ends₁ (other.ends_bare ends₁)
    exact Outcome.bare_of_stripped (same₁.symm.trans same) left₁ left

open Syntax

namespace Session

theorem mirrors_endModule {side : Side} (completion : Completion Handle) :
    (endModule completion).Mirrors side id (endModule completion.bare) := by
  cases completion with
  | signal raised =>
      cases raised with
      | thrown value place => exact Action.mirrors_uncaught id value place
      | returned value => exact .pure id value
      | exited value => exact .pure id value
  | value result => exact .pure id result
  | failure error => exact .fail id error

theorem mirrors_interpretIn {side : Side} {depth depth₁ : Nat} (fits : side.Fits depth depth₁)
    (module : Syntax.Module) (scope : Scope) :
    (interpretIn depth module scope).Mirrors side id (interpretIn depth₁ module.bare scope) :=
  .bind (.settle (Action.mirrors_run (mirrors_evaluate fits) scope module.statements))
    mirrors_endModule

theorem mirrors_interpret {side : Side} {depth depth₁ : Nat} (fits : side.Fits depth depth₁)
    (module : Syntax.Module) :
    (interpret depth module).Mirrors side id (interpret depth₁ module.bare) :=
  Action.Mirrors.bind (Action.blind_enterFrom Kernel.globals module.location.origin)
    (mirrors_interpretIn fits module)

end Session

/-- Trees that become equal without the comments among their statements and without places do the
same, in any state and scope: evaluated as nodes, run as statements, and interpreted as modules. -/
theorem runs_end_alike (world : World) (scope : Scope) :
    (∀ node node₁ : Node, node.bare = node₁.bare →
      EndAlike (fun depth => evaluate depth scope node world)
        (fun depth => evaluate depth scope node₁ world)) ∧
    (∀ statements statements₁ : List Node, bareStatements statements = bareStatements statements₁ →
      EndAlike (fun depth => Action.run (evaluate depth) scope statements world)
        (fun depth => Action.run (evaluate depth) scope statements₁ world)) ∧
    (∀ module module₁ : Syntax.Module, module.bare = module₁.bare →
      EndAlike (fun depth => Session.interpretIn depth module scope world)
        (fun depth => Session.interpretIn depth module₁ scope world) ∧
      EndAlike (fun depth => Session.interpret depth module world)
        (fun depth => Session.interpret depth module₁ world)) := by
  refine ⟨fun node node₁ same => ?_, fun statements statements₁ same => ?_,
    fun module module₁ same => ⟨?_, ?_⟩⟩
  · exact .of_mirrors (fun _ _ _ fits => (mirrors_evaluate fits).nodes scope node)
      (fun _ _ _ fits => same ▸ (mirrors_evaluate fits).nodes scope node₁) world
  · exact .of_mirrors (fun _ _ _ fits => Action.mirrors_run (mirrors_evaluate fits) scope statements)
      (fun _ _ _ fits => same ▸ Action.mirrors_run (mirrors_evaluate fits) scope statements₁) world
  · exact .of_mirrors (fun _ _ _ fits => Session.mirrors_interpretIn fits module scope)
      (fun _ _ _ fits => same ▸ Session.mirrors_interpretIn fits module₁ scope) world
  · exact .of_mirrors (fun _ _ _ fits => Session.mirrors_interpret fits module)
      (fun _ _ _ fits => same ▸ Session.mirrors_interpret fits module₁) world

/-- Two lambdas, one of them with a comment in its body: they are stored alike. -/
theorem runs_end_alike_with_comment :
    let body (comments : List Node) : Node := .lambda ⟨.arrow, [],
      ⟨comments ++ [.list [] ⟨"a", 3 + comments.length, 1, 3 + comments.length⟩], .start "a"⟩,
      .start "a"⟩
    let commented := body [.comment "" ⟨"a", 3, 1, 3⟩]
    let world := World.fresh ⟨fun _ _ _ => .unseen ""⟩ []
    commented.bare = (body []).bare ∧ (evaluate 1 Kernel.globals commented world).Ends ∧
      (evaluate 2 Kernel.globals (body []) world).Ends ∧
      (evaluate 2 Kernel.globals (body []) world).bare =
        (evaluate 1 Kernel.globals commented world).bare := by
  intro body commented world
  have same : commented.bare = (body []).bare := rfl
  have ends : (evaluate 1 Kernel.globals commented world).Ends := trivial
  have alike := (runs_end_alike world Kernel.globals).1 commented (body []) same 1 ends 2
  have ends₁ := alike.1 (by decide)
  exact ⟨same, ends, ends₁, alike.2 ends₁⟩

end RipInterpreter
