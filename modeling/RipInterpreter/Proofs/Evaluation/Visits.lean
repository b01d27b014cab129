import RipInterpreter.Proofs.Evaluation.BareRuns
import RipInterpreter.Proofs.Machine.Quiet

/-!
Which evaluations a step starts, and what it makes of their ends. A step that is handed an evaluator
starts an evaluation if it would be halted by an evaluator that is halted there. `Account.Traced` says
that this is all that the step uses its evaluator for: evaluations it starts that end without a value
end it as expected, and its errors are theirs or its own.
-/

namespace RipInterpreter

open Syntax

variable {α β : Type}

/-- An evaluation of a node: in which scope, and from which state on. -/
structure Visit where
  scope : Scope
  node : Node
  world : World

namespace Evaluator

/-- How the evaluation ends. -/
def visit (evaluator : Evaluator) (visit : Visit) : Outcome Handle :=
  evaluator visit.scope visit.node visit.world

open Classical in
/-- The evaluator that is halted at one evaluation and goes on as before at all others. -/
noncomputable def without (evaluator : Evaluator) (visit : Visit) : Evaluator :=
  fun scope node world =>
    if (⟨scope, node, world⟩ : Visit) = visit then .halted .tooDeep else evaluator scope node world

/-- The step cannot do without the evaluation. -/
def Starts (action : Evaluator → Action α) (evaluator : Evaluator) (world : World) (visit : Visit) :
    Prop :=
  (action evaluator world).Ends ∧ ¬ (action (evaluator.without visit) world).Ends

theorem without_apply (evaluator : Evaluator) (visit : Visit) (scope : Scope) (node : Node)
    (world : World) :
    evaluator.without visit scope node world = evaluator scope node world ∨
      (⟨scope, node, world⟩ : Visit) = visit ∧
        evaluator.without visit scope node world = .halted .tooDeep := by
  unfold without
  split
  · exact .inr ⟨‹_›, rfl⟩
  · exact .inl rfl

theorem without_self (evaluator : Evaluator) (visit : Visit) :
    evaluator.without visit visit.scope visit.node visit.world = .halted .tooDeep := if_pos rfl

theorem without_of_ends {evaluator : Evaluator} {visit : Visit} {scope : Scope} {node : Node}
    {world : World} (ends : (evaluator.without visit scope node world).Ends) :
    evaluator.without visit scope node world = evaluator scope node world := by
  rcases evaluator.without_apply visit scope node world with unchanged | ⟨_, halted⟩
  · exact unchanged
  · rw [halted] at ends
    exact ends.elim

/-- The evaluation of a node starts itself, if it comes to an end. -/
theorem starts_visit {evaluator : Evaluator} {scope : Scope} {node : Node} {world : World}
    (ends : (evaluator scope node world).Ends) :
    Starts (fun evaluator => evaluator scope node) evaluator world ⟨scope, node, world⟩ := by
  refine ⟨ends, fun left => ?_⟩
  have halted := evaluator.without_self ⟨scope, node, world⟩
  dsimp only at left
  rw [halted] at left
  exact left

/-- So does a step that ends as the evaluation lets it, and is halted with it. -/
theorem starts_of_reaches {action : Evaluator → Action α} {evaluator : Evaluator} {world : World}
    {visit : Visit} (next : Outcome Handle → Outcome α)
    (reaches : ∀ other : Evaluator, action other world = next (other.visit visit))
    (halts : ¬ (next (.halted .tooDeep)).Ends) (ends : (action evaluator world).Ends) :
    Starts action evaluator world visit := by
  refine ⟨ends, ?_⟩
  rw [reaches, Evaluator.visit, evaluator.without_self]
  exact halts

/-- Two steps in a row come to an end only if the first one does. -/
theorem ends_of_bind {action : Action α} {continuation : α → Action β} {world : World}
    (ends : ((action >>= continuation) world).Ends) : (action world).Ends := by
  rw [Action.bind_apply] at ends
  cases ran : action world with
  | halted reason =>
      rw [ran] at ends
      exact ends.elim
  | _ => trivial

section

variable {evaluator : Evaluator} {world middle : World} {visit : Visit}
  {action : Evaluator → Action α} {continuation : Evaluator → α → Action β} {result : α}

/-- It makes no difference if the end is kept. -/
theorem starts_settle :
    Starts (fun evaluator => Action.settle (action evaluator)) evaluator world visit ↔
      Starts action evaluator world visit := by
  have ends (action : Action α) : (Action.settle action world).Ends ↔ (action world).Ends := by
    unfold Action.settle
    cases action world <;> rfl
  exact and_congr (ends _) (not_congr (ends _))

/-- What the first of two steps starts, both together start, if they come to an end. -/
theorem Starts.first (started : Starts action evaluator world visit)
    (ends : ((action evaluator >>= continuation evaluator) world).Ends) :
    Starts (fun evaluator => action evaluator >>= continuation evaluator) evaluator world visit :=
  ⟨ends, fun left => started.2 (ends_of_bind left)⟩

variable (same : (action (evaluator.without visit) world).Ends →
  action (evaluator.without visit) world = action evaluator world)
include same

/-- What the second one starts, too. -/
theorem Starts.second
    (started : Starts (fun evaluator => continuation evaluator result) evaluator middle visit)
    (ran : action evaluator world = .value result middle) :
    Starts (fun evaluator => action evaluator >>= continuation evaluator) evaluator world visit := by
  constructor
  · dsimp only
    rw [Action.bind_of_value ran]
    exact started.1
  · intro left
    have unchanged := (same (ends_of_bind left)).trans ran
    dsimp only at left
    rw [Action.bind_of_value unchanged] at left
    exact started.2 left

/-- They start nothing else. -/
theorem Starts.of_bind
    (started : Starts (fun evaluator => action evaluator >>= continuation evaluator) evaluator world
      visit) :
    Starts action evaluator world visit ∨ ∃ result middle,
      action evaluator world = .value result middle ∧
        Starts (fun evaluator => continuation evaluator result) evaluator middle visit := by
  by_cases first : (action (evaluator.without visit) world).Ends
  · right
    obtain ⟨ends, halts⟩ := started
    dsimp only at ends halts
    cases ran : action evaluator world with
    | value result middle =>
        rw [Action.bind_of_value ran] at ends
        rw [Action.bind_of_value ((same first).trans ran)] at halts
        exact ⟨result, middle, rfl, ends, halts⟩
    | _ =>
        rw [Action.bind_apply, ran] at ends
        rw [Action.bind_apply, same first, ran] at halts
        exact absurd ends halts
  · exact .inl ⟨ends_of_bind started.1, first⟩

end

end Evaluator

open Evaluator (Starts starts_visit)

/-- What a step may say of its errors: which are its own, and which ones each evaluation is the cause
of. Its own are those without a place and those that the loader refuses with. -/
structure Account where
  evaluator : Evaluator
  loader : Loader
  own : Error → Prop
  cause : Visit → Error → Prop
  keeps : ∀ scope node world after, (evaluator scope node world).world? = some after →
    after.loader = world.loader
  unplaced : ∀ error, error.location = none → own error
  refused : ∀ request name searchPaths error,
    loader.answer request name searchPaths = .refused error → own error
  failed : ∀ visit error after, evaluator.visit visit = .failure error after → cause visit error

/-- An end of an evaluation that leaves no value: a signal or an error. -/
inductive Unwinding where
  | signal (raised : Signal)
  | failure (error : Error)

namespace Unwinding

def outcome (raised : Unwinding) (after : World) : Outcome α :=
  match raised with
  | .signal raised => .signal raised after
  | .failure error => .failure error after

def completion : Unwinding → Completion α
  | .signal raised => .signal raised
  | .failure error => .failure error

theorem bind_outcome {raised : Unwinding} {action : Action α} {world last : World}
    (ended : action world = raised.outcome last) (continuation : α → Action β) :
    (action >>= continuation) world = raised.outcome last := by
  rw [Action.bind_apply, ended]
  cases raised <;> rfl

theorem settle_eq_value_iff {raised : Unwinding} {action : Action α} {world last : World} :
    Action.settle action world = .value raised.completion last ↔
      action world = raised.outcome last := by
  unfold Action.settle
  cases raised <;> cases action world <;> simp [completion, outcome]

end Unwinding

/-- The evaluation ends the step: in the same way, if it is one of the given ones. -/
def Passing (passed : Unwinding → Prop) (raised : Unwinding) (outcome : Outcome α) : Prop :=
  passed raised → ∃ last, outcome = raised.outcome last

/-- The evaluation ends the step, and how it ends is kept. -/
def Keeping (kept : Unwinding → Prop) (raised : Unwinding) (outcome : Outcome (Completion α)) :
    Prop :=
  kept raised → ∃ last, outcome = .value raised.completion last

namespace Account

/-- In this state, the step uses the evaluator for nothing but the evaluations it starts. -/
structure TracedAt (account : Account) (meets : Unwinding → Outcome α → Prop)
    (action : Evaluator → Action α) (world : World) : Prop where
  /-- Without an evaluation that it does not start, the step does the same. -/
  same : ∀ visit, (action (account.evaluator.without visit) world).Ends →
    action (account.evaluator.without visit) world = action account.evaluator world
  passes : ∀ visit raised after, Starts action account.evaluator world visit →
    account.evaluator.visit visit = raised.outcome after →
    meets raised (action account.evaluator world)
  answers : ∀ error after, action account.evaluator world = .failure error after →
    account.own error ∨
      ∃ visit, Starts action account.evaluator world visit ∧ account.cause visit error
  keeps : ∀ after, (action account.evaluator world).world? = some after →
    after.loader = world.loader

/-- The same in every state with the loader. -/
def Traced (account : Account) (meets : Unwinding → Outcome α → Prop)
    (action : Evaluator → Action α) : Prop :=
  ∀ world, world.loader = account.loader → account.TracedAt meets action world

variable {account : Account} {meets : Unwinding → Outcome α → Prop} {passed fewer : Unwinding → Prop}
  {world : World}

theorem TracedAt.mono {action : Evaluator → Action α} {weaker : Unwinding → Outcome α → Prop}
    (traced : account.TracedAt meets action world)
    (weakens : ∀ raised outcome, meets raised outcome → weaker raised outcome) :
    account.TracedAt weaker action world where
  same := traced.same
  passes visit raised after started ended :=
    weakens raised _ (traced.passes visit raised after started ended)
  answers := traced.answers
  keeps := traced.keeps

theorem Traced.mono {action : Evaluator → Action α} {weaker : Unwinding → Outcome α → Prop}
    (traced : account.Traced meets action)
    (weakens : ∀ raised outcome, meets raised outcome → weaker raised outcome) :
    account.Traced weaker action := fun world loaded => (traced world loaded).mono weakens

theorem Traced.less {action : Evaluator → Action α} (traced : account.Traced (Passing passed) action)
    (included : ∀ raised, fewer raised → passed raised) : account.Traced (Passing fewer) action :=
  traced.mono fun raised _ passing among => passing (included raised among)

/-- Only what is said of errors depends on the account. -/
theorem TracedAt.answered {other : Account} {action : Evaluator → Action α}
    (traced : other.TracedAt meets action world) (same : other.evaluator = account.evaluator)
    (answers : ∀ error after, action account.evaluator world = .failure error after →
      account.own error ∨
        ∃ visit, Starts action account.evaluator world visit ∧ account.cause visit error) :
    account.TracedAt meets action world where
  same := same ▸ traced.same
  passes := same ▸ traced.passes
  answers := answers
  keeps := same ▸ traced.keeps

/-- A step that does not look at the evaluator. -/
theorem TracedAt.still {action : Action α}
    (answers : ∀ error after, action world = .failure error after → account.own error)
    (keeps : ∀ after, (action world).world? = some after → after.loader = world.loader) :
    account.TracedAt meets (fun _ => action) world where
  same _ _ := rfl
  passes _ _ _ started _ := absurd started.1 started.2
  answers error after failed := .inl (answers error after failed)
  keeps := keeps

theorem Traced.quiet {action : Action α} (quiet : action.Quiet) :
    account.Traced meets fun _ => action := by
  intro world loaded
  have ended := quiet world
  refine .still (fun error after failed => account.unplaced error (quiet.unplaced failed))
    fun after left => ?_
  generalize action world = outcome at ended left
  cases ended with
  | value kept =>
      cases left
      exact kept
  | failure unplaced kept =>
      cases left
      exact kept
  | halted reason => cases left

/-- The evaluation of a node. -/
theorem Traced.visit (scope : Scope) (node : Node) :
    account.Traced (Passing passed) fun evaluator => evaluator scope node := by
  intro world _
  have only {visit : Visit}
      (started : Starts (fun evaluator => evaluator scope node) account.evaluator world visit) :
      (⟨scope, node, world⟩ : Visit) = visit := by
    rcases account.evaluator.without_apply visit scope node world with unchanged | ⟨here, _⟩
    · obtain ⟨ends, halts⟩ := started
      dsimp only at ends halts
      rw [unchanged] at halts
      exact absurd ends halts
    · exact here
  refine ⟨fun visit => Evaluator.without_of_ends, fun visit raised after started ended _ => ?_,
    fun error after failed => ?_, account.keeps scope node world⟩
  · cases only started
    exact ⟨after, ended⟩
  · refine .inr ⟨⟨scope, node, world⟩, starts_visit ?_, account.failed _ _ _ failed⟩
    rw [failed]
    trivial

/-- Two steps in a row. The end of an evaluation that the first one starts has to be met by both
together. -/
theorem TracedAt.bind {first : Unwinding → Outcome α → Prop} {meets : Unwinding → Outcome β → Prop}
    {action : Evaluator → Action α} {continuation : Evaluator → α → Action β}
    (before : account.TracedAt first action world)
    (next : ∀ result middle, action account.evaluator world = .value result middle →
      account.TracedAt meets (fun evaluator => continuation evaluator result) middle)
    (through : ∀ raised, first raised (action account.evaluator world) →
      meets raised ((action account.evaluator >>= continuation account.evaluator) world)) :
    account.TracedAt meets (fun evaluator => action evaluator >>= continuation evaluator) world where
  same visit ends := by
    have unchanged := before.same visit (Evaluator.ends_of_bind ends)
    rw [Action.bind_apply, unchanged] at ends
    rw [Action.bind_apply, Action.bind_apply, unchanged]
    cases ran : action account.evaluator world with
    | value result middle =>
        rw [ran] at ends
        exact (next result middle ran).same visit ends
    | _ => rfl
  passes visit raised after started ended := by
    rcases started.of_bind (before.same visit) with inside | ⟨result, middle, ran, inside⟩
    · exact through raised (before.passes visit raised after inside ended)
    · have met := (next result middle ran).passes visit raised after inside ended
      rwa [Action.bind_of_value ran]
  answers error after failed := by
    have ends : ((action account.evaluator >>= continuation account.evaluator) world).Ends := by
      rw [failed]
      trivial
    rw [Action.bind_apply] at failed
    cases ran : action account.evaluator world with
    | value result middle =>
        rw [ran] at failed
        rcases (next result middle ran).answers error after failed with own | ⟨visit, started, blamed⟩
        · exact .inl own
        · exact .inr ⟨visit, started.second (before.same visit) ran, blamed⟩
    | failure reason middle =>
        rw [ran] at failed
        cases failed
        rcases before.answers error after ran with own | ⟨visit, started, blamed⟩
        · exact .inl own
        · exact .inr ⟨visit, started.first ends, blamed⟩
    | _ =>
        rw [ran] at failed
        cases failed
  keeps after left := by
    rw [Action.bind_apply] at left
    have kept := before.keeps
    cases ran : action account.evaluator world with
    | value result middle =>
        rw [ran] at left kept
        exact ((next result middle ran).keeps after left).trans (kept middle rfl)
    | halted reason =>
        rw [ran] at left
        cases left
    | _ =>
        rw [ran] at left kept
        exact kept after left

theorem Traced.bind {action : Evaluator → Action α} {continuation : Evaluator → α → Action β}
    (before : account.Traced (Passing passed) action)
    (next : ∀ result, account.Traced (Passing passed) fun evaluator =>
      continuation evaluator result) :
    account.Traced (Passing passed) fun evaluator => action evaluator >>= continuation evaluator := by
  intro world loaded
  refine (before world loaded).bind (fun result middle ran => next result middle ?_)
    fun raised passing among => ?_
  · exact ((before world loaded).keeps middle (by rw [ran]; rfl)).trans loaded
  · obtain ⟨last, ended⟩ := passing among
    exact ⟨last, Unwinding.bind_outcome ended _⟩

/-- After a step that starts no evaluation every end of an evaluation may be met in another way. -/
theorem Traced.following {meets : Unwinding → Outcome β → Prop} {action : Action α}
    {continuation : Evaluator → α → Action β}
    (before : account.Traced (fun _ _ => False) fun _ => action)
    (next : ∀ result, account.Traced meets fun evaluator => continuation evaluator result) :
    account.Traced meets fun evaluator => action >>= continuation evaluator := by
  intro world loaded
  refine (before world loaded).bind (fun result middle ran => next result middle ?_)
    fun _ => False.elim
  exact ((before world loaded).keeps middle (by rw [ran]; rfl)).trans loaded

theorem Traced.after {meets : Unwinding → Outcome β → Prop} {action : Action α}
    {continuation : Evaluator → α → Action β} (quiet : action.Quiet)
    (next : ∀ result, account.Traced meets fun evaluator => continuation evaluator result) :
    account.Traced meets fun evaluator => action >>= continuation evaluator :=
  .following (.quiet quiet) next

/-- The step comes to an end whatever an evaluation does, and keeps it. -/
theorem Traced.settle {action : Evaluator → Action α}
    (traced : account.Traced (Passing passed) action) :
    account.Traced (Keeping passed) fun evaluator => Action.settle (action evaluator) := by
  intro world loaded
  have before := traced world loaded
  refine ⟨fun visit ends => ?_, fun visit raised after started ended among => ?_,
    fun error after failed => ?_, fun after left => before.keeps after ?_⟩
  · unfold Action.settle at ends ⊢
    rw [before.same visit]
    cases ran : action (account.evaluator.without visit) world with
    | halted reason =>
        rw [ran] at ends
        exact ends
    | _ => trivial
  · obtain ⟨last, passing⟩ := before.passes visit raised after
      (Evaluator.starts_settle.mp started) ended among
    exact ⟨last, Unwinding.settle_eq_value_iff.mpr passing⟩
  · unfold Action.settle at failed
    split at failed <;> cases failed
  · rwa [Action.world?_settle] at left

theorem Traced.mapM {items : List α} {visit : Evaluator → α → Action β}
    (each : ∀ item ∈ items, account.Traced (Passing passed) fun evaluator => visit evaluator item) :
    account.Traced (Passing passed) fun evaluator => items.mapM (visit evaluator) := by
  induction items with
  | nil => exact .quiet (.pure [])
  | cons item rest ih =>
      simp only [List.mapM_cons]
      exact (each item List.mem_cons_self).bind fun _ =>
        (ih fun other inside => each other (List.mem_cons_of_mem item inside)).bind fun _ =>
          .quiet (.pure _)

end Account

end RipInterpreter
