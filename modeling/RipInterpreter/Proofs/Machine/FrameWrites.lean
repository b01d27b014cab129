import RipInterpreter.Proofs.Frames
import RipInterpreter.Proofs.Machine.ObjectsOnly

namespace RipInterpreter.Action

variable {α β : Type} {scope : Scope} {new first second : String → Prop}

/-- The step leaves every frame that exists as it is. -/
def KeepsFrames (action : Action α) : Prop :=
  action.Relates fun world after => world.frames.Preserved after.frames

/-- The step writes to no other frame than the innermost one of the scope: that one keeps its
bindings and gains at most some of the new names. -/
def Writes (scope : Scope) (new : String → Prop) (action : Action α) : Prop :=
  action.Relates fun world after =>
    scope.own < world.frames.frames.size → world.frames.Extended scope.own new after.frames

theorem ObjectsOnly.keepsFrames {action : Action α} (only : action.ObjectsOnly) :
    action.KeepsFrames := by
  refine Relates.mono only fun world after same => ?_
  rw [same.frames]
  exact .refl world.frames

theorem KeepsFrames.writes {action : Action α} (keeps : action.KeepsFrames) :
    action.Writes scope new :=
  Relates.mono keeps fun _ _ preserved => preserved.extended

theorem ObjectsOnly.writes {action : Action α} (only : action.ObjectsOnly) :
    action.Writes scope new := only.keepsFrames.writes

theorem keepsFrames_change {update : World → World}
    (same : ∀ world, (update world).frames = world.frames) : (change update).KeepsFrames :=
  .change update fun world => by
    rw [same world]
    exact .refl world.frames

theorem KeepsFrames.bind {action : Action α} {continuation : α → Action β}
    (before : action.KeepsFrames) (next : ∀ result, (continuation result).KeepsFrames) :
    (action >>= continuation).KeepsFrames :=
  Relates.bind before next (fun _ _ preserved => preserved) fun _ _ _ => .trans

theorem Writes.mono {action : Action α} (writes : action.Writes scope first)
    (included : ∀ name, first name → second name) : action.Writes scope second :=
  Relates.mono writes fun _ _ extended held => (extended held).mono included

theorem Writes.bind {action : Action α} {continuation : α → Action β}
    (before : action.Writes scope new) (next : ∀ result, (continuation result).Writes scope new) :
    (action >>= continuation).Writes scope new :=
  Relates.bind before next (fun _ _ extended => extended) fun _ _ _ first second held =>
    (first held).trans (second (Nat.lt_of_lt_of_le held (first held).size))

theorem Writes.mapM {items : List α} {visit : α → Action β}
    (each : ∀ item ∈ items, (visit item).Writes scope new) :
    (items.mapM visit).Writes scope new := by
  induction items with
  | nil => exact (ObjectsOnly.pure []).writes
  | cons item rest ih =>
      rw [List.mapM_cons]
      exact (each item List.mem_cons_self).bind fun _ =>
        (ih fun other inside => each other (List.mem_cons_of_mem item inside)).bind fun _ =>
          (ObjectsOnly.pure _).writes

theorem writes_bindName (scope : Scope) (name : String) (value : Handle) :
    (bindName scope name value).Writes scope (· = name) := by
  intro world after left held
  unfold bindName at left
  cases bound : world.frames.bind scope name value with
  | ok frames =>
      rw [bound] at left
      cases left
      exact Frames.extended_bind bound held
  | error fault =>
      rw [bound] at left
      cases left
      exact .refl _ _ world.frames

/-- What runs in a frame made for it leaves the frames that were there as they are. -/
theorem keepsFrames_enter {next : Scope → Action α}
    (written : ∀ inner, ∃ new, (next inner).Writes inner new) :
    (enter scope >>= next).KeepsFrames := by
  intro world after left
  obtain ⟨_, writes⟩ := written ⟨world.frames.frames.size, scope.chain⟩
  refine Frames.preserved_of_fresh scope.chain (world.frames.originOf scope)
    (writes _ after left ?_)
  simp

theorem keepsFrames_enterFrom {origin : String} {next : Scope → Action α}
    (written : ∀ inner, ∃ new, (next inner).Writes inner new) :
    (enterFrom scope origin >>= next).KeepsFrames := by
  intro world after left
  obtain ⟨_, writes⟩ := written ⟨world.frames.frames.size, scope.chain⟩
  refine Frames.preserved_of_fresh scope.chain (some origin) (writes _ after left ?_)
  simp

end RipInterpreter.Action
