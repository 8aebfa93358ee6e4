/-
Module: OverUnder.Library.Reachable
Purpose: States reachable from an initial predicate under a step relation, runs
  that keep the list of steps taken, and the induction rules for both.
Trusted boundary: none
Main exports: Reachable, Reachable.invariant, Reachable.execute, Run, Run.append, Run.invariant,
  Run.execute, Run.of_foldlM, Run.of_tested, Run.foldlM_eq, Run.measure
-/
import Mathlib

namespace OverUnder.Library

variable {σ τ : Type}

/-- `s` is reached from some initial state by finitely many steps. -/
def Reachable (init : σ → Prop) (step : σ → σ → Prop) (s : σ) : Prop :=
  ∃ start, init start ∧ Relation.ReflTransGen step start s

namespace Reachable

variable {init : σ → Prop} {step : σ → σ → Prop} {s t : σ}

theorem start (initial : init s) : Reachable init step s :=
  ⟨s, initial, .refl⟩

theorem next (reached : Reachable init step s) (taken : step s t) :
    Reachable init step t := by
  obtain ⟨first, initial, path⟩ := reached
  exact ⟨first, initial, path.tail taken⟩

/-- What holds initially and is preserved by each step holds of every reachable
state. -/
theorem invariant {I : σ → Prop} (initially : ∀ s, init s → I s)
    (preserved : ∀ s t, I s → step s t → I t) (reached : Reachable init step s) : I s := by
  obtain ⟨first, initial, path⟩ := reached
  induction path with
  | refl => exact initially first initial
  | tail _ taken ih => exact preserved _ _ ih taken

/-- Executing a list of admitted actions one after the other. -/
theorem execute {α ε : Type} {act : σ → α → Except ε σ} {admitted : α → Prop}
    (steps : ∀ s a t, admitted a → act s a = .ok t → step s t) {actions : List α}
    (all : ∀ a ∈ actions, admitted a) (reached : Reachable init step s)
    (done : actions.foldlM act s = .ok t) : Reachable init step t := by
  induction actions generalizing s with
  | nil =>
      cases done
      exact reached
  | cons a rest ih =>
      rw [List.foldlM_cons] at done
      cases taken : act s a with
      | error why =>
          rw [taken] at done
          cases done
      | ok u =>
          rw [taken] at done
          exact ih (fun b later => all b (.tail _ later))
            (reached.next (steps s a u (all a (.head _)) taken)) done

end Reachable

/-! ### Runs with their labels -/

/-- `steps` leads from one state to another, each label enabled in turn. -/
inductive Run (step : σ → τ → σ → Prop) : σ → List τ → σ → Prop where
  | nil (s : σ) : Run step s [] s
  | snoc {s t u : σ} {labels : List τ} {label : τ} (path : Run step s labels t)
      (taken : step t label u) : Run step s (labels ++ [label]) u

namespace Run

variable {step : σ → τ → σ → Prop} {s t u : σ} {labels more : List τ}

theorem append (first : Run step s labels t) (second : Run step t more u) :
    Run step s (labels ++ more) u := by
  induction second with
  | nil => simpa using first
  | snoc _ taken ih =>
      rw [← List.append_assoc]
      exact .snoc ih taken

theorem single {label : τ} (taken : step s label t) : Run step s [label] t := by
  simpa using Run.snoc (.nil s) taken

/-- A property of a state and of the labels so far, kept by every step, holds at
the end of the run. -/
theorem measure {I : List τ → σ → Prop} (path : Run step s labels t) (initially : I [] s)
    (preserved : ∀ labels a label b, I labels a → step a label b →
      I (labels ++ [label]) b) : I labels t := by
  induction path with
  | nil => exact initially
  | snoc _ taken ih => exact preserved _ _ _ _ ih taken

/-- A property of states alone kept by every step. -/
theorem invariant {I : σ → Prop} (path : Run step s labels t) (initially : I s)
    (preserved : ∀ a label b, I a → step a label b → I b) : I t :=
  path.measure (I := fun _ => I) initially fun _ a label b => preserved a label b

/-- Executing a list of admitted actions one after the other. -/
theorem execute {ε : Type} {act : σ → τ → Except ε σ} {admitted : τ → Prop}
    (steps : ∀ s a t, admitted a → act s a = .ok t → step s a t) {actions : List τ}
    (all : ∀ a ∈ actions, admitted a) (done : actions.foldlM act s = .ok t) :
    Run step s actions t := by
  induction actions generalizing s with
  | nil =>
      cases done
      exact .nil _
  | cons a rest ih =>
      rw [List.foldlM_cons] at done
      cases taken : act s a with
      | error why =>
          rw [taken] at done
          cases done
      | ok u =>
          rw [taken] at done
          exact (single (steps s a u (all a (.head _)) taken)).append
            (ih (fun b later => all b (.tail _ later)) done)

/-- Executing a list of actions that may be disabled. -/
theorem of_foldlM {act : σ → τ → Option σ}
    (steps : ∀ s a t, act s a = some t → step s a t) {actions : List τ}
    (done : actions.foldlM act s = some t) : Run step s actions t := by
  induction actions generalizing s with
  | nil =>
      cases done
      exact .nil _
  | cons a rest ih =>
      rw [List.foldlM_cons, Option.bind_eq_bind, Option.bind_eq_some_iff] at done
      rcases done with ⟨u, taken, done⟩
      exact (single (steps s a u taken)).append (ih done)

/-- Executing actions that are tested in the state they find. -/
theorem of_tested {act : σ → τ → Option σ} {test P : σ → τ → Prop}
    [∀ s a, Decidable (test s a)] (passes : ∀ s a, test s a → P s a) {actions : List τ}
    (done : actions.foldlM (fun s a => if test s a then act s a else none) s = some t) :
    Run (fun s a t => P s a ∧ act s a = some t) s actions t := by
  apply of_foldlM _ done
  intro s a t taken
  rw [Option.ite_none_right_eq_some] at taken
  exact ⟨passes s a taken.1, taken.2⟩

/-- A run of executed steps is the execution of its labels. -/
theorem foldlM_eq {ε : Type} {act : σ → τ → Except ε σ}
    (executed : ∀ s a t, step s a t → act s a = .ok t) (path : Run step s labels t) :
    labels.foldlM act s = .ok t := by
  induction path with
  | nil => rfl
  | snoc _ taken ih =>
      rw [List.foldlM_append, ih]
      simp only [List.foldlM_cons, List.foldlM_nil, bind, Except.bind, executed _ _ _ taken]
      rfl

end Run

end OverUnder.Library
