import Mathlib.Tactic.Common

/-!
# Machines and their runs

A machine is a partial step function: an action of a state leads to one next state, or cannot be
taken. `Reachable` collects the states of all runs whose steps satisfy a condition on the state
before the step, and `Reachable.invariant` is the rule for a property of all of them.
-/

set_option autoImplicit false

namespace TorE2EE.Foundation

universe u v

variable {σ : Type u} {α : Type v}

/-- The states of the runs from `s₀` in which every step is `allowed`. -/
inductive Reachable (step : σ → α → Option σ) (allowed : σ → α → Prop) (s₀ : σ) : σ → Prop where
  | start : Reachable step allowed s₀ s₀
  | step {s s' : σ} (a : α) : Reachable step allowed s₀ s → allowed s a → step s a = some s' →
      Reachable step allowed s₀ s'

/-- The state after a list of actions, when each of them can be taken. -/
def runActions (step : σ → α → Option σ) : List α → σ → Option σ
  | [], s => some s
  | a :: actions, s => (step s a).bind (runActions step actions)

/-- The actions can be taken from `s` one after another, each of them allowed, and lead to `s'`. -/
def AllowedRun (step : σ → α → Option σ) (allowed : σ → α → Prop) : List α → σ → σ → Prop
  | [], s, s' => s = s'
  | a :: actions, s, s' =>
      allowed s a ∧ ∃ t, step s a = some t ∧ AllowedRun step allowed actions t s'

variable {step : σ → α → Option σ} {allowed allowed' : σ → α → Prop} {s₀ s : σ}

theorem runActions_append (actions actions' : List α) (s : σ) :
    runActions step (actions ++ actions') s =
      (runActions step actions s).bind (runActions step actions') := by
  induction actions generalizing s with
  | nil => rfl
  | cons a actions ih =>
      simp only [List.cons_append, runActions, Option.bind_assoc]
      congr 1
      funext t
      exact ih t

namespace Reachable

/-- A property of the first state that every allowed step keeps holds of every reachable state. -/
theorem invariant {p : σ → Prop} (h : Reachable step allowed s₀ s) (hstart : p s₀)
    (hstep : ∀ s s' a, p s → allowed s a → step s a = some s' → p s') : p s := by
  induction h with
  | start => exact hstart
  | step a _ ha hs ih => exact hstep _ _ a ih ha hs

/-- Every run of a list of actions that are always allowed ends in a reachable state. -/
theorem of_runActions {s' : σ} {actions : List α} (hall : ∀ a ∈ actions, ∀ s, allowed s a)
    (h : Reachable step allowed s₀ s) (hrun : runActions step actions s = some s') :
    Reachable step allowed s₀ s' := by
  induction actions generalizing s with
  | nil =>
      cases hrun
      exact h
  | cons a actions ih =>
      obtain ⟨t, hs, hrest⟩ := Option.bind_eq_some_iff.1 hrun
      have ha := hall a List.mem_cons_self s
      exact ih (fun a' ha' => hall a' (List.mem_cons_of_mem _ ha')) (h.step a ha hs) hrest

/-- An allowed run ends in a reachable state. -/
theorem of_allowedRun {s' : σ} {actions : List α} (h : Reachable step allowed s₀ s)
    (hrun : AllowedRun step allowed actions s s') : Reachable step allowed s₀ s' := by
  induction actions generalizing s with
  | nil =>
      cases hrun
      exact h
  | cons a actions ih =>
      obtain ⟨ha, t, hs, hrest⟩ := hrun
      exact ih (h.step a ha hs) hrest

end Reachable

end TorE2EE.Foundation
