import TorE2EE.Foundation.Machine

/-!
# Traces of runs

`Traced` collects the states of all runs of a machine together with what the steps of the run have
emitted. `Since` is the question a state often answers about its past: whether something has begun
and has not been ended since. `since_concat` says how the answer changes with one more event, which is
what an invariant between a state and its trace needs.
-/

set_option autoImplicit false

namespace TorE2EE.Foundation

universe u v w

variable {σ : Type u} {α : Type v} {ε : Type w}

/-- The states of the runs from `s₀`, with what their steps have emitted, the last at the end. -/
inductive Traced (step : σ → α → Option σ) (emit : σ → α → Option ε) (s₀ : σ) :
    List ε → σ → Prop where
  | start : Traced step emit s₀ [] s₀
  | step {trace : List ε} {s s' : σ} (a : α) : Traced step emit s₀ trace s → step s a = some s' →
      Traced step emit s₀ (trace ++ (emit s a).toList) s'

namespace Traced

variable {step : σ → α → Option σ} {emit : σ → α → Option ε} {s₀ s : σ} {trace : List ε}

theorem reachable (h : Traced step emit s₀ trace s) :
    Reachable step (fun _ _ => True) s₀ s := by
  induction h with
  | start => exact .start
  | step a _ hs ih => exact ih.step a trivial hs

/-- A relation of trace and state that holds at the start and that every step keeps. -/
theorem invariant {p : List ε → σ → Prop} (h : Traced step emit s₀ trace s) (hstart : p [] s₀)
    (hstep : ∀ trace s s' a, Traced step emit s₀ trace s → p trace s → step s a = some s' →
      p (trace ++ (emit s a).toList) s') : p trace s := by
  -- on the run; the step may use that the trace before it is one
  induction h with
  | start => exact hstart
  | step a htraced hs ih => exact hstep _ _ _ a htraced ih hs

/-- What a list of actions emits, with the state it leads to when all of them can be taken. -/
def collect (step : σ → α → Option σ) (emit : σ → α → Option ε) :
    List α → List ε → σ → Option (List ε × σ)
  | [], trace, s => some (trace, s)
  | a :: actions, trace, s =>
      (step s a).bind fun t => collect step emit actions (trace ++ (emit s a).toList) t

theorem of_collect {actions : List α} {trace' : List ε} {s' : σ}
    (h : Traced step emit s₀ trace s)
    (hrun : collect step emit actions trace s = some (trace', s')) :
    Traced step emit s₀ trace' s' := by
  induction actions generalizing trace s with
  | nil =>
      cases hrun
      exact h
  | cons a actions ih =>
      obtain ⟨t, hs, hrest⟩ := Option.bind_eq_some_iff.1 hrun
      exact ih (h.step a hs) hrest

end Traced

/-- An event of the trace begins something, and no event after it ends it. -/
def Since (begins ends : ε → Prop) (trace : List ε) : Prop :=
  ∃ before e later, trace = before ++ e :: later ∧ begins e ∧ ∀ e' ∈ later, ¬ ends e'

variable {begins ends : ε → Prop} {trace : List ε}

theorem not_since_nil : ¬ Since begins ends ([] : List ε) := by
  rintro ⟨before, e, later, htrace, -⟩
  cases before <;> cases htrace

/-- One more event begins it, or it has begun before and the event does not end it. -/
theorem since_concat {e : ε} :
    Since begins ends (trace ++ [e]) ↔ begins e ∨ (Since begins ends trace ∧ ¬ ends e) := by
  constructor
  · rintro ⟨before, e', later, htrace, hbegins, hlater⟩
    -- the event that begins it is the last one, or an earlier one
    rcases List.eq_nil_or_concat later with rfl | ⟨init, last, rfl⟩
    · obtain ⟨-, hlast⟩ := List.append_inj' htrace rfl
      cases hlast
      exact Or.inl hbegins
    · rw [List.concat_eq_append, ← List.cons_append, ← List.append_assoc] at htrace
      obtain ⟨rfl, hlast⟩ := List.append_inj' htrace rfl
      cases hlast
      rw [List.concat_eq_append, List.forall_mem_append] at hlater
      exact Or.inr ⟨⟨before, e', init, rfl, hbegins, hlater.1⟩, hlater.2 e List.mem_cons_self⟩
  · rintro (hbegins | ⟨⟨before, e', later, rfl, hbegins, hlater⟩, hends⟩)
    · exact ⟨trace, e, [], rfl, hbegins, fun _ h => absurd h List.not_mem_nil⟩
    · refine ⟨before, e', later ++ [e], by simp, hbegins, ?_⟩
      rw [List.forall_mem_append]
      exact ⟨hlater, List.forall_mem_singleton.2 hends⟩

/-- The same for a step that emits at most one event. -/
theorem since_append_toList {o : Option ε} :
    Since begins ends (trace ++ o.toList) ↔
      (∃ e, o = some e ∧ begins e) ∨ (Since begins ends trace ∧ ∀ e, o = some e → ¬ ends e) := by
  cases o with
  | none => simp
  | some e => simp [since_concat]

end TorE2EE.Foundation
