import Mathlib.Tactic.Common

/-!
# Programs over atomic operations

A `Program` is a finite tree of atomic operations: it returns, throws, or performs one operation
and continues with the answer. The tree says what a program does between two operations and
nothing about the state they act on, so one program has several readings: run to the end on a
state (`Program.run`), or cut open after every operation and interleaved with other programs.

The rules below are the ones a proof about a run needs: how `run` meets `bind`
(`Program.run_bind`), its two one-sided forms, and the invariant rule (`Program.run_preserves`).
-/

set_option autoImplicit false

namespace TorE2EE.Foundation

universe u

/-! ## Computations without operations -/

/-- A sequence succeeds when both its parts do. -/
theorem bind_eq_ok {ε α β : Type u} {x : Except ε α} {f : α → Except ε β} {b : β} :
    x >>= f = .ok b ↔ ∃ a, x = .ok a ∧ f a = .ok b := by
  cases x with
  | error e => simp [bind, Except.bind]
  | ok a => simp [bind, Except.bind]

theorem mapError_eq_ok {ε ε' α : Type u} {f : ε → ε'} {x : Except ε α} {a : α} :
    x.mapError f = .ok a ↔ x = .ok a := by
  cases x with
  | error e => simp [Except.mapError]
  | ok b => simp [Except.mapError]

/-! ## Programs -/

/-- A program over operations `Op`, where `Resp o` is the type of the answer to `o`. -/
inductive Program (Op : Type u) (Resp : Op → Type u) (ε α : Type u) : Type u where
  | ret (a : α)
  | throw (e : ε)
  | call (o : Op) (next : Resp o → Program Op Resp ε α)

/-- What every operation does to a state, and what it answers. -/
abbrev Handler (Op : Type u) (Resp : Op → Type u) (σ : Type u) : Type u :=
  (o : Op) → σ → Resp o × σ

namespace Program

variable {Op : Type u} {Resp : Op → Type u} {ε α β σ : Type u}

/-- Sequencing: the continuation runs on the value returned, a throw ends the program. -/
def bind : Program Op Resp ε α → (α → Program Op Resp ε β) → Program Op Resp ε β
  | ret a, f => f a
  | throw e, _ => throw e
  | call o next, f => call o fun r => (next r).bind f

instance : Monad (Program Op Resp ε) where
  pure := ret
  bind := bind

/-- A computation without operations that may fail. -/
def ofExcept : Except ε α → Program Op Resp ε α
  | .ok a => ret a
  | .error e => throw e

/-- One operation, answered. -/
def perform (o : Op) : Program Op Resp ε (Resp o) := call o ret

/-- A program that does not throw: it returns the outcome of `p`, and what `p` did stays done. -/
def catchError {ε' : Type u} : Program Op Resp ε α → Program Op Resp ε' (Except ε α)
  | ret a => ret (.ok a)
  | throw e => ret (.error e)
  | call o next => call o fun r => (next r).catchError

/-- A program over other operations: `f` performs each operation and `err` renames the errors. -/
def translate {Op' : Type u} {Resp' : Op' → Type u} {ε' : Type u}
    (f : (o : Op) → Program Op' Resp' ε' (Resp o)) (err : ε → ε') :
    Program Op Resp ε α → Program Op' Resp' ε' α
  | ret a => ret a
  | throw e => throw (err e)
  | call o next => (f o).bind fun r => (next r).translate f err

/-- The run of a program from a state: its outcome and the state it leaves. The state left by a
throw is the one the operations before it produced. -/
def run (h : Handler Op Resp σ) : Program Op Resp ε α → σ → Except ε α × σ
  | ret a, s => (.ok a, s)
  | throw e, s => (.error e, s)
  | call o next, s => (next (h o s).1).run h (h o s).2

variable (h : Handler Op Resp σ)

@[simp] theorem run_ret (a : α) (s : σ) :
    (ret a : Program Op Resp ε α).run h s = (.ok a, s) := rfl

@[simp] theorem run_pure (a : α) (s : σ) :
    (pure a : Program Op Resp ε α).run h s = (.ok a, s) := rfl

@[simp] theorem run_throw (e : ε) (s : σ) :
    (throw e : Program Op Resp ε α).run h s = (.error e, s) := rfl

@[simp] theorem run_call (o : Op) (next : Resp o → Program Op Resp ε α) (s : σ) :
    (call o next).run h s = (next (h o s).1).run h (h o s).2 := rfl

@[simp] theorem run_perform (o : Op) (s : σ) :
    (perform o : Program Op Resp ε (Resp o)).run h s = (.ok (h o s).1, (h o s).2) := rfl

@[simp] theorem run_ofExcept (r : Except ε α) (s : σ) :
    (ofExcept r : Program Op Resp ε α).run h s = (r, s) := by
  cases r <;> rfl

/-- The run of a sequence is the run of its first part, continued when that part returns. -/
theorem run_bind (p : Program Op Resp ε α) (f : α → Program Op Resp ε β) (s : σ) :
    (p >>= f).run h s =
      match p.run h s with
      | (.ok a, t) => (f a).run h t
      | (.error e, t) => (.error e, t) := by
  show (p.bind f).run h s = _
  induction p generalizing s with
  | ret a => rfl
  | throw e => rfl
  | call o next ih => exact ih (h o s).1 (h o s).2

theorem run_bind_of_ok {p : Program Op Resp ε α} {s t : σ} {a : α}
    (hp : p.run h s = (.ok a, t)) (f : α → Program Op Resp ε β) :
    (p >>= f).run h s = (f a).run h t := by
  rw [run_bind, hp]

theorem run_bind_of_error {p : Program Op Resp ε α} {s t : σ} {e : ε}
    (hp : p.run h s = (.error e, t)) (f : α → Program Op Resp ε β) :
    (p >>= f).run h s = (.error e, t) := by
  rw [run_bind, hp]

/-- A pure last step acts on the value returned. -/
theorem run_bind_pure (p : Program Op Resp ε α) (f : α → β) (s : σ) :
    (p >>= fun a => (pure (f a) : Program Op Resp ε β)).run h s =
      ((p.run h s).1.map f, (p.run h s).2) := by
  rw [run_bind]
  rcases p.run h s with ⟨_ | _, _⟩ <;> rfl

@[simp] theorem run_pure_bind (a : α) (f : α → Program Op Resp ε β) (s : σ) :
    ((pure a : Program Op Resp ε α) >>= f).run h s = (f a).run h s := rfl

@[simp] theorem run_throw_bind (e : ε) (f : α → Program Op Resp ε β) (s : σ) :
    ((throw e : Program Op Resp ε α) >>= f).run h s = (.error e, s) := rfl

@[simp] theorem run_perform_bind (o : Op) (f : Resp o → Program Op Resp ε β) (s : σ) :
    ((perform o : Program Op Resp ε (Resp o)) >>= f).run h s =
      (f (h o s).1).run h (h o s).2 := rfl

@[simp] theorem run_ofExcept_ok_bind (a : α) (f : α → Program Op Resp ε β) (s : σ) :
    ((ofExcept (.ok a) : Program Op Resp ε α) >>= f).run h s = (f a).run h s := rfl

@[simp] theorem run_ofExcept_error_bind (e : ε) (f : α → Program Op Resp ε β) (s : σ) :
    ((ofExcept (.error e) : Program Op Resp ε α) >>= f).run h s = (.error e, s) := rfl

@[simp] theorem run_catchError {ε' : Type u} (p : Program Op Resp ε α) (s : σ) :
    (p.catchError : Program Op Resp ε' (Except ε α)).run h s = (.ok (p.run h s).1, (p.run h s).2) := by
  induction p generalizing s with
  | ret a => rfl
  | throw e => rfl
  | call o next ih => exact ih _ _

theorem bind_assoc {γ : Type u} (p : Program Op Resp ε α) (f : α → Program Op Resp ε β)
    (g : β → Program Op Resp ε γ) : (p.bind f).bind g = p.bind fun a => (f a).bind g := by
  induction p with
  | ret a => rfl
  | throw e => rfl
  | call o next ih =>
      show call o (fun r => ((next r).bind f).bind g) = call o _
      congr 1
      funext r
      exact ih r

theorem translate_bind {Op' : Type u} {Resp' : Op' → Type u} {ε' : Type u} (p : Program Op Resp ε α)
    (f : α → Program Op Resp ε β) (t : (o : Op) → Program Op' Resp' ε' (Resp o)) (err : ε → ε') :
    (p >>= f).translate t err = p.translate t err >>= fun a => (f a).translate t err := by
  show (p.bind f).translate t err = (p.translate t err).bind _
  induction p with
  | ret a => rfl
  | throw e => rfl
  | call o next ih =>
      show (t o).bind (fun r => ((next r).bind f).translate t err) =
        ((t o).bind fun r => (next r).translate t err).bind _
      rw [bind_assoc]
      congr 1
      funext r
      exact ih r

/-- The run of a translated program on a state with a part `get s`, when every operation is
performed on that part alone. -/
theorem run_translate {Op' : Type u} {Resp' : Op' → Type u} {ε' τ : Type u}
    {h' : Handler Op' Resp' τ} {f : (o : Op) → Program Op' Resp' ε' (Resp o)} {err : ε → ε'}
    (get : τ → σ) (set : σ → τ → τ) (hget : ∀ s t, get (set s t) = s)
    (hset : ∀ s s' t, set s (set s' t) = set s t) (hself : ∀ t, set (get t) t = t)
    (hf : ∀ o t, (f o).run h' t = (.ok (h o (get t)).1, set (h o (get t)).2 t))
    (p : Program Op Resp ε α) (t : τ) :
    (p.translate f err).run h' t =
      ((p.run h (get t)).1.mapError err, set (p.run h (get t)).2 t) := by
  induction p generalizing t with
  | ret a => exact Prod.ext rfl (hself t).symm
  | throw e => exact Prod.ext rfl (hself t).symm
  | call o next ih =>
      show (f o >>= fun r => (next r).translate f err).run h' t = _
      rw [run_bind_of_ok h' (hf o t), ih, hget, hset]
      rfl

/-- A relation between the first and the last state of a run that every operation keeps is kept
by the run. -/
theorem run_preserves {r : σ → σ → Prop} (hrefl : ∀ s, r s s)
    (htrans : ∀ s t u, r s t → r t u → r s u) (hstep : ∀ o s, r s (h o s).2)
    (p : Program Op Resp ε α) (s : σ) : r s (p.run h s).2 := by
  induction p generalizing s with
  | ret a => exact hrefl s
  | throw e => exact hrefl s
  | call o next ih => exact htrans s _ _ (hstep o s) (ih _ _)

/-- A map of states that answers every operation alike answers every program alike. -/
theorem run_simulation {τ : Type u} {h' : Handler Op Resp τ} {f : σ → τ}
    (hf : ∀ o s, h' o (f s) = ((h o s).1, f (h o s).2)) (p : Program Op Resp ε α) (s : σ) :
    p.run h' (f s) = ((p.run h s).1, f (p.run h s).2) := by
  induction p generalizing s with
  | ret a => rfl
  | throw e => rfl
  | call o next ih =>
      rw [run_call, run_call, hf]
      exact ih _ _

/-! ## Invariants with results -/

/-- The program keeps the invariant `p`, and every value it returns satisfies `q`. -/
def Ensures (p : σ → Prop) (c : Program Op Resp ε α) (q : α → Prop) : Prop :=
  ∀ s, p s → p (c.run h s).2 ∧ ∀ a, (c.run h s).1 = .ok a → q a

variable {h} {p : σ → Prop}

theorem ensures_pure {q : α → Prop} {a : α} (ha : q a) :
    Ensures h p (pure a : Program Op Resp ε α) q := by
  intro s hs
  refine ⟨hs, ?_⟩
  rintro _ ⟨⟩
  exact ha

theorem ensures_throw {q : α → Prop} (e : ε) :
    Ensures h p (throw e : Program Op Resp ε α) q := by
  intro s hs
  exact ⟨hs, fun a ha => by cases ha⟩

theorem ensures_ofExcept {q : α → Prop} {r : Except ε α} (hr : ∀ a, r = .ok a → q a) :
    Ensures h p (ofExcept r : Program Op Resp ε α) q := by
  intro s hs
  rw [run_ofExcept]
  exact ⟨hs, hr⟩

theorem ensures_perform {o : Op} {q : Resp o → Prop} (hkeep : ∀ s, p s → p (h o s).2)
    (hq : ∀ s, p s → q (h o s).1) : Ensures h p (perform o : Program Op Resp ε (Resp o)) q := by
  intro s hs
  refine ⟨hkeep s hs, ?_⟩
  rintro _ ⟨⟩
  exact hq s hs

/-- A sequence whose first part is known from one state only. -/
theorem run_bind_ensures {q : α → Prop} {r : β → Prop} {c : Program Op Resp ε α}
    {f : α → Program Op Resp ε β} {s : σ}
    (hc : p (c.run h s).2 ∧ ∀ a, (c.run h s).1 = .ok a → q a)
    (hf : ∀ a, q a → Ensures h p (f a) r) :
    p ((c >>= f).run h s).2 ∧ ∀ b, ((c >>= f).run h s).1 = .ok b → r b := by
  obtain ⟨hkept, hresult⟩ := hc
  rw [run_bind]
  rcases hrun : c.run h s with ⟨outcome, t⟩
  rw [hrun] at hkept hresult
  cases outcome with
  | error e => exact ⟨hkept, fun a ha => by cases ha⟩
  | ok a => exact hf a (hresult a rfl) t hkept

theorem ensures_bind {q : α → Prop} {q' : β → Prop} {c : Program Op Resp ε α}
    {f : α → Program Op Resp ε β} (hc : Ensures h p c q) (hf : ∀ a, q a → Ensures h p (f a) q') :
    Ensures h p (c >>= f) q' :=
  fun s hs => run_bind_ensures (hc s hs) hf

theorem ensures_catchError {ε' : Type u} {q : α → Prop} {c : Program Op Resp ε α}
    (hc : Ensures h p c q) :
    Ensures h p (c.catchError : Program Op Resp ε' (Except ε α)) fun r => ∀ a, r = .ok a → q a := by
  intro s hs
  rw [run_catchError]
  refine ⟨(hc s hs).1, ?_⟩
  rintro _ ⟨⟩
  exact (hc s hs).2

end Program

end TorE2EE.Foundation
