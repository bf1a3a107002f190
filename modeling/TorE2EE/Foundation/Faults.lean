import TorE2EE.Foundation.Program

/-!
# Programs whose operations may fail

The operations here answer with a value or with an error. Besides the errors that a handler answers
with, any operation may fail for reasons of its own, which leaves the state as it is, and the process
may stop before any operation. A list of `Turn`s says how the operations of a run go, one after
another; where the list ends the process stops (`Program.runFaulty`).

`Program.Robust` is the invariant rule: what holds at every point of every such run in which an
operation fails only in the states in which it `may`. `Robust.runFaulty` is its use, and
`robust_bind` and `robust_attempt` build it.
-/

set_option autoImplicit false

namespace TorE2EE.Foundation

universe u

/-- The answer of an operation that may fail. -/
abbrev Answer {Op : Type u} (Ans : Op → Type u) (ε : Type u) (o : Op) : Type u := Except ε (Ans o)

/-- How an operation goes: it is performed, or it fails without an effect. -/
inductive Turn (ε : Type u) where
  | performed
  | failed (error : ε)

namespace Program

variable {Op : Type u} {Ans : Op → Type u} {ε α β σ : Type u}

/-- Perform an operation, and throw the error it answers with. -/
def attempt (o : Op) : Program Op (Answer Ans ε) ε (Ans o) := call o ofExcept

/-- The run of a program along a list of turns: its outcome when it ends, and the state it leaves. -/
def runFaulty (h : Handler Op (Answer Ans ε) σ) :
    List (Turn ε) → Program Op (Answer Ans ε) ε α → σ → Option (Except ε α) × σ
  | _, ret a, s => (some (.ok a), s)
  | _, throw e, s => (some (.error e), s)
  | [], call _ _, s => (none, s)
  | .performed :: turns, call o next, s => runFaulty h turns (next (h o s).1) (h o s).2
  | .failed e :: turns, call _ next, s => runFaulty h turns (next (.error e)) s

/-- Along the turns, operations fail only in states in which they may. -/
def FailsOnly (h : Handler Op (Answer Ans ε) σ) (may : Op → σ → Prop) :
    List (Turn ε) → Program Op (Answer Ans ε) ε α → σ → Prop
  | _, ret _, _ => True
  | _, throw _, _ => True
  | [], call _ _, _ => True
  | .performed :: turns, call o next, s => FailsOnly h may turns (next (h o s).1) (h o s).2
  | .failed e :: turns, call o next, s => may o s ∧ FailsOnly h may turns (next (.error e)) s

/-- At every point of every run from `s` whose operations fail only where they may, the state is in
`inv`, and the value returned is in `q`. -/
def Robust (h : Handler Op (Answer Ans ε) σ) (may : Op → σ → Prop) (inv : σ → Prop)
    (q : α → σ → Prop) : Program Op (Answer Ans ε) ε α → σ → Prop
  | ret a, s => inv s ∧ q a s
  | throw _, s => inv s
  | call o next, s =>
      inv s ∧ (next (h o s).1).Robust h may inv q (h o s).2 ∧
        (may o s → ∀ e, (next (.error e)).Robust h may inv q s)

variable {h : Handler Op (Answer Ans ε) σ} {may : Op → σ → Prop} {inv : σ → Prop}
  {q : α → σ → Prop} {q' : β → σ → Prop}

/-- Wherever a run stops, the state is in the invariant. -/
theorem Robust.runFaulty {p : Program Op (Answer Ans ε) ε α} {turns : List (Turn ε)} {s : σ}
    (hp : p.Robust h may inv q s) (hfails : p.FailsOnly h may turns s) :
    inv (p.runFaulty h turns s).2 := by
  -- on the program; the turns decide which of its branches is taken
  induction p generalizing turns s with
  | ret a => cases turns <;> exact hp.1
  | throw e => cases turns <;> exact hp
  | call o next ih =>
      obtain ⟨hinv, hperformed, hfailed⟩ := hp
      cases turns with
      | nil => exact hinv
      | cons turn turns =>
          cases turn with
          | performed => exact ih _ hperformed hfails
          | failed e => exact ih _ (hfailed hfails.1 e) hfails.2

/-- A run without failures ends in the invariant, with a value as promised. -/
theorem Robust.run {p : Program Op (Answer Ans ε) ε α} {s : σ} (hp : p.Robust h may inv q s) :
    inv (p.run h s).2 ∧ ∀ a, (p.run h s).1 = .ok a → q a (p.run h s).2 := by
  induction p generalizing s with
  | ret a =>
      refine ⟨hp.1, ?_⟩
      rintro _ ⟨⟩
      exact hp.2
  | throw e => exact ⟨hp, fun a ha => by cases ha⟩
  | call o next ih => exact ih _ hp.2.1

theorem Robust.imp {q₁ : α → σ → Prop} {p : Program Op (Answer Ans ε) ε α} {s : σ}
    (hp : p.Robust h may inv q s) (hq : ∀ a t, inv t → q a t → q₁ a t) :
    p.Robust h may inv q₁ s := by
  induction p generalizing s with
  | ret a => exact ⟨hp.1, hq a s hp.1 hp.2⟩
  | throw e => exact hp
  | call o next ih =>
      obtain ⟨hinv, hperformed, hfailed⟩ := hp
      exact ⟨hinv, ih _ hperformed, fun hmay e => ih _ (hfailed hmay e)⟩

theorem robust_pure {a : α} {s : σ} (hinv : inv s) (hq : q a s) :
    (pure a : Program Op (Answer Ans ε) ε α).Robust h may inv q s := ⟨hinv, hq⟩

/-- A sequence is robust when its second part is, from every state the first may leave. -/
theorem robust_bind {p : Program Op (Answer Ans ε) ε α} {f : α → Program Op (Answer Ans ε) ε β}
    {s : σ} (hp : p.Robust h may inv q s)
    (hf : ∀ a t, inv t → q a t → (f a).Robust h may inv q' t) :
    (p >>= f).Robust h may inv q' s := by
  show (p.bind f).Robust h may inv q' s
  -- on the first part, whose last state is a state of the invariant with its value as promised
  induction p generalizing s with
  | ret a => exact hf a s hp.1 hp.2
  | throw e => exact hp
  | call o next ih =>
      obtain ⟨hinv, hperformed, hfailed⟩ := hp
      exact ⟨hinv, ih _ hperformed, fun hmay e => ih _ (hfailed hmay e)⟩

/-- One operation: a failure leaves the state, which is in the invariant. -/
theorem robust_attempt {o : Op} {q : Ans o → σ → Prop} {s : σ} (hinv : inv s)
    (hnext : inv (h o s).2) (hq : ∀ a, (h o s).1 = .ok a → q a (h o s).2) :
    (attempt o : Program Op (Answer Ans ε) ε (Ans o)).Robust h may inv q s := by
  refine ⟨hinv, ?_, fun _ _ => hinv⟩
  cases hanswer : (h o s).1 with
  | error e => exact hnext
  | ok a => exact ⟨hnext, hq a hanswer⟩

/-- One operation whose errors are caught, its own and the failures: afterwards `q` holds if it holds
after the operation and wherever it may fail. -/
theorem robust_catchError {o : Op} {q : Except ε (Ans o) → σ → Prop} {s : σ} (hinv : inv s)
    (hnext : inv (h o s).2) (hq : q (h o s).1 (h o s).2) (hfail : may o s → ∀ e, q (.error e) s) :
    ((attempt o : Program Op (Answer Ans ε) ε (Ans o)).catchError :
      Program Op (Answer Ans ε) ε (Except ε (Ans o))).Robust h may inv q s := by
  refine ⟨hinv, ?_, fun hmay e => ⟨hinv, hfail hmay e⟩⟩
  cases hanswer : (h o s).1 with
  | error e => exact ⟨hnext, hanswer ▸ hq⟩
  | ok a => exact ⟨hnext, hanswer ▸ hq⟩

/-- Without failures the program returns. -/
def Returns (h : Handler Op (Answer Ans ε) σ) (p : Program Op (Answer Ans ε) ε α) (s : σ) : Prop :=
  ∃ a, (p.run h s).1 = .ok a

theorem returns_pure (a : α) (s : σ) : (pure a : Program Op (Answer Ans ε) ε α).Returns h s :=
  ⟨a, rfl⟩

theorem returns_attempt {o : Op} {a : Ans o} {s : σ} (hanswer : (h o s).1 = .ok a) :
    (attempt o : Program Op (Answer Ans ε) ε (Ans o)).Returns h s := by
  refine ⟨a, ?_⟩
  show ((ofExcept (h o s).1 : Program Op (Answer Ans ε) ε (Ans o)).run h _).1 = _
  rw [hanswer]
  rfl

theorem returns_catchError {ε' : Type u} (p : Program Op (Answer Ans ε) ε α) (s : σ) :
    ∃ a, ((p.catchError : Program Op (Answer Ans ε) ε' (Except ε α)).run h s).1 = .ok a :=
  ⟨_, by rw [run_catchError]⟩

/-- A sequence returns when its first part does, and its second from every state the first may
leave. -/
theorem returns_bind {p : Program Op (Answer Ans ε) ε α} {f : α → Program Op (Answer Ans ε) ε β}
    {s : σ} (hp : p.Robust h may inv q s) (hreturns : p.Returns h s)
    (hf : ∀ a t, inv t → q a t → (f a).Returns h t) : (p >>= f).Returns h s := by
  obtain ⟨a, ha⟩ := hreturns
  -- the first part ends in a state from which the second returns
  obtain ⟨hinv, hq⟩ := hp.run
  have hrun : p.run h s = (.ok a, (p.run h s).2) := Prod.ext ha rfl
  obtain ⟨b, hb⟩ := hf a _ hinv (hq a ha)
  exact ⟨b, by rw [run_bind_of_ok h hrun]; exact hb⟩

end Program

end TorE2EE.Foundation
