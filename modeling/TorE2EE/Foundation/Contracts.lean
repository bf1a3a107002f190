import TorE2EE.Foundation.Program

/-!
# Programs under a contract

A contract says which operations a program may perform and what it may rely on in their answers.
`Program.Obeys` is a property of the program alone; `Program.Obeys.run` turns it into an invariant
of every handler that answers as the contract promises.

The operations of a `FallibleHandler` may throw, and `Program.tryRun` runs a program over one.
`Program.Obeys.tryRun_eq` is the refinement rule: where the fallible handler does on the image of a
state what the handler does on the state itself, for the operations and states of the contract, the
two runs of every program that obeys it agree.
-/

set_option autoImplicit false

namespace TorE2EE.Foundation

universe u

/-- The operations a program may perform, and the answers it may rely on. -/
structure Contract (Op : Type u) (Resp : Op → Type u) where
  may : Op → Prop
  answers : (o : Op) → Resp o → Prop

/-- What every operation does to a state, and what it answers or throws. -/
abbrev FallibleHandler (Op : Type u) (Resp : Op → Type u) (ε σ : Type u) : Type u :=
  (o : Op) → σ → Except ε (Resp o) × σ

variable {Op : Type u} {Resp : Op → Type u} {ε α β σ τ : Type u}

/-- The handler keeps an invariant under the operations of the contract, and answers in it as the
contract promises. -/
def Contract.Kept (c : Contract Op Resp) (h : Handler Op Resp σ) (inv : σ → Prop) : Prop :=
  ∀ o s, c.may o → inv s → inv (h o s).2 ∧ c.answers o (h o s).1

namespace Program

/-- With answers as the contract promises, the program performs only operations it may perform, and
the value it returns is in `q`. -/
def Obeys (c : Contract Op Resp) (q : α → Prop) : Program Op Resp ε α → Prop
  | ret a => q a
  | throw _ => True
  | call o next => c.may o ∧ ∀ r, c.answers o r → (next r).Obeys c q

/-- The run over operations that may throw; such a throw ends the program. -/
def tryRun (h : FallibleHandler Op Resp ε σ) : Program Op Resp ε α → σ → Except ε α × σ
  | ret a, s => (.ok a, s)
  | throw e, s => (.error e, s)
  | call o next, s =>
      match h o s with
      | (.ok r, t) => (next r).tryRun h t
      | (.error e, t) => (.error e, t)

variable {c : Contract Op Resp} {q : α → Prop}

theorem obeys_throw (e : ε) : (throw e : Program Op Resp ε α).Obeys c q := trivial

theorem obeys_ofExcept {r : Except ε α} (hr : ∀ a, r = .ok a → q a) :
    (ofExcept r : Program Op Resp ε α).Obeys c q := by
  cases r with
  | ok a => exact hr a rfl
  | error e => exact obeys_throw e

theorem obeys_perform {o : Op} (ho : c.may o) :
    (perform o : Program Op Resp ε (Resp o)).Obeys c (c.answers o) :=
  ⟨ho, fun _ hr => hr⟩

theorem obeys_bind {q' : β → Prop} {p : Program Op Resp ε α} {f : α → Program Op Resp ε β}
    (hp : p.Obeys c q) (hf : ∀ a, q a → (f a).Obeys c q') : (p >>= f).Obeys c q' := by
  show (p.bind f).Obeys c q'
  induction p with
  | ret a => exact hf a hp
  | throw e => exact obeys_throw e
  | call o next ih =>
      obtain ⟨ho, hnext⟩ := hp
      exact ⟨ho, fun r hr => ih r (hnext r hr)⟩

/-- A program keeps to every contract that allows more and promises no less. -/
theorem Obeys.mono {c' : Contract Op Resp} {q' : α → Prop} {p : Program Op Resp ε α}
    (hp : p.Obeys c q) (hmay : ∀ o, c.may o → c'.may o)
    (hanswers : ∀ o r, c'.answers o r → c.answers o r) (hq : ∀ a, q a → q' a) : p.Obeys c' q' := by
  induction p with
  | ret a => exact hq a hp
  | throw e => exact obeys_throw e
  | call o next ih =>
      obtain ⟨ho, hnext⟩ := hp
      exact ⟨hmay o ho, fun r hr => ih r (hnext r (hanswers o r hr))⟩

variable {h : Handler Op Resp σ} {inv : σ → Prop}

/-- The run of a program under its contract keeps the invariant, and its value is as promised. -/
theorem Obeys.run {p : Program Op Resp ε α} (hp : p.Obeys c q) (hkept : c.Kept h inv) {s : σ}
    (hs : inv s) : inv (p.run h s).2 ∧ ∀ a, (p.run h s).1 = .ok a → q a := by
  induction p generalizing s with
  | ret a =>
      refine ⟨hs, ?_⟩
      rintro _ ⟨⟩
      exact hp
  | throw e => exact ⟨hs, fun a ha => by cases ha⟩
  | call o next ih =>
      obtain ⟨ho, hnext⟩ := hp
      obtain ⟨hinv, hanswer⟩ := hkept o s ho hs
      exact ih _ (hnext _ hanswer) hinv

/-- A fallible handler that does on the image of a state what the handler does on the state runs the
program alike. -/
theorem Obeys.tryRun_eq {h' : FallibleHandler Op Resp ε τ} {image : σ → τ}
    {p : Program Op Resp ε α} (hp : p.Obeys c q) (hkept : c.Kept h inv)
    (himage : ∀ o s, c.may o → inv s → h' o (image s) = (.ok (h o s).1, image (h o s).2)) {s : σ}
    (hs : inv s) : p.tryRun h' (image s) = ((p.run h s).1, image (p.run h s).2) := by
  induction p generalizing s with
  | ret a => rfl
  | throw e => rfl
  | call o next ih =>
      obtain ⟨ho, hnext⟩ := hp
      obtain ⟨hinv, hanswer⟩ := hkept o s ho hs
      rw [tryRun, himage o s ho hs]
      exact ih _ (hnext _ hanswer) hinv

theorem tryRun_perform (h' : FallibleHandler Op Resp ε τ) (o : Op) (t : τ) :
    (perform o : Program Op Resp ε (Resp o)).tryRun h' t = h' o t := by
  rw [perform]
  rw [tryRun]
  rcases h' o t with ⟨_ | r, u⟩ <;> rfl

theorem tryRun_bind (h' : FallibleHandler Op Resp ε τ) (p : Program Op Resp ε α)
    (f : α → Program Op Resp ε β) (t : τ) :
    (p >>= f).tryRun h' t =
      match p.tryRun h' t with
      | (.ok a, t) => (f a).tryRun h' t
      | (.error e, t) => (.error e, t) := by
  show (p.bind f).tryRun h' t = _
  induction p generalizing t with
  | ret a => rfl
  | throw e => rfl
  | call o next ih =>
      simp only [Program.bind, tryRun]
      rcases h' o t with ⟨_ | r, u⟩
      · rfl
      · exact ih r u

/-- The run of a translated program is the run over the translated operations. -/
theorem tryRun_translate {Op' : Type u} {Resp' : Op' → Type u} {h' : FallibleHandler Op' Resp' ε τ}
    {h'' : FallibleHandler Op Resp ε τ} {f : (o : Op) → Program Op' Resp' ε (Resp o)}
    (hf : ∀ o t, (f o).tryRun h' t = h'' o t) (p : Program Op Resp ε α) (t : τ) :
    (p.translate f id).tryRun h' t = p.tryRun h'' t := by
  induction p generalizing t with
  | ret a => rfl
  | throw e => rfl
  | call o next ih =>
      show (f o >>= fun r => (next r).translate f id).tryRun h' t = _
      rw [tryRun_bind, hf, tryRun]
      rcases h'' o t with ⟨_ | r, u⟩
      · rfl
      · exact ih r u

end Program

end TorE2EE.Foundation
