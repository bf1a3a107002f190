import TorE2EE.Foundation.Contracts

/-!
# One program over two states

Two handlers give one program two readings. `Coupled Φ c Ψ Ξ` says that from states related by `Φ`
both readings of `c` have one outcome, and leave states related by `Ψ a` when they return `a` and by
`Ξ` when they throw. `coupled_bind` composes, and `coupled_of_obeys` is the rule for a relation that
every operation of a contract keeps.
-/

set_option autoImplicit false

namespace TorE2EE.Foundation.Program

universe u

variable {Op : Type u} {Resp : Op → Type u} {ε α β σ τ : Type u}

/-- From related states both readings have one outcome and leave related states. -/
def Coupled (h : Handler Op Resp σ) (h' : Handler Op Resp τ) (Φ : σ → τ → Prop)
    (c : Program Op Resp ε α) (Ψ : α → σ → τ → Prop) (Ξ : σ → τ → Prop) : Prop :=
  ∀ s t, Φ s t → ∃ r s' t', c.run h s = (r, s') ∧ c.run h' t = (r, t') ∧
    match r with
    | .ok a => Ψ a s' t'
    | .error _ => Ξ s' t'

variable {h : Handler Op Resp σ} {h' : Handler Op Resp τ} {Φ Φ' Ξ : σ → τ → Prop}

theorem coupled_pure {Ψ : α → σ → τ → Prop} {a : α} (ha : ∀ s t, Φ s t → Ψ a s t) :
    Coupled h h' Φ (pure a : Program Op Resp ε α) Ψ Ξ :=
  fun s t hst => ⟨.ok a, s, t, rfl, rfl, ha s t hst⟩

theorem coupled_throw {Ψ : α → σ → τ → Prop} {e : ε} (he : ∀ s t, Φ s t → Ξ s t) :
    Coupled h h' Φ (throw e : Program Op Resp ε α) Ψ Ξ :=
  fun s t hst => ⟨.error e, s, t, rfl, rfl, he s t hst⟩

theorem coupled_ofExcept {Ψ : α → σ → τ → Prop} {r : Except ε α}
    (hok : ∀ a, r = .ok a → ∀ s t, Φ s t → Ψ a s t)
    (herror : ∀ e, r = .error e → ∀ s t, Φ s t → Ξ s t) :
    Coupled h h' Φ (ofExcept r : Program Op Resp ε α) Ψ Ξ := by
  cases r with
  | ok a => exact coupled_pure (hok a rfl)
  | error e => exact coupled_throw (herror e rfl)

theorem coupled_perform {o : Op} {Ψ : Resp o → σ → τ → Prop}
    (ho : ∀ s t, Φ s t → (h o s).1 = (h' o t).1 ∧ Ψ (h o s).1 (h o s).2 (h' o t).2) :
    Coupled h h' Φ (perform o : Program Op Resp ε (Resp o)) Ψ Ξ := by
  intro s t hst
  obtain ⟨hanswer, hstates⟩ := ho s t hst
  refine ⟨.ok (h o s).1, (h o s).2, (h' o t).2, rfl, ?_, hstates⟩
  rw [run_perform, hanswer]

theorem coupled_bind {Ψ : α → σ → τ → Prop} {Ψ' : β → σ → τ → Prop} {c : Program Op Resp ε α}
    {f : α → Program Op Resp ε β} (hc : Coupled h h' Φ c Ψ Ξ)
    (hf : ∀ a, Coupled h h' (Ψ a) (f a) Ψ' Ξ) : Coupled h h' Φ (c >>= f) Ψ' Ξ := by
  intro s t hst
  obtain ⟨r, s', t', hrun, hrun', hrel⟩ := hc s t hst
  cases r with
  | error e =>
      exact ⟨.error e, s', t', run_bind_of_error h hrun f, run_bind_of_error h' hrun' f, hrel⟩
  | ok a =>
      rw [run_bind_of_ok h hrun f, run_bind_of_ok h' hrun' f]
      exact hf a s' t' hrel

theorem Coupled.mono {Ψ Ψ' : α → σ → τ → Prop} {Ξ' : σ → τ → Prop} {c : Program Op Resp ε α}
    (hc : Coupled h h' Φ c Ψ Ξ) (hpre : ∀ s t, Φ' s t → Φ s t)
    (hpost : ∀ a s t, Ψ a s t → Ψ' a s t) (herror : ∀ s t, Ξ s t → Ξ' s t) :
    Coupled h h' Φ' c Ψ' Ξ' := by
  intro s t hst
  obtain ⟨r, s', t', hrun, hrun', hrel⟩ := hc s t (hpre s t hst)
  refine ⟨r, s', t', hrun, hrun', ?_⟩
  cases r with
  | ok a => exact hpost a s' t' hrel
  | error e => exact herror s' t' hrel

theorem Coupled.pre {Ψ : α → σ → τ → Prop} {c : Program Op Resp ε α} (hc : Coupled h h' Φ c Ψ Ξ)
    (hpre : ∀ s t, Φ' s t → Φ s t) : Coupled h h' Φ' c Ψ Ξ :=
  hc.mono hpre (fun _ _ _ hrel => hrel) fun _ _ hrel => hrel

/-- What the precondition says about the values in hand. -/
theorem coupled_of_left {p : Prop} {Ψ : α → σ → τ → Prop} {c : Program Op Resp ε α}
    (hc : p → Coupled h h' Φ c Ψ Ξ) : Coupled h h' (fun s t => p ∧ Φ s t) c Ψ Ξ :=
  fun s t hst => hc hst.1 s t hst.2

/-- A library call whose value is known. -/
theorem coupled_ofExcept_bind {Ψ : β → σ → τ → Prop} {r : Except ε α} {a : α} (hr : r = .ok a)
    {f : α → Program Op Resp ε β} (hf : Coupled h h' Φ (f a) Ψ Ξ) :
    Coupled h h' Φ (ofExcept r >>= f) Ψ Ξ := by
  rw [hr]
  exact hf

/-- What is known of the first reading alone. -/
theorem Coupled.and_left {Ψ : α → σ → τ → Prop} {p : α → σ → Prop} {c : Program Op Resp ε α}
    (hc : Coupled h h' Φ c Ψ Ξ) (hp : ∀ s t, Φ s t → ∀ a s', c.run h s = (.ok a, s') → p a s') :
    Coupled h h' Φ c (fun a s t => Ψ a s t ∧ p a s) Ξ := by
  intro s t hst
  obtain ⟨r, s', t', hrun, hrun', hrel⟩ := hc s t hst
  refine ⟨r, s', t', hrun, hrun', ?_⟩
  cases r with
  | ok a => exact ⟨hrel, hp s t hst a s' hrun⟩
  | error e => exact hrel

/-- A relation that every operation of a contract keeps, with equal answers as the contract promises
them, is kept by the programs that obey it. -/
theorem coupled_of_obeys {κ : Contract Op Resp} {q : α → Prop} {c : Program Op Resp ε α}
    (hc : c.Obeys κ q)
    (ho : ∀ o s t, κ.may o → Φ s t →
      (h o s).1 = (h' o t).1 ∧ κ.answers o (h o s).1 ∧ Φ (h o s).2 (h' o t).2) :
    Coupled h h' Φ c (fun a s t => q a ∧ Φ s t) Φ := by
  induction c with
  | ret a => exact coupled_pure fun _ _ hst => ⟨hc, hst⟩
  | throw e => exact coupled_throw fun _ _ hst => hst
  | call o next ih =>
      obtain ⟨hmay, hnext⟩ := hc
      intro s t hst
      obtain ⟨hanswer, hgood, hkept⟩ := ho o s t hmay hst
      obtain ⟨r, s', t', hrun, hrun', hrel⟩ := ih _ (hnext _ hgood) _ _ hkept
      refine ⟨r, s', t', hrun, ?_, hrel⟩
      rw [run_call, ← hanswer]
      exact hrun'

end TorE2EE.Foundation.Program
