import TorE2EE.Foundation.Pool

/-!
# Runs that are cut short

An operation may fail instead of answering, and the process may stop between two operations. A
program that catches nothing then performs nothing more: what is left is the state after its first
operations. `Program.runFor` performs at most a given number of operations.

`Program.Before` describes a program that performs one kind of operations first, then at most one
other operation, and after it only operations of a second kind. Cut short, such a program has either
performed operations of the first kind alone or reached the state its whole run leaves
(`Program.Before.runFor`).

`Program.ReturnsAfter` describes a program that returns at once after an answer that is done, and in
no other way: to have returned is to have had such an answer, and not to have ended is not.
-/

set_option autoImplicit false

namespace TorE2EE.Foundation

universe u

variable {Op : Type u} {Resp : Op → Type u} {ε α β σ : Type u}

namespace Program

/-- The run of the first `n` operations of a program: its outcome when it ends within them, and the
state it leaves. -/
def runFor (h : Handler Op Resp σ) : Nat → Program Op Resp ε α → σ → Option (Except ε α) × σ
  | _, ret a, s => (some (.ok a), s)
  | _, throw e, s => (some (.error e), s)
  | 0, call _ _, s => (none, s)
  | n + 1, call o next, s => runFor h n (next (h o s).1) (h o s).2

/-- The program performs operations in `first`, then at most one other, then operations in `last`. -/
def Before (first last : Op → Prop) : Program Op Resp ε α → Prop
  | ret _ => True
  | throw _ => True
  | call o next =>
      (first o ∧ ∀ r, (next r).Before first last) ∨ ∀ r, (next r).Quiet last

/-- The program returns at once after an answer that is `done`, and in no other way. -/
def ReturnsAfter (done : (o : Op) → Resp o → Prop) : Program Op Resp ε α → Prop
  | ret _ => False
  | throw _ => True
  | call o next =>
      ∀ r, (done o r ∧ ∃ a, next r = ret a) ∨ (¬ done o r ∧ (next r).ReturnsAfter done)

variable {h : Handler Op Resp σ} {first last : Op → Prop}

/-- A program that ends within the operations it may perform has run to its end. -/
theorem run_of_runFor {n : Nat} {p : Program Op Resp ε α} {s t : σ} {r : Except ε α}
    (hrun : p.runFor h n s = (some r, t)) : p.run h s = (r, t) := by
  induction p generalizing n s with
  | ret a =>
      cases n <;> cases hrun <;> rfl
  | throw e =>
      cases n <;> cases hrun <;> rfl
  | call o next ih =>
      cases n with
      | zero => cases hrun
      | succ n => exact ih _ hrun

/-- A sequence that is cut short is cut in its first part, or in its second. -/
theorem runFor_bind (p : Program Op Resp ε α) (f : α → Program Op Resp ε β) (n : Nat) (s : σ) :
    (∃ t, (p >>= f).runFor h n s = (none, t) ∧ p.runFor h n s = (none, t)) ∨
      (∃ e t, (p >>= f).runFor h n s = (some (.error e), t) ∧ p.run h s = (.error e, t)) ∨
      ∃ a t m, (p >>= f).runFor h n s = (f a).runFor h m t ∧ p.run h s = (.ok a, t) := by
  show (∃ t, (p.bind f).runFor h n s = (none, t) ∧ p.runFor h n s = (none, t)) ∨
      (∃ e t, (p.bind f).runFor h n s = (some (.error e), t) ∧ p.run h s = (.error e, t)) ∨
      ∃ a t m, (p.bind f).runFor h n s = (f a).runFor h m t ∧ p.run h s = (.ok a, t)
  induction p generalizing n s with
  | ret a => exact Or.inr (Or.inr ⟨a, s, n, rfl, rfl⟩)
  | throw e =>
      refine Or.inr (Or.inl ⟨e, s, ?_, rfl⟩)
      cases n <;> rfl
  | call o next ih =>
      cases n with
      | zero => exact Or.inl ⟨s, rfl, rfl⟩
      | succ n => exact ih (h o s).1 n (h o s).2

/-- A pure last step acts on the value returned. -/
theorem runFor_bind_pure (p : Program Op Resp ε α) (f : α → β) (n : Nat) (s : σ) :
    (p >>= fun a => (pure (f a) : Program Op Resp ε β)).runFor h n s =
      ((p.runFor h n s).1.map (Except.map f), (p.runFor h n s).2) := by
  show (p.bind fun a => ret (f a)).runFor h n s = _
  induction p generalizing n s with
  | ret a => cases n <;> rfl
  | throw e => cases n <;> rfl
  | call o next ih =>
      cases n with
      | zero => rfl
      | succ n => exact ih _ n _

/-- A run that is cut after the first `n` operations, or runs to its end. -/
def runUpTo (h : Handler Op Resp σ) (cut : Option Nat) (p : Program Op Resp ε α) (s : σ) :
    Option (Except ε α) × σ :=
  match cut with
  | none => (some (p.run h s).1, (p.run h s).2)
  | some n => p.runFor h n s

theorem run_of_runUpTo {cut : Option Nat} {p : Program Op Resp ε α} {s t : σ} {r : Except ε α}
    (hrun : p.runUpTo h cut s = (some r, t)) : p.run h s = (r, t) := by
  cases cut with
  | none =>
      cases hrun
      rfl
  | some n => exact run_of_runFor hrun

theorem runUpTo_bind (p : Program Op Resp ε α) (f : α → Program Op Resp ε β) (cut : Option Nat)
    (s : σ) :
    (∃ t, (p >>= f).runUpTo h cut s = (none, t) ∧ p.runUpTo h cut s = (none, t)) ∨
      (∃ e t, (p >>= f).runUpTo h cut s = (some (.error e), t) ∧ p.run h s = (.error e, t)) ∨
      ∃ a t cut', (p >>= f).runUpTo h cut s = (f a).runUpTo h cut' t ∧ p.run h s = (.ok a, t) := by
  cases cut with
  | none =>
      right
      rw [runUpTo, run_bind]
      rcases hp : p.run h s with ⟨e | a, t⟩
      · exact Or.inl ⟨e, t, rfl, rfl⟩
      · exact Or.inr ⟨a, t, none, rfl, rfl⟩
  | some n =>
      rcases runFor_bind (h := h) p f n s with hcut | hfail | ⟨a, t, m, hrun, hp⟩
      · exact Or.inl hcut
      · exact Or.inr (Or.inl hfail)
      · exact Or.inr (Or.inr ⟨a, t, some m, hrun, hp⟩)

theorem runUpTo_bind_pure (p : Program Op Resp ε α) (f : α → β) (cut : Option Nat) (s : σ) :
    (p >>= fun a => (pure (f a) : Program Op Resp ε β)).runUpTo h cut s =
      ((p.runUpTo h cut s).1.map (Except.map f), (p.runUpTo h cut s).2) := by
  cases cut with
  | none =>
      rw [runUpTo, run_bind_pure]
      rfl
  | some n => exact runFor_bind_pure p f n s

/-! ## One operation that counts -/

@[simp] theorem before_pure (a : α) :
    (pure a : Program Op Resp ε α).Before first last := trivial

@[simp] theorem before_throw (e : ε) :
    (throw e : Program Op Resp ε α).Before first last := trivial

@[simp] theorem before_ofExcept (r : Except ε α) :
    (ofExcept r : Program Op Resp ε α).Before first last := by
  cases r <;> trivial

/-- A single operation is one that counts at most. -/
@[simp] theorem before_perform (o : Op) :
    (perform o : Program Op Resp ε (Resp o)).Before first last :=
  Or.inr fun _ => trivial

@[simp] theorem quiet_pure (a : α) : (pure a : Program Op Resp ε α).Quiet last := trivial

@[simp] theorem quiet_throw (e : ε) : (throw e : Program Op Resp ε α).Quiet last := trivial

@[simp] theorem quiet_ofExcept (r : Except ε α) :
    (ofExcept r : Program Op Resp ε α).Quiet last := by
  cases r <;> trivial

@[simp] theorem quiet_perform {o : Op} (ho : last o) :
    (perform o : Program Op Resp ε (Resp o)).Quiet last :=
  ⟨ho, fun _ => trivial⟩

theorem quiet_bind {p : Program Op Resp ε α} {f : α → Program Op Resp ε β} (hp : p.Quiet last)
    (hf : ∀ a, (f a).Quiet last) : (p >>= f).Quiet last := by
  show (p.bind f).Quiet last
  induction p with
  | ret a => exact hf a
  | throw e => trivial
  | call o next ih =>
      obtain ⟨ho, hnext⟩ := hp
      exact ⟨ho, fun r => ih r (hnext r)⟩

/-- A program over other operations performs quiet ones, when every operation is performed by them. -/
theorem quiet_translate {Op' : Type u} {Resp' : Op' → Type u} {ε' : Type u} {quiet : Op' → Prop}
    {f : (o : Op) → Program Op' Resp' ε' (Resp o)} {err : ε → ε'} (hf : ∀ o, (f o).Quiet quiet)
    (p : Program Op Resp ε α) : (p.translate f err).Quiet quiet := by
  induction p with
  | ret a => trivial
  | throw e => trivial
  | call o next ih => exact quiet_bind (hf o) ih

/-- Operations of the first kind may come before. -/
theorem before_bind {p : Program Op Resp ε α} {f : α → Program Op Resp ε β} (hp : p.Quiet first)
    (hf : ∀ a, (f a).Before first last) : (p >>= f).Before first last := by
  show (p.bind f).Before first last
  induction p with
  | ret a => exact hf a
  | throw e => trivial
  | call o next ih =>
      obtain ⟨ho, hnext⟩ := hp
      exact Or.inl ⟨ho, fun r => ih r (hnext r)⟩

/-- Operations of the second kind may come after the one that counts. -/
theorem before_perform_bind (o : Op) {f : Resp o → Program Op Resp ε α}
    (hf : ∀ r, (f r).Quiet last) :
    ((perform o : Program Op Resp ε (Resp o)) >>= f).Before first last :=
  Or.inr hf

/-- Operations that keep the state leave it, however many of them are performed. -/
theorem Quiet.runFor {p : Program Op Resp ε α} (hp : p.Quiet last)
    (hkeep : ∀ o s, last o → (h o s).2 = s) (n : Nat) (s : σ) :
    (p.runFor h n s).2 = s ∧ (p.run h s).2 = s := by
  induction p generalizing n s with
  | ret a => cases n <;> exact ⟨rfl, rfl⟩
  | throw e => cases n <;> exact ⟨rfl, rfl⟩
  | call o next ih =>
      obtain ⟨ho, hnext⟩ := hp
      have hstep (m : Nat) := ih _ (hnext (h o s).1) m (h o s).2
      rw [hkeep o s ho] at hstep
      rw [run_call, hkeep o s ho]
      refine ⟨?_, (hstep 0).2⟩
      cases n with
      | zero => rfl
      | succ n =>
          rw [Program.runFor, hkeep o s ho]
          exact (hstep n).1

/-- Cut short, a program has performed operations of the first kind only, or all that count. -/
theorem Before.runFor {frame : σ → σ → Prop} {p : Program Op Resp ε α} (hp : p.Before first last)
    (hrefl : ∀ s, frame s s) (htrans : ∀ s t u, frame s t → frame t u → frame s u)
    (hfirst : ∀ o s, first o → frame s (h o s).2) (hlast : ∀ o s, last o → (h o s).2 = s)
    (n : Nat) (s : σ) :
    frame s (p.runFor h n s).2 ∨ (p.runFor h n s).2 = (p.run h s).2 := by
  induction p generalizing n s with
  | ret a =>
      right
      cases n <;> rfl
  | throw e =>
      right
      cases n <;> rfl
  | call o next ih =>
      cases n with
      | zero => exact Or.inl (hrefl s)
      | succ n =>
          rw [Program.runFor, run_call]
          rcases hp with ⟨ho, hnext⟩ | hnext
          · rcases ih _ (hnext (h o s).1) n (h o s).2 with hframe | heq
            · exact Or.inl (htrans _ _ _ (hfirst o s ho) hframe)
            · exact Or.inr heq
          · -- the operation that counts has been performed: the rest keeps the state
            right
            obtain ⟨hcut, hrun⟩ := (hnext (h o s).1).runFor hlast n (h o s).2
            rw [hcut, hrun]

theorem Before.runUpTo {frame : σ → σ → Prop} {p : Program Op Resp ε α} (hp : p.Before first last)
    (hrefl : ∀ s, frame s s) (htrans : ∀ s t u, frame s t → frame t u → frame s u)
    (hfirst : ∀ o s, first o → frame s (h o s).2) (hlast : ∀ o s, last o → (h o s).2 = s)
    (cut : Option Nat) (s : σ) :
    frame s (p.runUpTo h cut s).2 ∨ (p.runUpTo h cut s).2 = (p.run h s).2 := by
  cases cut with
  | none => exact Or.inr rfl
  | some n => exact hp.runFor hrefl htrans hfirst hlast n s

/-- Operations of the first kind keep the frame, however many of them are performed. -/
theorem Quiet.runUpTo {frame : σ → σ → Prop} {p : Program Op Resp ε α} (hp : p.Quiet first)
    (hrefl : ∀ s, frame s s) (htrans : ∀ s t u, frame s t → frame t u → frame s u)
    (hfirst : ∀ o s, first o → frame s (h o s).2) (cut : Option Nat) (s : σ) :
    frame s (p.runUpTo h cut s).2 := by
  induction p generalizing cut s with
  | ret a => rcases cut with _ | _ | _ <;> exact hrefl s
  | throw e => rcases cut with _ | _ | _ <;> exact hrefl s
  | call o next ih =>
      obtain ⟨ho, hnext⟩ := hp
      rcases cut with _ | _ | n
      · exact htrans _ _ _ (hfirst o s ho) (ih _ (hnext _) none _)
      · exact hrefl s
      · exact htrans _ _ _ (hfirst o s ho) (ih _ (hnext _) (some n) _)

/-! ## Returning after an answer -/

section

variable {done : (o : Op) → Resp o → Prop}

@[simp] theorem returnsAfter_throw (e : ε) :
    (throw e : Program Op Resp ε α).ReturnsAfter done := trivial

/-- Operations whose answers are never done may come before. -/
theorem returnsAfter_bind {p : Program Op Resp ε α} {f : α → Program Op Resp ε β}
    (hp : p.Quiet fun o => ∀ r, ¬ done o r) (hf : ∀ a, (f a).ReturnsAfter done) :
    (p >>= f).ReturnsAfter done := by
  show (p.bind f).ReturnsAfter done
  induction p with
  | ret a => exact hf a
  | throw e => trivial
  | call o next ih =>
      obtain ⟨ho, hnext⟩ := hp
      exact fun r => Or.inr ⟨ho r, ih r (hnext r)⟩

end

end Program

end TorE2EE.Foundation
