import TorE2EE.Foundation.Program

/-!
# Programs interleaved over one store

A `Thread` is a program with a part of the state that is its own; a `Pool` is a list of threads over
one store, cut open after every operation. `serial` runs the threads one after another in the order
of the list.

An operation is quiet when it leaves the store as it is and its answer depends on an unchanging part
of it only. `Interleaving.serial_eq`: when every other operation is performed with all earlier
threads quiet for the rest of their run, running what is left one after another always gives what
running everything one after another would have given from the start.
-/

set_option autoImplicit false

namespace TorE2EE.Foundation

universe u

variable {Op : Type u} {Resp : Op → Type u} {ε α σ ℓ η : Type u}

/-! ## Quiet programs -/

/-- No run of the program performs an operation that is not quiet. -/
def Program.Quiet (quiet : Op → Prop) : Program Op Resp ε α → Prop
  | .ret _ => True
  | .throw _ => True
  | .call o next => quiet o ∧ ∀ r, (next r).Quiet quiet

/-- A handler whose operations keep the environment `env` of the store, and whose quiet operations
keep the store and see the environment only. -/
structure Handler.Respects (quiet : Op → Prop) (env : σ → η) (h : Handler Op Resp (σ × ℓ)) :
    Prop where
  env_eq : ∀ o s l, env (h o (s, l)).2.1 = env s
  store_eq : ∀ o s l, quiet o → (h o (s, l)).2.1 = s
  answer_eq : ∀ o s s' l, quiet o → env s = env s' → (h o (s, l)).1 = (h o (s', l)).1
  own_eq : ∀ o s s' l, quiet o → env s = env s' → (h o (s, l)).2.2 = (h o (s', l)).2.2

section Runs

variable {quiet : Op → Prop} {env : σ → η} {h : Handler Op Resp (σ × ℓ)}

theorem Handler.Respects.run_env (hh : h.Respects quiet env) (p : Program Op Resp ε α) (s : σ)
    (l : ℓ) : env (p.run h (s, l)).2.1 = env s := by
  induction p generalizing s l with
  | ret a => rfl
  | throw e => rfl
  | call o next ih =>
      rw [Program.run_call]
      exact (ih _ _ _).trans (hh.env_eq o s l)

theorem Handler.Respects.run_quiet_store (hh : h.Respects quiet env) {p : Program Op Resp ε α}
    (hp : p.Quiet quiet) (s : σ) (l : ℓ) : (p.run h (s, l)).2.1 = s := by
  induction p generalizing s l with
  | ret a => rfl
  | throw e => rfl
  | call o next ih =>
      obtain ⟨ho, hnext⟩ := hp
      rw [Program.run_call]
      exact (ih _ (hnext _) _ _).trans (hh.store_eq o s l ho)

theorem Handler.Respects.run_quiet_outcome (hh : h.Respects quiet env) {p : Program Op Resp ε α}
    (hp : p.Quiet quiet) {s s' : σ} (hs : env s = env s') (l : ℓ) :
    (p.run h (s, l)).1 = (p.run h (s', l)).1 := by
  induction p generalizing s s' l with
  | ret a => rfl
  | throw e => rfl
  | call o next ih =>
      obtain ⟨ho, hnext⟩ := hp
      have hstate : (h o (s, l)).2 = (s, (h o (s', l)).2.2) :=
        Prod.ext (hh.store_eq o s l ho) (hh.own_eq o s s' l ho hs)
      have hstate' : (h o (s', l)).2 = (s', (h o (s', l)).2.2) :=
        Prod.ext (hh.store_eq o s' l ho) rfl
      -- both runs go on from their own store, with the same private part
      rw [Program.run_call, Program.run_call, hh.answer_eq o s s' l ho hs, hstate, hstate']
      exact ih _ (hnext _) hs _

end Runs

/-! ## Threads and pools -/

/-- A program under way, with its handler and the part of the state that is its own. -/
structure Thread (Op : Type u) (Resp : Op → Type u) (ε α σ ℓ : Type u) where
  handle : Handler Op Resp (σ × ℓ)
  own : ℓ
  rest : Program Op Resp ε α

namespace Thread

/-- The rest of the thread run to its end on a store: the outcome, and the store it leaves. -/
def run (t : Thread Op Resp ε α σ ℓ) (s : σ) : Except ε α × σ :=
  ((t.rest.run t.handle (s, t.own)).1, (t.rest.run t.handle (s, t.own)).2.1)

/-- The next operation of a thread; a thread that has ended stays as it is. -/
def step (t : Thread Op Resp ε α σ ℓ) (s : σ) : Thread Op Resp ε α σ ℓ × σ :=
  match t.rest with
  | .ret _ => (t, s)
  | .throw _ => (t, s)
  | .call o next =>
      let r := t.handle o (s, t.own)
      ({ t with own := r.2.2, rest := next r.1 }, r.2.1)

/-- What a thread that has ended returned or threw. -/
def outcome? (t : Thread Op Resp ε α σ ℓ) : Option (Except ε α) :=
  match t.rest with
  | .ret a => some (.ok a)
  | .throw e => some (.error e)
  | .call _ _ => none

/-- The operation a thread performs next, if any, is quiet. -/
def NextQuiet (quiet : Op → Prop) (t : Thread Op Resp ε α σ ℓ) : Prop :=
  match t.rest with
  | .ret _ => True
  | .throw _ => True
  | .call o _ => quiet o

theorem run_of_outcome {t : Thread Op Resp ε α σ ℓ} {r : Except ε α} (h : t.outcome? = some r)
    (s : σ) : t.run s = (r, s) := by
  rw [outcome?] at h
  rw [run]
  cases hrest : t.rest with
  | ret a =>
      rw [hrest] at h
      cases h
      rfl
  | throw e =>
      rw [hrest] at h
      cases h
      rfl
  | call o next =>
      rw [hrest] at h
      cases h

/-- Running a thread is one step of it and the run of what is left. -/
theorem run_step (t : Thread Op Resp ε α σ ℓ) (s : σ) : (t.step s).1.run (t.step s).2 = t.run s := by
  unfold step run
  cases hrest : t.rest with
  | ret a => simp [hrest]
  | throw e => simp [hrest]
  | call o next => rfl

@[simp] theorem handle_step (t : Thread Op Resp ε α σ ℓ) (s : σ) :
    (t.step s).1.handle = t.handle := by
  rw [step]
  cases t.rest <;> rfl

section Quiet

variable {quiet : Op → Prop} {env : σ → η} {t : Thread Op Resp ε α σ ℓ}

theorem step_env (ht : t.handle.Respects quiet env) (s : σ) : env (t.step s).2 = env s := by
  unfold step
  cases t.rest with
  | ret a => rfl
  | throw e => rfl
  | call o next => exact ht.env_eq o s t.own

theorem run_env (ht : t.handle.Respects quiet env) (s : σ) : env (t.run s).2 = env s :=
  ht.run_env t.rest s t.own

/-- A quiet operation of a thread changes nothing for a run of the thread on any store. -/
theorem step_of_nextQuiet (ht : t.handle.Respects quiet env) (hnext : t.NextQuiet quiet) (s : σ) :
    (t.step s).2 = s ∧ ∀ s', env s' = env s → (t.step s).1.run s' = t.run s' := by
  unfold NextQuiet at hnext
  unfold step run
  cases hrest : t.rest with
  | ret a =>
      refine ⟨rfl, ?_⟩
      intro s' hs'
      simp [hrest]
  | throw e =>
      refine ⟨rfl, ?_⟩
      intro s' hs'
      simp [hrest]
  | call o next =>
      rw [hrest] at hnext
      refine ⟨ht.store_eq o s t.own hnext, ?_⟩
      intro s' hs'
      have hanswer := ht.answer_eq o s s' t.own hnext hs'.symm
      have hown := ht.own_eq o s s' t.own hnext hs'.symm
      have hstore := ht.store_eq o s' t.own hnext
      -- a quiet operation answers by `env` alone, so the rest starts alike on both stores
      have hafter : (s', (t.handle o (s, t.own)).2.2) = (t.handle o (s', t.own)).2 := by
        rw [hown]
        exact Prod.ext hstore.symm rfl
      simp only [Program.run_call, hafter, hanswer]

end Quiet

end Thread

/-- Threads in a row over one store. -/
structure Pool (Op : Type u) (Resp : Op → Type u) (ε α σ ℓ : Type u) where
  threads : List (Thread Op Resp ε α σ ℓ)
  store : σ

/-- The threads run one after another: the outcomes, and the store they leave. -/
def serial : List (Thread Op Resp ε α σ ℓ) → σ → List (Except ε α) × σ
  | [], s => ([], s)
  | t :: ts, s => ((t.run s).1 :: (serial ts (t.run s).2).1, (serial ts (t.run s).2).2)

theorem serial_append (ts us : List (Thread Op Resp ε α σ ℓ)) (s : σ) :
    serial (ts ++ us) s =
      ((serial ts s).1 ++ (serial us (serial ts s).2).1, (serial us (serial ts s).2).2) := by
  induction ts generalizing s with
  | nil => rfl
  | cons t ts ih => simp only [List.cons_append, serial, ih]

namespace Pool

/-- The next operation of thread `i`. -/
def step (p : Pool Op Resp ε α σ ℓ) (i : Nat) : Pool Op Resp ε α σ ℓ :=
  match p.threads[i]? with
  | none => p
  | some t => { threads := p.threads.set i (t.step p.store).1, store := (t.step p.store).2 }

/-- The steps of a schedule, one thread number for each. -/
def run (p : Pool Op Resp ε α σ ℓ) (schedule : List Nat) : Pool Op Resp ε α σ ℓ :=
  schedule.foldl step p

/-- What every thread returned or threw, if all have ended. -/
def outcomes? (p : Pool Op Resp ε α σ ℓ) : Option (List (Except ε α)) :=
  p.threads.mapM Thread.outcome?

/-- Thread `i` performs an operation that is not quiet only when every earlier thread is quiet for
the rest of its run. -/
def StepsInOrder (quiet : Op → Prop) (p : Pool Op Resp ε α σ ℓ) (i : Nat) : Prop :=
  ∀ t, p.threads[i]? = some t → t.NextQuiet quiet ∨ ∀ t' ∈ p.threads.take i, t'.rest.Quiet quiet

end Pool

/-- The pools that `allowed` steps reach from `p₀`. -/
inductive Interleaving (allowed : Pool Op Resp ε α σ ℓ → Nat → Prop)
    (p₀ : Pool Op Resp ε α σ ℓ) : Pool Op Resp ε α σ ℓ → Prop where
  | start : Interleaving allowed p₀ p₀
  | step {p : Pool Op Resp ε α σ ℓ} (i : Nat) :
      Interleaving allowed p₀ p → allowed p i → Interleaving allowed p₀ (p.step i)

/-- Every step of a schedule is allowed when its turn comes. -/
def Pool.Allows (allowed : Pool Op Resp ε α σ ℓ → Nat → Prop) :
    Pool Op Resp ε α σ ℓ → List Nat → Prop
  | _, [] => True
  | p, i :: schedule => allowed p i ∧ Pool.Allows allowed (p.step i) schedule

theorem Interleaving.run {allowed : Pool Op Resp ε α σ ℓ → Nat → Prop}
    {p₀ p : Pool Op Resp ε α σ ℓ} (h : Interleaving allowed p₀ p) {schedule : List Nat}
    (hs : p.Allows allowed schedule) : Interleaving allowed p₀ (p.run schedule) := by
  induction schedule generalizing p with
  | nil => exact h
  | cons i schedule ih =>
      obtain ⟨hi, hrest⟩ := hs
      exact ih (h.step i hi) hrest

/-! ## Serial runs -/

section Serial

variable {quiet : Op → Prop} {env : σ → η} {ts us : List (Thread Op Resp ε α σ ℓ)}

theorem serial_env (hts : ∀ t ∈ ts, t.handle.Respects quiet env) (s : σ) :
    env (serial ts s).2 = env s := by
  induction ts generalizing s with
  | nil => rfl
  | cons t ts ih =>
      have hrest : ∀ t' ∈ ts, t'.handle.Respects quiet env := by
        intro t' ht'
        exact hts t' (List.mem_cons_of_mem _ ht')
      exact (ih hrest _).trans (Thread.run_env (hts t List.mem_cons_self) s)

/-- Threads that are quiet for the rest of their run leave the store alone, and their outcomes
depend on its environment only. -/
theorem serial_quiet (hts : ∀ t ∈ ts, t.handle.Respects quiet env)
    (hquiet : ∀ t ∈ ts, t.rest.Quiet quiet) (s : σ) :
    (serial ts s).2 = s ∧ ∀ s', env s' = env s → (serial ts s').1 = (serial ts s).1 := by
  induction ts generalizing s with
  | nil => exact ⟨rfl, fun _ _ => rfl⟩
  | cons t ts ih =>
      have ht := hts t List.mem_cons_self
      have htq := hquiet t List.mem_cons_self
      have hstore (u : σ) : (t.run u).2 = u := ht.run_quiet_store htq u t.own
      obtain ⟨hrest, houtcomes⟩ := ih (fun t' ht' => hts t' (List.mem_cons_of_mem _ ht'))
        (fun t' ht' => hquiet t' (List.mem_cons_of_mem _ ht')) s
      constructor
      · rw [serial, hstore]
        exact hrest
      · intro s' hs'
        rw [serial, serial, hstore, hstore, houtcomes s' hs']
        exact congrArg (· :: _) (ht.run_quiet_outcome htq hs' t.own)

/-- The step lemma: a quiet operation, or one performed when all earlier threads are quiet, changes
nothing for the serial run of what is left. -/
theorem serial_step {t : Thread Op Resp ε α σ ℓ} {s : σ}
    (hts : ∀ t' ∈ ts, t'.handle.Respects quiet env) (ht : t.handle.Respects quiet env)
    (hnext : t.NextQuiet quiet ∨ ∀ t' ∈ ts, t'.rest.Quiet quiet) :
    serial (ts ++ (t.step s).1 :: us) (t.step s).2 = serial (ts ++ t :: us) s := by
  simp only [serial_append, serial]
  rcases hnext with hnext | hquiet
  · obtain ⟨hstore, hrun⟩ := Thread.step_of_nextQuiet ht hnext s
    rw [hstore, hrun _ (serial_env hts s)]
  · -- the earlier threads run on the changed store as they would have on the old one
    obtain ⟨hkeep, houtcomes⟩ := serial_quiet hts hquiet s
    obtain ⟨hkeep', -⟩ := serial_quiet hts hquiet (t.step s).2
    rw [hkeep, hkeep', houtcomes _ (Thread.step_env ht s), Thread.run_step]

end Serial

/-! ## Interleavings -/

section Interleavings

variable {quiet : Op → Prop} {env : σ → η} {p₀ p : Pool Op Resp ε α σ ℓ}

theorem Pool.step_of_some {t : Thread Op Resp ε α σ ℓ} {i : Nat} (ht : p.threads[i]? = some t) :
    ∃ before after, p.threads = before ++ t :: after ∧ before = p.threads.take i ∧
      p.step i = { threads := before ++ (t.step p.store).1 :: after
                   store := (t.step p.store).2 } := by
  obtain ⟨hi, rfl⟩ := List.getElem?_eq_some_iff.1 ht
  refine ⟨p.threads.take i, p.threads.drop (i + 1), ?_, rfl, ?_⟩
  · rw [← List.drop_eq_getElem_cons hi, List.take_append_drop]
  · rw [Pool.step, ht]
    simp only [List.set_eq_take_append_cons_drop, if_pos hi]

/-- A step keeps what running the rest one after another gives. -/
theorem Pool.serial_step (hp : ∀ t ∈ p.threads, t.handle.Respects quiet env) {i : Nat}
    (hi : p.StepsInOrder quiet i) :
    (∀ t ∈ (p.step i).threads, t.handle.Respects quiet env) ∧
      serial (p.step i).threads (p.step i).store = serial p.threads p.store := by
  cases ht : p.threads[i]? with
  | none =>
      rw [Pool.step, ht]
      exact ⟨hp, rfl⟩
  | some t =>
      -- the thread that steps, between those that arrived before it and after it
      obtain ⟨before, after, hsplit, hbefore, hstep⟩ := Pool.step_of_some ht
      have hmem : t ∈ p.threads := List.mem_of_getElem? ht
      have hearlier : ∀ t' ∈ before, t'.handle.Respects quiet env := by
        intro t' ht'
        exact hp t' (hsplit ▸ List.mem_append_left _ ht')
      rw [hstep]
      constructor
      · intro t' ht'
        rcases List.mem_append.1 ht' with hold | hnew
        · exact hearlier t' hold
        · rcases List.mem_cons.1 hnew with rfl | hlater
          · rw [Thread.handle_step]
            exact hp t hmem
          · exact hp t' (hsplit ▸ List.mem_append_right _ (List.mem_cons_of_mem _ hlater))
      · have hnext := hi t ht
        rw [← hbefore] at hnext
        rw [hsplit]
        exact TorE2EE.Foundation.serial_step hearlier (hp t hmem) hnext

/-- The run lemma: in every pool an orderly interleaving reaches, what is left gives the serial
outcomes and the serial store. -/
theorem Interleaving.serial_eq (hp : ∀ t ∈ p₀.threads, t.handle.Respects quiet env)
    (h : Interleaving (Pool.StepsInOrder quiet) p₀ p) :
    (∀ t ∈ p.threads, t.handle.Respects quiet env) ∧
      serial p.threads p.store = serial p₀.threads p₀.store := by
  induction h with
  | start => exact ⟨hp, rfl⟩
  | step i _ hi ih =>
      obtain ⟨hkeep, heq⟩ := Pool.serial_step ih.1 hi
      exact ⟨hkeep, heq.trans ih.2⟩

/-- Threads that have all ended have run to what they returned. -/
theorem serial_of_outcomes {ts : List (Thread Op Resp ε α σ ℓ)} {rs : List (Except ε α)}
    (h : ts.mapM Thread.outcome? = some rs) (s : σ) : serial ts s = (rs, s) := by
  induction ts generalizing rs with
  | nil =>
      cases h
      rfl
  | cons t ts ih =>
      rw [List.mapM_cons] at h
      obtain ⟨r, hr, h⟩ := Option.bind_eq_some_iff.1 h
      obtain ⟨rs', hrs', h⟩ := Option.bind_eq_some_iff.1 h
      cases h
      rw [serial, Thread.run_of_outcome hr, ih hrs']

/-- A thread that has ended, ended with its serial outcome. -/
theorem serial_getElem?_of_outcome {ts : List (Thread Op Resp ε α σ ℓ)} {i : Nat}
    {t : Thread Op Resp ε α σ ℓ} {r : Except ε α} (ht : ts[i]? = some t)
    (hr : t.outcome? = some r) (s : σ) : (serial ts s).1[i]? = some r := by
  induction ts generalizing i s with
  | nil => cases ht
  | cons t' ts ih =>
      cases i with
      | zero =>
          cases ht
          rw [serial, Thread.run_of_outcome hr]
          rfl
      | succ i =>
          rw [List.getElem?_cons_succ] at ht
          exact ih ht _

/-- The outcomes of the threads that have ended are among the serial outcomes, in the same order. -/
theorem ended_sublist_serial (ts : List (Thread Op Resp ε α σ ℓ)) (s : σ) :
    (ts.filterMap Thread.outcome?).Sublist (serial ts s).1 := by
  induction ts generalizing s with
  | nil => exact List.Sublist.slnil
  | cons t ts ih =>
      cases hr : t.outcome? with
      | none =>
          rw [List.filterMap_cons_none hr]
          exact (ih _).cons _
      | some r =>
          rw [List.filterMap_cons_some hr, serial, Thread.run_of_outcome hr]
          exact (ih s).cons_cons r

end Interleavings

end TorE2EE.Foundation
