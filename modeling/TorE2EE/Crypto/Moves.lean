import TorE2EE.Crypto.Networks

/-!
# The moves of one device

What the steps of one device leave of a network: the hosts of the other devices stay as they are, and
whatever was on the network stays on it. `Network.Moves` collects the runs of steps of one device
that keep to the rules of the orchestrator.
-/

set_option autoImplicit false

namespace TorE2EE.Crypto.Network

open TorE2EE.Foundation

variable {U B S : Type}

/-- Nothing is taken back. -/
structure Grows (x x' : Network U B S) : Prop where
  bundles : x.bundles <:+ x'.bundles
  answers : x.answers <:+ x'.answers
  letters : x.letters <:+ x'.letters
  receipts : x.receipts <:+ x'.receipts

theorem Grows.refl (x : Network U B S) : x.Grows x :=
  ⟨List.suffix_rfl, List.suffix_rfl, List.suffix_rfl, List.suffix_rfl⟩

theorem Grows.trans {x x' x'' : Network U B S} (h : x.Grows x') (h' : x'.Grows x'') :
    x.Grows x'' :=
  ⟨h.bundles.trans h'.bundles, h.answers.trans h'.answers, h.letters.trans h'.letters,
    h.receipts.trans h'.receipts⟩

variable [DecidableEq U] [DecidableEq S] {P : Primitives B S} {D : Devices U B S}
  {x x' x'' : Network U B S} {u w : U} {Q : U → S → S → Prop}

omit [DecidableEq S] in
/-- A call that puts nothing on the network. -/
theorem grows_withHost (x : Network U B S) (u : U) (h : Host B S) : x.Grows (x.withHost u h) :=
  ⟨List.suffix_rfl, List.suffix_rfl, List.suffix_rfl, List.suffix_rfl⟩

theorem grows_step (x : Network U B S) (a : NetworkStep U B S) : x.Grows (x.step P D a) := by
  cases a with
  | draw u => exact grows_withHost x u _
  | generate u count =>
      simp only [step]
      split
      · exact ⟨List.suffix_cons _ _, List.suffix_rfl, List.suffix_rfl, List.suffix_rfl⟩
      · exact grows_withHost x u _
  | answer u nonceHex =>
      simp only [step]
      split
      · exact ⟨List.suffix_rfl, List.suffix_cons _ _, List.suffix_rfl, List.suffix_rfl⟩
      · exact Grows.refl x
  | initiate u bundle => exact grows_withHost x u _
  | encrypt u k plaintext context =>
      simp only [step]
      split
      · exact ⟨List.suffix_rfl, List.suffix_rfl, List.suffix_cons _ _, List.suffix_rfl⟩
      · exact grows_withHost x u _
  | decrypt u k message =>
      simp only [step]
      split
      · exact ⟨List.suffix_rfl, List.suffix_rfl, List.suffix_rfl, List.suffix_cons _ _⟩
      · exact grows_withHost x u _

variable (P D u Q) in
/-- Steps of `u` that keep to the rules lead from `x` to `x'`. -/
def Moves (x x' : Network U B S) : Prop :=
  ∃ steps, (∀ a ∈ steps, a.caller = u ∧ a.ByClient P ∧ a.Sends Q) ∧ x' = x.run P D steps

theorem Moves.refl (x : Network U B S) : Moves P D u Q x x :=
  ⟨[], by simp, rfl⟩

theorem Moves.trans (h : Moves P D u Q x x') (h' : Moves P D u Q x' x'') :
    Moves P D u Q x x'' := by
  obtain ⟨steps, hsteps, rfl⟩ := h
  obtain ⟨steps', hsteps', rfl⟩ := h'
  refine ⟨steps ++ steps', ?_, ?_⟩
  · intro a ha
    rcases List.mem_append.1 ha with ha | ha
    · exact hsteps a ha
    · exact hsteps' a ha
  · rw [run, run, run, List.foldl_append]

/-- One step. -/
theorem moves_step {a : NetworkStep U B S} (hcaller : a.caller = u) (hclient : a.ByClient P)
    (hsends : a.Sends Q) : Moves P D u Q x (x.step P D a) := by
  refine ⟨[a], ?_, rfl⟩
  intro a' ha'
  cases List.mem_singleton.1 ha'
  exact ⟨hcaller, hclient, hsends⟩

/-- What a device has accepted, the latest first. -/
def receiptsOf (x : Network U B S) (u : U) : List (Receipt U S) :=
  x.receipts.filter fun r => r.receiver = u

omit [DecidableEq S] in
theorem receiptsOf_withHost (x : Network U B S) (u w : U) (h : Host B S) :
    (x.withHost u h).receiptsOf w = x.receiptsOf w := rfl

/-- A step accepts nothing for another device. -/
theorem receiptsOf_step (x : Network U B S) (a : NetworkStep U B S) (hne : w ≠ a.caller) :
    (x.step P D a).receiptsOf w = x.receiptsOf w := by
  cases a with
  | draw u => rfl
  | generate u count =>
      simp only [step]
      split <;> rfl
  | answer u nonceHex =>
      simp only [step]
      split <;> rfl
  | initiate u bundle => rfl
  | encrypt u k plaintext context =>
      simp only [step]
      split <;> rfl
  | decrypt u k message =>
      have hother : u ≠ w := Ne.symm hne
      simp only [step]
      split
      · simp [receiptsOf, hother]
      · rfl

/-- Nothing is taken back, and the other devices stay as they are. -/
theorem Moves.frame (h : Moves P D u Q x x') :
    x.Grows x' ∧ ∀ w, w ≠ u → x'.host w = x.host w ∧ x'.receiptsOf w = x.receiptsOf w := by
  obtain ⟨steps, hsteps, rfl⟩ := h
  induction steps generalizing x with
  | nil => exact ⟨Grows.refl x, fun _ _ => ⟨rfl, rfl⟩⟩
  | cons a steps ih =>
      obtain ⟨⟨hcaller, -, -⟩, hrest⟩ := List.forall_mem_cons.1 hsteps
      obtain ⟨hgrows, hothers⟩ := ih (x := x.step P D a) hrest
      refine ⟨(grows_step x a).trans hgrows, ?_⟩
      intro w hw
      obtain ⟨hhost, hreceipts⟩ := hothers w hw
      have hne : w ≠ a.caller := hcaller ▸ hw
      exact ⟨hhost.trans (sameFor_step x a hne).host, hreceipts.trans (receiptsOf_step x a hne)⟩

/-! ## Where moves lead -/

variable (P D u Q) in
/-- Moves of `u` lead to the host `h`, with these letters and these receipts of `u`. -/
def Reaches (x : Network U B S) (h : Host B S) (letters : List (Letter U S))
    (receipts : List (Receipt U S)) : Prop :=
  ∃ x', Moves P D u Q x x' ∧ x'.host u = h ∧ x'.letters = letters ∧ x'.receiptsOf u = receipts

variable {h h' : Host B S} {letters letters' : List (Letter U S)}
  {receipts receipts' : List (Receipt U S)}

theorem Moves.reaches (hmoves : Moves P D u Q x x') (h : x'.Reaches P D u Q h' letters receipts) :
    x.Reaches P D u Q h' letters receipts := by
  obtain ⟨x'', hmoves', hreached⟩ := h
  exact ⟨x'', hmoves.trans hmoves', hreached⟩

theorem reaches_here (x : Network U B S) (u : U) :
    x.Reaches P D u Q (x.host u) x.letters (x.receiptsOf u) :=
  ⟨x, Moves.refl x, rfl, rfl, rfl⟩

/-- Any number of draws outside the engine. -/
theorem reaches_drew (x : Network U B S) (u : U) (hstore : h.store = (x.host u).store)
    (hdraws : (x.host u).draws ≤ h.draws) :
    x.Reaches P D u Q h x.letters (x.receiptsOf u) := by
  obtain ⟨n, hn⟩ := Nat.exists_eq_add_of_le hdraws
  induction n generalizing x with
  | zero =>
      have hsame : x.host u = h := by
        cases h
        simp_all
      exact hsame ▸ reaches_here x u
  | succ n ih =>
      have hdrawn := moves_step (x := x) (P := P) (D := D) (u := u) (Q := Q) (a := .draw u) rfl
        trivial trivial
      refine hdrawn.reaches (ih _ ?_ ?_ ?_)
      · simpa [step] using hstore
      · simp only [step, host_withHost_self]
        omega
      · simp only [step, host_withHost_self]
        omega

/-- A bundle that is made is on the network. -/
theorem moves_generate (x : Network U B S) (u : U) (count : Nat) :
    ∃ x', Moves P D u Q x x' ∧
      x'.host u = ((generatePreKeyBundle P count).run P (D.entropy u) (x.host u)).2 ∧
      x'.letters = x.letters ∧ x'.receiptsOf u = x.receiptsOf u ∧
      ∀ bundle, ((generatePreKeyBundle P count).run P (D.entropy u) (x.host u)).1 = .ok bundle →
        bundle ∈ x'.bundles := by
  refine ⟨_, moves_step (a := .generate u count) rfl trivial trivial, ?_⟩
  rcases hrun : (generatePreKeyBundle P count).run P (D.entropy u) (x.host u) with ⟨r, h⟩
  cases r with
  | error e =>
      simp only [step, hrun]
      refine ⟨host_withHost_self _ _ _, rfl, rfl, ?_⟩
      intro bundle hbundle
      cases hbundle
  | ok bundle =>
      simp only [step, hrun]
      refine ⟨host_withHost_self _ _ _, rfl, rfl, ?_⟩
      rintro _ ⟨⟩
      exact List.mem_cons_self

theorem reaches_initiate (x : Network U B S) (u : U) (bundle : PreKeyBundle S) :
    x.Reaches P D u Q
      ((initiateSession P bundle.identityKeyHex bundle).run P (D.entropy u) (x.host u)).2 x.letters
      (x.receiptsOf u) :=
  ⟨_, moves_step (a := .initiate u bundle) rfl trivial trivial, host_withHost_self _ _ _, rfl, rfl⟩

variable {k plaintext : S} {message : EncryptedMessage S} {e : EngineError S}

theorem reaches_sealed (hQ : Q u k plaintext)
    (hrun : (Crypto.encrypt P k plaintext none).run P (D.entropy u) (x.host u) = (.ok message, h)) :
    x.Reaches P D u Q h
      ({ sender := u, recipientIdentityKeyHex := k, plaintext, message } :: x.letters)
      (x.receiptsOf u) := by
  refine ⟨_, moves_step (a := .encrypt u k plaintext none) rfl trivial hQ, ?_, ?_, ?_⟩
  · simp [step, hrun, withHost]
  · simp [step, hrun]
  · simp [step, hrun, receiptsOf, withHost]

theorem reaches_not_sealed (hQ : Q u k plaintext)
    (hrun : (Crypto.encrypt P k plaintext none).run P (D.entropy u) (x.host u) = (.error e, h)) :
    x.Reaches P D u Q h x.letters (x.receiptsOf u) := by
  refine ⟨_, moves_step (a := .encrypt u k plaintext none) rfl trivial hQ, ?_, ?_, ?_⟩
  · simp [step, hrun]
  · simp [step, hrun, withHost]
  · simp [step, hrun, receiptsOf_withHost]

theorem reaches_opened (hclient : ∀ hex, message.initialIdentityKeyHex = some hex →
      k = P.toLowerCase hex)
    (hrun : (Crypto.decrypt P k message).run P (D.entropy u) (x.host u) = (.ok plaintext, h)) :
    x.Reaches P D u Q h x.letters
      ({ receiver := u, senderIdentityKeyHex := k, plaintext, message } :: x.receiptsOf u) := by
  refine ⟨_, moves_step (a := .decrypt u k message) rfl hclient trivial, ?_, ?_, ?_⟩
  · simp [step, hrun, withHost]
  · simp [step, hrun, withHost]
  · simp [step, hrun, receiptsOf, withHost]

theorem reaches_not_opened (hclient : ∀ hex, message.initialIdentityKeyHex = some hex →
      k = P.toLowerCase hex)
    (hrun : (Crypto.decrypt P k message).run P (D.entropy u) (x.host u) = (.error e, h)) :
    x.Reaches P D u Q h x.letters (x.receiptsOf u) := by
  refine ⟨_, moves_step (a := .decrypt u k message) rfl hclient trivial, ?_, ?_, ?_⟩
  · simp [step, hrun]
  · simp [step, hrun, withHost]
  · simp [step, hrun, receiptsOf_withHost]

end TorE2EE.Crypto.Network
