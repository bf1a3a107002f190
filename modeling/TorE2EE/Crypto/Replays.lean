import TorE2EE.Crypto.SpentKeys
import TorE2EE.Crypto.Symbolic

/-!
# Replays

Two parties on a network that delivers whatever it likes: every `decrypt` may be given any message
at all, so a ciphertext can be lost, repeated, held back, and sent again under other header fields
or under another sender. `accepted_at_most_once` shows that a ciphertext `encrypt` returned is
accepted at most once by the party it was sealed for.
-/

set_option autoImplicit false

namespace TorE2EE.Crypto

open TorE2EE.Foundation

variable {B S : Type} [DecidableEq S]

/-- Two parties, the bundles each has generated, and the ciphertexts each has accepted from its
peer. The flights of the world are all ciphertexts ever sealed: none of them is used up. -/
structure Exchange (B S : Type) where
  world : World B S
  bundles : Party → List (PreKeyBundle S)
  accepted : Party → List S

/-- What the parties and the network can do. The network chooses the message and the sender of a
`decrypt` call freely. -/
inductive ExchangeStep (S : Type) where
  | generate (p : Party) (count : Nat)
  | initiate (p : Party) (bundle : PreKeyBundle S)
  | encrypt (p : Party) (plaintext : S) (context : Option InitialBundleContext)
  | decrypt (p : Party) (senderIdentityKeyHex : S) (message : EncryptedMessage S)

/-- The party that makes a step. -/
def ExchangeStep.caller : ExchangeStep S → Party
  | .generate p _ => p
  | .initiate p _ => p
  | .encrypt p _ _ => p
  | .decrypt p _ _ => p

namespace Exchange

variable (P : Primitives B S) (E : Entropy B)

/-- One step. A session is initiated on a bundle the peer has generated, whether it is the latest
or not. -/
def step (x : Exchange B S) : ExchangeStep S → Exchange B S
  | .generate p count =>
      match x.world.generate p P E count with
      | (.ok bundle, w) =>
          { x with
            world := w
            bundles := Function.update x.bundles p (bundle :: x.bundles p) }
      | (.error _, w) => { x with world := w }
  | .initiate p bundle =>
      if bundle ∈ x.bundles p.peer then
        { x with world := (x.world.initiate p P E bundle).2 }
      else x
  | .encrypt p plaintext context => { x with world := x.world.send p P E plaintext context }
  | .decrypt p k m =>
      let result := x.world.call p P E (decrypt P k m)
      if P.toLowerCase (x.world.identityKeyHex p.peer) = P.toLowerCase k then
        { x with
          world := result.2
          accepted :=
            Function.update x.accepted p (acceptedAfter result.1 m.ciphertext (x.accepted p)) }
      else { x with world := result.2 }

/-- A run of steps. -/
def run (x : Exchange B S) (steps : List (ExchangeStep S)) : Exchange B S :=
  steps.foldl (fun x a => x.step P E a) x

/-- Nothing has been generated, sent or accepted. -/
structure Unused (x : Exchange B S) : Prop where
  signedPreKeys : ∀ p, (x.world.store p).signedPreKeys = []
  sessions : ∀ p, x.world.session p P = none
  flights : x.world.flights = []
  bundles : ∀ p, x.bundles p = []
  accepted : ∀ p, x.accepted p = []

/-- The accounts of both parties, with the bundles they have from each other, and the boxes in
flight. -/
structure Sound (x : Exchange B S) : Prop where
  account : ∀ p, ∃ spent, Account P E (x.world.identityKeyHex p.peer) (x.bundles p.peer)
    (x.world.host p) (x.accepted p) spent
  identityKeys : ∀ p, ∀ b ∈ x.bundles p, b.identityKeyHex = x.world.identityKeyHex p
  boxes : ∀ f ∈ x.world.flights, ∃ plaintext nonce key,
    f.message.ciphertext = P.toBase64 (P.secretbox plaintext nonce key)

variable {P E} {x : Exchange B S}

omit [DecidableEq S] in
theorem Unused.sound (h : x.Unused P) : x.Sound P E where
  account p := by
    have hspk : (x.world.host p).store.signedPreKeys = [] := h.signedPreKeys p
    have hsession : (x.world.host p).store.getSession P (x.world.identityKeyHex p.peer) = none :=
      h.sessions p
    refine ⟨[], ?_⟩
    rw [h.bundles, h.accepted]
    exact ⟨by simp [hspk], by simp, by simp, rfl, List.nodup_nil, by simp, by simp,
      by simp [hsession], fun _ => rfl⟩
  identityKeys p b hb := by
    rw [h.bundles] at hb
    cases hb
  boxes f hf := by
    rw [h.flights] at hf
    cases hf

/-! ## What is the other party's -/

variable (P E) in
/-- What a step of `p` leaves alone. -/
structure StepFrame (p : Party) (x x' : Exchange B S) : Prop where
  peer : x'.world.store p.peer = x.world.store p.peer
  identity : (x'.world.store p).identity = (x.world.store p).identity
  draws : x.world.draws ≤ x'.world.draws
  flights : ∀ f ∈ x'.world.flights, f ∈ x.world.flights ∨ f.sender = p
  accepted : x'.accepted p.peer = x.accepted p.peer
  bundles : ∀ b ∈ x'.bundles p, b ∈ x.bundles p ∨
    ∃ d, x.world.draws ≤ d ∧ b.signedPreKey.publicKeyHex = drawnPublicKeyHex P E d

omit [DecidableEq S] in
theorem StepFrame.refl (p : Party) (x : Exchange B S) : StepFrame P E p x x :=
  ⟨rfl, rfl, Nat.le_refl _, fun _ => Or.inl, rfl, fun _ => Or.inl⟩

omit [DecidableEq S] in
/-- A call of `p` that keeps the identity. -/
theorem stepFrame_withHost {p : Party} {h' : Host B S}
    (hid : h'.store.identity = (x.world.store p).identity) (hdraws : x.world.draws ≤ h'.draws) :
    StepFrame P E p x { x with world := x.world.withHost p h' } where
  peer := World.store_withHost_peer _ _ _
  identity := by
    rw [World.store_withHost_self]
    exact hid
  draws := hdraws
  flights _ := Or.inl
  accepted := rfl
  bundles _ := Or.inl

/-- Every step leaves alone what is the other party's. -/
theorem stepFrame_step (x : Exchange B S) (a : ExchangeStep S) :
    StepFrame P E a.caller x (x.step P E a) := by
  cases a with
  | generate p count =>
      rcases run_generatePreKeyBundle_cases P E count (x.world.host p) with
        ⟨e, hfail⟩ | ⟨signatureHex, -, hok⟩
      · simp only [step, World.generate, x.world.call_of_run p P E hfail]
        exact stepFrame_withHost rfl (Nat.le_add_right _ _)
      · simp only [step, World.generate, x.world.call_of_run p P E hok]
        have hlater : x.world.draws ≤ x.world.draws + 3 + 2 * count := by omega
        have hframe : StepFrame P E p x { x with
            world := x.world.withHost p
              { store := (x.world.store p).withBundle P E signatureHex x.world.draws count
                draws := x.world.draws + 3 + 2 * count } } :=
          stepFrame_withHost (SignalStore.identity_withBundle P E _ _ _ _) hlater
        -- what becomes known is the bundle just exported, under a key drawn in this step
        refine ⟨hframe.peer, hframe.identity, hframe.draws, hframe.flights, rfl, ?_⟩
        intro b hb
        dsimp only [ExchangeStep.caller] at hb
        rw [Function.update_self] at hb
        rcases List.mem_cons.1 hb with rfl | hold
        · exact Or.inr ⟨x.world.draws, Nat.le_refl _, rfl⟩
        · exact Or.inl hold
  | initiate p bundle =>
      by_cases hmem : bundle ∈ x.bundles p.peer
      · obtain ⟨r, h', hrun⟩ : ∃ r h', (initiateSession P bundle.identityKeyHex bundle).run P E
          (x.world.host p) = (r, h') := ⟨_, _, rfl⟩
        have hframe := callFrame_initiateSession hrun
        simp only [step, if_pos hmem, World.initiate, x.world.call_of_run p P E hrun]
        exact stepFrame_withHost hframe.identity hframe.draws
      · simp only [step, if_neg hmem]
        exact StepFrame.refl _ _
  | encrypt p plaintext context =>
      obtain ⟨r, h', hrun⟩ : ∃ r h', (Crypto.encrypt P (x.world.identityKeyHex p.peer) plaintext
        context).run P E (x.world.host p) = (r, h') := ⟨_, _, rfl⟩
      have hcall := callFrame_encrypt hrun
      have hframe : StepFrame P E p x { x with world := x.world.withHost p h' } :=
        stepFrame_withHost hcall.identity hcall.draws
      simp only [step, World.send, World.encryptTo, x.world.call_of_run p P E hrun]
      cases r with
      | error e => exact hframe
      | ok m =>
          refine ⟨hframe.peer, hframe.identity, hframe.draws, ?_, rfl, fun _ => Or.inl⟩
          intro f hf
          rcases List.mem_append.1 hf with hold | hnew
          · exact Or.inl hold
          · rw [List.mem_singleton] at hnew
            subst hnew
            exact Or.inr rfl
  | decrypt p k m =>
      obtain ⟨r, h', hrun⟩ : ∃ r h', (Crypto.decrypt P k m).run P E (x.world.host p) = (r, h') :=
        ⟨_, _, rfl⟩
      have hcall := callFrame_decrypt hrun
      have hframe : StepFrame P E p x { x with world := x.world.withHost p h' } :=
        stepFrame_withHost hcall.identity hcall.draws
      -- only a call under the key of the peer adds to what was accepted from it
      by_cases hkey : P.toLowerCase (x.world.identityKeyHex p.peer) = P.toLowerCase k
      · simp only [step, if_pos hkey, x.world.call_of_run p P E hrun]
        exact ⟨hframe.peer, hframe.identity, hframe.draws, hframe.flights,
          Function.update_of_ne (Party.peer_ne p) _ _, fun _ => Or.inl⟩
      · simp only [step, if_neg hkey, x.world.call_of_run p P E hrun]
        exact hframe

/-! ## What one step keeps -/

omit [DecidableEq S] in
/-- A call of `p` that keeps the identity keeps the account of the other party, and everything else
when it keeps the account of `p`. -/
theorem Sound.withHost (hx : x.Sound P E) (hE : E.Fresh P) {p : Party} {h' : Host B S}
    (hid : h'.store.identity = (x.world.store p).identity) (hdraws : x.world.draws ≤ h'.draws)
    {accepted' : List S}
    (hp : ∃ spent, Account P E (x.world.identityKeyHex p.peer) (x.bundles p.peer) h' accepted'
      spent) :
    Sound P E { x with
                world := x.world.withHost p h'
                accepted := Function.update x.accepted p accepted' } where
  account q := by
    simp only [World.identityKeyHex_withHost x.world p hid]
    by_cases hq : q = p
    · subst hq
      rw [Function.update_self]
      have hhost : (x.world.withHost q h').host q = h' := by
        simp [World.host]
      rwa [hhost]
    · rw [Function.update_of_ne hq]
      obtain ⟨spent, hspent⟩ := hx.account q
      have hstore : ((x.world.withHost p h').host q).store = (x.world.host q).store :=
        World.store_withHost_of_ne x.world hq h'
      exact ⟨spent, hspent.frame hE (by rw [hstore]) (by rw [hstore]) hdraws⟩
  identityKeys q b hb := by
    rw [World.identityKeyHex_withHost x.world p hid]
    exact hx.identityKeys q b hb
  boxes := hx.boxes

omit [DecidableEq S] in
/-- The same for a call that accepts nothing. -/
theorem Sound.withHost_same (hx : x.Sound P E) (hE : E.Fresh P) {p : Party} {h' : Host B S}
    (hid : h'.store.identity = (x.world.store p).identity) (hdraws : x.world.draws ≤ h'.draws)
    (hp : ∃ spent, Account P E (x.world.identityKeyHex p.peer) (x.bundles p.peer) h'
      (x.accepted p) spent) : Sound P E { x with world := x.world.withHost p h' } := by
  have hsame := hx.withHost hE hid hdraws hp
  rwa [Function.update_eq_self] at hsame

omit [DecidableEq S] in
/-- A bundle `p` has just generated becomes known to the other party. -/
theorem Sound.withBundle (hx : x.Sound P E) (hE : E.Fresh P) {p : Party} {h' : Host B S}
    {bundle : PreKeyBundle S} (hid : h'.store.identity = (x.world.store p).identity)
    (hdraws : x.world.draws < h'.draws)
    (hp : ∃ spent, Account P E (x.world.identityKeyHex p.peer) (x.bundles p.peer) h'
      (x.accepted p) spent)
    (hkey : bundle.identityKeyHex = x.world.identityKeyHex p)
    (hspk : bundle.signedPreKey.publicKeyHex = drawnPublicKeyHex P E x.world.draws) :
    Sound P E { x with
                world := x.world.withHost p h'
                bundles := Function.update x.bundles p (bundle :: x.bundles p) } where
  account q := by
    simp only [World.identityKeyHex_withHost x.world p hid]
    by_cases hq : q = p
    · subst hq
      rw [Function.update_of_ne (Party.peer_ne q)]
      have hhost : (x.world.withHost q h').host q = h' := by
        simp [World.host]
      rwa [hhost]
    · have hpeer : q.peer = p := by rw [Party.eq_peer_of_ne hq, Party.peer_peer]
      obtain ⟨spent, hspent⟩ := hx.account q
      rw [hpeer] at hspent ⊢
      rw [Function.update_self]
      have hcons := hspent.cons_bundle hE (Nat.le_refl _) hdraws hspk
      refine ⟨spent, ?_⟩
      simpa [World.host, World.store_withHost_of_ne x.world hq] using hcons
  identityKeys q b hb := by
    rw [World.identityKeyHex_withHost x.world p hid]
    replace hb : b ∈ Function.update x.bundles p (bundle :: x.bundles p) q := hb
    by_cases hq : q = p
    · subst hq
      rw [Function.update_self] at hb
      rcases List.mem_cons.1 hb with rfl | hold
      · exact hkey
      · exact hx.identityKeys q b hold
    · rw [Function.update_of_ne hq] at hb
      exact hx.identityKeys q b hb
  boxes := hx.boxes

theorem Sound.generate (hx : x.Sound P E) (hE : E.Fresh P) (p : Party) (count : Nat) :
    (x.step P E (.generate p count)).Sound P E := by
  obtain ⟨spent, hspent⟩ := hx.account p
  rcases run_generatePreKeyBundle_cases P E count (x.world.host p) with
    ⟨e, hfail⟩ | ⟨signatureHex, -, hok⟩
  · have hcall := x.world.call_of_run p P E hfail
    simp only [step, World.generate, hcall]
    exact hx.withHost_same hE rfl (Nat.le_add_right _ _)
      ⟨spent, hspent.frame hE rfl rfl (Nat.le_add_right _ _)⟩
  · have hcall := x.world.call_of_run p P E hok
    simp only [step, World.generate, hcall]
    have hlater : x.world.draws < x.world.draws + 3 + 2 * count := by omega
    exact hx.withBundle hE (SignalStore.identity_withBundle P E _ _ _ _) hlater
      ⟨spent, hspent.withBundle hE signatureHex count hlater⟩ rfl rfl

theorem Sound.initiate (hx : x.Sound P E) (hP : P.Lawful) (hfree : P.FreeTerms) (hE : E.Fresh P)
    (p : Party) (bundle : PreKeyBundle S) : (x.step P E (.initiate p bundle)).Sound P E := by
  by_cases hmem : bundle ∈ x.bundles p.peer
  · obtain ⟨spent, hspent⟩ := hx.account p
    simp only [step, if_pos hmem]
    have hrun : (initiateSession P bundle.identityKeyHex bundle).run P E (x.world.host p) =
      ((x.world.initiate p P E bundle).1, _) := rfl
    rw [hx.identityKeys p.peer bundle hmem] at hrun
    have hframe := callFrame_initiateSession hrun
    have hkept := hspent.initiateSession hP hfree hE hmem hrun
    have hsound := hx.withHost_same hE hframe.identity hframe.draws ⟨spent, hkept⟩
    rw [← hx.identityKeys p.peer bundle hmem] at hsound
    exact hsound
  · simp only [step, if_neg hmem]
    exact hx

theorem Sound.encrypt (hx : x.Sound P E) (hP : P.Lawful) (hE : E.Fresh P) (p : Party)
    (plaintext : S) (context : Option InitialBundleContext) :
    (x.step P E (.encrypt p plaintext context)).Sound P E := by
  obtain ⟨spent, hspent⟩ := hx.account p
  simp only [step, World.send, World.encryptTo]
  rcases run_encrypt_cases P E (x.world.identityKeyHex p.peer) plaintext context
      (x.world.host p) with ⟨e, hfail⟩ | ⟨stored, s, chainHex, c, -, -, -, hok⟩
  · rw [x.world.call_of_run p P E hfail]
    exact hx.withHost_same hE rfl (Nat.le_refl _) ⟨spent, hspent.encrypt hP hE hfail⟩
  · rw [x.world.call_of_run p P E hok]
    have hframe := callFrame_encrypt hok
    have hsound := hx.withHost_same hE hframe.identity hframe.draws
      ⟨spent, hspent.encrypt hP hE hok⟩
    refine ⟨hsound.account, hsound.identityKeys, ?_⟩
    intro f hf
    rcases List.mem_append.1 hf with hold | hnew
    · exact hx.boxes f hold
    · rw [List.mem_singleton] at hnew
      subst hnew
      exact ⟨_, _, _, rfl⟩

theorem Sound.decrypt (hx : x.Sound P E) (hP : P.Lawful) (hfree : P.FreeTerms) (hE : E.Fresh P)
    (p : Party) (k : S) (m : EncryptedMessage S) : (x.step P E (.decrypt p k m)).Sound P E := by
  obtain ⟨spent, hspent⟩ := hx.account p
  have hrun : (Crypto.decrypt P k m).run P E (x.world.host p) =
    ((x.world.call p P E (Crypto.decrypt P k m)).1, _) := rfl
  have hframe := callFrame_decrypt hrun
  by_cases hkey : P.toLowerCase (x.world.identityKeyHex p.peer) = P.toLowerCase k
  · simp only [step, if_pos hkey]
    obtain ⟨spent', hspent'⟩ := (hspent.congr_key hkey).decrypt hP hfree hE hrun
    exact hx.withHost hE hframe.identity hframe.draws ⟨spent', hspent'.congr_key hkey.symm⟩
  · simp only [step, if_neg hkey]
    exact hx.withHost_same hE hframe.identity hframe.draws
      ⟨spent, hspent.decrypt_other hE hkey hrun⟩

/-- Every step keeps both accounts. -/
theorem Sound.step (hx : x.Sound P E) (hP : P.Lawful) (hfree : P.FreeTerms) (hE : E.Fresh P)
    (a : ExchangeStep S) : (x.step P E a).Sound P E := by
  cases a with
  | generate p count => exact hx.generate hE p count
  | initiate p bundle => exact hx.initiate hP hfree hE p bundle
  | encrypt p plaintext context => exact hx.encrypt hP hE p plaintext context
  | decrypt p k m => exact hx.decrypt hP hfree hE p k m

/-- Every run keeps both accounts. -/
theorem Sound.run (hx : x.Sound P E) (hP : P.Lawful) (hfree : P.FreeTerms) (hE : E.Fresh P)
    (steps : List (ExchangeStep S)) : (x.run P E steps).Sound P E := by
  induction steps generalizing x with
  | nil => exact hx
  | cons a steps ih => exact ih (hx.step hP hfree hE a)

end Exchange

/-! ## At most once -/

/-- In a list of pairs with distinct second components, an entry that determines the second
component occurs once. -/
theorem count_fst_le_one {α β : Type} [DecidableEq α] {l : List (α × β)}
    (hnodup : (l.map Prod.snd).Nodup) {a : α} {b : β} (h : ∀ e ∈ l, e.1 = a → e.2 = b) :
    (l.map Prod.fst).count a ≤ 1 := by
  induction l with
  | nil => exact Nat.zero_le _
  | cons e l ih =>
      rw [List.map_cons, List.nodup_cons] at hnodup
      have hrest := ih hnodup.2 fun e' he' => h e' (List.mem_cons_of_mem _ he')
      rw [List.map_cons, List.count_cons]
      by_cases heq : e.1 = a
      · have hnone : (l.map Prod.fst).count a = 0 := by
          apply List.count_eq_zero.2
          intro hmem
          obtain ⟨e', he', hfst⟩ := List.mem_map.1 hmem
          apply hnodup.1
          rw [h e List.mem_cons_self heq, ← h e' (List.mem_cons_of_mem _ he') hfst]
          exact List.mem_map_of_mem he'
        simp [heq, hnone]
      · simpa [heq] using hrest

/-- In every run of `generatePreKeyBundle`, `initiateSession`, `encrypt` and `decrypt` calls of two
parties, on a network that gives `decrypt` any message it likes, each ciphertext `encrypt` returned
is accepted at most once by the peer of the party that sealed it. -/
theorem accepted_at_most_once {P : Primitives B S} {E : Entropy B} (hP : P.Lawful)
    (hfree : P.FreeTerms) (hE : E.Fresh P) {x : Exchange B S} (hx : x.Unused P)
    (steps : List (ExchangeStep S)) {f : Flight S} (hf : f ∈ (x.run P E steps).world.flights) :
    ((x.run P E steps).accepted f.sender.peer).count f.message.ciphertext ≤ 1 := by
  have hsound := (hx.sound (E := E)).run hP hfree hE steps
  obtain ⟨plaintext, nonce, key, hbox⟩ := hsound.boxes f hf
  obtain ⟨spent, hspent⟩ := hsound.account f.sender.peer
  rw [← hspent.ciphertexts]
  refine count_fst_le_one hspent.nodup (b := key) ?_
  intro e he hciphertext
  obtain ⟨nonce', decrypted, hopen⟩ := hspent.opens e he
  rw [hciphertext, hbox, hP.fromBase64_toBase64] at hopen
  exact hfree.secretboxOpen_key hopen

/-! ## A message delivered twice -/

open TorE2EE.Crypto.Sym

def symbolicExchange : Exchange Sym Sym :=
  { world := symbolicWorld, bundles := fun _ => [], accepted := fun _ => [] }

theorem symbolicExchange_unused : symbolicExchange.Unused symbolic := by
  refine ⟨?_, ?_, rfl, fun _ => rfl, fun _ => rfl⟩
  · intro p
    cases p <;> rfl
  · intro p
    cases p <;> rfl

/-- `bob` gets `alice`'s first message twice. -/
def replayedHello : List (ExchangeStep Sym) :=
  [.generate .bob 1, .initiate .alice (symbolicBundle symbolicEntropy 1),
    .encrypt .alice (text "hello") none, .decrypt .bob (hex (pub (name 0))) symbolicHello,
    .decrypt .bob (hex (pub (name 0))) symbolicHello]

theorem accepted_at_most_once_symbolic :
    ∃ f ∈ (symbolicExchange.run symbolic symbolicEntropy replayedHello).world.flights,
      ((symbolicExchange.run symbolic symbolicEntropy replayedHello).accepted f.sender.peer).count
        f.message.ciphertext ≤ 1 := by
  exact ⟨_, List.head_mem (by decide), accepted_at_most_once symbolic_lawful symbolic_freeTerms
    (fresh_of_secretKey rfl rfl) symbolicExchange_unused replayedHello (List.head_mem (by decide))⟩

example : (symbolicExchange.run symbolic symbolicEntropy replayedHello).accepted .bob =
    [symbolicHello.ciphertext] := by
  decide

end TorE2EE.Crypto
