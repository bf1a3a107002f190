import TorE2EE.Crypto.OpenKeys
import TorE2EE.Crypto.Replays
import TorE2EE.Crypto.SendChains

/-!
# Used message keys are gone

`Usage` lists the message keys an engine has sealed and opened messages of one peer with. Each is of
the lineage of a session set up so far, and none is open in the present session. Every call keeps
this (`Usage.encrypt`, `Usage.decrypt` and the others), and an open key is all that can be derived:
after any run of an exchange no used message key follows from a saved session
(`used_keys_not_derived`).
-/

set_option autoImplicit false

namespace TorE2EE.Crypto

open TorE2EE.Foundation

variable {B S : Type}

/-- The ciphertext `c` is a box that opens under `key`. -/
def OpenedUnder (P : Primitives B S) (c : S) (key : B) : Prop :=
  ∃ nonce decrypted, P.secretboxOpen (P.fromBase64 c) nonce key = .ok (some decrypted)

/-- `used` are message keys that were used with the peer `k`. -/
structure Usage (P : Primitives B S) (E : Entropy B) (k : S) (bundles : List (PreKeyBundle S))
    (h : Host B S) (used : List B) : Prop where
  made : ∀ key ∈ used, ∃ dhs, Made P E h.draws bundles dhs ∧ ∃ j i, KeyAt P dhs j i key
  session : ∀ s, h.store.getSession P k = some s → ∃ dhs top st n,
    Made P E h.draws bundles dhs ∧ Placed P E dhs top st n s ∧
      ∀ key ∈ used, ¬ Open P dhs top st n s key
  noSession : h.store.getSession P k = none → used = []

variable {P : Primitives B S} {E : Entropy B} {k : S} {bundles : List (PreKeyBundle S)}
  {h h' : Host B S} {used : List B} {dhs : List B} {accepted : List S} {spent : List (S × B)}

/-- A used key does not follow from the saved session. -/
theorem Usage.not_derives (hu : Usage P E k bundles h used) (hP : P.Lawful) (hfree : P.FreeTerms)
    {kind : B → KeyKind} (hk : KeyKinds P E kind) {key : B} (hkey : key ∈ used)
    {s : SessionRecord B S} (hs : h.store.getSession P k = some s) : ¬ Derives P s key := by
  intro hderived
  obtain ⟨dhs, top, st, n, -, hplaced, hclosed⟩ := hu.session s hs
  obtain ⟨dhs', -, j, i, hat⟩ := hu.made key hkey
  exact hclosed key hkey (hplaced.open_of_derives hP hfree hk hderived hat)

/-! ## Calls that use no key -/

/-- A call that keeps the session keeps the used keys, also when the peer has exported new
bundles. -/
theorem Usage.frame (hu : Usage P E k bundles h used) (hE : E.Fresh P)
    {bundles' : List (PreKeyBundle S)}
    (hsession : h'.store.getSession P k = h.store.getSession P k) (hdraws : h.draws ≤ h'.draws)
    (hbundles : ∀ b ∈ bundles', b ∈ bundles ∨
      ∃ d, h.draws ≤ d ∧ b.signedPreKey.publicKeyHex = drawnPublicKeyHex P E d) :
    Usage P E k bundles' h' used where
  made key hkey := by
    obtain ⟨dhs, hmade, hat⟩ := hu.made key hkey
    exact ⟨dhs, hmade.mono hE hdraws hbundles, hat⟩
  session s hs := by
    rw [hsession] at hs
    obtain ⟨dhs, top, st, n, hmade, hplaced, hclosed⟩ := hu.session s hs
    exact ⟨dhs, top, st, n, hmade.mono hE hdraws hbundles, hplaced, hclosed⟩
  noSession := by
    rw [hsession]
    exact hu.noSession

theorem Usage.frame_same (hu : Usage P E k bundles h used) (hE : E.Fresh P)
    (hsession : h'.store.getSession P k = h.store.getSession P k) (hdraws : h.draws ≤ h'.draws) :
    Usage P E k bundles h' used := by
  apply hu.frame hE hsession hdraws
  intro b hb
  exact Or.inl hb

/-- The used keys are kept under the lower-cased key. -/
theorem Usage.congr_key {k' : S} (hu : Usage P E k bundles h used)
    (hkey : P.toLowerCase k = P.toLowerCase k') : Usage P E k' bundles h used := by
  have hsession : h.store.getSession P k' = h.store.getSession P k := by
    rw [SignalStore.getSession, ← hkey, SignalStore.getSession]
  refine ⟨hu.made, ?_, ?_⟩
  · rw [hsession]
    exact hu.session
  · rw [hsession]
    exact hu.noSession

variable [DecidableEq S]

/-- A session in which no used key is open may be saved. -/
theorem Usage.saveSession (hu : Usage P E k bundles h used) {s : SessionRecord B S}
    {top st n : Nat} (hmade : Made P E h.draws bundles dhs) (hplaced : Placed P E dhs top st n s)
    (hclosed : ∀ key ∈ used, ¬ Open P dhs top st n s key) :
    Usage P E k bundles { h with store := h.store.saveSession P k s } used := by
  refine ⟨hu.made, ?_, ?_⟩
  · intro s' hs'
    rw [SignalStore.getSession_saveSession_self] at hs'
    cases hs'
    exact ⟨dhs, top, st, n, hmade, hplaced, hclosed⟩
  · intro hnone
    rw [SignalStore.getSession_saveSession_self] at hnone
    cases hnone

/-- A key the saved session has closed is a used one from now on. -/
theorem Usage.use (hu : Usage P E k bundles h used) {s s' : SessionRecord B S}
    {top top' st st' n n' : Nat} {key : B} (hmade : Made P E h.draws bundles dhs)
    (hclosed : ∀ key' ∈ used, ¬ Open P dhs top st n s key')
    (hat : ∃ j i, KeyAt P dhs j i key) (hplaced' : Placed P E dhs top' st' n' s')
    (hgone : ¬ Open P dhs top' st' n' s' key)
    (hless : ∀ key', Open P dhs top' st' n' s' key' → Open P dhs top st n s key') :
    Usage P E k bundles { h with store := h.store.saveSession P k s' } (key :: used) := by
  refine ⟨?_, ?_, ?_⟩
  · intro key' hkey'
    rcases List.mem_cons.1 hkey' with rfl | hold
    · exact ⟨dhs, hmade, hat⟩
    · exact hu.made key' hold
  · intro s'' hs''
    rw [SignalStore.getSession_saveSession_self] at hs''
    cases hs''
    refine ⟨dhs, top', st', n', hmade, hplaced', ?_⟩
    intro key' hkey'
    rcases List.mem_cons.1 hkey' with rfl | hold
    · exact hgone
    · exact fun hopen => hclosed key' hold (hless key' hopen)
  · intro hnone
    rw [SignalStore.getSession_saveSession_self] at hnone
    cases hnone

/-- A session of new Diffie-Hellman values has no used key open. -/
theorem Usage.initiateSession (hu : Usage P E k bundles h used)
    (ha : Account P E k bundles h accepted spent) (hP : P.Lawful) (hfree : P.FreeTerms)
    (hE : E.Fresh P) {bundle : PreKeyBundle S} (hmem : bundle ∈ bundles)
    {r : Except (EngineError S) (SessionRecord B S)}
    (hrun : (Crypto.initiateSession P k bundle).run P E h = (r, h')) :
    Usage P E k bundles h' used := by
  rcases run_initiateSession_cases P E k bundle h with
    ⟨e, h₁, hfail, hstore, hdraws⟩ | ⟨dhs, initialDh, hin⟩
  · rw [hfail] at hrun
    cases hrun
    exact hu.frame_same hE (by rw [hstore]) hdraws
  · rw [run_initiateSession_of_inputs hin] at hrun
    cases hrun
    obtain ⟨ikB, spkB, -, hspk, hdhs, -⟩ := hin.keys
    obtain ⟨v, hv, hmul⟩ := initiatorDhs_third hdhs
    obtain ⟨d₀, hd₀, hkey⟩ := ha.exported bundle hmem
    rw [hkey, drawnPublicKeyHex, hP.hexToBytes_bytesToHex] at hspk
    cases hspk
    have hmade : Made P E (h.draws + 3) bundles dhs :=
      ⟨h.draws, _, v, hv, by omega, hmul, Or.inl ⟨d₀, by omega, rfl⟩⟩
    have hlater : Usage P E k bundles { h with draws := h.draws + 3 } used :=
      hu.frame_same hE rfl (Nat.le_add_right _ _)
    have hplaced : Placed P E dhs 0 0 1 (initiatedSession P bundle
        (kdfRoot P (masterSecret P dhs) initialDh) (keyPairOf P (E.secretKey h.draws))
        (E.now (h.draws + 1)) (E.now (h.draws + 2))) :=
      placed_initiatedSession hP bundle hin.dhValues initialDh h.draws _ _
    refine hlater.saveSession hmade hplaced ?_
    intro key hused hopen
    -- a used key belongs to a session set up before
    obtain ⟨dhs', hmade', j, i, hat⟩ := hu.made key hused
    obtain ⟨j', i', hat'⟩ := hplaced.keyAt_of_open hP hopen
    obtain ⟨heq, -⟩ := hat'.unique hfree hat
    exact initiator_dhs_ne hfree hE hmade' hmem rfl hkey hv hmul heq

/-! ## Calls that use a key -/

/-- `encrypt` uses the key it seals with. -/
theorem Usage.encrypt (hu : Usage P E k bundles h used) (hP : P.Lawful) (hfree : P.FreeTerms)
    (hE : E.Fresh P) {plaintext : S} {context : Option InitialBundleContext}
    {r : Except (EngineError S) (EncryptedMessage S)}
    (hrun : (Crypto.encrypt P k plaintext context).run P E h = (r, h')) :
    ∃ used', Usage P E k bundles h' used' ∧ (∀ key ∈ used, key ∈ used') ∧
      ∀ m, r = .ok m → ∃ c, (kdfChain P c).messageKey ∈ used' ∧ BoxedAt P m c := by
  rcases run_encrypt_cases P E k plaintext context h with
    ⟨e, hfail⟩ | ⟨stored, s, chainHex, c, hstored, hchain, hc, hok⟩
  · rw [hfail] at hrun
    cases hrun
    refine ⟨used, hu, fun _ => id, ?_⟩
    intro m hm
    cases hm
  · rw [hok] at hrun
    cases hrun
    obtain ⟨dhs, top, st, n, hmade, hplaced, hclosed⟩ := hu.session stored hstored
    obtain ⟨st', n', hplaced', hat, hgone, hless⟩ :=
      hplaced.sealedOnce hP hfree hchain hc (E.now h.draws)
    have hnew := hu.use hmade hclosed hat hplaced' hgone hless
    refine ⟨_, hnew.frame_same hE rfl (Nat.le_add_right _ _), fun _ => List.mem_cons_of_mem _, ?_⟩
    intro m hm
    cases hm
    exact ⟨c, List.mem_cons_self, _, _, hE.nonce _, rfl⟩

/-- `decrypt` in a session uses the key it opens with, if the box opens. -/
theorem Usage.decryptInSession (hu : Usage P E k bundles h used) (hP : P.Lawful)
    (hfree : P.FreeTerms) (hE : E.Fresh P) {s : SessionRecord B S}
    (hs : h.store.getSession P k = some s) {m : EncryptedMessage S}
    {r : Except (EngineError S) S}
    (hrun : (Crypto.decryptInSession P k m s).run P E h = (r, h')) :
    ∃ used', Usage P E k bundles h' used' ∧ (∀ key ∈ used, key ∈ used') ∧
      ∀ t, r = .ok t → ∃ key ∈ used', OpenedUnder P m.ciphertext key := by
  rcases run_decryptInSession_cases P E k m s h with
    ⟨e, h₁, hfail, hstore, hdraws, -⟩ | ⟨key, saved, hsel⟩
  · rw [hfail] at hrun
    cases hrun
    refine ⟨used, hu.frame_same hE (by rw [hstore]) hdraws, fun _ => id, ?_⟩
    intro t ht
    cases ht
  · obtain ⟨now, draws, hok, hdraws, -⟩ := run_decryptInSession_of_selects (k := k) hsel
    rw [hok] at hrun
    cases hrun
    obtain ⟨dhs, top, st, n, hmade, hplaced, hclosed⟩ := hu.session s hs
    obtain ⟨hat, top', st', n', hsaved⟩ := hplaced.selects hP hfree hsel
    obtain ⟨hplaced', hgone, hless⟩ := hsaved now
    have hnew := hu.use hmade hclosed hat hplaced' hgone hless
    refine ⟨_, hnew.frame_same hE rfl hdraws, fun _ => List.mem_cons_of_mem _, ?_⟩
    intro t ht
    obtain ⟨nonce, decrypted, -, hbox, -⟩ := decryptWithKey_ok_iff.1 ht
    exact ⟨key, List.mem_cons_self, nonce, decrypted, hbox⟩

/-- `decrypt` under the peer's key uses the key it opens with, if the box opens. -/
theorem Usage.decrypt (hu : Usage P E k bundles h used)
    (ha : Account P E k bundles h accepted spent) (hP : P.Lawful) (hfree : P.FreeTerms)
    (hE : E.Fresh P) {m : EncryptedMessage S} {r : Except (EngineError S) S}
    (hrun : (Crypto.decrypt P k m).run P E h = (r, h')) :
    ∃ used', Usage P E k bundles h' used' ∧ (∀ key ∈ used, key ∈ used') ∧
      ∀ t, r = .ok t → ∃ key ∈ used', OpenedUnder P m.ciphertext key := by
  cases hs : h.store.getSession P k with
  | some s =>
      rw [run_decrypt_of_session P E hs] at hrun
      exact hu.decryptInSession hP hfree hE hs hrun
  | none =>
      have hkept (hrefused : ∃ e, r = .error e)
          (hsession : h'.store.getSession P k = h.store.getSession P k)
          (hdraws : h.draws ≤ h'.draws) :
          ∃ used', Usage P E k bundles h' used' ∧ (∀ key ∈ used, key ∈ used') ∧
            ∀ t, r = .ok t → ∃ key ∈ used', OpenedUnder P m.ciphertext key := by
        refine ⟨used, hu.frame_same hE hsession hdraws, fun _ => id, ?_⟩
        rintro t rfl
        obtain ⟨e, he⟩ := hrefused
        cases he
      rcases run_initiateBobSession_cases P E k m h with
        ⟨e, hfail, -⟩ | ⟨e, ikA, ekA, spk, hfail, -⟩ | ⟨dhs, initialDh, hin⟩
      · rw [run_decrypt_of_refused hs hfail] at hrun
        cases hrun
        exact hkept ⟨e, rfl⟩ rfl (Nat.le_refl _)
      · rw [run_decrypt_of_refused hs hfail] at hrun
        cases hrun
        exact hkept ⟨e, rfl⟩ (by simp) (Nat.le_refl _)
      · have hresponded := run_initiateBobSession_of_inputs (E := E) (k := k) hin
        rw [run_decrypt_of_responded hs hresponded] at hrun
        have htaken : Usage P E k bundles
            { store := h.store.withoutNamed m.oneTimePreKeyId, draws := h.draws + 3 } used :=
          hu.frame_same hE (by simp) (Nat.le_add_right _ _)
        have hmade : Made P E (h.draws + 3) bundles dhs :=
          (ha.made_of_responderInputs hin).mono hE (Nat.le_add_right _ _) fun b hb => Or.inl hb
        have hplaced := placed_respondedSession (E := E) hP k m hin.dhValues initialDh h.draws
          (E.now (h.draws + 1)) (E.now (h.draws + 2))
        have hstart := htaken.saveSession hmade hplaced (by
          -- nothing was used with a peer without a session
          rw [hu.noSession hs]
          simp)
        exact hstart.decryptInSession hP hfree hE (SignalStore.getSession_saveSession_self P _ _ _)
          hrun

/-! ## Runs of two parties -/

namespace Exchange

variable (P E) in
/-- Every message a party sealed or opened has its key among the used ones. -/
structure KeysUsed (x : Exchange B S) (p : Party) (used : List B) : Prop where
  usage : Usage P E (x.world.identityKeyHex p.peer) (x.bundles p.peer) (x.world.host p) used
  sent : ∀ f ∈ x.world.flights, f.sender = p →
    ∃ c, (kdfChain P c).messageKey ∈ used ∧ BoxedAt P f.message c
  taken : ∀ c ∈ x.accepted p, ∃ key ∈ used, OpenedUnder P c key

variable {x : Exchange B S} {p : Party}

omit [DecidableEq S] in
theorem Unused.keysUsed (h : x.Unused P) (p : Party) : x.KeysUsed P E p [] where
  usage := by
    have hsession : (x.world.host p).store.getSession P (x.world.identityKeyHex p.peer) = none :=
      h.sessions p
    exact ⟨by simp, by simp [hsession], fun _ => rfl⟩
  sent f hf := by
    rw [h.flights] at hf
    cases hf
  taken c hc := by
    rw [h.accepted] at hc
    cases hc

omit [DecidableEq S] in
theorem KeysUsed.of_used {used' : List B} (hx : x.KeysUsed P E p used)
    (hold : ∀ key ∈ used, key ∈ used') :
    (∀ f ∈ x.world.flights, f.sender = p →
        ∃ c, (kdfChain P c).messageKey ∈ used' ∧ BoxedAt P f.message c) ∧
      ∀ c ∈ x.accepted p, ∃ key ∈ used', OpenedUnder P c key := by
  constructor
  · intro f hf hsender
    obtain ⟨c, hkey, hbox⟩ := hx.sent f hf hsender
    exact ⟨c, hold _ hkey, hbox⟩
  · intro c hc
    obtain ⟨key, hkey, hbox⟩ := hx.taken c hc
    exact ⟨key, hold key hkey, hbox⟩

omit [DecidableEq S] in
theorem host_withHost_self (w : World B S) (h' : Host B S) : (w.withHost p h').host p = h' := by
  simp [World.host]

omit [DecidableEq S] in
/-- A step of `p` keeps the used keys of the other party. -/
theorem KeysUsed.of_frame {x' : Exchange B S} (hx : x.KeysUsed P E p.peer used) (hE : E.Fresh P)
    (hframe : StepFrame P E p x x') : x'.KeysUsed P E p.peer used where
  usage := by
    have husage := hx.usage
    rw [Party.peer_peer] at husage ⊢
    rw [World.identityKeyHex, hframe.identity]
    apply husage.frame hE
    · show (x'.world.store p.peer).getSession P _ = (x.world.store p.peer).getSession P _
      rw [hframe.peer]
    · exact hframe.draws
    · exact hframe.bundles
  sent f hf hsender := by
    rcases hframe.flights f hf with hold | hnew
    · exact hx.sent f hold hsender
    · exact absurd (hsender.symm.trans hnew) (Party.peer_ne p)
  taken := by
    rw [hframe.accepted]
    exact hx.taken

/-! ## What one step keeps -/

theorem keysUsed_generate (hx : x.KeysUsed P E p used) (hE : E.Fresh P) (count : Nat) :
    (x.step P E (.generate p count)).KeysUsed P E p used := by
  rcases run_generatePreKeyBundle_cases P E count (x.world.host p) with
    ⟨e, hfail⟩ | ⟨signatureHex, -, hok⟩
  · simp only [step, World.generate, x.world.call_of_run p P E hfail]
    refine ⟨?_, hx.sent, hx.taken⟩
    have hid : ((x.world.host p).store).identity = (x.world.store p).identity := rfl
    rw [World.identityKeyHex_withHost x.world p (by exact hid), host_withHost_self]
    exact hx.usage.frame_same hE rfl (Nat.le_add_right _ _)
  · simp only [step, World.generate, x.world.call_of_run p P E hok]
    have hid := SignalStore.identity_withBundle P E (x.world.store p) signatureHex x.world.draws
      count
    have hlater : x.world.draws ≤ x.world.draws + 3 + 2 * count := by omega
    refine ⟨?_, hx.sent, hx.taken⟩
    rw [World.identityKeyHex_withHost x.world p hid, host_withHost_self]
    dsimp only
    rw [Function.update_of_ne (Party.peer_ne p)]
    exact hx.usage.frame_same hE (SignalStore.getSession_withBundle P E _ _ _ _ _) hlater

theorem keysUsed_initiate (hx : x.KeysUsed P E p used) (hsound : x.Sound P E) (hP : P.Lawful)
    (hfree : P.FreeTerms) (hE : E.Fresh P) (bundle : PreKeyBundle S) :
    (x.step P E (.initiate p bundle)).KeysUsed P E p used := by
  by_cases hmem : bundle ∈ x.bundles p.peer
  · obtain ⟨spent, hspent⟩ := hsound.account p
    have hkey := hsound.identityKeys p.peer bundle hmem
    obtain ⟨r, h', hrun⟩ : ∃ r h', (initiateSession P bundle.identityKeyHex bundle).run P E
      (x.world.host p) = (r, h') := ⟨_, _, rfl⟩
    have hcall := x.world.call_of_run p P E hrun
    rw [hkey] at hrun
    have hframe := callFrame_initiateSession hrun
    have husage := hx.usage.initiateSession hspent hP hfree hE hmem hrun
    simp only [step, if_pos hmem, World.initiate, hcall]
    refine ⟨?_, hx.sent, hx.taken⟩
    rw [World.identityKeyHex_withHost x.world p hframe.identity, host_withHost_self]
    exact husage
  · simp only [step, if_neg hmem]
    exact hx

theorem keysUsed_encrypt (hx : x.KeysUsed P E p used) (hP : P.Lawful) (hfree : P.FreeTerms)
    (hE : E.Fresh P) (plaintext : S) (context : Option InitialBundleContext) :
    ∃ used', (x.step P E (.encrypt p plaintext context)).KeysUsed P E p used' := by
  obtain ⟨r, h', hrun⟩ : ∃ r h', (Crypto.encrypt P (x.world.identityKeyHex p.peer) plaintext
    context).run P E (x.world.host p) = (r, h') := ⟨_, _, rfl⟩
  have hframe := callFrame_encrypt hrun
  obtain ⟨used', husage, hold, hnew⟩ := hx.usage.encrypt hP hfree hE hrun
  obtain ⟨hsent, htaken⟩ := hx.of_used hold
  have hx' : KeysUsed P E { x with world := x.world.withHost p h' } p used' := by
    refine ⟨?_, hsent, htaken⟩
    rw [World.identityKeyHex_withHost x.world p hframe.identity, host_withHost_self]
    exact husage
  refine ⟨used', ?_⟩
  simp only [step, World.send, World.encryptTo, x.world.call_of_run p P E hrun]
  cases r with
  | error e => exact hx'
  | ok m =>
      refine ⟨hx'.usage, ?_, hx'.taken⟩
      intro f hf hsender
      rcases List.mem_append.1 hf with hold' | hlaunched
      · exact hx'.sent f hold' hsender
      · rw [List.mem_singleton] at hlaunched
        subst hlaunched
        exact hnew m rfl

theorem keysUsed_decrypt (hx : x.KeysUsed P E p used) (hsound : x.Sound P E) (hP : P.Lawful)
    (hfree : P.FreeTerms) (hE : E.Fresh P) (k : S) (m : EncryptedMessage S) :
    ∃ used', (x.step P E (.decrypt p k m)).KeysUsed P E p used' := by
  obtain ⟨spent, hspent⟩ := hsound.account p
  obtain ⟨r, h', hrun⟩ : ∃ r h', (Crypto.decrypt P k m).run P E (x.world.host p) = (r, h') :=
    ⟨_, _, rfl⟩
  have hframe := callFrame_decrypt hrun
  -- only a call under the key of the peer works in the session with it
  by_cases hkey : P.toLowerCase (x.world.identityKeyHex p.peer) = P.toLowerCase k
  · obtain ⟨used', husage, hold, hnew⟩ :=
      (hx.usage.congr_key hkey).decrypt (hspent.congr_key hkey) hP hfree hE hrun
    obtain ⟨hsent, htaken⟩ := hx.of_used hold
    simp only [step, if_pos hkey, x.world.call_of_run p P E hrun]
    refine ⟨used', ?_, hsent, ?_⟩
    · rw [World.identityKeyHex_withHost x.world p hframe.identity, host_withHost_self]
      exact husage.congr_key hkey.symm
    · intro c hc
      dsimp only at hc
      rw [Function.update_self] at hc
      cases r with
      | error e => exact htaken c hc
      | ok t =>
          rcases List.mem_cons.1 hc with rfl | hc
          · exact hnew t rfl
          · exact htaken c hc
  · simp only [step, if_neg hkey, x.world.call_of_run p P E hrun]
    refine ⟨used, ?_, hx.sent, hx.taken⟩
    rw [World.identityKeyHex_withHost x.world p hframe.identity, host_withHost_self]
    exact hx.usage.frame_same hE (hframe.sessions _ hkey) hframe.draws

/-- Every step keeps the used keys of both parties. -/
theorem keysUsed_step (hx : ∀ q, ∃ used, x.KeysUsed P E q used) (hsound : x.Sound P E)
    (hP : P.Lawful) (hfree : P.FreeTerms) (hE : E.Fresh P) (a : ExchangeStep S) (q : Party) :
    ∃ used, (x.step P E a).KeysUsed P E q used := by
  obtain ⟨used, hused⟩ := hx q
  by_cases hq : q = a.caller
  · cases a with
    | generate p count =>
        cases hq
        exact ⟨used, keysUsed_generate hused hE count⟩
    | initiate p bundle =>
        cases hq
        exact ⟨used, keysUsed_initiate hused hsound hP hfree hE bundle⟩
    | encrypt p plaintext context =>
        cases hq
        exact keysUsed_encrypt hused hP hfree hE plaintext context
    | decrypt p k m =>
        cases hq
        exact keysUsed_decrypt hused hsound hP hfree hE k m
  · cases Party.eq_peer_of_ne hq
    exact ⟨used, hused.of_frame hE (stepFrame_step x a)⟩

/-- Every run keeps the used keys of both parties. -/
theorem keysUsed_run (hx : ∀ q, ∃ used, x.KeysUsed P E q used) (hsound : x.Sound P E)
    (hP : P.Lawful) (hfree : P.FreeTerms) (hE : E.Fresh P) (steps : List (ExchangeStep S)) :
    ∀ q, ∃ used, (x.run P E steps).KeysUsed P E q used := by
  induction steps generalizing x with
  | nil => exact hx
  | cons a steps ih =>
      exact ih (keysUsed_step hx hsound hP hfree hE a) (hsound.step hP hfree hE a)

end Exchange

/-! ## Used keys cannot be derived -/

/-- In every run of `generatePreKeyBundle`, `initiateSession`, `encrypt` and `decrypt` calls of two
parties, whatever the network gives to `decrypt`: a message key under which `encrypt` has sealed a
message follows neither from the sender's saved session nor, once the peer has accepted the
message, from the receiver's. -/
theorem used_keys_not_derived {P : Primitives B S} {E : Entropy B} (hP : P.Lawful)
    (hfree : P.FreeTerms) (hE : E.Fresh P) (hkinds : ∃ kind, KeyKinds P E kind)
    {x : Exchange B S} (hx : x.Unused P) (steps : List (ExchangeStep S)) {f : Flight S}
    (hf : f ∈ (x.run P E steps).world.flights) {key : B} (hkey : SealedUnder P f.message key) :
    (∀ s, (x.run P E steps).world.session f.sender P = some s → ¬ Derives P s key) ∧
      (f.message.ciphertext ∈ (x.run P E steps).accepted f.sender.peer →
        ∀ s, (x.run P E steps).world.session f.sender.peer P = some s → ¬ Derives P s key) := by
  obtain ⟨kind, hk⟩ := hkinds
  have hused := Exchange.keysUsed_run (E := E) (fun q => ⟨[], hx.keysUsed q⟩) hx.sound hP hfree hE
    steps
  constructor
  · intro s hs
    obtain ⟨used, hsender⟩ := hused f.sender
    obtain ⟨key', hmem, hbox⟩ := hsender.sent f hf rfl
    cases hkey.unique hP hfree hbox
    exact hsender.usage.not_derives hP hfree hk hmem hs
  · intro haccepted s hs
    obtain ⟨used, hreceiver⟩ := hused f.sender.peer
    obtain ⟨key', hmem, nonce', decrypted, hopen⟩ := hreceiver.taken _ haccepted
    -- the box opens under the key it was sealed under
    obtain ⟨plaintext, nonce, hbox⟩ := hkey
    rw [hbox, hP.fromBase64_toBase64] at hopen
    cases hfree.secretboxOpen_key hopen
    exact hreceiver.usage.not_derives hP hfree hk hmem hs

/-! ## A message sent and received -/

open TorE2EE.Crypto.Sym

/-- The kinds of symbolic keys. -/
def symbolicKind : Sym → KeyKind
  | .name _ => .secret
  | .slice (.hkdf _ _ info _) lo _ =>
      if info = symbolic.hkdfInfoRoot then if lo = 0 then .root else .chain
      else if lo = 0 then .nextChain else .message
  | _ => .master

theorem symbolic_keyKinds : KeyKinds symbolic symbolicEntropy symbolicKind where
  master _ := rfl
  root _ _ := by simp [kdfRoot, symbolic, symbolicKind]
  chain _ _ := by simp [kdfRoot, symbolic, symbolicKind]
  nextChain _ := by simp [kdfChain, symbolic, symbolicKind, Primitives.hkdfInfoRoot,
    Primitives.hkdfInfoChain]
  message _ := by simp [kdfChain, symbolic, symbolicKind, Primitives.hkdfInfoRoot,
    Primitives.hkdfInfoChain]
  secret _ := rfl

/-- The key of a symbolic ciphertext. -/
def symbolicSealingKey : Sym → Sym
  | .base64 (.box _ _ key) => key
  | _ => .nil

theorem used_keys_not_derived_symbolic :
    ∃ f ∈ (symbolicExchange.run symbolic symbolicEntropy replayedHello).world.flights,
      ∃ key, SealedUnder symbolic f.message key ∧ ∀ p, ∃ s,
        (symbolicExchange.run symbolic symbolicEntropy replayedHello).world.session p symbolic =
          some s ∧ ¬ Derives symbolic s key := by
  have hsome (p : Party) : ((symbolicExchange.run symbolic symbolicEntropy
      replayedHello).world.session p symbolic).isSome = true := by
    cases p <;> decide
  have hsealed : SealedUnder symbolic symbolicHello (symbolicSealingKey symbolicHello.ciphertext) :=
    ⟨utf8 (text "hello"), nonce 9, by decide⟩
  have hmem : (⟨.alice, text "hello", symbolicHello⟩ : Flight Sym) ∈
      (symbolicExchange.run symbolic symbolicEntropy replayedHello).world.flights := by
    decide
  obtain ⟨hsender, hreceiver⟩ := used_keys_not_derived symbolic_lawful symbolic_freeTerms
    (fresh_of_secretKey rfl rfl) ⟨_, symbolic_keyKinds⟩ symbolicExchange_unused replayedHello hmem
    hsealed
  refine ⟨_, hmem, _, hsealed, ?_⟩
  intro p
  obtain ⟨s, hs⟩ := Option.isSome_iff_exists.1 (hsome p)
  refine ⟨s, hs, ?_⟩
  cases p with
  | alice => exact hsender s hs
  | bob => exact hreceiver (by decide) s hs

end TorE2EE.Crypto
