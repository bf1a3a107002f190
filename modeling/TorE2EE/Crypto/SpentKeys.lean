import TorE2EE.Crypto.FirstContact
import TorE2EE.Crypto.KeyLineage

/-!
# The account of spent message keys

`Account` relates an engine's store to the ciphertexts it has accepted from one peer: each was
opened under a message key of its own, and the present session can reach none of these keys again.

A session is replaced by `initiateSession` only, and the new master secret is another one than all
before it (`initiator_dhs_ne`): it contains a Diffie-Hellman value of a key drawn just now.
-/

set_option autoImplicit false

namespace TorE2EE.Crypto

open TorE2EE.Foundation

variable {B S : Type}

/-- The public key drawn at draw number `d`, in hex. -/
def drawnPublicKeyHex (P : Primitives B S) (E : Entropy B) (d : Nat) : S :=
  P.bytesToHex (P.scalarMultBase (E.secretKey d))

/-- `dhs` are Diffie-Hellman values of a session set up so far: the third one is of a key the engine
drew with a signed prekey of the peer or, for a responder, of its own signed prekey with any key. -/
def Made (P : Primitives B S) (E : Entropy B) (draws : Nat) (bundles : List (PreKeyBundle S))
    (dhs : List B) : Prop :=
  ∃ d y v, dhs[2]? = some v ∧ d < draws ∧ P.scalarMult (E.secretKey d) y = .ok v ∧
    ((∃ d' < draws, y = P.scalarMultBase (E.secretKey d')) ∨
      ∀ b ∈ bundles, b.signedPreKey.publicKeyHex ≠ drawnPublicKeyHex P E d)

/-- `spent` are the ciphertexts accepted from the peer `k`, each with the message key it was opened
under. `bundles` are the ones the peer has exported. -/
structure Account (P : Primitives B S) (E : Entropy B) (k : S) (bundles : List (PreKeyBundle S))
    (h : Host B S) (accepted : List S) (spent : List (S × B)) : Prop where
  signedPreKeys : ∀ spk ∈ h.store.signedPreKeys,
    ∃ d < h.draws, spk.keyPair = keyPairOf P (E.secretKey d)
  apart : ∀ spk ∈ h.store.signedPreKeys, ∀ b ∈ bundles,
    b.signedPreKey.publicKeyHex ≠ spk.keyPair.publicKeyHex
  exported : ∀ b ∈ bundles, ∃ d < h.draws, b.signedPreKey.publicKeyHex = drawnPublicKeyHex P E d
  ciphertexts : spent.map Prod.fst = accepted
  nodup : (spent.map Prod.snd).Nodup
  opens : ∀ e ∈ spent, ∃ nonce decrypted,
    P.secretboxOpen (P.fromBase64 e.1) nonce e.2 = .ok (some decrypted)
  made : ∀ e ∈ spent, ∃ dhs, Made P E h.draws bundles dhs ∧ ∃ j i, KeyAt P dhs j i e.2
  session : ∀ s, h.store.getSession P k = some s → ∃ dhs top n,
    Made P E h.draws bundles dhs ∧ Traced P dhs top n s ∧ ∀ e ∈ spent, ¬ Available P dhs top s e.2
  noSession : h.store.getSession P k = none → spent = []

variable {P : Primitives B S} {E : Entropy B} {bundles : List (PreKeyBundle S)} {draws : Nat}
  {dhs : List B}

/-! ## Master secrets -/

theorem Entropy.Fresh.drawnPublicKeyHex_inj (hE : E.Fresh P) {d d' : Nat}
    (h : drawnPublicKeyHex P E d = drawnPublicKeyHex P E d') : d = d' :=
  hE.distinct h

theorem Entropy.Fresh.scalarMultBase_inj (hE : E.Fresh P) {d d' : Nat}
    (h : P.scalarMultBase (E.secretKey d) = P.scalarMultBase (E.secretKey d')) : d = d' :=
  hE.distinct (congrArg P.bytesToHex h)

/-- Later draws and bundles drawn later change nothing about the sessions set up so far. -/
theorem Made.mono (h : Made P E draws bundles dhs) (hE : E.Fresh P) {draws' : Nat}
    {bundles' : List (PreKeyBundle S)} (hdraws : draws ≤ draws')
    (hbundles : ∀ b ∈ bundles', b ∈ bundles ∨
      ∃ d, draws ≤ d ∧ b.signedPreKey.publicKeyHex = drawnPublicKeyHex P E d) :
    Made P E draws' bundles' dhs := by
  obtain ⟨d, y, v, hv, hd, hmul, hy⟩ := h
  refine ⟨d, y, v, hv, by omega, hmul, ?_⟩
  rcases hy with ⟨d', hd', rfl⟩ | hown
  · exact Or.inl ⟨d', by omega, rfl⟩
  · refine Or.inr ?_
    intro b hb
    rcases hbundles b hb with hold | ⟨d', hd', hkey⟩
    · exact hown b hold
    · rw [hkey]
      intro heq
      have := hE.drawnPublicKeyHex_inj heq
      omega

/-- The first Diffie-Hellman value of an initiator. -/
theorem initiatorDhs_first {ikA ekA : Curve25519KeyPair B S} {ikB spkB : B}
    {otk : Option (PublicOneTimePreKey S)} (h : initiatorDhs P ikA ekA ikB spkB otk = .ok dhs) :
    ∃ v, dhs[0]? = some v ∧ P.scalarMult ikA.secretKey spkB = .ok v := by
  obtain ⟨d1, d2, d3, hmul, -, -, ⟨-, rfl⟩ | ⟨o, opkB, d4, -, -, -, rfl⟩⟩ := initiatorDhs_eq_ok h
  · exact ⟨d1, rfl, hmul⟩
  · exact ⟨d1, rfl, hmul⟩

/-- The third Diffie-Hellman value of an initiator. -/
theorem initiatorDhs_third {ikA ekA : Curve25519KeyPair B S} {ikB spkB : B}
    {otk : Option (PublicOneTimePreKey S)} (h : initiatorDhs P ikA ekA ikB spkB otk = .ok dhs) :
    ∃ v, dhs[2]? = some v ∧ P.scalarMult ekA.secretKey spkB = .ok v := by
  obtain ⟨d1, d2, d3, -, -, hmul, ⟨-, rfl⟩ | ⟨o, opkB, d4, -, -, -, rfl⟩⟩ := initiatorDhs_eq_ok h
  · exact ⟨d3, rfl, hmul⟩
  · exact ⟨d3, rfl, hmul⟩

/-- The third Diffie-Hellman value of a responder. -/
theorem responderDhs_third {ikB : Curve25519KeyPair B S} {spk : SignedPreKey B S}
    {opk : Option (OneTimePreKey B S)} {ikA ekA : B}
    (h : responderDhs P ikB spk opk ikA ekA = .ok dhs) :
    ∃ v, dhs[2]? = some v ∧ P.scalarMult spk.keyPair.secretKey ekA = .ok v := by
  obtain ⟨d1, d2, d3, -, -, hmul, ⟨-, rfl⟩ | ⟨o, d4, -, -, rfl⟩⟩ := responderDhs_eq_ok h
  · exact ⟨d3, rfl, hmul⟩
  · exact ⟨d3, rfl, hmul⟩

/-- A session initiated with the key drawn next on a bundle exported before has Diffie-Hellman
values no session set up so far has. -/
theorem initiator_dhs_ne (hfree : P.FreeTerms) (hE : E.Fresh P) {dhs' : List B}
    (hmade : Made P E draws bundles dhs') {bundle : PreKeyBundle S} (hmem : bundle ∈ bundles)
    {d₀ : Nat} {spkB v : B} (hspk : spkB = P.scalarMultBase (E.secretKey d₀))
    (hkey : bundle.signedPreKey.publicKeyHex = drawnPublicKeyHex P E d₀) (hv : dhs[2]? = some v)
    (hmul : P.scalarMult (E.secretKey draws) spkB = .ok v) : dhs ≠ dhs' := by
  rintro rfl
  obtain ⟨d, y, v', hv', hd, hmul', hy⟩ := hmade
  cases hv.symm.trans hv'
  rcases hfree.scalarMult_inj hmul' hmul with ⟨hpub, -⟩ | ⟨hyek, hspkd⟩
  · -- the engine's key would be one drawn before
    have := hE.scalarMultBase_inj hpub
    omega
  · rcases hy with ⟨d', hd', hyd⟩ | hown
    · -- the other key would be the one drawn just now
      have := hE.scalarMultBase_inj (hyd.symm.trans hyek)
      omega
    · -- the bundle's signed prekey would be the engine's own
      apply hown bundle hmem
      rw [hkey, drawnPublicKeyHex, ← hspk, hspkd, drawnPublicKeyHex]

/-! ## Accounts -/

variable {k : S} {h h' : Host B S} {accepted : List S} {spent : List (S × B)}

/-- A call that keeps the session and the signed prekeys keeps the account. -/
theorem Account.frame (ha : Account P E k bundles h accepted spent) (hE : E.Fresh P)
    (hspk : h'.store.signedPreKeys = h.store.signedPreKeys)
    (hsession : h'.store.getSession P k = h.store.getSession P k) (hdraws : h.draws ≤ h'.draws) :
    Account P E k bundles h' accepted spent := by
  have hmono {dhs : List B} (hmade : Made P E h.draws bundles dhs) :
      Made P E h'.draws bundles dhs := hmade.mono hE hdraws fun b hb => Or.inl hb
  refine
    { ha with
      signedPreKeys := ?signedPreKeys
      apart := ?apart
      exported := ?exported
      made := ?made
      session := ?session
      noSession := ?noSession }
  case signedPreKeys =>
    intro spk hmem
    rw [hspk] at hmem
    obtain ⟨d, hd, hkey⟩ := ha.signedPreKeys spk hmem
    exact ⟨d, Nat.lt_of_lt_of_le hd hdraws, hkey⟩
  case apart =>
    rw [hspk]
    exact ha.apart
  case exported =>
    intro b hb
    obtain ⟨d, hd, hkey⟩ := ha.exported b hb
    exact ⟨d, Nat.lt_of_lt_of_le hd hdraws, hkey⟩
  case made =>
    intro e he
    obtain ⟨dhs, hmade, hat⟩ := ha.made e he
    exact ⟨dhs, hmono hmade, hat⟩
  case session =>
    intro s hs
    rw [hsession] at hs
    obtain ⟨dhs, top, n, hmade, htraced, hgone⟩ := ha.session s hs
    exact ⟨dhs, top, n, hmono hmade, htraced, hgone⟩
  case noSession =>
    rw [hsession]
    exact ha.noSession

/-- The account is kept under the lower-cased key. -/
theorem Account.congr_key {k' : S} (ha : Account P E k bundles h accepted spent)
    (hkey : P.toLowerCase k = P.toLowerCase k') :
    Account P E k' bundles h accepted spent := by
  have hsession : h.store.getSession P k' = h.store.getSession P k := by
    rw [SignalStore.getSession, ← hkey, SignalStore.getSession]
  refine { ha with session := ?session, noSession := ?noSession }
  case session =>
    rw [hsession]
    exact ha.session
  case noSession =>
    rw [hsession]
    exact ha.noSession

variable [DecidableEq S]

/-- A session that can reach none of the spent keys may be saved. -/
theorem Account.saveSession (ha : Account P E k bundles h accepted spent)
    {s : SessionRecord B S} {top n : Nat} (hmade : Made P E h.draws bundles dhs)
    (htraced : Traced P dhs top n s) (hgone : ∀ e ∈ spent, ¬ Available P dhs top s e.2) :
    Account P E k bundles { h with store := h.store.saveSession P k s } accepted spent := by
  refine { ha with session := ?session, noSession := ?noSession }
  case session =>
    intro s' hs'
    rw [SignalStore.getSession_saveSession_self] at hs'
    cases hs'
    exact ⟨dhs, top, n, hmade, htraced, hgone⟩
  case noSession =>
    intro hnone
    rw [SignalStore.getSession_saveSession_self] at hnone
    cases hnone

/-- A ciphertext opened under a key the session could reach is accepted, and the session saved can
reach that key no more. -/
theorem Account.accept (ha : Account P E k bundles h accepted spent) (hP : P.Lawful)
    {s s' : SessionRecord B S} {top top' n n' : Nat} {key nonce decrypted : B} {c : S}
    (hmade : Made P E h.draws bundles dhs) (htraced : Traced P dhs top n s)
    (hgone : ∀ e ∈ spent, ¬ Available P dhs top s e.2) (hkey : Available P dhs top s key)
    (hopen : P.secretboxOpen (P.fromBase64 c) nonce key = .ok (some decrypted))
    (htraced' : Traced P dhs top' n' s') (hused : ¬ Available P dhs top' s' key)
    (hless : ∀ key', Available P dhs top' s' key' → Available P dhs top s key') :
    Account P E k bundles { h with store := h.store.saveSession P k s' } (c :: accepted)
      ((c, key) :: spent) := by
  refine
    { ha with
      ciphertexts := ?ciphertexts
      nodup := ?nodup
      opens := ?opens
      made := ?made
      session := ?session
      noSession := ?noSession }
  case ciphertexts => rw [List.map_cons, ha.ciphertexts]
  case nodup =>
    rw [List.map_cons, List.nodup_cons]
    refine ⟨?_, ha.nodup⟩
    -- a spent key cannot be reached
    intro hmem
    obtain ⟨e, he, heq⟩ := List.mem_map.1 hmem
    exact hgone e he (heq ▸ hkey)
  case opens =>
    intro e he
    rcases List.mem_cons.1 he with rfl | he
    · exact ⟨nonce, decrypted, hopen⟩
    · exact ha.opens e he
  case made =>
    intro e he
    rcases List.mem_cons.1 he with rfl | he
    · exact ⟨dhs, hmade, htraced.keyAt_of_available hP hkey⟩
    · exact ha.made e he
  case session =>
    intro s'' hs''
    rw [SignalStore.getSession_saveSession_self] at hs''
    cases hs''
    refine ⟨dhs, top', n', hmade, htraced', ?_⟩
    intro e he
    rcases List.mem_cons.1 he with rfl | he
    · exact hused
    · exact fun hav => hgone e he (hless e.2 hav)
  case noSession =>
    intro hnone
    rw [SignalStore.getSession_saveSession_self] at hnone
    cases hnone

/-! ## The calls of the engine -/

/-- `encrypt` keeps the account, and seals a box. -/
theorem Account.encrypt (ha : Account P E k bundles h accepted spent) (hP : P.Lawful)
    (hE : E.Fresh P) {plaintext : S} {context : Option InitialBundleContext}
    {r : Except (EngineError S) (EncryptedMessage S)}
    (hrun : (Crypto.encrypt P k plaintext context).run P E h = (r, h')) :
    Account P E k bundles h' accepted spent := by
  rcases run_encrypt_cases P E k plaintext context h with
    ⟨e, hfail⟩ | ⟨stored, s, chainHex, c, hstored, hchain, hc, hok⟩
  · rw [hfail] at hrun
    cases hrun
    exact ha
  · rw [hok] at hrun
    cases hrun
    obtain ⟨dhs, top, n, hmade, htraced, hgone⟩ := ha.session stored hstored
    obtain ⟨n', htraced', hless⟩ := htraced.sealedOnce hchain hP c (E.now h.draws)
    have hsaved := ha.saveSession hmade htraced' fun e he hav => hgone e he (hless e.2 hav)
    exact hsaved.frame hE rfl rfl (Nat.le_add_right _ _)

/-- `initiateSession` on a bundle of the peer keeps the account. -/
theorem Account.initiateSession (ha : Account P E k bundles h accepted spent) (hP : P.Lawful)
    (hfree : P.FreeTerms) (hE : E.Fresh P) {bundle : PreKeyBundle S} (hmem : bundle ∈ bundles)
    {r : Except (EngineError S) (SessionRecord B S)}
    (hrun : (Crypto.initiateSession P k bundle).run P E h = (r, h')) :
    Account P E k bundles h' accepted spent := by
  rcases run_initiateSession_cases P E k bundle h with
    ⟨e, h₁, hfail, hstore, hdraws⟩ | ⟨dhs, initialDh, hin⟩
  · rw [hfail] at hrun
    cases hrun
    exact ha.frame hE (by rw [hstore]) (by rw [hstore]) hdraws
  · rw [run_initiateSession_of_inputs hin] at hrun
    cases hrun
    obtain ⟨ikB, spkB, -, hspk, hdhs, -⟩ := hin.keys
    obtain ⟨v, hv, hmul⟩ := initiatorDhs_third hdhs
    obtain ⟨d₀, hd₀, hkey⟩ := ha.exported bundle hmem
    rw [hkey, drawnPublicKeyHex, hP.hexToBytes_bytesToHex] at hspk
    cases hspk
    have hmade : Made P E (h.draws + 3) bundles dhs :=
      ⟨h.draws, _, v, hv, by omega, hmul, Or.inl ⟨d₀, by omega, rfl⟩⟩
    have hlater : Account P E k bundles { h with draws := h.draws + 3 } accepted spent :=
      ha.frame hE rfl rfl (Nat.le_add_right _ _)
    have htraced := traced_initiatedSession hP bundle hin.dhValues initialDh
      (keyPairOf P (E.secretKey h.draws)) (E.now (h.draws + 1)) (E.now (h.draws + 2))
    refine hlater.saveSession hmade htraced ?_
    intro e he hav
    -- a spent key belongs to a session set up before
    obtain ⟨dhs', hmade', j, i, hat⟩ := ha.made e he
    obtain ⟨j', i', hat'⟩ := htraced.keyAt_of_available hP hav
    obtain ⟨heq, -⟩ := hat'.unique hfree hat
    exact initiator_dhs_ne hfree hE hmade' hmem rfl hkey hv hmul heq

/-- The ciphertexts accepted after a `decrypt` of `c` had the outcome `r`. -/
def acceptedAfter (r : Except (EngineError S) S) (c : S) (accepted : List S) : List S :=
  match r with
  | .ok _ => c :: accepted
  | .error _ => accepted

/-- `decrypt` in a session accepts the ciphertext under a key of its own, or keeps the account. -/
theorem Account.decryptInSession (ha : Account P E k bundles h accepted spent) (hP : P.Lawful)
    (hfree : P.FreeTerms) (hE : E.Fresh P) {s : SessionRecord B S}
    (hs : h.store.getSession P k = some s) {m : EncryptedMessage S}
    {r : Except (EngineError S) S}
    (hrun : (Crypto.decryptInSession P k m s).run P E h = (r, h')) :
    ∃ spent', Account P E k bundles h' (acceptedAfter r m.ciphertext accepted) spent' := by
  rcases run_decryptInSession_cases P E k m s h with
    ⟨e, h₁, hfail, hstore, hdraws, -⟩ | ⟨key, saved, hsel⟩
  · rw [hfail] at hrun
    cases hrun
    exact ⟨spent, ha.frame hE (by rw [hstore]) (by rw [hstore]) hdraws⟩
  · obtain ⟨now, draws, hok, hdraws, -⟩ := run_decryptInSession_of_selects (k := k) hsel
    rw [hok] at hrun
    cases hrun
    obtain ⟨dhs, top, n, hmade, htraced, hgone⟩ := ha.session s hs
    obtain ⟨hkey, top', n', hsaved⟩ := htraced.selects hP hfree hsel
    obtain ⟨htraced', hused, hless⟩ := hsaved now
    cases hopen : decryptWithKey P m key with
    | error e =>
        have hkept := ha.saveSession hmade htraced' fun e he hav => hgone e he (hless e.2 hav)
        exact ⟨spent, hkept.frame hE rfl rfl hdraws⟩
    | ok t =>
        obtain ⟨nonce, decrypted, -, hbox, -⟩ := decryptWithKey_ok_iff.1 hopen
        have hnew := ha.accept hP hmade htraced hgone hkey hbox htraced' hused hless
        exact ⟨_, hnew.frame hE rfl rfl hdraws⟩

omit [DecidableEq S] in
/-- A first contact under a signed prekey the engine drew makes its Diffie-Hellman values. -/
theorem Account.made_of_responderInputs (ha : Account P E k bundles h accepted spent)
    {m : EncryptedMessage S} {initialDh : B} (hin : ResponderInputs P h.store m dhs initialDh) :
    Made P E h.draws bundles dhs := by
  obtain ⟨ikA, ekA, spk, remoteDh, hcontact, hdhs, -, -⟩ := hin.contact
  have hmem : spk ∈ h.store.signedPreKeys := List.argmax_mem hcontact.signedPreKey
  obtain ⟨d, hd, hkey⟩ := ha.signedPreKeys spk hmem
  obtain ⟨v, hv, hmul⟩ := responderDhs_third hdhs
  have hapart := ha.apart spk hmem
  rw [hkey] at hmul hapart
  exact ⟨d, ekA, v, hv, hd, hmul, Or.inr hapart⟩

/-- `decrypt` under the peer's key accepts the ciphertext under a key of its own, or keeps the
account. -/
theorem Account.decrypt (ha : Account P E k bundles h accepted spent) (hP : P.Lawful)
    (hfree : P.FreeTerms) (hE : E.Fresh P) {m : EncryptedMessage S}
    {r : Except (EngineError S) S} (hrun : (Crypto.decrypt P k m).run P E h = (r, h')) :
    ∃ spent', Account P E k bundles h' (acceptedAfter r m.ciphertext accepted) spent' := by
  cases hs : h.store.getSession P k with
  | some s =>
      rw [run_decrypt_of_session P E hs] at hrun
      exact ha.decryptInSession hP hfree hE hs hrun
  | none =>
      rcases run_initiateBobSession_cases P E k m h with
        ⟨e, hfail, -⟩ | ⟨e, ikA, ekA, spk, hfail, -⟩ | ⟨dhs, initialDh, hin⟩
      · rw [run_decrypt_of_refused hs hfail] at hrun
        cases hrun
        exact ⟨spent, ha⟩
      · rw [run_decrypt_of_refused hs hfail] at hrun
        cases hrun
        exact ⟨spent, ha.frame hE (by simp) (by simp) (Nat.le_refl _)⟩
      · have hresponded := run_initiateBobSession_of_inputs (E := E) (k := k) hin
        rw [run_decrypt_of_responded hs hresponded] at hrun
        have htaken : Account P E k bundles
            { store := h.store.withoutNamed m.oneTimePreKeyId, draws := h.draws + 3 } accepted
            spent := ha.frame hE (by simp) (by simp) (Nat.le_add_right _ _)
        have hmade : Made P E (h.draws + 3) bundles dhs :=
          (ha.made_of_responderInputs hin).mono hE (Nat.le_add_right _ _) fun b hb => Or.inl hb
        have hstart := htaken.saveSession hmade (traced_respondedSession hP k m
          hin.dhValues initialDh (keyPairOf P (E.secretKey h.draws)) (E.now (h.draws + 1))
          (E.now (h.draws + 2))) (by
            -- nothing was accepted from a peer without a session
            rw [ha.noSession hs]
            simp)
        exact hstart.decryptInSession hP hfree hE (SignalStore.getSession_saveSession_self P _ _ _)
          hrun

/-- `decrypt` under the key of another peer keeps the account. -/
theorem Account.decrypt_other (ha : Account P E k bundles h accepted spent) (hE : E.Fresh P)
    {k' : S} (hne : P.toLowerCase k ≠ P.toLowerCase k') {m : EncryptedMessage S}
    {r : Except (EngineError S) S} (hrun : (Crypto.decrypt P k' m).run P E h = (r, h')) :
    Account P E k bundles h' accepted spent := by
  have hframe := callFrame_decrypt hrun
  exact ha.frame hE hframe.signedPreKeys (hframe.sessions k hne) hframe.draws

omit [DecidableEq S] in
/-- A bundle the peer has just exported keeps the account. -/
theorem Account.cons_bundle (ha : Account P E k bundles h accepted spent) (hE : E.Fresh P)
    {bundle : PreKeyBundle S} {d draws : Nat} (hd : h.draws ≤ d) (hdraws : d < draws)
    (hkey : bundle.signedPreKey.publicKeyHex = drawnPublicKeyHex P E d) :
    Account P E k (bundle :: bundles) { h with draws } accepted spent := by
  -- The key of the new bundle is drawn later than all that any session was made from.
  have hmono {dhs : List B} (hmade : Made P E h.draws bundles dhs) :
      Made P E draws (bundle :: bundles) dhs := by
    refine hmade.mono hE (by omega) ?_
    intro b hb
    rcases List.mem_cons.1 hb with rfl | hold
    · exact Or.inr ⟨d, hd, hkey⟩
    · exact Or.inl hold
  refine
    { ha with
      signedPreKeys := ?signedPreKeys
      apart := ?apart
      exported := ?exported
      made := ?made
      session := ?session }
  case signedPreKeys =>
    intro spk hmem
    obtain ⟨d', hd', hspk⟩ := ha.signedPreKeys spk hmem
    exact ⟨d', show d' < draws by omega, hspk⟩
  case apart =>
    intro spk hmem b hb
    rcases List.mem_cons.1 hb with rfl | hold
    · obtain ⟨d', hd', hspk⟩ := ha.signedPreKeys spk hmem
      rw [hkey, hspk]
      intro heq
      have := hE.drawnPublicKeyHex_inj heq
      omega
    · exact ha.apart spk hmem b hold
  case exported =>
    intro b hb
    rcases List.mem_cons.1 hb with rfl | hold
    · exact ⟨d, hdraws, hkey⟩
    · obtain ⟨d', hd', hspk⟩ := ha.exported b hold
      exact ⟨d', show d' < draws by omega, hspk⟩
  case made =>
    intro e he
    obtain ⟨dhs, hmade, hat⟩ := ha.made e he
    exact ⟨dhs, hmono hmade, hat⟩
  case session =>
    intro s hs
    obtain ⟨dhs, top, n, hmade, htraced, hgone⟩ := ha.session s hs
    exact ⟨dhs, top, n, hmono hmade, htraced, hgone⟩

omit [DecidableEq S] in
/-- A signed prekey the engine has just drawn keeps the account. -/
theorem Account.withBundle (ha : Account P E k bundles h accepted spent) (hE : E.Fresh P)
    (signatureHex : S) (count : Nat) {draws : Nat} (hdraws : h.draws < draws) :
    Account P E k bundles
      { store := h.store.withBundle P E signatureHex h.draws count, draws } accepted spent := by
  -- The draws alone first; then the one prekey that is new.
  have hlater : Account P E k bundles { h with draws } accepted spent :=
    ha.frame hE rfl rfl (Nat.le_of_lt hdraws)
  have hmem {spk : SignedPreKey B S}
      (hspk : spk ∈ (h.store.withBundle P E signatureHex h.draws count).signedPreKeys) :
      spk = drawnSignedPreKey P E signatureHex h.draws ∨ spk ∈ h.store.signedPreKeys := by
    simp only [SignalStore.withBundle, SignalStore.signedPreKeys_withOneTimePreKeys,
      SignalStore.saveSignedPreKey] at hspk
    exact Rows.mem_of_mem_upsert SignedPreKey.keyId hspk
  refine
    { hlater with
      signedPreKeys := ?signedPreKeys
      apart := ?apart
      session := ?session
      noSession := ?noSession }
  case signedPreKeys =>
    intro spk hspk
    rcases hmem hspk with rfl | hold
    · exact ⟨h.draws, hdraws, rfl⟩
    · exact hlater.signedPreKeys spk hold
  case apart =>
    intro spk hspk b hb
    rcases hmem hspk with rfl | hold
    · obtain ⟨d, hd, hkey⟩ := ha.exported b hb
      rw [hkey]
      intro heq
      have := hE.drawnPublicKeyHex_inj heq
      omega
    · exact ha.apart spk hold b hb
  case session =>
    intro s hs
    rw [SignalStore.getSession_withBundle] at hs
    exact hlater.session s hs
  case noSession =>
    intro hnone
    rw [SignalStore.getSession_withBundle] at hnone
    exact ha.noSession hnone

end TorE2EE.Crypto
