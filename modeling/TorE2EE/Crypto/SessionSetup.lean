import TorE2EE.Crypto.EngineRuns

/-!
# Setting up sessions

The runs of `generatePreKeyBundle`, `initiateSession`, `initiateBobSession` and `decrypt` as a
whole, in the two directions of `EngineRuns`. A first message that names a one-time prekey takes it
out of the store before anything else is computed (`SignalStore.withoutNamed`), so a failure after
that point leaves the store changed.
-/

set_option autoImplicit false

namespace TorE2EE.Crypto

open TorE2EE.Foundation

variable {B S : Type} [DecidableEq S] (P : Primitives B S) (E : Entropy B)

/-! ## The Diffie-Hellman values -/

section

variable {P}

omit [DecidableEq S]

theorem initiatorDhs_eq_ok {ikA ekA : Curve25519KeyPair B S} {ikB spkB : B}
    {otk : Option (PublicOneTimePreKey S)} {l : List B}
    (h : initiatorDhs P ikA ekA ikB spkB otk = .ok l) :
    ∃ d1 d2 d3, P.scalarMult ikA.secretKey spkB = .ok d1 ∧ P.scalarMult ekA.secretKey ikB = .ok d2 ∧
      P.scalarMult ekA.secretKey spkB = .ok d3 ∧
      ((otk = none ∧ l = [d1, d2, d3]) ∨ ∃ o opkB d4, otk = some o ∧
        P.hexToBytes o.publicKeyHex = .ok opkB ∧ P.scalarMult ekA.secretKey opkB = .ok d4 ∧
        l = [d1, d2, d3, d4]) := by
  obtain ⟨d1, h1, h⟩ := bind_eq_ok.1 h
  obtain ⟨d2, h2, h⟩ := bind_eq_ok.1 h
  obtain ⟨d3, h3, h⟩ := bind_eq_ok.1 h
  refine ⟨d1, d2, d3, h1, h2, h3, ?_⟩
  cases otk with
  | none =>
      cases h
      exact Or.inl ⟨rfl, rfl⟩
  | some o =>
      obtain ⟨opkB, h4, h⟩ := bind_eq_ok.1 h
      obtain ⟨d4, h5, h⟩ := bind_eq_ok.1 h
      cases h
      exact Or.inr ⟨o, opkB, d4, rfl, h4, h5, rfl⟩

theorem responderDhs_eq_ok {ikB : Curve25519KeyPair B S} {spk : SignedPreKey B S}
    {opk : Option (OneTimePreKey B S)} {ikA ekA : B} {l : List B}
    (h : responderDhs P ikB spk opk ikA ekA = .ok l) :
    ∃ d1 d2 d3, P.scalarMult spk.keyPair.secretKey ikA = .ok d1 ∧
      P.scalarMult ikB.secretKey ekA = .ok d2 ∧ P.scalarMult spk.keyPair.secretKey ekA = .ok d3 ∧
      ((opk = none ∧ l = [d1, d2, d3]) ∨ ∃ k d4, opk = some k ∧
        P.scalarMult k.keyPair.secretKey ekA = .ok d4 ∧ l = [d1, d2, d3, d4]) := by
  obtain ⟨d1, h1, h⟩ := bind_eq_ok.1 h
  obtain ⟨d2, h2, h⟩ := bind_eq_ok.1 h
  obtain ⟨d3, h3, h⟩ := bind_eq_ok.1 h
  refine ⟨d1, d2, d3, h1, h2, h3, ?_⟩
  cases opk with
  | none =>
      cases h
      exact Or.inl ⟨rfl, rfl⟩
  | some k =>
      obtain ⟨d4, h4, h⟩ := bind_eq_ok.1 h
      cases h
      exact Or.inr ⟨k, d4, rfl, h4, rfl⟩

theorem dhValues_three {d1 d2 d3 : B} (h1 : ∃ a x, P.scalarMult a x = .ok d1)
    (h2 : ∃ a x, P.scalarMult a x = .ok d2) (h3 : ∃ a x, P.scalarMult a x = .ok d3) :
    DhValues P [d1, d2, d3] := by
  refine ⟨Or.inl rfl, ?_⟩
  simp only [List.forall_mem_cons]
  exact ⟨h1, h2, h3, by simp⟩

theorem dhValues_four {d1 d2 d3 d4 : B} (h1 : ∃ a x, P.scalarMult a x = .ok d1)
    (h2 : ∃ a x, P.scalarMult a x = .ok d2) (h3 : ∃ a x, P.scalarMult a x = .ok d3)
    (h4 : ∃ a x, P.scalarMult a x = .ok d4) : DhValues P [d1, d2, d3, d4] := by
  refine ⟨Or.inr rfl, ?_⟩
  simp only [List.forall_mem_cons]
  exact ⟨h1, h2, h3, h4, by simp⟩

/-- The initiator concatenates Diffie-Hellman values. -/
theorem dhValues_of_initiatorDhs {ikA ekA : Curve25519KeyPair B S} {ikB spkB : B}
    {otk : Option (PublicOneTimePreKey S)} {l : List B}
    (h : initiatorDhs P ikA ekA ikB spkB otk = .ok l) : DhValues P l := by
  obtain ⟨d1, d2, d3, h1, h2, h3, ⟨-, rfl⟩ | ⟨o, opkB, d4, -, -, h4, rfl⟩⟩ := initiatorDhs_eq_ok h
  · exact dhValues_three ⟨_, _, h1⟩ ⟨_, _, h2⟩ ⟨_, _, h3⟩
  · exact dhValues_four ⟨_, _, h1⟩ ⟨_, _, h2⟩ ⟨_, _, h3⟩ ⟨_, _, h4⟩

/-- So does the responder. -/
theorem dhValues_of_responderDhs {ikB : Curve25519KeyPair B S} {spk : SignedPreKey B S}
    {opk : Option (OneTimePreKey B S)} {ikA ekA : B} {l : List B}
    (h : responderDhs P ikB spk opk ikA ekA = .ok l) : DhValues P l := by
  obtain ⟨d1, d2, d3, h1, h2, h3, ⟨-, rfl⟩ | ⟨k, d4, -, h4, rfl⟩⟩ := responderDhs_eq_ok h
  · exact dhValues_three ⟨_, _, h1⟩ ⟨_, _, h2⟩ ⟨_, _, h3⟩
  · exact dhValues_four ⟨_, _, h1⟩ ⟨_, _, h2⟩ ⟨_, _, h3⟩ ⟨_, _, h4⟩

end

/-! ## The initiator -/

/-- The session `initiateSession` builds from the root keys `r`. -/
def initiatedSession (bundle : PreKeyBundle S) (r : RootKeys B) (ekA : Curve25519KeyPair B S)
    (createdAt updatedAt : Nat) : SessionRecord B S :=
  { recipientIdentityKeyHex := P.toLowerCase bundle.identityKeyHex
    rootKeyHex := P.bytesToHex r.nextRootKey
    sendChainKeyHex := some (P.bytesToHex r.chainKey)
    receiveChainKeyHex := none
    localDhKeyPair := ekA
    remoteDhPublicKeyHex := some (P.toLowerCase bundle.signedPreKey.publicKeyHex)
    sendSequenceNumber := 0
    receiveSequenceNumber := 0
    previousChainLength := 0
    skippedMessageKeys := fun _ => none
    createdAt
    updatedAt
    oneTimePreKeyId := bundle.oneTimePreKey.map PublicOneTimePreKey.keyId }

/-- The library calls of an `initiateSession` that succeeds. -/
structure InitiatorInputs (identity : UserIdentity B S) (bundle : PreKeyBundle S)
    (ekA : Curve25519KeyPair B S) (dhAll : List B) (initialDh : B) : Prop where
  verified : verifySignature P bundle.signedPreKey.publicKeyHex bundle.signedPreKey.signatureHex
    bundle.signingKeyHex = true
  keys : ∃ ikB spkB, P.hexToBytes bundle.identityKeyHex = .ok ikB ∧
    P.hexToBytes bundle.signedPreKey.publicKeyHex = .ok spkB ∧
    initiatorDhs P identity.encryptionKey ekA ikB spkB bundle.oneTimePreKey = .ok dhAll ∧
    P.scalarMult ekA.secretKey spkB = .ok initialDh

variable {P} in
omit [DecidableEq S] in
theorem InitiatorInputs.dhValues {identity : UserIdentity B S} {bundle : PreKeyBundle S}
    {ekA : Curve25519KeyPair B S} {dhAll : List B} {initialDh : B}
    (h : InitiatorInputs P identity bundle ekA dhAll initialDh) : DhValues P dhAll := by
  obtain ⟨_, _, -, -, hdhs, -⟩ := h.keys
  exact dhValues_of_initiatorDhs hdhs

variable {P E} in
theorem run_initiateSession_of_inputs {k : S} {bundle : PreKeyBundle S} {h : Host B S}
    {dhAll : List B} {initialDh : B}
    (hin : InitiatorInputs P h.store.identity bundle (keyPairOf P (E.secretKey h.draws)) dhAll
      initialDh) :
    (initiateSession P k bundle).run P E h =
      (.ok (initiatedSession P bundle (kdfRoot P (masterSecret P dhAll) initialDh)
          (keyPairOf P (E.secretKey h.draws)) (E.now (h.draws + 1)) (E.now (h.draws + 2))),
        { store := h.store.saveSession P k (initiatedSession P bundle
            (kdfRoot P (masterSecret P dhAll) initialDh) (keyPairOf P (E.secretKey h.draws))
            (E.now (h.draws + 1)) (E.now (h.draws + 2)))
          draws := h.draws + 3 }) := by
  obtain ⟨ikB, spkB, hik, hspk, hdh, hinit⟩ := hin.keys
  simp [initiateSession, EngineOp.handle, hin.verified, hik, hspk, Program.run_bind, hdh, hinit]
  exact ⟨rfl, rfl⟩

/-- A run of `initiateSession` throws with the store untouched, or saves one fresh session. -/
theorem run_initiateSession_cases (k : S) (bundle : PreKeyBundle S) (h : Host B S) :
    (∃ e h', (initiateSession P k bundle).run P E h = (.error e, h') ∧ h'.store = h.store ∧
        h.draws ≤ h'.draws) ∨
      ∃ dhAll initialDh, InitiatorInputs P h.store.identity bundle
        (keyPairOf P (E.secretKey h.draws)) dhAll initialDh := by
  -- each fallible step in the order of the source, until all inputs are there
  by_cases hver : verifySignature P bundle.signedPreKey.publicKeyHex
      bundle.signedPreKey.signatureHex bundle.signingKeyHex = true
  · cases hik : P.hexToBytes bundle.identityKeyHex with
    | error e =>
        exact Or.inl ⟨e, h, by simp [initiateSession, EngineOp.handle, hver, hik], rfl,
          Nat.le_refl _⟩
    | ok ikB =>
        cases hspk : P.hexToBytes bundle.signedPreKey.publicKeyHex with
        | error e =>
            exact Or.inl ⟨e, h, by simp [initiateSession, EngineOp.handle, hver, hik, hspk], rfl,
              Nat.le_refl _⟩
        | ok spkB =>
            cases hdh : initiatorDhs P h.store.identity.encryptionKey
                (keyPairOf P (E.secretKey h.draws)) ikB spkB bundle.oneTimePreKey with
            | error e =>
                exact Or.inl ⟨e, { h with draws := h.draws + 1 }, by
                  simp [initiateSession, EngineOp.handle, hver, hik, hspk, Program.run_bind, hdh],
                  rfl, Nat.le_succ _⟩
            | ok dhAll =>
                cases hinit : P.scalarMult (keyPairOf P (E.secretKey h.draws)).secretKey spkB with
                | error e =>
                    exact Or.inl ⟨e, { h with draws := h.draws + 1 }, by
                      simp [initiateSession, EngineOp.handle, hver, hik, hspk, Program.run_bind,
                        hdh, hinit], rfl, Nat.le_succ _⟩
                | ok initialDh =>
                    exact Or.inr ⟨dhAll, initialDh, hver, ikB, spkB, hik, hspk, hdh, hinit⟩
  · exact Or.inl ⟨.signedPreKeySignature, h, by
      simp [initiateSession, EngineOp.handle, hver], rfl, Nat.le_refl _⟩

/-! ## The responder -/

namespace SignalStore

variable (st : SignalStore B S)

/-- The one-time prekey a first message names, when the store holds it. -/
def namedOneTimePreKey (oneTimePreKeyId : Option Int) : Option (OneTimePreKey B S) :=
  oneTimePreKeyId.bind st.getOneTimePreKey

/-- The store without the one-time prekey a first message names. -/
def withoutNamed (oneTimePreKeyId : Option Int) : SignalStore B S :=
  match oneTimePreKeyId with
  | none => st
  | some keyId =>
      match st.getOneTimePreKey keyId with
      | none => st
      | some _ => st.removeOneTimePreKey keyId

omit [DecidableEq S] in
@[simp] theorem getSession_withoutNamed (id : Option Int) (k : S) :
    (st.withoutNamed id).getSession P k = st.getSession P k := by
  unfold withoutNamed
  split
  · rfl
  · split <;> rfl

omit [DecidableEq S] in
@[simp] theorem identity_withoutNamed (id : Option Int) :
    (st.withoutNamed id).identity = st.identity := by
  unfold withoutNamed
  split
  · rfl
  · split <;> rfl

omit [DecidableEq S] in
@[simp] theorem signedPreKeys_withoutNamed (id : Option Int) :
    (st.withoutNamed id).signedPreKeys = st.signedPreKeys := by
  unfold withoutNamed
  split
  · rfl
  · split <;> rfl

omit [DecidableEq S] in
theorem withoutNamed_of_none {id : Option Int} (h : st.namedOneTimePreKey id = none) :
    st.withoutNamed id = st := by
  cases id with
  | none => rfl
  | some keyId =>
      have hnone : st.getOneTimePreKey keyId = none := h
      simp [withoutNamed, hnone]

omit [DecidableEq S] in
/-- The named one-time prekey is gone. -/
theorem getOneTimePreKey_withoutNamed_self (keyId : Int) :
    (st.withoutNamed (some keyId)).getOneTimePreKey keyId = none := by
  cases hk : st.getOneTimePreKey keyId with
  | none => simp [withoutNamed, hk]
  | some opk => simp [withoutNamed, hk]

omit [DecidableEq S] in
theorem withoutNamed_ne {id : Option Int} {opk : OneTimePreKey B S}
    (h : st.namedOneTimePreKey id = some opk) : st.withoutNamed id ≠ st := by
  cases id with
  | none => cases h
  | some keyId =>
      have hsome : st.getOneTimePreKey keyId = some opk := h
      intro heq
      have hgone := st.getOneTimePreKey_withoutNamed_self keyId
      rw [heq, hsome] at hgone
      cases hgone

end SignalStore

theorem run_takeOneTimePreKey (id : Option Int) (h : Host B S) :
    (takeOneTimePreKey id).run P E h =
      (.ok (h.store.namedOneTimePreKey id), { h with store := h.store.withoutNamed id }) := by
  cases id with
  | none => rfl
  | some keyId =>
      cases hk : h.store.getOneTimePreKey keyId with
      | none =>
          simp [takeOneTimePreKey, EngineOp.handle, SignalStore.namedOneTimePreKey,
            SignalStore.withoutNamed, hk]
      | some opk =>
          simp [takeOneTimePreKey, EngineOp.handle, SignalStore.namedOneTimePreKey,
            SignalStore.withoutNamed, hk]

/-- The session `initiateBobSession` builds from the root keys `r`. -/
def respondedSession (senderIdentityKeyHex : S) (m : EncryptedMessage S) (r : RootKeys B)
    (dhsB : Curve25519KeyPair B S) (createdAt updatedAt : Nat) : SessionRecord B S :=
  { recipientIdentityKeyHex := P.toLowerCase senderIdentityKeyHex
    rootKeyHex := P.bytesToHex r.nextRootKey
    sendChainKeyHex := none
    receiveChainKeyHex := some (P.bytesToHex r.chainKey)
    localDhKeyPair := dhsB
    remoteDhPublicKeyHex := some (P.toLowerCase m.ephemeralPublicKeyHex)
    sendSequenceNumber := 0
    receiveSequenceNumber := 0
    previousChainLength := 0
    skippedMessageKeys := fun _ => none
    createdAt
    updatedAt
    oneTimePreKeyId := none }

/-- What a first message must bring for `initiateBobSession` to reach its first store write. -/
structure FirstContact (st : SignalStore B S) (m : EncryptedMessage S) (ikA ekA : B)
    (spk : SignedPreKey B S) : Prop where
  identityKey : ∃ hex, m.initialIdentityKeyHex = some hex ∧ P.hexToBytes hex = .ok ikA
  ephemeralKey : ∃ hex, m.initialEphemeralKeyHex = some hex ∧ P.hexToBytes hex = .ok ekA
  signedPreKey : st.getLatestSignedPreKey = some spk

/-- The library calls of an `initiateBobSession` that succeeds. -/
structure ResponderInputs (st : SignalStore B S) (m : EncryptedMessage S) (dhAll : List B)
    (initialDh : B) : Prop where
  contact : ∃ ikA ekA spk remoteDh, FirstContact P st m ikA ekA spk ∧
    responderDhs P st.identity.encryptionKey spk (st.namedOneTimePreKey m.oneTimePreKeyId) ikA
      ekA = .ok dhAll ∧
    P.hexToBytes m.ephemeralPublicKeyHex = .ok remoteDh ∧
    P.scalarMult spk.keyPair.secretKey remoteDh = .ok initialDh

variable {P} in
omit [DecidableEq S] in
theorem ResponderInputs.dhValues {st : SignalStore B S} {m : EncryptedMessage S} {dhAll : List B}
    {initialDh : B} (h : ResponderInputs P st m dhAll initialDh) : DhValues P dhAll := by
  obtain ⟨_, _, _, _, -, hdhs, -⟩ := h.contact
  exact dhValues_of_responderDhs hdhs

variable {P} in
omit [DecidableEq S] in
/-- A store and a first message determine the Diffie-Hellman values. -/
theorem ResponderInputs.unique {st : SignalStore B S} {m : EncryptedMessage S}
    {dhAll dhAll' : List B} {initialDh initialDh' : B}
    (h : ResponderInputs P st m dhAll initialDh) (h' : ResponderInputs P st m dhAll' initialDh') :
    dhAll = dhAll' ∧ initialDh = initialDh' := by
  obtain ⟨ikA, ekA, spk, remoteDh, hcontact, hdh, hremote, hinit⟩ := h.contact
  obtain ⟨ikA', ekA', spk', remoteDh', hcontact', hdh', hremote', hinit'⟩ := h'.contact
  obtain ⟨ikHex, hikHex, hik⟩ := hcontact.identityKey
  obtain ⟨ekHex, hekHex, hek⟩ := hcontact.ephemeralKey
  obtain ⟨ikHex', hikHex', hik'⟩ := hcontact'.identityKey
  obtain ⟨ekHex', hekHex', hek'⟩ := hcontact'.ephemeralKey
  cases hikHex.symm.trans hikHex'
  cases hekHex.symm.trans hekHex'
  cases hik.symm.trans hik'
  cases hek.symm.trans hek'
  cases hcontact.signedPreKey.symm.trans hcontact'.signedPreKey
  cases hremote.symm.trans hremote'
  cases hdh.symm.trans hdh'
  cases hinit.symm.trans hinit'
  exact ⟨rfl, rfl⟩

variable {P E} in
theorem run_initiateBobSession_of_inputs {k : S} {m : EncryptedMessage S} {h : Host B S}
    {dhAll : List B} {initialDh : B} (hin : ResponderInputs P h.store m dhAll initialDh) :
    (initiateBobSession P k m).run P E h =
      (.ok (respondedSession P k m (kdfRoot P (masterSecret P dhAll) initialDh)
          (keyPairOf P (E.secretKey h.draws)) (E.now (h.draws + 1)) (E.now (h.draws + 2))),
        { store := (h.store.withoutNamed m.oneTimePreKeyId).saveSession P k
            (respondedSession P k m (kdfRoot P (masterSecret P dhAll) initialDh)
              (keyPairOf P (E.secretKey h.draws)) (E.now (h.draws + 1)) (E.now (h.draws + 2)))
          draws := h.draws + 3 }) := by
  obtain ⟨ikA, ekA, spk, remoteDh, hcontact, hdh, hremote, hinit⟩ := hin.contact
  obtain ⟨ikHex, hikHex, hik⟩ := hcontact.identityKey
  obtain ⟨ekHex, hekHex, hek⟩ := hcontact.ephemeralKey
  simp only [initiateBobSession, hikHex, hekHex, hik, hek, Program.run_bind, Program.run_perform,
    EngineOp.handle, hcontact.signedPreKey, Program.run_ofExcept, run_takeOneTimePreKey, hdh,
    hremote, hinit, run_generateCurve25519KeyPair, Program.run_pure]
  rfl

/-- A run of `initiateBobSession` throws before its first store write, throws after the named
one-time prekey was taken, or saves one fresh session. -/
theorem run_initiateBobSession_cases (k : S) (m : EncryptedMessage S) (h : Host B S) :
    (∃ e, (initiateBobSession P k m).run P E h = (.error e, h) ∧
        ∀ ikA ekA spk, ¬ FirstContact P h.store m ikA ekA spk) ∨
      (∃ e ikA ekA spk, (initiateBobSession P k m).run P E h =
          (.error e, { h with store := h.store.withoutNamed m.oneTimePreKeyId }) ∧
        FirstContact P h.store m ikA ekA spk ∧
        ∀ dhAll initialDh, ¬ ResponderInputs P h.store m dhAll initialDh) ∨
      ∃ dhAll initialDh, ResponderInputs P h.store m dhAll initialDh := by
  -- what is read before the one-time prekey is taken fails with the store untouched
  by_cases hcontact : ∃ ikA ekA spk, FirstContact P h.store m ikA ekA spk
  · refine Or.inr ?_
    by_cases hin : ∃ dhAll initialDh, ResponderInputs P h.store m dhAll initialDh
    · exact Or.inr hin
    · simp only [not_exists] at hin
      obtain ⟨ikA, ekA, spk, hc⟩ := hcontact
      obtain ⟨ikHex, hikHex, hik⟩ := hc.identityKey
      obtain ⟨ekHex, hekHex, hek⟩ := hc.ephemeralKey
      -- from here on the one-time prekey is gone, whatever fails
      suffices hrun : ∃ e, (initiateBobSession P k m).run P E h =
          (.error e, { h with store := h.store.withoutNamed m.oneTimePreKeyId }) by
        obtain ⟨e, hrun⟩ := hrun
        exact Or.inl ⟨e, ikA, ekA, spk, hrun, hc, hin⟩
      cases hdh : responderDhs P h.store.identity.encryptionKey spk
          (h.store.namedOneTimePreKey m.oneTimePreKeyId) ikA ekA with
      | error e =>
          exact ⟨e, by
            simp only [initiateBobSession, hikHex, hekHex, hik, hek, Program.run_bind,
              Program.run_perform, EngineOp.handle, hc.signedPreKey, Program.run_ofExcept,
              run_takeOneTimePreKey, hdh]⟩
      | ok dhAll =>
          cases hremote : P.hexToBytes m.ephemeralPublicKeyHex with
          | error e =>
              exact ⟨e, by
                simp only [initiateBobSession, hikHex, hekHex, hik, hek, Program.run_bind,
                  Program.run_perform, EngineOp.handle, hc.signedPreKey, Program.run_ofExcept,
                  run_takeOneTimePreKey, hdh, hremote]⟩
          | ok remoteDh =>
              cases hinit : P.scalarMult spk.keyPair.secretKey remoteDh with
              | error e =>
                  exact ⟨e, by
                    simp only [initiateBobSession, hikHex, hekHex, hik, hek, Program.run_bind,
                      Program.run_perform, EngineOp.handle, hc.signedPreKey, Program.run_ofExcept,
                      run_takeOneTimePreKey, hdh, hremote, hinit]⟩
              | ok initialDh =>
                  exact absurd ⟨ikA, ekA, spk, remoteDh, hc, hdh, hremote, hinit⟩
                    (hin dhAll initialDh)
  · refine Or.inl ?_
    simp only [not_exists] at hcontact
    suffices hrun : ∃ e, (initiateBobSession P k m).run P E h = (.error e, h) by
      obtain ⟨e, hrun⟩ := hrun
      exact ⟨e, hrun, hcontact⟩
    cases hekHex : m.initialEphemeralKeyHex with
    | none => exact ⟨.missingX3dhParameters, by simp [initiateBobSession, hekHex]⟩
    | some ekHex =>
        cases hikHex : m.initialIdentityKeyHex with
        | none => exact ⟨.missingX3dhParameters, by simp [initiateBobSession, hekHex, hikHex]⟩
        | some ikHex =>
            cases hik : P.hexToBytes ikHex with
            | error e =>
                exact ⟨e, by simp [initiateBobSession, EngineOp.handle, hekHex, hikHex, hik]⟩
            | ok ikA =>
                cases hek : P.hexToBytes ekHex with
                | error e =>
                    exact ⟨e, by
                      simp [initiateBobSession, EngineOp.handle, hekHex, hikHex, hik, hek]⟩
                | ok ekA =>
                    cases hspk : h.store.getLatestSignedPreKey with
                    | none =>
                        exact ⟨.noSignedPreKey, by
                          simp [initiateBobSession, EngineOp.handle, hekHex, hikHex, hik, hek,
                            hspk]⟩
                    | some spk =>
                        exact absurd ⟨⟨ikHex, hikHex, hik⟩, ⟨ekHex, hekHex, hek⟩, hspk⟩
                          (hcontact ikA ekA spk)

/-! ## Decrypting -/

theorem run_decrypt_of_session {k : S} {h : Host B S} {s : SessionRecord B S}
    (hs : h.store.getSession P k = some s) (m : EncryptedMessage S) :
    (decrypt P k m).run P E h = (decryptInSession P k m s).run P E h := by
  simp [decrypt, EngineOp.handle, hs]

theorem run_decrypt_of_no_session {k : S} {h : Host B S} (hs : h.store.getSession P k = none)
    (m : EncryptedMessage S) :
    (decrypt P k m).run P E h =
      (initiateBobSession P k m >>= fun s => decryptInSession P k m s).run P E h := by
  simp [decrypt, EngineOp.handle, hs]

variable {P E} in
/-- A first contact that succeeds hands its session on. -/
theorem run_decrypt_of_responded {k : S} {m : EncryptedMessage S} {h h₁ : Host B S}
    {s : SessionRecord B S} (hnone : h.store.getSession P k = none)
    (hrun : (initiateBobSession P k m).run P E h = (.ok s, h₁)) :
    (decrypt P k m).run P E h = (decryptInSession P k m s).run P E h₁ :=
  (run_decrypt_of_no_session P E hnone m).trans
    (Program.run_bind_of_ok (EngineOp.handle P E) hrun fun s => decryptInSession P k m s)

variable {P E} in
/-- A first contact that throws ends `decrypt`. -/
theorem run_decrypt_of_refused {k : S} {m : EncryptedMessage S} {h h₁ : Host B S}
    {e : EngineError S} (hnone : h.store.getSession P k = none)
    (hrun : (initiateBobSession P k m).run P E h = (.error e, h₁)) :
    (decrypt P k m).run P E h = (.error e, h₁) :=
  (run_decrypt_of_no_session P E hnone m).trans
    (Program.run_bind_of_error (EngineOp.handle P E) hrun fun s => decryptInSession P k m s)

/-- A first contact that succeeds reduces `decrypt` to the one on the store it leaves. -/
theorem run_decrypt_of_contact {k : S} {m : EncryptedMessage S} {h h₁ : Host B S}
    {s : SessionRecord B S} (hnone : h.store.getSession P k = none)
    (hrun : (initiateBobSession P k m).run P E h = (.ok s, h₁))
    (hs : h₁.store.getSession P k = some s) :
    (decrypt P k m).run P E h = (decrypt P k m).run P E h₁ :=
  (run_decrypt_of_responded hnone hrun).trans (run_decrypt_of_session P E hs m).symm

/-! ## What a call leaves alone -/

/-- A call about the peer `k` keeps the identity, the signed prekeys and the sessions of other
peers. -/
structure CallFrame (k : S) (h h' : Host B S) : Prop where
  identity : h'.store.identity = h.store.identity
  signedPreKeys : h'.store.signedPreKeys = h.store.signedPreKeys
  sessions : ∀ k', P.toLowerCase k' ≠ P.toLowerCase k →
    h'.store.getSession P k' = h.store.getSession P k'
  draws : h.draws ≤ h'.draws

variable {P E}

omit [DecidableEq S] in
theorem CallFrame.trans {k : S} {h h' h'' : Host B S} (hf : CallFrame P k h h')
    (hf' : CallFrame P k h' h'') : CallFrame P k h h'' where
  identity := hf'.identity.trans hf.identity
  signedPreKeys := hf'.signedPreKeys.trans hf.signedPreKeys
  sessions k' hne := (hf'.sessions k' hne).trans (hf.sessions k' hne)
  draws := hf.draws.trans hf'.draws

omit [DecidableEq S] in
theorem CallFrame.of_store {k : S} {h h' : Host B S} (hstore : h'.store = h.store)
    (hdraws : h.draws ≤ h'.draws) : CallFrame P k h h' := by
  obtain ⟨st, d⟩ := h'
  cases hstore
  exact ⟨rfl, rfl, fun _ _ => rfl, hdraws⟩

theorem callFrame_saveSession (k : S) (h : Host B S) (s : SessionRecord B S) {draws : Nat}
    (hdraws : h.draws ≤ draws) :
    CallFrame P k h { store := h.store.saveSession P k s, draws } where
  identity := rfl
  signedPreKeys := rfl
  sessions _ hne := SignalStore.getSession_saveSession_of_ne P h.store hne s
  draws := hdraws

theorem callFrame_encrypt {k plaintext : S} {context : Option InitialBundleContext}
    {h h' : Host B S} {r : Except (EngineError S) (EncryptedMessage S)}
    (hrun : (encrypt P k plaintext context).run P E h = (r, h')) : CallFrame P k h h' := by
  rcases run_encrypt_cases P E k plaintext context h with
    ⟨e, hfail⟩ | ⟨stored, s, chainHex, c, -, -, -, hok⟩
  · rw [hfail] at hrun
    cases hrun
    exact .of_store rfl (Nat.le_refl _)
  · rw [hok] at hrun
    cases hrun
    exact callFrame_saveSession k h _ (Nat.le_add_right _ _)

theorem callFrame_initiateSession {k : S} {bundle : PreKeyBundle S} {h h' : Host B S}
    {r : Except (EngineError S) (SessionRecord B S)}
    (hrun : (initiateSession P k bundle).run P E h = (r, h')) : CallFrame P k h h' := by
  rcases run_initiateSession_cases P E k bundle h with
    ⟨e, h₁, hfail, hstore, hdraws⟩ | ⟨dhs, initialDh, hin⟩
  · rw [hfail] at hrun
    cases hrun
    exact .of_store hstore hdraws
  · rw [run_initiateSession_of_inputs hin] at hrun
    cases hrun
    exact callFrame_saveSession k h _ (Nat.le_add_right _ _)

theorem callFrame_decryptInSession {k : S} {m : EncryptedMessage S} {s : SessionRecord B S}
    {h h' : Host B S} {r : Except (EngineError S) S}
    (hrun : (decryptInSession P k m s).run P E h = (r, h')) : CallFrame P k h h' := by
  rcases run_decryptInSession_cases P E k m s h with
    ⟨e, h₁, hfail, hstore, hdraws, -⟩ | ⟨key, saved, hsel⟩
  · rw [hfail] at hrun
    cases hrun
    exact .of_store hstore hdraws
  · obtain ⟨now, draws, hok, hdraws, -⟩ := run_decryptInSession_of_selects (k := k) hsel
    rw [hok] at hrun
    cases hrun
    exact callFrame_saveSession k h _ hdraws

theorem callFrame_decrypt {k : S} {m : EncryptedMessage S} {h h' : Host B S}
    {r : Except (EngineError S) S} (hrun : (decrypt P k m).run P E h = (r, h')) :
    CallFrame P k h h' := by
  cases hs : h.store.getSession P k with
  | some s =>
      rw [run_decrypt_of_session P E hs] at hrun
      exact callFrame_decryptInSession hrun
  | none =>
      have hwithout : CallFrame P k h
          { h with store := h.store.withoutNamed m.oneTimePreKeyId } :=
        ⟨SignalStore.identity_withoutNamed _ _, SignalStore.signedPreKeys_withoutNamed _ _,
          fun k' _ => SignalStore.getSession_withoutNamed P _ _ k', Nat.le_refl _⟩
      rcases run_initiateBobSession_cases P E k m h with
        ⟨e, hfail, -⟩ | ⟨e, ikA, ekA, spk, hfail, -⟩ | ⟨dhs, initialDh, hin⟩
      · rw [run_decrypt_of_refused hs hfail] at hrun
        cases hrun
        exact .of_store rfl (Nat.le_refl _)
      · rw [run_decrypt_of_refused hs hfail] at hrun
        cases hrun
        exact hwithout
      · rw [run_decrypt_of_responded hs (run_initiateBobSession_of_inputs hin)] at hrun
        exact (hwithout.trans (callFrame_saveSession k _ _ (Nat.le_add_right _ _))).trans
          (callFrame_decryptInSession hrun)

end TorE2EE.Crypto
