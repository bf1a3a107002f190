import TorE2EE.Crypto.SessionSetup

/-!
# Prekey bundles

The run of `generatePreKeyBundle` in closed form, and what a bundle needs of its owner's store.

* `run_generatePreKeyBundle_cases`: the call throws with the store untouched, or it saves one signed
  prekey and the one-time prekeys of `SignalStore.withOneTimePreKeys` and returns
  `exportedBundle`.
* `UsableBundle`: the store's latest signed prekey is the bundle's, and the store holds the
  bundle's one-time prekey under its id.
* `initiatorDhs_eq_responderDhs`: over a usable bundle both sides of X3DH compute the same
  Diffie-Hellman values.
-/

set_option autoImplicit false

namespace TorE2EE.Crypto

open TorE2EE.Foundation

variable {B S : Type} (P : Primitives B S) (E : Entropy B)

/-! ## Key pairs of a store -/

/-- Fresh secret keys have 32 bytes and fresh nonces 24, and no two of the keys have the same public
key. -/
structure Entropy.Fresh : Prop where
  length : ∀ d, P.length (E.secretKey d) = 32
  nonce : ∀ d, P.length (E.randomBytes d 24) = 24
  distinct : ∀ {d d'}, (keyPairOf P (E.secretKey d)).publicKeyHex =
    (keyPairOf P (E.secretKey d')).publicKeyHex → d = d'

/-- Every key pair in the store is a `nacl.box` key pair. -/
structure SignalStore.WellFormed (st : SignalStore B S) : Prop where
  identity : st.identity.encryptionKey.WellFormed P
  signedPreKeys : ∀ spk ∈ st.signedPreKeys, spk.keyPair.WellFormed P
  oneTimePreKeys : ∀ opk ∈ st.oneTimePreKeys, opk.keyPair.WellFormed P

theorem keyPairOf_wellFormed {secretKey : B} (h : P.length secretKey = 32) :
    (keyPairOf P secretKey).WellFormed P := ⟨h, rfl⟩

namespace Curve25519KeyPair

variable {P} {kp : Curve25519KeyPair B S}

theorem WellFormed.publicKey_eq (h : kp.WellFormed P) :
    kp.publicKey = P.scalarMultBase kp.secretKey :=
  congrArg Curve25519KeyPair.publicKey h.2

theorem WellFormed.publicKeyHex_eq (h : kp.WellFormed P) :
    kp.publicKeyHex = P.bytesToHex kp.publicKey := by
  rw [h.publicKey_eq]
  exact congrArg Curve25519KeyPair.publicKeyHex h.2

theorem WellFormed.hexToBytes (h : kp.WellFormed P) (hP : P.Lawful) :
    P.hexToBytes kp.publicKeyHex = .ok kp.publicKey := by
  rw [h.publicKeyHex_eq, hP.hexToBytes_bytesToHex]

theorem WellFormed.toLowerCase (h : kp.WellFormed P) (hP : P.Lawful) :
    P.toLowerCase kp.publicKeyHex = kp.publicKeyHex := by
  rw [h.publicKeyHex_eq, hP.toLowerCase_bytesToHex]

/-- Two key pairs agree on the hex of the public key exactly when they agree on the public key. -/
theorem WellFormed.publicKey_inj {kp' : Curve25519KeyPair B S} (h : kp.WellFormed P)
    (h' : kp'.WellFormed P) (hP : P.Lawful) (heq : kp.publicKeyHex = kp'.publicKeyHex) :
    kp.publicKey = kp'.publicKey :=
  Except.ok.inj ((h.hexToBytes hP).symm.trans (heq ▸ h'.hexToBytes hP))

/-- Diffie-Hellman commutes on key pairs. -/
theorem WellFormed.scalarMult_comm {kp' : Curve25519KeyPair B S} (h : kp.WellFormed P)
    (h' : kp'.WellFormed P) (hP : P.Lawful) :
    P.scalarMult kp.secretKey kp'.publicKey = P.scalarMult kp'.secretKey kp.publicKey := by
  rw [h.publicKey_eq, h'.publicKey_eq, hP.scalarMult_comm _ _ h.1 h'.1]

/-- Diffie-Hellman is defined on key pairs. -/
theorem WellFormed.scalarMult_ok {kp' : Curve25519KeyPair B S} (h : kp.WellFormed P)
    (h' : kp'.WellFormed P) (hP : P.Lawful) :
    ∃ d, P.scalarMult kp.secretKey kp'.publicKey = .ok d := by
  refine (hP.scalarMult_ok_iff _ _).2 ⟨h.1, ?_⟩
  rw [h'.publicKey_eq]
  exact hP.length_scalarMultBase _ h'.1

end Curve25519KeyPair

/-! ## Generating a bundle -/

/-- The one-time prekey drawn at draw number `d`. -/
def drawnOneTimePreKey (d : Nat) : OneTimePreKey B S :=
  { keyId := E.randomId (d + 1)
    keyPair := keyPairOf P (E.secretKey d) }

/-- The public half of a one-time prekey. -/
def OneTimePreKey.publicHalf (opk : OneTimePreKey B S) : PublicOneTimePreKey S :=
  { keyId := opk.keyId
    publicKeyHex := opk.keyPair.publicKeyHex }

namespace SignalStore

variable (st : SignalStore B S)

/-- The store after `n` one-time prekeys were drawn from draw number `d` on. -/
def withOneTimePreKeys : SignalStore B S → Nat → Nat → SignalStore B S
  | st, _, 0 => st
  | st, d, n + 1 =>
      (st.saveOneTimePreKey (E.randomId (d + 1)) (drawnOneTimePreKey P E d)).withOneTimePreKeys
        (d + 2) n

@[simp] theorem identity_withOneTimePreKeys (d n : Nat) :
    (st.withOneTimePreKeys P E d n).identity = st.identity := by
  induction n generalizing st d with
  | zero => rfl
  | succ n ih => exact ih _ _

@[simp] theorem sessions_withOneTimePreKeys (d n : Nat) :
    (st.withOneTimePreKeys P E d n).sessions = st.sessions := by
  induction n generalizing st d with
  | zero => rfl
  | succ n ih => exact ih _ _

@[simp] theorem signedPreKeys_withOneTimePreKeys (d n : Nat) :
    (st.withOneTimePreKeys P E d n).signedPreKeys = st.signedPreKeys := by
  induction n generalizing st d with
  | zero => rfl
  | succ n ih => exact ih _ _

theorem getOneTimePreKey_saveOneTimePreKey (keyId keyId' : Int) (opk : OneTimePreKey B S) :
    (st.saveOneTimePreKey keyId opk).getOneTimePreKey keyId' =
      if keyId = keyId' then some { opk with keyId } else st.getOneTimePreKey keyId' :=
  Rows.lookup_upsert _ _ _ _

/-- A one-time prekey stays under its id while no drawn id is that id. -/
theorem getOneTimePreKey_withOneTimePreKeys {keyId : Int} {d n : Nat}
    (hids : ∀ j < n, E.randomId (d + 2 * j + 1) ≠ keyId) :
    (st.withOneTimePreKeys P E d n).getOneTimePreKey keyId = st.getOneTimePreKey keyId := by
  induction n generalizing st d with
  | zero => rfl
  | succ n ih =>
      have htail (j : Nat) (hj : j < n) : E.randomId (d + 2 + 2 * j + 1) ≠ keyId := by
        have := hids (j + 1) (Nat.succ_lt_succ hj)
        rwa [show d + 2 * (j + 1) + 1 = d + 2 + 2 * j + 1 by omega] at this
      have hhead : E.randomId (d + 1) ≠ keyId := hids 0 (Nat.succ_pos n)
      rw [withOneTimePreKeys, ih _ htail, getOneTimePreKey_saveOneTimePreKey, if_neg hhead]

variable {P E st} in
theorem WellFormed.withOneTimePreKeys (h : st.WellFormed P) (hE : E.Fresh P) (d n : Nat) :
    (st.withOneTimePreKeys P E d n).WellFormed P := by
  induction n generalizing st d with
  | zero => exact h
  | succ n ih =>
      have hsaved : (st.saveOneTimePreKey (E.randomId (d + 1))
          (drawnOneTimePreKey P E d)).WellFormed P := by
        refine ⟨h.identity, h.signedPreKeys, ?_⟩
        intro opk hopk
        rcases Rows.mem_of_mem_upsert _ hopk with rfl | hold
        · exact keyPairOf_wellFormed P (hE.length d)
        · exact h.oneTimePreKeys opk hold
      exact ih hsaved (d + 2)

variable {P st} in
theorem WellFormed.saveSignedPreKey (h : st.WellFormed P) {spk : SignedPreKey B S}
    (hspk : spk.keyPair.WellFormed P) (keyId : Int) :
    (st.saveSignedPreKey keyId spk).WellFormed P := by
  refine ⟨h.identity, ?_, h.oneTimePreKeys⟩
  intro spk' hmem
  rcases Rows.mem_of_mem_upsert _ hmem with rfl | hold
  · exact hspk
  · exact h.signedPreKeys spk' hold

variable {P st} in
theorem WellFormed.withoutNamed (h : st.WellFormed P) (id : Option Int) :
    (st.withoutNamed id).WellFormed P := by
  unfold SignalStore.withoutNamed
  split
  · exact h
  · split
    · exact h
    · exact ⟨h.identity, h.signedPreKeys, fun opk hopk =>
        h.oneTimePreKeys opk (List.mem_of_mem_filter hopk)⟩

variable {P st} in
theorem WellFormed.latest (h : st.WellFormed P) {spk : SignedPreKey B S}
    (hspk : st.getLatestSignedPreKey = some spk) : spk.keyPair.WellFormed P :=
  h.signedPreKeys spk (List.argmax_mem hspk)

variable {P st} in
theorem WellFormed.oneTimePreKey (h : st.WellFormed P) {keyId : Int} {opk : OneTimePreKey B S}
    (hopk : st.getOneTimePreKey keyId = some opk) : opk.keyPair.WellFormed P :=
  h.oneTimePreKeys opk (Rows.mem_of_lookup _ hopk).1

end SignalStore

theorem run_saveOneTimePreKeys [DecidableEq S] (n : Nat) (firstOtk : Option (PublicOneTimePreKey S))
    (h : Host B S) :
    (saveOneTimePreKeys P n firstOtk).run P E h =
      (.ok (firstOtk.or (if n = 0 then none else some (drawnOneTimePreKey P E h.draws).publicHalf)),
        { store := h.store.withOneTimePreKeys P E h.draws n
          draws := h.draws + 2 * n }) := by
  induction n generalizing firstOtk h with
  | zero =>
      cases firstOtk <;> rfl
  | succ n ih =>
      have hstep : (saveOneTimePreKeys P (n + 1) firstOtk).run P E h =
          (saveOneTimePreKeys P n
            (firstOtk.or (some (drawnOneTimePreKey P E h.draws).publicHalf))).run P E
            { store := h.store.saveOneTimePreKey (E.randomId (h.draws + 1))
                (drawnOneTimePreKey P E h.draws)
              draws := h.draws + 2 } := rfl
      rw [hstep, ih]
      have hdraws : h.draws + 2 + 2 * n = h.draws + 2 * (n + 1) := by omega
      cases firstOtk with
      | none => simp [SignalStore.withOneTimePreKeys, hdraws]
      | some otk => simp [SignalStore.withOneTimePreKeys, hdraws]

/-- The signed prekey `generatePreKeyBundle` draws at draw number `d`. -/
def drawnSignedPreKey (signatureHex : S) (d : Nat) : SignedPreKey B S :=
  { keyId := E.randomId (d + 1)
    keyPair := keyPairOf P (E.secretKey d)
    signatureHex
    createdAt := E.now (d + 2) }

/-- The bundle `generatePreKeyBundle` returns. -/
def exportedBundle (identity : UserIdentity B S) (signatureHex : S) (d count : Nat) :
    PreKeyBundle S :=
  { identityKeyHex := identity.encryptionKey.publicKeyHex
    signingKeyHex := identity.signingKey.publicKeyHex
    signedPreKey :=
      { keyId := E.randomId (d + 1)
        publicKeyHex := (keyPairOf P (E.secretKey d)).publicKeyHex
        signatureHex }
    oneTimePreKey :=
      if count = 0 then none else some (drawnOneTimePreKey P E (d + 3)).publicHalf }

/-- The store `generatePreKeyBundle` leaves. -/
def SignalStore.withBundle (st : SignalStore B S) (signatureHex : S) (d count : Nat) :
    SignalStore B S :=
  (st.saveSignedPreKey (E.randomId (d + 1))
    (drawnSignedPreKey P E signatureHex d)).withOneTimePreKeys P E (d + 3) count

@[simp] theorem SignalStore.identity_withBundle (st : SignalStore B S) (signatureHex : S)
    (d count : Nat) : (st.withBundle P E signatureHex d count).identity = st.identity := by
  simp [withBundle, saveSignedPreKey]

@[simp] theorem SignalStore.getSession_withBundle (st : SignalStore B S) (signatureHex : S)
    (d count : Nat) (k : S) :
    (st.withBundle P E signatureHex d count).getSession P k = st.getSession P k := by
  simp [withBundle, saveSignedPreKey, getSession]

theorem SignalStore.WellFormed.withBundle {P : Primitives B S} {E : Entropy B}
    {st : SignalStore B S} (h : st.WellFormed P) (hE : E.Fresh P) (signatureHex : S)
    (d count : Nat) : (st.withBundle P E signatureHex d count).WellFormed P := by
  have hspk : (drawnSignedPreKey P E signatureHex d).keyPair.WellFormed P :=
    keyPairOf_wellFormed P (hE.length d)
  exact (h.saveSignedPreKey hspk _).withOneTimePreKeys hE _ _

/-- A run of `generatePreKeyBundle` throws with the store untouched, or exports one bundle. -/
theorem run_generatePreKeyBundle_cases [DecidableEq S] (count : Nat) (h : Host B S) :
    (∃ e, (generatePreKeyBundle P count).run P E h = (.error e, { h with draws := h.draws + 2 })) ∨
      ∃ signatureHex,
        signChallenge P (keyPairOf P (E.secretKey h.draws)).publicKeyHex
          h.store.identity.signingKey.secretKey = .ok signatureHex ∧
        (generatePreKeyBundle P count).run P E h =
          (.ok (exportedBundle P E h.store.identity signatureHex h.draws count),
            { store := h.store.withBundle P E signatureHex h.draws count
              draws := h.draws + 3 + 2 * count }) := by
  cases hsign : signChallenge P (keyPairOf P (E.secretKey h.draws)).publicKeyHex
      h.store.identity.signingKey.secretKey with
  | error e =>
      exact Or.inl ⟨e, by simp [generatePreKeyBundle, EngineOp.handle, Program.run_bind, hsign]⟩
  | ok signatureHex =>
      refine Or.inr ⟨signatureHex, rfl, ?_⟩
      simp only [generatePreKeyBundle, EngineOp.handle, Program.run_bind, Program.run_perform,
        run_generateCurve25519KeyPair, Program.run_ofExcept, hsign, run_saveOneTimePreKeys,
        Program.run_pure]
      rfl

/-! ## Usable bundles -/

/-- The keys a bundle names are the ones its owner would use now: the identity key, the latest
signed prekey, and the one-time prekey stored under the bundle's id. -/
structure UsableBundle (st : SignalStore B S) (b : PreKeyBundle S) : Prop where
  identityKey : b.identityKeyHex = st.identity.encryptionKey.publicKeyHex
  signedPreKey : ∃ spk, st.getLatestSignedPreKey = some spk ∧
    spk.keyPair.publicKeyHex = b.signedPreKey.publicKeyHex
  oneTimePreKey : ∀ otk, b.oneTimePreKey = some otk →
    ∃ opk, st.getOneTimePreKey otk.keyId = some opk ∧ opk.keyPair.publicKeyHex = otk.publicKeyHex

/-- No one-time prekey id drawn after the first one of a `generatePreKeyBundle` call, which starts
at draw number `d`, is the first one. -/
def Entropy.ExportedIdUnique (d count : Nat) : Prop :=
  ∀ j, j + 1 < count → E.randomId (d + 6 + 2 * j) ≠ E.randomId (d + 4)

/-- A store without older signed prekeys can use the bundle it has just exported. -/
theorem usableBundle_withBundle {st : SignalStore B S} (hst : st.signedPreKeys = [])
    {signatureHex : S} {d count : Nat} (hids : E.ExportedIdUnique d count) :
    UsableBundle (st.withBundle P E signatureHex d count)
      (exportedBundle P E st.identity signatureHex d count) where
  identityKey := by simp [SignalStore.withBundle, exportedBundle, SignalStore.saveSignedPreKey]
  signedPreKey := by
    refine ⟨drawnSignedPreKey P E signatureHex d, ?_, rfl⟩
    simp [SignalStore.getLatestSignedPreKey, SignalStore.withBundle, SignalStore.saveSignedPreKey,
      hst, Rows.upsert, drawnSignedPreKey]
  oneTimePreKey := by
    intro otk hotk
    cases count with
    | zero => simp [exportedBundle] at hotk
    | succ n =>
        simp only [exportedBundle, Nat.add_eq_zero_iff, one_ne_zero, and_false, if_false,
          Option.some.injEq] at hotk
        subst hotk
        refine ⟨drawnOneTimePreKey P E (d + 3), ?_, rfl⟩
        have htail (j : Nat) (hj : j < n) :
            E.randomId (d + 3 + 2 + 2 * j + 1) ≠ E.randomId (d + 3 + 1) := by
          have := hids j (Nat.succ_lt_succ hj)
          rwa [show d + 6 + 2 * j = d + 3 + 2 + 2 * j + 1 by omega] at this
        rw [SignalStore.withBundle, SignalStore.withOneTimePreKeys]
        refine (SignalStore.getOneTimePreKey_withOneTimePreKeys P E _ htail).trans ?_
        rw [SignalStore.getOneTimePreKey_saveOneTimePreKey]
        exact if_pos rfl

/-! ## X3DH agreement -/

/-- Both sides of X3DH compute the same values when the responder takes the keys the initiator
used. -/
theorem initiatorDhs_eq_responderDhs (hP : P.Lawful) {ikA ekA ikB : Curve25519KeyPair B S}
    {spk : SignedPreKey B S} {otk : Option (PublicOneTimePreKey S)} {opk : Option (OneTimePreKey B S)}
    (hikA : ikA.WellFormed P) (hekA : ekA.WellFormed P) (hikB : ikB.WellFormed P)
    (hspk : spk.keyPair.WellFormed P) (hopk : ∀ k ∈ opk, k.keyPair.WellFormed P)
    (hsame : otk.map PublicOneTimePreKey.publicKeyHex =
      opk.map fun k => k.keyPair.publicKeyHex) :
    initiatorDhs P ikA ekA ikB.publicKey spk.keyPair.publicKey otk =
      responderDhs P ikB spk opk ikA.publicKey ekA.publicKey := by
  rw [initiatorDhs, responderDhs]
  rw [hikA.scalarMult_comm hspk hP, hekA.scalarMult_comm hikB hP, hekA.scalarMult_comm hspk hP]
  cases otk with
  | none =>
      cases opk with
      | none => rfl
      | some k => cases hsame
  | some o =>
      cases opk with
      | none => cases hsame
      | some k =>
          have hk : k.keyPair.WellFormed P := hopk k rfl
          have hhex : o.publicKeyHex = k.keyPair.publicKeyHex := by simpa using hsame
          simp only [hhex, hk.hexToBytes hP, ← hekA.scalarMult_comm hk hP]
          rfl

end TorE2EE.Crypto
