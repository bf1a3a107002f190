import TorE2EE.Crypto.Chains

/-!
# What one engine call does

One lemma for each engine function, in two directions. The `run_..._of_...` lemmas compute a run
whose library calls succeed; the `run_..._cases` lemmas say everything a run can have done, failures
included. Later modules cite these and never unfold the engine.

A run that throws while it moves the session to a header leaves the store as it was
(`run_moveToHeader_cases`). Every session a run saves is one of `SessionRecord.sealedOnce`,
`SessionRecord.headTaken`, `SessionRecord.keyTaken` and the two set-up sessions.
-/

set_option autoImplicit false

namespace TorE2EE.Crypto

open TorE2EE.Foundation

variable {B S : Type} [DecidableEq S] (P : Primitives B S) (E : Entropy B)

/-! ## Drawing key pairs -/

@[simp] theorem run_generateCurve25519KeyPair (h : Host B S) :
    (generateCurve25519KeyPair P).run P E h =
      (.ok (keyPairOf P (E.secretKey h.draws)), { h with draws := h.draws + 1 }) := rfl

/-! ## Encrypting -/

/-- The session after one message was sealed under the chain key `c`. -/
def SessionRecord.sealedOnce (s : SessionRecord B S) (c : B) (now : Nat) : SessionRecord B S :=
  { s with
    sendChainKeyHex := some (P.bytesToHex (kdfChain P c).nextChainKey)
    sendSequenceNumber := s.sendSequenceNumber + 1
    updatedAt := now }

/-- The one-time prekey id a message carries. -/
def carriedOneTimePreKeyId (s : SessionRecord B S) (context : Option InitialBundleContext) :
    Option Int :=
  match context.bind InitialBundleContext.oneTimePreKeyId with
  | some id => some id
  | none => if s.sendSequenceNumber = 0 then s.oneTimePreKeyId else none

/-- The message a session seals under the chain key `c`. -/
def sealedMessage (identity : UserIdentity B S) (s : SessionRecord B S) (c nonce : B)
    (plaintext : S) (context : Option InitialBundleContext) : EncryptedMessage S :=
  { ephemeralPublicKeyHex := s.localDhKeyPair.publicKeyHex
    sequenceNumber := s.sendSequenceNumber
    previousChainLength := s.previousChainLength
    ciphertext := P.toBase64 (P.secretbox (P.textEncode plaintext) nonce (kdfChain P c).messageKey)
    nonce := P.bytesToHex nonce
    oneTimePreKeyId := carriedOneTimePreKeyId s context
    initialIdentityKeyHex := some identity.encryptionKey.publicKeyHex
    initialEphemeralKeyHex := some s.localDhKeyPair.publicKeyHex }

variable {P E} in
theorem run_encrypt_of_ok {k plaintext : S} {context : Option InitialBundleContext} {h : Host B S}
    {stored s : SessionRecord B S} {chainHex : S} {c : B}
    (hstored : h.store.getSession P k = some stored)
    (hchain : ensureSendChain P stored = .ok (s, chainHex)) (hc : P.hexToBytes chainHex = .ok c) :
    (encrypt P k plaintext context).run P E h =
      (.ok (sealedMessage P h.store.identity s c (E.randomBytes (h.draws + 1) 24) plaintext context),
        { store := h.store.saveSession P k (s.sealedOnce P c (E.now h.draws))
          draws := h.draws + 2 }) := by
  simp [encrypt, EngineOp.handle, hstored, hchain, hc]
  exact ⟨rfl, rfl⟩

/-- A run of `encrypt` either throws and changes nothing, or seals one message and saves the
session after it. -/
theorem run_encrypt_cases (k plaintext : S) (context : Option InitialBundleContext)
    (h : Host B S) :
    (∃ e, (encrypt P k plaintext context).run P E h = (.error e, h)) ∨
      ∃ stored s chainHex c, h.store.getSession P k = some stored ∧
        ensureSendChain P stored = .ok (s, chainHex) ∧ P.hexToBytes chainHex = .ok c ∧
        (encrypt P k plaintext context).run P E h =
          (.ok (sealedMessage P h.store.identity s c (E.randomBytes (h.draws + 1) 24) plaintext
              context),
            { store := h.store.saveSession P k (s.sealedOnce P c (E.now h.draws))
              draws := h.draws + 2 }) := by
  cases hstored : h.store.getSession P k with
  | none => exact Or.inl ⟨.noActiveSession k, by simp [encrypt, EngineOp.handle, hstored]⟩
  | some stored =>
      cases hchain : ensureSendChain P stored with
      | error e => exact Or.inl ⟨e, by simp [encrypt, EngineOp.handle, hstored, hchain]⟩
      | ok r =>
          obtain ⟨s, chainHex⟩ := r
          cases hc : P.hexToBytes chainHex with
          | error e => exact Or.inl ⟨e, by simp [encrypt, EngineOp.handle, hstored, hchain, hc]⟩
          | ok c =>
              exact Or.inr ⟨stored, s, chainHex, c, rfl, hchain, hc,
                run_encrypt_of_ok hstored hchain hc⟩

omit [DecidableEq S] in
/-- The sending chain is the stored one, or the first one derived from the root key. -/
theorem ensureSendChain_cases {stored s : SessionRecord B S} {chainHex : S}
    (h : ensureSendChain P stored = .ok (s, chainHex)) :
    (stored.sendChainKeyHex = some chainHex ∧ s = stored) ∨
      ∃ remoteHex rootKey remoteDh dhSend, stored.sendChainKeyHex = none ∧
        stored.remoteDhPublicKeyHex = some remoteHex ∧
        P.hexToBytes stored.rootKeyHex = .ok rootKey ∧ P.hexToBytes remoteHex = .ok remoteDh ∧
        P.scalarMult stored.localDhKeyPair.secretKey remoteDh = .ok dhSend ∧
        chainHex = P.bytesToHex (kdfRoot P rootKey dhSend).chainKey ∧
        s = { stored with
          rootKeyHex := P.bytesToHex (kdfRoot P rootKey dhSend).nextRootKey
          sendChainKeyHex := some (P.bytesToHex (kdfRoot P rootKey dhSend).chainKey) } := by
  rw [ensureSendChain] at h
  cases hsend : stored.sendChainKeyHex with
  | some chainHex' =>
      rw [hsend] at h
      cases h
      exact Or.inl ⟨rfl, rfl⟩
  | none =>
      rw [hsend] at h
      cases hremote : stored.remoteDhPublicKeyHex with
      | none =>
          rw [hremote] at h
          cases h
      | some remoteHex =>
          rw [hremote] at h
          cases hroot : P.hexToBytes stored.rootKeyHex with
          | error e => simp [hroot, bind, Except.bind] at h
          | ok rootKey =>
              cases hdh : P.hexToBytes remoteHex with
              | error e => simp [hroot, hdh, bind, Except.bind] at h
              | ok remoteDh =>
                  cases hmul : P.scalarMult stored.localDhKeyPair.secretKey remoteDh with
                  | error e => simp [hroot, hdh, hmul, bind, Except.bind] at h
                  | ok dhSend =>
                      simp only [hroot, hdh, hmul, bind, Except.bind] at h
                      cases h
                      exact Or.inr ⟨remoteHex, rootKey, remoteDh, dhSend, rfl, rfl, rfl, hdh, hmul,
                        rfl, rfl⟩

/-! ## Moving to a header -/

/-- The session after a DH ratchet step from the root key `rootKey`. -/
def SessionRecord.ratcheted (s : SessionRecord B S) (newRemoteHex : S)
    (rootKey dhReceive dhSend : B) (kp : Curve25519KeyPair B S) : SessionRecord B S :=
  let r1 := kdfRoot P rootKey dhReceive
  let r2 := kdfRoot P r1.nextRootKey dhSend
  { s with
    previousChainLength := s.sendSequenceNumber
    sendSequenceNumber := 0
    receiveSequenceNumber := 0
    remoteDhPublicKeyHex := some (P.toLowerCase newRemoteHex)
    receiveChainKeyHex := some (P.bytesToHex r1.chainKey)
    localDhKeyPair := kp
    rootKeyHex := P.bytesToHex r2.nextRootKey
    sendChainKeyHex := some (P.bytesToHex r2.chainKey) }

/-- The library calls of a ratchet step that succeeds. -/
structure RatchetInputs (s : SessionRecord B S) (newRemoteHex : S) (secretKey : B)
    (rootKey remoteDh dhReceive dhSend : B) : Prop where
  root : P.hexToBytes s.rootKeyHex = .ok rootKey
  remote : P.hexToBytes newRemoteHex = .ok remoteDh
  receive : P.scalarMult s.localDhKeyPair.secretKey remoteDh = .ok dhReceive
  send : P.scalarMult secretKey remoteDh = .ok dhSend

variable {P E} in
theorem run_dhRatchetStep_of_inputs {s : SessionRecord B S} {newRemoteHex : S} {h : Host B S}
    {rootKey remoteDh dhReceive dhSend : B}
    (hin : RatchetInputs P s newRemoteHex (E.secretKey h.draws) rootKey remoteDh dhReceive dhSend) :
    (dhRatchetStep P s newRemoteHex).run P E h =
      (.ok (s.ratcheted P newRemoteHex rootKey dhReceive dhSend
          (keyPairOf P (E.secretKey h.draws))), { h with draws := h.draws + 1 }) := by
  have hsend : P.scalarMult (keyPairOf P (E.secretKey h.draws)).secretKey remoteDh = .ok dhSend :=
    hin.send
  simp [dhRatchetStep, hin.root, hin.remote, hin.receive, Program.run_bind, hsend]
  rfl

/-- A ratchet step throws with the store untouched, or succeeds with the key pair drawn first. -/
theorem run_dhRatchetStep_cases (s : SessionRecord B S) (newRemoteHex : S) (h : Host B S) :
    (∃ e h', (dhRatchetStep P s newRemoteHex).run P E h = (.error e, h') ∧ h'.store = h.store ∧
        h.draws ≤ h'.draws ∧ ∀ rootKey remoteDh dhReceive dhSend,
          ¬ RatchetInputs P s newRemoteHex (E.secretKey h.draws) rootKey remoteDh dhReceive dhSend) ∨
      ∃ rootKey remoteDh dhReceive dhSend,
        RatchetInputs P s newRemoteHex (E.secretKey h.draws) rootKey remoteDh dhReceive dhSend ∧
        (dhRatchetStep P s newRemoteHex).run P E h =
          (.ok (s.ratcheted P newRemoteHex rootKey dhReceive dhSend
              (keyPairOf P (E.secretKey h.draws))), { h with draws := h.draws + 1 }) := by
  -- each fallible step in the order of the source: the last draws a key pair and may still fail
  cases hroot : P.hexToBytes s.rootKeyHex with
  | error e =>
      refine Or.inl ⟨e, h, by simp [dhRatchetStep, hroot], rfl, Nat.le_refl _, ?_⟩
      intro rootKey remoteDh dhReceive dhSend hin
      exact absurd (hroot.symm.trans hin.root) (by simp)
  | ok rootKey =>
      cases hremote : P.hexToBytes newRemoteHex with
      | error e =>
          refine Or.inl ⟨e, h, by simp [dhRatchetStep, hroot, hremote], rfl, Nat.le_refl _, ?_⟩
          intro rootKey' remoteDh dhReceive dhSend hin
          exact absurd (hremote.symm.trans hin.remote) (by simp)
      | ok remoteDh =>
          cases hrecv : P.scalarMult s.localDhKeyPair.secretKey remoteDh with
          | error e =>
              refine Or.inl ⟨e, h, by simp [dhRatchetStep, hroot, hremote, hrecv], rfl,
                Nat.le_refl _, ?_⟩
              intro rootKey' remoteDh' dhReceive dhSend hin
              cases hremote.symm.trans hin.remote
              exact absurd (hrecv.symm.trans hin.receive) (by simp)
          | ok dhReceive =>
              cases hsend : P.scalarMult (E.secretKey h.draws) remoteDh with
              | error e =>
                  have hsend' : P.scalarMult (keyPairOf P (E.secretKey h.draws)).secretKey remoteDh =
                      .error e := hsend
                  refine Or.inl ⟨e, { h with draws := h.draws + 1 }, ?_, rfl, Nat.le_succ _, ?_⟩
                  · simp [dhRatchetStep, hroot, hremote, hrecv, Program.run_bind, hsend']
                  · intro rootKey' remoteDh' dhReceive' dhSend hin
                    cases hremote.symm.trans hin.remote
                    exact absurd (hsend.symm.trans hin.send) (by simp)
              | ok dhSend =>
                  have hin : RatchetInputs P s newRemoteHex (E.secretKey h.draws) rootKey remoteDh
                      dhReceive dhSend := ⟨hroot, hremote, hrecv, hsend⟩
                  exact Or.inr ⟨rootKey, remoteDh, dhReceive, dhSend, hin,
                    run_dhRatchetStep_of_inputs hin⟩

/-- The sessions `moveToHeader` reaches from `s` for the header of `m`, when the key pair it may
draw has the secret key `secretKey`. -/
inductive HeaderMove (s : SessionRecord B S) (m : EncryptedMessage S) (secretKey : B) :
    SessionRecord B S → Prop where
  | stay {s' : SessionRecord B S} :
      needsRatchet P s m = false → skipMessageKeys P s m.sequenceNumber = .ok s' →
      HeaderMove s m secretKey s'
  | ratchet {s₁ s' : SessionRecord B S} {rootKey remoteDh dhReceive dhSend : B} :
      needsRatchet P s m = true → skipMessageKeys P s m.previousChainLength = .ok s₁ →
      RatchetInputs P s₁ m.ephemeralPublicKeyHex secretKey rootKey remoteDh dhReceive dhSend →
      skipMessageKeys P (s₁.ratcheted P m.ephemeralPublicKeyHex rootKey dhReceive dhSend
        (keyPairOf P secretKey)) m.sequenceNumber = .ok s' →
      HeaderMove s m secretKey s'

/-- Number of draws of a successful `moveToHeader`. -/
def headerDraws (s : SessionRecord B S) (m : EncryptedMessage S) : Nat :=
  if needsRatchet P s m then 1 else 0

variable {P E} in
theorem run_moveToHeader_of_move {s s' : SessionRecord B S} {m : EncryptedMessage S} {h : Host B S}
    (hmove : HeaderMove P s m (E.secretKey h.draws) s') :
    (moveToHeader P s m).run P E h =
      (.ok s', { h with draws := h.draws + headerDraws P s m }) := by
  cases hmove with
  | stay hneeds hskip => simp [moveToHeader, hneeds, hskip, headerDraws]
  | ratchet hneeds hskip hin hskip' =>
      simp [moveToHeader, hneeds, hskip, headerDraws, Program.run_bind,
        run_dhRatchetStep_of_inputs hin, hskip']

/-- Moving to a header succeeds, or throws with the store untouched. -/
theorem run_moveToHeader_cases (s : SessionRecord B S) (m : EncryptedMessage S) (h : Host B S) :
    (∃ e h', (moveToHeader P s m).run P E h = (.error e, h') ∧ h'.store = h.store ∧
        h.draws ≤ h'.draws ∧ ∀ s', ¬ HeaderMove P s m (E.secretKey h.draws) s') ∨
      ∃ s', HeaderMove P s m (E.secretKey h.draws) s' := by
  by_cases hmove : ∃ s', HeaderMove P s m (E.secretKey h.draws) s'
  · exact Or.inr hmove
  · refine Or.inl ?_
    simp only [not_exists] at hmove
    suffices hrun : ∃ e h', (moveToHeader P s m).run P E h = (.error e, h') ∧
        h'.store = h.store ∧ h.draws ≤ h'.draws by
      obtain ⟨e, h', hrun, hstore, hdraws⟩ := hrun
      exact ⟨e, h', hrun, hstore, hdraws, hmove⟩
    cases hneeds : needsRatchet P s m with
    | false =>
        cases hskip : skipMessageKeys P s m.sequenceNumber with
        | error e => exact ⟨e, h, by simp [moveToHeader, hneeds, hskip], rfl, Nat.le_refl _⟩
        | ok s' => exact absurd (.stay hneeds hskip) (hmove s')
    | true =>
        cases hskip : skipMessageKeys P s m.previousChainLength with
        | error e => exact ⟨e, h, by simp [moveToHeader, hneeds, hskip], rfl, Nat.le_refl _⟩
        | ok s₁ =>
            rcases run_dhRatchetStep_cases P E s₁ m.ephemeralPublicKeyHex h with
              ⟨e, h', hrun, hstore, hdraws, -⟩ | ⟨rootKey, remoteDh, dhReceive, dhSend, hin, hrun⟩
            · exact ⟨e, h', by simp [moveToHeader, hneeds, hskip, Program.run_bind, hrun], hstore,
                hdraws⟩
            · cases hskip' : skipMessageKeys P (s₁.ratcheted P m.ephemeralPublicKeyHex rootKey
                  dhReceive dhSend (keyPairOf P (E.secretKey h.draws))) m.sequenceNumber with
              | error e =>
                  exact ⟨e, { h with draws := h.draws + 1 }, by
                    simp [moveToHeader, hneeds, hskip, Program.run_bind, hrun, hskip'], rfl,
                    Nat.le_succ _⟩
              | ok s' => exact absurd (.ratchet hneeds hskip hin hskip') (hmove s')

/-! ## Opening a box -/

omit [DecidableEq S] in
variable {P} in
/-- `decryptWithKey` returns exactly when the nonce decodes and the box opens. -/
theorem decryptWithKey_ok_iff {m : EncryptedMessage S} {key : B} {t : S} :
    decryptWithKey P m key = .ok t ↔
      ∃ nonce decrypted, P.hexToBytes m.nonce = .ok nonce ∧
        P.secretboxOpen (P.fromBase64 m.ciphertext) nonce key = .ok (some decrypted) ∧
        P.textDecode decrypted = t := by
  rw [decryptWithKey]
  constructor
  · intro h
    cases hnonce : P.hexToBytes m.nonce with
    | error e =>
        rw [hnonce] at h
        cases h
    | ok nonce =>
        cases hopen : P.secretboxOpen (P.fromBase64 m.ciphertext) nonce key with
        | error e =>
            simp only [hnonce, hopen, bind, Except.bind] at h
            cases h
        | ok r =>
            simp only [hnonce, hopen, bind, Except.bind] at h
            cases r with
            | none => cases h
            | some decrypted =>
                cases h
                exact ⟨nonce, decrypted, rfl, hopen, rfl⟩
  · rintro ⟨nonce, decrypted, hnonce, hopen, rfl⟩
    simp only [hnonce, hopen, bind, Except.bind]
    rfl

/-! ## Decrypting in a session -/

/-- The skipped-key id of a header. -/
def EncryptedMessage.skippedKeyId (m : EncryptedMessage S) : SkippedKeyId S :=
  (P.toLowerCase m.ephemeralPublicKeyHex, m.sequenceNumber)

/-- The session after a skipped key was used. -/
def SessionRecord.keyTaken (s : SessionRecord B S) (id : SkippedKeyId S) : SessionRecord B S :=
  { s with skippedMessageKeys := Function.update s.skippedMessageKeys id none }

/-- The session after the head of its receiving chain, the chain key `c`, was used. -/
def SessionRecord.headTaken (s : SessionRecord B S) (c : B) (now : Nat) : SessionRecord B S :=
  { s with
    receiveChainKeyHex := some (P.bytesToHex (kdfChain P c).nextChainKey)
    receiveSequenceNumber := s.receiveSequenceNumber + 1
    updatedAt := now }

/-- The message key a session selects for a header, with the session saved on its use as a
function of the clock. -/
inductive Selects (s : SessionRecord B S) (m : EncryptedMessage S) (secretKey : B) :
    B → (Nat → SessionRecord B S) → Prop where
  | skipped {keyHex : S} {key : B} :
      s.skippedMessageKeys (m.skippedKeyId P) = some keyHex → P.hexToBytes keyHex = .ok key →
      Selects s m secretKey key fun _ => s.keyTaken (m.skippedKeyId P)
  | head {s' : SessionRecord B S} {chainHex : S} {c : B} :
      s.skippedMessageKeys (m.skippedKeyId P) = none → HeaderMove P s m secretKey s' →
      s'.receiveChainKeyHex = some chainHex → P.hexToBytes chainHex = .ok c →
      Selects s m secretKey (kdfChain P c).messageKey (s'.headTaken P c)

variable {P E} in
/-- The run of `decrypt` on a header for which the session selects a key. The session is saved
whether or not the box opens. -/
theorem run_decryptInSession_of_selects {k : S} {m : EncryptedMessage S} {s : SessionRecord B S}
    {h : Host B S} {key : B} {saved : Nat → SessionRecord B S}
    (hsel : Selects P s m (E.secretKey h.draws) key saved) :
    ∃ now draws, (decryptInSession P k m s).run P E h =
        (decryptWithKey P m key, { store := h.store.saveSession P k (saved now), draws }) ∧
      h.draws ≤ draws ∧
      (s.skippedMessageKeys (m.skippedKeyId P) = none → h.draws + headerDraws P s m < draws) := by
  cases hsel with
  | @skipped keyHex _ hfound hkey =>
      refine ⟨0, h.draws, ?_, Nat.le_refl _, fun hnone => absurd (hfound.symm.trans hnone) (by simp)⟩
      have hfound' := hfound
      rw [EncryptedMessage.skippedKeyId] at hfound'
      simp only [decryptInSession, hfound', hkey, Program.run_ofExcept_ok_bind,
        Program.run_perform_bind, Program.run_ofExcept]
      rfl
  | @head s' chainHex c hnone hmove hchain hc =>
      refine ⟨E.now (h.draws + headerDraws P s m), h.draws + headerDraws P s m + 1, ?_, by omega,
        fun _ => Nat.lt_succ_self _⟩
      have hnone' := hnone
      rw [EncryptedMessage.skippedKeyId] at hnone'
      simp only [decryptInSession, hnone', Program.run_bind, run_moveToHeader_of_move hmove,
        openAtChainHead, hchain, hc, Program.run_ofExcept, Program.run_perform, EngineOp.handle]
      rfl

/-- A run of `decrypt` in a session throws with the store untouched, or the session selects a
key. -/
theorem run_decryptInSession_cases (k : S) (m : EncryptedMessage S) (s : SessionRecord B S)
    (h : Host B S) :
    (∃ e h', (decryptInSession P k m s).run P E h = (.error e, h') ∧ h'.store = h.store ∧
        h.draws ≤ h'.draws ∧ ∀ key saved, ¬ Selects P s m (E.secretKey h.draws) key saved) ∨
      ∃ key saved, Selects P s m (E.secretKey h.draws) key saved := by
  by_cases hsel : ∃ key saved, Selects P s m (E.secretKey h.draws) key saved
  · exact Or.inr hsel
  · refine Or.inl ?_
    simp only [not_exists] at hsel
    suffices hrun : ∃ e h', (decryptInSession P k m s).run P E h = (.error e, h') ∧
        h'.store = h.store ∧ h.draws ≤ h'.draws by
      obtain ⟨e, h', hrun, hstore, hdraws⟩ := hrun
      exact ⟨e, h', hrun, hstore, hdraws, hsel⟩
    -- a stored key is tried first, and no header is moved to when there is one
    cases hfound : s.skippedMessageKeys (m.skippedKeyId P) with
    | some keyHex =>
        have hfound' := hfound
        rw [EncryptedMessage.skippedKeyId] at hfound'
        cases hkey : P.hexToBytes keyHex with
        | error e =>
            exact ⟨e, h, by simp [decryptInSession, hfound', hkey], rfl, Nat.le_refl _⟩
        | ok key => exact absurd (.skipped hfound hkey) (hsel _ _)
    | none =>
        have hfound' := hfound
        rw [EncryptedMessage.skippedKeyId] at hfound'
        rcases run_moveToHeader_cases P E s m h with ⟨e, h', hrun, hstore, hdraws, -⟩ | ⟨s', hmove⟩
        · exact ⟨e, h', by simp [decryptInSession, hfound', Program.run_bind, hrun], hstore,
            hdraws⟩
        · have hrun := run_moveToHeader_of_move hmove
          cases hchain : s'.receiveChainKeyHex with
          | none =>
              exact ⟨.noReceivingChain, { h with draws := h.draws + headerDraws P s m }, by
                simp [decryptInSession, hfound', Program.run_bind, hrun, openAtChainHead, hchain],
                rfl, Nat.le_add_right _ _⟩
          | some chainHex =>
              cases hc : P.hexToBytes chainHex with
              | error e =>
                  exact ⟨e, { h with draws := h.draws + headerDraws P s m }, by
                    simp [decryptInSession, hfound', Program.run_bind, hrun, openAtChainHead,
                      hchain, hc], rfl, Nat.le_add_right _ _⟩
              | ok c => exact absurd (.head hfound hmove hchain hc) (hsel _ _)

end TorE2EE.Crypto
