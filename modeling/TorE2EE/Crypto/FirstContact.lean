import TorE2EE.Crypto.MessageKeys
import TorE2EE.Crypto.Opening

/-!
# What the first message decides

A responder without a session takes its latest signed prekey and the one-time prekey the message
names. `Initiated.decrypt_ok` shows that the message opens when these are the keys of the bundle,
and `Initiated.keysTaken_of_decrypt_ok` that it opens in no other case: in the free-term reading the
two master secrets differ, so the message key does.
-/

set_option autoImplicit false

namespace TorE2EE.Crypto

open TorE2EE.Foundation

variable {B S : Type}

/-- A responder with this store uses the keys of the bundle for a first message. -/
structure BundleKeysTaken (st : SignalStore B S) (bundle : PreKeyBundle S)
    (m : EncryptedMessage S) : Prop where
  signedPreKey : ∃ spk, st.getLatestSignedPreKey = some spk ∧
    spk.keyPair.publicKeyHex = bundle.signedPreKey.publicKeyHex
  oneTimePreKey : TakesBundleOneTimePreKey st bundle m

/-- The one-time prekey of the bundle is written as the engine writes keys. -/
def PreKeyBundle.Canonical (P : Primitives B S) (bundle : PreKeyBundle S) : Prop :=
  ∀ otk, bundle.oneTimePreKey = some otk → ∃ b, otk.publicKeyHex = P.bytesToHex b

variable {P : Primitives B S} {E : Entropy B} {ep : Nat → Epoch B S} {bundle : PreKeyBundle S}
  {ikA : Curve25519KeyPair B S}

/-- Every bundle `generatePreKeyBundle` exports writes its keys as the engine does. -/
theorem exportedBundle_canonical (identity : UserIdentity B S) (signatureHex : S) (d count : Nat) :
    (exportedBundle P E identity signatureHex d count).Canonical P := by
  intro otk hotk
  cases count with
  | zero => cases hotk
  | succ count =>
      cases hotk
      exact ⟨_, rfl⟩

/-! ## The two lists of Diffie-Hellman values -/

/-- Equal Diffie-Hellman values of an initiator's key with `x` and of a responder's key pair with
the initiator's public key belong to the same responder key. -/
theorem publicKey_eq_of_scalarMult (hfree : P.FreeTerms) {ekA kp : Curve25519KeyPair B S}
    (hekA : ekA.WellFormed P) (hkp : kp.WellFormed P) {x d : B}
    (h : P.scalarMult ekA.secretKey x = .ok d)
    (h' : P.scalarMult kp.secretKey ekA.publicKey = .ok d) : x = kp.publicKey := by
  rw [hekA.publicKey_eq] at h'
  rcases hfree.scalarMult_inj h h' with ⟨hpub, hx⟩ | ⟨hx, -⟩
  · rw [hx, hpub, hkp.publicKey_eq]
  · rw [hx, hkp.publicKey_eq]

/-- Equal lists come from the same signed prekey and the same one-time prekey. -/
theorem keys_eq_of_dhs_eq (hP : P.Lawful) (hfree : P.FreeTerms) {ekA ikB : Curve25519KeyPair B S}
    {ikBytes ikABytes spkB : B} {spk : SignedPreKey B S} {opk : Option (OneTimePreKey B S)}
    (hbundle : bundle.Canonical P) (hekA : ekA.WellFormed P) (hspk : spk.keyPair.WellFormed P)
    (hopk : ∀ k ∈ opk, k.keyPair.WellFormed P) {l : List B}
    (hi : initiatorDhs P ikA ekA ikBytes spkB bundle.oneTimePreKey = .ok l)
    (hr : responderDhs P ikB spk opk ikABytes ekA.publicKey = .ok l) :
    spkB = spk.keyPair.publicKey ∧
      opk.map (fun k => k.keyPair.publicKeyHex) =
        bundle.oneTimePreKey.map PublicOneTimePreKey.publicKeyHex := by
  obtain ⟨a1, a2, a3, -, -, ha3, ha⟩ := initiatorDhs_eq_ok hi
  obtain ⟨b1, b2, b3, -, -, hb3, hb⟩ := responderDhs_eq_ok hr
  rcases ha with ⟨hnone, rfl⟩ | ⟨o, opkB, a4, hsome, hopkB, ha4, rfl⟩
  · rcases hb with ⟨hnone', heq⟩ | ⟨k, b4, hk, hb4, heq⟩
    · simp only [List.cons.injEq, and_true] at heq
      obtain ⟨-, -, rfl⟩ := heq
      exact ⟨publicKey_eq_of_scalarMult hfree hekA hspk ha3 hb3, by rw [hnone, hnone']; rfl⟩
    · simp at heq
  · rcases hb with ⟨hnone', heq⟩ | ⟨k, b4, hk, hb4, heq⟩
    · simp at heq
    · simp only [List.cons.injEq, and_true] at heq
      obtain ⟨-, -, rfl, rfl⟩ := heq
      have hkwf : k.keyPair.WellFormed P := hopk k hk
      have hpub := publicKey_eq_of_scalarMult hfree hekA hkwf ha4 hb4
      obtain ⟨b, hb⟩ := hbundle o hsome
      rw [hb, hP.hexToBytes_bytesToHex] at hopkB
      cases hopkB
      refine ⟨publicKey_eq_of_scalarMult hfree hekA hspk ha3 hb3, ?_⟩
      rw [hk, hsome, Option.map_some, Option.map_some, hb, hpub, hkwf.publicKeyHex_eq]

/-! ## Opening the first message -/

/-- A sealed message opens under no key but the one of its position. -/
theorem SealedAt.key_eq {k i : Nat} {plaintext t : S} {m : EncryptedMessage S} {key : B}
    (h : SealedAt P ep k i plaintext m) (hP : P.Lawful) (hfree : P.FreeTerms)
    (hopen : Crypto.decryptWithKey P m key = .ok t) : key = messageKeyAt P (ep k).chainKey i := by
  obtain ⟨nonce, -, hnonce, hbox⟩ := h.box
  obtain ⟨nonce', decrypted, -, hres, -⟩ := decryptWithKey_ok_iff.1 hopen
  rw [hbox, hP.fromBase64_toBase64] at hres
  exact hfree.secretboxOpen_key hres

/-- Well-formed stores hold well-formed one-time prekeys under every id. -/
theorem SignalStore.WellFormed.named {st : SignalStore B S} (hst : st.WellFormed P)
    (id : Option Int) : ∀ k ∈ st.namedOneTimePreKey id, k.keyPair.WellFormed P := by
  intro k hk
  obtain ⟨keyId, -, hget⟩ := Option.bind_eq_some_iff.1 hk
  exact hst.oneTimePreKey hget

/-- Responder inputs that lead to the chain of epoch `1` use the keys of the bundle. -/
theorem Initiated.keysTaken_of_chain (h : Initiated P ikA bundle ep) (hP : P.Lawful)
    (hfree : P.FreeTerms) (hbundle : bundle.Canonical P) {st : SignalStore B S}
    (hst : st.WellFormed P) {i : Nat} {plaintext : S} {m : EncryptedMessage S}
    (hm : OpeningMessage P ikA ep i plaintext m) {dhAll : List B} {initialDh : B}
    (hin : ResponderInputs P st m dhAll initialDh)
    (hchain : (kdfRoot P (masterSecret P dhAll) initialDh).chainKey = (ep 1).chainKey) :
    BundleKeysTaken st bundle m := by
  have hwf0 : (ep 0).keyPair.WellFormed P := h.ladder.wellFormed 0 (Nat.zero_le _)
  have hwf1 : (ep 1).keyPair.WellFormed P := h.ladder.wellFormed 1 (Nat.le_refl _)
  obtain ⟨ikABytes, ekA, spk, remoteDh, hcontact, hdhs, -, -⟩ := hin.contact
  obtain ⟨hex, hhex, hekA⟩ := hcontact.ephemeralKey
  have hekA' : ekA = (ep 1).keyPair.publicKey := by
    have heq : m.ephemeralPublicKeyHex = hex := Option.some.inj (hm.ephemeralKey.symm.trans hhex)
    rw [← heq, hm.sealedAt.key, hwf1.hexToBytes hP] at hekA
    exact (Except.ok.inj hekA).symm
  obtain ⟨ikB, dhAll', -, hdhs', hroot⟩ := h.root
  obtain ⟨dh, -, hkdf⟩ := h.ladder.linked 0 Nat.zero_lt_one
  have hsame : (kdfRoot P (masterSecret P dhAll) initialDh).chainKey =
      (kdfRoot P (masterSecret P dhAll') dh).chainKey := by
    rw [hchain, ← hroot, hkdf]
  have hlists : dhAll = dhAll' := hfree.masterSecret_inj hin.dhValues
    (dhValues_of_initiatorDhs hdhs') (hfree.chainKey_inj hsame).1
  subst hlists
  subst hekA'
  have hspk := hst.latest hcontact.signedPreKey
  obtain ⟨hpub, hotk⟩ := keys_eq_of_dhs_eq hP hfree hbundle hwf1 hspk (hst.named _) hdhs' hdhs
  refine ⟨⟨spk, hcontact.signedPreKey, ?_⟩, hotk⟩
  rw [h.signedPreKey, hspk.publicKeyHex_eq, hwf0.publicKeyHex_eq, hpub]

variable [DecidableEq S]

/-- A first message opens when the responder uses the keys of its bundle. -/
theorem Initiated.decrypt_ok (h : Initiated P ikA bundle ep) (hP : P.Lawful) (hE : E.Fresh P)
    (host : Host B S) (hst : host.store.WellFormed P)
    (hik : bundle.identityKeyHex = host.store.identity.encryptionKey.publicKeyHex) {k : S}
    (hnone : host.store.getSession P k = none) {i : Nat} {plaintext : S} {m : EncryptedMessage S}
    (hm : OpeningMessage P ikA ep i plaintext m) (hkeys : BundleKeysTaken host.store bundle m)
    (hlimit : i ≤ maxSkipMessages) :
    ∃ s₀ s₁ draws, (decrypt P k m).run P E host = (.ok plaintext,
      { store := ((host.store.withoutNamed m.oneTimePreKeyId).saveSession P k s₀).saveSession P k s₁
        draws }) := by
  obtain ⟨spk, hspk, hspkHex⟩ := hkeys.signedPreKey
  obtain ⟨dhAll, initialDh, hin, hkdf⟩ :=
    h.responderInputs hP hst hik hspk hspkHex hm hkeys.oneTimePreKey
  have hwf1 : (ep 1).keyPair.WellFormed P := h.ladder.wellFormed 1 (Nat.le_refl _)
  obtain ⟨e, he, hsent, -⟩ := exists_linked hP hwf1 (hE.length host.draws)
  have hcontact := run_initiateBobSession_of_inputs (E := E) (k := k) hin
  obtain ⟨s₀, hs₀⟩ : ∃ s₀, s₀ = respondedSession P k m
      (kdfRoot P (masterSecret P dhAll) initialDh) (keyPairOf P (E.secretKey host.draws))
      (E.now (host.draws + 1)) (E.now (host.draws + 2)) := ⟨_, rfl⟩
  rw [← hs₀] at hcontact
  have hold (j : Nat) (hj : j ≤ 1) : Function.update ep 2 e j = ep j :=
    Function.update_of_ne (by omega) _ _
  have hsame : SameKeys ep (Function.update ep 2 e) 1 := fun j hj => by simp [hold j hj]
  -- the saved session answers epoch 1 with a key pair of its own as epoch 2
  have hsync : Synced P (Function.update ep 2 e) 1 s₀ := by
    rw [hs₀]
    exact synced_respondedSession hP h.ladder hkdf hm.sealedAt.key he hsent _ _
  have hladder : Ladder P (Function.update ep 2 e) 1 :=
    h.ladder.congr hsame (by rw [hold 0 (by omega), h.ladder.first])
  have hsealed : SealedAt P (Function.update ep 2 e) 1 i plaintext m :=
    hm.sealedAt.congr (Nat.le_refl 1) hsame (by rw [hold 1 (Nat.le_refl _)])
      (by rw [hold 0 (by omega)])
  have hcov : Covers (Function.update ep 2 e) 1 s₀ 1 i := by
    rintro (hlt | ⟨-, hlt⟩)
    · exact absurd hlt (Nat.lt_irrefl _)
    · rw [hs₀] at hlt
      exact absurd hlt (Nat.not_lt_zero _)
  have hlim : WithinSkipLimit P (some s₀) m := by
    rw [hs₀]
    refine withinSkipLimit_respondedSession hP ?_ _ _
    show m.sequenceNumber ≤ _
    rw [hm.sealedAt.sequence]
    exact_mod_cast hlimit
  obtain ⟨saved, hsel, -, -⟩ := hsync.receives_of_le hP hladder (Nat.le_refl _) (Nat.le_refl _)
    Nat.one_ne_zero hsealed hcov hlim (E.secretKey (host.draws + 3))
  obtain ⟨now, draws, hrun, -, -⟩ := run_decryptInSession_of_selects (k := k)
    (h := { store := (host.store.withoutNamed m.oneTimePreKeyId).saveSession P k s₀
            draws := host.draws + 3 }) hsel
  refine ⟨s₀, saved now, draws, ?_⟩
  rw [run_decrypt_of_contact P E hnone hcontact (SignalStore.getSession_saveSession_self P _ _ _),
    run_decrypt_of_session P E (SignalStore.getSession_saveSession_self P _ _ _), hrun,
    hsealed.decryptWithKey hP]

/-- A first message opens only when the responder uses the keys of its bundle. -/
theorem Initiated.keysTaken_of_decrypt_ok (h : Initiated P ikA bundle ep) (hP : P.Lawful)
    (hfree : P.FreeTerms) (hE : E.Fresh P) (hbundle : bundle.Canonical P) (host : Host B S)
    (hst : host.store.WellFormed P) {k : S} (hnone : host.store.getSession P k = none) {i : Nat}
    {plaintext t : S} {m : EncryptedMessage S} (hm : OpeningMessage P ikA ep i plaintext m)
    (hrun : ((decrypt P k m).run P E host).1 = .ok t) : BundleKeysTaken host.store bundle m := by
  rw [decrypt_ok_iff hP hE] at hrun
  simp only [DecryptsTo, hnone] at hrun
  obtain ⟨dhAll, initialDh, hin, -, hopen⟩ := hrun
  have hkey := hm.sealedAt.key_eq hP hfree hopen
  rw [hm.sealedAt.sequence, Int.toNat_natCast] at hkey
  exact h.keysTaken_of_chain hP hfree hbundle hst hm hin (messageKeyAt_inj hfree hkey)

end TorE2EE.Crypto
