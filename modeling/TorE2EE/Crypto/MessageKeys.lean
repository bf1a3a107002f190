import TorE2EE.Crypto.Bundles

/-!
# The message key of a header

`KeyFor P s m key` says, by the keys and counters of the stored session alone, that `key` is the
message key `decrypt` uses for the header of `m`. It agrees with what a run selects
(`Selects.keyFor`, `KeyFor.selects`), so the plaintext a call returns depends on the store and the
message only (`decrypt_ok_iff`), and not on the random draws.
-/

set_option autoImplicit false

namespace TorE2EE.Crypto

open TorE2EE.Foundation

variable {B S : Type} [DecidableEq S] (P : Primitives B S)

/-- `skipMessageKeys` up to `upTo` does not throw. -/
def Skippable (s : SessionRecord B S) (upTo : Int) : Prop :=
  ∀ chainHex remote, s.receiveChainKeyHex = some chainHex → s.remoteDhPublicKeyHex = some remote →
    upTo ≤ s.receiveSequenceNumber + maxSkipMessages ∧ ∃ c, P.hexToBytes chainHex = .ok c

/-- The message key a session has for the header of `m`: a skipped key, a key of the receiving
chain, or a key of the chain after a ratchet step. -/
inductive KeyFor (s : SessionRecord B S) (m : EncryptedMessage S) : B → Prop where
  | skipped {keyHex : S} {key : B} :
      s.skippedMessageKeys (m.skippedKeyId P) = some keyHex → P.hexToBytes keyHex = .ok key →
      KeyFor s m key
  | chain {chainHex : S} {c : B} :
      s.skippedMessageKeys (m.skippedKeyId P) = none → needsRatchet P s m = false →
      s.receiveChainKeyHex = some chainHex → P.hexToBytes chainHex = .ok c →
      m.sequenceNumber ≤ s.receiveSequenceNumber + maxSkipMessages →
      KeyFor s m (messageKeyAt P c (m.sequenceNumber - s.receiveSequenceNumber).toNat)
  | ratchet {rootKey remoteDh dhReceive : B} :
      s.skippedMessageKeys (m.skippedKeyId P) = none → needsRatchet P s m = true →
      Skippable P s m.previousChainLength → P.hexToBytes s.rootKeyHex = .ok rootKey →
      P.hexToBytes m.ephemeralPublicKeyHex = .ok remoteDh →
      P.scalarMult s.localDhKeyPair.secretKey remoteDh = .ok dhReceive →
      m.sequenceNumber ≤ maxSkipMessages →
      KeyFor s m (messageKeyAt P (kdfRoot P rootKey dhReceive).chainKey m.sequenceNumber.toNat)

variable {P} {s s' : SessionRecord B S} {m : EncryptedMessage S}

/-! ## Skipping -/

/-- A skip changes the receiving chain, its counter and the skipped keys at most. -/
theorem skipMessageKeys_keeps {upTo : Int} (h : skipMessageKeys P s upTo = .ok s') :
    s'.rootKeyHex = s.rootKeyHex ∧ s'.localDhKeyPair = s.localDhKeyPair ∧
      s'.remoteDhPublicKeyHex = s.remoteDhPublicKeyHex ∧
      s.receiveSequenceNumber ≤ s'.receiveSequenceNumber := by
  rcases skipMessageKeys_cases P h with ⟨-, rfl⟩ | ⟨_, _, _, _, _, _, _, rfl⟩
  · exact ⟨rfl, rfl, rfl, Nat.le_refl _⟩
  · exact ⟨rfl, rfl, rfl, Nat.le_add_right _ _⟩

theorem skippable_iff {upTo : Int} :
    Skippable P s upTo ↔ ∃ s', skipMessageKeys P s upTo = .ok s' := by
  constructor
  · intro h
    cases hchain : s.receiveChainKeyHex with
    | none => exact ⟨s, skipMessageKeys_of_no_chain P hchain upTo⟩
    | some chainHex =>
        cases hremote : s.remoteDhPublicKeyHex with
        | none => exact ⟨s, by simp only [skipMessageKeys, hchain, hremote]; rfl⟩
        | some remote =>
            obtain ⟨hlimit, c, hc⟩ := h chainHex remote hchain hremote
            exact ⟨_, skipMessageKeys_of_chain P hchain hc hremote hlimit⟩
  · rintro ⟨s', hskip⟩ chainHex remote hchain hremote
    rcases skipMessageKeys_cases P hskip with
      ⟨hnone | hnone, -⟩ | ⟨chainHex', c, remote', hchain', hc, -, hlimit, -⟩
    · rw [hnone] at hchain
      cases hchain
    · rw [hnone] at hremote
      cases hremote
    · rw [hchain] at hchain'
      cases hchain'
      exact ⟨hlimit, c, hc⟩

/-- After a skip the head of the chain is the message key at the target. -/
theorem messageKey_of_skip (hP : P.Lawful) {upTo : Int} {chainHex chainHex' : S} {c c' : B}
    (hskip : skipMessageKeys P s upTo = .ok s') (hremote : s.remoteDhPublicKeyHex.isSome)
    (hchain : s.receiveChainKeyHex = some chainHex) (hc : P.hexToBytes chainHex = .ok c)
    (hchain' : s'.receiveChainKeyHex = some chainHex') (hc' : P.hexToBytes chainHex' = .ok c') :
    upTo ≤ s.receiveSequenceNumber + maxSkipMessages ∧
      (kdfChain P c').messageKey = messageKeyAt P c (upTo - s.receiveSequenceNumber).toNat := by
  rcases skipMessageKeys_cases P hskip with
    ⟨hnone | hnone, -⟩ | ⟨chainHex₁, c₁, remote, hchain₁, hc₁, -, hlimit, rfl⟩
  · rw [hnone] at hchain
    cases hchain
  · rw [hnone] at hremote
    cases hremote
  · rw [hchain] at hchain₁
    cases hchain₁
    rw [hc] at hc₁
    cases hc₁
    cases hchain'
    rw [hP.hexToBytes_bytesToHex] at hc'
    cases hc'
    exact ⟨hlimit, rfl⟩

/-! ## Closed form and run -/

theorem remote_isSome_of_stay (h : needsRatchet P s m = false) :
    s.remoteDhPublicKeyHex.isSome := by
  cases hremote : s.remoteDhPublicKeyHex with
  | none => simp [needsRatchet, hremote] at h
  | some remote => rfl

/-- What a run selects is the message key of the header. -/
theorem Selects.keyFor {secretKey key : B} {saved : Nat → SessionRecord B S}
    (h : Selects P s m secretKey key saved) (hP : P.Lawful) : KeyFor P s m key := by
  cases h with
  | skipped hfound hkey => exact .skipped hfound hkey
  | head hnone hmove hchain' hc' =>
      cases hmove with
      | stay hstay hskip =>
          -- with no ratchet step the key is reached along the current chain
          have hremote := remote_isSome_of_stay hstay
          cases hchain : s.receiveChainKeyHex with
          | none =>
              rw [skipMessageKeys_of_no_chain P hchain] at hskip
              cases hskip
              rw [hchain] at hchain'
              cases hchain'
          | some chainHex =>
              have hable := skippable_iff.2 ⟨_, hskip⟩
              obtain ⟨remote, hremote'⟩ := Option.isSome_iff_exists.1 hremote
              obtain ⟨-, c, hc⟩ := hable chainHex remote hchain hremote'
              obtain ⟨hlimit, hkey⟩ := messageKey_of_skip hP hskip hremote hchain hc hchain' hc'
              rw [hkey]
              exact .chain hnone hstay hchain hc hlimit
      | ratchet hneeds hskip hin hskip' =>
          -- skipping the old chain leaves the keys the ratchet step computes with
          obtain ⟨hroot, hlocal, -, -⟩ := skipMessageKeys_keeps hskip
          obtain ⟨hlimit, hkey⟩ := messageKey_of_skip hP hskip' rfl rfl
            (hP.hexToBytes_bytesToHex _) hchain' hc'
          rw [hkey]
          have hlimit' : m.sequenceNumber ≤ maxSkipMessages := by
            simpa [SessionRecord.ratcheted] using hlimit
          simpa [SessionRecord.ratcheted] using KeyFor.ratchet hnone hneeds
            (skippable_iff.2 ⟨_, hskip⟩) (hroot ▸ hin.root) hin.remote (hlocal ▸ hin.receive) hlimit'

/-- A run selects the message key of the header, whatever 32-byte key it may draw. -/
theorem KeyFor.selects {key : B} (h : KeyFor P s m key) (hP : P.Lawful) {secretKey : B}
    (hlen : P.length secretKey = 32) : ∃ saved, Selects P s m secretKey key saved := by
  cases h with
  | skipped hfound hkey => exact ⟨_, .skipped hfound hkey⟩
  | chain hnone hstay hchain hc hlimit =>
      obtain ⟨remote, hremote⟩ := Option.isSome_iff_exists.1 (remote_isSome_of_stay hstay)
      have hskip := skipMessageKeys_of_chain P hchain hc hremote hlimit
      exact ⟨_, .head hnone (.stay hstay hskip) rfl (hP.hexToBytes_bytesToHex _)⟩
  | @ratchet rootKey remoteDh dhReceive hnone hneeds hable hroot hremote hreceive hlimit =>
      obtain ⟨s₁, hskip⟩ := skippable_iff.1 hable
      obtain ⟨hroot', hlocal, -, -⟩ := skipMessageKeys_keeps hskip
      have hremoteLen := ((hP.scalarMult_ok_iff _ _).1 ⟨_, hreceive⟩).2
      obtain ⟨dhSend, hsend⟩ := (hP.scalarMult_ok_iff secretKey remoteDh).2 ⟨hlen, hremoteLen⟩
      have hin : RatchetInputs P s₁ m.ephemeralPublicKeyHex secretKey rootKey remoteDh dhReceive
          dhSend := ⟨hroot' ▸ hroot, hremote, hlocal ▸ hreceive, hsend⟩
      have hlimit' : m.sequenceNumber ≤ (s₁.ratcheted P m.ephemeralPublicKeyHex rootKey dhReceive
          dhSend (keyPairOf P secretKey)).receiveSequenceNumber + maxSkipMessages := by
        simpa [SessionRecord.ratcheted] using hlimit
      have hskip' := skipMessageKeys_of_chain P rfl (hP.hexToBytes_bytesToHex _) rfl hlimit'
      -- the chain is new, so the distance to the header is its sequence number
      have hdistance : (m.sequenceNumber - ((0 : Nat) : Int)).toNat = m.sequenceNumber.toNat := by
        simp
      rw [← hdistance]
      exact ⟨_, .head hnone (.ratchet hneeds hskip hin hskip') rfl (hP.hexToBytes_bytesToHex _)⟩

/-- For the message that started it, a responder session has the key at the message's position. -/
theorem keyFor_respondedSession {k : S} {r : RootKeys B} {dhsB : Curve25519KeyPair B S}
    {createdAt updatedAt : Nat} {key : B} (hP : P.Lawful) :
    KeyFor P (respondedSession P k m r dhsB createdAt updatedAt) m key ↔
      m.sequenceNumber ≤ maxSkipMessages ∧
        key = messageKeyAt P r.chainKey m.sequenceNumber.toNat := by
  have hstay : needsRatchet P (respondedSession P k m r dhsB createdAt updatedAt) m = false := by
    simp [needsRatchet, respondedSession, hP.toLowerCase_toLowerCase]
  constructor
  · intro h
    cases h with
    | skipped hfound => cases hfound
    | ratchet _ hneeds => simp [hstay] at hneeds
    | chain _ _ hchain hc hlimit =>
        cases hchain
        rw [hP.hexToBytes_bytesToHex] at hc
        cases hc
        exact ⟨by simpa [respondedSession] using hlimit, by simp [respondedSession]⟩
  · rintro ⟨hlimit, rfl⟩
    have hkey := KeyFor.chain (P := P) (m := m)
      (s := respondedSession P k m r dhsB createdAt updatedAt) rfl hstay rfl
      (hP.hexToBytes_bytesToHex _) (by simpa [respondedSession] using hlimit)
    simpa [respondedSession] using hkey

/-! ## What a call returns -/

/-- The nonce of `m` decodes and its box opens under `key`. -/
def Opens (P : Primitives B S) (m : EncryptedMessage S) (key : B) : Prop :=
  ∃ nonce decrypted, P.hexToBytes m.nonce = .ok nonce ∧
    P.secretboxOpen (P.fromBase64 m.ciphertext) nonce key = .ok (some decrypted)

omit [DecidableEq S] in
theorem opens_iff {key : B} : Opens P m key ↔ ∃ t, decryptWithKey P m key = .ok t := by
  constructor
  · rintro ⟨nonce, decrypted, hnonce, hopen⟩
    exact ⟨P.textDecode decrypted, decryptWithKey_ok_iff.2 ⟨nonce, decrypted, hnonce, hopen, rfl⟩⟩
  · rintro ⟨t, ht⟩
    obtain ⟨nonce, decrypted, hnonce, hopen, -⟩ := decryptWithKey_ok_iff.1 ht
    exact ⟨nonce, decrypted, hnonce, hopen⟩

/-- `m`, sent by `k`, has the plaintext `t` in the store `st`: the message key of its header, in
the stored session or in the session its first contact would make, opens its box. -/
def DecryptsTo (P : Primitives B S) (st : SignalStore B S) (k : S) (m : EncryptedMessage S)
    (t : S) : Prop :=
  match st.getSession P k with
  | some s => ∃ key, KeyFor P s m key ∧ decryptWithKey P m key = .ok t
  | none =>
      ∃ dhAll initialDh, ResponderInputs P st m dhAll initialDh ∧
        m.sequenceNumber ≤ maxSkipMessages ∧
        decryptWithKey P m (messageKeyAt P (kdfRoot P (masterSecret P dhAll) initialDh).chainKey
          m.sequenceNumber.toNat) = .ok t

variable {E : Entropy B} {k t : S} {h : Host B S}

/-- In a session `decrypt` returns a plaintext exactly when the message key of the header opens the
box. -/
theorem decryptInSession_ok_iff (hP : P.Lawful) (hE : E.Fresh P) :
    ((decryptInSession P k m s).run P E h).1 = .ok t ↔
      ∃ key, KeyFor P s m key ∧ decryptWithKey P m key = .ok t := by
  constructor
  · intro hok
    rcases run_decryptInSession_cases P E k m s h with ⟨e, h', hrun, -⟩ | ⟨key, saved, hsel⟩
    · rw [hrun] at hok
      cases hok
    · obtain ⟨now, draws, hrun, -⟩ := run_decryptInSession_of_selects (k := k) hsel
      rw [hrun] at hok
      exact ⟨key, hsel.keyFor hP, hok⟩
  · rintro ⟨key, hkey, hopen⟩
    obtain ⟨saved, hsel⟩ := hkey.selects hP (hE.length h.draws)
    obtain ⟨now, draws, hrun, -⟩ := run_decryptInSession_of_selects (k := k) hsel
    rw [hrun]
    exact hopen

/-- `decrypt` returns a plaintext exactly when the store and the message say so; the draws and the
clock have no part in it. -/
theorem decrypt_ok_iff (hP : P.Lawful) (hE : E.Fresh P) :
    ((decrypt P k m).run P E h).1 = .ok t ↔ DecryptsTo P h.store k m t := by
  rw [DecryptsTo]
  cases hs : h.store.getSession P k with
  | some s => rw [run_decrypt_of_session P E hs, decryptInSession_ok_iff hP hE]
  | none =>
      constructor
      · intro hok
        rcases run_initiateBobSession_cases P E k m h with
          ⟨e, hrun, -⟩ | ⟨e, ikA, ekA, spk, hrun, -⟩ | ⟨dhAll, initialDh, hin⟩
        · rw [run_decrypt_of_refused hs hrun] at hok
          cases hok
        · rw [run_decrypt_of_refused hs hrun] at hok
          cases hok
        · rw [run_decrypt_of_responded hs (run_initiateBobSession_of_inputs hin)] at hok
          obtain ⟨key, hkey, hopen⟩ := (decryptInSession_ok_iff hP hE).1 hok
          obtain ⟨hlimit, rfl⟩ := (keyFor_respondedSession hP).1 hkey
          exact ⟨dhAll, initialDh, hin, hlimit, hopen⟩
      · rintro ⟨dhAll, initialDh, hin, hlimit, hopen⟩
        rw [run_decrypt_of_responded hs (run_initiateBobSession_of_inputs hin)]
        apply (decryptInSession_ok_iff hP hE).2
        exact ⟨_, (keyFor_respondedSession hP).2 ⟨hlimit, rfl⟩, hopen⟩

end TorE2EE.Crypto
