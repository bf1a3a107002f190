import TorE2EE.Crypto.Bundles

/-!
# Epochs of a conversation

A conversation runs through a sequence of epochs, one for each ratchet key pair. Epoch `0` is the
signed prekey of the responder, the initiator owns the odd epochs and the responder the even ones
from `2` on; the root key and the sending chain of an epoch come from the root key before it and
the Diffie-Hellman value of the two key pairs (`Linked`).

`Synced P ep n s` says that the session `s` stands at position `n`: its remote key is epoch `n` and
its own key epoch `n + 1`. `Covers` says that the session can still open the message at a position
it has already moved past. The lemmas show what sealing, skipping, a ratchet step and opening do to
both; `Synced.selects_of_le` and `Synced.selects_ratchet` put them together for one delivery.
-/

set_option autoImplicit false

namespace TorE2EE.Crypto

variable {B S : Type} (P : Primitives B S)

/-- One ratchet key pair with the root key and the sending chain derived for it, and the number of
messages sealed under that chain. -/
structure Epoch (B S : Type) where
  keyPair : Curve25519KeyPair B S
  rootKey : B
  chainKey : B
  sent : Nat

/-- The keys of `e'` are derived from the root key of `e`. -/
def Linked (e e' : Epoch B S) : Prop :=
  ∃ dh, P.scalarMult e'.keyPair.secretKey e.keyPair.publicKey = .ok dh ∧
    kdfRoot P e.rootKey dh = { nextRootKey := e'.rootKey, chainKey := e'.chainKey }

/-- The epochs up to `top`: distinct key pairs, each linked to the one before. -/
structure Ladder (ep : Nat → Epoch B S) (top : Nat) : Prop where
  wellFormed : ∀ k ≤ top, (ep k).keyPair.WellFormed P
  distinct : ∀ j ≤ top, ∀ k ≤ top,
    (ep j).keyPair.publicKeyHex = (ep k).keyPair.publicKeyHex → j = k
  linked : ∀ k < top, Linked P (ep k) (ep (k + 1))
  first : (ep 0).sent = 0

/-- The session stands at position `n`. Its sending chain is either derived or still to be derived
from the root key of epoch `n`. -/
structure Synced (ep : Nat → Epoch B S) (n : Nat) (s : SessionRecord B S) : Prop where
  localKey : s.localDhKeyPair = (ep (n + 1)).keyPair
  remoteKey : s.remoteDhPublicKeyHex = some (ep n).keyPair.publicKeyHex
  sent : s.sendSequenceNumber = (ep (n + 1)).sent
  previous : s.previousChainLength = (ep (n - 1)).sent
  sending :
    (s.rootKeyHex = P.bytesToHex (ep (n + 1)).rootKey ∧
      s.sendChainKeyHex =
        some (P.bytesToHex (chainKeyAt P (ep (n + 1)).chainKey (ep (n + 1)).sent))) ∨
    (s.rootKeyHex = P.bytesToHex (ep n).rootKey ∧ s.sendChainKeyHex = none ∧
      (ep (n + 1)).sent = 0)
  receiving : n ≠ 0 →
    s.receiveChainKeyHex = some (P.bytesToHex (chainKeyAt P (ep n).chainKey s.receiveSequenceNumber))
  notReceiving : n = 0 → s.receiveChainKeyHex = none
  received : s.receiveSequenceNumber ≤ (ep n).sent
  skipped : ∀ r i v, s.skippedMessageKeys (r, i) = some v → ∃ k j, k ≤ n ∧
    r = (ep k).keyPair.publicKeyHex ∧ i = (j : Nat) ∧
    v = P.bytesToHex (messageKeyAt P (ep k).chainKey j)

/-- A position the session has moved past still has its skipped key. -/
def Covers (ep : Nat → Epoch B S) (n : Nat) (s : SessionRecord B S) (k i : Nat) : Prop :=
  (k < n ∨ (k = n ∧ i < s.receiveSequenceNumber)) →
    (s.skippedMessageKeys ((ep k).keyPair.publicKeyHex, (i : Int))).isSome

/-- A message sealed at position `i` of the chain of epoch `k`. -/
structure SealedAt (ep : Nat → Epoch B S) (k i : Nat) (plaintext : S) (m : EncryptedMessage S) :
    Prop where
  index : i < (ep k).sent
  key : m.ephemeralPublicKeyHex = (ep k).keyPair.publicKeyHex
  sequence : m.sequenceNumber = i
  previous : m.previousChainLength = (ep (k - 2)).sent
  box : ∃ nonce, P.length nonce = 24 ∧ m.nonce = P.bytesToHex nonce ∧
    m.ciphertext = P.toBase64 (P.secretbox (P.textEncode plaintext) nonce
      (messageKeyAt P (ep k).chainKey i))
  text : P.textDecode (P.textEncode plaintext) = plaintext

/-- The message at position `i` of epoch `k` opens under the message key of that position. -/
theorem SealedAt.decryptWithKey {P : Primitives B S} {ep : Nat → Epoch B S} {k i : Nat}
    {plaintext : S} {m : EncryptedMessage S} (h : SealedAt P ep k i plaintext m) (hP : P.Lawful) :
    decryptWithKey P m (messageKeyAt P (ep k).chainKey i) = .ok plaintext := by
  obtain ⟨nonce, hlength, hnonce, hbox⟩ := h.box
  rw [decryptWithKey_ok_iff, hnonce, hbox, hP.fromBase64_toBase64]
  exact ⟨nonce, _, hP.hexToBytes_bytesToHex _, hP.secretboxOpen_secretbox _ _ _ hlength, h.text⟩

/-! ## Changing the epochs -/

/-- The epochs agree on their keys up to `top`. -/
def SameKeys (ep ep' : Nat → Epoch B S) (top : Nat) : Prop :=
  ∀ k ≤ top, (ep' k).keyPair = (ep k).keyPair ∧ (ep' k).rootKey = (ep k).rootKey ∧
    (ep' k).chainKey = (ep k).chainKey

/-- One more message was sealed in epoch `k`. -/
def sealInEpoch (ep : Nat → Epoch B S) (k : Nat) : Nat → Epoch B S :=
  Function.update ep k { ep k with sent := (ep k).sent + 1 }

theorem sameKeys_sealInEpoch (ep : Nat → Epoch B S) (k top : Nat) :
    SameKeys ep (sealInEpoch ep k) top := by
  intro j _
  by_cases hj : j = k
  · subst hj
    simp [sealInEpoch]
  · simp [sealInEpoch, Function.update_of_ne hj]

theorem sent_sealInEpoch_self (ep : Nat → Epoch B S) (k : Nat) :
    (sealInEpoch ep k k).sent = (ep k).sent + 1 := by
  simp [sealInEpoch]

theorem sent_sealInEpoch_of_ne (ep : Nat → Epoch B S) {j k : Nat} (h : j ≠ k) :
    (sealInEpoch ep k j).sent = (ep j).sent := by
  simp [sealInEpoch, Function.update_of_ne h]

theorem sent_le_sealInEpoch (ep : Nat → Epoch B S) (j k : Nat) :
    (ep j).sent ≤ (sealInEpoch ep k j).sent := by
  by_cases h : j = k
  · subst h
    rw [sent_sealInEpoch_self]
    exact Nat.le_succ _
  · rw [sent_sealInEpoch_of_ne ep h]

section Congruence

variable {P} {ep ep' : Nat → Epoch B S} {n k i : Nat} {s : SessionRecord B S}

theorem Linked.congr {e e' d d' : Epoch B S} (h : Linked P e e')
    (he : d.keyPair = e.keyPair ∧ d.rootKey = e.rootKey ∧ d.chainKey = e.chainKey)
    (he' : d'.keyPair = e'.keyPair ∧ d'.rootKey = e'.rootKey ∧ d'.chainKey = e'.chainKey) :
    Linked P d d' := by
  obtain ⟨dh, hdh, hkdf⟩ := h
  exact ⟨dh, by rw [he.1, he'.1]; exact hdh, by rw [he.2.1, he'.2.1, he'.2.2]; exact hkdf⟩

theorem Ladder.congr {top : Nat} (h : Ladder P ep top) (hep : SameKeys ep ep' top)
    (hfirst : (ep' 0).sent = 0) : Ladder P ep' top where
  wellFormed k hk := by
    rw [(hep k hk).1]
    exact h.wellFormed k hk
  distinct j hj k hk heq := by
    rw [(hep j hj).1, (hep k hk).1] at heq
    exact h.distinct j hj k hk heq
  linked k hk := (h.linked k hk).congr (hep k (Nat.le_of_lt hk)) (hep (k + 1) hk)
  first := hfirst

theorem Synced.congr (h : Synced P ep n s) (hep : SameKeys ep ep' (n + 1))
    (hsent : (ep' (n + 1)).sent = (ep (n + 1)).sent)
    (hprev : (ep' (n - 1)).sent = (ep (n - 1)).sent) (hrecv : (ep n).sent ≤ (ep' n).sent) :
    Synced P ep' n s where
  localKey := by rw [(hep (n + 1) (Nat.le_refl _)).1, h.localKey]
  remoteKey := by rw [(hep n (Nat.le_succ n)).1, h.remoteKey]
  sent := by rw [hsent, h.sent]
  previous := by rw [hprev, h.previous]
  sending := by
    rw [(hep (n + 1) (Nat.le_refl _)).2.1, (hep (n + 1) (Nat.le_refl _)).2.2,
      (hep n (Nat.le_succ n)).2.1, hsent]
    exact h.sending
  receiving hn := by
    rw [(hep n (Nat.le_succ n)).2.2]
    exact h.receiving hn
  notReceiving := h.notReceiving
  received := h.received.trans hrecv
  skipped r i v hv := by
    obtain ⟨k, j, hk, hr, hi, hv⟩ := h.skipped r i v hv
    have hkeys := hep k (Nat.le_succ_of_le hk)
    exact ⟨k, j, hk, by rw [hkeys.1, hr], hi, by rw [hkeys.2.2, hv]⟩

theorem Covers.congr (h : Covers ep n s k i) (hep : SameKeys ep ep' (n + 1)) :
    Covers ep' n s k i := by
  intro hpast
  rw [(hep k (by omega)).1]
  exact h hpast

theorem SealedAt.congr {plaintext : S} {m : EncryptedMessage S} {top : Nat}
    (h : SealedAt P ep k i plaintext m) (hk : k ≤ top) (hep : SameKeys ep ep' top)
    (hsent : (ep k).sent ≤ (ep' k).sent) (hprev : (ep' (k - 2)).sent = (ep (k - 2)).sent) :
    SealedAt P ep' k i plaintext m where
  index := Nat.lt_of_lt_of_le h.index hsent
  key := by rw [(hep k hk).1, h.key]
  sequence := h.sequence
  previous := by rw [hprev, h.previous]
  box := by
    rw [(hep k hk).2.2]
    exact h.box
  text := h.text

end Congruence

/-! ## Adding an epoch -/

/-- An epoch linked to the last one, with a new key pair, extends the ladder. -/
theorem Ladder.extend {P : Primitives B S} {ep : Nat → Epoch B S} {top : Nat} (h : Ladder P ep top)
    {e : Epoch B S} (hwf : e.keyPair.WellFormed P)
    (hnew : ∀ k ≤ top, (ep k).keyPair.publicKeyHex ≠ e.keyPair.publicKeyHex)
    (hlink : Linked P (ep top) e) : Ladder P (Function.update ep (top + 1) e) (top + 1) := by
  have hold (k : Nat) (hk : k ≤ top) : Function.update ep (top + 1) e k = ep k :=
    Function.update_of_ne (by omega) _ _
  have hself : Function.update ep (top + 1) e (top + 1) = e := Function.update_self _ _ _
  refine ⟨?_, ?_, ?_, by rw [hold 0 (Nat.zero_le _), h.first]⟩
  · intro k hk
    rcases Nat.lt_succ_iff_lt_or_eq.1 (Nat.lt_succ_of_le hk) with hlt | rfl
    · rw [hold k (Nat.le_of_lt_succ hlt)]
      exact h.wellFormed k (Nat.le_of_lt_succ hlt)
    · rw [hself]
      exact hwf
  · intro j hj k hk heq
    -- two old epochs, an old one and the new, or the new one twice
    rcases Nat.lt_succ_iff_lt_or_eq.1 (Nat.lt_succ_of_le hj) with hj' | rfl
    · rcases Nat.lt_succ_iff_lt_or_eq.1 (Nat.lt_succ_of_le hk) with hk' | rfl
      · rw [hold j (Nat.le_of_lt_succ hj'), hold k (Nat.le_of_lt_succ hk')] at heq
        exact h.distinct j (Nat.le_of_lt_succ hj') k (Nat.le_of_lt_succ hk') heq
      · rw [hold j (Nat.le_of_lt_succ hj'), hself] at heq
        exact absurd heq (hnew j (Nat.le_of_lt_succ hj'))
    · rcases Nat.lt_succ_iff_lt_or_eq.1 (Nat.lt_succ_of_le hk) with hk' | rfl
      · rw [hold k (Nat.le_of_lt_succ hk'), hself] at heq
        exact absurd heq.symm (hnew k (Nat.le_of_lt_succ hk'))
      · rfl
  · intro k hk
    rw [hold k (Nat.le_of_lt_succ hk)]
    by_cases hkt : k = top
    · subst hkt
      rw [hself]
      exact hlink
    · rw [hold (k + 1) (by omega)]
      exact h.linked k (by omega)

/-! ## Sealing -/

section Session

variable {P} {ep : Nat → Epoch B S} {n top : Nat} {s : SessionRecord B S}

/-- Both ends of a link compute the same Diffie-Hellman value. -/
theorem Linked.scalarMult {e e' : Epoch B S} (h : Linked P e e') (hP : P.Lawful)
    (he : e.keyPair.WellFormed P) (he' : e'.keyPair.WellFormed P) :
    ∃ dh, P.scalarMult e.keyPair.secretKey e'.keyPair.publicKey = .ok dh ∧
      P.scalarMult e'.keyPair.secretKey e.keyPair.publicKey = .ok dh ∧
      kdfRoot P e.rootKey dh = { nextRootKey := e'.rootKey, chainKey := e'.chainKey } := by
  obtain ⟨dh, hdh, hkdf⟩ := h
  exact ⟨dh, by rw [he.scalarMult_comm he' hP, hdh], hdh, hkdf⟩

/-- `encrypt` finds or derives the sending chain of the session's own epoch. -/
theorem Synced.ensureSendChain (h : Synced P ep n s) (hP : P.Lawful) (hep : Ladder P ep top)
    (hn : n < top) :
    ∃ s', Crypto.ensureSendChain P s =
        .ok (s', P.bytesToHex (chainKeyAt P (ep (n + 1)).chainKey (ep (n + 1)).sent)) ∧
      Synced P ep n s' ∧ s'.rootKeyHex = P.bytesToHex (ep (n + 1)).rootKey ∧
      s'.skippedMessageKeys = s.skippedMessageKeys ∧
      s'.receiveSequenceNumber = s.receiveSequenceNumber ∧
      s'.oneTimePreKeyId = s.oneTimePreKeyId := by
  rcases h.sending with ⟨hroot, hchain⟩ | ⟨hroot, hchain, hsent⟩
  · exact ⟨s, by simp only [Crypto.ensureSendChain, hchain]; rfl, h, hroot, rfl, rfl, rfl⟩
  · have hwf : (ep n).keyPair.WellFormed P := hep.wellFormed n (Nat.le_of_lt hn)
    obtain ⟨dh, hdh, hkdf⟩ := hep.linked n hn
    refine ⟨{ s with
      rootKeyHex := P.bytesToHex (ep (n + 1)).rootKey
      sendChainKeyHex := some (P.bytesToHex (ep (n + 1)).chainKey) }, ?_, ?_, rfl, rfl, rfl, rfl⟩
    · simp only [Crypto.ensureSendChain, hchain, h.remoteKey, hroot, h.localKey,
        hP.hexToBytes_bytesToHex, hwf.hexToBytes hP, hsent, chainKeyAt_zero]
      show (P.scalarMult _ _ >>= _) = _
      rw [hdh]
      show Except.ok _ = _
      rw [hkdf]
    · exact ⟨h.localKey, h.remoteKey, h.sent, h.previous, Or.inl ⟨rfl, by rw [hsent]; rfl⟩,
        h.receiving, h.notReceiving, h.received, h.skipped⟩

/-- Sealing one message moves the sending chain of the session's own epoch by one. -/
theorem Synced.sealedOnce (h : Synced P ep n s)
    (hroot : s.rootKeyHex = P.bytesToHex (ep (n + 1)).rootKey) (now : Nat) :
    Synced P (sealInEpoch ep (n + 1)) n
      (s.sealedOnce P (chainKeyAt P (ep (n + 1)).chainKey (ep (n + 1)).sent) now) := by
  -- Only the count of the session's own epoch changes: all keys of the ladder stay.
  have hsame := sameKeys_sealInEpoch ep (n + 1) (n + 1)
  have hown := hsame (n + 1) (Nat.le_refl _)
  have hremote := hsame n (Nat.le_succ n)
  refine
    { localKey := by rw [hown.1]; exact h.localKey
      remoteKey := by rw [hremote.1]; exact h.remoteKey
      sent := ?sent
      previous := ?previous
      sending := ?sending
      receiving := ?receiving
      notReceiving := h.notReceiving
      received := h.received.trans (sent_le_sealInEpoch ep _ _)
      skipped := ?skipped }
  case sent =>
    rw [sent_sealInEpoch_self, ← h.sent]
    rfl
  case previous =>
    rw [sent_sealInEpoch_of_ne ep (by omega)]
    exact h.previous
  case sending =>
    refine Or.inl ⟨by rw [hown.2.1]; exact hroot, ?_⟩
    rw [hown.2.2, sent_sealInEpoch_self, chainKeyAt_succ]
    rfl
  case receiving =>
    intro hn
    rw [hremote.2.2]
    exact h.receiving hn
  case skipped =>
    intro r i v hv
    obtain ⟨k, j, hk, hr, hi, hv⟩ := h.skipped r i v hv
    have hkeys := hsame k (Nat.le_succ_of_le hk)
    exact ⟨k, j, hk, by rw [hkeys.1, hr], hi, by rw [hkeys.2.2, hv]⟩

/-- The message a session seals next sits at the end of the chain of its own epoch. -/
theorem Synced.sealedAt (h : Synced P ep n s) (identity : UserIdentity B S)
    {nonce : B} (hnonce : P.length nonce = 24) {plaintext : S}
    (htext : P.textDecode (P.textEncode plaintext) = plaintext)
    (context : Option InitialBundleContext) :
    SealedAt P (sealInEpoch ep (n + 1)) (n + 1) (ep (n + 1)).sent plaintext
      (sealedMessage P identity s (chainKeyAt P (ep (n + 1)).chainKey (ep (n + 1)).sent) nonce
        plaintext context) := by
  have hsame := sameKeys_sealInEpoch ep (n + 1) (n + 1) (n + 1) (Nat.le_refl _)
  refine
    { index := ?index
      key := ?key
      sequence := ?sequence
      previous := ?previous
      box := ⟨nonce, hnonce, rfl, ?messageKey⟩
      text := htext }
  case index =>
    rw [sent_sealInEpoch_self]
    exact Nat.lt_succ_self _
  case key =>
    rw [hsame.1, ← h.localKey]
    rfl
  case sequence =>
    rw [← h.sent]
    rfl
  case previous =>
    rw [sent_sealInEpoch_of_ne ep (by omega), show n + 1 - 2 = n - 1 by omega, ← h.previous]
    rfl
  case messageKey =>
    rw [hsame.2.2]
    rfl

end Session

end TorE2EE.Crypto
