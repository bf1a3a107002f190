import TorE2EE.Crypto.Epochs
import TorE2EE.Crypto.EngineRuns

/-!
# Deliveries to a session

What `decrypt` selects for a message sealed at a position of an epoch, when the session is in step
with the epochs. A message of the session's current or an earlier epoch is opened with its skipped
key or at the chain (`Synced.selects_of_le`); a message of the next epoch of the peer makes the
session ratchet, and adds an epoch for the key pair drawn then (`Synced.selects_ratchet`). In both
cases the message key of the position is selected, and every other position stays covered.
-/

set_option autoImplicit false

namespace TorE2EE.Crypto

variable {B S : Type} [DecidableEq S]

/-- No `skipMessageKeys` that `decrypt` calls for `m` is asked to pass over more than
`maxSkipMessages` keys. -/
def WithinSkipLimit (P : Primitives B S) (session : Option (SessionRecord B S))
    (m : EncryptedMessage S) : Prop :=
  match session with
  | none => m.sequenceNumber ≤ maxSkipMessages
  | some s =>
      (s.skippedMessageKeys (m.skippedKeyId P)).isSome ∨
        if needsRatchet P s m then
          (s.receiveChainKeyHex.isSome →
            m.previousChainLength ≤ s.receiveSequenceNumber + maxSkipMessages) ∧
          m.sequenceNumber ≤ maxSkipMessages
        else m.sequenceNumber ≤ s.receiveSequenceNumber + maxSkipMessages

instance (P : Primitives B S) (held : Option (SessionRecord B S)) (m : EncryptedMessage S) :
    Decidable (WithinSkipLimit P held m) :=
  match held with
  | none => inferInstanceAs (Decidable (m.sequenceNumber ≤ maxSkipMessages))
  | some s => inferInstanceAs (Decidable (_ ∨ if needsRatchet P s m then _ ∧ _ else _))

variable {P : Primitives B S} {ep : Nat → Epoch B S} {n top k i : Nat} {s : SessionRecord B S}
  {plaintext : S} {m : EncryptedMessage S}

/-! ## Single moves -/

theorem passOver_isSome {r : S} {c : B} {received d : Nat} {sk : SkippedKeyId S → Option S}
    {id : SkippedKeyId S} (h : (sk id).isSome) : (passOver P r c received d sk id).isSome := by
  rw [passOver]
  split
  · rfl
  · exact h

/-- The session after `d` positions of the chain of its remote epoch were passed over. -/
def SessionRecord.skippedAhead (P : Primitives B S) (ep : Nat → Epoch B S) (n : Nat)
    (s : SessionRecord B S) (d : Nat) : SessionRecord B S :=
  s.passedOver P (ep n).keyPair.publicKeyHex (chainKeyAt P (ep n).chainKey s.receiveSequenceNumber) d

/-- Skipping within the limit keeps the session in step. -/
theorem Synced.skipMessageKeys (h : Synced P ep n s) (hP : P.Lawful)
    (hwf : (ep n).keyPair.WellFormed P) (hn : n ≠ 0) {upTo : Nat}
    (hlimit : (upTo : Int) ≤ s.receiveSequenceNumber + maxSkipMessages) :
    Crypto.skipMessageKeys P s upTo =
      .ok (s.skippedAhead P ep n (upTo - s.receiveSequenceNumber)) := by
  have hd : ((upTo : Int) - s.receiveSequenceNumber).toNat = upTo - s.receiveSequenceNumber := by
    omega
  rw [skipMessageKeys_of_chain P (h.receiving hn) (hP.hexToBytes_bytesToHex _) h.remoteKey hlimit,
    hwf.toLowerCase hP, hd]
  rfl

theorem Synced.skippedAhead (h : Synced P ep n s) (hn : n ≠ 0) {d : Nat}
    (hd : s.receiveSequenceNumber + d ≤ (ep n).sent) :
    Synced P ep n (s.skippedAhead P ep n d) where
  localKey := h.localKey
  remoteKey := h.remoteKey
  sent := h.sent
  previous := h.previous
  sending := h.sending
  receiving _ := by
    show some _ = some _
    rw [chainKeyAt_add]
    rfl
  notReceiving h0 := absurd h0 hn
  received := hd
  skipped := by
    intro r i v hv
    simp only [SessionRecord.skippedAhead, SessionRecord.passedOver, passOver] at hv
    split at hv
    · rename_i hid
      obtain ⟨hr, hlo, -⟩ := hid
      refine ⟨n, i.toNat, Nat.le_refl n, hr, (Int.toNat_of_nonneg (by omega)).symm, ?_⟩
      cases hv
      rw [messageKeyAt_chainKeyAt]
      congr 2
      omega
    · exact h.skipped r i v hv

theorem Covers.skippedAhead (h : Covers ep n s k i) (d : Nat) :
    Covers ep n (s.skippedAhead P ep n d) k i := by
  intro hpast
  by_cases hold : k < n ∨ (k = n ∧ i < s.receiveSequenceNumber)
  · exact passOver_isSome (h hold)
  · obtain ⟨rfl, hlo⟩ : k = n ∧ i < s.receiveSequenceNumber + d := by
      rcases hpast with hlt | ⟨rfl, hlo⟩
      · exact absurd (Or.inl hlt) hold
      · exact ⟨rfl, hlo⟩
    have hge : s.receiveSequenceNumber ≤ i := by
      simp only [true_and, not_or, not_lt] at hold
      exact hold.2
    simp only [SessionRecord.skippedAhead, SessionRecord.passedOver, passOver, true_and]
    rw [if_pos (by omega)]
    rfl

omit [DecidableEq S] in
/-- Using the head of the receiving chain keeps the session in step. -/
theorem Synced.headTaken (h : Synced P ep n s) (hn : n ≠ 0)
    (hlt : s.receiveSequenceNumber < (ep n).sent) (now : Nat) :
    Synced P ep n
      (s.headTaken P (chainKeyAt P (ep n).chainKey s.receiveSequenceNumber) now) where
  localKey := h.localKey
  remoteKey := h.remoteKey
  sent := h.sent
  previous := h.previous
  sending := h.sending
  receiving _ := by
    show some _ = some _
    rw [← chainKeyAt_succ]
    rfl
  notReceiving h0 := absurd h0 hn
  received := hlt
  skipped := h.skipped

omit [DecidableEq S] in
theorem Covers.headTaken (h : Covers ep n s k i)
    (hne : ¬(k = n ∧ i = s.receiveSequenceNumber)) (c : B) (now : Nat) :
    Covers ep n (s.headTaken P c now) k i := by
  intro hpast
  refine h ?_
  rcases hpast with hlt | ⟨hk, hi⟩
  · exact Or.inl hlt
  · have hi' : i < s.receiveSequenceNumber + 1 := hi
    exact Or.inr ⟨hk, by omega⟩

/-- Using a skipped key keeps the session in step. -/
theorem Synced.keyTaken (h : Synced P ep n s) (id : SkippedKeyId S) :
    Synced P ep n (s.keyTaken id) where
  localKey := h.localKey
  remoteKey := h.remoteKey
  sent := h.sent
  previous := h.previous
  sending := h.sending
  receiving := h.receiving
  notReceiving := h.notReceiving
  received := h.received
  skipped := by
    intro r i v hv
    by_cases hid : (r, i) = id
    · subst hid
      simp [SessionRecord.keyTaken] at hv
    · simp only [SessionRecord.keyTaken, Function.update_of_ne hid] at hv
      exact h.skipped r i v hv

theorem Covers.keyTaken (h : Covers ep n s k i) {id : SkippedKeyId S}
    (hne : ((ep k).keyPair.publicKeyHex, (i : Int)) ≠ id) : Covers ep n (s.keyTaken id) k i := by
  intro hpast
  show (Function.update s.skippedMessageKeys id none _).isSome
  rw [Function.update_of_ne hne]
  exact h hpast

omit [DecidableEq S] in
/-- The skipped-key id of a message names its epoch and position. -/
theorem SealedAt.skippedKeyId_eq (hm : SealedAt P ep k i plaintext m) (hP : P.Lawful)
    (hwf : (ep k).keyPair.WellFormed P) :
    m.skippedKeyId P = ((ep k).keyPair.publicKeyHex, (i : Int)) := by
  rw [EncryptedMessage.skippedKeyId, hm.key, hm.sequence, hwf.toLowerCase hP]

omit [DecidableEq S] in
/-- No key of an epoch after the session's position has been skipped yet. -/
theorem Synced.skipped_eq_none (h : Synced P ep n s) (hep : Ladder P ep top) (hn : n < k)
    (hk : k ≤ top) (j : Int) : s.skippedMessageKeys ((ep k).keyPair.publicKeyHex, j) = none := by
  cases hv : s.skippedMessageKeys ((ep k).keyPair.publicKeyHex, j) with
  | none => rfl
  | some v =>
      obtain ⟨k', j', hk', hr, -, -⟩ := h.skipped _ _ _ hv
      have hkk : k = k' := hep.distinct k hk k' (by omega) hr
      omega

omit [DecidableEq S] in
/-- A skipped key of a session in step is the message key of its position. -/
theorem Synced.skipped_eq (h : Synced P ep n s) (hep : Ladder P ep top) (hn : n ≤ top)
    (hk : k ≤ top) {v : S}
    (hv : s.skippedMessageKeys ((ep k).keyPair.publicKeyHex, (i : Int)) = some v) :
    v = P.bytesToHex (messageKeyAt P (ep k).chainKey i) := by
  obtain ⟨k', j, hk', hr, hi, hv⟩ := h.skipped _ _ _ hv
  have hkk : k = k' := hep.distinct k hk k' (hk'.trans hn) hr
  have hij : i = j := by omega
  rw [hv, hkk, hij]

/-- A session in step ratchets exactly on a message of an epoch other than its remote one. -/
theorem Synced.needsRatchet (h : Synced P ep n s) (hP : P.Lawful) (hep : Ladder P ep top)
    (hn : n ≤ top) (hk : k ≤ top) (hm : m.ephemeralPublicKeyHex = (ep k).keyPair.publicKeyHex) :
    needsRatchet P s m = true ↔ k ≠ n := by
  rw [Crypto.needsRatchet, h.remoteKey]
  simp only [hm, (hep.wellFormed n hn).toLowerCase hP, (hep.wellFormed k hk).toLowerCase hP]
  rw [decide_eq_true_eq]
  refine not_congr ⟨fun heq => (hep.distinct n hn k hk heq).symm, fun heq => by rw [heq]⟩

/-! ## One delivery -/

/-- The effect of one delivery on a session: the key of position `i` of epoch `k` is selected, the
session saved stands at position `n'`, and it covers every other position that `s` covered. -/
def Receives (P : Primitives B S) (ep ep' : Nat → Epoch B S) (n n' k i : Nat)
    (s : SessionRecord B S) (m : EncryptedMessage S) (secretKey : B) : Prop :=
  ∃ saved, Selects P s m secretKey (messageKeyAt P (ep k).chainKey i) saved ∧
    (∀ now, Synced P ep' n' (saved now)) ∧
    ∀ now k' i', k' ≠ 0 → k' ≠ n + 1 → i' < (ep k').sent → (k', i') ≠ (k, i) →
      Covers ep n s k' i' → Covers ep' n' (saved now) k' i'

/-- The head of the receiving chain, after the positions before it were passed over. -/
theorem Synced.receives_head (h : Synced P ep n s) (hP : P.Lawful)
    (hwf : (ep n).keyPair.WellFormed P) (hn : n ≠ 0) (hi : s.receiveSequenceNumber ≤ i)
    (hsealed : i < (ep n).sent) {s₀ : SessionRecord B S} {secretKey : B}
    (hfound : s₀.skippedMessageKeys (m.skippedKeyId P) = none)
    (hmove : HeaderMove P s₀ m secretKey
      (s.skippedAhead P ep n (i - s.receiveSequenceNumber))) :
    ∃ saved, Selects P s₀ m secretKey (messageKeyAt P (ep n).chainKey i) saved ∧
      (∀ now, Synced P ep n (saved now)) ∧
      ∀ now k' i', (k', i') ≠ (n, i) → Covers ep n s k' i' → Covers ep n (saved now) k' i' := by
  have hahead : Synced P ep n (s.skippedAhead P ep n (i - s.receiveSequenceNumber)) :=
    h.skippedAhead hn (by omega)
  have hrecv : (s.skippedAhead P ep n (i - s.receiveSequenceNumber)).receiveSequenceNumber = i := by
    show s.receiveSequenceNumber + (i - s.receiveSequenceNumber) = i
    omega
  have hchain := hahead.receiving hn
  rw [hrecv] at hchain
  refine ⟨_, .head hfound hmove hchain (hP.hexToBytes_bytesToHex _), ?_, ?_⟩
  · intro now
    have htaken := hahead.headTaken hn (by rw [hrecv]; exact hsealed) now
    rwa [hrecv] at htaken
  · intro now k' i' hne hcov
    refine (hcov.skippedAhead _).headTaken ?_ _ now
    rw [hrecv]
    rintro ⟨rfl, rfl⟩
    exact hne rfl

/-- A message of the current or an earlier epoch of the peer. -/
theorem Synced.receives_of_le (h : Synced P ep n s) (hP : P.Lawful) (hep : Ladder P ep top)
    (hn : n ≤ top) (hk : k ≤ n) (hk0 : k ≠ 0) (hm : SealedAt P ep k i plaintext m)
    (hcov : Covers ep n s k i) (hlimit : WithinSkipLimit P (some s) m) (secretKey : B) :
    Receives P ep ep n n k i s m secretKey := by
  have hwfk : (ep k).keyPair.WellFormed P := hep.wellFormed k (hk.trans hn)
  have hid := hm.skippedKeyId_eq hP hwfk
  cases hfound : s.skippedMessageKeys (m.skippedKeyId P) with
  | some v =>
      have hfound' := hfound
      rw [hid] at hfound'
      have hv := h.skipped_eq hep hn (hk.trans hn) hfound'
      have hkey : P.hexToBytes v = .ok (messageKeyAt P (ep k).chainKey i) := by
        rw [hv, hP.hexToBytes_bytesToHex]
      refine ⟨_, .skipped hfound hkey, fun _ => h.keyTaken _, ?_⟩
      intro now k' i' _ _ _ hne hcov' hpast
      refine hcov'.keyTaken ?_ hpast
      rw [hid]
      intro heq
      simp only [Prod.mk.injEq, Int.natCast_inj] at heq
      have hk' : k' ≤ n := by
        rcases hpast with hlt | ⟨hkn, -⟩
        · exact Nat.le_of_lt hlt
        · exact Nat.le_of_eq hkn
      have hkk : k' = k := hep.distinct k' (hk'.trans hn) k (hk.trans hn) heq.1
      exact hne (by rw [hkk, heq.2])
  | none =>
      -- a position moved past would be covered, so the message is at or ahead of the chain head
      have hahead : k = n ∧ s.receiveSequenceNumber ≤ i := by
        by_contra hcontra
        have hsome := hcov (by omega)
        rw [← hid, hfound] at hsome
        exact absurd hsome (by simp)
      obtain ⟨rfl, hi⟩ := hahead
      have hstay : Crypto.needsRatchet P s m = false := by
        rw [← Bool.not_eq_true, h.needsRatchet hP hep hn hn hm.key]
        simp
      have hlim : (i : Int) ≤ s.receiveSequenceNumber + maxSkipMessages := by
        simpa [WithinSkipLimit, hfound, hstay, hm.sequence] using hlimit
      have hmove : HeaderMove P s m secretKey
          (s.skippedAhead P ep k (i - s.receiveSequenceNumber)) := by
        refine .stay hstay ?_
        rw [hm.sequence]
        exact h.skipMessageKeys hP hwfk hk0 hlim
      obtain ⟨saved, hsel, hsync, hrest⟩ := h.receives_head hP hwfk hk0 hi hm.index hfound hmove
      exact ⟨saved, hsel, hsync, fun now k' i' _ _ _ hne => hrest now k' i' hne⟩

omit [DecidableEq S] in
/-- A fresh key pair opens an epoch after any other. -/
theorem exists_linked (hP : P.Lawful) {e : Epoch B S} (he : e.keyPair.WellFormed P) {secretKey : B}
    (hlen : P.length secretKey = 32) :
    ∃ e', e'.keyPair = keyPairOf P secretKey ∧ e'.sent = 0 ∧ Linked P e e' := by
  obtain ⟨dh, hdh⟩ := (keyPairOf_wellFormed P hlen).scalarMult_ok he hP
  exact ⟨{
    keyPair := keyPairOf P secretKey
    rootKey := (kdfRoot P e.rootKey dh).nextRootKey
    chainKey := (kdfRoot P e.rootKey dh).chainKey
    sent := 0 }, rfl, rfl, dh, hdh, rfl⟩

/-- Before a ratchet step the rest of the old chain is passed over: every message sealed in it is
then covered. -/
theorem Synced.skipped_before_ratchet (h : Synced P ep n s) (hP : P.Lawful)
    (hwf : (ep n).keyPair.WellFormed P)
    (hlimit : s.receiveChainKeyHex.isSome →
      ((ep n).sent : Int) ≤ s.receiveSequenceNumber + maxSkipMessages) :
    ∃ s₁, Crypto.skipMessageKeys P s ((ep n).sent : Nat) = .ok s₁ ∧ Synced P ep n s₁ ∧
      ∀ k' i', k' ≠ 0 → k' ≤ n → i' < (ep k').sent → Covers ep n s k' i' →
        (s₁.skippedMessageKeys ((ep k').keyPair.publicKeyHex, (i' : Int))).isSome := by
  by_cases hn : n = 0
  · exact ⟨s, skipMessageKeys_of_no_chain P (h.notReceiving hn) _, h, by omega⟩
  · have hlim := hlimit (by rw [h.receiving hn]; rfl)
    have hrecv := h.received
    refine ⟨_, h.skipMessageKeys hP hwf hn hlim, h.skippedAhead hn (by omega), ?_⟩
    intro k' i' _ hk' hi' hcov
    refine hcov.skippedAhead _ ?_
    by_cases hkn : k' = n
    · subst hkn
      have hrecv : i' < s.receiveSequenceNumber + ((ep k').sent - s.receiveSequenceNumber) := by
        omega
      exact Or.inr ⟨rfl, hrecv⟩
    · exact Or.inl (by omega)

/-- The ratchet step onto the next epoch of the peer. -/
theorem Synced.ratcheted (h : Synced P ep n s) (hP : P.Lawful) (hep : Ladder P ep (n + 2))
    (hopen : 0 < (ep (n + 1)).sent)
    (hm : m.ephemeralPublicKeyHex = (ep (n + 2)).keyPair.publicKeyHex) {secretKey : B}
    {e : Epoch B S} (he : e.keyPair = keyPairOf P secretKey) (hsent : e.sent = 0)
    (hlink : Linked P (ep (n + 2)) e) :
    ∃ dhReceive dhSend, RatchetInputs P s m.ephemeralPublicKeyHex secretKey (ep (n + 1)).rootKey
        (ep (n + 2)).keyPair.publicKey dhReceive dhSend ∧
      Synced P (Function.update ep (n + 3) e) (n + 2)
        (s.ratcheted P m.ephemeralPublicKeyHex (ep (n + 1)).rootKey dhReceive dhSend
          (keyPairOf P secretKey)) := by
  have hwf1 : (ep (n + 1)).keyPair.WellFormed P := hep.wellFormed (n + 1) (by omega)
  have hwf2 : (ep (n + 2)).keyPair.WellFormed P := hep.wellFormed (n + 2) (Nat.le_refl _)
  obtain ⟨dhReceive, hreceive, -, hkdf1⟩ := (hep.linked (n + 1) (by omega)).scalarMult hP hwf1 hwf2
  obtain ⟨dhSend, hsend, hkdf2⟩ := hlink
  -- the own epoch has been sealed in, so its root key is the current one
  have hroot : s.rootKeyHex = P.bytesToHex (ep (n + 1)).rootKey := by
    rcases h.sending with ⟨hroot, -⟩ | ⟨-, -, hnone⟩
    · exact hroot
    · omega
  have hold (j : Nat) (hj : j ≤ n + 2) : Function.update ep (n + 3) e j = ep j :=
    Function.update_of_ne (by omega) _ _
  have hnew : Function.update ep (n + 3) e (n + 2 + 1) = e := Function.update_self _ _ _
  refine ⟨dhReceive, dhSend,
    ⟨by rw [hroot, hP.hexToBytes_bytesToHex], by rw [hm, hwf2.hexToBytes hP],
      by rw [h.localKey, hreceive], by rw [← hsend, he]; rfl⟩, ?_⟩
  refine
    { localKey := ?localKey
      remoteKey := ?remoteKey
      sent := ?sent
      previous := ?previous
      sending := Or.inl ⟨?rootKey, ?chainKey⟩
      receiving := ?receiving
      notReceiving := ?notReceiving
      received := Nat.zero_le _
      skipped := ?skipped }
  case localKey =>
    rw [hnew, he]
    rfl
  case remoteKey =>
    rw [hold _ (Nat.le_refl _)]
    show some (P.toLowerCase _) = _
    rw [hm, hwf2.toLowerCase hP]
  case sent =>
    rw [hnew, hsent]
    rfl
  case previous =>
    rw [hold _ (by omega), show n + 2 - 1 = n + 1 by omega, ← h.sent]
    rfl
  case rootKey =>
    rw [hnew]
    simp only [SessionRecord.ratcheted, hkdf1, hkdf2]
  case chainKey =>
    rw [hnew, hsent]
    simp only [SessionRecord.ratcheted, hkdf1, hkdf2, chainKeyAt_zero]
  case receiving =>
    intro _
    rw [hold _ (Nat.le_refl _)]
    simp only [SessionRecord.ratcheted, hkdf1, chainKeyAt_zero]
  case notReceiving => omega
  case skipped =>
    intro r i' v hv
    obtain ⟨k', j, hk', hr, hi', hv⟩ := h.skipped r i' v hv
    exact ⟨k', j, by omega, by rw [hold k' (by omega), hr], hi', by rw [hold k' (by omega), hv]⟩

/-- A message of the next epoch of the peer. -/
theorem Synced.receives_ratchet (h : Synced P ep n s) (hP : P.Lawful) (hep : Ladder P ep (n + 2))
    (hopen : 0 < (ep (n + 1)).sent) (hm : SealedAt P ep (n + 2) i plaintext m)
    (hlimit : WithinSkipLimit P (some s) m) {secretKey : B} {e : Epoch B S}
    (he : e.keyPair = keyPairOf P secretKey) (hsent : e.sent = 0)
    (hlink : Linked P (ep (n + 2)) e) :
    Receives P ep (Function.update ep (n + 3) e) n (n + 2) (n + 2) i s m secretKey := by
  have hwf : (ep n).keyPair.WellFormed P := hep.wellFormed n (by omega)
  have hwf2 : (ep (n + 2)).keyPair.WellFormed P := hep.wellFormed (n + 2) (Nat.le_refl _)
  have hne : n + 2 ≠ n := by omega
  have hneeds : Crypto.needsRatchet P s m = true :=
    (h.needsRatchet hP hep (by omega) (Nat.le_refl _) hm.key).2 hne
  have hold (j : Nat) (hj : j ≤ n + 2) : Function.update ep (n + 3) e j = ep j :=
    Function.update_of_ne (by omega) _ _
  have hfound : s.skippedMessageKeys (m.skippedKeyId P) = none := by
    rw [hm.skippedKeyId_eq hP hwf2]
    exact h.skipped_eq_none hep (by omega) (Nat.le_refl _) i
  obtain ⟨hlim1, hlim2⟩ : (s.receiveChainKeyHex.isSome →
      ((ep n).sent : Int) ≤ s.receiveSequenceNumber + maxSkipMessages) ∧
      (i : Int) ≤ maxSkipMessages := by
    simpa [WithinSkipLimit, hfound, hneeds, hm.sequence, hm.previous] using hlimit
  -- first the rest of the old chain is passed over, then the ratchet moves, then the new chain
  obtain ⟨s₁, hskip, hs₁, hcov₁⟩ := h.skipped_before_ratchet hP hwf hlim1
  obtain ⟨dhReceive, dhSend, hin, hs₂⟩ := hs₁.ratcheted hP hep hopen hm.key he hsent hlink
  have hprev : m.previousChainLength = ((ep n).sent : Nat) := hm.previous
  have hlim2' : (i : Int) ≤ (s₁.ratcheted P m.ephemeralPublicKeyHex (ep (n + 1)).rootKey dhReceive
      dhSend (keyPairOf P secretKey)).receiveSequenceNumber + maxSkipMessages := by
    simpa [SessionRecord.ratcheted] using hlim2
  have hwf2' : (Function.update ep (n + 3) e (n + 2)).keyPair.WellFormed P := by
    rw [hold _ (Nat.le_refl _)]
    exact hwf2
  have hmove := HeaderMove.ratchet hneeds (hprev ▸ hskip) hin
    (hm.sequence ▸ hs₂.skipMessageKeys hP hwf2' (by omega) hlim2')
  have hsealed : i < (Function.update ep (n + 3) e (n + 2)).sent := by
    rw [hold _ (Nat.le_refl _)]
    exact hm.index
  obtain ⟨saved, hsel, hsync, hrest⟩ :=
    hs₂.receives_head hP hwf2' (by omega) (Nat.zero_le _) hsealed hfound hmove
  rw [hold _ (Nat.le_refl _)] at hsel
  refine ⟨saved, hsel, hsync, ?_⟩
  intro now k' i' hk'0 hk'1 hi' hpos hcov
  refine hrest now k' i' hpos ?_
  intro hpast
  have hkn : k' ≤ n := by
    rcases hpast with hlt | ⟨-, hlt⟩
    · omega
    · exact absurd hlt (Nat.not_lt_zero _)
  rw [hold k' (by omega)]
  exact hcov₁ k' i' hk'0 hkn hi' hcov

end TorE2EE.Crypto
