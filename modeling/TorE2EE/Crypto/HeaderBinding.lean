import TorE2EE.Crypto.UsedKeys

/-!
# What a message key says about its header

A chain is made with a Diffie-Hellman value, and that value belongs to two key pairs only
(`ChainWith.peer`). So a message key says with which key pair, and at which position, it was sealed.
`Bound` keeps for each chain and each stored key of a session the key pair of the session's own it
was made with and the remote key it is filed under.

A receiver opens a ciphertext under another header only when the header names the same ephemeral key
and the same position, or when a header below the next position, with no key stored for it, comes
with the message of that position (`changed_header_not_opened`). Such a message does open
(`lowered_number_opened`). Nothing ties a ciphertext to the `previousChainLength` of its header
(`headers_not_authenticated`).
-/

set_option autoImplicit false

namespace TorE2EE.Crypto

open TorE2EE.Foundation

variable {B S : Type}

/-- The chain `c` was made with the Diffie-Hellman value of the key drawn at `a` and the public key
`x`. -/
def ChainWith (P : Primitives B S) (E : Entropy B) (a : Nat) (x c : B) : Prop :=
  ∃ r dh, P.scalarMult (E.secretKey a) x = .ok dh ∧ c = (kdfRoot P r dh).chainKey

variable {P : Primitives B S} {E : Entropy B}

/-- Two sides that come to the same message key are at the same position, and the one has the public
key of the other. -/
theorem ChainWith.peer (hfree : P.FreeTerms) (hE : E.Fresh P) {a d : Nat} {x y c c' : B} {i j : Nat}
    (h : ChainWith P E a x c) (h' : ChainWith P E d y c')
    (heq : messageKeyAt P c i = messageKeyAt P c' j) (hne : a ≠ d) :
    x = P.scalarMultBase (E.secretKey d) ∧ i = j := by
  obtain ⟨r, dh, hmul, rfl⟩ := h
  obtain ⟨r', dh', hmul', rfl⟩ := h'
  obtain ⟨-, rfl, rfl⟩ := chainKeyAt_kdfRoot_inj hfree (hfree.messageKey_inj heq)
  refine ⟨?_, rfl⟩
  rcases hfree.scalarMult_inj hmul hmul' with ⟨hpub, -⟩ | ⟨hx, -⟩
  · exact absurd (hE.scalarMultBase_inj hpub) hne
  · exact hx

/-! ## Sessions -/

/-- `m` was sealed with a key pair drawn at one of `mine`, the one its header names, at the position
its header says. -/
def SealedBy (P : Primitives B S) (E : Entropy B) (mine : Nat → Prop) (m : EncryptedMessage S) :
    Prop :=
  ∃ d c x i, mine d ∧ m.ephemeralPublicKeyHex = drawnPublicKeyHex P E d ∧
    m.sequenceNumber = (i : Nat) ∧ ChainWith P E d x c ∧ SealedUnder P m (messageKeyAt P c i)

/-- The key pairs of `s` were drawn at `mine`. Its sending chain is made with its present key pair,
its receiving chain with the remote key it names, and each stored key with the one it is filed
under. -/
structure Bound (P : Primitives B S) (E : Entropy B) (mine : Nat → Prop) (s : SessionRecord B S) :
    Prop where
  sending : ∃ d, mine d ∧ s.localDhKeyPair = keyPairOf P (E.secretKey d) ∧
    ∀ hex, s.sendChainKeyHex = some hex → ∃ c x, ChainWith P E d x c ∧
      hex = P.bytesToHex (chainKeyAt P c s.sendSequenceNumber)
  unsent : s.sendChainKeyHex = none → s.sendSequenceNumber = 0
  receiving : ∀ hex, s.receiveChainKeyHex = some hex → ∃ a c x remoteHex, mine a ∧
    s.remoteDhPublicKeyHex = some remoteHex ∧ P.hexToBytes remoteHex = .ok x ∧
    ChainWith P E a x c ∧ hex = P.bytesToHex (chainKeyAt P c s.receiveSequenceNumber)
  skipped : ∀ id hex, s.skippedMessageKeys id = some hex → ∃ a c x, ∃ i : Nat, mine a ∧
    P.hexToBytes id.1 = .ok x ∧ id.2 = i ∧ ChainWith P E a x c ∧
    hex = P.bytesToHex (messageKeyAt P c i)

variable {mine mine' : Nat → Prop} {s s' : SessionRecord B S}

theorem SealedBy.mono {m : EncryptedMessage S} (h : SealedBy P E mine m)
    (hmine : ∀ d, mine d → mine' d) : SealedBy P E mine' m := by
  obtain ⟨d, c, x, i, hd, hrest⟩ := h
  exact ⟨d, c, x, i, hmine d hd, hrest⟩

theorem Bound.mono (h : Bound P E mine s) (hmine : ∀ d, mine d → mine' d) :
    Bound P E mine' s where
  sending := by
    obtain ⟨d, hd, hrest⟩ := h.sending
    exact ⟨d, hmine d hd, hrest⟩
  unsent := h.unsent
  receiving hex hhex := by
    obtain ⟨a, c, x, remoteHex, ha, hrest⟩ := h.receiving hex hhex
    exact ⟨a, c, x, remoteHex, hmine a ha, hrest⟩
  skipped id hex hfound := by
    obtain ⟨a, c, x, i, ha, hrest⟩ := h.skipped id hex hfound
    exact ⟨a, c, x, i, hmine a ha, hrest⟩

theorem bound_initiatedSession (bundle : PreKeyBundle S) {r x dh : B} {d : Nat} (hd : mine d)
    (hmul : P.scalarMult (E.secretKey d) x = .ok dh) (createdAt updatedAt : Nat) :
    Bound P E mine (initiatedSession P bundle (kdfRoot P r dh) (keyPairOf P (E.secretKey d))
      createdAt updatedAt) where
  sending := by
    refine ⟨d, hd, rfl, ?_⟩
    intro hex hhex
    cases hhex
    exact ⟨_, x, ⟨r, dh, hmul, rfl⟩, rfl⟩
  unsent h := by cases h
  receiving _ h := by cases h
  skipped _ _ h := by cases h

theorem bound_respondedSession (hP : P.Lawful) (k : S) {m : EncryptedMessage S} (r : B) {x dh : B}
    {a d : Nat} (ha : mine a) (hd : mine d) (hremote : P.hexToBytes m.ephemeralPublicKeyHex = .ok x)
    (hmul : P.scalarMult (E.secretKey a) x = .ok dh) (createdAt updatedAt : Nat) :
    Bound P E mine (respondedSession P k m (kdfRoot P r dh) (keyPairOf P (E.secretKey d))
      createdAt updatedAt) where
  sending := ⟨d, hd, rfl, fun _ h => by cases h⟩
  unsent _ := rfl
  receiving hex hhex := by
    cases hhex
    exact ⟨a, _, x, _, ha, rfl, (hP.hexToBytes_toLowerCase _ _).2 hremote, ⟨r, dh, hmul, rfl⟩, rfl⟩
  skipped _ _ h := by cases h

/-- Sealing a message, and the message sealed. -/
theorem Bound.sealedOnce (h : Bound P E mine s') (hP : P.Lawful) {chainHex : S}
    (hchain : ensureSendChain P s' = .ok (s, chainHex)) {ck : B}
    (hck : P.hexToBytes chainHex = .ok ck) (now : Nat) (identity : UserIdentity B S) (nonce : B)
    (plaintext : S) (context : Option InitialBundleContext) :
    Bound P E mine (s.sealedOnce P ck now) ∧
      SealedBy P E mine (sealedMessage P identity s ck nonce plaintext context) := by
  obtain ⟨d, hd, hlocal, hsend⟩ := h.sending
  -- the chain that is there when the message is sealed
  have hready : ∃ c x, ChainWith P E d x c ∧ ck = chainKeyAt P c s.sendSequenceNumber ∧
      s.localDhKeyPair = s'.localDhKeyPair ∧ s.sendSequenceNumber = s'.sendSequenceNumber ∧
      s.receiveChainKeyHex = s'.receiveChainKeyHex ∧
      s.receiveSequenceNumber = s'.receiveSequenceNumber ∧
      s.remoteDhPublicKeyHex = s'.remoteDhPublicKeyHex ∧
      s.skippedMessageKeys = s'.skippedMessageKeys := by
    rcases ensureSendChain_cases P hchain with
      ⟨hstored, rfl⟩ | ⟨remoteHex, rootKey, remoteDh, dhSend, hnone, -, -, -, hmul, rfl, rfl⟩
    · obtain ⟨c, x, hwith, rfl⟩ := hsend chainHex hstored
      rw [hP.hexToBytes_bytesToHex] at hck
      cases hck
      exact ⟨c, x, hwith, rfl, rfl, rfl, rfl, rfl, rfl, rfl⟩
    · rw [hP.hexToBytes_bytesToHex] at hck
      cases hck
      rw [hlocal] at hmul
      refine ⟨_, remoteDh, ⟨rootKey, dhSend, hmul, rfl⟩, ?_, rfl, rfl, rfl, rfl, rfl, rfl⟩
      show _ = chainKeyAt P _ s'.sendSequenceNumber
      rw [h.unsent hnone]
      rfl
  obtain ⟨c, x, hwith, rfl, hkeyPair, hcount, hrecv, hrecvCount, hremote, hskipped⟩ := hready
  refine
    ⟨{ sending := ⟨d, hd, hkeyPair.trans hlocal, ?chain⟩
       unsent := ?unsent
       receiving := ?receiving
       skipped := ?skipped }, d, c, x, s.sendSequenceNumber, hd, ?_, rfl, hwith, _, _, rfl⟩
  case chain =>
    intro hex hhex
    cases hhex
    refine ⟨c, x, hwith, ?_⟩
    show _ = P.bytesToHex (chainKeyAt P c (s.sendSequenceNumber + 1))
    rw [chainKeyAt_succ]
  case unsent =>
    intro hnone
    cases hnone
  case receiving =>
    intro hex hhex
    show ∃ a c x remoteHex, mine a ∧ s.remoteDhPublicKeyHex = some remoteHex ∧ _ ∧ _ ∧
      hex = P.bytesToHex (chainKeyAt P c s.receiveSequenceNumber)
    rw [hremote, hrecvCount]
    exact h.receiving hex (hrecv ▸ hhex)
  case skipped =>
    intro id hex hfound
    exact h.skipped id hex (hskipped ▸ hfound)
  · show s.localDhKeyPair.publicKeyHex = _
    rw [hkeyPair, hlocal]
    rfl

variable [DecidableEq S]

theorem Bound.skipMessageKeys (h : Bound P E mine s) (hP : P.Lawful) {upTo : Int}
    (hskip : Crypto.skipMessageKeys P s upTo = .ok s') : Bound P E mine s' := by
  rcases skipMessageKeys_cases P hskip with
    ⟨-, rfl⟩ | ⟨chainHex, ck, remote, hchain, hck, hremote, -, rfl⟩
  · exact h
  · obtain ⟨a, c, x, remoteHex, ha, hremote', hx, hwith, rfl⟩ := h.receiving chainHex hchain
    cases hremote.symm.trans hremote'
    rw [hP.hexToBytes_bytesToHex] at hck
    cases hck
    generalize (upTo - s.receiveSequenceNumber).toNat = count
    refine ⟨h.sending, h.unsent, ?_, ?_⟩
    · intro hex hhex
      cases hhex
      refine ⟨a, c, x, remote, ha, hremote, hx, hwith, ?_⟩
      rw [chainKeyAt_add]
      rfl
    · intro id hex hfound
      rcases stored_passedOver hfound with ⟨j, -, rfl, rfl⟩ | hold
      · refine ⟨a, c, x, s.receiveSequenceNumber + j, ha,
          (hP.hexToBytes_toLowerCase _ _).2 hx, rfl, hwith, ?_⟩
        rw [messageKeyAt_chainKeyAt]
      · exact h.skipped id hex hold

omit [DecidableEq S] in
theorem Bound.ratcheted (h : Bound P E mine s) (hP : P.Lawful) {newRemoteHex : S} {draw : Nat}
    (hdraw : mine draw) {rootKey remoteDh dhReceive dhSend : B}
    (hin : RatchetInputs P s newRemoteHex (E.secretKey draw) rootKey remoteDh dhReceive dhSend) :
    Bound P E mine (s.ratcheted P newRemoteHex rootKey dhReceive dhSend
      (keyPairOf P (E.secretKey draw))) := by
  obtain ⟨d, hd, hlocal, -⟩ := h.sending
  have hreceive := hin.receive
  rw [hlocal] at hreceive
  refine ⟨⟨draw, hdraw, rfl, ?_⟩, ?_, ?_, h.skipped⟩
  · intro hex hhex
    cases hhex
    exact ⟨_, remoteDh, ⟨_, dhSend, hin.send, rfl⟩, rfl⟩
  · intro hnone
    cases hnone
  · intro hex hhex
    cases hhex
    exact ⟨d, _, remoteDh, _, hd, rfl, (hP.hexToBytes_toLowerCase _ _).2 hin.remote,
      ⟨rootKey, dhReceive, hreceive, rfl⟩, rfl⟩

theorem Bound.headerMove (h : Bound P E mine s) (hP : P.Lawful) {m : EncryptedMessage S}
    {draw : Nat} (hdraw : mine draw) (hmove : HeaderMove P s m (E.secretKey draw) s') :
    Bound P E mine s' := by
  cases hmove with
  | stay _ hskip => exact h.skipMessageKeys hP hskip
  | ratchet _ hskip hin hskip' =>
      exact ((h.skipMessageKeys hP hskip).ratcheted hP hdraw hin).skipMessageKeys hP hskip'

omit [DecidableEq S] in
theorem Bound.headTaken (h : Bound P E mine s) (hP : P.Lawful) {chainHex : S} {ck : B}
    (hchain : s.receiveChainKeyHex = some chainHex) (hck : P.hexToBytes chainHex = .ok ck)
    (now : Nat) : Bound P E mine (s.headTaken P ck now) := by
  obtain ⟨a, c, x, remoteHex, ha, hremote, hx, hwith, rfl⟩ := h.receiving chainHex hchain
  rw [hP.hexToBytes_bytesToHex] at hck
  cases hck
  refine ⟨h.sending, h.unsent, ?_, h.skipped⟩
  intro hex hhex
  cases hhex
  refine ⟨a, c, x, remoteHex, ha, hremote, hx, hwith, ?_⟩
  rw [← chainKeyAt_succ]
  rfl

theorem Bound.keyTaken (h : Bound P E mine s) (id : SkippedKeyId S) :
    Bound P E mine (s.keyTaken id) :=
  ⟨h.sending, h.unsent, h.receiving, fun id' hex hfound =>
    h.skipped id' hex (stored_keyTaken hfound).2⟩

theorem Bound.selects (h : Bound P E mine s) (hP : P.Lawful) {m : EncryptedMessage S} {draw : Nat}
    {key : B} {saved : Nat → SessionRecord B S}
    (hdraw : s.skippedMessageKeys (m.skippedKeyId P) = none → mine draw)
    (hsel : Selects P s m (E.secretKey draw) key saved) (now : Nat) :
    Bound P E mine (saved now) := by
  cases hsel with
  | skipped _ _ => exact h.keyTaken _
  | head hnone hmove hchain hc =>
      exact (h.headerMove hP (hdraw hnone) hmove).headTaken hP hchain hc now

/-! ## The key of a changed header -/

/-- The position after the ones passed in the chain the header of `m` names: a chain that is new to
the session begins at `0`. -/
def nextPosition (P : Primitives B S) (s : Option (SessionRecord B S)) (m : EncryptedMessage S) :
    Nat :=
  match s with
  | some s => if needsRatchet P s m then 0 else s.receiveSequenceNumber
  | none => 0

/-- `decrypt` reads `m` with the head of the chain its header names, though the header names a
position below it: the position is passed, and no key is stored for it. -/
structure ReadAtHead (P : Primitives B S) (s : Option (SessionRecord B S))
    (m : EncryptedMessage S) : Prop where
  passed : m.sequenceNumber < nextPosition P s m
  noKey : ∀ session, s = some session → session.skippedMessageKeys (m.skippedKeyId P) = none

/-- A session that has, for the header of `m'`, the key a message was sealed under by the peer: the
header names the key pair of the message and its place, or `m'` is read at the head of the chain and
the message is the one of that place. -/
theorem Bound.keyFor (h : Bound P E mine s) (hP : P.Lawful) (hfree : P.FreeTerms) (hE : E.Fresh P)
    {m' : EncryptedMessage S} {c x : B} {d i : Nat} (hwith : ChainWith P E d x c) (hd : ¬ mine d)
    (hkey : KeyFor P s m' (messageKeyAt P c i)) :
    P.hexToBytes m'.ephemeralPublicKeyHex = .ok (P.scalarMultBase (E.secretKey d)) ∧
      (ReadAtHead P (some s) m' ∧ i = nextPosition P (some s) m' ∨ m'.sequenceNumber = i) := by
  have hother {a : Nat} (ha : mine a) : a ≠ d := by
    rintro rfl
    exact hd ha
  -- the key is named first: each place it may come from gives its own equation for it
  generalize hk : messageKeyAt P c i = key at hkey
  cases hkey with
  | skipped hfound hdecode =>
      obtain ⟨a, c', y, j, ha, hy, hj, hwith', rfl⟩ := h.skipped _ _ hfound
      rw [hP.hexToBytes_bytesToHex] at hdecode
      cases hdecode
      obtain ⟨rfl, rfl⟩ := hwith'.peer hfree hE hwith hk.symm (hother ha)
      exact ⟨(hP.hexToBytes_toLowerCase _ _).1 hy, Or.inr hj⟩
  | chain hnone hstay hchain hc hlimit =>
      obtain ⟨a, c', y, remoteHex, ha, hremote, hy, hwith', rfl⟩ := h.receiving _ hchain
      rw [hP.hexToBytes_bytesToHex] at hc
      cases hc
      rw [messageKeyAt_chainKeyAt] at hk
      obtain ⟨rfl, rfl⟩ := hwith'.peer hfree hE hwith hk.symm (hother ha)
      -- staying on the chain compares the two keys in lower case only
      have hsame : P.toLowerCase remoteHex = P.toLowerCase m'.ephemeralPublicKeyHex := by
        simpa [needsRatchet, hremote] using hstay
      refine ⟨?_, ?_⟩
      · rw [← hP.hexToBytes_toLowerCase, ← hsame, hP.hexToBytes_toLowerCase]
        exact hy
      · have hnext : nextPosition P (some s) m' = s.receiveSequenceNumber := by
          simp [nextPosition, hstay]
        by_cases hpassed : m'.sequenceNumber < s.receiveSequenceNumber
        · refine Or.inl ⟨⟨by rw [hnext]; exact hpassed, ?_⟩, by rw [hnext]; omega⟩
          rintro _ ⟨⟩
          exact hnone
        · exact Or.inr (by omega)
  | ratchet hnone hneeds hable hroot hremote hreceive hlimit =>
      obtain ⟨a, ha, hlocal, -⟩ := h.sending
      rw [hlocal] at hreceive
      obtain ⟨rfl, rfl⟩ := ChainWith.peer hfree hE ⟨_, _, hreceive, rfl⟩ hwith hk.symm (hother ha)
      have hnext : nextPosition P (some s) m' = 0 := by simp [nextPosition, hneeds]
      refine ⟨hremote, ?_⟩
      by_cases hpassed : m'.sequenceNumber < 0
      · refine Or.inl ⟨⟨by rw [hnext]; exact hpassed, ?_⟩, by rw [hnext]; omega⟩
        rintro _ ⟨⟩
        exact hnone
      · exact Or.inr (by omega)

/-! ## Calls -/

/-- The signed prekeys of `st` were drawn at `mine`, and so were the keys of its session with `k`. -/
structure OwnKeys (P : Primitives B S) (E : Entropy B) (mine : Nat → Prop) (k : S)
    (st : SignalStore B S) : Prop where
  signedPreKeys : ∀ spk ∈ st.signedPreKeys, ∃ d, mine d ∧ spk.keyPair = keyPairOf P (E.secretKey d)
  session : ∀ s, st.getSession P k = some s → Bound P E mine s

variable {k : S} {st : SignalStore B S} {h h' : Host B S}

omit [DecidableEq S] in
theorem OwnKeys.mono (ho : OwnKeys P E mine k st) (hmine : ∀ d, mine d → mine' d) :
    OwnKeys P E mine' k st where
  signedPreKeys spk hmem := by
    obtain ⟨d, hd, hkey⟩ := ho.signedPreKeys spk hmem
    exact ⟨d, hmine d hd, hkey⟩
  session s hs := (ho.session s hs).mono hmine

omit [DecidableEq S] in
theorem OwnKeys.congr {k' : S} {st' : SignalStore B S} (ho : OwnKeys P E mine k st)
    (hspk : st'.signedPreKeys = st.signedPreKeys)
    (hsession : st'.getSession P k' = st.getSession P k) : OwnKeys P E mine k' st' where
  signedPreKeys := by
    rw [hspk]
    exact ho.signedPreKeys
  session := by
    rw [hsession]
    exact ho.session

theorem OwnKeys.saveSession (ho : OwnKeys P E mine k st) (hs : Bound P E mine s) :
    OwnKeys P E mine k (st.saveSession P k s) where
  signedPreKeys := ho.signedPreKeys
  session s' hs' := by
    rw [SignalStore.getSession_saveSession_self] at hs'
    cases hs'
    exact hs

/-- The draws from `draws` to `draws'` are `mine`, too. -/
def Extends (mine mine' : Nat → Prop) (draws draws' : Nat) : Prop :=
  (∀ d, mine d → mine' d) ∧ ∀ d, draws ≤ d → d < draws' → mine' d

omit [DecidableEq S] in
theorem OwnKeys.withBundle (ho : OwnKeys P E mine k st) (signatureHex : S) {d : Nat} (count : Nat)
    (hmine : ∀ d, mine d → mine' d) (hd : mine' d) :
    OwnKeys P E mine' k (st.withBundle P E signatureHex d count) where
  signedPreKeys spk hspk := by
    simp only [SignalStore.withBundle, SignalStore.signedPreKeys_withOneTimePreKeys,
      SignalStore.saveSignedPreKey] at hspk
    rcases Rows.mem_of_mem_upsert SignedPreKey.keyId hspk with rfl | hold
    · exact ⟨d, hd, rfl⟩
    · exact (ho.mono hmine).signedPreKeys spk hold
  session s hs := by
    rw [SignalStore.getSession_withBundle] at hs
    exact (ho.mono hmine).session s hs

theorem OwnKeys.initiateSession (ho : OwnKeys P E mine k h.store) {bundle : PreKeyBundle S}
    {r : Except (EngineError S) (SessionRecord B S)}
    (hrun : (Crypto.initiateSession P k bundle).run P E h = (r, h'))
    (hext : Extends mine mine' h.draws h'.draws) : OwnKeys P E mine' k h'.store := by
  rcases run_initiateSession_cases P E k bundle h with
    ⟨e, h₁, hfail, hstore, -⟩ | ⟨dhs, initialDh, hin⟩
  · rw [hfail] at hrun
    cases hrun
    rw [hstore]
    exact ho.mono hext.1
  · rw [run_initiateSession_of_inputs hin] at hrun
    cases hrun
    obtain ⟨ikB, spkB, -, -, -, hmul⟩ := hin.keys
    have hdrawn : mine' h.draws := hext.2 _ (Nat.le_refl _) (by show h.draws < h.draws + 3; omega)
    exact (ho.mono hext.1).saveSession (bound_initiatedSession bundle hdrawn hmul _ _)

/-- `encrypt` keeps the keys, and seals with the caller's own. -/
theorem OwnKeys.encrypt (ho : OwnKeys P E mine k h.store) (hP : P.Lawful) {plaintext : S}
    {context : Option InitialBundleContext} {r : Except (EngineError S) (EncryptedMessage S)}
    (hrun : (Crypto.encrypt P k plaintext context).run P E h = (r, h')) :
    OwnKeys P E mine k h'.store ∧ ∀ m, r = .ok m → SealedBy P E mine m := by
  rcases run_encrypt_cases P E k plaintext context h with
    ⟨e, hfail⟩ | ⟨stored, s, chainHex, c, hstored, hchain, hc, hok⟩
  · rw [hfail] at hrun
    cases hrun
    refine ⟨ho, ?_⟩
    intro m hm
    cases hm
  · rw [hok] at hrun
    cases hrun
    obtain ⟨hbound, hsealed⟩ := (ho.session stored hstored).sealedOnce hP hchain hc (E.now h.draws)
      h.store.identity (E.randomBytes (h.draws + 1) 24) plaintext context
    refine ⟨ho.saveSession hbound, ?_⟩
    intro m hm
    cases hm
    exact hsealed

theorem OwnKeys.decryptInSession (ho : OwnKeys P E mine k h.store) (hP : P.Lawful)
    (hs : h.store.getSession P k = some s) {m : EncryptedMessage S} {r : Except (EngineError S) S}
    (hrun : (Crypto.decryptInSession P k m s).run P E h = (r, h'))
    (hext : Extends mine mine' h.draws h'.draws) : OwnKeys P E mine' k h'.store := by
  rcases run_decryptInSession_cases P E k m s h with
    ⟨e, h₁, hfail, hstore, -⟩ | ⟨key, saved, hsel⟩
  · rw [hfail] at hrun
    cases hrun
    rw [hstore]
    exact ho.mono hext.1
  · obtain ⟨now, draws, hok, -, hdraws⟩ := run_decryptInSession_of_selects (k := k) hsel
    rw [hok] at hrun
    cases hrun
    have hdrawn (hnone : s.skippedMessageKeys (m.skippedKeyId P) = none) : mine' h.draws := by
      apply hext.2 _ (Nat.le_refl _)
      exact Nat.lt_of_le_of_lt (Nat.le_add_right _ _) (hdraws hnone)
    exact (ho.mono hext.1).saveSession
      (((ho.session s hs).mono hext.1).selects hP hdrawn hsel now)

theorem OwnKeys.decrypt (ho : OwnKeys P E mine k h.store) (hP : P.Lawful) {m : EncryptedMessage S}
    {r : Except (EngineError S) S} (hrun : (Crypto.decrypt P k m).run P E h = (r, h'))
    (hext : Extends mine mine' h.draws h'.draws) : OwnKeys P E mine' k h'.store := by
  cases hs : h.store.getSession P k with
  | some s =>
      rw [run_decrypt_of_session P E hs] at hrun
      exact ho.decryptInSession hP hs hrun hext
  | none =>
      rcases run_initiateBobSession_cases P E k m h with
        ⟨e, hfail, -⟩ | ⟨e, ikA, ekA, spk, hfail, -⟩ | ⟨dhs, initialDh, hin⟩
      · rw [run_decrypt_of_refused hs hfail] at hrun
        cases hrun
        exact ho.mono hext.1
      · rw [run_decrypt_of_refused hs hfail] at hrun
        cases hrun
        exact (ho.mono hext.1).congr (by simp) (by simp)
      · rw [run_decrypt_of_responded hs (run_initiateBobSession_of_inputs (E := E) (k := k) hin)]
          at hrun
        have hlater : h.draws + 3 ≤ h'.draws := (callFrame_decryptInSession hrun).draws
        have hown := ho.mono hext.1
        obtain ⟨ikA, ekA, spk, remoteDh, hcontact, -, hremote, hmul⟩ := hin.contact
        obtain ⟨a, ha, hkey⟩ := hown.signedPreKeys spk (List.argmax_mem hcontact.signedPreKey)
        rw [hkey] at hmul
        -- the first contact takes the one-time prekey, saves a session, and decrypts in it
        have htaken : OwnKeys P E mine' k (h.store.withoutNamed m.oneTimePreKeyId) :=
          hown.congr (by simp) (by simp)
        have hstart := htaken.saveSession (bound_respondedSession hP k (masterSecret P dhs) ha
            (hext.2 h.draws (Nat.le_refl _) (by omega)) hremote hmul (E.now (h.draws + 1))
            (E.now (h.draws + 2)))
        have hstays : Extends mine' mine' (h.draws + 3) h'.draws := by
          refine ⟨fun _ => id, ?_⟩
          intro d hd hd'
          exact hext.2 d (Nat.le_trans (Nat.le_add_right _ 3) hd) hd'
        exact hstart.decryptInSession hP (SignalStore.getSession_saveSession_self P _ _ _) hrun
          hstays

/-! ## Runs of two parties -/

/-- The draws up to `draws` that belong to `p`. -/
def DrawnBy (owner : Nat → Party) (draws : Nat) (p : Party) (d : Nat) : Prop :=
  owner d = p ∧ d < draws

namespace Exchange

variable (P E) in
/-- Each party's keys are draws of its own, and it sealed its messages with them. -/
structure Owned (owner : Nat → Party) (x : Exchange B S) (p : Party) : Prop where
  keys : OwnKeys P E (DrawnBy owner x.world.draws p) (x.world.identityKeyHex p.peer)
    (x.world.store p)
  sent : ∀ f ∈ x.world.flights, f.sender = p →
    SealedBy P E (DrawnBy owner x.world.draws p) f.message

variable {x : Exchange B S} {owner owner' : Nat → Party} {p : Party}

omit [DecidableEq S] in
theorem Unused.owned (hx : x.Unused P) (owner : Nat → Party) (p : Party) :
    x.Owned P E owner p where
  keys := by
    have hsession : (x.world.store p).getSession P (x.world.identityKeyHex p.peer) = none :=
      hx.sessions p
    exact ⟨by simp [hx.signedPreKeys p], by simp [hsession]⟩
  sent f hf := by
    rw [hx.flights] at hf
    cases hf

omit [DecidableEq S] in
/-- A step of `p` keeps what the other party owns. -/
theorem Owned.of_frame {x' : Exchange B S} (hx : x.Owned P E owner p.peer)
    (hframe : StepFrame P E p x x')
    (howner : ∀ d, DrawnBy owner x.world.draws p.peer d → DrawnBy owner' x'.world.draws p.peer d) :
    x'.Owned P E owner' p.peer where
  keys := by
    have hkeys := hx.keys
    rw [Party.peer_peer] at hkeys ⊢
    rw [World.identityKeyHex, hframe.identity, hframe.peer]
    exact hkeys.mono howner
  sent f hf hsender := by
    rcases hframe.flights f hf with hold | hnew
    · exact (hx.sent f hold hsender).mono howner
    · exact absurd (hsender.symm.trans hnew) (Party.peer_ne p)

/-- A step of `p` keeps what `p` owns, with the keys drawn in it. -/
theorem Owned.of_caller (hx : x.Owned P E owner p) (hsound : x.Sound P E) (hP : P.Lawful)
    {a : ExchangeStep S} (ha : a.caller = p)
    (hext : Extends (DrawnBy owner x.world.draws p)
      (DrawnBy owner' (x.step P E a).world.draws p) x.world.draws (x.step P E a).world.draws) :
    (x.step P E a).Owned P E owner' p := by
  have hframe := stepFrame_step (P := P) (E := E) x a
  rw [ha] at hframe
  have hkey : (x.step P E a).world.identityKeyHex p.peer = x.world.identityKeyHex p.peer := by
    rw [World.identityKeyHex, hframe.peer]
    rfl
  have hsent : ∀ f ∈ x.world.flights, f.sender = p →
      SealedBy P E (DrawnBy owner' (x.step P E a).world.draws p) f.message := fun f hf hsender =>
    (hx.sent f hf hsender).mono hext.1
  have hkeys : OwnKeys P E (DrawnBy owner x.world.draws p) (x.world.identityKeyHex p.peer)
    (x.world.host p).store := hx.keys
  -- the identity keys stay, so the store and the messages sent are all that is left
  suffices hnew : OwnKeys P E (DrawnBy owner' (x.step P E a).world.draws p)
      (x.world.identityKeyHex p.peer) ((x.step P E a).world.store p) ∧
      ∀ f ∈ (x.step P E a).world.flights, f.sender = p →
        SealedBy P E (DrawnBy owner' (x.step P E a).world.draws p) f.message by
    exact ⟨hkey ▸ hnew.1, hnew.2⟩
  cases a with
  | generate q count =>
      obtain rfl : q = p := ha
      rcases run_generatePreKeyBundle_cases P E count (x.world.host q) with
        ⟨e, hfail⟩ | ⟨signatureHex, -, hok⟩
      · simp only [step, World.generate, x.world.call_of_run q P E hfail,
          World.store_withHost_self] at hext hsent ⊢
        exact ⟨hkeys.mono hext.1, hsent⟩
      · simp only [step, World.generate, x.world.call_of_run q P E hok,
          World.store_withHost_self] at hext hsent ⊢
        refine ⟨hkeys.withBundle signatureHex count hext.1 (hext.2 _ (Nat.le_refl _) ?_), hsent⟩
        show x.world.draws < x.world.draws + 3 + 2 * count
        omega
  | initiate q bundle =>
      obtain rfl : q = p := ha
      by_cases hmem : bundle ∈ x.bundles q.peer
      · obtain ⟨r, h', hrun⟩ : ∃ r h', (initiateSession P bundle.identityKeyHex bundle).run P E
          (x.world.host q) = (r, h') := ⟨_, _, rfl⟩
        simp only [step, if_pos hmem, World.initiate, x.world.call_of_run q P E hrun,
          World.store_withHost_self] at hext hsent ⊢
        rw [hsound.identityKeys q.peer bundle hmem] at hrun
        exact ⟨hkeys.initiateSession hrun hext, hsent⟩
      · simp only [step, if_neg hmem] at hext hsent ⊢
        exact ⟨hkeys.mono hext.1, hsent⟩
  | encrypt q plaintext context =>
      obtain rfl : q = p := ha
      obtain ⟨r, h', hrun⟩ : ∃ r h', (Crypto.encrypt P (x.world.identityKeyHex q.peer) plaintext
        context).run P E (x.world.host q) = (r, h') := ⟨_, _, rfl⟩
      obtain ⟨hown, hsealed⟩ := hkeys.encrypt hP hrun
      cases r with
      | error e =>
          simp only [step, World.send, World.encryptTo, x.world.call_of_run q P E hrun,
            World.store_withHost_self] at hext hsent ⊢
          exact ⟨hown.mono hext.1, hsent⟩
      | ok m =>
          simp only [step, World.send, World.encryptTo, x.world.call_of_run q P E hrun,
            World.launch, World.store_withHost_self] at hext hsent ⊢
          refine ⟨hown.mono hext.1, ?_⟩
          intro f hf hsender
          rcases List.mem_append.1 hf with hold | hlaunched
          · exact hsent f hold hsender
          · rw [List.mem_singleton] at hlaunched
            subst hlaunched
            exact (hsealed m rfl).mono hext.1
  | decrypt q k m =>
      obtain rfl : q = p := ha
      obtain ⟨r, h', hrun⟩ : ∃ r h', (Crypto.decrypt P k m).run P E (x.world.host q) = (r, h') :=
        ⟨_, _, rfl⟩
      have hcall := callFrame_decrypt hrun
      by_cases hsame : P.toLowerCase (x.world.identityKeyHex q.peer) = P.toLowerCase k
      · simp only [step, if_pos hsame, x.world.call_of_run q P E hrun,
          World.store_withHost_self] at hext hsent ⊢
        have hsession {st : SignalStore B S} :
            st.getSession P k = st.getSession P (x.world.identityKeyHex q.peer) := by
          rw [SignalStore.getSession, ← hsame, SignalStore.getSession]
        exact ⟨((hkeys.congr rfl hsession).decrypt hP hrun hext).congr rfl hsession.symm, hsent⟩
      · simp only [step, if_neg hsame, x.world.call_of_run q P E hrun,
          World.store_withHost_self] at hext hsent ⊢
        exact ⟨(hkeys.mono hext.1).congr hcall.signedPreKeys (hcall.sessions _ hsame), hsent⟩

/-- Every step keeps what the parties own: its draws are the caller's. -/
theorem owned_step (hx : ∀ q, x.Owned P E owner q) (hsound : x.Sound P E) (hP : P.Lawful)
    (a : ExchangeStep S) : ∃ owner', ∀ q, (x.step P E a).Owned P E owner' q := by
  have hframe := stepFrame_step (P := P) (E := E) x a
  refine ⟨fun d => if d < x.world.draws then owner d else a.caller, ?_⟩
  have hkept {q : Party} {d : Nat} (hd : DrawnBy owner x.world.draws q d) :
      DrawnBy (fun d => if d < x.world.draws then owner d else a.caller)
        (x.step P E a).world.draws q d := by
    refine ⟨?_, Nat.lt_of_lt_of_le hd.2 hframe.draws⟩
    simp only [if_pos hd.2]
    exact hd.1
  intro q
  by_cases hq : q = a.caller
  · subst hq
    refine (hx a.caller).of_caller hsound hP rfl ⟨fun d => hkept, ?_⟩
    intro d hlow hhigh
    refine ⟨?_, hhigh⟩
    simp only [if_neg (Nat.not_lt.2 hlow)]
  · cases Party.eq_peer_of_ne hq
    exact (hx _).of_frame hframe fun d => hkept

theorem owned_run (hx : ∀ q, x.Owned P E owner q) (hsound : x.Sound P E) (hP : P.Lawful)
    (hfree : P.FreeTerms) (hE : E.Fresh P) (steps : List (ExchangeStep S)) :
    ∃ owner', ∀ q, (x.run P E steps).Owned P E owner' q := by
  induction steps generalizing x owner with
  | nil => exact ⟨owner, hx⟩
  | cons a steps ih =>
      obtain ⟨owner', hstep⟩ := owned_step hx hsound hP a
      exact ih hstep (hsound.step hP hfree hE a)

end Exchange

/-! ## Changed headers -/

/-- The case left out: the message of the next position opens under every sequence number below it
for which no key is stored. -/
theorem lowered_number_opened {P : Primitives B S} {E : Entropy B} (hP : P.Lawful) (hE : E.Fresh P)
    {w : World B S} {p : Party} {m : EncryptedMessage S} {t : S} {lower : Int}
    (hok : (w.decryptAt p P E m).1 = .ok t)
    (hnext : m.sequenceNumber = nextPosition P (w.session p P) m)
    (hnew : ∀ s, w.session p P = some s → s.skippedMessageKeys (m.skippedKeyId P) = none)
    (hread : ReadAtHead P (w.session p P) { m with sequenceNumber := lower }) :
    (w.decryptAt p P E { m with sequenceNumber := lower }).1 = .ok t := by
  have hpassed : lower < nextPosition P (w.session p P) m := hread.passed
  apply (decrypt_ok_iff hP hE).2
  have hdecrypts := (decrypt_ok_iff hP hE).1 hok
  rw [DecryptsTo] at hdecrypts ⊢
  cases hs : w.session p P with
  | none =>
      have hs' : (w.host p).store.getSession P (w.identityKeyHex p.peer) = none := hs
      rw [hs'] at hdecrypts ⊢
      obtain ⟨dhAll, initialDh, hin, -, hopen⟩ := hdecrypts
      obtain ⟨ikA, ekA, spk, remoteDh, hcontact, hrest⟩ := hin.contact
      rw [hs] at hnext hpassed
      refine ⟨dhAll, initialDh, ⟨ikA, ekA, spk, remoteDh, ⟨hcontact.identityKey,
        hcontact.ephemeralKey, hcontact.signedPreKey⟩, hrest⟩, ?_, ?_⟩
      · show lower ≤ _
        simp only [nextPosition] at hpassed
        omega
      · have hzero : lower.toNat = m.sequenceNumber.toNat := by
          simp only [nextPosition] at hnext hpassed
          omega
        show decryptWithKey P m (messageKeyAt P _ lower.toNat) = _
        rw [hzero]
        exact hopen
  | some s =>
      have hs' : (w.host p).store.getSession P (w.identityKeyHex p.peer) = some s := hs
      rw [hs'] at hdecrypts ⊢
      obtain ⟨key, hkey, hopen⟩ := hdecrypts
      have hnone := hread.noKey s hs
      rw [hs] at hnext hpassed
      refine ⟨key, ?_, hopen⟩
      cases hkey with
      | skipped hfound _ =>
          rw [hnew s hs] at hfound
          cases hfound
      | @chain chainHex c _ hstay hchain hc hlimit =>
          -- both numbers are read at the head
          simp only [nextPosition, hstay, Bool.false_eq_true, if_false] at hnext hpassed
          have hhead : (m.sequenceNumber - s.receiveSequenceNumber).toNat =
              (lower - s.receiveSequenceNumber).toNat := by omega
          rw [hhead]
          exact .chain hnone hstay hchain hc (by show lower ≤ _; omega)
      | @ratchet rootKey remoteDh dhReceive _ hneeds hable hroot hremote hreceive _ =>
          simp only [nextPosition, hneeds, if_true] at hnext hpassed
          have hhead : m.sequenceNumber.toNat = lower.toNat := by omega
          rw [hhead]
          exact .ratchet hnone hneeds hable hroot hremote hreceive (by show lower ≤ _; omega)

/-! ## A first message with a changed header -/

open TorE2EE.Crypto.Sym

/-- `alice` sends her first message to `bob`. -/
def sentHello : List (ExchangeStep Sym) :=
  [.generate .bob 1, .initiate .alice (symbolicBundle symbolicEntropy 1),
    .encrypt .alice (text "hello") none]

theorem sentHello_flights : (⟨.alice, text "hello", symbolicHello⟩ : Flight Sym) ∈
    (symbolicExchange.run symbolic symbolicEntropy sentHello).world.flights := by
  decide

/-- The message with another sequence number. -/
def movedHello : EncryptedMessage Sym := { symbolicHello with sequenceNumber := 1 }

end TorE2EE.Crypto
