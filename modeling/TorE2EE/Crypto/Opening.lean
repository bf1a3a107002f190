import TorE2EE.Crypto.InSync

/-!
# Opening a conversation

From `initiateSession` on a bundle to the first message the responder takes. `Initiated` is the
initiator's side: epoch `0` is the bundle's signed prekey with the X3DH master secret as root key,
epoch `1` the initiator's ephemeral key. `OpeningMessage` is a message sealed in epoch `1`. When the
responder's store still has the keys of the bundle, any such message starts the responder's session
in step with the initiator's (`Initiated.responderInputs`, `Opening.contact`).
-/

set_option autoImplicit false

namespace TorE2EE.Crypto

open TorE2EE.Foundation

variable {B S : Type}

/-- Epochs `0` and `1` are the ones of a session initiated on `bundle` by the owner of `ikA`. -/
structure Initiated (P : Primitives B S) (ikA : Curve25519KeyPair B S) (bundle : PreKeyBundle S)
    (ep : Nat → Epoch B S) : Prop where
  identity : ikA.WellFormed P
  ladder : Ladder P ep 1
  signedPreKey : bundle.signedPreKey.publicKeyHex = (ep 0).keyPair.publicKeyHex
  root : ∃ ikB dhAll, P.hexToBytes bundle.identityKeyHex = .ok ikB ∧
    initiatorDhs P ikA (ep 1).keyPair ikB (ep 0).keyPair.publicKey bundle.oneTimePreKey =
      .ok dhAll ∧ (ep 0).rootKey = masterSecret P dhAll

/-- A message the initiator sealed before it had an answer. -/
structure OpeningMessage (P : Primitives B S) (ikA : Curve25519KeyPair B S) (ep : Nat → Epoch B S)
    (i : Nat) (plaintext : S) (m : EncryptedMessage S) : Prop where
  sealedAt : SealedAt P ep 1 i plaintext m
  identityKey : m.initialIdentityKeyHex = some ikA.publicKeyHex
  ephemeralKey : m.initialEphemeralKeyHex = some m.ephemeralPublicKeyHex

/-- The one-time prekey a message makes the responder use is the one of the bundle. -/
def TakesBundleOneTimePreKey (st : SignalStore B S) (bundle : PreKeyBundle S)
    (m : EncryptedMessage S) : Prop :=
  (st.namedOneTimePreKey m.oneTimePreKeyId).map (fun opk => opk.keyPair.publicKeyHex) =
    bundle.oneTimePreKey.map PublicOneTimePreKey.publicKeyHex

variable {P : Primitives B S} {E : Entropy B} {ep : Nat → Epoch B S} {bundle : PreKeyBundle S}
  {ikA : Curve25519KeyPair B S}

/-! ## Both sides of X3DH -/

/-- A responder that uses the keys of the bundle derives the root key and the chain of epoch `1`. -/
theorem Initiated.responderInputs (h : Initiated P ikA bundle ep) (hP : P.Lawful)
    {st : SignalStore B S} (hst : st.WellFormed P)
    (hik : bundle.identityKeyHex = st.identity.encryptionKey.publicKeyHex) {spk : SignedPreKey B S}
    (hspk : st.getLatestSignedPreKey = some spk)
    (hspkHex : spk.keyPair.publicKeyHex = bundle.signedPreKey.publicKeyHex) {i : Nat}
    {plaintext : S} {m : EncryptedMessage S} (hm : OpeningMessage P ikA ep i plaintext m)
    (hotk : TakesBundleOneTimePreKey st bundle m) :
    ∃ dhAll initialDh, ResponderInputs P st m dhAll initialDh ∧
      kdfRoot P (masterSecret P dhAll) initialDh =
        { nextRootKey := (ep 1).rootKey, chainKey := (ep 1).chainKey } := by
  have hwf0 : (ep 0).keyPair.WellFormed P := h.ladder.wellFormed 0 (Nat.zero_le _)
  have hwf1 : (ep 1).keyPair.WellFormed P := h.ladder.wellFormed 1 (Nat.le_refl _)
  have hwfspk : spk.keyPair.WellFormed P := hst.latest hspk
  have hopk : ∀ k ∈ st.namedOneTimePreKey m.oneTimePreKeyId, k.keyPair.WellFormed P := by
    intro k hk
    obtain ⟨id, -, hget⟩ := Option.bind_eq_some_iff.1 hk
    exact hst.oneTimePreKey hget
  have hpub : (ep 0).keyPair.publicKey = spk.keyPair.publicKey :=
    hwf0.publicKey_inj hwfspk hP (by rw [hspkHex, h.signedPreKey])
  have hmEph : m.ephemeralPublicKeyHex = (ep 1).keyPair.publicKeyHex := hm.sealedAt.key
  obtain ⟨ikB, dhAll, hikB, hdhs, hroot⟩ := h.root
  obtain ⟨dh, hdh, hkdf⟩ := h.ladder.linked 0 (Nat.zero_lt_one)
  have hikB' : ikB = st.identity.encryptionKey.publicKey := by
    rw [hik, hst.identity.hexToBytes hP] at hikB
    exact (Except.ok.inj hikB).symm
  refine ⟨dhAll, dh, ⟨ikA.publicKey, (ep 1).keyPair.publicKey, spk, (ep 1).keyPair.publicKey,
    ⟨⟨_, hm.identityKey, h.identity.hexToBytes hP⟩,
      ⟨_, hm.ephemeralKey, by rw [hmEph, hwf1.hexToBytes hP]⟩, hspk⟩, ?_,
    by rw [hmEph, hwf1.hexToBytes hP], ?_⟩, by rw [← hroot, hkdf]⟩
  · rw [← initiatorDhs_eq_responderDhs P hP h.identity hwf1 hst.identity hwfspk hopk hotk.symm,
      ← hpub, ← hikB', hdhs]
  · rw [hwfspk.scalarMult_comm hwf1 hP, ← hpub, hdh]

variable [DecidableEq S]

/-- The session `initiateSession` saves stands at position `0` of an initiated ladder. -/
theorem run_initiateSession_initiated {k : S} {h h' : Host B S} {s : SessionRecord B S} {d : Nat}
    (hP : P.Lawful) (hE : E.Fresh P) (hid : h.store.identity.encryptionKey.WellFormed P)
    (hd : d < h.draws)
    (hspk : bundle.signedPreKey.publicKeyHex = (keyPairOf P (E.secretKey d)).publicKeyHex)
    (hrun : (initiateSession P k bundle).run P E h = (.ok s, h')) :
    h' = { store := h.store.saveSession P k s, draws := h.draws + 3 } ∧
      s.oneTimePreKeyId = bundle.oneTimePreKey.map PublicOneTimePreKey.keyId ∧
      ∃ ep, Initiated P h.store.identity.encryptionKey bundle ep ∧ Synced P ep 0 s ∧
        (ep 0).keyPair = keyPairOf P (E.secretKey d) ∧
        (ep 1).keyPair = keyPairOf P (E.secretKey h.draws) ∧ (ep 1).sent = 0 := by
  rcases run_initiateSession_cases P E k bundle h with
    ⟨e, h'', hfail, -⟩ | ⟨dhAll, initialDh, hin⟩
  · rw [hfail] at hrun
    cases hrun
  · rw [run_initiateSession_of_inputs hin] at hrun
    cases hrun
    refine ⟨rfl, rfl, ?_⟩
    obtain ⟨ikB, spkB, hik, hspkB, hdhs, hinit⟩ := hin.keys
    have hwf0 : (keyPairOf P (E.secretKey d)).WellFormed P := keyPairOf_wellFormed P (hE.length d)
    have hwf1 : (keyPairOf P (E.secretKey h.draws)).WellFormed P :=
      keyPairOf_wellFormed P (hE.length h.draws)
    have hspkB' : spkB = (keyPairOf P (E.secretKey d)).publicKey := by
      rw [hspk, hwf0.hexToBytes hP] at hspkB
      exact (Except.ok.inj hspkB).symm
    subst hspkB'
    -- The bottom of the ladder is the signed prekey of the bundle, its first rung the ephemeral key.
    let bottom : Epoch B S :=
      { keyPair := keyPairOf P (E.secretKey d)
        rootKey := masterSecret P dhAll
        chainKey := masterSecret P dhAll
        sent := 0 }
    let first : Epoch B S :=
      { keyPair := keyPairOf P (E.secretKey h.draws)
        rootKey := (kdfRoot P (masterSecret P dhAll) initialDh).nextRootKey
        chainKey := (kdfRoot P (masterSecret P dhAll) initialDh).chainKey
        sent := 0 }
    have hbase : Ladder P (fun _ => bottom) 0 :=
      ⟨fun _ _ => hwf0, fun j hj k hk _ => by omega, fun k hk => absurd hk (Nat.not_lt_zero k), rfl⟩
    have hladder : Ladder P (Function.update (fun _ => bottom) 1 first) 1 := by
      refine hbase.extend hwf1 ?_ ⟨initialDh, hinit, rfl⟩
      intro k _ heq
      have hdd := hE.distinct heq
      omega
    have hep0 : Function.update (fun _ => bottom) 1 first 0 = bottom :=
      Function.update_of_ne (by omega) _ _
    have hep1 : Function.update (fun _ => bottom) 1 first 1 = first := Function.update_self _ _ _
    refine ⟨Function.update (fun _ => bottom) 1 first, ⟨hid, hladder, by rw [hep0]; exact hspk,
      ikB, dhAll, hik, by rw [hep0, hep1]; exact hdhs, by rw [hep0]⟩, ?_, by rw [hep0],
      by rw [hep1], by rw [hep1]⟩
    refine ⟨by rw [hep1]; rfl, ?_, by rw [hep1]; rfl, by rw [Nat.zero_sub, hep0]; rfl,
      Or.inl ⟨by rw [hep1]; rfl, by rw [hep1]; rfl⟩, fun h0 => absurd rfl h0, fun _ => rfl,
      Nat.zero_le _, fun r i v hv => by cases hv⟩
    rw [hep0]
    show some (P.toLowerCase _) = _
    rw [hspk, hwf0.toLowerCase hP]

omit [DecidableEq S] in
/-- The session `initiateBobSession` saves stands at position `1`. -/
theorem synced_respondedSession {k : S} {m : EncryptedMessage S} {r : RootKeys B} {secretKey : B}
    {e : Epoch B S} (hP : P.Lawful) (hladder : Ladder P ep 1)
    (hr : r = { nextRootKey := (ep 1).rootKey, chainKey := (ep 1).chainKey })
    (hm : m.ephemeralPublicKeyHex = (ep 1).keyPair.publicKeyHex)
    (he : e.keyPair = keyPairOf P secretKey) (hsent : e.sent = 0) (createdAt updatedAt : Nat) :
    Synced P (Function.update ep 2 e) 1
      (respondedSession P k m r (keyPairOf P secretKey) createdAt updatedAt) := by
  have hold (j : Nat) (hj : j ≤ 1) : Function.update ep 2 e j = ep j :=
    Function.update_of_ne (by omega) _ _
  have hnew : Function.update ep 2 e (1 + 1) = e := Function.update_self _ _ _
  have hwf1 : (ep 1).keyPair.WellFormed P := hladder.wellFormed 1 (Nat.le_refl _)
  refine ⟨by rw [hnew, he]; rfl, ?_, by rw [hnew, hsent]; rfl,
    by rw [Nat.sub_self, hold 0 (by omega), hladder.first]; rfl,
    Or.inr ⟨by rw [hold 1 (Nat.le_refl _)]; simp only [respondedSession, hr], rfl,
      by rw [hnew, hsent]⟩, ?_, by omega, Nat.zero_le _, fun r i v hv => by cases hv⟩
  · rw [hold 1 (Nat.le_refl _)]
    show some (P.toLowerCase _) = _
    rw [hm, hwf1.toLowerCase hP]
  · intro _
    rw [hold 1 (Nat.le_refl _)]
    simp only [respondedSession, hr, chainKeyAt_zero]

/-- A first message whose sequence number is within the limit is still so in the session it
starts. -/
theorem withinSkipLimit_respondedSession {k : S} {m : EncryptedMessage S} {r : RootKeys B}
    {dhsB : Curve25519KeyPair B S} (hP : P.Lawful)
    (hlimit : WithinSkipLimit P (none : Option (SessionRecord B S)) m) (createdAt updatedAt : Nat) :
    WithinSkipLimit P (some (respondedSession P k m r dhsB createdAt updatedAt)) m := by
  have hstay : needsRatchet P (respondedSession P k m r dhsB createdAt updatedAt) m = false := by
    simp [needsRatchet, respondedSession, hP.toLowerCase_toLowerCase]
  refine Or.inr ?_
  rw [if_neg (by simp [hstay])]
  simpa [WithinSkipLimit, respondedSession] using hlimit

/-! ## The opening of a conversation -/

/-- `ini` has initiated a session on `bundle` and its peer has none yet. -/
structure Opening (P : Primitives B S) (E : Entropy B) (ini : Party) (bundle : PreKeyBundle S)
    (ep : Nat → Epoch B S) (s : SessionRecord B S) (w : World B S) : Prop where
  responder : (w.store ini.peer).WellFormed P
  identityKey : bundle.identityKeyHex = w.identityKeyHex ini.peer
  initiated : Initiated P (w.store ini).identity.encryptionKey bundle ep
  drawn : ∀ k ≤ 1, ∃ d < w.draws, (ep k).keyPair = keyPairOf P (E.secretKey d)
  session : w.session ini P = some s
  synced : Synced P ep 0 s
  noSession : w.session ini.peer P = none
  flights : ∀ f ∈ w.flights, f.sender = ini ∧
    ∃ i, OpeningMessage P (w.store ini).identity.encryptionKey ep i f.plaintext f.message
  unique : w.flights.Pairwise fun f g => f.message.header ≠ g.message.header

section

variable {ini : Party} {s : SessionRecord B S} {w : World B S}

omit [DecidableEq S] in
/-- Further bundles of either party leave an opening as it is. -/
theorem Opening.keepsSessions {w' : World B S} {p : Party} (h : Opening P E ini bundle ep s w)
    (hw : KeepsSessions P p w w') : Opening P E ini bundle ep s w' where
  responder := hw.wellFormed_all ini.peer h.responder
  identityKey := by rw [h.identityKey, World.identityKeyHex, World.identityKeyHex, hw.identity_eq]
  initiated := by
    rw [hw.identity_eq]
    exact h.initiated
  drawn k hk := by
    obtain ⟨d, hd, hkey⟩ := h.drawn k hk
    exact ⟨d, Nat.lt_of_lt_of_le hd hw.draws, hkey⟩
  session := by rw [hw.session_eq, h.session]
  synced := h.synced
  noSession := by rw [hw.session_eq, h.noSession]
  flights f hf := by
    rw [hw.flights] at hf
    rw [hw.identity_eq]
    exact h.flights f hf
  unique := by
    rw [hw.flights]
    exact h.unique

omit [DecidableEq S] in
theorem Initiated.sealing (h : Initiated P ikA bundle ep) :
    Initiated P ikA bundle (sealInEpoch ep 1) := by
  have hsame := sameKeys_sealInEpoch ep 1 1
  obtain ⟨ikB, dhAll, hik, hdhs, hroot⟩ := h.root
  refine ⟨h.identity, h.ladder.congr hsame ?_, ?_, ikB, dhAll, hik, ?_, ?_⟩
  · rw [sent_sealInEpoch_of_ne ep (by omega), h.ladder.first]
  · rw [(hsame 0 (by omega)).1, h.signedPreKey]
  · rw [(hsame 0 (by omega)).1, (hsame 1 (by omega)).1, hdhs]
  · rw [(hsame 0 (by omega)).2.1, hroot]

omit [DecidableEq S] in
theorem OpeningMessage.sealing {i : Nat} {plaintext : S} {m : EncryptedMessage S}
    (h : OpeningMessage P ikA ep i plaintext m) :
    OpeningMessage P ikA (sealInEpoch ep 1) i plaintext m where
  sealedAt := h.sealedAt.congr (Nat.le_refl 1) (sameKeys_sealInEpoch ep 1 1)
    (sent_le_sealInEpoch ep _ _) (sent_sealInEpoch_of_ne ep (by omega))
  identityKey := h.identityKey
  ephemeralKey := h.ephemeralKey

/-- The initiator seals a further message before any answer. -/
theorem Opening.encrypt (h : Opening P E ini bundle ep s w) (hP : P.Lawful) (hE : E.Fresh P)
    {plaintext : S} (htext : P.textDecode (P.textEncode plaintext) = plaintext)
    (context : Option InitialBundleContext) :
    ∃ m s', Opening P E ini bundle (sealInEpoch ep 1) s' (w.send ini P E plaintext context) ∧
      (w.send ini P E plaintext context).flights =
        w.flights ++ [{ sender := ini, plaintext, message := m }] ∧
      (w.send ini P E plaintext context).store ini.peer = w.store ini.peer ∧
      s'.oneTimePreKeyId = s.oneTimePreKeyId ∧ m.sequenceNumber = (s.sendSequenceNumber : Int) ∧
      s'.sendSequenceNumber = s.sendSequenceNumber + 1 ∧
      s'.skippedMessageKeys = s.skippedMessageKeys ∧
      m.oneTimePreKeyId = carriedOneTimePreKeyId s context := by
  obtain ⟨m, s', hrun, hs', hm, hskip, -, hotk, hidentity, hephemeral, hcarried⟩ :=
    h.synced.encryptTo h.session hP hE h.initiated.ladder Nat.zero_lt_one htext context
  have hsame := sameKeys_sealInEpoch ep 1 1
  have hseq : m.sequenceNumber = (s.sendSequenceNumber : Int) := by
    rw [hm.sequence, h.synced.sent]
  have hcount : s'.sendSequenceNumber = s.sendSequenceNumber + 1 := by
    rw [hs'.sent, h.synced.sent]
    exact sent_sealInEpoch_self ep 1
  rw [World.send_of_ok w ini P E hrun]
  -- Saving a session changes nobody's identity.
  have hkeep (q : Party) : ((w.saving ini P s' (w.draws + 2)).store q).identity =
      (w.store q).identity := by
    by_cases hq : q = ini
    · subst hq
      simp [World.saving]
    · rw [World.saving, World.store_withHost_of_ne w hq]
  have hpeer : (w.saving ini P s' (w.draws + 2)).store ini.peer = w.store ini.peer :=
    World.store_withHost_peer w ini _
  refine ⟨m, s',
    { responder := ?responder
      identityKey := ?identityKey
      initiated := ?initiated
      drawn := ?drawn
      session := World.session_saving_self w ini P s' _
      synced := hs'
      noSession := ?noSession
      flights := ?flights
      unique := ?unique }, rfl, hpeer, hotk, hseq, hcount, hskip, hcarried⟩
  case responder =>
    show (World.store _ _).WellFormed P
    exact hpeer ▸ h.responder
  case identityKey =>
    show _ = (World.store _ _).identity.encryptionKey.publicKeyHex
    exact h.identityKey.trans (by rw [World.launch]; simp only [hkeep]; rfl)
  case initiated =>
    have hini : ((w.saving ini P s' (w.draws + 2)).store ini).identity =
      (w.store ini).identity := hkeep ini
    show Initiated P ((w.saving ini P s' (w.draws + 2)).store ini).identity.encryptionKey _ _
    rw [hini]
    exact h.initiated.sealing
  case drawn =>
    intro k hk
    obtain ⟨d, hd, hkey⟩ := h.drawn k hk
    exact ⟨d, Nat.lt_add_right 2 hd, by rw [(hsame k hk).1, hkey]⟩
  case noSession => exact (World.session_saving_peer w ini P s' _).trans h.noSession
  case flights =>
    have hini : ((w.saving ini P s' (w.draws + 2)).store ini).identity =
      (w.store ini).identity := hkeep ini
    intro f hf
    show f.sender = ini ∧ ∃ i, OpeningMessage P
      ((w.saving ini P s' (w.draws + 2)).store ini).identity.encryptionKey _ _ _ _
    rw [hini]
    rcases List.mem_append.1 hf with hold | hnew
    · obtain ⟨hsender, i, hopen⟩ := h.flights f hold
      exact ⟨hsender, i, hopen.sealing⟩
    · rw [List.mem_singleton] at hnew
      subst hnew
      exact ⟨rfl, _, hm, hidentity, hephemeral⟩
  case unique =>
    refine List.pairwise_append.2 ⟨h.unique, List.pairwise_singleton _ _, ?_⟩
    intro f hf g hg
    rw [List.mem_singleton] at hg
    subst hg
    obtain ⟨-, i, hopen⟩ := h.flights f hf
    intro heq
    simp only [EncryptedMessage.header, Prod.mk.injEq, hopen.sealedAt.sequence, hm.sequence] at heq
    have hi : i < (ep (0 + 1)).sent := hopen.sealedAt.index
    omega

omit [DecidableEq S] in
/-- After the first contact of the responder both sessions are in step: the session it has saved
answers the epoch of the messages on their way, with a new key pair of its own. -/
theorem Opening.inSync_contacted (h : Opening P E ini bundle ep s w) (hE : E.Fresh P)
    {e : Epoch B S} {s₀ : SessionRecord B S} {h₁ : Host B S}
    (he : e.keyPair = keyPairOf P (E.secretKey w.draws)) (hlink : Linked P (ep 1) e)
    (hsealed : 0 < (ep 1).sent) (hdraws : h₁.draws = w.draws + 3)
    (hid : h₁.store.identity = (w.store ini.peer).identity)
    (hsession : (w.withHost ini.peer h₁).session ini.peer P = some s₀)
    (hsync₀ : Synced P (Function.update ep 2 e) 1 s₀) (hreceived : s₀.receiveSequenceNumber = 0) :
    InSync P E (Function.update ep 2 e) (Function.update (fun _ => 1) ini 0)
      (Function.update (fun _ => s₀) ini s) (w.withHost ini.peer h₁) := by
  have hne : ini.peer ≠ ini := ini.peer_ne
  have htop : topEpoch (Function.update (fun _ => 1) ini 0) = 2 := by
    rw [topEpoch_eq _ ini]
    simp
  have hold (j : Nat) (hj : j ≤ 1) : Function.update ep 2 e j = ep j :=
    Function.update_of_ne (by omega) _ _
  have hsame : SameKeys ep (Function.update ep 2 e) 1 := fun j hj => by simp [hold j hj]
  have hsessionIni : (w.withHost ini.peer h₁).session ini P = some s := by
    have hpeer := World.session_withHost_peer w ini.peer P hid
    rw [Party.peer_peer] at hpeer
    rw [hpeer, h.session]
  refine
    { adjacent := ?adjacent
      ladder := ?ladder
      drawn := ?drawn
      opened := ?opened
      session := ?session
      synced := ?synced
      flights := ?flights
      unique := h.unique }
  case adjacent =>
    intro p
    by_cases hp : p = ini
    · subst hp
      simp
    · rw [Party.eq_peer_of_ne hp]
      simp
  case ladder =>
    rw [htop]
    refine h.initiated.ladder.extend (he ▸ keyPairOf_wellFormed P (hE.length _)) ?_ hlink
    intro j hj heq
    obtain ⟨d, hd, hdkey⟩ := h.drawn j hj
    rw [hdkey, he] at heq
    have hdd := hE.distinct heq
    omega
  case drawn =>
    intro j hj
    rw [htop] at hj
    rw [show (w.withHost ini.peer h₁).draws = w.draws + 3 from hdraws]
    by_cases hj2 : j = 2
    · subst hj2
      exact ⟨w.draws, by omega, by rw [Function.update_self, he]⟩
    · obtain ⟨d, hd, hdkey⟩ := h.drawn j (by omega)
      exact ⟨d, by omega, by rw [hold j (by omega), hdkey]⟩
  case opened =>
    intro p hp
    by_cases hpi : p = ini
    · subst hpi
      simp at hp
    · rw [Function.update_of_ne hpi, hold 1 (Nat.le_refl _)]
      exact hsealed
  case session =>
    intro p
    by_cases hpi : p = ini
    · subst hpi
      simpa using hsessionIni
    · rw [Function.update_of_ne hpi, Party.eq_peer_of_ne hpi]
      exact hsession
  case synced =>
    intro p
    by_cases hpi : p = ini
    · subst hpi
      rw [Function.update_self, Function.update_self]
      exact h.synced.congr hsame (by rw [hold 1 (Nat.le_refl _)]) (by rw [hold 0 (by omega)])
        (by rw [hold 0 (by omega)])
    · rw [Function.update_of_ne hpi, Function.update_of_ne hpi]
      exact hsync₀
  case flights =>
    -- the messages on their way are those of epoch 1, and none of them has been received
    intro g hg
    obtain ⟨hgs, j, hgopen⟩ := h.flights g hg
    refine ⟨1, j, hgopen.sealedAt.congr (Nat.le_refl 1) hsame (by rw [hold 1 (Nat.le_refl _)])
      (by rw [hold 0 (by omega)]), Nat.one_ne_zero, ?_, ?_, ?_⟩
    · rw [hgs, Function.update_self]
    · rw [hgs, Function.update_self]
    · rw [hgs, Function.update_of_ne hne, Function.update_of_ne hne]
      rintro (hlt | ⟨-, hlt⟩)
      · exact absurd hlt (Nat.lt_irrefl _)
      · rw [hreceived] at hlt
        exact absurd hlt (Nat.not_lt_zero _)

/-- The first message the responder takes puts both sessions in step before it is opened. -/
theorem Opening.contact (h : Opening P E ini bundle ep s w) (hP : P.Lawful) (hE : E.Fresh P)
    {f : Flight S} (hf : f ∈ w.flights) {spk : SignedPreKey B S}
    (hspk : (w.store ini.peer).getLatestSignedPreKey = some spk)
    (hspkHex : spk.keyPair.publicKeyHex = bundle.signedPreKey.publicKeyHex)
    (hotk : TakesBundleOneTimePreKey (w.store ini.peer) bundle f.message)
    (hlimit : WithinSkipLimit P (w.session ini.peer P) f.message) :
    ∃ w₁ e s₀, InSync P E (Function.update ep 2 e) (Function.update (fun _ => 1) ini 0)
        (Function.update (fun _ => s₀) ini s) w₁ ∧
      e.sent = 0 ∧ s₀.receiveSequenceNumber = 0 ∧ s₀.skippedMessageKeys = (fun _ => none) ∧
      w₁.flights = w.flights ∧ WithinSkipLimit P (w₁.session ini.peer P) f.message ∧
      w.decryptAt ini.peer P E f.message = w₁.decryptAt ini.peer P E f.message := by
  obtain ⟨hsender, i, hopen⟩ := h.flights f hf
  obtain ⟨dhAll, initialDh, hin, hkdf⟩ := h.initiated.responderInputs hP h.responder h.identityKey
    hspk hspkHex hopen hotk
  have hwf1 : (ep 1).keyPair.WellFormed P := h.initiated.ladder.wellFormed 1 (Nat.le_refl _)
  -- The responder ratchets at once, so the ladder grows by its new key pair.
  obtain ⟨e, he, hsent, hlink⟩ := exists_linked hP hwf1 (hE.length w.draws)
  obtain ⟨s₀, hs₀⟩ : ∃ s₀, s₀ = respondedSession P (w.identityKeyHex ini.peer.peer) f.message
      (kdfRoot P (masterSecret P dhAll) initialDh) (keyPairOf P (E.secretKey w.draws))
      (E.now (w.draws + 1)) (E.now (w.draws + 2)) := ⟨_, rfl⟩
  obtain ⟨h₁, hh₁⟩ : ∃ h₁ : Host B S, h₁ =
      { store := ((w.store ini.peer).withoutNamed f.message.oneTimePreKeyId).saveSession P
          (w.identityKeyHex ini.peer.peer) s₀
        draws := w.draws + 3 } := ⟨_, rfl⟩
  have hcontact : (initiateBobSession P (w.identityKeyHex ini.peer.peer) f.message).run P E
      (w.host ini.peer) = (.ok s₀, h₁) := by
    rw [hh₁, hs₀]
    exact run_initiateBobSession_of_inputs (h := w.host ini.peer) hin
  have hid : h₁.store.identity = (w.store ini.peer).identity := by
    rw [hh₁]
    simp
  have hkey (q : Party) : (w.withHost ini.peer h₁).identityKeyHex q = w.identityKeyHex q :=
    World.identityKeyHex_withHost w _ hid q
  have hsession : (w.withHost ini.peer h₁).session ini.peer P = some s₀ := by
    rw [World.session_withHost_self w _ P hid, hh₁]
    exact SignalStore.getSession_saveSession_self P _ _ _
  have hsync₀ : Synced P (Function.update ep 2 e) 1 s₀ := by
    rw [hs₀]
    exact synced_respondedSession hP h.initiated.ladder hkdf hopen.sealedAt.key he hsent _ _
  refine ⟨w.withHost ini.peer h₁, e, s₀, ?_, hsent, by rw [hs₀]; rfl, by rw [hs₀]; rfl, rfl, ?_, ?_⟩
  · exact h.inSync_contacted hE he hlink (Nat.lt_of_le_of_lt (Nat.zero_le _) hopen.sealedAt.index)
      (by rw [hh₁]) hid hsession hsync₀ (by rw [hs₀]; rfl)
  · rw [hsession, hs₀]
    rw [h.noSession] at hlimit
    exact withinSkipLimit_respondedSession hP hlimit _ _
  · have hget : h₁.store.getSession P (w.identityKeyHex ini.peer.peer) = some s₀ := by
      rw [hh₁]
      exact SignalStore.getSession_saveSession_self P _ _ _
    have hhost : (w.withHost ini.peer h₁).host ini.peer = h₁ := by simp [World.host]
    have hnone : (w.host ini.peer).store.getSession P (w.identityKeyHex ini.peer.peer) = none :=
      h.noSession
    -- With a session in the store the call goes on as it would have after `initiateBobSession`.
    have hrun : (decrypt P (w.identityKeyHex ini.peer.peer) f.message).run P E (w.host ini.peer) =
        (decrypt P (w.identityKeyHex ini.peer.peer) f.message).run P E h₁ :=
      run_decrypt_of_contact P E hnone hcontact hget
    simp only [World.decryptAt, World.call, hkey, hhost, hrun]
    simp [World.withHost]

/-- Delivering any opening message that uses the keys of the bundle returns its plaintext and puts
both sessions in step. -/
theorem Opening.deliver (h : Opening P E ini bundle ep s w) (hP : P.Lawful) (hE : E.Fresh P)
    {before after : List (Flight S)} {f : Flight S} (hw : w.flights = before ++ f :: after)
    {spk : SignedPreKey B S} (hspk : (w.store ini.peer).getLatestSignedPreKey = some spk)
    (hspkHex : spk.keyPair.publicKeyHex = bundle.signedPreKey.publicKeyHex)
    (hotk : TakesBundleOneTimePreKey (w.store ini.peer) bundle f.message)
    (hlimit : WithinSkipLimit P (w.session ini.peer P) f.message) :
    ∃ w' ep' n' s', w.decryptAt ini.peer P E f.message = (.ok f.plaintext, w') ∧
      InSync P E ep' n' s' (w'.landed (before ++ after)) := by
  have hf : f ∈ w.flights := hw ▸ List.mem_append_right _ List.mem_cons_self
  have hsender : f.sender = ini := (h.flights f hf).1
  obtain ⟨w₁, e, s₀, hsync, -, -, -, hflights, hlimit₁, hrun⟩ :=
    h.contact hP hE hf hspk hspkHex hotk hlimit
  rw [hrun]
  rw [← hsender] at hlimit₁ ⊢
  exact hsync.deliver hP hE (hflights.trans hw) hlimit₁

/-- A successful `initiateSession` on a bundle of the peer opens a conversation. -/
theorem opening_of_initiate (ini : Party) {w' : World B S} {d : Nat} (hP : P.Lawful) (hE : E.Fresh P)
    (hini : (w.store ini).identity.encryptionKey.WellFormed P)
    (hpeer : (w.store ini.peer).WellFormed P) (hnone : w.session ini.peer P = none)
    (hflights : w.flights = []) (hkey : bundle.identityKeyHex = w.identityKeyHex ini.peer)
    (hd : d < w.draws)
    (hspk : bundle.signedPreKey.publicKeyHex = (keyPairOf P (E.secretKey d)).publicKeyHex)
    (hrun : w.initiate ini P E bundle = (.ok s, w')) :
    w' = w.saving ini P s (w.draws + 3) ∧
      s.oneTimePreKeyId = bundle.oneTimePreKey.map PublicOneTimePreKey.keyId ∧
      ∃ ep, Opening P E ini bundle ep s w' ∧ (ep 1).sent = 0 := by
  -- The world changes by what the call saved and drew, and by nothing else.
  obtain ⟨h', hcall, rfl⟩ := w.run_of_call ini P E hrun
  obtain ⟨rfl, hotk, ep, hep, hsync, hkey0, hkey1, hsent⟩ :=
    run_initiateSession_initiated hP hE hini hd hspk hcall
  have hw' : w.withHost ini
      { store := (w.host ini).store.saveSession P bundle.identityKeyHex s
        draws := (w.host ini).draws + 3 } = w.saving ini P s (w.draws + 3) := by
    rw [hkey]
    rfl
  rw [hw']
  refine ⟨rfl, hotk, ep,
    { responder := ?responder
      identityKey := ?identityKey
      initiated := ?initiated
      drawn := ?drawn
      session := World.session_saving_self w ini P s _
      synced := hsync
      noSession := ?noSession
      flights := ?flights
      unique := ?unique }, hsent⟩
  case responder =>
    rw [World.saving, World.store_withHost_peer]
    exact hpeer
  case identityKey =>
    rw [hkey, World.saving, World.identityKeyHex_withHost]
    rfl
  case initiated =>
    rw [World.saving, World.store_withHost_self]
    exact hep
  case drawn =>
    intro k hk
    rcases Nat.le_one_iff_eq_zero_or_eq_one.1 hk with rfl | rfl
    · exact ⟨d, Nat.lt_add_right 3 hd, hkey0⟩
    · exact ⟨w.draws, Nat.lt_add_of_pos_right (by omega), hkey1⟩
  case noSession =>
    rw [World.session_saving_peer]
    exact hnone
  case flights =>
    intro f hf
    rw [World.flights_saving, hflights] at hf
    cases hf
  case unique =>
    rw [World.flights_saving, hflights]
    exact List.Pairwise.nil

/-- Two parties of which `bob` has no session with `alice`, and nothing is in flight. -/
structure Strangers (P : Primitives B S) (w : World B S) : Prop where
  alice : (w.store .alice).identity.encryptionKey.WellFormed P
  bob : (w.store .bob).WellFormed P
  noSession : w.session .bob P = none
  noFlights : w.flights = []

/-- `bob` generates a bundle and `alice` initiates a session on it. -/
theorem Strangers.opening {w₁ w₂ : World B S} {count : Nat} (hw : Strangers P w) (hP : P.Lawful)
    (hE : E.Fresh P) (hgen : w.generate .bob P E count = (.ok bundle, w₁))
    (hini : w₁.initiate .alice P E bundle = (.ok s, w₂)) :
    ∃ signatureHex ep,
      bundle = exportedBundle P E (w.store .bob).identity signatureHex w.draws count ∧
      w₂.store .bob = (w.store .bob).withBundle P E signatureHex w.draws count ∧
      s.oneTimePreKeyId = bundle.oneTimePreKey.map PublicOneTimePreKey.keyId ∧
      w₂.flights = [] ∧ Opening P E .alice bundle ep s w₂ ∧ (ep 1).sent = 0 := by
  obtain ⟨signatureHex, rfl, rfl⟩ := w.generate_ok .bob P E hgen
  obtain ⟨h₁, hh₁⟩ : ∃ h₁ : Host B S, h₁ =
      { store := (w.store .bob).withBundle P E signatureHex w.draws count
        draws := w.draws + 3 + 2 * count } := ⟨_, rfl⟩
  rw [← hh₁] at hini
  have hid : h₁.store.identity = (w.store .bob).identity := by
    rw [hh₁]
    simp
  have hstore : (w.withHost .bob h₁).store .bob = h₁.store := World.store_withHost_self w .bob h₁
  have hnone : (w.withHost .bob h₁).session .bob P = none := by
    rw [World.session_withHost_self w .bob P hid, hh₁, SignalStore.getSession_withBundle]
    exact hw.noSession
  have hbob : ((w.withHost .bob h₁).store .bob).WellFormed P := by
    rw [hstore, hh₁]
    exact hw.bob.withBundle hE _ _ _
  have halice : (w.withHost .bob h₁).store .alice = w.store .alice :=
    World.store_withHost_of_ne w (by decide) h₁
  have hdraw : w.draws < (w.withHost .bob h₁).draws := by
    rw [hh₁]
    show w.draws < w.draws + 3 + 2 * count
    omega
  have hkey : (w.withHost .bob h₁).identityKeyHex .bob =
      (w.store .bob).identity.encryptionKey.publicKeyHex := by
    rw [World.identityKeyHex, hstore, hid]
  obtain ⟨rfl, hotk, ep, hopen, hsent⟩ := opening_of_initiate .alice hP hE
    (halice ▸ hw.alice) hbob hnone hw.noFlights hkey.symm hdraw rfl hini
  refine ⟨signatureHex, ep, rfl, ?_, hotk, hw.noFlights, hopen, hsent⟩
  rw [World.saving, World.store_withHost_of_ne _ (by decide), hstore, hh₁]

omit [DecidableEq S] in
/-- A message that carries the id of a usable bundle's one-time prekey takes that key. -/
theorem UsableBundle.takesOneTimePreKey {st : SignalStore B S} (h : UsableBundle st bundle)
    {m : EncryptedMessage S}
    (hm : m.oneTimePreKeyId = bundle.oneTimePreKey.map PublicOneTimePreKey.keyId) :
    TakesBundleOneTimePreKey st bundle m := by
  rw [TakesBundleOneTimePreKey, hm]
  cases hotk : bundle.oneTimePreKey with
  | none => rfl
  | some otk =>
      obtain ⟨opk, hget, hhex⟩ := h.oneTimePreKey otk hotk
      simp [SignalStore.namedOneTimePreKey, hget, hhex]

end

end TorE2EE.Crypto
