import TorE2EE.Crypto.UsedKeys

/-!
# A device and one of its peers

What holds between a device and a peer whose identity key is `x`, whatever bundles and messages the
network brings. `Contacted` says who took part in a session: its first two Diffie-Hellman values are
of the device's identity key, of a key it drew, and of `x`. `Dealings` lists the message keys the
device has sealed and opened messages of this peer with; none of them is open in its session.

Every call keeps `Dealings`, and a call that seals or opens a message does it under a new key.
Nothing is assumed about the peer's bundles: a session that is initiated has a key drawn just now.
-/

set_option autoImplicit false

namespace TorE2EE.Crypto

open TorE2EE.Foundation

variable {B S : Type}

/-! ## The parties of a session -/

/-- The Diffie-Hellman values of a session of the identity key pair `ik` with the identity key `x`,
set up with one of the first draws. A responder's is a signed prekey, one of the public keys
`exported`. -/
inductive Contacted (P : Primitives B S) (E : Entropy B) (exported : B → Prop)
    (ik : Curve25519KeyPair B S) (draws : Nat) (x : B) : List B → Prop where
  | initiated {d : Nat} {spkB v w : B} {rest : List B} : d < draws →
      P.scalarMult ik.secretKey spkB = .ok v → P.scalarMult (E.secretKey d) x = .ok w →
      Contacted P E exported ik draws x (v :: w :: rest)
  | responded {d : Nat} {ekA v w : B} {rest : List B} : d < draws →
      exported (P.scalarMultBase (E.secretKey d)) → P.scalarMult (E.secretKey d) x = .ok v →
      P.scalarMult ik.secretKey ekA = .ok w → Contacted P E exported ik draws x (v :: w :: rest)

/-- `x` is neither a key the device drew nor its identity key, and the latter was not drawn. -/
structure PeerKey (P : Primitives B S) (E : Entropy B) (ik : Curve25519KeyPair B S) (x : B) :
    Prop where
  notDrawn : ∀ d, x ≠ P.scalarMultBase (E.secretKey d)
  notOwn : x ≠ P.scalarMultBase ik.secretKey
  ownNotDrawn : ∀ d, P.scalarMultBase ik.secretKey ≠ P.scalarMultBase (E.secretKey d)

variable {P : Primitives B S} {E : Entropy B} {exported exported' : B → Prop}
  {ik : Curve25519KeyPair B S} {draws : Nat} {x : B} {dhs : List B}

theorem Contacted.mono (h : Contacted P E exported ik draws x dhs)
    (hexported : ∀ key, exported key → exported' key) {draws' : Nat} (hle : draws ≤ draws') :
    Contacted P E exported' ik draws' x dhs := by
  cases h with
  | initiated hd hv hw => exact .initiated (Nat.lt_of_lt_of_le hd hle) hv hw
  | responded hd hspk hv hw =>
      exact .responded (Nat.lt_of_lt_of_le hd hle) (hexported _ hspk) hv hw

/-- A computation that starts with two values and ends with a list that starts with them. -/
theorem exists_cons_of_bind {ε : Type} {a b : Except ε B} {f : B → B → Except ε (List B)}
    (hf : ∀ v w l, f v w = .ok l → ∃ rest, l = v :: w :: rest)
    (h : (do let v ← a; let w ← b; f v w) = .ok dhs) :
    ∃ v w rest, dhs = v :: w :: rest ∧ a = .ok v ∧ b = .ok w := by
  cases a with
  | error e => cases h
  | ok v =>
      cases b with
      | error e => cases h
      | ok w =>
          obtain ⟨rest, rfl⟩ := hf v w dhs h
          exact ⟨v, w, rest, rfl, rfl, rfl⟩

/-- The first two Diffie-Hellman values of an initiator. -/
theorem initiatorDhs_cons {ikA ekA : Curve25519KeyPair B S} {ikB spkB : B}
    {otk : Option (PublicOneTimePreKey S)} (h : initiatorDhs P ikA ekA ikB spkB otk = .ok dhs) :
    ∃ v w rest, dhs = v :: w :: rest ∧ P.scalarMult ikA.secretKey spkB = .ok v ∧
      P.scalarMult ekA.secretKey ikB = .ok w := by
  refine exists_cons_of_bind ?_ h
  intro v w l hl
  cases hd3 : P.scalarMult ekA.secretKey spkB with
  | error e => simp [hd3, bind, Except.bind] at hl
  | ok d3 =>
      cases otk with
      | none =>
          simp only [hd3, bind, Except.bind] at hl
          cases hl
          exact ⟨[d3], rfl⟩
      | some o =>
          cases hhex : P.hexToBytes o.publicKeyHex with
          | error e => simp [hd3, hhex, bind, Except.bind] at hl
          | ok opkB =>
              cases hd4 : P.scalarMult ekA.secretKey opkB with
              | error e => simp [hd3, hhex, hd4, bind, Except.bind] at hl
              | ok d4 =>
                  simp only [hd3, hhex, hd4, bind, Except.bind] at hl
                  cases hl
                  exact ⟨[d3, d4], rfl⟩

/-- The first two Diffie-Hellman values of a responder. -/
theorem responderDhs_cons {ikB : Curve25519KeyPair B S} {spk : SignedPreKey B S}
    {opk : Option (OneTimePreKey B S)} {ikA ekA : B}
    (h : responderDhs P ikB spk opk ikA ekA = .ok dhs) :
    ∃ v w rest, dhs = v :: w :: rest ∧ P.scalarMult spk.keyPair.secretKey ikA = .ok v ∧
      P.scalarMult ikB.secretKey ekA = .ok w := by
  refine exists_cons_of_bind ?_ h
  intro v w l hl
  cases hd3 : P.scalarMult spk.keyPair.secretKey ekA with
  | error e => simp [hd3, bind, Except.bind] at hl
  | ok d3 =>
      cases opk with
      | none =>
          simp only [hd3, bind, Except.bind] at hl
          cases hl
          exact ⟨[d3], rfl⟩
      | some o =>
          cases hd4 : P.scalarMult o.keyPair.secretKey ekA with
          | error e => simp [hd3, hd4, bind, Except.bind] at hl
          | ok d4 =>
              simp only [hd3, hd4, bind, Except.bind] at hl
              cases hl
              exact ⟨[d3, d4], rfl⟩

/-- A session initiated with the key drawn next is another one than all before it. -/
theorem Contacted.ne_initiated (h : Contacted P E exported ik draws x dhs) (hfree : P.FreeTerms)
    (hE : E.Fresh P) (hx : PeerKey P E ik x) {v w : B} {rest : List B}
    (hw : P.scalarMult (E.secretKey draws) x = .ok w) : v :: w :: rest ≠ dhs := by
  intro heq
  cases h with
  | @initiated d spkB v' w' rest' hd hv' hw' =>
      cases heq
      rcases hfree.scalarMult_inj hw hw' with ⟨hpub, -⟩ | ⟨hdrawn, -⟩
      · have := hE.scalarMultBase_inj hpub
        omega
      · exact hx.notDrawn _ hdrawn
  | @responded d ekA v' w' rest' hd _ hv' hw' =>
      cases heq
      rcases hfree.scalarMult_inj hw hw' with ⟨hpub, -⟩ | ⟨hown, -⟩
      · exact hx.ownNotDrawn _ hpub.symm
      · exact hx.notOwn hown

/-- Two devices with one lineage: either they are one and the peer is the same, or each has the
identity key of the other. -/
theorem Contacted.parties (hfree : P.FreeTerms) {E' : Entropy B} {ik' : Curve25519KeyPair B S}
    {draws' : Nat} {x' : B} (h : Contacted P E exported ik draws x dhs)
    (h' : Contacted P E' exported' ik' draws' x' dhs)
    (hx : ∀ d, x ≠ P.scalarMultBase (E'.secretKey d))
    (hik : ∀ d, P.scalarMultBase ik.secretKey ≠ P.scalarMultBase (E'.secretKey d))
    (hik' : ∀ d, P.scalarMultBase ik'.secretKey ≠ P.scalarMultBase (E.secretKey d)) :
    (x = x' ∧ ∃ d d', P.scalarMultBase (E.secretKey d) = P.scalarMultBase (E'.secretKey d')) ∨
      (x = P.scalarMultBase ik'.secretKey ∧ x' = P.scalarMultBase ik.secretKey) := by
  cases h with
  | initiated _ hv hw =>
      cases h' with
      | initiated _ _ hw' =>
          rcases hfree.scalarMult_inj hw hw' with ⟨hpub, rfl⟩ | ⟨hdrawn, -⟩
          · exact Or.inl ⟨rfl, _, _, hpub⟩
          · exact absurd hdrawn (hx _)
      | responded _ _ hv' hw' =>
          refine Or.inr ⟨?_, ?_⟩
          · rcases hfree.scalarMult_inj hw hw' with ⟨hpub, -⟩ | ⟨hown, -⟩
            · exact absurd hpub.symm (hik' _)
            · exact hown
          · rcases hfree.scalarMult_inj hv hv' with ⟨hpub, -⟩ | ⟨-, hown⟩
            · exact absurd hpub (hik _)
            · exact hown
  | responded _ _ hv hw =>
      cases h' with
      | initiated _ hv' hw' =>
          refine Or.inr ⟨?_, ?_⟩
          · rcases hfree.scalarMult_inj hv hv' with ⟨hpub, -⟩ | ⟨hown, -⟩
            · exact absurd hpub.symm (hik' _)
            · exact hown
          · rcases hfree.scalarMult_inj hw hw' with ⟨hpub, -⟩ | ⟨-, hown⟩
            · exact absurd hpub (hik _)
            · exact hown
      | responded _ _ hv' _ =>
          rcases hfree.scalarMult_inj hv hv' with ⟨hpub, rfl⟩ | ⟨hdrawn, -⟩
          · exact Or.inl ⟨rfl, _, _, hpub⟩
          · exact absurd hdrawn (hx _)

/-! ## Calls that use no key -/

/-- `used` are the message keys that were used with the peer `k`, whose identity key is `x`. -/
structure Dealings (P : Primitives B S) (E : Entropy B) (exported : B → Prop) (x : B) (k : S)
    (h : Host B S) (used : List B) : Prop where
  signedPreKeys : ∀ spk ∈ h.store.signedPreKeys, ∃ d < h.draws,
    exported (P.scalarMultBase (E.secretKey d)) ∧ spk.keyPair = keyPairOf P (E.secretKey d)
  made : ∀ key ∈ used, ∃ dhs, Contacted P E exported h.store.identity.encryptionKey h.draws x dhs ∧
    ∃ j i, KeyAt P dhs j i key
  session : ∀ s, h.store.getSession P k = some s → ∃ dhs top st n,
    Contacted P E exported h.store.identity.encryptionKey h.draws x dhs ∧
      Placed P E dhs top st n s ∧ ∀ key ∈ used, ¬ Open P dhs top st n s key
  noSession : h.store.getSession P k = none → used = []

variable {k : S} {h h' : Host B S} {used : List B}

/-- A call that keeps the session keeps the used keys. -/
theorem Dealings.frame (hd : Dealings P E exported x k h used)
    (hid : h'.store.identity = h.store.identity)
    (hspk : ∀ spk ∈ h'.store.signedPreKeys, spk ∈ h.store.signedPreKeys ∨
      ∃ d < h'.draws, exported (P.scalarMultBase (E.secretKey d)) ∧
        spk.keyPair = keyPairOf P (E.secretKey d))
    (hsession : h'.store.getSession P k = h.store.getSession P k) (hdraws : h.draws ≤ h'.draws) :
    Dealings P E exported x k h' used where
  signedPreKeys spk hmem := by
    rcases hspk spk hmem with hold | hnew
    · obtain ⟨d, hlt, hkey⟩ := hd.signedPreKeys spk hold
      exact ⟨d, Nat.lt_of_lt_of_le hlt hdraws, hkey⟩
    · exact hnew
  made key hkey := by
    obtain ⟨dhs, hcontact, hat⟩ := hd.made key hkey
    rw [hid]
    exact ⟨dhs, hcontact.mono (fun _ => id) hdraws, hat⟩
  session s hs := by
    rw [hsession] at hs
    obtain ⟨dhs, top, st, n, hcontact, hplaced, hclosed⟩ := hd.session s hs
    rw [hid]
    exact ⟨dhs, top, st, n, hcontact.mono (fun _ => id) hdraws, hplaced, hclosed⟩
  noSession := by
    rw [hsession]
    exact hd.noSession

/-- A call that keeps the store keeps the used keys. -/
theorem Dealings.frame_store (hd : Dealings P E exported x k h used) (hstore : h'.store = h.store)
    (hdraws : h.draws ≤ h'.draws) : Dealings P E exported x k h' used := by
  refine hd.frame (by rw [hstore]) ?_ (by rw [hstore]) hdraws
  intro spk hmem
  rw [hstore] at hmem
  exact Or.inl hmem

/-- A call about another peer keeps the used keys. -/
theorem Dealings.frame_call (hd : Dealings P E exported x k h used) {k' : S}
    (hframe : CallFrame P k' h h') (hne : P.toLowerCase k ≠ P.toLowerCase k') :
    Dealings P E exported x k h' used := by
  refine hd.frame hframe.identity ?_ (hframe.sessions _ hne) hframe.draws
  intro spk hmem
  rw [hframe.signedPreKeys] at hmem
  exact Or.inl hmem

/-- The used keys are kept under the lower-cased key. -/
theorem Dealings.congr_key {k' : S} (hd : Dealings P E exported x k h used)
    (hkey : P.toLowerCase k = P.toLowerCase k') : Dealings P E exported x k' h used := by
  have hsession : h.store.getSession P k' = h.store.getSession P k := by
    rw [SignalStore.getSession, ← hkey, SignalStore.getSession]
  refine ⟨hd.signedPreKeys, hd.made, ?_, ?_⟩
  · rw [hsession]
    exact hd.session
  · rw [hsession]
    exact hd.noSession

/-- Used keys may be forgotten. -/
theorem Dealings.of_subset {used' : List B} (hd : Dealings P E exported x k h used)
    (hsub : ∀ key ∈ used', key ∈ used) : Dealings P E exported x k h used' where
  signedPreKeys := hd.signedPreKeys
  made key hkey := hd.made key (hsub key hkey)
  session s hs := by
    obtain ⟨dhs, top, st, n, hcontact, hplaced, hclosed⟩ := hd.session s hs
    exact ⟨dhs, top, st, n, hcontact, hplaced, fun key hkey => hclosed key (hsub key hkey)⟩
  noSession hnone := by
    apply List.eq_nil_iff_forall_not_mem.2
    intro key hkey
    have hused := hsub key hkey
    rw [hd.noSession hnone] at hused
    cases hused

/-- More prekeys may be exported. -/
theorem Dealings.mono_exported (hd : Dealings P E exported x k h used)
    (hexported : ∀ key, exported key → exported' key) : Dealings P E exported' x k h used where
  signedPreKeys spk hmem := by
    obtain ⟨d, hlt, hspk, hkey⟩ := hd.signedPreKeys spk hmem
    exact ⟨d, hlt, hexported _ hspk, hkey⟩
  made key hkey := by
    obtain ⟨dhs, hcontact, hat⟩ := hd.made key hkey
    exact ⟨dhs, hcontact.mono hexported (Nat.le_refl _), hat⟩
  session s hs := by
    obtain ⟨dhs, top, st, n, hcontact, hplaced, hclosed⟩ := hd.session s hs
    exact ⟨dhs, top, st, n, hcontact.mono hexported (Nat.le_refl _), hplaced, hclosed⟩
  noSession := hd.noSession

/-- `generatePreKeyBundle` keeps the used keys, when the prekey it draws counts as exported. -/
theorem Dealings.generatePreKeyBundle [DecidableEq S] (hd : Dealings P E exported x k h used)
    {count : Nat} {r : Except (EngineError S) (PreKeyBundle S)}
    (hexported : ∀ bundle, r = .ok bundle → exported (P.scalarMultBase (E.secretKey h.draws)))
    (hrun : (Crypto.generatePreKeyBundle P count).run P E h = (r, h')) :
    Dealings P E exported x k h' used := by
  rcases run_generatePreKeyBundle_cases P E count h with ⟨e, hfail⟩ | ⟨signatureHex, -, hok⟩
  · rw [hfail] at hrun
    cases hrun
    exact hd.frame_store rfl (Nat.le_add_right _ _)
  · rw [hok] at hrun
    cases hrun
    have hlater : h.draws < h.draws + 3 + 2 * count := by omega
    refine hd.frame (SignalStore.identity_withBundle P E _ _ _ _) ?_
      (SignalStore.getSession_withBundle P E _ _ _ _ _) (Nat.le_of_lt hlater)
    intro spk hmem
    simp only [SignalStore.withBundle, SignalStore.signedPreKeys_withOneTimePreKeys,
      SignalStore.saveSignedPreKey] at hmem
    rcases Rows.mem_of_mem_upsert SignedPreKey.keyId hmem with rfl | hold
    · exact Or.inr ⟨h.draws, hlater, hexported _ rfl, rfl⟩
    · exact Or.inl hold

variable [DecidableEq S]

/-- A session in which no used key is open may be saved. -/
theorem Dealings.saveSession (hd : Dealings P E exported x k h used) {s : SessionRecord B S}
    {top st n : Nat}
    (hcontact : Contacted P E exported h.store.identity.encryptionKey h.draws x dhs)
    (hplaced : Placed P E dhs top st n s) (hclosed : ∀ key ∈ used, ¬ Open P dhs top st n s key) :
    Dealings P E exported x k { h with store := h.store.saveSession P k s } used where
  signedPreKeys := hd.signedPreKeys
  made := hd.made
  session s' hs' := by
    rw [SignalStore.getSession_saveSession_self] at hs'
    cases hs'
    exact ⟨dhs, top, st, n, hcontact, hplaced, hclosed⟩
  noSession hnone := by
    rw [SignalStore.getSession_saveSession_self] at hnone
    cases hnone

/-- A key that was open and that the saved session has closed is a used one from now on, and was
none before. -/
theorem Dealings.use (hd : Dealings P E exported x k h used) {s s' : SessionRecord B S}
    {top top' st st' n n' : Nat} {key : B}
    (hcontact : Contacted P E exported h.store.identity.encryptionKey h.draws x dhs)
    (hclosed : ∀ key' ∈ used, ¬ Open P dhs top st n s key') (hopen : Open P dhs top st n s key)
    (hat : ∃ j i, KeyAt P dhs j i key) (hplaced' : Placed P E dhs top' st' n' s')
    (hgone : ¬ Open P dhs top' st' n' s' key)
    (hless : ∀ key', Open P dhs top' st' n' s' key' → Open P dhs top st n s key') :
    key ∉ used ∧
      Dealings P E exported x k { h with store := h.store.saveSession P k s' } (key :: used) := by
  refine ⟨fun hused => hclosed key hused hopen, hd.signedPreKeys, ?_, ?_, ?_⟩
  · intro key' hkey'
    rcases List.mem_cons.1 hkey' with rfl | hold
    · exact ⟨dhs, hcontact, hat⟩
    · exact hd.made key' hold
  · intro s'' hs''
    rw [SignalStore.getSession_saveSession_self] at hs''
    cases hs''
    refine ⟨dhs, top', st', n', hcontact, hplaced', ?_⟩
    intro key' hkey'
    rcases List.mem_cons.1 hkey' with rfl | hold
    · exact hgone
    · exact fun hopen' => hclosed key' hold (hless key' hopen')
  · intro hnone
    rw [SignalStore.getSession_saveSession_self] at hnone
    cases hnone

/-! ## Calls that use a key -/

variable {top st n : Nat} {s s' : SessionRecord B S}

omit [DecidableEq S] in
/-- The key a message is sealed with was open. -/
theorem Placed.open_of_sealed (hs : Placed P E dhs top st n s') (hP : P.Lawful)
    (hfree : P.FreeTerms) {chainHex : S}
    (hchain : Crypto.ensureSendChain P s' = .ok (s, chainHex)) {c : B}
    (hc : P.hexToBytes chainHex = .ok c) : Open P dhs top st n s' (kdfChain P c).messageKey := by
  obtain ⟨hsend, st', n', hplaced, hless⟩ := hs.ensureSendChain hP hchain
  obtain ⟨-, hkey, -, -⟩ := hplaced.sealedWith hP hfree hsend hc 0
  have hat : OpenAt s top st' n' st' s.sendSequenceNumber :=
    Or.inr (Or.inr ⟨by simp [hsend], rfl, Nat.le_refl _⟩)
  exact hless _ (.ahead hkey hat)

/-- The key a session selects was open. -/
theorem Placed.open_of_selects (hs : Placed P E dhs top st n s) (hP : P.Lawful)
    (hfree : P.FreeTerms) {m : EncryptedMessage S} {draw : Nat} {key : B}
    {saved : Nat → SessionRecord B S} (hsel : Selects P s m (E.secretKey draw) key saved) :
    Open P dhs top st n s key := by
  cases hsel with
  | skipped hfound hkey =>
      obtain ⟨k, i, b, rfl, -, -⟩ := hs.skipped _ _ hfound
      rw [hP.hexToBytes_bytesToHex] at hkey
      cases hkey
      exact .stored hfound
  | @head s₁ chainHex c _ hmove hchain hc =>
      obtain ⟨top', st', n', hplaced, hless⟩ := hs.headerMove hP hfree hmove
      obtain ⟨-, hkey, -, -⟩ := hplaced.headTaken hP hfree hchain hc 0
      have hat : OpenAt s₁ top' st' n' top' s₁.receiveSequenceNumber :=
        Or.inr (Or.inl ⟨by simp [hchain], rfl, Nat.le_refl _⟩)
      exact hless _ (.ahead hkey hat)

/-- `initiateSession` on a bundle with the peer's identity key sets up a session of its own. -/
theorem Dealings.initiateSession (hd : Dealings P E exported x k h used) (hP : P.Lawful)
    (hfree : P.FreeTerms) (hE : E.Fresh P)
    (hx : used ≠ [] → PeerKey P E h.store.identity.encryptionKey x)
    {bundle : PreKeyBundle S} (hkey : P.hexToBytes bundle.identityKeyHex = .ok x)
    {r : Except (EngineError S) (SessionRecord B S)}
    (hrun : (Crypto.initiateSession P k bundle).run P E h = (r, h')) :
    Dealings P E exported x k h' used := by
  rcases run_initiateSession_cases P E k bundle h with
    ⟨e, h₁, hfail, hstore, hdraws⟩ | ⟨dhs, initialDh, hin⟩
  · rw [hfail] at hrun
    cases hrun
    exact hd.frame_store hstore hdraws
  · rw [run_initiateSession_of_inputs hin] at hrun
    cases hrun
    obtain ⟨ikB, spkB, hik, -, hdhs, -⟩ := hin.keys
    cases hik.symm.trans hkey
    obtain ⟨v, w, rest, rfl, hv, hw⟩ := initiatorDhs_cons hdhs
    have hlater : Dealings P E exported x k { h with draws := h.draws + 3 } used :=
      hd.frame_store rfl (Nat.le_add_right _ _)
    have hplaced : Placed P E (v :: w :: rest) 0 0 1 (initiatedSession P bundle
        (kdfRoot P (masterSecret P (v :: w :: rest)) initialDh) (keyPairOf P (E.secretKey h.draws))
        (E.now (h.draws + 1)) (E.now (h.draws + 2))) :=
      placed_initiatedSession hP bundle hin.dhValues initialDh h.draws _ _
    refine hlater.saveSession (.initiated (Nat.lt_add_of_pos_right (by omega)) hv hw) hplaced ?_
    intro key hused hopen
    -- a used key belongs to a session set up before
    obtain ⟨dhs', hcontact, j, i, hat⟩ := hd.made key hused
    obtain ⟨j', i', hat'⟩ := hplaced.keyAt_of_open hP hopen
    have hpeer := hx (List.ne_nil_of_mem hused)
    exact hcontact.ne_initiated hfree hE hpeer hw (hat'.unique hfree hat).1

/-- `encrypt` throws, or seals its message under a new key. -/
theorem Dealings.encrypt (hd : Dealings P E exported x k h used) (hP : P.Lawful)
    (hfree : P.FreeTerms) {plaintext : S} {context : Option InitialBundleContext}
    {r : Except (EngineError S) (EncryptedMessage S)}
    (hrun : (Crypto.encrypt P k plaintext context).run P E h = (r, h')) :
    ((∃ e, r = .error e) ∧ Dealings P E exported x k h' used) ∨
      ∃ m nonce key, r = .ok m ∧ key ∉ used ∧ Dealings P E exported x k h' (key :: used) ∧
        m.ciphertext = P.toBase64 (P.secretbox (P.textEncode plaintext) nonce key) := by
  rcases run_encrypt_cases P E k plaintext context h with
    ⟨e, hfail⟩ | ⟨stored, s, chainHex, c, hstored, hchain, hc, hok⟩
  · rw [hfail] at hrun
    cases hrun
    exact Or.inl ⟨⟨e, rfl⟩, hd⟩
  · rw [hok] at hrun
    cases hrun
    obtain ⟨dhs, top, st, n, hcontact, hplaced, hclosed⟩ := hd.session stored hstored
    have hopen := hplaced.open_of_sealed hP hfree hchain hc
    obtain ⟨st', n', hplaced', hat, hgone, hless⟩ :=
      hplaced.sealedOnce hP hfree hchain hc (E.now h.draws)
    obtain ⟨hnew, hused⟩ := hd.use hcontact hclosed hopen hat hplaced' hgone hless
    exact Or.inr ⟨_, _, _, rfl, hnew, hused.frame_store rfl (Nat.le_add_right _ _), rfl⟩

/-- What `decrypt` leaves: it throws, or opens the message under a new key. -/
def Dealings.Decrypted (P : Primitives B S) (E : Entropy B) (exported : B → Prop) (x : B) (k : S)
    (used : List B) (m : EncryptedMessage S) (r : Except (EngineError S) S) (h' : Host B S) :
    Prop :=
  ((∃ e, r = .error e) ∧ Dealings P E exported x k h' used) ∨
    ∃ t key, r = .ok t ∧ key ∉ used ∧ Dealings P E exported x k h' (key :: used) ∧
      decryptWithKey P m key = .ok t

theorem Dealings.decryptInSession (hd : Dealings P E exported x k h used) (hP : P.Lawful)
    (hfree : P.FreeTerms) (hs : h.store.getSession P k = some s) {m : EncryptedMessage S}
    {r : Except (EngineError S) S}
    (hrun : (Crypto.decryptInSession P k m s).run P E h = (r, h')) :
    Dealings.Decrypted P E exported x k used m r h' := by
  rcases run_decryptInSession_cases P E k m s h with
    ⟨e, h₁, hfail, hstore, hdraws, -⟩ | ⟨key, saved, hsel⟩
  · rw [hfail] at hrun
    cases hrun
    exact Or.inl ⟨⟨e, rfl⟩, hd.frame_store hstore hdraws⟩
  · obtain ⟨now, draws, hok, hdraws, -⟩ := run_decryptInSession_of_selects (k := k) hsel
    rw [hok] at hrun
    cases hrun
    obtain ⟨dhs, top, st, n, hcontact, hplaced, hclosed⟩ := hd.session s hs
    have hopen := hplaced.open_of_selects hP hfree hsel
    obtain ⟨hat, top', st', n', hsaved⟩ := hplaced.selects hP hfree hsel
    obtain ⟨hplaced', hgone, hless⟩ := hsaved now
    cases hbox : decryptWithKey P m key with
    | error e =>
        -- the session is saved although the box did not open
        have hkept := hd.saveSession hcontact hplaced' fun key' hused hopen' =>
          hclosed key' hused (hless key' hopen')
        exact Or.inl ⟨⟨e, rfl⟩, hkept.frame_store rfl hdraws⟩
    | ok t =>
        obtain ⟨hnew, hused⟩ := hd.use hcontact hclosed hopen hat hplaced' hgone hless
        exact Or.inr ⟨t, key, rfl, hnew, hused.frame_store rfl hdraws, hbox⟩

/-- `decrypt` of a message that names the peer's identity key, if any. -/
theorem Dealings.decrypt (hd : Dealings P E exported x k h used) (hP : P.Lawful)
    (hfree : P.FreeTerms) {m : EncryptedMessage S}
    (hnamed : ∀ hex, m.initialIdentityKeyHex = some hex → P.hexToBytes hex = .ok x)
    {r : Except (EngineError S) S} (hrun : (Crypto.decrypt P k m).run P E h = (r, h')) :
    Dealings.Decrypted P E exported x k used m r h' := by
  cases hs : h.store.getSession P k with
  | some s =>
      rw [run_decrypt_of_session P E hs] at hrun
      exact hd.decryptInSession hP hfree hs hrun
  | none =>
      rcases run_initiateBobSession_cases P E k m h with
        ⟨e, hfail, -⟩ | ⟨e, ikA, ekA, spk, hfail, -⟩ | ⟨dhs, initialDh, hin⟩
      · rw [run_decrypt_of_refused hs hfail] at hrun
        cases hrun
        exact Or.inl ⟨⟨e, rfl⟩, hd⟩
      · rw [run_decrypt_of_refused hs hfail] at hrun
        cases hrun
        refine Or.inl ⟨⟨e, rfl⟩, hd.frame (by simp) ?_ (by simp) (Nat.le_refl _)⟩
        intro spk hmem
        rw [SignalStore.signedPreKeys_withoutNamed] at hmem
        exact Or.inl hmem
      · have hresponded := run_initiateBobSession_of_inputs (E := E) (k := k) hin
        rw [run_decrypt_of_responded hs hresponded] at hrun
        obtain ⟨ikA, ekA, spk, remoteDh, hcontact, hdhs, -, -⟩ := hin.contact
        obtain ⟨ikHex, hikHex, hik⟩ := hcontact.identityKey
        cases hik.symm.trans (hnamed ikHex hikHex)
        obtain ⟨d, hlt, hspk, hkey⟩ :=
          hd.signedPreKeys spk (List.argmax_mem hcontact.signedPreKey)
        obtain ⟨v, w, rest, rfl, hv, hw⟩ := responderDhs_cons hdhs
        rw [hkey] at hv
        have htaken : Dealings P E exported x k
            { store := h.store.withoutNamed m.oneTimePreKeyId, draws := h.draws + 3 } used := by
          refine hd.frame (by simp) ?_ (by simp) (Nat.le_add_right _ _)
          intro spk hmem
          rw [SignalStore.signedPreKeys_withoutNamed] at hmem
          exact Or.inl hmem
        have hplaced := placed_respondedSession (E := E) hP k m hin.dhValues initialDh h.draws
          (E.now (h.draws + 1)) (E.now (h.draws + 2))
        have hparties : Contacted P E exported
            (h.store.withoutNamed m.oneTimePreKeyId).identity.encryptionKey (h.draws + 3) x
            (v :: w :: rest) := by
          rw [SignalStore.identity_withoutNamed]
          exact .responded (Nat.lt_of_lt_of_le hlt (Nat.le_add_right _ _)) hspk hv hw
        have hstart := htaken.saveSession hparties hplaced (by
          -- nothing was used with a peer without a session
          rw [hd.noSession hs]
          simp)
        refine hstart.decryptInSession hP hfree ?_ hrun
        exact SignalStore.getSession_saveSession_self P _ _ _

end TorE2EE.Crypto
