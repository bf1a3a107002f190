import TorE2EE.Crypto.Authenticity
import TorE2EE.Crypto.RatchetKeys

/-!
# What the sessions give away

At the end of a run the attacker reads the session records of every device (`Network.Seized`). It
then comes to the message keys that follow from them, but not to the ones that were used before: a
key is closed in the two sessions it belongs to once its letter is accepted, and what a session
holds leads to open keys only. The lineage of the key has a Diffie-Hellman value of an identity key
and a signed prekey, which no session holds (`Network.Apart`).

`forward_secrecy`: an accepted letter stays secret when all sessions of all devices leak.
-/

set_option autoImplicit false

namespace TorE2EE.Crypto

open TorE2EE.Foundation

variable {U B S : Type}

/-! ## What leads to a message key -/

/-- The keys of a lineage the message key at position `i` of a chain of the `k`-th root key follows
from. -/
inductive Leads (P : Primitives B S) (dhs : List B) (k i : Nat) (key : B) : B → Prop where
  | root {j : Nat} {b : B} : j ≤ k → RootAt P dhs j b → Leads P dhs k i key b
  | chain {j : Nat} {b : B} : j ≤ i → ChainAt P dhs k j b → Leads P dhs k i key b
  | key : Leads P dhs k i key key

section Lineages

variable {P : Primitives B S} {E : Entropy B} {exported exported' : B → Prop}
  {ik ik' : Curve25519KeyPair B S} {draws draws' : Nat} {x x' : B} {dhs dhs' : List B}
  {top st n k i : Nat} {s : SessionRecord B S} {key b : B}

theorem OpenAt.of_le (h : OpenAt s top st n k i) {i' : Nat} (hle : i ≤ i') :
    OpenAt s top st n k i' := by
  induction hle with
  | refl => exact h
  | step _ ih => exact ih.succ

/-- A session that holds what leads to a message key has its lineage, and the key is open in it. -/
theorem Placed.open_of_leads (h : Placed P E dhs' top st n s) (hP : P.Lawful)
    (hfree : P.FreeTerms) {kind : B → KeyKind} (hk : KeyKinds P E kind) (hb : s.Holds P b)
    (hkey : KeyAt P dhs k i key) (hleads : Leads P dhs k i key b) :
    dhs = dhs' ∧ Open P dhs' top st n s key := by
  have hfits := h.fits_of_holds hP hfree hk hb
  have hopen : Open P dhs' top st n s key := by
    cases hleads with
    | root hle hat =>
        obtain ⟨rfl, hn⟩ := hfits.root dhs _ hat
        exact .ahead hkey (Or.inl (Nat.le_trans hn hle))
    | chain hle hat =>
        obtain ⟨rfl, hplace⟩ := hfits.chain dhs _ _ hat
        exact .ahead hkey (hplace.of_le hle)
    | key => exact hfits.message dhs k i hkey
  obtain ⟨k', i', hat⟩ := h.keyAt_of_open hP hopen
  exact ⟨(hkey.unique hfree hat).1, hopen⟩

/-- The only secret key a session holds is that of its key pair. -/
theorem Placed.eq_secretKey_of_holds (h : Placed P E dhs top st n s) (hP : P.Lawful)
    {kind : B → KeyKind} (hk : KeyKinds P E kind) (hb : s.Holds P b) (hkind : kind b = .secret) :
    b = s.localDhKeyPair.secretKey := by
  cases hb with
  | root hroot =>
      obtain ⟨r, hr, hat⟩ := h.root
      cases hr.symm.trans hroot
      rcases kind_of_rootAt hk hat with hroot' | hroot'
      · simp [hroot'] at hkind
      · simp [hroot'] at hkind
  | sending hchain hdecode =>
      obtain ⟨c, rfl, hat⟩ := h.sending _ hchain
      cases (hP.hexToBytes_bytesToHex c).symm.trans hdecode
      rcases kind_of_chainAt hk hat with hchain' | hchain'
      · simp [hchain'] at hkind
      · simp [hchain'] at hkind
  | receiving hchain hdecode =>
      obtain ⟨c, rfl, hat⟩ := h.receiving _ hchain
      cases (hP.hexToBytes_bytesToHex c).symm.trans hdecode
      rcases kind_of_chainAt hk hat with hchain' | hchain'
      · simp [hchain'] at hkind
      · simp [hchain'] at hkind
  | skipped hfound hdecode =>
      obtain ⟨_, _, key, rfl, hat, -⟩ := h.skipped _ _ hfound
      cases (hP.hexToBytes_bytesToHex key).symm.trans hdecode
      simp [kind_of_keyAt hk hat] at hkind
  | secret => rfl

/-- Of two devices with one lineage, one answered with a signed prekey it had exported. -/
theorem Contacted.exists_responded (hfree : P.FreeTerms) {E' : Entropy B}
    (h : Contacted P E exported ik draws x dhs) (h' : Contacted P E' exported' ik' draws' x' dhs)
    (hdrawn : ∀ d d', P.scalarMultBase (E.secretKey d) ≠ P.scalarMultBase (E'.secretKey d'))
    (hx : ∀ d, x ≠ P.scalarMultBase (E'.secretKey d)) :
    (∃ d, ∃ v ∈ dhs, exported (P.scalarMultBase (E.secretKey d)) ∧
        P.scalarMult (E.secretKey d) x = .ok v) ∨
      ∃ d, ∃ v ∈ dhs, exported' (P.scalarMultBase (E'.secretKey d)) ∧
        P.scalarMult (E'.secretKey d) x' = .ok v := by
  cases h with
  | responded _ hspk hv _ => exact Or.inl ⟨_, _, List.mem_cons_self, hspk, hv⟩
  | initiated _ _ hw =>
      cases h' with
      | responded _ hspk hv' _ => exact Or.inr ⟨_, _, List.mem_cons_self, hspk, hv'⟩
      | initiated _ _ hw' =>
          -- two initiators would have drawn one key
          rcases hfree.scalarMult_inj hw hw' with ⟨hpub, -⟩ | ⟨hpeer, -⟩
          · exact absurd hpub (hdrawn _ _)
          · exact absurd hpeer (hx _)

end Lineages

open TorE2EE.Crypto.Sym

theorem keyKinds_of_names {E : Entropy Sym} (hE : ∀ d, ∃ n, E.secretKey d = name n) :
    KeyKinds symbolic E symbolicKind where
  master := symbolic_keyKinds.master
  root := symbolic_keyKinds.root
  chain := symbolic_keyKinds.chain
  nextChain := symbolic_keyKinds.nextChain
  message := symbolic_keyKinds.message
  secret d := by
    obtain ⟨n, hn⟩ := hE d
    rw [hn]
    rfl

theorem Devices.Named.keyKinds {D : Devices U Sym Sym} {N : Hidden} (hN : D.Named N) (u : U) :
    KeyKinds symbolic (D.entropy u) symbolicKind := by
  refine keyKinds_of_names fun d => ?_
  obtain ⟨n, -, hn⟩ := hN.drawn u d
  exact ⟨n, hn⟩

theorem harmless_of_chainAt {N : Hidden} {leaked isSealed : Sym → Prop} {dhs : List Sym}
    {k i : Nat} {c : Sym} (h : ChainAt symbolic dhs k i c) (hc : leaked c) :
    Harmless N leaked isSealed c := by
  obtain ⟨r, d, -, rfl⟩ := h
  cases i with
  | zero => exact Or.inl hc
  | succ i =>
      rw [chainKeyAt_succ] at hc ⊢
      exact Or.inl hc

theorem KeyAt.secret_of_leads {N : Hidden} {leaked : Sym → Prop} {dhs : List Sym} {k i : Nat}
    {key v : Sym} (h : KeyAt symbolic dhs k i key) (hmem : v ∈ dhs) (hv : Secret N leaked v)
    (hkept : ∀ b, Leads symbolic dhs k i key b → ¬ leaked b) : Secret N leaked key :=
  h.secret hmem hv (fun _ hj _ hat => hkept _ (.root hj hat))
    (fun _ hj _ hat => hkept _ (.chain hj hat)) (hkept _ .key)

/-! ## What the attacker reads -/

namespace Network

/-- A session of some device contains `b`. -/
def Held (x : Network U Sym Sym) (b : Sym) : Prop :=
  ∃ u k s, x.session symbolic u k = some s ∧ s.Holds symbolic b

/-- What the attacker has seen once it has read the sessions of every device. -/
def Seized (D : Devices U Sym Sym) (x : Network U Sym Sym) (t : Sym) : Prop :=
  x.Published D t ∨ x.Held t

/-- A device has accepted the letter, in its session with a peer. -/
def Accepted (D : Devices U Sym Sym) (x : Network U Sym Sym) (l : Letter U Sym) : Prop :=
  ∃ r ∈ x.receipts, D.IsPeer r.receiver r.senderIdentityKeyHex ∧
    r.message.ciphertext = l.message.ciphertext

end Network

/-- What the attacker still lacks then. Of the texts it lacks those whose letters were accepted. -/
def Hidden.seized (N : Hidden) (D : Devices U Sym Sym) (x : Network U Sym Sym) : Hidden where
  keys n := N.keys n ∧ ¬ x.Held (name n)
  signingKeys := N.signingKeys
  texts s := N.texts s ∧ ∀ l ∈ x.letters, l.plaintext = text s → x.Accepted D l

theorem Hidden.seized_within (N : Hidden) (D : Devices U Sym Sym) (x : Network U Sym Sym) :
    (N.seized D x).Within N where
  keys _ h := h.1
  signingKeys _ h := h
  texts _ h := h.1

namespace Network

variable {D : Devices U Sym Sym} {N : Hidden} {x : Network U Sym Sym}

/-- A name a session holds is a draw of its device that no bundle names. -/
theorem ownDraw_of_holds (hapart : x.Apart symbolic D) (haddressed : x.Addressed symbolic D)
    (hN : D.Named N) {u : U} {k : Sym} {s : SessionRecord Sym Sym}
    (hs : x.session symbolic u k = some s) {n : Nat} (hn : s.Holds symbolic (name n)) :
    ∃ d, x.OwnDraw symbolic D u d ∧ (D.entropy u).secretKey d = name n := by
  obtain ⟨d, hd, hpair⟩ := (hapart.sessions u k s hs).drawn
  obtain ⟨peerKey, hk⟩ := haddressed.decodes u k s hs
  obtain ⟨dhs, top, st, m, -, hplaced, -⟩ := (haddressed.dealings u k peerKey hk).session s hs
  refine ⟨d, hd, ?_⟩
  rw [hplaced.eq_secretKey_of_holds symbolic_lawful (hN.keyKinds u) hn rfl, hpair]
  rfl

/-- What a session holds is a name or a derived key. -/
theorem harmless_of_held (hapart : x.Apart symbolic D) (haddressed : x.Addressed symbolic D)
    (hN : D.Named N) {isSealed : Sym → Prop} {b : Sym} (hb : x.Held b) :
    Harmless (N.seized D x) x.Held isSealed b := by
  obtain ⟨u, k, s, hs, hholds⟩ := id hb
  obtain ⟨peerKey, hk⟩ := haddressed.decodes u k s hs
  obtain ⟨dhs, top, st, m, -, hplaced, -⟩ := (haddressed.dealings u k peerKey hk).session s hs
  cases hholds with
  | root hroot =>
      obtain ⟨r, d, hhex⟩ := (hapart.sessions u k s hs).root
      rw [hhex] at hroot
      cases hroot
      exact Or.inl hb
  | sending hchain hdecode =>
      obtain ⟨c, rfl, hat⟩ := hplaced.sending _ hchain
      cases hdecode
      exact harmless_of_chainAt hat hb
  | receiving hchain hdecode =>
      obtain ⟨c, rfl, hat⟩ := hplaced.receiving _ hchain
      cases hdecode
      exact harmless_of_chainAt hat hb
  | skipped hfound hdecode =>
      obtain ⟨_, _, key, rfl, ⟨c, -, rfl⟩, -⟩ := hplaced.skipped _ _ hfound
      cases hdecode
      exact Or.inl hb
  | secret =>
      obtain ⟨d, hd⟩ := hplaced.secret
      obtain ⟨n, hn, hname⟩ := hN.drawn u d
      have hsecret : s.localDhKeyPair.secretKey = name n := by
        rw [hd]
        exact hname
      rw [hsecret] at hb ⊢
      exact fun h => h.2 hb

/-! ## The key of an accepted letter -/

variable (D N) in
/-- The device `u` has used `key` with the peer `k`: it is of a session that `u` had with `k`, and
nothing the session of the two holds now leads to it. -/
structure UsedAt (x : Network U Sym Sym) (u : U) (k : Sym) (dhs : List Sym) (j i : Nat)
    (key : Sym) : Prop where
  contacted : ∃ n draws, N.keys n ∧ symbolic.hexToBytes k = .ok (pub (name n)) ∧
    (∀ w d, pub (name n) ≠ symbolic.scalarMultBase ((D.entropy w).secretKey d)) ∧
    Contacted symbolic (D.entropy u) (x.Exported symbolic) (D.identity u).encryptionKey draws
      (pub (name n)) dhs
  closed : ∀ s b, x.session symbolic u k = some s → s.Holds symbolic b →
    ¬ Leads symbolic dhs j i key b

variable {u v : U} {k k' key : Sym} {dhs : List Sym} {j i : Nat}

/-- A signed prekey that was exported is held by no session. -/
theorem seized_keys_of_exported (hapart : x.Apart symbolic D) (haddressed : x.Addressed symbolic D)
    (hN : D.Named N) {d m : Nat} (hm : N.keys m)
    (hname : (D.entropy u).secretKey d = name m)
    (hexported : x.Exported symbolic (symbolic.scalarMultBase ((D.entropy u).secretKey d))) :
    (N.seized D x).keys m := by
  refine ⟨hm, ?_⟩
  rintro ⟨w, k, s, hs, hholds⟩
  obtain ⟨d', ⟨-, hnot⟩, hname'⟩ := ownDraw_of_holds hapart haddressed hN hs hholds
  rw [hname] at hexported
  rw [hname'] at hnot
  exact hnot hexported

/-- Nor is an identity key. -/
theorem seized_keys_of_peer (hapart : x.Apart symbolic D) (haddressed : x.Addressed symbolic D)
    (hN : D.Named N) {n : Nat} (hn : N.keys n)
    (hpeer : ∀ w d, pub (name n) ≠ symbolic.scalarMultBase ((D.entropy w).secretKey d)) :
    (N.seized D x).keys n := by
  refine ⟨hn, ?_⟩
  rintro ⟨w, k, s, hs, hholds⟩
  obtain ⟨d, -, hname⟩ := ownDraw_of_holds hapart haddressed hN hs hholds
  apply hpeer w d
  rw [hname]
  rfl

/-- The Diffie-Hellman value of the one that answered is secret. -/
theorem secret_of_responded (hapart : x.Apart symbolic D) (haddressed : x.Addressed symbolic D)
    (hN : D.Named N) {leaked : Sym → Prop} {n d : Nat} {t : Sym}
    (hn : N.keys n)
    (hpeer : ∀ w d, pub (name n) ≠ symbolic.scalarMultBase ((D.entropy w).secretKey d))
    (hexported : x.Exported symbolic (symbolic.scalarMultBase ((D.entropy u).secretKey d)))
    (hmul : symbolic.scalarMult ((D.entropy u).secretKey d) (pub (name n)) = .ok t) :
    Secret (N.seized D x) leaked t := by
  obtain ⟨m, hm, hname⟩ := hN.drawn u d
  have hspk := seized_keys_of_exported hapart haddressed hN hm hname hexported
  rw [hname] at hmul
  exact secret_scalarMult hspk (seized_keys_of_peer hapart haddressed hN hn hpeer) hmul

/-- A message key that two devices of different identities have used with each other is secret,
although their sessions are not. -/
theorem UsedAt.secret (h : x.UsedAt D N u k dhs j i key) (h' : x.UsedAt D N v k' dhs j i key)
    (hapart : x.Apart symbolic D) (haddressed : x.Addressed symbolic D) (hD : D.Distinct symbolic)
    (hN : D.Named N) (hk : k = D.identityKeyHex v) (hk' : k' = D.identityKeyHex u)
    (hne : k ≠ k') (hkey : KeyAt symbolic dhs j i key) : Secret (N.seized D x) x.Held key := by
  obtain ⟨n, draws, hn, hdecode, hpeer, hcontact⟩ := h.contacted
  obtain ⟨n', draws', hn', hdecode', hpeer', hcontact'⟩ := h'.contacted
  have hother : u ≠ v := by
    rintro rfl
    exact hne (hk.trans hk'.symm)
  have hsecret : ∃ t ∈ dhs, Secret (N.seized D x) x.Held t := by
    rcases hcontact.exists_responded symbolic_freeTerms hcontact'
        (fun d d' hsame => hother (hD.drawn hsame).1) (hpeer v) with
      ⟨d, t, hmem, hexported, hmul⟩ | ⟨d, t, hmem, hexported, hmul⟩
    · exact ⟨t, hmem, secret_of_responded hapart haddressed hN hn hpeer hexported hmul⟩
    · exact ⟨t, hmem, secret_of_responded hapart haddressed hN hn' hpeer' hexported hmul⟩
  obtain ⟨t, hmem, ht⟩ := hsecret
  refine hkey.secret_of_leads hmem ht ?_
  rintro b hleads ⟨w, k'', s, hs, hholds⟩
  -- a session with what leads to the key has its lineage, and is one of the two
  obtain ⟨x', hdecode''⟩ := haddressed.decodes w k'' s hs
  obtain ⟨dhs', top, st, m, hcontact'', hplaced, -⟩ :=
    (haddressed.dealings w k'' x' hdecode'').session s hs
  rw [haddressed.identity w] at hcontact''
  obtain ⟨rfl, -⟩ := hplaced.open_of_leads symbolic_lawful symbolic_freeTerms (hN.keyKinds w)
    hholds hkey hleads
  have hspelled {k₁ k₂ t : Sym} (h₁ : symbolic.hexToBytes k₁ = .ok t)
      (h₂ : symbolic.hexToBytes k₂ = .ok t) : k₁ = k₂ :=
    (eq_hex_of_hexToBytes h₁).trans (eq_hex_of_hexToBytes h₂).symm
  rcases hcontact.parties symbolic_freeTerms hcontact'' (hpeer w) (hD.apart u w) (hD.apart w u) with
    ⟨hsame, d, d', hdrawn⟩ | ⟨-, hback⟩
  · obtain ⟨rfl, -⟩ := hD.drawn hdrawn
    rw [← hsame] at hdecode''
    rw [hspelled hdecode'' hdecode] at hs
    exact h.closed s b hs hholds hleads
  · rcases hcontact'.parties symbolic_freeTerms hcontact'' (hpeer' w) (hD.apart v w)
        (hD.apart w v) with ⟨hsame, d, d', hdrawn⟩ | ⟨-, hback'⟩
    · obtain ⟨rfl, -⟩ := hD.drawn hdrawn
      rw [← hsame] at hdecode''
      rw [hspelled hdecode'' hdecode'] at hs
      exact h'.closed s b hs hholds hleads
    · apply hne
      rw [hk, hk', identityKeyHex_of_scalarMultBase hN, identityKeyHex_of_scalarMultBase hN,
        ← hback, ← hback']

variable [DecidableEq U] {peerKey : Sym} {sealedWith openedWith : List Sym}

/-- The keys of a ledger are used. -/
theorem Ledger.exists_usedAt (hl : x.Ledger symbolic D u k peerKey sealedWith openedWith)
    (haddressed : x.Addressed symbolic D) (hN : D.Named N) {n : Nat} (hn : N.keys n)
    (hk : symbolic.hexToBytes k = .ok (pub (name n))) (hpeerKey : peerKey = pub (name n))
    (hpeer : ∀ w d, pub (name n) ≠ symbolic.scalarMultBase ((D.entropy w).secretKey d))
    (hused : key ∈ sealedWith ++ openedWith) :
    ∃ dhs j i, KeyAt symbolic dhs j i key ∧ x.UsedAt D N u k dhs j i key := by
  subst hpeerKey
  obtain ⟨dhs, hcontact, j, i, hkey⟩ := hl.dealings.made key hused
  rw [haddressed.identity u] at hcontact
  refine ⟨dhs, j, i, hkey, ⟨n, _, hn, hk, hpeer, hcontact⟩, ?_⟩
  intro s b hs hholds hleads
  obtain ⟨dhs', top, st, m, -, hplaced, hclosed⟩ := hl.dealings.session s hs
  exact hclosed key hused (hplaced.open_of_leads symbolic_lawful symbolic_freeTerms
    (hN.keyKinds u) hholds hkey hleads).2

/-- The key of an accepted letter is secret, whatever the sessions hold. -/
theorem Accepted.secret {l : Letter U Sym} (haccepted : x.Accepted D l) (hl : l ∈ x.letters)
    (hsound : x.Sound symbolic D) (hapart : x.Apart symbolic D)
    (haddressed : x.Addressed symbolic D) (hD : D.Distinct symbolic) (hN : D.Named N)
    (hkey : SealedUnder symbolic l.message key) : Secret (N.seized D x) x.Held key := by
  obtain ⟨r, hr, hpeer, hsame⟩ := haccepted
  obtain ⟨n, hn, hk, hpeerKey, hdrawn⟩ := hpeer.peerKey hD hN
  obtain ⟨sealedWith, openedWith, hledger⟩ := hsound.ledger _ _ _ hk hpeerKey
  have hfrom : r ∈ x.receiptsFrom symbolic r.receiver r.senderIdentityKeyHex := by
    simp [receiptsFrom, hr]
  obtain ⟨key', hopened, hreceipt⟩ := exists_mem_of_forall₂ hledger.receipts hfrom
  obtain ⟨m, nonce, hbox, -⟩ := box_of_openedWith hreceipt
  rw [hsame] at hbox
  obtain ⟨hsender, hrecipient⟩ := letter_of_openedWith haddressed hD hN hk hpeerKey hdrawn hledger
    hopened hl hbox
  obtain ⟨m', nonce', hsealed⟩ := hkey
  cases hbox.symm.trans hsealed
  -- the same key in the ledger of the device that sealed the letter
  have hpeer' : D.IsPeer l.sender l.recipientIdentityKeyHex := by
    obtain ⟨w, hw, hne⟩ := hpeer
    refine ⟨r.receiver, hrecipient, ?_⟩
    rw [hsender, hw]
    exact hne.symm
  obtain ⟨n', hn', hk', hpeerKey', hdrawn'⟩ := hpeer'.peerKey hD hN
  obtain ⟨sealedWith', openedWith', hledger'⟩ := hsound.ledger _ _ _ hk' hpeerKey'
  have hto : l ∈ x.lettersTo symbolic l.sender l.recipientIdentityKeyHex := by
    simp [lettersTo, hl]
  obtain ⟨key'', hmem, nonce'', hletter⟩ := exists_mem_of_forall₂ hledger'.letters hto
  cases hbox.symm.trans hletter
  obtain ⟨dhs, j, i, hat, hused⟩ := hledger.exists_usedAt haddressed hN hn hk rfl hdrawn
    (List.mem_append_right _ hopened)
  obtain ⟨dhs', j', i', hat', hused'⟩ := hledger'.exists_usedAt haddressed hN hn' hk' rfl hdrawn'
    (List.mem_append_left _ hmem)
  obtain ⟨rfl, rfl, rfl⟩ := hat.unique symbolic_freeTerms hat'
  refine hused.secret hused' hapart haddressed hD hN hsender.symm hrecipient ?_ hat
  obtain ⟨w, hw, hne⟩ := hpeer
  rw [hrecipient, hw]
  exact hne

/-- What an attacker comes to that reads the sessions of every device. -/
theorem harmless_of_seized (hwritten : x.Written symbolic D) (hsound : x.Sound symbolic D)
    (hapart : x.Apart symbolic D) (haddressed : x.Addressed symbolic D)
    (hspoken : x.Sent fun _ _ plaintext => ∃ s, plaintext = text s) (hD : D.Distinct symbolic)
    (hN : D.Named N) {t : Sym} (h : Knows N (x.Seized D) t) :
    Harmless (N.seized D x) x.Held x.Sealed t := by
  refine harmless_of_knows ?_ ?_ (h.within (N.seized_within D x))
  · rintro t (hpublished | hheld)
    · exact hwritten.harmless hN hpublished
    · exact harmless_of_held hapart haddressed hN hheld
  · rintro m n k ⟨l, hl, hbox⟩
    obtain ⟨s, hs⟩ := hspoken l hl
    by_cases htext : (N.seized D x).texts s
    · exact Or.inr ((htext.2 l hl hs).secret hl hsound hapart haddressed hD hN ⟨m, n, hbox⟩)
    · obtain ⟨d, key, -, hformed⟩ := (hwritten.letters l hl).box
      cases hbox.symm.trans hformed
      refine Or.inl ?_
      rw [hs]
      exact htext

end Network

/-- Forward secrecy, in every run of any number of devices by the rules of the orchestrator, whatever
bundles and messages the network gives them: an attacker that in the end reads all sessions of all
devices comes neither to the message key of a letter that was accepted, nor to a text whose letters
were all accepted. -/
theorem forward_secrecy {D : Devices U Sym Sym} {N : Hidden} [DecidableEq U] {x : Network U Sym Sym}
    (hD : D.Distinct symbolic) (hN : D.Named N) (hx : x.Unused symbolic D)
    {steps : List (NetworkStep U Sym Sym)}
    (hsteps : ∀ a ∈ steps,
      a.ByClient symbolic ∧ a.Sends fun _ _ plaintext => ∃ s, plaintext = text s) :
    (∀ l ∈ (x.run symbolic D steps).letters, (x.run symbolic D steps).Accepted D l →
      ∀ key, SealedUnder symbolic l.message key →
        ¬ Knows N ((x.run symbolic D steps).Seized D) key) ∧
    ∀ s, N.texts s → (∀ l ∈ (x.run symbolic D steps).letters, l.plaintext = text s →
        (x.run symbolic D steps).Accepted D l) →
      ¬ Knows N ((x.run symbolic D steps).Seized D) (text s) := by
  have hwritten := hx.written.run symbolic_lawful steps
  have hsound := hx.sound.run symbolic_lawful symbolic_freeTerms hD fun a ha => (hsteps a ha).1
  have hapart := hx.apart.run symbolic_lawful hD steps
  have haddressed := hx.addressed.run symbolic_lawful symbolic_freeTerms hD fun a ha =>
    (hsteps a ha).1
  have hspoken := (hx.sent (Q := fun _ _ plaintext => ∃ s, plaintext = text s)).run (P := symbolic)
    (D := D) fun a ha => (hsteps a ha).2
  have hlearned {t : Sym} (h : Knows N ((x.run symbolic D steps).Seized D) t) :=
    Network.harmless_of_seized hwritten hsound hapart haddressed hspoken hD hN h
  refine ⟨?_, ?_⟩
  · intro l hl haccepted key hkey hknown
    exact not_secret_of_harmless (hlearned hknown)
      (haccepted.secret hl hsound hapart haddressed hD hN hkey)
  · intro s hs haccepted hknown
    exact hlearned hknown ⟨hs, haccepted⟩

/-! ## Two sessions that leak -/

theorem symbolicPlanHeard_texts :
    ∀ a ∈ symbolicPlanHeard, a.Sends fun _ _ plaintext => ∃ s, plaintext = text s := by
  intro a ha
  simp only [symbolicPlanHeard, symbolicPlan, List.mem_append, List.mem_cons, List.not_mem_nil,
    or_false, or_self] at ha
  rcases ha with (rfl | rfl | rfl) | rfl
  · trivial
  · trivial
  · exact ⟨_, rfl⟩
  · trivial

theorem forward_secrecy_symbolic :
    (∃ s b, (symbolicNetwork.run symbolic symbolicDevices symbolicPlanHeard).session symbolic .bob
        (hex (pub (name 0))) = some s ∧ s.Holds symbolic b) ∧
      ¬ Knows symbolicHidden ((symbolicNetwork.run symbolic symbolicDevices
        symbolicPlanHeard).Seized symbolicDevices) (text "meet at noon") := by
  refine ⟨?_, ?_⟩
  · have hsome : ((symbolicNetwork.run symbolic symbolicDevices symbolicPlanHeard).session symbolic
        .bob (hex (pub (name 0)))).isSome = true := by
      decide
    obtain ⟨s, hs⟩ := Option.isSome_iff_exists.1 hsome
    exact ⟨s, _, hs, .secret⟩
  · refine (forward_secrecy symbolicDevices_distinct symbolicDevices_named symbolicNetwork_unused
      fun a ha => ⟨(symbolicPlanHeard_rules a ha).1, symbolicPlanHeard_texts a ha⟩).2 _ rfl ?_
    have hreceived : ∀ l ∈ (symbolicNetwork.run symbolic symbolicDevices symbolicPlanHeard).letters,
        ∃ r ∈ (symbolicNetwork.run symbolic symbolicDevices symbolicPlanHeard).receipts,
          r.receiver = .bob ∧ r.senderIdentityKeyHex = hex (pub (name 0)) ∧
            r.message.ciphertext = l.message.ciphertext := by
      decide
    intro l hl _
    obtain ⟨r, hr, hreceiver, hsender, hct⟩ := hreceived l hl
    refine ⟨r, hr, ?_, hct⟩
    rw [hreceiver, hsender]
    exact ⟨.alice, rfl, by decide⟩

end TorE2EE.Crypto
