import TorE2EE.Crypto.Attackers
import TorE2EE.Crypto.Publications

/-!
# What an attacker on the network learns

The devices run on symbolic terms, and the attacker is the network: it has seen everything the
devices have written (`Network.Published`), and it gives them bundles and messages of its choice.
The only keys it lacks are those of the devices (`Devices.Named`).

* `session_keys_secret`: the attacker comes to nothing a device keeps in a session with the identity
  key of another device.
* `letter_keys_secret`: nor to a message key a device has sealed with for such a peer.
* `plaintext_secret`: nor to a text the devices send to each other only.
-/

set_option autoImplicit false

namespace TorE2EE.Crypto

open TorE2EE.Foundation
open TorE2EE.Crypto.Sym

variable {U : Type} {D : Devices U Sym Sym} {N N' : Hidden} {leaked : Sym → Prop}

/-! ## The devices and the attacker -/

/-- The devices draw names the attacker lacks, and nonces. -/
structure Devices.Named (N : Hidden) (D : Devices U Sym Sym) : Prop where
  identity : ∀ u, ∃ n, N.keys n ∧ (D.identity u).encryptionKey = keyPairOf symbolic (name n)
  signing : ∀ u, ∃ t, (D.identity u).signingKey.publicKeyHex = hex (pub t)
  drawn : ∀ u d, ∃ n, N.keys n ∧ (D.entropy u).secretKey d = name n
  randomBytes : ∀ u d m, ∃ i, (D.entropy u).randomBytes d m = nonce i

/-- The strings the devices have put on the network. -/
inductive Network.Published (D : Devices U Sym Sym) (x : Network U Sym Sym) : Sym → Prop where
  | identityKey (u : U) : Published D x (D.identity u).encryptionKey.publicKeyHex
  | signingKey (u : U) : Published D x (D.identity u).signingKey.publicKeyHex
  | bundleIdentityKey {b : PreKeyBundle Sym} : b ∈ x.bundles → Published D x b.identityKeyHex
  | bundleSigningKey {b : PreKeyBundle Sym} : b ∈ x.bundles → Published D x b.signingKeyHex
  | signedPreKey {b : PreKeyBundle Sym} : b ∈ x.bundles → Published D x b.signedPreKey.publicKeyHex
  | signature {b : PreKeyBundle Sym} : b ∈ x.bundles → Published D x b.signedPreKey.signatureHex
  | oneTimePreKey {b : PreKeyBundle Sym} {otk : PublicOneTimePreKey Sym} : b ∈ x.bundles →
      b.oneTimePreKey = some otk → Published D x otk.publicKeyHex
  | answer {s : Sym} : s ∈ x.answers → Published D x s
  | ephemeral {l : Letter U Sym} : l ∈ x.letters → Published D x l.message.ephemeralPublicKeyHex
  | initialEphemeral {l : Letter U Sym} {s : Sym} : l ∈ x.letters →
      l.message.initialEphemeralKeyHex = some s → Published D x s
  | initialIdentity {l : Letter U Sym} {s : Sym} : l ∈ x.letters →
      l.message.initialIdentityKeyHex = some s → Published D x s
  | nonce {l : Letter U Sym} : l ∈ x.letters → Published D x l.message.nonce
  | ciphertext {l : Letter U Sym} : l ∈ x.letters → Published D x l.message.ciphertext

/-- What the attacker can come to once the devices have come to `x`. -/
def Network.Learned (N : Hidden) (D : Devices U Sym Sym) (x : Network U Sym Sym) : Sym → Prop :=
  Knows N (x.Published D)

/-- The boxes of the letters. -/
def Network.Sealed (x : Network U Sym Sym) (b : Sym) : Prop :=
  ∃ l ∈ x.letters, l.message.ciphertext = base64 b

/-! ## What is published is harmless -/

theorem harmless_keyHex (isSealed : Sym → Prop) (t : Sym) :
    Harmless N' leaked isSealed (keyPairOf symbolic t).publicKeyHex :=
  trivial

theorem harmless_of_signatureHex {isSealed : Sym → Prop} {s : Sym} (h : SignatureHex symbolic s) :
    Harmless N' leaked isSealed s := by
  obtain ⟨m, k, rfl⟩ := h
  trivial

theorem harmless_identityKey (hN : D.Named N) (isSealed : Sym → Prop) (u : U) :
    Harmless N' leaked isSealed (D.identity u).encryptionKey.publicKeyHex := by
  obtain ⟨n, -, hkey⟩ := hN.identity u
  rw [hkey]
  exact harmless_keyHex _ _

theorem harmless_signingKey (hN : D.Named N) (isSealed : Sym → Prop) (u : U) :
    Harmless N' leaked isSealed (D.identity u).signingKey.publicKeyHex := by
  obtain ⟨t, ht⟩ := hN.signing u
  rw [ht]
  trivial

variable {x : Network U Sym Sym}

/-- Everything the devices write is harmless, their boxes counted as such. -/
theorem Network.Written.harmless (hx : x.Written symbolic D) (hN : D.Named N) {t : Sym}
    (h : x.Published D t) : Harmless N' leaked x.Sealed t := by
  -- Public keys, signatures and nonces are harmless as they stand, a box because it is a letter's.
  cases h with
  | identityKey u => exact harmless_identityKey hN _ u
  | signingKey u => exact harmless_signingKey hN _ u
  | bundleIdentityKey hb =>
      obtain ⟨u, s, d, count, -, rfl⟩ := hx.bundles _ hb
      exact harmless_identityKey hN _ u
  | bundleSigningKey hb =>
      obtain ⟨u, s, d, count, -, rfl⟩ := hx.bundles _ hb
      exact harmless_signingKey hN _ u
  | signedPreKey hb =>
      obtain ⟨u, s, d, count, -, rfl⟩ := hx.bundles _ hb
      exact harmless_keyHex _ _
  | signature hb =>
      obtain ⟨u, s, d, count, hs, rfl⟩ := hx.bundles _ hb
      exact harmless_of_signatureHex hs
  | oneTimePreKey hb hotk =>
      obtain ⟨u, s, d, count, -, rfl⟩ := hx.bundles _ hb
      simp only [exportedBundle, Option.ite_none_left_eq_some, Option.some.injEq] at hotk
      obtain ⟨-, rfl⟩ := hotk
      exact harmless_keyHex _ _
  | answer hs => exact harmless_of_signatureHex (hx.answers _ hs)
  | ephemeral hl =>
      obtain ⟨d, hkey⟩ := (hx.letters _ hl).ephemeral
      rw [hkey]
      exact harmless_keyHex _ _
  | initialEphemeral hl hs =>
      obtain ⟨d, hkey⟩ := (hx.letters _ hl).ephemeral
      rw [(hx.letters _ hl).initialEphemeral, hkey] at hs
      cases hs
      exact harmless_keyHex _ _
  | initialIdentity hl hs =>
      rw [(hx.letters _ hl).initialIdentity] at hs
      cases hs
      exact harmless_identityKey hN _ _
  | nonce hl =>
      obtain ⟨d, key, hnonce, -⟩ := (hx.letters _ hl).box
      obtain ⟨i, hi⟩ := hN.randomBytes _ d 24
      rw [hnonce, hi]
      trivial
  | ciphertext hl =>
      obtain ⟨d, key, -, hbox⟩ := (hx.letters _ hl).box
      rw [hbox]
      exact Or.inl ⟨_, hl, hbox⟩

/-! ## Peers -/

/-- `k` is the identity key of another device. -/
def Devices.IsPeer (D : Devices U Sym Sym) (u : U) (k : Sym) : Prop :=
  ∃ v, k = D.identityKeyHex v ∧ D.identityKeyHex v ≠ D.identityKeyHex u

/-- The Diffie-Hellman values of a session with the key of another device contain a secret one. -/
theorem Contacted.secret {E : Entropy Sym} {exported : Sym → Prop}
    {ik : Curve25519KeyPair Sym Sym} {draws n : Nat} {dhs : List Sym}
    (h : Contacted symbolic E exported ik draws (pub (name n)) dhs) (hn : N.keys n)
    (hdrawn : ∀ d, ∃ m, N.keys m ∧ E.secretKey d = name m) : ∃ v ∈ dhs, Secret N leaked v := by
  cases h with
  | @initiated d spkB v w rest _ _ hw =>
      obtain ⟨m, hm, hname⟩ := hdrawn d
      rw [hname] at hw
      exact ⟨w, by simp, secret_scalarMult hm hn hw⟩
  | @responded d ekA v w rest _ _ hv _ =>
      obtain ⟨m, hm, hname⟩ := hdrawn d
      rw [hname] at hv
      exact ⟨v, by simp, secret_scalarMult hm hn hv⟩

/-- The key of another device, and what it is to this one. -/
theorem Devices.IsPeer.peerKey {u : U} {k : Sym} (h : D.IsPeer u k) (hD : D.Distinct symbolic)
    (hN : D.Named N) : ∃ n, N.keys n ∧ symbolic.hexToBytes k = .ok (pub (name n)) ∧
      PeerKey symbolic (D.entropy u) (D.identity u).encryptionKey (pub (name n)) ∧
      ∀ w d, pub (name n) ≠ symbolic.scalarMultBase ((D.entropy w).secretKey d) := by
  obtain ⟨v, rfl, hother⟩ := h
  obtain ⟨n, hn, hv⟩ := hN.identity v
  have hpub : symbolic.scalarMultBase (D.identity v).encryptionKey.secretKey = pub (name n) := by
    rw [hv]
    rfl
  have hdrawn : ∀ w d, pub (name n) ≠ symbolic.scalarMultBase ((D.entropy w).secretKey d) := by
    intro w d
    rw [← hpub]
    exact hD.apart v w d
  refine ⟨n, hn, ?_, ⟨hdrawn u, ?_, hD.apart u u⟩, hdrawn⟩
  · rw [Devices.identityKeyHex, hv]
    rfl
  · intro hown
    apply hother
    obtain ⟨m, -, hu⟩ := hN.identity u
    rw [Devices.identityKeyHex, Devices.identityKeyHex, hu, hv]
    rw [hu] at hown
    exact congrArg hex hown

variable [DecidableEq U]

/-- The message keys used with a peer are secret. -/
theorem Network.Sound.secret_used {u : U} {k : Sym} (hx : x.Sound symbolic D) (hN : D.Named N)
    (hpeer : D.IsPeer u k) (hD : D.Distinct symbolic) :
    ∃ peerKey sealedWith openedWith, x.Ledger symbolic D u k peerKey sealedWith openedWith ∧
      ∀ key ∈ sealedWith ++ openedWith, Secret N (fun _ => False) key := by
  obtain ⟨n, hn, hk, hkey, -⟩ := hpeer.peerKey hD hN
  obtain ⟨sealedWith, openedWith, hledger⟩ := hx.ledger u k _ hk hkey
  refine ⟨_, sealedWith, openedWith, hledger, ?_⟩
  intro key hused
  obtain ⟨dhs, hcontact, j, i, hat⟩ := hledger.dealings.made key hused
  obtain ⟨v, hmem, hv⟩ := hcontact.secret hn (hN.drawn u)
  exact hat.secret hmem hv (fun _ _ _ _ => id) (fun _ _ _ _ => id) id

omit [DecidableEq U] in
/-- An entry on the left has one on the right. -/
theorem exists_mem_of_forall₂ {α β : Type} {R : α → β → Prop} {l : List α} {l' : List β}
    (h : List.Forall₂ R l l') {a : α} (ha : a ∈ l) : ∃ b ∈ l', R a b := by
  induction h with
  | nil => cases ha
  | cons hab _ ih =>
      rcases List.mem_cons.1 ha with rfl | hrest
      · exact ⟨_, List.mem_cons_self, hab⟩
      · obtain ⟨b, hb, hR⟩ := ih hrest
        exact ⟨b, List.mem_cons_of_mem _ hb, hR⟩

/-- The key of a letter to a peer is secret. -/
theorem Network.Sound.secret_letter (hx : x.Sound symbolic D) (hN : D.Named N)
    (hD : D.Distinct symbolic) {l : Letter U Sym} (hl : l ∈ x.letters)
    (hpeer : D.IsPeer l.sender l.recipientIdentityKeyHex) {m n key : Sym}
    (hbox : l.message.ciphertext = base64 (box m n key)) : Secret N (fun _ => False) key := by
  obtain ⟨peerKey, sealedWith, openedWith, hledger, hsecret⟩ := hx.secret_used hN hpeer hD
  have hmem : l ∈ x.lettersTo symbolic l.sender l.recipientIdentityKeyHex := by
    simp [lettersTo, hl]
  obtain ⟨key', hused, nonce, hsealed⟩ := exists_mem_of_forall₂ hledger.letters hmem
  have hsame := hbox.symm.trans hsealed
  cases hsame
  exact hsecret _ (List.mem_append_left _ hused)

/-! ## What the attacker learns -/

/-- What is not for another device is a text the attacker has. -/
def Devices.Discreet (N : Hidden) (D : Devices U Sym Sym) (u : U) (k plaintext : Sym) : Prop :=
  D.IsPeer u k ∨ ∃ s, plaintext = text s ∧ ¬ N.texts s

/-- An attacker that has seen harmless terms only comes to such terms only. -/
theorem Network.harmless_of_seen (hwritten : x.Written symbolic D) (hsound : x.Sound symbolic D)
    (hdiscreet : x.Sent (D.Discreet N)) (hN : D.Named N) (hD : D.Distinct symbolic)
    {seen : Sym → Prop} (hseen : ∀ t, seen t → Harmless N (fun _ => False) x.Sealed t) {t : Sym}
    (h : Knows N seen t) : Harmless N (fun _ => False) x.Sealed t := by
  refine harmless_of_knows hseen ?_ h
  rintro m n k ⟨l, hl, hbox⟩
  rcases hdiscreet l hl with hpeer | ⟨s, hplain, hs⟩
  · exact Or.inr (hsound.secret_letter hN hD hl hpeer hbox)
  · obtain ⟨d, key, -, hformed⟩ := (hwritten.letters l hl).box
    have hsame := hbox.symm.trans hformed
    cases hsame
    refine Or.inl ?_
    rw [hplain]
    exact hs

/-- The attacker comes to harmless terms only. -/
theorem Network.harmless_of_learned (hwritten : x.Written symbolic D) (hsound : x.Sound symbolic D)
    (hdiscreet : x.Sent (D.Discreet N)) (hN : D.Named N) (hD : D.Distinct symbolic) {t : Sym}
    (h : x.Learned N D t) : Harmless N (fun _ => False) x.Sealed t :=
  Network.harmless_of_seen hwritten hsound hdiscreet hN hD (fun _ ht => hwritten.harmless hN ht) h

/-- Nothing a session record contains is harmless. -/
theorem Placed.secret_of_holds {E : Entropy Sym} {dhs : List Sym} {top st n : Nat}
    {s : SessionRecord Sym Sym} (h : Placed symbolic E dhs top st n s)
    (hdhs : ∃ v ∈ dhs, Secret N (fun _ => False) v)
    (hdrawn : ∀ d, ∃ m, N.keys m ∧ E.secretKey d = name m) {b : Sym} (hb : s.Holds symbolic b) :
    Secret N (fun _ => False) b := by
  obtain ⟨v, hmem, hv⟩ := hdhs
  cases hb with
  | root hroot =>
      obtain ⟨r, hr, hat⟩ := h.root
      cases hr.symm.trans hroot
      exact hat.secret hmem hv fun _ _ _ _ => id
  | sending hchain hdecode =>
      obtain ⟨c, rfl, hat⟩ := h.sending _ hchain
      cases hdecode
      exact hat.secret hmem hv (fun _ _ _ _ => id) fun _ _ _ _ => id
  | receiving hchain hdecode =>
      obtain ⟨c, rfl, hat⟩ := h.receiving _ hchain
      cases hdecode
      exact hat.secret hmem hv (fun _ _ _ _ => id) fun _ _ _ _ => id
  | skipped hfound hdecode =>
      obtain ⟨k, i, key, rfl, hat, -⟩ := h.skipped _ _ hfound
      cases hdecode
      exact hat.secret hmem hv (fun _ _ _ _ => id) (fun _ _ _ _ => id) id
  | secret =>
      obtain ⟨d, hd⟩ := h.secret
      obtain ⟨m, hm, hname⟩ := hdrawn d
      rw [hd]
      show Secret N (fun _ => False) (E.secretKey d)
      rw [hname]
      exact hm

/-! ## Secrecy in every run -/

/-- A device of a run: what it does not tell, whatever the network brings. -/
theorem Network.Unused.learned (hx : x.Unused symbolic D) (hD : D.Distinct symbolic)
    (hN : D.Named N) {steps : List (NetworkStep U Sym Sym)}
    (hsteps : ∀ a ∈ steps, a.ByClient symbolic ∧ a.Sends (D.Discreet N)) :
    (x.run symbolic D steps).Sound symbolic D ∧ ∀ t, (x.run symbolic D steps).Learned N D t →
      Harmless N (fun _ => False) (x.run symbolic D steps).Sealed t := by
  have hwritten := hx.written.run symbolic_lawful steps
  have hsound := hx.sound.run symbolic_lawful symbolic_freeTerms hD fun a ha => (hsteps a ha).1
  have hdiscreet := (hx.sent (Q := D.Discreet N)).run (P := symbolic) (D := D)
    fun a ha => (hsteps a ha).2
  exact ⟨hsound, fun t => Network.harmless_of_learned hwritten hsound hdiscreet hN hD⟩

/-- In every run of any number of devices by the rules of the orchestrator, whatever bundles and
messages the network gives them: the attacker comes to nothing a device keeps in a session with the
identity key of another device, and to no message key a letter to such a peer was sealed with. -/
theorem session_keys_secret (hD : D.Distinct symbolic) (hN : D.Named N)
    (hx : x.Unused symbolic D) {steps : List (NetworkStep U Sym Sym)}
    (hsteps : ∀ a ∈ steps, a.ByClient symbolic ∧ a.Sends (D.Discreet N)) {u : U} {k : Sym}
    (hpeer : D.IsPeer u k) :
    (∀ s b, (x.run symbolic D steps).session symbolic u k = some s → s.Holds symbolic b →
      ¬ (x.run symbolic D steps).Learned N D b) ∧
    ∀ l ∈ (x.run symbolic D steps).letters, l.sender = u → l.recipientIdentityKeyHex = k →
      ∀ key, SealedUnder symbolic l.message key → ¬ (x.run symbolic D steps).Learned N D key := by
  obtain ⟨hsound, hlearned⟩ := hx.learned hD hN hsteps
  constructor
  · intro s b hs hb hknown
    obtain ⟨n, hn, hk, hkey, -⟩ := hpeer.peerKey hD hN
    obtain ⟨sealedWith, openedWith, hledger⟩ := hsound.ledger u k _ hk hkey
    obtain ⟨dhs, top, st, m, hcontact, hplaced, -⟩ := hledger.dealings.session s hs
    have hsecret := hplaced.secret_of_holds (hcontact.secret hn (hN.drawn u)) (hN.drawn u) hb
    exact not_secret_of_harmless (hlearned b hknown) hsecret
  · rintro l hl rfl rfl key ⟨m, n, hbox⟩ hknown
    have hsecret := hsound.secret_letter hN hD hl hpeer hbox
    exact not_secret_of_harmless (hlearned key hknown) hsecret

/-- In every such run, the attacker comes to no text that it does not have from the start and that
the devices send to each other only. -/
theorem plaintext_secret (hD : D.Distinct symbolic) (hN : D.Named N)
    (hx : x.Unused symbolic D) {steps : List (NetworkStep U Sym Sym)}
    (hsteps : ∀ a ∈ steps, a.ByClient symbolic ∧ a.Sends (D.Discreet N)) {s : String}
    (hs : N.texts s) : ¬ (x.run symbolic D steps).Learned N D (text s) := by
  intro hknown
  exact (hx.learned hD hN hsteps).2 _ hknown hs

/-! ## Two devices -/

/-- The number of a device. -/
def Party.index : Party → Nat
  | .alice => 0
  | .bob => 1

/-- Two devices. The names and nonces they draw leave a third of all names to the attacker. -/
def symbolicDevices : Devices Party Sym Sym where
  identity p := symbolicIdentity p.index
  entropy p :=
    { secretKey := fun n => name (3 * n + 3 + p.index)
      randomBytes := fun n _ => nonce (2 * n + p.index)
      randomId := fun n => n
      now := fun n => n }

/-- What the attacker of the two devices lacks. -/
def symbolicHidden : Hidden where
  keys n := n % 3 ≠ 2
  signingKeys n := n < 2
  texts s := s = "meet at noon"

theorem symbolicDevices_distinct : symbolicDevices.Distinct symbolic where
  identity p := symbolicIdentity_wellFormed p.index
  length p d := rfl
  nonce p d := rfl
  drawn := by
    intro p d p' d' h
    have hname : 3 * d + 3 + p.index = 3 * d' + 3 + p'.index := name.inj (pub.inj h)
    cases p <;> cases p' <;> simp [Party.index] at hname ⊢ <;> omega
  apart := by
    intro p p' d h
    have hname : p.index = 3 * d + 3 + p'.index := name.inj (pub.inj h)
    cases p <;> cases p' <;> simp [Party.index] at hname

theorem symbolicDevices_named : symbolicDevices.Named symbolicHidden where
  identity p := by
    refine ⟨p.index, ?_, rfl⟩
    cases p <;> simp [symbolicHidden, Party.index]
  signing p := ⟨_, rfl⟩
  drawn p d := by
    refine ⟨3 * d + 3 + p.index, ?_, rfl⟩
    show (3 * d + 3 + p.index) % 3 ≠ 2
    cases p <;> simp only [Party.index] <;> omega
  randomBytes p d m := ⟨_, rfl⟩

/-- The two devices before their first calls. -/
def symbolicNetwork : Network Party Sym Sym where
  host p := { store := SignalStore.empty (symbolicIdentity p.index), draws := 0 }
  bundles := []
  answers := []
  letters := []
  receipts := []

theorem symbolicNetwork_unused : symbolicNetwork.Unused symbolic symbolicDevices :=
  ⟨fun _ => rfl, fun _ => rfl, fun _ _ => rfl, rfl, rfl, rfl, rfl⟩

/-- The bundle `bob` generates first. -/
def symbolicFirstBundle : PreKeyBundle Sym :=
  exportedBundle symbolic (symbolicDevices.entropy .bob) (symbolicIdentity 1)
    (hex (signature (pub (name 4)) (signingSecret 1))) 0 1

/-- `alice` initiates a session on `bob`'s bundle and sends her plan. -/
def symbolicPlan : List (NetworkStep Party Sym Sym) :=
  [.generate .bob 1, .initiate .alice symbolicFirstBundle,
    .encrypt .alice (hex (pub (name 1))) (text "meet at noon") none]

theorem symbolicPlan_rules : ∀ a ∈ symbolicPlan,
    a.ByClient symbolic ∧ a.Sends (symbolicDevices.Discreet symbolicHidden) := by
  intro a ha
  simp only [symbolicPlan, List.mem_cons, List.not_mem_nil, or_false] at ha
  rcases ha with rfl | rfl | rfl
  · exact ⟨trivial, trivial⟩
  · exact ⟨trivial, trivial⟩
  · exact ⟨trivial, Or.inl ⟨.bob, rfl, by decide⟩⟩

theorem session_keys_secret_symbolic :
    ∃ s, (symbolicNetwork.run symbolic symbolicDevices symbolicPlan).session symbolic .alice
        (hex (pub (name 1))) = some s ∧
      ¬ (symbolicNetwork.run symbolic symbolicDevices symbolicPlan).Learned symbolicHidden
        symbolicDevices s.localDhKeyPair.secretKey := by
  have hsome : ((symbolicNetwork.run symbolic symbolicDevices symbolicPlan).session symbolic .alice
      (hex (pub (name 1)))).isSome = true := by
    decide
  obtain ⟨s, hs⟩ := Option.isSome_iff_exists.1 hsome
  exact ⟨s, hs, (session_keys_secret symbolicDevices_distinct symbolicDevices_named
    symbolicNetwork_unused symbolicPlan_rules ⟨.bob, rfl, by decide⟩).1 s _ hs .secret⟩

theorem plaintext_secret_symbolic :
    ¬ (symbolicNetwork.run symbolic symbolicDevices symbolicPlan).Learned symbolicHidden
      symbolicDevices (text "meet at noon") :=
  plaintext_secret symbolicDevices_distinct symbolicDevices_named symbolicNetwork_unused
    symbolicPlan_rules rfl

end TorE2EE.Crypto
