import TorE2EE.Crypto.Dealings

/-!
# Any number of devices on a network

Every device has its identity, its store and its draws, and the network delivers whatever it likes:
`initiateSession` may be given any bundle and `decrypt` any message. The devices keep to two rules
of the orchestrator (`NetworkStep.ByClient`): a session is initiated under the identity key of the
bundle, as `importContact` does, and a message that names an identity key is decrypted under that
key, as `handleIncomingMessage` and `processIncomingEnvelope` do.

`Network.Sound` keeps the dealings of every device with every peer, and the run lemma
`Network.Sound.run` carries it through any number of steps of any devices.
-/

set_option autoImplicit false

namespace TorE2EE.Crypto

open TorE2EE.Foundation

variable {U B S : Type}

/-- The identities of the devices and what they draw. Linked devices may share an identity. -/
structure Devices (U B S : Type) where
  identity : U → UserIdentity B S
  entropy : U → Entropy B

/-- The key pairs of the devices: no key is drawn twice, and no identity key is drawn. -/
structure Devices.Distinct (P : Primitives B S) (D : Devices U B S) : Prop where
  identity : ∀ u, (D.identity u).encryptionKey.WellFormed P
  length : ∀ u d, P.length ((D.entropy u).secretKey d) = 32
  nonce : ∀ u d, P.length ((D.entropy u).randomBytes d 24) = 24
  drawn : ∀ {u d u' d'}, P.scalarMultBase ((D.entropy u).secretKey d) =
    P.scalarMultBase ((D.entropy u').secretKey d') → u = u' ∧ d = d'
  apart : ∀ u u' d, P.scalarMultBase (D.identity u).encryptionKey.secretKey ≠
    P.scalarMultBase ((D.entropy u').secretKey d)

/-- The identity key a device publishes. -/
def Devices.identityKeyHex (D : Devices U B S) (u : U) : S :=
  (D.identity u).encryptionKey.publicKeyHex

theorem Devices.Distinct.fresh {P : Primitives B S} {D : Devices U B S} (hD : D.Distinct P)
    (hP : P.Lawful) (u : U) : (D.entropy u).Fresh P where
  length := hD.length u
  nonce := hD.nonce u
  distinct heq := (hD.drawn (hP.bytesToHex_inj heq)).2

/-- Two spellings of one key decode alike. -/
theorem Primitives.Lawful.hexToBytes_congr {P : Primitives B S} (hP : P.Lawful) {k k' : S}
    (h : P.toLowerCase k = P.toLowerCase k') (b : B) :
    P.hexToBytes k = .ok b ↔ P.hexToBytes k' = .ok b := by
  rw [← hP.hexToBytes_toLowerCase, h, hP.hexToBytes_toLowerCase]

/-- A message a device sealed, with the key it was asked to seal for. -/
structure Letter (U S : Type) where
  sender : U
  recipientIdentityKeyHex : S
  plaintext : S
  message : EncryptedMessage S
  deriving DecidableEq

/-- A message a device opened, with the key it was asked to open it under. -/
structure Receipt (U S : Type) where
  receiver : U
  senderIdentityKeyHex : S
  plaintext : S
  message : EncryptedMessage S
  deriving DecidableEq

/-- The hosts of the devices, and what they have put on the network. The receipts are what the
devices have accepted, the latest first. -/
structure Network (U B S : Type) where
  host : U → Host B S
  bundles : List (PreKeyBundle S)
  answers : List S
  letters : List (Letter U S)
  receipts : List (Receipt U S)

/-- The calls of the devices. `answer` is the reply to a challenge of a relay, and `draw` a draw
outside the engine, of a message id or the time. Sessions are initiated as `importContact` does,
under the identity key of the bundle. -/
inductive NetworkStep (U B S : Type) where
  | draw (u : U)
  | generate (u : U) (count : Nat)
  | answer (u : U) (nonceHex : S)
  | initiate (u : U) (bundle : PreKeyBundle S)
  | encrypt (u : U) (recipientIdentityKeyHex plaintext : S) (context : Option InitialBundleContext)
  | decrypt (u : U) (senderIdentityKeyHex : S) (message : EncryptedMessage S)

/-- What the orchestrator sees to, besides initiating sessions under the identity key of the bundle:
a message that names an identity key is decrypted under it. -/
def NetworkStep.ByClient (P : Primitives B S) : NetworkStep U B S → Prop
  | .decrypt _ k m => ∀ hex, m.initialIdentityKeyHex = some hex → k = P.toLowerCase hex
  | _ => True

namespace Network

variable [DecidableEq U] [DecidableEq S] (P : Primitives B S) (D : Devices U B S)

/-- The network after a call of `u` left the host `h`. -/
def withHost (x : Network U B S) (u : U) (h : Host B S) : Network U B S :=
  { x with host := Function.update x.host u h }

/-- One step. -/
def step (x : Network U B S) : NetworkStep U B S → Network U B S
  | .draw u => x.withHost u { x.host u with draws := (x.host u).draws + 1 }
  | .generate u count =>
      match (generatePreKeyBundle P count).run P (D.entropy u) (x.host u) with
      | (.ok bundle, h) => { x.withHost u h with bundles := bundle :: x.bundles }
      | (.error _, h) => x.withHost u h
  | .answer u nonceHex =>
      match signChallenge P nonceHex (x.host u).store.identity.signingKey.secretKey with
      | .ok signatureHex => { x with answers := signatureHex :: x.answers }
      | .error _ => x
  | .initiate u bundle =>
      x.withHost u
        ((initiateSession P bundle.identityKeyHex bundle).run P (D.entropy u) (x.host u)).2
  | .encrypt u k plaintext context =>
      match (Crypto.encrypt P k plaintext context).run P (D.entropy u) (x.host u) with
      | (.ok message, h) =>
          { x.withHost u h with
            letters :=
              { sender := u, recipientIdentityKeyHex := k, plaintext, message } :: x.letters }
      | (.error _, h) => x.withHost u h
  | .decrypt u k message =>
      match (Crypto.decrypt P k message).run P (D.entropy u) (x.host u) with
      | (.ok plaintext, h) =>
          { x.withHost u h with
            receipts :=
              { receiver := u, senderIdentityKeyHex := k, plaintext, message } :: x.receipts }
      | (.error _, h) => x.withHost u h

/-- A run of steps. -/
def run (x : Network U B S) (steps : List (NetworkStep U B S)) : Network U B S :=
  steps.foldl (fun x a => x.step P D a) x

/-- Every device has its identity and an empty store, and nothing was sent. -/
structure Unused (x : Network U B S) : Prop where
  identity : ∀ u, (x.host u).store.identity = D.identity u
  signedPreKeys : ∀ u, (x.host u).store.signedPreKeys = []
  sessions : ∀ u k, (x.host u).store.getSession P k = none
  bundles : x.bundles = []
  answers : x.answers = []
  letters : x.letters = []
  receipts : x.receipts = []

/-- A public key that a bundle of the network names as signed prekey. -/
def Exported (x : Network U B S) (key : B) : Prop :=
  ∃ b ∈ x.bundles, b.signedPreKey.publicKeyHex = P.bytesToHex key

/-- The session of `u` with the peer `k`. -/
def session (x : Network U B S) (u : U) (k : S) : Option (SessionRecord B S) :=
  (x.host u).store.getSession P k

/-- The letters of `u` to the peer `k`. -/
def lettersTo (x : Network U B S) (u : U) (k : S) : List (Letter U S) :=
  x.letters.filter fun l =>
    l.sender = u ∧ P.toLowerCase l.recipientIdentityKeyHex = P.toLowerCase k

/-- What `u` has accepted from the peer `k`. -/
def receiptsFrom (x : Network U B S) (u : U) (k : S) : List (Receipt U S) :=
  x.receipts.filter fun r =>
    r.receiver = u ∧ P.toLowerCase r.senderIdentityKeyHex = P.toLowerCase k

/-! ## What a step leaves alone -/

variable {P D} {x : Network U B S} {u w : U} {h : Host B S}

omit [DecidableEq S] in
@[simp] theorem host_withHost_self (x : Network U B S) (u : U) (h : Host B S) :
    (x.withHost u h).host u = h := by
  simp [withHost]

omit [DecidableEq S] in
theorem host_withHost_of_ne (hne : w ≠ u) (x : Network U B S) (h : Host B S) :
    (x.withHost u h).host w = x.host w := by
  simp [withHost, Function.update_of_ne hne]

end Network

/-- The device that makes a step. -/
def NetworkStep.caller : NetworkStep U B S → U
  | .draw u => u
  | .generate u _ => u
  | .answer u _ => u
  | .initiate u _ => u
  | .encrypt u _ _ _ => u
  | .decrypt u _ _ => u

/-- The letter is sealed under `key`. -/
def Letter.SealedWith (P : Primitives B S) (l : Letter U S) (key : B) : Prop :=
  ∃ nonce, l.message.ciphertext = P.toBase64 (P.secretbox (P.textEncode l.plaintext) nonce key)

/-- The receipt was opened under `key`. -/
def Receipt.OpenedWith (P : Primitives B S) (r : Receipt U S) (key : B) : Prop :=
  decryptWithKey P r.message key = .ok r.plaintext

namespace Network

variable [DecidableEq U] [DecidableEq S] {P : Primitives B S} {D : Devices U B S}
  {x : Network U B S} {u w : U}

omit [DecidableEq U] [DecidableEq S] in
theorem exported_cons {y : Network U B S} {key : B} (b : PreKeyBundle S) (h : x.Exported P key) :
    Exported P { y with bundles := b :: x.bundles } key := by
  obtain ⟨b', hb', hkey⟩ := h
  exact ⟨b', List.mem_cons_of_mem _ hb', hkey⟩

/-- Two networks are the same for the device `w`, up to new bundles. -/
structure SameFor (P : Primitives B S) (w : U) (x x' : Network U B S) : Prop where
  host : x'.host w = x.host w
  exported : ∀ key, x.Exported P key → x'.Exported P key
  letters : ∀ k, x'.lettersTo P w k = x.lettersTo P w k
  receipts : ∀ k, x'.receiptsFrom P w k = x.receiptsFrom P w k

/-- A step is the same for every device but the one that makes it. -/
theorem sameFor_step (x : Network U B S) (a : NetworkStep U B S) (hne : w ≠ a.caller) :
    SameFor P w x (x.step P D a) := by
  have hhost (h : Host B S) : (x.withHost a.caller h).host w = x.host w :=
    host_withHost_of_ne hne x h
  cases a with
  | draw u => exact ⟨hhost _, fun _ => id, fun _ => rfl, fun _ => rfl⟩
  | generate u count =>
      simp only [step]
      split
      · exact ⟨hhost _, fun _ => exported_cons _, fun _ => rfl, fun _ => rfl⟩
      · exact ⟨hhost _, fun _ => id, fun _ => rfl, fun _ => rfl⟩
  | answer u nonceHex =>
      simp only [step]
      split
      · exact ⟨rfl, fun _ => id, fun _ => rfl, fun _ => rfl⟩
      · exact ⟨rfl, fun _ => id, fun _ => rfl, fun _ => rfl⟩
  | initiate u bundle => exact ⟨hhost _, fun _ => id, fun _ => rfl, fun _ => rfl⟩
  | encrypt u k plaintext context =>
      have hu : u ≠ w := Ne.symm hne
      simp only [step]
      split
      · exact ⟨hhost _, fun _ => id, fun k' => by simp [lettersTo, hu], fun _ => rfl⟩
      · exact ⟨hhost _, fun _ => id, fun _ => rfl, fun _ => rfl⟩
  | decrypt u k message =>
      have hu : u ≠ w := Ne.symm hne
      simp only [step]
      split
      · exact ⟨hhost _, fun _ => id, fun _ => rfl, fun k' => by simp [receiptsFrom, hu]⟩
      · exact ⟨hhost _, fun _ => id, fun _ => rfl, fun _ => rfl⟩

/-! ## The ledger of a device and a peer -/

variable (P D) in
/-- The keys of the letters to a peer and of the receipts from it: no two are the same, and all of
them are used. -/
structure Ledger (x : Network U B S) (u : U) (k : S) (peerKey : B)
    (sealedWith openedWith : List B) : Prop where
  dealings : Dealings P (D.entropy u) (x.Exported P) peerKey k (x.host u) (sealedWith ++ openedWith)
  nodup : (sealedWith ++ openedWith).Nodup
  letters : List.Forall₂ (Letter.SealedWith P) (x.lettersTo P u k) sealedWith
  receipts : List.Forall₂ (Receipt.OpenedWith P) (x.receiptsFrom P u k) openedWith

variable (P D) in
/-- The devices keep their identities, and there is a ledger for every device and every peer. -/
structure Sound (x : Network U B S) : Prop where
  identity : ∀ u, (x.host u).store.identity = D.identity u
  ledger : ∀ u k peerKey, P.hexToBytes k = .ok peerKey →
    PeerKey P (D.entropy u) (D.identity u).encryptionKey peerKey →
    ∃ sealedWith openedWith, x.Ledger P D u k peerKey sealedWith openedWith

variable {k : S} {peerKey : B} {sealedWith openedWith : List B}

theorem Unused.sound (hx : x.Unused P D) : x.Sound P D where
  identity := hx.identity
  ledger u k peerKey _ _ := by
    refine ⟨[], [], ⟨?_, ?_, ?_, ?_⟩, List.nodup_nil, ?_, ?_⟩
    · simp [hx.signedPreKeys]
    · simp
    · simp [hx.sessions]
    · simp
    · simp [lettersTo, hx.letters]
    · simp [receiptsFrom, hx.receipts]

theorem Ledger.sameFor (hl : x.Ledger P D w k peerKey sealedWith openedWith) {x' : Network U B S}
    (hsame : SameFor P w x x') : x'.Ledger P D w k peerKey sealedWith openedWith where
  dealings := by
    rw [hsame.host]
    exact hl.dealings.mono_exported hsame.exported
  nodup := hl.nodup
  letters := by
    rw [hsame.letters]
    exact hl.letters
  receipts := by
    rw [hsame.receipts]
    exact hl.receipts

variable {x' : Network U B S} {h : Host B S}

/-- A call that seals and opens nothing for the peer. -/
theorem Ledger.of_call (hl : x.Ledger P D u k peerKey sealedWith openedWith) (hhost : x'.host u = h)
    (hd : Dealings P (D.entropy u) (x'.Exported P) peerKey k h (sealedWith ++ openedWith))
    (hletters : x'.lettersTo P u k = x.lettersTo P u k)
    (hreceipts : x'.receiptsFrom P u k = x.receiptsFrom P u k) :
    x'.Ledger P D u k peerKey sealedWith openedWith where
  dealings := by
    rw [hhost]
    exact hd
  nodup := hl.nodup
  letters := by
    rw [hletters]
    exact hl.letters
  receipts := by
    rw [hreceipts]
    exact hl.receipts

/-- A call that seals a letter to the peer under a new key. -/
theorem Ledger.of_letter (hl : x.Ledger P D u k peerKey sealedWith openedWith)
    (hhost : x'.host u = h) {l : Letter U S} {key : B} (hnew : key ∉ sealedWith ++ openedWith)
    (hd : Dealings P (D.entropy u) (x'.Exported P) peerKey k h (key :: (sealedWith ++ openedWith)))
    (hsealed : l.SealedWith P key) (hletters : x'.lettersTo P u k = l :: x.lettersTo P u k)
    (hreceipts : x'.receiptsFrom P u k = x.receiptsFrom P u k) :
    x'.Ledger P D u k peerKey (key :: sealedWith) openedWith where
  dealings := by
    rw [hhost]
    exact hd
  nodup := List.nodup_cons.2 ⟨hnew, hl.nodup⟩
  letters := by
    rw [hletters]
    exact .cons hsealed hl.letters
  receipts := by
    rw [hreceipts]
    exact hl.receipts

/-- A call that opens a message of the peer under a new key. -/
theorem Ledger.of_receipt (hl : x.Ledger P D u k peerKey sealedWith openedWith)
    (hhost : x'.host u = h) {r : Receipt U S} {key : B} (hnew : key ∉ sealedWith ++ openedWith)
    (hd : Dealings P (D.entropy u) (x'.Exported P) peerKey k h (key :: (sealedWith ++ openedWith)))
    (hopened : r.OpenedWith P key) (hletters : x'.lettersTo P u k = x.lettersTo P u k)
    (hreceipts : x'.receiptsFrom P u k = r :: x.receiptsFrom P u k) :
    x'.Ledger P D u k peerKey sealedWith (key :: openedWith) where
  dealings := by
    rw [hhost]
    refine hd.of_subset fun key' hkey' => ?_
    simp only [List.mem_cons, List.mem_append] at hkey' ⊢
    tauto
  nodup := by
    refine List.perm_middle.nodup_iff.2 ?_
    exact List.nodup_cons.2 ⟨hnew, hl.nodup⟩
  letters := by
    rw [hletters]
    exact hl.letters
  receipts := by
    rw [hreceipts]
    exact .cons hopened hl.receipts

/-! ## Runs -/

variable (P D) in
/-- The caller of a step has a ledger with every peer after it. -/
def CallerLedger (x : Network U B S) (a : NetworkStep U B S) : Prop :=
  ∀ k peerKey, P.hexToBytes k = .ok peerKey →
    PeerKey P (D.entropy a.caller) (D.identity a.caller).encryptionKey peerKey →
    ∃ sealedWith openedWith,
      (x.step P D a).Ledger P D a.caller k peerKey sealedWith openedWith

/-- A step keeps the identity of its caller. -/
theorem identity_step (x : Network U B S) (a : NetworkStep U B S) (u : U) :
    ((x.step P D a).host u).store.identity = (x.host u).store.identity := by
  -- A step runs on its caller's host alone, and no call of the engine writes the identity.
  by_cases hu : u = a.caller
  · subst hu
    cases a with
    | draw u => simp only [step, NetworkStep.caller, host_withHost_self]
    | generate u count =>
        simp only [step, NetworkStep.caller]
        rcases run_generatePreKeyBundle_cases P (D.entropy u) count (x.host u) with
          ⟨e, hfail⟩ | ⟨signatureHex, -, hok⟩
        · rw [hfail]
          simp
        · rw [hok]
          simp [withHost]
    | answer u nonceHex =>
        simp only [step, NetworkStep.caller]
        split <;> rfl
    | initiate u bundle =>
        simp only [step, NetworkStep.caller, host_withHost_self]
        obtain ⟨r, h, hrun⟩ : ∃ r h, (initiateSession P bundle.identityKeyHex bundle).run P
          (D.entropy u) (x.host u) = (r, h) := ⟨_, _, rfl⟩
        rw [hrun]
        exact (callFrame_initiateSession hrun).identity
    | encrypt u k plaintext context =>
        simp only [step, NetworkStep.caller]
        split
        · next hrun => simpa [withHost] using (callFrame_encrypt hrun).identity
        · next hrun => simpa [withHost] using (callFrame_encrypt hrun).identity
    | decrypt u k message =>
        simp only [step, NetworkStep.caller]
        split
        · next hrun => simpa [withHost] using (callFrame_decrypt hrun).identity
        · next hrun => simpa [withHost] using (callFrame_decrypt hrun).identity
  · rw [(sameFor_step (P := P) (D := D) x a hu).host]

theorem callerLedger_draw (hx : x.Sound P D) (u : U) : CallerLedger P D x (.draw u) := by
  intro k peerKey hk hpeer
  obtain ⟨sealedWith, openedWith, hl⟩ := hx.ledger u k peerKey hk hpeer
  refine ⟨sealedWith, openedWith, ?_⟩
  exact hl.of_call (host_withHost_self _ _ _) (hl.dealings.frame_store rfl (Nat.le_succ _)) rfl rfl

theorem callerLedger_generate (hx : x.Sound P D) (u : U) (count : Nat) :
    CallerLedger P D x (.generate u count) := by
  intro k peerKey hk hpeer
  obtain ⟨sealedWith, openedWith, hl⟩ := hx.ledger u k peerKey hk hpeer
  refine ⟨sealedWith, openedWith, ?_⟩
  rcases run_generatePreKeyBundle_cases P (D.entropy u) count (x.host u) with
    ⟨e, hfail⟩ | ⟨signatureHex, -, hok⟩
  · have hd := hl.dealings.generatePreKeyBundle (fun _ h => by cases h) hfail
    simp only [step, NetworkStep.caller, hfail]
    exact hl.of_call (host_withHost_self _ _ _) hd rfl rfl
  · -- the bundle that is exported names the prekey just drawn
    have hd := (hl.dealings.mono_exported fun key =>
      exported_cons (y := x) (exportedBundle P (D.entropy u) (x.host u).store.identity signatureHex
        (x.host u).draws count)).generatePreKeyBundle
          (fun _ _ => ⟨_, List.mem_cons_self, rfl⟩) hok
    simp only [step, NetworkStep.caller, hok]
    exact hl.of_call (host_withHost_self _ _ _) hd rfl rfl

theorem callerLedger_answer (hx : x.Sound P D) (u : U) (nonceHex : S) :
    CallerLedger P D x (.answer u nonceHex) := by
  intro k peerKey hk hpeer
  obtain ⟨sealedWith, openedWith, hl⟩ := hx.ledger u k peerKey hk hpeer
  refine ⟨sealedWith, openedWith, ?_⟩
  simp only [step, NetworkStep.caller]
  split
  · exact hl.of_call rfl hl.dealings rfl rfl
  · exact hl

theorem callerLedger_initiate (hx : x.Sound P D) (hP : P.Lawful) (hfree : P.FreeTerms)
    (hD : D.Distinct P) (u : U) (bundle : PreKeyBundle S) :
    CallerLedger P D x (.initiate u bundle) := by
  intro k peerKey hk hpeer
  obtain ⟨sealedWith, openedWith, hl⟩ := hx.ledger u k peerKey hk hpeer
  refine ⟨sealedWith, openedWith, ?_⟩
  obtain ⟨r, h, hrun⟩ : ∃ r h, (initiateSession P bundle.identityKeyHex bundle).run P (D.entropy u)
    (x.host u) = (r, h) := ⟨_, _, rfl⟩
  simp only [step, NetworkStep.caller, hrun]
  refine hl.of_call (host_withHost_self _ _ _) ?_ rfl rfl
  by_cases hkey : P.toLowerCase k = P.toLowerCase bundle.identityKeyHex
  · have hbundle : P.hexToBytes bundle.identityKeyHex = .ok peerKey :=
      (hP.hexToBytes_congr hkey _).1 hk
    have hid : (x.host u).store.identity = D.identity u := hx.identity u
    replace hpeer : PeerKey P (D.entropy u) (x.host u).store.identity.encryptionKey peerKey := by
      rw [hid]
      exact hpeer
    exact ((hl.dealings.congr_key hkey).initiateSession hP hfree (hD.fresh hP u) (fun _ => hpeer)
      hbundle hrun).congr_key hkey.symm
  · exact hl.dealings.frame_call (callFrame_initiateSession hrun) hkey

theorem callerLedger_encrypt (hx : x.Sound P D) (hP : P.Lawful) (hfree : P.FreeTerms) (u : U)
    (k₀ plaintext : S) (context : Option InitialBundleContext) :
    CallerLedger P D x (.encrypt u k₀ plaintext context) := by
  intro k peerKey hk hpeer
  obtain ⟨sealedWith, openedWith, hl⟩ := hx.ledger u k peerKey hk hpeer
  obtain ⟨r, h, hrun⟩ : ∃ r h, (Crypto.encrypt P k₀ plaintext context).run P (D.entropy u)
    (x.host u) = (r, h) := ⟨_, _, rfl⟩
  have hhost : (x.withHost u h).host u = h := host_withHost_self _ _ _
  simp only [step, NetworkStep.caller, hrun]
  by_cases hkey : P.toLowerCase k = P.toLowerCase k₀
  · rcases (hl.dealings.congr_key hkey).encrypt hP hfree hrun with
      ⟨⟨e, rfl⟩, hd⟩ | ⟨m, nonce, key, rfl, hnew, hd, hbox⟩
    · exact ⟨sealedWith, openedWith, hl.of_call hhost (hd.congr_key hkey.symm) rfl rfl⟩
    · have hsealed : Letter.SealedWith P (U := U) ⟨u, k₀, plaintext, m⟩ key := ⟨nonce, hbox⟩
      refine ⟨key :: sealedWith, openedWith, ?_⟩
      refine hl.of_letter (h := h) ?_ hnew (hd.congr_key hkey.symm) hsealed ?_ rfl
      · exact hhost
      · simp [lettersTo, hkey]
  · have hd := hl.dealings.frame_call (callFrame_encrypt hrun) hkey
    refine ⟨sealedWith, openedWith, ?_⟩
    cases r with
    | error e => exact hl.of_call hhost hd rfl rfl
    | ok m =>
        refine hl.of_call hhost hd ?_ rfl
        simp [lettersTo, Ne.symm hkey]

theorem callerLedger_decrypt (hx : x.Sound P D) (hP : P.Lawful) (hfree : P.FreeTerms) (u : U)
    (k₀ : S) (message : EncryptedMessage S)
    (hclient : NetworkStep.ByClient P (.decrypt u k₀ message : NetworkStep U B S)) :
    CallerLedger P D x (.decrypt u k₀ message) := by
  intro k peerKey hk hpeer
  obtain ⟨sealedWith, openedWith, hl⟩ := hx.ledger u k peerKey hk hpeer
  obtain ⟨r, h, hrun⟩ : ∃ r h, (Crypto.decrypt P k₀ message).run P (D.entropy u)
    (x.host u) = (r, h) := ⟨_, _, rfl⟩
  have hhost : (x.withHost u h).host u = h := host_withHost_self _ _ _
  simp only [step, NetworkStep.caller, hrun]
  by_cases hkey : P.toLowerCase k = P.toLowerCase k₀
  · have hnamed : ∀ hex, message.initialIdentityKeyHex = some hex →
        P.hexToBytes hex = .ok peerKey := by
      intro hex hhex
      rw [← hP.hexToBytes_toLowerCase, ← hclient hex hhex, ← hP.hexToBytes_congr hkey]
      exact hk
    rcases (hl.dealings.congr_key hkey).decrypt hP hfree hnamed hrun with
      ⟨⟨e, rfl⟩, hd⟩ | ⟨t, key, rfl, hnew, hd, hbox⟩
    · exact ⟨sealedWith, openedWith, hl.of_call hhost (hd.congr_key hkey.symm) rfl rfl⟩
    · have hopened : Receipt.OpenedWith P (U := U) ⟨u, k₀, t, message⟩ key := hbox
      refine ⟨sealedWith, key :: openedWith, ?_⟩
      refine hl.of_receipt (h := h) ?_ hnew (hd.congr_key hkey.symm) hopened rfl ?_
      · exact hhost
      · simp [receiptsFrom, hkey]
  · have hd := hl.dealings.frame_call (callFrame_decrypt hrun) hkey
    refine ⟨sealedWith, openedWith, ?_⟩
    cases r with
    | error e => exact hl.of_call hhost hd rfl rfl
    | ok t =>
        refine hl.of_call hhost hd rfl ?_
        simp [receiptsFrom, Ne.symm hkey]

/-- Every step keeps the ledgers. -/
theorem Sound.step (hx : x.Sound P D) (hP : P.Lawful) (hfree : P.FreeTerms) (hD : D.Distinct P)
    {a : NetworkStep U B S} (ha : a.ByClient P) : (x.step P D a).Sound P D where
  identity u := (identity_step x a u).trans (hx.identity u)
  ledger u k peerKey hk hpeer := by
    by_cases hu : u = a.caller
    · subst hu
      have hcaller : CallerLedger P D x a := by
        cases a with
        | draw u => exact callerLedger_draw hx u
        | generate u count => exact callerLedger_generate hx u count
        | answer u nonceHex => exact callerLedger_answer hx u nonceHex
        | initiate u bundle => exact callerLedger_initiate hx hP hfree hD u bundle
        | encrypt u k₀ plaintext context =>
            exact callerLedger_encrypt hx hP hfree u k₀ plaintext context
        | decrypt u k₀ message => exact callerLedger_decrypt hx hP hfree u k₀ message ha
      exact hcaller k peerKey hk hpeer
    · obtain ⟨sealedWith, openedWith, hl⟩ := hx.ledger u k peerKey hk hpeer
      exact ⟨sealedWith, openedWith, hl.sameFor (sameFor_step x a hu)⟩

/-- Every run keeps the ledgers. -/
theorem Sound.run (hx : x.Sound P D) (hP : P.Lawful) (hfree : P.FreeTerms) (hD : D.Distinct P)
    {steps : List (NetworkStep U B S)} (hsteps : ∀ a ∈ steps, a.ByClient P) :
    (x.run P D steps).Sound P D := by
  induction steps generalizing x with
  | nil => exact hx
  | cons a steps ih =>
      exact ih (hx.step hP hfree hD (hsteps a List.mem_cons_self)) fun a' ha' =>
        hsteps a' (List.mem_cons_of_mem _ ha')

/-! ## What is sent -/

end Network

/-- The plaintext of a call of `encrypt`, with its device and peer, keeps to `Q`. -/
def NetworkStep.Sends (Q : U → S → S → Prop) : NetworkStep U B S → Prop
  | .encrypt u k plaintext _ => Q u k plaintext
  | _ => True

namespace Network

/-- The letters keep to `Q`. -/
def Sent (Q : U → S → S → Prop) (x : Network U B S) : Prop :=
  ∀ l ∈ x.letters, Q l.sender l.recipientIdentityKeyHex l.plaintext

variable [DecidableEq U] [DecidableEq S] {P : Primitives B S} {D : Devices U B S}
  {x : Network U B S} {Q : U → S → S → Prop}

theorem Sent.step (hx : x.Sent Q) {a : NetworkStep U B S} (ha : a.Sends Q) :
    (x.step P D a).Sent Q := by
  cases a with
  | draw u => exact hx
  | generate u count =>
      simp only [Network.step]
      split <;> exact hx
  | answer u nonceHex =>
      simp only [Network.step]
      split <;> exact hx
  | initiate u bundle => exact hx
  | encrypt u k plaintext context =>
      simp only [Network.step]
      split
      · intro l hl
        rcases List.mem_cons.1 hl with rfl | hold
        · exact ha
        · exact hx l hold
      · exact hx
  | decrypt u k message =>
      simp only [Network.step]
      split <;> exact hx

/-- The letters of a run keep to what the calls keep to. -/
theorem Sent.run (hx : x.Sent Q) {steps : List (NetworkStep U B S)}
    (hsteps : ∀ a ∈ steps, a.Sends Q) : (x.run P D steps).Sent Q := by
  induction steps generalizing x with
  | nil => exact hx
  | cons a steps ih =>
      exact ih (hx.step (hsteps a List.mem_cons_self)) fun a' ha' =>
        hsteps a' (List.mem_cons_of_mem _ ha')

omit [DecidableEq U] [DecidableEq S] in
theorem Unused.sent (hx : x.Unused P D) : x.Sent Q := by
  intro l hl
  rw [hx.letters] at hl
  cases hl

end Network

end TorE2EE.Crypto
