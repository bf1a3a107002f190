import TorE2EE.Client.Fleets
import TorE2EE.Crypto.Authenticity

/-!
# Clients end to end

A fleet over symbolic terms, and an attacker that is the network: it brings the clients envelopes and
contact URIs of its choice, and it sees their bundles, their answers to the relay, and every envelope
they send (`Fleet.Seen`; mailboxes aside). What the clients seal is for another client, or a text the
attacker has.

* `typed_texts_secret`: the attacker comes to no text that is typed for other clients only, and to
  nothing that a client keeps in a session with another one.
* `incoming_messages_authentic`: the incoming messages in a database that name another client as
  their sender are texts that client wrote to this one, each stored once, unless a self-sync has
  overwritten the body.
-/

set_option autoImplicit false

namespace TorE2EE.Client

open TorE2EE.Foundation TorE2EE.Crypto TorE2EE.Crypto.Sym

/-! ## The engine with signing keys of 32 bytes

`symbolicClient` and `symbolic` differ in the length of a public signing key. The engine asks for a
length when it signs, and nowhere else. -/

theorem skipLoop_symbolicClient : skipLoop symbolicClient = skipLoop symbolic := by
  funext remoteKeyHex n
  induction n with
  | zero => rfl
  | succ n ih =>
      funext chain received skipped
      rw [skipLoop, skipLoop, ih]
      rfl

theorem decrypt_symbolicClient : decrypt symbolicClient = decrypt symbolic := by
  have hskip : skipMessageKeys symbolicClient = skipMessageKeys symbolic := by
    funext session upTo
    rw [skipMessageKeys, skipMessageKeys, skipLoop_symbolicClient]
    rfl
  have hmove : moveToHeader symbolicClient = moveToHeader symbolic := by
    funext session message
    rw [moveToHeader, moveToHeader, hskip]
    rfl
  have hopen : decryptInSession symbolicClient = decryptInSession symbolic := by
    funext k message session
    rw [decryptInSession, decryptInSession, hmove]
    rfl
  funext k message
  rw [decrypt, decrypt, hopen]
  rfl

theorem saveOneTimePreKeys_symbolicClient :
    saveOneTimePreKeys symbolicClient = saveOneTimePreKeys symbolic := by
  funext n
  induction n with
  | zero => rfl
  | succ n ih =>
      funext first
      rw [saveOneTimePreKeys, saveOneTimePreKeys, ih]
      rfl

/-- A drawn public key has 32 bytes for both. -/
theorem signChallenge_symbolicClient (n : Nat) (secretKey : Sym) :
    signChallenge symbolicClient (hex (pub (name n))) secretKey =
      signChallenge symbolic (hex (pub (name n))) secretKey := by
  have hlength : symbolicClient.length secretKey = 64 ↔ symbolic.length secretKey = 64 := by
    cases secretKey with
    | pub t => cases t <;> simp [symbolicClient, symbolic, Sym.length, code]
    | _ => rfl
  by_cases h : symbolic.length secretKey = 64
  · rw [signChallenge, signChallenge, if_neg (not_not.2 h), if_neg (not_not.2 (hlength.2 h))]
    rfl
  · rw [signChallenge, signChallenge, if_pos h, if_pos (mt hlength.1 h)]
    rfl

theorem run_generatePreKeyBundle_symbolicClient {E : Entropy Sym} {h : Host Sym Sym} {n : Nat}
    (hn : E.secretKey h.draws = name n) (count : Nat) :
    (generatePreKeyBundle symbolicClient count).run symbolicClient E h =
      (generatePreKeyBundle symbolic count).run symbolic E h := by
  have hsign : signChallenge symbolicClient
      (keyPairOf symbolicClient (E.secretKey h.draws)).publicKeyHex
      h.store.identity.signingKey.secretKey =
        signChallenge symbolic (keyPairOf symbolic (E.secretKey h.draws)).publicKeyHex
          h.store.identity.signingKey.secretKey := by
    rw [hn]
    exact signChallenge_symbolicClient n _
  simp only [generatePreKeyBundle, EngineOp.handle, Program.run_bind, Program.run_perform,
    run_generateCurve25519KeyPair, hsign, saveOneTimePreKeys_symbolicClient, Program.run_ofExcept]
  rfl

variable {M : Type} [DecidableEq M] {D : Devices M Sym Sym} {N : Hidden}

/-- The network with other answers to the relays. -/
def withAnswers (x : Crypto.Network M Sym Sym) (answers : List Sym) : Crypto.Network M Sym Sym :=
  { x with answers }

/-- A step of both is the same, up to the answers. -/
theorem step_symbolicClient (hN : D.Named N) (x : Crypto.Network M Sym Sym) (answers : List Sym)
    (a : NetworkStep M Sym Sym) :
    ∃ steps answers', (∀ a' ∈ steps, a' = a) ∧
      (withAnswers x answers).step symbolicClient D a =
        withAnswers (x.run symbolic D steps) answers' := by
  cases a with
  | answer u nonceHex =>
      -- an answer is the one step that the network can do without
      refine ⟨[], ?_⟩
      simp only [Crypto.Network.step]
      split
      · exact ⟨_, by simp, rfl⟩
      · exact ⟨_, by simp, rfl⟩
  | draw u => exact ⟨[.draw u], answers, by simp, rfl⟩
  | generate u count =>
      refine ⟨[.generate u count], answers, by simp, ?_⟩
      obtain ⟨n, -, hn⟩ := hN.drawn u (x.host u).draws
      have hrun := run_generatePreKeyBundle_symbolicClient hn count
      simp only [Crypto.Network.run, List.foldl_cons, List.foldl_nil, Crypto.Network.step,
        withAnswers, hrun]
      split <;> rfl
  | initiate u bundle => exact ⟨[.initiate u bundle], answers, by simp, rfl⟩
  | encrypt u k plaintext context =>
      refine ⟨[.encrypt u k plaintext context], answers, by simp, ?_⟩
      have hrun : (encrypt symbolicClient k plaintext context).run symbolicClient (D.entropy u)
          (x.host u) = (encrypt symbolic k plaintext context).run symbolic (D.entropy u)
            (x.host u) := rfl
      simp only [Crypto.Network.run, List.foldl_cons, List.foldl_nil, Crypto.Network.step,
        withAnswers, hrun]
      split <;> rfl
  | decrypt u k message =>
      refine ⟨[.decrypt u k message], answers, by simp, ?_⟩
      have hrun : (decrypt symbolicClient k message).run symbolicClient (D.entropy u) (x.host u) =
          (decrypt symbolic k message).run symbolic (D.entropy u) (x.host u) := by
        rw [decrypt_symbolicClient]
        rfl
      simp only [Crypto.Network.run, List.foldl_cons, List.foldl_nil, Crypto.Network.step,
        withAnswers, hrun]
      split <;> rfl

/-- So is a run. -/
theorem run_symbolicClient (hN : D.Named N) (steps : List (NetworkStep M Sym Sym))
    (x : Crypto.Network M Sym Sym) (answers : List Sym) :
    ∃ steps' answers', (∀ a ∈ steps', a ∈ steps) ∧
      (withAnswers x answers).run symbolicClient D steps =
        withAnswers (x.run symbolic D steps') answers' := by
  induction steps generalizing x answers with
  | nil => exact ⟨[], answers, by simp, rfl⟩
  | cons a steps ih =>
      obtain ⟨steps₁, answers₁, hsame, hstep⟩ := step_symbolicClient hN x answers a
      obtain ⟨steps₂, answers₂, hrest, hrun⟩ := ih (x.run symbolic D steps₁) answers₁
      refine ⟨steps₁ ++ steps₂, answers₂, ?_, ?_⟩
      · intro a' ha'
        rcases List.mem_append.1 ha' with ha' | ha'
        · exact hsame a' ha' ▸ List.mem_cons_self
        · exact List.mem_cons_of_mem _ (hrest a' ha')
      · have hfirst : (withAnswers x answers).run symbolicClient D (a :: steps) =
            ((withAnswers x answers).step symbolicClient D a).run symbolicClient D steps := rfl
        rw [hfirst, hstep, hrun, Crypto.Network.run, Crypto.Network.run, Crypto.Network.run,
          List.foldl_append]

/-! ## The network under a fleet -/

variable {L : ClientLibrary Sym Sym} {U : UntypedCalls Sym Sym} {R : M → Network}
  {Q : M → Sym → Sym → Prop} {y : Fleet M Sym Sym}

omit [DecidableEq M] in
theorem devices_unused : (Fleet.devices D).Unused symbolic D where
  identity _ := rfl
  signedPreKeys _ := rfl
  sessions _ _ := rfl
  bundles := rfl
  answers := rfl
  letters := rfl
  receipts := rfl

omit [DecidableEq M] in
theorem byClient_symbolicClient {a : NetworkStep M Sym Sym} :
    a.ByClient symbolicClient ↔ a.ByClient symbolic := by
  cases a <;> exact Iff.rfl

/-- Under a fleet is a network over `symbolic`; the answers to the relays are the fleet's own. -/
theorem FleetRun.mirrored (hN : D.Named N) (hE : ∀ u, FreshIds symbolicClient (D.entropy u))
    (hy : FleetRun symbolicClient L U D R Q y) :
    ∃ steps, (∀ a ∈ steps, a.ByClient symbolic ∧ a.Sends Q) ∧
      y.MirroredBy symbolicClient L D
        (withAnswers ((Fleet.devices D).run symbolic D steps) y.answers) := by
  obtain ⟨steps, hsteps, hmirrored⟩ := hy.network (fun _ => rfl) hE
  obtain ⟨steps', answers, hsubset, hrun⟩ := run_symbolicClient hN steps (Fleet.devices D) []
  refine ⟨steps', ?_, ?_⟩
  · intro a ha
    obtain ⟨hclient, hsends⟩ := hsteps a (hsubset a ha)
    exact ⟨byClient_symbolicClient.1 hclient, hsends⟩
  · have hsame : (Fleet.devices D).run symbolicClient D steps =
        withAnswers ((Fleet.devices D).run symbolic D steps') answers := hrun
    rw [hsame] at hmirrored
    refine ⟨?_, hmirrored.letters, hmirrored.bundles, fun _ => id⟩
    intro u
    obtain ⟨draws, h⟩ := hmirrored.client u
    exact ⟨draws, h.host, h.draws_le, h.accounted, h.sent⟩

/-- The answers to the relays are signatures. -/
theorem FleetRun.answers (hy : FleetRun symbolicClient L U D R Q y) :
    ∀ s ∈ y.answers, SignatureHex symbolic s := by
  refine hy.invariant (p := fun y => ∀ s ∈ y.answers, SignatureHex symbolic s) ?_ ?_
  · intro s hs
    cases hs
  · intro y a hy _
    cases a with
    | call u a => exact hy
    | answer u nonceHex =>
        simp only [Fleet.step]
        split
        · next signatureHex hsigned =>
            intro s hs
            rcases List.mem_cons.1 hs with rfl | hold
            · obtain ⟨message, key, hsignature⟩ := signatureHex_of_signChallenge hsigned
              exact ⟨message, key, hsignature⟩
            · exact hy s hold
        · exact hy

/-! ## What the attacker sees -/

/-- The strings of a message. -/
def stringsOf (m : EncryptedMessage Sym) : List Sym :=
  [m.ephemeralPublicKeyHex, m.ciphertext, m.nonce] ++ m.initialIdentityKeyHex.toList ++
    m.initialEphemeralKeyHex.toList

variable (L) in
/-- The strings that are read back from the JSON of a message are strings of the message. -/
def ReadsBack : Prop :=
  ∀ (m : EncryptedMessage Sym) v name s,
    L.parseJson (L.stringifyJson (messageJson symbolicClient m)) = some v →
      property symbolicClient name v = some (.string s) → s ∈ stringsOf m

/-- What the clients have put on the network, their envelopes aside. -/
def Fleet.shown (y : Fleet M Sym Sym) : Crypto.Network M Sym Sym :=
  { host := fun u => (y.client u).host
    bundles := y.bundles
    answers := y.answers
    letters := []
    receipts := [] }

/-- The strings an attacker on the network sees: keys, bundles and answers, and the nonce of every
envelope with the strings in its JSON. -/
inductive Fleet.Seen (L : ClientLibrary Sym Sym) (D : Devices M Sym Sym) (y : Fleet M Sym Sym) :
    Sym → Prop where
  | shown {t : Sym} : y.shown.Published D t → Seen L D y t
  | nonce {u : M} {e : OutgoingMessageEnvelope Sym} : e ∈ (y.client u).sent → Seen L D y e.nonce
  | json {u : M} {e : OutgoingMessageEnvelope Sym} {v : Json Sym} {name : String} {t : Sym} :
      e ∈ (y.client u).sent → L.parseJson e.encrypted_payload = some v →
      property symbolicClient name v = some (.string t) → Seen L D y t

variable {n : Crypto.Network M Sym Sym}

omit [DecidableEq M] in
/-- What is on the network beside the answers is published by the devices. -/
theorem published_of_shown (hbundles : ∀ bundle ∈ y.bundles, bundle ∈ n.bundles) {t : Sym}
    (h : y.shown.Published D t) : n.Published D t ∨ t ∈ y.answers := by
  cases h with
  | identityKey u => exact Or.inl (.identityKey u)
  | signingKey u => exact Or.inl (.signingKey u)
  | bundleIdentityKey hb => exact Or.inl (.bundleIdentityKey (hbundles _ hb))
  | bundleSigningKey hb => exact Or.inl (.bundleSigningKey (hbundles _ hb))
  | signedPreKey hb => exact Or.inl (.signedPreKey (hbundles _ hb))
  | signature hb => exact Or.inl (.signature (hbundles _ hb))
  | oneTimePreKey hb hotk => exact Or.inl (.oneTimePreKey (hbundles _ hb) hotk)
  | answer hs => exact Or.inr hs
  | ephemeral hl => cases hl
  | initialEphemeral hl => cases hl
  | initialIdentity hl => cases hl
  | nonce hl => cases hl
  | ciphertext hl => cases hl

omit [DecidableEq M] in
/-- So are the strings of a letter. -/
theorem published_of_letter {l : Letter M Sym} (hl : l ∈ n.letters) {t : Sym}
    (ht : t ∈ stringsOf l.message) : n.Published D t := by
  simp only [stringsOf, List.mem_append, List.mem_cons, List.not_mem_nil, or_false,
    Option.mem_toList] at ht
  rcases ht with ((rfl | rfl | rfl) | ht) | ht
  · exact .ephemeral hl
  · exact .ciphertext hl
  · exact .nonce hl
  · exact .initialIdentity hl ht
  · exact .initialEphemeral hl ht

/-- Everything the attacker sees is harmless. -/
theorem Fleet.MirroredBy.harmless
    (h : y.MirroredBy symbolicClient L D (withAnswers n y.answers))
    (hanswers : ∀ s ∈ y.answers, SignatureHex symbolic s) (hwritten : n.Written symbolic D)
    (hN : D.Named N) (hL : ReadsBack L) {t : Sym} (ht : y.Seen L D t) :
    Harmless N (fun _ => False) n.Sealed t := by
  have hpublished : n.Published D t ∨ t ∈ y.answers := by
    cases ht with
    | shown ht => exact published_of_shown (n := n) h.bundles ht
    | @nonce u e he =>
        obtain ⟨draws, hu⟩ := h.client u
        obtain ⟨l, hl, -, hnonce⟩ := hu.sent e he
        have hstring : e.nonce ∈ stringsOf l.message := by
          rw [hnonce]
          simp [stringsOf]
        exact Or.inl (published_of_letter (n := n) hl hstring)
    | @json u e v name t he hparse hstring =>
        obtain ⟨draws, hu⟩ := h.client u
        obtain ⟨l, hl, hpayload, -⟩ := hu.sent e he
        have hread := hL l.message v name t (hpayload ▸ hparse) hstring
        exact Or.inl (published_of_letter (n := n) hl hread)
  rcases hpublished with hpublished | hsignature
  · exact hwritten.harmless hN hpublished
  · exact harmless_of_signatureHex (hanswers t hsignature)

/-- Under a fleet is a network whose devices have kept their sessions, and the attacker has come to
terms only that are harmless there. -/
theorem FleetRun.attacked (hD : D.Distinct symbolic) (hN : D.Named N)
    (hE : ∀ u, FreshIds symbolicClient (D.entropy u)) (hL : ReadsBack L)
    (hy : FleetRun symbolicClient L U D R (D.Discreet N) y) :
    ∃ steps n, (∀ a ∈ steps, a.ByClient symbolic) ∧
      n = (Fleet.devices D).run symbolic D steps ∧
      y.MirroredBy symbolicClient L D (withAnswers n y.answers) ∧
      ∀ t, Knows N (y.Seen L D) t → Harmless N (fun _ => False) n.Sealed t := by
  obtain ⟨steps, hsteps, hmirrored⟩ := hy.mirrored hN hE
  have hx : (Fleet.devices D).Unused symbolic D := devices_unused
  have hwritten := hx.written.run symbolic_lawful steps
  have hsound := hx.sound.run symbolic_lawful symbolic_freeTerms hD fun a ha => (hsteps a ha).1
  have hdiscreet := (hx.sent (Q := D.Discreet N)).run (P := symbolic) (D := D)
    fun a ha => (hsteps a ha).2
  refine ⟨steps, _, fun a ha => (hsteps a ha).1, rfl, hmirrored, ?_⟩
  intro t ht
  exact Network.harmless_of_seen hwritten hsound hdiscreet hN hD
    (fun t ht => hmirrored.harmless hy.answers hwritten hN hL ht) ht

/-! ## Secrecy -/

/-- In every run of any number of clients that seal what they are to keep to themselves for each
other only, whatever envelopes and contact URIs of the declared shape an attacker brings them: the
attacker comes to no such text, and to nothing a client keeps in a session with the identity key of
another one. -/
theorem typed_texts_secret (hD : D.Distinct symbolic) (hN : D.Named N)
    (hE : ∀ u, FreshIds symbolicClient (D.entropy u)) (hL : ReadsBack L)
    (hy : FleetRun symbolicClient L U D R (D.Discreet N) y) :
    (∀ s, N.texts s → ¬ Knows N (y.Seen L D) (text s)) ∧
      ∀ u k s b, D.IsPeer u k → (y.client u).host.store.getSession symbolicClient k = some s →
        s.Holds symbolic b → ¬ Knows N (y.Seen L D) b := by
  obtain ⟨steps, n, hsteps, rfl, hmirrored, hharmless⟩ := hy.attacked hD hN hE hL
  constructor
  · intro s hs hknown
    exact hharmless _ hknown hs
  · intro u k s b hpeer hs hb hknown
    obtain ⟨draws, hu⟩ := hmirrored.client u
    have hx : (Fleet.devices D).Unused symbolic D := devices_unused
    have hsound := hx.sound.run symbolic_lawful symbolic_freeTerms hD hsteps
    obtain ⟨m, hm, hk, hkey, -⟩ := hpeer.peerKey hD hN
    obtain ⟨sealedWith, openedWith, hledger⟩ := hsound.ledger u k _ hk hkey
    have hstored : ((Fleet.devices D).run symbolic D steps).session symbolic u k = some s := by
      rw [← hs, ← hu.host]
      rfl
    obtain ⟨dhs, top, st, i, hcontact, hplaced, -⟩ := hledger.dealings.session s hstored
    have hsecret := hplaced.secret_of_holds (hcontact.secret hm (hN.drawn u)) (hN.drawn u) hb
    exact not_secret_of_harmless (hharmless b hknown) hsecret

/-- A property of an object is one of its values. -/
theorem mem_of_property {P : Primitives Sym Sym} {name : String} {fields : List (Sym × Json Sym)}
    {value : Json Sym} (h : property P name (.object fields) = some value) :
    value ∈ fields.map Prod.snd := by
  simp only [property, Json.get, Option.join_some, Option.map_eq_some_iff] at h
  obtain ⟨field, hfound, rfl⟩ := h
  exact List.mem_map_of_mem (List.mem_reverse.1 (List.mem_of_find?_eq_some hfound))

theorem readsBack_symbolic : ReadsBack symbolicLibrary := by
  rintro ⟨ek, sn, pn, ct, nn, otk, ik, iek⟩ v name s hparse hstring
  -- the text of an object of strings and numbers is parsed to the strings it was made of
  cases otk <;> cases ik <;> cases iek <;> cases hparse <;>
    have hvalue := mem_of_property hstring <;>
    simpa [stringsOf, or_assoc, or_comm, or_left_comm] using hvalue

theorem typed_texts_secret_symbolic :
    ((partiesRun heardSteps).client .bob).messages.map MessageRow.body = [text "meet at noon"] ∧
      ¬ Knows symbolicHidden ((partiesRun heardSteps).Seen symbolicLibrary symbolicDevices)
        (text "meet at noon") := by
  refine ⟨by decide +kernel, ?_⟩
  exact (typed_texts_secret symbolicDevices_distinct symbolicDevices_named freshIds_symbolic
    readsBack_symbolic heardSteps_run).1 _ rfl

/-! ## Authenticity -/

/-- The text was to be sealed by a client with the identity key `k`, for this one. -/
def Writing.isFor (D : Devices M Sym Sym) (k : Sym) (u : M) (w : Writing M Sym) : Bool :=
  decide (D.identityKeyHex w.sender = k ∧ w.recipientIdentityKeyHex = D.identityKeyHex u)

/-- What a device has accepted from an identity. -/
theorem receiptsFrom_symbolic (n : Crypto.Network M Sym Sym) (u : M) (k : Sym) :
    n.receiptsFrom symbolic u k = (n.receiptsOf u).filter (isReceiptFrom symbolicClient k) := by
  rw [Crypto.Network.receiptsOf, List.filter_filter, Crypto.Network.receiptsFrom]
  apply List.filter_congr
  intro r _
  rw [Bool.decide_and, Bool.and_comm]
  rfl

omit [DecidableEq M] in
theorem length_lettersFrom (n : Crypto.Network M Sym Sym) (u : M) (k : Sym) :
    (n.lettersFrom D u k).length = (n.letters.map writingOf).countP (Writing.isFor D k u) := by
  rw [List.countP_map, List.countP_eq_length_filter]
  rfl

/-- In every such run, when the ciphertexts that were opened are ones the attacker could come to:
the incoming messages of a database that name another client's identity key as their sender are at
most as many as the texts that this client was asked to send to this one, and the body of each is
such a text, or a self-sync that was opened here has written it over one. -/
theorem incoming_messages_authentic (hD : D.Distinct symbolic) (hN : D.Named N)
    (hE : ∀ u, FreshIds symbolicClient (D.entropy u)) (hL : ReadsBack L)
    (hy : FleetRun symbolicClient L U D R (D.Discreet N) y)
    (hnetwork : ∀ t ∈ y.heard, Knows N (y.Seen L D) t.ciphertext) {u : M} {k : Sym}
    (hpeer : D.IsPeer u k) :
    (y.client u).messages.countP (MessageRow.isFrom k) ≤ y.written.countP (Writing.isFor D k u) ∧
      ∀ row ∈ (y.client u).messages, row.isFrom k = true →
        (∃ w ∈ y.written, w.isFor D k u = true ∧ w.plaintext = row.body) ∨
          ∃ t ∈ y.heard, t.receiver = u ∧ Rewrites symbolicClient L t.plaintext row := by
  obtain ⟨steps, n, hsteps, rfl, hmirrored, hharmless⟩ := hy.attacked hD hN hE hL
  obtain ⟨draws, hu⟩ := hmirrored.client u
  have hx : (Fleet.devices D).Unused symbolic D := devices_unused
  have hletters := hx.subperm_letters hD hN hsteps hpeer fun r hr => by
    rw [receiptsFrom_symbolic] at hr
    exact hharmless _ (hnetwork _ (hu.accounted.heard r (List.mem_of_mem_filter hr)))
  constructor
  -- Each stored row stems from a receipt, each receipt from a letter of its own, each letter from a
  -- text that was to be sent.
  · calc (y.client u).messages.countP (MessageRow.isFrom k)
        ≤ (((Fleet.devices D).run symbolic D steps).receiptsOf u).countP
            (isReceiptFrom symbolicClient k) := hu.accounted.counted k
      _ = (((Fleet.devices D).run symbolic D steps).receiptsFrom symbolic u k).length := by
          rw [receiptsFrom_symbolic, List.countP_eq_length_filter]
      _ ≤ (((Fleet.devices D).run symbolic D steps).lettersFrom D u k).length := by
          simpa using hletters.length_le
      _ = (((Fleet.devices D).run symbolic D steps).letters.map writingOf).countP
            (Writing.isFor D k u) := length_lettersFrom _ u k
      _ ≤ y.written.countP (Writing.isFor D k u) := hmirrored.letters.countP_le
  · intro row hrow hfrom
    obtain ⟨hin, rfl⟩ := of_decide_eq_true hfrom
    rcases hu.accounted.traced row hrow hin with ⟨r, hr, hsender, hbody⟩ |
      ⟨text, ciphertext, hheard, hrewrites⟩
    -- The letter the receipt stems from carries the text of the row.
    · left
      have hr' : r ∈ ((Fleet.devices D).run symbolic D steps).receiptsFrom symbolic u
          row.sender_identity_hex := by
        rw [receiptsFrom_symbolic]
        exact List.mem_filter.2 ⟨hr, hsender⟩
      obtain ⟨l, hl, hsame⟩ := List.mem_map.1
        (hletters.subset (List.mem_map_of_mem hr'))
      have hplaintext : l.plaintext = r.plaintext := congrArg Prod.fst hsame
      simp only [Crypto.Network.lettersFrom, List.mem_filter, decide_eq_true_eq] at hl
      refine ⟨writingOf l, hmirrored.letters.subset (List.mem_map_of_mem hl.1), ?_, ?_⟩
      · exact decide_eq_true hl.2
      · exact hplaintext.trans hbody
    · exact Or.inr ⟨⟨u, text, ciphertext⟩, hheard, rfl, hrewrites⟩

/-- `bob` has opened the ciphertext of the envelope. -/
theorem heardSteps_heard : ∀ t ∈ (partiesRun heardSteps).heard,
    Knows symbolicHidden ((partiesRun heardSteps).Seen symbolicLibrary symbolicDevices)
      t.ciphertext := by
  have hread : ∀ t ∈ (partiesRun heardSteps).heard, ∃ e ∈ ((partiesRun heardSteps).client
      .alice).sent, ((symbolicLibrary.parseJson e.encrypted_payload).bind fun v =>
        Json.string? (property symbolicClient "ciphertext" v)) = some t.ciphertext := by
    decide +kernel
  intro t ht
  obtain ⟨e, he, hciphertext⟩ := hread t ht
  obtain ⟨v, hparse, hstring⟩ := Option.bind_eq_some_iff.1 hciphertext
  exact .seen (.json he hparse (Json.string?_eq_some.1 hstring))

/-- `bob` has one message of `alice`, though her envelope came twice. -/
theorem incoming_messages_authentic_symbolic :
    ((partiesRun heardSteps).client .bob).messages.countP
        (MessageRow.isFrom (hex (pub (name 0)))) = 1 ∧
      ((partiesRun heardSteps).client .bob).messages.countP
          (MessageRow.isFrom (hex (pub (name 0)))) ≤
        (partiesRun heardSteps).written.countP
          (Writing.isFor symbolicDevices (hex (pub (name 0))) .bob) := by
  refine ⟨by decide +kernel, ?_⟩
  exact (incoming_messages_authentic symbolicDevices_distinct symbolicDevices_named
    freshIds_symbolic readsBack_symbolic heardSteps_run heardSteps_heard
    ⟨.alice, rfl, by decide⟩).1

end TorE2EE.Client
