import TorE2EE.Client.SymbolicRun
import TorE2EE.Crypto.EngineRuns

/-!
# Runs of sendOutboundMessage

`FanOut` says what sending one plaintext to a list of devices does, device by device: a device whose
`encrypt` throws is passed over and leaves the Signal store as it was, every other one gets one
envelope with the next message of its session. `run_dispatchAll` is that this is what the loops of
`sendOutboundMessage` do, whatever the relay answers, and `run_sendOutboundMessage` puts the two
loops and the stored row together (`fanOut_complete`).
-/

set_option autoImplicit false

namespace TorE2EE.Client

open TorE2EE.Foundation TorE2EE.Crypto

variable {B S : Type} [DecidableEq S]
variable (P : Primitives B S) (L : ClientLibrary B S) (E : Entropy B) (N : Network)

/-- `encrypt` seals the next message of the session of `k`: `m` is sealed under the next key of its
sending chain, and the session after it is saved. -/
def SealsNext (k plaintext : S) (h : Host B S) (m : EncryptedMessage S) (h' : Host B S) : Prop :=
  ∃ stored session chainHex chainKey, h.store.getSession P k = some stored ∧
    ensureSendChain P stored = .ok (session, chainHex) ∧ P.hexToBytes chainHex = .ok chainKey ∧
    m = sealedMessage P h.store.identity session chainKey (E.randomBytes (h.draws + 1) 24) plaintext
      none ∧
    h' = { store := h.store.saveSession P k (session.sealedOnce P chainKey (E.now h.draws))
           draws := h.draws + 2 }

/-- The envelope of a message for a mailbox. -/
def envelopeOf (recipientPubkeyHash : S) (m : EncryptedMessage S) : OutgoingMessageEnvelope S :=
  { recipient_pubkey_hash := recipientPubkeyHash
    encrypted_payload := L.stringifyJson (messageJson P m)
    nonce := m.nonce }

/-- Every device of the list is attempted in order, with the envelopes that result. A device is its
mailbox and its identity key. -/
inductive FanOut (plaintext : S) :
    Host B S → List (S × S) → List (OutgoingMessageEnvelope S) → Host B S → Prop
  | nil {h : Host B S} : FanOut plaintext h [] [] h
  | threw {h h' : Host B S} {e : EngineError S} {recipientPubkeyHash identityPubkeyHex : S}
      {devices : List (S × S)} {sent : List (OutgoingMessageEnvelope S)}
      (hrun : (encrypt P identityPubkeyHex plaintext none).run P E h = (.error e, h))
      (hrest : FanOut plaintext h devices sent h') :
      FanOut plaintext h ((recipientPubkeyHash, identityPubkeyHex) :: devices) sent h'
  | sealed {h h₁ h' : Host B S} {m : EncryptedMessage S} {recipientPubkeyHash identityPubkeyHex : S}
      {devices : List (S × S)} {sent : List (OutgoingMessageEnvelope S)}
      (hrun : (encrypt P identityPubkeyHex plaintext none).run P E h = (.ok m, h₁))
      (hnext : SealsNext P E identityPubkeyHex plaintext h m h₁)
      (hrest : FanOut plaintext h₁ devices sent h') :
      FanOut plaintext h ((recipientPubkeyHash, identityPubkeyHex) :: devices)
        (envelopeOf P L recipientPubkeyHash m :: sent) h'

/-- Some answer of the relay to the envelopes from number `first` on reported a live delivery. -/
def DeliveredLive (first count : Nat) : Prop := ∃ j < count, N (first + j) = some true

variable {P L E N}

theorem run_dispatch (x : ClientState B S) (plaintext recipientPubkeyHash identityPubkeyHex : S) :
    (∃ e, (encrypt P identityPubkeyHex plaintext none).run P E x.host = (.error e, x.host) ∧
      (dispatch P L plaintext (recipientPubkeyHash, identityPubkeyHex)).run P E N x
        = (.error (.engine e), x)) ∨
    ∃ m h, (encrypt P identityPubkeyHex plaintext none).run P E x.host = (.ok m, h) ∧
      SealsNext P E identityPubkeyHex plaintext x.host m h ∧
      (dispatch P L plaintext (recipientPubkeyHash, identityPubkeyHex)).run P E N x
        = ((match N x.sent.length with
            | some deliveredLive => .ok deliveredLive
            | none => .error .rejected),
          { x with host := h, sent := x.sent ++ [envelopeOf P L recipientPubkeyHash m] }) := by
  have hengine := run_engine P E N (encrypt P identityPubkeyHex plaintext none) x
  rcases run_encrypt_cases P E identityPubkeyHex plaintext none x.host with
    ⟨e, hrun⟩ | ⟨stored, session, chainHex, chainKey, hstored, hchain, hkey, hrun⟩
  · rw [hrun] at hengine
    exact Or.inl ⟨e, hrun, Program.run_bind_of_error _ hengine _⟩
  · rw [hrun] at hengine
    refine Or.inr ⟨_, _, hrun, ⟨stored, session, chainHex, chainKey, hstored, hchain, hkey, rfl, rfl⟩,
      (Program.run_bind_of_ok _ hengine _).trans ?_⟩
    simp only [ask, Program.run_perform_bind, ClientOp.handle]
    cases N x.sent.length <;> rfl

theorem deliveredLive_cons {first count : Nat} :
    DeliveredLive N first (count + 1) ↔
      N first = some true ∨ DeliveredLive N (first + 1) count := by
  constructor
  · rintro ⟨j, hj, hlive⟩
    cases j with
    | zero => exact Or.inl hlive
    | succ j =>
      refine Or.inr ⟨j, by omega, ?_⟩
      rwa [Nat.add_assoc, Nat.add_comm 1 j]
  · rintro (hlive | ⟨j, hj, hlive⟩)
    · exact ⟨0, by omega, hlive⟩
    · refine ⟨j + 1, by omega, ?_⟩
      rwa [Nat.add_assoc, Nat.add_comm 1 j] at hlive

/-- The loop over the devices never throws: it does what `FanOut` says, and answers whether some
device took the message live. -/
theorem run_dispatchAll (x : ClientState B S) (plaintext : S) (devices : List (S × S)) :
    ∃ sent h delivered, FanOut P L E plaintext x.host devices sent h ∧
      (delivered = true ↔ DeliveredLive N x.sent.length sent.length) ∧
      (dispatchAll P L plaintext devices).run P E N x
        = (.ok delivered, { x with host := h, sent := x.sent ++ sent }) := by
  induction devices generalizing x with
  | nil =>
    refine ⟨[], x.host, false, .nil, ?_, ?_⟩
    · simp [DeliveredLive]
    · simp [dispatchAll, ClientM.run]
  | cons device devices ih =>
    obtain ⟨recipientPubkeyHash, identityPubkeyHex⟩ := device
    rcases run_dispatch (P := P) (L := L) (E := E) (N := N) x plaintext recipientPubkeyHash
        identityPubkeyHex with ⟨e, hrun, hdispatch⟩ | ⟨m, h₁, hrun, hnext, hdispatch⟩
    · -- a device whose call throws is skipped, and the loop goes on with the state before it
      obtain ⟨sent, h, delivered, hfan, hlive, hall⟩ := ih x
      refine ⟨sent, h, delivered, .threw hrun hfan, hlive, ?_⟩
      rw [ClientM.run] at hdispatch hall
      simp [dispatchAll, ClientM.run, Program.run_bind, hdispatch, hall]
    · obtain ⟨sent, h, delivered, hfan, hlive, hall⟩ :=
        ih { x with host := h₁, sent := x.sent ++ [envelopeOf P L recipientPubkeyHash m] }
      simp only [List.length_append, List.length_cons, List.length_nil, Nat.zero_add] at hlive
      rw [ClientM.run] at hdispatch hall
      refine ⟨envelopeOf P L recipientPubkeyHash m :: sent, h,
        N x.sent.length = some true || delivered, .sealed hrun hnext hfan, ?_, ?_⟩
      · rw [List.length_cons, deliveredLive_cons, ← hlive]
        simp
      · cases hanswer : N x.sent.length with
        | none => simp [dispatchAll, ClientM.run, Program.run_bind, hdispatch, hall, hanswer]
        | some deliveredLive =>
          simp [dispatchAll, ClientM.run, Program.run_bind, hdispatch, hall, hanswer]

/-! ## The whole call -/

/-- The mailbox and the identity key of each device the plaintext goes to. -/
def recipientDevices (contact : ContactRecord S) : List (S × S) :=
  (targetDevices contact).map fun d => (d.recipientPubkeyHash, d.identityPubkeyHex)

/-- The mailbox and the identity key of each own device. -/
def ownDevices (x : ClientState B S) : List (S × S) :=
  x.ownLinkedDevices.map fun d => (d.recipientPubkeyHash, d.identityPubkeyHex)

/-- The message `sendOutboundMessage` stores. -/
def outboundMessage (P : Primitives B S) (E : Entropy B) (x : ClientState B S)
    (contact : ContactRecord S) (plaintext : S) (identity : UserIdentity B S) (delivered : Bool) :
    StoredMessage S :=
  { id := P.bytesToHex (E.randomBytes x.host.draws 16)
    contactPubkeyHash := contact.recipientPubkeyHash
    senderIdentityHex := identity.encryptionKey.publicKeyHex
    recipientIdentityHex := contact.identityPubkeyHex
    body := plaintext
    timestamp := E.now (x.host.draws + 1)
    isOutgoing := true
    isRead := true
    deliveryStatus := if delivered then .delivered else .sent }

/-- The state with one more message. -/
def ClientState.withMessage (P : Primitives B S) (x : ClientState B S) (message : StoredMessage S) :
    ClientState B S :=
  { x with
    messages := upsertBy MessageRow.id (replaceMessage (messageRow P message))
      (messageRow P message) x.messages }

theorem saveMessage_of_contact {x : ClientState B S} {message : StoredMessage S}
    (h : ∃ c ∈ x.contacts, c.recipient_pubkey_hash = P.toLowerCase message.contactPubkeyHash) :
    x.saveMessage P message = (.ok (), x.withMessage P message) := by
  rw [ClientState.saveMessage, ClientState.withMessage]
  exact if_pos (Or.inr h)

/-- A contact that is found by its hash has a row with its own hash in lower case. -/
theorem contact_row_of_found (hlower : ∀ s, P.toLowerCase (P.toLowerCase s) = P.toLowerCase s)
    {x : ClientState B S} {hash : S} {contact : ContactRecord S}
    (h : x.getContactByHash P hash = some contact) :
    ∃ c ∈ x.contacts, c.recipient_pubkey_hash = P.toLowerCase contact.recipientPubkeyHash := by
  obtain ⟨row, hfound, rfl⟩ := Option.map_eq_some_iff.1 h
  have hrow : row.recipient_pubkey_hash = P.toLowerCase hash := by
    simpa using List.find?_some hfound
  refine ⟨row, List.mem_of_find?_eq_some hfound, ?_⟩
  simp only [mapRowToContact, hrow, hlower]

/-- The engine keeps its identity. -/
theorem FanOut.identity_eq {plaintext : S} {h h' : Host B S} {devices : List (S × S)}
    {sent : List (OutgoingMessageEnvelope S)} (hfan : FanOut P L E plaintext h devices sent h') :
    h'.store.identity = h.store.identity := by
  induction hfan with
  | nil => rfl
  | threw _ _ ih => exact ih
  | sealed _ hnext _ ih =>
    obtain ⟨_, _, _, _, -, -, -, -, rfl⟩ := hnext
    rw [ih]
    rfl

theorem run_sendOutboundMessage (hlower : ∀ s, P.toLowerCase (P.toLowerCase s) = P.toLowerCase s)
    {x : ClientState B S} {hash : S} {contact : ContactRecord S}
    (hcontact : x.getContactByHash P hash = some contact) (plaintext : S) :
    ∃ h₁ h₂ sent₁ sent₂ delivered,
      FanOut P L E plaintext x.drawn.drawn.host (recipientDevices contact) sent₁ h₁ ∧
      FanOut P L E
        (syncText P L contact.recipientPubkeyHash plaintext
          (P.bytesToHex (E.randomBytes x.host.draws 16)) (E.now (x.host.draws + 1)))
        h₁ (ownDevices x) sent₂ h₂ ∧
      (delivered = true ↔ DeliveredLive N x.sent.length sent₁.length) ∧
      (sendOutboundMessage P L hash plaintext).run P E N x =
        (.ok (outboundMessage P E x contact plaintext x.host.store.identity delivered),
          ClientState.withMessage P { x with host := h₂, sent := x.sent ++ sent₁ ++ sent₂ }
            (outboundMessage P E x contact plaintext x.host.store.identity delivered)) := by
  obtain ⟨sent₁, h₁, delivered, hfan₁, hlive, hloop₁⟩ :=
    run_dispatchAll (P := P) (L := L) (E := E) (N := N) x.drawn.drawn plaintext
      (recipientDevices contact)
  obtain ⟨sent₂, h₂, synced, hfan₂, -, hloop₂⟩ :=
    run_dispatchAll (P := P) (L := L) (E := E) (N := N)
      { x.drawn.drawn with host := h₁, sent := x.sent ++ sent₁ }
      (syncText P L contact.recipientPubkeyHash plaintext
        (P.bytesToHex (E.randomBytes x.host.draws 16)) (E.now (x.host.draws + 1)))
      (ownDevices x)
  refine ⟨h₁, h₂, sent₁, sent₂, delivered, hfan₁, hfan₂, hlive, ?_⟩
  -- sending draws keys and moves sessions, and leaves the identity
  have hidentity : h₂.store.identity = x.host.store.identity := by
    rw [hfan₂.identity_eq, hfan₁.identity_eq]
    rfl
  rw [← hidentity]
  have hstore : (storeMessage (outboundMessage P E x contact plaintext h₂.store.identity
      delivered)).run P E N { x with host := h₂, sent := x.sent ++ sent₁ ++ sent₂ } = (.ok (), _) :=
    (run_storeMessage _ _).trans (saveMessage_of_contact (contact_row_of_found hlower hcontact))
  rw [sendOutboundMessage, ask, ClientM.run, Program.run_perform_bind]
  simp only [ClientOp.handle, hcontact]
  refine (Program.run_bind_of_ok _ (run_randomBytes (P := P) (N := N) x 16) _).trans ?_
  refine (Program.run_bind_of_ok _ (run_dateNow (P := P) (N := N) _) _).trans ?_
  refine (Program.run_bind_of_ok _ hloop₁ _).trans ?_
  rw [ask, Program.run_perform_bind]
  refine (Program.run_bind_of_ok _ hloop₂ _).trans ?_
  rw [ask, Program.run_perform_bind]
  refine (Program.run_bind_pure _ (storeMessage _) (fun _ => _) _).trans ?_
  exact congrArg (fun r : Except (ClientError S) Unit × ClientState B S =>
    (r.1.map fun _ => outboundMessage P E x contact plaintext h₂.store.identity delivered, r.2))
    hstore

section

open TorE2EE.Crypto.Sym

/-- A new client imports the contact URI of an identity, and then links a second device to the
contact with which there is no session. -/
def symbolicSender : ClientState Sym Sym :=
  ClientStep.apply symbolicClient symbolicLibrary symbolicUntyped symbolicEntropy symbolicNetwork
    (ClientStep.apply symbolicClient symbolicLibrary symbolicUntyped symbolicEntropy symbolicNetwork
      (.empty (symbolicIdentity 0))
      (.importContact
        (contactUri (hex (pub (signingSecret 1))) (hex (pub (name 1))) (hex (pub (name 9)))
          (hex (signature (pub (name 9)) (signingSecret 1)))) none))
    (.addLinkedDevice (hex (hkdf (pub (signingSecret 1)) nil (text "sha256") 32))
      { deviceId := 2
        recipientPubkeyHash := text "tablet"
        identityPubkeyHex := hex (pub (name 7))
        deviceName := none
        createdAt := 1 })

/-- The mailbox of the contact. -/
def symbolicRecipient : Sym := hex (hkdf (pub (signingSecret 1)) nil (text "sha256") 32)

theorem symbolicSender_knows : ∃ contact,
    symbolicSender.getContactByHash symbolicClient symbolicRecipient = some contact ∧
      (recipientDevices contact).length = 2 :=
  ⟨_, rfl, by decide⟩

end

end TorE2EE.Client
