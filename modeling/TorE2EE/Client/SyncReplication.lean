import TorE2EE.Client.Sending

/-!
# The row of a self-sync

`sendOutboundMessage` stores one message and seals a sync payload with its id, conversation, body
and time for every own device. `SyncDelivered` is that such an envelope reaches an own device and
opens there. The time in the payload is not read: the row of the device has the time the relay gave
the envelope, and `synced_row_agrees_iff` says that the two rows agree exactly when that time is the
one of the primary device.
-/

set_option autoImplicit false

namespace TorE2EE.Client

open TorE2EE.Foundation TorE2EE.Crypto

variable {B S : Type} [DecidableEq S]
variable (P : Primitives B S) (L : ClientLibrary B S) (U : UntypedCalls B S) (E : Entropy B)

/-- What two devices should hold alike of one message. -/
def MessageRow.replica (row : MessageRow S) : S × S × S × Nat × Bool :=
  (row.id, row.contact_pubkey_hash, row.body, row.timestamp, row.is_outgoing)

/-- Both tables have a row under the id, and the rows are replicas. -/
def RowsAgree (x z : ClientState B S) (id : S) : Prop :=
  ∃ row row', x.messages.find? (fun r => r.id = id) = some row ∧
    z.messages.find? (fun r => r.id = id) = some row' ∧ row.replica = row'.replica

/-- The columns that stay as they are when a row is saved again. -/
def MessageRow.kept (row : MessageRow S) : S × Nat × Bool :=
  (row.contact_pubkey_hash, row.timestamp, row.is_outgoing)

/-- These columns after a row with the id has been saved: those of the row that was there, or else
those of the new one. -/
def keptColumns (messages : List (MessageRow S)) (id : S) (new : S × Nat × Bool) : S × Nat × Bool :=
  ((messages.find? fun r => r.id = id).map MessageRow.kept).getD new

/-- An envelope that the primary device sent to an own device, from `x` to `y` and for the message
it stored, is delivered to a device in state `z` and opens there. -/
structure SyncDelivered (x y : ClientState B S) (message : StoredMessage S) (z : ClientState B S)
    (payload : IncomingMessagePayload S) (sender : S) (found : Option (ContactRecord S))
    (h : Host B S) : Prop where
  sent : ∃ envelope ∈ y.sent.drop x.sent.length, ∃ d ∈ x.ownLinkedDevices,
    envelope.recipient_pubkey_hash = d.recipientPubkeyHash ∧
      payload.encrypted_payload = envelope.encrypted_payload
  opens : Opens P L U E z payload sender found
    (syncText P L message.contactPubkeyHash message.body message.id message.timestamp) h

/-- The time of the row of the device: the one the relay gave, or its own when there is none. -/
def syncedAt (z : ClientState B S) (payload : IncomingMessagePayload S) (sender text : S)
    (found : Option (ContactRecord S)) (h : Host B S) : Nat :=
  timeOf E payload
    (syncState P L E text (openedState P E z "Unknown Contact" sender found h).drawn)

/-- The message the device stores for a sync payload. -/
def syncedMessage (z : ClientState B S) (payload : IncomingMessagePayload S)
    (sender hash body id : S) (timestamp : Nat) (found : Option (ContactRecord S)) (h : Host B S) :
    StoredMessage S :=
  { id
    contactPubkeyHash := hash
    senderIdentityHex := sender
    recipientIdentityHex :=
      (syncState P L E (syncText P L hash body id timestamp)
        (openedState P E z "Unknown Contact" sender found
          h).drawn).host.store.identity.encryptionKey.publicKeyHex
    body
    timestamp := syncedAt P L E z payload sender (syncText P L hash body id timestamp) found h
    isOutgoing := true
    isRead := true
    deliveryStatus := .delivered }

variable {P L U E}

/-- Under a new id the columns are those of the new row. -/
theorem keptColumns_of_new {messages : List (MessageRow S)} {id : S}
    (hnew : ∀ r ∈ messages, r.id ≠ id) (new : S × Nat × Bool) :
    keptColumns messages id new = new := by
  have hnone : (messages.find? fun r => r.id = id) = none := by
    simpa using hnew
  simp [keptColumns, hnone]

/-- With a time of the relay the clock of the device plays no part. -/
theorem syncedAt_of_created_at {payload : IncomingMessagePayload S} (h : payload.created_at ≠ 0)
    (z : ClientState B S) (sender text : S) (found : Option (ContactRecord S)) (host : Host B S) :
    syncedAt P L E z payload sender text found host = payload.created_at * 1000 :=
  if_neg h

/-- The row under the id of a message that has been saved. -/
theorem find?_upsert_message (messages : List (MessageRow S)) (message : StoredMessage S) :
    ∃ row, (upsertBy MessageRow.id (replaceMessage (messageRow P message)) (messageRow P message)
        messages).find? (fun r => r.id = message.id) = some row ∧
      row.id = message.id ∧ row.body = message.body ∧
      row.kept = keptColumns messages message.id
        (P.toLowerCase message.contactPubkeyHash, message.timestamp, message.isOutgoing) := by
  have hrow : (upsertBy MessageRow.id (replaceMessage (messageRow P message)) (messageRow P message)
      messages).find? (fun r => r.id = (messageRow P message).id) = some _ :=
    find?_upsertBy fun _ h => h
  refine ⟨_, hrow, ?_⟩
  rw [keptColumns]
  cases hold : messages.find? fun r => r.id = message.id with
  | none =>
    have hnone : (messages.find? fun r => r.id = (messageRow P message).id) = none := hold
    rw [hnone]
    exact ⟨rfl, rfl, rfl⟩
  | some old =>
    have hsome : (messages.find? fun r => r.id = (messageRow P message).id) = some old := hold
    rw [hsome]
    have hid : old.id = message.id := by simpa using List.find?_some hold
    exact ⟨hid, rfl, rfl⟩

/-- The fields of a sync payload. -/
def syncFields (P : Primitives B S) (originalRecipientHash body messageId : S) (timestamp : Nat) :
    List (S × Json S) :=
  [(P.lit "isSyncMessage", .bool true),
    (P.lit "originalRecipientHash", .string originalRecipientHash),
    (P.lit "body", .string body), (P.lit "timestamp", .number timestamp),
    (P.lit "messageId", .string messageId)]

/-- What the device takes from a sync payload: all but its time. -/
theorem applySync_syncFields (hlit : Function.Injective P.lit) {hash body id : S}
    (hid : id ≠ P.lit "") (timestamp : Nat) (v : Incoming S) :
    applySync P (.object (syncFields P hash body id timestamp)) v =
      { isSync := true
        messageBody := some (.string body)
        targetContactHash := some (.string hash)
        messageId := .string id } := by
  simp [applySync, property, Json.get, syncFields, hlit.eq_iff, Json.truthy, hid]

theorem syncPayload_syncText (hlit : Function.Injective P.lit) {hash body id : S} {timestamp : Nat}
    (hjson : L.parseJson (syncText P L hash body id timestamp) =
      some (.object (syncFields P hash body id timestamp))) :
    syncPayload P L (syncText P L hash body id timestamp) =
      some (.object (syncFields P hash body id timestamp)) := by
  rw [syncPayload]
  rw [hjson]
  simp [property, Json.get, syncFields, hlit.eq_iff, Json.truthy]

/-- The device stores the synced message. -/
theorem Opens.messages_of_syncText (hlit : Function.Injective P.lit) {N : Network}
    {z : ClientState B S} {payload : IncomingMessagePayload S} {sender hash body id : S}
    {timestamp : Nat} {found : Option (ContactRecord S)} {h : Host B S} (hid : id ≠ P.lit "")
    (hjson : L.parseJson (syncText P L hash body id timestamp) =
      some (.object (syncFields P hash body id timestamp)))
    (hopens : Opens P L U E z payload sender found (syncText P L hash body id timestamp) h) :
    ((handleIncomingMessage P L U payload).run P E N z).2.messages =
      upsertBy MessageRow.id
        (replaceMessage (messageRow P
          (syncedMessage P L E z payload sender hash body id timestamp found h)))
        (messageRow P (syncedMessage P L E z payload sender hash body id timestamp found h))
        z.messages := by
  have hsync := syncPayload_syncText hlit hjson
  -- the conversation is the one the sender named
  have htarget : Json.string? (property P "originalRecipientHash"
      (.object (syncFields P hash body id timestamp))) = some hash := by
    simp [property, Json.get, syncFields, hlit.eq_iff, Json.string?]
  have hcontact := syncState_has_target (E := E) hsync htarget
    (openedState P E z "Unknown Contact" sender found h).drawn
  rw [run_handleIncomingMessage, hopens.run_receiveMessage]
  simp only [syncVariables, hsync, applySync_syncFields hlit hid]
  have hbound (recipient : S) (time : Nat) : bindIncoming L
      { isSync := true
        messageBody := some (.string body)
        targetContactHash := some (.string hash)
        messageId := .string id } sender recipient time =
      .ok
        { id
          contactPubkeyHash := hash
          senderIdentityHex := sender
          recipientIdentityHex := recipient
          body
          timestamp := time
          isOutgoing := true
          isRead := true
          deliveryStatus := .delivered } := rfl
  rw [hbound, storeBound]
  dsimp only
  rw [saveMessage_of_contact (by simpa using hcontact)]
  simp [ClientState.withMessage, syncedMessage, syncedAt]

/-- A message is sent to a contact only. -/
theorem contact_of_sent {N : Network} {x : ClientState B S} {hash plaintext : S}
    {message : StoredMessage S}
    (h : ((sendOutboundMessage P L hash plaintext).run P E N x).1 = .ok message) :
    ∃ contact, x.getContactByHash P hash = some contact := by
  cases hcontact : x.getContactByHash P hash with
  | some contact => exact ⟨contact, rfl⟩
  | none =>
    simp only [sendOutboundMessage, ask, ClientM.run, Program.run_perform_bind, ClientOp.handle,
      hcontact] at h
    cases h

/-- For every message that is sent and stored, and every own device that opens its sync envelope:
the row of the device agrees with the one of the primary device if and only if the time at which the
device stores it is the time in the payload. Where a device has a row under the id already, it is
the old row whose conversation, time and direction count. -/
theorem synced_row_agrees_iff
    (hlower : ∀ s, P.toLowerCase (P.toLowerCase s) = P.toLowerCase s)
    (hlit : Function.Injective P.lit)
    (hjson : ∀ hash body id timestamp, L.parseJson (syncText P L hash body id timestamp) =
      some (.object (syncFields P hash body id timestamp)))
    {N N' : Network} {E' : Entropy B} {x z : ClientState B S} {hash plaintext sender : S}
    {message : StoredMessage S}
    (hsent : ((sendOutboundMessage P L hash plaintext).run P E N x).1 = .ok message)
    (hid : message.id ≠ P.lit "") {payload : IncomingMessagePayload S}
    {found : Option (ContactRecord S)} {h : Host B S}
    (hdelivered : SyncDelivered P L U E' x ((sendOutboundMessage P L hash plaintext).run P E N x).2
      message z payload sender found h) :
    RowsAgree ((sendOutboundMessage P L hash plaintext).run P E N x).2
        ((handleIncomingMessage P L U payload).run P E' N' z).2 message.id ↔
      keptColumns x.messages message.id
          (P.toLowerCase message.contactPubkeyHash, message.timestamp, true) =
        keptColumns z.messages message.id
          (P.toLowerCase message.contactPubkeyHash,
            syncedAt P L E' z payload sender
              (syncText P L message.contactPubkeyHash message.body message.id message.timestamp)
              found h, true) := by
  obtain ⟨contact, hcontact⟩ := contact_of_sent hsent
  obtain ⟨_, _, _, _, delivered, -, -, -, hrun⟩ :=
    run_sendOutboundMessage (L := L) (E := E) (N := N) hlower hcontact plaintext
  have hmessage : outboundMessage P E x contact plaintext x.host.store.identity delivered =
      message := by
    rw [hrun] at hsent
    exact Except.ok.inj hsent
  have houtgoing : message.isOutgoing = true := by
    rw [← hmessage]
    rfl
  rw [hmessage] at hrun
  obtain ⟨row, hrow, hrowId, hrowBody, hrowKept⟩ := find?_upsert_message (P := P) x.messages message
  obtain ⟨row', hrow', hrowId', hrowBody', hrowKept'⟩ := find?_upsert_message (P := P) z.messages
    (syncedMessage P L E' z payload sender message.contactPubkeyHash message.body message.id
      message.timestamp found h)
  have hreceived := hdelivered.opens.messages_of_syncText (N := N') hlit hid (hjson _ _ _ _)
  rw [houtgoing] at hrowKept
  -- the other columns agree as they were sent
  have hreplica : row.replica = row'.replica ↔ row.kept = row'.kept := by
    simp only [MessageRow.replica, MessageRow.kept, hrowId, hrowId', hrowBody, hrowBody',
      syncedMessage, Prod.mk.injEq, true_and]
  rw [RowsAgree]
  rw [hrun, hreceived]
  constructor
  · rintro ⟨r, r', hr, hr', hagree⟩
    cases hrow.symm.trans hr
    cases hrow'.symm.trans hr'
    rw [← hrowKept]
    exact (hreplica.1 hagree).trans hrowKept'
  · intro hkept
    exact ⟨row, row', hrow, hrow', hreplica.2 (hrowKept.trans (hkept.trans hrowKept'.symm))⟩

section

open TorE2EE.Crypto.Sym

/-- Draws with keys of their own, and a clock that stands at one second. -/
def primaryEntropy : Entropy Sym :=
  { symbolicEntropy with secretKey := fun n => name (n + 52), now := fun _ => 1000 }

/-- The primary device: `alice` has `carol` as a contact, and a session with an own device, which is
the client `symbolicBob`. -/
def symbolicPrimary : ClientState Sym Sym :=
  [.importContact (contactUri (hex (pub (signingSecret 3))) (hex (pub (name 3))) (hex (pub (name 9)))
      (hex (signature (pub (name 9)) (signingSecret 3)))) none,
    .importContact (contactUri (hex (pub (signingSecret 1))) (hex (pub (name 1)))
      (symbolicBundle symbolicEntropy 1).signedPreKey.publicKeyHex
      (symbolicBundle symbolicEntropy 1).signedPreKey.signatureHex) none,
    .saveOwnLinkedDevice
      { deviceId := 2
        deviceName := text "pc"
        recipientPubkeyHash := text "pc mailbox"
        identityPubkeyHex := hex (pub (name 1))
        createdAt := 1000 }].foldl
    (ClientStep.apply symbolicClient symbolicLibrary symbolicUntyped primaryEntropy symbolicNetwork)
    (.empty (symbolicIdentity 0))

/-- The conversation with `carol`. -/
def carolHash : Sym := hex (hkdf (pub (signingSecret 3)) nil (text "sha256") 32)

/-- A message to `carol`. -/
def messageToCarol : Except (ClientError Sym) (StoredMessage Sym) × ClientState Sym Sym :=
  (sendOutboundMessage symbolicClient symbolicLibrary carolHash (text "hello")).run symbolicClient
    primaryEntropy symbolicNetwork symbolicPrimary

theorem messageToCarol_stored :
    ∃ message, messageToCarol.1 = .ok message ∧ message.id = hex (nonce 8) ∧
      message.contactPubkeyHash = carolHash ∧ message.body = text "hello" ∧
      message.timestamp = 1000 := by
  have hfields : (messageToCarol.1.toOption.map
      fun m => (m.id, m.contactPubkeyHash, m.body, m.timestamp)) =
        some (hex (nonce 8), carolHash, text "hello", 1000) := by
    decide +kernel
  cases hmessage : messageToCarol.1 with
  | error e =>
    rw [hmessage] at hfields
    cases hfields
  | ok message =>
    rw [hmessage] at hfields
    simpa [Except.toOption] using hfields

/-- The envelope of its sync payload, with a time of the relay. -/
def envelopeForPc (created_at : Nat) : IncomingMessagePayload Sym :=
  { encrypted_payload := (messageToCarol.2.sent.getLast?.map (·.encrypted_payload)).getD nil
    created_at }

/-- The symbolic library reads a sync payload back. -/
theorem parseJson_syncText (hash body id : Sym) (timestamp : Nat) :
    symbolicLibrary.parseJson (syncText symbolicClient symbolicLibrary hash body id timestamp) =
      some (.object (syncFields symbolicClient hash body id timestamp)) := by
  simp [symbolicLibrary, symbolicClient, symbolic, syncText, syncFields, stringifySymbolic,
    stringifyFields, parseSymbolic, parseFields]

/-- The own device opens the envelope, whatever its time. -/
theorem envelopeForPc_opens (created_at : Nat) :
    ∃ sender found h, Opens symbolicClient symbolicLibrary symbolicUntyped symbolicEntropy
      symbolicBob (envelopeForPc created_at) sender found
      (syncText symbolicClient symbolicLibrary carolHash (text "hello") (hex (nonce 8)) 1000) h := by
  have hopened : (((openEnvelope symbolicClient symbolicLibrary symbolicUntyped "Unknown Contact"
      .unresolvedSender (envelopeForPc 0)).run symbolicClient symbolicEntropy symbolicNetwork
        symbolicBob).1.toOption).map (fun r => (r.1, r.2.2)) =
      some (hex (pub (name 0)),
        syncText symbolicClient symbolicLibrary carolHash (text "hello") (hex (nonce 8)) 1000) := by
    decide +kernel
  obtain ⟨found, h, hopens⟩ := opens_of_result hopened
  -- The time of the relay plays no part in opening the envelope.
  exact ⟨_, found, h, hopens.decrypted, hopens.sender_ne⟩

theorem envelopeForPc_delivered {message : StoredMessage Sym} (h : messageToCarol.1 = .ok message)
    (created_at : Nat) :
    ∃ sender found h, SyncDelivered symbolicClient symbolicLibrary symbolicUntyped symbolicEntropy
      symbolicPrimary messageToCarol.2 message symbolicBob (envelopeForPc created_at) sender found
      h := by
  obtain ⟨message', hmessage, hid, hhash, hbody, htime⟩ := messageToCarol_stored
  cases h.symm.trans hmessage
  obtain ⟨sender, found, h, hopens⟩ := envelopeForPc_opens created_at
  have hsent : ∃ envelope ∈ messageToCarol.2.sent.drop symbolicPrimary.sent.length,
      ∃ d ∈ symbolicPrimary.ownLinkedDevices,
        envelope.recipient_pubkey_hash = d.recipientPubkeyHash ∧
          (envelopeForPc 0).encrypted_payload = envelope.encrypted_payload := by
    decide +kernel
  refine ⟨sender, found, h, hsent, ?_⟩
  rw [hid, hhash, hbody, htime]
  exact hopens

/-- The rows agree when the relay took the envelope within the second in which it was sent. -/
theorem synced_row_agrees_symbolic :
    ∃ message, messageToCarol.1 = .ok message ∧
      RowsAgree messageToCarol.2
        ((handleIncomingMessage symbolicClient symbolicLibrary symbolicUntyped
          (envelopeForPc 1)).run symbolicClient symbolicEntropy symbolicNetwork symbolicBob).2
        message.id := by
  obtain ⟨message, hmessage, hid, hhash, hbody, htime⟩ := messageToCarol_stored
  obtain ⟨sender, found, h, hdelivered⟩ := envelopeForPc_delivered hmessage 1
  refine ⟨message, hmessage, ?_⟩
  refine (synced_row_agrees_iff (fun _ => rfl) (fun _ _ => by simp [symbolicClient, symbolic])
    parseJson_syncText hmessage ?_ hdelivered).2 ?_
  · rw [hid]
    decide
  · have hclear : ∀ r ∈ symbolicPrimary.messages, r.id ≠ message.id := by
      intro r hr
      cases hr
    rw [keptColumns_of_new hclear, keptColumns_of_new, htime, syncedAt_of_created_at]
    · rfl
    · decide
    · intro r hr
      cases hr

/-- A second later the two devices have the message at different times. -/
theorem late_relay_moves_synced_row :
    ¬ ∀ (message : StoredMessage Sym) (payload : IncomingMessagePayload Sym) (sender : Sym)
      (found : Option (ContactRecord Sym)) (h : Host Sym Sym),
      messageToCarol.1 = .ok message →
      SyncDelivered symbolicClient symbolicLibrary symbolicUntyped symbolicEntropy symbolicPrimary
        messageToCarol.2 message symbolicBob payload sender found h →
      RowsAgree messageToCarol.2
        ((handleIncomingMessage symbolicClient symbolicLibrary symbolicUntyped payload).run
          symbolicClient symbolicEntropy symbolicNetwork symbolicBob).2 message.id := by
  intro hagree
  obtain ⟨message, hmessage, hid, hhash, hbody, htime⟩ := messageToCarol_stored
  obtain ⟨sender, found, h, hdelivered⟩ := envelopeForPc_delivered hmessage 2
  obtain ⟨row, row', hrow, hrow', hsame⟩ := hagree message _ sender found h hmessage hdelivered
  rw [hid] at hrow hrow'
  have hprimary : (messageToCarol.2.messages.find? fun r => r.id = hex (nonce 8)).map
      MessageRow.timestamp = some 1000 := by
    decide +kernel
  have hpc : (((handleIncomingMessage symbolicClient symbolicLibrary symbolicUntyped
      (envelopeForPc 2)).run symbolicClient symbolicEntropy symbolicNetwork
        symbolicBob).2.messages.find? fun r => r.id = hex (nonce 8)).map
      MessageRow.timestamp = some 2000 := by
    decide +kernel
  rw [hrow, Option.map_some, Option.some.injEq] at hprimary
  rw [hrow', Option.map_some, Option.some.injEq] at hpc
  have htimes : row.timestamp = row'.timestamp := by
    simp only [MessageRow.replica, Prod.mk.injEq] at hsame
    exact hsame.2.2.2.1
  omega

end

end TorE2EE.Client
