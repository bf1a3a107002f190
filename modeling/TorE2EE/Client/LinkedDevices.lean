import TorE2EE.Client.SyncReplication
import TorE2EE.Client.SelfSync

/-!
# Messages from linked devices

`sendOutboundMessage` sends to every device in a contact's list, while `handleIncomingMessage` finds
the contact of a sender by the contact's own identity key and does not look into the lists.
`linked_device_speaks_iff` says when a message from a device in a contact's list is stored in that
contact's conversation: when the look-up finds the contact all the same, or when it finds none and
the key of the device is the hash of the contact.
-/

set_option autoImplicit false

namespace TorE2EE.Client

open TorE2EE.Foundation TorE2EE.Crypto

variable {B S : Type} [DecidableEq S]

/-- The call has stored a message in the conversation of the contact, and no contact is new. -/
structure StoredFor (c : ContactRow S) (x : ClientState B S)
    (r : Except (ClientError S) (Option (StoredMessage S)) × ClientState B S) : Prop where
  stored : ∃ message row, r.1 = .ok (some message) ∧
    message.contactPubkeyHash = c.recipient_pubkey_hash ∧
    r.2.messages.find? (fun m => m.id = message.id) = some row ∧
    row.contact_pubkey_hash = c.recipient_pubkey_hash
  contacts : r.2.contacts.map ContactRow.recipient_pubkey_hash =
    x.contacts.map ContactRow.recipient_pubkey_hash

/-- The envelope opens under the key of a device in the list of the contact, and not with a
self-sync. -/
structure OpensFromDevice (P : Primitives B S) (L : ClientLibrary B S) (U : UntypedCalls B S)
    (E : Entropy B) (x : ClientState B S) (c : ContactRow S) (d : DeviceRecord S)
    (payload : IncomingMessagePayload S) (found : Option (ContactRecord S)) (h : Host B S) :
    Prop where
  contact : c ∈ x.contacts
  device : d ∈ (mapRowToContact P c).linkedDevices
  opens : ∃ plaintext, Opens P L U E x payload (P.toLowerCase d.identityPubkeyHex) found plaintext h ∧
    syncPayload P L plaintext = none

variable {P : Primitives B S} {L : ClientLibrary B S} {U : UntypedCalls B S} {E : Entropy B}
  {N : Network}

/-- An ordinary message that is opened in a database with lower-case keys is stored. -/
theorem Opens.run_receiveMessage_stored
    (hlower : ∀ s, P.toLowerCase (P.toLowerCase s) = P.toLowerCase s) {x : ClientState B S}
    (hx : LowerCased P x) {payload : IncomingMessagePayload S} {sender plaintext : S}
    {found : Option (ContactRecord S)} {h : Host B S}
    (hopens : Opens P L U E x payload sender found plaintext h)
    (hordinary : syncPayload P L plaintext = none) :
    (receiveMessage P L U payload).run P E N x =
      let y := (openedState P E x "Unknown Contact" sender found h).drawn
      let message := ordinaryMessage P E y payload
        (keepSender P E x "Unknown Contact" sender found).1 sender plaintext
        (E.randomBytes h.draws 16)
      (.ok message, (timed payload y).withMessage P message) := by
  obtain ⟨encryptedMsg, -, hfind, -⟩ := hopens.decrypted
  obtain ⟨c, hc, -, hhash⟩ := sender_row (E := E) hlower hx hfind "Unknown Contact"
  rw [hopens.run_receiveMessage]
  simp only [syncVariables, syncState, hordinary, Option.bind_none, bindIncoming_ordinary]
  rw [storeBound, saveMessage_of_contact ⟨c, by simpa using hc, hhash⟩]
  rfl

/-- The conversation of a sender: the contact that was found, or the placeholder for its key. -/
theorem keepSender_hash (x : ClientState B S) (contactAlias : String) (sender : S)
    (found : Option (ContactRecord S)) :
    (keepSender P E x contactAlias sender found).1.recipientPubkeyHash =
      (found.map ContactRecord.recipientPubkeyHash).getD sender := by
  cases found <;> rfl

/-- Its hash is in lower case. -/
theorem lowerCased_sender (hlower : ∀ s, P.toLowerCase (P.toLowerCase s) = P.toLowerCase s)
    {x : ClientState B S} (hx : LowerCased P x) {encryptedMsg : Json S} {sender : S}
    {found : Option (ContactRecord S)} (h : findSender P x encryptedMsg = .ok (sender, found)) :
    P.toLowerCase ((found.map ContactRecord.recipientPubkeyHash).getD sender) =
      (found.map ContactRecord.recipientPubkeyHash).getD sender := by
  cases found with
  | none => exact (findSender_none hlower h).1
  | some contact =>
    obtain ⟨row, hrow, rfl, -⟩ := findSender_some hlower hx h
    exact (hx row hrow).1

/-- A sender that has a contact, or whose key is the hash of one, makes no new contact. -/
theorem hashes_keepSender {x : ClientState B S} {c : ContactRow S} (hc : c ∈ x.contacts)
    (contactAlias : String) {sender : S} (hsender : P.toLowerCase sender = sender)
    {found : Option (ContactRecord S)} (hfound : found = none → sender = c.recipient_pubkey_hash) :
    (keepSender P E x contactAlias sender found).2.contacts.map ContactRow.recipient_pubkey_hash =
      x.contacts.map ContactRow.recipient_pubkey_hash := by
  cases found with
  | some contact => rfl
  | none =>
    let row := contactRow P (newPlaceholder P E x sender contactAlias)
    have hhash : c.recipient_pubkey_hash = row.recipient_pubkey_hash :=
      (hfound rfl).symm.trans hsender.symm
    have hcontacts : (keepSender P E x contactAlias sender none).2.contacts =
        x.contacts.map fun r => if r.recipient_pubkey_hash = row.recipient_pubkey_hash then
          replaceContact row r else r :=
      upsertBy_of_mem hc hhash
    rw [hcontacts, List.map_map]
    apply List.map_congr_left
    intro r _
    by_cases hr : r.recipient_pubkey_hash = row.recipient_pubkey_hash
    · simp [hr, replaceContact]
    · simp [hr]

/-- A message that decrypts under the key of a device in a contact's list and is no self-sync is
stored for the contact, without a new contact, if and only if the contact found for the sender is
this one, or none is found and the key is the contact's hash; and a row under the drawn id, if
there is one, is in the conversation already. -/
theorem linked_device_speaks_iff
    (hlower : ∀ s, P.toLowerCase (P.toLowerCase s) = P.toLowerCase s) {x : ClientState B S}
    (hx : ClientState.Reachable P L U E N x) {c : ContactRow S} {d : DeviceRecord S}
    {payload : IncomingMessagePayload S} {found : Option (ContactRecord S)} {h : Host B S}
    (hdevice : OpensFromDevice P L U E x c d payload found h) :
    StoredFor c x ((handleIncomingMessage P L U payload).run P E N x) ↔
      (∀ contact, found = some contact → contact.recipientPubkeyHash = c.recipient_pubkey_hash) ∧
      (found = none → P.toLowerCase d.identityPubkeyHex = c.recipient_pubkey_hash) ∧
      ∀ r, x.messages.find? (fun m => m.id = P.bytesToHex (E.randomBytes h.draws 16)) = some r →
        r.contact_pubkey_hash = c.recipient_pubkey_hash := by
  obtain ⟨plaintext, hopens, hordinary⟩ := hdevice.opens
  obtain ⟨encryptedMsg, -, hfind, -⟩ := hopens.decrypted
  have hlowered := hx.lowerCased hlower
  have hrun := hopens.run_receiveMessage_stored (N := N) hlower hlowered hordinary
  dsimp only at hrun
  generalize hmessage : ordinaryMessage P E _ payload _ _ plaintext _ = message at hrun
  have hid : message.id = P.bytesToHex (E.randomBytes h.draws 16) := by
    rw [← hmessage]
    rfl
  have hhash : message.contactPubkeyHash =
      (found.map ContactRecord.recipientPubkeyHash).getD (P.toLowerCase d.identityPubkeyHex) := by
    rw [← hmessage]
    exact keepSender_hash _ _ _ _
  have hlow : P.toLowerCase message.contactPubkeyHash = message.contactPubkeyHash := by
    rw [hhash]
    exact lowerCased_sender hlower hlowered hfind
  -- The conversation of the message is the contact that was found, or the key itself.
  have hconversation : message.contactPubkeyHash = c.recipient_pubkey_hash ↔
      (∀ contact, found = some contact → contact.recipientPubkeyHash = c.recipient_pubkey_hash) ∧
        (found = none → P.toLowerCase d.identityPubkeyHex = c.recipient_pubkey_hash) := by
    rw [hhash]
    cases found <;> simp
  obtain ⟨row, hrow, -, -, hkept⟩ := find?_upsert_message (P := P) x.messages message
  have hreturned : ((handleIncomingMessage P L U payload).run P E N x).1 = .ok (some message) := by
    rw [run_handleIncomingMessage_fst, hrun]
    rfl
  have hmessages : ((handleIncomingMessage P L U payload).run P E N x).2.messages =
      upsertBy MessageRow.id (replaceMessage (messageRow P message)) (messageRow P message)
        x.messages := by
    rw [run_handleIncomingMessage, hrun]
    simp [ClientState.withMessage]
  have hcolumn : row.contact_pubkey_hash = (keptColumns x.messages message.id
      (message.contactPubkeyHash, message.timestamp, message.isOutgoing)).1 := by
    rw [hlow] at hkept
    exact congrArg Prod.fst hkept
  rw [← and_assoc, ← hconversation, ← hid]
  constructor
  · rintro ⟨⟨message', row', hreturned', hcontact, hrow', hown⟩, -⟩
    cases hreturned.symm.trans hreturned'
    rw [hmessages] at hrow'
    cases hrow.symm.trans hrow'
    refine ⟨hcontact, ?_⟩
    intro r hr
    rw [hcolumn] at hown
    simpa [keptColumns, hr, MessageRow.kept] using hown
  · rintro ⟨hcontact, hold⟩
    refine ⟨⟨message, row, hreturned, hcontact, ?_, ?_⟩, ?_⟩
    · rw [hmessages]
      exact hrow
    · rw [hcolumn, keptColumns]
      cases hfound : x.messages.find? fun m => m.id = message.id with
      | none => exact hcontact
      | some r => exact hold r hfound
    · rw [run_handleIncomingMessage, hrun]
      have hsender : P.toLowerCase (P.toLowerCase d.identityPubkeyHex) =
          P.toLowerCase d.identityPubkeyHex := hlower _
      have hnew := hashes_keepSender (E := E) hdevice.contact "Unknown Contact" hsender
        (hconversation.1 hcontact).2
      simpa [ClientState.withMessage] using hnew

section

open TorE2EE.Crypto.Sym

/-- `bob` after the first message of `alice`, whose placeholder is a contact now. -/
def symbolicAcquainted : ClientState Sym Sym :=
  ClientStep.apply symbolicClient symbolicLibrary symbolicUntyped symbolicEntropy symbolicNetwork
    symbolicBob (.handleIncomingMessage (symbolicIncoming (text "hello")))

/-- The second message of `alice`. -/
def symbolicFollowUp : EncryptedMessage Sym :=
  okValue
    ((greet (symbolicBundle symbolicEntropy 1) (text "hello") >>= fun _ =>
      encrypt symbolicClient (symbolicBundle symbolicEntropy 1).identityKeyHex (text "again") none).run
        symbolicClient symbolicEntropy
        { store := SignalStore.empty (symbolicIdentity 0), draws := 50 }).1 rfl

/-- Its envelope. -/
def symbolicNext : IncomingMessagePayload Sym :=
  { encrypted_payload :=
      symbolicLibrary.stringifyJson (messageJson symbolicClient symbolicFollowUp)
    created_at := 2 }

theorem symbolicAcquainted_reachable :
    symbolicAcquainted.Reachable symbolicClient symbolicLibrary symbolicUntyped symbolicEntropy
      symbolicNetwork :=
  symbolicBob_reachable.step _

/-- `bob` with the contact `carol`, who has linked the key of `alice` as a tablet. -/
def symbolicLinked : ClientState Sym Sym :=
  [.importContact (contactUri (hex (pub (signingSecret 3))) (hex (pub (name 3))) (hex (pub (name 9)))
      (hex (signature (pub (name 9)) (signingSecret 3)))) none,
    .addLinkedDevice carolHash
      { deviceId := 2
        recipientPubkeyHash := text "tablet"
        identityPubkeyHex := hex (pub (name 0))
        deviceName := none
        createdAt := 1 }].foldl
    (ClientStep.apply symbolicClient symbolicLibrary symbolicUntyped symbolicEntropy symbolicNetwork)
    symbolicBob

theorem symbolicLinked_reachable :
    symbolicLinked.Reachable symbolicClient symbolicLibrary symbolicUntyped symbolicEntropy
      symbolicNetwork := by
  rw [symbolicLinked]
  exact symbolicBob_reachable.calls _

theorem symbolicNext_opens :
    ∃ plaintext found h, Opens symbolicClient symbolicLibrary symbolicUntyped symbolicEntropy
      symbolicAcquainted symbolicNext (hex (pub (name 0))) found plaintext h ∧
        syncPayload symbolicClient symbolicLibrary plaintext = none := by
  have hopened : (((openEnvelope symbolicClient symbolicLibrary symbolicUntyped "Unknown Contact"
      .unresolvedSender symbolicNext).run symbolicClient symbolicEntropy symbolicNetwork
        symbolicAcquainted).1.toOption).map (fun r => (r.1, r.2.2)) =
      some (hex (pub (name 0)), text "again") := by
    decide +kernel
  obtain ⟨found, h, hopens⟩ := opens_of_result hopened
  exact ⟨_, found, h, hopens, rfl⟩

/-- The primary device of a contact speaks for it. -/
theorem linked_device_speaks_symbolic :
    ∃ c ∈ symbolicAcquainted.contacts, StoredFor c symbolicAcquainted
      ((handleIncomingMessage symbolicClient symbolicLibrary symbolicUntyped symbolicNext).run
        symbolicClient symbolicEntropy symbolicNetwork symbolicAcquainted) := by
  obtain ⟨plaintext, found, h, hopens, hordinary⟩ := symbolicNext_opens
  obtain ⟨encryptedMsg, -, hfind, -⟩ := hopens.decrypted
  have hknown : (symbolicAcquainted.contacts.map
      fun c => (c.linked_devices, c.recipient_pubkey_hash, c.identity_pubkey_hex)) =
        [([], hex (pub (name 0)), hex (pub (name 0)))] ∧
      symbolicAcquainted.messages.map MessageRow.contact_pubkey_hash = [hex (pub (name 0))] := by
    decide +kernel
  obtain ⟨c, hcontacts, hc⟩ := List.map_eq_singleton_iff.1 hknown.1
  obtain ⟨r, hmessages, hr⟩ := List.map_eq_singleton_iff.1 hknown.2
  simp only [Prod.mk.injEq] at hc
  obtain ⟨hdevices, hhash, hidentity⟩ := hc
  have hmem : c ∈ symbolicAcquainted.contacts := by
    rw [hcontacts]
    exact List.mem_singleton_self c
  have hprimary : (mapRowToContact symbolicClient c).linkedDevices =
      [{ deviceId := 1
         recipientPubkeyHash := c.recipient_pubkey_hash
         identityPubkeyHex := c.identity_pubkey_hex
         deviceName := some (symbolicClient.lit "Primary Device")
         createdAt := c.created_at }] := by
    simp [mapRowToContact, hdevices]
  have hdevice : OpensFromDevice symbolicClient symbolicLibrary symbolicUntyped symbolicEntropy
      symbolicAcquainted c
      { deviceId := 1
        recipientPubkeyHash := c.recipient_pubkey_hash
        identityPubkeyHex := c.identity_pubkey_hex
        deviceName := some (symbolicClient.lit "Primary Device")
        createdAt := c.created_at } symbolicNext found h := by
    refine ⟨hmem, ?_, plaintext, ?_, hordinary⟩
    · rw [hprimary]
      exact List.mem_singleton_self _
    · rw [hidentity]
      exact hopens
  refine ⟨c, hmem,
    (linked_device_speaks_iff (fun _ => rfl) symbolicAcquainted_reachable hdevice).2 ⟨?_, ?_, ?_⟩⟩
  · rintro contact rfl
    -- There is one contact that can have been found.
    obtain ⟨row, hrow, rfl, -⟩ := findSender_some (fun _ => rfl)
      (symbolicAcquainted_reachable.lowerCased fun _ => rfl) hfind
    rw [hcontacts, List.mem_singleton] at hrow
    rw [hrow]
    rfl
  · intro _
    exact hidentity.trans hhash.symm
  · intro r' hr'
    have hrow := List.mem_of_find?_eq_some hr'
    rw [hmessages, List.mem_singleton] at hrow
    rw [hrow, hr, hhash]

/-- A message from the tablet is stored in a conversation of its own. -/
theorem tablet_does_not_speak :
    ¬ ∀ (x : ClientState Sym Sym) (c : ContactRow Sym) (d : DeviceRecord Sym)
      (payload : IncomingMessagePayload Sym) (found : Option (ContactRecord Sym)) (h : Host Sym Sym),
      x.Reachable symbolicClient symbolicLibrary symbolicUntyped symbolicEntropy symbolicNetwork →
      OpensFromDevice symbolicClient symbolicLibrary symbolicUntyped symbolicEntropy x c d payload
        found h →
      StoredFor c x ((handleIncomingMessage symbolicClient symbolicLibrary symbolicUntyped
        payload).run symbolicClient symbolicEntropy symbolicNetwork x) := by
  intro hspeaks
  have hopened : (((openEnvelope symbolicClient symbolicLibrary symbolicUntyped "Unknown Contact"
      .unresolvedSender (symbolicIncoming (text "hello"))).run symbolicClient symbolicEntropy
        symbolicNetwork symbolicLinked).1.toOption).map (fun r => (r.1, r.2.2)) =
      some (hex (pub (name 0)), text "hello") := by
    decide +kernel
  obtain ⟨found, h, hopens⟩ := opens_of_result hopened
  obtain ⟨c, hc, hhash, d, hd, hkey⟩ : ∃ c ∈ symbolicLinked.contacts,
      c.recipient_pubkey_hash = carolHash ∧
        ∃ d ∈ (mapRowToContact symbolicClient c).linkedDevices,
          d.identityPubkeyHex = hex (pub (name 0)) := by
    decide +kernel
  obtain ⟨message, -, hreturned, hcontact, -⟩ := (hspeaks symbolicLinked c d _ found h
    symbolicLinked_reachable ⟨hc, hd, _, hkey ▸ hopens, rfl⟩).stored
  -- the message is stored under the key of the tablet instead
  have hconversation : ((handleIncomingMessage symbolicClient symbolicLibrary symbolicUntyped
      (symbolicIncoming (text "hello"))).run symbolicClient symbolicEntropy symbolicNetwork
        symbolicLinked).1.toOption.map (fun r => r.map StoredMessage.contactPubkeyHash) =
      some (some (hex (pub (name 0)))) := by
    decide +kernel
  rw [hreturned] at hconversation
  simp only [Except.toOption, Option.map_some, Option.some.injEq, hcontact, hhash] at hconversation
  cases hconversation

end

end TorE2EE.Client
