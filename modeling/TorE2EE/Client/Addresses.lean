import TorE2EE.Client.OneContact
import TorE2EE.Relay.Auth

/-!
# Stored addresses

A `recipient_pubkey_hash` is an address that its owner can open when it is the mailbox the relay
grants for the owner's signing key (`IsMailboxOf`). `parseContactUri` computes it so. A contact made
on the fly gets the sender's identity key in its place, and a provisioned device the hash of an
ephemeral key.

In every run without such contacts and devices every stored address, and every address an envelope
is sent to, is its owner's mailbox (`stored_addresses_openable`).
-/

set_option autoImplicit false

namespace TorE2EE.Client

open TorE2EE.Foundation TorE2EE.Crypto

variable {B S : Type} [DecidableEq S]

/-! ## Mailboxes on the relay -/

/-- The strings and byte arrays of the client as the relay reads them. Both sides write hex and hash
with SHA-256 alike. -/
structure RelayCoding (P : Primitives B S) (L : ClientLibrary B S) (A : Relay.AuthLibrary) where
  render : S → String
  bytes : B → List UInt8
  render_bytesToHex : ∀ b, render (P.bytesToHex b) = Relay.hexEncode (bytes b)
  bytes_sha256 : ∀ b, bytes (L.sha256 b) = A.sha256 (bytes b)

variable {P : Primitives B S} {L : ClientLibrary B S} {U : UntypedCalls B S} {E : Entropy B}
  {N : Network} {A : Relay.AuthLibrary}

/-- The hash is the hex SHA-256 of the signing key, and whatever login of that key the relay accepts
is granted this mailbox and no other. -/
def IsMailboxOf (C : RelayCoding P L A) (hash : S) (signingKey : B) : Prop :=
  hash = P.bytesToHex (L.sha256 signingKey) ∧
    ∀ publicKeyHex challenge signatureHex granted,
      Relay.hexPairs publicKeyHex.toList = some (C.bytes signingKey) →
      Relay.verifyChallengeSignature A publicKeyHex challenge signatureHex = .ok granted →
      granted = C.render hash

omit [DecidableEq S] in
/-- The hex SHA-256 of a signing key is its mailbox. -/
theorem isMailboxOf (C : RelayCoding P L A) (signingKey : B) :
    IsMailboxOf C (P.bytesToHex (L.sha256 signingKey)) signingKey := by
  refine ⟨rfl, ?_⟩
  intro publicKeyHex challenge signatureHex granted hkey hgranted
  obtain ⟨pkBytes, -, hdecode, -, -, -, -, -, rfl⟩ := Relay.verifyChallengeSignature_ok A hgranted
  cases hdecode.symm.trans hkey
  rw [C.render_bytesToHex, C.bytes_sha256]

/-! ## Addresses from contact URIs -/

variable (P L) in
/-- The address and the identity key are those of an accepted contact URI, whose signing key is
`signingKey`. -/
def FromUri (signingKey : B) (hash identity : S) : Prop :=
  ∃ uriString parsed key, parseContactUri P L uriString = .ok parsed ∧
    parsed.payload.identityKeyHex = .string key ∧ identity = P.toLowerCase key ∧
    P.hexToBytes parsed.payload.signingKeyHex = .ok signingKey ∧
    hash = P.bytesToHex (L.sha256 signingKey)

variable (P L) in
/-- The address is that of the party with the identity key. -/
def Addressed (hash identity : S) : Prop := ∃ signingKey, FromUri P L signingKey hash identity

variable (P L) in
/-- Every stored address, and every address an envelope was sent to, is that of a party; a contact is
stored with the signing key its address is made of. -/
structure WellAddressed (x : ClientState B S) : Prop where
  contacts : ∀ r ∈ x.contacts, ∃ signingKey,
    FromUri P L signingKey r.recipient_pubkey_hash r.identity_pubkey_hex ∧
      P.hexToBytes r.signing_pubkey_hex = .ok signingKey
  linked : ∀ r ∈ x.contacts, ∀ d ∈ r.linked_devices,
    Addressed P L d.recipientPubkeyHash d.identityPubkeyHex
  own : ∀ d ∈ x.ownLinkedDevices, Addressed P L d.recipientPubkeyHash d.identityPubkeyHex
  sent : ∀ e ∈ x.sent, ∃ identity, Addressed P L e.recipient_pubkey_hash identity

/-- The coding of strings: lower case is idempotent, hex is written in lower case, and it is read in
either case. -/
structure CaseCoding (P : Primitives B S) : Prop where
  toLowerCase_toLowerCase : ∀ s, P.toLowerCase (P.toLowerCase s) = P.toLowerCase s
  toLowerCase_bytesToHex : ∀ b, P.toLowerCase (P.bytesToHex b) = P.bytesToHex b
  hexToBytes_toLowerCase : ∀ s b, P.hexToBytes (P.toLowerCase s) = .ok b ↔ P.hexToBytes s = .ok b

theorem FromUri.lower (hcase : CaseCoding P) {signingKey : B}
    {hash identity : S} (h : FromUri P L signingKey hash identity) :
    P.toLowerCase hash = hash ∧ P.toLowerCase identity = identity := by
  obtain ⟨_, _, key, _, _, rfl, _, rfl⟩ := h
  exact ⟨hcase.toLowerCase_bytesToHex _, hcase.toLowerCase_toLowerCase _⟩

/-- What `parseContactUri` returns is an address. -/
theorem fromUri_of_parse {uriString key : S} {parsed : ParsedContact S}
    (hparsed : parseContactUri P L uriString = .ok parsed)
    (hkey : parsed.payload.identityKeyHex = .string key) :
    ∃ signingKey, P.hexToBytes parsed.payload.signingKeyHex = .ok signingKey ∧
      FromUri P L signingKey parsed.recipientPubkeyHash (P.toLowerCase key) := by
  obtain ⟨-, signingKey, hdecode, -, hhash⟩ := parseContactUri_ok hparsed
  exact ⟨signingKey, hdecode, uriString, parsed, key, hparsed, hkey, rfl, hdecode, hhash⟩

/-! ## What keeps addresses -/

/-- A contact with the address and the signing key of a party is saved. -/
theorem wellAddressed_saveContact {x : ClientState B S} (hx : WellAddressed P L x)
    {contact : ContactRecord S} {signingKey : B}
    (haddress : FromUri P L signingKey (P.toLowerCase contact.recipientPubkeyHash)
      (P.toLowerCase contact.identityPubkeyHex))
    (hsigning : P.hexToBytes (P.toLowerCase contact.signingPubkeyHex) = .ok signingKey)
    (hlinked : ∀ d ∈ contact.linkedDevices,
      Addressed P L d.recipientPubkeyHash d.identityPubkeyHex) :
    WellAddressed P L (x.saveContact P contact) where
  contacts := by
    apply forall_upsertBy hx.contacts
    · exact ⟨signingKey, haddress, hsigning⟩
    · exact fun _ _ _ => ⟨signingKey, haddress, hsigning⟩
  linked := by
    apply forall_upsertBy hx.linked
    · exact hlinked
    · exact fun _ _ _ => hlinked
  own := hx.own
  sent := hx.sent

/-- A read contact has the address and the signing key of a party, and so do its devices. -/
structure PartyContact (P : Primitives B S) (L : ClientLibrary B S) (c : ContactRecord S) : Prop where
  address : ∃ signingKey, FromUri P L signingKey c.recipientPubkeyHash c.identityPubkeyHex ∧
    P.hexToBytes c.signingPubkeyHex = .ok signingKey
  linked : ∀ d ∈ c.linkedDevices, Addressed P L d.recipientPubkeyHash d.identityPubkeyHex

theorem WellAddressed.partyContact {x : ClientState B S} (hx : WellAddressed P L x)
    {row : ContactRow S} (hrow : row ∈ x.contacts) : PartyContact P L (mapRowToContact P row) where
  address := hx.contacts row hrow
  linked := by
    intro d hd
    cases hdevices : row.linked_devices with
    | nil =>
        simp only [mapRowToContact, hdevices, List.mem_singleton] at hd
        subst hd
        obtain ⟨signingKey, haddress, -⟩ := hx.contacts row hrow
        exact ⟨signingKey, haddress⟩
    | cons d' devices =>
        simp only [mapRowToContact, hdevices] at hd
        exact hx.linked row hrow d (hdevices ▸ hd)

theorem WellAddressed.getContactByHash {x : ClientState B S} (hx : WellAddressed P L x) {hash : S} :
    ∀ c, x.getContactByHash P hash = some c → PartyContact P L c := by
  intro c hc
  obtain ⟨row, hrow, rfl⟩ := Option.map_eq_some_iff.1 hc
  exact hx.partyContact (List.mem_of_find?_eq_some hrow)

/-- The addresses are the same. -/
theorem WellAddressed.congr {x y : ClientState B S} (hx : WellAddressed P L x)
    (hcontacts : y.contacts = x.contacts) (hown : y.ownLinkedDevices = x.ownLinkedDevices)
    (hsent : y.sent = x.sent) : WellAddressed P L y where
  contacts := hcontacts ▸ hx.contacts
  linked := hcontacts ▸ hx.linked
  own := hown ▸ hx.own
  sent := hsent ▸ hx.sent

/-- The method keeps addresses, and its results satisfy `q`. -/
abbrev KeepsAddresses {α : Type} (P : Primitives B S) (L : ClientLibrary B S) (E : Entropy B)
    (N : Network) (c : ClientM B S α) (q : α → Prop) : Prop :=
  Program.Ensures (ClientOp.handle P E N) (WellAddressed P L) c q

theorem keepsAddresses_engine {α : Type} (c : EngineM B S α) :
    KeepsAddresses P L E N (engine c) fun _ => True := by
  intro x hx
  refine ⟨?_, fun _ _ => True.intro⟩
  have hrun := run_engine P E N c x
  rw [ClientM.run] at hrun
  rw [hrun]
  exact hx.congr rfl rfl rfl

theorem keepsAddresses_engineOp (o : EngineOp B S) :
    KeepsAddresses P L E N (ask (.engine o)) fun _ => True := by
  apply Program.ensures_perform
  · exact fun x hx => hx.congr rfl rfl rfl
  · exact fun _ _ => True.intro

theorem keepsAddresses_storeMessage (message : StoredMessage S) :
    KeepsAddresses P L E N (storeMessage message) fun _ => True := by
  intro x hx
  refine ⟨?_, fun _ _ => True.intro⟩
  have hrun := run_storeMessage (P := P) (E := E) (N := N) x message
  rw [ClientM.run] at hrun
  rw [hrun]
  unfold ClientState.saveMessage
  dsimp only
  split
  · exact hx.congr rfl rfl rfl
  · exact hx

theorem keepsAddresses_sendMessage {envelope : OutgoingMessageEnvelope S}
    (h : ∃ identity, Addressed P L envelope.recipient_pubkey_hash identity) :
    KeepsAddresses P L E N (ask (.sendMessage envelope)) fun _ => True := by
  apply Program.ensures_perform
  · intro x hx
    refine ⟨hx.contacts, hx.linked, hx.own, ?_⟩
    intro e he
    rcases List.mem_append.1 he with hold | hnew
    · exact hx.sent e hold
    · obtain rfl := List.mem_singleton.1 hnew
      exact h
  · exact fun _ _ => True.intro

/-! ## Methods -/

/-- An imported contact has the address of a party. -/
theorem keepsAddresses_importContact (hcase : CaseCoding P) (uriString : S)
    (customAlias : Option S) :
    KeepsAddresses P L E N (importContact P L U uriString customAlias) fun _ => True := by
  apply Program.ensures_bind (Program.ensures_ofExcept fun _ => id)
  intro parsed hparsed
  apply Program.ensures_bind (keepsAddresses_engineOp .now)
  intro createdAt _
  apply Program.ensures_bind (Program.ensures_ofExcept fun _ => id)
  intro contact hcontact
  obtain ⟨hkey, hhash, hsigning, hdevices⟩ := importedContact_ok hcontact
  obtain ⟨signingKey, hdecode, haddress⟩ := fromUri_of_parse hparsed hkey
  -- the row has the keys and the hash of the URI
  have hsave : KeepsAddresses P L E N (ask (.saveContact contact)) fun _ => True := by
    apply Program.ensures_perform
    · intro x hx
      apply wellAddressed_saveContact hx
      · rw [hhash, (haddress.lower hcase).1]
        exact haddress
      · rw [hcase.hexToBytes_toLowerCase, hsigning]
        exact hdecode
      · rw [hdevices]
        intro d hd
        cases hd
    · exact fun _ _ => True.intro
  apply Program.ensures_bind hsave
  rintro - -
  cases readBundle P parsed.payload with
  | none =>
      apply Program.ensures_bind (keepsAddresses_engine _)
      exact fun _ _ => Program.ensures_pure True.intro
  | some bundle =>
      apply Program.ensures_bind (keepsAddresses_engine _)
      exact fun _ _ => Program.ensures_pure True.intro

theorem keepsAddresses_getContactByHash (hash : S) :
    KeepsAddresses P L E N (ask (.getContactByHash hash)) fun found =>
      ∀ c, found = some c → PartyContact P L c := by
  apply Program.ensures_perform
  · exact fun _ hx => hx
  · exact fun _ hx => hx.getContactByHash

/-- A device with the address of a party is linked. -/
theorem keepsAddresses_addLinkedDevice (hcase : CaseCoding P) (hash : S) {device : DeviceRecord S}
    (hdevice : Addressed P L device.recipientPubkeyHash device.identityPubkeyHex) :
    KeepsAddresses P L E N (addLinkedDevice hash device) fun _ => True := by
  apply Program.ensures_bind (keepsAddresses_getContactByHash hash)
  intro found hfound
  cases found with
  | none => exact Program.ensures_throw _
  | some contact =>
      obtain ⟨⟨signingKey, haddress, hsigning⟩, hlinked⟩ := hfound contact rfl
      apply Program.ensures_perform
      · intro x hx
        apply wellAddressed_saveContact hx
        · rw [(haddress.lower hcase).1, (haddress.lower hcase).2]
          exact haddress
        · rw [hcase.hexToBytes_toLowerCase]
          exact hsigning
        · intro d hd
          rcases List.mem_append.1 hd with hold | hnew
          · exact hlinked d (List.mem_of_mem_filter hold)
          · obtain rfl := List.mem_singleton.1 hnew
            exact hdevice
      · exact fun _ _ => True.intro

theorem keepsAddresses_dispatch (plaintext : S) {device : S × S}
    (hdevice : Addressed P L device.1 device.2) :
    KeepsAddresses P L E N (dispatch P L plaintext device) fun _ => True := by
  apply Program.ensures_bind (keepsAddresses_engine _)
  intro encryptedMsg _
  apply Program.ensures_bind (keepsAddresses_sendMessage ⟨_, hdevice⟩)
  intro answer _
  cases answer with
  | none => exact Program.ensures_throw _
  | some deliveredLive => exact Program.ensures_pure True.intro

/-- Every envelope of a fan-out is addressed to a party. -/
theorem keepsAddresses_dispatchAll (plaintext : S) {devices : List (S × S)}
    (hdevices : ∀ d ∈ devices, Addressed P L d.1 d.2) :
    KeepsAddresses P L E N (dispatchAll P L plaintext devices) fun _ => True := by
  induction devices with
  | nil => exact Program.ensures_pure True.intro
  | cons device devices ih =>
      apply Program.ensures_bind
        (Program.ensures_catchError
          (keepsAddresses_dispatch plaintext (hdevices device List.mem_cons_self)))
      intro outcome _
      apply Program.ensures_bind (ih fun d hd => hdevices d (List.mem_cons_of_mem _ hd))
      intro deliveredLater _
      cases outcome with
      | ok deliveredLive => exact Program.ensures_pure True.intro
      | error e => exact Program.ensures_pure True.intro

theorem PartyContact.targetDevices {c : ContactRecord S} (hc : PartyContact P L c) :
    ∀ d ∈ targetDevices c, Addressed P L d.recipientPubkeyHash d.identityPubkeyHex := by
  intro d hd
  rw [Client.targetDevices] at hd
  split at hd
  · obtain rfl := List.mem_singleton.1 hd
    obtain ⟨signingKey, haddress, -⟩ := hc.address
    exact ⟨signingKey, haddress⟩
  · exact hc.linked d hd

/-- Every envelope of an outgoing message is addressed to a party. -/
theorem keepsAddresses_sendOutboundMessage (hash plaintext : S) :
    KeepsAddresses P L E N (sendOutboundMessage P L hash plaintext) fun _ => True := by
  apply Program.ensures_bind (keepsAddresses_getContactByHash hash)
  intro found hfound
  cases found with
  | none => exact Program.ensures_throw _
  | some contact =>
      apply Program.ensures_bind (keepsAddresses_engineOp (.randomBytes 16))
      intro messageIdBytes _
      apply Program.ensures_bind (keepsAddresses_engineOp .now)
      intro now _
      -- the devices of the recipient, and after them the own ones
      have htargets : ∀ d ∈ (targetDevices contact).map
          (fun d => (d.recipientPubkeyHash, d.identityPubkeyHex)), Addressed P L d.1 d.2 := by
        intro d hd
        obtain ⟨d', hd', rfl⟩ := List.mem_map.1 hd
        exact (hfound contact rfl).targetDevices d' hd'
      apply Program.ensures_bind (keepsAddresses_dispatchAll plaintext htargets)
      intro deliveredAtLeastOnce _
      have hown : KeepsAddresses P L E N (ask .listOwnLinkedDevices) fun devices =>
          ∀ d ∈ devices, Addressed P L d.recipientPubkeyHash d.identityPubkeyHex := by
        apply Program.ensures_perform
        · exact fun _ hx => hx
        · exact fun _ hx => hx.own
      apply Program.ensures_bind hown
      intro ownDevices howned
      have hsyncs : ∀ d ∈ ownDevices.map
          (fun d => (d.recipientPubkeyHash, d.identityPubkeyHex)), Addressed P L d.1 d.2 := by
        intro d hd
        obtain ⟨d', hd', rfl⟩ := List.mem_map.1 hd
        exact howned d' hd'
      apply Program.ensures_bind (keepsAddresses_dispatchAll _ hsyncs)
      intro _ _
      apply Program.ensures_bind (keepsAddresses_engineOp .getIdentity)
      intro identity _
      apply Program.ensures_bind (keepsAddresses_storeMessage _)
      exact fun _ _ => Program.ensures_pure True.intro

/-! ## Receiving without new contacts -/

variable (P L) in
/-- The sender of the envelope is no new contact. -/
def KnownSender (x : ClientState B S) (payload : IncomingMessagePayload S) : Prop :=
  ∀ encryptedMsg sender, L.parseJson payload.encrypted_payload = some encryptedMsg →
    findSender P x encryptedMsg ≠ .ok (sender, none)

variable (P L U E) in
/-- A self-sync in the envelope names a stored conversation. -/
def KnownConversation (x : ClientState B S) (payload : IncomingMessagePayload S) : Prop :=
  ∀ sender found plaintext h parsedSync hash, Opens P L U E x payload sender found plaintext h →
    syncPayload P L plaintext = some parsedSync →
    property P "originalRecipientHash" parsedSync = some (.string hash) →
    (x.getContactByHash P hash).isSome

/-- The contacts, the own devices and the envelopes are those of `x`. -/
structure SameAddresses (x y : ClientState B S) : Prop where
  contacts : y.contacts = x.contacts
  own : y.ownLinkedDevices = x.ownLinkedDevices
  sent : y.sent = x.sent

/-- The method creates no contact, when it starts from the addresses of `x`. -/
abbrev CreatesNoContact {α : Type} (P : Primitives B S) (E : Entropy B) (N : Network)
    (x : ClientState B S) (c : ClientM B S α) : Prop :=
  Program.Ensures (ClientOp.handle P E N) (SameAddresses x) c fun _ => True

theorem sameAddresses_openEnvelope {x : ClientState B S} {payload : IncomingMessagePayload S}
    (hknown : KnownSender P L x payload) (contactAlias : String) (unresolved : ClientError S) :
    SameAddresses x ((openEnvelope P L U contactAlias unresolved payload).run P E N x).2 := by
  rw [run_openEnvelope]
  cases hjson : L.parseJson payload.encrypted_payload with
  | none => exact ⟨rfl, rfl, rfl⟩
  | some encryptedMsg =>
      dsimp only
      cases hfind : findSender P x encryptedMsg with
      | error e => exact ⟨rfl, rfl, rfl⟩
      | ok r =>
          obtain ⟨sender, found⟩ := r
          cases found with
          | none => exact absurd hfind (hknown encryptedMsg sender hjson)
          | some c =>
              dsimp only
              split
              · exact ⟨rfl, rfl, rfl⟩
              · split
                · exact ⟨rfl, rfl, rfl⟩
                · exact ⟨rfl, rfl, rfl⟩

theorem createsNoContact_engineOp (x : ClientState B S) (o : EngineOp B S) :
    CreatesNoContact P E N x (ask (.engine o)) := by
  apply Program.ensures_perform
  · exact fun y hy => ⟨hy.contacts, hy.own, hy.sent⟩
  · exact fun _ _ => True.intro

theorem createsNoContact_messageTime (x : ClientState B S) (payload : IncomingMessagePayload S) :
    CreatesNoContact P E N x (messageTime payload) := by
  rw [messageTime]
  split
  · exact createsNoContact_engineOp x .now
  · exact Program.ensures_pure True.intro

theorem createsNoContact_storeMessage (x : ClientState B S) (message : StoredMessage S) :
    CreatesNoContact P E N x (storeMessage message) := by
  intro y hy
  refine ⟨?_, fun _ _ => True.intro⟩
  have hrun := run_storeMessage (P := P) (E := E) (N := N) y message
  rw [ClientM.run] at hrun
  rw [hrun]
  unfold ClientState.saveMessage
  dsimp only
  split
  · exact ⟨hy.contacts, hy.own, hy.sent⟩
  · exact hy

/-- A self-sync into a stored conversation creates no contact. -/
theorem createsNoContact_readSync (x : ClientState B S) {plaintext : S} (v : Incoming S)
    (hknown : ∀ parsedSync hash, syncPayload P L plaintext = some parsedSync →
      property P "originalRecipientHash" parsedSync = some (.string hash) →
      (x.getContactByHash P hash).isSome) :
    CreatesNoContact P E N x (readSync P L plaintext v) := by
  intro y hy
  refine ⟨?_, fun _ _ => True.intro⟩
  have hrun := run_readSync (P := P) (L := L) (E := E) (N := N) y plaintext v
  rw [ClientM.run] at hrun
  rw [hrun]
  rw [syncState]
  dsimp only
  split
  · exact hy
  · next hash htarget =>
      obtain ⟨parsedSync, hsync, hstring⟩ := Option.bind_eq_some_iff.1 htarget
      have hstored := hknown parsedSync hash hsync (Json.string?_eq_some.1 hstring)
      have hsame : y.getContactByHash P hash = x.getContactByHash P hash := by
        rw [ClientState.getContactByHash, ClientState.getContactByHash, hy.contacts]
      rw [hsame]
      obtain ⟨c, hc⟩ := Option.isSome_iff_exists.1 hstored
      rw [hc]
      exact hy

/-- The foreground on an envelope of a stored sender with no new conversation. -/
theorem sameAddresses_handleIncomingMessage {x : ClientState B S}
    {payload : IncomingMessagePayload S} (hsender : KnownSender P L x payload)
    (hconversation : KnownConversation P L U E x payload) :
    SameAddresses x ((handleIncomingMessage P L U payload).run P E N x).2 := by
  rw [run_handleIncomingMessage]
  -- no contact is created on the way to the plaintext, since the sender is known
  have hopen : SameAddresses x
        ((openEnvelope P L U "Unknown Contact" .unresolvedSender payload).run P E N x).2 ∧
      ∀ r, ((openEnvelope P L U "Unknown Contact" .unresolvedSender payload).run P E N x).1 =
        .ok r → ∃ found h, Opens P L U E x payload r.1 found r.2.2 h :=
    ⟨sameAddresses_openEnvelope hsender _ _, fun r => opens_of_run⟩
  refine (Program.run_bind_ensures hopen (r := fun _ => True) ?_).1
  rintro ⟨sender, contact, plaintext⟩ ⟨found, h, hopens⟩
  apply Program.ensures_bind (createsNoContact_engineOp x (.randomBytes 16))
  intro messageId _
  apply Program.ensures_bind
  · apply createsNoContact_readSync x
    exact fun parsedSync hash => hconversation sender found plaintext h parsedSync hash hopens
  intro v _
  apply Program.ensures_bind (createsNoContact_engineOp x .getIdentity)
  intro identity _
  apply Program.ensures_bind (createsNoContact_messageTime x payload)
  intro timestamp _
  apply Program.ensures_bind (Program.ensures_ofExcept fun _ _ => True.intro)
  intro storedMsg _
  apply Program.ensures_bind (createsNoContact_storeMessage x storedMsg)
  exact fun _ _ => Program.ensures_pure True.intro

/-- The background on an envelope of a stored sender. -/
theorem sameAddresses_processIncomingEnvelope {x : ClientState B S}
    {payload : IncomingMessagePayload S} (hsender : KnownSender P L x payload) :
    SameAddresses x ((processIncomingEnvelope P L U payload).run P E N x).2 := by
  have hopen : SameAddresses x
        ((openEnvelope P L U "Neznámý kontakt" .senderNotResolved payload).run P E N x).2 ∧
      ∀ r, ((openEnvelope P L U "Neznámý kontakt" .senderNotResolved payload).run P E N x).1 =
        .ok r → True :=
    ⟨sameAddresses_openEnvelope hsender _ _, fun _ _ => True.intro⟩
  refine (Program.run_bind_ensures hopen (r := fun _ => True) ?_).1
  rintro ⟨sender, contact, plaintext⟩ -
  apply Program.ensures_bind (createsNoContact_engineOp x (.randomBytes 16))
  intro messageId _
  apply Program.ensures_bind (createsNoContact_engineOp x .getIdentity)
  intro identity _
  apply Program.ensures_bind (createsNoContact_messageTime x payload)
  intro timestamp _
  exact createsNoContact_storeMessage x _

/-! ## Runs -/

variable (P L U E) in
/-- The call makes no contact on the fly and saves no device of the client's own, and a device it
links has the address of a party. -/
def AddressSafe (x : ClientState B S) : ClientStep S → Prop
  | .handleIncomingMessage payload => KnownSender P L x payload ∧ KnownConversation P L U E x payload
  | .processIncomingEnvelope payload => KnownSender P L x payload
  | .addLinkedDevice _ device => Addressed P L device.recipientPubkeyHash device.identityPubkeyHex
  | .linkOwnDevice _ _ => False
  | .saveOwnLinkedDevice _ => False
  | _ => True

theorem wellAddressed_execute {x : ClientState B S} (hx : WellAddressed P L x)
    (s : TableStatement S) : WellAddressed P L (s.execute P x) := by
  -- no statement writes an address: rows are renamed or dropped
  cases s with
  | updateAlias hash contactAlias =>
      refine ⟨?_, ?_, hx.own, hx.sent⟩
      · intro r hr
        obtain ⟨old, hold, rfl⟩ := List.mem_map.1 hr
        split
        · exact hx.contacts old hold
        · exact hx.contacts old hold
      · intro r hr
        obtain ⟨old, hold, rfl⟩ := List.mem_map.1 hr
        split
        · exact hx.linked old hold
        · exact hx.linked old hold
  | deleteContact hash =>
      simp only [TableStatement.execute]
      split
      · exact hx
      · refine ⟨?_, ?_, hx.own, hx.sent⟩
        · exact fun r hr => hx.contacts r (List.mem_of_mem_filter hr)
        · exact fun r hr => hx.linked r (List.mem_of_mem_filter hr)
  | deleteOwnLinkedDevice deviceId =>
      exact ⟨hx.contacts, hx.linked, fun d hd => hx.own d (List.mem_of_mem_filter hd), hx.sent⟩
  | _ => exact hx.congr rfl rfl rfl

/-- A safe call keeps addresses. -/
theorem wellAddressed_apply (hcase : CaseCoding P) {x : ClientState B S}
    (hx : WellAddressed P L x) (a : ClientStep S) (ha : AddressSafe P L U E x a) :
    WellAddressed P L (a.apply P L U E N x) := by
  cases a with
  | importContact uriString customAlias =>
      exact (keepsAddresses_importContact hcase uriString customAlias x hx).1
  | handleIncomingMessage payload =>
      have hsame := sameAddresses_handleIncomingMessage (N := N) ha.1 ha.2
      exact hx.congr hsame.contacts hsame.own hsame.sent
  | processIncomingEnvelope payload =>
      have hsame := sameAddresses_processIncomingEnvelope (U := U) (E := E) (N := N) ha
      exact hx.congr hsame.contacts hsame.own hsame.sent
  | sendOutboundMessage hash plaintext =>
      exact (keepsAddresses_sendOutboundMessage hash plaintext x hx).1
  | addLinkedDevice hash device => exact (keepsAddresses_addLinkedDevice hcase hash ha x hx).1
  | linkOwnDevice qrUri assignedDeviceId => cases ha
  | saveOwnLinkedDevice device => cases ha
  | generatePreKeyBundle count => exact (keepsAddresses_engine _ x hx).1
  | statement s => exact wellAddressed_execute hx s

theorem wellAddressed_empty (identity : UserIdentity B S) :
    WellAddressed P L (ClientState.empty identity) where
  contacts r hr := by cases hr
  linked r hr := by cases hr
  own d hd := by cases hd
  sent e he := by cases he

/-- The address is the mailbox of a signing key that some contact URI names beside the identity
key. -/
def OpenedByOwner (C : RelayCoding P L A) (hash identity : S) : Prop :=
  ∃ signingKey, FromUri P L signingKey hash identity ∧ IsMailboxOf C hash signingKey

theorem Addressed.openedByOwner {hash identity : S} (h : Addressed P L hash identity)
    (C : RelayCoding P L A) : OpenedByOwner C hash identity := by
  obtain ⟨signingKey, haddress⟩ := h
  refine ⟨signingKey, haddress, ?_⟩
  obtain ⟨_, _, _, -, -, -, -, rfl⟩ := haddress
  exact isMailboxOf C signingKey

/-- In every run whose calls are safe, every stored contact has the mailbox of its stored signing
key, and every linked device, every own device and every envelope handed to the relay the mailbox of
a party. -/
theorem stored_addresses_openable (hcase : CaseCoding P) (C : RelayCoding P L A)
    {x : ClientState B S} (hx : ClientRun P L U E N (AddressSafe P L U E) x) :
    (∀ r ∈ x.contacts, ∃ signingKey, P.hexToBytes r.signing_pubkey_hex = .ok signingKey ∧
      IsMailboxOf C r.recipient_pubkey_hash signingKey) ∧
    (∀ r ∈ x.contacts, ∀ d ∈ r.linked_devices,
      OpenedByOwner C d.recipientPubkeyHash d.identityPubkeyHex) ∧
    (∀ d ∈ x.ownLinkedDevices, OpenedByOwner C d.recipientPubkeyHash d.identityPubkeyHex) ∧
    ∀ e ∈ x.sent, ∃ identity, OpenedByOwner C e.recipient_pubkey_hash identity := by
  have haddressed : WellAddressed P L x :=
    hx.invariant wellAddressed_empty fun _ a hy ha => wellAddressed_apply hcase hy a ha
  refine ⟨?_, ?_, ?_, ?_⟩
  · intro r hr
    obtain ⟨signingKey, haddress, hdecode⟩ := haddressed.contacts r hr
    refine ⟨signingKey, hdecode, ?_⟩
    obtain ⟨_, _, _, -, -, -, -, hhash⟩ := haddress
    rw [hhash]
    exact isMailboxOf C signingKey
  · exact fun r hr d hd => (haddressed.linked r hr d hd).openedByOwner C
  · exact fun d hd => (haddressed.own d hd).openedByOwner C
  · intro e he
    obtain ⟨identity, haddress⟩ := haddressed.sent e he
    exact ⟨identity, haddress.openedByOwner C⟩

section

open TorE2EE.Crypto.Sym

/-- Bytes for symbolic terms: a hash marks the bytes it is of, and other terms that are hashed here
are numbered. -/
def symbolicBytes : Sym → List UInt8
  | hkdf t nil (text "sha256") 32 => 0 :: symbolicBytes t
  | pub t => 1 :: symbolicBytes t
  | signingSecret n => List.replicate (n + 1) 2
  | name n => List.replicate (n + 1) 3
  | _ => []

/-- The relay's libraries beside the symbolic client: a hash marks the bytes it is of. -/
def symbolicRelay : Relay.AuthLibrary where
  hexError _ := "invalid hex"
  verifyingKeyFromBytes _ := .ok ()
  verifyStrict _ _ _ := .ok ()
  sha256 bytes := 0 :: bytes

/-- The relay's reading of symbolic terms. -/
def symbolicCoding : RelayCoding symbolicClient symbolicLibrary symbolicRelay where
  render t :=
    match t with
    | hex b => Relay.hexEncode (symbolicBytes b)
    | _ => ""
  bytes := symbolicBytes
  render_bytesToHex _ := rfl
  bytes_sha256 _ := rfl

theorem symbolicClient_caseCoding : CaseCoding symbolicClient where
  toLowerCase_toLowerCase _ := rfl
  toLowerCase_bytesToHex _ := rfl
  hexToBytes_toLowerCase _ _ := Iff.rfl

/-- A device of `alice` with the keys of `carol`. -/
def secondDevice : DeviceRecord Sym :=
  { deviceId := 2
    recipientPubkeyHash := carolParsed.recipientPubkeyHash
    identityPubkeyHex := hex (pub (name 3))
    deviceName := none
    createdAt := 1 }

/-- `bob` has written to `alice`, gets her answer, gets it again in the background, and writes to two
devices of hers. -/
def safeCalls : List (ClientStep Sym) :=
  writingCalls ++ [.handleIncomingMessage answerEnvelope, .processIncomingEnvelope answerEnvelope,
    .addLinkedDevice aliceHash secondDevice, .sendOutboundMessage aliceHash (text "again")]

/-- Calls of `bob` that keep addresses safe. -/
def SafeRun (calls : List (ClientStep Sym)) : Prop :=
  ClientRun symbolicClient symbolicLibrary symbolicUntyped symbolicEntropy symbolicNetwork
    (AddressSafe symbolicClient symbolicLibrary symbolicUntyped symbolicEntropy) (bobRuns calls)

theorem SafeRun.step {calls : List (ClientStep Sym)} (h : SafeRun calls) {a : ClientStep Sym}
    (ha : AddressSafe symbolicClient symbolicLibrary symbolicUntyped symbolicEntropy
      (bobRuns calls) a) : SafeRun (calls ++ [a]) := by
  obtain ⟨identity, hrun⟩ := h
  rw [SafeRun, bobRuns, List.foldl_append]
  exact ⟨identity, hrun.step a ha rfl⟩

/-- A sender that a computation finds is known. -/
theorem knownSender_of_find {x : ClientState Sym Sym} {payload : IncomingMessagePayload Sym}
    (h : ((symbolicLibrary.parseJson payload.encrypted_payload).map fun encryptedMsg =>
      ((findSender symbolicClient x encryptedMsg).toOption.bind Prod.snd).isSome) = some true) :
    KnownSender symbolicClient symbolicLibrary x payload := by
  intro encryptedMsg sender hjson hfind
  rw [hjson, Option.map_some, hfind] at h
  cases h

theorem safeCalls_run : SafeRun safeCalls := by
  have hstart : SafeRun [] :=
    ⟨symbolicIdentity 1, Reachable.start.step (.generatePreKeyBundle 1) True.intro rfl⟩
  have hwritten : SafeRun writingCalls :=
    (hstart.step (a := .importContact answeringUri none) trivial).step
      (a := .sendOutboundMessage aliceHash (text "hi")) trivial
  have hanswered : SafeRun (writingCalls ++ [.handleIncomingMessage answerEnvelope]) := by
    refine hwritten.step ⟨knownSender_of_find (by decide +kernel), ?_⟩
    intro sender found plaintext h parsedSync hash hopens hsync
    obtain ⟨found', h', hanswer⟩ := answer_opens
    cases hopens.plaintext_eq hanswer
    cases hsync
  have hrepeated := hanswered.step (a := .processIncomingEnvelope answerEnvelope)
    (knownSender_of_find (by decide +kernel))
  have haddressed : Addressed symbolicClient symbolicLibrary secondDevice.recipientPubkeyHash
      secondDevice.identityPubkeyHex :=
    ⟨_, carolUri, carolParsed, _, parseContactUri_carol, rfl, rfl, rfl, rfl⟩
  have hlinked := hrepeated.step (a := .addLinkedDevice aliceHash secondDevice) haddressed
  exact hlinked.step (a := .sendOutboundMessage aliceHash (text "again")) trivial

/-- `bob`'s one contact, its second device and all his envelopes are addressed to mailboxes of
parties. -/
theorem stored_addresses_openable_symbolic :
    (bobRuns safeCalls).contacts.map (fun r => r.linked_devices.length) = [2] ∧
      (bobRuns safeCalls).messages.length = 3 ∧ 2 ≤ (bobRuns safeCalls).sent.length ∧
      (∀ r ∈ (bobRuns safeCalls).contacts, ∃ signingKey,
        symbolicClient.hexToBytes r.signing_pubkey_hex = .ok signingKey ∧
          IsMailboxOf symbolicCoding r.recipient_pubkey_hash signingKey) ∧
      (∀ r ∈ (bobRuns safeCalls).contacts, ∀ d ∈ r.linked_devices,
        OpenedByOwner symbolicCoding d.recipientPubkeyHash d.identityPubkeyHex) ∧
      ∀ e ∈ (bobRuns safeCalls).sent, ∃ identity,
        OpenedByOwner symbolicCoding e.recipient_pubkey_hash identity := by
  obtain ⟨hcontacts, hlinked, -, hsent⟩ :=
    stored_addresses_openable symbolicClient_caseCoding symbolicCoding safeCalls_run
  exact ⟨by decide +kernel, by decide +kernel, by decide +kernel, hcontacts, hlinked, hsent⟩

/-- After a message of a stranger `bob` has a contact whose address is the hash of nothing. -/
theorem placeholder_address_not_openable :
    ¬ ∀ x : ClientState Sym Sym,
      x.Reachable symbolicClient symbolicLibrary symbolicUntyped symbolicEntropy symbolicNetwork →
      ∀ r ∈ x.contacts, ∃ signingKey,
        r.recipient_pubkey_hash =
          symbolicClient.bytesToHex (symbolicLibrary.sha256 signingKey) := by
  intro hopenable
  obtain ⟨identity, hrun⟩ := symbolicBob_reachable
  have hreceived := hopenable _
    ⟨identity, hrun.step (.handleIncomingMessage (symbolicIncoming (text "hello"))) True.intro rfl⟩
    { recipient_pubkey_hash := hex (pub (name 0))
      identity_pubkey_hex := hex (pub (name 0))
      signing_pubkey_hex := text ""
      contactAlias := some (text "Unknown Contact")
      created_at := 5
      linked_devices := [] } (by decide)
  obtain ⟨signingKey, hhash⟩ := hreceived
  cases hhash

end

end TorE2EE.Client
