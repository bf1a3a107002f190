import TorE2EE.Client.ContactExchange
import TorE2EE.Foundation.Tables
import Mathlib.Data.List.Sort

/-!
# The client database

The tables `contacts`, `messages` and `own_linked_devices` beside the Signal store, and the
statements of `ContactRepository` and `MessageRepository` on them. A table with a text key is in
insertion order, as its rows are stored; `own_linked_devices` has an integer key and is in its
order. A column that holds the JSON of a list is the list.

A program of the client performs engine operations, statements and calls of the relay one at a
time (`ClientOp`). `Network` fixes the answer to every call of the relay in advance.
-/

set_option autoImplicit false

namespace TorE2EE.Client

open TorE2EE.Foundation TorE2EE.Crypto

variable {B S : Type} [DecidableEq S]

/-! ## Records -/

/-- `DeviceRecord`. -/
structure DeviceRecord (S : Type) where
  deviceId : Int
  recipientPubkeyHash : S
  identityPubkeyHex : S
  deviceName : Option S
  createdAt : Nat
  deriving DecidableEq

/-- `OwnDeviceRecord`, and a row of `own_linked_devices`. -/
structure OwnDeviceRecord (S : Type) where
  deviceId : Int
  deviceName : S
  recipientPubkeyHash : S
  identityPubkeyHex : S
  createdAt : Nat
  deriving DecidableEq

/-- `ContactRecord`. A missing list of devices is the empty one. -/
structure ContactRecord (S : Type) where
  recipientPubkeyHash : S
  identityPubkeyHex : S
  signingPubkeyHex : S
  contactAlias : Option S
  createdAt : Nat
  linkedDevices : List (DeviceRecord S)
  deriving DecidableEq

/-- `deliveryStatus`. -/
inductive DeliveryStatus where
  | pending
  | sent
  | delivered
  | failed
  deriving DecidableEq

/-- `StoredMessage`. -/
structure StoredMessage (S : Type) where
  id : S
  contactPubkeyHash : S
  senderIdentityHex : S
  recipientIdentityHex : S
  body : S
  timestamp : Nat
  isOutgoing : Bool
  isRead : Bool
  deliveryStatus : DeliveryStatus
  deriving DecidableEq

/-- `OutgoingMessageEnvelope`. -/
structure OutgoingMessageEnvelope (S : Type) where
  recipient_pubkey_hash : S
  encrypted_payload : S
  nonce : S
  deriving DecidableEq

/-! ## Tables -/

/-- A row of `contacts`. -/
structure ContactRow (S : Type) where
  recipient_pubkey_hash : S
  identity_pubkey_hex : S
  signing_pubkey_hex : S
  contactAlias : Option S
  created_at : Nat
  linked_devices : List (DeviceRecord S)
  deriving DecidableEq

/-- A row of `messages`. -/
structure MessageRow (S : Type) where
  id : S
  contact_pubkey_hash : S
  sender_identity_hex : S
  recipient_identity_hex : S
  body : S
  timestamp : Nat
  is_outgoing : Bool
  is_read : Bool
  delivery_status : DeliveryStatus
  deriving DecidableEq

/-- The database, the number of the next draw, and the envelopes handed to the relay so far. -/
structure ClientState (B S : Type) where
  host : Host B S
  contacts : List (ContactRow S)
  messages : List (MessageRow S)
  ownLinkedDevices : List (OwnDeviceRecord S)
  sent : List (OutgoingMessageEnvelope S)

/-- A client that has stored nothing but its identity. -/
def ClientState.empty (identity : UserIdentity B S) : ClientState B S :=
  { host := { store := SignalStore.empty identity, draws := 0 }
    contacts := []
    messages := []
    ownLinkedDevices := []
    sent := [] }

/-! ## Statements -/

variable (P : Primitives B S)

/-- The row `saveContact` writes. -/
def contactRow (contact : ContactRecord S) : ContactRow S :=
  { recipient_pubkey_hash := P.toLowerCase contact.recipientPubkeyHash
    identity_pubkey_hex := P.toLowerCase contact.identityPubkeyHex
    signing_pubkey_hex := P.toLowerCase contact.signingPubkeyHex
    contactAlias := contact.contactAlias
    created_at := contact.createdAt
    linked_devices := contact.linkedDevices }

/-- `mapRowToContact`. -/
def mapRowToContact (row : ContactRow S) : ContactRecord S :=
  { recipientPubkeyHash := row.recipient_pubkey_hash
    identityPubkeyHex := row.identity_pubkey_hex
    signingPubkeyHex := row.signing_pubkey_hex
    contactAlias := row.contactAlias
    createdAt := row.created_at
    linkedDevices :=
      match row.linked_devices with
      | [] =>
          [{ deviceId := 1
             recipientPubkeyHash := row.recipient_pubkey_hash
             identityPubkeyHex := row.identity_pubkey_hex
             deviceName := some (P.lit "Primary Device")
             createdAt := row.created_at }]
      | devices => devices }

/-- The row `saveMessage` writes. -/
def messageRow (message : StoredMessage S) : MessageRow S :=
  { id := message.id
    contact_pubkey_hash := P.toLowerCase message.contactPubkeyHash
    sender_identity_hex := P.toLowerCase message.senderIdentityHex
    recipient_identity_hex := P.toLowerCase message.recipientIdentityHex
    body := message.body
    timestamp := message.timestamp
    is_outgoing := message.isOutgoing
    is_read := message.isRead
    delivery_status := message.deliveryStatus }

/-- A contact that is saved again keeps its creation time. -/
def replaceContact (row old : ContactRow S) : ContactRow S := { row with created_at := old.created_at }

/-- Of a message that is saved again only the body, the read flag and the status change. -/
def replaceMessage (row old : MessageRow S) : MessageRow S :=
  { old with
    body := row.body
    is_read := row.is_read
    delivery_status := row.delivery_status }

namespace ClientState

variable (x : ClientState B S)

/-- `saveContact`. -/
def saveContact (contact : ContactRecord S) : ClientState B S :=
  { x with
    contacts := upsertBy ContactRow.recipient_pubkey_hash (replaceContact (contactRow P contact))
      (contactRow P contact) x.contacts }

/-- `getContactByHash`. -/
def getContactByHash (recipientPubkeyHash : S) : Option (ContactRecord S) :=
  (x.contacts.find? fun row => row.recipient_pubkey_hash = P.toLowerCase recipientPubkeyHash).map
    (mapRowToContact P)

/-- `getContactByIdentityKey`: the first row with the key. -/
def getContactByIdentityKey (identityPubkeyHex : S) : Option (ContactRecord S) :=
  (x.contacts.find? fun row => row.identity_pubkey_hex = P.toLowerCase identityPubkeyHex).map
    (mapRowToContact P)

/-- `listContacts`: the latest first, equal times in the order of the rows. -/
def listContacts : List (ContactRecord S) :=
  (x.contacts.insertionSort fun r s => s.created_at ≤ r.created_at).map (mapRowToContact P)

/-- `saveMessage`. A new row must name a contact. -/
def saveMessage (message : StoredMessage S) : Except (ClientError S) Unit × ClientState B S :=
  let row := messageRow P message
  if (∃ r ∈ x.messages, r.id = row.id) ∨
      ∃ c ∈ x.contacts, c.recipient_pubkey_hash = row.contact_pubkey_hash then
    (.ok (),
      { x with
        messages := upsertBy MessageRow.id (replaceMessage row) row x.messages })
  else (.error .constraint, x)

/-- `saveOwnLinkedDevice`: the creation time of a row that is there stays. -/
def saveOwnLinkedDevice (device : OwnDeviceRecord S) : ClientState B S :=
  let createdAt :=
    match Rows.lookup OwnDeviceRecord.deviceId device.deviceId x.ownLinkedDevices with
    | some old => old.createdAt
    | none => device.createdAt
  { x with
    ownLinkedDevices := Rows.upsert OwnDeviceRecord.deviceId
      { device with
        recipientPubkeyHash := P.toLowerCase device.recipientPubkeyHash
        identityPubkeyHex := P.toLowerCase device.identityPubkeyHex
        createdAt } x.ownLinkedDevices }

end ClientState

/-- The statements that nothing is built on: each is one call of a repository. -/
inductive TableStatement (S : Type) where
  | updateAlias (recipientPubkeyHash : S) (contactAlias : Option S)
  | deleteContact (recipientPubkeyHash : S)
  | deleteOwnLinkedDevice (deviceId : Int)
  | markMessagesAsRead (contactPubkeyHash : S)
  | updateDeliveryStatus (id : S) (status : DeliveryStatus)
  | deleteMessage (id : S)
  | clearConversation (contactPubkeyHash : S)

/-- What a statement does. A contact with messages cannot be deleted. -/
def TableStatement.execute (x : ClientState B S) : TableStatement S → ClientState B S
  | updateAlias recipientPubkeyHash contactAlias =>
      { x with
        contacts := x.contacts.map fun row =>
          if row.recipient_pubkey_hash = P.toLowerCase recipientPubkeyHash then
            { row with contactAlias }
          else row }
  | deleteContact recipientPubkeyHash =>
      if ∃ m ∈ x.messages, m.contact_pubkey_hash = P.toLowerCase recipientPubkeyHash then x
      else
        { x with
          contacts := x.contacts.filter fun row =>
            row.recipient_pubkey_hash ≠ P.toLowerCase recipientPubkeyHash }
  | deleteOwnLinkedDevice deviceId =>
      { x with
        ownLinkedDevices := Rows.erase OwnDeviceRecord.deviceId deviceId x.ownLinkedDevices }
  | markMessagesAsRead contactPubkeyHash =>
      { x with
        messages := x.messages.map fun row =>
          if row.contact_pubkey_hash = P.toLowerCase contactPubkeyHash ∧ row.is_outgoing = false then
            { row with is_read := true }
          else row }
  | updateDeliveryStatus id status =>
      { x with
        messages := x.messages.map fun row =>
          if row.id = id then { row with delivery_status := status } else row }
  | deleteMessage id => { x with messages := x.messages.filter fun row => row.id ≠ id }
  | clearConversation contactPubkeyHash =>
      { x with
        messages := x.messages.filter fun row =>
          row.contact_pubkey_hash ≠ P.toLowerCase contactPubkeyHash }

/-! ## Programs of the client -/

/-- The operations of the client: those of the engine, the statements the client's methods use, and
a call of the relay. -/
inductive ClientOp (B S : Type) : Type where
  | engine (o : EngineOp B S)
  | saveContact (contact : ContactRecord S)
  | getContactByHash (recipientPubkeyHash : S)
  | getContactByIdentityKey (identityPubkeyHex : S)
  | listContacts
  | saveMessage (message : StoredMessage S)
  | saveOwnLinkedDevice (device : OwnDeviceRecord S)
  | listOwnLinkedDevices
  /-- `sendMessage`: the answer is `delivered_live`, or `none` when the call throws. -/
  | sendMessage (envelope : OutgoingMessageEnvelope S)

/-- The answers to the operations. -/
@[reducible] def ClientOp.Resp : ClientOp B S → Type
  | engine o => o.Resp
  | saveContact _ => Unit
  | getContactByHash _ => Option (ContactRecord S)
  | getContactByIdentityKey _ => Option (ContactRecord S)
  | listContacts => List (ContactRecord S)
  | saveMessage _ => Except (ClientError S) Unit
  | saveOwnLinkedDevice _ => Unit
  | listOwnLinkedDevices => List (OwnDeviceRecord S)
  | sendMessage _ => Option Bool

/-- The answer to every call of the relay, by its number. -/
abbrev Network : Type := Nat → Option Bool

/-- The effect and the answer of one operation. -/
def ClientOp.handle (E : Entropy B) (N : Network) :
    Handler (ClientOp B S) ClientOp.Resp (ClientState B S)
  | engine o, x => ((o.handle P E x.host).1, { x with host := (o.handle P E x.host).2 })
  | saveContact contact, x => ((), x.saveContact P contact)
  | getContactByHash hash, x => (x.getContactByHash P hash, x)
  | getContactByIdentityKey key, x => (x.getContactByIdentityKey P key, x)
  | listContacts, x => (x.listContacts P, x)
  | saveMessage message, x => x.saveMessage P message
  | saveOwnLinkedDevice device, x => ((), x.saveOwnLinkedDevice P device)
  | listOwnLinkedDevices, x => (x.ownLinkedDevices, x)
  | sendMessage envelope, x => (N x.sent.length, { x with sent := x.sent ++ [envelope] })

/-- A method of the client: a program over the operations. -/
abbrev ClientM (B S : Type) : Type → Type :=
  Program (ClientOp B S) ClientOp.Resp (ClientError S)

/-- A method run to its end. -/
abbrev ClientM.run {α : Type} (E : Entropy B) (N : Network) (c : ClientM B S α)
    (x : ClientState B S) : Except (ClientError S) α × ClientState B S :=
  Program.run (ClientOp.handle P E N) c x

/-- An engine call inside a method of the client. -/
def engine {α : Type} (c : EngineM B S α) : ClientM B S α :=
  Program.translate (fun o => Program.perform (ClientOp.engine o)) .engine c

/-- An engine call acts on the Signal store and the draws. -/
theorem run_engine {α : Type} (E : Entropy B) (N : Network) (c : EngineM B S α)
    (x : ClientState B S) :
    (engine c).run P E N x =
      ((c.run P E x.host).1.mapError .engine, { x with host := (c.run P E x.host).2 }) := by
  apply Program.run_translate (EngineOp.handle P E) ClientState.host (fun host x => { x with host })
  · intro host x
    rfl
  · intro host host' x
    rfl
  · intro x
    rfl
  · intro o x
    rfl

end TorE2EE.Client
