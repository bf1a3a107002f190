import TorE2EE.Client.Database

/-!
# Methods of the client

`AppOrchestrator.handleIncomingMessage` and `sendOutboundMessage`,
`BackgroundSyncService.processIncomingEnvelope`, `ContactExchange.importContact`,
`ContactRepository.addLinkedDevice` and `DeviceLinkManager.provisionSlaveDevice`, as programs over
the operations of `ClientOp`, in the order in which the source performs them. Events and local
notifications come after the last operation and are left out.

JSON from outside has any shape. A value of the declared shape goes to the engine as the record it
is; what the engine does with any other value is a parameter, `UntypedCalls`.
-/

set_option autoImplicit false

namespace TorE2EE.Client

open TorE2EE.Foundation TorE2EE.Crypto

variable {B S : Type} [DecidableEq S]

/-- The engine calls on values that are not of the declared type. -/
structure UntypedCalls (B S : Type) where
  decrypt : S → Json S → EngineM B S S
  initiateSession : S → ContactExportPayload S → EngineM B S Unit

variable (P : Primitives B S) (L : ClientLibrary B S) (U : UntypedCalls B S)

/-- An operation of the client. -/
abbrev ask (o : ClientOp B S) : ClientM B S o.Resp := Program.perform o

/-- `Date.now()`. -/
def dateNow : ClientM B S Nat := ask (.engine .now)

/-- `nacl.randomBytes`. -/
def randomBytes (n : Nat) : ClientM B S B := ask (.engine (.randomBytes n))

/-! ## Values from JSON -/

/-- A property, where a value without properties has none. -/
def property (name : String) (v : Json S) : Option (Json S) := (v.get (P.lit name)).join

/-- The text a value is stored as. -/
def bindText (v : Option (Json S)) : Option S :=
  match v with
  | none => none
  | some .null => none
  | some (.string s) => some s
  | some v => L.bindOther v

/-- The integer a value is, if it is one. -/
def integer? : Option (Json S) → Option Int
  | some (.number n) => if n.den = 1 then some n.num else none
  | _ => none

/-- A string property that the engine reads through a truth test only. -/
def optionalString (v : Option (Json S)) : Option (Option S) :=
  if Json.truthy (P.lit "") v then (Json.string? v).map some else some none

/-- An integer property that the engine compares with `undefined`. -/
def optionalInteger : Option (Json S) → Option (Option Int)
  | none => some none
  | some v => (integer? (some v)).map some

/-- The value as an `EncryptedMessage`, when it has the declared shape. -/
def readMessage (v : Json S) : Option (EncryptedMessage S) := do
  let ephemeralPublicKeyHex ← Json.string? (property P "ephemeralPublicKeyHex" v)
  let sequenceNumber ← integer? (property P "sequenceNumber" v)
  let previousChainLength ← integer? (property P "previousChainLength" v)
  let ciphertext ← Json.string? (property P "ciphertext" v)
  let nonce ← Json.string? (property P "nonce" v)
  let oneTimePreKeyId ← optionalInteger (property P "oneTimePreKeyId" v)
  let initialIdentityKeyHex ← optionalString P (property P "initialIdentityKeyHex" v)
  let initialEphemeralKeyHex ← optionalString P (property P "initialEphemeralKeyHex" v)
  pure
    { ephemeralPublicKeyHex
      sequenceNumber
      previousChainLength
      ciphertext
      nonce
      oneTimePreKeyId
      initialIdentityKeyHex
      initialEphemeralKeyHex }

omit [DecidableEq S] in
/-- The object `encrypt` returns, without its undefined fields. -/
def messageJson (m : EncryptedMessage S) : Json S :=
  .object
    ([(P.lit "ephemeralPublicKeyHex", .string m.ephemeralPublicKeyHex),
        (P.lit "sequenceNumber", .number m.sequenceNumber),
        (P.lit "previousChainLength", .number m.previousChainLength),
        (P.lit "ciphertext", .string m.ciphertext), (P.lit "nonce", .string m.nonce)] ++
      (m.oneTimePreKeyId.map fun id => (P.lit "oneTimePreKeyId", .number id)).toList ++
      (m.initialIdentityKeyHex.map fun k => (P.lit "initialIdentityKeyHex", .string k)).toList ++
      (m.initialEphemeralKeyHex.map fun k => (P.lit "initialEphemeralKeyHex", .string k)).toList)

/-- The `oneTimePreKey` field of a payload, when it is missing or of the declared shape. -/
def readOneTimePreKey (v : Option (Json S)) : Option (Option (PublicOneTimePreKey S)) :=
  if Json.truthy (P.lit "") v then do
    let otk ← v
    let keyId ← integer? (property P "keyId" otk)
    let publicKeyHex ← Json.string? (property P "publicKeyHex" otk)
    pure (some { keyId, publicKeyHex })
  else some none

/-- The bundle of a payload. `initiateSession` does not read the id of the signed prekey. -/
def readBundle (payload : ContactExportPayload S) : Option (PreKeyBundle S) := do
  let identityKeyHex ← Json.string? (some payload.identityKeyHex)
  let oneTimePreKey ← readOneTimePreKey P payload.oneTimePreKey
  pure
    { identityKeyHex
      signingKeyHex := payload.signingKeyHex
      signedPreKey :=
        { keyId := (integer? payload.signedPreKey.keyId).getD 0
          publicKeyHex := payload.signedPreKey.publicKeyHex
          signatureHex := payload.signedPreKey.signatureHex }
      oneTimePreKey }

/-! ## Receiving -/

/-- `IncomingMessagePayload`. A missing time is zero. -/
structure IncomingMessagePayload (S : Type) where
  encrypted_payload : S
  created_at : Nat

/-- The contact made for an unknown key or hash. -/
def placeholderContact (key : S) (contactAlias : String) (createdAt : Nat) : ContactRecord S :=
  { recipientPubkeyHash := key
    identityPubkeyHex := key
    signingPubkeyHex := P.lit ""
    contactAlias := some (P.lit contactAlias)
    createdAt
    linkedDevices := [] }

/-- The first contact with a session: `hasSession` for one contact after the other. -/
def firstWithSession : List (ContactRecord S) → ClientM B S (Option (ContactRecord S))
  | [] => pure none
  | c :: contacts => do
      match ← ask (.engine (.getSession c.identityPubkeyHex)) with
      | some _ => pure (some c)
      | none => firstWithSession contacts

/-- The contact with the identity key an envelope names, made when there is none. -/
def contactOfKey (placeholderAlias : String) (initialIdentityKeyHex : Option (Json S)) :
    ClientM B S (S × ContactRecord S) :=
  match Json.string? initialIdentityKeyHex with
  | none => Program.throw .typeError
  | some key => do
      let senderIdentityHex := P.toLowerCase key
      match ← ask (.getContactByIdentityKey senderIdentityHex) with
      | some contact => pure (senderIdentityHex, contact)
      | none => do
          let createdAt ← dateNow
          let contact := placeholderContact P senderIdentityHex placeholderAlias createdAt
          ask (.saveContact contact)
          pure (senderIdentityHex, contact)

/-- The first contact with a session. -/
def contactOfSession (unresolved : ClientError S) : ClientM B S (S × ContactRecord S) := do
  let contacts ← ask .listContacts
  match ← firstWithSession contacts with
  | some contact => pure (P.toLowerCase contact.identityPubkeyHex, contact)
  | none => Program.throw unresolved

/-- The sender of an envelope, with its contact. The foreground and the background have a copy each,
with their own alias and error. -/
def resolveSender (placeholderAlias : String) (unresolved : ClientError S) (encryptedMsg : Json S) :
    ClientM B S (S × ContactRecord S) := do
  let initialIdentityKeyHex ← Program.ofExcept (getField P "initialIdentityKeyHex" encryptedMsg)
  let found ←
    if Json.truthy (P.lit "") initialIdentityKeyHex then
      contactOfKey P placeholderAlias initialIdentityKeyHex
    else contactOfSession P unresolved
  if found.1 = P.lit "" then Program.throw unresolved else pure found

/-- `decrypt` on a value of any shape. -/
def decryptJson (senderIdentityHex : S) (encryptedMsg : Json S) : EngineM B S S :=
  match readMessage P encryptedMsg with
  | some message => decrypt P senderIdentityHex message
  | none => U.decrypt senderIdentityHex encryptedMsg

/-- The first half of both receive methods: the envelope is parsed, its sender resolved, and its
message decrypted. -/
def openEnvelope (placeholderAlias : String) (unresolved : ClientError S)
    (payload : IncomingMessagePayload S) : ClientM B S (S × ContactRecord S × S) := do
  match L.parseJson payload.encrypted_payload with
  | none => Program.throw .syntaxError
  | some encryptedMsg => do
      let (senderIdentityHex, contact) ←
        resolveSender P placeholderAlias unresolved encryptedMsg
      let plaintext ← engine (decryptJson P U senderIdentityHex encryptedMsg)
      pure (senderIdentityHex, contact, plaintext)

/-- The variables of `handleIncomingMessage` that its inner `try` block assigns. -/
structure Incoming (S : Type) where
  isSync : Bool
  messageBody : Option (Json S)
  targetContactHash : Option (Json S)
  messageId : Json S

/-- A parsed plaintext with a true `isSyncMessage`: the assignments of the `try` block. -/
def applySync (parsedSync : Json S) (v : Incoming S) : Incoming S :=
  { isSync := true
    messageBody := property P "body" parsedSync
    targetContactHash := property P "originalRecipientHash" parsedSync
    messageId :=
      match property P "messageId" parsedSync with
      | some messageId =>
          if Json.truthy (P.lit "") (some messageId) then messageId else v.messageId
      | none => v.messageId }

/-- The plaintext is JSON with a true `isSyncMessage`. -/
def syncPayload (rawDecrypted : S) : Option (Json S) :=
  match L.parseJson rawDecrypted with
  | none => none
  | some parsedSync =>
      if Json.truthy (P.lit "") (property P "isSyncMessage" parsedSync) then some parsedSync
      else none

/-- The inner `try` block. What it throws is caught, and the variables stay as assigned: before the
assignments nothing has changed, and after them only a target that is no string throws. -/
def readSync (rawDecrypted : S) (v : Incoming S) : ClientM B S (Incoming S) :=
  match syncPayload P L rawDecrypted with
  | none => pure v
  | some parsedSync => do
      let v := applySync P parsedSync v
      match Json.string? v.targetContactHash with
      | none => pure v
      | some targetContactHash => do
          match ← ask (.getContactByHash targetContactHash) with
          | some _ => pure v
          | none => do
              let createdAt ← dateNow
              ask (.saveContact
                (placeholderContact P targetContactHash "Synced Conversation" createdAt))
              pure v

/-- The message `handleIncomingMessage` stores. A conversation that is no string has no
`toLowerCase`, and the driver may refuse an id or a body. -/
def bindIncoming (v : Incoming S) (senderIdentityHex recipientIdentityHex : S) (timestamp : Nat) :
    Except (ClientError S) (StoredMessage S) :=
  match Json.string? v.targetContactHash, bindText L (some v.messageId),
      bindText L v.messageBody with
  | some contactPubkeyHash, some id, some body =>
      pure
        { id
          contactPubkeyHash
          senderIdentityHex
          recipientIdentityHex
          body
          timestamp
          isOutgoing := v.isSync
          isRead := v.isSync
          deliveryStatus := .delivered }
  | _, _, _ => throw .typeError

/-- `payload.created_at ? payload.created_at * 1000 : Date.now()`. -/
def messageTime (payload : IncomingMessagePayload S) : ClientM B S Nat :=
  if payload.created_at = 0 then dateNow else pure (payload.created_at * 1000)

/-- `saveMessage`, which throws what the database refuses. -/
def storeMessage (message : StoredMessage S) : ClientM B S Unit := do
  let saved ← ask (.saveMessage message)
  Program.ofExcept saved

/-- The body of `handleIncomingMessage`. -/
def receiveMessage (payload : IncomingMessagePayload S) : ClientM B S (StoredMessage S) := do
  let (senderIdentityHex, contact, rawDecrypted) ←
    openEnvelope P L U "Unknown Contact" .unresolvedSender payload
  let messageId ← randomBytes 16
  let v ← readSync P L rawDecrypted
    { isSync := false
      messageBody := some (.string rawDecrypted)
      targetContactHash := some (.string contact.recipientPubkeyHash)
      messageId := .string (P.bytesToHex messageId) }
  let identity ← ask (.engine .getIdentity)
  let timestamp ← messageTime payload
  let storedMsg ← Program.ofExcept
    (bindIncoming L v senderIdentityHex identity.encryptionKey.publicKeyHex timestamp)
  storeMessage storedMsg
  pure storedMsg

/-- `handleIncomingMessage`: an error is reported and `null` returned. -/
def handleIncomingMessage (payload : IncomingMessagePayload S) :
    ClientM B S (Option (StoredMessage S)) := do
  match ← (receiveMessage P L U payload).catchError with
  | .ok storedMsg => pure (some storedMsg)
  | .error _ => pure none

/-- `processIncomingEnvelope`. -/
def processIncomingEnvelope (payload : IncomingMessagePayload S) : ClientM B S Unit := do
  let (senderIdentityHex, contact, plaintext) ←
    openEnvelope P L U "Neznámý kontakt" .senderNotResolved payload
  let messageId ← randomBytes 16
  let identity ← ask (.engine .getIdentity)
  let timestamp ← messageTime payload
  storeMessage
    { id := P.bytesToHex messageId
      contactPubkeyHash := contact.recipientPubkeyHash
      senderIdentityHex
      recipientIdentityHex := identity.encryptionKey.publicKeyHex
      body := plaintext
      timestamp
      isOutgoing := false
      isRead := false
      deliveryStatus := .delivered }

/-! ## Sending -/

/-- One device: the plaintext is encrypted and handed to the relay. -/
def dispatch (plaintext : S) (device : S × S) : ClientM B S Bool := do
  let (recipientPubkeyHash, identityPubkeyHex) := device
  let encryptedMsg ← engine (encrypt P identityPubkeyHex plaintext none)
  let answer ← ask (.sendMessage
    { recipient_pubkey_hash := recipientPubkeyHash
      encrypted_payload := L.stringifyJson (messageJson P encryptedMsg)
      nonce := encryptedMsg.nonce })
  match answer with
  | some deliveredLive => pure deliveredLive
  | none => Program.throw .rejected

/-- One device after another; a device that fails is passed over. -/
def dispatchAll (plaintext : S) : List (S × S) → ClientM B S Bool
  | [] => pure false
  | device :: devices => do
      let outcome ← (dispatch P L plaintext device).catchError
      let deliveredLater ← dispatchAll plaintext devices
      match outcome with
      | .ok deliveredLive => pure (deliveredLive || deliveredLater)
      | .error _ => pure deliveredLater

/-- The devices of a contact, or the contact itself as its only device. -/
def targetDevices (contact : ContactRecord S) : List (DeviceRecord S) :=
  match contact.linkedDevices with
  | [] =>
      [{ deviceId := 1
         recipientPubkeyHash := contact.recipientPubkeyHash
         identityPubkeyHex := contact.identityPubkeyHex
         deviceName := none
         createdAt := contact.createdAt }]
  | devices => devices

/-- The text of a `DeviceSyncPayload`. -/
def syncText (originalRecipientHash body messageId : S) (timestamp : Nat) : S :=
  L.stringifyJson (.object
    [(P.lit "isSyncMessage", .bool true),
      (P.lit "originalRecipientHash", .string originalRecipientHash),
      (P.lit "body", .string body), (P.lit "timestamp", .number timestamp),
      (P.lit "messageId", .string messageId)])

/-- `sendOutboundMessage`. -/
def sendOutboundMessage (contactPubkeyHash plaintext : S) : ClientM B S (StoredMessage S) := do
  match ← ask (.getContactByHash contactPubkeyHash) with
  | none => Program.throw (.contactNotFound contactPubkeyHash)
  | some contact => do
      let messageIdBytes ← randomBytes 16
      let messageId := P.bytesToHex messageIdBytes
      let now ← dateNow
      let deliveredAtLeastOnce ← dispatchAll P L plaintext
        ((targetDevices contact).map fun d => (d.recipientPubkeyHash, d.identityPubkeyHex))
      let ownDevices ← ask .listOwnLinkedDevices
      let _ ← dispatchAll P L (syncText P L contact.recipientPubkeyHash plaintext messageId now)
        (ownDevices.map fun d => (d.recipientPubkeyHash, d.identityPubkeyHex))
      let identity ← ask (.engine .getIdentity)
      let storedMsg : StoredMessage S :=
        { id := messageId
          contactPubkeyHash := contact.recipientPubkeyHash
          senderIdentityHex := identity.encryptionKey.publicKeyHex
          recipientIdentityHex := contact.identityPubkeyHex
          body := plaintext
          timestamp := now
          isOutgoing := true
          isRead := true
          deliveryStatus := if deliveredAtLeastOnce then .delivered else .sent }
      storeMessage storedMsg
      pure storedMsg

/-! ## Contacts and devices -/

/-- The alias of an imported contact: `customAlias || payload.alias || null`, as it is stored. -/
def importedAlias (customAlias : Option S) (payloadAlias : Option (Json S)) :
    Except (ClientError S) (Option S) :=
  if Json.truthy (P.lit "") (customAlias.map .string) then pure customAlias
  else if Json.truthy (P.lit "") payloadAlias then
    match bindText L payloadAlias with
    | some contactAlias => pure (some contactAlias)
    | none => throw .typeError
  else pure none

/-- The contact `importContact` saves. -/
def importedContact (parsed : ParsedContact S) (customAlias : Option S) (createdAt : Nat) :
    Except (ClientError S) (ContactRecord S) := do
  match parsed.payload.identityKeyHex with
  | .string identityPubkeyHex => do
      let contactAlias ← importedAlias P L customAlias parsed.payload.contactAlias
      pure
        { recipientPubkeyHash := parsed.recipientPubkeyHash
          identityPubkeyHex
          signingPubkeyHex := parsed.payload.signingKeyHex
          contactAlias
          createdAt
          linkedDevices := [] }
  | _ => throw .typeError

/-- `importContact`. -/
def importContact (uriString : S) (customAlias : Option S) : ClientM B S (ContactRecord S) := do
  let parsed ← Program.ofExcept (parseContactUri P L uriString)
  let createdAt ← dateNow
  let contact ← Program.ofExcept (importedContact P L parsed customAlias createdAt)
  ask (.saveContact contact)
  match readBundle P parsed.payload with
  | some bundle => do
      let _ ← engine (initiateSession P contact.identityPubkeyHex bundle)
      pure contact
  | none => do
      engine (U.initiateSession contact.identityPubkeyHex parsed.payload)
      pure contact

/-- `addLinkedDevice`. -/
def addLinkedDevice (recipientPubkeyHash : S) (device : DeviceRecord S) : ClientM B S Unit := do
  match ← ask (.getContactByHash recipientPubkeyHash) with
  | none => Program.throw (.contactNotFound recipientPubkeyHash)
  | some contact =>
      ask (.saveContact
        { contact with
          linkedDevices :=
            contact.linkedDevices.filter (fun d => d.deviceId ≠ device.deviceId) ++ [device] })

/-- `DeviceLinkQrPayload`, with the name as it is stored. -/
structure DeviceLinkQrPayload (S : Type) where
  ephemeralPubkeyHex : S
  ephemeralMailboxHash : S
  deviceName : S

/-- `parseLinkQrUri`. Whatever is thrown after the scheme has been read is one error. A payload with
a field that is no string is refused here; the relay and the driver would refuse it later. -/
def parseLinkQrUri (uriString : S) : Except (ClientError S) (DeviceLinkQrPayload S) := do
  let base64Data ← base64Part P L "tore2ee://link" .missingLinkParameter uriString
  let parsed : Option (DeviceLinkQrPayload S) := do
    let json ← L.parseJson (P.textDecode (P.fromBase64 (restoreBase64 P L base64Data)))
    let ephemeralPubkeyHex ← Json.string? (property P "ephemeralPubkeyHex" json)
    let ephemeralMailboxHash ← Json.string? (property P "ephemeralMailboxHash" json)
    let deviceName ← bindText L (property P "deviceName" json)
    pure { ephemeralPubkeyHex, ephemeralMailboxHash, deviceName }
  match parsed with
  | some payload =>
      if payload.ephemeralPubkeyHex = P.lit "" ∨ payload.ephemeralMailboxHash = P.lit "" then
        throw .invalidLink
      else pure payload
  | none => throw .invalidLink

/-- The text of a `DeviceProvisioningPayload`. -/
def provisioningText (masterIdentity : UserIdentity B S) (assignedDeviceId : Int) (deviceName : S)
    (timestamp : Nat) : S :=
  L.stringifyJson (.object
    [(P.lit "masterMnemonic", .string masterIdentity.mnemonic),
      (P.lit "deviceId", .number assignedDeviceId), (P.lit "deviceName", .string deviceName),
      (P.lit "masterRecipientPubkeyHash", .string masterIdentity.recipientPubkeyHash),
      (P.lit "timestamp", .number timestamp)])

/-- `provisionSlaveDevice`. -/
def provisionSlaveDevice (qrUri : S) (masterIdentity : UserIdentity B S) (assignedDeviceId : Int) :
    ClientM B S (OwnDeviceRecord S) := do
  let qrPayload ← Program.ofExcept (parseLinkQrUri P L qrUri)
  let timestamp ← dateNow
  let masterEphemeralSecret ← ask (.engine .secretKey)
  let slaveEphemeralPk ← Program.ofExcept
    ((P.hexToBytes qrPayload.ephemeralPubkeyHex).mapError .engine)
  let nonce ← randomBytes 24
  let encryptedBox ← Program.ofExcept
    ((L.box
      (P.textEncode
        (provisioningText P L masterIdentity assignedDeviceId qrPayload.deviceName timestamp))
      nonce slaveEphemeralPk masterEphemeralSecret).mapError .engine)
  let answer ← ask (.sendMessage
    { recipient_pubkey_hash := qrPayload.ephemeralMailboxHash
      encrypted_payload := L.stringifyJson (.object
        [(P.lit "masterEphemeralPkHex",
            .string (P.bytesToHex (P.scalarMultBase masterEphemeralSecret))),
          (P.lit "encryptedData", .string (P.toBase64 encryptedBox))])
      nonce := P.bytesToHex nonce })
  match answer with
  | none => Program.throw .rejected
  | some _ => do
      let createdAt ← dateNow
      pure
        { deviceId := assignedDeviceId
          deviceName := qrPayload.deviceName
          recipientPubkeyHash := qrPayload.ephemeralMailboxHash
          identityPubkeyHex := qrPayload.ephemeralPubkeyHex
          createdAt }

end TorE2EE.Client
