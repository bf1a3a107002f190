import TorE2EE.Client.ContactUris
import TorE2EE.Client.Receiving

/-!
# Linking a device, end to end

The slave shows a pairing code (`generateLinkQrPayload`), the master scans it and dispatches the
provisioning data in a box for the slave's ephemeral key (`provisionSlaveDevice`), and the slave opens
the box (`decryptProvisioningPayload`). `BoxLibrary` holds the calls of the last step that no other
method makes, and `BoxLibrary.Lawful` what is assumed of `nacl.box`.

`deviceLinking` says what the slave reads, and that nothing is read with the secret key of another
public key, under another nonce, or from bytes that are no box for these keys under this nonce.
-/

set_option autoImplicit false

namespace TorE2EE.Client

open TorE2EE.Foundation TorE2EE.Crypto

section

variable {B S : Type} [DecidableEq S]

/-- The calls of `decryptProvisioningPayload` that no other method makes. -/
structure BoxLibrary (B S : Type) where
  /-- `nacl.box.open`: `none` stands for `null`; throws on a wrong length. -/
  boxOpen : (box nonce theirPublicKey mySecretKey : B) → Except (EngineError S) (Option B)
  /-- `Buffer.from(value, 'base64')` of a value that is no string: `none` stands for its
  `TypeError`. -/
  bufferFrom : Option (Json S) → Option B

/-- The errors of `decryptProvisioningPayload`. -/
inductive ProvisioningError (S : Type) where
  | macCheckFailed
  | client (e : ClientError S)

/-- The text of an error; `show` renders the string a template literal inserts. -/
def ProvisioningError.message {S : Type} (render : S → String) : ProvisioningError S → String
  | .macCheckFailed => "Failed to decrypt provisioning payload: MAC check failed"
  | .client e => e.message render

/-- The result of `generateLinkQrPayload`. -/
structure LinkQr (B S : Type) where
  qrUri : S
  ephemeralKeyPair : Curve25519KeyPair B S
  ephemeralMailboxHash : S

variable (P : Primitives B S) (L : ClientLibrary B S) (X : BoxLibrary B S)

/-- The object a pairing code carries. -/
def linkPayload (ephemeralPubkeyHex ephemeralMailboxHash deviceName : S) : Json S :=
  .object
    [(P.lit "version", .number 1), (P.lit "ephemeralPubkeyHex", .string ephemeralPubkeyHex),
      (P.lit "ephemeralMailboxHash", .string ephemeralMailboxHash),
      (P.lit "deviceName", .string deviceName)]

/-- The key of a `string` field through `hexToBytes`, which throws on anything else. -/
def hexField (name : String) (v : Json S) : Except (ProvisioningError S) B :=
  match v.get (P.lit name) with
  | some (some (.string hex)) => (P.hexToBytes hex).mapError fun e => .client (.engine e)
  | _ => throw (.client .typeError)

/-- The bytes of a field through `Buffer.from(field, 'base64')`. -/
def base64Field (name : String) (v : Json S) : Except (ProvisioningError S) B :=
  match v.get (P.lit name) with
  | none => throw (.client .typeError)
  | some (some (.string text)) => pure (P.fromBase64 text)
  | some field =>
      match X.bufferFrom field with
      | some bytes => pure bytes
      | none => throw (.client .typeError)

/-- What the slave reads in the box it has opened. -/
def readOpened (decryptedBytes : Option B) : Except (ProvisioningError S) (Json S) :=
  match decryptedBytes with
  | none => throw .macCheckFailed
  | some decryptedBytes =>
      match L.parseJson (P.textDecode decryptedBytes) with
      | none => throw (.client .syntaxError)
      | some payload => pure payload

/-- `decryptProvisioningPayload`. -/
def decryptProvisioningPayload (envelopePayload nonceHex : S) (slaveSecretKey : B) :
    Except (ProvisioningError S) (Json S) := do
  match L.parseJson envelopePayload with
  | none => throw (.client .syntaxError)
  | some parsed => do
      let masterEphemeralPk ← hexField P "masterEphemeralPkHex" parsed
      let encryptedBox ← base64Field P X "encryptedData" parsed
      let nonce ← (P.hexToBytes nonceHex).mapError fun e => .client (.engine e)
      let decryptedBytes ← (X.boxOpen encryptedBox nonce masterEphemeralPk slaveSecretKey).mapError
        fun e => .client (.engine e)
      readOpened P L decryptedBytes

/-- The object in an envelope: the master's ephemeral key and the box. -/
def envelopeJson (masterEphemeralPkHex encryptedData : S) : Json S :=
  .object
    [(P.lit "masterEphemeralPkHex", .string masterEphemeralPkHex),
      (P.lit "encryptedData", .string encryptedData)]

/-- The text of an envelope. -/
def envelopeText (masterEphemeralPkHex encryptedData : S) : S :=
  L.stringifyJson (envelopeJson P masterEphemeralPkHex encryptedData)

/-! ## The run of the master -/

variable {P L}

/-- `provisionSlaveDevice`, when the code is good and the box can be closed: one envelope is
dispatched, and a record is returned unless the relay rejects it. -/
theorem run_provisionSlaveDevice {E : Entropy B} {N : Network} {qrUri : S}
    {qrPayload : DeviceLinkQrPayload S} (hparse : parseLinkQrUri P L qrUri = .ok qrPayload)
    {slaveEphemeralPk : B} (hkey : P.hexToBytes qrPayload.ephemeralPubkeyHex = .ok slaveEphemeralPk)
    (masterIdentity : UserIdentity B S) (assignedDeviceId : Int) (x : ClientState B S)
    {encryptedBox : B}
    (hbox : L.box
      (P.textEncode (provisioningText P L masterIdentity assignedDeviceId qrPayload.deviceName
        (E.now x.host.draws)))
      (E.randomBytes (x.host.draws + 2) 24) slaveEphemeralPk (E.secretKey (x.host.draws + 1)) =
        .ok encryptedBox) :
    let r := (provisionSlaveDevice P L qrUri masterIdentity assignedDeviceId).run P E N x
    r.2.sent = x.sent ++
        [{ recipient_pubkey_hash := qrPayload.ephemeralMailboxHash
           encrypted_payload := envelopeText P L
             (P.bytesToHex (P.scalarMultBase (E.secretKey (x.host.draws + 1))))
             (P.toBase64 encryptedBox)
           nonce := P.bytesToHex (E.randomBytes (x.host.draws + 2) 24) }] ∧
      r.1 = if N x.sent.length = none then .error .rejected
        else .ok
          { deviceId := assignedDeviceId
            deviceName := qrPayload.deviceName
            recipientPubkeyHash := qrPayload.ephemeralMailboxHash
            identityPubkeyHex := qrPayload.ephemeralPubkeyHex
            createdAt := E.now (x.host.draws + 3) } := by
  have hok (b : B) : (Except.ok b : Except (EngineError S) B).mapError ClientError.engine =
      .ok b := rfl
  dsimp only
  rw [provisionSlaveDevice, dateNow, randomBytes, ask]
  rw [hparse]
  simp only [ClientM.run, Program.run_ofExcept_ok_bind, Program.run_perform_bind, ClientOp.handle,
    EngineOp.handle, hkey, hbox, hok]
  -- the relay rejects the envelope or takes it
  cases N x.sent.length with
  | none => exact ⟨rfl, rfl⟩
  | some deliveredLive => exact ⟨rfl, rfl⟩

/-! ## What the slave reads -/

omit [DecidableEq S] in
theorem readOpened_ok {opened : Option B} {payload : Json S} :
    readOpened P L opened = .ok payload ↔
      ∃ bytes, opened = some bytes ∧ L.parseJson (P.textDecode bytes) = some payload := by
  cases opened with
  | none => simp [readOpened, throw, throwThe, MonadExceptOf.throw]
  | some bytes =>
      cases hjson : L.parseJson (P.textDecode bytes) with
      | none => simp [readOpened, hjson, throw, throwThe, MonadExceptOf.throw]
      | some v => simp [readOpened, hjson, pure, Except.pure]

/-- The call throws. -/
def Throws {ε α : Type} (x : Except ε α) : Prop := ∃ e, x = .error e

theorem throws_of_not_ok {ε α : Type} {x : Except ε α} (h : ∀ a, x ≠ .ok a) : Throws x := by
  cases hx : x with
  | error e => exact ⟨e, rfl⟩
  | ok a => exact absurd hx (h a)

/-- A secret key of a public key. -/
def IsSecretKeyOf (P : Primitives B S) (publicKey secretKey : B) : Prop :=
  P.length secretKey = 32 ∧ P.scalarMultBase secretKey = publicKey

variable (P L) in
/-- What is assumed of `nacl.box`: a box opens under its own nonce with a secret key of the public
key it was made for, to its message, and under nothing else; and what opens is a box. -/
structure BoxLibrary.Lawful (X : BoxLibrary B S) : Prop where
  length_scalarMultBase : ∀ s, P.length s = 32 → P.length (P.scalarMultBase s) = 32
  box_ok : ∀ m n pk e, P.length n = 24 → P.length pk = 32 → P.length e = 32 →
    ∃ c, L.box m n pk e = .ok c
  boxOpen_box : ∀ {m n pk e c}, P.length e = 32 → L.box m n pk e = .ok c → ∀ n' s m',
    X.boxOpen c n' (P.scalarMultBase e) s = .ok (some m') ↔
      n' = n ∧ IsSecretKeyOf P pk s ∧ m' = m
  box_of_boxOpen : ∀ {c n e s m}, P.length e = 32 →
    X.boxOpen c n (P.scalarMultBase e) s = .ok (some m) → L.box m n (P.scalarMultBase s) e = .ok c

/-- The draws have the lengths they are asked for, and the time is a number of the language. -/
structure GoodDraws (P : Primitives B S) (E : Entropy B) : Prop where
  length_secretKey : ∀ d, P.length (E.secretKey d) = 32
  length_randomBytes : ∀ d n, P.length (E.randomBytes d n) = n
  isNumber_now : ∀ d, IsNumber (E.now d)

/-- The object in the box. -/
def provisioningJson (P : Primitives B S) (masterIdentity : UserIdentity B S)
    (assignedDeviceId : Int) (deviceName : S) (timestamp : Nat) : Json S :=
  .object
    [(P.lit "masterMnemonic", .string masterIdentity.mnemonic),
      (P.lit "deviceId", .number assignedDeviceId), (P.lit "deviceName", .string deviceName),
      (P.lit "masterRecipientPubkeyHash", .string masterIdentity.recipientPubkeyHash),
      (P.lit "timestamp", .number timestamp)]

/-- The payload holds the master's mnemonic and mailbox hash, the id and the name. -/
structure Provisions (P : Primitives B S) (masterIdentity : UserIdentity B S)
    (assignedDeviceId : Int) (deviceName : S) (payload : Json S) : Prop where
  masterMnemonic : property P "masterMnemonic" payload = some (.string masterIdentity.mnemonic)
  masterRecipientPubkeyHash : property P "masterRecipientPubkeyHash" payload =
    some (.string masterIdentity.recipientPubkeyHash)
  deviceId : property P "deviceId" payload = some (.number assignedDeviceId)
  deviceName : property P "deviceName" payload = some (.string deviceName)

/-- The record has the id and the name, and the slave's mailbox and key. -/
structure RecordOf (link : LinkQr B S) (assignedDeviceId : Int) (deviceName : S)
    (record : OwnDeviceRecord S) : Prop where
  deviceId : record.deviceId = assignedDeviceId
  deviceName : record.deviceName = deviceName
  recipientPubkeyHash : record.recipientPubkeyHash = link.ephemeralMailboxHash
  identityPubkeyHex : record.identityPubkeyHex = link.ephemeralKeyPair.publicKeyHex

variable (P L)

/-- The envelope holds a box that was closed with the secret key under the nonce. -/
structure ClosedWith (masterSecretKey nonce encryptedBox : B) (envelope : OutgoingMessageEnvelope S) :
    Prop where
  encrypted_payload : envelope.encrypted_payload =
    envelopeText P L (P.bytesToHex (P.scalarMultBase masterSecretKey)) (P.toBase64 encryptedBox)
  nonce : envelope.nonce = P.bytesToHex nonce

/-- The slave's call throws with a key that is no secret key of its public key, under another nonce,
and on bytes that `nacl.box` makes of no message for these keys under this nonce. -/
structure OpensOnly (publicKey secretKey masterSecretKey nonce : B)
    (envelope : OutgoingMessageEnvelope S) : Prop where
  otherKey : ∀ key, ¬ IsSecretKeyOf P publicKey key →
    Throws (decryptProvisioningPayload P L X envelope.encrypted_payload envelope.nonce key)
  otherNonce : ∀ nonceHex, P.hexToBytes nonceHex ≠ .ok nonce →
    Throws (decryptProvisioningPayload P L X envelope.encrypted_payload nonceHex secretKey)
  otherBytes : ∀ encryptedData,
    (∀ m, L.box m nonce publicKey masterSecretKey ≠ .ok (P.fromBase64 encryptedData)) →
    Throws (decryptProvisioningPayload P L X
      (envelopeText P L (P.bytesToHex (P.scalarMultBase masterSecretKey)) encryptedData)
      envelope.nonce secretKey)

end

/-! ## On strings of code units -/

/-- `generateLinkQrPayload`, where `secretKey` is the one `nacl.box.keyPair` draws. -/
def Units.generateLinkQrPayload (P : Primitives (List UInt8) (List UInt16))
    (L : ClientLibrary (List UInt8) (List UInt16)) (secretKey : List UInt8)
    (deviceName : Option (List UInt16)) : LinkQr (List UInt8) (List UInt16) :=
  let deviceName := deviceName.getD (P.lit "Desktop Client")
  let ephemeralKeyPair := keyPairOf P secretKey
  let ephemeralMailboxHash := P.bytesToHex (L.sha256 ephemeralKeyPair.publicKey)
  { qrUri := Units.linkUri P L "tore2ee://link"
      (linkPayload P ephemeralKeyPair.publicKeyHex ephemeralMailboxHash deviceName)
    ephemeralKeyPair
    ephemeralMailboxHash }

namespace UnitRuntime

variable {N : Numerals} {P : Primitives (List UInt8) (List UInt16)}
  {L : ClientLibrary (List UInt8) (List UInt16)} {X : BoxLibrary (List UInt8) (List UInt16)}
  (h : UnitRuntime N P L)

include h

/-- The hex of 32 bytes is not empty. -/
theorem bytesToHex_ne_empty {bytes : List UInt8} (hbytes : bytes.length = 32) :
    P.bytesToHex bytes ≠ P.lit "" := by
  have hempty : P.lit "" = [] := h.lit ""
  rw [hempty]
  exact h.ne_empty_of_hexToBytes (h.hexToBytes_bytesToHex bytes)
    (List.ne_nil_of_length_pos (by omega))

/-- The master reads what the slave put into the code. -/
theorem parseLinkQrUri_generated {secretKey : List UInt8}
    (hsecret : (P.scalarMultBase secretKey).length = 32) (deviceName : Option (List UInt16)) :
    parseLinkQrUri P L (Units.generateLinkQrPayload P L secretKey deviceName).qrUri =
      .ok { ephemeralPubkeyHex := P.bytesToHex (P.scalarMultBase secretKey)
            ephemeralMailboxHash := P.bytesToHex (L.sha256 (P.scalarMultBase secretKey))
            deviceName := deviceName.getD (P.lit "Desktop Client") } := by
  generalize hname : deviceName.getD (P.lit "Desktop Client") = name
  generalize hkey : P.bytesToHex (P.scalarMultBase secretKey) = key
  generalize hhash : P.bytesToHex (L.sha256 (P.scalarMultBase secretKey)) = hash
  have huri : (Units.generateLinkQrPayload P L secretKey deviceName).qrUri =
      [] ++ Units.linkUri P L "tore2ee://link" (linkPayload P key hash name) ++ [] := by
    rw [← hname, ← hkey, ← hhash, List.append_nil]
    rfl
  have hpart : base64Part P L "tore2ee://link" .missingLinkParameter
      (Units.generateLinkQrPayload P L secretKey deviceName).qrUri =
        .ok (Units.linkData P L (linkPayload P key hash name)) := by
    rw [huri]
    exact h.base64Part_linkUri isScheme_link _ _ (fun _ hu => by cases hu) fun _ hu => by cases hu
  have hintegral : JsonText.Integral (linkPayload P key hash name) := by
    apply JsonText.Integral.object
    simp only [List.forall_mem_cons, List.not_mem_nil, false_imp_iff, implies_true, and_true]
    exact ⟨.number (n := 1) (isNumber_of_lt (by decide)), .string _, .string _, .string _⟩
  have hjson : L.parseJson (P.textDecode (P.fromBase64
      (restoreBase64 P L (Units.linkData P L (linkPayload P key hash name))))) =
        some (linkPayload P key hash name) := h.parseJson_linkData hintegral
  have hfields : property P "ephemeralPubkeyHex" (linkPayload P key hash name) =
        some (.string key) ∧
      property P "ephemeralMailboxHash" (linkPayload P key hash name) = some (.string hash) ∧
      property P "deviceName" (linkPayload P key hash name) = some (.string name) := by
    simp [property, linkPayload, Json.get, h.lit_inj]
  have hkeyne : key ≠ P.lit "" := by
    rw [← hkey]
    exact h.bytesToHex_ne_empty hsecret
  have hhashne : hash ≠ P.lit "" := by
    rw [← hhash]
    exact h.bytesToHex_ne_empty (h.sha256_length _)
  -- the hex strings count as true
  have hneither : ¬ (key = P.lit "" ∨ hash = P.lit "") := by
    rintro (heq | heq)
    · exact hkeyne heq
    · exact hhashne heq
  rw [parseLinkQrUri, hpart]
  simp only [hjson, hfields.1, hfields.2.1, hfields.2.2, Json.string?, bindText, bind, Except.bind,
    Option.bind, if_neg hneither, pure, Except.pure]

/-- The slave gets a payload out of an envelope exactly when its nonce decodes and the box opens to
the text of one. -/
theorem decryptProvisioningPayload_ok (masterEphemeralPk : List UInt8)
    {encryptedData nonceHex : List UInt16} {secretKey : List UInt8} {payload : Json (List UInt16)} :
    decryptProvisioningPayload P L X
        (envelopeText P L (P.bytesToHex masterEphemeralPk) encryptedData) nonceHex secretKey =
      .ok payload ↔
      ∃ nonce bytes, P.hexToBytes nonceHex = .ok nonce ∧
        X.boxOpen (P.fromBase64 encryptedData) nonce masterEphemeralPk secretKey =
          .ok (some bytes) ∧
        L.parseJson (P.textDecode bytes) = some payload := by
  -- the envelope is parsed to its two fields
  have hintegral :
      JsonText.Integral (envelopeJson P (P.bytesToHex masterEphemeralPk) encryptedData) := by
    apply JsonText.Integral.object
    simp only [List.forall_mem_cons, List.not_mem_nil, false_imp_iff, implies_true, and_true]
    exact ⟨.string _, .string _⟩
  have hkey : hexField P "masterEphemeralPkHex"
      (envelopeJson P (P.bytesToHex masterEphemeralPk) encryptedData) = .ok masterEphemeralPk := by
    have hget : (envelopeJson P (P.bytesToHex masterEphemeralPk) encryptedData).get
        (P.lit "masterEphemeralPkHex") = some (some (.string (P.bytesToHex masterEphemeralPk))) := by
      simp [envelopeJson, Json.get, h.lit_inj]
    simp only [hexField, hget, h.hexToBytes_bytesToHex]
    rfl
  have hbox : base64Field P X "encryptedData"
      (envelopeJson P (P.bytesToHex masterEphemeralPk) encryptedData) =
        .ok (P.fromBase64 encryptedData) := by
    simp [base64Field, envelopeJson, Json.get, pure, Except.pure]
  rw [decryptProvisioningPayload, envelopeText, h.parseJson_stringifyJson hintegral]
  simp only [hkey, hbox]
  show (P.hexToBytes nonceHex).mapError _ >>= _ = _ ↔ _
  rw [bind_eq_ok]
  simp only [mapError_eq_ok, bind_eq_ok, readOpened_ok]
  -- what is left are the nonce, the box and the text in it
  constructor
  · rintro ⟨nonce, hnonce, _, hopen, bytes, rfl, hjson⟩
    exact ⟨nonce, bytes, hnonce, hopen, hjson⟩
  · rintro ⟨nonce, bytes, hnonce, hopen, hjson⟩
    exact ⟨nonce, hnonce, _, hopen, bytes, rfl, hjson⟩

/-- What is in the box is read back. -/
theorem parseJson_provisioningText (masterIdentity : UserIdentity (List UInt8) (List UInt16))
    {assignedDeviceId : Int} (hid : IsNumber assignedDeviceId) (deviceName : List UInt16)
    {timestamp : Nat} (htime : IsNumber timestamp) :
    L.parseJson (P.textDecode (P.textEncode
        (provisioningText P L masterIdentity assignedDeviceId deviceName timestamp))) =
      some (provisioningJson P masterIdentity assignedDeviceId deviceName timestamp) := by
  apply h.parseJson_textDecode
  apply JsonText.Integral.object
  simp only [List.forall_mem_cons, List.not_mem_nil, false_imp_iff, implies_true, and_true]
  exact ⟨.string _, .number hid, .string _, .string _, .number htime⟩

theorem provisions_provisioningJson (masterIdentity : UserIdentity (List UInt8) (List UInt16))
    (assignedDeviceId : Int) (deviceName : List UInt16) (timestamp : Nat) :
    Provisions P masterIdentity assignedDeviceId deviceName
      (provisioningJson P masterIdentity assignedDeviceId deviceName timestamp) where
  masterMnemonic := by simp [property, provisioningJson, Json.get, h.lit_inj]
  masterRecipientPubkeyHash := by simp [property, provisioningJson, Json.get, h.lit_inj]
  deviceId := by simp [property, provisioningJson, Json.get, h.lit_inj]
  deviceName := by simp [property, provisioningJson, Json.get, h.lit_inj]

theorem fromBase64_toBase64 (bytes : List UInt8) : P.fromBase64 (P.toBase64 bytes) = bytes := by
  rw [h.toBase64]
  exact h.fromBase64 _ _ (readBase64_base64Text bytes)

end UnitRuntime

variable {N : Numerals} {P : Primitives (List UInt8) (List UInt16)}
  {L : ClientLibrary (List UInt8) (List UInt16)} {X : BoxLibrary (List UInt8) (List UInt16)}
  {E : Entropy (List UInt8)}

/-- A box for the slave opens under nothing but what it was closed with. -/
theorem opensOnly_of_closedWith (h : UnitRuntime N P L) (hbox : X.Lawful P L)
    {slaveSecretKey masterSecretKey message nonce encryptedBox : List UInt8}
    (hmaster : P.length masterSecretKey = 32)
    (hclosed : L.box message nonce (P.scalarMultBase slaveSecretKey) masterSecretKey =
      .ok encryptedBox)
    {envelope : OutgoingMessageEnvelope (List UInt16)}
    (henvelope : ClosedWith P L masterSecretKey nonce encryptedBox envelope) :
    OpensOnly P L X (P.scalarMultBase slaveSecretKey) slaveSecretKey masterSecretKey nonce
      envelope where
  otherKey key hother := by
    -- whatever opens the box used the key and the nonce it was closed with
    apply throws_of_not_ok
    intro payload hok
    rw [henvelope.encrypted_payload] at hok
    obtain ⟨nonce', bytes, -, hopen, -⟩ := (h.decryptProvisioningPayload_ok _).1 hok
    rw [h.fromBase64_toBase64] at hopen
    exact hother ((hbox.boxOpen_box hmaster hclosed nonce' key bytes).1 hopen).2.1
  otherNonce nonceHex hother := by
    apply throws_of_not_ok
    intro payload hok
    rw [henvelope.encrypted_payload] at hok
    obtain ⟨nonce', bytes, hnonce, hopen, -⟩ := (h.decryptProvisioningPayload_ok _).1 hok
    rw [h.fromBase64_toBase64] at hopen
    rw [((hbox.boxOpen_box hmaster hclosed nonce' slaveSecretKey bytes).1 hopen).1] at hnonce
    exact hother hnonce
  otherBytes encryptedData hother := by
    apply throws_of_not_ok
    intro payload hok
    rw [henvelope.nonce] at hok
    obtain ⟨nonce', bytes, hnonce, hopen, -⟩ := (h.decryptProvisioningPayload_ok _).1 hok
    have hsame : nonce' = nonce := Except.ok.inj (hnonce.symm.trans (h.hexToBytes_bytesToHex nonce))
    rw [hsame] at hopen
    exact hother bytes (hbox.box_of_boxOpen hmaster hopen)

/-- Device linking, end to end. The master dispatches one envelope, to the slave's ephemeral mailbox.
The slave reads the master's mnemonic and mailbox hash, the id and the name in it, and the record the
master keeps has the same id, name, mailbox and key. Nothing is read with another key, under another
nonce or from other bytes. -/
theorem deviceLinking (h : UnitRuntime N P L) (hbox : X.Lawful P L) (hE : GoodDraws P E)
    (relay : Network) {slaveSecretKey : List UInt8} (hslave : P.length slaveSecretKey = 32)
    (deviceName : Option (List UInt16)) (masterIdentity : UserIdentity (List UInt8) (List UInt16))
    {assignedDeviceId : Int} (hid : IsNumber assignedDeviceId)
    (x : ClientState (List UInt8) (List UInt16)) :
    let link := Units.generateLinkQrPayload P L slaveSecretKey deviceName
    let name := deviceName.getD (P.lit "Desktop Client")
    let r := (provisionSlaveDevice P L link.qrUri masterIdentity assignedDeviceId).run P E relay x
    ∃ envelope masterSecretKey nonce encryptedBox payload,
      r.2.sent = x.sent ++ [envelope] ∧
        envelope.recipient_pubkey_hash = link.ephemeralMailboxHash ∧
        ClosedWith P L masterSecretKey nonce encryptedBox envelope ∧
        decryptProvisioningPayload P L X envelope.encrypted_payload envelope.nonce slaveSecretKey =
          .ok payload ∧
        Provisions P masterIdentity assignedDeviceId name payload ∧
        (∀ record, r.1 = .ok record → RecordOf link assignedDeviceId name record) ∧
        (relay x.sent.length ≠ none → ∃ record, r.1 = .ok record) ∧
        OpensOnly P L X link.ephemeralKeyPair.publicKey slaveSecretKey masterSecretKey nonce
          envelope := by
  intro link name r
  have hmaster := hE.length_secretKey (x.host.draws + 1)
  have hpublic := hbox.length_scalarMultBase slaveSecretKey hslave
  have hparse := h.parseLinkQrUri_generated ((h.byteLength _).symm.trans hpublic) deviceName
  -- the master can close the box, since all lengths are right
  obtain ⟨encryptedBox, hclosed⟩ := hbox.box_ok
    (P.textEncode (provisioningText P L masterIdentity assignedDeviceId name
      (E.now x.host.draws)))
    (E.randomBytes (x.host.draws + 2) 24) (P.scalarMultBase slaveSecretKey)
    (E.secretKey (x.host.draws + 1)) (hE.length_randomBytes _ _) hpublic hmaster
  obtain ⟨hsent, hresult⟩ := run_provisionSlaveDevice (E := E) (N := relay) hparse
    (h.hexToBytes_bytesToHex _) masterIdentity assignedDeviceId x hclosed
  -- the slave opens it and reads what was put in
  have hopens := (hbox.boxOpen_box hmaster hclosed _ slaveSecretKey _).2 ⟨rfl, ⟨hslave, rfl⟩, rfl⟩
  have hread := h.parseJson_provisioningText masterIdentity hid name
    (hE.isNumber_now x.host.draws)
  refine ⟨_, _, _, encryptedBox, _, hsent, rfl, ⟨rfl, rfl⟩, ?_,
    h.provisions_provisioningJson masterIdentity assignedDeviceId name (E.now x.host.draws), ?_, ?_,
    opensOnly_of_closedWith h hbox hmaster hclosed ⟨rfl, rfl⟩⟩
  · refine (h.decryptProvisioningPayload_ok _).2
      ⟨_, _, h.hexToBytes_bytesToHex _, ?_, hread⟩
    rw [h.fromBase64_toBase64]
    exact hopens
  · intro record hrecord
    rw [hresult] at hrecord
    split at hrecord
    · cases hrecord
    · cases hrecord
      exact ⟨rfl, rfl, rfl, rfl⟩
  · intro hanswer
    rw [hresult, if_neg hanswer]
    exact ⟨_, rfl⟩

/-! ## A name that is no text -/

/-- Boxes that hold what they were closed with. -/
def byteBox : BoxLibrary (List UInt8) (List UInt16) where
  boxOpen box nonce theirPublicKey mySecretKey :=
    if nonce.length = 24 ∧ theirPublicKey.length = 32 ∧ mySecretKey.length = 32 then
      .ok (if (sealedText nonce mySecretKey theirPublicKey).isPrefixOf box then
        some (box.drop (sealedText nonce mySecretKey theirPublicKey).length) else none)
    else .error (.library "bad size")
  bufferFrom _ := none

theorem byteBox_closed {m n pk e c : List UInt8} :
    unitLibrary.box m n pk e = .ok c ↔
      (n.length = 24 ∧ pk.length = 32 ∧ e.length = 32) ∧ c = sealedText n pk e ++ m := by
  by_cases hsize : n.length = 24 ∧ pk.length = 32 ∧ e.length = 32
  · have hbox : unitLibrary.box m n pk e = .ok (sealedText n pk e ++ m) := if_pos hsize
    rw [hbox, Except.ok.injEq, and_iff_right hsize, eq_comm]
  · have hbox : unitLibrary.box m n pk e = .error (.library "bad size") := if_neg hsize
    rw [hbox]
    constructor
    · intro h
      cases h
    · exact fun h => absurd h.1 hsize

theorem drop_of_isPrefixOf_iff {t c m : List UInt8} :
    (if t.isPrefixOf c then some (c.drop t.length) else none) = some m ↔ c = t ++ m := by
  constructor
  · intro h
    split at h
    · next hprefix =>
      obtain ⟨rest, rfl⟩ := List.isPrefixOf_iff_prefix.1 hprefix
      rw [List.drop_left] at h
      rw [Option.some.inj h]
    · cases h
  · rintro rfl
    rw [if_pos (List.isPrefixOf_iff_prefix.2 (List.prefix_append t m)), List.drop_left]

theorem byteBox_opened {m n pk s c : List UInt8} :
    byteBox.boxOpen c n pk s = .ok (some m) ↔
      (n.length = 24 ∧ pk.length = 32 ∧ s.length = 32) ∧ c = sealedText n s pk ++ m := by
  by_cases hsize : n.length = 24 ∧ pk.length = 32 ∧ s.length = 32
  · have hopen : byteBox.boxOpen c n pk s = .ok (if (sealedText n s pk).isPrefixOf c then
        some (c.drop (sealedText n s pk).length) else none) := if_pos hsize
    rw [hopen, Except.ok.injEq, and_iff_right hsize, drop_of_isPrefixOf_iff]
  · have hopen : byteBox.boxOpen c n pk s = .error (.library "bad size") := if_neg hsize
    rw [hopen]
    constructor
    · intro h
      cases h
    · exact fun h => absurd h.1 hsize

theorem byteBox_lawful : byteBox.Lawful unitPrimitives unitLibrary where
  length_scalarMultBase _ hs := hs
  box_ok m n pk e hn hpk he := ⟨_, byteBox_closed.2 ⟨⟨hn, hpk, he⟩, rfl⟩⟩
  boxOpen_box := by
    intro m n pk e c _ hclosed n' s m'
    obtain ⟨⟨hn, hpk, he⟩, rfl⟩ := byteBox_closed.1 hclosed
    rw [byteBox_opened]
    constructor
    · rintro ⟨⟨hn', -, hs⟩, heq⟩
      simp only [sealedText, List.append_assoc] at heq
      obtain ⟨hnonce, hkeys⟩ := List.append_inj heq (hn.trans hn'.symm)
      obtain ⟨hkey, hrest⟩ := List.append_inj hkeys (hpk.trans hs.symm)
      exact ⟨hnonce.symm, ⟨hs, hkey.symm⟩, (List.append_cancel_left hrest).symm⟩
    · rintro ⟨rfl, ⟨hs, rfl⟩, rfl⟩
      exact ⟨⟨hn, he, hs⟩, rfl⟩
  box_of_boxOpen := by
    intro c n e s m _ hopen
    obtain ⟨⟨hn, hpk, hs⟩, rfl⟩ := byteBox_opened.1 hopen
    exact byteBox_closed.2 ⟨⟨hn, hs, hpk⟩, rfl⟩

/-- Draws of the lengths asked for, and a clock that stands still. -/
def byteDraws : Entropy (List UInt8) where
  secretKey d := sampleKey (UInt8.ofNat d)
  randomBytes d n := List.replicate n (UInt8.ofNat d)
  randomId _ := 1
  now _ := 1700000000000

theorem byteDraws_good : GoodDraws unitPrimitives byteDraws where
  length_secretKey _ := List.length_replicate ..
  length_randomBytes _ _ := List.length_replicate ..
  isNumber_now _ := isNumber_of_lt (show (1700000000000 : Int).natAbs < 2 ^ 53 by decide)

/-- A master identity. -/
def sampleIdentity : UserIdentity (List UInt8) (List UInt16) :=
  { mnemonic := units "legal winner"
    signingKey :=
      { publicKey := sampleKey 7
        secretKey := sampleKey 7 ++ sampleKey 7
        publicKeyHex := hexText (sampleKey 7) }
    encryptionKey := keyPairOf unitPrimitives (sampleKey 5)
    recipientPubkeyHash := hexText (sampleKey 7) }

/-- A name of one lone surrogate arrives as it is, and another key reads nothing. -/
theorem deviceLinking_surrogate :
    ∃ envelope payload,
      (ClientM.run unitPrimitives byteDraws (fun _ => some true)
        (provisionSlaveDevice unitPrimitives unitLibrary
          (Units.generateLinkQrPayload unitPrimitives unitLibrary (sampleKey 4)
            (some [0xD800])).qrUri sampleIdentity 2)
        (ClientState.empty sampleIdentity)).2.sent = [envelope] ∧
        decryptProvisioningPayload unitPrimitives unitLibrary byteBox envelope.encrypted_payload
          envelope.nonce (sampleKey 4) = .ok payload ∧
        property unitPrimitives "deviceName" payload = some (.string [0xD800]) ∧
        Throws (decryptProvisioningPayload unitPrimitives unitLibrary byteBox
          envelope.encrypted_payload envelope.nonce (sampleKey 6)) := by
  have hkey : unitPrimitives.length (sampleKey 4) = 32 := List.length_replicate ..
  have hid : IsNumber 2 := isNumber_of_lt (by decide)
  obtain ⟨envelope, _, _, _, payload, hsent, -, -, hread, hprovisions, -, -, honly⟩ :=
    deviceLinking unitRuntime_unit byteBox_lawful byteDraws_good (fun _ => some true) hkey
      (some [0xD800]) sampleIdentity hid (ClientState.empty sampleIdentity)
  refine ⟨envelope, payload, hsent, hread, hprovisions.deviceName, honly.otherKey _ ?_⟩
  rintro ⟨-, hsame⟩
  exact absurd hsame (by decide)

end TorE2EE.Client
