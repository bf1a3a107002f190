import TorE2EE.Crypto.Engine
import TorE2EE.Foundation.Json

/-!
# Contact URIs

`ContactExchange.parseContactUri`, and what of `IdentityManager` it needs. The runtime functions on
strings, `JSON.parse` and the hash function are the fields of `ClientLibrary`.

A payload is what the parser has checked: the two signing strings of the prekey and the signing key
are strings, since a signature was verified with them. The identity key is only tested for truth,
and the one-time prekey and the alias are not looked at.
-/

set_option autoImplicit false

namespace TorE2EE.Client

open TorE2EE.Foundation TorE2EE.Crypto

variable {B S : Type} [DecidableEq S]

/-- The functions of the runtime and of the libraries that the client calls, besides those of the
engine. -/
structure ClientLibrary (B S : Type) where
  sha256 : B → B
  trim : S → S
  startsWith : S → S → Bool
  /-- `text.indexOf(other)`: `none` stands for `-1`. -/
  indexOf : S → S → Option Nat
  /-- `text.substring(start)`. -/
  substring : S → Nat → S
  /-- `new URLSearchParams(query).get(name)`. -/
  searchParam : S → S → Option S
  /-- `text.replace(/x/g, y)`. -/
  replaceAll : (text x y : S) → S
  length : S → Nat
  append : S → S → S
  /-- `JSON.parse`: `none` stands for its `SyntaxError`. -/
  parseJson : S → Option (Json S)
  /-- `JSON.stringify`. -/
  stringifyJson : Json S → S
  /-- `nacl.box`, which throws on a wrong length. -/
  box : (message nonce theirPublicKey mySecretKey : B) → Except (EngineError S) B
  /-- The text in which the database driver stores a value that is no string: `none` stands for its
  refusal. -/
  bindOther : Json S → Option S

/-- The errors of the client. -/
inductive ClientError (S : Type) where
  | missingPayloadParameter
  | invalidPayload
  | missingKeys
  | signatureMismatch
  | publicKeyLength
  | unresolvedSender
  | senderNotResolved
  | contactNotFound (hash : S)
  | missingLinkParameter
  | invalidLink
  | rejected
  | typeError
  | syntaxError
  | constraint
  | engine (e : EngineError S)
  deriving DecidableEq

/-- The text of an error; `show` renders the string a template literal inserts. -/
def ClientError.message {S : Type} (render : S → String) : ClientError S → String
  | .missingPayloadParameter => "Invalid contact URI: missing payload parameter \"d\""
  | .invalidPayload => "Failed to parse contact payload: invalid base64 or JSON structure"
  | .missingKeys => "Contact payload is missing required cryptographic keys"
  | .signatureMismatch =>
      "Cryptographic verification failed: Signed PreKey signature does not match Signing Key"
  | .publicKeyLength => "Public key must be exactly 32 bytes"
  | .unresolvedSender => "Could not resolve sender identity for incoming message"
  | .senderNotResolved => "Sender identity cannot be resolved"
  | .missingLinkParameter => "Invalid device link URI: missing parameter \"d\""
  | .invalidLink => "Failed to parse device link QR code"
  | .rejected => "Relay server rejected message"
  | .contactNotFound hash => "Contact not found for hash: " ++ render hash
  | .typeError => "TypeError"
  | .syntaxError => "SyntaxError"
  | .constraint => "SQLITE_CONSTRAINT"
  | .engine e => e.message render

variable (P : Primitives B S) (L : ClientLibrary B S)

/-- `IdentityManager.computePubkeyHash`. -/
def computePubkeyHash (publicKey : B) : Except (ClientError S) S :=
  if P.length publicKey ≠ 32 then throw .publicKeyLength
  else pure (P.bytesToHex (L.sha256 publicKey))

/-- The `signedPreKey` field of a payload. -/
structure PayloadPreKey (S : Type) where
  keyId : Option (Json S)
  publicKeyHex : S
  signatureHex : S

/-- `ContactExportPayload`, as far as the parser has checked it. -/
structure ContactExportPayload (S : Type) where
  signingKeyHex : S
  identityKeyHex : Json S
  signedPreKey : PayloadPreKey S
  oneTimePreKey : Option (Json S)
  contactAlias : Option (Json S)

/-- The result of `parseContactUri`. Its bundle has the key fields of the payload. -/
structure ParsedContact (S : Type) where
  payload : ContactExportPayload S
  recipientPubkeyHash : S

/-! ## From the text to the payload -/

/-- The base64 part of a URI with a scheme, or the text itself when it has no scheme or no query. -/
def base64Part (scheme : String) (missing : ClientError S) (uriString : S) :
    Except (ClientError S) S :=
  let base64Data := L.trim uriString
  if L.startsWith base64Data (P.lit scheme) then
    match L.indexOf base64Data (P.lit "?") with
    | none => pure base64Data
    | some queryIndex =>
        let query := L.substring base64Data (queryIndex + 1)
        match L.searchParam query (P.lit "d") with
        | none => throw missing
        | some d => if d = P.lit "" then throw missing else pure d
  else pure base64Data

omit [DecidableEq S] in
/-- The padding loop: it ends when the length is a multiple of four, after three rounds at most. -/
def padBase64 : Nat → S → S
  | 0, text => text
  | n + 1, text =>
      if L.length text % 4 ≠ 0 then padBase64 n (L.append text (P.lit "=")) else text

omit [DecidableEq S] in
/-- Standard base64 from the URL-safe one. -/
def restoreBase64 (base64Data : S) : S :=
  padBase64 P L 3
    (L.replaceAll (L.replaceAll base64Data (P.lit "-") (P.lit "+")) (P.lit "_") (P.lit "/"))

/-- A property of a value that may be missing. -/
def getField (name : String) (v : Json S) : Except (ClientError S) (Option (Json S)) :=
  match v.get (P.lit name) with
  | some field => pure field
  | none => throw .typeError

/-- A property that must be there and count as true. -/
def requireField (name : String) (v : Json S) : Except (ClientError S) (Json S) := do
  match ← getField P name v with
  | none => throw .missingKeys
  | some field => if Json.truthy (P.lit "") (some field) then pure field else throw .missingKeys

/-- The signature check. A field that is no string makes `hexToBytes` throw inside
`verifySignature`, which then answers `false`. -/
def verifyPreKey (signingKey publicKey signature : Json S) :
    Except (ClientError S) (S × S × S) :=
  match signingKey, publicKey, signature with
  | .string signingKeyHex, .string publicKeyHex, .string signatureHex =>
      if verifySignature P publicKeyHex signatureHex signingKeyHex then
        pure (signingKeyHex, publicKeyHex, signatureHex)
      else throw .signatureMismatch
  | _, _, _ => throw .signatureMismatch

/-- The required fields, checked in the order of the source, and the signature check. -/
def readPayload (payload : Json S) : Except (ClientError S) (ContactExportPayload S) := do
  let signingKey ← requireField P "signingKeyHex" payload
  let identityKeyHex ← requireField P "identityKeyHex" payload
  let preKey ← requireField P "signedPreKey" payload
  let publicKey ← requireField P "publicKeyHex" preKey
  let signature ← requireField P "signatureHex" preKey
  let (signingKeyHex, publicKeyHex, signatureHex) ← verifyPreKey P signingKey publicKey signature
  let keyId ← getField P "keyId" preKey
  let oneTimePreKey ← getField P "oneTimePreKey" payload
  let contactAlias ← getField P "alias" payload
  pure
    { signingKeyHex
      identityKeyHex
      signedPreKey := { keyId, publicKeyHex, signatureHex }
      oneTimePreKey
      contactAlias }

/-- `parseContactUri`. -/
def parseContactUri (uriString : S) : Except (ClientError S) (ParsedContact S) := do
  let base64Data ← base64Part P L "tore2ee://contact" .missingPayloadParameter uriString
  let jsonStr := P.textDecode (P.fromBase64 (restoreBase64 P L base64Data))
  match L.parseJson jsonStr with
  | none => throw .invalidPayload
  | some json => do
      let payload ← readPayload P json
      let signingKeyBytes ← (P.hexToBytes payload.signingKeyHex).mapError .engine
      let recipientPubkeyHash ← computePubkeyHash P L signingKeyBytes
      pure { payload, recipientPubkeyHash }

/-! ## What an accepted text says -/

variable {P L}

omit [DecidableEq S] in
/-- A signature verifies when its three strings decode and the library accepts it. -/
theorem verifySignature_eq_true {challengeHex signatureHex publicKeyHex : S} :
    verifySignature P challengeHex signatureHex publicKeyHex = true ↔
      ∃ m signature publicKey, P.hexToBytes challengeHex = .ok m ∧
        P.hexToBytes signatureHex = .ok signature ∧ P.hexToBytes publicKeyHex = .ok publicKey ∧
        P.verifyDetached m signature publicKey = .ok true := by
  rw [verifySignature]
  cases P.hexToBytes challengeHex with
  | error e => simp [bind, Except.bind]
  | ok m =>
      cases P.hexToBytes signatureHex with
      | error e => simp [bind, Except.bind]
      | ok signature =>
          cases P.hexToBytes publicKeyHex with
          | error e => simp [bind, Except.bind]
          | ok publicKey =>
              cases hv : P.verifyDetached m signature publicKey with
              | error e => simp [hv, bind, Except.bind]
              | ok verdict => simp [hv, bind, Except.bind]

omit [DecidableEq S] in
theorem verifyPreKey_eq_ok {signingKey publicKey signature : Json S}
    {signingKeyHex publicKeyHex signatureHex : S} :
    verifyPreKey P signingKey publicKey signature =
        .ok (signingKeyHex, publicKeyHex, signatureHex) ↔
      signingKey = .string signingKeyHex ∧ publicKey = .string publicKeyHex ∧
        signature = .string signatureHex ∧
        verifySignature P publicKeyHex signatureHex signingKeyHex = true := by
  constructor
  · intro h
    unfold verifyPreKey at h
    split at h
    · split at h
      · next hverified =>
          cases h
          exact ⟨rfl, rfl, rfl, hverified⟩
      · cases h
    · cases h
  · rintro ⟨rfl, rfl, rfl, hverified⟩
    exact if_pos hverified

theorem requireField_eq_ok {name : String} {v field : Json S} :
    requireField P name v = .ok field ↔
      getField P name v = .ok (some field) ∧ Json.truthy (P.lit "") (some field) = true := by
  rw [requireField, bind_eq_ok]
  constructor
  · rintro ⟨found, hfound, h⟩
    cases found with
    | none => cases h
    | some found =>
        dsimp only at h
        split at h
        · next htruthy =>
            cases h
            exact ⟨hfound, htruthy⟩
        · cases h
  · rintro ⟨hfound, htruthy⟩
    refine ⟨some field, hfound, ?_⟩
    dsimp only
    rw [if_pos htruthy]
    rfl

variable (P) in
/-- What the parser has found in a JSON value whose payload it has read, where `preKey` is the
signed prekey. -/
structure Reads (json preKey : Json S) (payload : ContactExportPayload S) : Prop where
  signingKey : requireField P "signingKeyHex" json = .ok (.string payload.signingKeyHex)
  identityKey : requireField P "identityKeyHex" json = .ok payload.identityKeyHex
  signedPreKey : requireField P "signedPreKey" json = .ok preKey
  publicKey : requireField P "publicKeyHex" preKey =
    .ok (.string payload.signedPreKey.publicKeyHex)
  signature : requireField P "signatureHex" preKey =
    .ok (.string payload.signedPreKey.signatureHex)
  verified : verifySignature P payload.signedPreKey.publicKeyHex payload.signedPreKey.signatureHex
    payload.signingKeyHex = true
  keyId : getField P "keyId" preKey = .ok payload.signedPreKey.keyId
  oneTimePreKey : getField P "oneTimePreKey" json = .ok payload.oneTimePreKey
  contactAlias : getField P "alias" json = .ok payload.contactAlias

theorem readPayload_eq_ok {json : Json S} {payload : ContactExportPayload S} :
    readPayload P json = .ok payload ↔ ∃ preKey, Reads P json preKey payload := by
  constructor
  · intro h
    rw [readPayload] at h
    -- each check of the parser has passed
    obtain ⟨signingKey, hsigning, h⟩ := bind_eq_ok.1 h
    obtain ⟨identityKeyHex, hidentity, h⟩ := bind_eq_ok.1 h
    obtain ⟨preKey, hpreKey, h⟩ := bind_eq_ok.1 h
    obtain ⟨publicKey, hpublic, h⟩ := bind_eq_ok.1 h
    obtain ⟨signature, hsignature, h⟩ := bind_eq_ok.1 h
    obtain ⟨⟨signingKeyHex, publicKeyHex, signatureHex⟩, hkeys, h⟩ := bind_eq_ok.1 h
    obtain ⟨keyId, hkeyId, h⟩ := bind_eq_ok.1 h
    obtain ⟨oneTimePreKey, hone, h⟩ := bind_eq_ok.1 h
    obtain ⟨contactAlias, halias, h⟩ := bind_eq_ok.1 h
    cases h
    obtain ⟨rfl, rfl, rfl, hverified⟩ := verifyPreKey_eq_ok.1 hkeys
    exact ⟨preKey, hsigning, hidentity, hpreKey, hpublic, hsignature, hverified, hkeyId, hone,
      halias⟩
  · rintro ⟨preKey, h⟩
    have hkeys := verifyPreKey_eq_ok.2 ⟨rfl, rfl, rfl, h.verified⟩
    simp [readPayload, h.signingKey, h.identityKey, h.signedPreKey, h.publicKey, h.signature, hkeys,
      h.keyId, h.oneTimePreKey, h.contactAlias, bind, Except.bind, pure, Except.pure]

omit [DecidableEq S] in
theorem computePubkeyHash_eq_ok {key : B} {hash : S} :
    computePubkeyHash P L key = .ok hash ↔
      P.length key = 32 ∧ hash = P.bytesToHex (L.sha256 key) := by
  rw [computePubkeyHash]
  split
  · next hlength => exact iff_of_false (fun h => by cases h) fun h => hlength h.1
  · next hlength =>
      constructor
      · intro h
        cases h
        exact ⟨Decidable.not_not.1 hlength, rfl⟩
      · rintro ⟨-, rfl⟩
        rfl

/-- The text of a contact decodes to a JSON value. -/
def DecodesTo (P : Primitives B S) (L : ClientLibrary B S) (uriString : S) (json : Json S) : Prop :=
  ∃ base64Data, base64Part P L "tore2ee://contact" .missingPayloadParameter uriString =
      .ok base64Data ∧
    L.parseJson (P.textDecode (P.fromBase64 (restoreBase64 P L base64Data))) = some json

/-- A text is accepted when it decodes to a payload that can be read, whose signing key is 32 bytes;
the mailbox is the hash of that key. -/
theorem parseContactUri_eq_ok {uriString : S} {parsed : ParsedContact S} :
    parseContactUri P L uriString = .ok parsed ↔
      ∃ json preKey key, DecodesTo P L uriString json ∧ Reads P json preKey parsed.payload ∧
        P.hexToBytes parsed.payload.signingKeyHex = .ok key ∧ P.length key = 32 ∧
        parsed.recipientPubkeyHash = P.bytesToHex (L.sha256 key) := by
  constructor
  · intro h
    rw [parseContactUri] at h
    obtain ⟨base64Data, hpart, h⟩ := bind_eq_ok.1 h
    cases hjson : L.parseJson (P.textDecode (P.fromBase64 (restoreBase64 P L base64Data))) with
    | none =>
        simp only [hjson] at h
        cases h
    | some json =>
        simp only [hjson] at h
        obtain ⟨payload, hpayload, h⟩ := bind_eq_ok.1 h
        obtain ⟨key, hdecode, h⟩ := bind_eq_ok.1 h
        obtain ⟨recipientPubkeyHash, hhash, h⟩ := bind_eq_ok.1 h
        cases h
        obtain ⟨preKey, hreads⟩ := readPayload_eq_ok.1 hpayload
        obtain ⟨hlength, rfl⟩ := computePubkeyHash_eq_ok.1 hhash
        exact ⟨json, preKey, key, ⟨base64Data, hpart, hjson⟩, hreads, mapError_eq_ok.1 hdecode, hlength,
          rfl⟩
  · rintro ⟨json, preKey, key, ⟨base64Data, hpart, hjson⟩, hreads, hkey, hlength, hhash⟩
    have hsum := computePubkeyHash_eq_ok.2 ⟨hlength, hhash⟩
    simp [parseContactUri, hpart, hjson, readPayload_eq_ok.2 ⟨preKey, hreads⟩, hkey, hsum,
      Except.mapError, bind, Except.bind, pure, Except.pure]

/-- What an accepted text says: its signature is valid for its prekey under its signing key, and the
mailbox is the hash of the signing key. -/
theorem parseContactUri_ok {uriString : S} {parsed : ParsedContact S}
    (h : parseContactUri P L uriString = .ok parsed) :
    verifySignature P parsed.payload.signedPreKey.publicKeyHex
        parsed.payload.signedPreKey.signatureHex parsed.payload.signingKeyHex = true ∧
      ∃ signingKey, P.hexToBytes parsed.payload.signingKeyHex = .ok signingKey ∧
        P.length signingKey = 32 ∧
        parsed.recipientPubkeyHash = P.bytesToHex (L.sha256 signingKey) := by
  obtain ⟨json, preKey, key, -, hreads, hkey, hlength, hhash⟩ := parseContactUri_eq_ok.1 h
  exact ⟨hreads.verified, key, hkey, hlength, hhash⟩

/-! ## What the signature leaves open -/

/-- A JSON value has the signed fields of a payload: the signing key, and the key and the signature
of the prekey. -/
structure SignedFields (P : Primitives B S) (payload : ContactExportPayload S)
    (json preKey : Json S) : Prop where
  signingKey : getField P "signingKeyHex" json = .ok (some (.string payload.signingKeyHex))
  signedPreKey : getField P "signedPreKey" json = .ok (some preKey)
  publicKey : getField P "publicKeyHex" preKey =
    .ok (some (.string payload.signedPreKey.publicKeyHex))
  signature : getField P "signatureHex" preKey =
    .ok (some (.string payload.signedPreKey.signatureHex))

theorem getField_of_getField {name : String} {v : Json S} {field : Option (Json S)}
    (h : getField P name v = .ok field) (other : String) :
    ∃ field', getField P other v = .ok field' := by
  cases v with
  | null => cases h
  | _ => exact ⟨_, rfl⟩

/-- A value that has a property of the name is no falsy one. -/
theorem truthy_of_getField {name : String} {v field : Json S}
    (h : getField P name v = .ok (some field)) : Json.truthy (P.lit "") (some v) = true := by
  cases v with
  | object fields => rfl
  | null => cases h
  | _ => cases h

/-- A payload with the signed fields of one that was read is read, whatever else it has. -/
theorem Reads.of_signedFields {json json' preKey preKey' identityKeyHex : Json S}
    {payload : ContactExportPayload S} (h : Reads P json preKey payload)
    (hsame : SignedFields P payload json' preKey')
    (hidentity : requireField P "identityKeyHex" json' = .ok identityKeyHex) :
    ∃ payload', Reads P json' preKey' payload' ∧
      payload'.signingKeyHex = payload.signingKeyHex ∧ payload'.identityKeyHex = identityKeyHex := by
  obtain ⟨keyId, hkeyId⟩ := getField_of_getField hsame.publicKey "keyId"
  obtain ⟨oneTimePreKey, hone⟩ := getField_of_getField hsame.signingKey "oneTimePreKey"
  obtain ⟨contactAlias, halias⟩ := getField_of_getField hsame.signingKey "alias"
  refine ⟨{ payload with
    identityKeyHex
    signedPreKey := { payload.signedPreKey with keyId }
    oneTimePreKey
    contactAlias }, ?_, rfl, rfl⟩
  -- the signed strings are not empty, as they were not before
  exact
    { signingKey := requireField_eq_ok.2 ⟨hsame.signingKey, (requireField_eq_ok.1 h.signingKey).2⟩
      identityKey := hidentity
      signedPreKey := requireField_eq_ok.2 ⟨hsame.signedPreKey, truthy_of_getField hsame.publicKey⟩
      publicKey := requireField_eq_ok.2 ⟨hsame.publicKey, (requireField_eq_ok.1 h.publicKey).2⟩
      signature := requireField_eq_ok.2 ⟨hsame.signature, (requireField_eq_ok.1 h.signature).2⟩
      verified := h.verified
      keyId := hkeyId
      oneTimePreKey := hone
      contactAlias := halias }

/-- A text with the signed fields of an accepted contact is accepted, whatever identity key, key
id, one-time prekey and alias it has. -/
theorem parseContactUri_of_signedFields {uriString uriString' : S} {parsed : ParsedContact S}
    (h : parseContactUri P L uriString = .ok parsed) {json' preKey identityKeyHex : Json S}
    (hdecodes : DecodesTo P L uriString' json')
    (hsame : SignedFields P parsed.payload json' preKey)
    (hidentity : requireField P "identityKeyHex" json' = .ok identityKeyHex) :
    ∃ parsed', parseContactUri P L uriString' = .ok parsed' ∧
      parsed'.recipientPubkeyHash = parsed.recipientPubkeyHash ∧
      parsed'.payload.identityKeyHex = identityKeyHex ∧
      getField P "keyId" preKey = .ok parsed'.payload.signedPreKey.keyId ∧
      getField P "oneTimePreKey" json' = .ok parsed'.payload.oneTimePreKey ∧
      getField P "alias" json' = .ok parsed'.payload.contactAlias := by
  obtain ⟨json, preKey₀, key, -, hreads, hkey, hlength, hhash⟩ := parseContactUri_eq_ok.1 h
  obtain ⟨payload', hreads', hsigning, hid⟩ := hreads.of_signedFields hsame hidentity
  refine ⟨{ payload := payload', recipientPubkeyHash := parsed.recipientPubkeyHash }, ?_, rfl, hid,
    hreads'.keyId, hreads'.oneTimePreKey, hreads'.contactAlias⟩
  exact parseContactUri_eq_ok.2
    ⟨json', preKey, key, hdecodes, hreads', hsigning ▸ hkey, hlength, hhash⟩

end TorE2EE.Client
