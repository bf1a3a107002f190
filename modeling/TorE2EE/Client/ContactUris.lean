import TorE2EE.Client.Methods
import TorE2EE.Client.UnitSymbolic

/-!
# Contact URIs round-trip

What `exportContactUri` writes of a bundle and an alias, `parseContactUri` reads back, within the URI
or bare and with white space around it (`parseContactUri_exported`). The strings of the bundle and
the alias are any code units: a surrogate that stands alone survives, since JSON escapes it.
-/

set_option autoImplicit false

namespace TorE2EE.Client

open TorE2EE.Foundation TorE2EE.Crypto

/-- The object that `exportContactUri` turns into JSON. -/
def contactPayload {B S : Type} (P : Primitives B S) (bundle : PreKeyBundle S)
    (contactAlias : Option S) : Json S :=
  .object
    ([(P.lit "signingKeyHex", .string bundle.signingKeyHex),
      (P.lit "identityKeyHex", .string bundle.identityKeyHex),
      (P.lit "signedPreKey", .object
        [(P.lit "keyId", .number bundle.signedPreKey.keyId),
          (P.lit "publicKeyHex", .string bundle.signedPreKey.publicKeyHex),
          (P.lit "signatureHex", .string bundle.signedPreKey.signatureHex)])] ++
      (bundle.oneTimePreKey.toList.map fun opk => (P.lit "oneTimePreKey", .object
        [(P.lit "keyId", .number opk.keyId), (P.lit "publicKeyHex", .string opk.publicKeyHex)])) ++
      contactAlias.toList.map fun text => (P.lit "alias", .string text))

/-- `exportContactUri`. -/
def Units.exportContactUri (P : Primitives (List UInt8) (List UInt16))
    (L : ClientLibrary (List UInt8) (List UInt16)) (bundle : PreKeyBundle (List UInt16))
    (contactAlias : Option (List UInt16)) : List UInt16 :=
  Units.linkUri P L "tore2ee://contact" (contactPayload P bundle contactAlias)

/-- The URI without the scheme and the query. -/
def Units.contactData (P : Primitives (List UInt8) (List UInt16))
    (L : ClientLibrary (List UInt8) (List UInt16)) (bundle : PreKeyBundle (List UInt16))
    (contactAlias : Option (List UInt16)) : List UInt16 :=
  Units.linkData P L (contactPayload P bundle contactAlias)

section

variable {B S : Type} (P : Primitives B S)

/-- The `signedPreKey` field of a payload. -/
def signedPreKeyJson (spk : PublicSignedPreKey S) : Json S :=
  .object [(P.lit "keyId", .number spk.keyId), (P.lit "publicKeyHex", .string spk.publicKeyHex),
    (P.lit "signatureHex", .string spk.signatureHex)]

/-- The `oneTimePreKey` field of a payload. -/
def oneTimePreKeyJson (opk : PublicOneTimePreKey S) : Json S :=
  .object [(P.lit "keyId", .number opk.keyId), (P.lit "publicKeyHex", .string opk.publicKeyHex)]

/-- The payload of a bundle and an alias, field by field. -/
def exportedPayload (bundle : PreKeyBundle S) (contactAlias : Option S) : ContactExportPayload S :=
  { signingKeyHex := bundle.signingKeyHex
    identityKeyHex := .string bundle.identityKeyHex
    signedPreKey :=
      { keyId := some (.number bundle.signedPreKey.keyId)
        publicKeyHex := bundle.signedPreKey.publicKeyHex
        signatureHex := bundle.signedPreKey.signatureHex }
    oneTimePreKey := bundle.oneTimePreKey.map (oneTimePreKeyJson P)
    contactAlias := contactAlias.map .string }

/-- The hex of a 32-byte key. -/
def IsKeyHex (s : S) : Prop := ∃ key, P.hexToBytes s = .ok key ∧ P.length key = 32

/-- What the parser checks of a bundle: 32-byte keys and a signed prekey. The ids are numbers of the
language. -/
structure CheckedBundle [DecidableEq S] (bundle : PreKeyBundle S) : Prop where
  signingKey : IsKeyHex P bundle.signingKeyHex
  identityKey : IsKeyHex P bundle.identityKeyHex
  signedPreKey : IsKeyHex P bundle.signedPreKey.publicKeyHex
  verified : verifySignature P bundle.signedPreKey.publicKeyHex bundle.signedPreKey.signatureHex
    bundle.signingKeyHex = true
  signedPreKeyId : IsNumber bundle.signedPreKey.keyId
  oneTimePreKeyId : ∀ opk, bundle.oneTimePreKey = some opk → IsNumber opk.keyId

/-- A bundle of 32-byte keys whose prekey is signed. -/
structure SignedBundle [DecidableEq S] (bundle : PreKeyBundle S) : Prop
    extends CheckedBundle P bundle where
  oneTimePreKey : ∀ opk, bundle.oneTimePreKey = some opk → IsKeyHex P opk.publicKeyHex

end

variable {N : Numerals} {P : Primitives (List UInt8) (List UInt16)}
  {L : ClientLibrary (List UInt8) (List UInt16)} {bundle : PreKeyBundle (List UInt16)}

/-! ## The payload is an object of the runtime -/

/-- A payload holds nothing but strings and the ids of the prekeys. -/
theorem integral_contactPayload (hbundle : CheckedBundle P bundle)
    (contactAlias : Option (List UInt16)) :
    JsonText.Integral (contactPayload P bundle contactAlias) := by
  have hpreKey : JsonText.Integral (signedPreKeyJson P bundle.signedPreKey) := by
    apply JsonText.Integral.object
    simp only [List.forall_mem_cons, List.not_mem_nil, false_imp_iff, implies_true, and_true]
    exact ⟨.number hbundle.signedPreKeyId, .string _, .string _⟩
  apply JsonText.Integral.object
  intro f hf
  simp only [List.mem_append, List.mem_cons, List.not_mem_nil, or_false, List.mem_map,
    Option.mem_toList] at hf
  rcases hf with ((rfl | rfl | rfl) | ⟨opk, hopk, rfl⟩) | ⟨text, -, rfl⟩
  · exact .string _
  · exact .string _
  · exact hpreKey
  · apply JsonText.Integral.object
    simp only [List.forall_mem_cons, List.not_mem_nil, false_imp_iff, implies_true, and_true]
    exact ⟨.number (hbundle.oneTimePreKeyId opk hopk), .string _⟩
  · exact .string _

/-! ## Reading the payload -/

section

variable (h : UnitRuntime N P L)

include h

theorem UnitRuntime.requireField_eq {name : String} {v field : Json (List UInt16)}
    (hget : v.get (P.lit name) = some (some field))
    (htruthy : Json.truthy [] (some field) = true) : requireField P name v = .ok field := by
  have hempty : P.lit "" = [] := h.lit ""
  simp [requireField, getField, hget, hempty, htruthy, bind, Except.bind, pure, Except.pure]

/-- The fields of a payload. An optional field that is missing reads as `undefined`. -/
theorem UnitRuntime.get_contactPayload (bundle : PreKeyBundle (List UInt16))
    (contactAlias : Option (List UInt16)) :
    (contactPayload P bundle contactAlias).get (P.lit "signingKeyHex") =
        some (some (.string bundle.signingKeyHex)) ∧
      (contactPayload P bundle contactAlias).get (P.lit "identityKeyHex") =
        some (some (.string bundle.identityKeyHex)) ∧
      (contactPayload P bundle contactAlias).get (P.lit "signedPreKey") =
        some (some (signedPreKeyJson P bundle.signedPreKey)) ∧
      (contactPayload P bundle contactAlias).get (P.lit "oneTimePreKey") =
        some (bundle.oneTimePreKey.map (oneTimePreKeyJson P)) ∧
      (contactPayload P bundle contactAlias).get (P.lit "alias") =
        some (contactAlias.map .string) := by
  cases hopk : bundle.oneTimePreKey with
  | none =>
      cases contactAlias <;> simp [contactPayload, Json.get, h.lit_inj, hopk, signedPreKeyJson]
  | some opk =>
      cases contactAlias <;>
        simp [contactPayload, Json.get, h.lit_inj, hopk, signedPreKeyJson, oneTimePreKeyJson]

/-- A key is no empty string, and neither is a signature that verifies. -/
theorem UnitRuntime.truthy_keyHex {s : List UInt16} (hs : IsKeyHex P s) :
    Json.truthy [] (some (.string s)) = true := by
  obtain ⟨key, hkey, hlength⟩ := hs
  rw [h.byteLength] at hlength
  have hne := h.ne_empty_of_hexToBytes hkey (List.ne_nil_of_length_pos (by omega))
  simpa [Json.truthy] using hne

theorem UnitRuntime.truthy_signature {challenge signature publicKey : List UInt16}
    (hverified : verifySignature P challenge signature publicKey = true) :
    Json.truthy [] (some (.string signature)) = true := by
  obtain ⟨m, b, k, -, hsignature, -, hvalid⟩ := verifySignature_eq_true.1 hverified
  have hlength := h.verifyDetached_length m b k hvalid
  have hne := h.ne_empty_of_hexToBytes hsignature (List.ne_nil_of_length_pos (by omega))
  simpa [Json.truthy] using hne

/-- The parser accepts the payload of the bundle. -/
theorem UnitRuntime.reads_contactPayload (hbundle : CheckedBundle P bundle)
    (contactAlias : Option (List UInt16)) :
    Reads P (contactPayload P bundle contactAlias) (signedPreKeyJson P bundle.signedPreKey)
      (exportedPayload P bundle contactAlias) := by
  obtain ⟨hsigning, hidentity, hpreKey, honeTime, halias⟩ :=
    h.get_contactPayload bundle contactAlias
  have hoptional {name : String} {field : Option (Json (List UInt16))}
      (hget : (contactPayload P bundle contactAlias).get (P.lit name) = some field) :
      getField P name (contactPayload P bundle contactAlias) = .ok field := by
    rw [getField, hget]
    rfl
  constructor
  -- every required field is there and counts as true
  case signingKey => exact h.requireField_eq hsigning (h.truthy_keyHex hbundle.signingKey)
  case identityKey => exact h.requireField_eq hidentity (h.truthy_keyHex hbundle.identityKey)
  case signedPreKey => exact h.requireField_eq hpreKey rfl
  case publicKey =>
    have hget : Json.get (P.lit "publicKeyHex") (signedPreKeyJson P bundle.signedPreKey) =
        some (some (.string bundle.signedPreKey.publicKeyHex)) := by
      simp [signedPreKeyJson, Json.get, h.lit_inj]
    exact h.requireField_eq hget (h.truthy_keyHex hbundle.signedPreKey)
  case signature =>
    have hget : Json.get (P.lit "signatureHex") (signedPreKeyJson P bundle.signedPreKey) =
        some (some (.string bundle.signedPreKey.signatureHex)) := by
      simp [signedPreKeyJson, Json.get]
    exact h.requireField_eq hget (h.truthy_signature hbundle.verified)
  case verified => exact hbundle.verified
  case keyId =>
    simp [getField, signedPreKeyJson, Json.get, h.lit_inj, pure, Except.pure, exportedPayload]
  case oneTimePreKey => exact hoptional honeTime
  case contactAlias => exact hoptional halias

/-- The bundle of the payload is the bundle that was exported. -/
theorem UnitRuntime.readBundle_exportedPayload (bundle : PreKeyBundle (List UInt16))
    (contactAlias : Option (List UInt16)) :
    readBundle P (exportedPayload P bundle contactAlias) = some bundle := by
  have hinteger (n : Int) : integer? (some (.number (n : Rat) : Json (List UInt16))) = some n := by
    simp [integer?]
  -- the one-time prekey is optional
  have hopk : readOneTimePreKey P (bundle.oneTimePreKey.map (oneTimePreKeyJson P)) =
      some bundle.oneTimePreKey := by
    cases bundle.oneTimePreKey with
    | none => rfl
    | some opk =>
        have hkeyId : property P "keyId" (oneTimePreKeyJson P opk) = some (.number opk.keyId) := by
          simp [property, oneTimePreKeyJson, Json.get, h.lit_inj]
        have hpublicKey : property P "publicKeyHex" (oneTimePreKeyJson P opk) =
            some (.string opk.publicKeyHex) := by
          simp [property, oneTimePreKeyJson, Json.get]
        simp only [readOneTimePreKey, Option.map_some, hkeyId, hpublicKey, hinteger,
          Option.bind_eq_bind, Option.bind_some, Json.string?]
        rfl
  simp only [readBundle, exportedPayload, hopk, hinteger, Json.string?, Option.bind_eq_bind,
    Option.bind_some, Option.getD_some]
  rfl

/-- A text in which the payload is found is parsed. -/
theorem UnitRuntime.parseContactUri_of_part (hbundle : CheckedBundle P bundle)
    {contactAlias : Option (List UInt16)} {uriString : List UInt16}
    (hpart : base64Part P L "tore2ee://contact" .missingPayloadParameter uriString =
      .ok (Units.contactData P L bundle contactAlias)) {signingKey : List UInt8}
    (hkey : P.hexToBytes bundle.signingKeyHex = .ok signingKey) (hlength : P.length signingKey = 32) :
    parseContactUri P L uriString =
      .ok { payload := exportedPayload P bundle contactAlias
            recipientPubkeyHash := P.bytesToHex (L.sha256 signingKey) } := by
  have hjson := h.parseJson_linkData (integral_contactPayload hbundle contactAlias)
  exact parseContactUri_eq_ok.2 ⟨_, _, signingKey, ⟨_, hpart, hjson⟩,
    h.reads_contactPayload hbundle contactAlias, hkey, hlength, rfl⟩

end

/-- Contact URIs round-trip. An exported URI, and its base64 part alone, with any white space around
it, is parsed to the payload and the bundle that were exported and to the mailbox of the signing
key. -/
theorem parseContactUri_exported (h : UnitRuntime N P L) (hbundle : SignedBundle P bundle)
    (contactAlias : Option (List UInt16)) {before after : List UInt16}
    (hbefore : ∀ u ∈ before, isSpaceUnit u = true) (hafter : ∀ u ∈ after, isSpaceUnit u = true) :
    ∃ parsed : ParsedContact (List UInt16),
      parseContactUri P L
          (before ++ Units.exportContactUri P L bundle contactAlias ++ after) = .ok parsed ∧
        parseContactUri P L (before ++ Units.contactData P L bundle contactAlias ++ after) =
          .ok parsed ∧
        parsed.payload = exportedPayload P bundle contactAlias ∧
        readBundle P parsed.payload = some bundle ∧
        ∃ signingKey, P.hexToBytes bundle.signingKeyHex = .ok signingKey ∧
          parsed.recipientPubkeyHash = P.bytesToHex (L.sha256 signingKey) := by
  obtain ⟨signingKey, hkey, hlength⟩ := hbundle.signingKey
  have huri : base64Part P L "tore2ee://contact" .missingPayloadParameter
      (before ++ Units.exportContactUri P L bundle contactAlias ++ after) =
        .ok (Units.contactData P L bundle contactAlias) :=
    h.base64Part_linkUri isScheme_contact _ _ hbefore hafter
  have hdata : base64Part P L "tore2ee://contact" .missingPayloadParameter
      (before ++ Units.contactData P L bundle contactAlias ++ after) =
        .ok (Units.contactData P L bundle contactAlias) :=
    h.base64Part_linkData isScheme_contact _ _ hbefore hafter
  exact ⟨_, h.parseContactUri_of_part hbundle.toCheckedBundle huri hkey hlength,
    h.parseContactUri_of_part hbundle.toCheckedBundle hdata hkey hlength, rfl,
    h.readBundle_exportedPayload bundle contactAlias, signingKey, hkey, rfl⟩

/-! ## A bundle whose alias is no text -/

/-- A 32-byte key. -/
def sampleKey (b : UInt8) : List UInt8 := List.replicate 32 b

/-- A bundle with a one-time prekey. -/
def sampleBundle : PreKeyBundle (List UInt16) :=
  { identityKeyHex := hexText (sampleKey 5)
    signingKeyHex := hexText (sampleKey 7)
    signedPreKey :=
      { keyId := 1
        publicKeyHex := hexText (sampleKey 9)
        signatureHex := hexText (sampleKey 7 ++ sampleKey 9) }
    oneTimePreKey := some { keyId := 100, publicKeyHex := hexText (sampleKey 3) } }

theorem sampleKey_hex (b : UInt8) : IsKeyHex unitPrimitives (hexText (sampleKey b)) :=
  ⟨sampleKey b, unitRuntime_unit.hexToBytes_eq_ok (hexBytes_hexText _), List.length_replicate ..⟩

theorem isNumber_of_lt {n : Int} (h : n.natAbs < 2 ^ 53) : IsNumber n :=
  ⟨n, 0, h, Nat.zero_le _, by rw [pow_zero, mul_one]⟩

theorem sampleBundle_signed : SignedBundle unitPrimitives sampleBundle where
  signingKey := sampleKey_hex 7
  identityKey := sampleKey_hex 5
  signedPreKey := sampleKey_hex 9
  oneTimePreKey := by
    rintro opk ⟨⟩
    exact sampleKey_hex 3
  verified := by
    have hhex (b : List UInt8) := unitRuntime_unit.hexToBytes_eq_ok (hexBytes_hexText b)
    exact verifySignature_eq_true.2 ⟨_, _, _, hhex _, hhex _, hhex _, rfl⟩
  signedPreKeyId := isNumber_of_lt (by decide)
  oneTimePreKeyId := by
    rintro opk ⟨⟩
    exact isNumber_of_lt (by decide)

/-- With a lone surrogate in the alias, and white space around the URI. -/
theorem parseContactUri_exported_surrogate :
    ∃ parsed : ParsedContact (List UInt16),
      parseContactUri unitPrimitives unitLibrary
          ([0x20, 0x0A] ++ Units.exportContactUri unitPrimitives unitLibrary sampleBundle
            (some [0xD800, 0x160]) ++ [0x3000]) = .ok parsed ∧
        parsed.payload.contactAlias = some (.string [0xD800, 0x160]) ∧
        parsed.recipientPubkeyHash = hexText (sampleKey 7) := by
  obtain ⟨parsed, huri, -, hpayload, -, signingKey, hkey, hhash⟩ :=
    parseContactUri_exported unitRuntime_unit sampleBundle_signed (some [0xD800, 0x160])
      (List.all_eq_true.1 (show [0x20, 0x0A].all isSpaceUnit = true by decide))
      (List.all_eq_true.1 (show [0x3000].all isSpaceUnit = true by decide))
  refine ⟨parsed, huri, by rw [hpayload]; rfl, ?_⟩
  have hsame : signingKey = sampleKey 7 := by
    have hdecoded := unitRuntime_unit.hexToBytes_eq_ok (hexBytes_hexText (sampleKey 7))
    exact Except.ok.inj (hkey.symm.trans hdecoded)
  rw [hhash, hsame]
  rfl

end TorE2EE.Client
