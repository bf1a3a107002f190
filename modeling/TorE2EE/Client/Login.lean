import TorE2EE.Client.ContactUris
import TorE2EE.Client.Signatures
import TorE2EE.Relay.Session

/-!
# Logging in at the relay

An identity is derived from a mnemonic, answers the relay's challenge with its Ed25519 key, and is
addressed by the SHA-256 of that key, which three places compute: `deriveIdentityFromMnemonic`,
`parseContactUri` and the relay's `verify_challenge_signature`. `login_agrees` says that they agree.

The client's strings are code units and the relay's are characters. Hex is ASCII, so the same text
stands on both sides (`hexText_eq_hexEncode`).
-/

set_option autoImplicit false

namespace TorE2EE.Client

open TorE2EE.Foundation TorE2EE.Crypto JsonText

/-! ## Hex on both sides -/

/-- A text of the relay as the client reads it. -/
def clientText (text : String) : List UInt16 := utf16 text.toList

/-- A string of the client as the relay reads it. -/
def relayText (text : List UInt16) : String := String.ofList (scalars text)

/-- The relay writes a digit as the client does, and both read it. -/
theorem hexDigit_facts {n : Nat} (h : n < 16) :
    hexUnit n = unit (Relay.hexDigit (UInt8.ofNat n)) ∧
      (Relay.hexDigit (UInt8.ofNat n)).toNat < 0x80 ∧
      Relay.hexDigit (UInt8.ofNat n) ∈ "0123456789abcdef".toList ∧
      Relay.hexValue (Relay.hexDigit (UInt8.ofNat n)) = some (UInt8.ofNat n) := by
  have hall : ∀ k : Fin 16, hexUnit k = unit (Relay.hexDigit (UInt8.ofNat k)) ∧
      (Relay.hexDigit (UInt8.ofNat k)).toNat < 0x80 ∧
      Relay.hexDigit (UInt8.ofNat k) ∈ "0123456789abcdef".toList ∧
      Relay.hexValue (Relay.hexDigit (UInt8.ofNat k)) = some (UInt8.ofNat k) := by
    decide
  exact hall ⟨n, h⟩

/-- The halves of a byte. -/
theorem byte_halves (b : UInt8) :
    b / 16 = UInt8.ofNat (b.toNat / 16) ∧ b % 16 = UInt8.ofNat (b.toNat % 16) ∧
      b / 16 * 16 + b % 16 = b := by
  have hb := b.toNat_lt
  refine ⟨UInt8.toNat_inj.1 ?_, UInt8.toNat_inj.1 ?_, UInt8.toNat_inj.1 ?_⟩ <;> simp <;> omega

/-- The characters of the relay's hex, byte by byte. -/
theorem hexEncode_cons (b : UInt8) (bytes : List UInt8) :
    (Relay.hexEncode (b :: bytes)).toList =
      Relay.hexDigit (UInt8.ofNat (b.toNat / 16)) :: Relay.hexDigit (UInt8.ofNat (b.toNat % 16)) ::
        (Relay.hexEncode bytes).toList := by
  obtain ⟨hhigh, hlow, -⟩ := byte_halves b
  simp [Relay.hexEncode, hhigh, hlow]

/-- Hex is written in lower case. -/
theorem lowerCase_hexEncode {bytes : List UInt8} {c : Char}
    (h : c ∈ (Relay.hexEncode bytes).toList) :
    c ∈ "0123456789abcdef".toList ∧ c.toNat < 0x80 := by
  induction bytes with
  | nil => cases h
  | cons b bytes ih =>
      have hb := b.toNat_lt
      rw [hexEncode_cons, List.mem_cons, List.mem_cons] at h
      rcases h with rfl | rfl | h
      · have hdigit := hexDigit_facts (show b.toNat / 16 < 16 by omega)
        exact ⟨hdigit.2.2.1, hdigit.2.1⟩
      · have hdigit := hexDigit_facts (show b.toNat % 16 < 16 by omega)
        exact ⟨hdigit.2.2.1, hdigit.2.1⟩
      · exact ih h

/-- The client writes hex as the relay does. -/
theorem hexText_eq_hexEncode (bytes : List UInt8) :
    hexText bytes = clientText (Relay.hexEncode bytes) := by
  rw [clientText, utf16_eq_map fun c hc => (lowerCase_hexEncode hc).2]
  induction bytes with
  | nil => rfl
  | cons b bytes ih =>
      have hb := b.toNat_lt
      have hcons : hexText (b :: bytes) =
          hexUnit (b.toNat / 16) :: hexUnit (b.toNat % 16) :: hexText bytes := rfl
      rw [hcons, hexEncode_cons, List.map_cons, List.map_cons, ih,
        (hexDigit_facts (show b.toNat / 16 < 16 by omega)).1,
        (hexDigit_facts (show b.toNat % 16 < 16 by omega)).1]

/-- The relay reads back what it has written. -/
theorem hexPairs_hexEncode (bytes : List UInt8) :
    Relay.hexPairs (Relay.hexEncode bytes).toList = some bytes := by
  induction bytes with
  | nil => rfl
  | cons b bytes ih =>
      have hb := b.toNat_lt
      obtain ⟨hhigh, hlow, hbyte⟩ := byte_halves b
      rw [hexEncode_cons, Relay.hexPairs, (hexDigit_facts (show b.toNat / 16 < 16 by omega)).2.2.2,
        (hexDigit_facts (show b.toNat % 16 < 16 by omega)).2.2.2, ih, ← hhigh, ← hlow]
      simp [hbyte]

/-- The relay reads the hex that the client has written. -/
theorem hexPairs_hexText (bytes : List UInt8) :
    Relay.hexPairs (relayText (hexText bytes)).toList = some bytes := by
  rw [relayText, String.toList_ofList, hexText_eq_hexEncode, clientText, scalars_utf16]
  exact hexPairs_hexEncode bytes

/-! ## Identities -/

variable {B S : Type}

/-- What `IdentityManager` calls of `bip39` and `tweetnacl` to derive an identity. A key pair is its
public and its secret key. -/
structure IdentityLibrary (B S : Type) where
  mnemonicToSeed : S → B
  /-- `nacl.sign.keyPair.fromSeed`, which throws on a wrong length. -/
  signKeyPairFromSeed : B → Except (EngineError S) (B × B)
  /-- `nacl.box.keyPair.fromSecretKey`, which throws on a wrong length. -/
  boxKeyPairFromSecretKey : B → Except (EngineError S) (B × B)

/-- `deriveIdentityFromMnemonic`. -/
def deriveIdentityFromMnemonic (P : Primitives B S) (L : ClientLibrary B S)
    (I : IdentityLibrary B S) (mnemonic : S) : Except (ClientError S) (UserIdentity B S) := do
  let seed := I.mnemonicToSeed mnemonic
  let ed25519Seed := P.slice seed 0 32
  let naclSignKeyPair ← (I.signKeyPairFromSeed ed25519Seed).mapError .engine
  let signingKey : Ed25519KeyPair B S :=
    { publicKey := naclSignKeyPair.1
      secretKey := naclSignKeyPair.2
      publicKeyHex := P.bytesToHex naclSignKeyPair.1 }
  let curve25519Secret := P.slice seed 32 64
  let naclBoxKeyPair ← (I.boxKeyPairFromSecretKey curve25519Secret).mapError .engine
  let encryptionKey : Curve25519KeyPair B S :=
    { publicKey := naclBoxKeyPair.1
      secretKey := naclBoxKeyPair.2
      publicKeyHex := P.bytesToHex naclBoxKeyPair.1 }
  let recipientPubkeyHash ← computePubkeyHash P L signingKey.publicKey
  pure { mnemonic, signingKey, encryptionKey, recipientPubkeyHash }

/-- Ed25519 on both sides: keys and signatures have their lengths, and what an honest key signs is
accepted by the relay's `verify_strict` and by the client. Public keys of `nacl.box` have 32
bytes. -/
structure HonestKeys (P : Primitives (List UInt8) (List UInt16))
    (I : IdentityLibrary (List UInt8) (List UInt16)) (A : Relay.AuthLibrary) : Prop where
  length_publicKey : ∀ {seed pk sk}, I.signKeyPairFromSeed seed = .ok (pk, sk) → pk.length = 32
  length_secretKey : ∀ {seed pk sk}, I.signKeyPairFromSeed seed = .ok (pk, sk) → sk.length = 64
  length_signature : ∀ {seed pk sk}, I.signKeyPairFromSeed seed = .ok (pk, sk) →
    ∀ m, (P.signDetached m sk).length = 64
  verifyingKey : ∀ {seed pk sk}, I.signKeyPairFromSeed seed = .ok (pk, sk) →
    A.verifyingKeyFromBytes pk = .ok ()
  verifyStrict : ∀ {seed pk sk}, I.signKeyPairFromSeed seed = .ok (pk, sk) →
    ∀ m, A.verifyStrict pk m (P.signDetached m sk) = .ok ()
  verifyDetached : ∀ {seed pk sk}, I.signKeyPairFromSeed seed = .ok (pk, sk) →
    ∀ m, P.verifyDetached m (P.signDetached m sk) pk = .ok true
  length_boxPublicKey : ∀ {secret pk sk}, I.boxKeyPairFromSecretKey secret = .ok (pk, sk) →
    pk.length = 32

variable {N : Numerals} {P : Primitives (List UInt8) (List UInt16)}
  {L : ClientLibrary (List UInt8) (List UInt16)} {I : IdentityLibrary (List UInt8) (List UInt16)}
  {A : Relay.AuthLibrary} {mnemonic : List UInt16}
  {identity : UserIdentity (List UInt8) (List UInt16)}

/-- What a derived identity is made of. -/
theorem deriveIdentity_ok (h : deriveIdentityFromMnemonic P L I mnemonic = .ok identity) :
    ∃ seed secret encryption, I.signKeyPairFromSeed seed
        = .ok (identity.signingKey.publicKey, identity.signingKey.secretKey) ∧
      identity.signingKey.publicKeyHex = P.bytesToHex identity.signingKey.publicKey ∧
      I.boxKeyPairFromSecretKey secret = .ok encryption ∧
      identity.encryptionKey.publicKeyHex = P.bytesToHex encryption.1 ∧
      computePubkeyHash P L identity.signingKey.publicKey = .ok identity.recipientPubkeyHash := by
  simp only [deriveIdentityFromMnemonic] at h
  obtain ⟨sign, hsign, h⟩ := bind_eq_ok.1 h
  obtain ⟨box, hbox, h⟩ := bind_eq_ok.1 h
  obtain ⟨hash, hhash, h⟩ := bind_eq_ok.1 h
  cases h
  exact ⟨_, _, box, mapError_eq_ok.1 hsign, rfl, mapError_eq_ok.1 hbox, rfl, hhash⟩

theorem computePubkeyHash_ok {pk : List UInt8} {hash : List UInt16}
    (h : computePubkeyHash P L pk = .ok hash) : hash = P.bytesToHex (L.sha256 pk) := by
  rw [computePubkeyHash] at h
  split at h
  · cases h
  · cases h
    rfl

section

variable (h : UnitRuntime N P L)

include h

/-- The address of a derived identity is the hash of its signing key as the relay computes it. -/
theorem recipientPubkeyHash_eq (hsha : ∀ b, L.sha256 b = A.sha256 b) {pk : List UInt8}
    {hash : List UInt16} (hhash : computePubkeyHash P L pk = .ok hash) :
    hash = clientText (Relay.computePubkeyHash A pk) := by
  rw [computePubkeyHash_ok hhash, h.bytesToHex, hexText_eq_hexEncode, hsha]
  rfl

/-- The signature of 32 bytes, given in hex, is the hex of the signature. -/
theorem signChallenge_hex {sk m : List UInt8} (hsk : sk.length = 64) (hm : m.length = 32)
    {hex : List UInt16} (hhex : P.hexToBytes hex = .ok m) :
    signChallenge P hex sk = .ok (P.bytesToHex (P.signDetached m sk)) := by
  simp [signChallenge, h.byteLength, hsk, hm, hhex, bind, Except.bind, pure, Except.pure]

/-- What is signed has 32 bytes. -/
theorem signChallenge_ok {hex signatureHex : List UInt16} {sk m : List UInt8}
    (hhex : P.hexToBytes hex = .ok m) (hsigned : signChallenge P hex sk = .ok signatureHex) :
    m.length = 32 ∧ signatureHex = P.bytesToHex (P.signDetached m sk) := by
  rw [signChallenge] at hsigned
  split at hsigned
  · cases hsigned
  · obtain ⟨m', hm', hsigned⟩ := bind_eq_ok.1 hsigned
    cases hhex.symm.trans hm'
    split at hsigned
    · cases hsigned
    · next hlength =>
        cases hsigned
        rw [h.byteLength, not_not] at hlength
        exact ⟨hlength, rfl⟩

/-- The relay accepts the answer of an identity to its challenge and grants the identity's own
mailbox. -/
theorem auth_accepted (hkeys : HonestKeys P I A) (hsha : ∀ b, L.sha256 b = A.sha256 b)
    (hidentity : deriveIdentityFromMnemonic P L I mnemonic = .ok identity) {challenge : List UInt8}
    (hchallenge : challenge.length = 32) :
    ∃ reply hash,
      handleServerChallenge P identity (clientText (Relay.hexEncode challenge)) = .ok reply ∧
        Relay.verifyChallengeSignature A (relayText reply.public_key) challenge
          (relayText reply.signature) = .ok hash ∧
        identity.recipientPubkeyHash = clientText hash := by
  obtain ⟨seed, _, _, hsign, hhex, -, -, hhash⟩ := deriveIdentity_ok hidentity
  have hread : P.hexToBytes (clientText (Relay.hexEncode challenge)) = .ok challenge := by
    rw [← hexText_eq_hexEncode]
    exact h.hexToBytes_eq_ok (hexBytes_hexText challenge)
  have hsigned := signChallenge_hex h (hkeys.length_secretKey hsign) hchallenge hread
  have hreply : handleServerChallenge P identity (clientText (Relay.hexEncode challenge)) = .ok
      { public_key := identity.signingKey.publicKeyHex
        signature := P.bytesToHex (P.signDetached challenge identity.signingKey.secretKey) } := by
    simp [handleServerChallenge, hsigned, bind, Except.bind, pure, Except.pure]
  refine ⟨_, _, hreply, ?_, recipientPubkeyHash_eq h hsha hhash⟩
  -- The relay decodes both strings to the bytes the client had.
  have hpairs (b : List UInt8) : Relay.hexPairs (relayText (P.bytesToHex b)).toList = some b := by
    rw [h.bytesToHex]
    exact hexPairs_hexText b
  simp [Relay.verifyChallengeSignature, Relay.AuthLibrary.hexDecode, hhex, hpairs,
    hkeys.length_publicKey hsign, hkeys.length_signature hsign, hkeys.verifyingKey hsign,
    hkeys.verifyStrict hsign, Except.mapError, bind, Except.bind, pure, Except.pure]

/-! ## Exported contact URIs -/

/-- Every bundle that `generatePreKeyBundle` makes in the store of a derived identity has what the
parser checks. -/
theorem checkedBundle_of_generated (hkeys : HonestKeys P I A)
    (hidentity : deriveIdentityFromMnemonic P L I mnemonic = .ok identity)
    {E : Entropy (List UInt8)} (hids : ∀ d, IsNumber (E.randomId d)) {count : Nat}
    {host host' : Host (List UInt8) (List UInt16)} (hstore : host.store.identity = identity)
    {bundle : PreKeyBundle (List UInt16)}
    (hgenerated : (generatePreKeyBundle P count).run P E host = (.ok bundle, host')) :
    CheckedBundle P bundle ∧
      bundle.signingKeyHex = P.bytesToHex identity.signingKey.publicKey := by
  obtain ⟨seed, _, _, hsign, hhex, hbox, hboxHex, -⟩ := deriveIdentity_ok hidentity
  have hkey {b : List UInt8} (hb : b.length = 32) : IsKeyHex P (P.bytesToHex b) :=
    ⟨b, h.hexToBytes_bytesToHex b, (h.byteLength b).trans hb⟩
  rcases run_generatePreKeyBundle_cases P E count host with ⟨e, hrun⟩ | ⟨signatureHex, hsigned, hrun⟩
  · rw [hrun] at hgenerated
    cases hgenerated
  · rw [hrun] at hgenerated
    cases hgenerated
    rw [hstore] at hsigned ⊢
    -- the public half of the drawn prekey is what was signed
    have hread : P.hexToBytes (keyPairOf P (E.secretKey host.draws)).publicKeyHex =
        .ok (P.scalarMultBase (E.secretKey host.draws)) := h.hexToBytes_bytesToHex _
    obtain ⟨hlength, rfl⟩ := signChallenge_ok h hread hsigned
    have hsigning : IsKeyHex P identity.signingKey.publicKeyHex := by
      rw [hhex]
      exact hkey (hkeys.length_publicKey hsign)
    have hencryption : IsKeyHex P identity.encryptionKey.publicKeyHex := by
      rw [hboxHex]
      exact hkey (hkeys.length_boxPublicKey hbox)
    have hsigner : P.hexToBytes identity.signingKey.publicKeyHex =
        .ok identity.signingKey.publicKey := by
      rw [hhex]
      exact h.hexToBytes_bytesToHex _
    refine ⟨⟨hsigning, hencryption, hkey hlength, ?_, hids _, ?_⟩, hhex⟩
    · exact verifySignature_eq_true.2 ⟨_, _, identity.signingKey.publicKey, hread,
        h.hexToBytes_bytesToHex _, hsigner, hkeys.verifyDetached hsign _⟩
    · intro opk hopk
      simp only [exportedBundle] at hopk
      split at hopk
      · cases hopk
      · cases hopk
        exact hids _

/-- Every URI exported with a bundle of the identity parses, and to the identity's own mailbox. -/
theorem exported_uri_parses (hkeys : HonestKeys P I A)
    (hidentity : deriveIdentityFromMnemonic P L I mnemonic = .ok identity)
    {bundle : PreKeyBundle (List UInt16)} (hbundle : CheckedBundle P bundle)
    (hsigning : bundle.signingKeyHex = P.bytesToHex identity.signingKey.publicKey)
    (contactAlias : Option (List UInt16)) :
    ∃ parsed, parseContactUri P L (Units.exportContactUri P L bundle contactAlias) = .ok parsed ∧
      parsed.recipientPubkeyHash = identity.recipientPubkeyHash := by
  obtain ⟨seed, _, _, hsign, -, -, -, hhash⟩ := deriveIdentity_ok hidentity
  have hread : P.hexToBytes bundle.signingKeyHex = .ok identity.signingKey.publicKey :=
    hsigning.symm ▸ h.hexToBytes_bytesToHex _
  have hlength : P.length identity.signingKey.publicKey = 32 :=
    (h.byteLength _).trans (hkeys.length_publicKey hsign)
  have hspace : ∀ u ∈ ([] : List UInt16), isSpaceUnit u = true :=
    fun _ hu => (List.not_mem_nil hu).elim
  have hpart : base64Part P L "tore2ee://contact" .missingPayloadParameter
      ([] ++ Units.exportContactUri P L bundle contactAlias ++ []) =
        .ok (Units.contactData P L bundle contactAlias) :=
    h.base64Part_linkUri isScheme_contact _ _ hspace hspace
  rw [List.nil_append, List.append_nil] at hpart
  exact ⟨_, h.parseContactUri_of_part hbundle hpart hread hlength,
    (computePubkeyHash_ok hhash).symm⟩

end

/-- Client and relay agree on login and mailbox. The relay accepts the answer of every derived
identity to every 32-byte challenge, read off the frame that carries it, and grants the identity's
mailbox; every contact URI exported for the identity parses to the same mailbox; and the relay
accepts no key and signature strings but the hex of a 32-byte key and of a 64-byte signature that is
valid for the challenge, for the mailbox that is the lower-case hex SHA-256 of the key. -/
theorem login_agrees (h : UnitRuntime N P L) (hkeys : HonestKeys P I A)
    (hsha : ∀ b, L.sha256 b = A.sha256 b)
    (hidentity : deriveIdentityFromMnemonic P L I mnemonic = .ok identity) :
    (∀ challenge : List UInt8, challenge.length = 32 →
      ∃ text reply hash, ((Relay.Session.new challenge : Relay.Session A).step
            (.sendChallenge true)).map Relay.Session.output = some [.challenge text] ∧
        handleServerChallenge P identity (clientText text) = .ok reply ∧
        Relay.verifyChallengeSignature A (relayText reply.public_key) challenge
          (relayText reply.signature) = .ok hash ∧
        identity.recipientPubkeyHash = clientText hash) ∧
    (∀ (E : Entropy (List UInt8)) (host host' : Host (List UInt8) (List UInt16)) (count : Nat)
        (bundle : PreKeyBundle (List UInt16)) (contactAlias : Option (List UInt16)),
      (∀ d, IsNumber (E.randomId d)) → host.store.identity = identity →
      (generatePreKeyBundle P count).run P E host = (.ok bundle, host') →
      ∃ parsed, parseContactUri P L (Units.exportContactUri P L bundle contactAlias) = .ok parsed ∧
        parsed.recipientPubkeyHash = identity.recipientPubkeyHash) ∧
    ∀ (publicKey signature hash : String) (challenge : List UInt8),
      Relay.verifyChallengeSignature A publicKey challenge signature = .ok hash →
      ∃ pkBytes sigBytes, Relay.hexPairs publicKey.toList = some pkBytes ∧ pkBytes.length = 32 ∧
        hash = Relay.hexEncode (A.sha256 pkBytes) ∧
        (∀ c ∈ hash.toList, c ∈ "0123456789abcdef".toList) ∧
        Relay.hexPairs signature.toList = some sigBytes ∧ sigBytes.length = 64 ∧
        A.verifyStrict pkBytes challenge sigBytes = .ok () := by
  refine ⟨?_, ?_, ?_⟩
  · intro challenge hchallenge
    obtain ⟨reply, hash, hreply, haccepted, hmailbox⟩ :=
      auth_accepted h hkeys hsha hidentity hchallenge
    exact ⟨Relay.hexEncode challenge, reply, hash, rfl, hreply, haccepted, hmailbox⟩
  · intro E host host' count bundle contactAlias hids hstore hgenerated
    obtain ⟨hbundle, hsigning⟩ :=
      checkedBundle_of_generated h hkeys hidentity hids hstore hgenerated
    exact exported_uri_parses h hkeys hidentity hbundle hsigning contactAlias
  · intro publicKey signature hash challenge hverified
    obtain ⟨pkBytes, sigBytes, hpk, hpkLength, -, hsig, hsigLength, hvalid, rfl⟩ :=
      Relay.verifyChallengeSignature_ok A hverified
    exact ⟨pkBytes, sigBytes, hpk, hpkLength, rfl, fun c hc => (lowerCase_hexEncode hc).1, hsig,
      hsigLength, hvalid⟩

/-! ## An identity over bytes -/

/-- The relay's libraries on byte arrays. -/
def byteRelay : Relay.AuthLibrary where
  hexError _ := "Invalid character"
  verifyingKeyFromBytes _ := .ok ()
  verifyStrict pk m s :=
    if s = firstBytes pk ++ firstBytes m then .ok () else .error "signature error"
  sha256 := firstBytes

/-- The key pairs of seeds and secret keys. -/
def byteIdentities : IdentityLibrary (List UInt8) (List UInt16) where
  mnemonicToSeed text := (unitPrimitives.textEncode text ++ List.replicate 64 7).take 64
  signKeyPairFromSeed seed :=
    if seed.length = 32 then .ok (seed, seed ++ seed) else .error (.library "bad seed size")
  boxKeyPairFromSecretKey secret :=
    if secret.length = 32 then .ok (firstBytes secret, secret)
    else .error (.library "bad secret key size")

theorem signKeyPairFromSeed_ok {seed pk sk : List UInt8}
    (h : byteIdentities.signKeyPairFromSeed seed = .ok (pk, sk)) : pk.length = 32 ∧ sk = pk ++ pk := by
  simp only [byteIdentities] at h
  split at h
  · next hlength =>
      cases h
      exact ⟨hlength, rfl⟩
  · cases h

theorem signDetached_ok {seed pk sk : List UInt8}
    (h : byteIdentities.signKeyPairFromSeed seed = .ok (pk, sk)) (m : List UInt8) :
    unitPrimitives.signDetached m sk = firstBytes pk ++ firstBytes m := by
  obtain ⟨hlength, rfl⟩ := signKeyPairFromSeed_ok h
  show firstBytes ((pk ++ pk).drop 32) ++ firstBytes m = _
  rw [← hlength, List.drop_left]

theorem byteKeys : HonestKeys unitPrimitives byteIdentities byteRelay where
  length_publicKey h := (signKeyPairFromSeed_ok h).1
  length_secretKey h := by
    obtain ⟨hlength, rfl⟩ := signKeyPairFromSeed_ok h
    rw [List.length_append, hlength]
  length_signature h m := by
    rw [signDetached_ok h, List.length_append, length_firstBytes, length_firstBytes]
  verifyingKey _ := rfl
  verifyStrict h m := if_pos (signDetached_ok h m)
  verifyDetached h m := by
    rw [signDetached_ok h]
    show (if (firstBytes _ ++ firstBytes m).length = 64 then _ else _) = _
    rw [if_pos (by rw [List.length_append, length_firstBytes, length_firstBytes])]
    simp
  length_boxPublicKey h := by
    simp only [byteIdentities] at h
    split at h
    · cases h
      exact length_firstBytes _
    · cases h

/-- The identity of a mnemonic. -/
def byteUser : UserIdentity (List UInt8) (List UInt16) :=
  let seed := unitPrimitives.slice (byteIdentities.mnemonicToSeed (units "abandon")) 0 32
  let secret := unitPrimitives.slice (byteIdentities.mnemonicToSeed (units "abandon")) 32 64
  { mnemonic := units "abandon"
    signingKey := { publicKey := seed, secretKey := seed ++ seed, publicKeyHex := hexText seed }
    encryptionKey :=
      { publicKey := firstBytes secret, secretKey := secret
        publicKeyHex := hexText (firstBytes secret) }
    recipientPubkeyHash := hexText (firstBytes seed) }

theorem byteUser_derived :
    deriveIdentityFromMnemonic unitPrimitives unitLibrary byteIdentities (units "abandon")
      = .ok byteUser := by
  have hlength : (byteIdentities.mnemonicToSeed (units "abandon")).length = 64 := by
    simp [byteIdentities]
  have hseed : (unitPrimitives.slice (byteIdentities.mnemonicToSeed (units "abandon")) 0
      32).length = 32 := by
    simp [unitPrimitives, hlength]
  have hsecret : (unitPrimitives.slice (byteIdentities.mnemonicToSeed (units "abandon")) 32
      64).length = 32 := by
    simp [unitPrimitives, hlength]
  have hsign (seed : List UInt8) (h : seed.length = 32) :
      byteIdentities.signKeyPairFromSeed seed = .ok (seed, seed ++ seed) := if_pos h
  have hbox (secret : List UInt8) (h : secret.length = 32) :
      byteIdentities.boxKeyPairFromSecretKey secret = .ok (firstBytes secret, secret) := if_pos h
  have hhash (seed : List UInt8) (h : seed.length = 32) :
      computePubkeyHash unitPrimitives unitLibrary seed = .ok (hexText (firstBytes seed)) :=
    if_neg (not_not.2 h)
  simp only [deriveIdentityFromMnemonic, hsign _ hseed, hbox _ hsecret, hhash _ hseed,
    Except.mapError, bind, Except.bind, pure, Except.pure]
  rfl

/-- Every drawn key is 32 ones. -/
def byteEntropy : Entropy (List UInt8) where
  secretKey _ := List.replicate 32 1
  randomBytes _ n := List.replicate n 1
  randomId _ := 1
  now _ := 0

/-- The relay accepts the identity's answer to a challenge, and a contact URI exported for it leads
to its mailbox. -/
theorem login_agrees_bytes :
    (∃ text reply hash, ((Relay.Session.new (List.replicate 32 9) : Relay.Session byteRelay).step
          (.sendChallenge true)).map Relay.Session.output = some [.challenge text] ∧
        handleServerChallenge unitPrimitives byteUser (clientText text) = .ok reply ∧
        Relay.verifyChallengeSignature byteRelay (relayText reply.public_key)
          (List.replicate 32 9) (relayText reply.signature) = .ok hash ∧
        byteUser.recipientPubkeyHash = clientText hash) ∧
    ∃ bundle parsed, parseContactUri unitPrimitives unitLibrary
        (Units.exportContactUri unitPrimitives unitLibrary bundle (some [0x160])) = .ok parsed ∧
      parsed.recipientPubkeyHash = byteUser.recipientPubkeyHash := by
  have hagrees := login_agrees unitRuntime_unit byteKeys (fun _ => rfl) byteUser_derived
  refine ⟨hagrees.1 _ (by simp), ?_⟩
  have hgenerated : ((generatePreKeyBundle unitPrimitives 1).run unitPrimitives byteEntropy
      { store := SignalStore.empty byteUser, draws := 0 }).1.isOk = true := by
    decide +kernel
  rcases hrun : (generatePreKeyBundle unitPrimitives 1).run unitPrimitives byteEntropy
      { store := SignalStore.empty byteUser, draws := 0 } with ⟨bundle | bundle, host'⟩
  · rw [hrun] at hgenerated
    cases hgenerated
  · obtain ⟨parsed, hparsed⟩ := hagrees.2.1 byteEntropy _ host' 1 bundle (some [0x160])
      (fun _ => isNumber_of_lt (show (1 : Int).natAbs < 2 ^ 53 by decide)) rfl hrun
    exact ⟨bundle, parsed, hparsed⟩

end TorE2EE.Client
