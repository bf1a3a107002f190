import Mathlib.Tactic.Common

/-!
# Records of the crypto engine

The records of `crypto/types.ts` and `identity/types.ts`. `B` is the type of byte arrays and `S`
the type of JavaScript strings; both are parameters, so that the engine can be read over real
bytes and over symbolic terms alike. A counter that the engine itself keeps is a natural number; a
number that arrives in a header is an integer. A `Record<string, string>` is its lookup function.
-/

set_option autoImplicit false

namespace TorE2EE.Crypto

/-- `Curve25519KeyPair`. -/
structure Curve25519KeyPair (B S : Type) where
  publicKey : B
  secretKey : B
  publicKeyHex : S
  deriving DecidableEq

/-- `Ed25519KeyPair`. -/
structure Ed25519KeyPair (B S : Type) where
  publicKey : B
  secretKey : B
  publicKeyHex : S
  deriving DecidableEq

/-- `UserIdentity`. -/
structure UserIdentity (B S : Type) where
  mnemonic : S
  signingKey : Ed25519KeyPair B S
  encryptionKey : Curve25519KeyPair B S
  recipientPubkeyHash : S
  deriving DecidableEq

/-- `SignedPreKey`: a row of `signed_prekeys`. -/
structure SignedPreKey (B S : Type) where
  keyId : Int
  keyPair : Curve25519KeyPair B S
  signatureHex : S
  createdAt : Nat
  deriving DecidableEq

/-- `OneTimePreKey`: a row of `one_time_prekeys`. -/
structure OneTimePreKey (B S : Type) where
  keyId : Int
  keyPair : Curve25519KeyPair B S
  deriving DecidableEq

/-- The `signedPreKey` field of a bundle. -/
structure PublicSignedPreKey (S : Type) where
  keyId : Int
  publicKeyHex : S
  signatureHex : S
  deriving DecidableEq

/-- The `oneTimePreKey` field of a bundle. -/
structure PublicOneTimePreKey (S : Type) where
  keyId : Int
  publicKeyHex : S
  deriving DecidableEq

/-- `PreKeyBundle`. -/
structure PreKeyBundle (S : Type) where
  identityKeyHex : S
  signingKeyHex : S
  signedPreKey : PublicSignedPreKey S
  oneTimePreKey : Option (PublicOneTimePreKey S)
  deriving DecidableEq

/-- `EncryptedMessage`, with integers for its numbers. An optional string is `none` when it is missing
or empty: the engine reads it through a truth test only. -/
structure EncryptedMessage (S : Type) where
  ephemeralPublicKeyHex : S
  sequenceNumber : Int
  previousChainLength : Int
  ciphertext : S
  nonce : S
  oneTimePreKeyId : Option Int
  initialIdentityKeyHex : Option S
  initialEphemeralKeyHex : Option S
  deriving DecidableEq

/-- The key `ephemeralPublicKeyHex:sequenceNumber` of a skipped message. Stored public keys are hex
strings, so the text before the last colon and the number after it are the key. -/
abbrev SkippedKeyId (S : Type) : Type := S × Int

/-- `SessionRecord`. -/
structure SessionRecord (B S : Type) where
  recipientIdentityKeyHex : S
  rootKeyHex : S
  sendChainKeyHex : Option S
  receiveChainKeyHex : Option S
  localDhKeyPair : Curve25519KeyPair B S
  remoteDhPublicKeyHex : Option S
  sendSequenceNumber : Nat
  receiveSequenceNumber : Nat
  previousChainLength : Nat
  skippedMessageKeys : SkippedKeyId S → Option S
  createdAt : Nat
  updatedAt : Nat
  oneTimePreKeyId : Option Int

/-- The `initialBundleContext` argument of `encrypt`. -/
structure InitialBundleContext where
  oneTimePreKeyId : Option Int
  deriving DecidableEq

/-- The errors the engine throws. `library` is an error thrown by a library below it, with its
text. -/
inductive EngineError (S : Type) where
  | library (text : String)
  | secretKeyLength
  | challengeLength
  | signedPreKeySignature
  | noActiveSession (recipientIdentityKeyHex : S)
  | noRemoteDhKey
  | missingX3dhParameters
  | noSignedPreKey
  | noReceivingChain
  | tooManySkipped
  | decryptionFailed
  deriving DecidableEq

/-- The text of an error; `show` renders the string a template literal inserts. -/
def EngineError.message {S : Type} (render : S → String) : EngineError S → String
  | .library text => text
  | .secretKeyLength => "Ed25519 secret key must be exactly 64 bytes"
  | .challengeLength => "Challenge nonce must be exactly 32 bytes"
  | .signedPreKeySignature => "Recipient's Signed PreKey signature verification failed"
  | .noActiveSession k => "No active session found for " ++ render k
  | .noRemoteDhKey => "Cannot initialize sending chain without remote DH key"
  | .missingX3dhParameters => "Initial message missing X3DH parameters"
  | .noSignedPreKey => "No Signed PreKey found in store"
  | .noReceivingChain => "Receiving chain key not available"
  | .tooManySkipped => "Too many skipped messages"
  | .decryptionFailed => "Decryption failed or message corrupted / tampered with"

end TorE2EE.Crypto
