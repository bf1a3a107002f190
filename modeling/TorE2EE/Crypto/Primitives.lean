import TorE2EE.Crypto.Types

/-!
# The libraries below the engine

`Primitives` collects what the engine calls outside the repository: string and byte-array
functions of the runtime, `@noble/hashes` and `tweetnacl`. Nothing is assumed of them here.

* `Primitives.Lawful` lists the documented round trips: hex and base64 decode what they encoded,
  hex is read in either case, Diffie-Hellman commutes on key pairs, `secretbox.open` undoes
  `secretbox` under the message keys and nonces of the engine.
* `Primitives.FreeTerms` is the free-term reading of the key derivations: every derivation is
  injective, derivations of different kinds have different values, Diffie-Hellman only commutes,
  and a box opens under no key but its own.
-/

set_option autoImplicit false

namespace TorE2EE.Crypto

variable {B S : Type}

/-- The functions of the runtime and of the libraries that the engine calls. -/
structure Primitives (B S : Type) where
  /-- A string literal of the source. -/
  lit : String → S
  toLowerCase : S → S
  /-- `new TextEncoder().encode`. -/
  textEncode : S → B
  /-- `new TextDecoder().decode`. -/
  textDecode : B → S
  /-- `Buffer.from(bytes).toString('base64')`. -/
  toBase64 : B → S
  /-- `Buffer.from(text, 'base64')`, which never throws. -/
  fromBase64 : S → B
  /-- `new Uint8Array` of the given bytes. -/
  uint8Array : List UInt8 → B
  length : B → Nat
  /-- `result.set(array, offset)` for the array behind what is written already. -/
  append : B → B → B
  slice : B → Nat → Nat → B
  bytesToHex : B → S
  hexToBytes : S → Except (EngineError S) B
  /-- `hkdf(sha256, ikm, salt, info, length)`. -/
  hkdf : (ikm salt info : B) → Nat → B
  /-- The public key of a secret key. -/
  scalarMultBase : B → B
  /-- `nacl.scalarMult(secret, public)`; throws on a wrong length. -/
  scalarMult : B → B → Except (EngineError S) B
  /-- `nacl.secretbox(message, nonce, key)`. It throws on a wrong length; the engine gives it nonces
  of 24 bytes and message keys only. -/
  secretbox : (message nonce key : B) → B
  /-- `nacl.secretbox.open(box, nonce, key)`: `none` stands for `null`; throws on a wrong length. -/
  secretboxOpen : (box nonce key : B) → Except (EngineError S) (Option B)
  /-- `nacl.sign.detached(message, secretKey)`. -/
  signDetached : (message secretKey : B) → B
  /-- `nacl.sign.detached.verify(message, signature, publicKey)`; throws on a wrong length. -/
  verifyDetached : (message signature publicKey : B) → Except (EngineError S) Bool

namespace Primitives

variable (P : Primitives B S)

/-- `HKDF_INFO_X3DH`. -/
def hkdfInfoX3dh : B := P.textEncode (P.lit "TorE2EE-X3DH-MasterSecret")

/-- `HKDF_INFO_ROOT`. -/
def hkdfInfoRoot : B := P.textEncode (P.lit "TorE2EE-RootKDF")

/-- `HKDF_INFO_CHAIN`. -/
def hkdfInfoChain : B := P.textEncode (P.lit "TorE2EE-ChainKDF")

end Primitives

/-- The result of `kdfRoot`. -/
structure RootKeys (B : Type) where
  nextRootKey : B
  chainKey : B
  deriving DecidableEq

/-- The result of `kdfChain`. -/
structure ChainKeys (B : Type) where
  nextChainKey : B
  messageKey : B
  deriving DecidableEq

variable (P : Primitives B S)

/-- `kdfRoot`. -/
def kdfRoot (rootKey dhOut : B) : RootKeys B :=
  let derived := P.hkdf dhOut rootKey P.hkdfInfoRoot 64
  { nextRootKey := P.slice derived 0 32
    chainKey := P.slice derived 32 64 }

/-- `kdfChain`. -/
def kdfChain (chainKey : B) : ChainKeys B :=
  let inputConstant := P.uint8Array [0x01]
  let derived := P.hkdf inputConstant chainKey P.hkdfInfoChain 64
  { nextChainKey := P.slice derived 0 32
    messageKey := P.slice derived 32 64 }

/-- `concatUint8Arrays`: the arrays one after another, written into an empty one. -/
def concatUint8Arrays (arrays : List B) : B :=
  arrays.foldl P.append (P.uint8Array [])

/-- The X3DH master secret of a list of Diffie-Hellman values, as both `initiateSession` and
`initiateBobSession` derive it. -/
def masterSecret (dhs : List B) : B :=
  let saltZero := P.uint8Array (List.replicate 32 0)
  P.hkdf (concatUint8Arrays P dhs) saltZero P.hkdfInfoX3dh 32

/-- What X3DH concatenates: three or four results of `scalarMult`. -/
def DhValues (dhs : List B) : Prop :=
  (dhs.length = 3 ∨ dhs.length = 4) ∧ ∀ d ∈ dhs, ∃ a x, P.scalarMult a x = .ok d

/-- The key pair of a secret key, with the hex of its public key. -/
def keyPairOf (secretKey : B) : Curve25519KeyPair B S :=
  { publicKey := P.scalarMultBase secretKey
    secretKey := secretKey
    publicKeyHex := P.bytesToHex (P.scalarMultBase secretKey) }

/-- A key pair as `nacl.box.keyPair` builds it: a 32-byte secret key with its public key. -/
def Curve25519KeyPair.WellFormed (kp : Curve25519KeyPair B S) : Prop :=
  P.length kp.secretKey = 32 ∧ kp = keyPairOf P kp.secretKey

/-- The documented behaviour of the libraries on which delivery rests. -/
structure Primitives.Lawful : Prop where
  hexToBytes_bytesToHex : ∀ b, P.hexToBytes (P.bytesToHex b) = .ok b
  toLowerCase_bytesToHex : ∀ b, P.toLowerCase (P.bytesToHex b) = P.bytesToHex b
  toLowerCase_toLowerCase : ∀ s, P.toLowerCase (P.toLowerCase s) = P.toLowerCase s
  hexToBytes_toLowerCase : ∀ s b, P.hexToBytes (P.toLowerCase s) = .ok b ↔ P.hexToBytes s = .ok b
  fromBase64_toBase64 : ∀ b, P.fromBase64 (P.toBase64 b) = b
  scalarMult_comm : ∀ a b, P.length a = 32 → P.length b = 32 →
    P.scalarMult a (P.scalarMultBase b) = P.scalarMult b (P.scalarMultBase a)
  scalarMult_ok_iff : ∀ a x, (∃ d, P.scalarMult a x = .ok d) ↔ P.length a = 32 ∧ P.length x = 32
  length_scalarMultBase : ∀ a, P.length a = 32 → P.length (P.scalarMultBase a) = 32
  secretboxOpen_secretbox : ∀ m n c, P.length n = 24 →
    P.secretboxOpen (P.secretbox m n (kdfChain P c).messageKey) n (kdfChain P c).messageKey =
      .ok (some m)

/-- The free-term reading of the derivations: `kdfRoot`, `kdfChain` and the master secret are
injective with pairwise distinct kinds of outputs, Diffie-Hellman values agree only by
commutation, and a box opens only under the key that sealed it. -/
structure Primitives.FreeTerms : Prop where
  nextRootKey_inj : ∀ {r d r' d'},
    (kdfRoot P r d).nextRootKey = (kdfRoot P r' d').nextRootKey → r = r' ∧ d = d'
  chainKey_inj : ∀ {r d r' d'},
    (kdfRoot P r d).chainKey = (kdfRoot P r' d').chainKey → r = r' ∧ d = d'
  nextChainKey_inj : ∀ {c c'}, (kdfChain P c).nextChainKey = (kdfChain P c').nextChainKey → c = c'
  messageKey_inj : ∀ {c c'}, (kdfChain P c).messageKey = (kdfChain P c').messageKey → c = c'
  masterSecret_inj : ∀ {l l'}, DhValues P l → DhValues P l' →
    masterSecret P l = masterSecret P l' → l = l'
  masterSecret_ne_nextRootKey : ∀ l r d, masterSecret P l ≠ (kdfRoot P r d).nextRootKey
  chainKey_ne_nextChainKey : ∀ r d c, (kdfRoot P r d).chainKey ≠ (kdfChain P c).nextChainKey
  scalarMult_inj : ∀ {a b x y d}, P.scalarMult a x = .ok d → P.scalarMult b y = .ok d →
    (P.scalarMultBase a = P.scalarMultBase b ∧ x = y) ∨
      (x = P.scalarMultBase b ∧ y = P.scalarMultBase a)
  secretboxOpen_key : ∀ {m n k n' k' m'},
    P.secretboxOpen (P.secretbox m n k) n' k' = .ok (some m') → k' = k

end TorE2EE.Crypto
