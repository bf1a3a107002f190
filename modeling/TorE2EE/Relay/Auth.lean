import TorE2EE.Relay.Types

/-!
# Authentication

`auth.rs`. The Ed25519 library and the hash function are parameters; hex coding is the one of the
`hex` crate. A `Login` is a public key and a signature that `verifyChallengeSignature` accepts for
a challenge, with the mailbox it grants.
-/

set_option autoImplicit false

namespace TorE2EE.Relay

/-! ## Hex -/

/-- One hex digit. -/
def hexDigit (n : UInt8) : Char :=
  if n < 10 then Char.ofNat ('0'.toNat + n.toNat) else Char.ofNat ('a'.toNat + (n.toNat - 10))

/-- `hex::encode`. -/
def hexEncode (bytes : List UInt8) : String :=
  String.ofList (bytes.flatMap fun b => [hexDigit (b / 16), hexDigit (b % 16)])

/-- `char::is_ascii_hexdigit`. -/
def isAsciiHexdigit (c : Char) : Bool :=
  ('0' ≤ c && c ≤ '9') || ('a' ≤ c && c ≤ 'f') || ('A' ≤ c && c ≤ 'F')

/-- The value of a hex digit of either case. -/
def hexValue (c : Char) : Option UInt8 :=
  if '0' ≤ c && c ≤ '9' then some (c.toNat - '0'.toNat).toUInt8
  else if 'a' ≤ c && c ≤ 'f' then some (c.toNat - 'a'.toNat + 10).toUInt8
  else if 'A' ≤ c && c ≤ 'F' then some (c.toNat - 'A'.toNat + 10).toUInt8
  else none

/-- The bytes of pairs of hex digits. -/
def hexPairs : List Char → Option (List UInt8)
  | [] => some []
  | [_] => none
  | hi :: lo :: rest => do
      let h ← hexValue hi
      let l ← hexValue lo
      let bytes ← hexPairs rest
      pure ((h * 16 + l) :: bytes)

/-- The library calls of `auth.rs`. Errors are their texts. -/
structure AuthLibrary where
  /-- The text of a failed `hex::decode`. -/
  hexError : String → String
  /-- `VerifyingKey::from_bytes`, which checks the bytes of a key. -/
  verifyingKeyFromBytes : List UInt8 → Except String Unit
  /-- `VerifyingKey::verify_strict` on the key, the message and the signature. -/
  verifyStrict : List UInt8 → List UInt8 → List UInt8 → Except String Unit
  sha256 : List UInt8 → List UInt8

variable (A : AuthLibrary)

/-- `hex::decode`. -/
def AuthLibrary.hexDecode (s : String) : Except String (List UInt8) :=
  match hexPairs s.toList with
  | some bytes => .ok bytes
  | none => .error (A.hexError s)

/-- `compute_pubkey_hash`. -/
def computePubkeyHash (publicKeyBytes : List UInt8) : String := hexEncode (A.sha256 publicKeyBytes)

/-- `verify_challenge_signature`. -/
def verifyChallengeSignature (publicKeyHex : String) (challengeBytes : List UInt8)
    (signatureHex : String) : Except String String := do
  let pkBytes ← (A.hexDecode publicKeyHex).mapError ("Invalid public key hex: " ++ ·)
  if pkBytes.length ≠ 32 then throw "Public key must be exactly 32 bytes"
  let _ ← (A.verifyingKeyFromBytes pkBytes).mapError ("Invalid Ed25519 verifying key: " ++ ·)
  let sigBytes ← (A.hexDecode signatureHex).mapError ("Invalid signature hex: " ++ ·)
  if sigBytes.length ≠ 64 then throw "Signature must be exactly 64 bytes"
  let _ ← (A.verifyStrict pkBytes challengeBytes sigBytes).mapError
    ("Signature verification failed: " ++ ·)
  pure (computePubkeyHash A pkBytes)

/-- A public key and a signature that grant a mailbox under a challenge. -/
structure Login (challenge : List UInt8) where
  publicKey : String
  signature : String
  hash : String
  verified : verifyChallengeSignature A publicKey challenge signature = .ok hash

/-- What an accepted signature says: the key and the signature decode, the signature is valid for
the challenge under the key, and the mailbox is the hash of the key. -/
theorem verifyChallengeSignature_ok {publicKeyHex signatureHex hash : String}
    {challenge : List UInt8}
    (h : verifyChallengeSignature A publicKeyHex challenge signatureHex = .ok hash) :
    ∃ pkBytes sigBytes, hexPairs publicKeyHex.toList = some pkBytes ∧ pkBytes.length = 32 ∧
      A.verifyingKeyFromBytes pkBytes = .ok () ∧ hexPairs signatureHex.toList = some sigBytes ∧
      sigBytes.length = 64 ∧ A.verifyStrict pkBytes challenge sigBytes = .ok () ∧
      hash = hexEncode (A.sha256 pkBytes) := by
  unfold verifyChallengeSignature AuthLibrary.hexDecode at h
  -- each check in the order of the source: only when all pass is there a hash
  cases hpk : hexPairs publicKeyHex.toList with
  | none =>
      rw [hpk] at h
      cases h
  | some pkBytes =>
      rw [hpk] at h
      by_cases hlen : pkBytes.length = 32
      · cases hkey : A.verifyingKeyFromBytes pkBytes with
        | error e => simp [hlen, hkey, Except.mapError, bind, Except.bind] at h
        | ok u =>
            cases hsig : hexPairs signatureHex.toList with
            | none => simp [hlen, hkey, hsig, Except.mapError, bind, Except.bind] at h
            | some sigBytes =>
                by_cases hsiglen : sigBytes.length = 64
                · cases hver : A.verifyStrict pkBytes challenge sigBytes with
                  | error e =>
                      simp [hlen, hkey, hsig, hsiglen, hver, Except.mapError, bind, Except.bind] at h
                  | ok u =>
                      simp [hlen, hkey, hsig, hsiglen, hver, Except.mapError, bind, Except.bind,
                        pure, Except.pure] at h
                      exact ⟨pkBytes, sigBytes, rfl, hlen, hkey, rfl, hsiglen, hver, h.symm⟩
                · simp [hlen, hkey, hsig, hsiglen, Except.mapError, bind, Except.bind] at h
      · simp [hlen, Except.mapError, bind, Except.bind] at h

end TorE2EE.Relay
