import TorE2EE.Crypto.Store

/-!
# The crypto engine

`CryptoEngine` of `crypto/CryptoEngine.ts`: X3DH session set-up and the Double Ratchet. Every
public method is a program over the operations of `EngineOp`, in the order in which the source
awaits them; the private steps that only change the session in hand are functions on the session.
-/

set_option autoImplicit false

namespace TorE2EE.Crypto

open TorE2EE.Foundation

variable {B S : Type} [DecidableEq S] (P : Primitives B S)

/-- `MAX_SKIP_MESSAGES`. -/
def maxSkipMessages : Nat := 2000

/-- An awaited operation. -/
abbrev await (o : EngineOp B S) : EngineM B S o.Resp := Program.perform o

/-- A library call that may throw. -/
abbrev attempt {α : Type} (r : Except (EngineError S) α) : EngineM B S α := Program.ofExcept r

/-- `generateCurve25519KeyPair`. -/
def generateCurve25519KeyPair : EngineM B S (Curve25519KeyPair B S) := do
  let secretKey ← await .secretKey
  pure (keyPairOf P secretKey)

/-! ## Signatures of `IdentityManager` -/

/-- `IdentityManager.signChallenge`. -/
def signChallenge (challengeHex : S) (secretKey : B) : Except (EngineError S) S := do
  if P.length secretKey ≠ 64 then throw .secretKeyLength
  let challengeBytes ← P.hexToBytes challengeHex
  if P.length challengeBytes ≠ 32 then throw .challengeLength
  pure (P.bytesToHex (P.signDetached challengeBytes secretKey))

/-- `IdentityManager.verifySignature`: whatever is thrown inside reads as `false`. -/
def verifySignature (challengeHex signatureHex publicKeyHex : S) : Bool :=
  let verified : Except (EngineError S) Bool := do
    let challengeBytes ← P.hexToBytes challengeHex
    let signatureBytes ← P.hexToBytes signatureHex
    let publicKeyBytes ← P.hexToBytes publicKeyHex
    P.verifyDetached challengeBytes signatureBytes publicKeyBytes
  match verified with
  | .ok verdict => verdict
  | .error _ => false

/-! ## Bundles -/

/-- The loop of `generatePreKeyBundle`, with `n` one-time prekeys still to draw. The first key
drawn is the one the bundle exports. -/
def saveOneTimePreKeys :
    Nat → Option (PublicOneTimePreKey S) → EngineM B S (Option (PublicOneTimePreKey S))
  | 0, firstOtk => pure firstOtk
  | n + 1, firstOtk => do
      let otkKeyPair ← generateCurve25519KeyPair P
      let otkId ← await .randomId
      await (.saveOneTimePreKey otkId { keyId := otkId, keyPair := otkKeyPair })
      let drawn : PublicOneTimePreKey S := { keyId := otkId, publicKeyHex := otkKeyPair.publicKeyHex }
      saveOneTimePreKeys n (firstOtk.or (some drawn))

/-- `generatePreKeyBundle`. -/
def generatePreKeyBundle (oneTimePreKeyCount : Nat) : EngineM B S (PreKeyBundle S) := do
  let identity ← await .getIdentity
  let spkKeyPair ← generateCurve25519KeyPair P
  let spkId ← await .randomId
  let spkSignatureHex ←
    attempt (signChallenge P spkKeyPair.publicKeyHex identity.signingKey.secretKey)
  let createdAt ← await .now
  await (.saveSignedPreKey spkId
    { keyId := spkId, keyPair := spkKeyPair, signatureHex := spkSignatureHex, createdAt })
  let firstOtk ← saveOneTimePreKeys P oneTimePreKeyCount none
  pure
    { identityKeyHex := identity.encryptionKey.publicKeyHex
      signingKeyHex := identity.signingKey.publicKeyHex
      signedPreKey :=
        { keyId := spkId
          publicKeyHex := spkKeyPair.publicKeyHex
          signatureHex := spkSignatureHex }
      oneTimePreKey := firstOtk }

/-! ## Initiating a session -/

/-- The Diffie-Hellman values of `initiateSession`, in the order in which they are concatenated. -/
def initiatorDhs (ikA ekA : Curve25519KeyPair B S) (ikB spkB : B)
    (oneTimePreKey : Option (PublicOneTimePreKey S)) : Except (EngineError S) (List B) := do
  let dh1 ← P.scalarMult ikA.secretKey spkB
  let dh2 ← P.scalarMult ekA.secretKey ikB
  let dh3 ← P.scalarMult ekA.secretKey spkB
  match oneTimePreKey with
  | some otk =>
      let opkB ← P.hexToBytes otk.publicKeyHex
      let dh4 ← P.scalarMult ekA.secretKey opkB
      pure [dh1, dh2, dh3, dh4]
  | none => pure [dh1, dh2, dh3]

/-- `initiateSession`. -/
def initiateSession (recipientIdentityKeyHex : S) (bundle : PreKeyBundle S) :
    EngineM B S (SessionRecord B S) := do
  let identity ← await .getIdentity
  let isSpkValid := verifySignature P bundle.signedPreKey.publicKeyHex
    bundle.signedPreKey.signatureHex bundle.signingKeyHex
  if !isSpkValid then Program.throw .signedPreKeySignature else
  let ikA := identity.encryptionKey
  let ikB ← attempt (P.hexToBytes bundle.identityKeyHex)
  let spkB ← attempt (P.hexToBytes bundle.signedPreKey.publicKeyHex)
  let ekA ← generateCurve25519KeyPair P
  let dhAll ← attempt (initiatorDhs P ikA ekA ikB spkB bundle.oneTimePreKey)
  let initialDh ← attempt (P.scalarMult ekA.secretKey spkB)
  let r := kdfRoot P (masterSecret P dhAll) initialDh
  let createdAt ← await .now
  let updatedAt ← await .now
  let session : SessionRecord B S :=
    { recipientIdentityKeyHex := P.toLowerCase bundle.identityKeyHex
      rootKeyHex := P.bytesToHex r.nextRootKey
      sendChainKeyHex := some (P.bytesToHex r.chainKey)
      receiveChainKeyHex := none
      localDhKeyPair := ekA
      remoteDhPublicKeyHex := some (P.toLowerCase bundle.signedPreKey.publicKeyHex)
      sendSequenceNumber := 0
      receiveSequenceNumber := 0
      previousChainLength := 0
      skippedMessageKeys := fun _ => none
      createdAt
      updatedAt
      oneTimePreKeyId := bundle.oneTimePreKey.map PublicOneTimePreKey.keyId }
  await (.saveSession recipientIdentityKeyHex session)
  pure session

/-! ## Encrypting -/

/-- The sending chain key of `encrypt`, with the session that holds it: derived first when the
session has none yet. -/
def ensureSendChain (session : SessionRecord B S) :
    Except (EngineError S) (SessionRecord B S × S) :=
  match session.sendChainKeyHex with
  | some chainKeyHex => pure (session, chainKeyHex)
  | none =>
      match session.remoteDhPublicKeyHex with
      | none => throw .noRemoteDhKey
      | some remoteDhPublicKeyHex => do
          let rootKey ← P.hexToBytes session.rootKeyHex
          let remoteDh ← P.hexToBytes remoteDhPublicKeyHex
          let dhSend ← P.scalarMult session.localDhKeyPair.secretKey remoteDh
          let r := kdfRoot P rootKey dhSend
          pure ({ session with
            rootKeyHex := P.bytesToHex r.nextRootKey
            sendChainKeyHex := some (P.bytesToHex r.chainKey) }, P.bytesToHex r.chainKey)

/-- `encrypt`. -/
def encrypt (recipientIdentityKeyHex plaintext : S)
    (initialBundleContext : Option InitialBundleContext) : EngineM B S (EncryptedMessage S) := do
  match ← await (.getSession recipientIdentityKeyHex) with
  | none => Program.throw (.noActiveSession recipientIdentityKeyHex)
  | some stored =>
      let (session, sendChainKeyHex) ← attempt (ensureSendChain P stored)
      let currentSendChainKey ← attempt (P.hexToBytes sendChainKeyHex)
      let k := kdfChain P currentSendChainKey
      let seqNum := session.sendSequenceNumber
      let updatedAt ← await .now
      let session : SessionRecord B S := { session with
        sendChainKeyHex := some (P.bytesToHex k.nextChainKey)
        sendSequenceNumber := seqNum + 1
        updatedAt }
      let nonceBytes ← await (.randomBytes 24)
      let ciphertextBytes := P.secretbox (P.textEncode plaintext) nonceBytes k.messageKey
      let otkIdToSend :=
        match initialBundleContext.bind InitialBundleContext.oneTimePreKeyId with
        | some id => some id
        | none => if seqNum = 0 then session.oneTimePreKeyId else none
      await (.saveSession recipientIdentityKeyHex session)
      let identity ← await .getIdentity
      pure
        { ephemeralPublicKeyHex := session.localDhKeyPair.publicKeyHex
          sequenceNumber := seqNum
          previousChainLength := session.previousChainLength
          ciphertext := P.toBase64 ciphertextBytes
          nonce := P.bytesToHex nonceBytes
          oneTimePreKeyId := otkIdToSend
          initialIdentityKeyHex := some identity.encryptionKey.publicKeyHex
          initialEphemeralKeyHex := some session.localDhKeyPair.publicKeyHex }

/-! ## Decrypting -/

/-- The Diffie-Hellman values of `initiateBobSession`, in the order in which they are
concatenated. -/
def responderDhs (ikB : Curve25519KeyPair B S) (spk : SignedPreKey B S)
    (opk : Option (OneTimePreKey B S)) (ikA ekA : B) : Except (EngineError S) (List B) := do
  let dh1 ← P.scalarMult spk.keyPair.secretKey ikA
  let dh2 ← P.scalarMult ikB.secretKey ekA
  let dh3 ← P.scalarMult spk.keyPair.secretKey ekA
  match opk with
  | some opk =>
      let dh4 ← P.scalarMult opk.keyPair.secretKey ekA
      pure [dh1, dh2, dh3, dh4]
  | none => pure [dh1, dh2, dh3]

/-- The one-time prekey named by a first message, removed from the store when it is there. -/
def takeOneTimePreKey (oneTimePreKeyId : Option Int) : EngineM B S (Option (OneTimePreKey B S)) :=
  match oneTimePreKeyId with
  | none => pure none
  | some keyId => do
      match ← await (.getOneTimePreKey keyId) with
      | none => pure none
      | some opk =>
          await (.removeOneTimePreKey keyId)
          pure (some opk)

/-- `initiateBobSession`. -/
def initiateBobSession (senderIdentityKeyHex : S) (message : EncryptedMessage S) :
    EngineM B S (SessionRecord B S) := do
  match message.initialEphemeralKeyHex, message.initialIdentityKeyHex with
  | some initialEphemeralKeyHex, some initialIdentityKeyHex =>
      let identity ← await .getIdentity
      let ikB := identity.encryptionKey
      let ikA ← attempt (P.hexToBytes initialIdentityKeyHex)
      let ekA ← attempt (P.hexToBytes initialEphemeralKeyHex)
      match ← await .getLatestSignedPreKey with
      | none => Program.throw .noSignedPreKey
      | some spk =>
          let opk ← takeOneTimePreKey message.oneTimePreKeyId
          let dhAll ← attempt (responderDhs P ikB spk opk ikA ekA)
          let remoteDh ← attempt (P.hexToBytes message.ephemeralPublicKeyHex)
          let initialDh ← attempt (P.scalarMult spk.keyPair.secretKey remoteDh)
          let r := kdfRoot P (masterSecret P dhAll) initialDh
          let dhsB ← generateCurve25519KeyPair P
          let createdAt ← await .now
          let updatedAt ← await .now
          let session : SessionRecord B S :=
            { recipientIdentityKeyHex := P.toLowerCase senderIdentityKeyHex
              rootKeyHex := P.bytesToHex r.nextRootKey
              sendChainKeyHex := none
              receiveChainKeyHex := some (P.bytesToHex r.chainKey)
              localDhKeyPair := dhsB
              remoteDhPublicKeyHex := some (P.toLowerCase message.ephemeralPublicKeyHex)
              sendSequenceNumber := 0
              receiveSequenceNumber := 0
              previousChainLength := 0
              skippedMessageKeys := fun _ => none
              createdAt
              updatedAt
              oneTimePreKeyId := none }
          await (.saveSession senderIdentityKeyHex session)
          pure session
  | _, _ => Program.throw .missingX3dhParameters

/-- The loop of `skipMessageKeys`, `n` rounds: the receiving chain, the receive counter and the
skipped keys. -/
def skipLoop (remoteKeyHex : S) :
    Nat → B → Nat → (SkippedKeyId S → Option S) → B × Nat × (SkippedKeyId S → Option S)
  | 0, chain, received, skipped => (chain, received, skipped)
  | n + 1, chain, received, skipped =>
      let k := kdfChain P chain
      skipLoop remoteKeyHex n k.nextChainKey (received + 1)
        (Function.update skipped (remoteKeyHex, (received : Int)) (some (P.bytesToHex k.messageKey)))

/-- `skipMessageKeys`. The loop runs while the receive counter is below `upTo`. -/
def skipMessageKeys (session : SessionRecord B S) (upTo : Int) :
    Except (EngineError S) (SessionRecord B S) :=
  match session.receiveChainKeyHex, session.remoteDhPublicKeyHex with
  | some receiveChainKeyHex, some remoteDhPublicKeyHex =>
      if (session.receiveSequenceNumber : Int) + maxSkipMessages < upTo then
        throw .tooManySkipped
      else do
        let currentReceiveChain ← P.hexToBytes receiveChainKeyHex
        let (chain, received, skipped) :=
          skipLoop P (P.toLowerCase remoteDhPublicKeyHex)
            (upTo - session.receiveSequenceNumber).toNat
            currentReceiveChain session.receiveSequenceNumber session.skippedMessageKeys
        pure { session with
          receiveSequenceNumber := received
          skippedMessageKeys := skipped
          receiveChainKeyHex := some (P.bytesToHex chain) }
  | _, _ => pure session

/-- `dhRatchetStep`. -/
def dhRatchetStep (session : SessionRecord B S) (newRemoteDhPublicKeyHex : S) :
    EngineM B S (SessionRecord B S) := do
  let rootKey ← attempt (P.hexToBytes session.rootKeyHex)
  let remoteDh ← attempt (P.hexToBytes newRemoteDhPublicKeyHex)
  let dhReceive ← attempt (P.scalarMult session.localDhKeyPair.secretKey remoteDh)
  let r1 := kdfRoot P rootKey dhReceive
  let localDhKeyPair ← generateCurve25519KeyPair P
  let dhSend ← attempt (P.scalarMult localDhKeyPair.secretKey remoteDh)
  let r2 := kdfRoot P r1.nextRootKey dhSend
  pure { session with
    previousChainLength := session.sendSequenceNumber
    sendSequenceNumber := 0
    receiveSequenceNumber := 0
    remoteDhPublicKeyHex := some (P.toLowerCase newRemoteDhPublicKeyHex)
    receiveChainKeyHex := some (P.bytesToHex r1.chainKey)
    localDhKeyPair
    rootKeyHex := P.bytesToHex r2.nextRootKey
    sendChainKeyHex := some (P.bytesToHex r2.chainKey) }

/-- `decryptWithKey`. -/
def decryptWithKey (message : EncryptedMessage S) (messageKey : B) : Except (EngineError S) S := do
  let nonceBytes ← P.hexToBytes message.nonce
  match ← P.secretboxOpen (P.fromBase64 message.ciphertext) nonceBytes messageKey with
  | none => throw .decryptionFailed
  | some decrypted => pure (P.textDecode decrypted)

/-- The test of `decrypt` for a DH ratchet step: the header names another key than the session's
remote key. -/
def needsRatchet (session : SessionRecord B S) (message : EncryptedMessage S) : Bool :=
  match session.remoteDhPublicKeyHex with
  | none => true
  | some remoteDhPublicKeyHex =>
      P.toLowerCase remoteDhPublicKeyHex ≠ P.toLowerCase message.ephemeralPublicKeyHex

/-- The part of `decrypt` that moves the session to the chain position of the header: the ratchet
step when the header names a new key, with the rest of the old chain skipped first, then the skip
inside the chain. -/
def moveToHeader (session : SessionRecord B S) (message : EncryptedMessage S) :
    EngineM B S (SessionRecord B S) := do
  let session ←
    if needsRatchet P session message then do
      let session ← attempt (skipMessageKeys P session message.previousChainLength)
      dhRatchetStep P session message.ephemeralPublicKeyHex
    else pure session
  attempt (skipMessageKeys P session message.sequenceNumber)

/-- The part of `decrypt` that takes the next message key of the receiving chain: the session is
saved before the box is opened. -/
def openAtChainHead (senderIdentityKeyHex : S) (message : EncryptedMessage S)
    (session : SessionRecord B S) : EngineM B S S := do
  match session.receiveChainKeyHex with
  | none => Program.throw .noReceivingChain
  | some receiveChainKeyHex =>
      let currentReceiveChainKey ← attempt (P.hexToBytes receiveChainKeyHex)
      let k := kdfChain P currentReceiveChainKey
      let updatedAt ← await .now
      await (.saveSession senderIdentityKeyHex { session with
        receiveChainKeyHex := some (P.bytesToHex k.nextChainKey)
        receiveSequenceNumber := session.receiveSequenceNumber + 1
        updatedAt })
      attempt (decryptWithKey P message k.messageKey)

/-- The part of `decrypt` after the session is in hand. A skipped key is deleted and the session
saved before the box is opened. -/
def decryptInSession (senderIdentityKeyHex : S) (message : EncryptedMessage S)
    (session : SessionRecord B S) : EngineM B S S := do
  let skippedKeyId := (P.toLowerCase message.ephemeralPublicKeyHex, message.sequenceNumber)
  match session.skippedMessageKeys skippedKeyId with
  | some messageKeyHex =>
      let messageKey ← attempt (P.hexToBytes messageKeyHex)
      await (.saveSession senderIdentityKeyHex { session with
        skippedMessageKeys := Function.update session.skippedMessageKeys skippedKeyId none })
      attempt (decryptWithKey P message messageKey)
  | none =>
      let session ← moveToHeader P session message
      openAtChainHead P senderIdentityKeyHex message session

/-- `decrypt`. -/
def decrypt (senderIdentityKeyHex : S) (message : EncryptedMessage S) : EngineM B S S := do
  let session ←
    match ← await (.getSession senderIdentityKeyHex) with
    | some session => pure session
    | none => initiateBobSession P senderIdentityKeyHex message
  decryptInSession P senderIdentityKeyHex message session

end TorE2EE.Crypto
