import TorE2EE.Crypto.InMemory

/-!
# Sessions in hand

`encrypt` and `decrypt` assign to the fields of the session they got from the store. Over
`SqliteSignalStore` that session is a copy of the engine's own; over `InMemorySignalStore` it is the
object in the map, so every assignment is seen by the store at once, also when the call throws before
it saves. `Live` repeats the two calls with their assignments shown, each group of assignments
without a throw in between as one `LiveOp.assigned`.

Left out, the assignments leave the engine (`erase_live`). A `decrypt` whose ratchet step is under way
when the call throws (`SessionRecord.AbandonsRatchet`) is the only call that a run over the one store
and a run over the other can tell apart: see `coupled_live`.
-/

set_option autoImplicit false

namespace TorE2EE.Crypto

open TorE2EE.Foundation

variable {B S : Type}

/-- The operations of a call that shows its assignments. -/
inductive LiveOp (B S : Type) : Type where
  | store (o : EngineOp B S)
  /-- The session in hand, got from the store under this key, now has these fields. -/
  | assigned (recipientIdentityKeyHex : S) (session : SessionRecord B S)

/-- The answers to the operations. -/
@[reducible] def LiveOp.Resp : LiveOp B S → Type
  | store o => o.Resp
  | assigned _ _ => Unit

/-- An engine call that shows its assignments. -/
abbrev LiveM (B S : Type) : Type → Type := Program (LiveOp B S) LiveOp.Resp (EngineError S)

namespace Live

/-- An awaited operation. -/
abbrev await (o : EngineOp B S) : LiveM B S o.Resp := Program.perform (LiveOp.store o)

/-- Assignments to the session in hand. -/
abbrev assign (recipientIdentityKeyHex : S) (session : SessionRecord B S) : LiveM B S Unit :=
  Program.perform (LiveOp.assigned recipientIdentityKeyHex session)

/-- A library call that may throw. -/
abbrev attempt {α : Type} (r : Except (EngineError S) α) : LiveM B S α := Program.ofExcept r

/-- A part of the engine that assigns to no stored session. -/
def lift {α : Type} (p : EngineM B S α) : LiveM B S α := p.translate (fun o => await o) id

variable (P : Primitives B S)

/-- `encrypt`. -/
def encrypt (recipientIdentityKeyHex plaintext : S)
    (initialBundleContext : Option InitialBundleContext) : LiveM B S (EncryptedMessage S) := do
  match ← await (.getSession recipientIdentityKeyHex) with
  | none => Program.throw (.noActiveSession recipientIdentityKeyHex)
  | some stored =>
      let (session, sendChainKeyHex) ← attempt (ensureSendChain P stored)
      assign recipientIdentityKeyHex session
      let currentSendChainKey ← attempt (P.hexToBytes sendChainKeyHex)
      let k := kdfChain P currentSendChainKey
      let seqNum := session.sendSequenceNumber
      let updatedAt ← await .now
      let session : SessionRecord B S := { session with
        sendChainKeyHex := some (P.bytesToHex k.nextChainKey)
        sendSequenceNumber := seqNum + 1
        updatedAt }
      assign recipientIdentityKeyHex session
      let nonceBytes ← await (.randomBytes 24)
      let ciphertextBytes := P.secretbox (P.textEncode plaintext) nonceBytes k.messageKey
      let otkIdToSend :=
        match initialBundleContext.bind InitialBundleContext.oneTimePreKeyId with
        | some id => some id
        | none => if seqNum = 0 then session.oneTimePreKeyId else none
      await (.saveSession recipientIdentityKeyHex session)
      let identity ← await .getIdentity
      pure
        { ephemeralPublicKeyHex := session.localDhKeyPair.publicKeyHex
          sequenceNumber := seqNum
          previousChainLength := session.previousChainLength
          ciphertext := P.toBase64 ciphertextBytes
          nonce := P.bytesToHex nonceBytes
          oneTimePreKeyId := otkIdToSend
          initialIdentityKeyHex := some identity.encryptionKey.publicKeyHex
          initialEphemeralKeyHex := some session.localDhKeyPair.publicKeyHex }

/-- `dhRatchetStep`. -/
def dhRatchetStep (senderIdentityKeyHex : S) (session : SessionRecord B S)
    (newRemoteDhPublicKeyHex : S) : LiveM B S (SessionRecord B S) := do
  let rootKey ← attempt (P.hexToBytes session.rootKeyHex)
  let remoteDh ← attempt (P.hexToBytes newRemoteDhPublicKeyHex)
  let session : SessionRecord B S := { session with
    previousChainLength := session.sendSequenceNumber
    sendSequenceNumber := 0
    receiveSequenceNumber := 0
    remoteDhPublicKeyHex := some (P.toLowerCase newRemoteDhPublicKeyHex) }
  assign senderIdentityKeyHex session
  let dhReceive ← attempt (P.scalarMult session.localDhKeyPair.secretKey remoteDh)
  let r1 := kdfRoot P rootKey dhReceive
  let localDhKeyPair ← lift (generateCurve25519KeyPair P)
  let session : SessionRecord B S := { session with
    receiveChainKeyHex := some (P.bytesToHex r1.chainKey)
    localDhKeyPair }
  assign senderIdentityKeyHex session
  let dhSend ← attempt (P.scalarMult localDhKeyPair.secretKey remoteDh)
  let r2 := kdfRoot P r1.nextRootKey dhSend
  let session : SessionRecord B S := { session with
    rootKeyHex := P.bytesToHex r2.nextRootKey
    sendChainKeyHex := some (P.bytesToHex r2.chainKey) }
  assign senderIdentityKeyHex session
  pure session

variable [DecidableEq S]

/-- `skipMessageKeys`, which throws before it assigns. -/
def skipMessageKeys (senderIdentityKeyHex : S) (session : SessionRecord B S) (upTo : Int) :
    LiveM B S (SessionRecord B S) := do
  let session ← attempt (Crypto.skipMessageKeys P session upTo)
  assign senderIdentityKeyHex session
  pure session

/-- The part of `decrypt` that moves the session to the chain position of the header. -/
def moveToHeader (senderIdentityKeyHex : S) (session : SessionRecord B S)
    (message : EncryptedMessage S) : LiveM B S (SessionRecord B S) := do
  let session ←
    if needsRatchet P session message then do
      let session ← skipMessageKeys P senderIdentityKeyHex session message.previousChainLength
      dhRatchetStep P senderIdentityKeyHex session message.ephemeralPublicKeyHex
    else pure session
  skipMessageKeys P senderIdentityKeyHex session message.sequenceNumber

/-- The part of `decrypt` that takes the next message key of the receiving chain. -/
def openAtChainHead (senderIdentityKeyHex : S) (message : EncryptedMessage S)
    (session : SessionRecord B S) : LiveM B S S := do
  match session.receiveChainKeyHex with
  | none => Program.throw .noReceivingChain
  | some receiveChainKeyHex =>
      let currentReceiveChainKey ← attempt (P.hexToBytes receiveChainKeyHex)
      let k := kdfChain P currentReceiveChainKey
      let updatedAt ← await .now
      let session : SessionRecord B S := { session with
        receiveChainKeyHex := some (P.bytesToHex k.nextChainKey)
        receiveSequenceNumber := session.receiveSequenceNumber + 1
        updatedAt }
      assign senderIdentityKeyHex session
      await (.saveSession senderIdentityKeyHex session)
      attempt (decryptWithKey P message k.messageKey)

/-- The part of `decrypt` after the session is in hand. -/
def decryptInSession (senderIdentityKeyHex : S) (message : EncryptedMessage S)
    (session : SessionRecord B S) : LiveM B S S := do
  let skippedKeyId := (P.toLowerCase message.ephemeralPublicKeyHex, message.sequenceNumber)
  match session.skippedMessageKeys skippedKeyId with
  | some messageKeyHex =>
      let messageKey ← attempt (P.hexToBytes messageKeyHex)
      let session : SessionRecord B S := { session with
        skippedMessageKeys := Function.update session.skippedMessageKeys skippedKeyId none }
      assign senderIdentityKeyHex session
      await (.saveSession senderIdentityKeyHex session)
      attempt (decryptWithKey P message messageKey)
  | none =>
      let session ← moveToHeader P senderIdentityKeyHex session message
      openAtChainHead P senderIdentityKeyHex message session

/-- `decrypt`. -/
def decrypt (senderIdentityKeyHex : S) (message : EncryptedMessage S) : LiveM B S S := do
  let session ←
    match ← await (.getSession senderIdentityKeyHex) with
    | some session => pure session
    | none => lift (initiateBobSession P senderIdentityKeyHex message)
  decryptInSession P senderIdentityKeyHex message session

end Live

variable [DecidableEq S] (P : Primitives B S)

/-- The engine call, with its assignments shown. -/
def EngineCall.live : EngineCall S → LiveM B S (EngineAnswer B S)
  | generatePreKeyBundle oneTimePreKeyCount => do
      let bundle ← Live.lift (Crypto.generatePreKeyBundle P oneTimePreKeyCount)
      pure (.bundle bundle)
  | initiateSession recipientIdentityKeyHex bundle => do
      let session ← Live.lift (Crypto.initiateSession P recipientIdentityKeyHex bundle)
      pure (.session session)
  | encrypt recipientIdentityKeyHex plaintext initialBundleContext => do
      let message ← Live.encrypt P recipientIdentityKeyHex plaintext initialBundleContext
      pure (.message message)
  | decrypt senderIdentityKeyHex message => do
      let plaintext ← Live.decrypt P senderIdentityKeyHex message
      pure (.plaintext plaintext)

/-! ## The engine is what is left without the assignments -/

/-- An operation without the assignments. -/
def LiveOp.erase : (o : LiveOp B S) → EngineM B S o.Resp
  | store o => await o
  | assigned _ _ => pure ()

/-- A call without its assignments. -/
def erase {α : Type} (p : LiveM B S α) : EngineM B S α := p.translate LiveOp.erase id

section

omit [DecidableEq S]

variable {α β : Type}

@[simp] theorem erase_pure (a : α) : erase (pure a : LiveM B S α) = pure a := rfl

@[simp] theorem erase_attempt (r : Except (EngineError S) α) :
    erase (Live.attempt r : LiveM B S α) = attempt r := by
  cases r <;> rfl

@[simp] theorem erase_await_bind (o : EngineOp B S) (f : o.Resp → LiveM B S α) :
    erase (Live.await o >>= f) = await o >>= fun r => erase (f r) := rfl

@[simp] theorem erase_assign_bind (k : S) (s : SessionRecord B S) (f : Unit → LiveM B S α) :
    erase (Live.assign k s >>= f) = erase (f ()) := rfl

@[simp] theorem erase_attempt_bind (r : Except (EngineError S) α) (f : α → LiveM B S β) :
    erase (Live.attempt r >>= f) = attempt r >>= fun a => erase (f a) := by
  cases r <;> rfl

@[simp] theorem erase_bind (p : LiveM B S α) (f : α → LiveM B S β) :
    erase (p >>= f) = erase p >>= fun a => erase (f a) :=
  Program.translate_bind p f _ _

@[simp] theorem erase_lift (p : EngineM B S α) : erase (Live.lift p) = p := by
  induction p with
  | ret a => rfl
  | throw e => rfl
  | call o next ih =>
      show Program.call o (fun r => erase (Live.lift (next r))) = _
      congr 1
      funext r
      exact ih r

variable (P : Primitives B S)

theorem erase_encrypt (k plaintext : S) (context : Option InitialBundleContext) :
    erase (Live.encrypt P k plaintext context : LiveM B S _) = encrypt P k plaintext context := by
  rw [Live.encrypt, encrypt]
  rw [erase_await_bind]
  congr 1
  funext stored
  cases stored with
  | none => rfl
  | some stored =>
      dsimp only
      rw [erase_attempt_bind]
      congr 1
      funext chain
      rw [erase_assign_bind, erase_attempt_bind]
      rfl

theorem erase_dhRatchetStep (k : S) (s : SessionRecord B S) (newRemoteHex : S) :
    erase (Live.dhRatchetStep P k s newRemoteHex : LiveM B S _) = dhRatchetStep P s newRemoteHex := by
  rw [Live.dhRatchetStep, dhRatchetStep]
  rw [erase_attempt_bind]
  congr 1
  funext rootKey
  rw [erase_attempt_bind]
  congr 1
  funext remoteDh
  rw [erase_assign_bind, erase_attempt_bind]
  congr 1
  funext dhReceive
  rw [erase_bind, erase_lift]
  congr 1
  funext localDhKeyPair
  rw [erase_assign_bind, erase_attempt_bind]
  rfl

end

theorem erase_skipMessageKeys (k : S) (s : SessionRecord B S) (upTo : Int) :
    erase (Live.skipMessageKeys P k s upTo : LiveM B S _) = attempt (skipMessageKeys P s upTo) := by
  rw [Live.skipMessageKeys]
  rw [erase_attempt_bind]
  cases skipMessageKeys P s upTo <;> rfl

theorem erase_moveToHeader (k : S) (s : SessionRecord B S) (m : EncryptedMessage S) :
    erase (Live.moveToHeader P k s m : LiveM B S _) = moveToHeader P s m := by
  rw [Live.moveToHeader, moveToHeader]
  split
  · simp only [erase_bind, erase_skipMessageKeys, erase_dhRatchetStep]
  · exact erase_skipMessageKeys P k s m.sequenceNumber

omit [DecidableEq S] in
theorem erase_openAtChainHead (k : S) (m : EncryptedMessage S) (s : SessionRecord B S) :
    erase (Live.openAtChainHead P k m s : LiveM B S _) = openAtChainHead P k m s := by
  rw [Live.openAtChainHead, openAtChainHead]
  cases s.receiveChainKeyHex with
  | none => rfl
  | some chainHex =>
      dsimp only
      rw [erase_attempt_bind]
      congr 1
      funext currentReceiveChainKey
      refine congrArg (Program.call EngineOp.now) (funext fun updatedAt => ?_)
      refine congrArg (Program.call _) (funext fun _ => ?_)
      exact erase_attempt _

theorem erase_decryptInSession (k : S) (m : EncryptedMessage S) (s : SessionRecord B S) :
    erase (Live.decryptInSession P k m s : LiveM B S _) = decryptInSession P k m s := by
  rw [Live.decryptInSession, decryptInSession]
  dsimp only
  cases s.skippedMessageKeys (P.toLowerCase m.ephemeralPublicKeyHex, m.sequenceNumber) with
  | none => simp only [erase_bind, erase_moveToHeader, erase_openAtChainHead]
  | some keyHex =>
      dsimp only
      rw [erase_attempt_bind]
      congr 1
      funext messageKey
      refine congrArg (Program.call _) (funext fun _ => ?_)
      exact erase_attempt _

theorem erase_decrypt (k : S) (m : EncryptedMessage S) :
    erase (Live.decrypt P k m : LiveM B S S) = decrypt P k m := by
  rw [Live.decrypt]
  rw [decrypt_eq, sessionFor, erase_await_bind]
  show _ = Program.bind (Program.bind _ _) _
  rw [Program.bind_assoc]
  congr 1
  funext stored
  cases stored with
  | some s => exact erase_decryptInSession P k m s
  | none => simp only [erase_bind, erase_lift, erase_decryptInSession]; rfl

/-- Without its assignments a call is the call of the engine. -/
theorem erase_live (c : EngineCall S) : erase (c.live P : LiveM B S _) = c.program P := by
  cases c with
  | generatePreKeyBundle n | initiateSession k bundle =>
      simp only [EngineCall.live, EngineCall.program, erase_bind, erase_lift, erase_pure]
  | encrypt k plaintext context =>
      simp only [EngineCall.live, EngineCall.program, erase_bind, erase_encrypt, erase_pure]
  | decrypt k m =>
      simp only [EngineCall.live, EngineCall.program, erase_bind, erase_decrypt, erase_pure]

end TorE2EE.Crypto
