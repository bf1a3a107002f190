import TorE2EE.Crypto.Bundles
import TorE2EE.Foundation.Interruption

/-!
# Calls of the engine

The public calls of `CryptoEngine` as one type, and where each of them writes: `initiateSession`,
`encrypt` and `decrypt` in an existing session save one session, with no write after it
(`before_encrypt` and the others), and `generatePreKeyBundle` saves none. So a call that is cut short
leaves the sessions as they were or as its whole run leaves them; `decrypt` on a first contact is a
sequence of two such parts.
-/

set_option autoImplicit false

namespace TorE2EE.Crypto

open TorE2EE.Foundation

variable {B S : Type} [DecidableEq S] (P : Primitives B S)

/-! ## The calls -/

/-- A call of `CryptoEngine`. -/
inductive EngineCall (S : Type) where
  | generatePreKeyBundle (oneTimePreKeyCount : Nat)
  | initiateSession (recipientIdentityKeyHex : S) (bundle : PreKeyBundle S)
  | encrypt (recipientIdentityKeyHex plaintext : S)
      (initialBundleContext : Option InitialBundleContext)
  | decrypt (senderIdentityKeyHex : S) (message : EncryptedMessage S)

/-- What a call returns. -/
inductive EngineAnswer (B S : Type) where
  | bundle (bundle : PreKeyBundle S)
  | session (session : SessionRecord B S)
  | message (message : EncryptedMessage S)
  | plaintext (plaintext : S)

/-- The engine call. -/
def EngineCall.program : EngineCall S → EngineM B S (EngineAnswer B S)
  | generatePreKeyBundle oneTimePreKeyCount => do
      let bundle ← Crypto.generatePreKeyBundle P oneTimePreKeyCount
      pure (.bundle bundle)
  | initiateSession recipientIdentityKeyHex bundle => do
      let session ← Crypto.initiateSession P recipientIdentityKeyHex bundle
      pure (.session session)
  | encrypt recipientIdentityKeyHex plaintext initialBundleContext => do
      let message ← Crypto.encrypt P recipientIdentityKeyHex plaintext initialBundleContext
      pure (.message message)
  | decrypt senderIdentityKeyHex message => do
      let plaintext ← Crypto.decrypt P senderIdentityKeyHex message
      pure (.plaintext plaintext)

/-! ## Where a call writes -/

/-- The operations that save no session. -/
def EngineOp.Sessionless : EngineOp B S → Prop
  | saveSession _ _ => False
  | _ => True

/-- The operations that leave the store and the number of the next draw alone. -/
def EngineOp.Reads : EngineOp B S → Prop
  | getIdentity => True
  | getLatestSignedPreKey => True
  | getOneTimePreKey _ => True
  | getSession _ => True
  | _ => False

/-- A call without a saved session keeps the identity and all sessions, and draws onward. -/
structure SessionFrame (h h' : Host B S) : Prop where
  identity : h'.store.identity = h.store.identity
  sessions : ∀ k, h'.store.getSession P k = h.store.getSession P k
  draws : h.draws ≤ h'.draws

variable {P} {E : Entropy B}

omit [DecidableEq S] in
theorem SessionFrame.refl (h : Host B S) : SessionFrame P h h := ⟨rfl, fun _ => rfl, Nat.le_refl _⟩

omit [DecidableEq S] in
theorem SessionFrame.trans {h h' h'' : Host B S} (hf : SessionFrame P h h')
    (hf' : SessionFrame P h' h'') : SessionFrame P h h'' where
  identity := hf'.identity.trans hf.identity
  sessions k := (hf'.sessions k).trans (hf.sessions k)
  draws := hf.draws.trans hf'.draws

theorem sessionFrame_handle {o : EngineOp B S} (ho : o.Sessionless) (h : Host B S) :
    SessionFrame P h (EngineOp.handle P E o h).2 := by
  cases o with
  | saveSession _ _ => exact ho.elim
  | secretKey | randomBytes | randomId | now => exact ⟨rfl, fun _ => rfl, Nat.le_succ _⟩
  | _ => exact ⟨rfl, fun _ => rfl, Nat.le_refl _⟩

theorem handle_of_reads {o : EngineOp B S} (ho : o.Reads) (h : Host B S) :
    (EngineOp.handle P E o h).2 = h := by
  cases o with
  | getIdentity | getLatestSignedPreKey | getOneTimePreKey | getSession => rfl
  | _ => exact ho.elim

/-- A program saves one session at most, as its last write. -/
abbrev SavesLast {α : Type} (p : EngineM B S α) : Prop :=
  Program.Before EngineOp.Sessionless EngineOp.Reads p

/-- Cut short, such a program has saved nothing or has written all it writes. -/
theorem SavesLast.runUpTo {α : Type} {p : EngineM B S α} (hp : SavesLast p) (cut : Option Nat)
    (h : Host B S) :
    SessionFrame P h (Program.runUpTo (EngineOp.handle P E) cut p h).2 ∨
      (Program.runUpTo (EngineOp.handle P E) cut p h).2 = (p.run P E h).2 :=
  Program.Before.runUpTo hp SessionFrame.refl (fun _ _ _ => SessionFrame.trans)
    (fun _ h ho => sessionFrame_handle ho h) (fun _ h ho => handle_of_reads ho h) cut h

variable (P)

omit [DecidableEq S] in
theorem quiet_generateCurve25519KeyPair :
    (generateCurve25519KeyPair P : EngineM B S _).Quiet EngineOp.Sessionless :=
  Program.quiet_bind (Program.quiet_perform trivial) fun _ => trivial

omit [DecidableEq S] in
theorem quiet_saveOneTimePreKeys (n : Nat) (firstOtk : Option (PublicOneTimePreKey S)) :
    (saveOneTimePreKeys P n firstOtk : EngineM B S _).Quiet EngineOp.Sessionless := by
  induction n generalizing firstOtk with
  | zero => trivial
  | succ n ih =>
      apply Program.quiet_bind (quiet_generateCurve25519KeyPair P)
      intro otkKeyPair
      apply Program.quiet_bind (Program.quiet_perform trivial)
      intro otkId
      apply Program.quiet_bind (Program.quiet_perform trivial)
      intro _
      exact ih _

omit [DecidableEq S] in
theorem quiet_generatePreKeyBundle (n : Nat) :
    (generatePreKeyBundle P n : EngineM B S _).Quiet EngineOp.Sessionless := by
  apply Program.quiet_bind (Program.quiet_perform trivial)
  intro identity
  apply Program.quiet_bind (quiet_generateCurve25519KeyPair P)
  intro spkKeyPair
  apply Program.quiet_bind (Program.quiet_perform trivial)
  intro spkId
  apply Program.quiet_bind (Program.quiet_ofExcept _)
  intro spkSignatureHex
  apply Program.quiet_bind (Program.quiet_perform trivial)
  intro createdAt
  apply Program.quiet_bind (Program.quiet_perform trivial)
  intro _
  apply Program.quiet_bind (quiet_saveOneTimePreKeys P n none)
  intro firstOtk
  trivial

omit [DecidableEq S] in
theorem savesLast_initiateSession (k : S) (bundle : PreKeyBundle S) :
    SavesLast (initiateSession P k bundle : EngineM B S _) := by
  apply Program.before_bind (Program.quiet_perform trivial)
  intro identity
  dsimp only
  split
  · trivial
  · apply Program.before_bind (Program.quiet_ofExcept _)
    intro ikB
    apply Program.before_bind (Program.quiet_ofExcept _)
    intro spkB
    apply Program.before_bind (quiet_generateCurve25519KeyPair P)
    intro ekA
    apply Program.before_bind (Program.quiet_ofExcept _)
    intro dhAll
    apply Program.before_bind (Program.quiet_ofExcept _)
    intro initialDh
    apply Program.before_bind (Program.quiet_perform trivial)
    intro createdAt
    apply Program.before_bind (Program.quiet_perform trivial)
    intro updatedAt
    exact Program.before_perform_bind _ fun _ => trivial

omit [DecidableEq S] in
theorem savesLast_encrypt (k plaintext : S) (context : Option InitialBundleContext) :
    SavesLast (encrypt P k plaintext context : EngineM B S _) := by
  apply Program.before_bind (Program.quiet_perform trivial)
  intro stored
  cases stored with
  | none => trivial
  | some stored =>
      apply Program.before_bind (Program.quiet_ofExcept _)
      intro chain
      apply Program.before_bind (Program.quiet_ofExcept _)
      intro currentSendChainKey
      apply Program.before_bind (Program.quiet_perform trivial)
      intro updatedAt
      apply Program.before_bind (Program.quiet_perform trivial)
      intro nonceBytes
      -- the identity is read after the session is saved
      refine Program.before_perform_bind _ fun _ => ?_
      exact Program.quiet_bind (Program.quiet_perform trivial) fun _ => trivial

omit [DecidableEq S] in
theorem quiet_takeOneTimePreKey (id : Option Int) :
    (takeOneTimePreKey id : EngineM B S _).Quiet EngineOp.Sessionless := by
  cases id with
  | none => trivial
  | some keyId =>
      apply Program.quiet_bind (Program.quiet_perform trivial)
      intro opk
      cases opk with
      | none => trivial
      | some opk => exact Program.quiet_bind (Program.quiet_perform trivial) fun _ => trivial

omit [DecidableEq S] in
theorem savesLast_initiateBobSession (k : S) (m : EncryptedMessage S) :
    SavesLast (initiateBobSession P k m : EngineM B S _) := by
  rw [initiateBobSession]
  split
  · apply Program.before_bind (Program.quiet_perform trivial)
    intro identity
    apply Program.before_bind (Program.quiet_ofExcept _)
    intro ikA
    apply Program.before_bind (Program.quiet_ofExcept _)
    intro ekA
    apply Program.before_bind (Program.quiet_perform trivial)
    intro spk
    cases spk with
    | none => trivial
    | some spk =>
        apply Program.before_bind (quiet_takeOneTimePreKey _)
        intro opk
        apply Program.before_bind (Program.quiet_ofExcept _)
        intro dhAll
        apply Program.before_bind (Program.quiet_ofExcept _)
        intro remoteDh
        apply Program.before_bind (Program.quiet_ofExcept _)
        intro initialDh
        apply Program.before_bind (quiet_generateCurve25519KeyPair P)
        intro dhsB
        apply Program.before_bind (Program.quiet_perform trivial)
        intro createdAt
        apply Program.before_bind (Program.quiet_perform trivial)
        intro updatedAt
        -- the only write of a session is the last call
        exact Program.before_perform_bind _ fun _ => trivial
  · trivial

/-- The session `decrypt` works in: the stored one, or the one a first contact sets up. -/
def sessionFor (k : S) (m : EncryptedMessage S) : EngineM B S (SessionRecord B S) := do
  match ← await (.getSession k) with
  | some session => pure session
  | none => initiateBobSession P k m

theorem decrypt_eq (k : S) (m : EncryptedMessage S) :
    (decrypt P k m : EngineM B S S) = sessionFor P k m >>= fun s => decryptInSession P k m s := by
  show (Program.call _ _ : Program _ _ _ _) = Program.call _ _
  congr 1
  funext stored
  cases stored <;> rfl

omit [DecidableEq S] in
theorem savesLast_sessionFor (k : S) (m : EncryptedMessage S) :
    SavesLast (sessionFor P k m : EngineM B S _) := by
  apply Program.before_bind (Program.quiet_perform trivial)
  intro stored
  cases stored with
  | some session => trivial
  | none => exact savesLast_initiateBobSession P k m

omit [DecidableEq S] in
theorem quiet_dhRatchetStep (s : SessionRecord B S) (newRemoteHex : S) :
    (dhRatchetStep P s newRemoteHex : EngineM B S _).Quiet EngineOp.Sessionless := by
  apply Program.quiet_bind (Program.quiet_ofExcept _)
  intro rootKey
  apply Program.quiet_bind (Program.quiet_ofExcept _)
  intro remoteDh
  apply Program.quiet_bind (Program.quiet_ofExcept _)
  intro dhReceive
  apply Program.quiet_bind (quiet_generateCurve25519KeyPair P)
  intro localDhKeyPair
  apply Program.quiet_bind (Program.quiet_ofExcept _)
  intro dhSend
  trivial

theorem quiet_moveToHeader (s : SessionRecord B S) (m : EncryptedMessage S) :
    (moveToHeader P s m : EngineM B S _).Quiet EngineOp.Sessionless := by
  rw [moveToHeader]
  split
  · apply Program.quiet_bind (Program.quiet_ofExcept _)
    intro skipped
    apply Program.quiet_bind (quiet_dhRatchetStep P _ _)
    intro ratcheted
    exact Program.quiet_ofExcept _
  · exact Program.quiet_ofExcept _

theorem savesLast_decryptInSession (k : S) (m : EncryptedMessage S) (s : SessionRecord B S) :
    SavesLast (decryptInSession P k m s : EngineM B S _) := by
  unfold decryptInSession
  dsimp only
  split
  · apply Program.before_bind (Program.quiet_ofExcept _)
    intro messageKey
    exact Program.before_perform_bind _ fun _ => Program.quiet_ofExcept _
  · apply Program.before_bind (quiet_moveToHeader P s m)
    intro moved
    rw [openAtChainHead]
    split
    · trivial
    · apply Program.before_bind (Program.quiet_ofExcept _)
      intro currentReceiveChainKey
      apply Program.before_bind (Program.quiet_perform trivial)
      intro updatedAt
      exact Program.before_perform_bind _ fun _ => Program.quiet_ofExcept _

end TorE2EE.Crypto
