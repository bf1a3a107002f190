import TorE2EE.Crypto.Calls
import TorE2EE.Foundation.Contracts

/-!
# What the engine saves

Every key pair the engine saves is one of `nacl.box`, and every key of a session is the hex of some
bytes (`SessionRecord.Canonical`), so what a store keeps decodes to what was saved. The calls obey
this as a contract (`EngineCall.obeys`): it relies on 32-byte secret keys and on answers of the same
kind, and a store gives such answers as long as it is given such values (`canonical_kept`).

The contract takes the kind of operations a call performs as a parameter: `generatePreKeyBundle`
reads no prekey and touches no session, and the other calls save no signed prekey.
-/

set_option autoImplicit false

namespace TorE2EE.Crypto

open TorE2EE.Foundation

variable {B S : Type} (P : Primitives B S)

/-- The keys of the session are hex strings of bytes. -/
structure SessionRecord.Canonical (s : SessionRecord B S) : Prop where
  localDhKeyPair : s.localDhKeyPair.WellFormed P
  rootKey : ∃ b, s.rootKeyHex = P.bytesToHex b
  sendChainKey : ∀ c, s.sendChainKeyHex = some c → ∃ b, c = P.bytesToHex b
  receiveChainKey : ∀ c, s.receiveChainKeyHex = some c → ∃ b, c = P.bytesToHex b

/-- The store holds key pairs of `nacl.box` and canonical sessions. -/
structure SignalStore.Canonical (st : SignalStore B S) : Prop where
  signedPreKeys : ∀ spk ∈ st.signedPreKeys, spk.keyPair.WellFormed P
  oneTimePreKeys : ∀ opk ∈ st.oneTimePreKeys, opk.keyPair.WellFormed P
  sessions : ∀ k s, st.sessions k = some s → s.Canonical P

/-- What the operation saves is canonical, and under its own id. -/
def EngineOp.SavesCanonical : EngineOp B S → Prop
  | saveSignedPreKey keyId preKey => preKey.keyId = keyId ∧ preKey.keyPair.WellFormed P
  | saveOneTimePreKey keyId preKey => preKey.keyId = keyId ∧ preKey.keyPair.WellFormed P
  | saveSession _ session => session.Canonical P
  | _ => True

/-- The answer is canonical. -/
def EngineOp.AnswersCanonical : (o : EngineOp B S) → o.Resp → Prop
  | getLatestSignedPreKey, answer => ∀ spk, answer = some spk → spk.keyPair.WellFormed P
  | getOneTimePreKey _, answer => ∀ opk, answer = some opk → opk.keyPair.WellFormed P
  | getSession _, answer => ∀ s, answer = some s → s.Canonical P
  | secretKey, answer => P.length answer = 32
  | _, _ => True

/-- The operations of `generatePreKeyBundle`. -/
def EngineOp.Generates : EngineOp B S → Prop
  | getIdentity => True
  | saveSignedPreKey _ _ => True
  | saveOneTimePreKey _ _ => True
  | secretKey => True
  | randomId => True
  | now => True
  | _ => False

/-- The operations that keep the signed prekeys. -/
def EngineOp.KeepsSignedPreKeys : EngineOp B S → Prop
  | saveSignedPreKey _ _ => False
  | _ => True

/-- Save canonical values by operations of one kind, and rely on canonical answers. -/
def canonical (kind : EngineOp B S → Prop) : Contract (EngineOp B S) EngineOp.Resp where
  may o := kind o ∧ o.SavesCanonical P
  answers o := o.AnswersCanonical P

/-! ## Stores keep the contract -/

section

variable {P} [DecidableEq S] {E : Entropy B} {st : SignalStore B S}

omit [DecidableEq S] in
theorem SignalStore.Canonical.saveSignedPreKey (h : st.Canonical P) {spk : SignedPreKey B S}
    (hspk : spk.keyPair.WellFormed P) (keyId : Int) :
    (st.saveSignedPreKey keyId spk).Canonical P where
  signedPreKeys := by
    intro spk' hmem
    rcases Rows.mem_of_mem_upsert _ hmem with rfl | hmem
    · exact hspk
    · exact h.signedPreKeys spk' hmem
  oneTimePreKeys := h.oneTimePreKeys
  sessions := h.sessions

omit [DecidableEq S] in
theorem SignalStore.Canonical.saveOneTimePreKey (h : st.Canonical P) {opk : OneTimePreKey B S}
    (hopk : opk.keyPair.WellFormed P) (keyId : Int) :
    (st.saveOneTimePreKey keyId opk).Canonical P where
  signedPreKeys := h.signedPreKeys
  oneTimePreKeys := by
    intro opk' hmem
    rcases Rows.mem_of_mem_upsert _ hmem with rfl | hmem
    · exact hopk
    · exact h.oneTimePreKeys opk' hmem
  sessions := h.sessions

omit [DecidableEq S] in
theorem SignalStore.Canonical.removeOneTimePreKey (h : st.Canonical P) (keyId : Int) :
    (st.removeOneTimePreKey keyId).Canonical P where
  signedPreKeys := h.signedPreKeys
  oneTimePreKeys opk hmem := h.oneTimePreKeys opk (List.mem_of_mem_filter hmem)
  sessions := h.sessions

theorem SignalStore.Canonical.saveSession (h : st.Canonical P) {s : SessionRecord B S}
    (hs : s.Canonical P) (k : S) : (st.saveSession P k s).Canonical P where
  signedPreKeys := h.signedPreKeys
  oneTimePreKeys := h.oneTimePreKeys
  sessions := by
    intro k' s' hs'
    have hupdate : Function.update st.sessions (P.toLowerCase k) (some s) k' = some s' := hs'
    by_cases hk : k' = P.toLowerCase k
    · rw [hk, Function.update_self] at hupdate
      cases hupdate
      exact hs
    · rw [Function.update_of_ne hk] at hupdate
      exact h.sessions k' s' hupdate

/-- A store that is given canonical values stays canonical and answers canonically. -/
theorem canonical_kept (hE : ∀ n, P.length (E.secretKey n) = 32) (kind : EngineOp B S → Prop) :
    (canonical P kind).Kept (EngineOp.handle P E) fun h => h.store.Canonical P := by
  rintro o h ⟨-, ho⟩ hs
  cases o with
  | saveSignedPreKey keyId spk => exact ⟨hs.saveSignedPreKey ho.2 keyId, trivial⟩
  | saveOneTimePreKey keyId opk => exact ⟨hs.saveOneTimePreKey ho.2 keyId, trivial⟩
  | removeOneTimePreKey keyId => exact ⟨hs.removeOneTimePreKey keyId, trivial⟩
  | saveSession k s => exact ⟨hs.saveSession ho k, trivial⟩
  | getLatestSignedPreKey =>
      exact ⟨hs, fun spk hspk => hs.signedPreKeys spk (List.argmax_mem hspk)⟩
  | getOneTimePreKey keyId =>
      exact ⟨hs, fun opk hopk => hs.oneTimePreKeys opk (Rows.mem_of_lookup _ hopk).1⟩
  | getSession k => exact ⟨hs, fun s hk => hs.sessions _ s hk⟩
  | secretKey => exact ⟨hs, hE h.draws⟩
  | getIdentity | randomBytes | randomId | now => exact ⟨hs, trivial⟩

end

/-! ## The calls obey it -/

variable {P} {kind : EngineOp B S → Prop}

theorem obeys_await {o : EngineOp B S} (hkind : kind o) (ho : o.SavesCanonical P) :
    (await o : EngineM B S _).Obeys (canonical P kind) (o.AnswersCanonical P) :=
  Program.obeys_perform ⟨hkind, ho⟩

theorem obeys_attempt {α : Type} (r : Except (EngineError S) α) :
    (attempt r : EngineM B S α).Obeys (canonical P kind) fun a => r = .ok a :=
  Program.obeys_ofExcept fun _ ha => ha

theorem obeys_generateCurve25519KeyPair (hkind : kind .secretKey) :
    (generateCurve25519KeyPair P : EngineM B S _).Obeys (canonical P kind) fun kp =>
      kp.WellFormed P :=
  Program.obeys_bind (obeys_await hkind trivial) fun _ hlength => keyPairOf_wellFormed P hlength

theorem obeys_saveOneTimePreKeys (n : Nat) (firstOtk : Option (PublicOneTimePreKey S)) :
    (saveOneTimePreKeys P n firstOtk : EngineM B S _).Obeys (canonical P EngineOp.Generates)
      fun _ => True := by
  induction n generalizing firstOtk with
  | zero => trivial
  | succ n ih =>
      refine Program.obeys_bind (obeys_generateCurve25519KeyPair trivial) ?_
      intro otkKeyPair hpair
      refine Program.obeys_bind (obeys_await trivial trivial) ?_
      intro otkId _
      refine Program.obeys_bind (obeys_await trivial ⟨rfl, hpair⟩) ?_
      intro _ _
      exact ih _

theorem obeys_generatePreKeyBundle (n : Nat) :
    (generatePreKeyBundle P n : EngineM B S _).Obeys (canonical P EngineOp.Generates)
      fun _ => True := by
  refine Program.obeys_bind (obeys_await trivial trivial) ?_
  intro identity _
  refine Program.obeys_bind (obeys_generateCurve25519KeyPair trivial) ?_
  intro spkKeyPair hpair
  refine Program.obeys_bind (obeys_await trivial trivial) ?_
  intro spkId _
  refine Program.obeys_bind (obeys_attempt _) ?_
  intro spkSignatureHex _
  refine Program.obeys_bind (obeys_await trivial trivial) ?_
  intro createdAt _
  refine Program.obeys_bind (obeys_await trivial ⟨rfl, hpair⟩) ?_
  intro _ _
  refine Program.obeys_bind (obeys_saveOneTimePreKeys n none) ?_
  intro firstOtk _
  trivial

theorem obeys_initiateSession (k : S) (bundle : PreKeyBundle S) :
    (initiateSession P k bundle : EngineM B S _).Obeys
      (canonical P EngineOp.KeepsSignedPreKeys) fun s => s.Canonical P := by
  refine Program.obeys_bind (obeys_await trivial trivial) ?_
  intro identity _
  dsimp only
  split
  · trivial
  · refine Program.obeys_bind (obeys_attempt _) ?_
    intro ikB _
    refine Program.obeys_bind (obeys_attempt _) ?_
    intro spkB _
    refine Program.obeys_bind (obeys_generateCurve25519KeyPair trivial) ?_
    intro ekA hekA
    refine Program.obeys_bind (obeys_attempt _) ?_
    intro dhAll _
    refine Program.obeys_bind (obeys_attempt _) ?_
    intro initialDh _
    refine Program.obeys_bind (obeys_await trivial trivial) ?_
    intro createdAt _
    refine Program.obeys_bind (obeys_await trivial trivial) ?_
    intro updatedAt _
    -- every key of the record was just encoded by `bytesToHex`
    have hsession : SessionRecord.Canonical P
        { recipientIdentityKeyHex := P.toLowerCase bundle.identityKeyHex
          rootKeyHex := P.bytesToHex (kdfRoot P (masterSecret P dhAll) initialDh).nextRootKey
          sendChainKeyHex :=
            some (P.bytesToHex (kdfRoot P (masterSecret P dhAll) initialDh).chainKey)
          receiveChainKeyHex := none
          localDhKeyPair := ekA
          remoteDhPublicKeyHex := some (P.toLowerCase bundle.signedPreKey.publicKeyHex)
          sendSequenceNumber := 0
          receiveSequenceNumber := 0
          previousChainLength := 0
          skippedMessageKeys := fun _ => none
          createdAt
          updatedAt
          oneTimePreKeyId := bundle.oneTimePreKey.map PublicOneTimePreKey.keyId } :=
      ⟨hekA, ⟨_, rfl⟩, fun c hc => ⟨_, (Option.some.inj hc).symm⟩, fun c hc => by cases hc⟩
    exact Program.obeys_bind (obeys_await trivial hsession) fun _ _ => hsession

theorem obeys_takeOneTimePreKey (id : Option Int) :
    (takeOneTimePreKey id : EngineM B S _).Obeys (canonical P EngineOp.KeepsSignedPreKeys)
      fun _ => True := by
  cases id with
  | none => trivial
  | some keyId =>
      refine Program.obeys_bind (obeys_await trivial trivial) ?_
      intro opk _
      cases opk with
      | none => trivial
      | some opk => exact Program.obeys_bind (obeys_await trivial trivial) fun _ _ => trivial

theorem obeys_initiateBobSession (k : S) (m : EncryptedMessage S) :
    (initiateBobSession P k m : EngineM B S _).Obeys
      (canonical P EngineOp.KeepsSignedPreKeys) fun s => s.Canonical P := by
  unfold initiateBobSession
  split
  · refine Program.obeys_bind (obeys_await trivial trivial) ?_
    intro identity _
    refine Program.obeys_bind (obeys_attempt _) ?_
    intro ikA _
    refine Program.obeys_bind (obeys_attempt _) ?_
    intro ekA _
    refine Program.obeys_bind (obeys_await trivial trivial) ?_
    intro spk _
    cases spk with
    | none => trivial
    | some spk =>
        refine Program.obeys_bind (obeys_takeOneTimePreKey _) ?_
        intro opk _
        refine Program.obeys_bind (obeys_attempt _) ?_
        intro dhAll _
        refine Program.obeys_bind (obeys_attempt _) ?_
        intro remoteDh _
        refine Program.obeys_bind (obeys_attempt _) ?_
        intro initialDh _
        refine Program.obeys_bind (obeys_generateCurve25519KeyPair trivial) ?_
        intro dhsB hdhsB
        refine Program.obeys_bind (obeys_await trivial trivial) ?_
        intro createdAt _
        refine Program.obeys_bind (obeys_await trivial trivial) ?_
        intro updatedAt _
        -- every key of the record was just encoded by `bytesToHex`
        have hsession : SessionRecord.Canonical P
            { recipientIdentityKeyHex := P.toLowerCase k
              rootKeyHex := P.bytesToHex (kdfRoot P (masterSecret P dhAll) initialDh).nextRootKey
              sendChainKeyHex := none
              receiveChainKeyHex :=
                some (P.bytesToHex (kdfRoot P (masterSecret P dhAll) initialDh).chainKey)
              localDhKeyPair := dhsB
              remoteDhPublicKeyHex := some (P.toLowerCase m.ephemeralPublicKeyHex)
              sendSequenceNumber := 0
              receiveSequenceNumber := 0
              previousChainLength := 0
              skippedMessageKeys := fun _ => none
              createdAt
              updatedAt
              oneTimePreKeyId := none } :=
          ⟨hdhsB, ⟨_, rfl⟩, fun _ hc => (nomatch hc), fun c hc => ⟨_, (Option.some.inj hc).symm⟩⟩
        exact Program.obeys_bind (obeys_await trivial hsession) fun _ _ => hsession
  · trivial

theorem obeys_sessionFor (k : S) (m : EncryptedMessage S) :
    (sessionFor P k m : EngineM B S _).Obeys (canonical P EngineOp.KeepsSignedPreKeys)
      fun s => s.Canonical P := by
  refine Program.obeys_bind (obeys_await trivial trivial) ?_
  intro stored hstored
  cases stored with
  | some session => exact hstored session rfl
  | none => exact obeys_initiateBobSession k m

theorem SessionRecord.Canonical.ensureSendChain {stored s : SessionRecord B S} {chainHex : S}
    (h : stored.Canonical P) (hchain : ensureSendChain P stored = .ok (s, chainHex)) :
    s.Canonical P ∧ ∃ b, chainHex = P.bytesToHex b := by
  rcases ensureSendChain_cases P hchain with ⟨hstored, rfl⟩ |
    ⟨remoteHex, rootKey, remoteDh, dhSend, -, -, -, -, -, rfl, rfl⟩
  · exact ⟨h, h.sendChainKey chainHex hstored⟩
  · exact ⟨⟨h.localDhKeyPair, ⟨_, rfl⟩, fun c hc => ⟨_, (Option.some.inj hc).symm⟩,
      h.receiveChainKey⟩, _, rfl⟩

theorem obeys_encrypt (k plaintext : S) (context : Option InitialBundleContext) :
    (encrypt P k plaintext context : EngineM B S _).Obeys
      (canonical P EngineOp.KeepsSignedPreKeys) fun _ => True := by
  refine Program.obeys_bind (obeys_await trivial trivial) ?_
  intro stored hstored
  cases stored with
  | none => trivial
  | some stored =>
      refine Program.obeys_bind (obeys_attempt _) ?_
      rintro ⟨session, chainHex⟩ hchain
      obtain ⟨hsession, -⟩ := (hstored stored rfl).ensureSendChain hchain
      refine Program.obeys_bind (obeys_attempt _) ?_
      intro currentSendChainKey _
      refine Program.obeys_bind (obeys_await trivial trivial) ?_
      intro updatedAt _
      refine Program.obeys_bind (obeys_await trivial trivial) ?_
      intro nonceBytes _
      have hsealed : SessionRecord.Canonical P
          (session.sealedOnce P currentSendChainKey updatedAt) :=
        ⟨hsession.localDhKeyPair, hsession.rootKey,
          fun c hc => ⟨_, (Option.some.inj hc).symm⟩, hsession.receiveChainKey⟩
      refine Program.obeys_bind (obeys_await trivial hsealed) ?_
      intro _ _
      exact Program.obeys_bind (obeys_await trivial trivial) fun _ _ => trivial

variable [DecidableEq S]

theorem SessionRecord.Canonical.skipMessageKeys {s s' : SessionRecord B S} {upTo : Int}
    (h : s.Canonical P) (hskip : skipMessageKeys P s upTo = .ok s') : s'.Canonical P := by
  rcases skipMessageKeys_cases P hskip with ⟨-, rfl⟩ | ⟨chainHex, c, remote, -, -, -, -, rfl⟩
  · exact h
  · exact ⟨h.localDhKeyPair, h.rootKey, h.sendChainKey,
      fun c hc => ⟨_, (Option.some.inj hc).symm⟩⟩

omit [DecidableEq S] in
theorem obeys_dhRatchetStep (s : SessionRecord B S) (newRemoteHex : S) :
    (dhRatchetStep P s newRemoteHex : EngineM B S _).Obeys
      (canonical P EngineOp.KeepsSignedPreKeys) fun s' => s'.Canonical P := by
  refine Program.obeys_bind (obeys_attempt _) ?_
  intro rootKey _
  refine Program.obeys_bind (obeys_attempt _) ?_
  intro remoteDh _
  refine Program.obeys_bind (obeys_attempt _) ?_
  intro dhReceive _
  refine Program.obeys_bind (obeys_generateCurve25519KeyPair trivial) ?_
  intro localDhKeyPair hpair
  refine Program.obeys_bind (obeys_attempt _) ?_
  intro dhSend _
  exact ⟨hpair, ⟨_, rfl⟩, fun c hc => ⟨_, (Option.some.inj hc).symm⟩,
    fun c hc => ⟨_, (Option.some.inj hc).symm⟩⟩

theorem obeys_moveToHeader {s : SessionRecord B S} (hs : s.Canonical P) (m : EncryptedMessage S) :
    (moveToHeader P s m : EngineM B S _).Obeys (canonical P EngineOp.KeepsSignedPreKeys)
      fun s' => s'.Canonical P := by
  unfold moveToHeader
  split
  · refine Program.obeys_bind (obeys_attempt _) ?_
    intro skipped _
    refine Program.obeys_bind (obeys_dhRatchetStep _ _) ?_
    intro ratcheted hratcheted
    exact Program.obeys_ofExcept fun s' hskip => hratcheted.skipMessageKeys hskip
  · exact Program.obeys_ofExcept fun s' hskip => hs.skipMessageKeys hskip

theorem obeys_decryptInSession (k : S) (m : EncryptedMessage S) {s : SessionRecord B S}
    (hs : s.Canonical P) :
    (decryptInSession P k m s : EngineM B S _).Obeys (canonical P EngineOp.KeepsSignedPreKeys)
      fun _ => True := by
  unfold decryptInSession
  dsimp only
  split
  · refine Program.obeys_bind (obeys_attempt _) ?_
    intro messageKey _
    -- deleting a skipped key leaves the other fields as they were
    have hsession : SessionRecord.Canonical P { s with
        skippedMessageKeys := Function.update s.skippedMessageKeys
          (P.toLowerCase m.ephemeralPublicKeyHex, m.sequenceNumber) none } :=
      ⟨hs.localDhKeyPair, hs.rootKey, hs.sendChainKey, hs.receiveChainKey⟩
    refine Program.obeys_bind (obeys_await trivial hsession) ?_
    intro _ _
    exact Program.obeys_ofExcept fun _ _ => trivial
  · refine Program.obeys_bind (obeys_moveToHeader hs m) ?_
    intro moved hmoved
    unfold openAtChainHead
    split
    · trivial
    · refine Program.obeys_bind (obeys_attempt _) ?_
      intro currentReceiveChainKey _
      refine Program.obeys_bind (obeys_await trivial trivial) ?_
      intro updatedAt _
      have hsession : SessionRecord.Canonical P { moved with
          receiveChainKeyHex := some (P.bytesToHex (kdfChain P currentReceiveChainKey).nextChainKey)
          receiveSequenceNumber := moved.receiveSequenceNumber + 1
          updatedAt } :=
        ⟨hmoved.localDhKeyPair, hmoved.rootKey, hmoved.sendChainKey,
          fun c hc => ⟨_, (Option.some.inj hc).symm⟩⟩
      refine Program.obeys_bind (obeys_await trivial hsession) ?_
      intro _ _
      exact Program.obeys_ofExcept fun _ _ => trivial

omit [DecidableEq S] in
/-- A program of one kind, followed by a pure step. -/
theorem obeys_bind_pure {α β : Type} {p : EngineM B S α} {q : α → Prop} (f : α → β)
    (hp : p.Obeys (canonical P kind) q) :
    (p >>= fun a => (pure (f a) : EngineM B S β)).Obeys (canonical P fun _ => True)
      fun _ => True :=
  Program.obeys_bind (hp.mono (fun _ ho => ⟨trivial, ho.2⟩) (fun _ _ hr => hr) fun _ hq => hq)
    fun _ _ => trivial

theorem obeys_decrypt (k : S) (m : EncryptedMessage S) :
    (decrypt P k m : EngineM B S S).Obeys (canonical P EngineOp.KeepsSignedPreKeys)
      fun _ => True := by
  rw [decrypt_eq]
  exact Program.obeys_bind (obeys_sessionFor k m) fun s hs => obeys_decryptInSession k m hs

/-- Every call saves canonical values, when it gets canonical answers. -/
theorem EngineCall.obeys (c : EngineCall S) :
    (c.program P : EngineM B S _).Obeys (canonical P fun _ => True) fun _ => True := by
  cases c with
  | generatePreKeyBundle n => exact obeys_bind_pure _ (obeys_generatePreKeyBundle n)
  | initiateSession k bundle => exact obeys_bind_pure _ (obeys_initiateSession k bundle)
  | encrypt k plaintext context => exact obeys_bind_pure _ (obeys_encrypt k plaintext context)
  | decrypt k m => exact obeys_bind_pure _ (obeys_decrypt k m)

end TorE2EE.Crypto
