import TorE2EE.Crypto.Canonical
import TorE2EE.Foundation.Tables

/-!
# The store over SQLite

`SqliteSignalStore` of `storage/SqliteSignalStore.ts`: every row holds a JSON copy of what was saved,
with the two halves of a key pair as hex strings, and a selection decodes a new copy. Decoding
throws on a string that is not hex.

`SignalStore` is this database seen as values: on canonical values a selection decodes to what was
saved (`handle_serialized`), so every engine call over the rows is the call over the values
(`tryRun_serialized`).
-/

set_option autoImplicit false

namespace TorE2EE.Crypto

open TorE2EE.Foundation

variable {B S : Type}

/-! ## Rows -/

/-- The result of `serializeKeyPair`. -/
structure KeyPairData (S : Type) where
  publicKeyHex : S
  secretKeyHex : S

/-- The result of `serializeSignedPreKey`. -/
structure SignedPreKeyData (S : Type) where
  keyId : Int
  keyPair : KeyPairData S
  signatureHex : S
  createdAt : Nat

/-- The result of `serializeOneTimePreKey`. -/
structure OneTimePreKeyData (S : Type) where
  keyId : Int
  keyPair : KeyPairData S

/-- The result of `serializeSession`. -/
structure SessionData (S : Type) where
  recipientIdentityKeyHex : S
  rootKeyHex : S
  sendChainKeyHex : Option S
  receiveChainKeyHex : Option S
  localDhKeyPair : KeyPairData S
  remoteDhPublicKeyHex : Option S
  sendSequenceNumber : Nat
  receiveSequenceNumber : Nat
  previousChainLength : Nat
  skippedMessageKeys : SkippedKeyId S → Option S
  createdAt : Nat
  updatedAt : Nat
  oneTimePreKeyId : Option Int

/-- A row of `signed_prekeys`. -/
structure SignedPreKeyRow (S : Type) where
  keyId : Int
  keyData : SignedPreKeyData S
  createdAt : Nat

/-- A row of `one_time_prekeys`. -/
structure OneTimePreKeyRow (S : Type) where
  keyId : Int
  keyData : OneTimePreKeyData S

/-- The columns of a row of `sessions` beside its key. -/
structure SessionRow (S : Type) where
  sessionData : SessionData S
  updatedAt : Nat

/-- The tables, and the identity the store was opened with. -/
structure SqliteSignalStore (B S : Type) where
  identity : UserIdentity B S
  signedPreKeys : List (SignedPreKeyRow S)
  oneTimePreKeys : List (OneTimePreKeyRow S)
  sessions : S → Option (SessionRow S)

variable (P : Primitives B S)

/-- `serializeKeyPair`. -/
def serializeKeyPair (keyPair : Curve25519KeyPair B S) : KeyPairData S :=
  { publicKeyHex := keyPair.publicKeyHex
    secretKeyHex := P.bytesToHex keyPair.secretKey }

/-- `deserializeKeyPair`. -/
def deserializeKeyPair (data : KeyPairData S) : Except (EngineError S) (Curve25519KeyPair B S) := do
  let publicKey ← P.hexToBytes data.publicKeyHex
  let secretKey ← P.hexToBytes data.secretKeyHex
  pure { publicKeyHex := data.publicKeyHex, publicKey, secretKey }

/-- `serializeSignedPreKey`. -/
def serializeSignedPreKey (key : SignedPreKey B S) : SignedPreKeyData S :=
  { keyId := key.keyId
    keyPair := serializeKeyPair P key.keyPair
    signatureHex := key.signatureHex
    createdAt := key.createdAt }

/-- `deserializeSignedPreKey`. -/
def deserializeSignedPreKey (data : SignedPreKeyData S) :
    Except (EngineError S) (SignedPreKey B S) := do
  let keyPair ← deserializeKeyPair P data.keyPair
  pure { keyId := data.keyId, keyPair, signatureHex := data.signatureHex, createdAt := data.createdAt }

/-- `serializeOneTimePreKey`. -/
def serializeOneTimePreKey (key : OneTimePreKey B S) : OneTimePreKeyData S :=
  { keyId := key.keyId
    keyPair := serializeKeyPair P key.keyPair }

/-- `deserializeOneTimePreKey`. -/
def deserializeOneTimePreKey (data : OneTimePreKeyData S) :
    Except (EngineError S) (OneTimePreKey B S) := do
  let keyPair ← deserializeKeyPair P data.keyPair
  pure { keyId := data.keyId, keyPair }

/-- `serializeSession`. -/
def serializeSession (session : SessionRecord B S) : SessionData S :=
  { recipientIdentityKeyHex := session.recipientIdentityKeyHex
    rootKeyHex := session.rootKeyHex
    sendChainKeyHex := session.sendChainKeyHex
    receiveChainKeyHex := session.receiveChainKeyHex
    localDhKeyPair := serializeKeyPair P session.localDhKeyPair
    remoteDhPublicKeyHex := session.remoteDhPublicKeyHex
    sendSequenceNumber := session.sendSequenceNumber
    receiveSequenceNumber := session.receiveSequenceNumber
    previousChainLength := session.previousChainLength
    skippedMessageKeys := session.skippedMessageKeys
    createdAt := session.createdAt
    updatedAt := session.updatedAt
    oneTimePreKeyId := session.oneTimePreKeyId }

/-- `deserializeSession`. -/
def deserializeSession (data : SessionData S) : Except (EngineError S) (SessionRecord B S) := do
  let localDhKeyPair ← deserializeKeyPair P data.localDhKeyPair
  pure
    { recipientIdentityKeyHex := data.recipientIdentityKeyHex
      rootKeyHex := data.rootKeyHex
      sendChainKeyHex := data.sendChainKeyHex
      receiveChainKeyHex := data.receiveChainKeyHex
      localDhKeyPair
      remoteDhPublicKeyHex := data.remoteDhPublicKeyHex
      sendSequenceNumber := data.sendSequenceNumber
      receiveSequenceNumber := data.receiveSequenceNumber
      previousChainLength := data.previousChainLength
      skippedMessageKeys := data.skippedMessageKeys
      createdAt := data.createdAt
      updatedAt := data.updatedAt
      oneTimePreKeyId := data.oneTimePreKeyId }

/-! ## The store calls -/

namespace SqliteSignalStore

variable (st : SqliteSignalStore B S)

/-- A store without prekeys and sessions. -/
def empty (identity : UserIdentity B S) : SqliteSignalStore B S :=
  { identity, signedPreKeys := [], oneTimePreKeys := [], sessions := fun _ => none }

/-- `saveSignedPreKey`. -/
def saveSignedPreKey (keyId : Int) (preKey : SignedPreKey B S) : SqliteSignalStore B S :=
  { st with
    signedPreKeys := Rows.upsert SignedPreKeyRow.keyId
      { keyId, keyData := serializeSignedPreKey P preKey, createdAt := preKey.createdAt }
      st.signedPreKeys }

/-- `getLatestSignedPreKey`: `ORDER BY created_at DESC LIMIT 1`, the lowest key id among equals. -/
def getLatestSignedPreKey : Except (EngineError S) (Option (SignedPreKey B S)) :=
  match st.signedPreKeys.argmax SignedPreKeyRow.createdAt with
  | none => pure none
  | some row => do
      let preKey ← deserializeSignedPreKey P row.keyData
      pure (some preKey)

/-- `saveOneTimePreKey`. -/
def saveOneTimePreKey (keyId : Int) (preKey : OneTimePreKey B S) : SqliteSignalStore B S :=
  { st with
    oneTimePreKeys := Rows.upsert OneTimePreKeyRow.keyId
      { keyId, keyData := serializeOneTimePreKey P preKey } st.oneTimePreKeys }

/-- `getOneTimePreKey`. -/
def getOneTimePreKey (keyId : Int) : Except (EngineError S) (Option (OneTimePreKey B S)) :=
  match Rows.lookup OneTimePreKeyRow.keyId keyId st.oneTimePreKeys with
  | none => pure none
  | some row => do
      let preKey ← deserializeOneTimePreKey P row.keyData
      pure (some preKey)

/-- `removeOneTimePreKey`. -/
def removeOneTimePreKey (keyId : Int) : SqliteSignalStore B S :=
  { st with oneTimePreKeys := Rows.erase OneTimePreKeyRow.keyId keyId st.oneTimePreKeys }

/-- `countOneTimePreKeys`. -/
def countOneTimePreKeys : Nat := st.oneTimePreKeys.length

/-- `saveSession`. -/
def saveSession [DecidableEq S] (recipientIdentityKeyHex : S) (session : SessionRecord B S) :
    SqliteSignalStore B S :=
  { st with
    sessions := Function.update st.sessions (P.toLowerCase recipientIdentityKeyHex)
      (some { sessionData := serializeSession P session, updatedAt := session.updatedAt }) }

/-- `getSession`. -/
def getSession (recipientIdentityKeyHex : S) :
    Except (EngineError S) (Option (SessionRecord B S)) :=
  match st.sessions (P.toLowerCase recipientIdentityKeyHex) with
  | none => pure none
  | some row => do
      let session ← deserializeSession P row.sessionData
      pure (some session)

end SqliteSignalStore

/-- A store over SQLite and the number of the next draw. -/
structure SqliteHost (B S : Type) where
  store : SqliteSignalStore B S
  draws : Nat

/-- The effect and the answer of one operation over the rows. -/
def EngineOp.handleSqlite [DecidableEq S] (E : Entropy B) :
    FallibleHandler (EngineOp B S) EngineOp.Resp (EngineError S) (SqliteHost B S)
  | getIdentity, h => (.ok h.store.identity, h)
  | saveSignedPreKey keyId preKey, h =>
      (.ok (), { h with store := h.store.saveSignedPreKey P keyId preKey })
  | getLatestSignedPreKey, h => (h.store.getLatestSignedPreKey P, h)
  | saveOneTimePreKey keyId preKey, h =>
      (.ok (), { h with store := h.store.saveOneTimePreKey P keyId preKey })
  | getOneTimePreKey keyId, h => (h.store.getOneTimePreKey P keyId, h)
  | removeOneTimePreKey keyId, h =>
      (.ok (), { h with store := h.store.removeOneTimePreKey keyId })
  | saveSession k session, h => (.ok (), { h with store := h.store.saveSession P k session })
  | getSession k, h => (h.store.getSession P k, h)
  | secretKey, h => (.ok (E.secretKey h.draws), { h with draws := h.draws + 1 })
  | randomBytes n, h => (.ok (E.randomBytes h.draws n), { h with draws := h.draws + 1 })
  | randomId, h => (.ok (E.randomId h.draws), { h with draws := h.draws + 1 })
  | now, h => (.ok (E.now h.draws), { h with draws := h.draws + 1 })

/-! ## What was saved is what is read -/

section

variable {P}

theorem deserialize_serializeKeyPair {kp : Curve25519KeyPair B S} (h : kp.WellFormed P)
    (hP : P.Lawful) : deserializeKeyPair P (serializeKeyPair P kp) = .ok kp := by
  simp only [deserializeKeyPair, serializeKeyPair, h.hexToBytes hP, hP.hexToBytes_bytesToHex]
  rfl

theorem deserialize_serializeSignedPreKey {spk : SignedPreKey B S} (h : spk.keyPair.WellFormed P)
    (hP : P.Lawful) : deserializeSignedPreKey P (serializeSignedPreKey P spk) = .ok spk := by
  simp only [deserializeSignedPreKey, serializeSignedPreKey, deserialize_serializeKeyPair h hP]
  rfl

theorem deserialize_serializeOneTimePreKey {opk : OneTimePreKey B S} (h : opk.keyPair.WellFormed P)
    (hP : P.Lawful) : deserializeOneTimePreKey P (serializeOneTimePreKey P opk) = .ok opk := by
  simp only [deserializeOneTimePreKey, serializeOneTimePreKey, deserialize_serializeKeyPair h hP]
  rfl

theorem deserialize_serializeSession {s : SessionRecord B S} (h : s.Canonical P) (hP : P.Lawful) :
    deserializeSession P (serializeSession P s) = .ok s := by
  simp only [deserializeSession, serializeSession,
    deserialize_serializeKeyPair h.localDhKeyPair hP]
  rfl

end

/-! ## The rows of a store of values -/

/-- The row of a signed prekey. -/
def SignedPreKey.row (spk : SignedPreKey B S) : SignedPreKeyRow S :=
  { keyId := spk.keyId
    keyData := serializeSignedPreKey P spk
    createdAt := spk.createdAt }

/-- The row of a one-time prekey. -/
def OneTimePreKey.row (opk : OneTimePreKey B S) : OneTimePreKeyRow S :=
  { keyId := opk.keyId
    keyData := serializeOneTimePreKey P opk }

/-- The row of a session. -/
def SessionRecord.row (s : SessionRecord B S) : SessionRow S :=
  { sessionData := serializeSession P s
    updatedAt := s.updatedAt }

/-- The tables that hold the values of a store. -/
def SignalStore.serialized (st : SignalStore B S) : SqliteSignalStore B S :=
  { identity := st.identity
    signedPreKeys := st.signedPreKeys.map (SignedPreKey.row P)
    oneTimePreKeys := st.oneTimePreKeys.map (OneTimePreKey.row P)
    sessions := fun k => (st.sessions k).map (SessionRecord.row P) }

/-- The tables that hold the values of a host. -/
def Host.serialized (h : Host B S) : SqliteHost B S :=
  { store := h.store.serialized P, draws := h.draws }

namespace SignalStore

variable {P} {st : SignalStore B S}

theorem serialized_saveSignedPreKey (spk : SignedPreKey B S) :
    (st.saveSignedPreKey spk.keyId spk).serialized P =
      (st.serialized P).saveSignedPreKey P spk.keyId spk := by
  show SqliteSignalStore.mk _ ((Rows.upsert SignedPreKey.keyId spk st.signedPreKeys).map
    (SignedPreKey.row P)) _ _ = _
  rw [Rows.map_upsert SignedPreKey.keyId SignedPreKeyRow.keyId fun _ => rfl]
  rfl

theorem serialized_saveOneTimePreKey (opk : OneTimePreKey B S) :
    (st.saveOneTimePreKey opk.keyId opk).serialized P =
      (st.serialized P).saveOneTimePreKey P opk.keyId opk := by
  show SqliteSignalStore.mk _ _ ((Rows.upsert OneTimePreKey.keyId opk st.oneTimePreKeys).map
    (OneTimePreKey.row P)) _ = _
  rw [Rows.map_upsert OneTimePreKey.keyId OneTimePreKeyRow.keyId fun _ => rfl]
  rfl

theorem serialized_removeOneTimePreKey (keyId : Int) :
    (st.removeOneTimePreKey keyId).serialized P =
      (st.serialized P).removeOneTimePreKey keyId := by
  show SqliteSignalStore.mk _ _ ((Rows.erase OneTimePreKey.keyId keyId st.oneTimePreKeys).map
    (OneTimePreKey.row P)) _ = _
  rw [Rows.map_erase OneTimePreKey.keyId OneTimePreKeyRow.keyId fun _ => rfl]
  rfl

theorem serialized_saveSession [DecidableEq S] (k : S) (s : SessionRecord B S) :
    (st.saveSession P k s).serialized P = (st.serialized P).saveSession P k s := by
  show SqliteSignalStore.mk _ _ _ _ = SqliteSignalStore.mk _ _ _ _
  congr 1
  funext k'
  show (Function.update st.sessions (P.toLowerCase k) (some s) k').map (SessionRecord.row P) =
    Function.update (fun k => (st.sessions k).map (SessionRecord.row P)) (P.toLowerCase k)
      (some (s.row P)) k'
  by_cases hk : k' = P.toLowerCase k
  · rw [hk, Function.update_self, Function.update_self]
    rfl
  · rw [Function.update_of_ne hk, Function.update_of_ne hk]

theorem Canonical.getLatestSignedPreKey (h : st.Canonical P) (hP : P.Lawful) :
    (st.serialized P).getLatestSignedPreKey P = .ok st.getLatestSignedPreKey := by
  have hargmax : (st.signedPreKeys.map (SignedPreKey.row P)).argmax SignedPreKeyRow.createdAt =
      st.getLatestSignedPreKey.map (SignedPreKey.row P) :=
    argmax_map _ _ _
  rw [SqliteSignalStore.getLatestSignedPreKey, serialized]
  simp only [hargmax]
  cases hlatest : st.getLatestSignedPreKey with
  | none => rfl
  | some spk =>
      have hspk := h.signedPreKeys spk (List.argmax_mem hlatest)
      simp only [Option.map_some, SignedPreKey.row, deserialize_serializeSignedPreKey hspk hP]
      rfl

theorem Canonical.getOneTimePreKey (h : st.Canonical P) (hP : P.Lawful) (keyId : Int) :
    (st.serialized P).getOneTimePreKey P keyId = .ok (st.getOneTimePreKey keyId) := by
  have hlookup : Rows.lookup OneTimePreKeyRow.keyId keyId
      (st.oneTimePreKeys.map (OneTimePreKey.row P)) =
        (st.getOneTimePreKey keyId).map (OneTimePreKey.row P) :=
    Rows.lookup_map OneTimePreKey.keyId OneTimePreKeyRow.keyId (fun _ => rfl) keyId st.oneTimePreKeys
  rw [SqliteSignalStore.getOneTimePreKey, serialized]
  simp only [hlookup]
  cases hfound : st.getOneTimePreKey keyId with
  | none => rfl
  | some opk =>
      have hopk := h.oneTimePreKeys opk (Rows.mem_of_lookup _ hfound).1
      simp only [Option.map_some, OneTimePreKey.row, deserialize_serializeOneTimePreKey hopk hP]
      rfl

theorem Canonical.getSession (h : st.Canonical P) (hP : P.Lawful) (k : S) :
    (st.serialized P).getSession P k = .ok (st.getSession P k) := by
  rw [SqliteSignalStore.getSession, serialized, SignalStore.getSession]
  cases hfound : st.sessions (P.toLowerCase k) with
  | none => simp only [hfound, Option.map_none]; rfl
  | some s =>
      have hs := h.sessions _ s hfound
      simp only [hfound, Option.map_some, SessionRecord.row, deserialize_serializeSession hs hP]
      rfl

end SignalStore

variable {P} [DecidableEq S] {E : Entropy B}

/-- On canonical values an operation over the rows is the operation over the values. -/
theorem handle_serialized (hP : P.Lawful) {o : EngineOp B S} (ho : o.SavesCanonical P)
    {h : Host B S} (hh : h.store.Canonical P) :
    EngineOp.handleSqlite P E o (h.serialized P) =
      (.ok (EngineOp.handle P E o h).1, (EngineOp.handle P E o h).2.serialized P) := by
  cases o with
  | saveSignedPreKey keyId spk =>
      obtain ⟨rfl, -⟩ := ho
      refine Prod.ext rfl ?_
      simp only [EngineOp.handle, EngineOp.handleSqlite, Host.serialized,
        SignalStore.serialized_saveSignedPreKey]
  | saveOneTimePreKey keyId opk =>
      obtain ⟨rfl, -⟩ := ho
      refine Prod.ext rfl ?_
      simp only [EngineOp.handle, EngineOp.handleSqlite, Host.serialized,
        SignalStore.serialized_saveOneTimePreKey]
  | removeOneTimePreKey keyId =>
      refine Prod.ext rfl ?_
      simp only [EngineOp.handle, EngineOp.handleSqlite, Host.serialized,
        SignalStore.serialized_removeOneTimePreKey]
  | saveSession k s =>
      refine Prod.ext rfl ?_
      simp only [EngineOp.handle, EngineOp.handleSqlite, Host.serialized,
        SignalStore.serialized_saveSession]
  | getLatestSignedPreKey => exact Prod.ext (hh.getLatestSignedPreKey hP) rfl
  | getOneTimePreKey keyId => exact Prod.ext (hh.getOneTimePreKey hP keyId) rfl
  | getSession k => exact Prod.ext (hh.getSession hP k) rfl
  | getIdentity | secretKey | randomBytes | randomId | now => rfl

/-- An engine call over the rows is the call over the values, and leaves canonical values. -/
theorem tryRun_serialized (hP : P.Lawful) (hE : ∀ n, P.length (E.secretKey n) = 32)
    (c : EngineCall S) {h : Host B S} (hh : h.store.Canonical P) :
    (c.program P).tryRun (EngineOp.handleSqlite P E) (h.serialized P) =
        (((c.program P).run P E h).1, ((c.program P).run P E h).2.serialized P) ∧
      ((c.program P).run P E h).2.store.Canonical P :=
  ⟨c.obeys.tryRun_eq (canonical_kept hE _) (fun _ _ ho hs => handle_serialized hP ho.2 hs) hh,
    (c.obeys.run (canonical_kept hE _) hh).1⟩

end TorE2EE.Crypto
