import TorE2EE.Crypto.SqliteStore
import TorE2EE.Foundation.Coupling

/-!
# The store in memory

`InMemorySignalStore` of `crypto/InMemorySignalStore.ts`: three JavaScript maps. A `Map` is the list
of its entries in insertion order, the order in which `getLatestSignedPreKey` meets the values.

`SameStores` relates such a store with the database. Every operation keeps it and answers alike
(`SameHosts.handle`), but for `getLatestSignedPreKey`, which answers alike when no two stored signed
prekeys have one `createdAt`.
-/

set_option autoImplicit false

namespace TorE2EE.Crypto

open TorE2EE.Foundation

variable {B S : Type}

/-- `InMemorySignalStore`. -/
structure InMemorySignalStore (B S : Type) where
  identity : UserIdentity B S
  signedPreKeys : List (Int × SignedPreKey B S)
  oneTimePreKeys : List (Int × OneTimePreKey B S)
  sessions : S → Option (SessionRecord B S)

namespace InMemorySignalStore

/-- A new store. -/
def empty (identity : UserIdentity B S) : InMemorySignalStore B S :=
  { identity, signedPreKeys := [], oneTimePreKeys := [], sessions := fun _ => none }

variable (st : InMemorySignalStore B S)

/-- `saveSignedPreKey`. -/
def saveSignedPreKey (keyId : Int) (preKey : SignedPreKey B S) : InMemorySignalStore B S :=
  { st with signedPreKeys := Entries.set keyId preKey st.signedPreKeys }

/-- `getLatestSignedPreKey`. -/
def getLatestSignedPreKey : Option (SignedPreKey B S) :=
  (st.signedPreKeys.map Prod.snd).foldl
    (fun latest key =>
      match latest with
      | none => some key
      | some last => if last.createdAt < key.createdAt then some key else some last)
    none

/-- `saveOneTimePreKey`. -/
def saveOneTimePreKey (keyId : Int) (preKey : OneTimePreKey B S) : InMemorySignalStore B S :=
  { st with oneTimePreKeys := Entries.set keyId preKey st.oneTimePreKeys }

/-- `getOneTimePreKey`. -/
def getOneTimePreKey (keyId : Int) : Option (OneTimePreKey B S) :=
  Entries.get keyId st.oneTimePreKeys

/-- `removeOneTimePreKey`. -/
def removeOneTimePreKey (keyId : Int) : InMemorySignalStore B S :=
  { st with oneTimePreKeys := Entries.delete keyId st.oneTimePreKeys }

/-- `countOneTimePreKeys`. -/
def countOneTimePreKeys : Nat := st.oneTimePreKeys.length

variable (P : Primitives B S)

/-- `saveSession`: the map holds the session object itself. -/
def saveSession [DecidableEq S] (recipientIdentityKeyHex : S) (session : SessionRecord B S) :
    InMemorySignalStore B S :=
  { st with
    sessions := Function.update st.sessions (P.toLowerCase recipientIdentityKeyHex) (some session) }

/-- `getSession`. -/
def getSession (recipientIdentityKeyHex : S) : Option (SessionRecord B S) :=
  st.sessions (P.toLowerCase recipientIdentityKeyHex)

/-- No two stored signed prekeys have one `createdAt`. -/
def DistinctTimes : Prop :=
  ∀ spk ∈ st.signedPreKeys.map Prod.snd, ∀ spk' ∈ st.signedPreKeys.map Prod.snd,
    spk.createdAt = spk'.createdAt → spk = spk'

theorem getLatestSignedPreKey_eq :
    st.getLatestSignedPreKey = (st.signedPreKeys.map Prod.snd).argmax SignedPreKey.createdAt := by
  rw [getLatestSignedPreKey, List.argmax]
  congr 1
  funext latest key
  cases latest <;> rfl

end InMemorySignalStore

/-- A store in memory and the number of the next draw. -/
structure MemoryHost (B S : Type) where
  store : InMemorySignalStore B S
  draws : Nat

variable (P : Primitives B S)

/-- The effect and the answer of one operation over the maps. -/
def EngineOp.handleInMemory [DecidableEq S] (E : Entropy B) :
    Handler (EngineOp B S) EngineOp.Resp (MemoryHost B S)
  | getIdentity, m => (m.store.identity, m)
  | saveSignedPreKey keyId preKey, m =>
      ((), { m with store := m.store.saveSignedPreKey keyId preKey })
  | getLatestSignedPreKey, m => (m.store.getLatestSignedPreKey, m)
  | saveOneTimePreKey keyId preKey, m =>
      ((), { m with store := m.store.saveOneTimePreKey keyId preKey })
  | getOneTimePreKey keyId, m => (m.store.getOneTimePreKey keyId, m)
  | removeOneTimePreKey keyId, m => ((), { m with store := m.store.removeOneTimePreKey keyId })
  | saveSession k session, m => ((), { m with store := m.store.saveSession P k session })
  | getSession k, m => (m.store.getSession P k, m)
  | secretKey, m => (E.secretKey m.draws, { m with draws := m.draws + 1 })
  | randomBytes n, m => (E.randomBytes m.draws n, { m with draws := m.draws + 1 })
  | randomId, m => (E.randomId m.draws, { m with draws := m.draws + 1 })
  | now, m => (E.now m.draws, { m with draws := m.draws + 1 })

/-! ## The same content -/

/-- The two stores hold the same identity, prekeys and sessions. -/
structure SameStores (st : SignalStore B S) (ms : InMemorySignalStore B S) : Prop where
  identity : ms.identity = st.identity
  signedPreKeys : SameEntries SignedPreKey.keyId st.signedPreKeys ms.signedPreKeys
  oneTimePreKeys : SameEntries OneTimePreKey.keyId st.oneTimePreKeys ms.oneTimePreKeys
  sessions : ms.sessions = st.sessions

/-- The same stores, with the same number of draws made. -/
structure SameHosts (h : Host B S) (m : MemoryHost B S) : Prop where
  store : SameStores h.store m.store
  draws : m.draws = h.draws

theorem sameStores_empty (identity : UserIdentity B S) :
    SameStores (SignalStore.empty identity) (InMemorySignalStore.empty identity) :=
  ⟨rfl, SameEntries.nil, SameEntries.nil, rfl⟩

variable {P} {st : SignalStore B S} {ms : InMemorySignalStore B S}

/-- With distinct times the latest signed prekey does not depend on the order of insertion. -/
theorem SameStores.getLatestSignedPreKey (h : SameStores st ms) (htimes : ms.DistinctTimes) :
    st.getLatestSignedPreKey = ms.getLatestSignedPreKey := by
  rw [ms.getLatestSignedPreKey_eq]
  apply argmax_of_perm h.signedPreKeys.values
  intro spk hspk spk' hspk'
  exact htimes spk (h.signedPreKeys.values.mem_iff.1 hspk) spk'
    (h.signedPreKeys.values.mem_iff.1 hspk')

theorem SameStores.getSession (h : SameStores st ms) (k : S) :
    st.getSession P k = ms.getSession P k := by
  rw [SignalStore.getSession, InMemorySignalStore.getSession, h.sessions]

variable [DecidableEq S] {E : Entropy B} {h : Host B S} {m : MemoryHost B S}

/-- An operation answers alike over both stores and leaves the same content. -/
theorem SameHosts.handle (hsame : SameHosts h m) {o : EngineOp B S} (ho : o.SavesCanonical P)
    (hlatest : o = .getLatestSignedPreKey → m.store.DistinctTimes) :
    (EngineOp.handle P E o h).1 = (EngineOp.handleInMemory P E o m).1 ∧
      SameHosts (EngineOp.handle P E o h).2 (EngineOp.handleInMemory P E o m).2 := by
  obtain ⟨hstore, hdraws⟩ := hsame
  cases o with
  | getIdentity => exact ⟨hstore.identity.symm, hstore, hdraws⟩
  | saveSignedPreKey keyId spk =>
      -- the row is saved under its own id, so map and table agree on where it goes
      obtain ⟨rfl, -⟩ := ho
      exact ⟨rfl, ⟨hstore.identity, hstore.signedPreKeys.set spk, hstore.oneTimePreKeys,
        hstore.sessions⟩, hdraws⟩
  | getLatestSignedPreKey =>
      exact ⟨hstore.getLatestSignedPreKey (hlatest rfl), hstore, hdraws⟩
  | saveOneTimePreKey keyId opk =>
      obtain ⟨rfl, -⟩ := ho
      exact ⟨rfl, ⟨hstore.identity, hstore.signedPreKeys, hstore.oneTimePreKeys.set opk,
        hstore.sessions⟩, hdraws⟩
  | getOneTimePreKey keyId => exact ⟨hstore.oneTimePreKeys.get keyId, hstore, hdraws⟩
  | removeOneTimePreKey keyId =>
      exact ⟨rfl, ⟨hstore.identity, hstore.signedPreKeys, hstore.oneTimePreKeys.delete keyId,
        hstore.sessions⟩, hdraws⟩
  | saveSession k s =>
      refine ⟨rfl, ⟨hstore.identity, hstore.signedPreKeys, hstore.oneTimePreKeys, ?_⟩, hdraws⟩
      show Function.update m.store.sessions _ _ = Function.update h.store.sessions _ _
      rw [hstore.sessions]
  | getSession k => exact ⟨hstore.getSession k, hstore, hdraws⟩
  | secretKey | randomBytes | randomId | now =>
      refine ⟨?_, hstore, congrArg (· + 1) hdraws⟩
      simp only [EngineOp.handle, EngineOp.handleInMemory, hdraws]

/-- An operation that saves no signed prekey keeps their times distinct. -/
theorem distinctTimes_handle {o : EngineOp B S} (ho : o.KeepsSignedPreKeys)
    (htimes : m.store.DistinctTimes) :
    (EngineOp.handleInMemory P E o m).2.store.DistinctTimes := by
  cases o with
  | saveSignedPreKey keyId spk => exact ho.elim
  | _ => exact htimes

end TorE2EE.Crypto
