import TorE2EE.Crypto.Primitives
import TorE2EE.Foundation.Program
import TorE2EE.Foundation.Rows
import Mathlib.Data.List.MinMax

/-!
# The Signal store and the operations of the engine

The engine reaches the world through the operations of `EngineOp`: the calls of `ISignalStore` it
awaits, the random draws and the clock. `SignalStore` is the database behind `SqliteSignalStore`:
sessions under the lower-cased identity key, the two prekey tables in the order of their integer
primary key. A store call sees and leaves values, as the JSON columns do.

`Entropy` fixes every random draw and every reading of the clock in advance, one per draw number;
`Host` is a store together with the number of the next draw.
-/

set_option autoImplicit false

namespace TorE2EE.Crypto

open TorE2EE.Foundation

variable {B S : Type} [DecidableEq S]

/-- The tables of the Signal store and the identity it was opened with. -/
structure SignalStore (B S : Type) where
  identity : UserIdentity B S
  signedPreKeys : List (SignedPreKey B S)
  oneTimePreKeys : List (OneTimePreKey B S)
  sessions : S → Option (SessionRecord B S)

/-- A store without prekeys and sessions. -/
def SignalStore.empty (identity : UserIdentity B S) : SignalStore B S :=
  { identity, signedPreKeys := [], oneTimePreKeys := [], sessions := fun _ => none }

namespace SignalStore

variable (st : SignalStore B S)

/-- `saveSignedPreKey`. -/
def saveSignedPreKey (keyId : Int) (preKey : SignedPreKey B S) : SignalStore B S :=
  { st with signedPreKeys := Rows.upsert SignedPreKey.keyId { preKey with keyId } st.signedPreKeys }

/-- `getLatestSignedPreKey`: `ORDER BY created_at DESC LIMIT 1`, the lowest key id among equals. -/
def getLatestSignedPreKey : Option (SignedPreKey B S) :=
  st.signedPreKeys.argmax SignedPreKey.createdAt

/-- `saveOneTimePreKey`. -/
def saveOneTimePreKey (keyId : Int) (preKey : OneTimePreKey B S) : SignalStore B S :=
  { st with
    oneTimePreKeys := Rows.upsert OneTimePreKey.keyId { preKey with keyId } st.oneTimePreKeys }

/-- `getOneTimePreKey`. -/
def getOneTimePreKey (keyId : Int) : Option (OneTimePreKey B S) :=
  Rows.lookup OneTimePreKey.keyId keyId st.oneTimePreKeys

/-- `removeOneTimePreKey`. -/
def removeOneTimePreKey (keyId : Int) : SignalStore B S :=
  { st with oneTimePreKeys := Rows.erase OneTimePreKey.keyId keyId st.oneTimePreKeys }

variable (P : Primitives B S)

/-- `saveSession`: one row per lower-cased identity key. -/
def saveSession (recipientIdentityKeyHex : S) (session : SessionRecord B S) : SignalStore B S :=
  { st with
    sessions := Function.update st.sessions (P.toLowerCase recipientIdentityKeyHex) (some session) }

/-- `getSession`. -/
def getSession (recipientIdentityKeyHex : S) : Option (SessionRecord B S) :=
  st.sessions (P.toLowerCase recipientIdentityKeyHex)

end SignalStore

/-- The operations an engine call performs one at a time. -/
inductive EngineOp (B S : Type) : Type where
  | getIdentity
  | saveSignedPreKey (keyId : Int) (preKey : SignedPreKey B S)
  | getLatestSignedPreKey
  | saveOneTimePreKey (keyId : Int) (preKey : OneTimePreKey B S)
  | getOneTimePreKey (keyId : Int)
  | removeOneTimePreKey (keyId : Int)
  | saveSession (recipientIdentityKeyHex : S) (session : SessionRecord B S)
  | getSession (recipientIdentityKeyHex : S)
  /-- The secret key `nacl.box.keyPair` draws. -/
  | secretKey
  /-- `nacl.randomBytes`. -/
  | randomBytes (n : Nat)
  /-- `Math.floor(Math.random() * 0x7fffffff)`. -/
  | randomId
  /-- `Date.now()`. -/
  | now

/-- The answers to the operations. -/
@[reducible] def EngineOp.Resp : EngineOp B S → Type
  | getIdentity => UserIdentity B S
  | saveSignedPreKey _ _ => Unit
  | getLatestSignedPreKey => Option (SignedPreKey B S)
  | saveOneTimePreKey _ _ => Unit
  | getOneTimePreKey _ => Option (OneTimePreKey B S)
  | removeOneTimePreKey _ => Unit
  | saveSession _ _ => Unit
  | getSession _ => Option (SessionRecord B S)
  | secretKey => B
  | randomBytes _ => B
  | randomId => Int
  | now => Nat

/-- Every random draw and every reading of the clock, by draw number. -/
structure Entropy (B : Type) where
  secretKey : Nat → B
  randomBytes : Nat → Nat → B
  randomId : Nat → Int
  now : Nat → Nat

/-- A store and the number of the next draw. -/
structure Host (B S : Type) where
  store : SignalStore B S
  draws : Nat

/-- The effect and the answer of one operation. -/
def EngineOp.handle (P : Primitives B S) (E : Entropy B) :
    Handler (EngineOp B S) EngineOp.Resp (Host B S)
  | getIdentity, h => (h.store.identity, h)
  | saveSignedPreKey keyId preKey, h =>
      ((), { h with store := h.store.saveSignedPreKey keyId preKey })
  | getLatestSignedPreKey, h => (h.store.getLatestSignedPreKey, h)
  | saveOneTimePreKey keyId preKey, h =>
      ((), { h with store := h.store.saveOneTimePreKey keyId preKey })
  | getOneTimePreKey keyId, h => (h.store.getOneTimePreKey keyId, h)
  | removeOneTimePreKey keyId, h => ((), { h with store := h.store.removeOneTimePreKey keyId })
  | saveSession k session, h => ((), { h with store := h.store.saveSession P k session })
  | getSession k, h => (h.store.getSession P k, h)
  | secretKey, h => (E.secretKey h.draws, { h with draws := h.draws + 1 })
  | randomBytes n, h => (E.randomBytes h.draws n, { h with draws := h.draws + 1 })
  | randomId, h => (E.randomId h.draws, { h with draws := h.draws + 1 })
  | now, h => (E.now h.draws, { h with draws := h.draws + 1 })

/-- An engine call: a program over the operations. -/
abbrev EngineM (B S : Type) : Type → Type :=
  Program (EngineOp B S) EngineOp.Resp (EngineError S)

/-- A call run to its end, with nothing in between its operations. -/
abbrev EngineM.run {α : Type} (P : Primitives B S) (E : Entropy B) (c : EngineM B S α)
    (h : Host B S) : Except (EngineError S) α × Host B S :=
  Program.run (EngineOp.handle P E) c h

namespace SignalStore

variable (P : Primitives B S) (st : SignalStore B S)

@[simp] theorem getSession_saveSession_self (k : S) (s : SessionRecord B S) :
    (st.saveSession P k s).getSession P k = some s := by
  simp [getSession, saveSession]

theorem getSession_saveSession_of_ne {k k' : S} (hne : P.toLowerCase k' ≠ P.toLowerCase k)
    (s : SessionRecord B S) : (st.saveSession P k s).getSession P k' = st.getSession P k' := by
  simp [getSession, saveSession, Function.update_of_ne hne]

@[simp] theorem getOneTimePreKey_saveSession (k : S) (s : SessionRecord B S) (keyId : Int) :
    (st.saveSession P k s).getOneTimePreKey keyId = st.getOneTimePreKey keyId := rfl

@[simp] theorem getLatestSignedPreKey_saveSession (k : S) (s : SessionRecord B S) :
    (st.saveSession P k s).getLatestSignedPreKey = st.getLatestSignedPreKey := rfl

@[simp] theorem identity_saveSession (k : S) (s : SessionRecord B S) :
    (st.saveSession P k s).identity = st.identity := rfl

omit [DecidableEq S] in
@[simp] theorem getSession_removeOneTimePreKey (keyId : Int) (k : S) :
    (st.removeOneTimePreKey keyId).getSession P k = st.getSession P k := rfl

omit [DecidableEq S] in
@[simp] theorem getOneTimePreKey_removeOneTimePreKey (keyId : Int) :
    (st.removeOneTimePreKey keyId).getOneTimePreKey keyId = none :=
  Rows.lookup_erase_self _ _ _

end SignalStore

end TorE2EE.Crypto
