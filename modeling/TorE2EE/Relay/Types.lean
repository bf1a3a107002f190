import Mathlib.Algebra.Group.Nat.Defs
import Mathlib.Tactic.Common

/-!
# Data of the relay

The records of `db.rs`, `config.rs`, `handlers/message.rs` and `handlers/ws.rs`. Timestamps are
`i64` seconds. A `Copy` is a `QueuedMessage` together with the number of the request it was made
from; the number is not part of the program.
-/

set_option autoImplicit false

namespace TorE2EE.Relay

/-- The options of `Config` the handlers read. -/
structure Config where
  maxPayloadBytes : Nat
  ttlSeconds : Int

/-- `QueuedMessage`. -/
structure QueuedMessage where
  id : Int
  recipientPubkeyHash : String
  encryptedPayload : String
  nonce : String
  createdAt : Int
  expiresAt : Int
  deriving DecidableEq

/-- A message and the number of the request it was made from. -/
structure Copy where
  origin : Nat
  message : QueuedMessage
  deriving DecidableEq

/-- `SendMessageRequest`. -/
structure SendMessageRequest where
  recipientPubkeyHash : String
  encryptedPayload : String
  nonce : String
  deriving DecidableEq

/-- `SendMessageResponse`. -/
structure SendMessageResponse where
  status : String
  deliveredLive : Bool
  deriving DecidableEq

/-- `ErrorResponse`. -/
structure ErrorResponse where
  error : String
  deriving DecidableEq

/-- The status codes of refused requests. -/
inductive StatusCode where
  | badRequest
  | internalServerError
  deriving DecidableEq

/-- `ServerWsMessage`. -/
inductive ServerWsMessage where
  | challenge (challenge : String)
  | authenticated (recipientPubkeyHash : String)
  | messagePayload (encryptedPayload nonce : String) (createdAt : Int)
  | pong
  | error (message : String)
  deriving DecidableEq

/-- `ClientWsMessage`. -/
inductive ClientWsMessage where
  | auth (publicKey signature : String)
  | ping
  deriving DecidableEq

/-- The frame a session writes for a message. -/
def QueuedMessage.outgoing (m : QueuedMessage) : ServerWsMessage :=
  .messagePayload m.encryptedPayload m.nonce m.createdAt

/-- The frames that carry a message. -/
def ServerWsMessage.isPayload : ServerWsMessage → Bool
  | messagePayload _ _ _ => true
  | _ => false

@[simp] theorem QueuedMessage.isPayload_outgoing (m : QueuedMessage) :
    m.outgoing.isPayload = true := rfl

/-- Addition of two `i64` values, which wraps around. -/
def addI64 (a b : Int) : Int := (a + b).bmod (2 ^ 64)

end TorE2EE.Relay
