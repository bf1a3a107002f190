import TorE2EE.Foundation.Machine
import TorE2EE.Relay.Database
import TorE2EE.Relay.Session

/-!
# The relay

The server as a machine: the clock, the messages table, the peer map of `AppState`, the stream
sessions and the `handle_send_message` calls, each cut open at every `await`. `Relay.step` takes one
action of any of them, so a run is an interleaving of any number of senders, sessions and cleanups.

`placements` is the order in which requests were placed in the table or in channels; it is not read
by the program.
-/

set_option autoImplicit false
set_option linter.dupNamespace false

namespace TorE2EE.Relay

open TorE2EE.Foundation

/-! ## State -/

/-- Where a `handle_send_message` call stands. -/
inductive RequestPhase where
  /-- The message is to be dispatched to live listeners. -/
  | dispatching (queuedMsg : QueuedMessage)
  /-- Nobody listened, and the message is to be inserted. -/
  | enqueueing
  /-- The call answered `accepted`; the message it placed expires at `expiresAt`. -/
  | accepted (response : SendMessageResponse) (expiresAt : Int)
  | refused (code : StatusCode) (response : ErrorResponse)
  /-- The caller went away before the message was placed. -/
  | dropped
  deriving DecidableEq

/-- A `handle_send_message` call. -/
structure Request where
  payload : SendMessageRequest
  phase : RequestPhase

/-- The relay. Sessions and requests are known by their numbers, and a sender in the peer map by the
number of its session. -/
structure Relay (A : AuthLibrary) where
  config : Config
  clock : Int
  db : Database
  activePeers : String → Option (List Nat)
  sessions : List (Session A)
  requests : List Request
  placements : List Nat

/-- What may happen next. `ok` says whether a database call or a socket write succeeds. -/
inductive Action where
  | tick (seconds : Nat)
  | sendMessage (payload : SendMessageRequest)
  | dispatch (i : Nat)
  | enqueue (i : Nat) (ok : Bool)
  | dropRequest (i : Nat)
  | cleanup (ok : Bool)
  | connect (challenge : List UInt8)
  | fetch (i : Nat) (ok : Bool)
  | subscribe (i : Nat)
  | closeChannel (i : Nat)
  | session (i : Nat) (a : SessionAction)
  deriving DecidableEq

variable {A : AuthLibrary}

/-- `main` with a configuration, at the time `clock`. -/
def Relay.init (config : Config) (clock : Int) : Relay A :=
  { config, clock, db := .empty, activePeers := fun _ => none, sessions := [], requests := []
    placements := [] }

/-! ## Live delivery -/

/-- A message put into the channel of a session. -/
def Session.push (s : Session A) (c : Copy) : Session A :=
  match s.phase with
  | .streaming login inHand channel receiveEnded =>
      s.moved (.streaming login inHand (channel ++ [c]) receiveEnded)
  | _ => s

/-- The receiving end of the channel of session `tx` exists. -/
def isOpen (sessions : List (Session A)) (tx : Nat) : Bool :=
  (sessions[tx]?.map fun s => s.phase.receiving).getD false

/-- `senders.retain(|tx| tx.send(msg.clone()).is_ok())`: the senders kept, and the sessions with the
message in their channels. -/
def retainSending (c : Copy) : List Nat → List (Session A) → List Nat × List (Session A)
  | [], sessions => ([], sessions)
  | tx :: senders, sessions =>
      if isOpen sessions tx then
        let r := retainSending c senders (sessions.modify tx fun s => s.push c)
        (tx :: r.1, r.2)
      else retainSending c senders sessions

/-- `subscribe_peer`. -/
def subscribePeer (activePeers : String → Option (List Nat)) (recipientPubkeyHash : String)
    (tx : Nat) : String → Option (List Nat) :=
  Function.update activePeers recipientPubkeyHash
    (some ((activePeers recipientPubkeyHash).getD [] ++ [tx]))

/-- `dispatch_live`: whether somebody received the message, the peer map and the sessions. -/
def dispatchLive (activePeers : String → Option (List Nat)) (sessions : List (Session A))
    (c : Copy) : Bool × (String → Option (List Nat)) × List (Session A) :=
  match activePeers c.message.recipientPubkeyHash with
  | none => (false, activePeers, sessions)
  | some senders =>
      let r := retainSending c senders sessions
      if r.1.isEmpty then
        (false, Function.update activePeers c.message.recipientPubkeyHash none, r.2)
      else (true, Function.update activePeers c.message.recipientPubkeyHash (some r.1), r.2)

/-! ## Requests -/

/-- The checks of `handle_send_message`. -/
def validate (config : Config) (payload : SendMessageRequest) :
    Except (StatusCode × ErrorResponse) Unit :=
  if payload.recipientPubkeyHash.utf8ByteSize ≠ 64 ∨
      ¬ payload.recipientPubkeyHash.toList.all isAsciiHexdigit then
    .error (.badRequest,
      { error := "Invalid recipient_pubkey_hash: must be 64-char hex SHA256" })
  else if payload.encryptedPayload.isEmpty ∨
      config.maxPayloadBytes < payload.encryptedPayload.utf8ByteSize then
    .error (.badRequest,
      { error := "Payload size exceeds maximum allowed of " ++ toString config.maxPayloadBytes ++
          " bytes" })
  else if payload.nonce.isEmpty ∨ 256 < payload.nonce.utf8ByteSize then
    .error (.badRequest, { error := "Invalid nonce length" })
  else .ok ()

/-- The `queued_msg` of `handle_send_message` at the time `now`. -/
def queuedMsg (config : Config) (payload : SendMessageRequest) (now : Int) : QueuedMessage :=
  { id := 0
    recipientPubkeyHash := payload.recipientPubkeyHash
    encryptedPayload := payload.encryptedPayload
    nonce := payload.nonce
    createdAt := now
    expiresAt := addI64 now config.ttlSeconds }

/-- The first part of `handle_send_message`, up to the first `await`. -/
def acceptMessage (config : Config) (payload : SendMessageRequest) (now : Int) : Request :=
  match validate config payload with
  | .error e => { payload, phase := .refused e.1 e.2 }
  | .ok _ => { payload, phase := .dispatching (queuedMsg config payload now) }

/-- The answer `accepted`. -/
def acceptedResponse (deliveredLive : Bool) : SendMessageResponse :=
  { status := "accepted", deliveredLive }

namespace Relay

variable (r : Relay A)

/-- The call `i` in its next phase. -/
def withRequest (i : Nat) (q : Request) (phase : RequestPhase) : Relay A :=
  { r with requests := r.requests.set i { q with phase } }

/-- The session `i` in its next state. -/
def withSession (i : Nat) (s : Session A) : Relay A := { r with sessions := r.sessions.set i s }

/-- `dispatch_live` in the call `i` of `handle_send_message`. -/
def dispatching (i : Nat) (q : Request) (msg : QueuedMessage) : Relay A :=
  let d := dispatchLive r.activePeers r.sessions { origin := i, message := msg }
  let r' : Relay A := { r with activePeers := d.2.1, sessions := d.2.2 }
  if d.1 then
    { r'.withRequest i q (.accepted (acceptedResponse true) msg.expiresAt) with
      placements := r.placements ++ [i] }
  else r'.withRequest i q .enqueueing

/-- `enqueue_message` in the call `i` of `handle_send_message`. -/
def enqueueing (i : Nat) (q : Request) : Relay A :=
  let e := r.db.enqueueMessage i q.payload.recipientPubkeyHash q.payload.encryptedPayload
    q.payload.nonce r.config.ttlSeconds r.clock
  { r.withRequest i q (.accepted (acceptedResponse false) e.2.message.expiresAt) with
    db := e.1
    placements := r.placements ++ [i] }

/-- `fetch_and_delete_messages` in the session `i`. -/
def fetching (i : Nat) (s : Session A) (login : Login A s.challenge) : Relay A :=
  let f := r.db.fetchAndDeleteMessages login.hash
  { r.withSession i (s.moved (.draining login f.1)) with db := f.2 }

/-- `subscribe_peer` in the session `i`, whose two tasks start. -/
def subscribing (i : Nat) (s : Session A) (login : Login A s.challenge) : Relay A :=
  { r.withSession i (s.moved (.streaming login none [] false)) with
    activePeers := subscribePeer r.activePeers login.hash i }

/-- One step of the server. -/
def step : Action → Option (Relay A)
  | .tick seconds => some { r with clock := r.clock + seconds }
  | .sendMessage payload =>
      some { r with requests := r.requests ++ [acceptMessage r.config payload r.clock] }
  | .dispatch i =>
      match r.requests[i]? with
      | none => none
      | some q =>
          match q.phase with
          | .dispatching msg => some (r.dispatching i q msg)
          | _ => none
  | .enqueue i ok =>
      match r.requests[i]? with
      | none => none
      | some q =>
          match q.phase with
          | .enqueueing =>
              some (if ok then r.enqueueing i q
                else r.withRequest i q
                  (.refused .internalServerError { error := "Failed to queue message" }))
          | _ => none
  | .dropRequest i =>
      match r.requests[i]? with
      | none => none
      | some q =>
          match q.phase with
          | .dispatching _ => some (r.withRequest i q .dropped)
          | .enqueueing => some (r.withRequest i q .dropped)
          | _ => none
  | .cleanup ok =>
      some (if ok then { r with db := r.db.cleanupExpiredMessages r.clock } else r)
  | .connect challenge =>
      if challenge.length = 32 then some { r with sessions := r.sessions ++ [.new challenge] }
      else none
  | .fetch i ok =>
      match r.sessions[i]? with
      | none => none
      | some s =>
          match s.phase with
          | .confirmed login =>
              -- a failed fetch is passed over, and the session goes live
              some (if ok then r.fetching i s login
                else r.withSession i (s.moved (.draining login [])))
          | _ => none
  | .subscribe i =>
      match r.sessions[i]? with
      | none => none
      | some s =>
          match s.phase with
          | .draining login [] => some (r.subscribing i s login)
          | _ => none
  | .closeChannel i =>
      match r.sessions[i]? with
      | none => none
      | some s =>
          match s.phase with
          | .streaming login none [] _ =>
              -- `recv` returns nothing once every sender of the channel is gone
              if ((r.activePeers login.hash).getD []).contains i then none
              else some (r.withSession i (s.moved (.ended (some login))))
          | _ => none
  | .session i a =>
      match r.sessions[i]? with
      | none => none
      | some s => (s.step a).map (r.withSession i)

end Relay

/-! ## What a step does -/

/-- Everything a step can do, with the conditions it is taken under. -/
inductive Step (r : Relay A) : Action → Relay A → Prop where
  | tick (seconds : Nat) : Step r (.tick seconds) { r with clock := r.clock + seconds }
  | sendMessage (payload : SendMessageRequest) :
      Step r (.sendMessage payload)
        { r with requests := r.requests ++ [acceptMessage r.config payload r.clock] }
  | dispatch {i : Nat} {q : Request} {msg : QueuedMessage} : r.requests[i]? = some q →
      q.phase = .dispatching msg → Step r (.dispatch i) (r.dispatching i q msg)
  | enqueue {i : Nat} {q : Request} : r.requests[i]? = some q → q.phase = .enqueueing →
      Step r (.enqueue i true) (r.enqueueing i q)
  | enqueueFailed {i : Nat} {q : Request} : r.requests[i]? = some q → q.phase = .enqueueing →
      Step r (.enqueue i false) (r.withRequest i q
        (.refused .internalServerError { error := "Failed to queue message" }))
  | dropRequest {i : Nat} {q : Request} : r.requests[i]? = some q →
      (∀ response expiresAt, q.phase ≠ .accepted response expiresAt) →
      Step r (.dropRequest i) (r.withRequest i q .dropped)
  | cleanup : Step r (.cleanup true) { r with db := r.db.cleanupExpiredMessages r.clock }
  | cleanupFailed : Step r (.cleanup false) r
  | connect {challenge : List UInt8} : challenge.length = 32 →
      Step r (.connect challenge) { r with sessions := r.sessions ++ [.new challenge] }
  | fetch {i : Nat} {s : Session A} {login : Login A s.challenge} : r.sessions[i]? = some s →
      s.phase = .confirmed login → Step r (.fetch i true) (r.fetching i s login)
  | fetchFailed {i : Nat} {s : Session A} {login : Login A s.challenge} :
      r.sessions[i]? = some s → s.phase = .confirmed login →
      Step r (.fetch i false) (r.withSession i (s.moved (.draining login [])))
  | subscribe {i : Nat} {s : Session A} {login : Login A s.challenge} : r.sessions[i]? = some s →
      s.phase = .draining login [] → Step r (.subscribe i) (r.subscribing i s login)
  | closeChannel {i : Nat} {s : Session A} {login : Login A s.challenge} {receiveEnded : Bool} :
      r.sessions[i]? = some s → s.phase = .streaming login none [] receiveEnded →
      i ∉ (r.activePeers login.hash).getD [] →
      Step r (.closeChannel i) (r.withSession i (s.moved (.ended (some login))))
  | session {i : Nat} {s s' : Session A} {a : SessionAction} : r.sessions[i]? = some s →
      s.step a = some s' → Step r (.session i a) (r.withSession i s')

theorem step_of_eq {r r' : Relay A} {a : Action} (h : r.step a = some r') : Step r a r' := by
  -- One case an action: the guard of its branch is the premise of the rule.
  cases a with
  | tick seconds =>
      cases h
      exact .tick seconds
  | sendMessage payload =>
      cases h
      exact .sendMessage payload
  | dispatch i =>
      simp only [Relay.step] at h
      split at h
      · cases h
      · rename_i q hq
        split at h
        · rename_i msg hphase
          cases h
          exact .dispatch hq hphase
        · cases h
  | enqueue i ok =>
      simp only [Relay.step] at h
      split at h
      · cases h
      · rename_i q hq
        split at h
        · rename_i hphase
          cases h
          cases ok with
          | true => exact .enqueue hq hphase
          | false => exact .enqueueFailed hq hphase
        · cases h
  | dropRequest i =>
      simp only [Relay.step] at h
      split at h
      · cases h
      · rename_i q hq
        split at h
        · rename_i hphase
          cases h
          -- Dropped before it was dispatched, or with the queue still to come.
          exact .dropRequest hq fun _ _ hacc => by rw [hacc] at hphase; cases hphase
        · rename_i hphase
          cases h
          exact .dropRequest hq fun _ _ hacc => by rw [hacc] at hphase; cases hphase
        · cases h
  | cleanup ok =>
      cases ok with
      | true =>
          cases h
          exact .cleanup
      | false =>
          cases h
          exact .cleanupFailed
  | connect challenge =>
      simp only [Relay.step] at h
      split at h
      · rename_i hlen
        cases h
        exact .connect hlen
      · cases h
  | fetch i ok =>
      simp only [Relay.step] at h
      split at h
      · cases h
      · rename_i s hs
        split at h
        · rename_i login hphase
          cases h
          cases ok with
          | true => exact .fetch hs hphase
          | false => exact .fetchFailed hs hphase
        · cases h
  | subscribe i =>
      simp only [Relay.step] at h
      split at h
      · cases h
      · rename_i s hs
        split at h
        · rename_i login hphase
          cases h
          exact .subscribe hs hphase
        · cases h
  | closeChannel i =>
      simp only [Relay.step] at h
      split at h
      · cases h
      · rename_i s hs
        split at h
        · rename_i login receiveEnded hphase
          split at h
          · cases h
          · rename_i hgone
            cases h
            rw [List.contains_iff_mem] at hgone
            exact .closeChannel hs hphase hgone
        · cases h
  | session i a =>
      simp only [Relay.step] at h
      split at h
      · cases h
      · rename_i s hs
        obtain ⟨s', hstep, rfl⟩ := Option.map_eq_some_iff.1 h
        exact .session hs hstep

end TorE2EE.Relay
