import TorE2EE.Client.Framing
import TorE2EE.Client.Methods
import TorE2EE.Foundation.Machine

/-!
# The stream client

`TorWebSocketClient` as a machine. `connect()` is cut open at every `await`: an `Attempt` is one call
that got past the guard, with the socket it asked for. The attempts, the reconnect timers and the
ping intervals live in a `Process` beside the object itself, and `step` takes one event of any of
them, so a run is any order of calls of the owner, socket events, timer firings and promise
resolutions.

A callback hands control to the owner, who may call `connect`, `disconnect` and `sendJson` before it
returns. What the interrupted methods still have to do is the call stack, a list of `Pending`, with
the running code on top. Callbacks return normally.

`ended` remembers how much had been sent when `disconnect()` last ran, until the owner calls
`connect()` again. It is not read by the program.
-/

set_option autoImplicit false

namespace TorE2EE.Client.Stream

open TorE2EE.Foundation TorE2EE.Crypto

variable {B S : Type}

/-! ## State -/

/-- `WsClientState`. -/
inductive WsClientState where
  | disconnected
  | connecting
  | awaitingChallenge
  | authenticating
  | connectedAuthenticated
  | reconnecting
  | closed
  deriving DecidableEq

/-- What `onError` is called with. -/
inductive StreamError (S : Type) where
  /-- The error with which a socket was not opened. -/
  | notOpened
  /-- `WebSocket upgrade rejected`, with the header of the response. -/
  | upgradeRejected (headerString : S)
  /-- The error of `signChallenge`. -/
  | challenge
  /-- `Server error`, with the message of the server. -/
  | server (message : Option (Json S))
  /-- The error of an open socket. -/
  | socket

/-- A call of one of the owner's callbacks. -/
inductive Callback (S : Type) where
  | onStateChange (newState : WsClientState)
  | onAuthenticated (recipientPubkeyHash : Option (Json S))
  | onMessage (encryptedPayload nonce createdAt : Option (Json S))
  | onError (error : StreamError S)
  | onDisconnect

/-- Where a call of `connect` stands. -/
inductive Phase (S : Type) where
  /-- It awaits the connection. -/
  | opening
  /-- It has been given the socket and is to go on. -/
  | opened
  /-- It awaits the response to the upgrade request, of which some bytes have arrived. -/
  | upgrading (rawBytes : List UInt8)
  /-- The upgrade was accepted, with bytes left over, and it is to go on. -/
  | upgraded (leftover : List UInt8)
  /-- It is to go on with an error. -/
  | failed (error : StreamError S)
  /-- There is nothing to await any more. -/
  | settled

/-- A call of `connect` with its socket. `handlers` counts how often the listeners of
`setupSocketHandlers` were added to it; the handshake listener is there while the phase is
`upgrading`. The socket is `closed` when its `close` event has been emitted. -/
structure Attempt (S : Type) where
  phase : Phase S
  destroyed : Bool
  closed : Bool
  handlers : Nat

/-- What a method still has to do. -/
inductive Pending (S : Type) where
  /-- A callback of the owner is running. -/
  | callback (c : Callback S)
  /-- The `try` block of `connect`. -/
  | openConnection
  /-- `connect` after `AWAITING_CHALLENGE` has been set. -/
  | startStream (attempt : Nat) (leftover : List UInt8)
  /-- The end of `connect`. -/
  | resetAttempts
  /-- The loop of `handleRawData`. -/
  | frames
  /-- `handleServerChallenge` after `AUTHENTICATING` has been set. -/
  | answer (challenge : Option (Json S))
  /-- An `authenticated` message after `CONNECTED_AUTHENTICATED` has been set. -/
  | keepAlive (recipientPubkeyHash : Option (Json S))
  /-- The end of `handleConnectionFailure` and of the `close` listener. -/
  | reconnectOrStop
  /-- `scheduleReconnect` after `RECONNECTING` has been set. -/
  | armTimer
  /-- The `data` listener is to be called. -/
  | onData (attempt : Nat) (chunk : List UInt8)
  /-- The `close` listener is to be called. -/
  | onClose
  /-- The `error` listener is to be called. -/
  | onError

/-- What is written to a socket. -/
inductive Outgoing (S : Type) where
  | upgradeRequest
  /-- `sendJson(data)`. -/
  | text (data : Json S)
  | pong (payload : List UInt8)

/-- The object. A byte in the buffer is known with the attempt on whose socket it came. -/
structure TorWebSocketClient where
  state : WsClientState
  socket : Option Nat
  autoReconnect : Bool
  reconnectAttempts : Nat
  reconnectTimer : Option Nat
  pingIntervalTimer : Option Nat
  buffer : List (Nat × UInt8)

/-- The object and what can call back into it. Attempts and timers are known by their numbers. -/
structure Process (S : Type) where
  client : TorWebSocketClient
  attempts : Nat → Attempt S
  count : Nat
  timers : List Nat
  intervals : List Nat
  created : Nat
  stack : List (Pending S)
  sent : List (Nat × Outgoing S)
  ended : Option Nat

/-- What may happen next. -/
inductive Event (S : Type) where
  | connect
  | disconnect
  | sendJson (data : Json S)
  /-- The running callback returns. -/
  | returned
  /-- The code on top of the call stack goes on. -/
  | run
  | opened (attempt : Nat)
  | openFailed (attempt : Nat)
  | resume (attempt : Nat)
  | data (attempt : Nat) (chunk : List UInt8)
  | error (attempt : Nat)
  | close (attempt : Nat)
  | reconnect (timer : Nat)
  | ping (timer : Nat)

/-- An attempt that was not made. -/
def Attempt.none : Attempt S :=
  { phase := .settled, destroyed := true, closed := true, handlers := 0 }

/-- The socket is destroyed after its listeners have been removed. -/
@[simps] def Attempt.discard (x : Attempt S) : Attempt S := { x with destroyed := true, handlers := 0 }

/-- A new client. -/
def Process.start : Process S :=
  { client :=
      { state := .disconnected, socket := none, autoReconnect := true, reconnectAttempts := 0
        reconnectTimer := none, pingIntervalTimer := none, buffer := [] }
    attempts := fun _ => .none
    count := 0
    timers := []
    intervals := []
    created := 0
    stack := []
    sent := []
    ended := none }

/-! ## Parts of the methods -/

namespace Process

/-- A call on top of the call stack. -/
@[simps] def push (w : Process S) (p : Pending S) : Process S := { w with stack := p :: w.stack }

/-- `setState`. -/
@[simps] def setState (w : Process S) (newState : WsClientState) : Process S :=
  { w with
    client := { w.client with state := newState }
    stack := .callback (.onStateChange newState) :: w.stack }

/-- Another state of one attempt. -/
@[simps] def setAttempt (w : Process S) (a : Nat) (x : Attempt S) : Process S :=
  { w with attempts := Function.update w.attempts a x }

/-- `cleanupTimers`. -/
@[simps] def cleanupTimers (w : Process S) : Process S :=
  { w with
    client := { w.client with pingIntervalTimer := none, reconnectTimer := none }
    timers := w.timers.filter fun t => w.client.reconnectTimer ≠ some t
    intervals := w.intervals.filter fun t => w.client.pingIntervalTimer ≠ some t }

/-- `cleanupSocket`. -/
@[simps] def cleanupSocket (w : Process S) : Process S :=
  { w with
    client := { w.client with socket := none, buffer := [] }
    attempts := fun a =>
      if w.client.socket = some a then (w.attempts a).discard else w.attempts a }

/-- `disconnect`. -/
def disconnect (w : Process S) : Process S :=
  (cleanupSocket (cleanupTimers
    { w with
      client := { w.client with autoReconnect := false }
      ended := some w.sent.length })).setState .closed

/-- `connect`, as far as the first callback. -/
def connect (w : Process S) : Process S :=
  if w.client.state = .connecting ∨ w.client.state = .connectedAuthenticated then w
  else
    (push { w with client := { w.client with autoReconnect := true } } .openConnection).setState
      .connecting

/-- A write to the socket, which a destroyed one drops. -/
def write (w : Process S) (out : Outgoing S) : Process S :=
  match w.client.socket with
  | none => w
  | some a => if (w.attempts a).destroyed then w else { w with sent := w.sent ++ [(a, out)] }

/-- `setupSocketHandlers`. -/
def setupSocketHandlers (w : Process S) : Process S :=
  match w.client.socket with
  | none => w
  | some a => w.setAttempt a { w.attempts a with handlers := (w.attempts a).handlers + 1 }

/-- `handleRawData`, as far as its loop. -/
def handleRawData (w : Process S) (a : Nat) (chunk : List UInt8) : Process S :=
  push { w with client := { w.client with buffer := w.client.buffer ++ chunk.map fun b => (a, b) } }
    .frames

/-- `handleConnectionFailure`. -/
def handleConnectionFailure (w : Process S) (error : StreamError S) : Process S :=
  (w.push .reconnectOrStop).push (.callback (.onError error))

/-- `startPingKeepAlive`. -/
def startPingKeepAlive (w : Process S) : Process S :=
  let w := w.cleanupTimers
  { w with
    client := { w.client with pingIntervalTimer := some w.created }
    intervals := w.created :: w.intervals
    created := w.created + 1 }

end Process

/-! ## Messages of the server -/

section Messages

variable [DecidableEq S] (P : Primitives B S) (L : ClientLibrary B S) (identity : UserIdentity B S)
  (utf8 : List UInt8 → S)

/-- The `auth` message. -/
def authReply (signatureHex : S) : Json S :=
  .object [(P.lit "type", .string (P.lit "auth")),
    (P.lit "public_key", .string identity.signingKey.publicKeyHex),
    (P.lit "signature", .string signatureHex)]

/-- `handleTextMessage`, as far as the first callback. What it throws is caught. -/
def handleTextMessage (w : Process S) (text : S) : Process S :=
  match L.parseJson text with
  | none => w
  | some msg =>
      let field (name : String) : Option (Json S) := property P name msg
      if Json.string? (field "type") = some (P.lit "challenge") then
        (w.push (.answer (field "challenge"))).setState .authenticating
      else if Json.string? (field "type") = some (P.lit "authenticated") then
        (w.push (.keepAlive (field "recipient_pubkey_hash"))).setState .connectedAuthenticated
      else if Json.string? (field "type") = some (P.lit "message") then
        w.push (.callback
          (.onMessage (field "encrypted_payload") (field "nonce") (field "created_at")))
      else if Json.string? (field "type") = some (P.lit "error") then
        w.push (.callback (.onError (.server (field "message"))))
      else w

/-- `processFrame`. -/
def processFrame (w : Process S) (opcode : UInt8) (payload : List UInt8) : Process S :=
  if opcode = 0x01 then handleTextMessage P L w (utf8 payload)
  else if opcode = 0x08 then w.disconnect
  else if opcode = 0x09 then w.write (.pong payload)
  else w

/-- The rest of `handleServerChallenge`. A challenge that is no string is not signed. -/
def answerChallenge (w : Process S) (challenge : Option (Json S)) : Process S :=
  match (Json.string? challenge).map fun challengeHex =>
    signChallenge P challengeHex identity.signingKey.secretKey with
  | some (.ok signatureHex) => w.write (.text (authReply P identity signatureHex))
  | _ => w.handleConnectionFailure .challenge

/-! ## Steps -/

/-- The code on top of the call stack goes on, as far as the next callback or call. -/
def runPending (w : Process S) : Pending S → Option (Process S)
  | .callback _ => none
  | .openConnection =>
      some
        { w.setAttempt w.count { phase := .opening, destroyed := false, closed := false, handlers := 0 }
          with count := w.count + 1 }
  | .startStream a leftover =>
      let w := w.setupSocketHandlers.push .resetAttempts
      some (if leftover = [] then w else w.handleRawData a leftover)
  | .resetAttempts => some { w with client := { w.client with reconnectAttempts := 0 } }
  | .frames =>
      match nextFrame (w.client.buffer.map Prod.snd) with
      | none => some w
      | some ((opcode, payload), n) =>
          some (processFrame P L utf8
            (Process.push { w with client := { w.client with buffer := w.client.buffer.drop n } }
              .frames)
            opcode payload)
  | .answer challenge => some (answerChallenge P identity w challenge)
  | .keepAlive recipientPubkeyHash =>
      some (w.startPingKeepAlive.push (.callback (.onAuthenticated recipientPubkeyHash)))
  | .reconnectOrStop =>
      some (if w.client.autoReconnect then (w.push .armTimer).setState .reconnecting
        else w.setState .disconnected)
  | .armTimer =>
      let w := w.cleanupSocket
      some
        { w with
          client :=
            { w.client with
              reconnectAttempts := w.client.reconnectAttempts + 1
              reconnectTimer := some w.created }
          timers := w.created :: w.timers
          created := w.created + 1 }
  | .onData a chunk => some (w.handleRawData a chunk)
  | .onClose =>
      let w := w.cleanupTimers
      some (if w.client.state = .closed ∨ w.client.state = .disconnected then w
        else (w.push .reconnectOrStop).push (.callback .onDisconnect))
  | .onError => some (w.push (.callback (.onError .socket)))

/-! ## Events -/

/-- The bytes of a text of ASCII characters. -/
def asciiBytes (text : List Char) : List UInt8 := text.map fun c => c.toNat.toUInt8

/-- `rawBytes.indexOf('\r\n\r\n')`. -/
def indexOfHeaderEnd (rawBytes : List UInt8) : Option Nat :=
  rawBytes.tails.findIdx? fun rest => (asciiBytes ['\r', '\n', '\r', '\n']).isPrefixOf rest

/-- `onHandshakeData`: where `connect` stands after a chunk. -/
def onHandshakeData (chunk : List UInt8) : Phase S → Phase S
  | .upgrading rawBytes =>
      let rawBytes := rawBytes ++ chunk
      match indexOfHeaderEnd rawBytes with
      | none => .upgrading rawBytes
      | some headerEnd =>
          let header := rawBytes.take headerEnd
          if (asciiBytes ['H', 'T', 'T', 'P', '/', '1', '.', '1', ' ', '1', '0', '1']).isPrefixOf header
          then .upgraded (rawBytes.drop (headerEnd + 4))
          else .failed (.upgradeRejected (utf8 header))
  | phase => phase

/-- Where `connect` stands after the error of a socket. -/
def onSocketError : Phase S → Phase S
  | .opening => .failed .notOpened
  | phase => phase

/-- `connect` goes on with what it awaited. -/
def resumeConnect (w : Process S) (a : Nat) : Option (Process S) :=
  match (w.attempts a).phase with
  | .opened =>
      some (Process.write
        { w.setAttempt a { w.attempts a with phase := .upgrading [] } with
          client := { w.client with socket := some a } } .upgradeRequest)
  | .upgraded leftover =>
      some (((w.setAttempt a { w.attempts a with phase := .settled }).push
        (.startStream a leftover)).setState .awaitingChallenge)
  | .failed error =>
      some ((w.setAttempt a { w.attempts a with phase := .settled }).handleConnectionFailure error)
  | _ => none

/-- What an event of a socket, a timer or a promise does. -/
def occur (w : Process S) : Event S → Option (Process S)
  | .opened a =>
      match (w.attempts a).phase with
      | .opening =>
          if (w.attempts a).destroyed then none
          else some (w.setAttempt a { w.attempts a with phase := .opened })
      | _ => none
  | .openFailed a =>
      match (w.attempts a).phase with
      | .opening =>
          some (w.setAttempt a { w.attempts a with phase := .failed .notOpened, destroyed := true })
      | _ => none
  | .resume a => resumeConnect w a
  | .data a chunk =>
      if (w.attempts a).destroyed then none
      else
        some
          { w.setAttempt a
              { w.attempts a with phase := onHandshakeData utf8 chunk (w.attempts a).phase } with
            stack := List.replicate (w.attempts a).handlers (.onData a chunk) }
  | .error a =>
      if (w.attempts a).destroyed then none
      else
        some
          { w.setAttempt a
              { w.attempts a with phase := onSocketError (w.attempts a).phase, destroyed := true } with
            stack := List.replicate (w.attempts a).handlers .onError }
  | .close a =>
      if (w.attempts a).closed then none
      else
        some
          { w.setAttempt a { w.attempts a with destroyed := true, closed := true } with
            stack := List.replicate (w.attempts a).handlers .onClose }
  | .reconnect t =>
      if t ∈ w.timers then some (Process.connect { w with timers := w.timers.erase t }) else none
  | .ping t =>
      if t ∈ w.intervals then
        some (w.write (.text (.object [(P.lit "type", .string (P.lit "ping"))])))
      else none
  | _ => none

/-- No code is running, or one of the owner's callbacks is. -/
def Process.ownersTurn (w : Process S) : Bool :=
  match w.stack with
  | [] => true
  | .callback _ :: _ => true
  | _ => false

/-- One event. -/
def step (w : Process S) (e : Event S) : Option (Process S) :=
  match e with
  | .connect => if w.ownersTurn then some (Process.connect { w with ended := none }) else none
  | .disconnect => if w.ownersTurn then some w.disconnect else none
  | .sendJson data => if w.ownersTurn then some (w.write (.text data)) else none
  | .returned =>
      match w.stack with
      | .callback _ :: rest => some { w with stack := rest }
      | _ => none
  | .run =>
      match w.stack with
      | p :: rest => runPending P L identity utf8 { w with stack := rest } p
      | [] => none
  | e =>
      match w.stack with
      | [] => occur P utf8 w e
      | _ => none

end Messages

end TorE2EE.Client.Stream
