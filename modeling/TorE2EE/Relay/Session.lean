import TorE2EE.Relay.Auth

/-!
# Stream sessions

`handle_ws_session`, cut open at every `await`. The phases carry what the session holds at that
point: the login once the signature was verified, the drained messages not yet written, and for a
live session the message its send task is writing and the ones waiting in its channel.

The socket may fail at any write, and the client may go away at any time. `output` is every frame
written, `delivered` the messages written; neither is read by the program.
-/

set_option autoImplicit false

namespace TorE2EE.Relay

/-- Where a session stands. -/
inductive Phase (A : AuthLibrary) (challenge : List UInt8) where
  /-- The challenge is to be sent. -/
  | connected
  | awaitingAuth
  /-- The error is to be sent, and the session returns. -/
  | refusing (message : String)
  /-- The confirmation is to be sent. -/
  | verified (login : Login A challenge)
  /-- The queued messages are to be fetched. -/
  | confirmed (login : Login A challenge)
  | draining (login : Login A challenge) (queued : List Copy)
  /-- The send task runs, with a message in hand and a channel; the receive task may have ended, and
  then the send task is about to be aborted. -/
  | streaming (login : Login A challenge) (inHand : Option Copy) (channel : List Copy)
      (receiveEnded : Bool)
  | ended (login : Option (Login A challenge))

/-- A stream session. -/
structure Session (A : AuthLibrary) where
  challenge : List UInt8
  phase : Phase A challenge
  output : List ServerWsMessage
  delivered : List Copy

/-- What `socket.next()` yields while the answer to the challenge is awaited. -/
inductive AuthReply where
  /-- A text frame, with what it parses to. -/
  | text (message : Option ClientWsMessage)
  /-- A frame of another kind, an error, the end of the stream, or the timeout. -/
  | other
  deriving DecidableEq

/-- What `ws_receiver.next()` yields to the receive task. -/
inductive Incoming where
  | text (message : Option ClientWsMessage)
  | close
  | other
  /-- An error or the end of the stream. -/
  | lost
  deriving DecidableEq

/-- A step of a session that concerns nobody else. `ok` says whether the socket took the frame. -/
inductive SessionAction where
  | sendChallenge (ok : Bool)
  | receiveAuth (reply : AuthReply)
  | sendError (ok : Bool)
  | sendAuthenticated (ok : Bool)
  | sendQueued (ok : Bool)
  | takeFromChannel
  | sendLive (ok : Bool)
  | receive (frame : Incoming)
  | abortSendTask
  deriving DecidableEq

variable {A : AuthLibrary}

namespace Phase

variable {challenge : List UInt8}

/-- The login of a session whose signature was verified. -/
def login : Phase A challenge → Option (Login A challenge)
  | connected => none
  | awaitingAuth => none
  | refusing _ => none
  | verified l => some l
  | confirmed l => some l
  | draining l _ => some l
  | streaming l _ _ _ => some l
  | ended l => l

/-- The messages the session will write if nothing fails. -/
def holding : Phase A challenge → List Copy
  | draining _ queued => queued
  | streaming _ inHand channel _ => inHand.toList ++ channel
  | _ => []

/-- The receiving end of the session's channel exists. -/
def receiving : Phase A challenge → Bool
  | streaming _ _ _ _ => true
  | _ => false

/-- The session is past the fetch of its queued messages. -/
def fetched : Phase A challenge → Bool
  | draining _ _ => true
  | streaming _ _ _ _ => true
  | ended _ => true
  | _ => false

/-- The session has registered its sender. -/
def subscribed : Phase A challenge → Bool
  | streaming _ _ _ _ => true
  | ended _ => true
  | _ => false

end Phase

namespace Session

/-- A session before its first frame. -/
def new (challenge : List UInt8) : Session A :=
  { challenge, phase := .connected, output := [], delivered := [] }

variable (s : Session A)

/-- The mailbox a session is authenticated for. -/
def mailbox : Option String := s.phase.login.map Login.hash

/-- The messages the session will write if nothing fails. -/
def holding : List Copy := s.phase.holding

/-- The session after a frame was written. -/
def wrote (frame : ServerWsMessage) (phase : Phase A s.challenge) : Session A :=
  { s with phase, output := s.output ++ [frame] }

/-- The session after a message was written. -/
def delivering (c : Copy) (phase : Phase A s.challenge) : Session A :=
  { s with phase, output := s.output ++ [c.message.outgoing], delivered := s.delivered ++ [c] }

/-- The session after it moved on without writing. -/
def moved (phase : Phase A s.challenge) : Session A := { s with phase }

/-- The phase after the answer to the challenge. -/
def authPhase (A : AuthLibrary) (challenge : List UInt8) : AuthReply → Phase A challenge
  | .text (some (.auth publicKey signature)) =>
      match h : verifyChallengeSignature A publicKey challenge signature with
      | .ok hash => .verified { publicKey, signature, hash, verified := h }
      | .error e => .refusing ("Authentication failed: " ++ ("Auth error: " ++ e))
  | .text _ => .refusing "Expected auth message"
  | .other => .ended none

/-- A step of `handle_ws_session` that concerns nobody else. -/
def step : SessionAction → Option (Session A)
  | .sendChallenge ok =>
      match s.phase with
      | .connected =>
          some (if ok then s.wrote (.challenge (hexEncode s.challenge)) .awaitingAuth
            else s.moved (.ended none))
      | _ => none
  | .receiveAuth reply =>
      match s.phase with
      | .awaitingAuth => some (s.moved (authPhase A s.challenge reply))
      | _ => none
  | .sendError ok =>
      match s.phase with
      | .refusing message =>
          some (if ok then s.wrote (.error message) (.ended none) else s.moved (.ended none))
      | _ => none
  | .sendAuthenticated ok =>
      match s.phase with
      | .verified login =>
          some (if ok then s.wrote (.authenticated login.hash) (.confirmed login)
            else s.moved (.ended (some login)))
      | _ => none
  | .sendQueued ok =>
      match s.phase with
      | .draining login (c :: queued) =>
          some (if ok then s.delivering c (.draining login queued)
            else s.moved (.ended (some login)))
      | _ => none
  | .takeFromChannel =>
      match s.phase with
      | .streaming login none (c :: channel) receiveEnded =>
          some (s.moved (.streaming login (some c) channel receiveEnded))
      | _ => none
  | .sendLive ok =>
      match s.phase with
      | .streaming login (some c) channel receiveEnded =>
          some (if ok then s.delivering c (.streaming login none channel receiveEnded)
            else s.moved (.ended (some login)))
      | _ => none
  | .receive frame =>
      match s.phase with
      | .streaming login inHand channel false =>
          match frame with
          | .text _ => some s
          | .other => some s
          | .close => some (s.moved (.streaming login inHand channel true))
          | .lost => some (s.moved (.streaming login inHand channel true))
      | _ => none
  | .abortSendTask =>
      match s.phase with
      | .streaming login _ _ true => some (s.moved (.ended (some login)))
      | _ => none

/-- The steps that end the writing of messages: a failed write, or the abort of the send task. -/
def endsWriting : SessionAction → Bool
  | .sendQueued ok => !ok
  | .sendLive ok => !ok
  | .abortSendTask => true
  | _ => false

/-- What a step of a session keeps. The messages written, followed by the ones still held, change
only when the writing ends, and then the ones still held are gone. -/
structure Moves (s s' : Session A) (ends : Bool) : Prop where
  challenge : s'.challenge = s.challenge
  mailbox : ∀ h, s.mailbox = some h → s'.mailbox = some h
  receiving : s'.phase.receiving = true → s.phase.receiving = true
  subscribed : s.phase.subscribed = true → s'.phase.subscribed = true
  fetched : s'.phase.fetched = false → s.phase.fetched = false ∧ s'.delivered = s.delivered
  keeps : ends = false → s'.delivered ++ s'.holding = s.delivered ++ s.holding
  gives : ends = true → s'.delivered = s.delivered ∧ s'.holding = []
  payloads : ∃ cs, s'.delivered = s.delivered ++ cs ∧
    s'.output.filter ServerWsMessage.isPayload =
      s.output.filter ServerWsMessage.isPayload ++ cs.map fun c => c.message.outgoing

variable {s}

section

variable {phase : Phase A s.challenge} {ends : Bool}

theorem moves_moved (hlogin : s.phase.login = none ∨ phase.login = s.phase.login)
    (hreceiving : phase.receiving = true → s.phase.receiving = true)
    (hsubscribed : s.phase.subscribed = true → phase.subscribed = true)
    (hfetched : phase.fetched = false → s.phase.fetched = false)
    (hkeeps : ends = false → phase.holding = s.phase.holding)
    (hgives : ends = true → phase.holding = []) : Moves s (s.moved phase) ends where
  challenge := rfl
  mailbox h hh := by
    rcases hlogin with hnone | hsame
    · rw [mailbox, hnone] at hh
      cases hh
    · rw [mailbox, ← hsame] at hh
      exact hh
  receiving := hreceiving
  subscribed := hsubscribed
  fetched h := ⟨hfetched h, rfl⟩
  keeps hends := congrArg (s.delivered ++ ·) (hkeeps hends)
  gives hends := ⟨rfl, hgives hends⟩
  payloads := ⟨[], (List.append_nil _).symm, (List.append_nil _).symm⟩

/-- Writing a frame that carries no message is moving on. -/
theorem Moves.wrote {frame : ServerWsMessage} (h : Moves s (s.moved phase) ends)
    (hframe : frame.isPayload = false) : Moves s (s.wrote frame phase) ends where
  challenge := rfl
  mailbox := h.mailbox
  receiving := h.receiving
  subscribed := h.subscribed
  fetched := h.fetched
  keeps := h.keeps
  gives := h.gives
  payloads := by
    refine ⟨[], (List.append_nil _).symm, ?_⟩
    simp [Session.wrote, hframe]

theorem moves_delivering {c : Copy} (hlogin : phase.login = s.phase.login)
    (hreceiving : phase.receiving = s.phase.receiving)
    (hsubscribed : phase.subscribed = s.phase.subscribed)
    (hfetched : phase.fetched = true) (hholding : s.phase.holding = c :: phase.holding) :
    Moves s (s.delivering c phase) false where
  challenge := rfl
  mailbox h hh := by
    rw [mailbox, ← hlogin] at hh
    exact hh
  receiving := fun h => hreceiving ▸ h
  subscribed := fun h => hsubscribed ▸ h
  fetched h := by
    rw [show (s.delivering c phase).phase.fetched = true from hfetched] at h
    cases h
  keeps _ := by
    show (s.delivered ++ [c]) ++ phase.holding = s.delivered ++ s.phase.holding
    rw [hholding, List.append_assoc, List.singleton_append]
  gives hgives := by cases hgives
  payloads := by
    refine ⟨[c], rfl, ?_⟩
    simp [Session.delivering]

end

/-- A session that is about to read the answer to its challenge holds nothing, and neither does it
afterwards. -/
theorem authPhase_idle (challenge : List UInt8) (reply : AuthReply) :
    (authPhase A challenge reply).holding = [] ∧
      (authPhase A challenge reply).receiving = false := by
  unfold authPhase
  split
  · split <;> exact ⟨rfl, rfl⟩
  · exact ⟨rfl, rfl⟩
  · exact ⟨rfl, rfl⟩

theorem moves_self : Moves s s false := by
  have hmoves : Moves s (s.moved s.phase) false := by
    apply moves_moved (Or.inr rfl) id id id (fun _ => rfl)
    intro hgives
    cases hgives
  exact hmoves

/-! ## What a step does -/

/-- Everything a step of a session can do, with the phase it is taken in. -/
inductive Takes (s : Session A) : SessionAction → Session A → Prop where
  | challengeSent : s.phase = .connected →
      Takes s (.sendChallenge true) (s.wrote (.challenge (hexEncode s.challenge)) .awaitingAuth)
  | challengeFailed : s.phase = .connected → Takes s (.sendChallenge false) (s.moved (.ended none))
  | answered (reply : AuthReply) : s.phase = .awaitingAuth →
      Takes s (.receiveAuth reply) (s.moved (authPhase A s.challenge reply))
  | errorSent {message : String} : s.phase = .refusing message →
      Takes s (.sendError true) (s.wrote (.error message) (.ended none))
  | errorFailed {message : String} : s.phase = .refusing message →
      Takes s (.sendError false) (s.moved (.ended none))
  | confirmed {login : Login A s.challenge} : s.phase = .verified login →
      Takes s (.sendAuthenticated true) (s.wrote (.authenticated login.hash) (.confirmed login))
  | confirmFailed {login : Login A s.challenge} : s.phase = .verified login →
      Takes s (.sendAuthenticated false) (s.moved (.ended (some login)))
  | queuedSent {login : Login A s.challenge} {c : Copy} {queued : List Copy} :
      s.phase = .draining login (c :: queued) →
      Takes s (.sendQueued true) (s.delivering c (.draining login queued))
  | queuedFailed {login : Login A s.challenge} {c : Copy} {queued : List Copy} :
      s.phase = .draining login (c :: queued) →
      Takes s (.sendQueued false) (s.moved (.ended (some login)))
  | taken {login : Login A s.challenge} {c : Copy} {channel : List Copy} {receiveEnded : Bool} :
      s.phase = .streaming login none (c :: channel) receiveEnded →
      Takes s .takeFromChannel (s.moved (.streaming login (some c) channel receiveEnded))
  | liveSent {login : Login A s.challenge} {c : Copy} {channel : List Copy} {receiveEnded : Bool} :
      s.phase = .streaming login (some c) channel receiveEnded →
      Takes s (.sendLive true) (s.delivering c (.streaming login none channel receiveEnded))
  | liveFailed {login : Login A s.challenge} {c : Copy} {channel : List Copy}
      {receiveEnded : Bool} :
      s.phase = .streaming login (some c) channel receiveEnded →
      Takes s (.sendLive false) (s.moved (.ended (some login)))
  | ignored (frame : Incoming) : Takes s (.receive frame) s
  | receiveEnds (frame : Incoming) {login : Login A s.challenge} {inHand : Option Copy}
      {channel : List Copy} : s.phase = .streaming login inHand channel false →
      Takes s (.receive frame) (s.moved (.streaming login inHand channel true))
  | aborted {login : Login A s.challenge} {inHand : Option Copy} {channel : List Copy} :
      s.phase = .streaming login inHand channel true →
      Takes s .abortSendTask (s.moved (.ended (some login)))

theorem takes_of_step {s' : Session A} {a : SessionAction} (h : s.step a = some s') :
    Takes s a s' := by
  -- One case an action; a frame is looked at only while the stream is open.
  cases a with
  | sendChallenge ok =>
      simp only [step] at h
      split at h
      · rename_i hphase
        cases h
        cases ok with
        | true => exact .challengeSent hphase
        | false => exact .challengeFailed hphase
      · cases h
  | receiveAuth reply =>
      simp only [step] at h
      split at h
      · rename_i hphase
        cases h
        exact .answered reply hphase
      · cases h
  | sendError ok =>
      simp only [step] at h
      split at h
      · rename_i hphase
        cases h
        cases ok with
        | true => exact .errorSent hphase
        | false => exact .errorFailed hphase
      · cases h
  | sendAuthenticated ok =>
      simp only [step] at h
      split at h
      · rename_i hphase
        cases h
        cases ok with
        | true => exact .confirmed hphase
        | false => exact .confirmFailed hphase
      · cases h
  | sendQueued ok =>
      simp only [step] at h
      split at h
      · rename_i hphase
        cases h
        cases ok with
        | true => exact .queuedSent hphase
        | false => exact .queuedFailed hphase
      · cases h
  | takeFromChannel =>
      simp only [step] at h
      split at h
      · rename_i hphase
        cases h
        exact .taken hphase
      · cases h
  | sendLive ok =>
      simp only [step] at h
      split at h
      · rename_i hphase
        cases h
        cases ok with
        | true => exact .liveSent hphase
        | false => exact .liveFailed hphase
      · cases h
  | receive frame =>
      simp only [step] at h
      split at h
      · rename_i hphase
        cases frame with
        | text message =>
            cases h
            exact .ignored _
        | other =>
            cases h
            exact .ignored _
        | close =>
            cases h
            exact .receiveEnds _ hphase
        | lost =>
            cases h
            exact .receiveEnds _ hphase
      · cases h
  | abortSendTask =>
      simp only [step] at h
      split at h
      · rename_i hphase
        cases h
        exact .aborted hphase
      · cases h

/-- The answer to the challenge finds nothing held. -/
theorem moves_answered (hphase : s.phase = .awaitingAuth) (reply : AuthReply) :
    Moves s (s.moved (authPhase A s.challenge reply)) false := by
  obtain ⟨hholding, hreceiving⟩ := authPhase_idle (A := A) s.challenge reply
  apply moves_moved
  · left
    rw [hphase]
    rfl
  · intro hstream
    rw [hreceiving] at hstream
    cases hstream
  · intro hsubscribed
    rw [hphase] at hsubscribed
    cases hsubscribed
  · intro _
    rw [hphase]
    rfl
  · intro _
    rw [hphase]
    exact hholding
  · intro hgives
    cases hgives

/-- Every step of a session moves it on. -/
theorem moves_of_step {s' : Session A} {a : SessionAction} (h : s.step a = some s') :
    Moves s s' (endsWriting a) := by
  -- a step writes a message, or it moves to another phase and may write a frame of another kind
  cases takes_of_step h with
  | answered reply hphase => exact moves_answered hphase reply
  | ignored frame => exact moves_self
  | queuedSent hphase | liveSent hphase =>
      apply moves_delivering <;> simp [hphase, Phase.login, Phase.receiving, Phase.subscribed,
        Phase.fetched, Phase.holding]
  | challengeSent hphase | errorSent hphase | confirmed hphase =>
      apply Moves.wrote _ rfl
      apply moves_moved <;> simp [hphase, Phase.login, Phase.receiving, Phase.subscribed,
        Phase.fetched, Phase.holding, endsWriting]
  | challengeFailed hphase | errorFailed hphase | confirmFailed hphase | queuedFailed hphase
  | taken hphase | liveFailed hphase | receiveEnds _ hphase | aborted hphase =>
      apply moves_moved <;> simp [hphase, Phase.login, Phase.receiving, Phase.subscribed,
        Phase.fetched, Phase.holding, endsWriting]

/-! ## Credentials -/

/-- The public key and the signature of the login of a session. -/
def credentials (s : Session A) : Option (String × String) :=
  s.phase.login.map fun login => (login.publicKey, login.signature)

/-- The credentials after the answer to the challenge are the ones of the frame. -/
theorem credentials_answered {reply : AuthReply} {publicKey signature : String}
    (h : (s.moved (authPhase A s.challenge reply)).credentials = some (publicKey, signature)) :
    reply = .text (some (.auth publicKey signature)) := by
  have hlogin : (authPhase A s.challenge reply).login.map
      (fun login => (login.publicKey, login.signature)) = some (publicKey, signature) := h
  unfold authPhase at hlogin
  split at hlogin
  · split at hlogin
    · cases hlogin
      rfl
    · cases hlogin
  · cases hlogin
  · cases hlogin

/-- A session comes to credentials by an `auth` frame that carries them, and by nothing else. -/
theorem credentials_of_step {s' : Session A} {a : SessionAction} (h : s.step a = some s')
    {publicKey signature : String} (hs' : s'.credentials = some (publicKey, signature)) :
    s.credentials = some (publicKey, signature) ∨
      a = .receiveAuth (.text (some (.auth publicKey signature))) := by
  cases takes_of_step h with
  | answered reply hphase => exact Or.inr (by rw [credentials_answered hs'])
  | ignored frame => exact Or.inl hs'
  | challengeSent hphase | challengeFailed hphase | errorSent hphase | errorFailed hphase =>
      -- there is no login yet
      cases hs'
  | confirmed hphase | confirmFailed hphase | queuedSent hphase | queuedFailed hphase
  | taken hphase | liveSent hphase | liveFailed hphase | receiveEnds _ hphase | aborted hphase =>
      left
      rw [credentials, hphase]
      exact hs'

end Session

end TorE2EE.Relay
