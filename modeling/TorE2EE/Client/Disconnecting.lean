import TorE2EE.Client.StreamSteps
import TorE2EE.Client.Symbolic

/-!
# After disconnect()

`disconnect()` destroys the socket that is held and clears the timers that are known, and no more. A
call of `connect` that awaits its socket or has one that is not held, a reconnect timer that was
overwritten, and code of the client that goes on when a callback returns, all stay. `Ready` says that
there is nothing of the kind, and `disconnect_final` that a `disconnect()` is final if it runs in such
a state.
-/

set_option autoImplicit false

namespace TorE2EE.Client.Stream

open TorE2EE.Foundation TorE2EE.Crypto

variable {B S : Type}

/-- The rest of a method that opens no connection, arms no timer and reads no bytes. -/
def Pending.Harmless : Pending S → Prop
  | .openConnection => False
  | .armTimer => False
  | .startStream _ leftover => leftover = []
  | .onData _ _ => False
  | _ => True

/-- The attempt is over, or its socket will not bring it any further. -/
def Attempt.Over (x : Attempt S) : Prop :=
  match x.phase with
  | .upgrading _ => x.destroyed = true
  | .failed _ => True
  | .settled => True
  | _ => False

/-- `disconnect()` leaves nothing behind: every attempt is over or has the socket that is held, so
has every socket with listeners of the client, every timer is the one that is known, and no code
that is still to run starts anything. -/
structure Ready (w : Process S) : Prop where
  attempts : ∀ a, (w.attempts a).Over ∨
    w.client.socket = some a ∧ ∃ rawBytes, (w.attempts a).phase = .upgrading rawBytes
  handlers : ∀ a, 0 < (w.attempts a).handlers →
    (w.attempts a).destroyed = true ∨ w.client.socket = some a
  timers : ∀ t ∈ w.timers, w.client.reconnectTimer = some t
  stack : ∀ p ∈ w.stack, p.Harmless

/-- `disconnect()` runs in the event: the owner calls it, or a close frame is read. -/
def Disconnects (w : Process S) : Event S → Prop
  | .disconnect => True
  | .run => ∃ rest payload n, w.stack = .frames :: rest ∧
      nextFrame (w.client.buffer.map Prod.snd) = some ((0x08, payload), n)
  | _ => False

/-- The client is at rest, having sent `n` writes in all. -/
structure AtRest (n : Nat) (w : Process S) : Prop where
  state : w.client.state = .closed ∨ w.client.state = .disconnected
  socket : w.client.socket = none
  sent : w.sent.length = n

/-- The client is at rest, and nothing is left that could wake it. -/
structure Inert (n : Nat) (w : Process S) : Prop extends AtRest n w where
  autoReconnect : w.client.autoReconnect = false
  buffer : w.client.buffer = []
  attempts : ∀ a, (w.attempts a).Over
  handlers : ∀ a, 0 < (w.attempts a).handlers → (w.attempts a).destroyed = true
  timers : w.timers = []
  stack : ∀ p ∈ w.stack, p.Harmless

/-- An attempt that is over stays so when its socket is destroyed. -/
theorem Attempt.Over.of_destroyed {x y : Attempt S} (h : x.Over) (hphase : y.phase = x.phase)
    (hdestroyed : y.destroyed = true) : y.Over := by
  rw [Attempt.Over] at h ⊢
  rw [hphase]
  cases hx : x.phase with
  | upgrading rawBytes => exact hdestroyed
  | failed error => exact True.intro
  | settled => exact True.intro
  | opening => simp [hx] at h
  | opened => simp [hx] at h
  | upgraded leftover => simp [hx] at h

/-- The state in which `disconnect()` leaves a client that is ready for it. -/
theorem Ready.disconnect {w : Process S} (h : Ready w) : Inert w.sent.length w.disconnect where
  state := Or.inl rfl
  socket := rfl
  sent := rfl
  autoReconnect := rfl
  buffer := rfl
  attempts a := by
    simp only [Process.disconnect, Process.setState_attempts, Process.cleanupSocket_attempts,
      Process.cleanupTimers_client_socket, Process.cleanupTimers_attempts]
    rcases h.attempts a with hover | ⟨hheld, rawBytes, hphase⟩
    · split
      · exact hover.of_destroyed rfl rfl
      · exact hover
    · rw [if_pos hheld]
      simp [Attempt.Over, hphase]
  handlers a := by
    simp only [Process.disconnect, Process.setState_attempts, Process.cleanupSocket_attempts,
      Process.cleanupTimers_client_socket, Process.cleanupTimers_attempts]
    split
    · intro _
      rfl
    · next hheld =>
      intro hpos
      exact (h.handlers a hpos).resolve_right hheld
  timers := by
    simp only [Process.disconnect, Process.setState_timers, Process.cleanupSocket_timers,
      Process.cleanupTimers_timers, List.filter_eq_nil_iff]
    intro t ht
    simp [h.timers t ht]
  stack p hp := by
    rcases List.mem_cons.1 hp with rfl | hp
    · exact True.intro
    · exact h.stack p hp

/-! ## What is remembered of the last disconnect() -/

namespace Process

@[simp] theorem ended_write (w : Process S) (out : Outgoing S) : (w.write out).ended = w.ended := by
  rw [write]
  split
  · rfl
  · split <;> rfl

@[simp] theorem ended_connect (w : Process S) : w.connect.ended = w.ended := by
  rw [connect]
  split <;> rfl

@[simp] theorem ended_setupSocketHandlers (w : Process S) :
    w.setupSocketHandlers.ended = w.ended := by
  rw [setupSocketHandlers]
  split <;> rfl

end Process

variable {utf8 : List UInt8 → S}

theorem FrameEffect.ended {w w' : Process S} {opcode : UInt8} (h : FrameEffect w opcode w')
    (hopcode : opcode ≠ 0x08) : w'.ended = w.ended := by
  cases h with
  | close hclose => exact absurd hclose hopcode
  | write _ out => exact Process.ended_write w out
  | _ => rfl

/-- Only `disconnect()` and the owner's `connect()` write down anything. -/
theorem Steps.ended {w w' : Process S} {e : Event S} (h : Steps utf8 w e w') (hconnect : e ≠ .connect)
    (hopen : ¬ Disconnects w e) : w'.ended = w.ended := by
  cases h with
  | connect _ => exact absurd rfl hconnect
  | disconnect _ => exact absurd True.intro hopen
  | sendJson _ data => exact Process.ended_write w _
  | returned _ => rfl
  | @run p rest _ hstack hruns =>
    cases hruns with
    | @frame opcode payload n _ hnext heffect =>
      refine heffect.ended ?_
      rintro rfl
      exact hopen ⟨rest, payload, n, hstack, hnext⟩
    | answered out => exact Process.ended_write _ _
    | startStream a => exact Process.ended_setupSocketHandlers _
    | startStreamLeftover a _ => exact Process.ended_setupSocketHandlers _
    | _ => rfl
  | occur _ hoccurs =>
    cases hoccurs with
    | resumeOpened _ => exact Process.ended_write _ _
    | reconnect _ => exact Process.ended_connect _
    | ping _ out => exact Process.ended_write _ _
    | _ => rfl

/-! ## A client that is inert stays so -/

theorem Process.write_of_none {w : Process S} (h : w.client.socket = none) (out : Outgoing S) :
    w.write out = w := by
  simp [Process.write, h]

theorem Process.setupSocketHandlers_of_none {w : Process S} (h : w.client.socket = none) :
    w.setupSocketHandlers = w := by
  simp [Process.setupSocketHandlers, h]

/-- An attempt that is over awaits no response. -/
theorem Attempt.Over.onHandshakeData {x : Attempt S} (h : x.Over) (hlive : x.destroyed = false)
    (chunk : List UInt8) : onHandshakeData utf8 chunk x.phase = x.phase := by
  rcases onHandshakeData_spec utf8 chunk x.phase with hsame | ⟨rawBytes, hphase, -⟩
  · exact hsame
  · simp [Attempt.Over, hphase, hlive] at h

namespace Inert

variable {n : Nat} {w : Process S}

/-- Another call stack, with nothing on it that could wake the client. -/
theorem withStack (h : Inert n w) {stack : List (Pending S)} (hstack : ∀ p ∈ stack, p.Harmless) :
    Inert n { w with stack } :=
  { h with stack := hstack }

theorem push (h : Inert n w) {p : Pending S} (hp : p.Harmless) : Inert n (w.push p) :=
  h.withStack (List.forall_mem_cons.2 ⟨hp, h.stack⟩)

theorem setState (h : Inert n w) {newState : WsClientState}
    (hstate : newState = .closed ∨ newState = .disconnected) : Inert n (w.setState newState) :=
  { h.push (p := .callback (.onStateChange newState)) True.intro with state := hstate }

theorem cleanupTimers (h : Inert n w) : Inert n w.cleanupTimers :=
  { h with timers := by simp [h.timers] }

theorem handleConnectionFailure (h : Inert n w) (error : StreamError S) :
    Inert n (w.handleConnectionFailure error) :=
  (h.push (p := .reconnectOrStop) True.intro).push (p := .callback (.onError error)) True.intro

/-- Another state of an attempt, in which it is over. -/
theorem setAttempt (h : Inert n w) {a : Nat} {x : Attempt S} (hover : x.Over)
    (hhandlers : 0 < x.handlers → x.destroyed = true) : Inert n (w.setAttempt a x) :=
  { h with
    attempts := fun b => by
      by_cases hb : b = a
      · subst hb
        simpa using hover
      · simpa [hb] using h.attempts b
    handlers := fun b => by
      by_cases hb : b = a
      · subst hb
        simpa using hhandlers
      · simpa [hb] using h.handlers b }

theorem startPingKeepAlive (h : Inert n w) : Inert n w.startPingKeepAlive :=
  ⟨⟨h.state, h.socket, h.sent⟩, h.autoReconnect, h.buffer, h.attempts, h.handlers,
    h.cleanupTimers.timers, h.stack⟩

/-- The code that is still to run. -/
theorem runs (h : Inert n w) {p : Pending S} (hp : p.Harmless) {w' : Process S}
    (hruns : Runs w p w') : Inert n w' := by
  cases hruns with
  | openConnection => exact absurd hp id
  | armTimer => exact absurd hp id
  | onData a chunk => exact absurd hp id
  | startStream a =>
    rw [Process.setupSocketHandlers_of_none h.socket]
    exact h.push True.intro
  | startStreamLeftover a hleftover => exact absurd hp hleftover
  | resetAttempts =>
    exact ⟨⟨h.state, h.socket, h.sent⟩, h.autoReconnect, h.buffer, h.attempts, h.handlers, h.timers,
      h.stack⟩
  | framesDone _ => exact h
  | frame hnext _ =>
    -- The buffer was emptied with the socket.
    rw [h.buffer] at hnext
    cases hnext
  | answered out =>
    rw [Process.write_of_none h.socket]
    exact h
  | unanswered => exact h.handleConnectionFailure _
  | keepAlive hash => exact h.startPingKeepAlive.push True.intro
  | reconnect hauto =>
    rw [h.autoReconnect] at hauto
    cases hauto
  | stop _ => exact h.setState (Or.inr rfl)
  | onCloseIdle _ => exact h.cleanupTimers
  | onClose hstate => exact absurd h.state hstate
  | onError => exact h.push True.intro

/-- What sockets, timers and promises can still do. -/
theorem occurs (h : Inert n w) {e : Event S} {w' : Process S} (hoccurs : Occurs utf8 w e w') :
    Inert n w' := by
  -- No attempt is open, so a promise that comes back finds its call over; what sockets still emit
  -- runs the listeners of a destroyed socket.
  cases hoccurs with
  | @opened a hphase hlive => exact absurd (h.attempts a) (by simp [Attempt.Over, hphase])
  | @openFailed a hphase => exact absurd (h.attempts a) (by simp [Attempt.Over, hphase])
  | @resumeOpened a hphase => exact absurd (h.attempts a) (by simp [Attempt.Over, hphase])
  | @resumeUpgraded a leftover hphase => exact absurd (h.attempts a) (by simp [Attempt.Over, hphase])
  | @resumeFailed a error hphase =>
    have hover : ({ w.attempts a with phase := .settled } : Attempt S).Over := True.intro
    exact (h.setAttempt hover (h.handlers a)).handleConnectionFailure error
  | @data a chunk hlive =>
    have hover := h.attempts a
    -- A destroyed socket emits no data: one that still does has no listener left.
    have hnone : (w.attempts a).handlers = 0 := by
      by_contra hpos
      have hdestroyed := h.handlers a (by omega)
      rw [hlive] at hdestroyed
      cases hdestroyed
    have hsame : { w.attempts a with phase := onHandshakeData utf8 chunk (w.attempts a).phase } =
        w.attempts a := by
      rw [hover.onHandshakeData hlive]
    rw [hsame]
    refine (h.setAttempt hover (h.handlers a)).withStack ?_
    simp [hnone]
  | @error a hlive =>
    have hover := h.attempts a
    have hsame : onSocketError (w.attempts a).phase = (w.attempts a).phase := by
      rcases onSocketError_spec (w.attempts a).phase with ⟨hopening, -⟩ | ⟨-, hsame⟩
      · simp [Attempt.Over, hopening] at hover
      · exact hsame
    refine Inert.withStack (h.setAttempt (hover.of_destroyed hsame rfl) fun _ => rfl) ?_
    intro p hp
    rw [List.eq_of_mem_replicate hp]
    exact True.intro
  | @close a hopen =>
    have hover : ({ w.attempts a with destroyed := true, closed := true } : Attempt S).Over :=
      (h.attempts a).of_destroyed rfl rfl
    refine Inert.withStack (h.setAttempt hover fun _ => rfl) ?_
    intro p hp
    rw [List.eq_of_mem_replicate hp]
    exact True.intro
  | reconnect ht =>
    rw [h.timers] at ht
    cases ht
  | ping _ out =>
    rw [Process.write_of_none h.socket]
    exact h

end Inert

/-- A step of an inert client, other than a call of `connect()` by the owner or another
`disconnect()`. -/
theorem Inert.steps {n : Nat} {w w' : Process S} {e : Event S} (h : Inert n w)
    (hsteps : Steps utf8 w e w') (hconnect : e ≠ .connect) (hopen : ¬ Disconnects w e) :
    Inert n w' := by
  cases hsteps with
  | connect _ => exact absurd rfl hconnect
  | disconnect _ => exact absurd True.intro hopen
  | sendJson _ data =>
    rw [Process.write_of_none h.socket]
    exact h
  | @returned c rest hstack =>
    apply h.withStack
    intro p hp
    exact h.stack p (by simp [hstack, hp])
  | @run p rest _ hstack hruns =>
    have hall := h.stack
    rw [hstack, List.forall_mem_cons] at hall
    exact (h.withStack hall.2).runs hall.1 hruns
  | occur _ hoccurs => exact h.occurs hoccurs

/-- A step in which `disconnect()` runs, in a state that is ready for it. -/
theorem inert_of_disconnects {w w' : Process S} {e : Event S} (h : Ready w)
    (hsteps : Steps utf8 w e w') (hdisconnects : Disconnects w e) :
    ∃ n, w'.ended = some n ∧ Inert n w' := by
  cases hsteps with
  | connect _ => exact absurd hdisconnects id
  | disconnect _ => exact ⟨_, rfl, h.disconnect⟩
  | sendJson _ _ => exact absurd hdisconnects id
  | returned _ => exact absurd hdisconnects id
  | @run p rest _ hstack hruns =>
    obtain ⟨rest', payload, n, hframes, hclose⟩ := hdisconnects
    cases hstack.symm.trans hframes
    cases hruns with
    | framesDone hnext => cases hnext.symm.trans hclose
    | frame hnext heffect =>
      cases hnext.symm.trans hclose
      cases heffect with
      | close _ =>
        -- The loop stays on the call stack, and the buffer plays no part.
        refine ⟨_, rfl, Ready.disconnect ⟨h.attempts, h.handlers, h.timers, ?_⟩⟩
        intro p hp
        exact h.stack p (by rwa [hstack])
      | challenge hopcode _ => exact absurd rfl hopcode
      | authenticated hopcode _ => exact absurd rfl hopcode
      | callback hopcode _ => exact absurd rfl hopcode
      | write hopcode _ => exact absurd rfl hopcode
      | nothing hopcode => exact absurd rfl hopcode
  | occur _ hoccurs => cases hoccurs <;> exact absurd hdisconnects id

/-- The states of the runs of a new client in which every event is `allowed`. -/
def Run [DecidableEq S] (P : Primitives B S) (L : ClientLibrary B S) (identity : UserIdentity B S)
    (utf8 : List UInt8 → S) (allowed : Process S → Event S → Prop) (w : Process S) : Prop :=
  Reachable (step P L identity utf8) allowed .start w

/-- `disconnect()` is final. In every run in which it runs in states that are ready for it only, the
client is at rest from the time it has run until the owner calls `connect()` again: it is `CLOSED` or
`DISCONNECTED`, holds no socket, and sends nothing. -/
theorem disconnect_final [DecidableEq S] {P : Primitives B S} {L : ClientLibrary B S}
    {identity : UserIdentity B S} {w : Process S}
    (h : Run P L identity utf8 (fun w e => Disconnects w e → Ready w) w) {n : Nat}
    (hended : w.ended = some n) : AtRest n w := by
  suffices hinert : ∀ n, w.ended = some n → Inert n w from (hinert n hended).toAtRest
  refine Reachable.invariant (p := fun w => ∀ n, w.ended = some n → Inert n w) h ?_ ?_
  · intro n hn
    cases hn
  · intro w w' e hw hallowed hstep n hn
    have hsteps := steps_of_step hstep
    by_cases hdisconnects : Disconnects w e
    · obtain ⟨m, hm, hinert⟩ := inert_of_disconnects (hallowed hdisconnects) hsteps hdisconnects
      cases hm.symm.trans hn
      exact hinert
    · by_cases hconnect : e = .connect
      · subst hconnect
        cases hsteps with
        | connect _ => simp at hn
        | occur _ hoccurs => cases hoccurs
      · exact (hw n ((hsteps.ended hconnect hdisconnects).symm.trans hn)).steps hsteps hconnect
          hdisconnects

section

open TorE2EE.Crypto.Sym

/-- The text of bytes as a term. -/
def symbolicUtf8 (bytes : List UInt8) : Sym :=
  text (String.ofList (bytes.map fun b => Char.ofNat b.toNat))

/-- The stream client over symbolic terms. -/
abbrev symbolicStep : Process Sym → Event Sym → Option (Process Sym) :=
  step symbolicClient symbolicLibrary (symbolicIdentity 1) symbolicUtf8

/-- The owner calls `connect()`, and the socket is asked for. -/
def connecting : List (Event Sym) := [.connect, .returned, .run]

/-- The response with which the server accepts the upgrade. -/
def upgradeAccepted : List UInt8 :=
  asciiBytes ['H', 'T', 'T', 'P', '/', '1', '.', '1', ' ', '1', '0', '1', '\r', '\n', '\r', '\n']

/-- The socket has opened, and the upgrade request is on its way. -/
def symbolicUpgrading : Process Sym :=
  (runActions symbolicStep (connecting ++ [.opened 0, .resume 0]) .start).getD .start

theorem symbolicUpgrading_ready : Ready symbolicUpgrading where
  attempts a := by
    cases a with
    | zero => exact Or.inr ⟨rfl, [], rfl⟩
    | succ a => exact Or.inl True.intro
  handlers a hpos := by
    cases a with
    | zero => exact absurd hpos (Nat.lt_irrefl 0)
    | succ a => exact absurd hpos (Nat.lt_irrefl 0)
  timers t ht := by cases ht
  stack p hp := by cases hp

/-- `disconnect()` during the upgrade handshake is final. -/
theorem disconnect_final_symbolic :
    ∃ w, runActions symbolicStep [.disconnect, .returned, .close 0] symbolicUpgrading = some w ∧
      AtRest 1 w := by
  let allowed (w : Process Sym) (e : Event Sym) : Prop := Disconnects w e → Ready w
  have hopened : Reachable symbolicStep allowed .start symbolicUpgrading := by
    refine .step (.resume 0) (.step (.opened 0) (.step .run (.step .returned
      (.step .connect .start ?_ rfl) ?_ rfl) ?_ rfl) ?_ rfl) ?_ rfl
    · exact fun h => absurd h id
    · exact fun h => absurd h id
    · rintro ⟨_, _, _, hstack, -⟩
      cases hstack
    · exact fun h => absurd h id
    · exact fun h => absurd h id
  have hclosed : Reachable symbolicStep allowed .start symbolicUpgrading.disconnect :=
    .step .disconnect hopened (fun _ => symbolicUpgrading_ready) rfl
  refine ⟨_, rfl, disconnect_final (.step (.close 0) (.step .returned hclosed ?_ rfl) ?_ rfl) rfl⟩
  · exact fun h => absurd h id
  · exact fun h => absurd h id

/-- A connection that opens after `disconnect()` is held. -/
theorem opening_survives_disconnect :
    ¬ ∀ (w : Process Sym) (n : Nat),
      Run symbolicClient symbolicLibrary (symbolicIdentity 1) symbolicUtf8 (fun _ _ => True) w →
      w.ended = some n → AtRest n w := by
  intro hfinal
  obtain ⟨w, hrun, hended, hsocket⟩ : ∃ w, runActions symbolicStep
      (connecting ++ [.disconnect, .returned, .opened 0, .resume 0]) .start = some w ∧
      w.ended = some 0 ∧ w.client.socket = some 0 :=
    ⟨_, rfl, rfl, rfl⟩
  have hrest := hfinal w 0 (Reachable.start.of_runActions (fun _ _ _ => True.intro) hrun) hended
  rw [hrest.socket] at hsocket
  cases hsocket

end

end TorE2EE.Client.Stream
