import TorE2EE.Client.CallStack
import TorE2EE.Client.Disconnecting

/-!
# The stream client never wedges

While it awaits the response to the upgrade request the client has no `close` listener on its socket,
so a socket that is closed by then leaves it `CONNECTING` for good, and `connect` returns at once in
that state. `Covered` leaves out such a close, and an accepted upgrade that is taken up on a socket
that is not held. Every run without them is `Awake`: something that is still to come leads on to
another connection.
-/

set_option autoImplicit false

namespace TorE2EE.Client.Stream

open TorE2EE.Foundation TorE2EE.Crypto

variable {B S : Type}

/-- A call of `connect` is to be given a socket, or to go on with one or with an error. -/
def Phase.Starting : Phase S → Prop
  | .opening => True
  | .opened => True
  | .failed _ => True
  | _ => False

/-- A call of `connect` awaits the response to the upgrade request, or is to go on with it. -/
def Phase.Upgrading : Phase S → Prop
  | .upgrading _ => True
  | .upgraded _ => True
  | _ => False

/-- The socket has the listeners of the client and has not been closed. -/
def Attempt.Streaming (x : Attempt S) : Prop := 0 < x.handlers ∧ x.closed = false

/-- The attempt is under way with its socket, or its socket is in use. -/
def Live (w : Process S) (a : Nat) : Prop :=
  (w.attempts a).phase.Starting ∨
    (w.client.socket = some a ∧ (w.attempts a).phase.Upgrading ∧ (w.attempts a).destroyed = false) ∨
    (w.attempts a).Streaming

/-- The socket is the one that `connect` is about to upgrade or is upgrading, and no listener of the
client hears it close. -/
def Unheard (w : Process S) (a : Nat) : Prop :=
  (w.attempts a).phase = .opened ∨ w.client.socket = some a ∧ (w.attempts a).phase.Upgrading

/-- No socket fails or is closed unheard, and an accepted upgrade is taken up on its own socket, or
with no socket and no bytes. -/
def Covered (w : Process S) : Event S → Prop
  | .error a => ¬ Unheard w a
  | .close a => ¬ Unheard w a
  | .resume a => ∀ leftover, (w.attempts a).phase = .upgraded leftover →
      w.client.socket = some a ∨ w.client.socket = none ∧ leftover = []
  | _ => True

theorem Covered.ownSocket {w : Process S} {e : Event S} (h : Covered w e) : OwnSocket w e := by
  cases e with
  | resume a =>
    intro leftover hphase c hc
    rcases h leftover hphase with hheld | ⟨hnone, -⟩
    · exact Option.some.inj (hc.symm.trans hheld)
    · rw [hnone] at hc
      cases hc
  | _ => exact True.intro

/-! ## No socket is lost -/

/-- The sockets with which `connect` goes on are open. -/
structure Whole (w : Process S) : Prop where
  opened : ∀ a, (w.attempts a).phase = .opened → (w.attempts a).destroyed = false
  started : ∀ a, w.client.socket = some a →
    (w.attempts a).phase ≠ .opening ∧ (w.attempts a).phase ≠ .opened
  upgrading : ∀ a, w.client.socket = some a → (w.attempts a).phase.Upgrading →
    (w.attempts a).destroyed = false
  startStream : ∀ a leftover, .startStream a leftover ∈ w.stack → w.client.socket = some a →
    (w.attempts a).closed = false

namespace Whole

variable {w w' : Process S}

/-- The same sockets, and no more methods that are to attach listeners. -/
theorem congr (h : Whole w) (hattempts : w'.attempts = w.attempts)
    (hsocket : w'.client.socket = w.client.socket)
    (hstack : ∀ a leftover, .startStream a leftover ∈ w'.stack → .startStream a leftover ∈ w.stack) :
    Whole w' where
  opened := by
    rw [hattempts]
    exact h.opened
  started := by
    rw [hattempts, hsocket]
    exact h.started
  upgrading := by
    rw [hattempts, hsocket]
    exact h.upgrading
  startStream a leftover ha := by
    rw [hattempts, hsocket]
    exact h.startStream a leftover (hstack a leftover ha)

theorem write (h : Whole w) (out : Outgoing S) : Whole (w.write out) := by
  obtain ⟨sent, hwrite⟩ := w.write_spec out
  rw [hwrite]
  exact h.congr rfl rfl fun _ _ => id

theorem push (h : Whole w) {p : Pending S} (hp : ∀ a leftover, p ≠ .startStream a leftover) :
    Whole (w.push p) := by
  refine h.congr rfl rfl fun a leftover ha => ?_
  rcases List.mem_cons.1 ha with rfl | ha
  · exact absurd rfl (hp a leftover)
  · exact ha

theorem setState (h : Whole w) (newState : WsClientState) : Whole (w.setState newState) :=
  (h.push (p := .callback (.onStateChange newState)) fun _ _ hp => by cases hp).congr rfl rfl
    fun _ _ => id

theorem cleanupSocket (h : Whole w) : Whole w.cleanupSocket where
  opened a := by
    simp only [Process.cleanupSocket_attempts]
    split
    · next hheld => exact fun hphase => absurd hphase (h.started a hheld).2
    · exact h.opened a
  started a ha := by cases ha
  upgrading a ha := by cases ha
  startStream a _ _ ha := by cases ha

/-- Another buffer, of which frames are to be read. -/
theorem frames (h : Whole w) (buffer : List (Nat × UInt8)) :
    Whole (Process.push { w with client := { w.client with buffer } } .frames) := by
  have hbuffer : Whole { w with client := { w.client with buffer } } := h.congr rfl rfl fun _ _ => id
  exact hbuffer.push fun _ _ hp => by cases hp

theorem disconnect (h : Whole w) : Whole w.disconnect := by
  have hcleaned : Whole (Process.cleanupSocket (Process.cleanupTimers
      { w with
        client := { w.client with autoReconnect := false }
        ended := some w.sent.length })) :=
    Whole.cleanupSocket (h.congr rfl rfl fun _ _ => id)
  exact hcleaned.setState .closed

theorem connect (h : Whole w) : Whole w.connect := by
  rw [Process.connect]
  split
  · exact h
  · have hauto : Whole { w with client := { w.client with autoReconnect := true } } :=
      h.congr rfl rfl fun _ _ => id
    exact (hauto.push (p := .openConnection) fun _ _ hp => by cases hp).setState .connecting

theorem handleConnectionFailure (h : Whole w) (error : StreamError S) :
    Whole (w.handleConnectionFailure error) :=
  (h.push (p := .reconnectOrStop) fun _ _ hp => by cases hp).push
    (p := .callback (.onError error)) fun _ _ hp => by cases hp

theorem frameEffect (h : Whole w) {opcode : UInt8} (heffect : FrameEffect w opcode w') :
    Whole w' := by
  cases heffect with
  | close _ => exact h.disconnect
  | challenge _ challenge =>
    exact (h.push (p := .answer challenge) fun _ _ hp => by cases hp).setState _
  | authenticated _ hash =>
    exact (h.push (p := .keepAlive hash) fun _ _ hp => by cases hp).setState _
  | callback _ c => exact h.push fun _ _ hp => by cases hp
  | write _ out => exact h.write out
  | nothing _ => exact h

/-- Another state of an attempt. -/
theorem setAttempt (h : Whole w) {a : Nat} {x : Attempt S}
    (hopened : x.phase = .opened → x.destroyed = false)
    (hstarted : w.client.socket = some a → x.phase ≠ .opening ∧ x.phase ≠ .opened)
    (hupgrading : w.client.socket = some a → x.phase.Upgrading → x.destroyed = false)
    (hstart : ∀ leftover, .startStream a leftover ∈ w.stack → w.client.socket = some a →
      x.closed = false) :
    Whole (w.setAttempt a x) where
  opened b := by
    by_cases hb : b = a
    · subst hb
      simpa using hopened
    · simpa [hb] using h.opened b
  started b := by
    by_cases hb : b = a
    · subst hb
      simpa using hstarted
    · simpa [hb] using h.started b
  upgrading b := by
    by_cases hb : b = a
    · subst hb
      simpa using hupgrading
    · simpa [hb] using h.upgrading b
  startStream b leftover := by
    by_cases hb : b = a
    · subst hb
      simpa using hstart leftover
    · simpa [hb] using h.startStream b leftover

/-- The listeners are added to the socket that is held. -/
theorem setupSocketHandlers (h : Whole w) : Whole w.setupSocketHandlers := by
  rw [Process.setupSocketHandlers]
  split
  · exact h
  · next a _ =>
    exact h.setAttempt (h.opened a) (h.started a) (h.upgrading a) fun leftover =>
      h.startStream a leftover

variable {utf8 : List UInt8 → S}

/-- The code on top of the stack goes on. -/
theorem runs (h : Whole w) (hsound : Sound w) {p : Pending S} {rest : List (Pending S)}
    (hstack : w.stack = p :: rest) (hruns : Runs { w with stack := rest } p w') : Whole w' := by
  have hpop : Whole { w with stack := rest } :=
    h.congr rfl rfl fun a leftover ha => by simp [hstack, ha]
  have hpopped := hsound.pop hstack
  cases hruns with
  | openConnection =>
    refine Whole.congr (w := Process.setAttempt { w with stack := rest } w.count
      { phase := .opening, destroyed := false, closed := false, handlers := 0 }) ?_ rfl rfl
      fun _ _ => id
    have hunheld : w.client.socket ≠ some w.count := fun hheld =>
      Nat.lt_irrefl _ (hsound.held _ hheld)
    exact hpop.setAttempt (fun _ => rfl) (fun hheld => absurd hheld hunheld) (fun _ _ => rfl)
      fun _ _ _ => rfl
  | startStream a => exact hpop.setupSocketHandlers.push fun _ _ hp => by cases hp
  | startStreamLeftover a _ =>
    have hreset := hpop.setupSocketHandlers.push (p := .resetAttempts) fun _ _ hp => by cases hp
    exact hreset.frames _
  | resetAttempts => exact hpop.congr rfl rfl fun _ _ => id
  | framesDone _ => exact hpop
  | frame _ heffect => exact Whole.frameEffect (hpop.frames _) heffect
  | answered out => exact hpop.write out
  | unanswered => exact hpop.handleConnectionFailure _
  | keepAlive hash =>
    have hkept : Whole (Process.startPingKeepAlive { w with stack := rest }) :=
      hpop.congr rfl rfl fun _ _ => id
    exact hkept.push fun _ _ hp => by cases hp
  | reconnect _ => exact (hpop.push (p := .armTimer) fun _ _ hp => by cases hp).setState _
  | stop _ => exact hpop.setState _
  | armTimer => exact hpop.cleanupSocket.congr rfl rfl fun _ _ => id
  | onData a chunk => exact hpop.frames _
  | onCloseIdle _ => exact hpop.congr rfl rfl fun _ _ => id
  | onClose _ =>
    have hcleaned : Whole (Process.cleanupTimers { w with stack := rest }) :=
      hpop.congr rfl rfl fun _ _ => id
    exact (hcleaned.push (p := .reconnectOrStop) fun _ _ hp => by cases hp).push
      fun _ _ hp => by cases hp
  | onError => exact hpop.push fun _ _ hp => by cases hp

/-- The listeners of an event are called. -/
theorem listen (h : Whole w) (n : Nat) (p : Pending S) (hp : p.Listens) :
    Whole { w with stack := List.replicate n p } :=
  { h with
    startStream := fun a leftover ha => by
      rw [← List.eq_of_mem_replicate ha] at hp
      exact absurd hp id }

/-- What sockets, timers and promises do when no close goes unheard. -/
theorem occurs (h : Whole w) (hsound : Sound w) (hidle : w.stack = []) {e : Event S}
    (hcovered : Covered w e) (hoccurs : Occurs utf8 w e w') : Whole w' := by
  have hnone : ∀ p, p ∉ w.stack := by simp [hidle]
  cases hoccurs with
  | @opened a hphase hlive =>
    refine h.setAttempt (fun _ => hlive) (fun hheld => ?_) (fun _ _ => hlive)
      fun _ ha => absurd ha (hnone _)
    exact absurd hphase (h.started a hheld).1
  | @openFailed a hphase =>
    exact h.setAttempt (fun hopened => by cases hopened)
      (fun _ => by simp) (fun _ hupgrading => absurd hupgrading id)
      fun _ ha => absurd ha (hnone _)
  | @resumeOpened a hphase =>
    have hlive := h.opened a hphase
    have hset := h.setAttempt (a := a) (x := { w.attempts a with phase := .upgrading [] })
      (fun _ => hlive) (fun _ => by simp) (fun _ _ => hlive)
      fun _ ha => absurd ha (hnone _)
    have hheld : Whole
        { w.setAttempt a { w.attempts a with phase := .upgrading [] } with
          client := { w.client with socket := some a } } := by
      refine ⟨hset.opened, ?_, ?_, fun _ _ ha => absurd ha (hnone _)⟩
      · intro b hb
        cases hb
        simp
      · intro b hb
        cases hb
        simpa using fun _ => hlive
    exact hheld.write _
  | @resumeUpgraded a leftover hphase =>
    have hset := h.setAttempt (a := a) (x := { w.attempts a with phase := .settled })
      (fun hopened => by cases hopened) (fun _ => by simp)
      (fun _ hupgrading => absurd hupgrading id) fun _ ha => absurd ha (hnone _)
    have hpushed : Whole (Process.push (w.setAttempt a { w.attempts a with phase := .settled })
        (.startStream a leftover)) := by
      refine ⟨hset.opened, hset.started, hset.upgrading, fun b leftover' hb hheld => ?_⟩
      obtain ⟨rfl, -⟩ : b = a ∧ leftover' = leftover := by simpa [hidle] using hb
      -- The socket that is held was open when the upgrade was accepted.
      have hlive := h.upgrading b hheld (by simp [hphase, Phase.Upgrading])
      by_contra hclosed
      have hdestroyed := hsound.closed b (by simpa using hclosed)
      rw [hlive] at hdestroyed
      cases hdestroyed
    exact hpushed.setState _
  | @resumeFailed a error hphase =>
    have hset := h.setAttempt (a := a) (x := { w.attempts a with phase := .settled })
      (fun hopened => by cases hopened) (fun _ => by simp)
      (fun _ hupgrading => absurd hupgrading id) fun _ ha => absurd ha (hnone _)
    exact hset.handleConnectionFailure error
  | @data a chunk hlive =>
    have hset := h.setAttempt (a := a)
      (x := { w.attempts a with phase := onHandshakeData utf8 chunk (w.attempts a).phase })
      (fun _ => hlive) (fun hheld => ?_) (fun _ _ => hlive) fun _ ha => absurd ha (hnone _)
    · exact hset.listen _ (.onData a chunk) True.intro
    rcases onHandshakeData_spec utf8 chunk (w.attempts a).phase with
      hsame | ⟨_, -, ⟨_, hnew⟩ | ⟨_, hnew⟩ | ⟨_, hnew⟩⟩
    · simpa [hsame] using h.started a hheld
    · simp [hnew]
    · simp [hnew]
    · simp [hnew]
  | @error a hlive =>
    have hset := h.setAttempt (a := a)
      (x := { w.attempts a with phase := onSocketError (w.attempts a).phase, destroyed := true })
      ?_ ?_ ?_ fun _ ha => absurd ha (hnone _)
    · exact hset.listen _ .onError True.intro
    · intro hphase
      rcases onSocketError_spec (w.attempts a).phase with ⟨-, hnew⟩ | ⟨-, hsame⟩
      · cases hnew.symm.trans hphase
      · exact absurd (Or.inl (hsame.symm.trans hphase)) hcovered
    · intro hheld
      rcases onSocketError_spec (w.attempts a).phase with ⟨-, hnew⟩ | ⟨-, hsame⟩
      · simp [hnew]
      · simpa [hsame] using h.started a hheld
    · intro hheld hupgrading
      rcases onSocketError_spec (w.attempts a).phase with ⟨-, hnew⟩ | ⟨-, hsame⟩
      · simp [hnew, Phase.Upgrading] at hupgrading
      · exact absurd (Or.inr ⟨hheld, by simpa [hsame] using hupgrading⟩) hcovered
  | @close a hopen =>
    have hset := h.setAttempt (a := a) (x := { w.attempts a with destroyed := true, closed := true })
      (fun hphase => absurd (Or.inl hphase) hcovered) (h.started a)
      (fun hheld hupgrading => absurd (Or.inr ⟨hheld, hupgrading⟩) hcovered)
      fun _ ha => absurd ha (hnone _)
    exact hset.listen _ .onClose True.intro
  | @reconnect t _ =>
    have htimers : Whole { w with timers := w.timers.erase t } := h.congr rfl rfl fun _ _ => id
    exact htimers.connect
  | ping _ out => exact h.write out

/-- Every covered step keeps it. -/
theorem steps (h : Whole w) (hsound : Sound w) {e : Event S} (hcovered : Covered w e)
    (hsteps : Steps utf8 w e w') : Whole w' := by
  cases hsteps with
  | connect _ =>
    have hended : Whole { w with ended := none } := h.congr rfl rfl fun _ _ => id
    exact hended.connect
  | disconnect _ => exact h.disconnect
  | sendJson _ data => exact h.write _
  | returned hstack => exact h.congr rfl rfl fun a leftover ha => by simp [hstack, ha]
  | run hstack hruns => exact h.runs hsound hstack hruns
  | occur hidle hoccurs => exact h.occurs hsound hidle hcovered hoccurs

end Whole

/-! ## Something leads on -/

/-- A connection is being opened, or the error with which it was not is to be handled. -/
def Starts (w : Process S) : Prop :=
  .openConnection ∈ w.stack ∨ ∃ a, (w.attempts a).phase.Starting

/-- What leads to another connection without a timer. -/
inductive Driven (w : Process S) : Prop
  | starts (h : Starts w)
  | streaming (a : Nat) (h : (w.attempts a).Streaming)
  | upgrading (a : Nat) (hheld : w.client.socket = some a) (h : (w.attempts a).phase.Upgrading)
  | startStream (a : Nat) (leftover : List UInt8) (h : .startStream a leftover ∈ w.stack)
      (hheld : w.client.socket = some a)
  | closed (h : .onClose ∈ w.stack)
  | failed (h : .reconnectOrStop ∈ w.stack)

/-- Something that is still to come leads to another connection, and a timer does in the states that
`connect` does not return from at once. The other parts say what the code that is still to run relies
on for that. -/
structure Awake (w : Process S) : Prop where
  notClosed : w.client.state ≠ .closed
  called : w.client.state = .disconnected → w.count = 0 ∧ w.stack = []
  driven : w.client.state ≠ .disconnected →
    Driven w ∨ (.armTimer ∈ w.stack ∨ w.timers ≠ []) ∧ w.client.state.Resumes
  armTimer : .armTimer ∈ w.stack → w.client.state = .reconnecting ∨ Starts w
  keepAlive : ∀ hash, .keepAlive hash ∈ w.stack →
    w.client.state = .connectedAuthenticated ∨ w.client.state = .connecting
  frames : .frames ∈ w.stack → w.client.buffer ≠ [] → Starts w ∨ ∃ a, (w.attempts a).Streaming
  leftover : ∀ a leftover, .startStream a leftover ∈ w.stack → leftover ≠ [] →
    w.client.socket = some a ∨ Starts w

/-- Code that leads on to another connection. -/
def Pending.Drives (w : Process S) : Pending S → Prop
  | .openConnection => True
  | .startStream a _ => w.client.socket = some a
  | .armTimer => True
  | .onClose => True
  | .reconnectOrStop => True
  | _ => False

/-- Code that relies on something that leads on. -/
def Pending.Relies : Pending S → Prop
  | .armTimer => True
  | .keepAlive _ => True
  | .frames => True
  | .startStream _ _ => True
  | _ => False

variable {w w' : Process S}

theorem Starts.restack (h : Starts w) (hattempts : w'.attempts = w.attempts)
    (hstack : .openConnection ∈ w.stack → .openConnection ∈ w'.stack) : Starts w' := by
  rcases h with hopen | ⟨a, ha⟩
  · exact Or.inl (hstack hopen)
  · refine Or.inr ⟨a, ?_⟩
    rwa [hattempts]

theorem Driven.restack (h : Driven w) (hattempts : w'.attempts = w.attempts)
    (hsocket : w'.client.socket = w.client.socket)
    (hstack : ∀ p, p.Drives w → p ∈ w.stack → p ∈ w'.stack) : Driven w' := by
  cases h with
  | starts h => exact .starts (h.restack hattempts (hstack _ True.intro))
  | streaming a h =>
    refine .streaming a ?_
    rwa [hattempts]
  | upgrading a hheld h =>
    refine .upgrading a ?_ ?_
    · rwa [hsocket]
    · rwa [hattempts]
  | startStream a leftover h hheld =>
    refine .startStream a leftover (hstack _ hheld h) ?_
    rwa [hsocket]
  | closed h => exact .closed (hstack _ True.intro h)
  | failed h => exact .failed (hstack _ True.intro h)

namespace Awake

/-- No code is to run that relies on anything. -/
theorem of_free (hfree : ∀ p ∈ w.stack, ¬ p.Relies) (hnotClosed : w.client.state ≠ .closed)
    (hcalled : w.client.state ≠ .disconnected)
    (hdriven : Driven w ∨ w.timers ≠ [] ∧ w.client.state.Resumes) : Awake w where
  notClosed := hnotClosed
  called hstate := absurd hstate hcalled
  driven _ := hdriven.imp id fun h => ⟨Or.inr h.1, h.2⟩
  armTimer ha := absurd True.intro (hfree _ ha)
  keepAlive _ ha := absurd True.intro (hfree _ ha)
  frames ha := absurd True.intro (hfree _ ha)
  leftover _ _ ha := absurd True.intro (hfree _ ha)

/-- A connection is being opened, or there is one whose close is heard. -/
theorem of_source (hsource : Starts w ∨ ∃ a, (w.attempts a).Streaming)
    (hnotClosed : w.client.state ≠ .closed) (hcalled : w.client.state ≠ .disconnected)
    (harm : .armTimer ∈ w.stack → Starts w)
    (hkeep : ∀ hash, .keepAlive hash ∈ w.stack →
      w.client.state = .connectedAuthenticated ∨ w.client.state = .connecting)
    (hleftover : ∀ a leftover, .startStream a leftover ∈ w.stack → Starts w) : Awake w where
  notClosed := hnotClosed
  called hstate := absurd hstate hcalled
  driven _ := by
    refine Or.inl ?_
    rcases hsource with hstarts | ⟨a, ha⟩
    · exact .starts hstarts
    · exact .streaming a ha
  armTimer ha := Or.inr (harm ha)
  keepAlive := hkeep
  frames _ _ := hsource
  leftover a leftover ha _ := Or.inr (hleftover a leftover ha)

/-- Before code has run, `connect` has been called. -/
theorem state_ne (h : Awake w) {p : Pending S} {rest : List (Pending S)}
    (hstack : w.stack = p :: rest) : w.client.state ≠ .disconnected := by
  intro hstate
  have hnone := (h.called hstate).2
  rw [hstack] at hnone
  cases hnone

/-- The code on top of the stack makes way for code that relies on no more than it did. -/
theorem next (h : Awake w) (pushed : List (Pending S)) {p : Pending S} {rest : List (Pending S)}
    (hstack : w.stack = p :: rest) (hdrives : ¬ p.Drives w)
    (hrelies : ∀ q ∈ pushed, q.Relies → q = p) (hstack' : w'.stack = pushed ++ rest)
    (hstate : w'.client.state = w.client.state) (hsocket : w'.client.socket = w.client.socket)
    (hattempts : w'.attempts = w.attempts) (htimers : w'.timers = w.timers)
    (hbuffer : w'.client.buffer ≠ [] → w.client.buffer ≠ []) : Awake w' := by
  have hkept : ∀ q, q.Drives w → q ∈ w.stack → q ∈ w'.stack := by
    intro q hq hmem
    rw [hstack] at hmem
    rw [hstack']
    rcases List.mem_cons.1 hmem with rfl | hmem
    · exact absurd hq hdrives
    · exact List.mem_append_right _ hmem
  have hback : ∀ q, q.Relies → q ∈ w'.stack → q ∈ w.stack := by
    intro q hq hmem
    rw [hstack'] at hmem
    rw [hstack]
    rcases List.mem_append.1 hmem with hmem | hmem
    · exact List.mem_cons.2 (Or.inl (hrelies q hmem hq))
    · exact List.mem_cons_of_mem _ hmem
  -- what drove the connection was not `p`, so it still is on the stack
  have hstarts : Starts w → Starts w' := fun hs => hs.restack hattempts (hkept _ True.intro)
  constructor
  case notClosed =>
    rw [hstate]
    exact h.notClosed
  case called =>
    intro hdisconnected
    exact absurd (hstate.symm.trans hdisconnected) (h.state_ne hstack)
  case driven =>
    intro _
    rw [hstate, htimers]
    refine (h.driven (h.state_ne hstack)).imp (fun hd => hd.restack hattempts hsocket hkept) ?_
    exact fun hd => ⟨hd.1.imp (hkept _ True.intro) id, hd.2⟩
  case armTimer =>
    intro hmem
    rw [hstate]
    exact (h.armTimer (hback _ True.intro hmem)).imp id hstarts
  case keepAlive =>
    intro hash hmem
    rw [hstate]
    exact h.keepAlive hash (hback _ True.intro hmem)
  -- bytes can only have left the buffer
  case frames =>
    intro hmem hne
    rw [hattempts]
    exact (h.frames (hback _ True.intro hmem) (hbuffer hne)).imp hstarts id
  case leftover =>
    intro a leftover hmem hne
    rw [hsocket]
    exact (h.leftover a leftover (hback _ True.intro hmem) hne).imp id hstarts

end Awake

/-- Code does not turn `autoReconnect` on. -/
theorem Runs.autoReconnect {p : Pending S} (hruns : Runs w p w')
    (hauto : w'.client.autoReconnect = true) : w.client.autoReconnect = true := by
  cases hruns with
  | startStream a =>
    rw [Process.setupSocketHandlers] at hauto
    split at hauto <;> exact hauto
  | startStreamLeftover a _ =>
    rw [Process.setupSocketHandlers] at hauto
    split at hauto <;> exact hauto
  | frame _ heffect =>
    cases heffect with
    | close _ => cases hauto
    | write _ out =>
      obtain ⟨sent, hwrite⟩ := Process.write_spec _ out
      rw [hwrite] at hauto
      exact hauto
    | _ => exact hauto
  | answered out =>
    obtain ⟨sent, hwrite⟩ := w.write_spec out
    rw [hwrite] at hauto
    exact hauto
  | _ => exact hauto

/-- The reading of frames is all that relies on anything at the bottom of the stack. -/
theorem bottom {rest : List (Pending S)} (hrest : ∀ q ∈ rest, q.Trails) :
    .armTimer ∉ rest ∧ (∀ hash, .keepAlive hash ∉ rest) ∧
      ∀ a leftover, .startStream a leftover ∉ rest :=
  ⟨fun hmem => hrest _ hmem, fun _ hmem => hrest _ hmem, fun _ _ hmem => hrest _ hmem⟩

/-- The socket that is held gets its listeners. -/
theorem streaming_of_startStream (hsound : Sound w) (hwhole : Whole w) {a c : Nat}
    {leftover : List UInt8} {rest : List (Pending S)}
    (hstack : w.stack = .startStream a leftover :: rest) (hsocket : w.client.socket = some c) :
    ((Process.setupSocketHandlers { w with stack := rest }).attempts c).Streaming := by
  have hmem : .startStream a leftover ∈ w.stack := by simp [hstack]
  obtain ⟨-, -, -, hheld⟩ := hsound.startStream a leftover hmem
  obtain rfl := hheld c hsocket
  have hopen := hwhole.startStream c leftover hmem hsocket
  simpa [Process.setupSocketHandlers, hsocket, Attempt.Streaming] using hopen

section RunningCode

variable {rest : List (Pending S)}

/-- The attempt that is opened leads on. -/
theorem Awake.runs_openConnection (h : Awake w) (hstack : w.stack = .openConnection :: rest) :
    Awake
      { Process.setAttempt { w with stack := rest } w.count
          { phase := .opening, destroyed := false, closed := false, handlers := 0 } with
        count := w.count + 1 } := by
  refine .of_source (Or.inl (Or.inr ⟨w.count, ?_⟩)) h.notClosed (h.state_ne hstack) ?_ ?_ ?_
  · simp [Phase.Starting]
  · exact fun _ => Or.inr ⟨w.count, by simp [Phase.Starting]⟩
  · intro hash hmem
    exact h.keepAlive hash (by simpa [hstack] using hmem)
  · exact fun _ _ _ => Or.inr ⟨w.count, by simp [Phase.Starting]⟩

/-- With the listeners on, the stream leads on. -/
theorem Awake.runs_startStream (h : Awake w) (hsound : Sound w) (hwhole : Whole w) {a : Nat}
    (hstack : w.stack = .startStream a [] :: rest) :
    Awake ((Process.setupSocketHandlers { w with stack := rest }).push .resetAttempts) := by
  obtain ⟨harm, hkeep, hstart⟩ := bottom (hsound.trails hstack id)
  cases hsocket : w.client.socket with
  | none =>
    rw [Process.setupSocketHandlers_of_none (w := { w with stack := rest }) hsocket]
    refine h.next [.resetAttempts] hstack ?_ ?_ rfl rfl rfl rfl rfl id
    · simp [Pending.Drives, hsocket]
    · simp [Pending.Relies]
  | some c =>
    refine .of_source (Or.inr ⟨c, streaming_of_startStream hsound hwhole hstack hsocket⟩) ?_ ?_ ?_
      ?_ ?_
    · simpa using h.notClosed
    · simpa using h.state_ne hstack
    · simp [harm]
    · simp [hkeep]
    · simp [hstart]

/-- So it does when bytes came with the upgrade, which are read at once. -/
theorem Awake.runs_startStreamLeftover (h : Awake w) (hsound : Sound w) (hwhole : Whole w) {a : Nat}
    {leftover : List UInt8} (hleftover : leftover ≠ [])
    (hstack : w.stack = .startStream a leftover :: rest) :
    Awake (((Process.setupSocketHandlers { w with stack := rest }).push
      .resetAttempts).handleRawData a leftover) := by
  obtain ⟨harm, hkeep, hstart⟩ := bottom (hsound.trails hstack id)
  refine .of_source ?_ ?_ ?_ ?_ ?_ ?_
  · cases hsocket : w.client.socket with
    | none =>
      have hstarts := (h.leftover a leftover (by simp [hstack]) hleftover).resolve_left
        (by simp [hsocket])
      rw [Process.setupSocketHandlers_of_none (w := { w with stack := rest }) hsocket]
      exact Or.inl (hstarts.restack rfl (by simp [hstack, Process.handleRawData]))
    | some c => exact Or.inr ⟨c, streaming_of_startStream hsound hwhole hstack hsocket⟩
  · simpa [Process.handleRawData] using h.notClosed
  · simpa [Process.handleRawData] using h.state_ne hstack
  · simp [harm, Process.handleRawData]
  · simp [hkeep, Process.handleRawData]
  · simp [hstart, Process.handleRawData]

/-- A frame that is read came out of the buffer of a connection that leads on. -/
theorem Awake.runs_frame (h : Awake w) (hsound : Sound w) {opcode : UInt8} {payload : List UInt8}
    {n : Nat} (hstack : w.stack = .frames :: rest)
    (hnext : nextFrame (w.client.buffer.map Prod.snd) = some ((opcode, payload), n))
    (heffect : FrameEffect
      (Process.push
        { w with
          client := { w.client with buffer := w.client.buffer.drop n }
          stack := rest } .frames) opcode w')
    (hauto : w'.client.autoReconnect = true) : Awake w' := by
  obtain ⟨harm, hkeep, hstart⟩ := bottom (hsound.trails hstack id)
  have hbuffer : w.client.buffer ≠ [] := by
    intro hnone
    simp [hnone, nextFrame] at hnext
  have hless : (w.client.buffer.drop n) ≠ [] → w.client.buffer ≠ [] := fun _ => hbuffer
  have hsource := h.frames (by simp [hstack]) hbuffer
  cases heffect with
  | close _ => cases hauto
  | challenge _ challenge =>
    refine .of_source ?_ (by simp) (by simp) ?_ ?_ ?_
    · exact hsource.imp (fun hs => hs.restack rfl (by simp [hstack])) id
    · simp [harm]
    · simp [hkeep]
    · simp [hstart]
  | authenticated _ hash =>
    refine .of_source ?_ (by simp) (by simp) ?_ ?_ ?_
    · exact hsource.imp (fun hs => hs.restack rfl (by simp [hstack])) id
    · simp [harm]
    · simp
    · simp [hstart]
  | callback _ c =>
    refine h.next [.callback c, .frames] hstack id ?_ rfl rfl rfl rfl rfl hless
    simp [Pending.Relies]
  | write _ out =>
    obtain ⟨sent, hwrite⟩ := Process.write_spec (Process.push
      { w with
        client := { w.client with buffer := w.client.buffer.drop n }
        stack := rest } .frames) out
    rw [hwrite]
    refine h.next [.frames] hstack id ?_ rfl rfl rfl rfl rfl hless
    simp
  | nothing _ =>
    refine h.next [.frames] hstack id ?_ rfl rfl rfl rfl rfl hless
    simp

/-- The keep-alive clears the timers, so what leads on is not one of them. -/
theorem Awake.runs_keepAlive (h : Awake w) (hsound : Sound w) {hash : Option (Json S)}
    (hstack : w.stack = .keepAlive hash :: rest) :
    Awake ((Process.startPingKeepAlive { w with stack := rest }).push
      (.callback (.onAuthenticated hash))) := by
  obtain ⟨harm, hkeep, hstart⟩ := bottom (hsound.trails hstack id)
  have hcalled := h.state_ne hstack
  have hdriven : Driven w := by
    rcases h.driven hcalled with hd | ⟨-, hresumes⟩
    · exact hd
    · rcases h.keepAlive hash (by simp [hstack]) with hstate | hstate
      · exact absurd hstate hresumes.2
      · exact absurd hstate hresumes.1
  have hkept : ∀ q, q.Drives w → q ∈ w.stack →
      q ∈ .callback (.onAuthenticated hash) :: rest := by
    intro q hq hmem
    rw [hstack] at hmem
    rcases List.mem_cons.1 hmem with rfl | hmem
    · exact absurd hq id
    · exact List.mem_cons_of_mem _ hmem
  constructor
  case notClosed => exact h.notClosed
  case called => exact fun hdisconnected => absurd hdisconnected hcalled
  case driven => exact fun _ => Or.inl (hdriven.restack rfl rfl hkept)
  case armTimer => simp [harm]
  case keepAlive => simp [hkeep]
  case frames =>
    intro hmem hne
    have hframes : .frames ∈ w.stack := by simpa [hstack] using hmem
    exact (h.frames hframes hne).imp (fun hs => hs.restack rfl (hkept _ True.intro)) id
  case leftover => simp [hstart]

/-- `scheduleReconnect` calls back before it cleans up and arms the timer that leads on. -/
theorem Awake.runs_reconnect (h : Awake w) (hsound : Sound w)
    (hstack : w.stack = .reconnectOrStop :: rest) :
    Awake ((Process.push { w with stack := rest } .armTimer).setState .reconnecting) := by
  obtain ⟨harm, hkeep, hstart⟩ := bottom (hsound.trails hstack id)
  constructor
  case notClosed => simp
  case called => simp
  case driven => exact fun _ => Or.inr ⟨Or.inl (by simp), by simp [WsClientState.Resumes]⟩
  case armTimer => exact fun _ => Or.inl rfl
  case keepAlive => simp [hkeep]
  case frames =>
    intro hmem hne
    have hframes : .frames ∈ w.stack := by simpa [hstack] using hmem
    exact (h.frames hframes hne).imp (fun hs => hs.restack rfl (by simp [hstack])) id
  case leftover => simp [hstart]

/-- The timer leads on, unless the callback before it has opened another connection. -/
theorem Awake.runs_armTimer (h : Awake w) (hsound : Sound w) (hstack : w.stack = .armTimer :: rest)
    (hruns : Runs { w with stack := rest } .armTimer w') : Awake w' := by
  obtain ⟨harm, hkeep, hstart⟩ := bottom (hsound.trails hstack id)
  cases hruns
  constructor
  case notClosed => exact h.notClosed
  case called => exact fun hdisconnected => absurd hdisconnected (h.state_ne hstack)
  case driven =>
    intro _
    rcases h.armTimer (by simp [hstack]) with hstate | hopen | ⟨a, ha⟩
    · refine Or.inr ⟨Or.inr (List.cons_ne_nil _ _), ?_⟩
      simp [hstate, WsClientState.Resumes]
    · exact Or.inl (.starts (Or.inl (by simpa [hstack] using hopen)))
    · refine Or.inl (.starts (Or.inr ⟨a, ?_⟩))
      simp only [Process.cleanupSocket_attempts]
      split
      · exact ha
      · exact ha
  case armTimer => simp [harm]
  case keepAlive => simp [hkeep]
  case frames => exact fun _ hne => absurd rfl hne
  case leftover => simp [hstart]

/-- Data comes from a socket whose close has not been heard. -/
theorem Awake.runs_onData (h : Awake w) (hsound : Sound w) {a : Nat} {chunk : List UInt8}
    (hstack : w.stack = .onData a chunk :: rest) :
    Awake (Process.handleRawData { w with stack := rest } a chunk) := by
  obtain ⟨hpos, hlive⟩ := hsound.onData a chunk (by simp [hstack])
  have hrest := hsound.alone hstack True.intro
  subst hrest
  refine .of_source (Or.inr ⟨a, hpos, ?_⟩) h.notClosed (h.state_ne hstack) ?_ ?_ ?_
  · cases hclosed : (w.attempts a).closed with
    | false => exact hclosed
    | true => cases hlive.symm.trans (hsound.closed a hclosed)
  · simp [Process.handleRawData]
  · simp [Process.handleRawData]
  · simp [Process.handleRawData]

/-- After a close that is heard the failure has yet to be handled. -/
theorem Awake.runs_onClose (h : Awake w) (hsound : Sound w) (hstack : w.stack = .onClose :: rest) :
    Awake (((Process.cleanupTimers { w with stack := rest }).push .reconnectOrStop).push
      (.callback .onDisconnect)) := by
  have hrest := hsound.alone hstack True.intro
  subst hrest
  refine .of_free ?_ h.notClosed (h.state_ne hstack) (Or.inl (.failed ?_))
  · simp [Pending.Relies]
  · simp

end RunningCode

/-- The code on top of the stack goes on. -/
theorem Awake.runs (h : Awake w) (hsound : Sound w) (hwhole : Whole w) {p : Pending S}
    {rest : List (Pending S)} (hstack : w.stack = p :: rest)
    (hruns : Runs { w with stack := rest } p w') (hauto : w'.client.autoReconnect = true) :
    Awake w' := by
  have hauto' : w.client.autoReconnect = true := hruns.autoReconnect hauto
  cases hruns with
  | openConnection => exact h.runs_openConnection hstack
  | startStream _ => exact h.runs_startStream hsound hwhole hstack
  | startStreamLeftover _ hleftover => exact h.runs_startStreamLeftover hsound hwhole hleftover hstack
  | resetAttempts =>
    exact h.next [] hstack id (fun _ hq => by cases hq) rfl rfl rfl rfl rfl id
  | framesDone _ =>
    exact h.next [] hstack id (fun _ hq => by cases hq) rfl rfl rfl rfl rfl id
  | frame hnext heffect => exact h.runs_frame hsound hstack hnext heffect hauto
  | answered out =>
    obtain ⟨sent, hwrite⟩ := Process.write_spec { w with stack := rest } out
    rw [hwrite]
    exact h.next [] hstack id (fun _ hq => by cases hq) rfl rfl rfl rfl rfl id
  | unanswered =>
    refine h.next [.callback (.onError .challenge), .reconnectOrStop] hstack id ?_ rfl rfl
      rfl rfl rfl id
    simp [Pending.Relies]
  | keepAlive _ => exact h.runs_keepAlive hsound hstack
  | reconnect _ => exact h.runs_reconnect hsound hstack
  | stop hstop => cases hstop.symm.trans hauto'
  | armTimer => exact h.runs_armTimer hsound hstack .armTimer
  | onData _ _ => exact h.runs_onData hsound hstack
  -- `connect` has been called and `disconnect` has not
  | onCloseIdle hstate => exact absurd hstate (not_or.2 ⟨h.notClosed, h.state_ne hstack⟩)
  | onClose _ => exact h.runs_onClose hsound hstack
  | onError =>
    refine h.next [.callback (.onError .socket)] hstack id ?_ rfl rfl rfl rfl rfl id
    simp [Pending.Relies]

/-- A call of `connect` that does not return at once leads on. -/
theorem awake_connect (hresumes : w.client.state.Resumes) : Awake w.connect := by
  rw [Process.connect_of_resumes hresumes]
  have hstarts : Starts ((Process.push { w with client := { w.client with autoReconnect := true } }
      .openConnection).setState .connecting) := Or.inl (by simp)
  exact .of_source (Or.inl hstarts) (by simp) (by simp) (fun _ => hstarts) (fun _ _ => Or.inr rfl)
    fun _ _ _ => hstarts

namespace Awake

/-- What has been sent makes no difference. -/
theorem withRecord (h : Awake w) (sent : List (Nat × Outgoing S)) (ended : Option Nat) :
    Awake { w with sent, ended } := by
  have hstarts : Starts w → Starts { w with sent, ended } := fun hs => hs.restack rfl id
  exact
    { notClosed := h.notClosed
      called := h.called
      driven := fun hne => (h.driven hne).imp (fun hd => hd.restack rfl rfl fun _ _ => id) id
      armTimer := fun hmem => (h.armTimer hmem).imp id hstarts
      keepAlive := h.keepAlive
      frames := fun hmem hne => (h.frames hmem hne).imp hstarts id
      leftover := fun a leftover hmem hne => (h.leftover a leftover hmem hne).imp id hstarts }

/-- In a state in which `connect` returns at once the timers make no difference. -/
theorem withTimers (h : Awake w) (hidle : w.stack = []) (hresumes : ¬ w.client.state.Resumes)
    (timers : List Nat) : Awake { w with timers } := by
  have hcalled : w.client.state ≠ .disconnected := by
    intro hstate
    exact hresumes (by simp [hstate, WsClientState.Resumes])
  refine .of_free (by simp [hidle]) h.notClosed hcalled (Or.inl ?_)
  rcases h.driven hcalled with hd | ⟨-, hyes⟩
  · exact hd.restack rfl rfl fun _ _ => id
  · exact absurd hyes hresumes

/-- Once an attempt has been made, `connect` has been called. -/
theorem state_ne_of_made (h : Awake w) {a : Nat} (ha : a < w.count) :
    w.client.state ≠ .disconnected := by
  intro hstate
  have hzero := (h.called hstate).1
  omega

/-- Between events, a connection is driven or a timer is armed. -/
theorem idle (h : Awake w) (hidle : w.stack = []) (hcalled : w.client.state ≠ .disconnected) :
    Driven w ∨ w.timers ≠ [] ∧ w.client.state.Resumes := by
  simpa [hidle] using h.driven hcalled

end Awake

/-- Between events, when one attempt changes. -/
theorem Driven.setAttempt (h : Driven w) (hidle : w.stack = []) {a : Nat} {x : Attempt S}
    (hattempts : w'.attempts = Function.update w.attempts a x)
    (hsocket : w'.client.socket = w.client.socket)
    (hstarting : (w.attempts a).phase.Starting → Driven w')
    (hstreaming : (w.attempts a).Streaming → Driven w')
    (hupgrading : w.client.socket = some a → (w.attempts a).phase.Upgrading → Driven w') :
    Driven w' := by
  cases h with
  | starts h =>
    obtain ⟨b, hb⟩ := h.resolve_left (by simp [hidle])
    by_cases hba : b = a
    · subst hba
      exact hstarting hb
    · exact .starts (Or.inr ⟨b, by simpa [hattempts, hba] using hb⟩)
  | streaming b hb =>
    by_cases hba : b = a
    · subst hba
      exact hstreaming hb
    · exact .streaming b (by simpa [hattempts, hba] using hb)
  | upgrading b hheld hb =>
    by_cases hba : b = a
    · subst hba
      exact hupgrading hheld hb
    · exact .upgrading b (hsocket.trans hheld) (by simpa [hattempts, hba] using hb)
  | startStream b leftover hb _ => simp [hidle] at hb
  | closed hb => simp [hidle] at hb
  | failed hb => simp [hidle] at hb

/-- Listeners of a socket that rely on nothing are to run, and what drove the connection still does. -/
theorem Awake.socketEvent (h : Awake w) (hidle : w.stack = [])
    (hcalled : w.client.state ≠ .disconnected) {a : Nat} {x : Attempt S} {stack : List (Pending S)}
    (hfree : ∀ p ∈ stack, ¬ p.Relies)
    (hstarting : (w.attempts a).phase.Starting → Driven { w.setAttempt a x with stack := stack })
    (hstreaming : (w.attempts a).Streaming → Driven { w.setAttempt a x with stack := stack })
    (hupgrading : w.client.socket = some a → (w.attempts a).phase.Upgrading →
      Driven { w.setAttempt a x with stack := stack }) :
    Awake { w.setAttempt a x with stack := stack } :=
  .of_free hfree h.notClosed hcalled ((h.idle hidle hcalled).imp
    (fun hd => hd.setAttempt hidle rfl rfl hstarting hstreaming hupgrading) id)

/-- The handshake has ended: the stream is started, or the socket has been given up. -/
theorem Awake.resumeUpgraded (h : Awake w) (hidle : w.stack = [])
    (hcalled : w.client.state ≠ .disconnected) {a : Nat} {leftover : List UInt8}
    (hphase : (w.attempts a).phase = .upgraded leftover)
    (hcovered : w.client.socket = some a ∨ w.client.socket = none ∧ leftover = []) :
    Awake (((w.setAttempt a { w.attempts a with phase := .settled }).push
      (.startStream a leftover)).setState .awaitingChallenge) := by
  constructor
  case notClosed => simp
  case called => simp
  case driven =>
    intro _
    rcases hcovered with hheld | ⟨hnone, -⟩
    · exact Or.inl (.startStream a leftover (by simp) hheld)
    · -- another attempt or a timer drives the connection
      refine (h.idle hidle hcalled).imp (fun hd => ?_) fun ht => ⟨Or.inr ht.1, ?_⟩
      · refine hd.setAttempt hidle rfl rfl (fun hstarting => ?_) (fun hstreaming => ?_)
          fun hheld _ => ?_
        · simp [hphase, Phase.Starting] at hstarting
        · exact .streaming a (by simpa [Attempt.Streaming] using hstreaming)
        · cases hnone.symm.trans hheld
      · simp [WsClientState.Resumes]
  case armTimer => simp [hidle]
  case keepAlive => simp [hidle]
  case frames => simp [hidle]
  case leftover =>
    intro b leftover' hmem hne
    obtain ⟨rfl, rfl⟩ : b = a ∧ leftover' = leftover := by simpa [hidle] using hmem
    exact Or.inl (hcovered.resolve_right fun hnone => hne hnone.2)

/-- What sockets, timers and promises do when no close goes unheard. -/
theorem Awake.occurs {utf8 : List UInt8 → S} (h : w.client.autoReconnect = true → Awake w)
    (hsound : Sound w) (hidle : w.stack = []) {e : Event S} (hcovered : Covered w e)
    (hoccurs : Occurs utf8 w e w') (hauto : w'.client.autoReconnect = true) : Awake w' := by
  cases hoccurs with
  | @opened a hphase _ =>
    have hcalled := (h hauto).state_ne_of_made (hsound.lt_count (a := a) (by simp [hphase]))
    refine .of_free (by simp [hidle]) (h hauto).notClosed hcalled (Or.inl (.starts (Or.inr ⟨a, ?_⟩)))
    simp [Phase.Starting]
  | @openFailed a hphase =>
    have hcalled := (h hauto).state_ne_of_made (hsound.lt_count (a := a) (by simp [hphase]))
    refine .of_free (by simp [hidle]) (h hauto).notClosed hcalled (Or.inl (.starts (Or.inr ⟨a, ?_⟩)))
    simp [Phase.Starting]
  | @resumeOpened a hphase =>
    obtain ⟨sent, hwrite⟩ := Process.write_spec
      { w.setAttempt a { w.attempts a with phase := .upgrading [] } with
        client := { w.client with socket := some a } } .upgradeRequest
    rw [hwrite] at hauto ⊢
    have hcalled := (h hauto).state_ne_of_made (hsound.lt_count (a := a) (by simp [hphase]))
    refine .of_free (by simp [hidle]) (h hauto).notClosed hcalled (Or.inl (.upgrading a rfl ?_))
    simp [Phase.Upgrading]
  | @resumeUpgraded a leftover hphase =>
    have hcalled := (h hauto).state_ne_of_made (hsound.lt_count (a := a) (by simp [hphase]))
    exact (h hauto).resumeUpgraded hidle hcalled hphase (hcovered leftover hphase)
  | @resumeFailed a error hphase =>
    have hcalled := (h hauto).state_ne_of_made (hsound.lt_count (a := a) (by simp [hphase]))
    refine .of_free ?_ (h hauto).notClosed hcalled (Or.inl (.failed ?_))
    · simp [Process.handleConnectionFailure, Pending.Relies, hidle]
    · simp [Process.handleConnectionFailure]
  | @data a chunk hlive =>
    have hcalled := (h hauto).state_ne_of_made (hsound.lt_of_live hlive)
    refine (h hauto).socketEvent hidle hcalled (by simp [Pending.Relies]) (fun hstarting => ?_)
      (fun hstreaming => ?_) fun hheld hupgrading => ?_
    · refine .starts (Or.inr ⟨a, ?_⟩)
      rcases onHandshakeData_spec utf8 chunk (w.attempts a).phase with hsame | ⟨_, hbefore, -⟩
      · simpa [hsame] using hstarting
      · simp [hbefore, Phase.Starting] at hstarting
    · exact .streaming a (by simpa [Attempt.Streaming] using hstreaming)
    · -- the handshake goes on, or it is over and the attempt resumes
      rcases onHandshakeData_spec utf8 chunk (w.attempts a).phase with
        hsame | ⟨_, -, ⟨_, hnew⟩ | ⟨_, hnew⟩ | ⟨_, hnew⟩⟩
      · exact .upgrading a hheld (by simpa [hsame] using hupgrading)
      · exact .upgrading a hheld (by simp [hnew, Phase.Upgrading])
      · exact .upgrading a hheld (by simp [hnew, Phase.Upgrading])
      · exact .starts (Or.inr ⟨a, by simp [hnew, Phase.Starting]⟩)
  | @error a hlive =>
    have hcalled := (h hauto).state_ne_of_made (hsound.lt_of_live hlive)
    refine (h hauto).socketEvent hidle hcalled (by simp [Pending.Relies]) (fun hstarting => ?_)
      (fun hstreaming => ?_) fun hheld hupgrading => ?_
    · refine .starts (Or.inr ⟨a, ?_⟩)
      rcases onSocketError_spec (w.attempts a).phase with ⟨-, hnew⟩ | ⟨-, hsame⟩
      · simp [hnew, Phase.Starting]
      · simpa [hsame] using hstarting
    · exact .streaming a (by simpa [Attempt.Streaming] using hstreaming)
    · exact absurd (Or.inr ⟨hheld, hupgrading⟩) hcovered
  | @close a hopen =>
    have hcalled := (h hauto).state_ne_of_made (hsound.lt_of_open hopen)
    refine (h hauto).socketEvent hidle hcalled (by simp [Pending.Relies]) (fun hstarting => ?_)
      (fun hstreaming => ?_) fun hheld hupgrading => ?_
    · exact .starts (Or.inr ⟨a, by simpa using hstarting⟩)
    · -- the listener is called
      exact .closed (by simpa using Nat.ne_of_gt hstreaming.1)
    · exact absurd (Or.inr ⟨hheld, hupgrading⟩) hcovered
  | @reconnect t _ =>
    by_cases hresumes : w.client.state.Resumes
    · exact awake_connect hresumes
    · rw [Process.connect_of_not_resumes (w := { w with timers := w.timers.erase t }) hresumes]
        at hauto ⊢
      exact (h hauto).withTimers hidle hresumes _
  | ping _ out =>
    obtain ⟨sent, hwrite⟩ := w.write_spec out
    rw [hwrite] at hauto ⊢
    exact (h hauto).withRecord sent w.ended

/-- Every covered step keeps it. -/
theorem Awake.steps {utf8 : List UInt8 → S} (h : w.client.autoReconnect = true → Awake w)
    (hsound : Sound w) (hwhole : Whole w) {e : Event S} (hcovered : Covered w e)
    (hsteps : Steps utf8 w e w') (hauto : w'.client.autoReconnect = true) : Awake w' := by
  cases hsteps with
  | connect _ =>
    by_cases hresumes : w.client.state.Resumes
    · exact awake_connect hresumes
    · rw [Process.connect_of_not_resumes (w := { w with ended := none }) hresumes] at hauto ⊢
      exact (h hauto).withRecord w.sent none
  | disconnect _ => cases hauto
  | sendJson _ data =>
    obtain ⟨sent, hwrite⟩ := w.write_spec (.text data)
    rw [hwrite] at hauto ⊢
    exact (h hauto).withRecord sent w.ended
  | returned hstack =>
    exact (h hauto).next [] hstack id (fun _ hq => by cases hq) rfl rfl rfl rfl rfl id
  | run hstack hruns =>
    exact (h (hruns.autoReconnect hauto)).runs hsound hwhole hstack hruns hauto
  | occur hidle hoccurs => exact .occurs h hsound hidle hcovered hoccurs hauto

/-! ## Runs -/

theorem whole_start : Whole (.start : Process S) where
  opened a ha := by cases ha
  started a ha := by cases ha
  upgrading a ha := by cases ha
  startStream a leftover ha := by cases ha

theorem awake_start : Awake (.start : Process S) where
  notClosed := by simp [Process.start]
  called _ := ⟨rfl, rfl⟩
  driven hne := absurd rfl hne
  armTimer hmem := by cases hmem
  keepAlive hash hmem := by cases hmem
  frames hmem := by cases hmem
  leftover a leftover hmem := by cases hmem

/-- The client never wedges. In every run in which no close goes unheard, whenever no code is running,
`connect()` has been called, and `disconnect()` not since then, a timer is armed whose call of
`connect` will not return at once, or an attempt is under way or has an open socket. -/
theorem never_wedges [DecidableEq S] {P : Primitives B S} {L : ClientLibrary B S}
    {identity : UserIdentity B S} {utf8 : List UInt8 → S} {w : Process S}
    (h : Run P L identity utf8 Covered w) (hauto : w.client.autoReconnect = true)
    (hcalled : 0 < w.count) (hidle : w.stack = []) :
    w.timers ≠ [] ∧ w.client.state.Resumes ∨ ∃ a, Live w a := by
  suffices hinv : Sound w ∧ Whole w ∧ (w.client.autoReconnect = true → Awake w) by
    obtain ⟨-, hwhole, hawake⟩ := hinv
    have hstate : w.client.state ≠ .disconnected := by
      intro hdisconnected
      have hzero := ((hawake hauto).called hdisconnected).1
      omega
    rcases (hawake hauto).idle hidle hstate with hdriven | htimer
    · refine Or.inr ?_
      cases hdriven with
      | starts hstarts =>
        obtain ⟨a, ha⟩ := hstarts.resolve_left (by simp [hidle])
        exact ⟨a, Or.inl ha⟩
      | streaming a ha => exact ⟨a, Or.inr (Or.inr ha)⟩
      | upgrading a hheld ha =>
        exact ⟨a, Or.inr (Or.inl ⟨hheld, ha, hwhole.upgrading a hheld ha⟩)⟩
      | startStream a leftover hmem _ => simp [hidle] at hmem
      | closed hmem => simp [hidle] at hmem
      | failed hmem => simp [hidle] at hmem
    · exact Or.inl htimer
  refine Reachable.invariant
    (p := fun w => Sound w ∧ Whole w ∧ (w.client.autoReconnect = true → Awake w)) h
    ⟨sound_start, whole_start, fun _ => awake_start⟩ ?_
  rintro w w' e ⟨hsound, hwhole, hawake⟩ hcovered hstep
  have hsteps := steps_of_step hstep
  exact ⟨hsound.steps hcovered.ownSocket hsteps, hwhole.steps hsound hcovered hsteps,
    Awake.steps hawake hsound hwhole hcovered hsteps⟩

section

open TorE2EE.Crypto.Sym

/-- The upgrade is accepted, the socket gets its listeners, and the server closes it. -/
def closedByServer : List (Event Sym) :=
  connecting ++ [.opened 0, .resume 0, .data 0 upgradeAccepted, .resume 0, .returned, .run, .run,
    .close 0, .run, .returned, .run, .returned, .run]

/-- An event of which `Covered` asks nothing. -/
def Event.asksNothing : Event S → Bool
  | .error _ => false
  | .close _ => false
  | .resume _ => false
  | _ => true

theorem covered_of_asksNothing (events : List (Event S))
    (h : events.all Event.asksNothing = true) : ∀ e ∈ events, ∀ w : Process S, Covered w e := by
  intro e he w
  have hnothing := List.all_eq_true.1 h e he
  cases e with
  | error a => cases hnothing
  | close a => cases hnothing
  | resume a => cases hnothing
  | _ => exact True.intro

/-- After a close while the challenge is awaited the reconnect timer is armed. -/
theorem never_wedges_symbolic :
    ∃ w, runActions symbolicStep closedByServer .start = some w ∧
      (w.timers ≠ [] ∧ w.client.state.Resumes ∨ ∃ a, Live w a) := by
  have hopened : Reachable symbolicStep Covered .start _ :=
    Reachable.start.of_runActions
      (covered_of_asksNothing (connecting ++ [.opened 0]) rfl) rfl
  have hsent := hopened.step (Event.resume 0) (fun _ hphase => by cases hphase) rfl
  have haccepted := hsent.of_runActions
    (covered_of_asksNothing [.data 0 upgradeAccepted] rfl) rfl
  have hresumed := haccepted.step (Event.resume 0) (fun _ _ => Or.inl rfl) rfl
  have hstreaming := hresumed.of_runActions
    (covered_of_asksNothing [.returned, .run, .run] rfl) rfl
  have hclosed := hstreaming.step (Event.close 0)
    (fun hunheard => hunheard.elim (fun hphase => by cases hphase) And.right) rfl
  have harmed := hclosed.of_runActions
    (covered_of_asksNothing [.run, .returned, .run, .returned, .run] rfl) rfl
  exact ⟨_, rfl, never_wedges harmed rfl (Nat.succ_pos 0) rfl⟩

/-- A close during the upgrade handshake leaves the client `CONNECTING`, with nothing to come. -/
theorem close_during_upgrade_wedges :
    ¬ ∀ w : Process Sym,
      Run symbolicClient symbolicLibrary (symbolicIdentity 1) symbolicUtf8 (fun _ _ => True) w →
      w.client.autoReconnect = true → 0 < w.count → w.stack = [] →
      w.timers ≠ [] ∧ w.client.state.Resumes ∨ ∃ a, Live w a := by
  intro hnever
  obtain ⟨w, hrun, hauto, hcount, hstack, htimers, hattempts, hothers⟩ :
      ∃ w, runActions symbolicStep (connecting ++ [.opened 0, .resume 0, .close 0]) .start = some w ∧
        w.client.autoReconnect = true ∧ w.count = 1 ∧ w.stack = [] ∧ w.timers = [] ∧
        w.attempts 0 = { phase := .upgrading [], destroyed := true, closed := true, handlers := 0 } ∧
        ∀ a, w.attempts (a + 1) = .none :=
    ⟨_, rfl, rfl, rfl, rfl, rfl, rfl, fun _ => rfl⟩
  rcases hnever w (Reachable.start.of_runActions (fun _ _ _ => True.intro) hrun) hauto
    (by omega) hstack with ⟨htimer, -⟩ | ⟨a, hlive⟩
  · exact htimer htimers
  · cases a with
    | zero => simp [Live, hattempts, Phase.Starting, Attempt.Streaming] at hlive
    | succ a =>
      simp [Live, hothers, Attempt.none, Phase.Starting, Phase.Upgrading, Attempt.Streaming] at hlive

end

end TorE2EE.Client.Stream
