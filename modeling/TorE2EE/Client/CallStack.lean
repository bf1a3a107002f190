import TorE2EE.Client.StreamSteps
import TorE2EE.Foundation.Machine

/-!
# The call stack and the listeners

What holds in every run in which an accepted upgrade is taken up while no other socket is held. The
interrupted code lies in layers: callbacks of the owner and the calls of `connect` made in them on
top, at most one interrupted method under them, and the reading of frames at the bottom. The
listeners of the client are on a socket at most once, after its attempt has been settled, and at most
one of them is to be called.
-/

set_option autoImplicit false

namespace TorE2EE.Client.Stream

open TorE2EE.Foundation TorE2EE.Crypto

variable {B S : Type}

/-- A callback that is running, or a call of `connect` made in one. -/
def Pending.Waits : Pending S → Prop
  | .callback _ => True
  | .openConnection => True
  | _ => False

/-- The reading of frames, and the end of `connect` after it. -/
def Pending.Trails : Pending S → Prop
  | .frames => True
  | .resetAttempts => True
  | _ => False

/-- A listener that is to be called. -/
def Pending.Listens : Pending S → Prop
  | .onData _ _ => True
  | .onClose => True
  | .onError => True
  | _ => False

/-- The sockets and the listeners on them. -/
structure Wired (w : Process S) : Prop where
  unused : ∀ a, w.count ≤ a → w.attempts a = .none
  held : ∀ a, w.client.socket = some a → a < w.count
  closed : ∀ a, (w.attempts a).closed = true → (w.attempts a).destroyed = true
  handlers : ∀ a, (w.attempts a).handlers ≤ 1
  attached : ∀ a, 0 < (w.attempts a).handlers → (w.attempts a).phase = .settled

/-- The sockets, and the code that is still to run. -/
structure Sound (w : Process S) : Prop extends Wired w where
  layered : w.stack.Pairwise fun p q => p.Waits ∨ q.Trails
  listeners : ∀ p ∈ w.stack, p.Listens → w.stack = [p]
  onData : ∀ a chunk, .onData a chunk ∈ w.stack →
    0 < (w.attempts a).handlers ∧ (w.attempts a).destroyed = false
  startStream : ∀ a leftover, .startStream a leftover ∈ w.stack →
    a < w.count ∧ (w.attempts a).phase = .settled ∧ (w.attempts a).handlers = 0 ∧
      ∀ c, w.client.socket = some c → c = a

/-- No listener is to be called. -/
structure Calm (w : Process S) : Prop extends Sound w where
  quiet : ∀ p ∈ w.stack, ¬ p.Listens

/-- `connect` takes up an accepted upgrade only while no other socket is held. -/
def OwnSocket (w : Process S) : Event S → Prop
  | .resume a => ∀ leftover, (w.attempts a).phase = .upgraded leftover →
      ∀ c, w.client.socket = some c → c = a
  | _ => True

/-- `connect` does not return at once in the state. -/
def WsClientState.Resumes (s : WsClientState) : Prop :=
  s ≠ .connecting ∧ s ≠ .connectedAuthenticated

/-! ## Parts of the methods -/

theorem Process.connect_of_resumes {w : Process S} (hresumes : w.client.state.Resumes) :
    w.connect = (Process.push { w with client := { w.client with autoReconnect := true } }
      .openConnection).setState .connecting :=
  if_neg fun hguard => hguard.elim hresumes.1 hresumes.2

theorem Process.connect_of_not_resumes {w : Process S}
    (hresumes : ¬ w.client.state.Resumes) : w.connect = w := by
  refine if_pos ?_
  by_contra hguard
  exact hresumes ⟨fun h => hguard (Or.inl h), fun h => hguard (Or.inr h)⟩

/-- A write changes nothing but what has been sent. -/
theorem Process.write_spec (w : Process S) (out : Outgoing S) :
    ∃ sent, w.write out = { w with sent } := by
  rw [write]
  split
  · exact ⟨w.sent, rfl⟩
  · split
    · exact ⟨w.sent, rfl⟩
    · exact ⟨_, rfl⟩

@[simp] theorem Process.stack_setupSocketHandlers (w : Process S) :
    w.setupSocketHandlers.stack = w.stack := by
  rw [setupSocketHandlers]
  split <;> rfl

@[simp] theorem Process.client_setupSocketHandlers (w : Process S) :
    w.setupSocketHandlers.client = w.client := by
  rw [setupSocketHandlers]
  split <;> rfl

@[simp] theorem Process.phase_setupSocketHandlers (w : Process S) (a : Nat) :
    (w.setupSocketHandlers.attempts a).phase = (w.attempts a).phase := by
  rw [setupSocketHandlers]
  split
  · rfl
  · next b _ =>
    by_cases hab : a = b
    · subst hab
      simp
    · simp [hab]

@[simp] theorem Process.stack_startPingKeepAlive (w : Process S) :
    w.startPingKeepAlive.stack = w.stack := rfl

/-- An attempt that was made is not one that was not. -/
theorem Wired.lt_count {w : Process S} (h : Wired w) {a : Nat}
    (hphase : (w.attempts a).phase ≠ .settled) : a < w.count := by
  by_contra hle
  apply hphase
  rw [h.unused a (by omega)]
  rfl

theorem Wired.lt_of_open {w : Process S} (h : Wired w) {a : Nat}
    (hopen : (w.attempts a).closed = false) : a < w.count := by
  by_contra hle
  rw [h.unused a (by omega)] at hopen
  cases hopen

theorem Wired.lt_of_live {w : Process S} (h : Wired w) {a : Nat}
    (hlive : (w.attempts a).destroyed = false) : a < w.count := by
  by_contra hle
  rw [h.unused a (by omega)] at hlive
  cases hlive

theorem Wired.cleanupSocket {w : Process S} (h : Wired w) : Wired w.cleanupSocket where
  unused a ha := by
    have hnone := h.unused a ha
    simp only [Process.cleanupSocket_attempts]
    split
    · rw [hnone]
      rfl
    · exact hnone
  held a ha := by cases ha
  closed a := by
    simp only [Process.cleanupSocket_attempts]
    split
    · intro _
      rfl
    · exact h.closed a
  handlers a := by
    simp only [Process.cleanupSocket_attempts]
    split
    · exact Nat.zero_le 1
    · exact h.handlers a
  attached a := by
    simp only [Process.cleanupSocket_attempts]
    split
    · exact fun hpos => absurd hpos (Nat.lt_irrefl 0)
    · exact h.attached a

/-- Another state of an attempt that has been made. -/
theorem Wired.setAttempt {w : Process S} (h : Wired w) {a : Nat} {x : Attempt S} (ha : a < w.count)
    (hclosed : x.closed = true → x.destroyed = true) (hhandlers : x.handlers ≤ 1)
    (hattached : 0 < x.handlers → x.phase = .settled) : Wired (w.setAttempt a x) where
  unused b hb := by
    have hne : b ≠ a := by
      have hcount : w.count ≤ b := hb
      omega
    simpa [hne] using h.unused b hb
  held := h.held
  closed b := by
    by_cases hb : b = a
    · subst hb
      simpa using hclosed
    · simpa [hb] using h.closed b
  handlers b := by
    by_cases hb : b = a
    · subst hb
      simpa using hhandlers
    · simpa [hb] using h.handlers b
  attached b := by
    by_cases hb : b = a
    · subst hb
      simpa using hattached
    · simpa [hb] using h.attached b

/-- When no code is to run, the sockets are all there is. -/
theorem Wired.idle {w : Process S} (h : Wired w) (hidle : w.stack = []) : Calm w where
  toWired := h
  layered := by simp [hidle]
  listeners := by simp [hidle]
  onData := by simp [hidle]
  startStream := by simp [hidle]
  quiet := by simp [hidle]

/-- The listeners of an event are called. -/
theorem Wired.listen {w : Process S} (h : Wired w) {n : Nat} (hn : n ≤ 1) (p : Pending S)
    (hp : p.Listens)
    (hdata : ∀ a chunk, 0 < n → p = .onData a chunk →
      0 < (w.attempts a).handlers ∧ (w.attempts a).destroyed = false) :
    Sound { w with stack := List.replicate n p } where
  toWired := { h with }
  layered := by
    obtain rfl | rfl : n = 0 ∨ n = 1 := by omega
    · simp
    · simp
  listeners q hq _ := by
    obtain rfl | rfl : n = 0 ∨ n = 1 := by omega
    · cases hq
    · rw [List.eq_of_mem_replicate hq]
      rfl
  onData a chunk ha := by
    have hpos : 0 < n := by
      by_contra hzero
      obtain rfl : n = 0 := by omega
      cases ha
    exact hdata a chunk hpos (List.eq_of_mem_replicate ha).symm
  startStream a leftover ha := by
    rw [← List.eq_of_mem_replicate ha] at hp
    exact absurd hp id

namespace Sound

variable {w : Process S}

/-- The code on top of the stack is taken off. -/
theorem pop (h : Sound w) {p : Pending S} {rest : List (Pending S)} (hstack : w.stack = p :: rest) :
    Calm { w with stack := rest } where
  toWired := { h with }
  layered := by
    have hlayered := h.layered
    rw [hstack] at hlayered
    exact hlayered.of_cons
  listeners q hq hlistens := by
    have hone := h.listeners q (by simp [hstack, hq]) hlistens
    rw [hstack] at hone
    cases hone
    cases hq
  onData a chunk ha := h.onData a chunk (by simp [hstack, ha])
  startStream a leftover ha := h.startStream a leftover (by simp [hstack, ha])
  quiet q hq hlistens := by
    have hone := h.listeners q (by simp [hstack, hq]) hlistens
    rw [hstack] at hone
    cases hone
    cases hq

/-- Under code that is running there is only the reading of frames. -/
theorem trails (h : Sound w) {p : Pending S} {rest : List (Pending S)} (hstack : w.stack = p :: rest)
    (hp : ¬ p.Waits) : ∀ q ∈ rest, q.Trails := by
  intro q hq
  have hlayered := h.layered
  rw [hstack, List.pairwise_cons] at hlayered
  exact (hlayered.1 q hq).resolve_left hp

/-- Under a listener there is nothing. -/
theorem alone (h : Sound w) {p : Pending S} {rest : List (Pending S)} (hstack : w.stack = p :: rest)
    (hp : p.Listens) : rest = [] := by
  have hone := h.listeners p (by simp [hstack]) hp
  rw [hstack] at hone
  exact (List.cons.inj hone).2

/-- The owner acts when no listener is to be called. -/
theorem calm (h : Sound w) (hturn : w.ownersTurn = true) : Calm w where
  toSound := h
  quiet p hp hlistens := by
    have hone := h.listeners p hp hlistens
    rw [Process.ownersTurn] at hturn
    rw [hone] at hturn
    cases p with
    | callback c => exact hlistens
    | _ => cases hturn

end Sound

namespace Calm

variable {w : Process S}

theorem push (h : Calm w) {p : Pending S} (hp : p.Waits ∨ ∀ q ∈ w.stack, q.Trails)
    (hquiet : ¬ p.Listens)
    (hstart : ∀ a leftover, p = .startStream a leftover →
      a < w.count ∧ (w.attempts a).phase = .settled ∧ (w.attempts a).handlers = 0 ∧
        ∀ c, w.client.socket = some c → c = a) : Calm (w.push p) where
  toWired := { h with }
  layered := by
    refine List.pairwise_cons.2 ⟨fun q hq => ?_, h.layered⟩
    exact hp.imp id fun hall => hall q hq
  listeners q hq hlistens := by
    rcases List.mem_cons.1 hq with rfl | hq
    · exact absurd hlistens hquiet
    · exact absurd hlistens (h.quiet q hq)
  onData a chunk ha := by
    rcases List.mem_cons.1 ha with rfl | ha
    · exact absurd True.intro hquiet
    · exact h.onData a chunk ha
  startStream a leftover ha := by
    rcases List.mem_cons.1 ha with rfl | ha
    · exact hstart a leftover rfl
    · exact h.startStream a leftover ha
  quiet q hq := by
    rcases List.mem_cons.1 hq with rfl | hq
    · exact hquiet
    · exact h.quiet q hq

/-- A method that is no listener and does not attach any is interrupted. -/
theorem interrupt (h : Calm w) (p : Pending S) (hrest : ∀ q ∈ w.stack, q.Trails)
    (hquiet : ¬ p.Listens) (hstart : ∀ a leftover, p ≠ .startStream a leftover) : Calm (w.push p) :=
  h.push (Or.inr hrest) hquiet fun a leftover hp => absurd hp (hstart a leftover)

theorem callback (h : Calm w) (c : Callback S) : Calm (w.push (.callback c)) :=
  h.push (Or.inl True.intro) id fun _ _ hp => by cases hp

theorem setState (h : Calm w) (newState : WsClientState) : Calm (w.setState newState) :=
  { h.callback (.onStateChange newState) with }

/-- Another buffer, of which frames are to be read. -/
theorem frames (h : Calm w) (hrest : ∀ q ∈ w.stack, q.Trails) (buffer : List (Nat × UInt8)) :
    Calm (Process.push { w with client := { w.client with buffer } } .frames) := by
  have hbuffer : Calm { w with client := { w.client with buffer } } := { h with }
  exact hbuffer.interrupt .frames hrest id fun _ _ hp => by cases hp

theorem write (h : Calm w) (out : Outgoing S) : Calm (w.write out) := by
  obtain ⟨sent, hwrite⟩ := w.write_spec out
  rw [hwrite]
  exact { h with }

theorem cleanupSocket (h : Calm w) : Calm w.cleanupSocket where
  toWired := h.toWired.cleanupSocket
  layered := h.layered
  listeners := h.listeners
  onData a chunk ha := absurd True.intro (h.quiet _ ha)
  startStream a leftover ha := by
    obtain ⟨hlt, hphase, hhandlers, -⟩ := h.startStream a leftover ha
    simp only [Process.cleanupSocket_attempts]
    refine ⟨hlt, ?_, ?_, fun c hc => by cases hc⟩
    · split
      · exact hphase
      · exact hphase
    · split
      · rfl
      · exact hhandlers
  quiet := h.quiet

theorem disconnect (h : Calm w) : Calm w.disconnect := by
  have hcleaned : Calm (Process.cleanupSocket (Process.cleanupTimers
      { w with
        client := { w.client with autoReconnect := false }
        ended := some w.sent.length })) :=
    Calm.cleanupSocket { h with }
  exact hcleaned.setState .closed

theorem connect (h : Calm w) : Calm w.connect := by
  rw [Process.connect]
  split
  · exact h
  · have hauto : Calm { w with client := { w.client with autoReconnect := true } } := { h with }
    exact (hauto.push (p := .openConnection) (Or.inl True.intro) id
      fun _ _ hp => by cases hp).setState .connecting

/-- Another state of an attempt that has been made and is not about to get its listeners. -/
theorem setAttempt (h : Calm w) {a : Nat} {x : Attempt S} (ha : a < w.count)
    (hclosed : x.closed = true → x.destroyed = true) (hhandlers : x.handlers ≤ 1)
    (hattached : 0 < x.handlers → x.phase = .settled)
    (hstart : ∀ leftover, .startStream a leftover ∉ w.stack) : Calm (w.setAttempt a x) where
  toWired := h.toWired.setAttempt ha hclosed hhandlers hattached
  layered := h.layered
  listeners := h.listeners
  onData b chunk hb := absurd True.intro (h.quiet _ hb)
  startStream b leftover hb := by
    have hne : b ≠ a := by
      rintro rfl
      exact hstart leftover hb
    simpa [hne] using h.startStream b leftover hb
  quiet := h.quiet

theorem handleConnectionFailure (h : Calm w) (hrest : ∀ q ∈ w.stack, q.Trails)
    (error : StreamError S) : Calm (w.handleConnectionFailure error) :=
  (h.interrupt .reconnectOrStop hrest id fun _ _ hp => by cases hp).callback (.onError error)

/-- The effects of a frame. -/
theorem frameEffect (h : Calm w) (hrest : ∀ q ∈ w.stack, q.Trails) {opcode : UInt8} {w' : Process S}
    (heffect : FrameEffect w opcode w') : Calm w' := by
  cases heffect with
  | close _ => exact h.disconnect
  | challenge _ challenge =>
    exact (h.interrupt (.answer challenge) hrest id fun _ _ hp => by cases hp).setState _
  | authenticated _ hash =>
    exact (h.interrupt (.keepAlive hash) hrest id fun _ _ hp => by cases hp).setState _
  | callback _ c => exact h.callback c
  | write _ out => exact h.write out
  | nothing _ => exact h

/-- The listeners of the client are added to the socket that is held. -/
theorem setupSocketHandlers (h : Calm w) (hrest : ∀ q ∈ w.stack, q.Trails)
    (hheld : ∀ c, w.client.socket = some c →
      (w.attempts c).phase = .settled ∧ (w.attempts c).handlers = 0) :
    Calm w.setupSocketHandlers := by
  rw [Process.setupSocketHandlers]
  split
  · exact h
  · next a ha =>
    obtain ⟨hphase, hhandlers⟩ := hheld a ha
    refine h.setAttempt (h.held a ha) (h.closed a) ?_ (fun _ => hphase) fun leftover hmem => ?_
    · simp [hhandlers]
    · exact absurd (hrest _ hmem) id

end Calm

/-! ## Steps -/

variable {utf8 : List UInt8 → S}

/-- The code on top of the stack goes on. -/
theorem Sound.runs {w w' : Process S} (h : Sound w) {p : Pending S} {rest : List (Pending S)}
    (hstack : w.stack = p :: rest) (hruns : Runs { w with stack := rest } p w') : Calm w' := by
  have hpop := h.pop hstack
  have htrails := h.trails hstack
  cases hruns with
  | openConnection =>
    -- the new attempt has the next number, which nothing refers to yet
    refine
      { toWired := ?_, layered := hpop.layered, listeners := hpop.listeners, onData := ?_,
        startStream := ?_, quiet := hpop.quiet }
    · constructor
      case unused =>
        intro a ha
        have hcount : w.count + 1 ≤ a := ha
        have hne : a ≠ w.count := by omega
        simpa [hne] using h.unused a (by omega)
      case held =>
        intro a ha
        exact Nat.lt_succ_of_lt (h.held a ha)
      case closed =>
        intro a
        by_cases ha : a = w.count
        · simp [ha]
        · simpa [ha] using h.closed a
      case handlers =>
        intro a
        by_cases ha : a = w.count
        · simp [ha]
        · simpa [ha] using h.handlers a
      case attached =>
        intro a
        by_cases ha : a = w.count
        · simp [ha]
        · simpa [ha] using h.attached a
    · intro a chunk ha
      exact absurd True.intro (hpop.quiet _ ha)
    · intro a leftover ha
      obtain ⟨hlt, hrest⟩ := hpop.startStream a leftover ha
      have hne : a ≠ w.count := Nat.ne_of_lt hlt
      refine ⟨Nat.lt_succ_of_lt hlt, ?_⟩
      simpa [hne] using hrest
  | startStream a =>
    have hrest := htrails id
    -- the socket that is held is the one whose upgrade was accepted
    obtain ⟨-, hphase, hhandlers, hheld⟩ := h.startStream a [] (by simp [hstack])
    have hwired := hpop.setupSocketHandlers hrest fun c hc => by
      obtain rfl := hheld c hc
      exact ⟨hphase, hhandlers⟩
    exact hwired.interrupt .resetAttempts (by simpa using hrest) id fun _ _ hp => by cases hp
  | @startStreamLeftover a leftover _ =>
    have hrest := htrails id
    obtain ⟨-, hphase, hhandlers, hheld⟩ := h.startStream a leftover (by simp [hstack])
    have hwired := hpop.setupSocketHandlers hrest fun c hc => by
      obtain rfl := hheld c hc
      exact ⟨hphase, hhandlers⟩
    have hreset := hwired.interrupt .resetAttempts (by simpa using hrest) id
      fun _ _ hp => by cases hp
    refine hreset.frames ?_ _
    exact List.forall_mem_cons.2 ⟨True.intro, by simpa using hrest⟩
  | resetAttempts => exact { hpop with }
  | framesDone _ => exact hpop
  | frame _ heffect =>
    refine Calm.frameEffect ?_ ?_ heffect
    · exact hpop.frames (htrails id) _
    · exact List.forall_mem_cons.2 ⟨True.intro, htrails id⟩
  | answered out => exact hpop.write out
  | unanswered => exact hpop.handleConnectionFailure (htrails id) _
  | keepAlive hash =>
    have hkept : Calm (Process.startPingKeepAlive { w with stack := rest }) := { hpop with }
    exact hkept.callback _
  | reconnect _ =>
    exact (hpop.interrupt .armTimer (htrails id) id fun _ _ hp => by cases hp).setState _
  | stop _ => exact hpop.setState _
  | armTimer => exact { hpop.cleanupSocket with }
  | onData a chunk => exact hpop.frames (htrails id) _
  | onCloseIdle _ => exact { hpop with }
  | onClose _ =>
    have hcleaned : Calm (Process.cleanupTimers { w with stack := rest }) := { hpop with }
    exact (hcleaned.interrupt .reconnectOrStop (htrails id) id
      fun _ _ hp => by cases hp).callback _
  | onError => exact hpop.callback _

/-- What sockets, timers and promises do. -/
theorem Sound.occurs {w w' : Process S} (h : Sound w) (hidle : w.stack = []) {e : Event S}
    (hown : OwnSocket w e) (hoccurs : Occurs utf8 w e w') : Sound w' := by
  have hcalm := h.toWired.idle hidle
  have hnone : ∀ p, p ∉ w.stack := by simp [hidle]
  cases hoccurs with
  | @opened a hphase _ =>
    have ha := h.lt_count (a := a) (by simp [hphase])
    -- an attempt with listeners is settled, and this one still awaits its socket
    refine (hcalm.setAttempt (x := { w.attempts a with phase := .opened }) ha (h.closed a)
      (h.handlers a) (fun hpos => ?_) fun _ => hnone _).toSound
    rw [h.attached a hpos] at hphase
    cases hphase
  | @openFailed a hphase =>
    have ha := h.lt_count (a := a) (by simp [hphase])
    refine (hcalm.setAttempt
      (x := { w.attempts a with phase := .failed .notOpened, destroyed := true }) ha (fun _ => rfl)
      (h.handlers a) (fun hpos => ?_) fun _ => hnone _).toSound
    rw [h.attached a hpos] at hphase
    cases hphase
  | @resumeOpened a hphase =>
    have ha := h.lt_count (a := a) (by simp [hphase])
    have hset := hcalm.setAttempt (x := { w.attempts a with phase := .upgrading [] }) ha (h.closed a)
      (h.handlers a) (fun hpos => by simp [h.attached a hpos] at hphase) fun _ => hnone _
    have hheld : Calm
        { w.setAttempt a { w.attempts a with phase := .upgrading [] } with
          client := { w.client with socket := some a } } := by
      refine { hset with held := ?_, startStream := fun b leftover hb => absurd hb (hnone _) }
      intro b hb
      cases hb
      exact ha
    exact (hheld.write _).toSound
  | @resumeUpgraded a leftover hphase =>
    have ha := h.lt_count (a := a) (by simp [hphase])
    -- the listeners are attached only after this, when the stream starts
    have hhandlers : (w.attempts a).handlers = 0 := by
      by_contra hpos
      have hsettled := h.attached a (by omega)
      rw [hphase] at hsettled
      cases hsettled
    have hset := hcalm.setAttempt (x := { w.attempts a with phase := .settled }) ha (h.closed a)
      (h.handlers a) (fun _ => rfl) fun _ => hnone _
    refine ((hset.push (p := .startStream a leftover) (Or.inr ?_) id ?_).setState _).toSound
    · simp [hidle]
    · intro b leftover' heq
      cases heq
      exact ⟨ha, by simp, by simpa using hhandlers, hown leftover hphase⟩
  | @resumeFailed a error hphase =>
    have ha := h.lt_count (a := a) (by simp [hphase])
    have hset := hcalm.setAttempt (x := { w.attempts a with phase := .settled }) ha (h.closed a)
      (h.handlers a) (fun _ => rfl) fun _ => hnone _
    exact (hset.handleConnectionFailure (by simp [hidle]) error).toSound
  | @data a chunk hlive =>
    have ha := h.lt_of_live hlive
    -- `onHandshakeData` goes first and changes the phase only, the client's listener is still to run
    have hset := h.toWired.setAttempt (a := a)
      (x := { w.attempts a with phase := onHandshakeData utf8 chunk (w.attempts a).phase }) ha
      (h.closed a) (h.handlers a) fun hpos => by simp [h.attached a hpos, onHandshakeData]
    refine hset.listen (h.handlers a) (.onData a chunk) True.intro ?_
    intro b chunk' hpos heq
    cases heq
    simpa using ⟨hpos, hlive⟩
  | @error a hlive =>
    have ha := h.lt_of_live hlive
    have hset := h.toWired.setAttempt (a := a)
      (x := { w.attempts a with phase := onSocketError (w.attempts a).phase, destroyed := true }) ha
      (fun _ => rfl) (h.handlers a) fun hpos => by simp [h.attached a hpos, onSocketError]
    exact hset.listen (h.handlers a) .onError True.intro fun _ _ _ heq => by cases heq
  | @close a hopen =>
    have ha := h.lt_of_open hopen
    have hset := h.toWired.setAttempt (a := a)
      (x := { w.attempts a with destroyed := true, closed := true }) ha (fun _ => rfl) (h.handlers a)
      (h.attached a)
    exact hset.listen (h.handlers a) .onClose True.intro fun _ _ _ heq => by cases heq
  | @reconnect t _ =>
    -- the timer has fired, and is no longer pending when `connect` is called
    have htimers : Calm { w with timers := w.timers.erase t } := { hcalm with }
    exact htimers.connect.toSound
  | ping _ out => exact (hcalm.write out).toSound

/-- Every step keeps it. -/
theorem Sound.steps {w w' : Process S} {e : Event S} (h : Sound w) (hown : OwnSocket w e)
    (hsteps : Steps utf8 w e w') : Sound w' := by
  cases hsteps with
  | connect hturn =>
    have hcalm : Calm { w with ended := none } := { h.calm hturn with }
    exact hcalm.connect.toSound
  | disconnect hturn => exact (h.calm hturn).disconnect.toSound
  | sendJson hturn data => exact ((h.calm hturn).write _).toSound
  | returned hstack => exact (h.pop hstack).toSound
  | run hstack hruns => exact (h.runs hstack hruns).toSound
  | occur hidle hoccurs => exact h.occurs hidle hown hoccurs

theorem sound_start : Sound (.start : Process S) := by
  refine (Wired.idle ⟨?_, ?_, ?_, ?_, ?_⟩ rfl).toSound
  · intro a _
    rfl
  · intro a ha
    cases ha
  · intro a _
    rfl
  · intro a
    exact Nat.zero_le 1
  · intro a _
    rfl

end TorE2EE.Client.Stream
