import TorE2EE.Client.CallStack
import TorE2EE.Client.Disconnecting

/-!
# The wait of a background sync

Step 4 of `BackgroundSyncService.executeSync` awaits a promise that the callbacks of its stream client
and a drain timer settle. `Wait` is the promise with the timer variable; `Waiting` puts it beside the
stream client, whose callbacks here do what `executeSync` passes. The wait begins with
`client.connect()`, and a step is taken only while it is pending.

Outside dev mode `connectViaSocks5` has a timer of its own, whose firing is the failure of the
connection. `wait_bounded_iff` says in which states of the wait some armed timer ends it.
-/

set_option autoImplicit false

namespace TorE2EE.Client.Sync

open TorE2EE.Foundation TorE2EE.Crypto
open TorE2EE.Client.Stream (Process Pending Callback Event Phase)

universe u

/-! ## The promise and its timer -/

/-- The promise of step 4, settled or not, the variable `drainTimer`, and the timers that are armed.
A timer that has fired or was cleared is no longer armed. -/
structure Wait where
  settled : Option (Except Unit Unit) := none
  drainTimer : Option Nat := none
  armed : List Nat := []
  created : Nat := 0

namespace Wait

variable (w : Wait)

/-- `resolve` and `reject`, of which only the first counts. -/
def settle (outcome : Except Unit Unit) : Wait :=
  { w with settled := some (w.settled.getD outcome) }

/-- `if (drainTimer) clearTimeout(drainTimer)`. -/
def clearTimer : Wait :=
  match w.drainTimer with
  | none => w
  | some t => { w with armed := w.armed.erase t }

/-- `drainTimer = setTimeout(cleanupAndFinish, drainTimeoutMs)`. -/
def setTimer : Wait :=
  { w with drainTimer := some w.created, armed := w.created :: w.armed, created := w.created + 1 }

/-- `cleanupAndFinish`. -/
def cleanupAndFinish : Wait := w.clearTimer.settle (.ok ())

/-- `onAuthenticated`. -/
def onAuthenticated : Wait := w.setTimer

/-- The end of `onMessage`, after the envelope was processed. -/
def messageProcessed : Wait :=
  match w.drainTimer with
  | none => w
  | some _ => w.clearTimer.setTimer

/-- `onError`. -/
def onError : Wait := w.clearTimer.settle (.error ())

/-- `onDisconnect`. -/
def onDisconnect : Wait := w.cleanupAndFinish

/-- A drain timer fires. -/
def fire (t : Nat) : Option Wait :=
  if t ∈ w.armed then some ({ w with armed := w.armed.erase t } : Wait).cleanupAndFinish else none

/-- What the callbacks do at once. `executeSync` passes no `onStateChange`, and `onMessage` begins to
process an envelope. -/
def callback {S : Type} : Callback S → Wait
  | .onAuthenticated _ => w.onAuthenticated
  | .onError _ => w.onError
  | .onDisconnect => w.onDisconnect
  | _ => w

@[simp] theorem settled_clearTimer : w.clearTimer.settled = w.settled := by
  rw [clearTimer]
  split <;> rfl

@[simp] theorem settled_setTimer : w.setTimer.settled = w.settled := rfl

theorem settled_settle (outcome : Except Unit Unit) : (w.settle outcome).settled ≠ none :=
  Option.some_ne_none _

@[simp] theorem settled_messageProcessed : w.messageProcessed.settled = w.settled := by
  rw [messageProcessed]
  split
  · rfl
  · rw [settled_setTimer, settled_clearTimer]

theorem settled_fire {w' : Wait} {t : Nat} (h : w.fire t = some w') : w'.settled ≠ none := by
  rw [fire] at h
  split at h
  · cases h
    simp [cleanupAndFinish, settle]
  · cases h

end Wait

/-! ## The wait with its client -/

/-- The stream client, the promise, and the number of envelopes being processed. `authenticated`
remembers whether `onAuthenticated` was called, and is not read by the program. -/
structure Waiting (S : Type) where
  process : Process S
  wait : Wait := {}
  processing : Nat := 0
  authenticated : Bool := false

/-- What may happen next. -/
inductive WaitEvent (S : Type) where
  /-- An event of the stream client, or its code goes on. -/
  | client (e : Event S)
  /-- The callback on top of the call stack runs and returns. -/
  | callback
  /-- An envelope has been processed, with success or not. -/
  | messageProcessed (ok : Bool)
  | drainTimer (t : Nat)
  /-- The timer of the bootstrap race fires; its promise is not awaited any more. -/
  | bootstrapTimer

/-- The events of the stream client that are its owner's. -/
def ownersEvent {S : Type} : Event S → Bool
  | .connect => true
  | .disconnect => true
  | .sendJson _ => true
  | .returned => true
  | _ => false

/-- The wait begins. -/
def Waiting.start {S : Type} : Waiting S := { process := Process.connect .start }

section Steps

variable {B S : Type} [DecidableEq S] (P : Primitives B S) (L : ClientLibrary B S)
  (identity : UserIdentity B S) (utf8 : List UInt8 → S)

/-- A callback runs. -/
def Waiting.callback (w : Waiting S) (c : Callback S) (rest : List (Pending S)) : Waiting S :=
  { process := { w.process with stack := rest }
    wait := w.wait.callback c
    processing :=
      match c with
      | .onMessage _ _ _ => w.processing + 1
      | _ => w.processing
    authenticated :=
      match c with
      | .onAuthenticated _ => true
      | _ => w.authenticated }

/-- One event of the wait. When the promise has been settled, `executeSync` goes on to its `finally`
block. -/
def Waiting.step (w : Waiting S) (e : WaitEvent S) : Option (Waiting S) :=
  match w.wait.settled with
  | some _ => none
  | none =>
      match e with
      | .client e =>
          if ownersEvent e then none
          else (Stream.step P L identity utf8 w.process e).map fun process => { w with process }
      | .callback =>
          match w.process.stack with
          | .callback c :: rest => some (w.callback c rest)
          | _ => none
      | .messageProcessed ok =>
          match w.process.stack, w.processing with
          | [], n + 1 =>
              some { w with
                wait := if ok then w.wait.messageProcessed else w.wait
                processing := n }
          | _, _ => none
      | .drainTimer t =>
          match w.process.stack with
          | [] => (w.wait.fire t).map fun wait => { w with wait }
          | _ => none
      | .bootstrapTimer =>
          match w.process.stack with
          | [] => some w
          | _ => none

/-! ## Timers -/

/-- The timers there are during the wait. -/
inductive Timer where
  | drain (t : Nat)
  /-- The timer of `connectViaSocks5` in a call of `connect`. -/
  | socks (attempt : Nat)
  | reconnect (t : Nat)
  | ping (t : Nat)
  | bootstrap

/-- The firing of a timer. -/
def Timer.event {S : Type} : Timer → WaitEvent S
  | drain t => .drainTimer t
  | socks a => .client (.openFailed a)
  | reconnect t => .client (.reconnect t)
  | ping t => .client (.ping t)
  | bootstrap => .bootstrapTimer

/-- The timer is armed. The one of the bootstrap race may be throughout. -/
def Waiting.Armed (devMode : Bool) (w : Waiting S) : Timer → Prop
  | .drain t => t ∈ w.wait.armed
  | .socks a => devMode = false ∧ (w.process.attempts a).phase = .opening
  | .reconnect t => t ∈ w.process.timers
  | .ping t => t ∈ w.process.intervals
  | .bootstrap => True

/-- The events by which the program goes on without the outside. -/
def OwnEvent {S : Type} : WaitEvent S → Prop
  | .client .run => True
  | .client (.resume _) => True
  | .callback => True
  | _ => False

/-- `connect` has been given what it awaited. -/
def GoesOn {S : Type} : Phase S → Prop
  | .opened => True
  | .upgraded _ => True
  | .failed _ => True
  | _ => False

/-- The program waits for the outside: no code is to run. -/
structure Idle (w : Waiting S) : Prop where
  stack : w.process.stack = []
  attempts : ∀ a, ¬ GoesOn (w.process.attempts a).phase

/-- An armed timer fires, and without anything from the outside the wait is settled. -/
def Bounded (devMode : Bool) (w : Waiting S) : Prop :=
  ∃ timer events w', w.Armed devMode timer ∧ (∀ e ∈ events, OwnEvent e) ∧
    runActions (Waiting.step P L identity utf8) (timer.event :: events) w = some w' ∧
    w'.wait.settled ≠ none

/-! ## What runs while the wait is pending -/

/-- No code on the stack reconnects before a callback has settled the wait. -/
def Guarded {S : Type} : List (Pending S) → Prop
  | [] => True
  | .callback (.onError _) :: _ => True
  | .callback .onDisconnect :: _ => True
  | .reconnectOrStop :: _ => False
  | .armTimer :: _ => False
  | _ :: rest => Guarded rest

end Steps

section Guarded

variable {S : Type}

theorem Guarded.callback {rest : List (Pending S)} (h : Guarded rest) (c : Callback S) :
    Guarded (.callback c :: rest) := by
  cases c with
  | onError error => trivial
  | onDisconnect => trivial
  | _ => exact h

/-- Under a callback that does not settle the wait the rest is guarded. -/
theorem Guarded.of_callback {c : Callback S} {rest : List (Pending S)} {w : Wait}
    (h : Guarded (.callback c :: rest)) (hpending : (w.callback c).settled = none) :
    Guarded rest := by
  -- the two callbacks that settle the wait are excluded
  cases c with
  | onError error => simp [Wait.callback, Wait.onError, Wait.settle] at hpending
  | onDisconnect =>
      simp [Wait.callback, Wait.onDisconnect, Wait.cleanupAndFinish, Wait.settle] at hpending
  | _ => exact h

theorem guarded_replicate (n : Nat) {p : Pending S}
    (hp : ∀ rest : List (Pending S), Guarded rest → Guarded (p :: rest)) :
    Guarded (List.replicate n p) := by
  induction n with
  | zero => trivial
  | succ n ih => exact hp _ ih

/-- No reconnect timer is armed, and none will be before the wait has been settled. -/
structure NoReconnect (w : Process S) : Prop where
  timers : w.timers = []
  stack : Guarded w.stack

namespace NoReconnect

variable {w w' : Process S}

theorem setState (h : NoReconnect w) (newState : Stream.WsClientState) :
    NoReconnect (w.setState newState) where
  timers := h.timers
  stack := h.stack.callback (.onStateChange newState)

theorem write (h : NoReconnect w) (out : Stream.Outgoing S) : NoReconnect (w.write out) := by
  obtain ⟨sent, hsent⟩ := w.write_spec out
  rw [hsent]
  exact ⟨h.timers, h.stack⟩

theorem cleanupTimers (h : NoReconnect w) : NoReconnect w.cleanupTimers where
  timers := by
    rw [Process.cleanupTimers_timers, h.timers]
    rfl
  stack := h.stack

theorem disconnect (h : NoReconnect w) : NoReconnect w.disconnect := by
  have hcleaned : NoReconnect (Process.cleanupTimers
      { w with
        client := { w.client with autoReconnect := false }
        ended := some w.sent.length }) :=
    cleanupTimers ⟨h.timers, h.stack⟩
  exact setState (w := (Process.cleanupTimers
      { w with
        client := { w.client with autoReconnect := false }
        ended := some w.sent.length }).cleanupSocket) ⟨hcleaned.timers, hcleaned.stack⟩ .closed

theorem setupSocketHandlers (h : NoReconnect w) : NoReconnect w.setupSocketHandlers := by
  rw [Process.setupSocketHandlers]
  split
  · exact h
  · exact ⟨h.timers, h.stack⟩

/-- A failure reaches the wait before it leads to a new connection. -/
theorem frameEffect {opcode : UInt8} (h : NoReconnect w) (heffect : Stream.FrameEffect w opcode w') :
    NoReconnect w' := by
  cases heffect with
  | close _ => exact h.disconnect
  | challenge _ challenge =>
      have hpushed : NoReconnect (w.push (.answer challenge)) := ⟨h.timers, h.stack⟩
      exact hpushed.setState _
  | authenticated _ hash =>
      have hpushed : NoReconnect (w.push (.keepAlive hash)) := ⟨h.timers, h.stack⟩
      exact hpushed.setState _
  | callback _ c => exact ⟨h.timers, h.stack.callback c⟩
  | write _ out => exact h.write out
  | nothing _ => exact h

/-- The code on top of a guarded stack. -/
theorem runs {p : Pending S} {rest : List (Pending S)} (h : NoReconnect w)
    (hstack : w.stack = p :: rest) (hruns : Stream.Runs { w with stack := rest } p w') :
    NoReconnect w' := by
  -- what would reconnect is not on top: it lies below a callback that settles the wait
  have hguarded := h.stack
  rw [hstack] at hguarded
  cases hruns with
  | openConnection => exact ⟨h.timers, hguarded⟩
  | startStream a =>
      have hset := setupSocketHandlers (w := { w with stack := rest }) ⟨h.timers, hguarded⟩
      exact ⟨hset.timers, hset.stack⟩
  | startStreamLeftover a hleftover =>
      have hset := setupSocketHandlers (w := { w with stack := rest }) ⟨h.timers, hguarded⟩
      exact ⟨hset.timers, hset.stack⟩
  | resetAttempts => exact ⟨h.timers, hguarded⟩
  | framesDone _ => exact ⟨h.timers, hguarded⟩
  | frame _ heffect =>
      refine frameEffect ?_ heffect
      exact ⟨h.timers, hguarded⟩
  | answered out => exact write (w := { w with stack := rest }) ⟨h.timers, hguarded⟩ out
  | unanswered => exact ⟨h.timers, trivial⟩
  | keepAlive hash =>
      have hcleaned := cleanupTimers (w := { w with stack := rest }) ⟨h.timers, hguarded⟩
      exact ⟨hcleaned.timers, hcleaned.stack⟩
  | reconnect _ => exact absurd hguarded id
  | stop _ => exact absurd hguarded id
  | armTimer => exact absurd hguarded id
  | onData a chunk => exact ⟨h.timers, hguarded⟩
  | onCloseIdle _ => exact cleanupTimers (w := { w with stack := rest }) ⟨h.timers, hguarded⟩
  | onClose _ =>
      have hcleaned := cleanupTimers (w := { w with stack := rest }) ⟨h.timers, hguarded⟩
      exact ⟨hcleaned.timers, trivial⟩
  | onError => exact ⟨h.timers, trivial⟩

variable {utf8 : List UInt8 → S} {e : Event S}

theorem occurs (h : NoReconnect w) (hidle : w.stack = []) (hoccurs : Stream.Occurs utf8 w e w') :
    NoReconnect w' := by
  have hguarded : Guarded w.stack := hidle ▸ trivial
  cases hoccurs with
  | resumeOpened _ =>
      refine NoReconnect.write ?_ _
      exact ⟨h.timers, hguarded⟩
  | resumeUpgraded _ =>
      refine NoReconnect.setState ?_ _
      exact ⟨h.timers, hguarded⟩
  | resumeFailed _ => exact ⟨h.timers, trivial⟩
  | data _ => exact ⟨h.timers, guarded_replicate _ fun _ hrest => hrest⟩
  | error _ => exact ⟨h.timers, guarded_replicate _ fun _ hrest => hrest⟩
  | close _ => exact ⟨h.timers, guarded_replicate _ fun _ hrest => hrest⟩
  | reconnect ht =>
      rw [h.timers] at ht
      cases ht
  | ping _ out => exact h.write out
  | _ => exact ⟨h.timers, hguarded⟩

/-- Every event that is not the owner's. -/
theorem steps (h : NoReconnect w) (hsteps : Stream.Steps utf8 w e w') (howner : ownersEvent e = false) :
    NoReconnect w' := by
  cases hsteps with
  | connect _ => cases howner
  | disconnect _ => cases howner
  | sendJson _ data => cases howner
  | returned _ => cases howner
  | run hstack hruns => exact h.runs hstack hruns
  | occur hidle hoccurs => exact h.occurs hidle hoccurs

end NoReconnect

end Guarded

/-! ## The pending wait -/

section Pending

variable {B S : Type} [DecidableEq S] {P : Primitives B S} {L : ClientLibrary B S}
  {identity : UserIdentity B S} {utf8 : List UInt8 → S} {w w' : Waiting S}

/-- While the wait is pending, nothing reconnects, and the drain timer is armed if and only if
`onAuthenticated` was called. -/
structure Watched (w : Waiting S) : Prop where
  noReconnect : NoReconnect w.process
  before : w.wait.drainTimer = none → w.wait.armed = [] ∧ w.authenticated = false
  after : ∀ t, w.wait.drainTimer = some t → t ∈ w.wait.armed ∧ w.authenticated = true

namespace Watched

omit [DecidableEq S] in
theorem start : Watched (Waiting.start : Waiting S) where
  noReconnect := ⟨rfl, trivial⟩
  before _ := ⟨rfl, rfl⟩
  after t ht := by cases ht

omit [DecidableEq S] in
/-- A callback returns, and the wait is still pending. -/
theorem callback (h : Watched w) {c : Callback S} {rest : List (Pending S)}
    (hstack : w.process.stack = .callback c :: rest)
    (hpending : (w.callback c rest).wait.settled = none) : Watched (w.callback c rest) := by
  have hguarded := h.noReconnect.stack
  rw [hstack] at hguarded
  have hprocess : NoReconnect { w.process with stack := rest } :=
    ⟨h.noReconnect.timers, hguarded.of_callback hpending⟩
  cases c with
  | onAuthenticated hash =>
      refine ⟨hprocess, fun hnone => (by cases hnone), ?_⟩
      rintro t ⟨⟩
      exact ⟨List.mem_cons_self, rfl⟩
  | onError error =>
      simp [Waiting.callback, Wait.callback, Wait.onError, Wait.settle] at hpending
  | onDisconnect =>
      simp [Waiting.callback, Wait.callback, Wait.onDisconnect, Wait.cleanupAndFinish, Wait.settle]
        at hpending
  | _ => exact ⟨hprocess, h.before, h.after⟩

omit [DecidableEq S] in
/-- The timer that is armed after a message was processed takes the place of the one before. -/
theorem messageProcessed (h : Watched w) (n : Nat) :
    Watched { w with wait := w.wait.messageProcessed, processing := n } := by
  rw [Wait.messageProcessed]
  cases htimer : w.wait.drainTimer with
  | none =>
      refine ⟨h.noReconnect, h.before, ?_⟩
      exact h.after
  | some t =>
      refine ⟨h.noReconnect, fun hnone => (by cases hnone), ?_⟩
      rintro t' ⟨⟩
      exact ⟨List.mem_cons_self, (h.after t htimer).2⟩

theorem step {e : WaitEvent S} (h : Watched w)
    (hstep : w.step P L identity utf8 e = some w') (hpending : w'.wait.settled = none) :
    Watched w' := by
  unfold Waiting.step at hstep
  split at hstep
  · cases hstep
  · cases e with
    | client e =>
        dsimp only at hstep
        split at hstep
        · cases hstep
        · next howner =>
            obtain ⟨process, hprocess, rfl⟩ := Option.map_eq_some_iff.1 hstep
            have hsteps := Stream.steps_of_step hprocess
            exact ⟨h.noReconnect.steps hsteps (by simpa using howner), h.before, h.after⟩
    | callback =>
        dsimp only at hstep
        split at hstep
        · next hstack =>
            cases hstep
            exact h.callback hstack hpending
        · cases hstep
    | messageProcessed ok =>
        dsimp only at hstep
        split at hstep
        · cases hstep
          cases ok with
          | false => exact ⟨h.noReconnect, h.before, h.after⟩
          | true => exact h.messageProcessed _
        · cases hstep
    | drainTimer t =>
        dsimp only at hstep
        split at hstep
        · obtain ⟨wait, hwait, rfl⟩ := Option.map_eq_some_iff.1 hstep
          -- the drain timer settles the wait
          exact absurd hpending (w.wait.settled_fire hwait)
        · cases hstep
    | bootstrapTimer =>
        dsimp only at hstep
        split at hstep
        · cases hstep
          exact h
        · cases hstep

end Watched

theorem watched_of_reachable {allowed : Waiting S → WaitEvent S → Prop}
    (h : Reachable (Waiting.step P L identity utf8) allowed .start w)
    (hpending : w.wait.settled = none) : Watched w := by
  refine h.invariant (p := fun w => w.wait.settled = none → Watched w) (fun _ => Watched.start) ?_
    hpending
  intro w w' e ih _ hstep hpending
  have hbefore : w.wait.settled = none := by
    unfold Waiting.step at hstep
    split at hstep
    · cases hstep
    · next hnone => exact hnone
  exact (ih hbefore).step hstep hpending

/-! ## The timers that end the wait -/

/-- A program that waits for the outside does not go on by itself. -/
theorem Idle.step_own (h : Idle w) {e : WaitEvent S} (hown : OwnEvent e) :
    w.step P L identity utf8 e = none := by
  unfold Waiting.step
  split
  · rfl
  · cases e with
    | client e =>
        cases e with
        | run => simp [ownersEvent, Stream.step, h.stack]
        | resume a =>
            have hphase := h.attempts a
            have hnone : Stream.resumeConnect w.process a = none := by
              rw [Stream.resumeConnect]
              split
              · next hopened => exact absurd (hopened ▸ trivial) hphase
              · next hupgraded => exact absurd (hupgraded ▸ trivial) hphase
              · next hfailed => exact absurd (hfailed ▸ trivial) hphase
              · rfl
            simp [ownersEvent, Stream.step, h.stack, Stream.occur, hnone]
        | _ => exact absurd hown id
    | callback => simp [h.stack]
    | _ => exact absurd hown id

/-- The timer of `connectViaSocks5` ends the wait: the connection fails, and `connect` reports it. -/
theorem bounded_of_opening (h : Idle w) (hpending : w.wait.settled = none) {a : Nat}
    (hphase : (w.process.attempts a).phase = .opening) : Bounded P L identity utf8 false w := by
  let failed : Process S :=
    w.process.setAttempt a
      { w.process.attempts a with phase := .failed .notOpened, destroyed := true }
  let reporting : Process S :=
    (failed.setAttempt a { failed.attempts a with phase := .settled }).handleConnectionFailure
      .notOpened
  have hfire : w.step P L identity utf8 (.client (.openFailed a)) =
      some { w with process := failed } := by
    simp [Waiting.step, hpending, ownersEvent, Stream.step, h.stack, Stream.occur, hphase, failed]
  have hresume : ({ w with process := failed } : Waiting S).step P L identity utf8
      (.client (.resume a)) = some { w with process := reporting } := by
    have hfailed : (failed.attempts a).phase = .failed .notOpened := by simp [failed]
    simp [Waiting.step, hpending, ownersEvent, Stream.step, show failed.stack = [] from h.stack,
      Stream.occur, Stream.resumeConnect, hfailed, reporting]
  have hreport : ({ w with process := reporting } : Waiting S).step P L identity utf8 .callback =
      some (({ w with process := reporting } : Waiting S).callback (.onError .notOpened)
        (.reconnectOrStop :: failed.stack)) := by
    simp [Waiting.step, hpending, reporting, Process.handleConnectionFailure]
  -- the timer fires, `connect` goes on, and its callback settles the wait
  refine ⟨.socks a, [.client (.resume a), .callback],
    ({ w with process := reporting } : Waiting S).callback (.onError .notOpened)
      (.reconnectOrStop :: failed.stack), ⟨rfl, hphase⟩, ?_, ?_, ?_⟩
  · simp [OwnEvent]
  · simp only [Timer.event, runActions, hfire, hresume, hreport, Option.bind_some]
  · simp [Waiting.callback, Wait.callback, Wait.onError, Wait.settle]

/-- An armed drain timer ends the wait. -/
theorem bounded_of_armed (h : Idle w) (hpending : w.wait.settled = none) {t : Nat}
    (ht : t ∈ w.wait.armed) (devMode : Bool) : Bounded P L identity utf8 devMode w := by
  let fired : Wait := ({ w.wait with armed := w.wait.armed.erase t } : Wait).cleanupAndFinish
  have hfire : w.wait.fire t = some fired := if_pos ht
  refine ⟨.drain t, [], { w with wait := fired }, ht, fun e he => absurd he List.not_mem_nil, ?_,
    w.wait.settled_fire hfire⟩
  simp [runActions, Timer.event, Waiting.step, hpending, h.stack, hfire]

/-- A program that waits for the outside stays where it is. -/
theorem eq_of_idle {events : List (WaitEvent S)} (h : Idle w)
    (hown : ∀ e ∈ events, OwnEvent e)
    (hrun : runActions (Waiting.step P L identity utf8) events w = some w') : w' = w := by
  cases events with
  | nil =>
      cases hrun
      rfl
  | cons e events =>
      rw [runActions, h.step_own (hown e List.mem_cons_self)] at hrun
      cases hrun

/-- While the wait is pending and the program waits for the outside. -/
theorem bounded_iff (hwatched : Watched w) (h : Idle w) (hpending : w.wait.settled = none)
    (devMode : Bool) : Bounded P L identity utf8 devMode w ↔
      (devMode = false ∧ ∃ a, (w.process.attempts a).phase = .opening) ∨
        w.authenticated = true := by
  constructor
  · rintro ⟨timer, events, w', harmed, hown, hrun, hsettled⟩
    cases timer with
    | drain t =>
        -- the drain timer is armed by `onAuthenticated` only
        right
        cases htimer : w.wait.drainTimer with
        | none =>
            have hnone : t ∈ w.wait.armed := harmed
            rw [(hwatched.before htimer).1] at hnone
            cases hnone
        | some t' => exact (hwatched.after t' htimer).2
    | socks a => exact Or.inl ⟨harmed.1, a, harmed.2⟩
    | reconnect t =>
        have hnone : t ∈ w.process.timers := harmed
        -- nothing reconnects while the wait is pending
        rw [hwatched.noReconnect.timers] at hnone
        cases hnone
    | ping t =>
        -- a ping is written, and nothing else happens
        obtain ⟨w₁, hping, hrest⟩ := Option.bind_eq_some_iff.1 hrun
        simp only [Timer.event, Waiting.step, hpending, ownersEvent, Bool.false_eq_true, if_false]
          at hping
        obtain ⟨process, hprocess, rfl⟩ := Option.map_eq_some_iff.1 hping
        cases Stream.steps_of_step hprocess with
        | occur _ hoccurs =>
            cases hoccurs with
            | ping _ out =>
                obtain ⟨sent, hsent⟩ := w.process.write_spec out
                rw [hsent] at hrest
                have hstill : Idle ({ w with process := { w.process with sent } } : Waiting S) :=
                  ⟨h.stack, h.attempts⟩
                rw [eq_of_idle hstill hown hrest] at hsettled
                exact absurd hpending hsettled
    | bootstrap =>
        -- the promise of the bootstrap race is not awaited any more
        obtain ⟨w₁, hboot, hrest⟩ := Option.bind_eq_some_iff.1 hrun
        simp only [Timer.event, Waiting.step, hpending, h.stack, Option.some.injEq] at hboot
        subst hboot
        rw [eq_of_idle h hown hrest] at hsettled
        exact absurd hpending hsettled
  · rintro (⟨rfl, a, hphase⟩ | hauth)
    · exact bounded_of_opening h hpending hphase
    · cases htimer : w.wait.drainTimer with
      | none =>
          rw [(hwatched.before htimer).2] at hauth
          cases hauth
      | some t => exact bounded_of_armed h hpending (hwatched.after t htimer).1 devMode

/-- In every run of a sync, and in every state in which its wait is pending and the program waits for
the outside: some armed timer ends the wait if and only if `connect` awaits `connectViaSocks5`, which
it does outside dev mode only, or `onAuthenticated` was called. -/
theorem wait_bounded_iff
    (h : Reachable (Waiting.step P L identity utf8) (fun _ _ => True) .start w)
    (hpending : w.wait.settled = none) (hidle : Idle w) (devMode : Bool) :
    Bounded P L identity utf8 devMode w ↔
      (devMode = false ∧ ∃ a, (w.process.attempts a).phase = .opening) ∨
        w.authenticated = true :=
  bounded_iff (watched_of_reachable h hpending) hidle hpending devMode

end Pending

/-! ## A silent relay -/

section

open TorE2EE.Crypto.Sym

/-- The wait over symbolic terms. -/
abbrev symbolicWaitStep : Waiting Sym → WaitEvent Sym → Option (Waiting Sym) :=
  Waiting.step symbolicClient symbolicLibrary (symbolicIdentity 1) Stream.symbolicUtf8

/-- `connect` asks for its socket. -/
def openingEvents : List (WaitEvent Sym) := [.callback, .client .run]

/-- The socket is there, and the upgrade request is on its way. -/
def upgradingEvents : List (WaitEvent Sym) :=
  openingEvents ++ [.client (.opened 0), .client (.resume 0)]

theorem idle_of_attempts {w : Waiting Sym} (hstack : w.process.stack = [])
    (hfirst : ¬ GoesOn (w.process.attempts 0).phase)
    (hothers : ∀ a, (w.process.attempts (a + 1)).phase = .settled) : Idle w := by
  refine ⟨hstack, fun a => ?_⟩
  cases a with
  | zero => exact hfirst
  | succ a =>
      rw [hothers a]
      exact id

/-- While the first socket is opened, the wait is bounded unless the client is in development mode: a
direct connection has no timeout. -/
theorem wait_bounded_iff_opening :
    ∃ w, runActions symbolicWaitStep openingEvents .start = some w ∧ ∀ devMode,
      (Bounded symbolicClient symbolicLibrary (symbolicIdentity 1) Stream.symbolicUtf8 devMode w ↔
        devMode = false) := by
  obtain ⟨w, hrun, hpending, hstack, hauth, hfirst, hothers⟩ :
      ∃ w, runActions symbolicWaitStep openingEvents .start = some w ∧ w.wait.settled = none ∧
        w.process.stack = [] ∧ w.authenticated = false ∧
        (w.process.attempts 0).phase = .opening ∧
        ∀ a, (w.process.attempts (a + 1)).phase = .settled :=
    ⟨_, rfl, rfl, rfl, rfl, rfl, fun _ => rfl⟩
  have hidle : Idle w := idle_of_attempts hstack (by rw [hfirst]; exact id) hothers
  refine ⟨w, hrun, fun devMode => ?_⟩
  rw [wait_bounded_iff (Reachable.start.of_runActions (fun _ _ _ => trivial) hrun) hpending hidle
    devMode, hauth]
  constructor
  · rintro (⟨hmode, -⟩ | hfalse)
    · exact hmode
    · cases hfalse
  · intro hmode
    exact Or.inl ⟨hmode, 0, hfirst⟩

/-- The relay does not answer the upgrade request, and no timer ends the wait. -/
theorem wait_not_bounded :
    ∃ w, Reachable symbolicWaitStep (fun _ _ => True) .start w ∧ w.wait.settled = none ∧
      ∀ devMode, ¬ Bounded symbolicClient symbolicLibrary (symbolicIdentity 1)
        Stream.symbolicUtf8 devMode w := by
  obtain ⟨w, hrun, hpending, hstack, hauth, hfirst, hothers⟩ :
      ∃ w, runActions symbolicWaitStep upgradingEvents .start = some w ∧ w.wait.settled = none ∧
        w.process.stack = [] ∧ w.authenticated = false ∧
        (w.process.attempts 0).phase = .upgrading [] ∧
        ∀ a, (w.process.attempts (a + 1)).phase = .settled :=
    ⟨_, rfl, rfl, rfl, rfl, rfl, fun _ => rfl⟩
  have hreach : Reachable symbolicWaitStep (fun _ _ => True) .start w :=
    Reachable.start.of_runActions (fun _ _ _ => trivial) hrun
  have hidle : Idle w := idle_of_attempts hstack (by rw [hfirst]; exact id) hothers
  refine ⟨w, hreach, hpending, fun devMode hbounded => ?_⟩
  rcases (bounded_iff (watched_of_reachable hreach hpending) hidle hpending devMode).1 hbounded with
    ⟨-, a, hphase⟩ | htrue
  · cases a with
    | zero =>
        rw [hfirst] at hphase
        cases hphase
    | succ a =>
        rw [hothers a] at hphase
        cases hphase
  · rw [hauth] at htrue
    cases htrue

end

end TorE2EE.Client.Sync
