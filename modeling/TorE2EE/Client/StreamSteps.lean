import TorE2EE.Client.Stream

/-!
# What a step of the stream client can do

`Steps` lists the effects of an event, one constructor for each way through the code, and
`steps_of_step` is that every step is one of them. Invariants of the runs are proved by cases on it.
-/

set_option autoImplicit false

namespace TorE2EE.Client.Stream

open TorE2EE.Foundation TorE2EE.Crypto

/-- Bytes of the server make a difference only to an attempt that awaits the response. -/
theorem onHandshakeData_spec {S : Type} (utf8 : List UInt8 → S) (chunk : List UInt8) (phase : Phase S) :
    onHandshakeData utf8 chunk phase = phase ∨
      ∃ rawBytes, phase = .upgrading rawBytes ∧
        ((∃ rawBytes', onHandshakeData utf8 chunk phase = .upgrading rawBytes') ∨
          (∃ leftover, onHandshakeData utf8 chunk phase = .upgraded leftover) ∨
          ∃ error, onHandshakeData utf8 chunk phase = .failed error) := by
  cases phase with
  | upgrading rawBytes =>
    refine Or.inr ⟨rawBytes, rfl, ?_⟩
    simp only [onHandshakeData]
    split
    · exact Or.inl ⟨_, rfl⟩
    · split
      · exact Or.inr (Or.inl ⟨_, rfl⟩)
      · exact Or.inr (Or.inr ⟨_, rfl⟩)
  | _ => exact Or.inl rfl

/-- The error of a socket makes a difference only to an attempt that awaits the socket. -/
theorem onSocketError_spec {S : Type} (phase : Phase S) :
    phase = .opening ∧ onSocketError phase = .failed .notOpened ∨
      phase ≠ .opening ∧ onSocketError phase = phase := by
  cases phase with
  | opening => exact Or.inl ⟨rfl, rfl⟩
  | _ => exact Or.inr ⟨by simp, rfl⟩

variable {B S : Type} [DecidableEq S] (P : Primitives B S) (L : ClientLibrary B S)
  (identity : UserIdentity B S) (utf8 : List UInt8 → S)

/-- The effects of a frame. -/
inductive FrameEffect (w : Process S) (opcode : UInt8) : Process S → Prop
  | close (hopcode : opcode = 0x08) : FrameEffect w opcode w.disconnect
  | challenge (hopcode : opcode ≠ 0x08) (challenge : Option (Json S)) :
      FrameEffect w opcode ((w.push (.answer challenge)).setState .authenticating)
  | authenticated (hopcode : opcode ≠ 0x08) (hash : Option (Json S)) :
      FrameEffect w opcode ((w.push (.keepAlive hash)).setState .connectedAuthenticated)
  | callback (hopcode : opcode ≠ 0x08) (c : Callback S) :
      FrameEffect w opcode (w.push (.callback c))
  | write (hopcode : opcode ≠ 0x08) (out : Outgoing S) : FrameEffect w opcode (w.write out)
  | nothing (hopcode : opcode ≠ 0x08) : FrameEffect w opcode w

variable {P L identity utf8}

theorem processFrame_effect (w : Process S) (opcode : UInt8) (payload : List UInt8) :
    FrameEffect w opcode (processFrame P L utf8 w opcode payload) := by
  rw [processFrame]
  split
  · next htext =>
    have hopcode : opcode ≠ 0x08 := by
      rw [htext]
      decide
    rw [handleTextMessage]
    split
    · exact .nothing hopcode
    · dsimp only
      split_ifs
      · exact .challenge hopcode _
      · exact .authenticated hopcode _
      · exact .callback hopcode _
      · exact .callback hopcode _
      · exact .nothing hopcode
  · split_ifs with hclose hping
    · exact .close hclose
    · exact .write hclose _
    · exact .nothing hclose

variable (P L identity utf8)

/-- The effects of the code on top of the call stack, in the state without it. -/
inductive Runs (w : Process S) : Pending S → Process S → Prop
  | openConnection :
      Runs w .openConnection
        { w.setAttempt w.count { phase := .opening, destroyed := false, closed := false, handlers := 0 }
          with count := w.count + 1 }
  | startStream (a : Nat) : Runs w (.startStream a []) (w.setupSocketHandlers.push .resetAttempts)
  | startStreamLeftover (a : Nat) {leftover : List UInt8} (hleftover : leftover ≠ []) :
      Runs w (.startStream a leftover)
        ((w.setupSocketHandlers.push .resetAttempts).handleRawData a leftover)
  | resetAttempts : Runs w .resetAttempts { w with client := { w.client with reconnectAttempts := 0 } }
  | framesDone (hnext : nextFrame (w.client.buffer.map Prod.snd) = none) : Runs w .frames w
  | frame {opcode : UInt8} {payload : List UInt8} {n : Nat} {w' : Process S}
      (hnext : nextFrame (w.client.buffer.map Prod.snd) = some ((opcode, payload), n))
      (heffect : FrameEffect
        (Process.push { w with client := { w.client with buffer := w.client.buffer.drop n } } .frames)
        opcode w') : Runs w .frames w'
  | answered {challenge : Option (Json S)} (out : Outgoing S) : Runs w (.answer challenge) (w.write out)
  | unanswered {challenge : Option (Json S)} :
      Runs w (.answer challenge) (w.handleConnectionFailure .challenge)
  | keepAlive (hash : Option (Json S)) :
      Runs w (.keepAlive hash) (w.startPingKeepAlive.push (.callback (.onAuthenticated hash)))
  | reconnect (hauto : w.client.autoReconnect = true) :
      Runs w .reconnectOrStop ((w.push .armTimer).setState .reconnecting)
  | stop (hauto : w.client.autoReconnect = false) : Runs w .reconnectOrStop (w.setState .disconnected)
  | armTimer :
      Runs w .armTimer
        { w.cleanupSocket with
          client :=
            { w.cleanupSocket.client with
              reconnectAttempts := w.client.reconnectAttempts + 1
              reconnectTimer := some w.created }
          timers := w.created :: w.timers
          created := w.created + 1 }
  | onData (a : Nat) (chunk : List UInt8) : Runs w (.onData a chunk) (w.handleRawData a chunk)
  | onCloseIdle (hstate : w.client.state = .closed ∨ w.client.state = .disconnected) :
      Runs w .onClose w.cleanupTimers
  | onClose (hstate : ¬ (w.client.state = .closed ∨ w.client.state = .disconnected)) :
      Runs w .onClose ((w.cleanupTimers.push .reconnectOrStop).push (.callback .onDisconnect))
  | onError : Runs w .onError (w.push (.callback (.onError .socket)))

/-- The effects of an event of a socket, a timer or a promise. -/
inductive Occurs (w : Process S) : Event S → Process S → Prop
  | opened {a : Nat} (hphase : (w.attempts a).phase = .opening)
      (hlive : (w.attempts a).destroyed = false) :
      Occurs w (.opened a) (w.setAttempt a { w.attempts a with phase := .opened })
  | openFailed {a : Nat} (hphase : (w.attempts a).phase = .opening) :
      Occurs w (.openFailed a)
        (w.setAttempt a { w.attempts a with phase := .failed .notOpened, destroyed := true })
  | resumeOpened {a : Nat} (hphase : (w.attempts a).phase = .opened) :
      Occurs w (.resume a)
        (Process.write
          { w.setAttempt a { w.attempts a with phase := .upgrading [] } with
            client := { w.client with socket := some a } } .upgradeRequest)
  | resumeUpgraded {a : Nat} {leftover : List UInt8}
      (hphase : (w.attempts a).phase = .upgraded leftover) :
      Occurs w (.resume a)
        (((w.setAttempt a { w.attempts a with phase := .settled }).push
          (.startStream a leftover)).setState .awaitingChallenge)
  | resumeFailed {a : Nat} {error : StreamError S} (hphase : (w.attempts a).phase = .failed error) :
      Occurs w (.resume a)
        ((w.setAttempt a { w.attempts a with phase := .settled }).handleConnectionFailure error)
  | data {a : Nat} {chunk : List UInt8} (hlive : (w.attempts a).destroyed = false) :
      Occurs w (.data a chunk)
        { w.setAttempt a
            { w.attempts a with phase := onHandshakeData utf8 chunk (w.attempts a).phase } with
          stack := List.replicate (w.attempts a).handlers (.onData a chunk) }
  | error {a : Nat} (hlive : (w.attempts a).destroyed = false) :
      Occurs w (.error a)
        { w.setAttempt a
            { w.attempts a with phase := onSocketError (w.attempts a).phase, destroyed := true } with
          stack := List.replicate (w.attempts a).handlers .onError }
  | close {a : Nat} (hopen : (w.attempts a).closed = false) :
      Occurs w (.close a)
        { w.setAttempt a { w.attempts a with destroyed := true, closed := true } with
          stack := List.replicate (w.attempts a).handlers .onClose }
  | reconnect {t : Nat} (ht : t ∈ w.timers) :
      Occurs w (.reconnect t) (Process.connect { w with timers := w.timers.erase t })
  | ping {t : Nat} (ht : t ∈ w.intervals) (out : Outgoing S) : Occurs w (.ping t) (w.write out)

/-- The effects of an event. -/
inductive Steps (w : Process S) : Event S → Process S → Prop
  | connect (hturn : w.ownersTurn) : Steps w .connect (Process.connect { w with ended := none })
  | disconnect (hturn : w.ownersTurn) : Steps w .disconnect w.disconnect
  | sendJson (hturn : w.ownersTurn) (data : Json S) : Steps w (.sendJson data) (w.write (.text data))
  | returned {c : Callback S} {rest : List (Pending S)} (hstack : w.stack = .callback c :: rest) :
      Steps w .returned { w with stack := rest }
  | run {p : Pending S} {rest : List (Pending S)} {w' : Process S} (hstack : w.stack = p :: rest)
      (hruns : Runs { w with stack := rest } p w') : Steps w .run w'
  | occur {e : Event S} {w' : Process S} (hidle : w.stack = []) (hoccurs : Occurs utf8 w e w') :
      Steps w e w'

variable {P L identity utf8}

theorem runs_of_runPending {w w' : Process S} {p : Pending S}
    (h : runPending P L identity utf8 w p = some w') : Runs w p w' := by
  cases p with
  | callback c => cases h
  | openConnection =>
    cases h
    exact .openConnection
  | startStream a leftover =>
    cases h
    -- bytes that came with the response are read once the listeners are attached
    by_cases hleftover : leftover = []
    · rw [if_pos hleftover, hleftover]
      exact .startStream a
    · rw [if_neg hleftover]
      exact .startStreamLeftover a hleftover
  | resetAttempts =>
    cases h
    exact .resetAttempts
  | frames =>
    simp only [runPending] at h
    split at h
    · next hnext =>
      cases h
      exact .framesDone hnext
    · next opcode payload n hnext =>
      cases h
      exact .frame hnext (processFrame_effect _ _ _)
  | answer challenge =>
    cases h
    rw [answerChallenge]
    split
    · exact .answered _
    · exact .unanswered
  | keepAlive hash =>
    cases h
    exact .keepAlive hash
  | reconnectOrStop =>
    cases h
    -- `scheduleReconnect` is called only while `autoReconnect` is set
    cases hauto : w.client.autoReconnect with
    | true => exact .reconnect hauto
    | false => exact .stop hauto
  | armTimer =>
    cases h
    exact .armTimer
  | onData a chunk =>
    cases h
    exact .onData a chunk
  | onClose =>
    cases h
    by_cases hstate : w.client.state = .closed ∨ w.client.state = .disconnected
    · have hsame : w.cleanupTimers.client.state = .closed ∨
          w.cleanupTimers.client.state = .disconnected := hstate
      rw [if_pos hsame]
      exact .onCloseIdle hstate
    · have hsame : ¬ (w.cleanupTimers.client.state = .closed ∨
          w.cleanupTimers.client.state = .disconnected) := hstate
      rw [if_neg hsame]
      exact .onClose hstate
  | onError =>
    cases h
    exact .onError

omit [DecidableEq S] in
theorem occurs_of_occur {w w' : Process S} {e : Event S} (h : occur P utf8 w e = some w') :
    Occurs utf8 w e w' := by
  -- One case an event: the guard of its branch is the premise of the rule.
  cases e with
  | opened a =>
    simp only [occur] at h
    split at h
    · next hphase =>
      split at h
      · cases h
      · next hlive =>
        cases h
        exact .opened hphase (by simpa using hlive)
    · cases h
  | openFailed a =>
    simp only [occur] at h
    split at h
    · next hphase =>
      cases h
      exact .openFailed hphase
    · cases h
  | resume a =>
    simp only [occur, resumeConnect] at h
    split at h
    · next hphase =>
      cases h
      exact .resumeOpened hphase
    · next leftover hphase =>
      cases h
      exact .resumeUpgraded hphase
    · next error hphase =>
      cases h
      exact .resumeFailed hphase
    · cases h
  | data a chunk =>
    simp only [occur] at h
    split at h
    · cases h
    · next hlive =>
      cases h
      exact .data (by simpa using hlive)
  | error a =>
    simp only [occur] at h
    split at h
    · cases h
    · next hlive =>
      cases h
      exact .error (by simpa using hlive)
  | close a =>
    simp only [occur] at h
    split at h
    · cases h
    · next hopen =>
      cases h
      exact .close (by simpa using hopen)
  | reconnect t =>
    simp only [occur] at h
    split at h
    · next ht =>
      cases h
      exact .reconnect ht
    · cases h
  | ping t =>
    simp only [occur] at h
    split at h
    · next ht =>
      cases h
      exact .ping ht _
    · cases h
  | _ => cases h

/-- Every step is one of these. -/
theorem steps_of_step {w w' : Process S} {e : Event S}
    (h : step P L identity utf8 w e = some w') : Steps utf8 w e w' := by
  unfold step at h
  split at h
  · split at h
    · next hturn =>
      cases h
      exact .connect hturn
    · cases h
  · split at h
    · next hturn =>
      cases h
      exact .disconnect hturn
    · cases h
  · split at h
    · next hturn =>
      cases h
      exact .sendJson hturn _
    · cases h
  · split at h
    · next c rest hstack =>
      cases h
      exact .returned hstack
    · cases h
  · split at h
    · next p rest hstack => exact .run hstack (runs_of_runPending h)
    · cases h
  · split at h
    · next hidle => exact .occur hidle (occurs_of_occur h)
    · cases h

end TorE2EE.Client.Stream
