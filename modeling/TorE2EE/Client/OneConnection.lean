import TorE2EE.Client.CallStack
import TorE2EE.Client.Disconnecting

/-!
# One connection at a time

`connect` returns at once in two of the seven states only. In the others a second call opens a second
socket, and the listeners of the first stay on it while `socket` and the buffer belong to the second.
`Exclusive` leaves out the calls of `connect` that overlap an earlier one, and a `disconnect()` while
bytes that came with the upgrade response are still to be read. Every run without them is `Single`:
only the socket that is held has listeners, and every byte in the buffer came on it.
-/

set_option autoImplicit false

namespace TorE2EE.Client.Stream

open TorE2EE.Foundation TorE2EE.Crypto

variable {B S : Type}

/-- A call of `connect` is to be given a socket, or is to go on. -/
def Phase.Busy : Phase S → Prop
  | .opening => True
  | .opened => True
  | .upgraded _ => True
  | .failed _ => True
  | _ => False

instance : DecidablePred (Phase.Busy : Phase S → Prop)
  | .opening => .isTrue True.intro
  | .opened => .isTrue True.intro
  | .upgrading _ => .isFalse id
  | .upgraded _ => .isTrue True.intro
  | .failed _ => .isTrue True.intro
  | .settled => .isFalse id

theorem Phase.busy_of_upgraded {phase : Phase S} {leftover : List UInt8}
    (h : phase = .upgraded leftover) : phase.Busy := by
  rw [h]
  exact True.intro

/-- Code that cleans the socket up, unless reconnecting has been turned off. -/
def Pending.Clears : Pending S → Prop
  | .armTimer => True
  | .reconnectOrStop => True
  | _ => False

/-- A call of `connect` that does not return at once overlaps no other: no earlier one is under way,
and no socket is held for longer than the running code takes to clean it up. -/
structure Apart (w : Process S) : Prop where
  attempts : ∀ a, ¬ (w.attempts a).phase.Busy
  openConnection : .openConnection ∉ w.stack
  startStream : ∀ a leftover, .startStream a leftover ∉ w.stack
  socket : w.client.socket = none ∨ ∃ p ∈ w.stack, p.Clears

/-- Calls of `connect` do not overlap, and `disconnect` is not called while bytes that came with the
upgrade response are still to be read. -/
def Exclusive (w : Process S) : Event S → Prop
  | .connect => w.client.state.Resumes → Apart w
  | .reconnect _ => w.client.state.Resumes → Apart w
  | .disconnect => (∀ a leftover, (w.attempts a).phase = .upgraded leftover → leftover = []) ∧
      ∀ a leftover, .startStream a leftover ∈ w.stack → leftover = []
  | _ => True

/-- What one connection at a time means. -/
structure OneConnection (w : Process S) : Prop where
  unique : ∀ a b, 0 < (w.attempts a).handlers → (w.attempts a).destroyed = false →
    0 < (w.attempts b).handlers → (w.attempts b).destroyed = false → a = b
  held : ∀ a, 0 < (w.attempts a).handlers → (w.attempts a).destroyed = false →
    w.client.socket = some a
  buffer : ∀ a byte, (a, byte) ∈ w.client.buffer → w.client.socket = some a
  /-- A socket whose close the client hears is no old one. -/
  closes : ∀ a, 0 < (w.attempts a).handlers → w.client.socket = some a

/-- The socket that is held is going to be cleaned up by code that is on the call stack. -/
def WillClear (w : Process S) : Prop :=
  .armTimer ∈ w.stack ∨ .reconnectOrStop ∈ w.stack ∧ w.client.autoReconnect = true

/-- Only one attempt is under way, and the socket, its listeners and the buffer are one attempt's. -/
structure Single (w : Process S) : Prop where
  streaming : ∀ a, 0 < (w.attempts a).handlers → w.client.socket = some a
  buffer : ∀ a byte, (a, byte) ∈ w.client.buffer → w.client.socket = some a
  upgrading : ∀ a rawBytes, (w.attempts a).phase = .upgrading rawBytes →
    (w.attempts a).destroyed = false → w.client.socket = some a
  upgraded : ∀ a leftover, (w.attempts a).phase = .upgraded leftover →
    w.client.socket = some a ∨ w.client.socket = none ∧ leftover = []
  failed : ∀ a error, (w.attempts a).phase = .failed error →
    ∀ b rawBytes, (w.attempts b).phase = .upgrading rawBytes → (w.attempts b).destroyed = true
  busy : ∀ a b, (w.attempts a).phase.Busy → (w.attempts b).phase.Busy → a = b
  opening : (.openConnection ∈ w.stack ∨
      ∃ a, (w.attempts a).phase = .opening ∨ (w.attempts a).phase = .opened) →
    w.client.socket = none ∨ WillClear w
  openConnection : .openConnection ∈ w.stack → ∀ a, ¬ (w.attempts a).phase.Busy
  once : w.stack.Pairwise fun p q => p = .openConnection → q ≠ .openConnection
  startStream : ∀ a leftover, .startStream a leftover ∈ w.stack →
    (∀ b, ¬ (w.attempts b).phase.Busy) ∧ .openConnection ∉ w.stack ∧
      (leftover ≠ [] → w.client.socket = some a)
  interrupted : ∀ p ∈ w.stack, ¬ p.Waits → ∀ a leftover, (w.attempts a).phase ≠ .upgraded leftover

namespace Single

variable {w w' : Process S}

theorem ownSocket (h : Single w) (e : Event S) : OwnSocket w e := by
  cases e with
  | resume a =>
    intro leftover hphase c hc
    rcases h.upgraded a leftover hphase with hheld | ⟨hnone, -⟩
    · exact Option.some.inj (hc.symm.trans hheld)
    · cases hnone.symm.trans hc
  | _ => exact True.intro

theorem oneConnection (h : Single w) : OneConnection w where
  unique a b ha _ hb _ := Option.some.inj ((h.streaming a ha).symm.trans (h.streaming b hb))
  held a ha _ := h.streaming a ha
  buffer := h.buffer
  closes := h.streaming

/-! ### The call stack -/

/-- The code on top of the stack is taken off. Where it would have cleaned up the socket, there must be
no need for that. -/
theorem pop (h : Single w) {p : Pending S} {rest : List (Pending S)} (hstack : w.stack = p :: rest)
    (hclears : p.Clears → (.openConnection ∈ rest ∨
        ∃ a, (w.attempts a).phase = .opening ∨ (w.attempts a).phase = .opened) →
      w.client.socket = none ∨ WillClear { w with stack := rest }) :
    Single { w with stack := rest } where
  streaming := h.streaming
  buffer := h.buffer
  upgrading := h.upgrading
  upgraded := h.upgraded
  failed := h.failed
  busy := h.busy
  opening hopening := by
    -- what was to clean up the socket is now running, or is still below on the stack
    rcases h.opening (hopening.imp (fun hmem => by simp [hstack, hmem]) id) with
      hnone | harm | ⟨hstop, hauto⟩
    · exact Or.inl hnone
    · rw [hstack] at harm
      rcases List.mem_cons.1 harm with rfl | harm
      · exact hclears True.intro hopening
      · exact Or.inr (Or.inl harm)
    · rw [hstack] at hstop
      rcases List.mem_cons.1 hstop with rfl | hstop
      · exact hclears True.intro hopening
      · exact Or.inr (Or.inr ⟨hstop, hauto⟩)
  openConnection hmem := h.openConnection (by simp [hstack, hmem])
  once := by
    have honce := h.once
    rw [hstack] at honce
    exact honce.of_cons
  startStream a leftover hmem := by
    obtain ⟨hbusy, hopen, hheld⟩ := h.startStream a leftover (by simp [hstack, hmem])
    rw [hstack, List.mem_cons] at hopen
    exact ⟨hbusy, fun hopen' => hopen (Or.inr hopen'), hheld⟩
  interrupted q hq := h.interrupted q (by simp [hstack, hq])

/-- Code that opens no connection is put on the stack. -/
theorem push (h : Single w) (p : Pending S) (hopen : p ≠ .openConnection)
    (hstart : ∀ a leftover, p = .startStream a leftover →
      (∀ b, ¬ (w.attempts b).phase.Busy) ∧ .openConnection ∉ w.stack ∧
        (leftover ≠ [] → w.client.socket = some a))
    (hinterrupted : ¬ p.Waits → ∀ a leftover, (w.attempts a).phase ≠ .upgraded leftover) :
    Single (w.push p) where
  streaming := h.streaming
  buffer := h.buffer
  upgrading := h.upgrading
  upgraded := h.upgraded
  failed := h.failed
  busy := h.busy
  opening hopening := by
    refine (h.opening (hopening.imp (fun hmem => ?_) id)).imp id fun hclear => ?_
    · exact (List.mem_cons.1 hmem).resolve_left hopen.symm
    · exact hclear.imp (List.mem_cons_of_mem _) fun hstop => ⟨List.mem_cons_of_mem _ hstop.1, hstop.2⟩
  openConnection hmem := h.openConnection ((List.mem_cons.1 hmem).resolve_left hopen.symm)
  once := List.pairwise_cons.2 ⟨fun _ _ hp => absurd hp hopen, h.once⟩
  startStream a leftover hmem := by
    obtain ⟨hbusy, hnone, hheld⟩ : (∀ b, ¬ (w.attempts b).phase.Busy) ∧
        .openConnection ∉ w.stack ∧ (leftover ≠ [] → w.client.socket = some a) := by
      rcases List.mem_cons.1 hmem with hp | hmem
      · exact hstart a leftover hp.symm
      · exact h.startStream a leftover hmem
    refine ⟨hbusy, fun hmem => ?_, hheld⟩
    exact hnone ((List.mem_cons.1 hmem).resolve_left hopen.symm)
  interrupted q hq := by
    rcases List.mem_cons.1 hq with rfl | hq
    · exact hinterrupted
    · exact h.interrupted q hq

theorem callback (h : Single w) (c : Callback S) : Single (w.push (.callback c)) :=
  h.push _ (fun hp => by cases hp) (fun _ _ hp => by cases hp) fun hp => absurd True.intro hp

theorem setState (h : Single w) (newState : WsClientState) : Single (w.setState newState) :=
  { h.callback (.onStateChange newState) with }

theorem write (h : Single w) (out : Outgoing S) : Single (w.write out) := by
  obtain ⟨sent, hwrite⟩ := w.write_spec out
  rw [hwrite]
  exact { h with }

/-- The socket that is held is destroyed, with nothing left over that came on it. -/
theorem cleanupSocket (h : Single w)
    (hupgraded : ∀ a leftover, (w.attempts a).phase = .upgraded leftover → leftover = [])
    (hstart : ∀ a leftover, .startStream a leftover ∈ w.stack → leftover = []) :
    Single w.cleanupSocket := by
  have hphase : ∀ a, (w.cleanupSocket.attempts a).phase = (w.attempts a).phase := by
    intro a
    simp only [Process.cleanupSocket_attempts]
    split <;> rfl
  constructor
  -- cleaning up takes the listeners off the socket that is held, and no other has any
  case streaming =>
    intro a hpos
    simp only [Process.cleanupSocket_attempts] at hpos
    split at hpos
    · exact absurd hpos (Nat.lt_irrefl 0)
    · next hheld => exact absurd (h.streaming a hpos) hheld
  case buffer =>
    intro a byte hmem
    cases hmem
  case upgrading =>
    intro a rawBytes
    rw [hphase]
    intro hupgrading hlive
    simp only [Process.cleanupSocket_attempts] at hlive
    split at hlive
    · cases hlive
    · next hheld => exact absurd (h.upgrading a rawBytes hupgrading hlive) hheld
  case upgraded =>
    intro a leftover
    rw [hphase]
    exact fun hup => Or.inr ⟨rfl, hupgraded a leftover hup⟩
  -- destroying one more socket can only help here
  case failed =>
    intro a error
    rw [hphase]
    intro hfailed b rawBytes
    rw [hphase]
    intro hupgrading
    simp only [Process.cleanupSocket_attempts]
    split
    · rfl
    · exact h.failed a error hfailed b rawBytes hupgrading
  case busy =>
    intro a b
    rw [hphase, hphase]
    exact h.busy a b
  case opening => exact fun _ => Or.inl rfl
  case openConnection =>
    intro hmem a
    rw [hphase]
    exact h.openConnection hmem a
  case once => exact h.once
  case startStream =>
    intro a leftover hmem
    obtain ⟨hbusy, hopen, -⟩ := h.startStream a leftover hmem
    refine ⟨fun b => ?_, hopen, fun hne => absurd (hstart a leftover hmem) hne⟩
    rw [hphase]
    exact hbusy b
  case interrupted =>
    intro p hp hwaits a leftover
    rw [hphase]
    exact h.interrupted p hp hwaits a leftover

/-- Without a socket there is nothing to clean up. -/
theorem withAuto (h : Single w) (hnone : w.client.socket = none) (autoReconnect : Bool) :
    Single { w with client := { w.client with autoReconnect } } :=
  { h with opening := fun _ => Or.inl hnone }

theorem disconnect (h : Single w)
    (hupgraded : ∀ a leftover, (w.attempts a).phase = .upgraded leftover → leftover = [])
    (hstart : ∀ a leftover, .startStream a leftover ∈ w.stack → leftover = []) :
    Single w.disconnect := by
  have hcleaned := (h.cleanupSocket hupgraded hstart).withAuto rfl false
  have hdone : Single (Process.cleanupSocket (Process.cleanupTimers
      { w with
        client := { w.client with autoReconnect := false }
        ended := some w.sent.length })) := { hcleaned with }
  exact hdone.setState .closed

/-- A call of `connect` that overlaps no other. -/
theorem connect (h : Single w) (hapart : w.client.state.Resumes → Apart w) : Single w.connect := by
  by_cases hresumes : w.client.state.Resumes
  · have ha := hapart hresumes
    rw [Process.connect_of_resumes hresumes]
    -- the state change is called back first, so the socket is asked for below it
    suffices hopened : Single (Process.push
        { w with client := { w.client with autoReconnect := true } } .openConnection) from
      hopened.setState .connecting
    constructor
    case streaming => exact h.streaming
    case buffer => exact h.buffer
    case upgrading => exact h.upgrading
    case upgraded => exact h.upgraded
    case failed => exact h.failed
    case busy => exact h.busy
    case opening =>
      intro _
      -- a call from a callback of a failed connection: the cleanup is still on the stack
      rcases ha.socket with hnone | ⟨p, hp, hclears⟩
      · exact Or.inl hnone
      · refine Or.inr ?_
        cases p with
        | armTimer => exact Or.inl (List.mem_cons_of_mem _ hp)
        | reconnectOrStop => exact Or.inr ⟨List.mem_cons_of_mem _ hp, rfl⟩
        | _ => exact absurd hclears id
    case openConnection => exact fun _ => ha.attempts
    case once =>
      refine List.pairwise_cons.2 ⟨fun q hq _ hopen => ?_, h.once⟩
      rw [hopen] at hq
      exact ha.openConnection hq
    case startStream =>
      intro a leftover hmem
      have hstart : .startStream a leftover ∈ w.stack := by simpa using hmem
      exact absurd hstart (ha.startStream a leftover)
    case interrupted =>
      intro p hp
      rcases List.mem_cons.1 hp with rfl | hp
      · exact fun hwaits => absurd True.intro hwaits
      · exact h.interrupted p hp
  · rw [Process.connect_of_not_resumes hresumes]
    exact h

/-- Bytes that came on the socket that is held are added to the buffer, or some are taken off it, and
frames are to be read. -/
theorem frames (h : Single w) {buffer : List (Nat × UInt8)}
    (hbuffer : ∀ a byte, (a, byte) ∈ buffer → w.client.socket = some a)
    (hinterrupted : ∀ a leftover, (w.attempts a).phase ≠ .upgraded leftover) :
    Single (Process.push { w with client := { w.client with buffer } } .frames) := by
  have hnew : Single { w with client := { w.client with buffer } } := { h with buffer := hbuffer }
  exact hnew.push .frames (fun hp => by cases hp) (fun _ _ hp => by cases hp) fun _ => hinterrupted

/-- No accepted upgrade waits while code is interrupted. -/
theorem not_upgraded (h : Single w) {p : Pending S} {rest : List (Pending S)}
    (hstack : w.stack = p :: rest) (hwaits : ¬ p.Waits) :
    ∀ a leftover, (w.attempts a).phase ≠ .upgraded leftover :=
  h.interrupted p (by simp [hstack]) hwaits

/-- The effects of a frame. -/
theorem frameEffect (h : Single w) (htrails : ∀ p ∈ w.stack, p.Trails)
    (hinterrupted : ∀ a leftover, (w.attempts a).phase ≠ .upgraded leftover) {opcode : UInt8}
    (heffect : FrameEffect w opcode w') : Single w' := by
  cases heffect with
  | close _ =>
    refine h.disconnect (fun a leftover hup => absurd hup (hinterrupted a leftover)) ?_
    exact fun a leftover hmem => absurd (htrails _ hmem) id
  | challenge _ challenge =>
    exact (h.push (.answer challenge) (fun hp => by cases hp) (fun _ _ hp => by cases hp)
      fun _ => hinterrupted).setState _
  | authenticated _ hash =>
    exact (h.push (.keepAlive hash) (fun hp => by cases hp) (fun _ _ hp => by cases hp)
      fun _ => hinterrupted).setState _
  | callback _ c => exact h.callback c
  | write _ out => exact h.write out
  | nothing _ => exact h

/-- `handleConnectionFailure`, and the `close` listener. -/
theorem fails (h : Single w)
    (hinterrupted : ∀ a leftover, (w.attempts a).phase ≠ .upgraded leftover) (c : Callback S) :
    Single ((w.push .reconnectOrStop).push (.callback c)) :=
  (h.push .reconnectOrStop (fun hp => by cases hp) (fun _ _ hp => by cases hp)
    fun _ => hinterrupted).callback c

/-- Another state of an attempt. -/
theorem setAttempt (h : Single w) {a : Nat} {x : Attempt S}
    (hstreaming : 0 < x.handlers → w.client.socket = some a)
    (hupgrading : ∀ rawBytes, x.phase = .upgrading rawBytes → x.destroyed = false →
      w.client.socket = some a ∧ ∀ b error, (w.attempts b).phase ≠ .failed error)
    (hupgraded : ∀ leftover, x.phase = .upgraded leftover →
      (w.client.socket = some a ∨ w.client.socket = none ∧ leftover = []) ∧
        ∀ p ∈ w.stack, p.Waits)
    (hfailed : ∀ error, x.phase = .failed error → ∀ b rawBytes, b ≠ a →
      (w.attempts b).phase = .upgrading rawBytes → (w.attempts b).destroyed = true)
    (hbusy : x.phase.Busy → (∀ b, b ≠ a → ¬ (w.attempts b).phase.Busy) ∧
      .openConnection ∉ w.stack ∧ ∀ b leftover, .startStream b leftover ∉ w.stack)
    (hopening : x.phase = .opening ∨ x.phase = .opened →
      w.client.socket = none ∨ WillClear w) : Single (w.setAttempt a x) where
  streaming b := by
    by_cases hb : b = a
    · subst hb
      simpa using hstreaming
    · simpa [hb] using h.streaming b
  buffer := h.buffer
  upgrading b rawBytes := by
    by_cases hb : b = a
    · subst hb
      simpa using fun hphase hlive => (hupgrading rawBytes hphase hlive).1
    · simpa [hb] using h.upgrading b rawBytes
  upgraded b leftover := by
    by_cases hb : b = a
    · subst hb
      simpa using fun hphase => (hupgraded leftover hphase).1
    · simpa [hb] using h.upgraded b leftover
  failed b error hb c rawBytes hc := by
    -- the conditions speak of pairs of attempts, so each side may be the one that changes
    by_cases hba : b = a
    · by_cases hca : c = a
      · rw [hba] at hb
        rw [hca] at hc
        cases hb.symm.trans hc
      · subst hba
        simpa [hca] using hfailed error (by simpa using hb) c rawBytes hca (by simpa [hca] using hc)
    · have hb' : (w.attempts b).phase = .failed error := by simpa [hba] using hb
      by_cases hca : c = a
      · subst hca
        cases hlive : x.destroyed with
        | true => simpa using hlive
        | false => exact absurd hb' ((hupgrading rawBytes (by simpa using hc) hlive).2 b error)
      · simpa [hca] using h.failed b error hb' c rawBytes (by simpa [hca] using hc)
  busy b c hb hc := by
    by_cases hba : b = a
    · by_cases hca : c = a
      · exact hba.trans hca.symm
      · subst hba
        exact absurd (by simpa [hca] using hc) ((hbusy (by simpa using hb)).1 c hca)
    · by_cases hca : c = a
      · subst hca
        exact absurd (by simpa [hba] using hb) ((hbusy (by simpa using hc)).1 b hba)
      · exact h.busy b c (by simpa [hba] using hb) (by simpa [hca] using hc)
  opening hopen := by
    rcases hopen with hopen | ⟨b, hb⟩
    · exact h.opening (Or.inl hopen)
    · by_cases hba : b = a
      · subst hba
        exact hopening (by simpa using hb)
      · exact h.opening (Or.inr ⟨b, by simpa [hba] using hb⟩)
  openConnection hmem b hb := by
    by_cases hba : b = a
    · subst hba
      exact (hbusy (by simpa using hb)).2.1 hmem
    · exact h.openConnection hmem b (by simpa [hba] using hb)
  once := h.once
  startStream b leftover hmem := by
    obtain ⟨hfree, hopen, hheld⟩ := h.startStream b leftover hmem
    refine ⟨fun c hc => ?_, hopen, hheld⟩
    by_cases hca : c = a
    · subst hca
      exact (hbusy (by simpa using hc)).2.2 b leftover hmem
    · exact hfree c (by simpa [hca] using hc)
  interrupted p hp hwaits b leftover hb := by
    by_cases hba : b = a
    · subst hba
      exact hwaits ((hupgraded leftover (by simpa using hb)).2 p hp)
    · exact h.interrupted p hp hwaits b leftover (by simpa [hba] using hb)

/-- The socket that is held, if any, gets its listeners. -/
theorem setupSocketHandlers (h : Single w)
    (hsettled : ∀ a, w.client.socket = some a → (w.attempts a).phase = .settled) :
    Single w.setupSocketHandlers := by
  rw [Process.setupSocketHandlers]
  split
  · exact h
  · next a ha =>
    have hphase := hsettled a ha
    -- only the listeners change: a settled attempt is in none of the phases asked about
    refine h.setAttempt (fun _ => ha) ?_ ?_ ?_ ?_ ?_
    · simp [hphase]
    · simp [hphase]
    · simp [hphase]
    · simp [hphase, Phase.Busy]
    · simp [hphase]

theorem streamed (h : Single w) (hsound : Sound w) {a : Nat} {leftover : List UInt8}
    {rest : List (Pending S)} (hstack : w.stack = .startStream a leftover :: rest) :
    Single (Process.setupSocketHandlers { w with stack := rest }) := by
  obtain ⟨-, hphase, -, hheld⟩ := hsound.startStream a leftover (by simp [hstack])
  refine (h.pop hstack fun hp => absurd hp id).setupSocketHandlers fun c hc => ?_
  obtain rfl := hheld c hc
  exact hphase

/-- A call of `connect` asks for its socket. -/
theorem opens (h : Single w) {rest : List (Pending S)} (hstack : w.stack = .openConnection :: rest) :
    Single { Process.setAttempt { w with stack := rest } w.count
        { phase := .opening, destroyed := false, closed := false, handlers := 0 } with
      count := w.count + 1 } := by
  have hfree := h.openConnection (by simp [hstack])
  -- no other call is about to ask for one, and none is about to start its stream
  have honce := h.once
  rw [hstack, List.pairwise_cons] at honce
  have hopen : .openConnection ∉ rest := fun hmem => honce.1 _ hmem rfl rfl
  have hstart : ∀ b leftover, .startStream b leftover ∉ rest := by
    intro b leftover hmem
    exact (h.startStream b leftover (by simp [hstack, hmem])).2.1 (by simp [hstack])
  have hclear : w.client.socket = none ∨ WillClear { w with stack := rest } := by
    refine (h.opening (Or.inl (by simp [hstack]))).imp id fun hclear => ?_
    simpa [WillClear, hstack] using hclear
  have hset := (h.pop hstack fun hp => absurd hp id).setAttempt (a := w.count)
    (x := { phase := .opening, destroyed := false, closed := false, handlers := 0 })
    (fun hpos => absurd hpos (Nat.lt_irrefl 0)) (fun _ hphase => by cases hphase)
    (fun _ hphase => by cases hphase) (fun _ hphase => by cases hphase)
    (fun _ => ⟨fun b _ => hfree b, hopen, hstart⟩) fun _ => hclear
  exact { hset with }

/-- After a failure the socket is going to be cleaned up, and until then no call of `connect` goes
on. -/
theorem reconnects (h : Single w) {rest : List (Pending S)}
    (hstack : w.stack = .reconnectOrStop :: rest) (hrest : ∀ q ∈ rest, q.Trails)
    (hupgraded : ∀ a leftover, (w.attempts a).phase ≠ .upgraded leftover) :
    Single ((Process.push { w with stack := rest } .armTimer).setState .reconnecting) := by
  refine Single.setState ?_ _
  constructor
  case streaming => exact h.streaming
  case buffer => exact h.buffer
  case upgrading => exact h.upgrading
  case upgraded => exact h.upgraded
  case failed => exact h.failed
  case busy => exact h.busy
  -- `armTimer` cleans up the socket as soon as the callback returns
  case opening => exact fun _ => Or.inr (Or.inl (by simp))
  case openConnection => exact fun hmem => h.openConnection (by simpa [hstack] using hmem)
  case once =>
    have honce := h.once
    rw [hstack] at honce
    exact List.pairwise_cons.2 ⟨fun _ _ hp => absurd hp (by simp), honce.of_cons⟩
  case startStream =>
    intro a leftover hmem
    exact absurd (hrest (.startStream a leftover) (by simpa using hmem)) id
  case interrupted => exact fun _ _ _ => hupgraded

/-- The code on top of the stack goes on. -/
theorem runs (h : Single w) (hsound : Sound w) {p : Pending S} {rest : List (Pending S)}
    (hstack : w.stack = p :: rest) (hruns : Runs { w with stack := rest } p w') : Single w' := by
  have htrails := hsound.trails hstack
  have hupgraded := h.not_upgraded hstack
  cases hruns with
  | openConnection => exact h.opens hstack
  | startStream a =>
    -- the attempt is settled by now, so no other is busy either
    obtain ⟨hfree, -, -⟩ := h.startStream a [] (by simp [hstack])
    exact (h.streamed hsound hstack).push .resetAttempts (fun hp => by cases hp)
      (fun _ _ hp => by cases hp) fun _ b _ hup =>
        hfree b (Phase.busy_of_upgraded (by simpa using hup))
  | @startStreamLeftover a leftover hleftover =>
    obtain ⟨hfree, -, hheld⟩ := h.startStream a leftover (by simp [hstack])
    have hnot : ∀ b leftover', (w.attempts b).phase ≠ .upgraded leftover' :=
      fun b _ hup => hfree b (Phase.busy_of_upgraded hup)
    have hreset := (h.streamed hsound hstack).push .resetAttempts (fun hp => by cases hp)
      (fun _ _ hp => by cases hp) fun _ b leftover' => by simpa using hnot b leftover'
    refine hreset.frames (fun b byte hmem => ?_) fun b leftover' => by simpa using hnot b leftover'
    rcases List.mem_append.1 hmem with hmem | hmem
    · simpa using h.buffer b byte (by simpa using hmem)
    · obtain ⟨_, -, heq⟩ := List.mem_map.1 hmem
      cases heq
      simpa using hheld hleftover
  | resetAttempts => exact { h.pop hstack (fun hp => absurd hp id) with }
  | framesDone _ => exact h.pop hstack fun hp => absurd hp id
  | @frame opcode payload n _ hnext heffect =>
    have hpop := h.pop hstack fun hp => absurd hp id
    refine Single.frameEffect (hpop.frames (fun a byte hmem => ?_) (hupgraded id)) ?_ (hupgraded id)
      heffect
    · exact h.buffer a byte (List.mem_of_mem_drop hmem)
    · exact List.forall_mem_cons.2 ⟨True.intro, htrails id⟩
  | answered out => exact (h.pop hstack fun hp => absurd hp id).write out
  | unanswered => exact (h.pop hstack fun hp => absurd hp id).fails (hupgraded id) _
  | keepAlive hash =>
    have hkept : Single (Process.startPingKeepAlive { w with stack := rest }) :=
      { h.pop hstack (fun hp => absurd hp id) with }
    exact hkept.callback _
  | reconnect _ => exact h.reconnects hstack (htrails id) (hupgraded id)
  | stop hauto =>
    refine (h.pop hstack fun _ hopening => ?_).setState _
    -- with `autoReconnect` off nothing cleans up, so the socket must be gone already
    rcases h.opening (hopening.imp (fun hmem => by simp [hstack, hmem]) id) with
      hnone | harm | ⟨-, hyes⟩
    · exact Or.inl hnone
    · exact Or.inr (Or.inl (by simpa [hstack] using harm))
    · cases hauto.symm.trans hyes
  | armTimer =>
    have hcleaned := h.cleanupSocket (fun a leftover hup => absurd hup (hupgraded id a leftover)) ?_
    · exact { hcleaned.pop (p := .armTimer) hstack (fun _ _ => Or.inl rfl) with }
    · intro a leftover hmem
      rw [hstack] at hmem
      have hrest : .startStream a leftover ∈ rest := by simpa using hmem
      exact absurd (htrails id _ hrest) id
  | onData a chunk =>
    have hpop := h.pop hstack fun hp => absurd hp id
    refine hpop.frames (fun b byte hmem => ?_) (hupgraded id)
    rcases List.mem_append.1 hmem with hmem | hmem
    · exact h.buffer b byte hmem
    · obtain ⟨_, -, heq⟩ := List.mem_map.1 hmem
      cases heq
      exact h.streaming a (hsound.onData a chunk (by simp [hstack])).1
  | onCloseIdle _ => exact { h.pop hstack (fun hp => absurd hp id) with }
  | onClose _ =>
    have hcleaned : Single (Process.cleanupTimers { w with stack := rest }) :=
      { h.pop hstack (fun hp => absurd hp id) with }
    exact hcleaned.fails (hupgraded id) _
  | onError => exact (h.pop hstack fun hp => absurd hp id).callback _

/-! ### Events -/

/-- Between events, the socket of an attempt that awaits one is not held. -/
theorem unheld (h : Single w) (hidle : w.stack = []) {a : Nat}
    (hopening : (w.attempts a).phase = .opening ∨ (w.attempts a).phase = .opened) :
    w.client.socket = none := by
  refine (h.opening (Or.inr ⟨a, hopening⟩)).resolve_right fun hclear => ?_
  simp [WillClear, hidle] at hclear

/-- Then no other attempt awaits the response to the upgrade request. -/
theorem not_upgrading (h : Single w) (hnone : w.client.socket = none) (b : Nat)
    (rawBytes : List UInt8) (hphase : (w.attempts b).phase = .upgrading rawBytes) :
    (w.attempts b).destroyed = true := by
  cases hlive : (w.attempts b).destroyed with
  | true => rfl
  | false => cases hnone.symm.trans (h.upgrading b rawBytes hphase hlive)

/-- Between events, no attempt is under way besides one that awaits the response. -/
theorem alone_of_upgrading (h : Single w) (hidle : w.stack = []) {a : Nat} {rawBytes : List UInt8}
    (hphase : (w.attempts a).phase = .upgrading rawBytes) (hlive : (w.attempts a).destroyed = false)
    (b : Nat) : ¬ (w.attempts b).phase.Busy := by
  intro hbusy
  have hheld := h.upgrading a rawBytes hphase hlive
  -- each busy phase says something about the socket that is held, and it is the one of `a`
  cases hb : (w.attempts b).phase with
  | opening => cases (h.unheld hidle (Or.inl hb)).symm.trans hheld
  | opened => cases (h.unheld hidle (Or.inr hb)).symm.trans hheld
  | upgrading _ => simp [hb, Phase.Busy] at hbusy
  | upgraded leftover =>
    rcases h.upgraded b leftover hb with hother | ⟨hnone, -⟩
    · cases hheld.symm.trans hother
      cases hphase.symm.trans hb
    · cases hnone.symm.trans hheld
  | failed error => cases hlive.symm.trans (h.failed b error hb a rawBytes hphase)
  | settled => simp [hb, Phase.Busy] at hbusy

/-- A socket is destroyed, or nothing changes that matters. -/
theorem keep (h : Single w) (hidle : w.stack = []) {a : Nat} {x : Attempt S}
    (hphase : x.phase = (w.attempts a).phase) (hhandlers : x.handlers = (w.attempts a).handlers)
    (hdestroyed : x.destroyed = false → (w.attempts a).destroyed = false) :
    Single (w.setAttempt a x) := by
  refine h.setAttempt ?_ ?_ ?_ ?_ ?_ ?_
  · rw [hhandlers]
    exact h.streaming a
  · rw [hphase]
    intro rawBytes hup hlive
    refine ⟨h.upgrading a rawBytes hup (hdestroyed hlive), fun b error hfailed => ?_⟩
    cases (h.failed b error hfailed a rawBytes hup).symm.trans (hdestroyed hlive)
  · rw [hphase]
    exact fun leftover hup => ⟨h.upgraded a leftover hup, by simp [hidle]⟩
  · rw [hphase]
    exact fun error hfailed b rawBytes _ => h.failed a error hfailed b rawBytes
  · rw [hphase]
    refine fun hbusy => ⟨fun b hne hb => hne (h.busy b a hb hbusy), ?_, ?_⟩
    · simp [hidle]
    · simp [hidle]
  · rw [hphase]
    exact fun hopening => Or.inl (h.unheld hidle hopening)

/-- An attempt that awaits its socket is to go on with an error. -/
theorem notOpened (h : Single w) (hidle : w.stack = []) {a : Nat}
    (hphase : (w.attempts a).phase = .opening) :
    Single (w.setAttempt a
      { w.attempts a with phase := .failed .notOpened, destroyed := true }) := by
  have hbusy : (w.attempts a).phase.Busy := by simp [hphase, Phase.Busy]
  refine h.setAttempt (h.streaming a) ?_ ?_ ?_ ?_ ?_
  · exact fun _ hup => by cases hup
  · exact fun _ hup => by cases hup
  · exact fun _ _ b rawBytes _ => h.not_upgrading (h.unheld hidle (Or.inl hphase)) b rawBytes
  · refine fun _ => ⟨fun b hne hb => hne (h.busy b a hb hbusy), ?_, ?_⟩
    · simp [hidle]
    · simp [hidle]
  · simp

/-- `connect` has gone on with what the attempt was to go on with. -/
theorem settle (h : Single w) {a : Nat} (hbusy : (w.attempts a).phase.Busy) :
    Single (w.setAttempt a { w.attempts a with phase := .settled }) ∧
      ∀ b, ¬ ((w.setAttempt a { w.attempts a with phase := .settled }).attempts b).phase.Busy := by
  constructor
  · refine h.setAttempt (h.streaming a) ?_ ?_ ?_ ?_ ?_
    · exact fun _ hup => by cases hup
    · exact fun _ hup => by cases hup
    · exact fun _ hfailed => by cases hfailed
    · exact fun hsettled => absurd hsettled id
    · simp
  · intro b hb
    by_cases hba : b = a
    · subst hba
      simp [Phase.Busy] at hb
    · exact hba (h.busy b a (by simpa [hba] using hb) hbusy)

/-- The socket that has been opened is held, and there was none before. -/
theorem hold (h : Single w) (hidle : w.stack = []) {a : Nat}
    (hphase : (w.attempts a).phase = .opened) :
    Single
      { w.setAttempt a { w.attempts a with phase := .upgrading [] } with
        client := { w.client with socket := some a } } := by
  have hbusy : (w.attempts a).phase.Busy := by simp [hphase, Phase.Busy]
  have hnone := h.unheld hidle (Or.inr hphase)
  have hfree : ∀ b, ¬ ((w.setAttempt a
      { w.attempts a with phase := .upgrading [] }).attempts b).phase.Busy := by
    intro b hb
    by_cases hba : b = a
    · subst hba
      simp [Phase.Busy] at hb
    · exact hba (h.busy b a (by simpa [hba] using hb) hbusy)
  constructor
  -- no socket was held, so nothing streams and nothing is buffered
  case streaming =>
    intro b hpos
    have hheld : w.client.socket = some b := by
      by_cases hba : b = a
      · subst hba
        exact h.streaming b (by simpa using hpos)
      · exact h.streaming b (by simpa [hba] using hpos)
    cases hnone.symm.trans hheld
  case buffer =>
    intro b byte hmem
    cases hnone.symm.trans (h.buffer b byte hmem)
  case upgrading =>
    intro b rawBytes hup hlive
    by_cases hba : b = a
    · rw [hba]
    · have hheld := h.upgrading b rawBytes (by simpa [hba] using hup) (by simpa [hba] using hlive)
      cases hnone.symm.trans hheld
  -- the rest is about busy attempts, and `a` was the only one
  case upgraded => exact fun b _ hup => absurd (Phase.busy_of_upgraded hup) (hfree b)
  case failed =>
    intro b error hfailed
    refine absurd ?_ (hfree b)
    rw [hfailed]
    exact True.intro
  case busy => exact fun b _ hb => absurd hb (hfree b)
  case opening =>
    rintro (hmem | ⟨b, hopening⟩)
    · simp [hidle] at hmem
    · refine absurd ?_ (hfree b)
      rcases hopening with hb | hb
      · rw [hb]
        exact True.intro
      · rw [hb]
        exact True.intro
  case openConnection => simp [hidle]
  case once => simp [hidle]
  case startStream => simp [hidle]
  case interrupted => simp [hidle]

/-- The listeners of an event are called. -/
theorem listen (h : Single w) (hidle : w.stack = []) {a : Nat} {x : Attempt S}
    (hset : Single (w.setAttempt a x)) (hphase : 0 < (w.attempts a).handlers → x.phase = .settled)
    {p : Pending S} (hp : p.Listens) :
    Single { w.setAttempt a x with stack := List.replicate (w.attempts a).handlers p } := by
  have hopen : .openConnection ∉ List.replicate (w.attempts a).handlers p := by
    intro hmem
    rw [← List.eq_of_mem_replicate hmem] at hp
    exact hp
  refine
    { hset with
      opening := fun hopening => Or.inl (hset.unheld hidle (hopening.resolve_left hopen).choose_spec)
      openConnection := fun hmem => absurd hmem hopen
      once := ?_
      startStream := ?_
      interrupted := ?_ }
  -- none of the listeners asks for a socket
  · refine List.pairwise_replicate.2 (Or.inr fun hp' => ?_)
    rw [hp'] at hp
    exact absurd hp id
  · intro b leftover hmem
    rw [← List.eq_of_mem_replicate hmem] at hp
    exact absurd hp id
  · intro q hq _ b leftover hup
    have hpos : 0 < (w.attempts a).handlers := by
      by_contra hzero
      obtain hnil : (w.attempts a).handlers = 0 := by omega
      simp [hnil] at hq
    have hheld := h.streaming a hpos
    rcases hset.upgraded b leftover hup with hother | ⟨hnone, -⟩
    · cases hheld.symm.trans hother
      cases (hphase hpos).symm.trans (by simpa using hup)
    · cases hnone.symm.trans hheld

variable {utf8 : List UInt8 → S}

/-- Bytes of the server. -/
theorem receive (h : Single w) (hidle : w.stack = []) {a : Nat} (chunk : List UInt8)
    (hlive : (w.attempts a).destroyed = false) :
    Single (w.setAttempt a
      { w.attempts a with phase := onHandshakeData utf8 chunk (w.attempts a).phase }) := by
  rcases onHandshakeData_spec utf8 chunk (w.attempts a).phase with hsame | ⟨rawBytes, hphase, hnew⟩
  · exact h.keep hidle hsame rfl id
  · -- the attempt awaited the response on the socket that is held, so no other is busy
    have hheld := h.upgrading a rawBytes hphase hlive
    have halone := h.alone_of_upgrading hidle hphase hlive
    refine h.setAttempt (h.streaming a) ?_ ?_ ?_ ?_ ?_
    · refine fun _ _ _ => ⟨hheld, fun b error hfailed => ?_⟩
      exact halone b (by simp [hfailed, Phase.Busy])
    · exact fun _ _ => ⟨Or.inl hheld, by simp [hidle]⟩
    · intro _ _ b rawBytes' hne hup
      cases hlive' : (w.attempts b).destroyed with
      | true => rfl
      | false =>
        exact absurd (Option.some.inj ((h.upgrading b rawBytes' hup hlive').symm.trans hheld)) hne
    · exact fun _ => ⟨fun b _ => halone b, by simp [hidle], by simp [hidle]⟩
    · rcases hnew with ⟨_, hnew⟩ | ⟨_, hnew⟩ | ⟨_, hnew⟩
      · simp [hnew]
      · simp [hnew]
      · simp [hnew]

/-- What sockets, timers and promises do. -/
theorem occurs (h : Single w) (hsound : Sound w) (hidle : w.stack = []) {e : Event S}
    (hexclusive : Exclusive w e) (hoccurs : Occurs utf8 w e w') : Single w' := by
  cases hoccurs with
  | @opened a hphase _ =>
    have hbusy : (w.attempts a).phase.Busy := by simp [hphase, Phase.Busy]
    refine h.setAttempt (h.streaming a) ?_ ?_ ?_ ?_ ?_
    · exact fun _ hup => by cases hup
    · exact fun _ hup => by cases hup
    · exact fun _ hfailed => by cases hfailed
    · refine fun _ => ⟨fun b hne hb => hne (h.busy b a hb hbusy), ?_, ?_⟩
      · simp [hidle]
      · simp [hidle]
    · exact fun _ => Or.inl (h.unheld hidle (Or.inl hphase))
  | @openFailed a hphase => exact h.notOpened hidle hphase
  | @resumeOpened a hphase => exact (h.hold hidle hphase).write _
  | @resumeUpgraded a leftover hphase =>
    -- `connect` goes on after its `await`, and the attempt is over
    obtain ⟨hset, hfree⟩ := h.settle (a := a) (by simp [hphase, Phase.Busy])
    refine (hset.push (.startStream a leftover) (fun hp => by cases hp) ?_ ?_).setState _
    · intro b leftover' heq
      cases heq
      refine ⟨hfree, by simp [hidle], fun hne => ?_⟩
      exact (h.upgraded a leftover hphase).resolve_right fun hnone => hne hnone.2
    · exact fun _ b _ hup => hfree b (Phase.busy_of_upgraded hup)
  | @resumeFailed a error hphase =>
    obtain ⟨hset, hfree⟩ := h.settle (a := a) (by simp [hphase, Phase.Busy])
    exact hset.fails (fun b _ hup => hfree b (Phase.busy_of_upgraded hup)) _
  | @data a chunk hlive =>
    refine h.listen hidle (h.receive hidle chunk hlive) (fun hpos => ?_) True.intro
    simp [hsound.attached a hpos, onHandshakeData]
  | @error a hlive =>
    refine h.listen hidle
      (x := { w.attempts a with phase := onSocketError (w.attempts a).phase, destroyed := true }) ?_
      (fun hpos => ?_) True.intro
    · rcases onSocketError_spec (w.attempts a).phase with ⟨hphase, hnew⟩ | ⟨-, hsame⟩
      · rw [hnew]
        exact h.notOpened hidle hphase
      · exact h.keep hidle hsame rfl fun hlive => by cases hlive
    · simp [hsound.attached a hpos, onSocketError]
  | @close a hopen =>
    exact h.listen hidle (h.keep (x := { w.attempts a with destroyed := true, closed := true }) hidle
      rfl rfl fun hlive => by cases hlive) (hsound.attached a) True.intro
  | @reconnect t _ =>
    have htimers : Single { w with timers := w.timers.erase t } := { h with }
    exact htimers.connect fun hresumes => { hexclusive hresumes with }
  | ping _ out => exact h.write out

/-- Every step that overlaps no other connection keeps it. -/
theorem steps (h : Single w) (hsound : Sound w) {e : Event S} (hexclusive : Exclusive w e)
    (hsteps : Steps utf8 w e w') : Single w' := by
  cases hsteps with
  | connect _ =>
    have hended : Single { w with ended := none } := { h with }
    exact hended.connect fun hresumes => { hexclusive hresumes with }
  | disconnect _ => exact h.disconnect hexclusive.1 hexclusive.2
  | sendJson _ data => exact h.write _
  | returned hstack => exact h.pop hstack fun hp => absurd hp id
  | run hstack hruns => exact h.runs hsound hstack hruns
  | occur hidle hoccurs => exact h.occurs hsound hidle hexclusive hoccurs

end Single

theorem single_start : Single (.start : Process S) where
  streaming a ha := absurd ha (Nat.lt_irrefl 0)
  buffer a byte hmem := by cases hmem
  upgrading a rawBytes hup := by cases hup
  upgraded a leftover hup := by cases hup
  failed a error hfailed := by cases hfailed
  busy a b ha := absurd ha id
  opening hopening := Or.inl rfl
  openConnection hmem := by cases hmem
  once := List.Pairwise.nil
  startStream a leftover hmem := by cases hmem
  interrupted p hp := by cases hp

/-- What every run keeps in which calls of `connect` do not overlap. -/
theorem sound_single [DecidableEq S] {P : Primitives B S} {L : ClientLibrary B S}
    {identity : UserIdentity B S} {utf8 : List UInt8 → S} {w : Process S}
    (h : Run P L identity utf8 Exclusive w) : Sound w ∧ Single w := by
  refine Reachable.invariant (p := fun w => Sound w ∧ Single w) h ⟨sound_start, single_start⟩ ?_
  rintro w w' e ⟨hsound, hsingle⟩ hexclusive hstep
  have hsteps := steps_of_step hstep
  exact ⟨hsound.steps (hsingle.ownSocket e) hsteps, hsingle.steps hsound hexclusive hsteps⟩

/-- One connection at a time. In every run in which calls of `connect()` do not overlap and
`disconnect()` leaves no bytes to be read, at most one socket that is not destroyed has the listeners
of the client, it is the one that is held, and every byte in the buffer came on it. -/
theorem one_connection [DecidableEq S] {P : Primitives B S} {L : ClientLibrary B S}
    {identity : UserIdentity B S} {utf8 : List UInt8 → S} {w : Process S}
    (h : Run P L identity utf8 Exclusive w) : OneConnection w :=
  (sound_single h).2.oneConnection

section

open TorE2EE.Crypto.Sym

/-- What follows a call of `connect` that makes attempt `a`, until the challenge is awaited. -/
def accepted (a : Nat) : List (Event Sym) :=
  [.returned, .run, .opened a, .resume a, .data a upgradeAccepted, .resume a, .returned, .run, .run]

/-- The first byte of a frame arrives, and the relay closes the connection. -/
def lost : List (Event Sym) :=
  [.data 0 [0x81], .run, .run, .close 0, .run, .returned, .run, .returned, .run]

/-- What does not call `connect` or `disconnect` is admitted. -/
theorem exclusive_accepted (a : Nat) (more : List (Event Sym))
    (hmore : ∀ e ∈ more, ∀ w, Exclusive w e) :
    ∀ e ∈ accepted a ++ more, ∀ w : Process Sym, Exclusive w e := by
  intro e he
  rcases List.mem_append.1 he with he | he
  · simp only [accepted, List.mem_cons, List.not_mem_nil, or_false] at he
    rcases he with rfl | rfl | rfl | rfl | rfl | rfl | rfl | rfl | rfl <;> exact fun _ => trivial
  · exact hmore e he

/-- The connection of `lost` is made and lost, and the timer waits to make another. -/
theorem lost_run : ∃ w, runActions symbolicStep (.connect :: (accepted 0 ++ lost)) .start = some w ∧
    Reachable symbolicStep Exclusive .start w ∧ Apart w := by
  have hstart : Apart (.start : Process Sym) :=
    ⟨fun _ => id, List.not_mem_nil, fun _ _ => List.not_mem_nil, Or.inl rfl⟩
  have hends : (runActions symbolicStep (.connect :: (accepted 0 ++ lost)) .start).map
      (fun w => (w.stack.isEmpty, w.client.socket, decide (w.attempts 0).phase.Busy, w.count)) =
        some (true, none, false, 1) := by
    decide +kernel
  obtain ⟨w, hrun, hview⟩ := Option.map_eq_some_iff.1 hends
  simp only [Prod.mk.injEq, List.isEmpty_iff, decide_eq_false_iff_not] at hview
  obtain ⟨hstack, hsocket, hfirst, hcount⟩ := hview
  have hreach : Reachable symbolicStep Exclusive .start w := by
    obtain ⟨w₁, hconnect, hrest⟩ := Option.bind_eq_some_iff.1 hrun
    exact (Reachable.start.step Event.connect (fun _ => hstart) hconnect).of_runActions
      (exclusive_accepted 0 lost (by simp [lost, Exclusive])) hrest
  refine ⟨w, hrun, hreach, ⟨?_, ?_, ?_, Or.inl hsocket⟩⟩
  · rintro (_ | a)
    · exact hfirst
    · -- no other attempt has been made
      rw [(sound_single hreach).1.unused (a + 1) (by omega)]
      exact id
  · rw [hstack]
    exact List.not_mem_nil
  · rw [hstack]
    exact fun _ _ => List.not_mem_nil

/-- After the timer has fired and a second connection is made, a byte that arrives on it is the only
one in the buffer. -/
theorem one_connection_symbolic :
    ∃ w, runActions symbolicStep (.connect :: (accepted 0 ++ lost) ++
        .reconnect 0 :: (accepted 1 ++ [.data 1 [0x82], .run, .run])) .start = some w ∧
      w.client.buffer = [(1, 0x82)] ∧ w.client.socket = some 1 ∧ (w.attempts 0).handlers = 0 ∧
      OneConnection w := by
  have hends : (runActions symbolicStep (.connect :: (accepted 0 ++ lost) ++
      .reconnect 0 :: (accepted 1 ++ [.data 1 [0x82], .run, .run])) .start).map
        (fun w => (w.client.buffer, w.client.socket, (w.attempts 0).handlers)) =
      some ([(1, 0x82)], some 1, 0) := by
    decide +kernel
  obtain ⟨w, hrun, hview⟩ := Option.map_eq_some_iff.1 hends
  simp only [Prod.mk.injEq] at hview
  obtain ⟨hbuffer, hsocket, hhandlers⟩ := hview
  suffices hreached : Reachable symbolicStep Exclusive .start w from
    ⟨w, hrun, hbuffer, hsocket, hhandlers, one_connection hreached⟩
  -- the run goes through the state in which the timer waits
  obtain ⟨w₁, hlost, hreach, hapart⟩ := lost_run
  rw [runActions_append, hlost, Option.bind_some] at hrun
  obtain ⟨w₂, hreconnect, hrest⟩ := Option.bind_eq_some_iff.1 hrun
  exact (hreach.step (Event.reconnect 0) (fun _ => hapart) hreconnect).of_runActions
    (exclusive_accepted 1 [.data 1 [0x82], .run, .run] (by simp [Exclusive])) hrest

/-- A second `connect()` while the challenge is awaited leaves the listeners on the first socket. -/
theorem second_connect_overlaps :
    ¬ ∀ w : Process Sym,
      Run symbolicClient symbolicLibrary (symbolicIdentity 1) symbolicUtf8 (fun _ _ => True) w →
      OneConnection w := by
  intro hone
  obtain ⟨w, hrun, hsocket, hattempt⟩ : ∃ w, runActions symbolicStep
      (.connect :: accepted 0 ++ [.connect, .returned, .run, .opened 1, .resume 1]) .start = some w ∧
      w.client.socket = some 1 ∧ (w.attempts 0).handlers = 1 ∧ (w.attempts 0).destroyed = false :=
    ⟨_, rfl, rfl, rfl, rfl⟩
  have hheld := (hone w (Reachable.start.of_runActions (fun _ _ _ => True.intro) hrun)).held 0
    (by omega) hattempt.2
  rw [hsocket] at hheld
  cases hheld

end

end TorE2EE.Client.Stream
