import TorE2EE.Client.SymbolicRun
import TorE2EE.Client.SyncWait
import TorE2EE.Foundation.Interruption

/-!
# The teardown of a background sync

`executeSync` from step 4 on: `onMessage` starts a call of `processIncomingEnvelope` for every
envelope and nobody awaits it, the callbacks and the drain timer settle the wait, and then the result
is computed, Tor is stopped and the database is closed. `SyncState` has the wait of `Wait`, the
database and the calls, cut open after every operation, and its events are everything that may happen
next.

Once `close` has been called every statement fails. An operation of a call may fail before that too,
by the driver.

`finishes_received` says on which runs a sync that closes its database has finished what it received.
-/

set_option autoImplicit false

namespace TorE2EE.Client.Sync

open TorE2EE.Foundation TorE2EE.Crypto

/-! ## Calls of `processIncomingEnvelope` -/

/-- A call of `onMessage` is in `processIncomingEnvelope`, or has ended: it was counted, or what it
threw was ignored. A program that has returned still waits for its notification. -/
inductive CallStage (B S : Type) where
  | running (rest : ClientM B S Unit)
  | ended (counted : Bool)

/-- A call of `onMessage`. `saved` remembers whether a session was saved, and `stored` the message
that went into the table; the program reads neither. -/
structure EnvelopeCall (B S : Type) where
  stage : CallStage B S
  saved : Bool := false
  stored : Option (StoredMessage S) := none

/-- The operations that `getDriver` is called for. -/
def usesDatabase {B S : Type} : ClientOp B S → Bool
  | .engine .getIdentity => false
  | .engine .secretKey => false
  | .engine (.randomBytes _) => false
  | .engine .randomId => false
  | .engine .now => false
  | .sendMessage _ => false
  | _ => true

/-- The operation saves a session. -/
def savesSession {B S : Type} : ClientOp B S → Bool
  | .engine (.saveSession _ _) => true
  | _ => false

/-- The message an operation has stored. -/
def storedMessage {B S : Type} : (o : ClientOp B S) → o.Resp → Option (StoredMessage S)
  | .saveMessage message, saved =>
      match saved with
      | .ok _ => some message
      | .error _ => none
  | _, _ => none

/-- The operation has stored a message. -/
def Stores {B S : Type} (o : ClientOp B S) (r : o.Resp) : Prop := storedMessage o r ≠ none

namespace EnvelopeCall

variable {B S : Type} (c : EnvelopeCall B S)

/-- The call has not ended. -/
def Running : Prop := ∃ rest, c.stage = .running rest

/-- The call has been counted. -/
def counted : Bool :=
  match c.stage with
  | .ended counted => counted
  | .running _ => false

/-- The call after the answer to its operation. -/
def answered (o : ClientOp B S) (r : o.Resp) (rest : ClientM B S Unit) : EnvelopeCall B S :=
  { stage := .running rest
    saved := c.saved || savesSession o
    stored := c.stored.or (storedMessage o r) }

end EnvelopeCall

/-! ## The sync -/

/-- `status` of `BackgroundSyncResult`, after the wait. -/
inductive SyncStatus where
  | newData
  | noData
  | failed
  deriving DecidableEq

/-- `BackgroundSyncResult`, without its duration and its error text. -/
structure SyncResult where
  status : SyncStatus
  messagesReceived : Nat
  deriving DecidableEq

/-- What `executeSync` returns after the wait, from its `try` block or from its `catch` block. -/
def syncResult (settled : Except Unit Unit) (messagesReceivedCount : Nat) : SyncResult :=
  match settled with
  | .ok _ =>
      { status := if 0 < messagesReceivedCount then .newData else .noData
        messagesReceived := messagesReceivedCount }
  | .error _ => { status := .failed, messagesReceived := messagesReceivedCount }

@[simp] theorem messagesReceived_syncResult (settled : Except Unit Unit) (n : Nat) :
    (syncResult settled n).messagesReceived = n := by
  cases settled <;> rfl

/-- Where `executeSync` is. The result is computed before the `finally` block. -/
inductive SyncPhase where
  | waiting
  /-- In the `finally` block, before `dbManager.close()`. -/
  | finishing (result : SyncResult)
  /-- `dbManager.close()` has been called. -/
  | closed (result : SyncResult)
  deriving DecidableEq

/-- The result that has been computed. -/
def SyncPhase.result? : SyncPhase → Option SyncResult
  | waiting => none
  | finishing result => some result
  | closed result => some result

/-- `close` has been called. -/
def SyncPhase.isClosed : SyncPhase → Bool
  | closed _ => true
  | _ => false

/-- A sync from the beginning of its wait. -/
structure SyncState (B S : Type) where
  wait : Wait := {}
  db : ClientState B S
  calls : List (EnvelopeCall B S) := []
  messagesReceivedCount : Nat := 0
  phase : SyncPhase := .waiting

/-- What may happen next. -/
inductive SyncEvent (S : Type) where
  | authenticated
  | message (payload : IncomingMessagePayload S)
  | error
  | disconnect
  | drainTimer (t : Nat)
  /-- The operation that a call awaits is performed. -/
  | perform (call : Nat)
  /-- The statement that a call awaits fails. -/
  | fail (call : Nat) (e : ClientError S)
  /-- The notification of a call is displayed, or fails. -/
  | notified (call : Nat) (ok : Bool)
  /-- The `catch` block of a call. -/
  | caught (call : Nat)
  /-- `executeSync` goes on after its wait. -/
  | proceed
  /-- `executeSync` calls `dbManager.close()`. -/
  | close

namespace SyncState

/-- The wait begins on a database. -/
def start {B S : Type} (db : ClientState B S) : SyncState B S := { db }

section Steps

variable {B S : Type} [DecidableEq S] (P : Primitives B S) (L : ClientLibrary B S)
  (U : UntypedCalls B S) (E : Entropy B) (N : Network) (s : SyncState B S)

omit [DecidableEq S] in
/-- A callback of the stream client settles the wait or arms its timer. After the wait `disconnect`
has been called, and there are no callbacks. -/
def callback (wait : Wait) : Option (SyncState B S) :=
  match s.phase with
  | .waiting => some { s with wait }
  | _ => none

/-- A call performs its operation, which it cannot on a database that is closed. -/
def perform (i : Nat) (c : EnvelopeCall B S) : Option (SyncState B S) :=
  match c.stage with
  | .running (.call o next) =>
      if s.phase.isClosed && usesDatabase o then none
      else
        let r := ClientOp.handle P E N o s.db
        some { s with db := r.2, calls := s.calls.set i (c.answered o r.1 (next r.1)) }
  | _ => none

omit [DecidableEq S] in
/-- The statement of a call fails. -/
def fail (i : Nat) (e : ClientError S) (c : EnvelopeCall B S) : Option (SyncState B S) :=
  match c.stage with
  | .running (.call o _) =>
      if usesDatabase o then
        some { s with calls := s.calls.set i { c with stage := .running (.throw e) } }
      else none
  | _ => none

omit [DecidableEq S] in
/-- The rest of `onMessage` after `processIncomingEnvelope` has stored the message. -/
def notified (i : Nat) (ok : Bool) (c : EnvelopeCall B S) : Option (SyncState B S) :=
  match c.stage with
  | .running (.ret _) =>
      if ok then
        some { s with
          wait := s.wait.messageProcessed
          calls := s.calls.set i { c with stage := .ended true }
          messagesReceivedCount := s.messagesReceivedCount + 1 }
      else some { s with calls := s.calls.set i { c with stage := .ended false } }
  | _ => none

omit [DecidableEq S] in
/-- `catch`: what was thrown is ignored. -/
def caught (i : Nat) (c : EnvelopeCall B S) : Option (SyncState B S) :=
  match c.stage with
  | .running (.throw _) => some { s with calls := s.calls.set i { c with stage := .ended false } }
  | _ => none

/-- `onMessage` begins to process an envelope. -/
def message (payload : IncomingMessagePayload S) : Option (SyncState B S) :=
  match s.phase with
  | .waiting =>
      some { s with
        calls := s.calls ++ [{ stage := .running (processIncomingEnvelope P L U payload) }] }
  | _ => none

omit [DecidableEq S] in
/-- `executeSync` goes on after its wait: the result is computed, and the `finally` block begins. -/
def proceed : Option (SyncState B S) :=
  match s.phase, s.wait.settled with
  | .waiting, some settled =>
      some { s with phase := .finishing (syncResult settled s.messagesReceivedCount) }
  | _, _ => none

omit [DecidableEq S] in
/-- `executeSync` calls `dbManager.close()`. -/
def close : Option (SyncState B S) :=
  match s.phase with
  | .finishing result => some { s with phase := .closed result }
  | _ => none

/-- One event of a sync. -/
def step : SyncEvent S → Option (SyncState B S)
  | .authenticated => s.callback s.wait.onAuthenticated
  | .message payload => s.message P L U payload
  | .error => s.callback s.wait.onError
  | .disconnect => s.callback s.wait.onDisconnect
  | .drainTimer t => (s.wait.fire t).map fun wait => { s with wait }
  | .perform i => s.calls[i]?.bind (s.perform P E N i)
  | .fail i e => s.calls[i]?.bind (s.fail i e)
  | .notified i ok => s.calls[i]?.bind (s.notified i ok)
  | .caught i => s.calls[i]?.bind (s.caught i)
  | .proceed => s.proceed
  | .close => s.close

end Steps

/-! ## Finishing what was received -/

section Finishing

variable {B S : Type} [DecidableEq S] (P : Primitives B S)

/-- A sync that began on `start` has finished what it received: no call is running, the message of
every call that saved a session has its row, and as many rows were inserted as are reported. -/
structure FinishesReceived (start : ClientState B S) (s : SyncState B S) (result : SyncResult) :
    Prop where
  ended : ∀ c ∈ s.calls, ¬ c.Running
  stored : ∀ c ∈ s.calls, c.saved = true →
    ∃ message, c.stored = some message ∧ messageRow P message ∈ s.db.messages
  inserted : s.db.messages.length = start.messages.length + result.messagesReceived

omit [DecidableEq S] in
/-- The message that a call is about to store has an id no row has. -/
def NewId (s : SyncState B S) (i : Nat) : Prop :=
  ∀ c ∈ s.calls[i]?, ∀ message next, c.stage = .running (.call (.saveMessage message) next) →
    ∀ row ∈ s.db.messages, row.id ≠ message.id

omit [DecidableEq S] in
/-- A step that does not disturb the calls. Nothing settles the wait while a call is running, no
envelope comes after it was settled, a call that has saved a session does not get to its `catch`
block, and no random id is drawn twice. -/
def Undisturbed (s : SyncState B S) : SyncEvent S → Prop
  | .message _ => s.wait.settled = none
  | .error => ∀ c ∈ s.calls, ¬ c.Running
  | .disconnect => ∀ c ∈ s.calls, ¬ c.Running
  | .drainTimer _ => ∀ c ∈ s.calls, ¬ c.Running
  | .perform i => s.NewId i
  | .notified _ ok => ok = true
  | .caught i => ∀ c ∈ s.calls[i]?, c.saved = false
  | _ => True

end Finishing

end SyncState

/-! ## The operations of a call -/

section Operations

variable {B S : Type} [DecidableEq S] {P : Primitives B S} {L : ClientLibrary B S}
  {U : UntypedCalls B S} {E : Entropy B} {N : Network}

/-- An operation that is not `saveMessage` stores nothing. -/
def StoresNothing (o : ClientOp B S) : Prop := ∀ r, ¬ Stores o r

omit [DecidableEq S] in
theorem quiet_engine {α : Type} (c : EngineM B S α) : (engine c).Quiet StoresNothing := by
  rw [engine]
  apply Program.quiet_translate
  intro o
  exact Program.quiet_perform fun _ hstores => hstores rfl

omit [DecidableEq S] in
theorem quiet_firstWithSession (contacts : List (ContactRecord S)) :
    (firstWithSession contacts : ClientM B S _).Quiet StoresNothing := by
  -- on the contacts; a contact costs one query
  induction contacts with
  | nil => trivial
  | cons c contacts ih =>
      refine Program.quiet_bind (Program.quiet_perform fun _ hstores => hstores rfl) ?_
      intro found
      cases found with
      | none => exact ih
      | some session => trivial

omit [DecidableEq S] in
theorem quiet_dateNow : (dateNow : ClientM B S Nat).Quiet StoresNothing :=
  Program.quiet_perform fun _ hstores => hstores rfl

omit [DecidableEq S] in
theorem quiet_contactOfKey (placeholderAlias : String) (initialIdentityKeyHex : Option (Json S)) :
    (contactOfKey P placeholderAlias initialIdentityKeyHex).Quiet StoresNothing := by
  rw [contactOfKey]
  split
  · trivial
  · refine Program.quiet_bind (Program.quiet_perform fun _ hstores => hstores rfl) ?_
    intro found
    cases found with
    | some contact => trivial
    | none =>
        refine Program.quiet_bind quiet_dateNow fun createdAt => ?_
        exact Program.quiet_bind (Program.quiet_perform fun _ hstores => hstores rfl) fun _ => trivial

omit [DecidableEq S] in
theorem quiet_contactOfSession (unresolved : ClientError S) :
    (contactOfSession P unresolved).Quiet StoresNothing := by
  refine Program.quiet_bind (Program.quiet_perform fun _ hstores => hstores rfl) fun contacts => ?_
  refine Program.quiet_bind (quiet_firstWithSession contacts) fun found => ?_
  cases found <;> trivial

theorem quiet_resolveSender (placeholderAlias : String) (unresolved : ClientError S)
    (encryptedMsg : Json S) :
    (resolveSender P placeholderAlias unresolved encryptedMsg).Quiet StoresNothing := by
  have hnamed : ∀ found : S × ContactRecord S,
      (if found.1 = P.lit "" then Program.throw unresolved else pure found :
        ClientM B S _).Quiet StoresNothing := by
    intro found
    split <;> trivial
  refine Program.quiet_bind (Program.quiet_ofExcept _) fun initialIdentityKeyHex => ?_
  dsimp only
  split
  · exact Program.quiet_bind (quiet_contactOfKey _ _) hnamed
  · exact Program.quiet_bind (quiet_contactOfSession _) hnamed

/-- Until the message is stored, `processIncomingEnvelope` stores nothing. -/
theorem quiet_openEnvelope (placeholderAlias : String) (unresolved : ClientError S)
    (payload : IncomingMessagePayload S) :
    (openEnvelope P L U placeholderAlias unresolved payload).Quiet StoresNothing := by
  rw [openEnvelope]
  split
  · trivial
  · refine Program.quiet_bind (quiet_resolveSender _ _ _) fun found => ?_
    exact Program.quiet_bind (quiet_engine _) fun _ => trivial

omit [DecidableEq S] in
/-- Storing a message is the last operation, and when it fails the call throws. -/
theorem returnsAfter_storeMessage (message : StoredMessage S) :
    (storeMessage message : ClientM B S Unit).ReturnsAfter Stores := by
  intro saved
  -- the database stores the message or refuses it
  cases saved with
  | ok u => exact Or.inl ⟨by simp [Stores, storedMessage], u, rfl⟩
  | error e => exact Or.inr ⟨by simp [Stores, storedMessage], trivial⟩

/-- `processIncomingEnvelope` returns when it has stored its message, and in no other way. -/
theorem returnsAfter_processIncomingEnvelope (payload : IncomingMessagePayload S) :
    (processIncomingEnvelope P L U payload).ReturnsAfter Stores := by
  -- everything before `saveMessage` stores nothing, operation by operation
  refine Program.returnsAfter_bind (quiet_openEnvelope _ _ _) fun opened => ?_
  refine Program.returnsAfter_bind (Program.quiet_perform fun _ hstores => hstores rfl) fun id => ?_
  refine Program.returnsAfter_bind (Program.quiet_perform fun _ hstores => hstores rfl)
    fun identity => ?_
  refine Program.returnsAfter_bind ?_ fun timestamp => returnsAfter_storeMessage _
  rw [messageTime]
  split
  · exact quiet_dateNow
  · trivial

/-- The rows after an operation: the message it stored is added, when its id is new. -/
theorem messages_handle (o : ClientOp B S) (x : ClientState B S)
    (hnew : ∀ message, o = .saveMessage message → ∀ row ∈ x.messages, row.id ≠ message.id) :
    (ClientOp.handle P E N o x).2.messages =
      x.messages ++
        ((storedMessage o (ClientOp.handle P E N o x).1).map (messageRow P)).toList := by
  cases o with
  | saveMessage message =>
      have hfresh := hnew message rfl
      show (x.saveMessage P message).2.messages =
        x.messages ++ ((storedMessage (.saveMessage message) (x.saveMessage P message).1).map
          (messageRow P)).toList
      rw [ClientState.saveMessage]
      -- the database refuses a message without a contact
      split
      · exact upsertBy_of_new hfresh
      · exact (List.append_nil _).symm
  | _ => exact (List.append_nil _).symm

end Operations

/-! ## Orderly calls -/

section Calls

variable {B S : Type} {c : EnvelopeCall B S}

/-- A call that runs has returned from `processIncomingEnvelope` if and only if its message is stored.
A call that has ended was counted, with its message stored, or has left no trace. -/
def EnvelopeCall.Orderly (c : EnvelopeCall B S) : Prop :=
  match c.stage with
  | .running rest =>
      (c.stored = none ∧ rest.ReturnsAfter Stores) ∨ (c.stored ≠ none ∧ ∃ u, rest = .ret u)
  | .ended true => c.stored ≠ none
  | .ended false => c.stored = none ∧ c.saved = false

namespace EnvelopeCall.Orderly

theorem of_call (h : c.Orderly) {o : ClientOp B S} {next : o.Resp → ClientM B S Unit}
    (hstage : c.stage = .running (.call o next)) :
    c.stored = none ∧ (Program.call o next).ReturnsAfter Stores := by
  simp only [Orderly, hstage] at h
  rcases h with hrunning | ⟨-, u, hreturned⟩
  · exact hrunning
  · cases hreturned

theorem of_ret (h : c.Orderly) {u : Unit} (hstage : c.stage = .running (.ret u)) :
    c.stored ≠ none := by
  simp only [Orderly, hstage] at h
  rcases h with ⟨-, hnever⟩ | ⟨hstored, -⟩
  · exact absurd hnever id
  · exact hstored

theorem of_throw (h : c.Orderly) {e : ClientError S} (hstage : c.stage = .running (.throw e)) :
    c.stored = none := by
  simp only [Orderly, hstage] at h
  rcases h with ⟨hnone, -⟩ | ⟨-, u, hreturned⟩
  · exact hnone
  · cases hreturned

/-- An operation keeps a call orderly: it stores the message and the program returns, or it does
not. -/
theorem answered (h : c.Orderly) {o : ClientOp B S} {next : o.Resp → ClientM B S Unit}
    (hstage : c.stage = .running (.call o next)) (r : o.Resp) :
    (c.answered o r (next r)).Orderly := by
  obtain ⟨hnone, hreturns⟩ := h.of_call hstage
  have hstored : (c.answered o r (next r)).stored = storedMessage o r := by
    rw [EnvelopeCall.answered, hnone]
    rfl
  rcases hreturns r with ⟨hstores, u, hreturned⟩ | ⟨hnot, hrest⟩
  · exact Or.inr ⟨hstored ▸ hstores, u, hreturned⟩
  · exact Or.inl ⟨hstored.trans (not_not.1 hnot), hrest⟩

/-- A call that has ended was counted, with its message stored, or has left no trace. -/
theorem of_ended (h : c.Orderly) (hended : ¬ c.Running) :
    (c.counted = true ∧ c.stored ≠ none) ∨
      (c.counted = false ∧ c.stored = none ∧ c.saved = false) := by
  rcases hstage : c.stage with rest | counted
  · exact absurd ⟨rest, hstage⟩ hended
  · simp only [EnvelopeCall.counted, hstage]
    cases counted with
    | true =>
        simp only [Orderly, hstage] at h
        exact Or.inl ⟨rfl, h⟩
    | false =>
        simp only [Orderly, hstage] at h
        exact Or.inr ⟨rfl, h⟩

/-- A call that has ended was counted if and only if its message is stored. -/
theorem counted_iff (h : c.Orderly) (hended : ¬ c.Running) : c.counted = c.stored.isSome := by
  rcases h.of_ended hended with ⟨hcounted, hstored⟩ | ⟨hcounted, hnone, -⟩
  · rw [hcounted, Option.isSome_iff_ne_none.2 hstored]
  · rw [hcounted, hnone, Option.isSome_none]

/-- The session of a call that has ended was saved with its message. -/
theorem stored_of_saved (h : c.Orderly) (hended : ¬ c.Running) (hsaved : c.saved = true) :
    ∃ message, c.stored = some message := by
  rcases h.of_ended hended with ⟨-, hstored⟩ | ⟨-, -, hunsaved⟩
  · exact Option.ne_none_iff_exists'.1 hstored
  · rw [hunsaved] at hsaved
    cases hsaved

end EnvelopeCall.Orderly

/-- What a change of one call does to a count of calls. -/
theorem countP_set_add {calls : List (EnvelopeCall B S)} {i : Nat} (hc : calls[i]? = some c)
    (c' : EnvelopeCall B S) (p : EnvelopeCall B S → Bool) :
    (calls.set i c').countP p + (p c).toNat = calls.countP p + (p c').toNat := by
  -- on the calls up to the one that changes
  induction calls generalizing i with
  | nil => cases hc
  | cons head calls ih =>
      cases i with
      | zero =>
          cases hc
          rw [List.set_cons_zero, List.countP_cons, List.countP_cons]
          cases p c <;> cases p c' <;> simp
      | succ i =>
          have hrest := ih hc
          rw [List.set_cons_succ, List.countP_cons, List.countP_cons]
          omega

end Calls

/-! ## Undisturbed runs -/

namespace SyncState

variable {B S : Type} [DecidableEq S] {P : Primitives B S} {L : ClientLibrary B S}
  {U : UntypedCalls B S} {E : Entropy B} {N : Network} {start s s' : SyncState B S}

/-- What `perform` does. -/
theorem perform_cases {i : Nat} {c : EnvelopeCall B S} (h : s.perform P E N i c = some s') :
    ∃ o next, c.stage = .running (.call o next) ∧
      s' = { s with
        db := (ClientOp.handle P E N o s.db).2
        calls := s.calls.set i (c.answered o (ClientOp.handle P E N o s.db).1
          (next (ClientOp.handle P E N o s.db).1)) } := by
  rw [SyncState.perform] at h
  split at h
  case h_1 o next hstage =>
    split at h
    · cases h
    · exact ⟨o, next, hstage, (Option.some.inj h).symm⟩
  case h_2 => cases h

omit [DecidableEq S] in
/-- What a callback of the stream client does. -/
theorem callback_cases {wait : Wait} (h : s.callback wait = some s') : s' = { s with wait } := by
  rw [SyncState.callback] at h
  split at h
  · exact (Option.some.inj h).symm
  · cases h

/-- What `message` does. -/
theorem message_cases {payload : IncomingMessagePayload S} (h : s.message P L U payload = some s') :
    s' = { s with
      calls := s.calls ++ [{ stage := .running (processIncomingEnvelope P L U payload) }] } := by
  rw [SyncState.message] at h
  split at h
  · exact (Option.some.inj h).symm
  · cases h

omit [DecidableEq S] in
/-- What `proceed` does. -/
theorem proceed_cases (h : s.proceed = some s') :
    ∃ settled, s.wait.settled = some settled ∧
      s' = { s with phase := .finishing (syncResult settled s.messagesReceivedCount) } := by
  rw [SyncState.proceed] at h
  split at h
  case h_1 settled _ hsettled => exact ⟨settled, hsettled, (Option.some.inj h).symm⟩
  case h_2 => cases h

omit [DecidableEq S] in
/-- What `close` does. -/
theorem close_cases (h : s.close = some s') :
    ∃ result, s.phase = .finishing result ∧ s' = { s with phase := .closed result } := by
  rw [SyncState.close] at h
  split at h
  case h_1 result hfinishing => exact ⟨result, hfinishing, (Option.some.inj h).symm⟩
  case h_2 => cases h

omit [DecidableEq S] in
/-- What `fail` does. -/
theorem fail_cases {i : Nat} {e : ClientError S} {c : EnvelopeCall B S}
    (h : s.fail i e c = some s') :
    ∃ o next, c.stage = .running (.call o next) ∧
      s' = { s with calls := s.calls.set i { c with stage := .running (.throw e) } } := by
  rw [SyncState.fail] at h
  split at h
  case h_1 o next hstage =>
    split at h
    · exact ⟨o, next, hstage, (Option.some.inj h).symm⟩
    · cases h
  case h_2 => cases h

omit [DecidableEq S] in
/-- What a notification that is displayed leads to. -/
theorem notified_cases {i : Nat} {c : EnvelopeCall B S} (h : s.notified i true c = some s') :
    ∃ u, c.stage = .running (.ret u) ∧
      s' = { s with
        wait := s.wait.messageProcessed
        calls := s.calls.set i { c with stage := .ended true }
        messagesReceivedCount := s.messagesReceivedCount + 1 } := by
  rw [SyncState.notified] at h
  split at h
  case h_1 u hstage => exact ⟨u, hstage, (Option.some.inj h).symm⟩
  case h_2 => cases h

omit [DecidableEq S] in
/-- What `caught` does. -/
theorem caught_cases {i : Nat} {c : EnvelopeCall B S} (h : s.caught i c = some s') :
    ∃ e, c.stage = .running (.throw e) ∧
      s' = { s with calls := s.calls.set i { c with stage := .ended false } } := by
  rw [SyncState.caught] at h
  split at h
  case h_1 e hstage => exact ⟨e, hstage, (Option.some.inj h).symm⟩
  case h_2 => cases h

/-- While nothing disturbs the calls: the rows that were inserted are those of the calls, the calls
that were counted are counted, and once the wait is settled no call runs. -/
structure Orderly (P : Primitives B S) (db : ClientState B S) (s : SyncState B S) : Prop where
  calls : ∀ c ∈ s.calls, c.Orderly
  rows : ∀ c ∈ s.calls, ∀ message, c.stored = some message → messageRow P message ∈ s.db.messages
  inserted : s.db.messages.length =
    db.messages.length + s.calls.countP fun c => c.stored.isSome
  counted : s.messagesReceivedCount = s.calls.countP EnvelopeCall.counted
  ended : s.wait.settled ≠ none → ∀ c ∈ s.calls, ¬ c.Running
  settled : s.phase ≠ .waiting → s.wait.settled ≠ none
  result : ∀ result, s.phase.result? = some result →
    result.messagesReceived = s.messagesReceivedCount

namespace Orderly

variable {db : ClientState B S}

omit [DecidableEq S] in
theorem of_start : Orderly P db (.start db) where
  calls c hc := absurd hc List.not_mem_nil
  rows c hc := absurd hc List.not_mem_nil
  inserted := rfl
  counted := rfl
  ended hsettled := absurd rfl hsettled
  settled hphase := absurd rfl hphase
  result result hresult := by cases hresult

omit [DecidableEq S] in
/-- While a call runs, the wait is pending. -/
theorem pending (h : Orderly P db s) {i : Nat} {c : EnvelopeCall B S} (hc : s.calls[i]? = some c)
    (hrunning : c.Running) : s.wait.settled = none ∧ s.phase = .waiting := by
  have hpending : s.wait.settled = none :=
    not_not.1 fun hsettled => h.ended hsettled c (List.mem_of_getElem? hc) hrunning
  exact ⟨hpending, not_not.1 fun hphase => h.settled hphase hpending⟩

omit [DecidableEq S] in
/-- The wait is settled while no call runs. -/
theorem settle (h : Orderly P db s) (hended : ∀ c ∈ s.calls, ¬ c.Running) {wait : Wait}
    (hsettled : wait.settled ≠ none) : Orderly P db { s with wait } :=
  { h with
    ended := fun _ => hended
    settled := fun _ => hsettled }

/-- An envelope comes while the wait is pending. -/
theorem message (h : Orderly P db s) (hpending : s.wait.settled = none)
    (payload : IncomingMessagePayload S) :
    Orderly P db
      { s with
        calls := s.calls ++ [{ stage := .running (processIncomingEnvelope P L U payload) }] } where
  calls c hc := by
    rcases List.mem_append.1 hc with hold | hnew
    · exact h.calls c hold
    · rw [List.mem_singleton.1 hnew]
      exact Or.inl ⟨rfl, returnsAfter_processIncomingEnvelope payload⟩
  rows c hc message hmessage := by
    rcases List.mem_append.1 hc with hold | hnew
    · exact h.rows c hold message hmessage
    · rw [List.mem_singleton.1 hnew] at hmessage
      cases hmessage
  inserted := by
    rw [List.countP_append]
    exact h.inserted
  counted := by
    rw [List.countP_append]
    exact h.counted
  ended hsettled := absurd hpending hsettled
  settled := h.settled
  result := h.result

omit [DecidableEq S] in
/-- A call that runs goes on. Its message is stored now, with its row, or nothing is. -/
theorem setCall (h : Orderly P db s) {i : Nat} {c : EnvelopeCall B S} (hc : s.calls[i]? = some c)
    (hrunning : c.Running) (c' : EnvelopeCall B S) (horderly : c'.Orderly)
    {added : Option (StoredMessage S)}
    (hstored : (c.stored = none ∧ c'.stored = added) ∨ (added = none ∧ c'.stored = c.stored))
    {db' : ClientState B S}
    (hmessages : db'.messages = s.db.messages ++ (added.map (messageRow P)).toList) {wait : Wait}
    (hwait : wait.settled = s.wait.settled) :
    Orderly P db
      { s with
        wait
        db := db'
        calls := s.calls.set i c'
        messagesReceivedCount := s.messagesReceivedCount + c'.counted.toNat } := by
  obtain ⟨hpending, hphase⟩ := h.pending hc hrunning
  have hmem := List.mem_of_getElem? hc
  constructor
  case calls =>
    intro c'' hc''
    rcases List.mem_or_eq_of_mem_set hc'' with hold | rfl
    · exact h.calls c'' hold
    · exact horderly
  case rows =>
    -- a sync only adds rows
    have hkept : ∀ row ∈ s.db.messages, row ∈ db'.messages := by
      intro row hrow
      rw [hmessages]
      exact List.mem_append_left _ hrow
    intro c'' hc'' message hmessage
    rcases List.mem_or_eq_of_mem_set hc'' with hold | rfl
    · exact hkept _ (h.rows c'' hold message hmessage)
    · rcases hstored with ⟨-, hadded⟩ | ⟨-, hsame⟩
      · show messageRow P message ∈ db'.messages
        rw [hmessages, ← hadded, hmessage]
        exact List.mem_append_right _ List.mem_cons_self
      · exact hkept _ (h.rows c hmem message (hsame ▸ hmessage))
  case inserted =>
    have hcount := countP_set_add hc c' fun c => c.stored.isSome
    have hinserted := h.inserted
    have hlength : db'.messages.length = s.db.messages.length + added.isSome.toNat := by
      rw [hmessages, List.length_append]
      cases added <;> rfl
    -- the call stores its message once, and has one row from then on
    have hone : c'.stored.isSome.toNat = c.stored.isSome.toNat + added.isSome.toNat := by
      rcases hstored with ⟨hnone, hadded⟩ | ⟨hnone, hsame⟩
      · simp [hnone, hadded]
      · simp [hnone, hsame]
    dsimp only at hcount ⊢
    omega
  case counted =>
    have hcount := countP_set_add hc c' EnvelopeCall.counted
    -- only a call that has ended is counted
    have huncounted : c.counted = false := by
      obtain ⟨rest, hstage⟩ := hrunning
      simp only [EnvelopeCall.counted, hstage]
    rw [huncounted, Bool.toNat_false, Nat.add_zero] at hcount
    rw [hcount, ← h.counted]
  case ended => exact fun hsettled => absurd (hwait.trans hpending) hsettled
  case settled => exact fun hnot => absurd hphase hnot
  case result =>
    intro result hresult
    rw [hphase] at hresult
    cases hresult

/-- A call performs its operation. -/
theorem perform (h : Orderly P db s) {i : Nat} {c : EnvelopeCall B S} (hc : s.calls[i]? = some c)
    (hnew : s.NewId i) (hperform : s.perform P E N i c = some s') : Orderly P db s' := by
  obtain ⟨o, next, hstage, rfl⟩ := perform_cases hperform
  have horderly := h.calls c (List.mem_of_getElem? hc)
  -- a call that has stored its message performs nothing more
  have hnone : c.stored = none := (horderly.of_call hstage).1
  have hmessages := messages_handle (P := P) (E := E) (N := N) o s.db fun message ho => by
    subst ho
    exact hnew c hc message next hstage
  refine h.setCall hc ⟨_, hstage⟩ _ (horderly.answered hstage _) (Or.inl ⟨hnone, ?_⟩) hmessages rfl
  rw [EnvelopeCall.answered, hnone]
  rfl

omit [DecidableEq S] in
/-- The statement of a call fails, and the call will throw. -/
theorem fail (h : Orderly P db s) {i : Nat} {c : EnvelopeCall B S} (hc : s.calls[i]? = some c)
    {e : ClientError S} (hfail : s.fail i e c = some s') : Orderly P db s' := by
  obtain ⟨o, next, hstage, rfl⟩ := fail_cases hfail
  have hnone : c.stored = none := ((h.calls c (List.mem_of_getElem? hc)).of_call hstage).1
  exact h.setCall hc ⟨_, hstage⟩ { c with stage := .running (.throw e) }
    (Or.inl ⟨hnone, trivial⟩) (Or.inr ⟨rfl, rfl⟩) (List.append_nil _).symm rfl

omit [DecidableEq S] in
/-- A call has shown its notification and is counted. -/
theorem notified (h : Orderly P db s) {i : Nat} {c : EnvelopeCall B S} (hc : s.calls[i]? = some c)
    (hnotified : s.notified i true c = some s') : Orderly P db s' := by
  obtain ⟨u, hstage, rfl⟩ := notified_cases hnotified
  have hstored := (h.calls c (List.mem_of_getElem? hc)).of_ret hstage
  exact h.setCall hc ⟨_, hstage⟩ { c with stage := .ended true } hstored (Or.inr ⟨rfl, rfl⟩)
    (List.append_nil _).symm s.wait.settled_messageProcessed

omit [DecidableEq S] in
/-- A call that has thrown, and had saved no session. -/
theorem caught (h : Orderly P db s) {i : Nat} {c : EnvelopeCall B S} (hc : s.calls[i]? = some c)
    (hsaved : c.saved = false) (hcaught : s.caught i c = some s') : Orderly P db s' := by
  obtain ⟨e, hstage, rfl⟩ := caught_cases hcaught
  have hnone := (h.calls c (List.mem_of_getElem? hc)).of_throw hstage
  exact h.setCall hc ⟨_, hstage⟩ { c with stage := .ended false } ⟨hnone, hsaved⟩
    (Or.inr ⟨rfl, rfl⟩) (List.append_nil _).symm rfl

/-- An undisturbed event keeps the sync orderly. -/
theorem step (h : Orderly P db s) {e : SyncEvent S} (hundisturbed : s.Undisturbed e)
    (hstep : s.step P L U E N e = some s') : Orderly P db s' := by
  -- The sync settles only where no call is under way, which `Undisturbed` asks of its event.
  cases e with
  | authenticated =>
      obtain rfl := callback_cases hstep
      exact { h with ended := h.ended, settled := h.settled }
  | message payload =>
      obtain rfl := message_cases hstep
      exact h.message hundisturbed payload
  | error =>
      obtain rfl := callback_cases hstep
      exact h.settle hundisturbed (Wait.settled_settle _ _)
  | disconnect =>
      obtain rfl := callback_cases hstep
      exact h.settle hundisturbed (Wait.settled_settle _ _)
  | drainTimer t =>
      obtain ⟨wait, hwait, rfl⟩ := Option.map_eq_some_iff.1 hstep
      exact h.settle hundisturbed (s.wait.settled_fire hwait)
  | perform i =>
      obtain ⟨c, hc, hperform⟩ := Option.bind_eq_some_iff.1 hstep
      exact h.perform hc hundisturbed hperform
  | fail i e =>
      obtain ⟨c, hc, hfail⟩ := Option.bind_eq_some_iff.1 hstep
      exact h.fail hc hfail
  | notified i ok =>
      obtain ⟨c, hc, hnotified⟩ := Option.bind_eq_some_iff.1 hstep
      obtain rfl : ok = true := hundisturbed
      exact h.notified hc hnotified
  | caught i =>
      obtain ⟨c, hc, hcaught⟩ := Option.bind_eq_some_iff.1 hstep
      exact h.caught hc (hundisturbed c hc) hcaught
  | proceed =>
      obtain ⟨outcome, houtcome, rfl⟩ := proceed_cases hstep
      refine { h with settled := fun _ => by simp [houtcome], result := ?_ }
      rintro _ ⟨⟩
      exact messagesReceived_syncResult _ _
  | close =>
      obtain ⟨result, hfinishing, rfl⟩ := close_cases hstep
      refine { h with settled := fun _ => h.settled (by simp [hfinishing]), result := ?_ }
      rintro _ ⟨⟩
      exact h.result result (by rw [hfinishing]; rfl)

omit [DecidableEq S] in
/-- An orderly sync that closes its database has finished what it received. -/
theorem finishes (h : Orderly P db s) {result : SyncResult} (hclosed : s.phase = .closed result) :
    s.FinishesReceived P db result := by
  have hended := h.ended (h.settled (by simp [hclosed]))
  constructor
  case ended => exact hended
  case stored =>
    intro c hc hsaved
    obtain ⟨message, hmessage⟩ := (h.calls c hc).stored_of_saved (hended c hc) hsaved
    exact ⟨message, hmessage, h.rows c hc message hmessage⟩
  case inserted =>
    -- the calls that were counted are those whose message is stored
    have hcounts : s.calls.countP EnvelopeCall.counted =
        s.calls.countP fun c => c.stored.isSome := by
      apply List.countP_congr
      intro c hc
      rw [(h.calls c hc).counted_iff (hended c hc)]
    rw [h.inserted, h.result result (by rw [hclosed]; rfl), h.counted, hcounts]

end Orderly

/-- In every run of a sync in which no step disturbs the calls, from any database: when it closes its
database, no call of `processIncomingEnvelope` is running, every envelope whose session was saved has
its row, and the result reports as many messages as rows were inserted. -/
theorem finishes_received {db : ClientState B S} {result : SyncResult}
    (h : Reachable (SyncState.step P L U E N) SyncState.Undisturbed (.start db) s)
    (hclosed : s.phase = .closed result) : s.FinishesReceived P db result := by
  have horderly : Orderly P db s :=
    h.invariant Orderly.of_start fun _ _ _ ih hundisturbed hstep => ih.step hundisturbed hstep
  exact horderly.finishes hclosed

/-! ## One envelope -/

/-- A call that is alone performs its operations one after another, undisturbed. -/
theorem performs {p : ClientM B S Unit} {c : EnvelopeCall B S} {u : Unit} {y : ClientState B S}
    (hcalls : s.calls = [c]) (hstage : c.stage = .running p) (hphase : s.phase = .waiting)
    (hrun : p.run P E N s.db = (.ok u, y))
    (hreturns : (s.db.messages = [] ∧ p.ReturnsAfter Stores) ∨ ∃ v, p = .ret v) :
    ∃ n s' c', AllowedRun (SyncState.step P L U E N) SyncState.Undisturbed
        (List.replicate n (.perform 0)) s s' ∧
      s'.calls = [c'] ∧ c'.stage = .running (.ret u) ∧ s'.phase = .waiting ∧ s'.wait = s.wait ∧
      s'.messagesReceivedCount = s.messagesReceivedCount := by
  -- on what is left of the program; it is orderly until its message is stored
  induction p generalizing s c with
  | ret v =>
      cases hrun
      exact ⟨0, s, c, rfl, hcalls, hstage, hphase, rfl, rfl⟩
  | throw e => cases hrun
  | call o next ih =>
      rcases hreturns with ⟨hempty, hreturns⟩ | ⟨v, hreturned⟩
      · have hmessages := messages_handle (P := P) (E := E) (N := N) o s.db fun _ _ row hrow => by
          rw [hempty] at hrow
          cases hrow
        let r := ClientOp.handle P E N o s.db
        let s₁ : SyncState B S :=
          { s with db := r.2, calls := s.calls.set 0 (c.answered o r.1 (next r.1)) }
        have hstep : s.step P L U E N (.perform 0) = some s₁ := by
          simp [SyncState.step, hcalls, SyncState.perform, hstage, hphase, SyncPhase.isClosed, s₁, r]
        have hnew : s.Undisturbed (.perform 0 : SyncEvent S) := by
          intro c' _ message _ _ row hrow
          rw [hempty] at hrow
          cases hrow
        -- after the answer the program has returned, or goes on with nothing stored
        have hrest : (s₁.db.messages = [] ∧ (next r.1).ReturnsAfter Stores) ∨
            ∃ v, next r.1 = .ret v := by
          rcases hreturns r.1 with ⟨-, hreturned⟩ | ⟨hnot, hrest⟩
          · exact Or.inr hreturned
          · left
            refine ⟨?_, hrest⟩
            show r.2.messages = []
            rw [hmessages, hempty, not_not.1 hnot]
            rfl
        have hcalls₁ : s₁.calls = [c.answered o r.1 (next r.1)] := by
          simp [s₁, hcalls]
        obtain ⟨n, s', c', hallowed, hafter⟩ := ih r.1 hcalls₁ rfl hphase hrun hrest
        exact ⟨n + 1, s', c', ⟨hnew, s₁, hstep, hallowed⟩, hafter⟩
      · cases hreturned

/-- A sync on a database without messages that receives one envelope, and processes it in time. -/
theorem closes_after_one {db y : ClientState B S} {payload : IncomingMessagePayload S} {u : Unit}
    (hrun : (processIncomingEnvelope P L U payload).run P E N db = (.ok u, y))
    (hempty : db.messages = []) :
    ∃ s, Reachable (SyncState.step P L U E N) SyncState.Undisturbed (.start db) s ∧
      s.phase = .closed { status := .newData, messagesReceived := 1 } := by
  let waiting : SyncState B S := { db, wait := ({} : Wait).onAuthenticated }
  let received : SyncState B S :=
    { waiting with calls := [{ stage := .running (processIncomingEnvelope P L U payload) }] }
  have hreceived : Reachable (SyncState.step P L U E N) SyncState.Undisturbed (.start db)
      received := by
    have hwaiting : Reachable (SyncState.step P L U E N) SyncState.Undisturbed (.start db)
        waiting := Reachable.start.step .authenticated True.intro rfl
    exact hwaiting.step (.message payload) (show waiting.wait.settled = none from rfl) rfl
  obtain ⟨n, s, c, hallowed, hcalls, hstage, hphase, hwait, hcount⟩ :=
    performs (P := P) (L := L) (U := U) (E := E) (N := N) (s := received) rfl rfl rfl hrun
      (Or.inl ⟨hempty, returnsAfter_processIncomingEnvelope payload⟩)
  -- the message is counted, the drain timer that was armed again fires, and the database is closed
  let counted : SyncState B S :=
    { s with
      wait := received.wait.messageProcessed
      calls := [{ c with stage := .ended true }]
      messagesReceivedCount := 1 }
  have hcounted : s.step P L U E N (.notified 0 true) = some counted := by
    simp [SyncState.step, hcalls, SyncState.notified, hstage, hwait, hcount, counted, received,
      waiting]
  let settled : SyncState B S :=
    { counted with
      wait := ({ counted.wait with armed := counted.wait.armed.erase 1 } : Wait).cleanupAndFinish }
  have hended : ∀ c' ∈ counted.calls, ¬ c'.Running := by
    rintro c' hc' ⟨rest, hrest⟩
    rw [List.mem_singleton.1 hc'] at hrest
    cases hrest
  have hsettled : counted.step P L U E N (.drainTimer 1) = some settled := rfl
  have hproceed : settled.step P L U E N .proceed =
      some { settled with phase := .finishing { status := .newData, messagesReceived := 1 } } := by
    show settled.proceed = _
    rw [SyncState.proceed, show settled.phase = .waiting from hphase]
    rfl
  have hreach : Reachable (SyncState.step P L U E N) SyncState.Undisturbed (.start db) settled :=
    ((hreceived.of_allowedRun hallowed).step (SyncEvent.notified 0 true) rfl hcounted).step
      (SyncEvent.drainTimer 1) hended hsettled
  exact ⟨_, (hreach.step SyncEvent.proceed True.intro hproceed).step SyncEvent.close True.intro rfl,
    rfl⟩

/-! ## A sync over symbolic terms -/

section

open TorE2EE.Crypto.Sym

/-- The steps of a sync of `bob`. -/
abbrev symbolicSyncStep : SyncState Sym Sym → SyncEvent Sym → Option (SyncState Sym Sym) :=
  SyncState.step symbolicClient symbolicLibrary symbolicUntyped symbolicEntropy symbolicNetwork

/-- A sync that receives a greeting and stores it in time. -/
theorem finishes_received_greeting :
    ∃ s, Reachable symbolicSyncStep SyncState.Undisturbed (.start symbolicBob) s ∧
      s.phase = .closed { status := .newData, messagesReceived := 1 } ∧
      s.FinishesReceived symbolicClient symbolicBob
        { status := .newData, messagesReceived := 1 } := by
  obtain ⟨y, hrun⟩ : ∃ y, (processIncomingEnvelope symbolicClient symbolicLibrary symbolicUntyped
      (symbolicIncoming (text "hello"))).run symbolicClient symbolicEntropy symbolicNetwork
        symbolicBob = (.ok (), y) := ⟨_, rfl⟩
  obtain ⟨s, hreach, hclosed⟩ := closes_after_one hrun rfl
  exact ⟨s, hreach, hclosed, finishes_received hreach hclosed⟩

/-- The greeting comes, its session is saved, and the drain timer of `onAuthenticated` fires. -/
def overtakingEvents : List (SyncEvent Sym) :=
  [.authenticated, .message (symbolicIncoming (text "hello"))] ++ List.replicate 14 (.perform 0) ++
    [.drainTimer 0, .proceed, .close]

/-- The database is closed while the call runs, which has saved its session and stored nothing. -/
theorem teardown_overtakes_call :
    ∃ s result, Reachable symbolicSyncStep (fun _ _ => True) (.start symbolicBob) s ∧
      s.phase = .closed result ∧ ¬ s.FinishesReceived symbolicClient symbolicBob result := by
  obtain ⟨s, c, hrun, hclosed, hcalls, hsaved, hstored⟩ :
      ∃ s c, runActions symbolicSyncStep overtakingEvents (.start symbolicBob) = some s ∧
        s.phase = .closed { status := .noData, messagesReceived := 0 } ∧ s.calls = [c] ∧
        c.saved = true ∧ c.stored = none :=
    ⟨_, _, rfl, rfl, rfl, rfl, rfl⟩
  refine ⟨s, _, Reachable.start.of_runActions (fun _ _ _ => trivial) hrun, hclosed, fun h => ?_⟩
  obtain ⟨message, hmessage, -⟩ := h.stored c (hcalls ▸ List.mem_cons_self) hsaved
  rw [hstored] at hmessage
  cases hmessage

end

end SyncState

end TorE2EE.Client.Sync
