import TorE2EE.Foundation.Traces
import TorE2EE.Relay.Isolation

/-!
# Expired rows

`fetch_and_delete_messages` does not look at `expires_at`; expired rows leave the table when the
worker runs `cleanup_expired_messages`. A row is in the table if and only if it was inserted and has
since met neither a drain of its mailbox nor a cleanup at or after its expiry (`mem_rows_iff`), and
this is also what a drain hands out (`drain_hands_out`).
-/

set_option autoImplicit false

namespace TorE2EE.Relay

open TorE2EE.Foundation

variable {A : AuthLibrary} {r r' : Relay A}

/-- What the functions of `db.rs` do to the table. -/
inductive StoreEvent where
  | enqueued (row : Copy)
  | drained (recipientPubkeyHash : String)
  | cleaned (now : Int)
  deriving DecidableEq

/-- The event deletes the row. -/
def StoreEvent.Removes (c : Copy) : StoreEvent → Prop
  | enqueued _ => False
  | drained k => c.message.recipientPubkeyHash = k
  | cleaned now => c.message.expiresAt ≤ now

/-- The event of a step of the relay. -/
def storeEvent (r : Relay A) : Action → Option StoreEvent
  | .enqueue i true => r.requests[i]?.map fun q =>
      .enqueued (r.db.enqueueMessage i q.payload.recipientPubkeyHash q.payload.encryptedPayload
        q.payload.nonce r.config.ttlSeconds r.clock).2
  | .fetch i true => (r.sessions[i]?.bind Session.mailbox).map .drained
  | .cleanup true => some (.cleaned r.clock)
  | _ => none

/-- The row was inserted, and nothing has deleted it since. -/
def Waiting (trace : List StoreEvent) (c : Copy) : Prop :=
  Since (· = .enqueued c) (StoreEvent.Removes c) trace

/-! ## The table -/

/-- A cleanup deletes the expired rows and no others. -/
theorem mem_cleanupExpiredMessages {db : Database} {now : Int} {c : Copy} :
    c ∈ (db.cleanupExpiredMessages now).rows ↔ c ∈ db.rows ∧ ¬ c.message.expiresAt ≤ now := by
  rw [Database.cleanupExpiredMessages, List.mem_filter, decide_eq_true_iff]

theorem rows_dispatching (r : Relay A) (i : Nat) (q : Request) (msg : QueuedMessage) :
    (r.dispatching i q msg).db = r.db := by
  rcases dispatching_cases r i q msg with ⟨_, _, -, -, -, heq⟩ | ⟨-, heq⟩ <;> rw [heq] <;> rfl

/-- What a step does to the table is what its event says. -/
theorem Step.mem_rows {a : Action} (h : Step r a r') (c : Copy) :
    c ∈ r'.db.rows ↔ (∃ e, storeEvent r a = some e ∧ e = .enqueued c) ∨
      (c ∈ r.db.rows ∧ ∀ e, storeEvent r a = some e → ¬ e.Removes c) := by
  -- only three kinds of steps have an event
  have hquiet (hnone : storeEvent r a = none) (hrows : r'.db = r.db) :
      c ∈ r'.db.rows ↔ (∃ e, storeEvent r a = some e ∧ e = .enqueued c) ∨
        (c ∈ r.db.rows ∧ ∀ e, storeEvent r a = some e → ¬ e.Removes c) := by
    simp [hnone, hrows]
  cases h with
  | @enqueue i q hq hphase =>
      simp [storeEvent, hq, Relay.enqueueing, Database.enqueueMessage, StoreEvent.Removes,
        or_comm, eq_comm]
  | @fetch i s login hsession hphase =>
      have hbox : s.mailbox = some login.hash := mailbox_of_login (by rw [hphase]; rfl)
      have hrows : (r.fetching i s login).db.rows =
          r.db.rows.filter fun c => c.message.recipientPubkeyHash ≠ login.hash :=
        Database.rows_fetchAndDeleteMessages login.hash
      simp [storeEvent, hsession, hbox, hrows, StoreEvent.Removes]
  | cleanup => simp [storeEvent, mem_cleanupExpiredMessages, StoreEvent.Removes]
  | @dispatch i q msg hq hphase => exact hquiet rfl (rows_dispatching r i q msg)
  | tick | sendMessage | enqueueFailed | dropRequest | cleanupFailed | connect | fetchFailed
  | subscribe | closeChannel | session => exact hquiet rfl rfl

/-- In every run, the rows of the table are those that wait. -/
theorem mem_rows_iff {config : Config} {clock : Int} {trace : List StoreEvent}
    (h : Traced Relay.step storeEvent (Relay.init config clock) trace r) (c : Copy) :
    c ∈ r.db.rows ↔ Waiting trace c := by
  refine h.invariant (p := fun trace r => c ∈ r.db.rows ↔ Waiting trace c) ?_ ?_
  · exact iff_of_false List.not_mem_nil not_since_nil
  · intro trace r r' a _ ih hs
    rw [(step_of_eq hs).mem_rows c, ih]
    exact since_append_toList.symm

/-! ## Drains and cleanups -/

/-- In every run, a drain hands out the rows of its mailbox that were inserted and have since met
neither a drain of the mailbox nor a cleanup at or after their expiry, whether they have expired or
not; and a cleanup deletes the rows whose expiry has come. -/
theorem drain_hands_out {config : Config} {clock : Int} {trace : List StoreEvent}
    (h : Traced Relay.step storeEvent (Relay.init config clock) trace r) :
    (∀ i r', r.step (.fetch i true) = some r' → ∃ s k, r'.sessions[i]? = some s ∧
      s.mailbox = some k ∧ s.holding = (r.db.fetchAndDeleteMessages k).1 ∧
      ∀ c, c ∈ s.holding ↔ c.message.recipientPubkeyHash = k ∧ Waiting trace c) ∧
    ∀ c ∈ r.db.rows,
      c ∉ (r.db.cleanupExpiredMessages r.clock).rows ↔ c.message.expiresAt ≤ r.clock := by
  constructor
  · intro i r' hstep
    cases step_of_eq hstep with
    | @fetch _ s login hsession hphase =>
        refine ⟨s.moved (.draining login (r.db.fetchAndDeleteMessages login.hash).1), login.hash,
          getElem?_set_self_of_some hsession, rfl, rfl, ?_⟩
        intro c
        show c ∈ (r.db.fetchAndDeleteMessages login.hash).1 ↔ _
        rw [Database.fetchAndDeleteMessages_fst, Database.mem_queuedFor, mem_rows_iff h, and_comm]
  · intro c hc
    simp [mem_cleanupExpiredMessages, hc]

/-! ## A late drain -/

/-- A message waits past its expiry, and its recipient connects before the worker runs. -/
def lateDrain : List Action :=
  [.sendMessage plainRequest, .dispatch 0, .enqueue 0 true, .tick 1209600] ++ logIn 0

theorem drain_hands_out_plain :
    ∃ (trace : List StoreEvent) (r : Relay plainLibrary),
      Traced Relay.step storeEvent plainRelay trace r ∧
      (∀ i r', r.step (.fetch i true) = some r' → ∃ s k, r'.sessions[i]? = some s ∧
        s.mailbox = some k ∧ s.holding = (r.db.fetchAndDeleteMessages k).1 ∧
        ∀ c, c ∈ s.holding ↔ c.message.recipientPubkeyHash = k ∧ Waiting trace c) ∧
      ∀ c ∈ r.db.rows,
        c ∉ (r.db.cleanupExpiredMessages r.clock).rows ↔ c.message.expiresAt ≤ r.clock := by
  have hruns : (Traced.collect Relay.step storeEvent lateDrain [] plainRelay).isSome := by
    decide +kernel
  obtain ⟨⟨trace, r⟩, hr⟩ := Option.isSome_iff_exists.1 hruns
  have htraced := Traced.start.of_collect hr
  exact ⟨trace, r, htraced, drain_hands_out htraced⟩

/-- A session is handed a message at the very second it expires. -/
theorem expired_message_fetched :
    ∃ (r r' : Relay plainLibrary) (s : Session plainLibrary) (c : Copy),
      Reachable Relay.step (fun _ _ => True) plainRelay r ∧
      r.step (.fetch 0 true) = some r' ∧ r'.sessions[0]? = some s ∧
      c ∈ s.holding ∧ c.message.expiresAt ≤ r.clock := by
  have hend : (runActions Relay.step lateDrain plainRelay).map (fun r =>
      ((r.step (.fetch 0 true)).map (fun r' => r'.sessions[0]?.map fun s =>
        s.holding.map fun c => c.message.expiresAt), r.clock)) =
      some (some (some [1209600]), 1209600) := by decide +kernel
  obtain ⟨r, hr, hvalues⟩ := Option.map_eq_some_iff.1 hend
  obtain ⟨hfetch, hclock⟩ := Prod.mk.inj hvalues
  obtain ⟨r', hr', hsession⟩ := Option.map_eq_some_iff.1 hfetch
  obtain ⟨s, hs, hexpiries⟩ := Option.map_eq_some_iff.1 hsession
  have hmem : (1209600 : Int) ∈ s.holding.map fun c => c.message.expiresAt := by
    rw [hexpiries]
    exact List.mem_singleton.2 rfl
  obtain ⟨c, hc, hexpiry⟩ := List.mem_map.1 hmem
  refine ⟨r, r', s, c, .of_runActions (fun _ _ _ => trivial) .start hr, hr', hs, hc, ?_⟩
  rw [hexpiry, hclock]

end TorE2EE.Relay
