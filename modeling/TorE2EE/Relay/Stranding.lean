import TorE2EE.Relay.Isolation

/-!
# Messages behind a live session

A sender looks for listeners and then enqueues; a session drains and then subscribes. When the
sender looks before the session subscribes and enqueues after the session has drained, the message
stays in the table behind a live session (`message_stranded`).

`nothing_stranded`: it does not happen in a run in which every session goes live while no row and no
undecided call waits for its mailbox.
-/

set_option autoImplicit false

namespace TorE2EE.Relay

open TorE2EE.Foundation

variable {A : AuthLibrary} {r r' : Relay A}

/-- A call for the mailbox `k` stands between its dispatch and its enqueue. -/
def Undecided (r : Relay A) (k : String) : Prop :=
  ∃ (i : Nat) (q : Request), r.requests[i]? = some q ∧ q.phase = .enqueueing ∧
    q.payload.recipientPubkeyHash = k

/-- The table has no row for the mailbox `k`. -/
def NoRow (r : Relay A) (k : String) : Prop :=
  ∀ c ∈ r.db.rows, c.message.recipientPubkeyHash ≠ k

/-- A session is in its live streaming phase for the mailbox `k`. -/
def Live (r : Relay A) (k : String) : Prop :=
  ∃ (i : Nat) (s : Session A), r.sessions[i]? = some s ∧ s.phase.receiving = true ∧
    s.mailbox = some k

/-- A session that subscribes finds no row for its mailbox and no call between its dispatch and its
enqueue. -/
def SubscribesAlone (r : Relay A) : Action → Prop
  | .subscribe i => ∀ s k, r.sessions[i]? = some s → s.mailbox = some k →
      NoRow r k ∧ ¬ Undecided r k
  | _ => True

/-- Behind a live session there is neither a row nor a call that is about to insert one. -/
def Clear (r : Relay A) : Prop := ∀ k, Live r k → NoRow r k ∧ ¬ Undecided r k

theorem clear_init (config : Config) (clock : Int) :
    Clear (Relay.init config clock : Relay A) := by
  rintro k ⟨i, s, hs, -⟩
  cases hs

/-! ## Steps -/

theorem Clear.mono (h : Clear r) (hlive : ∀ k, Live r' k → Live r k)
    (hrows : ∀ k, Live r' k → NoRow r k → NoRow r' k)
    (hundecided : ∀ k, Live r' k → Undecided r' k → Undecided r k) : Clear r' := by
  intro k hk
  obtain ⟨hrow, hcall⟩ := h k (hlive k hk)
  exact ⟨hrows k hk hrow, fun hnew => hcall (hundecided k hk hnew)⟩

theorem undecided_of_set {i : Nat} {q' : Request} (hr : r'.requests = r.requests.set i q')
    (hphase : q'.phase ≠ .enqueueing) {k : String} (h : Undecided r' k) : Undecided r k := by
  obtain ⟨j, q, hq, hwaiting, hk⟩ := h
  rw [hr] at hq
  rcases getElem?_set_cases hq with ⟨-, rfl⟩ | ⟨-, hold⟩
  · exact absurd hwaiting hphase
  · exact ⟨j, q, hold, hwaiting, hk⟩

/-- A step of one session that is not a subscription makes nobody live. -/
theorem live_withSession {i : Nat} {s s' : Session A} {ends : Bool} (hs : r.sessions[i]? = some s)
    (hmoves : Session.Moves s s' ends) {k : String} (h : Live (r.withSession i s') k) :
    Live r k := by
  obtain ⟨j, t, ht, hreceiving, hbox⟩ := h
  rcases getElem?_set_cases ht with ⟨rfl, rfl⟩ | ⟨-, hold⟩
  · have hbefore := hmoves.receiving hreceiving
    obtain ⟨login, _, _, _, hphase⟩ := streaming_of_receiving hbefore
    have hmine : s.mailbox = some login.hash := mailbox_of_login (by rw [hphase]; rfl)
    have hsame := hmoves.mailbox _ hmine
    rw [hbox] at hsame
    exact ⟨j, s, hs, hbefore, hmine.trans hsame.symm⟩
  · exact ⟨j, t, hold, hreceiving, hbox⟩

theorem Clear.withSession (h : Clear r) {i : Nat} {s s' : Session A} {ends : Bool}
    (hs : r.sessions[i]? = some s) (hmoves : Session.Moves s s' ends) :
    Clear (r.withSession i s') :=
  h.mono (fun _ hk => live_withSession hs hmoves hk) (fun _ _ hrow => hrow) fun _ _ hcall => hcall

/-- A live session has an open channel in the peer map. -/
theorem exists_open_of_live (hr : Consistent r) {k : String} (h : Live r k) :
    ∃ senders tx, r.activePeers k = some senders ∧ tx ∈ senders ∧
      isOpen r.sessions tx = true := by
  obtain ⟨i, s, hs, hreceiving, hbox⟩ := h
  obtain ⟨txs, htxs, hin⟩ := hr.registered i s hs hreceiving k hbox
  exact ⟨txs, i, htxs, hin, isOpen_iff.2 ⟨s, hs, hreceiving⟩⟩

/-- A call that finds no listener is for a mailbox without a live session. -/
theorem Clear.undispatched (h : Clear r) (hr : Consistent r) {i : Nat} {q : Request}
    {msg : QueuedMessage} (hq : r.requests[i]? = some q) (hphase : q.phase = .dispatching msg)
    (hclosed : ∀ senders, r.activePeers msg.recipientPubkeyHash = some senders →
      ∀ tx ∈ senders, isOpen r.sessions tx = false) : Clear (r.undispatched i q msg) := by
  refine h.mono (fun _ hk => hk) (fun _ _ hrow => hrow) ?_
  rintro k hk ⟨j, q', hq', hwaiting, hrecipient⟩
  rcases getElem?_set_cases hq' with ⟨rfl, rfl⟩ | ⟨-, hold⟩
  · -- the call itself: a live session of its mailbox would have been found
    obtain ⟨senders, tx, hsenders, htx, hopen⟩ := exists_open_of_live hr (show Live r k from hk)
    have hmsg := (hr.waiting j q msg hq hphase).recipient
    rw [← hrecipient, ← show msg.recipientPubkeyHash = q.payload.recipientPubkeyHash from hmsg]
      at hsenders
    rw [hclosed senders hsenders tx htx] at hopen
    cases hopen
  · exact ⟨j, q', hold, hwaiting, hrecipient⟩

theorem live_dispatchedTo (hr : Consistent r) {i : Nat} {q : Request} {msg : QueuedMessage}
    {senders : List Nat} (hsenders : r.activePeers msg.recipientPubkeyHash = some senders)
    {k : String} (h : Live (r.dispatchedTo senders i q msg) k) : Live r k := by
  obtain ⟨j, t, ht, hreceiving, hbox⟩ := h
  rw [show (r.dispatchedTo senders i q msg).sessions[j]? = _ from
    getElem?_retainSending _ (hr.senders _ senders hsenders).1 r.sessions j] at ht
  obtain ⟨s, hs, rfl⟩ := Option.map_eq_some_iff.1 ht
  obtain ⟨hmailbox, -, -, hopen, -⟩ := push_keeps s { origin := i, message := msg }
  by_cases hj : j ∈ senders
  · rw [if_pos hj, hopen] at hreceiving
    rw [if_pos hj, hmailbox] at hbox
    exact ⟨j, s, hs, hreceiving, hbox⟩
  · rw [if_neg hj] at hreceiving hbox
    exact ⟨j, s, hs, hreceiving, hbox⟩

/-- The step lemma. -/
theorem Clear.step (h : Clear r) (hr : Consistent r) {a : Action} (hs : Step r a r')
    (halone : SubscribesAlone r a) : Clear r' := by
  cases hs with
  | tick seconds =>
      exact h.mono (fun _ hk => hk) (fun _ _ hrow => hrow) fun _ _ hcall => hcall
  | sendMessage payload =>
      refine h.mono (fun _ hk => hk) (fun _ _ hrow => hrow) ?_
      rintro k - ⟨i, q, hq, hwaiting, hk⟩
      dsimp only at hq
      rw [List.getElem?_append] at hq
      split at hq
      · exact ⟨i, q, hq, hwaiting, hk⟩
      · rw [List.getElem?_singleton] at hq
        split at hq
        · -- a call that has just arrived has not dispatched
          cases hq
          rw [acceptMessage] at hwaiting
          split at hwaiting <;> cases hwaiting
        · cases hq
  | @dispatch i q msg hq hphase =>
      rcases dispatching_cases r i q msg with ⟨senders, tx, hsenders, -, -, heq⟩ | ⟨hclosed, heq⟩
      · rw [heq]
        refine h.mono (fun _ hk => live_dispatchedTo hr hsenders hk) (fun _ _ hrow => hrow) ?_
        exact fun _ _ hcall => undecided_of_set rfl (by simp) hcall
      · rw [heq]
        exact h.undispatched hr hq hphase hclosed
  | @enqueue i q hq hphase =>
      refine h.mono (fun _ hk => hk) ?_ ?_
      · -- the call was undecided, so nobody is live for its mailbox
        intro k hk hrow c hc
        rcases List.mem_append.1 hc with hold | hnew
        · exact hrow c hold
        · rw [List.mem_singleton] at hnew
          subst hnew
          intro hmine
          exact (h k hk).2 ⟨i, q, hq, hphase, hmine⟩
      · exact fun _ _ hcall => undecided_of_set rfl (by simp) hcall
  | enqueueFailed hq hphase =>
      refine h.mono (fun _ hk => hk) (fun _ _ hrow => hrow) ?_
      exact fun _ _ hcall => undecided_of_set rfl (by simp) hcall
  | dropRequest hq hopen =>
      refine h.mono (fun _ hk => hk) (fun _ _ hrow => hrow) ?_
      exact fun _ _ hcall => undecided_of_set rfl (by simp) hcall
  | cleanup =>
      refine h.mono (fun _ hk => hk) ?_ (fun _ _ hcall => hcall)
      intro k _ hrow c hc
      exact hrow c (List.mem_filter.1 hc).1
  | cleanupFailed => exact h
  | connect hlength =>
      refine h.mono ?_ (fun _ _ hrow => hrow) (fun _ _ hcall => hcall)
      rintro k ⟨i, s, hs, hreceiving, hbox⟩
      dsimp only at hs
      rw [List.getElem?_append] at hs
      split at hs
      · exact ⟨i, s, hs, hreceiving, hbox⟩
      · rw [List.getElem?_singleton] at hs
        split at hs
        · cases hs
          cases hreceiving
        · cases hs
  | @fetch i s login hsession hphase =>
      refine h.mono ?_ ?_ (fun _ _ hcall => hcall)
      · rintro k ⟨j, t, ht, hreceiving, hbox⟩
        rcases getElem?_set_cases ht with ⟨-, rfl⟩ | ⟨-, hold⟩
        · cases hreceiving
        · exact ⟨j, t, hold, hreceiving, hbox⟩
      · intro k _ hrow c hc
        have hkept : c ∈ (r.db.fetchAndDeleteMessages login.hash).2.rows := hc
        rw [Database.rows_fetchAndDeleteMessages] at hkept
        exact hrow c (List.mem_filter.1 hkept).1
  | fetchFailed hsession hphase => exact h.withSession hsession (moves_of_fetchFailed hphase)
  | @subscribe i s login hsession hphase =>
      have hbox : s.mailbox = some login.hash := mailbox_of_login (by rw [hphase]; rfl)
      intro k hk
      obtain ⟨j, t, ht, hreceiving, hmailbox⟩ := hk
      rcases getElem?_set_cases ht with ⟨-, rfl⟩ | ⟨-, hold⟩
      · cases hmailbox
        exact halone s login.hash hsession hbox
      · exact h k ⟨j, t, hold, hreceiving, hmailbox⟩
  | closeChannel hsession hphase hgone =>
      exact h.withSession hsession (moves_of_closeChannel hphase)
  | session hsession hstep => exact h.withSession hsession (Session.moves_of_step hstep)

/-! ## Runs -/

/-- In every run in which every session goes live while neither a row nor an undecided call waits
for its mailbox, there is no row behind a live session. -/
theorem nothing_stranded {config : Config} {clock : Int}
    (h : Reachable Relay.step SubscribesAlone (Relay.init config clock) r) {i : Nat} {s : Session A}
    {k : String} (hs : r.sessions[i]? = some s) (hlive : s.phase.receiving = true)
    (hmailbox : s.mailbox = some k) : ∀ c ∈ r.db.rows, c.message.recipientPubkeyHash ≠ k := by
  have hinv : Consistent r ∧ Clear r := by
    apply h.invariant ⟨consistent_init config clock, clear_init config clock⟩
    intro r r' a hr ha hs
    exact ⟨hr.1.step (step_of_eq hs), hr.2.step hr.1 (step_of_eq hs) ha⟩
  exact (hinv.2 k ⟨i, s, hs, hlive, hmailbox⟩).1

/-! ## A race -/

theorem not_undecided_of_phases {k : String}
    (h : ∀ phase ∈ r.requests.map Request.phase, phase ≠ .enqueueing) : ¬ Undecided r k := by
  rintro ⟨i, q, hq, hphase, -⟩
  exact h q.phase (List.mem_map_of_mem (List.mem_of_getElem? hq)) hphase

/-- The client drains its mailbox before it goes live. -/
def drainFirst : List Action :=
  [.sendMessage plainRequest, .dispatch 0, .enqueue 0 true] ++ logIn 0 ++
    [.fetch 0 true, .session 0 (.sendQueued true)]

theorem nothing_stranded_plain :
    ∃ (r : Relay plainLibrary) (s : Session plainLibrary),
      runActions Relay.step (drainFirst ++ [.subscribe 0]) plainRelay = some r ∧
      r.sessions[0]? = some s ∧ s.phase.receiving = true ∧ s.mailbox = some plainMailbox ∧
      ∀ c ∈ r.db.rows, c.message.recipientPubkeyHash ≠ plainMailbox := by
  have hend : (runActions Relay.step (drainFirst ++ [.subscribe 0]) plainRelay).map (fun r =>
      r.sessions[0]?.map fun s => (s.phase.receiving, s.mailbox)) =
        some (some (true, some plainMailbox)) := by decide +kernel
  have hbefore : (runActions Relay.step drainFirst plainRelay).map (fun r =>
      (r.db.rows, r.requests.map Request.phase)) =
        some ([], [.accepted (acceptedResponse false) 1209600]) := by decide +kernel
  obtain ⟨r, hr, hsession⟩ := Option.map_eq_some_iff.1 hend
  obtain ⟨r₀, hr₀, hvalues⟩ := Option.map_eq_some_iff.1 hbefore
  obtain ⟨hrows, hphases⟩ := Prod.mk.inj hvalues
  obtain ⟨s, hs, hlive⟩ := Option.map_eq_some_iff.1 hsession
  obtain ⟨hreceiving, hmailbox⟩ := Prod.mk.inj hlive
  refine ⟨r, s, hr, hs, hreceiving, hmailbox, ?_⟩
  -- Only the last action subscribes: the condition asks nothing of the run before it.
  have hdrained : Reachable Relay.step SubscribesAlone plainRelay r₀ := by
    apply Reachable.of_runActions _ .start hr₀
    intro a ha r'
    simp only [drainFirst, logIn, List.mem_append, List.mem_cons, List.not_mem_nil, or_false] at ha
    rcases ha with ((rfl | rfl | rfl) | rfl | rfl | rfl | rfl) | rfl | rfl <;> trivial
  have hstep : r₀.step (.subscribe 0) = some r := by
    rw [runActions_append, hr₀] at hr
    simpa [runActions] using hr
  have halone : SubscribesAlone r₀ (.subscribe 0) := by
    intro s' k _ _
    constructor
    · intro c hc
      rw [hrows] at hc
      cases hc
    · apply not_undecided_of_phases
      rw [hphases]
      simp
  exact nothing_stranded (hdrained.step _ halone hstep) hs hreceiving hmailbox

/-- The sender looks for listeners before the client goes live, and enqueues after the client has
drained its mailbox. -/
def lateEnqueue : List Action :=
  [.sendMessage plainRequest, .dispatch 0] ++ logIn 0 ++
    [.fetch 0 true, .subscribe 0, .enqueue 0 true]

/-- The client is live, no call for its mailbox is under way, and its message is in the table. -/
theorem message_stranded :
    ∃ r : Relay plainLibrary, Reachable Relay.step (fun _ _ => True) plainRelay r ∧
      Live r plainMailbox ∧ ¬ Undecided r plainMailbox ∧ ¬ NoRow r plainMailbox := by
  have hend : (runActions Relay.step lateEnqueue plainRelay).map (fun r =>
      (r.sessions[0]?.map fun s => (s.phase.receiving, s.mailbox), r.requests.map Request.phase,
        r.db.rows.map fun c => c.message.recipientPubkeyHash)) =
      some (some (true, some plainMailbox), [.accepted (acceptedResponse false) 1209600],
        [plainMailbox]) := by decide +kernel
  obtain ⟨r, hr, hvalues⟩ := Option.map_eq_some_iff.1 hend
  simp only [Prod.mk.injEq] at hvalues
  obtain ⟨hsession, hphases, hrows⟩ := hvalues
  obtain ⟨s, hs, hlive⟩ := Option.map_eq_some_iff.1 hsession
  obtain ⟨hreceiving, hmailbox⟩ := Prod.mk.inj hlive
  refine ⟨r, .of_runActions (fun _ _ _ => trivial) .start hr, ⟨0, s, hs, hreceiving, hmailbox⟩,
    ?_, ?_⟩
  · apply not_undecided_of_phases
    rw [hphases]
    simp
  · intro hnone
    have hmem : plainMailbox ∈ r.db.rows.map fun c => c.message.recipientPubkeyHash := by
      rw [hrows]
      exact List.mem_singleton.2 rfl
    obtain ⟨c, hc, hrecipient⟩ := List.mem_map.1 hmem
    exact hnone c hc hrecipient

end TorE2EE.Relay
