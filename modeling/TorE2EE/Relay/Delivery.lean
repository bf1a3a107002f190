import TorE2EE.Relay.Isolation

/-!
# Accepted messages

Where an accepted message is until it expires: in the table, held by a running session of its
mailbox, or written to one. A session that ends while it holds a message loses it, because the row
was deleted before the message was written (`accepted_message_lost`).

`accepted_messages_kept`: nothing is lost in a run in which every session that ends leaves its
unexpired messages to another session of the mailbox.
-/

set_option autoImplicit false
set_option linter.dupNamespace false

namespace TorE2EE.Relay

open TorE2EE.Foundation

variable {A : AuthLibrary} {r r' : Relay A}

/-- The message of request `i` is a row, or a session holds it or has written it. -/
def Relay.Has (r : Relay A) (i : Nat) : Prop :=
  (∃ c ∈ r.db.rows, c.origin = i) ∨
    ∃ (j : Nat) (s : Session A) (c : Copy), r.sessions[j]? = some s ∧ c ∈ s.copies ∧ c.origin = i

/-- A session that ends its writing leaves every unexpired message it holds to another session that
holds it too or has written it. -/
def LeavesNothing (r : Relay A) : Action → Prop
  | .session i a =>
      Session.endsWriting a = true → ∀ s, r.sessions[i]? = some s → ∀ c ∈ s.holding,
        r.clock < c.message.expiresAt →
          ∃ (j : Nat) (t : Session A) (d : Copy), j ≠ i ∧ r.sessions[j]? = some t ∧
            d ∈ t.copies ∧ d.origin = c.origin
  | _ => True

/-- The accepted messages that have not expired are all there. -/
def Kept (r : Relay A) : Prop :=
  ∀ (i : Nat) q response expiresAt, r.requests[i]? = some q →
    q.phase = .accepted response expiresAt → r.clock < expiresAt → r.Has i

theorem kept_init (config : Config) (clock : Int) :
    Kept (Relay.init config clock : Relay A) := by
  intro i q response expiresAt hq
  cases hq

/-! ## Steps -/

/-- Rows stay, and every session keeps its copies. -/
theorem Relay.Has.mono {i : Nat} (h : r.Has i) (hrows : ∀ c ∈ r.db.rows, c ∈ r'.db.rows)
    (hsessions : ∀ (j : Nat) s, r.sessions[j]? = some s → ∃ t, r'.sessions[j]? = some t ∧
      ∀ c ∈ s.copies, c ∈ t.copies) : r'.Has i := by
  rcases h with ⟨c, hc, hi⟩ | ⟨j, s, c, hs, hc, hi⟩
  · exact Or.inl ⟨c, hrows c hc, hi⟩
  · obtain ⟨t, ht, hsub⟩ := hsessions j s hs
    exact Or.inr ⟨j, t, c, ht, hsub c hc, hi⟩

theorem Relay.Has.of_same {i : Nat} (h : r.Has i) (hrows : r'.db.rows = r.db.rows)
    (hsessions : r'.sessions = r.sessions) : r'.Has i := by
  rw [Relay.Has]
  rw [hrows, hsessions]
  exact h

/-- A set request that is answered now was answered before, unless it is the one set. -/
theorem answered_of_set {i j : Nat} {q q' : Request}
    (hq : (r.requests.set i q')[j]? = some q) : (j = i ∧ q = q') ∨ r.requests[j]? = some q := by
  rcases getElem?_set_cases hq with hnew | ⟨-, hold⟩
  · exact Or.inl hnew
  · exact Or.inr hold

theorem Kept.withRequest (h : Kept r) {i : Nat} {q : Request} {phase : RequestPhase}
    (hphase : ∀ response expiresAt, phase ≠ .accepted response expiresAt) :
    Kept (r.withRequest i q phase) := by
  intro j q' response expiresAt hq' hacc hlive
  rcases answered_of_set hq' with ⟨-, rfl⟩ | hold
  · exact absurd hacc (hphase response expiresAt)
  · exact h j q' response expiresAt hold hacc hlive

/-- The row of an accepted message carries the expiry of its request. -/
theorem expiresAt_eq {i : Nat} {q : Request} {response : SendMessageResponse} {expiresAt : Int}
    (hq : r.requests[i]? = some q) (hphase : q.phase = .accepted response expiresAt) {c : Copy}
    (hc : r.Accepted c) (hi : c.origin = i) : c.message.expiresAt = expiresAt := by
  obtain ⟨q', response', hq', hphase', -⟩ := hc
  rw [hi] at hq'
  cases hq.symm.trans hq'
  cases hphase.symm.trans hphase'
  rfl

/-- A cleanup deletes expired messages only. -/
theorem Kept.cleanup (h : Kept r) (hr : Consistent r) :
    Kept { r with db := r.db.cleanupExpiredMessages r.clock } := by
  intro i q response expiresAt hq hphase hlive
  rcases h i q response expiresAt hq hphase hlive with ⟨c, hc, hi⟩ | hsession
  · have hexpiry := expiresAt_eq hq hphase (hr.rows c hc) hi
    refine Or.inl ⟨c, List.mem_filter.2 ⟨hc, ?_⟩, hi⟩
    rw [hexpiry]
    exact decide_eq_true (Int.not_le.2 hlive)
  · exact Or.inr hsession

/-- A step of one session keeps every message the session does not abandon. -/
theorem Relay.Has.withSession {i j : Nat} {s s' : Session A} (h : r.Has i)
    (hs : r.sessions[j]? = some s)
    (hkeeps : ∀ c ∈ s.copies, c.origin = i → c ∈ s'.copies ∨
      ∃ (k : Nat) (t : Session A) (d : Copy), k ≠ j ∧ r.sessions[k]? = some t ∧ d ∈ t.copies ∧
        d.origin = i) : (r.withSession j s').Has i := by
  have hother {k : Nat} {t : Session A} (hk : k ≠ j) (ht : r.sessions[k]? = some t) :
      (r.withSession j s').sessions[k]? = some t := by
    show (r.sessions.set j s')[k]? = some t
    rw [List.getElem?_set_ne (Ne.symm hk)]
    exact ht
  rcases h with hrow | ⟨k, t, c, ht, hc, hi⟩
  · exact Or.inl hrow
  · right
    by_cases hk : k = j
    · subst hk
      cases hs.symm.trans ht
      rcases hkeeps c hc hi with hsame | ⟨k', t', d, hk', ht', hd, hdi⟩
      · exact ⟨k, s', c, getElem?_set_self_of_some hs, hsame, hi⟩
      · exact ⟨k', t', d, hother hk' ht', hd, hdi⟩
    · exact ⟨k, t, c, hother hk ht, hc, hi⟩

/-- Draining moves rows into the session. -/
theorem Relay.Has.fetching {i j : Nat} {s : Session A} {login : Login A s.challenge} (h : r.Has i)
    (hs : r.sessions[j]? = some s) (hphase : s.phase = .confirmed login) :
    (r.fetching j s login).Has i := by
  -- the session holds what it drained besides what it has written
  have hcopies : ∀ c, c ∈ s.copies ∨ c ∈ r.db.queuedFor login.hash →
      c ∈ (s.moved (.draining login (r.db.fetchAndDeleteMessages login.hash).1)).copies := by
    intro c hc
    rw [Database.fetchAndDeleteMessages_fst]
    rcases hc with hdelivered | hqueued
    · have hempty : s.copies = s.delivered := by
        simp [Session.copies, Session.holding, hphase, Phase.holding]
      rw [hempty] at hdelivered
      exact List.mem_append_left _ hdelivered
    · exact List.mem_append_right _ hqueued
  rcases h with ⟨c, hc, hi⟩ | ⟨k, t, c, ht, hc, hi⟩
  · by_cases hmine : c.message.recipientPubkeyHash = login.hash
    · exact Or.inr ⟨j, _, c, getElem?_set_self_of_some hs,
        hcopies c (Or.inr (Database.mem_queuedFor.2 ⟨hc, hmine⟩)), hi⟩
    · refine Or.inl ⟨c, ?_, hi⟩
      show c ∈ (r.db.fetchAndDeleteMessages login.hash).2.rows
      rw [Database.rows_fetchAndDeleteMessages]
      exact List.mem_filter.2 ⟨hc, decide_eq_true hmine⟩
  · right
    by_cases hk : k = j
    · subst hk
      cases hs.symm.trans ht
      exact ⟨k, _, c, getElem?_set_self_of_some hs, hcopies c (Or.inl hc), hi⟩
    · refine ⟨k, t, c, ?_, hc, hi⟩
      show (r.sessions.set j _)[k]? = some t
      rw [List.getElem?_set_ne (Ne.symm hk)]
      exact ht

/-- A live dispatch reaches an open channel. -/
theorem Kept.dispatchedTo (h : Kept r) (hr : Consistent r) {i tx : Nat} {q : Request}
    {msg : QueuedMessage} {senders : List Nat}
    (hsenders : r.activePeers msg.recipientPubkeyHash = some senders) (htx : tx ∈ senders)
    (hopen : isOpen r.sessions tx = true) : Kept (r.dispatchedTo senders i q msg) := by
  have hget := getElem?_retainSending { origin := i, message := msg }
    (hr.senders _ senders hsenders).1 r.sessions
  intro j q' response expiresAt hq' hphase hlive
  rcases answered_of_set hq' with ⟨rfl, -⟩ | hold
  · -- the message just answered is in the channel of the session that took it
    obtain ⟨s, hs, hreceiving⟩ := isOpen_iff.1 hopen
    refine Or.inr ⟨tx, s.push { origin := j, message := msg }, { origin := j, message := msg }, ?_,
      ?_, rfl⟩
    · exact (hget tx).trans (by rw [hs, Option.map_some, if_pos htx])
    · rw [copies_push hreceiving]
      exact List.mem_append_right _ (List.mem_singleton.2 rfl)
  · apply (h j q' response expiresAt hold hphase hlive).mono
    · exact fun c hc => hc
    · intro k s hs
      refine ⟨_, (hget k).trans (by rw [hs]; rfl), ?_⟩
      intro c hc
      dsimp only
      cases hreceiving : s.phase.receiving with
      | false =>
          rw [push_of_not_receiving hreceiving, ite_self]
          exact hc
      | true =>
          split
          · rw [copies_push hreceiving]
            exact List.mem_append_left _ hc
          · exact hc

/-- A request that has just arrived is not answered `accepted`. -/
theorem Kept.sendMessage (h : Kept r) (payload : SendMessageRequest) :
    Kept { r with requests := r.requests ++ [acceptMessage r.config payload r.clock] } := by
  intro i q response expiresAt hq hphase hlive
  dsimp only at hq
  rw [List.getElem?_append] at hq
  split at hq
  · exact h i q response expiresAt hq hphase hlive
  · rw [List.getElem?_singleton] at hq
    split at hq
    · cases hq
      rw [acceptMessage] at hphase
      split at hphase <;> cases hphase
    · cases hq

/-- A session that ends with a message in hand leaves it to another one. -/
theorem Kept.session (h : Kept r) (hr : Consistent r) {j : Nat} {s s' : Session A}
    {a : SessionAction} (hsession : r.sessions[j]? = some s) (hstep : s.step a = some s')
    (hleaves : LeavesNothing r (.session j a)) : Kept (r.withSession j s') := by
  intro i q response expiresAt hq hacc hlive
  have hmoves := Session.moves_of_step hstep
  apply (h i q response expiresAt hq hacc hlive).withSession hsession
  intro c hc hi
  cases hends : Session.endsWriting a with
  | false =>
      left
      rw [Session.copies] at hc ⊢
      rw [hmoves.keeps hends]
      exact hc
  | true =>
      obtain ⟨hdelivered, -⟩ := hmoves.gives hends
      rcases List.mem_append.1 hc with hwritten | hheld
      · left
        exact List.mem_append_left _ (hdelivered ▸ hwritten)
      · right
        have hexpiry := expiresAt_eq hq hacc (hr.copies j s hsession c hc).1 hi
        obtain ⟨k, t, d, hk, ht, hd, hdi⟩ :=
          hleaves hends s hsession c hheld (hexpiry ▸ hlive)
        exact ⟨k, t, d, hk, ht, hd, hdi.trans hi⟩

/-- The step lemma. -/
theorem Kept.step (h : Kept r) (hr : Consistent r) {a : Action} (hs : Step r a r')
    (hleaves : LeavesNothing r a) : Kept r' := by
  cases hs with
  | tick seconds =>
      intro i q response expiresAt hq hphase hlive
      -- The clock only runs forward, so what is unexpired after the step was so before it.
      have hbefore : r.clock < expiresAt :=
        Int.lt_of_le_of_lt (Int.le_add_of_nonneg_right (Int.natCast_nonneg seconds)) hlive
      exact h i q response expiresAt hq hphase hbefore
  | sendMessage payload => exact h.sendMessage payload
  | @dispatch i q msg hq hphase =>
      rcases dispatching_cases r i q msg with ⟨senders, tx, hsenders, htx, hopen, heq⟩ | ⟨-, heq⟩
      · rw [heq]
        exact h.dispatchedTo hr hsenders htx hopen
      · rw [heq]
        exact h.withRequest fun _ _ hacc => by cases hacc
  | @enqueue i q hq hphase =>
      intro j q' response expiresAt hq' hacc hlive
      rcases answered_of_set hq' with ⟨rfl, -⟩ | hold
      · exact Or.inl ⟨_, List.mem_append_right _ (List.mem_singleton.2 rfl), rfl⟩
      · apply (h j q' response expiresAt hold hacc hlive).mono
        · exact fun c hc => List.mem_append_left _ hc
        · exact fun k s hs => ⟨s, hs, fun c hc => hc⟩
  | enqueueFailed hq hphase => exact h.withRequest fun _ _ hacc => by cases hacc
  | dropRequest hq hopen => exact h.withRequest fun _ _ hacc => by cases hacc
  | cleanup => exact h.cleanup hr
  | cleanupFailed => exact h
  | connect hlength =>
      intro i q response expiresAt hq hphase hlive
      apply (h i q response expiresAt hq hphase hlive).mono
      · exact fun c hc => hc
      · intro k s hs
        exact ⟨s, (List.getElem?_append_left (List.getElem?_eq_some_iff.1 hs).1).trans hs,
          fun c hc => hc⟩
  | fetch hsession hphase =>
      intro i q response expiresAt hq hacc hlive
      exact (h i q response expiresAt hq hacc hlive).fetching hsession hphase
  | fetchFailed hsession hphase =>
      intro i q response expiresAt hq hacc hlive
      apply (h i q response expiresAt hq hacc hlive).withSession hsession
      intro c hc _
      rw [Session.copies] at hc ⊢
      rw [(moves_of_fetchFailed hphase).keeps rfl]
      exact Or.inl hc
  | @subscribe i s login hsession hphase =>
      intro j q response expiresAt hq hacc hlive
      have hkeeps : (r.withSession i (s.moved (.streaming login none [] false))).Has j := by
        apply (h j q response expiresAt hq hacc hlive).withSession hsession
        intro c hc _
        left
        simpa [Session.copies, Session.holding, Session.moved, hphase, Phase.holding] using hc
      exact hkeeps.of_same rfl rfl
  | closeChannel hsession hphase hgone =>
      intro i q response expiresAt hq hacc hlive
      apply (h i q response expiresAt hq hacc hlive).withSession hsession
      intro c hc _
      rw [Session.copies] at hc ⊢
      rw [(moves_of_closeChannel hphase).keeps rfl]
      exact Or.inl hc
  | session hsession hstep => exact h.session hr hsession hstep hleaves

/-! ## Runs -/

/-- In every run in which a session that ends leaves its unexpired messages to another session, an
accepted message that has not expired is a row of the table, or held by a running session of its
mailbox, or written to one. -/
theorem accepted_messages_kept {config : Config} {clock : Int}
    (h : Reachable Relay.step LeavesNothing (Relay.init config clock) r) {i : Nat} {q : Request}
    {response : SendMessageResponse} {expiresAt : Int} (hq : r.requests[i]? = some q)
    (hphase : q.phase = .accepted response expiresAt) (hlive : r.clock < expiresAt) :
    (∃ c ∈ r.db.rows, c.origin = i ∧ CopyOf q c.message) ∨
      (∃ (j : Nat) (s : Session A) (c : Copy), r.sessions[j]? = some s ∧
        s.mailbox = some q.payload.recipientPubkeyHash ∧ c ∈ s.holding ∧ c.origin = i ∧
        CopyOf q c.message) ∨
      ∃ (j : Nat) (s : Session A) (c : Copy), r.sessions[j]? = some s ∧
        s.mailbox = some q.payload.recipientPubkeyHash ∧ c ∈ s.delivered ∧
        c.message.outgoing ∈ s.output ∧ c.origin = i ∧ CopyOf q c.message := by
  have hinv : Consistent r ∧ Kept r := by
    apply h.invariant ⟨consistent_init config clock, kept_init config clock⟩
    intro r r' a hr ha hs
    exact ⟨hr.1.step (step_of_eq hs), hr.2.step hr.1 (step_of_eq hs) ha⟩
  obtain ⟨hr, hkept⟩ := hinv
  -- the copy with the number of a request is the copy of its message
  have hcopy {c : Copy} (hc : r.Accepted c) (hi : c.origin = i) : CopyOf q c.message := by
    obtain ⟨q', response', hq', -, hcopy⟩ := hc
    rw [hi] at hq'
    cases hq.symm.trans hq'
    exact hcopy
  rcases hkept i q response expiresAt hq hphase hlive with ⟨c, hc, hi⟩ | ⟨j, s, c, hs, hc, hi⟩
  · exact Or.inl ⟨c, hc, hi, hcopy (hr.rows c hc) hi⟩
  · right
    obtain ⟨hacc, hmailbox⟩ := hr.copies j s hs c hc
    have hmine := hcopy hacc hi
    rw [hmine.recipient] at hmailbox
    rcases List.mem_append.1 hc with hwritten | hheld
    · right
      refine ⟨j, s, c, hs, hmailbox, hwritten, ?_, hi, hmine⟩
      have hframe : c.message.outgoing ∈ s.delivered.map fun c => c.message.outgoing :=
        List.mem_map_of_mem hwritten
      rw [← hr.payloads j s hs] at hframe
      exact (List.mem_filter.1 hframe).1
    · left
      exact ⟨j, s, c, hs, hmailbox, hheld, hi, hmine⟩

/-! ## A socket that fails -/

/-- The action ends the writing of a session. -/
def endsSession : Action → Bool
  | .session _ a => Session.endsWriting a
  | _ => false

theorem leavesNothing_of_writing {a : Action} (h : endsSession a = false) (r : Relay A) :
    LeavesNothing r a := by
  cases a with
  | session i b =>
      intro hends
      rw [show Session.endsWriting b = false from h] at hends
      cases hends
  | _ => trivial

theorem accepted_messages_kept_plain :
    ∃ (r : Relay plainLibrary) (q : Request) (response : SendMessageResponse),
      runActions Relay.step twoDeliveries plainRelay = some r ∧ r.requests[1]? = some q ∧
      q.phase = .accepted response 1209600 ∧ r.clock < 1209600 ∧
      ((∃ c ∈ r.db.rows, c.origin = 1 ∧ CopyOf q c.message) ∨
        (∃ (j : Nat) (s : Session plainLibrary) (c : Copy), r.sessions[j]? = some s ∧
          s.mailbox = some q.payload.recipientPubkeyHash ∧ c ∈ s.holding ∧ c.origin = 1 ∧
          CopyOf q c.message) ∨
        ∃ (j : Nat) (s : Session plainLibrary) (c : Copy), r.sessions[j]? = some s ∧
          s.mailbox = some q.payload.recipientPubkeyHash ∧ c ∈ s.delivered ∧
          c.message.outgoing ∈ s.output ∧ c.origin = 1 ∧ CopyOf q c.message) := by
  have hend : (runActions Relay.step twoDeliveries plainRelay).map (fun r =>
      (r.requests[1]?.map Request.phase, r.clock)) =
        some (some (.accepted (acceptedResponse true) 1209600), 0) := by decide +kernel
  obtain ⟨r, hr, hvalues⟩ := Option.map_eq_some_iff.1 hend
  obtain ⟨hrequest, hclock⟩ := Prod.mk.inj hvalues
  obtain ⟨q, hq, hphase⟩ := Option.map_eq_some_iff.1 hrequest
  have hlive : r.clock < 1209600 := by
    rw [hclock]
    decide
  refine ⟨r, q, _, hr, hq, hphase, hlive, ?_⟩
  have hreach : Reachable Relay.step LeavesNothing plainRelay r := by
    apply Reachable.of_runActions _ .start hr
    intro a ha s
    apply leavesNothing_of_writing
    revert a ha
    decide
  exact accepted_messages_kept hreach hq hphase hlive

/-- A message waits in the table, and the client's socket fails when it is written. -/
def failedDrain : List Action :=
  [.sendMessage plainRequest, .dispatch 0, .enqueue 0 true] ++ logIn 0 ++
    [.fetch 0 true, .session 0 (.sendQueued false)]

/-- The message was accepted and has not expired, and it is nowhere. -/
theorem accepted_message_lost :
    ∃ r : Relay plainLibrary, Reachable Relay.step (fun _ _ => True) plainRelay r ∧
      (∃ q response, r.requests[0]? = some q ∧ q.phase = .accepted response 1209600) ∧
      r.clock < 1209600 ∧ ¬ r.Has 0 := by
  have hend : (runActions Relay.step failedDrain plainRelay).map (fun r =>
      (r.requests[0]?.map Request.phase, r.clock, r.db.rows, r.sessions.all fun s =>
        s.copies.isEmpty)) =
        some (some (.accepted (acceptedResponse false) 1209600), 0, [], true) := by decide +kernel
  obtain ⟨r, hr, hvalues⟩ := Option.map_eq_some_iff.1 hend
  simp only [Prod.mk.injEq] at hvalues
  obtain ⟨hrequest, hclock, hrows, hsessions⟩ := hvalues
  obtain ⟨q, hq, hphase⟩ := Option.map_eq_some_iff.1 hrequest
  refine ⟨r, .of_runActions (fun _ _ _ => trivial) .start hr, ⟨q, _, hq, hphase⟩, ?_, ?_⟩
  · rw [hclock]
    decide
  · rintro (⟨c, hc, -⟩ | ⟨j, s, c, hs, hc, -⟩)
    · rw [hrows] at hc
      cases hc
    · have hempty := List.all_eq_true.1 hsessions s (List.mem_of_getElem? hs)
      rw [List.isEmpty_iff.1 hempty] at hc
      cases hc

end TorE2EE.Relay
