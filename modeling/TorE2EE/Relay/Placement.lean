import TorE2EE.Relay.Server

/-!
# Where messages are

The invariant of the relay that all delivery results rest on. Every copy of a message belongs to an
accepted request and sits in its mailbox; rows, channels and written frames come in the order of
placement; and the peer map and the live sessions agree.

`Consistent.step` keeps it over every step, whatever fails.
-/

set_option autoImplicit false
set_option linter.dupNamespace false

namespace TorE2EE.Relay

open TorE2EE.Foundation

variable {A : AuthLibrary}

/-! ## The invariant -/

/-- The messages a session has written and the ones it holds. -/
def Session.copies (s : Session A) : List Copy := s.delivered ++ s.holding

/-- A message is a copy of the request it was made from. -/
structure CopyOf (q : Request) (m : QueuedMessage) : Prop where
  recipient : m.recipientPubkeyHash = q.payload.recipientPubkeyHash
  payload : m.encryptedPayload = q.payload.encryptedPayload
  nonce : m.nonce = q.payload.nonce

/-- The request of a copy was answered `accepted`. -/
def Relay.Accepted (r : Relay A) (c : Copy) : Prop :=
  ∃ q response, r.requests[c.origin]? = some q ∧
    q.phase = .accepted response c.message.expiresAt ∧ CopyOf q c.message

/-- Every copy belongs to an accepted request and its mailbox, in the order of placement, and the
peer map knows the live sessions. -/
structure Consistent (r : Relay A) : Prop where
  numbered : r.db.Numbered
  rows : ∀ c ∈ r.db.rows, r.Accepted c
  copies : ∀ (i : Nat) s, r.sessions[i]? = some s → ∀ c ∈ s.copies,
    r.Accepted c ∧ s.mailbox = some c.message.recipientPubkeyHash
  rowsPlaced : (r.db.rows.map Copy.origin).Sublist r.placements
  copiesPlaced : ∀ (i : Nat) s, r.sessions[i]? = some s →
    (s.copies.map Copy.origin).Sublist r.placements
  payloads : ∀ (i : Nat) s, r.sessions[i]? = some s →
    s.output.filter ServerWsMessage.isPayload = s.delivered.map fun c => c.message.outgoing
  fetched : ∀ (i : Nat) s, r.sessions[i]? = some s → s.phase.fetched = false → s.delivered = []
  placed : ∀ i ∈ r.placements, ∃ q response expiresAt, r.requests[i]? = some q ∧
    q.phase = .accepted response expiresAt
  nodup : r.placements.Nodup
  waiting : ∀ (i : Nat) q msg, r.requests[i]? = some q → q.phase = .dispatching msg → CopyOf q msg
  senders : ∀ k txs, r.activePeers k = some txs → txs.Nodup ∧
    ∀ tx ∈ txs, ∃ s, r.sessions[tx]? = some s ∧ s.mailbox = some k ∧ s.phase.subscribed = true
  registered : ∀ (i : Nat) s, r.sessions[i]? = some s → s.phase.receiving = true → ∀ k,
    s.mailbox = some k → ∃ txs, r.activePeers k = some txs ∧ i ∈ txs

theorem consistent_init (config : Config) (clock : Int) :
    Consistent (Relay.init config clock : Relay A) where
  numbered := Database.numbered_empty
  rows c hc := by cases hc
  copies i s hs := by cases hs
  rowsPlaced := List.Sublist.slnil
  copiesPlaced i s hs := by cases hs
  payloads i s hs := by cases hs
  fetched i s hs := by cases hs
  placed i hi := by cases hi
  nodup := List.nodup_nil
  waiting i q msg hq := by cases hq
  senders k txs htxs := by cases htxs
  registered i s hs := by cases hs

/-! ## Sending to channels -/

section Sending

variable {s : Session A} {c : Copy}

theorem push_of_not_receiving (h : s.phase.receiving = false) (c : Copy) : s.push c = s := by
  rw [Session.push]
  split
  · rename_i hphase
    rw [hphase] at h
    cases h
  · rfl

theorem streaming_of_receiving (h : s.phase.receiving = true) :
    ∃ login inHand channel receiveEnded,
      s.phase = .streaming login inHand channel receiveEnded := by
  cases hs : s.phase with
  | streaming login inHand channel receiveEnded => exact ⟨_, _, _, _, rfl⟩
  | _ =>
      rw [hs] at h
      cases h

theorem push_of_streaming {login : Login A s.challenge} {inHand : Option Copy}
    {channel : List Copy} {receiveEnded : Bool}
    (h : s.phase = .streaming login inHand channel receiveEnded) (c : Copy) :
    s.push c = s.moved (.streaming login inHand (channel ++ [c]) receiveEnded) := by
  rw [Session.push]
  rw [h]

/-- A message put into a channel changes nothing but the channel. -/
theorem push_keeps (s : Session A) (c : Copy) :
    (s.push c).mailbox = s.mailbox ∧ (s.push c).output = s.output ∧
      (s.push c).delivered = s.delivered ∧ (s.push c).phase.receiving = s.phase.receiving ∧
      (s.push c).phase.subscribed = s.phase.subscribed ∧
      (s.push c).phase.fetched = s.phase.fetched := by
  cases hreceiving : s.phase.receiving with
  | false =>
      rw [push_of_not_receiving hreceiving]
      exact ⟨rfl, rfl, rfl, hreceiving, rfl, rfl⟩
  | true =>
      obtain ⟨login, inHand, channel, receiveEnded, hphase⟩ := streaming_of_receiving hreceiving
      rw [push_of_streaming hphase]
      simp [Session.moved, Session.mailbox, hphase, Phase.login, Phase.receiving,
        Phase.subscribed, Phase.fetched]

theorem copies_push (h : s.phase.receiving = true) (c : Copy) :
    (s.push c).copies = s.copies ++ [c] := by
  obtain ⟨login, inHand, channel, receiveEnded, hphase⟩ := streaming_of_receiving h
  rw [push_of_streaming hphase]
  simp [Session.moved, Session.copies, Session.holding, hphase, Phase.holding]

theorem isOpen_iff {sessions : List (Session A)} {tx : Nat} :
    isOpen sessions tx = true ↔ ∃ s, sessions[tx]? = some s ∧ s.phase.receiving = true := by
  rw [isOpen]
  cases sessions[tx]? <;> simp

/-- Sending keeps every channel open or closed. -/
theorem isOpen_modify (sessions : List (Session A)) (tx tx' : Nat) (c : Copy) :
    isOpen (sessions.modify tx fun s => s.push c) tx' = isOpen sessions tx' := by
  unfold isOpen
  rw [List.getElem?_modify]
  split
  · cases sessions[tx']? with
    | none => rfl
    | some s => simp [(push_keeps s c).2.2.2.1]
  · rw [id_map']

/-- The senders kept are those with an open channel. -/
theorem retainSending_fst (c : Copy) (senders : List Nat) (sessions : List (Session A)) :
    (retainSending c senders sessions).1 = senders.filter (isOpen sessions) := by
  induction senders generalizing sessions with
  | nil => rfl
  | cons tx senders ih =>
      unfold retainSending
      by_cases hopen : isOpen sessions tx = true
      · rw [if_pos hopen, List.filter_cons_of_pos hopen]
        have hsame : isOpen (sessions.modify tx fun s => s.push c) = isOpen sessions := by
          funext tx'
          exact isOpen_modify sessions tx tx' c
        simp only [ih, hsame]
      · rw [if_neg hopen, List.filter_cons_of_neg hopen]
        exact ih sessions

/-- The message is in the channel of every session whose sender was tried. -/
theorem getElem?_retainSending (c : Copy) {senders : List Nat} (hnodup : senders.Nodup)
    (sessions : List (Session A)) (j : Nat) :
    (retainSending c senders sessions).2[j]? =
      sessions[j]?.map fun s => if j ∈ senders then s.push c else s := by
  induction senders generalizing sessions with
  | nil => simp [retainSending]
  | cons tx senders ih =>
      obtain ⟨hnew, hrest⟩ := List.nodup_cons.1 hnodup
      unfold retainSending
      by_cases hopen : isOpen sessions tx = true
      · rw [if_pos hopen]
        simp only [ih hrest, List.getElem?_modify]
        by_cases hj : tx = j
        · subst hj
          cases sessions[tx]? <;> simp [hnew]
        · cases sessions[j]? <;> simp [hj, Ne.symm hj]
      · rw [if_neg hopen, ih hrest]
        by_cases hj : j = tx
        · subst hj
          cases hs : sessions[j]? with
          | none => rfl
          | some s =>
              -- a closed channel takes nothing
              have hclosed : s.phase.receiving = false := by
                rw [Bool.eq_false_iff]
                intro hreceiving
                exact hopen (isOpen_iff.2 ⟨s, hs, hreceiving⟩)
              simp [push_of_not_receiving hclosed]
        · cases sessions[j]? <;> simp [hj]

end Sending

/-! ## Requests -/

variable {r r' : Relay A}

theorem getElem?_set_cases {β : Type} {l : List β} {i j : Nat} {x y : β}
    (h : (l.set i x)[j]? = some y) : (j = i ∧ y = x) ∨ (j ≠ i ∧ l[j]? = some y) := by
  rw [List.getElem?_set] at h
  split at h
  · rename_i hij
    split at h
    · cases h
      exact Or.inl ⟨hij.symm, rfl⟩
    · cases h
  · rename_i hij
    exact Or.inr ⟨Ne.symm hij, h⟩

theorem getElem?_set_self_of_some {β : Type} {l : List β} {i : Nat} {x y : β}
    (h : l[i]? = some y) : (l.set i x)[i]? = some x := by
  rw [List.getElem?_set_self]
  exact (List.getElem?_eq_some_iff.1 h).1

/-- An answered request stays as it is. -/
def KeepsAccepted (r r' : Relay A) : Prop :=
  ∀ (i : Nat) q response expiresAt, r.requests[i]? = some q →
    q.phase = .accepted response expiresAt → r'.requests[i]? = some q

theorem KeepsAccepted.accepted (h : KeepsAccepted r r') {c : Copy} (hc : r.Accepted c) :
    r'.Accepted c := by
  obtain ⟨q, response, hq, hphase, hcopy⟩ := hc
  exact ⟨q, response, h _ q response _ hq hphase, hphase, hcopy⟩

theorem keepsAccepted_set {i : Nat} {q q' : Request} (hq : r.requests[i]? = some q)
    (hopen : ∀ response expiresAt, q.phase ≠ .accepted response expiresAt)
    (hr : r'.requests = r.requests.set i q') : KeepsAccepted r r' := by
  intro j q₀ response expiresAt hq₀ hphase
  have hij : i ≠ j := by
    rintro rfl
    cases hq.symm.trans hq₀
    exact hopen response expiresAt hphase
  rw [hr, List.getElem?_set_ne hij]
  exact hq₀

theorem requests_dispatching (r : Relay A) (i : Nat) (q : Request) (msg : QueuedMessage) :
    ∃ q', (r.dispatching i q msg).requests = r.requests.set i q' := by
  rw [Relay.dispatching]
  dsimp only
  split <;> exact ⟨_, rfl⟩

theorem Step.keepsAccepted {a : Action} (h : Step r a r') : KeepsAccepted r r' := by
  cases h with
  | sendMessage payload =>
      intro i q response expiresAt hq _
      exact (List.getElem?_append_left (List.getElem?_eq_some_iff.1 hq).1).trans hq
  | @dispatch i q msg hq hphase =>
      obtain ⟨q', hset⟩ := requests_dispatching r i q msg
      exact keepsAccepted_set hq (fun _ _ hacc => by rw [hacc] at hphase; cases hphase) hset
  | enqueue hq hphase =>
      exact keepsAccepted_set hq (fun _ _ hacc => by rw [hacc] at hphase; cases hphase) rfl
  | enqueueFailed hq hphase =>
      exact keepsAccepted_set hq (fun _ _ hacc => by rw [hacc] at hphase; cases hphase) rfl
  | dropRequest hq hphase => exact keepsAccepted_set hq hphase rfl
  | tick | cleanup | cleanupFailed | connect | fetch | fetchFailed | subscribe | closeChannel
  | session =>
      intro i q response expiresAt hq _
      exact hq

/-- A step that changes unanswered requests only keeps the invariant. -/
theorem Consistent.withRequests (h : Consistent r) (hkeep : KeepsAccepted r r')
    (hdb : r'.db = r.db) (hpeers : r'.activePeers = r.activePeers)
    (hsessions : r'.sessions = r.sessions) (hplacements : r'.placements = r.placements)
    (hwaiting : ∀ (i : Nat) q msg, r'.requests[i]? = some q → q.phase = .dispatching msg →
      CopyOf q msg) : Consistent r' where
  numbered := hdb ▸ h.numbered
  rows c hc := by
    rw [hdb] at hc
    exact hkeep.accepted (h.rows c hc)
  copies i s hs c hc := by
    rw [hsessions] at hs
    obtain ⟨hacc, hmailbox⟩ := h.copies i s hs c hc
    exact ⟨hkeep.accepted hacc, hmailbox⟩
  rowsPlaced := by
    rw [hdb, hplacements]
    exact h.rowsPlaced
  copiesPlaced i s hs := by
    rw [hsessions] at hs
    rw [hplacements]
    exact h.copiesPlaced i s hs
  payloads i s hs := h.payloads i s (hsessions ▸ hs)
  fetched i s hs := h.fetched i s (hsessions ▸ hs)
  placed i hi := by
    rw [hplacements] at hi
    obtain ⟨q, response, expiresAt, hq, hphase⟩ := h.placed i hi
    exact ⟨q, response, expiresAt, hkeep i q response expiresAt hq hphase, hphase⟩
  nodup := by
    rw [hplacements]
    exact h.nodup
  waiting := hwaiting
  senders k txs htxs := by
    rw [hpeers] at htxs
    rw [hsessions]
    exact h.senders k txs htxs
  registered i s hs := by
    rw [hsessions] at hs
    rw [hpeers]
    exact h.registered i s hs

theorem Consistent.withRequest (h : Consistent r) {i : Nat} {q : Request} {phase : RequestPhase}
    (hq : r.requests[i]? = some q)
    (hopen : ∀ response expiresAt, q.phase ≠ .accepted response expiresAt)
    (hphase : ∀ msg, phase ≠ .dispatching msg) : Consistent (r.withRequest i q phase) := by
  have hkeep : KeepsAccepted r (r.withRequest i q phase) := keepsAccepted_set hq hopen rfl
  apply h.withRequests hkeep rfl rfl rfl rfl
  intro j q' msg hq' hdispatching
  rcases getElem?_set_cases hq' with ⟨-, rfl⟩ | ⟨-, hold⟩
  · exact absurd hdispatching (hphase msg)
  · exact h.waiting j q' msg hold hdispatching

theorem copyOf_queuedMsg (config : Config) (payload : SendMessageRequest) (now : Int)
    (phase : RequestPhase) : CopyOf { payload, phase } (queuedMsg config payload now) :=
  ⟨rfl, rfl, rfl⟩

/-- A request that is admitted waits with a copy of itself. -/
theorem admit_waiting {config : Config} {payload : SendMessageRequest} {now : Int}
    {msg : QueuedMessage} (h : (acceptMessage config payload now).phase = .dispatching msg) :
    CopyOf (acceptMessage config payload now) msg := by
  rw [acceptMessage] at h ⊢
  split at h
  · cases h
  · cases h
    exact copyOf_queuedMsg config payload now _

theorem Consistent.sendMessage (h : Consistent r) (payload : SendMessageRequest) :
    Consistent { r with requests := r.requests ++ [acceptMessage r.config payload r.clock] } := by
  apply h.withRequests (Step.sendMessage payload).keepsAccepted rfl rfl rfl rfl
  intro i q msg hq hphase
  dsimp only at hq
  rw [List.getElem?_append] at hq
  split at hq
  · exact h.waiting i q msg hq hphase
  · rw [List.getElem?_singleton] at hq
    split at hq
    · cases hq
      exact admit_waiting hphase
    · cases hq

/-! ## Sessions -/

/-- A step of one session keeps the invariant. -/
theorem Consistent.withSession (h : Consistent r) {i : Nat} {s s' : Session A} {ends : Bool}
    (hs : r.sessions[i]? = some s) (hmoves : Session.Moves s s' ends) :
    Consistent (r.withSession i s') := by
  -- A session that ends keeps what it delivered and gives up what it holds.
  have hsub : (s'.copies).Sublist s.copies := by
    cases ends with
    | false =>
        unfold Session.copies
        rw [hmoves.keeps rfl]
    | true =>
        obtain ⟨hdelivered, hholding⟩ := hmoves.gives rfl
        unfold Session.copies
        rw [hdelivered, hholding, List.append_nil]
        exact List.sublist_append_left _ _
  have hlater {j : Nat} {t : Session A} (hj : (r.withSession i s').sessions[j]? = some t) :
      (j = i ∧ t = s') ∨ (j ≠ i ∧ r.sessions[j]? = some t) := getElem?_set_cases hj
  refine
    { h with
      copies := ?copies
      copiesPlaced := ?copiesPlaced
      payloads := ?payloads
      fetched := ?fetched
      senders := ?senders
      registered := ?registered }
  case copies =>
    intro j t hj c hc
    rcases hlater hj with ⟨rfl, rfl⟩ | ⟨-, hold⟩
    · obtain ⟨hacc, hmailbox⟩ := h.copies j s hs c (hsub.subset hc)
      exact ⟨hacc, hmoves.mailbox _ hmailbox⟩
    · exact h.copies j t hold c hc
  case copiesPlaced =>
    intro j t hj
    rcases hlater hj with ⟨rfl, rfl⟩ | ⟨-, hold⟩
    · exact (hsub.map Copy.origin).trans (h.copiesPlaced j s hs)
    · exact h.copiesPlaced j t hold
  case payloads =>
    intro j t hj
    rcases hlater hj with ⟨rfl, rfl⟩ | ⟨-, hold⟩
    · obtain ⟨cs, hdelivered, houtput⟩ := hmoves.payloads
      rw [houtput, hdelivered, h.payloads j s hs, List.map_append]
    · exact h.payloads j t hold
  case fetched =>
    intro j t hj hfetched
    rcases hlater hj with ⟨rfl, rfl⟩ | ⟨-, hold⟩
    · obtain ⟨hbefore, hsame⟩ := hmoves.fetched hfetched
      rw [hsame]
      exact h.fetched j s hs hbefore
    · exact h.fetched j t hold hfetched
  case senders =>
    intro k txs htxs
    obtain ⟨hnodup, hall⟩ := h.senders k txs htxs
    refine ⟨hnodup, ?_⟩
    intro tx htx
    obtain ⟨t, ht, hmailbox, hsubscribed⟩ := hall tx htx
    -- A sender names its session by index, and the session at it keeps its mailbox.
    by_cases htxi : tx = i
    · subst htxi
      cases hs.symm.trans ht
      exact ⟨s', getElem?_set_self_of_some hs, hmoves.mailbox _ hmailbox,
        hmoves.subscribed hsubscribed⟩
    · refine ⟨t, ?_, hmailbox, hsubscribed⟩
      show (r.sessions.set i s')[tx]? = some t
      rw [List.getElem?_set_ne (Ne.symm htxi)]
      exact ht
  case registered =>
    intro j t hj hreceiving k hmailbox
    rcases hlater hj with ⟨rfl, rfl⟩ | ⟨-, hold⟩
    · have hbefore := hmoves.receiving hreceiving
      obtain ⟨login, _, _, _, hphase⟩ := streaming_of_receiving hbefore
      have hmine : s.mailbox = some login.hash := by simp [Session.mailbox, hphase, Phase.login]
      have hsame := hmoves.mailbox _ hmine
      rw [hmailbox] at hsame
      exact h.registered j s hs hbefore k (hmine.trans hsame.symm)
    · exact h.registered j t hold hreceiving k hmailbox

theorem Consistent.connect (h : Consistent r) (challenge : List UInt8) :
    Consistent { r with sessions := r.sessions ++ [.new challenge] } := by
  -- The new session has the next index, so every index already in use means the session it meant.
  have hlater {j : Nat} {t : Session A}
      (hj : (r.sessions ++ [(.new challenge : Session A)])[j]? = some t) :
      t = .new challenge ∨ r.sessions[j]? = some t := by
    rw [List.getElem?_append] at hj
    split at hj
    · exact Or.inr hj
    · rw [List.getElem?_singleton] at hj
      split at hj
      · cases hj
        exact Or.inl rfl
      · cases hj
  refine
    { h with
      copies := ?copies
      copiesPlaced := ?copiesPlaced
      payloads := ?payloads
      fetched := ?fetched
      senders := ?senders
      registered := ?registered }
  case copies =>
    intro j t hj c hc
    rcases hlater hj with rfl | hold
    · cases hc
    · exact h.copies j t hold c hc
  case copiesPlaced =>
    intro j t hj
    rcases hlater hj with rfl | hold
    · exact List.nil_sublist _
    · exact h.copiesPlaced j t hold
  case payloads =>
    intro j t hj
    rcases hlater hj with rfl | hold
    · rfl
    · exact h.payloads j t hold
  case fetched =>
    intro j t hj hfetched
    rcases hlater hj with rfl | hold
    · rfl
    · exact h.fetched j t hold hfetched
  case senders =>
    intro k txs htxs
    obtain ⟨hnodup, hall⟩ := h.senders k txs htxs
    refine ⟨hnodup, ?_⟩
    intro tx htx
    obtain ⟨t, ht, hmailbox, hsubscribed⟩ := hall tx htx
    exact ⟨t, (List.getElem?_append_left (List.getElem?_eq_some_iff.1 ht).1).trans ht, hmailbox,
      hsubscribed⟩
  case registered =>
    intro j t hj hreceiving k hmailbox
    rcases hlater hj with rfl | hold
    · cases hreceiving
    · exact h.registered j t hold hreceiving k hmailbox

/-- A fetch that fails leaves a session with nothing to write. -/
theorem moves_of_fetchFailed {s : Session A} {login : Login A s.challenge}
    (hphase : s.phase = .confirmed login) :
    Session.Moves s (s.moved (.draining login [])) false := by
  apply Session.moves_moved <;> simp [hphase, Phase.login, Phase.receiving, Phase.subscribed,
    Phase.fetched, Phase.holding]

/-- A session whose senders are gone ends with an empty channel. -/
theorem moves_of_closeChannel {s : Session A} {login : Login A s.challenge} {receiveEnded : Bool}
    (hphase : s.phase = .streaming login none [] receiveEnded) :
    Session.Moves s (s.moved (.ended (some login))) false := by
  apply Session.moves_moved <;> simp [hphase, Phase.login, Phase.receiving, Phase.subscribed,
    Phase.fetched, Phase.holding]

theorem mailbox_of_login {s : Session A} {login : Login A s.challenge}
    (h : s.phase.login = some login) : s.mailbox = some login.hash := by
  rw [Session.mailbox, h]
  rfl

/-- Draining moves the rows of the mailbox into the session. -/
theorem Consistent.fetching (h : Consistent r) {i : Nat} {s : Session A}
    {login : Login A s.challenge} (hs : r.sessions[i]? = some s)
    (hphase : s.phase = .confirmed login) : Consistent (r.fetching i s login) := by
  have hqueued : (r.db.fetchAndDeleteMessages login.hash).1 =
      r.db.rows.filter fun c => c.message.recipientPubkeyHash = login.hash := by
    rw [Database.fetchAndDeleteMessages_fst, h.numbered.queuedFor_eq]
  -- A session that has not fetched has delivered nothing, so its copies are the rows it takes.
  have hdelivered : s.delivered = [] := h.fetched i s hs (by rw [hphase]; rfl)
  have hcopies : (s.moved (.draining login (r.db.fetchAndDeleteMessages login.hash).1)).copies =
      r.db.rows.filter fun c => c.message.recipientPubkeyHash = login.hash := by
    show s.delivered ++ _ = _
    rw [hdelivered, List.nil_append]
    exact hqueued
  have hmailbox : (s.moved (.draining login (r.db.fetchAndDeleteMessages login.hash).1)).mailbox =
      some login.hash := rfl
  have hrows : ((r.db.fetchAndDeleteMessages login.hash).2.rows).Sublist r.db.rows := by
    rw [Database.rows_fetchAndDeleteMessages]
    exact List.filter_sublist
  have hlater {j : Nat} {t : Session A} (hj : (r.fetching i s login).sessions[j]? = some t) :
      (j = i ∧ t = s.moved (.draining login (r.db.fetchAndDeleteMessages login.hash).1)) ∨
        (j ≠ i ∧ r.sessions[j]? = some t) := getElem?_set_cases hj
  refine
    { h with
      numbered := h.numbered.fetchAndDeleteMessages _
      rows := fun c hc => h.rows c (hrows.subset hc)
      copies := ?copies
      rowsPlaced := (hrows.map Copy.origin).trans h.rowsPlaced
      copiesPlaced := ?copiesPlaced
      payloads := ?payloads
      fetched := ?fetched
      senders := ?senders
      registered := ?registered }
  case copies =>
    intro j t hj c hc
    rcases hlater hj with ⟨rfl, rfl⟩ | ⟨-, hold⟩
    · rw [hcopies, List.mem_filter, decide_eq_true_iff] at hc
      refine ⟨h.rows c hc.1, ?_⟩
      rw [hmailbox, hc.2]
    · exact h.copies j t hold c hc
  case copiesPlaced =>
    intro j t hj
    rcases hlater hj with ⟨rfl, rfl⟩ | ⟨-, hold⟩
    · rw [hcopies]
      exact (List.filter_sublist.map Copy.origin).trans h.rowsPlaced
    · exact h.copiesPlaced j t hold
  case payloads =>
    intro j t hj
    rcases hlater hj with ⟨rfl, rfl⟩ | ⟨-, hold⟩
    · exact h.payloads j s hs
    · exact h.payloads j t hold
  case fetched =>
    intro j t hj hfetched
    rcases hlater hj with ⟨rfl, rfl⟩ | ⟨-, hold⟩
    · exact hdelivered
    · exact h.fetched j t hold hfetched
  case senders =>
    intro k txs htxs
    obtain ⟨hnodup, hall⟩ := h.senders k txs htxs
    refine ⟨hnodup, ?_⟩
    intro tx htx
    obtain ⟨t, ht, hbox, hsubscribed⟩ := hall tx htx
    -- The session is not subscribed yet, so no sender is its own.
    have htxi : i ≠ tx := by
      rintro rfl
      cases hs.symm.trans ht
      rw [hphase] at hsubscribed
      cases hsubscribed
    refine ⟨t, ?_, hbox, hsubscribed⟩
    show (r.sessions.set i _)[tx]? = some t
    rw [List.getElem?_set_ne htxi]
    exact ht
  case registered =>
    intro j t hj hreceiving k hbox
    rcases hlater hj with ⟨rfl, rfl⟩ | ⟨-, hold⟩
    · cases hreceiving
    · exact h.registered j t hold hreceiving k hbox

/-- A session that goes live is registered under its mailbox. -/
theorem Consistent.subscribing (h : Consistent r) {i : Nat} {s : Session A}
    {login : Login A s.challenge} (hs : r.sessions[i]? = some s)
    (hphase : s.phase = .draining login []) : Consistent (r.subscribing i s login) := by
  have hcopies : (s.moved (.streaming login none [] false)).copies = s.copies := by
    simp [Session.copies, Session.holding, Session.moved, hphase, Phase.holding]
  have hmailbox : s.mailbox = some login.hash := mailbox_of_login (by rw [hphase]; rfl)
  have hlater {j : Nat} {t : Session A} (hj : (r.subscribing i s login).sessions[j]? = some t) :
      (j = i ∧ t = s.moved (.streaming login none [] false)) ∨
        (j ≠ i ∧ r.sessions[j]? = some t) := getElem?_set_cases hj
  refine
    { h with
      copies := ?copies
      copiesPlaced := ?copiesPlaced
      payloads := ?payloads
      fetched := ?fetched
      senders := ?senders
      registered := ?registered }
  case copies =>
    intro j t hj c hc
    rcases hlater hj with ⟨rfl, rfl⟩ | ⟨-, hold⟩
    · rw [hcopies] at hc
      obtain ⟨hacc, hbox⟩ := h.copies j s hs c hc
      exact ⟨hacc, hmailbox.symm.trans hbox⟩
    · exact h.copies j t hold c hc
  case copiesPlaced =>
    intro j t hj
    rcases hlater hj with ⟨rfl, rfl⟩ | ⟨-, hold⟩
    · rw [hcopies]
      exact h.copiesPlaced j s hs
    · exact h.copiesPlaced j t hold
  case payloads =>
    intro j t hj
    rcases hlater hj with ⟨rfl, rfl⟩ | ⟨-, hold⟩
    · exact h.payloads j s hs
    · exact h.payloads j t hold
  case fetched =>
    intro j t hj hfetched
    rcases hlater hj with ⟨rfl, rfl⟩ | ⟨-, hold⟩
    · cases hfetched
    · exact h.fetched j t hold hfetched
  case senders =>
    -- the session was not registered before, so its sender is new in the list
    have hkeeps {k : String} {txs : List Nat} (htxs : r.activePeers k = some txs) :
        ∀ tx ∈ txs, tx ≠ i ∧ ∃ t, (r.subscribing i s login).sessions[tx]? = some t ∧
          t.mailbox = some k ∧ t.phase.subscribed = true := by
      intro tx htx
      obtain ⟨t, ht, hbox, hsubscribed⟩ := (h.senders k txs htxs).2 tx htx
      have htxi : i ≠ tx := by
        rintro rfl
        cases hs.symm.trans ht
        rw [hphase] at hsubscribed
        cases hsubscribed
      refine ⟨Ne.symm htxi, t, ?_, hbox, hsubscribed⟩
      show (r.sessions.set i _)[tx]? = some t
      rw [List.getElem?_set_ne htxi]
      exact ht
    have hmine : ∃ t, (r.subscribing i s login).sessions[i]? = some t ∧
        t.mailbox = some login.hash ∧ t.phase.subscribed = true :=
      ⟨_, getElem?_set_self_of_some hs, rfl, rfl⟩
    intro k txs htxs
    by_cases hk : k = login.hash
    · subst hk
      have heq : (r.activePeers login.hash).getD [] ++ [i] = txs := by
        simpa [Relay.subscribing, subscribePeer] using htxs
      subst heq
      cases hold : r.activePeers login.hash with
      | none =>
          refine ⟨List.nodup_singleton i, ?_⟩
          intro tx htx
          rw [Option.getD_none, List.nil_append, List.mem_singleton] at htx
          subst htx
          exact hmine
      | some before =>
          rw [Option.getD_some]
          constructor
          · apply List.Nodup.append (h.senders _ _ hold).1 (List.nodup_singleton i)
            intro tx htx htx'
            rw [List.mem_singleton] at htx'
            exact (hkeeps hold tx htx).1 htx'
          · intro tx htx
            rcases List.mem_append.1 htx with hin | hnew
            · exact (hkeeps hold tx hin).2
            · rw [List.mem_singleton] at hnew
              subst hnew
              exact hmine
    · have hold : r.activePeers k = some txs := by
        simpa [Relay.subscribing, subscribePeer, Function.update_of_ne hk] using htxs
      exact ⟨(h.senders k txs hold).1, fun tx htx => (hkeeps hold tx htx).2⟩
  case registered =>
    intro j t hj hreceiving k hbox
    rcases hlater hj with ⟨rfl, rfl⟩ | ⟨-, hold⟩
    · cases hbox
      refine ⟨(r.activePeers login.hash).getD [] ++ [j], ?_,
        List.mem_append_right _ (List.mem_singleton.2 rfl)⟩
      simp [Relay.subscribing, subscribePeer]
    · obtain ⟨txs, htxs, hin⟩ := h.registered j t hold hreceiving k hbox
      by_cases hk : k = login.hash
      · subst hk
        refine ⟨txs ++ [i], ?_, List.mem_append_left _ hin⟩
        simp [Relay.subscribing, subscribePeer, htxs]
      · refine ⟨txs, ?_, hin⟩
        simpa [Relay.subscribing, subscribePeer, Function.update_of_ne hk] using htxs

/-! ## Placing messages -/

theorem Consistent.cleanup (h : Consistent r) (now : Int) :
    Consistent { r with db := r.db.cleanupExpiredMessages now } where
  numbered := h.numbered.sublist List.filter_sublist
  rows c hc := h.rows c (List.filter_sublist.subset hc)
  copies := h.copies
  rowsPlaced := (List.filter_sublist.map Copy.origin).trans h.rowsPlaced
  copiesPlaced := h.copiesPlaced
  payloads := h.payloads
  fetched := h.fetched
  placed := h.placed
  nodup := h.nodup
  waiting := h.waiting
  senders := h.senders
  registered := h.registered

/-- An unanswered request has not been placed. -/
theorem Consistent.not_placed (h : Consistent r) {i : Nat} {q : Request}
    (hq : r.requests[i]? = some q)
    (hopen : ∀ response expiresAt, q.phase ≠ .accepted response expiresAt) :
    i ∉ r.placements := by
  intro hi
  obtain ⟨q', response, expiresAt, hq', hphase⟩ := h.placed i hi
  cases hq.symm.trans hq'
  exact hopen response expiresAt hphase

theorem nodup_concat {l : List Nat} (h : l.Nodup) {i : Nat} (hi : i ∉ l) : (l ++ [i]).Nodup := by
  apply List.Nodup.append h (List.nodup_singleton i)
  intro j hj hj'
  rw [List.mem_singleton] at hj'
  subst hj'
  exact hi hj

/-- A request that is placed and answered. -/
structure Places (r r' : Relay A) (i : Nat) (c : Copy) : Prop where
  origin : c.origin = i
  unplaced : i ∉ r.placements
  keeps : KeepsAccepted r r'
  accepted : r'.Accepted c
  placements : r'.placements = r.placements ++ [i]
  waiting : ∀ (j : Nat) q msg, r'.requests[j]? = some q → q.phase = .dispatching msg →
    r.requests[j]? = some q

variable {i : Nat} {c : Copy}

theorem Places.placed (hp : Places r r' i c) (h : Consistent r) : ∀ j ∈ r'.placements,
    ∃ q response expiresAt, r'.requests[j]? = some q ∧ q.phase = .accepted response expiresAt := by
  intro j hj
  rw [hp.placements] at hj
  rcases List.mem_append.1 hj with hold | hnew
  · obtain ⟨q, response, expiresAt, hq, hphase⟩ := h.placed j hold
    exact ⟨q, response, expiresAt, hp.keeps j q response expiresAt hq hphase, hphase⟩
  · rw [List.mem_singleton] at hnew
    subst hnew
    obtain ⟨q, response, hq, hphase, -⟩ := hp.accepted
    rw [hp.origin] at hq
    exact ⟨q, response, _, hq, hphase⟩

theorem Places.nodup (hp : Places r r' i c) (h : Consistent r) : r'.placements.Nodup := by
  rw [hp.placements]
  exact nodup_concat h.nodup hp.unplaced

theorem Places.waits (hp : Places r r' i c) (h : Consistent r) : ∀ (j : Nat) q msg,
    r'.requests[j]? = some q → q.phase = .dispatching msg → CopyOf q msg := by
  intro j q msg hq hphase
  exact h.waiting j q msg (hp.waiting j q msg hq hphase) hphase

theorem places_of_set {q : Request} {response : SendMessageResponse}
    (h : Consistent r) (hq : r.requests[i]? = some q) (horigin : c.origin = i)
    (hopen : ∀ response expiresAt, q.phase ≠ .accepted response expiresAt)
    (hcopy : CopyOf q c.message)
    (hrequests : r'.requests =
      r.requests.set i { q with phase := .accepted response c.message.expiresAt })
    (hplacements : r'.placements = r.placements ++ [i]) : Places r r' i c where
  origin := horigin
  unplaced := h.not_placed hq hopen
  keeps := keepsAccepted_set hq hopen hrequests
  accepted := by
    refine ⟨{ q with phase := .accepted response c.message.expiresAt }, response, ?_, rfl, ?_⟩
    · rw [horigin, hrequests]
      exact getElem?_set_self_of_some hq
    · exact ⟨hcopy.recipient, hcopy.payload, hcopy.nonce⟩
  placements := hplacements
  waiting j q' msg hq' hphase := by
    rw [hrequests] at hq'
    rcases getElem?_set_cases hq' with ⟨-, rfl⟩ | ⟨-, hold⟩
    · cases hphase
    · exact hold

/-- A message enters the table. -/
theorem Consistent.enqueueing (h : Consistent r) {q : Request}
    (hq : r.requests[i]? = some q) (hphase : q.phase = .enqueueing) :
    Consistent (r.enqueueing i q) := by
  have hopen : ∀ response expiresAt, q.phase ≠ .accepted response expiresAt := by
    intro response expiresAt hacc
    rw [hphase] at hacc
    cases hacc
  let row := (r.db.enqueueMessage i q.payload.recipientPubkeyHash q.payload.encryptedPayload
    q.payload.nonce r.config.ttlSeconds r.clock).2
  have hplaces : Places r (r.enqueueing i q) i row :=
    places_of_set h hq rfl hopen ⟨rfl, rfl, rfl⟩ rfl rfl
  refine
    { h with
      numbered := h.numbered.enqueueMessage _ _ _ _ _ _
      rows := ?rows
      copies := ?copies
      rowsPlaced := ?rowsPlaced
      copiesPlaced := ?copiesPlaced
      placed := hplaces.placed h
      nodup := hplaces.nodup h
      waiting := hplaces.waits h }
  case rows =>
    intro c hc
    rcases List.mem_append.1 hc with hold | hnew
    · exact hplaces.keeps.accepted (h.rows c hold)
    · rw [List.mem_singleton] at hnew
      subst hnew
      exact hplaces.accepted
  case copies =>
    intro j s hs c hc
    obtain ⟨hacc, hmailbox⟩ := h.copies j s hs c hc
    exact ⟨hplaces.keeps.accepted hacc, hmailbox⟩
  case rowsPlaced =>
    show ((r.db.rows ++ [row]).map Copy.origin).Sublist (r.placements ++ [i])
    rw [List.map_append]
    exact h.rowsPlaced.append (List.Sublist.refl [i])
  case copiesPlaced =>
    intro j s hs
    exact (h.copiesPlaced j s hs).trans (List.sublist_append_left _ _)

theorem retainSending_of_closed (c : Copy) {senders : List Nat} {sessions : List (Session A)}
    (h : ∀ tx ∈ senders, isOpen sessions tx = false) :
    retainSending c senders sessions = ([], sessions) := by
  induction senders with
  | nil => rfl
  | cons tx senders ih =>
      rw [retainSending]
      rw [if_neg (by rw [h tx List.mem_cons_self]; exact Bool.false_ne_true)]
      exact ih fun tx' htx' => h tx' (List.mem_cons_of_mem _ htx')

/-- The relay after a live dispatch to `senders`. -/
def Relay.dispatchedTo (r : Relay A) (senders : List Nat) (i : Nat) (q : Request)
    (msg : QueuedMessage) : Relay A :=
  { r with
    activePeers := Function.update r.activePeers msg.recipientPubkeyHash
      (some (senders.filter (isOpen r.sessions)))
    sessions := (retainSending { origin := i, message := msg } senders r.sessions).2
    requests := r.requests.set i
      { q with phase := .accepted (acceptedResponse true) msg.expiresAt }
    placements := r.placements ++ [i] }

/-- The relay after a dispatch that found no listener. -/
def Relay.undispatched (r : Relay A) (i : Nat) (q : Request) (msg : QueuedMessage) : Relay A :=
  { r with
    activePeers := Function.update r.activePeers msg.recipientPubkeyHash none
    requests := r.requests.set i { q with phase := .enqueueing } }

/-- A dispatch finds an open channel among the registered ones, or it finds none and drops the
entry. -/
theorem dispatching_cases (r : Relay A) (i : Nat) (q : Request) (msg : QueuedMessage) :
    (∃ senders tx, r.activePeers msg.recipientPubkeyHash = some senders ∧ tx ∈ senders ∧
        isOpen r.sessions tx = true ∧
        r.dispatching i q msg = r.dispatchedTo senders i q msg) ∨
      ((∀ senders, r.activePeers msg.recipientPubkeyHash = some senders →
          ∀ tx ∈ senders, isOpen r.sessions tx = false) ∧
        r.dispatching i q msg = r.undispatched i q msg) := by
  rw [Relay.dispatching, dispatchLive]
  dsimp only
  cases hpeers : r.activePeers msg.recipientPubkeyHash with
  | none =>
      right
      constructor
      · intro senders hsenders
        cases hsenders
      · have hsame : Function.update r.activePeers msg.recipientPubkeyHash none =
            r.activePeers := by
          rw [← hpeers]
          exact Function.update_eq_self _ _
        rw [Relay.undispatched]
        rw [hsame]
        rfl
  | some senders =>
      by_cases hopen : ∃ tx ∈ senders, isOpen r.sessions tx = true
      · left
        obtain ⟨tx, htx, hopen⟩ := hopen
        refine ⟨senders, tx, rfl, htx, hopen, ?_⟩
        have hne : (senders.filter (isOpen r.sessions)).isEmpty = false := by
          rw [List.isEmpty_eq_false_iff_exists_mem]
          exact ⟨tx, List.mem_filter.2 ⟨htx, hopen⟩⟩
        simp only [retainSending_fst, hne]
        rfl
      · right
        have hclosed : ∀ tx ∈ senders, isOpen r.sessions tx = false := by
          intro tx htx
          rw [Bool.eq_false_iff]
          intro htrue
          exact hopen ⟨tx, htx, htrue⟩
        refine ⟨?_, ?_⟩
        · rintro _ ⟨⟩
          exact hclosed
        · simp only [retainSending_of_closed _ hclosed]
          rfl

section Dispatched

variable {q : Request} {msg : QueuedMessage} {senders : List Nat} {j : Nat} {s t : Session A}

theorem getElem?_dispatchedTo (hnodup : senders.Nodup) :
    (r.dispatchedTo senders i q msg).sessions[j]? = r.sessions[j]?.map fun s =>
      if j ∈ senders then s.push { origin := i, message := msg } else s :=
  getElem?_retainSending _ hnodup r.sessions j

/-- A session after the dispatch is one before it, tried if it is among the senders. -/
theorem exists_of_dispatchedTo (hnodup : senders.Nodup)
    (hj : (r.dispatchedTo senders i q msg).sessions[j]? = some t) :
    ∃ s, r.sessions[j]? = some s ∧
      t = if j ∈ senders then s.push { origin := i, message := msg } else s := by
  rw [getElem?_dispatchedTo hnodup] at hj
  obtain ⟨s, hs, rfl⟩ := Option.map_eq_some_iff.1 hj
  exact ⟨s, hs, rfl⟩

/-- A session that is tried keeps all but the contents of its channel. -/
theorem tried_keeps (s : Session A) (c : Copy) (tried : Prop) [Decidable tried] :
    (if tried then s.push c else s).mailbox = s.mailbox ∧
      (if tried then s.push c else s).output = s.output ∧
      (if tried then s.push c else s).delivered = s.delivered ∧
      (if tried then s.push c else s).phase.receiving = s.phase.receiving ∧
      (if tried then s.push c else s).phase.subscribed = s.phase.subscribed ∧
      (if tried then s.push c else s).phase.fetched = s.phase.fetched := by
  by_cases htried : tried
  · rw [if_pos htried]
    exact push_keeps s c
  · rw [if_neg htried]
    exact ⟨rfl, rfl, rfl, rfl, rfl, rfl⟩

/-- A session holds what it held, and the new message when it is a live listener. -/
theorem Consistent.copies_tried (h : Consistent r)
    (hsenders : r.activePeers msg.recipientPubkeyHash = some senders)
    (hs : r.sessions[j]? = some s) :
    (if j ∈ senders then s.push { origin := i, message := msg } else s).copies = s.copies ∨
      ((if j ∈ senders then s.push { origin := i, message := msg } else s).copies =
        s.copies ++ [{ origin := i, message := msg }] ∧
          s.mailbox = some msg.recipientPubkeyHash) := by
  by_cases hj : j ∈ senders
  · rw [if_pos hj]
    cases hreceiving : s.phase.receiving with
    | false =>
        left
        rw [push_of_not_receiving hreceiving]
    | true =>
        right
        obtain ⟨t, ht, hmailbox, -⟩ := (h.senders _ senders hsenders).2 j hj
        cases hs.symm.trans ht
        exact ⟨copies_push hreceiving _, hmailbox⟩
  · left
    rw [if_neg hj]

/-- The channel of a sender that stays registered still is the one of its mailbox. -/
theorem Consistent.senders_dispatchedTo (h : Consistent r)
    (hsenders : r.activePeers msg.recipientPubkeyHash = some senders) {k : String}
    {txs : List Nat} (htxs : (r.dispatchedTo senders i q msg).activePeers k = some txs) :
    txs.Nodup ∧ ∀ tx ∈ txs, ∃ t, (r.dispatchedTo senders i q msg).sessions[tx]? = some t ∧
      t.mailbox = some k ∧ t.phase.subscribed = true := by
  have hsub : ∃ txs', r.activePeers k = some txs' ∧ txs.Sublist txs' := by
    by_cases hk : k = msg.recipientPubkeyHash
    · subst hk
      have heq : senders.filter (isOpen r.sessions) = txs := by
        simpa [Relay.dispatchedTo] using htxs
      exact ⟨senders, hsenders, heq ▸ List.filter_sublist⟩
    · refine ⟨txs, ?_, List.Sublist.refl txs⟩
      simpa [Relay.dispatchedTo, Function.update_of_ne hk] using htxs
  obtain ⟨txs', htxs', hsub⟩ := hsub
  obtain ⟨hnodup', hall'⟩ := h.senders k txs' htxs'
  refine ⟨hnodup'.sublist hsub, ?_⟩
  intro tx htx
  obtain ⟨s, hs, hbox, hsubscribed⟩ := hall' tx (hsub.subset htx)
  have hget : (r.dispatchedTo senders i q msg).sessions[tx]? = _ :=
    getElem?_dispatchedTo (h.senders _ senders hsenders).1
  rw [hs, Option.map_some] at hget
  obtain ⟨hmailbox, -, -, -, hkept, -⟩ :=
    tried_keeps s { origin := i, message := msg } (tx ∈ senders)
  exact ⟨_, hget, hmailbox.trans hbox, hkept.trans hsubscribed⟩

/-- A session that receives stays registered: its channel is open. -/
theorem Consistent.registered_dispatchedTo (h : Consistent r)
    (hsenders : r.activePeers msg.recipientPubkeyHash = some senders) {k : String}
    (hs : r.sessions[j]? = some s) (hreceiving : s.phase.receiving = true)
    (hbox : s.mailbox = some k) :
    ∃ txs, (r.dispatchedTo senders i q msg).activePeers k = some txs ∧ j ∈ txs := by
  obtain ⟨txs, htxs, hin⟩ := h.registered j s hs hreceiving k hbox
  by_cases hk : k = msg.recipientPubkeyHash
  · subst hk
    cases hsenders.symm.trans htxs
    refine ⟨senders.filter (isOpen r.sessions), by simp [Relay.dispatchedTo], ?_⟩
    exact List.mem_filter.2 ⟨hin, isOpen_iff.2 ⟨s, hs, hreceiving⟩⟩
  · exact ⟨txs, by simpa [Relay.dispatchedTo, Function.update_of_ne hk] using htxs, hin⟩

/-- A message enters the channels of the live sessions of its mailbox. -/
theorem Consistent.dispatchedTo (h : Consistent r) (hq : r.requests[i]? = some q)
    (hphase : q.phase = .dispatching msg)
    (hsenders : r.activePeers msg.recipientPubkeyHash = some senders) :
    Consistent (r.dispatchedTo senders i q msg) := by
  -- The request was still waiting, so its message is placed nowhere before the step.
  have hopen : ∀ response expiresAt, q.phase ≠ .accepted response expiresAt := by
    intro response expiresAt hacc
    rw [hphase] at hacc
    cases hacc
  have hplaces : Places r (r.dispatchedTo senders i q msg) i { origin := i, message := msg } :=
    places_of_set h hq rfl hopen (h.waiting i q msg hq hphase) rfl rfl
  have hnodup := (h.senders _ senders hsenders).1
  refine
    { numbered := h.numbered
      rows := fun c hc => hplaces.keeps.accepted (h.rows c hc)
      copies := ?copies
      rowsPlaced := ?rowsPlaced
      copiesPlaced := ?copiesPlaced
      payloads := ?payloads
      fetched := ?fetched
      placed := hplaces.placed h
      nodup := hplaces.nodup h
      waiting := hplaces.waits h
      senders := fun _ _ htxs => h.senders_dispatchedTo hsenders htxs
      registered := ?registered }
  case copies =>
    intro j t hj c hc
    obtain ⟨s, hs, rfl⟩ := exists_of_dispatchedTo hnodup hj
    rw [(tried_keeps s _ (j ∈ senders)).1]
    rcases h.copies_tried hsenders hs with hsame | ⟨hmore, hmailbox⟩
    · rw [hsame] at hc
      obtain ⟨hacc, hbox⟩ := h.copies j s hs c hc
      exact ⟨hplaces.keeps.accepted hacc, hbox⟩
    · rw [hmore] at hc
      rcases List.mem_append.1 hc with hold | hnew
      · obtain ⟨hacc, hbox⟩ := h.copies j s hs c hold
        exact ⟨hplaces.keeps.accepted hacc, hbox⟩
      · rw [List.mem_singleton] at hnew
        subst hnew
        exact ⟨hplaces.accepted, hmailbox⟩
  case rowsPlaced => exact h.rowsPlaced.trans (List.sublist_append_left _ _)
  case copiesPlaced =>
    intro j t hj
    obtain ⟨s, hs, rfl⟩ := exists_of_dispatchedTo hnodup hj
    rw [hplaces.placements]
    rcases h.copies_tried hsenders hs with hsame | ⟨hmore, -⟩
    · rw [hsame]
      exact (h.copiesPlaced j s hs).trans (List.sublist_append_left _ _)
    · rw [hmore, List.map_append]
      exact (h.copiesPlaced j s hs).append (List.Sublist.refl [i])
  case payloads =>
    intro j t hj
    obtain ⟨s, hs, rfl⟩ := exists_of_dispatchedTo hnodup hj
    obtain ⟨-, houtput, hdelivered, -⟩ := tried_keeps s
      { origin := i, message := msg } (j ∈ senders)
    rw [houtput, hdelivered]
    exact h.payloads j s hs
  case fetched =>
    intro j t hj hfetched
    obtain ⟨s, hs, rfl⟩ := exists_of_dispatchedTo hnodup hj
    obtain ⟨-, -, hdelivered, -, -, hkept⟩ := tried_keeps s
      { origin := i, message := msg } (j ∈ senders)
    rw [hdelivered]
    exact h.fetched j s hs (hkept.symm.trans hfetched)
  case registered =>
    intro j t hj hreceiving k hbox
    obtain ⟨s, hs, rfl⟩ := exists_of_dispatchedTo hnodup hj
    obtain ⟨hmailbox, -, -, hkept, -⟩ := tried_keeps s
      { origin := i, message := msg } (j ∈ senders)
    exact h.registered_dispatchedTo hsenders hs (hkept.symm.trans hreceiving)
      (hmailbox.symm.trans hbox)

end Dispatched

/-- A dispatch without a listener forgets closed channels only. -/
theorem Consistent.undispatched (h : Consistent r) {q : Request} {msg : QueuedMessage}
    (hq : r.requests[i]? = some q) (hphase : q.phase = .dispatching msg)
    (hclosed : ∀ senders, r.activePeers msg.recipientPubkeyHash = some senders →
      ∀ tx ∈ senders, isOpen r.sessions tx = false) :
    Consistent (r.undispatched i q msg) := by
  have hwait : Consistent (r.withRequest i q .enqueueing) := by
    apply h.withRequest hq
    · intro response expiresAt hacc
      rw [hphase] at hacc
      cases hacc
    · intro msg' hmsg
      cases hmsg
  refine ⟨hwait.numbered, hwait.rows, hwait.copies, hwait.rowsPlaced, hwait.copiesPlaced,
    hwait.payloads, hwait.fetched, hwait.placed, hwait.nodup, hwait.waiting, ?_, ?_⟩
  · intro k txs htxs
    have hk : k ≠ msg.recipientPubkeyHash := by
      rintro rfl
      simp [Relay.undispatched] at htxs
    exact h.senders k txs (by simpa [Relay.undispatched, Function.update_of_ne hk] using htxs)
  · intro j s hs hreceiving k hbox
    obtain ⟨txs, htxs, hin⟩ := h.registered j s hs hreceiving k hbox
    have hk : k ≠ msg.recipientPubkeyHash := by
      rintro rfl
      have hopen : isOpen r.sessions j = true := isOpen_iff.2 ⟨s, hs, hreceiving⟩
      rw [hclosed txs htxs j hin] at hopen
      cases hopen
    exact ⟨txs, by simpa [Relay.undispatched, Function.update_of_ne hk] using htxs, hin⟩

/-! ## Runs -/

/-- The step lemma. -/
theorem Consistent.step (h : Consistent r) {a : Action} (hs : Step r a r') : Consistent r' := by
  cases hs with
  | tick seconds =>
      exact ⟨h.numbered, h.rows, h.copies, h.rowsPlaced, h.copiesPlaced, h.payloads, h.fetched,
        h.placed, h.nodup, h.waiting, h.senders, h.registered⟩
  | sendMessage payload => exact h.sendMessage payload
  | @dispatch i q msg hq hphase =>
      rcases dispatching_cases r i q msg with ⟨senders, tx, hsenders, -, -, heq⟩ | ⟨hclosed, heq⟩
      · rw [heq]
        exact h.dispatchedTo hq hphase hsenders
      · rw [heq]
        exact h.undispatched hq hphase hclosed
  | enqueue hq hphase => exact h.enqueueing hq hphase
  | enqueueFailed hq hphase =>
      apply h.withRequest hq
      · intro response expiresAt hacc
        rw [hphase] at hacc
        cases hacc
      · intro msg hmsg
        cases hmsg
  | dropRequest hq hopen =>
      apply h.withRequest hq hopen
      intro msg hmsg
      cases hmsg
  | cleanup => exact h.cleanup r.clock
  | cleanupFailed => exact h
  | connect hlength => exact h.connect _
  | fetch hsession hphase => exact h.fetching hsession hphase
  | fetchFailed hsession hphase => exact h.withSession hsession (moves_of_fetchFailed hphase)
  | subscribe hsession hphase => exact h.subscribing hsession hphase
  | closeChannel hsession hphase _ =>
      exact h.withSession hsession (moves_of_closeChannel hphase)
  | session hsession hstep => exact h.withSession hsession (Session.moves_of_step hstep)

/-- The run lemma. -/
theorem consistent_of_reachable {allowed : Relay A → Action → Prop} {config : Config} {clock : Int}
    (h : Reachable Relay.step allowed (Relay.init config clock) r) : Consistent r :=
  h.invariant (consistent_init config clock) fun _ _ _ hc _ hs => hc.step (step_of_eq hs)

end TorE2EE.Relay
