import TorE2EE.Relay.Placement

/-!
# Isolation, order and no duplication

What one stream session writes: copies of requests accepted for the mailbox its client proved to
own, each at most once, in the order of placement. Rows disappear by a drain of their mailbox or by
expiry (`row_disappears`). The credentials of a session are the ones its client sent
(`credentials_presented`).
-/

set_option autoImplicit false

namespace TorE2EE.Relay

open TorE2EE.Foundation

variable {A : AuthLibrary} {r r' : Relay A}

/-- A session is authenticated for the mailbox `k`: the login of its client is a public key with a
signature that is valid for the session's own challenge, and `k` is the hash of the key. -/
def Session.AuthenticatedFor (s : Session A) (k : String) : Prop :=
  ∃ publicKey signature pkBytes, s.credentials = some (publicKey, signature) ∧
    verifyChallengeSignature A publicKey s.challenge signature = .ok k ∧
    hexPairs publicKey.toList = some pkBytes ∧ k = hexEncode (A.sha256 pkBytes)

theorem authenticatedFor_of_mailbox {s : Session A} {k : String} (h : s.mailbox = some k) :
    s.AuthenticatedFor k := by
  obtain ⟨login, hlogin, rfl⟩ := Option.map_eq_some_iff.1 h
  obtain ⟨pkBytes, -, hdecode, -, -, -, -, -, hhash⟩ := verifyChallengeSignature_ok A login.verified
  exact ⟨login.publicKey, login.signature, pkBytes, Option.map_eq_some_iff.2 ⟨login, hlogin, rfl⟩,
    login.verified, hdecode, hhash⟩

theorem credentials_push (s : Session A) (c : Copy) : (s.push c).credentials = s.credentials := by
  rw [Session.push]
  split
  · rename_i hphase
    rw [Session.credentials, Session.credentials, hphase]
    rfl
  · rfl

/-- A session comes to credentials only by an `auth` frame of its client that carries them. -/
theorem credentials_presented (hr : Consistent r) {a : Action} (h : Step r a r') {i : Nat}
    {s' : Session A} (hs' : r'.sessions[i]? = some s') {publicKey signature : String}
    (hcredentials : s'.credentials = some (publicKey, signature)) :
    (∃ s, r.sessions[i]? = some s ∧ s.credentials = some (publicKey, signature)) ∨
      a = .session i (.receiveAuth (.text (some (.auth publicKey signature)))) := by
  -- a step moves one session on, and that move keeps the login
  have hmoved {j : Nat} {s : Session A} {phase : Phase A s.challenge}
      (hs : r.sessions[j]? = some s) (hlogin : phase.login = s.phase.login)
      (hset : (r.sessions.set j (s.moved phase))[i]? = some s') :
      ∃ s, r.sessions[i]? = some s ∧ s.credentials = some (publicKey, signature) := by
    rcases getElem?_set_cases hset with ⟨rfl, rfl⟩ | ⟨-, hold⟩
    · refine ⟨s, hs, ?_⟩
      rw [Session.credentials, ← hlogin]
      exact hcredentials
    · exact ⟨s', hold, hcredentials⟩
  cases h with
  | tick | sendMessage | enqueue | enqueueFailed | dropRequest | cleanup | cleanupFailed =>
      exact Or.inl ⟨s', hs', hcredentials⟩
  | @dispatch j q msg hq hphase =>
      left
      rcases dispatching_cases r j q msg with ⟨senders, tx, hsenders, -, -, heq⟩ | ⟨-, heq⟩
      · rw [heq] at hs'
        have hget := getElem?_retainSending { origin := j, message := msg }
          (hr.senders _ senders hsenders).1 r.sessions i
        obtain ⟨s, hs, hpushed⟩ := Option.map_eq_some_iff.1 (hget.symm.trans hs')
        refine ⟨s, hs, ?_⟩
        split at hpushed
        · rw [← credentials_push s, hpushed]
          exact hcredentials
        · rw [hpushed]
          exact hcredentials
      · rw [heq] at hs'
        exact ⟨s', hs', hcredentials⟩
  | connect hlength =>
      left
      dsimp only at hs'
      rw [List.getElem?_append] at hs'
      split at hs'
      · exact ⟨s', hs', hcredentials⟩
      · rw [List.getElem?_singleton] at hs'
        split at hs'
        · -- a session that has just connected has no login
          cases hs'
          cases hcredentials
        · cases hs'
  | fetch hs hphase => exact Or.inl (hmoved hs (by rw [hphase]; rfl) hs')
  | fetchFailed hs hphase => exact Or.inl (hmoved hs (by rw [hphase]; rfl) hs')
  | subscribe hs hphase => exact Or.inl (hmoved hs (by rw [hphase]; rfl) hs')
  | closeChannel hs hphase hgone => exact Or.inl (hmoved hs (by rw [hphase]; rfl) hs')
  | session hs hstep =>
      rcases getElem?_set_cases hs' with ⟨rfl, rfl⟩ | ⟨-, hold⟩
      · rcases Session.credentials_of_step hstep hcredentials with hbefore | rfl
        · exact Or.inl ⟨_, hs, hbefore⟩
        · exact Or.inr rfl
      · exact Or.inl ⟨s', hold, hcredentials⟩

/-- A row leaves the table by a drain of its mailbox or by a cleanup after its expiry. -/
theorem row_disappears {a : Action} (h : Step r a r') {c : Copy} (hc : c ∈ r.db.rows)
    (hgone : c ∉ r'.db.rows) :
    (∃ i s, a = .fetch i true ∧ r.sessions[i]? = some s ∧
        s.mailbox = some c.message.recipientPubkeyHash) ∨
      (a = .cleanup true ∧ c.message.expiresAt ≤ r.clock) := by
  cases h with
  | cleanup =>
      right
      refine ⟨rfl, ?_⟩
      -- a cleanup keeps the rows that have not expired
      by_contra hlater
      exact hgone (List.mem_filter.2 ⟨hc, decide_eq_true hlater⟩)
  | @fetch i s login hsession hphase =>
      left
      refine ⟨i, s, rfl, hsession, ?_⟩
      have hkept : c ∉ (r.db.fetchAndDeleteMessages login.hash).2.rows := hgone
      rw [Database.rows_fetchAndDeleteMessages] at hkept
      -- a drain keeps the rows of other mailboxes
      have hmine : c.message.recipientPubkeyHash = login.hash := by
        by_contra hother
        exact hkept (List.mem_filter.2 ⟨hc, decide_eq_true hother⟩)
      rw [hmine]
      exact mailbox_of_login (by rw [hphase]; rfl)
  | enqueue hq hphase => exact absurd (List.mem_append_left _ hc) hgone
  | @dispatch i q msg hq hphase =>
      rcases dispatching_cases r i q msg with ⟨senders, tx, -, -, -, heq⟩ | ⟨-, heq⟩
      · rw [heq] at hgone
        exact absurd hc hgone
      · rw [heq] at hgone
        exact absurd hc hgone
  | tick | sendMessage | enqueueFailed | dropRequest | cleanupFailed | connect | fetchFailed
  | subscribe | closeChannel | session => exact absurd hc hgone

/-- In every run, the message frames of a session are copies of requests accepted for the mailbox its
client logged in to, in the order of placement and each at most once; a row disappears only by a
drain of its mailbox or a cleanup after its expiry; and a login is one the client has sent. -/
theorem relay_isolates {config : Config} {clock : Int}
    (h : Reachable Relay.step (fun _ _ => True) (Relay.init config clock) r) :
    (∀ (i : Nat) s, r.sessions[i]? = some s → ∃ copies : List Copy,
        s.output.filter ServerWsMessage.isPayload = copies.map (fun c => c.message.outgoing) ∧
        (∀ c ∈ copies, r.Accepted c ∧ s.AuthenticatedFor c.message.recipientPubkeyHash) ∧
        (copies.map Copy.origin).Nodup ∧ (copies.map Copy.origin).Sublist r.placements) ∧
      ∀ a r', r.step a = some r' →
        (∀ c ∈ r.db.rows, c ∉ r'.db.rows →
          (∃ i s, a = .fetch i true ∧ r.sessions[i]? = some s ∧
              s.AuthenticatedFor c.message.recipientPubkeyHash) ∨
            (a = .cleanup true ∧ c.message.expiresAt ≤ r.clock)) ∧
        ∀ (i : Nat) s' publicKey signature, r'.sessions[i]? = some s' →
          s'.credentials = some (publicKey, signature) →
          (∃ s, r.sessions[i]? = some s ∧ s.credentials = some (publicKey, signature)) ∨
            a = .session i (.receiveAuth (.text (some (.auth publicKey signature)))) := by
  have hr : Consistent r := consistent_of_reachable h
  constructor
  · intro i s hs
    have hwritten : (s.delivered.map Copy.origin).Sublist r.placements := by
      apply List.Sublist.trans _ (hr.copiesPlaced i s hs)
      rw [Session.copies, List.map_append]
      exact List.sublist_append_left _ _
    refine ⟨s.delivered, hr.payloads i s hs, ?_, hr.nodup.sublist hwritten, hwritten⟩
    intro c hc
    obtain ⟨hacc, hmailbox⟩ := hr.copies i s hs c (List.mem_append_left _ hc)
    exact ⟨hacc, authenticatedFor_of_mailbox hmailbox⟩
  · intro a r' hstep
    constructor
    · intro c hc hgone
      rcases row_disappears (step_of_eq hstep) hc hgone with ⟨i, s, ha, hs, hmailbox⟩ | hexpired
      · exact Or.inl ⟨i, s, ha, hs, authenticatedFor_of_mailbox hmailbox⟩
      · exact Or.inr hexpired
    · intro i s' publicKey signature hs' hcredentials
      exact credentials_presented hr (step_of_eq hstep) hs' hcredentials

/-! ## A delivery -/

/-- A library whose hash is the identity and whose signatures are the key followed by the message. -/
def plainLibrary : AuthLibrary where
  hexError _ := "Invalid hex"
  verifyingKeyFromBytes _ := .ok ()
  verifyStrict key message signature :=
    if signature = key ++ message then .ok () else .error "Verification equation was not satisfied"
  sha256 bytes := bytes

/-- The key of a client, and the challenge it answers. -/
def plainKey : List UInt8 := List.replicate 32 1

def plainChallenge : List UInt8 := List.replicate 32 2

/-- The mailbox of the client. -/
def plainMailbox : String := hexEncode plainKey

def plainConfig : Config := { maxPayloadBytes := 65536, ttlSeconds := 1209600 }

/-- The relay when it starts. -/
def plainRelay : Relay plainLibrary := Relay.init plainConfig 0

/-- A message for the client. -/
def plainRequest : SendMessageRequest :=
  { recipientPubkeyHash := plainMailbox, encryptedPayload := "first", nonce := "nonce" }

/-- The client connects, answers the challenge, and is confirmed. -/
def logIn (i : Nat) : List Action :=
  [.connect plainChallenge, .session i (.sendChallenge true),
    .session i (.receiveAuth (.text (some (.auth (hexEncode plainKey)
      (hexEncode (plainKey ++ plainChallenge)))))),
    .session i (.sendAuthenticated true)]

/-- A message waits in the table, and one arrives while the client is connected. -/
def twoDeliveries : List Action :=
  [.sendMessage plainRequest, .dispatch 0, .enqueue 0 true] ++ logIn 0 ++
    [.fetch 0 true, .session 0 (.sendQueued true), .subscribe 0,
      .sendMessage { plainRequest with encryptedPayload := "second" }, .dispatch 1,
      .session 0 .takeFromChannel, .session 0 (.sendLive true)]

theorem relay_isolates_plain :
    ∃ r : Relay plainLibrary, runActions Relay.step twoDeliveries plainRelay = some r ∧
      (∀ (i : Nat) s, r.sessions[i]? = some s → ∃ copies : List Copy,
        s.output.filter ServerWsMessage.isPayload = copies.map (fun c => c.message.outgoing) ∧
        (∀ c ∈ copies, r.Accepted c ∧ s.AuthenticatedFor c.message.recipientPubkeyHash) ∧
        (copies.map Copy.origin).Nodup ∧ (copies.map Copy.origin).Sublist r.placements) ∧
      ∀ a r', r.step a = some r' →
        (∀ c ∈ r.db.rows, c ∉ r'.db.rows →
          (∃ i s, a = .fetch i true ∧ r.sessions[i]? = some s ∧
              s.AuthenticatedFor c.message.recipientPubkeyHash) ∨
            (a = .cleanup true ∧ c.message.expiresAt ≤ r.clock)) ∧
        ∀ (i : Nat) s' publicKey signature, r'.sessions[i]? = some s' →
          s'.credentials = some (publicKey, signature) →
          (∃ s, r.sessions[i]? = some s ∧ s.credentials = some (publicKey, signature)) ∨
            a = .session i (.receiveAuth (.text (some (.auth publicKey signature)))) := by
  have hruns : (runActions Relay.step twoDeliveries plainRelay).isSome := by decide +kernel
  obtain ⟨r, hr⟩ := Option.isSome_iff_exists.1 hruns
  exact ⟨r, hr, relay_isolates (.of_runActions (fun _ _ _ => trivial) .start hr)⟩

end TorE2EE.Relay
