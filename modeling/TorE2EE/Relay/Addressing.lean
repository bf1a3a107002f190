import TorE2EE.Relay.Isolation
import Mathlib.Tactic.IntervalCases

/-!
# Addresses and mailboxes

`handle_send_message` takes a recipient hash in either letter case, `compute_pubkey_hash` writes
lower case, and the table and the peer map compare strings. A session is handed a message addressed
to its key exactly when the address is written without upper-case letters (`reached_iff_lowercase`).
-/

set_option autoImplicit false

namespace TorE2EE.Relay

open TorE2EE.Foundation

variable {A : AuthLibrary} {r : Relay A}

/-- The text has no upper-case letter. -/
def Lowercase (cs : List Char) : Prop := ∀ c ∈ cs, c.isUpper = false

/-- The text spells the hash of the key in hexadecimal, in any letter case. -/
def Spells (A : AuthLibrary) (address : String) (key : List UInt8) : Prop :=
  hexPairs address.toList = some (A.sha256 key)

/-- A session is authenticated with a key. -/
def Session.AuthenticatedWith (s : Session A) (key : List UInt8) : Prop :=
  ∃ login, s.phase.login = some login ∧ hexPairs login.publicKey.toList = some key

/-! ## Hex in two letter cases -/

/-- The digits `hexValue` knows, in both letter cases. -/
def hexDigits : List Char := "0123456789abcdefABCDEF".toList

theorem mem_hexDigits_of_hexValue {c : Char} {v : UInt8} (h : hexValue c = some v) :
    c ∈ hexDigits := by
  have hranges : (48 ≤ c.toNat ∧ c.toNat ≤ 57) ∨ (97 ≤ c.toNat ∧ c.toNat ≤ 102) ∨
      (65 ≤ c.toNat ∧ c.toNat ≤ 70) := by
    rw [hexValue] at h
    simp only [Bool.and_eq_true, decide_eq_true_eq, Char.le_def, UInt32.le_iff_toNat_le] at h
    split at h
    · rename_i hrange
      exact Or.inl hrange
    · split at h
      · rename_i hrange
        exact Or.inr (Or.inl hrange)
      · split at h
        · rename_i hrange
          exact Or.inr (Or.inr hrange)
        · cases h
  rw [← Char.ofNat_toNat c]
  rcases hranges with ⟨hlow, hhigh⟩ | ⟨hlow, hhigh⟩ | ⟨hlow, hhigh⟩
  · interval_cases c.toNat <;> decide
  · interval_cases c.toNat <;> decide
  · interval_cases c.toNat <;> decide

/-- A digit is the one the encoder writes unless it is an upper-case letter. -/
theorem hexValue_spec {c : Char} {v : UInt8} (h : hexValue c = some v) :
    v.toNat < 16 ∧ (c = hexDigit v ↔ c.isUpper = false) := by
  -- the twenty-two digits, one by one
  have hall : (hexDigits.all fun c => (hexValue c).all fun v =>
      decide (v.toNat < 16) && (decide (c = hexDigit v) == !c.isUpper)) = true := by
    decide
  have hspec := List.all_eq_true.1 hall c (mem_hexDigits_of_hexValue h)
  rw [h, Option.all_some, Bool.and_eq_true, decide_eq_true_eq, beq_iff_eq] at hspec
  obtain ⟨hlt, hsame⟩ := hspec
  refine ⟨hlt, ?_⟩
  rw [← decide_eq_true_iff (p := c = hexDigit v), hsame, Bool.not_eq_true']

/-- Digits are the encoding of the bytes they spell if and only if none is an upper-case letter. -/
theorem eq_hexEncode_iff {cs : List Char} {bytes : List UInt8} (h : hexPairs cs = some bytes) :
    cs = (hexEncode bytes).toList ↔ Lowercase cs := by
  -- on the digits two by two, as the decoder reads them
  induction cs using hexPairs.induct generalizing bytes with
  | case1 =>
      cases h
      exact iff_of_true rfl fun _ hc => absurd hc List.not_mem_nil
  | case2 => cases h
  | case3 hi lo rest ih =>
      simp only [hexPairs, Option.bind_eq_bind, Option.bind_eq_some_iff] at h
      obtain ⟨x, hx, y, hy, tail, htail, hbytes⟩ := h
      cases hbytes
      obtain ⟨hxlt, hxspec⟩ := hexValue_spec hx
      obtain ⟨hylt, hyspec⟩ := hexValue_spec hy
      have h16 : (16 : UInt8).toNat = 16 := rfl
      -- the encoder takes the two digits of a byte apart again
      have hhigh : (x * 16 + y) / 16 = x := by
        apply UInt8.toNat_inj.1
        rw [UInt8.toNat_div, UInt8.toNat_add, UInt8.toNat_mul, h16]
        omega
      have hlow : (x * 16 + y) % 16 = y := by
        apply UInt8.toNat_inj.1
        rw [UInt8.toNat_mod, UInt8.toNat_add, UInt8.toNat_mul, h16]
        omega
      have hencode : (hexEncode ((x * 16 + y) :: tail)).toList =
          hexDigit x :: hexDigit y :: (hexEncode tail).toList := by
        simp [hexEncode, hhigh, hlow]
      rw [hencode, List.cons.injEq, List.cons.injEq, hxspec, hyspec, ih htail]
      simp [Lowercase]

/-! ## The mailbox of a key -/

theorem mailbox_of_authenticatedWith {s : Session A} {key : List UInt8}
    (h : s.AuthenticatedWith key) : s.mailbox = some (hexEncode (A.sha256 key)) := by
  obtain ⟨login, hlogin, hkey⟩ := h
  obtain ⟨pkBytes, -, hdecode, -, -, -, -, -, hhash⟩ := verifyChallengeSignature_ok A login.verified
  cases hkey.symm.trans hdecode
  rw [Session.mailbox, hlogin, Option.map_some, hhash]

/-- An address of a key is its mailbox if and only if it is written in lower case. -/
theorem address_eq_iff {address : String} {key : List UInt8} (h : Spells A address key) :
    address = hexEncode (A.sha256 key) ↔ Lowercase address.toList := by
  rw [← eq_hexEncode_iff h, String.toList_inj]

/-- A live session holds what is put into its channel. -/
theorem mem_holding_push {s : Session A} (h : s.phase.receiving = true) (c : Copy) :
    c ∈ (s.push c).holding := by
  obtain ⟨login, inHand, channel, receiveEnded, hphase⟩ := streaming_of_receiving h
  rw [push_of_streaming hphase]
  simp [Session.holding, Session.moved, Phase.holding]

/-! ## Drains and dispatches -/

/-- A drain hands a session a row addressed to its key if and only if the address is written in
lower case. -/
theorem drained_iff {address : String} {key : List UInt8} (hspells : Spells A address key)
    {i : Nat} {s : Session A} (hs : r.sessions[i]? = some s) (hkey : s.AuthenticatedWith key)
    {login : Login A s.challenge} (hphase : s.phase = .confirmed login) {c : Copy}
    (hc : c ∈ r.db.rows) (haddress : c.message.recipientPubkeyHash = address) :
    (∃ s', (r.fetching i s login).sessions[i]? = some s' ∧ c ∈ s'.holding) ↔
      Lowercase address.toList := by
  have hhash : login.hash = hexEncode (A.sha256 key) := by
    have hbox : s.mailbox = some login.hash := mailbox_of_login (by rw [hphase]; rfl)
    exact Option.some.inj (hbox.symm.trans (mailbox_of_authenticatedWith hkey))
  have hafter : (r.fetching i s login).sessions[i]? =
      some (s.moved (.draining login (r.db.fetchAndDeleteMessages login.hash).1)) :=
    getElem?_set_self_of_some hs
  -- the session holds what the drain has returned
  have hholds : (∃ s', (r.fetching i s login).sessions[i]? = some s' ∧ c ∈ s'.holding) ↔
      c ∈ (r.db.fetchAndDeleteMessages login.hash).1 := by
    rw [hafter]
    constructor
    · rintro ⟨s', hs', hmem⟩
      cases hs'
      exact hmem
    · exact fun hmem => ⟨_, rfl, hmem⟩
  rw [hholds, Database.fetchAndDeleteMessages_fst, Database.mem_queuedFor, haddress, hhash,
    address_eq_iff hspells]
  exact and_iff_right hc

/-- A dispatch puts a message addressed to the key of a live session into its channel if and only
if the address is written in lower case. -/
theorem dispatched_iff (hr : Consistent r) {address : String} {key : List UInt8}
    (hspells : Spells A address key) {i : Nat} {q : Request} {msg : QueuedMessage}
    (hq : r.requests[i]? = some q) (hphase : q.phase = .dispatching msg)
    (haddress : q.payload.recipientPubkeyHash = address) {j : Nat} {s : Session A}
    (hs : r.sessions[j]? = some s) (hkey : s.AuthenticatedWith key)
    (hlive : s.phase.receiving = true) :
    (∃ s' c, (r.dispatching i q msg).sessions[j]? = some s' ∧ c ∈ s'.holding ∧ c.origin = i) ↔
      Lowercase address.toList := by
  have hbox := mailbox_of_authenticatedWith hkey
  have hmsg : msg.recipientPubkeyHash = address := (hr.waiting i q msg hq hphase).recipient.trans
    haddress
  -- the session has no copy of a message that is still to be dispatched
  have hnone : ∀ c ∈ s.holding, c.origin ≠ i := by
    rintro c hc rfl
    obtain ⟨⟨q', response, hq', hacc, -⟩, -⟩ := hr.copies j s hs c (List.mem_append_right _ hc)
    cases hq.symm.trans hq'
    cases hphase.symm.trans hacc
  rw [← address_eq_iff hspells]
  constructor
  · rintro ⟨s', c, hs', hc, horigin⟩
    by_contra hother
    -- under another hash the dispatch does not touch the session
    have hsame : (r.dispatching i q msg).sessions[j]? = some s := by
      rcases dispatching_cases r i q msg with ⟨senders, -, hsenders, -, -, heq⟩ | ⟨-, heq⟩
      · have hnot : j ∉ senders := by
          intro hj
          obtain ⟨t, ht, hmailbox, -⟩ := (hr.senders _ senders hsenders).2 j hj
          cases hs.symm.trans ht
          rw [hbox, hmsg] at hmailbox
          exact hother (Option.some.inj hmailbox).symm
        rw [heq]
        refine (getElem?_retainSending _ (hr.senders _ senders hsenders).1 r.sessions j).trans ?_
        rw [hs, Option.map_some, if_neg hnot]
      · rw [heq]
        exact hs
    cases hs'.symm.trans hsame
    exact hnone c hc horigin
  · intro hmine
    -- under its own hash the session is registered, and its channel is open
    obtain ⟨txs, htxs, hj⟩ := hr.registered j s hs hlive _ hbox
    rw [← hmine, ← hmsg] at htxs
    rcases dispatching_cases r i q msg with ⟨senders, -, hsenders, -, -, heq⟩ | ⟨hclosed, -⟩
    · cases htxs.symm.trans hsenders
      refine ⟨s.push { origin := i, message := msg }, { origin := i, message := msg }, ?_,
        mem_holding_push hlive _, rfl⟩
      rw [heq]
      refine (getElem?_retainSending _ (hr.senders _ txs htxs).1 r.sessions j).trans ?_
      rw [hs, Option.map_some, if_pos hj]
    · have hopen : isOpen r.sessions j = true := isOpen_iff.2 ⟨s, hs, hlive⟩
      rw [hclosed txs htxs j hj] at hopen
      cases hopen

/-- In every run, and for every address that spells the hash of a key: a drain of a session
authenticated with the key hands it a row with the address, and a dispatch of a message with the
address reaches a live session authenticated with the key, if and only if the address has no
upper-case letter. -/
theorem reached_iff_lowercase {config : Config} {clock : Int}
    (h : Reachable Relay.step (fun _ _ => True) (Relay.init config clock) r) {address : String}
    {key : List UInt8} (hspells : Spells A address key) :
    (∀ (i : Nat) r', r.step (.fetch i true) = some r' → ∀ s : Session A, r.sessions[i]? = some s →
      s.AuthenticatedWith key → ∀ c ∈ r.db.rows, c.message.recipientPubkeyHash = address →
        ((∃ s', r'.sessions[i]? = some s' ∧ c ∈ s'.holding) ↔ Lowercase address.toList)) ∧
    ∀ (i : Nat) r', r.step (.dispatch i) = some r' → ∀ q, r.requests[i]? = some q →
      q.payload.recipientPubkeyHash = address →
      ∀ (j : Nat) (s : Session A), r.sessions[j]? = some s → s.AuthenticatedWith key →
        s.phase.receiving = true →
          ((∃ s' c, r'.sessions[j]? = some s' ∧ c ∈ s'.holding ∧ c.origin = i) ↔
            Lowercase address.toList) := by
  constructor
  · intro i r' hstep s hs hkey c hc haddress
    cases step_of_eq hstep with
    | fetch hsession hphase =>
        cases hs.symm.trans hsession
        exact drained_iff hspells hs hkey hphase hc haddress
  · intro i r' hstep q hq haddress j s hs hkey hlive
    cases step_of_eq hstep with
    | dispatch hrequest hphase =>
        cases hq.symm.trans hrequest
        exact dispatched_iff (consistent_of_reachable h) hspells hq hphase haddress hs hkey hlive

/-! ## An address in upper case -/

/-- A key whose hash has letters. -/
def letterKey : List UInt8 := List.replicate 32 171

/-- The hash of the key in upper case. -/
def upperAddress : String :=
  "ABABABABABABABABABABABABABABABABABABABABABABABABABABABABABABABAB"

def upperRequest : SendMessageRequest := { plainRequest with recipientPubkeyHash := upperAddress }

/-- A message is sent to the address in upper case, and the owner of the key logs in. -/
def sentInUpperCase : List Action :=
  [.sendMessage upperRequest, .dispatch 0, .enqueue 0 true, .connect plainChallenge,
    .session 0 (.sendChallenge true),
    .session 0 (.receiveAuth (.text (some (.auth (hexEncode letterKey)
      (hexEncode (letterKey ++ plainChallenge)))))),
    .session 0 (.sendAuthenticated true)]

theorem reached_iff_lowercase_plain :
    ∃ r : Relay plainLibrary, runActions Relay.step sentInUpperCase plainRelay = some r ∧
      Spells plainLibrary upperAddress letterKey ∧
      (∀ (i : Nat) r', r.step (.fetch i true) = some r' → ∀ s : Session plainLibrary,
        r.sessions[i]? = some s → s.AuthenticatedWith letterKey → ∀ c ∈ r.db.rows,
          c.message.recipientPubkeyHash = upperAddress →
            ((∃ s', r'.sessions[i]? = some s' ∧ c ∈ s'.holding) ↔
              Lowercase upperAddress.toList)) ∧
      ∀ (i : Nat) r', r.step (.dispatch i) = some r' → ∀ q, r.requests[i]? = some q →
        q.payload.recipientPubkeyHash = upperAddress →
        ∀ (j : Nat) (s : Session plainLibrary), r.sessions[j]? = some s →
          s.AuthenticatedWith letterKey → s.phase.receiving = true →
            ((∃ s' c, r'.sessions[j]? = some s' ∧ c ∈ s'.holding ∧ c.origin = i) ↔
              Lowercase upperAddress.toList) := by
  have hruns : (runActions Relay.step sentInUpperCase plainRelay).isSome := by decide +kernel
  obtain ⟨r, hr⟩ := Option.isSome_iff_exists.1 hruns
  have hspells : Spells plainLibrary upperAddress letterKey := by
    rw [Spells]
    decide +kernel
  exact ⟨r, hr, hspells,
    reached_iff_lowercase (.of_runActions (fun _ _ _ => trivial) .start hr) hspells⟩

/-- The address passes validation and the message is accepted; the drain of the owner's session
hands it nothing. -/
theorem upper_case_not_reached :
    ∃ (r r' : Relay plainLibrary) (s s' : Session plainLibrary) (c : Copy),
      Reachable Relay.step (fun _ _ => True) plainRelay r ∧
      validate plainConfig upperRequest = .ok () ∧ Spells plainLibrary upperAddress letterKey ∧
      r.Accepted c ∧ c.message.recipientPubkeyHash = upperAddress ∧ c ∈ r.db.rows ∧
      r.sessions[0]? = some s ∧ s.AuthenticatedWith letterKey ∧
      r.step (.fetch 0 true) = some r' ∧ r'.sessions[0]? = some s' ∧ c ∉ s'.holding := by
  have hend : (runActions Relay.step sentInUpperCase plainRelay).map (fun r =>
      (r.db.rows.map fun c => c.message.recipientPubkeyHash,
        r.sessions[0]?.map fun s => s.phase.login.bind fun l => hexPairs l.publicKey.toList,
        (r.step (.fetch 0 true)).map fun r' => r'.sessions[0]?.map fun s => s.holding.isEmpty)) =
      some ([upperAddress], some (some letterKey), some (some true)) := by decide +kernel
  obtain ⟨r, hr, hvalues⟩ := Option.map_eq_some_iff.1 hend
  simp only [Prod.mk.injEq] at hvalues
  obtain ⟨hrows, hsession, hfetch⟩ := hvalues
  have hreach : Reachable Relay.step (fun _ _ => True) plainRelay r :=
    .of_runActions (fun _ _ _ => trivial) .start hr
  have hmem : upperAddress ∈ r.db.rows.map fun c => c.message.recipientPubkeyHash := by
    rw [hrows]
    exact List.mem_singleton.2 rfl
  obtain ⟨c, hc, haddress⟩ := List.mem_map.1 hmem
  obtain ⟨s, hs, hlogin⟩ := Option.map_eq_some_iff.1 hsession
  obtain ⟨r', hr', hafter⟩ := Option.map_eq_some_iff.1 hfetch
  obtain ⟨s', hs', hholding⟩ := Option.map_eq_some_iff.1 hafter
  refine ⟨r, r', s, s', c, hreach, ?_, ?_, (consistent_of_reachable hreach).rows c hc, haddress, hc,
    hs, Option.bind_eq_some_iff.1 hlogin, hr', hs', ?_⟩
  · decide +kernel
  · rw [Spells]
    decide +kernel
  · rw [List.isEmpty_iff.1 hholding]
    exact List.not_mem_nil

end TorE2EE.Relay
