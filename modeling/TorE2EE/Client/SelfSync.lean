import TorE2EE.Client.Receiving
import TorE2EE.Client.Runs
import TorE2EE.Client.SymbolicRun

/-!
# Who can make a self-sync

`handleIncomingMessage` takes a decrypted plaintext for a self-sync when it is JSON that says so,
whoever the sender is. `OwnConversation` is what an ordinary message does to the database, and
`incoming_in_own_conversation_iff` says which decrypted messages do it: those that are no self-sync,
draw a new id, and whose sender's placeholder, if one is made, takes no contact's row.
-/

set_option autoImplicit false

namespace TorE2EE.Client

open TorE2EE.Foundation TorE2EE.Crypto

variable {B S : Type} [DecidableEq S]

/-- From `x` to `y`, one message row is new, in a conversation of the sender, incoming and with the
plaintext as its body; the other messages and the contacts of others are as they were. -/
structure OwnConversation (sender plaintext : S) (x y : ClientState B S) : Prop where
  inserted : ∃ row, y.messages = x.messages ++ [row] ∧ row.body = plaintext ∧
    row.is_outgoing = false ∧
    ∃ c ∈ y.contacts, c.identity_pubkey_hex = sender ∧
      row.contact_pubkey_hash = c.recipient_pubkey_hash
  others : ∀ c : ContactRow S, c.identity_pubkey_hex ≠ sender →
    (c ∈ x.contacts ↔ c ∈ y.contacts)

variable {P : Primitives B S} {L : ClientLibrary B S} {U : UntypedCalls B S} {E : Entropy B}
  {N : Network}

/-! ## The sender's contact -/

/-- A sender that was found has a row with its key. -/
theorem findSender_some (hlower : ∀ s, P.toLowerCase (P.toLowerCase s) = P.toLowerCase s)
    {x : ClientState B S} (hx : LowerCased P x) {encryptedMsg : Json S} {sender : S}
    {c : ContactRecord S} (h : findSender P x encryptedMsg = .ok (sender, some c)) :
    ∃ row ∈ x.contacts, c = mapRowToContact P row ∧ row.identity_pubkey_hex = sender := by
  rw [findSender] at h
  split at h
  · cases h
  · split at h
    · split at h
      · cases h
      · next key hkey =>
          simp only [Except.ok.injEq, Prod.mk.injEq] at h
          -- the contact was looked up by the key the envelope names
          obtain ⟨rfl, hcontact⟩ := h
          obtain ⟨row, hrow, rfl⟩ := Option.map_eq_some_iff.1 hcontact
          refine ⟨row, List.mem_of_find?_eq_some hrow, rfl, ?_⟩
          have hidentity := List.find?_some hrow
          rw [decide_eq_true_eq, hlower] at hidentity
          exact hidentity
    · split at h
      · next c' hfound =>
          simp only [Except.ok.injEq, Prod.mk.injEq, Option.some.injEq] at h
          -- the contact was found by its session, and its key is taken from its row
          obtain ⟨rfl, rfl⟩ := h
          obtain ⟨row, hrow, rfl⟩ := List.mem_map.1 (List.mem_of_find?_eq_some hfound)
          have hmem := (List.mem_insertionSort _).1 hrow
          exact ⟨row, hmem, rfl, ((hx row hmem).2).symm⟩
      · cases h

/-- A sender that was not found is a lower-case key without a row. -/
theorem findSender_none (hlower : ∀ s, P.toLowerCase (P.toLowerCase s) = P.toLowerCase s)
    {x : ClientState B S} {encryptedMsg : Json S} {sender : S}
    (h : findSender P x encryptedMsg = .ok (sender, none)) :
    P.toLowerCase sender = sender ∧ ∀ r ∈ x.contacts, r.identity_pubkey_hex ≠ sender := by
  rw [findSender] at h
  split at h
  · cases h
  · split at h
    · split at h
      · cases h
      · next key hkey =>
          simp only [Except.ok.injEq, Prod.mk.injEq] at h
          obtain ⟨rfl, hcontact⟩ := h
          refine ⟨hlower key, ?_⟩
          intro r hr hidentity
          have hnone := List.find?_eq_none.1 (Option.map_eq_none_iff.1 hcontact) r hr
          rw [decide_eq_true_eq, hlower] at hnone
          exact hnone hidentity
    · split at h
      · cases h
      · cases h

/-- After the sender is kept, its contact is a row of the sender. -/
theorem sender_row (hlower : ∀ s, P.toLowerCase (P.toLowerCase s) = P.toLowerCase s)
    {x : ClientState B S} (hx : LowerCased P x) {encryptedMsg : Json S} {sender : S}
    {found : Option (ContactRecord S)} (h : findSender P x encryptedMsg = .ok (sender, found))
    (contactAlias : String) :
    ∃ c ∈ (keepSender P E x contactAlias sender found).2.contacts,
      c.identity_pubkey_hex = sender ∧
      c.recipient_pubkey_hash =
        P.toLowerCase (keepSender P E x contactAlias sender found).1.recipientPubkeyHash := by
  cases found with
  | some c =>
      obtain ⟨row, hrow, rfl, hidentity⟩ := findSender_some hlower hx h
      exact ⟨row, hrow, hidentity, (hx row hrow).1.symm⟩
  | none =>
      obtain ⟨hsender, hunknown⟩ := findSender_none hlower h
      obtain ⟨c, hc, hrow⟩ := exists_row_saveContact (P := P) x.drawn
        (newPlaceholder P E x sender contactAlias)
      exact ⟨c, hc, (congrArg ContactRow.identity_pubkey_hex hrow).trans hsender,
        congrArg ContactRow.recipient_pubkey_hash hrow⟩

/-! ## The rows of a received message -/

omit [DecidableEq S] in
theorem bindIncoming_isOutgoing {v : Incoming S} {sender recipient : S} {timestamp : Nat}
    {message : StoredMessage S}
    (h : bindIncoming L v sender recipient timestamp = .ok message) :
    message.isOutgoing = v.isSync := by
  rw [bindIncoming] at h
  split at h
  · cases h
    rfl
  · cases h

theorem syncVariables_isSync {plaintext : S} (hsync : (syncPayload P L plaintext).isSome)
    (v : Incoming S) : (syncVariables P L plaintext v).isSync = true := by
  rw [syncVariables]
  split
  · next hnone =>
      rw [hnone] at hsync
      cases hsync
  · rfl

/-- A self-sync inserts an outgoing row, or no row. -/
theorem Opens.messages_selfSync {x : ClientState B S} {payload : IncomingMessagePayload S}
    {sender plaintext : S} {found : Option (ContactRecord S)} {h : Host B S}
    (hopens : Opens P L U E x payload sender found plaintext h)
    (hsync : (syncPayload P L plaintext).isSome) :
    let y := ((handleIncomingMessage P L U payload).run P E N x).2
    (∃ row, y.messages = x.messages ++ [row] ∧ row.is_outgoing = true) ∨
      y.messages.length = x.messages.length := by
  dsimp only
  rw [run_handleIncomingMessage, hopens.run_receiveMessage]
  dsimp only
  generalize hbound : bindIncoming L _ _ _ _ = bound
  cases bound with
  | error e =>
      right
      simp [storeBound]
  | ok message =>
      have hout := (bindIncoming_isOutgoing hbound).trans (syncVariables_isSync hsync _)
      rcases messages_saveMessage_cases (P := P) (timed payload (syncState P L E plaintext
          (openedState P E x "Unknown Contact" sender found h).drawn)) message with hrow | hlength
      · left
        refine ⟨messageRow P message, ?_, hout⟩
        simpa [storeBound] using hrow
      · right
        simpa [storeBound] using hlength

/-- A self-sync is in no case what an ordinary message is. -/
theorem Opens.not_ownConversation {x : ClientState B S} {payload : IncomingMessagePayload S}
    {sender plaintext : S} {found : Option (ContactRecord S)} {h : Host B S}
    (hopens : Opens P L U E x payload sender found plaintext h)
    (hsync : (syncPayload P L plaintext).isSome) :
    ¬ OwnConversation sender plaintext x ((handleIncomingMessage P L U payload).run P E N x).2 := by
  intro hown
  obtain ⟨row, hrow, -, hincoming, -⟩ := hown.inserted
  rcases hopens.messages_selfSync (N := N) hsync with ⟨row', hrow', houtgoing⟩ | hlength
  · have hsame := List.append_cancel_left (hrow.symm.trans hrow')
    simp only [List.cons.injEq, and_true] at hsame
    rw [hsame, houtgoing] at hincoming
    cases hincoming
  · rw [hrow] at hlength
    simp at hlength

/-! ## Messages in the sender's own conversation -/

/-- The placeholder for a sender whose key is no contact's hash is a new row. -/
theorem contacts_keepSender_none {x : ClientState B S} {sender : S}
    (hsender : P.toLowerCase sender = sender)
    (hfree : ∀ c ∈ x.contacts, c.recipient_pubkey_hash ≠ sender) (contactAlias : String) :
    (keepSender P E x contactAlias sender none).2.contacts =
      x.contacts ++ [contactRow P (newPlaceholder P E x sender contactAlias)] := by
  apply upsertBy_of_new
  intro r hr hhash
  exact hfree r hr (hhash.trans hsender)

/-- For every reachable database and every envelope that is resolved and decrypted: the message is
inserted in the sender's own conversation, with nothing else changed, if and only if its plaintext
is no self-sync, the drawn id is new, and a placeholder made for the sender takes no row. -/
theorem incoming_in_own_conversation_iff
    (hlower : ∀ s, P.toLowerCase (P.toLowerCase s) = P.toLowerCase s) {x : ClientState B S}
    (hx : ClientState.Reachable P L U E N x) {payload : IncomingMessagePayload S}
    {sender plaintext : S} {found : Option (ContactRecord S)} {h : Host B S}
    (hopens : Opens P L U E x payload sender found plaintext h) :
    OwnConversation sender plaintext x ((handleIncomingMessage P L U payload).run P E N x).2 ↔
      syncPayload P L plaintext = none ∧
      (∀ r ∈ x.messages, r.id ≠ P.bytesToHex (E.randomBytes h.draws 16)) ∧
      (found = none → ∀ c ∈ x.contacts, c.recipient_pubkey_hash ≠ sender) := by
  obtain ⟨encryptedMsg, hjson, hfind, hdecrypt⟩ := hopens.decrypted
  constructor
  · intro hown
    have hplain : syncPayload P L plaintext = none := by
      by_contra hsync
      exact hopens.not_ownConversation (Option.isSome_iff_ne_none.2 hsync) hown
    obtain ⟨row, hrow, -⟩ := hown.inserted
    rw [run_handleIncomingMessage, hopens.run_receiveMessage_ordinary hplain] at hown hrow
    refine ⟨hplain, ?_, ?_⟩
    · intro r hr hid
      have hlength := congrArg List.length hrow
      dsimp only at hlength
      rw [length_saveMessage_of_old ⟨r, by simpa using hr, hid⟩] at hlength
      simp at hlength
    · rintro rfl c hc hhash
      obtain ⟨hsender, hunknown⟩ := findSender_none hlower hfind
      -- The row is the placeholder's now, and it was another contact's.
      have hkept := (hown.others c (hunknown c hc)).1 hc
      dsimp only at hkept
      rw [contacts_saveMessage, contacts_timed, contacts_drawn, contacts_openedState] at hkept
      rcases mem_upsertBy hkept with heq | ⟨-, hne⟩ | ⟨old, -, -, heq⟩
      · apply hunknown c hc
        rw [heq]
        exact hsender
      · exact hne (hhash.trans hsender.symm)
      · apply hunknown c hc
        rw [heq]
        exact hsender
  · rintro ⟨hplain, hfresh, hfree⟩
    rw [run_handleIncomingMessage, hopens.run_receiveMessage_ordinary hplain]
    obtain ⟨c, hc, hidentity, hhash⟩ :=
      sender_row (E := E) hlower (hx.lowerCased hlower) hfind "Unknown Contact"
    dsimp only
    rw [saveMessage_of_new]
    · refine ⟨⟨messageRow P (ordinaryMessage P E
        (openedState P E x "Unknown Contact" sender found h).drawn payload
        (keepSender P E x "Unknown Contact" sender found).1 sender plaintext
        (E.randomBytes h.draws 16)), ?_, rfl, rfl, c, ?_, hidentity, hhash.symm⟩, ?_⟩
      · simp only [messages_timed, messages_drawn, messages_openedState]
      · simpa using hc
      · intro c' hother
        simp only [contacts_timed, contacts_drawn, contacts_openedState]
        cases found with
        | some _ => exact Iff.rfl
        | none =>
            obtain ⟨hsender, -⟩ := findSender_none hlower hfind
            rw [contacts_keepSender_none hsender (hfree rfl), List.mem_append]
            constructor
            · exact Or.inl
            · rintro (hmem | hnew)
              · exact hmem
              · obtain rfl := List.mem_singleton.1 hnew
                exact absurd hsender hother
    · intro r hr
      exact hfresh r (by simpa using hr)
    · exact ⟨c, by simpa using hc, hhash⟩

section

open TorE2EE.Crypto.Sym

/-- `bob`, whose bundle `alice` has, receives the first message of `alice`, whom he does not know. -/
theorem incoming_in_own_conversation_symbolic :
    OwnConversation (hex (pub (name 0))) (text "hello") symbolicBob
      ((handleIncomingMessage symbolicClient symbolicLibrary symbolicUntyped
        (symbolicIncoming (text "hello"))).run symbolicClient symbolicEntropy symbolicNetwork
          symbolicBob).2 := by
  obtain ⟨h, hopens⟩ := symbolicIncoming_opens (text "hello")
  refine (incoming_in_own_conversation_iff (fun _ => rfl) symbolicBob_reachable hopens).2
    ⟨rfl, ?_, ?_⟩
  · intro r hr
    cases hr
  · intro _ c hc
    cases hc

/-- `alice`, who is no device of `bob`, puts a message into a conversation of her choice. -/
theorem stranger_makes_selfSync :
    ¬ ∀ (x : ClientState Sym Sym) (payload : IncomingMessagePayload Sym) (sender plaintext : Sym)
      (found : Option (ContactRecord Sym)) (h : Host Sym Sym),
      x.Reachable symbolicClient symbolicLibrary symbolicUntyped symbolicEntropy symbolicNetwork →
      (∀ d ∈ x.ownLinkedDevices, d.identityPubkeyHex ≠ sender) →
      Opens symbolicClient symbolicLibrary symbolicUntyped symbolicEntropy x payload sender found
        plaintext h →
      OwnConversation sender plaintext x
        ((handleIncomingMessage symbolicClient symbolicLibrary symbolicUntyped payload).run
          symbolicClient symbolicEntropy symbolicNetwork x).2 := by
  intro hown
  obtain ⟨h, hopens⟩ := symbolicIncoming_opens symbolicForgery
  refine hopens.not_ownConversation rfl
    (hown _ _ _ _ _ _ symbolicBob_reachable ?_ hopens)
  intro d hd
  cases hd

end

end TorE2EE.Client
