import TorE2EE.Client.SelfSync
import TorE2EE.Client.Sending

/-!
# Rejected envelopes

`handleIncomingMessage` returns `null` when anything in it throws. No message is stored then, but a
contact may have been: the placeholder of an unknown sender is saved before the message is decrypted,
and the one of an unknown conversation before the synced message is bound.
`rejected_leaves_no_trace_iff` says for which envelopes neither can happen.
-/

set_option autoImplicit false

namespace TorE2EE.Client

open TorE2EE.Foundation TorE2EE.Crypto

variable {B S : Type} [DecidableEq S]
variable (P : Primitives B S) (L : ClientLibrary B S) (U : UntypedCalls B S) (E : Entropy B)

/-- The conversation tables are as they were. -/
def NoTrace (x y : ClientState B S) : Prop := y.contacts = x.contacts ∧ y.messages = x.messages

/-- A sync payload whose conversation, body and id the database takes. -/
structure StorableSync (parsedSync : Json S) : Prop where
  target : (Json.string? (property P "originalRecipientHash" parsedSync)).isSome
  body : (bindText L (property P "body" parsedSync)).isSome
  id : ∀ messageId, property P "messageId" parsedSync = some messageId →
    Json.truthy (P.lit "") (some messageId) → (bindText L (some messageId)).isSome

/-- The plaintext is no self-sync, or one that can be stored. -/
def Storable (plaintext : S) : Prop :=
  ∀ parsedSync, syncPayload P L plaintext = some parsedSync → StorableSync P L parsedSync

/-- A contact is saved on the way to a stored message only: the envelope of a sender without a
contact opens with what can be stored, and so does a self-sync for an unknown conversation. -/
structure SavesForStored (x : ClientState B S) (payload : IncomingMessagePayload S) : Prop where
  unknownSender : ∀ encryptedMsg sender, L.parseJson payload.encrypted_payload = some encryptedMsg →
    findSender P x encryptedMsg = .ok (sender, none) →
    ∃ plaintext h, Opens P L U E x payload sender none plaintext h ∧ Storable P L plaintext
  unknownTarget : ∀ sender c plaintext h, Opens P L U E x payload sender (some c) plaintext h →
    ∀ parsedSync target, syncPayload P L plaintext = some parsedSync →
      Json.string? (property P "originalRecipientHash" parsedSync) = some target →
      x.getContactByHash P target = none → StorableSync P L parsedSync

variable {P L U E} {N : Network}

/-! ## Binding -/

omit [DecidableEq S] in
theorem bindIncoming_ok_iff {v : Incoming S} {sender recipient : S} {timestamp : Nat} :
    (∃ message, bindIncoming L v sender recipient timestamp = .ok message) ↔
      (Json.string? v.targetContactHash).isSome ∧ (bindText L (some v.messageId)).isSome ∧
        (bindText L v.messageBody).isSome := by
  rw [bindIncoming]
  cases Json.string? v.targetContactHash <;> cases bindText L (some v.messageId) <;>
    cases bindText L v.messageBody <;> simp [pure, Except.pure, throw, throwThe, MonadExceptOf.throw]

/-- The variables of a received plaintext can be bound when it is storable. -/
theorem bindIncoming_syncVariables_iff {plaintext : S} (sender recipient : S) (timestamp : Nat)
    (contact : ContactRecord S) (messageId : B) :
    (∃ message, bindIncoming L
        (syncVariables P L plaintext (ordinary P contact plaintext messageId)) sender recipient
        timestamp = .ok message) ↔ Storable P L plaintext := by
  rw [bindIncoming_ok_iff]
  rw [Storable, syncVariables]
  cases hsync : syncPayload P L plaintext with
  | none => simp [ordinary, Json.string?, bindText]
  | some parsedSync =>
    simp only [Option.some.injEq, forall_eq']
    constructor
    · rintro ⟨htarget, hid, hbody⟩
      refine ⟨htarget, hbody, ?_⟩
      intro id hproperty htruthy
      simpa [applySync, hproperty, htruthy] using hid
    · rintro ⟨htarget, hbody, hid⟩
      refine ⟨htarget, ?_, hbody⟩
      -- Without an id of its own the payload gets the drawn one, which is a string.
      cases hproperty : property P "messageId" parsedSync with
      | none => simp [applySync, hproperty, ordinary, bindText]
      | some id =>
        by_cases htruthy : Json.truthy (P.lit "") (some id) = true
        · simpa [applySync, hproperty, htruthy] using hid id hproperty htruthy
        · simp [applySync, hproperty, htruthy, ordinary, bindText]

/-! ## What the call returns -/

theorem handleIncomingMessage_null_iff {x : ClientState B S} {payload : IncomingMessagePayload S} :
    ((handleIncomingMessage P L U payload).run P E N x).1 = .ok none ↔
      ∃ e, ((receiveMessage P L U payload).run P E N x).1 = .error e := by
  rw [run_handleIncomingMessage_fst]
  cases ((receiveMessage P L U payload).run P E N x).1 <;> simp [Except.toOption]

theorem messages_storeBound_of_error {x : ClientState B S}
    {bound : Except (ClientError S) (StoredMessage S)} {e : ClientError S}
    (h : (storeBound P x bound).1 = .error e) : (storeBound P x bound).2 = x := by
  cases bound with
  | error e => rfl
  | ok message =>
    rw [storeBound, ClientState.saveMessage] at h ⊢
    dsimp only at h ⊢
    split at h
    · cases h
    · next hrefused => rw [if_neg hrefused]

omit [DecidableEq S] in
theorem bindIncoming_contact {v : Incoming S} {sender recipient : S} {timestamp : Nat}
    {message : StoredMessage S} (h : bindIncoming L v sender recipient timestamp = .ok message) :
    Json.string? v.targetContactHash = some message.contactPubkeyHash := by
  rw [bindIncoming] at h
  split at h
  · next htarget _ _ =>
    cases h
    exact htarget
  · cases h

/-- An opened envelope is stored when its plaintext is storable and the contact is sure to have a
row: it has just been made, or the message is a self-sync. -/
theorem Opens.receiveMessage_ok {x : ClientState B S} {payload : IncomingMessagePayload S}
    {sender plaintext : S} {found : Option (ContactRecord S)} {h : Host B S}
    (hopens : Opens P L U E x payload sender found plaintext h) (hstorable : Storable P L plaintext)
    (hcontact : found = none ∨ (syncPayload P L plaintext).isSome) :
    ∃ message, ((receiveMessage P L U payload).run P E N x).1 = .ok message := by
  rw [hopens.run_receiveMessage]
  dsimp only
  generalize hy : (openedState P E x "Unknown Contact" sender found h).drawn = y
  obtain ⟨message, hbound⟩ := (bindIncoming_syncVariables_iff (L := L) sender
    (syncState P L E plaintext y).host.store.identity.encryptionKey.publicKeyHex
    (timeOf E payload (syncState P L E plaintext y))
    (keepSender P E x "Unknown Contact" sender found).1 (E.randomBytes h.draws 16)).2 hstorable
  refine ⟨message, ?_⟩
  have htarget := bindIncoming_contact hbound
  -- the insert finds the row the message refers to
  have hrow : ∃ c ∈ (timed payload (syncState P L E plaintext y)).contacts,
      c.recipient_pubkey_hash = P.toLowerCase message.contactPubkeyHash := by
    rw [contacts_timed]
    cases hsync : syncPayload P L plaintext with
    | some parsedSync =>
      simp only [syncVariables, hsync] at htarget
      exact syncState_has_target hsync htarget y
    | none =>
      obtain rfl : found = none := by simpa [hsync] using hcontact
      simp only [syncVariables, hsync, ordinary, Json.string?, Option.some.injEq] at htarget
      simp only [syncState, hsync, Option.bind_none, ← hy, ← htarget]
      exact exists_mem_upsertBy fun _ _ => rfl
  rw [hbound, storeBound, saveMessage_of_contact hrow]
  rfl

/-- An opened envelope is refused when its plaintext is not storable. -/
theorem Opens.receiveMessage_error {x : ClientState B S} {payload : IncomingMessagePayload S}
    {sender plaintext : S} {found : Option (ContactRecord S)} {h : Host B S}
    (hopens : Opens P L U E x payload sender found plaintext h)
    (hstorable : ¬ Storable P L plaintext) :
    ∃ e, ((receiveMessage P L U payload).run P E N x).1 = .error e := by
  rw [hopens.run_receiveMessage]
  dsimp only
  generalize hbound : bindIncoming L _ _ _ _ = bound
  cases bound with
  | error e => exact ⟨e, rfl⟩
  | ok message =>
      exact absurd ((bindIncoming_syncVariables_iff _ _ _ _ _).1 ⟨message, hbound⟩) hstorable

/-! ## The tables -/

/-- What a refused envelope leaves: the contacts of the inner `try` block, and the messages as they
were. -/
theorem Opens.tables_of_error {x : ClientState B S} {payload : IncomingMessagePayload S}
    {sender plaintext : S} {found : Option (ContactRecord S)} {h : Host B S}
    (hopens : Opens P L U E x payload sender found plaintext h) {e : ClientError S}
    (herror : ((receiveMessage P L U payload).run P E N x).1 = .error e) :
    ((receiveMessage P L U payload).run P E N x).2.contacts =
        (syncState P L E plaintext
          (openedState P E x "Unknown Contact" sender found h).drawn).contacts ∧
      ((receiveMessage P L U payload).run P E N x).2.messages = x.messages := by
  rw [hopens.run_receiveMessage] at herror ⊢
  dsimp only at herror ⊢
  rw [messages_storeBound_of_error herror]
  simp

/-- The inner `try` block keeps the contacts. -/
theorem mem_contacts_syncState {plaintext : S} {y : ClientState B S} {c : ContactRow S}
    (h : c ∈ y.contacts) : c ∈ (syncState P L E plaintext y).contacts := by
  rw [syncState]
  split
  · exact h
  · split
    · exact h
    · next hunknown =>
      apply mem_upsertBy_of_ne h
      have hnone := List.find?_eq_none.1 (Option.map_eq_none_iff.1 hunknown) c h
      exact of_decide_eq_false (Bool.eq_false_iff.2 hnone)

/-- A sender without a contact has no row. -/
theorem findSender_none_row {x : ClientState B S} {encryptedMsg : Json S} {sender : S}
    (h : findSender P x encryptedMsg = .ok (sender, none)) :
    ∀ r ∈ x.contacts, r.identity_pubkey_hex ≠ P.toLowerCase sender := by
  rw [findSender] at h
  split at h
  · cases h
  · split at h
    · split at h
      · cases h
      · simp only [Except.ok.injEq, Prod.mk.injEq] at h
        obtain ⟨rfl, hcontact⟩ := h
        intro r hr
        simpa using List.find?_eq_none.1 (Option.map_eq_none_iff.1 hcontact) r hr
    · split at h <;> cases h

/-- The placeholder of a sender has a row. -/
theorem keepSender_none_row (x : ClientState B S) (contactAlias : String) (sender : S) :
    ∃ c ∈ (keepSender P E x contactAlias sender none).2.contacts,
      c.identity_pubkey_hex = P.toLowerCase sender := by
  obtain ⟨c, hc, hrow⟩ := exists_row_saveContact (P := P) x.drawn
    (newPlaceholder P E x sender contactAlias)
  exact ⟨c, hc, congrArg ContactRow.identity_pubkey_hex hrow⟩

/-- An unknown sender leaves a contact, whatever becomes of its envelope. -/
theorem contacts_ne_of_unknownSender {x : ClientState B S} {payload : IncomingMessagePayload S}
    {encryptedMsg : Json S} {sender : S}
    (hjson : L.parseJson payload.encrypted_payload = some encryptedMsg)
    (hfind : findSender P x encryptedMsg = .ok (sender, none)) :
    ((handleIncomingMessage P L U payload).run P E N x).2.contacts ≠ x.contacts := by
  have hunknown := findSender_none_row hfind
  obtain ⟨c, hc, hidentity⟩ := keepSender_none_row (E := E) x "Unknown Contact" sender
  intro hsame
  refine hunknown c ?_ hidentity
  rw [← hsame, run_handleIncomingMessage]
  by_cases hopens : ∃ plaintext h, Opens P L U E x payload sender none plaintext h
  · obtain ⟨plaintext, h, hopens⟩ := hopens
    rw [hopens.run_receiveMessage]
    dsimp only
    unfold storeBound
    split
    · rw [contacts_timed]
      exact mem_contacts_syncState hc
    · rw [contacts_saveMessage, contacts_timed]
      exact mem_contacts_syncState hc
  · -- The envelope is not opened, and the placeholder is there.
    have hopen := run_openEnvelope (P := P) (L := L) (U := U) (E := E) (N := N) x "Unknown Contact"
      .unresolvedSender payload
    simp only [hjson, hfind] at hopen
    by_cases hempty : sender = P.lit ""
    · rw [if_pos hempty] at hopen
      rw [receiveMessage, ClientM.run, Program.run_bind_of_error _ hopen _]
      exact hc
    · rw [if_neg hempty] at hopen
      rcases hdecrypt : (decryptJson P U sender encryptedMsg).run P E (senderHost x none) with ⟨r, h⟩
      rw [hdecrypt] at hopen
      cases r with
      | ok plaintext =>
        exact absurd ⟨plaintext, h, ⟨encryptedMsg, hjson, hfind, hdecrypt⟩, hempty⟩ hopens
      | error e =>
        rw [receiveMessage, ClientM.run, Program.run_bind_of_error _ hopen _]
        exact hc

/-- An envelope that is not opened and whose sender has a contact, or is not found, changes
nothing in the tables. -/
theorem noTrace_of_not_opened {x : ClientState B S} {payload : IncomingMessagePayload S}
    (hknown : ∀ encryptedMsg sender, L.parseJson payload.encrypted_payload = some encryptedMsg →
      findSender P x encryptedMsg ≠ .ok (sender, none))
    (hclosed : ∀ sender c plaintext h, ¬ Opens P L U E x payload sender (some c) plaintext h) :
    NoTrace x ((handleIncomingMessage P L U payload).run P E N x).2 := by
  rw [run_handleIncomingMessage]
  have hopen := run_openEnvelope (P := P) (L := L) (U := U) (E := E) (N := N) x "Unknown Contact"
    .unresolvedSender payload
  split at hopen
  · rw [receiveMessage, ClientM.run, Program.run_bind_of_error _ hopen _]
    exact ⟨rfl, rfl⟩
  · next encryptedMsg hjson =>
    split at hopen
    · rw [receiveMessage, ClientM.run, Program.run_bind_of_error _ hopen _]
      exact ⟨rfl, rfl⟩
    · next sender found hfind =>
      -- only a sender without a contact would have had one made
      cases found with
      | none => exact absurd hfind (hknown encryptedMsg sender hjson)
      | some c =>
        by_cases hempty : sender = P.lit ""
        · rw [if_pos hempty] at hopen
          rw [receiveMessage, ClientM.run, Program.run_bind_of_error _ hopen _]
          exact ⟨rfl, rfl⟩
        · rw [if_neg hempty] at hopen
          rcases hdecrypt : (decryptJson P U sender encryptedMsg).run P E (senderHost x (some c))
            with ⟨r, h⟩
          rw [hdecrypt] at hopen
          cases r with
          | ok plaintext =>
            exact absurd ⟨⟨encryptedMsg, hjson, hfind, hdecrypt⟩, hempty⟩
              (hclosed sender c plaintext h)
          | error e =>
            rw [receiveMessage, ClientM.run, Program.run_bind_of_error _ hopen _]
            exact ⟨rfl, rfl⟩

/-- An envelope that is not opened is refused. -/
theorem receiveMessage_error_of_closed {x : ClientState B S} {payload : IncomingMessagePayload S}
    (hclosed : ∀ sender found plaintext h, ¬ Opens P L U E x payload sender found plaintext h) :
    ∃ e, ((receiveMessage P L U payload).run P E N x).1 = .error e := by
  rcases hrun : (openEnvelope P L U "Unknown Contact" .unresolvedSender payload).run P E N x with
    ⟨r, y⟩
  cases r with
  | error e =>
    refine ⟨e, ?_⟩
    rw [receiveMessage, ClientM.run, Program.run_bind_of_error _ hrun _]
  | ok r =>
    obtain ⟨found, h, hopens⟩ := opens_of_run (congrArg Prod.fst hrun)
    exact absurd hopens (hclosed _ _ _ _)

/-- The inner `try` block leaves no contact, unless the plaintext is a self-sync for an unknown
conversation. -/
theorem contacts_syncState_of_known {x : ClientState B S} {sender plaintext : S}
    {c : ContactRecord S} {h : Host B S}
    (htarget : ∀ parsedSync target, syncPayload P L plaintext = some parsedSync →
      Json.string? (property P "originalRecipientHash" parsedSync) = some target →
      x.getContactByHash P target ≠ none) :
    (syncState P L E plaintext
      (openedState P E x "Unknown Contact" sender (some c) h).drawn).contacts = x.contacts := by
  rw [syncState]
  cases hsync : syncPayload P L plaintext with
  | none => rfl
  | some parsedSync =>
    rw [Option.bind_some]
    cases hstring : Json.string? (property P "originalRecipientHash" parsedSync) with
    | none => rfl
    | some target =>
      have hknown : (openedState P E x "Unknown Contact" sender (some c) h).drawn.getContactByHash P
          target ≠ none := htarget parsedSync target hsync hstring
      dsimp only
      cases hcontact : (openedState P E x "Unknown Contact" sender (some c) h).drawn.getContactByHash
        P target with
      | none => exact absurd hcontact hknown
      | some _ => rfl

/-- A call that returns `null` leaves the contacts and the messages as they were, if and only if the
envelope is one for which contacts are saved on the way to a stored message only. -/
theorem rejected_leaves_no_trace_iff (x : ClientState B S) (payload : IncomingMessagePayload S) :
    (((handleIncomingMessage P L U payload).run P E N x).1 = .ok none →
        NoTrace x ((handleIncomingMessage P L U payload).run P E N x).2) ↔
      SavesForStored P L U E x payload := by
  constructor
  · intro hclean
    constructor
    · intro encryptedMsg sender hjson hfind
      by_contra hnot
      have herror : ∃ e, ((receiveMessage P L U payload).run P E N x).1 = .error e := by
        by_cases hopens : ∃ sender found plaintext h,
            Opens P L U E x payload sender found plaintext h
        · obtain ⟨sender', found, plaintext, h, hopens⟩ := hopens
          obtain ⟨encryptedMsg', hjson', hfind', -⟩ := hopens.decrypted
          cases hjson.symm.trans hjson'
          cases hfind.symm.trans hfind'
          exact hopens.receiveMessage_error fun hstorable => hnot ⟨plaintext, h, hopens, hstorable⟩
        · exact receiveMessage_error_of_closed fun sender found plaintext h ho =>
            hopens ⟨sender, found, plaintext, h, ho⟩
      exact contacts_ne_of_unknownSender hjson hfind
        (hclean (handleIncomingMessage_null_iff.2 herror)).1
    · intro sender c plaintext h hopens parsedSync target hsync htarget hunknown
      by_contra hnot
      obtain ⟨e, herror⟩ := hopens.receiveMessage_error (N := N)
        fun hstorable => hnot (hstorable parsedSync hsync)
      have hsame := (hclean (handleIncomingMessage_null_iff.2 ⟨e, herror⟩)).1
      rw [run_handleIncomingMessage, (hopens.tables_of_error herror).1] at hsame
      -- The conversation has a contact now, and it had none.
      obtain ⟨row, hrow, hhash⟩ := syncState_has_target (E := E) hsync htarget
        (openedState P E x "Unknown Contact" sender (some c) h).drawn
      rw [hsame] at hrow
      have hnone := List.find?_eq_none.1 (Option.map_eq_none_iff.1 hunknown) row hrow
      exact hnone (decide_eq_true hhash)
  · intro hsaves hnull
    obtain ⟨e, herror⟩ := handleIncomingMessage_null_iff.1 hnull
    by_cases hopens : ∃ sender c plaintext h, Opens P L U E x payload sender (some c) plaintext h
    · obtain ⟨sender, c, plaintext, h, hopens⟩ := hopens
      obtain ⟨hcontacts, hmessages⟩ := hopens.tables_of_error herror
      rw [run_handleIncomingMessage]
      refine ⟨hcontacts.trans (contacts_syncState_of_known ?_), hmessages⟩
      intro parsedSync target hsync htarget hunknown
      have hstorable : Storable P L plaintext := by
        intro parsedSync' hsync'
        cases hsync.symm.trans hsync'
        exact hsaves.unknownTarget sender c plaintext h hopens parsedSync target hsync htarget
          hunknown
      obtain ⟨message, hok⟩ := hopens.receiveMessage_ok (N := N) hstorable
        (Or.inr (Option.isSome_iff_exists.2 ⟨parsedSync, hsync⟩))
      rw [hok] at herror
      cases herror
    · apply noTrace_of_not_opened
      · intro encryptedMsg sender hjson hfind
        obtain ⟨plaintext, h, hopened, hstorable⟩ := hsaves.unknownSender encryptedMsg sender hjson hfind
        obtain ⟨message, hok⟩ := hopened.receiveMessage_ok (N := N) hstorable (Or.inl rfl)
        rw [hok] at herror
        cases herror
      · exact fun sender c plaintext h ho => hopens ⟨sender, c, plaintext, h, ho⟩

section

open TorE2EE.Crypto.Sym

/-- The envelope of a message in the name of `alice`, whom `bob` does not know, with a forged
ciphertext. -/
def symbolicForged : IncomingMessagePayload Sym :=
  { encrypted_payload :=
      symbolicLibrary.stringifyJson
        (messageJson symbolicClient { symbolicGreeting (text "hello") with ciphertext := text "forged" })
    created_at := 1 }

/-- The forged envelope is rejected, and `alice` is a contact from then on. -/
theorem forged_envelope_leaves_contact :
    ¬ ∀ (x : ClientState Sym Sym) (payload : IncomingMessagePayload Sym),
      ((handleIncomingMessage symbolicClient symbolicLibrary symbolicUntyped payload).run
        symbolicClient symbolicEntropy symbolicNetwork x).1 = .ok none →
      NoTrace x ((handleIncomingMessage symbolicClient symbolicLibrary symbolicUntyped payload).run
        symbolicClient symbolicEntropy symbolicNetwork x).2 := by
  intro hclean
  have hnull : ((handleIncomingMessage symbolicClient symbolicLibrary symbolicUntyped
      symbolicForged).run symbolicClient symbolicEntropy symbolicNetwork symbolicBob).1 = .ok none :=
    rfl
  have hcontacts := (hclean symbolicBob symbolicForged hnull).1
  have hsaved : ((handleIncomingMessage symbolicClient symbolicLibrary symbolicUntyped
      symbolicForged).run symbolicClient symbolicEntropy symbolicNetwork
        symbolicBob).2.contacts.length = 1 := by
    decide +kernel
  rw [hcontacts] at hsaved
  cases hsaved

end

end TorE2EE.Client
