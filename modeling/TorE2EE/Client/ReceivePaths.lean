import TorE2EE.Client.SelfSync

/-!
# Foreground and background

`handleIncomingMessage` and `processIncomingEnvelope` receive one envelope in one state, with the
same draws. They agree when the envelope opens with no self-sync (`receive_paths_agree`): the
background has no branch for one and stores its JSON as an ordinary message.
-/

set_option autoImplicit false

namespace TorE2EE.Client

open TorE2EE.Foundation TorE2EE.Crypto

variable {B S : Type} [DecidableEq S]

/-! ## Agreement -/

/-- Equal rows, except for the alias of a placeholder. -/
def SameButAlias (P : Primitives B S) (r r' : ContactRow S) : Prop :=
  r = r' ∨ r.contactAlias = some (P.lit "Unknown Contact") ∧
    r' = { r with contactAlias := some (P.lit "Neznámý kontakt") }

/-- What a message row says, besides its id, its time and its recipient. -/
def MessageRow.content (r : MessageRow S) : S × S × Bool × Bool × S × DeliveryStatus :=
  (r.contact_pubkey_hash, r.body, r.is_outgoing, r.is_read, r.sender_identity_hex,
    r.delivery_status)

/-- The same contacts up to the alias of a placeholder, the same Signal store, and messages that say
the same. -/
structure Agree (P : Primitives B S) (x y : ClientState B S) : Prop where
  contacts : List.Forall₂ (SameButAlias P) x.contacts y.contacts
  store : x.host.store = y.host.store
  messages : x.messages.map MessageRow.content = y.messages.map MessageRow.content

variable (P : Primitives B S) (L : ClientLibrary B S) (U : UntypedCalls B S) (E : Entropy B) in
/-- The envelope opens with a self-sync, which leaves the draws as `h` says. -/
def OpensSelfSync (x : ClientState B S) (payload : IncomingMessagePayload S) (h : Host B S) : Prop :=
  ∃ sender found plaintext, Opens P L U E x payload sender found plaintext h ∧
    (syncPayload P L plaintext).isSome

/-- Two states that differ in the aliases of placeholders alone. -/
structure Alike (P : Primitives B S) (x y : ClientState B S) : Prop where
  contacts : List.Forall₂ (SameButAlias P) x.contacts y.contacts
  host : x.host = y.host
  messages : x.messages = y.messages

variable {P : Primitives B S} {L : ClientLibrary B S} {U : UntypedCalls B S} {E : Entropy B}
  {N : Network}

omit [DecidableEq S] in
theorem Alike.agree {x y : ClientState B S} (h : Alike P x y) : Agree P x y :=
  ⟨h.contacts, congrArg Host.store h.host, congrArg _ h.messages⟩

omit [DecidableEq S] in
theorem SameButAlias.hash_eq {r r' : ContactRow S} (h : SameButAlias P r r') :
    r.recipient_pubkey_hash = r'.recipient_pubkey_hash := by
  rcases h with rfl | ⟨-, rfl⟩
  · rfl
  · rfl

omit [DecidableEq S] in
theorem Alike.refl (x : ClientState B S) : Alike P x x where
  contacts := List.forall₂_same.2 fun _ _ => Or.inl rfl
  host := rfl
  messages := rfl

omit [DecidableEq S] in
theorem Alike.drawn {x y : ClientState B S} (h : Alike P x y) : Alike P x.drawn y.drawn where
  contacts := h.contacts
  host := by rw [ClientState.drawn, ClientState.drawn, h.host]
  messages := h.messages

omit [DecidableEq S] in
theorem Alike.timed {x y : ClientState B S} (h : Alike P x y) (payload : IncomingMessagePayload S) :
    Alike P (timed payload x) (timed payload y) := by
  unfold Client.timed
  split
  · exact h.drawn
  · exact h

/-- Two placeholders for one sender are saved alike. -/
theorem alike_saveContact (x : ClientState B S) (key : S) (createdAt : Nat) :
    Alike P (x.saveContact P (placeholderContact P key "Unknown Contact" createdAt))
      (x.saveContact P (placeholderContact P key "Neznámý kontakt" createdAt)) where
  contacts := by
    apply forall₂_upsertBy
    · intro r r' h
      exact h.hash_eq
    · exact (Alike.refl x).contacts
    · exact Or.inr ⟨rfl, rfl⟩
    · intro r r' h _
      rcases h with rfl | ⟨-, rfl⟩
      · exact Or.inr ⟨rfl, rfl⟩
      · exact Or.inr ⟨rfl, rfl⟩
  host := rfl
  messages := rfl

/-- The sender is kept alike. -/
theorem alike_keepSender (x : ClientState B S) (sender : S) (found : Option (ContactRecord S)) :
    Alike P (keepSender P E x "Unknown Contact" sender found).2
      (keepSender P E x "Neznámý kontakt" sender found).2 := by
  cases found with
  | some c => exact Alike.refl x
  | none => exact alike_saveContact x.drawn sender _

theorem alike_openedState (x : ClientState B S) (sender : S) (found : Option (ContactRecord S))
    (h : Host B S) :
    Alike P (openedState P E x "Unknown Contact" sender found h)
      (openedState P E x "Neznámý kontakt" sender found h) where
  contacts := (alike_keepSender x sender found).contacts
  host := rfl
  messages := (alike_keepSender x sender found).messages

omit [DecidableEq S] in
theorem exists_hash_iff {rows rows' : List (ContactRow S)}
    (h : List.Forall₂ (SameButAlias P) rows rows') (hash : S) :
    (∃ c ∈ rows, c.recipient_pubkey_hash = hash) ↔
      ∃ c ∈ rows', c.recipient_pubkey_hash = hash := by
  induction h with
  | nil => simp
  | cons hr _ ih => simp only [List.exists_mem_cons_iff, ih, hr.hash_eq]

/-- One message is stored alike. -/
theorem Alike.saveMessage {x y : ClientState B S} (h : Alike P x y) (message : StoredMessage S) :
    Alike P (x.saveMessage P message).2 (y.saveMessage P message).2 := by
  unfold ClientState.saveMessage
  simp only [h.messages, exists_hash_iff h.contacts]
  split
  · exact ⟨h.contacts, h.host, rfl⟩
  · exact h

/-- Before the two paths part, an envelope that does not open fails alike. -/
theorem alike_openEnvelope_error (x : ClientState B S) (payload : IncomingMessagePayload S)
    (hclosed : ∀ sender found plaintext h, ¬ Opens P L U E x payload sender found plaintext h) :
    ∃ e e' y y',
      (openEnvelope P L U "Unknown Contact" .unresolvedSender payload).run P E N x = (.error e, y) ∧
      (openEnvelope P L U "Neznámý kontakt" .senderNotResolved payload).run P E N x =
        (.error e', y') ∧ Alike P y y' := by
  rw [run_openEnvelope, run_openEnvelope]
  cases hjson : L.parseJson payload.encrypted_payload with
  | none => exact ⟨_, _, _, _, rfl, rfl, Alike.refl x⟩
  | some encryptedMsg =>
      dsimp only
      cases hsender : findSender P x encryptedMsg with
      | error e => exact ⟨_, _, _, _, rfl, rfl, Alike.refl x⟩
      | ok r =>
          obtain ⟨sender, found⟩ := r
          dsimp only
          by_cases hempty : sender = P.lit ""
          · rw [if_pos hempty, if_pos hempty]
            exact ⟨_, _, _, _, rfl, rfl, alike_keepSender x sender found⟩
          · rw [if_neg hempty, if_neg hempty]
            rcases hrun : (decryptJson P U sender encryptedMsg).run P E (senderHost x found) with
              ⟨r, h⟩
            cases r with
            | ok plaintext =>
                exact absurd ⟨⟨encryptedMsg, hjson, hsender, hrun⟩, hempty⟩
                  (hclosed sender found plaintext h)
            | error e => exact ⟨_, _, _, _, rfl, rfl, alike_openedState x sender found h⟩

/-- Without a self-sync both paths leave like states. -/
theorem alike_of_no_selfSync (x : ClientState B S) (payload : IncomingMessagePayload S)
    (hordinary : ∀ h, ¬ OpensSelfSync P L U E x payload h) :
    Alike P ((handleIncomingMessage P L U payload).run P E N x).2
      ((processIncomingEnvelope P L U payload).run P E N x).2 := by
  rw [run_handleIncomingMessage]
  by_cases hopens : ∃ sender found plaintext h, Opens P L U E x payload sender found plaintext h
  · obtain ⟨sender, found, plaintext, h, hopens⟩ := hopens
    have hplain : syncPayload P L plaintext = none := by
      cases hsync : syncPayload P L plaintext with
      | none => rfl
      | some v => exact absurd ⟨sender, found, plaintext, hopens, by simp [hsync]⟩ (hordinary h)
    rw [hopens.run_receiveMessage_ordinary hplain, hopens.run_processIncomingEnvelope]
    have hstate := (alike_openedState (P := P) (E := E) x sender found h).drawn
    -- The stored message depends on the alias through neither the contact nor the state.
    have hmessage : ordinaryMessage P E (openedState P E x "Unknown Contact" sender found h).drawn
          payload (keepSender P E x "Unknown Contact" sender found).1 sender plaintext
          (E.randomBytes h.draws 16) =
        ordinaryMessage P E (openedState P E x "Neznámý kontakt" sender found h).drawn payload
          (keepSender P E x "Neznámý kontakt" sender found).1 sender plaintext
          (E.randomBytes h.draws 16) := by
      cases found <;> rfl
    dsimp only
    rw [hmessage]
    exact (hstate.timed payload).saveMessage _
  · have hclosed : ∀ sender found plaintext h,
        ¬ Opens P L U E x payload sender found plaintext h :=
      fun sender found plaintext h ho => hopens ⟨sender, found, plaintext, h, ho⟩
    obtain ⟨e, e', y, y', hfore, hback, hlike⟩ :=
      alike_openEnvelope_error (N := N) x payload hclosed
    have hreceive : (receiveMessage P L U payload).run P E N x = (.error e, y) :=
      Program.run_bind_of_error _ hfore _
    have hprocess : (processIncomingEnvelope P L U payload).run P E N x = (.error e', y') :=
      Program.run_bind_of_error _ hback _
    rw [hreceive, hprocess]
    exact hlike

/-! ## Disagreement -/

/-- The background inserts every decrypted plaintext as an incoming message. -/
theorem Opens.messages_processIncomingEnvelope
    (hlower : ∀ s, P.toLowerCase (P.toLowerCase s) = P.toLowerCase s) {x : ClientState B S}
    (hx : LowerCased P x) {payload : IncomingMessagePayload S} {sender plaintext : S}
    {found : Option (ContactRecord S)} {h : Host B S}
    (hopens : Opens P L U E x payload sender found plaintext h)
    (hnew : ∀ r ∈ x.messages, r.id ≠ P.bytesToHex (E.randomBytes h.draws 16)) :
    ∃ row, ((processIncomingEnvelope P L U payload).run P E N x).2.messages = x.messages ++ [row] ∧
      row.is_outgoing = false := by
  obtain ⟨encryptedMsg, -, hfind, -⟩ := hopens.decrypted
  obtain ⟨c, hc, -, hhash⟩ := sender_row (E := E) hlower hx hfind "Neznámý kontakt"
  rw [hopens.run_processIncomingEnvelope]
  dsimp only
  rw [saveMessage_of_new]
  · refine ⟨messageRow P (ordinaryMessage P E
      (openedState P E x "Neznámý kontakt" sender found h).drawn payload
      (keepSender P E x "Neznámý kontakt" sender found).1 sender plaintext
      (E.randomBytes h.draws 16)), ?_, rfl⟩
    simp only [messages_timed, messages_drawn, messages_openedState]
  · intro r hr
    exact hnew r (by simpa using hr)
  · exact ⟨c, by simpa using hc, hhash⟩

/-- The two receive paths agree in every state in which the envelope does not open with a self-sync.
In a reachable database they disagree on every envelope that does, when the drawn id is new. -/
theorem receive_paths_agree (hlower : ∀ s, P.toLowerCase (P.toLowerCase s) = P.toLowerCase s)
    (x : ClientState B S) (payload : IncomingMessagePayload S) :
    ((∀ h, ¬ OpensSelfSync P L U E x payload h) →
        Agree P ((handleIncomingMessage P L U payload).run P E N x).2
          ((processIncomingEnvelope P L U payload).run P E N x).2) ∧
      ∀ h, OpensSelfSync P L U E x payload h → ClientState.Reachable P L U E N x →
        (∀ r ∈ x.messages, r.id ≠ P.bytesToHex (E.randomBytes h.draws 16)) →
        ¬ Agree P ((handleIncomingMessage P L U payload).run P E N x).2
          ((processIncomingEnvelope P L U payload).run P E N x).2 := by
  constructor
  · intro hordinary
    exact (alike_of_no_selfSync x payload hordinary).agree
  · rintro h ⟨sender, found, plaintext, hopens, hsync⟩ hx hnew hagree
    obtain ⟨row, hrow, hincoming⟩ :=
      hopens.messages_processIncomingEnvelope (N := N) hlower (hx.lowerCased hlower) hnew
    have hmessages := hagree.messages
    rw [hrow] at hmessages
    rcases hopens.messages_selfSync (N := N) hsync with ⟨row', hrow', houtgoing⟩ | hlength
    · rw [hrow', List.map_append, List.map_append] at hmessages
      have hsame := List.append_cancel_left hmessages
      simp only [List.map_cons, List.map_nil, List.cons.injEq, and_true, MessageRow.content,
        Prod.mk.injEq] at hsame
      rw [hsame.2.2.1, hincoming] at houtgoing
      cases houtgoing
    · have hcount := congrArg List.length hmessages
      rw [List.length_map, hlength] at hcount
      simp at hcount

section

open TorE2EE.Crypto.Sym

/-- The envelope with the forged self-sync opens as one. -/
theorem symbolicForgery_opensSelfSync :
    ∃ h, OpensSelfSync symbolicClient symbolicLibrary symbolicUntyped symbolicEntropy symbolicBob
      (symbolicIncoming symbolicForgery) h := by
  obtain ⟨h, hopens⟩ := symbolicIncoming_opens symbolicForgery
  exact ⟨h, _, _, _, hopens, rfl⟩

/-- The two paths agree on a greeting and disagree on the forgery. -/
theorem receive_paths_agree_symbolic :
    Agree symbolicClient
        ((handleIncomingMessage symbolicClient symbolicLibrary symbolicUntyped
          (symbolicIncoming (text "hello"))).run symbolicClient symbolicEntropy symbolicNetwork
            symbolicBob).2
        ((processIncomingEnvelope symbolicClient symbolicLibrary symbolicUntyped
          (symbolicIncoming (text "hello"))).run symbolicClient symbolicEntropy symbolicNetwork
            symbolicBob).2 ∧
      ¬ Agree symbolicClient
        ((handleIncomingMessage symbolicClient symbolicLibrary symbolicUntyped
          (symbolicIncoming symbolicForgery)).run symbolicClient symbolicEntropy symbolicNetwork
            symbolicBob).2
        ((processIncomingEnvelope symbolicClient symbolicLibrary symbolicUntyped
          (symbolicIncoming symbolicForgery)).run symbolicClient symbolicEntropy symbolicNetwork
            symbolicBob).2 := by
  constructor
  · apply (receive_paths_agree (fun _ => rfl) symbolicBob _).1
    rintro h ⟨sender, found, plaintext, hopens, hsync⟩
    obtain ⟨h', hopens'⟩ := symbolicIncoming_opens (text "hello")
    cases hopens'.plaintext_eq hopens
    cases hsync
  · obtain ⟨h, hopens⟩ := symbolicForgery_opensSelfSync
    refine (receive_paths_agree (fun _ => rfl) symbolicBob _).2 h hopens symbolicBob_reachable ?_
    intro r hr
    cases hr

/-- The background stores a self-sync as an incoming message of its text. -/
theorem background_misses_selfSync :
    ¬ ∀ (x : ClientState Sym Sym) (payload : IncomingMessagePayload Sym),
      Agree symbolicClient
        ((handleIncomingMessage symbolicClient symbolicLibrary symbolicUntyped payload).run
          symbolicClient symbolicEntropy symbolicNetwork x).2
        ((processIncomingEnvelope symbolicClient symbolicLibrary symbolicUntyped payload).run
          symbolicClient symbolicEntropy symbolicNetwork x).2 := by
  intro hagree
  have hmessages := (hagree symbolicBob (symbolicIncoming symbolicForgery)).messages
  revert hmessages
  decide

end

end TorE2EE.Client
