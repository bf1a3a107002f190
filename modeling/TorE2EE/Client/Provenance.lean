import TorE2EE.Client.Receiving
import TorE2EE.Client.Runs
import TorE2EE.Crypto.Networks

/-!
# Where stored messages come from

The rows of `messages` against the messages a client has opened (its receipts). Every incoming row
has a receipt from its sender, and there are as many receipts from a sender as incoming rows at
least. The body of the row is the text of such a receipt, or a self-sync has written it, one that
names the id of the row (`Rewrites`): the id of an incoming row is drawn, so nothing else is saved
under it.

`Accounted` is this relation, for one client. An upsert of an outgoing message keeps it, and so does
one of the message that goes with a new receipt.
-/

set_option autoImplicit false

namespace TorE2EE.Client

open TorE2EE.Foundation TorE2EE.Crypto

variable {M B S : Type} [DecidableEq S]

/-- The text is a self-sync that names the id of the row and has its body. -/
def Rewrites (P : Primitives B S) (L : ClientLibrary B S) (text : S) (row : MessageRow S) : Prop :=
  ∃ parsedSync messageId, syncPayload P L text = some parsedSync ∧
    property P "messageId" parsedSync = some messageId ∧
    bindText L (some messageId) = some row.id ∧
    bindText L (property P "body" parsedSync) = some row.body

/-- An incoming message of a sender. -/
def MessageRow.isFrom (sender : S) (row : MessageRow S) : Bool :=
  decide (row.is_outgoing = false ∧ row.sender_identity_hex = sender)

/-- A receipt from a sender. -/
def isReceiptFrom (P : Primitives B S) (sender : S) (r : Receipt M S) : Bool :=
  decide (P.toLowerCase r.senderIdentityKeyHex = sender)

/-- The message ids of the first `draws` draws. -/
def DrawnId (P : Primitives B S) (E : Entropy B) (draws : Nat) (id : S) : Prop :=
  ∃ d < draws, id = P.bytesToHex (E.randomBytes d 16)

variable (P : Primitives B S) (L : ClientLibrary B S) (E : Entropy B)

/-- The rows of a client and its receipts; `heard` are the texts it has opened, each with its
ciphertext. -/
structure Accounted (heard : S → S → Prop) (draws : Nat) (messages : List (MessageRow S))
    (receipts : List (Receipt M S)) : Prop where
  drawn : ∀ row ∈ messages, row.is_outgoing = false → DrawnId P E draws row.id
  traced : ∀ row ∈ messages, row.is_outgoing = false →
    (∃ r ∈ receipts, isReceiptFrom P row.sender_identity_hex r ∧ r.plaintext = row.body) ∨
      ∃ text ciphertext, heard text ciphertext ∧ Rewrites P L text row
  counted : ∀ sender, messages.countP (MessageRow.isFrom sender) ≤
    receipts.countP (isReceiptFrom P sender)
  heard : ∀ r ∈ receipts, heard r.plaintext r.message.ciphertext

variable {P L E} {heard heard' : S → S → Prop} {draws draws' : Nat}
  {messages : List (MessageRow S)} {receipts : List (Receipt M S)}

theorem accounted_empty : Accounted P L E heard draws ([] : List (MessageRow S))
    ([] : List (Receipt M S)) where
  drawn row h := by cases h
  traced row h := by cases h
  counted _ := Nat.le_refl _
  heard r h := by cases h

omit [DecidableEq S] in
theorem DrawnId.mono {id : S} (h : DrawnId P E draws id) (hle : draws ≤ draws') :
    DrawnId P E draws' id := by
  obtain ⟨d, hlt, hid⟩ := h
  exact ⟨d, Nat.lt_of_lt_of_le hlt hle, hid⟩

theorem Accounted.later (h : Accounted P L E heard draws messages receipts)
    (hle : draws ≤ draws') : Accounted P L E heard draws' messages receipts :=
  ⟨fun row hrow hin => (h.drawn row hrow hin).mono hle, h.traced, h.counted, h.heard⟩

theorem Accounted.mono_heard (h : Accounted P L E heard draws messages receipts)
    (hheard : ∀ text ciphertext, heard text ciphertext → heard' text ciphertext) :
    Accounted P L E heard' draws messages receipts where
  drawn := h.drawn
  traced row hrow hin := by
    rcases h.traced row hrow hin with hreceipt | ⟨text, ciphertext, htext, hrewrites⟩
    · exact Or.inl hreceipt
    · exact Or.inr ⟨text, ciphertext, hheard text ciphertext htext, hrewrites⟩
  counted := h.counted
  heard r hr := hheard _ _ (h.heard r hr)

/-- A new receipt, before its message is stored. -/
theorem Accounted.receipt {r : Receipt M S} (h : Accounted P L E heard draws messages receipts)
    (hnew : heard r.plaintext r.message.ciphertext) :
    Accounted P L E heard draws messages (r :: receipts) where
  drawn := h.drawn
  traced row hrow hin := by
    rcases h.traced row hrow hin with ⟨r', hr', hfrom⟩ | hrewritten
    · exact Or.inl ⟨r', List.mem_cons_of_mem _ hr', hfrom⟩
    · exact Or.inr hrewritten
  counted sender := (h.counted sender).trans (List.sublist_cons_self r receipts).countP_le
  heard r' hr' := by
    rcases List.mem_cons.1 hr' with rfl | hold
    · exact hnew
    · exact h.heard r' hold

/-! ## Upserts -/

/-- An upsert adds one row to the count at most, and none when a row has the id. -/
theorem countP_upsert (sender : S) (row : MessageRow S) :
    (upsertBy MessageRow.id (replaceMessage row) row messages).countP (MessageRow.isFrom sender) ≤
      messages.countP (MessageRow.isFrom sender) + if row.isFrom sender then 1 else 0 := by
  by_cases hold : ∃ old ∈ messages, old.id = row.id
  · obtain ⟨old, hmem, hid⟩ := hold
    rw [upsertBy_of_mem hmem hid, List.countP_map]
    have hsame : (MessageRow.isFrom sender ∘ fun r => if r.id = row.id then replaceMessage row r
        else r) = MessageRow.isFrom sender := by
      funext r
      rw [Function.comp_apply]
      split <;> rfl
    rw [hsame]
    exact Nat.le_add_right _ _
  · rw [upsertBy_of_new fun r hr hid => hold ⟨r, hr, hid⟩, List.countP_append,
      List.countP_singleton]

/-- A message is stored. What it does to an incoming row under its id is done by a text that was
heard; and if it is incoming itself, it has a drawn id and a receipt that is not counted yet. -/
theorem Accounted.upsert (h : Accounted P L E heard draws messages receipts)
    {row : MessageRow S}
    (hold : ∀ r ∈ messages, r.is_outgoing = false → r.id = row.id →
      ∃ text ciphertext, heard text ciphertext ∧ Rewrites P L text (replaceMessage row r))
    (hdrawn : row.is_outgoing = false → DrawnId P E draws row.id)
    (htraced : row.is_outgoing = false →
      ∃ r ∈ receipts, isReceiptFrom P row.sender_identity_hex r ∧ r.plaintext = row.body)
    (hcounted : row.is_outgoing = false →
      messages.countP (MessageRow.isFrom row.sender_identity_hex) + 1 ≤
        receipts.countP (isReceiptFrom P row.sender_identity_hex)) :
    Accounted P L E heard draws (upsertBy MessageRow.id (replaceMessage row) row messages)
      receipts where
  drawn r hr hin := by
    rcases mem_upsertBy hr with rfl | ⟨hmem, -⟩ | ⟨old, hmem, -, rfl⟩
    · exact hdrawn hin
    · exact h.drawn r hmem hin
    · exact h.drawn old hmem hin
  traced r hr hin := by
    rcases mem_upsertBy hr with rfl | ⟨hmem, -⟩ | ⟨old, hmem, hid, rfl⟩
    · exact Or.inl (htraced hin)
    · exact h.traced r hmem hin
    · exact Or.inr (hold old hmem hin hid)
  counted sender := by
    refine (countP_upsert sender row).trans ?_
    by_cases hfrom : row.isFrom sender = true
    · obtain ⟨hin, rfl⟩ := of_decide_eq_true hfrom
      rw [if_pos hfrom]
      exact hcounted hin
    · rw [if_neg hfrom]
      exact h.counted sender
  heard := h.heard

/-- `saveMessage`, which the database may refuse. -/
theorem Accounted.saveMessage {x : ClientState B S}
    (h : Accounted P L E heard draws x.messages receipts) {message : StoredMessage S}
    (hupsert : Accounted P L E heard draws
      (upsertBy MessageRow.id (replaceMessage (messageRow P message)) (messageRow P message)
        x.messages) receipts) :
    Accounted P L E heard draws (x.saveMessage P message).2.messages receipts := by
  rw [ClientState.saveMessage]
  split
  · exact hupsert
  · exact h

/-! ## Statements -/

/-- What the relation reads of a row. -/
def MessageRow.SameSource (row row' : MessageRow S) : Prop :=
  row'.id = row.id ∧ row'.sender_identity_hex = row.sender_identity_hex ∧ row'.body = row.body ∧
    row'.is_outgoing = row.is_outgoing

theorem Accounted.map (h : Accounted P L E heard draws messages receipts)
    {f : MessageRow S → MessageRow S} (hf : ∀ row : MessageRow S, row.SameSource (f row)) :
    Accounted P L E heard draws (messages.map f) receipts where
  drawn row hrow hin := by
    obtain ⟨old, hold, rfl⟩ := List.mem_map.1 hrow
    obtain ⟨hid, -, -, hdirection⟩ := hf old
    rw [hid]
    exact h.drawn old hold (hdirection ▸ hin)
  traced row hrow hin := by
    obtain ⟨old, hold, rfl⟩ := List.mem_map.1 hrow
    obtain ⟨hid, hsender, hbody, hdirection⟩ := hf old
    rcases h.traced old hold (hdirection ▸ hin) with ⟨r, hr, hfrom, htext⟩ |
      ⟨text, ciphertext, htext, parsedSync, messageId, hsync, hnamed, hold', hwritten⟩
    · exact Or.inl ⟨r, hr, hsender.symm ▸ hfrom, htext.trans hbody.symm⟩
    · exact Or.inr ⟨text, ciphertext, htext, parsedSync, messageId, hsync, hnamed,
        hid.symm ▸ hold', hbody.symm ▸ hwritten⟩
  counted sender := by
    rw [List.countP_map]
    have hsame : MessageRow.isFrom sender ∘ f = MessageRow.isFrom sender := by
      funext row
      obtain ⟨-, hsender, -, hdirection⟩ := hf row
      rw [Function.comp_apply, MessageRow.isFrom, MessageRow.isFrom, hsender, hdirection]
    rw [hsame]
    exact h.counted sender
  heard := h.heard

theorem Accounted.filter (h : Accounted P L E heard draws messages receipts)
    (p : MessageRow S → Bool) : Accounted P L E heard draws (messages.filter p) receipts where
  drawn row hrow := h.drawn row (List.mem_of_mem_filter hrow)
  traced row hrow := h.traced row (List.mem_of_mem_filter hrow)
  counted sender := (List.filter_sublist.countP_le).trans (h.counted sender)
  heard := h.heard

/-- Rows may go, and their read flags and delivery states may change. -/
theorem Accounted.statement {x : ClientState B S}
    (h : Accounted P L E heard draws x.messages receipts) (s : TableStatement S) :
    Accounted P L E heard draws (s.execute P x).messages receipts := by
  cases s with
  | updateAlias hash contactAlias => exact h
  | deleteContact hash =>
      rw [TableStatement.execute]
      split
      · exact h
      · exact h
  | deleteOwnLinkedDevice deviceId => exact h
  | markMessagesAsRead hash =>
      apply h.map
      intro row
      split <;> exact ⟨rfl, rfl, rfl, rfl⟩
  | updateDeliveryStatus id status =>
      apply h.map
      intro row
      split <;> exact ⟨rfl, rfl, rfl, rfl⟩
  | deleteMessage id => exact h.filter _
  | clearConversation hash => exact h.filter _

/-! ## Receiving -/

section

variable {U : UntypedCalls B S} {N : Network} {x : ClientState B S}
  {payload : IncomingMessagePayload S} {sender plaintext : S} {found : Option (ContactRecord S)}
  {h : Host B S} {r : Receipt M S}

variable (P E) in
/-- No two draws give one message id. -/
def FreshIds : Prop :=
  ∀ d d', P.bytesToHex (E.randomBytes d 16) = P.bytesToHex (E.randomBytes d' 16) → d = d'

omit [DecidableEq S] in
/-- An id that is drawn later is another one. -/
theorem DrawnId.ne_later (hE : FreshIds P E) {id : S} (hid : DrawnId P E draws id) {d : Nat}
    (hle : draws ≤ d) : id ≠ P.bytesToHex (E.randomBytes d 16) := by
  rintro rfl
  obtain ⟨d', hlt, hsame⟩ := hid
  have := hE d d' hsame
  omega

/-- The message of a new receipt, under an id that is drawn now. -/
theorem Accounted.incoming (hE : FreshIds P E)
    (hacc : Accounted P L E heard draws x.messages receipts)
    (hnew : heard r.plaintext r.message.ciphertext)
    (hle : draws ≤ h.draws) {message : StoredMessage S}
    (hid : message.id = P.bytesToHex (E.randomBytes h.draws 16))
    (hsender : message.senderIdentityHex = r.senderIdentityKeyHex)
    (hbody : message.body = r.plaintext) :
    Accounted P L E heard (h.draws + 1) (x.saveMessage P message).2.messages (r :: receipts) := by
  have hreceipt := (hacc.receipt hnew).later (Nat.le_succ_of_le hle)
  have hfrom : isReceiptFrom P (messageRow P message).sender_identity_hex r = true := by
    rw [isReceiptFrom, messageRow, hsender]
    exact decide_eq_true rfl
  refine hreceipt.saveMessage (hreceipt.upsert ?_ ?_ ?_ ?_)
  · intro old hmem hin hsame
    -- an incoming row has an id drawn before
    exact absurd (hsame.trans hid) ((hacc.drawn old hmem hin).ne_later hE hle)
  · intro _
    exact ⟨h.draws, Nat.lt_succ_self _, hid⟩
  · intro _
    exact ⟨r, List.mem_cons_self, hfrom, hbody.symm⟩
  · intro _
    rw [List.countP_cons_of_pos hfrom]
    exact Nat.succ_le_succ (hacc.counted _)

/-- A message the client stores as its own: under an id drawn now, or under the one a self-sync
names. -/
theorem Accounted.outgoing (hE : FreshIds P E)
    (hacc : Accounted P L E heard draws x.messages receipts) {message : StoredMessage S}
    (hdirection : message.isOutgoing = true)
    (hid : (∃ d, draws ≤ d ∧ message.id = P.bytesToHex (E.randomBytes d 16)) ∨
      ∃ text ciphertext parsedSync messageId, heard text ciphertext ∧
        syncPayload P L text = some parsedSync ∧
        property P "messageId" parsedSync = some messageId ∧
        bindText L (some messageId) = some message.id ∧
        bindText L (property P "body" parsedSync) = some message.body) :
    Accounted P L E heard draws (x.saveMessage P message).2.messages receipts := by
  have hout : (messageRow P message).is_outgoing = false → False := by
    intro hin
    exact Bool.noConfusion (hin.symm.trans hdirection)
  refine hacc.saveMessage (hacc.upsert ?_ (fun h => (hout h).elim) (fun h => (hout h).elim)
    fun h => (hout h).elim)
  intro old hmem hin hsame
  rcases hid with ⟨d, hle, hid⟩ |
    ⟨text, ciphertext, parsedSync, messageId, htext, hsync, hnamed, hid, hbody⟩
  · exact absurd (hsame.trans hid) ((hacc.drawn old hmem hin).ne_later hE hle)
  · refine ⟨text, ciphertext, htext, parsedSync, messageId, hsync, hnamed, ?_, hbody⟩
    exact hid.trans (congrArg some hsame.symm)

theorem Opens.accounted_processIncomingEnvelope (hE : FreshIds P E)
    (hopens : Opens P L U E x payload sender found plaintext h)
    (hacc : Accounted P L E heard draws x.messages receipts)
    (hnew : heard r.plaintext r.message.ciphertext)
    (hle : draws ≤ h.draws) (hsender : r.senderIdentityKeyHex = sender)
    (hplaintext : r.plaintext = plaintext) :
    Accounted P L E heard (h.draws + 1)
      ((processIncomingEnvelope P L U payload).run P E N x).2.messages (r :: receipts) := by
  rw [hopens.run_processIncomingEnvelope]
  refine Accounted.incoming hE ?_ hnew hle rfl hsender.symm hplaintext.symm
  simpa using hacc

/-- What the inner `try` block makes of a self-sync. -/
theorem syncVariables_of_sync {parsedSync : Json S} (v : Incoming S)
    (hsync : syncPayload P L plaintext = some parsedSync) :
    syncVariables P L plaintext v = applySync P parsedSync v := by
  simp only [syncVariables, hsync]

/-- The id of a self-sync is the one that was drawn, or the one it names. -/
theorem messageId_applySync (parsedSync : Json S) (v : Incoming S) :
    (applySync P parsedSync v).messageId = v.messageId ∨
      property P "messageId" parsedSync = some (applySync P parsedSync v).messageId := by
  cases hnamed : property P "messageId" parsedSync with
  | none => exact Or.inl (by simp only [applySync, hnamed])
  | some messageId =>
      simp only [applySync, hnamed]
      split
      · exact Or.inr rfl
      · exact Or.inl rfl

omit [DecidableEq S] in
/-- What `bindIncoming` makes of the variables. -/
theorem bindIncoming_ok {v : Incoming S} {recipient : S} {timestamp : Nat}
    {message : StoredMessage S} (h : bindIncoming L v sender recipient timestamp = .ok message) :
    bindText L (some v.messageId) = some message.id ∧
      bindText L v.messageBody = some message.body ∧ message.isOutgoing = v.isSync := by
  rw [bindIncoming] at h
  split at h
  · next _ _ _ _ hid hbody =>
      cases h
      exact ⟨hid, hbody, rfl⟩
  · cases h

theorem Opens.accounted_receiveMessage (hE : FreshIds P E)
    (hopens : Opens P L U E x payload sender found plaintext h)
    (hacc : Accounted P L E heard draws x.messages receipts)
    (hnew : heard r.plaintext r.message.ciphertext)
    (hle : draws ≤ h.draws) (hsender : r.senderIdentityKeyHex = sender)
    (hplaintext : r.plaintext = plaintext) :
    Accounted P L E heard (h.draws + 1)
      ((receiveMessage P L U payload).run P E N x).2.messages (r :: receipts) := by
  -- A self-sync opened here is filed as outgoing, under the id that it brings.
  cases hsync : syncPayload P L plaintext with
  | none =>
      rw [hopens.run_receiveMessage_ordinary hsync]
      refine Accounted.incoming hE ?_ hnew hle rfl hsender.symm hplaintext.symm
      simpa using hacc
  | some parsedSync =>
      rw [hopens.run_receiveMessage]
      simp only [syncVariables_of_sync _ hsync]
      generalize htimed : timed payload (syncState P L E plaintext
        (openedState P E x "Unknown Contact" sender found h).drawn) = z
      have hmessages : z.messages = x.messages := by
        rw [← htimed]
        simp
      have hreceipt : Accounted P L E heard draws z.messages (r :: receipts) := by
        rw [hmessages]
        exact hacc.receipt hnew
      refine Accounted.later ?_ (Nat.le_succ_of_le hle)
      cases hbound : bindIncoming L (applySync P parsedSync (ordinary P
          (keepSender P E x "Unknown Contact" sender found).1 plaintext
            (E.randomBytes h.draws 16))) sender
          (syncState P L E plaintext (openedState P E x "Unknown Contact" sender found
            h).drawn).host.store.identity.encryptionKey.publicKeyHex
          (timeOf E payload (syncState P L E plaintext
            (openedState P E x "Unknown Contact" sender found h).drawn)) with
      | error e => exact hreceipt
      | ok message =>
          obtain ⟨hid, hbody, hdirection⟩ := bindIncoming_ok hbound
          refine hreceipt.outgoing hE hdirection ?_
          rcases messageId_applySync parsedSync (ordinary P
            (keepSender P E x "Unknown Contact" sender found).1 plaintext
              (E.randomBytes h.draws 16)) with hdrawn | hnamed
          · rw [hdrawn] at hid
            exact Or.inl ⟨h.draws, hle, (Option.some.inj hid).symm⟩
          · exact Or.inr ⟨plaintext, _, parsedSync, _, hplaintext ▸ hnew, hsync, hnamed, hid, hbody⟩

end

end TorE2EE.Client
