import TorE2EE.Client.OneContact
import TorE2EE.Foundation.Listings

/-!
# Messages and contacts over whole runs

Every message is filed under a stored contact, and no two messages have one id, no two contacts one
hash, in every reachable state (`Filing`). The foreign key carries the first part: a new message
needs its contact, and a contact with messages is not deleted.

`ON CONFLICT DO UPDATE` leaves the columns alone that its `SET` does not name. Those columns of the
two tables are written once (`messageLog`, `contactLog`): over any run of calls rows may go and new
ones come behind the others, and without a deletion every row stays (`histories_kept`). In
particular a message never moves to another conversation, whatever is received under its id.
-/

set_option autoImplicit false

namespace TorE2EE.Client

open TorE2EE.Foundation TorE2EE.Crypto

variable {B S : Type} [DecidableEq S] {P : Primitives B S} {L : ClientLibrary B S}
  {U : UntypedCalls B S} {E : Entropy B} {N : Network}

/-! ## What is written once -/

/-- The columns of a message that no statement sets again. -/
def MessageRow.writtenOnce (row : MessageRow S) : S × S × S × S × Nat × Bool :=
  (row.id, row.contact_pubkey_hash, row.sender_identity_hex, row.recipient_identity_hex,
    row.timestamp, row.is_outgoing)

/-- The columns of a contact that no statement sets again. -/
def ContactRow.writtenOnce (row : ContactRow S) : S × Nat :=
  (row.recipient_pubkey_hash, row.created_at)

namespace ClientState

variable (x : ClientState B S)

/-- What is written once of all messages, in the order of the rows. -/
def messageLog : List (S × S × S × S × Nat × Bool) := x.messages.map MessageRow.writtenOnce

/-- What is written once of all contacts, in the order of the rows. -/
def contactLog : List (S × Nat) := x.contacts.map ContactRow.writtenOnce

omit [DecidableEq S] in
theorem map_messageLog : x.messageLog.map Prod.fst = x.messages.map MessageRow.id := by
  rw [messageLog, List.map_map]
  rfl

omit [DecidableEq S] in
theorem map_contactLog :
    x.contactLog.map Prod.fst = x.contacts.map ContactRow.recipient_pubkey_hash := by
  rw [contactLog, List.map_map]
  rfl

/-- Both logs are kept. -/
structure Extends (y : ClientState B S) : Prop where
  messages : x.messageLog <+: y.messageLog
  contacts : x.contactLog <+: y.contactLog

variable {x}

omit [DecidableEq S] in
theorem Extends.refl : x.Extends x := ⟨List.prefix_rfl, List.prefix_rfl⟩

omit [DecidableEq S] in
theorem Extends.trans {y z : ClientState B S} (h : x.Extends y) (h' : y.Extends z) : x.Extends z :=
  ⟨h.messages.trans h'.messages, h.contacts.trans h'.contacts⟩

theorem extends_saveContact (contact : ContactRecord S) : x.Extends (x.saveContact P contact) where
  messages := List.prefix_rfl
  contacts := by
    apply map_upsertBy_extends
    -- the row that is replaced keeps its creation time
    intro old hkey
    exact Prod.ext hkey.symm rfl

theorem extends_saveMessage (message : StoredMessage S) :
    x.Extends (x.saveMessage P message).2 := by
  rw [saveMessage]
  split
  · exact ⟨map_upsertBy_extends fun _ _ => rfl, List.prefix_rfl⟩
  · exact Extends.refl

theorem extends_operation (o : ClientOp B S) : x.Extends (ClientOp.handle P E N o x).2 := by
  cases o with
  | saveContact contact => exact extends_saveContact contact
  | saveMessage message => exact extends_saveMessage message
  | _ => exact ⟨List.prefix_rfl, List.prefix_rfl⟩

/-- No method takes a row away. -/
theorem extends_method {α : Type} (c : ClientM B S α) : x.Extends (c.run P E N x).2 := by
  apply Program.run_preserves (r := Extends)
  · exact fun _ => Extends.refl
  · exact fun _ _ _ hxy hyz => hxy.trans hyz
  · exact fun o y => extends_operation o

end ClientState

/-! ## Statements that delete -/

section

variable (P)

/-- The statement takes a message with these columns away. -/
def TableStatement.takesMessage (s : TableStatement S) (e : S × S × S × S × Nat × Bool) : Bool :=
  match s with
  | .deleteMessage id => e.1 = id
  | .clearConversation hash => e.2.1 = P.toLowerCase hash
  | _ => false

/-- The statement takes a contact with these columns away: its conversation is empty. -/
def TableStatement.takesContact (x : ClientState B S) (s : TableStatement S) (e : S × Nat) : Bool :=
  match s with
  | .deleteContact hash =>
      e.1 = P.toLowerCase hash ∧ ¬ ∃ m ∈ x.messages, m.contact_pubkey_hash = P.toLowerCase hash
  | _ => false

/-- The call takes a message with these columns away. -/
def ClientStep.takesMessage (a : ClientStep S) (e : S × S × S × S × Nat × Bool) : Bool :=
  match a with
  | .statement s => s.takesMessage P e
  | _ => false

/-- The call takes a contact with these columns away. -/
def ClientStep.takesContact (x : ClientState B S) (a : ClientStep S) (e : S × Nat) : Bool :=
  match a with
  | .statement s => s.takesContact P x e
  | _ => false

end

namespace TableStatement

variable (x : ClientState B S) (s : TableStatement S)

/-- A statement leaves the messages that it does not take as they are. -/
theorem messageLog_execute :
    (s.execute P x).messageLog = x.messageLog.filter fun e => !s.takesMessage P e := by
  have hall (hs : ∀ e, s.takesMessage P e = false) :
      (x.messageLog.filter fun e => !s.takesMessage P e) = x.messageLog := by
    apply List.filter_eq_self.2
    intro e _
    rw [hs e]
    rfl
  -- Two statements delete messages; of the others two change a column that is no part of an entry.
  cases s with
  | deleteMessage id =>
      rw [ClientState.messageLog, ClientState.messageLog, List.filter_map, execute]
      congr 1
      exact List.filter_congr fun row _ => decide_not
  | clearConversation hash =>
      rw [ClientState.messageLog, ClientState.messageLog, List.filter_map, execute]
      congr 1
      exact List.filter_congr fun row _ => decide_not
  | deleteContact hash =>
      rw [hall fun _ => rfl, execute]
      split
      · rfl
      · rfl
  | markMessagesAsRead hash =>
      rw [hall fun _ => rfl, ClientState.messageLog, execute, List.map_map]
      apply List.map_congr_left
      intro row _
      rw [Function.comp_apply]
      split <;> rfl
  | updateDeliveryStatus id status =>
      rw [hall fun _ => rfl, ClientState.messageLog, execute, List.map_map]
      apply List.map_congr_left
      intro row _
      rw [Function.comp_apply]
      split <;> rfl
  | _ => exact (hall fun _ => rfl).symm

/-- A statement leaves the contacts that it does not take as they are. -/
theorem contactLog_execute :
    (s.execute P x).contactLog = x.contactLog.filter fun e => !s.takesContact P x e := by
  have hall (hs : ∀ e, s.takesContact P x e = false) :
      (x.contactLog.filter fun e => !s.takesContact P x e) = x.contactLog := by
    apply List.filter_eq_self.2
    intro e _
    rw [hs e]
    rfl
  cases s with
  | deleteContact hash =>
      rw [execute]
      split
      case isTrue hused =>
        -- the foreign key refuses the deletion
        refine (hall fun e => ?_).symm
        exact decide_eq_false fun h => h.2 hused
      case isFalse hunused =>
        rw [ClientState.contactLog, ClientState.contactLog, List.filter_map]
        congr 1
        apply List.filter_congr
        intro row _
        simp only [takesContact, Function.comp_apply, hunused, not_false_eq_true, and_true]
        exact decide_not
  | updateAlias hash contactAlias =>
      rw [hall fun _ => rfl, ClientState.contactLog, execute, List.map_map]
      apply List.map_congr_left
      intro row _
      rw [Function.comp_apply]
      split <;> rfl
  | _ => exact (hall fun _ => rfl).symm

/-- A deletion leaves the other rows as they are. -/
theorem messageLog_sublist : (s.execute P x).messageLog.Sublist x.messageLog :=
  messageLog_execute x s ▸ List.filter_sublist

theorem contactLog_sublist : (s.execute P x).contactLog.Sublist x.contactLog :=
  contactLog_execute x s ▸ List.filter_sublist

end TableStatement

/-! ## Calls -/

namespace ClientStep

variable (x : ClientState B S) (a : ClientStep S)

/-- What is not a statement takes no row away. -/
theorem extends_apply (ha : ∀ s, a ≠ .statement s) : x.Extends (a.apply P L U E N x) := by
  cases a with
  | statement s => exact absurd rfl (ha s)
  | saveOwnLinkedDevice device => exact ⟨List.prefix_rfl, List.prefix_rfl⟩
  | _ => exact ClientState.extends_method _

/-- What a call does not take stays at the front. -/
theorem messageLog_apply :
    (x.messageLog.filter fun e => !a.takesMessage P e) <+: (a.apply P L U E N x).messageLog := by
  cases a with
  | statement s => exact s.messageLog_execute x ▸ List.prefix_rfl
  | _ =>
      have hall : (x.messageLog.filter fun _ => true) = x.messageLog :=
        List.filter_eq_self.2 fun _ _ => rfl
      exact hall.symm ▸ (extends_apply x _ fun s h => by cases h).messages

theorem contactLog_apply :
    (x.contactLog.filter fun e => !a.takesContact P x e) <+: (a.apply P L U E N x).contactLog := by
  cases a with
  | statement s => exact s.contactLog_execute x ▸ List.prefix_rfl
  | _ =>
      have hall : (x.contactLog.filter fun _ => true) = x.contactLog :=
        List.filter_eq_self.2 fun _ _ => rfl
      exact hall.symm ▸ (extends_apply x _ fun s h => by cases h).contacts

end ClientStep

/-! ## Every message is filed -/

/-- Every message is in the conversation of a contact, and ids and hashes are keys. -/
structure Filing (x : ClientState B S) : Prop where
  filed : ∀ m ∈ x.messages,
    m.contact_pubkey_hash ∈ x.contacts.map ContactRow.recipient_pubkey_hash
  ids : (x.messages.map MessageRow.id).Nodup
  hashes : DistinctHashes x

omit [DecidableEq S] in
/-- A contact is there as long as its hash is in the log. -/
theorem mem_hashes_of_prefix {x y : ClientState B S} (h : x.contactLog <+: y.contactLog) {hash : S}
    (hmem : hash ∈ x.contacts.map ContactRow.recipient_pubkey_hash) :
    hash ∈ y.contacts.map ContactRow.recipient_pubkey_hash := by
  rw [← ClientState.map_contactLog] at hmem ⊢
  exact (h.sublist.map Prod.fst).subset hmem

omit [DecidableEq S] in
/-- Fewer messages are filed, as long as the contacts stay. -/
theorem Filing.of_logs {x y : ClientState B S} (hx : Filing x)
    (hmessages : y.messageLog.Sublist x.messageLog)
    (hcontacts : y.contactLog.Sublist x.contactLog)
    (hkept : ∀ m ∈ y.messages,
      m.contact_pubkey_hash ∈ x.contacts.map ContactRow.recipient_pubkey_hash →
        m.contact_pubkey_hash ∈ y.contacts.map ContactRow.recipient_pubkey_hash) : Filing y where
  filed m hm := by
    obtain ⟨m', hm', hsame⟩ :=
      List.mem_map.1 (hmessages.subset (List.mem_map_of_mem (f := MessageRow.writtenOnce) hm))
    have hconversation : m'.contact_pubkey_hash = m.contact_pubkey_hash :=
      congrArg (fun e => e.2.1) hsame
    exact hkept m hm (hconversation ▸ hx.filed m' hm')
  ids := by
    rw [← ClientState.map_messageLog]
    exact (x.map_messageLog ▸ hx.ids).sublist (hmessages.map Prod.fst)
  hashes := by
    rw [DistinctHashes, ← ClientState.map_contactLog]
    have hhashes := hx.hashes
    rw [DistinctHashes, ← x.map_contactLog] at hhashes
    exact hhashes.sublist (hcontacts.map Prod.fst)

theorem filing_saveMessage {x : ClientState B S} (hx : Filing x) (message : StoredMessage S) :
    Filing (x.saveMessage P message).2 := by
  rw [ClientState.saveMessage]
  split
  case isFalse => exact hx
  case isTrue hallowed =>
    refine ⟨?_, nodup_upsertBy (fun _ hid => hid) hx.ids, hx.hashes⟩
    by_cases hold : ∃ old ∈ x.messages, old.id = (messageRow P message).id
    · -- a row with the id is replaced, and stays in its conversation
      intro m hm
      obtain ⟨old, hmem, hid⟩ := hold
      rw [upsertBy_of_mem hmem hid] at hm
      obtain ⟨r, hr, rfl⟩ := List.mem_map.1 hm
      split
      · exact hx.filed r hr
      · exact hx.filed r hr
    · obtain ⟨c, hc, hhash⟩ := hallowed.resolve_left hold
      apply forall_upsertBy hx.filed
      · exact List.mem_map.2 ⟨c, hc, hhash⟩
      · exact fun old hmem hid => absurd ⟨old, hmem, hid⟩ hold

theorem filing_statement {x : ClientState B S} (hx : Filing x) (s : TableStatement S) :
    Filing (s.execute P x) := by
  apply hx.of_logs (s.messageLog_sublist x) (s.contactLog_sublist x)
  intro m hm hmem
  rw [← ClientState.map_contactLog] at hmem ⊢
  rw [s.contactLog_execute x]
  obtain ⟨e, he, hconversation⟩ := List.mem_map.1 hmem
  refine List.mem_map.2 ⟨e, List.mem_filter.2 ⟨he, ?_⟩, hconversation⟩
  cases s with
  | deleteContact hash =>
      -- the contact that goes has no messages
      have hkept : ¬ (e.1 = P.toLowerCase hash ∧
          ¬ ∃ m ∈ x.messages, m.contact_pubkey_hash = P.toLowerCase hash) := by
        rintro ⟨hhash, hunused⟩
        rw [TableStatement.execute, if_neg hunused] at hm
        exact hunused ⟨m, hm, hconversation.symm.trans hhash⟩
      exact congrArg not (decide_eq_false hkept)
  | _ => rfl

theorem filing_kept : ClientState.Kept P E N (Filing (B := B) (S := S)) where
  operation o x hx := by
    cases o with
    | saveContact contact =>
        refine ⟨?_, hx.ids, distinctHashes_saveContact hx.hashes contact⟩
        intro m hm
        exact mem_hashes_of_prefix (ClientState.extends_saveContact contact).contacts
          (hx.filed m hm)
    | saveMessage message => exact filing_saveMessage hx message
    | _ => exact ⟨hx.filed, hx.ids, hx.hashes⟩
  device device x hx := ⟨hx.filed, hx.ids, hx.hashes⟩
  statement s x hx := filing_statement hx s

theorem ClientState.Reachable.filing {x : ClientState B S} (hx : Reachable P L U E N x) :
    Filing x := by
  apply hx.invariant
  · intro identity
    exact ⟨fun m hm => (List.not_mem_nil hm).elim, List.nodup_nil, List.nodup_nil⟩
  · intro x a hx _
    exact filing_kept.step hx a

/-! ## Runs of calls -/

omit [DecidableEq S] in
/-- A row whose columns are still in the log is found by its key. -/
theorem exists_row_of_mem_log {ρ κ γ : Type} (key : ρ → κ) {columns : ρ → κ × γ}
    (hkey : ∀ r, (columns r).1 = key r) {rows : List ρ} {r : ρ} (hnodup : (rows.map key).Nodup)
    (hmem : columns r ∈ rows.map columns) :
    ∃ r' ∈ rows, columns r' = columns r ∧ ∀ r'' ∈ rows, key r'' = key r → r'' = r' := by
  obtain ⟨r', hr', hsame⟩ := List.mem_map.1 hmem
  refine ⟨r', hr', hsame, ?_⟩
  intro r'' hr'' hk
  apply List.inj_on_of_nodup_map hnodup hr'' hr'
  rw [hk, ← hkey, ← hsame, hkey]

/-- Over any run of calls from a reachable state, the messages that no call of the run takes away come
first, in their order and with the columns they had, and what else there is comes behind them; so do
the contacts. A message that no call takes away is the only one under its id, with the conversation,
the sender, the recipient, the time and the direction it had, and a contact the only one under its
hash, with the creation time it had. -/
theorem histories_kept {x : ClientState B S} (hx : x.Reachable P L U E N)
    (calls : List (ClientStep S)) :
    let y := calls.foldl (ClientStep.apply P L U E N) x
    let messageStays e := calls.all fun a => !a.takesMessage P e
    let contactStays e := spared (ClientStep.apply P L U E N)
      (fun y a e => a.takesContact P y e) x calls e
    Filing y ∧ x.messageLog.filter messageStays <+: y.messageLog ∧
      x.contactLog.filter contactStays <+: y.contactLog ∧
      (∀ m ∈ x.messages, messageStays m.writtenOnce → ∃ m' ∈ y.messages,
        m'.writtenOnce = m.writtenOnce ∧ ∀ m'' ∈ y.messages, m''.id = m.id → m'' = m') ∧
      (∀ c ∈ x.contacts, contactStays c.writtenOnce → ∃ c' ∈ y.contacts,
        c'.writtenOnce = c.writtenOnce ∧
          ∀ c'' ∈ y.contacts, c''.recipient_pubkey_hash = c.recipient_pubkey_hash → c'' = c') := by
  intro y messageStays contactStays
  have hfiling : Filing y := (hx.calls calls).filing
  have hmessages : x.messageLog.filter messageStays <+: y.messageLog := by
    have hrun := filter_spared_prefix
      (fun y (a : ClientStep S) => a.messageLog_apply (P := P) (L := L) (U := U) (E := E) (N := N) y)
      x calls
    have hsame : spared (ClientStep.apply P L U E N) (fun _ a e => a.takesMessage P e) x calls =
        messageStays := funext (spared_eq_all _ x calls)
    exact hsame ▸ hrun
  have hcontacts : x.contactLog.filter contactStays <+: y.contactLog :=
    filter_spared_prefix
      (fun y (a : ClientStep S) => a.contactLog_apply (P := P) (L := L) (U := U) (E := E) (N := N) y)
      x calls
  refine ⟨hfiling, hmessages, hcontacts, ?_, ?_⟩
  · intro m hm hstays
    apply exists_row_of_mem_log MessageRow.id (fun _ => rfl) hfiling.ids
    exact hmessages.subset (List.mem_filter.2 ⟨List.mem_map_of_mem hm, hstays⟩)
  · intro c hc hstays
    apply exists_row_of_mem_log ContactRow.recipient_pubkey_hash (fun _ => rfl) hfiling.hashes
    exact hcontacts.subset (List.mem_filter.2 ⟨List.mem_map_of_mem hc, hstays⟩)

open Sym in
/-- `bob` after a self-sync into a conversation that he did not have. -/
def symbolicSynced : ClientState Sym Sym :=
  ClientStep.apply symbolicClient symbolicLibrary symbolicUntyped symbolicEntropy symbolicNetwork
    symbolicBob (.handleIncomingMessage (symbolicIncoming symbolicForgery))

open Sym in
/-- He reads it, and deletes the contacts: the one of `alice` goes, and that of the conversation with
the message does not. -/
def symbolicTidied : List (ClientStep Sym) :=
  [.statement (.markMessagesAsRead (text "carol")),
    .statement (.deleteContact (hex (pub (name 0)))), .statement (.updateAlias (text "carol") none),
    .statement (.deleteContact (text "carol"))]

open Sym in
theorem histories_kept_symbolic :
    let y := symbolicTidied.foldl (ClientStep.apply symbolicClient symbolicLibrary symbolicUntyped
      symbolicEntropy symbolicNetwork) symbolicSynced
    symbolicSynced.contacts.length = 2 ∧
      y.contacts.map ContactRow.recipient_pubkey_hash = [text "carol"] ∧
      symbolicSynced.messageLog.map Prod.fst = [text "id"] ∧ Filing y ∧
      symbolicSynced.messageLog <+: y.messageLog := by
  have hkept := histories_kept (symbolicBob_reachable.step
    (.handleIncomingMessage (symbolicIncoming symbolicForgery))) symbolicTidied
  have hall : (symbolicSynced.messageLog.filter fun e => symbolicTidied.all
      fun a => !a.takesMessage symbolicClient e) = symbolicSynced.messageLog :=
    List.filter_eq_self.2 fun _ _ => rfl
  exact ⟨by decide +kernel, by decide +kernel, by decide +kernel, hkept.1, hall ▸ hkept.2.1⟩

end TorE2EE.Client
