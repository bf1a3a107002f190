import TorE2EE.Client.Conversations
import TorE2EE.Client.Histories

/-!
# The overview of all conversations

`refreshConversations` and the pages of `getMessagesForContact` against the tables, in every
reachable state. The conversations of the listed contacts, read page by page, are all messages, each
of them once (`conversations_account`). The badges of the conversations add up to the total badge,
with one exception: `getUnreadCount` takes a hash without characters for no hash at all, so the
conversation with that hash, which a self-sync can make, shows the total (`badges_add_up_iff`).

`selected_overview` says what `selectConversation` changes of the overview.
-/

set_option autoImplicit false

namespace TorE2EE.Client

open TorE2EE.Foundation TorE2EE.Crypto

variable {B S : Type} [DecidableEq S] (P : Primitives B S)

namespace ClientState

/-- The badges of the conversations. -/
def badges (x : ClientState B S) : List Nat :=
  (x.refreshConversations P).conversations.map ConversationSummary.unreadCount

/-- A conversation read in pages of `limit` messages. -/
def readPages (x : ClientState B S) (contactPubkeyHash : S) (limit pages : Nat) :
    List (StoredMessage S) :=
  (List.range pages).flatMap fun i =>
    x.getMessagesForContact P contactPubkeyHash limit (i * limit)

end ClientState

variable {P} {L : ClientLibrary B S} {U : UntypedCalls B S} {E : Entropy B} {N : Network}

/-- An incoming message that has not been read. -/
def MessageRow.unread (row : MessageRow S) : Bool :=
  decide (row.is_read = false ∧ row.is_outgoing = false)

namespace ClientState

variable {x : ClientState B S}

/-! ## Listed contacts -/

omit [DecidableEq S] in
/-- The hashes of the listed contacts are those of the table. -/
theorem listContacts_hashes_perm :
    ((x.listContacts P).map ContactRecord.recipientPubkeyHash).Perm
      (x.contacts.map ContactRow.recipient_pubkey_hash) := by
  rw [listContacts, List.map_map]
  exact (List.perm_insertionSort _ _).map _

/-- A stored hash is read back as it is. -/
theorem rowsOf_listed (hx : LowerCased P x) {contact : ContactRecord S}
    (hcontact : contact ∈ x.listContacts P) :
    x.rowsOf P contact.recipientPubkeyHash =
      group MessageRow.contact_pubkey_hash contact.recipientPubkeyHash x.messages := by
  obtain ⟨row, hrow, rfl⟩ := List.mem_map.1 hcontact
  have hlower := (hx row ((List.mem_insertionSort _).1 hrow)).1
  rw [rowsOf, group]
  exact congrArg (fun hash => x.messages.filter fun m => decide (m.contact_pubkey_hash = hash)) hlower

/-! ## Pages -/

theorem readPages_eq (contactPubkeyHash : S) (limit pages : Nat) :
    x.readPages P contactPubkeyHash limit pages =
      (x.sortedHistory P contactPubkeyHash).take (pages * limit) := by
  rw [← flatMap_page, readPages]
  apply List.flatMap_congr
  intro i _
  rw [page, getMessagesForContact, sortedHistory, List.map_take, List.map_drop]

/-- Enough pages are the whole conversation. -/
theorem readPages_perm (contactPubkeyHash : S) {limit pages : Nat}
    (henough : x.messages.length ≤ pages * limit) :
    (x.readPages P contactPubkeyHash limit pages).Perm (x.history P contactPubkeyHash) := by
  have hlength : (x.sortedHistory P contactPubkeyHash).length ≤ pages * limit := by
    rw [(x.sortedHistory_perm P contactPubkeyHash).length_eq, history, List.length_map]
    exact (List.length_filter_le _ _).trans henough
  rw [readPages_eq, List.take_of_length_le hlength]
  exact x.sortedHistory_perm P contactPubkeyHash

end ClientState

/-! ## All conversations together -/

section

variable {x : ClientState B S} (hlower : ∀ s, P.toLowerCase (P.toLowerCase s) = P.toLowerCase s)
  (hx : x.Reachable P L U E N)

include hx in
theorem listed_nodup : ((x.listContacts P).map ContactRecord.recipientPubkeyHash).Nodup :=
  (ClientState.listContacts_hashes_perm.nodup_iff).2 hx.filing.hashes

include hx in
theorem filed_listed : ∀ m ∈ x.messages,
    m.contact_pubkey_hash ∈ (x.listContacts P).map ContactRecord.recipientPubkeyHash :=
  fun m hm => ClientState.listContacts_hashes_perm.mem_iff.2 (hx.filing.filed m hm)

include hlower hx in
/-- The conversations of the listed contacts, each read to its end in pages of any length, are the
stored messages, each of them once. -/
theorem conversations_account {limit pages : Nat} (henough : x.messages.length ≤ pages * limit) :
    ((x.listContacts P).flatMap fun contact =>
      x.readPages P contact.recipientPubkeyHash limit pages).Perm
        (x.messages.map mapRowToMessage) := by
  have hgroups := flatMap_group_perm (listed_nodup hx) (filed_listed hx)
  rw [List.flatMap_map] at hgroups
  refine List.Perm.trans ?_ (hgroups.map mapRowToMessage)
  rw [List.map_flatMap]
  -- a conversation read to its end is the group of its messages
  apply List.Perm.flatMap_left
  intro contact hcontact
  rw [← ClientState.rowsOf_listed (hx.lowerCased hlower) hcontact]
  exact ClientState.readPages_perm _ henough

include hlower hx in
/-- The badges of the conversations add up to the total badge exactly when there is no conversation
with the empty hash, or no unread message in another one. -/
theorem badges_add_up_iff :
    (x.badges P).sum = (x.refreshConversations P).unreadTotal ↔
      ∀ c ∈ x.contacts, c.recipient_pubkey_hash = P.lit "" →
        ∀ m ∈ x.messages, m.unread → m.contact_pubkey_hash = P.lit "" := by
  let hashes := (x.listContacts P).map ContactRecord.recipientPubkeyHash
  let unreadOf := fun hash => (group MessageRow.contact_pubkey_hash hash x.messages).countP
    MessageRow.unread
  have htotal : (hashes.map unreadOf).sum = x.unreadInAll :=
    sum_countP_group (listed_nodup hx) (filed_listed hx) MessageRow.unread
  have hbadges : x.badges P =
      hashes.map fun hash => if hash = P.lit "" then x.unreadInAll else unreadOf hash := by
    rw [ClientState.badges, ClientState.refreshConversations, List.map_map, List.map_map]
    apply List.map_congr_left
    intro contact hcontact
    rw [Function.comp_apply, ClientState.getUnreadCount, ClientState.unreadIn,
      ClientState.rowsOf_listed (hx.lowerCased hlower) hcontact]
    rfl
  have hlisted : P.lit "" ∈ hashes ↔ ∃ c ∈ x.contacts, c.recipient_pubkey_hash = P.lit "" :=
    ClientState.listContacts_hashes_perm.mem_iff.trans List.mem_map
  have hall : (x.refreshConversations P).unreadTotal = x.unreadInAll := rfl
  rw [hbadges, hall]
  by_cases hempty : P.lit "" ∈ hashes
  · -- that conversation shows the total, so the others must have nothing to show
    have hsum : (hashes.map fun hash => if hash = P.lit "" then x.unreadInAll else
        unreadOf hash).sum + unreadOf (P.lit "") = (hashes.map unreadOf).sum + x.unreadInAll :=
      sum_map_replace (listed_nodup hx) hempty unreadOf x.unreadInAll
    have hall : unreadOf (P.lit "") = x.unreadInAll ↔
        ∀ m ∈ x.messages, m.unread → m.contact_pubkey_hash = P.lit "" := countP_group_eq_iff
    obtain ⟨c, hc, hhash⟩ := hlisted.1 hempty
    constructor
    · intro hequal _ _ _
      apply hall.1
      omega
    · intro hunread
      have hone := hall.2 (hunread c hc hhash)
      omega
  · constructor
    · intro _ c hc hhash
      exact absurd (hlisted.2 ⟨c, hc, hhash⟩) hempty
    · intro _
      have hsame : (hashes.map fun hash => if hash = P.lit "" then x.unreadInAll else
          unreadOf hash) = hashes.map unreadOf := by
        apply List.map_congr_left
        intro hash hhash
        exact if_neg fun (h : hash = P.lit "") => hempty (h ▸ hhash)
      rw [hsame, htotal]

end

/-! ## Selecting a conversation -/

/-- What `markMessagesAsRead` does to a row. -/
def MessageRow.marked (hash : S) (row : MessageRow S) : MessageRow S :=
  if row.contact_pubkey_hash = hash ∧ row.is_outgoing = false then { row with is_read := true }
  else row

namespace MessageRow

variable (hash : S) (row : MessageRow S)

@[simp] theorem marked_contact :
    (row.marked hash).contact_pubkey_hash = row.contact_pubkey_hash := by
  rw [marked]
  split <;> rfl

/-- A marked conversation has no unread message. -/
theorem unread_marked :
    (row.marked hash).unread = (row.unread && decide (row.contact_pubkey_hash ≠ hash)) := by
  by_cases hrow : row.contact_pubkey_hash = hash
  · by_cases hdirection : row.is_outgoing = false
    · simp [marked, unread, hrow, hdirection]
    · simp [marked, unread, hrow, hdirection]
  · simp [marked, hrow]

theorem marked_of_ne (hne : row.contact_pubkey_hash ≠ hash) : row.marked hash = row :=
  if_neg fun h => hne h.1

end MessageRow

namespace ClientState

variable (x : ClientState B S) (hash : S)

theorem rowsOf_marked (other : S) :
    ((TableStatement.markMessagesAsRead hash).execute P x).rowsOf P other =
      (x.rowsOf P other).map (MessageRow.marked (P.toLowerCase hash)) := by
  show (x.messages.map (MessageRow.marked (P.toLowerCase hash))).filter _ = _
  rw [List.filter_map, rowsOf]
  apply congrArg
  apply List.filter_congr
  intro row _
  simp

/-- What is left unread in a conversation after one is marked. -/
theorem unreadIn_marked (other : S) :
    ((TableStatement.markMessagesAsRead hash).execute P x).unreadIn P other =
      if P.toLowerCase other = P.toLowerCase hash then 0 else x.unreadIn P other := by
  show (((TableStatement.markMessagesAsRead hash).execute P x).rowsOf P other).countP
    MessageRow.unread = _
  rw [rowsOf_marked, List.countP_map]
  split
  case isTrue hsame =>
    apply List.countP_eq_zero.2
    intro row hrow
    have hhash : row.contact_pubkey_hash = P.toLowerCase other := by
      simpa using (List.mem_filter.1 hrow).2
    simp [MessageRow.unread_marked, hhash, hsame]
  case isFalse hother =>
    apply List.countP_congr
    intro row hrow
    have hhash : row.contact_pubkey_hash = P.toLowerCase other := by
      simpa using (List.mem_filter.1 hrow).2
    rw [Function.comp_apply, row.marked_of_ne _ (hhash ▸ hother)]
    rfl

/-- The total goes down by what was unread in the conversation. -/
theorem unreadInAll_marked :
    ((TableStatement.markMessagesAsRead hash).execute P x).unreadInAll +
      x.unreadIn P hash = x.unreadInAll := by
  have hmarked : ((TableStatement.markMessagesAsRead hash).execute P x).unreadInAll =
      (x.messages.filter fun row => decide (row.contact_pubkey_hash ≠ P.toLowerCase hash)).countP
        MessageRow.unread := by
    show (x.messages.map (MessageRow.marked (P.toLowerCase hash))).countP MessageRow.unread = _
    rw [List.countP_map, List.countP_filter]
    apply List.countP_congr
    intro row _
    rw [Function.comp_apply, MessageRow.unread_marked]
  have hsplit := List.countP_eq_countP_filter_add x.messages MessageRow.unread
    fun row => decide (row.contact_pubkey_hash = P.toLowerCase hash)
  have htotal : x.unreadInAll = x.messages.countP MessageRow.unread := rfl
  have hcount : x.unreadIn P hash =
      (x.messages.filter fun row => decide (row.contact_pubkey_hash = P.toLowerCase hash)).countP
        MessageRow.unread := rfl
  rw [hmarked, hcount, htotal, hsplit, Nat.add_comm]
  simp

end ClientState

/-- What `selectConversation` changes of the overview of a reachable state: the badge of the selected
conversation goes, the total goes down by what was unread in it, and the list of contacts, the other
badges, the other conversations and the bodies of all messages are as before. A conversation with
the empty hash shows the total, before and after. -/
theorem selected_overview (hlower : ∀ s, P.toLowerCase (P.toLowerCase s) = P.toLowerCase s)
    {x : ClientState B S} (hx : x.Reachable P L U E N) {hash : S} {selection : Selection B S}
    (hselection : x.selectConversation P hash = some selection) :
    selection.overview.contacts = (x.refreshConversations P).contacts ∧
      selection.overview.unreadTotal + x.unreadIn P hash =
        (x.refreshConversations P).unreadTotal ∧
      (∀ s ∈ selection.overview.conversations,
        s.unreadCount =
          if s.contact.recipientPubkeyHash = P.lit "" then selection.overview.unreadTotal
          else if s.contact.recipientPubkeyHash = selection.activeContact.recipientPubkeyHash then 0
          else x.getUnreadCount P (some s.contact.recipientPubkeyHash)) ∧
      (∀ contact ∈ selection.overview.contacts,
        contact.recipientPubkeyHash ≠ selection.activeContact.recipientPubkeyHash →
          selection.state.history P contact.recipientPubkeyHash =
            x.history P contact.recipientPubkeyHash) ∧
      selection.state.messageLog = x.messageLog ∧
      selection.state.messages.map MessageRow.body = x.messages.map MessageRow.body := by
  obtain ⟨active, hactive, rfl⟩ := Option.map_eq_some_iff.1 hselection
  obtain ⟨row, hrow, rfl⟩ := Option.map_eq_some_iff.1 hactive
  have hhash : row.recipient_pubkey_hash = P.toLowerCase hash := by
    simpa using List.find?_some hrow
  -- a listed hash is lower-case, so it is compared as it is
  have hlisted : ∀ contact ∈ x.listContacts P,
      P.toLowerCase contact.recipientPubkeyHash = contact.recipientPubkeyHash := by
    intro contact hcontact
    obtain ⟨r, hr, rfl⟩ := List.mem_map.1 hcontact
    exact (hx.lowerCased hlower r ((List.mem_insertionSort _).1 hr)).1
  refine ⟨rfl, x.unreadInAll_marked hash, ?_, ?_, ?_, ?_⟩
  · intro s hs
    obtain ⟨contact, hcontact, rfl⟩ := List.mem_map.1 hs
    by_cases hempty : contact.recipientPubkeyHash = P.lit ""
    · rw [if_pos hempty]
      exact if_pos hempty
    · have hcount := x.unreadIn_marked (P := P) hash contact.recipientPubkeyHash
      have hbefore : x.getUnreadCount P (some contact.recipientPubkeyHash) =
          x.unreadIn P contact.recipientPubkeyHash := if_neg hempty
      rw [hlisted contact hcontact, ← hhash, ← hbefore] at hcount
      exact (if_neg hempty).trans (hcount.trans (if_neg hempty).symm)
  · intro contact hcontact hother
    rw [ClientState.history, ClientState.history, ClientState.rowsOf_marked, List.map_map]
    apply List.map_congr_left
    intro m hm
    have hconversation : m.contact_pubkey_hash = contact.recipientPubkeyHash := by
      simpa [hlisted contact hcontact] using (List.mem_filter.1 hm).2
    rw [Function.comp_apply, m.marked_of_ne]
    exact fun h => hother (hconversation.symm.trans (h.trans hhash.symm))
  · exact (TableStatement.messageLog_execute x (.markMessagesAsRead hash)).trans
      (List.filter_eq_self.2 fun _ _ => rfl)
  · show (x.messages.map (MessageRow.marked (P.toLowerCase hash))).map MessageRow.body = _
    rw [List.map_map]
    apply List.map_congr_left
    intro m _
    rw [Function.comp_apply, MessageRow.marked]
    split <;> rfl

/-! ## A conversation with the empty hash -/

section

open TorE2EE.Crypto.Sym

/-- A self-sync into the conversation with the empty hash. -/
def namelessSync : Sym :=
  syncText symbolicClient symbolicLibrary (text "") (text "forged") (text "id") 1

/-- The second message of `alice`, after the sync. -/
def laterGreeting : EncryptedMessage Sym :=
  let greetings : EngineM Sym Sym (EncryptedMessage Sym) := do
    let _ ← greet (symbolicBundle symbolicEntropy 1) namelessSync
    encrypt symbolicClient (symbolicBundle symbolicEntropy 1).identityKeyHex (text "hello") none
  okValue (greetings.run symbolicClient symbolicEntropy
    { store := SignalStore.empty (symbolicIdentity 0), draws := 50 }).1 rfl

/-- The two calls in which `bob` receives them. -/
def namelessCalls : List (ClientStep Sym) :=
  [.handleIncomingMessage (symbolicIncoming namelessSync),
    .handleIncomingMessage
      { encrypted_payload :=
          symbolicLibrary.stringifyJson (messageJson symbolicClient laterGreeting)
        created_at := 2 }]

/-- Both messages are found in pages of one message each. -/
theorem conversations_account_symbolic :
    (((bobRuns namelessCalls).listContacts symbolicClient).flatMap fun contact =>
      (bobRuns namelessCalls).readPages symbolicClient contact.recipientPubkeyHash 1 2).Perm
        ((bobRuns namelessCalls).messages.map mapRowToMessage) :=
  conversations_account (fun _ => rfl) (symbolicBob_reachable.calls namelessCalls) (by decide +kernel)

/-- One message is unread, and both conversations show it. -/
theorem badges_add_up_iff_symbolic :
    ((bobRuns namelessCalls).badges symbolicClient).sum ≠
      ((bobRuns namelessCalls).refreshConversations symbolicClient).unreadTotal := by
  intro hequal
  have honly := (badges_add_up_iff (fun _ => rfl) (symbolicBob_reachable.calls namelessCalls)).1
    hequal
  have hunread : ∃ c ∈ (bobRuns namelessCalls).contacts, c.recipient_pubkey_hash = text "" ∧
      ∃ m ∈ (bobRuns namelessCalls).messages, m.unread ∧ m.contact_pubkey_hash ≠ text "" := by
    decide +kernel
  obtain ⟨c, hc, hhash, m, hm, hunread, hother⟩ := hunread
  exact hother (honly c hc hhash m hm hunread)

/-- When `bob` selects the conversation with `alice`, nothing is left unread. -/
theorem selected_overview_symbolic :
    ∃ selection, (bobRuns namelessCalls).selectConversation symbolicClient
        (hex (pub (name 0))) = some selection ∧
      ((bobRuns namelessCalls).refreshConversations symbolicClient).unreadTotal = 1 ∧
      selection.overview.unreadTotal = 0 := by
  obtain ⟨selection, hselection⟩ := Option.isSome_iff_exists.1
    (show ((bobRuns namelessCalls).selectConversation symbolicClient
      (hex (pub (name 0)))).isSome by decide +kernel)
  have htotal : ((bobRuns namelessCalls).refreshConversations symbolicClient).unreadTotal = 1 := by
    decide +kernel
  have hone : (bobRuns namelessCalls).unreadIn symbolicClient (hex (pub (name 0))) = 1 := by
    decide +kernel
  have hselected : selection.overview.unreadTotal +
      (bobRuns namelessCalls).unreadIn symbolicClient (hex (pub (name 0))) =
        ((bobRuns namelessCalls).refreshConversations symbolicClient).unreadTotal :=
    (selected_overview (fun _ => rfl) (symbolicBob_reachable.calls namelessCalls) hselection).2.1
  exact ⟨selection, hselection, htotal, by omega⟩

end

end TorE2EE.Client
