import TorE2EE.Client.Database
import TorE2EE.Client.Symbolic

/-!
# Conversations as they are shown

`MessageRepository.getMessagesForContact` and `getUnreadCount`, and what the user interface makes of
them: `refreshConversations` takes the last of at most one message as the preview of a conversation,
and `selectConversation` shows at most a hundred. The query sorts by ascending time before it
limits, so both get the other end of the history (`latest_shown_iff`).
-/

set_option autoImplicit false

namespace TorE2EE.Client

open TorE2EE.Foundation TorE2EE.Crypto

variable {B S : Type} [DecidableEq S]

/-! ## The end of a sorted list -/

section Ends

variable {α : Type} (time : α → Nat)

/-- All entries have one time. -/
def SameTime (history : List α) : Prop := ∀ m ∈ history, ∀ m' ∈ history, time m = time m'

/-- The entry, if there is any, is one with the greatest time. -/
def IsLatest (history : List α) : Option α → Prop
  | none => history = []
  | some m => m ∈ history ∧ ∀ m' ∈ history, time m' ≤ time m

/-- `n` entries of the history, or all if there are less, in ascending order: those with the greatest
times. -/
structure AreLatest (n : Nat) (history shown : List α) : Prop where
  length_eq : shown.length = min n history.length
  ascending : shown.Pairwise fun m m' => time m ≤ time m'
  greatest : ∃ hidden, (shown ++ hidden).Perm history ∧ ∀ m ∈ shown, ∀ m' ∈ hidden, time m' ≤ time m

variable {time}

theorem SameTime.perm {history history' : List α} (hperm : history.Perm history')
    (h : SameTime time history) : SameTime time history' :=
  fun m hm m' hm' => h m (hperm.mem_iff.2 hm) m' (hperm.mem_iff.2 hm')

/-- The first entry of an ascending list is a latest one when all have one time. -/
theorem isLatest_head_iff {sorted history : List α} (hperm : sorted.Perm history)
    (hsorted : sorted.Pairwise fun m m' => time m ≤ time m') :
    IsLatest time history sorted.head? ↔ SameTime time history := by
  cases sorted with
  | nil =>
      rw [List.nil_perm.1 hperm]
      exact iff_of_true rfl (by simp [SameTime])
  | cons m sorted =>
      have hleast : ∀ m' ∈ history, time m ≤ time m' := by
        intro m' hm'
        rcases List.mem_cons.1 (hperm.mem_iff.2 hm') with rfl | hm'
        · exact Nat.le_refl _
        · exact (List.pairwise_cons.1 hsorted).1 m' hm'
      have hm : m ∈ history := hperm.mem_iff.1 List.mem_cons_self
      constructor
      · rintro ⟨-, hgreatest⟩ m₁ hm₁ m₂ hm₂
        exact Nat.le_antisymm ((hgreatest m₁ hm₁).trans (hleast m₂ hm₂))
          ((hgreatest m₂ hm₂).trans (hleast m₁ hm₁))
      · intro hsame
        exact ⟨hm, fun m' hm' => (hsame m' hm' m hm).le⟩

/-- The first entries of an ascending list are the latest ones when there are no others, or when all
have one time. -/
theorem areLatest_take_iff {sorted history : List α} (hperm : sorted.Perm history)
    (hsorted : sorted.Pairwise fun m m' => time m ≤ time m') (n : Nat) :
    AreLatest time n history (sorted.take n) ↔
      n = 0 ∨ history.length ≤ n ∨ SameTime time history := by
  have hlength := hperm.length_eq
  have hsplit := List.take_append_drop n sorted
  constructor
  · rintro ⟨-, -, hidden, hall, hgreatest⟩
    by_cases hzero : n = 0
    · exact Or.inl hzero
    by_cases hlong : history.length ≤ n
    · exact Or.inr (Or.inl hlong)
    -- something is shown and something hidden: the hidden entries are not earlier and not later
    refine Or.inr (Or.inr (SameTime.perm hperm ?_))
    have hdrop : hidden.Perm (sorted.drop n) := by
      have hboth : (sorted.take n ++ hidden).Perm (sorted.take n ++ sorted.drop n) := by
        rw [hsplit]
        exact hall.trans hperm.symm
      exact (List.perm_append_left_iff _).1 hboth
    have horder := List.pairwise_append.1 (hsplit ▸ hsorted)
    have hequal : ∀ m ∈ sorted.take n, ∀ m' ∈ sorted.drop n, time m = time m' := fun m hm m' hm' =>
      Nat.le_antisymm (horder.2.2 m hm m' hm') (hgreatest m hm m' (hdrop.mem_iff.2 hm'))
    obtain ⟨first, hfirst⟩ := List.exists_mem_of_length_pos (l := sorted.take n) (by
      rw [List.length_take]
      omega)
    obtain ⟨last, hlast⟩ := List.exists_mem_of_length_pos (l := sorted.drop n) (by
      rw [List.length_drop]
      omega)
    have hone : ∀ m ∈ sorted, time m = time first := by
      intro m hm
      rw [← hsplit, List.mem_append] at hm
      rcases hm with hm | hm
      · exact (hequal m hm last hlast).trans (hequal first hfirst last hlast).symm
      · exact (hequal first hfirst m hm).symm
    exact fun m hm m' hm' => (hone m hm).trans (hone m' hm').symm
  · intro hcases
    have htake : (sorted.take n).length = min n history.length := by
      rw [List.length_take, hlength]
    refine ⟨htake, hsorted.sublist (List.take_sublist n sorted), sorted.drop n, ?_, ?_⟩
    · rw [hsplit]
      exact hperm
    · intro m hm m' hm'
      rcases hcases with rfl | hlong | hsame
      · cases hm
      · rw [List.drop_of_length_le (by omega)] at hm'
        cases hm'
      · exact (hsame m' (hperm.mem_iff.1 (List.mem_of_mem_drop hm')) m
          (hperm.mem_iff.1 (List.mem_of_mem_take hm))).le

end Ends

/-! ## Queries -/

/-- `mapRowToMessage`. -/
def mapRowToMessage (row : MessageRow S) : StoredMessage S :=
  { id := row.id
    contactPubkeyHash := row.contact_pubkey_hash
    senderIdentityHex := row.sender_identity_hex
    recipientIdentityHex := row.recipient_identity_hex
    body := row.body
    timestamp := row.timestamp
    isOutgoing := row.is_outgoing
    isRead := row.is_read
    deliveryStatus := row.delivery_status }

variable (P : Primitives B S)

namespace ClientState

variable (x : ClientState B S)

/-- The rows of a conversation. -/
def rowsOf (contactPubkeyHash : S) : List (MessageRow S) :=
  x.messages.filter fun row => row.contact_pubkey_hash = P.toLowerCase contactPubkeyHash

/-- `getMessagesForContact`: in the order of time, rows of one time in the order of the index. -/
def getMessagesForContact (contactPubkeyHash : S) (limit offset : Nat) : List (StoredMessage S) :=
  ((((x.rowsOf P contactPubkeyHash).insertionSort fun r s => r.timestamp ≤ s.timestamp).drop
    offset).take limit).map mapRowToMessage

/-- The incoming messages of a conversation that have not been read. -/
def unreadIn (contactPubkeyHash : S) : Nat :=
  (x.rowsOf P contactPubkeyHash).countP fun row => row.is_read = false ∧ row.is_outgoing = false

/-- All incoming messages that have not been read. -/
def unreadInAll : Nat :=
  x.messages.countP fun row => row.is_read = false ∧ row.is_outgoing = false

/-- `getUnreadCount`: a contact that is not given, or is the empty text, counts as all. -/
def getUnreadCount (contactPubkeyHash : Option S) : Nat :=
  match contactPubkeyHash with
  | none => x.unreadInAll
  | some hash => if hash = P.lit "" then x.unreadInAll else x.unreadIn P hash

end ClientState

/-! ## The user interface -/

/-- `ConversationSummary`. -/
structure ConversationSummary (S : Type) where
  contact : ContactRecord S
  lastMessage : Option (StoredMessage S)
  unreadCount : Nat

/-- What `refreshConversations` sets. -/
structure Overview (S : Type) where
  contacts : List (ContactRecord S)
  conversations : List (ConversationSummary S)
  unreadTotal : Nat

/-- What `selectConversation` sets, with the database it leaves. -/
structure Selection (B S : Type) where
  activeContact : ContactRecord S
  activeMessages : List (StoredMessage S)
  overview : Overview S
  state : ClientState B S

namespace ClientState

/-- `refreshConversations`. -/
def refreshConversations (x : ClientState B S) : Overview S :=
  let contactList := x.listContacts P
  { contacts := contactList
    conversations := contactList.map fun contact =>
      let msgs := x.getMessagesForContact P contact.recipientPubkeyHash 1 0
      { contact
        lastMessage := msgs.getLast?
        unreadCount := x.getUnreadCount P (some contact.recipientPubkeyHash) }
    unreadTotal := x.getUnreadCount P none }

/-- `selectConversation`: `none` when there is no such contact. -/
def selectConversation (x : ClientState B S) (contactPubkeyHash : S) : Option (Selection B S) :=
  (x.getContactByHash P contactPubkeyHash).map fun contact =>
    let activeMessages := x.getMessagesForContact P contactPubkeyHash 100 0
    let state := (TableStatement.markMessagesAsRead contactPubkeyHash).execute P x
    { activeContact := contact
      activeMessages
      overview := state.refreshConversations P
      state }

/-- The messages of a contact, in the order of the rows. -/
def history (x : ClientState B S) (contactPubkeyHash : S) : List (StoredMessage S) :=
  (x.rowsOf P contactPubkeyHash).map mapRowToMessage

/-- The whole history in the order of the query. -/
def sortedHistory (x : ClientState B S) (contactPubkeyHash : S) : List (StoredMessage S) :=
  ((x.rowsOf P contactPubkeyHash).insertionSort fun r s => r.timestamp ≤ s.timestamp).map
    mapRowToMessage

variable (x : ClientState B S) (contactPubkeyHash : S)

theorem sortedHistory_perm :
    (x.sortedHistory P contactPubkeyHash).Perm (x.history P contactPubkeyHash) :=
  (List.perm_insertionSort _ _).map _

theorem sortedHistory_pairwise :
    (x.sortedHistory P contactPubkeyHash).Pairwise fun m m' => m.timestamp ≤ m'.timestamp := by
  apply List.pairwise_map.2
  have : Std.Total fun r s : MessageRow S => r.timestamp ≤ s.timestamp :=
    ⟨fun r s => Nat.le_total r.timestamp s.timestamp⟩
  have : IsTrans (MessageRow S) fun r s => r.timestamp ≤ s.timestamp := ⟨fun _ _ _ => Nat.le_trans⟩
  exact List.pairwise_insertionSort _ _

theorem getMessagesForContact_eq (limit : Nat) :
    x.getMessagesForContact P contactPubkeyHash limit 0 =
      (x.sortedHistory P contactPubkeyHash).take limit := by
  rw [getMessagesForContact, List.drop_zero, sortedHistory, List.map_take]

end ClientState

/-- What is shown of every conversation: the preview is a latest message exactly when all messages
have one time, and the messages loaded with a limit, among them the hundred of the selected
conversation, are the latest ones exactly when the limit does not cut anything off, or is zero, or
all messages have one time. -/
theorem latest_shown_iff (x : ClientState B S) :
    (∀ s ∈ (x.refreshConversations P).conversations,
        IsLatest StoredMessage.timestamp (x.history P s.contact.recipientPubkeyHash) s.lastMessage ↔
          SameTime StoredMessage.timestamp (x.history P s.contact.recipientPubkeyHash)) ∧
      (∀ hash n, AreLatest StoredMessage.timestamp n (x.history P hash)
          (x.getMessagesForContact P hash n 0) ↔
        n = 0 ∨ (x.history P hash).length ≤ n ∨
          SameTime StoredMessage.timestamp (x.history P hash)) ∧
      ∀ hash selection, x.selectConversation P hash = some selection →
        (AreLatest StoredMessage.timestamp 100 (x.history P hash) selection.activeMessages ↔
          (x.history P hash).length ≤ 100 ∨
            SameTime StoredMessage.timestamp (x.history P hash)) := by
  have hloaded (hash : S) (n : Nat) : AreLatest StoredMessage.timestamp n (x.history P hash)
      (x.getMessagesForContact P hash n 0) ↔ n = 0 ∨ (x.history P hash).length ≤ n ∨
        SameTime StoredMessage.timestamp (x.history P hash) := by
    rw [x.getMessagesForContact_eq]
    exact areLatest_take_iff (x.sortedHistory_perm P hash) (x.sortedHistory_pairwise P hash) n
  refine ⟨?_, hloaded, ?_⟩
  · intro s hs
    obtain ⟨contact, -, rfl⟩ := List.mem_map.1 hs
    -- the last of at most one message is the first of all
    have hlast : ∀ sorted : List (StoredMessage S), (sorted.take 1).getLast? = sorted.head? := by
      intro sorted
      cases sorted with
      | nil => rfl
      | cons m sorted => rfl
    dsimp only
    rw [x.getMessagesForContact_eq, hlast]
    exact isLatest_head_iff (x.sortedHistory_perm P _) (x.sortedHistory_pairwise P _)
  · intro hash selection hselection
    obtain ⟨contact, -, rfl⟩ := Option.map_eq_some_iff.1 hselection
    have hhundred := hloaded hash 100
    simpa using hhundred

/-! ## A conversation that is too long -/

open Sym in
/-- A client with one contact and 101 messages of it, one at a time. -/
def longConversation : ClientState Sym Sym :=
  { ClientState.empty (symbolicIdentity 1) with
    contacts :=
      [{ recipient_pubkey_hash := text "carol"
         identity_pubkey_hex := text "key"
         signing_pubkey_hex := text "signing"
         contactAlias := none
         created_at := 0
         linked_devices := [] }]
    messages := (List.range 101).map fun time =>
      { id := name time
        contact_pubkey_hash := text "carol"
        sender_identity_hex := text "key"
        recipient_identity_hex := text "mine"
        body := text "hello"
        timestamp := time
        is_outgoing := false
        is_read := false
        delivery_status := .delivered } }

/-- The preview is the first message of all, and the last message is not loaded. -/
theorem longConversation_shown :
    ((longConversation.refreshConversations symbolicClient).conversations.map fun s =>
        s.lastMessage.map StoredMessage.timestamp) = [some 0] ∧
      ((longConversation.selectConversation symbolicClient (.text "carol")).map fun selection =>
        selection.activeMessages.map StoredMessage.timestamp) = some (List.range 100) ∧
      (longConversation.history symbolicClient (.text "carol")).map StoredMessage.timestamp =
        List.range 101 ∧
      ¬ AreLatest StoredMessage.timestamp 100 (longConversation.history symbolicClient (.text "carol"))
        (longConversation.getMessagesForContact symbolicClient (.text "carol") 100 0) := by
  have hhistory : (longConversation.history symbolicClient (.text "carol")).map
      StoredMessage.timestamp = List.range 101 := by decide +kernel
  refine ⟨by decide +kernel, by decide +kernel, hhistory, ?_⟩
  rw [ClientState.getMessagesForContact_eq, areLatest_take_iff
    (longConversation.sortedHistory_perm symbolicClient _)
    (longConversation.sortedHistory_pairwise symbolicClient _)]
  -- the exact condition fails in each of its parts
  rintro (hzero | hshort | hsame)
  · cases hzero
  · have hlength := congrArg List.length hhistory
    rw [List.length_map, List.length_range] at hlength
    omega
  · -- the times 0 and 1 differ
    have hmem (n : Nat) (hn : n ∈ List.range 101) :
        ∃ m ∈ longConversation.history symbolicClient (.text "carol"), m.timestamp = n := by
      rw [← hhistory] at hn
      exact List.mem_map.1 hn
    obtain ⟨m, hm, hzero⟩ := hmem 0 (by decide)
    obtain ⟨m', hm', hone⟩ := hmem 1 (by decide)
    have hequal := hsame m hm m' hm'
    omega

end TorE2EE.Client
