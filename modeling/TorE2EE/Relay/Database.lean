import TorE2EE.Relay.Types
import Mathlib.Data.List.Sort

/-!
# The messages table

`db.rs`. The table is a list of rows in the order of insertion, with the id `AUTOINCREMENT` hands
out next. A transaction takes effect as a whole.
-/

set_option autoImplicit false

namespace TorE2EE.Relay

/-- The `messages` table. -/
structure Database where
  rows : List Copy
  nextId : Int

namespace Database

/-- `init_db` on a new file. -/
def empty : Database := { rows := [], nextId := 1 }

variable (db : Database)

/-- `enqueue_message` at the time `now`, for the request `origin`. -/
def enqueueMessage (origin : Nat) (recipientPubkeyHash encryptedPayload nonce : String)
    (ttlSeconds now : Int) : Database × Copy :=
  let row : Copy :=
    { origin
      message :=
        { id := db.nextId
          recipientPubkeyHash
          encryptedPayload
          nonce
          createdAt := now
          expiresAt := addI64 now ttlSeconds } }
  ({ rows := db.rows ++ [row], nextId := db.nextId + 1 }, row)

/-- The selection of `fetch_and_delete_messages`: `ORDER BY id ASC`. -/
def queuedFor (recipientPubkeyHash : String) : List Copy :=
  (db.rows.filter fun c => c.message.recipientPubkeyHash = recipientPubkeyHash).insertionSort
    fun c d => c.message.id ≤ d.message.id

/-- `fetch_and_delete_messages`. -/
def fetchAndDeleteMessages (recipientPubkeyHash : String) : List Copy × Database :=
  let messages := db.queuedFor recipientPubkeyHash
  if messages.isEmpty then (messages, db)
  else (messages, { db with
    rows := db.rows.filter fun c => c.message.recipientPubkeyHash ≠ recipientPubkeyHash })

/-- `cleanup_expired_messages` at the time `now`. -/
def cleanupExpiredMessages (now : Int) : Database :=
  { db with rows := db.rows.filter fun c => ¬ c.message.expiresAt ≤ now }

/-- Ids increase along the table and stay below the next one. -/
structure Numbered : Prop where
  increasing : db.rows.Pairwise fun c d => c.message.id < d.message.id
  below : ∀ c ∈ db.rows, c.message.id < db.nextId

variable {db}

theorem numbered_empty : Database.empty.Numbered where
  increasing := List.Pairwise.nil
  below c hc := by cases hc

theorem Numbered.sublist (h : db.Numbered) {rows : List Copy} (hsub : rows.Sublist db.rows) :
    ({ db with rows } : Database).Numbered where
  increasing := h.increasing.sublist hsub
  below c hc := h.below c (hsub.subset hc)

theorem Numbered.enqueueMessage (h : db.Numbered) (origin : Nat) (k payload nonce : String)
    (ttl now : Int) : (db.enqueueMessage origin k payload nonce ttl now).1.Numbered where
  increasing := by
    apply List.pairwise_append.2
    refine ⟨h.increasing, List.pairwise_singleton _ _, ?_⟩
    intro c hc d hd
    rw [List.mem_singleton] at hd
    subst hd
    exact h.below c hc
  below c hc := by
    rcases List.mem_append.1 hc with hold | hnew
    · exact (h.below c hold).trans (Int.lt_succ _)
    · rw [List.mem_singleton] at hnew
      subst hnew
      exact Int.lt_succ _

/-- The selected rows come in the order of the table. -/
theorem Numbered.queuedFor_eq (h : db.Numbered) (k : String) :
    db.queuedFor k = db.rows.filter fun c => c.message.recipientPubkeyHash = k := by
  apply List.Pairwise.insertionSort_eq
  exact (h.increasing.sublist List.filter_sublist).imp fun hlt => le_of_lt hlt

theorem mem_queuedFor {k : String} {c : Copy} :
    c ∈ db.queuedFor k ↔ c ∈ db.rows ∧ c.message.recipientPubkeyHash = k := by
  rw [queuedFor, List.mem_insertionSort, List.mem_filter, decide_eq_true_iff]

theorem fetchAndDeleteMessages_fst (k : String) :
    (db.fetchAndDeleteMessages k).1 = db.queuedFor k := by
  unfold fetchAndDeleteMessages
  dsimp only
  split <;> rfl

/-- A fetch deletes the rows of its recipient and no others. -/
theorem rows_fetchAndDeleteMessages (k : String) :
    (db.fetchAndDeleteMessages k).2.rows =
      db.rows.filter fun c => c.message.recipientPubkeyHash ≠ k := by
  unfold fetchAndDeleteMessages
  dsimp only
  split
  · rename_i hempty
    -- nothing was selected, so the deletion would have kept every row
    symm
    apply List.filter_eq_self.2
    intro c hc
    rw [decide_eq_true_iff]
    intro hk
    have hmem : c ∈ db.queuedFor k := mem_queuedFor.2 ⟨hc, hk⟩
    rw [List.isEmpty_iff.1 hempty] at hmem
    cases hmem
  · rfl

theorem nextId_fetchAndDeleteMessages (k : String) :
    (db.fetchAndDeleteMessages k).2.nextId = db.nextId := by
  unfold fetchAndDeleteMessages
  dsimp only
  split <;> rfl

theorem Numbered.fetchAndDeleteMessages (h : db.Numbered) (k : String) :
    (db.fetchAndDeleteMessages k).2.Numbered := by
  have hsub : ((db.fetchAndDeleteMessages k).2.rows).Sublist db.rows := by
    rw [rows_fetchAndDeleteMessages]
    exact List.filter_sublist
  constructor
  · exact h.increasing.sublist hsub
  · rw [nextId_fetchAndDeleteMessages]
    intro c hc
    exact h.below c (hsub.subset hc)

end Database

end TorE2EE.Relay
