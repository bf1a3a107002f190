import TorE2EE.Foundation.Tables
import Mathlib.Algebra.Ring.Nat
import Mathlib.Data.List.Perm.Basic

/-!
# Groups, pages and logs

A table that is read one key at a time, and a list that is read one page at a time. When every row
has one of the keys, the groups of the keys together are the table (`flatMap_group_perm`), and counts
add up over the groups (`sum_countP_group`). Pages of one length together are the beginning of the
list (`flatMap_page`).

A sum over the keys in which one summand is replaced differs by that summand (`sum_map_replace`).

A log that actions append to and take entries from keeps the entries that no action takes, in their
order and before all new ones, over every run (`filter_spared_prefix`). An upsert takes no row away,
and what it sets in no row stays (`map_upsertBy_extends`).
-/

set_option autoImplicit false

namespace TorE2EE.Foundation

universe u v

variable {α : Type u}

section Groups

variable {κ : Type v} [DecidableEq κ] (key : α → κ)

/-- The entries with a key, in their order. -/
def group (k : κ) (l : List α) : List α := l.filter fun a => key a = k

variable {key}

/-- Another group is not touched when the entries of a key are taken out. -/
theorem group_filter_ne {k k' : κ} (hne : k' ≠ k) (l : List α) :
    group key k' (l.filter fun a => key a ≠ k) = group key k' l := by
  rw [group, group, List.filter_filter]
  apply List.filter_congr
  intro a _
  by_cases ha : key a = k'
  · simp [ha, hne]
  · simp [ha]

/-- Every entry is in the group of its key and in no other. -/
theorem flatMap_group_perm {keys : List κ} (hkeys : keys.Nodup) {l : List α}
    (hl : ∀ a ∈ l, key a ∈ keys) : (keys.flatMap fun k => group key k l).Perm l := by
  induction keys generalizing l with
  | nil =>
      cases l with
      | nil => exact List.Perm.nil
      | cons a l => cases hl a List.mem_cons_self
  | cons k keys ih =>
      obtain ⟨hk, hkeys⟩ := List.nodup_cons.1 hkeys
      let others := l.filter fun a => key a ≠ k
      -- the groups of the other keys are made of the other entries
      have hothers : (keys.flatMap fun k' => group key k' l).Perm others := by
        have hsame : (keys.flatMap fun k' => group key k' l) =
            keys.flatMap fun k' => group key k' others := by
          apply List.flatMap_congr
          intro k' hk'
          have hne : k' ≠ k := fun h => hk (h ▸ hk')
          exact (group_filter_ne hne l).symm
        rw [hsame]
        apply ih hkeys
        intro a ha
        obtain ⟨hmem, hne⟩ := List.mem_filter.1 ha
        exact (List.mem_cons.1 (hl a hmem)).resolve_left (by simpa using hne)
      rw [List.flatMap_cons]
      refine (hothers.append_left _).trans ?_
      have hsplit := List.filter_append_perm (fun a => decide (key a = k)) l
      simpa [group, others] using hsplit

/-- A count over the whole list is the sum of the counts over the groups. -/
theorem sum_countP_group {keys : List κ} (hkeys : keys.Nodup) {l : List α}
    (hl : ∀ a ∈ l, key a ∈ keys) (p : α → Bool) :
    (keys.map fun k => (group key k l).countP p).sum = l.countP p := by
  rw [← (flatMap_group_perm hkeys hl).countP_eq p, List.countP_flatMap]
  rfl

/-- A group has all of a count exactly when what is counted is in it. -/
theorem countP_group_eq_iff {k : κ} {l : List α} {p : α → Bool} :
    (group key k l).countP p = l.countP p ↔ ∀ a ∈ l, p a → key a = k := by
  have hcomm : (group key k l).countP p = ((l.filter p).filter fun a => key a = k).length := by
    rw [group, List.countP_eq_length_filter, List.filter_filter, List.filter_filter]
    apply congrArg List.length
    apply List.filter_congr
    intro a _
    exact Bool.and_comm _ _
  rw [hcomm, List.countP_eq_length_filter, List.length_filter_eq_length_iff]
  constructor
  · intro h a ha hp
    exact of_decide_eq_true (h a (List.mem_filter.2 ⟨ha, hp⟩))
  · intro h a ha
    obtain ⟨hmem, hp⟩ := List.mem_filter.1 ha
    exact decide_eq_true (h a hmem hp)

/-- A sum in which one of the summands is replaced. -/
theorem sum_map_replace {keys : List κ} (hkeys : keys.Nodup) {k : κ} (hk : k ∈ keys) (f : κ → Nat)
    (n : Nat) :
    (keys.map fun k' => if k' = k then n else f k').sum + f k = (keys.map f).sum + n := by
  have hsplit := List.perm_cons_erase hk
  have hothers : ((keys.erase k).map fun k' => if k' = k then n else f k') = (keys.erase k).map f := by
    apply List.map_congr_left
    intro k' hk'
    exact if_neg ((hkeys.mem_erase_iff).1 hk').1
  rw [(hsplit.map _).sum_nat, (hsplit.map f).sum_nat, List.map_cons, List.map_cons, List.sum_cons,
    List.sum_cons, hothers, if_pos rfl]
  omega

end Groups

/-- A page of a list, where the pages have `n` entries. -/
def page (n i : Nat) (l : List α) : List α := (l.drop (i * n)).take n

/-- The first pages are the beginning of the list. -/
theorem flatMap_page (n k : Nat) (l : List α) :
    ((List.range k).flatMap fun i => page n i l) = l.take (k * n) := by
  induction k with
  | zero => simp
  | succ k ih =>
      rw [List.range_succ, List.flatMap_append, ih, List.flatMap_singleton, page, Nat.succ_mul,
        List.take_add]

/-! ## Logs -/

section Logs

variable {σ : Type v} {ι : Type*} (step : σ → ι → σ) (takes : σ → ι → α → Bool)

/-- No action takes the entry, in the state it is performed in. -/
def spared : σ → List ι → α → Bool
  | _, [], _ => true
  | s, a :: actions, e => !takes s a e && spared (step s a) actions e

variable {step takes}

/-- When every action leaves what it does not take at the front, a run leaves what none of its
actions takes at the front. -/
theorem filter_spared_prefix {log : σ → List α}
    (hstep : ∀ s a, ((log s).filter fun e => !takes s a e) <+: log (step s a)) (s : σ)
    (actions : List ι) : (log s).filter (spared step takes s actions) <+:
      log (actions.foldl step s) := by
  induction actions generalizing s with
  | nil =>
      have hall : (log s).filter (spared step takes s []) = log s :=
        List.filter_eq_self.2 fun _ _ => rfl
      rw [hall]
      exact List.prefix_rfl
  | cons a actions ih =>
      -- what the first action spares, and of that what the other ones spare
      have hsplit : (log s).filter (spared step takes s (a :: actions)) =
          ((log s).filter fun e => !takes s a e).filter (spared step takes (step s a) actions) := by
        rw [List.filter_filter]
        apply List.filter_congr
        intro e _
        exact Bool.and_comm _ _
      rw [hsplit]
      exact ((hstep s a).filter _).trans (ih (step s a))

/-- Actions that take the same in every state. -/
theorem spared_eq_all (takes : ι → α → Bool) (s : σ) (actions : List ι) (e : α) :
    spared step (fun _ => takes) s actions e = actions.all fun a => !takes a e := by
  induction actions generalizing s with
  | nil => rfl
  | cons a actions ih => rw [spared, ih, List.all_cons]

end Logs

section Upserts

variable {κ : Type v} [DecidableEq κ] {key : α → κ} {update : α → α} {new : α} {rows : List α}

/-- What an update leaves as it is stays in every row, and a new row comes last. -/
theorem map_upsertBy_extends {β : Type*} {column : α → β}
    (hupdate : ∀ r, key r = key new → column (update r) = column r) :
    rows.map column <+: (upsertBy key update new rows).map column := by
  by_cases hold : ∃ old ∈ rows, key old = key new
  · obtain ⟨old, hmem, hkey⟩ := hold
    rw [upsertBy_of_mem hmem hkey, List.map_map]
    have hsame : (column ∘ fun r => if key r = key new then update r else r) = column := by
      funext r
      rw [Function.comp_apply]
      split
      case isTrue h => exact hupdate r h
      case isFalse => rfl
    exact (congrArg (rows.map ·) hsame).symm ▸ List.prefix_rfl
  · rw [upsertBy_of_new fun r hr hkey => hold ⟨r, hr, hkey⟩, List.map_append]
    exact List.prefix_append _ _

end Upserts

end TorE2EE.Foundation
