import Mathlib.Order.Lattice
import Mathlib.Tactic.Common

/-!
# Tables with a primary key

Rows of a table in the order of their primary key. `upsert` is insert-or-replace under the key of
the row, `lookup` the selection by key and `erase` the deletion by key. A selection after an
upsert is the new row at its own key and the old selection elsewhere (`lookup_upsert`).
-/

set_option autoImplicit false

namespace TorE2EE.Foundation.Rows

universe u v

variable {α : Type u} {κ : Type v} [LinearOrder κ] (key : α → κ)

/-- Insert a row, replacing the one under the same key. -/
def upsert (r : α) : List α → List α
  | [] => [r]
  | x :: xs =>
    if key r < key x then r :: x :: xs
    else if key r = key x then r :: xs
    else x :: upsert r xs

/-- The row under a key. -/
def lookup (k : κ) (rows : List α) : Option α := rows.find? fun r => key r = k

/-- Delete the row under a key. -/
def erase (k : κ) (rows : List α) : List α := rows.filter fun r => key r ≠ k

theorem lookup_cons (k : κ) (x : α) (xs : List α) :
    lookup key k (x :: xs) = if key x = k then some x else lookup key k xs := by
  by_cases hx : key x = k <;> simp [lookup, hx]

theorem lookup_upsert (k : κ) (r : α) (rows : List α) :
    lookup key k (upsert key r rows) = if key r = k then some r else lookup key k rows := by
  induction rows with
  | nil => simp [upsert, lookup_cons]
  | cons x xs ih =>
      rw [upsert]
      by_cases hlt : key r < key x
      · simp [hlt, lookup_cons]
      · by_cases heq : key r = key x
        · rw [if_neg hlt, if_pos heq, lookup_cons, lookup_cons, heq]
          by_cases hx : key x = k <;> simp [hx]
        · rw [if_neg hlt, if_neg heq, lookup_cons, lookup_cons, ih]
          by_cases hx : key x = k
          · have hr : key r ≠ k := fun h => heq (h.trans hx.symm)
            simp [hx, hr]
          · simp [hx]

@[simp] theorem lookup_upsert_self (r : α) (rows : List α) :
    lookup key (key r) (upsert key r rows) = some r := by
  simp [lookup_upsert]

theorem lookup_erase_self (k : κ) (rows : List α) : lookup key k (erase key k rows) = none := by
  simp [lookup, erase]

theorem mem_of_lookup {k : κ} {r : α} {rows : List α} (h : lookup key k rows = some r) :
    r ∈ rows ∧ key r = k :=
  ⟨List.mem_of_find?_eq_some h, by simpa using List.find?_some h⟩

theorem mem_of_mem_upsert {x r : α} {rows : List α} (h : x ∈ upsert key r rows) :
    x = r ∨ x ∈ rows := by
  induction rows with
  | nil => simpa [upsert] using h
  | cons y ys ih =>
      rw [upsert] at h
      split_ifs at h with hlt heq
      · simpa using h
      · rcases List.mem_cons.1 h with rfl | h
        · exact Or.inl rfl
        · exact Or.inr (List.mem_cons_of_mem _ h)
      · rcases List.mem_cons.1 h with rfl | h
        · exact Or.inr List.mem_cons_self
        · exact (ih h).imp_right (List.mem_cons_of_mem _)

/-! ## Rows of two types -/

section

variable {β : Type*} (key' : β → κ) {f : α → β} (hf : ∀ r, key' (f r) = key r)

include hf

theorem map_upsert (r : α) (rows : List α) :
    (upsert key r rows).map f = upsert key' (f r) (rows.map f) := by
  induction rows with
  | nil => rfl
  | cons x xs ih =>
      rw [upsert, List.map_cons, upsert, hf, hf]
      split_ifs
      · rfl
      · rfl
      · rw [List.map_cons, ih]

theorem map_erase (k : κ) (rows : List α) :
    (erase key k rows).map f = erase key' k (rows.map f) := by
  rw [erase, erase, List.filter_map]
  congr 2
  funext r
  rw [Function.comp_apply, hf]

theorem lookup_map (k : κ) (rows : List α) :
    lookup key' k (rows.map f) = (lookup key k rows).map f := by
  induction rows with
  | nil => rfl
  | cons x xs ih =>
      rw [List.map_cons, lookup_cons, lookup_cons, hf, ih]
      split_ifs
      · rfl
      · rfl

end

/-! ## Tables in key order -/

/-- The rows are in the order of their keys, which are distinct. -/
def Ordered (rows : List α) : Prop := rows.Pairwise fun r s => key r < key s

theorem Ordered.nodup {rows : List α} (h : Ordered key rows) : (rows.map key).Nodup :=
  List.pairwise_map.2 (h.imp fun hlt => hlt.ne)

theorem ordered_upsert {rows : List α} (h : Ordered key rows) (r : α) :
    Ordered key (upsert key r rows) := by
  induction rows with
  | nil => exact List.pairwise_singleton _ _
  | cons x xs ih =>
      obtain ⟨hx, hxs⟩ := List.pairwise_cons.1 h
      rw [upsert]
      split_ifs with hlt heq
      · refine List.pairwise_cons.2 ⟨?_, h⟩
        intro y hy
        rcases List.mem_cons.1 hy with rfl | hy
        · exact hlt
        · exact hlt.trans (hx y hy)
      · exact List.pairwise_cons.2 ⟨fun y hy => heq ▸ hx y hy, hxs⟩
      · refine List.pairwise_cons.2 ⟨?_, ih hxs⟩
        intro y hy
        rcases mem_of_mem_upsert key hy with rfl | hy
        · exact lt_of_le_of_ne (not_lt.1 hlt) (Ne.symm heq)
        · exact hx y hy

theorem ordered_erase {rows : List α} (h : Ordered key rows) (k : κ) :
    Ordered key (erase key k rows) :=
  List.Pairwise.filter _ h

/-- An upsert puts the row in the place of the one with its key. -/
theorem perm_upsert {rows : List α} (h : Ordered key rows) (r : α) :
    (upsert key r rows).Perm (r :: rows.filter fun s => key s ≠ key r) := by
  induction rows with
  | nil => exact List.Perm.refl _
  | cons x xs ih =>
      obtain ⟨hx, hxs⟩ := List.pairwise_cons.1 h
      rw [upsert]
      split_ifs with hlt heq
      · have hall : ∀ s ∈ x :: xs, decide (key s ≠ key r) = true := by
          intro s hs
          apply decide_eq_true
          rcases List.mem_cons.1 hs with rfl | hs
          · exact hlt.ne'
          · exact (hlt.trans (hx s hs)).ne'
        rw [List.filter_eq_self.2 hall]
      · have hall : ∀ s ∈ xs, decide (key s ≠ key r) = true :=
          fun s hs => decide_eq_true (heq ▸ (hx s hs).ne')
        rw [List.filter_cons_of_neg (by simp [heq]), List.filter_eq_self.2 hall]
      · rw [List.filter_cons_of_pos (by simpa using Ne.symm heq)]
        exact ((ih hxs).cons x).trans (List.Perm.swap _ _ _)

end TorE2EE.Foundation.Rows
