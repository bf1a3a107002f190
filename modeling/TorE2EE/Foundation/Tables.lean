import TorE2EE.Foundation.Rows
import Mathlib.Data.List.Forall2
import Mathlib.Data.List.MinMax
import Mathlib.Data.List.Nodup

/-!
# Tables in insertion order

A table whose key does not order it: `upsertBy` appends a row whose key is new, and updates the row
that has the key otherwise, where it stands. The rules say which rows are there afterwards and what
an upsert keeps, among it that a column has no repetitions. `SameRows` compares such a table with one
in the order of its key.
-/

set_option autoImplicit false

namespace TorE2EE.Foundation

universe u v

variable {α : Type u} {κ : Type v} [DecidableEq κ] (key : α → κ)

/-- `INSERT ... ON CONFLICT(key) DO UPDATE`. -/
def upsertBy (update : α → α) (new : α) (rows : List α) : List α :=
  if ∃ r ∈ rows, key r = key new then rows.map fun r => if key r = key new then update r else r
  else rows ++ [new]

variable {key} {update : α → α} {new : α} {rows : List α}

theorem upsertBy_of_new (h : ∀ r ∈ rows, key r ≠ key new) :
    upsertBy key update new rows = rows ++ [new] := by
  apply if_neg
  rintro ⟨r, hr, hkey⟩
  exact h r hr hkey

theorem upsertBy_of_mem {old : α} (h : old ∈ rows) (hkey : key old = key new) :
    upsertBy key update new rows = rows.map fun r => if key r = key new then update r else r :=
  if_pos ⟨old, h, hkey⟩

/-- The rows after an upsert. -/
theorem mem_upsertBy {r : α} (h : r ∈ upsertBy key update new rows) :
    r = new ∨ (r ∈ rows ∧ key r ≠ key new) ∨ ∃ old ∈ rows, key old = key new ∧ r = update old := by
  by_cases hold : ∃ old ∈ rows, key old = key new
  · obtain ⟨old, hmem, hkey⟩ := hold
    rw [upsertBy_of_mem hmem hkey] at h
    obtain ⟨r', hr', rfl⟩ := List.mem_map.1 h
    by_cases hsame : key r' = key new
    · exact Or.inr (Or.inr ⟨r', hr', hsame, if_pos hsame⟩)
    · rw [if_neg hsame]
      exact Or.inr (Or.inl ⟨hr', hsame⟩)
  · have hnew : ∀ r ∈ rows, key r ≠ key new := fun r hr hkey => hold ⟨r, hr, hkey⟩
    rw [upsertBy_of_new hnew] at h
    rcases List.mem_append.1 h with hr | hr
    · exact Or.inr (Or.inl ⟨hr, hnew r hr⟩)
    · exact Or.inl (List.mem_singleton.1 hr)

/-- The other rows stay. -/
theorem mem_upsertBy_of_ne {r : α} (hr : r ∈ rows) (hne : key r ≠ key new) :
    r ∈ upsertBy key update new rows := by
  by_cases hold : ∃ old ∈ rows, key old = key new
  · obtain ⟨old, hmem, hkey⟩ := hold
    rw [upsertBy_of_mem hmem hkey]
    exact List.mem_map.2 ⟨r, hr, if_neg hne⟩
  · rw [upsertBy_of_new fun r hr hkey => hold ⟨r, hr, hkey⟩]
    exact List.mem_append_left _ hr

/-- There is a row under the key afterwards. -/
theorem exists_mem_upsertBy (hupdate : ∀ r, key r = key new → key (update r) = key new) :
    ∃ r ∈ upsertBy key update new rows, key r = key new := by
  by_cases hold : ∃ old ∈ rows, key old = key new
  · obtain ⟨old, hmem, hkey⟩ := hold
    refine ⟨update old, ?_, hupdate old hkey⟩
    rw [upsertBy_of_mem hmem hkey]
    exact List.mem_map.2 ⟨old, hmem, if_pos hkey⟩
  · rw [upsertBy_of_new fun r hr hkey => hold ⟨r, hr, hkey⟩]
    exact ⟨new, List.mem_append_right _ List.mem_cons_self, rfl⟩

/-- What holds of every row and of the one written holds of every row afterwards. -/
theorem forall_upsertBy {p : α → Prop} (hrows : ∀ r ∈ rows, p r) (hnew : p new)
    (hupdate : ∀ r ∈ rows, key r = key new → p (update r)) :
    ∀ r ∈ upsertBy key update new rows, p r := by
  intro r hr
  rcases mem_upsertBy hr with rfl | ⟨hmem, -⟩ | ⟨old, hmem, hkey, rfl⟩
  · exact hnew
  · exact hrows r hmem
  · exact hupdate old hmem hkey

/-- The row under the key afterwards. -/
theorem find?_upsertBy (hupdate : ∀ r, key r = key new → key (update r) = key new) :
    (upsertBy key update new rows).find? (fun r => key r = key new) =
      some (((rows.find? fun r => key r = key new).map update).getD new) := by
  by_cases hold : ∃ old ∈ rows, key old = key new
  · obtain ⟨old, hmem, hkey⟩ := hold
    rw [upsertBy_of_mem hmem hkey, List.find?_map]
    have hsame : ((fun r => decide (key r = key new)) ∘
        fun r => if key r = key new then update r else r) = fun r => decide (key r = key new) := by
      funext r
      by_cases hr : key r = key new
      · simp [hr, hupdate r hr]
      · simp [hr]
    rw [hsame]
    cases hfound : rows.find? fun r => key r = key new with
    | none => simpa [hkey] using List.find?_eq_none.1 hfound old hmem
    | some r =>
        have hr : key r = key new := by simpa using List.find?_some hfound
        simp [hr]
  · have hnew : ∀ r ∈ rows, key r ≠ key new := fun r hr hkey => hold ⟨r, hr, hkey⟩
    have hnone : (rows.find? fun r => key r = key new) = none := by
      simpa using hnew
    rw [upsertBy_of_new hnew, List.find?_append, hnone]
    simp

/-- Two upserts of related rows under one key into related tables. -/
theorem forall₂_upsertBy {R : α → α → Prop} {update' : α → α} {new' : α} {rows' : List α}
    (hkey : ∀ r r', R r r' → key r = key r') (hrows : List.Forall₂ R rows rows') (hnew : R new new')
    (hupdate : ∀ r r', R r r' → key r = key new → R (update r) (update' r')) :
    List.Forall₂ R (upsertBy key update new rows) (upsertBy key update' new' rows') := by
  -- related tables have the same keys, so both are updated or both grow
  have hsame : (∃ r ∈ rows, key r = key new) ↔ ∃ r ∈ rows', key r = key new' := by
    rw [hkey new new' hnew]
    clear hupdate
    induction hrows with
    | nil => simp
    | cons hr _ ih => simp only [List.exists_mem_cons_iff, ih, hkey _ _ hr]
  unfold upsertBy
  by_cases hold : ∃ r ∈ rows, key r = key new
  · rw [if_pos hold, if_pos (hsame.1 hold)]
    clear hold hsame
    induction hrows with
    | nil => exact List.Forall₂.nil
    | @cons r r' rows rows' hr _ ih =>
        refine List.Forall₂.cons ?_ ih
        dsimp only
        rw [← hkey _ _ hr, ← hkey _ _ hnew]
        by_cases hmatch : key r = key new
        · rw [if_pos hmatch, if_pos hmatch]
          exact hupdate r r' hr hmatch
        · rw [if_neg hmatch, if_neg hmatch]
          exact hr
  · rw [if_neg hold, if_neg fun h => hold (hsame.2 h)]
    exact List.rel_append hrows (List.Forall₂.cons hnew List.Forall₂.nil)

/-! ## Columns without repetitions -/

section

variable {β : Type*} {column : α → β}

/-- An upsert that keeps the key of the row it updates keeps the keys distinct. -/
theorem nodup_upsertBy (hupdate : ∀ r, key r = key new → key (update r) = key new)
    (h : (rows.map key).Nodup) : ((upsertBy key update new rows).map key).Nodup := by
  by_cases hold : ∃ old ∈ rows, key old = key new
  · obtain ⟨old, hmem, hkey⟩ := hold
    rw [upsertBy_of_mem hmem hkey, List.map_map]
    have hsame : (key ∘ fun r => if key r = key new then update r else r) = key := by
      funext r
      by_cases hr : key r = key new
      · simp [hr, hupdate r hr]
      · simp [hr]
    rwa [hsame]
  · have hnew : ∀ r ∈ rows, key r ≠ key new := fun r hr hkey => hold ⟨r, hr, hkey⟩
    rw [upsertBy_of_new hnew, List.map_append, List.nodup_append]
    refine ⟨h, List.nodup_singleton _, ?_⟩
    intro k hk k' hk'
    obtain ⟨r, hr, rfl⟩ := List.mem_map.1 hk
    rw [List.map_singleton, List.mem_singleton] at hk'
    rw [hk']
    exact hnew r hr

/-- An upsert that writes a second column keeps that column without repetitions if and only if no
row under another key has the value that is written. -/
theorem nodup_column_upsertBy_iff (hkeys : (rows.map key).Nodup) (h : (rows.map column).Nodup)
    (hupdate : ∀ r, key r = key new → column (update r) = column new) :
    ((upsertBy key update new rows).map column).Nodup ↔
      ∀ r ∈ rows, column r = column new → key r = key new := by
  by_cases hold : ∃ old ∈ rows, key old = key new
  · obtain ⟨old, hmem, hkey⟩ := hold
    rw [upsertBy_of_mem hmem hkey, List.map_map]
    let written := fun r => if key r = key new then update r else r
    have hwritten : ∀ r, key r = key new → column (written r) = column new := by
      intro r hr
      rw [show written r = update r from if_pos hr, hupdate r hr]
    have hother : ∀ r, key r ≠ key new → written r = r := fun r hr => if_neg hr
    constructor
    · intro hnodup r hr hvalue
      by_contra hne
      -- the row and the one that is written would be two with the value
      have hequal : (column ∘ written) r = (column ∘ written) old := by
        rw [Function.comp_apply, Function.comp_apply, hother r hne, hwritten old hkey, hvalue]
      exact hne ((List.inj_on_of_nodup_map hnodup hr hmem hequal) ▸ hkey)
    · intro hfree
      apply List.Nodup.map_on
      · intro r hr s hs hequal
        rw [Function.comp_apply, Function.comp_apply] at hequal
        by_cases hkeyr : key r = key new
        · by_cases hkeys' : key s = key new
          · exact List.inj_on_of_nodup_map hkeys hr hs (hkeyr.trans hkeys'.symm)
          · change column (written r) = column (written s) at hequal
            rw [hwritten r hkeyr, hother s hkeys'] at hequal
            exact absurd (hfree s hs hequal.symm) hkeys'
        · change column (written r) = column (written s) at hequal
          by_cases hkeys' : key s = key new
          · rw [hother r hkeyr, hwritten s hkeys'] at hequal
            exact absurd (hfree r hr hequal) hkeyr
          · rw [hother r hkeyr, hother s hkeys'] at hequal
            exact List.inj_on_of_nodup_map h hr hs hequal
      · exact List.Nodup.of_map key hkeys
  · have hnew : ∀ r ∈ rows, key r ≠ key new := fun r hr hkey => hold ⟨r, hr, hkey⟩
    rw [upsertBy_of_new hnew, List.map_append, List.nodup_append]
    constructor
    · rintro ⟨-, -, hdisjoint⟩ r hr hvalue
      exact absurd hvalue (hdisjoint _ (List.mem_map_of_mem hr) _ List.mem_cons_self)
    · intro hfree
      refine ⟨h, List.nodup_singleton _, ?_⟩
      intro c hc c' hc' hequal
      obtain ⟨r, hr, rfl⟩ := List.mem_map.1 hc
      rw [List.map_singleton, List.mem_singleton] at hc'
      exact hnew r hr (hfree r hr (hequal.trans hc'))

end

/-! ## The same rows in two orders -/

section

variable {κ : Type v} [LinearOrder κ] {key : α → κ} {rows entries : List α}

/-- A table in key order and one in another order with the same rows. -/
structure SameRows (key : α → κ) (rows entries : List α) : Prop where
  ordered : Rows.Ordered key rows
  perm : rows.Perm entries

omit [LinearOrder κ] in
/-- An upsert into a table with distinct keys puts the row in the place of the one with its key. -/
theorem perm_upsertBy [DecidableEq κ] (h : (entries.map key).Nodup) (r : α) :
    (upsertBy key (fun _ => r) r entries).Perm (r :: entries.filter fun s => key s ≠ key r) := by
  by_cases hold : ∃ s ∈ entries, key s = key r
  · have hreplaced : upsertBy key (fun _ => r) r entries =
        entries.map fun s => if key s = key r then r else s := if_pos hold
    rw [hreplaced]
    clear hreplaced
    induction entries with
    | nil => simp at hold
    | cons x xs ih =>
        obtain ⟨hx, hxs⟩ := List.nodup_cons.1 h
        rw [List.map_cons]
        by_cases hkey : key x = key r
        · -- the row to replace is the first one: the others have other keys
          have hall : ∀ s ∈ xs, decide (key s ≠ key r) = true := fun s hs =>
            decide_eq_true fun hs' => hx (List.mem_map.2 ⟨s, hs, hs'.trans hkey.symm⟩)
          have hmap : xs.map (fun s => if key s = key r then r else s) = xs.map id :=
            List.map_congr_left fun s hs => if_neg (of_decide_eq_true (hall s hs))
          rw [if_pos hkey, List.filter_cons_of_neg (by simp [hkey]), List.filter_eq_self.2 hall, hmap,
            List.map_id]
        · rw [if_neg hkey, List.filter_cons_of_pos (by simpa using hkey)]
          have hrest : ∃ s ∈ xs, key s = key r := by
            obtain ⟨s, hs, hs'⟩ := hold
            rcases List.mem_cons.1 hs with rfl | hs
            · exact absurd hs' hkey
            · exact ⟨s, hs, hs'⟩
          exact ((ih hxs hrest).cons x).trans (List.Perm.swap _ _ _)
  · have hall : ∀ s ∈ entries, decide (key s ≠ key r) = true :=
      fun s hs => decide_eq_true fun hs' => hold ⟨s, hs, hs'⟩
    rw [upsertBy_of_new fun s hs hs' => hold ⟨s, hs, hs'⟩, List.filter_eq_self.2 hall]
    exact List.perm_append_singleton r entries

namespace SameRows

variable (h : SameRows key rows entries)

include h

theorem nodup : (entries.map key).Nodup := ((h.perm.map key).nodup_iff).1 (h.ordered.nodup)

theorem upsert (r : α) :
    SameRows key (Rows.upsert key r rows) (upsertBy key (fun _ => r) r entries) where
  ordered := Rows.ordered_upsert key h.ordered r
  perm := (Rows.perm_upsert key h.ordered r).trans
    (((h.perm.filter _).cons r).trans (perm_upsertBy h.nodup r).symm)

theorem erase (k : κ) :
    SameRows key (Rows.erase key k rows) (entries.filter fun r => key r ≠ k) where
  ordered := Rows.ordered_erase key h.ordered k
  perm := h.perm.filter _

/-- The row under a key is the same. -/
theorem lookup (k : κ) : Rows.lookup key k rows = entries.find? fun r => key r = k := by
  cases hfind : entries.find? fun r => key r = k with
  | none =>
      apply List.find?_eq_none.2
      intro r hr
      exact List.find?_eq_none.1 hfind r (h.perm.mem_iff.1 hr)
  | some r =>
      have hr := List.mem_of_find?_eq_some hfind
      have hkey : key r = k := by simpa using List.find?_some hfind
      cases hlookup : Rows.lookup key k rows with
      | none => exact absurd hkey (by simpa using List.find?_eq_none.1 hlookup r (h.perm.mem_iff.2 hr))
      | some s =>
          obtain ⟨hs, hs'⟩ := Rows.mem_of_lookup key hlookup
          rw [List.inj_on_of_nodup_map h.nodup (h.perm.mem_iff.1 hs) hr (hs'.trans hkey.symm)]

end SameRows

theorem argmax_map {α' β : Type*} [LinearOrder β] (f : α → α') (g : α' → β) (l : List α) :
    (l.map f).argmax g = (l.argmax fun r => g (f r)).map f := by
  induction l with
  | nil => rfl
  | cons x xs ih =>
      rw [List.map_cons, List.argmax_cons, List.argmax_cons, ih]
      cases xs.argmax fun r => g (f r) with
      | none => rfl
      | some r =>
          show (if g (f x) < g (f r) then some (f r) else some (f x)) =
            (if g (f x) < g (f r) then some r else some x).map f
          split_ifs
          · rfl
          · rfl

/-- The row with the greatest value does not depend on the order, when no two rows have one value. -/
theorem argmax_of_perm {β : Type*} [LinearOrder β] {f : α → β} {l l' : List α} (h : l.Perm l')
    (hf : ∀ r ∈ l, ∀ s ∈ l, f r = f s → r = s) : l.argmax f = l'.argmax f := by
  cases hmax : l'.argmax f with
  | none =>
      rw [List.argmax_eq_none] at hmax ⊢
      rw [hmax] at h
      exact h.eq_nil
  | some r =>
      have hr := h.mem_iff.2 (List.argmax_mem hmax)
      cases hl : l.argmax f with
      | none =>
          rw [List.argmax_eq_none.1 hl] at hr
          cases hr
      | some s =>
          have hs := List.argmax_mem hl
          congr 1
          apply hf s hs r hr
          apply le_antisymm
          · exact List.le_of_mem_argmax (h.mem_iff.1 hs) hmax
          · exact List.le_of_mem_argmax hr hl

/-! ## Maps in insertion order -/

namespace Entries

/-- Setting a key: its entry is replaced where it stands, and a new key comes last. -/
def set (k : κ) (r : α) (entries : List (κ × α)) : List (κ × α) :=
  upsertBy Prod.fst (fun _ => (k, r)) (k, r) entries

/-- The value of a key. -/
def get (k : κ) (entries : List (κ × α)) : Option α :=
  (entries.find? fun entry => entry.1 = k).map Prod.snd

/-- Deleting a key. -/
def delete (k : κ) (entries : List (κ × α)) : List (κ × α) :=
  entries.filter fun entry => entry.1 ≠ k

end Entries

/-- A table in key order and a map from the keys to the rows with the same content. -/
def SameEntries (key : α → κ) (rows : List α) (entries : List (κ × α)) : Prop :=
  SameRows Prod.fst (rows.map fun r => (key r, r)) entries

namespace SameEntries

variable {entries : List (κ × α)}

theorem nil : SameEntries key [] [] := ⟨List.Pairwise.nil, List.Perm.nil⟩

variable (h : SameEntries key rows entries)

include h

theorem set (r : α) : SameEntries key (Rows.upsert key r rows) (Entries.set (key r) r entries) := by
  have hset := SameRows.upsert h (key r, r)
  rwa [← Rows.map_upsert key Prod.fst (f := fun r => (key r, r)) fun _ => rfl] at hset

theorem delete (k : κ) : SameEntries key (Rows.erase key k rows) (Entries.delete k entries) := by
  have hdelete := SameRows.erase h k
  rwa [← Rows.map_erase key Prod.fst (f := fun r => (key r, r)) fun _ => rfl] at hdelete

theorem get (k : κ) : Rows.lookup key k rows = Entries.get k entries := by
  have hget := SameRows.lookup h k
  rw [Rows.lookup_map key Prod.fst fun _ => rfl] at hget
  rw [Entries.get, ← hget, Option.map_map]
  exact (Option.map_id_apply).symm

theorem values : rows.Perm (entries.map Prod.snd) := by
  have hvalues := h.perm.map Prod.snd
  have hid : (Prod.snd ∘ fun r => (key r, r)) = id := rfl
  rwa [List.map_map, hid, List.map_id] at hvalues

theorem size : rows.length = entries.length := by
  have hsize := h.values.length_eq
  rwa [List.length_map] at hsize

end SameEntries

end

end TorE2EE.Foundation
