import Mathlib.Data.List.Nodup
import Mathlib.Tactic.Common

/-!
# Updates of a list without a lock

A stored list has entries with keys. A call puts one entry into it in two steps: it reads the list,
and later it writes the list it has read, with the entry in the place of the one under its key. Any
number of calls are under way and nothing orders their steps.

A call that writes an old list takes back what was written since. `kept_run_iff`: along a schedule the
stored list keeps its keys distinct, has an entry of every call that is done and loses no other
entry, in all states, if and only if every call that writes has read an entry for every call that is
done (`Current`).
-/

set_option autoImplicit false

namespace TorE2EE.Foundation

universe u v

/-- How far a call is. -/
inductive UpdatePhase (α : Type u) where
  | waiting
  | holding (read : List α)
  | done
  deriving DecidableEq

/-- A call that puts an entry into the list. -/
structure UpdateCall (α : Type u) where
  entry : α
  phase : UpdatePhase α

/-- The stored list and the calls under way. -/
structure UnlockedList (α : Type u) where
  stored : List α
  calls : List (UpdateCall α)

variable {α : Type u} {κ : Type v} [DecidableEq κ] (key : α → κ)

/-- The entry takes the place of the one under its key, and comes last. -/
def putEntry (entry : α) (entries : List α) : List α :=
  entries.filter (fun a => key a ≠ key entry) ++ [entry]

/-- The list has one of the passed entries under the key. -/
def HasPassed (passed : List α) (k : κ) (entries : List α) : Prop :=
  ∃ a ∈ passed, key a = k ∧ a ∈ entries

variable {key}

theorem mem_putEntry_of_ne {entry a : α} {entries : List α} (h : key a ≠ key entry) :
    a ∈ putEntry key entry entries ↔ a ∈ entries := by
  have hne : a ≠ entry := fun heq => h (congrArg key heq)
  simp [putEntry, h, hne]

theorem mem_putEntry_self (entry : α) (entries : List α) : entry ∈ putEntry key entry entries :=
  List.mem_append_right _ List.mem_cons_self

theorem nodup_putEntry {entry : α} {entries : List α} (h : (entries.map key).Nodup) :
    ((putEntry key entry entries).map key).Nodup := by
  rw [putEntry, List.map_append, List.nodup_append]
  refine ⟨h.sublist (List.filter_sublist.map key), List.nodup_singleton _, ?_⟩
  intro k hk k' hk'
  obtain ⟨a, ha, rfl⟩ := List.mem_map.1 hk
  rw [List.map_singleton, List.mem_singleton] at hk'
  rw [hk']
  exact of_decide_eq_true (List.mem_filter.1 ha).2

/-- A list under way has an entry under another key exactly when the list that was read has. -/
theorem hasPassed_putEntry_iff {passed entries : List α} {entry : α} {k : κ} (h : k ≠ key entry) :
    HasPassed key passed k (putEntry key entry entries) ↔ HasPassed key passed k entries := by
  constructor
  · rintro ⟨a, ha, rfl, hmem⟩
    exact ⟨a, ha, rfl, (mem_putEntry_of_ne h).1 hmem⟩
  · rintro ⟨a, ha, rfl, hmem⟩
    exact ⟨a, ha, rfl, (mem_putEntry_of_ne h).2 hmem⟩

namespace UnlockedList

/-- The entries that were passed. -/
def passed (s : UnlockedList α) : List α := s.calls.map UpdateCall.entry

variable (key)

/-- The next step of a call: it reads, or it writes; a call that is done stays as it is. -/
def step (s : UnlockedList α) (i : Nat) : UnlockedList α :=
  match s.calls[i]? with
  | none => s
  | some c =>
      match c.phase with
      | .waiting => { s with calls := s.calls.set i { c with phase := .holding s.stored } }
      | .holding read =>
          { stored := putEntry key c.entry read
            calls := s.calls.set i { c with phase := .done } }
      | .done => s

/-- The steps of a schedule. -/
def run (s : UnlockedList α) (schedule : List Nat) : UnlockedList α := schedule.foldl (step key) s

/-- The keys are distinct, every call that is done has an entry under its key, and no entry of the
first list under another key is lost. -/
structure Kept (first : List α) (s : UnlockedList α) : Prop where
  distinct : (s.stored.map key).Nodup
  passed : ∀ c ∈ s.calls, c.phase = .done → HasPassed key s.passed (key c.entry) s.stored
  others : ∀ a ∈ first, (∀ b ∈ s.passed, key b ≠ key a) → a ∈ s.stored

/-- A call that writes next has read an entry for every call that is done, but for its own key. -/
def Current (s : UnlockedList α) (i : Nat) : Prop :=
  ∀ c read, s.calls[i]? = some c → c.phase = .holding read →
    ∀ d ∈ s.calls, d.phase = .done → key d.entry ≠ key c.entry →
      HasPassed key s.passed (key d.entry) read

/-- Every step of a schedule is current when its turn comes. -/
def AllCurrent : UnlockedList α → List Nat → Prop
  | _, [] => True
  | s, i :: schedule => Current key s i ∧ AllCurrent (step key s i) schedule

instance decidableHasPassed [DecidableEq α] (passed : List α) (k : κ) (entries : List α) :
    Decidable (HasPassed key passed k entries) :=
  inferInstanceAs (Decidable (∃ a ∈ passed, key a = k ∧ a ∈ entries))

omit [DecidableEq κ] in
/-- What a call has read decides whether its step is current. -/
theorem current_iff {s : UnlockedList α} {i : Nat} {c : UpdateCall α}
    (hc : s.calls[i]? = some c) : Current key s i ↔
      ∀ read, c.phase = .holding read → ∀ d ∈ s.calls, d.phase = .done →
        key d.entry ≠ key c.entry → HasPassed key s.passed (key d.entry) read := by
  constructor
  · intro hcurrent read
    exact hcurrent c read hc
  · intro hcurrent c' read hc'
    cases hc.symm.trans hc'
    exact hcurrent read

instance decidableCurrent [DecidableEq α] (s : UnlockedList α) (i : Nat) :
    Decidable (Current key s i) :=
  match h : s.calls[i]? with
  | none => .isTrue fun c read hc => by cases h.symm.trans hc
  | some c =>
      match hphase : c.phase with
      | .holding read =>
          decidable_of_iff (∀ d ∈ s.calls, d.phase = .done → key d.entry ≠ key c.entry →
            HasPassed key s.passed (key d.entry) read) (by simp [current_iff key h, hphase])
      | .waiting => .isTrue (by simp [current_iff key h, hphase])
      | .done => .isTrue (by simp [current_iff key h, hphase])

instance decidableAllCurrent [DecidableEq α] :
    (s : UnlockedList α) → (schedule : List Nat) → Decidable (AllCurrent key s schedule)
  | _, [] => .isTrue trivial
  | s, i :: schedule =>
      @instDecidableAnd _ _ (decidableCurrent key s i)
        (decidableAllCurrent (step key s i) schedule)

/-- The lists that calls have read have distinct keys and no entry of the first list is missing, but
under the keys that were passed. -/
def SoundReads (first : List α) (s : UnlockedList α) : Prop :=
  ∀ c ∈ s.calls, ∀ read, c.phase = .holding read → (read.map key).Nodup ∧
    ∀ a ∈ first, (∀ b ∈ s.passed, key b ≠ key a) → a ∈ read

variable {key} {s : UnlockedList α} {first : List α} {i : Nat}

/-- Moving one call on changes no entry. -/
theorem map_entry_set {calls : List (UpdateCall α)} {c : UpdateCall α} (hc : calls[i]? = some c)
    (phase : UpdatePhase α) :
    (calls.set i { c with phase }).map UpdateCall.entry = calls.map UpdateCall.entry := by
  apply List.ext_getElem?
  intro j
  rw [List.getElem?_map, List.getElem?_map]
  by_cases hj : i = j
  · subst hj
    obtain ⟨hi, -⟩ := List.getElem?_eq_some_iff.1 hc
    rw [List.getElem?_set_self hi, hc]
    rfl
  · rw [List.getElem?_set_ne hj]

theorem passed_step (s : UnlockedList α) (i : Nat) : (s.step key i).passed = s.passed := by
  rw [step]
  cases hc : s.calls[i]? with
  | none => rfl
  | some c =>
      dsimp only
      cases c.phase with
      | waiting => exact map_entry_set hc _
      | holding read => exact map_entry_set hc _
      | done => rfl

/-- A call that is done stays in the list when another one is moved on. -/
theorem mem_set_of_done {calls : List (UpdateCall α)} {c d : UpdateCall α} (hc : calls[i]? = some c)
    (hcphase : c.phase ≠ .done) (hd : d ∈ calls) (hdone : d.phase = .done) (c' : UpdateCall α) :
    d ∈ calls.set i c' := by
  obtain ⟨j, hj⟩ := List.getElem?_of_mem hd
  have hne : i ≠ j := by
    rintro rfl
    cases hc.symm.trans hj
    exact hcphase hdone
  rw [← List.getElem?_set_ne hne] at hj
  exact List.mem_of_getElem? hj

/-- The step lemma: from a state in which everything is kept and the lists under way are sound, a step
keeps everything exactly when it is current, and the lists under way stay sound. -/
theorem kept_step_iff (hkept : Kept key first s) (hreads : SoundReads key first s) (i : Nat) :
    (Kept key first (s.step key i) ↔ s.Current key i) ∧ SoundReads key first (s.step key i) := by
  have hpassed : (s.step key i).passed = s.passed := passed_step s i
  cases hc : s.calls[i]? with
  | none =>
      have hstep : s.step key i = s := by rw [step, hc]
      rw [hstep]
      refine ⟨iff_of_true hkept ?_, hreads⟩
      intro c read h
      rw [hc] at h
      cases h
  | some c =>
      have hcmem : c ∈ s.calls := List.mem_of_getElem? hc
      cases hphase : c.phase with
      | waiting =>
          -- a read: the stored list is sound, and nothing is written
          have hstep : s.step key i =
              { s with calls := s.calls.set i { c with phase := .holding s.stored } } := by
            simp only [step, hc, hphase]
          rw [hstep] at hpassed ⊢
          refine ⟨iff_of_true ⟨hkept.distinct, ?_, ?_⟩ ?_, ?_⟩
          · intro d hd hdone
            rw [hpassed]
            rcases List.mem_or_eq_of_mem_set hd with hold | rfl
            · exact hkept.passed d hold hdone
            · cases hdone
          · intro a ha hother
            rw [hpassed] at hother
            exact hkept.others a ha hother
          · intro c' read h hread
            cases hc.symm.trans h
            rw [hphase] at hread
            cases hread
          · intro d hd read hread
            rw [hpassed]
            rcases List.mem_or_eq_of_mem_set hd with hold | rfl
            · exact hreads d hold read hread
            · cases hread
              exact ⟨hkept.distinct, hkept.others⟩
      | holding read =>
          -- a write: the list that was read is stored, with the entry
          have hstep : s.step key i =
              { stored := putEntry key c.entry read
                calls := s.calls.set i { c with phase := .done } } := by
            simp only [step, hc, hphase]
          obtain ⟨hdistinct, hothers⟩ := hreads c hcmem read hphase
          have hown : c.entry ∈ s.passed := List.mem_map_of_mem hcmem
          rw [hstep] at hpassed ⊢
          refine ⟨⟨?_, ?_⟩, ?_⟩
          · intro hafter c' read' h hread d hd hdone hne
            cases hc.symm.trans h
            cases hphase.symm.trans hread
            have hkeep := hafter.passed d
              (mem_set_of_done hc (by rw [hphase]; exact fun h => by cases h) hd hdone _) hdone
            rw [hpassed] at hkeep
            exact (hasPassed_putEntry_iff hne).1 hkeep
          · intro hcurrent
            refine ⟨nodup_putEntry hdistinct, ?_, ?_⟩
            · intro d hd hdone
              rw [hpassed]
              by_cases hkey : key d.entry = key c.entry
              · exact ⟨c.entry, hown, hkey.symm, mem_putEntry_self _ _⟩
              · rcases List.mem_or_eq_of_mem_set hd with hold | rfl
                · exact (hasPassed_putEntry_iff hkey).2
                    (hcurrent c read hc hphase d hold hdone hkey)
                · exact absurd rfl hkey
            · intro a ha hother
              rw [hpassed] at hother
              have hne : key a ≠ key c.entry := fun h => hother c.entry hown h.symm
              exact (mem_putEntry_of_ne hne).2 (hothers a ha hother)
          · intro d hd read' hread
            rw [hpassed]
            rcases List.mem_or_eq_of_mem_set hd with hold | rfl
            · exact hreads d hold read' hread
            · cases hread
      | done =>
          have hstep : s.step key i = s := by simp only [step, hc, hphase]
          rw [hstep]
          refine ⟨iff_of_true hkept ?_, hreads⟩
          intro c' read h hread
          cases hc.symm.trans h
          rw [hphase] at hread
          cases hread

/-- The run lemma: everything is kept in all states along a schedule exactly when all steps are
current. -/
theorem kept_run_iff (hkept : Kept key first s) (hreads : SoundReads key first s)
    (schedule : List Nat) :
    (∀ n, Kept key first (s.run key (schedule.take n))) ↔ s.AllCurrent key schedule := by
  induction schedule generalizing s with
  | nil =>
      refine iff_of_true ?_ True.intro
      intro n
      rw [List.take_nil]
      exact hkept
  | cons i schedule ih =>
      obtain ⟨hiff, hreads'⟩ := kept_step_iff hkept hreads i
      constructor
      · intro hall
        have hfirst : Kept key first (s.step key i) := hall 1
        exact ⟨hiff.1 hfirst, (ih hfirst hreads').1 fun n => hall (n + 1)⟩
      · rintro ⟨hcurrent, hrest⟩ n
        cases n with
        | zero => exact hkept
        | succ n => exact (ih (hiff.2 hcurrent) hreads').2 hrest n

/-- The calls before their first steps. -/
def start (stored : List α) (entries : List α) : UnlockedList α :=
  { stored, calls := entries.map fun entry => { entry, phase := .waiting } }

theorem passed_start (stored entries : List α) : (start stored entries).passed = entries := by
  simp [passed, start, Function.comp_def]

omit [DecidableEq κ] in
theorem kept_start {stored : List α} (h : (stored.map key).Nodup) (entries : List α) :
    Kept key stored (start stored entries) where
  distinct := h
  passed := by
    intro c hc hdone
    obtain ⟨entry, -, rfl⟩ := List.mem_map.1 hc
    cases hdone
  others := fun a ha _ => ha

omit [DecidableEq κ] in
theorem soundReads_start (stored entries : List α) :
    SoundReads key stored (start stored entries) := by
  intro c hc read hread
  obtain ⟨entry, -, rfl⟩ := List.mem_map.1 hc
  cases hread

end UnlockedList

end TorE2EE.Foundation
