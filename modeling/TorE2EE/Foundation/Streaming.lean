import Mathlib.Data.List.Basic
import Mathlib.Data.List.Infix

/-!
# Cutting records off a growing buffer

A `RecordReader` looks for a record at the front of a buffer and says how much of the buffer the
record takes. `loop` is the reader's loop over an object that holds the buffer: it cuts record after
record and hands each to the object, until none is complete. `Cuts` is what the loop finds on a
fixed buffer. Since a record that is found stays found when more arrives, the cut does not depend on
how the input was split into chunks (`feed_of_cuts`), and of an encoded stream that has arrived in
part it finds exactly the complete records (`cuts_complete`).
-/

set_option autoImplicit false

namespace TorE2EE.Foundation

universe u

variable {α β γ σ : Type u}

/-- A reader of records: `next` finds the first record of a buffer and the number of elements it
takes, at least one and no more than there are, whatever follows in the buffer. -/
structure RecordReader (β α : Type u) where
  next : List β → Option (α × Nat)
  pos_of_next : ∀ {b a n}, next b = some (a, n) → 0 < n
  le_of_next : ∀ {b a n}, next b = some (a, n) → n ≤ b.length
  next_append : ∀ {b a n}, next b = some (a, n) → ∀ c, next (b ++ c) = some (a, n)

/-- An object with a buffer among its fields. -/
structure Buffered (β σ : Type u) where
  buffer : List β
  fields : σ

namespace RecordReader

variable (R : RecordReader β α)

/-- The reader of a buffer whose elements carry more than `R` looks at. -/
def comap (f : γ → β) : RecordReader γ α where
  next b := R.next (b.map f)
  pos_of_next h := R.pos_of_next h
  le_of_next h := by simpa using R.le_of_next h
  next_append h c := by simpa using R.next_append h (c.map f)

/-- Cut records off the buffer and hand each to the object until none is complete. The result is
`none` when the loop is still running after `fuel` rounds. -/
def loop (handle : α → Buffered β σ → Buffered β σ) : Nat → Buffered β σ → Option (Buffered β σ)
  | 0, _ => none
  | fuel + 1, x =>
    match R.next x.buffer with
    | none => some x
    | some (a, n) => loop handle fuel (handle a { x with buffer := x.buffer.drop n })

/-- What the loop does with one more chunk of input. -/
def receive (handle : α → Buffered β σ → Buffered β σ) (fuel : Nat) (x : Buffered β σ)
    (chunk : List β) : Option (Buffered β σ) :=
  R.loop handle fuel { x with buffer := x.buffer ++ chunk }

/-- One chunk after the other. -/
def feed (handle : α → Buffered β σ → Buffered β σ) (fuel : Nat) (chunks : List (List β))
    (x : Buffered β σ) : Option (Buffered β σ) :=
  chunks.foldlM (R.receive handle fuel) x

/-- A handler with a record of what it was called with. -/
def recording (handle : α → Buffered β σ → Buffered β σ) (a : α)
    (x : Buffered β (σ × List α)) : Buffered β (σ × List α) :=
  let y := handle a ⟨x.buffer, x.fields.1⟩
  ⟨y.buffer, y.fields, x.fields.2 ++ [a]⟩

/-- The records at the front of a buffer, and what is left of it. -/
inductive Cuts : List β → List α → List β → Prop
  | stop {b : List β} (h : R.next b = none) : Cuts b [] b
  | cut {b : List β} {a : α} {n : Nat} {as : List α} {rest : List β} (h : R.next b = some (a, n))
      (t : Cuts (b.drop n) as rest) : Cuts b (a :: as) rest

variable {R}

theorem next_nil : R.next [] = none := by
  cases h : R.next [] with
  | none => rfl
  | some found =>
    have hpos := R.pos_of_next h
    have hle := R.le_of_next h
    simp only [List.length_nil] at hle
    omega

theorem Cuts.idle {b rest : List β} {as : List α} (h : R.Cuts b as rest) : R.next rest = none := by
  induction h with
  | stop h => exact h
  | cut _ _ ih => exact ih

theorem Cuts.unique {b r r' : List β} {as as' : List α} (h : R.Cuts b as r)
    (h' : R.Cuts b as' r') : as = as' ∧ r = r' := by
  induction h generalizing as' with
  | stop h =>
    cases h' with
    | stop => exact ⟨rfl, rfl⟩
    | cut hsome => simp [h] at hsome
  | cut h _ ih =>
    cases h' with
    | stop hnone => simp [h] at hnone
    | cut hsome t' =>
      obtain ⟨rfl, rfl⟩ : _ ∧ _ := by simpa [h] using hsome
      obtain ⟨rfl, rfl⟩ := ih t'
      exact ⟨rfl, rfl⟩

/-- Every buffer is cut in some way: each record shortens it. -/
theorem exists_cuts (b : List β) : ∃ as rest, R.Cuts b as rest := by
  induction hn : b.length using Nat.strong_induction_on generalizing b with
  | _ n ih =>
    cases h : R.next b with
    | none => exact ⟨[], b, .stop h⟩
    | some found =>
      obtain ⟨a, k⟩ := found
      have hpos := R.pos_of_next h
      have hle := R.le_of_next h
      obtain ⟨as, rest, t⟩ := ih (b.drop k).length (by simp; omega) (b.drop k) rfl
      exact ⟨a :: as, rest, .cut h t⟩

/-- More input is cut from what was left over. -/
theorem Cuts.append {b c r r' : List β} {as bs : List α} (h : R.Cuts b as r)
    (h' : R.Cuts (r ++ c) bs r') : R.Cuts (b ++ c) (as ++ bs) r' := by
  induction h with
  | stop => exact h'
  | cut h _ ih =>
    refine .cut (R.next_append h c) ?_
    rw [List.drop_append_of_le_length (R.le_of_next h)]
    exact ih h'

theorem Cuts.comap {f : γ → β} {b r : List β} {as : List α} (h : R.Cuts b as r) {q : List γ}
    (hq : q.map f = b) :
    (R.comap f).Cuts q as (q.drop (b.length - r.length)) ∧ r.length ≤ b.length := by
  induction h generalizing q with
  | stop h =>
    subst hq
    rw [Nat.sub_self, List.drop_zero]
    exact ⟨.stop h, le_rfl⟩
  | @cut b a n as rest h _ ih =>
    subst hq
    have hle := R.le_of_next h
    obtain ⟨ht, hshort⟩ := ih (List.map_drop (f := f) (l := q) (i := n))
    simp only [List.length_drop, List.drop_drop] at ht hshort
    have hleft : n + ((q.map f).length - n - rest.length) = (q.map f).length - rest.length := by
      omega
    rw [hleft] at ht
    exact ⟨.cut h ht, by omega⟩

/-! ### What the loop does -/

/-- A handler that keeps the buffer is called with the records of the cut, in order, and the loop
ends by itself. -/
theorem loop_of_cuts {handle : α → Buffered β σ → Buffered β σ} {b rest : List β} {as : List α}
    (h : R.Cuts b as rest) (hkeeps : ∀ a ∈ as, ∀ x, (handle a x).buffer = x.buffer) (s : σ)
    (log : List α) :
    ∃ t, ∀ fuel, b.length < fuel →
      R.loop (recording handle) fuel ⟨b, s, log⟩ = some ⟨rest, t, log ++ as⟩ := by
  induction h generalizing s log with
  | stop h =>
    refine ⟨s, fun fuel hfuel => ?_⟩
    obtain ⟨k, rfl⟩ := Nat.exists_eq_succ_of_ne_zero (Nat.ne_of_gt (Nat.zero_lt_of_lt hfuel))
    simp [loop, h]
  | @cut b a n as rest h _ ih =>
    have hpos := R.pos_of_next h
    have hle := R.le_of_next h
    have hkept : (handle a ⟨b.drop n, s⟩).buffer = b.drop n :=
      hkeeps a (by simp) ⟨b.drop n, s⟩
    obtain ⟨t, ht⟩ := ih (fun a' ha' => hkeeps a' (by simp [ha'])) (handle a ⟨b.drop n, s⟩).fields
      (log ++ [a])
    refine ⟨t, fun fuel hfuel => ?_⟩
    obtain ⟨k, rfl⟩ := Nat.exists_eq_succ_of_ne_zero (Nat.ne_of_gt (Nat.zero_lt_of_lt hfuel))
    have hround := ht k (by simp only [List.length_drop]; omega)
    simpa [loop, h, recording, hkept] using hround

/-- However the input is split, the records handed on are those of the whole. -/
theorem feed_of_cuts {handle : α → Buffered β σ → Buffered β σ} {chunks : List (List β)}
    {b rest : List β} {as : List α} (hidle : R.next b = none)
    (h : R.Cuts (b ++ chunks.flatten) as rest)
    (hkeeps : ∀ a ∈ as, ∀ x, (handle a x).buffer = x.buffer) (s : σ) (log : List α) :
    ∃ t, ∀ fuel, (b ++ chunks.flatten).length < fuel →
      R.feed (recording handle) fuel chunks ⟨b, s, log⟩ = some ⟨rest, t, log ++ as⟩ := by
  induction chunks generalizing b as s log with
  | nil =>
    rw [List.flatten_nil, List.append_nil] at h
    obtain ⟨rfl, rfl⟩ := (Cuts.stop hidle).unique h
    exact ⟨s, fun fuel _ => by simp [feed]⟩
  | cons chunk chunks ih =>
    obtain ⟨as₁, r₁, h₁⟩ := exists_cuts (R := R) (b ++ chunk)
    obtain ⟨as₂, r₂, h₂⟩ := exists_cuts (R := R) (r₁ ++ chunks.flatten)
    have hwhole := h₁.append h₂
    rw [List.append_assoc, ← List.flatten_cons] at hwhole
    obtain ⟨rfl, rfl⟩ := h.unique hwhole
    obtain ⟨s₁, hloop⟩ := loop_of_cuts h₁ (fun a ha => hkeeps a (by simp [ha])) s log
    obtain ⟨t, hfeed⟩ := ih h₁.idle h₂ (fun a ha => hkeeps a (by simp [ha])) s₁ (log ++ as₁)
    have hshort : r₁.length ≤ (b ++ chunk).length :=
      (h₁.comap (f := id) (List.map_id _)).2
    refine ⟨t, fun fuel hfuel => ?_⟩
    simp only [List.flatten_cons, List.length_append] at hfuel hshort
    have hfirst := hloop fuel (by simp only [List.length_append]; omega)
    have hrest := hfeed fuel (by simp only [List.length_append]; omega)
    simp only [feed, List.foldlM_cons, receive, hfirst]
    simpa [feed] using hrest

/-! ### Encoded records -/

variable {φ : Type u} {encode : φ → List β} {record : φ → α}

/-- The items of an encoded stream that lie within its first `n` elements. -/
def complete (encode : φ → List β) : List φ → Nat → List φ
  | [], _ => []
  | f :: fs, n =>
    if (encode f).length ≤ n then f :: complete encode fs (n - (encode f).length) else []

theorem mem_of_mem_complete {fs : List φ} {n : Nat} {f : φ} (h : f ∈ complete encode fs n) :
    f ∈ fs := by
  induction fs generalizing n with
  | nil => exact h
  | cons g fs ih =>
    simp only [complete] at h
    split at h
    · rcases List.mem_cons.mp h with rfl | h
      · simp
      · simp [ih h]
    · simp at h

theorem complete_all (fs : List φ) : complete encode fs (fs.flatMap encode).length = fs := by
  induction fs with
  | nil => rfl
  | cons f fs ih =>
    rw [List.flatMap_cons, List.length_append, complete, if_pos (Nat.le_add_right _ _),
      Nat.add_sub_cancel_left, ih]

theorem length_complete_le (fs : List φ) (n : Nat) :
    ((complete encode fs n).flatMap encode).length ≤ n := by
  induction fs generalizing n with
  | nil => simp [complete]
  | cons f fs ih =>
    simp only [complete]
    split
    · have hrest := ih (n - (encode f).length)
      rw [List.flatMap_cons, List.length_append]
      omega
    · simp

/-- A record that has not arrived whole is not found: what follows it would not change it. -/
theorem next_of_incomplete {f : φ} {r : List β}
    (hnext : R.next (encode f) = some (record f, (encode f).length)) (hr : r <+: encode f)
    (hshort : r.length < (encode f).length) : R.next r = none := by
  cases h : R.next r with
  | none => rfl
  | some found =>
    obtain ⟨c, n⟩ := found
    obtain ⟨tail, htail⟩ := hr
    have hlater := R.next_append h tail
    rw [htail, hnext] at hlater
    have hle := R.le_of_next h
    have hn : (encode f).length = n := by simpa using congrArg (Option.map Prod.snd) hlater
    omega

/-- Of an encoded stream that has arrived in part, the complete records are cut and the rest
stays. -/
theorem cuts_complete {fs : List φ} {q : List β}
    (hnext : ∀ f ∈ fs, ∀ tail, R.next (encode f ++ tail) = some (record f, (encode f).length))
    (hq : q <+: fs.flatMap encode) :
    R.Cuts q ((complete encode fs q.length).map record)
      (q.drop ((complete encode fs q.length).flatMap encode).length) := by
  induction fs generalizing q with
  | nil =>
    obtain rfl : q = [] := by simpa using hq
    exact .stop next_nil
  | cons f fs ih =>
    simp only [complete]
    have hself : R.next (encode f) = some (record f, (encode f).length) := by
      simpa using hnext f (by simp) []
    rw [List.flatMap_cons] at hq
    split
    · rename_i hle
      obtain ⟨rest, rfl⟩ : encode f <+: q :=
        List.prefix_of_prefix_length_le (List.prefix_append _ _) hq hle
      have hrest := ih (fun g hg => hnext g (by simp [hg])) ((List.prefix_append_right_inj _).mp hq)
      refine .cut (hnext f (by simp) rest) ?_
      simpa using hrest
    · rename_i hlt
      have hpart : q <+: encode f :=
        List.prefix_of_prefix_length_le hq (List.prefix_append _ _) (by omega)
      exact .stop (next_of_incomplete hself hpart (by omega))

end RecordReader

end TorE2EE.Foundation
