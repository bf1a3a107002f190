import Mathlib.Tactic.Common
import Mathlib.Data.List.Basic

/-!
# UTF-16 and UTF-8

Strings of 16-bit code units and their text in UTF-8, as the Encoding Standard converts between
them. A surrogate without its other half has no scalar value: `scalars` puts the replacement
character in its place, and `isWellFormed` tells the strings that have none.

`decodeUtf8` reads any bytes, one at a time. A maximal ill-formed part becomes one replacement
character. It takes back what `utf8` wrote (`decodeUtf8_utf8`), also when other bytes follow
(`decodeUtf8_append`), and of a character cut in two every part is replaced: the first by one
character (`decodeUtf8_head`), the rest by one for each byte (`decodeUtf8_tail`).
-/

set_option autoImplicit false

namespace TorE2EE.Foundation

/-- U+FFFD. -/
def replacement : Char := '\uFFFD'

/-! ## Code units -/

def isHighSurrogate (u : UInt16) : Bool := 0xD800 ≤ u.toNat && u.toNat ≤ 0xDBFF

def isLowSurrogate (u : UInt16) : Bool := 0xDC00 ≤ u.toNat && u.toNat ≤ 0xDFFF

/-- The scalar value of a unit that stands alone. -/
def unitChar (u : UInt16) : Char :=
  if isHighSurrogate u || isLowSurrogate u then replacement else Char.ofNat u.toNat

/-- The scalar value of a surrogate pair. -/
def pairChar (u v : UInt16) : Char :=
  Char.ofNat (0x10000 + (u.toNat - 0xD800) * 0x400 + (v.toNat - 0xDC00))

/-- The scalar values of a string. -/
def scalars : List UInt16 → List Char
  | [] => []
  | [u] => [unitChar u]
  | u :: v :: rest =>
      if isHighSurrogate u && isLowSurrogate v then pairChar u v :: scalars rest
      else unitChar u :: scalars (v :: rest)

/-- No surrogate stands alone. -/
def isWellFormed : List UInt16 → Bool
  | [] => true
  | [u] => !(isHighSurrogate u || isLowSurrogate u)
  | u :: v :: rest =>
      if isHighSurrogate u && isLowSurrogate v then isWellFormed rest
      else !(isHighSurrogate u || isLowSurrogate u) && isWellFormed (v :: rest)

/-- The code units of a character. -/
def utf16Char (c : Char) : List UInt16 :=
  if c.toNat < 0x10000 then [UInt16.ofNat c.toNat]
  else
    [UInt16.ofNat (0xD800 + (c.toNat - 0x10000) / 0x400),
      UInt16.ofNat (0xDC00 + (c.toNat - 0x10000) % 0x400)]

/-- The string of a text. -/
def utf16 (cs : List Char) : List UInt16 := cs.flatMap utf16Char

@[simp] theorem utf16_nil : utf16 [] = [] := rfl

@[simp] theorem utf16_cons (c : Char) (cs : List Char) : utf16 (c :: cs) = utf16Char c ++ utf16 cs :=
  rfl

@[simp] theorem utf16_append (cs ds : List Char) : utf16 (cs ++ ds) = utf16 cs ++ utf16 ds :=
  List.flatMap_append

theorem char_toNat_valid (c : Char) :
    c.toNat < 0xD800 ∨ (0xDFFF < c.toNat ∧ c.toNat < 0x110000) := c.valid

theorem unit_toNat {n : Nat} (h : n < 0x10000) : (UInt16.ofNat n).toNat = n :=
  UInt16.toNat_ofNat_of_lt' h

/-- The units of a character: one that is no surrogate, or a surrogate pair. -/
theorem utf16Char_cases (c : Char) :
    (∃ u, utf16Char c = [u] ∧ (isHighSurrogate u || isLowSurrogate u) = false ∧ unitChar u = c) ∨
      ∃ u v, utf16Char c = [u, v] ∧ (isHighSurrogate u && isLowSurrogate v) = true ∧
        pairChar u v = c := by
  have hc := char_toNat_valid c
  rw [utf16Char]
  split
  · next hsmall =>
    have hunit : (UInt16.ofNat c.toNat).toNat = c.toNat := unit_toNat hsmall
    have hsingle : (isHighSurrogate (UInt16.ofNat c.toNat) ||
        isLowSurrogate (UInt16.ofNat c.toNat)) = false := by
      simp only [isHighSurrogate, isLowSurrogate, hunit, Bool.or_eq_false_iff,
        Bool.and_eq_false_iff, decide_eq_false_iff_not]
      omega
    refine Or.inl ⟨_, rfl, hsingle, ?_⟩
    rw [unitChar, hsingle, hunit, if_neg Bool.false_ne_true, Char.ofNat_toNat]
  · next hlarge =>
    have hfirst : (UInt16.ofNat (0xD800 + (c.toNat - 0x10000) / 0x400)).toNat =
        0xD800 + (c.toNat - 0x10000) / 0x400 := unit_toNat (by omega)
    have hsecond : (UInt16.ofNat (0xDC00 + (c.toNat - 0x10000) % 0x400)).toNat =
        0xDC00 + (c.toNat - 0x10000) % 0x400 := unit_toNat (by omega)
    refine Or.inr ⟨_, _, rfl, ?_, ?_⟩
    · simp only [isHighSurrogate, isLowSurrogate, hfirst, hsecond, Bool.and_eq_true,
        decide_eq_true_eq]
      omega
    · -- the pair gives back the twenty bits that were cut in two
      have hvalue : 0x10000 + (0xD800 + (c.toNat - 0x10000) / 0x400 - 0xD800) * 0x400 +
          (0xDC00 + (c.toNat - 0x10000) % 0x400 - 0xDC00) = c.toNat := by omega
      rw [pairChar, hfirst, hsecond, hvalue, Char.ofNat_toNat]

/-- The first character of a string is the one whose units it begins with. -/
theorem scalars_utf16Char (c : Char) (rest : List UInt16) :
    scalars (utf16Char c ++ rest) = c :: scalars rest := by
  rcases utf16Char_cases c with ⟨u, hunits, hsingle, hchar⟩ | ⟨u, v, hunits, hpair, hchar⟩
  · rw [hunits]
    cases rest with
    | nil => simp [scalars, hchar]
    | cons v rest => simp [scalars, hchar, (Bool.or_eq_false_iff.1 hsingle).1]
  · rw [hunits]
    simp only [List.cons_append, List.nil_append, scalars, hpair, if_true, hchar]

theorem scalars_utf16_append (cs : List Char) (rest : List UInt16) :
    scalars (utf16 cs ++ rest) = cs ++ scalars rest := by
  induction cs with
  | nil => rfl
  | cons c cs ih => rw [utf16_cons, List.append_assoc, scalars_utf16Char, ih, List.cons_append]

/-- A text is read back from its string. -/
theorem scalars_utf16 (cs : List Char) : scalars (utf16 cs) = cs := by
  have h := scalars_utf16_append cs []
  rwa [List.append_nil, scalars, List.append_nil] at h

theorem utf16_injective {cs ds : List Char} (h : utf16 cs = utf16 ds) : cs = ds := by
  rw [← scalars_utf16 cs, h, scalars_utf16]

theorem utf16Char_unitChar {u : UInt16} (h : (isHighSurrogate u || isLowSurrogate u) = false) :
    utf16Char (unitChar u) = [u] := by
  have hu := u.toNat_lt
  obtain ⟨hhigh, hlow⟩ := Bool.or_eq_false_iff.1 h
  simp only [isHighSurrogate, isLowSurrogate, Bool.and_eq_false_iff, decide_eq_false_iff_not]
    at hhigh hlow
  have hvalid : u.toNat.isValidChar := by
    rw [Nat.isValidChar]
    omega
  have hnat : (Char.ofNat u.toNat).toNat = u.toNat := by
    rw [Char.ofNat, dif_pos hvalid]
    rfl
  rw [unitChar, h]
  simp only [Bool.false_eq_true, if_false, utf16Char, hnat]
  rw [if_pos (by omega), UInt16.ofNat_toNat]

theorem utf16Char_pairChar {u v : UInt16} (h : (isHighSurrogate u && isLowSurrogate v) = true) :
    utf16Char (pairChar u v) = [u, v] := by
  simp only [isHighSurrogate, isLowSurrogate, Bool.and_eq_true, decide_eq_true_eq] at h
  have hvalid : (0x10000 + (u.toNat - 0xD800) * 0x400 + (v.toNat - 0xDC00)).isValidChar := by
    rw [Nat.isValidChar]
    omega
  have hnat : (pairChar u v).toNat =
      0x10000 + (u.toNat - 0xD800) * 0x400 + (v.toNat - 0xDC00) := by
    rw [pairChar, Char.ofNat, dif_pos hvalid]
    rfl
  have hfirst : 0xD800 + (0x10000 + (u.toNat - 0xD800) * 0x400 + (v.toNat - 0xDC00) - 0x10000) /
      0x400 = u.toNat := by omega
  have hsecond : 0xDC00 + (0x10000 + (u.toNat - 0xD800) * 0x400 + (v.toNat - 0xDC00) - 0x10000) %
      0x400 = v.toNat := by omega
  rw [utf16Char, hnat, if_neg (by omega), hfirst, hsecond, UInt16.ofNat_toNat, UInt16.ofNat_toNat]

/-- A well-formed string is read back from its text. -/
theorem utf16_scalars {s : List UInt16} (h : isWellFormed s = true) : utf16 (scalars s) = s := by
  induction s using scalars.induct with
  | case1 => rfl
  | case2 u =>
      rw [isWellFormed, Bool.not_eq_true'] at h
      simp [scalars, utf16Char_unitChar h]
  | case3 u v rest hpair ih =>
      rw [isWellFormed, if_pos hpair] at h
      rw [scalars, if_pos hpair, utf16_cons, utf16Char_pairChar hpair, ih h]
      rfl
  | case4 u v rest hpair ih =>
      rw [isWellFormed, if_neg hpair, Bool.and_eq_true, Bool.not_eq_true'] at h
      rw [scalars, if_neg hpair, utf16_cons, utf16Char_unitChar h.1, ih h.2]
      rfl

theorem isWellFormed_utf16Char (c : Char) (rest : List UInt16) :
    isWellFormed (utf16Char c ++ rest) = isWellFormed rest := by
  rcases utf16Char_cases c with ⟨u, hunits, hsingle, -⟩ | ⟨u, v, hunits, hpair, -⟩
  · obtain ⟨hhigh, hlow⟩ := Bool.or_eq_false_iff.1 hsingle
    rw [hunits]
    cases rest with
    | nil => simp [isWellFormed, hhigh, hlow]
    | cons v rest => simp [isWellFormed, hhigh, hlow]
  · rw [hunits]
    simp only [List.cons_append, List.nil_append, isWellFormed, hpair, if_true]

/-- The string of a text is well-formed. -/
theorem isWellFormed_utf16 (cs : List Char) : isWellFormed (utf16 cs) = true := by
  induction cs with
  | nil => rfl
  | cons c cs ih => rw [utf16_cons, isWellFormed_utf16Char, ih]

/-- Before a well-formed string nothing changes, and after it every surrogate stands as it stood. -/
theorem isWellFormed_append {a : List UInt16} (ha : isWellFormed a = true) (b : List UInt16) :
    isWellFormed (a ++ b) = isWellFormed b := by
  have happend (cs : List Char) : isWellFormed (utf16 cs ++ b) = isWellFormed b := by
    induction cs with
    | nil => rfl
    | cons c cs ih => rw [utf16_cons, List.append_assoc, isWellFormed_utf16Char, ih]
  rw [← utf16_scalars ha]
  exact happend (scalars a)

/-- A string without surrogates. -/
theorem isWellFormed_of_lt {s : List UInt16} (h : ∀ u ∈ s, u.toNat < 0xD800) :
    isWellFormed s = true := by
  induction s with
  | nil => rfl
  | cons u s ih =>
      have hu := h u List.mem_cons_self
      have hone : isWellFormed [u] = true := by
        simp only [isWellFormed, isHighSurrogate, isLowSurrogate, Bool.not_eq_true',
          Bool.or_eq_false_iff, Bool.and_eq_false_iff, decide_eq_false_iff_not]
        omega
      have happend := isWellFormed_append hone s
      rw [List.singleton_append] at happend
      rw [happend]
      exact ih fun v hv => h v (List.mem_cons_of_mem u hv)

/-- A string is the string of a text when it is well-formed. -/
theorem exists_utf16_iff {s : List UInt16} : (∃ cs, utf16 cs = s) ↔ isWellFormed s = true := by
  constructor
  · rintro ⟨cs, rfl⟩
    exact isWellFormed_utf16 cs
  · intro h
    exact ⟨scalars s, utf16_scalars h⟩

/-! ## UTF-8 -/

/-- The bytes of a text. -/
def utf8 (cs : List Char) : List UInt8 := cs.flatMap String.utf8EncodeChar

@[simp] theorem utf8_nil : utf8 [] = [] := rfl

@[simp] theorem utf8_cons (c : Char) (cs : List Char) :
    utf8 (c :: cs) = String.utf8EncodeChar c ++ utf8 cs := rfl

@[simp] theorem utf8_append (cs ds : List Char) : utf8 (cs ++ ds) = utf8 cs ++ utf8 ds :=
  List.flatMap_append

/-- The decoder between two bytes: how many bytes the character still needs, its value so far, and
the range of the next byte. -/
structure Decoder where
  needed : Nat
  value : Nat
  lower : Nat
  upper : Nat

namespace Decoder

/-- Between two characters. -/
def idle : Decoder := { needed := 0, value := 0, lower := 0x80, upper := 0xBF }

/-- The first byte of a character, with the characters decoded. -/
def lead (b : Nat) : Decoder × List Char :=
  if b ≤ 0x7F then (idle, [Char.ofNat b])
  else if 0xC2 ≤ b ∧ b ≤ 0xDF then
    ({ needed := 1, value := b - 0xC0, lower := 0x80, upper := 0xBF }, [])
  else if 0xE0 ≤ b ∧ b ≤ 0xEF then
    ({ needed := 2
       value := b - 0xE0
       lower := if b = 0xE0 then 0xA0 else 0x80
       upper := if b = 0xED then 0x9F else 0xBF }, [])
  else if 0xF0 ≤ b ∧ b ≤ 0xF4 then
    ({ needed := 3
       value := b - 0xF0
       lower := if b = 0xF0 then 0x90 else 0x80
       upper := if b = 0xF4 then 0x8F else 0xBF }, [])
  else (idle, [replacement])

/-- One byte. A byte out of the range ends the character, which is replaced, and begins another. -/
def step (d : Decoder) (b : Nat) : Decoder × List Char :=
  if d.needed = 0 then lead b
  else if d.lower ≤ b ∧ b ≤ d.upper then
    let value := d.value * 64 + (b - 0x80)
    if d.needed = 1 then (idle, [Char.ofNat value])
    else ({ needed := d.needed - 1, value, lower := 0x80, upper := 0xBF }, [])
  else ((lead b).1, replacement :: (lead b).2)

/-- The characters of the bytes. A character that is not complete at the end is replaced. -/
def run (d : Decoder) : List UInt8 → List Char
  | [] => if d.needed = 0 then [] else [replacement]
  | b :: bytes => (d.step b.toNat).2 ++ run (d.step b.toNat).1 bytes

end Decoder

/-- The text of the bytes. -/
def decodeUtf8 (bytes : List UInt8) : List Char := Decoder.idle.run bytes

namespace Decoder

/-- On these bytes, and not before their end, the decoder completes the character. -/
inductive Completes (c : Char) : Decoder → List UInt8 → Prop where
  | last {d : Decoder} {b : UInt8} : d.needed ≠ 0 → d.step b.toNat = (idle, [c]) → Completes c d [b]
  | more {d d' : Decoder} {b : UInt8} {bytes : List UInt8} : d.needed ≠ 0 →
      d.step b.toNat = (d', []) → Completes c d' bytes → Completes c d (b :: bytes)

variable {c : Char} {d : Decoder}

theorem run_of_completes {bytes : List UInt8} (h : Completes c d bytes) (rest : List UInt8) :
    d.run (bytes ++ rest) = c :: idle.run rest := by
  induction h with
  | last _ hstep => simp [run, hstep]
  | more _ hstep _ ih => simp [run, hstep, ih]

/-- Where the bytes end before the character does, it is replaced. -/
theorem run_of_cut {bytes rest : List UInt8} (h : Completes c d (bytes ++ rest)) (hrest : rest ≠ []) :
    d.run bytes = [replacement] := by
  induction bytes generalizing d with
  | nil =>
      cases h with
      | last hneeded _ => simp [run, hneeded]
      | more hneeded _ _ => simp [run, hneeded]
  | cons b bytes ih =>
      rw [List.cons_append] at h
      generalize hall : bytes ++ rest = all at h
      cases h with
      | last _ _ => simp [hrest] at hall
      | more _ hstep hcompletes =>
          subst hall
          simp [run, hstep, ih hcompletes]

end Decoder

theorem byte_toNat {n : Nat} (h : n < 256) : (UInt8.ofNat n).toNat = n := UInt8.toNat_ofNat_of_lt' h

/-- A byte that continues a character. -/
def Continues (b : UInt8) : Prop := 0x80 ≤ b.toNat ∧ b.toNat ≤ 0xBF

/-- The byte that carries six bits of a character. -/
theorem sixBits_toNat (n : Nat) : (UInt8.ofNat (n % 0x40 + 0x80)).toNat = n % 0x40 + 0x80 :=
  byte_toNat (by omega)

theorem continues_sixBits (n : Nat) : Continues (UInt8.ofNat (n % 0x40 + 0x80)) := by
  rw [Continues, sixBits_toNat]
  omega

namespace Decoder

variable {c : Char} {d : Decoder} {n : Nat}

theorem completes_last (hneeded : d.needed = 1) (hlower : d.lower ≤ n % 0x40 + 0x80)
    (hupper : n % 0x40 + 0x80 ≤ d.upper) (hvalue : d.value * 64 + n % 0x40 = c.toNat) :
    Completes c d [UInt8.ofNat (n % 0x40 + 0x80)] := by
  have hrange : d.lower ≤ n % 0x40 + 0x80 ∧ n % 0x40 + 0x80 ≤ d.upper := ⟨hlower, hupper⟩
  apply Completes.last
  · omega
  · rw [step, sixBits_toNat, if_neg (by omega), if_pos hrange, if_pos hneeded, Nat.add_sub_cancel,
      hvalue, Char.ofNat_toNat]

theorem completes_more {bytes : List UInt8} (hneeded : 1 < d.needed)
    (hlower : d.lower ≤ n % 0x40 + 0x80) (hupper : n % 0x40 + 0x80 ≤ d.upper)
    (hrest : Completes c { needed := d.needed - 1
                           value := d.value * 64 + n % 0x40
                           lower := 0x80
                           upper := 0xBF } bytes) :
    Completes c d (UInt8.ofNat (n % 0x40 + 0x80) :: bytes) := by
  have hrange : d.lower ≤ n % 0x40 + 0x80 ∧ n % 0x40 + 0x80 ≤ d.upper := ⟨hlower, hupper⟩
  refine Completes.more ?_ ?_ hrest
  · omega
  · rw [step, sixBits_toNat, if_neg (by omega), if_pos hrange, if_neg (by omega),
      Nat.add_sub_cancel]

end Decoder

/-- The bytes of a character: one byte, or a lead and the bytes on which the decoder completes it. -/
theorem utf8EncodeChar_cases (c : Char) :
    (c.toNat ≤ 0x7F ∧ String.utf8EncodeChar c = [UInt8.ofNat c.toNat]) ∨
      ∃ b bytes, String.utf8EncodeChar c = b :: bytes ∧ (Decoder.lead b.toNat).2 = [] ∧
        Decoder.Completes c (Decoder.lead b.toNat).1 bytes ∧ ∀ b' ∈ bytes, Continues b' := by
  have hvalid := char_toNat_valid c
  have hval : c.val.toNat = c.toNat := rfl
  rw [String.utf8EncodeChar]
  simp only [hval]
  generalize hn : c.toNat = n at hvalid
  -- one, two, three and four bytes: the lead says how many more, and each gives six bits
  split
  · next hone => exact Or.inl ⟨hone, rfl⟩
  split
  · next hone htwo =>
    have hlead : (UInt8.ofNat (n / 64 % 0x20 + 0xc0)).toNat = n / 64 % 0x20 + 0xc0 :=
      byte_toNat (by omega)
    refine Or.inr ⟨_, _, rfl, ?_⟩
    rw [hlead, Decoder.lead, if_neg (by omega), if_pos (by omega)]
    refine ⟨rfl, ?_, by simp only [List.forall_mem_singleton, continues_sixBits]⟩
    apply Decoder.completes_last rfl
    · dsimp only
      omega
    · dsimp only
      omega
    · dsimp only
      omega
  split
  · next hone htwo hthree =>
    have hlead : (UInt8.ofNat (n / 4096 % 0x10 + 0xe0)).toNat = n / 4096 % 0x10 + 0xe0 :=
      byte_toNat (by omega)
    refine Or.inr ⟨_, _, rfl, ?_⟩
    rw [hlead, Decoder.lead, if_neg (by omega), if_neg (by omega), if_pos (by omega)]
    refine ⟨rfl, ?_, by simp only [List.forall_mem_cons, continues_sixBits,
      List.not_mem_nil, false_imp_iff, implies_true, and_self]⟩
    apply Decoder.completes_more (by dsimp only; omega)
    · dsimp only
      split_ifs <;> omega
    · dsimp only
      split_ifs <;> omega
    · apply Decoder.completes_last rfl
      · dsimp only
        omega
      · dsimp only
        omega
      · dsimp only
        omega
  · next hone htwo hthree =>
    have hlead : (UInt8.ofNat (n / 262144 % 0x08 + 0xf0)).toNat = n / 262144 % 0x08 + 0xf0 :=
      byte_toNat (by omega)
    refine Or.inr ⟨_, _, rfl, ?_⟩
    rw [hlead, Decoder.lead, if_neg (by omega), if_neg (by omega), if_neg (by omega),
      if_pos (by omega)]
    refine ⟨rfl, ?_, by simp only [List.forall_mem_cons, continues_sixBits,
      List.not_mem_nil, false_imp_iff, implies_true, and_self]⟩
    apply Decoder.completes_more (by dsimp only; omega)
    · dsimp only
      split_ifs <;> omega
    · dsimp only
      split_ifs <;> omega
    · apply Decoder.completes_more (by dsimp only; omega)
      · dsimp only
        omega
      · dsimp only
        omega
      · apply Decoder.completes_last rfl
        · dsimp only
          omega
        · dsimp only
          omega
        · dsimp only
          omega

theorem decodeUtf8_nil : decodeUtf8 [] = [] := rfl

theorem Decoder.step_idle (b : Nat) : Decoder.idle.step b = Decoder.lead b := if_pos rfl

/-- An ASCII byte is a character, whatever stood before it. -/
theorem Decoder.run_ascii {b : UInt8} (hb : b.toNat ≤ 0x7F) (bytes : List UInt8) :
    Decoder.idle.run (b :: bytes) = Char.ofNat b.toNat :: Decoder.idle.run bytes := by
  have hstep : Decoder.idle.step b.toNat = (Decoder.idle, [Char.ofNat b.toNat]) := by
    rw [Decoder.step_idle, Decoder.lead, if_pos hb]
  simp [Decoder.run, hstep]

/-- The decoder reads back a character. -/
theorem decodeUtf8_char (c : Char) (rest : List UInt8) :
    decodeUtf8 (String.utf8EncodeChar c ++ rest) = c :: decodeUtf8 rest := by
  rcases utf8EncodeChar_cases c with ⟨hone, hbytes⟩ | ⟨b, bytes, hbytes, hnone, hcompletes, -⟩
  · have hb : (UInt8.ofNat c.toNat).toNat = c.toNat := byte_toNat (by omega)
    rw [hbytes, List.singleton_append, decodeUtf8, Decoder.run_ascii (by omega), hb,
      Char.ofNat_toNat]
    rfl
  · rw [hbytes, List.cons_append, decodeUtf8, Decoder.run, Decoder.step_idle, hnone,
      List.nil_append]
    exact Decoder.run_of_completes hcompletes rest

/-- The decoder reads back a text, also when other bytes follow. -/
theorem decodeUtf8_append (cs : List Char) (rest : List UInt8) :
    decodeUtf8 (utf8 cs ++ rest) = cs ++ decodeUtf8 rest := by
  induction cs with
  | nil => rfl
  | cons c cs ih => rw [utf8_cons, List.append_assoc, decodeUtf8_char, ih, List.cons_append]

theorem decodeUtf8_utf8 (cs : List Char) : decodeUtf8 (utf8 cs) = cs := by
  have h := decodeUtf8_append cs []
  rwa [List.append_nil, decodeUtf8_nil, List.append_nil] at h

/-- The first part of a character cut in two is replaced by one character. -/
theorem decodeUtf8_head {c : Char} {head tail : List UInt8}
    (h : String.utf8EncodeChar c = head ++ tail) (hhead : head ≠ []) (htail : tail ≠ []) :
    decodeUtf8 head = [replacement] := by
  rcases utf8EncodeChar_cases c with ⟨hone, hbytes⟩ | ⟨b, bytes, hbytes, hnone, hcompletes, -⟩
  · -- a single byte cannot be cut
    rw [hbytes] at h
    have hlength := congrArg List.length h
    have hheadpos := List.length_pos_of_ne_nil hhead
    have htailpos := List.length_pos_of_ne_nil htail
    rw [List.length_append, List.length_singleton] at hlength
    omega
  · rw [hbytes] at h
    cases head with
    | nil => exact absurd rfl hhead
    | cons b' head =>
        rw [List.cons_append, List.cons.injEq] at h
        obtain ⟨rfl, rfl⟩ := h
        rw [decodeUtf8, Decoder.run, Decoder.step_idle, hnone, List.nil_append]
        exact Decoder.run_of_cut hcompletes htail

/-- Bytes that continue a character which is not there are replaced one by one. -/
theorem decodeUtf8_tail {bytes : List UInt8} (h : ∀ b ∈ bytes, Continues b) (rest : List UInt8) :
    decodeUtf8 (bytes ++ rest) = List.replicate bytes.length replacement ++ decodeUtf8 rest := by
  induction bytes with
  | nil => rfl
  | cons b bytes ih =>
      obtain ⟨hlower, hupper⟩ := h b List.mem_cons_self
      have hstep : Decoder.idle.step b.toNat = (Decoder.idle, [replacement]) := by
        rw [Decoder.step_idle, Decoder.lead, if_neg (by omega), if_neg (by omega),
          if_neg (by omega), if_neg (by omega)]
      have hrest := ih fun b' hb' => h b' (List.mem_cons_of_mem _ hb')
      rw [decodeUtf8, List.cons_append, Decoder.run, hstep, List.length_cons, List.replicate_succ]
      exact congrArg (replacement :: ·) hrest

/-- All bytes of a character but the first continue it. -/
theorem continues_of_utf8EncodeChar {c : Char} {b : UInt8} {bytes : List UInt8}
    (h : String.utf8EncodeChar c = b :: bytes) : ∀ b' ∈ bytes, Continues b' := by
  rcases utf8EncodeChar_cases c with ⟨-, hbytes⟩ | ⟨b', bytes', hbytes, -, -, hcontinues⟩
  · rw [hbytes, List.cons.injEq] at h
    rw [← h.2]
    simp
  · rw [hbytes, List.cons.injEq] at h
    rw [← h.2]
    exact hcontinues

end TorE2EE.Foundation
