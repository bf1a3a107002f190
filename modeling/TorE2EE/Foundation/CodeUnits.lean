import TorE2EE.Foundation.JsonText
import Mathlib.Data.List.TakeWhile

/-!
# Strings of code units

The functions of the runtime on strings that a parser of links needs: `trim`, `indexOf`, hex in both
directions, and the query of a URL. Strings are lists of 16-bit units, with surrogates wherever they
stand; bytes are their text in UTF-8.

`URLSearchParams` splits the bytes of a query at `&` and every part at its first `=`, and decodes
names and values. Fields of plain ASCII are found again (`searchParam_second`).
-/

set_option autoImplicit false

namespace TorE2EE.Foundation

/-! ## ASCII -/

theorem utf16Char_of_lt {c : Char} (h : c.toNat < 0x80) : utf16Char c = [unit c] :=
  if_pos (by omega)

/-- A literal is ASCII by evaluation. -/
theorem ascii_of_all {cs : List Char} (h : (cs.all fun c => decide (c.toNat < 0x80)) = true) :
    ∀ c ∈ cs, c.toNat < 0x80 :=
  fun c hc => of_decide_eq_true (List.all_eq_true.1 h c hc)

/-- A text of ASCII characters has a unit for each. -/
theorem utf16_eq_map {cs : List Char} (h : ∀ c ∈ cs, c.toNat < 0x80) : utf16 cs = cs.map unit := by
  induction cs with
  | nil => rfl
  | cons c cs ih =>
      rw [utf16_cons, utf16Char_of_lt (h c List.mem_cons_self),
        ih fun d hd => h d (List.mem_cons_of_mem c hd)]
      rfl

/-- The byte of an ASCII character. -/
def asciiByte (c : Char) : UInt8 := UInt8.ofNat c.toNat

theorem utf8_eq_map {cs : List Char} (h : ∀ c ∈ cs, c.toNat < 0x80) :
    utf8 cs = cs.map asciiByte := by
  induction cs with
  | nil => rfl
  | cons c cs ih =>
      have hc := h c List.mem_cons_self
      have hval : c.val.toNat = c.toNat := rfl
      have hone : String.utf8EncodeChar c = [asciiByte c] := by
        rw [String.utf8EncodeChar]
        simp only [hval]
        exact if_pos (by omega)
      rw [utf8_cons, hone, ih fun d hd => h d (List.mem_cons_of_mem c hd)]
      rfl

theorem unit_injective {c d : Char} (hc : c.toNat < 0x80) (hd : d.toNat < 0x80)
    (h : unit c = unit d) : c = d := by
  have hunit : (unit c).toNat = (unit d).toNat := by rw [h]
  rw [unit, unit, unit_toNat (by omega), unit_toNat (by omega)] at hunit
  rw [← Char.ofNat_toNat c, hunit, Char.ofNat_toNat]

theorem asciiByte_injective {c d : Char} (hc : c.toNat < 0x80) (hd : d.toNat < 0x80)
    (h : asciiByte c = asciiByte d) : c = d := by
  have hbyte : (asciiByte c).toNat = (asciiByte d).toNat := by rw [h]
  rw [asciiByte, asciiByte, byte_toNat (by omega), byte_toNat (by omega)] at hbyte
  rw [← Char.ofNat_toNat c, hbyte, Char.ofNat_toNat]

/-- The bytes of a string that begins with an ASCII character. -/
theorem utf8_scalars_cons {c : Char} (hc : c.toNat < 0x80) (text : List UInt16) :
    utf8 (scalars (unit c :: text)) = asciiByte c :: utf8 (scalars text) := by
  have hscalars := scalars_utf16Char c text
  rw [utf16Char_of_lt hc, List.singleton_append] at hscalars
  have hone := utf8_eq_map (List.forall_mem_singleton.2 hc)
  rw [hscalars, ← List.singleton_append, utf8_append, hone]
  rfl

/-! ## White space -/

/-- `text.trim()`, where `space` tells white space. -/
def trim (space : UInt16 → Bool) (text : List UInt16) : List UInt16 :=
  ((text.dropWhile space).reverse.dropWhile space).reverse

/-- White space around a text without any is removed. -/
theorem trim_surrounded {space : UInt16 → Bool} {before text after : List UInt16}
    (hbefore : ∀ u ∈ before, space u = true) (htext : ∀ u ∈ text, space u = false)
    (hafter : ∀ u ∈ after, space u = true) :
    trim space (before ++ text ++ after) = text := by
  have hkeep : ∀ s : List UInt16, (∀ u ∈ s, space u = false) → s.dropWhile space = s := by
    intro s hs
    cases s with
    | nil => rfl
    | cons u s => rw [List.dropWhile_cons_of_neg (by simp [hs u List.mem_cons_self])]
  rw [trim, List.append_assoc, List.dropWhile_append_of_pos hbefore]
  cases text with
  | nil =>
      have hall : after.dropWhile space = [] := List.dropWhile_eq_nil_iff.2 hafter
      rw [List.nil_append, hall]
      rfl
  | cons u text =>
      have hu := htext u List.mem_cons_self
      rw [List.cons_append, List.dropWhile_cons_of_neg (by simp [hu]), ← List.cons_append,
        List.reverse_append, List.dropWhile_append_of_pos, hkeep, List.reverse_reverse]
      · exact fun v hv => htext v (List.mem_reverse.1 hv)
      · exact fun v hv => hafter v (List.mem_reverse.1 hv)

/-! ## Searching -/

/-- `text.indexOf(other)`, where `none` stands for `-1`. -/
def indexOf (other : List UInt16) : List UInt16 → Option Nat
  | [] => if other = [] then some 0 else none
  | u :: text =>
      if other.isPrefixOf (u :: text) then some 0 else (indexOf other text).map (· + 1)

/-- The first of a unit is where it stands first. -/
theorem indexOf_unit {u : UInt16} {before : List UInt16} (h : u ∉ before) (after : List UInt16) :
    indexOf [u] (before ++ u :: after) = some before.length := by
  induction before with
  | nil => simp [indexOf]
  | cons v before ih =>
      rw [List.mem_cons, not_or] at h
      rw [List.cons_append, indexOf, if_neg (by simpa using h.1), ih h.2]
      rfl

/-! ## Hex -/

open JsonText

/-- The two digits of each byte. -/
def hexText (bytes : List UInt8) : List UInt16 :=
  bytes.flatMap fun b => [hexUnit (b.toNat / 16), hexUnit (b.toNat % 16)]

/-- The bytes of pairs of digits: `none` when the text is anything else. -/
def hexBytes : List UInt16 → Option (List UInt8)
  | [] => some []
  | [_] => none
  | u :: v :: text => do
      let high ← hexUnitValue u
      let low ← hexUnitValue v
      let bytes ← hexBytes text
      pure (UInt8.ofNat (high * 16 + low) :: bytes)

theorem hexBytes_hexText (bytes : List UInt8) : hexBytes (hexText bytes) = some bytes := by
  induction bytes with
  | nil => rfl
  | cons b bytes ih =>
      have hb := b.toNat_lt
      have hvalue : b.toNat / 16 * 16 + b.toNat % 16 = b.toNat := by omega
      show hexBytes (hexUnit (b.toNat / 16) :: hexUnit (b.toNat % 16) :: hexText bytes) = _
      rw [hexBytes, hexUnitValue_hexUnit (by omega), hexUnitValue_hexUnit (by omega), ih]
      simp only [Option.bind_eq_bind, Option.bind_some, hvalue, UInt8.ofNat_toNat]
      rfl

/-! ## The query of a URL -/

/-- The four bits of an ASCII digit. -/
def hexByteValue (b : UInt8) : Option Nat := hexUnitValue (UInt16.ofNat b.toNat)

/-- Percent-decoding. -/
def percentDecode : List UInt8 → List UInt8
  | [] => []
  | b :: bytes =>
      if b = 0x25 then
        match bytes with
        | u :: v :: rest =>
            match hexByteValue u, hexByteValue v with
            | some high, some low => UInt8.ofNat (high * 16 + low) :: percentDecode rest
            | _, _ => b :: percentDecode (u :: v :: rest)
        | short => b :: short
      else b :: percentDecode bytes

/-- A name or a value: a plus sign is a space, and what has been percent-encoded is decoded. -/
def fieldString (bytes : List UInt8) : List UInt16 :=
  utf16 (decodeUtf8 (percentDecode (bytes.map fun b => if b = 0x2B then 0x20 else b)))

/-- The name and the value of a part: they are split at the first `=`. -/
def fieldOf (bytes : List UInt8) : List UInt16 × List UInt16 :=
  (fieldString (bytes.takeWhile (· ≠ 0x3D)), fieldString ((bytes.dropWhile (· ≠ 0x3D)).drop 1))

/-- The fields of a query. -/
def queryFields (bytes : List UInt8) : List (List UInt16 × List UInt16) :=
  ((bytes.splitOnP (· == 0x26)).filter fun part => part ≠ []).map fieldOf

/-- `new URLSearchParams(query).get(name)`. -/
def searchParam (query name : List UInt16) : Option (List UInt16) :=
  let query := if query.head? = some (unit '?') then query.tail else query
  ((queryFields (utf8 (scalars query))).find? fun p => p.1 = utf16 (scalars name)).map Prod.snd

/-- A character that is ASCII and has no meaning in a query. -/
def isPlain (c : Char) : Bool := c.toNat < 0x80 && c ∉ ['&', '=', '+', '%', '?']

theorem isPlain_ascii {cs : List Char} (h : ∀ c ∈ cs, isPlain c = true) :
    ∀ c ∈ cs, c.toNat < 0x80 := by
  intro c hc
  have hplain := h c hc
  simp only [isPlain, Bool.and_eq_true, decide_eq_true_eq] at hplain
  exact hplain.1

/-- The byte of a plain character is none of the bytes with a meaning. -/
theorem asciiByte_ne {c : Char} (h : isPlain c = true) :
    asciiByte c ∉ ([0x26, 0x3D, 0x2B, 0x25] : List UInt8) := by
  simp only [isPlain, Bool.and_eq_true, decide_eq_true_eq] at h
  have hne {d : Char} (hd : d.toNat < 0x80) (hmem : d ∈ ['&', '=', '+', '%', '?']) :
      asciiByte c ≠ asciiByte d := by
    intro heq
    rw [← asciiByte_injective h.1 hd heq] at hmem
    exact h.2 hmem
  simp only [List.mem_cons, List.not_mem_nil, or_false, not_or]
  exact ⟨hne (d := '&') (by decide) (by simp), hne (d := '=') (by decide) (by simp),
    hne (d := '+') (by decide) (by simp), hne (d := '%') (by decide) (by simp)⟩

theorem percentDecode_eq {bytes : List UInt8} (h : ∀ b ∈ bytes, b ≠ 0x25) :
    percentDecode bytes = bytes := by
  induction bytes with
  | nil => rfl
  | cons b bytes ih =>
      rw [percentDecode.eq_def]
      simp only [if_neg (h b List.mem_cons_self)]
      rw [ih fun b' hb' => h b' (List.mem_cons_of_mem b hb')]

/-- Plain characters stand for themselves. -/
theorem fieldString_plain {cs : List Char} (h : ∀ c ∈ cs, isPlain c = true) :
    fieldString (cs.map asciiByte) = utf16 cs := by
  have hbytes : ∀ b ∈ cs.map asciiByte, b ≠ 0x2B ∧ b ≠ 0x25 := by
    intro b hb
    obtain ⟨c, hc, rfl⟩ := List.mem_map.1 hb
    have hne := asciiByte_ne (h c hc)
    simp only [List.mem_cons, List.not_mem_nil, or_false, not_or] at hne
    exact ⟨hne.2.2.1, hne.2.2.2⟩
  have hplus : ((cs.map asciiByte).map fun b => if b = 0x2B then 0x20 else b) =
      cs.map asciiByte := by
    nth_rewrite 2 [← List.map_id (cs.map asciiByte)]
    apply List.map_congr_left
    intro b hb
    exact if_neg (hbytes b hb).1
  rw [fieldString, hplus, percentDecode_eq fun b hb => (hbytes b hb).2,
    ← utf8_eq_map (isPlain_ascii h), decodeUtf8_utf8]

/-- The text of a field. -/
def fieldChars (name value : List Char) : List Char := name ++ '=' :: value

section

variable {name value : List Char} (hname : ∀ c ∈ name, isPlain c = true)
  (hvalue : ∀ c ∈ value, isPlain c = true)

include hname hvalue

theorem fieldChars_ascii : ∀ c ∈ fieldChars name value, c.toNat < 0x80 := by
  intro c hc
  rcases List.mem_append.1 hc with hc | hc
  · exact isPlain_ascii hname c hc
  · rcases List.mem_cons.1 hc with rfl | hc
    · decide
    · exact isPlain_ascii hvalue c hc

theorem utf8_fieldChars :
    utf8 (fieldChars name value) = name.map asciiByte ++ 0x3D :: value.map asciiByte := by
  rw [utf8_eq_map (fieldChars_ascii hname hvalue), fieldChars, List.map_append, List.map_cons]
  rfl

theorem utf8_fieldChars_ne : ∀ b ∈ utf8 (fieldChars name value), (b == 0x26) = false := by
  have hplain : ∀ {cs : List Char}, (∀ c ∈ cs, isPlain c = true) →
      ∀ b ∈ cs.map asciiByte, (b == 0x26) = false := by
    intro cs hcs b hb
    obtain ⟨c, hc, rfl⟩ := List.mem_map.1 hb
    have hne := asciiByte_ne (hcs c hc)
    simp only [List.mem_cons, List.not_mem_nil, or_false, not_or] at hne
    exact beq_eq_false_iff_ne.2 hne.1
  intro b hb
  rw [utf8_fieldChars hname hvalue] at hb
  rcases List.mem_append.1 hb with hb | hb
  · exact hplain hname b hb
  · rcases List.mem_cons.1 hb with rfl | hb
    · rfl
    · exact hplain hvalue b hb

/-- A field of plain characters. -/
theorem fieldOf_plain : fieldOf (utf8 (fieldChars name value)) = (utf16 name, utf16 value) := by
  have hbefore : ∀ b ∈ name.map asciiByte, decide (b ≠ 0x3D) = true := by
    intro b hb
    obtain ⟨c, hc, rfl⟩ := List.mem_map.1 hb
    have hne := asciiByte_ne (hname c hc)
    simp only [List.mem_cons, List.not_mem_nil, or_false, not_or] at hne
    exact decide_eq_true hne.2.1
  rw [utf8_fieldChars hname hvalue, fieldOf, List.takeWhile_append_of_pos hbefore,
    List.dropWhile_append_of_pos hbefore]
  simp only [ne_eq, not_true_eq_false, decide_false, Bool.false_eq_true, not_false_eq_true,
    List.takeWhile_cons_of_neg, List.dropWhile_cons_of_neg, List.append_nil, List.drop_succ_cons,
    List.drop_zero, fieldString_plain hname, fieldString_plain hvalue]

end

/-- Two fields of plain characters are split again. -/
theorem queryFields_two {name₁ value₁ name₂ value₂ : List Char}
    (hname₁ : ∀ c ∈ name₁, isPlain c = true) (hvalue₁ : ∀ c ∈ value₁, isPlain c = true)
    (hname₂ : ∀ c ∈ name₂, isPlain c = true) (hvalue₂ : ∀ c ∈ value₂, isPlain c = true) :
    queryFields (utf8 (fieldChars name₁ value₁ ++ '&' :: fieldChars name₂ value₂)) =
      [(utf16 name₁, utf16 value₁), (utf16 name₂, utf16 value₂)] := by
  have hne : ∀ {name value : List Char}, (∀ c ∈ name, isPlain c = true) →
      (∀ c ∈ value, isPlain c = true) → utf8 (fieldChars name value) ≠ [] := by
    intro name value hname hvalue
    rw [utf8_fieldChars hname hvalue]
    exact List.append_ne_nil_of_right_ne_nil _ (List.cons_ne_nil _ _)
  have hsplit : (utf8 (fieldChars name₁ value₁ ++ '&' :: fieldChars name₂ value₂)).splitOnP
      (· == 0x26) = [utf8 (fieldChars name₁ value₁), utf8 (fieldChars name₂ value₂)] := by
    rw [utf8_append, utf8_cons]
    show List.splitOnP _ (utf8 (fieldChars name₁ value₁) ++ 0x26 :: utf8 (fieldChars name₂ value₂)) = _
    rw [List.splitOnP_append_cons_of_forall_mem (utf8_fieldChars_ne hname₁ hvalue₁) 0x26 rfl,
      List.splitOnP_eq_singleton (utf8_fieldChars_ne hname₂ hvalue₂)]
  rw [queryFields, hsplit]
  simp [hne hname₁ hvalue₁, hne hname₂ hvalue₂, fieldOf_plain hname₁ hvalue₁,
    fieldOf_plain hname₂ hvalue₂]

/-- The second field of a query of plain characters is found by its name. -/
theorem searchParam_second {name₁ value₁ name₂ value₂ : List Char}
    (hname₁ : ∀ c ∈ name₁, isPlain c = true) (hvalue₁ : ∀ c ∈ value₁, isPlain c = true)
    (hname₂ : ∀ c ∈ name₂, isPlain c = true) (hvalue₂ : ∀ c ∈ value₂, isPlain c = true)
    (hne : name₁ ≠ name₂) (hfirst : name₁ ≠ []) :
    searchParam (utf16 (fieldChars name₁ value₁ ++ '&' :: fieldChars name₂ value₂)) (utf16 name₂) =
      some (utf16 value₂) := by
  have hhead : (utf16 (fieldChars name₁ value₁ ++ '&' :: fieldChars name₂ value₂)).head? ≠
      some (unit '?') := by
    cases name₁ with
    | nil => exact absurd rfl hfirst
    | cons c name₁ =>
        have hc := hname₁ c List.mem_cons_self
        simp only [isPlain, Bool.and_eq_true, decide_eq_true_eq] at hc
        rw [fieldChars, List.cons_append, List.cons_append, utf16_cons, utf16Char_of_lt hc.1]
        intro heq
        have hmark := unit_injective (d := '?') hc.1 (by decide) (Option.some.inj heq)
        exact hc.2 (by rw [hmark]; simp)
  have hname : utf16 name₁ ≠ utf16 name₂ := fun heq => hne (utf16_injective heq)
  rw [searchParam]
  simp only [if_neg hhead, scalars_utf16, queryFields_two hname₁ hvalue₁ hname₂ hvalue₂]
  simp [hname]

end TorE2EE.Foundation
