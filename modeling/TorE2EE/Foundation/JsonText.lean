import Mathlib.Algebra.Group.Int.Defs
import Mathlib.Algebra.Group.Nat.Defs
import TorE2EE.Foundation.Json
import TorE2EE.Foundation.Unicode

/-!
# JSON texts

`JSON.stringify` and `JSON.parse` on strings of code units. A string is written with its quotation
marks, reverse solidi and control characters escaped, and so is a surrogate without its other half:
the text of a value is well-formed UTF-16 whatever its strings hold (`isWellFormed_stringify`). The
parser takes back what was written (`parse_stringify`).

The language writes a number in more forms than a program of integers meets. They are a parameter,
`Numerals`, of which `Numerals.Lawful` says that a number is read back from its text.
-/

set_option autoImplicit false

namespace TorE2EE.Foundation

/-- The code unit of a character that has one. -/
def unit (c : Char) : UInt16 := UInt16.ofNat c.toNat

/-- The code units of a text that has one for every character. -/
def units (s : String) : List UInt16 := s.toList.map unit

/-! ## Numbers -/

/-- An integer that is a number of the language: 53 bits, shifted. -/
def IsNumber (n : Int) : Prop :=
  ∃ (m : Int) (e : Nat), m.natAbs < 2 ^ 53 ∧ e ≤ 971 ∧ n = m * 2 ^ e

/-- How numbers are written and read. -/
structure Numerals where
  /-- `String(n)`. -/
  text : Rat → List UInt16
  /-- The number of a JSON numeral: `none` when the text is no numeral. -/
  read : List UInt16 → Option Rat

/-- A unit of a numeral. -/
def isNumeralUnit (u : UInt16) : Bool := u ∈ units "0123456789+-.eE"

/-- What the language says of the text of a number. -/
structure Numerals.Lawful (N : Numerals) : Prop where
  read_text : ∀ n : Int, IsNumber n → N.read (N.text n) = some (n : Rat)
  text_ne_nil : ∀ n : Int, IsNumber n → N.text n ≠ []
  isNumeralUnit_text : ∀ n : Int, IsNumber n → ∀ u ∈ N.text n, isNumeralUnit u = true

/-! ## Writing -/

namespace JsonText

def quotationMark : UInt16 := 0x22
def reverseSolidus : UInt16 := 0x5C
def comma : UInt16 := 0x2C
def colon : UInt16 := 0x3A
def openBracket : UInt16 := 0x5B
def closeBracket : UInt16 := 0x5D
def openBrace : UInt16 := 0x7B
def closeBrace : UInt16 := 0x7D

/-- The digit of four bits, in lower case. -/
def hexUnit (n : Nat) : UInt16 := UInt16.ofNat (if n < 10 then 0x30 + n else 0x61 + (n - 10))

/-- The four bits of a digit. -/
def hexUnitValue (u : UInt16) : Option Nat :=
  if 0x30 ≤ u.toNat ∧ u.toNat ≤ 0x39 then some (u.toNat - 0x30)
  else if 0x41 ≤ u.toNat ∧ u.toNat ≤ 0x46 then some (u.toNat - 0x41 + 10)
  else if 0x61 ≤ u.toNat ∧ u.toNat ≤ 0x66 then some (u.toNat - 0x61 + 10)
  else none

/-- A unit as a reverse solidus, a `u` and four digits. -/
def unicodeEscape (u : UInt16) : List UInt16 :=
  [reverseSolidus, unit 'u', hexUnit (u.toNat / 4096), hexUnit (u.toNat / 256 % 16),
    hexUnit (u.toNat / 16 % 16), hexUnit (u.toNat % 16)]

/-- The units with an escape of two units, and its second one. -/
def shortEscapes : List (UInt16 × UInt16) :=
  [(quotationMark, quotationMark), (reverseSolidus, reverseSolidus), (0x08, unit 'b'),
    (0x0C, unit 'f'), (0x0A, unit 'n'), (0x0D, unit 'r'), (0x09, unit 't')]

/-- A unit that is no half of a surrogate pair, as it stands in a string. -/
def escapeUnit (u : UInt16) : List UInt16 :=
  match shortEscapes.find? fun p => p.1 = u with
  | some p => [reverseSolidus, p.2]
  | none =>
      if u.toNat < 0x20 || isHighSurrogate u || isLowSurrogate u then unicodeEscape u else [u]

/-- The units of a string, escaped. -/
def escape : List UInt16 → List UInt16
  | [] => []
  | [u] => escapeUnit u
  | u :: v :: rest =>
      if isHighSurrogate u && isLowSurrogate v then u :: v :: escape rest
      else escapeUnit u ++ escape (v :: rest)

/-- A string between its quotation marks. -/
def quote (s : List UInt16) : List UInt16 := quotationMark :: (escape s ++ [quotationMark])

mutual

/-- `JSON.stringify`. -/
def stringify (N : Numerals) : Json (List UInt16) → List UInt16
  | .null => units "null"
  | .bool true => units "true"
  | .bool false => units "false"
  | .number n => N.text n
  | .string s => quote s
  | .array items => openBracket :: ([comma].intercalate (itemTexts N items) ++ [closeBracket])
  | .object fields => openBrace :: ([comma].intercalate (fieldTexts N fields) ++ [closeBrace])

/-- The texts of the items of an array. -/
def itemTexts (N : Numerals) : List (Json (List UInt16)) → List (List UInt16)
  | [] => []
  | v :: items => stringify N v :: itemTexts N items

/-- The texts of the fields of an object. -/
def fieldTexts (N : Numerals) : List (List UInt16 × Json (List UInt16)) → List (List UInt16)
  | [] => []
  | (name, v) :: fields => (quote name ++ colon :: stringify N v) :: fieldTexts N fields

end

/-! ## Reading -/

/-- White space between the tokens. -/
def isSpace (u : UInt16) : Bool := u = 0x20 || u = 0x0A || u = 0x0D || u = 0x09

def skipSpace (text : List UInt16) : List UInt16 := text.dropWhile isSpace

/-- The unit of an escape of two units. -/
def unescape (e : UInt16) : Option UInt16 :=
  if e = unit '/' then some e else (shortEscapes.find? fun p => p.2 = e).map Prod.fst

/-- The unit of four digits. -/
def readHex (a b c d : UInt16) : Option UInt16 := do
  let a ← hexUnitValue a
  let b ← hexUnitValue b
  let c ← hexUnitValue c
  let d ← hexUnitValue d
  pure (UInt16.ofNat (a * 4096 + b * 256 + c * 16 + d))

/-- A unit read before the rest of a string. -/
def pushUnit (u : UInt16) (read : List UInt16 × List UInt16) : List UInt16 × List UInt16 :=
  (u :: read.1, read.2)

/-- A string after its first quotation mark, with what follows it. -/
def readString : List UInt16 → Option (List UInt16 × List UInt16)
  | [] => none
  | u :: text =>
      if u = quotationMark then some ([], text)
      else if u = reverseSolidus then
        match text with
        | [] => none
        | e :: text =>
            if e = unit 'u' then
              match text with
              | a :: b :: c :: d :: text =>
                  (readHex a b c d).bind fun v => (readString text).map (pushUnit v)
              | _ => none
            else (unescape e).bind fun v => (readString text).map (pushUnit v)
      else if u.toNat < 0x20 then none
      else (readString text).map (pushUnit u)

/-- A word of the grammar. -/
def readWord (word : String) (v : Json (List UInt16)) (text : List UInt16) :
    Option (Json (List UInt16) × List UInt16) :=
  if (units word).isPrefixOf text then some (v, text.drop (units word).length) else none

/-- A numeral: no unit of one follows a value, so that it is all the units there are. -/
def readNumeral (N : Numerals) (text : List UInt16) :
    Option (Json (List UInt16) × List UInt16) :=
  (N.read (text.takeWhile isNumeralUnit)).map fun n => (.number n, text.dropWhile isNumeralUnit)

/-- A field, where `value` reads its value. -/
def readField (value : List UInt16 → Option (Json (List UInt16) × List UInt16))
    (text : List UInt16) : Option ((List UInt16 × Json (List UInt16)) × List UInt16) :=
  match skipSpace text with
  | [] => none
  | u :: text =>
      if u = quotationMark then do
        let (name, text) ← readString text
        match skipSpace text with
        | [] => none
        | u :: text =>
            if u = colon then do
              let (v, rest) ← value text
              pure ((name, v), rest)
            else none
      else none

section

variable {α : Type} (close : UInt16) (item : List UInt16 → Option (α × List UInt16))

/-- The items after one, up to the unit that closes the list. -/
def readTail : Nat → List UInt16 → Option (List α × List UInt16)
  | 0, _ => none
  | n + 1, text =>
      match skipSpace text with
      | [] => none
      | u :: text =>
          if u = close then some ([], text)
          else if u = comma then do
            let (v, rest) ← item text
            let (items, rest) ← readTail n rest
            pure (v :: items, rest)
          else none

/-- The items of a list after the unit that opens it. -/
def readList (n : Nat) (text : List UInt16) : Option (List α × List UInt16) :=
  match skipSpace text with
  | [] => none
  | u :: after =>
      if u = close then some ([], after)
      else do
        let (v, rest) ← item text
        let (items, rest) ← readTail close item n rest
        pure (v :: items, rest)

end

/-- A value, with what follows it. -/
def readValue (N : Numerals) : Nat → List UInt16 → Option (Json (List UInt16) × List UInt16)
  | 0, _ => none
  | n + 1, text =>
      match skipSpace text with
      | [] => none
      | u :: text =>
          if u = quotationMark then (readString text).map fun p => (.string p.1, p.2)
          else if u = openBracket then
            (readList closeBracket (readValue N n) n text).map fun p => (.array p.1, p.2)
          else if u = openBrace then
            (readList closeBrace (readField (readValue N n)) n text).map fun p =>
              (.object p.1, p.2)
          else
            readWord "null" .null (u :: text) <|> readWord "true" (.bool true) (u :: text) <|>
              readWord "false" (.bool false) (u :: text) <|> readNumeral N (u :: text)

/-- `JSON.parse`, where `none` stands for its `SyntaxError`. Values within values, and the items of a
list, are no more than the units of the text. -/
def parse (N : Numerals) (text : List UInt16) : Option (Json (List UInt16)) :=
  match readValue N text.length text with
  | some (v, rest) => if skipSpace rest = [] then some v else none
  | none => none

/-! ## Strings are read back -/

theorem hexUnitValue_hexUnit {n : Nat} (h : n < 16) : hexUnitValue (hexUnit n) = some n := by
  have hall : ∀ k : Fin 16, hexUnitValue (hexUnit k) = some k.val := by decide
  exact hall ⟨n, h⟩

/-- The four digits of a unit. -/
theorem readHex_hexUnit (u : UInt16) :
    readHex (hexUnit (u.toNat / 4096)) (hexUnit (u.toNat / 256 % 16)) (hexUnit (u.toNat / 16 % 16))
      (hexUnit (u.toNat % 16)) = some u := by
  have hu := u.toNat_lt
  have hvalue : u.toNat / 4096 * 4096 + u.toNat / 256 % 16 * 256 + u.toNat / 16 % 16 * 16 +
      u.toNat % 16 = u.toNat := by omega
  rw [readHex, hexUnitValue_hexUnit (by omega), hexUnitValue_hexUnit (by omega),
    hexUnitValue_hexUnit (by omega), hexUnitValue_hexUnit (by omega)]
  simp only [Option.bind_eq_bind, Option.bind_some, hvalue, UInt16.ofNat_toNat]
  rfl

/-- A short escape is read as the unit it stands for. -/
theorem unescape_of_find {u : UInt16} {p : UInt16 × UInt16}
    (h : (shortEscapes.find? fun p => p.1 = u) = some p) :
    p.2 ≠ unit 'u' ∧ unescape p.2 = some u := by
  have hall := List.all_eq_true.1 (show (shortEscapes.all fun p =>
    decide (p.2 ≠ unit 'u' ∧ unescape p.2 = some p.1)) = true by decide +kernel)
  have hfirst : p.1 = u := by simpa using List.find?_some h
  rw [← hfirst]
  exact of_decide_eq_true (hall p (List.mem_of_find?_eq_some h))

/-- A unit without a short escape is neither a quotation mark nor a reverse solidus. -/
theorem ne_of_find_none {u : UInt16} (h : (shortEscapes.find? fun p => p.1 = u) = none) :
    u ≠ quotationMark ∧ u ≠ reverseSolidus := by
  rw [List.find?_eq_none] at h
  constructor
  · rintro rfl
    exact h (quotationMark, quotationMark) (by simp [shortEscapes]) (by simp)
  · rintro rfl
    exact h (reverseSolidus, reverseSolidus) (by simp [shortEscapes]) (by simp)

theorem readString_end (text : List UInt16) :
    readString (quotationMark :: text) = some ([], text) := by
  rw [readString.eq_def]
  simp only [if_true]

theorem readString_plain {u : UInt16} (hquote : u ≠ quotationMark) (hsolidus : u ≠ reverseSolidus)
    (hcontrol : 0x20 ≤ u.toNat) (text : List UInt16) :
    readString (u :: text) = (readString text).map (pushUnit u) := by
  rw [readString.eq_def]
  simp only [if_neg hquote, if_neg hsolidus, if_neg (Nat.not_lt.2 hcontrol)]

theorem readString_short {e v : UInt16} (hu : e ≠ unit 'u') (he : unescape e = some v)
    (text : List UInt16) :
    readString (reverseSolidus :: e :: text) = (readString text).map (pushUnit v) := by
  rw [readString.eq_def]
  simp only [if_neg (show reverseSolidus ≠ quotationMark by decide), if_true, if_neg hu, he,
    Option.bind_some]

theorem readString_unicodeEscape (u : UInt16) (text : List UInt16) :
    readString (unicodeEscape u ++ text) = (readString text).map (pushUnit u) := by
  rw [readString.eq_def]
  simp only [unicodeEscape, List.cons_append, List.nil_append,
    if_neg (show reverseSolidus ≠ quotationMark by decide), if_true, readHex_hexUnit,
    Option.bind_some]

/-- An escaped unit is read back, whatever follows it. -/
theorem readString_escapeUnit (u : UInt16) (text : List UInt16) :
    readString (escapeUnit u ++ text) = (readString text).map (pushUnit u) := by
  rw [escapeUnit]
  split
  · next p hfind =>
    -- a short escape
    obtain ⟨hu, hunescape⟩ := unescape_of_find hfind
    exact readString_short hu hunescape text
  · next hfind =>
    obtain ⟨hquote, hsolidus⟩ := ne_of_find_none hfind
    split
    · -- a control character or half a surrogate pair
      exact readString_unicodeEscape u text
    · next hplain =>
      simp only [Bool.or_eq_true, decide_eq_true_eq, not_or, Nat.not_lt] at hplain
      exact readString_plain hquote hsolidus hplain.1.1 text

/-- Both halves of a surrogate pair stand for themselves. -/
theorem readString_pair {u v : UInt16} (h : (isHighSurrogate u && isLowSurrogate v) = true)
    (text : List UInt16) :
    readString (u :: v :: text) = (readString text).map fun p => pushUnit u (pushUnit v p) := by
  simp only [isHighSurrogate, isLowSurrogate, Bool.and_eq_true, decide_eq_true_eq] at h
  have hne {w k : UInt16} (hw : 0xD800 ≤ w.toNat) (hk : k.toNat < 0xD800) : w ≠ k := by
    rintro rfl
    omega
  rw [readString_plain (hne h.1.1 (by decide)) (hne h.1.1 (by decide)) (by omega),
    readString_plain (hne (by omega) (by decide)) (hne (by omega) (by decide)) (by omega),
    Option.map_map]
  rfl

/-- A string is read back up to its quotation mark. -/
theorem readString_escape (s rest : List UInt16) :
    readString (escape s ++ quotationMark :: rest) = some (s, rest) := by
  -- the recursion of `escape` looks at two units at once, for a surrogate pair
  induction s using escape.induct with
  | case1 => exact readString_end rest
  | case2 u =>
      rw [escape, readString_escapeUnit, readString_end]
      rfl
  | case3 u v s hpair ih =>
      rw [escape, if_pos hpair, List.cons_append, List.cons_append, readString_pair hpair, ih]
      rfl
  | case4 u v s hpair ih =>
      rw [escape, if_neg hpair, List.append_assoc, readString_escapeUnit, ih]
      rfl

/-! ## Values are read back -/

/-- A value whose numbers are integers of the language. -/
inductive Integral : Json (List UInt16) → Prop where
  | null : Integral .null
  | bool (b : Bool) : Integral (.bool b)
  | number {n : Int} (h : IsNumber n) : Integral (.number n)
  | string (s : List UInt16) : Integral (.string s)
  | array {items : List (Json (List UInt16))} (h : ∀ v ∈ items, Integral v) :
      Integral (.array items)
  | object {fields : List (List UInt16 × Json (List UInt16))} (h : ∀ f ∈ fields, Integral f.2) :
      Integral (.object fields)

/-- No numeral goes on here. -/
def EndsNumeral (rest : List UInt16) : Prop := ∀ u, rest.head? = some u → isNumeralUnit u = false

variable {N : Numerals}

theorem itemTexts_eq (items : List (Json (List UInt16))) :
    itemTexts N items = items.map (stringify N) := by
  induction items with
  | nil => rfl
  | cons v items ih => rw [itemTexts, ih, List.map_cons]

/-- The text of a field. -/
def fieldText (N : Numerals) (field : List UInt16 × Json (List UInt16)) : List UInt16 :=
  quote field.1 ++ colon :: stringify N field.2

theorem fieldTexts_eq (fields : List (List UInt16 × Json (List UInt16))) :
    fieldTexts N fields = fields.map (fieldText N) := by
  induction fields with
  | nil => rfl
  | cons field fields ih => rw [fieldTexts, ih, List.map_cons, fieldText]

/-- After the first part every part comes with its separator. -/
theorem intercalate_cons (sep first : List UInt16) (parts : List (List UInt16)) :
    sep.intercalate (first :: parts) = first ++ parts.flatMap (sep ++ ·) := by
  induction parts generalizing first with
  | nil => simp
  | cons part parts ih =>
      rw [List.intercalate_cons_cons, ih, List.flatMap_cons]
      simp only [List.append_assoc]

/-- A numeral begins neither white space nor another token. -/
theorem isNumeralUnit_facts {u : UInt16} (h : isNumeralUnit u = true) :
    isSpace u = false ∧ u ∉ [quotationMark, openBracket, openBrace, closeBracket, unit 'n',
      unit 't', unit 'f'] := by
  have hall := List.all_eq_true.1 (show ((units "0123456789+-.eE").all fun u =>
    decide (isSpace u = false ∧ u ∉ [quotationMark, openBracket, openBrace, closeBracket,
      unit 'n', unit 't', unit 'f'])) = true by decide +kernel)
  exact of_decide_eq_true (hall u (of_decide_eq_true h))

/-- A value begins with a unit that is neither white space nor the end of an array. -/
theorem stringify_head (hN : N.Lawful) {v : Json (List UInt16)} (hv : Integral v) :
    ∃ u text, stringify N v = u :: text ∧ isSpace u = false ∧ u ≠ closeBracket := by
  cases hv with
  | null => exact ⟨_, _, rfl, by decide, by decide⟩
  | bool b =>
      cases b with
      | false => exact ⟨_, _, rfl, by decide, by decide⟩
      | true => exact ⟨_, _, rfl, by decide, by decide⟩
  | @number n h =>
      cases htext : N.text n with
      | nil => exact absurd htext (hN.text_ne_nil n h)
      | cons u text =>
          have hu := hN.isNumeralUnit_text n h u (by rw [htext]; exact List.mem_cons_self)
          obtain ⟨hspace, hother⟩ := isNumeralUnit_facts hu
          refine ⟨u, text, htext, hspace, ?_⟩
          rintro rfl
          exact hother (by simp)
  | string s => exact ⟨_, _, rfl, by decide, by decide⟩
  | array h => exact ⟨_, _, rfl, by decide, by decide⟩
  | object h => exact ⟨_, _, rfl, by decide, by decide⟩

theorem skipSpace_cons {u : UInt16} (h : isSpace u = false) (text : List UInt16) :
    skipSpace (u :: text) = u :: text := by
  rw [skipSpace, List.dropWhile_cons_of_neg (by rw [h]; exact Bool.false_ne_true)]

theorem endsNumeral_cons {u : UInt16} (h : isNumeralUnit u = false) (rest : List UInt16) :
    EndsNumeral (u :: rest) := by
  rintro _ ⟨⟩
  exact h

/-! ### Lists -/

section

variable {α : Type} {close : UInt16} {item : List UInt16 → Option (α × List UInt16)}
  {write : α → List UInt16}

/-- `item` reads back what `write` wrote of the value. -/
def ReadsBack (item : List UInt16 → Option (α × List UInt16)) (write : α → List UInt16) (v : α) :
    Prop :=
  ∀ rest, EndsNumeral rest → item (write v ++ rest) = some (v, rest)

theorem readTail_close (hclose : isSpace close = false) (n : Nat) (rest : List UInt16) :
    readTail close item (n + 1) (close :: rest) = some ([], rest) := by
  simp only [readTail, skipSpace_cons hclose, if_true]

theorem readTail_comma (hcomma : comma ≠ close) {v : α} {text rest : List UInt16}
    (hv : item text = some (v, rest)) (n : Nat) :
    readTail close item (n + 1) (comma :: text) =
      (readTail close item n rest).map fun p => (v :: p.1, p.2) := by
  simp only [readTail, skipSpace_cons (show isSpace comma = false by decide), if_neg hcomma, if_true,
    hv, Option.bind_eq_bind, Option.bind_some]
  cases readTail close item n rest <;> rfl

/-- The items after the first one are read back, each after its comma. -/
theorem readTail_parts (hclose : isSpace close = false) (hends : isNumeralUnit close = false)
    (hcomma : comma ≠ close) {items : List α} (hread : ∀ v ∈ items, ReadsBack item write v)
    {n : Nat} (hn : items.length < n) (rest : List UInt16) :
    readTail close item n ((items.map write).flatMap ([comma] ++ ·) ++ close :: rest) =
      some (items, rest) := by
  induction items generalizing n with
  | nil =>
      obtain ⟨n, rfl⟩ := Nat.exists_eq_succ_of_ne_zero (Nat.ne_of_gt hn)
      exact readTail_close hclose n rest
  | cons v items ih =>
      obtain ⟨n, rfl⟩ := Nat.exists_eq_succ_of_ne_zero (Nat.ne_of_gt (Nat.zero_lt_of_lt hn))
      -- the item is followed by a comma or the end of the list, so a numeral ends there
      have hafter : EndsNumeral ((items.map write).flatMap ([comma] ++ ·) ++ close :: rest) := by
        cases items with
        | nil => exact endsNumeral_cons hends rest
        | cons w items => exact endsNumeral_cons (by decide) _
      have hfirst := hread v List.mem_cons_self _ hafter
      have hrest := ih (fun w hw => hread w (List.mem_cons_of_mem v hw)) (Nat.lt_of_succ_lt_succ hn)
      rw [List.map_cons, List.flatMap_cons, List.append_assoc, List.append_assoc,
        List.singleton_append, readTail_comma hcomma hfirst, hrest]
      rfl

/-- A list is read back, from the unit after the one that opens it. -/
theorem readList_parts (hclose : isSpace close = false) (hends : isNumeralUnit close = false)
    (hcomma : comma ≠ close) {items : List α} (hread : ∀ v ∈ items, ReadsBack item write v)
    (hhead : ∀ v ∈ items, ∃ u text, write v = u :: text ∧ isSpace u = false ∧ u ≠ close)
    {n : Nat} (hn : items.length ≤ n) (rest : List UInt16) :
    readList close item n ([comma].intercalate (items.map write) ++ close :: rest) =
      some (items, rest) := by
  cases items with
  | nil => simp [readList, skipSpace_cons hclose]
  | cons v items =>
      obtain ⟨u, text, hwrite, hspace, hne⟩ := hhead v List.mem_cons_self
      have hafter : EndsNumeral ((items.map write).flatMap ([comma] ++ ·) ++ close :: rest) := by
        cases items with
        | nil => exact endsNumeral_cons hends rest
        | cons w items => exact endsNumeral_cons (by decide) _
      have hfirst := hread v List.mem_cons_self _ hafter
      have htail := readTail_parts hclose hends hcomma
        (fun w hw => hread w (List.mem_cons_of_mem v hw)) (Nat.lt_of_succ_le hn) rest
      rw [List.map_cons, intercalate_cons, List.append_assoc, readList]
      -- the first unit is one of the first item, so that the list is not empty
      rw [hwrite, List.cons_append, skipSpace_cons hspace]
      dsimp only
      rw [if_neg hne, ← List.cons_append, ← hwrite, hfirst]
      simp only [Option.bind_eq_bind, Option.bind_some, htail]
      rfl

end

/-! ### Values -/

theorem readWord_append (word : String) (v : Json (List UInt16)) (rest : List UInt16) :
    readWord word v (units word ++ rest) = some (v, rest) := by
  simp [readWord]

/-- What begins neither a string nor a list is a word or a numeral. -/
theorem readValue_word {text : List UInt16}
    (h : ∀ u ∈ text.head?, isSpace u = false ∧ u ∉ [quotationMark, openBracket, openBrace])
    (hne : text ≠ []) (n : Nat) (rest : List UInt16) :
    readValue N (n + 1) (text ++ rest) =
      (readWord "null" .null (text ++ rest) <|> readWord "true" (.bool true) (text ++ rest) <|>
        readWord "false" (.bool false) (text ++ rest) <|> readNumeral N (text ++ rest)) := by
  cases text with
  | nil => exact absurd rfl hne
  | cons u text =>
      obtain ⟨hspace, hother⟩ := h u rfl
      simp only [List.mem_cons, List.not_mem_nil, or_false, not_or] at hother
      obtain ⟨hquote, hbracket, hbrace⟩ := hother
      rw [List.cons_append, readValue, skipSpace_cons hspace]
      simp only [if_neg hquote, if_neg hbracket, if_neg hbrace]

theorem readNumeral_text (hN : N.Lawful) {n : Int} (hn : IsNumber n) {rest : List UInt16}
    (hrest : EndsNumeral rest) :
    readNumeral N (N.text n ++ rest) = some (.number n, rest) := by
  have hunits := hN.isNumeralUnit_text n hn
  -- the numeral is all that is taken, since what follows does not go on with it
  have htake : rest.takeWhile isNumeralUnit = [] ∧ rest.dropWhile isNumeralUnit = rest := by
    cases rest with
    | nil => exact ⟨rfl, rfl⟩
    | cons u rest =>
        have hu := hrest u rfl
        simp [hu]
  rw [readNumeral, List.takeWhile_append_of_pos hunits, List.dropWhile_append_of_pos hunits,
    htake.1, htake.2, List.append_nil, hN.read_text n hn]
  rfl

theorem readValue_string (n : Nat) (s rest : List UInt16) :
    readValue N (n + 1) (quote s ++ rest) = some (.string s, rest) := by
  rw [quote, List.cons_append, List.append_assoc, List.singleton_append, readValue,
    skipSpace_cons (by decide)]
  simp only [if_true, readString_escape, Option.map_some]

/-- A field is read back when its value is. -/
theorem readField_fieldText {item : List UInt16 → Option (Json (List UInt16) × List UInt16)}
    {field : List UInt16 × Json (List UInt16)} (h : ReadsBack item (stringify N) field.2) :
    ReadsBack (readField item) (fieldText N) field := by
  intro rest hrest
  rw [fieldText, quote, List.cons_append, List.cons_append, List.append_assoc, List.append_assoc,
    List.singleton_append, readField, skipSpace_cons (by decide)]
  simp only [if_true, readString_escape, Option.bind_eq_bind, Option.bind_some, List.cons_append,
    skipSpace_cons (show isSpace colon = false by decide), h rest hrest]
  rfl

/-- A numeral is none of the other tokens. -/
theorem readValue_number (hN : N.Lawful) {k : Int} (hk : IsNumber k) (n : Nat) {rest : List UInt16}
    (hrest : EndsNumeral rest) :
    readValue N (n + 1) (N.text k ++ rest) = some (.number k, rest) := by
  have hread := readNumeral_text hN hk hrest
  cases htext : N.text k with
  | nil => exact absurd htext (hN.text_ne_nil k hk)
  | cons u text =>
      have hu := hN.isNumeralUnit_text k hk u (by rw [htext]; exact List.mem_cons_self)
      obtain ⟨hspace, hother⟩ := isNumeralUnit_facts hu
      simp only [List.mem_cons, List.not_mem_nil, or_false, not_or] at hother
      obtain ⟨hquote, hbracket, hbrace, -, hn, ht, hf⟩ := hother
      have hhead : ∀ w ∈ (u :: text).head?,
          isSpace w = false ∧ w ∉ [quotationMark, openBracket, openBrace] := by
        rintro w ⟨⟩
        simp [hspace, hquote, hbracket, hbrace]
      -- a word whose first letter is another one is not read
      have hword (word : String) (v : Json (List UInt16)) {w : UInt16} {ws : List UInt16}
          (hws : units word = w :: ws) (hw : u ≠ w) :
          readWord word v (u :: (text ++ rest)) = none := by
        rw [readWord, if_neg]
        rw [hws, List.isPrefixOf_cons_cons, Bool.and_eq_true, beq_iff_eq]
        exact fun hprefix => hw hprefix.1.symm
      rw [htext] at hread
      rw [readValue_word hhead (List.cons_ne_nil u text), hread, List.cons_append,
        hword "null" _ rfl hn, hword "true" _ rfl ht, hword "false" _ rfl hf]
      rfl

/-- A list is no longer than its text. -/
theorem length_le_intercalate {α : Type} {write : α → List UInt16} {items : List α}
    (h : ∀ v ∈ items, write v ≠ []) :
    items.length ≤ ([comma].intercalate (items.map write)).length := by
  cases items with
  | nil => exact Nat.zero_le _
  | cons v items =>
      have hfirst := List.length_pos_of_ne_nil (h v List.mem_cons_self)
      have hrest : items.length ≤ ((items.map write).flatMap ([comma] ++ ·)).length := by
        clear h hfirst
        induction items with
        | nil => exact Nat.zero_le _
        | cons w items ih =>
            simp only [List.map_cons, List.flatMap_cons, List.length_append, List.length_cons,
              List.length_nil] at ih ⊢
            omega
      rw [List.map_cons, intercalate_cons, List.length_append, List.length_cons]
      omega

/-- A part of a list is no longer than its text. -/
theorem length_part_le {parts : List (List UInt16)} {part : List UInt16} (h : part ∈ parts) :
    part.length ≤ ([comma].intercalate parts).length := by
  cases parts with
  | nil => cases h
  | cons first parts =>
      rw [intercalate_cons, List.length_append]
      rcases List.mem_cons.1 h with rfl | hmem
      · omega
      · have hsublist := List.sublist_flatten_of_mem (List.mem_map.2 ⟨part, hmem, rfl⟩ :
          [comma] ++ part ∈ parts.map ([comma] ++ ·))
        have hlength := hsublist.length_le
        rw [← List.flatMap_def, List.length_append] at hlength
        omega

theorem exists_succ_of_length_le (hN : N.Lawful) {v : Json (List UInt16)} (hv : Integral v) {n : Nat}
    (hn : (stringify N v).length ≤ n) : ∃ k, n = k + 1 := by
  obtain ⟨u, text, hhead, -⟩ := stringify_head hN hv
  apply Nat.exists_eq_succ_of_ne_zero
  rintro rfl
  rw [hhead] at hn
  exact Nat.not_succ_le_zero _ hn

/-- An array is read back when its items are, each by fewer calls than the array has units. -/
theorem readValue_array (hN : N.Lawful) {items : List (Json (List UInt16))}
    (hitems : ∀ v ∈ items, Integral v) {n : Nat} (hn : (stringify N (.array items)).length ≤ n + 1)
    (hread : ∀ v ∈ items, (stringify N v).length ≤ n → ReadsBack (readValue N n) (stringify N) v)
    (rest : List UInt16) :
    readValue N (n + 1) (stringify N (.array items) ++ rest) = some (.array items, rest) := by
  rw [stringify, itemTexts_eq] at hn ⊢
  rw [List.length_cons, List.length_append, List.length_singleton] at hn
  have hlength : items.length ≤ ([comma].intercalate (items.map (stringify N))).length := by
    apply length_le_intercalate
    intro v hv
    obtain ⟨u, text, htext, -⟩ := stringify_head hN (hitems v hv)
    rw [htext]
    exact List.cons_ne_nil u text
  have hback : ∀ v ∈ items, ReadsBack (readValue N n) (stringify N) v := by
    intro v hv
    have hpart := length_part_le (List.mem_map.2 ⟨v, hv, rfl⟩ :
      stringify N v ∈ items.map (stringify N))
    exact hread v hv (by omega)
  have hlist := readList_parts (by decide) (by decide) (by decide) hback
    (fun v hv => stringify_head hN (hitems v hv)) (show items.length ≤ n by omega) rest
  rw [List.cons_append, List.append_assoc, List.singleton_append, readValue,
    skipSpace_cons (by decide)]
  simp only [if_neg (show openBracket ≠ quotationMark by decide), if_true, hlist, Option.map_some]

/-- An object is read back when the values of its fields are. -/
theorem readValue_object {fields : List (List UInt16 × Json (List UInt16))} {n : Nat}
    (hn : (stringify N (.object fields)).length ≤ n + 1)
    (hread : ∀ f ∈ fields, (stringify N f.2).length ≤ n →
      ReadsBack (readValue N n) (stringify N) f.2) (rest : List UInt16) :
    readValue N (n + 1) (stringify N (.object fields) ++ rest) = some (.object fields, rest) := by
  rw [stringify, fieldTexts_eq] at hn ⊢
  rw [List.length_cons, List.length_append, List.length_singleton] at hn
  have hlength : fields.length ≤ ([comma].intercalate (fields.map (fieldText N))).length := by
    apply length_le_intercalate
    intro field _
    exact List.cons_ne_nil _ _
  have hback : ∀ f ∈ fields, ReadsBack (readField (readValue N n)) (fieldText N) f := by
    intro f hf
    have hpart := length_part_le (List.mem_map.2 ⟨f, hf, rfl⟩ :
      fieldText N f ∈ fields.map (fieldText N))
    rw [fieldText, List.length_append, List.length_cons] at hpart
    exact readField_fieldText (hread f hf (by omega))
  have hhead : ∀ f ∈ fields, ∃ u text, fieldText N f = u :: text ∧ isSpace u = false ∧
      u ≠ closeBrace := fun f _ => ⟨_, _, rfl, by decide, by decide⟩
  have hlist := readList_parts (by decide) (by decide) (by decide) hback hhead
    (show fields.length ≤ n by omega) rest
  rw [List.cons_append, List.append_assoc, List.singleton_append, readValue,
    skipSpace_cons (by decide)]
  simp only [if_neg (show openBrace ≠ quotationMark by decide),
    if_neg (show openBrace ≠ openBracket by decide), if_true, hlist, Option.map_some]

/-- A value is read back, whatever follows it, by as many calls as its text has units. -/
theorem readValue_stringify (hN : N.Lawful) {v : Json (List UInt16)} (hv : Integral v) :
    ∀ n, (stringify N v).length ≤ n → ReadsBack (readValue N n) (stringify N) v := by
  -- induction on the value: its parts have shorter texts, so that one call less is enough for them
  induction hv with
  | null =>
      intro n hn rest _
      obtain ⟨n, rfl⟩ := exists_succ_of_length_le hN .null hn
      rw [stringify, readValue_word (by rintro u ⟨⟩; decide) (by decide), readWord_append]
      rfl
  | bool b =>
      intro n hn rest _
      obtain ⟨n, rfl⟩ := exists_succ_of_length_le hN (.bool b) hn
      cases b with
      | false =>
          rw [stringify, readValue_word (by rintro u ⟨⟩; decide) (by decide), readWord_append]
          rfl
      | true =>
          rw [stringify, readValue_word (by rintro u ⟨⟩; decide) (by decide), readWord_append]
          rfl
  | number h =>
      intro n hn rest hrest
      obtain ⟨n, rfl⟩ := exists_succ_of_length_le hN (.number h) hn
      exact readValue_number hN h n hrest
  | string s =>
      intro n hn rest _
      obtain ⟨n, rfl⟩ := exists_succ_of_length_le hN (.string s) hn
      exact readValue_string n s rest
  | @array items h ih =>
      intro n hn rest _
      obtain ⟨n, rfl⟩ := exists_succ_of_length_le hN (.array h) hn
      exact readValue_array hN h hn (fun v hv => ih v hv n) rest
  | @object fields h ih =>
      intro n hn rest _
      obtain ⟨n, rfl⟩ := exists_succ_of_length_le hN (.object h) hn
      exact readValue_object hn (fun f hf => ih f hf n) rest

/-- `JSON.parse` takes back what `JSON.stringify` wrote. -/
theorem parse_stringify (hN : N.Lawful) {v : Json (List UInt16)} (hv : Integral v) :
    parse N (stringify N v) = some v := by
  have hread := readValue_stringify hN hv _ (Nat.le_refl _) [] (fun _ h => by cases h)
  rw [List.append_nil] at hread
  rw [parse, hread]
  rfl

/-! ## The text is well-formed -/

theorem hexUnit_lt {n : Nat} (h : n < 16) : (hexUnit n).toNat < 0xD800 := by
  have hall : ∀ k : Fin 16, (hexUnit k).toNat < 0xD800 := by decide
  exact hall ⟨n, h⟩

theorem isWellFormed_escapeUnit (u : UInt16) : isWellFormed (escapeUnit u) = true := by
  have hu := u.toNat_lt
  rw [escapeUnit]
  split
  · next p hfind =>
    have hall := List.all_eq_true.1 (show (shortEscapes.all fun p =>
      isWellFormed [reverseSolidus, p.2]) = true by decide +kernel)
    exact hall p (List.mem_of_find?_eq_some hfind)
  split
  · apply isWellFormed_of_lt
    simp only [unicodeEscape, List.forall_mem_cons, List.not_mem_nil, false_imp_iff, implies_true,
      and_true]
    exact ⟨by decide, by decide, hexUnit_lt (by omega), hexUnit_lt (by omega),
      hexUnit_lt (by omega), hexUnit_lt (by omega)⟩
  · next hplain =>
    simp only [Bool.or_eq_true, not_or, Bool.not_eq_true] at hplain
    simp [isWellFormed, hplain.1.2, hplain.2]

/-- Every surrogate without its other half is escaped. -/
theorem isWellFormed_escape (s : List UInt16) : isWellFormed (escape s) = true := by
  induction s using escape.induct with
  | case1 => rfl
  | case2 u => exact isWellFormed_escapeUnit u
  | case3 u v s hpair ih => rw [escape, if_pos hpair, isWellFormed, if_pos hpair, ih]
  | case4 u v s hpair ih =>
      rw [escape, if_neg hpair, isWellFormed_append (isWellFormed_escapeUnit u), ih]

theorem isWellFormed_cons {u : UInt16} (h : isWellFormed [u] = true) (s : List UInt16) :
    isWellFormed (u :: s) = isWellFormed s := isWellFormed_append h s

theorem isWellFormed_quote (s : List UInt16) : isWellFormed (quote s) = true := by
  rw [quote, isWellFormed_cons (by decide), isWellFormed_append (isWellFormed_escape s)]
  decide

theorem isWellFormed_intercalate {parts : List (List UInt16)}
    (h : ∀ part ∈ parts, isWellFormed part = true) :
    isWellFormed ([comma].intercalate parts) = true := by
  cases parts with
  | nil => rfl
  | cons first parts =>
      rw [intercalate_cons, isWellFormed_append (h first List.mem_cons_self)]
      have hrest : ∀ part ∈ parts, isWellFormed part = true :=
        fun part hpart => h part (List.mem_cons_of_mem first hpart)
      clear h
      induction parts with
      | nil => rfl
      | cons part parts ih =>
          rw [List.flatMap_cons, List.append_assoc, List.singleton_append,
            isWellFormed_cons (by decide), isWellFormed_append (hrest part List.mem_cons_self)]
          exact ih fun part' hpart => hrest part' (List.mem_cons_of_mem part hpart)

/-- The text of a value is well-formed, whatever its strings hold. -/
theorem isWellFormed_stringify (hN : N.Lawful) {v : Json (List UInt16)} (hv : Integral v) :
    isWellFormed (stringify N v) = true := by
  induction hv with
  | null => exact (by decide : isWellFormed (units "null") = true)
  | bool b =>
      cases b with
      | false => exact (by decide : isWellFormed (units "false") = true)
      | true => exact (by decide : isWellFormed (units "true") = true)
  | number h =>
      -- a numeral is ASCII
      apply isWellFormed_of_lt
      intro u hu
      have hall := List.all_eq_true.1 (show ((units "0123456789+-.eE").all fun u =>
        decide (u.toNat < 0xD800)) = true by decide +kernel)
      exact of_decide_eq_true (hall u (of_decide_eq_true (hN.isNumeralUnit_text _ h u hu)))
  | string s => exact isWellFormed_quote s
  | @array items h ih =>
      rw [stringify, itemTexts_eq, isWellFormed_cons (by decide), isWellFormed_append]
      · decide
      · apply isWellFormed_intercalate
        rintro part hpart
        obtain ⟨v, hv, rfl⟩ := List.mem_map.1 hpart
        exact ih v hv
  | @object fields h ih =>
      rw [stringify, fieldTexts_eq, isWellFormed_cons (by decide), isWellFormed_append]
      · decide
      · apply isWellFormed_intercalate
        rintro part hpart
        obtain ⟨f, hf, rfl⟩ := List.mem_map.1 hpart
        rw [fieldText, isWellFormed_append (isWellFormed_quote f.1), isWellFormed_cons (by decide)]
        exact ih f hf

end JsonText

end TorE2EE.Foundation
