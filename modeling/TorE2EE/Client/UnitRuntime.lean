import TorE2EE.Client.Base64
import TorE2EE.Client.ContactExchange
import TorE2EE.Foundation.CodeUnits

/-!
# Links on strings of code units

The client's strings are lists of 16-bit units, in which a surrogate may stand alone.
`UnitRuntime` says that the parameters of the model are the functions of the runtime on such strings:
the string functions, hex, base64, UTF-8, `URLSearchParams`, `JSON.parse` and `JSON.stringify`.

A contact URI and a pairing code carry an object in the same way: JSON, UTF-8, base64 in the
URL-safe alphabet and without padding. `base64Part_linkUri` says that parsing finds this text again,
within its URI or bare and with white space around it, and `parseJson_linkData` that it decodes to
the object, whatever strings it holds.
-/

set_option autoImplicit false

namespace TorE2EE.Client

open TorE2EE.Foundation TorE2EE.Crypto

/-! ## Base64 -/

/-- `Buffer.from(bytes).toString('base64')`. -/
def base64Text (bytes : List UInt8) : List UInt16 := units (toBase64 bytes)

/-- The six bits of a digit. -/
def base64UnitValue (u : UInt16) : Option Nat :=
  (List.range 64).find? fun n => unit (base64Digit n) = u

/-- The bytes of six bits at a time. Bits that do not fill a byte are dropped. -/
def bytesOfSextets : List Nat → List UInt8
  | a :: b :: c :: d :: rest =>
      [UInt8.ofNat (a * 4 + b / 16), UInt8.ofNat (b % 16 * 16 + c / 4),
        UInt8.ofNat (c % 4 * 64 + d)] ++ bytesOfSextets rest
  | [a, b, c] => [UInt8.ofNat (a * 4 + b / 16), UInt8.ofNat (b % 16 * 16 + c / 4)]
  | [a, b] => [UInt8.ofNat (a * 4 + b / 16)]
  | _ => []

/-- The bytes of a base64 text: digits, padded to a multiple of four. -/
def readBase64 (text : List UInt16) : Option (List UInt8) :=
  let digits := text.takeWhile fun u => u ≠ unit '='
  if digits.length % 4 ≠ 1 ∧
      text.drop digits.length = List.replicate ((4 - digits.length % 4) % 4) (unit '=') then
    (digits.mapM base64UnitValue).map bytesOfSextets
  else none

theorem bytesOfSextets_sextets (bytes : List UInt8) : bytesOfSextets (sextets bytes) = bytes := by
  have hbyte {n : Nat} {b : UInt8} (h : n = b.toNat) : UInt8.ofNat n = b := by
    rw [h, UInt8.ofNat_toNat]
  induction bytes using sextets.induct with
  | case1 => rfl
  | case2 a =>
      have ha := a.toNat_lt
      rw [sextets, bytesOfSextets, hbyte (show _ = a.toNat by omega)]
  | case3 a b =>
      have ha := a.toNat_lt
      have hb := b.toNat_lt
      rw [sextets, bytesOfSextets, hbyte (show _ = a.toNat by omega),
        hbyte (show _ = b.toNat by omega)]
  | case4 a b c rest ih =>
      have ha := a.toNat_lt
      have hb := b.toNat_lt
      have hc := c.toNat_lt
      simp only [sextets, List.cons_append, List.nil_append, bytesOfSextets, ih]
      rw [hbyte (show _ = a.toNat by omega), hbyte (show _ = b.toNat by omega),
        hbyte (show _ = c.toNat by omega)]

set_option maxRecDepth 8000 in
theorem base64UnitValue_base64Digit :
    ∀ n : Fin 64, base64UnitValue (unit (base64Digit n)) = some n.val := by decide +kernel

/-- A digit is ASCII and no padding. Its URL-safe form is plain, neither padding nor white space nor
part of a scheme, and can be taken back. -/
def PlainDigit (c : Char) : Prop :=
  (c.toNat < 0x80 ∧ unit c ≠ unit '=') ∧
    (isPlain (urlDigit c) = true ∧ urlDigit c ≠ ':' ∧ urlDigit c ≠ '=' ∧
      isJsSpace (unitChar (unit (urlDigit c))) = false) ∧
    (if (if urlDigit c = '-' then '+' else urlDigit c) = '_' then '/'
      else if urlDigit c = '-' then '+' else urlDigit c) = c

instance (c : Char) : Decidable (PlainDigit c) := by
  unfold PlainDigit
  infer_instance

theorem plainDigit_base64Digit : ∀ n : Fin 64, PlainDigit (base64Digit n) := by decide +kernel

theorem plainDigit_of_mem {bytes : List UInt8} {c : Char} (hc : c ∈ base64Digits bytes) :
    PlainDigit c := by
  obtain ⟨n, hn, rfl⟩ := List.mem_map.1 hc
  exact plainDigit_base64Digit ⟨n, sextets_lt hn⟩

theorem base64Text_eq (bytes : List UInt8) :
    base64Text bytes = (base64Digits bytes).map unit ++
      List.replicate ((3 - bytes.length % 3) % 3) (unit '=') := by
  simp [base64Text, units, toBase64, base64Digits]

theorem length_base64Digits (bytes : List UInt8) :
    (base64Digits bytes).length = (sextets bytes).length := List.length_map ..

/-- A list is read back when each of its items is. -/
theorem mapM_map_eq_some {α β : Type} {f : β → Option α} {g : α → β} {l : List α}
    (h : ∀ a ∈ l, f (g a) = some a) : (l.map g).mapM f = some l := by
  induction l with
  | nil => rfl
  | cons a l ih =>
      rw [List.map_cons, List.mapM_cons, h a List.mem_cons_self,
        ih fun b hb => h b (List.mem_cons_of_mem a hb)]
      rfl

/-- Base64 is read back. -/
theorem readBase64_base64Text (bytes : List UInt8) : readBase64 (base64Text bytes) = some bytes := by
  have hdigits : ∀ u ∈ (base64Digits bytes).map unit, decide (u ≠ unit '=') = true := by
    intro u hu
    obtain ⟨c, hc, rfl⟩ := List.mem_map.1 hu
    exact decide_eq_true (plainDigit_of_mem hc).1.2
  -- the padding begins with the first padding character
  have hpadding : (List.replicate ((3 - bytes.length % 3) % 3) (unit '=')).takeWhile
      (fun u => decide (u ≠ unit '=')) = [] := by
    cases (3 - bytes.length % 3) % 3 with
    | zero => rfl
    | succ n => simp [List.replicate_succ]
  have htake : (base64Text bytes).takeWhile (fun u => decide (u ≠ unit '=')) =
      (base64Digits bytes).map unit := by
    rw [base64Text_eq, List.takeWhile_append_of_pos hdigits, hpadding, List.append_nil]
  have hdrop : (base64Text bytes).drop ((base64Digits bytes).map unit).length =
      List.replicate ((3 - bytes.length % 3) % 3) (unit '=') := by
    rw [base64Text_eq, List.drop_left]
  -- every digit is read as its sextet
  have hvalues : ((base64Digits bytes).map unit).mapM base64UnitValue = some (sextets bytes) := by
    rw [base64Digits, List.map_map]
    apply mapM_map_eq_some
    intro n hn
    exact base64UnitValue_base64Digit ⟨n, sextets_lt hn⟩
  have hlength := length_sextets bytes
  rw [readBase64]
  simp only [htake, hdrop, hvalues, Option.map_some, bytesOfSextets_sextets]
  rw [List.length_map, length_base64Digits, if_pos]
  constructor
  · omega
  · congr 1
    omega

/-! ## The runtime -/

/-- A unit that `trim` removes. -/
def isSpaceUnit (u : UInt16) : Bool := isJsSpace (unitChar u)

/-- The parameters of the client are the functions of the runtime and of `@noble/hashes`, on byte
arrays and strings of code units as they are. Bytes that begin with a byte order mark are left out
of `textDecode`: `TextDecoder` drops the mark and `Buffer` keeps it. Of `tweetnacl` nothing is said
but that it verifies no signature of another length than 64 bytes, and of SHA-256 that a digest has
32 bytes. -/
structure UnitRuntime (N : Numerals) (P : Primitives (List UInt8) (List UInt16))
    (L : ClientLibrary (List UInt8) (List UInt16)) : Prop where
  numerals : N.Lawful
  lit : ∀ s, P.lit s = utf16 s.toList
  byteLength : ∀ b, P.length b = b.length
  textEncode : ∀ s, P.textEncode s = utf8 (scalars s)
  textDecode : ∀ b, ¬ [0xEF, 0xBB, 0xBF] <+: b → P.textDecode b = utf16 (decodeUtf8 b)
  bytesToHex : ∀ b, P.bytesToHex b = hexText b
  hexToBytes : ∀ s, (P.hexToBytes s).toOption = hexBytes s
  toBase64 : ∀ b, P.toBase64 b = base64Text b
  fromBase64 : ∀ s b, readBase64 s = some b → P.fromBase64 s = b
  trim : ∀ s, L.trim s = Foundation.trim isSpaceUnit s
  startsWith : ∀ s t, L.startsWith s t = t.isPrefixOf s
  indexOf : ∀ s t, L.indexOf s t = Foundation.indexOf t s
  substring : ∀ s n, L.substring s n = s.drop n
  searchParam : ∀ query name, L.searchParam query name = Foundation.searchParam query name
  replaceAll : ∀ s x y, L.replaceAll s [x] [y] = s.map fun u => if u = x then y else u
  length : ∀ s, L.length s = s.length
  append : ∀ s t, L.append s t = s ++ t
  stringifyJson : ∀ v, L.stringifyJson v = JsonText.stringify N v
  parseJson : ∀ s v, JsonText.parse N s = some v → L.parseJson s = some v
  verifyDetached_length : ∀ m s k, P.verifyDetached m s k = .ok true → s.length = 64
  sha256_length : ∀ b, (L.sha256 b).length = 32

namespace UnitRuntime

variable {N : Numerals} {P : Primitives (List UInt8) (List UInt16)}
  {L : ClientLibrary (List UInt8) (List UInt16)}

theorem lit_inj (h : UnitRuntime N P L) {s t : String} : P.lit s = P.lit t ↔ s = t := by
  constructor
  · intro heq
    rw [h.lit, h.lit] at heq
    exact String.toList_inj.1 (utf16_injective heq)
  · rintro rfl
    rfl

/-- A literal of ASCII characters. -/
theorem lit_ascii (h : UnitRuntime N P L) {s : String} (hs : ∀ c ∈ s.toList, c.toNat < 0x80) :
    P.lit s = units s := by
  rw [h.lit, utf16_eq_map hs, units]

theorem hexToBytes_eq_ok (h : UnitRuntime N P L) {s : List UInt16} {b : List UInt8}
    (hs : hexBytes s = some b) : P.hexToBytes s = .ok b := by
  rw [← h.hexToBytes] at hs
  cases hb : P.hexToBytes s with
  | error e =>
      rw [hb] at hs
      cases hs
  | ok b' =>
      rw [hb] at hs
      rw [Option.some.inj hs]

/-- Hex of bytes is read back. -/
theorem hexToBytes_bytesToHex (h : UnitRuntime N P L) (b : List UInt8) :
    P.hexToBytes (P.bytesToHex b) = .ok b := by
  rw [h.bytesToHex]
  exact h.hexToBytes_eq_ok (hexBytes_hexText b)

/-- Hex of at least one byte is no empty string. -/
theorem ne_empty_of_hexToBytes (h : UnitRuntime N P L) {s : List UInt16} {b : List UInt8}
    (hs : P.hexToBytes s = .ok b) (hb : b ≠ []) : s ≠ [] := by
  rintro rfl
  have hempty := h.hexToBytes []
  rw [hs] at hempty
  exact hb (Option.some.inj hempty)

/-! ## Texts in UTF-8 -/

/-- A well-formed text that begins with an ASCII character is read back from its bytes. -/
theorem textDecode_textEncode (h : UnitRuntime N P L) {c : Char} (hc : c.toNat < 0x80)
    {text : List UInt16} (htext : isWellFormed (unit c :: text) = true) :
    P.textDecode (P.textEncode (unit c :: text)) = unit c :: text := by
  have hmark : ¬ [0xEF, 0xBB, 0xBF] <+: utf8 (scalars (unit c :: text)) := by
    rw [utf8_scalars_cons hc, List.cons_prefix_cons]
    rintro ⟨heq, -⟩
    have hbyte : (asciiByte c).toNat = 0xEF := by rw [← heq]; rfl
    rw [asciiByte, byte_toNat (by omega)] at hbyte
    omega
  rw [h.textEncode, h.textDecode _ hmark, decodeUtf8_utf8, utf16_scalars htext]

/-- A value is read back from its text. -/
theorem parseJson_stringifyJson (h : UnitRuntime N P L) {v : Json (List UInt16)}
    (hv : JsonText.Integral v) : L.parseJson (L.stringifyJson v) = some v := by
  rw [h.stringifyJson]
  exact h.parseJson _ _ (JsonText.parse_stringify h.numerals hv)

/-- An object is read back from the bytes of its text. -/
theorem parseJson_textDecode (h : UnitRuntime N P L)
    {fields : List (List UInt16 × Json (List UInt16))} (hv : JsonText.Integral (.object fields)) :
    L.parseJson (P.textDecode (P.textEncode (L.stringifyJson (.object fields)))) =
      some (.object fields) := by
  have hparse := h.parseJson_stringifyJson hv
  have hwell := JsonText.isWellFormed_stringify h.numerals hv
  rw [h.stringifyJson] at hparse ⊢
  generalize htext : JsonText.stringify N (.object fields) = text at hparse hwell
  obtain ⟨rest, rfl⟩ : ∃ rest, text = unit '\x7b' :: rest := by
    rw [← htext, JsonText.stringify]
    exact ⟨_, rfl⟩
  rw [h.textDecode_textEncode (by decide) hwell]
  exact hparse

end UnitRuntime

/-! ## Links -/

namespace Units

variable (P : Primitives (List UInt8) (List UInt16)) (L : ClientLibrary (List UInt8) (List UInt16))

/-- `text.replace(/=+$/, '')`. -/
def stripPadding (text : List UInt16) : List UInt16 :=
  (text.reverse.dropWhile fun u => u = unit '=').reverse

/-- The URL-safe form of a base64 text, without padding. -/
def urlBase64 (base64Data : List UInt16) : List UInt16 :=
  stripPadding
    (L.replaceAll (L.replaceAll base64Data (P.lit "+") (P.lit "-")) (P.lit "/") (P.lit "_"))

/-- The text that carries a payload. -/
def linkData (payload : Json (List UInt16)) : List UInt16 :=
  let jsonStr := L.stringifyJson payload
  urlBase64 P L (P.toBase64 (P.textEncode jsonStr))

/-- The URI of a payload. -/
def linkUri (scheme : String) (payload : Json (List UInt16)) : List UInt16 :=
  L.append (P.lit scheme) (L.append (P.lit "?v=1&d=") (linkData P L payload))

end Units

/-- The characters of a text in URL-safe base64. -/
def urlChars (bytes : List UInt8) : List Char := (base64Digits bytes).map urlDigit

theorem plain_of_mem_urlChars {bytes : List UInt8} {c : Char} (hc : c ∈ urlChars bytes) :
    isPlain c = true ∧ c ≠ ':' ∧ c ≠ '=' ∧ isSpaceUnit (unit c) = false := by
  obtain ⟨d, hd, rfl⟩ := List.mem_map.1 hc
  exact (plainDigit_of_mem hd).2.1

theorem urlChars_ascii (bytes : List UInt8) : ∀ c ∈ urlChars bytes, c.toNat < 0x80 :=
  isPlain_ascii fun _ hc => (plain_of_mem_urlChars hc).1

/-- A unit of an ASCII text is replaced as its character is. -/
theorem map_replace_unit {x y : Char} (hx : x.toNat < 0x80) {cs : List Char}
    (hcs : ∀ c ∈ cs, c.toNat < 0x80) :
    ((cs.map unit).map fun u => if u = unit x then unit y else u) =
      (cs.map fun c => if c = x then y else c).map unit := by
  rw [List.map_map, List.map_map]
  apply List.map_congr_left
  intro c hc
  by_cases heq : c = x
  · simp [heq]
  · have hne : unit c ≠ unit x := fun hunit => heq (unit_injective (hcs c hc) hx hunit)
    simp [heq, hne]

/-- A scheme: ASCII without white space, with a colon and without a question mark. -/
def IsScheme (scheme : String) : Prop :=
  (scheme.toList.all fun c => c.toNat < 0x80 && !isSpaceUnit (unit c) && c ≠ '?') = true ∧
    ':' ∈ scheme.toList

instance (scheme : String) : Decidable (IsScheme scheme) :=
  inferInstanceAs (Decidable (_ ∧ _))

theorem isScheme_contact : IsScheme "tore2ee://contact" := by decide +kernel

theorem isScheme_link : IsScheme "tore2ee://link" := by decide +kernel

theorem IsScheme.of_mem {scheme : String} (h : IsScheme scheme) {c : Char}
    (hc : c ∈ scheme.toList) : c.toNat < 0x80 ∧ isSpaceUnit (unit c) = false ∧ c ≠ '?' := by
  have hall := List.all_eq_true.1 h.1 c hc
  simp only [Bool.and_eq_true, decide_eq_true_eq, Bool.not_eq_true'] at hall
  exact ⟨hall.1.1, hall.1.2, hall.2⟩

theorem replaced_ascii {cs : List Char} (hcs : ∀ c ∈ cs, c.toNat < 0x80) (x : Char) {y : Char}
    (hy : y.toNat < 0x80) : ∀ c ∈ cs.map fun c => if c = x then y else c, c.toNat < 0x80 := by
  intro c hc
  obtain ⟨d, hd, rfl⟩ := List.mem_map.1 hc
  split
  · exact hy
  · exact hcs d hd

theorem toBase64_ascii (bytes : List UInt8) : ∀ c ∈ (toBase64 bytes).toList, c.toNat < 0x80 := by
  intro c hc
  rw [toBase64, String.toList_ofList, List.mem_append] at hc
  rcases hc with hc | hc
  · exact (plainDigit_of_mem hc).1.1
  · rw [List.eq_of_mem_replicate hc]
    decide

/-- The padding goes, since no digit looks like it. -/
theorem stripPadding_urlChars (bytes : List UInt8) (n : Nat) :
    Units.stripPadding ((urlChars bytes ++ List.replicate n '=').map unit) =
      (urlChars bytes).map unit := by
  have hkeep : (((urlChars bytes).map unit).reverse.dropWhile fun u => decide (u = unit '=')) =
      ((urlChars bytes).map unit).reverse := by
    cases hrev : ((urlChars bytes).map unit).reverse with
    | nil => rfl
    | cons u us =>
        have hu : u ∈ (urlChars bytes).map unit := by
          rw [← List.mem_reverse, hrev]
          exact List.mem_cons_self
        obtain ⟨c, hc, rfl⟩ := List.mem_map.1 hu
        have hne : unit c ≠ unit '=' := fun heq =>
          (plain_of_mem_urlChars hc).2.2.1
            (unit_injective (urlChars_ascii bytes c hc) (by decide) heq)
        rw [List.dropWhile_cons_of_neg (by simpa using hne)]
  rw [Units.stripPadding, List.map_append, List.map_replicate, List.reverse_append,
    List.reverse_replicate, List.dropWhile_append_of_pos (by simp), hkeep, List.reverse_reverse]

namespace UnitRuntime

variable {N : Numerals} {P : Primitives (List UInt8) (List UInt16)}
  {L : ClientLibrary (List UInt8) (List UInt16)}

theorem lit_char (h : UnitRuntime N P L) {s : String} {c : Char} (hs : s.toList = [c])
    (hc : c.toNat < 0x80) : P.lit s = [unit c] := by
  rw [h.lit, hs]
  simp [utf16Char_of_lt hc]

/-- One character is replaced by another throughout an ASCII text. -/
theorem replaceAll_ascii (h : UnitRuntime N P L) {cs : List Char} (hcs : ∀ c ∈ cs, c.toNat < 0x80)
    {s t : String} {x y : Char} (hs : s.toList = [x]) (ht : t.toList = [y]) (hx : x.toNat < 0x80)
    (hy : y.toNat < 0x80) :
    L.replaceAll (cs.map unit) (P.lit s) (P.lit t) =
      (cs.map fun c => if c = x then y else c).map unit := by
  rw [h.lit_char hs hx, h.lit_char ht hy, h.replaceAll, map_replace_unit hx hcs]

theorem urlBase64_base64Text (h : UnitRuntime N P L) (bytes : List UInt8) :
    Units.urlBase64 P L (base64Text bytes) = (urlChars bytes).map unit := by
  have hascii := toBase64_ascii bytes
  have hurl : (((Client.toBase64 bytes).toList.map fun c => if c = '+' then '-' else c).map
      fun c => if c = '/' then '_' else c) = urlChars bytes ++
        List.replicate ((3 - bytes.length % 3) % 3) '=' := by
    simp [Client.toBase64, urlChars, base64Digits, urlDigit, Function.comp_def]
  have hplus := h.replaceAll_ascii hascii (x := '+') (y := '-') (s := "+") (t := "-") rfl rfl
    (by decide) (by decide)
  have hslash := h.replaceAll_ascii (replaced_ascii hascii '+' (y := '-') (by decide)) (x := '/')
    (y := '_') (s := "/") (t := "_") rfl rfl (by decide) (by decide)
  rw [Units.urlBase64, base64Text, units, hplus, hslash, hurl, stripPadding_urlChars]

/-- The padding loop adds what is missing to a multiple of four. -/
theorem padBase64_eq (h : UnitRuntime N P L) {rounds missing : Nat} {text : List UInt16}
    (hrounds : missing ≤ rounds) (hfew : missing < 4) (hlen : (text.length + missing) % 4 = 0) :
    padBase64 P L rounds text = text ++ List.replicate missing (unit '=') := by
  -- induction on the bound of the loop
  induction rounds generalizing missing text with
  | zero =>
      obtain rfl : missing = 0 := by omega
      rw [padBase64, List.replicate_zero, List.append_nil]
  | succ rounds ih =>
      rw [padBase64, h.length, h.append, h.lit_char rfl (show '='.toNat < 0x80 by decide)]
      cases missing with
      | zero => rw [if_neg (by omega), List.replicate_zero, List.append_nil]
      | succ missing =>
          have hlonger : ((text ++ [unit '=']).length + missing) % 4 = 0 := by
            rw [List.length_append, List.length_singleton]
            omega
          rw [if_pos (by omega), ih (by omega) (by omega) hlonger, List.append_assoc,
            List.singleton_append, List.replicate_succ]

/-- Parsing takes back what exporting did to the base64 text. -/
theorem restoreBase64_urlChars (h : UnitRuntime N P L) (bytes : List UInt8) :
    restoreBase64 P L ((urlChars bytes).map unit) = base64Text bytes := by
  have hascii := urlChars_ascii bytes
  have hback : ((urlChars bytes).map fun c => if c = '-' then '+' else c).map
      (fun c => if c = '_' then '/' else c) = base64Digits bytes := by
    rw [urlChars, List.map_map, List.map_map]
    nth_rewrite 2 [← List.map_id (base64Digits bytes)]
    apply List.map_congr_left
    intro c hc
    exact (plainDigit_of_mem hc).2.2
  have hlen : (((base64Digits bytes).map unit).length + (3 - bytes.length % 3) % 3) % 4 = 0 := by
    rw [List.length_map, length_base64Digits]
    exact length_sextets bytes
  have hminus := h.replaceAll_ascii hascii (x := '-') (y := '+') (s := "-") (t := "+") rfl rfl
    (by decide) (by decide)
  have hunderscore := h.replaceAll_ascii (replaced_ascii hascii '-' (y := '+') (by decide))
    (x := '_') (y := '/') (s := "_") (t := "/") rfl rfl (by decide) (by decide)
  rw [restoreBase64, hminus, hunderscore, hback, h.padBase64_eq (by omega) (by omega) hlen,
    base64Text_eq]

/-- The text of a link decodes to its object. -/
theorem parseJson_linkData (h : UnitRuntime N P L)
    {fields : List (List UInt16 × Json (List UInt16))} (hv : JsonText.Integral (.object fields)) :
    L.parseJson (P.textDecode (P.fromBase64
      (restoreBase64 P L (Units.linkData P L (.object fields))))) = some (.object fields) := by
  rw [Units.linkData, h.toBase64, h.urlBase64_base64Text, h.restoreBase64_urlChars,
    h.fromBase64 _ _ (readBase64_base64Text _)]
  exact h.parseJson_textDecode hv

/-- The text of a link is not empty. -/
theorem linkData_eq (h : UnitRuntime N P L) (fields : List (List UInt16 × Json (List UInt16))) :
    ∃ bytes, bytes ≠ [] ∧ Units.linkData P L (.object fields) = (urlChars bytes).map unit := by
  refine ⟨P.textEncode (L.stringifyJson (.object fields)), ?_, ?_⟩
  · rw [h.textEncode, h.stringifyJson, JsonText.stringify,
      show JsonText.openBrace = unit '\x7b' from rfl, utf8_scalars_cons (by decide)]
    exact List.cons_ne_nil _ _
  · rw [Units.linkData, h.toBase64, h.urlBase64_base64Text]

/-! ## Finding the text of a link -/

theorem urlChars_ne_nil {bytes : List UInt8} (hbytes : bytes ≠ []) : urlChars bytes ≠ [] := by
  rw [urlChars, Ne, List.map_eq_nil_iff]
  exact base64Digits_ne_nil hbytes

theorem urlChars_not_space {bytes : List UInt8} {u : UInt16} (hu : u ∈ (urlChars bytes).map unit) :
    isSpaceUnit u = false := by
  obtain ⟨c, hc, rfl⟩ := List.mem_map.1 hu
  exact (plain_of_mem_urlChars hc).2.2.2

/-- The query of a URI names its text. -/
theorem searchParam_urlChars (h : UnitRuntime N P L) (bytes : List UInt8) :
    L.searchParam (units "v=1&d=" ++ (urlChars bytes).map unit) (P.lit "d") =
      some ((urlChars bytes).map unit) := by
  have hv : ∀ c ∈ ['v'], isPlain c = true := List.forall_mem_singleton.2 (by decide)
  have h1 : ∀ c ∈ ['1'], isPlain c = true := List.forall_mem_singleton.2 (by decide)
  have hd : ∀ c ∈ ['d'], isPlain c = true := List.forall_mem_singleton.2 (by decide)
  have hdata : ∀ c ∈ urlChars bytes, isPlain c = true := fun c hc => (plain_of_mem_urlChars hc).1
  have hsecond := searchParam_second hv h1 hd hdata (by decide) (by decide)
  have hascii : ∀ c ∈ fieldChars ['v'] ['1'] ++ '&' :: fieldChars ['d'] (urlChars bytes),
      c.toNat < 0x80 := by
    intro c hc
    rcases List.mem_append.1 hc with hc | hc
    · exact fieldChars_ascii hv h1 c hc
    · rcases List.mem_cons.1 hc with rfl | hc
      · decide
      · exact fieldChars_ascii hd hdata c hc
  rw [utf16_eq_map hascii, utf16_eq_map (urlChars_ascii bytes)] at hsecond
  rw [h.searchParam, h.lit]
  exact hsecond

/-- Within its URI the text of a link is found, whatever white space is around it. -/
theorem base64Part_linkUri (h : UnitRuntime N P L) {scheme : String} (hscheme : IsScheme scheme)
    (missing : ClientError (List UInt16)) (fields : List (List UInt16 × Json (List UInt16)))
    {before after : List UInt16} (hbefore : ∀ u ∈ before, isSpaceUnit u = true)
    (hafter : ∀ u ∈ after, isSpaceUnit u = true) :
    base64Part P L scheme missing (before ++ Units.linkUri P L scheme (.object fields) ++ after) =
      .ok (Units.linkData P L (.object fields)) := by
  obtain ⟨bytes, hbytes, hdata⟩ := h.linkData_eq fields
  have hlit : P.lit scheme = units scheme := h.lit_ascii fun c hc => (hscheme.of_mem hc).1
  have huri : Units.linkUri P L scheme (.object fields) =
      units scheme ++ (unit '?' :: (units "v=1&d=" ++ (urlChars bytes).map unit)) := by
    rw [Units.linkUri, h.append, h.append, hlit, hdata,
      h.lit_ascii (s := "?v=1&d=") (ascii_of_all (by decide))]
    rfl
  -- no unit of the URI is trimmed
  have hspace : ∀ u ∈ Units.linkUri P L scheme (.object fields), isSpaceUnit u = false := by
    intro u hu
    rw [huri, List.mem_append, List.mem_cons, List.mem_append] at hu
    rcases hu with hu | rfl | hu | hu
    · obtain ⟨c, hc, rfl⟩ := List.mem_map.1 hu
      exact (hscheme.of_mem hc).2.1
    · decide
    · exact List.all_eq_true.1 (show ((units "v=1&d=").all fun u => isSpaceUnit u == false) = true by
        decide +kernel) u hu |> beq_iff_eq.1
    · exact urlChars_not_space hu
  -- the first question mark is the one behind the scheme
  have hmark : unit '?' ∉ units scheme := by
    intro hmem
    obtain ⟨c, hc, heq⟩ := List.mem_map.1 hmem
    exact (hscheme.of_mem hc).2.2 (unit_injective (hscheme.of_mem hc).1 (by decide) heq)
  have hdrop : (units scheme ++ unit '?' :: (units "v=1&d=" ++ (urlChars bytes).map unit)).drop
      ((units scheme).length + 1) = units "v=1&d=" ++ (urlChars bytes).map unit := by
    rw [← List.drop_drop, List.drop_left]
    rfl
  have hne : (urlChars bytes).map unit ≠ P.lit "" := by
    rw [h.lit]
    intro hnil
    exact urlChars_ne_nil hbytes (List.map_eq_nil_iff.1 hnil)
  rw [base64Part, h.trim, trim_surrounded hbefore hspace hafter, huri, hdata]
  simp only [h.startsWith, hlit, h.indexOf, h.lit_char (s := "?") (c := '?') rfl (by decide),
    indexOf_unit hmark, h.substring, hdrop, h.searchParam_urlChars, if_neg hne]
  rw [if_pos (by simp)]
  rfl

/-- The bare text of a link is taken as it is. -/
theorem base64Part_linkData (h : UnitRuntime N P L) {scheme : String} (hscheme : IsScheme scheme)
    (missing : ClientError (List UInt16)) (fields : List (List UInt16 × Json (List UInt16)))
    {before after : List UInt16} (hbefore : ∀ u ∈ before, isSpaceUnit u = true)
    (hafter : ∀ u ∈ after, isSpaceUnit u = true) :
    base64Part P L scheme missing (before ++ Units.linkData P L (.object fields) ++ after) =
      .ok (Units.linkData P L (.object fields)) := by
  obtain ⟨bytes, -, hdata⟩ := h.linkData_eq fields
  have hlit : P.lit scheme = units scheme := h.lit_ascii fun c hc => (hscheme.of_mem hc).1
  -- a scheme has a colon, and no digit is one
  have hprefix : (units scheme).isPrefixOf ((urlChars bytes).map unit) = false := by
    rw [Bool.eq_false_iff, Ne, List.isPrefixOf_iff_prefix]
    intro hpre
    obtain ⟨c, hc, heq⟩ := List.mem_map.1 (hpre.subset (List.mem_map.2 ⟨':', hscheme.2, rfl⟩))
    exact (plain_of_mem_urlChars hc).2.1 (unit_injective (urlChars_ascii bytes c hc) (by decide) heq)
  rw [base64Part, h.trim, hdata, trim_surrounded hbefore (fun u hu => urlChars_not_space hu) hafter]
  simp only [h.startsWith, hlit, hprefix, Bool.false_eq_true, if_false]
  rfl

end UnitRuntime

end TorE2EE.Client
