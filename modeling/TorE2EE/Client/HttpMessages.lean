import TorE2EE.Client.TorHttp
import Mathlib.Data.List.TakeWhile

/-!
# HTTP responses as they are sent

`HttpMessage` is a response in the grammar of HTTP: a status line, header fields and a body whose
length one of the fields gives. The header block is ASCII, the body is any text. `bytes` is what the
server sends, and `response` what the client should make of it.

`splitFirst_bytes` and the lemmas about the header block say what `parseHttpResponse` reads when
the header block has come through: the status line, the fields, and the number that the length
pattern matches first.
-/

set_option autoImplicit false

namespace TorE2EE.Client.TorHttp

open TorE2EE.Foundation

/-! ## Messages -/

/-- A character of a field value or of a reason. -/
def isFieldChar (c : Char) : Bool := c = '\t' || (0x20 ≤ c.toNat && c.toNat ≤ 0x7E)

/-- A character of a field name. -/
def isNameChar (c : Char) : Bool := 0x21 ≤ c.toNat && c.toNat ≤ 0x7E && c ≠ ':'

/-- `content-length`. -/
def lengthName : List Char := "content-length".toList

/-- A header field: its name, and its value with the white space around it. -/
structure HeaderField where
  name : List Char
  value : List Char
  name_ne_nil : name ≠ []
  name_chars : ∀ c ∈ name, isNameChar c = true
  value_chars : ∀ c ∈ value, isFieldChar c = true

/-- The line of a field. -/
def HeaderField.line (f : HeaderField) : List Char := f.name ++ ':' :: f.value

/-- The field gives the length of the body. -/
def HeaderField.IsLength (f : HeaderField) : Prop := f.name.map Char.toLower = lengthName

instance (f : HeaderField) : Decidable f.IsLength :=
  inferInstanceAs (Decidable (f.name.map Char.toLower = lengthName))

/-- A response whose body has the length that its header says. -/
structure HttpMessage where
  major : Char
  minor : Char
  status : List Char
  reason : List Char
  fields : List HeaderField
  body : List Char
  major_digit : major.isDigit = true
  minor_digit : minor.isDigit = true
  status_length : status.length = 3
  status_digits : ∀ c ∈ status, c.isDigit = true
  reason_chars : ∀ c ∈ reason, isFieldChar c = true
  has_length : ∃ f ∈ fields, f.IsLength
  length_digits : ∀ f ∈ fields, f.IsLength →
    trimText f.value ≠ [] ∧ ∀ c ∈ trimText f.value, c.isDigit = true
  length_value : ∀ f ∈ fields, f.IsLength → parseDigits (trimText f.value) = (utf8 body).length

namespace HttpMessage

variable (m : HttpMessage)

/-- The status line. -/
def statusLine : List Char :=
  ['H', 'T', 'T', 'P', '/', m.major, '.', m.minor] ++ (' ' :: (m.status ++ ' ' :: m.reason))

/-- The lines of the header block. -/
def lines : List (List Char) := m.statusLine :: m.fields.map HeaderField.line

/-- The header block, without the blank line at its end. -/
def headerBlock : List Char := crlf.intercalate m.lines

/-- The header block and the blank line. -/
def head : List Char := m.headerBlock ++ blankLine

/-- The bytes of the response. -/
def bytes : List UInt8 := utf8 (m.head ++ m.body)

/-- The response that the message is. -/
def response (toLowerCase : List Char → List Char) : HttpResponse :=
  { status := parseDigits m.status
    statusText := m.reason.dropWhile isJsSpace
    headers := m.fields.foldl
      (fun headers f name => if name = toLowerCase f.name then some (trimText f.value) else headers name)
      fun _ => none
    body := m.body }

end HttpMessage

/-! ## Characters -/

theorem isFieldChar_bounds {c : Char} (h : isFieldChar c = true) :
    c.toNat = 9 ∨ (0x20 ≤ c.toNat ∧ c.toNat ≤ 0x7E) := by
  simp only [isFieldChar, Bool.or_eq_true, Bool.and_eq_true, decide_eq_true_eq] at h
  rcases h with rfl | h
  · exact Or.inl rfl
  · exact Or.inr h

theorem isNameChar_bounds {c : Char} (h : isNameChar c = true) :
    0x21 ≤ c.toNat ∧ c.toNat ≤ 0x7E ∧ c ≠ ':' := by
  simpa [isNameChar, and_assoc] using h

theorem isDigit_bounds {c : Char} (h : c.isDigit = true) : 48 ≤ c.toNat ∧ c.toNat ≤ 57 := by
  simp only [Char.isDigit, Bool.and_eq_true, decide_eq_true_eq, ge_iff_le, UInt32.le_iff_toNat_le] at h
  exact h

theorem ne_of_toNat_ne {c d : Char} (h : c.toNat ≠ d.toNat) : c ≠ d := by
  rintro rfl
  exact h rfl

/-- Between the tab and the end of ASCII only the space is white space. -/
theorem isJsSpace_of_bounds {c : Char} (hlower : 0x0E ≤ c.toNat) (hne : c.toNat ≠ 0x20)
    (hupper : c.toNat ≤ 0x7E) : isJsSpace c = false := by
  simp only [isJsSpace, decide_eq_false_iff_not, List.mem_cons, List.not_mem_nil, or_false]
  omega

theorem isJsSpace_digit {c : Char} (h : c.isDigit = true) : isJsSpace c = false := by
  have hb := isDigit_bounds h
  exact isJsSpace_of_bounds (by omega) (by omega) (by omega)

theorem isJsSpace_nameChar {c : Char} (h : isNameChar c = true) : isJsSpace c = false := by
  have hb := isNameChar_bounds h
  exact isJsSpace_of_bounds (by omega) (by omega) (by omega)

/-- No line contains a carriage return. -/
theorem fieldChar_ne_cr {c : Char} (h : isFieldChar c = true) : c ≠ '\r' := by
  have hb := isFieldChar_bounds h
  apply ne_of_toNat_ne
  have hcr : '\r'.toNat = 13 := rfl
  omega

theorem isFieldChar_of_bounds {c : Char} (hlower : 0x20 ≤ c.toNat) (hupper : c.toNat ≤ 0x7E) :
    isFieldChar c = true := by
  simp only [isFieldChar, Bool.or_eq_true, Bool.and_eq_true, decide_eq_true_eq]
  exact Or.inr ⟨hlower, hupper⟩

theorem HeaderField.line_chars (f : HeaderField) : ∀ c ∈ f.line, isFieldChar c = true := by
  intro c hc
  rcases List.mem_append.1 hc with hc | hc
  · have hb := isNameChar_bounds (f.name_chars c hc)
    exact isFieldChar_of_bounds (by omega) (by omega)
  · rcases List.mem_cons.1 hc with rfl | hc
    · decide
    · exact f.value_chars c hc

theorem HttpMessage.statusLine_chars (m : HttpMessage) :
    ∀ c ∈ m.statusLine, isFieldChar c = true := by
  have hdigit {c : Char} (h : c.isDigit = true) : isFieldChar c = true := by
    have hb := isDigit_bounds h
    exact isFieldChar_of_bounds (by omega) (by omega)
  intro c hc
  simp only [HttpMessage.statusLine, List.mem_append, List.mem_cons, List.not_mem_nil, or_false] at hc
  rcases hc with (rfl | rfl | rfl | rfl | rfl | rfl | rfl | rfl) | rfl | hc | rfl | hc
  · decide
  · decide
  · decide
  · decide
  · decide
  · exact hdigit m.major_digit
  · decide
  · exact hdigit m.minor_digit
  · decide
  · exact hdigit (m.status_digits c hc)
  · decide
  · exact m.reason_chars c hc

/-- The lines are lines: they are not empty and have no carriage return. -/
theorem HttpMessage.lines_chars (m : HttpMessage) :
    ∀ line ∈ m.lines, line ≠ [] ∧ ∀ c ∈ line, isFieldChar c = true := by
  intro line hline
  rcases List.mem_cons.1 hline with rfl | hline
  · exact ⟨by simp [HttpMessage.statusLine], m.statusLine_chars⟩
  · obtain ⟨f, -, rfl⟩ := List.mem_map.1 hline
    exact ⟨by simp [HeaderField.line], f.line_chars⟩

theorem mem_intercalate {c : Char} {lines : List (List Char)} (h : c ∈ crlf.intercalate lines) :
    c ∈ crlf ∨ ∃ line ∈ lines, c ∈ line := by
  induction lines with
  | nil => cases h
  | cons line lines ih =>
      cases lines with
      | nil =>
          rw [List.intercalate_singleton] at h
          exact Or.inr ⟨line, List.mem_cons_self, h⟩
      | cons next lines =>
          rw [List.intercalate_cons_cons, List.mem_append, List.mem_append] at h
          rcases h with (h | h) | h
          · exact Or.inr ⟨line, List.mem_cons_self, h⟩
          · exact Or.inl h
          · rcases ih h with h | ⟨line', hline', h⟩
            · exact Or.inl h
            · exact Or.inr ⟨line', List.mem_cons_of_mem _ hline', h⟩

/-- The header is ASCII. -/
theorem HttpMessage.head_ascii (m : HttpMessage) : ∀ c ∈ m.head, c.toNat ≤ 0x7F := by
  have hbreak : ∀ c ∈ blankLine, c.toNat ≤ 0x7F := by
    have hall : blankLine.all (fun c => c.toNat ≤ 0x7F) = true := by decide
    simpa using hall
  intro c hc
  rcases List.mem_append.1 hc with hc | hc
  · rcases mem_intercalate hc with hc | ⟨line, hline, hc⟩
    · exact hbreak c (List.mem_append_left crlf hc)
    · have hb := isFieldChar_bounds ((m.lines_chars line hline).2 c hc)
      omega
  · exact hbreak c hc

/-! ## The end of the header block -/

/-- A separator that begins with another character does not begin here. -/
theorem splitFirst_cons {d : Char} {separator : List Char} {c : Char} (h : c ≠ d)
    (text : List Char) :
    splitFirst (d :: separator) (c :: text) =
      (splitFirst (d :: separator) text).map fun parts => (c :: parts.1, parts.2) := by
  rw [splitFirst, if_neg]
  simp [Ne.symm h]

theorem splitFirst_append_left {d : Char} {separator : List Char} {text : List Char}
    (h : ∀ c ∈ text, c ≠ d) (rest : List Char) :
    splitFirst (d :: separator) (text ++ rest) =
      (splitFirst (d :: separator) rest).map fun parts => (text ++ parts.1, parts.2) := by
  induction text with
  | nil => simp
  | cons c text ih =>
      rw [List.cons_append, splitFirst_cons (h c List.mem_cons_self),
        ih fun c' hc' => h c' (List.mem_cons_of_mem _ hc'), Option.map_map]
      rfl

theorem splitFirst_self (separator rest : List Char) :
    splitFirst separator (separator ++ rest) = some ([], rest) := by
  cases hsep : separator ++ rest with
  | nil =>
      obtain ⟨rfl, rfl⟩ := List.append_eq_nil_iff.1 hsep
      rfl
  | cons c text =>
      have hdrop := congrArg (List.drop separator.length) hsep
      have hprefix : separator.isPrefixOf (c :: text) = true := by
        rw [← hsep]
        simp
      rw [List.drop_left] at hdrop
      rw [splitFirst, if_pos hprefix, hdrop]

/-- Behind a line comes another line, so that there is no blank line between them. -/
theorem splitFirst_crlf {c : Char} (h : c ≠ '\r') (text : List Char) :
    splitFirst blankLine (crlf ++ c :: text) =
      (splitFirst blankLine (c :: text)).map fun parts => (crlf ++ parts.1, parts.2) := by
  have hnot : ¬ blankLine.isPrefixOf ('\r' :: '\n' :: c :: text) = true := by
    simp [blankLine, Ne.symm h]
  have hlf : '\n' ≠ '\r' := by decide
  show splitFirst blankLine ('\r' :: '\n' :: c :: text) = _
  rw [splitFirst, if_neg hnot, blankLine, splitFirst_cons hlf, Option.map_map]
  rfl

/-- Lines begin with the first character of their first line. -/
theorem exists_intercalate_eq_cons {c : Char} {line : List Char} {lines : List (List Char)} :
    ∃ text, crlf.intercalate ((c :: line) :: lines) = c :: text := by
  cases lines with
  | nil => exact ⟨line, List.intercalate_singleton⟩
  | cons next lines =>
      rw [List.intercalate_cons_cons]
      exact ⟨_, rfl⟩

/-- The first blank line is the one behind the lines. -/
theorem splitFirst_lines {lines : List (List Char)} (hne : lines ≠ [])
    (h : ∀ line ∈ lines, line ≠ [] ∧ ∀ c ∈ line, c ≠ '\r') (rest : List Char) :
    splitFirst blankLine (crlf.intercalate lines ++ blankLine ++ rest) =
      some (crlf.intercalate lines, rest) := by
  induction lines with
  | nil => exact absurd rfl hne
  | cons line lines ih =>
      obtain ⟨-, hline⟩ := h line List.mem_cons_self
      have hself : splitFirst blankLine (blankLine ++ rest) = some ([], rest) :=
        splitFirst_self blankLine rest
      -- the blank line comes after the last line, or the next line begins behind a line end
      cases lines with
      | nil =>
          rw [List.intercalate_singleton, List.append_assoc, blankLine,
            splitFirst_append_left hline, ← blankLine, hself]
          simp
      | cons next lines =>
          have hrest := ih (List.cons_ne_nil _ _) fun line' hline' =>
            h line' (List.mem_cons_of_mem _ hline')
          -- the next line is not empty, so no blank line begins here
          obtain ⟨c, text, hnext, hc⟩ : ∃ c text, crlf.intercalate (next :: lines) = c :: text ∧
              c ≠ '\r' := by
            obtain ⟨hne', hnext⟩ := h next (List.mem_cons_of_mem _ List.mem_cons_self)
            cases next with
            | nil => exact absurd rfl hne'
            | cons c next =>
                obtain ⟨text, htext⟩ := exists_intercalate_eq_cons
                exact ⟨c, text, htext, hnext c List.mem_cons_self⟩
          rw [List.intercalate_cons_cons, List.append_assoc, List.append_assoc, List.append_assoc,
            blankLine, splitFirst_append_left hline, ← blankLine, hnext, List.cons_append,
            splitFirst_crlf hc, ← List.cons_append, ← hnext, ← List.append_assoc, hrest]
          simp

/-! ## The lines of the header block -/

theorem splitLines_line {line : List Char} (h : ∀ c ∈ line, c ≠ '\r') :
    splitLines line = [line] := by
  induction line using splitLines.induct with
  | case1 => rfl
  | case2 c => rfl
  | case3 c d text hcrlf _ => exact absurd hcrlf.1 (h c List.mem_cons_self)
  | case4 c d text hcrlf _ ih =>
      rw [splitLines, if_neg hcrlf, ih fun c' hc' => h c' (List.mem_cons_of_mem _ hc')]
  | case5 c d text hcrlf _ _ _ ih =>
      rw [splitLines, if_neg hcrlf, ih fun c' hc' => h c' (List.mem_cons_of_mem _ hc')]

theorem splitLines_append {line : List Char} (h : ∀ c ∈ line, c ≠ '\r') (rest : List Char) :
    splitLines (line ++ crlf ++ rest) = line :: splitLines rest := by
  induction line with
  | nil => simp [crlf, splitLines]
  | cons c line ih =>
      have hline := ih fun c' hc' => h c' (List.mem_cons_of_mem _ hc')
      cases hall : line ++ crlf ++ rest with
      | nil => simp [crlf] at hall
      | cons d text =>
          have hnot : ¬ (c = '\r' ∧ d = '\n') := fun hcrlf => h c List.mem_cons_self hcrlf.1
          rw [hall] at hline
          rw [List.cons_append, List.cons_append, hall, splitLines, if_neg hnot, hline]

/-- Splitting takes back what joined the lines. -/
theorem splitLines_intercalate {lines : List (List Char)} (hne : lines ≠ [])
    (h : ∀ line ∈ lines, ∀ c ∈ line, c ≠ '\r') : splitLines (crlf.intercalate lines) = lines := by
  induction lines with
  | nil => exact absurd rfl hne
  | cons line lines ih =>
      cases lines with
      | nil =>
          rw [List.intercalate_singleton]
          exact splitLines_line (h line List.mem_cons_self)
      | cons next lines =>
          rw [List.intercalate_cons_cons, splitLines_append (h line List.mem_cons_self),
            ih (List.cons_ne_nil _ _) fun line' hline' => h line' (List.mem_cons_of_mem _ hline')]

/-! ## The status line -/

theorem firstMatch_of_here {α : Type} {here : List Char → Option α} {text : List Char} {r : α}
    (h : here text = some r) : firstMatch here text = some r := by
  cases text with
  | nil => exact h
  | cons c text => simp [firstMatch, h]

theorem takeWhile_append_of_all {p : Char → Bool} {text rest : List Char}
    (h : ∀ c ∈ text, p c = true) (hrest : ∀ c ∈ rest.head?, p c = false) :
    (text ++ rest).takeWhile p = text ∧ (text ++ rest).dropWhile p = rest := by
  rw [List.takeWhile_append_of_pos h, List.dropWhile_append_of_pos h]
  cases rest with
  | nil => simp
  | cons c rest => simp [hrest c rfl]

/-- The status line of a message has its status and reason. -/
theorem HttpMessage.statusMatch_statusLine (m : HttpMessage) :
    statusMatch m.statusLine = some (parseDigits m.status, m.reason.dropWhile isJsSpace) := by
  apply firstMatch_of_here
  have hspace : isJsSpace ' ' = true := by decide
  have hstatus : m.status ≠ [] := by
    intro hnil
    have hlength := m.status_length
    rw [hnil] at hlength
    cases hlength
  obtain ⟨d, digits, hdigits⟩ := List.exists_cons_of_ne_nil hstatus
  have hd : isJsSpace d = false := isJsSpace_digit (m.status_digits d (by simp [hdigits]))
  -- white space, digits and the reason, one after the other
  have hrest : (' ' :: (m.status ++ ' ' :: m.reason)).dropWhile isJsSpace =
      m.status ++ ' ' :: m.reason := by
    rw [List.dropWhile_cons_of_pos hspace, hdigits, List.cons_append,
      List.dropWhile_cons_of_neg (by simp [hd])]
  have hafter : (m.status ++ ' ' :: m.reason).takeWhile Char.isDigit = m.status ∧
      (m.status ++ ' ' :: m.reason).dropWhile Char.isDigit = ' ' :: m.reason :=
    takeWhile_append_of_all m.status_digits (by simp)
  -- a reason of one line is taken to its end
  have hreason : (m.reason.dropWhile isJsSpace).takeWhile (!isLineTerminator ·) =
      m.reason.dropWhile isJsSpace := by
    apply List.takeWhile_eq_self_iff.2
    intro c hc
    have hb := isFieldChar_bounds (m.reason_chars c ((List.dropWhile_suffix _).subset hc))
    simp only [isLineTerminator, Bool.not_eq_true', decide_eq_false_iff_not, List.mem_cons,
      List.not_mem_nil, or_false]
    omega
  have htail : statusTail (' ' :: (m.status ++ ' ' :: m.reason)) =
      some (parseDigits m.status, m.reason.dropWhile isJsSpace) := by
    simp only [statusTail, hrest, hafter.1, hafter.2, List.dropWhile_cons_of_pos hspace, hreason]
    rw [if_neg]
    simp [List.takeWhile_cons_of_pos hspace, hstatus]
  show statusHere (['H', 'T', 'T', 'P', '/', m.major, '.', m.minor] ++
    (' ' :: (m.status ++ ' ' :: m.reason))) = _
  simp only [List.cons_append, List.nil_append, statusHere, m.major_digit, m.minor_digit, and_self,
    if_true, htail]

/-! ## The fields -/

theorem trimText_of_no_space {text : List Char} (h : ∀ c ∈ text, isJsSpace c = false) :
    trimText text = text := by
  have hkeep {l : List Char} (hl : ∀ c ∈ l, isJsSpace c = false) : l.dropWhile isJsSpace = l := by
    cases l with
    | nil => rfl
    | cons c l => simp [hl c List.mem_cons_self]
  rw [trimText, hkeep h, hkeep fun c hc => h c (List.mem_reverse.1 hc), List.reverse_reverse]

/-- The line of a field sets the field. -/
theorem HeaderField.readHeaderLine_line (f : HeaderField) (toLowerCase : List Char → List Char)
    (headers : List Char → Option (List Char)) :
    readHeaderLine toLowerCase headers f.line =
      setHeader headers (toLowerCase f.name) (trimText f.value) := by
  have hcolon : ∀ c ∈ f.name, c ≠ ':' := fun c hc => (isNameChar_bounds (f.name_chars c hc)).2.2
  have hself : splitFirst [':'] (':' :: f.value) = some ([], f.value) := splitFirst_self [':'] f.value
  have htrim : trimText f.name = f.name :=
    trimText_of_no_space fun c hc => isJsSpace_nameChar (f.name_chars c hc)
  have hsplit : splitFirst [':'] f.line = some (f.name, f.value) := by
    rw [HeaderField.line, splitFirst_append_left hcolon, hself]
    simp
  simp only [readHeaderLine, hsplit, htrim]

/-! ## The length of the body -/

theorem exists_firstMatch_append {α : Type} {here : List Char → Option α} {text : List Char}
    (h : here text ≠ none) (before : List Char) : ∃ r, firstMatch here (before ++ text) = some r := by
  induction before with
  | nil =>
      obtain ⟨r, hr⟩ := Option.ne_none_iff_exists'.1 h
      exact ⟨r, firstMatch_of_here hr⟩
  | cons c before ih =>
      rw [List.cons_append, firstMatch]
      split
      · exact ⟨_, rfl⟩
      · exact ih

theorem lengthName_colon : lengthName ++ [Char.toLower ':'] = "content-length:".toList := by
  decide +kernel

/-- The pattern matches a field with the length, whatever follows. -/
theorem HeaderField.contentLengthHere_line {f : HeaderField} (hname : f.IsLength)
    (hdigits : trimText f.value ≠ [] ∧ ∀ c ∈ trimText f.value, c.isDigit = true)
    (rest : List Char) : contentLengthHere (f.line ++ rest) ≠ none := by
  have hlength : f.name.length = 14 := by
    have hmap := congrArg List.length hname
    rw [List.length_map] at hmap
    exact hmap
  have hline : f.line ++ rest = (f.name ++ [':']) ++ (f.value ++ rest) := by
    simp [HeaderField.line]
  have hfifteen : (f.name ++ [':']).length = 15 := by
    rw [List.length_append, hlength, List.length_singleton]
  have htake : (f.line ++ rest).take 15 = f.name ++ [':'] := by
    rw [hline, ← hfifteen, List.take_left]
  have hdrop : (f.line ++ rest).drop 15 = f.value ++ rest := by
    rw [hline, ← hfifteen, List.drop_left]
  have hlower : ((f.line ++ rest).take 15).map Char.toLower = "content-length:".toList := by
    rw [htake, List.map_append, List.map_singleton, hname]
    exact lengthName_colon
  -- what is left of the value without the white space before it begins with a digit
  obtain ⟨d, digits, hd⟩ : ∃ d digits, f.value.dropWhile isJsSpace = d :: digits := by
    cases hvalue : f.value.dropWhile isJsSpace with
    | nil => exact absurd (by simp [trimText, hvalue]) hdigits.1
    | cons d digits => exact ⟨d, digits, rfl⟩
  have hdigit : d.isDigit = true := by
    have hspace : isJsSpace d = false := by
      have hne : f.value.dropWhile isJsSpace ≠ [] := by simp [hd]
      have hhead := List.head_dropWhile_not isJsSpace hne
      simpa [hd] using hhead
    have hmem : d ∈ trimText f.value := by
      rw [trimText, hd, List.mem_reverse, List.reverse_cons, List.dropWhile_append]
      split
      · simp [hspace]
      · simp
    exact hdigits.2 d hmem
  have hsome : ((f.value ++ rest).dropWhile isJsSpace).takeWhile Char.isDigit ≠ [] := by
    rw [List.dropWhile_append, if_neg (by simp [hd]), hd, List.cons_append,
      List.takeWhile_cons_of_pos hdigit]
    exact List.cons_ne_nil _ _
  rw [contentLengthHere, if_pos hlower, hdrop]
  simp only [hsome, if_false]
  exact Option.some_ne_none _

/-- A line of the header block has lines before and after it. -/
theorem exists_intercalate_eq {line : List Char} {lines : List (List Char)} (h : line ∈ lines) :
    ∃ before after, crlf.intercalate lines = before ++ (line ++ after) := by
  induction lines with
  | nil => cases h
  | cons next lines ih =>
      cases lines with
      | nil =>
          rw [List.mem_singleton.1 h, List.intercalate_singleton]
          exact ⟨[], [], by simp⟩
      | cons next' lines =>
          rw [List.intercalate_cons_cons]
          rcases List.mem_cons.1 h with rfl | h
          · exact ⟨[], crlf ++ crlf.intercalate (next' :: lines), by simp⟩
          · obtain ⟨before, after, hrest⟩ := ih h
            exact ⟨next ++ crlf ++ before, after, by rw [hrest]; simp⟩

namespace HttpMessage

variable (m : HttpMessage)

/-- The length pattern matches somewhere in the header block. -/
theorem exists_contentLengthMatch : ∃ n, contentLengthMatch m.headerBlock = some n := by
  obtain ⟨f, hf, hname⟩ := m.has_length
  obtain ⟨before, after, hblock⟩ := exists_intercalate_eq
    (List.mem_cons_of_mem m.statusLine (List.mem_map_of_mem (f := HeaderField.line) hf))
  rw [headerBlock, lines, hblock]
  exact exists_firstMatch_append (f.contentLengthHere_line hname (m.length_digits f hf hname) after)
    before

/-! ## Parsing -/

theorem splitFirst_head (text : List Char) :
    splitFirst blankLine (m.head ++ text) = some (m.headerBlock, text) :=
  splitFirst_lines (List.cons_ne_nil _ _) (fun line hline => ⟨(m.lines_chars line hline).1,
    fun c hc => fieldChar_ne_cr ((m.lines_chars line hline).2 c hc)⟩) text

theorem splitLines_headerBlock : splitLines m.headerBlock = m.lines :=
  splitLines_intercalate (List.cons_ne_nil _ _) fun line hline c hc =>
    fieldChar_ne_cr ((m.lines_chars line hline).2 c hc)

/-- The record that the loop over the lines builds. -/
def parsedHeaders (toLowerCase : List Char → List Char) : List Char → Option (List Char) :=
  m.fields.foldl (fun headers f => setHeader headers (toLowerCase f.name) (trimText f.value))
    fun _ => none

/-- The loop over the lines sets one field after the other. -/
theorem foldl_readHeaderLine (toLowerCase : List Char → List Char) :
    (splitLines m.headerBlock).tail.foldl (readHeaderLine toLowerCase) (fun _ => none) =
      m.parsedHeaders toLowerCase := by
  simp only [splitLines_headerBlock, lines, List.tail_cons, List.foldl_map,
    HeaderField.readHeaderLine_line, parsedHeaders]

/-- The headers are those of the message when no name is the property that cannot be set. -/
theorem parsedHeaders_eq_iff (toLowerCase : List Char → List Char) :
    m.parsedHeaders toLowerCase = (m.response toLowerCase).headers ↔
      ∀ f ∈ m.fields, toLowerCase f.name ≠ protoKey := by
  rw [parsedHeaders, response]
  dsimp only
  generalize m.fields = fields
  constructor
  · intro h f hf hproto
    -- the property is never set, and the message has it
    have hnone (fields : List HeaderField) :
        ∀ headers : List Char → Option (List Char), headers protoKey = none →
          fields.foldl (fun headers f => setHeader headers (toLowerCase f.name) (trimText f.value))
            headers protoKey = none := by
      induction fields with
      | nil => exact fun _ h => h
      | cons f fields ih =>
          intro headers h
          rw [List.foldl_cons]
          apply ih
          rw [setHeader]
          split
          · exact h
          · next hne =>
            show (if protoKey = toLowerCase f.name then _ else _) = none
            rw [if_neg (Ne.symm hne), h]
    have hsome (fields : List HeaderField) :
        ∀ headers : List Char → Option (List Char),
          (headers protoKey ≠ none ∨ ∃ f ∈ fields, toLowerCase f.name = protoKey) →
          fields.foldl (fun headers f name =>
            if name = toLowerCase f.name then some (trimText f.value) else headers name)
            headers protoKey ≠ none := by
      induction fields with
      | nil =>
          rintro headers (h | ⟨f, hf, -⟩)
          · exact h
          · cases hf
      | cons f fields ih =>
          intro headers h
          rw [List.foldl_cons]
          apply ih
          by_cases hf : toLowerCase f.name = protoKey
          · exact Or.inl (by simp [hf])
          · rcases h with h | ⟨f', hf', hproto⟩
            · refine Or.inl ?_
              show (if protoKey = toLowerCase f.name then _ else _) ≠ none
              rwa [if_neg (Ne.symm hf)]
            · rcases List.mem_cons.1 hf' with rfl | hf'
              · exact absurd hproto hf
              · exact Or.inr ⟨f', hf', hproto⟩
    exact hsome fields _ (Or.inr ⟨f, hf, hproto⟩) ((congrFun h protoKey).symm.trans
      (hnone fields _ rfl))
  · intro h
    generalize (fun _ => none : List Char → Option (List Char)) = headers
    induction fields generalizing headers with
    | nil => rfl
    | cons f fields ih =>
        rw [List.foldl_cons, List.foldl_cons, setHeader, if_neg (h f List.mem_cons_self)]
        exact ih (fun f' hf' => h f' (List.mem_cons_of_mem _ hf')) _

end HttpMessage

end TorE2EE.Client.TorHttp
