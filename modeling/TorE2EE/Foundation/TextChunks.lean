import TorE2EE.Foundation.Unicode

/-!
# Text received in chunks

The bytes of a text arrive in chunks, and every chunk is decoded by itself. A character with a
boundary inside is torn: each of its parts is replaced. `decodeChunks_cases` says what is received,
and `truncate_decodeChunks_iff` when the first `n` bytes of it are the text that was sent.
-/

set_option autoImplicit false

namespace TorE2EE.Foundation

/-- Every chunk decoded by itself. -/
def decodeChunks (chunks : List (List UInt8)) : List Char := chunks.flatMap decodeUtf8

/-- A chunk ends after the first `p` bytes, or none has begun. -/
def CutAt (chunks : List (List UInt8)) (p : Nat) : Prop :=
  ∃ before after, chunks = before ++ after ∧ before.flatten.length = p

@[simp] theorem decodeChunks_nil : decodeChunks [] = [] := rfl

@[simp] theorem decodeChunks_cons (chunk : List UInt8) (chunks : List (List UInt8)) :
    decodeChunks (chunk :: chunks) = decodeUtf8 chunk ++ decodeChunks chunks := rfl

theorem cutAt_cons {chunk : List UInt8} {chunks : List (List UInt8)} {p : Nat} :
    CutAt (chunk :: chunks) p ↔ p = 0 ∨ ∃ q, CutAt chunks q ∧ p = chunk.length + q := by
  constructor
  · rintro ⟨before, after, hall, rfl⟩
    cases before with
    | nil => exact Or.inl rfl
    | cons first before =>
        rw [List.cons_append, List.cons.injEq] at hall
        obtain ⟨rfl, rfl⟩ := hall
        refine Or.inr ⟨before.flatten.length, ⟨before, after, rfl, rfl⟩, ?_⟩
        rw [List.flatten_cons, List.length_append]
  · rintro (rfl | ⟨q, ⟨before, after, rfl, rfl⟩, rfl⟩)
    · exact ⟨[], chunk :: chunks, rfl, rfl⟩
    · exact ⟨chunk :: before, after, rfl, by rw [List.flatten_cons, List.length_append]⟩

/-- An empty chunk changes nothing. -/
theorem cutAt_nil_cons {chunks : List (List UInt8)} {p : Nat} :
    CutAt ([] :: chunks) p ↔ CutAt chunks p := by
  rw [cutAt_cons]
  constructor
  · rintro (rfl | ⟨q, hq, rfl⟩)
    · exact ⟨[], chunks, rfl, rfl⟩
    · rwa [List.length_nil, Nat.zero_add]
  · intro hp
    exact Or.inr ⟨p, hp, by rw [List.length_nil, Nat.zero_add]⟩

/-- The chunks of what follows the first bytes. -/
structure After (chunks : List (List UInt8)) (n : Nat) (rest : List UInt8)
    (later : List (List UInt8)) : Prop where
  flatten_eq : later.flatten = rest
  cutAt_iff : ∀ q, 0 < q → (CutAt later q ↔ CutAt chunks (n + q))

/-- Bytes with no boundary inside come at the beginning of a chunk. -/
theorem exists_after_piece {chunks : List (List UInt8)} {piece rest : List UInt8}
    (hpiece : piece ≠ []) (h : chunks.flatten = piece ++ rest)
    (hcut : ∀ p, 0 < p → p < piece.length → ¬ CutAt chunks p) :
    ∃ first later, decodeChunks chunks = decodeUtf8 (piece ++ first) ++ decodeChunks later ∧
      After chunks piece.length rest (first :: later) := by
  induction chunks with
  | nil =>
      have hnil := congrArg List.length h
      have hpos := List.length_pos_of_ne_nil hpiece
      rw [List.flatten_nil, List.length_nil, List.length_append] at hnil
      omega
  | cons chunk chunks ih =>
      rw [List.flatten_cons] at h
      by_cases hempty : chunk = []
      · subst hempty
        obtain ⟨first, later, hdecode, hafter⟩ :=
          ih h fun p hpos hp hp' => hcut p hpos hp (cutAt_nil_cons.2 hp')
        refine ⟨first, later, hdecode, hafter.flatten_eq, ?_⟩
        intro q hq
        rw [hafter.cutAt_iff q hq, cutAt_nil_cons]
      · -- the first chunk is not shorter, since it ends at a boundary
        have hpos := List.length_pos_of_ne_nil hempty
        have hlong : piece.length ≤ chunk.length := by
          by_contra hshort
          refine hcut chunk.length hpos (by omega) (cutAt_cons.2 (Or.inr ⟨0, ?_, rfl⟩))
          exact ⟨[], chunks, rfl, rfl⟩
        have htake := congrArg (List.take piece.length) h
        have hdrop := congrArg (List.drop piece.length) h
        rw [List.take_append_of_le_length hlong, List.take_left] at htake
        rw [List.drop_append_of_le_length hlong, List.drop_left] at hdrop
        have hchunk : chunk = piece ++ chunk.drop piece.length := by
          conv_lhs => rw [← List.take_append_drop piece.length chunk, htake]
        refine ⟨chunk.drop piece.length, chunks, ?_, hdrop, ?_⟩
        · rw [← hchunk, decodeChunks_cons]
        · intro q hq
          have hlength := List.length_drop (i := piece.length) (l := chunk)
          rw [cutAt_cons, cutAt_cons]
          constructor
          · rintro (rfl | ⟨r, hr, rfl⟩)
            · omega
            · exact Or.inr ⟨r, hr, by omega⟩
          · rintro (hzero | ⟨r, hr, hp⟩)
            · omega
            · exact Or.inr ⟨r, hr, by omega⟩

/-- Bytes that continue a torn character are replaced one by one. -/
theorem exists_after_tail {chunks : List (List UInt8)} {tail rest : List UInt8}
    (hcontinues : ∀ b ∈ tail, Continues b) (h : chunks.flatten = tail ++ rest) :
    ∃ later, decodeChunks chunks = List.replicate tail.length replacement ++ decodeChunks later ∧
      After chunks tail.length rest later := by
  induction tail generalizing chunks with
  | nil => exact ⟨chunks, rfl, h, fun q _ => by rw [List.length_nil, Nat.zero_add]⟩
  | cons b tail ih =>
      have hb : ∀ b' ∈ [b], Continues b' := by
        intro b' hb'
        exact hcontinues b' (List.mem_singleton.1 hb' ▸ List.mem_cons_self)
      obtain ⟨first, later, hdecode, hafter⟩ :=
        exists_after_piece (List.cons_ne_nil b []) h fun p hpos hp => by
          rw [List.length_singleton] at hp
          omega
      obtain ⟨later', hdecode', hafter'⟩ :=
        ih (fun b' hb' => hcontinues b' (List.mem_cons_of_mem _ hb')) hafter.flatten_eq
      refine ⟨later', ?_, hafter'.flatten_eq, ?_⟩
      · rw [hdecode, decodeUtf8_tail hb, List.append_assoc, ← decodeChunks_cons, hdecode',
          List.length_cons, List.replicate_succ]
        rfl
      · intro q hq
        have hsum : [b].length + (tail.length + q) = (b :: tail).length + q := by
          simp only [List.length_cons, List.length_nil]
          omega
        rw [hafter'.cutAt_iff q hq, hafter.cutAt_iff _ (by omega), hsum]

/-! ## Torn characters -/

/-- A boundary lies inside the character that follows `before`. -/
def Torn (chunks : List (List UInt8)) (before : List Char) (c : Char) : Prop :=
  ∃ p, CutAt chunks p ∧ (utf8 before).length < p ∧
    p < (utf8 before).length + (String.utf8EncodeChar c).length

/-- No character of the text is torn. -/
def Intact (chunks : List (List UInt8)) (text : List Char) : Prop :=
  ∀ before c after, text = before ++ c :: after → ¬ Torn chunks before c

theorem torn_nil_iff {chunks : List (List UInt8)} {c : Char} :
    Torn chunks [] c ↔ ∃ p, CutAt chunks p ∧ 0 < p ∧ p < (String.utf8EncodeChar c).length := by
  simp only [Torn, utf8_nil, List.length_nil, Nat.zero_add]

/-- A torn character that comes first: two or more replacement characters are received. -/
theorem exists_after_torn {chunks : List (List UInt8)} {c : Char} {rest : List UInt8}
    (h : chunks.flatten = String.utf8EncodeChar c ++ rest) (htorn : Torn chunks [] c) :
    ∃ later m, After chunks (String.utf8EncodeChar c).length rest later ∧ 2 ≤ m ∧
      decodeChunks chunks = List.replicate m replacement ++ decodeChunks later := by
  obtain ⟨p, hp, hpos, hlt⟩ := torn_nil_iff.1 htorn
  clear htorn
  induction chunks with
  | nil =>
      have hnil := congrArg List.length h
      rw [List.flatten_nil, List.length_nil, List.length_append] at hnil
      omega
  | cons chunk chunks ih =>
      rw [List.flatten_cons] at h
      by_cases hempty : chunk = []
      · subst hempty
        obtain ⟨later, m, hafter, hm, hdecode⟩ := ih h (cutAt_nil_cons.1 hp)
        refine ⟨later, m, ⟨hafter.flatten_eq, ?_⟩, hm, hdecode⟩
        intro q hq
        rw [hafter.cutAt_iff q hq, cutAt_nil_cons]
      · -- the first chunk is a proper part of the character
        have hchunkpos := List.length_pos_of_ne_nil hempty
        have hshort : chunk.length < (String.utf8EncodeChar c).length := by
          rcases cutAt_cons.1 hp with hzero | ⟨q, -, hq⟩
          · omega
          · omega
        have htake := congrArg (List.take chunk.length) h
        have hdrop := congrArg (List.drop chunk.length) h
        rw [List.take_left, List.take_append_of_le_length (by omega)] at htake
        rw [List.drop_left, List.drop_append_of_le_length (by omega)] at hdrop
        generalize htailDef : (String.utf8EncodeChar c).drop chunk.length = tail at hdrop
        have hparts : String.utf8EncodeChar c = chunk ++ tail := by
          conv_lhs => rw [← List.take_append_drop chunk.length (String.utf8EncodeChar c), ← htake]
          rw [htailDef]
        have hlength := congrArg List.length hparts
        rw [List.length_append] at hlength
        have htail : tail ≠ [] := by
          rintro rfl
          rw [List.length_nil] at hlength
          omega
        have hcontinues : ∀ b ∈ tail, Continues b := by
          intro b hb
          cases chunk with
          | nil => exact absurd rfl hempty
          | cons b' bytes =>
              exact continues_of_utf8EncodeChar hparts b (List.mem_append_right _ hb)
        obtain ⟨later, hdecode, hafter⟩ := exists_after_tail hcontinues hdrop
        have htailpos := List.length_pos_of_ne_nil htail
        refine ⟨later, tail.length + 1, ⟨hafter.flatten_eq, ?_⟩, by omega, ?_⟩
        · intro q hq
          rw [hafter.cutAt_iff q hq, cutAt_cons]
          constructor
          · intro hcut
            exact Or.inr ⟨_, hcut, by omega⟩
          · rintro (hzero | ⟨r, hr, hsum⟩)
            · omega
            · obtain rfl : r = tail.length + q := by omega
              exact hr
        · rw [decodeChunks_cons, decodeUtf8_head hparts hempty htail, hdecode, List.replicate_succ]
          rfl

/-- A character that comes first and is not torn is received. -/
theorem exists_after_char {chunks : List (List UInt8)} {c : Char} {rest : List UInt8}
    (h : chunks.flatten = String.utf8EncodeChar c ++ rest) (hwhole : ¬ Torn chunks [] c) :
    ∃ later, After chunks (String.utf8EncodeChar c).length rest later ∧
      decodeChunks chunks = c :: decodeChunks later := by
  obtain ⟨first, later, hdecode, hafter⟩ := exists_after_piece String.utf8EncodeChar_ne_nil h
    fun p hpos hp hcut => hwhole (torn_nil_iff.2 ⟨p, hcut, hpos, hp⟩)
  refine ⟨first :: later, hafter, ?_⟩
  rw [hdecode, decodeUtf8_char]
  rfl

/-- Characters behind the first bytes are torn as the characters of the chunks that follow. -/
theorem After.torn_iff {chunks later : List (List UInt8)} {rest : List UInt8} {first : List Char}
    (h : After chunks (utf8 first).length rest later) (before : List Char) (c : Char) :
    Torn later before c ↔ Torn chunks (first ++ before) c := by
  unfold Torn
  rw [utf8_append, List.length_append]
  constructor
  · rintro ⟨p, hp, hlower, hupper⟩
    exact ⟨(utf8 first).length + p, (h.cutAt_iff p (by omega)).1 hp, by omega, by omega⟩
  · rintro ⟨p, hp, hlower, hupper⟩
    obtain ⟨q, rfl⟩ : ∃ q, p = (utf8 first).length + q := ⟨p - (utf8 first).length, by omega⟩
    exact ⟨q, (h.cutAt_iff q (by omega)).2 hp, by omega, by omega⟩

/-- A text without torn characters is received as it was sent. -/
theorem exists_after_intact {chunks : List (List UInt8)} {text : List Char} {rest : List UInt8}
    (h : chunks.flatten = utf8 text ++ rest) (hintact : Intact chunks text) :
    ∃ later, After chunks (utf8 text).length rest later ∧
      decodeChunks chunks = text ++ decodeChunks later := by
  induction text generalizing chunks with
  | nil => exact ⟨chunks, ⟨h, fun q _ => by rw [utf8_nil, List.length_nil, Nat.zero_add]⟩, rfl⟩
  | cons c text ih =>
      rw [utf8_cons, List.append_assoc] at h
      obtain ⟨next, hnext, hchar⟩ := exists_after_char h (hintact [] c text rfl)
      have hfirst : After chunks (utf8 [c]).length (utf8 text ++ rest) next := by
        rw [utf8_cons, utf8_nil, List.append_nil]
        exact hnext
      have hintact' : Intact next text := by
        rintro before c' after rfl
        rw [hfirst.torn_iff]
        exact hintact (c :: before) c' after rfl
      obtain ⟨later, hlater, htext⟩ := ih hnext.flatten_eq hintact'
      refine ⟨later, ⟨hlater.flatten_eq, ?_⟩, ?_⟩
      · intro q hq
        rw [hlater.cutAt_iff q hq, hnext.cutAt_iff _ (by omega), utf8_cons, List.length_append,
          Nat.add_assoc]
      · rw [hchar, htext]
        rfl

/-- Only one torn character is the first one. -/
theorem firstTorn_unique {chunks : List (List UInt8)} {before before' after after' : List Char}
    {c c' : Char} (h : before ++ c :: after = before' ++ c' :: after') (hbefore : Intact chunks before)
    (hc : Torn chunks before c) (hbefore' : Intact chunks before') (hc' : Torn chunks before' c') :
    before = before' := by
  rcases List.append_eq_append_iff.1 h with ⟨between, rfl, hrest⟩ | ⟨between, rfl, hrest⟩
  · cases between with
    | nil => rw [List.append_nil]
    | cons d between =>
        rw [List.cons_append, List.cons.injEq] at hrest
        obtain ⟨rfl, -⟩ := hrest
        exact absurd hc (hbefore' before c between rfl)
  · cases between with
    | nil => rw [List.append_nil]
    | cons d between =>
        rw [List.cons_append, List.cons.injEq] at hrest
        obtain ⟨rfl, -⟩ := hrest
        exact absurd hc' (hbefore before' c' between rfl)

/-- An ASCII character cannot be torn. -/
theorem not_torn_ascii {chunks : List (List UInt8)} {before : List Char} {c : Char}
    (hc : c.toNat ≤ 0x7F) : ¬ Torn chunks before c := by
  rintro ⟨p, -, hlower, hupper⟩
  have hone : String.utf8EncodeChar c = [UInt8.ofNat c.toNat] := by
    rw [String.utf8EncodeChar]
    exact if_pos hc
  rw [hone, List.length_singleton] at hupper
  omega

theorem intact_ascii {chunks : List (List UInt8)} {text : List Char}
    (h : ∀ c ∈ text, c.toNat ≤ 0x7F) : Intact chunks text := by
  rintro before c after rfl
  exact not_torn_ascii (h c (List.mem_append_right _ List.mem_cons_self))

/-- What is received of a text: the text, or what stands before its first torn character and two or
more replacement characters. -/
theorem decodeChunks_cases {chunks : List (List UInt8)} {text : List Char}
    (h : chunks.flatten = utf8 text) :
    (Intact chunks text ∧ decodeChunks chunks = text) ∨
      ∃ before c after later m, text = before ++ c :: after ∧ Intact chunks before ∧
        Torn chunks before c ∧ 2 ≤ m ∧ later.flatten = utf8 after ∧
        decodeChunks chunks = before ++ (List.replicate m replacement ++ decodeChunks later) := by
  induction text generalizing chunks with
  | nil =>
      refine Or.inl ⟨?_, ?_⟩
      · intro before c after hnil
        simp at hnil
      · have hall : ∀ chunk ∈ chunks, chunk = [] := List.flatten_eq_nil_iff.1 h
        apply List.flatMap_eq_nil_iff.2
        intro chunk hchunk
        rw [hall chunk hchunk, decodeUtf8_nil]
  | cons c text ih =>
      rw [utf8_cons] at h
      by_cases htorn : Torn chunks [] c
      · obtain ⟨later, m, hafter, hm, hdecode⟩ := exists_after_torn h htorn
        refine Or.inr ⟨[], c, text, later, m, rfl, ?_, htorn, hm, hafter.flatten_eq, hdecode⟩
        intro before c' after hnil
        simp at hnil
      · obtain ⟨next, hnext, hchar⟩ := exists_after_char h htorn
        have hfirst : After chunks (utf8 [c]).length (utf8 text) next := by
          rw [utf8_cons, utf8_nil, List.append_nil]
          exact hnext
        -- a text that is intact from the second character on is intact
        have hintact {before : List Char} (hnextIntact : Intact next before) :
            Intact chunks (c :: before) := by
          intro front c' after hfront
          cases front with
          | nil =>
              rw [List.nil_append, List.cons.injEq] at hfront
              rw [← hfront.1]
              exact htorn
          | cons c'' front =>
              rw [List.cons_append, List.cons.injEq] at hfront
              obtain ⟨rfl, rfl⟩ := hfront
              exact (hfirst.torn_iff front c').not.1 (hnextIntact front c' after rfl)
        rcases ih hnext.flatten_eq with ⟨hwhole, htext⟩ |
          ⟨before, c', after, later, m, rfl, hbefore, hc', hm, hlater, hdecode⟩
        · exact Or.inl ⟨hintact hwhole, by rw [hchar, htext]⟩
        · refine Or.inr ⟨c :: before, c', after, later, m, rfl, hintact hbefore, ?_, hm, hlater, ?_⟩
          · exact (hfirst.torn_iff before c').1 hc'
          · rw [hchar, hdecode, List.cons_append]

/-! ## The first bytes of a text -/

/-- The first `n` bytes of a text, decoded. -/
def truncate (n : Nat) (text : List Char) : List Char := decodeUtf8 ((utf8 text).take n)

@[simp] theorem truncate_zero (text : List Char) : truncate 0 text = [] := rfl

@[simp] theorem truncate_nil (n : Nat) : truncate n [] = [] := by
  rw [truncate, utf8_nil, List.take_nil, decodeUtf8_nil]

/-- A character whose bytes are all there. -/
theorem truncate_cons_of_le {n : Nat} {c : Char} (h : (String.utf8EncodeChar c).length ≤ n)
    (text : List Char) :
    truncate n (c :: text) = c :: truncate (n - (String.utf8EncodeChar c).length) text := by
  rw [truncate, utf8_cons, List.take_append, List.take_of_length_le h, decodeUtf8_char, truncate]

/-- A character whose last bytes are missing. -/
theorem truncate_cons_of_lt {n : Nat} {c : Char} (hpos : 0 < n)
    (h : n < (String.utf8EncodeChar c).length) (text : List Char) :
    truncate n (c :: text) = [replacement] := by
  have hparts := (List.take_append_drop n (String.utf8EncodeChar c)).symm
  rw [truncate, utf8_cons, List.take_append_of_le_length (by omega)]
  apply decodeUtf8_head hparts
  · intro hnil
    have hlength := congrArg List.length hnil
    rw [List.length_take, List.length_nil] at hlength
    omega
  · intro hnil
    have hlength := List.drop_eq_nil_iff.1 hnil
    omega

/-- The text is there when its bytes are. -/
theorem truncate_of_le {n : Nat} {text : List Char} (h : (utf8 text).length ≤ n) :
    truncate n text = text := by
  rw [truncate, List.take_of_length_le h, decodeUtf8_utf8]

/-- What follows bytes enough plays no part. -/
theorem truncate_append_of_le {n : Nat} {text : List Char} (h : n ≤ (utf8 text).length)
    (rest : List Char) : truncate n (text ++ rest) = truncate n text := by
  rw [truncate, utf8_append, List.take_append_of_le_length h, truncate]

theorem utf8EncodeChar_replacement_length : (String.utf8EncodeChar replacement).length = 3 := rfl

/-- Only the last character can be missing bytes without a trace, when it is the replacement
character. -/
theorem truncate_eq_self_iff {n : Nat} {text : List Char} :
    truncate n text = text ↔ (utf8 text).length ≤ n ∨
      ∃ before, text = before ++ [replacement] ∧ (utf8 before).length < n := by
  constructor
  · intro h
    induction text generalizing n with
    | nil => exact Or.inl (Nat.zero_le n)
    | cons c text ih =>
        rcases Nat.eq_zero_or_pos n with rfl | hpos
        · cases h
        by_cases hlong : (String.utf8EncodeChar c).length ≤ n
        · rw [truncate_cons_of_le hlong, List.cons.injEq] at h
          rcases ih h.2 with hle | ⟨before, rfl, hlt⟩
          · refine Or.inl ?_
            rw [utf8_cons, List.length_append]
            omega
          · refine Or.inr ⟨c :: before, rfl, ?_⟩
            rw [utf8_cons, List.length_append]
            omega
        · rw [truncate_cons_of_lt hpos (by omega), List.cons.injEq] at h
          -- a character that is cut comes back as the replacement character, with nothing after it
          obtain ⟨rfl, rfl⟩ := h
          exact Or.inr ⟨[], rfl, hpos⟩
  · rintro (hle | ⟨before, rfl, hlt⟩)
    · exact truncate_of_le hle
    · induction before generalizing n with
      | nil =>
          by_cases hlong : (String.utf8EncodeChar replacement).length ≤ n
          · rw [List.nil_append, truncate_cons_of_le hlong, truncate_nil]
          · exact truncate_cons_of_lt (by omega) (by omega) []
      | cons c before ih =>
          rw [utf8_cons, List.length_append] at hlt
          rw [List.cons_append, truncate_cons_of_le (by omega), ih (by omega)]

/-- The first bytes of replacement characters are as many of them as are begun. -/
theorem truncate_replicate (n m : Nat) :
    truncate n (List.replicate m replacement) =
      List.replicate (min m ((n + 2) / 3)) replacement := by
  induction m generalizing n with
  | zero => simp
  | succ m ih =>
      rw [List.replicate_succ]
      rcases Nat.eq_zero_or_pos n with rfl | hpos
      · simp
      by_cases hlong : 3 ≤ n
      · have hcount : min (m + 1) ((n + 2) / 3) = min m ((n - 3 + 2) / 3) + 1 := by omega
        rw [truncate_cons_of_le hlong, utf8EncodeChar_replacement_length, ih, hcount,
          List.replicate_succ]
      · have hcount : min (m + 1) ((n + 2) / 3) = 1 := by omega
        rw [truncate_cons_of_lt hpos (by rw [utf8EncodeChar_replacement_length]; omega), hcount]
        rfl

/-- A text that begins with another one is cut inside it or behind it. -/
theorem truncate_append {n : Nat} {before : List Char} (h : (utf8 before).length ≤ n)
    (rest : List Char) :
    truncate n (before ++ rest) = before ++ truncate (n - (utf8 before).length) rest := by
  rw [truncate, utf8_append, List.take_append, List.take_of_length_le h, decodeUtf8_append, truncate]

theorem length_truncate_le (n : Nat) (text : List Char) : (truncate n text).length ≤ text.length := by
  induction text generalizing n with
  | nil => simp
  | cons c text ih =>
      rcases Nat.eq_zero_or_pos n with rfl | hpos
      · simp
      by_cases hlong : (String.utf8EncodeChar c).length ≤ n
      · have hrest := ih (n - (String.utf8EncodeChar c).length)
        rw [truncate_cons_of_le hlong, List.length_cons, List.length_cons]
        omega
      · rw [truncate_cons_of_lt hpos (by omega), List.length_singleton, List.length_cons]
        omega

/-- Replacement characters followed by what is received of a text are that text only when it is
nothing but replacement characters: every character of it would stand in the place of another. -/
theorem replacement_of_truncate {n m : Nat} {chunks : List (List UInt8)} {text : List Char}
    (hm : 1 ≤ m) (hchunks : chunks.flatten = utf8 text)
    (h : truncate n (List.replicate m replacement ++ decodeChunks chunks) = text) :
    ∀ c ∈ text, c = replacement := by
  induction text generalizing n m chunks with
  | nil => simp
  | cons c text ih =>
      obtain ⟨m, rfl⟩ : ∃ m', m = m' + 1 := ⟨m - 1, by omega⟩
      rw [List.replicate_succ, List.cons_append] at h
      rcases Nat.eq_zero_or_pos n with rfl | hpos
      · cases h
      by_cases hlong : 3 ≤ n
      · rw [truncate_cons_of_le hlong, List.cons.injEq] at h
        obtain ⟨rfl, hrest⟩ := h
        -- what is received of the first character is one or more replacement characters as well
        have hreceived : ∃ m' later, 1 ≤ m' ∧ later.flatten = utf8 text ∧
            decodeChunks chunks = List.replicate m' replacement ++ decodeChunks later := by
          by_cases htorn : Torn chunks [] replacement
          · obtain ⟨later, m', hafter, hm', hdecode⟩ := exists_after_torn hchunks htorn
            exact ⟨m', later, by omega, hafter.flatten_eq, hdecode⟩
          · obtain ⟨later, hafter, hdecode⟩ := exists_after_char hchunks htorn
            exact ⟨1, later, Nat.le_refl 1, hafter.flatten_eq, hdecode⟩
        obtain ⟨m', later, hm', hlater, hdecode⟩ := hreceived
        rw [hdecode, ← List.append_assoc, List.replicate_append_replicate] at hrest
        intro c hc
        rcases List.mem_cons.1 hc with rfl | hc
        · rfl
        · exact ih (by omega) hlater hrest c hc
      · rw [truncate_cons_of_lt hpos (by rw [utf8EncodeChar_replacement_length]; omega),
          List.cons.injEq] at h
        obtain ⟨rfl, rfl⟩ := h
        simp

/-- Of a text of replacement characters at least as many are received. -/
theorem decodeChunks_replicate {chunks : List (List UInt8)} {k : Nat}
    (h : chunks.flatten = utf8 (List.replicate k replacement)) :
    ∃ m, k ≤ m ∧ decodeChunks chunks = List.replicate m replacement := by
  induction k generalizing chunks with
  | zero =>
      rcases decodeChunks_cases h with ⟨-, hdecode⟩ | ⟨before, c, after, later, m, htext, -⟩
      · exact ⟨0, Nat.le_refl 0, hdecode⟩
      · simp at htext
  | succ k ih =>
      rw [List.replicate_succ, utf8_cons] at h
      by_cases htorn : Torn chunks [] replacement
      · obtain ⟨later, m, hafter, hm, hdecode⟩ := exists_after_torn h htorn
        obtain ⟨m', hm', hlater⟩ := ih hafter.flatten_eq
        refine ⟨m + m', by omega, ?_⟩
        rw [hdecode, hlater, List.replicate_append_replicate]
      · obtain ⟨later, hafter, hdecode⟩ := exists_after_char h htorn
        obtain ⟨m', hm', hlater⟩ := ih hafter.flatten_eq
        refine ⟨m' + 1, by omega, ?_⟩
        rw [hdecode, hlater, List.replicate_succ]

/-- No character of the text that follows `head` is torn. -/
def IntactBehind (chunks : List (List UInt8)) (head text : List Char) : Prop :=
  ∀ before c after, text = before ++ c :: after → ¬ Torn chunks (head ++ before) c

/-- When the first `n` bytes of what is received behind `head` are the text that was sent. Apart from
texts that end in replacement characters: when no character is torn and `n` is not too small. -/
def Survives (n : Nat) (chunks : List (List UInt8)) (head text : List Char) : Prop :=
  (IntactBehind chunks head text ∧
      ((utf8 text).length ≤ n ∨
        ∃ before, text = before ++ [replacement] ∧ (utf8 before).length < n)) ∨
    ∃ before k, text = before ++ List.replicate (k + 1) replacement ∧
      IntactBehind chunks head before ∧ Torn chunks (head ++ before) replacement ∧
      (utf8 before).length + 3 * k < n ∧ n ≤ (utf8 before).length + 3 * (k + 1)

/-- The condition on the chunks of what follows `head` is the one on all chunks. -/
theorem After.survives_iff {chunks later : List (List UInt8)} {rest : List UInt8} {head : List Char}
    (h : After chunks (utf8 head).length rest later) (n : Nat) (text : List Char) :
    Survives n later [] text ↔ Survives n chunks head text := by
  have hintact (text : List Char) : IntactBehind later [] text ↔ IntactBehind chunks head text := by
    simp only [IntactBehind, List.nil_append, h.torn_iff]
  simp only [Survives, hintact, List.nil_append, h.torn_iff]

/-- The condition is exact. -/
theorem truncate_decodeChunks_iff {chunks : List (List UInt8)} {text : List Char}
    (h : chunks.flatten = utf8 text) (n : Nat) :
    truncate n (decodeChunks chunks) = text ↔ Survives n chunks [] text := by
  rcases decodeChunks_cases h with ⟨hintact, hdecode⟩ |
    ⟨before, c, after, later, m, rfl, hbefore, hc, hm, hlater, hdecode⟩
  · rw [hdecode, truncate_eq_self_iff]
    constructor
    · intro hbytes
      exact Or.inl ⟨hintact, hbytes⟩
    · rintro (⟨-, hbytes⟩ | ⟨front, k, rfl, -, htorn, -, -⟩)
      · exact hbytes
      · exact absurd htorn (hintact front replacement (List.replicate k replacement) rfl)
  · rw [hdecode]
    constructor
    · intro htext
      have hlong : (utf8 before).length ≤ n := by
        by_contra hshort
        have hcount := congrArg List.length htext
        have hfew := length_truncate_le n before
        rw [truncate_append_of_le (by omega), List.length_append, List.length_cons] at hcount
        omega
      rw [truncate_append hlong, List.append_cancel_left_eq] at htext
      -- from the torn character on there are replacement characters only
      obtain ⟨m, rfl⟩ : ∃ m', m = m' + 1 := ⟨m - 1, by omega⟩
      have hsame : List.replicate (m + 1) replacement ++ decodeChunks later =
          replacement :: (List.replicate m replacement ++ decodeChunks later) := rfl
      rw [hsame] at htext
      rcases Nat.eq_zero_or_pos (n - (utf8 before).length) with hzero | hpos
      · rw [hzero] at htext
        cases htext
      have hall : c = replacement ∧ ∀ c' ∈ after, c' = replacement := by
        by_cases hthree : 3 ≤ n - (utf8 before).length
        · rw [truncate_cons_of_le hthree, List.cons.injEq] at htext
          exact ⟨htext.1.symm, replacement_of_truncate (by omega) hlater htext.2⟩
        · rw [truncate_cons_of_lt hpos (by rw [utf8EncodeChar_replacement_length]; omega),
            List.cons.injEq] at htext
          obtain ⟨rfl, rfl⟩ := htext
          exact ⟨rfl, by simp⟩
      obtain ⟨rfl, hafter⟩ := hall
      obtain ⟨k, rfl⟩ : ∃ k, after = List.replicate k replacement :=
        ⟨after.length, List.eq_replicate_iff.2 ⟨rfl, hafter⟩⟩
      obtain ⟨m', hm', hreceived⟩ := decodeChunks_replicate hlater
      rw [← hsame, hreceived, List.replicate_append_replicate, truncate_replicate,
        ← List.replicate_succ, List.replicate_inj] at htext
      refine Or.inr ⟨before, k, rfl, hbefore, hc, ?_, ?_⟩
      · omega
      · omega
    · rintro (⟨hintact, -⟩ | ⟨front, k, htext, hfront, htorn, hlower, hupper⟩)
      · exact absurd hc (hintact before c after rfl)
      · -- both decompositions are at the first torn character
        have hfronts : front = before := firstTorn_unique htext.symm hfront htorn hbefore hc
        subst hfronts
        rw [List.append_cancel_left_eq, List.replicate_succ, List.cons.injEq] at htext
        obtain ⟨rfl, rfl⟩ := htext
        obtain ⟨m', hm', hreceived⟩ := decodeChunks_replicate hlater
        rw [hreceived, List.replicate_append_replicate, truncate_append (by omega),
          truncate_replicate, ← List.replicate_succ]
        have hcount : min (m + m') ((n - (utf8 front).length + 2) / 3) = k + 1 := by omega
        rw [hcount]

end TorE2EE.Foundation
