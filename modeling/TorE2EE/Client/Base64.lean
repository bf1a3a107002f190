import Mathlib.Data.UInt

/-!
# Base64 and white space

The base64 of the runtime, as characters: the bits of the bytes six at a time (`sextets`), a digit for
each (`base64Digit`), and padding to a multiple of four. `urlDigit` is the form of a digit in the
URL-safe alphabet. `isJsSpace` is the white space of `trim`.
-/

set_option autoImplicit false

namespace TorE2EE.Client

/-- The white space that `trim` removes. -/
def isJsSpace (c : Char) : Bool :=
  c.toNat ∈ [0x09, 0x0a, 0x0b, 0x0c, 0x0d, 0x20, 0xa0, 0x1680, 0x2000, 0x2001, 0x2002, 0x2003,
    0x2004, 0x2005, 0x2006, 0x2007, 0x2008, 0x2009, 0x200a, 0x2028, 0x2029, 0x202f, 0x205f, 0x3000,
    0xfeff]

/-- A digit of base64. -/
def base64Digit (n : Nat) : Char :=
  if n < 26 then Char.ofNat ('A'.toNat + n)
  else if n < 52 then Char.ofNat ('a'.toNat + (n - 26))
  else if n < 62 then Char.ofNat ('0'.toNat + (n - 52))
  else if n = 62 then '+'
  else '/'

/-- The bits of the bytes, six at a time. -/
def sextets : List UInt8 → List Nat
  | [] => []
  | [a] => [a.toNat / 4, a.toNat % 4 * 16]
  | [a, b] => [a.toNat / 4, a.toNat % 4 * 16 + b.toNat / 16, b.toNat % 16 * 4]
  | a :: b :: c :: rest =>
      [a.toNat / 4, a.toNat % 4 * 16 + b.toNat / 16, b.toNat % 16 * 4 + c.toNat / 64,
        c.toNat % 64] ++ sextets rest

/-- `Buffer.from(bytes).toString('base64')`: the digits, padded to a multiple of four. -/
def toBase64 (bytes : List UInt8) : String :=
  String.ofList ((sextets bytes).map base64Digit ++ List.replicate ((3 - bytes.length % 3) % 3) '=')

theorem sextets_lt {bytes : List UInt8} {n : Nat} (h : n ∈ sextets bytes) : n < 64 := by
  induction bytes using sextets.induct with
  | case1 => simp [sextets] at h
  | case2 a =>
    have ha := a.toNat_lt
    simp only [sextets, List.mem_cons, List.not_mem_nil, or_false] at h
    omega
  | case3 a b =>
    have ha := a.toNat_lt
    have hb := b.toNat_lt
    simp only [sextets, List.mem_cons, List.not_mem_nil, or_false] at h
    omega
  | case4 a b c rest ih =>
    have ha := a.toNat_lt
    have hb := b.toNat_lt
    have hc := c.toNat_lt
    simp only [sextets, List.mem_append, List.mem_cons, List.not_mem_nil, or_false] at h
    rcases h with h | h
    · omega
    · exact ih h

/-- With its padding the text has a multiple of four digits. -/
theorem length_sextets (bytes : List UInt8) :
    ((sextets bytes).length + (3 - bytes.length % 3) % 3) % 4 = 0 := by
  induction bytes using sextets.induct with
  | case1 => rfl
  | case2 a => simp [sextets]
  | case3 a b => simp [sextets]
  | case4 a b c rest ih =>
    simp only [sextets, List.length_append, List.length_cons, List.length_nil]
    omega

/-- The digits of base64 in the order of the bits, without padding. -/
def base64Digits (bytes : List UInt8) : List Char := (sextets bytes).map base64Digit

/-- The URL-safe form of a digit. -/
def urlDigit (c : Char) : Char :=
  let c := if c = '+' then '-' else c
  if c = '/' then '_' else c

theorem base64Digits_ne_nil {bytes : List UInt8} (h : bytes ≠ []) : base64Digits bytes ≠ [] := by
  match bytes with
  | [a] => simp [base64Digits, sextets]
  | [a, b] => simp [base64Digits, sextets]
  | a :: b :: c :: rest => simp [base64Digits, sextets]

end TorE2EE.Client
