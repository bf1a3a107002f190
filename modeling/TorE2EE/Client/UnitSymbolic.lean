import TorE2EE.Client.UnitRuntime
import Mathlib.Data.Nat.Digits.Defs

/-!
# A runtime on strings of code units

Libraries with all the laws of `UnitRuntime`. The functions on strings and bytes are the runtime's
own, and integers are written in decimal. Keys are symbolic: a secret key is its own public key, a
signature is the signing key and the message, and a box is its nonce, both keys and its message.
-/

set_option autoImplicit false

namespace TorE2EE.Client

open TorE2EE.Foundation TorE2EE.Crypto

/-! ## Decimal numerals -/

/-- The decimal digits of a number. -/
def decimalUnits (n : Nat) : List UInt16 :=
  if n = 0 then [0x30] else (Nat.digits 10 n).reverse.map fun d => UInt16.ofNat (0x30 + d)

def decimalDigit (u : UInt16) : Option Nat :=
  if 0x30 ≤ u.toNat ∧ u.toNat ≤ 0x39 then some (u.toNat - 0x30) else none

/-- The number of decimal digits. -/
def decimalValue (text : List UInt16) : Option Nat :=
  (text.mapM decimalDigit).map fun ds => Nat.ofDigits 10 ds.reverse

/-- Integers in decimal. -/
def decimalNumerals : Numerals where
  text n := if n.num < 0 then unit '-' :: decimalUnits n.num.natAbs else decimalUnits n.num.natAbs
  read
    | [] => none
    | u :: text =>
        if u = unit '-' then (decimalValue text).map fun n => -(n : Rat)
        else (decimalValue (u :: text)).map fun n => (n : Rat)

theorem decimalValue_decimalUnits (n : Nat) : decimalValue (decimalUnits n) = some n := by
  rw [decimalUnits]
  split
  · next hzero =>
    rw [hzero]
    rfl
  · have hdigit : ∀ d ∈ (Nat.digits 10 n).reverse,
        decimalDigit (UInt16.ofNat (0x30 + d)) = some d := by
      intro d hd
      have hlt := Nat.digits_lt_base (by decide) (List.mem_reverse.1 hd)
      have hunit : (UInt16.ofNat (0x30 + d)).toNat = 0x30 + d := unit_toNat (by omega)
      rw [decimalDigit, hunit, if_pos (by omega), Nat.add_sub_cancel_left]
    rw [decimalValue, mapM_map_eq_some hdigit, Option.map_some, List.reverse_reverse,
      Nat.ofDigits_digits]

theorem decimalUnits_units (n : Nat) :
    ∀ u ∈ decimalUnits n, u ∈ (List.range 10).map fun d => UInt16.ofNat (0x30 + d) := by
  intro u hu
  rw [decimalUnits] at hu
  split at hu
  · rw [List.mem_singleton.1 hu]
    exact List.mem_map.2 ⟨0, by decide, rfl⟩
  · obtain ⟨d, hd, rfl⟩ := List.mem_map.1 hu
    have hlt := Nat.digits_lt_base (by decide) (List.mem_reverse.1 hd)
    exact List.mem_map.2 ⟨d, List.mem_range.2 hlt, rfl⟩

theorem decimalUnits_ne_nil (n : Nat) : decimalUnits n ≠ [] := by
  rw [decimalUnits]
  split
  · exact List.cons_ne_nil _ _
  · next hne =>
    rw [Ne, List.map_eq_nil_iff, List.reverse_eq_nil_iff]
    exact Nat.digits_ne_nil_iff_ne_zero.2 hne

/-- A digit is a unit of numerals, and no sign. -/
theorem decimalUnits_facts {n : Nat} {u : UInt16} (hu : u ∈ decimalUnits n) :
    isNumeralUnit u = true ∧ u ≠ unit '-' := by
  have hall := List.all_eq_true.1 (show (((List.range 10).map fun d => UInt16.ofNat (0x30 + d)).all
    fun u => decide (isNumeralUnit u = true ∧ u ≠ unit '-')) = true by decide +kernel)
  exact of_decide_eq_true (hall u (decimalUnits_units n u hu))

theorem decimalNumerals_read_neg (n : Nat) :
    decimalNumerals.read (unit '-' :: decimalUnits n) = some (-(n : Rat)) := by
  simp [decimalNumerals, decimalValue_decimalUnits]

theorem decimalNumerals_read_nonneg (n : Nat) :
    decimalNumerals.read (decimalUnits n) = some (n : Rat) := by
  have hvalue := decimalValue_decimalUnits n
  cases htext : decimalUnits n with
  | nil => exact absurd htext (decimalUnits_ne_nil n)
  | cons u text =>
      have hne := (decimalUnits_facts (show u ∈ decimalUnits n by
        rw [htext]
        exact List.mem_cons_self)).2
      rw [htext] at hvalue
      simp [decimalNumerals, hne, hvalue]

theorem decimalNumerals_text_neg {n : Int} (h : n < 0) :
    decimalNumerals.text n = unit '-' :: decimalUnits n.natAbs := if_pos h

theorem decimalNumerals_text_nonneg {n : Int} (h : 0 ≤ n) :
    decimalNumerals.text n = decimalUnits n.natAbs := if_neg (not_lt.2 h)

theorem decimalNumerals_lawful : decimalNumerals.Lawful where
  read_text := by
    intro n _
    -- a sign comes first when there is one
    rcases lt_or_ge n 0 with hneg | hnonneg
    · have habs : -((n.natAbs : Nat) : Rat) = n := by
        rw [← Int.cast_natCast, Int.ofNat_natAbs_of_nonpos (le_of_lt hneg)]
        simp
      rw [decimalNumerals_text_neg hneg, decimalNumerals_read_neg, habs]
    · have habs : ((n.natAbs : Nat) : Rat) = n := by
        rw [← Int.cast_natCast, Int.natAbs_of_nonneg hnonneg]
      rw [decimalNumerals_text_nonneg hnonneg, decimalNumerals_read_nonneg, habs]
  text_ne_nil := by
    intro n _
    rcases lt_or_ge n 0 with hneg | hnonneg
    · rw [decimalNumerals_text_neg hneg]
      exact List.cons_ne_nil _ _
    · rw [decimalNumerals_text_nonneg hnonneg]
      exact decimalUnits_ne_nil _
  isNumeralUnit_text := by
    intro n _ u hu
    rcases lt_or_ge n 0 with hneg | hnonneg
    · rw [decimalNumerals_text_neg hneg] at hu
      rcases List.mem_cons.1 hu with rfl | hu
      · decide
      · exact (decimalUnits_facts hu).1
    · rw [decimalNumerals_text_nonneg hnonneg] at hu
      exact (decimalUnits_facts hu).1

/-! ## Libraries -/

/-- The lower-case form of an ASCII letter; other units stay. -/
def lowerUnit (u : UInt16) : UInt16 :=
  if 0x41 ≤ u.toNat ∧ u.toNat ≤ 0x5A then UInt16.ofNat (u.toNat + 0x20) else u

/-- `hexToBytes`. -/
def decodeHex (hex : List UInt16) : Except (EngineError (List UInt16)) (List UInt8) :=
  match hexBytes hex with
  | some bytes => .ok bytes
  | none => .error (.library "hex string expected")

theorem toOption_decodeHex (hex : List UInt16) : (decodeHex hex).toOption = hexBytes hex := by
  rw [decodeHex]
  cases hexBytes hex <;> rfl

/-- The first 32 bytes, with zeros where some are missing. -/
def firstBytes (b : List UInt8) : List UInt8 := (b ++ List.replicate 32 0).take 32

theorem length_firstBytes (b : List UInt8) : (firstBytes b).length = 32 := by
  simp [firstBytes]

/-- The libraries of the engine on bytes. A secret signing key ends in its public key, and a signature
is that key beside the message. -/
def unitPrimitives : Primitives (List UInt8) (List UInt16) where
  lit s := utf16 s.toList
  toLowerCase s := s.map lowerUnit
  textEncode s := utf8 (scalars s)
  textDecode b := utf16 (decodeUtf8 b)
  toBase64 := base64Text
  fromBase64 s := (readBase64 s).getD []
  uint8Array b := b
  length := List.length
  append := List.append
  slice b i j := (b.drop i).take (j - i)
  bytesToHex := hexText
  hexToBytes := decodeHex
  hkdf ikm salt info n := (ikm ++ salt ++ info).take n
  scalarMultBase secretKey := secretKey
  scalarMult secretKey publicKey := .ok (secretKey ++ publicKey)
  secretbox message nonce key := nonce ++ key ++ message
  secretboxOpen box nonce key :=
    .ok (if (nonce ++ key).isPrefixOf box then some (box.drop (nonce ++ key).length) else none)
  signDetached message secretKey := firstBytes (secretKey.drop 32) ++ firstBytes message
  verifyDetached message signature publicKey :=
    if signature.length = 64 then .ok (signature = firstBytes publicKey ++ firstBytes message)
    else .error (.library "bad signature size")

/-- The text in a box: what is needed to close it, with the public key of the secret one. -/
def sealedText (nonce theirPublicKey myPublicKey : List UInt8) : List UInt8 :=
  nonce ++ theirPublicKey ++ myPublicKey

/-- The libraries of the client on bytes. -/
def unitLibrary : ClientLibrary (List UInt8) (List UInt16) where
  sha256 := firstBytes
  trim := Foundation.trim isSpaceUnit
  startsWith s t := t.isPrefixOf s
  indexOf s t := Foundation.indexOf t s
  substring s n := s.drop n
  searchParam := Foundation.searchParam
  replaceAll s x y :=
    match x, y with
    | [x], [y] => s.map fun u => if u = x then y else u
    | _, _ => s
  length := List.length
  append s t := s ++ t
  parseJson := JsonText.parse decimalNumerals
  stringifyJson := JsonText.stringify decimalNumerals
  box message nonce theirPublicKey mySecretKey :=
    if nonce.length = 24 ∧ theirPublicKey.length = 32 ∧ mySecretKey.length = 32 then
      .ok (sealedText nonce theirPublicKey mySecretKey ++ message)
    else .error (.library "bad size")
  bindOther _ := none

/-- They are the runtime's functions, as far as links depend on them. -/
theorem unitRuntime_unit : UnitRuntime decimalNumerals unitPrimitives unitLibrary where
  numerals := decimalNumerals_lawful
  lit _ := rfl
  byteLength _ := rfl
  textEncode _ := rfl
  textDecode _ _ := rfl
  bytesToHex _ := rfl
  hexToBytes := toOption_decodeHex
  toBase64 _ := rfl
  fromBase64 s b hs := by
    show (readBase64 s).getD [] = b
    rw [hs]
    rfl
  trim _ := rfl
  startsWith _ _ := rfl
  indexOf _ _ := rfl
  substring _ _ := rfl
  searchParam _ _ := rfl
  replaceAll _ _ _ := rfl
  length _ := rfl
  append _ _ := rfl
  stringifyJson _ := rfl
  parseJson _ _ hs := hs
  verifyDetached_length m s k hverified := by
    by_contra hlength
    have hrefused : unitPrimitives.verifyDetached m s k = .error (.library "bad signature size") :=
      if_neg hlength
    rw [hrefused] at hverified
    cases hverified
  sha256_length := length_firstBytes

end TorE2EE.Client
