import TorE2EE.Crypto.Engine
import Mathlib.Logic.Function.Iterate
import Mathlib.Data.Nat.Cast.Basic

/-!
# Symmetric chains

The chain reached from a chain key by `n` steps of `kdfChain` (`chainKeyAt`) and the message key at
a position of it (`messageKeyAt`). `skipLoop_eq` and `skipMessageKeys_of_chain` give the skipping
loop in closed form: the chain moves on by the distance, and every key passed over is stored under
the remote key and its position.
-/

set_option autoImplicit false

namespace TorE2EE.Crypto

variable {B S : Type} (P : Primitives B S)

/-- The chain key after `n` steps. -/
def chainKeyAt (chainKey : B) (n : Nat) : B := (fun c => (kdfChain P c).nextChainKey)^[n] chainKey

/-- The message key at position `n` of a chain. -/
def messageKeyAt (chainKey : B) (n : Nat) : B := (kdfChain P (chainKeyAt P chainKey n)).messageKey

@[simp] theorem chainKeyAt_zero (c : B) : chainKeyAt P c 0 = c := rfl

theorem chainKeyAt_succ (c : B) (n : Nat) :
    chainKeyAt P c (n + 1) = (kdfChain P (chainKeyAt P c n)).nextChainKey :=
  Function.iterate_succ_apply' _ n c

theorem chainKeyAt_add (c : B) (m n : Nat) :
    chainKeyAt P (chainKeyAt P c m) n = chainKeyAt P c (m + n) := by
  rw [Nat.add_comm]
  exact (Function.iterate_add_apply _ n m c).symm

theorem messageKeyAt_chainKeyAt (c : B) (m n : Nat) :
    messageKeyAt P (chainKeyAt P c m) n = messageKeyAt P c (m + n) := by
  rw [messageKeyAt, chainKeyAt_add, messageKeyAt]

/-! ## Free terms -/

variable {P} in
theorem chainKeyAt_inj (hfree : P.FreeTerms) {c c' : B} {i : Nat}
    (h : chainKeyAt P c i = chainKeyAt P c' i) : c = c' := by
  induction i with
  | zero => exact h
  | succ i ih =>
      rw [chainKeyAt_succ, chainKeyAt_succ] at h
      exact ih (hfree.nextChainKey_inj h)

variable {P} in
theorem messageKeyAt_inj (hfree : P.FreeTerms) {c c' : B} {i : Nat}
    (h : messageKeyAt P c i = messageKeyAt P c' i) : c = c' :=
  chainKeyAt_inj hfree (hfree.messageKey_inj h)

variable {P} in
/-- A chain key says from which root key and value its chain was derived, and its position. -/
theorem chainKeyAt_kdfRoot_inj (hfree : P.FreeTerms) {r d r' d' : B} {i i' : Nat}
    (h : chainKeyAt P (kdfRoot P r d).chainKey i = chainKeyAt P (kdfRoot P r' d').chainKey i') :
    r = r' ∧ d = d' ∧ i = i' := by
  induction i generalizing i' with
  | zero =>
      cases i' with
      | zero =>
          obtain ⟨hr, hd⟩ := hfree.chainKey_inj h
          exact ⟨hr, hd, rfl⟩
      | succ i' =>
          rw [chainKeyAt_succ] at h
          exact absurd h (hfree.chainKey_ne_nextChainKey _ _ _)
  | succ i ih =>
      rw [chainKeyAt_succ] at h
      cases i' with
      | zero => exact absurd h.symm (hfree.chainKey_ne_nextChainKey _ _ _)
      | succ i' =>
          rw [chainKeyAt_succ] at h
          obtain ⟨hr, hd, rfl⟩ := ih (hfree.nextChainKey_inj h)
          exact ⟨hr, hd, rfl⟩

/-! ## Skipping -/

variable [DecidableEq S]

/-- The skipped keys after the positions from `received` on, `n` of them, of the chain headed by
`chain` were passed over. -/
def passOver (remoteKeyHex : S) (chain : B) (received n : Nat)
    (skipped : SkippedKeyId S → Option S) : SkippedKeyId S → Option S := fun id =>
  if id.1 = remoteKeyHex ∧ (received : Int) ≤ id.2 ∧ id.2 < received + n then
    some (P.bytesToHex (messageKeyAt P chain (id.2 - received).toNat))
  else skipped id

theorem passOver_zero (r : S) (c : B) (received : Nat) (sk : SkippedKeyId S → Option S) :
    passOver P r c received 0 sk = sk := by
  funext id
  refine if_neg ?_
  rintro ⟨-, h1, h2⟩
  omega

/-- Passing over one position and then `n` more is passing over `n + 1`. -/
theorem passOver_succ (r : S) (c : B) (received n : Nat) (sk : SkippedKeyId S → Option S) :
    passOver P r (kdfChain P c).nextChainKey (received + 1) n
        (Function.update sk (r, (received : Int)) (some (P.bytesToHex (kdfChain P c).messageKey))) =
      passOver P r c received (n + 1) sk := by
  have hshift (j : Nat) : messageKeyAt P (kdfChain P c).nextChainKey j = messageKeyAt P c (1 + j) :=
    messageKeyAt_chainKeyAt P c 1 j
  funext id
  obtain ⟨h, i⟩ := id
  by_cases hr : h = r
  · subst hr
    simp only [passOver, true_and, hshift]
    -- a position before the first, the first itself, or one behind it
    rcases lt_trichotomy i (received : Int) with hi | rfl | hi
    · have hne : ((h, i) : SkippedKeyId S) ≠ (h, (received : Int)) := by
        simp only [ne_eq, Prod.mk.injEq, true_and]
        omega
      rw [if_neg (by omega), if_neg (by omega), Function.update_of_ne hne]
    · rw [if_neg (by omega), if_pos (by omega), Function.update_self]
      simp [messageKeyAt]
    · have hne : ((h, i) : SkippedKeyId S) ≠ (h, (received : Int)) := by
        simp only [ne_eq, Prod.mk.injEq, true_and]
        omega
      by_cases hn : i < received + (n + 1)
      · have hpos : 1 + (i - ((received + 1 : Nat) : Int)).toNat = (i - received).toNat := by omega
        rw [if_pos (by omega), if_pos (by omega), hpos]
      · rw [if_neg (by omega), if_neg (by omega), Function.update_of_ne hne]
  · have hne : ((h, i) : SkippedKeyId S) ≠ (r, (received : Int)) := by simp [hr]
    rw [passOver, if_neg (by simp [hr]), passOver, if_neg (by simp [hr]), Function.update_of_ne hne]

/-- The skipping loop in closed form. -/
theorem skipLoop_eq (r : S) (n : Nat) (c : B) (received : Nat) (sk : SkippedKeyId S → Option S) :
    skipLoop P r n c received sk =
      (chainKeyAt P c n, received + n, passOver P r c received n sk) := by
  induction n generalizing c received sk with
  | zero => simp [skipLoop, passOver_zero]
  | succ n ih =>
      have hchain : chainKeyAt P (kdfChain P c).nextChainKey n = chainKeyAt P c (n + 1) := by
        rw [Nat.add_comm]
        exact chainKeyAt_add P c 1 n
      rw [skipLoop]
      simp only [ih, passOver_succ, hchain, Nat.add_right_comm, Nat.add_assoc]

/-- The session after `n` positions of its receiving chain were passed over. -/
def SessionRecord.passedOver (s : SessionRecord B S) (remoteKeyHex : S) (chain : B) (n : Nat) :
    SessionRecord B S :=
  { s with
    receiveSequenceNumber := s.receiveSequenceNumber + n
    skippedMessageKeys :=
      passOver P remoteKeyHex chain s.receiveSequenceNumber n s.skippedMessageKeys
    receiveChainKeyHex := some (P.bytesToHex (chainKeyAt P chain n)) }

/-- Skipping inside the limit passes over the positions up to the target. -/
theorem skipMessageKeys_of_chain {s : SessionRecord B S} {chainHex remote : S} {c : B} {upTo : Int}
    (hchain : s.receiveChainKeyHex = some chainHex) (hc : P.hexToBytes chainHex = .ok c)
    (hremote : s.remoteDhPublicKeyHex = some remote)
    (hlimit : upTo ≤ s.receiveSequenceNumber + maxSkipMessages) :
    skipMessageKeys P s upTo =
      .ok (s.passedOver P (P.toLowerCase remote) c (upTo - s.receiveSequenceNumber).toNat) := by
  cases s
  simp only at hchain hremote hlimit
  subst hchain hremote
  simp only [skipMessageKeys, hc, skipLoop_eq]
  rw [if_neg (by omega)]
  rfl

/-- Without a receiving chain there is nothing to skip. -/
theorem skipMessageKeys_of_no_chain {s : SessionRecord B S} (h : s.receiveChainKeyHex = none)
    (upTo : Int) : skipMessageKeys P s upTo = .ok s := by
  simp only [skipMessageKeys, h]
  rfl

/-- A skip that returns either did nothing for want of a chain or passed over the positions up to
the target. -/
theorem skipMessageKeys_cases {s s' : SessionRecord B S} {upTo : Int}
    (h : skipMessageKeys P s upTo = .ok s') :
    ((s.receiveChainKeyHex = none ∨ s.remoteDhPublicKeyHex = none) ∧ s' = s) ∨
      ∃ chainHex c remote, s.receiveChainKeyHex = some chainHex ∧
        P.hexToBytes chainHex = .ok c ∧ s.remoteDhPublicKeyHex = some remote ∧
        upTo ≤ s.receiveSequenceNumber + maxSkipMessages ∧
        s' = s.passedOver P (P.toLowerCase remote) c (upTo - s.receiveSequenceNumber).toNat := by
  cases hchain : s.receiveChainKeyHex with
  | none =>
      rw [skipMessageKeys_of_no_chain P hchain] at h
      cases h
      exact Or.inl ⟨Or.inl rfl, rfl⟩
  | some chainHex =>
      cases hremote : s.remoteDhPublicKeyHex with
      | none =>
          simp only [skipMessageKeys, hchain, hremote] at h
          cases h
          exact Or.inl ⟨Or.inr rfl, rfl⟩
      | some remote =>
          by_cases hlimit : upTo ≤ s.receiveSequenceNumber + maxSkipMessages
          · cases hc : P.hexToBytes chainHex with
            | error e =>
                simp only [skipMessageKeys, hchain, hremote, hc] at h
                -- the chain key is decoded after the limit has been checked, and fails the call
                rw [if_neg (by omega)] at h
                cases h
            | ok c =>
                rw [skipMessageKeys_of_chain P hchain hc hremote hlimit] at h
                cases h
                exact Or.inr ⟨chainHex, c, remote, rfl, hc, rfl, hlimit, rfl⟩
          · simp only [skipMessageKeys, hchain, hremote] at h
            rw [if_pos (by omega)] at h
            cases h

end TorE2EE.Crypto
