import TorE2EE.Crypto.Derivations
import TorE2EE.Crypto.Symbolic

/-!
# An attacker on the network

The symbolic terms an attacker can come to. `Knows` closes what it has seen under every function of
`Primitives`, with secret keys, signing keys and texts of its own.

`Secret` are the terms made with something the attacker lacks, and `Harmless` is a set of terms that
is closed under the attacker's functions (`harmless_of_knows`). No term is both
(`not_secret_of_harmless`), so an attacker that has seen harmless terms only comes to no secret. A
box may be harmless for two reasons: its contents and key are, or it is one of the boxes the devices
sealed. An attacker that has a box under a secret key therefore has a box of the devices. A derived
key is harmless, too, when it has leaked; what is derived from it is then harmless as well.
-/

set_option autoImplicit false

namespace TorE2EE.Crypto

open TorE2EE.Crypto.Sym

/-- What the attacker does not have from the start: the names of secret keys and signing keys, and
texts. -/
structure Hidden where
  keys : Nat → Prop
  signingKeys : Nat → Prop
  texts : String → Prop

/-- What the attacker can come to when it has seen the terms of `seen`. -/
inductive Knows (N : Hidden) (seen : Sym → Prop) : Sym → Prop where
  | seen {t : Sym} : seen t → Knows N seen t
  | ownKey {n : Nat} : ¬ N.keys n → Knows N seen (name n)
  | ownSigningKey {n : Nat} : ¬ N.signingKeys n → Knows N seen (signingSecret n)
  | lit {s : String} : ¬ N.texts s → Knows N seen (text s)
  | randomBytes (n : Nat) : Knows N seen (nonce n)
  | uint8Array (l : List UInt8) : Knows N seen (bytes l)
  | textEncode {t : Sym} : Knows N seen t → Knows N seen (utf8 t)
  | textDecode {t : Sym} : Knows N seen (utf8 t) → Knows N seen t
  | toBase64 {t : Sym} : Knows N seen t → Knows N seen (base64 t)
  | fromBase64 {t : Sym} : Knows N seen (base64 t) → Knows N seen t
  | bytesToHex {t : Sym} : Knows N seen t → Knows N seen (hex t)
  | hexToBytes {t : Sym} : Knows N seen (hex t) → Knows N seen t
  | append {s t : Sym} : Knows N seen s → Knows N seen t → Knows N seen (cons s t)
  | head {h t : Sym} : Knows N seen (cons h t) → Knows N seen h
  | tail {h t : Sym} : Knows N seen (cons h t) → Knows N seen t
  | slice {t : Sym} (lo hi : Nat) : Knows N seen t → Knows N seen (slice t lo hi)
  | hkdf {ikm salt info : Sym} (len : Nat) : Knows N seen ikm → Knows N seen salt →
      Knows N seen info → Knows N seen (hkdf ikm salt info len)
  | scalarMultBase {t : Sym} : Knows N seen t → Knows N seen (pub t)
  | scalarMult {a x d : Sym} : Knows N seen a → Knows N seen x → Sym.scalarMult a x = .ok d →
      Knows N seen d
  | secretbox {m n k : Sym} : Knows N seen m → Knows N seen n → Knows N seen k →
      Knows N seen (box m n k)
  | secretboxOpen {b n k m : Sym} : Knows N seen b → Knows N seen n → Knows N seen k →
      openBox b n k = .ok (some m) → Knows N seen m
  | signDetached {m k : Sym} : Knows N seen m → Knows N seen k → Knows N seen (signature m k)

variable {N : Hidden} {seen : Sym → Prop}

/-- Everything the attacker lacks by `N'` it lacks by `N`. -/
structure Hidden.Within (N' N : Hidden) : Prop where
  keys : ∀ n, N'.keys n → N.keys n
  signingKeys : ∀ n, N'.signingKeys n → N.signingKeys n
  texts : ∀ s, N'.texts s → N.texts s

/-- Who lacks less knows more. -/
theorem Knows.within {N' : Hidden} {t : Sym} (h : Knows N seen t) (hN : N'.Within N) :
    Knows N' seen t := by
  induction h with
  | seen h => exact .seen h
  | ownKey h => exact .ownKey (mt (hN.keys _) h)
  | ownSigningKey h => exact .ownSigningKey (mt (hN.signingKeys _) h)
  | lit h => exact .lit (mt (hN.texts _) h)
  | randomBytes n => exact .randomBytes n
  | uint8Array l => exact .uint8Array l
  | textEncode _ ih => exact .textEncode ih
  | textDecode _ ih => exact .textDecode ih
  | toBase64 _ ih => exact .toBase64 ih
  | fromBase64 _ ih => exact .fromBase64 ih
  | bytesToHex _ ih => exact .bytesToHex ih
  | hexToBytes _ ih => exact .hexToBytes ih
  | append _ _ ih ih' => exact .append ih ih'
  | head _ ih => exact .head ih
  | tail _ ih => exact .tail ih
  | slice lo hi _ ih => exact .slice lo hi ih
  | hkdf len _ _ _ ih ih' ih'' => exact .hkdf len ih ih' ih''
  | scalarMultBase _ ih => exact .scalarMultBase ih
  | scalarMult _ _ hmul ih ih' => exact .scalarMult ih ih' hmul
  | secretbox _ _ _ ih ih' ih'' => exact .secretbox ih ih' ih''
  | secretboxOpen _ _ _ hopen ih ih' ih'' => exact .secretboxOpen ih ih' ih'' hopen
  | signDetached _ _ ih ih' => exact .signDetached ih ih'

/-! ## Secret terms -/

/-- The Diffie-Hellman value of the codes `lo` and `hi` is one of two keys the attacker lacks. -/
def Hidden.Shared (N : Hidden) (lo hi : Nat) : Prop :=
  ∃ a b, lo = 2 * a ∧ hi = 2 * b ∧ N.keys a ∧ N.keys b

/-- A term made with something the attacker lacks, when `leaked` are derived keys it was given. -/
def Secret (N : Hidden) (leaked : Sym → Prop) : Sym → Prop
  | name n => N.keys n
  | signingSecret n => N.signingKeys n
  | text s => N.texts s
  | cons h t => Secret N leaked h ∨ Secret N leaked t
  | .slice t lo hi => ¬ leaked (.slice t lo hi) ∧ Secret N leaked t
  | .hkdf ikm salt _ _ => Secret N leaked ikm ∨ Secret N leaked salt
  | shared lo hi => N.Shared lo hi
  | hex t => Secret N leaked t
  | base64 t => Secret N leaked t
  | utf8 t => Secret N leaked t
  | _ => False

/-- A term the attacker may have, when `isSealed` are the boxes the devices sealed. -/
def Harmless (N : Hidden) (leaked isSealed : Sym → Prop) : Sym → Prop
  | name n => ¬ N.keys n
  | signingSecret n => ¬ N.signingKeys n
  | text s => ¬ N.texts s
  | cons h t => Harmless N leaked isSealed h ∧ Harmless N leaked isSealed t
  | .slice t lo hi => leaked (.slice t lo hi) ∨ Harmless N leaked isSealed t
  | .hkdf ikm salt info _ =>
      Harmless N leaked isSealed ikm ∧ Harmless N leaked isSealed salt ∧
        Harmless N leaked isSealed info
  | shared lo hi => ¬ N.Shared lo hi
  | box m n k =>
      isSealed (box m n k) ∨ Harmless N leaked isSealed m ∧ Harmless N leaked isSealed k
  | hex t => Harmless N leaked isSealed t
  | base64 t => Harmless N leaked isSealed t
  | utf8 t => Harmless N leaked isSealed t
  | _ => True

variable {leaked isSealed : Sym → Prop}

theorem not_secret_of_harmless {t : Sym} (h : Harmless N leaked isSealed t) :
    ¬ Secret N leaked t := by
  induction t with
  | name n => exact h
  | signingSecret n => exact h
  | text s => exact h
  | shared lo hi => exact h
  | hex t ih => exact ih h
  | base64 t ih => exact ih h
  | utf8 t ih => exact ih h
  | cons a b iha ihb =>
      rintro (ha | hb)
      · exact iha h.1 ha
      · exact ihb h.2 hb
  | slice t lo hi ih =>
      rintro ⟨hkept, hsecret⟩
      rcases h with hleaked | ht
      · exact hkept hleaked
      · exact ih ht hsecret
  | hkdf ikm salt info len ihikm ihsalt _ =>
      rintro (hikm | hsalt)
      · exact ihikm h.1 hikm
      · exact ihsalt h.2.1 hsalt
  | _ => exact id

/-! ## What the attacker can come to -/

/-- A Diffie-Hellman value of a key the attacker may have. -/
theorem harmless_scalarMult {a x d : Sym} (ha : Harmless N leaked isSealed a)
    (hmul : Sym.scalarMult a x = .ok d) : Harmless N leaked isSealed d := by
  rcases scalarMult_cases hmul with ⟨b, c, e, rfl, hac, -, rfl⟩ | rfl
  · rintro ⟨n, m, hlo, hhi, hn, hm⟩
    -- one of the two codes is that of the key itself
    have hcode : c = 2 * n ∨ c = 2 * m := by
      rcases Nat.le_total c e with hle | hle
      · rw [Nat.min_eq_left hle] at hlo
        exact Or.inl hlo
      · rw [Nat.max_eq_left hle] at hhi
        exact Or.inr hhi
    have hname {i : Nat} (hi : N.keys i) : c ≠ 2 * i := by
      rintro rfl
      have hai : a = name i := code_inj hac rfl
      subst hai
      exact ha hi
    rcases hcode with h | h
    · exact hname hn h
    · exact hname hm h
  · trivial

/-- An attacker that has seen harmless terms only can come to harmless terms only, when the boxes
the devices sealed are under secret keys or have harmless contents. -/
theorem harmless_of_knows (hseen : ∀ t, seen t → Harmless N leaked isSealed t)
    (hsealed : ∀ m n k, isSealed (box m n k) → Harmless N leaked isSealed m ∨ Secret N leaked k)
    {t : Sym} (h : Knows N seen t) : Harmless N leaked isSealed t := by
  induction h with
  | seen h => exact hseen _ h
  | ownKey h => exact h
  | ownSigningKey h => exact h
  | lit h => exact h
  | randomBytes n => trivial
  | uint8Array l => trivial
  | textEncode _ ih => exact ih
  | textDecode _ ih => exact ih
  | toBase64 _ ih => exact ih
  | fromBase64 _ ih => exact ih
  | bytesToHex _ ih => exact ih
  | hexToBytes _ ih => exact ih
  | append _ _ ih ih' => exact ⟨ih, ih'⟩
  | head _ ih => exact ih.1
  | tail _ ih => exact ih.2
  | slice lo hi _ ih => exact Or.inr ih
  | hkdf len _ _ _ ihikm ihsalt ihinfo => exact ⟨ihikm, ihsalt, ihinfo⟩
  | scalarMultBase _ _ => trivial
  | scalarMult _ _ hmul iha _ => exact harmless_scalarMult iha hmul
  | secretbox _ _ _ ihm _ ihk => exact Or.inr ⟨ihm, ihk⟩
  | @secretboxOpen b n k m _ _ _ hopen ihb _ ihk =>
      obtain ⟨n', k', rfl, rfl⟩ : ∃ n' k', b = box m n' k' ∧ k' = k := by
        cases b with
        | box m' n' k' =>
            simp only [openBox, Except.ok.injEq, Option.ite_none_right_eq_some] at hopen
            obtain ⟨⟨-, hk⟩, hm⟩ := hopen
            cases hm
            exact ⟨n', k', rfl, hk⟩
        | _ => simp [openBox] at hopen
      rcases ihb with hbox | ⟨hm, -⟩
      · -- a box of the devices that opens for the attacker has harmless contents
        rcases hsealed _ _ _ hbox with hm | hsecret
        · exact hm
        · exact absurd hsecret (not_secret_of_harmless ihk)
      · exact hm
  | signDetached _ _ _ _ => trivial

/-- A box the attacker has, under a secret key, is one the devices sealed. -/
theorem sealed_of_harmless {m n k : Sym} (h : Harmless N leaked isSealed (box m n k))
    (hk : Secret N leaked k) : isSealed (box m n k) := by
  rcases h with hbox | ⟨-, hharmless⟩
  · exact hbox
  · exact absurd hk (not_secret_of_harmless hharmless)

/-! ## Secret keys of a session -/

theorem secret_scalarMult {a b : Nat} {d : Sym} (ha : N.keys a) (hb : N.keys b)
    (hmul : Sym.scalarMult (name a) (pub (name b)) = .ok d) : Secret N leaked d := by
  rw [scalarMult_pub (c := 2 * a) (d := 2 * b) rfl rfl] at hmul
  cases hmul
  rcases Nat.le_total a b with hle | hle
  · exact ⟨a, b, Nat.min_eq_left (by omega), Nat.max_eq_right (by omega), ha, hb⟩
  · exact ⟨b, a, Nat.min_eq_right (by omega), Nat.max_eq_left (by omega), hb, ha⟩

/-- What is written into an array stays secret in it. -/
theorem secret_foldl_append {l : List Sym} {s : Sym}
    (h : Secret N leaked s ∨ ∃ t ∈ l, Secret N leaked t) :
    Secret N leaked (l.foldl symbolic.append s) := by
  induction l generalizing s with
  | nil =>
      rcases h with hs | ⟨t, hmem, -⟩
      · exact hs
      · cases hmem
  | cons a l ih =>
      apply ih
      rcases h with hs | ⟨t, hmem, ht⟩
      · exact Or.inl (Or.inl hs)
      · rcases List.mem_cons.1 hmem with rfl | hrest
        · exact Or.inl (Or.inr ht)
        · exact Or.inr ⟨t, hrest, ht⟩

theorem secret_masterSecret {dhs : List Sym} {v : Sym} (hmem : v ∈ dhs) (hv : Secret N leaked v) :
    Secret N leaked (masterSecret symbolic dhs) :=
  Or.inl (secret_foldl_append (Or.inr ⟨v, hmem, hv⟩))

variable {dhs : List Sym} {r c d key : Sym} {k i : Nat}

/-- The root keys of a lineage with a secret Diffie-Hellman value are secret, up to one the attacker
was given. -/
theorem RootAt.secret (h : RootAt symbolic dhs k r) {v : Sym} (hmem : v ∈ dhs)
    (hv : Secret N leaked v) (hkept : ∀ j ≤ k, ∀ b, RootAt symbolic dhs j b → ¬ leaked b) :
    Secret N leaked r := by
  induction h with
  | master _ => exact secret_masterSecret hmem hv
  | @next n r d hr ih =>
      have hprev := ih fun j hj => hkept j (Nat.le_succ_of_le hj)
      exact ⟨hkept (n + 1) (Nat.le_refl _) _ (.next d hr), Or.inr hprev⟩

/-- The chain keys of such a lineage are secret, up to root keys and chain keys the attacker was
given. -/
theorem ChainAt.secret (h : ChainAt symbolic dhs k i c) {v : Sym} (hmem : v ∈ dhs)
    (hv : Secret N leaked v) (hroots : ∀ j ≤ k, ∀ b, RootAt symbolic dhs j b → ¬ leaked b)
    (hchains : ∀ j ≤ i, ∀ b, ChainAt symbolic dhs k j b → ¬ leaked b) : Secret N leaked c := by
  obtain ⟨r, d, hr, rfl⟩ := h
  have hroot := hr.secret hmem hv hroots
  induction i with
  | zero => exact ⟨hchains 0 (Nat.le_refl _) _ ⟨r, d, hr, rfl⟩, Or.inr hroot⟩
  | succ i ih =>
      have hprev := ih fun j hj => hchains j (Nat.le_succ_of_le hj)
      have hkept := hchains (i + 1) (Nat.le_refl _) _ ⟨r, d, hr, rfl⟩
      rw [chainKeyAt_succ] at hkept ⊢
      exact ⟨hkept, Or.inr hprev⟩

theorem KeyAt.secret (h : KeyAt symbolic dhs k i key) {v : Sym} (hmem : v ∈ dhs)
    (hv : Secret N leaked v) (hroots : ∀ j ≤ k, ∀ b, RootAt symbolic dhs j b → ¬ leaked b)
    (hchains : ∀ j ≤ i, ∀ b, ChainAt symbolic dhs k j b → ¬ leaked b)
    (hkey : ¬ leaked key) : Secret N leaked key := by
  obtain ⟨c, hc, rfl⟩ := h
  exact ⟨hkey, Or.inr (hc.secret hmem hv hroots hchains)⟩

end TorE2EE.Crypto
