import TorE2EE.Crypto.Opening

/-!
# A symbolic model of the libraries

Terms over fresh names with one constructor for each library function. Strings and byte arrays are
both terms; encoding is a constructor and decoding removes it. Diffie-Hellman values of key pairs
are the unordered pair of the two secret keys, so they commute and agree in no other case.

`symbolic_lawful` and `symbolic_freeTerms` show that the assumptions of `Primitives` are satisfied
together, and the model is computable, so an engine call can be evaluated on it.
-/

set_option autoImplicit false

namespace TorE2EE.Crypto

/-- Symbolic byte arrays and strings. -/
inductive Sym where
  | name (n : Nat)
  | nonce (n : Nat)
  | signingSecret (n : Nat)
  | text (s : String)
  | bytes (l : List UInt8)
  | nil
  | cons (head tail : Sym)
  | slice (t : Sym) (lo hi : Nat)
  | hkdf (ikm salt info : Sym) (len : Nat)
  | pub (secret : Sym)
  /-- The Diffie-Hellman value of two key pairs, the smaller code first. -/
  | shared (lo hi : Nat)
  | mul (secret point : Sym)
  | box (message nonce key : Sym)
  | signature (message secret : Sym)
  | hex (t : Sym)
  | base64 (t : Sym)
  | utf8 (t : Sym)
  deriving DecidableEq

namespace Sym

/-- The code of a 32-byte key: a name, or the public key of a 32-byte key. -/
def code : Sym → Option Nat
  | name n => some (2 * n)
  | pub t => (code t).map fun c => 2 * c + 1
  | _ => none

theorem code_inj : ∀ {s t : Sym} {c : Nat}, s.code = some c → t.code = some c → s = t := by
  intro s
  -- Names have even codes and public keys odd ones, one more than twice that of their secret.
  induction s with
  | name n =>
      intro t c hs ht
      cases t with
      | name m =>
          simp only [code, Option.some.injEq] at hs ht
          have hnm : n = m := by omega
          rw [hnm]
      | pub u =>
          simp only [code, Option.some.injEq, Option.map_eq_some_iff] at hs ht
          obtain ⟨d, -, hd⟩ := ht
          omega
      | _ => simp [code] at ht
  | pub s ih =>
      intro t c hs ht
      cases t with
      | name m =>
          simp only [code, Option.some.injEq, Option.map_eq_some_iff] at hs ht
          obtain ⟨d, -, hd⟩ := hs
          omega
      | pub u =>
          simp only [code, Option.map_eq_some_iff] at hs ht
          obtain ⟨d, hsd, hd⟩ := hs
          obtain ⟨e, hte, he⟩ := ht
          have hde : d = e := by omega
          subst hde
          rw [ih hsd hte]
      | _ => simp [code] at ht
  | _ => simp [code]

/-- The length of a symbolic byte array. Only those of keys and nonces matter to the engine. -/
def length : Sym → Nat
  | signingSecret _ => 64
  | nonce _ => 24
  | t => if t.code.isSome then 32 else 0

theorem length_eq_32_iff (t : Sym) : t.length = 32 ↔ ∃ c, t.code = some c := by
  rw [← Option.isSome_iff_exists]
  cases t with
  | signingSecret n => simp [length, code]
  | nonce n => simp [length, code]
  | pub s => cases hs : (pub s).code <;> simp [length, hs]
  | _ => simp [length, code]

/-- `hexToBytes`. -/
def unhex : Sym → Except (EngineError Sym) Sym
  | hex t => .ok t
  | _ => .error (.library "hex string expected")

/-- Base64 decoding, which never fails. -/
def unbase64 : Sym → Sym
  | base64 t => t
  | _ => nil

/-- UTF-8 decoding, which never fails. -/
def unutf8 : Sym → Sym
  | utf8 t => t
  | _ => text ""

/-- The Diffie-Hellman value of two codes. -/
def sharedOf (c d : Nat) : Sym := shared (min c d) (max c d)

/-- `nacl.scalarMult`. -/
def scalarMult (a x : Sym) : Except (EngineError Sym) Sym :=
  match a.code, x with
  | some c, pub b =>
      match b.code with
      | some d => .ok (sharedOf c d)
      | none => .error (.library "bad p size")
  | some _, x => if x.code.isSome then .ok (mul a x) else .error (.library "bad p size")
  | none, _ => .error (.library "bad n size")

/-- `nacl.secretbox.open`. -/
def openBox (b nonce key : Sym) : Except (EngineError Sym) (Option Sym) :=
  match b with
  | box m n k => .ok (if n = nonce ∧ k = key then some m else none)
  | _ => .ok none

/-- `nacl.sign.detached.verify`. -/
def verify (m s pk : Sym) : Except (EngineError Sym) Bool :=
  match s with
  | signature m' k => .ok (m' = m ∧ pk = pub k)
  | _ => .ok false

end Sym

open TorE2EE.Crypto.Sym

/-- The libraries over symbolic terms. -/
def symbolic : Primitives Sym Sym where
  lit := text
  toLowerCase := id
  textEncode := utf8
  textDecode := unutf8
  toBase64 := base64
  fromBase64 := unbase64
  uint8Array := bytes
  length := Sym.length
  append := cons
  slice := slice
  bytesToHex := hex
  hexToBytes := unhex
  hkdf := hkdf
  scalarMultBase := pub
  scalarMult := Sym.scalarMult
  secretbox := box
  secretboxOpen := openBox
  signDetached := signature
  verifyDetached := verify

/-- Entropy over symbolic terms: draw `n` is the name `n + 2`, and the clock and the ids count
draws. The names `0` and `1` are left to two identities. -/
def symbolicEntropy : Entropy Sym where
  secretKey n := name (n + 2)
  randomBytes n _ := nonce n
  randomId n := n
  now n := n

/-- The identity with encryption key `name n`. -/
def symbolicIdentity (n : Nat) : UserIdentity Sym Sym where
  mnemonic := text "mnemonic"
  signingKey :=
    { publicKey := pub (signingSecret n)
      secretKey := signingSecret n
      publicKeyHex := hex (pub (signingSecret n)) }
  encryptionKey := keyPairOf symbolic (name n)
  recipientPubkeyHash := text "mailbox"

theorem scalarMult_pub {a b : Sym} {c d : Nat} (ha : a.code = some c) (hb : b.code = some d) :
    Sym.scalarMult a (pub b) = .ok (sharedOf c d) := by
  simp [Sym.scalarMult, ha, hb]

theorem symbolic_lawful : symbolic.Lawful where
  hexToBytes_bytesToHex _ := rfl
  toLowerCase_bytesToHex _ := rfl
  toLowerCase_toLowerCase _ := rfl
  hexToBytes_toLowerCase _ _ := Iff.rfl
  fromBase64_toBase64 _ := rfl
  scalarMult_comm := by
    intro a b ha hb
    obtain ⟨c, hc⟩ := (length_eq_32_iff a).1 ha
    obtain ⟨d, hd⟩ := (length_eq_32_iff b).1 hb
    show Sym.scalarMult a (pub b) = Sym.scalarMult b (pub a)
    rw [scalarMult_pub hc hd, scalarMult_pub hd hc, sharedOf, sharedOf, min_comm, max_comm]
  scalarMult_ok_iff := by
    intro a x
    show (∃ d, Sym.scalarMult a x = .ok d) ↔ a.length = 32 ∧ x.length = 32
    rw [length_eq_32_iff, length_eq_32_iff]
    cases ha : a.code with
    | none => simp [Sym.scalarMult, ha]
    | some c =>
        cases x with
        | pub b => cases hb : b.code <;> simp [Sym.scalarMult, ha, hb, code]
        | _ => simp [Sym.scalarMult, ha, code]
  length_scalarMultBase := by
    intro a ha
    obtain ⟨c, hc⟩ := (length_eq_32_iff a).1 ha
    exact (length_eq_32_iff (pub a)).2 ⟨2 * c + 1, by simp [code, hc]⟩
  secretboxOpen_secretbox m n c _ := by simp [symbolic, openBox]

/-- A Diffie-Hellman value says which two keys it belongs to. -/
theorem scalarMult_cases {a x d : Sym} (h : Sym.scalarMult a x = .ok d) :
    (∃ b c e, x = pub b ∧ a.code = some c ∧ b.code = some e ∧ d = sharedOf c e) ∨
      d = mul a x := by
  cases ha : a.code with
  | none => simp [Sym.scalarMult, ha] at h
  | some c =>
      cases x with
      | pub b =>
          cases hb : b.code with
          | none => simp [Sym.scalarMult, ha, hb] at h
          | some e =>
              rw [scalarMult_pub ha hb] at h
              cases h
              exact Or.inl ⟨b, c, e, rfl, rfl, hb, rfl⟩
      | name n =>
          simp [Sym.scalarMult, ha, code] at h
          exact Or.inr h.symm
      | _ => simp [Sym.scalarMult, ha, code] at h

theorem sharedOf_inj {c d c' d' : Nat} (h : sharedOf c d = sharedOf c' d') :
    (c = c' ∧ d = d') ∨ (c = d' ∧ d = c') := by
  simp only [sharedOf, shared.injEq] at h
  omega

/-- The values of one exchange can be read off their concatenation. -/
theorem concatUint8Arrays_inj {l l' : List Sym} (hl : DhValues symbolic l)
    (hl' : DhValues symbolic l')
    (h : concatUint8Arrays symbolic l = concatUint8Arrays symbolic l') : l = l' := by
  rcases hl.1 with hlen | hlen
  · obtain ⟨a, b, c, rfl⟩ := List.length_eq_three.1 hlen
    rcases hl'.1 with hlen' | hlen'
    · obtain ⟨a', b', c', rfl⟩ := List.length_eq_three.1 hlen'
      simpa [concatUint8Arrays, symbolic, and_assoc] using h
    · obtain ⟨a', b', c', d', rfl⟩ := List.length_eq_four.1 hlen'
      simp [concatUint8Arrays, symbolic] at h
  · obtain ⟨a, b, c, d, rfl⟩ := List.length_eq_four.1 hlen
    rcases hl'.1 with hlen' | hlen'
    · obtain ⟨a', b', c', rfl⟩ := List.length_eq_three.1 hlen'
      simp [concatUint8Arrays, symbolic] at h
    · obtain ⟨a', b', c', d', rfl⟩ := List.length_eq_four.1 hlen'
      simpa [concatUint8Arrays, symbolic, and_assoc] using h

theorem symbolic_freeTerms : symbolic.FreeTerms where
  nextRootKey_inj := by
    intro r d r' d' h
    simp [kdfRoot, symbolic] at h
    exact ⟨h.2, h.1⟩
  chainKey_inj := by
    intro r d r' d' h
    simp [kdfRoot, symbolic] at h
    exact ⟨h.2, h.1⟩
  nextChainKey_inj := by
    intro c c' h
    simpa [kdfChain, symbolic] using h
  messageKey_inj := by
    intro c c' h
    simpa [kdfChain, symbolic] using h
  masterSecret_inj := by
    intro l l' hl hl' h
    simp only [masterSecret, symbolic, hkdf.injEq] at h
    exact concatUint8Arrays_inj hl hl' h.1
  masterSecret_ne_nextRootKey := by
    intro l r d h
    simp [masterSecret, kdfRoot, symbolic] at h
  chainKey_ne_nextChainKey := by
    intro r d c h
    simp [kdfRoot, kdfChain, symbolic] at h
  scalarMult_inj := by
    intro a b x y d ha hb
    show (pub a = pub b ∧ x = y) ∨ (x = pub b ∧ y = pub a)
    -- either both products are of drawn keys, or both are terms of their own
    rcases scalarMult_cases ha with ⟨x', c, e, rfl, hac, hxe, rfl⟩ | rfl
    · rcases scalarMult_cases hb with ⟨y', c', e', rfl, hbc, hye, heq⟩ | heq
      · rcases sharedOf_inj heq with ⟨rfl, rfl⟩ | ⟨rfl, rfl⟩
        · rw [code_inj hac hbc, code_inj hxe hye]
          exact Or.inl ⟨rfl, rfl⟩
        · rw [code_inj hac hye, code_inj hxe hbc]
          exact Or.inr ⟨rfl, rfl⟩
      · simp [sharedOf] at heq
    · rcases scalarMult_cases hb with ⟨y', c', e', rfl, hbc, hye, heq⟩ | heq
      · simp [sharedOf] at heq
      · simp only [mul.injEq] at heq
        obtain ⟨rfl, rfl⟩ := heq
        exact Or.inl ⟨rfl, rfl⟩
  secretboxOpen_key := by
    intro m n k n' k' m' h
    simp only [symbolic, openBox, Except.ok.injEq, Option.ite_none_right_eq_some] at h
    exact h.1.2.symm

/-- Entropy whose secret keys and nonces are those of `symbolicEntropy` is fresh. -/
theorem fresh_of_secretKey {E : Entropy Sym} (h : E.secretKey = symbolicEntropy.secretKey)
    (hnonce : E.randomBytes = symbolicEntropy.randomBytes) : E.Fresh symbolic where
  length d := by
    rw [h]
    rfl
  nonce d := by
    rw [hnonce]
    rfl
  distinct {d d'} heq := by
    rw [h] at heq
    simpa [keyPairOf, symbolic, symbolicEntropy] using heq

theorem symbolicIdentity_wellFormed (n : Nat) :
    (symbolicIdentity n).encryptionKey.WellFormed symbolic :=
  keyPairOf_wellFormed symbolic rfl

theorem symbolicStore_wellFormed (n : Nat) :
    (SignalStore.empty (symbolicIdentity n)).WellFormed symbolic :=
  ⟨symbolicIdentity_wellFormed n, by simp [SignalStore.empty], by simp [SignalStore.empty]⟩

/-- Two parties with empty stores. -/
def symbolicWorld : World Sym Sym where
  store
    | .alice => SignalStore.empty (symbolicIdentity 0)
    | .bob => SignalStore.empty (symbolicIdentity 1)
  draws := 0
  flights := []

theorem strangers_symbolicWorld : Strangers symbolic symbolicWorld where
  alice := symbolicIdentity_wellFormed 0
  bob := symbolicStore_wellFormed 1
  noSession := rfl
  noFlights := rfl

/-- The bundle `bob` generates first. -/
def symbolicBundle (E : Entropy Sym) (count : Nat) : PreKeyBundle Sym :=
  exportedBundle symbolic E (symbolicIdentity 1)
    (hex (signature (pub (E.secretKey 0)) (signingSecret 1))) 0 count

/-- `bob` has generated his first bundle. -/
def symbolicGenerated (E : Entropy Sym) (count : Nat) : World Sym Sym :=
  (symbolicWorld.generate .bob symbolic E count).2

/-- `alice` has then initiated a session on it. -/
def symbolicInitiated (E : Entropy Sym) (count : Nat) : World Sym Sym :=
  ((symbolicGenerated E count).initiate .alice symbolic E (symbolicBundle E count)).2

/-- The value of an outcome that is one. -/
def okValue {ε α : Type} (r : Except ε α) (h : r.isOk = true) : α :=
  match r, h with
  | .ok a, _ => a

theorem okValue_spec {ε α : Type} (r : Except ε α) (h : r.isOk = true) : r = .ok (okValue r h) := by
  cases r with
  | ok a => rfl
  | error e => cases h

theorem exists_ok_of_isOk {ε α : Type} {r : Except ε α} (h : r.isOk = true) : ∃ a, r = .ok a := by
  cases r with
  | ok a => exact ⟨a, rfl⟩
  | error e => cases h

/-- The first message `alice` seals on `bob`'s bundle. -/
def symbolicHello : EncryptedMessage Sym :=
  okValue ((symbolicInitiated symbolicEntropy 1).encryptTo .alice symbolic symbolicEntropy
    (text "hello") none).1 (by decide)

end TorE2EE.Crypto
