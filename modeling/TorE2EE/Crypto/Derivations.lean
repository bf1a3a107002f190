import TorE2EE.Crypto.KeyLineage

/-!
# What can be derived from a saved session

`Derives` closes the keys of a session under `kdfChain` and `kdfRoot`, with the session's own
Diffie-Hellman secret and any public key. `Placed` places a session in its lineage, with the two
chains it holds, and `Open` collects the message keys it can still come to: the stored ones, those
ahead in the two chains, and those of every chain that branches off its root key or a later one.

`Placed.open_of_derives`: a message key that can be derived is an open one. The next module shows that
no step of the engine opens a key.
-/

set_option autoImplicit false

namespace TorE2EE.Crypto

variable {B S : Type} (P : Primitives B S)

/-! ## Derivations -/

/-- The secrets a session record contains. -/
inductive SessionRecord.Holds (s : SessionRecord B S) : B → Prop where
  | root {b : B} : P.hexToBytes s.rootKeyHex = .ok b → s.Holds b
  | sending {hex : S} {b : B} : s.sendChainKeyHex = some hex → P.hexToBytes hex = .ok b → s.Holds b
  | receiving {hex : S} {b : B} :
      s.receiveChainKeyHex = some hex → P.hexToBytes hex = .ok b → s.Holds b
  | skipped {id : SkippedKeyId S} {hex : S} {b : B} :
      s.skippedMessageKeys id = some hex → P.hexToBytes hex = .ok b → s.Holds b
  | secret : s.Holds s.localDhKeyPair.secretKey

/-- The keys that follow from a session record by steps of `kdfChain` and `kdfRoot`; for `kdfRoot`
the session's secret key is multiplied with any public key. -/
inductive Derives (s : SessionRecord B S) : B → Prop where
  | held {b : B} : s.Holds P b → Derives s b
  | nextChainKey {c : B} : Derives s c → Derives s (kdfChain P c).nextChainKey
  | messageKey {c : B} : Derives s c → Derives s (kdfChain P c).messageKey
  | nextRootKey {r x d : B} : Derives s r → P.scalarMult s.localDhKeyPair.secretKey x = .ok d →
      Derives s (kdfRoot P r d).nextRootKey
  | chainKey {r x d : B} : Derives s r → P.scalarMult s.localDhKeyPair.secretKey x = .ok d →
      Derives s (kdfRoot P r d).chainKey

/-- The kinds of secrets. -/
inductive KeyKind where
  | master
  | root
  | chain
  | nextChain
  | message
  | secret

/-- Derived keys and drawn secret keys show their kind: no key of one kind is one of another. -/
structure KeyKinds (E : Entropy B) (kind : B → KeyKind) : Prop where
  master : ∀ l, kind (masterSecret P l) = .master
  root : ∀ r d, kind (kdfRoot P r d).nextRootKey = .root
  chain : ∀ r d, kind (kdfRoot P r d).chainKey = .chain
  nextChain : ∀ c, kind (kdfChain P c).nextChainKey = .nextChain
  message : ∀ c, kind (kdfChain P c).messageKey = .message
  secret : ∀ d, kind (E.secretKey d) = .secret

variable {P} {E : Entropy B} {kind : B → KeyKind} {dhs dhs' : List B} {s s' : SessionRecord B S}

theorem kind_of_rootAt (hk : KeyKinds P E kind) {k : Nat} {r : B} (h : RootAt P dhs k r) :
    kind r = .master ∨ kind r = .root := by
  cases h with
  | master => exact Or.inl (hk.master _)
  | next d _ => exact Or.inr (hk.root _ _)

theorem kind_of_chainAt (hk : KeyKinds P E kind) {k i : Nat} {c : B} (h : ChainAt P dhs k i c) :
    kind c = .chain ∨ kind c = .nextChain := by
  obtain ⟨r, d, -, rfl⟩ := h
  cases i with
  | zero => exact Or.inl (hk.chain _ _)
  | succ i =>
      rw [chainKeyAt_succ]
      exact Or.inr (hk.nextChain _)

theorem kind_of_keyAt (hk : KeyKinds P E kind) {k i : Nat} {key : B} (h : KeyAt P dhs k i key) :
    kind key = .message := by
  obtain ⟨c, -, rfl⟩ := h
  exact hk.message c

theorem not_chainAt_of_rootAt (hk : KeyKinds P E kind) {k k' i : Nat} {b : B}
    (h : RootAt P dhs k b) : ¬ ChainAt P dhs' k' i b := by
  intro h'
  have hchain := kind_of_chainAt hk h'
  rcases kind_of_rootAt hk h with hroot | hroot
  · simp [hroot] at hchain
  · simp [hroot] at hchain

theorem not_keyAt_of_rootAt (hk : KeyKinds P E kind) {k k' i : Nat} {b : B}
    (h : RootAt P dhs k b) : ¬ KeyAt P dhs' k' i b := by
  intro h'
  have hroot := kind_of_rootAt hk h
  have hkey := kind_of_keyAt hk h'
  simp_all

theorem not_keyAt_of_chainAt (hk : KeyKinds P E kind) {k k' i i' : Nat} {b : B}
    (h : ChainAt P dhs k i b) : ¬ KeyAt P dhs' k' i' b := by
  intro h'
  have hchain := kind_of_chainAt hk h
  have hkey := kind_of_keyAt hk h'
  simp_all

/-! ## Places that are open -/

/-- Position `i` of a chain of the `k`-th root key is open to a session with the `n`-th root key, a
receiving chain of the `top`-th and a sending chain of the `st`-th. -/
def OpenAt (s : SessionRecord B S) (top st n k i : Nat) : Prop :=
  n ≤ k ∨ (s.receiveChainKeyHex ≠ none ∧ k = top ∧ s.receiveSequenceNumber ≤ i) ∨
    (s.sendChainKeyHex ≠ none ∧ k = st ∧ s.sendSequenceNumber ≤ i)

variable (P E) in
/-- `s` stems from the master secret of `dhs`: its root key is the `n`-th, its chains branch off the
`top`-th and the `st`-th at the counters, and its stored keys are of closed places, each stored
once. -/
structure Placed (dhs : List B) (top st n : Nat) (s : SessionRecord B S) : Prop where
  secret : ∃ d, s.localDhKeyPair = keyPairOf P (E.secretKey d)
  root : ∃ r, P.hexToBytes s.rootKeyHex = .ok r ∧ RootAt P dhs n r
  receiving : ∀ hex, s.receiveChainKeyHex = some hex →
    ∃ c, hex = P.bytesToHex c ∧ ChainAt P dhs top s.receiveSequenceNumber c
  sending : ∀ hex, s.sendChainKeyHex = some hex →
    ∃ c, hex = P.bytesToHex c ∧ ChainAt P dhs st s.sendSequenceNumber c
  top_lt : s.receiveChainKeyHex ≠ none → top < n
  st_lt : s.sendChainKeyHex ≠ none → st < n
  apart : s.receiveChainKeyHex ≠ none → s.sendChainKeyHex ≠ none → top ≠ st
  skipped : ∀ id hex, s.skippedMessageKeys id = some hex →
    ∃ k i key, hex = P.bytesToHex key ∧ KeyAt P dhs k i key ∧ ¬ OpenAt s top st n k i
  distinct : ∀ id id' hex, s.skippedMessageKeys id = some hex →
    s.skippedMessageKeys id' = some hex → id = id'
  unsent : s.sendChainKeyHex = none → s.sendSequenceNumber = 0

variable (P) in
/-- The message keys a session can still come to. -/
inductive Open (dhs : List B) (top st n : Nat) (s : SessionRecord B S) : B → Prop where
  | stored {id : SkippedKeyId S} {key : B} :
      s.skippedMessageKeys id = some (P.bytesToHex key) → Open dhs top st n s key
  | ahead {k i : Nat} {key : B} :
      KeyAt P dhs k i key → OpenAt s top st n k i → Open dhs top st n s key

variable {top st n : Nat} {b : B}

/-- The open keys are of the session's own lineage. -/
theorem Placed.keyAt_of_open (h : Placed P E dhs top st n s) (hP : P.Lawful) {key : B}
    (hkey : Open P dhs top st n s key) : ∃ k i, KeyAt P dhs k i key := by
  cases hkey with
  | stored hfound =>
      obtain ⟨k, i, key', hhex, hat, -⟩ := h.skipped _ _ hfound
      cases hP.bytesToHex_inj hhex
      exact ⟨k, i, hat⟩
  | ahead hat _ => exact ⟨_, _, hat⟩

/-- A stored key is of a closed place. -/
theorem Placed.not_openAt_of_stored (h : Placed P E dhs top st n s) (hP : P.Lawful)
    (hfree : P.FreeTerms) {id : SkippedKeyId S} {key : B} {k i : Nat}
    (hfound : s.skippedMessageKeys id = some (P.bytesToHex key)) (hat : KeyAt P dhs k i key) :
    ¬ OpenAt s top st n k i := by
  obtain ⟨k', i', key', hhex, hat', hclosed⟩ := h.skipped _ _ hfound
  cases hP.bytesToHex_inj hhex
  obtain ⟨-, rfl, rfl⟩ := hat.unique hfree hat'
  exact hclosed

/-! ## Derived keys are open -/

variable (P) in
/-- Wherever in a lineage `b` is found, the session can still come to it. -/
structure Fits (dhs : List B) (top st n : Nat) (s : SessionRecord B S) (b : B) : Prop where
  root : ∀ dhs' k, RootAt P dhs' k b → dhs' = dhs ∧ n ≤ k
  chain : ∀ dhs' k i, ChainAt P dhs' k i b → dhs' = dhs ∧ OpenAt s top st n k i
  message : ∀ dhs' k i, KeyAt P dhs' k i b → Open P dhs top st n s b

theorem RootAt.fits (h : RootAt P dhs n b) (hfree : P.FreeTerms) (hk : KeyKinds P E kind) :
    Fits P dhs top st n s b where
  root _ _ hat := by
    obtain ⟨hdhs, rfl⟩ := hat.unique hfree h
    exact ⟨hdhs, Nat.le_refl _⟩
  chain _ _ _ hat := absurd hat (not_chainAt_of_rootAt hk h)
  message _ _ _ hat := absurd hat (not_keyAt_of_rootAt hk h)

theorem ChainAt.fits {k i : Nat} (h : ChainAt P dhs k i b) (hfree : P.FreeTerms)
    (hk : KeyKinds P E kind) (hopen : OpenAt s top st n k i) : Fits P dhs top st n s b where
  root _ _ hat := absurd h (not_chainAt_of_rootAt hk hat)
  chain _ _ _ hat := by
    obtain ⟨hdhs, rfl, rfl⟩ := hat.unique hfree h
    exact ⟨hdhs, hopen⟩
  message _ _ _ hat := absurd hat (not_keyAt_of_chainAt hk h)

/-- What a session record contains fits. -/
theorem Placed.fits_of_holds (h : Placed P E dhs top st n s) (hP : P.Lawful) (hfree : P.FreeTerms)
    (hk : KeyKinds P E kind) (hb : s.Holds P b) : Fits P dhs top st n s b := by
  -- the kinds of keys are disjoint, so a value can only sit where its kind says
  cases hb with
  | root hroot =>
      obtain ⟨r, hr, hat⟩ := h.root
      cases hr.symm.trans hroot
      exact hat.fits hfree hk
  | sending hchain hdecode =>
      obtain ⟨c, rfl, hat⟩ := h.sending _ hchain
      rw [hP.hexToBytes_bytesToHex] at hdecode
      cases hdecode
      exact hat.fits hfree hk (Or.inr (Or.inr ⟨by simp [hchain], rfl, Nat.le_refl _⟩))
  | receiving hchain hdecode =>
      obtain ⟨c, rfl, hat⟩ := h.receiving _ hchain
      rw [hP.hexToBytes_bytesToHex] at hdecode
      cases hdecode
      exact hat.fits hfree hk (Or.inr (Or.inl ⟨by simp [hchain], rfl, Nat.le_refl _⟩))
  | skipped hfound hdecode =>
      obtain ⟨k, i, key, rfl, hat, -⟩ := h.skipped _ _ hfound
      rw [hP.hexToBytes_bytesToHex] at hdecode
      cases hdecode
      refine ⟨?_, ?_, ?_⟩
      · intro _ _ hat'
        exact absurd hat (not_keyAt_of_rootAt hk hat')
      · intro _ _ _ hat'
        exact absurd hat (not_keyAt_of_chainAt hk hat')
      · intro _ _ _ _
        exact .stored hfound
  | secret =>
      obtain ⟨d, hd⟩ := h.secret
      have hsecret : kind s.localDhKeyPair.secretKey = .secret := by
        rw [hd]
        exact hk.secret d
      refine ⟨?_, ?_, ?_⟩
      · intro _ _ hat
        have hroot := kind_of_rootAt hk hat
        simp_all
      · intro _ _ _ hat
        have hchain := kind_of_chainAt hk hat
        simp_all
      · intro _ _ _ hat
        have hkey := kind_of_keyAt hk hat
        simp_all

theorem OpenAt.succ {k i : Nat} (h : OpenAt s top st n k i) : OpenAt s top st n k (i + 1) := by
  rcases h with hroot | ⟨hsome, rfl, hi⟩ | ⟨hsome, rfl, hi⟩
  · exact Or.inl hroot
  · exact Or.inr (Or.inl ⟨hsome, rfl, Nat.le_succ_of_le hi⟩)
  · exact Or.inr (Or.inr ⟨hsome, rfl, Nat.le_succ_of_le hi⟩)

theorem Fits.nextChainKey (h : Fits P dhs top st n s b) (hfree : P.FreeTerms)
    (hk : KeyKinds P E kind) : Fits P dhs top st n s (kdfChain P b).nextChainKey := by
  have hkind := hk.nextChain b
  refine ⟨?_, ?_, ?_⟩
  · intro _ _ hat
    have hroot := kind_of_rootAt hk hat
    simp_all
  · rintro dhs' k i ⟨r, d, hr, heq⟩
    cases i with
    | zero => exact absurd heq.symm (hfree.chainKey_ne_nextChainKey _ _ _)
    | succ i =>
        -- the key before it is in the same chain
        rw [chainKeyAt_succ] at heq
        obtain ⟨hdhs, hopen⟩ := h.chain dhs' k i ⟨r, d, hr, hfree.nextChainKey_inj heq⟩
        exact ⟨hdhs, hopen.succ⟩
  · intro _ _ _ hat
    have hkey := kind_of_keyAt hk hat
    simp_all

theorem Fits.messageKey (h : Fits P dhs top st n s b) (hfree : P.FreeTerms)
    (hk : KeyKinds P E kind) : Fits P dhs top st n s (kdfChain P b).messageKey := by
  have hkind := hk.message b
  refine ⟨?_, ?_, ?_⟩
  · intro _ _ hat
    have hroot := kind_of_rootAt hk hat
    simp_all
  · intro _ _ _ hat
    have hchain := kind_of_chainAt hk hat
    simp_all
  · rintro dhs' k i ⟨c, hc, heq⟩
    cases hfree.messageKey_inj heq
    obtain ⟨rfl, hopen⟩ := h.chain dhs' k i hc
    exact .ahead ⟨b, hc, rfl⟩ hopen

theorem Fits.nextRootKey (h : Fits P dhs top st n s b) (hfree : P.FreeTerms)
    (hk : KeyKinds P E kind) (d : B) : Fits P dhs top st n s (kdfRoot P b d).nextRootKey := by
  have hkind := hk.root b d
  refine ⟨?_, ?_, ?_⟩
  · intro dhs' k hat
    generalize hr : (kdfRoot P b d).nextRootKey = r at hat
    cases hat with
    | master => exact absurd hr.symm (hfree.masterSecret_ne_nextRootKey _ _ _)
    | next d' hat' =>
        obtain ⟨rfl, -⟩ := hfree.nextRootKey_inj hr
        obtain ⟨hdhs, hn⟩ := h.root dhs' _ hat'
        exact ⟨hdhs, Nat.le_succ_of_le hn⟩
  · intro _ _ _ hat
    have hchain := kind_of_chainAt hk hat
    simp_all
  · intro _ _ _ hat
    have hkey := kind_of_keyAt hk hat
    simp_all

theorem Fits.chainKey (h : Fits P dhs top st n s b) (hfree : P.FreeTerms)
    (hk : KeyKinds P E kind) (d : B) : Fits P dhs top st n s (kdfRoot P b d).chainKey := by
  have hkind := hk.chain b d
  refine ⟨?_, ?_, ?_⟩
  · intro _ _ hat
    have hroot := kind_of_rootAt hk hat
    simp_all
  · rintro dhs' k i ⟨r, d', hr, heq⟩
    cases i with
    | zero =>
        obtain ⟨rfl, -⟩ := hfree.chainKey_inj heq
        obtain ⟨hdhs, hn⟩ := h.root dhs' k hr
        exact ⟨hdhs, Or.inl hn⟩
    | succ i =>
        rw [chainKeyAt_succ] at heq
        exact absurd heq (hfree.chainKey_ne_nextChainKey _ _ _)
  · intro _ _ _ hat
    have hkey := kind_of_keyAt hk hat
    simp_all

/-- Whatever follows from a session record fits. -/
theorem Placed.fits_of_derives (h : Placed P E dhs top st n s) (hP : P.Lawful)
    (hfree : P.FreeTerms) (hk : KeyKinds P E kind) (hb : Derives P s b) :
    Fits P dhs top st n s b := by
  induction hb with
  | held hheld => exact h.fits_of_holds hP hfree hk hheld
  | nextChainKey _ ih => exact ih.nextChainKey hfree hk
  | messageKey _ ih => exact ih.messageKey hfree hk
  | nextRootKey _ _ ih => exact ih.nextRootKey hfree hk _
  | chainKey _ _ ih => exact ih.chainKey hfree hk _

/-- A message key of any session, when it follows from this one, is open in it. -/
theorem Placed.open_of_derives (h : Placed P E dhs top st n s) (hP : P.Lawful)
    (hfree : P.FreeTerms) (hk : KeyKinds P E kind) {k i : Nat} (hb : Derives P s b)
    (hat : KeyAt P dhs' k i b) : Open P dhs top st n s b :=
  (h.fits_of_derives hP hfree hk hb).message dhs' k i hat

end TorE2EE.Crypto
