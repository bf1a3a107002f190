import TorE2EE.Crypto.EngineRuns
import TorE2EE.Crypto.SessionSetup

/-!
# The message keys a session can still reach

Every message key of a session comes from one master secret: a number of root key derivations, one
receiving chain, one position in it (`KeyAt`). In the free-term reading the key says which
(`KeyAt.unique`).

`Traced` places a session in its lineage, and `Available` is the set of message keys it can still
reach: the ones it has stored, and the ones of the chains ahead. No step of the engine adds a key
to this set, and the key a session selects leaves it (`Traced.selects`).
-/

set_option autoImplicit false

namespace TorE2EE.Crypto

variable {B S : Type} (P : Primitives B S)

/-- `r` is reached from the master secret of `dhs` by `n` root key derivations. -/
inductive RootAt (dhs : List B) : Nat → B → Prop where
  | master : DhValues P dhs → RootAt dhs 0 (masterSecret P dhs)
  | next {n : Nat} {r : B} (d : B) : RootAt dhs n r → RootAt dhs (n + 1) (kdfRoot P r d).nextRootKey

/-- `c` is the key, at position `i`, of a chain that branches off the `k`-th root key. -/
def ChainAt (dhs : List B) (k i : Nat) (c : B) : Prop :=
  ∃ r d, RootAt P dhs k r ∧ c = chainKeyAt P (kdfRoot P r d).chainKey i

/-- `key` is the message key at position `i` of a chain that branches off the `k`-th root key. -/
def KeyAt (dhs : List B) (k i : Nat) (key : B) : Prop :=
  ∃ c, ChainAt P dhs k i c ∧ key = (kdfChain P c).messageKey

/-- Position `i` of a chain of the `k`-th root key is not passed when position `received` of the
chain of the `top`-th root key is next. -/
def Ahead (top received k i : Nat) : Prop := top < k ∨ k = top ∧ received ≤ i

variable {P} {dhs dhs' : List B}

/-! ## Keys determine their place -/

theorem RootAt.unique (hfree : P.FreeTerms) {n n' : Nat} {r : B} (h : RootAt P dhs n r)
    (h' : RootAt P dhs' n' r) : dhs = dhs' ∧ n = n' := by
  induction h generalizing n' with
  | master hdhs =>
      generalize hr : masterSecret P dhs = r at h'
      cases h' with
      | master hdhs' => exact ⟨hfree.masterSecret_inj hdhs hdhs' hr, rfl⟩
      | next d _ => exact absurd hr (hfree.masterSecret_ne_nextRootKey _ _ _)
  | @next n r d _ ih =>
      generalize hr : (kdfRoot P r d).nextRootKey = r' at h'
      cases h' with
      | master _ => exact absurd hr.symm (hfree.masterSecret_ne_nextRootKey _ _ _)
      | next d' h' =>
          obtain ⟨rfl, -⟩ := hfree.nextRootKey_inj hr
          obtain ⟨hdhs, rfl⟩ := ih h'
          exact ⟨hdhs, rfl⟩

theorem ChainAt.unique (hfree : P.FreeTerms) {k k' i i' : Nat} {c : B} (h : ChainAt P dhs k i c)
    (h' : ChainAt P dhs' k' i' c) : dhs = dhs' ∧ k = k' ∧ i = i' := by
  obtain ⟨r, d, hr, rfl⟩ := h
  obtain ⟨r', d', hr', heq⟩ := h'
  obtain ⟨rfl, -, rfl⟩ := chainKeyAt_kdfRoot_inj hfree heq
  obtain ⟨hdhs, rfl⟩ := hr.unique hfree hr'
  exact ⟨hdhs, rfl, rfl⟩

/-- A message key says from which master secret, root key and position it comes. -/
theorem KeyAt.unique (hfree : P.FreeTerms) {k k' i i' : Nat} {key : B} (h : KeyAt P dhs k i key)
    (h' : KeyAt P dhs' k' i' key) : dhs = dhs' ∧ k = k' ∧ i = i' := by
  obtain ⟨c, hc, rfl⟩ := h
  obtain ⟨c', hc', heq⟩ := h'
  cases hfree.messageKey_inj heq
  exact hc.unique hfree hc'

theorem ChainAt.forward {k i : Nat} {c : B} (h : ChainAt P dhs k i c) (n : Nat) :
    ChainAt P dhs k (i + n) (chainKeyAt P c n) := by
  obtain ⟨r, d, hr, rfl⟩ := h
  exact ⟨r, d, hr, chainKeyAt_add P _ i n⟩

theorem ChainAt.keyAt {k i : Nat} {c : B} (h : ChainAt P dhs k i c) (n : Nat) :
    KeyAt P dhs k (i + n) (messageKeyAt P c n) :=
  ⟨chainKeyAt P c n, h.forward n, rfl⟩

/-! ## Sessions -/

variable (P) in
/-- `s` stems from the master secret of `dhs`: its root key is the `n`-th, its receiving chain
branches off the `top`-th at the receive counter, and its stored keys are of positions already
passed, each stored once. -/
structure Traced (dhs : List B) (top n : Nat) (s : SessionRecord B S) : Prop where
  root : ∃ r, P.hexToBytes s.rootKeyHex = .ok r ∧ RootAt P dhs n r
  top_lt : top < n
  chain : ∀ hex, s.receiveChainKeyHex = some hex →
    ∃ c, hex = P.bytesToHex c ∧ ChainAt P dhs top s.receiveSequenceNumber c
  skipped : ∀ id hex, s.skippedMessageKeys id = some hex →
    ∃ k i key, hex = P.bytesToHex key ∧ KeyAt P dhs k i key ∧
      ¬ Ahead top s.receiveSequenceNumber k i
  distinct : ∀ id id' hex, s.skippedMessageKeys id = some hex →
    s.skippedMessageKeys id' = some hex → id = id'

variable (P) in
/-- The message keys a session can still reach. -/
inductive Available (dhs : List B) (top : Nat) (s : SessionRecord B S) : B → Prop where
  | stored {id : SkippedKeyId S} {key : B} :
      s.skippedMessageKeys id = some (P.bytesToHex key) → Available dhs top s key
  | ahead {k i : Nat} {key : B} :
      KeyAt P dhs k i key → Ahead top s.receiveSequenceNumber k i → Available dhs top s key

variable {top n : Nat} {s s' : SessionRecord B S}

theorem Primitives.Lawful.bytesToHex_inj (hP : P.Lawful) {b b' : B}
    (h : P.bytesToHex b = P.bytesToHex b') : b = b' := by
  have hdecode := congrArg P.hexToBytes h
  rw [hP.hexToBytes_bytesToHex, hP.hexToBytes_bytesToHex] at hdecode
  exact Except.ok.inj hdecode

/-- The keys a session can reach are of its lineage. -/
theorem Traced.keyAt_of_available (h : Traced P dhs top n s) (hP : P.Lawful) {key : B}
    (hkey : Available P dhs top s key) : ∃ k i, KeyAt P dhs k i key := by
  cases hkey with
  | stored hfound =>
      obtain ⟨k, i, key', hhex, hat, -⟩ := h.skipped _ _ hfound
      cases hP.bytesToHex_inj hhex
      exact ⟨k, i, hat⟩
  | ahead hat _ => exact ⟨_, _, hat⟩

/-- A stored key is of a position already passed. -/
theorem Traced.not_ahead_of_stored (h : Traced P dhs top n s) (hP : P.Lawful)
    (hfree : P.FreeTerms) {id : SkippedKeyId S} {key : B} {k i : Nat}
    (hfound : s.skippedMessageKeys id = some (P.bytesToHex key)) (hat : KeyAt P dhs k i key) :
    ¬ Ahead top s.receiveSequenceNumber k i := by
  obtain ⟨k', i', key', hhex, hat', hpassed⟩ := h.skipped _ _ hfound
  cases hP.bytesToHex_inj hhex
  obtain ⟨-, rfl, rfl⟩ := hat.unique hfree hat'
  exact hpassed

/-! ## Fresh sessions -/

theorem rootAt_one (hdhs : DhValues P dhs) (d : B) :
    RootAt P dhs 1 (kdfRoot P (masterSecret P dhs) d).nextRootKey :=
  .next d (.master hdhs)

theorem traced_initiatedSession (hP : P.Lawful) (bundle : PreKeyBundle S) (hdhs : DhValues P dhs)
    (d : B) (ekA : Curve25519KeyPair B S) (createdAt updatedAt : Nat) :
    Traced P dhs 0 1 (initiatedSession P bundle (kdfRoot P (masterSecret P dhs) d) ekA createdAt
      updatedAt) where
  root := ⟨_, hP.hexToBytes_bytesToHex _, rootAt_one hdhs d⟩
  top_lt := Nat.zero_lt_one
  chain _ h := by cases h
  skipped _ _ h := by cases h
  distinct _ _ _ h := by cases h

theorem traced_respondedSession (hP : P.Lawful) (k : S) (m : EncryptedMessage S)
    (hdhs : DhValues P dhs) (d : B) (dhsB : Curve25519KeyPair B S) (createdAt updatedAt : Nat) :
    Traced P dhs 0 1 (respondedSession P k m (kdfRoot P (masterSecret P dhs) d) dhsB createdAt
      updatedAt) where
  root := ⟨_, hP.hexToBytes_bytesToHex _, rootAt_one hdhs d⟩
  top_lt := Nat.zero_lt_one
  chain _ h := by
    cases h
    exact ⟨_, rfl, _, d, .master hdhs, rfl⟩
  skipped _ _ h := by cases h
  distinct _ _ _ h := by cases h

/-! ## Sealing -/

/-- Sealing a message moves the root key on at most, and reaches no other message keys. -/
theorem Traced.sealedOnce (h : Traced P dhs top n s') {chainHex : S}
    (hchain : ensureSendChain P s' = .ok (s, chainHex)) (hP : P.Lawful) (c : B) (now : Nat) :
    ∃ n', Traced P dhs top n' (s.sealedOnce P c now) ∧
      ∀ key, Available P dhs top (s.sealedOnce P c now) key → Available P dhs top s' key := by
  have hkeep {key : B} (hkeys : s.skippedMessageKeys = s'.skippedMessageKeys)
      (hcount : s.receiveSequenceNumber = s'.receiveSequenceNumber)
      (hkey : Available P dhs top (s.sealedOnce P c now) key) : Available P dhs top s' key := by
    cases hkey with
    | stored hfound =>
        apply Available.stored
        rw [← hkeys]
        exact hfound
    | ahead hat hahead =>
        refine .ahead hat ?_
        rw [← hcount]
        exact hahead
  rcases ensureSendChain_cases P hchain with
    ⟨-, rfl⟩ | ⟨remoteHex, rootKey, remoteDh, dhSend, -, -, hroot, -, -, -, rfl⟩
  · exact ⟨n, ⟨h.root, h.top_lt, h.chain, h.skipped, h.distinct⟩, fun key => hkeep rfl rfl⟩
  · obtain ⟨r, hr, hat⟩ := h.root
    rw [hroot] at hr
    cases hr
    exact ⟨n + 1, ⟨⟨_, hP.hexToBytes_bytesToHex _, .next dhSend hat⟩, Nat.lt_succ_of_lt h.top_lt,
      h.chain, h.skipped, h.distinct⟩, fun key => hkeep rfl rfl⟩

/-! ## Moving to a header -/

variable [DecidableEq S]

/-- A key stored after a skip is one of those passed over, or was stored before. -/
theorem stored_passedOver {remote : S} {c : B} {count : Nat} {id : SkippedKeyId S} {hex : S}
    (hfound : (s.passedOver P remote c count).skippedMessageKeys id = some hex) :
    (∃ j < count, id = (remote, ((s.receiveSequenceNumber + j : Nat) : Int)) ∧
        hex = P.bytesToHex (messageKeyAt P c j)) ∨
      s.skippedMessageKeys id = some hex := by
  simp only [SessionRecord.passedOver, passOver] at hfound
  split at hfound
  · next hin =>
      obtain ⟨hid, hlow, hhigh⟩ := hin
      refine Or.inl ⟨(id.2 - s.receiveSequenceNumber).toNat, by omega, ?_,
        (Option.some.inj hfound).symm⟩
      apply Prod.ext hid
      simp only
      omega
  · exact Or.inr hfound

/-- The stored keys after one was used. -/
theorem stored_keyTaken {id id' : SkippedKeyId S} {hex : S}
    (hfound : (s.keyTaken id).skippedMessageKeys id' = some hex) :
    id' ≠ id ∧ s.skippedMessageKeys id' = some hex := by
  by_cases heq : id' = id
  · subst heq
    simp [SessionRecord.keyTaken] at hfound
  · refine ⟨heq, ?_⟩
    rw [← hfound]
    exact (Function.update_of_ne heq _ _).symm

/-- A skip stores keys that were ahead. -/
theorem Traced.skipMessageKeys (h : Traced P dhs top n s) (hP : P.Lawful) (hfree : P.FreeTerms)
    {upTo : Int} (hskip : Crypto.skipMessageKeys P s upTo = .ok s') :
    Traced P dhs top n s' ∧ ∀ key, Available P dhs top s' key → Available P dhs top s key := by
  rcases skipMessageKeys_cases P hskip with
    ⟨-, rfl⟩ | ⟨chainHex, c, remote, hchain, hc, hremote, -, rfl⟩
  · exact ⟨h, fun _ => id⟩
  · obtain ⟨c', hhex, hat⟩ := h.chain chainHex hchain
    rw [hhex, hP.hexToBytes_bytesToHex] at hc
    cases hc
    generalize hcount : (upTo - s.receiveSequenceNumber).toNat = count
    refine
      ⟨{ h with
          chain := ?chain
          skipped := ?skipped
          distinct := ?distinct }, ?_⟩
    case chain =>
      intro hex hhex'
      cases hhex'
      exact ⟨_, rfl, hat.forward count⟩
    case skipped =>
      intro id hex hfound
      rcases stored_passedOver hfound with ⟨j, hj, -, rfl⟩ | hold
      · refine ⟨top, s.receiveSequenceNumber + j, _, rfl, hat.keyAt j, ?_⟩
        simp only [Ahead, SessionRecord.passedOver]
        omega
      · obtain ⟨k, i, key, hkey, hkat, hpassed⟩ := h.skipped id hex hold
        refine ⟨k, i, key, hkey, hkat, ?_⟩
        simp only [Ahead, SessionRecord.passedOver] at hpassed ⊢
        omega
    case distinct =>
      intro id id' hex hfound hfound'
      rcases stored_passedOver hfound with ⟨j, hj, rfl, rfl⟩ | hold
      · rcases stored_passedOver hfound' with ⟨j', hj', rfl, heq⟩ | hold'
        · obtain ⟨-, -, hpos⟩ :=
            (hat.keyAt j).unique hfree (hP.bytesToHex_inj heq ▸ hat.keyAt j')
          rw [hpos]
        · -- a key passed over now was ahead, so it was not stored
          refine absurd ?_ (h.not_ahead_of_stored hP hfree hold' (hat.keyAt j))
          exact Or.inr ⟨rfl, Nat.le_add_right _ _⟩
      · rcases stored_passedOver hfound' with ⟨j', hj', rfl, rfl⟩ | hold'
        · refine absurd ?_ (h.not_ahead_of_stored hP hfree hold (hat.keyAt j'))
          exact Or.inr ⟨rfl, Nat.le_add_right _ _⟩
        · exact h.distinct id id' hex hold hold'
    · intro key hkey
      cases hkey with
      | stored hfound =>
          rcases stored_passedOver hfound with ⟨j, -, -, heq⟩ | hold
          · cases hP.bytesToHex_inj heq
            exact .ahead (hat.keyAt j) (Or.inr ⟨rfl, Nat.le_add_right _ _⟩)
          · exact .stored hold
      | ahead hkat hahead =>
          refine .ahead hkat ?_
          simp only [Ahead, SessionRecord.passedOver] at hahead ⊢
          omega

omit [DecidableEq S] in
/-- A ratchet step moves to a chain that was ahead. -/
theorem Traced.ratcheted (h : Traced P dhs top n s) (hP : P.Lawful) {newRemoteHex : S}
    {secretKey rootKey remoteDh dhReceive dhSend : B}
    (hin : RatchetInputs P s newRemoteHex secretKey rootKey remoteDh dhReceive dhSend)
    (kp : Curve25519KeyPair B S) :
    Traced P dhs n (n + 2) (s.ratcheted P newRemoteHex rootKey dhReceive dhSend kp) ∧
      ∀ key, Available P dhs n (s.ratcheted P newRemoteHex rootKey dhReceive dhSend kp) key →
        Available P dhs top s key := by
  obtain ⟨r, hr, hat⟩ := h.root
  rw [hin.root] at hr
  cases hr
  have htop := h.top_lt
  refine ⟨⟨⟨_, hP.hexToBytes_bytesToHex _, .next dhSend (.next dhReceive hat)⟩, by omega, ?_, ?_,
    h.distinct⟩, ?_⟩
  · intro hex hhex
    cases hhex
    exact ⟨_, rfl, rootKey, dhReceive, hat, rfl⟩
  · intro id hex hfound
    obtain ⟨k, i, key, hkey, hkat, hpassed⟩ := h.skipped id hex hfound
    refine ⟨k, i, key, hkey, hkat, ?_⟩
    simp only [Ahead] at hpassed ⊢
    omega
  · intro key hkey
    cases hkey with
    | stored hfound => exact .stored hfound
    | ahead hkat hahead =>
        refine .ahead hkat ?_
        simp only [Ahead] at hahead ⊢
        omega

/-- Moving to a header reaches no other message keys. -/
theorem Traced.headerMove (h : Traced P dhs top n s) (hP : P.Lawful) (hfree : P.FreeTerms)
    {m : EncryptedMessage S} {secretKey : B} (hmove : HeaderMove P s m secretKey s') :
    ∃ top' n', Traced P dhs top' n' s' ∧
      ∀ key, Available P dhs top' s' key → Available P dhs top s key := by
  cases hmove with
  | stay _ hskip =>
      obtain ⟨htraced, hless⟩ := h.skipMessageKeys hP hfree hskip
      exact ⟨top, n, htraced, hless⟩
  | ratchet _ hskip hin hskip' =>
      obtain ⟨htraced₁, hless₁⟩ := h.skipMessageKeys hP hfree hskip
      obtain ⟨htraced₂, hless₂⟩ := htraced₁.ratcheted hP hin (keyPairOf P secretKey)
      obtain ⟨htraced₃, hless₃⟩ := htraced₂.skipMessageKeys hP hfree hskip'
      exact ⟨n, n + 2, htraced₃, fun key hkey => hless₁ key (hless₂ key (hless₃ key hkey))⟩

/-! ## Using a message key -/

/-- A stored key that is used is deleted. -/
theorem Traced.keyTaken (h : Traced P dhs top n s) (hP : P.Lawful) (hfree : P.FreeTerms)
    {id : SkippedKeyId S} {key : B} (hfound : s.skippedMessageKeys id = some (P.bytesToHex key)) :
    Traced P dhs top n (s.keyTaken id) ∧ ¬ Available P dhs top (s.keyTaken id) key ∧
      ∀ key', Available P dhs top (s.keyTaken id) key' → Available P dhs top s key' := by
  refine ⟨{ h with skipped := ?skipped, distinct := ?distinct }, ?_, ?_⟩
  case skipped =>
    intro id' hex hfound'
    exact h.skipped id' hex (stored_keyTaken hfound').2
  case distinct =>
    intro id₁ id₂ hex h₁ h₂
    exact h.distinct id₁ id₂ hex (stored_keyTaken h₁).2 (stored_keyTaken h₂).2
  · intro hkey
    cases hkey with
    | stored hfound' =>
        obtain ⟨hne, hfound'⟩ := stored_keyTaken hfound'
        exact hne (h.distinct _ _ _ hfound' hfound)
    | ahead hat hahead => exact h.not_ahead_of_stored hP hfree hfound hat hahead
  · intro key' hkey
    cases hkey with
    | stored hfound' => exact .stored (stored_keyTaken hfound').2
    | ahead hat hahead => exact .ahead hat hahead

omit [DecidableEq S] in
/-- The head of the chain that is used is passed. -/
theorem Traced.headTaken (h : Traced P dhs top n s) (hP : P.Lawful) (hfree : P.FreeTerms)
    {chainHex : S} {c : B} (hchain : s.receiveChainKeyHex = some chainHex)
    (hc : P.hexToBytes chainHex = .ok c) (now : Nat) :
    Traced P dhs top n (s.headTaken P c now) ∧
      Available P dhs top s (kdfChain P c).messageKey ∧
      ¬ Available P dhs top (s.headTaken P c now) (kdfChain P c).messageKey ∧
      ∀ key, Available P dhs top (s.headTaken P c now) key → Available P dhs top s key := by
  obtain ⟨c', hhex, hat⟩ := h.chain chainHex hchain
  rw [hhex, hP.hexToBytes_bytesToHex] at hc
  cases hc
  -- the key taken is at the head of the chain, so it is ahead and not stored
  have hhead : KeyAt P dhs top s.receiveSequenceNumber (kdfChain P c).messageKey := hat.keyAt 0
  refine ⟨{ h with chain := ?chain, skipped := ?skipped },
    .ahead hhead (Or.inr ⟨rfl, Nat.le_refl _⟩), ?_, ?_⟩
  case chain =>
    intro hex hhex'
    cases hhex'
    exact ⟨_, rfl, hat.forward 1⟩
  case skipped =>
    intro id hex hfound
    obtain ⟨k, i, key, hkey, hkat, hpassed⟩ := h.skipped id hex hfound
    refine ⟨k, i, key, hkey, hkat, ?_⟩
    simp only [Ahead, SessionRecord.headTaken] at hpassed ⊢
    omega
  · intro hkey
    cases hkey with
    | stored hfound =>
        exact h.not_ahead_of_stored hP hfree hfound hhead (Or.inr ⟨rfl, Nat.le_refl _⟩)
    | ahead hkat hahead =>
        obtain ⟨-, rfl, rfl⟩ := hkat.unique hfree hhead
        simp only [Ahead, SessionRecord.headTaken] at hahead
        omega
  · intro key hkey
    cases hkey with
    | stored hfound => exact .stored hfound
    | ahead hkat hahead =>
        refine .ahead hkat ?_
        simp only [Ahead, SessionRecord.headTaken] at hahead ⊢
        omega

/-- A session selects a key it can reach, and saves a session that can reach the others at most. -/
theorem Traced.selects (h : Traced P dhs top n s) (hP : P.Lawful) (hfree : P.FreeTerms)
    {m : EncryptedMessage S} {secretKey key : B} {saved : Nat → SessionRecord B S}
    (hsel : Selects P s m secretKey key saved) :
    Available P dhs top s key ∧ ∃ top' n', ∀ now, Traced P dhs top' n' (saved now) ∧
      ¬ Available P dhs top' (saved now) key ∧
      ∀ key', Available P dhs top' (saved now) key' → Available P dhs top s key' := by
  cases hsel with
  | skipped hfound hkey =>
      obtain ⟨-, -, b, rfl, -⟩ := h.skipped _ _ hfound
      rw [hP.hexToBytes_bytesToHex] at hkey
      cases hkey
      exact ⟨.stored hfound, top, n, fun _ => h.keyTaken hP hfree hfound⟩
  | head _ hmove hchain hc =>
      obtain ⟨top', n', htraced, hless⟩ := h.headerMove hP hfree hmove
      have htaken := htraced.headTaken hP hfree hchain hc
      refine ⟨hless _ (htaken 0).2.1, top', n', ?_⟩
      intro now
      obtain ⟨htraced', -, hgone, hless'⟩ := htaken now
      exact ⟨htraced', hgone, fun key' hkey => hless key' (hless' key' hkey)⟩

end TorE2EE.Crypto
