import TorE2EE.Crypto.Derivations

/-!
# No step of the engine opens a message key

The operations on sessions, one lemma each. An operation places the new session in the same lineage
and opens no message key. Sealing closes the key it seals with (`Placed.sealedOnce`), and opening a
message closes the key it was opened with (`Placed.selects`).
-/

set_option autoImplicit false

namespace TorE2EE.Crypto

variable {B S : Type} {P : Primitives B S} {E : Entropy B} {dhs : List B} {top st n : Nat}
  {s s' : SessionRecord B S}

/-! ## Fresh sessions -/

theorem placed_initiatedSession (hP : P.Lawful) (bundle : PreKeyBundle S) (hdhs : DhValues P dhs)
    (d : B) (draw createdAt updatedAt : Nat) :
    Placed P E dhs 0 0 1 (initiatedSession P bundle (kdfRoot P (masterSecret P dhs) d)
      (keyPairOf P (E.secretKey draw)) createdAt updatedAt) where
  secret := ⟨draw, rfl⟩
  root := ⟨_, hP.hexToBytes_bytesToHex _, rootAt_one hdhs d⟩
  receiving _ h := by cases h
  sending _ h := by
    cases h
    exact ⟨_, rfl, _, d, .master hdhs, rfl⟩
  top_lt h := absurd rfl h
  st_lt _ := Nat.zero_lt_one
  apart h := absurd rfl h
  skipped _ _ h := by cases h
  distinct _ _ _ h := by cases h
  unsent h := by cases h

theorem placed_respondedSession (hP : P.Lawful) (k : S) (m : EncryptedMessage S)
    (hdhs : DhValues P dhs) (d : B) (draw createdAt updatedAt : Nat) :
    Placed P E dhs 0 0 1 (respondedSession P k m (kdfRoot P (masterSecret P dhs) d)
      (keyPairOf P (E.secretKey draw)) createdAt updatedAt) where
  secret := ⟨draw, rfl⟩
  root := ⟨_, hP.hexToBytes_bytesToHex _, rootAt_one hdhs d⟩
  receiving _ h := by
    cases h
    exact ⟨_, rfl, _, d, .master hdhs, rfl⟩
  sending _ h := by cases h
  top_lt _ := Nat.zero_lt_one
  st_lt h := absurd rfl h
  apart _ h := absurd rfl h
  skipped _ _ h := by cases h
  distinct _ _ _ h := by cases h
  unsent _ := rfl

/-! ## Sealing -/

/-- The chain `encrypt` derives first, for want of one, branches off the present root key. -/
theorem Placed.ensureSendChain (h : Placed P E dhs top st n s') (hP : P.Lawful) {chainHex : S}
    (hchain : Crypto.ensureSendChain P s' = .ok (s, chainHex)) :
    s.sendChainKeyHex = some chainHex ∧ ∃ st' n', Placed P E dhs top st' n' s ∧
      ∀ key, Open P dhs top st' n' s key → Open P dhs top st n s' key := by
  rcases ensureSendChain_cases P hchain with
    ⟨hstored, rfl⟩ | ⟨remoteHex, rootKey, remoteDh, dhSend, hnone, -, hroot, -, -, rfl, rfl⟩
  · exact ⟨hstored, st, n, h, fun _ => id⟩
  · obtain ⟨r, hr, hat⟩ := h.root
    cases hr.symm.trans hroot
    refine ⟨rfl, n, n + 1, ?_⟩
    generalize hs : { s' with
      rootKeyHex := P.bytesToHex (kdfRoot P rootKey dhSend).nextRootKey
      sendChainKeyHex := some (P.bytesToHex (kdfRoot P rootKey dhSend).chainKey) } = s
    have hclosed {k i : Nat} (hopen : OpenAt s top n (n + 1) k i) : OpenAt s' top st n k i := by
      subst hs
      rcases hopen with hk | ⟨hsome, rfl, hi⟩ | ⟨-, rfl, -⟩
      · exact Or.inl (Nat.le_of_succ_le hk)
      · exact Or.inr (Or.inl ⟨hsome, rfl, hi⟩)
      · exact Or.inl (Nat.le_refl _)
    refine ⟨?_, ?_⟩
    · subst hs
      refine
        { h with
          root := ⟨_, hP.hexToBytes_bytesToHex _, .next dhSend hat⟩
          sending := ?sending
          top_lt := ?top_lt
          st_lt := ?st_lt
          apart := ?apart
          skipped := ?skipped
          unsent := ?unsent }
      case sending =>
        intro hex hhex
        cases hhex
        refine ⟨_, rfl, rootKey, dhSend, hat, ?_⟩
        -- nothing was sealed before
        show _ = chainKeyAt P _ s'.sendSequenceNumber
        rw [h.unsent hnone]
        rfl
      case top_lt =>
        intro hsome
        exact Nat.lt_succ_of_lt (h.top_lt hsome)
      case st_lt =>
        intro _
        exact Nat.lt_succ_self n
      case apart =>
        intro hsome _
        exact Nat.ne_of_lt (h.top_lt hsome)
      case skipped =>
        intro id hex hfound
        obtain ⟨k, i, key, hhex, hkey, hold⟩ := h.skipped id hex hfound
        exact ⟨k, i, key, hhex, hkey, fun hopen => hold (hclosed hopen)⟩
      case unsent =>
        intro hsome
        cases hsome
    · intro key hkey
      cases hkey with
      | stored hfound =>
          subst hs
          exact .stored hfound
      | ahead hat' hopen => exact .ahead hat' (hclosed hopen)

/-- A message key a session seals with is closed by it. -/
theorem Placed.sealedWith (h : Placed P E dhs top st n s) (hP : P.Lawful) (hfree : P.FreeTerms)
    {chainHex : S} (hchain : s.sendChainKeyHex = some chainHex) {c : B}
    (hc : P.hexToBytes chainHex = .ok c) (now : Nat) :
    Placed P E dhs top st n (s.sealedOnce P c now) ∧
      KeyAt P dhs st s.sendSequenceNumber (kdfChain P c).messageKey ∧
      ¬ Open P dhs top st n (s.sealedOnce P c now) (kdfChain P c).messageKey ∧
      ∀ key, Open P dhs top st n (s.sealedOnce P c now) key → Open P dhs top st n s key := by
  -- The chain the session stores is the one of its place, at the position to be sealed.
  obtain ⟨c', hhex, hat⟩ := h.sending chainHex hchain
  rw [hhex, hP.hexToBytes_bytesToHex] at hc
  cases hc
  have hsend : s.sendChainKeyHex ≠ none := by simp [hchain]
  have hkey : KeyAt P dhs st s.sendSequenceNumber (kdfChain P c).messageKey := hat.keyAt 0
  have hopen : OpenAt s top st n st s.sendSequenceNumber :=
    Or.inr (Or.inr ⟨hsend, rfl, Nat.le_refl _⟩)
  have hclosed {k i : Nat} (h' : OpenAt (s.sealedOnce P c now) top st n k i) :
      OpenAt s top st n k i := by
    rcases h' with hk | ⟨hsome, rfl, hi⟩ | ⟨-, rfl, hi⟩
    · exact Or.inl hk
    · exact Or.inr (Or.inl ⟨hsome, rfl, hi⟩)
    · exact Or.inr (Or.inr ⟨hsend, rfl, Nat.le_of_succ_le hi⟩)
  refine
    ⟨{ h with
        sending := ?sending
        st_lt := fun _ => h.st_lt hsend
        apart := fun hrecv _ => h.apart hrecv hsend
        skipped := ?skipped
        unsent := ?unsent }, hkey, ?_, ?_⟩
  case sending =>
    intro hex hhex'
    cases hhex'
    exact ⟨_, rfl, hat.forward 1⟩
  case skipped =>
    intro id hex hfound
    obtain ⟨k, i, key, hhex', hkey', hold⟩ := h.skipped id hex hfound
    exact ⟨k, i, key, hhex', hkey', fun hnow => hold (hclosed hnow)⟩
  case unsent =>
    intro hnone
    cases hnone
  -- The key is neither stored nor ahead: its position is passed, and no other has the same key.
  · intro hgone
    cases hgone with
    | stored hfound => exact h.not_openAt_of_stored hP hfree hfound hkey hopen
    | ahead hat' hopen' =>
        obtain ⟨-, rfl, rfl⟩ := hat'.unique hfree hkey
        rcases hopen' with hk | ⟨hrecv, hk, -⟩ | ⟨-, -, hi⟩
        · exact absurd (h.st_lt hsend) (Nat.not_lt.2 hk)
        · exact h.apart hrecv hsend hk.symm
        · exact Nat.not_succ_le_self _ hi
  · intro key hkey'
    cases hkey' with
    | stored hfound => exact .stored hfound
    | ahead hat' hopen' => exact .ahead hat' (hclosed hopen')

/-- Sealing a message opens no key and closes the one it was sealed with. -/
theorem Placed.sealedOnce (h : Placed P E dhs top st n s') (hP : P.Lawful) (hfree : P.FreeTerms)
    {chainHex : S} (hchain : Crypto.ensureSendChain P s' = .ok (s, chainHex)) {c : B}
    (hc : P.hexToBytes chainHex = .ok c) (now : Nat) :
    ∃ st' n', Placed P E dhs top st' n' (s.sealedOnce P c now) ∧
      (∃ k i, KeyAt P dhs k i (kdfChain P c).messageKey) ∧
      ¬ Open P dhs top st' n' (s.sealedOnce P c now) (kdfChain P c).messageKey ∧
      ∀ key, Open P dhs top st' n' (s.sealedOnce P c now) key → Open P dhs top st n s' key := by
  obtain ⟨hsend, st', n', hplaced, hless⟩ := h.ensureSendChain hP hchain
  obtain ⟨hplaced', hkey, hgone, hless'⟩ := hplaced.sealedWith hP hfree hsend hc now
  exact ⟨st', n', hplaced', ⟨_, _, hkey⟩, hgone, fun key hopen => hless key (hless' key hopen)⟩

/-! ## Moving to a header -/

variable [DecidableEq S]

/-- A skip stores keys that were open. -/
theorem Placed.skipMessageKeys (h : Placed P E dhs top st n s) (hP : P.Lawful)
    (hfree : P.FreeTerms) {upTo : Int} (hskip : Crypto.skipMessageKeys P s upTo = .ok s') :
    Placed P E dhs top st n s' ∧
      ∀ key, Open P dhs top st n s' key → Open P dhs top st n s key := by
  rcases skipMessageKeys_cases P hskip with
    ⟨-, rfl⟩ | ⟨chainHex, c, remote, hchain, hc, -, -, rfl⟩
  · exact ⟨h, fun _ => id⟩
  · obtain ⟨c', hhex, hat⟩ := h.receiving chainHex hchain
    rw [hhex, hP.hexToBytes_bytesToHex] at hc
    cases hc
    have hrecv : s.receiveChainKeyHex ≠ none := by simp [hchain]
    generalize hcount : (upTo - s.receiveSequenceNumber).toNat = count
    have hopen (j : Nat) : OpenAt s top st n top (s.receiveSequenceNumber + j) :=
      Or.inr (Or.inl ⟨hrecv, rfl, Nat.le_add_right _ _⟩)
    have hclosed {k i : Nat}
        (h' : OpenAt (s.passedOver P (P.toLowerCase remote) c count) top st n k i) :
        OpenAt s top st n k i := by
      rcases h' with hk | ⟨-, rfl, hi⟩ | ⟨hsome, rfl, hi⟩
      · exact Or.inl hk
      · exact Or.inr (Or.inl ⟨hrecv, rfl, (Nat.le_add_right _ _).trans hi⟩)
      · exact Or.inr (Or.inr ⟨hsome, rfl, hi⟩)
    refine
      ⟨{ h with
          receiving := ?receiving
          top_lt := fun _ => h.top_lt hrecv
          apart := fun _ hsend => h.apart hrecv hsend
          skipped := ?skipped
          distinct := ?distinct }, ?_⟩
    case receiving =>
      intro hex hhex'
      cases hhex'
      exact ⟨_, rfl, hat.forward count⟩
    case skipped =>
      intro id hex hfound
      rcases stored_passedOver hfound with ⟨j, hj, -, rfl⟩ | hold
      · refine ⟨top, s.receiveSequenceNumber + j, _, rfl, hat.keyAt j, ?_⟩
        rintro (hk | ⟨-, -, hi⟩ | ⟨hsend, hk, -⟩)
        · exact absurd (h.top_lt hrecv) (Nat.not_lt.2 hk)
        · have hpassed : s.receiveSequenceNumber + count ≤ s.receiveSequenceNumber + j := hi
          omega
        · exact h.apart hrecv hsend hk
      · obtain ⟨k, i, key, hkey, hkat, hpassed⟩ := h.skipped id hex hold
        exact ⟨k, i, key, hkey, hkat, fun hnow => hpassed (hclosed hnow)⟩
    case distinct =>
      intro id id' hex hfound hfound'
      rcases stored_passedOver hfound with ⟨j, hj, rfl, rfl⟩ | hold
      · rcases stored_passedOver hfound' with ⟨j', hj', rfl, heq⟩ | hold'
        · obtain ⟨-, -, hpos⟩ :=
            (hat.keyAt j).unique hfree (hP.bytesToHex_inj heq ▸ hat.keyAt j')
          rw [hpos]
        · -- a key passed over now was open, so it was not stored
          exact absurd (hopen j) (h.not_openAt_of_stored hP hfree hold' (hat.keyAt j))
      · rcases stored_passedOver hfound' with ⟨j', hj', rfl, rfl⟩ | hold'
        · exact absurd (hopen j') (h.not_openAt_of_stored hP hfree hold (hat.keyAt j'))
        · exact h.distinct id id' hex hold hold'
    · intro key hkey
      cases hkey with
      | stored hfound =>
          rcases stored_passedOver hfound with ⟨j, -, -, heq⟩ | hold
          · cases hP.bytesToHex_inj heq
            exact .ahead (hat.keyAt j) (hopen j)
          · exact .stored hold
      | ahead hkat hopen' => exact .ahead hkat (hclosed hopen')

omit [DecidableEq S] in
/-- A ratchet step moves to two chains that were open. -/
theorem Placed.ratcheted (h : Placed P E dhs top st n s) (hP : P.Lawful) {newRemoteHex : S}
    {draw : Nat} {rootKey remoteDh dhReceive dhSend : B}
    (hin : RatchetInputs P s newRemoteHex (E.secretKey draw) rootKey remoteDh dhReceive dhSend) :
    Placed P E dhs n (n + 1) (n + 2) (s.ratcheted P newRemoteHex rootKey dhReceive dhSend
        (keyPairOf P (E.secretKey draw))) ∧
      ∀ key, Open P dhs n (n + 1) (n + 2) (s.ratcheted P newRemoteHex rootKey dhReceive dhSend
        (keyPairOf P (E.secretKey draw))) key → Open P dhs top st n s key := by
  obtain ⟨r, hr, hat⟩ := h.root
  rw [hin.root] at hr
  cases hr
  have hclosed {k i : Nat} (h' : OpenAt (s.ratcheted P newRemoteHex rootKey dhReceive dhSend
      (keyPairOf P (E.secretKey draw))) n (n + 1) (n + 2) k i) : OpenAt s top st n k i := by
    rcases h' with hk | ⟨-, rfl, -⟩ | ⟨-, rfl, -⟩
    · exact Or.inl (by omega)
    · exact Or.inl (Nat.le_refl _)
    · exact Or.inl (Nat.le_succ n)
  refine
    ⟨{ secret := ⟨draw, rfl⟩
       root := ⟨_, hP.hexToBytes_bytesToHex _, .next dhSend (.next dhReceive hat)⟩
       receiving := ?receiving
       sending := ?sending
       top_lt := fun _ => by omega
       st_lt := fun _ => by omega
       apart := fun _ _ => by omega
       skipped := ?skipped
       distinct := h.distinct
       unsent := ?unsent }, ?_⟩
  case receiving =>
    intro hex hhex
    cases hhex
    exact ⟨_, rfl, rootKey, dhReceive, hat, rfl⟩
  case sending =>
    intro hex hhex
    cases hhex
    exact ⟨_, rfl, _, dhSend, .next dhReceive hat, rfl⟩
  case skipped =>
    intro id hex hfound
    obtain ⟨k, i, key, hkey, hkat, hpassed⟩ := h.skipped id hex hfound
    exact ⟨k, i, key, hkey, hkat, fun hnow => hpassed (hclosed hnow)⟩
  case unsent =>
    intro hnone
    cases hnone
  · intro key hkey
    cases hkey with
    | stored hfound => exact .stored hfound
    | ahead hkat hopen => exact .ahead hkat (hclosed hopen)

/-- Moving to a header opens no message key. -/
theorem Placed.headerMove (h : Placed P E dhs top st n s) (hP : P.Lawful) (hfree : P.FreeTerms)
    {m : EncryptedMessage S} {draw : Nat} (hmove : HeaderMove P s m (E.secretKey draw) s') :
    ∃ top' st' n', Placed P E dhs top' st' n' s' ∧
      ∀ key, Open P dhs top' st' n' s' key → Open P dhs top st n s key := by
  cases hmove with
  | stay _ hskip =>
      obtain ⟨hplaced, hless⟩ := h.skipMessageKeys hP hfree hskip
      exact ⟨top, st, n, hplaced, hless⟩
  | ratchet _ hskip hin hskip' =>
      obtain ⟨hplaced₁, hless₁⟩ := h.skipMessageKeys hP hfree hskip
      obtain ⟨hplaced₂, hless₂⟩ := hplaced₁.ratcheted hP hin
      obtain ⟨hplaced₃, hless₃⟩ := hplaced₂.skipMessageKeys hP hfree hskip'
      exact ⟨n, n + 1, n + 2, hplaced₃, fun key hkey => hless₁ key (hless₂ key (hless₃ key hkey))⟩

/-! ## Opening a message -/

/-- A stored key that is used is deleted. -/
theorem Placed.keyTaken (h : Placed P E dhs top st n s) (hP : P.Lawful) (hfree : P.FreeTerms)
    {id : SkippedKeyId S} {key : B} (hfound : s.skippedMessageKeys id = some (P.bytesToHex key)) :
    Placed P E dhs top st n (s.keyTaken id) ∧ ¬ Open P dhs top st n (s.keyTaken id) key ∧
      ∀ key', Open P dhs top st n (s.keyTaken id) key' → Open P dhs top st n s key' := by
  refine ⟨{ h with skipped := ?skipped, distinct := ?distinct }, ?_, ?_⟩
  case skipped =>
    intro id' hex hfound'
    exact h.skipped id' hex (stored_keyTaken hfound').2
  case distinct =>
    intro id₁ id₂ hex h₁ h₂
    exact h.distinct id₁ id₂ hex (stored_keyTaken h₁).2 (stored_keyTaken h₂).2
  · intro hkey
    cases hkey with
    | stored hfound' =>
        obtain ⟨hne, hfound'⟩ := stored_keyTaken hfound'
        exact hne (h.distinct _ _ _ hfound' hfound)
    | ahead hat hopen => exact h.not_openAt_of_stored hP hfree hfound hat hopen
  · intro key' hkey
    cases hkey with
    | stored hfound' => exact .stored (stored_keyTaken hfound').2
    | ahead hat hopen => exact .ahead hat hopen

omit [DecidableEq S] in
/-- The head of the receiving chain that is used is passed. -/
theorem Placed.headTaken (h : Placed P E dhs top st n s) (hP : P.Lawful) (hfree : P.FreeTerms)
    {chainHex : S} {c : B} (hchain : s.receiveChainKeyHex = some chainHex)
    (hc : P.hexToBytes chainHex = .ok c) (now : Nat) :
    Placed P E dhs top st n (s.headTaken P c now) ∧
      KeyAt P dhs top s.receiveSequenceNumber (kdfChain P c).messageKey ∧
      ¬ Open P dhs top st n (s.headTaken P c now) (kdfChain P c).messageKey ∧
      ∀ key, Open P dhs top st n (s.headTaken P c now) key → Open P dhs top st n s key := by
  obtain ⟨c', hhex, hat⟩ := h.receiving chainHex hchain
  rw [hhex, hP.hexToBytes_bytesToHex] at hc
  cases hc
  have hrecv : s.receiveChainKeyHex ≠ none := by simp [hchain]
  have hhead : KeyAt P dhs top s.receiveSequenceNumber (kdfChain P c).messageKey := hat.keyAt 0
  have hopen : OpenAt s top st n top s.receiveSequenceNumber :=
    Or.inr (Or.inl ⟨hrecv, rfl, Nat.le_refl _⟩)
  have hclosed {k i : Nat} (h' : OpenAt (s.headTaken P c now) top st n k i) :
      OpenAt s top st n k i := by
    rcases h' with hk | ⟨-, rfl, hi⟩ | ⟨hsome, rfl, hi⟩
    · exact Or.inl hk
    · exact Or.inr (Or.inl ⟨hrecv, rfl, Nat.le_of_succ_le hi⟩)
    · exact Or.inr (Or.inr ⟨hsome, rfl, hi⟩)
  refine
    ⟨{ h with
        receiving := ?receiving
        top_lt := fun _ => h.top_lt hrecv
        apart := fun _ hsend => h.apart hrecv hsend
        skipped := ?skipped }, hhead, ?_, ?_⟩
  case receiving =>
    intro hex hhex'
    cases hhex'
    exact ⟨_, rfl, hat.forward 1⟩
  case skipped =>
    intro id hex hfound
    obtain ⟨k, i, key, hkey, hkat, hpassed⟩ := h.skipped id hex hfound
    exact ⟨k, i, key, hkey, hkat, fun hnow => hpassed (hclosed hnow)⟩
  -- As when sealing: a stored key belongs to a position that was passed before.
  · intro hkey
    cases hkey with
    | stored hfound => exact h.not_openAt_of_stored hP hfree hfound hhead hopen
    | ahead hkat hopen' =>
        obtain ⟨-, rfl, rfl⟩ := hkat.unique hfree hhead
        rcases hopen' with hk | ⟨-, -, hi⟩ | ⟨hsend, hk, -⟩
        · exact absurd (h.top_lt hrecv) (Nat.not_lt.2 hk)
        · exact Nat.not_succ_le_self _ hi
        · exact h.apart hrecv hsend hk
  · intro key hkey
    cases hkey with
    | stored hfound => exact .stored hfound
    | ahead hkat hopen' => exact .ahead hkat (hclosed hopen')

/-- Selecting a key opens no message key, and the session saved closes the one selected. -/
theorem Placed.selects (h : Placed P E dhs top st n s) (hP : P.Lawful) (hfree : P.FreeTerms)
    {m : EncryptedMessage S} {draw : Nat} {key : B} {saved : Nat → SessionRecord B S}
    (hsel : Selects P s m (E.secretKey draw) key saved) :
    (∃ k i, KeyAt P dhs k i key) ∧ ∃ top' st' n', ∀ now, Placed P E dhs top' st' n' (saved now) ∧
      ¬ Open P dhs top' st' n' (saved now) key ∧
      ∀ key', Open P dhs top' st' n' (saved now) key' → Open P dhs top st n s key' := by
  cases hsel with
  | skipped hfound hkey =>
      obtain ⟨k, i, b, rfl, hat, -⟩ := h.skipped _ _ hfound
      rw [hP.hexToBytes_bytesToHex] at hkey
      cases hkey
      exact ⟨⟨k, i, hat⟩, top, st, n, fun _ => h.keyTaken hP hfree hfound⟩
  | head _ hmove hchain hc =>
      obtain ⟨top', st', n', hplaced, hless⟩ := h.headerMove hP hfree hmove
      refine ⟨⟨_, _, (hplaced.headTaken hP hfree hchain hc 0).2.1⟩, top', st', n', ?_⟩
      intro now
      obtain ⟨hplaced', -, hgone, hless'⟩ := hplaced.headTaken hP hfree hchain hc now
      exact ⟨hplaced', hgone, fun key' hkey => hless key' (hless' key' hkey)⟩

end TorE2EE.Crypto
