import TorE2EE.Crypto.SessionSetup
import TorE2EE.Crypto.Symbolic
import Mathlib.Data.Set.Card

/-!
# Skipping and receiving in order

`skipMessageKeys` as the source runs it: it changes the session in place, and its loop compares the
receive counter with the target in every round. `skipMessageKeys_eq_skipInPlace` says that the
engine's `skipMessageKeys` is its outcome.

`inOrderKey` is the message key that `decrypt` derives when the messages of the receiving chain
arrive one after another. `skipping_eq_receiving` says that skipping stores these keys and changes
nothing else, up to the limit, and that a `decrypt` adds no more keys than two skips do.
-/

set_option autoImplicit false

namespace TorE2EE.Crypto

open TorE2EE.Foundation

variable {B S : Type} [DecidableEq S] (P : Primitives B S) (E : Entropy B)

/-! ## The method in place -/

/-- The `while` loop of `skipMessageKeys`, with `session` and `currentReceiveChain`. -/
def skipWhile (remoteKeyHex : S) (upTo : Int) (session : SessionRecord B S)
    (currentReceiveChain : B) : SessionRecord B S × B :=
  if (session.receiveSequenceNumber : Int) < upTo then
    let k := kdfChain P currentReceiveChain
    let keyId := (remoteKeyHex, (session.receiveSequenceNumber : Int))
    skipWhile remoteKeyHex upTo
      { session with
        skippedMessageKeys :=
          Function.update session.skippedMessageKeys keyId (some (P.bytesToHex k.messageKey))
        receiveSequenceNumber := session.receiveSequenceNumber + 1 }
      k.nextChainKey
  else (session, currentReceiveChain)
termination_by (upTo - session.receiveSequenceNumber).toNat
decreasing_by omega

/-- `skipMessageKeys`, with the session it leaves whether it returns or throws. -/
def skipInPlace (session : SessionRecord B S) (upTo : Int) :
    Except (EngineError S) Unit × SessionRecord B S :=
  match session.receiveChainKeyHex, session.remoteDhPublicKeyHex with
  | some receiveChainKeyHex, some remoteDhPublicKeyHex =>
      if (session.receiveSequenceNumber : Int) + maxSkipMessages < upTo then
        (.error .tooManySkipped, session)
      else
        match P.hexToBytes receiveChainKeyHex with
        | .error e => (.error e, session)
        | .ok chain =>
            let (session, chain) :=
              skipWhile P (P.toLowerCase remoteDhPublicKeyHex) upTo session chain
            (.ok (), { session with receiveChainKeyHex := some (P.bytesToHex chain) })
  | _, _ => (.ok (), session)

/-- The loop passes over the positions from the receive counter to the target. -/
theorem skipWhile_eq (remoteKeyHex : S) (upTo : Int) (s : SessionRecord B S) (c : B) :
    skipWhile P remoteKeyHex upTo s c =
      ({ s with
          receiveSequenceNumber :=
            s.receiveSequenceNumber + (upTo - s.receiveSequenceNumber).toNat
          skippedMessageKeys :=
            passOver P remoteKeyHex c s.receiveSequenceNumber
              (upTo - s.receiveSequenceNumber).toNat s.skippedMessageKeys },
        chainKeyAt P c (upTo - s.receiveSequenceNumber).toNat) := by
  fun_induction skipWhile P remoteKeyHex upTo s c with
  | case1 s c hlt k keyId ih =>
      -- one round is one position, and the rest of the way is one shorter
      obtain ⟨n, hn⟩ : ∃ n : Nat, (upTo - s.receiveSequenceNumber).toNat = n + 1 :=
        ⟨(upTo - s.receiveSequenceNumber).toNat - 1, by omega⟩
      have hrest : (upTo - ((s.receiveSequenceNumber + 1 : Nat) : Int)).toNat = n := by omega
      have hchain : chainKeyAt P k.nextChainKey n = chainKeyAt P c (n + 1) := by
        rw [Nat.add_comm]
        exact chainKeyAt_add P c 1 n
      rw [ih, hn]
      simp only [hrest, hchain, Nat.add_right_comm, Nat.add_assoc]
      rw [← passOver_succ]
  | case2 s c hle =>
      have hzero : (upTo - s.receiveSequenceNumber).toNat = 0 := by omega
      rw [hzero, passOver_zero]
      rfl

/-- Inside the limit the session is left passed over. -/
theorem skipInPlace_of_chain {s : SessionRecord B S} {chainHex remote : S} {c : B} {upTo : Int}
    (hchain : s.receiveChainKeyHex = some chainHex) (hc : P.hexToBytes chainHex = .ok c)
    (hremote : s.remoteDhPublicKeyHex = some remote)
    (hlimit : upTo ≤ s.receiveSequenceNumber + maxSkipMessages) :
    skipInPlace P s upTo =
      (.ok (), s.passedOver P (P.toLowerCase remote) c (upTo - s.receiveSequenceNumber).toNat) := by
  cases s
  simp only at hchain hremote hlimit
  subst hchain hremote
  simp only [skipInPlace, hc, skipWhile_eq]
  rw [if_neg (by omega)]
  rfl

/-- Beyond the limit the session is left as it was. -/
theorem skipInPlace_of_limit {s : SessionRecord B S} {chainHex remote : S} {upTo : Int}
    (hchain : s.receiveChainKeyHex = some chainHex) (hremote : s.remoteDhPublicKeyHex = some remote)
    (hlimit : (s.receiveSequenceNumber : Int) + maxSkipMessages < upTo) :
    skipInPlace P s upTo = (.error .tooManySkipped, s) := by
  simp only [skipInPlace, hchain, hremote]
  rw [if_pos hlimit]

/-- The engine's `skipMessageKeys` is the outcome of the method in place. -/
theorem skipMessageKeys_eq_skipInPlace (s : SessionRecord B S) (upTo : Int) :
    skipMessageKeys P s upTo = (skipInPlace P s upTo).1.map fun _ => (skipInPlace P s upTo).2 := by
  -- both return at once without a chain, and fail on the same two checks
  cases hchain : s.receiveChainKeyHex with
  | none =>
      rw [skipMessageKeys_of_no_chain P hchain]
      simp only [skipInPlace, hchain]
      rfl
  | some chainHex =>
      cases hremote : s.remoteDhPublicKeyHex with
      | none =>
          simp only [skipMessageKeys, skipInPlace, hchain, hremote]
          rfl
      | some remote =>
          by_cases hlimit : upTo ≤ s.receiveSequenceNumber + maxSkipMessages
          · cases hc : P.hexToBytes chainHex with
            | error e =>
                simp only [skipMessageKeys, skipInPlace, hchain, hremote, hc]
                rw [if_neg (by omega), if_neg (by omega)]
                rfl
            | ok c =>
                rw [skipMessageKeys_of_chain P hchain hc hremote hlimit,
                  skipInPlace_of_chain P hchain hc hremote hlimit]
                rfl
          · simp only [skipMessageKeys, skipInPlace, hchain, hremote]
            rw [if_pos (by omega), if_pos (by omega)]
            rfl

/-! ## Receiving in order -/

/-- The step of `decrypt` in the current chain: the message key at its head, and the session that is
saved, up to the time. -/
def takeHead (s : SessionRecord B S) : Except (EngineError S) (B × SessionRecord B S) :=
  match s.receiveChainKeyHex with
  | none => .error .noReceivingChain
  | some receiveChainKeyHex =>
      (P.hexToBytes receiveChainKeyHex).map fun chain =>
        ((kdfChain P chain).messageKey, s.headTaken P chain s.updatedAt)

/-- The message key of the message that comes after `n` others, when all of them are received in the
current chain, one after another. -/
def inOrderKey : Nat → SessionRecord B S → Except (EngineError S) B
  | 0, s => (takeHead P s).map Prod.fst
  | n + 1, s => do inOrderKey n (← takeHead P s).2

omit [DecidableEq S] in
/-- In order, the key of the message after `n` others is the one at position `n` of the chain. -/
theorem inOrderKey_eq (hhex : ∀ b, P.hexToBytes (P.bytesToHex b) = .ok b) (n : Nat)
    {s : SessionRecord B S} {chainHex : S} {c : B} (hchain : s.receiveChainKeyHex = some chainHex)
    (hc : P.hexToBytes chainHex = .ok c) : inOrderKey P n s = .ok (messageKeyAt P c n) := by
  induction n generalizing s chainHex c with
  | zero =>
      simp only [inOrderKey, takeHead, hchain, hc]
      rfl
  | succ n ih =>
      -- one message received moves the chain one position on
      have hnext := ih (s := s.headTaken P c s.updatedAt) rfl (hhex _)
      have hshift : messageKeyAt P (kdfChain P c).nextChainKey n = messageKeyAt P c (1 + n) :=
        messageKeyAt_chainKeyAt P c 1 n
      rw [hshift, Nat.add_comm] at hnext
      simp only [inOrderKey, takeHead, hchain, hc]
      exact hnext

/-- The next message of the current chain is opened with the key that comes first in order, and the
session saved is the one the step leaves. -/
theorem run_decryptInSession_inOrder (hhex : ∀ b, P.hexToBytes (P.bytesToHex b) = .ok b) {k : S}
    {m : EncryptedMessage S} {s : SessionRecord B S} {chainHex remote : S} {c : B} {h : Host B S}
    (hchain : s.receiveChainKeyHex = some chainHex) (hc : P.hexToBytes chainHex = .ok c)
    (hremote : s.remoteDhPublicKeyHex = some remote) (hstay : needsRatchet P s m = false)
    (hnone : s.skippedMessageKeys (m.skippedKeyId P) = none)
    (hseq : m.sequenceNumber = s.receiveSequenceNumber) :
    ∃ key now draws, inOrderKey P 0 s = .ok key ∧
      (decryptInSession P k m s).run P E h =
        (decryptWithKey P m key,
          { store := h.store.saveSession P k (s.headTaken P c now), draws }) := by
  -- nothing is passed over on the way to the header
  have hlimit : (s.receiveSequenceNumber : Int) ≤ s.receiveSequenceNumber + maxSkipMessages := by
    omega
  have hskip := skipMessageKeys_of_chain P hchain hc hremote hlimit
  rw [Int.sub_self, Int.toNat_zero] at hskip
  have hmove : HeaderMove P s m (E.secretKey h.draws) (s.passedOver P (P.toLowerCase remote) c 0) :=
    .stay hstay (hseq ▸ hskip)
  have hsel := Selects.head hnone hmove rfl (hhex c)
  obtain ⟨now, draws, hrun, -⟩ := run_decryptInSession_of_selects (E := E) (k := k) (h := h) hsel
  have hsaved : (s.passedOver P (P.toLowerCase remote) c 0).headTaken P c now =
      s.headTaken P c now := by
    simp only [SessionRecord.passedOver, SessionRecord.headTaken, passOver_zero, Nat.add_zero]
  rw [hsaved] at hrun
  exact ⟨_, now, draws, inOrderKey_eq P hhex 0 hchain hc, hrun⟩

/-! ## The keys that are added -/

/-- The ids under which there is a key afterwards that was not there before. -/
def addedKeys (before after : SkippedKeyId S → Option S) : Set (SkippedKeyId S) :=
  { id | after id ≠ none ∧ after id ≠ before id }

omit [DecidableEq S] in
theorem addedKeys_self (skipped : SkippedKeyId S → Option S) : addedKeys skipped skipped = ∅ :=
  Set.eq_empty_iff_forall_notMem.2 fun _ h => h.2 rfl

theorem addedKeys_subset (a b c : SkippedKeyId S → Option S) :
    addedKeys a c ⊆ addedKeys a b ∪ addedKeys b c := by
  rintro id ⟨hsome, hne⟩
  by_cases hbc : c id = b id
  · exact Or.inl ⟨hbc ▸ hsome, hbc ▸ hne⟩
  · exact Or.inr ⟨hsome, hbc⟩

/-- Passing over `n` positions adds no more than `n` keys. -/
theorem encard_addedKeys_passOver (r : S) (c : B) (received n : Nat)
    (skipped : SkippedKeyId S → Option S) :
    (addedKeys skipped (passOver P r c received n skipped)).encard ≤ n := by
  -- a key that is new is under one of the positions passed over
  have hsub : addedKeys skipped (passOver P r c received n skipped) ⊆
      (fun j : Nat => ((r, (received + j : Int)) : SkippedKeyId S)) '' ↑(Finset.range n) := by
    rintro ⟨remote, i⟩ ⟨-, hne⟩
    by_cases hid : remote = r ∧ (received : Int) ≤ i ∧ i < received + n
    · obtain ⟨rfl, hle, hlt⟩ := hid
      refine ⟨(i - received).toNat, ?_, ?_⟩
      · rw [Finset.mem_coe, Finset.mem_range]
        omega
      · exact Prod.ext rfl (by simp only; omega)
    · exact absurd (if_neg hid) hne
  refine (Set.encard_le_encard hsub).trans ((Set.encard_image_le _ _).trans ?_)
  rw [Set.encard_coe_eq_coe_finsetCard, Finset.card_range]

/-- A skip adds no more keys than the limit. -/
theorem encard_addedKeys_skip {s s' : SessionRecord B S} {upTo : Int}
    (h : skipMessageKeys P s upTo = .ok s') :
    (addedKeys s.skippedMessageKeys s'.skippedMessageKeys).encard ≤ 2000 := by
  rcases skipMessageKeys_cases P h with ⟨-, rfl⟩ | ⟨chainHex, c, remote, -, -, -, hlimit, rfl⟩
  · rw [addedKeys_self, Set.encard_empty]
    exact zero_le
  · refine (encard_addedKeys_passOver P _ _ _ _ _).trans ?_
    have hle : (upTo - s.receiveSequenceNumber).toNat ≤ 2000 := by
      rw [maxSkipMessages] at hlimit
      omega
    exact_mod_cast hle

/-- Moving to a header skips at most twice. -/
theorem HeaderMove.encard_addedKeys {s s' : SessionRecord B S} {m : EncryptedMessage S}
    {secretKey : B} (h : HeaderMove P s m secretKey s') :
    (addedKeys s.skippedMessageKeys s'.skippedMessageKeys).encard ≤ 4000 := by
  cases h with
  | stay _ hskip =>
      exact (encard_addedKeys_skip P hskip).trans (Nat.cast_le.2 (by decide : 2000 ≤ 4000))
  | @ratchet s₁ _ _ _ _ _ _ hskip _ hskip' =>
      -- the ratchet step in between keeps the skipped keys
      have hfirst := encard_addedKeys_skip P hskip
      have hsecond := encard_addedKeys_skip P hskip'
      refine (Set.encard_le_encard (addedKeys_subset _ s₁.skippedMessageKeys _)).trans ?_
      exact (Set.encard_union_le _ _).trans ((add_le_add hfirst hsecond).trans_eq rfl)

/-- The session that is saved when a key is used holds at most 4000 keys that the one before did not
hold: a key that is taken from the skipped ones adds none. -/
theorem Selects.encard_addedKeys {s : SessionRecord B S} {m : EncryptedMessage S}
    {secretKey key : B} {saved : Nat → SessionRecord B S} (h : Selects P s m secretKey key saved)
    (now : Nat) :
    (addedKeys s.skippedMessageKeys (saved now).skippedMessageKeys).encard ≤ 4000 := by
  cases h with
  | skipped =>
      have hnone : addedKeys s.skippedMessageKeys
          (s.keyTaken (m.skippedKeyId P)).skippedMessageKeys = ∅ := by
        refine Set.eq_empty_iff_forall_notMem.2 ?_
        rintro id ⟨hsome, hne⟩
        by_cases hid : id = m.skippedKeyId P
        · exact hsome (by rw [hid]; exact Function.update_self _ _ _)
        · exact hne (Function.update_of_ne hid _ _)
      rw [hnone, Set.encard_empty]
      exact zero_le
  | head _ hmove _ _ =>
      exact (HeaderMove.encard_addedKeys P hmove :)

/-- The skipped keys of the session with a peer, none without a session. -/
def SignalStore.skippedKeys (st : SignalStore B S) (k : S) : SkippedKeyId S → Option S :=
  match st.getSession P k with
  | some s => s.skippedMessageKeys
  | none => fun _ => none

omit [DecidableEq S] in
theorem SignalStore.skippedKeys_of_some {st : SignalStore B S} {k : S} {s : SessionRecord B S}
    (h : st.getSession P k = some s) : st.skippedKeys P k = s.skippedMessageKeys := by
  rw [skippedKeys, h]

omit [DecidableEq S] in
theorem SignalStore.skippedKeys_of_none {st : SignalStore B S} {k : S}
    (h : st.getSession P k = none) : st.skippedKeys P k = fun _ => none := by
  rw [skippedKeys, h]

/-- A `decrypt` in the stored session adds at most 4000 keys. -/
theorem encard_addedKeys_decryptInSession {k : S} {m : EncryptedMessage S} {s : SessionRecord B S}
    {h : Host B S} (hs : h.store.getSession P k = some s) :
    (addedKeys s.skippedMessageKeys
      (((decryptInSession P k m s).run P E h).2.store.skippedKeys P k)).encard ≤ 4000 := by
  rcases run_decryptInSession_cases P E k m s h with ⟨e, h', hrun, hstore, -⟩ | ⟨key, saved, hsel⟩
  · rw [hrun, hstore, SignalStore.skippedKeys_of_some P hs, addedKeys_self, Set.encard_empty]
    exact zero_le
  · obtain ⟨now, draws, hrun, -⟩ := run_decryptInSession_of_selects (k := k) hsel
    rw [hrun, SignalStore.skippedKeys_of_some P (h.store.getSession_saveSession_self P k _)]
    exact Selects.encard_addedKeys P hsel now

/-- A `decrypt` adds at most 4000 keys. A first contact saves a session without any before it goes
on in it. -/
theorem encard_addedKeys_decrypt (k : S) (m : EncryptedMessage S) (h : Host B S) :
    (addedKeys (h.store.skippedKeys P k)
      (((decrypt P k m).run P E h).2.store.skippedKeys P k)).encard ≤ 4000 := by
  cases hs : h.store.getSession P k with
  | some s =>
      rw [SignalStore.skippedKeys_of_some P hs, run_decrypt_of_session P E hs]
      exact encard_addedKeys_decryptInSession P E hs
  | none =>
      rw [SignalStore.skippedKeys_of_none P hs]
      rcases run_initiateBobSession_cases P E k m h with
        ⟨e, hrun, -⟩ | ⟨e, -, -, -, hrun, -, -⟩ | ⟨dhAll, initialDh, hin⟩
      · rw [run_decrypt_of_refused hs hrun, SignalStore.skippedKeys_of_none P hs, addedKeys_self,
          Set.encard_empty]
        exact zero_le
      · have hkept : (h.store.withoutNamed m.oneTimePreKeyId).getSession P k = none := by
          rw [← hs]
          exact SignalStore.getSession_withoutNamed P _ _ _
        rw [run_decrypt_of_refused hs hrun, SignalStore.skippedKeys_of_none P hkept, addedKeys_self,
          Set.encard_empty]
        exact zero_le
      · have hresponded := run_initiateBobSession_of_inputs (E := E) (k := k) hin
        rw [run_decrypt_of_responded hs hresponded]
        exact encard_addedKeys_decryptInSession P E
          (SignalStore.getSession_saveSession_self P _ k _)

/-! ## Skipping is receiving in order -/

/-- What a skip from the session `s` to the position `upTo` leaves: the counter and the chain moved
on, and under the remote key and each position in between the key that receiving in order derives;
everything else is as it was. -/
structure SkippedTo (s : SessionRecord B S) (remote : S) (c : B) (upTo : Int)
    (s' : SessionRecord B S) : Prop where
  counter : (s'.receiveSequenceNumber : Int) = max (s.receiveSequenceNumber : Int) upTo
  chain : s'.receiveChainKeyHex =
    some (P.bytesToHex (chainKeyAt P c (max 0 (upTo - s.receiveSequenceNumber)).toNat))
  stored : ∀ i : Int, s.receiveSequenceNumber ≤ i → i < upTo →
    ∃ key, inOrderKey P (i - s.receiveSequenceNumber).toNat s = .ok key ∧
      s'.skippedMessageKeys (P.toLowerCase remote, i) = some (P.bytesToHex key)
  kept : ∀ id : SkippedKeyId S,
    ¬ (id.1 = P.toLowerCase remote ∧ s.receiveSequenceNumber ≤ id.2 ∧ id.2 < upTo) →
      s'.skippedMessageKeys id = s.skippedMessageKeys id
  frame : s' = { s with
    receiveSequenceNumber := s'.receiveSequenceNumber
    receiveChainKeyHex := s'.receiveChainKeyHex
    skippedMessageKeys := s'.skippedMessageKeys }
  added : (addedKeys s.skippedMessageKeys s'.skippedMessageKeys).encard ≤ 2000

/-- A session whose receiving chain was passed over has been skipped to the target. -/
theorem skippedTo_passedOver (hhex : ∀ b, P.hexToBytes (P.bytesToHex b) = .ok b)
    {s : SessionRecord B S} {chainHex remote : S} {c : B} {upTo : Int}
    (hchain : s.receiveChainKeyHex = some chainHex) (hc : P.hexToBytes chainHex = .ok c)
    (hlimit : upTo ≤ s.receiveSequenceNumber + 2000) :
    SkippedTo P s remote c upTo
      (s.passedOver P (P.toLowerCase remote) c (upTo - s.receiveSequenceNumber).toNat) where
  counter := by
    show ((s.receiveSequenceNumber + (upTo - s.receiveSequenceNumber).toNat : Nat) : Int) = _
    omega
  chain := by
    have hmax : (max 0 (upTo - s.receiveSequenceNumber)).toNat =
        (upTo - s.receiveSequenceNumber).toNat := by omega
    rw [hmax]
    rfl
  stored i hle hlt := by
    refine ⟨_, inOrderKey_eq P hhex _ hchain hc, ?_⟩
    exact if_pos ⟨rfl, hle, by omega⟩
  kept id hid := by
    refine if_neg ?_
    rintro ⟨hremote, hle, hlt⟩
    exact hid ⟨hremote, hle, by omega⟩
  frame := rfl
  added := by
    refine (encard_addedKeys_passOver P _ _ _ _ _).trans ?_
    have hle : (upTo - s.receiveSequenceNumber).toNat ≤ 2000 := by omega
    exact_mod_cast hle

/-- A skip throws exactly when the target is more than 2000 positions away, and then leaves the
session as it was; otherwise it leaves what receiving the messages in between in order would have
derived. A skip adds at most 2000 keys and a `decrypt` at most 4000. -/
theorem skipping_eq_receiving (hhex : ∀ b, P.hexToBytes (P.bytesToHex b) = .ok b) :
    (∀ (s : SessionRecord B S) (chainHex remote : S) (c : B) (upTo : Int),
      s.receiveChainKeyHex = some chainHex → P.hexToBytes chainHex = .ok c →
      s.remoteDhPublicKeyHex = some remote →
        ((skipInPlace P s upTo = (.error .tooManySkipped, s) ∧
            (s.receiveSequenceNumber : Int) + 2000 < upTo) ∨
          (upTo ≤ s.receiveSequenceNumber + 2000 ∧
            ∃ s', skipInPlace P s upTo = (.ok (), s') ∧ SkippedTo P s remote c upTo s'))) ∧
      ∀ (E : Entropy B) (h : Host B S) (k : S) (m : EncryptedMessage S),
        (addedKeys (h.store.skippedKeys P k)
          (((decrypt P k m).run P E h).2.store.skippedKeys P k)).encard ≤ 4000 := by
  refine ⟨?_, fun E h k m => encard_addedKeys_decrypt P E k m h⟩
  intro s chainHex remote c upTo hchain hc hremote
  by_cases hlimit : upTo ≤ s.receiveSequenceNumber + 2000
  · exact Or.inr ⟨hlimit, _, skipInPlace_of_chain P hchain hc hremote hlimit,
      skippedTo_passedOver P hhex hchain hc hlimit⟩
  · have hover : (s.receiveSequenceNumber : Int) + 2000 < upTo := by omega
    exact Or.inl ⟨skipInPlace_of_limit P hchain hremote hover, hover⟩

open TorE2EE.Crypto.Sym

/-- A session that has received three messages of its chain. -/
def chainedSession : SessionRecord Sym Sym where
  recipientIdentityKeyHex := hex (pub (name 0))
  rootKeyHex := hex (name 2)
  sendChainKeyHex := none
  receiveChainKeyHex := some (hex (name 3))
  localDhKeyPair := keyPairOf symbolic (name 4)
  remoteDhPublicKeyHex := some (hex (pub (name 5)))
  sendSequenceNumber := 0
  receiveSequenceNumber := 3
  previousChainLength := 0
  skippedMessageKeys _ := none
  createdAt := 0
  updatedAt := 0
  oneTimePreKeyId := none

theorem skipping_eq_receiving_symbolic :
    ∃ s', skipInPlace symbolic chainedSession 5 = (.ok (), s') ∧
      SkippedTo symbolic chainedSession (hex (pub (name 5))) (name 3) 5 s' := by
  have hcases := (skipping_eq_receiving symbolic symbolic_lawful.hexToBytes_bytesToHex).1
    chainedSession (hex (name 3)) (hex (pub (name 5))) (name 3) 5 rfl rfl rfl
  exact (hcases.resolve_left fun h => absurd h.2 (by decide)).2

end TorE2EE.Crypto
