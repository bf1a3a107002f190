import TorE2EE.Crypto.Deliveries
import TorE2EE.Crypto.World

/-!
# Two sessions in step

`InSync` is the two-party invariant of a conversation. Both sessions stand at neighbouring
positions of one ladder of epochs, and every message in flight is sealed at a position its receiver
can still reach or still covers. `InSync.encrypt` and `InSync.deliver` show that sealing and
delivering, in whatever order, keep it, and that a delivery returns the plaintext.
-/

set_option autoImplicit false

namespace TorE2EE.Crypto

variable {B S : Type}

/-- The last epoch two sessions at positions `n` know of. -/
def topEpoch (n : Party → Nat) : Nat := max (n .alice) (n .bob) + 1

theorem topEpoch_eq (n : Party → Nat) (p : Party) : topEpoch n = max (n p) (n p.peer) + 1 := by
  cases p with
  | alice => rfl
  | bob => exact congrArg Nat.succ (Nat.max_comm _ _)

theorem position_lt_topEpoch (n : Party → Nat) (p : Party) : n p < topEpoch n := by
  rw [topEpoch_eq n p]
  omega

/-- A message in flight sits at position `i` of an epoch `k` of its sender, and its receiver has not
lost the key of that position. -/
structure Pending (P : Primitives B S) (ep : Nat → Epoch B S) (n : Party → Nat)
    (s : Party → SessionRecord B S) (f : Flight S) (k i : Nat) : Prop where
  sealedAt : SealedAt P ep k i f.plaintext f.message
  opened : k ≠ 0
  bound : k ≤ n f.sender + 1
  parity : k % 2 = (n f.sender + 1) % 2
  covers : Covers ep (n f.sender.peer) (s f.sender.peer) k i

/-- The header that identifies a message. -/
def EncryptedMessage.header (m : EncryptedMessage S) : S × Int :=
  (m.ephemeralPublicKeyHex, m.sequenceNumber)

/-- Both sessions are in step with one ladder of epochs, and nothing in flight is lost. -/
structure InSync (P : Primitives B S) (E : Entropy B) (ep : Nat → Epoch B S) (n : Party → Nat)
    (s : Party → SessionRecord B S) (w : World B S) : Prop where
  adjacent : ∀ p, n p.peer = n p + 1 ∨ n p = n p.peer + 1
  ladder : Ladder P ep (topEpoch n)
  drawn : ∀ k ≤ topEpoch n, ∃ d < w.draws, (ep k).keyPair = keyPairOf P (E.secretKey d)
  opened : ∀ p, n p ≠ 0 → 0 < (ep (n p)).sent
  session : ∀ p, w.session p P = some (s p)
  synced : ∀ p, Synced P ep (n p) (s p)
  flights : ∀ f ∈ w.flights, ∃ k i, Pending P ep n s f k i
  unique : w.flights.Pairwise fun f g => f.message.header ≠ g.message.header

section

variable {P : Primitives B S} {E : Entropy B} {ep : Nat → Epoch B S} {n : Party → Nat}
  {s : Party → SessionRecord B S} {w : World B S}

/-- A pending message stays pending when nothing it depends on changes for the worse. -/
theorem Pending.congr {ep' : Nat → Epoch B S} {n' : Party → Nat} {s' : Party → SessionRecord B S}
    {f : Flight S} {k i : Nat} (h : Pending P ep n s f k i) {top : Nat} (hk : k ≤ top)
    (hep : SameKeys ep ep' top) (hsent : (ep k).sent ≤ (ep' k).sent)
    (hprev : (ep' (k - 2)).sent = (ep (k - 2)).sent) (hn : n f.sender ≤ n' f.sender)
    (hparity : n' f.sender % 2 = n f.sender % 2)
    (hcov : Covers ep' (n' f.sender.peer) (s' f.sender.peer) k i) :
    Pending P ep' n' s' f k i where
  sealedAt := h.sealedAt.congr hk hep hsent hprev
  opened := h.opened
  bound := h.bound.trans (by omega)
  parity := by rw [h.parity]; omega
  covers := hcov

theorem Pending.le_topEpoch {f : Flight S} {k i : Nat} (h : Pending P ep n s f k i) :
    k ≤ topEpoch n :=
  h.bound.trans (position_lt_topEpoch n f.sender)

/-- Two messages in flight with different headers sit at different positions. -/
theorem Pending.position_ne {f g : Flight S} {k i k' i' : Nat} (hf : Pending P ep n s f k i)
    (hg : Pending P ep n s g k' i') (hne : f.message.header ≠ g.message.header) :
    (k', i') ≠ (k, i) := by
  rintro heq
  simp only [Prod.mk.injEq] at heq
  obtain ⟨rfl, rfl⟩ := heq
  refine hne ?_
  rw [EncryptedMessage.header, EncryptedMessage.header, hf.sealedAt.key, hf.sealedAt.sequence,
    hg.sealedAt.key, hg.sealedAt.sequence]

/-- The epoch of a pending message, seen from its receiver. -/
theorem InSync.epoch_cases (h : InSync P E ep n s w) {f : Flight S} {k i : Nat}
    (hf : Pending P ep n s f k i) :
    k ≤ n f.sender.peer ∨ (k = n f.sender.peer + 2 ∧ n f.sender = n f.sender.peer + 1) := by
  have hadj := h.adjacent f.sender
  have hbound := hf.bound
  have hparity := hf.parity
  omega

/-- Further bundles leave two sessions in step. -/
theorem InSync.keepsSessions {p : Party} {w' : World B S} (h : InSync P E ep n s w)
    (hw : KeepsSessions P p w w') : InSync P E ep n s w' where
  adjacent := h.adjacent
  ladder := h.ladder
  drawn k hk := by
    obtain ⟨d, hd, hkey⟩ := h.drawn k hk
    exact ⟨d, Nat.lt_of_lt_of_le hd hw.draws, hkey⟩
  opened := h.opened
  session q := by rw [hw.session_eq, h.session]
  synced := h.synced
  flights f hf := by
    rw [hw.flights] at hf
    exact h.flights f hf
  unique := by
    rw [hw.flights]
    exact h.unique

variable [DecidableEq S]

/-! ## Sealing -/

/-- A session in step seals: `encrypt` returns the next message of its own epoch and saves the
session that has sealed it. -/
theorem Synced.run_encrypt {h : Host B S} {session : SessionRecord B S} {k top : Nat}
    (hsync : Synced P ep k session) (key : S) (hs : h.store.getSession P key = some session)
    (hP : P.Lawful) (hE : E.Fresh P) (hep : Ladder P ep top) (hk : k < top) {plaintext : S}
    (htext : P.textDecode (P.textEncode plaintext) = plaintext)
    (context : Option InitialBundleContext) :
    ∃ m s', (encrypt P key plaintext context).run P E h =
        (.ok m, { store := h.store.saveSession P key s', draws := h.draws + 2 }) ∧
      Synced P (sealInEpoch ep (k + 1)) k s' ∧
      SealedAt P (sealInEpoch ep (k + 1)) (k + 1) (ep (k + 1)).sent plaintext m ∧
      s'.skippedMessageKeys = session.skippedMessageKeys ∧
      s'.receiveSequenceNumber = session.receiveSequenceNumber ∧
      s'.oneTimePreKeyId = session.oneTimePreKeyId ∧
      m.initialIdentityKeyHex = some h.store.identity.encryptionKey.publicKeyHex ∧
      m.initialEphemeralKeyHex = some m.ephemeralPublicKeyHex ∧
      m.oneTimePreKeyId = carriedOneTimePreKeyId session context := by
  obtain ⟨s₁, hchain, hs₁, hroot, hskip, hrecv, hotk⟩ := hsync.ensureSendChain hP hep hk
  have hcarried : carriedOneTimePreKeyId s₁ context = carriedOneTimePreKeyId session context := by
    rw [carriedOneTimePreKeyId, carriedOneTimePreKeyId, hotk, hs₁.sent, hsync.sent]
  exact ⟨_, _, run_encrypt_of_ok hs hchain (hP.hexToBytes_bytesToHex _),
    hs₁.sealedOnce hroot (E.now h.draws),
    hs₁.sealedAt h.store.identity (hE.nonce (h.draws + 1)) htext context, hskip, hrecv,
    hotk, rfl, rfl, hcarried⟩

/-- The same for a call of a party. -/
theorem Synced.encryptTo {p : Party} {session : SessionRecord B S} {k top : Nat}
    (hsync : Synced P ep k session) (hs : w.session p P = some session) (hP : P.Lawful)
    (hE : E.Fresh P) (hep : Ladder P ep top) (hk : k < top) {plaintext : S}
    (htext : P.textDecode (P.textEncode plaintext) = plaintext)
    (context : Option InitialBundleContext) :
    ∃ m s', w.encryptTo p P E plaintext context = (.ok m, w.saving p P s' (w.draws + 2)) ∧
      Synced P (sealInEpoch ep (k + 1)) k s' ∧
      SealedAt P (sealInEpoch ep (k + 1)) (k + 1) (ep (k + 1)).sent plaintext m ∧
      s'.skippedMessageKeys = session.skippedMessageKeys ∧
      s'.receiveSequenceNumber = session.receiveSequenceNumber ∧
      s'.oneTimePreKeyId = session.oneTimePreKeyId ∧
      m.initialIdentityKeyHex = some (w.identityKeyHex p) ∧
      m.initialEphemeralKeyHex = some m.ephemeralPublicKeyHex ∧
      m.oneTimePreKeyId = carriedOneTimePreKeyId session context := by
  obtain ⟨m, s', hrun, hrest⟩ :=
    hsync.run_encrypt _ (h := w.host p) hs hP hE hep hk htext context
  exact ⟨m, s', w.call_of_run p P E hrun, hrest⟩

omit [DecidableEq S] in
/-- Sealing leaves what is in flight pending. -/
theorem Pending.sealing {f : Flight S} {k i : Nat} (hf : Pending P ep n s f k i)
    (hadj : ∀ p, n p.peer = n p + 1 ∨ n p = n p.peer + 1) {p : Party} {s' : SessionRecord B S}
    (hskip : s'.skippedMessageKeys = (s p).skippedMessageKeys)
    (hrecv : s'.receiveSequenceNumber = (s p).receiveSequenceNumber) :
    Pending P (sealInEpoch ep (n p + 1)) n (Function.update s p s') f k i := by
  have hprev : k - 2 ≠ n p + 1 := by
    have hopened := hf.opened
    have hbound := hf.bound
    have hparity := hf.parity
    have hadj' := hadj f.sender
    by_cases hp : p = f.sender
    · subst hp
      omega
    · rw [Party.eq_peer_of_ne hp]
      omega
  refine hf.congr (Nat.le_refl k) (sameKeys_sealInEpoch ep _ _) (sent_le_sealInEpoch ep _ _)
    (sent_sealInEpoch_of_ne ep hprev) (Nat.le_refl _) rfl ?_
  refine Covers.congr ?_ (sameKeys_sealInEpoch ep _ _)
  by_cases hq : f.sender.peer = p
  · subst hq
    rw [Function.update_self]
    intro hpast
    rw [hrecv] at hpast
    rw [hskip]
    exact hf.covers hpast
  · rw [Function.update_of_ne hq]
    exact hf.covers

/-- Sealing keeps two sessions in step. -/
theorem InSync.encrypt (h : InSync P E ep n s w) (hP : P.Lawful) (hE : E.Fresh P) (p : Party)
    {plaintext : S} (htext : P.textDecode (P.textEncode plaintext) = plaintext)
    (context : Option InitialBundleContext) :
    ∃ m s', InSync P E (sealInEpoch ep (n p + 1)) n s' (w.send p P E plaintext context) ∧
      (w.send p P E plaintext context).flights =
        w.flights ++ [{ sender := p, plaintext, message := m }] ∧
      m.header = ((ep (n p + 1)).keyPair.publicKeyHex, ((ep (n p + 1)).sent : Int)) ∧
      ∀ q, (s' q).skippedMessageKeys = (s q).skippedMessageKeys ∧
        (s' q).receiveSequenceNumber = (s q).receiveSequenceNumber := by
  have hlt := position_lt_topEpoch n p
  have hadj := h.adjacent p
  obtain ⟨m, s₁, hrun, hs₁, hm, hskip, hrecv, -⟩ :=
    (h.synced p).encryptTo (h.session p) hP hE h.ladder hlt htext context
  have hsame := sameKeys_sealInEpoch ep (n p + 1) (topEpoch n)
  have hpending {f : Flight S} {k i : Nat} (hf : Pending P ep n s f k i) :
      Pending P (sealInEpoch ep (n p + 1)) n (Function.update s p s₁) f k i :=
    hf.sealing h.adjacent hskip hrecv
  rw [World.send_of_ok w p P E hrun]
  refine ⟨m, Function.update s p s₁,
    { adjacent := h.adjacent
      ladder := ?ladder
      drawn := ?drawn
      opened := ?opened
      session := ?session
      synced := ?synced
      flights := ?flights
      unique := ?unique }, rfl, ?_, ?_⟩
  case ladder =>
    exact h.ladder.congr hsame (by rw [sent_sealInEpoch_of_ne ep (by omega), h.ladder.first])
  case drawn =>
    intro k hk
    obtain ⟨d, hd, hkey⟩ := h.drawn k hk
    exact ⟨d, Nat.lt_add_right 2 hd, by rw [(hsame k hk).1, hkey]⟩
  case opened =>
    intro q hq
    exact Nat.lt_of_lt_of_le (h.opened q hq) (sent_le_sealInEpoch ep _ _)
  case session =>
    intro q
    refine (World.session_saving w p P s₁ _ q).trans ?_
    by_cases hq : q = p
    · subst hq
      simp
    · simp [hq, h.session q]
  case synced =>
    intro q
    by_cases hq : q = p
    · subst hq
      rw [Function.update_self]
      exact hs₁
    · rw [Function.update_of_ne hq, Party.eq_peer_of_ne hq]
      refine (h.synced p.peer).congr (sameKeys_sealInEpoch ep _ _) ?_ ?_ ?_
      · exact sent_sealInEpoch_of_ne ep (by omega)
      · exact sent_sealInEpoch_of_ne ep (by omega)
      · exact sent_le_sealInEpoch ep _ _
  case flights =>
    intro f hf
    rcases List.mem_append.1 hf with hold | hnew
    · obtain ⟨k, i, hpend⟩ := h.flights f hold
      exact ⟨k, i, hpending hpend⟩
    · rw [List.mem_singleton] at hnew
      subst hnew
      refine ⟨n p + 1, (ep (n p + 1)).sent, hm, Nat.succ_ne_zero _, Nat.le_refl _, rfl, ?_⟩
      -- the receiver has not passed the end of the chain
      have hrecv' := (h.synced p.peer).received
      rintro (hlt' | ⟨heq, hlt'⟩)
      · have hlt'' : n p + 1 < n p.peer := hlt'
        omega
      · have hlt'' : (ep (n p + 1)).sent < (s p.peer).receiveSequenceNumber := by
          rwa [Function.update_of_ne p.peer_ne] at hlt'
        have heq' : n p + 1 = n p.peer := heq
        rw [← heq'] at hrecv'
        omega
  case unique =>
    refine List.pairwise_append.2 ⟨h.unique, List.pairwise_singleton _ _, ?_⟩
    intro f hf g hg
    rw [List.mem_singleton] at hg
    subst hg
    obtain ⟨k, i, hpend⟩ := h.flights f hf
    intro heq
    simp only [EncryptedMessage.header, Prod.mk.injEq, hpend.sealedAt.key, hpend.sealedAt.sequence,
      hm.key, hm.sequence, (hsame (n p + 1) hlt).1] at heq
    have hk := h.ladder.distinct k hpend.le_topEpoch (n p + 1) hlt heq.1
    have hi := hpend.sealedAt.index
    rw [hk] at hi
    omega
  · rw [EncryptedMessage.header, hm.key, hm.sequence, (hsame (n p + 1) hlt).1]
  · intro q
    by_cases hq : q = p
    · subst hq
      rw [Function.update_self]
      exact ⟨hskip, hrecv⟩
    · rw [Function.update_of_ne hq]
      exact ⟨rfl, rfl⟩

/-! ## Delivering -/

/-- A delivery whose key the receiver's session selects returns the plaintext and saves the
session. -/
theorem Receives.decryptAt {p : Party} {session : SessionRecord B S} {ep' : Nat → Epoch B S}
    {pos pos' k i : Nat} {plaintext : S} {m : EncryptedMessage S}
    (hrec : Receives P ep ep' pos pos' k i session m (E.secretKey w.draws)) (hP : P.Lawful)
    (hs : w.session p P = some session) (hm : SealedAt P ep k i plaintext m) :
    ∃ s' draws, w.decryptAt p P E m = (.ok plaintext, w.saving p P s' draws) ∧
      w.draws ≤ draws ∧
      (session.skippedMessageKeys (m.skippedKeyId P) = none → w.draws < draws) ∧
      Synced P ep' pos' s' ∧
      ∀ k' i', k' ≠ 0 → k' ≠ pos + 1 → i' < (ep k').sent → (k', i') ≠ (k, i) →
        Covers ep pos session k' i' → Covers ep' pos' s' k' i' := by
  obtain ⟨saved, hsel, hsync, hcov⟩ := hrec
  obtain ⟨now, draws, hrun, hle, hlt⟩ := run_decryptInSession_of_selects (E := E)
    (k := w.identityKeyHex p.peer) (h := w.host p) hsel
  refine ⟨saved now, draws, ?_, hle, ?_, hsync now, hcov now⟩
  · have hrun' := (run_decrypt_of_session P E (h := w.host p) hs m).trans hrun
    rw [hm.decryptWithKey hP] at hrun'
    rw [World.decryptAt, World.call, hrun']
    rfl
  · intro hnone
    exact Nat.lt_of_le_of_lt (Nat.le_add_right _ _) (hlt hnone)

omit [DecidableEq S] in
/-- In a list of distinct headers, the other messages have other headers. -/
theorem header_ne_of_landed {before after : List (Flight S)} {f g : Flight S}
    (hunique : (before ++ f :: after).Pairwise fun f g => f.message.header ≠ g.message.header)
    (hg : g ∈ before ++ after) : f.message.header ≠ g.message.header := by
  obtain ⟨-, htail, hcross⟩ := List.pairwise_append.1 hunique
  rcases List.mem_append.1 hg with hb | ha
  · exact (hcross g hb f List.mem_cons_self).symm
  · exact (List.pairwise_cons.1 htail).1 g ha

/-- The invariant after a delivery: the receiver stands at `pos'`, the epochs known before are as
they were, and the receiver still covers what it covered except the message delivered. -/
theorem InSync.landed (h : InSync P E ep n s w) {before after : List (Flight S)} {f : Flight S}
    (hw : w.flights = before ++ f :: after) {k i : Nat} (hf : Pending P ep n s f k i)
    {ep' : Nat → Epoch B S} {pos' draws : Nat} {s' : SessionRecord B S}
    (hep : ∀ j ≤ topEpoch n, ep' j = ep j) (hmono : n f.sender.peer ≤ pos')
    (hparity : pos' % 2 = n f.sender.peer % 2)
    (hadj : n f.sender = pos' + 1 ∨ pos' = n f.sender + 1)
    (hladder : Ladder P ep' (topEpoch (Function.update n f.sender.peer pos')))
    (hdrawn : ∀ j ≤ topEpoch (Function.update n f.sender.peer pos'),
      ∃ d < draws, (ep' j).keyPair = keyPairOf P (E.secretKey d))
    (hopened : pos' ≠ 0 → 0 < (ep' pos').sent) (hs' : Synced P ep' pos' s')
    (hcov : ∀ k' i', k' ≠ 0 → k' ≠ n f.sender.peer + 1 → i' < (ep k').sent → (k', i') ≠ (k, i) →
      Covers ep (n f.sender.peer) (s f.sender.peer) k' i' → Covers ep' pos' s' k' i') :
    InSync P E ep' (Function.update n f.sender.peer pos') (Function.update s f.sender.peer s')
      ((w.saving f.sender.peer P s' draws).landed (before ++ after)) := by
  have hsame : SameKeys ep ep' (topEpoch n) := fun j hj => by simp [hep j hj]
  have hlt := position_lt_topEpoch n f.sender
  have hsender : f.sender ≠ f.sender.peer := f.sender.ne_peer
  refine
    { adjacent := ?adjacent
      ladder := hladder
      drawn := hdrawn
      opened := ?opened
      session := ?session
      synced := ?synced
      flights := ?flights
      unique := ?unique }
  case adjacent =>
    intro q
    by_cases hq : q = f.sender.peer
    · subst hq
      simpa [Function.update_of_ne hsender] using hadj
    · have hq' : q = f.sender := by simpa using Party.eq_peer_of_ne hq
      subst hq'
      simpa [Function.update_of_ne hsender] using hadj.symm
  case opened =>
    intro q hq0
    by_cases hq : q = f.sender.peer
    · subst hq
      simp only [Function.update_self] at hq0 ⊢
      exact hopened hq0
    · rw [Function.update_of_ne hq] at hq0 ⊢
      rw [hep _ (Nat.le_of_lt (position_lt_topEpoch n q))]
      exact h.opened q hq0
  case session =>
    intro q
    refine (World.session_saving w _ P s' _ q).trans ?_
    by_cases hq : q = f.sender.peer
    · subst hq
      simp
    · simp [hq, h.session q]
  case synced =>
    intro q
    by_cases hq : q = f.sender.peer
    · subst hq
      simpa using hs'
    · have hq' : q = f.sender := by simpa using Party.eq_peer_of_ne hq
      subst hq'
      rw [Function.update_of_ne hq, Function.update_of_ne hq]
      have hsub : SameKeys ep ep' (n f.sender + 1) := fun j hj => hsame j (by omega)
      exact (h.synced f.sender).congr hsub (by rw [hep _ (by omega)]) (by rw [hep _ (by omega)])
        (by rw [hep _ (by omega)])
  -- a message still on its way is covered as before: only the one delivered has been used
  case flights =>
    intro g hg
    have hmem : g ∈ w.flights := by
      rw [hw]
      exact (List.mem_append.1 hg).elim (fun hb => List.mem_append_left _ hb)
        (fun ha => List.mem_append_right _ (List.mem_cons_of_mem _ ha))
    obtain ⟨k', i', hpend⟩ := h.flights g hmem
    have hk' := hpend.le_topEpoch
    refine ⟨k', i', hpend.congr hk' hsame (by rw [hep k' hk']) (by rw [hep _ (by omega)]) ?_ ?_ ?_⟩
    · by_cases hq : g.sender = f.sender.peer
      · simpa [hq] using hmono
      · simp [Function.update_of_ne hq]
    · by_cases hq : g.sender = f.sender.peer
      · simpa [hq] using hparity
      · simp [Function.update_of_ne hq]
    · by_cases hq : g.sender.peer = f.sender.peer
      · rw [hq, Function.update_self, Function.update_self]
        have hcovered := hpend.covers
        have hk'parity := hpend.parity
        have hadjacent := h.adjacent g.sender
        rw [hq] at hcovered hadjacent
        exact hcov k' i' hpend.opened (by omega) hpend.sealedAt.index
          (hf.position_ne hpend (header_ne_of_landed (hw ▸ h.unique) hg)) hcovered
      · have hsub : SameKeys ep ep' (n g.sender.peer + 1) := fun j hj =>
          hsame j (hj.trans (position_lt_topEpoch n _))
        rw [Function.update_of_ne hq, Function.update_of_ne hq]
        exact hpend.covers.congr hsub
  case unique =>
    have hunique := h.unique
    rw [hw] at hunique
    exact hunique.sublist (List.Sublist.append (List.Sublist.refl _) (List.sublist_cons_self _ _))

/-- A delivery of a message of the receiver's current or an earlier remote epoch. -/
theorem InSync.deliver_of_le (h : InSync P E ep n s w) (hP : P.Lawful)
    {before after : List (Flight S)} {f : Flight S} (hw : w.flights = before ++ f :: after)
    {k i : Nat} (hf : Pending P ep n s f k i) (hk : k ≤ n f.sender.peer)
    (hlimit : WithinSkipLimit P (w.session f.sender.peer P) f.message) :
    ∃ w' s', w.decryptAt f.sender.peer P E f.message = (.ok f.plaintext, w') ∧
      InSync P E ep n s' (w'.landed (before ++ after)) := by
  have hlt := position_lt_topEpoch n f.sender.peer
  have hself : Function.update n f.sender.peer (n f.sender.peer) = n := Function.update_eq_self _ _
  have hadj := h.adjacent f.sender.peer
  rw [Party.peer_peer] at hadj
  rw [h.session] at hlimit
  obtain ⟨s', draws, hrun, hdraws, -, hs', hcov⟩ :=
    ((h.synced f.sender.peer).receives_of_le hP h.ladder (Nat.le_of_lt hlt) hk hf.opened
      hf.sealedAt hf.covers hlimit (E.secretKey w.draws)).decryptAt hP (h.session _) hf.sealedAt
  have hdrawn (j : Nat)
      (hj : j ≤ topEpoch (Function.update n f.sender.peer (n f.sender.peer))) :
      ∃ d < draws, (ep j).keyPair = keyPairOf P (E.secretKey d) := by
    rw [hself] at hj
    obtain ⟨d, hd, hkey⟩ := h.drawn j hj
    exact ⟨d, Nat.lt_of_lt_of_le hd hdraws, hkey⟩
  have hlanded := h.landed hw hf (fun _ _ => rfl) (Nat.le_refl _) rfl hadj
    (by rw [hself]; exact h.ladder) hdrawn (h.opened _) hs' hcov
  rw [hself] at hlanded
  exact ⟨_, _, hrun, hlanded⟩

/-- A delivery of a message of the sender's next epoch: the receiver ratchets. -/
theorem InSync.deliver_ratchet (h : InSync P E ep n s w) (hP : P.Lawful) (hE : E.Fresh P)
    {before after : List (Flight S)} {f : Flight S} (hw : w.flights = before ++ f :: after)
    {i : Nat} (hf : Pending P ep n s f (n f.sender.peer + 2) i)
    (hsender : n f.sender = n f.sender.peer + 1)
    (hlimit : WithinSkipLimit P (w.session f.sender.peer P) f.message) :
    ∃ w' e s', w.decryptAt f.sender.peer P E f.message = (.ok f.plaintext, w') ∧ e.sent = 0 ∧
      InSync P E (Function.update ep (n f.sender.peer + 3) e)
        (Function.update n f.sender.peer (n f.sender.peer + 2)) s'
        (w'.landed (before ++ after)) := by
  have htop : topEpoch n = n f.sender.peer + 2 := by
    rw [topEpoch_eq n f.sender]
    omega
  have htop' : topEpoch (Function.update n f.sender.peer (n f.sender.peer + 2)) =
      n f.sender.peer + 3 := by
    rw [topEpoch_eq _ f.sender, Function.update_self, Function.update_of_ne f.sender.ne_peer]
    omega
  have hladder : Ladder P ep (n f.sender.peer + 2) := htop ▸ h.ladder
  have hopen : 0 < (ep (n f.sender.peer + 1)).sent := by
    have hopened := h.opened f.sender (by omega)
    rwa [hsender] at hopened
  obtain ⟨e, he, hsent, hlink⟩ := exists_linked hP
    (hladder.wellFormed _ (Nat.le_refl _)) (hE.length w.draws)
  have hlimit' := hlimit
  rw [h.session] at hlimit'
  -- no key of the new epoch can have been stored before its key pair was seen
  have hnone : (s f.sender.peer).skippedMessageKeys (f.message.skippedKeyId P) = none := by
    rw [hf.sealedAt.skippedKeyId_eq hP (hladder.wellFormed _ (Nat.le_refl _))]
    exact (h.synced _).skipped_eq_none hladder (by omega) (Nat.le_refl _) i
  obtain ⟨s', draws, hrun, -, hdraws, hs', hcov⟩ :=
    ((h.synced f.sender.peer).receives_ratchet hP hladder hopen hf.sealedAt hlimit' he hsent
      hlink).decryptAt hP (h.session _) hf.sealedAt
  have hdrawn : ∀ j ≤ n f.sender.peer + 2, ∃ d < w.draws, (ep j).keyPair =
      keyPairOf P (E.secretKey d) := htop ▸ h.drawn
  have hold (j : Nat) (hj : j ≤ n f.sender.peer + 2) :
      Function.update ep (n f.sender.peer + 3) e j = ep j := Function.update_of_ne (by omega) _ _
  refine ⟨_, e, _, hrun, hsent, h.landed hw hf (fun j hj => hold j (htop ▸ hj)) (by omega) (by omega)
    (Or.inr (by omega)) ?_ ?_ ?_ hs' hcov⟩
  · rw [htop']
    refine hladder.extend (he ▸ keyPairOf_wellFormed P (hE.length _)) ?_ hlink
    intro j hj heq
    obtain ⟨d, hd, hkey⟩ := hdrawn j hj
    rw [hkey, he] at heq
    have hdd := hE.distinct heq
    omega
  · intro j hj
    rw [htop'] at hj
    by_cases hlast : j = n f.sender.peer + 3
    · subst hlast
      exact ⟨w.draws, hdraws hnone, by rw [Function.update_self, he]⟩
    · obtain ⟨d, hd, hkey⟩ := hdrawn j (by omega)
      exact ⟨d, hd.trans (hdraws hnone), by rw [hold j (by omega), hkey]⟩
  · intro _
    rw [hold _ (Nat.le_refl _)]
    exact Nat.lt_of_le_of_lt (Nat.zero_le _) hf.sealedAt.index

/-- Delivering any message in flight returns its plaintext and keeps two sessions in step. -/
theorem InSync.deliver (h : InSync P E ep n s w) (hP : P.Lawful) (hE : E.Fresh P)
    {before after : List (Flight S)} {f : Flight S} (hw : w.flights = before ++ f :: after)
    (hlimit : WithinSkipLimit P (w.session f.sender.peer P) f.message) :
    ∃ w' ep' n' s', w.decryptAt f.sender.peer P E f.message = (.ok f.plaintext, w') ∧
      InSync P E ep' n' s' (w'.landed (before ++ after)) := by
  obtain ⟨k, i, hf⟩ := h.flights f (hw ▸ List.mem_append_right _ List.mem_cons_self)
  rcases h.epoch_cases hf with hk | ⟨rfl, hsender⟩
  · obtain ⟨w', s', hrun, hsync⟩ := h.deliver_of_le hP hw hf hk hlimit
    exact ⟨w', ep, n, s', hrun, hsync⟩
  · obtain ⟨w', e, s', hrun, -, hsync⟩ := h.deliver_ratchet hP hE hw hf hsender hlimit
    exact ⟨w', _, _, s', hrun, hsync⟩

end

end TorE2EE.Crypto
