import TorE2EE.Crypto.InSync
import TorE2EE.Crypto.SessionSetup

/-!
# Delivery in sending order

`InOrder` strengthens `InSync` for a network that delivers each party's messages in the order in
which they were sealed, and loses none: no session holds skipped keys, and the messages under way
to a party carry the headers it awaits, in the order in which it awaits them. No delivery then
passes over a key (`NextInOrder`), so the skip limit never matters.
-/

set_option autoImplicit false

namespace TorE2EE.Crypto

variable {B S : Type}

/-! ## The headers a party awaits -/

/-- The headers of the messages sealed in epoch `k` from position `received` on. -/
def chainHeaders (ep : Nat → Epoch B S) (k received : Nat) : List (S × Int) :=
  (List.range' received ((ep k).sent - received)).map fun (i : Nat) =>
    ((ep k).keyPair.publicKeyHex, (i : Int))

/-- The headers `q` awaits when it has received `received` messages of the epoch it stands at: the
rest of that epoch, then the next epoch of its peer when the peer has moved on. -/
def awaited (ep : Nat → Epoch B S) (n : Party → Nat) (received : Nat) (q : Party) :
    List (S × Int) :=
  chainHeaders ep (n q) received ++
    if n q.peer = n q + 1 then chainHeaders ep (n q + 2) 0 else []

variable {ep ep' : Nat → Epoch B S} {n : Party → Nat} {k received : Nat}

theorem chainHeaders_congr (hkey : (ep' k).keyPair = (ep k).keyPair)
    (hsent : (ep' k).sent = (ep k).sent) (received : Nat) :
    chainHeaders ep' k received = chainHeaders ep k received := by
  rw [chainHeaders, chainHeaders, hkey, hsent]

theorem chainHeaders_eq_nil (h : (ep k).sent ≤ received) : chainHeaders ep k received = [] := by
  rw [chainHeaders, Nat.sub_eq_zero_of_le h]
  rfl

theorem chainHeaders_eq_cons (h : received < (ep k).sent) :
    chainHeaders ep k received =
      ((ep k).keyPair.publicKeyHex, (received : Int)) :: chainHeaders ep k (received + 1) := by
  have hcount : (ep k).sent - received = ((ep k).sent - (received + 1)) + 1 := by omega
  rw [chainHeaders, hcount, List.range'_succ, List.map_cons, chainHeaders]

/-- Sealing one more message in epoch `k` appends its header. -/
theorem chainHeaders_sealInEpoch_self (h : received ≤ (ep k).sent) :
    chainHeaders (sealInEpoch ep k) k received =
      chainHeaders ep k received ++ [((ep k).keyPair.publicKeyHex, ((ep k).sent : Int))] := by
  have hcount : (ep k).sent + 1 - received = ((ep k).sent - received) + 1 := by omega
  have hlast : received + ((ep k).sent - received) = (ep k).sent := by omega
  simp only [chainHeaders, sealInEpoch, Function.update_self, hcount, List.range'_1_concat,
    List.map_append, List.map_cons, List.map_nil, hlast]

theorem chainHeaders_sealInEpoch_of_ne {j : Nat} (h : k ≠ j) (received : Nat) :
    chainHeaders (sealInEpoch ep j) k received = chainHeaders ep k received := by
  refine chainHeaders_congr ?_ (sent_sealInEpoch_of_ne ep h) received
  rw [sealInEpoch, Function.update_of_ne h]

/-! ## The next header -/

variable [DecidableEq S] {P : Primitives B S} {E : Entropy B}

/-- Nothing has to be passed over to reach the header of `m`. -/
def NextInOrder (P : Primitives B S) (s : SessionRecord B S) (m : EncryptedMessage S) : Prop :=
  if needsRatchet P s m then
    m.sequenceNumber = 0 ∧ m.previousChainLength = s.receiveSequenceNumber
  else m.sequenceNumber = s.receiveSequenceNumber

variable {s s' : SessionRecord B S} {m : EncryptedMessage S}

theorem NextInOrder.withinSkipLimit (h : NextInOrder P s m) : WithinSkipLimit P (some s) m := by
  rw [NextInOrder] at h
  refine Or.inr ?_
  by_cases hneeds : needsRatchet P s m = true
  · rw [if_pos hneeds] at h ⊢
    obtain ⟨hseq, hprev⟩ := h
    constructor
    · intro _
      rw [hprev]
      omega
    · rw [hseq]
      exact Int.natCast_nonneg _
  · rw [if_neg hneeds] at h ⊢
    rw [h]
    omega

/-- Skipping to the receive counter stores nothing. -/
theorem skipMessageKeys_to_self (hskip : skipMessageKeys P s s.receiveSequenceNumber = .ok s') :
    s'.skippedMessageKeys = s.skippedMessageKeys ∧
      s'.receiveSequenceNumber = s.receiveSequenceNumber := by
  rcases skipMessageKeys_cases P hskip with ⟨-, rfl⟩ | ⟨chainHex, c, remote, -, -, -, -, rfl⟩
  · exact ⟨rfl, rfl⟩
  · have hzero : ((s.receiveSequenceNumber : Int) - s.receiveSequenceNumber).toNat = 0 := by simp
    rw [hzero]
    exact ⟨passOver_zero P _ _ _ _, rfl⟩

/-- A session without skipped keys that takes the next message has none afterwards, and counts the
message. -/
theorem NextInOrder.selects (h : NextInOrder P s m)
    (hskipped : s.skippedMessageKeys = fun _ => none) {secretKey key : B}
    {saved : Nat → SessionRecord B S} (hsel : Selects P s m secretKey key saved) (now : Nat) :
    (saved now).skippedMessageKeys = (fun _ => none) ∧
      ((saved now).receiveSequenceNumber : Int) = m.sequenceNumber + 1 := by
  cases hsel with
  | skipped hfound =>
      rw [hskipped] at hfound
      cases hfound
  | @head s₁ _ _ _ hmove _ _ =>
      cases hmove with
      | stay hstay hskip =>
          rw [NextInOrder] at h
          rw [if_neg (by simp [hstay])] at h
          rw [h] at hskip ⊢
          obtain ⟨hkeys, hcount⟩ := skipMessageKeys_to_self hskip
          refine ⟨hkeys.trans hskipped, ?_⟩
          show ((s₁.receiveSequenceNumber + 1 : Nat) : Int) = _
          rw [hcount]
          rfl
      | ratchet hneeds hskip _ hskip' =>
          rw [NextInOrder] at h
          rw [if_pos hneeds] at h
          obtain ⟨hseq, hprev⟩ := h
          rw [hprev] at hskip
          obtain ⟨hkeys₁, -⟩ := skipMessageKeys_to_self hskip
          -- the new chain starts at position zero
          rw [hseq] at hskip' ⊢
          obtain ⟨hkeys, hcount⟩ := skipMessageKeys_to_self hskip'
          refine ⟨hkeys.trans (hkeys₁.trans hskipped), ?_⟩
          show ((s₁.receiveSequenceNumber + 1 : Nat) : Int) = _
          rw [hcount]
          rfl

/-- A delivery of the next message changes the session of the receiver only. -/
theorem NextInOrder.decryptAt {w w' : World B S} {q : Party} {t : S} (h : NextInOrder P s m)
    (hs : w.session q P = some s) (hskipped : s.skippedMessageKeys = fun _ => none)
    (hrun : w.decryptAt q P E m = (.ok t, w')) :
    (∃ s', w'.session q P = some s' ∧ s'.skippedMessageKeys = (fun _ => none) ∧
        (s'.receiveSequenceNumber : Int) = m.sequenceNumber + 1) ∧
      w'.session q.peer P = w.session q.peer P := by
  obtain ⟨h', hcall, rfl⟩ := w.run_of_call q P E hrun
  have hframe := callFrame_decrypt hcall
  refine ⟨?_, World.session_withHost_peer w q P hframe.identity⟩
  rw [World.session_withHost_self w q P hframe.identity]
  rw [run_decrypt_of_session P E (h := w.host q) hs] at hcall
  rcases run_decryptInSession_cases P E (w.identityKeyHex q.peer) m s (w.host q) with
    ⟨e, h₁, hfail, -⟩ | ⟨key, saved, hsel⟩
  · rw [hfail] at hcall
    cases hcall
  · obtain ⟨now, draws, hok, -⟩ := run_decryptInSession_of_selects
      (k := w.identityKeyHex q.peer) hsel
    rw [hok] at hcall
    cases (Prod.mk.inj hcall).2
    exact ⟨saved now, SignalStore.getSession_saveSession_self P _ _ _,
      h.selects hskipped hsel now⟩

/-! ## Two sessions in order -/

/-- Both sessions are in step, hold no skipped keys, and the messages under way to each party are
the ones it awaits. -/
structure InOrder (P : Primitives B S) (E : Entropy B) (ep : Nat → Epoch B S) (n : Party → Nat)
    (s : Party → SessionRecord B S) (w : World B S) : Prop extends InSync P E ep n s w where
  noSkipped : ∀ p, (s p).skippedMessageKeys = fun _ => none
  queue : ∀ q, (w.flights.filter fun f => f.sender = q.peer).map (fun f => f.message.header) =
    awaited ep n (s q).receiveSequenceNumber q

variable {n : Party → Nat} {s : Party → SessionRecord B S} {w : World B S}

omit [DecidableEq S] in
/-- Further bundles leave two sessions in order. -/
theorem InOrder.keepsSessions {p : Party} {w' : World B S} (h : InOrder P E ep n s w)
    (hw : KeepsSessions P p w w') : InOrder P E ep n s w' where
  toInSync := h.toInSync.keepsSessions hw
  noSkipped := h.noSkipped
  queue := by
    rw [hw.flights]
    exact h.queue

/-- Sealing puts the message at the end of what the peer awaits. -/
theorem InOrder.encrypt (h : InOrder P E ep n s w) (hP : P.Lawful) (hE : E.Fresh P) (p : Party)
    {plaintext : S} (htext : P.textDecode (P.textEncode plaintext) = plaintext)
    (context : Option InitialBundleContext) :
    ∃ ep' s', InOrder P E ep' n s' (w.send p P E plaintext context) := by
  obtain ⟨m, s', hsync, hflights, hheader, hkept⟩ := h.toInSync.encrypt hP hE p htext context
  refine ⟨_, s', hsync, fun q => ((hkept q).1).trans (h.noSkipped q), ?_⟩
  intro q
  have hqueue := h.queue q
  have hadj := h.adjacent p
  rw [hflights, (hkept q).2, List.filter_append, List.map_append, hqueue]
  by_cases hq : q = p
  · -- nothing new is under way to the sender
    subst hq
    have hone : n q + 1 ≠ n q := by omega
    simp only [awaited, chainHeaders_sealInEpoch_of_ne (k := n q) (j := n q + 1) (by omega),
      chainHeaders_sealInEpoch_of_ne (k := n q + 2) (j := n q + 1) (by omega)]
    simp
  · have hqp := Party.eq_peer_of_ne hq
    subst hqp
    have hlast : List.map (fun f => f.message.header)
        (List.filter (fun f => decide (f.sender = p.peer.peer))
          [({ sender := p, plaintext, message := m } : Flight S)]) =
        [((ep (n p + 1)).keyPair.publicKeyHex, ((ep (n p + 1)).sent : Int))] := by
      simp [hheader]
    rw [hlast, awaited, awaited, Party.peer_peer]
    rcases hadj with hbehind | hahead
    · -- the peer still stands at the sender's epoch
      have hrecv : (s p.peer).receiveSequenceNumber ≤ (ep (n p + 1)).sent := by
        rw [← hbehind]
        exact (h.synced p.peer).received
      have hno : ¬ n p = n p + 1 + 1 := by omega
      rw [hbehind, if_neg hno, if_neg hno, List.append_nil, List.append_nil,
        chainHeaders_sealInEpoch_self hrecv]
    · rw [if_pos hahead, if_pos hahead, chainHeaders_sealInEpoch_of_ne (by omega),
        List.append_assoc]
      have htwo : n p.peer + 2 = n p + 1 := by omega
      rw [htwo, chainHeaders_sealInEpoch_self (Nat.zero_le _)]

omit [DecidableEq S] in
/-- The message delivered leaves the queue of its receiver. -/
theorem queue_of_deliver {before after : List (Flight S)} {f : Flight S}
    (hfirst : ∀ g ∈ before, g.sender ≠ f.sender) :
    (before ++ f :: after).filter (fun g => g.sender = f.sender) =
      f :: (before ++ after).filter (fun g => g.sender = f.sender) := by
  have hbefore : before.filter (fun g => g.sender = f.sender) = [] := by
    rw [List.filter_eq_nil_iff]
    intro g hg
    simpa using hfirst g hg
  simp [List.filter_append, hbefore]

omit [DecidableEq S] in
/-- The other queue stays. -/
theorem queue_of_deliver_other {before after : List (Flight S)} {f : Flight S} {p : Party}
    (hp : f.sender ≠ p) :
    (before ++ f :: after).filter (fun g => g.sender = p) =
      (before ++ after).filter (fun g => g.sender = p) := by
  simp [List.filter_append, hp]

/-- Delivering the oldest message of a party returns its plaintext and keeps two sessions in
order. -/
theorem InOrder.deliver (h : InOrder P E ep n s w) (hP : P.Lawful) (hE : E.Fresh P)
    {before after : List (Flight S)} {f : Flight S} (hw : w.flights = before ++ f :: after)
    (hfirst : ∀ g ∈ before, g.sender ≠ f.sender) :
    ∃ w' ep' n' s', w.decryptAt f.sender.peer P E f.message = (.ok f.plaintext, w') ∧
      InOrder P E ep' n' s' (w'.landed (before ++ after)) := by
  generalize hq : f.sender.peer = q
  have hsender : f.sender = q.peer := by rw [← hq, Party.peer_peer]
  obtain ⟨k, i, hf⟩ := h.flights f (hw ▸ List.mem_append_right _ List.mem_cons_self)
  have hadj := h.adjacent q
  have hktop := hf.le_topEpoch
  have hqtop := position_lt_topEpoch n q
  have hheader : f.message.header = ((ep k).keyPair.publicKeyHex, (i : Int)) := by
    rw [EncryptedMessage.header, hf.sealedAt.key, hf.sealedAt.sequence]
  have hqueue := h.queue q
  have hother := h.queue q.peer
  rw [hw, ← hsender, queue_of_deliver hfirst, List.map_cons, hheader] at hqueue
  rw [hw, queue_of_deliver_other (by rw [hsender]; simp)] at hother
  -- what is left to show once the delivery has been computed
  have hfinish {w' : World B S} {ep' : Nat → Epoch B S} {n' : Party → Nat}
      {s' : Party → SessionRecord B S} (hnext : NextInOrder P (s q) f.message)
      (hrun : w.decryptAt q P E f.message = (.ok f.plaintext, w'))
      (hsync : InSync P E ep' n' s' (w'.landed (before ++ after)))
      (hrest : ((before ++ after).filter fun g => g.sender = f.sender).map
        (fun g => g.message.header) = awaited ep' n' (i + 1) q)
      (hrest' : awaited ep n (s q.peer).receiveSequenceNumber q.peer =
        awaited ep' n' (s q.peer).receiveSequenceNumber q.peer) :
      InOrder P E ep' n' s' (w'.landed (before ++ after)) := by
    obtain ⟨⟨s₁, hs₁, hkeys, hcount⟩, hpeer⟩ :=
      hnext.decryptAt (h.session q) (h.noSkipped q) hrun
    have hsq : s' q = s₁ := Option.some.inj ((hsync.session q).symm.trans hs₁)
    have hsp : s' q.peer = s q.peer :=
      Option.some.inj ((hsync.session q.peer).symm.trans (hpeer.trans (h.session q.peer)))
    refine ⟨hsync, ?_, ?_⟩
    · intro p
      by_cases hp : p = q
      · rw [hp, hsq, hkeys]
      · rw [Party.eq_peer_of_ne hp, hsp, h.noSkipped]
    · intro p
      show ((before ++ after).filter _).map _ = _
      by_cases hp : p = q
      · have hrecv : s₁.receiveSequenceNumber = i + 1 := by
          rw [hf.sealedAt.sequence] at hcount
          exact_mod_cast hcount
        rw [hp, hsq, hrecv, ← hrest, hsender]
      · rw [Party.eq_peer_of_ne hp, hsp, ← hrest', ← hother]
  by_cases hmore : (s q).receiveSequenceNumber < (ep (n q)).sent
  · -- the next message of the epoch the receiver stands at
    rw [awaited, chainHeaders_eq_cons hmore, List.cons_append, List.cons.injEq] at hqueue
    obtain ⟨hhead, hrest⟩ := hqueue
    obtain ⟨hkey, hpos⟩ := Prod.mk.inj hhead
    obtain rfl : k = n q := h.ladder.distinct k hktop (n q) (Nat.le_of_lt hqtop) hkey
    have hi : i = (s q).receiveSequenceNumber := by exact_mod_cast hpos
    have hstay : needsRatchet P (s q) f.message = false := by
      rw [← Bool.not_eq_true,
        (h.synced q).needsRatchet hP h.ladder (Nat.le_of_lt hqtop) hktop hf.sealedAt.key]
      simp
    have hnext : NextInOrder P (s q) f.message := by
      rw [NextInOrder, if_neg (by simp [hstay]), hf.sealedAt.sequence, hi]
    obtain ⟨w', s', hrun, hsync⟩ := h.deliver_of_le hP hw hf (by rw [hq]) (by
      rw [hq, h.session]
      exact hnext.withinSkipLimit)
    rw [hq] at hrun
    exact ⟨w', ep, n, s', hrun, hfinish hnext hrun hsync (by rw [hrest, hi, awaited]) rfl⟩
  · -- the first message of the peer's next epoch
    have hrecv : (s q).receiveSequenceNumber = (ep (n q)).sent :=
      Nat.le_antisymm (h.synced q).received (Nat.le_of_not_lt hmore)
    rw [awaited, chainHeaders_eq_nil (Nat.le_of_not_lt hmore), List.nil_append] at hqueue
    by_cases hahead : n q.peer = n q + 1
    · have hsent : 0 < (ep (n q + 2)).sent := by
        by_contra hzero
        rw [if_pos hahead, chainHeaders_eq_nil (by omega)] at hqueue
        cases hqueue
      rw [if_pos hahead, chainHeaders_eq_cons hsent, List.cons.injEq] at hqueue
      obtain ⟨hhead, hrest⟩ := hqueue
      obtain ⟨hkey, hpos⟩ := Prod.mk.inj hhead
      have htop : topEpoch n = n q + 2 := by
        rw [topEpoch_eq n q]
        omega
      obtain rfl : k = n q + 2 := h.ladder.distinct k hktop (n q + 2) (by omega) hkey
      have hi : i = 0 := by exact_mod_cast hpos
      subst hi
      have hneeds : needsRatchet P (s q) f.message = true := by
        rw [(h.synced q).needsRatchet hP h.ladder (Nat.le_of_lt hqtop) hktop hf.sealedAt.key]
        omega
      have hnext : NextInOrder P (s q) f.message := by
        rw [NextInOrder, if_pos hneeds, hf.sealedAt.sequence, hf.sealedAt.previous, hrecv]
        exact ⟨rfl, rfl⟩
      subst hq
      obtain ⟨w', e, s', hrun, hzero, hsync⟩ := h.deliver_ratchet hP hE hw hf
        (by rw [Party.peer_peer] at hahead; exact hahead) (by
          rw [h.session]
          exact hnext.withinSkipLimit)
      have hold (j : Nat) (hj : j ≤ n f.sender.peer + 2) (received : Nat) :
          chainHeaders (Function.update ep (n f.sender.peer + 3) e) j received =
            chainHeaders ep j received := by
        refine chainHeaders_congr ?_ ?_ received
        · rw [Function.update_of_ne (by omega)]
        · rw [Function.update_of_ne (by omega)]
      rw [Party.peer_peer] at hahead
      refine ⟨w', _, _, s', hrun, hfinish hnext hrun hsync ?_ ?_⟩
      · rw [hrest, awaited, Function.update_self, hold _ (Nat.le_refl _), Party.peer_peer,
          Function.update_of_ne f.sender.ne_peer, if_neg (by omega), List.append_nil]
      · -- the receiver's new epoch is empty
        have hempty : chainHeaders (Function.update ep (n f.sender.peer + 3) e) (n f.sender + 2) 0 =
            [] := by
          apply chainHeaders_eq_nil
          rw [hahead, Function.update_self, hzero]
        rw [Party.peer_peer, awaited, awaited, Function.update_of_ne f.sender.ne_peer,
          Function.update_self, hold _ (by omega), if_neg (by omega), if_pos (by omega), hempty]
    · rw [if_neg hahead] at hqueue
      cases hqueue

end TorE2EE.Crypto
