import TorE2EE.Crypto.FirstContact
import TorE2EE.Crypto.InOrder
import TorE2EE.Crypto.Symbolic

/-!
# Initiating again

Two parties that may both call `initiateSession` on the bundle the other has exported, at any time,
on a network that delivers in sending order and loses nothing. `initiateSession` overwrites the
session there is, and a party that has a session never answers as a responder, so two initiations
that do not see each other leave two sessions with different master secrets.

`Correspondence.initiations_keep_plaintext`: every message is decrypted to its plaintext as long as
every initiation is made while the peer has no session and nothing of the initiator is under way.
`initiations_can_clash` has a run where both parties import each other's contact.
-/

set_option autoImplicit false

namespace TorE2EE.Crypto

open TorE2EE.Foundation

variable {B S : Type}

/-! ## Runs -/

/-- The key pairs of both stores are well formed, and their signed prekeys were drawn before. -/
structure Grounded (P : Primitives B S) (E : Entropy B) (w : World B S) : Prop where
  wellFormed : ∀ p, (w.store p).WellFormed P
  signedPreKeys : ∀ p, ∀ spk ∈ (w.store p).signedPreKeys,
    ∃ d < w.draws, spk.keyPair = keyPairOf P (E.secretKey d)

/-- Neither party has a session with the other, and nothing is in flight. -/
structure Unacquainted (P : Primitives B S) (w : World B S) : Prop where
  sessions : ∀ p, w.session p P = none
  flights : w.flights = []

/-- `p` may initiate a session: its peer has none yet, and no message of `p` is under way. -/
def MayInitiate (P : Primitives B S) (w : World B S) (p : Party) : Prop :=
  w.session p.peer P = none ∧ ∀ f ∈ w.flights, f.sender ≠ p

/-- The peer of `p` has initiated a session that `p` has not answered: the bundle of `p` is in
use. -/
def BundleInUse (P : Primitives B S) (w : World B S) (p : Party) : Prop :=
  w.session p P = none ∧ w.session p.peer P ≠ none

/-- A bundle context of `encrypt` names no other one-time prekey than the session does. -/
def OwnContext (P : Primitives B S) (w : World B S) (p : Party)
    (context : Option InitialBundleContext) : Prop :=
  ∀ s, w.session p P = some s → ∀ id, context.bind InitialBundleContext.oneTimePreKeyId = some id →
    s.oneTimePreKeyId = some id

variable [DecidableEq S]

/-- The states of a correspondence whose initiations are all `allowed`. A session is initiated on a
bundle that is valid at that time, and the bundle stays valid until it has served. -/
inductive Correspondence (P : Primitives B S) (E : Entropy B)
    (allowed : World B S → Party → Prop) : World B S → Prop where
  | start {w : World B S} : Grounded P E w → Unacquainted P w → Correspondence P E allowed w
  | generate {w : World B S} (p : Party) (count : Nat) : Correspondence P E allowed w →
      ¬ BundleInUse P w p → Correspondence P E allowed (w.generate p P E count).2
  | initiate {w : World B S} (p : Party) {bundle : PreKeyBundle S} :
      Correspondence P E allowed w → UsableBundle (w.store p.peer) bundle → allowed w p →
      Correspondence P E allowed (w.initiate p P E bundle).2
  | encrypt {w : World B S} (p : Party) {plaintext : S} {context : Option InitialBundleContext} :
      Correspondence P E allowed w → P.textDecode (P.textEncode plaintext) = plaintext →
      OwnContext P w p context → Correspondence P E allowed (w.send p P E plaintext context)
  | deliver {w : World B S} {before after : List (Flight S)} {f : Flight S} :
      Correspondence P E allowed w → w.flights = before ++ f :: after →
      (∀ g ∈ before, g.sender ≠ f.sender) →
      Correspondence P E allowed
        ((w.decryptAt f.sender.peer P E f.message).2.landed (before ++ after))

variable {P : Primitives B S} {E : Entropy B} {w w' : World B S}

/-! ## The phases of a correspondence -/

/-- `ini` has initiated a session on a bundle its peer can still use, and the messages in flight are
the ones it has sealed since. -/
structure Opened (P : Primitives B S) (E : Entropy B) (ini : Party) (bundle : PreKeyBundle S)
    (ep : Nat → Epoch B S) (s : SessionRecord B S) (w : World B S) : Prop
    extends Opening P E ini bundle ep s w where
  grounded : Grounded P E w
  usable : UsableBundle (w.store ini.peer) bundle
  sessionId : s.oneTimePreKeyId = bundle.oneTimePreKey.map PublicOneTimePreKey.keyId
  noSkipped : s.skippedMessageKeys = fun _ => none
  queue : w.flights.map (fun f => f.message.header) = chainHeaders ep 1 0
  carried : ∀ f ∈ w.flights, f.message.sequenceNumber = 0 →
    f.message.oneTimePreKeyId = bundle.oneTimePreKey.map PublicOneTimePreKey.keyId

/-- Where a correspondence stands. -/
inductive Phase (P : Primitives B S) (E : Entropy B) (w : World B S) : Prop where
  | idle : Grounded P E w → Unacquainted P w → Phase P E w
  | opened {ini : Party} {bundle : PreKeyBundle S} {ep : Nat → Epoch B S} {s : SessionRecord B S} :
      Opened P E ini bundle ep s w → Phase P E w
  | inOrder {ep : Nat → Epoch B S} {n : Party → Nat} {s : Party → SessionRecord B S} :
      InOrder P E ep n s w → Phase P E w

/-! ## Bundles -/

omit [DecidableEq S] in
theorem Unacquainted.keepsSessions {p : Party} (h : Unacquainted P w)
    (hw : KeepsSessions P p w w') : Unacquainted P w' where
  sessions q := by rw [hw.session_eq, h.sessions]
  flights := by rw [hw.flights, h.flights]

omit [DecidableEq S] in
/-- A call of `p` that leaves a well-formed store with known signed prekeys keeps the ground. -/
theorem Grounded.withHost (h : Grounded P E w) {p : Party} {h' : Host B S}
    (hwf : h'.store.WellFormed P)
    (hspk : ∀ spk ∈ h'.store.signedPreKeys,
      ∃ d < h'.draws, spk.keyPair = keyPairOf P (E.secretKey d))
    (hdraws : w.draws ≤ h'.draws) : Grounded P E (w.withHost p h') where
  wellFormed q := by
    by_cases hq : q = p
    · subst hq
      rw [World.store_withHost_self]
      exact hwf
    · rw [World.store_withHost_of_ne w hq]
      exact h.wellFormed q
  signedPreKeys q spk hmem := by
    by_cases hq : q = p
    · subst hq
      rw [World.store_withHost_self] at hmem
      exact hspk spk hmem
    · rw [World.store_withHost_of_ne w hq] at hmem
      obtain ⟨d, hd, hkey⟩ := h.signedPreKeys q spk hmem
      exact ⟨d, Nat.lt_of_lt_of_le hd hdraws, hkey⟩

omit [DecidableEq S] in
theorem Grounded.lt_draws (h : Grounded P E w) (p : Party) {draws : Nat}
    (hdraws : w.draws ≤ draws) : ∀ spk ∈ (w.store p).signedPreKeys,
      ∃ d < draws, spk.keyPair = keyPairOf P (E.secretKey d) := by
  intro spk hmem
  obtain ⟨d, hd, hkey⟩ := h.signedPreKeys p spk hmem
  exact ⟨d, Nat.lt_of_lt_of_le hd hdraws, hkey⟩

theorem Grounded.generate (h : Grounded P E w) (hE : E.Fresh P) (p : Party) (count : Nat) :
    Grounded P E (w.generate p P E count).2 := by
  rcases run_generatePreKeyBundle_cases P E count (w.host p) with
    ⟨e, hfail⟩ | ⟨signatureHex, -, hok⟩
  · rw [show w.generate p P E count = _ from w.call_of_run p P E hfail]
    exact h.withHost (h.wellFormed p) (h.lt_draws p (Nat.le_add_right _ _)) (Nat.le_add_right _ _)
  · rw [show w.generate p P E count = _ from w.call_of_run p P E hok]
    have hlater : w.draws < w.draws + 3 + 2 * count := by omega
    refine h.withHost ((h.wellFormed p).withBundle hE _ _ _) ?_ (Nat.le_of_lt hlater)
    intro spk hmem
    simp only [SignalStore.withBundle, SignalStore.signedPreKeys_withOneTimePreKeys,
      SignalStore.saveSignedPreKey] at hmem
    rcases Rows.mem_of_mem_upsert SignedPreKey.keyId hmem with rfl | hold
    · exact ⟨w.draws, hlater, rfl⟩
    · exact h.lt_draws p (Nat.le_of_lt hlater) spk hold

theorem Grounded.send (h : Grounded P E w) (p : Party) (plaintext : S)
    (context : Option InitialBundleContext) : Grounded P E (w.send p P E plaintext context) := by
  simp only [World.send, World.encryptTo]
  rcases run_encrypt_cases P E (w.identityKeyHex p.peer) plaintext context (w.host p) with
    ⟨e, hfail⟩ | ⟨stored, s, chainHex, c, -, -, -, hok⟩
  · rw [w.call_of_run p P E hfail]
    exact h.withHost (h.wellFormed p) (h.signedPreKeys p) (Nat.le_refl _)
  · rw [w.call_of_run p P E hok]
    have hwf := h.wellFormed p
    have hsaved : Grounded P E (w.withHost p
        { store := (w.host p).store.saveSession P (w.identityKeyHex p.peer)
            (s.sealedOnce P c (E.now (w.host p).draws))
          draws := (w.host p).draws + 2 }) :=
      h.withHost ⟨hwf.identity, hwf.signedPreKeys, hwf.oneTimePreKeys⟩
        (h.lt_draws p (Nat.le_add_right _ _)) (Nat.le_add_right _ _)
    exact ⟨hsaved.wellFormed, hsaved.signedPreKeys⟩

/-- A bundle may be generated while none of the party's bundles is in use. -/
theorem Phase.generate (h : Phase P E w) (hE : E.Fresh P) (p : Party) (count : Nat)
    (huse : ¬ BundleInUse P w p) : Phase P E (w.generate p P E count).2 := by
  have hkeep := keepsSessions_generate hE w p count
  cases h with
  | idle hground hnone => exact .idle (hground.generate hE p count) (hnone.keepsSessions hkeep)
  | @opened ini bundle ep s hopen =>
      -- the responder's bundle is in use, so the initiator generates
      have hp : p = ini := by
        by_contra hne
        apply huse
        rw [Party.eq_peer_of_ne hne]
        refine ⟨hopen.noSession, ?_⟩
        rw [Party.peer_peer, hopen.session]
        exact Option.some_ne_none s
      subst hp
      have hopen' : Opened P E p bundle ep s (w.generate p P E count).2 := by
        refine ⟨hopen.toOpening.keepsSessions hkeep, hopen.grounded.generate hE p count, ?_,
          hopen.sessionId, hopen.noSkipped, ?_, ?_⟩
        · rw [hkeep.peer]
          exact hopen.usable
        · rw [hkeep.flights]
          exact hopen.queue
        · rw [hkeep.flights]
          exact hopen.carried
      exact .opened hopen'
  | inOrder hsync => exact .inOrder (hsync.keepsSessions hkeep)

/-! ## Initiations -/

/-- A session that has just been initiated holds no skipped keys. -/
theorem skipped_of_initiate {p : Party} {bundle : PreKeyBundle S} {s : SessionRecord B S}
    (hrun : w.initiate p P E bundle = (.ok s, w')) : s.skippedMessageKeys = fun _ => none := by
  obtain ⟨h', hcall, -⟩ := w.run_of_call p P E hrun
  rcases run_initiateSession_cases P E bundle.identityKeyHex bundle (w.host p) with
    ⟨e, h₁, hfail, -⟩ | ⟨dhs, initialDh, hin⟩
  · rw [hfail] at hcall
    cases hcall
  · rw [run_initiateSession_of_inputs hin] at hcall
    cases hcall
    rfl

/-- A failed initiation changes no store. -/
theorem keepsSessions_of_failed_initiate {p : Party} {bundle : PreKeyBundle S} {e : EngineError S}
    (hrun : w.initiate p P E bundle = (.error e, w')) :
    KeepsSessions P p w w' ∧ ∀ q, w'.store q = w.store q := by
  obtain ⟨h', hcall, rfl⟩ := w.run_of_call p P E hrun
  rcases run_initiateSession_cases P E bundle.identityKeyHex bundle (w.host p) with
    ⟨e, h₁, hfail, hstore, hdraws⟩ | ⟨dhs, initialDh, hin⟩
  · rw [hfail] at hcall
    cases hcall
    have hsame (q : Party) : (w.withHost p h').store q = w.store q := by
      by_cases hq : q = p
      · subst hq
        rw [World.store_withHost_self, hstore]
        rfl
      · rw [World.store_withHost_of_ne w hq]
    exact ⟨⟨hsame _, by rw [hsame], fun k => by rw [hsame], fun hwf => by rwa [hsame], hdraws, rfl⟩,
      hsame⟩
  · rw [run_initiateSession_of_inputs hin] at hcall
    cases hcall

/-- An initiation on a valid bundle, with no session of the peer and nothing in flight, opens a
conversation. -/
theorem opened_of_initiate {p : Party} {bundle : PreKeyBundle S} {s : SessionRecord B S}
    (hP : P.Lawful) (hE : E.Fresh P) (hground : Grounded P E w)
    (hnone : w.session p.peer P = none) (hflights : w.flights = [])
    (husable : UsableBundle (w.store p.peer) bundle)
    (hrun : w.initiate p P E bundle = (.ok s, w')) : ∃ ep, Opened P E p bundle ep s w' := by
  obtain ⟨spk, hlatest, hhex⟩ := husable.signedPreKey
  obtain ⟨d, hd, hkey⟩ := hground.signedPreKeys p.peer spk (List.argmax_mem hlatest)
  obtain ⟨hw', hotk, ep, hopen, hsent⟩ := opening_of_initiate p hP hE (hground.wellFormed p).identity
    (hground.wellFormed p.peer) hnone hflights husable.identityKey hd (by rw [← hhex, hkey]) hrun
  have hempty : w'.flights = [] := by rw [hw', World.flights_saving, hflights]
  refine ⟨ep, hopen, ?_, ?_, hotk, skipped_of_initiate hrun, ?_, ?_⟩
  · rw [hw', World.saving]
    exact hground.withHost
      ⟨(hground.wellFormed p).identity, (hground.wellFormed p).signedPreKeys,
        (hground.wellFormed p).oneTimePreKeys⟩
      (hground.lt_draws p (Nat.le_add_right _ _)) (Nat.le_add_right _ _)
  · rw [hw', World.saving, World.store_withHost_peer]
    exact husable
  · rw [hempty, chainHeaders_eq_nil (by rw [hsent])]
    rfl
  · rw [hempty]
    intro f hf
    cases hf

omit [DecidableEq S] in
/-- A failed initiation keeps the phase. -/
theorem Phase.of_store (h : Phase P E w) {p : Party} (hkeep : KeepsSessions P p w w')
    (hstore : ∀ q, w'.store q = w.store q) : Phase P E w' := by
  have hground (hg : Grounded P E w) : Grounded P E w' := by
    constructor
    · intro q
      rw [hstore]
      exact hg.wellFormed q
    · intro q
      rw [hstore]
      exact hg.lt_draws q hkeep.draws
  cases h with
  | idle hg hnone => exact .idle (hground hg) (hnone.keepsSessions hkeep)
  | @opened ini bundle ep s hopen =>
      have hopen' : Opened P E ini bundle ep s w' := by
        refine ⟨hopen.toOpening.keepsSessions hkeep, hground hopen.grounded, ?_, hopen.sessionId,
          hopen.noSkipped, ?_, ?_⟩
        · rw [hstore]
          exact hopen.usable
        · rw [hkeep.flights]
          exact hopen.queue
        · rw [hkeep.flights]
          exact hopen.carried
      exact .opened hopen'
  | inOrder hsync => exact .inOrder (hsync.keepsSessions hkeep)

omit [DecidableEq S] in
/-- A party that may initiate finds nothing in flight. -/
theorem Phase.quiet (h : Phase P E w) {p : Party} (hmay : MayInitiate P w p) :
    Grounded P E w ∧ w.flights = [] := by
  obtain ⟨hnone, hflights⟩ := hmay
  cases h with
  | idle hground hidle => exact ⟨hground, hidle.flights⟩
  | @opened ini bundle ep s hopen =>
      have hp : p = ini := by
        by_contra hne
        rw [Party.eq_peer_of_ne hne, Party.peer_peer, hopen.session] at hnone
        cases hnone
      subst hp
      refine ⟨hopen.grounded, ?_⟩
      apply List.eq_nil_iff_forall_not_mem.2
      intro f hf
      exact hflights f hf (hopen.flights f hf).1
  | inOrder hsync =>
      rw [hsync.session] at hnone
      cases hnone

theorem Phase.initiate (h : Phase P E w) (hP : P.Lawful) (hE : E.Fresh P) {p : Party}
    {bundle : PreKeyBundle S} (husable : UsableBundle (w.store p.peer) bundle)
    (hmay : MayInitiate P w p) : Phase P E (w.initiate p P E bundle).2 := by
  cases hrun : w.initiate p P E bundle with
  | mk r w' =>
      cases r with
      | error e =>
          obtain ⟨hkeep, hstore⟩ := keepsSessions_of_failed_initiate hrun
          exact h.of_store hkeep hstore
      | ok s =>
          obtain ⟨hground, hflights⟩ := h.quiet hmay
          obtain ⟨ep, hopen⟩ := opened_of_initiate hP hE hground hmay.1 hflights husable hrun
          exact .opened hopen

/-! ## Messages -/

omit [DecidableEq S] in
theorem carried_of_ownContext {p : Party} {s : SessionRecord B S}
    {context : Option InitialBundleContext} (hcontext : OwnContext P w p context)
    (hs : w.session p P = some s) (hzero : s.sendSequenceNumber = 0) :
    carriedOneTimePreKeyId s context = s.oneTimePreKeyId := by
  cases hid : context.bind InitialBundleContext.oneTimePreKeyId with
  | none => simp [carriedOneTimePreKeyId, hid, hzero]
  | some id => rw [carriedOneTimePreKeyId, hid, hcontext s hs id hid]

theorem Opened.encrypt {ini : Party} {bundle : PreKeyBundle S} {ep : Nat → Epoch B S}
    {s : SessionRecord B S} (h : Opened P E ini bundle ep s w) (hP : P.Lawful) (hE : E.Fresh P)
    {plaintext : S} {context : Option InitialBundleContext}
    (htext : P.textDecode (P.textEncode plaintext) = plaintext)
    (hcontext : OwnContext P w ini context) :
    ∃ ep' s', Opened P E ini bundle ep' s' (w.send ini P E plaintext context) := by
  obtain ⟨m, s', hopen, hflights, hstore, hotk, hseq, -, hskip, hcarried⟩ :=
    h.toOpening.encrypt hP hE htext context
  have hsent : s.sendSequenceNumber = (ep 1).sent := h.synced.sent
  -- the header is that of the next message in line
  have hheader : m.header = ((ep 1).keyPair.publicKeyHex, ((ep 1).sent : Int)) := by
    have hmem : ({ sender := ini, plaintext, message := m } : Flight S) ∈
        (w.send ini P E plaintext context).flights := by
      rw [hflights]
      exact List.mem_append_right _ (List.mem_singleton.2 rfl)
    obtain ⟨-, i, hm⟩ := hopen.flights _ hmem
    have hkey := hm.sealedAt.key
    rw [(sameKeys_sealInEpoch ep 1 1 1 (Nat.le_refl 1)).1] at hkey
    rw [EncryptedMessage.header, hkey, hseq, hsent]
  refine ⟨_, s', hopen, ?_, hstore ▸ h.usable, hotk.trans h.sessionId, hskip.trans h.noSkipped, ?_,
    ?_⟩
  · exact h.grounded.send ini plaintext context
  · rw [hflights, List.map_append, h.queue, chainHeaders_sealInEpoch_self (Nat.zero_le _)]
    simp [hheader]
  · intro f hf hzero
    rw [hflights] at hf
    rcases List.mem_append.1 hf with hold | hnew
    · exact h.carried f hold hzero
    · rw [List.mem_singleton] at hnew
      subst hnew
      have hfirst : s.sendSequenceNumber = 0 := by
        rw [hseq] at hzero
        exact_mod_cast hzero
      show m.oneTimePreKeyId = _
      rw [hcarried, carried_of_ownContext hcontext h.session hfirst, h.sessionId]

theorem Phase.encrypt (h : Phase P E w) (hP : P.Lawful) (hE : E.Fresh P) (p : Party)
    {plaintext : S} {context : Option InitialBundleContext}
    (htext : P.textDecode (P.textEncode plaintext) = plaintext)
    (hcontext : OwnContext P w p context) : Phase P E (w.send p P E plaintext context) := by
  cases h with
  | idle hground hnone =>
      rw [World.send_of_no_session w p P E (hnone.sessions p)]
      exact .idle hground hnone
  | @opened ini bundle ep s hopen =>
      by_cases hp : p = ini
      · subst hp
        obtain ⟨ep', s', hopen'⟩ := hopen.encrypt hP hE htext hcontext
        exact .opened hopen'
      · have hnone : w.session p P = none := by
          rw [Party.eq_peer_of_ne hp]
          exact hopen.noSession
        rw [World.send_of_no_session w p P E hnone]
        exact .opened hopen
  | inOrder hsync =>
      obtain ⟨ep', s', hsync'⟩ := hsync.encrypt hP hE p htext context
      exact .inOrder hsync'

/-- The first message that arrives is the first one that was sealed: the responder answers it, and
both sessions are in order from then on. -/
theorem Opened.deliver {ini : Party} {bundle : PreKeyBundle S} {ep : Nat → Epoch B S}
    {s : SessionRecord B S} (h : Opened P E ini bundle ep s w) (hP : P.Lawful) (hE : E.Fresh P)
    {before after : List (Flight S)} {f : Flight S} (hw : w.flights = before ++ f :: after)
    (hfirst : ∀ g ∈ before, g.sender ≠ f.sender) :
    ∃ w' ep' n' s', w.decryptAt f.sender.peer P E f.message = (.ok f.plaintext, w') ∧
      InOrder P E ep' n' s' (w'.landed (before ++ after)) := by
  have hf : f ∈ w.flights := hw ▸ List.mem_append_right _ List.mem_cons_self
  obtain ⟨hsender, i, hm⟩ := h.flights f hf
  have hzero : f.message.sequenceNumber = 0 := by
    -- all messages are the initiator's, so the one delivered is the head of the queue
    have hnone : before = [] := by
      apply List.eq_nil_iff_forall_not_mem.2
      intro g hg
      have hgmem : g ∈ w.flights := hw ▸ List.mem_append_left _ hg
      exact hfirst g hg ((h.flights g hgmem).1.trans hsender.symm)
    have hqueue := h.queue
    rw [hw, hnone, List.nil_append, List.map_cons,
      chainHeaders_eq_cons (Nat.lt_of_le_of_lt (Nat.zero_le i) hm.sealedAt.index),
      List.cons.injEq] at hqueue
    exact congrArg Prod.snd hqueue.1
  obtain ⟨spk, hspk, hspkHex⟩ := h.usable.signedPreKey
  have hlimit : WithinSkipLimit P (w.session ini.peer P) f.message := by
    rw [h.noSession, WithinSkipLimit, hzero]
    exact Int.natCast_nonneg _
  obtain ⟨w₁, e, s₀, hsync, hsent, hrecv, hskipped, hflights, -, hrun⟩ :=
    h.toOpening.contact hP hE hf hspk hspkHex (h.usable.takesOneTimePreKey (h.carried f hf hzero))
      hlimit
  have hne : ini.peer ≠ ini := ini.peer_ne
  have hold (j : Nat) (hj : j ≤ 1) : Function.update ep 2 e j = ep j :=
    Function.update_of_ne (by omega) _ _
  have horder : InOrder P E (Function.update ep 2 e) (Function.update (fun _ => 1) ini 0)
      (Function.update (fun _ => s₀) ini s) w₁ := by
    refine ⟨hsync, ?_, ?_⟩
    · intro p
      by_cases hp : p = ini
      · subst hp
        rw [Function.update_self, h.noSkipped]
      · rw [Function.update_of_ne hp, hskipped]
    · intro q
      rw [hflights]
      by_cases hq : q = ini
      · -- nothing is under way to the initiator
        subst hq
        have hnone : w.flights.filter (fun g => g.sender = q.peer) = [] := by
          rw [List.filter_eq_nil_iff]
          intro g hg
          simp [(h.flights g hg).1]
        have hempty : chainHeaders (Function.update ep 2 e) 0
            s.receiveSequenceNumber = [] := by
          apply chainHeaders_eq_nil
          rw [hold 0 (by omega), h.initiated.ladder.first]
          exact Nat.zero_le _
        have hempty' : chainHeaders (Function.update ep 2 e) (0 + 2) 0 = [] := by
          apply chainHeaders_eq_nil
          rw [Function.update_self, hsent]
        rw [hnone, awaited, Function.update_self, Function.update_self, hempty, hempty']
        simp
      · have hall : w.flights.filter (fun g => g.sender = ini) = w.flights := by
          rw [List.filter_eq_self]
          intro g hg
          simp [(h.flights g hg).1]
        have hchain : chainHeaders (Function.update ep 2 e) 1 0 = chainHeaders ep 1 0 :=
          chainHeaders_congr (by rw [hold 1 (Nat.le_refl 1)]) (by rw [hold 1 (Nat.le_refl 1)]) 0
        rw [Party.eq_peer_of_ne hq, Party.peer_peer, hall, h.queue, awaited, Party.peer_peer,
          Function.update_self, Function.update_of_ne hne, Function.update_of_ne hne, hrecv, hchain]
        simp
  obtain ⟨w', ep', n', s', hrun', horder'⟩ := horder.deliver hP hE (hflights.trans hw) hfirst
  refine ⟨w', ep', n', s', ?_, horder'⟩
  rw [← hrun', hsender, hrun]

/-- A delivery in sending order returns the plaintext and keeps a correspondence going. -/
theorem Phase.deliver (h : Phase P E w) (hP : P.Lawful) (hE : E.Fresh P)
    {before after : List (Flight S)} {f : Flight S} (hw : w.flights = before ++ f :: after)
    (hfirst : ∀ g ∈ before, g.sender ≠ f.sender) :
    ∃ w', w.decryptAt f.sender.peer P E f.message = (.ok f.plaintext, w') ∧
      Phase P E (w'.landed (before ++ after)) := by
  cases h with
  | idle _ hnone =>
      rw [hnone.flights] at hw
      simp at hw
  | opened hopen =>
      obtain ⟨w', ep', n', s', hrun, horder⟩ := hopen.deliver hP hE hw hfirst
      exact ⟨w', hrun, .inOrder horder⟩
  | inOrder hsync =>
      obtain ⟨w', ep', n', s', hrun, horder⟩ := hsync.deliver hP hE hw hfirst
      exact ⟨w', hrun, .inOrder horder⟩

/-! ## Every message arrives -/

namespace Correspondence

/-- Every state of a correspondence is in one of the phases. -/
theorem phase (h : Correspondence P E (MayInitiate P) w) (hP : P.Lawful) (hE : E.Fresh P) :
    Phase P E w := by
  induction h with
  | start hground hnone => exact .idle hground hnone
  | generate p count _ huse ih => exact ih.generate hE p count huse
  | initiate p _ husable hmay ih => exact ih.initiate hP hE husable hmay
  | encrypt p _ htext hcontext ih => exact ih.encrypt hP hE p htext hcontext
  | deliver _ hw hfirst ih =>
      obtain ⟨w', hrun, hphase⟩ := ih.deliver hP hE hw hfirst
      rw [hrun]
      exact hphase

/-- When every initiation is made while the peer has no session and nothing of the initiator is
under way, every message is decrypted to its plaintext. -/
theorem initiations_keep_plaintext (h : Correspondence P E (MayInitiate P) w) (hP : P.Lawful)
    (hE : E.Fresh P) {before after : List (Flight S)} {f : Flight S}
    (hw : w.flights = before ++ f :: after) (hfirst : ∀ g ∈ before, g.sender ≠ f.sender) :
    (w.decryptAt f.sender.peer P E f.message).1 = .ok f.plaintext := by
  obtain ⟨w', hrun, -⟩ := (h.phase hP hE).deliver hP hE hw hfirst
  rw [hrun]

end Correspondence

/-! ## Both parties import each other's contact -/

open TorE2EE.Crypto.Sym

theorem grounded_symbolicWorld : Grounded symbolic symbolicEntropy symbolicWorld where
  wellFormed p := by
    cases p with
    | alice => exact symbolicStore_wellFormed 0
    | bob => exact symbolicStore_wellFormed 1
  signedPreKeys p spk hspk := by
    cases p <;> cases hspk

theorem unacquainted_symbolicWorld : Unacquainted symbolic symbolicWorld where
  sessions p := by
    cases p <;> rfl
  flights := rfl

/-- `bob` can use the bundle he has just generated. -/
theorem usable_symbolicBundle :
    UsableBundle ((symbolicGenerated symbolicEntropy 1).store .bob)
      (symbolicBundle symbolicEntropy 1) where
  identityKey := by decide
  signedPreKey := ⟨_, rfl, by decide⟩
  oneTimePreKey otk hotk := by
    cases hotk
    exact ⟨_, rfl, rfl⟩

theorem correspondence_symbolicInitiated {allowed : World Sym Sym → Party → Prop}
    (hallowed : allowed (symbolicGenerated symbolicEntropy 1) .alice) :
    Correspondence symbolic symbolicEntropy allowed (symbolicInitiated symbolicEntropy 1) :=
  .initiate .alice
    (.generate .bob 1 (.start grounded_symbolicWorld unacquainted_symbolicWorld) fun huse =>
      huse.2 rfl)
    usable_symbolicBundle hallowed

/-- The message delivered is the oldest of its sender. -/
def World.InTurn (w : World Sym Sym) : Act Sym → Prop
  | .send _ plaintext => unutf8 (utf8 plaintext) = plaintext
  | .deliver place => ∀ f ∈ w.flights[place]?, ∀ g ∈ w.flights.take place, g.sender ≠ f.sender

instance (w : World Sym Sym) : (a : Act Sym) → Decidable (w.InTurn a)
  | .send _ plaintext => inferInstanceAs (Decidable (unutf8 (utf8 plaintext) = plaintext))
  | .deliver place => inferInstanceAs
      (Decidable (∀ f ∈ w.flights[place]?, ∀ g ∈ w.flights.take place, g.sender ≠ f.sender))

theorem Correspondence.act {allowed : World Sym Sym → Party → Prop} {w : World Sym Sym}
    (h : Correspondence symbolic symbolicEntropy allowed w) {a : Act Sym} (ha : w.InTurn a) :
    Correspondence symbolic symbolicEntropy allowed (w.act symbolic symbolicEntropy a) := by
  cases a with
  | send p plaintext => exact .encrypt p h ha fun _ _ id hid => by cases hid
  | deliver place =>
      simp only [World.act]
      cases hf : w.flights[place]? with
      | none => exact h
      | some f => exact .deliver h (World.flights_split hf) (ha f hf)

/-- `alice` has imported the contact of `bob` twice. -/
def symbolicTwice : World Sym Sym :=
  ((symbolicInitiated symbolicEntropy 1).initiate .alice symbolic symbolicEntropy
    (symbolicBundle symbolicEntropy 1)).2

/-- `alice` greets, `bob` answers twice, and `alice` seals two more messages. -/
def symbolicGreetings : List (Act Sym) :=
  [.send .alice (text "hello"), .deliver 0, .send .bob (text "hi"), .send .bob (text "how are you"),
    .deliver 0, .send .alice (text "fine"), .deliver 0, .send .alice (text "and you"), .deliver 0]

/-- The two parties after that. -/
def symbolicAnswered : World Sym Sym :=
  symbolicGreetings.foldl (World.act symbolic symbolicEntropy) symbolicTwice

theorem greeting_returns_plaintext :
    ∃ f, symbolicAnswered.flights = [] ++ f :: [] ∧ f.plaintext = text "and you" ∧
      (symbolicAnswered.decryptAt f.sender.peer symbolic symbolicEntropy f.message).1 =
        .ok f.plaintext := by
  have hfirst : MayInitiate symbolic (symbolicGenerated symbolicEntropy 1) .alice :=
    ⟨rfl, fun f hf => by cases hf⟩
  have hagain : MayInitiate symbolic (symbolicInitiated symbolicEntropy 1) .alice :=
    ⟨rfl, fun f hf => by cases hf⟩
  have husable : UsableBundle ((symbolicInitiated symbolicEntropy 1).store .bob)
      (symbolicBundle symbolicEntropy 1) :=
    ⟨by decide, ⟨_, rfl, by decide⟩, fun otk hotk => by
      cases hotk
      exact ⟨_, rfl, rfl⟩⟩
  have htwice : Correspondence symbolic symbolicEntropy (MayInitiate symbolic) symbolicTwice :=
    .initiate .alice (correspondence_symbolicInitiated hfirst) husable hagain
  have hacts : symbolicTwice.AllowsAll symbolic symbolicEntropy World.InTurn symbolicGreetings := by
    decide +kernel
  have hanswered : Correspondence symbolic symbolicEntropy (MayInitiate symbolic)
      symbolicAnswered :=
    hacts.preserves (fun w a hw ha => hw.act ha) htwice
  obtain ⟨f, hf⟩ : ∃ f, symbolicAnswered.flights = [f] :=
    List.length_eq_one_iff.1 (by decide +kernel)
  have htext : symbolicAnswered.flights.map Flight.plaintext = [text "and you"] := by
    decide +kernel
  rw [hf, List.map_singleton, List.singleton_inj] at htext
  exact ⟨f, hf, htext, Correspondence.initiations_keep_plaintext hanswered symbolic_lawful
    (fresh_of_secretKey rfl rfl) (show symbolicAnswered.flights = [] ++ f :: [] from hf)
    fun g hg => by cases hg⟩

/-- `alice` has generated a bundle as well. -/
def symbolicBoth : World Sym Sym :=
  ((symbolicGenerated symbolicEntropy 1).generate .alice symbolic symbolicEntropy 1).2

/-- The bundle of `alice`. -/
def symbolicBundleBack : PreKeyBundle Sym :=
  okValue ((symbolicGenerated symbolicEntropy 1).generate .alice symbolic symbolicEntropy 1).1
    (by decide)

/-- Both parties have initiated a session with each other. -/
def symbolicClash : World Sym Sym :=
  (((symbolicBoth.initiate .alice symbolic symbolicEntropy (symbolicBundle symbolicEntropy 1)).2)
    |>.initiate .bob symbolic symbolicEntropy symbolicBundleBack).2

/-- When both parties import each other's contact, the first message is not decrypted. -/
theorem initiations_can_clash :
    ¬ ∀ (w : World Sym Sym) (before after : List (Flight Sym)) (f : Flight Sym),
      Correspondence symbolic symbolicEntropy (fun _ _ => True) w →
        w.flights = before ++ f :: after → (∀ g ∈ before, g.sender ≠ f.sender) →
          (w.decryptAt f.sender.peer symbolic symbolicEntropy f.message).1 = .ok f.plaintext := by
  intro hall
  have husable : UsableBundle (symbolicBoth.store .bob) (symbolicBundle symbolicEntropy 1) :=
    ⟨by decide, ⟨_, rfl, by decide⟩, fun otk hotk => by
      cases hotk
      exact ⟨_, rfl, rfl⟩⟩
  have hboth : Correspondence symbolic symbolicEntropy (fun _ _ => True) symbolicBoth :=
    .generate .alice 1
      (.generate .bob 1 (.start grounded_symbolicWorld unacquainted_symbolicWorld) fun huse =>
        huse.2 rfl) fun huse => huse.2 rfl
  have husableBack : UsableBundle
      ((symbolicBoth.initiate .alice symbolic symbolicEntropy
        (symbolicBundle symbolicEntropy 1)).2.store .alice) symbolicBundleBack :=
    ⟨by decide, ⟨_, rfl, by decide⟩, fun otk hotk => by
      cases hotk
      exact ⟨_, rfl, rfl⟩⟩
  have hclash : Correspondence symbolic symbolicEntropy (fun _ _ => True) symbolicClash :=
    .initiate .bob (.initiate .alice hboth husable trivial) husableBack trivial
  have hsent : Correspondence symbolic symbolicEntropy (fun _ _ => True)
      (symbolicClash.send .alice symbolic symbolicEntropy (text "hello") none) :=
    .encrypt .alice hclash rfl fun _ _ id hid => by cases hid
  exact absurd (hall _ [] [] _ hsent rfl fun g hg => by cases hg) (by decide)

end TorE2EE.Crypto
