import TorE2EE.Crypto.LiveSessions
import TorE2EE.Crypto.Symbolic

/-!
# One engine over two stores

The calls of `CryptoEngine` over `SqliteSignalStore` and over `InMemorySignalStore`, with the same
randomness and clock. Over the rows an assignment to the session in hand does not reach the store;
in memory it does. `InHand` says where the two stores stand while a call works in a session: they
agree but for that session, which is in memory as assigned and in the tables as it was.

A call that saves makes them agree again, and a call that throws before its first assignment leaves
them so. `decrypt` throws after an assignment only when it abandons a ratchet step
(`SessionRecord.AbandonsRatchet`), so the stores are interchangeable over the calls that abandon none.
-/

set_option autoImplicit false

namespace TorE2EE.Crypto

open TorE2EE.Foundation

variable {B S : Type} [DecidableEq S] (P : Primitives B S) (E : Entropy B)

/-! ## The two readings -/

/-- Over the rows the session in hand is a copy. -/
def LiveOp.handleSqlite : FallibleHandler (LiveOp B S) LiveOp.Resp (EngineError S) (SqliteHost B S)
  | store o, h => EngineOp.handleSqlite P E o h
  | assigned _ _, h => (.ok (), h)

/-- In memory the session in hand is the object in the map. -/
def LiveOp.handleInMemory : Handler (LiveOp B S) LiveOp.Resp (MemoryHost B S)
  | store o, m => EngineOp.handleInMemory P E o m
  | assigned k session, m => ((), { m with store := m.store.saveSession P k session })

/-- A call over `SqliteSignalStore`. -/
def EngineCall.overSqlite (c : EngineCall S) (h : SqliteHost B S) :
    Except (EngineError S) (EngineAnswer B S) × SqliteHost B S :=
  (c.live P).tryRun (LiveOp.handleSqlite P E) h

/-- A call over `InMemorySignalStore`. -/
def EngineCall.overInMemory (c : EngineCall S) (m : MemoryHost B S) :
    Except (EngineError S) (EngineAnswer B S) × MemoryHost B S :=
  (c.live P).run (LiveOp.handleInMemory P E) m

/-- The outcomes of a sequence of calls, and the state after it; a call that throws ends alone. -/
def runCalls {σ : Type}
    (run : EngineCall S → σ → Except (EngineError S) (EngineAnswer B S) × σ) :
    List (EngineCall S) → σ → List (Except (EngineError S) (EngineAnswer B S)) × σ
  | [], s => ([], s)
  | c :: cs, s =>
      ((run c s).1 :: (runCalls run cs (run c s).2).1, (runCalls run cs (run c s).2).2)

/-! ## When a ratchet step is abandoned -/

/-- There is a receiving chain to skip in. -/
def SessionRecord.Receives (s : SessionRecord B S) : Prop :=
  s.receiveChainKeyHex ≠ none ∧ s.remoteDhPublicKeyHex ≠ none

instance (s : SessionRecord B S) : Decidable s.Receives :=
  inferInstanceAs (Decidable (_ ∧ _))

/-- The decoded key of the header does not take the session through a ratchet step: it is no hex
string while there are messages to skip in the old chain, or it is no 32-byte key, or more than
`MAX_SKIP_MESSAGES` messages are to be skipped in the new chain. -/
def SessionRecord.HeaderFails (s : SessionRecord B S) (m : EncryptedMessage S) :
    Except (EngineError S) B → Prop
  | .error _ => s.Receives ∧ s.receiveSequenceNumber < m.previousChainLength
  | .ok remoteDh => P.length remoteDh ≠ 32 ∨ (maxSkipMessages : Int) < m.sequenceNumber

instance (s : SessionRecord B S) (m : EncryptedMessage S) :
    (r : Except (EngineError S) B) → Decidable (s.HeaderFails P m r)
  | .error _ => inferInstanceAs (Decidable (_ ∧ _))
  | .ok _ => inferInstanceAs (Decidable (_ ∨ _))

/-- `decrypt` begins the ratchet step to the key of the header in this session, and throws before it
saves: the header is for no skipped key and names a new ratchet key, and `previousChainLength` is
within reach, but the ratchet step or the skip after it fails. -/
def SessionRecord.AbandonsRatchet (s : SessionRecord B S) (m : EncryptedMessage S) : Prop :=
  s.skippedMessageKeys (m.skippedKeyId P) = none ∧ needsRatchet P s m = true ∧
    (s.Receives → m.previousChainLength ≤ s.receiveSequenceNumber + maxSkipMessages) ∧
    s.HeaderFails P m (P.hexToBytes m.ephemeralPublicKeyHex)

instance (s : SessionRecord B S) (m : EncryptedMessage S) : Decidable (s.AbandonsRatchet P m) :=
  inferInstanceAs (Decidable (_ ∧ _))

/-- The call is a `decrypt` in a stored session that abandons a ratchet step. -/
def EngineCall.AbandonsRatchet (st : InMemorySignalStore B S) : EngineCall S → Prop
  | decrypt k m => ∃ s ∈ st.getSession P k, s.AbandonsRatchet P m
  | _ => False

instance (st : InMemorySignalStore B S) :
    (c : EngineCall S) → Decidable (c.AbandonsRatchet P st)
  | .decrypt k m =>
      inferInstanceAs (Decidable (∃ s ∈ st.getSession P k, s.AbandonsRatchet P m))
  | .generatePreKeyBundle _ => inferInstanceAs (Decidable False)
  | .initiateSession _ _ => inferInstanceAs (Decidable False)
  | .encrypt _ _ _ => inferInstanceAs (Decidable False)

/-- Every state of the run over `InMemorySignalStore` satisfies `p`. -/
def EveryState (p : InMemorySignalStore B S → Prop) : List (EngineCall S) → MemoryHost B S → Prop
  | [], m => p m.store
  | c :: cs, m => p m.store ∧ EveryState p cs (c.overInMemory P E m).2

/-- No call of the run over `InMemorySignalStore` abandons a ratchet step. -/
def NoneAbandoned : List (EngineCall S) → MemoryHost B S → Prop
  | [], _ => True
  | c :: cs, m => ¬ c.AbandonsRatchet P m.store ∧ NoneAbandoned cs (c.overInMemory P E m).2

instance decidableEveryState (p : InMemorySignalStore B S → Prop) [DecidablePred p] :
    (calls : List (EngineCall S)) → (m : MemoryHost B S) → Decidable (EveryState P E p calls m)
  | [], m => inferInstanceAs (Decidable (p m.store))
  | c :: cs, m =>
      have := decidableEveryState p cs (c.overInMemory P E m).2
      inferInstanceAs (Decidable (_ ∧ _))

instance decidableNoneAbandoned :
    (calls : List (EngineCall S)) → (m : MemoryHost B S) → Decidable (NoneAbandoned P E calls m)
  | [], _ => inferInstanceAs (Decidable True)
  | c :: cs, m =>
      have := decidableNoneAbandoned cs (c.overInMemory P E m).2
      inferInstanceAs (Decidable (_ ∧ _))

/-! ## A run over rows is a run over values -/

/-- Over values, as over rows, the session in hand is a copy. -/
def LiveOp.handle : Handler (LiveOp B S) LiveOp.Resp (Host B S)
  | store o, h => EngineOp.handle P E o h
  | assigned _ _, h => ((), h)

variable {P E}

omit [DecidableEq S] in
theorem run_lift {α σ : Type} (H : Handler (LiveOp B S) LiveOp.Resp σ) (p : EngineM B S α) (s : σ) :
    (Live.lift p).run H s = Program.run (fun o => H (.store o)) p s := by
  induction p generalizing s with
  | ret a => rfl
  | throw e => rfl
  | call o next ih => exact ih _ _

theorem run_erase {α : Type} (p : LiveM B S α) (h : Host B S) :
    (erase p).run P E h = p.run (LiveOp.handle P E) h := by
  induction p generalizing h with
  | ret a => rfl
  | throw e => rfl
  | call o next ih =>
      cases o with
      | store o => exact ih _ _
      | assigned k s => exact ih _ _

theorem tryRun_erase {α : Type} (p : LiveM B S α) (h : SqliteHost B S) :
    (erase p).tryRun (EngineOp.handleSqlite P E) h = p.tryRun (LiveOp.handleSqlite P E) h := by
  apply Program.tryRun_translate
  intro o h
  cases o with
  | store o => exact Program.tryRun_perform _ o h
  | assigned k s => rfl

/-- A call over the rows is the call over the values, and leaves canonical values. -/
theorem overSqlite_serialized (hP : P.Lawful) (hE : ∀ n, P.length (E.secretKey n) = 32)
    (c : EngineCall S) {h : Host B S} (hh : h.store.Canonical P) :
    c.overSqlite P E (h.serialized P) =
        (((c.live P).run (LiveOp.handle P E) h).1,
          ((c.live P).run (LiveOp.handle P E) h).2.serialized P) ∧
      ((c.live P).run (LiveOp.handle P E) h).2.store.Canonical P := by
  have hrun := tryRun_serialized hP hE c hh
  rwa [← erase_live, tryRun_erase, run_erase] at hrun

/-! ## The stores while a session is in hand -/

variable (P) in
/-- The stores agree, on canonical values. -/
structure Agree (h : Host B S) (m : MemoryHost B S) : Prop where
  same : SameHosts h m
  canonical : h.store.Canonical P

variable (P) in
/-- The stores agree but for the session under `k`, which is `s` in memory and `stored` in the
tables. -/
structure InHand (k : S) (stored s : SessionRecord B S) (h : Host B S) (m : MemoryHost B S) :
    Prop where
  same : SameHosts h { m with store := { m.store with sessions := h.store.sessions } }
  sessions : m.store.sessions = Function.update h.store.sessions (P.toLowerCase k) (some s)
  stored : h.store.getSession P k = some stored
  canonical : h.store.Canonical P

variable {k : S} {stored s s' : SessionRecord B S} {h : Host B S} {m : MemoryHost B S}

theorem Agree.inHand (ha : Agree P h m) (hs : h.store.getSession P k = some s) :
    InHand P k s s h m where
  same := by
    rw [← ha.same.store.sessions]
    exact ha.same
  sessions := by
    rw [ha.same.store.sessions, ← hs]
    exact (Function.update_eq_self _ _).symm
  stored := hs
  canonical := ha.canonical

theorem InHand.agree (hi : InHand P k s s h m) : Agree P h m where
  same := by
    have hsessions : h.store.sessions = m.store.sessions := by
      rw [hi.sessions, ← hi.stored]
      exact (Function.update_eq_self _ _).symm
    have hsame := hi.same
    rwa [hsessions] at hsame
  canonical := hi.canonical

/-! ## Operations over both stores -/

variable (P E) in
/-- From stores related by `Φ` the program has one outcome over both; it leaves stores related by `Ψ`
when it returns, and stores that agree when it throws. -/
abbrev OverBoth {α : Type} (Φ : Host B S → MemoryHost B S → Prop) (p : LiveM B S α)
    (Ψ : α → Host B S → MemoryHost B S → Prop) : Prop :=
  Program.Coupled (LiveOp.handle P E) (LiveOp.handleInMemory P E) Φ p Ψ (Agree P)

/-- An assignment changes the session in memory only. -/
theorem overBoth_assign (k : S) (stored s s' : SessionRecord B S) :
    OverBoth P E (InHand P k stored s) (Live.assign k s') fun _ => InHand P k stored s' := by
  apply Program.coupled_perform
  intro h m hi
  refine ⟨rfl, hi.same, ?_, hi.stored, hi.canonical⟩
  show Function.update m.store.sessions _ _ = Function.update h.store.sessions _ _
  rw [hi.sessions, Function.update_idem]

/-- Saving the session in hand makes the stores agree again. -/
theorem overBoth_save (k : S) (stored s : SessionRecord B S) {s' : SessionRecord B S}
    (hs' : s'.Canonical P) :
    OverBoth P E (InHand P k stored s) (Live.await (.saveSession k s')) fun _ => Agree P := by
  apply Program.coupled_perform
  intro h m hi
  obtain ⟨hstore, hdraws⟩ := hi.same
  refine ⟨rfl, ⟨⟨hstore.identity, hstore.signedPreKeys, hstore.oneTimePreKeys, ?_⟩, hdraws⟩,
    hi.canonical.saveSession hs' k⟩
  show Function.update m.store.sessions _ _ = Function.update h.store.sessions _ _
  rw [hi.sessions, Function.update_idem]

/-- The operations that only draw. -/
def EngineOp.Draws : EngineOp B S → Prop
  | secretKey => True
  | randomBytes _ => True
  | now => True
  | _ => False

/-- Both runs draw the same values. -/
theorem overBoth_draw (k : S) (stored s : SessionRecord B S) {o : EngineOp B S} (ho : o.Draws) :
    OverBoth P E (InHand P k stored s) (Live.await o) fun _ => InHand P k stored s := by
  apply Program.coupled_perform
  intro h m hi
  have hdraws : m.draws = h.draws := hi.same.draws
  cases o with
  | secretKey =>
      refine ⟨congrArg E.secretKey hdraws.symm, ?_, hi.sessions, hi.stored, hi.canonical⟩
      exact ⟨hi.same.store, congrArg (· + 1) hdraws⟩
  | randomBytes n =>
      refine ⟨congrArg (fun d => E.randomBytes d n) hdraws.symm, ?_, hi.sessions, hi.stored,
        hi.canonical⟩
      exact ⟨hi.same.store, congrArg (· + 1) hdraws⟩
  | now =>
      refine ⟨congrArg E.now hdraws.symm, ?_, hi.sessions, hi.stored, hi.canonical⟩
      exact ⟨hi.same.store, congrArg (· + 1) hdraws⟩
  | _ => exact ho.elim

theorem overBoth_generateCurve25519KeyPair (hE : ∀ n, P.length (E.secretKey n) = 32) (k : S)
    (stored s : SessionRecord B S) :
    OverBoth P E (InHand P k stored s) (Live.lift (generateCurve25519KeyPair P)) fun kp h m =>
      kp.WellFormed P ∧ InHand P k stored s h m := by
  have hdraw : OverBoth P E (InHand P k stored s) (Live.await .secretKey) fun secretKey h m =>
      P.length secretKey = 32 ∧ InHand P k stored s h m := by
    have hdrawn := overBoth_draw (P := P) (E := E) k stored s (o := .secretKey) trivial
    have hlength : ∀ h m, InHand P k stored s h m → ∀ secretKey h',
        (Live.await .secretKey).run (LiveOp.handle P E) h = (.ok secretKey, h') →
        P.length secretKey = 32 := by
      rintro h m - _ _ ⟨⟩
      exact hE h.draws
    exact (hdrawn.and_left hlength).mono (fun _ _ hi => hi) (fun _ _ _ hi => ⟨hi.2, hi.1⟩)
      fun _ _ ha => ha
  refine Program.coupled_bind hdraw fun secretKey => ?_
  exact Program.coupled_pure fun h m hi => ⟨keyPairOf_wellFormed P hi.1, hi.2⟩

/-- An operation under the contract leaves stores that agree. -/
theorem Agree.handle (hE : ∀ n, P.length (E.secretKey n) = 32) (ha : Agree P h m)
    {o : EngineOp B S} (ho : o.SavesCanonical P)
    (hlatest : o = .getLatestSignedPreKey → m.store.DistinctTimes) :
    (EngineOp.handle P E o h).1 = (EngineOp.handleInMemory P E o m).1 ∧
      o.AnswersCanonical P (EngineOp.handle P E o h).1 ∧
      Agree P (EngineOp.handle P E o h).2 (EngineOp.handleInMemory P E o m).2 := by
  obtain ⟨hanswer, hsame⟩ := ha.same.handle (E := E) ho hlatest
  obtain ⟨hcanonical, hgood⟩ := canonical_kept (E := E) hE (fun _ => True) o h ⟨trivial, ho⟩
    ha.canonical
  exact ⟨hanswer, hgood, hsame, hcanonical⟩

/-- A part of the engine that assigns to no stored session. -/
theorem coupled_lift {α : Type} {Φ Ξ : Host B S → MemoryHost B S → Prop}
    {Ψ : α → Host B S → MemoryHost B S → Prop} {p : EngineM B S α}
    (hp : Program.Coupled (EngineOp.handle P E) (EngineOp.handleInMemory P E) Φ p Ψ Ξ) :
    Program.Coupled (LiveOp.handle P E) (LiveOp.handleInMemory P E) Φ (Live.lift p) Ψ Ξ := by
  intro h m hst
  obtain ⟨r, h', m', hrun, hrun', hrel⟩ := hp h m hst
  exact ⟨r, h', m', (run_lift _ p h).trans hrun, (run_lift _ p m).trans hrun', hrel⟩

theorem overBoth_generatePreKeyBundle (hE : ∀ n, P.length (E.secretKey n) = 32) (n : Nat) :
    OverBoth P E (Agree P) (Live.lift (generatePreKeyBundle P n)) fun _ => Agree P := by
  apply coupled_lift
  refine Program.Coupled.mono (Program.coupled_of_obeys (obeys_generatePreKeyBundle n) ?_)
    (fun _ _ ha => ha) (fun _ _ _ ha => ha.2) fun _ _ ha => ha
  rintro o h m ⟨hkind, ho⟩ ha
  -- the bundle is made without a look at the stored signed prekeys
  exact ha.handle hE ho fun hlatest => by
    rw [hlatest] at hkind
    exact hkind.elim

/-- A program that saves no signed prekey, over stores with distinct times. -/
theorem overBoth_of_keepsSignedPreKeys (hE : ∀ n, P.length (E.secretKey n) = 32) {α : Type}
    {q : α → Prop} {p : EngineM B S α} (hp : p.Obeys (canonical P EngineOp.KeepsSignedPreKeys) q) :
    OverBoth P E (fun h m => Agree P h m ∧ m.store.DistinctTimes) (Live.lift p) fun a h m =>
      q a ∧ Agree P h m := by
  apply coupled_lift
  refine Program.Coupled.mono (Program.coupled_of_obeys hp ?_) (fun _ _ ha => ha)
    (fun _ _ _ ha => ⟨ha.1, ha.2.1⟩) fun _ _ ha => ha.1
  rintro o h m ⟨hkind, ho⟩ ⟨ha, htimes⟩
  obtain ⟨hanswer, hgood, hagree⟩ := ha.handle (E := E) hE ho fun _ => htimes
  exact ⟨hanswer, hgood, hagree, distinctTimes_handle hkind htimes⟩

/-! ## The calls over both stores -/

/-- A call that begins by reading the session of a key. -/
theorem overBoth_getSession {α : Type} {Φ : Host B S → MemoryHost B S → Prop}
    {Ψ : α → Host B S → MemoryHost B S → Prop} {f : Option (SessionRecord B S) → LiveM B S α}
    (k : S) (hagree : ∀ h m, Φ h m → Agree P h m)
    (hnone : OverBoth P E (fun h m => Φ h m ∧ h.store.getSession P k = none) (f none) Ψ)
    (hsome : ∀ s, s.Canonical P →
      OverBoth P E (fun h m => Φ h m ∧ InHand P k s s h m) (f (some s)) Ψ) :
    OverBoth P E Φ (Live.await (.getSession k) >>= f) Ψ := by
  intro h m hst
  have ha := hagree h m hst
  have hanswer : m.store.getSession P k = h.store.getSession P k :=
    (ha.same.store.getSession k).symm
  have hrun : (Live.await (.getSession k) >>= f).run (LiveOp.handle P E) h =
      (f (h.store.getSession P k)).run (LiveOp.handle P E) h := rfl
  have hrun' : (Live.await (.getSession k) >>= f).run (LiveOp.handleInMemory P E) m =
      (f (m.store.getSession P k)).run (LiveOp.handleInMemory P E) m := rfl
  rw [hrun, hrun', hanswer]
  cases hget : h.store.getSession P k with
  | none => exact hnone h m ⟨hst, hget⟩
  | some s => exact hsome s (ha.canonical.sessions _ s hget) h m ⟨hst, ha.inHand hget⟩

theorem overBoth_encrypt (hP : P.Lawful) (hE : ∀ n, P.length (E.secretKey n) = 32)
    (k plaintext : S) (context : Option InitialBundleContext) :
    OverBoth P E (Agree P) (Live.encrypt P k plaintext context) fun _ => Agree P := by
  refine overBoth_getSession k (fun _ _ ha => ha) ?_ fun stored hstored => ?_
  · exact Program.coupled_throw fun _ _ ha => ha.1
  · refine Program.Coupled.pre ?_ fun _ _ hi => hi.2
    cases hchain : ensureSendChain P stored with
    | error e =>
        dsimp only
        rw [hchain]
        exact Program.coupled_throw fun _ _ hi => hi.agree
    | ok chain =>
        -- from the first assignment on nothing throws
        obtain ⟨session, chainHex⟩ := chain
        obtain ⟨hsession, chainKey, rfl⟩ := hstored.ensureSendChain hchain
        refine Program.coupled_ofExcept_bind hchain ?_
        refine Program.coupled_bind (overBoth_assign k stored stored session) fun _ => ?_
        refine Program.coupled_ofExcept_bind (hP.hexToBytes_bytesToHex chainKey) ?_
        refine Program.coupled_bind (overBoth_draw k stored session trivial) fun updatedAt => ?_
        have hsealed : SessionRecord.Canonical P (session.sealedOnce P chainKey updatedAt) :=
          ⟨hsession.localDhKeyPair, hsession.rootKey, fun c hc => ⟨_, (Option.some.inj hc).symm⟩,
            hsession.receiveChainKey⟩
        refine Program.coupled_bind (overBoth_assign k stored session _) fun _ => ?_
        refine Program.coupled_bind (overBoth_draw k stored _ trivial) fun nonceBytes => ?_
        refine Program.coupled_bind (overBoth_save k stored _ hsealed) fun _ => ?_
        have hidentity : OverBoth P E (Agree P) (Live.await .getIdentity) fun _ => Agree P := by
          apply Program.coupled_perform
          intro h m ha
          obtain ⟨hanswer, -, hagree⟩ := ha.handle (E := E) hE (o := .getIdentity) trivial
            fun hlatest => nomatch hlatest
          exact ⟨hanswer, hagree⟩
        refine Program.coupled_bind hidentity fun identity => ?_
        exact Program.coupled_pure fun _ _ ha => ha

/-- A ratchet step to a 32-byte key goes through. -/
theorem overBoth_dhRatchetStep (hP : P.Lawful) (hE : ∀ n, P.length (E.secretKey n) = 32) (k : S)
    (stored : SessionRecord B S) {s : SessionRecord B S} (hs : s.Canonical P) {newRemoteHex : S}
    {remoteDh : B} (hremote : P.hexToBytes newRemoteHex = .ok remoteDh)
    (hlength : P.length remoteDh = 32) :
    OverBoth P E (InHand P k stored s) (Live.dhRatchetStep P k s newRemoteHex) fun s' h m =>
      (s'.Canonical P ∧ s'.receiveSequenceNumber = 0 ∧ s'.Receives) ∧ InHand P k stored s' h m := by
  obtain ⟨rootKey, hroot⟩ := hs.rootKey
  obtain ⟨dhReceive, hreceive⟩ :=
    (hP.scalarMult_ok_iff s.localDhKeyPair.secretKey remoteDh).2 ⟨hs.localDhKeyPair.1, hlength⟩
  refine Program.coupled_ofExcept_bind (hroot ▸ hP.hexToBytes_bytesToHex rootKey) ?_
  refine Program.coupled_ofExcept_bind hremote ?_
  refine Program.coupled_bind (overBoth_assign k stored s _) fun _ => ?_
  refine Program.coupled_ofExcept_bind hreceive ?_
  refine Program.coupled_bind (overBoth_generateCurve25519KeyPair hE k stored _) fun kp => ?_
  refine Program.coupled_of_left fun hkp => ?_
  obtain ⟨dhSend, hsend⟩ := (hP.scalarMult_ok_iff kp.secretKey remoteDh).2 ⟨hkp.1, hlength⟩
  refine Program.coupled_bind (overBoth_assign k stored _ _) fun _ => ?_
  refine Program.coupled_ofExcept_bind hsend ?_
  refine Program.coupled_bind (overBoth_assign k stored _ _) fun _ => ?_
  refine Program.coupled_pure fun h m hi => ⟨⟨?_, rfl, ?_⟩, hi⟩
  · exact ⟨hkp, ⟨_, rfl⟩, fun c hc => ⟨_, (Option.some.inj hc).symm⟩,
      fun c hc => ⟨_, (Option.some.inj hc).symm⟩⟩
  · exact ⟨Option.some_ne_none _, Option.some_ne_none _⟩

/-- A skip that returns. -/
theorem overBoth_skip_of_ok (k : S) (stored : SessionRecord B S) {s s' : SessionRecord B S}
    {upTo : Int} (hskip : skipMessageKeys P s upTo = .ok s') :
    OverBoth P E (InHand P k stored s) (Live.skipMessageKeys P k s upTo) fun s'' h m =>
      s'' = s' ∧ InHand P k stored s'' h m := by
  refine Program.coupled_ofExcept_bind hskip ?_
  refine Program.coupled_bind (overBoth_assign k stored s s') fun _ => ?_
  exact Program.coupled_pure fun _ _ hi => ⟨rfl, hi⟩

/-- A skip in the stored session; without a chain it changes nothing. -/
theorem overBoth_skip (k : S) {s : SessionRecord B S} (hs : s.Canonical P) (upTo : Int) :
    OverBoth P E (InHand P k s s) (Live.skipMessageKeys P k s upTo) fun s' h m =>
      (s'.Canonical P ∧ (s'.receiveChainKeyHex = none → s' = s)) ∧ InHand P k s s' h m := by
  cases hskip : skipMessageKeys P s upTo with
  | error e =>
      unfold Live.skipMessageKeys
      rw [hskip]
      exact Program.coupled_throw fun _ _ hi => hi.agree
  | ok s' =>
      refine (overBoth_skip_of_ok k s hskip).mono (fun _ _ hi => hi) ?_ fun _ _ ha => ha
      rintro _ h m ⟨rfl, hi⟩
      refine ⟨⟨hs.skipMessageKeys hskip, ?_⟩, hi⟩
      intro hnone
      rcases skipMessageKeys_cases P hskip with ⟨-, heq⟩ | ⟨_, _, _, _, _, _, _, rfl⟩
      · exact heq
      · cases hnone

/-- A skip up to a position already passed changes nothing. -/
theorem skipMessageKeys_of_passed (hP : P.Lawful) {s s' : SessionRecord B S}
    (hs : s.Canonical P) {upTo : Int} (hskip : skipMessageKeys P s upTo = .ok s')
    (hpassed : s.Receives → upTo ≤ s.receiveSequenceNumber) : s' = s := by
  rcases skipMessageKeys_cases P hskip with ⟨-, heq⟩ |
    ⟨chainHex, c, remote, hchain, hc, hremote, -, rfl⟩
  · exact heq
  · have hreceives : s.Receives := by simp [SessionRecord.Receives, hchain, hremote]
    have hzero : (upTo - s.receiveSequenceNumber).toNat = 0 := by
      have hle := hpassed hreceives
      omega
    obtain ⟨b, rfl⟩ := hs.receiveChainKey chainHex hchain
    rw [hP.hexToBytes_bytesToHex] at hc
    cases hc
    rw [hzero]
    cases s
    simp only at hchain
    subst hchain
    rw [SessionRecord.passedOver, passOver_zero]
    rfl

/-- What moves to a header: a session that is as stored, or one with a receiving chain. -/
theorem overBoth_moveToHeader (hP : P.Lawful) (hE : ∀ n, P.length (E.secretKey n) = 32) (k : S)
    {s : SessionRecord B S} (hs : s.Canonical P) {m : EncryptedMessage S}
    (hunskipped : s.skippedMessageKeys (m.skippedKeyId P) = none)
    (hkeeps : ¬ s.AbandonsRatchet P m) :
    OverBoth P E (InHand P k s s) (Live.moveToHeader P k s m) fun s' h m =>
      (s'.Canonical P ∧ (s'.receiveChainKeyHex = none → s' = s)) ∧ InHand P k s s' h m := by
  unfold Live.moveToHeader
  cases hneeds : needsRatchet P s m with
  | false => exact overBoth_skip k hs m.sequenceNumber
  | true =>
      rw [if_pos rfl]
      cases hskip : skipMessageKeys P s m.previousChainLength with
      | error e =>
          unfold Live.skipMessageKeys
          rw [hskip]
          exact Program.coupled_throw fun _ _ hi => hi.agree
      | ok skipped =>
          have hreach : s.Receives →
              m.previousChainLength ≤ s.receiveSequenceNumber + maxSkipMessages := by
            rintro ⟨hchain, hremote⟩
            rcases skipMessageKeys_cases P hskip with ⟨hnone | hnone, -⟩ |
              ⟨_, _, _, _, _, _, hlimit, -⟩
            · exact absurd hnone hchain
            · exact absurd hnone hremote
            · exact hlimit
          have hskipped := hs.skipMessageKeys hskip
          refine Program.coupled_bind (overBoth_skip_of_ok k s hskip) fun s' => ?_
          refine Program.coupled_of_left fun heq => ?_
          subst heq
          cases hheader : P.hexToBytes m.ephemeralPublicKeyHex with
          | error e =>
              -- nothing was skipped, and the ratchet step throws before it assigns
              have hsame : s' = s := by
                apply skipMessageKeys_of_passed hP hs hskip
                intro hreceives
                by_contra hlt
                refine hkeeps ⟨hunskipped, hneeds, hreach, ?_⟩
                rw [hheader]
                exact ⟨hreceives, by omega⟩
              subst hsame
              have hstops : OverBoth P E (InHand P k s' s')
                  (Live.dhRatchetStep P k s' m.ephemeralPublicKeyHex) fun _ _ _ => False := by
                obtain ⟨rootKey, hroot⟩ := hs.rootKey
                refine Program.coupled_ofExcept_bind (hroot ▸ hP.hexToBytes_bytesToHex rootKey) ?_
                rw [hheader]
                exact Program.coupled_throw fun _ _ hi => hi.agree
              exact Program.coupled_bind hstops fun _ _ _ hfalse => hfalse.elim
          | ok remoteDh =>
              have hgoes : P.length remoteDh = 32 ∧ m.sequenceNumber ≤ (maxSkipMessages : Int) := by
                by_contra hstuck
                refine hkeeps ⟨hunskipped, hneeds, hreach, ?_⟩
                rw [hheader]
                by_cases hlength : P.length remoteDh = 32
                · exact Or.inr (not_le.1 fun hle => hstuck ⟨hlength, hle⟩)
                · exact Or.inl hlength
              refine Program.coupled_bind
                (overBoth_dhRatchetStep hP hE k s hskipped hheader hgoes.1) fun ratcheted => ?_
              refine Program.coupled_of_left fun hratcheted => ?_
              obtain ⟨hcanonical, hzero, hreceives⟩ := hratcheted
              obtain ⟨chainHex, hchain⟩ := Option.ne_none_iff_exists'.1 hreceives.1
              obtain ⟨remote, hremote⟩ := Option.ne_none_iff_exists'.1 hreceives.2
              obtain ⟨chain, rfl⟩ := hcanonical.receiveChainKey chainHex hchain
              have hlimit : m.sequenceNumber ≤
                  ratcheted.receiveSequenceNumber + (maxSkipMessages : Int) := by
                rw [hzero]
                simpa using hgoes.2
              have hskip' := skipMessageKeys_of_chain P hchain (hP.hexToBytes_bytesToHex chain)
                hremote hlimit
              refine (overBoth_skip_of_ok k s hskip').mono (fun _ _ hi => hi) ?_ fun _ _ ha => ha
              rintro _ h m' ⟨rfl, hi⟩
              exact ⟨⟨hcanonical.skipMessageKeys hskip', fun hnone => nomatch hnone⟩, hi⟩

theorem overBoth_openAtChainHead (hP : P.Lawful) (k : S) (m : EncryptedMessage S)
    {stored s : SessionRecord B S} (hs : s.Canonical P)
    (hnone : s.receiveChainKeyHex = none → s = stored) :
    OverBoth P E (InHand P k stored s) (Live.openAtChainHead P k m s) fun _ => Agree P := by
  unfold Live.openAtChainHead
  cases hchain : s.receiveChainKeyHex with
  | none =>
      obtain rfl := hnone hchain
      exact Program.coupled_throw fun _ _ hi => hi.agree
  | some chainHex =>
      obtain ⟨chain, rfl⟩ := hs.receiveChainKey chainHex hchain
      refine Program.coupled_ofExcept_bind (hP.hexToBytes_bytesToHex chain) ?_
      refine Program.coupled_bind (overBoth_draw k stored s trivial) fun updatedAt => ?_
      have htaken : SessionRecord.Canonical P { s with
          receiveChainKeyHex := some (P.bytesToHex (kdfChain P chain).nextChainKey)
          receiveSequenceNumber := s.receiveSequenceNumber + 1
          updatedAt } :=
        ⟨hs.localDhKeyPair, hs.rootKey, hs.sendChainKey, fun c hc => ⟨_, (Option.some.inj hc).symm⟩⟩
      refine Program.coupled_bind (overBoth_assign k stored s _) fun _ => ?_
      refine Program.coupled_bind (overBoth_save k stored _ htaken) fun _ => ?_
      exact Program.coupled_ofExcept (fun _ _ _ _ ha => ha) fun _ _ _ _ ha => ha

theorem overBoth_decryptInSession (hP : P.Lawful) (hE : ∀ n, P.length (E.secretKey n) = 32) (k : S)
    {s : SessionRecord B S} (hs : s.Canonical P) {m : EncryptedMessage S}
    (hkeeps : ¬ s.AbandonsRatchet P m) :
    OverBoth P E (InHand P k s s) (Live.decryptInSession P k m s) fun _ => Agree P := by
  unfold Live.decryptInSession
  dsimp only
  cases hfound : s.skippedMessageKeys (P.toLowerCase m.ephemeralPublicKeyHex, m.sequenceNumber) with
  | some keyHex =>
      cases hkey : P.hexToBytes keyHex with
      | error e =>
          dsimp only
          rw [hkey]
          exact Program.coupled_throw fun _ _ hi => hi.agree
      | ok messageKey =>
          refine Program.coupled_ofExcept_bind hkey ?_
          -- deleting a skipped key leaves the fields the two stores must agree on
          have htaken : SessionRecord.Canonical P { s with
              skippedMessageKeys := Function.update s.skippedMessageKeys
                (P.toLowerCase m.ephemeralPublicKeyHex, m.sequenceNumber) none } :=
            ⟨hs.localDhKeyPair, hs.rootKey, hs.sendChainKey, hs.receiveChainKey⟩
          refine Program.coupled_bind (overBoth_assign k s s _) fun _ => ?_
          refine Program.coupled_bind (overBoth_save k s _ htaken) fun _ => ?_
          exact Program.coupled_ofExcept (fun _ _ _ _ ha => ha) fun _ _ _ _ ha => ha
  | none =>
      refine Program.coupled_bind (overBoth_moveToHeader hP hE k hs hfound hkeeps) fun moved => ?_
      refine Program.coupled_of_left fun hmoved => ?_
      exact overBoth_openAtChainHead hP k m hmoved.1 hmoved.2

/-- A first contact sets up a session at the header's own ratchet key: no ratchet step is due. -/
theorem run_initiateBobSession_stays (hP : P.Lawful) {k : S} {m : EncryptedMessage S}
    {h h' : Host B S} {s : SessionRecord B S}
    (hrun : (initiateBobSession P k m).run P E h = (.ok s, h')) :
    h'.store.getSession P k = some s ∧ ¬ s.AbandonsRatchet P m := by
  rcases run_initiateBobSession_cases P E k m h with ⟨e, hfail, -⟩ | ⟨e, _, _, _, hfail, -, -⟩ |
    ⟨dhAll, initialDh, hin⟩
  · rw [hfail] at hrun
    cases hrun
  · rw [hfail] at hrun
    cases hrun
  · rw [run_initiateBobSession_of_inputs hin] at hrun
    cases hrun
    refine ⟨SignalStore.getSession_saveSession_self _ _ _ _, ?_⟩
    rintro ⟨-, hneeds, -⟩
    simp [needsRatchet, respondedSession, hP.toLowerCase_toLowerCase] at hneeds

theorem overBoth_decrypt (hP : P.Lawful) (hE : ∀ n, P.length (E.secretKey n) = 32) (k : S)
    (m : EncryptedMessage S) :
    OverBoth P E
      (fun h m' => (Agree P h m' ∧ m'.store.DistinctTimes) ∧
        ∀ s, h.store.getSession P k = some s → ¬ s.AbandonsRatchet P m)
      (Live.decrypt P k m) fun _ => Agree P := by
  refine overBoth_getSession k (fun _ _ ha => ha.1.1) ?_ fun s hs => ?_
  · have hinit := overBoth_of_keepsSignedPreKeys (E := E) hE (obeys_initiateBobSession (P := P) k m)
    have hstays : ∀ h m', Agree P h m' ∧ m'.store.DistinctTimes → ∀ s h',
        (Live.lift (initiateBobSession P k m)).run (LiveOp.handle P E) h = (.ok s, h') →
        h'.store.getSession P k = some s ∧ ¬ s.AbandonsRatchet P m := by
      intro h m' _ s h' hrun
      exact run_initiateBobSession_stays hP ((run_lift _ _ h).symm.trans hrun)
    refine Program.coupled_bind ((hinit.and_left hstays).pre fun _ _ hst => hst.1.1) fun s => ?_
    intro h m' hst
    obtain ⟨⟨hs, ha⟩, hget, hkeeps⟩ := hst
    exact overBoth_decryptInSession hP hE k hs hkeeps h m' (ha.inHand hget)
  · intro h m' hst
    obtain ⟨⟨-, hkeeps⟩, hi⟩ := hst
    exact overBoth_decryptInSession hP hE k hs (hkeeps s hi.stored) h m' hi

/-- Over stores that agree a call has one outcome, and the stores agree after it, unless it abandons
a ratchet step. -/
theorem overBoth_live (hP : P.Lawful) (hE : ∀ n, P.length (E.secretKey n) = 32) (c : EngineCall S) :
    OverBoth P E
      (fun h m => (Agree P h m ∧ m.store.DistinctTimes) ∧ ¬ c.AbandonsRatchet P m.store)
      (c.live P) fun _ => Agree P := by
  cases c with
  | generatePreKeyBundle n =>
      refine Program.coupled_bind ((overBoth_generatePreKeyBundle hE n).pre fun _ _ ha => ha.1.1)
        fun _ => ?_
      exact Program.coupled_pure fun _ _ ha => ha
  | initiateSession k bundle =>
      refine Program.coupled_bind ((overBoth_of_keepsSignedPreKeys hE
        (obeys_initiateSession k bundle)).pre fun _ _ ha => ha.1) fun _ => ?_
      exact Program.coupled_pure fun _ _ ha => ha.2
  | encrypt k plaintext context =>
      refine Program.coupled_bind ((overBoth_encrypt hP hE k plaintext context).pre
        fun _ _ ha => ha.1.1) fun _ => ?_
      exact Program.coupled_pure fun _ _ ha => ha
  | decrypt k m =>
      refine Program.coupled_bind ((overBoth_decrypt hP hE k m).pre ?_) fun _ => ?_
      · rintro h m' ⟨ha, hkeeps⟩
        refine ⟨ha, fun s hs habandons => hkeeps ⟨s, ?_, habandons⟩⟩
        rw [← ha.1.same.store.getSession k, hs]
        exact Option.mem_some_self s
      · exact Program.coupled_pure fun _ _ ha => ha

/-! ## Runs over both stores -/

/-- One call, over the rows of a store of values and in memory. -/
theorem Agree.call (hP : P.Lawful) (hE : ∀ n, P.length (E.secretKey n) = 32) (ha : Agree P h m)
    (htimes : m.store.DistinctTimes) {c : EngineCall S} (hkeeps : ¬ c.AbandonsRatchet P m.store) :
    ∃ r h' m', c.overSqlite P E (h.serialized P) = (r, h'.serialized P) ∧
      c.overInMemory P E m = (r, m') ∧ Agree P h' m' := by
  obtain ⟨hsqlite, -⟩ := overSqlite_serialized (E := E) hP hE c ha.canonical
  obtain ⟨r, h', m', hrun, hrun', hrel⟩ := overBoth_live (E := E) hP hE c h m ⟨⟨ha, htimes⟩, hkeeps⟩
  refine ⟨r, h', m', ?_, hrun', ?_⟩
  · rw [hsqlite, hrun]
  · cases r with
    | ok a => exact hrel
    | error e => exact hrel

/-- A sequence of calls: equal outcomes, and stores that agree at the end. -/
theorem Agree.calls (hP : P.Lawful) (hE : ∀ n, P.length (E.secretKey n) = 32)
    {calls : List (EngineCall S)} (ha : Agree P h m)
    (htimes : EveryState P E InMemorySignalStore.DistinctTimes calls m)
    (hkeeps : NoneAbandoned P E calls m) :
    ∃ h' m', (runCalls (EngineCall.overSqlite P E) calls (h.serialized P)) =
        ((runCalls (EngineCall.overInMemory P E) calls m).1, h'.serialized P) ∧
      (runCalls (EngineCall.overInMemory P E) calls m).2 = m' ∧ Agree P h' m' ∧
      m'.store.DistinctTimes := by
  induction calls generalizing h m with
  | nil => exact ⟨h, m, rfl, rfl, ha, htimes⟩
  | cons c calls ih =>
      obtain ⟨hnow, hlater⟩ := htimes
      obtain ⟨hcall, hcalls⟩ := hkeeps
      obtain ⟨r, h₁, m₁, hsqlite, hmemory, ha₁⟩ := ha.call hP hE hnow hcall
      rw [hmemory] at hlater hcalls
      obtain ⟨h', m', hrun, hlast, ha', htimes'⟩ := ih ha₁ hlater hcalls
      refine ⟨h', m', ?_, ?_, ha', htimes'⟩
      · rw [runCalls, runCalls, hsqlite, hmemory, hrun]
      · rw [runCalls, hmemory]
        exact hlast

variable (P) in
/-- `getSession`, `countOneTimePreKeys` and `getLatestSignedPreKey` answer the same. -/
def SameAnswers (st : SqliteSignalStore B S) (ms : InMemorySignalStore B S) : Prop :=
  (∀ k, st.getSession P k = .ok (ms.getSession P k)) ∧
    st.countOneTimePreKeys = ms.countOneTimePreKeys ∧
    st.getLatestSignedPreKey P = .ok ms.getLatestSignedPreKey

omit [DecidableEq S] in
theorem Agree.sameAnswers (hP : P.Lawful) (ha : Agree P h m) (htimes : m.store.DistinctTimes) :
    SameAnswers P (h.store.serialized P) m.store := by
  refine ⟨fun k => ?_, ?_, ?_⟩
  · rw [ha.canonical.getSession hP, ha.same.store.getSession]
  · show (h.store.oneTimePreKeys.map _).length = _
    rw [List.length_map, ha.same.store.oneTimePreKeys.size]
    rfl
  · rw [ha.canonical.getLatestSignedPreKey hP, ha.same.store.getLatestSignedPreKey htimes]

variable (P E) in
/-- The calls over a new `SqliteSignalStore` and over a new `InMemorySignalStore` have the same
outcomes, and the stores answer the same afterwards. -/
def Interchangeable (identity : UserIdentity B S) (calls : List (EngineCall S)) : Prop :=
  let sqlite := runCalls (EngineCall.overSqlite P E) calls
    { store := SqliteSignalStore.empty identity, draws := 0 }
  let memory := runCalls (EngineCall.overInMemory P E) calls
    { store := InMemorySignalStore.empty identity, draws := 0 }
  sqlite.1 = memory.1 ∧ SameAnswers P sqlite.2.store memory.2.store

/-- Over calls that abandon no ratchet step the two stores are interchangeable. -/
theorem stores_interchangeable (hP : P.Lawful) (hE : ∀ n, P.length (E.secretKey n) = 32)
    (identity : UserIdentity B S) (calls : List (EngineCall S))
    (htimes : EveryState P E InMemorySignalStore.DistinctTimes calls
      { store := InMemorySignalStore.empty identity, draws := 0 })
    (hkeeps : NoneAbandoned P E calls
      { store := InMemorySignalStore.empty identity, draws := 0 }) :
    Interchangeable P E identity calls := by
  have hempty : Agree P { store := SignalStore.empty identity, draws := 0 }
      { store := InMemorySignalStore.empty identity, draws := 0 } :=
    ⟨⟨sameStores_empty identity, rfl⟩,
      (fun _ hspk => nomatch hspk), (fun _ hopk => nomatch hopk), fun _ _ hs => nomatch hs⟩
  obtain ⟨h', m', hrun, rfl, ha, htimes'⟩ := hempty.calls hP hE htimes hkeeps
  have hsqlite : runCalls (EngineCall.overSqlite P E) calls
      { store := SqliteSignalStore.empty identity, draws := 0 } = _ := hrun
  refine ⟨congrArg Prod.fst hsqlite, ?_⟩
  rw [congrArg Prod.snd hsqlite]
  exact ha.sameAnswers hP htimes'

instance (st : InMemorySignalStore Sym Sym) : Decidable st.DistinctTimes :=
  inferInstanceAs (Decidable (∀ spk ∈ st.signedPreKeys.map Prod.snd,
    ∀ spk' ∈ st.signedPreKeys.map Prod.snd, spk.createdAt = spk'.createdAt → spk = spk'))

/-- A bundle, a first contact and a replay of its message, over symbolic terms. -/
theorem stores_interchangeable_symbolic :
    Interchangeable symbolic symbolicEntropy (symbolicIdentity 1)
      [.generatePreKeyBundle 1, .decrypt (Sym.text "alice") symbolicHello,
        .decrypt (Sym.text "alice") symbolicHello] :=
  stores_interchangeable symbolic_lawful (fun _ => rfl) _ _ (by decide) (by decide)

/-- A message to a new ratchet key that skips too far, in the session `alice` initiated. -/
def farMessage : EncryptedMessage Sym :=
  { ephemeralPublicKeyHex := Sym.hex (Sym.pub (Sym.name 7))
    sequenceNumber := 3000
    previousChainLength := 0
    ciphertext := Sym.base64 Sym.nil
    nonce := Sym.hex Sym.nil
    oneTimePreKeyId := none
    initialIdentityKeyHex := none
    initialEphemeralKeyHex := none }

/-- The failed `decrypt` leaves the ratcheted session in memory, and the old one in the tables. -/
theorem abandoned_ratchet_in_memory_only :
    ¬ ∀ calls : List (EngineCall Sym),
      EveryState symbolic symbolicEntropy InMemorySignalStore.DistinctTimes calls
        { store := InMemorySignalStore.empty (symbolicIdentity 0), draws := 0 } →
      Interchangeable symbolic symbolicEntropy (symbolicIdentity 0) calls := by
  intro hclaim
  obtain ⟨-, hsessions, -⟩ := hclaim
    [.initiateSession (Sym.text "bob") (symbolicBundle symbolicEntropy 0),
      .decrypt (Sym.text "bob") farMessage] (by decide)
  have hremote := congrArg (fun r => r.map fun o => o.map SessionRecord.remoteDhPublicKeyHex)
    (hsessions (Sym.text "bob"))
  revert hremote
  decide

end TorE2EE.Crypto
