import TorE2EE.Crypto.Calls
import TorE2EE.Crypto.SendChains
import TorE2EE.Crypto.Symbolic

/-!
# Store failures and restarts

Engine calls one after another over one database, each of which may be cut after any number of
operations: a store call of it fails, or the process stops and starts again from the database. What a
call that is cut has not returned is lost, and what it has saved is kept.

`message_keys_seal_once`: among the ciphertexts `encrypt` has returned for one peer, no two were
sealed under the same message key, and no two have the same header. `Ledger` is the invariant: it
relates the saved session to all ciphertexts handed out for the peer.
-/

set_option autoImplicit false

namespace TorE2EE.Crypto

open TorE2EE.Foundation

variable {B S : Type} [DecidableEq S]

/-! ## The process -/

/-- A database under calls of the engine, with the ciphertexts `encrypt` has returned so far, each
with the identity key it was called for. -/
structure Process (B S : Type) where
  host : Host B S
  returned : List (S × EncryptedMessage S)

/-- A call, and the number of operations after which it is cut. A store call that fails is the next
operation, or the last one when it had its effect. -/
structure CallAttempt (S : Type) where
  call : EngineCall S
  cut : Option Nat

/-- The ciphertext a call has returned, with the identity key it was called for. -/
def returnedBy (call : EngineCall S)
    (outcome : Option (Except (EngineError S) (EngineAnswer B S))) :
    Option (S × EncryptedMessage S) :=
  match call, outcome with
  | .encrypt k _ _, some (.ok (.message m)) => some (k, m)
  | _, _ => none

namespace Process

variable (P : Primitives B S) (E : Entropy B)

/-- One call, to its end or cut. -/
def step (x : Process B S) (a : CallAttempt S) : Process B S :=
  let r := Program.runUpTo (EngineOp.handle P E) a.cut (a.call.program P) x.host
  { host := r.2, returned := (returnedBy a.call r.1).toList ++ x.returned }

/-- One call after another. -/
def run (x : Process B S) (attempts : List (CallAttempt S)) : Process B S :=
  attempts.foldl (step P E) x

/-- The ciphertexts returned for the peer `k`, the latest first. -/
def sentTo (x : Process B S) (k : S) : List (EncryptedMessage S) :=
  (x.returned.filter fun e => P.toLowerCase e.1 = P.toLowerCase k).map Prod.snd

end Process

/-! ## The ledger -/

/-- `sent` are the ciphertexts returned for the peer `k`: they are pairwise apart, each was sealed
with a key pair drawn so far, and the saved session seals past them. -/
structure Ledger (P : Primitives B S) (E : Entropy B) (k : S) (h : Host B S)
    (sent : List (EncryptedMessage S)) : Prop where
  apart : sent.Pairwise (Apart P)
  sealedWith : ∀ m ∈ sent, ∃ d < h.draws, SealedWith P E h.store.identity.encryptionKey d m
  session : ∀ s, h.store.getSession P k = some s →
    ∃ d < h.draws, SendSide P E h.store.identity.encryptionKey sent d s
  noSession : h.store.getSession P k = none → sent = []

variable {P : Primitives B S} {E : Entropy B} {k : S} {h h' : Host B S}
  {sent : List (EncryptedMessage S)}

omit [DecidableEq S] in
theorem Ledger.frame (hl : Ledger P E k h sent) (hid : h'.store.identity = h.store.identity)
    (hsession : h'.store.getSession P k = h.store.getSession P k) (hdraws : h.draws ≤ h'.draws) :
    Ledger P E k h' sent := by
  refine ⟨hl.apart, ?_, ?_, ?_⟩
  · intro m hm
    obtain ⟨d, hd, hsealed⟩ := hl.sealedWith m hm
    rw [hid]
    exact ⟨d, Nat.lt_of_lt_of_le hd hdraws, hsealed⟩
  · intro s hs
    rw [hsession] at hs
    obtain ⟨d, hd, hside⟩ := hl.session s hs
    rw [hid]
    exact ⟨d, Nat.lt_of_lt_of_le hd hdraws, hside⟩
  · rw [hsession]
    exact hl.noSession

omit [DecidableEq S] in
/-- The ledger is kept under the lower-cased key. -/
theorem Ledger.congr_key {k' : S} (hl : Ledger P E k h sent)
    (hkey : P.toLowerCase k = P.toLowerCase k') : Ledger P E k' h sent := by
  have hsession : h.store.getSession P k' = h.store.getSession P k := by
    rw [SignalStore.getSession, ← hkey, SignalStore.getSession]
  refine ⟨hl.apart, hl.sealedWith, ?_, ?_⟩
  · rw [hsession]
    exact hl.session
  · rw [hsession]
    exact hl.noSession

omit [DecidableEq S] in
/-- A ciphertext that was sealed but not returned is forgotten. -/
theorem Ledger.tail {m : EncryptedMessage S} (hl : Ledger P E k h (m :: sent)) :
    Ledger P E k h sent := by
  refine ⟨hl.apart.of_cons, fun m' hm' => hl.sealedWith m' (List.mem_cons_of_mem _ hm'), ?_, ?_⟩
  · intro s hs
    obtain ⟨d, hd, hside⟩ := hl.session s hs
    refine ⟨d, hd, hside.localKey, hside.root, ?_, ?_, ?_⟩
    · intro hex hhex
      obtain ⟨c, hc, horigin⟩ := hside.chain hex hhex
      exact ⟨c, hc, horigin.imp id fun ⟨hfirst, hall⟩ =>
        ⟨hfirst, fun m' hm' => hall m' (List.mem_cons_of_mem _ hm')⟩⟩
    · intro hnone
      cases (hside.unsent hnone).2
    · exact fun m' hm' => hside.behind m' (List.mem_cons_of_mem _ hm')
  · intro hnone
    cases hl.noSession hnone

/-- A session whose sending side is known may be saved. -/
theorem Ledger.saveSession (hl : Ledger P E k h sent) {s : SessionRecord B S} {d draws : Nat}
    (hd : d < draws) (hdraws : h.draws ≤ draws)
    (hside : SendSide P E h.store.identity.encryptionKey sent d s) :
    Ledger P E k { store := h.store.saveSession P k s, draws } sent := by
  refine ⟨hl.apart, ?_, ?_, ?_⟩
  · intro m hm
    obtain ⟨d', hd', hsealed⟩ := hl.sealedWith m hm
    exact ⟨d', Nat.lt_of_lt_of_le hd' hdraws, hsealed⟩
  · intro s' hs'
    rw [SignalStore.getSession_saveSession_self] at hs'
    cases hs'
    exact ⟨d, hd, hside⟩
  · intro hnone
    rw [SignalStore.getSession_saveSession_self] at hnone
    cases hnone

/-! ## Sessions that are set up -/

omit [DecidableEq S] in
/-- All messages so far were sealed with keys drawn before the next one. -/
theorem Ledger.key_ne (hl : Ledger P E k h sent) (hE : E.Fresh P) {m : EncryptedMessage S}
    (hm : m ∈ sent) : m.ephemeralPublicKeyHex ≠ drawnPublicKeyHex P E h.draws := by
  obtain ⟨d, hd, hsealed⟩ := hl.sealedWith m hm
  rw [hsealed.key]
  intro heq
  have := hE.drawnPublicKeyHex_inj heq
  omega

omit [DecidableEq S] in
/-- A session whose key pair has just been drawn seals past everything. -/
theorem Ledger.renewed (hl : Ledger P E k h sent) (hE : E.Fresh P) {s : SessionRecord B S}
    (hlocal : s.localDhKeyPair = keyPairOf P (E.secretKey h.draws))
    (hroot : ∃ dhs n r, P.hexToBytes s.rootKeyHex = .ok r ∧ RootAt P dhs n r ∧ 0 < n)
    (hcount : s.sendSequenceNumber = 0) {c : B} (hchain : s.sendChainKeyHex = some (P.bytesToHex c))
    (hc : RenewedChain P E h.store.identity.encryptionKey h.draws c) :
    SendSide P E h.store.identity.encryptionKey sent h.draws s := by
  have hsome : s.sendChainKeyHex ≠ none := by simp [hchain]
  refine ⟨hlocal, ?_, ?_, fun hnone => absurd hnone hsome, ?_⟩
  · obtain ⟨dhs, n, r, hr, hat, hpos⟩ := hroot
    exact ⟨dhs, n, r, hr, hat, hpos, fun hnone => absurd hnone hsome⟩
  · intro hex hhex
    cases hchain.symm.trans hhex
    exact ⟨c, by rw [hcount, chainKeyAt_zero], Or.inl hc⟩
  · intro m hm hkey
    exact absurd hkey (hl.key_ne hE hm)

/-- `initiateSession` keeps the ledger. -/
theorem Ledger.initiateSession (hl : Ledger P E k h sent) (hP : P.Lawful) (hE : E.Fresh P)
    {bundle : PreKeyBundle S} {r : Except (EngineError S) (SessionRecord B S)}
    (hrun : (Crypto.initiateSession P k bundle).run P E h = (r, h')) : Ledger P E k h' sent := by
  rcases run_initiateSession_cases P E k bundle h with
    ⟨e, h₁, hfail, hstore, hdraws⟩ | ⟨dhs, initialDh, hin⟩
  · rw [hfail] at hrun
    cases hrun
    exact hl.frame (by rw [hstore]) (by rw [hstore]) hdraws
  · rw [run_initiateSession_of_inputs hin] at hrun
    cases hrun
    obtain ⟨ikB, spkB, -, -, hdhs, -⟩ := hin.keys
    have hside := hl.renewed hE (s := initiatedSession P bundle
      (kdfRoot P (masterSecret P dhs) initialDh) (keyPairOf P (E.secretKey h.draws))
      (E.now (h.draws + 1)) (E.now (h.draws + 2))) rfl
      ⟨dhs, 1, _, hP.hexToBytes_bytesToHex _, rootAt_one hin.dhValues initialDh,
        Nat.zero_lt_one⟩ rfl rfl (.initiated hdhs)
    exact hl.saveSession (by omega) (by omega) hside

omit [DecidableEq S] in
/-- A responder's session has sealed nothing. -/
theorem sendSide_respondedSession (hP : P.Lawful) (ikA : Curve25519KeyPair B S) (k : S)
    (m : EncryptedMessage S) {dhs : List B} (hdhs : DhValues P dhs) (initialDh : B)
    (d createdAt updatedAt : Nat) :
    SendSide P E ikA [] d (respondedSession P k m (kdfRoot P (masterSecret P dhs) initialDh)
      (keyPairOf P (E.secretKey d)) createdAt updatedAt) where
  localKey := rfl
  root := ⟨dhs, 1, _, hP.hexToBytes_bytesToHex _, rootAt_one hdhs initialDh, Nat.zero_lt_one,
    fun _ => rfl⟩
  chain _ hhex := by cases hhex
  unsent _ := ⟨rfl, rfl⟩
  behind _ hm := by cases hm

/-! ## Sealing -/

/-- The ciphertexts returned after an `encrypt` had the outcome `r`. -/
def sentAfter (r : Except (EngineError S) (EncryptedMessage S)) (sent : List (EncryptedMessage S)) :
    List (EncryptedMessage S) :=
  match r with
  | .ok m => m :: sent
  | .error _ => sent

/-- `encrypt` keeps the ledger with the ciphertext it seals. -/
theorem Ledger.encrypt (hl : Ledger P E k h sent) (hP : P.Lawful) (hfree : P.FreeTerms)
    (hE : E.Fresh P) {plaintext : S} {context : Option InitialBundleContext}
    {r : Except (EngineError S) (EncryptedMessage S)}
    (hrun : (Crypto.encrypt P k plaintext context).run P E h = (r, h')) :
    Ledger P E k h' (sentAfter r sent) := by
  rcases run_encrypt_cases P E k plaintext context h with
    ⟨e, hfail⟩ | ⟨stored, s, chainHex, c, hstored, hchain, hc, hok⟩
  · rw [hfail] at hrun
    cases hrun
    exact hl
  · rw [hok] at hrun
    cases hrun
    obtain ⟨d, hd, hside⟩ := hl.session stored hstored
    obtain ⟨hside', hsome⟩ := hside.ensureSendChain hP hchain
    have hsent : ∀ m ∈ sent, ∃ e, SealedWith P E h.store.identity.encryptionKey e m := by
      intro m hm
      obtain ⟨e, -, he⟩ := hl.sealedWith m hm
      exact ⟨e, he⟩
    obtain ⟨hnew, hapart, hafter⟩ := hside'.sealed hP hfree hE hsent hsome hc h.store.identity
      (hE.nonce (h.draws + 1)) plaintext context (E.now h.draws)
    refine ⟨List.pairwise_cons.2 ⟨hapart, hl.apart⟩, ?_, ?_, ?_⟩
    · intro m hm
      rcases List.mem_cons.1 hm with rfl | hold
      · exact ⟨d, Nat.lt_add_right 2 hd, hnew⟩
      · obtain ⟨e, he, hsealed⟩ := hl.sealedWith m hold
        exact ⟨e, Nat.lt_add_right 2 he, hsealed⟩
    · intro s' hs'
      rw [SignalStore.getSession_saveSession_self] at hs'
      cases hs'
      exact ⟨d, Nat.lt_add_right 2 hd, hafter⟩
    · intro hnone
      rw [SignalStore.getSession_saveSession_self] at hnone
      cases hnone

/-! ## Receiving -/

/-- Skipping concerns the receiving side. -/
theorem SendSide.skipMessageKeys {ikA : Curve25519KeyPair B S} {d : Nat} {s s' : SessionRecord B S}
    (hside : SendSide P E ikA sent d s) {upTo : Int}
    (hskip : Crypto.skipMessageKeys P s upTo = .ok s') : SendSide P E ikA sent d s' := by
  rcases skipMessageKeys_cases P hskip with ⟨-, rfl⟩ | ⟨_, _, _, _, _, _, _, rfl⟩
  · exact hside
  · exact hside.congr rfl rfl rfl rfl

/-- `decrypt` in a session keeps the ledger: the sending side is kept, or a ratchet step renews it
with a key pair of its own. -/
theorem Ledger.decryptInSession (hl : Ledger P E k h sent) (hP : P.Lawful) (hE : E.Fresh P)
    {s : SessionRecord B S} (hs : h.store.getSession P k = some s) {m : EncryptedMessage S}
    {r : Except (EngineError S) S}
    (hrun : (Crypto.decryptInSession P k m s).run P E h = (r, h')) : Ledger P E k h' sent := by
  rcases run_decryptInSession_cases P E k m s h with
    ⟨e, h₁, hfail, hstore, hdraws, -⟩ | ⟨key, saved, hsel⟩
  · rw [hfail] at hrun
    cases hrun
    exact hl.frame (by rw [hstore]) (by rw [hstore]) hdraws
  · obtain ⟨now, draws, hok, hdraws, hmore⟩ := run_decryptInSession_of_selects (k := k) hsel
    rw [hok] at hrun
    cases hrun
    obtain ⟨d, hd, hside⟩ := hl.session s hs
    cases hsel with
    | skipped _ _ =>
        exact hl.saveSession (Nat.lt_of_lt_of_le hd hdraws) hdraws (hside.congr rfl rfl rfl rfl)
    | head hnone hmove _ _ =>
        cases hmove with
        | stay _ hskip =>
            have hskipped := hside.skipMessageKeys hskip
            exact hl.saveSession (Nat.lt_of_lt_of_le hd hdraws) hdraws
              (hskipped.congr rfl rfl rfl rfl)
        | @ratchet s₁ _ rootKey remoteDh dhReceive dhSend _ hskip hin hskip' =>
            have hside₁ := hside.skipMessageKeys hskip
            obtain ⟨dhs, n, rk, hr, hat, hpos, -⟩ := hside₁.root
            cases hr.symm.trans hin.root
            -- the renewed key pair is of this draw, later than that of any message sealed before
            have hreceive := hin.receive
            rw [hside₁.localKey] at hreceive
            have hrenewed := hl.renewed hE
              (s := s₁.ratcheted P m.ephemeralPublicKeyHex rootKey dhReceive dhSend
                (keyPairOf P (E.secretKey h.draws))) rfl
              ⟨dhs, n + 2, _, hP.hexToBytes_bytesToHex _, (hat.next dhReceive).next dhSend,
                by omega⟩ rfl rfl
              (.ratcheted (Nat.ne_of_lt hd) hat hpos hreceive hin.send)
            have hskipped := hrenewed.skipMessageKeys hskip'
            have hlt := hmore hnone
            exact hl.saveSession (by omega) hdraws (hskipped.congr rfl rfl rfl rfl)

omit [DecidableEq S] in
/-- A first contact keeps the ledger: nothing was returned for a peer without a session. -/
theorem Ledger.withoutNamed (hl : Ledger P E k h sent) (id : Option Int) {draws : Nat}
    (hdraws : h.draws ≤ draws) :
    Ledger P E k { store := h.store.withoutNamed id, draws } sent :=
  hl.frame (SignalStore.identity_withoutNamed _ _) (SignalStore.getSession_withoutNamed P _ _ k)
    hdraws

/-- `initiateBobSession` keeps the ledger. -/
theorem Ledger.initiateBobSession (hl : Ledger P E k h sent) (hP : P.Lawful)
    (hnone : h.store.getSession P k = none) {m : EncryptedMessage S}
    {r : Except (EngineError S) (SessionRecord B S)}
    (hrun : (Crypto.initiateBobSession P k m).run P E h = (r, h')) :
    Ledger P E k h' sent ∧ ∀ s, r = .ok s → h'.store.getSession P k = some s := by
  rcases run_initiateBobSession_cases P E k m h with
    ⟨e, hfail, -⟩ | ⟨e, ikA, ekA, spk, hfail, -⟩ | ⟨dhs, initialDh, hin⟩
  · rw [hfail] at hrun
    cases hrun
    exact ⟨hl, fun s hs => by cases hs⟩
  · rw [hfail] at hrun
    cases hrun
    exact ⟨hl.withoutNamed m.oneTimePreKeyId (Nat.le_refl _), fun s hs => by cases hs⟩
  · rw [run_initiateBobSession_of_inputs hin] at hrun
    cases hrun
    cases hl.noSession hnone
    have htaken := hl.withoutNamed m.oneTimePreKeyId (Nat.le_refl _)
    refine ⟨?_, ?_⟩
    · exact htaken.saveSession (d := h.draws) (by omega) (Nat.le_add_right _ _)
        (sendSide_respondedSession hP _ k m hin.dhValues initialDh _ _ _)
    · intro s hs
      cases hs
      exact SignalStore.getSession_saveSession_self P _ _ _

/-! ## Calls that are cut -/

omit [DecidableEq S] in
theorem Ledger.sessionFrame (hl : Ledger P E k h sent) (hf : SessionFrame P h h') :
    Ledger P E k h' sent :=
  hl.frame hf.identity (hf.sessions k) hf.draws

/-- A call with one saved session at the end keeps the ledger when its whole run does. -/
theorem Ledger.savesLast {α : Type} (hl : Ledger P E k h sent) {p : EngineM B S α}
    (hp : SavesLast p) (hwhole : Ledger P E k (p.run P E h).2 sent) (cut : Option Nat) :
    Ledger P E k (Program.runUpTo (EngineOp.handle P E) cut p h).2 sent := by
  rcases hp.runUpTo cut h with hframe | heq
  · exact hl.sessionFrame hframe
  · rw [heq]
    exact hwhole

/-- `encrypt`, cut or not, keeps the ledger with the ciphertext it returns. -/
theorem Ledger.encrypt_upTo (hl : Ledger P E k h sent) (hP : P.Lawful) (hfree : P.FreeTerms)
    (hE : E.Fresh P) {plaintext : S} {context : Option InitialBundleContext} {cut : Option Nat}
    {r : Option (Except (EngineError S) (EncryptedMessage S))}
    (hrun : Program.runUpTo (EngineOp.handle P E) cut (Crypto.encrypt P k plaintext context) h =
      (r, h')) :
    Ledger P E k h' (r.elim sent fun r => sentAfter r sent) := by
  cases r with
  | some r => exact hl.encrypt hP hfree hE (Program.run_of_runUpTo hrun)
  | none =>
      have hwhole : Ledger P E k ((Crypto.encrypt P k plaintext context).run P E h).2 sent := by
        generalize hfull : (Crypto.encrypt P k plaintext context).run P E h = full
        obtain ⟨r, h₁⟩ := full
        have hl₁ := hl.encrypt hP hfree hE hfull
        -- a ciphertext that was sealed is not handed out
        cases r with
        | ok m => exact hl₁.tail
        | error e => exact hl₁
      have hcut := hl.savesLast (savesLast_encrypt P k plaintext context) hwhole cut
      rw [hrun] at hcut
      exact hcut

/-- The session `decrypt` works in is the saved one, and the ledger is kept. -/
theorem Ledger.sessionFor (hl : Ledger P E k h sent) (hP : P.Lawful) {m : EncryptedMessage S}
    {r : Except (EngineError S) (SessionRecord B S)}
    (hrun : (Crypto.sessionFor P k m).run P E h = (r, h')) :
    Ledger P E k h' sent ∧ ∀ s, r = .ok s → h'.store.getSession P k = some s := by
  cases hs : h.store.getSession P k with
  | some s =>
      have hread : (Crypto.sessionFor P k m).run P E h = (.ok s, h) := by
        simp [Crypto.sessionFor, EngineOp.handle, hs]
      rw [hread] at hrun
      cases hrun
      refine ⟨hl, fun s' hs' => ?_⟩
      cases hs'
      exact hs
  | none =>
      have hread : (Crypto.sessionFor P k m).run P E h =
          (Crypto.initiateBobSession P k m).run P E h := by
        simp [Crypto.sessionFor, EngineOp.handle, hs]
      rw [hread] at hrun
      exact hl.initiateBobSession hP hs hrun

/-- `decrypt`, cut or not, keeps a ledger that both its parts keep. -/
theorem Ledger.decrypt_parts (hl : Ledger P E k h sent) {k' : S} {m : EncryptedMessage S}
    (hsession : Ledger P E k ((Crypto.sessionFor P k' m).run P E h).2 sent)
    (hinside : ∀ s h₁, (Crypto.sessionFor P k' m).run P E h = (.ok s, h₁) →
      Ledger P E k h₁ sent ∧ Ledger P E k ((Crypto.decryptInSession P k' m s).run P E h₁).2 sent)
    (cut : Option Nat) :
    Ledger P E k (Program.runUpTo (EngineOp.handle P E) cut (Crypto.decrypt P k' m) h).2 sent := by
  rw [decrypt_eq]
  rcases Program.runUpTo_bind (h := EngineOp.handle P E) (Crypto.sessionFor P k' m)
      (fun s => Crypto.decryptInSession P k' m s) cut h with
    ⟨h₁, hrun, hcut⟩ | ⟨e, h₁, hrun, hfail⟩ | ⟨s, h₁, cut', hrun, hok⟩
  · have hkept := hl.savesLast (savesLast_sessionFor P k' m) hsession cut
    rw [hcut] at hkept
    rw [hrun]
    exact hkept
  · rw [hrun]
    rw [EngineM.run, hfail] at hsession
    exact hsession
  · rw [hrun]
    obtain ⟨hl₁, hdone⟩ := hinside s h₁ hok
    exact hl₁.savesLast (savesLast_decryptInSession P k' m s) hdone cut'

theorem Ledger.decrypt_upTo (hl : Ledger P E k h sent) (hP : P.Lawful) (hE : E.Fresh P)
    (m : EncryptedMessage S) (cut : Option Nat) :
    Ledger P E k (Program.runUpTo (EngineOp.handle P E) cut (Crypto.decrypt P k m) h).2 sent := by
  refine hl.decrypt_parts (hl.sessionFor hP rfl).1 ?_ cut
  intro s h₁ hok
  obtain ⟨hl₁, hs⟩ := hl.sessionFor hP hok
  exact ⟨hl₁, hl₁.decryptInSession hP hE (hs s rfl) rfl⟩

/-! ## Calls for other peers -/

omit [DecidableEq S] in
theorem Ledger.callFrame (hl : Ledger P E k h sent) {k' : S} (hf : CallFrame P k' h h')
    (hne : P.toLowerCase k ≠ P.toLowerCase k') : Ledger P E k h' sent :=
  hl.frame hf.identity (hf.sessions k hne) hf.draws

theorem callFrame_sessionFor {k' : S} {m : EncryptedMessage S}
    {r : Except (EngineError S) (SessionRecord B S)}
    (hrun : (Crypto.sessionFor P k' m).run P E h = (r, h')) : CallFrame P k' h h' := by
  cases hs : h.store.getSession P k' with
  | some s =>
      have hread : (Crypto.sessionFor P k' m).run P E h = (.ok s, h) := by
        simp [Crypto.sessionFor, EngineOp.handle, hs]
      rw [hread] at hrun
      cases hrun
      exact .of_store rfl (Nat.le_refl _)
  | none =>
      have hread : (Crypto.sessionFor P k' m).run P E h =
          (Crypto.initiateBobSession P k' m).run P E h := by
        simp [Crypto.sessionFor, EngineOp.handle, hs]
      -- a contact that fails late has taken the one-time prekey all the same
      have htaken : CallFrame P k' h { h with store := h.store.withoutNamed m.oneTimePreKeyId } :=
        ⟨SignalStore.identity_withoutNamed _ _, SignalStore.signedPreKeys_withoutNamed _ _,
          fun k _ => SignalStore.getSession_withoutNamed P _ _ k, Nat.le_refl _⟩
      rw [hread] at hrun
      rcases run_initiateBobSession_cases P E k' m h with
        ⟨e, hfail, -⟩ | ⟨e, ikA, ekA, spk, hfail, -⟩ | ⟨dhs, initialDh, hin⟩
      · rw [hfail] at hrun
        cases hrun
        exact .of_store rfl (Nat.le_refl _)
      · rw [hfail] at hrun
        cases hrun
        exact htaken
      · rw [run_initiateBobSession_of_inputs hin] at hrun
        cases hrun
        exact htaken.trans (callFrame_saveSession k' _ _ (Nat.le_add_right _ _))

/-! ## Runs -/

/-- The ciphertexts of the peer `k` after a call. -/
theorem Process.sentTo_step (x : Process B S) (a : CallAttempt S) (k : S) :
    (x.step P E a).sentTo P k =
      (((returnedBy a.call (Program.runUpTo (EngineOp.handle P E) a.cut (a.call.program P)
        x.host).1).toList.filter fun e => P.toLowerCase e.1 = P.toLowerCase k).map Prod.snd) ++
        x.sentTo P k := by
  simp only [Process.sentTo, Process.step, List.filter_append, List.map_append]

/-- Every call, cut or not, keeps the ledger of every peer. -/
theorem Ledger.step {x : Process B S} (hl : Ledger P E k x.host (x.sentTo P k)) (hP : P.Lawful)
    (hfree : P.FreeTerms) (hE : E.Fresh P) (a : CallAttempt S) :
    Ledger P E k (x.step P E a).host ((x.step P E a).sentTo P k) := by
  obtain ⟨call, cut⟩ := a
  rw [Process.sentTo_step]
  show Ledger P E k (Program.runUpTo (EngineOp.handle P E) cut (call.program P) x.host).2 _
  cases call with
  | generatePreKeyBundle count =>
      rw [EngineCall.program, Program.runUpTo_bind_pure]
      have hframe := Program.Quiet.runUpTo (quiet_generatePreKeyBundle P count) SessionFrame.refl
        (fun _ _ _ => SessionFrame.trans)
        (fun _ h ho => sessionFrame_handle (P := P) (E := E) ho h) cut x.host
      exact hl.sessionFrame hframe
  | initiateSession k' bundle =>
      rw [EngineCall.program, Program.runUpTo_bind_pure]
      refine hl.savesLast (savesLast_initiateSession P k' bundle) ?_ cut
      by_cases hkey : P.toLowerCase k = P.toLowerCase k'
      · exact ((hl.congr_key hkey).initiateSession hP hE rfl).congr_key hkey.symm
      · exact hl.callFrame (callFrame_initiateSession rfl) hkey
  | encrypt k' plaintext context =>
      rw [EngineCall.program, Program.runUpTo_bind_pure]
      by_cases hkey : P.toLowerCase k = P.toLowerCase k'
      · cases hout : Program.runUpTo (EngineOp.handle P E) cut
          (Crypto.encrypt P k' plaintext context) x.host with
        | mk out h₁ =>
            have hkept := ((hl.congr_key hkey).encrypt_upTo hP hfree hE hout).congr_key hkey.symm
            rcases out with _ | _ | m
            · exact hkept
            · exact hkept
            · simpa [returnedBy, hkey, sentAfter, Except.map] using hkept
      · have hkept := hl.savesLast (savesLast_encrypt P k' plaintext context)
          (hl.callFrame (callFrame_encrypt rfl) hkey) cut
        cases hout : Program.runUpTo (EngineOp.handle P E) cut
          (Crypto.encrypt P k' plaintext context) x.host with
        | mk out h₁ =>
            rw [hout] at hkept
            -- what was returned is for another peer
            rcases out with _ | _ | m
            · exact hkept
            · exact hkept
            · simpa [returnedBy, Ne.symm hkey, Except.map] using hkept
  | decrypt k' m =>
      rw [EngineCall.program, Program.runUpTo_bind_pure]
      by_cases hkey : P.toLowerCase k = P.toLowerCase k'
      · exact ((hl.congr_key hkey).decrypt_upTo hP hE m cut).congr_key hkey.symm
      · refine hl.decrypt_parts (hl.callFrame (callFrame_sessionFor rfl) hkey) ?_ cut
        intro s h₁ hok
        have hl₁ := hl.callFrame (callFrame_sessionFor hok) hkey
        exact ⟨hl₁, hl₁.callFrame (callFrame_decryptInSession rfl) hkey⟩

theorem Ledger.run {x : Process B S} (hl : Ledger P E k x.host (x.sentTo P k)) (hP : P.Lawful)
    (hfree : P.FreeTerms) (hE : E.Fresh P) (attempts : List (CallAttempt S)) :
    Ledger P E k (x.run P E attempts).host ((x.run P E attempts).sentTo P k) := by
  induction attempts generalizing x with
  | nil => exact hl
  | cons a attempts ih => exact ih (hl.step hP hfree hE a)

/-- In every sequence of engine calls over one database, each of them run to its end or cut by a
failing store call or the end of the process, no two ciphertexts `encrypt` has returned for one peer
were sealed under the same message key or have the same header. -/
theorem message_keys_seal_once (hP : P.Lawful) (hfree : P.FreeTerms) (hE : E.Fresh P) {h : Host B S}
    {k : S} (hnew : h.store.getSession P k = none) (attempts : List (CallAttempt S)) :
    ((Process.run P E { host := h, returned := [] } attempts).sentTo P k).Pairwise (Apart P) := by
  have hstart : Ledger P E k h [] := by
    refine ⟨List.Pairwise.nil, ?_, ?_, fun _ => rfl⟩
    · intro m hm
      cases hm
    · intro s hs
      rw [hnew] at hs
      cases hs
  have hrun : Ledger P E k (Process.run P E { host := h, returned := [] } attempts).host _ :=
    Ledger.run hstart hP hfree hE attempts
  exact hrun.apart

/-! ## Two calls that are cut -/

open TorE2EE.Crypto.Sym

/-- `alice` initiates a session and calls `encrypt` four times: the second call is cut before the
session is saved, the third one after. -/
def interruptedCalls : List (CallAttempt Sym) :=
  let k := hex (pub (name 1))
  [{ call := .initiateSession k (symbolicBundle symbolicEntropy 1), cut := none },
    { call := .encrypt k (text "one") none, cut := none },
    { call := .encrypt k (text "two") none, cut := some 3 },
    { call := .encrypt k (text "three") none, cut := some 4 },
    { call := .encrypt k (text "four") none, cut := none }]

theorem message_keys_seal_once_symbolic :
    let x := Process.run symbolic symbolicEntropy
      { host := { store := SignalStore.empty (symbolicIdentity 0), draws := 10 }, returned := [] }
      interruptedCalls
    (x.sentTo symbolic (hex (pub (name 1)))).map EncryptedMessage.sequenceNumber = [2, 0] ∧
      (x.sentTo symbolic (hex (pub (name 1)))).Pairwise (Apart symbolic) :=
  ⟨by decide, message_keys_seal_once symbolic_lawful symbolic_freeTerms (fresh_of_secretKey rfl rfl) rfl
    interruptedCalls⟩

end TorE2EE.Crypto
