import TorE2EE.Crypto.Symbolic
import TorE2EE.Crypto.MessageKeys
import TorE2EE.Foundation.Pool
import Mathlib.Data.List.Nodup

/-!
# Concurrent calls

`encrypt` and `decrypt` calls for one peer over one database, their store operations interleaved:
several frames of one chunk handed to `onMessage` without waiting, or two engines on one database.
Every call reads the session record, changes it and writes it back, and nothing locks it.

`interleaved_calls_serializable`: the calls answer, and leave the store, as if they had been made
one after another in order of arrival, and no two ciphertexts have the same header, as long as every
session and prekey operation waits for the calls that arrived before to be through with theirs.
`interleaved_calls_reuse_header` has two `encrypt` calls that do not wait.
-/

set_option autoImplicit false

namespace TorE2EE.Crypto

open TorE2EE.Foundation

variable {B S : Type} [DecidableEq S] (P : Primitives B S)

/-! ## Calls -/

/-- A call for a peer. -/
inductive PeerCall (S : Type) where
  | encrypt (recipientIdentityKeyHex plaintext : S)
      (initialBundleContext : Option InitialBundleContext)
  | decrypt (senderIdentityKeyHex : S) (message : EncryptedMessage S)

/-- What a call for a peer returns. -/
inductive PeerAnswer (S : Type) where
  | sealed (message : EncryptedMessage S)
  | opened (plaintext : S)
  deriving DecidableEq

omit [DecidableEq S] in
/-- The identity key a call names its peer by. -/
def PeerCall.peer : PeerCall S → S
  | encrypt recipientIdentityKeyHex _ _ => recipientIdentityKeyHex
  | decrypt senderIdentityKeyHex _ => senderIdentityKeyHex

/-- The engine call. -/
def PeerCall.program : PeerCall S → EngineM B S (PeerAnswer S)
  | encrypt recipientIdentityKeyHex plaintext initialBundleContext => do
      let message ← Crypto.encrypt P recipientIdentityKeyHex plaintext initialBundleContext
      pure (.sealed message)
  | decrypt senderIdentityKeyHex message => do
      let plaintext ← Crypto.decrypt P senderIdentityKeyHex message
      pure (.opened plaintext)

/-- A call with the random draws and the clock it reads. -/
structure IssuedCall (B S : Type) where
  call : PeerCall S
  entropy : Entropy B

/-- The run of one call on a store, with nothing in between its operations. -/
def IssuedCall.run (a : IssuedCall B S) (st : SignalStore B S) :
    Except (EngineError S) (PeerAnswer S) × SignalStore B S :=
  let r := (a.call.program P).run P a.entropy { store := st, draws := 0 }
  (r.1, r.2.store)

/-- The calls one after another: their answers, and the store they leave. -/
def oneAfterAnother : List (IssuedCall B S) → SignalStore B S →
    List (Except (EngineError S) (PeerAnswer S)) × SignalStore B S
  | [], st => ([], st)
  | a :: calls, st =>
      let r := a.run P st
      let rest := oneAfterAnother calls r.2
      (r.1 :: rest.1, rest.2)

/-! ## Interleaved calls -/

/-- The effect and the answer of one operation, over a store and the call's own draw number. -/
def EngineOp.handleCall (E : Entropy B) :
    Handler (EngineOp B S) EngineOp.Resp (SignalStore B S × Nat) :=
  fun o s =>
    let r := EngineOp.handle P E o { store := s.1, draws := s.2 }
    (r.1, r.2.store, r.2.draws)

/-- The operations that touch neither the sessions nor the prekeys. -/
def EngineOp.Quiet : EngineOp B S → Prop
  | getIdentity => True
  | saveSignedPreKey _ _ => False
  | getLatestSignedPreKey => False
  | saveOneTimePreKey _ _ => False
  | getOneTimePreKey _ => False
  | removeOneTimePreKey _ => False
  | saveSession _ _ => False
  | getSession _ => False
  | secretKey => True
  | randomBytes _ => True
  | randomId => True
  | now => True

/-- A call before its first operation. -/
def IssuedCall.thread (a : IssuedCall B S) :
    Thread (EngineOp B S) EngineOp.Resp (EngineError S) (PeerAnswer S) (SignalStore B S) Nat :=
  { handle := EngineOp.handleCall P a.entropy, own := 0, rest := a.call.program P }

/-- Calls under way over one database, in order of arrival. -/
abbrev CallPool (B S : Type) : Type :=
  Pool (EngineOp B S) EngineOp.Resp (EngineError S) (PeerAnswer S) (SignalStore B S) Nat

/-- The calls before their first operations. -/
def callPool (calls : List (IssuedCall B S)) (st : SignalStore B S) : CallPool B S :=
  { threads := calls.map (IssuedCall.thread P), store := st }

/-- The header of the ciphertext a call returned. -/
def sentHeader? (r : Except (EngineError S) (PeerAnswer S)) : Option (S × Int) :=
  match r with
  | .ok (.sealed message) => some message.header
  | .ok (.opened _) => none
  | .error _ => none

/-- The headers of the ciphertexts returned so far. -/
def sentHeaders (p : CallPool B S) : List (S × Int) :=
  (p.threads.filterMap Thread.outcome?).filterMap sentHeader?

/-- The operations keep the identity, and the quiet ones see nothing else of the store. -/
theorem respects_handleCall (E : Entropy B) :
    (EngineOp.handleCall P E).Respects EngineOp.Quiet
      (SignalStore.identity : SignalStore B S → UserIdentity B S) where
  env_eq o s l := by cases o <;> rfl
  store_eq o s l ho := by
    cases o with
    | getIdentity | secretKey | randomBytes | randomId | now => rfl
    | _ => exact ho.elim
  answer_eq o s s' l ho hs := by
    cases o with
    | getIdentity => exact hs
    | secretKey | randomBytes | randomId | now => rfl
    | _ => exact ho.elim
  own_eq o s s' l ho _ := by
    cases o with
    | getIdentity | secretKey | randomBytes | randomId | now => rfl
    | _ => exact ho.elim

theorem run_thread (a : IssuedCall B S) (st : SignalStore B S) : (a.thread P).run st = a.run P st := by
  let h : Host B S := { store := st, draws := 0 }
  have hsim : Program.run (EngineOp.handleCall P a.entropy) (a.call.program P) (st, 0) =
      (((a.call.program P).run P a.entropy h).1,
        ((a.call.program P).run P a.entropy h).2.store,
        ((a.call.program P).run P a.entropy h).2.draws) :=
    Program.run_simulation (EngineOp.handle P a.entropy) (f := fun h => (h.store, h.draws))
      (fun _ _ => rfl) (a.call.program P) h
  exact Prod.ext (congrArg (fun r => r.1) hsim) (congrArg (fun r => r.2.1) hsim)

theorem serial_threads (calls : List (IssuedCall B S)) (st : SignalStore B S) :
    serial (calls.map (IssuedCall.thread P)) st = oneAfterAnother P calls st := by
  induction calls generalizing st with
  | nil => rfl
  | cons a calls ih => rw [List.map_cons, serial, run_thread, ih, oneAfterAnother]

/-! ## The sending side of a session -/

variable {P}

/-- What one call does to the sending side of the session it works on, and the header of the
ciphertext it returns. -/
inductive SendMove (P : Primitives B S) (E : Entropy B) :
    Option (SessionRecord B S) → Option (SessionRecord B S) → Option (S × Int) → Prop where
  | none : SendMove P E .none .none .none
  | keep {s s' : SessionRecord B S} : s'.localDhKeyPair = s.localDhKeyPair →
      s'.sendSequenceNumber = s.sendSequenceNumber → SendMove P E (some s) (some s') .none
  | sent {s s' : SessionRecord B S} : s'.localDhKeyPair = s.localDhKeyPair →
      s'.sendSequenceNumber = s.sendSequenceNumber + 1 →
      SendMove P E (some s) (some s')
        (some (s.localDhKeyPair.publicKeyHex, (s.sendSequenceNumber : Int)))
  | renew {o : Option (SessionRecord B S)} {s' : SessionRecord B S} {d : Nat} :
      s'.localDhKeyPair = keyPairOf P (E.secretKey d) → SendMove P E o (some s') .none

variable {E : Entropy B} {st st' : SignalStore B S} {k : S}

omit [DecidableEq S] in
theorem SendMove.refl (o : Option (SessionRecord B S)) : SendMove P E o o .none := by
  cases o with
  | none => exact .none
  | some s => exact .keep rfl rfl

omit [DecidableEq S] in
theorem ensureSendChain_keeps {stored s : SessionRecord B S} {chainHex : S}
    (h : ensureSendChain P stored = .ok (s, chainHex)) :
    s.localDhKeyPair = stored.localDhKeyPair ∧
      s.sendSequenceNumber = stored.sendSequenceNumber := by
  rcases ensureSendChain_cases P h with ⟨-, rfl⟩ | ⟨_, _, _, _, -, -, -, -, -, -, rfl⟩
  · exact ⟨rfl, rfl⟩
  · exact ⟨rfl, rfl⟩

theorem sendMove_encrypt {plaintext : S} {context : Option InitialBundleContext} {h h' : Host B S}
    {r : Except (EngineError S) (EncryptedMessage S)}
    (hrun : (encrypt P k plaintext context).run P E h = (r, h')) :
    SendMove P E (h.store.getSession P k) (h'.store.getSession P k)
      (r.toOption.map EncryptedMessage.header) := by
  rcases run_encrypt_cases P E k plaintext context h with
    ⟨e, hfail⟩ | ⟨stored, s, chainHex, c, hstored, hchain, -, hok⟩
  · rw [hfail] at hrun
    cases hrun
    exact .refl _
  · rw [hok] at hrun
    cases hrun
    obtain ⟨hlocal, hsend⟩ := ensureSendChain_keeps hchain
    rw [hstored, SignalStore.getSession_saveSession_self]
    have hheader : (sealedMessage P h.store.identity s c (E.randomBytes (h.draws + 1) 24) plaintext
        context).header =
          (stored.localDhKeyPair.publicKeyHex, (stored.sendSequenceNumber : Int)) := by
      rw [← hlocal, ← hsend]
      rfl
    show SendMove P E _ _ (some _)
    rw [hheader]
    exact .sent hlocal (by rw [← hsend]; rfl)

theorem skipMessageKeys_sends {s s' : SessionRecord B S} {upTo : Int}
    (h : skipMessageKeys P s upTo = .ok s') :
    s'.localDhKeyPair = s.localDhKeyPair ∧ s'.sendSequenceNumber = s.sendSequenceNumber := by
  rcases skipMessageKeys_cases P h with ⟨-, rfl⟩ | ⟨_, _, _, _, _, _, _, rfl⟩
  · exact ⟨rfl, rfl⟩
  · exact ⟨rfl, rfl⟩

/-- A key is selected with the sending side kept, or with the key pair drawn for a ratchet step. -/
theorem sendMove_selects {s : SessionRecord B S} {m : EncryptedMessage S} {d : Nat} {key : B}
    {saved : Nat → SessionRecord B S} (hsel : Selects P s m (E.secretKey d) key saved) (now : Nat) :
    SendMove P E (some s) (some (saved now)) .none := by
  cases hsel with
  | skipped hfound hkey => exact .keep rfl rfl
  | head hnone hmove hchain hc =>
      cases hmove with
      | stay hneeds hskip =>
          obtain ⟨hlocal, hsend⟩ := skipMessageKeys_sends hskip
          exact .keep hlocal hsend
      | ratchet hneeds hskip hin hskip' =>
          obtain ⟨hlocal, -⟩ := skipMessageKeys_sends hskip'
          exact .renew hlocal

theorem sendMove_decryptInSession {m : EncryptedMessage S} {s : SessionRecord B S} {h h' : Host B S}
    {r : Except (EngineError S) S} (hs : h.store.getSession P k = some s)
    (hrun : (decryptInSession P k m s).run P E h = (r, h')) :
    SendMove P E (some s) (h'.store.getSession P k) .none := by
  rcases run_decryptInSession_cases P E k m s h with
    ⟨e, h₁, hfail, hstore, -, -⟩ | ⟨key, saved, hsel⟩
  · rw [hfail] at hrun
    cases hrun
    rw [hstore, hs]
    exact .refl _
  · obtain ⟨now, draws, hok, -, -⟩ := run_decryptInSession_of_selects (k := k) hsel
    rw [hok] at hrun
    cases hrun
    rw [SignalStore.getSession_saveSession_self]
    exact sendMove_selects hsel now

theorem sendMove_decrypt {m : EncryptedMessage S} {h h' : Host B S}
    {r : Except (EngineError S) S} (hrun : (decrypt P k m).run P E h = (r, h')) :
    SendMove P E (h.store.getSession P k) (h'.store.getSession P k) .none := by
  cases hs : h.store.getSession P k with
  | some s =>
      rw [run_decrypt_of_session P E hs] at hrun
      exact sendMove_decryptInSession hs hrun
  | none =>
      rcases run_initiateBobSession_cases P E k m h with
        ⟨e, hfail, -⟩ | ⟨e, ikA, ekA, spk, hfail, -⟩ | ⟨dhs, initialDh, hin⟩
      · rw [run_decrypt_of_refused hs hfail] at hrun
        cases hrun
        rw [hs]
        exact .none
      · rw [run_decrypt_of_refused hs hfail] at hrun
        cases hrun
        rw [SignalStore.getSession_withoutNamed, hs]
        exact .none
      · -- the responder's session is saved with a key pair of its own before the message is opened
        rw [run_decrypt_of_responded hs (run_initiateBobSession_of_inputs hin)] at hrun
        have hmove := sendMove_decryptInSession
          (SignalStore.getSession_saveSession_self P _ k _) hrun
        generalize hafter : h'.store.getSession P k = o at hmove ⊢
        cases hmove with
        | keep hlocal _ => exact .renew hlocal
        | renew hlocal => exact .renew hlocal

omit [DecidableEq S] in
theorem getSession_congr {k' : S} (hk : P.toLowerCase k' = P.toLowerCase k) :
    st.getSession P k' = st.getSession P k := congrArg st.sessions hk

theorem run_encryptCall (plaintext : S) (context : Option InitialBundleContext) :
    IssuedCall.run P { call := .encrypt k plaintext context, entropy := E } st =
      (((encrypt P k plaintext context).run P E { store := st, draws := 0 }).1.map .sealed,
        ((encrypt P k plaintext context).run P E { store := st, draws := 0 }).2.store) :=
  congrArg (fun r => (r.1, r.2.store)) <|
    Program.run_bind_pure (EngineOp.handle P E) (encrypt P k plaintext context) PeerAnswer.sealed
      { store := st, draws := 0 }

theorem run_decryptCall (m : EncryptedMessage S) :
    IssuedCall.run P { call := .decrypt k m, entropy := E } st =
      (((decrypt P k m).run P E { store := st, draws := 0 }).1.map .opened,
        ((decrypt P k m).run P E { store := st, draws := 0 }).2.store) :=
  congrArg (fun r => (r.1, r.2.store)) <|
    Program.run_bind_pure (EngineOp.handle P E) (decrypt P k m) PeerAnswer.opened
      { store := st, draws := 0 }

/-- A call changes the sending side of the session by one `SendMove`. -/
theorem sendMove_run {a : IssuedCall B S} (hpeer : P.toLowerCase a.call.peer = P.toLowerCase k)
    (st : SignalStore B S) :
    SendMove P a.entropy (st.getSession P k) ((a.run P st).2.getSession P k)
      (sentHeader? (a.run P st).1) := by
  obtain ⟨call, E⟩ := a
  rw [← getSession_congr hpeer, ← getSession_congr hpeer]
  cases call with
  | encrypt k' plaintext context =>
      rw [run_encryptCall]
      cases hrun : (encrypt P k' plaintext context).run P E { store := st, draws := 0 } with
      | mk r h' =>
          have hmove := sendMove_encrypt hrun
          cases r <;> exact hmove
  | decrypt k' m =>
      rw [run_decryptCall]
      cases hrun : (decrypt P k' m).run P E { store := st, draws := 0 } with
      | mk r h' =>
          have hmove := sendMove_decrypt hrun
          cases r <;> exact hmove

/-! ## Headers of one call after another -/

/-- The calls are for the peer `k`, and every key pair a call draws is new: no session, header or
earlier call has it. -/
structure NewKeys (P : Primitives B S) (k : S) (o : Option (SessionRecord B S))
    (calls : List (IssuedCall B S)) (used : List (S × Int)) : Prop where
  peer : ∀ a ∈ calls, P.toLowerCase a.call.peer = P.toLowerCase k
  distinct : calls.Pairwise fun a a' => ∀ d d',
    (keyPairOf P (a.entropy.secretKey d)).publicKeyHex ≠
      (keyPairOf P (a'.entropy.secretKey d')).publicKeyHex
  session : ∀ s, o = some s → ∀ a ∈ calls, ∀ d,
    s.localDhKeyPair.publicKeyHex ≠ (keyPairOf P (a.entropy.secretKey d)).publicKeyHex
  used : ∀ x ∈ used, ∀ a ∈ calls, ∀ d,
    x.1 ≠ (keyPairOf P (a.entropy.secretKey d)).publicKeyHex

/-- Every header used so far lies behind the sending position of the session. -/
structure Behind (o : Option (SessionRecord B S)) (used : List (S × Int)) : Prop where
  nodup : used.Nodup
  below : ∀ s, o = some s → ∀ x ∈ used, x.1 = s.localDhKeyPair.publicKeyHex →
    x.2 < s.sendSequenceNumber

omit [DecidableEq S] in
/-- The step lemma: one call keeps every header apart. -/
theorem Behind.step {o o' : Option (SessionRecord B S)} {a : IssuedCall B S}
    {calls : List (IssuedCall B S)} {used : List (S × Int)} {x : Option (S × Int)}
    (hb : Behind o used) (hn : NewKeys P k o (a :: calls) used)
    (hmove : SendMove P a.entropy o o' x) :
    Behind o' (used ++ x.toList) ∧ NewKeys P k o' calls (used ++ x.toList) := by
  have hpeer : ∀ a' ∈ calls, P.toLowerCase a'.call.peer = P.toLowerCase k := by
    intro a' ha'
    exact hn.peer a' (List.mem_cons_of_mem _ ha')
  have hdistinct := (List.pairwise_cons.1 hn.distinct).2
  have hold : ∀ y ∈ used, ∀ a' ∈ calls, ∀ d,
      y.1 ≠ (keyPairOf P (a'.entropy.secretKey d)).publicKeyHex := by
    intro y hy a' ha'
    exact hn.used y hy a' (List.mem_cons_of_mem _ ha')
  cases hmove with
  | none =>
      simp only [Option.toList_none, List.append_nil]
      refine ⟨hb, hpeer, hdistinct, ?_, hold⟩
      intro s hs
      cases hs
  | @keep s s' hlocal hsend =>
      simp only [Option.toList_none, List.append_nil]
      refine ⟨⟨hb.nodup, ?_⟩, hpeer, hdistinct, ?_, hold⟩
      · rintro _ ⟨⟩ y hy hkey
        rw [hlocal] at hkey
        rw [hsend]
        exact hb.below s rfl y hy hkey
      · rintro _ ⟨⟩ a' ha'
        rw [hlocal]
        exact hn.session s rfl a' (List.mem_cons_of_mem _ ha')
  | @sent s s' hlocal hsend =>
      have hsession : ∀ a' ∈ calls, ∀ d, s.localDhKeyPair.publicKeyHex ≠
          (keyPairOf P (a'.entropy.secretKey d)).publicKeyHex := by
        intro a' ha'
        exact hn.session s rfl a' (List.mem_cons_of_mem _ ha')
      simp only [Option.toList_some]
      refine ⟨⟨?_, ?_⟩, hpeer, hdistinct, ?_, ?_⟩
      · refine List.nodup_append.2 ⟨hb.nodup, List.nodup_singleton _, ?_⟩
        intro y hy z hz hyz
        rw [List.mem_singleton] at hz
        subst hz hyz
        -- an old header with the same key has a smaller number
        exact absurd (hb.below s rfl _ hy rfl) (Int.lt_irrefl _)
      · rintro _ ⟨⟩ y hy hkey
        rw [hsend]
        rw [hlocal] at hkey
        rcases List.mem_append.1 hy with hbefore | hnew
        · have := hb.below s rfl y hbefore hkey
          omega
        · rw [List.mem_singleton] at hnew
          subst hnew
          push_cast
          omega
      · rintro _ ⟨⟩ a' ha'
        rw [hlocal]
        exact hsession a' ha'
      · intro y hy a' ha'
        rcases List.mem_append.1 hy with hbefore | hnew
        · exact hold y hbefore a' ha'
        · rw [List.mem_singleton] at hnew
          subst hnew
          exact hsession a' ha'
  | @renew o s' d hlocal =>
      simp only [Option.toList_none, List.append_nil]
      refine ⟨⟨hb.nodup, ?_⟩, hpeer, hdistinct, ?_, hold⟩
      · rintro _ ⟨⟩ y hy hkey
        rw [hlocal] at hkey
        exact absurd hkey (hn.used y hy a List.mem_cons_self d)
      · rintro _ ⟨⟩ a' ha'
        rw [hlocal]
        exact (List.pairwise_cons.1 hn.distinct).1 a' ha' d

/-- Calls made one after another never return two ciphertexts with one header. -/
theorem headers_oneAfterAnother_nodup {calls : List (IssuedCall B S)} {used : List (S × Int)}
    (hb : Behind (st.getSession P k) used) (hn : NewKeys P k (st.getSession P k) calls used) :
    (used ++ (oneAfterAnother P calls st).1.filterMap sentHeader?).Nodup := by
  induction calls generalizing st used with
  | nil =>
      rw [oneAfterAnother, List.filterMap_nil, List.append_nil]
      exact hb.nodup
  | cons a calls ih =>
      obtain ⟨hb', hn'⟩ := hb.step hn (sendMove_run (hn.peer a List.mem_cons_self) st)
      have hrest := ih hb' hn'
      rw [List.append_assoc] at hrest
      rw [oneAfterAnother, List.filterMap_cons]
      cases hx : sentHeader? (a.run P st).1 with
      | none =>
          rw [hx] at hrest
          exact hrest
      | some x =>
          rw [hx] at hrest
          exact hrest

/-! ## Serializability -/

/-- Calls whose session and prekey operations each wait for the calls that arrived before answer as
if they had been made one after another in order of arrival, leave the store those leave, and never
return two ciphertexts with one header. -/
theorem interleaved_calls_serializable {calls : List (IssuedCall B S)}
    (hnew : NewKeys P k (st.getSession P k) calls []) {p : CallPool B S}
    (hrun : Interleaving (Pool.StepsInOrder EngineOp.Quiet) (callPool P calls st) p) :
    (∀ (i : Nat) t r, p.threads[i]? = some t → t.outcome? = some r →
        (oneAfterAnother P calls st).1[i]? = some r) ∧
      (∀ rs, p.outcomes? = some rs → oneAfterAnother P calls st = (rs, p.store)) ∧
      (sentHeaders p).Nodup := by
  have hrespects : ∀ t ∈ (callPool P calls st).threads, t.handle.Respects EngineOp.Quiet
      (SignalStore.identity : SignalStore B S → UserIdentity B S) := by
    intro t ht
    obtain ⟨a, -, rfl⟩ := List.mem_map.1 ht
    exact respects_handleCall P a.entropy
  obtain ⟨-, hserial⟩ := hrun.serial_eq hrespects
  -- an interleaving in order of arrival gives what the calls give one after another
  have hcalls : serial p.threads p.store = oneAfterAnother P calls st :=
    hserial.trans (serial_threads P calls st)
  refine ⟨?_, ?_, ?_⟩
  · intro i t r ht hr
    rw [← hcalls]
    exact serial_getElem?_of_outcome ht hr p.store
  · intro rs hrs
    rw [← hcalls]
    exact serial_of_outcomes hrs p.store
  · have hbehind : Behind (st.getSession P k) ([] : List (S × Int)) := by
      constructor
      · exact List.nodup_nil
      · intro s _ x hx
        cases hx
    have hnodup := headers_oneAfterAnother_nodup hbehind hnew
    rw [List.nil_append, ← hcalls] at hnodup
    exact hnodup.sublist ((ended_sublist_serial p.threads p.store).filterMap sentHeader?)

/-! ## Two calls of one chunk -/

open TorE2EE.Crypto.Sym

/-- Draws of call `i`, apart from those of the other call and of `symbolicEntropy`. -/
def callEntropy (i : Nat) : Entropy Sym where
  secretKey n := name (1000 + 2 * n + i)
  randomBytes n _ := nonce (1000 + 2 * n + i)
  randomId n := n
  now n := n

/-- Two messages for `bob`. -/
def twoMessages : List (IssuedCall Sym Sym) :=
  [{ call := .encrypt (hex (pub (name 1))) (text "first") none, entropy := callEntropy 0 },
    { call := .encrypt (hex (pub (name 1))) (text "second") none, entropy := callEntropy 1 }]

/-- The store of `alice`, who has initiated a session. -/
def initiatedStore : SignalStore Sym Sym := (symbolicInitiated symbolicEntropy 1).store .alice

theorem newKeys_twoMessages : NewKeys symbolic (hex (pub (name 1)))
    (initiatedStore.getSession symbolic (hex (pub (name 1)))) twoMessages [] where
  peer := by decide
  distinct := by
    rw [twoMessages, List.pairwise_pair]
    intro d d' heq
    simp only [callEntropy, keyPairOf, symbolic, hex.injEq, pub.injEq, name.injEq] at heq
    omega
  session := by
    intro s hs a ha d
    have hkey : (initiatedStore.getSession symbolic (hex (pub (name 1)))).map
        (fun s => s.localDhKeyPair.publicKeyHex) = some (hex (pub (name 7))) := by decide
    rw [hs, Option.map_some, Option.some.injEq] at hkey
    rw [hkey]
    simp only [twoMessages, List.mem_cons, List.not_mem_nil, or_false] at ha
    rcases ha with rfl | rfl <;>
      simp only [callEntropy, keyPairOf, symbolic, ne_eq, hex.injEq, pub.injEq, name.injEq] <;>
      omega
  used := by
    intro x hx
    cases hx

/-- The pool of both calls after the steps of a schedule. -/
abbrev twoMessagesAfter (schedule : List Nat) : CallPool Sym Sym :=
  (callPool symbolic twoMessages initiatedStore).run schedule

/-- The second call reads the session when the first has saved it and has only the identity left to
read. -/
theorem interleaved_calls_serializable_symbolic :
    let p := twoMessagesAfter [0, 0, 0, 0, 1, 0, 1, 1, 1, 1]
    (∀ (i : Nat) t r, p.threads[i]? = some t → t.outcome? = some r →
        (oneAfterAnother symbolic twoMessages initiatedStore).1[i]? = some r) ∧
      (∀ rs, p.outcomes? = some rs →
        oneAfterAnother symbolic twoMessages initiatedStore = (rs, p.store)) ∧
      (sentHeaders p).Nodup := by
  apply interleaved_calls_serializable newKeys_twoMessages
  have hfirst (p : CallPool Sym Sym) : p.StepsInOrder EngineOp.Quiet 0 := by
    intro t _
    right
    intro t' ht'
    cases ht'
  have hsecond (p : CallPool Sym Sym) {t₀ : Thread _ _ _ _ _ _} (ht₀ : p.threads.take 1 = [t₀])
      (hquiet : t₀.rest.Quiet EngineOp.Quiet) : p.StepsInOrder EngineOp.Quiet 1 := by
    intro t _
    right
    intro t' ht'
    rw [ht₀, List.mem_singleton] at ht'
    rw [ht']
    exact hquiet
  apply Interleaving.run .start
  refine ⟨hfirst _, hfirst _, hfirst _, hfirst _, hsecond _ rfl ?_, hfirst _, hsecond _ rfl ?_,
    hsecond _ rfl ?_, hsecond _ rfl ?_, hsecond _ rfl ?_, trivial⟩
  · exact ⟨trivial, fun _ => trivial⟩
  all_goals trivial

/-- Both calls read the session before either saves it: they return two ciphertexts with one header,
which neither order of the calls does. -/
theorem interleaved_calls_reuse_header :
    ∃ p, Interleaving (fun _ _ => True) (callPool symbolic twoMessages initiatedStore) p ∧
      (∃ rs, p.outcomes? = some rs) ∧ ¬ (sentHeaders p).Nodup ∧
      ∀ calls ∈ [twoMessages, twoMessages.reverse],
        (oneAfterAnother symbolic calls initiatedStore).1.filterMap sentHeader? ≠
          sentHeaders p := by
  refine ⟨twoMessagesAfter [0, 1, 0, 0, 0, 0, 1, 1, 1, 1], ?_, ?_, ?_, ?_⟩
  · exact Interleaving.run .start (by simp [Pool.Allows])
  · exact ⟨_, rfl⟩
  · decide
  · decide

end TorE2EE.Crypto
