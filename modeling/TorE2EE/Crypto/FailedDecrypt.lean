import TorE2EE.Crypto.MessageKeys
import TorE2EE.Crypto.Calls
import TorE2EE.Crypto.Symbolic

/-!
# Failed decryptions

What a throwing `decrypt` leaves behind. The engine saves the session, deletes the skipped key or
takes the one-time prekey before it opens the box, so a box that does not open has already cost its
message key (`Selects.saved_ne`).

The store is that of `SqliteSignalStore`: a session that is read is a copy of its row.

`failed_decrypts_keep_store_iff`: over any history of calls on one engine, the throwing `decrypt`
calls leave the store as it was, and every message readable, exactly when each `decrypt` call of
the history `FailsSafely`: it stops before the first store write, or its box opens.
-/

set_option autoImplicit false

namespace TorE2EE.Crypto

open TorE2EE.Foundation

variable {B S : Type} [DecidableEq S] (P : Primitives B S) (E : Entropy B)

/-! ## Histories -/

/-- The host a call leaves, whether it returned or threw. -/
def EngineCall.hostAfter : EngineCall S → Host B S → Host B S
  | .generatePreKeyBundle count, h => ((Crypto.generatePreKeyBundle P count).run P E h).2
  | .initiateSession k bundle, h => ((Crypto.initiateSession P k bundle).run P E h).2
  | .encrypt k plaintext context, h => ((Crypto.encrypt P k plaintext context).run P E h).2
  | .decrypt k m, h => ((Crypto.decrypt P k m).run P E h).2

/-- The host after the calls of a history, one after another. -/
def hostAfter (calls : List (EngineCall S)) (h : Host B S) : Host B S :=
  calls.foldl (fun h call => call.hostAfter P E h) h

/-- A `decrypt` that throws on `h` leaves the store as it was, and every message that could be
decrypted before the call can be decrypted after it. -/
def FailureKeepsStore (h : Host B S) (k : S) (m : EncryptedMessage S) : Prop :=
  ∀ e h', (decrypt P k m).run P E h = (.error e, h') →
    h'.store = h.store ∧
      ∀ k' m' t, ((decrypt P k' m').run P E h).1 = .ok t →
        ((decrypt P k' m').run P E h').1 = .ok t

/-- When `decrypt` can only fail with the store untouched: in a session, no message key is found
for the header, or the box opens under the one found; without a session, the X3DH inputs are
missing and no stored one-time prekey is named, or they are there and the box opens. -/
def FailsSafely (st : SignalStore B S) (k : S) (m : EncryptedMessage S) : Prop :=
  match st.getSession P k with
  | some s => ∀ key, KeyFor P s m key → Opens P m key
  | none =>
      (∀ dhAll initialDh, ResponderInputs P st m dhAll initialDh →
        m.sequenceNumber ≤ maxSkipMessages ∧
          Opens P m (messageKeyAt P (kdfRoot P (masterSecret P dhAll) initialDh).chainKey
            m.sequenceNumber.toNat)) ∧
      ∀ ikA ekA spk opk, FirstContact P st m ikA ekA spk →
        st.namedOneTimePreKey m.oneTimePreKeyId = some opk →
        ∃ dhAll initialDh, ResponderInputs P st m dhAll initialDh

variable {P E} {s : SessionRecord B S} {m : EncryptedMessage S} {k : S} {h : Host B S}

/-! ## What a used key costs -/

/-- A session saved on the use of a message key is not the session before it. -/
theorem Selects.saved_ne {secretKey key : B} {saved : Nat → SessionRecord B S}
    (hsel : Selects P s m secretKey key saved) (hP : P.Lawful) (now : Nat) : saved now ≠ s := by
  intro heq
  cases hsel with
  | skipped hfound hkey =>
      -- the key that was found is deleted
      have hgone := congrFun (congrArg SessionRecord.skippedMessageKeys heq) (m.skippedKeyId P)
      simp only [SessionRecord.keyTaken, Function.update_self] at hgone
      rw [hfound] at hgone
      cases hgone
  | @head s' chainHex c hnone hmove hchain hc =>
      cases hmove with
      | stay hstay hskip =>
          -- the receive counter has grown
          obtain ⟨-, -, -, hgrown⟩ := skipMessageKeys_keeps hskip
          have hcounter := congrArg SessionRecord.receiveSequenceNumber heq
          simp only [SessionRecord.headTaken] at hcounter
          omega
      | ratchet hneeds hskip hin hskip' =>
          -- the remote key is the one of the header, which the session did not have
          obtain ⟨-, -, hremote, -⟩ := skipMessageKeys_keeps hskip'
          have hkey := congrArg SessionRecord.remoteDhPublicKeyHex heq
          simp only [SessionRecord.headTaken, hremote, SessionRecord.ratcheted] at hkey
          simp [needsRatchet, ← hkey, hP.toLowerCase_toLowerCase] at hneeds

/-- Saving another session changes the store. -/
theorem SignalStore.saveSession_ne {st : SignalStore B S} {s' : SessionRecord B S}
    (hne : st.getSession P k ≠ some s') : st.saveSession P k s' ≠ st := by
  intro heq
  apply hne
  rw [← congrArg (fun st => st.getSession P k) heq]
  exact st.getSession_saveSession_self P k s'

/-- A `decrypt` in a session throws and leaves the store alone, or uses the message key of the
header and saves another session. -/
theorem run_decryptInSession_spec (hP : P.Lawful) (hs : h.store.getSession P k = some s) :
    (∃ e h', (decryptInSession P k m s).run P E h = (.error e, h') ∧ h'.store = h.store) ∨
      ∃ key h', KeyFor P s m key ∧
        (decryptInSession P k m s).run P E h = (decryptWithKey P m key, h') ∧
          h'.store ≠ h.store := by
  rcases run_decryptInSession_cases P E k m s h with ⟨e, h', hrun, hstore, -⟩ | ⟨key, saved, hsel⟩
  · exact Or.inl ⟨e, h', hrun, hstore⟩
  · obtain ⟨now, draws, hrun, -⟩ := run_decryptInSession_of_selects (k := k) hsel
    refine Or.inr ⟨key, _, hsel.keyFor hP, hrun, ?_⟩
    apply SignalStore.saveSession_ne
    rw [hs, ne_eq, Option.some.injEq]
    exact fun heq => hsel.saved_ne hP now heq.symm

/-- With the store, everything a host can decrypt is kept. -/
theorem failureKeepsStore_of_store (hP : P.Lawful) (hE : E.Fresh P)
    (hkeep : ∀ e h', (decrypt P k m).run P E h = (.error e, h') → h'.store = h.store) :
    FailureKeepsStore P E h k m := by
  intro e h' hrun
  have hstore := hkeep e h' hrun
  refine ⟨hstore, ?_⟩
  intro k' m' t hok
  rw [decrypt_ok_iff hP hE] at hok ⊢
  rw [hstore]
  exact hok

/-! ## One call -/

/-- In a session a failure keeps the store exactly when the box opens under the message key, if
there is one. -/
theorem failureKeepsStore_iff_of_session (hP : P.Lawful) (hE : E.Fresh P)
    (hs : h.store.getSession P k = some s) :
    FailureKeepsStore P E h k m ↔ ∀ key, KeyFor P s m key → Opens P m key := by
  have hdecrypt := run_decrypt_of_session P E hs m
  constructor
  · intro hkeep key hkey
    obtain ⟨saved, hsel⟩ := hkey.selects hP (hE.length h.draws)
    obtain ⟨now, draws, hrun, -⟩ := run_decryptInSession_of_selects (k := k) hsel
    cases hopen : decryptWithKey P m key with
    | ok t => exact opens_iff.2 ⟨t, hopen⟩
    | error e =>
        rw [hopen] at hrun
        -- the session is saved before the box is opened, and it differs from the one before
        have hstore := (hkeep e _ (hdecrypt.trans hrun)).1
        refine absurd hstore (SignalStore.saveSession_ne ?_)
        rw [hs, ne_eq, Option.some.injEq]
        exact fun heq => hsel.saved_ne hP now heq.symm
  · intro hsafe
    apply failureKeepsStore_of_store hP hE
    intro e h' hrun
    rw [hdecrypt] at hrun
    rcases run_decryptInSession_spec (E := E) (m := m) hP hs with
      ⟨e', h'', hrun', hstore⟩ | ⟨key, h'', hkey, hrun', -⟩
    · rw [hrun'] at hrun
      cases hrun
      exact hstore
    · obtain ⟨t, hopen⟩ := opens_iff.1 (hsafe key hkey)
      rw [hrun', hopen] at hrun
      cases hrun

/-- A first contact whose inputs are complete has saved a session when the box is tried. -/
theorem run_decrypt_of_responderInputs {dhAll : List B} {initialDh : B}
    (hnone : h.store.getSession P k = none)
    (hin : ResponderInputs P h.store m dhAll initialDh) :
    ((decrypt P k m).run P E h).2.store ≠ h.store := by
  have hresponded := run_initiateBobSession_of_inputs (E := E) (k := k) hin
  rw [run_decrypt_of_responded hnone hresponded]
  intro hstore
  have hsession := congrArg (fun st => st.getSession P k) hstore
  simp only [hnone] at hsession
  -- the new session is in the store, and the call either leaves it or saves another one
  rcases run_decryptInSession_cases P E k m
      (respondedSession P k m (kdfRoot P (masterSecret P dhAll) initialDh)
        (keyPairOf P (E.secretKey h.draws)) (E.now (h.draws + 1)) (E.now (h.draws + 2)))
      { store := (h.store.withoutNamed m.oneTimePreKeyId).saveSession P k
          (respondedSession P k m (kdfRoot P (masterSecret P dhAll) initialDh)
            (keyPairOf P (E.secretKey h.draws)) (E.now (h.draws + 1)) (E.now (h.draws + 2)))
        draws := h.draws + 3 } with ⟨e, h', hrun, hkept, -⟩ | ⟨key, saved, hsel⟩
  · rw [hrun, hkept] at hsession
    simp at hsession
  · obtain ⟨now, draws, hrun, -⟩ := run_decryptInSession_of_selects (k := k) hsel
    rw [hrun] at hsession
    simp at hsession

/-- Without a session a failure keeps the store exactly when the call stops before its first store
write or the box of the first message opens. -/
theorem failureKeepsStore_iff_of_no_session (hP : P.Lawful) (hE : E.Fresh P)
    (hnone : h.store.getSession P k = none) :
    FailureKeepsStore P E h k m ↔ FailsSafely P h.store k m := by
  have hok (t : S) : ((decrypt P k m).run P E h).1 = .ok t ↔ DecryptsTo P h.store k m t :=
    decrypt_ok_iff hP hE
  simp only [DecryptsTo, hnone] at hok
  simp only [FailsSafely, hnone]
  constructor
  · intro hkeep
    have hreturns (dhAll : List B) (initialDh : B)
        (hin : ResponderInputs P h.store m dhAll initialDh) :
        ∃ t, ((decrypt P k m).run P E h).1 = .ok t := by
      cases hrun : (decrypt P k m).run P E h with
      | mk r h' =>
          cases r with
          | ok t => exact ⟨t, rfl⟩
          | error e =>
              refine absurd (hkeep e h' hrun).1 ?_
              have hchanged := run_decrypt_of_responderInputs (E := E) hnone hin
              rwa [hrun] at hchanged
    constructor
    · intro dhAll initialDh hin
      obtain ⟨t, ht⟩ := hreturns dhAll initialDh hin
      obtain ⟨dhAll', initialDh', hin', hlimit, hopen⟩ := (hok t).1 ht
      obtain ⟨rfl, rfl⟩ := hin.unique hin'
      exact ⟨hlimit, opens_iff.2 ⟨t, hopen⟩⟩
    · intro ikA ekA spk opk hcontact hnamed
      rcases run_initiateBobSession_cases P E k m h with
        ⟨e, hrun, hno⟩ | ⟨e, ikA', ekA', spk', hrun, -, -⟩ | hin
      · exact absurd hcontact (hno ikA ekA spk)
      · -- the one-time prekey was taken and the call threw
        have hstore := (hkeep e _ (run_decrypt_of_refused hnone hrun)).1
        exact absurd hstore (SignalStore.withoutNamed_ne h.store hnamed)
      · exact hin
  · rintro ⟨hopens, htaken⟩
    apply failureKeepsStore_of_store hP hE
    intro e h' hrun
    rcases run_initiateBobSession_cases P E k m h with
      ⟨e', hrun', -⟩ | ⟨e', ikA, ekA, spk, hrun', hcontact, hno⟩ | ⟨dhAll, initialDh, hin⟩
    · rw [run_decrypt_of_refused hnone hrun'] at hrun
      cases hrun
      rfl
    · rw [run_decrypt_of_refused hnone hrun'] at hrun
      cases hrun
      cases hnamed : h.store.namedOneTimePreKey m.oneTimePreKeyId with
      | none => exact SignalStore.withoutNamed_of_none h.store hnamed
      | some opk =>
          obtain ⟨dhAll, initialDh, hin⟩ := htaken ikA ekA spk opk hcontact hnamed
          exact absurd hin (hno dhAll initialDh)
    · obtain ⟨hlimit, hbox⟩ := hopens dhAll initialDh hin
      obtain ⟨t, hopen⟩ := opens_iff.1 hbox
      have hret := (hok t).2 ⟨dhAll, initialDh, hin, hlimit, hopen⟩
      rw [hrun] at hret
      cases hret

/-- A failure keeps the store exactly when the call fails safely. -/
theorem failureKeepsStore_iff (hP : P.Lawful) (hE : E.Fresh P) (h : Host B S) (k : S)
    (m : EncryptedMessage S) : FailureKeepsStore P E h k m ↔ FailsSafely P h.store k m := by
  cases hs : h.store.getSession P k with
  | none => exact failureKeepsStore_iff_of_no_session hP hE hs
  | some s =>
      rw [failureKeepsStore_iff_of_session hP hE hs]
      simp only [FailsSafely, hs]

/-! ## Histories of calls -/

/-- In a history of calls on an engine, all throwing `decrypt` calls leave the store and what can
be decrypted as they were exactly when all `decrypt` calls of the history fail safely on the store
they meet. -/
theorem failed_decrypts_keep_store_iff (hP : P.Lawful) (hE : E.Fresh P) (h : Host B S)
    (calls : List (EngineCall S)) :
    (∀ before k m, before ++ [.decrypt k m] <+: calls →
        FailureKeepsStore P E (hostAfter P E before h) k m) ↔
      ∀ before k m, before ++ [.decrypt k m] <+: calls →
        FailsSafely P (hostAfter P E before h).store k m := by
  constructor
  · intro hkeep before k m hprefix
    exact (failureKeepsStore_iff hP hE _ k m).1 (hkeep before k m hprefix)
  · intro hsafe before k m hprefix
    exact (failureKeepsStore_iff hP hE _ k m).2 (hsafe before k m hprefix)

/-! ## A tampered first message -/

open TorE2EE.Crypto.Sym

/-- The same header with another ciphertext, which takes no key to make. -/
def tamperedMessage : EncryptedMessage Sym :=
  { symbolicHello with ciphertext := base64 nil }

/-- `bob`'s engine before its first call. -/
def symbolicHost : Host Sym Sym := { store := .empty (symbolicIdentity 1), draws := 0 }

theorem failed_decrypts_keep_store_iff_symbolic :
    (∀ before k m, before ++ [.decrypt k m] <+:
          [.generatePreKeyBundle 1, .decrypt (hex (pub (name 0))) symbolicHello] →
        FailureKeepsStore symbolic symbolicEntropy
          (hostAfter symbolic symbolicEntropy before symbolicHost) k m) ↔
      ∀ before k m, before ++ [.decrypt k m] <+:
          [.generatePreKeyBundle 1, .decrypt (hex (pub (name 0))) symbolicHello] →
        FailsSafely symbolic (hostAfter symbolic symbolicEntropy before symbolicHost).store k m :=
  failed_decrypts_keep_store_iff symbolic_lawful (fresh_of_secretKey rfl rfl) symbolicHost _

/-- The tampered message throws, and the honest one can no longer be decrypted. -/
theorem failed_decrypt_loses_message :
    ¬ ∀ (calls : List (EngineCall Sym)) (k : Sym) (m : EncryptedMessage Sym),
      FailureKeepsStore symbolic symbolicEntropy
        (hostAfter symbolic symbolicEntropy calls symbolicHost) k m := by
  intro hkeep
  have hthrows : ((decrypt symbolic (hex (pub (name 0))) tamperedMessage).run symbolic
      symbolicEntropy (hostAfter symbolic symbolicEntropy [.generatePreKeyBundle 1]
        symbolicHost)).1 = .error .decryptionFailed := by decide
  have hafter := (hkeep [.generatePreKeyBundle 1] (hex (pub (name 0))) tamperedMessage _ _
    (Prod.ext hthrows rfl)).2 (hex (pub (name 0))) symbolicHello (text "hello") (by decide)
  exact absurd hafter (by decide)

end TorE2EE.Crypto
