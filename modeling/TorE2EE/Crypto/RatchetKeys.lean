import TorE2EE.Crypto.Publications

/-!
# The key pairs of the sessions

The key pair of a session is drawn when the session is set up, and again at every ratchet step; the
signed prekey of a bundle is drawn when the bundle is generated. `Network.Apart` says that the two
never meet: no session of any device has a key pair that a bundle names, although a responder starts
its session from the prekey.
-/

set_option autoImplicit false

namespace TorE2EE.Crypto

open TorE2EE.Foundation

variable {U B S : Type} {P : Primitives B S} {E : Entropy B} {mine mine' : Nat → Prop}
  {s s' : SessionRecord B S}

/-- The key pair of `s` was drawn at one of the draws `mine`, and its root key is a derived one. -/
structure Ratcheting (P : Primitives B S) (E : Entropy B) (mine : Nat → Prop)
    (s : SessionRecord B S) : Prop where
  drawn : ∃ d, mine d ∧ s.localDhKeyPair = keyPairOf P (E.secretKey d)
  root : ∃ r d, s.rootKeyHex = P.bytesToHex (kdfRoot P r d).nextRootKey

theorem Ratcheting.mono (hs : Ratcheting P E mine s) (hmine : ∀ d, mine d → mine' d) :
    Ratcheting P E mine' s where
  drawn := by
    obtain ⟨d, hd, hkey⟩ := hs.drawn
    exact ⟨d, hmine d hd, hkey⟩
  root := hs.root

/-! ## Steps of a session -/

theorem Ratcheting.ensureSendChain (hs : Ratcheting P E mine s) {chainHex : S}
    (hchain : Crypto.ensureSendChain P s = .ok (s', chainHex)) : Ratcheting P E mine s' := by
  rcases ensureSendChain_cases P hchain with ⟨-, rfl⟩ | ⟨_, r, _, d, -, -, -, -, -, -, rfl⟩
  · exact hs
  · exact ⟨hs.drawn, r, d, rfl⟩

variable [DecidableEq S]

theorem Ratcheting.skipMessageKeys (hs : Ratcheting P E mine s) {upTo : Int}
    (hskip : Crypto.skipMessageKeys P s upTo = .ok s') : Ratcheting P E mine s' := by
  rcases skipMessageKeys_cases P hskip with ⟨-, rfl⟩ | ⟨_, _, _, -, -, -, -, rfl⟩
  · exact hs
  · exact ⟨hs.drawn, hs.root⟩

omit [DecidableEq S] in
/-- A ratchet step draws a new key pair. -/
theorem ratcheting_ratcheted (s : SessionRecord B S) (newRemoteHex : S)
    (rootKey dhReceive dhSend : B) {draw : Nat} (hdraw : mine draw) : Ratcheting P E mine
      (s.ratcheted P newRemoteHex rootKey dhReceive dhSend (keyPairOf P (E.secretKey draw))) :=
  ⟨⟨draw, hdraw, rfl⟩, _, _, rfl⟩

theorem Ratcheting.headerMove (hs : Ratcheting P E mine s) {m : EncryptedMessage S} {draw : Nat}
    (hdraw : mine draw) (hmove : HeaderMove P s m (E.secretKey draw) s') :
    Ratcheting P E mine s' := by
  cases hmove with
  | stay _ hskip => exact hs.skipMessageKeys hskip
  | ratchet _ _ _ hskip' =>
      exact (ratcheting_ratcheted _ _ _ _ _ hdraw).skipMessageKeys hskip'

theorem Ratcheting.selects (hs : Ratcheting P E mine s) {m : EncryptedMessage S} {draw : Nat}
    (hdraw : s.skippedMessageKeys (m.skippedKeyId P) = none → mine draw) {key : B}
    {saved : Nat → SessionRecord B S} (hsel : Selects P s m (E.secretKey draw) key saved)
    (now : Nat) : Ratcheting P E mine (saved now) := by
  cases hsel with
  | skipped _ _ => exact ⟨hs.drawn, hs.root⟩
  | head hnone hmove _ _ =>
      have hmoved := hs.headerMove (hdraw hnone) hmove
      exact ⟨hmoved.drawn, hmoved.root⟩

/-! ## Calls -/

/-- The session with `k`, if any, has a key pair of `mine`. -/
def KeepsRatcheting (P : Primitives B S) (E : Entropy B) (mine : Nat → Prop) (k : S)
    (st : SignalStore B S) : Prop :=
  ∀ s, st.getSession P k = some s → Ratcheting P E mine s

variable {k : S} {st : SignalStore B S} {h h' : Host B S}

omit [DecidableEq S] in
theorem KeepsRatcheting.mono (hs : KeepsRatcheting P E mine k st) (hmine : ∀ d, mine d → mine' d) :
    KeepsRatcheting P E mine' k st :=
  fun s hsome => (hs s hsome).mono hmine

theorem keepsRatcheting_saveSession (st : SignalStore B S) (hs : Ratcheting P E mine s) :
    KeepsRatcheting P E mine k (st.saveSession P k s) := by
  intro s' hs'
  rw [SignalStore.getSession_saveSession_self] at hs'
  cases hs'
  exact hs

theorem KeepsRatcheting.initiateSession (hs : KeepsRatcheting P E mine k h.store)
    {bundle : PreKeyBundle S} {r : Except (EngineError S) (SessionRecord B S)}
    (hrun : (Crypto.initiateSession P k bundle).run P E h = (r, h'))
    (hext : Extends mine mine' h.draws h'.draws) : KeepsRatcheting P E mine' k h'.store := by
  rcases run_initiateSession_cases P E k bundle h with
    ⟨e, h₁, hfail, hstore, -⟩ | ⟨dhs, initialDh, hin⟩
  · rw [hfail] at hrun
    cases hrun
    rw [hstore]
    exact hs.mono hext.1
  · rw [run_initiateSession_of_inputs hin] at hrun
    cases hrun
    have hdrawn : mine' h.draws := hext.2 _ (Nat.le_refl _) (by show h.draws < h.draws + 3; omega)
    exact keepsRatcheting_saveSession _ ⟨⟨_, hdrawn, rfl⟩, _, _, rfl⟩

theorem KeepsRatcheting.encrypt (hs : KeepsRatcheting P E mine k h.store) {plaintext : S}
    {context : Option InitialBundleContext} {r : Except (EngineError S) (EncryptedMessage S)}
    (hrun : (Crypto.encrypt P k plaintext context).run P E h = (r, h')) :
    KeepsRatcheting P E mine k h'.store := by
  rcases run_encrypt_cases P E k plaintext context h with
    ⟨e, hfail⟩ | ⟨stored, s, chainHex, c, hstored, hchain, -, hok⟩
  · rw [hfail] at hrun
    cases hrun
    exact hs
  · rw [hok] at hrun
    cases hrun
    have hsend := (hs stored hstored).ensureSendChain hchain
    exact keepsRatcheting_saveSession _ ⟨hsend.drawn, hsend.root⟩

theorem KeepsRatcheting.decryptInSession (hs : KeepsRatcheting P E mine k h.store)
    (hsome : h.store.getSession P k = some s) {m : EncryptedMessage S}
    {r : Except (EngineError S) S} (hrun : (Crypto.decryptInSession P k m s).run P E h = (r, h'))
    (hext : Extends mine mine' h.draws h'.draws) : KeepsRatcheting P E mine' k h'.store := by
  rcases run_decryptInSession_cases P E k m s h with
    ⟨e, h₁, hfail, hstore, -⟩ | ⟨key, saved, hsel⟩
  · rw [hfail] at hrun
    cases hrun
    rw [hstore]
    exact hs.mono hext.1
  · obtain ⟨now, draws, hok, -, hdraws⟩ := run_decryptInSession_of_selects (k := k) hsel
    rw [hok] at hrun
    cases hrun
    have hdrawn (hnone : s.skippedMessageKeys (m.skippedKeyId P) = none) : mine' h.draws := by
      apply hext.2 _ (Nat.le_refl _)
      exact Nat.lt_of_le_of_lt (Nat.le_add_right _ _) (hdraws hnone)
    exact keepsRatcheting_saveSession _ (((hs s hsome).mono hext.1).selects hdrawn hsel now)

theorem KeepsRatcheting.decrypt (hs : KeepsRatcheting P E mine k h.store) {m : EncryptedMessage S}
    {r : Except (EngineError S) S} (hrun : (Crypto.decrypt P k m).run P E h = (r, h'))
    (hext : Extends mine mine' h.draws h'.draws) : KeepsRatcheting P E mine' k h'.store := by
  cases hsession : h.store.getSession P k with
  | some s =>
      rw [run_decrypt_of_session P E hsession] at hrun
      exact hs.decryptInSession hsession hrun hext
  | none =>
      rcases run_initiateBobSession_cases P E k m h with
        ⟨e, hfail, -⟩ | ⟨e, ikA, ekA, spk, hfail, -⟩ | ⟨dhs, initialDh, hin⟩
      · rw [run_decrypt_of_refused hsession hfail] at hrun
        cases hrun
        exact hs.mono hext.1
      · rw [run_decrypt_of_refused hsession hfail] at hrun
        cases hrun
        intro s hsome
        rw [SignalStore.getSession_withoutNamed] at hsome
        exact (hs s hsome).mono hext.1
      · have hresponded := run_initiateBobSession_of_inputs (E := E) (k := k) hin
        rw [run_decrypt_of_responded hsession hresponded] at hrun
        have hlater : h.draws + 3 ≤ h'.draws := (callFrame_decryptInSession hrun).draws
        -- a session that is answered starts with a key pair of its own
        have hdrawn : mine' h.draws := hext.2 h.draws (Nat.le_refl _) (by omega)
        have hstart := keepsRatcheting_saveSession (P := P) (E := E) (k := k)
          (h.store.withoutNamed m.oneTimePreKeyId)
          (s := respondedSession P k m (kdfRoot P (masterSecret P dhs) initialDh)
            (keyPairOf P (E.secretKey h.draws)) (E.now (h.draws + 1)) (E.now (h.draws + 2)))
          ⟨⟨h.draws, hdrawn, rfl⟩, _, _, rfl⟩
        have hstays : Extends mine' mine' (h.draws + 3) h'.draws := by
          refine ⟨fun _ => id, ?_⟩
          intro d hd hd'
          exact hext.2 d (Nat.le_trans (Nat.le_add_right _ 3) hd) hd'
        exact hstart.decryptInSession (SignalStore.getSession_saveSession_self P _ _ _) hrun hstays

/-! ## Runs -/

namespace Network

variable [DecidableEq U] {D : Devices U B S} {x : Network U B S}

variable (P D) in
/-- The draws of `u` that it has made and that no bundle names. -/
def OwnDraw (x : Network U B S) (u : U) (d : Nat) : Prop :=
  d < (x.host u).draws ∧ ¬ x.Exported P (P.scalarMultBase ((D.entropy u).secretKey d))

variable (P D) in
/-- The bundles name keys that were drawn, and the sessions have other ones. -/
structure Apart (x : Network U B S) : Prop where
  exported : ∀ b ∈ x.bundles, ∃ u, ∃ d < (x.host u).draws,
    b.signedPreKey.publicKeyHex = drawnPublicKeyHex P (D.entropy u) d
  sessions : ∀ u k, KeepsRatcheting P (D.entropy u) (x.OwnDraw P D u) k (x.host u).store

omit [DecidableEq U] [DecidableEq S] in
theorem Unused.apart (hx : x.Unused P D) : x.Apart P D where
  exported := by simp [hx.bundles]
  sessions u k s hs := by simp [hx.sessions] at hs

omit [DecidableEq S] in
/-- A call about the peer `k` that exports nothing. -/
theorem Apart.withHost (hx : x.Apart P D) {u : U} {h : Host B S} {k : S}
    (hframe : CallFrame P k (x.host u) h)
    (hnew : KeepsRatcheting P (D.entropy u) ((x.withHost u h).OwnDraw P D u) k h.store) :
    (x.withHost u h).Apart P D := by
  have hdraws : ∀ w, (x.host w).draws ≤ ((x.withHost u h).host w).draws := by
    intro w
    by_cases hw : w = u
    · subst hw
      rw [host_withHost_self]
      exact hframe.draws
    · rw [host_withHost_of_ne hw]
  have hown : ∀ w d, x.OwnDraw P D w d → (x.withHost u h).OwnDraw P D w d := by
    rintro w d ⟨hlt, hnot⟩
    exact ⟨Nat.lt_of_lt_of_le hlt (hdraws w), hnot⟩
  refine ⟨?_, ?_⟩
  · intro b hb
    obtain ⟨w, d, hlt, hkey⟩ := hx.exported b hb
    exact ⟨w, d, Nat.lt_of_lt_of_le hlt (hdraws w), hkey⟩
  · intro w k' s hs
    by_cases hw : w = u
    · subst hw
      rw [host_withHost_self] at hs
      by_cases hkey : P.toLowerCase k' = P.toLowerCase k
      · rw [SignalStore.getSession, hkey] at hs
        exact hnew s hs
      · rw [hframe.sessions k' hkey] at hs
        exact (hx.sessions w k' s hs).mono (hown w)
    · rw [host_withHost_of_ne hw] at hs
      exact (hx.sessions w k' s hs).mono (hown w)

omit [DecidableEq S] in
/-- What a device draws in a call is its own: no bundle names a key that is drawn later. -/
theorem Apart.extends (hx : x.Apart P D) (hP : P.Lawful) (hD : D.Distinct P) {u : U}
    {h : Host B S} (hdraws : (x.host u).draws ≤ h.draws) :
    Extends (x.OwnDraw P D u) ((x.withHost u h).OwnDraw P D u) (x.host u).draws h.draws := by
  refine ⟨?_, ?_⟩
  · rintro d ⟨hlt, hnot⟩
    refine ⟨?_, hnot⟩
    rw [host_withHost_self]
    exact Nat.lt_of_lt_of_le hlt hdraws
  · intro d hle hlt
    refine ⟨?_, ?_⟩
    · rw [host_withHost_self]
      exact hlt
    · rintro ⟨b, hb, hkey⟩
      obtain ⟨w, d', hlt', hkey'⟩ := hx.exported b hb
      have hsame := hP.bytesToHex_inj (hkey.symm.trans hkey')
      obtain ⟨rfl, rfl⟩ := hD.drawn hsame
      omega

/-- A bundle names a key that is drawn in the call. -/
theorem Apart.generate (hx : x.Apart P D) (hP : P.Lawful) (hD : D.Distinct P) (u : U)
    (count : Nat) : (x.step P D (.generate u count)).Apart P D := by
  rcases run_generatePreKeyBundle_cases P (D.entropy u) count (x.host u) with
    ⟨e, hfail⟩ | ⟨signatureHex, -, hok⟩
  · simp only [Network.step, hfail]
    refine hx.withHost (k := (D.identity u).encryptionKey.publicKeyHex)
      ⟨rfl, rfl, fun _ _ => rfl, Nat.le_add_right _ _⟩ ?_
    exact (hx.sessions u _).mono (hx.extends hP hD (Nat.le_add_right _ _)).1
  · simp only [Network.step, hok]
    have hdraws (w : U) {h : Host B S} (hh : (x.host u).draws ≤ h.draws) {d : Nat}
        (hlt : d < (x.host w).draws) : d < ((x.withHost u h).host w).draws := by
      by_cases hw : w = u
      · subst hw
        rw [host_withHost_self]
        exact Nat.lt_of_lt_of_le hlt hh
      · rw [host_withHost_of_ne hw]
        exact hlt
    have hlater : (x.host u).draws ≤ (x.host u).draws + 3 + 2 * count := by omega
    refine ⟨?_, ?_⟩
    · intro b hb
      rcases List.mem_cons.1 hb with rfl | hold
      · refine ⟨u, (x.host u).draws, ?_, rfl⟩
        rw [host_withHost_self]
        show (x.host u).draws < (x.host u).draws + 3 + 2 * count
        omega
      · obtain ⟨w, d, hlt, hkey⟩ := hx.exported b hold
        exact ⟨w, d, hdraws w hlater hlt, hkey⟩
    · intro w k s hs
      have hsession : (x.host w).store.getSession P k = some s := by
        by_cases hw : w = u
        · subst hw
          rw [host_withHost_self] at hs
          exact (SignalStore.getSession_withBundle P _ _ _ _ _ _).symm.trans hs
        · rw [host_withHost_of_ne hw] at hs
          exact hs
      refine (hx.sessions w k s hsession).mono ?_
      rintro d ⟨hlt, hnot⟩
      refine ⟨hdraws w hlater hlt, ?_⟩
      rintro ⟨b, hb, hkey⟩
      rcases List.mem_cons.1 hb with rfl | hold
      · -- the sessions were there before the draw
        have hsame := hD.drawn (hP.bytesToHex_inj hkey)
        obtain ⟨rfl, heq⟩ := hsame
        omega
      · exact hnot ⟨b, hold, hkey⟩

/-- Every step keeps the keys apart. -/
theorem Apart.step (hx : x.Apart P D) (hP : P.Lawful) (hD : D.Distinct P)
    (a : NetworkStep U B S) : (x.step P D a).Apart P D := by
  -- Every call only adds keys drawn after it began; what it returns exports nothing but bundles.
  cases a with
  | draw u =>
      refine hx.withHost (k := (D.identity u).encryptionKey.publicKeyHex)
        ⟨rfl, rfl, fun _ _ => rfl, Nat.le_succ _⟩ ?_
      exact (hx.sessions u _).mono (hx.extends hP hD (Nat.le_succ _)).1
  | generate u count => exact hx.generate hP hD u count
  | answer u nonceHex =>
      simp only [Network.step]
      split
      · exact ⟨hx.exported, hx.sessions⟩
      · exact hx
  | initiate u bundle =>
      obtain ⟨r, h, hrun⟩ : ∃ r h, (initiateSession P bundle.identityKeyHex bundle).run P
        (D.entropy u) (x.host u) = (r, h) := ⟨_, _, rfl⟩
      have hframe := callFrame_initiateSession hrun
      simp only [Network.step, hrun]
      exact hx.withHost hframe
        ((hx.sessions u _).initiateSession hrun (hx.extends hP hD hframe.draws))
  | encrypt u k plaintext context =>
      obtain ⟨r, h, hrun⟩ : ∃ r h, (Crypto.encrypt P k plaintext context).run P (D.entropy u)
        (x.host u) = (r, h) := ⟨_, _, rfl⟩
      have hframe := callFrame_encrypt hrun
      have hnew : (x.withHost u h).Apart P D := by
        refine hx.withHost hframe ?_
        exact ((hx.sessions u k).encrypt hrun).mono (hx.extends hP hD hframe.draws).1
      simp only [Network.step, hrun]
      cases r with
      | error e => exact hnew
      | ok m => exact ⟨hnew.exported, hnew.sessions⟩
  | decrypt u k message =>
      obtain ⟨r, h, hrun⟩ : ∃ r h, (Crypto.decrypt P k message).run P (D.entropy u) (x.host u) =
        (r, h) := ⟨_, _, rfl⟩
      have hframe := callFrame_decrypt hrun
      have hnew : (x.withHost u h).Apart P D := by
        refine hx.withHost hframe ?_
        exact (hx.sessions u k).decrypt hrun (hx.extends hP hD hframe.draws)
      simp only [Network.step, hrun]
      cases r with
      | error e => exact hnew
      | ok t => exact ⟨hnew.exported, hnew.sessions⟩

/-- Every run keeps the keys apart. -/
theorem Apart.run (hx : x.Apart P D) (hP : P.Lawful) (hD : D.Distinct P)
    (steps : List (NetworkStep U B S)) : (x.run P D steps).Apart P D := by
  induction steps generalizing x with
  | nil => exact hx
  | cons a steps ih => exact ih (hx.step hP hD a)

end Network

end TorE2EE.Crypto
