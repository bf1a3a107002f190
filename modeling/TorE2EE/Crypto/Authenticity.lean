import Mathlib.Data.List.Perm.Subperm
import TorE2EE.Crypto.Secrecy

/-!
# What a device accepts

A message key belongs to one lineage, and the lineage to two identity keys (`Contacted.parties`). So
a box that opens under a key of a session was sealed by a device with the peer's identity, for the
identity of the device that opens it, if a device sealed it at all. `Network.Addressed` keeps for
every letter the lineage of its key, whoever it was sealed for.

`accepted_letters`: an attacker cannot make a box under a secret key, so what a device accepts from
a peer are letters of the peer to it, each at most once and with its plaintext.
-/

set_option autoImplicit false

namespace TorE2EE.Crypto

open TorE2EE.Foundation

variable {U B S : Type}

namespace Network

section Lineages

variable [DecidableEq U] [DecidableEq S] {P : Primitives B S} {D : Devices U B S} {E : Entropy B}
  {x : Network U B S}

/-- Sessions are kept under keys that decode. -/
def Decodes (P : Primitives B S) (st : SignalStore B S) : Prop :=
  ∀ k s, st.getSession P k = some s → ∃ peerKey, P.hexToBytes k = .ok peerKey

variable (P D) in
/-- Every letter was sealed in a session with the identity key it is addressed to. -/
structure Addressed (x : Network U B S) : Prop where
  identity : ∀ u, (x.host u).store.identity = D.identity u
  decodes : ∀ u, Decodes P (x.host u).store
  dealings : ∀ u k peerKey, P.hexToBytes k = .ok peerKey →
    Dealings P (D.entropy u) (x.Exported P) peerKey k (x.host u) []
  letters : ∀ l ∈ x.letters, ∃ peerKey draws dhs key,
    P.hexToBytes l.recipientIdentityKeyHex = .ok peerKey ∧
    Contacted P (D.entropy l.sender) (x.Exported P) (D.identity l.sender).encryptionKey draws
      peerKey dhs ∧
    (∃ j i, KeyAt P dhs j i key) ∧ l.SealedWith P key

omit [DecidableEq U] [DecidableEq S] in
theorem Unused.addressed (hx : x.Unused P D) : x.Addressed P D where
  identity := hx.identity
  decodes u k s hs := by simp [hx.sessions] at hs
  dealings u k peerKey _ := ⟨by simp [hx.signedPreKeys], by simp, by simp [hx.sessions], by simp⟩
  letters := by simp [hx.letters]

omit [DecidableEq S] in
theorem Addressed.withHost (hx : x.Addressed P D) {u : U} {h : Host B S}
    (hid : h.store.identity = (x.host u).store.identity) (hdecodes : Decodes P h.store)
    (hdealings : ∀ k peerKey, P.hexToBytes k = .ok peerKey →
      Dealings P (D.entropy u) (x.Exported P) peerKey k h []) : (x.withHost u h).Addressed P D where
  identity w := by
    by_cases hw : w = u
    · subst hw
      rw [host_withHost_self, hid]
      exact hx.identity w
    · rw [host_withHost_of_ne hw]
      exact hx.identity w
  decodes w := by
    by_cases hw : w = u
    · subst hw
      rw [host_withHost_self]
      exact hdecodes
    · rw [host_withHost_of_ne hw]
      exact hx.decodes w
  dealings w := by
    by_cases hw : w = u
    · subst hw
      rw [host_withHost_self]
      exact hdealings
    · rw [host_withHost_of_ne hw]
      exact hx.dealings w
  letters := hx.letters

omit [DecidableEq U] [DecidableEq S] in
/-- A new bundle takes nothing back. -/
theorem Addressed.withBundle (hx : x.Addressed P D) (b : PreKeyBundle S) :
    Addressed P D { x with bundles := b :: x.bundles } where
  identity := hx.identity
  decodes := hx.decodes
  dealings u k peerKey hk := (hx.dealings u k peerKey hk).mono_exported fun _ => exported_cons b
  letters l hl := by
    obtain ⟨peerKey, draws, dhs, key, hk, hcontact, hat, hsealed⟩ := hx.letters l hl
    exact ⟨peerKey, draws, dhs, key, hk, hcontact.mono (fun _ => exported_cons b) le_rfl, hat,
      hsealed⟩

/-- A call about one peer: its session was there before, or its key decodes. -/
theorem decodes_of_callFrame (hP : P.Lawful) {h h' : Host B S} {k₀ : S}
    (hframe : CallFrame P k₀ h h') (hdecodes : Decodes P h.store)
    (hnew : h'.store.getSession P k₀ = h.store.getSession P k₀ ∨
      ∃ peerKey, P.hexToBytes k₀ = .ok peerKey) : Decodes P h'.store := by
  intro k s hs
  by_cases hkey : P.toLowerCase k = P.toLowerCase k₀
  · rw [SignalStore.getSession, hkey] at hs
    rcases hnew with hsame | ⟨peerKey, hok⟩
    · obtain ⟨peerKey, hok⟩ := hdecodes k₀ s (hsame ▸ hs)
      exact ⟨peerKey, (hP.hexToBytes_congr hkey _).2 hok⟩
    · exact ⟨peerKey, (hP.hexToBytes_congr hkey _).2 hok⟩
  · rw [hframe.sessions k hkey] at hs
    exact hdecodes k s hs

/-- The key of a session that is initiated decodes. -/
theorem decodes_initiateSession (hP : P.Lawful) {h h' : Host B S} {bundle : PreKeyBundle S}
    {r : Except (EngineError S) (SessionRecord B S)} (hdecodes : Decodes P h.store)
    (hrun : (initiateSession P bundle.identityKeyHex bundle).run P E h = (r, h')) :
    Decodes P h'.store := by
  have hframe := callFrame_initiateSession hrun
  refine decodes_of_callFrame hP hframe hdecodes ?_
  rcases run_initiateSession_cases P E bundle.identityKeyHex bundle h with
    ⟨e, h₁, hfail, hstore, -⟩ | ⟨dhs, initialDh, hin⟩
  · rw [hfail] at hrun
    cases hrun
    exact Or.inl (by rw [hstore])
  · obtain ⟨ikB, spkB, hik, -⟩ := hin.keys
    exact Or.inr ⟨ikB, hik⟩

theorem decodes_encrypt (hP : P.Lawful) {h h' : Host B S} {k plaintext : S}
    {context : Option InitialBundleContext} {r : Except (EngineError S) (EncryptedMessage S)}
    (hdecodes : Decodes P h.store)
    (hrun : (Crypto.encrypt P k plaintext context).run P E h = (r, h')) : Decodes P h'.store := by
  have hframe := callFrame_encrypt hrun
  refine decodes_of_callFrame hP hframe hdecodes ?_
  rcases run_encrypt_cases P E k plaintext context h with
    ⟨e, hfail⟩ | ⟨stored, s, chainHex, c, hstored, -⟩
  · rw [hfail] at hrun
    cases hrun
    exact Or.inl rfl
  · exact Or.inr (hdecodes k stored hstored)

/-- The key of a session that is answered is the one its first message names. -/
theorem decodes_decrypt (hP : P.Lawful) {h h' : Host B S} {k : S} {m : EncryptedMessage S}
    (hclient : ∀ hex, m.initialIdentityKeyHex = some hex → k = P.toLowerCase hex)
    {r : Except (EngineError S) S} (hdecodes : Decodes P h.store)
    (hrun : (Crypto.decrypt P k m).run P E h = (r, h')) : Decodes P h'.store := by
  have hframe := callFrame_decrypt hrun
  refine decodes_of_callFrame hP hframe hdecodes ?_
  cases hs : h.store.getSession P k with
  | some s => exact Or.inr (hdecodes k s hs)
  | none =>
      rcases run_initiateBobSession_cases P E k m h with
        ⟨e, hfail, -⟩ | ⟨e, ikA, ekA, spk, hfail, -⟩ | ⟨dhs, initialDh, hin⟩
      · rw [run_decrypt_of_refused hs hfail] at hrun
        cases hrun
        exact Or.inl hs
      · rw [run_decrypt_of_refused hs hfail] at hrun
        cases hrun
        exact Or.inl (by simpa using hs)
      · obtain ⟨ikA, ekA, spk, remoteDh, hcontact, -⟩ := hin.contact
        obtain ⟨hex, hhex, hik⟩ := hcontact.identityKey
        refine Or.inr ⟨ikA, ?_⟩
        rw [hclient hex hhex, hP.hexToBytes_toLowerCase]
        exact hik

omit [DecidableEq U] [DecidableEq S] in
/-- A call about one peer keeps the lineages of all sessions, when it keeps the one of its peer. -/
theorem dealings_of_callFrame (hP : P.Lawful) {h h' : Host B S} {k₀ : S}
    (hframe : CallFrame P k₀ h h')
    {exported : B → Prop}
    (hall : ∀ k peerKey, P.hexToBytes k = .ok peerKey → Dealings P E exported peerKey k h [])
    (hnew : ∀ peerKey, P.hexToBytes k₀ = .ok peerKey → Dealings P E exported peerKey k₀ h' [])
    (k : S) (peerKey : B) (hk : P.hexToBytes k = .ok peerKey) :
    Dealings P E exported peerKey k h' [] := by
  by_cases hkey : P.toLowerCase k = P.toLowerCase k₀
  · exact (hnew peerKey ((hP.hexToBytes_congr hkey _).1 hk)).congr_key hkey.symm
  · exact (hall k peerKey hk).frame_call hframe hkey

/-- Every step keeps the lineages of the letters. -/
theorem Addressed.step (hx : x.Addressed P D) (hP : P.Lawful) (hfree : P.FreeTerms)
    (hD : D.Distinct P) {a : NetworkStep U B S} (ha : a.ByClient P) :
    (x.step P D a).Addressed P D := by
  cases a with
  | draw u =>
      exact hx.withHost rfl (hx.decodes u) fun k peerKey hk =>
        (hx.dealings u k peerKey hk).frame_store rfl (Nat.le_succ _)
  | generate u count =>
      rcases run_generatePreKeyBundle_cases P (D.entropy u) count (x.host u) with
        ⟨e, hfail⟩ | ⟨signatureHex, -, hok⟩
      · simp only [Network.step, hfail]
        exact hx.withHost rfl (hx.decodes u) fun k peerKey hk =>
          (hx.dealings u k peerKey hk).generatePreKeyBundle (fun _ h => by cases h) hfail
      · simp only [Network.step, hok]
        -- the bundle that is exported names the prekey just drawn
        refine (hx.withBundle _).withHost (SignalStore.identity_withBundle P _ _ _ _ _) ?_ ?_
        · intro k s hs
          rw [SignalStore.getSession_withBundle] at hs
          exact hx.decodes u k s hs
        · intro k peerKey hk
          exact ((hx.withBundle _).dealings u k peerKey hk).generatePreKeyBundle
            (fun _ _ => ⟨_, List.mem_cons_self, rfl⟩) hok
  | answer u nonceHex =>
      simp only [Network.step]
      split
      · exact ⟨hx.identity, hx.decodes, hx.dealings, hx.letters⟩
      · exact hx
  | initiate u bundle =>
      obtain ⟨r, h, hrun⟩ : ∃ r h, (initiateSession P bundle.identityKeyHex bundle).run P
        (D.entropy u) (x.host u) = (r, h) := ⟨_, _, rfl⟩
      have hframe := callFrame_initiateSession hrun
      simp only [Network.step, hrun]
      refine hx.withHost hframe.identity (decodes_initiateSession hP (hx.decodes u) hrun) ?_
      refine dealings_of_callFrame hP hframe (hx.dealings u) ?_
      intro peerKey hk
      exact (hx.dealings u _ peerKey hk).initiateSession hP hfree (hD.fresh hP u)
        (fun hne => absurd rfl hne) hk hrun
  | encrypt u k plaintext context =>
      obtain ⟨r, h, hrun⟩ : ∃ r h, (Crypto.encrypt P k plaintext context).run P (D.entropy u)
        (x.host u) = (r, h) := ⟨_, _, rfl⟩
      have hframe := callFrame_encrypt hrun
      have hnew : (x.withHost u h).Addressed P D := by
        refine hx.withHost hframe.identity (decodes_encrypt hP (hx.decodes u) hrun) ?_
        refine dealings_of_callFrame hP hframe (hx.dealings u) ?_
        intro peerKey hk
        rcases (hx.dealings u k peerKey hk).encrypt hP hfree hrun with
          ⟨-, hd⟩ | ⟨m, nonce, key, -, -, hd, -⟩
        · exact hd
        · exact hd.of_subset (by simp)
      simp only [Network.step, hrun]
      cases r with
      | error e => exact hnew
      | ok m =>
          refine { hnew with letters := ?_ }
          intro l hl
          rcases List.mem_cons.1 hl with rfl | hold
          · -- what `encrypt` returns was sealed in a session, so its key decodes
            obtain ⟨peerKey, hk⟩ : ∃ peerKey, P.hexToBytes k = .ok peerKey := by
              rcases run_encrypt_cases P (D.entropy u) k plaintext context (x.host u) with
                ⟨e, hfail⟩ | ⟨stored, s, chainHex, c, hstored, -⟩
              · rw [hfail] at hrun
                cases hrun
              · exact hx.decodes u k stored hstored
            rcases (hx.dealings u k peerKey hk).encrypt hP hfree hrun with
              ⟨⟨e, he⟩, -⟩ | ⟨m', nonce, key, hm, -, hd, hbox⟩
            · cases he
            · cases hm
              obtain ⟨dhs, hcontact, hat⟩ := hd.made key List.mem_cons_self
              rw [hframe.identity, hx.identity u] at hcontact
              exact ⟨peerKey, _, dhs, key, hk, hcontact, hat, nonce, hbox⟩
          · exact hx.letters l hold
  | decrypt u k message =>
      obtain ⟨r, h, hrun⟩ : ∃ r h, (Crypto.decrypt P k message).run P (D.entropy u) (x.host u) =
        (r, h) := ⟨_, _, rfl⟩
      have hframe := callFrame_decrypt hrun
      have hnew : (x.withHost u h).Addressed P D := by
        refine hx.withHost hframe.identity (decodes_decrypt hP ha (hx.decodes u) hrun) ?_
        refine dealings_of_callFrame hP hframe (hx.dealings u) ?_
        intro peerKey hk
        have hnamed : ∀ hex, message.initialIdentityKeyHex = some hex →
            P.hexToBytes hex = .ok peerKey := by
          intro hex hhex
          rw [← hP.hexToBytes_toLowerCase, ← ha hex hhex]
          exact hk
        rcases (hx.dealings u k peerKey hk).decrypt hP hfree hnamed hrun with
          ⟨-, hd⟩ | ⟨t, key, -, -, hd, -⟩
        · exact hd
        · exact hd.of_subset (by simp)
      simp only [Network.step, hrun]
      cases r with
      | error e => exact hnew
      | ok t => exact ⟨hnew.identity, hnew.decodes, hnew.dealings, hnew.letters⟩

theorem Addressed.run (hx : x.Addressed P D) (hP : P.Lawful) (hfree : P.FreeTerms)
    (hD : D.Distinct P) {steps : List (NetworkStep U B S)}
    (hsteps : ∀ a ∈ steps, a.ByClient P) : (x.run P D steps).Addressed P D := by
  induction steps generalizing x with
  | nil => exact hx
  | cons a steps ih =>
      exact ih (hx.step hP hfree hD (hsteps a List.mem_cons_self)) fun a' ha' =>
        hsteps a' (List.mem_cons_of_mem _ ha')

end Lineages

/-! ## Letters under a key of a session -/

section Symbolic

open TorE2EE.Crypto.Sym

variable {D : Devices U Sym Sym} {N : Hidden} [DecidableEq U] {x : Network U Sym Sym}

omit [DecidableEq U] in
theorem eq_hex_of_hexToBytes {k b : Sym} (h : symbolic.hexToBytes k = .ok b) : k = hex b := by
  cases k with
  | hex t =>
      cases h
      rfl
  | _ => cases h

omit [DecidableEq U] in
/-- Devices with one identity public key publish one identity key. -/
theorem identityKeyHex_of_scalarMultBase (hN : D.Named N) {w : U} :
    D.identityKeyHex w =
      hex (symbolic.scalarMultBase (D.identity w).encryptionKey.secretKey) := by
  obtain ⟨n, -, hn⟩ := hN.identity w
  rw [Devices.identityKeyHex, hn]
  rfl

/-- A letter under a key that opened a message of the peer is one of the peer's identity, for the
identity of the device. -/
theorem letter_of_openedWith (haddressed : x.Addressed symbolic D) (hD : D.Distinct symbolic)
    (hN : D.Named N) {u : U} {k peerKey key : Sym} {sealedWith openedWith : List Sym}
    (hk : symbolic.hexToBytes k = .ok peerKey)
    (hpeer : PeerKey symbolic (D.entropy u) (D.identity u).encryptionKey peerKey)
    (hpeerDrawn : ∀ w d, peerKey ≠ symbolic.scalarMultBase ((D.entropy w).secretKey d))
    (hledger : x.Ledger symbolic D u k peerKey sealedWith openedWith) (hkey : key ∈ openedWith)
    {l : Letter U Sym} (hl : l ∈ x.letters) {m n : Sym}
    (hbox : l.message.ciphertext = base64 (box m n key)) :
    D.identityKeyHex l.sender = k ∧ l.recipientIdentityKeyHex = D.identityKeyHex u := by
  obtain ⟨dhs, hcontact, j, i, hat⟩ :=
    hledger.dealings.made key (List.mem_append_right _ hkey)
  obtain ⟨peerKey', draws, dhs', key', hk', hcontact', ⟨j', i', hat'⟩, nonce, hsealed⟩ :=
    haddressed.letters l hl
  have hsame := hbox.symm.trans hsealed
  cases hsame
  obtain ⟨rfl, -, -⟩ := hat.unique symbolic_freeTerms hat'
  rw [haddressed.identity u] at hcontact
  rcases hcontact.parties symbolic_freeTerms hcontact' (hpeerDrawn l.sender)
      (hD.apart u l.sender) (hD.apart l.sender u) with ⟨rfl, d, d', hdrawn⟩ | ⟨hown, hpeer'⟩
  · -- the device's own letter to the peer: its key is among those it sealed with
    obtain ⟨rfl, -⟩ := hD.drawn hdrawn
    exfalso
    have hto : l ∈ x.lettersTo symbolic l.sender k := by
      have hspelled : l.recipientIdentityKeyHex = k :=
        (eq_hex_of_hexToBytes hk').trans (eq_hex_of_hexToBytes hk).symm
      simp [lettersTo, hl, hspelled]
    obtain ⟨key'', hmem, nonce', hsealed'⟩ := exists_mem_of_forall₂ hledger.letters hto
    have hsame' := hbox.symm.trans hsealed'
    cases hsame'
    exact (List.nodup_append.1 hledger.nodup).2.2 _ hmem _ hkey rfl
  · refine ⟨?_, ?_⟩
    · rw [identityKeyHex_of_scalarMultBase hN, eq_hex_of_hexToBytes hk, hown]
    · rw [identityKeyHex_of_scalarMultBase hN, eq_hex_of_hexToBytes hk', hpeer']

omit [DecidableEq U] in
/-- A box that opens is one under the key it opens with, and its contents are the plaintext. -/
theorem box_of_openedWith {r : Receipt U Sym} {key : Sym} (h : r.OpenedWith symbolic key) :
    ∃ m n, r.message.ciphertext = base64 (box m n key) ∧ unutf8 m = r.plaintext := by
  obtain ⟨n, m, -, hopen, hdecode⟩ := decryptWithKey_ok_iff.1 h
  refine ⟨m, n, ?_, hdecode⟩
  cases hct : r.message.ciphertext with
  | base64 b =>
      rw [hct] at hopen
      cases b with
      | box m' n' k' =>
          have hinside : n' = n ∧ k' = key ∧ m' = m := by
            simpa [symbolic, unbase64, openBox, and_assoc] using hopen
          obtain ⟨rfl, rfl, rfl⟩ := hinside
          rfl
      | _ => simp [symbolic, unbase64, openBox] at hopen
  | _ =>
      rw [hct] at hopen
      simp [symbolic, unbase64, openBox] at hopen

omit [DecidableEq U] in
/-- Entries under different keys have different ciphertexts. -/
theorem nodup_ciphertexts {l : List (Receipt U Sym)} {keys : List Sym}
    (h : List.Forall₂ (Receipt.OpenedWith symbolic) l keys) (hnodup : keys.Nodup) :
    (l.map fun r => (r.plaintext, r.message.ciphertext)).Nodup := by
  induction h with
  | nil => exact List.nodup_nil
  | @cons r key l keys hr hrest ih =>
      obtain ⟨hnew, hnodup⟩ := List.nodup_cons.1 hnodup
      refine List.nodup_cons.2 ⟨?_, ih hnodup⟩
      intro hmem
      obtain ⟨r', hr', heq⟩ := List.mem_map.1 hmem
      obtain ⟨key', hkey', hopened⟩ := exists_mem_of_forall₂ hrest hr'
      obtain ⟨m, n, hbox, -⟩ := box_of_openedWith hr
      obtain ⟨m', n', hbox', -⟩ := box_of_openedWith hopened
      rw [(Prod.mk.inj heq).2, hbox] at hbox'
      cases hbox'
      exact hnew hkey'

/-- The letters to a device from the devices with the identity key `k`. -/
def lettersFrom (D : Devices U Sym Sym) (x : Network U Sym Sym) (u : U) (k : Sym) :
    List (Letter U Sym) :=
  x.letters.filter fun l =>
    D.identityKeyHex l.sender = k ∧ l.recipientIdentityKeyHex = D.identityKeyHex u

end Symbolic

end Network

open TorE2EE.Crypto.Sym

/-- What a device accepts from another identity, of ciphertexts that are harmless when the letters
are counted as such: letters of this identity to the device's own. -/
theorem Network.Unused.subperm_letters {D : Devices U Sym Sym} {N : Hidden} [DecidableEq U]
    {x : Network U Sym Sym} (hx : x.Unused symbolic D) (hD : D.Distinct symbolic) (hN : D.Named N)
    {steps : List (NetworkStep U Sym Sym)} (hsteps : ∀ a ∈ steps, a.ByClient symbolic) {u : U}
    {k : Sym} (hpeer : D.IsPeer u k)
    (hharmless : ∀ r ∈ (x.run symbolic D steps).receiptsFrom symbolic u k,
      Harmless N (fun _ => False) (x.run symbolic D steps).Sealed r.message.ciphertext) :
    List.Subperm
      (((x.run symbolic D steps).receiptsFrom symbolic u k).map
        fun r => (r.plaintext, r.message.ciphertext))
      (((x.run symbolic D steps).lettersFrom D u k).map
        fun l => (l.plaintext, l.message.ciphertext)) := by
  have hsound := hx.sound.run symbolic_lawful symbolic_freeTerms hD hsteps
  have haddressed := hx.addressed.run symbolic_lawful symbolic_freeTerms hD hsteps
  have hwritten := hx.written.run symbolic_lawful steps
  obtain ⟨n, hn, hk, hkey, hdrawn⟩ := hpeer.peerKey hD hN
  obtain ⟨sealedWith, openedWith, hledger⟩ := hsound.ledger u k _ hk hkey
  have hnodup := Network.nodup_ciphertexts hledger.receipts (List.nodup_append.1 hledger.nodup).2.1
  refine List.subperm_of_subset hnodup ?_
  intro e he
  obtain ⟨r, hr, rfl⟩ := List.mem_map.1 he
  obtain ⟨key, hmem, hopened⟩ := exists_mem_of_forall₂ hledger.receipts hr
  obtain ⟨m, nonce, hbox, hplain⟩ := Network.box_of_openedWith hopened
  have hsecret : Secret N (fun _ => False) key := by
    obtain ⟨dhs, hcontact, j, i, hat⟩ :=
      hledger.dealings.made key (List.mem_append_right _ hmem)
    obtain ⟨w, hw, hws⟩ := hcontact.secret hn (hN.drawn u)
    exact hat.secret hw hws (fun _ _ _ _ => id) (fun _ _ _ _ => id) id
  -- the attacker cannot have made the box, so it is the one of a letter
  have hbare := hharmless r hr
  rw [hbox] at hbare
  obtain ⟨l, hl, hletter⟩ := sealed_of_harmless hbare hsecret
  obtain ⟨hsender, hrecipient⟩ := Network.letter_of_openedWith haddressed hD hN hk hkey hdrawn
    hledger hmem hl hletter
  obtain ⟨d, key', -, hformed⟩ := (hwritten.letters l hl).box
  have hsame := hletter.symm.trans hformed
  cases hsame
  refine List.mem_map.2 ⟨l, ?_, ?_⟩
  · simp [Network.lettersFrom, hl, hsender, hrecipient]
  · rw [← hplain, hbox, hletter]
    rfl

/-- In every run of any number of devices by the rules of the orchestrator, whatever bundles and
messages the network gives them: what a device accepts from another identity, of ciphertexts the
attacker can come to, are letters that devices of this identity sealed for the device's own, each at
most once and with its plaintext. -/
theorem accepted_letters {D : Devices U Sym Sym} {N : Hidden} [DecidableEq U]
    {x : Network U Sym Sym} (hD : D.Distinct symbolic) (hN : D.Named N) (hx : x.Unused symbolic D)
    {steps : List (NetworkStep U Sym Sym)}
    (hsteps : ∀ a ∈ steps, a.ByClient symbolic ∧ a.Sends (D.Discreet N)) {u : U} {k : Sym}
    (hpeer : D.IsPeer u k)
    (hnetwork : ∀ r ∈ (x.run symbolic D steps).receiptsFrom symbolic u k,
      (x.run symbolic D steps).Learned N D r.message.ciphertext) :
    List.Subperm
      (((x.run symbolic D steps).receiptsFrom symbolic u k).map
        fun r => (r.plaintext, r.message.ciphertext))
      (((x.run symbolic D steps).lettersFrom D u k).map
        fun l => (l.plaintext, l.message.ciphertext)) := by
  obtain ⟨-, hlearned⟩ := hx.learned hD hN hsteps
  exact hx.subperm_letters hD hN (fun a ha => (hsteps a ha).1) hpeer fun r hr =>
    hlearned _ (hnetwork r hr)

/-! ## A letter that arrives -/

/-- `alice`'s letter of `symbolicPlan`. -/
def symbolicLetter : Letter Party Sym :=
  (symbolicNetwork.run symbolic symbolicDevices symbolicPlan).letters.head (by decide)

/-- `bob` gets the letter, and gets it again. -/
def symbolicPlanHeard : List (NetworkStep Party Sym Sym) :=
  symbolicPlan ++ [.decrypt .bob (hex (pub (name 0))) symbolicLetter.message,
    .decrypt .bob (hex (pub (name 0))) symbolicLetter.message]

theorem symbolicPlanHeard_rules : ∀ a ∈ symbolicPlanHeard,
    a.ByClient symbolic ∧ a.Sends (symbolicDevices.Discreet symbolicHidden) := by
  intro a ha
  rcases List.mem_append.1 ha with hplan | hlast
  · exact symbolicPlan_rules a hplan
  · have hnamed : symbolicLetter.message.initialIdentityKeyHex = some (hex (pub (name 0))) := by
      decide
    have hclient : NetworkStep.ByClient (U := Party) symbolic
        (.decrypt .bob (hex (pub (name 0))) symbolicLetter.message) := by
      intro hex' hhex
      cases hnamed.symm.trans hhex
      rfl
    simp only [List.mem_cons, List.not_mem_nil, or_false, or_self] at hlast
    subst hlast
    exact ⟨hclient, trivial⟩

theorem accepted_letters_symbolic :
    ((symbolicNetwork.run symbolic symbolicDevices symbolicPlanHeard).receiptsFrom symbolic .bob
        (hex (pub (name 0)))).length = 1 ∧
    List.Subperm
      (((symbolicNetwork.run symbolic symbolicDevices symbolicPlanHeard).receiptsFrom symbolic .bob
        (hex (pub (name 0)))).map fun r => (r.plaintext, r.message.ciphertext))
      (((symbolicNetwork.run symbolic symbolicDevices symbolicPlanHeard).lettersFrom symbolicDevices
        .bob (hex (pub (name 0)))).map fun l => (l.plaintext, l.message.ciphertext)) := by
  refine ⟨by decide, accepted_letters symbolicDevices_distinct symbolicDevices_named
    symbolicNetwork_unused symbolicPlanHeard_rules ⟨.alice, rfl, by decide⟩ ?_⟩
  intro r hr
  have hmessage : ∀ r ∈ (symbolicNetwork.run symbolic symbolicDevices
      symbolicPlanHeard).receiptsFrom symbolic .bob (hex (pub (name 0))),
      r.message = symbolicLetter.message := by
    decide
  have hmem : symbolicLetter ∈
      (symbolicNetwork.run symbolic symbolicDevices symbolicPlanHeard).letters := by
    decide
  rw [hmessage r hr]
  exact .seen (.ciphertext hmem)

end TorE2EE.Crypto
