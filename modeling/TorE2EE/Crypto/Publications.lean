import TorE2EE.Crypto.HeaderBinding
import TorE2EE.Crypto.Networks

/-!
# What the devices put on the network

`EncryptedMessage.Formed` is what `encrypt` writes into a message: public keys of the device, a
nonce, and a box under some key. `Network.Written` keeps that every letter is formed, that every
bundle is one `generatePreKeyBundle` exported, and that every answer is a signature, whatever the
devices were given before.
-/

set_option autoImplicit false

namespace TorE2EE.Crypto

open TorE2EE.Foundation

variable {U B S : Type}

/-- What a device with this identity and these draws writes for a plaintext. -/
structure EncryptedMessage.Formed (P : Primitives B S) (E : Entropy B) (identity : UserIdentity B S)
    (plaintext : S) (m : EncryptedMessage S) : Prop where
  ephemeral : ∃ d, m.ephemeralPublicKeyHex = drawnPublicKeyHex P E d
  initialEphemeral : m.initialEphemeralKeyHex = some m.ephemeralPublicKeyHex
  initialIdentity : m.initialIdentityKeyHex = some identity.encryptionKey.publicKeyHex
  box : ∃ d key, m.nonce = P.bytesToHex (E.randomBytes d 24) ∧
    m.ciphertext = P.toBase64 (P.secretbox (P.textEncode plaintext) (E.randomBytes d 24) key)

/-- A signature in hex. -/
def SignatureHex (P : Primitives B S) (s : S) : Prop :=
  ∃ message key, s = P.bytesToHex (P.signDetached message key)

variable {P : Primitives B S} {E : Entropy B}

theorem signatureHex_of_signChallenge {nonceHex s : S} {secretKey : B}
    (h : signChallenge P nonceHex secretKey = .ok s) : SignatureHex P s := by
  rw [signChallenge] at h
  by_cases hkey : P.length secretKey = 64
  · cases hdecode : P.hexToBytes nonceHex with
    | error e => simp [hkey, hdecode, bind, Except.bind] at h
    | ok challenge =>
        by_cases hlength : P.length challenge = 32
        · simp [hkey, hdecode, hlength, bind, Except.bind, pure, Except.pure] at h
          exact ⟨_, _, h.symm⟩
        · simp [hkey, hdecode, hlength, bind, Except.bind, pure, Except.pure] at h
  · simp [hkey, bind, Except.bind] at h

variable [DecidableEq S]

/-- The keys of a device's sessions are draws of its own, so what `encrypt` returns is formed. -/
theorem formed_of_encrypt {k plaintext : S} {context : Option InitialBundleContext}
    {h h' : Host B S} {m : EncryptedMessage S} (ho : OwnKeys P E (fun _ => True) k h.store)
    (hP : P.Lawful) (hrun : (Crypto.encrypt P k plaintext context).run P E h = (.ok m, h')) :
    m.Formed P E h.store.identity plaintext := by
  obtain ⟨-, hsealed⟩ := ho.encrypt hP hrun
  obtain ⟨d, -, -, -, -, hkey, -⟩ := hsealed m rfl
  rcases run_encrypt_cases P E k plaintext context h with
    ⟨e, hfail⟩ | ⟨stored, s, chainHex, c, -, -, -, hok⟩
  · rw [hfail] at hrun
    cases hrun
  · rw [hok] at hrun
    cases hrun
    exact ⟨⟨d, hkey⟩, rfl, rfl, _, _, rfl, rfl⟩

namespace Network

variable [DecidableEq U] {D : Devices U B S} {x : Network U B S}

variable (P D) in
/-- Everything on the network was written by the devices. -/
structure Written (x : Network U B S) : Prop where
  identity : ∀ u, (x.host u).store.identity = D.identity u
  keys : ∀ u k, OwnKeys P (D.entropy u) (fun _ => True) k (x.host u).store
  letters : ∀ l ∈ x.letters,
    l.message.Formed P (D.entropy l.sender) (D.identity l.sender) l.plaintext
  bundles : ∀ b ∈ x.bundles, ∃ u signatureHex d count, SignatureHex P signatureHex ∧
    b = exportedBundle P (D.entropy u) (D.identity u) signatureHex d count
  answers : ∀ s ∈ x.answers, SignatureHex P s

omit [DecidableEq U] [DecidableEq S] in
theorem Unused.written (hx : x.Unused P D) : x.Written P D where
  identity := hx.identity
  keys u k := ⟨by simp [hx.signedPreKeys], by simp [hx.sessions]⟩
  letters := by simp [hx.letters]
  bundles := by simp [hx.bundles]
  answers := by simp [hx.answers]

omit [DecidableEq S] in
/-- A call of `u` that keeps the identity and leaves draws of `u` in the store. -/
theorem Written.withHost (hx : x.Written P D) {u : U} {h : Host B S}
    (hid : h.store.identity = (x.host u).store.identity)
    (hkeys : ∀ k, OwnKeys P (D.entropy u) (fun _ => True) k h.store) :
    (x.withHost u h).Written P D where
  identity w := by
    by_cases hw : w = u
    · subst hw
      rw [host_withHost_self, hid]
      exact hx.identity w
    · rw [host_withHost_of_ne hw]
      exact hx.identity w
  keys w := by
    by_cases hw : w = u
    · subst hw
      rw [host_withHost_self]
      exact hkeys
    · rw [host_withHost_of_ne hw]
      exact hx.keys w
  letters := hx.letters
  bundles := hx.bundles
  answers := hx.answers

/-- A call about one peer keeps the keys kept for the others. -/
theorem ownKeys_of_callFrame {h h' : Host B S} {k₀ : S} (hframe : CallFrame P k₀ h h')
    (hkeys : ∀ k, OwnKeys P E (fun _ => True) k h.store)
    (hnew : OwnKeys P E (fun _ => True) k₀ h'.store) (k : S) :
    OwnKeys P E (fun _ => True) k h'.store := by
  by_cases hkey : P.toLowerCase k = P.toLowerCase k₀
  · refine hnew.congr rfl ?_
    rw [SignalStore.getSession, hkey, SignalStore.getSession]
  · exact (hkeys k).congr hframe.signedPreKeys (hframe.sessions k hkey)

/-- Every draw is the device's own. -/
theorem extends_all (draws draws' : Nat) : Extends (fun _ => True) (fun _ => True) draws draws' :=
  ⟨fun _ => id, fun _ _ _ => trivial⟩

/-- Every step keeps what is written. -/
theorem Written.step (hx : x.Written P D) (hP : P.Lawful) (a : NetworkStep U B S) :
    (x.step P D a).Written P D := by
  -- A call that fails may have drawn and saved, so its device is followed before its result is.
  cases a with
  | draw u => exact hx.withHost rfl (hx.keys u)
  | generate u count =>
      simp only [Network.step]
      rcases run_generatePreKeyBundle_cases P (D.entropy u) count (x.host u) with
        ⟨e, hfail⟩ | ⟨signatureHex, hsign, hok⟩
      · rw [hfail]
        exact hx.withHost rfl (hx.keys u)
      · rw [hok]
        have hnew := hx.withHost (u := u)
          (h := { store := (x.host u).store.withBundle P (D.entropy u) signatureHex (x.host u).draws
                    count
                  draws := (x.host u).draws + 3 + 2 * count })
          (SignalStore.identity_withBundle P _ _ _ _ _)
          fun k => (hx.keys u k).withBundle signatureHex count (fun _ => id) trivial
        refine { hnew with bundles := ?_ }
        intro b hb
        rcases List.mem_cons.1 hb with rfl | hold
        · exact ⟨u, signatureHex, _, count, signatureHex_of_signChallenge hsign,
            by rw [hx.identity u]⟩
        · exact hx.bundles b hold
  | answer u nonceHex =>
      simp only [Network.step]
      split
      · next s hsign =>
          refine { hx with answers := ?_ }
          intro s' hs'
          rcases List.mem_cons.1 hs' with rfl | hold
          · exact signatureHex_of_signChallenge hsign
          · exact hx.answers s' hold
      · exact hx
  | initiate u bundle =>
      obtain ⟨r, h, hrun⟩ : ∃ r h, (initiateSession P bundle.identityKeyHex bundle).run P
        (D.entropy u) (x.host u) = (r, h) := ⟨_, _, rfl⟩
      have hframe := callFrame_initiateSession hrun
      have hown := (hx.keys u bundle.identityKeyHex).initiateSession hrun (extends_all _ _)
      simp only [Network.step, hrun]
      exact hx.withHost hframe.identity (ownKeys_of_callFrame hframe (hx.keys u) hown)
  | encrypt u k plaintext context =>
      obtain ⟨r, h, hrun⟩ : ∃ r h, (Crypto.encrypt P k plaintext context).run P (D.entropy u)
        (x.host u) = (r, h) := ⟨_, _, rfl⟩
      have hframe := callFrame_encrypt hrun
      have hown := ((hx.keys u k).encrypt hP hrun).1
      have hnew := hx.withHost hframe.identity (ownKeys_of_callFrame hframe (hx.keys u) hown)
      simp only [Network.step, hrun]
      cases r with
      | error e => exact hnew
      | ok m =>
          refine { hnew with letters := ?_ }
          intro l hl
          rcases List.mem_cons.1 hl with rfl | hold
          · have hformed := formed_of_encrypt (hx.keys u k) hP hrun
            rw [hx.identity u] at hformed
            exact hformed
          · exact hx.letters l hold
  | decrypt u k message =>
      obtain ⟨r, h, hrun⟩ : ∃ r h, (Crypto.decrypt P k message).run P (D.entropy u) (x.host u) =
        (r, h) := ⟨_, _, rfl⟩
      have hframe := callFrame_decrypt hrun
      have hown := (hx.keys u k).decrypt hP hrun (extends_all _ _)
      have hnew := hx.withHost hframe.identity (ownKeys_of_callFrame hframe (hx.keys u) hown)
      simp only [Network.step, hrun]
      cases r with
      | error e => exact hnew
      | ok t => exact ⟨hnew.identity, hnew.keys, hnew.letters, hnew.bundles, hnew.answers⟩

theorem Written.run (hx : x.Written P D) (hP : P.Lawful) (steps : List (NetworkStep U B S)) :
    (x.run P D steps).Written P D := by
  induction steps generalizing x with
  | nil => exact hx
  | cons a steps ih => exact ih (hx.step hP a)

end Network

end TorE2EE.Crypto
