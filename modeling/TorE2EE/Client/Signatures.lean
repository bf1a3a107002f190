import TorE2EE.Client.Symbolic
import TorE2EE.Crypto.Bundles

/-!
# What an identity signs

An identity signs in two places with one key: `generatePreKeyBundle` signs the public key of a new
signed prekey, and `handleServerChallenge` signs whatever 32 bytes the relay sends. A `Signer` is
an identity's store with all it has answered, generated and signed.

A prekey signature that is accepted under the identity's signing key is one of a prekey the
identity generated or of a challenge it answered (`accepted_preKey_signed`), and the relay can
choose the challenge (`challenge_answer_is_preKey_signature`). Neither the identity key nor the
one-time prekey of a payload is signed (`contact_identity_key_replaceable`).
-/

set_option autoImplicit false

namespace TorE2EE.Client

open TorE2EE.Foundation TorE2EE.Crypto

variable {B S : Type} [DecidableEq S]

/-- The `auth` message of the client. -/
structure AuthReply (S : Type) where
  public_key : S
  signature : S
  deriving DecidableEq

variable (P : Primitives B S) (L : ClientLibrary B S) (E : Entropy B)

/-- `handleServerChallenge`: the reply that is sent. An error goes to `handleConnectionFailure`. -/
def handleServerChallenge (identity : UserIdentity B S) (challengeHex : S) :
    Except (EngineError S) (AuthReply S) := do
  let signatureHex ← signChallenge P challengeHex identity.signingKey.secretKey
  pure { public_key := identity.signingKey.publicKeyHex, signature := signatureHex }

/-! ## Histories of signatures -/

/-- An identity's store, the challenges it has answered with its replies, the signed prekeys it has
generated, and all messages it has signed. -/
structure Signer (B S : Type) where
  host : Host B S
  answers : List (S × AuthReply S)
  generated : List S
  signed : List B

/-- The relay sends a challenge, or the user makes a bundle. -/
inductive SigningStep (S : Type) where
  | challenge (challengeHex : S)
  | generate (oneTimePreKeyCount : Nat)

/-- The bytes that were signed, given the text `signChallenge` was called with. -/
def signedBytes (hex : S) : List B :=
  match P.hexToBytes hex with
  | .ok bytes => [bytes]
  | .error _ => []

namespace Signer

/-- An identity that has signed nothing yet. -/
def start (host : Host B S) : Signer B S := { host, answers := [], generated := [], signed := [] }

/-- One step. The challenge is answered in every state of the connection. -/
def step (x : Signer B S) : SigningStep S → Signer B S
  | .challenge challengeHex =>
      match handleServerChallenge P x.host.store.identity challengeHex with
      | .error _ => x
      | .ok reply =>
          { x with
            answers := (challengeHex, reply) :: x.answers
            signed := signedBytes P challengeHex ++ x.signed }
  | .generate oneTimePreKeyCount =>
      match (generatePreKeyBundle P oneTimePreKeyCount).run P E x.host with
      | (.error _, host) => { x with host }
      | (.ok bundle, host) =>
          { x with
            host
            generated := bundle.signedPreKey.publicKeyHex :: x.generated
            signed := signedBytes P bundle.signedPreKey.publicKeyHex ++ x.signed }

/-- A run of steps. -/
def run (x : Signer B S) (steps : List (SigningStep S)) : Signer B S :=
  steps.foldl (fun x a => x.step P E a) x

end Signer

variable {P L E}

omit [DecidableEq S] in
theorem mem_signedBytes {hex : S} {m : B} : m ∈ signedBytes P hex ↔ P.hexToBytes hex = .ok m := by
  rw [signedBytes]
  cases P.hexToBytes hex with
  | error e => simp
  | ok b => simp [eq_comm]

omit [DecidableEq S] in
/-- An answered challenge has 32 bytes. -/
theorem handleServerChallenge_ok {identity : UserIdentity B S} {challengeHex : S}
    {reply : AuthReply S} (h : handleServerChallenge P identity challengeHex = .ok reply) :
    ∃ m, P.hexToBytes challengeHex = .ok m ∧ P.length m = 32 ∧
      reply.signature = P.bytesToHex (P.signDetached m identity.signingKey.secretKey) := by
  obtain ⟨signatureHex, hsign, h⟩ := bind_eq_ok.1 h
  cases h
  by_cases hsecret : P.length identity.signingKey.secretKey = 64
  · cases hm : P.hexToBytes challengeHex with
    | error e => simp [signChallenge, hsecret, hm, bind, Except.bind] at hsign
    | ok m =>
        by_cases hlength : P.length m = 32
        · refine ⟨m, rfl, hlength, ?_⟩
          simpa [signChallenge, hsecret, hm, hlength, bind, Except.bind, pure, Except.pure]
            using hsign.symm
        · simp [signChallenge, hsecret, hm, hlength, bind, Except.bind, throw] at hsign
  · simp [signChallenge, hsecret, bind, Except.bind, throw] at hsign

/-- `m` is a signed prekey the identity has generated, or a challenge it has answered. -/
def Signer.Asked (P : Primitives B S) (x : Signer B S) (m : B) : Prop :=
  (∃ hex ∈ x.generated, P.hexToBytes hex = .ok m) ∨
    ∃ answer ∈ x.answers, P.hexToBytes answer.1 = .ok m ∧ P.length m = 32

/-- Every step signs what it was asked to sign. -/
theorem Signer.asked_step {x : Signer B S} (hx : ∀ m ∈ x.signed, x.Asked P m) (a : SigningStep S) :
    ∀ m ∈ (x.step P E a).signed, (x.step P E a).Asked P m := by
  cases a with
  | challenge challengeHex =>
      cases hreply : handleServerChallenge P x.host.store.identity challengeHex with
      | error e =>
          simp only [step, hreply]
          exact hx
      | ok reply =>
          simp only [step, hreply]
          intro m hm
          rcases List.mem_append.1 hm with hnew | hold
          · -- what is signed now is the challenge, which was checked to have 32 bytes
            obtain ⟨m', hm', hlength, -⟩ := handleServerChallenge_ok hreply
            cases (mem_signedBytes.1 hnew).symm.trans hm'
            exact Or.inr ⟨_, List.mem_cons_self, hm', hlength⟩
          · rcases hx m hold with hgenerated | ⟨answer, hmem, hanswer⟩
            · exact Or.inl hgenerated
            · exact Or.inr ⟨answer, List.mem_cons_of_mem _ hmem, hanswer⟩
  | generate count =>
      cases hrun : (generatePreKeyBundle P count).run P E x.host with
      | mk r host =>
          cases r with
          | error e =>
              simp only [step, hrun]
              exact hx
          | ok bundle =>
              simp only [step, hrun]
              intro m hm
              rcases List.mem_append.1 hm with hnew | hold
              · exact Or.inl ⟨_, List.mem_cons_self, mem_signedBytes.1 hnew⟩
              · rcases hx m hold with ⟨hex, hmem, hhex⟩ | hanswered
                · exact Or.inl ⟨hex, List.mem_cons_of_mem _ hmem, hhex⟩
                · exact Or.inr hanswered

/-- Every run signs what it was asked to sign. -/
theorem Signer.asked_run {x : Signer B S} (hx : ∀ m ∈ x.signed, x.Asked P m)
    (steps : List (SigningStep S)) : ∀ m ∈ (x.run P E steps).signed, (x.run P E steps).Asked P m := by
  induction steps generalizing x with
  | nil => exact hx
  | cons a steps ih => exact ih (Signer.asked_step hx a)

/-! ## Accepted prekeys -/

variable (P L E) in
/-- The pair is accepted as a signed prekey under the signing key: some call of `initiateSession` on
a bundle with it succeeds, or some contact text with it is parsed. -/
inductive AcceptedPreKey (signingKey : B) (publicKeyHex signatureHex : S) : Prop where
  | initiateSession {k : S} {bundle : PreKeyBundle S} {h h' : Host B S} {s : SessionRecord B S} :
      (Crypto.initiateSession P k bundle).run P E h = (.ok s, h') →
      P.hexToBytes bundle.signingKeyHex = .ok signingKey →
      bundle.signedPreKey.publicKeyHex = publicKeyHex →
      bundle.signedPreKey.signatureHex = signatureHex →
      AcceptedPreKey signingKey publicKeyHex signatureHex
  | parseContactUri {uriString : S} {parsed : ParsedContact S} :
      Client.parseContactUri P L uriString = .ok parsed →
      P.hexToBytes parsed.payload.signingKeyHex = .ok signingKey →
      parsed.payload.signedPreKey.publicKeyHex = publicKeyHex →
      parsed.payload.signedPreKey.signatureHex = signatureHex →
      AcceptedPreKey signingKey publicKeyHex signatureHex

/-- Both checks are the same one. -/
theorem AcceptedPreKey.verified {signingKey : B} {publicKeyHex signatureHex : S}
    (h : AcceptedPreKey P L E signingKey publicKeyHex signatureHex) :
    ∃ m signature, P.hexToBytes publicKeyHex = .ok m ∧ P.hexToBytes signatureHex = .ok signature ∧
      P.verifyDetached m signature signingKey = .ok true := by
  cases h with
  | @initiateSession k bundle h h' s hrun hkey hpublic hsignature =>
      rcases run_initiateSession_cases P E k bundle h with ⟨e, h₁, hfail, -⟩ | ⟨dhAll, initialDh, hin⟩
      · rw [hfail] at hrun
        cases hrun
      · obtain ⟨m, signature, publicKey, hm, hsig, hdecode, hverified⟩ :=
          verifySignature_eq_true.1 hin.verified
        cases hkey.symm.trans hdecode
        exact ⟨m, signature, hpublic ▸ hm, hsignature ▸ hsig, hverified⟩
  | parseContactUri hparsed hkey hpublic hsignature =>
      obtain ⟨m, signature, publicKey, hm, hsig, hdecode, hverified⟩ :=
        verifySignature_eq_true.1 (parseContactUri_ok hparsed).1
      cases hkey.symm.trans hdecode
      exact ⟨m, signature, hpublic ▸ hm, hsignature ▸ hsig, hverified⟩

/-- For every history of challenges answered and bundles generated: a pair that is accepted as a
signed prekey under the identity's signing key, with a signature that is valid only for messages
the key has signed, is of a public key the identity has generated or of a 32-byte challenge it has
answered. -/
theorem accepted_preKey_signed (start : Host B S) (steps : List (SigningStep S)) {signature : B}
    (hunforged : ∀ m, P.verifyDetached m signature start.store.identity.signingKey.publicKey =
      .ok true → m ∈ ((Signer.start start).run P E steps).signed)
    {publicKeyHex signatureHex : S} (hsignature : P.hexToBytes signatureHex = .ok signature)
    (haccepted : AcceptedPreKey P L E start.store.identity.signingKey.publicKey publicKeyHex
      signatureHex) :
    ∃ m, P.hexToBytes publicKeyHex = .ok m ∧ ((Signer.start start).run P E steps).Asked P m := by
  obtain ⟨m, signature', hm, hsig, hverified⟩ := haccepted.verified
  cases hsignature.symm.trans hsig
  refine ⟨m, hm, ?_⟩
  apply Signer.asked_run (x := Signer.start start)
  · intro m' hm'
    cases hm'
  · exact hunforged m hverified

/-! ## A run over symbolic terms -/

section

open TorE2EE.Crypto.Sym

/-- An identity that has signed nothing. -/
def symbolicSigner : Host Sym Sym :=
  { store := SignalStore.empty (symbolicIdentity 1), draws := 0 }

/-- The relay sends a Diffie-Hellman public key of its own as the challenge. -/
def hostileChallenge : SigningStep Sym := .challenge (hex (pub (name 7)))

/-- The contact URI of the first prekey the identity signs, with an identity key of choice. -/
def generatedUri (identityKeyHex : Sym) : Sym :=
  contactUri (hex (pub (signingSecret 1))) identityKeyHex (hex (pub (name 2)))
    (hex (signature (pub (name 2)) (signingSecret 1)))

theorem symbolic_unforged {m t : Sym}
    (h : symbolicClient.verifyDetached m (signature t (signingSecret 1)) (pub (signingSecret 1)) =
      .ok true) : m = t := by
  have hverified : decide (t = m ∧ pub (signingSecret 1) = pub (signingSecret 1)) = true :=
    Except.ok.inj h
  exact (of_decide_eq_true hverified).1.symm

/-- The answer to a challenge is accepted as the signature of a prekey. -/
theorem answered_accepted :
    AcceptedPreKey symbolicClient symbolicLibrary symbolicEntropy (pub (signingSecret 1))
      (hex (pub (name 7))) (hex (signature (pub (name 7)) (signingSecret 1))) := by
  have hok : (parseContactUri symbolicClient symbolicLibrary
      (contactUri (hex (pub (signingSecret 1))) (hex (pub (name 9))) (hex (pub (name 7)))
        (hex (signature (pub (name 7)) (signingSecret 1))))).isOk = true := rfl
  obtain ⟨parsed, hparsed⟩ := exists_ok_of_isOk hok
  apply AcceptedPreKey.parseContactUri hparsed
  all_goals
    cases hparsed
    rfl

/-- The relay's key is accepted as a signed prekey of the identity. -/
theorem challenge_answer_is_preKey_signature :
    ¬ ∀ (steps : List (SigningStep Sym)) (challengeHex : Sym) (reply : AuthReply Sym),
      (challengeHex, reply) ∈
          ((Signer.start symbolicSigner).run symbolicClient symbolicEntropy steps).answers →
        challengeHex ∉
          ((Signer.start symbolicSigner).run symbolicClient symbolicEntropy steps).generated →
        ¬ AcceptedPreKey symbolicClient symbolicLibrary symbolicEntropy
          symbolicSigner.store.identity.signingKey.publicKey challengeHex reply.signature := by
  intro hnever
  apply hnever [hostileChallenge, .generate 1] (hex (pub (name 7)))
    { public_key := hex (pub (signingSecret 1))
      signature := hex (signature (pub (name 7)) (signingSecret 1)) }
  · decide
  · decide
  · exact answered_accepted

theorem accepted_preKey_signed_symbolic :
    ∃ m, symbolicClient.hexToBytes (hex (pub (name 7))) = .ok m ∧
      ((Signer.start symbolicSigner).run symbolicClient symbolicEntropy
        [hostileChallenge, .generate 1]).Asked symbolicClient m := by
  have hsignature : symbolicClient.hexToBytes (hex (signature (pub (name 7)) (signingSecret 1))) =
      .ok (signature (pub (name 7)) (signingSecret 1)) := rfl
  apply accepted_preKey_signed symbolicSigner [hostileChallenge, .generate 1] _ hsignature
    answered_accepted
  intro m hverified
  rw [symbolic_unforged hverified]
  decide

end

/-! ## Contacts of an identity that answers no challenge -/

/-- Without challenges nothing is answered. -/
theorem Signer.answers_run {x : Signer B S} (hx : x.answers = [])
    {steps : List (SigningStep S)} (hgenerate : ∀ a ∈ steps, ∃ count, a = .generate count) :
    (x.run P E steps).answers = [] := by
  induction steps generalizing x with
  | nil => exact hx
  | cons a steps ih =>
      obtain ⟨count, rfl⟩ := hgenerate a List.mem_cons_self
      apply ih
      · rcases hrun : (generatePreKeyBundle P count).run P E x.host with ⟨r, host⟩
        cases r with
        | error e => simp only [step, hrun, hx]
        | ok bundle => simp only [step, hrun, hx]
      · intro a' ha'
        exact hgenerate a' (List.mem_cons_of_mem _ ha')

/-- For every text that is accepted with the signing key of an identity that signs only in
`generatePreKeyBundle`, with a signature that is valid only for messages the key has signed: the
signed prekey of the contact is one the identity has generated, and every text with the same signed
fields is accepted, whatever identity key, key id, one-time prekey and alias it has. -/
theorem accepted_contact_preKey_generated (start : Host B S) {steps : List (SigningStep S)}
    (hgenerate : ∀ a ∈ steps, ∃ count, a = .generate count) {uriString : S}
    {parsed : ParsedContact S} (hparsed : parseContactUri P L uriString = .ok parsed)
    (hkey : P.hexToBytes parsed.payload.signingKeyHex =
      .ok start.store.identity.signingKey.publicKey)
    (hunforged : ∀ m signature,
      P.hexToBytes parsed.payload.signedPreKey.signatureHex = .ok signature →
      P.verifyDetached m signature start.store.identity.signingKey.publicKey = .ok true →
        m ∈ ((Signer.start start).run P E steps).signed) :
    (∃ publicKeyHex ∈ ((Signer.start start).run P E steps).generated,
      ∃ m, P.hexToBytes publicKeyHex = .ok m ∧
        P.hexToBytes parsed.payload.signedPreKey.publicKeyHex = .ok m) ∧
      ∀ uriString' json' preKey identityKeyHex, DecodesTo P L uriString' json' →
        SignedFields P parsed.payload json' preKey →
        requireField P "identityKeyHex" json' = .ok identityKeyHex →
        ∃ parsed', parseContactUri P L uriString' = .ok parsed' ∧
          parsed'.recipientPubkeyHash = parsed.recipientPubkeyHash ∧
          parsed'.payload.identityKeyHex = identityKeyHex ∧
          getField P "keyId" preKey = .ok parsed'.payload.signedPreKey.keyId ∧
          getField P "oneTimePreKey" json' = .ok parsed'.payload.oneTimePreKey ∧
          getField P "alias" json' = .ok parsed'.payload.contactAlias := by
  refine ⟨?_, fun _ _ _ _ hdecodes hsame hidentity =>
    parseContactUri_of_signedFields hparsed hdecodes hsame hidentity⟩
  have haccepted : AcceptedPreKey P L E start.store.identity.signingKey.publicKey
      parsed.payload.signedPreKey.publicKeyHex parsed.payload.signedPreKey.signatureHex :=
    AcceptedPreKey.parseContactUri hparsed hkey rfl rfl
  obtain ⟨m, signature, hm, hsig, hverified⟩ := haccepted.verified
  have hasked : ((Signer.start start).run P E steps).Asked P m := by
    apply Signer.asked_run (x := Signer.start start)
    · intro m' hm'
      cases hm'
    · exact hunforged m signature hsig hverified
  rcases hasked with ⟨hex, hmem, hhex⟩ | ⟨answer, hmem, -⟩
  · exact ⟨hex, hmem, m, hhex, hm⟩
  · rw [Signer.answers_run rfl hgenerate] at hmem
    cases hmem

section

open TorE2EE.Crypto.Sym

/-- The payload of `generatedUri`. -/
def generatedJson (identityKeyHex : Sym) : Json Sym :=
  .object
    [(text "signingKeyHex", .string (hex (pub (signingSecret 1)))),
      (text "identityKeyHex", .string identityKeyHex),
      (text "signedPreKey", .object
        [(text "keyId", .number 1), (text "publicKeyHex", .string (hex (pub (name 2)))),
          (text "signatureHex", .string (hex (signature (pub (name 2)) (signingSecret 1))))])]

theorem accepted_contact_preKey_generated_symbolic :
    (∃ publicKeyHex ∈ ((Signer.start symbolicSigner).run symbolicClient symbolicEntropy
        [.generate 1]).generated,
      ∃ m, symbolicClient.hexToBytes publicKeyHex = .ok m ∧
        symbolicClient.hexToBytes (hex (pub (name 2))) = .ok m) ∧
      ∃ parsed', parseContactUri symbolicClient symbolicLibrary (generatedUri (hex (pub (name 9)))) =
          .ok parsed' ∧
        parsed'.payload.identityKeyHex = .string (hex (pub (name 9))) := by
  have hok : (parseContactUri symbolicClient symbolicLibrary
      (generatedUri (hex (pub (name 1))))).isOk = true := rfl
  obtain ⟨parsed, hparsed⟩ := exists_ok_of_isOk hok
  have hkey : symbolicClient.hexToBytes parsed.payload.signingKeyHex =
      .ok symbolicSigner.store.identity.signingKey.publicKey := by
    cases hparsed
    rfl
  have hpublic : parsed.payload.signedPreKey.publicKeyHex = hex (pub (name 2)) := by
    cases hparsed
    rfl
  have hunforged : ∀ m sig, symbolicClient.hexToBytes parsed.payload.signedPreKey.signatureHex =
      .ok sig → symbolicClient.verifyDetached m sig
        symbolicSigner.store.identity.signingKey.publicKey = .ok true →
      m ∈ ((Signer.start symbolicSigner).run symbolicClient symbolicEntropy [.generate 1]).signed := by
    intro m sig hsig hverified
    cases hparsed
    cases hsig
    rw [symbolic_unforged hverified]
    decide
  obtain ⟨hgenerated, hopen⟩ := accepted_contact_preKey_generated symbolicSigner
    (fun a ha => ⟨1, List.mem_singleton.1 ha⟩) hparsed hkey hunforged
  refine ⟨hpublic ▸ hgenerated, ?_⟩
  -- another identity key under the same signature
  have hsame : SignedFields symbolicClient parsed.payload (generatedJson (hex (pub (name 9))))
      (.object [(text "keyId", .number 1), (text "publicKeyHex", .string (hex (pub (name 2)))),
        (text "signatureHex", .string (hex (signature (pub (name 2)) (signingSecret 1))))]) := by
    cases hparsed
    exact ⟨rfl, rfl, rfl, rfl⟩
  obtain ⟨parsed', hparsed', -, hidentity, -⟩ :=
    hopen (generatedUri (hex (pub (name 9)))) (generatedJson (hex (pub (name 9)))) _
      (.string (hex (pub (name 9)))) ⟨_, rfl, rfl⟩ hsame rfl
  exact ⟨parsed', hparsed', hidentity⟩

/-- A contact with a substituted identity key is accepted. -/
theorem contact_identity_key_replaceable :
    ¬ ∀ (steps : List (SigningStep Sym)) (uriString : Sym) (parsed : ParsedContact Sym),
      (∀ a ∈ steps, ∃ count, a = .generate count) →
        parseContactUri symbolicClient symbolicLibrary uriString = .ok parsed →
        parsed.payload.signingKeyHex = symbolicSigner.store.identity.signingKey.publicKeyHex →
        parsed.payload.identityKeyHex =
            .string symbolicSigner.store.identity.encryptionKey.publicKeyHex ∧
          parsed.payload.signedPreKey.publicKeyHex ∈
            ((Signer.start symbolicSigner).run symbolicClient symbolicEntropy steps).generated := by
  intro hwhole
  have hok : (parseContactUri symbolicClient symbolicLibrary
      (generatedUri (hex (pub (name 9))))).isOk = true := rfl
  obtain ⟨parsed, hparsed⟩ := exists_ok_of_isOk hok
  have hkeys := hwhole [.generate 1] (generatedUri (hex (pub (name 9)))) parsed
    (fun a ha => ⟨1, List.mem_singleton.1 ha⟩) hparsed
  cases hparsed
  have hidentity := (hkeys rfl).1
  cases hidentity

end

end TorE2EE.Client
