import TorE2EE.Client.Imports
import TorE2EE.Crypto.SessionSetup

/-!
# Imports and their sessions

`importContact` saves the contact before it initiates the session. The parser has checked the signed
prekey's signature and that the identity key counts as true; the session needs keys of 32 bytes.
`importContact_allOrNothing_iff` says for which URIs and databases an import that fails leaves
nothing behind.
-/

set_option autoImplicit false

namespace TorE2EE.Client

open TorE2EE.Foundation TorE2EE.Crypto

variable {B S : Type} [DecidableEq S]

/-! ## Payloads of any shape -/

section

variable (P : Primitives B S)

/-- `hexToBytes` on a value of any shape: it throws on what is no string. -/
def hexOf (v : Option (Json S)) : Except (EngineError S) B :=
  match Json.string? v with
  | some hex => P.hexToBytes hex
  | none => .error (.library "hex string expected")

/-- `initiateSession` on a payload whose one-time prekey counts as true and is not of the declared
shape. Its key has to decode all the same. Its id is only stored; one that is no integer has no
place in the record here. -/
def initiateUntyped (recipientIdentityKeyHex : S) (payload : ContactExportPayload S) :
    EngineM B S Unit := do
  let identity ← await .getIdentity
  let isSpkValid := verifySignature P payload.signedPreKey.publicKeyHex
    payload.signedPreKey.signatureHex payload.signingKeyHex
  if !isSpkValid then Program.throw .signedPreKeySignature else
  let ikB ← attempt (hexOf P (some payload.identityKeyHex))
  let spkB ← attempt (P.hexToBytes payload.signedPreKey.publicKeyHex)
  let ekA ← generateCurve25519KeyPair P
  let dh1 ← attempt (P.scalarMult identity.encryptionKey.secretKey spkB)
  let dh2 ← attempt (P.scalarMult ekA.secretKey ikB)
  let dh3 ← attempt (P.scalarMult ekA.secretKey spkB)
  let opkB ← attempt (hexOf P (payload.oneTimePreKey.bind (property P "publicKeyHex")))
  let dh4 ← attempt (P.scalarMult ekA.secretKey opkB)
  let initialDh ← attempt (P.scalarMult ekA.secretKey spkB)
  let r := kdfRoot P (masterSecret P [dh1, dh2, dh3, dh4]) initialDh
  let createdAt ← await .now
  let updatedAt ← await .now
  await (.saveSession recipientIdentityKeyHex
    { recipientIdentityKeyHex := P.toLowerCase
        ((Json.string? (some payload.identityKeyHex)).getD recipientIdentityKeyHex)
      rootKeyHex := P.bytesToHex r.nextRootKey
      sendChainKeyHex := some (P.bytesToHex r.chainKey)
      receiveChainKeyHex := none
      localDhKeyPair := ekA
      remoteDhPublicKeyHex := some (P.toLowerCase payload.signedPreKey.publicKeyHex)
      sendSequenceNumber := 0
      receiveSequenceNumber := 0
      previousChainLength := 0
      skippedMessageKeys := fun _ => none
      createdAt
      updatedAt
      oneTimePreKeyId := integer? (payload.oneTimePreKey.bind (property P "keyId")) })

/-- The engine calls on values of any shape, with any `decrypt`. -/
def untypedCalls (decryptUntyped : S → Json S → EngineM B S S) : UntypedCalls B S :=
  { decrypt := decryptUntyped
    initiateSession := initiateUntyped P }

/-- A key of 32 bytes in hex. -/
def IsKey (v : Option (Json S)) : Prop := ∃ key, hexOf P v = .ok key ∧ P.length key = 32

/-- The keys of a payload are keys of 32 bytes; a one-time prekey that counts as true has one, too. -/
structure UsableKeys (payload : ContactExportPayload S) : Prop where
  identityKey : IsKey P (some payload.identityKeyHex)
  signedPreKey : IsKey P (some (.string payload.signedPreKey.publicKeyHex))
  oneTimePreKey : Json.truthy (P.lit "") payload.oneTimePreKey →
    IsKey P (payload.oneTimePreKey.bind (property P "publicKeyHex"))

end

variable {P : Primitives B S} {L : ClientLibrary B S} {E : Entropy B} {N : Network}

/-- `nacl.scalarMult` throws on a key of another length than 32 bytes, and on no other. -/
def ChecksLengths (P : Primitives B S) : Prop :=
  ∀ a x, (∃ d, P.scalarMult a x = .ok d) ↔ P.length a = 32 ∧ P.length x = 32

/-! ## Which keys give a session -/

omit [DecidableEq S] in
/-- The Diffie-Hellman values can be computed when all keys have 32 bytes. -/
theorem initiatorDhs_ok_iff (hP : ChecksLengths P) {ikA ekA : Curve25519KeyPair B S}
    (hikA : P.length ikA.secretKey = 32) (hekA : P.length ekA.secretKey = 32) {ikB spkB : B}
    {oneTimePreKey : Option (PublicOneTimePreKey S)} :
    (∃ dhAll, initiatorDhs P ikA ekA ikB spkB oneTimePreKey = .ok dhAll) ↔
      P.length ikB = 32 ∧ P.length spkB = 32 ∧
        ∀ otk, oneTimePreKey = some otk → IsKey P (some (.string otk.publicKeyHex)) := by
  -- the library throws on a key of another length and on nothing else
  have hdh (secretKey key : B) (hsecret : P.length secretKey = 32) :
      (∃ d, P.scalarMult secretKey key = .ok d) ↔ P.length key = 32 := by
    rw [hP]
    exact and_iff_right hsecret
  constructor
  · rintro ⟨dhAll, h⟩
    rw [initiatorDhs] at h
    obtain ⟨dh1, h1, h⟩ := bind_eq_ok.1 h
    obtain ⟨dh2, h2, h⟩ := bind_eq_ok.1 h
    obtain ⟨dh3, -, h⟩ := bind_eq_ok.1 h
    refine ⟨(hdh _ _ hekA).1 ⟨dh2, h2⟩, (hdh _ _ hikA).1 ⟨dh1, h1⟩, ?_⟩
    rintro otk rfl
    obtain ⟨opkB, hopk, h⟩ := bind_eq_ok.1 h
    obtain ⟨dh4, h4, -⟩ := bind_eq_ok.1 h
    exact ⟨opkB, hopk, (hdh _ _ hekA).1 ⟨dh4, h4⟩⟩
  · rintro ⟨hikB, hspkB, hotk⟩
    obtain ⟨dh1, h1⟩ := (hdh _ _ hikA).2 hspkB
    obtain ⟨dh2, h2⟩ := (hdh _ _ hekA).2 hikB
    obtain ⟨dh3, h3⟩ := (hdh _ _ hekA).2 hspkB
    cases oneTimePreKey with
    | none =>
        exact ⟨_, bind_eq_ok.2 ⟨dh1, h1, bind_eq_ok.2 ⟨dh2, h2, bind_eq_ok.2 ⟨dh3, h3, rfl⟩⟩⟩⟩
    | some otk =>
        obtain ⟨opkB, hopk, hlength⟩ := hotk otk rfl
        obtain ⟨dh4, h4⟩ := (hdh _ _ hekA).2 hlength
        exact ⟨_, bind_eq_ok.2 ⟨dh1, h1, bind_eq_ok.2 ⟨dh2, h2, bind_eq_ok.2 ⟨dh3, h3,
          bind_eq_ok.2 ⟨opkB, hopk, bind_eq_ok.2 ⟨dh4, h4, rfl⟩⟩⟩⟩⟩⟩

/-- The session of the call is saved, and nothing else in the store is changed. -/
def SavesSession (P : Primitives B S) (k : S) (st : SignalStore B S)
    (r : Except (EngineError S) Unit × Host B S) : Prop :=
  ∃ session, r.1 = .ok () ∧ r.2.store = st.saveSession P k session

/-- The call throws and has saved nothing. -/
def SavesNothing (st : SignalStore B S) (r : Except (EngineError S) Unit × Host B S) : Prop :=
  ∃ e, r.1 = .error e ∧ r.2.store = st

/-- The payload has a bundle of the declared shape: its parts. -/
theorem readBundle_some {payload : ContactExportPayload S} {bundle : PreKeyBundle S}
    (h : readBundle P payload = some bundle) :
    payload.identityKeyHex = .string bundle.identityKeyHex ∧
      bundle.signingKeyHex = payload.signingKeyHex ∧
      bundle.signedPreKey.publicKeyHex = payload.signedPreKey.publicKeyHex ∧
      bundle.signedPreKey.signatureHex = payload.signedPreKey.signatureHex ∧
      readOneTimePreKey P payload.oneTimePreKey = some bundle.oneTimePreKey := by
  rw [readBundle] at h
  obtain ⟨identityKeyHex, hidentity, h⟩ := Option.bind_eq_some_iff.1 h
  obtain ⟨oneTimePreKey, hotk, h⟩ := Option.bind_eq_some_iff.1 h
  cases h
  exact ⟨Option.some.inj (Json.string?_eq_some.1 hidentity), rfl, rfl, rfl, hotk⟩

/-- The one-time prekey of such a bundle is usable when that of the payload is. -/
theorem readOneTimePreKey_isKey_iff {v : Option (Json S)} {found : Option (PublicOneTimePreKey S)}
    (h : readOneTimePreKey P v = some found) :
    (∀ otk, found = some otk → IsKey P (some (.string otk.publicKeyHex))) ↔
      (Json.truthy (P.lit "") v → IsKey P (v.bind (property P "publicKeyHex"))) := by
  rw [readOneTimePreKey] at h
  by_cases htruthy : Json.truthy (P.lit "") v = true
  · rw [if_pos htruthy] at h
    obtain ⟨otk, rfl, hread⟩ := Option.bind_eq_some_iff.1 h
    obtain ⟨keyId, -, hread⟩ := Option.bind_eq_some_iff.1 hread
    obtain ⟨publicKeyHex, hkey, hread⟩ := Option.bind_eq_some_iff.1 hread
    cases hread
    have hjson := Json.string?_eq_some.1 hkey
    simp only [Option.some.injEq, forall_eq', htruthy, true_implies, Option.bind_some, hjson]
  · rw [if_neg htruthy] at h
    cases h
    simp [htruthy]

/-- A bundle of the declared shape. -/
theorem run_initiateSession_usable_iff (hP : ChecksLengths P) {payload : ContactExportPayload S}
    {bundle : PreKeyBundle S} (hbundle : readBundle P payload = some bundle)
    (hverified : verifySignature P payload.signedPreKey.publicKeyHex
      payload.signedPreKey.signatureHex payload.signingKeyHex = true)
    {h : Host B S} (hidentity : P.length h.store.identity.encryptionKey.secretKey = 32)
    (hentropy : P.length (E.secretKey h.draws) = 32) :
    (∃ dhAll initialDh, InitiatorInputs P h.store.identity bundle
      (keyPairOf P (E.secretKey h.draws)) dhAll initialDh) ↔ UsableKeys P payload := by
  obtain ⟨hik, hsigning, hspk, hsignature, hotk⟩ := readBundle_some hbundle
  have hekA : P.length (keyPairOf P (E.secretKey h.draws)).secretKey = 32 := hentropy
  -- the keys of the bundle are those of the payload
  constructor
  · rintro ⟨dhAll, initialDh, -, ikB, spkB, hikB, hspkB, hdh, -⟩
    obtain ⟨hlengthI, hlengthS, hlengthO⟩ :=
      (initiatorDhs_ok_iff hP hidentity hekA).1 ⟨dhAll, hdh⟩
    constructor
    · rw [hik]
      exact ⟨ikB, hikB, hlengthI⟩
    · rw [← hspk]
      exact ⟨spkB, hspkB, hlengthS⟩
    · exact (readOneTimePreKey_isKey_iff hotk).1 hlengthO
  · rintro ⟨⟨ikB, hikB, hlengthI⟩, ⟨spkB, hspkB, hlengthS⟩, hlengthO⟩
    rw [hik] at hikB
    obtain ⟨dhAll, hdh⟩ := (initiatorDhs_ok_iff hP hidentity hekA).2
      ⟨hlengthI, hlengthS, (readOneTimePreKey_isKey_iff hotk).2 hlengthO⟩
    obtain ⟨initialDh, hinitial⟩ := (hP _ _).2 ⟨hekA, hlengthS⟩
    refine ⟨dhAll, initialDh, ?_, ikB, spkB, hikB, ?_, hdh, hinitial⟩
    · rw [hspk, hsignature, hsigning]
      exact hverified
    · rw [hspk]
      exact hspkB

/-- `initiateSession` on a payload of any shape saves a session. -/
theorem run_initiateUntyped_of_usable (hP : ChecksLengths P) {k : S}
    {payload : ContactExportPayload S}
    (htruthy : Json.truthy (P.lit "") payload.oneTimePreKey)
    (hverified : verifySignature P payload.signedPreKey.publicKeyHex
      payload.signedPreKey.signatureHex payload.signingKeyHex = true)
    {h : Host B S} (hidentity : P.length h.store.identity.encryptionKey.secretKey = 32)
    (hentropy : P.length (E.secretKey h.draws) = 32) (husable : UsableKeys P payload) :
    SavesSession P k h.store ((initiateUntyped P k payload).run P E h) := by
  obtain ⟨ikB, hik, hlengthI⟩ := husable.identityKey
  obtain ⟨spkB, hspk, hlengthS⟩ := husable.signedPreKey
  obtain ⟨opkB, hopk, hlengthO⟩ := husable.oneTimePreKey htruthy
  have hspk' : P.hexToBytes payload.signedPreKey.publicKeyHex = .ok spkB := hspk
  obtain ⟨dh1, h1⟩ := (hP _ _).2 ⟨hidentity, hlengthS⟩
  obtain ⟨dh2, h2⟩ := (hP _ _).2 ⟨hentropy, hlengthI⟩
  obtain ⟨dh3, h3⟩ := (hP _ _).2 ⟨hentropy, hlengthS⟩
  obtain ⟨dh4, h4⟩ := (hP _ _).2 ⟨hentropy, hlengthO⟩
  simp only [SavesSession, initiateUntyped, EngineM.run, Program.run_bind, Program.run_perform,
    EngineOp.handle, hverified, Bool.not_true, Bool.false_eq_true, if_false, Program.run_ofExcept,
    run_generateCurve25519KeyPair, hik, hspk', h1, keyPairOf, h2, h3, hopk, h4, true_and]
  exact ⟨_, rfl⟩

omit [DecidableEq S] in
/-- A library call that throws saves nothing. -/
theorem savesNothing_attempt_bind [DecidableEq S] {α : Type} {st : SignalStore B S}
    {r : Except (EngineError S) α} {f : α → EngineM B S Unit} {h : Host B S} (hst : h.store = st)
    (hf : ∀ a, r = .ok a → SavesNothing st ((f a).run P E h)) :
    SavesNothing st ((attempt r >>= f).run P E h) := by
  cases r with
  | error e => exact ⟨e, rfl, hst⟩
  | ok a => exact hf a rfl

/-- `initiateSession` on a payload of any shape throws when a key is not usable. -/
theorem run_initiateUntyped_of_not_usable (hP : ChecksLengths P) {k : S}
    {payload : ContactExportPayload S}
    (hverified : verifySignature P payload.signedPreKey.publicKeyHex
      payload.signedPreKey.signatureHex payload.signingKeyHex = true)
    {h : Host B S} (hunusable : ¬ UsableKeys P payload) :
    SavesNothing h.store ((initiateUntyped P k payload).run P E h) := by
  have hlength {secretKey key d : B} (hd : P.scalarMult secretKey key = .ok d) :
      P.length key = 32 := ((hP _ _).1 ⟨d, hd⟩).2
  rw [initiateUntyped]
  rw [EngineM.run, await, Program.run_perform_bind]
  simp only [EngineOp.handle, hverified, Bool.not_true, Bool.false_eq_true, if_false]
  apply savesNothing_attempt_bind rfl
  intro ikB hik
  apply savesNothing_attempt_bind rfl
  intro spkB hspk
  rw [EngineM.run, Program.run_bind_of_ok _ (run_generateCurve25519KeyPair P E h)]
  apply savesNothing_attempt_bind rfl
  intro dh1 _
  apply savesNothing_attempt_bind rfl
  intro dh2 hdh2
  apply savesNothing_attempt_bind rfl
  intro dh3 hdh3
  apply savesNothing_attempt_bind rfl
  intro opkB hopk
  apply savesNothing_attempt_bind rfl
  intro dh4 hdh4
  -- all calls have returned, so all keys are usable
  exact absurd ⟨⟨ikB, hik, hlength hdh2⟩, ⟨spkB, hspk, hlength hdh3⟩,
    fun _ => ⟨opkB, hopk, hlength hdh4⟩⟩ hunusable

/-- The engine call of an import saves a session when the keys are usable, and throws and saves
nothing when they are not. -/
theorem run_initiateImported (hP : ChecksLengths P) (decryptUntyped : S → Json S → EngineM B S S)
    {k : S} {payload : ContactExportPayload S}
    (hidentityKey : payload.identityKeyHex = .string k)
    (hverified : verifySignature P payload.signedPreKey.publicKeyHex
      payload.signedPreKey.signatureHex payload.signingKeyHex = true)
    {h : Host B S} (hidentity : P.length h.store.identity.encryptionKey.secretKey = 32)
    (hentropy : P.length (E.secretKey h.draws) = 32) :
    (UsableKeys P payload →
      SavesSession P k h.store
        ((initiateImported P (untypedCalls P decryptUntyped) k payload).run P E h)) ∧
      (¬ UsableKeys P payload →
        SavesNothing h.store
          ((initiateImported P (untypedCalls P decryptUntyped) k payload).run P E h)) := by
  rw [initiateImported]
  cases hbundle : readBundle P payload with
  | none =>
      have htruthy : Json.truthy (P.lit "") payload.oneTimePreKey = true := by
        -- with a one-time prekey that counts as false the payload would have a bundle
        by_contra hfalse
        rw [readBundle, hidentityKey, readOneTimePreKey, if_neg hfalse] at hbundle
        cases hbundle
      exact ⟨run_initiateUntyped_of_usable hP htruthy hverified hidentity hentropy,
        run_initiateUntyped_of_not_usable hP hverified⟩
  | some bundle =>
      have hiff := run_initiateSession_usable_iff hP hbundle hverified hidentity hentropy
      have hpure := Program.run_bind_pure (EngineOp.handle P E) (initiateSession P k bundle)
        (fun _ => ()) h
      constructor
      · intro husable
        obtain ⟨dhAll, initialDh, hinputs⟩ := hiff.2 husable
        have hrun := run_initiateSession_of_inputs (k := k) hinputs
        rw [EngineM.run] at hrun
        rw [hrun] at hpure
        exact ⟨_, congrArg Prod.fst hpure, congrArg (fun r => r.2.store) hpure⟩
      · intro hunusable
        rcases run_initiateSession_cases P E k bundle h with ⟨e, h', hrun, hstore, -⟩ | hinputs
        · rw [EngineM.run] at hrun
          rw [hrun] at hpure
          exact ⟨e, congrArg Prod.fst hpure, (congrArg (fun r => r.2.store) hpure).trans hstore⟩
        · exact absurd (hiff.1 hinputs) hunusable

/-! ## All or nothing -/

/-- The call has returned a contact with its row and its session stored, or it has thrown and left
the contacts and the sessions as they were. -/
def AllOrNothing (P : Primitives B S) (x : ClientState B S)
    (r : Except (ClientError S) (ContactRecord S) × ClientState B S) : Prop :=
  (∃ contact row, r.1 = .ok contact ∧ row ∈ r.2.contacts ∧
      { row with created_at := contact.createdAt } = contactRow P contact ∧
      (r.2.host.store.getSession P contact.identityPubkeyHex).isSome) ∨
    ∃ e, r.1 = .error e ∧ r.2.contacts = x.contacts ∧
      r.2.host.store.sessions = x.host.store.sessions

/-- The contact is stored as it is already, but for its creation time. -/
def StoredAlready (P : Primitives B S) (contact : ContactRecord S) (x : ClientState B S) : Prop :=
  (∃ row ∈ x.contacts, row.recipient_pubkey_hash = P.toLowerCase contact.recipientPubkeyHash) ∧
    ∀ row ∈ x.contacts, row.recipient_pubkey_hash = P.toLowerCase contact.recipientPubkeyHash →
      replaceContact (contactRow P contact) row = row

/-- Saving a contact that is stored already changes nothing, and saving another one does. -/
theorem contacts_saveContact_eq_iff {x : ClientState B S} {contact : ContactRecord S} :
    (x.saveContact P contact).contacts = x.contacts ↔ StoredAlready P contact x := by
  by_cases hold : ∃ row ∈ x.contacts,
      row.recipient_pubkey_hash = P.toLowerCase contact.recipientPubkeyHash
  · obtain ⟨row, hrow, hhash⟩ := hold
    have hupdated : (x.saveContact P contact).contacts = x.contacts.map fun r =>
        if r.recipient_pubkey_hash = P.toLowerCase contact.recipientPubkeyHash then
          replaceContact (contactRow P contact) r else r := upsertBy_of_mem hrow hhash
    have hsame := List.map_inj_left (l := x.contacts) (g := id) (f := fun r =>
      if r.recipient_pubkey_hash = P.toLowerCase contact.recipientPubkeyHash then
        replaceContact (contactRow P contact) r else r)
    rw [List.map_id] at hsame
    rw [hupdated, StoredAlready, and_iff_right ⟨row, hrow, hhash⟩, hsame]
    exact forall₂_congr fun r _ => ite_eq_right_iff
  · have hnew : (x.saveContact P contact).contacts = x.contacts ++ [contactRow P contact] :=
      upsertBy_of_new fun r hr hhash => hold ⟨r, hr, hhash⟩
    refine iff_of_false ?_ fun hstored => hold hstored.1
    rw [hnew]
    simp

section

variable {x : ClientState B S} {contact : ContactRecord S}
  {r : Except (EngineError S) Unit × Host B S}

/-- With a session saved under the key of the contact, the import has done all. -/
theorem allOrNothing_of_savesSession
    (hsaves : SavesSession P contact.identityPubkeyHex x.host.store r) :
    AllOrNothing P x ((r.1.map fun _ => contact).mapError .engine,
      { x.saveContact P contact with host := r.2 }) := by
  obtain ⟨session, hok, hstore⟩ := hsaves
  obtain ⟨row, hrow, hsame⟩ := exists_row_saveContact (P := P) x contact
  refine Or.inl ⟨contact, row, ?_, hrow, hsame, ?_⟩
  · rw [hok]
    rfl
  · rw [hstore]
    simp [SignalStore.saveSession, SignalStore.getSession]

/-- With no session saved, the import has done nothing when the contact was there before. -/
theorem allOrNothing_iff_of_savesNothing (hfails : SavesNothing x.host.store r) :
    AllOrNothing P x ((r.1.map fun _ => contact).mapError .engine,
      { x.saveContact P contact with host := r.2 }) ↔ StoredAlready P contact x := by
  obtain ⟨e, herror, hstore⟩ := hfails
  rw [← contacts_saveContact_eq_iff]
  constructor
  · rintro (⟨saved, row, hok, -⟩ | ⟨e', -, hcontacts, -⟩)
    · rw [herror] at hok
      cases hok
    · exact hcontacts
  · intro hcontacts
    refine Or.inr ⟨.engine e, ?_, hcontacts, ?_⟩
    · rw [herror]
      rfl
    · exact congrArg SignalStore.sessions hstore

end

/-- An import is all or nothing if and only if the URI is refused before the contact is saved, or its
keys are all usable, or the contact that is saved is stored already. -/
theorem importContact_allOrNothing_iff (hP : ChecksLengths P)
    (decryptUntyped : S → Json S → EngineM B S S) {x : ClientState B S}
    (hidentity : P.length x.host.store.identity.encryptionKey.secretKey = 32)
    (hentropy : ∀ d, P.length (E.secretKey d) = 32) (uriString : S) (customAlias : Option S) :
    AllOrNothing P x
        ((importContact P L (untypedCalls P decryptUntyped) uriString customAlias).run P E N x) ↔
      ∀ parsed contact, parseContactUri P L uriString = .ok parsed →
        importedContact P L parsed customAlias (E.now x.host.draws) = .ok contact →
        UsableKeys P parsed.payload ∨ StoredAlready P contact x := by
  rw [run_importContact]
  cases hparsed : parseContactUri P L uriString with
  | error e =>
      -- nothing is saved of a URI that is refused
      refine iff_of_true (Or.inr ⟨e, rfl, rfl, rfl⟩) ?_
      intro parsed contact h
      cases h
  | ok parsed =>
      dsimp only
      cases hcontact : importedContact P L parsed customAlias (E.now x.host.draws) with
      | error e =>
          -- nor of a payload that makes no contact
          refine iff_of_true (Or.inr ⟨e, rfl, rfl, rfl⟩) ?_
          intro parsed' contact h hsaved
          cases h
          rw [hcontact] at hsaved
          cases hsaved
      | ok contact =>
          -- the contact is saved, and it depends on the engine whether a session is
          obtain ⟨hidentityKey, -, -, -⟩ := importedContact_ok hcontact
          obtain ⟨hverified, -⟩ := parseContactUri_ok hparsed
          obtain ⟨hsaves, hfails⟩ := run_initiateImported (E := E) (h := x.drawn.host) hP
            decryptUntyped hidentityKey hverified hidentity (hentropy _)
          dsimp only
          constructor
          · intro hall parsed' contact' hparsed' hcontact'
            cases hparsed'
            cases hcontact.symm.trans hcontact'
            refine or_iff_not_imp_left.2 fun hunusable => ?_
            exact (allOrNothing_iff_of_savesNothing (hfails hunusable)).1 hall
          · intro hcondition
            by_cases husable : UsableKeys P parsed.payload
            · exact allOrNothing_of_savesSession (hsaves husable)
            · have hstored := (hcondition parsed contact rfl hcontact).resolve_left husable
              exact (allOrNothing_iff_of_savesNothing (hfails husable)).2 hstored

/-! ## Keys that are no keys -/

section

open TorE2EE.Crypto.Sym

/-- `symbolicClient` with a `nacl.scalarMult` for any two keys of 32 bytes. -/
def totalClient : Primitives Sym Sym :=
  { symbolicClient with
    scalarMult := fun a x =>
      if symbolicClient.length a = 32 ∧ symbolicClient.length x = 32 then
        .ok ((Sym.scalarMult a x).toOption.getD (mul a x))
      else .error (.library "bad size") }

/-- An import over these terms; `decrypt` on a value of the wrong shape throws. -/
def totalImport (uriString : Sym) :
    Except (ClientError Sym) (ContactRecord Sym) × ClientState Sym Sym :=
  (importContact totalClient symbolicLibrary (untypedCalls totalClient symbolicUntyped.decrypt)
    uriString none).run totalClient symbolicEntropy symbolicNetwork symbolicBob

/-- The keys of `carol` give a session. -/
theorem importContact_allOrNothing_symbolic :
    AllOrNothing totalClient symbolicBob (totalImport carolUri) := by
  have hP : ChecksLengths totalClient := by
    intro a x
    change (∃ d, (if symbolicClient.length a = 32 ∧ symbolicClient.length x = 32 then _ else _) =
      Except.ok d) ↔ symbolicClient.length a = 32 ∧ symbolicClient.length x = 32
    split
    · next h => exact iff_of_true ⟨_, rfl⟩ h
    · next h => exact iff_of_false (by rintro ⟨d, hd⟩; cases hd) h
  apply (importContact_allOrNothing_iff hP symbolicUntyped.decrypt rfl (fun _ => rfl) carolUri
    none).2
  intro parsed contact hparsed _
  cases (show parseContactUri totalClient symbolicLibrary carolUri = .ok carolParsed from
    rfl).symm.trans hparsed
  left
  exact ⟨⟨_, rfl, rfl⟩, ⟨_, rfl, rfl⟩, fun htruthy => by cases htruthy⟩

/-- A URI whose identity key is no hex string leaves a contact without a session. -/
theorem importContact_leaves_contact :
    ¬ AllOrNothing totalClient symbolicBob
      (totalImport (contactUri (hex (pub (signingSecret 3))) (text "zz") (hex (pub (name 9)))
        (hex (signature (pub (name 9)) (signingSecret 3))))) := by
  generalize hrun : totalImport _ = r
  have houtcome : r.1.toOption.isNone = true ∧
      r.2.contacts.map ContactRow.identity_pubkey_hex = [text "zz"] ∧
        symbolicBob.contacts.map ContactRow.identity_pubkey_hex = [] := by
    rw [← hrun]
    decide +kernel
  obtain ⟨hthrown, hafter, hbefore⟩ := houtcome
  rintro (⟨contact, row, hok, -⟩ | ⟨e, -, hcontacts, -⟩)
  · rw [hok] at hthrown
    cases hthrown
  · rw [hcontacts, hbefore] at hafter
    cases hafter

end

end TorE2EE.Client
