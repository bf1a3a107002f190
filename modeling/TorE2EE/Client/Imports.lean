import TorE2EE.Client.SymbolicRun

/-!
# Imports of contact URIs

What `importContact` does to the database, step by step (`run_importContact`): the URI is parsed, the
contact is saved, and then the session is initiated.

`saveContact` overwrites the columns of a contact that is there, its list of devices and its alias
among them. `reimport_keeps_iff` says which contacts keep what was learned about them when their URI
is imported again.
-/

set_option autoImplicit false

namespace TorE2EE.Client

open TorE2EE.Foundation TorE2EE.Crypto

variable {B S : Type} [DecidableEq S]

/-! ## The run -/

/-- The engine call at the end of `importContact`. -/
def initiateImported (P : Primitives B S) (U : UntypedCalls B S) (identityPubkeyHex : S)
    (payload : ContactExportPayload S) : EngineM B S Unit :=
  match readBundle P payload with
  | some bundle => initiateSession P identityPubkeyHex bundle >>= fun _ => pure ()
  | none => U.initiateSession identityPubkeyHex payload

variable {P : Primitives B S} {L : ClientLibrary B S} {U : UntypedCalls B S} {E : Entropy B}
  {N : Network}

theorem importedContact_ok {parsed : ParsedContact S} {customAlias : Option S} {createdAt : Nat}
    {contact : ContactRecord S}
    (h : importedContact P L parsed customAlias createdAt = .ok contact) :
    parsed.payload.identityKeyHex = .string contact.identityPubkeyHex ∧
      contact.recipientPubkeyHash = parsed.recipientPubkeyHash ∧
      contact.signingPubkeyHex = parsed.payload.signingKeyHex ∧ contact.linkedDevices = [] := by
  rw [importedContact] at h
  split at h
  · next key hkey =>
      obtain ⟨contactAlias, -, h⟩ := bind_eq_ok.1 h
      cases h
      exact ⟨hkey, rfl, rfl, rfl⟩
  · cases h

/-- The alias of an imported contact. -/
theorem importedContact_alias {parsed : ParsedContact S} {customAlias : Option S} {createdAt : Nat}
    {contact : ContactRecord S}
    (h : importedContact P L parsed customAlias createdAt = .ok contact) :
    importedAlias P L customAlias parsed.payload.contactAlias = .ok contact.contactAlias := by
  rw [importedContact] at h
  split at h
  · obtain ⟨contactAlias, halias, h⟩ := bind_eq_ok.1 h
    cases h
    exact halias
  · cases h

/-- The engine call inside `importContact`. -/
theorem engine_initiateImported (contact : ContactRecord S) (payload : ContactExportPayload S)
    (x : ClientState B S) :
    ClientM.run P E N (match readBundle P payload with
      | some bundle => do
          let _ ← engine (initiateSession P contact.identityPubkeyHex bundle)
          pure contact
      | none => do
          engine (U.initiateSession contact.identityPubkeyHex payload)
          pure contact) x =
      ((((initiateImported P U contact.identityPubkeyHex payload).run P E x.host).1.map
          fun _ => contact).mapError .engine,
        { x with
          host := ((initiateImported P U contact.identityPubkeyHex payload).run P E x.host).2 }) := by
  rw [initiateImported]
  cases readBundle P payload with
  | some bundle =>
      have hrun := run_engine P E N (initiateSession P contact.identityPubkeyHex bundle) x
      refine (Program.run_bind_pure _ _ (fun _ => contact) x).trans ?_
      rw [ClientM.run] at hrun
      rw [hrun]
      have hpure := Program.run_bind_pure (EngineOp.handle P E)
        (initiateSession P contact.identityPubkeyHex bundle) (fun _ => ()) x.host
      dsimp only [EngineM.run]
      rw [hpure]
      cases (Program.run (EngineOp.handle P E) (initiateSession P contact.identityPubkeyHex bundle)
        x.host).1 <;> rfl
  | none =>
      have hrun := run_engine P E N (U.initiateSession contact.identityPubkeyHex payload) x
      refine (Program.run_bind_pure _ _ (fun _ => contact) x).trans ?_
      rw [ClientM.run] at hrun
      rw [hrun]
      cases (EngineM.run P E (U.initiateSession contact.identityPubkeyHex payload) x.host).1 <;> rfl

/-- `importContact`, step by step. What is thrown before the contact is saved leaves the tables as
they were. -/
theorem run_importContact (uriString : S) (customAlias : Option S) (x : ClientState B S) :
    (importContact P L U uriString customAlias).run P E N x =
      match parseContactUri P L uriString with
      | .error e => (.error e, x)
      | .ok parsed =>
          match importedContact P L parsed customAlias (E.now x.host.draws) with
          | .error e => (.error e, x.drawn)
          | .ok contact =>
              let r := (initiateImported P U contact.identityPubkeyHex parsed.payload).run P E
                x.drawn.host
              ((r.1.map fun _ => contact).mapError .engine,
                { x.saveContact P contact with host := r.2 }) := by
  rw [importContact]
  cases hparsed : parseContactUri P L uriString with
  | error e => rfl
  | ok parsed =>
      simp only [ClientM.run, Program.run_ofExcept_ok_bind]
      refine (Program.run_bind_of_ok _ (run_dateNow x) _).trans ?_
      cases hcontact : importedContact P L parsed customAlias (E.now x.host.draws) with
      | error e => rfl
      | ok contact =>
          rw [Program.run_ofExcept_ok_bind, ask, Program.run_perform_bind]
          exact engine_initiateImported contact parsed.payload (x.drawn.saveContact P contact)

/-! ## Importing a contact again -/

section

variable (P)

/-- The caller or the URI names an alias. -/
def NamesAlias (customAlias : Option S) (payload : ContactExportPayload S) : Prop :=
  Json.truthy (P.lit "") (customAlias.map .string) ∨ Json.truthy (P.lit "") payload.contactAlias

instance decidableNamesAlias (customAlias : Option S) (payload : ContactExportPayload S) :
    Decidable (NamesAlias P customAlias payload) :=
  inferInstanceAs (Decidable (_ ∨ _))

/-- The devices of a contact besides the primary one. -/
def secondaryDevices (c : ContactRecord S) : List (DeviceRecord S) :=
  c.linkedDevices.filter fun d => d.deviceId ≠ 1

/-- What was learned about the contact under the hash is as it was, and so are all other contacts. -/
structure KeepsLearned (named : Prop) (hash : S) (c : ContactRecord S) (x y : ClientState B S) :
    Prop where
  contact : ∃ c', y.getContactByHash P hash = some c' ∧
    secondaryDevices c' = secondaryDevices c ∧ c'.createdAt = c.createdAt ∧
      (¬ named → c'.contactAlias = c.contactAlias)
  others : ∀ row : ContactRow S, row.recipient_pubkey_hash ≠ P.toLowerCase hash →
    (row ∈ y.contacts ↔ row ∈ x.contacts)

end

omit [DecidableEq S] in
theorem secondaryDevices_eq_nil_iff {c : ContactRecord S} :
    secondaryDevices c = [] ↔ ∀ d ∈ c.linkedDevices, d.deviceId = 1 := by
  simp [secondaryDevices, List.filter_eq_nil_iff]

/-- Without an alias from the caller or the URI the stored alias is `null`. -/
theorem importedAlias_of_unnamed {customAlias contactAlias : Option S}
    {payload : ContactExportPayload S} (hunnamed : ¬ NamesAlias P customAlias payload)
    (h : importedAlias P L customAlias payload.contactAlias = .ok contactAlias) :
    contactAlias = none := by
  obtain ⟨hcustom, hpayload⟩ := not_or.1 hunnamed
  rw [importedAlias, if_neg hcustom, if_neg hpayload] at h
  cases h
  rfl

/-- The other rows are as they were after a contact is saved. -/
theorem mem_saveContact_iff {x : ClientState B S} {contact : ContactRecord S} {row : ContactRow S}
    (hne : row.recipient_pubkey_hash ≠ P.toLowerCase contact.recipientPubkeyHash) :
    row ∈ (x.saveContact P contact).contacts ↔ row ∈ x.contacts := by
  constructor
  · intro hrow
    rcases mem_upsertBy hrow with rfl | ⟨hmem, -⟩ | ⟨old, -, -, rfl⟩
    · exact absurd rfl hne
    · exact hmem
    · exact absurd rfl hne
  · intro hrow
    exact mem_upsertBy_of_ne hrow hne

/-- The contact that is read after one has been saved over it: its creation time is the old one. -/
theorem getContactByHash_saveContact {x : ClientState B S} {contact : ContactRecord S}
    {row : ContactRow S}
    (hrow : (x.contacts.find? fun r =>
      r.recipient_pubkey_hash = P.toLowerCase contact.recipientPubkeyHash) = some row) :
    (x.saveContact P contact).getContactByHash P contact.recipientPubkeyHash =
      some (mapRowToContact P (replaceContact (contactRow P contact) row)) := by
  have hfind : ((x.saveContact P contact).contacts.find? fun r =>
      r.recipient_pubkey_hash = (contactRow P contact).recipient_pubkey_hash) =
        some (((x.contacts.find? fun r =>
          r.recipient_pubkey_hash = (contactRow P contact).recipient_pubkey_hash).map
            (replaceContact (contactRow P contact))).getD (contactRow P contact)) :=
    find?_upsertBy fun _ _ => rfl
  have hkey : (x.contacts.find? fun r =>
      r.recipient_pubkey_hash = (contactRow P contact).recipient_pubkey_hash) = some row := hrow
  rw [hkey] at hfind
  exact Option.map_eq_some_iff.2 ⟨_, hfind, rfl⟩

/-- A successful import of a contact that is there keeps its devices besides the primary one, its
creation time, its alias when none is named, and all other contacts, if and only if the contact has
no other device and, when no alias is named, none is stored. -/
theorem reimport_keeps_iff {x y : ClientState B S} {uriString : S} {customAlias : Option S}
    {parsed : ParsedContact S} {contact c : ContactRecord S}
    (hrun : (importContact P L U uriString customAlias).run P E N x = (.ok contact, y))
    (hparsed : parseContactUri P L uriString = .ok parsed)
    (hc : x.getContactByHash P parsed.recipientPubkeyHash = some c) :
    KeepsLearned P (NamesAlias P customAlias parsed.payload) parsed.recipientPubkeyHash c x y ↔
      (∀ d ∈ c.linkedDevices, d.deviceId = 1) ∧
        (NamesAlias P customAlias parsed.payload ∨ c.contactAlias = none) := by
  rw [run_importContact, hparsed] at hrun
  dsimp only at hrun
  cases hcontact : importedContact P L parsed customAlias (E.now x.host.draws) with
  | error e =>
      rw [hcontact] at hrun
      cases hrun
  | ok saved =>
      rw [hcontact] at hrun
      obtain ⟨-, hhash, -, hdevices⟩ := importedContact_ok hcontact
      have hcontacts : y.contacts = (x.saveContact P saved).contacts :=
        (congrArg (fun r => r.2.contacts) hrun).symm
      obtain ⟨row, hrow, rfl⟩ := Option.map_eq_some_iff.1 hc
      rw [← hhash] at hrow
      -- what is read afterwards: the row of the import with the old creation time
      have hread : y.getContactByHash P parsed.recipientPubkeyHash =
          some (mapRowToContact P (replaceContact (contactRow P saved) row)) := by
        rw [← hhash, ← getContactByHash_saveContact hrow]
        simp only [ClientState.getContactByHash, hcontacts]
      have hnone : secondaryDevices (mapRowToContact P (replaceContact (contactRow P saved) row)) =
          [] := by
        rw [secondaryDevices_eq_nil_iff]
        intro d hd
        simp only [mapRowToContact, replaceContact, contactRow, hdevices, List.mem_singleton] at hd
        rw [hd]
      have hothers : ∀ other : ContactRow S,
          other.recipient_pubkey_hash ≠ P.toLowerCase parsed.recipientPubkeyHash →
            (other ∈ y.contacts ↔ other ∈ x.contacts) := by
        intro other hne
        rw [hcontacts]
        exact mem_saveContact_iff (hhash ▸ hne)
      have halias := importedContact_alias hcontact
      rw [← secondaryDevices_eq_nil_iff]
      constructor
      · rintro ⟨⟨c', hc', hkept, -, hunnamed⟩, -⟩
        cases hread.symm.trans hc'
        refine ⟨hkept.symm.trans hnone, ?_⟩
        by_cases hnamed : NamesAlias P customAlias parsed.payload
        · exact Or.inl hnamed
        · right
          rw [← hunnamed hnamed]
          exact importedAlias_of_unnamed hnamed halias
      · rintro ⟨hsecondary, hstored⟩
        refine ⟨⟨_, hread, hnone.trans hsecondary.symm, rfl, ?_⟩, hothers⟩
        intro hunnamed
        rw [hstored.resolve_left hunnamed]
        exact importedAlias_of_unnamed hunnamed halias

/-! ## Carol, imported twice -/

section

open TorE2EE.Crypto.Sym

/-- The URI of `carol`, without an alias. -/
def carolUri : Sym :=
  contactUri (hex (pub (signingSecret 3))) (hex (pub (name 3))) (hex (pub (name 9)))
    (hex (signature (pub (name 9)) (signingSecret 3)))

/-- Her tablet. -/
def carolTablet : DeviceRecord Sym :=
  { deviceId := 2
    recipientPubkeyHash := text "tablet"
    identityPubkeyHex := text "key"
    deviceName := none
    createdAt := 1 }

/-- `bob` with `carol` as a contact. -/
def importedCarol : ClientState Sym Sym :=
  ClientStep.apply symbolicClient symbolicLibrary symbolicUntyped symbolicEntropy symbolicNetwork
    symbolicBob (.importContact carolUri none)

/-- `bob` with `carol` and her tablet. -/
def importedTablet : ClientState Sym Sym :=
  ClientStep.apply symbolicClient symbolicLibrary symbolicUntyped symbolicEntropy symbolicNetwork
    importedCarol
    (.addLinkedDevice (hex (hkdf (pub (signingSecret 3)) nil (text "sha256") 32)) carolTablet)

/-- What `parseContactUri` returns for her URI. -/
def carolParsed : ParsedContact Sym :=
  { payload :=
      { signingKeyHex := hex (pub (signingSecret 3))
        identityKeyHex := .string (hex (pub (name 3)))
        signedPreKey :=
          { keyId := some (.number 1)
            publicKeyHex := hex (pub (name 9))
            signatureHex := hex (signature (pub (name 9)) (signingSecret 3)) }
        oneTimePreKey := none
        contactAlias := none }
    recipientPubkeyHash := hex (hkdf (pub (signingSecret 3)) nil (text "sha256") 32) }

theorem parseContactUri_carol :
    parseContactUri symbolicClient symbolicLibrary carolUri = .ok carolParsed := rfl

/-- An import that a computation finds to succeed. -/
theorem run_reimport (x : ClientState Sym Sym) (customAlias : Option Sym)
    (hok : ((importContact symbolicClient symbolicLibrary symbolicUntyped carolUri customAlias).run
      symbolicClient symbolicEntropy symbolicNetwork x).1.toOption.isSome = true) :
    ∃ contact y, (importContact symbolicClient symbolicLibrary symbolicUntyped carolUri
      customAlias).run symbolicClient symbolicEntropy symbolicNetwork x = (.ok contact, y) := by
  rcases hrun : (importContact symbolicClient symbolicLibrary symbolicUntyped carolUri
    customAlias).run symbolicClient symbolicEntropy symbolicNetwork x with ⟨r, y⟩
  rw [hrun] at hok
  cases r with
  | error e => cases hok
  | ok contact => exact ⟨contact, y, rfl⟩

/-- `bob` with `carol` under the alias that he has given her. -/
def namedCarol : ClientState Sym Sym :=
  ClientStep.apply symbolicClient symbolicLibrary symbolicUntyped symbolicEntropy symbolicNetwork
    importedCarol (.statement (.updateAlias carolParsed.recipientPubkeyHash (some (text "Carol"))))

/-- A contact without other devices keeps what was learned when it is imported again and its alias is
named once more, and not without. -/
theorem reimport_keeps_symbolic :
    (∃ c y, c.contactAlias = some (text "Carol") ∧
      KeepsLearned symbolicClient (NamesAlias symbolicClient (some (text "Carol"))
        carolParsed.payload) carolParsed.recipientPubkeyHash c namedCarol y) ∧
      ∃ c y, c.contactAlias = some (text "Carol") ∧
        ¬ KeepsLearned symbolicClient (NamesAlias symbolicClient none carolParsed.payload)
          carolParsed.recipientPubkeyHash c namedCarol y := by
  obtain ⟨contact, y, hrun⟩ := run_reimport namedCarol (some (text "Carol"))
    (by decide +kernel)
  obtain ⟨contact', y', hrun'⟩ := run_reimport namedCarol none (by decide +kernel)
  obtain ⟨c, hc, hdevices, halias⟩ : ∃ c, namedCarol.getContactByHash symbolicClient
      carolParsed.recipientPubkeyHash = some c ∧ c.linkedDevices.map DeviceRecord.deviceId = [1] ∧
        c.contactAlias = some (text "Carol") :=
    ⟨_, rfl, rfl, rfl⟩
  have hprimary : ∀ d ∈ c.linkedDevices, d.deviceId = 1 := by
    intro d hd
    have hid := List.mem_map_of_mem (f := DeviceRecord.deviceId) hd
    rwa [hdevices, List.mem_singleton] at hid
  refine ⟨⟨c, y, halias, ?_⟩, c, y', halias, ?_⟩
  · exact (reimport_keeps_iff hrun parseContactUri_carol hc).2 ⟨hprimary, Or.inl (by decide)⟩
  · intro hkeeps
    have hstored := ((reimport_keeps_iff hrun' parseContactUri_carol hc).1 hkeeps).2
    rw [halias] at hstored
    exact absurd hstored (by decide)

/-- The tablet is forgotten by a second import. -/
theorem reimport_forgets_tablet :
    ¬ ∀ (x y : ClientState Sym Sym) (uriString : Sym) (customAlias : Option Sym)
      (parsed : ParsedContact Sym) (contact c : ContactRecord Sym),
      (importContact symbolicClient symbolicLibrary symbolicUntyped uriString customAlias).run
        symbolicClient symbolicEntropy symbolicNetwork x = (.ok contact, y) →
      parseContactUri symbolicClient symbolicLibrary uriString = .ok parsed →
      x.getContactByHash symbolicClient parsed.recipientPubkeyHash = some c →
      KeepsLearned symbolicClient (NamesAlias symbolicClient customAlias parsed.payload)
        parsed.recipientPubkeyHash c x y := by
  intro hkeeps
  obtain ⟨contact, y, hrun⟩ := run_reimport importedTablet none (by decide +kernel)
  obtain ⟨c, hc, hdevices⟩ : ∃ c, importedTablet.getContactByHash symbolicClient
      carolParsed.recipientPubkeyHash = some c ∧ secondaryDevices c = [carolTablet] :=
    ⟨_, rfl, rfl⟩
  have hafter : (((importContact symbolicClient symbolicLibrary symbolicUntyped carolUri none).run
      symbolicClient symbolicEntropy symbolicNetwork importedTablet).2.getContactByHash
        symbolicClient carolParsed.recipientPubkeyHash).map secondaryDevices = some [] := by
    decide +kernel
  obtain ⟨c', hc', hkept, -⟩ := (hkeeps _ y _ _ _ contact c hrun parseContactUri_carol hc).contact
  rw [hrun, hc', Option.map_some, hkept, hdevices] at hafter
  cases hafter

end

end TorE2EE.Client
