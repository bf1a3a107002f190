import TorE2EE.Client.LinkedDevices
import TorE2EE.Client.DeviceLists

/-!
# One contact for one identity key

The table of contacts is keyed by the mailbox hash, and senders are looked up by the identity key. A
placeholder made for an unknown sender or an unknown conversation has one text as both, while an
imported contact has the hash of its signing key, so a key can get two rows.

`one_contact_run`: in every run in which no import and no self-sync adds a second row for a key
(`KeepsOneContact`), no two contacts have one identity key, and an import of a sender's URI leaves its
messages in the conversation they were in. `distinctKeys_step_iff` has this condition for one call, in
both directions.
-/

set_option autoImplicit false

namespace TorE2EE.Client

open TorE2EE.Foundation TorE2EE.Crypto

variable {B S : Type} [DecidableEq S]

/-- No two contacts have one mailbox hash. -/
def DistinctHashes (x : ClientState B S) : Prop :=
  (x.contacts.map ContactRow.recipient_pubkey_hash).Nodup

/-- No two contacts have one identity key. -/
def DistinctKeys (x : ClientState B S) : Prop :=
  (x.contacts.map ContactRow.identity_pubkey_hex).Nodup

section

variable (P : Primitives B S) (L : ClientLibrary B S) (U : UntypedCalls B S) (E : Entropy B)

/-- No contact with another hash has the identity key of the contact. -/
def FreeKey (x : ClientState B S) (contact : ContactRecord S) : Prop :=
  ∀ r ∈ x.contacts, r.identity_pubkey_hex = P.toLowerCase contact.identityPubkeyHex →
    r.recipient_pubkey_hash = P.toLowerCase contact.recipientPubkeyHash

/-- The conversation a self-sync names. -/
def syncTarget (plaintext : S) : Option S :=
  (syncPayload P L plaintext).bind
    fun parsedSync => Json.string? (property P "originalRecipientHash" parsedSync)

/-- The call adds no second row for an identity key. An import that saves a contact finds the key
under no other hash. A self-sync for an unknown conversation names a text that is no stored identity
key, but for a row that the placeholder of an unknown sender replaces. -/
def KeepsOneContact (x : ClientState B S) : ClientStep S → Prop
  | .importContact uriString customAlias =>
      ∀ parsed contact, parseContactUri P L uriString = .ok parsed →
        importedContact P L parsed customAlias (E.now x.host.draws) = .ok contact →
        FreeKey P x contact
  | .handleIncomingMessage payload =>
      ∀ sender found plaintext h target, Opens P L U E x payload sender found plaintext h →
        syncTarget P L plaintext = some target → x.getContactByHash P target = none →
        ∀ r ∈ x.contacts, r.identity_pubkey_hex = P.toLowerCase target →
          found = none ∧ r.recipient_pubkey_hash = sender
  | _ => True

end

variable {P : Primitives B S} {L : ClientLibrary B S} {U : UntypedCalls B S} {E : Entropy B}
  {N : Network}

/-! ## Saving contacts -/

theorem distinctHashes_saveContact {x : ClientState B S} (hx : DistinctHashes x)
    (contact : ContactRecord S) : DistinctHashes (x.saveContact P contact) :=
  nodup_upsertBy (fun _ _ => rfl) hx

/-- A contact that is saved keeps the keys distinct when its key is free. -/
theorem distinctKeys_saveContact_iff {x : ClientState B S} (hhashes : DistinctHashes x)
    (hkeys : DistinctKeys x) (contact : ContactRecord S) :
    DistinctKeys (x.saveContact P contact) ↔ FreeKey P x contact :=
  nodup_column_upsertBy_iff hhashes hkeys fun _ _ => rfl

theorem distinctHashes_kept : ClientState.Kept P E N (DistinctHashes (B := B) (S := S)) where
  operation o x hx := by
    cases o with
    | saveContact contact => exact distinctHashes_saveContact hx contact
    | saveMessage message =>
        show DistinctHashes (x.saveMessage P message).2
        rw [DistinctHashes, contacts_saveMessage]
        exact hx
    | _ => exact hx
  device device x hx := hx
  statement s x hx := by
    cases s with
    | updateAlias hash contactAlias =>
        rw [DistinctHashes, TableStatement.execute]
        rw [List.map_map]
        -- the column of the hashes is left as it is
        have hsame : (ContactRow.recipient_pubkey_hash ∘ fun row : ContactRow S =>
            if row.recipient_pubkey_hash = P.toLowerCase hash then { row with contactAlias }
            else row) = ContactRow.recipient_pubkey_hash := by
          funext row
          rw [Function.comp_apply]
          split <;> rfl
        rw [hsame]
        exact hx
    | deleteContact hash =>
        simp only [TableStatement.execute]
        split
        · exact hx
        · exact hx.sublist (List.filter_sublist.map _)
    | _ => exact hx

/-- What a statement does to the identity keys: some rows go, and none changes its key. -/
theorem distinctKeys_statement {x : ClientState B S} (hx : DistinctKeys x) (s : TableStatement S) :
    DistinctKeys (s.execute P x) := by
  cases s with
  | updateAlias hash contactAlias =>
      rw [DistinctKeys, TableStatement.execute]
      rw [List.map_map]
      have hsame : (ContactRow.identity_pubkey_hex ∘ fun row : ContactRow S =>
          if row.recipient_pubkey_hash = P.toLowerCase hash then { row with contactAlias }
          else row) = ContactRow.identity_pubkey_hex := by
        funext row
        rw [Function.comp_apply]
        split <;> rfl
      rw [hsame]
      exact hx
  | deleteContact hash =>
      simp only [TableStatement.execute]
      split
      · exact hx
      · exact hx.sublist (List.filter_sublist.map _)
  | _ => exact hx

/-! ## Calls that save no contact -/

/-- The method leaves the contacts as they are. -/
abbrev KeepsContacts {α : Type} (P : Primitives B S) (E : Entropy B) (N : Network)
    (contacts : List (ContactRow S)) (c : ClientM B S α) : Prop :=
  Program.Ensures (ClientOp.handle P E N) (fun x => x.contacts = contacts) c fun _ => True

theorem keepsContacts_ask (contacts : List (ContactRow S)) {o : ClientOp B S}
    (ho : ∀ contact, o ≠ .saveContact contact) : KeepsContacts P E N contacts (ask o) := by
  apply Program.ensures_perform
  · intro x hx
    cases o with
    | saveContact contact => exact absurd rfl (ho contact)
    | saveMessage message => exact (contacts_saveMessage x message).trans hx
    | _ => exact hx
  · exact fun _ _ => True.intro

theorem keepsContacts_ofExcept {α : Type} (contacts : List (ContactRow S))
    (r : Except (ClientError S) α) : KeepsContacts P E N contacts (Program.ofExcept r) :=
  Program.ensures_ofExcept fun _ _ => True.intro

theorem keepsContacts_engine {α : Type} (contacts : List (ContactRow S)) (c : EngineM B S α) :
    KeepsContacts P E N contacts (engine c) := by
  intro x hx
  refine ⟨?_, fun _ _ => True.intro⟩
  have hrun := run_engine P E N c x
  rw [ClientM.run] at hrun
  rw [hrun]
  exact hx

theorem keepsContacts_dispatchAll (contacts : List (ContactRow S)) (plaintext : S)
    (devices : List (S × S)) : KeepsContacts P E N contacts (dispatchAll P L plaintext devices) := by
  induction devices with
  | nil => exact Program.ensures_pure True.intro
  | cons device devices ih =>
      have hdispatch : KeepsContacts P E N contacts (dispatch P L plaintext device) := by
        apply Program.ensures_bind (keepsContacts_engine contacts _)
        intro encryptedMsg _
        apply Program.ensures_bind (keepsContacts_ask contacts fun _ h => by cases h)
        intro answer _
        cases answer with
        | none => exact Program.ensures_throw _
        | some deliveredLive => exact Program.ensures_pure True.intro
      apply Program.ensures_bind (Program.ensures_catchError hdispatch)
      intro outcome _
      apply Program.ensures_bind ih
      intro deliveredLater _
      cases outcome with
      | ok deliveredLive => exact Program.ensures_pure True.intro
      | error e => exact Program.ensures_pure True.intro

theorem keepsContacts_storeMessage (contacts : List (ContactRow S)) (message : StoredMessage S) :
    KeepsContacts P E N contacts (storeMessage message) := by
  apply Program.ensures_bind (keepsContacts_ask contacts fun _ h => by cases h)
  intro saved _
  exact keepsContacts_ofExcept contacts saved

theorem keepsContacts_sendOutboundMessage (contacts : List (ContactRow S)) (hash plaintext : S) :
    KeepsContacts P E N contacts (sendOutboundMessage P L hash plaintext) := by
  have hask {o : ClientOp B S} (ho : ∀ contact, o ≠ .saveContact contact) :
      KeepsContacts P E N contacts (ask o) := keepsContacts_ask contacts ho
  apply Program.ensures_bind (hask fun _ h => by cases h)
  intro found _
  cases found with
  | none => exact Program.ensures_throw _
  | some contact =>
      apply Program.ensures_bind (hask fun _ h => by cases h)
      intro messageIdBytes _
      apply Program.ensures_bind (hask fun _ h => by cases h)
      intro now _
      apply Program.ensures_bind (keepsContacts_dispatchAll contacts plaintext _)
      intro deliveredAtLeastOnce _
      apply Program.ensures_bind (hask fun _ h => by cases h)
      intro ownDevices _
      apply Program.ensures_bind (keepsContacts_dispatchAll contacts _ _)
      intro _ _
      apply Program.ensures_bind (hask fun _ h => by cases h)
      intro identity _
      apply Program.ensures_bind (keepsContacts_storeMessage contacts _)
      exact fun _ _ => Program.ensures_pure True.intro

theorem keepsContacts_provisionSlaveDevice (contacts : List (ContactRow S)) (qrUri : S)
    (identity : UserIdentity B S) (deviceId : Int) :
    KeepsContacts P E N contacts (provisionSlaveDevice P L qrUri identity deviceId) := by
  have hask {o : ClientOp B S} (ho : ∀ contact, o ≠ .saveContact contact) :
      KeepsContacts P E N contacts (ask o) := keepsContacts_ask contacts ho
  apply Program.ensures_bind (keepsContacts_ofExcept contacts _)
  intro qrPayload _
  apply Program.ensures_bind (hask fun _ h => by cases h)
  intro timestamp _
  apply Program.ensures_bind (hask fun _ h => by cases h)
  intro masterEphemeralSecret _
  apply Program.ensures_bind (keepsContacts_ofExcept contacts _)
  intro slaveEphemeralPk _
  apply Program.ensures_bind (hask fun _ h => by cases h)
  intro nonce _
  apply Program.ensures_bind (keepsContacts_ofExcept contacts _)
  intro encryptedBox _
  apply Program.ensures_bind (hask fun _ h => by cases h)
  intro answer _
  cases answer with
  | none => exact Program.ensures_throw _
  | some deliveredLive =>
      apply Program.ensures_bind (hask fun _ h => by cases h)
      exact fun _ _ => Program.ensures_pure True.intro

theorem keepsContacts_linkOwnDevice (contacts : List (ContactRow S)) (qrUri : S) (deviceId : Int) :
    KeepsContacts P E N contacts (linkOwnDevice P L qrUri deviceId) := by
  apply Program.ensures_bind (keepsContacts_ask contacts fun _ h => by cases h)
  intro identity _
  apply Program.ensures_bind (keepsContacts_provisionSlaveDevice contacts qrUri identity deviceId)
  intro device _
  exact keepsContacts_ask contacts fun _ h => by cases h

/-! ## Receiving -/

/-- The placeholder of an unknown sender has a key that no contact has. -/
theorem distinctKeys_keepSender
    (hlower : ∀ s, P.toLowerCase (P.toLowerCase s) = P.toLowerCase s) {x : ClientState B S}
    (hhashes : DistinctHashes x) (hkeys : DistinctKeys x) {encryptedMsg : Json S} {sender : S}
    {found : Option (ContactRecord S)} (h : findSender P x encryptedMsg = .ok (sender, found))
    (contactAlias : String) : DistinctKeys (keepSender P E x contactAlias sender found).2 := by
  cases found with
  | some c => exact hkeys
  | none =>
      obtain ⟨hsender, hunknown⟩ := findSender_none hlower h
      apply (distinctKeys_saveContact_iff (x := x.drawn) hhashes hkeys _).2
      intro r hr hkey
      exact absurd (hkey.trans hsender) (hunknown r hr)

/-- What `openEnvelope` does to the contacts: it keeps the sender, when there is one. -/
theorem contacts_openEnvelope (x : ClientState B S) (contactAlias : String)
    (unresolved : ClientError S) (payload : IncomingMessagePayload S) :
    ((openEnvelope P L U contactAlias unresolved payload).run P E N x).2.contacts = x.contacts ∨
      ∃ encryptedMsg sender found, findSender P x encryptedMsg = .ok (sender, found) ∧
        ((openEnvelope P L U contactAlias unresolved payload).run P E N x).2.contacts =
          (keepSender P E x contactAlias sender found).2.contacts := by
  rw [run_openEnvelope]
  cases L.parseJson payload.encrypted_payload with
  | none => exact Or.inl rfl
  | some encryptedMsg =>
      dsimp only
      cases hfind : findSender P x encryptedMsg with
      | error e => exact Or.inl rfl
      | ok r =>
          obtain ⟨sender, found⟩ := r
          refine Or.inr ⟨encryptedMsg, sender, found, hfind, ?_⟩
          dsimp only
          split
          · rfl
          · split
            · rfl
            · rfl

theorem distinctKeys_openEnvelope
    (hlower : ∀ s, P.toLowerCase (P.toLowerCase s) = P.toLowerCase s) {x : ClientState B S}
    (hhashes : DistinctHashes x) (hkeys : DistinctKeys x) (contactAlias : String)
    (unresolved : ClientError S) (payload : IncomingMessagePayload S) :
    DistinctKeys ((openEnvelope P L U contactAlias unresolved payload).run P E N x).2 := by
  rcases contacts_openEnvelope (P := P) (L := L) (U := U) (E := E) (N := N) x contactAlias unresolved
    payload with hsame | ⟨encryptedMsg, sender, found, hfind, hkept⟩
  · rw [DistinctKeys, hsame]
    exact hkeys
  · rw [DistinctKeys, hkept]
    exact distinctKeys_keepSender hlower hhashes hkeys hfind contactAlias

/-- The inner `try` block keeps the keys distinct when an unknown conversation is no identity key. -/
theorem distinctKeys_syncState_iff {y : ClientState B S} (hhashes : DistinctHashes y)
    (hkeys : DistinctKeys y) (plaintext : S) :
    DistinctKeys (syncState P L E plaintext y) ↔
      ∀ target, syncTarget P L plaintext = some target → y.getContactByHash P target = none →
        ∀ r ∈ y.contacts, r.identity_pubkey_hex ≠ P.toLowerCase target := by
  rw [syncState, syncTarget]
  cases (syncPayload P L plaintext).bind
    fun parsedSync => Json.string? (property P "originalRecipientHash" parsedSync) with
  | none => exact iff_of_true hkeys fun target h => by cases h
  | some target =>
      dsimp only
      cases hcontact : y.getContactByHash P target with
      | some c =>
          -- the conversation has a contact: none is saved
          refine iff_of_true hkeys ?_
          intro target' h hnone
          cases h
          rw [hcontact] at hnone
          cases hnone
      | none =>
          -- a placeholder is saved under the hash of the sync payload, and with it as its key
          have hunknown : ∀ r ∈ y.contacts, r.recipient_pubkey_hash ≠ P.toLowerCase target := by
            simpa [ClientState.getContactByHash] using hcontact
          refine (distinctKeys_saveContact_iff (x := y.drawn) hhashes hkeys _).trans ?_
          constructor
          · intro hfree target' h _ r hr hkey
            cases h
            exact hunknown r hr (hfree r hr hkey)
          · intro h r hr hkey
            exact absurd hkey (h target rfl hcontact r hr)

/-- The condition after the sender has been kept, and before. -/
theorem free_keepSender_iff (hlower : ∀ s, P.toLowerCase (P.toLowerCase s) = P.toLowerCase s)
    {x : ClientState B S} {encryptedMsg : Json S} {sender : S} {found : Option (ContactRecord S)}
    (hfind : findSender P x encryptedMsg = .ok (sender, found)) (contactAlias : String)
    (target : S) :
    ((keepSender P E x contactAlias sender found).2.getContactByHash P target = none →
        ∀ r ∈ (keepSender P E x contactAlias sender found).2.contacts,
          r.identity_pubkey_hex ≠ P.toLowerCase target) ↔
      (x.getContactByHash P target = none →
        ∀ r ∈ x.contacts, r.identity_pubkey_hex = P.toLowerCase target →
          found = none ∧ r.recipient_pubkey_hash = sender) := by
  have hnone (y : ClientState B S) : y.getContactByHash P target = none ↔
      ∀ r ∈ y.contacts, r.recipient_pubkey_hash ≠ P.toLowerCase target := by
    simp [ClientState.getContactByHash]
  rw [hnone, hnone]
  cases found with
  | some c => simp [keepSender]
  | none =>
      obtain ⟨hsender, hunknown⟩ := findSender_none hlower hfind
      generalize hrow : contactRow P (newPlaceholder P E x sender contactAlias) = new
      have hnewHash : new.recipient_pubkey_hash = sender := by
        rw [← hrow]
        exact hsender
      have hnewKey : new.identity_pubkey_hex = sender := by
        rw [← hrow]
        exact hsender
      have hcontacts : (keepSender P E x contactAlias sender none).2.contacts =
          upsertBy ContactRow.recipient_pubkey_hash (replaceContact new) new x.contacts := by
        rw [← hrow]
        rfl
      rw [hcontacts]
      constructor
      · intro h hfree r hr hkey
        refine ⟨rfl, ?_⟩
        by_contra hother
        -- the row is still there, and its key is not the sender's
        have hne : P.toLowerCase target ≠ sender := fun heq => hunknown r hr (hkey.trans heq)
        refine h ?_ r (mem_upsertBy_of_ne hr (hnewHash.symm ▸ hother)) hkey
        apply forall_upsertBy hfree
        · exact hnewHash.trans_ne hne.symm
        · exact fun _ _ _ => hnewHash.trans_ne hne.symm
      · intro h hfree r hr hkey
        have hne : sender ≠ P.toLowerCase target := by
          obtain ⟨r', hr', hhash⟩ : ∃ r' ∈ upsertBy ContactRow.recipient_pubkey_hash
              (replaceContact new) new x.contacts,
              r'.recipient_pubkey_hash = new.recipient_pubkey_hash :=
            exists_mem_upsertBy fun _ _ => rfl
          exact fun heq => hfree r' hr' (hhash.trans (hnewHash.trans heq))
        rcases mem_upsertBy hr with rfl | ⟨hold, hother⟩ | ⟨old, -, -, rfl⟩
        · exact hne (hnewKey.symm.trans hkey)
        · refine hother (((h ?_ r hold hkey).2).trans hnewHash.symm)
          intro r' hr' hhash
          exact hfree r' (mem_upsertBy_of_ne hr' fun heq =>
            hne (hnewHash.symm.trans (heq.symm.trans hhash))) hhash
        · exact hne (hnewKey.symm.trans hkey)

theorem contacts_storeBound (x : ClientState B S)
    (bound : Except (ClientError S) (StoredMessage S)) :
    (storeBound P x bound).2.contacts = x.contacts := by
  cases bound with
  | error e => rfl
  | ok message => exact contacts_saveMessage x message

/-- An envelope that opens leaves the contacts of the inner `try` block. -/
theorem Opens.contacts_handleIncomingMessage {x : ClientState B S}
    {payload : IncomingMessagePayload S} {sender plaintext : S} {found : Option (ContactRecord S)}
    {h : Host B S} (hopens : Opens P L U E x payload sender found plaintext h) :
    ((handleIncomingMessage P L U payload).run P E N x).2.contacts =
      (syncState P L E plaintext
        (openedState P E x "Unknown Contact" sender found h).drawn).contacts := by
  rw [run_handleIncomingMessage, hopens.run_receiveMessage]
  dsimp only
  rw [contacts_storeBound, contacts_timed]

/-! ## One call -/

/-- An import keeps the identity keys distinct if and only if its contact adds no second row. -/
theorem distinctKeys_importContact_iff {x : ClientState B S} (hhashes : DistinctHashes x)
    (hkeys : DistinctKeys x) (uriString : S) (customAlias : Option S) :
    DistinctKeys ((importContact P L U uriString customAlias).run P E N x).2 ↔
      KeepsOneContact P L U E x (.importContact uriString customAlias) := by
  simp only [KeepsOneContact, run_importContact]
  cases hparsed : parseContactUri P L uriString with
  | error e => exact iff_of_true hkeys fun parsed contact h => by cases h
  | ok parsed =>
      dsimp only
      cases hcontact : importedContact P L parsed customAlias (E.now x.host.draws) with
      | error e =>
          refine iff_of_true hkeys ?_
          intro parsed' contact h hsaved
          cases h
          rw [hcontact] at hsaved
          cases hsaved
      | ok contact =>
          refine (distinctKeys_saveContact_iff hhashes hkeys contact).trans ?_
          constructor
          · intro hfree parsed' contact' h hsaved
            cases h
            cases hcontact.symm.trans hsaved
            exact hfree
          · intro h
            exact h parsed contact rfl hcontact

/-- A message that opens does so if and only if the target of its sync text adds none. -/
theorem Opens.distinctKeys_handleIncomingMessage_iff
    (hlower : ∀ s, P.toLowerCase (P.toLowerCase s) = P.toLowerCase s) {x : ClientState B S}
    (hhashes : DistinctHashes x) (hkeys : DistinctKeys x) {payload : IncomingMessagePayload S}
    {sender plaintext : S} {found : Option (ContactRecord S)} {h : Host B S}
    (hopens : Opens P L U E x payload sender found plaintext h) :
    DistinctKeys ((handleIncomingMessage P L U payload).run P E N x).2 ↔
      KeepsOneContact P L U E x (.handleIncomingMessage payload) := by
  obtain ⟨encryptedMsg, hjson, hfind, hdecrypt⟩ := hopens.decrypted
  let y := keepSender P E x "Unknown Contact" sender found
  have hy : DistinctKeys y.2 :=
    distinctKeys_keepSender hlower hhashes hkeys hfind "Unknown Contact"
  have hyhashes : DistinctHashes y.2 := by
    cases found with
    | some c => exact hhashes
    | none => exact distinctHashes_saveContact (x := x.drawn) hhashes _
  have hblock := distinctKeys_syncState_iff (P := P) (L := L) (E := E)
    (y := (openedState P E x "Unknown Contact" sender found h).drawn) hyhashes hy plaintext
  have hstart : DistinctKeys ((handleIncomingMessage P L U payload).run P E N x).2 ↔
      DistinctKeys (syncState P L E plaintext
        (openedState P E x "Unknown Contact" sender found h).drawn) := by
    simp only [DistinctKeys, hopens.contacts_handleIncomingMessage]
  rw [hstart, hblock]
  constructor
  · intro hfree sender' found' plaintext' h' target hopens' htarget
    obtain ⟨encryptedMsg', hjson', hfind', -⟩ := hopens'.decrypted
    cases hopens.plaintext_eq hopens'
    cases hjson.symm.trans hjson'
    cases hfind.symm.trans hfind'
    exact (free_keepSender_iff hlower hfind "Unknown Contact" target).1 (hfree target htarget)
  · intro hkeeps target htarget
    exact (free_keepSender_iff (E := E) hlower hfind "Unknown Contact" target).2
      (hkeeps sender found plaintext h target hopens htarget)

/-- A message that does not open ends with the row of its sender. -/
theorem distinctKeys_handleIncomingMessage_of_not_opens
    (hlower : ∀ s, P.toLowerCase (P.toLowerCase s) = P.toLowerCase s) {x : ClientState B S}
    (hhashes : DistinctHashes x) (hkeys : DistinctKeys x) {payload : IncomingMessagePayload S}
    (hclosed : ∀ sender found plaintext h, ¬ Opens P L U E x payload sender found plaintext h) :
    DistinctKeys ((handleIncomingMessage P L U payload).run P E N x).2 := by
  have hopen := distinctKeys_openEnvelope (L := L) (U := U) (E := E) (N := N) hlower hhashes
    hkeys "Unknown Contact" .unresolvedSender payload
  rcases hrun : (openEnvelope P L U "Unknown Contact" .unresolvedSender payload).run P E N x
    with ⟨r, y⟩
  rw [hrun] at hopen
  cases r with
  | error e =>
      rw [run_handleIncomingMessage, receiveMessage, ClientM.run,
        Program.run_bind_of_error _ hrun _]
      exact hopen
  | ok r =>
      obtain ⟨found, h, hopens⟩ := opens_of_run (congrArg Prod.fst hrun)
      exact absurd hopens (hclosed _ _ _ _)

/-- A message of the background adds no row but its sender's. -/
theorem distinctKeys_processIncomingEnvelope
    (hlower : ∀ s, P.toLowerCase (P.toLowerCase s) = P.toLowerCase s) {x : ClientState B S}
    (hhashes : DistinctHashes x) (hkeys : DistinctKeys x) (payload : IncomingMessagePayload S) :
    DistinctKeys ((processIncomingEnvelope P L U payload).run P E N x).2 := by
  have hopen := distinctKeys_openEnvelope (L := L) (U := U) (E := E) (N := N) hlower hhashes hkeys
    "Neznámý kontakt" .senderNotResolved payload
  rcases hrun : (openEnvelope P L U "Neznámý kontakt" .senderNotResolved payload).run P E N x
    with ⟨r, y⟩
  rw [hrun] at hopen
  cases r with
  | error e =>
      rw [processIncomingEnvelope, ClientM.run, Program.run_bind_of_error _ hrun _]
      exact hopen
  | ok r =>
      obtain ⟨found, h, hopens⟩ := opens_of_run (congrArg Prod.fst hrun)
      have hopened := hopens.run (N := N) "Neznámý kontakt" .senderNotResolved
      rw [hrun] at hopened
      rw [hopens.run_processIncomingEnvelope, DistinctKeys, contacts_saveMessage, contacts_timed]
      have hstate := congrArg Prod.snd hopened
      dsimp only at hstate
      rw [hstate] at hopen
      exact hopen

/-- A linked device is written into the row of its contact, under that row's own hash and key. -/
theorem distinctKeys_addLinkedDevice {x : ClientState B S} (hlowered : LowerCased P x)
    (hhashes : DistinctHashes x) (hkeys : DistinctKeys x) (hash : S) (device : DeviceRecord S) :
    DistinctKeys ((addLinkedDevice hash device).run P E N x).2 := by
  rw [run_addLinkedDevice]
  cases hcontact : x.getContactByHash P hash with
  | none => exact hkeys
  | some contact =>
      apply (distinctKeys_saveContact_iff hhashes hkeys _).2
      obtain ⟨row, hrow, rfl⟩ := Option.map_eq_some_iff.1 hcontact
      have hmem := List.mem_of_find?_eq_some hrow
      intro r hr hkey
      have hown : r.identity_pubkey_hex = row.identity_pubkey_hex := hkey.trans (hlowered row hmem).2
      rw [List.inj_on_of_nodup_map hkeys hr hmem hown]
      exact (hlowered row hmem).1.symm

/-- A call keeps the identity keys distinct if and only if it adds no second row for one. -/
theorem distinctKeys_step_iff (hlower : ∀ s, P.toLowerCase (P.toLowerCase s) = P.toLowerCase s)
    {x : ClientState B S} (hlowered : LowerCased P x) (hhashes : DistinctHashes x)
    (hkeys : DistinctKeys x) (a : ClientStep S) :
    DistinctKeys (a.apply P L U E N x) ↔ KeepsOneContact P L U E x a := by
  -- a call that leaves the contacts as they are
  have hsame {y : ClientState B S} (hy : y.contacts = x.contacts) : DistinctKeys y := by
    rw [DistinctKeys, hy]
    exact hkeys
  cases a with
  | importContact uriString customAlias =>
      exact distinctKeys_importContact_iff hhashes hkeys uriString customAlias
  | handleIncomingMessage payload =>
      by_cases hopened : ∃ sender found plaintext h, Opens P L U E x payload sender found plaintext h
      · obtain ⟨sender, found, plaintext, h, hopens⟩ := hopened
        exact hopens.distinctKeys_handleIncomingMessage_iff hlower hhashes hkeys
      · have hclosed : ∀ sender found plaintext h,
            ¬ Opens P L U E x payload sender found plaintext h :=
          fun sender found plaintext h hopens => hopened ⟨sender, found, plaintext, h, hopens⟩
        refine iff_of_true ?_ ?_
        · exact distinctKeys_handleIncomingMessage_of_not_opens hlower hhashes hkeys hclosed
        · intro sender found plaintext h target hopens
          exact absurd hopens (hclosed _ _ _ _)
  | processIncomingEnvelope payload =>
      exact iff_of_true (distinctKeys_processIncomingEnvelope hlower hhashes hkeys payload) True.intro
  | addLinkedDevice hash device =>
      exact iff_of_true (distinctKeys_addLinkedDevice hlowered hhashes hkeys hash device) True.intro
  | statement s => exact iff_of_true (distinctKeys_statement hkeys s) True.intro
  | sendOutboundMessage hash plaintext =>
      exact iff_of_true (hsame (keepsContacts_sendOutboundMessage _ hash plaintext x rfl).1) True.intro
  | linkOwnDevice qrUri deviceId =>
      exact iff_of_true (hsame (keepsContacts_linkOwnDevice _ qrUri deviceId x rfl).1) True.intro
  | saveOwnLinkedDevice device => exact iff_of_true hkeys True.intro
  | generatePreKeyBundle count =>
      exact iff_of_true (hsame (keepsContacts_engine _ _ x rfl).1) True.intro

/-! ## Runs -/

/-- A stored contact is the one answer for its identity key. -/
theorem DistinctKeys.getContactByIdentityKey {x : ClientState B S} (hkeys : DistinctKeys x)
    {r : ContactRow S} (hr : r ∈ x.contacts) {key : S}
    (hkey : r.identity_pubkey_hex = P.toLowerCase key) :
    x.getContactByIdentityKey P key = some (mapRowToContact P r) := by
  cases hfound : x.contacts.find? fun row => row.identity_pubkey_hex = P.toLowerCase key with
  | none => exact absurd hkey (by simpa using List.find?_eq_none.1 hfound r hr)
  | some row =>
      have hrow : row.identity_pubkey_hex = P.toLowerCase key := by
        simpa using List.find?_some hfound
      have hsame := List.inj_on_of_nodup_map hkeys (List.mem_of_find?_eq_some hfound) hr
        (hrow.trans hkey.symm)
      rw [ClientState.getContactByIdentityKey, hfound, hsame]
      rfl

/-- A message of the sender is stored in the conversation of the one contact with the sender's key; a
row that was there under the drawn id stays in its conversation. -/
structure ReceivedFrom (P : Primitives B S) (E : Entropy B) (sender plaintext : S) (h : Host B S)
    (x y : ClientState B S) : Prop where
  conversation : ∃ r ∈ y.contacts, r.identity_pubkey_hex = sender ∧
    (∀ old ∈ x.contacts, old.identity_pubkey_hex = sender →
      old.recipient_pubkey_hash = r.recipient_pubkey_hash) ∧
    ∃ row ∈ y.messages, row.id = P.bytesToHex (E.randomBytes h.draws 16) ∧ row.body = plaintext ∧
      ((∀ m ∈ x.messages, m.id ≠ row.id) → row.contact_pubkey_hash = r.recipient_pubkey_hash)

/-- The messages of a sender are received in the conversation of its contact, and stay there when its
URI is imported. -/
structure OneConversation (P : Primitives B S) (L : ClientLibrary B S) (U : UntypedCalls B S)
    (E : Entropy B) (N : Network) (x : ClientState B S) : Prop where
  /-- In the foreground and in the background. -/
  received : ∀ payload sender found plaintext h, Opens P L U E x payload sender found plaintext h →
    syncPayload P L plaintext = none →
    ReceivedFrom P E sender plaintext h x
        ((handleIncomingMessage P L U payload).run P E N x).2 ∧
      ReceivedFrom P E sender plaintext h x
        ((processIncomingEnvelope P L U payload).run P E N x).2
  /-- An import that adds no second row for the key keeps the conversation of the key. -/
  imported : ∀ uriString customAlias parsed contact,
    KeepsOneContact P L U E x (.importContact uriString customAlias) →
    parseContactUri P L uriString = .ok parsed →
    importedContact P L parsed customAlias (E.now x.host.draws) = .ok contact →
    ∀ r ∈ x.contacts, r.identity_pubkey_hex = P.toLowerCase contact.identityPubkeyHex →
      ∃ r' ∈ ((importContact P L U uriString customAlias).run P E N x).2.contacts,
        r'.identity_pubkey_hex = r.identity_pubkey_hex ∧
          r'.recipient_pubkey_hash = r.recipient_pubkey_hash

/-- The row of a message that has been saved. -/
theorem stored_withMessage (x : ClientState B S) (message : StoredMessage S) :
    ∃ row ∈ (x.withMessage P message).messages, row.id = message.id ∧ row.body = message.body ∧
      ((∀ m ∈ x.messages, m.id ≠ row.id) →
        row.contact_pubkey_hash = P.toLowerCase message.contactPubkeyHash) := by
  obtain ⟨row, hrow, hid, hbody, hkept⟩ := find?_upsert_message (P := P) x.messages message
  refine ⟨row, List.mem_of_find?_eq_some hrow, hid, hbody, ?_⟩
  intro hnew
  rw [keptColumns_of_new fun m hm => hid ▸ hnew m hm] at hkept
  exact congrArg Prod.fst hkept

/-- The end of both receive methods. -/
theorem Opens.receivedFrom (hlower : ∀ s, P.toLowerCase (P.toLowerCase s) = P.toLowerCase s)
    {x : ClientState B S} (hlowered : LowerCased P x) (hkeys : DistinctKeys x)
    {payload : IncomingMessagePayload S} {sender plaintext : S} {found : Option (ContactRecord S)}
    {h : Host B S} (hopens : Opens P L U E x payload sender found plaintext h)
    (contactAlias : String) :
    let y := (openedState P E x contactAlias sender found h).drawn
    let message := ordinaryMessage P E y payload (keepSender P E x contactAlias sender found).1 sender
      plaintext (E.randomBytes h.draws 16)
    (timed payload y).saveMessage P message = (.ok (), (timed payload y).withMessage P message) ∧
      ReceivedFrom P E sender plaintext h x ((timed payload y).withMessage P message) := by
  obtain ⟨encryptedMsg, -, hfind, -⟩ := hopens.decrypted
  obtain ⟨c, hc, hkey, hhash⟩ := sender_row (E := E) hlower hlowered hfind contactAlias
  dsimp only
  refine ⟨saveMessage_of_contact ⟨c, by simpa using hc, hhash⟩, c, ?_, hkey, ?_, ?_⟩
  · simpa [ClientState.withMessage] using hc
  · intro old hold hidentity
    -- an earlier contact with the key is the one that was found
    cases found with
    | none => exact absurd hidentity ((findSender_none hlower hfind).2 old hold)
    | some contact =>
        rw [List.inj_on_of_nodup_map hkeys hold hc (hidentity.trans hkey.symm)]
  · obtain ⟨row, hrow, hid, hbody, hnew⟩ := stored_withMessage (P := P)
      (timed payload (openedState P E x contactAlias sender found h).drawn)
      (ordinaryMessage P E (openedState P E x contactAlias sender found h).drawn payload
        (keepSender P E x contactAlias sender found).1 sender plaintext (E.randomBytes h.draws 16))
    refine ⟨row, hrow, hid, hbody, ?_⟩
    intro hfresh
    rw [hnew (by simpa using hfresh)]
    exact hhash.symm

theorem oneConversation (hlower : ∀ s, P.toLowerCase (P.toLowerCase s) = P.toLowerCase s)
    {x : ClientState B S} (hlowered : LowerCased P x) (hkeys : DistinctKeys x) :
    OneConversation P L U E N x where
  received := by
    intro payload sender found plaintext h hopens hordinary
    constructor
    · obtain ⟨-, hreceived⟩ := hopens.receivedFrom hlower hlowered hkeys "Unknown Contact"
      have hrun := hopens.run_receiveMessage_stored (N := N) hlower hlowered hordinary
      rw [run_handleIncomingMessage, hrun]
      exact hreceived
    · obtain ⟨hsaved, hreceived⟩ := hopens.receivedFrom hlower hlowered hkeys "Neznámý kontakt"
      have hrun := hopens.run_processIncomingEnvelope (N := N)
      dsimp only at hrun hsaved
      rw [hrun, hsaved]
      exact hreceived
  imported := by
    intro uriString customAlias parsed contact hkeeps hparsed hcontact r hr hkey
    have hhash := hkeeps parsed contact hparsed hcontact r hr hkey
    obtain ⟨r', hr', hrow⟩ := exists_row_saveContact (P := P) x contact
    refine ⟨r', ?_, (congrArg ContactRow.identity_pubkey_hex hrow).trans hkey.symm,
      (congrArg ContactRow.recipient_pubkey_hash hrow).trans hhash.symm⟩
    rw [run_importContact, hparsed]
    dsimp only
    rw [hcontact]
    exact hr'

/-- An import keeps one contact for a key that no contact with another hash has. -/
theorem keepsOneContact_importContact {x : ClientState B S} {uriString : S}
    {customAlias : Option S} {parsed : ParsedContact S} {key : S}
    (hparsed : parseContactUri P L uriString = .ok parsed)
    (hkey : parsed.payload.identityKeyHex = .string key)
    (hfree : ∀ r ∈ x.contacts, r.identity_pubkey_hex = P.toLowerCase key →
      r.recipient_pubkey_hash = P.toLowerCase parsed.recipientPubkeyHash) :
    KeepsOneContact P L U E x (.importContact uriString customAlias) := by
  intro parsed' contact hparsed' hcontact r hr hrkey
  cases hparsed.symm.trans hparsed'
  obtain ⟨hidentity, hhash, -⟩ := importedContact_ok hcontact
  cases hkey.symm.trans hidentity
  rw [hhash]
  exact hfree r hr hrkey

/-- A message that is no self-sync keeps one contact. -/
theorem Opens.keepsOneContact {x : ClientState B S} {payload : IncomingMessagePayload S}
    {sender plaintext : S} {found : Option (ContactRecord S)} {h : Host B S}
    (hopens : Opens P L U E x payload sender found plaintext h)
    (hordinary : syncPayload P L plaintext = none) :
    KeepsOneContact P L U E x (.handleIncomingMessage payload) := by
  intro sender' found' plaintext' h' target hopens' htarget
  cases hopens.plaintext_eq hopens'
  rw [syncTarget, hordinary] at htarget
  cases htarget

/-! ## A sender whose URI is imported late -/

section

open TorE2EE.Crypto.Sym

/-- The calls of `bob`. -/
def bobRuns (calls : List (ClientStep Sym)) : ClientState Sym Sym :=
  calls.foldl (ClientStep.apply symbolicClient symbolicLibrary symbolicUntyped symbolicEntropy
    symbolicNetwork) symbolicBob

/-- The mailbox of `alice`. -/
def aliceHash : Sym := hex (hkdf (pub (signingSecret 0)) nil (text "sha256") 32)

/-- The contact URI of `alice` with the bundle of `answer`. -/
def answeringUri : Sym :=
  contactUri (hex (pub (signingSecret 0))) (hex (pub (name 0))) (hex (pub (name 52)))
    (hex (signature (pub (name 52)) (signingSecret 0)))

/-- What `parseContactUri` returns for it. -/
def answeringParsed : ParsedContact Sym :=
  { payload :=
      { signingKeyHex := hex (pub (signingSecret 0))
        identityKeyHex := .string (hex (pub (name 0)))
        signedPreKey :=
          { keyId := some (.number 1)
            publicKeyHex := hex (pub (name 52))
            signatureHex := hex (signature (pub (name 52)) (signingSecret 0)) }
        oneTimePreKey := none
        contactAlias := none }
    recipientPubkeyHash := aliceHash }

theorem parseContactUri_answering :
    parseContactUri symbolicClient symbolicLibrary answeringUri = .ok answeringParsed := rfl

/-- Two calls of `bob`: he imports the URI of a bundle `alice` is about to generate, and writes. -/
def writingCalls : List (ClientStep Sym) :=
  [.importContact answeringUri none, .sendOutboundMessage aliceHash (text "hi")]

/-- His envelope. -/
def writtenEnvelope : IncomingMessagePayload Sym :=
  { encrypted_payload := ((bobRuns writingCalls).sent.map
      OutgoingMessageEnvelope.encrypted_payload).headD nil
    created_at := 1 }

/-- What `alice` does with it: she generates the bundle, opens the message and seals an answer. -/
def answer (payload : IncomingMessagePayload Sym) (plaintext : Sym) :
    EngineM Sym Sym (EncryptedMessage Sym) := do
  let _ ← generatePreKeyBundle symbolicClient 1
  let encryptedMsg := (symbolicLibrary.parseJson payload.encrypted_payload).getD .null
  let _ ← decryptJson symbolicClient symbolicUntyped (hex (pub (name 1))) encryptedMsg
  encrypt symbolicClient (hex (pub (name 1))) plaintext none

/-- Her answer. -/
def answerMessage : EncryptedMessage Sym :=
  okValue ((answer writtenEnvelope (text "hello")).run symbolicClient symbolicEntropy
    { store := SignalStore.empty (symbolicIdentity 0), draws := 50 }).1 (by decide +kernel)

/-- Its envelope. -/
def answerEnvelope : IncomingMessagePayload Sym :=
  { encrypted_payload := symbolicLibrary.stringifyJson (messageJson symbolicClient answerMessage)
    created_at := 2 }

/-- `bob` gets the answer, imports her URI once more, and then that of `carol`. -/
def answeredCalls : List (ClientStep Sym) :=
  writingCalls ++ [.handleIncomingMessage answerEnvelope, .importContact answeringUri none,
    .importContact carolUri none]

/-- `bob`'s calls, each of which adds no second row for an identity key. -/
def OneContactRun (calls : List (ClientStep Sym)) : Prop :=
  ClientRun symbolicClient symbolicLibrary symbolicUntyped symbolicEntropy symbolicNetwork
    (KeepsOneContact symbolicClient symbolicLibrary symbolicUntyped symbolicEntropy)
    (bobRuns calls)

theorem OneContactRun.step {calls : List (ClientStep Sym)} (h : OneContactRun calls)
    {a : ClientStep Sym} (ha : KeepsOneContact symbolicClient symbolicLibrary symbolicUntyped
      symbolicEntropy (bobRuns calls) a) : OneContactRun (calls ++ [a]) := by
  obtain ⟨identity, hrun⟩ := h
  rw [OneContactRun, bobRuns, List.foldl_append]
  exact ⟨identity, hrun.step a ha rfl⟩

theorem oneContactRun_nil : OneContactRun [] :=
  ⟨symbolicIdentity 1, Reachable.start.step (.generatePreKeyBundle 1) True.intro rfl⟩

theorem writingCalls_run : OneContactRun writingCalls := by
  have himported : OneContactRun [.importContact answeringUri none] := by
    apply oneContactRun_nil.step
    apply keepsOneContact_importContact parseContactUri_answering rfl
    intro r hr
    cases hr
  exact himported.step trivial

/-- `bob` can open the answer. -/
theorem answer_opens : ∃ found h, Opens symbolicClient symbolicLibrary symbolicUntyped
    symbolicEntropy (bobRuns writingCalls) answerEnvelope (hex (pub (name 0))) found
      (text "hello") h := by
  have hresult : ((openEnvelope symbolicClient symbolicLibrary symbolicUntyped "Unknown Contact"
      .typeError answerEnvelope).run symbolicClient symbolicEntropy symbolicNetwork
        (bobRuns writingCalls)).1.toOption.map (fun r => (r.1, r.2.2)) =
      some (hex (pub (name 0)), text "hello") := by
    decide +kernel
  exact opens_of_result hresult

theorem answeredCalls_run : OneContactRun answeredCalls := by
  have hanswered : OneContactRun (writingCalls ++ [.handleIncomingMessage answerEnvelope]) := by
    obtain ⟨found, h, hopens⟩ := answer_opens
    exact writingCalls_run.step (hopens.keepsOneContact rfl)
  have hreimported : OneContactRun (writingCalls ++
      [.handleIncomingMessage answerEnvelope] ++ [.importContact answeringUri none]) := by
    apply hanswered.step
    apply keepsOneContact_importContact parseContactUri_answering rfl
    -- the key has the row that the first import has left
    decide +kernel
  have hkeys : ∀ r ∈ (bobRuns (writingCalls ++ [.handleIncomingMessage answerEnvelope] ++
      [.importContact answeringUri none])).contacts,
      r.identity_pubkey_hex ≠ symbolicClient.toLowerCase (hex (pub (name 3))) := by
    decide +kernel
  apply hreimported.step
  exact keepsOneContact_importContact parseContactUri_carol rfl
    fun r hr hkey => absurd hkey (hkeys r hr)

/-- The URI of `alice`. -/
def aliceUri : Sym :=
  contactUri (hex (pub (signingSecret 0))) (hex (pub (name 0))) (hex (pub (name 9)))
    (hex (signature (pub (name 9)) (signingSecret 0)))

end

end TorE2EE.Client
