import TorE2EE.Client.Methods

/-!
# Runs of the receive methods

What the parts of `handleIncomingMessage` and `processIncomingEnvelope` do to the database, one
equation for each part. `findSender` says which sender an envelope has in a state, `Opens` that an
envelope is resolved and decrypted in a state, and `run_openEnvelope_cases` that this is what a
successful `openEnvelope` is.
-/

set_option autoImplicit false

namespace TorE2EE.Client

open TorE2EE.Foundation TorE2EE.Crypto

variable {B S : Type} [DecidableEq S]
variable (P : Primitives B S) (L : ClientLibrary B S) (U : UntypedCalls B S) (E : Entropy B)
  (N : Network)

/-! ## The sender -/

/-- The sender of an envelope in a state, with its contact when there is one. The error `none`
stands for the caller's own. -/
def findSender (x : ClientState B S) (encryptedMsg : Json S) :
    Except (Option (ClientError S)) (S × Option (ContactRecord S)) :=
  match getField P "initialIdentityKeyHex" encryptedMsg with
  | .error e => .error (some e)
  | .ok initialIdentityKeyHex =>
      if Json.truthy (P.lit "") initialIdentityKeyHex then
        match Json.string? initialIdentityKeyHex with
        | none => .error (some .typeError)
        | some key => .ok (P.toLowerCase key, x.getContactByIdentityKey P (P.toLowerCase key))
      else
        match (x.listContacts P).find?
          fun c => (x.host.store.getSession P c.identityPubkeyHex).isSome with
        | some c => .ok (P.toLowerCase c.identityPubkeyHex, some c)
        | none => .error none

/-- The contact that is made for an unknown sender, at the time of the next draw. -/
def newPlaceholder (x : ClientState B S) (sender : S) (contactAlias : String) : ContactRecord S :=
  placeholderContact P sender contactAlias (E.now x.host.draws)

/-- One draw has been made. -/
def ClientState.drawn (x : ClientState B S) : ClientState B S :=
  { x with host := { x.host with draws := x.host.draws + 1 } }

/-- The state in which the sender has a contact: the placeholder is saved when there is none. -/
def keepSender (x : ClientState B S) (contactAlias : String) (sender : S) :
    Option (ContactRecord S) → ContactRecord S × ClientState B S
  | some c => (c, x)
  | none =>
      (newPlaceholder P E x sender contactAlias,
        x.drawn.saveContact P (newPlaceholder P E x sender contactAlias))

variable {P L U E N}

/-- A contact that has been saved has a row. -/
theorem exists_row_saveContact (x : ClientState B S) (contact : ContactRecord S) :
    ∃ row ∈ (x.saveContact P contact).contacts,
      { row with created_at := contact.createdAt } = contactRow P contact := by
  obtain ⟨row, hrow, hhash⟩ : ∃ row ∈ (x.saveContact P contact).contacts,
      row.recipient_pubkey_hash = (contactRow P contact).recipient_pubkey_hash :=
    exists_mem_upsertBy fun _ _ => rfl
  refine ⟨row, hrow, ?_⟩
  -- the row is new, or it is an old one that has been replaced but for its creation time
  rcases mem_upsertBy hrow with rfl | ⟨-, hne⟩ | ⟨old, -, -, rfl⟩
  · rfl
  · exact absurd hhash hne
  · rfl

theorem run_firstWithSession (x : ClientState B S) (contacts : List (ContactRecord S)) :
    (firstWithSession contacts).run P E N x =
      (.ok (contacts.find? fun c => (x.host.store.getSession P c.identityPubkeyHex).isSome), x) := by
  induction contacts with
  | nil => rfl
  | cons c contacts ih =>
      cases hsession : x.host.store.getSession P c.identityPubkeyHex with
      | none =>
          simp only [firstWithSession, ask, ClientM.run, Program.run_perform_bind, ClientOp.handle,
            EngineOp.handle, hsession, List.find?_cons, Option.isSome_none]
          exact ih
      | some s =>
          simp only [firstWithSession, ask, ClientM.run, Program.run_perform_bind, ClientOp.handle,
            EngineOp.handle, hsession, List.find?_cons, Option.isSome_some]
          rfl

theorem run_contactOfKey (x : ClientState B S) (contactAlias : String) {key : S} :
    (contactOfKey P contactAlias (some (.string key))).run P E N x =
      (.ok (P.toLowerCase key,
          (keepSender P E x contactAlias (P.toLowerCase key)
            (x.getContactByIdentityKey P (P.toLowerCase key))).1),
        (keepSender P E x contactAlias (P.toLowerCase key)
          (x.getContactByIdentityKey P (P.toLowerCase key))).2) := by
  cases hcontact : x.getContactByIdentityKey P (P.toLowerCase key) with
  | none =>
      simp only [contactOfKey, Json.string?, ask, dateNow, ClientM.run, Program.run_perform_bind,
        ClientOp.handle, hcontact]
      rfl
  | some c =>
      simp only [contactOfKey, Json.string?, ask, ClientM.run, Program.run_perform_bind,
        ClientOp.handle, hcontact]
      rfl

theorem run_contactOfSession (x : ClientState B S) (unresolved : ClientError S) :
    (contactOfSession P unresolved).run P E N x =
      match (x.listContacts P).find?
        fun c => (x.host.store.getSession P c.identityPubkeyHex).isSome with
      | some c => (.ok (P.toLowerCase c.identityPubkeyHex, c), x)
      | none => (.error unresolved, x) := by
  have hfirst := run_firstWithSession (P := P) (E := E) (N := N) x (x.listContacts P)
  cases hfound : (x.listContacts P).find?
    fun c => (x.host.store.getSession P c.identityPubkeyHex).isSome with
  | none =>
      rw [hfound] at hfirst
      exact Program.run_bind_of_ok _ hfirst _
  | some c =>
      rw [hfound] at hfirst
      exact Program.run_bind_of_ok _ hfirst _

theorem run_resolveSender (x : ClientState B S) (contactAlias : String)
    (unresolved : ClientError S) (encryptedMsg : Json S) :
    (resolveSender P contactAlias unresolved encryptedMsg).run P E N x =
      match findSender P x encryptedMsg with
      | .error e => (.error (e.getD unresolved), x)
      | .ok (sender, found) =>
          if sender = P.lit "" then
            (.error unresolved, (keepSender P E x contactAlias sender found).2)
          else
            (.ok (sender, (keepSender P E x contactAlias sender found).1),
              (keepSender P E x contactAlias sender found).2) := by
  rw [resolveSender, findSender]
  cases hfield : getField P "initialIdentityKeyHex" encryptedMsg with
  | error e => rfl
  | ok initial =>
      -- an envelope that names its sender is a first contact; otherwise a session must be found
      by_cases htruthy : Json.truthy (P.lit "") initial = true
      · simp only [ClientM.run, Program.run_ofExcept_ok_bind, if_pos htruthy]
        cases hstring : Json.string? initial with
        | none =>
            have hthrow : contactOfKey P contactAlias initial = Program.throw .typeError := by
              simp only [contactOfKey, hstring]
            rw [hthrow]
            rfl
        | some key =>
            obtain rfl := Json.string?_eq_some.1 hstring
            rw [Program.run_bind_of_ok _ (run_contactOfKey x contactAlias)]
            by_cases hempty : P.toLowerCase key = P.lit ""
            · simp only [if_pos hempty]
              rfl
            · simp only [if_neg hempty]
              rfl
      · simp only [ClientM.run, Program.run_ofExcept_ok_bind, if_neg htruthy]
        have hsession := run_contactOfSession (P := P) (E := E) (N := N) x unresolved
        cases hfound : (x.listContacts P).find?
          fun c => (x.host.store.getSession P c.identityPubkeyHex).isSome with
        | none =>
            rw [hfound] at hsession
            exact Program.run_bind_of_error _ hsession _
        | some c =>
            rw [hfound] at hsession
            rw [Program.run_bind_of_ok _ hsession]
            by_cases hempty : P.toLowerCase c.identityPubkeyHex = P.lit ""
            · simp only [if_pos hempty]
              rfl
            · simp only [if_neg hempty]
              rfl

/-! ## Opening an envelope -/

/-- The Signal store and the draws when `decrypt` is called. -/
def senderHost (x : ClientState B S) : Option (ContactRecord S) → Host B S
  | some _ => x.host
  | none => { x.host with draws := x.host.draws + 1 }

omit [DecidableEq S] in
theorem host_keepSender (x : ClientState B S) (contactAlias : String) (sender : S)
    (found : Option (ContactRecord S)) [DecidableEq S] :
    (keepSender P E x contactAlias sender found).2.host = senderHost x found := by
  cases found <;> rfl

variable (P L U E) in
/-- The envelope is parsed, its sender is found, and its message decrypts, which leaves the Signal
store and the draws as `h`. -/
structure Opens (x : ClientState B S) (payload : IncomingMessagePayload S) (sender : S)
    (found : Option (ContactRecord S)) (plaintext : S) (h : Host B S) : Prop where
  decrypted : ∃ encryptedMsg, L.parseJson payload.encrypted_payload = some encryptedMsg ∧
    findSender P x encryptedMsg = .ok (sender, found) ∧
    (decryptJson P U sender encryptedMsg).run P E (senderHost x found) = (.ok plaintext, h)
  sender_ne : sender ≠ P.lit ""

/-- The state after an envelope has been opened. -/
def openedState (P : Primitives B S) (E : Entropy B) (x : ClientState B S) (contactAlias : String)
    (sender : S) (found : Option (ContactRecord S)) (h : Host B S) : ClientState B S :=
  { (keepSender P E x contactAlias sender found).2 with host := h }

theorem run_openEnvelope (x : ClientState B S) (contactAlias : String) (unresolved : ClientError S)
    (payload : IncomingMessagePayload S) :
    (openEnvelope P L U contactAlias unresolved payload).run P E N x =
      match L.parseJson payload.encrypted_payload with
      | none => (.error .syntaxError, x)
      | some encryptedMsg =>
          match findSender P x encryptedMsg with
          | .error e => (.error (e.getD unresolved), x)
          | .ok (sender, found) =>
              if sender = P.lit "" then
                (.error unresolved, (keepSender P E x contactAlias sender found).2)
              else
                match (decryptJson P U sender encryptedMsg).run P E (senderHost x found) with
                | (.ok plaintext, h) =>
                    (.ok (sender, (keepSender P E x contactAlias sender found).1, plaintext),
                      openedState P E x contactAlias sender found h)
                | (.error e, h) =>
                    (.error (.engine e), openedState P E x contactAlias sender found h) := by
  rw [openEnvelope]
  cases hjson : L.parseJson payload.encrypted_payload with
  | none => rfl
  | some encryptedMsg =>
      have hresolve := run_resolveSender (P := P) (E := E) (N := N) x contactAlias unresolved
        encryptedMsg
      dsimp only
      cases hfound : findSender P x encryptedMsg with
      | error e =>
          rw [hfound] at hresolve
          exact Program.run_bind_of_error _ hresolve _
      | ok r =>
          obtain ⟨sender, found⟩ := r
          simp only [hfound] at hresolve
          -- `if (!senderIdentityHex || !contact)` comes after the contact has been kept
          by_cases hempty : sender = P.lit ""
          · rw [if_pos hempty] at hresolve
            simp only [if_pos hempty]
            exact Program.run_bind_of_error _ hresolve _
          · rw [if_neg hempty] at hresolve
            simp only [if_neg hempty]
            refine (Program.run_bind_of_ok _ hresolve _).trans ?_
            have hengine := run_engine P E N (decryptJson P U sender encryptedMsg)
              (keepSender P E x contactAlias sender found).2
            rw [host_keepSender] at hengine
            dsimp only
            rcases hrun : (decryptJson P U sender encryptedMsg).run P E (senderHost x found) with
              ⟨r, h⟩
            rw [hrun] at hengine
            cases r with
            | error e => exact Program.run_bind_of_error _ hengine _
            | ok plaintext => exact Program.run_bind_of_ok _ hengine _

/-- An envelope that opens, whatever alias and error the caller brings. -/
theorem Opens.run {x : ClientState B S} {payload : IncomingMessagePayload S} {sender plaintext : S}
    {found : Option (ContactRecord S)} {h : Host B S}
    (hopens : Opens P L U E x payload sender found plaintext h) (contactAlias : String)
    (unresolved : ClientError S) :
    (openEnvelope P L U contactAlias unresolved payload).run P E N x =
      (.ok (sender, (keepSender P E x contactAlias sender found).1, plaintext),
        openedState P E x contactAlias sender found h) := by
  obtain ⟨encryptedMsg, hjson, hsender, hdecrypt⟩ := hopens.decrypted
  rw [run_openEnvelope]
  simp only [hjson, hsender, if_neg hopens.sender_ne, hdecrypt]

/-- What a successful `openEnvelope` is. -/
theorem opens_of_run {x : ClientState B S} {payload : IncomingMessagePayload S}
    {contactAlias : String} {unresolved : ClientError S} {r : S × ContactRecord S × S}
    (hrun : ((openEnvelope P L U contactAlias unresolved payload).run P E N x).1 = .ok r) :
    ∃ found h, Opens P L U E x payload r.1 found r.2.2 h := by
  rw [run_openEnvelope] at hrun
  split at hrun
  · cases hrun
  · next encryptedMsg hjson =>
      split at hrun
      · cases hrun
      · next sender found hfind =>
          split at hrun
          · cases hrun
          · next hne =>
              split at hrun
              · next plaintext h hdecrypt =>
                  cases hrun
                  exact ⟨found, h, ⟨encryptedMsg, hjson, hfind, hdecrypt⟩, hne⟩
              · cases hrun

/-- An envelope opens when a run says so. -/
theorem opens_of_result {x : ClientState B S} {payload : IncomingMessagePayload S}
    {contactAlias : String} {unresolved : ClientError S} {sender plaintext : S}
    (hrun : (((openEnvelope P L U contactAlias unresolved payload).run P E N x).1.toOption).map
      (fun r => (r.1, r.2.2)) = some (sender, plaintext)) :
    ∃ found h, Opens P L U E x payload sender found plaintext h := by
  obtain ⟨r, hr, hresult⟩ := Option.map_eq_some_iff.1 hrun
  cases hok : ((openEnvelope P L U contactAlias unresolved payload).run P E N x).1 with
  | error e =>
      rw [hok] at hr
      cases hr
  | ok r' =>
      rw [hok] at hr
      cases hr
      cases hresult
      exact opens_of_run hok

/-- An envelope opens in one way. -/
theorem Opens.plaintext_eq {x : ClientState B S} {payload : IncomingMessagePayload S}
    {sender sender' plaintext plaintext' : S} {found found' : Option (ContactRecord S)}
    {h h' : Host B S} (hopens : Opens P L U E x payload sender found plaintext h)
    (hopens' : Opens P L U E x payload sender' found' plaintext' h') : plaintext = plaintext' := by
  obtain ⟨encryptedMsg, hjson, hfind, hdecrypt⟩ := hopens.decrypted
  obtain ⟨encryptedMsg', hjson', hfind', hdecrypt'⟩ := hopens'.decrypted
  cases hjson.symm.trans hjson'
  cases hfind.symm.trans hfind'
  cases hdecrypt.symm.trans hdecrypt'
  rfl

/-! ## Storing a message -/

theorem run_dateNow (x : ClientState B S) :
    (dateNow : ClientM B S Nat).run P E N x = (.ok (E.now x.host.draws), x.drawn) := rfl

theorem run_randomBytes (x : ClientState B S) (n : Nat) :
    (randomBytes n : ClientM B S B).run P E N x =
      (.ok (E.randomBytes x.host.draws n), x.drawn) := rfl

/-- The state after `messageTime`. -/
def timed (payload : IncomingMessagePayload S) (x : ClientState B S) : ClientState B S :=
  if payload.created_at = 0 then x.drawn else x

/-- The time `messageTime` answers. -/
def timeOf (E : Entropy B) (payload : IncomingMessagePayload S) (x : ClientState B S) : Nat :=
  if payload.created_at = 0 then E.now x.host.draws else payload.created_at * 1000

theorem run_messageTime (x : ClientState B S) (payload : IncomingMessagePayload S) :
    (messageTime payload).run P E N x = (.ok (timeOf E payload x), timed payload x) := by
  rw [messageTime, timeOf, timed]
  by_cases htime : payload.created_at = 0
  · simp only [if_pos htime]
    rfl
  · simp only [if_neg htime]
    rfl

theorem run_storeMessage (x : ClientState B S) (message : StoredMessage S) :
    (storeMessage message).run P E N x = x.saveMessage P message := by
  simp only [storeMessage, ask, ClientM.run, Program.run_perform_bind, Program.run_ofExcept]
  rfl

variable (P L E) in
/-- The variables after the inner `try` block. -/
def syncVariables (rawDecrypted : S) (v : Incoming S) : Incoming S :=
  match syncPayload P L rawDecrypted with
  | none => v
  | some parsedSync => applySync P parsedSync v

variable (P L E) in
/-- The state after the inner `try` block. -/
def syncState (rawDecrypted : S) (x : ClientState B S) : ClientState B S :=
  match (syncPayload P L rawDecrypted).bind
    fun parsedSync => Json.string? (property P "originalRecipientHash" parsedSync) with
  | none => x
  | some targetContactHash =>
      match x.getContactByHash P targetContactHash with
      | some _ => x
      | none =>
          x.drawn.saveContact P
            (placeholderContact P targetContactHash "Synced Conversation" (E.now x.host.draws))

theorem run_readSync (x : ClientState B S) (rawDecrypted : S) (v : Incoming S) :
    (readSync P L rawDecrypted v).run P E N x =
      (.ok (syncVariables P L rawDecrypted v), syncState P L E rawDecrypted x) := by
  rw [readSync, syncVariables, syncState]
  cases hsync : syncPayload P L rawDecrypted with
  | none => rfl
  | some parsedSync =>
      cases htarget : Json.string? (property P "originalRecipientHash" parsedSync) with
      | none =>
          simp only [applySync, htarget, Option.bind_some]
          rfl
      | some hash =>
          cases hcontact : x.getContactByHash P hash with
          | none =>
              simp only [applySync, htarget, Option.bind_some, hcontact, ask, dateNow, ClientM.run,
                Program.run_perform_bind, ClientOp.handle]
              rfl
          | some c =>
              simp only [applySync, htarget, Option.bind_some, hcontact, ask, ClientM.run,
                Program.run_perform_bind, ClientOp.handle]
              rfl

/-- After the inner `try` block the conversation of a sync payload has a contact. -/
theorem syncState_has_target {text hash : S} {parsedSync : Json S}
    (hsync : syncPayload P L text = some parsedSync)
    (htarget : Json.string? (property P "originalRecipientHash" parsedSync) = some hash)
    (z : ClientState B S) :
    ∃ c ∈ (syncState P L E text z).contacts, c.recipient_pubkey_hash = P.toLowerCase hash := by
  rw [syncState]
  simp only [hsync, Option.bind_some, htarget]
  cases hcontact : z.getContactByHash P hash with
  | some c =>
    obtain ⟨row, hrow, -⟩ := Option.map_eq_some_iff.1 hcontact
    exact ⟨row, List.mem_of_find?_eq_some hrow, by simpa using List.find?_some hrow⟩
  | none => exact exists_mem_upsertBy fun _ _ => rfl

variable (P) in
/-- The variables of `handleIncomingMessage` before the inner `try` block. -/
def ordinary (contact : ContactRecord S) (plaintext : S) (messageId : B) : Incoming S :=
  { isSync := false
    messageBody := some (.string plaintext)
    targetContactHash := some (.string contact.recipientPubkeyHash)
    messageId := .string (P.bytesToHex messageId) }

/-- The end of `handleIncomingMessage`: a message that can be bound is stored. -/
def storeBound (P : Primitives B S) (x : ClientState B S)
    (bound : Except (ClientError S) (StoredMessage S)) :
    Except (ClientError S) (StoredMessage S) × ClientState B S :=
  match bound with
  | .error e => (.error e, x)
  | .ok message => ((x.saveMessage P message).1.map fun _ => message, (x.saveMessage P message).2)

theorem run_storeBound (x : ClientState B S)
    (bound : Except (ClientError S) (StoredMessage S)) :
    ClientM.run P E N (do
        let message ← Program.ofExcept bound
        storeMessage message
        pure message) x =
      storeBound P x bound := by
  cases bound with
  | error e => rfl
  | ok message =>
      refine (Program.run_bind_pure _ (storeMessage message) (fun _ => message) _).trans ?_
      have hstore := run_storeMessage (P := P) (E := E) (N := N) x message
      rw [ClientM.run] at hstore
      rw [hstore]
      rfl

/-- The foreground on an envelope that opens. -/
theorem Opens.run_receiveMessage {x : ClientState B S} {payload : IncomingMessagePayload S}
    {sender plaintext : S} {found : Option (ContactRecord S)} {h : Host B S}
    (hopens : Opens P L U E x payload sender found plaintext h) :
    (receiveMessage P L U payload).run P E N x =
      let y := (openedState P E x "Unknown Contact" sender found h).drawn
      let z := syncState P L E plaintext y
      storeBound P (timed payload z)
        (bindIncoming L
          (syncVariables P L plaintext
            (ordinary P (keepSender P E x "Unknown Contact" sender found).1 plaintext
              (E.randomBytes h.draws 16)))
          sender z.host.store.identity.encryptionKey.publicKeyHex (timeOf E payload z)) := by
  refine (Program.run_bind_of_ok _ (hopens.run _ _) _).trans ?_
  refine (Program.run_bind_of_ok _ (run_randomBytes (P := P) _ 16) _).trans ?_
  refine (Program.run_bind_of_ok _ (run_readSync _ plaintext _) _).trans ?_
  rw [ask, Program.run_perform_bind]
  refine (Program.run_bind_of_ok _ (run_messageTime _ payload) _).trans ?_
  exact run_storeBound _ _

omit [DecidableEq S] in
/-- A plaintext that is no self-sync is stored as it is. -/
theorem bindIncoming_ordinary (contact : ContactRecord S) (plaintext : S) (messageId : B)
    (sender recipient : S) (timestamp : Nat) :
    bindIncoming L (ordinary P contact plaintext messageId) sender recipient timestamp =
      .ok
        { id := P.bytesToHex messageId
          contactPubkeyHash := contact.recipientPubkeyHash
          senderIdentityHex := sender
          recipientIdentityHex := recipient
          body := plaintext
          timestamp
          isOutgoing := false
          isRead := false
          deliveryStatus := .delivered } := rfl

/-- The message both methods store for a plaintext that is no self-sync. -/
def ordinaryMessage (P : Primitives B S) (E : Entropy B) (x : ClientState B S)
    (payload : IncomingMessagePayload S) (contact : ContactRecord S) (sender plaintext : S)
    (messageId : B) : StoredMessage S :=
  { id := P.bytesToHex messageId
    contactPubkeyHash := contact.recipientPubkeyHash
    senderIdentityHex := sender
    recipientIdentityHex := x.host.store.identity.encryptionKey.publicKeyHex
    body := plaintext
    timestamp := timeOf E payload x
    isOutgoing := false
    isRead := false
    deliveryStatus := .delivered }

/-- The foreground on an envelope that opens with a plaintext that is no self-sync. -/
theorem Opens.run_receiveMessage_ordinary {x : ClientState B S} {payload : IncomingMessagePayload S}
    {sender plaintext : S} {found : Option (ContactRecord S)} {h : Host B S}
    (hopens : Opens P L U E x payload sender found plaintext h)
    (hordinary : syncPayload P L plaintext = none) :
    ((receiveMessage P L U payload).run P E N x).2 =
      let y := (openedState P E x "Unknown Contact" sender found h).drawn
      ((timed payload y).saveMessage P
        (ordinaryMessage P E y payload (keepSender P E x "Unknown Contact" sender found).1 sender
          plaintext (E.randomBytes h.draws 16))).2 := by
  rw [hopens.run_receiveMessage]
  simp only [syncVariables, syncState, hordinary, Option.bind_none, bindIncoming_ordinary]
  rfl

/-- The background on an envelope that opens. -/
theorem Opens.run_processIncomingEnvelope {x : ClientState B S} {payload : IncomingMessagePayload S}
    {sender plaintext : S} {found : Option (ContactRecord S)} {h : Host B S}
    (hopens : Opens P L U E x payload sender found plaintext h) :
    (processIncomingEnvelope P L U payload).run P E N x =
      let y := (openedState P E x "Neznámý kontakt" sender found h).drawn
      (timed payload y).saveMessage P
        (ordinaryMessage P E y payload (keepSender P E x "Neznámý kontakt" sender found).1 sender
          plaintext (E.randomBytes h.draws 16)) := by
  refine (Program.run_bind_of_ok _ (hopens.run _ _) _).trans ?_
  refine (Program.run_bind_of_ok _ (run_randomBytes (P := P) _ 16) _).trans ?_
  rw [ask, Program.run_perform_bind]
  refine (Program.run_bind_of_ok _ (run_messageTime _ payload) _).trans ?_
  exact run_storeMessage _ _

theorem run_handleIncomingMessage (x : ClientState B S) (payload : IncomingMessagePayload S) :
    ((handleIncomingMessage P L U payload).run P E N x).2 =
      ((receiveMessage P L U payload).run P E N x).2 := by
  rw [handleIncomingMessage]
  rw [ClientM.run, Program.run_bind_of_ok _ (Program.run_catchError _ _ _)]
  rcases hrun : (receiveMessage P L U payload).run P E N x with ⟨r, y⟩
  rw [ClientM.run] at hrun
  rw [hrun]
  cases r <;> rfl

/-- What `handleIncomingMessage` returns: the stored message, or `null` when something was thrown. -/
theorem run_handleIncomingMessage_fst (x : ClientState B S) (payload : IncomingMessagePayload S) :
    ((handleIncomingMessage P L U payload).run P E N x).1 =
      .ok ((receiveMessage P L U payload).run P E N x).1.toOption := by
  rw [handleIncomingMessage]
  rw [ClientM.run, Program.run_bind_of_ok _ (Program.run_catchError _ _ _)]
  rcases hrun : (receiveMessage P L U payload).run P E N x with ⟨r, y⟩
  rw [ClientM.run] at hrun
  rw [hrun]
  cases r <;> rfl

/-! ## What stays -/

omit [DecidableEq S] in
@[simp] theorem contacts_drawn (x : ClientState B S) : x.drawn.contacts = x.contacts := rfl

omit [DecidableEq S] in
@[simp] theorem messages_drawn (x : ClientState B S) : x.drawn.messages = x.messages := rfl

omit [DecidableEq S] in
@[simp] theorem contacts_timed (payload : IncomingMessagePayload S) (x : ClientState B S) :
    (timed payload x).contacts = x.contacts := by
  rw [timed]
  split <;> rfl

omit [DecidableEq S] in
@[simp] theorem messages_timed (payload : IncomingMessagePayload S) (x : ClientState B S) :
    (timed payload x).messages = x.messages := by
  rw [timed]
  split <;> rfl

@[simp] theorem contacts_openedState (x : ClientState B S) (contactAlias : String) (sender : S)
    (found : Option (ContactRecord S)) (h : Host B S) :
    (openedState P E x contactAlias sender found h).contacts =
      (keepSender P E x contactAlias sender found).2.contacts := rfl

@[simp] theorem messages_openedState (x : ClientState B S) (contactAlias : String) (sender : S)
    (found : Option (ContactRecord S)) (h : Host B S) :
    (openedState P E x contactAlias sender found h).messages = x.messages := by
  cases found <;> rfl

@[simp] theorem messages_syncState (rawDecrypted : S) (x : ClientState B S) :
    (syncState P L E rawDecrypted x).messages = x.messages := by
  rw [syncState]
  split
  · rfl
  · split <;> rfl

@[simp] theorem contacts_saveMessage (x : ClientState B S) (message : StoredMessage S) :
    (x.saveMessage P message).2.contacts = x.contacts := by
  unfold ClientState.saveMessage
  dsimp only
  split <;> rfl

/-- A message with a new id and the hash of a contact is a new row. -/
theorem saveMessage_of_new {x : ClientState B S} {message : StoredMessage S}
    (hid : ∀ r ∈ x.messages, r.id ≠ message.id)
    (hcontact : ∃ c ∈ x.contacts,
      c.recipient_pubkey_hash = P.toLowerCase message.contactPubkeyHash) :
    (x.saveMessage P message).2 =
      { x with messages := x.messages ++ [messageRow P message] } := by
  unfold ClientState.saveMessage
  dsimp only
  split
  · have happend : upsertBy MessageRow.id (replaceMessage (messageRow P message))
        (messageRow P message) x.messages = x.messages ++ [messageRow P message] :=
      upsertBy_of_new hid
    rw [happend]
  · next hrefused => exact absurd (Or.inr hcontact) hrefused

/-- A message under an id that is there is no new row. -/
theorem length_saveMessage_of_old {x : ClientState B S} {message : StoredMessage S}
    (hid : ∃ r ∈ x.messages, r.id = message.id) :
    (x.saveMessage P message).2.messages.length = x.messages.length := by
  obtain ⟨r, hr, hid⟩ := hid
  unfold ClientState.saveMessage
  dsimp only
  split
  · have hupdated : upsertBy MessageRow.id (replaceMessage (messageRow P message))
        (messageRow P message) x.messages = _ := upsertBy_of_mem hr hid
    dsimp only
    rw [hupdated, List.length_map]
  · rfl

/-- A stored message is a new row, or the rows stay as many as they were. -/
theorem messages_saveMessage_cases (x : ClientState B S) (message : StoredMessage S) :
    (x.saveMessage P message).2.messages = x.messages ++ [messageRow P message] ∨
      (x.saveMessage P message).2.messages.length = x.messages.length := by
  by_cases hold : ∃ r ∈ x.messages, r.id = message.id
  · exact Or.inr (length_saveMessage_of_old hold)
  · unfold ClientState.saveMessage
    dsimp only
    split
    · left
      exact upsertBy_of_new fun r hr hid => hold ⟨r, hr, hid⟩
    · exact Or.inr rfl

end TorE2EE.Client
