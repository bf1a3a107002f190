import TorE2EE.Client.DeviceLists
import TorE2EE.Client.Provenance
import TorE2EE.Client.Sending
import TorE2EE.Crypto.Moves

/-!
# A client and its device

The engine calls of a client are steps of a device on a network (`Crypto.Network`), and what else the
client does leaves the device alone. `Mirrors` relates the two: the Signal stores and the draws are
the same, every envelope the client has sent is the JSON of a letter, and the stored messages are
accounted for by the receipts of the device.

`Mirrors.apply`: after any call on input of the declared shape, the client is mirrored by a network
that moves of its device lead to. What the moves seal is what the call was to seal (`writtenBy`), at
most once for each device and in order.
-/

set_option autoImplicit false

namespace TorE2EE.Client

open TorE2EE.Foundation TorE2EE.Crypto

variable {M B S : Type} [DecidableEq M] [DecidableEq S]

/-- A text a client was asked to seal for the device with an identity key. -/
structure Writing (M S : Type) where
  sender : M
  recipientIdentityKeyHex : S
  plaintext : S
  deriving DecidableEq

/-- What a letter says. -/
def writingOf (l : Letter M S) : Writing M S := ⟨l.sender, l.recipientIdentityKeyHex, l.plaintext⟩

section Calls

variable (P : Primitives B S) (L : ClientLibrary B S) (U : UntypedCalls B S) (E : Entropy B)
  (N : Network) (u : M) (x : ClientState B S)

/-- What a call is to seal: the text for the devices of the contact, and the self-sync for the own
devices. -/
def writtenBy : ClientStep S → List (Writing M S)
  | .sendOutboundMessage contactPubkeyHash plaintext =>
      match x.getContactByHash P contactPubkeyHash with
      | none => []
      | some contact =>
          ((recipientDevices contact).map fun d => ⟨u, d.2, plaintext⟩) ++
            (ownDevices x).map fun d =>
              ⟨u, d.2, syncText P L contact.recipientPubkeyHash plaintext
                (P.bytesToHex (E.randomBytes x.host.draws 16)) (E.now (x.host.draws + 1))⟩
  | _ => []

/-- The message in an envelope, when it is JSON and has the shape of an `EncryptedMessage`. -/
def IncomingMessagePayload.message? (payload : IncomingMessagePayload S) :
    Option (EncryptedMessage S) :=
  (L.parseJson payload.encrypted_payload).bind (readMessage P)

/-- The text of an envelope that a call opens, and its ciphertext. -/
def heardBy : ClientStep S → Option (S × S)
  | .handleIncomingMessage payload => do
      let message ← payload.message? P L
      let opened ← ((openEnvelope P L U "Unknown Contact" .unresolvedSender payload).run P E
        N x).1.toOption
      pure (opened.2.2, message.ciphertext)
  | .processIncomingEnvelope payload => do
      let message ← payload.message? P L
      let opened ← ((openEnvelope P L U "Neznámý kontakt" .senderNotResolved payload).run P E
        N x).1.toOption
      pure (opened.2.2, message.ciphertext)
  | _ => none

/-- The bundle that a call makes. -/
def exportedBy : ClientStep S → Option (PreKeyBundle S)
  | .generatePreKeyBundle count =>
      ((engine (Crypto.generatePreKeyBundle P count)).run P E N x).1.toOption
  | _ => none

end Calls

variable (P : Primitives B S) (L : ClientLibrary B S) (U : UntypedCalls B S)

/-- The JSON of an envelope, when it is JSON, has the shape of an `EncryptedMessage`. -/
def IncomingMessagePayload.HasShape (payload : IncomingMessagePayload S) : Prop :=
  ∀ v, L.parseJson payload.encrypted_payload = some v → ∃ message, readMessage P v = some message

/-- What comes in has its declared shape, what is to be sealed keeps to `Q`, and the client hands its
mnemonic to no new device. -/
def ClientStep.Regular (E : Entropy B) (Q : M → S → S → Prop) (u : M) (x : ClientState B S)
    (a : ClientStep S) : Prop :=
  (∀ w ∈ writtenBy P L E u x a, Q w.sender w.recipientIdentityKeyHex w.plaintext) ∧
    match a with
    | .handleIncomingMessage payload => payload.HasShape P L
    | .processIncomingEnvelope payload => payload.HasShape P L
    | .importContact uriString _ => ∀ parsed, parseContactUri P L uriString = .ok parsed →
        ∃ bundle, readBundle P parsed.payload = some bundle
    | .linkOwnDevice _ _ => False
    | _ => True

/-! ## One client and its device -/

/-- The envelope has the message. -/
def OutgoingMessageEnvelope.Carries (e : OutgoingMessageEnvelope S) (m : EncryptedMessage S) :
    Prop :=
  e.encrypted_payload = L.stringifyJson (messageJson P m) ∧ e.nonce = m.nonce

variable {P L U} {D : Devices M B S} {Q : M → S → S → Prop} {heard heard' : S → S → Prop}
  {u : M} {draws : Nat}
  {x y : ClientState B S} {n n' : Crypto.Network M B S}

variable (P L D) in
/-- The device of a client: the same Signal store and draws, its letters in the envelopes, and its
receipts behind the stored messages. -/
structure Mirrors (heard : S → S → Prop) (u : M) (draws : Nat) (x : ClientState B S)
    (n : Crypto.Network M B S) : Prop where
  host : n.host u = x.host
  draws_le : draws ≤ x.host.draws
  accounted : Accounted P L (D.entropy u) heard draws x.messages (n.receiptsOf u)
  sent : ∀ e ∈ x.sent, ∃ l ∈ n.letters, e.Carries P L l.message

variable (P L D Q) in
/-- After a call: moves of its device lead to a network that mirrors the client again, where the
bundles are. The letters that are new are among what was to be sealed, in its order. -/
def MirrorsAfter (heard : S → S → Prop) (u : M) (y : ClientState B S) (n : Crypto.Network M B S)
    (written : List (Writing M S)) (exported : Option (PreKeyBundle S)) : Prop :=
  ∃ draws n' new, Crypto.Network.Moves P D u Q n n' ∧ Mirrors P L D heard u draws y n' ∧
    n'.letters = new ++ n.letters ∧ (new.map writingOf).Sublist written.reverse ∧
    ∀ bundle, exported = some bundle → bundle ∈ n'.bundles

/-- A call that seals nothing. -/
theorem mirrorsAfter_of_reaches {receipts : List (Receipt M S)}
    (hreach : n.Reaches P D u Q y.host n.letters receipts) (hle : draws ≤ y.host.draws)
    (haccounted : Accounted P L (D.entropy u) heard draws y.messages receipts)
    (hsent : ∀ e ∈ y.sent, ∃ l ∈ n.letters, e.Carries P L l.message) :
    MirrorsAfter P L D Q heard u y n [] none := by
  obtain ⟨n', hmoves, hhost, hletters, hreceipts⟩ := hreach
  refine ⟨draws, n', [], hmoves, ⟨hhost, hle, ?_, ?_⟩, hletters, List.Sublist.refl _, ?_⟩
  · rw [hreceipts]
    exact haccounted
  · rw [hletters]
    exact hsent
  · intro bundle h
    cases h

/-! ## Operations that leave the device alone -/

/-- The Signal store and the envelopes stay as they are, and nothing is drawn back. -/
structure Quiet (x y : ClientState B S) : Prop where
  store : y.host.store = x.host.store
  draws_le : x.host.draws ≤ y.host.draws
  sent : y.sent = x.sent

omit [DecidableEq S] in
theorem Quiet.refl (x : ClientState B S) : Quiet x x :=
  ⟨rfl, Nat.le_refl _, rfl⟩

omit [DecidableEq S] in
theorem Quiet.trans {z : ClientState B S} (h : Quiet x y) (h' : Quiet y z) : Quiet x z :=
  ⟨h'.store.trans h.store, h.draws_le.trans h'.draws_le, h'.sent.trans h.sent⟩

omit [DecidableEq S] in
theorem quiet_drawn (x : ClientState B S) : Quiet x x.drawn :=
  ⟨rfl, Nat.le_succ _, rfl⟩

theorem quiet_saveContact (x : ClientState B S) (contact : ContactRecord S) :
    Quiet x (x.saveContact P contact) :=
  ⟨rfl, Nat.le_refl _, rfl⟩

theorem quiet_saveMessage (x : ClientState B S) (message : StoredMessage S) :
    Quiet x (x.saveMessage P message).2 := by
  rw [ClientState.saveMessage]
  split <;> exact ⟨rfl, Nat.le_refl _, rfl⟩

theorem quiet_statement (x : ClientState B S) (s : TableStatement S) :
    Quiet x (s.execute P x) := by
  cases s with
  | deleteContact hash =>
      rw [TableStatement.execute]
      split <;> exact ⟨rfl, Nat.le_refl _, rfl⟩
  | _ => exact ⟨rfl, Nat.le_refl _, rfl⟩

omit [DecidableEq S] in
theorem quiet_timed (payload : IncomingMessagePayload S) (x : ClientState B S) :
    Quiet x (timed payload x) := by
  rw [timed]
  split
  · exact quiet_drawn x
  · exact Quiet.refl x

theorem quiet_keepSender (x : ClientState B S) (E : Entropy B) (contactAlias : String) (sender : S)
    (found : Option (ContactRecord S)) : Quiet x (keepSender P E x contactAlias sender found).2 := by
  cases found with
  | none => exact (quiet_drawn x).trans (quiet_saveContact _ _)
  | some contact => exact Quiet.refl x

theorem quiet_syncState (E : Entropy B) (text : S) (x : ClientState B S) :
    Quiet x (syncState P L E text x) := by
  rw [syncState]
  split
  · exact Quiet.refl x
  · split
    · exact Quiet.refl x
    · exact (quiet_drawn x).trans (quiet_saveContact _ _)

theorem quiet_storeBound (x : ClientState B S)
    (bound : Except (ClientError S) (StoredMessage S)) : Quiet x (storeBound P x bound).2 := by
  cases bound with
  | error e => exact Quiet.refl x
  | ok message => exact quiet_saveMessage x message

/-- The device draws what the client draws. -/
theorem reaches_quiet {letters : List (Letter M S)} {receipts : List (Receipt M S)}
    (hreach : n.Reaches P D u Q x.host letters receipts) (h : Quiet x y) :
    n.Reaches P D u Q y.host letters receipts := by
  obtain ⟨n', hmoves, hhost, hletters, hreceipts⟩ := hreach
  have hdrew := Crypto.Network.reaches_drew (P := P) (D := D) (Q := Q) (h := y.host) n' u
    (by rw [hhost]; exact h.store) (by rw [hhost]; exact h.draws_le)
  rw [hletters, hreceipts] at hdrew
  exact hmoves.reaches hdrew

theorem Mirrors.mono_heard (h : Mirrors P L D heard u draws x n)
    (hheard : ∀ text ciphertext, heard text ciphertext → heard' text ciphertext) :
    Mirrors P L D heard' u draws x n :=
  ⟨h.host, h.draws_le, h.accounted.mono_heard hheard, h.sent⟩

theorem Mirrors.reaches (h : Mirrors P L D heard u draws x n) :
    n.Reaches P D u Q x.host n.letters (n.receiptsOf u) :=
  h.host ▸ Crypto.Network.reaches_here n u

/-- A call that leaves the device alone. -/
theorem Mirrors.quiet (h : Mirrors P L D heard u draws x n) (hquiet : Quiet x y)
    (haccounted : Accounted P L (D.entropy u) heard draws y.messages (n.receiptsOf u)) :
    MirrorsAfter P L D Q heard u y n [] none := by
  refine mirrorsAfter_of_reaches (reaches_quiet h.reaches hquiet) (h.draws_le.trans hquiet.draws_le)
    haccounted ?_
  rw [hquiet.sent]
  exact h.sent

/-! ## Sending -/

/-- The device seals what the client does. -/
theorem FanOut.reaches {plaintext : S} {h h' : Host B S} {devices : List (S × S)}
    {sent : List (OutgoingMessageEnvelope S)}
    (hfan : FanOut P L (D.entropy u) plaintext h devices sent h') (hhost : n.host u = h)
    (hQ : ∀ d ∈ devices, Q u d.2 plaintext) :
    ∃ new, n.Reaches P D u Q h' (new ++ n.letters) (n.receiptsOf u) ∧
      (new.map writingOf).Sublist (devices.map fun d => (⟨u, d.2, plaintext⟩ : Writing M S)).reverse ∧
      ∀ e ∈ sent, ∃ l ∈ new, e.Carries P L l.message := by
  induction hfan generalizing n with
  | nil => exact ⟨[], hhost ▸ Crypto.Network.reaches_here n u, List.Sublist.refl _, by simp⟩
  | @threw h h' e mailbox k devices sent hrun _ ih =>
      obtain ⟨hk, hrest⟩ := List.forall_mem_cons.1 hQ
      obtain ⟨n', hmoves, hhost', hletters, hreceipts⟩ :=
        Crypto.Network.reaches_not_sealed (x := n) hk (by rw [hhost]; exact hrun)
      obtain ⟨new, hreach, hsublist, hsent⟩ := ih (n := n') hhost' hrest
      rw [hletters, hreceipts] at hreach
      refine ⟨new, hmoves.reaches hreach, ?_, hsent⟩
      rw [List.map_cons, List.reverse_cons]
      exact hsublist.trans (List.sublist_append_left _ _)
  | @sealed h h₁ h' m mailbox k devices sent hrun _ _ ih =>
      obtain ⟨hk, hrest⟩ := List.forall_mem_cons.1 hQ
      obtain ⟨n', hmoves, hhost', hletters, hreceipts⟩ :=
        Crypto.Network.reaches_sealed (x := n) hk (by rw [hhost]; exact hrun)
      obtain ⟨new, hreach, hsublist, hsent⟩ := ih (n := n') hhost' hrest
      rw [hletters, hreceipts] at hreach
      let l : Letter M S := ⟨u, k, plaintext, m⟩
      refine ⟨new ++ [l], ?_, ?_, ?_⟩
      · rw [List.append_assoc]
        exact hmoves.reaches hreach
      · rw [List.map_append, List.map_cons (l := devices), List.reverse_cons]
        exact hsublist.append (List.Sublist.refl _)
      · intro e he
        rcases List.mem_cons.1 he with rfl | he
        · exact ⟨l, List.mem_append_right _ List.mem_cons_self, rfl, rfl⟩
        · obtain ⟨l', hl', hcarries⟩ := hsent e he
          exact ⟨l', List.mem_append_left _ hl', hcarries⟩

omit [DecidableEq M] in
theorem FanOut.draws_le {E : Entropy B} {plaintext : S} {h h' : Host B S} {devices : List (S × S)}
    {sent : List (OutgoingMessageEnvelope S)} (hfan : FanOut P L E plaintext h devices sent h') :
    h.draws ≤ h'.draws := by
  induction hfan with
  | nil => exact Nat.le_refl _
  | threw _ _ ih => exact ih
  | sealed _ hnext _ ih =>
      obtain ⟨_, _, _, _, -, -, -, -, rfl⟩ := hnext
      exact (Nat.le_add_right _ 2).trans ih

/-- A message to an unknown contact is not sent. -/
theorem run_sendOutboundMessage_unknown {E : Entropy B} {N : Network} {hash plaintext : S}
    (hunknown : x.getContactByHash P hash = none) :
    ((sendOutboundMessage P L hash plaintext).run P E N x).2 = x := by
  rw [sendOutboundMessage, ask, ClientM.run, Program.run_perform_bind]
  simp only [ClientOp.handle, hunknown]
  rfl

theorem mirrors_sendOutboundMessage
    (hlower : ∀ s, P.toLowerCase (P.toLowerCase s) = P.toLowerCase s)
    (hE : FreshIds P (D.entropy u)) {N : Network} {hash plaintext : S}
    (h : Mirrors P L D heard u draws x n)
    (hQ : ∀ w ∈ writtenBy P L (D.entropy u) u x (.sendOutboundMessage hash plaintext),
      Q w.sender w.recipientIdentityKeyHex w.plaintext) :
    MirrorsAfter P L D Q heard u
      ((sendOutboundMessage P L hash plaintext).run P (D.entropy u) N x).2 n
      (writtenBy P L (D.entropy u) u x (.sendOutboundMessage hash plaintext)) none := by
  cases hfound : x.getContactByHash P hash with
  | none =>
      rw [run_sendOutboundMessage_unknown hfound]
      simp only [writtenBy, hfound]
      exact h.quiet (Quiet.refl x) h.accounted
  | some contact =>
      simp only [writtenBy, hfound] at hQ ⊢
      obtain ⟨h₁, h₂, sent₁, sent₂, delivered, hfan₁, hfan₂, -, hrun⟩ :=
        run_sendOutboundMessage (P := P) (L := L) (E := D.entropy u) (N := N)
          hlower hfound plaintext
      rw [hrun]
      let synced := syncText P L contact.recipientPubkeyHash plaintext
        (P.bytesToHex ((D.entropy u).randomBytes x.host.draws 16))
        ((D.entropy u).now (x.host.draws + 1))
      have hQ₁ : ∀ d ∈ recipientDevices contact, Q u d.2 plaintext := fun d hd =>
        hQ _ (List.mem_append_left _ (List.mem_map_of_mem hd))
      have hQ₂ : ∀ d ∈ ownDevices x, Q u d.2 synced := fun d hd =>
        hQ _ (List.mem_append_right _ (List.mem_map_of_mem hd))
      -- the id and the time are drawn, and then the devices get their letters
      obtain ⟨n₀, hmoves₀, hhost₀, hletters₀, hreceipts₀⟩ :=
        Crypto.Network.reaches_drew (P := P) (D := D) (Q := Q) (h := x.drawn.drawn.host) n u
          (by rw [h.host]; rfl) (by rw [h.host]; exact Nat.le_add_right _ 2)
      obtain ⟨new₁, ⟨n₁, hmoves₁, hhost₁, hletters₁, hreceipts₁⟩, hsublist₁, hsent₁⟩ :=
        hfan₁.reaches hhost₀ hQ₁
      obtain ⟨new₂, ⟨n₂, hmoves₂, hhost₂, hletters₂, hreceipts₂⟩, hsublist₂, hsent₂⟩ :=
        hfan₂.reaches hhost₁ hQ₂
      have hletters : n₂.letters = (new₂ ++ new₁) ++ n.letters := by
        rw [hletters₂, hletters₁, hletters₀, List.append_assoc]
      have hdraws : x.host.draws ≤ h₂.draws :=
        (Nat.le_add_right _ 2).trans (hfan₁.draws_le.trans hfan₂.draws_le)
      refine ⟨draws, n₂, new₂ ++ new₁, hmoves₀.trans (hmoves₁.trans hmoves₂),
        ⟨hhost₂, h.draws_le.trans hdraws, ?_, ?_⟩, hletters, ?_, ?_⟩
      · rw [hreceipts₂, hreceipts₁, hreceipts₀]
        let message := outboundMessage P (D.entropy u) x contact plaintext x.host.store.identity
          delivered
        have hid : message.id = P.bytesToHex ((D.entropy u).randomBytes x.host.draws 16) := rfl
        have hdirection : message.isOutgoing = true := rfl
        have hstored := Accounted.outgoing (x := { x with
          host := h₂, sent := x.sent ++ sent₁ ++ sent₂ }) hE h.accounted hdirection
          (Or.inl ⟨x.host.draws, h.draws_le, hid⟩)
        have hrow := contact_row_of_found hlower hfound
        rw [saveMessage_of_contact hrow] at hstored
        exact hstored
      · intro e he
        rw [hletters]
        rcases List.mem_append.1 he with he | he
        · rcases List.mem_append.1 he with he | he
          · obtain ⟨l, hl, hcarries⟩ := h.sent e he
            exact ⟨l, List.mem_append_right _ hl, hcarries⟩
          · obtain ⟨l, hl, hcarries⟩ := hsent₁ e he
            exact ⟨l, List.mem_append_left _ (List.mem_append_right _ hl), hcarries⟩
        · obtain ⟨l, hl, hcarries⟩ := hsent₂ e he
          exact ⟨l, List.mem_append_left _ (List.mem_append_left _ hl), hcarries⟩
      · rw [List.map_append, List.reverse_append]
        exact hsublist₂.append hsublist₁
      · intro bundle hbundle
        cases hbundle

/-! ## Receiving -/

section

variable {N : Network} {payload : IncomingMessagePayload S} {sender plaintext : S}
  {found : Option (ContactRecord S)} {host' : Host B S}

omit [DecidableEq M] in
theorem initialIdentityKeyHex_of_readMessage {v : Json S} {message : EncryptedMessage S}
    (hread : readMessage P v = some message) :
    optionalString P (property P "initialIdentityKeyHex" v) = some message.initialIdentityKeyHex := by
  simp only [readMessage, Option.bind_eq_bind, Option.bind_eq_some_iff] at hread
  obtain ⟨_, -, _, -, _, -, _, -, _, -, _, -, _, hnamed, _, -, hmessage⟩ := hread
  cases hmessage
  exact hnamed

omit [DecidableEq M] in
/-- The sender of a message that names an identity key has that key. -/
theorem findSender_named {v : Json S} {message : EncryptedMessage S}
    (hread : readMessage P v = some message) (hfind : findSender P x v = .ok (sender, found)) :
    ∀ hex, message.initialIdentityKeyHex = some hex → sender = P.toLowerCase hex := by
  intro hex hhex
  have hnamed := initialIdentityKeyHex_of_readMessage hread
  rw [hhex, optionalString] at hnamed
  split at hnamed
  · next htruthy =>
      obtain ⟨hex', hstring, hsame⟩ := Option.map_eq_some_iff.1 hnamed
      cases hsame
      cases hget : v.get (P.lit "initialIdentityKeyHex") with
      | none =>
          rw [property, hget] at htruthy
          cases htruthy
      | some field =>
          rw [property, hget, Option.join_some] at htruthy hstring
          have hfield : getField P "initialIdentityKeyHex" v = .ok field := by
            simp only [getField, hget]
            rfl
          simp only [findSender, hfield, if_pos htruthy, hstring] at hfind
          cases hfind
          rfl
  · cases hnamed

theorem messages_keepSender (x : ClientState B S) (E : Entropy B) (contactAlias : String)
    (sender : S) (found : Option (ContactRecord S)) :
    (keepSender P E x contactAlias sender found).2.messages = x.messages := by
  cases found <;> rfl

/-- An envelope that is not opened: the device has drawn, or it has refused the message. -/
theorem Mirrors.not_opened (h : Mirrors P L D heard u draws x n) (hshape : payload.HasShape P L)
    {contactAlias : String} {unresolved e : ClientError S}
    (hrun : (openEnvelope P L U contactAlias unresolved payload).run P (D.entropy u) N x =
      (.error e, y)) : MirrorsAfter P L D Q heard u y n [] none := by
  rw [run_openEnvelope] at hrun
  split at hrun
  -- An envelope that cannot be read, or whose sender is nobody, touches nothing.
  · cases hrun
    exact h.quiet (Quiet.refl x) h.accounted
  · next encryptedMsg hjson =>
      split at hrun
      · cases hrun
        exact h.quiet (Quiet.refl x) h.accounted
      · next sender found hfind =>
          have hkept := quiet_keepSender (P := P) x (D.entropy u) contactAlias sender found
          have hmessages := messages_keepSender (P := P) x (D.entropy u) contactAlias sender found
          split at hrun
          · cases hrun
            refine h.quiet hkept ?_
            rw [hmessages]
            exact h.accounted
          · split at hrun
            · cases hrun
            · next e' host' hdecrypt =>
                cases hrun
                -- The engine was called: its failed decryption is a step of the network.
                obtain ⟨message, hread⟩ := hshape encryptedMsg hjson
                simp only [decryptJson, hread] at hdecrypt
                have hdraws := (callFrame_decrypt hdecrypt).draws
                obtain ⟨n', hmoves, hhost, hletters, hreceipts⟩ :=
                  reaches_quiet (Q := Q) h.reaches hkept
                rw [host_keepSender] at hhost
                have hreach := Crypto.Network.reaches_not_opened (x := n') (D := D) (Q := Q)
                  (findSender_named hread hfind) (hhost ▸ hdecrypt)
                rw [hletters, hreceipts] at hreach
                have hle : draws ≤ host'.draws := by
                  rw [← host_keepSender (P := P) (E := D.entropy u) x contactAlias sender] at hdraws
                  exact (h.draws_le.trans hkept.draws_le).trans hdraws
                refine mirrorsAfter_of_reaches (hmoves.reaches hreach) hle ?_ ?_
                · rw [messages_openedState]
                  exact h.accounted
                · intro e he
                  exact h.sent e (hkept.sent ▸ he)

/-- The device opens what the client opens. -/
theorem Opens.reaches (hopens : Opens P L U (D.entropy u) x payload sender found plaintext host')
    (h : Mirrors P L D heard u draws x n) (hshape : payload.HasShape P L) :
    draws ≤ host'.draws ∧ ∃ message, payload.message? P L = some message ∧
      n.Reaches P D u Q host' n.letters
        ({ receiver := u, senderIdentityKeyHex := sender, plaintext, message } ::
          n.receiptsOf u) := by
  obtain ⟨encryptedMsg, hjson, hfind, hdecrypt⟩ := hopens.decrypted
  obtain ⟨message, hread⟩ := hshape encryptedMsg hjson
  have hkept := quiet_keepSender (P := P) x (D.entropy u) "Unknown Contact" sender found
  simp only [decryptJson, hread] at hdecrypt
  have hdraws := (callFrame_decrypt hdecrypt).draws
  obtain ⟨n', hmoves, hhost, hletters, hreceipts⟩ := reaches_quiet (Q := Q) h.reaches hkept
  rw [host_keepSender] at hhost
  have hreach := Crypto.Network.reaches_opened (x := n') (D := D) (Q := Q)
    (findSender_named hread hfind) (hhost ▸ hdecrypt)
  rw [hletters, hreceipts] at hreach
  have hmessage : payload.message? P L = some message := by
    rw [IncomingMessagePayload.message?, hjson]
    exact hread
  refine ⟨?_, message, hmessage, hmoves.reaches hreach⟩
  rw [← host_keepSender (P := P) (E := D.entropy u) x "Unknown Contact" sender] at hdraws
  exact (h.draws_le.trans hkept.draws_le).trans hdraws

/-- After an envelope was opened, and a message was drawn an id. -/
theorem Mirrors.opened (h : Mirrors P L D heard u draws x n) (contactAlias : String) (sender : S)
    (found : Option (ContactRecord S)) {receipts : List (Receipt M S)}
    (hreach : n.Reaches P D u Q host' n.letters receipts)
    (hquiet : Quiet (openedState P (D.entropy u) x contactAlias sender found host').drawn y)
    (haccounted : Accounted P L (D.entropy u) heard (host'.draws + 1) y.messages receipts) :
    MirrorsAfter P L D Q heard u y n [] none := by
  have hkept := quiet_keepSender (P := P) x (D.entropy u) contactAlias sender found
  let z := openedState P (D.entropy u) x contactAlias sender found host'
  have hreach' : n.Reaches P D u Q z.host n.letters receipts := hreach
  refine mirrorsAfter_of_reaches (reaches_quiet hreach' ((quiet_drawn z).trans hquiet))
    hquiet.draws_le haccounted ?_
  intro e he
  rw [hquiet.sent] at he
  exact h.sent e (hkept.sent ▸ he)

theorem mirrors_processIncomingEnvelope (hE : FreshIds P (D.entropy u))
    (h : Mirrors P L D heard u draws x n) (hshape : payload.HasShape P L)
    (hheard : ∀ text ciphertext, heardBy P L U (D.entropy u) N x
      (.processIncomingEnvelope payload) = some (text, ciphertext) → heard text ciphertext) :
    MirrorsAfter P L D Q heard u
      ((processIncomingEnvelope P L U payload).run P (D.entropy u) N x).2 n [] none := by
  rcases hrun : (openEnvelope P L U "Neznámý kontakt" .senderNotResolved payload).run P
    (D.entropy u) N x with ⟨r, y⟩
  cases r with
  | error e =>
      have hstopped : ((processIncomingEnvelope P L U payload).run P (D.entropy u) N x).2 = y :=
        congrArg Prod.snd (Program.run_bind_of_error _ hrun _)
      rw [hstopped]
      exact h.not_opened hshape hrun
  | ok r =>
      obtain ⟨found, host', hopens⟩ := opens_of_run (congrArg Prod.fst hrun)
      obtain ⟨hle, message, hmessage, hreach⟩ := hopens.reaches (Q := Q) h hshape
      have hnew : heard r.2.2 message.ciphertext :=
        hheard _ _ (by simp [heardBy, hrun, hmessage, Except.toOption])
      refine h.opened "Neznámý kontakt" r.1 found hreach ?_
        (hopens.accounted_processIncomingEnvelope hE h.accounted hnew hle rfl rfl)
      rw [hopens.run_processIncomingEnvelope]
      exact (quiet_timed payload _).trans (quiet_saveMessage _ _)

theorem mirrors_handleIncomingMessage (hE : FreshIds P (D.entropy u))
    (h : Mirrors P L D heard u draws x n) (hshape : payload.HasShape P L)
    (hheard : ∀ text ciphertext, heardBy P L U (D.entropy u) N x
      (.handleIncomingMessage payload) = some (text, ciphertext) → heard text ciphertext) :
    MirrorsAfter P L D Q heard u
      ((handleIncomingMessage P L U payload).run P (D.entropy u) N x).2 n [] none := by
  rw [run_handleIncomingMessage]
  rcases hrun : (openEnvelope P L U "Unknown Contact" .unresolvedSender payload).run P
    (D.entropy u) N x with ⟨r, y⟩
  cases r with
  | error e =>
      have hstopped : ((receiveMessage P L U payload).run P (D.entropy u) N x).2 = y :=
        congrArg Prod.snd (Program.run_bind_of_error _ hrun _)
      rw [hstopped]
      exact h.not_opened hshape hrun
  | ok r =>
      obtain ⟨found, host', hopens⟩ := opens_of_run (congrArg Prod.fst hrun)
      obtain ⟨hle, message, hmessage, hreach⟩ := hopens.reaches (Q := Q) h hshape
      have hnew : heard r.2.2 message.ciphertext :=
        hheard _ _ (by simp [heardBy, hrun, hmessage, Except.toOption])
      refine h.opened "Unknown Contact" r.1 found hreach ?_
        (hopens.accounted_receiveMessage hE h.accounted hnew hle rfl rfl)
      rw [hopens.run_receiveMessage]
      exact (quiet_syncState _ _ _).trans ((quiet_timed payload _).trans (quiet_storeBound _ _))

end

/-! ## The other calls -/

omit [DecidableEq M] in
theorem identityKeyHex_of_readBundle {payload : ContactExportPayload S} {bundle : PreKeyBundle S}
    {key : S} (hread : readBundle P payload = some bundle)
    (hkey : payload.identityKeyHex = .string key) : key = bundle.identityKeyHex := by
  simp only [readBundle, Option.bind_eq_bind, Option.bind_eq_some_iff, hkey] at hread
  obtain ⟨_, hstring, _, -, hbundle⟩ := hread
  cases hbundle
  exact Option.some.inj hstring

/-- An imported contact gets its session from the bundle of the URI, under the identity key of the
bundle. -/
theorem mirrors_importContact {N : Network} {uriString : S} {customAlias : Option S}
    (h : Mirrors P L D heard u draws x n)
    (hshape : ∀ parsed, parseContactUri P L uriString = .ok parsed →
      ∃ bundle, readBundle P parsed.payload = some bundle) :
    MirrorsAfter P L D Q heard u
      ((importContact P L U uriString customAlias).run P (D.entropy u) N x).2 n [] none := by
  rw [run_importContact]
  cases hparsed : parseContactUri P L uriString with
  | error e => exact h.quiet (Quiet.refl x) h.accounted
  | ok parsed =>
      dsimp only
      cases hcontact : importedContact P L parsed customAlias ((D.entropy u).now x.host.draws) with
      | error e => exact h.quiet (quiet_drawn x) h.accounted
      | ok contact =>
          obtain ⟨bundle, hbundle⟩ := hshape parsed hparsed
          have hkey : contact.identityPubkeyHex = bundle.identityKeyHex :=
            identityKeyHex_of_readBundle hbundle (importedContact_ok hcontact).1
          obtain ⟨n', hmoves, hhost, hletters, hreceipts⟩ :=
            reaches_quiet (Q := Q) h.reaches (quiet_drawn x)
          have hreach := Crypto.Network.reaches_initiate (P := P) (D := D) (Q := Q) n' u bundle
          rw [hletters, hreceipts, hhost, ← hkey] at hreach
          have hhost' : ((initiateImported P U contact.identityPubkeyHex parsed.payload).run P
              (D.entropy u) x.drawn.host).2 =
              ((initiateSession P contact.identityPubkeyHex bundle).run P (D.entropy u)
                x.drawn.host).2 := by
            simp only [initiateImported, hbundle]
            exact congrArg Prod.snd (Program.run_bind_pure _ _ (fun _ => ()) _)
          dsimp only
          rw [hhost']
          have hdraws : x.drawn.host.draws ≤ ((initiateSession P contact.identityPubkeyHex bundle).run
              P (D.entropy u) x.drawn.host).2.draws := (callFrame_initiateSession rfl).draws
          exact mirrorsAfter_of_reaches (hmoves.reaches hreach)
            ((h.draws_le.trans (Nat.le_succ _)).trans hdraws) h.accounted h.sent

theorem mirrors_addLinkedDevice {N : Network} {hash : S} {device : DeviceRecord S}
    (h : Mirrors P L D heard u draws x n) :
    MirrorsAfter P L D Q heard u ((addLinkedDevice hash device).run P (D.entropy u) N x).2 n []
      none := by
  rw [run_addLinkedDevice]
  cases x.getContactByHash P hash with
  | none => exact h.quiet (Quiet.refl x) h.accounted
  | some contact => exact h.quiet (quiet_saveContact x _) h.accounted

theorem mirrors_generatePreKeyBundle {N : Network} {count : Nat}
    (h : Mirrors P L D heard u draws x n) :
    MirrorsAfter P L D Q heard u
      ((engine (Crypto.generatePreKeyBundle P count)).run P (D.entropy u) N x).2 n []
      (exportedBy P (D.entropy u) N x (.generatePreKeyBundle count)) := by
  obtain ⟨n', hmoves, hhost, hletters, hreceipts, hbundles⟩ :=
    Crypto.Network.moves_generate (P := P) (D := D) (Q := Q) n u count
  rw [h.host] at hhost hbundles
  rw [exportedBy, run_engine]
  have hdraws : x.host.draws ≤
      ((Crypto.generatePreKeyBundle P count).run P (D.entropy u) x.host).2.draws := by
    rcases run_generatePreKeyBundle_cases P (D.entropy u) count x.host with
      ⟨e, hfail⟩ | ⟨signatureHex, -, hok⟩
    · rw [hfail]
      exact Nat.le_add_right _ 2
    · rw [hok]
      dsimp only
      omega
  refine ⟨draws, n', [], hmoves, ⟨hhost, h.draws_le.trans hdraws, ?_, ?_⟩, hletters,
    List.Sublist.refl _, ?_⟩
  · rw [hreceipts]
    exact h.accounted
  · rw [hletters]
    exact h.sent
  · intro bundle hbundle
    apply hbundles
    cases hrun : ((Crypto.generatePreKeyBundle P count).run P (D.entropy u) x.host).1 with
    | error e =>
        rw [hrun] at hbundle
        cases hbundle
    | ok bundle' =>
        rw [hrun] at hbundle
        cases hbundle
        rfl

/-- After any call the client is mirrored again. -/
theorem Mirrors.apply (hlower : ∀ s, P.toLowerCase (P.toLowerCase s) = P.toLowerCase s)
    (hE : FreshIds P (D.entropy u)) {N : Network}
    (h : Mirrors P L D heard u draws x n) {a : ClientStep S}
    (ha : a.Regular P L (D.entropy u) Q u x) :
    MirrorsAfter P L D Q
      (fun text ciphertext => heard text ciphertext ∨
        heardBy P L U (D.entropy u) N x a = some (text, ciphertext)) u
      (a.apply P L U (D.entropy u) N x) n (writtenBy P L (D.entropy u) u x a)
      (exportedBy P (D.entropy u) N x a) := by
  replace h : Mirrors P L D
      (fun text ciphertext => heard text ciphertext ∨
        heardBy P L U (D.entropy u) N x a = some (text, ciphertext)) u draws x n :=
    h.mono_heard fun _ _ => Or.inl
  cases a with
  | importContact uriString customAlias => exact mirrors_importContact h ha.2
  | handleIncomingMessage payload =>
      exact mirrors_handleIncomingMessage hE h ha.2 fun _ _ => Or.inr
  | processIncomingEnvelope payload =>
      exact mirrors_processIncomingEnvelope hE h ha.2 fun _ _ => Or.inr
  | sendOutboundMessage hash plaintext => exact mirrors_sendOutboundMessage hlower hE h ha.1
  | addLinkedDevice hash device => exact mirrors_addLinkedDevice h
  | linkOwnDevice qrUri assignedDeviceId => exact ha.2.elim
  | saveOwnLinkedDevice device => exact h.quiet ⟨rfl, Nat.le_refl _, rfl⟩ h.accounted
  | generatePreKeyBundle count => exact mirrors_generatePreKeyBundle h
  | statement s => exact h.quiet (quiet_statement x s) (h.accounted.statement s)

end TorE2EE.Client
