import TorE2EE.Client.Sending

/-!
# The status of a sent message

`sendOutboundMessage` stores `sent` or `delivered` and nothing else. `delivered` needs an answer of
the relay that reported a live delivery, but `sent` is also what is left when every device failed.
`status_truthful_iff` says when the stored status tells the truth: when there is no contact, or the
relay takes an envelope for one of the devices of the contact that can be encrypted to.
-/

set_option autoImplicit false

namespace TorE2EE.Client

open TorE2EE.Foundation TorE2EE.Crypto

variable {B S : Type} [DecidableEq S]
variable (P : Primitives B S) (L : ClientLibrary B S) (E : Entropy B) (N : Network)

/-- There is a session with the device, and its sending chain can be had. -/
def canEncrypt (st : SignalStore B S) (identityPubkeyHex : S) : Bool :=
  match st.getSession P identityPubkeyHex with
  | none => false
  | some stored =>
      match ensureSendChain P stored with
      | .error _ => false
      | .ok (_, chainHex) =>
          match P.hexToBytes chainHex with
          | .error _ => false
          | .ok _ => true

/-- The relay accepted an envelope with the plaintext for a device of the contact. -/
def RecipientAccepted (x : ClientState B S) (contact : ContactRecord S) (plaintext : S) : Prop :=
  ∃ sent h, FanOut P L E plaintext x.drawn.drawn.host (recipientDevices contact) sent h ∧
    ∃ j < sent.length, N (x.sent.length + j) ≠ none

/-- An answer of the relay to such an envelope reported a live delivery. -/
def RecipientLive (x : ClientState B S) (contact : ContactRecord S) (plaintext : S) : Prop :=
  ∃ sent h, FanOut P L E plaintext x.drawn.drawn.host (recipientDevices contact) sent h ∧
    DeliveredLive N x.sent.length sent.length

/-- What a status says about the envelopes. -/
structure TrueStatus (accepted live : Prop) (status : DeliveryStatus) : Prop where
  accepted_of_sent : status = .sent ∨ status = .delivered → accepted
  live_of_delivered : status = .delivered → live
  failed_of_not_accepted : ¬ accepted → status = .failed ∨ status = .pending

/-- The status that `sendOutboundMessage` reports and stores is true, or it throws. -/
def StatusTruthful (x : ClientState B S) (hash plaintext : S) : Prop :=
  ∀ message, ((sendOutboundMessage P L hash plaintext).run P E N x).1 = .ok message →
    ∀ contact, x.getContactByHash P hash = some contact →
      TrueStatus (RecipientAccepted P L E N x contact plaintext)
          (RecipientLive P L E N x contact plaintext) message.deliveryStatus ∧
        ∀ row ∈ ((sendOutboundMessage P L hash plaintext).run P E N x).2.messages,
          row.id = message.id → row.delivery_status = message.deliveryStatus

variable {P L E N}

theorem canEncrypt_of_error {k plaintext : S} {h : Host B S} {e : EngineError S}
    (hrun : (encrypt P k plaintext none).run P E h = (.error e, h)) :
    canEncrypt P h.store k = false := by
  rw [canEncrypt]
  cases hstored : h.store.getSession P k with
  | none => rfl
  | some stored =>
    cases hchain : ensureSendChain P stored with
    | error e => simp [hchain]
    | ok r =>
      obtain ⟨session, chainHex⟩ := r
      cases hkey : P.hexToBytes chainHex with
      | error e => simp [hchain, hkey]
      | ok chainKey =>
        rw [run_encrypt_of_ok hstored hchain hkey] at hrun
        cases hrun

theorem canEncrypt_of_sealed {k plaintext : S} {h h' : Host B S} {m : EncryptedMessage S}
    (hnext : SealsNext P E k plaintext h m h') : canEncrypt P h.store k = true := by
  obtain ⟨stored, session, chainHex, chainKey, hstored, hchain, hkey, -, -⟩ := hnext
  simp [canEncrypt, hstored, hchain, hkey]

/-- Sealing a message changes for no device whether it can be encrypted to. -/
theorem canEncrypt_after_sealed (hhex : ∀ b, P.hexToBytes (P.bytesToHex b) = .ok b)
    {k plaintext : S} {h h' : Host B S} {m : EncryptedMessage S}
    (hnext : SealsNext P E k plaintext h m h') (k' : S) :
    canEncrypt P h'.store k' = canEncrypt P h.store k' := by
  by_cases hsame : P.toLowerCase k' = P.toLowerCase k
  · have hbefore : canEncrypt P h.store k' = true := by
      have hk := canEncrypt_of_sealed hnext
      simpa [canEncrypt, SignalStore.getSession, hsame] using hk
    rw [hbefore]
    obtain ⟨stored, session, chainHex, chainKey, -, -, -, -, rfl⟩ := hnext
    simp [canEncrypt, SignalStore.getSession, SignalStore.saveSession, hsame, ensureSendChain,
      SessionRecord.sealedOnce, hhex, pure, Except.pure]
  · obtain ⟨stored, session, chainHex, chainKey, -, -, -, -, rfl⟩ := hnext
    simp [canEncrypt, SignalStore.getSession, SignalStore.saveSession, Function.update_of_ne hsame]

/-- One envelope leaves for every device that can be encrypted to. -/
theorem FanOut.length_sent (hhex : ∀ b, P.hexToBytes (P.bytesToHex b) = .ok b) {plaintext : S}
    {h h' : Host B S} {devices : List (S × S)} {sent : List (OutgoingMessageEnvelope S)}
    (hfan : FanOut P L E plaintext h devices sent h') :
    sent.length = (devices.filter fun d => canEncrypt P h.store d.2).length := by
  induction hfan with
  | nil => rfl
  | threw hrun _ ih => simp [canEncrypt_of_error hrun, ih]
  | sealed _ hnext _ ih =>
    simp only [canEncrypt_after_sealed hhex hnext] at ih
    simp [canEncrypt_of_sealed hnext, ih]

/-- The status is true exactly when there is no contact or the relay takes one of the envelopes for
the devices that can be encrypted to. -/
theorem status_truthful_iff (hlower : ∀ s, P.toLowerCase (P.toLowerCase s) = P.toLowerCase s)
    (hhex : ∀ b, P.hexToBytes (P.bytesToHex b) = .ok b) (x : ClientState B S) (hash plaintext : S) :
    StatusTruthful P L E N x hash plaintext ↔
      ∀ contact, x.getContactByHash P hash = some contact →
        ∃ j < ((recipientDevices contact).filter fun d => canEncrypt P x.host.store d.2).length,
          N (x.sent.length + j) ≠ none := by
  constructor
  · intro htruthful contact hcontact
    obtain ⟨h₁, h₂, sent₁, sent₂, delivered, hfan, -, -, hrun⟩ :=
      run_sendOutboundMessage (L := L) (E := E) (N := N) hlower hcontact plaintext
    have hstatus := (htruthful _ (congrArg Prod.fst hrun) contact hcontact).1
    -- a returned message is shown as sent or as delivered
    have hsent : (outboundMessage P E x contact plaintext x.host.store.identity
        delivered).deliveryStatus = .sent ∨ (outboundMessage P E x contact plaintext
          x.host.store.identity delivered).deliveryStatus = .delivered := by
      cases delivered
      · exact Or.inl rfl
      · exact Or.inr rfl
    obtain ⟨sent, h, hfan, j, hj, haccepted⟩ := hstatus.accepted_of_sent hsent
    refine ⟨j, ?_, haccepted⟩
    rwa [hfan.length_sent hhex] at hj
  · intro haccepted message hmessage contact hcontact
    obtain ⟨h₁, h₂, sent₁, sent₂, delivered, hfan, -, hlive, hrun⟩ :=
      run_sendOutboundMessage (L := L) (E := E) (N := N) hlower hcontact plaintext
    rw [hrun] at hmessage
    cases hmessage
    obtain ⟨j, hj, hanswer⟩ := haccepted contact hcontact
    -- the accepted envelope is one of those sent to the recipient
    have hrecipient : RecipientAccepted P L E N x contact plaintext := by
      refine ⟨sent₁, h₁, hfan, j, ?_, hanswer⟩
      rwa [hfan.length_sent hhex]
    refine ⟨⟨fun _ => hrecipient, ?_, fun hnot => absurd hrecipient hnot⟩, ?_⟩
    · intro hdelivered
      cases delivered with
      | false => cases hdelivered
      | true => exact ⟨sent₁, h₁, hfan, hlive.1 rfl⟩
    · intro row hrow hid
      rw [hrun] at hrow
      rcases mem_upsertBy hrow with rfl | ⟨-, hne⟩ | ⟨old, -, -, rfl⟩
      · rfl
      · exact absurd hid hne
      · rfl

section

open TorE2EE.Crypto.Sym

/-- With a relay that takes every envelope the status of a message to a contact with a session is
true. -/
theorem status_truthful_symbolic :
    StatusTruthful symbolicClient symbolicLibrary symbolicEntropy symbolicNetwork symbolicSender
      symbolicRecipient (text "hello") := by
  rw [status_truthful_iff (fun _ => rfl) (fun _ => rfl)]
  intro contact hcontact
  obtain rfl : _ = contact := Option.some.inj hcontact
  exact ⟨0, by decide, by decide⟩

/-- With a relay that cannot be reached the message is stored as sent. -/
theorem unreachable_relay_sent :
    ¬ StatusTruthful symbolicClient symbolicLibrary symbolicEntropy (fun _ => none) symbolicSender
      symbolicRecipient (text "hello") := by
  intro htruthful
  obtain ⟨contact, hcontact, -⟩ := symbolicSender_knows
  obtain ⟨_, _, _, _, delivered, -, -, -, hrun⟩ :=
    run_sendOutboundMessage (L := symbolicLibrary) (E := symbolicEntropy) (N := fun _ => none)
      (fun _ => rfl) hcontact (text "hello")
  have hstatus := (htruthful _ (congrArg Prod.fst hrun) contact hcontact).1
  obtain ⟨_, _, -, j, -, haccepted⟩ := hstatus.accepted_of_sent
    (by cases delivered <;> simp [outboundMessage])
  exact haccepted rfl

end

end TorE2EE.Client
