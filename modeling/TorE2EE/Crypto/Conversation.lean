import TorE2EE.Crypto.Opening
import TorE2EE.Crypto.Symbolic

/-!
# Delivery under reordering

A conversation: `bob` generates one bundle, `alice` initiates one session on it, and then messages
are sealed by either side and delivered at most once each, in any order and with any of them
missing. `Conversation.decrypt_returns_plaintext` shows that every delivery within the skip limit
returns the plaintext, when the first message `bob` takes is the first one of `alice`.

Two conditions are needed on top of fresh keys. The ids of the one-time prekeys are random, and a
key drawn later in the same `generatePreKeyBundle` call replaces the exported one under an equal id;
and the caller of `encrypt` that seals the first message can name another one-time prekey than the
bundle's. `conversation_can_break` has a run in which each of these goes wrong.
-/

set_option autoImplicit false

namespace TorE2EE.Crypto

open TorE2EE.Foundation

variable {B S : Type} [DecidableEq S]

/-- Strangers of which `bob` has generated no bundle before. -/
structure Newcomers (P : Primitives B S) (w : World B S) : Prop extends Strangers P w where
  noSignedPreKeys : (w.store .bob).signedPreKeys = []

/-- A message may be delivered when the first one `bob` takes has sequence number `0` and no
skipping limit is hit. -/
structure Deliverable (P : Primitives B S) (w : World B S) (f : Flight S) : Prop where
  first : w.session f.sender.peer P = none → f.message.sequenceNumber = 0
  limit : WithinSkipLimit P (w.session f.sender.peer P) f.message

/-- A call of `encrypt` by `p` seals the message with sequence number `0` that `bob` takes first. -/
def SealsFirst (P : Primitives B S) (w : World B S) (p : Party) : Prop :=
  p = .alice ∧ w.session .bob P = none ∧
    ∃ s, w.session .alice P = some s ∧ s.sendSequenceNumber = 0

/-- The states of a conversation on `bundle`, which `bob` generated with `count` one-time prekeys at
draw number `d`. The call of `encrypt` that seals the first message passes a bundle context that
`contexts` allows; the others pass what they like. -/
inductive Conversation (P : Primitives B S) (E : Entropy B)
    (contexts : PreKeyBundle S → Option InitialBundleContext → Prop) (d count : Nat)
    (bundle : PreKeyBundle S) : World B S → Prop where
  | start {w w₁ w₂ : World B S} {s : SessionRecord B S} :
      Newcomers P w → w.draws = d → w.generate .bob P E count = (.ok bundle, w₁) →
      w₁.initiate .alice P E bundle = (.ok s, w₂) →
      Conversation P E contexts d count bundle w₂
  | encrypt {w : World B S} (p : Party) {plaintext : S} {context : Option InitialBundleContext} :
      Conversation P E contexts d count bundle w →
      P.textDecode (P.textEncode plaintext) = plaintext →
      (SealsFirst P w p → contexts bundle context) →
      Conversation P E contexts d count bundle (w.send p P E plaintext context)
  | deliver {w : World B S} {before after : List (Flight S)} {f : Flight S} :
      Conversation P E contexts d count bundle w → w.flights = before ++ f :: after →
      Deliverable P w f →
      Conversation P E contexts d count bundle
        ((w.decryptAt f.sender.peer P E f.message).2.landed (before ++ after))

/-- A bundle context that names no other one-time prekey than the bundle's. -/
def RightContext (bundle : PreKeyBundle S) (context : Option InitialBundleContext) : Prop :=
  ∀ id, context.bind InitialBundleContext.oneTimePreKeyId = some id →
    bundle.oneTimePreKey.map PublicOneTimePreKey.keyId = some id

/-- Before `bob` has taken a message, his store can still use the bundle, and every message with
sequence number `0` carries the id of its one-time prekey. -/
structure AwaitingFirst (P : Primitives B S) (E : Entropy B) (bundle : PreKeyBundle S)
    (ep : Nat → Epoch B S) (s : SessionRecord B S) (w : World B S) : Prop where
  opening : Opening P E .alice bundle ep s w
  usable : UsableBundle (w.store .bob) bundle
  sessionId : s.oneTimePreKeyId = bundle.oneTimePreKey.map PublicOneTimePreKey.keyId
  carried : ∀ f ∈ w.flights, f.message.sequenceNumber = 0 →
    f.message.oneTimePreKeyId = bundle.oneTimePreKey.map PublicOneTimePreKey.keyId

variable {P : Primitives B S} {E : Entropy B} {bundle : PreKeyBundle S} {d count : Nat}
  {w : World B S}

omit [DecidableEq S] in
theorem carriedOneTimePreKeyId_of_right {s : SessionRecord B S}
    {context : Option InitialBundleContext} (hcontext : RightContext bundle context)
    (hs : s.oneTimePreKeyId = bundle.oneTimePreKey.map PublicOneTimePreKey.keyId)
    (hseq : s.sendSequenceNumber = 0) :
    carriedOneTimePreKeyId s context = bundle.oneTimePreKey.map PublicOneTimePreKey.keyId := by
  cases hid : context.bind InitialBundleContext.oneTimePreKeyId with
  | none => simp [carriedOneTimePreKeyId, hid, hseq, hs]
  | some id => simp [carriedOneTimePreKeyId, hid, hcontext id hid]

/-- Generating a bundle and initiating a session on it opens a conversation. -/
theorem awaitingFirst_of_start {w₁ w₂ : World B S} {s : SessionRecord B S} (hP : P.Lawful)
    (hE : E.Fresh P) (hw : Newcomers P w) (hids : E.ExportedIdUnique w.draws count)
    (hgen : w.generate .bob P E count = (.ok bundle, w₁))
    (hini : w₁.initiate .alice P E bundle = (.ok s, w₂)) :
    ∃ ep, AwaitingFirst P E bundle ep s w₂ := by
  obtain ⟨signatureHex, ep, rfl, hstore, hotk, hflights, hopen, -⟩ :=
    hw.opening hP hE hgen hini
  refine ⟨ep, hopen, ?_, hotk, ?_⟩
  · rw [hstore]
    exact usableBundle_withBundle P E hw.noSignedPreKeys hids
  · intro f hf
    rw [hflights] at hf
    cases hf

/-- Sealing before `bob`'s first message. -/
theorem AwaitingFirst.send {ep : Nat → Epoch B S} {s : SessionRecord B S}
    (h : AwaitingFirst P E bundle ep s w) (hP : P.Lawful) (hE : E.Fresh P) (p : Party)
    {plaintext : S}
    {context : Option InitialBundleContext}
    (htext : P.textDecode (P.textEncode plaintext) = plaintext)
    (hcontext : SealsFirst P w p → RightContext bundle context) :
    ∃ ep' s', AwaitingFirst P E bundle ep' s' (w.send p P E plaintext context) := by
  cases p with
  | bob =>
      rw [World.send_of_no_session w .bob P E h.opening.noSession]
      exact ⟨ep, s, h⟩
  | alice =>
      obtain ⟨m, s', hopen, hflights, hstore, hotk, hseq, -, -, hcarried⟩ :=
        h.opening.encrypt hP hE htext context
      refine ⟨_, s', hopen, hstore ▸ h.usable, hotk.trans h.sessionId, ?_⟩
      intro f hf hzero
      rw [hflights] at hf
      rcases List.mem_append.1 hf with hold | hnew
      · exact h.carried f hold hzero
      · rw [List.mem_singleton] at hnew
        subst hnew
        have hsend : s.sendSequenceNumber = 0 := by
          rw [hseq] at hzero
          exact_mod_cast hzero
        have hfirst : SealsFirst P w .alice :=
          ⟨rfl, h.opening.noSession, s, h.opening.session, hsend⟩
        rw [hcarried]
        exact carriedOneTimePreKeyId_of_right (hcontext hfirst) h.sessionId hsend

/-- The first delivery to `bob`. -/
theorem AwaitingFirst.deliver {ep : Nat → Epoch B S} {s : SessionRecord B S}
    (h : AwaitingFirst P E bundle ep s w) (hP : P.Lawful) (hE : E.Fresh P)
    {before after : List (Flight S)} {f : Flight S} (hw : w.flights = before ++ f :: after)
    (hf : Deliverable P w f) :
    ∃ w' ep' n' s', w.decryptAt f.sender.peer P E f.message = (.ok f.plaintext, w') ∧
      InSync P E ep' n' s' (w'.landed (before ++ after)) := by
  have hmem : f ∈ w.flights := hw ▸ List.mem_append_right _ List.mem_cons_self
  have hsender : f.sender = .alice := (h.opening.flights f hmem).1
  obtain ⟨hfirst, hlimit⟩ := hf
  rw [hsender] at hfirst hlimit ⊢
  obtain ⟨spk, hspk, hspkHex⟩ := h.usable.signedPreKey
  exact h.opening.deliver hP hE hw hspk hspkHex
    (h.usable.takesOneTimePreKey (h.carried f hmem (hfirst h.opening.noSession))) hlimit

/-- Every state of a conversation is before `bob`'s first message or has both sessions in step. -/
theorem Conversation.awaiting_or_inSync (hP : P.Lawful) (hE : E.Fresh P)
    (hids : E.ExportedIdUnique d count) (h : Conversation P E RightContext d count bundle w) :
    (∃ ep s, AwaitingFirst P E bundle ep s w) ∨ ∃ ep n s, InSync P E ep n s w := by
  induction h with
  | start hw hd hgen hini =>
      subst hd
      obtain ⟨ep, hep⟩ := awaitingFirst_of_start hP hE hw hids hgen hini
      exact Or.inl ⟨ep, _, hep⟩
  | encrypt p _ htext hcontext ih =>
      rcases ih with ⟨ep, s, hwait⟩ | ⟨ep, n, s, hsync⟩
      · exact Or.inl (hwait.send hP hE p htext hcontext)
      · obtain ⟨m, s', hsync', -⟩ := hsync.encrypt hP hE p htext _
        exact Or.inr ⟨_, n, s', hsync'⟩
  | deliver _ hw hf ih =>
      rcases ih with ⟨ep, s, hwait⟩ | ⟨ep, n, s, hsync⟩
      · obtain ⟨w', ep', n', s', hrun, hsync⟩ := hwait.deliver hP hE hw hf
        rw [hrun]
        exact Or.inr ⟨ep', n', s', hsync⟩
      · obtain ⟨w', ep', n', s', hrun, hsync'⟩ := hsync.deliver hP hE hw hf.limit
        rw [hrun]
        exact Or.inr ⟨ep', n', s', hsync'⟩

/-- Every delivery within the skip limit returns the plaintext, in every state of a conversation. -/
theorem Conversation.decrypt_returns_plaintext (hP : P.Lawful) (hE : E.Fresh P)
    (hids : E.ExportedIdUnique d count) (h : Conversation P E RightContext d count bundle w)
    {f : Flight S} (hf : f ∈ w.flights) (hdel : Deliverable P w f) :
    (w.decryptAt f.sender.peer P E f.message).1 = .ok f.plaintext := by
  obtain ⟨before, after, hw⟩ := List.append_of_mem hf
  rcases h.awaiting_or_inSync hP hE hids with ⟨ep, s, hwait⟩ | ⟨ep, n, s, hsync⟩
  · obtain ⟨w', ep', n', s', hrun, -⟩ := hwait.deliver hP hE hw hdel
    rw [hrun]
  · obtain ⟨w', ep', n', s', hrun, -⟩ := hsync.deliver hP hE hw hdel.limit
    rw [hrun]

/-! ## Acts of a conversation -/

variable (P) in
/-- The act is one of a conversation. -/
def World.Converses (w : World B S) : Act S → Prop
  | .send _ plaintext => P.textDecode (P.textEncode plaintext) = plaintext
  | .deliver place => ∀ f ∈ w.flights[place]?, Deliverable P w f

theorem Conversation.act (h : Conversation P E RightContext d count bundle w) {a : Act S}
    (ha : w.Converses P a) : Conversation P E RightContext d count bundle (w.act P E a) := by
  cases a with
  | send p plaintext => exact .encrypt p h ha fun _ id hid => by cases hid
  | deliver place =>
      simp only [World.act]
      cases hf : w.flights[place]? with
      | none => exact h
      | some f => exact .deliver h (World.flights_split hf) (ha f hf)

instance (f : Flight S) : Decidable (Deliverable P w f) :=
  decidable_of_iff
    (((w.session f.sender.peer P).isNone = true → f.message.sequenceNumber = 0) ∧
      WithinSkipLimit P (w.session f.sender.peer P) f.message)
    ⟨fun h => ⟨fun hnone => h.1 (by rw [hnone]; rfl), h.2⟩,
      fun h => ⟨fun hnone => h.first (Option.isNone_iff_eq_none.1 hnone), h.limit⟩⟩

instance (w : World B S) : (a : Act S) → Decidable (w.Converses P a)
  | .send _ plaintext =>
      inferInstanceAs (Decidable (P.textDecode (P.textEncode plaintext) = plaintext))
  | .deliver place =>
      inferInstanceAs (Decidable (∀ f ∈ w.flights[place]?, Deliverable P w f))

/-! ## Runs on symbolic terms -/

open TorE2EE.Crypto.Sym

/-- `alice` has sent her first message on `bob`'s first bundle. -/
def symbolicSent (E : Entropy Sym) (count : Nat) (context : Option InitialBundleContext) :
    World Sym Sym :=
  (symbolicInitiated E count).send .alice symbolic E (text "hello") context

theorem newcomers_symbolicWorld : Newcomers symbolic symbolicWorld where
  toStrangers := strangers_symbolicWorld
  noSignedPreKeys := rfl

theorem conversation_symbolicInitiated {E : Entropy Sym} {count : Nat}
    {contexts : PreKeyBundle Sym → Option InitialBundleContext → Prop}
    (hgen : (symbolicWorld.generate .bob symbolic E count).1 = .ok (symbolicBundle E count))
    (hini : ((symbolicGenerated E count).initiate .alice symbolic E
      (symbolicBundle E count)).1.isOk = true) :
    Conversation symbolic E contexts 0 count (symbolicBundle E count)
      (symbolicInitiated E count) := by
  obtain ⟨s, hs⟩ := exists_ok_of_isOk hini
  exact .start newcomers_symbolicWorld rfl (Prod.ext hgen rfl) (Prod.ext hs rfl)

theorem conversation_symbolicSent {E : Entropy Sym} {count : Nat}
    (context : Option InitialBundleContext)
    {contexts : PreKeyBundle Sym → Option InitialBundleContext → Prop}
    (hgen : (symbolicWorld.generate .bob symbolic E count).1 = .ok (symbolicBundle E count))
    (hini : ((symbolicGenerated E count).initiate .alice symbolic E
      (symbolicBundle E count)).1.isOk = true)
    (hcontext : contexts (symbolicBundle E count) context) :
    Conversation symbolic E contexts 0 count (symbolicBundle E count)
      (symbolicSent E count context) :=
  .encrypt .alice (conversation_symbolicInitiated hgen hini) rfl fun _ => hcontext

theorem deliverable_of_first {f : Flight S} (hnone : (w.session f.sender.peer P).isNone = true)
    (hseq : f.message.sequenceNumber = 0) : Deliverable P w f where
  first _ := hseq
  limit := by
    rw [Option.isNone_iff_eq_none.1 hnone]
    show f.message.sequenceNumber ≤ _
    rw [hseq]
    decide

/-- `alice` seals three messages and `bob` takes the third before the second; he answers twice and
`alice` takes the second answer first; of her next two messages the first does not arrive. -/
def symbolicTraffic : List (Act Sym) :=
  [.send .alice (text "one"), .send .alice (text "two"), .send .alice (text "three"),
    .deliver 0, .deliver 1, .send .bob (text "four"), .send .bob (text "five"), .deliver 2,
    .send .alice (text "six"), .send .alice (text "seven"), .deliver 3]

/-- The two parties after that traffic. -/
def symbolicTalk : World Sym Sym :=
  symbolicTraffic.foldl (World.act symbolic symbolicEntropy) (symbolicInitiated symbolicEntropy 1)

/-- Every message still under way opens, the ones of chains long left included. -/
theorem decrypt_returns_late_messages :
    symbolicTalk.flights.map Flight.plaintext = [text "two", text "four", text "six"] ∧
      ∀ f ∈ symbolicTalk.flights,
        (symbolicTalk.decryptAt f.sender.peer symbolic symbolicEntropy f.message).1 =
          .ok f.plaintext := by
  have hstart : Conversation symbolic symbolicEntropy RightContext 0 1
      (symbolicBundle symbolicEntropy 1) (symbolicInitiated symbolicEntropy 1) :=
    conversation_symbolicInitiated (by decide) (by decide)
  have hacts : (symbolicInitiated symbolicEntropy 1).AllowsAll symbolic symbolicEntropy
      (World.Converses symbolic) symbolicTraffic := by
    decide +kernel
  have htalk : Conversation symbolic symbolicEntropy RightContext 0 1
      (symbolicBundle symbolicEntropy 1) symbolicTalk :=
    hacts.preserves (fun w a hw ha => hw.act ha) hstart
  have hids : symbolicEntropy.ExportedIdUnique 0 1 := fun j hj => absurd hj (by omega)
  have hdeliverable : ∀ f ∈ symbolicTalk.flights, Deliverable symbolic symbolicTalk f := by
    decide +kernel
  refine ⟨by decide +kernel, ?_⟩
  intro f hf
  exact htalk.decrypt_returns_plaintext symbolic_lawful (fresh_of_secretKey rfl rfl) hids hf
    (hdeliverable f hf)

/-- Entropy that draws one id again and again. -/
def repeatingEntropy : Entropy Sym := { symbolicEntropy with randomId := fun _ => 7 }

/-- Without the two conditions a delivery can fail: when a later one-time prekey of the same call
replaces the exported one, and when a caller names another one-time prekey. -/
theorem conversation_can_break :
    (symbolic.Lawful ∧ repeatingEntropy.Fresh symbolic ∧ symbolicEntropy.Fresh symbolic) ∧
    (∃ bundle w f, Conversation symbolic repeatingEntropy RightContext 0 2 bundle w ∧
      f ∈ w.flights ∧ Deliverable symbolic w f ∧
      (w.decryptAt f.sender.peer symbolic repeatingEntropy f.message).1 =
        .error .decryptionFailed) ∧
    ∃ bundle w f, Conversation symbolic symbolicEntropy (fun _ _ => True) 0 1 bundle w ∧
      f ∈ w.flights ∧ Deliverable symbolic w f ∧
      (w.decryptAt f.sender.peer symbolic symbolicEntropy f.message).1 =
        .error .decryptionFailed := by
  refine ⟨⟨symbolic_lawful, fresh_of_secretKey rfl rfl, fresh_of_secretKey rfl rfl⟩, ?_, ?_⟩
  · refine ⟨_, _, _, conversation_symbolicSent none (by decide) (by decide)
      (fun id hid => by cases hid), List.head_mem (by decide),
      deliverable_of_first (by decide) (by decide), by decide⟩
  · refine ⟨_, _, _, conversation_symbolicSent
      (some { oneTimePreKeyId := some 999 }) (by decide) (by decide) trivial,
      List.head_mem (by decide), deliverable_of_first (by decide) (by decide), by decide⟩

end TorE2EE.Crypto
