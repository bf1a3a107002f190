import TorE2EE.Crypto.FirstContact
import TorE2EE.Crypto.Symbolic
import Mathlib.Data.List.Perm.Subperm

/-!
# The opening flight

`alice` seals any number of messages, at most `maxSkipMessages`, before she has an answer, and some
of them reach `bob` in some order. Only the message with sequence number `0` carries the one-time
prekey id, and `bob` derives the master secret from what the first arrival carries.
`openingFlight_delivered_iff` says exactly when every arrival is opened: when the first one makes
`bob` use the keys of the bundle.
-/

set_option autoImplicit false

namespace TorE2EE.Crypto

variable {B S : Type} [DecidableEq S] (P : Primitives B S) (E : Entropy B)

/-- `p` seals one message after another. -/
def World.sendAll (w : World B S) (p : Party) (calls : List (S × Option InitialBundleContext)) :
    World B S :=
  calls.foldl (fun w call => w.send p P E call.1 call.2) w

/-- The outcomes of delivering one message after another. -/
def World.deliverAll (w : World B S) : List (Flight S) → List (Except (EngineError S) S)
  | [] => []
  | f :: rest =>
      let delivered := w.decryptAt f.sender.peer P E f.message
      delivered.1 :: delivered.2.deliverAll rest

variable {P E} {ep : Nat → Epoch B S} {n : Party → Nat} {s : Party → SessionRecord B S}
  {session : SessionRecord B S} {ini : Party} {bundle : PreKeyBundle S} {w : World B S}

/-- A message of the first epoch asks for no skip of an old chain. -/
theorem withinSkipLimit_of_first_epoch {m : EncryptedMessage S} (hprev : m.previousChainLength = 0)
    (hseq : m.sequenceNumber ≤ maxSkipMessages) (held : Option (SessionRecord B S)) :
    WithinSkipLimit P held m := by
  cases held with
  | none => exact hseq
  | some s =>
      refine Or.inr ?_
      split
      · exact ⟨fun _ => by omega, hseq⟩
      · omega

/-- Sealing a list of messages keeps the opening; the number of messages sealed is counted. -/
theorem Opening.sendAll (h : Opening P E ini bundle ep session w) (hP : P.Lawful) (hE : E.Fresh P)
    (calls : List (S × Option InitialBundleContext))
    (htext : ∀ call ∈ calls, P.textDecode (P.textEncode call.1) = call.1) :
    ∃ ep' session', Opening P E ini bundle ep' session' (w.sendAll P E ini calls) ∧
      (w.sendAll P E ini calls).store ini.peer = w.store ini.peer ∧
      session'.sendSequenceNumber = session.sendSequenceNumber + calls.length := by
  induction calls generalizing ep session w with
  | nil => exact ⟨ep, session, h, rfl, rfl⟩
  | cons call calls ih =>
      obtain ⟨m, session₁, hopen, -, hstore, -, -, hcount, -⟩ :=
        h.encrypt hP hE (htext call List.mem_cons_self) call.2
      obtain ⟨ep', session', hopen', hstore', hcount'⟩ :=
        ih hopen fun c hc => htext c (List.mem_cons_of_mem _ hc)
      refine ⟨ep', session', hopen', hstore'.trans hstore, ?_⟩
      rw [hcount', hcount, List.length_cons]
      omega

omit [DecidableEq S] in
/-- The part of an opening that concerns some of the messages in flight. -/
theorem Opening.landed (h : Opening P E ini bundle ep session w) {order : List (Flight S)}
    (horder : order.Subperm w.flights) : Opening P E ini bundle ep session (w.landed order) where
  responder := h.responder
  identityKey := h.identityKey
  initiated := h.initiated
  drawn := h.drawn
  session := h.session
  synced := h.synced
  noSession := h.noSession
  flights f hf := h.flights f (List.Subperm.subset horder hf)
  unique := by
    obtain ⟨l, hperm, hsub⟩ := horder
    have hl := h.unique.sublist hsub
    exact (hperm.pairwise_iff fun hne => hne.symm).1 hl

/-- Sessions in step open what is in flight in any order, when no skip limit can be hit. -/
theorem InSync.deliverAll {order : List (Flight S)} (h : InSync P E ep n s (w.landed order))
    (hP : P.Lawful) (hE : E.Fresh P)
    (hlimit : ∀ f ∈ order, f.message.previousChainLength = 0 ∧
      f.message.sequenceNumber ≤ maxSkipMessages) :
    w.deliverAll P E order = order.map fun f => .ok f.plaintext := by
  induction order generalizing ep n s w with
  | nil => rfl
  | cons f rest ih =>
      obtain ⟨hprev, hseq⟩ := hlimit f List.mem_cons_self
      have hfirst : (w.landed (f :: rest)).flights = [] ++ f :: rest := rfl
      obtain ⟨w', ep', n', s', hrun, hsync⟩ := h.deliver hP hE hfirst
        (withinSkipLimit_of_first_epoch hprev hseq _)
      have hw' : (w.decryptAt f.sender.peer P E f.message).2.landed rest = w'.landed rest :=
        congrArg (fun r => World.landed r.2 rest) hrun
      have hout : (w.decryptAt f.sender.peer P E f.message).1 = .ok f.plaintext :=
        congrArg Prod.fst hrun
      have hrest : InSync P E ep' n' s'
          ((w.decryptAt f.sender.peer P E f.message).2.landed rest) := by
        rw [hw']
        exact hsync
      rw [World.deliverAll, List.map_cons, hout]
      exact congrArg _ (ih hrest fun g hg => hlimit g (List.mem_cons_of_mem _ hg))

/-- The opening flight is delivered whole exactly when the first arrival makes the responder use the
keys of the bundle. -/
theorem Opening.delivered_iff (h : Opening P E ini bundle ep session w) (hP : P.Lawful)
    (hfree : P.FreeTerms) (hE : E.Fresh P) (hbundle : bundle.Canonical P)
    (hcount : session.sendSequenceNumber ≤ maxSkipMessages) {order : List (Flight S)}
    (horder : order.Subperm w.flights) :
    w.deliverAll P E order = order.map (fun f => .ok f.plaintext) ↔
      ∀ f ∈ order.head?, BundleKeysTaken (w.store ini.peer) bundle f.message := by
  -- no chain came before the first, and the flight is too short to exceed the limit
  have hflight (f : Flight S) (hf : f ∈ order) : f.sender = ini ∧
      f.message.previousChainLength = 0 ∧ f.message.sequenceNumber ≤ maxSkipMessages := by
    obtain ⟨hsender, i, hm⟩ := h.flights f (List.Subperm.subset horder hf)
    refine ⟨hsender, ?_, ?_⟩
    · rw [hm.sealedAt.previous, h.initiated.ladder.first]
      rfl
    · have hi : i < (ep (0 + 1)).sent := hm.sealedAt.index
      rw [← h.synced.sent] at hi
      rw [hm.sealedAt.sequence]
      omega
  cases order with
  | nil => simp [World.deliverAll]
  | cons f rest =>
      obtain ⟨hsender, hprev, hseq⟩ := hflight f List.mem_cons_self
      obtain ⟨-, i, hm⟩ := h.flights f (List.Subperm.subset horder List.mem_cons_self)
      constructor
      · intro hall f' hf'
        cases hf'
        have hout : (w.decryptAt f.sender.peer P E f.message).1 = .ok f.plaintext :=
          (List.cons.inj hall).1
        rw [hsender] at hout
        exact h.initiated.keysTaken_of_decrypt_ok hP hfree hE hbundle (w.host ini.peer)
          h.responder h.noSession hm hout
      · intro hkeys
        obtain ⟨⟨spk, hspk, hspkHex⟩, hotk⟩ := hkeys f rfl
        -- the first arrival puts the sessions in step, and from then on every message opens
        have hopen := h.landed horder
        have hfirst : (w.landed (f :: rest)).flights = [] ++ f :: rest := rfl
        obtain ⟨w', ep', n', s', hrun, hsync⟩ := hopen.deliver hP hE hfirst hspk hspkHex
          hotk (withinSkipLimit_of_first_epoch hprev hseq _)
        rw [← hsender] at hrun
        have hw' : (w.decryptAt f.sender.peer P E f.message).2.landed rest = w'.landed rest :=
          congrArg (fun r => World.landed r.2 rest) hrun
        have hout : (w.decryptAt f.sender.peer P E f.message).1 = .ok f.plaintext :=
          congrArg Prod.fst hrun
        have hrest : InSync P E ep' n' s'
            ((w.decryptAt f.sender.peer P E f.message).2.landed rest) := by
          rw [hw']
          exact hsync
        rw [World.deliverAll, List.map_cons, hout]
        exact congrArg _ (hrest.deliverAll hP hE fun g hg =>
          (hflight g (List.mem_cons_of_mem _ hg)).2)

/-- `bob` generates a bundle, `alice` initiates a session on it and seals at most `maxSkipMessages`
messages, and some of them reach `bob` in some order: all of these are opened exactly when there is
none, or the first one makes `bob` use the bundle's signed prekey and one-time prekey. -/
theorem openingFlight_delivered_iff {w₁ w₂ : World B S} {count : Nat} (hP : P.Lawful)
    (hfree : P.FreeTerms) (hE : E.Fresh P) (hw : Strangers P w)
    (hgen : w.generate .bob P E count = (.ok bundle, w₁))
    (hini : w₁.initiate .alice P E bundle = (.ok session, w₂))
    (calls : List (S × Option InitialBundleContext)) (hcalls : calls.length ≤ maxSkipMessages)
    (htext : ∀ call ∈ calls, P.textDecode (P.textEncode call.1) = call.1)
    {order : List (Flight S)} (horder : order.Subperm (w₂.sendAll P E .alice calls).flights) :
    (w₂.sendAll P E .alice calls).deliverAll P E order = order.map (fun f => .ok f.plaintext) ↔
      ∀ f ∈ order.head?, BundleKeysTaken (w₂.store .bob) bundle f.message := by
  obtain ⟨signatureHex, ep, rfl, -, -, -, hopen, hsent⟩ := hw.opening hP hE hgen hini
  have hstart : session.sendSequenceNumber = 0 := hopen.synced.sent.trans hsent
  obtain ⟨ep', session', hopen', hstore, hcount⟩ := hopen.sendAll hP hE calls htext
  rw [← show (w₂.sendAll P E .alice calls).store .bob = w₂.store .bob from hstore]
  exact hopen'.delivered_iff hP hfree hE (exportedBundle_canonical _ _ _ _) (by omega) horder

/-! ## Runs on symbolic terms -/

open TorE2EE.Crypto.Sym

/-- `alice` has sealed two messages on `bob`'s first bundle. -/
def symbolicFlight : World Sym Sym :=
  (symbolicInitiated symbolicEntropy 1).sendAll symbolic symbolicEntropy .alice
    [(text "first", none), (text "second", none)]

theorem openingFlight_delivered_iff_symbolic :
    symbolicFlight.deliverAll symbolic symbolicEntropy symbolicFlight.flights =
        symbolicFlight.flights.map (fun f => .ok f.plaintext) ↔
      ∀ f ∈ symbolicFlight.flights.head?,
        BundleKeysTaken ((symbolicInitiated symbolicEntropy 1).store .bob)
          (symbolicBundle symbolicEntropy 1) f.message := by
  obtain ⟨s, hs⟩ := exists_ok_of_isOk (r := ((symbolicGenerated symbolicEntropy 1).initiate .alice
    symbolic symbolicEntropy (symbolicBundle symbolicEntropy 1)).1) (by decide)
  have hgen : (symbolicWorld.generate .bob symbolic symbolicEntropy 1).1 =
      .ok (symbolicBundle symbolicEntropy 1) := by decide
  exact openingFlight_delivered_iff symbolic_lawful symbolic_freeTerms (fresh_of_secretKey rfl rfl)
    strangers_symbolicWorld (Prod.ext hgen rfl) (Prod.ext hs rfl)
    [(text "first", none), (text "second", none)] (by decide) (by simp [symbolic, unutf8])
    (List.Subperm.refl _)

/-- The second message alone is not opened. -/
theorem openingFlight_not_delivered :
    ∃ order, order.Subperm symbolicFlight.flights ∧
      symbolicFlight.deliverAll symbolic symbolicEntropy order = [.error .decryptionFailed] :=
  ⟨symbolicFlight.flights.drop 1, (List.drop_sublist 1 _).subperm, by decide⟩

end TorE2EE.Crypto
