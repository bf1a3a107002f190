import TorE2EE.Crypto.FirstContact
import TorE2EE.Crypto.Symbolic
import Mathlib.Logic.Relation

/-!
# Bundles that outlive their keys

A bundle names one signed prekey and one one-time prekey, but a responder always takes its latest
signed prekey, and a one-time prekey only once.

* `exported_bundle_opens_iff`: after any number of further `generatePreKeyBundle` calls, a first
  message on a bundle opens exactly when the store can still use the bundle.
* `shared_bundle_serves_iff`: of several initiators of one bundle with a one-time prekey, all are
  served exactly when at most one message arrives and the store can use the bundle.
-/

set_option autoImplicit false

namespace TorE2EE.Crypto

open TorE2EE.Foundation

variable {B S : Type}

/-! ## Usable bundles and first messages -/

/-- For a message that carries the id of the bundle's one-time prekey, a responder uses the keys of
the bundle exactly when the bundle is usable. -/
theorem bundleKeysTaken_iff_usable (st : SignalStore B S) {bundle : PreKeyBundle S}
    {m : EncryptedMessage S} (hik : bundle.identityKeyHex = st.identity.encryptionKey.publicKeyHex)
    (hm : m.oneTimePreKeyId = bundle.oneTimePreKey.map PublicOneTimePreKey.keyId) :
    BundleKeysTaken st bundle m ↔ UsableBundle st bundle := by
  constructor
  · rintro ⟨hspk, hotk⟩
    refine ⟨hik, hspk, ?_⟩
    intro otk hsome
    rw [TakesBundleOneTimePreKey, hm, hsome] at hotk
    obtain ⟨opk, hget, hhex⟩ := Option.map_eq_some_iff.1 hotk
    exact ⟨opk, hget, hhex⟩
  · exact fun h => ⟨h.signedPreKey, h.takesOneTimePreKey hm⟩

variable [DecidableEq S]

/-! ## Further bundles -/

/-- `p` calls `generatePreKeyBundle` any number of times. -/
def Generates (P : Primitives B S) (E : Entropy B) (p : Party) : World B S → World B S → Prop :=
  Relation.ReflTransGen fun w w' => ∃ count, w' = (w.generate p P E count).2

variable {P : Primitives B S} {E : Entropy B} {bundle : PreKeyBundle S} {p : Party}
  {w w' : World B S}

theorem Generates.keepsSessions (hE : E.Fresh P) (h : Generates P E p w w') :
    KeepsSessions P p w w' := by
  induction h with
  | refl => exact .refl w
  | tail _ hstep ih =>
      obtain ⟨count, rfl⟩ := hstep
      exact ih.trans (keepsSessions_generate hE _ p count)

omit [DecidableEq S] in
theorem Strangers.keepsSessions (h : Strangers P w) (hw : KeepsSessions P .bob w w') :
    Strangers P w' where
  alice := by
    rw [hw.identity_eq]
    exact h.alice
  bob := hw.wellFormed h.bob
  noSession := by rw [hw.session_eq, h.noSession]
  noFlights := by rw [hw.flights, h.noFlights]

/-- `bob` exports a bundle, generates further ones, `alice` initiates a session on the bundle and
sends her first message, with any number of further bundles in between: the message opens exactly
when `bob`'s latest signed prekey is still the bundle's and the one-time prekey under the bundle's
id is still the bundle's. -/
theorem exported_bundle_opens_iff {w₁ w₂ w₃ w₄ w₅ : World B S} {count : Nat}
    {s : SessionRecord B S} {plaintext : S} {f : Flight S} (hP : P.Lawful) (hfree : P.FreeTerms)
    (hE : E.Fresh P) (hw : Strangers P w) (hgen : w.generate .bob P E count = (.ok bundle, w₁))
    (hw₂ : Generates P E .bob w₁ w₂) (hini : w₂.initiate .alice P E bundle = (.ok s, w₃))
    (hw₄ : Generates P E .bob w₃ w₄) (htext : P.textDecode (P.textEncode plaintext) = plaintext)
    (hw₅ : Generates P E .bob (w₄.send .alice P E plaintext none) w₅) (hf : f ∈ w₅.flights) :
    (w₅.decryptAt .bob P E f.message).1 = .ok f.plaintext ↔
      UsableBundle (w₅.store .bob) bundle := by
  obtain ⟨signatureHex, hbundle, hw₁⟩ := w.generate_ok .bob P E hgen
  have hkeep₁ : KeepsSessions P .bob w w₁ := by
    have := keepsSessions_generate hE w .bob count
    rwa [hgen] at this
  have hkeep₂ : KeepsSessions P .bob w w₂ := hkeep₁.trans (hw₂.keepsSessions hE)
  have hstrangers : Strangers P w₂ := hw.keepsSessions hkeep₂
  have hkey : bundle.identityKeyHex = w₂.identityKeyHex .bob := by
    rw [World.identityKeyHex, hkeep₂.identity_eq, hbundle]
    rfl
  -- the keys of the bundle were drawn before the initiator drew its own
  have hdraw : w.draws < w₂.draws := by
    refine Nat.lt_of_lt_of_le ?_ (hw₂.keepsSessions hE).draws
    rw [hw₁]
    show w.draws < w.draws + 3 + 2 * count
    omega
  obtain ⟨hw₃, hotk, ep, hopen, hsent⟩ := opening_of_initiate .alice hP hE hstrangers.alice
    hstrangers.bob hstrangers.noSession hstrangers.noFlights hkey hdraw (by rw [hbundle]; rfl) hini
  have hopen₄ := hopen.keepsSessions (hw₄.keepsSessions hE)
  obtain ⟨m, s', hopen', hflights, -, -, hseq, -, -, hcarried⟩ := hopen₄.encrypt hP hE htext none
  have hkeep₅ := hw₅.keepsSessions hE
  have hopen₅ := hopen'.keepsSessions hkeep₅
  have hnone : w₄.flights = [] := by
    rw [(hw₄.keepsSessions hE).flights, hw₃]
    exact hstrangers.noFlights
  rw [hkeep₅.flights, hflights, hnone, List.nil_append, List.mem_singleton] at hf
  subst hf
  have hmem : ({ sender := .alice, plaintext, message := m } : Flight S) ∈ w₅.flights := by
    rw [hkeep₅.flights, hflights]
    exact List.mem_append_right _ (List.mem_singleton.2 rfl)
  -- the first message carries the one-time prekey of the bundle, since nothing was sealed before it
  have hstart : s.sendSequenceNumber = 0 := hopen.synced.sent.trans hsent
  have hmid : m.oneTimePreKeyId = bundle.oneTimePreKey.map PublicOneTimePreKey.keyId := by
    rw [hcarried, ← hotk]
    simp [carriedOneTimePreKeyId, hstart]
  obtain ⟨-, i, hm⟩ := hopen₅.flights _ hmem
  have hcanonical : bundle.Canonical P := by
    rw [hbundle]
    exact exportedBundle_canonical _ _ _ _
  rw [← bundleKeysTaken_iff_usable (w₅.store .bob) hopen₅.identityKey hmid]
  constructor
  · intro hout
    exact hopen₅.initiated.keysTaken_of_decrypt_ok hP hfree hE hcanonical (w₅.host .bob)
      hopen₅.responder hopen₅.noSession hm hout
  · intro hkeys
    have hlimit : i ≤ maxSkipMessages := by
      have hi := hm.sealedAt.sequence
      rw [show ({ sender := .alice, plaintext, message := m } : Flight S).message = m from rfl,
        hseq, hstart] at hi
      omega
    obtain ⟨s₀, s₁, draws, hrun⟩ := hopen₅.initiated.decrypt_ok hP hE (w₅.host .bob)
      hopen₅.responder hopen₅.identityKey hopen₅.noSession hm hkeys hlimit
    exact congrArg Prod.fst hrun

/-- `alice` has sent her first message on `bob`'s first bundle, which he followed up with `further`
other bundles first. -/
def symbolicLate (further : List Nat) : World Sym Sym :=
  let generated := further.foldl
    (fun w count => (w.generate .bob symbolic symbolicEntropy count).2)
    (symbolicGenerated symbolicEntropy 1)
  let initiated :=
    (generated.initiate .alice symbolic symbolicEntropy (symbolicBundle symbolicEntropy 1)).2
  initiated.send .alice symbolic symbolicEntropy (.text "hello") none

/-- `bob` can use the bundle when her message arrives, and can no longer when he has generated another
one in the meantime. -/
theorem exported_bundle_opens_iff_symbolic :
    UsableBundle ((symbolicLate []).store .bob) (symbolicBundle symbolicEntropy 1) ∧
      ¬ UsableBundle
        (((symbolicLate []).generate .bob symbolic symbolicEntropy 2).2.store .bob)
        (symbolicBundle symbolicEntropy 1) := by
  have hmem := List.head_mem (l := (symbolicLate []).flights) (by decide)
  have hgen : (symbolicWorld.generate .bob symbolic symbolicEntropy 1).1 =
      .ok (symbolicBundle symbolicEntropy 1) := by decide
  obtain ⟨s, hs⟩ := exists_ok_of_isOk (r := ((symbolicGenerated symbolicEntropy 1).initiate .alice
    symbolic symbolicEntropy (symbolicBundle symbolicEntropy 1)).1) (by decide)
  have hiff (w₅ : World Sym Sym)
      (hw₅ : Generates symbolic symbolicEntropy .bob (symbolicLate []) w₅)
      (hf : (symbolicLate []).flights.head (by decide) ∈ w₅.flights) :=
    exported_bundle_opens_iff symbolic_lawful symbolic_freeTerms (fresh_of_secretKey rfl rfl)
      strangers_symbolicWorld (Prod.ext hgen rfl) .refl (Prod.ext hs rfl) .refl rfl hw₅ hf
  constructor
  · exact (hiff _ .refl hmem).1 (by decide)
  · intro husable
    have hopened := (hiff _ (.single ⟨2, rfl⟩) hmem).2 husable
    exact absurd hopened (by decide)

/-- One further bundle, and the first message on the one exported before it is not opened. -/
theorem exported_bundle_not_opened :
    ∃ bundle w w₁ w₂ w₃ s, ∃ f : Flight Sym, Strangers symbolic w ∧
      w.generate .bob symbolic symbolicEntropy 1 = (.ok bundle, w₁) ∧
      Generates symbolic symbolicEntropy .bob w₁ w₂ ∧
      w₂.initiate .alice symbolic symbolicEntropy bundle = (.ok s, w₃) ∧
      f ∈ (w₃.send .alice symbolic symbolicEntropy (.text "hello") none).flights ∧
      ((w₃.send .alice symbolic symbolicEntropy (.text "hello") none).decryptAt .bob symbolic
        symbolicEntropy f.message).1 = .error .decryptionFailed := by
  have hgen : (symbolicWorld.generate .bob symbolic symbolicEntropy 1).1 =
      .ok (symbolicBundle symbolicEntropy 1) := by decide
  obtain ⟨s, hs⟩ := exists_ok_of_isOk (r := (((symbolicGenerated symbolicEntropy 1).generate .bob
    symbolic symbolicEntropy 1).2.initiate .alice symbolic symbolicEntropy
      (symbolicBundle symbolicEntropy 1)).1) (by decide)
  exact ⟨_, symbolicWorld, _, _, _, s, _, strangers_symbolicWorld, Prod.ext hgen rfl,
    .single ⟨1, rfl⟩, Prod.ext hs rfl, List.head_mem (l := (symbolicLate [1]).flights) (by decide),
    by decide⟩

/-! ## Several initiators of one bundle -/

/-- A party that imports the bundle: its store, the draw number at which it does so, and the
plaintext of its first message. -/
structure Initiator (B S : Type) where
  store : SignalStore B S
  draws : Nat
  plaintext : S

namespace Initiator

variable (a : Initiator B S) (P : Primitives B S) (E : Entropy B) (bundle : PreKeyBundle S)

/-- `initiateSession` on the bundle and `encrypt` of the first message. -/
def firstMessage : Except (EngineError S) (EncryptedMessage S) :=
  ((initiateSession P bundle.identityKeyHex bundle >>= fun _ =>
    encrypt P bundle.identityKeyHex a.plaintext none).run P E
    { store := a.store, draws := a.draws }).1

omit [DecidableEq S] in
/-- The identity key under which the responder keeps its session with the initiator. -/
def identityKeyHex : S := a.store.identity.encryptionKey.publicKeyHex

end Initiator

/-- A first message as it reaches the responder. -/
structure Arrival (B S : Type) where
  initiator : Initiator B S
  message : EncryptedMessage S

namespace Arrival

variable (a : Arrival B S) (P : Primitives B S) (E : Entropy B) (bundle : PreKeyBundle S)

/-- The responder decrypts the message under the initiator's identity key. -/
def receive (h : Host B S) : Except (EngineError S) S × Host B S :=
  (decrypt P a.initiator.identityKeyHex a.message).run P E h

/-- Both sides derive one master secret. -/
def SameMasterSecret (h : Host B S) : Prop :=
  ∃ dhAll dhAll' initialDh initialDh',
    InitiatorInputs P a.initiator.store.identity bundle (keyPairOf P (E.secretKey a.initiator.draws))
      dhAll initialDh ∧
    ResponderInputs P h.store a.message dhAll' initialDh' ∧
    masterSecret P dhAll = masterSecret P dhAll'

/-- The arrival is served: its message is opened, and where the two sides do not use the same
one-time prekey they derive one master secret all the same, or no session is created. -/
structure Served (h : Host B S) : Prop where
  opened : (a.receive P E h).1 = .ok a.initiator.plaintext
  agreed : ¬ TakesBundleOneTimePreKey h.store bundle a.message →
    a.SameMasterSecret P E bundle h ∨
      (a.receive P E h).2.store.getSession P a.initiator.identityKeyHex = none

/-- Every arrival is served in turn. -/
def ServedAll : Host B S → List (Arrival B S) → Prop
  | _, [] => True
  | h, a :: rest => a.Served P E bundle h ∧ ServedAll (a.receive P E h).2 rest

end Arrival

/-- The arrival is the first message of an initiator that imported the bundle drawn at `d`. -/
structure Arrival.Genuine (P : Primitives B S) (E : Entropy B) (bundle : PreKeyBundle S) (d : Nat)
    (a : Arrival B S) : Prop where
  identity : a.initiator.store.identity.encryptionKey.WellFormed P
  later : d < a.initiator.draws
  text : P.textDecode (P.textEncode a.initiator.plaintext) = a.initiator.plaintext
  message : a.initiator.firstMessage P E bundle = .ok a.message

/-- A first message is an opening message that carries the id of the bundle's one-time prekey. -/
theorem Arrival.Genuine.openingMessage {a : Arrival B S} {d : Nat}
    (h : a.Genuine P E bundle d) (hP : P.Lawful) (hE : E.Fresh P)
    (hspk : bundle.signedPreKey.publicKeyHex = (keyPairOf P (E.secretKey d)).publicKeyHex) :
    ∃ ep, Initiated P a.initiator.store.identity.encryptionKey bundle ep ∧
      OpeningMessage P a.initiator.store.identity.encryptionKey ep 0 a.initiator.plaintext
        a.message ∧
      a.message.oneTimePreKeyId = bundle.oneTimePreKey.map PublicOneTimePreKey.keyId := by
  have hmessage := h.message
  rw [Initiator.firstMessage] at hmessage
  rcases hinit : (initiateSession P bundle.identityKeyHex bundle).run P E
      { store := a.initiator.store, draws := a.initiator.draws } with ⟨r, h'⟩
  cases r with
  | error e =>
      have hrun := Program.run_bind_of_error (EngineOp.handle P E) hinit
        fun _ => encrypt P bundle.identityKeyHex a.initiator.plaintext none
      cases (congrArg Prod.fst hrun).symm.trans hmessage
  | ok s =>
      obtain ⟨rfl, hotk, ep, hep, hsync, -, -, hsent⟩ :=
        run_initiateSession_initiated hP hE h.identity h.later hspk hinit
      obtain ⟨m, s', henc, -, hsealed, -, -, -, hidentity, hephemeral, hcarried⟩ :=
        hsync.run_encrypt bundle.identityKeyHex
          (h := { store := a.initiator.store.saveSession P bundle.identityKeyHex s
                  draws := a.initiator.draws + 3 })
          (SignalStore.getSession_saveSession_self P _ _ _) hP hE hep.ladder Nat.zero_lt_one h.text
          none
      have hrun := Program.run_bind_of_ok (EngineOp.handle P E) hinit
        fun _ => encrypt P bundle.identityKeyHex a.initiator.plaintext none
      have hm : m = a.message :=
        Except.ok.inj (((congrArg Prod.fst (hrun.trans henc)).symm).trans hmessage)
      subst hm
      rw [show (ep (0 + 1)).sent = 0 from hsent] at hsealed
      have hstart : s.sendSequenceNumber = 0 := hsync.sent.trans hsent
      refine ⟨sealInEpoch ep 1, hep.sealing, ⟨hsealed, hidentity, hephemeral⟩, ?_⟩
      rw [hcarried, ← hotk]
      simp [carriedOneTimePreKeyId, hstart]

/-- A responder that keeps no session with the initiators yet serves all of them exactly when at
most one arrives and the bundle is usable for it. -/
theorem servedAll_iff {h : Host B S} {d : Nat} (hP : P.Lawful) (hfree : P.FreeTerms)
    (hE : E.Fresh P) (hwf : h.store.WellFormed P)
    (hik : bundle.identityKeyHex = h.store.identity.encryptionKey.publicKeyHex)
    (hspk : bundle.signedPreKey.publicKeyHex = (keyPairOf P (E.secretKey d)).publicKeyHex)
    (hcanonical : bundle.Canonical P) (hotk : bundle.oneTimePreKey ≠ none)
    {arrivals : List (Arrival B S)} (hgenuine : ∀ a ∈ arrivals, a.Genuine P E bundle d)
    (hnew : ∀ a ∈ arrivals, h.store.getSession P a.initiator.identityKeyHex = none)
    (hdistinct : arrivals.Pairwise fun a b =>
      P.toLowerCase b.initiator.identityKeyHex ≠ P.toLowerCase a.initiator.identityKeyHex) :
    Arrival.ServedAll P E bundle h arrivals ↔
      arrivals = [] ∨ ∃ a, arrivals = [a] ∧ UsableBundle h.store bundle := by
  cases arrivals with
  | nil => simp [Arrival.ServedAll]
  | cons a rest =>
      obtain ⟨ep, hep, hm, hmid⟩ := (hgenuine a List.mem_cons_self).openingMessage hP hE hspk
      have hnone := hnew a List.mem_cons_self
      constructor
      · rintro ⟨hserved, hrest⟩
        have hkeys := hep.keysTaken_of_decrypt_ok hP hfree hE hcanonical h hwf hnone hm
          hserved.opened
        cases rest with
        | nil => exact Or.inr ⟨a, rfl, (bundleKeysTaken_iff_usable _ hik hmid).1 hkeys⟩
        | cons b rest =>
            -- the one-time prekey went with the first arrival
            exfalso
            obtain ⟨s₀, s₁, draws, hrun⟩ :=
              hep.decrypt_ok hP hE h hwf hik hnone hm hkeys (Nat.zero_le _)
            have hafter := congrArg Prod.snd hrun
            have hservedB := hrest.1
            rw [show (a.receive P E h).2 = _ from hafter] at hservedB
            have hb : b ∈ a :: b :: rest := List.mem_cons_of_mem _ List.mem_cons_self
            have hne := (List.pairwise_cons.1 hdistinct).1 b List.mem_cons_self
            obtain ⟨ep', hep', hm', hmid'⟩ := (hgenuine b hb).openingMessage hP hE hspk
            have hnoneB : (((h.store.withoutNamed a.message.oneTimePreKeyId).saveSession P
                a.initiator.identityKeyHex s₀).saveSession P a.initiator.identityKeyHex
                s₁).getSession P b.initiator.identityKeyHex = none := by
              rw [SignalStore.getSession_saveSession_of_ne P _ hne,
                SignalStore.getSession_saveSession_of_ne P _ hne,
                SignalStore.getSession_withoutNamed]
              exact hnew b hb
            have hwf' := hwf.withoutNamed a.message.oneTimePreKeyId
            have hkeysB := hep'.keysTaken_of_decrypt_ok hP hfree hE hcanonical _
              ⟨hwf'.identity, hwf'.signedPreKeys, hwf'.oneTimePreKeys⟩ hnoneB hm' hservedB.opened
            obtain ⟨otk, hsome⟩ := Option.ne_none_iff_exists'.1 hotk
            have htaken := hkeysB.oneTimePreKey
            rw [TakesBundleOneTimePreKey, hmid', hmid, hsome] at htaken
            simp [SignalStore.namedOneTimePreKey,
              SignalStore.getOneTimePreKey_withoutNamed_self] at htaken
      · rintro (hnil | ⟨a', heq, husable⟩)
        · cases hnil
        · cases heq
          have hkeys := (bundleKeysTaken_iff_usable _ hik hmid).2 husable
          obtain ⟨s₀, s₁, draws, hrun⟩ :=
            hep.decrypt_ok hP hE h hwf hik hnone hm hkeys (Nat.zero_le _)
          exact ⟨⟨congrArg Prod.fst hrun, fun hother => absurd hkeys.oneTimePreKey hother⟩, trivial⟩

/-- Of several initiators of one generated bundle with a one-time prekey, all are served exactly
when none arrives, or only one does and the store can use the bundle. -/
theorem shared_bundle_serves_iff {h₀ h : Host B S} {count : Nat} (hP : P.Lawful)
    (hfree : P.FreeTerms) (hE : E.Fresh P) (hwf : h₀.store.WellFormed P)
    (hgen : (generatePreKeyBundle P count).run P E h₀ = (.ok bundle, h))
    (hotk : bundle.oneTimePreKey ≠ none) {arrivals : List (Arrival B S)}
    (hgenuine : ∀ a ∈ arrivals, a.Genuine P E bundle h₀.draws)
    (hnew : ∀ a ∈ arrivals, h₀.store.getSession P a.initiator.identityKeyHex = none)
    (hdistinct : arrivals.Pairwise fun a b =>
      P.toLowerCase b.initiator.identityKeyHex ≠ P.toLowerCase a.initiator.identityKeyHex) :
    Arrival.ServedAll P E bundle h arrivals ↔
      arrivals = [] ∨ ∃ a, arrivals = [a] ∧ UsableBundle h.store bundle := by
  rcases run_generatePreKeyBundle_cases P E count h₀ with ⟨e, hfail⟩ | ⟨signatureHex, -, hok⟩
  · rw [hfail] at hgen
    cases hgen
  · rw [hok] at hgen
    cases hgen
    refine servedAll_iff hP hfree hE (hwf.withBundle hE _ _ _) ?_ rfl
      (exportedBundle_canonical _ _ _ _) hotk hgenuine ?_ hdistinct
    · rw [SignalStore.identity_withBundle]
      rfl
    · intro a ha
      rw [SignalStore.getSession_withBundle]
      exact hnew a ha

/-- A party with an empty store that imports `bob`'s first bundle at a draw number. -/
def symbolicInitiator (identity draws : Nat) : Initiator Sym Sym where
  store := SignalStore.empty (symbolicIdentity identity)
  draws
  plaintext := .text "hello"

/-- Its first message. -/
def symbolicFirst (identity draws : Nat) : Except (EngineError Sym) (EncryptedMessage Sym) :=
  (symbolicInitiator identity draws).firstMessage symbolic symbolicEntropy
    (symbolicBundle symbolicEntropy 1)

/-- Its first message on the way to `bob`. -/
def symbolicArrival (identity draws : Nat) (h : (symbolicFirst identity draws).isOk = true) :
    Arrival Sym Sym where
  initiator := symbolicInitiator identity draws
  message := okValue _ h

theorem symbolicArrival_genuine (identity draws : Nat)
    (h : (symbolicFirst identity draws).isOk = true) (hdraws : 0 < draws) :
    (symbolicArrival identity draws h).Genuine symbolic symbolicEntropy
      (symbolicBundle symbolicEntropy 1) 0 where
  identity := symbolicIdentity_wellFormed identity
  later := hdraws
  text := rfl
  message := okValue_spec _ h

theorem symbolicGenerated_run :
    (generatePreKeyBundle symbolic 1).run symbolic symbolicEntropy (symbolicWorld.host .bob) =
      (.ok (symbolicBundle symbolicEntropy 1), (symbolicGenerated symbolicEntropy 1).host .bob) := by
  have hgen : ((generatePreKeyBundle symbolic 1).run symbolic symbolicEntropy
      (symbolicWorld.host .bob)).1 = .ok (symbolicBundle symbolicEntropy 1) := by decide
  exact Prod.ext hgen rfl

theorem shared_bundle_serves_iff_symbolic :
    Arrival.ServedAll symbolic symbolicEntropy (symbolicBundle symbolicEntropy 1)
        ((symbolicGenerated symbolicEntropy 1).host .bob)
        [symbolicArrival 0 10 (by decide), symbolicArrival 1000 20 (by decide)] ↔
      [symbolicArrival 0 10 (by decide), symbolicArrival 1000 20 (by decide)] = [] ∨
        ∃ a, [symbolicArrival 0 10 (by decide), symbolicArrival 1000 20 (by decide)] = [a] ∧
          UsableBundle ((symbolicGenerated symbolicEntropy 1).host .bob).store
            (symbolicBundle symbolicEntropy 1) := by
  refine shared_bundle_serves_iff symbolic_lawful symbolic_freeTerms (fresh_of_secretKey rfl rfl)
    (symbolicStore_wellFormed 1) symbolicGenerated_run (by decide) ?_ ?_ (by decide)
  · intro a ha
    rcases List.mem_pair.1 ha with rfl | rfl
    · exact symbolicArrival_genuine 0 10 _ (by decide)
    · exact symbolicArrival_genuine 1000 20 _ (by decide)
  · intro a ha
    rfl

/-- The second of two initiators is not opened, though a session is created for it. -/
theorem shared_bundle_not_served :
    (symbolicArrival 0 10 (by decide)).Genuine symbolic symbolicEntropy
        (symbolicBundle symbolicEntropy 1) 0 ∧
      (symbolicArrival 1000 20 (by decide)).Genuine symbolic symbolicEntropy
        (symbolicBundle symbolicEntropy 1) 0 ∧
      ((symbolicArrival 0 10 (by decide)).receive symbolic symbolicEntropy
        ((symbolicGenerated symbolicEntropy 1).host .bob)).1 = .ok (.text "hello") ∧
      ((symbolicArrival 1000 20 (by decide)).receive symbolic symbolicEntropy
        ((symbolicArrival 0 10 (by decide)).receive symbolic symbolicEntropy
          ((symbolicGenerated symbolicEntropy 1).host .bob)).2).1 = .error .decryptionFailed ∧
      (((symbolicArrival 1000 20 (by decide)).receive symbolic symbolicEntropy
        ((symbolicArrival 0 10 (by decide)).receive symbolic symbolicEntropy
          ((symbolicGenerated symbolicEntropy 1).host .bob)).2).2.store.getSession symbolic
            (symbolicInitiator 1000 20).identityKeyHex).isSome = true ∧
      ¬ Arrival.ServedAll symbolic symbolicEntropy (symbolicBundle symbolicEntropy 1)
        ((symbolicGenerated symbolicEntropy 1).host .bob)
        [symbolicArrival 0 10 (by decide), symbolicArrival 1000 20 (by decide)] := by
  refine ⟨symbolicArrival_genuine 0 10 _ (by decide), symbolicArrival_genuine 1000 20 _ (by decide),
    by decide, by decide, by decide, ?_⟩
  rintro ⟨-, hsecond, -⟩
  exact absurd hsecond.opened (by decide)

end TorE2EE.Crypto
