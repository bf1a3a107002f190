import TorE2EE.Client.Mirrors
import TorE2EE.Client.SymbolicRun
import TorE2EE.Crypto.Secrecy

/-!
# Any number of clients

A fleet is any number of clients, each with its database, its Signal store and its draws. They make
their calls in any order, on whatever envelopes and contact URIs come in. Beside the clients a fleet
keeps what the calls were given and have made: the texts that were to be sealed, the texts that were
opened, the bundles, and the answers to the relays.

`fleet_refines_network`: whatever the clients of a fleet do, the devices of a network do
(`Crypto.Network`), by steps that keep to the rules of the orchestrator.
-/

set_option autoImplicit false

namespace TorE2EE.Client

open TorE2EE.Foundation TorE2EE.Crypto

variable {M B S : Type} [DecidableEq M] [DecidableEq S]

/-- A text a client has opened, with its ciphertext. -/
structure Hearing (M S : Type) where
  receiver : M
  plaintext : S
  ciphertext : S
  deriving DecidableEq

/-- The clients, and what their calls were given and have made, the latest first. -/
structure Fleet (M B S : Type) where
  client : M → ClientState B S
  bundles : List (PreKeyBundle S)
  answers : List S
  written : List (Writing M S)
  heard : List (Hearing M S)

/-- A call of a client's interface, or the answer to a challenge of a relay. -/
inductive FleetStep (M S : Type) where
  | call (u : M) (a : ClientStep S)
  | answer (u : M) (nonceHex : S)

variable (P : Primitives B S) (L : ClientLibrary B S) (U : UntypedCalls B S)
  (D : Devices M B S) (N : M → Network)

namespace Fleet

/-- Clients that have stored nothing but their identities. -/
def empty : Fleet M B S :=
  { client := fun u => .empty (D.identity u)
    bundles := []
    answers := []
    written := []
    heard := [] }

/-- One step. `N` are the answers of the relay to each client. -/
def step (y : Fleet M B S) : FleetStep M S → Fleet M B S
  | .call u a =>
      let x := y.client u
      { client := Function.update y.client u (a.apply P L U (D.entropy u) (N u) x)
        bundles := (exportedBy P (D.entropy u) (N u) x a).toList ++ y.bundles
        answers := y.answers
        written := (writtenBy P L (D.entropy u) u x a).reverse ++ y.written
        heard :=
          ((heardBy P L U (D.entropy u) (N u) x a).map fun t => ⟨u, t.1, t.2⟩).toList ++ y.heard }
  | .answer u nonceHex =>
      match signChallenge P nonceHex (y.client u).host.store.identity.signingKey.secretKey with
      | .ok signatureHex => { y with answers := signatureHex :: y.answers }
      | .error _ => y

/-- The client has opened the text. -/
def Heard (y : Fleet M B S) (u : M) (plaintext ciphertext : S) : Prop :=
  ⟨u, plaintext, ciphertext⟩ ∈ y.heard

end Fleet

/-- What comes in has its declared shape, what is to be sealed keeps to `Q`, and no client hands out
its mnemonic. -/
def FleetStep.Regular (Q : M → S → S → Prop) (y : Fleet M B S) : FleetStep M S → Prop
  | .call u a => a.Regular P L (D.entropy u) Q u (y.client u)
  | .answer _ _ => True

/-- The fleets that runs of new clients lead to, by regular steps. -/
def FleetRun (Q : M → S → S → Prop) (y : Fleet M B S) : Prop :=
  Reachable (fun y a => some (y.step P L U D N a)) (fun y a => a.Regular P L D Q y)
    (Fleet.empty D) y

variable {P L U D N} {Q : M → S → S → Prop} {y : Fleet M B S} {u : M}

/-- What holds of new clients and is kept by every regular step holds in every run. -/
theorem FleetRun.invariant {p : Fleet M B S → Prop} (hy : FleetRun P L U D N Q y)
    (hstart : p (Fleet.empty D))
    (hstep : ∀ y a, p y → a.Regular P L D Q y → p (y.step P L U D N a)) : p y := by
  apply Reachable.invariant hy hstart
  intro y y' a hy ha happly
  cases happly
  exact hstep y a hy ha

/-! ## The network under a fleet -/

/-- The devices of new clients. -/
def Fleet.devices (D : Devices M B S) : Crypto.Network M B S :=
  { host := fun u => (ClientState.empty (D.identity u)).host
    bundles := []
    answers := []
    letters := []
    receipts := [] }

variable (P L D) in
/-- Every client is mirrored by its device, the letters are among the texts that were to be sealed,
and what the clients have put on the network is on it. -/
structure Fleet.MirroredBy (y : Fleet M B S) (n : Crypto.Network M B S) : Prop where
  client : ∀ u, ∃ draws, Mirrors P L D (y.Heard u) u draws (y.client u) n
  letters : (n.letters.map writingOf).Sublist y.written
  bundles : ∀ bundle ∈ y.bundles, bundle ∈ n.bundles
  answers : ∀ signatureHex ∈ y.answers, signatureHex ∈ n.answers

theorem Fleet.mirroredBy_empty : (Fleet.empty D).MirroredBy P L D (Fleet.devices D) where
  client _ := ⟨0, rfl, Nat.zero_le _, accounted_empty, fun _ he => (List.not_mem_nil he).elim⟩
  letters := List.Sublist.refl _
  bundles _ h := (List.not_mem_nil h).elim
  answers _ h := (List.not_mem_nil h).elim

variable {n n' : Crypto.Network M B S}

/-- A client that does nothing while another moves. -/
theorem Mirrors.frame {heard heard' : S → S → Prop} {w : M} {draws : Nat} {x : ClientState B S}
    (h : Mirrors P L D heard w draws x n) (hmoves : Crypto.Network.Moves P D u Q n n')
    (hw : w ≠ u) (hheard : ∀ text ciphertext, heard text ciphertext → heard' text ciphertext) :
    Mirrors P L D heard' w draws x n' := by
  obtain ⟨hgrows, hothers⟩ := hmoves.frame
  obtain ⟨hhost, hreceipts⟩ := hothers w hw
  refine ⟨hhost.trans h.host, h.draws_le, ?_, ?_⟩
  · rw [hreceipts]
    exact h.accounted.mono_heard hheard
  · intro e he
    obtain ⟨l, hl, hcarries⟩ := h.sent e he
    exact ⟨l, hgrows.letters.subset hl, hcarries⟩

/-- What is heard stays heard, and the call of `u` adds what it opens. -/
theorem Fleet.heard_call (y : Fleet M B S) (u w : M) (a : ClientStep S) (text ciphertext : S) :
    (y.step P L U D N (.call u a)).Heard w text ciphertext ↔ y.Heard w text ciphertext ∨
      w = u ∧ heardBy P L U (D.entropy u) (N u) (y.client u) a = some (text, ciphertext) := by
  simp only [Fleet.Heard, Fleet.step, List.mem_append, Option.mem_toList, Option.map_eq_some_iff,
    Hearing.mk.injEq, Prod.exists]
  constructor
  · rintro (⟨t, c, hnew, rfl, rfl, rfl⟩ | hold)
    · exact Or.inr ⟨rfl, hnew⟩
    · exact Or.inl hold
  · rintro (hold | ⟨rfl, hnew⟩)
    · exact Or.inr hold
    · exact Or.inl ⟨text, ciphertext, hnew, rfl, rfl, rfl⟩

/-- A call of a client is some moves of its device. -/
theorem Fleet.MirroredBy.call (hlower : ∀ s, P.toLowerCase (P.toLowerCase s) = P.toLowerCase s)
    (hE : FreshIds P (D.entropy u)) (h : y.MirroredBy P L D n) {a : ClientStep S}
    (ha : a.Regular P L (D.entropy u) Q u (y.client u)) :
    ∃ n', Crypto.Network.Moves P D u Q n n' ∧
      (y.step P L U D N (.call u a)).MirroredBy P L D n' := by
  obtain ⟨draws, hu⟩ := h.client u
  obtain ⟨draws', n', new, hmoves, hmirrors, hletters, hsublist, hexported⟩ :=
    hu.apply hlower hE (N := N u) ha
  have hgrows := hmoves.frame.1
  refine ⟨n', hmoves, ?_, ?_, ?_, ?_⟩
  · intro w
    by_cases hw : w = u
    · rw [hw]
      refine ⟨draws', ?_⟩
      simp only [Fleet.step, Function.update_self]
      refine hmirrors.mono_heard fun text ciphertext hheard => ?_
      refine (y.heard_call u u a text ciphertext).2 ?_
      exact hheard.imp_right fun hnew => ⟨rfl, hnew⟩
    · obtain ⟨draws, hmirror⟩ := h.client w
      refine ⟨draws, ?_⟩
      simp only [Fleet.step, Function.update_of_ne hw]
      refine hmirror.frame hmoves hw fun text ciphertext hheard => ?_
      exact (y.heard_call u w a text ciphertext).2 (Or.inl hheard)
  · rw [hletters, List.map_append]
    exact hsublist.append h.letters
  · intro bundle hbundle
    rcases List.mem_append.1 hbundle with hnew | hold
    · exact hexported bundle (Option.mem_toList.1 hnew)
    · exact hgrows.bundles.subset (h.bundles bundle hold)
  · intro signatureHex hsignature
    exact hgrows.answers.subset (h.answers signatureHex hsignature)

/-- So is an answer to a relay. -/
theorem Fleet.MirroredBy.answer (h : y.MirroredBy P L D n) (u : M) (nonceHex : S) :
    ∃ n', Crypto.Network.Moves P D u Q n n' ∧
      (y.step P L U D N (.answer u nonceHex)).MirroredBy P L D n' := by
  obtain ⟨draws, hu⟩ := h.client u
  refine ⟨n.step P D (.answer u nonceHex),
    Crypto.Network.moves_step rfl trivial trivial, ?_⟩
  simp only [Fleet.step, Crypto.Network.step, hu.host]
  cases signChallenge P nonceHex (y.client u).host.store.identity.signingKey.secretKey with
  | error e => exact h
  | ok signatureHex =>
      refine ⟨?_, h.letters, h.bundles, ?_⟩
      · intro w
        obtain ⟨draws, hw⟩ := h.client w
        exact ⟨draws, hw.host, hw.draws_le, hw.accounted, hw.sent⟩
      · intro s hs
        rcases List.mem_cons.1 hs with rfl | hold
        · exact List.mem_cons_self
        · exact List.mem_cons_of_mem _ (h.answers s hold)

/-- A run of a fleet is mirrored by a run of its devices. -/
theorem FleetRun.network (hlower : ∀ s, P.toLowerCase (P.toLowerCase s) = P.toLowerCase s)
    (hE : ∀ u, FreshIds P (D.entropy u)) (hy : FleetRun P L U D N Q y) :
    ∃ steps, (∀ a ∈ steps, a.ByClient P ∧ a.Sends Q) ∧
      y.MirroredBy P L D ((Fleet.devices D).run P D steps) := by
  refine hy.invariant (p := fun y => ∃ steps, (∀ a ∈ steps, a.ByClient P ∧ a.Sends Q) ∧
    y.MirroredBy P L D ((Fleet.devices D).run P D steps)) ?_ ?_
  · exact ⟨[], by simp, Fleet.mirroredBy_empty⟩
  · rintro y a ⟨steps, hsteps, hmirrored⟩ ha
    obtain ⟨u, n', ⟨steps', hsteps', rfl⟩, hmirrored'⟩ : ∃ u n',
        Crypto.Network.Moves P D u Q ((Fleet.devices D).run P D steps) n' ∧
          (y.step P L U D N a).MirroredBy P L D n' := by
      cases a with
      | call u a => exact ⟨u, hmirrored.call hlower (hE u) ha⟩
      | answer u nonceHex => exact ⟨u, hmirrored.answer u nonceHex⟩
    refine ⟨steps ++ steps', ?_, ?_⟩
    · intro a ha
      rcases List.mem_append.1 ha with ha | ha
      · exact hsteps a ha
      · exact (hsteps' a ha).2
    · rw [Crypto.Network.run, List.foldl_append]
      exact hmirrored'

/-- In every run of any number of clients, in any order, whatever envelopes and contact URIs of the
declared shape come in: there is a run of the engine calls of their devices, by the rules of the
orchestrator, that ends in the same Signal stores. Every envelope has a letter of that run, no
letter was sealed that was not to be, and each at most once; the bundles and answers are those of
the devices; and the incoming messages of every database are accounted for by what its device has
accepted. -/
theorem fleet_refines_network (hlower : ∀ s, P.toLowerCase (P.toLowerCase s) = P.toLowerCase s)
    (hE : ∀ u, FreshIds P (D.entropy u)) (hy : FleetRun P L U D N Q y) :
    ∃ steps n, (∀ a ∈ steps, a.ByClient P ∧ a.Sends Q) ∧ n = (Fleet.devices D).run P D steps ∧
      (∀ u, n.host u = (y.client u).host) ∧
      (∀ u, ∀ e ∈ (y.client u).sent, ∃ l ∈ n.letters, e.Carries P L l.message) ∧
      (n.letters.map writingOf).Sublist y.written ∧
      (∀ bundle ∈ y.bundles, bundle ∈ n.bundles) ∧
      (∀ signatureHex ∈ y.answers, signatureHex ∈ n.answers) ∧
      ∀ u, ∃ draws, Accounted P L (D.entropy u) (y.Heard u) draws (y.client u).messages
        (n.receiptsOf u) := by
  obtain ⟨steps, hsteps, hmirrored⟩ := hy.network hlower hE
  refine ⟨steps, _, hsteps, rfl, ?_, ?_, hmirrored.letters, hmirrored.bundles, hmirrored.answers, ?_⟩
  · intro u
    obtain ⟨draws, h⟩ := hmirrored.client u
    exact h.host
  · intro u
    obtain ⟨draws, h⟩ := hmirrored.client u
    exact h.sent
  · intro u
    obtain ⟨draws, h⟩ := hmirrored.client u
    exact ⟨draws, h.accounted⟩

/-! ## Two clients -/

section

open TorE2EE.Crypto.Sym

/-- The contact URI of `bob`, with the bundle that he makes first. -/
def bobUri : Sym :=
  contactUri (hex (pub (signingSecret 1))) (hex (pub (name 1))) (hex (pub (name 4)))
    (hex (signature (pub (name 4)) (signingSecret 1)))

/-- The mailbox of `bob`. -/
def bobHash : Sym := hex (symbolicLibrary.sha256 (pub (signingSecret 1)))

/-- What the two clients come to. -/
def partiesRun (steps : List (FleetStep Party Sym)) : Fleet Party Sym Sym :=
  steps.foldl (fun y a => y.step symbolicClient symbolicLibrary symbolicUntyped symbolicDevices
    (fun _ => Client.symbolicNetwork) a) (Fleet.empty symbolicDevices)

/-- `alice` has the URI of `bob`. -/
def importSteps : List (FleetStep Party Sym) :=
  [.call .bob (.generatePreKeyBundle 1), .call .alice (.importContact bobUri none)]

/-- She writes to him. -/
def planSteps : List (FleetStep Party Sym) :=
  importSteps ++ [.call .alice (.sendOutboundMessage bobHash (text "meet at noon"))]

/-- Her envelope. -/
def planEnvelope : IncomingMessagePayload Sym :=
  { encrypted_payload := (((partiesRun planSteps).client .alice).sent.map
      OutgoingMessageEnvelope.encrypted_payload).headD nil
    created_at := 1 }

/-- `bob` gets the envelope, and gets it again. -/
def heardSteps : List (FleetStep Party Sym) :=
  planSteps ++ [.call .bob (.handleIncomingMessage planEnvelope),
    .call .bob (.processIncomingEnvelope planEnvelope)]

/-- The two clients run, and tell nobody of their plan. -/
def PartiesRun (steps : List (FleetStep Party Sym)) : Prop :=
  FleetRun symbolicClient symbolicLibrary symbolicUntyped symbolicDevices
    (fun _ => Client.symbolicNetwork) (symbolicDevices.Discreet symbolicHidden) (partiesRun steps)

theorem PartiesRun.step {steps : List (FleetStep Party Sym)} (h : PartiesRun steps)
    {a : FleetStep Party Sym} (ha : a.Regular symbolicClient symbolicLibrary symbolicDevices
      (symbolicDevices.Discreet symbolicHidden) (partiesRun steps)) :
    PartiesRun (steps ++ [a]) := by
  rw [PartiesRun, partiesRun, List.foldl_append]
  exact Reachable.step a h ha rfl

theorem importSteps_run : PartiesRun importSteps := by
  have hstart : PartiesRun [] := Reachable.start
  have hexported : PartiesRun [.call .bob (.generatePreKeyBundle 1)] :=
    hstart.step ⟨fun w hw => (List.not_mem_nil hw).elim, trivial⟩
  refine hexported.step ⟨fun w hw => (List.not_mem_nil hw).elim, ?_⟩
  intro parsed hparsed
  cases hparsed
  exact ⟨_, rfl⟩

theorem planSteps_run : PartiesRun planSteps := by
  refine importSteps_run.step ⟨?_, trivial⟩
  have hwritten : writtenBy symbolicClient symbolicLibrary (symbolicDevices.entropy .alice)
      Party.alice ((partiesRun importSteps).client .alice)
      (.sendOutboundMessage bobHash (text "meet at noon")) =
        [⟨.alice, hex (pub (name 1)), text "meet at noon"⟩] := by
    decide +kernel
  intro w hw
  rw [hwritten] at hw
  cases List.mem_singleton.1 hw
  exact Or.inl ⟨.bob, rfl, by decide⟩

theorem planEnvelope_hasShape : planEnvelope.HasShape symbolicClient symbolicLibrary := by
  have hmessage : (planEnvelope.message? symbolicClient symbolicLibrary).isSome = true := by
    decide +kernel
  intro v hv
  rw [IncomingMessagePayload.message?, hv] at hmessage
  exact Option.isSome_iff_exists.1 hmessage

theorem heardSteps_run : PartiesRun heardSteps := by
  have hheard : PartiesRun (planSteps ++ [.call .bob (.handleIncomingMessage planEnvelope)]) :=
    planSteps_run.step ⟨fun w hw => (List.not_mem_nil hw).elim, planEnvelope_hasShape⟩
  exact hheard.step ⟨fun w hw => (List.not_mem_nil hw).elim, planEnvelope_hasShape⟩

theorem freshIds_symbolic (p : Party) : FreshIds symbolicClient (symbolicDevices.entropy p) := by
  intro d d' h
  have hsame : 2 * d + p.index = 2 * d' + p.index := nonce.inj (hex.inj h)
  omega

/-- Of `bob`'s two copies the first is opened. -/
theorem fleet_refines_network_symbolic :
    ((partiesRun heardSteps).client .bob).messages.map MessageRow.body = [text "meet at noon"] ∧
    ∃ steps n, (∀ a ∈ steps, a.ByClient symbolicClient) ∧
      n = (Fleet.devices symbolicDevices).run symbolicClient symbolicDevices steps ∧
      ∀ u, n.host u = ((partiesRun heardSteps).client u).host := by
  refine ⟨by decide +kernel, ?_⟩
  obtain ⟨steps, n, hsteps, hrun, hhosts, -⟩ :=
    fleet_refines_network (fun _ => rfl) freshIds_symbolic heardSteps_run
  exact ⟨steps, n, fun a ha => (hsteps a ha).1, hrun, hhosts⟩

end

end TorE2EE.Client
