import TorE2EE.Client.Methods
import TorE2EE.Foundation.Machine

/-!
# Runs of a client

`ClientStep` is one call of the client's interface, and `ClientRun` the states of the runs of such
calls that start with the database of a new identity, every call under a condition on the state
before it.

An operation-wise rule carries invariants: what every operation keeps, every call keeps
(`ClientState.Kept.step`). `LowerCased` is the first such invariant: the keys of stored contacts are
lower-case, because `saveContact` writes them so.
-/

set_option autoImplicit false

namespace TorE2EE.Client

open TorE2EE.Foundation TorE2EE.Crypto

variable {B S : Type} [DecidableEq S]

/-- A call of the client's interface. -/
inductive ClientStep (S : Type) where
  | importContact (uriString : S) (customAlias : Option S)
  | handleIncomingMessage (payload : IncomingMessagePayload S)
  | processIncomingEnvelope (payload : IncomingMessagePayload S)
  | sendOutboundMessage (contactPubkeyHash plaintext : S)
  | addLinkedDevice (recipientPubkeyHash : S) (device : DeviceRecord S)
  /-- `provisionSlaveDevice`, and its record saved with `saveOwnLinkedDevice`. -/
  | linkOwnDevice (qrUri : S) (assignedDeviceId : Int)
  | saveOwnLinkedDevice (device : OwnDeviceRecord S)
  | generatePreKeyBundle (count : Nat)
  | statement (s : TableStatement S)

variable (P : Primitives B S) (L : ClientLibrary B S) (U : UntypedCalls B S) (E : Entropy B)
  (N : Network)

/-- A new device of the client's own. -/
def linkOwnDevice (qrUri : S) (assignedDeviceId : Int) : ClientM B S Unit := do
  let identity ← ask (.engine .getIdentity)
  let device ← provisionSlaveDevice P L qrUri identity assignedDeviceId
  ask (.saveOwnLinkedDevice device)

/-- The state after a call. -/
def ClientStep.apply (x : ClientState B S) : ClientStep S → ClientState B S
  | importContact uriString customAlias =>
      ((Client.importContact P L U uriString customAlias).run P E N x).2
  | handleIncomingMessage payload => ((Client.handleIncomingMessage P L U payload).run P E N x).2
  | processIncomingEnvelope payload =>
      ((Client.processIncomingEnvelope P L U payload).run P E N x).2
  | sendOutboundMessage contactPubkeyHash plaintext =>
      ((Client.sendOutboundMessage P L contactPubkeyHash plaintext).run P E N x).2
  | addLinkedDevice recipientPubkeyHash device =>
      ((Client.addLinkedDevice recipientPubkeyHash device).run P E N x).2
  | linkOwnDevice qrUri assignedDeviceId =>
      ((Client.linkOwnDevice P L qrUri assignedDeviceId).run P E N x).2
  | saveOwnLinkedDevice device => x.saveOwnLinkedDevice P device
  | generatePreKeyBundle count => ((engine (Crypto.generatePreKeyBundle P count)).run P E N x).2
  | statement s => s.execute P x

/-- The states of the runs of a new client in which every call is `allowed`. -/
def ClientRun (allowed : ClientState B S → ClientStep S → Prop) (x : ClientState B S) : Prop :=
  ∃ identity, Reachable (fun x a => some (ClientStep.apply P L U E N x a)) allowed
    (ClientState.empty identity) x

namespace ClientState

/-- The state is left by a run that starts with a new identity. -/
def Reachable (x : ClientState B S) : Prop := ClientRun P L U E N (fun _ _ => True) x

/-- The property is kept by every operation and every statement. -/
structure Kept (p : ClientState B S → Prop) : Prop where
  operation : ∀ o x, p x → p (ClientOp.handle P E N o x).2
  device : ∀ device x, p x → p (x.saveOwnLinkedDevice P device)
  statement : ∀ (s : TableStatement S) x, p x → p (s.execute P x)

end ClientState

variable {P L U E N}

/-- What every operation keeps, every method keeps. -/
theorem ClientState.Kept.method {p : ClientState B S → Prop} (hp : Kept P E N p) {α : Type}
    (c : ClientM B S α) {x : ClientState B S} (hx : p x) : p (c.run P E N x).2 := by
  apply Program.run_preserves (r := fun x y => p x → p y)
  · exact fun _ h => h
  · exact fun _ _ _ hxy hyz h => hyz (hxy h)
  · exact hp.operation
  · exact hx

/-- What every operation keeps, every call keeps. -/
theorem ClientState.Kept.step {p : ClientState B S → Prop} (hp : Kept P E N p)
    {x : ClientState B S} (hx : p x) (a : ClientStep S) : p (a.apply P L U E N x) := by
  cases a with
  | saveOwnLinkedDevice device => exact hp.device device x hx
  | statement s => exact hp.statement s x hx
  | _ => exact hp.method _ hx

/-- What holds at the start and is kept by every allowed call holds in every run. -/
theorem ClientRun.invariant {allowed : ClientState B S → ClientStep S → Prop}
    {p : ClientState B S → Prop} {x : ClientState B S} (hx : ClientRun P L U E N allowed x)
    (hstart : ∀ identity, p (ClientState.empty identity))
    (hstep : ∀ x a, p x → allowed x a → p (ClientStep.apply P L U E N x a)) : p x := by
  obtain ⟨identity, hrun⟩ := hx
  apply hrun.invariant (hstart identity)
  intro s s' a hs ha happly
  cases happly
  exact hstep s a hs ha

/-- A reachable state is left by another call in a reachable one. -/
theorem ClientState.Reachable.step {x : ClientState B S} (hx : Reachable P L U E N x)
    (a : ClientStep S) : Reachable P L U E N (a.apply P L U E N x) := by
  obtain ⟨identity, hrun⟩ := hx
  exact ⟨identity, Foundation.Reachable.step a hrun True.intro rfl⟩

/-- Any list of calls leads from a reachable state to one. -/
theorem ClientState.Reachable.calls {x : ClientState B S} (hx : Reachable P L U E N x)
    (calls : List (ClientStep S)) :
    Reachable P L U E N (calls.foldl (ClientStep.apply P L U E N) x) := by
  induction calls generalizing x with
  | nil => exact hx
  | cons a calls ih => exact ih (hx.step a)

/-! ## Stored keys are lower-case -/

/-- The keys of every stored contact are lower-case. -/
def LowerCased (P : Primitives B S) (x : ClientState B S) : Prop :=
  ∀ r ∈ x.contacts, P.toLowerCase r.recipient_pubkey_hash = r.recipient_pubkey_hash ∧
    P.toLowerCase r.identity_pubkey_hex = r.identity_pubkey_hex

theorem lowerCased_saveContact (hlower : ∀ s, P.toLowerCase (P.toLowerCase s) = P.toLowerCase s)
    {x : ClientState B S} (hx : LowerCased P x) (contact : ContactRecord S) :
    LowerCased P (x.saveContact P contact) := by
  apply forall_upsertBy hx
  · exact ⟨hlower _, hlower _⟩
  · exact fun _ _ _ => ⟨hlower _, hlower _⟩

theorem lowerCased_kept (hlower : ∀ s, P.toLowerCase (P.toLowerCase s) = P.toLowerCase s) :
    ClientState.Kept P E N (LowerCased P) where
  operation o x hx := by
    -- only `saveContact` writes the keys of a row, and it lower-cases them
    cases o with
    | saveContact contact => exact lowerCased_saveContact hlower hx contact
    | saveMessage message =>
        simp only [ClientOp.handle, ClientState.saveMessage]
        split
        · exact hx
        · exact hx
    | _ => exact hx
  device device x hx := hx
  statement s x hx := by
    cases s with
    | updateAlias hash contactAlias =>
        intro r hr
        obtain ⟨old, hold, rfl⟩ := List.mem_map.1 hr
        split
        · exact hx old hold
        · exact hx old hold
    | deleteContact hash =>
        simp only [TableStatement.execute]
        split
        · exact hx
        · exact fun r hr => hx r (List.mem_of_mem_filter hr)
    | _ => exact hx

theorem ClientState.Reachable.lowerCased
    (hlower : ∀ s, P.toLowerCase (P.toLowerCase s) = P.toLowerCase s) {x : ClientState B S}
    (hx : Reachable P L U E N x) : LowerCased P x := by
  apply hx.invariant
  · intro identity r hr
    cases hr
  · intro x a hx _
    exact (lowerCased_kept hlower).step hx a

end TorE2EE.Client
