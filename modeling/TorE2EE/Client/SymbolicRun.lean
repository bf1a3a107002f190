import TorE2EE.Client.Receiving
import TorE2EE.Client.Runs
import TorE2EE.Client.Symbolic

/-!
# A client over symbolic terms

`symbolicBob` has generated a bundle, and `symbolicIncoming` is the envelope of the first message
that `alice` seals on it, for any plaintext.
-/

set_option autoImplicit false

namespace TorE2EE.Client

open TorE2EE.Foundation TorE2EE.Crypto TorE2EE.Crypto.Sym

/-- An engine call on a value of the wrong shape throws. -/
def symbolicUntyped : UntypedCalls Sym Sym where
  decrypt _ _ := Program.throw (.library "TypeError")
  initiateSession _ _ := Program.throw (.library "TypeError")

/-- A relay that takes every envelope, with nobody online. -/
def symbolicNetwork : Network := fun _ => some false

/-- `bob` after he has generated a bundle. -/
def symbolicBob : ClientState Sym Sym :=
  ClientStep.apply symbolicClient symbolicLibrary symbolicUntyped symbolicEntropy symbolicNetwork
    (.empty (symbolicIdentity 1)) (.generatePreKeyBundle 1)

theorem symbolicBob_reachable :
    symbolicBob.Reachable symbolicClient symbolicLibrary symbolicUntyped symbolicEntropy
      symbolicNetwork :=
  ⟨symbolicIdentity 1, Reachable.start.step (.generatePreKeyBundle 1) True.intro rfl⟩

/-- What `alice` does with a bundle: she initiates a session and seals a message. -/
def greet (bundle : PreKeyBundle Sym) (plaintext : Sym) : EngineM Sym Sym (EncryptedMessage Sym) := do
  let _ ← initiateSession symbolicClient bundle.identityKeyHex bundle
  encrypt symbolicClient bundle.identityKeyHex plaintext none

/-- The first message of `alice` to `bob`. -/
def symbolicGreeting (plaintext : Sym) : EncryptedMessage Sym :=
  okValue
    ((greet (symbolicBundle symbolicEntropy 1) plaintext).run symbolicClient symbolicEntropy
      { store := SignalStore.empty (symbolicIdentity 0), draws := 50 }).1 rfl

/-- Its envelope. -/
def symbolicIncoming (plaintext : Sym) : IncomingMessagePayload Sym :=
  { encrypted_payload :=
      symbolicLibrary.stringifyJson (messageJson symbolicClient (symbolicGreeting plaintext))
    created_at := 1 }

/-- A self-sync into the conversation `carol`. -/
def symbolicForgery : Sym :=
  syncText symbolicClient symbolicLibrary (text "carol") (text "forged") (text "id") 1

/-- `bob` can open the envelope. -/
theorem symbolicIncoming_opens (plaintext : Sym) :
    ∃ h, Opens symbolicClient symbolicLibrary symbolicUntyped symbolicEntropy symbolicBob
      (symbolicIncoming plaintext) (hex (pub (name 0))) none plaintext h :=
  ⟨_, ⟨_, rfl, rfl, rfl⟩, by decide⟩

end TorE2EE.Client
