import TorE2EE.Foundation.Machine

/-!
# The key of the database

The calls of `DatabaseManager.getOrCreateDatabaseKey` for one service, with their accesses to the
keychain interleaved in any order. An access may be performed, refused or throw, the keychain module
may be missing, and the process may stop, which ends every call under way; calls begin at any time.

The fresh keys that calls draw come with the actions. Nothing is assumed of them.
-/

set_option autoImplicit false

namespace TorE2EE.Client.DatabaseKeys

open TorE2EE.Foundation

universe u

variable {K : Type u}

/-- How far a call is. -/
inductive CallPhase (K : Type u) where
  /-- `getGenericPassword` is awaited. -/
  | reading
  /-- It has been performed, and the call has not gone on. -/
  | read (password : Option K)
  /-- `setGenericPassword` is awaited. -/
  | writing (newKey : K)
  /-- It has been performed, and the call has not gone on. -/
  | written (newKey : K)
  /-- The call has returned, with the key in the keychain at that moment or not. -/
  | returned (key : K) (inKeychain : Bool)
  /-- The process stopped during the call. -/
  | lost
  deriving DecidableEq

/-- The entry of the service, and the calls that have begun. -/
structure Keychain (K : Type u) where
  password : Option K
  calls : List (CallPhase K) := []
  deriving DecidableEq

/-- What may happen next. `fresh` is the key the call draws there. -/
inductive KeyAction (K : Type u) where
  /-- A call begins, with the keychain module there or missing. -/
  | begin (available : Bool) (fresh : K)
  | read (i : Nat)
  | readThrows (i : Nat) (fresh : K)
  /-- The call goes on with what it has read. -/
  | resume (i : Nat) (fresh : K)
  | write (i : Nat)
  /-- `setGenericPassword` resolves without having stored the key. -/
  | writeRefused (i : Nat)
  | writeThrows (i : Nat) (fresh : K)
  /-- The call goes on after it has written. -/
  | finish (i : Nat)
  /-- The process stops. -/
  | stop

namespace Keychain

/-- The call moves on. -/
def setCall (s : Keychain K) (i : Nat) (phase : CallPhase K) : Keychain K :=
  { s with calls := s.calls.set i phase }

/-- The call returns. -/
def finishCall [DecidableEq K] (s : Keychain K) (i : Nat) (key : K) : Keychain K :=
  s.setCall i (.returned key (s.password = some key))

end Keychain

/-- The calls that have not returned are lost with the process. -/
def CallPhase.stop : CallPhase K → CallPhase K
  | .returned key inKeychain => .returned key inKeychain
  | _ => .lost

/-- `getOrCreateDatabaseKey`, one access or one continuation at a time. Whatever is thrown inside, and
a missing module, lead to the fallback, which returns a fresh key. -/
def step [DecidableEq K] (s : Keychain K) : KeyAction K → Option (Keychain K)
  | .begin true _ => some { s with calls := s.calls ++ [.reading] }
  | .begin false fresh =>
      some { s with calls := s.calls ++ [.returned fresh (s.password = some fresh)] }
  | .read i =>
      match s.calls[i]? with
      | some .reading => some (s.setCall i (.read s.password))
      | _ => none
  | .readThrows i fresh =>
      match s.calls[i]? with
      | some .reading => some (s.finishCall i fresh)
      | _ => none
  | .resume i fresh =>
      match s.calls[i]? with
      | some (.read (some password)) => some (s.finishCall i password)
      | some (.read none) => some (s.setCall i (.writing fresh))
      | _ => none
  | .write i =>
      match s.calls[i]? with
      | some (.writing newKey) =>
          some ({ s with password := some newKey }.setCall i (.written newKey))
      | _ => none
  | .writeRefused i =>
      match s.calls[i]? with
      | some (.writing newKey) => some (s.setCall i (.written newKey))
      | _ => none
  | .writeThrows i fresh =>
      match s.calls[i]? with
      | some (.writing _) => some (s.finishCall i fresh)
      | _ => none
  | .finish i =>
      match s.calls[i]? with
      | some (.written newKey) => some (s.finishCall i newKey)
      | _ => none
  | .stop => some { s with calls := s.calls.map CallPhase.stop }

/-- All calls that have returned returned the same key, and each of them one that was in the
keychain. -/
def Keychain.Stable (s : Keychain K) : Prop :=
  ∀ key inKeychain, .returned key inKeychain ∈ s.calls →
    inKeychain = true ∧ ∀ key' inKeychain', .returned key' inKeychain' ∈ s.calls → key' = key

/-- The module is there, no access throws or is refused, and no call writes its key over another: one
that has read an empty keychain writes before another call does. -/
def Orderly (s : Keychain K) : KeyAction K → Prop
  | .begin available _ => available = true
  | .readThrows _ _ => False
  | .write _ => s.password = none
  | .writeRefused _ => False
  | .writeThrows _ _ => False
  | _ => True

/-! ## Runs -/

/-- The key of a call that has one: what it returned, wrote, or read. -/
def CallPhase.key? : CallPhase K → Option K
  | .returned key _ => some key
  | .written newKey => some newKey
  | .read password => password
  | _ => none

/-- Every call that has a key has the one in the keychain, and had it when it returned. -/
def Keychain.Agrees (s : Keychain K) : Prop :=
  ∀ call ∈ s.calls, (∀ key, call.key? = some key → s.password = some key) ∧
    ∀ key inKeychain, call = .returned key inKeychain → inKeychain = true

theorem Keychain.Agrees.stable {s : Keychain K} (h : s.Agrees) : s.Stable := by
  intro key inKeychain hmem
  refine ⟨(h _ hmem).2 key inKeychain rfl, ?_⟩
  intro key' inKeychain' hmem'
  have hkey := (h _ hmem).1 key rfl
  have hkey' := (h _ hmem').1 key' rfl
  exact Option.some.inj (hkey'.symm.trans hkey)

/-- A call that moves on to a phase without a key, or with the one in the keychain. -/
theorem Keychain.Agrees.setCall {s : Keychain K} (h : s.Agrees) (i : Nat) {phase : CallPhase K}
    (hkey : ∀ key, phase.key? = some key → s.password = some key)
    (hreturned : ∀ key inKeychain, phase = .returned key inKeychain → inKeychain = true) :
    (s.setCall i phase).Agrees := by
  intro call hmem
  rcases List.mem_or_eq_of_mem_set hmem with hold | rfl
  · exact h call hold
  · exact ⟨hkey, hreturned⟩

/-- A call that returns the key in the keychain. -/
theorem Keychain.Agrees.finishCall [DecidableEq K] {s : Keychain K} (h : s.Agrees) (i : Nat) {key : K}
    (hkey : s.password = some key) : (s.finishCall i key).Agrees := by
  refine h.setCall i ?_ ?_
  · rintro _ ⟨⟩
    exact hkey
  · rintro _ _ ⟨⟩
    exact decide_eq_true hkey

/-- A call that has stopped has no key unless it has returned. -/
theorem Keychain.Agrees.stop {s : Keychain K} (h : s.Agrees) :
    ({ s with calls := s.calls.map CallPhase.stop } : Keychain K).Agrees := by
  intro call hmem
  obtain ⟨old, hold, rfl⟩ := List.mem_map.1 hmem
  cases old with
  | returned key inKeychain => exact h _ hold
  | _ => exact ⟨fun _ hkey => (by cases hkey), fun _ _ heq => (by cases heq)⟩

variable [DecidableEq K]

/-- Every orderly step keeps the agreement. -/
theorem Keychain.Agrees.step {s s' : Keychain K} {a : KeyAction K} (h : s.Agrees)
    (ha : Orderly s a) (hstep : step s a = some s') : s'.Agrees := by
  cases a with
  | begin available fresh =>
      subst ha
      cases hstep
      intro call hmem
      rcases List.mem_append.1 hmem with hold | hnew
      · exact h call hold
      · rw [List.mem_singleton.1 hnew]
        exact ⟨fun _ hkey => (by cases hkey), fun _ _ heq => (by cases heq)⟩
  | read i =>
      rw [DatabaseKeys.step] at hstep
      split at hstep
      · cases hstep
        exact h.setCall i (fun _ hkey => hkey) fun _ _ heq => (by cases heq)
      · cases hstep
  | readThrows => exact absurd ha id
  | resume i fresh =>
      rw [DatabaseKeys.step] at hstep
      split at hstep
      · next password hcall =>
          cases hstep
          -- the key it read is still in the keychain
          exact h.finishCall i ((h _ (List.mem_of_getElem? hcall)).1 password rfl)
      · cases hstep
        exact h.setCall i (fun _ hkey => (by cases hkey)) fun _ _ heq => (by cases heq)
      · cases hstep
  | write i =>
      rw [DatabaseKeys.step] at hstep
      split at hstep
      · next newKey hcall =>
          cases hstep
          -- the keychain was empty, so that no call had a key yet
          have hempty : ({ s with password := some newKey } : Keychain K).Agrees := by
            intro call hmem
            refine ⟨?_, (h call hmem).2⟩
            intro key hkey
            have hnone := (h call hmem).1 key hkey
            rw [show s.password = none from ha] at hnone
            cases hnone
          refine hempty.setCall i ?_ fun _ _ heq => (by cases heq)
          rintro _ ⟨⟩
          rfl
      · cases hstep
  | writeRefused => exact absurd ha id
  | writeThrows => exact absurd ha id
  | finish i =>
      rw [DatabaseKeys.step] at hstep
      split at hstep
      · next newKey hcall =>
          cases hstep
          -- the key it wrote is still in the keychain
          exact h.finishCall i ((h _ (List.mem_of_getElem? hcall)).1 newKey rfl)
      · cases hstep
  | stop =>
      cases hstep
      exact h.stop

/-- In every orderly run from any keychain, all calls that have returned returned the same key, and it
was in the keychain when they did. -/
theorem keys_stable {password : Option K} {s : Keychain K}
    (h : Reachable step Orderly { password } s) : s.Stable := by
  refine Keychain.Agrees.stable (h.invariant ?_ fun _ _ _ hs ha hstep => hs.step ha hstep)
  intro call hmem
  cases hmem

/-- A first start, and a start after the process has stopped. -/
theorem keys_stable_restart :
    ∃ s : Keychain Nat, Reachable step Orderly { password := none } s ∧ s.Stable ∧
      s.calls = [.returned 7 true, .returned 7 true] := by
  have hrun : AllowedRun step Orderly [.begin true 0, .read 0, .resume 0 7, .write 0, .finish 0, .stop,
      .begin true 0, .read 1, .resume 1 8] ({ password := none } : Keychain Nat)
      { password := some 7, calls := [.returned 7 true, .returned 7 true] } :=
    ⟨rfl, _, rfl, trivial, _, rfl, trivial, _, rfl, rfl, _, rfl, trivial, _, rfl, trivial, _, rfl,
      rfl, _, rfl, trivial, _, rfl, trivial, _, rfl, rfl⟩
  have hreachable := Reachable.start.of_allowedRun hrun
  exact ⟨_, hreachable, keys_stable hreachable, rfl⟩

/-- The runs without a condition are not stable: two first starts read the keychain before either of
them has written. -/
theorem not_forall_keys_stable :
    ¬ ∀ (password : Option Nat) (s : Keychain Nat),
      Reachable step (fun _ _ => True) { password } s → s.Stable := by
  intro h
  have hrun : runActions step [.begin true 0, .begin true 0, .read 0, .read 1, .resume 0 7, .write 0,
      .finish 0, .resume 1 8, .write 1, .finish 1] ({ password := none } : Keychain Nat) =
      some { password := some 8, calls := [.returned 7 true, .returned 8 true] } := by decide
  have hstable := h none _ (.of_runActions (fun _ _ _ => trivial) .start hrun)
  have hsame := (hstable 7 true (by decide)).2 8 true (by decide)
  exact absurd hsame (by decide)

end TorE2EE.Client.DatabaseKeys
