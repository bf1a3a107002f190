import TorE2EE.Crypto.Bundles

/-!
# Two parties and a network

A `World` holds the stores of two parties, the number of the next draw, and the messages in flight:
the ones `encrypt` has returned and no `decrypt` has taken. A party keys its session by the
identity key of its peer, as the orchestrator does. Both parties draw from one `Entropy`, so keys
drawn by different calls are different draws.
-/

set_option autoImplicit false

namespace TorE2EE.Crypto

open TorE2EE.Foundation

/-- The two parties. -/
inductive Party where
  | alice
  | bob
  deriving DecidableEq

/-- The other party. -/
def Party.peer : Party → Party
  | alice => bob
  | bob => alice

@[simp] theorem Party.peer_peer (p : Party) : p.peer.peer = p := by cases p <;> rfl

@[simp] theorem Party.peer_ne (p : Party) : p.peer ≠ p := by cases p <;> decide

@[simp] theorem Party.ne_peer (p : Party) : p ≠ p.peer := by cases p <;> decide

theorem Party.eq_peer_of_ne {p q : Party} (h : q ≠ p) : q = p.peer := by
  cases p <;> cases q <;> simp_all [peer]

/-- A ciphertext on its way, with the plaintext it was made from. -/
structure Flight (S : Type) where
  sender : Party
  plaintext : S
  message : EncryptedMessage S
  deriving DecidableEq

variable {B S : Type}

/-- Two stores, one sequence of draws, and the messages in flight in sending order. -/
structure World (B S : Type) where
  store : Party → SignalStore B S
  draws : Nat
  flights : List (Flight S)

namespace World

variable (w : World B S) (p : Party)

/-- The host a party's call runs on. -/
def host : Host B S := { store := w.store p, draws := w.draws }

/-- The world after a call of `p` left the host `h`. -/
def withHost (h : Host B S) : World B S :=
  { w with store := Function.update w.store p h.store, draws := h.draws }

/-- The identity key a party publishes. -/
def identityKeyHex : S := (w.store p).identity.encryptionKey.publicKeyHex

@[simp] theorem store_withHost_self (h : Host B S) : (w.withHost p h).store p = h.store := by
  simp [withHost]

@[simp] theorem store_withHost_peer (h : Host B S) :
    (w.withHost p h).store p.peer = w.store p.peer := by
  simp [withHost]

theorem store_withHost_of_ne {p q : Party} (hne : q ≠ p) (h : Host B S) :
    (w.withHost p h).store q = w.store q := by
  simp [withHost, Function.update_of_ne hne]

@[simp] theorem draws_withHost (h : Host B S) : (w.withHost p h).draws = h.draws := rfl

@[simp] theorem flights_withHost (h : Host B S) : (w.withHost p h).flights = w.flights := rfl

/-- A call that keeps the identity keeps everybody's identity key. -/
theorem identityKeyHex_withHost {h : Host B S} (hid : h.store.identity = (w.store p).identity)
    (q : Party) : (w.withHost p h).identityKeyHex q = w.identityKeyHex q := by
  by_cases hq : q = p
  · subst hq
    simp [identityKeyHex, hid]
  · simp [identityKeyHex, store_withHost_of_ne w hq]

variable (P : Primitives B S)

/-- The session `p` keeps for its peer. -/
def session : Option (SessionRecord B S) := (w.store p).getSession P (w.identityKeyHex p.peer)

/-- A call of `p` that keeps the identity leaves `p` the session of the store it left. -/
theorem session_withHost_self {h : Host B S} (hid : h.store.identity = (w.store p).identity) :
    (w.withHost p h).session p P = h.store.getSession P (w.identityKeyHex p.peer) := by
  rw [session, store_withHost_self, identityKeyHex_withHost w p hid]

/-- A call of `p` that keeps the identity leaves the session of the peer alone. -/
theorem session_withHost_peer {h : Host B S} (hid : h.store.identity = (w.store p).identity) :
    (w.withHost p h).session p.peer P = w.session p.peer P := by
  rw [session, store_withHost_peer, identityKeyHex_withHost w p hid, session]

variable [DecidableEq S] (E : Entropy B)

/-- The world after a call of `p` that saved `session` for the peer and did nothing else. -/
def saving (session : SessionRecord B S) (draws : Nat) : World B S :=
  w.withHost p { store := (w.store p).saveSession P (w.identityKeyHex p.peer) session, draws }

@[simp] theorem session_saving_self (session : SessionRecord B S) (draws : Nat) :
    (w.saving p P session draws).session p P = some session := by
  refine (session_withHost_self w p P ?_).trans ?_
  · rfl
  · exact SignalStore.getSession_saveSession_self P _ _ session

@[simp] theorem session_saving_peer (session : SessionRecord B S) (draws : Nat) :
    (w.saving p P session draws).session p.peer P = w.session p.peer P :=
  session_withHost_peer w p P rfl

theorem session_saving (session : SessionRecord B S) (draws : Nat) (q : Party) :
    (w.saving p P session draws).session q P = if q = p then some session else w.session q P := by
  by_cases hq : q = p
  · subst hq
    simp
  · rw [Party.eq_peer_of_ne hq]
    simp

@[simp] theorem draws_saving (session : SessionRecord B S) (draws : Nat) :
    (w.saving p P session draws).draws = draws := rfl

@[simp] theorem flights_saving (session : SessionRecord B S) (draws : Nat) :
    (w.saving p P session draws).flights = w.flights := rfl

/-- A call of `p`: its outcome, and the world after it. -/
def call {α : Type} (c : EngineM B S α) : Except (EngineError S) α × World B S :=
  ((c.run P E (w.host p)).1, w.withHost p (c.run P E (w.host p)).2)

theorem call_of_run {α : Type} {c : EngineM B S α} {r : Except (EngineError S) α} {h : Host B S}
    (hrun : c.run P E (w.host p) = (r, h)) : w.call p P E c = (r, w.withHost p h) := by
  rw [call, hrun]

theorem run_of_call {α : Type} {c : EngineM B S α} {r : Except (EngineError S) α} {w' : World B S}
    (hcall : w.call p P E c = (r, w')) :
    ∃ h, c.run P E (w.host p) = (r, h) ∧ w' = w.withHost p h := by
  cases hcall
  exact ⟨_, rfl, rfl⟩

/-- `p` calls `generatePreKeyBundle`. -/
def generate (count : Nat) : Except (EngineError S) (PreKeyBundle S) × World B S :=
  w.call p P E (generatePreKeyBundle P count)

/-- A successful `generatePreKeyBundle` exports one bundle and saves its keys. -/
theorem generate_ok {count : Nat} {bundle : PreKeyBundle S} {w' : World B S}
    (h : w.generate p P E count = (.ok bundle, w')) :
    ∃ signatureHex, bundle = exportedBundle P E (w.store p).identity signatureHex w.draws count ∧
      w' = w.withHost p
        { store := (w.store p).withBundle P E signatureHex w.draws count
          draws := w.draws + 3 + 2 * count } := by
  obtain ⟨h', hrun, rfl⟩ := w.run_of_call p P E h
  rcases run_generatePreKeyBundle_cases P E count (w.host p) with
    ⟨e, hfail⟩ | ⟨signatureHex, -, hok⟩
  · rw [hfail] at hrun
    cases hrun
  · rw [hok] at hrun
    cases hrun
    exact ⟨signatureHex, rfl, rfl⟩

/-- `p` calls `initiateSession` on a bundle, under the identity key in it. -/
def initiate (bundle : PreKeyBundle S) : Except (EngineError S) (SessionRecord B S) × World B S :=
  w.call p P E (initiateSession P bundle.identityKeyHex bundle)

/-- `p` calls `encrypt` for its peer. -/
def encryptTo (plaintext : S) (context : Option InitialBundleContext) :
    Except (EngineError S) (EncryptedMessage S) × World B S :=
  w.call p P E (encrypt P (w.identityKeyHex p.peer) plaintext context)

/-- `p` calls `decrypt` on a message under its peer's identity key. -/
def decryptAt (m : EncryptedMessage S) : Except (EngineError S) S × World B S :=
  w.call p P E (decrypt P (w.identityKeyHex p.peer) m)

/-- The message a successful `encrypt` returned is put in flight. -/
def launch (plaintext : S) (m : EncryptedMessage S) : World B S :=
  { w with flights := w.flights ++ [{ sender := p, plaintext, message := m }] }

/-- The world without the message that was just delivered. -/
def landed (rest : List (Flight S)) : World B S := { w with flights := rest }

/-- `p` calls `encrypt` and puts the message in flight when there is one. -/
def send (plaintext : S) (context : Option InitialBundleContext) : World B S :=
  match w.encryptTo p P E plaintext context with
  | (.ok m, w') => w'.launch p plaintext m
  | (.error _, w') => w'

theorem send_of_ok {plaintext : S} {context : Option InitialBundleContext} {m : EncryptedMessage S}
    {w' : World B S} (h : w.encryptTo p P E plaintext context = (.ok m, w')) :
    w.send p P E plaintext context = w'.launch p plaintext m := by
  rw [send, h]

/-- Without a session nothing is sent and nothing changes. -/
theorem send_of_no_session (h : w.session p P = none) (plaintext : S)
    (context : Option InitialBundleContext) : w.send p P E plaintext context = w := by
  have hget : (w.host p).store.getSession P (w.identityKeyHex p.peer) = none := h
  have hrun : (encrypt P (w.identityKeyHex p.peer) plaintext context).run P E (w.host p) =
      (.error (.noActiveSession (w.identityKeyHex p.peer)), w.host p) := by
    simp [encrypt, EngineOp.handle, hget]
  rw [send, encryptTo, w.call_of_run p P E hrun]
  show w.withHost p (w.host p) = w
  simp [withHost, host]

end World

/-! ## Acts -/

/-- `p` seals a text, or the message at a place of those in flight is delivered. -/
inductive Act (S : Type) where
  | send (p : Party) (plaintext : S)
  | deliver (place : Nat)

namespace World

variable [DecidableEq S] (P : Primitives B S) (E : Entropy B)

/-- The world after an act. -/
def act (w : World B S) : Act S → World B S
  | .send p plaintext => w.send p P E plaintext none
  | .deliver place =>
      match w.flights[place]? with
      | some f =>
          (w.decryptAt f.sender.peer P E f.message).2.landed
            (w.flights.take place ++ w.flights.drop (place + 1))
      | none => w

/-- The acts of a list are allowed, each in the world it meets. -/
def AllowsAll (allowed : World B S → Act S → Prop) (w : World B S) : List (Act S) → Prop
  | [] => True
  | a :: acts => allowed w a ∧ (w.act P E a).AllowsAll allowed acts

instance decidableAllowsAll {allowed : World B S → Act S → Prop}
    [∀ w a, Decidable (allowed w a)] :
    (acts : List (Act S)) → (w : World B S) → Decidable (w.AllowsAll P E allowed acts)
  | [], _ => isTrue True.intro
  | a :: acts, w =>
      have : Decidable ((w.act P E a).AllowsAll P E allowed acts) := decidableAllowsAll acts _
      inferInstanceAs (Decidable (allowed w a ∧ (w.act P E a).AllowsAll P E allowed acts))

variable {P E}

/-- What every allowed act keeps holds after a list of them. -/
theorem AllowsAll.preserves {allowed : World B S → Act S → Prop} {inv : World B S → Prop}
    (hstep : ∀ w a, inv w → allowed w a → inv (w.act P E a)) {acts : List (Act S)} {w : World B S}
    (hacts : w.AllowsAll P E allowed acts) (hw : inv w) : inv (acts.foldl (act P E) w) := by
  induction acts generalizing w with
  | nil => exact hw
  | cons a acts ih => exact ih hacts.2 (hstep w a hw hacts.1)

omit [DecidableEq S] in
/-- The message at a place, between the ones before and behind it. -/
theorem flights_split {w : World B S} {place : Nat} {f : Flight S}
    (hf : w.flights[place]? = some f) :
    w.flights = w.flights.take place ++ f :: w.flights.drop (place + 1) := by
  obtain ⟨hlt, rfl⟩ := List.getElem?_eq_some_iff.1 hf
  rw [List.getElem_cons_drop, List.take_append_drop]

end World

/-! ## Further bundles -/

/-- `p` changed at most its prekeys. -/
structure KeepsSessions (P : Primitives B S) (p : Party) (w w' : World B S) : Prop where
  peer : w'.store p.peer = w.store p.peer
  identity : (w'.store p).identity = (w.store p).identity
  sessions : ∀ k, (w'.store p).getSession P k = (w.store p).getSession P k
  wellFormed : (w.store p).WellFormed P → (w'.store p).WellFormed P
  draws : w.draws ≤ w'.draws
  flights : w'.flights = w.flights

section

variable {P : Primitives B S} {E : Entropy B} {p : Party} {w w' : World B S}

theorem KeepsSessions.refl (w : World B S) : KeepsSessions P p w w :=
  ⟨rfl, rfl, fun _ => rfl, id, Nat.le_refl _, rfl⟩

theorem KeepsSessions.trans {w'' : World B S} (h : KeepsSessions P p w w')
    (h' : KeepsSessions P p w' w'') : KeepsSessions P p w w'' where
  peer := h'.peer.trans h.peer
  identity := h'.identity.trans h.identity
  sessions k := (h'.sessions k).trans (h.sessions k)
  wellFormed := h'.wellFormed ∘ h.wellFormed
  draws := h.draws.trans h'.draws
  flights := h'.flights.trans h.flights

theorem KeepsSessions.identity_eq (h : KeepsSessions P p w w') (q : Party) :
    (w'.store q).identity = (w.store q).identity := by
  by_cases hq : q = p
  · subst hq
    exact h.identity
  · rw [Party.eq_peer_of_ne hq, h.peer]

theorem KeepsSessions.session_eq (h : KeepsSessions P p w w') (q : Party) :
    w'.session q P = w.session q P := by
  have hkey : w'.identityKeyHex q.peer = w.identityKeyHex q.peer := by
    rw [World.identityKeyHex, h.identity_eq, World.identityKeyHex]
  rw [World.session, World.session, hkey]
  by_cases hq : q = p
  · subst hq
    exact h.sessions _
  · rw [Party.eq_peer_of_ne hq, h.peer]

theorem KeepsSessions.wellFormed_all (h : KeepsSessions P p w w') (q : Party)
    (hq : (w.store q).WellFormed P) : (w'.store q).WellFormed P := by
  by_cases hqp : q = p
  · subst hqp
    exact h.wellFormed hq
  · rw [Party.eq_peer_of_ne hqp] at hq ⊢
    rw [h.peer]
    exact hq

/-- One `generatePreKeyBundle` call changes at most the prekeys. -/
theorem keepsSessions_generate [DecidableEq S] (hE : E.Fresh P) (w : World B S) (p : Party)
    (count : Nat) : KeepsSessions P p w (w.generate p P E count).2 := by
  rcases run_generatePreKeyBundle_cases P E count (w.host p) with
    ⟨e, hfail⟩ | ⟨signatureHex, -, hok⟩
  · rw [show w.generate p P E count = _ from w.call_of_run p P E hfail]
    exact ⟨World.store_withHost_peer _ _ _, by simp [World.host], by simp [World.host],
      by simp [World.host], Nat.le_add_right _ _, rfl⟩
  · rw [show w.generate p P E count = _ from w.call_of_run p P E hok]
    refine ⟨World.store_withHost_peer _ _ _, by simp [World.host], by simp [World.host], ?_, ?_, rfl⟩
    · intro hwf
      rw [World.store_withHost_self]
      exact hwf.withBundle hE _ _ _
    · show w.draws ≤ w.draws + 3 + 2 * count
      omega

end

end TorE2EE.Crypto
