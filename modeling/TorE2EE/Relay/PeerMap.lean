import TorE2EE.Foundation.Traces
import TorE2EE.Relay.Isolation
import Mathlib.Data.List.FinRange

/-!
# The peer map and the open sessions

`subscribe_peer` registers the sender of a session, and the teardown of the session does not remove
it: a sender leaves the map when `dispatch_live` finds its channel closed. Besides the live sessions,
the map therefore holds exactly the sessions that ended since the last dispatch to their hash
(`Departures`).

`peer_map_tracks_iff`: the map is bounded by the open sessions if and only if there are, for every
hash, no more of those than open sessions that have authenticated and are not yet registered.
-/

set_option autoImplicit false
set_option linter.dupNamespace false

namespace TorE2EE.Relay

open TorE2EE.Foundation

variable {A : AuthLibrary} {r r' : Relay A}

/-! ## Sessions and senders -/

/-- The senders registered under a hash. -/
def Relay.senders (r : Relay A) (k : String) : List Nat := (r.activePeers k).getD []

/-- The session is open: neither of its tasks has ended. -/
def Session.active (s : Session A) : Bool :=
  match s.phase with
  | .ended _ => false
  | .streaming _ _ _ receiveEnded => !receiveEnded
  | _ => true

/-- The tasks of every session that is not open have finished. -/
def Settled (r : Relay A) : Prop := ∀ s ∈ r.sessions, s.phase.receiving = true → s.active = true

/-- The number of open sessions authenticated for a hash. -/
def openFor (r : Relay A) (k : String) : Nat :=
  r.sessions.countP fun s => s.active && decide (s.mailbox = some k)

/-- The number of open sessions authenticated for a hash that have not registered. -/
def unregisteredFor (r : Relay A) (k : String) : Nat :=
  r.sessions.countP fun s => s.active && !s.phase.subscribed && decide (s.mailbox = some k)

/-- The peer map is bounded by the open sessions. -/
structure TracksSessions (r : Relay A) : Prop where
  senders : ∀ k, (r.senders k).length ≤ openFor r k
  entries : ∀ k, openFor r k = 0 → r.activePeers k = none
  size : ∀ ks : List String, ks.Nodup → (∀ k ∈ ks, (r.activePeers k).isSome) →
    ks.length ≤ r.sessions.countP Session.active

/-! ## Departures -/

/-- What happens to the senders of a hash besides registration. -/
inductive PeerEvent where
  | left (j : Nat) (k : String)
  | dispatched (k : String)
  deriving DecidableEq

/-- The event of a step of the relay: a registered session ends, or a message is dispatched. -/
def peerEvent (r : Relay A) : Action → Option PeerEvent
  | .dispatch i => r.requests[i]?.map fun q => .dispatched q.payload.recipientPubkeyHash
  | .session i a =>
      r.sessions[i]?.bind fun s => (s.step a).bind fun s' =>
        if s.phase.receiving = true ∧ s'.phase.receiving = false then s.mailbox.map (.left i)
        else none
  | .closeChannel i => (r.sessions[i]?.bind Session.mailbox).map (.left i)
  | _ => none

/-- The sessions of a hash that ended since the last dispatch to it, after one more event. -/
def depart (k : String) (js : List Nat) : PeerEvent → List Nat
  | .left j k' => if k' = k then js ++ [j] else js
  | .dispatched k' => if k' = k then [] else js

/-- The registered sessions of a hash that ended since the last dispatch to it. -/
def departed (k : String) (trace : List PeerEvent) : List Nat := trace.foldl (depart k) []

theorem departed_append_toList (k : String) (trace : List PeerEvent) (o : Option PeerEvent) :
    departed k (trace ++ o.toList) = o.elim (departed k trace) (depart k (departed k trace)) := by
  cases o with
  | none => simp
  | some e => simp [departed, List.foldl_append]

/-- The senders whose channel is closed are the departed sessions, and no entry is empty. -/
structure Departures (trace : List PeerEvent) (r : Relay A) : Prop where
  mem : ∀ k j, j ∈ departed k trace ↔ j ∈ r.senders k ∧ isOpen r.sessions j = false
  nodup : ∀ k, (departed k trace).Nodup
  entries : ∀ k, r.activePeers k ≠ some []

theorem departures_init (config : Config) (clock : Int) :
    Departures [] (Relay.init config clock : Relay A) where
  mem k j := iff_of_false List.not_mem_nil fun h => List.not_mem_nil h.1
  nodup _ := List.nodup_nil
  entries k h := by cases h

/-! ## Steps -/

theorem isOpen_set {sessions : List (Session A)} {i : Nat} {s s' : Session A}
    (hs : sessions[i]? = some s) (j : Nat) :
    isOpen (sessions.set i s') j = if j = i then s'.phase.receiving else isOpen sessions j := by
  unfold isOpen
  by_cases hj : j = i
  · subst hj
    rw [getElem?_set_self_of_some hs, if_pos rfl]
    rfl
  · rw [List.getElem?_set_ne (Ne.symm hj), if_neg hj]

/-- A step without an event keeps the map, and the channels of the registered sessions as they
are. -/
theorem Departures.quiet {trace : List PeerEvent} (h : Departures trace r) {a : Action}
    (hevent : peerEvent r a = none) (hpeers : r'.activePeers = r.activePeers)
    (hopen : ∀ k, ∀ j ∈ r.senders k, isOpen r'.sessions j = isOpen r.sessions j) :
    Departures (trace ++ (peerEvent r a).toList) r' := by
  rw [hevent, Option.toList_none, List.append_nil]
  have hsenders : r'.senders = r.senders := by
    unfold Relay.senders
    rw [hpeers]
  refine ⟨?_, h.nodup, by rw [hpeers]; exact h.entries⟩
  intro k j
  rw [h.mem k j, hsenders]
  constructor
  · rintro ⟨hj, hclosed⟩
    exact ⟨hj, (hopen k j hj).trans hclosed⟩
  · rintro ⟨hj, hclosed⟩
    exact ⟨hj, (hopen k j hj).symm.trans hclosed⟩

/-- A sender of a hash is that of a session which has authenticated with it and subscribed. -/
theorem session_of_mem_senders (hr : Consistent r) {k : String} {j : Nat} (hj : j ∈ r.senders k) :
    ∃ t, r.sessions[j]? = some t ∧ t.mailbox = some k ∧ t.phase.subscribed = true := by
  cases htxs : r.activePeers k with
  | none =>
      rw [Relay.senders, htxs] at hj
      cases hj
  | some txs =>
      rw [Relay.senders, htxs] at hj
      exact (hr.senders k txs htxs).2 j hj

/-- A registered session that ends joins the departed. -/
theorem Departures.left {trace : List PeerEvent} (h : Departures trace r) (hr : Consistent r)
    {i : Nat} {s s' : Session A} {k₀ : String} (hs : r.sessions[i]? = some s)
    (hbefore : s.phase.receiving = true) (hafter : s'.phase.receiving = false)
    (hbox : s.mailbox = some k₀) : Departures (trace ++ [.left i k₀]) (r.withSession i s') := by
  have hopen : isOpen r.sessions i = true := isOpen_iff.2 ⟨s, hs, hbefore⟩
  have hdeparted (k : String) : departed k (trace ++ [.left i k₀]) =
      if k₀ = k then departed k trace ++ [i] else departed k trace :=
    departed_append_toList k trace (some (.left i k₀))
  -- its sender is registered under its own hash and no other
  have hregistered (k : String) : i ∈ r.senders k ↔ k₀ = k := by
    constructor
    · intro hi
      obtain ⟨t, ht, hmailbox, -⟩ := session_of_mem_senders hr hi
      cases hs.symm.trans ht
      exact Option.some.inj (hbox.symm.trans hmailbox)
    · rintro rfl
      obtain ⟨txs, htxs, hi⟩ := hr.registered i s hs hbefore k₀ hbox
      rw [Relay.senders, htxs]
      exact hi
  constructor
  · intro k j
    show _ ↔ j ∈ r.senders k ∧ isOpen (r.sessions.set i s') j = false
    rw [isOpen_set hs, hdeparted]
    by_cases hj : j = i
    · subst hj
      -- it was open until now, so that it has not departed before
      have hnew : j ∉ departed k trace := fun hmem => by
        rw [((h.mem k j).1 hmem).2] at hopen
        cases hopen
      rw [if_pos rfl, hregistered]
      split <;> simp [*]
    · rw [if_neg hj, ← h.mem]
      split <;> simp [hj]
  · intro k
    rw [hdeparted]
    split
    · apply nodup_concat (h.nodup k)
      intro hmem
      rw [((h.mem k i).1 hmem).2] at hopen
      cases hopen
    · exact h.nodup k
  · exact h.entries

/-- A dispatch drops the departed senders of its hash. -/
theorem Departures.dispatched {trace : List PeerEvent} (h : Departures trace r) {k₀ : String}
    (hpeers : ∀ k, k ≠ k₀ → r'.activePeers k = r.activePeers k)
    (hopen : ∀ j, isOpen r'.sessions j = isOpen r.sessions j)
    (hkept : ∀ j ∈ r'.senders k₀, isOpen r.sessions j = true)
    (hentry : r'.activePeers k₀ ≠ some []) : Departures (trace ++ [.dispatched k₀]) r' := by
  have hdeparted (k : String) : departed k (trace ++ [.dispatched k₀]) =
      if k₀ = k then [] else departed k trace :=
    departed_append_toList k trace (some (.dispatched k₀))
  constructor
  · intro k j
    rw [hdeparted, hopen]
    by_cases hk : k₀ = k
    · subst hk
      rw [if_pos rfl]
      -- after the dispatch every sender of the hash is open, and none has departed since
      refine iff_of_false List.not_mem_nil ?_
      rintro ⟨hj, hclosed⟩
      rw [hkept j hj] at hclosed
      cases hclosed
    · rw [if_neg hk, h.mem, Relay.senders, Relay.senders, hpeers k (Ne.symm hk)]
  · intro k
    rw [hdeparted]
    split
    · exact List.nodup_nil
    · exact h.nodup k
  · intro k
    by_cases hk : k = k₀
    · subst hk
      exact hentry
    · rw [hpeers k hk]
      exact h.entries k

theorem isOpen_retainSending (c : Copy) {senders : List Nat} (hnodup : senders.Nodup)
    (sessions : List (Session A)) (j : Nat) :
    isOpen (retainSending c senders sessions).2 j = isOpen sessions j := by
  unfold isOpen
  rw [getElem?_retainSending c hnodup sessions j]
  cases sessions[j]? with
  | none => rfl
  | some s =>
      by_cases hj : j ∈ senders
      · simp [hj, (push_keeps s c).2.2.2.1]
      · simp [hj]

/-- A session that has not subscribed is registered nowhere. -/
theorem not_mem_senders (hr : Consistent r) {i : Nat} {s : Session A}
    (hs : r.sessions[i]? = some s) (hphase : s.phase.subscribed = false) (k : String) :
    i ∉ r.senders k := by
  intro hi
  obtain ⟨t, ht, -, hsubscribed⟩ := session_of_mem_senders hr hi
  cases hs.symm.trans ht
  rw [hphase] at hsubscribed
  cases hsubscribed

/-- What happens to a session that has not subscribed concerns no registered one. -/
theorem isOpen_set_of_not_subscribed (hr : Consistent r) {i : Nat} {s s' : Session A}
    (hs : r.sessions[i]? = some s) (hphase : s.phase.subscribed = false) {k : String} {j : Nat}
    (hj : j ∈ r.senders k) : isOpen (r.sessions.set i s') j = isOpen r.sessions j := by
  have hji : j ≠ i := fun hsame => not_mem_senders hr hs hphase k (hsame ▸ hj)
  exact (isOpen_set hs j).trans (if_neg hji)

/-- A session that registers has an open channel. -/
theorem Departures.subscribing {trace : List PeerEvent} (h : Departures trace r)
    (hr : Consistent r) {i : Nat} {s : Session A} {login : Login A s.challenge}
    (hs : r.sessions[i]? = some s) (hphase : s.phase = .draining login []) :
    Departures trace (r.subscribing i s login) := by
  have hnew := not_mem_senders hr hs (by rw [hphase]; rfl)
  have hsenders (k : String) : (r.subscribing i s login).senders k =
      if k = login.hash then r.senders k ++ [i] else r.senders k := by
    show ((Function.update r.activePeers login.hash _) k).getD [] = _
    by_cases hk : k = login.hash
    · subst hk
      rw [Function.update_self, if_pos rfl]
      rfl
    · rw [Function.update_of_ne hk, if_neg hk]
      rfl
  have hopen (j : Nat) : isOpen (r.subscribing i s login).sessions j =
      if j = i then true else isOpen r.sessions j := isOpen_set hs j
  refine ⟨?_, h.nodup, ?_⟩
  · intro k j
    rw [h.mem k j, hsenders, hopen]
    by_cases hj : j = i
    · subst hj
      -- the new sender is open, and was not a sender before
      exact iff_of_false (fun hmem => hnew k hmem.1) (fun hmem => by simp at hmem)
    · rw [if_neg hj]
      split <;> simp [hj]
  · intro k
    show Function.update r.activePeers login.hash _ k ≠ some []
    by_cases hk : k = login.hash
    · subst hk
      simp [Function.update_self]
    · rw [Function.update_of_ne hk]
      exact h.entries k

/-- The step lemma. -/
theorem Departures.step {trace : List PeerEvent} (h : Departures trace r) (hr : Consistent r)
    {a : Action} (hs : Step r a r') : Departures (trace ++ (peerEvent r a).toList) r' := by
  cases hs with
  | tick | sendMessage | enqueue | enqueueFailed | dropRequest | cleanup | cleanupFailed =>
      exact h.quiet rfl rfl fun _ _ _ => rfl
  | connect hlength =>
      -- a session that has just connected is not registered
      refine h.quiet rfl rfl fun _ j _ => ?_
      unfold isOpen
      dsimp only
      rw [List.getElem?_append]
      split
      · rfl
      · rename_i hj
        rw [List.getElem?_eq_none (Nat.le_of_not_lt hj), List.getElem?_singleton]
        split <;> rfl
  | @dispatch i q msg hq hphase =>
      have hevent : peerEvent r (.dispatch i) = some (.dispatched msg.recipientPubkeyHash) := by
        rw [peerEvent, hq, (hr.waiting i q msg hq hphase).recipient]
        rfl
      rw [hevent]
      -- either the open senders are kept, one at least, or the entry is dropped
      rcases dispatching_cases r i q msg with
        ⟨senders, tx, hsenders, htx, hopen, heq⟩ | ⟨-, heq⟩
      · rw [heq]
        apply h.dispatched
        · intro k hk
          exact Function.update_of_ne hk _ _
        · intro j
          exact isOpen_retainSending _ (hr.senders _ senders hsenders).1 r.sessions j
        · intro j hj
          simp only [Relay.senders, Relay.dispatchedTo, Function.update_self, Option.getD_some]
            at hj
          exact (List.mem_filter.1 hj).2
        · simp only [Relay.dispatchedTo, Function.update_self, ne_eq, Option.some.injEq]
          exact List.ne_nil_of_mem (List.mem_filter.2 ⟨htx, hopen⟩)
      · rw [heq]
        apply h.dispatched
        · intro k hk
          exact Function.update_of_ne hk _ _
        · exact fun _ => rfl
        · intro j hj
          simp [Relay.senders, Relay.undispatched] at hj
        · simp [Relay.undispatched]
  | fetch hsession hphase =>
      exact h.quiet rfl rfl fun _ _ hj =>
        isOpen_set_of_not_subscribed hr hsession (by rw [hphase]; rfl) hj
  | fetchFailed hsession hphase =>
      exact h.quiet rfl rfl fun _ _ hj =>
        isOpen_set_of_not_subscribed hr hsession (by rw [hphase]; rfl) hj
  | @subscribe i s login hsession hphase =>
      have hevent : peerEvent r (.subscribe i) = none := rfl
      rw [hevent, Option.toList_none, List.append_nil]
      exact h.subscribing hr hsession hphase
  | @closeChannel i s login receiveEnded hsession hphase hgone =>
      -- the sender of a live session is in the map
      obtain ⟨txs, htxs, hi⟩ := hr.registered i s hsession (by rw [hphase]; rfl) login.hash
        (mailbox_of_login (by rw [hphase]; rfl))
      rw [htxs] at hgone
      exact absurd hi hgone
  | @session i s s' b hsession hstep =>
      have hmoves := Session.moves_of_step hstep
      -- of the steps of a session only the one that ends a registered session is an event
      by_cases hleft : s.phase.receiving = true ∧ s'.phase.receiving = false
      · obtain ⟨login, _, _, _, hphase⟩ := streaming_of_receiving hleft.1
        have hbox : s.mailbox = some login.hash := mailbox_of_login (by rw [hphase]; rfl)
        have hevent : peerEvent r (.session i b) = some (.left i login.hash) := by
          simp [peerEvent, hsession, hstep, hleft, hbox]
        rw [hevent]
        exact h.left hr hsession hleft.1 hleft.2 hbox
      · have hevent : peerEvent r (.session i b) = none := by
          simp [peerEvent, hsession, hstep, hleft]
        refine h.quiet hevent rfl fun k j _ => ?_
        refine (isOpen_set hsession j).trans ?_
        split
        · rename_i hj
          subst hj
          have hsame : s'.phase.receiving = s.phase.receiving := by
            have hback := hmoves.receiving
            revert hleft hback
            cases s.phase.receiving <;> cases s'.phase.receiving <;> simp
          rw [hsame, isOpen, hsession]
          rfl
        · rfl

/-- In every run, the senders with a closed channel are the departed sessions. -/
theorem departures_of_traced {config : Config} {clock : Int} {trace : List PeerEvent}
    (h : Traced Relay.step peerEvent (Relay.init config clock) trace r) : Departures trace r := by
  apply h.invariant (departures_init config clock)
  intro trace r r' a htraced ih hs
  exact ih.step (consistent_of_reachable htraced.reachable) (step_of_eq hs)

/-! ## Counting -/

/-- The positions of the elements with a property are as many as these elements. -/
theorem length_eq_countP {β : Type} {p : β → Bool} {xs : List β} {js : List Nat}
    (hnodup : js.Nodup) (h : ∀ j, j ∈ js ↔ ∃ x, xs[j]? = some x ∧ p x = true) :
    js.length = xs.countP p := by
  -- both list the same positions, each of them once
  have hpositions : js.Perm (((List.finRange xs.length).filter fun i => p (xs.get i)).map
      Fin.val) := by
    have hrange : (((List.finRange xs.length).filter fun i => p (xs.get i)).map Fin.val).Nodup :=
      ((List.nodup_finRange _).filter _).map Fin.val_injective
    apply (List.perm_ext_iff_of_nodup hnodup hrange).2
    intro j
    rw [h, List.mem_map]
    constructor
    · rintro ⟨x, hx, hp⟩
      obtain ⟨hlt, rfl⟩ := List.getElem?_eq_some_iff.1 hx
      exact ⟨⟨j, hlt⟩, List.mem_filter.2 ⟨List.mem_finRange _, hp⟩, rfl⟩
    · rintro ⟨i, hi, rfl⟩
      exact ⟨xs.get i, List.getElem?_eq_getElem i.isLt, (List.mem_filter.1 hi).2⟩
  calc js.length = ((List.finRange xs.length).filter fun i => p (xs.get i)).length := by
        rw [hpositions.length_eq, List.length_map]
    _ = (List.finRange xs.length).countP (p ∘ xs.get) := List.countP_eq_length_filter.symm
    _ = ((List.finRange xs.length).map xs.get).countP p := (List.countP_map ..).symm
    _ = xs.countP p := by rw [List.map_get_finRange]

/-- The live sessions of a hash. -/
def liveFor (r : Relay A) (k : String) : Nat :=
  r.sessions.countP fun s => s.phase.receiving && decide (s.mailbox = some k)

/-- The registered senders are the live sessions and the departed ones. -/
theorem length_senders {trace : List PeerEvent} (h : Departures trace r) (hr : Consistent r)
    (k : String) : (r.senders k).length = liveFor r k + (departed k trace).length := by
  have hnodup : (r.senders k).Nodup := by
    rw [Relay.senders]
    cases htxs : r.activePeers k with
    | none => exact List.nodup_nil
    | some txs => exact (hr.senders k txs htxs).1
  -- the senders with an open channel are the live sessions
  have hlive : ((r.senders k).filter (isOpen r.sessions)).length = liveFor r k := by
    apply length_eq_countP (hnodup.filter _)
    intro j
    rw [List.mem_filter, isOpen_iff]
    constructor
    · rintro ⟨hj, s, hs, hreceiving⟩
      obtain ⟨t, ht, hbox, -⟩ := session_of_mem_senders hr hj
      cases hs.symm.trans ht
      exact ⟨s, hs, by simp [hreceiving, hbox]⟩
    · rintro ⟨s, hs, hp⟩
      rw [Bool.and_eq_true, decide_eq_true_iff] at hp
      obtain ⟨txs, htxs, hj⟩ := hr.registered j s hs hp.1 k hp.2
      rw [Relay.senders, htxs]
      exact ⟨hj, s, hs, hp.1⟩
  -- and those with a closed one have departed
  have hdeparted : ((r.senders k).filter fun j => !isOpen r.sessions j).length =
      (departed k trace).length := by
    apply List.Perm.length_eq
    apply (List.perm_ext_iff_of_nodup (hnodup.filter _) (h.nodup k)).2
    intro j
    rw [List.mem_filter, Bool.not_eq_true', h.mem]
  rw [← hlive, ← hdeparted, List.length_eq_length_filter_add (isOpen r.sessions)]

/-- In a settled state, the open sessions of a hash are the live ones and those not registered. -/
theorem openFor_eq (hsettled : Settled r) (k : String) :
    openFor r k = liveFor r k + unregisteredFor r k := by
  rw [openFor, liveFor, unregisteredFor]
  rw [List.countP_eq_countP_filter_add _ _ fun s : Session A => s.phase.receiving,
    List.countP_filter, List.countP_filter]
  congr 1
  · apply List.countP_congr
    intro s hs
    have hopen := hsettled s hs
    cases hreceiving : s.phase.receiving <;> simp_all
  · apply List.countP_congr
    intro s _
    -- a session that has not ended is live or has not subscribed
    have hcases : s.active = true → (s.phase.subscribed = s.phase.receiving) := by
      rw [Session.active]
      cases s.phase <;> simp [Phase.subscribed, Phase.receiving]
    cases hopen : s.active <;> simp_all [and_comm]

/-! ## The map against the sessions -/

/-- The bound on the senders gives the other two: no entry is empty, and different hashes have
different sessions. -/
theorem tracksSessions_of_senders {trace : List PeerEvent} (h : Departures trace r)
    (hle : ∀ k, (r.senders k).length ≤ openFor r k) : TracksSessions r := by
  -- an entry has a sender, and the sender a session of its hash
  have hentry {k : String} (hk : r.activePeers k ≠ none) : 0 < openFor r k := by
    apply Nat.lt_of_lt_of_le _ (hle k)
    rw [Relay.senders]
    cases htxs : r.activePeers k with
    | none => exact absurd htxs hk
    | some txs =>
        cases txs with
        | nil => exact absurd htxs (h.entries k)
        | cons tx txs => exact Nat.succ_pos _
  refine ⟨hle, ?_, ?_⟩
  · intro k hnone
    by_contra hk
    have hpos := hentry hk
    rw [hnone] at hpos
    cases hpos
  · intro ks hnodup hks
    -- each hash has an open session, and a session has one hash
    have hsub : ks.map some ⊆ (r.sessions.filter Session.active).map Session.mailbox := by
      intro o ho
      obtain ⟨k, hk, rfl⟩ := List.mem_map.1 ho
      obtain ⟨s, hs, hp⟩ := List.countP_pos_iff.1 (hentry (Option.isSome_iff_ne_none.1 (hks k hk)))
      rw [Bool.and_eq_true, decide_eq_true_iff] at hp
      exact List.mem_map.2 ⟨s, List.mem_filter.2 ⟨hs, hp.1⟩, hp.2⟩
    have hlen := (List.subperm_of_subset (hnodup.map (Option.some_injective _)) hsub).length_le
    rwa [List.length_map, List.length_map, ← List.countP_eq_length_filter] at hlen

/-- In every settled state of every run, the peer map is bounded by the open sessions if and only if
for every hash at most as many of its registered sessions have ended since the last dispatch to it
as there are open sessions authenticated for it that are not yet registered. -/
theorem peer_map_tracks_iff {config : Config} {clock : Int} {trace : List PeerEvent}
    (h : Traced Relay.step peerEvent (Relay.init config clock) trace r) (hsettled : Settled r) :
    TracksSessions r ↔ ∀ k, (departed k trace).length ≤ unregisteredFor r k := by
  have hdepartures := departures_of_traced h
  have hcount (k : String) : (r.senders k).length ≤ openFor r k ↔
      (departed k trace).length ≤ unregisteredFor r k := by
    rw [length_senders hdepartures (consistent_of_reachable h.reachable), openFor_eq hsettled,
      Nat.add_le_add_iff_left]
  constructor
  · exact fun htracks k => (hcount k).1 (htracks.senders k)
  · exact fun hle => tracksSessions_of_senders hdepartures fun k => (hcount k).2 (hle k)

/-! ## A session that goes away -/

theorem settled_of_all
    (h : (r.sessions.all fun s => !s.phase.receiving || s.active) = true) : Settled r := by
  intro s hs hreceiving
  simpa [hreceiving] using List.all_eq_true.1 h s hs

/-- A client goes live and closes its connection. -/
def comeAndGo : List Action :=
  logIn 0 ++ [.fetch 0 true, .subscribe 0, .session 0 (.receive .close), .session 0 .abortSendTask]

theorem peer_map_tracks_iff_plain :
    ∃ (trace : List PeerEvent) (r : Relay plainLibrary),
      Traced Relay.step peerEvent plainRelay trace r ∧ Settled r ∧
      (TracksSessions r ↔ ∀ k, (departed k trace).length ≤ unregisteredFor r k) := by
  -- the client comes back and has not registered yet
  have hruns : (Traced.collect Relay.step peerEvent (comeAndGo ++ logIn 1) [] plainRelay).map
      (fun p => p.2.sessions.all fun s => !s.phase.receiving || s.active) = some true := by
    decide +kernel
  obtain ⟨⟨trace, r⟩, hr, hall⟩ := Option.map_eq_some_iff.1 hruns
  have htraced := Traced.start.of_collect hr
  have hsettled := settled_of_all hall
  exact ⟨trace, r, htraced, hsettled, peer_map_tracks_iff htraced hsettled⟩

/-- The sender of the client stays in the map after every task of its session has finished. -/
theorem sender_left_behind :
    ∃ r : Relay plainLibrary, Reachable Relay.step (fun _ _ => True) plainRelay r ∧
      Settled r ∧ ¬ TracksSessions r := by
  have hend : (runActions Relay.step comeAndGo plainRelay).map (fun r =>
      (r.sessions.all fun s => !s.phase.receiving || s.active, r.activePeers plainMailbox,
        openFor r plainMailbox)) = some (true, some [0], 0) := by decide +kernel
  obtain ⟨r, hr, hvalues⟩ := Option.map_eq_some_iff.1 hend
  simp only [Prod.mk.injEq] at hvalues
  obtain ⟨hall, hentry, hopen⟩ := hvalues
  refine ⟨r, .of_runActions (fun _ _ _ => trivial) .start hr, settled_of_all hall, ?_⟩
  intro htracks
  rw [htracks.entries plainMailbox hopen] at hentry
  cases hentry

end TorE2EE.Relay
