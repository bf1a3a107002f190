import TorE2EE.Foundation.Pool
import TorE2EE.Foundation.UnlockedUpdates
import TorE2EE.Client.Imports

/-!
# Concurrent additions to a list of devices

`addLinkedDevice` reads a contact, and writes it back with the device in its list; nothing holds the
row in between. Here any number of calls for one contact are under way, cut open between their reads
and their writes.

The calls are those of an `UnlockedList` of devices (`Simulates`). `linked_devices_kept_iff`: no
device is lost along a schedule, if and only if every call that writes has read a record for every
device that has been added by then.
-/

set_option autoImplicit false

namespace TorE2EE.Client

open TorE2EE.Foundation TorE2EE.Crypto

variable {B S : Type} [DecidableEq S]

/-! ## Calls under way -/

/-- A call of `addLinkedDevice`. -/
structure LinkCall (S : Type) where
  recipientPubkeyHash : S
  device : DeviceRecord S

/-- Calls under way over one database. -/
abbrev LinkPool (B S : Type) : Type :=
  Pool (ClientOp B S) ClientOp.Resp (ClientError S) Unit (ClientState B S) Unit

/-- One of them. -/
abbrev LinkThread (B S : Type) : Type :=
  Thread (ClientOp B S) ClientOp.Resp (ClientError S) Unit (ClientState B S) Unit

/-- What is left of a call that has read the contact. -/
def writeBack (contact : ContactRecord S) (device : DeviceRecord S) : ClientM B S Unit :=
  ask (.saveContact
    { contact with
      linkedDevices :=
        contact.linkedDevices.filter (fun d => d.deviceId ≠ device.deviceId) ++ [device] })

section

variable (P : Primitives B S) (E : Entropy B) (N : Network)

/-- `getLinkedDevices`. -/
def ClientState.getLinkedDevices (x : ClientState B S) (recipientPubkeyHash : S) :
    List (DeviceRecord S) :=
  match x.getContactByHash P recipientPubkeyHash with
  | none => []
  | some contact => contact.linkedDevices

/-- One operation of a call. A call has no state of its own. -/
def handleLink : Handler (ClientOp B S) ClientOp.Resp (ClientState B S × Unit) :=
  fun o s => ((ClientOp.handle P E N o s.1).1, (ClientOp.handle P E N o s.1).2, ())

/-- A call before its first operation. -/
def LinkCall.thread (c : LinkCall S) :
    LinkThread B S :=
  { handle := handleLink P E N
    own := ()
    rest := addLinkedDevice c.recipientPubkeyHash c.device }

/-- The calls before their first operations. -/
def linkPool (calls : List (LinkCall S)) (x : ClientState B S) : LinkPool B S :=
  { threads := calls.map (LinkCall.thread P E N), store := x }

/-- The device ids are distinct, every call that has returned has a record under its device id, and no
device of the first list is lost whose id was not passed. -/
structure NoDeviceLost (hash : S) (first : List (DeviceRecord S)) (calls : List (LinkCall S))
    (p : LinkPool B S) : Prop where
  distinct : ((p.store.getLinkedDevices P hash).map DeviceRecord.deviceId).Nodup
  added : ∀ (i : Nat) c t, calls[i]? = some c → p.threads[i]? = some t →
    t.outcome? = some (.ok ()) → ∃ c' ∈ calls, c'.device.deviceId = c.device.deviceId ∧
      c'.device ∈ p.store.getLinkedDevices P hash
  kept : ∀ d ∈ first, (∀ c ∈ calls, c.device.deviceId ≠ d.deviceId) →
    d ∈ p.store.getLinkedDevices P hash

end

/-- A call that writes next has read, for every call that has returned, a record under its device
id. -/
def ReadsCurrent (calls : List (LinkCall S)) (p : LinkPool B S) (i : Nat) : Prop :=
  ∀ c t contact, calls[i]? = some c → p.threads[i]? = some t → t.rest = writeBack contact c.device →
    ∀ (j : Nat) d u, calls[j]? = some d → p.threads[j]? = some u → u.outcome? = some (.ok ()) →
      d.device.deviceId ≠ c.device.deviceId →
        ∃ c' ∈ calls, c'.device.deviceId = d.device.deviceId ∧ c'.device ∈ contact.linkedDevices

variable {P : Primitives B S} {E : Entropy B} {N : Network}

/-- `addLinkedDevice` is a read and, when there is a contact, a write. -/
theorem run_addLinkedDevice (hash : S) (device : DeviceRecord S) (x : ClientState B S) :
    (addLinkedDevice hash device).run P E N x =
      match x.getContactByHash P hash with
      | none => (.error (.contactNotFound hash), x)
      | some contact => (writeBack contact device).run P E N x := by
  rw [addLinkedDevice, ask, ClientM.run, Program.run_perform_bind]
  simp only [ClientOp.handle]
  cases x.getContactByHash P hash with
  | none => rfl
  | some contact => rfl

/-! ## The calls as calls of an unlocked list -/

/-- A thread is a call of the list in its phase. -/
def InPhase (P : Primitives B S) (E : Entropy B) (N : Network) (hash : S)
    (t : LinkThread B S)
    (c : UpdateCall (DeviceRecord S)) : Prop :=
  t.handle = handleLink P E N ∧
    match c.phase with
    | .waiting => ∃ h, P.toLowerCase h = P.toLowerCase hash ∧ t.rest = addLinkedDevice h c.entry
    | .holding read => ∃ contact, P.toLowerCase contact.recipientPubkeyHash = P.toLowerCase hash ∧
        contact.linkedDevices = read ∧ t.rest = writeBack contact c.entry
    | .done => t.rest = pure ()

/-- The stored list is the list of the contact, and every thread is its call. -/
structure Simulates (P : Primitives B S) (E : Entropy B) (N : Network) (hash : S) (p : LinkPool B S)
    (s : UnlockedList (DeviceRecord S)) : Prop where
  stored : ∃ contact, p.store.getContactByHash P hash = some contact ∧
    contact.linkedDevices = s.stored
  length : p.threads.length = s.calls.length
  threads : ∀ (i : Nat) t c, p.threads[i]? = some t → s.calls[i]? = some c → InPhase P E N hash t c

theorem Simulates.getLinkedDevices {hash : S} {p : LinkPool B S} {s : UnlockedList (DeviceRecord S)}
    (h : Simulates P E N hash p s) : p.store.getLinkedDevices P hash = s.stored := by
  obtain ⟨contact, hcontact, hdevices⟩ := h.stored
  rw [ClientState.getLinkedDevices, hcontact]
  exact hdevices

/-- A thread has returned when its call is done. -/
theorem InPhase.outcome_iff {hash : S}
    {t : LinkThread B S}
    {c : UpdateCall (DeviceRecord S)} (h : InPhase P E N hash t c) :
    t.outcome? = some (.ok ()) ↔ c.phase = .done := by
  obtain ⟨-, hphase⟩ := h
  cases hc : c.phase with
  | waiting =>
      simp only [hc] at hphase
      obtain ⟨h, -, hrest⟩ := hphase
      refine iff_of_false ?_ fun h => by cases h
      rw [Thread.outcome?, hrest]
      intro h
      cases h
  | holding read =>
      simp only [hc] at hphase
      obtain ⟨contact, -, -, hrest⟩ := hphase
      refine iff_of_false ?_ fun h => by cases h
      rw [Thread.outcome?, hrest]
      intro h
      cases h
  | done =>
      simp only [hc] at hphase
      refine iff_of_true ?_ rfl
      rw [Thread.outcome?, hphase]
      rfl

/-- Hashes with one lower case name one contact. -/
theorem getContactByHash_congr {x : ClientState B S} {h hash : S}
    (heq : P.toLowerCase h = P.toLowerCase hash) :
    x.getContactByHash P h = x.getContactByHash P hash := by
  rw [ClientState.getContactByHash, ClientState.getContactByHash, heq]

/-- The hash of a contact that was found is the one it was looked for by, in lower case. -/
theorem hash_of_getContactByHash {x : ClientState B S} {hash : S} {contact : ContactRecord S}
    (h : x.getContactByHash P hash = some contact) :
    contact.recipientPubkeyHash = P.toLowerCase hash := by
  obtain ⟨row, hrow, rfl⟩ := Option.map_eq_some_iff.1 h
  simpa [mapRowToContact] using List.find?_some hrow

omit [DecidableEq S] in
/-- A list of devices that is not empty is read as it is stored. -/
theorem linkedDevices_mapRowToContact {row : ContactRow S} (h : row.linked_devices ≠ []) :
    (mapRowToContact P row).linkedDevices = row.linked_devices := by
  cases hdevices : row.linked_devices with
  | nil => exact absurd hdevices h
  | cons d devices => simp [mapRowToContact, hdevices]

/-- A contact that has been written back with a device is read with this list. -/
theorem getContactByHash_writeBack {x : ClientState B S} {hash : S} {contact found : ContactRecord S}
    (hfound : x.getContactByHash P hash = some found)
    (hhash : P.toLowerCase contact.recipientPubkeyHash = P.toLowerCase hash)
    (device : DeviceRecord S) :
    ∃ c, ((writeBack contact device).run P E N x).2.getContactByHash P hash = some c ∧
      c.linkedDevices = putEntry DeviceRecord.deviceId device contact.linkedDevices := by
  obtain ⟨row, hrow, -⟩ := Option.map_eq_some_iff.1 hfound
  rw [← hhash] at hrow
  refine ⟨_, (getContactByHash_congr hhash.symm).trans (getContactByHash_saveContact hrow), ?_⟩
  exact linkedDevices_mapRowToContact
    (List.append_ne_nil_of_right_ne_nil _ (List.cons_ne_nil device []))

/-- The step lemma: a step of a thread is a step of its call. -/
theorem Simulates.step {hash : S}
    (hlower : P.toLowerCase (P.toLowerCase hash) = P.toLowerCase hash) {p : LinkPool B S}
    {s : UnlockedList (DeviceRecord S)} (h : Simulates P E N hash p s) (i : Nat) :
    Simulates P E N hash (p.step i) (s.step DeviceRecord.deviceId i) := by
  cases ht : p.threads[i]? with
  | none =>
      have hc : s.calls[i]? = none := by
        rw [List.getElem?_eq_none_iff] at ht ⊢
        exact h.length ▸ ht
      rw [Pool.step, ht, UnlockedList.step, hc]
      exact h
  | some t =>
      obtain ⟨hi, -⟩ := List.getElem?_eq_some_iff.1 ht
      have hi' : i < s.calls.length := h.length ▸ hi
      obtain ⟨c, hc⟩ : ∃ c, s.calls[i]? = some c := ⟨_, List.getElem?_eq_getElem hi'⟩
      obtain ⟨hhandle, hphase⟩ := h.threads i t c ht hc
      obtain ⟨found, hfound, hdevices⟩ := h.stored
      -- one thread and its call move on, the others stay
      have hset (t' : LinkThread B S)
          (c' : UpdateCall (DeviceRecord S)) (hnew : InPhase P E N hash t' c') :
          ∀ (j : Nat) u d, (p.threads.set i t')[j]? = some u → (s.calls.set i c')[j]? = some d →
            InPhase P E N hash u d := by
        intro j u d hu hd
        by_cases hj : i = j
        · subst hj
          rw [List.getElem?_set_self hi] at hu
          rw [List.getElem?_set_self hi'] at hd
          cases hu
          cases hd
          exact hnew
        · rw [List.getElem?_set_ne hj] at hu hd
          exact h.threads j u d hu hd
      have hlength (t' : LinkThread B S)
          (c' : UpdateCall (DeviceRecord S)) :
          (p.threads.set i t').length = (s.calls.set i c').length := by
        rw [List.length_set, List.length_set, h.length]
      cases hcphase : c.phase with
      | waiting =>
          simp only [hcphase] at hphase
          obtain ⟨hash', hhash', hrest⟩ := hphase
          have hread : p.store.getContactByHash P hash' = some found :=
            (getContactByHash_congr hhash').trans hfound
          have hstep : t.step p.store =
              ({ t with own := (), rest := writeBack found c.entry }, p.store) := by
            simp only [Thread.step, hrest, addLinkedDevice, ask, bind, Program.bind, Program.perform,
              hhandle, handleLink, ClientOp.handle, hread]
            rfl
          simp only [Pool.step, ht, hstep, UnlockedList.step, hc, hcphase]
          refine ⟨⟨found, hfound, hdevices⟩, hlength _ _, hset _ _ ⟨hhandle, found, ?_, hdevices, rfl⟩⟩
          rw [hash_of_getContactByHash hfound, hlower]
      | holding read =>
          simp only [hcphase] at hphase
          obtain ⟨contact, hhash, hread, hrest⟩ := hphase
          have hstep : t.step p.store = ({ t with own := (), rest := pure () },
              ((writeBack contact c.entry).run P E N p.store).2) := by
            simp only [Thread.step, hrest, writeBack, ask, Program.perform, hhandle, handleLink]
            rfl
          simp only [Pool.step, ht, hstep, UnlockedList.step, hc, hcphase]
          refine ⟨?_, hlength _ _, hset _ _ ⟨hhandle, rfl⟩⟩
          rw [← hread]
          exact getContactByHash_writeBack (E := E) (N := N) hfound hhash c.entry
      | done =>
          simp only [hcphase] at hphase
          have hstep : t.step p.store = (t, p.store) := by
            simp only [Thread.step, hphase]
            rfl
          simp only [Pool.step, ht, hstep, UnlockedList.step, hc, hcphase]
          have hsame : p.threads.set i t = p.threads := by
            obtain ⟨hi, rfl⟩ := List.getElem?_eq_some_iff.1 ht
            exact List.set_getElem_self hi
          rw [hsame]
          exact h

/-- The run lemma. -/
theorem Simulates.run {hash : S}
    (hlower : P.toLowerCase (P.toLowerCase hash) = P.toLowerCase hash) {p : LinkPool B S}
    {s : UnlockedList (DeviceRecord S)} (h : Simulates P E N hash p s) (schedule : List Nat) :
    Simulates P E N hash (p.run schedule) (s.run DeviceRecord.deviceId schedule) := by
  induction schedule generalizing p s with
  | nil => exact h
  | cons i schedule ih => exact ih (h.step hlower i)

theorem simulates_linkPool {x : ClientState B S} {hash : S} {contact : ContactRecord S}
    (hcontact : x.getContactByHash P hash = some contact) {calls : List (LinkCall S)}
    (hcalls : ∀ c ∈ calls, P.toLowerCase c.recipientPubkeyHash = P.toLowerCase hash) :
    Simulates P E N hash (linkPool P E N calls x)
      (UnlockedList.start contact.linkedDevices (calls.map LinkCall.device)) where
  stored := ⟨contact, hcontact, rfl⟩
  length := by simp [linkPool, UnlockedList.start]
  threads := by
    intro i t c ht hc
    simp only [linkPool, List.getElem?_map, Option.map_eq_some_iff] at ht
    obtain ⟨call, hcall, rfl⟩ := ht
    simp only [UnlockedList.start, List.getElem?_map, hcall, Option.map_some,
      Option.some.injEq] at hc
    subst hc
    exact ⟨rfl, call.recipientPubkeyHash, hcalls call (List.mem_of_getElem? hcall), rfl⟩

/-! ## No device is lost -/

section

variable {hash : S} {first : List (DeviceRecord S)} {calls : List (LinkCall S)} {p : LinkPool B S}
  {s : UnlockedList (DeviceRecord S)}

omit [DecidableEq S] in
/-- The call of the list under the number of a call. -/
theorem call_at (hpassed : s.passed = calls.map LinkCall.device) {i : Nat} {c : LinkCall S}
    (hc : calls[i]? = some c) : ∃ d, s.calls[i]? = some d ∧ d.entry = c.device := by
  have hentry : s.passed[i]? = some c.device := by
    rw [hpassed, List.getElem?_map, hc, Option.map_some]
  rw [UnlockedList.passed, List.getElem?_map, Option.map_eq_some_iff] at hentry
  exact hentry

omit [DecidableEq S] in
/-- Among the passed devices is a record under the id. -/
theorem hasPassed_iff (hpassed : s.passed = calls.map LinkCall.device) {id : Int}
    {devices : List (DeviceRecord S)} :
    HasPassed DeviceRecord.deviceId s.passed id devices ↔
      ∃ c ∈ calls, c.device.deviceId = id ∧ c.device ∈ devices := by
  simp only [hpassed, HasPassed, List.mem_map, exists_exists_and_eq_and]

/-- A call of the list is the call of the thread under its number. -/
theorem Simulates.at_call (h : Simulates P E N hash p s)
    (hpassed : s.passed = calls.map LinkCall.device) {i : Nat} {d : UpdateCall (DeviceRecord S)}
    (hd : s.calls[i]? = some d) :
    ∃ t c, p.threads[i]? = some t ∧ calls[i]? = some c ∧ d.entry = c.device ∧
      InPhase P E N hash t d := by
  obtain ⟨hlt, -⟩ := List.getElem?_eq_some_iff.1 hd
  obtain ⟨t, ht⟩ : ∃ t, p.threads[i]? = some t :=
    ⟨_, List.getElem?_eq_getElem (h.length.symm ▸ hlt)⟩
  obtain ⟨c, hc⟩ : ∃ c, calls[i]? = some c := by
    have hlength := congrArg List.length hpassed
    rw [UnlockedList.passed, List.length_map, List.length_map] at hlength
    exact ⟨_, List.getElem?_eq_getElem (hlength ▸ hlt)⟩
  obtain ⟨d', hd', hentry⟩ := call_at hpassed hc
  cases hd.symm.trans hd'
  exact ⟨t, c, ht, hc, hentry, h.threads i t d ht hd⟩

/-- What is kept of the list is what is kept of the devices. -/
theorem Simulates.noDeviceLost_iff (h : Simulates P E N hash p s)
    (hpassed : s.passed = calls.map LinkCall.device) :
    NoDeviceLost P hash first calls p ↔ UnlockedList.Kept DeviceRecord.deviceId first s := by
  have hdevices := h.getLinkedDevices
  have hother (d : DeviceRecord S) : (∀ b ∈ s.passed, b.deviceId ≠ d.deviceId) ↔
      ∀ c ∈ calls, c.device.deviceId ≠ d.deviceId := by
    rw [hpassed]
    exact List.forall_mem_map
  constructor
  · rintro ⟨hdistinct, hadded, hkept⟩
    rw [hdevices] at hdistinct hadded hkept
    refine ⟨hdistinct, ?_, fun d hd hfree => hkept d hd ((hother d).1 hfree)⟩
    -- a call of the list that is done is a call that has returned
    intro d hd hdone
    obtain ⟨i, hi⟩ := List.getElem?_of_mem hd
    obtain ⟨t, c, ht, hc, hentry, hphase⟩ := h.at_call hpassed hi
    rw [hasPassed_iff hpassed, hentry]
    exact hadded i c t hc ht (hphase.outcome_iff.2 hdone)
  · rintro ⟨hdistinct, hpass, hothers⟩
    constructor
    · rw [hdevices]
      exact hdistinct
    · intro i c t hc ht hreturned
      obtain ⟨d, hd, hentry⟩ := call_at hpassed hc
      have hdone := (h.threads i t d ht hd).outcome_iff.1 hreturned
      have hfound := hpass d (List.mem_of_getElem? hd) hdone
      rw [hasPassed_iff hpassed, hentry] at hfound
      rwa [hdevices]
    · intro d hd hfree
      rw [hdevices]
      exact hothers d hd ((hother d).2 hfree)

omit [DecidableEq S] in
/-- A call that has read two contacts, as far as its write tells, has read the same other devices. -/
theorem mem_of_writeBack_eq {contact contact' : ContactRecord S} {device d : DeviceRecord S}
    (h : writeBack (B := B) contact device = writeBack contact' device)
    (hne : d.deviceId ≠ device.deviceId) (hd : d ∈ contact.linkedDevices) :
    d ∈ contact'.linkedDevices := by
  have hop : (ClientOp.saveContact (B := B)
      { contact with linkedDevices := putEntry DeviceRecord.deviceId device contact.linkedDevices }) =
      .saveContact { contact' with
        linkedDevices := putEntry DeviceRecord.deviceId device contact'.linkedDevices } := by
    injection h
  injection hop with hcontact
  have hlists := congrArg ContactRecord.linkedDevices hcontact
  dsimp only at hlists
  exact (mem_putEntry_of_ne hne).1 (hlists ▸ (mem_putEntry_of_ne hne).2 hd)

/-- A thread that writes next holds what it has read. -/
theorem InPhase.holding_of_writeBack {t : LinkThread B S} {c : UpdateCall (DeviceRecord S)}
    {contact : ContactRecord S} (h : InPhase P E N hash t c)
    (hrest : t.rest = writeBack contact c.entry) :
    ∃ read, c.phase = .holding read ∧
      ∀ d ∈ read, d.deviceId ≠ c.entry.deviceId → d ∈ contact.linkedDevices := by
  obtain ⟨-, hphase⟩ := h
  cases hc : c.phase with
  | waiting =>
      -- its next operation is a read
      simp only [hc] at hphase
      obtain ⟨hash', -, hwaiting⟩ := hphase
      rw [hrest] at hwaiting
      injection hwaiting with hop
      cases hop
  | holding read =>
      simp only [hc] at hphase
      obtain ⟨contact', -, rfl, hrest'⟩ := hphase
      exact ⟨_, rfl, fun d hd hne => mem_of_writeBack_eq (hrest'.symm.trans hrest) hne hd⟩
  | done =>
      -- it has no next operation
      simp only [hc] at hphase
      rw [hrest] at hphase
      cases hphase

/-- A step that is current in the list is one that has read the current devices. -/
theorem Simulates.readsCurrent_iff (h : Simulates P E N hash p s)
    (hpassed : s.passed = calls.map LinkCall.device) (i : Nat) :
    ReadsCurrent calls p i ↔ s.Current DeviceRecord.deviceId i := by
  constructor
  · intro hcurrent d read hd hread d' hd' hdone hne
    -- the abstract writer is a call, and what it has read is the contact the call holds
    obtain ⟨t, c, ht, hc, hentry, -, hphase⟩ := h.at_call hpassed hd
    obtain ⟨j, hj⟩ := List.getElem?_of_mem hd'
    obtain ⟨u, c', hu, hc', hentry', hphase'⟩ := h.at_call hpassed hj
    simp only [hread] at hphase
    obtain ⟨contact, -, rfl, hrest⟩ := hphase
    rw [hentry] at hrest hne
    rw [hasPassed_iff hpassed, hentry']
    exact hcurrent c t contact hc ht hrest j c' u hc' hu (hphase'.outcome_iff.2 hdone)
      (hentry' ▸ hne)
  · intro hcurrent c t contact hc ht hrest j c' u hc' hu hreturned hne
    obtain ⟨d, hd, hentry⟩ := call_at hpassed hc
    obtain ⟨d', hd', hentry'⟩ := call_at hpassed hc'
    have hdone := (h.threads j u d' hu hd').outcome_iff.1 hreturned
    rw [← hentry] at hrest
    obtain ⟨read, hread, hsame⟩ := (h.threads i t d ht hd).holding_of_writeBack hrest
    have hfound := hcurrent d read hd hread d' (List.mem_of_getElem? hd') hdone
      (by rw [hentry, hentry']; exact hne)
    rw [hasPassed_iff hpassed, hentry'] at hfound
    obtain ⟨c'', hc'', hid, hmem⟩ := hfound
    refine ⟨c'', hc'', hid, hsame _ hmem ?_⟩
    rw [hid, hentry]
    exact hne

theorem Simulates.allows_iff (hlower : P.toLowerCase (P.toLowerCase hash) = P.toLowerCase hash)
    (h : Simulates P E N hash p s) (hpassed : s.passed = calls.map LinkCall.device)
    (schedule : List Nat) :
    p.Allows (ReadsCurrent calls) schedule ↔ s.AllCurrent DeviceRecord.deviceId schedule := by
  induction schedule generalizing p s with
  | nil => exact Iff.rfl
  | cons i schedule ih =>
      rw [Pool.Allows, UnlockedList.AllCurrent, h.readsCurrent_iff hpassed,
        ih (h.step hlower i) ((UnlockedList.passed_step s i).trans hpassed)]

end

omit [DecidableEq S] in
theorem passed_run (s : UnlockedList (DeviceRecord S)) (schedule : List Nat) :
    (s.run DeviceRecord.deviceId schedule).passed = s.passed := by
  induction schedule generalizing s with
  | nil => rfl
  | cons i schedule ih => exact (ih _).trans (UnlockedList.passed_step s i)

/-- Any number of calls for one contact with distinct device ids, along any schedule: no device is
lost in any state, if and only if every call that writes has read, for every call that has returned
by then, a record under its device id. -/
theorem linked_devices_kept_iff {hash : S}
    (hlower : P.toLowerCase (P.toLowerCase hash) = P.toLowerCase hash) {x : ClientState B S}
    {contact : ContactRecord S} (hcontact : x.getContactByHash P hash = some contact)
    (hdistinct : (contact.linkedDevices.map DeviceRecord.deviceId).Nodup)
    {calls : List (LinkCall S)}
    (hcalls : ∀ c ∈ calls, P.toLowerCase c.recipientPubkeyHash = P.toLowerCase hash)
    (schedule : List Nat) :
    (∀ n, NoDeviceLost P hash contact.linkedDevices calls
        ((linkPool P E N calls x).run (schedule.take n))) ↔
      (linkPool P E N calls x).Allows (ReadsCurrent calls) schedule := by
  have hsim := simulates_linkPool (E := E) (N := N) hcontact hcalls
  have hpassed := UnlockedList.passed_start contact.linkedDevices (calls.map LinkCall.device)
  rw [hsim.allows_iff hlower hpassed, ← UnlockedList.kept_run_iff
    (UnlockedList.kept_start hdistinct _) (UnlockedList.soundReads_start _ _)]
  apply forall_congr'
  intro n
  exact (hsim.run hlower (schedule.take n)).noDeviceLost_iff ((passed_run _ _).trans hpassed)

/-! ## Two devices of Carol -/

section

open TorE2EE.Crypto.Sym

/-- A call for `carol`. -/
def carolCall (deviceId : Int) : LinkCall Sym :=
  { recipientPubkeyHash := carolParsed.recipientPubkeyHash
    device := { carolTablet with deviceId } }

/-- The calls for some devices of `carol`, along a schedule. -/
def carolLinks (deviceIds : List Int) (schedule : List Nat) : LinkPool Sym Sym :=
  (linkPool symbolicClient symbolicEntropy symbolicNetwork (deviceIds.map carolCall)
    importedCarol).run schedule

theorem carol_known : ∃ contact,
    importedCarol.getContactByHash symbolicClient carolParsed.recipientPubkeyHash = some contact ∧
      contact.linkedDevices.map DeviceRecord.deviceId = [1] := ⟨_, rfl, rfl⟩

/-- A device is added, and then another one is added twice, by calls that overlap: no device is lost
at any time. -/
theorem linked_devices_kept_symbolic : ∃ first,
    (∀ n, NoDeviceLost symbolicClient carolParsed.recipientPubkeyHash first
      ([2, 3, 3].map carolCall) (carolLinks [2, 3, 3] ([0, 0, 1, 2, 1, 2].take n))) ∧
      ((carolLinks [2, 3, 3] [0, 0, 1, 2, 1, 2]).store.getLinkedDevices symbolicClient
        carolParsed.recipientPubkeyHash).map DeviceRecord.deviceId = [1, 2, 3] := by
  obtain ⟨contact, hcontact, hids⟩ := carol_known
  have hdistinct : (contact.linkedDevices.map DeviceRecord.deviceId).Nodup := by
    rw [hids]
    exact List.nodup_singleton 1
  have hcalls : ∀ c ∈ [2, 3, 3].map carolCall, symbolicClient.toLowerCase c.recipientPubkeyHash =
      symbolicClient.toLowerCase carolParsed.recipientPubkeyHash := by
    simp [carolCall]
  -- the second and the third call read after the first has written, before either of them writes
  have hcurrent : (linkPool symbolicClient symbolicEntropy symbolicNetwork
      ([2, 3, 3].map carolCall) importedCarol).Allows (ReadsCurrent ([2, 3, 3].map carolCall))
        [0, 0, 1, 2, 1, 2] := by
    apply ((simulates_linkPool hcontact hcalls).allows_iff rfl (UnlockedList.passed_start _ _) _).2
    cases hcontact
    decide +kernel
  exact ⟨_, (linked_devices_kept_iff rfl hcontact hdistinct hcalls _).2 hcurrent, rfl⟩

/-- Two calls that both read before one of them writes: the device of the first to write is lost. -/
theorem interleaved_links_lose_device :
    ¬ ∀ (calls : List (LinkCall Sym)) (schedule : List Nat) (first : List (DeviceRecord Sym)),
      first = importedCarol.getLinkedDevices symbolicClient carolParsed.recipientPubkeyHash →
      (first.map DeviceRecord.deviceId).Nodup →
      (∀ c ∈ calls, c.recipientPubkeyHash = carolParsed.recipientPubkeyHash) →
      NoDeviceLost symbolicClient carolParsed.recipientPubkeyHash first calls
        ((linkPool symbolicClient symbolicEntropy symbolicNetwork calls importedCarol).run
          schedule) := by
  intro hkept
  have hrun : ((carolLinks [2, 3] [0, 1, 0, 1]).store.getLinkedDevices symbolicClient
      carolParsed.recipientPubkeyHash).map DeviceRecord.deviceId = [1, 3] ∧
      (carolLinks [2, 3] [0, 1, 0, 1]).outcomes? = some [.ok (), .ok ()] := ⟨rfl, rfl⟩
  have hfirst : (importedCarol.getLinkedDevices symbolicClient
      carolParsed.recipientPubkeyHash).map DeviceRecord.deviceId = [1] := rfl
  have hlost := hkept ([2, 3].map carolCall) [0, 1, 0, 1] _ rfl
    (by rw [hfirst]; exact List.nodup_singleton 1) (by simp [carolCall])
  obtain ⟨c, -, hid, hmem⟩ := hlost.added 0 _ _ rfl rfl rfl
  have hid2 := List.mem_map_of_mem (f := DeviceRecord.deviceId) hmem
  rw [hid] at hid2
  change (2 : Int) ∈ ((carolLinks [2, 3] [0, 1, 0, 1]).store.getLinkedDevices symbolicClient
    carolParsed.recipientPubkeyHash).map DeviceRecord.deviceId at hid2
  rw [hrun.1] at hid2
  simp at hid2

end

end TorE2EE.Client
