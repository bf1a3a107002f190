import TorE2EE.Foundation.Machine

/-!
# The Tor manager and its two users

The `TorManager` singleton with its `startTor` and `stopTor` calls, cut open where they await the
native daemon, and the cycles of `BackgroundSyncService.executeSync` around them. The foreground calls
the manager at any time; the daemon answers at any time, or never.

`asked`, the mark of an overtaken call, the status a cycle began with and `finished` record the past
and are not read by the program. The reports to `onProgress` are left out.
-/

set_option autoImplicit false

namespace TorE2EE.Client.Tor

open TorE2EE.Foundation

/-! ## The manager -/

/-- `TorStatus`. -/
inductive TorStatus where
  | notInitialized
  | bootstrapping
  | ready
  | error
  | stopped
  deriving DecidableEq

/-- What `require('react-native-tor')` leads to. -/
inductive NativeTor where
  /-- The module is not there. -/
  | missing
  /-- The instance cannot be created. -/
  | failing (message : String)
  /-- An instance, with a `stop` function or without. -/
  | instance (stops : Bool)
  deriving DecidableEq

/-- The fields of `TorManager`. The instance is known by whether it has a `stop` function. -/
structure TorManager where
  status : TorStatus := .notInitialized
  devMode : Bool := false
  nativeTorInstance : Option Bool := none
  deriving DecidableEq

/-- The promise of a `startTor` call. A call that waits for the daemon is overtaken when a `stopTor`
call resolves. -/
inductive StartCall where
  | waiting (overtaken : Bool)
  | started
  | failed (message : String)
  deriving DecidableEq

namespace TorManager

variable (m : TorManager)

/-- `startTor` up to its `await`. -/
def startTor (native : NativeTor) : TorManager × StartCall :=
  if m.status = .ready then (m, .started)
  else
    let m := { m with status := .bootstrapping }
    if m.devMode then ({ m with status := .ready }, .started)
    else
      match native with
      | .instance stops => ({ m with nativeTorInstance := some stops }, .waiting false)
      | .missing => ({ m with status := .ready }, .started)
      | .failing message =>
          ({ m with status := .error }, .failed ("Tor startup failed: " ++ message))

/-- `startTor` after `startIfNotStarted` has settled. -/
def startSettles : Except String Unit → TorManager × StartCall
  | .ok _ => ({ m with status := .ready }, .started)
  | .error message => ({ m with status := .error }, .failed ("Tor startup failed: " ++ message))

/-- `stopTor` has an instance to stop, and awaits it. -/
def stopAwaits : Bool := m.nativeTorInstance = some true

/-- The end of `stopTor`. -/
def stopped : TorManager := { m with status := .stopped }

end TorManager

/-! ## The manager in use -/

/-- Where a sync cycle is, as far as Tor is concerned. -/
inductive CyclePhase where
  /-- Steps 1 and 2. -/
  | preparing
  /-- The race of a `startTor` call against the bootstrap timeout. -/
  | bootstrapping (start : Nat)
  /-- Step 4. -/
  | draining
  /-- The `finally` block awaits a `stopTor` call. -/
  | stopping (stop : Nat)
  /-- The `finally` block is past it. -/
  | closing
  deriving DecidableEq

/-- A cycle of `executeSync`, with the status it began with. -/
structure Cycle where
  devMode : Bool
  begun : TorStatus
  phase : CyclePhase
  deriving DecidableEq

/-- The manager, its calls, and the cycle under way. -/
structure TorUse where
  manager : TorManager := {}
  starts : List StartCall := []
  /-- The `stopTor` calls, resolved or not. -/
  stops : List Bool := []
  sync : Option Cycle := none
  /-- `startTor` was called since the last `stopTor` call resolved. -/
  asked : Bool := false
  /-- The status every finished cycle began and ended with. -/
  finished : List (TorStatus × TorStatus) := []
  deriving DecidableEq

/-- What may happen next. -/
inductive TorAction where
  /-- The foreground configures the manager. -/
  | getInstance (devMode : Bool)
  /-- The foreground calls `startTor`, or `stopTor`. -/
  | startTor (native : NativeTor)
  | stopTor
  /-- The daemon answers a call. -/
  | startSettles (i : Nat) (result : Except String Unit)
  | stopSettles (j : Nat)
  /-- `executeSync` is called. -/
  | executeSync (devMode : Bool)
  /-- Steps 1 and 2 return, or throw. -/
  | prepareEnds
  /-- Step 3. -/
  | bootstrap (native : NativeTor)
  | bootstrapTimeout
  | raceSettles
  /-- The wait of step 4 settles. -/
  | drainEnds
  | stopAwaited
  /-- The cycle ends. -/
  | finish
  deriving DecidableEq

/-- A call that waits is overtaken. -/
def StartCall.overtake : StartCall → StartCall
  | .waiting _ => .waiting true
  | call => call

namespace TorUse

variable (w : TorUse)

/-- `startTor` is called. -/
def start (native : NativeTor) : TorUse :=
  let r := w.manager.startTor native
  { w with manager := r.1, starts := w.starts ++ [r.2], asked := true }

/-- A `stopTor` call resolves. -/
def stopped : TorUse :=
  { w with
    manager := w.manager.stopped
    starts := w.starts.map StartCall.overtake
    asked := false }

/-- `stopTor` is called. -/
def stop : TorUse :=
  if w.manager.stopAwaits then { w with stops := w.stops ++ [false] }
  else { w.stopped with stops := w.stops ++ [true] }

/-- The cycle is in its next phase. -/
def cycleIn (c : Cycle) (phase : CyclePhase) : TorUse := { w with sync := some { c with phase } }

/-- The cycle enters the `finally` block after step 3. -/
def tearDown (c : Cycle) : TorUse :=
  if c.devMode then w.cycleIn c .closing else w.stop.cycleIn c (.stopping w.stops.length)

/-- One step of the manager and its users. -/
def step : TorAction → Option TorUse
  | .getInstance devMode => some { w with manager := { w.manager with devMode } }
  | .startTor native => some (w.start native)
  | .stopTor => some w.stop
  | .startSettles i result =>
      match w.starts[i]? with
      | some (.waiting _) =>
          let r := w.manager.startSettles result
          some { w with manager := r.1, starts := w.starts.set i r.2 }
      | _ => none
  | .stopSettles j =>
      if w.stops[j]? = some false then some { w.stopped with stops := w.stops.set j true } else none
  | .executeSync devMode =>
      match w.sync with
      | none => some { w with sync := some { devMode, begun := w.manager.status, phase := .preparing } }
      | some _ => some w
  | .prepareEnds =>
      match w.sync with
      | some c => if c.phase = .preparing then some (w.cycleIn c .closing) else none
      | none => none
  | .bootstrap native =>
      match w.sync with
      | some c =>
          if c.phase = .preparing then
            let configured : TorUse := { w with manager := { w.manager with devMode := c.devMode } }
            some ((configured.start native).cycleIn c (.bootstrapping w.starts.length))
          else none
      | none => none
  | .bootstrapTimeout =>
      match w.sync with
      | some c =>
          match c.phase with
          | .bootstrapping i =>
              match w.starts[i]? with
              | some (.waiting _) => some (w.tearDown c)
              | _ => none
          | _ => none
      | none => none
  | .raceSettles =>
      match w.sync with
      | some c =>
          match c.phase with
          | .bootstrapping i =>
              match w.starts[i]? with
              | some .started => some (w.cycleIn c .draining)
              | some (.failed _) => some (w.tearDown c)
              | _ => none
          | _ => none
      | none => none
  | .drainEnds =>
      match w.sync with
      | some c => if c.phase = .draining then some (w.tearDown c) else none
      | none => none
  | .stopAwaited =>
      match w.sync with
      | some c =>
          match c.phase with
          | .stopping j => if w.stops[j]? = some true then some (w.cycleIn c .closing) else none
          | _ => none
      | none => none
  | .finish =>
      match w.sync with
      | some c =>
          if c.phase = .closing then
            some { w with sync := none, finished := w.finished ++ [(c.begun, w.manager.status)] }
          else none
      | none => none

/-- Tor is on exactly when it was asked for: it is ready only if `startTor` was called since the last
`stopTor` call resolved, and a cycle that began with Tor ready ended with Tor ready. -/
structure OnWhenAsked : Prop where
  asked : w.manager.status = .ready → w.asked = true
  cycles : ∀ p ∈ w.finished, p.1 = .ready → p.2 = .ready

/-- The cycle under way began with Tor ready. -/
def BegunReady : Prop := ∃ c, w.sync = some c ∧ c.begun = .ready

/-- The daemon answers no overtaken `startTor` call with success unless `startTor` was called again.
While a cycle runs that began with Tor ready, it does not get to step 3 outside dev mode, no `stopTor`
call resolves, and no earlier `startTor` call fails. -/
def Undisturbed : TorAction → Prop
  | .startSettles i (.ok _) => w.starts[i]? = some (.waiting true) → w.asked = true
  | .startSettles _ (.error _) => ¬ w.BegunReady
  | .stopTor => w.BegunReady → w.manager.stopAwaits = true
  | .stopSettles _ => ¬ w.BegunReady
  | .bootstrap _ => ∀ c, w.sync = some c → c.begun = .ready → c.devMode = true
  | _ => True

/-! ## Undisturbed runs -/

/-- What undisturbed steps keep: besides the property, a call that waits and is not overtaken was made
since the last stop, and Tor stays ready during a cycle that began so. -/
structure Steady : Prop where
  asked : w.manager.status = .ready → w.asked = true
  fresh : .waiting false ∈ w.starts → w.asked = true
  cycle : ∀ c, w.sync = some c → c.begun = .ready →
    w.manager.status = .ready ∧ (c.phase = .preparing ∨ c.phase = .closing ∨ c.devMode = true)
  cycles : ∀ p ∈ w.finished, p.1 = .ready → p.2 = .ready

variable {w}

namespace Steady

theorem configured (h : Steady w) (devMode : Bool) :
    Steady { w with manager := { w.manager with devMode } } :=
  ⟨h.asked, h.fresh, h.cycle, h.cycles⟩

theorem start (h : Steady w) (native : NativeTor) : Steady (w.start native) where
  asked _ := rfl
  fresh _ := rfl
  cycle c hc hbegun := by
    obtain ⟨hready, hphase⟩ := h.cycle c hc hbegun
    refine ⟨?_, hphase⟩
    -- a manager that is ready is left as it is
    show (w.manager.startTor native).1.status = .ready
    rw [TorManager.startTor, if_pos hready]
    exact hready
  cycles := h.cycles

theorem stopped (h : Steady w) (hnone : ¬ w.BegunReady) : Steady w.stopped where
  asked hready := by cases hready
  fresh hmem := by
    -- every call that waits has been overtaken
    obtain ⟨call, -, hcall⟩ := List.mem_map.1 hmem
    cases call <;> cases hcall
  cycle c hc hbegun := absurd ⟨c, hc, hbegun⟩ hnone
  cycles := h.cycles

theorem stop (h : Steady w) (hawaits : w.BegunReady → w.manager.stopAwaits = true) :
    Steady w.stop := by
  rw [TorUse.stop]
  split
  · exact ⟨h.asked, h.fresh, h.cycle, h.cycles⟩
  · next hat =>
      have hstopped := h.stopped fun hbegun => hat (hawaits hbegun)
      exact ⟨hstopped.asked, hstopped.fresh, hstopped.cycle, hstopped.cycles⟩

theorem cycleIn (h : Steady w) {c : Cycle} (hc : w.sync = some c) {phase : CyclePhase}
    (hphase : c.begun = .ready → phase = .preparing ∨ phase = .closing ∨ c.devMode = true) :
    Steady (w.cycleIn c phase) where
  asked := h.asked
  fresh := h.fresh
  cycle c' hc' hbegun := by
    cases hc'
    exact ⟨(h.cycle c hc hbegun).1, hphase hbegun⟩
  cycles := h.cycles

/-- A cycle that began with Tor ready waits in step 3 or 4 in dev mode only. -/
theorem devMode (h : Steady w) {c : Cycle} (hc : w.sync = some c)
    (hwaits : c.phase ≠ .preparing ∧ c.phase ≠ .closing) (hbegun : c.begun = .ready) :
    c.devMode = true := by
  rcases (h.cycle c hc hbegun).2 with hphase | hphase | hdev
  · exact absurd hphase hwaits.1
  · exact absurd hphase hwaits.2
  · exact hdev

/-- A cycle that waits in step 3 or 4 stops Tor only if it did not begin with Tor ready. -/
theorem tearDown (h : Steady w) {c : Cycle} (hc : w.sync = some c)
    (hwaits : c.phase ≠ .preparing ∧ c.phase ≠ .closing) : Steady (w.tearDown c) := by
  rw [TorUse.tearDown]
  split
  · exact h.cycleIn hc fun _ => Or.inr (Or.inl rfl)
  · next hdev =>
      have hbegun : c.begun ≠ .ready := fun hbegun => hdev (h.devMode hc hwaits hbegun)
      have hnone : ¬ w.BegunReady := by
        rintro ⟨c', hc', hready⟩
        cases hc.symm.trans hc'
        exact hbegun hready
      have hsync : w.stop.sync = some c := by
        rw [TorUse.stop]
        split <;> exact hc
      exact (h.stop fun hready => absurd hready hnone).cycleIn hsync fun hready =>
        absurd hready hbegun

/-- Step 3 has returned, and the cycle waits in step 4. -/
theorem draining (h : Steady w) {c : Cycle} (hc : w.sync = some c)
    (hwaits : c.phase ≠ .preparing ∧ c.phase ≠ .closing) : Steady (w.cycleIn c .draining) :=
  h.cycleIn hc fun hbegun => Or.inr (Or.inr (h.devMode hc hwaits hbegun))

/-- The cycle ends, and its statuses are remembered. -/
theorem finish (h : Steady w) {c : Cycle} (hc : w.sync = some c) :
    Steady { w with
      sync := none
      finished := w.finished ++ [(c.begun, w.manager.status)] } := by
  refine ⟨h.asked, h.fresh, fun c' hc' => (by cases hc'), ?_⟩
  intro p hp
  rcases List.mem_append.1 hp with hold | hnew
  · exact h.cycles p hold
  · rw [List.mem_singleton.1 hnew]
    exact fun hbegun => (h.cycle c hc hbegun).1

/-- A waiting call is answered. -/
theorem startSettles (h : Steady w) {i : Nat} {overtaken : Bool}
    (hcall : w.starts[i]? = some (.waiting overtaken)) {result : Except String Unit}
    (hok : w.Undisturbed (.startSettles i result)) :
    Steady { w with
      manager := (w.manager.startSettles result).1
      starts := w.starts.set i (w.manager.startSettles result).2 } := by
  cases result with
  | error message =>
      refine ⟨fun hready => (by cases hready), ?_, fun c hc hbegun => absurd ⟨c, hc, hbegun⟩ hok,
        h.cycles⟩
      intro hmem
      rcases List.mem_or_eq_of_mem_set hmem with hold | hnew
      · exact h.fresh hold
      · cases hnew
  | ok u =>
      -- an overtaken call succeeds only when `startTor` was called again
      have hasked : w.asked = true := by
        cases overtaken with
        | true => exact hok hcall
        | false => exact h.fresh (List.mem_of_getElem? hcall)
      exact ⟨fun _ => hasked, fun _ => hasked, fun c hc hbegun => ⟨rfl, (h.cycle c hc hbegun).2⟩,
        h.cycles⟩

/-- Every undisturbed step keeps it. -/
theorem step {w' : TorUse} {a : TorAction} (h : Steady w) (ha : w.Undisturbed a)
    (hstep : w.step a = some w') : Steady w' := by
  cases a with
  | getInstance devMode =>
      cases hstep
      exact h.configured devMode
  | startTor native =>
      cases hstep
      exact h.start native
  | stopTor =>
      cases hstep
      exact h.stop ha
  | startSettles i result =>
      simp only [TorUse.step] at hstep
      split at hstep
      · next hcall =>
          cases hstep
          exact h.startSettles hcall ha
      · cases hstep
  | stopSettles j =>
      simp only [TorUse.step] at hstep
      split at hstep
      · cases hstep
        have hstopped := h.stopped ha
        exact ⟨hstopped.asked, hstopped.fresh, hstopped.cycle, hstopped.cycles⟩
      · cases hstep
  | executeSync devMode =>
      simp only [TorUse.step] at hstep
      split at hstep
      · cases hstep
        refine ⟨h.asked, h.fresh, ?_, h.cycles⟩
        rintro c ⟨⟩ hbegun
        exact ⟨hbegun, Or.inl rfl⟩
      · cases hstep
        exact h
  | prepareEnds =>
      simp only [TorUse.step] at hstep
      split at hstep
      · next c hc =>
          split at hstep
          · cases hstep
            exact h.cycleIn hc fun _ => Or.inr (Or.inl rfl)
          · cases hstep
      · cases hstep
  | bootstrap native =>
      simp only [TorUse.step] at hstep
      split at hstep
      · next c hc =>
          split at hstep
          · cases hstep
            -- step 3 configures the manager and calls `startTor`
            apply ((h.configured c.devMode).start native).cycleIn hc
            exact fun hbegun => Or.inr (Or.inr (ha c hc hbegun))
          · cases hstep
      · cases hstep
  | bootstrapTimeout =>
      simp only [TorUse.step] at hstep
      split at hstep
      · next c hc =>
          split at hstep
          · next hphase =>
              split at hstep
              · cases hstep
                exact h.tearDown hc (by simp [hphase])
              · cases hstep
          · cases hstep
      · cases hstep
  | raceSettles =>
      simp only [TorUse.step] at hstep
      split at hstep
      · next c hc =>
          split at hstep
          · next hphase =>
              split at hstep
              · cases hstep
                exact h.draining hc (by simp [hphase])
              · cases hstep
                exact h.tearDown hc (by simp [hphase])
              · cases hstep
          · cases hstep
      · cases hstep
  | drainEnds =>
      simp only [TorUse.step] at hstep
      split at hstep
      · next c hc =>
          split at hstep
          · next hphase =>
              cases hstep
              exact h.tearDown hc (by simp [hphase])
          · cases hstep
      · cases hstep
  | stopAwaited =>
      simp only [TorUse.step] at hstep
      split at hstep
      · next c hc =>
          split at hstep
          · split at hstep
            · cases hstep
              exact h.cycleIn hc fun _ => Or.inr (Or.inl rfl)
            · cases hstep
          · cases hstep
      · cases hstep
  | finish =>
      simp only [TorUse.step] at hstep
      split at hstep
      · next c hc =>
          split at hstep
          · cases hstep
            exact h.finish hc
          · cases hstep
      · cases hstep

end Steady

/-- In every undisturbed run, Tor is on exactly when it was asked for. -/
theorem on_when_asked (h : Reachable TorUse.step TorUse.Undisturbed {} w) : w.OnWhenAsked := by
  have hsteady : Steady w := by
    refine h.invariant ?_ fun _ _ _ hs ha hstep => hs.step ha hstep
    exact ⟨fun hready => (by cases hready), fun hmem => absurd hmem List.not_mem_nil,
      fun c hc => (by cases hc), fun p hp => absurd hp List.not_mem_nil⟩
  exact ⟨hsteady.asked, hsteady.cycles⟩

end TorUse

/-! ## Overlaps -/

/-- The foreground starts Tor, and a cycle in dev mode passes. -/
theorem on_when_asked_overlap :
    ∃ w : TorUse, Reachable TorUse.step TorUse.Undisturbed {} w ∧ w.OnWhenAsked ∧
      w.finished = [(.ready, .ready)] := by
  have hrun : AllowedRun TorUse.step TorUse.Undisturbed
      [.startTor (.instance true), .startSettles 0 (.ok ()), .executeSync true, .bootstrap .missing,
        .raceSettles, .drainEnds, .finish] ({} : TorUse)
      { manager := { status := .ready, devMode := true, nativeTorInstance := some true }
        starts := [.started, .started], asked := true, finished := [(.ready, .ready)] } := by
    refine ⟨trivial, _, rfl, ?_, _, rfl, trivial, _, rfl, ?_, _, rfl, trivial, _, rfl, trivial, _, rfl,
      trivial, _, rfl, rfl⟩
    · exact fun _ => rfl
    · rintro c ⟨⟩ _
      rfl
  have hreachable := Reachable.start.of_allowedRun hrun
  exact ⟨_, hreachable, TorUse.on_when_asked hreachable, rfl⟩

/-- Without the condition both parts fail: the daemon answers the call of a timed-out cycle after
Tor was stopped, and a cycle stops the Tor of the foreground. -/
theorem not_forall_on_when_asked :
    (∃ w : TorUse, Reachable TorUse.step (fun _ _ => True) {} w ∧
      w.manager.status = .ready ∧ w.asked = false) ∧
    ∃ w : TorUse, Reachable TorUse.step (fun _ _ => True) {} w ∧
      (TorStatus.ready, TorStatus.stopped) ∈ w.finished := by
  have hlate : runActions TorUse.step [.executeSync false, .bootstrap (.instance true),
      .bootstrapTimeout, .stopSettles 0, .startSettles 0 (.ok ())] ({} : TorUse) =
      some
        { manager := { status := .ready, nativeTorInstance := some true }
          starts := [.started], stops := [true]
          sync := some { devMode := false, begun := .notInitialized, phase := .stopping 0 } } := by
    decide
  have hshared : runActions TorUse.step [.startTor (.instance true), .startSettles 0 (.ok ()),
      .executeSync false, .bootstrap (.instance true), .raceSettles, .drainEnds, .stopSettles 0,
      .stopAwaited, .finish] ({} : TorUse) =
      some
        { manager := { status := .stopped, nativeTorInstance := some true }
          starts := [.started, .started], stops := [true], finished := [(.ready, .stopped)] } := by
    decide
  exact ⟨⟨_, .of_runActions (fun _ _ _ => trivial) .start hlate, rfl, rfl⟩,
    ⟨_, .of_runActions (fun _ _ _ => trivial) .start hshared, List.mem_singleton.2 rfl⟩⟩

end TorE2EE.Client.Tor
