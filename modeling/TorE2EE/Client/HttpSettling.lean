import TorE2EE.Client.TorHttp

/-!
# Requests that settle

A request is sound when its promise is settled as soon as its timer has been stopped or has fired,
and no exception has left a handler. Two events break this. `end` stops the timer and settles
nothing when no text has been received. And `data` stops it before it parses, outside of any `try`:
a response that is complete by its `Content-Length` and has no status line leaves the handler as an
exception, with the promise pending.

`sound_step_iff` is the step: an event leads from a sound request to a sound one exactly when it is
neither of the two. `requestSettles_iff` says the same of whole runs, for every order of events.
-/

set_option autoImplicit false

namespace TorE2EE.Client.TorHttp

open TorE2EE.Foundation

/-- The timer is off only when the promise is settled, and no exception has left a handler. -/
structure Request.Sound (x : Request) : Prop where
  settled_of_off : x.timer ≠ .running → x.settled ≠ none
  not_escaped : x.escaped = false

/-- The received text begins with a status line. -/
def HasStatusLine (rawData : List Char) : Prop :=
  ∃ headerText bodyText, splitFirst blankLine rawData = some (headerText, bodyText) ∧
    statusMatch ((splitLines headerText).headD []) ≠ none

/-- The event breaks nothing: a response that becomes complete has a status line, and the end comes
after some text or after the promise is settled. -/
def Request.Harmless (x : Request) : HttpEvent → Prop
  | .data chunk =>
      ∀ expectedLen bodyPart,
        expectedBody (x.rawData ++ decodeUtf8 chunk) = some (expectedLen, bodyPart) →
        expectedLen ≤ (utf8 bodyPart).length → HasStatusLine (x.rawData ++ decodeUtf8 chunk)
  | .ended => x.rawData ≠ [] ∨ x.settled ≠ none
  | .error => True
  | .timeout => True

variable {toLowerCase : List Char → List Char} {timeoutMs : Nat} {x x' : Request}

theorem Timer.clear_ne_running (t : Timer) : t.clear ≠ .running := by
  cases t with
  | running => decide
  | cleared => decide
  | fired => decide

theorem Request.settle_settled (x : Request) (outcome : Except HttpError HttpResponse) :
    (x.settle outcome).settled ≠ none := Option.some_ne_none _

theorem Request.sound_start : Request.start.Sound where
  settled_of_off h := absurd rfl h
  not_escaped := rfl

/-- A request that settles is sound when nothing has escaped. -/
theorem Request.sound_settle {x : Request} (h : x.escaped = false)
    (outcome : Except HttpError HttpResponse) : (x.settle outcome).Sound where
  settled_of_off _ := settle_settled x outcome
  not_escaped := h

/-- A response that is complete is parsed exactly when it has a status line. -/
theorem parseHttpResponse_ok_iff (toLowerCase : List Char → List Char) {rawData : List Char}
    {expectedLen : Nat} {bodyPart : List Char}
    (h : expectedBody rawData = some (expectedLen, bodyPart)) :
    (∃ response, parseHttpResponse toLowerCase rawData (some expectedLen) = .ok response) ↔
      HasStatusLine rawData := by
  rw [expectedBody] at h
  rw [parseHttpResponse, HasStatusLine]
  -- with a body to expect there is a header block
  cases hsplit : splitFirst blankLine rawData with
  | none =>
      rw [hsplit] at h
      cases h
  | some parts =>
      obtain ⟨headerText, bodyText⟩ := parts
      dsimp only
      cases hstatus : statusMatch ((splitLines headerText).headD []) with
      | none =>
          constructor
          · rintro ⟨response, hresponse⟩
            cases hresponse
          · rintro ⟨headerText', bodyText', heq, hsome⟩
            cases heq
            exact absurd hstatus hsome
      | some status =>
          constructor
          · intro _
            refine ⟨headerText, bodyText, rfl, ?_⟩
            rw [hstatus]
            exact Option.some_ne_none _
          · intro _
            exact ⟨_, rfl⟩

/-- The handler of `data`. -/
theorem sound_onData_iff (hx : x.Sound) (chunk : List UInt8) :
    (x.onData toLowerCase chunk).Sound ↔ x.Harmless (.data chunk) := by
  rcases expectedBody_complete_or (x.rawData ++ decodeUtf8 chunk) with
    ⟨n, bodyPart, hbody, hle⟩ | hincomplete
  · -- complete: everything depends on the status line
    have hparsed := parseHttpResponse_ok_iff toLowerCase hbody
    cases hresponse : parseHttpResponse toLowerCase (x.rawData ++ decodeUtf8 chunk) (some n) with
    | ok response =>
        rw [Request.onData_ok hbody hle hresponse]
        constructor
        · intro _ n' bodyPart' _ _
          exact hparsed.1 ⟨response, hresponse⟩
        · intro _
          exact ⟨fun _ => Option.some_ne_none _, hx.not_escaped⟩
    | error e =>
        rw [Request.onData_error hbody hle hresponse]
        constructor
        · intro hsound
          exact absurd hsound.not_escaped Bool.noConfusion
        · intro hharmless
          obtain ⟨response, hok⟩ := hparsed.2 (hharmless n bodyPart hbody hle)
          rw [hresponse] at hok
          cases hok
  · rw [Request.onData_incomplete hincomplete]
    constructor
    · intro _ n bodyPart hbody hle
      exact absurd hle (hincomplete n bodyPart hbody)
    · intro _
      exact ⟨hx.settled_of_off, hx.not_escaped⟩

/-- The handler of `end`. -/
theorem sound_onEnd_iff (hx : x.Sound) :
    (x.onEnd toLowerCase).Sound ↔ x.Harmless .ended := by
  simp only [Request.onEnd]
  by_cases hempty : x.rawData = []
  · -- the timer is stopped and nothing settled
    rw [if_pos hempty]
    constructor
    · intro hsound
      exact Or.inr (hsound.settled_of_off x.timer.clear_ne_running)
    · rintro (hsome | hsettled)
      · exact absurd hempty hsome
      · exact ⟨fun _ => hsettled, hx.not_escaped⟩
  · rw [if_neg hempty]
    constructor
    · intro _
      exact Or.inl hempty
    · intro _
      apply Request.sound_settle
      exact hx.not_escaped

/-- An event leads from a sound request to a sound one when it is harmless, and only then. -/
theorem sound_step_iff (hx : x.Sound) {e : HttpEvent}
    (hstep : x.step toLowerCase timeoutMs e = some x') : x'.Sound ↔ x.Harmless e := by
  cases e with
  | data chunk =>
      cases hstep
      exact sound_onData_iff hx chunk
  | ended =>
      cases hstep
      exact sound_onEnd_iff hx
  | error =>
      cases hstep
      refine iff_of_true ?_ True.intro
      apply Request.sound_settle
      exact hx.not_escaped
  | timeout =>
      rw [Request.step] at hstep
      split at hstep
      · cases hstep
        refine iff_of_true ?_ True.intro
        apply Request.sound_settle
        exact hx.not_escaped
      · cases hstep

theorem take_succ_of_getElem? {events : List HttpEvent} {k : Nat} {e : HttpEvent}
    (h : events[k]? = some e) : events.take (k + 1) = events.take k ++ [e] := by
  rw [List.take_add_one, h, Option.toList_some]

/-- A run passes through sound requests only, exactly when all its events are harmless. -/
theorem requestSettles_iff (toLowerCase : List Char → List Char) (timeoutMs : Nat)
    (events : List HttpEvent) :
    (∀ k x, afterEvents toLowerCase timeoutMs (events.take k) = some x → x.Sound) ↔
      ∀ k x e, events[k]? = some e →
        afterEvents toLowerCase timeoutMs (events.take k) = some x → x.Harmless e := by
  constructor
  · intro hsound k x e he hx
    have hnext := afterEvents_append toLowerCase timeoutMs (events.take k) e
    rw [← take_succ_of_getElem? he, hx] at hnext
    cases hstep : x.step toLowerCase timeoutMs e with
    | none =>
        -- only the time running out can be impossible
        cases e with
        | timeout => exact True.intro
        | data chunk => cases hstep
        | ended => cases hstep
        | error => cases hstep
    | some x' =>
        rw [Option.bind_some, hstep] at hnext
        exact (sound_step_iff (hsound k x hx) hstep).1 (hsound (k + 1) x' hnext)
  · intro hharmless k
    induction k with
    | zero =>
        intro x hx
        cases hx
        exact Request.sound_start
    | succ k ih =>
        intro x' hx'
        cases he : events[k]? with
        | none =>
            have hsame : events.take (k + 1) = events.take k := by
              have hlength := List.getElem?_eq_none_iff.1 he
              rw [List.take_of_length_le hlength, List.take_of_length_le (by omega)]
            rw [hsame] at hx'
            exact ih x' hx'
        | some e =>
            rw [take_succ_of_getElem? he, afterEvents_append] at hx'
            obtain ⟨x, hx, hstep⟩ := Option.bind_eq_some_iff.1 hx'
            exact (sound_step_iff (ih x hx) hstep).2 (hharmless k x e he hx)

/-- A complete response that begins with `x` instead of a status line. -/
def unlabelled : List UInt8 := utf8 "x\r\ncontent-length: 0\r\n\r\n".toList

/-- A connection that is closed before a byte has come leaves the promise pending with the timer
stopped, and so does a complete response without a status line, which is thrown as well. -/
theorem closedAtOnce_pending :
    (afterEvents id 20000 [.ended]).map (fun x => (x.timer, x.settled.isSome, x.escaped)) =
        some (.cleared, false, false) ∧
      (afterEvents id 20000 [.data unlabelled]).map
          (fun x => (x.timer, x.settled.isSome, x.escaped)) = some (.cleared, false, true) ∧
      ¬ ∀ events x, afterEvents id 20000 events = some x → x.Sound := by
  refine ⟨rfl, by decide +kernel, ?_⟩
  intro hall
  exact (hall [.ended] _ rfl).settled_of_off (by decide) rfl

end TorE2EE.Client.TorHttp
