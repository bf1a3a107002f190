import Mathlib.Tactic.Common

/-!
# JSON values

The values `JSON.parse` returns, over a type `S` of strings, with the two things a JavaScript
program does to a value of unknown shape: reading a property (`Json.get`) and testing it
(`Json.truthy`). A missing property is `undefined`, written `none`. Reading a property of `null`
throws; reading one of a value that is no object gives `undefined`.
-/

set_option autoImplicit false

namespace TorE2EE.Foundation

universe u

/-- A JSON value. Of two fields with one name the later one counts. -/
inductive Json (S : Type u) : Type u where
  | null
  | bool (b : Bool)
  | number (n : Rat)
  | string (s : S)
  | array (items : List (Json S))
  | object (fields : List (S × Json S))

namespace Json

variable {S : Type u} [DecidableEq S]

/-- `value.name`, where `none` is the `TypeError` on `null`. -/
def get (name : S) : Json S → Option (Option (Json S))
  | null => none
  | object fields => some ((fields.reverse.find? fun field => field.1 = name).map Prod.snd)
  | _ => some none

/-- Whether a value counts as true; `empty` is the empty string. -/
def truthy (empty : S) : Option (Json S) → Bool
  | none => false
  | some null => false
  | some (bool b) => b
  | some (number n) => n ≠ 0
  | some (string s) => s ≠ empty
  | some (array _) => true
  | some (object _) => true

/-- The string a value is, if it is one. -/
def string? : Option (Json S) → Option S
  | some (string s) => some s
  | _ => none

omit [DecidableEq S] in
theorem string?_eq_some {v : Option (Json S)} {s : S} : string? v = some s ↔ v = some (string s) := by
  constructor
  · intro h
    unfold string? at h
    split at h
    · cases h
      rfl
    · cases h
  · rintro rfl
    rfl

end Json

end TorE2EE.Foundation
