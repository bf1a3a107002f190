import TorE2EE.Client.ContactExchange
import TorE2EE.Crypto.Symbolic

/-!
# The client's libraries over symbolic terms

`symbolicClient` is `symbolic` with signing keys of 32 bytes, and `symbolicLibrary` adds the
functions of `ClientLibrary`. The text of a JSON value is the term of its pieces, and a term that is
no such text, such as a plain string literal, is not parsed.
-/

set_option autoImplicit false

namespace TorE2EE.Client

open TorE2EE.Foundation TorE2EE.Crypto TorE2EE.Crypto.Sym

/-- The libraries of the engine, with public signing keys of 32 bytes. -/
def symbolicClient : Primitives Sym Sym :=
  { symbolic with
    length := fun t =>
      match t with
      | pub (signingSecret _) => 32
      | t => symbolic.length t }

mutual

/-- `JSON.stringify`. A number is a natural number here. -/
def stringifySymbolic : Json Sym → Sym
  | .null => text "null"
  | .bool b => if b then text "true" else text "false"
  | .number n => cons (text "number") (name n.num.toNat)
  | .string s => cons (text "\"") s
  | .array items => cons (text "[") (stringifyItems items)
  | .object fields => cons (text "\x7b") (stringifyFields fields)

/-- The items of an array. -/
def stringifyItems : List (Json Sym) → Sym
  | [] => nil
  | item :: items => cons (stringifySymbolic item) (stringifyItems items)

/-- The fields of an object. -/
def stringifyFields : List (Sym × Json Sym) → Sym
  | [] => nil
  | (field, value) :: fields => cons field (cons (stringifySymbolic value) (stringifyFields fields))

end

mutual

/-- `JSON.parse`. -/
def parseSymbolic : Sym → Option (Json Sym)
  | text s =>
      if s = "null" then some .null
      else if s = "true" then some (.bool true)
      else if s = "false" then some (.bool false)
      else none
  | cons (text s) t =>
      if s = "\"" then some (.string t)
      else if s = "[" then (parseItems t).map .array
      else if s = "\x7b" then (parseFields t).map .object
      else
        match t with
        | name n => if s = "number" then some (.number n) else none
        | _ => none
  | _ => none

/-- The items of an array. -/
def parseItems : Sym → Option (List (Json Sym))
  | nil => some []
  | cons item items => do
      let item ← parseSymbolic item
      let items ← parseItems items
      pure (item :: items)
  | _ => none

/-- The fields of an object. -/
def parseFields : Sym → Option (List (Sym × Json Sym))
  | nil => some []
  | cons field (cons value fields) => do
      let value ← parseSymbolic value
      let fields ← parseFields fields
      pure ((field, value) :: fields)
  | _ => none

end

/-- The functions of `ClientLibrary` over symbolic terms. A URI is its base64 part, and base64 has
no padding. -/
def symbolicLibrary : ClientLibrary Sym Sym where
  sha256 b := hkdf b nil (text "sha256") 32
  trim := id
  startsWith _ _ := false
  indexOf _ _ := none
  substring t _ := t
  searchParam _ _ := none
  replaceAll t _ _ := t
  length _ := 0
  append s t := cons s t
  parseJson := parseSymbolic
  stringifyJson := stringifySymbolic
  box m n pk sk := (Sym.scalarMult sk pk).map (box m n)
  bindOther _ := none

/-- The contact URI of a payload with its required fields. -/
def contactUri (signingKeyHex identityKeyHex publicKeyHex signatureHex : Sym) : Sym :=
  base64 (utf8 (stringifySymbolic (.object
    [(text "signingKeyHex", .string signingKeyHex),
      (text "identityKeyHex", .string identityKeyHex),
      (text "signedPreKey", .object
        [(text "keyId", .number 1), (text "publicKeyHex", .string publicKeyHex),
          (text "signatureHex", .string signatureHex)])])))

end TorE2EE.Client
