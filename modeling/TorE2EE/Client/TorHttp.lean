import TorE2EE.Client.Base64
import TorE2EE.Foundation.Machine
import TorE2EE.Foundation.TextChunks

/-!
# HTTP over the tunnel

`TorHttpClient.rawRequest` from the moment its socket is open: the handlers of the events `data`,
`end` and `error`, and the timer. `parseHttpResponse` reads what has been received.

A received text is the decoding of bytes, so it is a list of characters. The lower case of a header
name is the runtime's, a parameter.
-/

set_option autoImplicit false

namespace TorE2EE.Client.TorHttp

open TorE2EE.Foundation

/-! ## Strings -/

/-- The text before and after the first `separator`: `indexOf`, and `substring` on both sides. -/
def splitFirst (separator : List Char) : List Char → Option (List Char × List Char)
  | [] => if separator = [] then some ([], []) else none
  | c :: text =>
      if separator.isPrefixOf (c :: text) then some ([], (c :: text).drop separator.length)
      else (splitFirst separator text).map fun parts => (c :: parts.1, parts.2)

def crlf : List Char := ['\r', '\n']

/-- The end of a header block. -/
def blankLine : List Char := ['\r', '\n', '\r', '\n']

/-- `text.split('\r\n')`. -/
def splitLines : List Char → List (List Char)
  | [] => [[]]
  | [c] => [[c]]
  | c :: d :: text =>
      if c = '\r' ∧ d = '\n' then [] :: splitLines text
      else
        match splitLines (d :: text) with
        | [] => [[c]]
        | line :: lines => (c :: line) :: lines

/-- `text.trim()`. -/
def trimText (text : List Char) : List Char :=
  ((text.dropWhile isJsSpace).reverse.dropWhile isJsSpace).reverse

/-- `parseInt` of a string of digits, without the rounding of numbers above `2 ^ 53`. -/
def parseDigits (digits : List Char) : Nat :=
  digits.foldl (fun n c => n * 10 + (c.toNat - '0'.toNat)) 0

/-! ## Patterns -/

/-- The first match of a pattern, which `here` matches at the beginning of a text. -/
def firstMatch {α : Type} (here : List Char → Option α) : List Char → Option α
  | [] => here []
  | c :: text =>
      match here (c :: text) with
      | some m => some m
      | none => firstMatch here text

/-- `content-length:\s*(\d+)`, in upper or lower case, at the beginning. White space and digits have
nothing in common, so that each part takes all it can. -/
def contentLengthHere (text : List Char) : Option Nat :=
  if (text.take 15).map Char.toLower = "content-length:".toList then
    let digits := ((text.drop 15).dropWhile isJsSpace).takeWhile Char.isDigit
    if digits = [] then none else some (parseDigits digits)
  else none

/-- `headerPart.match(/content-length:\s*(\d+)/i)`. -/
def contentLengthMatch (headerPart : List Char) : Option Nat := firstMatch contentLengthHere headerPart

/-- What `.` does not match. -/
def isLineTerminator (c : Char) : Bool := c.toNat ∈ [0x0a, 0x0d, 0x2028, 0x2029]

/-- `\s+(\d+)\s*(.*)` at the beginning. -/
def statusTail (text : List Char) : Option (Nat × List Char) :=
  let rest := text.dropWhile isJsSpace
  let digits := rest.takeWhile Char.isDigit
  if text.takeWhile isJsSpace = [] ∨ digits = [] then none
  else
    some (parseDigits digits,
      ((rest.dropWhile Char.isDigit).dropWhile isJsSpace).takeWhile (!isLineTerminator ·))

/-- `HTTP\/\d\.\d\s+(\d+)\s*(.*)` at the beginning. -/
def statusHere : List Char → Option (Nat × List Char)
  | 'H' :: 'T' :: 'T' :: 'P' :: '/' :: major :: '.' :: minor :: text =>
      if major.isDigit ∧ minor.isDigit then statusTail text else none
  | _ => none

/-- `statusLine.match(/HTTP\/\d\.\d\s+(\d+)\s*(.*)/)`. -/
def statusMatch (statusLine : List Char) : Option (Nat × List Char) :=
  firstMatch statusHere statusLine

/-! ## Responses -/

/-- `HttpResponse`. The record of headers is the function that reads its own properties. -/
structure HttpResponse where
  status : Nat
  statusText : List Char
  headers : List Char → Option (List Char)
  body : List Char

/-- The errors of a request. -/
inductive HttpError where
  | malformedResponse
  | invalidStatusLine (statusLine : List Char)
  | timedOut (timeoutMs : Nat)
  | socket
  deriving DecidableEq

/-- The text of an error. The one of the socket comes from the runtime. -/
def HttpError.message (socketError : String) : HttpError → String
  | malformedResponse => "Malformed HTTP response"
  | invalidStatusLine statusLine => "Invalid HTTP status line: " ++ String.ofList statusLine
  | timedOut timeoutMs => "HTTP request timed out after " ++ toString timeoutMs ++ "ms"
  | socket => socketError

variable (toLowerCase : List Char → List Char)

/-- The property of an object that is no property of its own: assigning a string to it does
nothing. -/
def protoKey : List Char := "__proto__".toList

/-- `headers[key] = value`. -/
def setHeader (headers : List Char → Option (List Char)) (key value : List Char) :
    List Char → Option (List Char) :=
  if key = protoKey then headers else fun name => if name = key then some value else headers name

/-- One round of the loop over the lines. -/
def readHeaderLine (headers : List Char → Option (List Char)) (line : List Char) :
    List Char → Option (List Char) :=
  match splitFirst [':'] line with
  | none => headers
  | some (name, value) => setHeader headers (toLowerCase (trimText name)) (trimText value)

/-- `parseHttpResponse`. -/
def parseHttpResponse (raw : List Char) (exactContentLength : Option Nat) :
    Except HttpError HttpResponse :=
  match splitFirst blankLine raw with
  | none => throw .malformedResponse
  | some (headerText, bodyText) =>
      let body :=
        match exactContentLength with
        | none => bodyText
        | some n => truncate n bodyText
      let lines := splitLines headerText
      let statusLine := lines.headD []
      match statusMatch statusLine with
      | none => throw (.invalidStatusLine statusLine)
      | some (status, statusText) =>
          pure
            { status
              statusText
              headers := lines.tail.foldl (readHeaderLine toLowerCase) fun _ => none
              body }

/-! ## The handlers -/

/-- The timer of a request. -/
inductive Timer where
  | running
  | cleared
  | fired
  deriving DecidableEq

/-- `clearTimeout(timer)`. -/
def Timer.clear : Timer → Timer
  | running => cleared
  | cleared => cleared
  | fired => fired

/-- A request under way: what its handlers share, the outcome of its promise, and whether an
exception has left a handler. -/
structure Request where
  rawData : List Char
  timer : Timer
  settled : Option (Except HttpError HttpResponse)
  escaped : Bool

/-- The request when its handlers are registered. -/
def Request.start : Request :=
  { rawData := []
    timer := .running
    settled := none
    escaped := false }

/-- `resolve` or `reject`: only the first one counts. -/
def Request.settle (x : Request) (outcome : Except HttpError HttpResponse) : Request :=
  { x with settled := some (x.settled.getD outcome) }

/-- What happens to a socket, and the time running out. -/
inductive HttpEvent where
  | data (chunk : List UInt8)
  | ended
  | error
  | timeout

/-- The number of bytes after which the response is complete, with the text that has been received
of its body. -/
def expectedBody (rawData : List Char) : Option (Nat × List Char) :=
  match splitFirst blankLine rawData with
  | none => none
  | some (headerPart, bodyPart) => (contentLengthMatch headerPart).map fun n => (n, bodyPart)

/-- The handler of `data`. What `parseHttpResponse` throws leaves the handler. -/
def Request.onData (x : Request) (chunk : List UInt8) : Request :=
  let rawData := x.rawData ++ decodeUtf8 chunk
  let x := { x with rawData }
  match expectedBody rawData with
  | none => x
  | some (expectedLen, bodyPart) =>
      if expectedLen ≤ (utf8 bodyPart).length then
        let x := { x with timer := x.timer.clear }
        match parseHttpResponse toLowerCase rawData (some expectedLen) with
        | .ok response => x.settle (.ok response)
        | .error _ => { x with escaped := true }
      else x

/-- The handler of `end`. -/
def Request.onEnd (x : Request) : Request :=
  let x := { x with timer := x.timer.clear }
  if x.rawData = [] then x else x.settle (parseHttpResponse toLowerCase x.rawData none)

/-- One event. The time runs out only while the timer is running. -/
def Request.step (timeoutMs : Nat) (x : Request) : HttpEvent → Option Request
  | .data chunk => some (x.onData toLowerCase chunk)
  | .ended => some (x.onEnd toLowerCase)
  | .error => some ({ x with timer := x.timer.clear }.settle (.error .socket))
  | .timeout =>
      if x.timer = .running then
        some ({ x with timer := .fired }.settle (.error (.timedOut timeoutMs)))
      else none

/-- The state of a request after some events, if they can happen in this order. -/
def afterEvents (timeoutMs : Nat) (events : List HttpEvent) :
    Option Request :=
  runActions (Request.step toLowerCase timeoutMs) events Request.start

/-- The outcome of a request whose response comes in these chunks, before the connection ends. -/
def rawRequest (timeoutMs : Nat) (chunks : List (List UInt8)) :
    Option (Except HttpError HttpResponse) :=
  (afterEvents toLowerCase timeoutMs (chunks.map .data ++ [.ended])).bind Request.settled

variable {toLowerCase}

theorem afterEvents_append (toLowerCase : List Char → List Char) (timeoutMs : Nat)
    (events : List HttpEvent) (e : HttpEvent) :
    afterEvents toLowerCase timeoutMs (events ++ [e]) =
      (afterEvents toLowerCase timeoutMs events).bind fun x =>
        x.step toLowerCase timeoutMs e := by
  rw [afterEvents]
  rw [runActions_append]
  congr 1
  funext x
  simp [runActions]

/-- A text has a complete body, or not yet. -/
theorem expectedBody_complete_or (rawData : List Char) :
    (∃ n bodyPart, expectedBody rawData = some (n, bodyPart) ∧ n ≤ (utf8 bodyPart).length) ∨
      ∀ n bodyPart, expectedBody rawData = some (n, bodyPart) → ¬ n ≤ (utf8 bodyPart).length := by
  by_cases hcomplete : ∃ n bodyPart, expectedBody rawData = some (n, bodyPart) ∧
      n ≤ (utf8 bodyPart).length
  · exact Or.inl hcomplete
  · exact Or.inr fun n bodyPart hbody hle => hcomplete ⟨n, bodyPart, hbody, hle⟩

/-- The handler of `data` while the response is not complete. -/
theorem Request.onData_incomplete {x : Request} {chunk : List UInt8}
    (h : ∀ n bodyPart, expectedBody (x.rawData ++ decodeUtf8 chunk) = some (n, bodyPart) →
      ¬ n ≤ (utf8 bodyPart).length) :
    x.onData toLowerCase chunk = { x with rawData := x.rawData ++ decodeUtf8 chunk } := by
  simp only [onData]
  split
  · rfl
  · next n bodyPart hbody => exact if_neg (h n bodyPart hbody)

/-- The handler of `data` when the response is complete and can be parsed. -/
theorem Request.onData_ok {x : Request} {chunk : List UInt8} {n : Nat} {bodyPart : List Char}
    {response : HttpResponse}
    (hbody : expectedBody (x.rawData ++ decodeUtf8 chunk) = some (n, bodyPart))
    (hcomplete : n ≤ (utf8 bodyPart).length)
    (hparse : parseHttpResponse toLowerCase (x.rawData ++ decodeUtf8 chunk) (some n) =
      .ok response) :
    x.onData toLowerCase chunk =
      { x with
        rawData := x.rawData ++ decodeUtf8 chunk
        timer := x.timer.clear
        settled := some (x.settled.getD (.ok response)) } := by
  simp only [onData, hbody, hcomplete, if_true, hparse]
  rfl

/-- The handler of `data` when the response is complete and cannot be parsed. -/
theorem Request.onData_error {x : Request} {chunk : List UInt8} {n : Nat} {bodyPart : List Char}
    {e : HttpError} (hbody : expectedBody (x.rawData ++ decodeUtf8 chunk) = some (n, bodyPart))
    (hcomplete : n ≤ (utf8 bodyPart).length)
    (hparse : parseHttpResponse toLowerCase (x.rawData ++ decodeUtf8 chunk) (some n) = .error e) :
    x.onData toLowerCase chunk =
      { x with
        rawData := x.rawData ++ decodeUtf8 chunk
        timer := x.timer.clear
        escaped := true } := by
  simp only [onData, hbody, hcomplete, if_true, hparse]

end TorE2EE.Client.TorHttp
