import TorE2EE.Client.Socks5

/-!
# Opening a SOCKS5 tunnel

The handlers of `Socks5Tunnel.connectViaSocks5` for the events of its socket and its timer, and what
the listeners receive that its caller adds when the promise has been resolved.

`Delivery` is the stream of a conforming proxy, cut into the chunks of the `data` events. The
handlers advance one stage per event and do not measure a reply, so `run_transparent_iff` holds for
one cut of the two replies only: each of them is a chunk of its own.
-/

set_option autoImplicit false

namespace TorE2EE.Client.Socks5

/-! ## Replies -/

/-- `Socks5Error`. -/
structure Socks5Error where
  message : String
  code : Int := -1
  deriving DecidableEq

/-- `verifyAuthResponse`. -/
def verifyAuthResponse : List UInt8 → Except Socks5Error Unit
  | version :: method :: _ =>
      if version ≠ 0x05 then .error ⟨"Unsupported SOCKS version: " ++ toString version, -1⟩
      else if method ≠ 0x00 then
        .error ⟨"SOCKS5 authentication failed or required: " ++ toString method, -1⟩
      else .ok ()
  | _ => .error ⟨"Invalid SOCKS5 auth response length", -1⟩

/-- `SOCKS5_REPLY_MESSAGES`, with the text for the codes it does not have. -/
def replyMessage : UInt8 → String
  | 0x00 => "Success"
  | 0x01 => "General SOCKS server failure"
  | 0x02 => "Connection not allowed by ruleset"
  | 0x03 => "Network unreachable"
  | 0x04 => "Host unreachable"
  | 0x05 => "Connection refused"
  | 0x06 => "TTL expired"
  | 0x07 => "Command not supported"
  | 0x08 => "Address type not supported"
  | replyCode => "Unknown error (" ++ toString replyCode ++ ")"

/-- `verifyConnectResponse`. It looks at the first two bytes of four or more. -/
def verifyConnectResponse : List UInt8 → Except Socks5Error Unit
  | version :: replyCode :: _ :: _ :: _ =>
      if version ≠ 0x05 then .error ⟨"Unsupported SOCKS version in reply: " ++ toString version, -1⟩
      else if replyCode ≠ 0x00 then
        .error ⟨"SOCKS5 connection error: " ++ replyMessage replyCode, replyCode.toNat⟩
      else .ok ()
  | _ => .error ⟨"Invalid SOCKS5 connect response length", -1⟩

/-- `buildAuthRequest`. -/
def buildAuthRequest : List UInt8 := [0x05, 0x01, 0x00]

/-! ## The socket -/

/-- `stage`. -/
inductive Stage where
  | auth
  | connect
  | connected
  deriving DecidableEq

/-- What the promise has been settled with. -/
inductive Outcome where
  | resolved
  | rejected (error : Socks5Error)
  deriving DecidableEq

/-- The variables of `connectViaSocks5`, what has been written to the socket, and the chunks that the
listeners added after the resolution have received. -/
structure Tunnel where
  stage : Stage := .auth
  timer : Bool := true
  destroyed : Bool := false
  outcome : Option Outcome := none
  written : List (List UInt8) := []
  received : List (List UInt8) := []
  deriving DecidableEq

/-- The events of the socket and of the timer. -/
inductive Event where
  | connect
  | data (chunk : List UInt8)
  | timeout
  | error (message : String)

/-- `reject`: the first settlement stays. -/
def Tunnel.reject (t : Tunnel) (error : Socks5Error) : Tunnel :=
  { t with outcome := t.outcome.orElse fun _ => some (.rejected error) }

/-- The `catch` of the `data` handler. -/
def Tunnel.fail (t : Tunnel) (error : Socks5Error) : Tunnel :=
  { t with timer := false, destroyed := true }.reject error

variable (targetHost : List UInt16) (targetPort timeoutMs : Nat)

/-- The `data` handler. When the tunnel is connected the handler has been removed and the chunk goes
to the listeners of the caller, which are added before the next event. -/
def onData (t : Tunnel) (chunk : List UInt8) : Tunnel :=
  match t.stage with
  | .auth =>
      match verifyAuthResponse chunk with
      | .error e => t.fail e
      | .ok () =>
          { t with
            stage := .connect
            written := t.written ++ [buildConnectRequest targetHost targetPort] }
  | .connect =>
      match verifyConnectResponse chunk with
      | .error e => t.fail e
      | .ok () => { t with stage := .connected, timer := false, outcome := some .resolved }
  | .connected => { t with received := t.received ++ [chunk] }

/-- One event. A destroyed socket has none, and a timer that has been cleared does not fire. -/
def step (t : Tunnel) : Event → Tunnel
  | .connect => if t.destroyed then t else { t with written := t.written ++ [buildAuthRequest] }
  | .data chunk => if t.destroyed then t else onData targetHost targetPort t chunk
  | .timeout =>
      if t.timer then
        { t with timer := false, destroyed := true }.reject
          ⟨"SOCKS5 connection timed out after " ++ toString timeoutMs ++ "ms", -1⟩
      else t
  | .error message =>
      if t.destroyed then t
      else
        { t with timer := false, destroyed := true }.reject
          ⟨"Socket connection error: " ++ message, -1⟩

/-- The tunnel after a list of events. -/
def run (t : Tunnel) (events : List Event) : Tunnel :=
  events.foldl (step targetHost targetPort timeoutMs) t

/-! ## A conforming proxy -/

/-- `BND.ADDR` with its type. -/
inductive BoundAddress where
  | ipv4 (octets : List UInt8) (length_eq : octets.length = 4)
  | domain (name : List UInt8) (length_le : name.length ≤ 255)
  | ipv6 (octets : List UInt8) (length_eq : octets.length = 16)

def BoundAddress.bytes : BoundAddress → List UInt8
  | ipv4 octets _ => 0x01 :: octets
  | domain name _ => 0x03 :: UInt8.ofNat name.length :: name
  | ipv6 octets _ => 0x04 :: octets

/-- The reply that accepts the method without authentication. -/
def methodReply : List UInt8 := [0x05, 0x00]

/-- The reply that reports success, with the address and the port the proxy is bound to. -/
def connectReply (address : BoundAddress) (port : UInt8 × UInt8) : List UInt8 :=
  [0x05, 0x00, 0x00] ++ address.bytes ++ [port.1, port.2]

/-- The stream of a conforming proxy, cut into chunks. The proxy answers the CONNECT request when
it has it, so no chunk holds bytes of both replies; everything else about the cut is free. -/
structure Delivery where
  address : BoundAddress
  port : UInt8 × UInt8
  target : List UInt8
  methodChunks : List (List UInt8)
  chunks : List (List UInt8)
  ne_nil : ∀ chunk ∈ methodChunks ++ chunks, chunk ≠ []
  methodChunks_flatten : methodChunks.flatten = methodReply
  chunks_flatten : chunks.flatten = connectReply address port ++ target

/-- The events of the delivery. -/
def Delivery.events (d : Delivery) : List Event :=
  .connect :: (d.methodChunks ++ d.chunks).map .data

/-- The promise has been resolved and the listeners have received the bytes of the target. -/
def Tunnel.Transparent (t : Tunnel) (target : List UInt8) : Prop :=
  t.outcome = some .resolved ∧ t.received.flatten = target

/-- Each reply is a chunk of its own. -/
def Delivery.Aligned (d : Delivery) : Prop :=
  d.methodChunks = [methodReply] ∧ d.chunks.head? = some (connectReply d.address d.port)

/-! ## Runs -/

@[simp] theorem Tunnel.fail_destroyed (t : Tunnel) (error : Socks5Error) :
    (t.fail error).destroyed = true := rfl

@[simp] theorem run_nil (t : Tunnel) : run targetHost targetPort timeoutMs t [] = t := rfl

@[simp] theorem run_cons (t : Tunnel) (event : Event) (events : List Event) :
    run targetHost targetPort timeoutMs t (event :: events) =
      run targetHost targetPort timeoutMs (step targetHost targetPort timeoutMs t event) events :=
  rfl

/-- Chunks do nothing to a destroyed socket. -/
theorem run_data_of_destroyed {t : Tunnel} (hdestroyed : t.destroyed = true)
    (chunks : List (List UInt8)) :
    run targetHost targetPort timeoutMs t (chunks.map .data) = t := by
  induction chunks with
  | nil => rfl
  | cons chunk chunks ih =>
    rw [List.map_cons, run_cons, step, if_pos hdestroyed]
    exact ih

/-- The chunks of a connected tunnel go to the listeners. -/
theorem run_data_of_connected {t : Tunnel} (hlive : t.destroyed = false)
    (hstage : t.stage = .connected) (chunks : List (List UInt8)) :
    run targetHost targetPort timeoutMs t (chunks.map .data) =
      { t with received := t.received ++ chunks } := by
  -- on the chunks, with the ones received so far generalized
  induction chunks generalizing t with
  | nil => simp
  | cons chunk chunks ih =>
    have hstep : step targetHost targetPort timeoutMs t (.data chunk) =
        { t with received := t.received ++ [chunk] } := by
      simp [step, onData, hlive, hstage]
    rw [List.map_cons, run_cons, hstep,
      ih (t := { t with received := t.received ++ [chunk] }) hlive hstage]
    simp

/-- A tunnel that failed has not been resolved, whatever arrives afterwards. -/
theorem outcome_run_fail {t : Tunnel} (hpending : t.outcome = none) (error : Socks5Error)
    (chunks : List (List UInt8)) :
    (run targetHost targetPort timeoutMs (t.fail error) (chunks.map .data)).outcome =
      some (.rejected error) := by
  -- the socket has been destroyed, and the first rejection stays
  rw [run_data_of_destroyed _ _ _ (t.fail_destroyed error)]
  simp [Tunnel.fail, Tunnel.reject, hpending]

/-- The tunnel when the socket is open and the first request has been written. -/
def greeted : Tunnel where
  written := [buildAuthRequest]

/-- The tunnel when the CONNECT request has been written. -/
def requested : Tunnel where
  stage := .connect
  written := [buildAuthRequest, buildConnectRequest targetHost targetPort]

/-- The tunnel when its promise has been resolved. -/
def opened : Tunnel :=
  { requested targetHost targetPort with
    stage := .connected, timer := false, outcome := some .resolved }

/-- A chunk that is accepted as the method reply leads to the CONNECT request. -/
theorem step_greeted_of_ok {chunk : List UInt8} (h : verifyAuthResponse chunk = .ok ()) :
    step targetHost targetPort timeoutMs greeted (.data chunk) =
      requested targetHost targetPort := by
  change onData targetHost targetPort greeted chunk = _
  simp [onData, greeted, requested, h]

/-- A chunk that is not fails the tunnel. -/
theorem step_greeted_of_error {chunk : List UInt8} {error : Socks5Error}
    (h : verifyAuthResponse chunk = .error error) :
    step targetHost targetPort timeoutMs greeted (.data chunk) = greeted.fail error := by
  change onData targetHost targetPort greeted chunk = _
  simp [onData, greeted, h]

/-- A chunk that is accepted as the CONNECT reply opens the tunnel, whatever it holds after its first
four bytes. -/
theorem step_requested_of_ok {chunk : List UInt8} (h : verifyConnectResponse chunk = .ok ()) :
    step targetHost targetPort timeoutMs (requested targetHost targetPort) (.data chunk) =
      opened targetHost targetPort := by
  change onData targetHost targetPort (requested targetHost targetPort) chunk = _
  simp [onData, opened, requested, h]

theorem step_requested_of_error {chunk : List UInt8} {error : Socks5Error}
    (h : verifyConnectResponse chunk = .error error) :
    step targetHost targetPort timeoutMs (requested targetHost targetPort) (.data chunk) =
      (requested targetHost targetPort).fail error := by
  change onData targetHost targetPort (requested targetHost targetPort) chunk = _
  simp [onData, requested, h]

/-- The first chunk is taken for the method reply: a tunnel that is resolved has accepted it. -/
theorem verifyAuthResponse_of_resolved {chunk : List UInt8} {chunks : List (List UInt8)}
    (h : (run targetHost targetPort timeoutMs greeted
      ((chunk :: chunks).map .data)).outcome = some .resolved) :
    verifyAuthResponse chunk = .ok () := by
  cases hverify : verifyAuthResponse chunk with
  | ok => rfl
  | error error =>
    rw [List.map_cons, run_cons, step_greeted_of_error _ _ _ hverify,
      outcome_run_fail _ _ _ rfl] at h
    cases h

/-- The next chunk is taken for the CONNECT reply: a tunnel that is resolved has accepted it. -/
theorem verifyConnectResponse_of_resolved {chunk : List UInt8} {chunks : List (List UInt8)}
    (h : (run targetHost targetPort timeoutMs (requested targetHost targetPort)
      ((chunk :: chunks).map .data)).outcome = some .resolved) :
    verifyConnectResponse chunk = .ok () := by
  cases hverify : verifyConnectResponse chunk with
  | ok => rfl
  | error error =>
    rw [List.map_cons, run_cons, step_requested_of_error _ _ _ hverify,
      outcome_run_fail _ _ _ rfl] at h
    cases h

/-- After two chunks that are accepted the listeners receive all the others. -/
theorem run_greeted {first second : List UInt8} (chunks : List (List UInt8))
    (hfirst : verifyAuthResponse first = .ok ()) (hsecond : verifyConnectResponse second = .ok ()) :
    run targetHost targetPort timeoutMs greeted ((first :: second :: chunks).map .data) =
      { opened targetHost targetPort with received := chunks } := by
  rw [List.map_cons, run_cons, step_greeted_of_ok _ _ _ hfirst, List.map_cons, run_cons,
    step_requested_of_ok _ _ _ hsecond, run_data_of_connected _ _ _ rfl rfl]
  rfl

/-- A whole reply is accepted. -/
theorem verifyConnectResponse_connectReply (address : BoundAddress) (port : UInt8 × UInt8) :
    verifyConnectResponse (connectReply address port) = .ok () := by
  cases address <;> rfl

/-- A chunk that is accepted as the method reply has two bytes. -/
theorem two_le_of_verifyAuthResponse {chunk : List UInt8}
    (h : verifyAuthResponse chunk = .ok ()) : 2 ≤ chunk.length := by
  rcases chunk with - | ⟨version, - | ⟨method, rest⟩⟩
  · cases h
  · cases h
  · exact Nat.le_add_left _ _

/-! ## Transparency -/

/-- When the first of the method chunks has two bytes it is the only one. -/
theorem Delivery.methodChunks_eq (d : Delivery) {chunk : List UInt8} {chunks : List (List UInt8)}
    (hchunks : d.methodChunks = chunk :: chunks) (htwo : 2 ≤ chunk.length) :
    chunk = methodReply ∧ chunks = [] := by
  have hflatten := d.methodChunks_flatten
  rw [hchunks, List.flatten_cons] at hflatten
  have hlength := congrArg List.length hflatten
  rw [List.length_append] at hlength
  -- the reply has two bytes, so that nothing is left for other chunks
  have hempty : chunks.flatten = [] :=
    List.eq_nil_of_length_eq_zero (by change _ = 2 at hlength; omega)
  rw [hempty, List.append_nil] at hflatten
  refine ⟨hflatten, List.eq_nil_iff_forall_not_mem.2 ?_⟩
  intro other hother
  refine d.ne_nil other ?_ (List.flatten_eq_nil_iff.1 hempty other hother)
  rw [hchunks]
  exact List.mem_append_left _ (List.mem_cons_of_mem _ hother)

/-- A delivery begins with a chunk of the method reply, and goes on with one of the CONNECT reply. -/
theorem Delivery.exists_chunks (d : Delivery) :
    (∃ first others, d.methodChunks = first :: others) ∧
      ∃ second chunks, d.chunks = second :: chunks := by
  have hmethod := d.methodChunks_flatten
  have hbytes := d.chunks_flatten
  constructor
  · apply List.exists_cons_of_ne_nil
    intro hnil
    rw [hnil] at hmethod
    cases hmethod
  · apply List.exists_cons_of_ne_nil
    intro hnil
    rw [hnil] at hbytes
    cases hbytes

/-- The promise is resolved and the listeners receive the bytes of the target, and no others, exactly
when each reply arrives as a chunk of its own. -/
theorem run_transparent_iff (d : Delivery) :
    (run targetHost targetPort timeoutMs {} d.events).Transparent d.target ↔ d.Aligned := by
  change (run targetHost targetPort timeoutMs greeted
    ((d.methodChunks ++ d.chunks).map .data)).Transparent d.target ↔ _
  obtain ⟨⟨first, others, hmethod⟩, second, chunks, hchunks⟩ := d.exists_chunks
  have hbytes := d.chunks_flatten
  rw [hchunks, List.flatten_cons] at hbytes
  constructor
  · rintro ⟨hresolved, hreceived⟩
    -- a tunnel that is resolved has taken its first two chunks for the two replies
    have hfirst : verifyAuthResponse first = .ok () := by
      rw [hmethod] at hresolved
      exact verifyAuthResponse_of_resolved _ _ _ hresolved
    obtain ⟨rfl, rfl⟩ := d.methodChunks_eq hmethod (two_le_of_verifyAuthResponse hfirst)
    rw [hmethod, hchunks, List.singleton_append] at hresolved hreceived
    have hsecond : verifyConnectResponse second = .ok () := by
      rw [List.map_cons, run_cons, step_greeted_of_ok _ _ _ hfirst] at hresolved
      exact verifyConnectResponse_of_resolved _ _ _ hresolved
    -- the listeners get the chunks after the second, so that the second is what is left: the reply
    rw [run_greeted _ _ _ _ hfirst hsecond] at hreceived
    change chunks.flatten = d.target at hreceived
    rw [hreceived] at hbytes
    exact ⟨hmethod, by rw [hchunks, List.head?_cons, List.append_cancel_right hbytes]⟩
  · rintro ⟨hone, hhead⟩
    rw [hchunks, List.head?_cons, Option.some.injEq] at hhead
    subst hhead
    rw [hone, hchunks, List.singleton_append,
      run_greeted _ _ _ _ rfl (verifyConnectResponse_connectReply _ _)]
    exact ⟨rfl, List.append_cancel_left hbytes⟩

/-- A reply and the first byte of the target in one chunk. -/
def joined : Delivery where
  address := .ipv4 [0, 0, 0, 0] rfl
  port := (0, 0)
  target := [72]
  methodChunks := [methodReply]
  chunks := [[0x05, 0x00, 0x00, 0x01, 0, 0, 0, 0, 0, 0, 72]]
  ne_nil := by simp [methodReply]
  methodChunks_flatten := rfl
  chunks_flatten := rfl

/-- Not every cut is transparent: of a reply that arrives with the first byte of the target, the byte
is lost. -/
theorem not_forall_transparent :
    ¬ ∀ (d : Delivery) (targetHost : List UInt16) (targetPort timeoutMs : Nat),
      (run targetHost targetPort timeoutMs {} d.events).Transparent d.target := by
  intro h
  exact absurd (h joined narrowHost 80 30000).2 (by decide)

end TorE2EE.Client.Socks5
