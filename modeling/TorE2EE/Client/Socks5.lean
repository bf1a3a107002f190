import TorE2EE.Foundation.Unicode

/-!
# SOCKS5 requests

`Socks5Tunnel.buildConnectRequest`, and a reader of CONNECT requests as RFC 1928 lays them out. A
host is a string of 16-bit code units. The arrays of the source wrap what does not fit a byte.

`buildConnectRequest_namesTarget_iff` says for which hosts the request names the host it was built
for. The others get a well-formed request for another address: `300.1.2.3` is asked for as
`44.1.2.3`.
-/

set_option autoImplicit false

namespace TorE2EE.Client.Socks5

open TorE2EE.Foundation

/-! ## Building -/

/-- `\d`. -/
def isDigit (u : UInt16) : Bool := 48 ≤ u.toNat && u.toNat ≤ 57

/-- The code unit of `.`. -/
def dot : UInt16 := 46

/-- `/^(\d{1,3}\.){3}\d{1,3}$/.test(host)`: four groups of one to three digits between dots. -/
def isIpv4 (host : List UInt16) : Bool :=
  (host.splitOn dot).length = 4 &&
    (host.splitOn dot).all fun part =>
      part.all isDigit && decide (1 ≤ part.length) && decide (part.length ≤ 3)

/-- `Number` of a string of digits. -/
def decimal (part : List UInt16) : Nat := part.foldl (fun n u => n * 10 + (u.toNat - 48)) 0

/-- `new TextEncoder().encode`. -/
def textEncode (host : List UInt16) : List UInt8 := utf8 (scalars host)

/-- The two bytes of a port. -/
def portBytes (port : Nat) : List UInt8 :=
  [UInt8.ofNat ((port >>> 8) &&& 0xff), UInt8.ofNat (port &&& 0xff)]

/-- `buildConnectRequest`. It never throws. -/
def buildConnectRequest (host : List UInt16) (port : Nat) : List UInt8 :=
  if isIpv4 host then
    let parts := (host.splitOn dot).map decimal
    [0x05, 0x01, 0x00, 0x01] ++ parts.map UInt8.ofNat ++ portBytes port
  else
    let domainBytes := textEncode host
    [0x05, 0x01, 0x00, 0x03, UInt8.ofNat domainBytes.length] ++ domainBytes ++ portBytes port

/-! ## Reading -/

/-- The address of a request. -/
inductive Address where
  | ipv4 (octets : List UInt8)
  | name (bytes : List UInt8)

/-- The bytes of an address, after its type, and what follows them. -/
def readAddress : List UInt8 → Option (Address × List UInt8)
  | 0x01 :: bytes =>
      if 4 ≤ bytes.length then some (.ipv4 (bytes.take 4), bytes.drop 4) else none
  | 0x03 :: length :: bytes =>
      if length.toNat ≤ bytes.length then
        some (.name (bytes.take length.toNat), bytes.drop length.toNat)
      else none
  | _ => none

/-- A CONNECT request: its address and port, and what follows it. -/
def readConnectRequest : List UInt8 → Option (Address × Nat × List UInt8)
  | 0x05 :: 0x01 :: 0x00 :: bytes =>
      match readAddress bytes with
      | some (address, high :: low :: rest) =>
          some (address, high.toNat * 256 + low.toNat, rest)
      | _ => none
  | _ => none

/-- A decimal number below 256. Whether it may begin with a zero that it does not need depends on
the reader of the address: `leadingZeros` says so. -/
def IsOctet (leadingZeros : Bool) (part : List UInt16) : Prop :=
  part.all isDigit = true ∧ 1 ≤ part.length ∧ part.length ≤ 3 ∧ decimal part ≤ 255 ∧
    (leadingZeros = false → part.length = 1 ∨ part.head? ≠ some 48)

/-- Four octets between dots. -/
def IsDottedQuad (leadingZeros : Bool) (host : List UInt16) : Prop :=
  (host.splitOn dot).length = 4 ∧ ∀ part ∈ host.splitOn dot, IsOctet leadingZeros part

/-- The address is the one the host stands for. -/
def Denotes (leadingZeros : Bool) (host : List UInt16) : Address → Prop
  | .ipv4 octets =>
      IsDottedQuad leadingZeros host ∧ (host.splitOn dot).map decimal = octets.map UInt8.toNat
  | .name bytes => ∃ text, utf16 text = host ∧ utf8 text = bytes

/-- The request is one for this host and port with no byte left over, and by name unless the host is
a dotted quad. -/
def NamesTarget (leadingZeros : Bool) (host : List UInt16) (port : Nat) (request : List UInt8) :
    Prop :=
  ∃ address, readConnectRequest request = some (address, port, []) ∧
    Denotes leadingZeros host address ∧
    (¬ IsDottedQuad leadingZeros host → ∃ bytes, address = .name bytes)

/-- The hosts whose request names them: of those with the IPv4 pattern the ones whose groups are
octets, of the others those without a lone surrogate and of at most 255 bytes. -/
def Requestable (leadingZeros : Bool) (host : List UInt16) : Prop :=
  if isIpv4 host then
    ∀ part ∈ host.splitOn dot,
      decimal part ≤ 255 ∧ (leadingZeros = false → part.length = 1 ∨ part.head? ≠ some 48)
  else isWellFormed host = true ∧ (textEncode host).length ≤ 255

/-- `300.1.2.3`. -/
def wideHost : List UInt16 := [51, 48, 48, 46, 49, 46, 50, 46, 51]

/-- `44.1.2.3`. -/
def narrowHost : List UInt16 := [52, 52, 46, 49, 46, 50, 46, 51]

/-! ## What the request says -/

/-- A port of two bytes is read back. -/
theorem readPort (port : Nat) (hport : port ≤ 65535) :
    ∃ high low : UInt8, portBytes port = [high, low] ∧ high.toNat * 256 + low.toNat = port := by
  have hlow (n : Nat) : n &&& 0xff = n % 256 := Nat.and_two_pow_sub_one_eq_mod n 8
  refine ⟨_, _, rfl, ?_⟩
  rw [hlow, hlow, Nat.shiftRight_eq_div_pow, byte_toNat (Nat.mod_lt _ (by decide)),
    byte_toNat (Nat.mod_lt _ (by decide))]
  omega

theorem readAddress_ipv4 {octets : List UInt8} (hlength : octets.length = 4) (rest : List UInt8) :
    readAddress (0x01 :: (octets ++ rest)) = some (.ipv4 octets, rest) := by
  rw [readAddress, if_pos (by rw [List.length_append]; omega), ← hlength, List.take_left,
    List.drop_left]

theorem readAddress_name {bytes : List UInt8} (hlength : bytes.length ≤ 255) (rest : List UInt8) :
    readAddress (0x03 :: UInt8.ofNat bytes.length :: (bytes ++ rest)) = some (.name bytes, rest) := by
  have hnat : (UInt8.ofNat bytes.length).toNat = bytes.length := byte_toNat (by omega)
  rw [readAddress, hnat, if_pos (by rw [List.length_append]; omega), List.take_left, List.drop_left]

/-- Reading a request is reading its address and its port. -/
theorem readConnectRequest_eq_some {bytes : List UInt8} {address : Address} {port : Nat}
    {rest : List UInt8} :
    readConnectRequest (0x05 :: 0x01 :: 0x00 :: bytes) = some (address, port, rest) ↔
      ∃ high low, readAddress bytes = some (address, high :: low :: rest) ∧
        high.toNat * 256 + low.toNat = port := by
  constructor
  · intro h
    rw [readConnectRequest] at h
    split at h
    · next hread =>
      cases h
      exact ⟨_, _, hread, rfl⟩
    · cases h
  · rintro ⟨high, low, hread, rfl⟩
    rw [readConnectRequest, hread]

/-- A request by address is read as what was written. -/
theorem readConnectRequest_ipv4 {octets : List UInt8} (hlength : octets.length = 4) {port : Nat}
    (hport : port ≤ 65535) {address : Address} :
    readConnectRequest ([0x05, 0x01, 0x00, 0x01] ++ octets ++ portBytes port) =
      some (address, port, []) ↔ address = .ipv4 octets := by
  obtain ⟨high, low, hbytes, hvalue⟩ := readPort port hport
  have hread := readAddress_ipv4 hlength [high, low]
  simp only [hbytes, List.cons_append, List.nil_append, readConnectRequest_eq_some, hread]
  constructor
  · rintro ⟨high', low', h, -⟩
    cases h
    rfl
  · rintro rfl
    exact ⟨high, low, rfl, hvalue⟩

/-- A request by name is read as what was written when the length of the name fits its byte.
Otherwise bytes are left over. -/
theorem readConnectRequest_name {bytes : List UInt8} {port : Nat} (hport : port ≤ 65535)
    {address : Address} :
    readConnectRequest
        ([0x05, 0x01, 0x00, 0x03, UInt8.ofNat bytes.length] ++ bytes ++ portBytes port) =
      some (address, port, []) ↔ bytes.length ≤ 255 ∧ address = .name bytes := by
  obtain ⟨high, low, hbytes, hvalue⟩ := readPort port hport
  simp only [hbytes, List.cons_append, List.nil_append, readConnectRequest_eq_some]
  constructor
  · rintro ⟨high', low', hread, -⟩
    have hlength : bytes.length ≤ 255 := by
      by_contra hlong
      rw [readAddress] at hread
      split at hread
      · -- after the name that is read there are more than the two bytes of the port
        have hdrop := congrArg (fun r => r.map fun p => p.2.length) hread
        have hfew := (UInt8.ofNat bytes.length).toNat_lt
        simp only [Option.map_some, List.length_drop, List.length_append, List.length_cons,
          List.length_nil, Option.some.injEq] at hdrop
        omega
      · cases hread
    rw [readAddress_name hlength] at hread
    cases hread
    exact ⟨hlength, rfl⟩
  · rintro ⟨hlength, rfl⟩
    exact ⟨high, low, readAddress_name hlength _, hvalue⟩

/-- Of the hosts with the IPv4 pattern, the dotted quads are those whose groups are octets. -/
theorem isDottedQuad_iff (leadingZeros : Bool) {host : List UInt16} (h : isIpv4 host = true) :
    IsDottedQuad leadingZeros host ↔ ∀ part ∈ host.splitOn dot,
      decimal part ≤ 255 ∧ (leadingZeros = false → part.length = 1 ∨ part.head? ≠ some 48) := by
  simp only [isIpv4, Bool.and_eq_true, decide_eq_true_eq, List.all_eq_true] at h
  obtain ⟨hfour, hparts⟩ := h
  constructor
  · intro hquad part hpart
    exact (hquad.2 part hpart).2.2.2
  · intro hoctets
    refine ⟨hfour, ?_⟩
    intro part hpart
    obtain ⟨⟨hdigits, hsome⟩, hfew⟩ := hparts part hpart
    exact ⟨List.all_eq_true.2 hdigits, hsome, hfew, hoctets part hpart⟩

/-- A dotted quad has the pattern. -/
theorem isIpv4_of_isDottedQuad {leadingZeros : Bool} {host : List UInt16}
    (h : IsDottedQuad leadingZeros host) : isIpv4 host = true := by
  simp only [isIpv4, Bool.and_eq_true, decide_eq_true_eq]
  refine ⟨h.1, List.all_eq_true.2 ?_⟩
  intro part hpart
  obtain ⟨hdigits, hsome, hfew, -⟩ := h.2 part hpart
  simp only [hdigits, hsome, hfew, decide_true, Bool.and_self]

/-- The request names its host and port for the requestable hosts, and for no others. -/
theorem buildConnectRequest_namesTarget_iff (leadingZeros : Bool) (host : List UInt16) (port : Nat)
    (hport : port ≤ 65535) :
    NamesTarget leadingZeros host port (buildConnectRequest host port) ↔
      Requestable leadingZeros host := by
  rw [NamesTarget, buildConnectRequest, Requestable]
  by_cases hpattern : isIpv4 host = true
  · -- by address: the octets are the groups modulo 256
    have hlength : (((host.splitOn dot).map decimal).map UInt8.ofNat).length = 4 := by
      simp only [isIpv4, Bool.and_eq_true, decide_eq_true_eq] at hpattern
      rw [List.length_map, List.length_map, hpattern.1]
    simp only [hpattern, if_true, readConnectRequest_ipv4 hlength hport,
      ← isDottedQuad_iff leadingZeros hpattern]
    constructor
    · rintro ⟨address, rfl, hdenotes, -⟩
      exact hdenotes.1
    · intro hquad
      refine ⟨_, rfl, ⟨hquad, ?_⟩, fun hnot => absurd hquad hnot⟩
      rw [List.map_map, List.map_map]
      apply List.map_congr_left
      intro part hpart
      have hsmall := ((isDottedQuad_iff leadingZeros hpattern).1 hquad part hpart).1
      exact (byte_toNat (by omega)).symm
  · -- by name: the bytes are the host's text when it has one
    have hquad : ¬ IsDottedQuad leadingZeros host := fun h => hpattern (isIpv4_of_isDottedQuad h)
    simp only [hpattern, if_false, readConnectRequest_name hport, Bool.false_eq_true]
    constructor
    · rintro ⟨address, ⟨hlength, rfl⟩, ⟨text, htext, -⟩, -⟩
      exact ⟨exists_utf16_iff.1 ⟨text, htext⟩, hlength⟩
    · rintro ⟨hwell, hlength⟩
      exact ⟨_, ⟨hlength, rfl⟩, ⟨scalars host, utf16_scalars hwell, rfl⟩, fun _ => ⟨_, rfl⟩⟩

/-- `wideHost` has the pattern, and its request is the one for `narrowHost`. -/
theorem buildConnectRequest_wideHost :
    ¬ NamesTarget true wideHost 80 (buildConnectRequest wideHost 80) ∧
      ¬ NamesTarget false wideHost 80 (buildConnectRequest wideHost 80) ∧
      buildConnectRequest wideHost 80 = buildConnectRequest narrowHost 80 := by
  have hread : readConnectRequest (buildConnectRequest wideHost 80) =
      some (.ipv4 [44, 1, 2, 3], 80, []) := by rfl
  have hwide : [51, 48, 48] ∈ wideHost.splitOn dot := by decide
  have hnot (leadingZeros : Bool) :
      ¬ NamesTarget leadingZeros wideHost 80 (buildConnectRequest wideHost 80) := by
    rintro ⟨address, haddress, hdenotes, -⟩
    rw [hread, Option.some.injEq] at haddress
    cases haddress
    exact absurd (hdenotes.1.2 _ hwide).2.2.2.1 (by decide)
  exact ⟨hnot true, hnot false, by decide⟩

theorem buildConnectRequest_narrowHost :
    80 ≤ 65535 ∧ (NamesTarget false narrowHost 80 (buildConnectRequest narrowHost 80) ↔
      Requestable false narrowHost) ∧ Requestable false narrowHost :=
  ⟨by decide, buildConnectRequest_namesTarget_iff false narrowHost 80 (by decide), by
    have hpattern : isIpv4 narrowHost = true := by decide
    rw [Requestable, if_pos hpattern]
    decide⟩

end TorE2EE.Client.Socks5
