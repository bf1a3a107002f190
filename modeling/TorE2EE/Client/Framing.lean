import TorE2EE.Foundation.Streaming
import Mathlib.Data.List.GetD
import Mathlib.Tactic.Ring

/-!
# WebSocket frames on the stream socket

`TorWebSocketClient.sendRawFrame` lays a frame out masked, the relay lays its frames out unmasked,
and `handleRawData` cuts frames off the bytes of the socket as they arrive. `nextFrame` is one round
of its loop, with an early return at each place where bytes are missing, and `frameReader` says that
a frame once complete is not affected by what follows it.
-/

set_option autoImplicit false

namespace TorE2EE.Client

open TorE2EE.Foundation

/-- `Number.MAX_SAFE_INTEGER`, which is also the largest length a `Buffer` can have. -/
def maxSafeInteger : Nat := 2 ^ 53 - 1

/-- `Number(n)` of an unsigned 64-bit integer: exact up to `2 ^ 53`, and from there on rounded to
the nearest double, ties to even. -/
def number (n : Nat) : Nat :=
  if n ≤ 2 ^ 53 then n
  else
    let unit := 2 ^ (Nat.log2 n - 52)
    let quotient := n / unit
    let remainder := n % unit
    if unit < 2 * remainder ∨ (unit = 2 * remainder ∧ quotient % 2 = 1) then (quotient + 1) * unit
    else quotient * unit

/-- The bytes of `n` in big-endian order, as `writeUInt16BE` and `writeBigUInt64BE` write them. -/
def writeUIntBE : Nat → Nat → List UInt8
  | 0, _ => []
  | width + 1, n => UInt8.ofNat (n / 256 ^ width) :: writeUIntBE width n

/-- What `readUInt16BE` and `readBigUInt64BE` read. -/
def readUIntBE (bytes : List UInt8) : Nat :=
  bytes.foldl (fun n byte => n * 256 + byte.toNat) 0

/-- `payload[i] ^ maskKey[i % 4]` at each place of the payload. -/
def applyMask (maskKey payload : List UInt8) : List UInt8 :=
  payload.mapIdx fun i byte => byte ^^^ maskKey.getD (i % 4) 0

/-! ### Writing a frame -/

/-- The second byte of a frame and the extended length after it. -/
def lengthBytes (maskBit : UInt8) (payloadLen : Nat) : List UInt8 :=
  if payloadLen ≤ 125 then [maskBit ||| UInt8.ofNat payloadLen]
  else if payloadLen ≤ 0xffff then (maskBit ||| 126) :: writeUIntBE 2 payloadLen
  else (maskBit ||| 127) :: writeUIntBE 8 payloadLen

/-- The bytes `sendRawFrame` writes to the socket with the mask key it draws. -/
def rawFrame (maskKey : List UInt8) (opcode : UInt8) (payload : List UInt8) : List UInt8 :=
  (0x80 ||| (opcode &&& 0x0f)) :: lengthBytes 0x80 payload.length ++ maskKey ++
    applyMask maskKey payload

/-- The bytes of a frame of the relay, as the tests' `sendWsFrame` lays it out. -/
def wsFrame (opcode : UInt8) (payload : List UInt8) : List UInt8 :=
  (0x80 ||| (opcode &&& 0x0f)) :: lengthBytes 0 payload.length ++ payload

/-- A frame on the wire: a 4-bit opcode, a payload, and the mask key if it is sent masked. All its
bytes fit a `Buffer`, where both sides build it. -/
structure Frame where
  opcode : UInt8
  payload : List UInt8
  maskKey : Option (List UInt8)
  opcode_lt : opcode < 16
  maskKey_length : ∀ key ∈ maskKey, key.length = 4
  fits : payload.length + 14 ≤ maxSafeInteger

def Frame.layout (f : Frame) : List UInt8 :=
  match f.maskKey with
  | some maskKey => rawFrame maskKey f.opcode f.payload
  | none => wsFrame f.opcode f.payload

/-! ### Reading a frame -/

/-- The length of the payload and the place where the header goes on, from the low seven bits of
the second byte. -/
def readPayloadLen (buffer : List UInt8) (payloadLen : Nat) : Option (Nat × Nat) :=
  if payloadLen = 126 then
    if buffer.length < 2 + 2 then none
    else some (readUIntBE ((buffer.drop 2).take 2), 2 + 2)
  else if payloadLen = 127 then
    if buffer.length < 2 + 8 then none
    else some (number (readUIntBE ((buffer.drop 2).take 8)), 2 + 8)
  else some (payloadLen, 2)

/-- The mask key of a masked frame and the place where the payload starts. -/
def readMaskKey (isMasked : Bool) (buffer : List UInt8) (offset : Nat) :
    Option (Option (List UInt8) × Nat) :=
  if isMasked then
    if buffer.length < offset + 4 then none
    else some (some ((buffer.drop offset).take 4), offset + 4)
  else some (none, offset)

/-- One round of the loop of `handleRawData`: the opcode and the unmasked payload of the first
frame of the buffer and the number of bytes it takes; `none` where the source returns or leaves the
loop. -/
def nextFrame (buffer : List UInt8) : Option ((UInt8 × List UInt8) × Nat) := do
  let firstByte ← buffer[0]?
  let secondByte ← buffer[1]?
  let opcode := firstByte &&& 0x0f
  let isMasked := (secondByte &&& 0x80) != 0
  let (payloadLen, offset) ← readPayloadLen buffer (secondByte &&& 0x7f).toNat
  let (maskKey, offset) ← readMaskKey isMasked buffer offset
  if buffer.length < offset + payloadLen then none
  else
    let payload := (buffer.drop offset).take payloadLen
    let payload := match maskKey with
      | some maskKey => applyMask maskKey payload
      | none => payload
    return ((opcode, payload), offset + payloadLen)

/-! ### A complete frame stays the first one -/

theorem readPayloadLen_append {buffer : List UInt8} {payloadLen : Nat} {found : Nat × Nat}
    (h : readPayloadLen buffer payloadLen = some found) (more : List UInt8) :
    readPayloadLen (buffer ++ more) payloadLen = some found := by
  simp only [readPayloadLen] at h ⊢
  split at h
  · -- the bytes of the length are all there, so more bytes behind them change nothing
    rename_i h126
    split at h
    · simp at h
    · rename_i hlen
      rw [if_pos h126, if_neg (by simp only [List.length_append]; omega),
        List.drop_append_of_le_length (by omega),
        List.take_append_of_le_length (by simp only [List.length_drop]; omega)]
      exact h
  · rename_i h126
    rw [if_neg h126]
    split at h
    · rename_i h127
      split at h
      · simp at h
      · rename_i hlen
        rw [if_pos h127, if_neg (by simp only [List.length_append]; omega),
          List.drop_append_of_le_length (by omega),
          List.take_append_of_le_length (by simp only [List.length_drop]; omega)]
        exact h
    · rename_i h127
      rw [if_neg h127]
      exact h

theorem readPayloadLen_offset {buffer : List UInt8} {payloadLen n offset : Nat}
    (h : readPayloadLen buffer payloadLen = some (n, offset)) : 2 ≤ offset := by
  simp only [readPayloadLen] at h
  split at h
  · split at h
    · simp at h
    · simp at h
      omega
  · split at h
    · split at h
      · simp at h
      · simp at h
        omega
    · simp at h
      omega

theorem readMaskKey_append {isMasked : Bool} {buffer : List UInt8} {offset : Nat}
    {found : Option (List UInt8) × Nat} (h : readMaskKey isMasked buffer offset = some found)
    (more : List UInt8) : readMaskKey isMasked (buffer ++ more) offset = some found := by
  simp only [readMaskKey] at h ⊢
  cases isMasked with
  | false => exact h
  | true =>
    simp only [↓reduceIte] at h ⊢
    split at h
    · simp at h
    · rename_i hlen
      rw [if_neg (by simp only [List.length_append]; omega),
        List.drop_append_of_le_length (by omega),
        List.take_append_of_le_length (by simp only [List.length_drop]; omega)]
      exact h

theorem readMaskKey_offset {isMasked : Bool} {buffer : List UInt8} {offset payloadStart : Nat}
    {maskKey : Option (List UInt8)}
    (h : readMaskKey isMasked buffer offset = some (maskKey, payloadStart)) :
    offset ≤ payloadStart := by
  simp only [readMaskKey] at h
  cases isMasked with
  | false => simp at h; omega
  | true =>
    simp only [↓reduceIte] at h
    split at h <;> simp at h
    omega

/-- What `nextFrame` reads on the way to a frame. -/
theorem nextFrame_cases {buffer : List UInt8} {frame : UInt8 × List UInt8} {consumed : Nat}
    (h : nextFrame buffer = some (frame, consumed)) :
    ∃ firstByte secondByte payloadLen offset maskKey payloadStart,
      buffer[0]? = some firstByte ∧ buffer[1]? = some secondByte ∧
      readPayloadLen buffer (secondByte &&& 0x7f).toNat = some (payloadLen, offset) ∧
      readMaskKey ((secondByte &&& 0x80) != 0) buffer offset = some (maskKey, payloadStart) ∧
      payloadStart + payloadLen ≤ buffer.length ∧ consumed = payloadStart + payloadLen ∧
      frame = (firstByte &&& 0x0f, match maskKey with
        | some key => applyMask key ((buffer.drop payloadStart).take payloadLen)
        | none => (buffer.drop payloadStart).take payloadLen) := by
  simp only [nextFrame, Option.bind_eq_bind, Option.bind_eq_some_iff] at h
  obtain ⟨firstByte, hfirst, secondByte, hsecond, ⟨payloadLen, offset⟩, hlen,
    ⟨maskKey, payloadStart⟩, hmask, h⟩ := h
  simp only at h
  split at h
  · simp at h
  · rename_i hcomplete
    obtain ⟨hframe, hconsumed⟩ : _ ∧ _ := by simpa using h
    exact ⟨firstByte, secondByte, payloadLen, offset, maskKey, payloadStart, hfirst, hsecond,
      hlen, hmask, by omega, hconsumed.symm, hframe.symm⟩

theorem nextFrame_append {buffer : List UInt8} {frame : UInt8 × List UInt8} {consumed : Nat}
    (h : nextFrame buffer = some (frame, consumed)) (more : List UInt8) :
    nextFrame (buffer ++ more) = some (frame, consumed) := by
  obtain ⟨firstByte, secondByte, payloadLen, offset, maskKey, payloadStart, hfirst, hsecond,
    hlen, hmask, hcomplete, rfl, rfl⟩ := nextFrame_cases h
  have hlonger : ¬ (buffer ++ more).length < payloadStart + payloadLen := by
    simp only [List.length_append]
    omega
  have htake : ((buffer ++ more).drop payloadStart).take payloadLen
      = (buffer.drop payloadStart).take payloadLen := by
    rw [List.drop_append_of_le_length (by omega),
      List.take_append_of_le_length (by simp only [List.length_drop]; omega)]
  have hfirst' : (buffer ++ more)[0]? = some firstByte :=
    List.getElem?_append_left (List.getElem?_eq_some_iff.mp hfirst).1 ▸ hfirst
  have hsecond' : (buffer ++ more)[1]? = some secondByte :=
    List.getElem?_append_left (List.getElem?_eq_some_iff.mp hsecond).1 ▸ hsecond
  simp only [nextFrame, Option.bind_eq_bind, hfirst', hsecond', Option.bind_some,
    readPayloadLen_append hlen more, readMaskKey_append hmask more, if_neg hlonger, htake]
  rfl

/-- Frames, read off the bytes as `handleRawData` reads them. -/
def frameReader : RecordReader UInt8 (UInt8 × List UInt8) where
  next := nextFrame
  pos_of_next h := by
    obtain ⟨_, _, _, _, _, _, _, _, hlen, hmask, _, rfl, _⟩ := nextFrame_cases h
    have hoffset := readPayloadLen_offset hlen
    have hstart := readMaskKey_offset hmask
    omega
  le_of_next h := by
    obtain ⟨_, _, _, _, _, _, _, _, _, _, hcomplete, rfl, _⟩ := nextFrame_cases h
    exact hcomplete
  next_append h more := nextFrame_append h more

/-! ### The reader reads what both layouts write -/

@[simp]
theorem length_writeUIntBE (width n : Nat) : (writeUIntBE width n).length = width := by
  induction width with
  | zero => rfl
  | succ width ih => simp [writeUIntBE, ih]

theorem foldl_writeUIntBE (width n start : Nat) :
    (writeUIntBE width n).foldl (fun n byte => n * 256 + byte.toNat) start
      = start * 256 ^ width + n % 256 ^ width := by
  induction width generalizing start with
  | zero => simp [writeUIntBE, Nat.mod_one]
  | succ width ih =>
    have hbyte : (UInt8.ofNat (n / 256 ^ width)).toNat = n / 256 ^ width % 256 := by simp
    rw [writeUIntBE, List.foldl_cons, ih, hbyte, Nat.mod_pow_succ]
    ring

theorem readUIntBE_writeUIntBE {width n : Nat} (h : n < 256 ^ width) :
    readUIntBE (writeUIntBE width n) = n := by
  simp [readUIntBE, foldl_writeUIntBE, Nat.mod_eq_of_lt h]

@[simp]
theorem length_applyMask (maskKey payload : List UInt8) :
    (applyMask maskKey payload).length = payload.length := by
  simp [applyMask]

/-- The mask is taken off the way it is put on. -/
theorem applyMask_applyMask (maskKey payload : List UInt8) :
    applyMask maskKey (applyMask maskKey payload) = payload := by
  apply List.ext_getElem
  · simp
  · intro i _ _
    simp only [applyMask, List.getElem_mapIdx]
    rw [UInt8.xor_assoc, UInt8.xor_self, UInt8.xor_zero]

theorem opcode_firstByte {opcode : UInt8} (h : opcode < 16) :
    (0x80 ||| (opcode &&& 0x0f)) &&& 0x0f = opcode := by
  have hall : ∀ k : Fin 16,
      (0x80 ||| (UInt8.ofNat k &&& 0x0f)) &&& 0x0f = UInt8.ofNat k := by decide
  have hopcode := hall ⟨opcode.toNat, UInt8.lt_iff_toNat_lt.mp h⟩
  rwa [UInt8.ofNat_toNat] at hopcode

/-- The bit that says that a frame is masked. -/
def maskBit (masked : Bool) : UInt8 := if masked then 0x80 else 0

/-- The low seven bits of the second byte of a short frame are its length, the top bit says whether
it is masked. -/
theorem secondByte_short {n : Nat} (h : n ≤ 125) (masked : Bool) :
    ((maskBit masked ||| UInt8.ofNat n) &&& 0x7f).toNat = n ∧
    (((maskBit masked ||| UInt8.ofNat n) &&& 0x80) != 0) = masked := by
  have hall : ∀ masked : Bool, ∀ k : Fin 126,
      ((maskBit masked ||| UInt8.ofNat k) &&& 0x7f).toNat = k ∧
      (((maskBit masked ||| UInt8.ofNat k) &&& 0x80) != 0) = masked := by decide
  exact hall masked ⟨n, by omega⟩

theorem number_of_le {n : Nat} (h : n ≤ 2 ^ 53) : number n = n := if_pos h

/-- The length a frame announces is the length that is read, in all three forms. -/
theorem readPayloadLen_lengthBytes {n : Nat} (h : n ≤ maxSafeInteger) (masked : Bool)
    (firstByte : UInt8) (rest : List UInt8) :
    ∃ secondByte extended, lengthBytes (maskBit masked) n = secondByte :: extended ∧
      ((secondByte &&& 0x80) != 0) = masked ∧
      readPayloadLen (firstByte :: secondByte :: extended ++ rest) (secondByte &&& 0x7f).toNat
        = some (n, 2 + extended.length) := by
  have hsafe : n ≤ 2 ^ 53 := by
    have hmax : maxSafeInteger ≤ 2 ^ 53 := by decide
    omega
  simp only [lengthBytes]
  split
  · rename_i h125
    obtain ⟨hlen, hbit⟩ := secondByte_short h125 masked
    refine ⟨_, [], rfl, hbit, ?_⟩
    rw [hlen, readPayloadLen, if_neg (by omega), if_neg (by omega)]
    rfl
  · split
    · rename_i h16
      have hread : readUIntBE (writeUIntBE 2 n) = n := readUIntBE_writeUIntBE (by omega)
      have hflag : ((maskBit masked ||| 126) &&& 0x7f).toNat = 126 := by cases masked <;> decide
      refine ⟨_, _, rfl, by cases masked <;> decide, ?_⟩
      simp [readPayloadLen, hflag, hread]
    · have hread : readUIntBE (writeUIntBE 8 n) = n := readUIntBE_writeUIntBE (by omega)
      have hflag : ((maskBit masked ||| 127) &&& 0x7f).toNat = 127 := by cases masked <;> decide
      refine ⟨_, _, rfl, by cases masked <;> decide, ?_⟩
      simp [readPayloadLen, hflag, hread, number_of_le hsafe]

theorem drop_header (firstByte secondByte : UInt8) (extended rest : List UInt8) :
    (firstByte :: secondByte :: (extended ++ rest)).drop (2 + extended.length) = rest := by
  rw [Nat.add_comm]
  simp

theorem nextFrame_wsFrame {opcode : UInt8} {payload : List UInt8} (hopcode : opcode < 16)
    (hfits : payload.length ≤ maxSafeInteger) (tail : List UInt8) :
    nextFrame (wsFrame opcode payload ++ tail)
      = some ((opcode, payload), (wsFrame opcode payload).length) := by
  obtain ⟨secondByte, extended, hbytes, hbit, hlen⟩ := readPayloadLen_lengthBytes hfits false
    (0x80 ||| (opcode &&& 0x0f)) (payload ++ tail)
  have hbytes' : lengthBytes 0 payload.length = secondByte :: extended := hbytes
  simp only [List.cons_append] at hlen
  simp only [wsFrame, hbytes', List.cons_append, List.append_assoc, nextFrame,
    List.getElem?_cons_zero, List.getElem?_cons_succ, hlen, hbit, readMaskKey,
    Option.bind_eq_bind, Option.bind_some, Bool.false_eq_true, if_false]
  rw [if_neg (by simp only [List.length_cons, List.length_append]; omega), drop_header,
    List.take_left, opcode_firstByte hopcode]
  have hconsumed : 2 + extended.length + payload.length = extended.length + payload.length + 2 := by
    omega
  simp [hconsumed]

theorem nextFrame_rawFrame {opcode : UInt8} {maskKey payload : List UInt8} (hopcode : opcode < 16)
    (hkey : maskKey.length = 4) (hfits : payload.length ≤ maxSafeInteger) (tail : List UInt8) :
    nextFrame (rawFrame maskKey opcode payload ++ tail)
      = some ((opcode, payload), (rawFrame maskKey opcode payload).length) := by
  obtain ⟨secondByte, extended, hbytes, hbit, hlen⟩ := readPayloadLen_lengthBytes hfits true
    (0x80 ||| (opcode &&& 0x0f)) (maskKey ++ (applyMask maskKey payload ++ tail))
  have hbytes' : lengthBytes 0x80 payload.length = secondByte :: extended := hbytes
  have hbody : ((0x80 ||| (opcode &&& 0x0f)) :: secondByte ::
      (extended ++ (maskKey ++ (applyMask maskKey payload ++ tail)))).drop
        (2 + extended.length + 4) = applyMask maskKey payload ++ tail := by
    rw [← List.drop_drop, drop_header, ← hkey, List.drop_left]
  have htake : (maskKey ++ (applyMask maskKey payload ++ tail)).take 4 = maskKey := by
    rw [← hkey, List.take_left]
  have hmasked : (applyMask maskKey payload ++ tail).take payload.length
      = applyMask maskKey payload := by
    rw [← length_applyMask maskKey payload, List.take_left]
  simp only [List.cons_append] at hlen
  simp only [rawFrame, hbytes', List.cons_append, List.append_assoc, nextFrame,
    List.getElem?_cons_zero, List.getElem?_cons_succ, hlen, hbit, readMaskKey,
    Option.bind_eq_bind, Option.bind_some, ↓reduceIte]
  -- neither the mask nor the payload is cut off, so the reader takes the whole frame
  rw [if_neg (by simp only [List.length_cons, List.length_append]; omega), drop_header, htake]
  simp only [Option.bind_some]
  rw [if_neg (by simp only [List.length_cons, List.length_append, length_applyMask]; omega), hbody,
    hmasked, applyMask_applyMask, opcode_firstByte hopcode]
  have hconsumed : 2 + extended.length + 4 + payload.length
      = extended.length + (4 + payload.length) + 2 := by omega
  simp [hkey, hconsumed]

/-- A frame is read back with its own opcode and payload, whatever follows it. -/
theorem nextFrame_layout (f : Frame) (tail : List UInt8) :
    nextFrame (f.layout ++ tail) = some ((f.opcode, f.payload), f.layout.length) := by
  have hfits : f.payload.length ≤ maxSafeInteger := by
    have := f.fits
    omega
  cases hkey : f.maskKey with
  | none =>
    simp only [Frame.layout, hkey]
    exact nextFrame_wsFrame f.opcode_lt hfits tail
  | some maskKey =>
    simp only [Frame.layout, hkey]
    exact nextFrame_rawFrame f.opcode_lt (f.maskKey_length maskKey hkey) hfits tail

/-! ### handleRawData -/

section HandleRawData

variable {β σ : Type} (byte : β → UInt8)

/-- `handleRawData(chunk)` on an object whose buffer holds bytes that may carry more than their
value: the chunk is appended and frames are cut off and processed until none is complete. `none`
when the loop is still running after `fuel` rounds. -/
def handleRawData (processFrame : UInt8 → List UInt8 → Buffered β σ → Buffered β σ) (fuel : Nat)
    (x : Buffered β σ) (chunk : List β) : Option (Buffered β σ) :=
  (frameReader.comap byte).receive (fun frame => processFrame frame.1 frame.2) fuel x chunk

/-- `processFrame` with a record of the pairs it was invoked with. -/
def recordingFrames (processFrame : UInt8 → List UInt8 → Buffered β σ → Buffered β σ)
    (opcode : UInt8) (payload : List UInt8) :
    Buffered β (σ × List (UInt8 × List UInt8)) → Buffered β (σ × List (UInt8 × List UInt8)) :=
  RecordReader.recording (fun frame => processFrame frame.1 frame.2) (opcode, payload)

/-- The frames whose bytes all lie within the first `n` bytes of the stream. -/
def completeFrames : List Frame → Nat → List Frame :=
  RecordReader.complete Frame.layout

/-- Framing is exact under any chunking. Of the frames whose bytes have arrived, in whatever chunks,
`processFrame` is invoked with exactly the complete ones, in order, the bytes after them stay in the
buffer, and every call returns; when all bytes have arrived, that is all frames and an empty
buffer. -/
theorem handleRawData_exact (processFrame : UInt8 → List UInt8 → Buffered β σ → Buffered β σ)
    (hkeeps : ∀ opcode payload x, opcode ≠ 0x08 → (processFrame opcode payload x).buffer = x.buffer)
    (frames : List Frame) (hopen : ∀ f ∈ frames, f.opcode ≠ 0x08) (chunks : List (List β))
    (hcut : chunks.flatten.map byte <+: frames.flatMap Frame.layout) (client : σ) :
    let arrived := completeFrames frames chunks.flatten.length
    (∃ client', ∀ fuel, chunks.flatten.length < fuel →
      chunks.foldlM (handleRawData byte (recordingFrames processFrame) fuel) ⟨[], client, []⟩
        = some ⟨chunks.flatten.drop (arrived.flatMap Frame.layout).length, client',
            arrived.map fun f => (f.opcode, f.payload)⟩) ∧
    (chunks.flatten.map byte = frames.flatMap Frame.layout →
      arrived = frames ∧ chunks.flatten.drop (arrived.flatMap Frame.layout).length = []) := by
  intro arrived
  have hlen : (chunks.flatten.map byte).length = chunks.flatten.length := List.length_map _
  constructor
  · have hbytes : frameReader.Cuts (chunks.flatten.map byte)
        ((completeFrames frames (chunks.flatten.map byte).length).map fun f => (f.opcode, f.payload))
        ((chunks.flatten.map byte).drop ((completeFrames frames
          (chunks.flatten.map byte).length).flatMap Frame.layout).length) :=
      RecordReader.cuts_complete (fun f _ tail => nextFrame_layout f tail) hcut
    obtain ⟨hcuts, -⟩ := hbytes.comap (f := byte) rfl
    have hshort : (arrived.flatMap Frame.layout).length ≤ chunks.flatten.length :=
      RecordReader.length_complete_le frames chunks.flatten.length
    simp only [hlen, List.length_drop] at hcuts
    rw [Nat.sub_sub_self hshort] at hcuts
    -- only a close frame empties the buffer, and there is none among the frames that arrived
    have hnotClose : ∀ frame ∈ arrived.map (fun f => (f.opcode, f.payload)), ∀ x : Buffered β σ,
        (processFrame frame.1 frame.2 x).buffer = x.buffer := by
      intro frame hframe x
      obtain ⟨f, hf, rfl⟩ := List.mem_map.mp hframe
      exact hkeeps f.opcode f.payload x (hopen f (RecordReader.mem_of_mem_complete hf))
    exact RecordReader.feed_of_cuts (R := frameReader.comap byte) (b := [])
      RecordReader.next_nil hcuts hnotClose client []
  · intro hall
    have harrived : arrived = frames := by
      have hcomplete : completeFrames frames (frames.flatMap Frame.layout).length = frames :=
        RecordReader.complete_all frames
      rwa [← hall, hlen] at hcomplete
    refine ⟨harrived, ?_⟩
    rw [harrived, ← hall, hlen, List.drop_length]

end HandleRawData

/-- A masked text frame with the two bytes of `Hi`. -/
def maskedGreeting : Frame where
  opcode := 0x01
  payload := [0x48, 0x69]
  maskKey := some [1, 2, 3, 4]
  opcode_lt := by decide
  maskKey_length := by simp
  fits := by decide

/-- An unmasked ping without payload. -/
def emptyPing : Frame where
  opcode := 0x09
  payload := []
  maskKey := none
  opcode_lt := by decide
  maskKey_length := by simp
  fits := by decide

/-- A `processFrame` that counts its calls and gives the connection up on a close frame. -/
def countFrames (opcode : UInt8) (_payload : List UInt8) (x : Buffered UInt8 Nat) :
    Buffered UInt8 Nat :=
  if opcode = 0x08 then ⟨[], x.fields⟩ else ⟨x.buffer, x.fields + 1⟩

/-- Two frames in three chunks: the first cut is inside the mask key, the second between the two
bytes of the ping, whose last byte has not arrived. -/
theorem handleRawData_exact_greeting :
    ∃ count, ∀ fuel, 9 < fuel →
      [[0x81, 0x82, 1, 2], [3, 4, 0x49], [0x6b, 0x89]].foldlM
          (handleRawData id (recordingFrames countFrames) fuel) ⟨[], 0, []⟩
        = some ⟨[0x89], count, [(0x01, [0x48, 0x69])]⟩ := by
  have hkeeps : ∀ (opcode : UInt8) (payload : List UInt8) (x : Buffered UInt8 Nat),
      opcode ≠ 0x08 → (countFrames opcode payload x).buffer = x.buffer := by
    intro opcode payload x h
    simp [countFrames, h]
  exact (handleRawData_exact id countFrames hkeeps [maskedGreeting, emptyPing] (by decide)
    [[0x81, 0x82, 1, 2], [3, 4, 0x49], [0x6b, 0x89]] (by decide) 0).1

end TorE2EE.Client
