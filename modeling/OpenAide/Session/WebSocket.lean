import OpenAide.Library.Bytes
import OpenAide.Library.Fallible

/-!
# WebSocket messages

The server half of RFC 6455 (`protocol_edge/local_http/listener/websocket.rs`): a reader that puts
the fragments of a client's message together, with control frames in between, and the frames that
the server writes.  The opening handshake is left out.

The reader refuses a frame that is larger than the room that is left for the message, and it does so
before it looks at what kind of frame it is.  So a ping or a pong must fit beside what is buffered:

- `round_frame`: what the reader does with a frame, in whatever chunks it arrives;
- `read_of_round_none`: it reads on after a fragment, and every round takes bytes (`bytes_round`);
- `received_items`: **a client's frames are received as they were sent exactly if every control
  frame fits beside what is buffered** (`RoomForControls`);
- `decode_writeFrame`: what the server writes is one final frame.
-/

namespace OpenAide.WebSocket

open Library

/-! ## Frames -/

/-- The kinds of frames. -/
inductive Opcode where
  | continuation | text | binary | close | ping | pong
  deriving DecidableEq

def OPCODE_CONTINUATION : UInt8 := 0x0
def OPCODE_TEXT : UInt8 := 0x1
def OPCODE_BINARY : UInt8 := 0x2
def OPCODE_CLOSE : UInt8 := 0x8
def OPCODE_PING : UInt8 := 0x9
def OPCODE_PONG : UInt8 := 0xA
def MAX_CONTROL_PAYLOAD_BYTES : Nat := 125

def Opcode.byte : Opcode → UInt8
  | .continuation => OPCODE_CONTINUATION
  | .text => OPCODE_TEXT
  | .binary => OPCODE_BINARY
  | .close => OPCODE_CLOSE
  | .ping => OPCODE_PING
  | .pong => OPCODE_PONG

/-- `write_frame` (`websocket.rs:63`): the bytes it writes. -/
def writeFrame (opcode : Opcode) (payload : List UInt8) : List UInt8 :=
  let length := payload.length
  let lengthBytes :=
    if length ≤ 125 then [UInt8.ofNat length]
    else if length ≤ 0xFFFF then 126 :: toBigEndian 2 length
    else 127 :: toBigEndian 8 length
  (0x80 ||| opcode.byte) :: lengthBytes ++ payload

/-! ## The reader -/

inductive Incoming where
  | text (text : String)
  | binary (bytes : List UInt8)
  | ping (payload : List UInt8)
  | pong
  | close
  deriving DecidableEq

inductive ErrorKind where
  | unexpectedEof | invalidData
  deriving DecidableEq

structure IoError where
  kind : ErrorKind
  message : String
  deriving DecidableEq

def violation (reason : String) : IoError := ⟨.invalidData, reason⟩

def tooLarge : IoError := ⟨.invalidData, "message is too large"⟩

def endOfStream : IoError := ⟨.unexpectedEof, "failed to fill whole buffer"⟩

/-- `MessageReader` (`websocket.rs:83`); the socket is the chunks that are still to arrive. -/
structure MessageReader where
  chunks : List (List UInt8)
  maxMessageBytes : Nat
  partialMessage : Option (List UInt8) := none
  binary : Bool := false

/-- `payload` with the bytes of a mask on it; the mask is taken off in the same way. -/
def masked (mask payload : List UInt8) : List UInt8 :=
  payload.mapIdx fun index byte => byte ^^^ mask.getD (index % 4) 0

namespace MessageReader

def readExact (reader : MessageReader) (count : Nat) :
    Except IoError (List UInt8 × MessageReader) :=
  match Library.readExact count reader.chunks with
  | some (bytes, chunks) => .ok (bytes, { reader with chunks })
  | none => .error endOfStream

/-- `payload_length` (`websocket.rs:160`); a `usize` has 64 bits. -/
def payloadLength (reader : MessageReader) (short : UInt8) : Except IoError (Nat × MessageReader) :=
  if short = 126 then do
    let read ← reader.readExact 2
    return (ofBigEndian read.1, read.2)
  else if short = 127 then do
    let read ← reader.readExact 8
    return (ofBigEndian read.1, read.2)
  else .ok (short.toNat, reader)

/-- The bytes that are buffered of a message. -/
def buffered (reader : MessageReader) : List UInt8 := reader.partialMessage.getD []

/-- A fragment has been put to the message: the end of the loop (`websocket.rs:144-156`). -/
def finish (reader : MessageReader) (finished binary : Bool) (bytes : List UInt8) :
    Except IoError (Option Incoming × MessageReader) :=
  if finished then
    let reader := { reader with partialMessage := none, binary }
    if binary then .ok (some (.binary bytes), reader)
    else
      match String.fromUTF8? ⟨bytes.toArray⟩ with
      | some text => .ok (some (.text text), reader)
      | none => .error (violation "text is not UTF-8")
  else .ok (none, { reader with partialMessage := some bytes, binary })

/-- What is done with a payload (`websocket.rs:130-156`). -/
def dispatch (reader : MessageReader) (finished : Bool) (opcode : UInt8) (payload : List UInt8) :
    Except IoError (Option Incoming × MessageReader) :=
  if opcode = OPCODE_PING then .ok (some (.ping payload), reader)
  else if opcode = OPCODE_PONG then .ok (some .pong, reader)
  else if opcode = OPCODE_CLOSE then .ok (some .close, reader)
  else if (opcode = OPCODE_TEXT ∨ opcode = OPCODE_BINARY) ∧ reader.partialMessage.isNone then
    reader.finish finished (opcode = OPCODE_BINARY) payload
  else if opcode = OPCODE_CONTINUATION then
    match reader.partialMessage with
    | some message => reader.finish finished reader.binary (message ++ payload)
    | none => .error (violation "continuation without a message")
  else .error (violation "unsupported frame")

/-- One round of the loop of `read`: the reader goes on if nothing is returned. -/
def round (reader : MessageReader) : Except IoError (Option Incoming × MessageReader) := do
  let header ← reader.readExact 2
  let first := header.1.getD 0 0
  let second := header.1.getD 1 0
  let finished := first &&& 0x80 ≠ 0
  if first &&& 0x70 ≠ 0 then .error (violation "reserved bits are set")
  else if second &&& 0x80 = 0 then .error (violation "client frame is not masked")
  else
    let opcode := first &&& 0x0F
    let isControl := opcode &&& 0x8 ≠ 0
    let length ← header.2.payloadLength (second &&& 0x7F)
    if isControl ∧ (¬finished ∨ MAX_CONTROL_PAYLOAD_BYTES < length.1) then
      .error (violation "invalid control frame")
    else if reader.maxMessageBytes - reader.buffered.length < length.1 then .error tooLarge
    else
      let mask ← length.2.readExact 4
      let payload ← mask.2.readExact length.1
      payload.2.dispatch finished opcode (masked mask.1 payload.1)

/-- The bytes that are still to arrive. -/
def bytes (reader : MessageReader) : List UInt8 := reader.chunks.flatten

/-- At most `rounds` of the loop. -/
def readRounds : (rounds : Nat) → MessageReader → Except IoError (Incoming × MessageReader)
  | 0, _ => .error endOfStream
  | rounds + 1, reader => do
    let step ← reader.round
    match step.1 with
    | some incoming => .ok (incoming, step.2)
    | none => readRounds rounds step.2

/-- `read` (`websocket.rs:102`).  A round takes bytes, so after as many rounds as there are bytes
the stream has ended. -/
def read (reader : MessageReader) : Except IoError (Incoming × MessageReader) :=
  readRounds (reader.bytes.length + 1) reader

/-- The results of calling `read` a number of times, up to the first error. -/
def received : (count : Nat) → MessageReader → List (Except IoError Incoming)
  | 0, _ => []
  | count + 1, reader =>
    match reader.read with
    | .ok (incoming, reader) => .ok incoming :: received count reader
    | .error e => [.error e]

end MessageReader

/-! ## What a client sends -/

/-- How a length is written. -/
inductive LengthCode where
  | short | medium | long
  deriving DecidableEq

namespace LengthCode

/-- The lengths that can be written so. -/
def Fits : LengthCode → Nat → Prop
  | .short, length => length ≤ 125
  | .medium, length => length < 2 ^ 16
  | .long, length => length < 2 ^ 63

instance : (code : LengthCode) → (length : Nat) → Decidable (code.Fits length)
  | .short, _ | .medium, _ | .long, _ => Nat.decLe _ _

/-- The seven bits of the header. -/
def bits : LengthCode → Nat → Nat
  | .short, length => length
  | .medium, _ => 126
  | .long, _ => 127

/-- The bytes behind the header. -/
def extended : LengthCode → Nat → List UInt8
  | .short, _ => []
  | .medium, length => toBigEndian 2 length
  | .long, length => toBigEndian 8 length

end LengthCode

/-- A payload with its mask and a way to write its length. -/
structure Body where
  code : LengthCode
  mask : List UInt8
  payload : List UInt8
  masks : mask.length = 4
  fits : code.Fits payload.length

/-- The bytes of a client's frame. -/
def Body.encode (body : Body) (finished : Bool) (opcode : Opcode) : List UInt8 :=
  [(if finished then 0x80 else 0) ||| opcode.byte,
      0x80 ||| UInt8.ofNat (body.code.bits body.payload.length)] ++
    (body.code.extended body.payload.length ++ (body.mask ++ masked body.mask body.payload))

/-- A ping or a pong. -/
structure Control extends Body where
  isPing : Bool
  small : payload.length ≤ MAX_CONTROL_PAYLOAD_BYTES

def Control.opcode (control : Control) : Opcode := if control.isPing then .ping else .pong

/-- What `read` returns for it. -/
def Control.incoming (control : Control) : Incoming :=
  if control.isPing then .ping control.payload else .pong

/-- What comes before the last fragment of a message. -/
inductive Item where
  | control (control : Control)
  | fragment (body : Body)

namespace Item

/-- The control frames among the items. -/
def controls (items : List Item) : List Control :=
  items.filterMap fun
    | .control frame => some frame
    | .fragment _ => none

/-- The bytes of the fragments. -/
def fragments (items : List Item) : List UInt8 :=
  items.flatMap fun
    | .control _ => []
    | .fragment body => body.payload

/-- The bytes of the items and of the last fragment.  The first fragment says that the message is a
text, unless `started`. -/
def encode (last : Body) : (started : Bool) → List Item → List UInt8
  | started, [] => last.encode true (if started then .continuation else .text)
  | started, .control frame :: rest =>
    frame.encode true frame.opcode ++ encode last started rest
  | started, .fragment body :: rest =>
    body.encode false (if started then .continuation else .text) ++ encode last true rest

end Item

/-- **Every control frame fits beside what is buffered** when it arrives. -/
def RoomForControls (max : Nat) : (buffered : Nat) → List Item → Prop
  | _, [] => True
  | buffered, .control frame :: rest =>
    buffered + frame.payload.length ≤ max ∧ RoomForControls max buffered rest
  | buffered, .fragment body :: rest => RoomForControls max (buffered + body.payload.length) rest

/-! ## One frame -/

theorem masked_masked (mask payload : List UInt8) :
    masked mask (masked mask payload) = payload := by
  unfold masked
  rw [List.mapIdx_mapIdx]
  refine List.ext_getElem (by simp) fun index _ _ => ?_
  simp

@[simp] theorem length_masked (mask payload : List UInt8) :
    (masked mask payload).length = payload.length := List.length_mapIdx

theorem first_byte (finished : Bool) (opcode : Opcode) :
    let first := (if finished then 0x80 else 0) ||| opcode.byte
    (first &&& 0x80 ≠ 0 ↔ finished) ∧ first &&& 0x70 = 0 ∧ first &&& 0x0F = opcode.byte := by
  cases finished <;> cases opcode <;> decide

theorem second_byte {bits : Nat} (h : bits < 128) :
    ((0x80 : UInt8) ||| UInt8.ofNat bits) &&& 0x80 ≠ 0 ∧
      ((0x80 : UInt8) ||| UInt8.ofNat bits) &&& 0x7F = UInt8.ofNat bits := by
  have hall : ∀ bits : Fin 128, ((0x80 : UInt8) ||| UInt8.ofNat bits) &&& 0x80 ≠ 0 ∧
      ((0x80 : UInt8) ||| UInt8.ofNat bits) &&& 0x7F = UInt8.ofNat bits := by decide
  exact hall ⟨bits, h⟩

theorem LengthCode.bits_lt {code : LengthCode} {length : Nat} (h : code.Fits length) :
    code.bits length < 128 := by
  cases code with
  | short => exact Nat.lt_of_le_of_lt h (by decide)
  | medium => exact (by decide : 126 < 128)
  | long => exact (by decide : 127 < 128)

variable {payload : List UInt8}

namespace MessageReader

variable {reader : MessageReader} {rest : List UInt8}

theorem readExact_eq (reader : MessageReader) {bytes : List UInt8} {count : Nat}
    (hcount : bytes.length = count) (h : Delivers reader.chunks (bytes ++ rest)) :
    ∃ chunks, reader.readExact count = .ok (bytes, { reader with chunks }) ∧
    Delivers chunks rest := by
  obtain ⟨chunks, hread, hdelivers⟩ := readExact_delivers h
  refine ⟨chunks, ?_, hdelivers⟩
  rw [readExact, ← hcount, hread]

theorem payloadLength_eq (reader : MessageReader) {code : LengthCode} {length : Nat}
    (hfits : code.Fits length) (h : Delivers reader.chunks (code.extended length ++ rest)) :
    ∃ chunks, reader.payloadLength (UInt8.ofNat (code.bits length)) =
      .ok (length, { reader with chunks }) ∧ Delivers chunks rest := by
  cases code with
  | short =>
    have hle : length ≤ 125 := hfits
    have hvalue : (UInt8.ofNat length).toNat = length :=
      UInt8.toNat_ofNat_of_lt' (Nat.lt_of_le_of_lt hle (by decide))
    have hne : ∀ other : UInt8, 125 < other.toNat → UInt8.ofNat length ≠ other := by
      intro other hother heq
      rw [← heq, hvalue] at hother
      omega
    refine ⟨reader.chunks, ?_, h⟩
    show reader.payloadLength (UInt8.ofNat length) = _
    rw [payloadLength, if_neg (hne 126 (by decide)), if_neg (hne 127 (by decide)), hvalue]
  | medium =>
    obtain ⟨chunks, hread, hdelivers⟩ := readExact_eq reader (length_toBigEndian 2 length) h
    refine ⟨chunks, ?_, hdelivers⟩
    show reader.payloadLength 126 = _
    rw [payloadLength, if_pos rfl, hread]
    show Except.ok (ofBigEndian (toBigEndian 2 length), _) = _
    rw [ofBigEndian_toBigEndian (Nat.lt_of_lt_of_le hfits (by decide))]
  | long =>
    obtain ⟨chunks, hread, hdelivers⟩ := readExact_eq reader (length_toBigEndian 8 length) h
    refine ⟨chunks, ?_, hdelivers⟩
    show reader.payloadLength 127 = _
    rw [payloadLength, if_neg (by decide), if_pos rfl, hread]
    show Except.ok (ofBigEndian (toBigEndian 8 length), _) = _
    rw [ofBigEndian_toBigEndian (Nat.lt_of_lt_of_le hfits (by decide))]

/-- **What is done with a frame**, in whatever chunks it arrives: it is refused if it does not fit
beside what is buffered, and dispatched otherwise. -/
theorem round_frame {body : Body} {finished : Bool} {opcode : Opcode}
    (h : Delivers reader.chunks (body.encode finished opcode ++ rest))
    (hcontrol : opcode.byte &&& 0x8 ≠ 0 →
      finished ∧ body.payload.length ≤ MAX_CONTROL_PAYLOAD_BYTES) :
    if reader.maxMessageBytes - reader.buffered.length < body.payload.length then
      reader.round = .error tooLarge
    else ∃ chunks, Delivers chunks rest ∧
      reader.round = { reader with chunks }.dispatch finished opcode.byte body.payload := by
  obtain ⟨hfinished, hreserved, hopcode⟩ := first_byte finished opcode
  obtain ⟨hmasked, hbits⟩ := second_byte (LengthCode.bits_lt body.fits)
  rw [Body.encode, List.append_assoc] at h
  obtain ⟨chunks₁, hheader, h₁⟩ := readExact_eq reader rfl h
  change reader.readExact 2 = _ at hheader
  rw [List.append_assoc] at h₁
  obtain ⟨chunks₂, hlength, h₂⟩ := payloadLength_eq { reader with chunks := chunks₁ }
    body.fits h₁
  rw [List.append_assoc] at h₂
  obtain ⟨chunks₃, hmask, h₃⟩ := readExact_eq { reader with chunks := chunks₂ }
    body.masks h₂
  obtain ⟨chunks₄, hpayload, h₄⟩ := readExact_eq { reader with chunks := chunks₃ }
    (length_masked body.mask body.payload) h₃
  have hallowed : ¬(opcode.byte &&& 0x8 ≠ 0 ∧
      (¬finished ∨ MAX_CONTROL_PAYLOAD_BYTES < body.payload.length)) := by
    rintro ⟨hkind, hnot | hlong⟩
    · exact hnot (hcontrol hkind).1
    · exact absurd (hcontrol hkind).2 (Nat.not_le.mpr hlong)
  have hround : reader.round =
      if reader.maxMessageBytes - reader.buffered.length < body.payload.length then .error tooLarge
      else { reader with chunks := chunks₄ }.dispatch finished opcode.byte body.payload := by
    unfold round
    rw [hheader]
    simp only [bind, Except.bind, List.getD_cons_zero, List.getD_cons_succ]
    rw [if_neg (not_not.mpr hreserved), if_neg hmasked, hbits, hlength]
    simp only [hopcode, hfinished]
    rw [if_neg hallowed, hmask]
    simp only [hpayload, masked_masked, Bool.decide_eq_true]
  rw [hround]
  split
  · rfl
  · exact ⟨chunks₄, h₄, rfl⟩

/-! ## Reading on -/

theorem bytes_readExact {count : Nat} {read : List UInt8 × MessageReader}
    (h : reader.readExact count = .ok read) :
    read.2.bytes.length + count = reader.bytes.length := by
  unfold readExact at h
  split at h
  · rename_i taken chunks hread
    cases h
    obtain ⟨hlength, hflatten⟩ := flatten_readExact hread
    rw [bytes, bytes, hflatten, List.length_append, hlength, Nat.add_comm]
  · cases h

theorem bytes_payloadLength {short : UInt8} {length : Nat × MessageReader}
    (h : reader.payloadLength short = .ok length) :
    length.2.bytes.length ≤ reader.bytes.length := by
  unfold payloadLength at h
  split at h
  · obtain ⟨read, hread, heq⟩ := bind_eq_ok.mp h
    cases heq
    exact Nat.le.intro (bytes_readExact hread)
  · split at h
    · obtain ⟨read, hread, heq⟩ := bind_eq_ok.mp h
      cases heq
      exact Nat.le.intro (bytes_readExact hread)
    · cases h
      exact Nat.le_refl _

theorem bytes_dispatch {finished : Bool} {opcode : UInt8} {step : Option Incoming × MessageReader}
    (h : reader.dispatch finished opcode payload = .ok step) : step.2.bytes = reader.bytes := by
  have hfinish : ∀ {binary message}, reader.finish finished binary message = .ok step →
      step.2.bytes = reader.bytes := by
    intro binary message hstep
    unfold finish at hstep
    split at hstep
    · split at hstep
      · cases hstep
        rfl
      · split at hstep
        · cases hstep
          rfl
        · cases hstep
    · cases hstep
      rfl
  unfold dispatch at h
  repeat' split at h
  all_goals first | exact hfinish h | (cases h; rfl) | cases h

/-- **Every round takes bytes.** -/
theorem bytes_round {step : Option Incoming × MessageReader} (h : reader.round = .ok step) :
    step.2.bytes.length < reader.bytes.length := by
  obtain ⟨header, hheader, h⟩ := bind_eq_ok.mp h
  have hheaderBytes := bytes_readExact hheader
  dsimp only at h
  split at h
  · cases h
  · split at h
    · cases h
    · obtain ⟨length, hlength, h⟩ := bind_eq_ok.mp h
      have hlengthBytes := bytes_payloadLength hlength
      split at h
      · cases h
      · split at h
        · cases h
        · obtain ⟨mask, hmask, h⟩ := bind_eq_ok.mp h
          obtain ⟨payload, hpayload, h⟩ := bind_eq_ok.mp h
          have hmaskBytes := bytes_readExact hmask
          have hpayloadBytes := bytes_readExact hpayload
          rw [bytes_dispatch h]
          omega

theorem readRounds_congr {rounds others : Nat} (h : reader.bytes.length < rounds)
    (hothers : reader.bytes.length < others) :
    readRounds rounds reader = readRounds others reader := by
  induction rounds generalizing reader others with
  | zero => cases h
  | succ rounds ih =>
    obtain ⟨others, rfl⟩ := Nat.exists_eq_succ_of_ne_zero (Nat.ne_zero_of_lt hothers)
    rw [readRounds, readRounds]
    cases hround : reader.round with
    | error e => rfl
    | ok step =>
      obtain ⟨incoming, next⟩ := step
      have hless : next.bytes.length < reader.bytes.length := bytes_round hround
      cases incoming with
      | some incoming => rfl
      | none => exact @ih next others (by omega) (by omega)

variable {next : MessageReader}

theorem read_of_round_none (h : reader.round = .ok (none, next)) : reader.read = next.read := by
  have hless := bytes_round h
  rw [read, readRounds, h]
  exact readRounds_congr hless (Nat.lt_succ_self _)

theorem read_of_round_some {incoming : Incoming} (h : reader.round = .ok (some incoming, next)) :
    reader.read = .ok (incoming, next) := by
  rw [read, readRounds, h]
  rfl

theorem read_of_round_error {e : IoError} (h : reader.round = .error e) :
    reader.read = .error e := by
  rw [read, readRounds, h]
  rfl

theorem received_ok {incoming : Incoming} (count : Nat) (h : reader.read = .ok (incoming, next)) :
    reader.received (count + 1) = .ok incoming :: next.received count := by
  rw [received, h]

theorem received_error {e : IoError} (count : Nat) (h : reader.read = .error e) :
    reader.received (count + 1) = [.error e] := by
  rw [received, h]

theorem received_congr (count : Nat) (h : reader.read = next.read) :
    reader.received (count + 1) = next.received (count + 1) := by
  rw [received, received, h]

/-! ## A message -/

theorem read_control {control : Control}
    (h : Delivers reader.chunks (control.encode true control.opcode ++ rest))
    (hfits : reader.buffered.length + control.payload.length ≤ reader.maxMessageBytes) :
    ∃ chunks, Delivers chunks rest ∧
    reader.read = .ok (control.incoming, { reader with chunks }) := by
  have hround := round_frame h fun _ => ⟨rfl, control.small⟩
  rw [if_neg (by omega)] at hround
  obtain ⟨chunks, hdelivers, hround⟩ := hround
  refine ⟨chunks, hdelivers, read_of_round_some (hround.trans ?_)⟩
  unfold Control.opcode Control.incoming
  cases control.isPing <;> rfl

theorem read_control_refused {control : Control}
    (h : Delivers reader.chunks (control.encode true control.opcode ++ rest))
    (hfits : reader.buffered.length ≤ reader.maxMessageBytes)
    (hfull : reader.maxMessageBytes < reader.buffered.length + control.payload.length) :
    reader.read = .error tooLarge := by
  have hround := round_frame h fun _ => ⟨rfl, control.small⟩
  rw [if_pos (by omega)] at hround
  exact read_of_round_error hround

/-- The frame of a fragment: the first one says that the message is a text. -/
def fragmentOpcode (reader : MessageReader) : Opcode :=
  if reader.partialMessage.isSome then .continuation else .text

theorem round_fragment (body : Body) (finished : Bool)
    (h : Delivers reader.chunks (body.encode finished reader.fragmentOpcode ++ rest))
    (htext : reader.partialMessage.isSome → reader.binary = false)
    (hfits : reader.buffered.length + body.payload.length ≤ reader.maxMessageBytes) :
    ∃ chunks, Delivers chunks rest ∧ reader.round =
      { reader with chunks }.finish finished false (reader.buffered ++ body.payload) := by
  have hdata : ¬(reader.fragmentOpcode.byte &&& 0x8 ≠ 0) := by
    unfold fragmentOpcode
    split <;> decide
  have hround := round_frame h fun hcontrol => absurd hcontrol hdata
  rw [if_neg (by omega)] at hround
  obtain ⟨chunks, hdelivers, hround⟩ := hround
  refine ⟨chunks, hdelivers, hround.trans ?_⟩
  obtain ⟨_, max, message, binary⟩ := reader
  cases message with
  | none => rfl
  | some message =>
    obtain rfl : binary = false := htext rfl
    rfl

/-- **A message with control frames in between.**  It is received as it was sent exactly if every
control frame fits beside what is buffered.  The induction is on what comes before the last
fragment. -/
theorem received_items (reader : MessageReader) {last : Body} {items : List Item} {message : String}
    (h : Delivers reader.chunks (Item.encode last reader.partialMessage.isSome items ++ rest))
    (htext : reader.partialMessage.isSome → reader.binary = false)
    (hmessage : reader.buffered ++ (Item.fragments items ++ last.payload) =
      message.toUTF8.data.toList)
    (hsize : message.toUTF8.data.toList.length ≤ reader.maxMessageBytes) :
    reader.received ((Item.controls items).length + 1) =
        (Item.controls items).map (fun control => .ok control.incoming) ++ [.ok (.text message)] ↔
      RoomForControls reader.maxMessageBytes reader.buffered.length items := by
  have hlength := congrArg List.length hmessage
  rw [List.length_append, List.length_append] at hlength
  induction items generalizing reader with
  | nil =>
    obtain ⟨chunks, -, hround⟩ := round_fragment last true h htext (by omega)
    have hwhole : reader.buffered ++ last.payload = message.toUTF8.data.toList := hmessage
    have hread : reader.read = .ok (.text message, { reader with
        chunks, partialMessage := none, binary := false }) := by
      refine read_of_round_some (hround.trans ?_)
      unfold finish
      rw [if_pos rfl, hwhole, Array.toArray_toList]
      dsimp only
      rw [if_neg Bool.false_ne_true]
      have hvalid : String.fromUTF8? ⟨message.toUTF8.data⟩ = some message :=
        fromUTF8?_toUTF8 message
      rw [hvalid]
    exact iff_of_true (received_ok 0 hread) trivial
  | cons item items ih =>
    cases item with
    | control control =>
      rw [Item.encode, List.append_assoc] at h
      have hcontrols : Item.controls (.control control :: items) =
        control :: Item.controls items := rfl
      by_cases hfits : reader.buffered.length + control.payload.length ≤ reader.maxMessageBytes
      · obtain ⟨chunks, hdelivers, hread⟩ := read_control h hfits
        have hrest := @ih { reader with chunks } hdelivers htext hmessage hsize hlength
        rw [hcontrols, List.length_cons, received_ok _ hread, List.map_cons, List.cons_append,
          List.cons_inj_right, RoomForControls]
        exact hrest.trans (and_iff_right hfits).symm
      · have hread := read_control_refused h (by omega) (by omega)
        rw [hcontrols, List.length_cons, received_error _ hread]
        refine iff_of_false ?_ fun hroom => hfits hroom.1
        simp
    | fragment body =>
      rw [Item.encode, List.append_assoc] at h
      have hfragments : Item.fragments (.fragment body :: items) =
        body.payload ++ Item.fragments items := rfl
      rw [hfragments, List.length_append] at hlength
      obtain ⟨chunks, hdelivers, hround⟩ := round_fragment body false h htext
        (by omega)
      have hread := read_of_round_none hround
      rw [hfragments, List.append_assoc, ← List.append_assoc] at hmessage
      have hrest := @ih { reader with
          chunks, partialMessage := some (reader.buffered ++ body.payload), binary := false }
        hdelivers (fun _ => rfl) hmessage hsize (by
          show (reader.buffered ++ body.payload).length + _ = _
          rw [List.length_append]
          omega)
      rw [received_congr _ hread]
      refine Iff.trans hrest ?_
      show RoomForControls _ (reader.buffered ++ body.payload).length items ↔ _
      rw [List.length_append, RoomForControls]

end MessageReader

/-! ## What the server writes -/

/-- A frame as RFC 6455 defines it (section 5.2). -/
structure RfcFrame where
  final : Bool
  reserved : Nat
  opcode : Nat
  maskingKey : Option (List UInt8)
  payload : List UInt8
  deriving DecidableEq

/-- The number that follows the header, and what follows it. -/
def takeNumber (width : Nat) (bytes : List UInt8) : Option (Nat × List UInt8) :=
  if bytes.length < width then none else some (ofBigEndian (bytes.take width), bytes.drop width)

/-- The length of a payload (RFC 6455, section 5.2): it is written with as few bytes as possible,
and a number of eight bytes begins with a zero bit. -/
def decodeLength (bits : Nat) (bytes : List UInt8) : Option (Nat × List UInt8) :=
  if bits ≤ 125 then some (bits, bytes)
  else if bits = 126 then (takeNumber 2 bytes).filter fun number => 125 < number.1
  else (takeNumber 8 bytes).filter fun number => 2 ^ 16 ≤ number.1 ∧ number.1 < 2 ^ 63

/-- The first frame of a stream, and what follows it. -/
def decodeFrame : List UInt8 → Option (RfcFrame × List UInt8)
  | first :: second :: bytes => do
    let length ← decodeLength (second.toNat % 128) bytes
    let maskLength := if 128 ≤ second.toNat then 4 else 0
    if length.2.length < maskLength + length.1 then none
    else
      let key := length.2.take maskLength
      let payload := (length.2.drop maskLength).take length.1
      return (
        { final := 128 ≤ first.toNat
          reserved := first.toNat / 16 % 8
          opcode := first.toNat % 16
          maskingKey := if 128 ≤ second.toNat then some key else none
          payload := if 128 ≤ second.toNat then masked key payload else payload },
        length.2.drop (maskLength + length.1))
  | _ => none

theorem takeNumber_toBigEndian (width : Nat) {n : Nat} (h : n < 256 ^ width) (rest : List UInt8) :
    takeNumber width (toBigEndian width n ++ rest) = some (n, rest) := by
  have hlength := length_toBigEndian width n
  have hlong : ¬(toBigEndian width n ++ rest).length < width := by
    rw [List.length_append, hlength]
    omega
  rw [takeNumber, if_neg hlong, List.take_left' hlength, List.drop_left' hlength,
    ofBigEndian_toBigEndian h]

theorem decodeFrame_unmasked {first : UInt8} (second : UInt8) (more : List UInt8)
    (hsecond : second.toNat < 128)
    (h : decodeLength second.toNat (more ++ payload) = some (payload.length, payload)) :
    decodeFrame (first :: second :: (more ++ payload)) =
      some (⟨128 ≤ first.toNat, first.toNat / 16 % 8, first.toNat % 16, none, payload⟩, []) := by
  have hunmasked : ¬128 ≤ second.toNat := Nat.not_le.mpr hsecond
  rw [decodeFrame, Nat.mod_eq_of_lt hsecond, h]
  simp [hunmasked]

/-- **What the server writes** is one final frame with the payload, and not masked. -/
theorem decode_writeFrame (opcode : Opcode) (h : payload.length < 2 ^ 63) :
    decodeFrame (writeFrame opcode payload) =
      some (⟨true, 0, opcode.byte.toNat, none, payload⟩, []) := by
  have hfirst : decide (128 ≤ ((0x80 : UInt8) ||| opcode.byte).toNat) = true ∧
      ((0x80 : UInt8) ||| opcode.byte).toNat / 16 % 8 = 0 ∧
      ((0x80 : UInt8) ||| opcode.byte).toNat % 16 = opcode.byte.toNat := by
    cases opcode <;> decide
  rw [← hfirst.1, ← hfirst.2.1, ← hfirst.2.2]
  unfold writeFrame
  dsimp only
  split
  · rename_i hshort
    have hvalue : (UInt8.ofNat payload.length).toNat = payload.length :=
      UInt8.toNat_ofNat_of_lt' (Nat.lt_of_le_of_lt hshort (by decide))
    refine decodeFrame_unmasked _ [] (by omega) ?_
    rw [decodeLength, hvalue, if_pos hshort, List.nil_append]
  · split
    · rename_i hlong hmedium
      have hnumber := takeNumber_toBigEndian 2 (Nat.lt_of_le_of_lt hmedium (by decide))
        payload
      refine decodeFrame_unmasked 126 _ (by decide) ?_
      rw [decodeLength, if_neg (by decide), if_pos (by decide), hnumber]
      exact Option.filter_eq_some_iff.mpr ⟨rfl, decide_eq_true (Nat.lt_of_not_le hlong)⟩
    · rename_i hlong
      have hnumber := takeNumber_toBigEndian 8 (Nat.lt_of_lt_of_le h (by decide)) payload
      refine decodeFrame_unmasked 127 _ (by decide) ?_
      rw [decodeLength, if_neg (by decide), if_neg (by decide), hnumber]
      exact Option.filter_eq_some_iff.mpr ⟨rfl, decide_eq_true ⟨Nat.lt_of_not_le hlong, h⟩⟩

/-- **Reassembly.**  A text message is received as it was sent, with the pings and pongs before it,
exactly if every control frame fits beside what is buffered of the message when it arrives.  This
holds for all fragments, masks, ways to write the lengths and chunks of the stream, and whatever
follows on it.  What the server writes is one final frame with its payload. -/
theorem message_received_iff (message : String) (maxMessageBytes : Nat)
    (hsize : message.toUTF8.data.toList.length ≤ maxMessageBytes) (items : List Item) (last : Body)
    (hmessage : Item.fragments items ++ last.payload = message.toUTF8.data.toList)
    (chunks : List (List UInt8)) (rest : List UInt8)
    (h : Delivers chunks (Item.encode last false items ++ rest)) :
    (MessageReader.received ((Item.controls items).length + 1) { chunks, maxMessageBytes } =
        (Item.controls items).map (fun control => .ok control.incoming) ++ [.ok (.text message)] ↔
      RoomForControls maxMessageBytes 0 items) ∧
      ∀ (opcode : Opcode) (payload : List UInt8), payload.length < 2 ^ 63 →
        decodeFrame (writeFrame opcode payload) =
          some (⟨true, 0, opcode.byte.toNat, none, payload⟩, []) := by
  refine ⟨?_, fun opcode payload hpayload => decode_writeFrame opcode hpayload⟩
  exact MessageReader.received_items { chunks, maxMessageBytes } h nofun hmessage hsize

namespace Example

/-- A payload with a mask that does nothing. -/
def body (payload : List UInt8) (h : payload.length ≤ 125) : Body where
  code := .short
  mask := [0, 0, 0, 0]
  payload
  masks := rfl
  fits := h

def ping : Control := { body [1] (by decide) with isPing := true, small := by decide }

/-- The whole text, a ping, and an empty last fragment. -/
def items : List Item := [.fragment (body [97, 98] (by decide)), .control ping]

def last : Body := body [] (by decide)

/-- With a maximum of three bytes there is room for the ping. -/
theorem message_received_with_ping :
    MessageReader.received 2 { chunks := [Item.encode last false items], maxMessageBytes := 3 } =
      [.ok (.ping [1]), .ok (.text "ab")] := by
  have hroom : RoomForControls 3 0 items := ⟨by decide, trivial⟩
  exact (message_received_iff "ab" 3 (by decide) items last (by decide)
    [Item.encode last false items] [] ⟨by simp, by decide⟩).1.mpr hroom

/-- With a maximum of two bytes the text is as large as it may be, and the ping is refused. -/
theorem ping_refused :
    "ab".toUTF8.data.toList.length ≤ 2 ∧
      Item.fragments items ++ last.payload = "ab".toUTF8.data.toList ∧
      MessageReader.received 2 { chunks := [Item.encode last false items], maxMessageBytes := 2 } =
        [.error tooLarge] := by
  decide +kernel

end Example

end OpenAide.WebSocket
