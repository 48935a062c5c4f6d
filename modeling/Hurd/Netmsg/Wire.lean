import Mathlib.Algebra.Ring.Nat
import Mathlib.Data.List.Basic
import Mathlib.Data.List.Range
import Mathlib.Tactic.Common

/-!
# Messages on the network

A message is written to the network as the bytes of its buffer, followed by the out-of-line
memory of its items in turn.  Nothing says how long it is but the message itself: both ends go
through the items, reading the sizes out of their descriptors.

The layout is that of a 32-bit machine with the low byte first.  A message header is 24 bytes
long, with `msgh_size` at 4.  A descriptor is a word of bit-fields, the lowest of which is
`msgt_name`, and in the long form two more words.
-/

namespace Hurd.Netmsg

abbrev Byte := BitVec 8

/-- `machMessage::buffer`, with the memory behind it -/
abbrev Buffer := ℕ → Byte

/-- `sizeof (mach_msg_header_t)` -/
def headerBytes : ℕ := 24

/-- `machMessage::max_size` -/
def maxSize : ℕ := 4096

namespace Buffer

def half (buffer : Buffer) (position : ℕ) : ℕ :=
  (buffer position).toNat + 2 ^ 8 * (buffer (position + 1)).toNat

def word (buffer : Buffer) (position : ℕ) : ℕ :=
  buffer.half position + 2 ^ 16 * buffer.half (position + 2)

def msghSize (buffer : Buffer) : ℕ := buffer.word 4

/-- `msgt_inline` -/
def isInline (buffer : Buffer) (position : ℕ) : Bool :=
  decide (buffer.word position / 2 ^ 28 % 2 = 1)

/-- `msgt_longform` -/
def isLongform (buffer : Buffer) (position : ℕ) : Bool :=
  decide (buffer.word position / 2 ^ 29 % 2 = 1)

def headerSize (buffer : Buffer) (position : ℕ) : ℕ :=
  if buffer.isLongform position then 12 else 4

def nelems (buffer : Buffer) (position : ℕ) : ℕ :=
  if buffer.isLongform position then buffer.word (position + 8)
  else buffer.word position / 2 ^ 16 % 2 ^ 12

def elemsizeBits (buffer : Buffer) (position : ℕ) : ℕ :=
  if buffer.isLongform position then buffer.half (position + 6)
  else buffer.word position / 2 ^ 8 % 2 ^ 8

/-- `data_size`, in the arithmetic of `unsigned int` -/
def dataSize (buffer : Buffer) (position : ℕ) : ℕ :=
  let dataLength := (buffer.nelems position * buffer.elemsizeBits position + 7) % 2 ^ 32 / 8
  (dataLength + 4 - 1) % 2 ^ 32 / 4 * 4

/-- `OOLptr` -/
def oolPtr (buffer : Buffer) (position : ℕ) : ℕ := position + buffer.headerSize position

/-- `operator++` -/
def advance (buffer : Buffer) (position : ℕ) : ℕ :=
  position + (buffer.headerSize position +
    if buffer.isInline position then buffer.dataSize position else 4)

/-- The item is out of line and has data. -/
def hasOOLdata (buffer : Buffer) (position : ℕ) : Bool :=
  !buffer.isInline position && decide (0 < buffer.dataSize position)

/-- Some bytes are read into the buffer. -/
def fill (buffer : Buffer) (position : ℕ) (bytes : List Byte) : Buffer := fun index =>
  if position ≤ index ∧ index < position + bytes.length then bytes.getD (index - position) 0
  else buffer index

/-- A word is stored in the buffer. -/
def putWord (buffer : Buffer) (position value : ℕ) : Buffer := fun index =>
  if position ≤ index ∧ index < position + 4 then
    BitVec.ofNat 8 (value / 2 ^ (8 * (index - position)))
  else buffer index

/--
Where the iterator stands in turn.  Every item takes up four bytes at least, so that the size of
the message bounds the number of its items.
-/
def positions (buffer : Buffer) : ℕ → ℕ → List ℕ
  | 0, _ => []
  | fuel + 1, position =>
      if position < buffer.msghSize then
        position :: positions buffer fuel (buffer.advance position)
      else []

end Buffer

/-- A message in the sender's task. -/
structure Outgoing where
  buffer : Buffer
  memory : ℕ → Byte

namespace Outgoing

/-- So many bytes from where the pointer of an out-of-line item points to. -/
def data (message : Outgoing) (position size : ℕ) : List Byte :=
  (List.range size).map fun offset =>
    message.memory (message.buffer.word (message.buffer.oolPtr position) + offset)

def positions (message : Outgoing) : List ℕ :=
  message.buffer.positions message.buffer.msghSize headerBytes

def transmitOOLdata (message : Outgoing) : List Byte :=
  message.positions.flatMap fun position =>
    if message.buffer.hasOOLdata position then
      message.data position (message.buffer.dataSize position)
    else []

/-- What `ipcBufferHandler` writes to the network for a message. -/
def transmit (message : Outgoing) : List Byte :=
  (List.range message.buffer.msghSize).map message.buffer ++ message.transmitOOLdata

end Outgoing

/-- A new `machMessage`, with whatever its buffer holds, and where `vm_allocate` finds room. -/
structure Vacant where
  buffer : Buffer
  allocate : ℕ → ℕ

/--
A message as it has been received: the regions are those of its items, by their positions.
`machMessage::msg` points to the buffer, or to a region if it has strayed there.
-/
structure Incoming where
  buffer : Buffer
  regions : List (ℕ × List Byte) := []
  strayed : Option (List Byte) := none

/-- What `machMessage::msg` points to; `vm_allocate` gives whole pages of zeroes. -/
def Incoming.msg (incoming : Incoming) : Buffer :=
  match incoming.strayed with
  | none => incoming.buffer
  | some region => fun index => region.getD index 0

/-- `receiveOOLdata` for one item, with what is left of the stream -/
def Incoming.receiveItem (allocate : ℕ → ℕ) (message : Incoming) (position : ℕ)
    (stream : List Byte) : Incoming × List Byte :=
  if message.buffer.hasOOLdata position then
    let size := message.buffer.dataSize position
    let pointer := message.buffer.oolPtr position
    -- `vm_allocate` gives zeroes, which a stream that ends leaves where they are
    let region := stream.take size ++ List.replicate (size - stream.length) 0
    ({ buffer := message.buffer.putWord pointer (allocate position)
       regions := message.regions ++ [(position, region)]
       -- the member behind the buffer is `msg`
       strayed := if pointer = maxSize then some region else message.strayed }, stream.drop size)
  else (message, stream)

/-- The loop of `receiveOOLdata` -/
def receiveOOLdata (allocate : ℕ → ℕ) : ℕ → ℕ → Incoming → List Byte → Incoming × List Byte
  | 0, _, message, stream => (message, stream)
  | fuel + 1, position, message, stream =>
      if position < message.buffer.msghSize then
        let (next, rest) := message.receiveItem allocate position stream
        receiveOOLdata allocate fuel (next.buffer.advance position) next rest
      else (message, stream)

/-- `tcpHandler` for one message; `none` where the stream ends or the assert fails. -/
def tcpReceive (vacant : Vacant) (stream : List Byte) : Option (Incoming × List Byte) := do
  guard (headerBytes ≤ stream.length)
  let header := vacant.buffer.fill 0 (stream.take headerBytes)
  guard (header.msghSize ≤ maxSize)
  -- a smaller size makes the next count wrap around and the read overrun the buffer
  guard (headerBytes ≤ header.msghSize)
  let count := header.msghSize - headerBytes
  guard (count ≤ (stream.drop headerBytes).length)
  let message : Incoming :=
    { buffer := header.fill headerBytes ((stream.drop headerBytes).take count) }
  some (receiveOOLdata vacant.allocate message.buffer.msghSize headerBytes message
    ((stream.drop headerBytes).drop count))

/-- So many messages are received one after the other. -/
def tcpReceiveAll : List Vacant → List Byte → Option (List Incoming × List Byte)
  | [], stream => some ([], stream)
  | vacant :: rest, stream => do
      let (message, stream) ← tcpReceive vacant stream
      let (others, stream) ← tcpReceiveAll rest stream
      some (message :: others, stream)

end Hurd.Netmsg
