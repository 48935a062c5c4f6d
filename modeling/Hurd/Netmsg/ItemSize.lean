import Hurd.Netmsg.Framing

/-!
# The size of an item

`data_size` is what an out-of-line region is copied, written to the network and received by, and
how far `operator++` steps over inline data.  It is the padded size of the item exactly as long as
the number of its bits can be counted in an `unsigned int`.
-/

namespace Hurd.Netmsg

namespace Outgoing

/-- `copyOOLdata` for one item, with where `vm_allocate` finds room -/
def copyItem (allocate : ℕ → ℕ) (message : Outgoing) (position : ℕ) : Outgoing :=
  if message.buffer.hasOOLdata position then
    let source := message.buffer.word (message.buffer.oolPtr position)
    let newLocation := allocate position
    { buffer := message.buffer.putWord (message.buffer.oolPtr position) newLocation
      memory := fun address =>
        if newLocation ≤ address ∧ address < newLocation + message.buffer.dataSize position then
          message.memory (source + (address - newLocation))
        else message.memory address }
  else message

def copyOOLdata (allocate : ℕ → ℕ) (message : Outgoing) : Outgoing :=
  message.positions.foldl (copyItem allocate) message

/-- The item at a position is moved as a whole, and the iterator steps over it. -/
structure MovesWhole (message : Outgoing) (position : ℕ) : Prop where
  size : message.buffer.dataSize position = message.buffer.paddedSize position
  transmitted : message.buffer.isInline position = false →
    message.oolBytes position = message.data position (message.buffer.paddedSize position)
  copied : message.buffer.isInline position = false → ∀ (allocate : ℕ → ℕ) (offset : ℕ),
    offset < message.buffer.paddedSize position →
      (message.copyItem allocate position).memory (allocate position + offset) =
        message.memory (message.buffer.word (message.buffer.oolPtr position) + offset)
  received : message.buffer.isInline position = false →
    ∀ (allocate : ℕ → ℕ) (incoming : Incoming) (stream : List Byte),
      incoming.buffer = message.buffer → message.buffer.paddedSize position ≤ stream.length →
        (incoming.receiveItem allocate position stream).2 =
            stream.drop (message.buffer.paddedSize position) ∧
          (0 < message.buffer.paddedSize position →
            (incoming.receiveItem allocate position stream).1.regions = incoming.regions ++
              [(position, stream.take (message.buffer.paddedSize position))])
  steps : message.buffer.advance position = position + (message.buffer.headerSize position +
    if message.buffer.isInline position then message.buffer.paddedSize position else 4)

variable {message : Outgoing} {position : ℕ}

/-- An item without data is passed over, and has nothing to move. -/
theorem oolBytes_eq_data (outOfLine : message.buffer.isInline position = false) :
    message.oolBytes position = message.data position (message.buffer.dataSize position) := by
  unfold oolBytes
  split_ifs with has
  · rfl
  · have isEmpty : message.buffer.dataSize position = 0 := by
      simpa [Buffer.hasOOLdata, outOfLine] using has
    simp [isEmpty, data]

theorem memory_copyItem (outOfLine : message.buffer.isInline position = false)
    (allocate : ℕ → ℕ) {offset : ℕ} (inside : offset < message.buffer.dataSize position) :
    (message.copyItem allocate position).memory (allocate position + offset) =
      message.memory (message.buffer.word (message.buffer.oolPtr position) + offset) := by
  have has : message.buffer.hasOOLdata position = true := by
    have isPos : 0 < message.buffer.dataSize position := by omega
    simp [Buffer.hasOOLdata, outOfLine, isPos]
  simp [copyItem, has, inside]

/-- As much is taken off the stream as `data_size` says, and fills the region. -/
theorem receiveItem_of_outOfLine {allocate : ℕ → ℕ} {incoming : Incoming} {stream : List Byte}
    (outOfLine : incoming.buffer.isInline position = false)
    (enough : incoming.buffer.dataSize position ≤ stream.length) :
    (incoming.receiveItem allocate position stream).2 =
        stream.drop (incoming.buffer.dataSize position) ∧
      (0 < incoming.buffer.dataSize position →
        (incoming.receiveItem allocate position stream).1.regions = incoming.regions ++
          [(position, stream.take (incoming.buffer.dataSize position))]) := by
  unfold Incoming.receiveItem
  by_cases isPos : 0 < incoming.buffer.dataSize position
  · have has : incoming.buffer.hasOOLdata position = true := by
      simp [Buffer.hasOOLdata, outOfLine, isPos]
    have filled : incoming.buffer.dataSize position - stream.length = 0 := by omega
    simp [has, filled]
  · have isEmpty : incoming.buffer.dataSize position = 0 := by omega
    simp [Buffer.hasOOLdata, isEmpty]

/-- An item is moved as a whole if and only if its bits can be counted. -/
theorem movesWhole_iff (message : Outgoing) (position : ℕ) :
    message.MovesWhole position ↔
      message.buffer.nelems position * message.buffer.elemsizeBits position + 7 < 2 ^ 32 := by
  constructor
  · intro moves
    by_contra uncountable
    have smaller := Buffer.dataSize_lt_of_not_countable uncountable
    have same := moves.size
    omega
  · intro countable
    have same : message.buffer.dataSize position = message.buffer.paddedSize position :=
      Buffer.dataSize_of_countable countable
    refine ⟨same, ?_, ?_, ?_, ?_⟩
    · intro outOfLine
      rw [oolBytes_eq_data outOfLine, same]
    · intro outOfLine allocate offset inside
      rw [← same] at inside
      exact memory_copyItem outOfLine allocate inside
    · intro outOfLine allocate incoming stream sameBuffer enough
      rw [← sameBuffer] at outOfLine
      rw [← same, ← sameBuffer] at enough ⊢
      exact receiveItem_of_outOfLine outOfLine enough
    · rw [Buffer.advance, same]

/-- The region of 2 ^ 29 bytes is given the size zero. -/
theorem huge_region_not_movesWhole :
    (single 0x20 0).buffer.paddedSize 24 = 2 ^ 29 ∧ (single 0x20 0).buffer.dataSize 24 = 0 ∧
      ¬(single 0x20 0).MovesWhole 24 := by
  have padded : (single 0x20 0).buffer.paddedSize 24 = 2 ^ 29 := by decide
  have none : (single 0x20 0).buffer.dataSize 24 = 0 := by decide
  refine ⟨padded, none, fun moves => ?_⟩
  have same := moves.size
  omega

end Outgoing

end Hurd.Netmsg
