import Hurd.Netmsg.Decoding

/-!
# The words of the header

A handler changes three words of the header of a message: its types, its destination and its reply
port.  Each change is the change to the message that the bytes stand for, whose body stays as it is.
-/

namespace Hurd.Netmsg

namespace Outgoing

variable {message other : Outgoing} {position : ℕ}

/-- Two messages that differ in their headers only -/
structure SameBody (message other : Outgoing) : Prop where
  memory : other.memory = message.memory
  ahead : message.buffer.Ahead other.buffer headerBytes

theorem SameBody.refl (message : Outgoing) : message.SameBody message :=
  ⟨rfl, .refl message.buffer headerBytes⟩

theorem SameBody.trans {final : Outgoing} (first : message.SameBody other)
    (second : other.SameBody final) : message.SameBody final := by
  refine ⟨second.memory.trans first.memory, second.ahead.size.trans first.ahead.size, ?_⟩
  intro index isFrom
  rw [second.ahead.ahead index isFrom, first.ahead.ahead index isFrom]

/-- The buffers agree from any position of the body on. -/
theorem SameBody.aheadFrom (same : message.SameBody other) (inBody : headerBytes ≤ position) :
    message.buffer.Ahead other.buffer position :=
  ⟨same.ahead.size, fun index isFrom => same.ahead.ahead index (inBody.trans isFrom)⟩

/-- The items are in the same places. -/
theorem SameBody.positions (same : message.SameBody other) : other.positions = message.positions := by
  rw [Outgoing.positions, Outgoing.positions, same.ahead.size]
  refine Buffer.positions_congr same.ahead.size fun item itemMem index isFrom _ => ?_
  exact same.ahead.ahead index ((Buffer.positions_ge itemMem).trans isFrom)

/-- Their data are in the same places. -/
theorem SameBody.dataPtr (same : message.SameBody other) (inBody : headerBytes ≤ position) :
    other.dataPtr position = message.dataPtr position := by
  have ahead := same.aheadFrom inBody
  rw [Outgoing.dataPtr, Outgoing.dataPtr, ahead.pointer, ahead.sameItem.inline,
    ahead.sameItem.oolPtr]

/-- The items are the same. -/
theorem SameBody.item (same : message.SameBody other) (inBody : headerBytes ≤ position) :
    other.item position = message.item position := by
  have ahead := same.aheadFrom inBody
  have sameItem := ahead.sameItem
  have sameSlots : other.slots position = message.slots position := by
    rw [slots, slots, same.dataPtr inBody, sameItem.slots]
  rw [Outgoing.item, Outgoing.item, sameItem.name, sameItem.carriesPorts, sameSlots]
  congr 2
  apply List.map_congr_left
  intro slot slotMem
  rcases Buffer.mem_slots.mp slotMem with ⟨element, _, rfl⟩
  rw [bytesOf, bytesOf, sameItem.inline, same.memory]
  cases isInline : message.buffer.isInline position with
  | false => rfl
  | true =>
      have isPtr : message.dataPtr position = position + message.buffer.headerSize position := by
        simp [Outgoing.dataPtr, isInline, Buffer.oolPtr]
      have agree : message.buffer.Agree other.buffer (message.dataPtr position + 4 * element)
          (message.dataPtr position + 4 * element + 4) :=
        fun index isFrom _ => ahead.ahead index (by omega)
      exact congrArg (BitVec.ofNat 32) (agree.word le_rfl le_rfl)

/-- The messages that the bytes stand for have the same body. -/
theorem SameBody.body (same : message.SameBody other) :
    other.decode.body = message.decode.body := by
  change other.positions.map other.item = message.positions.map message.item
  rw [same.positions]
  exact List.map_congr_left fun position isItem => same.item (Buffer.positions_ge isItem)

/-- Items that do not overlap still do not. -/
theorem SameBody.neat (same : message.SameBody other) {all : List ℕ} (neat : message.Neat all) :
    other.Neat all := by
  have sameItem := fun {item} (itemMem : item ∈ all) =>
    (same.aheadFrom (neat.inBody item itemMem)).sameItem
  have samePtr := fun {item} (itemMem : item ∈ all) => same.dataPtr (neat.inBody item itemMem)
  refine ⟨neat.inBody, ?_, ?_, ?_⟩
  · intro first firstMem second secondMem different
    rw [(sameItem firstMem).advance, (sameItem secondMem).advance]
    exact neat.follow first firstMem second secondMem different
  · intro item itemMem
    rw [(sameItem itemMem).carriesPorts, (sameItem itemMem).dataSize, (sameItem itemMem).nelems]
    exact neat.sized item itemMem
  · intro first firstMem second secondMem different
    rw [(sameItem firstMem).hasOOLdata, (sameItem secondMem).hasOOLdata,
      (sameItem firstMem).dataSize, (sameItem secondMem).dataSize, samePtr firstMem,
      samePtr secondMem]
    exact neat.apart first firstMem second secondMem different

/-- A word of the header other than `msgh_size` is written. -/
theorem sameBody_putWord (message : Outgoing) {position : ℕ} (value : ℕ)
    (inHeader : position + 4 ≤ 4 ∨ 8 ≤ position ∧ position + 4 ≤ headerBytes) :
    message.SameBody { message with buffer := message.buffer.putWord position value } := by
  refine ⟨rfl, ?_, ?_⟩
  · exact word_putWord_other message.buffer value (by omega)
  · intro index isFrom
    exact putWord_of_le (by unfold headerBytes at inHeader isFrom; omega)

section Setters

variable (message : Outgoing) (bits : ℕ) (port : Port)

/-- `msgh_bits` is a word of the header. -/
theorem sameBody_setBits : message.SameBody (message.setBits bits) :=
  message.sameBody_putWord bits (.inl (by decide))

/-- `msgh_remote_port` is a word of the header. -/
theorem sameBody_setRemotePort : message.SameBody (message.setRemotePort port) :=
  message.sameBody_putWord port.toNat (.inr (by decide))

/-- `msgh_local_port` is a word of the header. -/
theorem sameBody_setLocalPort : message.SameBody (message.setLocalPort port) :=
  message.sameBody_putWord port.toNat (.inr (by decide))

/-- What is written to `msgh_bits` is read from it. -/
@[simp]
theorem msghBits_setBits : (message.setBits bits).msghBits = bits % 2 ^ 32 :=
  word_putWord message.buffer 0 bits

@[simp]
theorem msghRemotePort_setBits : (message.setBits bits).msghRemotePort = message.msghRemotePort :=
  congrArg (BitVec.ofNat 32) (word_putWord_other message.buffer bits (.inl (by decide)))

@[simp]
theorem msghLocalPort_setBits : (message.setBits bits).msghLocalPort = message.msghLocalPort :=
  congrArg (BitVec.ofNat 32) (word_putWord_other message.buffer bits (.inl (by decide)))

@[simp]
theorem msghId_setBits : (message.setBits bits).msghId = message.msghId :=
  word_putWord_other message.buffer bits (.inl (by decide))

@[simp]
theorem msghBits_setRemotePort : (message.setRemotePort port).msghBits = message.msghBits :=
  word_putWord_other message.buffer port.toNat (.inr (by decide))

/-- What is written to `msgh_remote_port` is read from it. -/
@[simp]
theorem msghRemotePort_setRemotePort : (message.setRemotePort port).msghRemotePort = port :=
  port_putPort message.buffer 8 port

@[simp]
theorem msghLocalPort_setRemotePort :
    (message.setRemotePort port).msghLocalPort = message.msghLocalPort :=
  port_putPort_other message.buffer port (.inl (by decide))

@[simp]
theorem msghId_setRemotePort : (message.setRemotePort port).msghId = message.msghId :=
  word_putWord_other message.buffer port.toNat (.inl (by decide))

@[simp]
theorem msghBits_setLocalPort : (message.setLocalPort port).msghBits = message.msghBits :=
  word_putWord_other message.buffer port.toNat (.inr (by decide))

@[simp]
theorem msghRemotePort_setLocalPort :
    (message.setLocalPort port).msghRemotePort = message.msghRemotePort :=
  port_putPort_other message.buffer port (.inr (by decide))

/-- What is written to `msgh_local_port` is read from it. -/
@[simp]
theorem msghLocalPort_setLocalPort : (message.setLocalPort port).msghLocalPort = port :=
  port_putPort message.buffer 12 port

@[simp]
theorem msghId_setLocalPort : (message.setLocalPort port).msghId = message.msghId :=
  word_putWord_other message.buffer port.toNat (.inl (by decide))

/-- The destination of the message is changed. -/
theorem decode_setLocalPort :
    (message.setLocalPort port).decode = { message.decode with localPort := port } := by
  have body := (message.sameBody_setLocalPort port).body
  simp only [decode] at body
  simp [decode, remoteTranslate, localBits, remoteBits, body]

/-- The reply port of the message is changed. -/
theorem decode_setRemotePort :
    (message.setRemotePort port).decode = { message.decode with remotePort := port } := by
  have body := (message.sameBody_setRemotePort port).body
  simp only [decode] at body
  simp [decode, remoteTranslate, localBits, remoteBits, body]

/-- The types of the message are changed, with the flag among them. -/
theorem decode_setBits : (message.setBits bits).decode = { message.decode with
    remoteTranslate := decide (bits % 2 ^ 32 / 2 ^ 26 % 2 = 1)
    localType := TypeName.ofBits (bits % 2 ^ 32 / 2 ^ 8 % 2 ^ 8)
    remoteType := TypeName.ofBits (bits % 2 ^ 32 % 2 ^ 8) } := by
  have body := (message.sameBody_setBits bits).body
  simp only [decode] at body
  simp only [decode, remoteTranslate, localBits, remoteBits, msghBits_setBits,
    msghRemotePort_setBits, msghLocalPort_setBits, msghId_setBits, body]

/-- Setting the bit leaves the types alone. -/
theorem decode_setRemoteTranslate :
    message.setRemoteTranslate.decode = { message.decode with remoteTranslate := true } := by
  have small := word_lt message.buffer 0
  rw [setRemoteTranslate]
  split_ifs with isSet
  · simp [decode, isSet]
  · have notSet : message.msghBits / 2 ^ 26 % 2 ≠ 1 := by simpa [remoteTranslate] using isSet
    rw [decode_setBits]
    have isBits : message.buffer.word 0 = message.msghBits := rfl
    have flag : (message.msghBits + 2 ^ 26) % 2 ^ 32 / 2 ^ 26 % 2 = 1 := by omega
    have isLocal : (message.msghBits + 2 ^ 26) % 2 ^ 32 / 2 ^ 8 % 2 ^ 8 = message.localBits := by
      rw [localBits]
      omega
    have isRemote : (message.msghBits + 2 ^ 26) % 2 ^ 32 % 2 ^ 8 = message.remoteBits := by
      rw [remoteBits]
      omega
    simp only [flag, isLocal, isRemote, decide_true]
    rfl

/-- Clearing the bit leaves the types alone. -/
theorem decode_clearRemoteTranslate :
    message.clearRemoteTranslate.decode = { message.decode with remoteTranslate := false } := by
  have small := word_lt message.buffer 0
  rw [clearRemoteTranslate]
  split_ifs with isSet
  · have isFlag : message.msghBits / 2 ^ 26 % 2 = 1 := by simpa [remoteTranslate] using isSet
    rw [decode_setBits]
    have isBits : message.buffer.word 0 = message.msghBits := rfl
    have flag : (message.msghBits - 2 ^ 26) % 2 ^ 32 / 2 ^ 26 % 2 ≠ 1 := by omega
    have isLocal : (message.msghBits - 2 ^ 26) % 2 ^ 32 / 2 ^ 8 % 2 ^ 8 = message.localBits := by
      rw [localBits]
      omega
    have isRemote : (message.msghBits - 2 ^ 26) % 2 ^ 32 % 2 ^ 8 = message.remoteBits := by
      rw [remoteBits]
      omega
    simp only [flag, isLocal, isRemote, decide_false]
    rfl
  · simp [decode, isSet]

end Setters

theorem sameBody_setRemoteTranslate (message : Outgoing) :
    message.SameBody message.setRemoteTranslate := by
  rw [setRemoteTranslate]
  split_ifs
  · exact .refl message
  · exact message.sameBody_setBits _

@[simp]
theorem msghId_setRemoteTranslate (message : Outgoing) :
    message.setRemoteTranslate.msghId = message.msghId := by
  rw [setRemoteTranslate]
  split_ifs <;> simp

theorem sameBody_clearRemoteTranslate (message : Outgoing) :
    message.SameBody message.clearRemoteTranslate := by
  rw [clearRemoteTranslate]
  split_ifs
  · exact message.sameBody_setBits _
  · exact .refl message

@[simp]
theorem msghId_clearRemoteTranslate (message : Outgoing) :
    message.clearRemoteTranslate.msghId = message.msghId := by
  rw [clearRemoteTranslate]
  split_ifs <;> simp

end Outgoing

end Hurd.Netmsg
