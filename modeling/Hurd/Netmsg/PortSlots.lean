import Hurd.Netmsg.Framing

/-!
# Where the ports of a message are

The elements of an item that carries ports are four bytes each, in the message itself or in the
out-of-line region of the item.  A message that has been received has a region for every item with
out-of-line data, as large as the descriptor says, and the pointer to it behind the descriptor.
-/

namespace Hurd.Netmsg

/-- `MACH_MSG_TYPE_PORT_NAME` -/
def msgTypePortName : ℕ := 15

/-- `MACH_MSG_TYPE_MOVE_RECEIVE`, the first of the six types of rights -/
def msgTypeMoveReceive : ℕ := 16

/-- `MACH_MSG_TYPE_MOVE_SEND` -/
def msgTypeMoveSend : ℕ := 17

/-- `MACH_MSG_TYPE_MAKE_SEND_ONCE`, the last of the six types of rights -/
def msgTypeMakeSendOnce : ℕ := 21

namespace Buffer

/-- `name` -/
def name (buffer : Buffer) (position : ℕ) : ℕ :=
  if buffer.isLongform position then buffer.half (position + 4) else buffer.word position % 2 ^ 8

/-- `translateMessage` rewrites the elements of the item. -/
def carriesPorts (buffer : Buffer) (translatePortNames : Bool) (position : ℕ) : Bool :=
  if buffer.name position = msgTypePortName then translatePortNames
  else decide (msgTypeMoveReceive ≤ buffer.name position ∧
    buffer.name position ≤ msgTypeMakeSendOnce)

/-- `& ports[i]` for the elements of an item, from where `ports` points to -/
def slots (buffer : Buffer) (position first : ℕ) : List ℕ :=
  (List.range (buffer.nelems position)).map fun element => first + 4 * element

/-- Two buffers agree from a position on, and on the size of the message. -/
structure Ahead (buffer other : Buffer) (position : ℕ) : Prop where
  size : other.msghSize = buffer.msghSize
  ahead : ∀ index, position ≤ index → other index = buffer index

theorem Ahead.refl (buffer : Buffer) (position : ℕ) : buffer.Ahead buffer position :=
  ⟨rfl, fun _ _ => rfl⟩

/-- What the iterator reads at a position is the same in two buffers. -/
structure SameItem (buffer other : Buffer) (position : ℕ) : Prop where
  headerSize : other.headerSize position = buffer.headerSize position
  inline : other.isInline position = buffer.isInline position
  name : other.name position = buffer.name position
  nelems : other.nelems position = buffer.nelems position
  dataSize : other.dataSize position = buffer.dataSize position

variable {buffer other : Buffer} {position : ℕ}

/-- The iterator reads the same where the descriptors agree. -/
theorem Agree.sameItem
    (agree : buffer.Agree other position (position + buffer.headerSize position)) :
    buffer.SameItem other position := by
  have atLeast := buffer.headerSize_le position
  have sameWord := agree.word le_rfl (by omega)
  have sameForm : other.isLongform position = buffer.isLongform position := by
    rw [isLongform, isLongform, sameWord]
  rcases agree.descriptor le_rfl le_rfl with ⟨sameHeader, sameInline, sameSize⟩
  refine ⟨sameHeader, sameInline, ?_, ?_, sameSize⟩
  · rw [name, name, sameForm, sameWord]
    cases isLong : buffer.isLongform position with
    | false => rfl
    | true =>
        have isTwelve : buffer.headerSize position = 12 := by simp [headerSize, isLong]
        rw [agree.half (by omega) (by omega)]
  · rw [nelems, nelems, sameForm, sameWord]
    cases isLong : buffer.isLongform position with
    | false => rfl
    | true =>
        have isTwelve : buffer.headerSize position = 12 := by simp [headerSize, isLong]
        rw [agree.word (by omega) (by omega)]

theorem SameItem.carriesPorts (same : buffer.SameItem other position) (translatePortNames : Bool) :
    other.carriesPorts translatePortNames position =
      buffer.carriesPorts translatePortNames position := by
  rw [Buffer.carriesPorts, Buffer.carriesPorts, same.name]

theorem SameItem.oolPtr (same : buffer.SameItem other position) :
    other.oolPtr position = buffer.oolPtr position := by
  rw [Buffer.oolPtr, Buffer.oolPtr, same.headerSize]

theorem SameItem.advance (same : buffer.SameItem other position) :
    other.advance position = buffer.advance position := by
  rw [Buffer.advance, Buffer.advance, same.headerSize, same.inline, same.dataSize]

theorem SameItem.slots (same : buffer.SameItem other position) (first : ℕ) :
    other.slots position first = buffer.slots position first := by
  rw [Buffer.slots, Buffer.slots, same.nelems]

/-- An item that has not been reached is what it was. -/
theorem Ahead.sameItem (ahead : buffer.Ahead other position) : buffer.SameItem other position :=
  Agree.sameItem fun index isFrom _ => ahead.ahead index isFrom

/-- The pointer of an item out of line that has not been reached is what it was. -/
theorem Ahead.pointer (ahead : buffer.Ahead other position) :
    other.word (other.oolPtr position) = buffer.word (buffer.oolPtr position) := by
  have header := buffer.headerSize_le position
  have isPtr : buffer.oolPtr position = position + buffer.headerSize position := rfl
  have agree : buffer.Agree other position (buffer.oolPtr position + 4) :=
    fun index isFrom _ => ahead.ahead index isFrom
  rw [ahead.sameItem.oolPtr]
  exact agree.word (by omega) le_rfl

theorem mem_slots {first slot : ℕ} :
    slot ∈ buffer.slots position first ↔
      ∃ element < buffer.nelems position, slot = first + 4 * element := by
  simp only [Buffer.slots, List.mem_map, List.mem_range]
  constructor
  · rintro ⟨element, isElement, rfl⟩
    exact ⟨element, isElement, rfl⟩
  · rintro ⟨element, isElement, rfl⟩
    exact ⟨element, isElement, rfl⟩

end Buffer

section Receive

/-- What has been stored is there. -/
theorem word_putWord (buffer : Buffer) (position value : ℕ) :
    (buffer.putWord position value).word position = value % 2 ^ 32 := by
  have third : position ≤ position + 2 + 1 ∧ position + 2 + 1 - position = 3 := by omega
  simp only [Buffer.word, Buffer.half, Buffer.putWord]
  simp [third]
  omega

/-- Writing a word leaves the words beside it alone. -/
theorem word_putWord_other (buffer : Buffer) {position other : ℕ} (value : ℕ)
    (apart : position + 4 ≤ other ∨ other + 4 ≤ position) :
    (buffer.putWord position value).word other = buffer.word other := by
  have agree : buffer.Agree (buffer.putWord position value) other (other + 4) := by
    intro index isFrom upTo
    rcases apart with before | after
    · exact putWord_of_le (by omega)
    · exact putWord_of_lt (by omega)
  exact agree.word le_rfl le_rfl

/-- A word has 32 bits. -/
theorem word_lt (buffer : Buffer) (position : ℕ) : buffer.word position < 2 ^ 32 := by
  have first := (buffer position).isLt
  have second := (buffer (position + 1)).isLt
  have third := (buffer (position + 2)).isLt
  have fourth := (buffer (position + 2 + 1)).isLt
  unfold Buffer.word Buffer.half
  omega

/-- The next item begins behind the descriptor, and behind the pointer of an item out of line. -/
theorem advance_ge (buffer : Buffer) (position : ℕ) :
    buffer.oolPtr position ≤ buffer.advance position ∧
      (buffer.isInline position = false → buffer.oolPtr position + 4 = buffer.advance position) := by
  unfold Buffer.oolPtr Buffer.advance
  constructor
  · omega
  · intro outOfLine
    simp [outOfLine, Nat.add_assoc]

/-- What `receiveOOLdata` leaves behind when it has gone through a message from a position on. -/
structure ReceivedFrom (allocate : ℕ → ℕ) (fuel position : ℕ) (message final : Incoming) :
    Prop where
  before : ∀ index < position, final.buffer index = message.buffer index
  kept : ∀ entry ∈ message.regions, entry ∈ final.regions
  sized : ∀ entry ∈ final.regions, entry ∈ message.regions ∨
    entry.2.length = final.buffer.dataSize entry.1
  pointed : ∀ other ∈ final.buffer.positions fuel position,
    final.buffer.hasOOLdata other = true →
      final.buffer.word (final.buffer.oolPtr other) = allocate other % 2 ^ 32 ∧
        ∃ region, (other, region) ∈ final.regions

variable {allocate : ℕ → ℕ} {fuel position : ℕ} {message final : Incoming}

/-- The items before the ones that are gone through stay as they are. -/
theorem ReceivedFrom.sameItem {next : Incoming} {later : ℕ}
    (received : ReceivedFrom allocate fuel later next final)
    (same : message.buffer.Agree next.buffer position (message.buffer.oolPtr position))
    (isLater : message.buffer.oolPtr position ≤ later) :
    message.buffer.SameItem final.buffer position := by
  apply Buffer.Agree.sameItem
  intro index isFrom upTo
  have before : index < later := lt_of_lt_of_le upTo isLater
  exact (received.before index before).trans (same index isFrom upTo)

theorem ReceivedFrom.msghSize (received : ReceivedFrom allocate fuel position message final)
    (inBody : headerBytes ≤ position) : final.buffer.msghSize = message.buffer.msghSize := by
  have agree : message.buffer.Agree final.buffer 0 headerBytes :=
    fun index _ upTo => received.before index (by omega)
  exact agree.msghSize

theorem ReceivedFrom.refl (ends : message.buffer.positions fuel position = []) :
    ReceivedFrom allocate fuel position message message where
  before _ _ := rfl
  kept _ entryMem := entryMem
  sized _ entryMem := .inl entryMem
  pointed other otherMem := by
    rw [ends] at otherMem
    cases otherMem

/-- One pass stores the pointer of its item at most, and the others do the rest. -/
theorem receivedFrom (inBody : headerBytes ≤ position) (message : Incoming) (stream : List Byte) :
    ReceivedFrom allocate fuel position message
      (receiveOOLdata allocate fuel position message stream).1 := by
  induction fuel generalizing position message stream with
  | zero => exact .refl rfl
  | succ fuel ih =>
      rw [receiveOOLdata]
      by_cases within : position < message.buffer.msghSize
      · have header := message.buffer.headerSize_le position
        have isPtr : message.buffer.oolPtr position =
          position + message.buffer.headerSize position := rfl
        rw [if_pos within, Incoming.receiveItem]
        split_ifs with has
        · -- the pointer is stored behind the descriptor, and the iterator steps over it
          dsimp only
          set region := stream.take (message.buffer.dataSize position) ++ List.replicate
            (message.buffer.dataSize position - stream.length) 0
          set next : Incoming :=
            { buffer := message.buffer.putWord (message.buffer.oolPtr position) (allocate position)
              regions := message.regions ++ [(position, region)]
              strayed := if message.buffer.oolPtr position = maxSize then some region
                else message.strayed } with isNext
          have agree : message.buffer.Agree next.buffer position (message.buffer.oolPtr position) :=
            fun _ _ upTo => putWord_of_lt upTo
          have nextSame := agree.sameItem
          have outOfLine : message.buffer.isInline position = false := by
            simp only [Buffer.hasOOLdata, Bool.and_eq_true, Bool.not_eq_true'] at has
            exact has.1
          have isAdvance : next.buffer.advance position = message.buffer.oolPtr position + 4 := by
            rw [nextSame.advance, (advance_ge message.buffer position).2 outOfLine]
          have received := @ih (next.buffer.advance position) (by omega) next
            (stream.drop (message.buffer.dataSize position))
          set final := (receiveOOLdata allocate fuel (next.buffer.advance position) next
            (stream.drop (message.buffer.dataSize position))).1
          have same := received.sameItem agree (by omega)
          have sameNext : final.buffer.advance position = next.buffer.advance position := by
            rw [same.advance, nextSame.advance]
          have sizeSame : final.buffer.msghSize = message.buffer.msghSize := by
            have agreeHeader : message.buffer.Agree final.buffer 0 headerBytes := by
              intro index _ upTo
              rw [received.before index (by omega)]
              exact putWord_of_lt (by omega)
            exact agreeHeader.msghSize
          have isPositions : final.buffer.positions (fuel + 1) position =
              position :: final.buffer.positions fuel (next.buffer.advance position) := by
            rw [Buffer.positions, if_pos (sizeSame ▸ within), sameNext]
          have finalHas : final.buffer.hasOOLdata position = true := by
            rw [Buffer.hasOOLdata, same.inline, same.dataSize]
            exact has
          refine ⟨?_, ?_, ?_, ?_⟩
          · intro index before
            rw [received.before index (by omega)]
            exact putWord_of_lt (by omega)
          · intro entry entryMem
            exact received.kept entry (List.mem_append_left _ entryMem)
          · intro entry entryMem
            rcases received.sized entry entryMem with isNew | sized
            · rcases List.mem_append.mp isNew with isOld | isLast
              · exact .inl isOld
              · rw [List.mem_singleton] at isLast
                subst isLast
                right
                rw [same.dataSize]
                simp only [region, List.length_append, List.length_take, List.length_replicate]
                omega
            · exact .inr sized
          · intro other otherMem otherHas
            rw [isPositions] at otherMem
            rcases List.mem_cons.mp otherMem with isThis | isLater
            · subst isThis
              refine ⟨?_, region, received.kept _ (by simp [isNext])⟩
              have agreePtr : next.buffer.Agree final.buffer (message.buffer.oolPtr other)
                  (message.buffer.oolPtr other + 4) :=
                fun index _ upTo => received.before index (by omega)
              rw [same.oolPtr, agreePtr.word le_rfl le_rfl]
              exact word_putWord ..
            · exact received.pointed other isLater otherHas
        · have received := @ih (message.buffer.advance position)
            (by have := (advance_ge message.buffer position).1; omega) message stream
          set final := (receiveOOLdata allocate fuel (message.buffer.advance position) message
            stream).1
          have isLater := (advance_ge message.buffer position).1
          have same := received.sameItem (fun _ _ _ => rfl) isLater
          have isPositions : final.buffer.positions (fuel + 1) position =
              position :: final.buffer.positions fuel (message.buffer.advance position) := by
            rw [Buffer.positions, if_pos (received.msghSize (by omega) ▸ within), same.advance]
          have finalHas : ¬final.buffer.hasOOLdata position = true := by
            rw [Buffer.hasOOLdata, same.inline, same.dataSize]
            exact has
          refine ⟨fun index before => received.before index (by omega), received.kept,
            received.sized, ?_⟩
          intro other otherMem otherHas
          rw [isPositions] at otherMem
          rcases List.mem_cons.mp otherMem with isThis | isLater
          · subst isThis
            exact (finalHas otherHas).elim
          · exact received.pointed other isLater otherHas
      · rw [if_neg within]
        exact .refl (by rw [Buffer.positions, if_neg within])

variable {vacant : Vacant} {incoming : Incoming}

/-- The items of a message have their regions where their pointers say. -/
def Pointed (vacant : Vacant) (incoming : Incoming) (position : ℕ) : Prop :=
  incoming.buffer.hasOOLdata position = true →
    incoming.buffer.word (incoming.buffer.oolPtr position) = vacant.allocate position % 2 ^ 32 ∧
      ∃ region, (position, region) ∈ incoming.regions

/-- A region is as large as `data_size` says. -/
def Sized (incoming : Incoming) : Prop :=
  ∀ entry ∈ incoming.regions, entry.2.length = incoming.buffer.dataSize entry.1

theorem Incoming.msg_of_inPlace (inPlace : incoming.strayed = none) :
    incoming.msg = incoming.buffer := by
  rw [Incoming.msg, inPlace]

/-- A message that has been received has gone through `receiveOOLdata`. -/
theorem tcpReceive_cases {stream rest : List Byte}
    (received : tcpReceive vacant stream = some (incoming, rest)) :
    ∃ (start : Incoming) (left : List Byte), start.regions = [] ∧
      start.buffer.msghSize ≤ maxSize ∧
      receiveOOLdata vacant.allocate start.buffer.msghSize headerBytes start left =
        (incoming, rest) := by
  rcases Option.bind_eq_some_iff.mp received with ⟨_, _, received⟩
  rcases Option.bind_eq_some_iff.mp received with ⟨_, isSmall, received⟩
  rcases Option.bind_eq_some_iff.mp received with ⟨_, isLarge, received⟩
  rcases Option.bind_eq_some_iff.mp received with ⟨_, _, received⟩
  refine ⟨_, _, rfl, ?_, Option.some_inj.mp received⟩
  have small : (vacant.buffer.fill 0 (stream.take headerBytes)).msghSize ≤ maxSize := by
    by_contra large
    simp [guard, large] at isSmall
  -- the rest of the message does not overwrite the header
  refine le_of_eq_of_le ?_ small
  have agree : (vacant.buffer.fill 0 (stream.take headerBytes)).Agree
      ((vacant.buffer.fill 0 (stream.take headerBytes)).fill headerBytes
        ((stream.drop headerBytes).take
          ((vacant.buffer.fill 0 (stream.take headerBytes)).msghSize - headerBytes)))
      0 headerBytes :=
    fun index _ upTo => Buffer.fill_outside (.inl upTo)
  exact agree.msghSize

/-- A message that has been received, with its regions and its pointers -/
structure Received (vacant : Vacant) (incoming : Incoming) : Prop where
  small : incoming.buffer.msghSize ≤ maxSize
  sized : Sized incoming
  pointed : ∀ position ∈ incoming.buffer.positions incoming.buffer.msghSize headerBytes,
    Pointed vacant incoming position

/-- What `tcpHandler` has received has its regions and its pointers. -/
theorem tcpReceive_received {stream rest : List Byte}
    (received : tcpReceive vacant stream = some (incoming, rest)) : Received vacant incoming := by
  rcases tcpReceive_cases received with ⟨start, left, noRegions, startSmall, isReceived⟩
  have fromStart : ReceivedFrom vacant.allocate start.buffer.msghSize headerBytes start incoming := by
    have whole := @receivedFrom vacant.allocate start.buffer.msghSize headerBytes le_rfl start left
    rw [isReceived] at whole
    exact whole
  have sameSize := fromStart.msghSize le_rfl
  refine ⟨sameSize ▸ startSmall, fun entry entryMem => ?_, ?_⟩
  · rcases fromStart.sized entry entryMem with isOld | isSized
    · rw [noRegions] at isOld
      cases isOld
    · exact isSized
  · rw [sameSize]
    exact fromStart.pointed

theorem Received.isShort (received : Received vacant incoming) :
    incoming.buffer.msghSize < 2 ^ 31 := by
  have isSmall : incoming.buffer.msghSize ≤ 4096 := received.small
  omega

end Receive

end Hurd.Netmsg
