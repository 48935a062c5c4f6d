import Hurd.Netmsg.Wire
import Mathlib.Algebra.Order.BigOperators.Group.List
import Mathlib.Algebra.Order.Group.Nat
import Mathlib.Data.Option.Basic

/-!
# The wire format and the sizes of out-of-line memory

Both ends go through the items of a message alike, for the receiver's copy differs from the
sender's in the pointers to out-of-line memory only, and only in those already passed.  So the
receiver never loses its place.  What it gets is what `data_size` says, which is the size of a
region as long as its number of bits fits in an `unsigned int`.
-/

namespace Hurd.Netmsg

namespace Buffer

variable {buffer other : Buffer} {position : ℕ}

/-- The number of bytes that the data of an item take up, padded to whole words. -/
def paddedSize (buffer : Buffer) (position : ℕ) : ℕ :=
  ((buffer.nelems position * buffer.elemsizeBits position + 7) / 8 + 3) / 4 * 4

/-- The number of bits of an item can be counted in an `unsigned int`. -/
def Countable (buffer : Buffer) (position : ℕ) : Prop :=
  buffer.nelems position * buffer.elemsizeBits position + 7 < 2 ^ 32

theorem dataSize_of_countable (countable : buffer.Countable position) :
    buffer.dataSize position = buffer.paddedSize position := by
  unfold dataSize paddedSize
  rw [Nat.mod_eq_of_lt countable]
  have small : (buffer.nelems position * buffer.elemsizeBits position + 7) / 8 + 4 - 1 < 2 ^ 32 := by
    have isSmall : buffer.nelems position * buffer.elemsizeBits position + 7 < 2 ^ 32 := countable
    omega
  dsimp only
  rw [Nat.mod_eq_of_lt small]
  rfl

theorem dataSize_lt_of_not_countable (uncountable : ¬buffer.Countable position) :
    buffer.dataSize position < buffer.paddedSize position := by
  unfold dataSize paddedSize
  rw [Countable, not_lt] at uncountable
  dsimp only
  omega

/-- Two buffers hold the same from one position to another. -/
def Agree (buffer other : Buffer) (first last : ℕ) : Prop :=
  ∀ index, first ≤ index → index < last → other index = buffer index

theorem Agree.word {first last : ℕ} (agree : buffer.Agree other first last)
    (isFrom : first ≤ position) (upTo : position + 4 ≤ last) :
    other.word position = buffer.word position := by
  unfold Buffer.word half
  rw [agree position (by omega) (by omega), agree (position + 1) (by omega) (by omega),
    agree (position + 2) (by omega) (by omega), agree (position + 2 + 1) (by omega) (by omega)]

theorem Agree.half {first last : ℕ} (agree : buffer.Agree other first last)
    (isFrom : first ≤ position) (upTo : position + 2 ≤ last) :
    other.half position = buffer.half position := by
  unfold Buffer.half
  rw [agree position (by omega) (by omega), agree (position + 1) (by omega) (by omega)]

/-- The header says how long the message is. -/
theorem Agree.msghSize (agree : buffer.Agree other 0 headerBytes) :
    other.msghSize = buffer.msghSize :=
  agree.word (by decide) (by decide)

theorem headerSize_le (buffer : Buffer) (position : ℕ) :
    4 ≤ buffer.headerSize position ∧ buffer.headerSize position ≤ 12 := by
  unfold headerSize
  split <;> omega

/-- What the iterator reads at a position is the same where the descriptors are. -/
theorem Agree.descriptor {first last : ℕ} (agree : buffer.Agree other first last)
    (isFrom : first ≤ position) (upTo : position + buffer.headerSize position ≤ last) :
    other.headerSize position = buffer.headerSize position ∧
      other.isInline position = buffer.isInline position ∧
      other.dataSize position = buffer.dataSize position := by
  have atLeast := buffer.headerSize_le position
  have sameWord := agree.word isFrom (by omega)
  have sameForm : other.isLongform position = buffer.isLongform position := by
    rw [isLongform, isLongform, sameWord]
  have sameHeader : other.headerSize position = buffer.headerSize position := by
    rw [headerSize, headerSize, sameForm]
  refine ⟨sameHeader, by rw [isInline, isInline, sameWord], ?_⟩
  have sameCounts : other.nelems position = buffer.nelems position ∧
      other.elemsizeBits position = buffer.elemsizeBits position := by
    unfold nelems elemsizeBits
    rw [sameForm]
    cases isLong : buffer.isLongform position with
    | false => simp [sameWord]
    | true =>
        have isTwelve : buffer.headerSize position = 12 := by simp [headerSize, isLong]
        rw [agree.word (by omega) (by omega), agree.half (by omega) (by omega)]
        exact ⟨rfl, rfl⟩
  rw [dataSize, dataSize, sameCounts.1, sameCounts.2]

/-- The items of a message tile its body. -/
inductive Tiles (buffer : Buffer) : ℕ → Prop
  | done : Tiles buffer buffer.msghSize
  | item {position : ℕ}
      (rest : Tiles buffer (position + (buffer.headerSize position +
        if buffer.isInline position then buffer.paddedSize position else 4))) :
      Tiles buffer position

theorem Tiles.le (tiles : buffer.Tiles position) : position ≤ buffer.msghSize := by
  induction tiles with
  | done => exact le_rfl
  | item _ ih => exact (Nat.le_add_right _ _).trans ih

/-- Inline data fit in the message, so that their bits can be counted. -/
theorem countable_of_inline (isInline : buffer.isInline position = true)
    (small : buffer.msghSize ≤ maxSize)
    (rest : buffer.Tiles (position + (buffer.headerSize position +
      if buffer.isInline position then buffer.paddedSize position else 4))) :
    buffer.Countable position := by
  have fits := rest.le
  rw [if_pos isInline] at fits
  have isSmall : buffer.paddedSize position ≤ 4096 := by
    have bound : buffer.msghSize ≤ 4096 := small
    omega
  unfold paddedSize at isSmall
  unfold Countable
  omega

theorem advance_of_tiles (small : buffer.msghSize ≤ maxSize)
    (rest : buffer.Tiles (position + (buffer.headerSize position +
      if buffer.isInline position then buffer.paddedSize position else 4))) :
    buffer.advance position = position + (buffer.headerSize position +
      if buffer.isInline position then buffer.paddedSize position else 4) := by
  unfold advance
  by_cases isInline : buffer.isInline position = true
  · rw [dataSize_of_countable (countable_of_inline isInline small rest)]
  · simp [isInline]

end Buffer

namespace Outgoing

variable {message : Outgoing} {position fuel : ℕ}

/-- The out-of-line data that is transmitted for an item -/
def oolBytes (message : Outgoing) (position : ℕ) : List Byte :=
  if message.buffer.hasOOLdata position then
    message.data position (message.buffer.dataSize position)
  else []

/-- What the receiver has as the region of an item. -/
def transmitted (message : Outgoing) (position : ℕ) : List (ℕ × List Byte) :=
  if message.buffer.hasOOLdata position then
    [(position, message.data position (message.buffer.dataSize position))]
  else []

/-- The index is in the pointer to the out-of-line data of one of the items. -/
def InPointer (message : Outgoing) (positions : List ℕ) (index : ℕ) : Prop :=
  ∃ position ∈ positions, message.buffer.isInline position = false ∧
    message.buffer.oolPtr position ≤ index ∧ index < message.buffer.oolPtr position + 4

theorem length_data (message : Outgoing) (position size : ℕ) :
    (message.data position size).length = size := by
  simp [data]

end Outgoing

/-- A received copy is right from a position on, and in the header. -/
structure InStep (message : Outgoing) (position : ℕ) (incoming : Incoming) : Prop where
  header : message.buffer.Agree incoming.buffer 0 headerBytes
  ahead : message.buffer.Agree incoming.buffer position message.buffer.msghSize

theorem InStep.msghSize {message : Outgoing} {position : ℕ} {incoming : Incoming}
    (inStep : InStep message position incoming) :
    incoming.buffer.msghSize = message.buffer.msghSize :=
  inStep.header.msghSize

theorem putWord_of_lt {buffer : Buffer} {position value index : ℕ} (before : index < position) :
    buffer.putWord position value index = buffer index := by
  rw [Buffer.putWord, if_neg]
  omega

theorem putWord_of_le {buffer : Buffer} {position value index : ℕ} (after : position + 4 ≤ index) :
    buffer.putWord position value index = buffer index := by
  rw [Buffer.putWord, if_neg]
  omega

theorem msghSize_putWord {buffer : Buffer} {position value : ℕ} (inBody : headerBytes ≤ position) :
    (buffer.putWord position value).msghSize = buffer.msghSize :=
  Buffer.Agree.msghSize fun _ _ upTo => putWord_of_lt (upTo.trans_le inBody)

theorem Buffer.advance_of_outOfLine {buffer : Buffer} {position : ℕ}
    (outOfLine : buffer.isInline position = false) :
    buffer.advance position = buffer.oolPtr position + 4 := by
  simp [Buffer.advance, Buffer.oolPtr, outOfLine, Nat.add_assoc]

/-- The receiver stores its own pointer for an item and goes on. -/
theorem InStep.stored {message : Outgoing} {position : ℕ} {incoming : Incoming}
    (inStep : InStep message position incoming)
    (outOfLine : message.buffer.isInline position = false) (inBody : headerBytes ≤ position)
    (address : ℕ) (regions : List (ℕ × List Byte)) (strayed : Option (List Byte))
    (fits : message.buffer.advance position ≤ message.buffer.msghSize) :
    InStep message (message.buffer.advance position)
        { buffer := incoming.buffer.putWord (message.buffer.oolPtr position) address
          regions := regions
          strayed := strayed } ∧
      (incoming.buffer.putWord (message.buffer.oolPtr position) address).advance position =
        message.buffer.advance position := by
  have header := message.buffer.headerSize_le position
  have isNext := Buffer.advance_of_outOfLine outOfLine
  have isPtr : message.buffer.oolPtr position = position + message.buffer.headerSize position := rfl
  refine ⟨⟨?_, ?_⟩, ?_⟩
  · intro index isFrom upTo
    have before : index < message.buffer.oolPtr position := by omega
    exact (putWord_of_lt before).trans (inStep.header index isFrom upTo)
  · intro index isFrom upTo
    have after : message.buffer.oolPtr position + 4 ≤ index := by omega
    exact (putWord_of_le after).trans (inStep.ahead index (by omega) upTo)
  · have agree : message.buffer.Agree
        (incoming.buffer.putWord (message.buffer.oolPtr position) address) position
        (position + message.buffer.headerSize position) := by
      intro index isFrom upTo
      have before : index < message.buffer.oolPtr position := by omega
      exact (putWord_of_lt before).trans (inStep.ahead index isFrom (by omega))
    rcases agree.descriptor le_rfl le_rfl with ⟨sameHeader, sameInline, sameSize⟩
    rw [Buffer.advance, sameHeader, sameInline, sameSize]
    rfl

/-- The receiver goes through the items as the sender does, and stops where the sender stopped. -/
theorem receiveOOLdata_transmitted {message : Outgoing} {position fuel : ℕ} {incoming : Incoming}
    {allocate : ℕ → ℕ} {stream : List Byte} (tiles : message.buffer.Tiles position)
    (small : message.buffer.msghSize ≤ maxSize) (inBody : headerBytes ≤ position)
    (enough : message.buffer.msghSize - position ≤ fuel) (inStep : InStep message position incoming) :
    ∃ final : Incoming, receiveOOLdata allocate fuel position incoming
        ((message.buffer.positions fuel position).flatMap message.oolBytes ++ stream) =
          (final, stream) ∧
      final.regions = incoming.regions ++
        (message.buffer.positions fuel position).flatMap message.transmitted ∧
      final.strayed = incoming.strayed ∧
      ∀ index, ¬message.InPointer (message.buffer.positions fuel position) index →
        final.buffer index = incoming.buffer index := by
  induction tiles generalizing fuel incoming with
  | done =>
      refine ⟨incoming, ?_, ?_, rfl, fun _ _ => rfl⟩
      · cases fuel with
        | zero => simp [receiveOOLdata, Buffer.positions]
        | succ fuel => simp [receiveOOLdata, Buffer.positions, inStep.msghSize]
      · cases fuel <;> simp [Buffer.positions]
  | @item position rest ih =>
      have isNext := Buffer.advance_of_tiles small rest
      have header := message.buffer.headerSize_le position
      have fits := rest.le
      have within : position < message.buffer.msghSize := by omega
      rcases inStep.ahead.descriptor le_rfl (by omega) with ⟨sameHeader, sameInline, sameSize⟩
      have sameNext : incoming.buffer.advance position = message.buffer.advance position := by
        rw [Buffer.advance, Buffer.advance, sameHeader, sameInline, sameSize]
      have sameHas : incoming.buffer.hasOOLdata position = message.buffer.hasOOLdata position := by
        rw [Buffer.hasOOLdata, Buffer.hasOOLdata, sameInline, sameSize]
      cases fuel with
      | zero => omega
      | succ fuel =>
          rw [← isNext] at ih rest fits
          have later : message.buffer.msghSize - message.buffer.advance position ≤ fuel := by
            omega
          have inBodyNext : headerBytes ≤ message.buffer.advance position := by omega
          rw [Buffer.positions, if_pos within, List.flatMap_cons, List.flatMap_cons]
          rw [receiveOOLdata, if_pos (inStep.msghSize ▸ within), Incoming.receiveItem, sameHas]
          by_cases has : message.buffer.hasOOLdata position = true
          · have outOfLine : message.buffer.isInline position = false := by
              simp only [Buffer.hasOOLdata, Bool.and_eq_true, Bool.not_eq_true'] at has
              exact has.1
            have stored := inStep.stored outOfLine inBody (allocate position)
              (incoming.regions ++ message.transmitted position) incoming.strayed (by omega)
            rcases ih inBodyNext later stored.1 with ⟨final, received, regions, inPlace, same⟩
            -- the stream begins with the data of the item, which fill its region
            have filled : ∀ left : List Byte,
                (message.data position (message.buffer.dataSize position) ++ left).take
                    (message.buffer.dataSize position) ++
                  List.replicate (message.buffer.dataSize position -
                    (message.data position (message.buffer.dataSize position) ++ left).length) 0 =
                  message.data position (message.buffer.dataSize position) := by
              intro left
              have length := message.length_data position (message.buffer.dataSize position)
              rw [List.take_left' length, List.length_append, length]
              simp
            refine ⟨final, ?_, ?_, inPlace, ?_⟩
            · have samePtr : incoming.buffer.oolPtr position = message.buffer.oolPtr position := by
                rw [Buffer.oolPtr, Buffer.oolPtr, sameHeader]
              have inBuffer : message.buffer.oolPtr position ≠ maxSize := by
                have isLast := Buffer.advance_of_outOfLine outOfLine
                omega
              rw [if_pos has, Outgoing.oolBytes, if_pos has, sameSize, samePtr, List.append_assoc]
              dsimp only
              rw [if_neg inBuffer, stored.2, filled, List.drop_left' (message.length_data _ _)]
              rw [Outgoing.transmitted, if_pos has] at received
              exact received
            · rw [regions, List.append_assoc]
            · intro index notIn
              have elsewhere : final.buffer index =
                  incoming.buffer.putWord (message.buffer.oolPtr position) (allocate position)
                    index := by
                apply same
                rintro ⟨other, otherMem, inPointer⟩
                exact notIn ⟨other, List.mem_cons_of_mem _ otherMem, inPointer⟩
              rw [elsewhere, Buffer.putWord, if_neg]
              intro inPointer
              exact notIn ⟨position, List.mem_cons_self, outOfLine, inPointer⟩
          · have nothing : message.oolBytes position = [] ∧ message.transmitted position = [] := by
              simp [Outgoing.oolBytes, Outgoing.transmitted, has]
            have ahead : InStep message (message.buffer.advance position) incoming :=
              ⟨inStep.header, fun index isFrom upTo => inStep.ahead index (by omega) upTo⟩
            rcases ih inBodyNext later ahead with ⟨final, received, regions, inPlace, same⟩
            refine ⟨final, ?_, ?_, inPlace, ?_⟩
            · rw [if_neg has, nothing.1, List.nil_append]
              dsimp only
              rw [sameNext]
              exact received
            · rw [nothing.2, List.nil_append]
              exact regions
            · intro index notIn
              apply same
              rintro ⟨other, otherMem, inPointer⟩
              exact notIn ⟨other, List.mem_cons_of_mem _ otherMem, inPointer⟩

namespace Buffer

theorem fill_inside {buffer written : Buffer} {position index : ℕ} {bytes : List Byte}
    (isWritten : ∀ offset, offset < bytes.length →
      bytes[offset]? = some (written (position + offset)))
    (isFrom : position ≤ index) (upTo : index < position + bytes.length) :
    buffer.fill position bytes index = written index := by
  rw [fill, if_pos ⟨isFrom, upTo⟩, List.getD_eq_getElem?_getD,
    isWritten (index - position) (by omega), Option.getD_some, Nat.add_sub_cancel' isFrom]

theorem fill_outside {buffer : Buffer} {position index : ℕ} {bytes : List Byte}
    (outside : index < position ∨ position + bytes.length ≤ index) :
    buffer.fill position bytes index = buffer index := by
  rw [fill, if_neg]
  omega

end Buffer

namespace Outgoing

/-- The items of the message tile its body, and it fits in a buffer. -/
structure WellFormed (message : Outgoing) : Prop where
  atLeast : headerBytes ≤ message.buffer.msghSize
  small : message.buffer.msghSize ≤ maxSize
  tiles : message.buffer.Tiles headerBytes

variable {message : Outgoing} {position : ℕ}

/-- The message that `tcpHandler` makes of what is transmitted, whatever follows it. -/
theorem WellFormed.tcpReceive (wellFormed : message.WellFormed) (vacant : Vacant)
    (following : List Byte) :
    ∃ incoming : Incoming,
      tcpReceive vacant (message.transmit ++ following) = some (incoming, following) ∧
      incoming.regions = message.positions.flatMap message.transmitted ∧
      incoming.strayed = none ∧
      ∀ index, index < message.buffer.msghSize → ¬message.InPointer message.positions index →
        incoming.buffer index = message.buffer index := by
  have atLeast := wellFormed.atLeast
  let bytes := (List.range message.buffer.msghSize).map message.buffer
  let stream := message.transmit ++ following
  have isStream : stream = bytes ++ (message.transmitOOLdata ++ following) :=
    List.append_assoc ..
  have length : bytes.length = message.buffer.msghSize := by simp [bytes]
  have byteAt : ∀ index, index < message.buffer.msghSize →
      bytes[index]? = some (message.buffer index) := by
    intro index within
    simp [bytes, within]
  have enough : headerBytes ≤ stream.length := by
    rw [isStream, List.length_append]
    omega
  -- the first read
  have headerTaken : stream.take headerBytes = bytes.take headerBytes := by
    rw [isStream, List.take_append_of_le_length (by omega)]
  have takenLength : (bytes.take headerBytes).length = headerBytes := by
    rw [List.length_take]
    omega
  have header : message.buffer.Agree (vacant.buffer.fill 0 (bytes.take headerBytes)) 0
      headerBytes := by
    intro index isFrom upTo
    refine Buffer.fill_inside ?_ isFrom (by omega)
    intro offset within
    rw [List.getElem?_take_of_lt (by omega), byteAt _ (by omega), Nat.zero_add]
  have size : (vacant.buffer.fill 0 (bytes.take headerBytes)).msghSize = message.buffer.msghSize :=
    header.msghSize
  -- the second read
  have bodyTaken : (stream.drop headerBytes).take (message.buffer.msghSize - headerBytes) =
      bytes.drop headerBytes := by
    rw [isStream, List.drop_append_of_le_length (by omega)]
    apply List.take_left'
    rw [List.length_drop, length]
  have left : (stream.drop headerBytes).drop (message.buffer.msghSize - headerBytes) =
      message.transmitOOLdata ++ following := by
    rw [isStream, List.drop_append_of_le_length (by omega)]
    apply List.drop_left'
    rw [List.length_drop, length]
  have bodyEnough : message.buffer.msghSize - headerBytes ≤ (stream.drop headerBytes).length := by
    rw [isStream, List.length_drop, List.length_append]
    omega
  have dropLength : (bytes.drop headerBytes).length = message.buffer.msghSize - headerBytes := by
    rw [List.length_drop, length]
  have inStep : InStep message headerBytes
      { buffer := (vacant.buffer.fill 0 (bytes.take headerBytes)).fill headerBytes
          (bytes.drop headerBytes) } := by
    constructor
    · intro index isFrom upTo
      exact (Buffer.fill_outside (.inl upTo)).trans (header index isFrom upTo)
    · intro index isFrom upTo
      refine Buffer.fill_inside ?_ isFrom (by omega)
      intro offset within
      rw [List.getElem?_drop, byteAt _ (by omega)]
  have result := @receiveOOLdata_transmitted message headerBytes message.buffer.msghSize _
    vacant.allocate following wellFormed.tiles wellFormed.small le_rfl (Nat.sub_le _ _) inStep
  rcases result with ⟨final, received, regions, inPlace, same⟩
  refine ⟨final, ?_, regions, inPlace, ?_⟩
  · have isReceived : Netmsg.tcpReceive vacant stream = some (final, following) := by
      have sizeAfter := inStep.msghSize
      simp only at sizeAfter
      simp only [Netmsg.tcpReceive, headerTaken, size, bodyTaken, left, sizeAfter, enough,
        wellFormed.small, atLeast, bodyEnough, guard_true, pure_bind]
      exact congrArg some received
    exact isReceived
  · intro index within notIn
    rw [same index notIn]
    by_cases inHeader : index < headerBytes
    · exact inStep.header index (Nat.zero_le _) inHeader
    · exact inStep.ahead index (by omega) within

/-- An out-of-line region as it is in the sender's task -/
def region (message : Outgoing) (position : ℕ) : List (ℕ × List Byte) :=
  if !message.buffer.isInline position && decide (0 < message.buffer.paddedSize position) then
    [(position, message.data position (message.buffer.paddedSize position))]
  else []

def regions (message : Outgoing) : List (ℕ × List Byte) :=
  message.positions.flatMap message.region

/-- The out-of-line items of the message are small enough for their bits to be counted. -/
def CountableItems (message : Outgoing) : Prop :=
  ∀ position ∈ message.positions, message.buffer.isInline position = false →
    message.buffer.Countable position

theorem transmitted_eq_region
    (countable : message.buffer.isInline position = false → message.buffer.Countable position) :
    message.transmitted position = message.region position := by
  unfold transmitted region Buffer.hasOOLdata
  cases isInline : message.buffer.isInline position with
  | true => simp
  | false => rw [Buffer.dataSize_of_countable (countable isInline)]

/-- The number of bytes of the regions of an item -/
def regionBytes (regions : List (ℕ × List Byte)) : ℕ := (regions.flatMap Prod.snd).length

theorem regionBytes_transmitted (outOfLine : message.buffer.isInline position = false) :
    regionBytes (message.transmitted position) = message.buffer.dataSize position := by
  unfold transmitted regionBytes Buffer.hasOOLdata
  by_cases isEmpty : message.buffer.dataSize position = 0
  · simp [isEmpty]
  · simp [outOfLine, Nat.pos_of_ne_zero isEmpty, length_data]

theorem regionBytes_region (outOfLine : message.buffer.isInline position = false) :
    regionBytes (message.region position) = message.buffer.paddedSize position := by
  unfold region regionBytes
  by_cases isEmpty : message.buffer.paddedSize position = 0
  · simp [isEmpty]
  · simp [outOfLine, Nat.pos_of_ne_zero isEmpty, length_data]

theorem regionBytes_flatMap (positions : List ℕ) (regionsAt : ℕ → List (ℕ × List Byte)) :
    regionBytes (positions.flatMap regionsAt) =
      (positions.map fun position => regionBytes (regionsAt position)).sum := by
  unfold regionBytes
  rw [List.flatMap_assoc, List.length_flatMap]

/-- Too few bytes are transmitted as soon as one item is too large. -/
theorem transmitted_eq_regions_iff :
    message.positions.flatMap message.transmitted = message.regions ↔ message.CountableItems := by
  constructor
  · intro same position isItem outOfLine
    by_contra uncountable
    have fewer : (message.positions.map fun position =>
        regionBytes (message.transmitted position)).sum <
          (message.positions.map fun position => regionBytes (message.region position)).sum := by
      apply List.sum_lt_sum
      · intro other _
        cases isInline : message.buffer.isInline other with
        | true => simp [transmitted, region, Buffer.hasOOLdata, isInline]
        | false =>
            rw [regionBytes_transmitted isInline, regionBytes_region isInline]
            by_cases countable : message.buffer.Countable other
            · exact (Buffer.dataSize_of_countable countable).le
            · exact (Buffer.dataSize_lt_of_not_countable countable).le
      · refine ⟨position, isItem, ?_⟩
        rw [regionBytes_transmitted outOfLine, regionBytes_region outOfLine]
        exact Buffer.dataSize_lt_of_not_countable uncountable
    rw [← regionBytes_flatMap, ← regionBytes_flatMap, same] at fewer
    exact lt_irrefl _ fewer
  · intro countable
    apply List.flatMap_congr
    intro position isItem
    exact transmitted_eq_region (countable position isItem)

/-- The received message is the one sent, but for the pointers to its out-of-line memory. -/
structure Same (message : Outgoing) (incoming : Incoming) : Prop where
  bytes : ∀ index, index < message.buffer.msghSize →
    ¬message.InPointer message.positions index → incoming.buffer index = message.buffer index
  regions : incoming.regions = message.regions
  inPlace : incoming.strayed = none

theorem WellFormed.same_iff (wellFormed : message.WellFormed) (vacant : Vacant)
    (following : List Byte) :
    ∃ incoming : Incoming,
      Netmsg.tcpReceive vacant (message.transmit ++ following) = some (incoming, following) ∧
      (message.Same incoming ↔ message.CountableItems) := by
  rcases wellFormed.tcpReceive vacant following with
    ⟨incoming, received, regions, inPlace, bytes⟩
  refine ⟨incoming, received, ?_⟩
  rw [← transmitted_eq_regions_iff, ← regions]
  constructor
  · intro same
    exact same.regions
  · intro sameRegions
    exact ⟨bytes, sameRegions, inPlace⟩

/-- What is written for some messages in turn -/
def transmitAll (messages : List (Outgoing × Vacant)) : List Byte :=
  messages.flatMap fun sent => sent.1.transmit

/-- The messages written to the network are those read from it, each from where it begins. -/
structure Lossless (messages : List (Outgoing × Vacant)) : Prop where
  same : ∀ following : List Byte, ∃ incomings : List Incoming,
    tcpReceiveAll (messages.map Prod.snd) (transmitAll messages ++ following) =
      some (incomings, following) ∧
    List.Forall₂ (fun sent incoming => sent.1.Same incoming) messages incomings
  consumed : ∀ (before : List (Outgoing × Vacant)) (message : Outgoing) (vacant : Vacant)
    (after : List (Outgoing × Vacant)), messages = before ++ (message, vacant) :: after →
      ∀ following : List Byte, ∃ incoming : Incoming,
        Netmsg.tcpReceive vacant (transmitAll ((message, vacant) :: after) ++ following) =
          some (incoming, transmitAll after ++ following)

theorem tcpReceiveAll_transmitAll {messages : List (Outgoing × Vacant)}
    (wellFormed : ∀ sent ∈ messages, sent.1.WellFormed) (following : List Byte) :
    ∃ incomings : List Incoming,
      tcpReceiveAll (messages.map Prod.snd) (transmitAll messages ++ following) =
        some (incomings, following) ∧
      List.Forall₂ (fun sent incoming => sent.1.Same incoming ↔ sent.1.CountableItems)
        messages incomings := by
  induction messages with
  | nil => exact ⟨[], rfl, .nil⟩
  | cons sent rest ih =>
      rcases ih (fun other isLater => wellFormed other (List.mem_cons_of_mem _ isLater)) with
        ⟨incomings, others, sameOthers⟩
      rcases (wellFormed sent List.mem_cons_self).same_iff sent.2
        (transmitAll rest ++ following) with ⟨incoming, received, same⟩
      refine ⟨incoming :: incomings, ?_, .cons same sameOthers⟩
      have isStream : transmitAll (sent :: rest) ++ following =
          sent.1.transmit ++ (transmitAll rest ++ following) := by
        simp [transmitAll]
      simp only [List.map_cons, tcpReceiveAll, isStream, received, Option.bind_eq_bind,
        Option.bind_some, others]

theorem forall₂_same_iff {messages : List (Outgoing × Vacant)} {incomings : List Incoming}
    (same : List.Forall₂ (fun sent incoming => sent.1.Same incoming ↔ sent.1.CountableItems)
      messages incomings) :
    List.Forall₂ (fun sent incoming => sent.1.Same incoming) messages incomings ↔
      ∀ sent ∈ messages, sent.1.CountableItems := by
  induction same with
  | nil => simp
  | cons first _ ih => rw [List.forall₂_cons, first, ih, List.forall_mem_cons]

theorem Lossless.countableItems {messages : List (Outgoing × Vacant)}
    (lossless : Lossless messages) (wellFormed : ∀ sent ∈ messages, sent.1.WellFormed) :
    ∀ sent ∈ messages, sent.1.CountableItems := by
  rcases tcpReceiveAll_transmitAll wellFormed [] with ⟨incomings, received, sameIff⟩
  rcases lossless.same [] with ⟨others, receivedSame, same⟩
  rw [received] at receivedSame
  cases receivedSame
  exact (forall₂_same_iff sameIff).mp same

/--
The network carries any messages as they are, exactly when the out-of-line memory of each of
their items has less than 2^32 bits.
-/
theorem lossless_iff {messages : List (Outgoing × Vacant)}
    (wellFormed : ∀ sent ∈ messages, sent.1.WellFormed) :
    Lossless messages ↔ ∀ sent ∈ messages, ∀ position ∈ sent.1.positions,
      sent.1.buffer.isInline position = false →
        sent.1.buffer.nelems position * sent.1.buffer.elemsizeBits position + 7 < 2 ^ 32 := by
  constructor
  · intro lossless
    exact lossless.countableItems wellFormed
  · intro countable
    constructor
    · intro following
      rcases tcpReceiveAll_transmitAll wellFormed following with ⟨incomings, received, sameIff⟩
      exact ⟨incomings, received, (forall₂_same_iff sameIff).mpr countable⟩
    · rintro before message vacant after rfl following
      have isSent : message.WellFormed := wellFormed (message, vacant) (by simp)
      rcases isSent.same_iff vacant (transmitAll after ++ following) with ⟨incoming, received, -⟩
      refine ⟨incoming, ?_⟩
      rw [← received]
      simp [transmitAll]

/-- One item in the long form, of so many bytes out of line -/
def single (high low : Byte) : Outgoing where
  buffer
    -- `MACH_MSGH_BITS_COMPLEX`
    | 3 => 0x80
    | 4 => 40
    | 27 => 0x20
    -- `MACH_MSG_TYPE_INTEGER_8`
    | 28 => 9
    | 30 => 8
    | 32 => low
    | 35 => high
    | _ => 0
  memory := fun _ => 1

theorem single_msghSize (high low : Byte) : (single high low).buffer.msghSize = 40 := by
  simp [single, Buffer.msghSize, Buffer.word, Buffer.half]

theorem single_descriptor (high low : Byte) :
    (single high low).buffer.headerSize 24 = 12 ∧
      (single high low).buffer.isInline 24 = false := by
  simp [single, Buffer.headerSize, Buffer.isLongform, Buffer.isInline, Buffer.word, Buffer.half]

theorem single_wellFormed (high low : Byte) : (single high low).WellFormed := by
  have size := single_msghSize high low
  refine ⟨?_, ?_, ?_⟩
  · rw [size]
    decide
  · rw [size]
    decide
  · apply Buffer.Tiles.item
    rcases single_descriptor high low with ⟨header, outOfLine⟩
    rw [headerBytes, header, outOfLine]
    have atEnd : (single high low).buffer.Tiles (single high low).buffer.msghSize := .done
    rw [size] at atEnd
    exact atEnd

theorem lossless_single :
    (∀ sent ∈ [(single 0 5, (⟨fun _ => 7, fun _ => 0x1000⟩ : Vacant))], sent.1.WellFormed) ∧
      Lossless [(single 0 5, ⟨fun _ => 7, fun _ => 0x1000⟩)] := by
  have wellFormed : ∀ sent ∈ [(single 0 5, (⟨fun _ => 7, fun _ => 0x1000⟩ : Vacant))],
      sent.1.WellFormed := by
    intro sent isSent
    rcases List.mem_singleton.mp isSent with ⟨⟩
    exact single_wellFormed 0 5
  refine ⟨wellFormed, (lossless_iff wellFormed).mpr ?_⟩
  intro sent isSent
  rcases List.mem_singleton.mp isSent with ⟨⟩
  decide

/-- Nothing is transmitted of a region of 2^29 bytes. -/
theorem huge_region_lost :
    (∀ sent ∈ [(single 0x20 0, (⟨fun _ => 7, fun _ => 0x1000⟩ : Vacant))], sent.1.WellFormed) ∧
      ¬Lossless [(single 0x20 0, ⟨fun _ => 7, fun _ => 0x1000⟩)] := by
  have wellFormed : ∀ sent ∈ [(single 0x20 0, (⟨fun _ => 7, fun _ => 0x1000⟩ : Vacant))],
      sent.1.WellFormed := by
    intro sent isSent
    rcases List.mem_singleton.mp isSent with ⟨⟩
    exact single_wellFormed 0x20 0
  refine ⟨wellFormed, ?_⟩
  intro lossless
  have countable := lossless.countableItems wellFormed _ List.mem_cons_self 24 (by decide)
    (single_descriptor 0x20 0).2
  have uncountable : ¬(single 0x20 0).buffer.Countable 24 := by
    unfold Buffer.Countable
    decide
  exact uncountable countable

end Outgoing

end Hurd.Netmsg
