import Hurd.Netmsg.HeaderWords

/-!
# What a handler leaves of a message

Whatever a handler does to a message, the descriptors of its items stay, and so do the data of the
items that do not carry ports.  `copyOOLdata` moves out-of-line data to where there is room for them, and
leaves what the message says.
-/

namespace Hurd.Netmsg

theorem word_congr {bytes other : Buffer} {position moved : ℕ}
    (same : ∀ offset < 4, other (moved + offset) = bytes (position + offset)) :
    other.word moved = bytes.word position := by
  have first : other moved = bytes position := same 0 (by decide)
  have second := same 1 (by decide)
  have third := same 2 (by decide)
  have fourth := same 3 (by decide)
  simp only [Buffer.word, Buffer.half, Nat.add_assoc, Nat.reduceAdd, first, second, third, fourth]

namespace Outgoing

variable {message other final : Outgoing} {position : ℕ}

/-- The items of two messages are in the same places and have the same types and sizes. -/
structure SameDescriptors (message other : Outgoing) : Prop where
  size : other.buffer.msghSize = message.buffer.msghSize
  descriptors : ∀ position ∈ message.positions,
    message.buffer.Agree other.buffer position (message.buffer.oolPtr position)

/-- The iterator comes to the same items. -/
theorem SameDescriptors.positions (same : message.SameDescriptors other) :
    other.positions = message.positions := by
  rw [Outgoing.positions, Outgoing.positions, same.size]
  exact Buffer.positions_congr same.size same.descriptors

theorem SameDescriptors.sameItem (same : message.SameDescriptors other)
    (isItem : position ∈ message.positions) : message.buffer.SameItem other.buffer position :=
  Buffer.Agree.sameItem (same.descriptors position isItem)

theorem SameDescriptors.trans (first : message.SameDescriptors other)
    (second : other.SameDescriptors final) : message.SameDescriptors final := by
  refine ⟨second.size.trans first.size, fun position isItem index isFrom upTo => ?_⟩
  have samePtr := (first.sameItem isItem).oolPtr
  rw [second.descriptors position (first.positions ▸ isItem) index isFrom (samePtr ▸ upTo),
    first.descriptors position isItem index isFrom upTo]

/--
A message as the kernel delivers it: the elements of items with ports are 32 bits long.  One with
the number of a DEAD NAME notification has an item, of which `tcpBufferHandler` takes the name.
-/
structure Regular (message : Outgoing) : Prop where
  wellFormed : message.WellFormed
  ports : ∀ position ∈ message.positions, message.buffer.carriesPorts true position = true →
    message.buffer.elemsizeBits position = 32 ∧ message.buffer.Countable position
  notification : message.msghId = msgidDeadName → headerBytes < message.buffer.msghSize

theorem Regular.sized (regular : message.Regular) (isItem : position ∈ message.positions)
    (carries : message.buffer.carriesPorts true position = true) :
    message.buffer.dataSize position = 4 * message.buffer.nelems position := by
  rcases regular.ports position isItem carries with ⟨elements, countable⟩
  rw [Buffer.dataSize_of_countable countable, Buffer.paddedSize, elements]
  omega

theorem Regular.of_same (regular : message.Regular) (same : message.SameDescriptors other)
    (sameId : other.msghId = message.msghId) : other.Regular := by
  refine ⟨⟨?_, ?_, ?_⟩, ?_, ?_⟩
  · rw [same.size]
    exact regular.wellFormed.atLeast
  · rw [same.size]
    exact regular.wellFormed.small
  · exact regular.wellFormed.tiles.congr regular.wellFormed.small same.size (Nat.le_add_left _ _)
      same.descriptors
  · intro position isItem
    rw [same.positions] at isItem
    have sameItem := same.sameItem isItem
    rw [sameItem.carriesPorts, Buffer.Countable, sameItem.nelems,
      Buffer.elemsizeBits_eq (same.descriptors position isItem)]
    exact regular.ports position isItem
  · rw [sameId, same.size]
    exact regular.notification

/-- The items of a message follow one another. -/
theorem follow_of_mem {first second : ℕ} (isFirst : first ∈ message.positions)
    (isSecond : second ∈ message.positions) (different : first ≠ second) :
    message.buffer.advance first ≤ second ∨ message.buffer.advance second ≤ first := by
  have symmetric : Std.Symm fun first second : ℕ =>
      message.buffer.advance first ≤ second ∨ message.buffer.advance second ≤ first :=
    ⟨fun _ _ => Or.symm⟩
  have pairs : message.positions.Pairwise fun first second =>
      message.buffer.advance first ≤ second ∨ message.buffer.advance second ≤ first :=
    Buffer.positions_follow.imp .inl
  exact pairs.forall isFirst isSecond different

/-- The items of a regular message do not overlap, if its pieces of memory do not. -/
theorem Regular.neat (regular : message.Regular)
    (apart : ∀ first ∈ message.positions, ∀ second ∈ message.positions, first ≠ second →
      message.buffer.hasOOLdata first = true → message.buffer.hasOOLdata second = true →
        message.dataPtr first + message.buffer.dataSize first ≤ message.dataPtr second ∨
          message.dataPtr second + message.buffer.dataSize second ≤ message.dataPtr first) :
    message.Neat message.positions :=
  ⟨fun _ isItem => Buffer.positions_ge isItem,
    fun _ isFirst _ isSecond different => follow_of_mem isFirst isSecond different,
    fun _ isItem carries => regular.sized isItem carries, apart⟩

/-- The data of some items are the same in two messages, wherever they are. -/
structure KeepsData (message other : Outgoing) (which : ℕ → Prop) : Prop where
  same : message.SameDescriptors other
  inline : ∀ position ∈ message.positions, which position →
    message.buffer.isInline position = true → ∀ offset < message.buffer.dataSize position,
      other.buffer (other.dataPtr position + offset) =
        message.buffer (message.dataPtr position + offset)
  outOfLine : ∀ position ∈ message.positions, which position →
    message.buffer.isInline position = false → ∀ offset < message.buffer.dataSize position,
      other.memory (other.dataPtr position + offset) =
        message.memory (message.dataPtr position + offset)

/-- The item at a position carries no ports. -/
def NoPorts (message : Outgoing) (position : ℕ) : Prop :=
  message.buffer.carriesPorts true position = false

theorem KeepsData.trans {which which' : ℕ → Prop} (first : message.KeepsData other which)
    (second : other.KeepsData final which')
    (goesOn : ∀ position ∈ message.positions, which position → which' position) :
    message.KeepsData final which := by
  refine ⟨first.same.trans second.same, ?_, ?_⟩
  · intro position isItem isKept isInline offset inside
    have same := first.same.sameItem isItem
    rw [second.inline position (first.same.positions ▸ isItem) (goesOn position isItem isKept)
      (same.inline.trans isInline) offset (same.dataSize ▸ inside),
      first.inline position isItem isKept isInline offset inside]
  · intro position isItem isKept outOfLine offset inside
    have same := first.same.sameItem isItem
    rw [second.outOfLine position (first.same.positions ▸ isItem) (goesOn position isItem isKept)
      (same.inline.trans outOfLine) offset (same.dataSize ▸ inside),
      first.outOfLine position isItem isKept outOfLine offset inside]

theorem KeepsData.mono {which which' : ℕ → Prop} (keeps : message.KeepsData other which)
    (fewer : ∀ position, which' position → which position) : message.KeepsData other which' :=
  ⟨keeps.same, fun position isItem isKept => keeps.inline position isItem (fewer position isKept),
    fun position isItem isKept => keeps.outOfLine position isItem (fewer position isKept)⟩

/-- The same data, and the same header -/
theorem KeepsData.decode (keeps : message.KeepsData other fun _ => True)
    (regular : message.Regular) (header : message.buffer.Agree other.buffer 0 headerBytes) :
    other.decode = message.decode := by
  have sameBits : other.msghBits = message.msghBits := header.word le_rfl (by decide)
  have sameRemote : other.buffer.word 8 = message.buffer.word 8 :=
    header.word (by decide) (by decide)
  have sameLocal : other.buffer.word 12 = message.buffer.word 12 :=
    header.word (by decide) (by decide)
  have sameId : other.msghId = message.msghId := header.word (by decide) (by decide)
  have sameItems : other.positions.map other.item = message.positions.map message.item := by
    rw [keeps.same.positions]
    apply List.map_congr_left
    intro position isItem
    have same := keeps.same.sameItem isItem
    rw [item, item, same.name, same.carriesPorts]
    by_cases carries : message.buffer.carriesPorts true position = true
    · have sized := regular.sized isItem carries
      rw [if_pos carries, if_pos carries, slots, slots, same.slots, Buffer.slots, Buffer.slots,
        List.map_map, List.map_map]
      congr 1
      apply List.map_congr_left
      intro element isElement
      rw [List.mem_range] at isElement
      refine congrArg (BitVec.ofNat 32) (word_congr fun offset inside => ?_)
      rw [Nat.add_assoc, Nat.add_assoc, bytesOf, bytesOf, same.inline]
      cases isInline : message.buffer.isInline position with
      | true => exact keeps.inline position isItem trivial isInline _ (by omega)
      | false => exact keeps.outOfLine position isItem trivial isInline _ (by omega)
    · rw [if_neg carries, if_neg carries]
  simp only [Outgoing.decode, remoteTranslate, localBits, remoteBits, msghLocalPort,
    msghRemotePort, Buffer.port, sameBits, sameRemote, sameLocal, sameId, sameItems]

/-- A change to the header changes no data. -/
theorem SameBody.keepsData (same : message.SameBody other) :
    message.KeepsData other fun _ => True := by
  refine ⟨⟨same.ahead.size, ?_⟩, ?_, ?_⟩
  · intro position isItem index isFrom _
    exact same.ahead.ahead index ((Buffer.positions_ge isItem).trans isFrom)
  · intro position isItem _ isInline offset _
    have inBody : headerBytes ≤ position := Buffer.positions_ge isItem
    rw [same.dataPtr inBody]
    apply same.ahead.ahead
    have isPtr : message.dataPtr position = position + message.buffer.headerSize position := by
      simp [Outgoing.dataPtr, isInline, Buffer.oolPtr]
    omega
  · intro position isItem _ _ offset _
    rw [same.dataPtr (Buffer.positions_ge isItem), same.memory]

/-- Rewriting the ports of a message changes the data of no other item. -/
theorem Rewrites.keepsData (rewrites : message.Rewrites other message.positions)
    (neat : message.Neat message.positions) : message.KeepsData other message.NoPorts := by
  have within := List.Subset.refl message.positions
  refine ⟨⟨rewrites.msghSize neat within, fun position isItem =>
    rewrites.descriptor neat within isItem⟩, ?_, ?_⟩
  · intro position isItem noPorts isInline offset inside
    rw [rewrites.dataPtr neat within isItem]
    apply rewrites.buffer
    rintro ⟨rewritten, rewrittenMem, carries, rewrittenInline, first, last⟩
    have isPtr : message.dataPtr position = message.buffer.oolPtr position := by
      simp [Outgoing.dataPtr, isInline]
    have isEnd : message.buffer.advance position =
        message.buffer.oolPtr position + message.buffer.dataSize position := by
      rw [Buffer.advance, if_pos isInline, Buffer.oolPtr, Nat.add_assoc]
    have header : message.buffer.oolPtr position =
      position + message.buffer.headerSize position := rfl
    have rewrittenHeader : message.buffer.oolPtr rewritten =
      rewritten + message.buffer.headerSize rewritten := rfl
    rcases neat.inline_bounds rewrittenMem carries rewrittenInline with ⟨rewrittenPtr, rewrittenEnd⟩
    have different : position ≠ rewritten := by
      rintro rfl
      exact absurd (carries.symm.trans noPorts) (by decide)
    rcases neat.follow position isItem rewritten rewrittenMem different with before | after
    · omega
    · omega
  · intro position isItem noPorts outOfLine offset inside
    rw [rewrites.dataPtr neat within isItem]
    apply rewrites.memory
    rintro ⟨rewritten, rewrittenMem, carries, rewrittenInline, first, last⟩
    have sized := neat.sized rewritten rewrittenMem carries
    have different : position ≠ rewritten := by
      rintro rfl
      exact absurd (carries.symm.trans noPorts) (by decide)
    have apart := neat.apart position isItem rewritten rewrittenMem different
      (Buffer.hasOOLdata_iff.mpr ⟨outOfLine, by omega⟩)
      (Buffer.hasOOLdata_iff.mpr ⟨rewrittenInline, by omega⟩)
    omega

end Outgoing

end Hurd.Netmsg
