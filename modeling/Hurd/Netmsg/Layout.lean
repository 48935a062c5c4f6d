import Hurd.Netmsg.Bytewise

/-!
# Where the items of a message are

The items of a message follow one another, each with its descriptor before its data.  So a handler
that writes to the data of some items only finds every descriptor as it was, and the other items
with their data.
-/

namespace Hurd.Netmsg

namespace Buffer

variable {buffer other : Buffer} {fuel position : ℕ}

theorem positions_ge {later : ℕ} (isItem : later ∈ buffer.positions fuel position) :
    position ≤ later := by
  induction fuel generalizing position with
  | zero => simp [positions] at isItem
  | succ fuel ih =>
      rw [positions] at isItem
      split_ifs at isItem
      · rcases List.mem_cons.mp isItem with rfl | isLater
        · exact le_rfl
        · have isNext := advance_ge buffer position
          have header : buffer.oolPtr position = position + buffer.headerSize position := rfl
          have after := ih isLater
          omega
      · cases isItem

/-- An item ends before the next one begins. -/
theorem positions_follow : (buffer.positions fuel position).Pairwise fun first second =>
    buffer.advance first ≤ second := by
  induction fuel generalizing position with
  | zero => exact .nil
  | succ fuel ih =>
      rw [positions]
      split_ifs
      · exact List.pairwise_cons.mpr ⟨fun later isLater => positions_ge isLater, ih⟩
      · exact .nil

theorem elemsizeBits_eq
    (agree : buffer.Agree other position (buffer.oolPtr position)) :
    other.elemsizeBits position = buffer.elemsizeBits position := by
  have isPtr : buffer.oolPtr position = position + buffer.headerSize position := rfl
  have atLeast := buffer.headerSize_le position
  have sameWord := agree.word le_rfl (by omega)
  have sameForm : other.isLongform position = buffer.isLongform position := by
    rw [isLongform, isLongform, sameWord]
  rw [elemsizeBits, elemsizeBits, sameForm, sameWord]
  cases isLong : buffer.isLongform position with
  | false => rfl
  | true =>
      have isTwelve : buffer.headerSize position = 12 := by simp [headerSize, isLong]
      rw [if_pos rfl, if_pos rfl, agree.half (by omega) (by omega)]

/-- The iterator goes through two messages alike if their descriptors agree. -/
theorem positions_congr (size : other.msghSize = buffer.msghSize)
    (descriptors : ∀ item ∈ buffer.positions fuel position,
      buffer.Agree other item (buffer.oolPtr item)) :
    other.positions fuel position = buffer.positions fuel position := by
  induction fuel generalizing position with
  | zero => rfl
  | succ fuel ih =>
      rw [positions, positions, size]
      rw [positions] at descriptors
      split_ifs with within
      · rw [if_pos within] at descriptors
        have same : buffer.SameItem other position :=
          Agree.sameItem (descriptors position List.mem_cons_self)
        rw [same.advance, ih fun item itemMem => descriptors item (List.mem_cons_of_mem _ itemMem)]
      · rfl

theorem Tiles.congr (tiles : buffer.Tiles position) (small : buffer.msghSize ≤ maxSize)
    (size : other.msghSize = buffer.msghSize) (enough : buffer.msghSize ≤ position + fuel)
    (descriptors : ∀ item ∈ buffer.positions fuel position,
      buffer.Agree other item (buffer.oolPtr item)) : other.Tiles position := by
  induction tiles generalizing fuel with
  | done =>
      rw [← size]
      exact .done
  | @item position rest ih =>
      have isNext := advance_of_tiles small rest
      have header := buffer.headerSize_le position
      have within := rest.le
      cases fuel with
      | zero => omega
      | succ fuel =>
          rw [positions, if_pos (by omega)] at descriptors
          rw [← isNext] at ih
          have agree := descriptors position List.mem_cons_self
          have same : buffer.SameItem other position := Agree.sameItem agree
          have later := @ih fuel (by omega) fun item itemMem =>
            descriptors item (List.mem_cons_of_mem _ itemMem)
          have samePadded : other.paddedSize position = buffer.paddedSize position := by
            rw [paddedSize, paddedSize, same.nelems, elemsizeBits_eq agree]
          apply Tiles.item
          rw [same.headerSize, same.inline, samePadded, ← isNext]
          exact later

end Buffer

theorem Buffer.hasOOLdata_iff {buffer : Buffer} {position : ℕ} :
    buffer.hasOOLdata position = true ↔
      buffer.isInline position = false ∧ 0 < buffer.dataSize position := by
  simp [hasOOLdata]

theorem Buffer.SameItem.hasOOLdata {buffer other : Buffer} {position : ℕ}
    (same : buffer.SameItem other position) :
    other.hasOOLdata position = buffer.hasOOLdata position := by
  rw [Buffer.hasOOLdata, Buffer.hasOOLdata, same.inline, same.dataSize]

/-- `MACH_MSG_TYPE_PORT_NAME` and the types of rights -/
theorem Buffer.carriesPorts_iff {buffer : Buffer} {position : ℕ} :
    buffer.carriesPorts true position = true ↔
      TypeName.ofNumber (buffer.name position) ≠ .data := by
  rw [carriesPorts]
  generalize buffer.name position = number
  unfold msgTypePortName msgTypeMoveReceive msgTypeMakeSendOnce TypeName.ofNumber
  split <;> grind

namespace Outgoing

variable {message written : Outgoing} {positions : List ℕ} {position index : ℕ}

/-- The index is in the number of a port of one of the items, in the message or out of line. -/
def InPorts (message : Outgoing) (isInline : Bool) (positions : List ℕ) (index : ℕ) : Prop :=
  ∃ position ∈ positions, message.buffer.carriesPorts true position = true ∧
    message.buffer.isInline position = isInline ∧ message.dataPtr position ≤ index ∧
      index < message.dataPtr position + 4 * message.buffer.nelems position

/-- Nothing but the ports of some items has been written. -/
structure Rewrites (message written : Outgoing) (positions : List ℕ) : Prop where
  buffer : ∀ index, ¬message.InPorts true positions index →
    written.buffer index = message.buffer index
  memory : ∀ index, ¬message.InPorts false positions index →
    written.memory index = message.memory index

theorem Rewrites.refl (message : Outgoing) (positions : List ℕ) :
    message.Rewrites message positions :=
  ⟨fun _ _ => rfl, fun _ _ => rfl⟩

theorem Rewrites.mono (rewrites : message.Rewrites written positions) {more : List ℕ}
    (within : positions ⊆ more) : message.Rewrites written more := by
  constructor
  · intro index notIn
    apply rewrites.buffer
    rintro ⟨other, otherMem, holds⟩
    exact notIn ⟨other, within otherMem, holds⟩
  · intro index notIn
    apply rewrites.memory
    rintro ⟨other, otherMem, holds⟩
    exact notIn ⟨other, within otherMem, holds⟩

/-- Items in a message that do not overlap, with their ports in their data -/
structure Neat (message : Outgoing) (positions : List ℕ) : Prop where
  inBody : ∀ position ∈ positions, headerBytes ≤ position
  follow : ∀ first ∈ positions, ∀ second ∈ positions, first ≠ second →
    message.buffer.advance first ≤ second ∨ message.buffer.advance second ≤ first
  sized : ∀ position ∈ positions, message.buffer.carriesPorts true position = true →
    message.buffer.dataSize position = 4 * message.buffer.nelems position
  apart : ∀ first ∈ positions, ∀ second ∈ positions, first ≠ second →
    message.buffer.hasOOLdata first = true → message.buffer.hasOOLdata second = true →
      message.dataPtr first + message.buffer.dataSize first ≤ message.dataPtr second ∨
        message.dataPtr second + message.buffer.dataSize second ≤ message.dataPtr first

section Neat

variable {all : List ℕ}

/-- Where the ports of an item are in the message: behind its descriptor, before the next item. -/
theorem Neat.inline_bounds (neat : message.Neat all) (isItem : position ∈ all)
    (carries : message.buffer.carriesPorts true position = true)
    (isInline : message.buffer.isInline position = true) :
    message.dataPtr position = message.buffer.oolPtr position ∧
      message.buffer.oolPtr position + 4 * message.buffer.nelems position =
        message.buffer.advance position := by
  have sized := neat.sized position isItem carries
  refine ⟨by simp [dataPtr, isInline], ?_⟩
  rw [Buffer.advance, Buffer.oolPtr, if_pos isInline, sized, Nat.add_assoc]

/-- The ports in the message that an index of an item is in are those of this item. -/
theorem Neat.of_inPorts (neat : message.Neat all) (within : positions ⊆ all)
    (isItem : position ∈ all) (inPorts : message.InPorts true positions index)
    (isFrom : position ≤ index) (upTo : index < message.buffer.advance position) :
    position ∈ positions ∧ message.buffer.isInline position = true ∧
      message.buffer.oolPtr position ≤ index := by
  rcases inPorts with ⟨other, otherMem, carries, isInline, first, last⟩
  rcases neat.inline_bounds (within otherMem) carries isInline with ⟨isPtr, isEnd⟩
  have header : message.buffer.oolPtr other = other + message.buffer.headerSize other := rfl
  by_cases same : other = position
  · subst same
    exact ⟨otherMem, isInline, by omega⟩
  · rcases neat.follow other (within otherMem) position isItem same with before | after
    · omega
    · omega

theorem Rewrites.header (rewrites : message.Rewrites written positions) (neat : message.Neat all)
    (within : positions ⊆ all) (inHeader : index < headerBytes) :
    written.buffer index = message.buffer index := by
  apply rewrites.buffer
  rintro ⟨other, otherMem, carries, isInline, first, _⟩
  have inBody := neat.inBody other (within otherMem)
  have isPtr := (neat.inline_bounds (within otherMem) carries isInline).1
  have header : message.buffer.oolPtr other = other + message.buffer.headerSize other := rfl
  omega

theorem Rewrites.msghSize (rewrites : message.Rewrites written positions)
    (neat : message.Neat all) (within : positions ⊆ all) :
    written.buffer.msghSize = message.buffer.msghSize := by
  have agree : message.buffer.Agree written.buffer 0 headerBytes :=
    fun _ _ upTo => rewrites.header neat within upTo
  exact agree.msghSize

theorem Rewrites.descriptor (rewrites : message.Rewrites written positions)
    (neat : message.Neat all) (within : positions ⊆ all) (isItem : position ∈ all) :
    message.buffer.Agree written.buffer position (message.buffer.oolPtr position) := by
  intro index isFrom upTo
  apply rewrites.buffer
  intro inPorts
  have isNext := (advance_ge message.buffer position).1
  have isOwn := neat.of_inPorts within isItem inPorts isFrom (by omega)
  omega

theorem Rewrites.sameItem (rewrites : message.Rewrites written positions)
    (neat : message.Neat all) (within : positions ⊆ all) (isItem : position ∈ all) :
    message.buffer.SameItem written.buffer position :=
  Buffer.Agree.sameItem (rewrites.descriptor neat within isItem)

theorem Rewrites.dataPtr (rewrites : message.Rewrites written positions)
    (neat : message.Neat all) (within : positions ⊆ all) (isItem : position ∈ all) :
    written.dataPtr position = message.dataPtr position := by
  have same := rewrites.sameItem neat within isItem
  rw [Outgoing.dataPtr, Outgoing.dataPtr, same.inline, same.oolPtr]
  cases isInline : message.buffer.isInline position with
  | true => rfl
  | false =>
      have isNext := (advance_ge message.buffer position).2 isInline
      have header : message.buffer.oolPtr position =
        position + message.buffer.headerSize position := rfl
      have agree : message.buffer.Agree written.buffer (message.buffer.oolPtr position)
          (message.buffer.oolPtr position + 4) := by
        intro index isFrom upTo
        apply rewrites.buffer
        intro inPorts
        have isOwn := neat.of_inPorts within isItem inPorts (by omega) (by omega)
        rw [isInline] at isOwn
        cases isOwn.2.1
      rw [agree.word le_rfl le_rfl]

theorem Rewrites.slots (rewrites : message.Rewrites written positions)
    (neat : message.Neat all) (within : positions ⊆ all) (isItem : position ∈ all) :
    written.slots position = message.slots position := by
  rw [Outgoing.slots, Outgoing.slots, rewrites.dataPtr neat within isItem,
    (rewrites.sameItem neat within isItem).slots]

/-- The items that are not written to are what they were. -/
theorem Rewrites.item (rewrites : message.Rewrites written positions)
    (neat : message.Neat all) (within : positions ⊆ all) (isItem : position ∈ all)
    (elsewhere : position ∉ positions) : written.item position = message.item position := by
  have same := rewrites.sameItem neat within isItem
  rw [Outgoing.item, Outgoing.item, same.name, same.carriesPorts,
    rewrites.slots neat within isItem]
  by_cases carries : message.buffer.carriesPorts true position = true
  · rw [if_pos carries, if_pos carries]
    congr 1
    apply List.map_congr_left
    intro slot slotMem
    rcases Buffer.mem_slots.mp slotMem with ⟨element, isElement, rfl⟩
    rw [bytesOf, bytesOf, same.inline, Buffer.port, Buffer.port]
    congr 1
    cases isInline : message.buffer.isInline position with
    | true =>
        rcases neat.inline_bounds isItem carries isInline with ⟨isPtr, isEnd⟩
        have header : message.buffer.oolPtr position =
          position + message.buffer.headerSize position := rfl
        have agree : message.buffer.Agree written.buffer
            (message.dataPtr position + 4 * element)
            (message.dataPtr position + 4 * element + 4) := by
          intro index isFrom upTo
          apply rewrites.buffer
          intro inPorts
          exact elsewhere (neat.of_inPorts within isItem inPorts (by omega) (by omega)).1
        exact agree.word le_rfl le_rfl
    | false =>
        have agree : Buffer.Agree message.memory written.memory
            (message.dataPtr position + 4 * element)
            (message.dataPtr position + 4 * element + 4) := by
          intro index isFrom upTo
          apply rewrites.memory
          rintro ⟨other, otherMem, otherCarries, otherInline, first, last⟩
          have different : position ≠ other := by
            rintro rfl
            exact elsewhere otherMem
          have sized := neat.sized position isItem carries
          have otherSized := neat.sized other (within otherMem) otherCarries
          have apart := neat.apart position isItem other (within otherMem) different
            (Buffer.hasOOLdata_iff.mpr ⟨isInline, by omega⟩)
            (Buffer.hasOOLdata_iff.mpr ⟨otherInline, by omega⟩)
          omega
        exact agree.word le_rfl le_rfl
  · rw [if_neg carries, if_neg carries]

theorem Rewrites.inPorts (rewrites : message.Rewrites written positions)
    (neat : message.Neat all) (within : positions ⊆ all) {later : List ℕ} (laterWithin : later ⊆ all)
    (isInline : Bool) : written.InPorts isInline later index ↔ message.InPorts isInline later index := by
  have same : ∀ other ∈ later, (written.buffer.carriesPorts true other = true ∧
      written.buffer.isInline other = isInline ∧ written.dataPtr other ≤ index ∧
        index < written.dataPtr other + 4 * written.buffer.nelems other) ↔
      (message.buffer.carriesPorts true other = true ∧
        message.buffer.isInline other = isInline ∧ message.dataPtr other ≤ index ∧
        index < message.dataPtr other + 4 * message.buffer.nelems other) := by
    intro other otherMem
    have sameItem := rewrites.sameItem neat within (laterWithin otherMem)
    rw [sameItem.carriesPorts, sameItem.inline, sameItem.nelems,
      rewrites.dataPtr neat within (laterWithin otherMem)]
  constructor
  · rintro ⟨other, otherMem, holds⟩
    exact ⟨other, otherMem, (same other otherMem).mp holds⟩
  · rintro ⟨other, otherMem, holds⟩
    exact ⟨other, otherMem, (same other otherMem).mpr holds⟩

theorem Rewrites.neat (rewrites : message.Rewrites written positions)
    (neat : message.Neat all) (within : positions ⊆ all) : written.Neat all := by
  have same := fun {other} (otherMem : other ∈ all) => rewrites.sameItem neat within otherMem
  have samePtr := fun {other} (otherMem : other ∈ all) => rewrites.dataPtr neat within otherMem
  refine ⟨neat.inBody, ?_, ?_, ?_⟩
  · intro first firstMem second secondMem different
    rw [(same firstMem).advance, (same secondMem).advance]
    exact neat.follow first firstMem second secondMem different
  · intro other otherMem
    rw [(same otherMem).carriesPorts, (same otherMem).dataSize, (same otherMem).nelems]
    exact neat.sized other otherMem
  · intro first firstMem second secondMem different
    rw [(same firstMem).hasOOLdata, (same secondMem).hasOOLdata, (same firstMem).dataSize,
      (same secondMem).dataSize, samePtr firstMem, samePtr secondMem]
    exact neat.apart first firstMem second secondMem different

/-- Some items are written to, and then some others. -/
theorem Rewrites.trans {final : Outgoing} {later : List ℕ}
    (rewrites : message.Rewrites written positions) (rewritesLater : written.Rewrites final later)
    (neat : message.Neat all) (within : positions ⊆ all) (laterWithin : later ⊆ all) :
    message.Rewrites final (positions ++ later) := by
  have elsewhere : ∀ {isInline index}, ¬message.InPorts isInline (positions ++ later) index →
      ¬message.InPorts isInline positions index ∧ ¬written.InPorts isInline later index := by
    intro isInline index notIn
    rw [rewrites.inPorts neat within laterWithin]
    constructor
    · rintro ⟨other, otherMem, holds⟩
      exact notIn ⟨other, List.mem_append_left _ otherMem, holds⟩
    · rintro ⟨other, otherMem, holds⟩
      exact notIn ⟨other, List.mem_append_right _ otherMem, holds⟩
  constructor
  · intro index notIn
    rw [rewritesLater.buffer index (elsewhere notIn).2, rewrites.buffer index (elsewhere notIn).1]
  · intro index notIn
    rw [rewritesLater.memory index (elsewhere notIn).2, rewrites.memory index (elsewhere notIn).1]

end Neat

end Outgoing

end Hurd.Netmsg
