import Hurd.Lib.Block
import Hurd.Netmsg.Payload

/-!
# Out-of-line data on the way

`copyOOLdata` copies the out-of-line data of a message to memory of our own, item by item, and the
receiver of a message finds them where it has allocated room for them.  In both cases the message
is what it was but for its pointers, as long as no two pieces of memory that are in use overlap.
-/

namespace Hurd.Netmsg

namespace Outgoing

variable {message : Outgoing} {allocate : ℕ → ℕ} {position : ℕ}

/-- Where `vm_allocate` finds room for the out-of-line data of the items: no two places overlap. -/
structure HasRoom (message : Outgoing) (allocate : ℕ → ℕ) : Prop where
  bounded : ∀ position ∈ message.positions, message.buffer.hasOOLdata position = true →
    allocate position + message.buffer.dataSize position ≤ 2 ^ 32
  apart : ∀ first ∈ message.positions, ∀ second ∈ message.positions, first ≠ second →
    message.buffer.hasOOLdata first = true → message.buffer.hasOOLdata second = true →
      allocate first + message.buffer.dataSize first ≤ allocate second ∨
        allocate second + message.buffer.dataSize second ≤ allocate first

/-- What `vm_allocate` returns is not in use by the items that are still to be copied. -/
structure HasFreshRoom (message : Outgoing) (allocate : ℕ → ℕ) : Prop
    extends HasRoom message allocate where
  fresh : ∀ first ∈ message.positions, ∀ second ∈ message.positions, first ≤ second →
    message.buffer.hasOOLdata first = true → message.buffer.hasOOLdata second = true →
      allocate first + message.buffer.dataSize first ≤ message.dataPtr second ∨
        message.dataPtr second + message.buffer.dataSize second ≤ allocate first

theorem HasRoom.pointer (room : message.HasRoom allocate) (isItem : position ∈ message.positions)
    (has : message.buffer.hasOOLdata position = true) :
    allocate position % 2 ^ 32 = allocate position := by
  have bounded := room.bounded position isItem has
  have isPos := (Buffer.hasOOLdata_iff.mp has).2
  exact Nat.mod_eq_of_lt (by omega)

theorem HasRoom.of_same {other : Outgoing} (same : message.SameDescriptors other)
    (room : other.HasRoom allocate) : message.HasRoom allocate := by
  have samePositions := same.positions
  constructor
  · intro position isItem has
    have sameItem := same.sameItem isItem
    rw [← sameItem.dataSize]
    exact room.bounded position (samePositions ▸ isItem) (sameItem.hasOOLdata.trans has)
  · intro first isFirst second isSecond different firstHas secondHas
    have firstSame := same.sameItem isFirst
    have secondSame := same.sameItem isSecond
    rw [← firstSame.dataSize, ← secondSame.dataSize]
    exact room.apart first (samePositions ▸ isFirst) second (samePositions ▸ isSecond) different
      (firstSame.hasOOLdata.trans firstHas) (secondSame.hasOOLdata.trans secondHas)

/-- `copyOOLdata` between two items -/
structure Copied (message : Outgoing) (allocate : ℕ → ℕ) (done rest : List ℕ)
    (current : Outgoing) : Prop where
  buffer : ∀ index, (∀ position ∈ done, message.buffer.hasOOLdata position = true →
    index < message.buffer.oolPtr position ∨ message.buffer.oolPtr position + 4 ≤ index) →
      current.buffer index = message.buffer index
  pointer : ∀ position ∈ done, message.buffer.hasOOLdata position = true →
    current.buffer.word (message.buffer.oolPtr position) = allocate position
  copied : ∀ position ∈ done, message.buffer.hasOOLdata position = true →
    ∀ offset < message.buffer.dataSize position,
      current.memory (allocate position + offset) =
        message.memory (message.dataPtr position + offset)
  kept : ∀ position ∈ rest, message.buffer.hasOOLdata position = true →
    ∀ offset < message.buffer.dataSize position,
      current.memory (message.dataPtr position + offset) =
        message.memory (message.dataPtr position + offset)

section Copied

variable {done rest : List ℕ} {current : Outgoing}

theorem advance_le_of_done (isPositions : message.positions = done ++ position :: rest) {other : ℕ}
    (isDone : other ∈ done) : message.buffer.advance other ≤ position := by
  have follow : (done ++ position :: rest).Pairwise fun first second =>
      message.buffer.advance first ≤ second := isPositions ▸ Buffer.positions_follow
  exact (List.pairwise_append.mp follow).2.2 other isDone position List.mem_cons_self

theorem advance_le_of_rest (isPositions : message.positions = done ++ position :: rest) {other : ℕ}
    (isNext : other ∈ rest) : message.buffer.advance position ≤ other := by
  have follow : (done ++ position :: rest).Pairwise fun first second =>
      message.buffer.advance first ≤ second := isPositions ▸ Buffer.positions_follow
  exact (List.pairwise_cons.mp (List.pairwise_append.mp follow).2.1).1 other isNext

/-- The pointers of earlier items are before an item. -/
theorem Copied.agree (copied : Copied message allocate done (position :: rest) current)
    (isPositions : message.positions = done ++ position :: rest) {last : ℕ} :
    message.buffer.Agree current.buffer position last := by
  intro index isFrom _
  apply copied.buffer
  intro other otherMem has
  have before := advance_le_of_done isPositions otherMem
  have isNext := (advance_ge message.buffer other).2 (Buffer.hasOOLdata_iff.mp has).1
  exact .inr (by omega)

/-- `copyOOLdata` for one item -/
theorem Copied.step (copied : Copied message allocate done (position :: rest) current)
    (isPositions : message.positions = done ++ position :: rest)
    (room : message.HasFreshRoom allocate) :
    Copied message allocate (done ++ [position]) rest (current.copyItem allocate position) := by
  have memOf : ∀ other, other ∈ done ++ position :: rest → other ∈ message.positions :=
    fun other otherMem => isPositions ▸ otherMem
  have isItem := memOf position (by simp)
  have same : message.buffer.SameItem current.buffer position :=
    Buffer.Agree.sameItem (copied.agree isPositions)
  by_cases has : message.buffer.hasOOLdata position = true
  · have hasCurrent : current.buffer.hasOOLdata position = true := same.hasOOLdata.trans has
    have outOfLine := (Buffer.hasOOLdata_iff.mp has).1
    have isPtr : message.dataPtr position =
        message.buffer.word (message.buffer.oolPtr position) := by
      simp [dataPtr, outOfLine]
    have header := message.buffer.headerSize_le position
    have isDescriptor : message.buffer.oolPtr position =
      position + message.buffer.headerSize position := rfl
    have agree : message.buffer.Agree current.buffer position
      (message.buffer.oolPtr position + 4) := copied.agree isPositions
    have source : current.buffer.word (current.buffer.oolPtr position) =
        message.dataPtr position := by
      rw [same.oolPtr, isPtr]
      exact agree.word (by omega) le_rfl
    have isCopy : current.copyItem allocate position =
        { buffer := current.buffer.putWord (message.buffer.oolPtr position) (allocate position)
          memory := Block.copy current.memory (message.dataPtr position) current.memory
            (allocate position) (message.buffer.dataSize position) } := by
      rw [copyItem, if_pos hasCurrent]
      dsimp only
      rw [source, same.dataSize, same.oolPtr]
      rfl
    rw [isCopy]
    refine ⟨?_, ?_, ?_, ?_⟩
    · intro index outside
      have atPosition := outside position (by simp) has
      have elsewhere : current.buffer.putWord (message.buffer.oolPtr position) (allocate position)
          index = current.buffer index := by
        rcases atPosition with before | after
        · exact putWord_of_lt before
        · exact putWord_of_le after
      refine elsewhere.trans (copied.buffer index fun other otherMem => ?_)
      exact outside other (List.mem_append_left _ otherMem)
    · intro other otherMem otherHas
      rcases List.mem_append.mp otherMem with isDone | isLast
      · have before := advance_le_of_done isPositions isDone
        have isNext := (advance_ge message.buffer other).2 (Buffer.hasOOLdata_iff.mp otherHas).1
        rw [word_putWord_other _ _ (.inr (by omega))]
        exact copied.pointer other isDone otherHas
      · rw [List.mem_singleton.mp isLast, word_putWord, room.pointer isItem has]
    · intro other otherMem otherHas offset inside
      rcases List.mem_append.mp otherMem with isDone | isLast
      · have before := advance_le_of_done isPositions isDone
        have isNext := (advance_ge message.buffer other).1
        have isOther : message.buffer.oolPtr other =
          other + message.buffer.headerSize other := rfl
        have otherHeader := message.buffer.headerSize_le other
        have apart := room.apart other (memOf other (by simp [isDone])) position isItem (by omega)
          otherHas has
        refine (Block.copy_outside (by omega)).trans ?_
        exact copied.copied other isDone otherHas offset inside
      · rw [List.mem_singleton] at isLast
        subst isLast
        refine (Block.copy_inside inside).trans ?_
        exact copied.kept other List.mem_cons_self has offset inside
    · intro other otherMem otherHas offset inside
      have after := advance_le_of_rest isPositions otherMem
      have isNext := (advance_ge message.buffer position).1
      have fresh := room.fresh position isItem other (memOf other (by simp [otherMem]))
        (by omega) has otherHas
      refine (Block.copy_outside (by omega)).trans ?_
      exact copied.kept other (List.mem_cons_of_mem _ otherMem) otherHas offset inside
  · have isSame : current.copyItem allocate position = current := by
      rw [copyItem, if_neg]
      rwa [same.hasOOLdata]
    rw [isSame]
    have ofDone : ∀ {property : ℕ → Prop}, (∀ other ∈ done,
        message.buffer.hasOOLdata other = true → property other) →
          ∀ other ∈ done ++ [position], message.buffer.hasOOLdata other = true → property other := by
      intro property holds other otherMem otherHas
      rcases List.mem_append.mp otherMem with isDone | isLast
      · exact holds other isDone otherHas
      · exact absurd (List.mem_singleton.mp isLast ▸ otherHas) has
    refine ⟨?_, ofDone copied.pointer, ofDone copied.copied, ?_⟩
    · intro index outside
      exact copied.buffer index fun other otherMem =>
        outside other (List.mem_append_left _ otherMem)
    · exact fun other otherMem => copied.kept other (List.mem_cons_of_mem _ otherMem)

theorem Copied.foldl (copied : Copied message allocate done rest current)
    (isPositions : message.positions = done ++ rest) (room : message.HasFreshRoom allocate) :
    Copied message allocate message.positions [] (rest.foldl (copyItem allocate) current) := by
  induction rest generalizing done current with
  | nil =>
      rw [isPositions, List.append_nil]
      exact copied
  | cons position rest ih => exact ih (copied.step isPositions room) (by simp [isPositions])

end Copied

/-- All out-of-line data have been copied. -/
theorem copied_copyOOLdata (room : message.HasFreshRoom allocate) :
    Copied message allocate message.positions [] (message.copyOOLdata allocate) := by
  have start : Copied message allocate [] message.positions message :=
    ⟨fun _ _ => rfl, by simp, by simp, fun _ _ _ _ _ => rfl⟩
  exact start.foldl rfl room

theorem advance_le_of_tiles {buffer : Buffer} {fuel first : ℕ} (tiles : buffer.Tiles first)
    (small : buffer.msghSize ≤ maxSize) (isItem : position ∈ buffer.positions fuel first) :
    buffer.advance position ≤ buffer.msghSize := by
  induction tiles generalizing fuel with
  | done =>
      cases fuel <;> simp [Buffer.positions] at isItem
  | @item first rest ih =>
      have isNext := Buffer.advance_of_tiles small rest
      cases fuel with
      | zero => simp [Buffer.positions] at isItem
      | succ fuel =>
          rw [Buffer.positions] at isItem
          rw [← isNext] at ih rest
          split_ifs at isItem
          · rcases List.mem_cons.mp isItem with rfl | isLater
            · exact rest.le
            · exact ih isLater
          · cases isItem

/-- A message that is another one but for its pointers, with its out-of-line data in other places -/
structure Moved (message other : Outgoing) (allocate : ℕ → ℕ) : Prop where
  bytes : ∀ index < message.buffer.msghSize, ¬message.InPointer message.positions index →
    other.buffer index = message.buffer index
  pointer : ∀ position ∈ message.positions, message.buffer.hasOOLdata position = true →
    other.buffer.word (message.buffer.oolPtr position) = allocate position
  memory : ∀ position ∈ message.positions, message.buffer.hasOOLdata position = true →
    ∀ offset < message.buffer.dataSize position,
      other.memory (allocate position + offset) =
        message.memory (message.dataPtr position + offset)

theorem moved_copyOOLdata (room : message.HasFreshRoom allocate) :
    message.Moved (message.copyOOLdata allocate) allocate := by
  have copied := copied_copyOOLdata room
  refine ⟨?_, copied.pointer, copied.copied⟩
  intro index _ notIn
  apply copied.buffer
  intro position isItem has
  by_contra inside
  exact notIn ⟨position, isItem, (Buffer.hasOOLdata_iff.mp has).1, by omega, by omega⟩

section Moved

variable {other : Outgoing}

theorem Regular.within (regular : message.Regular) (isItem : position ∈ message.positions) :
    message.buffer.advance position ≤ message.buffer.msghSize :=
  advance_le_of_tiles regular.wellFormed.tiles regular.wellFormed.small isItem

theorem header_of_bytes (regular : message.Regular)
    (bytes : ∀ index < message.buffer.msghSize, ¬message.InPointer message.positions index →
      other.buffer index = message.buffer index) :
    message.buffer.Agree other.buffer 0 headerBytes := by
  intro index _ upTo
  apply bytes index (upTo.trans_le regular.wellFormed.atLeast)
  rintro ⟨position, isItem, _, isFrom, _⟩
  have inBody : headerBytes ≤ position := Buffer.positions_ge isItem
  have header : message.buffer.oolPtr position =
    position + message.buffer.headerSize position := rfl
  omega

/-- The pointers that an index of an item is in are those of this item. -/
theorem of_inPointer {index : ℕ} (isItem : position ∈ message.positions)
    (inPointer : message.InPointer message.positions index) (isFrom : position ≤ index)
    (upTo : index < message.buffer.advance position) :
    message.buffer.isInline position = false ∧ message.buffer.oolPtr position ≤ index := by
  rcases inPointer with ⟨pointing, pointingMem, outOfLine, first, last⟩
  have isNext := (advance_ge message.buffer pointing).2 outOfLine
  have header : message.buffer.oolPtr pointing =
    pointing + message.buffer.headerSize pointing := rfl
  by_cases same : pointing = position
  · subst same
    exact ⟨outOfLine, first⟩
  · rcases follow_of_mem pointingMem isItem same with before | after <;> omega

/-- The descriptors of a message are not in its pointers. -/
theorem sameDescriptors_of_bytes (regular : message.Regular)
    (bytes : ∀ index < message.buffer.msghSize, ¬message.InPointer message.positions index →
      other.buffer index = message.buffer index) : message.SameDescriptors other := by
  constructor
  · exact (header_of_bytes regular bytes).msghSize
  · intro position isItem index isFrom upTo
    have isNext := (advance_ge message.buffer position).1
    have inside := regular.within isItem
    apply bytes index (by omega)
    intro inPointer
    have isOwn := of_inPointer isItem inPointer isFrom (by omega)
    omega

theorem Moved.keepsData (moved : message.Moved other allocate) (regular : message.Regular) :
    message.KeepsData other fun _ => True := by
  have same := sameDescriptors_of_bytes regular moved.bytes
  refine ⟨same, ?_, ?_⟩
  · intro position isItem _ isInline offset inside
    have samePtr : other.dataPtr position = message.dataPtr position := by
      simp [dataPtr, (same.sameItem isItem).inline, (same.sameItem isItem).oolPtr, isInline]
    have isPtr : message.dataPtr position = message.buffer.oolPtr position := by
      simp [dataPtr, isInline]
    have isEnd : message.buffer.advance position =
        message.buffer.oolPtr position + message.buffer.dataSize position := by
      rw [Buffer.advance, if_pos isInline, Buffer.oolPtr, Nat.add_assoc]
    have header : message.buffer.oolPtr position =
      position + message.buffer.headerSize position := rfl
    have bounded := regular.within isItem
    rw [samePtr]
    apply moved.bytes _ (by omega)
    intro inPointer
    have isOwn := of_inPointer isItem inPointer (by omega) (by omega)
    exact absurd (isInline.symm.trans isOwn.1) (by decide)
  · intro position isItem _ outOfLine offset inside
    have has : message.buffer.hasOOLdata position = true :=
      Buffer.hasOOLdata_iff.mpr ⟨outOfLine, by omega⟩
    have isPtr : other.dataPtr position = allocate position := by
      rw [dataPtr, (same.sameItem isItem).inline, outOfLine, (same.sameItem isItem).oolPtr]
      exact moved.pointer position isItem has
    rw [isPtr]
    exact moved.memory position isItem has offset inside

theorem Moved.decode (moved : message.Moved other allocate) (regular : message.Regular) :
    other.decode = message.decode :=
  (moved.keepsData regular).decode regular (header_of_bytes regular moved.bytes)

theorem Moved.regular (moved : message.Moved other allocate) (regular : message.Regular) :
    other.Regular :=
  regular.of_same (moved.keepsData regular).same
    ((header_of_bytes regular moved.bytes).word (by decide) (by decide))

theorem Moved.neat (moved : message.Moved other allocate) (regular : message.Regular)
    (room : message.HasRoom allocate) : other.Neat other.positions := by
  have same := (moved.keepsData regular).same
  apply (moved.regular regular).neat
  rw [same.positions]
  intro first isFirst second isSecond different firstHas secondHas
  have firstSame := same.sameItem isFirst
  have secondSame := same.sameItem isSecond
  rw [firstSame.hasOOLdata] at firstHas
  rw [secondSame.hasOOLdata] at secondHas
  have isPtr : ∀ {position}, position ∈ message.positions →
      message.buffer.hasOOLdata position = true → other.dataPtr position = allocate position := by
    intro position isItem has
    rw [dataPtr, (same.sameItem isItem).inline, (Buffer.hasOOLdata_iff.mp has).1,
      (same.sameItem isItem).oolPtr]
    exact moved.pointer position isItem has
  rw [isPtr isFirst firstHas, isPtr isSecond secondHas, firstSame.dataSize, secondSame.dataSize]
  exact room.apart first isFirst second isSecond different firstHas secondHas

end Moved

end Outgoing

/-- A message that has been received, in the task that has received it -/
def Incoming.inTask (incoming : Incoming) (vacant : Vacant) (memory : Buffer) : Outgoing where
  buffer := incoming.msg
  memory := incoming.regions.foldl
    (fun memory entry => Buffer.fill memory (vacant.allocate entry.1) entry.2) memory

section Fill

variable {allocate : ℕ → ℕ} {entries : List (ℕ × List Byte)} {memory : Buffer}

theorem foldl_fill_outside {address : ℕ} (outside : ∀ entry ∈ entries,
    address < allocate entry.1 ∨ allocate entry.1 + entry.2.length ≤ address) :
    entries.foldl (fun memory entry => Buffer.fill memory (allocate entry.1) entry.2) memory address =
      memory address := by
  induction entries generalizing memory with
  | nil => rfl
  | cons entry rest ih =>
      rw [List.foldl_cons, ih fun other otherMem => outside other (List.mem_cons_of_mem _ otherMem)]
      exact Buffer.fill_outside (outside entry List.mem_cons_self)

/-- What has been filled in is found again, if no two pieces overlap. -/
theorem foldl_fill_inside {entry : ℕ × List Byte} {offset : ℕ} (isEntry : entry ∈ entries)
    (apart : ∀ first ∈ entries, ∀ second ∈ entries, first ≠ second →
      allocate first.1 + first.2.length ≤ allocate second.1 ∨
        allocate second.1 + second.2.length ≤ allocate first.1)
    (inside : offset < entry.2.length) :
    entries.foldl (fun memory entry => Buffer.fill memory (allocate entry.1) entry.2) memory
      (allocate entry.1 + offset) = entry.2.getD offset 0 := by
  induction entries generalizing memory with
  | nil => cases isEntry
  | cons head rest ih =>
      rw [List.foldl_cons]
      by_cases inRest : entry ∈ rest
      · apply ih inRest
        exact fun first firstMem second secondMem =>
          apart first (List.mem_cons_of_mem _ firstMem) second (List.mem_cons_of_mem _ secondMem)
      · have isHead : entry = head := by simpa [inRest] using isEntry
        subst isHead
        rw [foldl_fill_outside]
        · simp [Buffer.fill, inside]
        · intro other otherMem
          have different : entry ≠ other := by
            rintro rfl
            exact inRest otherMem
          have disjoint := apart entry List.mem_cons_self other (List.mem_cons_of_mem _ otherMem)
            different
          omega

end Fill

/-- What is received is the message that was sent, with its out-of-line data in another task. -/
theorem Outgoing.moved_inTask {message : Outgoing} {vacant : Vacant} {following rest : List Byte}
    {incoming : Incoming} (regular : message.Regular) (room : message.HasRoom vacant.allocate)
    (received : tcpReceive vacant (message.transmit ++ following) = some (incoming, rest))
    (memory : Buffer) :
    rest = following ∧ message.Moved (incoming.inTask vacant memory) vacant.allocate := by
  rcases regular.wellFormed.tcpReceive vacant following with
    ⟨other, isReceived, regions, inPlace, bytes⟩
  rw [received] at isReceived
  cases isReceived
  have isBuffer : (incoming.inTask vacant memory).buffer = incoming.buffer :=
    Incoming.msg_of_inPlace inPlace
  rw [← isBuffer] at bytes
  have same : message.SameDescriptors (incoming.inTask vacant memory) :=
    sameDescriptors_of_bytes regular bytes
  refine ⟨rfl, bytes, ?_, ?_⟩
  · intro position isItem has
    have sameItem := same.sameItem isItem
    have isPosition : position ∈ incoming.buffer.positions incoming.buffer.msghSize
        headerBytes := by
      rw [← same.positions, positions, isBuffer] at isItem
      exact isItem
    have pointed := ((tcpReceive_received received).pointed position isPosition
      (isBuffer ▸ sameItem.hasOOLdata.trans has)).1
    rw [room.pointer isItem has, ← isBuffer] at pointed
    rw [← sameItem.oolPtr]
    exact pointed
  · intro position isItem has offset inside
    have isEntry : ∀ entry, entry ∈ incoming.regions ↔ ∃ position ∈ message.positions,
        message.buffer.hasOOLdata position = true ∧
          entry = (position, message.data position (message.buffer.dataSize position)) := by
      intro entry
      rw [regions, List.mem_flatMap]
      refine exists_congr fun position => and_congr_right fun _ => ?_
      rw [transmitted]
      split_ifs with has <;> simp [has]
    have apart : ∀ first ∈ incoming.regions, ∀ second ∈ incoming.regions, first ≠ second →
        vacant.allocate first.1 + first.2.length ≤ vacant.allocate second.1 ∨
          vacant.allocate second.1 + second.2.length ≤ vacant.allocate first.1 := by
      intro first firstMem second secondMem different
      rcases (isEntry first).mp firstMem with ⟨firstPosition, isFirst, firstHas, rfl⟩
      rcases (isEntry second).mp secondMem with ⟨secondPosition, isSecond, secondHas, rfl⟩
      rw [length_data, length_data]
      apply room.apart firstPosition isFirst secondPosition isSecond _ firstHas secondHas
      rintro rfl
      exact different rfl
    have found := @foldl_fill_inside vacant.allocate incoming.regions memory _ offset
      ((isEntry _).mpr ⟨position, isItem, has, rfl⟩) apart (by rw [length_data]; exact inside)
    refine found.trans ?_
    have outOfLine := (Buffer.hasOOLdata_iff.mp has).1
    simp [data, inside, dataPtr, outOfLine]

end Hurd.Netmsg
