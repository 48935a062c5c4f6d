import Hurd.Netmsg.Accesses
import Hurd.Netmsg.Walking

/-!
# The loops over the items

The loops of `transmitOOLdata`, `receiveOOLdata` and `translateMessage` in natural numbers are those
of the iterator in memory: they come to the same items, in the same states.  So a quarter of
`msgh_size` passes are enough for each of them.
-/

namespace Hurd.Netmsg

namespace Buffer

/-- The message in memory -/
def placedAt (buffer : Buffer) (hdr : Address) : Memory := fun address => buffer (address - hdr).toNat

variable {buffer : Buffer} {hdr : Address}

theorem bufferAt_placedAt {index : ℕ} (addressable : index < 2 ^ 32) :
    (buffer.placedAt hdr).bufferAt hdr index = buffer index := by
  change buffer (hdr + BitVec.ofNat 32 index - hdr).toNat = buffer index
  rw [add_sub_cancel_left, BitVec.toNat_ofNat, Nat.mod_eq_of_lt addressable]

theorem agree_placedAt : buffer.Agree ((buffer.placedAt hdr).bufferAt hdr) 0 (2 ^ 32) :=
  fun _ _ addressable => bufferAt_placedAt addressable

theorem msghSize_placedAt : ((buffer.placedAt hdr).bufferAt hdr).msghSize = buffer.msghSize :=
  agree_placedAt.word (by decide) (by decide)

theorem advance_placedAt {position : ℕ} (addressable : position + 12 ≤ 2 ^ 32) :
    ((buffer.placedAt hdr).bufferAt hdr).advance position = buffer.advance position := by
  have header := buffer.headerSize_le position
  have same : buffer.SameItem ((buffer.placedAt hdr).bufferAt hdr) position :=
    Agree.sameItem fun index _ upTo => bufferAt_placedAt (by omega)
  exact same.advance

/-- An item is stepped over in the same way wherever the buffer is taken to begin. -/
theorem advance_shifted (buffer : Buffer) (first : ℕ) :
    first + Buffer.advance (fun index => buffer (first + index)) 0 = buffer.advance first := by
  simp [advance, headerSize, isInline, isLongform, dataSize, nelems, elemsizeBits, word, half,
    Nat.add_assoc]

end Buffer

theorem Memory.bufferAt_add (memory : Memory) (hdr : Address) (position : ℕ) :
    memory.bufferAt (hdr + BitVec.ofNat 32 position) =
      fun index => memory.bufferAt hdr (position + index) := by
  funext index
  rw [Memory.bufferAt, Memory.bufferAt, BitVec.ofNat_add, BitVec.add_assoc]

/-- Going forward in memory is going forward in the buffer. -/
theorem MachMsgIterator.Forward.advance {memory : Memory} {iterator : MachMsgIterator}
    (forward : iterator.Forward memory) :
    (iterator.advance memory).offset =
      (memory.bufferAt iterator.hdr).advance iterator.offset.toNat := by
  have inBody := forward.inBody
  have notNegative : 0 ≤ iterator.offset := by omega
  have isAt : iterator.ptr = iterator.hdr + BitVec.ofNat 32 iterator.offset.toNat :=
    Pointer.eq_add_offset notNegative
  have step : (iterator.step memory).toNat = (memory.bufferAt iterator.ptr).advance 0 :=
    MachMsgIterator.toNat_step
  rw [isAt, Memory.bufferAt_add] at step
  have shifted := Buffer.advance_shifted (memory.bufferAt iterator.hdr) iterator.offset.toNat
  rw [forward.forward, step]
  omega

/-- A loop over the items of a message, in natural numbers -/
structure ItemLoop (σ β : Type) where
  buffer : σ → Buffer
  body : ℕ → σ → σ
  /-- what a pass adds to the result of those after it -/
  emit : ℕ → σ → β → β
  done : σ → β

namespace ItemLoop

variable {σ β : Type} (loop : ItemLoop σ β)

def run : ℕ → ℕ → σ → β
  | 0, _, state => loop.done state
  | fuel + 1, position, state =>
      if position < (loop.buffer state).msghSize then
        let left := loop.body position state
        loop.emit position state (run fuel ((loop.buffer left).advance position) left)
      else loop.done state

/-- The same loop on a message in memory -/
def walk (hdr : Address) (state : σ) : Walk σ where
  hdr := hdr
  memory := fun state => (loop.buffer state).placedAt hdr
  body := fun iterator => loop.body iterator.offset.toNat
  state := state

/-- No body writes to the header. -/
def KeepsSize : Prop :=
  ∀ position state, headerBytes ≤ position →
    (loop.buffer (loop.body position state)).msghSize = (loop.buffer state).msghSize

variable {loop : ItemLoop σ β} {hdr : Address} {state : σ}

theorem size_walk (passes : ℕ) :
    (loop.walk hdr state).size passes =
      (loop.buffer ((loop.walk hdr state).after passes).2).msghSize :=
  Buffer.msghSize_placedAt

section Small

variable (keepsSize : loop.KeepsSize) (small : (loop.buffer state).msghSize ≤ maxSize)

include keepsSize small

theorem size_of_reaches {passes : ℕ} (reaches : (loop.walk hdr state).Reaches passes) :
    headerBytes ≤ ((loop.walk hdr state).ptr passes).offset ∧
      (loop.walk hdr state).size passes = (loop.buffer state).msghSize := by
  induction passes with
  | zero => exact ⟨(MachMsgIterator.offset_start hdr).ge, size_walk 0⟩
  | succ passes ih =>
      rcases ih reaches.before with ⟨inBody, sameSize⟩
      have step := Walk.forward_of_goesOn (sameSize.trans_le small) reaches.goesOn inBody
      have forward := step.forward
      have kept := keepsSize ((loop.walk hdr state).ptr passes).offset.toNat
        ((loop.walk hdr state).after passes).2 (by omega)
      constructor
      · rw [Walk.ptr_succ, forward]
        omega
      · rw [size_walk] at sameSize ⊢
        exact kept.trans sameSize

theorem walk_stops (hdr : Address) :
    ∃ passes ≤ (loop.buffer state).msghSize / 4, (loop.walk hdr state).goesOn passes = false ∧
      (loop.walk hdr state).Reaches passes :=
  Walk.stops small fun _ reaches => (size_of_reaches keepsSize small reaches).2.le

/-- The loop and its walk through memory come to the same position. -/
theorem position_succ {passes : ℕ} (reaches : (loop.walk hdr state).Reaches (passes + 1)) :
    ((loop.walk hdr state).ptr (passes + 1)).offset.toNat =
      (loop.buffer ((loop.walk hdr state).after (passes + 1)).2).advance
        ((loop.walk hdr state).ptr passes).offset.toNat := by
  rcases size_of_reaches keepsSize small reaches.before with ⟨inBody, sameSize⟩
  have isSmall := sameSize.trans_le small
  have inside := (Walk.goesOn_iff isSmall).mp reaches.goesOn
  have bound : (loop.walk hdr state).size passes ≤ 4096 := isSmall
  have forward := (Walk.forward_of_goesOn isSmall reaches.goesOn inBody).advance
  rw [Walk.ptr_succ, forward, Walk.hdr_ptr, Int.toNat_natCast]
  apply Buffer.advance_placedAt
  omega

theorem goesOn_iff_position {passes : ℕ} (reaches : (loop.walk hdr state).Reaches passes) :
    (loop.walk hdr state).goesOn passes = true ↔
      ((loop.walk hdr state).ptr passes).offset.toNat <
        (loop.buffer ((loop.walk hdr state).after passes).2).msghSize := by
  rcases size_of_reaches keepsSize small reaches with ⟨inBody, sameSize⟩
  rw [Walk.goesOn_iff (sameSize.trans_le small), size_walk]
  omega

/-- From any pass on, the loop results in what the passes of its walk through memory add. -/
theorem run_eq_walk {remaining passes fuel : ℕ}
    (reaches : (loop.walk hdr state).Reaches (passes + remaining))
    (ends : (loop.walk hdr state).goesOn (passes + remaining) = false)
    (enough : remaining ≤ fuel) :
    loop.run fuel ((loop.walk hdr state).ptr passes).offset.toNat
        ((loop.walk hdr state).after passes).2 =
      (List.range' passes remaining).foldr
        (fun pass => loop.emit ((loop.walk hdr state).ptr pass).offset.toNat
          ((loop.walk hdr state).after pass).2)
        (loop.done ((loop.walk hdr state).after (passes + remaining)).2) := by
  induction remaining generalizing passes fuel with
  | zero =>
      have atEnd := (goesOn_iff_position keepsSize small reaches).not.mp (by simpa using ends)
      cases fuel with
      | zero => rfl
      | succ fuel => exact if_neg atEnd
  | succ remaining ih =>
      have isBefore : (loop.walk hdr state).Reaches (passes + 1) :=
        fun pass isEarlier => reaches pass (by omega)
      have inside := (goesOn_iff_position keepsSize small isBefore.before).mp isBefore.goesOn
      have nextPosition := position_succ keepsSize small isBefore
      rw [← Nat.add_assoc, Nat.add_right_comm] at reaches ends
      cases fuel with
      | zero => omega
      | succ fuel =>
          have rest := ih reaches ends (Nat.le_of_succ_le_succ enough)
          rw [nextPosition] at rest
          rw [run, if_pos inside, List.range'_succ, List.foldr_cons, ← Nat.add_assoc,
            Nat.add_right_comm]
          exact congrArg _ rest

/-- More passes than a quarter of `msgh_size` never change the result. -/
theorem run_enough {fuel : ℕ} (enough : (loop.buffer state).msghSize / 4 ≤ fuel) :
    loop.run fuel headerBytes state =
      loop.run ((loop.buffer state).msghSize / 4) headerBytes state := by
  rcases walk_stops keepsSize small 0 with ⟨passes, within, ends, reaches⟩
  have isStart : ((loop.walk 0 state).ptr 0).offset.toNat = headerBytes := by
    rw [Walk.ptr]
    exact congrArg Int.toNat (MachMsgIterator.offset_start 0)
  rw [← Nat.zero_add passes] at ends reaches
  have all := @run_eq_walk _ _ _ 0 _ keepsSize small _ 0 fuel reaches ends (within.trans enough)
  have fewest := @run_eq_walk _ _ _ 0 _ keepsSize small _ 0 _ reaches ends within
  rw [isStart] at all fewest
  exact all.trans fewest.symm

end Small

end ItemLoop

section TransmitOOLdata

/-- The loop of `transmitOOLdata`, by the items that it comes to -/
def positionLoop : ItemLoop Buffer (List ℕ) where
  buffer := fun buffer => buffer
  body := fun _ buffer => buffer
  emit := fun position _ rest => position :: rest
  done := fun _ => []

variable {buffer : Buffer} {fuel : ℕ}

theorem positions_eq_run (position : ℕ) :
    buffer.positions fuel position = positionLoop.run fuel position buffer := by
  induction fuel generalizing position with
  | zero => rfl
  | succ fuel ih =>
      rw [Buffer.positions, ih]
      rfl

theorem length_positions_le (position : ℕ) : (buffer.positions fuel position).length ≤ fuel := by
  induction fuel generalizing position with
  | zero => exact le_rfl
  | succ fuel ih =>
      rw [Buffer.positions]
      split_ifs
      · exact Nat.succ_le_succ (ih _)
      · exact Nat.zero_le _

theorem transmitOOLdata_passes {message : Outgoing} (small : message.buffer.msghSize ≤ maxSize) :
    message.positions.length ≤ message.buffer.msghSize / 4 := by
  have enough : positionLoop.run message.buffer.msghSize headerBytes message.buffer =
      positionLoop.run (message.buffer.msghSize / 4) headerBytes message.buffer :=
    ItemLoop.run_enough (fun _ _ _ => rfl) small (Nat.div_le_self _ 4)
  rw [← positions_eq_run, ← positions_eq_run] at enough
  rw [Outgoing.positions, enough]
  exact length_positions_le _

end TransmitOOLdata

section ReceiveOOLdata

variable (allocate : ℕ → ℕ)

/-- The loop of `receiveOOLdata` -/
def receiveLoop : ItemLoop (Incoming × List Byte) (Incoming × List Byte) where
  buffer := fun received => received.1.buffer
  body := fun position (message, stream) => message.receiveItem allocate position stream
  emit := fun _ _ rest => rest
  done := id

theorem receiveLoop_keepsSize : (receiveLoop allocate).KeepsSize := by
  intro position received inBody
  rcases received with ⟨message, stream⟩
  have header := message.buffer.headerSize_le position
  have isPtr : message.buffer.oolPtr position = position + message.buffer.headerSize position := rfl
  have kept : (message.buffer.putWord (message.buffer.oolPtr position) (allocate position)).msghSize =
      message.buffer.msghSize :=
    msghSize_putWord (by omega)
  change (message.receiveItem allocate position stream).1.buffer.msghSize = _
  rw [Incoming.receiveItem]
  by_cases has : message.buffer.hasOOLdata position = true
  · rw [if_pos has]
    exact kept
  · rw [if_neg has]
    rfl

theorem receiveOOLdata_eq_run {fuel : ℕ} (position : ℕ) (message : Incoming) (stream : List Byte) :
    receiveOOLdata allocate fuel position message stream =
      (receiveLoop allocate).run fuel position (message, stream) := by
  induction fuel generalizing position message stream with
  | zero => rfl
  | succ fuel ih =>
      rw [receiveOOLdata, ItemLoop.run]
      simp only [ih]
      rfl

/-- `receiveOOLdata` is through with a message after a quarter of `msgh_size` passes at most. -/
theorem receiveOOLdata_passes {message : Incoming} {fuel : ℕ} (stream : List Byte)
    (small : message.buffer.msghSize ≤ maxSize) (enough : message.buffer.msghSize / 4 ≤ fuel) :
    receiveOOLdata allocate fuel headerBytes message stream =
      receiveOOLdata allocate (message.buffer.msghSize / 4) headerBytes message stream := by
  rw [receiveOOLdata_eq_run, receiveOOLdata_eq_run]
  have keepsSize := receiveLoop_keepsSize allocate
  exact @ItemLoop.run_enough _ _ _ (message, stream) keepsSize small _ enough

end ReceiveOOLdata

section TranslateMessage

variable (translatePortNames : Bool)

/-- The loop of `translateMessage`, which a failed pass ends -/
def translateLoop : ItemLoop (Outgoing × Session) (Option (Outgoing × Session)) where
  buffer := fun state => state.1.buffer
  body := fun position state =>
    (Bytewise.translateItem translatePortNames position state.1 state.2).getD state
  emit := fun position state rest =>
    (Bytewise.translateItem translatePortNames position state.1 state.2).bind fun _ => rest
  done := some

theorem translateLoop_keepsSize : (translateLoop translatePortNames).KeepsSize := by
  intro position state inBody
  rcases state with ⟨message, session⟩
  change ((Bytewise.translateItem translatePortNames position message session).getD
    (message, session)).1.buffer.msghSize = message.buffer.msghSize
  cases translated : Bytewise.translateItem translatePortNames position message session with
  | none => rfl
  | some result => exact Bytewise.translateItem_msghSize inBody translated

theorem forItems_eq_run {fuel : ℕ} (position : ℕ) (message : Outgoing) (session : Session) :
    Bytewise.forItems (Bytewise.translateItem translatePortNames) fuel position message session =
      (translateLoop translatePortNames).run fuel position (message, session) := by
  induction fuel generalizing position message session with
  | zero => rfl
  | succ fuel ih =>
      rw [Bytewise.forItems, ItemLoop.run]
      simp only [ih, translateLoop]
      cases Bytewise.translateItem translatePortNames position message session <;> rfl

/-- `translateMessage` too is through with a message after a quarter of `msgh_size` passes at most. -/
theorem translateMessage_passes {message : Outgoing} {session : Session} {fuel : ℕ}
    (small : message.buffer.msghSize ≤ maxSize) (enough : message.buffer.msghSize / 4 ≤ fuel) :
    Bytewise.forItems (Bytewise.translateItem translatePortNames) fuel headerBytes message session =
      Bytewise.forItems (Bytewise.translateItem translatePortNames) (message.buffer.msghSize / 4)
        headerBytes message session := by
  rw [forItems_eq_run, forItems_eq_run]
  have keepsSize := translateLoop_keepsSize translatePortNames
  exact @ItemLoop.run_enough _ _ _ (message, session) keepsSize small _ enough

end TranslateMessage

end Hurd.Netmsg
