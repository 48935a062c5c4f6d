import Hurd.Lib.Pointer
import Hurd.Lib.Transition
import Hurd.Netmsg.PortSlots

/-!
# Walking a message

`mach_msg_iterator` is a pointer into memory.  Its steps are sums and products of what it finds there,
in `unsigned int`, and its end test compares a signed difference of pointers with `msgh_size`.  No
step is shorter than a descriptor or longer than the largest rounded size, which is 2 ^ 29, so that the
difference never wraps around.
-/

namespace Hurd.Netmsg

namespace Buffer

variable (buffer : Buffer) (position : ℕ)

/-- However the product wraps around, the rounded size is at most 2 ^ 29. -/
theorem dataSize_le : buffer.dataSize position ≤ 2 ^ 29 := by
  unfold dataSize
  dsimp only
  omega

/-- No step is shorter than a descriptor, and none longer than the largest item. -/
theorem advance_bounds :
    position + 4 ≤ buffer.advance position ∧ buffer.advance position ≤ position + (2 ^ 29 + 12) := by
  have header := buffer.headerSize_le position
  have data := buffer.dataSize_le position
  unfold advance
  split_ifs <;> omega

end Buffer

/-- An address of the task -/
abbrev Address := BitVec 32

/-- The memory of the task -/
abbrev Memory := Address → Byte

/-- The bytes from an address on -/
def Memory.bufferAt (memory : Memory) (address : Address) : Buffer :=
  fun index => memory (address + BitVec.ofNat 32 index)

/-- `class mach_msg_iterator` -/
structure MachMsgIterator where
  hdr : Address
  ptr : Address

namespace MachMsgIterator

/-- `mach_msg_iterator (hdr)`: the first item follows the header. -/
def start (hdr : Address) : MachMsgIterator :=
  { hdr := hdr, ptr := hdr + BitVec.ofNat 32 headerBytes }

section Members

variable (memory : Memory) (iterator : MachMsgIterator)

/-- `hdr->msgh_size` -/
def msghSize : BitVec 32 := BitVec.ofNat 32 (memory.bufferAt iterator.hdr).msghSize

/-- `operator bool` -/
def valid : Bool := (iterator.ptr - iterator.hdr).slt (iterator.msghSize memory)

/-- `is_inline ()` -/
def isInline : Bool := (memory.bufferAt iterator.ptr).isInline 0

/-- `header_size ()` -/
def headerSize : BitVec 32 := if (memory.bufferAt iterator.ptr).isLongform 0 then 12 else 4

/-- `nelems ()` -/
def nelems : BitVec 32 := BitVec.ofNat 32 ((memory.bufferAt iterator.ptr).nelems 0)

/-- `elemsize_bits ()` -/
def elemsizeBits : BitVec 32 := BitVec.ofNat 32 ((memory.bufferAt iterator.ptr).elemsizeBits 0)

/-- `data_size ()` -/
def dataSize : BitVec 32 :=
  let dataLength := (iterator.nelems memory * iterator.elemsizeBits memory + 7) / 8
  (dataLength + 4 - 1) / 4 * 4

/-- What `operator++` adds to the pointer -/
def step : BitVec 32 :=
  iterator.headerSize memory + if iterator.isInline memory then iterator.dataSize memory else 4

/-- `operator++` -/
def advance : MachMsgIterator := { iterator with ptr := iterator.ptr + iterator.step memory }

/-- How far the iterator is into the message -/
def offset : ℤ := Pointer.offset iterator.hdr iterator.ptr

end Members

section Step

variable {memory : Memory} {iterator : MachMsgIterator}

theorem toNat_headerSize :
    (iterator.headerSize memory).toNat = (memory.bufferAt iterator.ptr).headerSize 0 := by
  unfold headerSize Buffer.headerSize
  split_ifs <;> rfl

/-- The words of the iterator are the numbers of the buffer at its pointer. -/
theorem toNat_dataSize :
    (iterator.dataSize memory).toNat = (memory.bufferAt iterator.ptr).dataSize 0 := by
  unfold dataSize Buffer.dataSize nelems elemsizeBits
  generalize (memory.bufferAt iterator.ptr).nelems 0 = count
  generalize (memory.bufferAt iterator.ptr).elemsizeBits 0 = bits
  have product : (BitVec.ofNat 32 count * BitVec.ofNat 32 bits).toNat = count * bits % 2 ^ 32 := by
    simp
  generalize BitVec.ofNat 32 count * BitVec.ofNat 32 bits = wrapped at product
  generalize count * bits = whole at product
  simp [BitVec.toNat_sub, BitVec.toNat_add, BitVec.toNat_mul, product]
  omega

/-- `operator++` adds what it adds in a message at 0. -/
theorem toNat_step :
    (iterator.step memory).toNat = (memory.bufferAt iterator.ptr).advance 0 := by
  have header := (memory.bufferAt iterator.ptr).headerSize_le 0
  have data := (memory.bufferAt iterator.ptr).dataSize_le 0
  unfold step Buffer.advance isInline
  rw [BitVec.toNat_add, toNat_headerSize, Nat.zero_add]
  split_ifs
  · rw [toNat_dataSize]
    apply Nat.mod_eq_of_lt
    omega
  · apply Nat.mod_eq_of_lt
    simp
    omega

theorem offset_start (hdr : Address) : (start hdr).offset = headerBytes :=
  Pointer.offset_start (by decide)

/-- `operator bool` compares the offset with the size, as long as the size is not too large. -/
theorem valid_iff (small : (memory.bufferAt iterator.hdr).msghSize ≤ maxSize) :
    iterator.valid memory = true ↔ iterator.offset < (memory.bufferAt iterator.hdr).msghSize := by
  have bound : (memory.bufferAt iterator.hdr).msghSize ≤ 4096 := small
  have isNat : (iterator.msghSize memory).toNat = (memory.bufferAt iterator.hdr).msghSize := by
    unfold msghSize
    rw [BitVec.toNat_ofNat]
    apply Nat.mod_eq_of_lt
    omega
  have isInt : (iterator.msghSize memory).toInt = (memory.bufferAt iterator.hdr).msghSize := by
    rw [BitVec.toInt_eq_toNat_of_lt (by omega), isNat]
  unfold valid offset Pointer.offset
  rw [BitVec.slt_iff_toInt_lt, isInt]

end Step

/-- From where it is, `operator++` goes forward in the message. -/
structure Forward (memory : Memory) (iterator : MachMsgIterator) : Prop where
  inBody : headerBytes ≤ iterator.offset
  atLeast : 4 ≤ (iterator.step memory).toNat
  forward : (iterator.advance memory).offset = iterator.offset + (iterator.step memory).toNat
  short : (iterator.advance memory).offset < 2 ^ 30

/-- Inside of the message a step does not wrap around. -/
theorem forward_of_inside {memory : Memory} {iterator : MachMsgIterator}
    (inBody : headerBytes ≤ iterator.offset) (inside : iterator.offset < maxSize) :
    iterator.Forward memory := by
  have bounds := (memory.bufferAt iterator.ptr).advance_bounds 0
  rw [← toNat_step] at bounds
  have isInBody : 24 ≤ iterator.offset := inBody
  have isInside : iterator.offset < 4096 := inside
  have forward : (iterator.advance memory).offset =
      iterator.offset + (iterator.step memory).toNat := by
    apply Pointer.offset_add (by omega : 0 ≤ iterator.offset)
    change 2 * (iterator.offset + ((iterator.step memory).toNat : ℤ)) < 2 ^ 32
    omega
  exact ⟨inBody, by omega, forward, by omega⟩

end MachMsgIterator

/-- `for (auto ptr = msg.data(); ptr; ++ ptr)`, with some body -/
structure Walk (σ : Type) where
  hdr : Address
  memory : σ → Memory
  body : MachMsgIterator → σ → σ
  state : σ

namespace Walk

variable {σ : Type} (walk : Walk σ)

/-- The iterator and the state after so many passes.  `++` reads what the body has left. -/
def after : ℕ → MachMsgIterator × σ
  | 0 => (.start walk.hdr, walk.state)
  | passes + 1 =>
      let (iterator, state) := after passes
      let left := walk.body iterator state
      (iterator.advance (walk.memory left), left)

/-- The iterator after so many passes -/
def ptr (passes : ℕ) : MachMsgIterator := (walk.after passes).1

/-- What the memory holds after so many passes -/
def found (passes : ℕ) : Memory := walk.memory (walk.after passes).2

/-- The test after so many passes -/
def goesOn (passes : ℕ) : Bool := (walk.ptr passes).valid (walk.found passes)

/-- `msgh_size`, which a body may write to -/
def size (passes : ℕ) : ℕ := ((walk.found passes).bufferAt walk.hdr).msghSize

/-- The loop comes to the test after so many passes. -/
def Reaches (passes : ℕ) : Prop := ∀ pass < passes, walk.goesOn pass = true

variable {walk : Walk σ}

theorem hdr_ptr (passes : ℕ) : (walk.ptr passes).hdr = walk.hdr := by
  induction passes with
  | zero => rfl
  | succ passes ih => exact ih

theorem ptr_succ (passes : ℕ) :
    walk.ptr (passes + 1) = (walk.ptr passes).advance (walk.found (passes + 1)) := rfl

theorem Reaches.before {passes : ℕ} (reaches : walk.Reaches (passes + 1)) : walk.Reaches passes :=
  fun pass isBefore => reaches pass (isBefore.trans (Nat.lt_succ_self passes))

theorem Reaches.goesOn {passes : ℕ} (reaches : walk.Reaches (passes + 1)) :
    walk.goesOn passes = true := reaches passes (Nat.lt_succ_self passes)

/-- The loop goes on as long as the iterator is before the end of the message. -/
theorem goesOn_iff {passes : ℕ} (small : walk.size passes ≤ maxSize) :
    walk.goesOn passes = true ↔ (walk.ptr passes).offset < walk.size passes := by
  have isSize : walk.size passes = ((walk.found passes).bufferAt (walk.ptr passes).hdr).msghSize := by
    rw [walk.hdr_ptr passes, Walk.size]
  rw [isSize] at small ⊢
  exact MachMsgIterator.valid_iff small

theorem forward_of_goesOn {passes : ℕ} (small : walk.size passes ≤ maxSize)
    (goesOn : walk.goesOn passes = true) (inBody : headerBytes ≤ (walk.ptr passes).offset) :
    (walk.ptr passes).Forward (walk.found (passes + 1)) := by
  have isInside := (goesOn_iff small).mp goesOn
  apply MachMsgIterator.forward_of_inside inBody
  omega

section Bounded

variable {size : ℕ} (small : size ≤ maxSize)
  (sizes : ∀ passes, walk.Reaches passes → walk.size passes ≤ size)

include small sizes

/-- Every pass takes the iterator four bytes further at least. -/
theorem offset_of_reaches {passes : ℕ} (reaches : walk.Reaches passes) :
    headerBytes + 4 * passes ≤ (walk.ptr passes).offset := by
  induction passes with
  | zero => exact (MachMsgIterator.offset_start walk.hdr).ge
  | succ passes ih =>
      have before := ih reaches.before
      have isSmall := (sizes passes reaches.before).trans small
      have step := forward_of_goesOn isSmall reaches.goesOn (by omega)
      have forward := step.forward
      have atLeast := step.atLeast
      rw [ptr_succ, forward]
      omega

theorem forward_of_reaches {passes : ℕ} (reaches : walk.Reaches (passes + 1)) :
    (walk.ptr passes).Forward (walk.found (passes + 1)) := by
  have before := offset_of_reaches small sizes reaches.before
  have isSmall := (sizes passes reaches.before).trans small
  exact forward_of_goesOn isSmall reaches.goesOn (by omega)

/-- There are no more passes than the message has words. -/
theorem passes_le {passes : ℕ} (reaches : walk.Reaches passes) : passes ≤ size / 4 := by
  cases passes with
  | zero => exact Nat.zero_le _
  | succ passes =>
      have before := offset_of_reaches small sizes reaches.before
      have isSize := sizes passes reaches.before
      have inside := (goesOn_iff (isSize.trans small)).mp reaches.goesOn
      have header : headerBytes = 24 := rfl
      omega

theorem stops : ∃ passes ≤ size / 4, walk.goesOn passes = false ∧ walk.Reaches passes := by
  rcases Loop.ends_within fun _ reaches => passes_le small sizes reaches with
    ⟨passes, within, ends, reaches⟩
  exact ⟨passes, within, Bool.eq_false_of_not_eq_true ends, reaches⟩

end Bounded

/--
Whatever the memory holds and the body writes to it, the loop ends after a quarter of `msgh_size`
passes at most, and the iterator goes forward in each of them.
-/
theorem walk_ends (walk : Walk σ) {size : ℕ} (small : size ≤ maxSize)
    (sizes : ∀ passes, walk.Reaches passes → walk.size passes ≤ size) :
    ∃ passes ≤ size / 4, walk.goesOn passes = false ∧
      ∀ pass < passes, walk.goesOn pass = true ∧
        (walk.ptr pass).Forward (walk.found (pass + 1)) := by
  rcases stops small sizes with ⟨passes, within, ends, reaches⟩
  refine ⟨passes, within, ends, fun pass isBefore => ⟨reaches pass isBefore, ?_⟩⟩
  apply forward_of_reaches small sizes
  exact fun earlier isEarlier => reaches earlier (by omega)

/-- The walk of a loop that leaves the message alone -/
def reading (hdr : Address) (memory : Memory) : Walk Unit where
  hdr := hdr
  memory := fun _ => memory
  body := fun _ _ => ()
  state := ()

/-- A message at 0x1000 with 2 ^ 29 elements of 8 bits each in 8 bytes: the product wraps around to 0. -/
def wrapping : Memory := fun address =>
  if address = 0x1004 then 32        -- `msgh_size`
  else if address = 0x101b then 0x30 -- `msgt_inline` and `msgt_longform`
  else if address = 0x101e then 8    -- `msgtl_size`
  else if address = 0x1023 then 0x20 -- `msgtl_number`
  else 0

theorem walk_ends_wrapping :
    (MachMsgIterator.start 0x1000).nelems wrapping = 2 ^ 29 ∧
      (MachMsgIterator.start 0x1000).dataSize wrapping = 0 ∧
      ∃ passes ≤ 32 / 4, (reading 0x1000 wrapping).goesOn passes = false ∧
        ∀ pass < passes, (reading 0x1000 wrapping).goesOn pass = true ∧
          ((reading 0x1000 wrapping).ptr pass).Forward
            ((reading 0x1000 wrapping).found (pass + 1)) :=
  ⟨by decide, by decide, walk_ends (reading 0x1000 wrapping) (by decide)
    fun _ _ => (by decide : (wrapping.bufferAt 0x1000).msghSize ≤ 32)⟩

end Walk

end Hurd.Netmsg
