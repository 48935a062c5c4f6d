import Hurd.Libpager.Memcpy

/-!
# What `pager_memcpy` copies

However the call is aligned and however long it is, the bytes that have been copied are the first
so many, exactly as one plain copy of so many bytes would leave them.  If the kernel refuses a
window, `*size` is that number.  If a page cannot be supplied, the signal handler counts from
the start of the window, and `*size` is too large by the bytes of the window before `OFFSET`; the
error is looked up as many bytes too far, in the last page of the object so far that it is the first
page whose error is found.
-/

namespace Hurd.Libpager

theorem sizeSub_of_le {size less : ℕ} (small : size < 2 ^ 32) (le : less ≤ size) :
    sizeSub size less = size - less := by
  rw [sizeSub]
  omega

theorem sizeSub_sub {size first second : ℕ} (le : first ≤ size) :
    sizeSub (size - first) second = sizeSub size (first + second) := by
  rw [sizeSub, sizeSub]
  omega

theorem sizeSub_sizeSub {size less : ℕ} (smallLess : less < 2 ^ 32) :
    sizeSub size (sizeSub size less) = less := by
  rw [sizeSub, sizeSub]
  omega

theorem sizeSub_eq_zero_iff {size less : ℕ} (small : size < 2 ^ 32) (smallLess : less < 2 ^ 32) :
    sizeSub size less = 0 ↔ less = size := by
  rw [sizeSub]
  omega

namespace PagerMemcpy

variable {call : PagerMemcpy} {state : Copying}

theorem vmPageSize_pos (call : PagerMemcpy) : 0 < call.vmPageSize := call.pager.pageSize_pos

section Transfer

@[simp]
theorem transfer_offset (count : ℕ) : (call.transfer count state).offset = state.offset + count :=
  rfl

@[simp]
theorem transfer_other (count : ℕ) : (call.transfer count state).other = state.other + count := rfl

@[simp]
theorem transfer_n (count : ℕ) : (call.transfer count state).n = state.n - count := rfl

@[simp]
theorem transfer_zero : call.transfer 0 state = state := by
  cases isWrite : call.write <;> simp [transfer, isWrite]

/-- Two pieces are copied as one. -/
theorem transfer_transfer (first second : ℕ) :
    call.transfer second (call.transfer first state) = call.transfer (first + second) state := by
  cases isWrite : call.write <;>
    simp [transfer, isWrite, Block.copy_copy, Nat.add_assoc, Nat.sub_sub]

end Transfer

/-- None of the next `count` bytes that `memcpy` touches is on a page that cannot be supplied. -/
def Clean (call : PagerMemcpy) (touched : ℕ → Prop) (offset count : ℕ) : Prop :=
  ∀ index < count, touched (offset + index) →
    call.faults ((offset + index) / call.vmPageSize) = false

/-- The kernel refuses a window at an offset. -/
def Refuses (call : PagerMemcpy) (offset : ℕ) (err : KernReturn) : Prop :=
  err ≠ kernSuccess ∧
    (err = call.vmMap (offset - offset % call.vmPageSize) ∨ err = call.vmCopy offset)

/--
How a nested function ends that has `count` bytes to copy.  `touched` are the offsets that
`memcpy` touches, `excess` what the signal handler counts too much at an offset.
-/
inductive Copies (call : PagerMemcpy) (touched : ℕ → Prop) (excess : ℕ → ℕ) (count : ℕ)
    (state : Copying) : Option Outcome → Prop
  | all (clean : call.Clean touched state.offset count) :
      Copies call touched excess count state
        (some (.returns kernSuccess (call.transfer count state)))
  | refused (done : ℕ) (err : KernReturn) (before : done < count)
      (clean : call.Clean touched state.offset done)
      (refuses : call.Refuses (state.offset + done) err) :
      Copies call touched excess count state (some (.returns err (call.transfer done state)))
  | faulted (done : ℕ) (before : done < count) (clean : call.Clean touched state.offset done)
      (isTouched : touched (state.offset + done))
      (isFault : call.faults ((state.offset + done) / call.vmPageSize) = true) :
      Copies call touched excess count state
        (some (.jumps (call.pager.getError
            ((state.offset + done + excess (state.offset + done)) % offsetRange))
          (sizeSub state.n (done + excess (state.offset + done)))
          (call.transfer done state).object (call.transfer done state).task))

variable {touched : ℕ → Prop} {excess : ℕ → ℕ} {first second count : ℕ} {outcome : Option Outcome}

theorem Clean.append (clean : call.Clean touched state.offset first)
    (cleanNext : call.Clean touched (state.offset + first) second) :
    call.Clean touched state.offset (first + second) := by
  intro index isBefore isTouched
  by_cases inFirst : index < first
  · exact clean index inFirst isTouched
  · have isLater : state.offset + first + (index - first) = state.offset + index := by omega
    have later := cleanNext (index - first) (by omega)
    rw [isLater] at later
    exact later isTouched

/-- Some bytes are copied already. -/
theorem Copies.after (clean : call.Clean touched state.offset first) (within : first ≤ state.n)
    (copies : Copies call touched excess second (call.transfer first state) outcome) :
    Copies call touched excess (first + second) state outcome := by
  cases copies with
  | all cleanNext =>
      rw [transfer_transfer]
      exact .all (clean.append cleanNext)
  | refused done err before cleanNext refuses =>
      rw [transfer_transfer]
      rw [transfer_offset, Nat.add_assoc] at refuses
      exact .refused (first + done) err (by omega) (clean.append cleanNext) refuses
  | faulted done before cleanNext isTouched isFault =>
      rw [transfer_offset, Nat.add_assoc] at isTouched isFault
      have isLater : first + done < first + second := by omega
      rw [transfer_transfer, transfer_n, sizeSub_sub within, transfer_offset,
        Nat.add_assoc state.offset first done, ← Nat.add_assoc first done]
      exact .faulted (first + done) isLater (clean.append cleanNext) isTouched isFault

/-- Nothing has been copied where the first window is refused. -/
theorem Copies.of_refuses {err : KernReturn} (positive : 0 < count)
    (refuses : call.Refuses state.offset err) :
    Copies call touched excess count state (some (.returns err state)) := by
  have noneBefore : call.Clean touched state.offset 0 := by
    intro index isBefore
    exact absurd isBefore (Nat.not_lt_zero index)
  have refused : Copies call touched excess count state
      (some (.returns err (call.transfer 0 state))) := .refused 0 err positive noneBefore refuses
  rwa [transfer_zero] at refused

section VmCopy

/-- How many of `n` bytes go through `vm_copy`. -/
def vmCopied (call : PagerMemcpy) (n : ℕ) : ℕ :=
  if call.vmcopyBetterThanMemcpy ≤ n % call.windowDefaultSize then n - n % call.vmPageSize
  else n - n % call.windowDefaultSize

theorem vmCopied_window {n : ℕ} (long : call.windowDefaultSize ≤ n) :
    call.vmCopied n = call.windowDefaultSize + call.vmCopied (n - call.windowDefaultSize) := by
  have positive := call.vmPageSize_pos
  have sameWindow : (n - call.windowDefaultSize) % call.windowDefaultSize =
      n % call.windowDefaultSize := (Nat.mod_eq_sub_mod long).symm
  have samePage : (n - call.windowDefaultSize) % call.vmPageSize = n % call.vmPageSize := by
    have split : n = n - call.windowDefaultSize + 32 * call.vmPageSize := by
      rw [windowDefaultSize] at long ⊢
      omega
    conv_rhs => rw [split, Nat.add_mul_mod_self_right]
  have isRest : n % call.vmPageSize ≤ n - call.windowDefaultSize := by
    rw [← samePage]
    exact Nat.mod_le _ _
  have isRestWindow : n % call.windowDefaultSize ≤ n - call.windowDefaultSize := by
    rw [← sameWindow]
    exact Nat.mod_le _ _
  rw [vmCopied, vmCopied, sameWindow, samePage]
  split_ifs <;> omega

theorem vmCopied_last {n : ℕ} (short : n < call.windowDefaultSize)
    (enough : call.vmcopyBetterThanMemcpy ≤ n) : call.vmCopied n = n - n % call.vmPageSize := by
  rw [vmCopied, Nat.mod_eq_of_lt short, if_pos enough]

theorem vmCopied_none {n : ℕ} (few : n < call.vmcopyBetterThanMemcpy) : call.vmCopied n = 0 := by
  have short : n < call.windowDefaultSize := by
    rw [vmcopyBetterThanMemcpy] at few
    rw [windowDefaultSize]
    omega
  rw [vmCopied, Nat.mod_eq_of_lt short, if_neg (by omega)]
  omega

theorem vmCopied_le (n : ℕ) : call.vmCopied n ≤ n := by
  rw [vmCopied]
  split_ifs <;> omega

/-- What is left for `memcpy` is less than `VMCOPY_BETTER_THAN_MEMCPY`. -/
theorem vmCopied_rest (n : ℕ) : n - call.vmCopied n < call.vmcopyBetterThanMemcpy := by
  have positive := call.vmPageSize_pos
  have isRest : n % call.vmPageSize < call.vmPageSize := Nat.mod_lt _ positive
  have le := Nat.mod_le n call.vmPageSize
  have leWindow := Nat.mod_le n call.windowDefaultSize
  rw [vmCopied]
  split_ifs with isMore <;> rw [vmcopyBetterThanMemcpy] at * <;> omega

theorem vmCopied_mod (n : ℕ) : call.vmCopied n % call.vmPageSize = 0 := by
  have ofPages : ∀ pages, (n - n % (pages * call.vmPageSize)) % call.vmPageSize = 0 := by
    intro pages
    have parts : pages * call.vmPageSize * (n / (pages * call.vmPageSize)) =
        n - n % (pages * call.vmPageSize) := by
      have whole := Nat.div_add_mod n (pages * call.vmPageSize)
      omega
    rw [← parts, Nat.mul_right_comm]
    exact Nat.mul_mod_left _ _
  rw [vmCopied]
  split_ifs
  · simpa using ofPages 1
  · exact ofPages 32

/-- The loop ends with a window that is not full, or with too little for another one. -/
theorem vmCopied_of_window {n windowSize : ℕ} (enough : call.vmcopyBetterThanMemcpy ≤ n)
    (isWindow : windowSize = if call.windowDefaultSize > n then n - n % call.vmPageSize
      else call.windowDefaultSize) :
    call.vmcopyBetterThanMemcpy ≤ windowSize ∧ windowSize ≤ n ∧ windowSize % call.vmPageSize = 0 ∧
      call.vmCopied n = windowSize + call.vmCopied (n - windowSize) := by
  have positive := call.vmPageSize_pos
  by_cases short : call.windowDefaultSize > n
  · rw [if_pos short] at isWindow
    subst isWindow
    have isCopied := vmCopied_last short enough
    have isRest : n % call.vmPageSize < call.vmPageSize := Nat.mod_lt _ positive
    have le := Nat.mod_le n call.vmPageSize
    have noMore : call.vmCopied (n - (n - n % call.vmPageSize)) = 0 := by
      apply vmCopied_none
      rw [vmcopyBetterThanMemcpy]
      omega
    have pages : call.vmPageSize * (n / call.vmPageSize) = n - n % call.vmPageSize := by
      have whole := Nat.div_add_mod n call.vmPageSize
      omega
    have manyPages : 8 ≤ n / call.vmPageSize := (Nat.le_div_iff_mul_le positive).mpr enough
    refine ⟨?_, Nat.sub_le _ _, ?_, ?_⟩
    · rw [← pages, vmcopyBetterThanMemcpy, Nat.mul_comm]
      exact Nat.mul_le_mul_left _ manyPages
    · rw [← isCopied]
      exact vmCopied_mod n
    · rw [noMore, isCopied, Nat.add_zero]
  · rw [if_neg short] at isWindow
    subst isWindow
    refine ⟨?_, by omega, ?_, vmCopied_window (by omega)⟩
    · rw [vmcopyBetterThanMemcpy, windowDefaultSize]
      omega
    · rw [windowDefaultSize]
      exact Nat.mul_mod_left _ _

theorem vmCopyLoop_copies {passes : ℕ} (enough : call.vmcopyBetterThanMemcpy ≤ state.n)
    (within : state.n ≤ passes) (aligned : state.offset % call.vmPageSize = 0)
    (untouched : ∀ index < call.vmCopied state.n, ¬touched (state.offset + index)) :
    Copies call touched excess (call.vmCopied state.n) state (call.vmCopyLoop passes state) := by
  have positive := call.vmPageSize_pos
  induction passes generalizing state with
  | zero =>
      rw [vmcopyBetterThanMemcpy] at enough
      omega
  | succ passes ih =>
      rw [vmCopyLoop]
      generalize isWindow : (if call.windowDefaultSize > state.n then
        state.n - state.n % call.vmPageSize else call.windowDefaultSize) = windowSize
      rcases vmCopied_of_window enough isWindow.symm with ⟨large, le, isPages, isCopied⟩
      have someCopied : 0 < call.vmCopied state.n := by
        rw [vmcopyBetterThanMemcpy] at large
        omega
      have clean : call.Clean touched state.offset windowSize := by
        intro index isBefore isTouched
        exact absurd isTouched (untouched index (by omega))
      dsimp only
      rw [if_neg (by simp [isPages, large])]
      split_ifs with mapFails copyFails isMore
      · refine .of_refuses someCopied ⟨mapFails, .inl ?_⟩
        rw [aligned, Nat.sub_zero]
      · exact .of_refuses someCopied ⟨copyFails, .inr rfl⟩
      · rw [isCopied]
        apply Copies.after clean le
        apply ih isMore
        · rw [vmcopyBetterThanMemcpy] at large
          rw [transfer_n]
          omega
        · rw [transfer_offset, Nat.add_mod, aligned, isPages]
          simp
        · intro index isBefore
          rw [transfer_offset, Nat.add_assoc]
          apply untouched
          rw [transfer_n] at isBefore
          omega
      · have noMore : call.vmCopied (state.n - windowSize) = 0 := vmCopied_none (not_le.mp isMore)
        rw [isCopied, noMore, Nat.add_zero]
        exact .all clean

end VmCopy

section Memcpy

theorem roundPage_le_iff (pages : ℕ) {size : ℕ} (rounds : size + call.vmPageSize ≤ 2 ^ 32) :
    call.roundPage size ≤ pages * call.vmPageSize ↔ size ≤ pages * call.vmPageSize := by
  have positive := call.vmPageSize_pos
  have isRounded := Nat.div_mul_le_self (size + (call.vmPageSize - 1)) call.vmPageSize
  rw [roundPage, Nat.mod_eq_of_lt (by omega), Nat.mul_le_mul_right_iff positive,
    ← Nat.lt_succ_iff, Nat.div_lt_iff_lt_mul positive, Nat.succ_mul]
  omega

theorem firstFault_none {offset : ℕ} (none : call.firstFault offset count = none) :
    ∀ index < count, call.faults ((offset + index) / call.vmPageSize) = false := by
  intro index isBefore
  have noFault := List.find?_eq_none.mp none index (List.mem_range.mpr isBefore)
  simpa using noFault

theorem firstFault_some {offset index : ℕ} (found : call.firstFault offset count = some index) :
    index < count ∧ call.faults ((offset + index) / call.vmPageSize) = true ∧
      ∀ earlier < index, call.faults ((offset + earlier) / call.vmPageSize) = false := by
  rw [firstFault, List.find?_range_eq_some] at found
  rcases found with ⟨isFault, isMem, isFirst⟩
  refine ⟨List.mem_range.mp isMem, isFault, fun earlier isEarlier => ?_⟩
  simpa using isFirst earlier isEarlier

/-- What is left of some whole pages after the first part of one ends at a page boundary. -/
theorem boundary_mod (call : PagerMemcpy) (pages place : ℕ)
    (within : place % call.vmPageSize ≤ pages * call.vmPageSize) :
    (place + (pages * call.vmPageSize - place % call.vmPageSize)) % call.vmPageSize = 0 := by
  have onBoundary : place + (pages * call.vmPageSize - place % call.vmPageSize) =
      (place / call.vmPageSize + pages) * call.vmPageSize := by
    have parts := Nat.div_add_mod' place call.vmPageSize
    rw [Nat.add_mul]
    omega
  rw [onBoundary]
  exact Nat.mul_mod_left _ _

theorem memcpyLoop_copies {passes toCopy : ℕ} (positive : 0 < toCopy) (bound : toCopy ≤ passes)
    (within : toCopy ≤ state.n) (rounds : toCopy + 2 * call.vmPageSize ≤ 2 ^ 32)
    (isTouched : ∀ index < toCopy, touched (state.offset + index))
    (isExcess : ∀ index < toCopy, excess (state.offset + index) =
      if index < call.windowDefaultSize - state.offset % call.vmPageSize then
        state.offset % call.vmPageSize else 0) :
    Copies call touched excess toCopy state
      (call.memcpyLoop passes call.windowDefaultSize toCopy state) := by
  induction passes generalizing state toCopy with
  | zero => omega
  | succ passes ih =>
      have isOff : state.offset % call.vmPageSize < call.vmPageSize :=
        Nat.mod_lt _ call.vmPageSize_pos
      have isLarge : call.windowDefaultSize = 32 * call.vmPageSize := rfl
      rw [memcpyLoop]
      set pageoff := state.offset % call.vmPageSize with isPageoff
      have fitsIff : call.roundPage (pageoff + toCopy) ≤ call.windowDefaultSize ↔
          pageoff + toCopy ≤ call.windowDefaultSize := roundPage_le_iff 32 (by omega)
      generalize isCount : (if decide (call.roundPage (pageoff + toCopy) ≤
        call.windowDefaultSize) then toCopy else call.windowDefaultSize - pageoff) = copyCount
      have counted : copyCount = min toCopy (call.windowDefaultSize - pageoff) := by
        rw [← isCount]
        simp only [decide_eq_true_eq, fitsIff]
        split_ifs <;> omega
      have clean : ∀ done, (∀ index < done,
          call.faults ((state.offset + index) / call.vmPageSize) = false) →
          call.Clean touched state.offset done :=
        fun done none index isBefore _ => none index isBefore
      dsimp only
      by_cases mapFails : call.vmMap (state.offset - pageoff) ≠ kernSuccess
      · rw [if_pos mapFails]
        exact .of_refuses positive ⟨mapFails, .inl rfl⟩
      · rw [if_neg mapFails]
        cases isFirst : call.firstFault state.offset copyCount with
        | some index =>
            rcases firstFault_some isFirst with ⟨isBefore, isFault, noneBefore⟩
            have early : index < toCopy := by omega
            have isTooMuch : excess (state.offset + index) = pageoff := by
              rw [isExcess index early, if_pos (by omega)]
            have jumps : Copies call touched excess toCopy state _ :=
              .faulted index early (clean index noneBefore) (isTouched index early) isFault
            have sameSum : pageoff + index + state.offset = state.offset + index + pageoff := by
              omega
            dsimp only
            rw [sameSum, Nat.add_comm pageoff index, ← isTooMuch]
            exact jumps
        | none =>
            have firstClean := clean copyCount (firstFault_none isFirst)
            dsimp only
            by_cases isMore : 0 < toCopy - copyCount
            · -- the windows that follow are full ones, and start on a page boundary
              have isSum : toCopy = copyCount + (toCopy - copyCount) := by omega
              have notFits : ¬(call.roundPage (pageoff + toCopy) ≤ call.windowDefaultSize) := by
                rw [fitsIff]
                omega
              have isWindow : copyCount = 32 * call.vmPageSize - pageoff := by omega
              have nextAligned : (state.offset + copyCount) % call.vmPageSize = 0 := by
                rw [isWindow]
                exact call.boundary_mod 32 state.offset (by omega)
              rw [if_pos isMore, if_neg (by simpa using notFits), isSum, Nat.add_sub_cancel_left]
              apply Copies.after firstClean (by omega)
              apply ih isMore (by omega)
              · rw [transfer_n]
                omega
              · omega
              · intro index isBefore
                rw [transfer_offset, Nat.add_assoc]
                exact isTouched _ (by omega)
              · intro index isBefore
                rw [transfer_offset, nextAligned, ite_self, Nat.add_assoc,
                  isExcess _ (by omega), if_neg (by omega)]
            · have isAll : copyCount = toCopy := by omega
              rw [if_neg isMore, isAll]
              rw [isAll] at firstClean
              exact .all firstClean

theorem doMemcpy_copies {toCopy : ℕ} (positive : 0 < toCopy) (within : toCopy ≤ state.n)
    (rounds : toCopy + 2 * call.vmPageSize ≤ 2 ^ 32)
    (isTouched : ∀ index < toCopy, touched (state.offset + index))
    (isExcess : ∀ index < toCopy, excess (state.offset + index) =
      if index < call.windowDefaultSize - state.offset % call.vmPageSize then
        state.offset % call.vmPageSize else 0) :
    Copies call touched excess toCopy state (call.doMemcpy toCopy state) :=
  memcpyLoop_copies positive le_rfl within rounds isTouched isExcess

end Memcpy

/-- Whole pages go through `vm_copy`, what is left through `memcpy`. -/
theorem doCopyAligned_copies (enough : call.vmcopyBetterThanMemcpy ≤ state.n)
    (rounds : state.n + 2 * call.vmPageSize ≤ 2 ^ 32)
    (aligned : state.offset % call.vmPageSize = 0)
    (otherAligned : state.other % call.vmPageSize = 0)
    (untouched : ∀ index < call.vmCopied state.n, ¬touched (state.offset + index))
    (isTouched : ∀ index < state.n, call.vmCopied state.n ≤ index → touched (state.offset + index))
    (isExcess : ∀ index < state.n, excess (state.offset + index) = 0) :
    Copies call touched excess state.n state (call.doCopyAligned state) := by
  have positive := call.vmPageSize_pos
  have isLarge : call.vmcopyBetterThanMemcpy = 8 * call.vmPageSize := rfl
  have le := call.vmCopied_le state.n
  have rest := call.vmCopied_rest state.n
  have isSum : state.n = call.vmCopied state.n + (state.n - call.vmCopied state.n) := by omega
  have byWindows : Copies call touched excess (call.vmCopied state.n) state _ :=
    vmCopyLoop_copies enough le_rfl aligned untouched
  rw [doCopyAligned, if_neg (by omega), doVmCopy, if_neg (by simp [aligned, otherAligned]; omega)]
  generalize call.vmCopyLoop state.n state = ended at byWindows
  cases byWindows with
  | all clean =>
      dsimp only
      by_cases isDone : state.n - call.vmCopied state.n = 0
      · rw [transfer_n, if_pos (.inr isDone)]
        have isAll : call.vmCopied state.n = state.n := by omega
        rw [isAll] at clean ⊢
        exact .all clean
      · rw [transfer_n, if_neg (by simp [isDone]), if_neg (by omega)]
        have nextAligned : (state.offset + call.vmCopied state.n) % call.vmPageSize = 0 := by
          rw [Nat.add_mod, aligned, vmCopied_mod]
          simp
        have byBytes : Copies call touched excess (state.n - call.vmCopied state.n)
            (call.transfer (call.vmCopied state.n) state)
            (call.doMemcpy (state.n - call.vmCopied state.n)
              (call.transfer (call.vmCopied state.n) state)) := by
          apply doMemcpy_copies (by omega) (by simp) (by omega)
          · intro index isBefore
            rw [transfer_offset, Nat.add_assoc]
            exact isTouched _ (by omega) (by omega)
          · intro index isBefore
            rw [transfer_offset, nextAligned, ite_self, Nat.add_assoc]
            exact isExcess _ (by omega)
        have copies := Copies.after clean le byBytes
        rwa [← isSum] at copies
  | refused done err before clean refuses =>
      dsimp only
      rw [if_pos (.inl refuses.1)]
      exact .refused done err (by omega) clean refuses
  | faulted done before clean isTouchedHere isFault =>
      exact absurd isTouchedHere (untouched done before)

/-- The bytes that go through `vm_copy`: how many come before them, and how many they are. -/
def vmSpan (call : PagerMemcpy) (offset other size : ℕ) : ℕ × ℕ :=
  let misaligned := other % call.vmPageSize
  if misaligned = 0 ∧ offset % call.vmPageSize = 0 ∧ call.vmcopyBetterThanMemcpy ≤ size then
    (0, call.vmCopied size)
  else if misaligned = offset % call.vmPageSize ∧
      call.vmcopyBetterThanMemcpy + call.vmPageSize - misaligned ≤ size then
    (call.vmPageSize - misaligned, call.vmCopied (size - (call.vmPageSize - misaligned)))
  else (0, 0)

/-- `memcpy` touches the byte at an offset. -/
def Touches (call : PagerMemcpy) (offset other size position : ℕ) : Prop :=
  let span := call.vmSpan offset other size
  position < offset + span.1 ∨ offset + span.1 + span.2 ≤ position

/-- The first window of `memcpy` starts at a page boundary, before the first byte to copy. -/
def surplus (call : PagerMemcpy) (offset other size position : ℕ) : ℕ :=
  let span := call.vmSpan offset other size
  let firstWindow :=
    if span.1 = 0 then call.windowDefaultSize - offset % call.vmPageSize else span.1
  if position < offset + firstWindow then offset % call.vmPageSize else 0

/-- `pager_memcpy` before it looks at the result -/
def copyAll (call : PagerMemcpy) (state : Copying) : Option Outcome :=
  if state.other % call.vmPageSize = 0 ∧ state.offset % call.vmPageSize = 0 ∧
      call.vmcopyBetterThanMemcpy ≤ state.n then call.doCopyAligned state
  else call.doCopy state

/-- `memcpy` up to the first page boundary, and on from there where both sides are on one -/
theorem doCopy_copies (some : 0 < state.n) (rounds : state.n + 2 * call.vmPageSize ≤ 2 ^ 32)
    (isSlow : ¬(state.other % call.vmPageSize = 0 ∧ state.offset % call.vmPageSize = 0 ∧
      call.vmcopyBetterThanMemcpy ≤ state.n)) :
    Copies call (call.Touches state.offset state.other state.n)
      (call.surplus state.offset state.other state.n) state.n state (call.doCopy state) := by
  have isOff : state.offset % call.vmPageSize < call.vmPageSize :=
    Nat.mod_lt _ call.vmPageSize_pos
  have isLarge : call.vmcopyBetterThanMemcpy = 8 * call.vmPageSize := rfl
  have isWindow : call.windowDefaultSize = 32 * call.vmPageSize := rfl
  rw [doCopy]
  split_ifs with isAlike
  · have isSpan : call.vmSpan state.offset state.other state.n =
        (call.vmPageSize - state.other % call.vmPageSize,
          call.vmCopied (state.n - (call.vmPageSize - state.other % call.vmPageSize))) := by
      simp only [vmSpan]
      rw [if_neg isSlow, if_pos isAlike]
    have offsetAligned : (state.offset + (call.vmPageSize - state.other % call.vmPageSize)) %
        call.vmPageSize = 0 := by
      have atBoundary := call.boundary_mod 1 state.offset (by omega)
      rwa [Nat.one_mul, ← isAlike.1] at atBoundary
    have otherAligned : (state.other + (call.vmPageSize - state.other % call.vmPageSize)) %
        call.vmPageSize = 0 := by
      have atBoundary := call.boundary_mod 1 state.other (by omega)
      rwa [Nat.one_mul] at atBoundary
    generalize isHead : call.vmPageSize - state.other % call.vmPageSize = head
      at isSpan offsetAligned otherAligned
    have isSurplus : ∀ position, call.surplus state.offset state.other state.n position =
        if position < state.offset + head then state.offset % call.vmPageSize else 0 := by
      intro position
      simp only [surplus, isSpan]
      rw [if_neg (show head ≠ 0 by omega)]
    have byBytes : Copies call (call.Touches state.offset state.other state.n)
        (call.surplus state.offset state.other state.n) head state
        (call.doMemcpy head state) := by
      apply doMemcpy_copies (by omega) (by omega) (by omega)
      · intro index isBefore
        simp only [Touches, isSpan]
        omega
      · intro index isBefore
        rw [isSurplus, if_pos (by omega), if_pos (by omega)]
    generalize call.doMemcpy head state = ended at byBytes
    cases byBytes with
    | all clean =>
        have pages : call.vmcopyBetterThanMemcpy ≤ state.n - head := by omega
        have byPages : Copies call (call.Touches state.offset state.other state.n)
            (call.surplus state.offset state.other state.n) (call.transfer head state).n
            (call.transfer head state) (call.doCopyAligned (call.transfer head state)) := by
          have restRounds : (call.transfer head state).n + 2 * call.vmPageSize ≤ 2 ^ 32 := by
            rw [transfer_n]
            omega
          apply doCopyAligned_copies pages restRounds offsetAligned otherAligned
          · intro index isBefore
            rw [transfer_n] at isBefore
            simp only [Touches, isSpan, transfer_offset]
            omega
          · intro index _ isAfter
            rw [transfer_n] at isAfter
            simp only [Touches, isSpan, transfer_offset]
            omega
          · intro index _
            rw [isSurplus, transfer_offset, if_neg (by omega)]
        have copies := Copies.after clean (by omega) byPages
        have isSum : head + (state.n - head) = state.n := by omega
        rw [transfer_n, isSum] at copies
        simpa using copies
    | refused done err before clean refuses =>
        dsimp only
        rw [if_pos refuses.1]
        exact .refused done err (by omega) clean refuses
    | faulted done before clean isTouched isFault =>
        exact .faulted done (by omega) clean isTouched isFault
  · have isSpan : call.vmSpan state.offset state.other state.n = (0, 0) := by
      simp only [vmSpan]
      rw [if_neg isSlow, if_neg isAlike]
    apply doMemcpy_copies some le_rfl rounds
    · intro index _
      simp only [Touches, isSpan]
      omega
    · intro index _
      simp only [surplus, isSpan, if_pos]
      congr 1
      apply propext
      omega

theorem copyAll_copies (state : Copying) (some : 0 < state.n)
    (rounds : state.n + 2 * call.vmPageSize ≤ 2 ^ 32) :
    Copies call (call.Touches state.offset state.other state.n)
      (call.surplus state.offset state.other state.n) state.n state (call.copyAll state) := by
  rw [copyAll]
  split_ifs with isFast
  · have isSpan : call.vmSpan state.offset state.other state.n = (0, call.vmCopied state.n) :=
      if_pos isFast
    apply doCopyAligned_copies isFast.2.2 rounds isFast.2.1 isFast.1
    · intro index isBefore
      simp only [Touches, isSpan]
      omega
    · intro index _ isAfter
      simp only [Touches, isSpan]
      omega
    · intro index _
      simp [surplus, isFast.2.1]
  · exact doCopy_copies some rounds isFast

theorem doVmCopy_ne_jumps {err : KernReturn} {n : ℕ} {object task : Contents}
    (enough : call.vmcopyBetterThanMemcpy ≤ state.n) :
    call.doVmCopy state ≠ some (.jumps err n object task) := by
  intro jumps
  rw [doVmCopy] at jumps
  split_ifs at jumps with misplaced
  have aligned : state.offset % call.vmPageSize = 0 := by
    by_contra notAligned
    exact misplaced (.inl notAligned)
  have copies : Copies call (fun _ => False) (fun _ => 0) (call.vmCopied state.n) state _ :=
    vmCopyLoop_copies enough le_rfl aligned fun _ _ => not_false
  rw [jumps] at copies
  cases copies
  assumption

theorem pagerMemcpy_eq {offset other size : ℕ} {object task : Contents} (some : 0 < size) :
    call.pagerMemcpy offset other size object task =
      (call.copyAll ⟨offset, other, size, object, task⟩).bind (finish size) := by
  rw [pagerMemcpy, if_neg (Nat.pos_iff_ne_zero.mp some), copyAll]
  dsimp only
  split_ifs with isFast
  · rw [doCopyAligned, if_neg (not_lt.mpr isFast.2.2)]
    cases isVmCopy : call.doVmCopy ⟨offset, other, size, object, task⟩ with
    | none => rfl
    | some outcome =>
        cases outcome with
        | jumps err n object task => exact absurd isVmCopy (doVmCopy_ne_jumps isFast.2.2)
        | returns err next =>
            dsimp only
            split_ifs with isDone tooMany
            · have notAborted : ¬(err = kernSuccess ∧ next.n ≠ 0) := by tauto
              rw [Option.bind_some, finish, if_neg notAborted]
            · rfl
            · have few : ¬(next.other % call.vmPageSize = next.offset % call.vmPageSize ∧
                  call.vmcopyBetterThanMemcpy + call.vmPageSize - next.other % call.vmPageSize ≤
                    next.n) := by
                have rest := Nat.mod_lt next.other call.vmPageSize_pos
                omega
              rw [hardWay, doCopy, if_neg few]
  · rfl

/-- The first `count` bytes are copied, and nothing else is. -/
def copiedUpTo (call : PagerMemcpy) (offset other : ℕ) (object task : Contents) (count : ℕ)
    (err : KernReturn) (size : ℕ) : Copied where
  err := err
  size := size
  object := if call.write then Block.copy task other object offset count else object
  task := if call.write then task else Block.copy object offset task other count

/--
How a call ends: with everything copied; with the bytes before a window that the kernel refuses;
or with those before a byte that the pager cannot supply.  In the last case `*size` and the
place where the error is looked up are off by `surplus`, and an assert fails if no error is found
there and `*size` seems to be short.
-/
inductive Answers (call : PagerMemcpy) (offset other size : ℕ) (object task : Contents) :
    Option Copied → Prop
  | complete (clean : call.Clean (call.Touches offset other size) offset size) :
      Answers call offset other size object task
        (some (call.copiedUpTo offset other object task size kernSuccess size))
  | refused (done : ℕ) (err : KernReturn) (before : done < size)
      (clean : call.Clean (call.Touches offset other size) offset done)
      (refuses : call.Refuses (offset + done) err) :
      Answers call offset other size object task
        (some (call.copiedUpTo offset other object task done err done))
  | faulted (done counted : ℕ) (err : KernReturn) (before : done < size)
      (clean : call.Clean (call.Touches offset other size) offset done)
      (isTouched : call.Touches offset other size (offset + done))
      (isFault : call.faults ((offset + done) / call.vmPageSize) = true)
      (isCounted : counted = done + call.surplus offset other size (offset + done))
      (isErr : err = call.pager.getError ((offset + counted) % offsetRange))
      (consistent : err ≠ kernSuccess ∨ counted = size) :
      Answers call offset other size object task
        (some (call.copiedUpTo offset other object task done err counted))
  | aborted (done counted : ℕ) (before : done < size)
      (clean : call.Clean (call.Touches offset other size) offset done)
      (isTouched : call.Touches offset other size (offset + done))
      (isFault : call.faults ((offset + done) / call.vmPageSize) = true)
      (isCounted : counted = done + call.surplus offset other size (offset + done))
      (noError : call.pager.getError ((offset + counted) % offsetRange) = kernSuccess)
      (isShort : counted ≠ size) :
      Answers call offset other size object task none

theorem surplus_le (call : PagerMemcpy) (offset other size position : ℕ) :
    call.surplus offset other size position ≤ offset := by
  rw [surplus]
  generalize call.vmSpan offset other size = span
  generalize (if span.1 = 0 then call.windowDefaultSize - offset % call.vmPageSize
    else span.1) = first
  split_ifs
  · exact Nat.mod_le _ _
  · exact Nat.zero_le _

/-- The range is one of the object, and the sizes of windows do not wrap around in `size_t`. -/
structure Fits (call : PagerMemcpy) (offset size : ℕ) : Prop where
  inside : offset + size ≤ offsetRange
  rounds : size + 2 * call.vmPageSize ≤ 2 ^ 32
  window : call.windowDefaultSize < 2 ^ 32

theorem Fits.small {offset size : ℕ} (fits : call.Fits offset size) : size < 2 ^ 32 := by
  have positive := call.vmPageSize_pos
  have rounds := fits.rounds
  omega

/-- What every call of `pager_memcpy` that fits does, of any size and alignment. -/
theorem pagerMemcpy_answers {offset other size : ℕ} (fits : call.Fits offset size)
    (object task : Contents) :
    Answers call offset other size object task
      (call.pagerMemcpy offset other size object task) := by
  have small := fits.small
  have inside : offset + size ≤ 2 ^ 32 := fits.inside
  rcases Nat.eq_zero_or_pos size with rfl | some
  · have complete : Answers call offset other 0 object task _ :=
      .complete fun index isBefore => absurd isBefore (Nat.not_lt_zero index)
    simpa [copiedUpTo, pagerMemcpy] using complete
  · have copies := call.copyAll_copies ⟨offset, other, size, object, task⟩ some fits.rounds
    rw [pagerMemcpy_eq some]
    generalize call.copyAll ⟨offset, other, size, object, task⟩ = ended at copies
    cases copies with
    | all clean =>
        have isDone : (call.transfer size ⟨offset, other, size, object, task⟩).n = 0 :=
          Nat.sub_self _
        rw [Option.bind_some, finish, if_neg (by simp), isDone,
          sizeSub_of_le small (Nat.zero_le _)]
        exact .complete clean
    | refused done err before clean refuses =>
        rw [Option.bind_some, finish, if_neg fun both => refuses.1 both.1, transfer_n,
          sizeSub_of_le small (Nat.sub_le _ _), Nat.sub_sub_self (le_of_lt before)]
        exact .refused done err before clean refuses
    | faulted done before clean isTouched isFault =>
        have atMost := call.surplus_le offset other size (offset + done)
        generalize isCounted : done + call.surplus offset other size (offset + done) = counted
        have isBefore : done < size := before
        have smallCounted : counted < 2 ^ 32 := by omega
        rw [Option.bind_some, finish, sizeSub_sizeSub smallCounted]
        simp only [Nat.add_assoc, isCounted, ne_eq, sizeSub_eq_zero_iff small smallCounted]
        split_ifs with aborts
        · exact .aborted done counted before clean isTouched isFault isCounted.symm aborts.1
            aborts.2
        · refine .faulted done counted _ before clean isTouched isFault isCounted.symm rfl ?_
          by_contra neither
          rw [not_or, not_not] at neither
          exact aborts neither

/-- Where nothing fails, the windows leave what one plain copy of all the bytes leaves. -/
theorem pagerMemcpy_complete {offset other size : ℕ} (fits : call.Fits offset size)
    (mapped : ∀ position, call.vmMap position = kernSuccess)
    (moved : ∀ position, call.vmCopy position = kernSuccess)
    (clean : call.Clean (call.Touches offset other size) offset size) (object task : Contents) :
    call.pagerMemcpy offset other size object task =
      some (call.copiedUpTo offset other object task size kernSuccess size) := by
  have small := fits.small
  rcases Nat.eq_zero_or_pos size with rfl | some
  · simp [copiedUpTo, pagerMemcpy]
  · have copies := call.copyAll_copies ⟨offset, other, size, object, task⟩ some fits.rounds
    rw [pagerMemcpy_eq some]
    generalize call.copyAll ⟨offset, other, size, object, task⟩ = ended at copies
    cases copies with
    | all _ =>
        have isDone : (call.transfer size ⟨offset, other, size, object, task⟩).n = 0 :=
          Nat.sub_self _
        rw [Option.bind_some, finish, if_neg (by simp), isDone,
          sizeSub_of_le small (Nat.zero_le _)]
        rfl
    | refused done err before _ refuses =>
        rcases refuses with ⟨isError, isMap | isCopy⟩
        · exact absurd (isMap.trans (mapped _)) isError
        · exact absurd (isCopy.trans (moved _)) isError
    | faulted done before _ isTouched isFault =>
        rw [clean done before isTouched] at isFault
        cases isFault

section Calls

/-- Pages of four bytes, of which the second cannot be supplied. -/
def overBadPage : PagerMemcpy where
  pager := Pager.create 4 (by decide) false 0 false
  write := false
  vmMap _ := kernSuccess
  vmCopy _ := kernSuccess
  faults page := page = 1

/-- The range is in the third page. -/
theorem pagerMemcpy_complete_behind :
    overBadPage.pagerMemcpy 9 30 3 (fun offset => BitVec.ofNat 8 offset) (fun _ => 0) =
      some (overBadPage.copiedUpTo 9 30 (fun offset => BitVec.ofNat 8 offset) (fun _ => 0) 3
        kernSuccess 3) := by
  refine pagerMemcpy_complete ⟨by decide, by decide, by decide⟩ (fun _ => rfl) (fun _ => rfl) ?_ _ _
  intro index isBefore _
  have isThird : (9 + index) / overBadPage.vmPageSize = 2 := by
    change (9 + index) / 4 = 2
    omega
  rw [isThird]
  rfl

theorem pagerMemcpy_answers_across :
    Answers overBadPage 3 30 3 (fun offset => BitVec.ofNat 8 offset) (fun _ => 0)
      (overBadPage.pagerMemcpy 3 30 3 (fun offset => BitVec.ofNat 8 offset) fun _ => 0) :=
  pagerMemcpy_answers ⟨by decide, by decide, by decide⟩ _ _

/-- One byte is copied, but `*size` would be four: the handler aborts. -/
example : overBadPage.pagerMemcpy 3 30 3 (fun offset => BitVec.ofNat 8 offset) (fun _ => 0) =
    none := rfl

/-- The last page cannot be supplied, and the sum in the handler wraps around. -/
example : (({ overBadPage with
    pager := { overBadPage.pager with pagemap := fun _ => { error := 5 } }
    faults := fun page => page = 2 ^ 30 - 1 } : PagerMemcpy).pagerMemcpy (2 ^ 32 - 2) 30 1
      (fun _ => 0) fun _ => 0).map (·.err) = some 5 := rfl

end Calls

end PagerMemcpy

end Hurd.Libpager
