import Hurd.Lib.Block
import Hurd.Libpager.Handlers

/-!
# `pager_memcpy`

Copying between the memory of a task and the memory object of a pager.  The object is mapped a
window at a time.  Where both sides are aligned alike and there is enough to copy, whole pages go
through `vm_copy`; the rest is copied byte by byte, under a handler that ends the copy when the
object cannot supply a page.

What the kernel answers and which pages fault is given by the offset in the object, and no window
is mapped twice.  `vm_copy` moves the bytes without reading them, so a page that cannot be
supplied does not stop it.  `memcpy` goes from the first byte to the last, which the handler
relies on.  The addresses of the windows cancel out and are left out.

The differences of sizes and `round_page` are those of `size_t`, and the offset at which the handler
looks for an error is one of `vm_offset_t`: past the last page it is back in the first.
-/

namespace Hurd.Libpager

/-- Memory, by addresses of the task or by offsets in the object -/
abbrev Contents := ℕ → BitVec 8

/-- `size - less` in the arithmetic of `size_t` -/
def sizeSub (size less : ℕ) : ℕ := (size + (2 ^ 32 - less % 2 ^ 32)) % 2 ^ 32

/-- The local variables of `pager_memcpy`, and the two memories. -/
structure Copying where
  offset : ℕ
  other : ℕ
  n : ℕ
  object : Contents
  task : Contents

/-- How one of the nested functions of `pager_memcpy` ends. -/
inductive Outcome
  | returns (err : KernReturn) (state : Copying)
  /-- `siglongjmp` out of the signal handler -/
  | jumps (err : KernReturn) (n : ℕ) (object task : Contents)

/-- What `pager_memcpy` returns, `*size` and the memories afterwards. -/
structure Copied where
  err : KernReturn
  size : ℕ
  object : Contents
  task : Contents

/-- The arguments of a call that do not change, and the kernel that it meets. -/
structure PagerMemcpy where
  pager : Pager
  /-- `prot` contains `VM_PROT_WRITE`: into the object. -/
  write : Bool
  /-- what `vm_map` returns for a window at an offset in the object -/
  vmMap : ℕ → KernReturn
  vmCopy : ℕ → KernReturn
  /-- the pages that the pager cannot supply -/
  faults : ℕ → Bool

namespace PagerMemcpy

variable (call : PagerMemcpy)

/-- `vm_page_size` -/
def vmPageSize : ℕ := call.pager.pageSize

/-- `VMCOPY_BETTER_THAN_MEMCPY` -/
def vmcopyBetterThanMemcpy : ℕ := 8 * call.vmPageSize

/-- `VMCOPY_WINDOW_DEFAULT_SIZE`, and `MEMCPY_WINDOW_DEFAULT_SIZE` as well -/
def windowDefaultSize : ℕ := 32 * call.vmPageSize

/-- `round_page` -/
def roundPage (size : ℕ) : ℕ :=
  (size + (call.vmPageSize - 1)) / call.vmPageSize * call.vmPageSize % 2 ^ 32

/-- Copy the next `count` bytes and move on behind them. -/
def transfer (count : ℕ) (state : Copying) : Copying where
  offset := state.offset + count
  other := state.other + count
  n := state.n - count
  object :=
    if call.write then Block.copy state.task state.other state.object state.offset count
    else state.object
  task :=
    if call.write then state.task
    else Block.copy state.object state.offset state.task state.other count

/-- The byte of the next `count` at which `memcpy` faults. -/
def firstFault (offset count : ℕ) : Option ℕ :=
  (List.range count).find? fun index => call.faults ((offset + index) / call.vmPageSize)

/-- The loop of `do_vm_copy` -/
def vmCopyLoop : ℕ → Copying → Option Outcome
  | 0, _ => none
  | passes + 1, state =>
      let windowSize :=
        if call.windowDefaultSize > state.n then state.n - state.n % call.vmPageSize
        else call.windowDefaultSize
      if windowSize < call.vmcopyBetterThanMemcpy ∨ windowSize % call.vmPageSize ≠ 0 then none
      else if call.vmMap state.offset ≠ kernSuccess then
        some (.returns (call.vmMap state.offset) state)
      else if call.vmCopy state.offset ≠ kernSuccess then
        some (.returns (call.vmCopy state.offset) state)
      else
        let next := call.transfer windowSize state
        if call.vmcopyBetterThanMemcpy ≤ next.n then vmCopyLoop passes next
        else some (.returns kernSuccess next)

/-- `do_vm_copy`; a pass copies something, so there are no more passes than bytes. -/
def doVmCopy (state : Copying) : Option Outcome :=
  if state.offset % call.vmPageSize ≠ 0 ∨ state.other % call.vmPageSize ≠ 0 ∨
      state.n < call.vmPageSize then none
  else call.vmCopyLoop state.n state

/-- The loop of `do_memcpy` -/
def memcpyLoop : ℕ → ℕ → ℕ → Copying → Option Outcome
  | 0, _, _, _ => none
  | passes + 1, windowSize, toCopy, state =>
      let pageoff := state.offset % call.vmPageSize
      let fits := decide (call.roundPage (pageoff + toCopy) ≤ windowSize)
      let copyCount := if fits then toCopy else windowSize - pageoff
      let windowSize := if fits then call.roundPage (pageoff + toCopy) else windowSize
      if call.vmMap (state.offset - pageoff) ≠ kernSuccess then
        some (.returns (call.vmMap (state.offset - pageoff)) state)
      else
        match call.firstFault state.offset copyCount with
        | some index =>
            -- `sigcode - window` counts from the start of the window, which is a page boundary
            let sigcode := pageoff + index
            let reached := call.transfer index state
            some (.jumps (call.pager.getError ((sigcode + state.offset) % offsetRange))
              (sizeSub state.n sigcode) reached.object reached.task)
        | none =>
            let next := call.transfer copyCount state
            if 0 < toCopy - copyCount then
              memcpyLoop passes windowSize (toCopy - copyCount) next
            else some (.returns kernSuccess next)

/-- `do_memcpy` -/
def doMemcpy (toCopy : ℕ) (state : Copying) : Option Outcome :=
  call.memcpyLoop toCopy call.windowDefaultSize toCopy state

/-- `do_copy` once the bytes before the first whole page are copied -/
def doCopyAligned (state : Copying) : Option Outcome :=
  if state.n < call.vmcopyBetterThanMemcpy then none
  else
    match call.doVmCopy state with
    | some (.returns err next) =>
        if err ≠ kernSuccess ∨ next.n = 0 then some (.returns err next)
        else if call.vmcopyBetterThanMemcpy ≤ next.n then none
        else call.doMemcpy next.n next
    | other => other

/-- `do_copy` -/
def doCopy (state : Copying) : Option Outcome :=
  let misaligned := state.other % call.vmPageSize
  if misaligned = state.offset % call.vmPageSize ∧
      call.vmcopyBetterThanMemcpy + call.vmPageSize - misaligned ≤ state.n then
    match call.doMemcpy (call.vmPageSize - misaligned) state with
    | some (.returns err next) =>
        if err ≠ kernSuccess then some (.returns err next) else call.doCopyAligned next
    | other => other
  else call.doMemcpy state.n state

/-- The end of `pager_memcpy`: `if (! err) assert (n == 0); *size -= n; return err;` -/
def finish (size : ℕ) : Outcome → Option Copied
  | .returns err state =>
      if err = kernSuccess ∧ state.n ≠ 0 then none
      else some ⟨err, sizeSub size state.n, state.object, state.task⟩
  | .jumps err n object task =>
      if err = kernSuccess ∧ n ≠ 0 then none else some ⟨err, sizeSub size n, object, task⟩

/-- `pager_memcpy` from where it is done the hard way -/
def hardWay (size : ℕ) (state : Copying) : Option Copied :=
  (call.doCopy state).bind (finish size)

/-- `pager_memcpy`; `none` where an assert fails -/
def pagerMemcpy (offset other size : ℕ) (object task : Contents) : Option Copied :=
  let state : Copying := ⟨offset, other, size, object, task⟩
  if size = 0 then some ⟨kernSuccess, size, object, task⟩
  else if other % call.vmPageSize = 0 ∧ offset % call.vmPageSize = 0 ∧
      call.vmcopyBetterThanMemcpy ≤ size then
    match call.doVmCopy state with
    | some (.returns err next) =>
        if err ≠ kernSuccess ∨ next.n = 0 then
          some ⟨err, sizeSub size next.n, next.object, next.task⟩
        else if call.vmcopyBetterThanMemcpy ≤ next.n then none
        else call.hardWay size next
    | _ => none
  else call.hardWay size state

end PagerMemcpy

end Hurd.Libpager
