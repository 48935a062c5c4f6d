import Hurd.Lib.Transition
import Hurd.Libpager.Page
import Mathlib.Data.Prod.Lex
import Mathlib.Logic.Function.Basic

/-!
# The pager and its message handlers

The state of a `struct pager` and its handlers, each run to completion as the demuxer runs
them: a handler that releases the pager lock around a callback takes it again before any
other handler of the same object starts.  The loops over the pages of a message are kept as
the source has them; what they do to each page is in `Hurd.Libpager.Page`.

Offsets and lengths are natural numbers, and their sums wrap around where the source compares
them, in `matching_page_count_on_WRITEWAIT`.  The pagemap is a total function: a page past the
end of the vector reads as the empty page, which is what `pagemap_vector::operator[]` creates
there.  `NEXTERROR` is kept by page, as every scan of the list selects one offset.  Memory is
not modelled (`munmap`, the buffers), a returned or supplied page is its contents; neither are
the condition variables, whose notifications are recorded as events.
-/

namespace Hurd.Libpager

/-- The key of `outstanding_locks`: an offset and a length. -/
abbrev LockKey := ℕ ×ₗ ℕ

/-- The number of values of `vm_offset_t` -/
def offsetRange : ℕ := 2 ^ 32

/-- A `WRITEWAIT` entry; `data` gives the contents page by page. -/
structure WritewaitEntry where
  offset : ℕ
  data : ℕ → ℕ
  length : ℕ
  kernelCopy : Bool

structure OutstandingChangeRequest where
  client : MachPort
  reply : MachPort

/-- `std::tie (client, reply)` -/
def OutstandingChangeRequest.tie (request : OutstandingChangeRequest) : MachPort ×ₗ MachPort :=
  toLex (request.client, request.reply)

theorem OutstandingChangeRequest.tie_injective : Function.Injective tie := by
  rintro ⟨client, reply⟩ ⟨otherClient, otherReply⟩ same
  cases toLex.injective same
  rfl

instance : LinearOrder OutstandingChangeRequest :=
  LinearOrder.lift' OutstandingChangeRequest.tie OutstandingChangeRequest.tie_injective

/-- What a handler does that can be seen from outside, in order. -/
inductive Event
  /-- A message or a callback for one page. -/
  | page (number : ℕ) (event : PageEvent)
  /-- A lock request of `lock_object`. -/
  | lockRequest (client : MachPort) (offset length : ℕ) (shouldReturn : MemoryObjectReturn)
      (shouldFlush : Bool) (lockValue : VmProt) (replyRequested : Bool)
  | ready (client : MachPort) (mayCache : Bool) (copyStrategy : ℕ)
  | changeCompleted (reply : MachPort)
  /-- `notify_all` on the condition variable of a lock record. -/
  | wakeLockWaiters (key : LockKey)
  /-- `notify_all` on the condition variable of a `WRITEWAIT` entry. -/
  | wakeWriteWaiters (offset length : ℕ)
deriving DecidableEq

structure Pager where
  pageSize : ℕ
  pageSize_pos : 0 < pageSize
  mayCache : Bool
  copyStrategy : ℕ
  notifyOnEvict : Bool
  terminating : Bool := false
  clients : OrdSet MachPort := ∅
  writewait : List WritewaitEntry := []
  nexterror : ℕ → List NexterrorEntry := fun _ => []
  outstandingLocks : OrdMap LockKey (OrdMap MachPort OutstandingClientLock) := ∅
  outstandingChangeRequests : OrdSet OutstandingChangeRequest := ∅
  pagemap : ℕ → PagemapEntry := fun _ => {}
  /-- What the running handler has done so far. -/
  sent : List Event := []

/-- The results of the callbacks a handler makes, page by page. -/
abbrev Callbacks := ℕ → PageCallbacks

namespace Pager

def pageKey (pager : Pager) (number : ℕ) : LockKey :=
  toLex (number * pager.pageSize, pager.pageSize)

/-- What the routines for page `number` see, before they have sent anything. -/
def page (pager : Pager) (number : ℕ) : Page where
  terminating := pager.terminating
  precious := pager.notifyOnEvict
  entry := pager.pagemap number
  locks := pager.outstandingLocks.find? (pager.pageKey number)
  nexterror := pager.nexterror number

def setLocks (pager : Pager) (key : LockKey)
    (locks : Option (OrdMap MachPort OutstandingClientLock)) : Pager :=
  { pager with
    outstandingLocks :=
      match locks with
      | none => pager.outstandingLocks.erase key
      | some locks => pager.outstandingLocks.insert key locks }

/-- Store what the routines for page `number` have done. -/
def setPage (pager : Pager) (number : ℕ) (page : Page) : Pager :=
  { pager.setLocks (pager.pageKey number) page.locks with
    pagemap := Function.update pager.pagemap number page.entry
    nexterror := Function.update pager.nexterror number page.nexterror
    sent := pager.sent ++ page.sent.map (Event.page number) }

def onPage (pager : Pager) (number : ℕ) (part : Page → Option Page) : Option Pager :=
  (part (pager.page number)).map (pager.setPage number)

/-- `onPage` for a loop that also computes a flag for each page. -/
def onPageFlag {Flag : Type} (state : Pager × (ℕ → Flag)) (number : ℕ)
    (part : Page → Option (Page × Flag)) : Option (Pager × (ℕ → Flag)) :=
  (part (state.1.page number)).map fun (page, flag) =>
    (state.1.setPage number page, Function.update state.2 number flag)

def emit (pager : Pager) (event : Event) : Pager :=
  { pager with sent := pager.sent ++ [event] }

/-- The pages of a message, `for (i = 0; i < npages; i ++, page ++)`. -/
def pagesOf (pager : Pager) (offset length : ℕ) : List ℕ :=
  List.range' (offset / pager.pageSize) (length / pager.pageSize)

def internalLockCompleted (pager : Pager) (client : MachPort) (offset length : ℕ)
    (results : Callbacks) : Option Pager :=
  if length % pager.pageSize ≠ 0 ∨ offset % pager.pageSize ≠ 0 then none
  else if pager.terminating then some pager
  else
    let pages := pager.pagesOf offset length
    (Loop.forEach (fun number state =>
        onPageFlag state number fun page => page.internalLockCompletedEnter client)
      pages (pager, fun _ => .none)).bind fun state =>
    (Loop.forEach (fun number pager =>
        pager.onPage number fun page => some (page.internalLockCompletedCall (state.2 number)))
      pages state.1).bind fun pager =>
    Loop.forEach (fun number pager =>
        pager.onPage number fun page =>
          page.internalLockCompletedExit (results number) (state.2 number))
      pages pager

def dataRequest (pager : Pager) (client : MachPort) (offset length : ℕ) (access : VmProt)
    (results : Callbacks) : Option Pager :=
  if length ≠ pager.pageSize ∨ offset % pager.pageSize ≠ 0 then none
  else if pager.terminating then some pager
  else
    let number := offset / pager.pageSize
    pager.onPage number fun page => page.dataRequest client (wantsWrite access) (results number)

/-- The rest of `lock_completed` and of the lock loop in `drop_client` on one record. -/
def storeLocks (pager : Pager) (key : LockKey) (locks : OrdMap MachPort OutstandingClientLock) :
    Pager :=
  if locks.isEmpty then (pager.emit (.wakeLockWaiters key)).setLocks key none
  else pager.setLocks key (some locks)

def lockCompleted (pager : Pager) (client : MachPort) (offset length : ℕ)
    (results : Callbacks) : Option Pager :=
  let key : LockKey := toLex (offset, length)
  match pager.outstandingLocks.find? key with
  | none => none
  | some locks =>
      match locks.find? client with
      -- `record.locks[MEMORY_CONTROL]` creates a record with count zero
      | none => none
      | some record =>
          if record.count = 0 then none
          else if record.count = 1 then
            let pager := pager.storeLocks key (locks.erase client)
            if record.internalLockOutstanding then
              pager.internalLockCompleted client offset length results
            else some pager
          else
            some (pager.storeLocks key
              (locks.insert client { record with count := record.count - 1 }))

/--
One pass of the first loop of `data_unlock`.  Its flushes name `OFFSET`, the offset of the
message and not that of the page, so they all go to the first page.
-/
def unlockPass (client : MachPort) (first number : ℕ) (state : Pager × (ℕ → Bool)) :
    Option (Pager × (ℕ → Bool)) :=
  ((state.1.page number).dataUnlockEnter client).bind fun (page, doUnlock, flushes) =>
    ((state.1.setPage number page).onPage first fun page => some (page.flushEach flushes)).map
      fun pager => (pager, Function.update state.2 number doUnlock)

def dataUnlock (pager : Pager) (client : MachPort) (offset length : ℕ) (results : Callbacks) :
    Option Pager :=
  if length % pager.pageSize ≠ 0 ∨ offset % pager.pageSize ≠ 0 then none
  else if pager.terminating then some pager
  else
    let pages := pager.pagesOf offset length
    (Loop.forEach (unlockPass client (offset / pager.pageSize)) pages
      (pager, fun _ => false)).bind fun state =>
    (Loop.forEach (fun number pager =>
        pager.onPage number fun page => some (page.unlockCall (state.2 number)))
      pages state.1).bind fun pager =>
    Loop.forEach (fun number pager =>
        pager.onPage number fun page => page.unlockExit (state.2 number) (results number))
      pages pager

/--
The test of `matching_page_count_on_WRITEWAIT` for an entry of `WRITEWAIT`.  The sums are those of
a `vm_offset_t`: the end of a range that reaches the last page is zero.
-/
def matchesPage (pager : Pager) (offset length number : ℕ) : Bool :=
  decide (offset % offsetRange ≤ number * pager.pageSize % offsetRange ∧
    (number + 1) * pager.pageSize % offsetRange ≤ (offset + length) % offsetRange)

/-- `matching_page_count_on_WRITEWAIT`. -/
def matchingPageCountOnWritewait (pager : Pager) (number : ℕ) : ℕ :=
  pager.writewait.countP fun next => pager.matchesPage next.offset next.length number

def serviceFirstWritewaitEntry (pager : Pager) (results : Callbacks) : Option Pager :=
  match pager.writewait with
  | [] => none
  | current :: _ =>
      let pages := pager.pagesOf current.offset current.length
      let pageouts := pages.filter fun number => pager.matchingPageCountOnWritewait number = 1
      let data := fun number => current.data (number - current.offset / pager.pageSize)
      (Loop.forEach (fun number pager =>
          pager.onPage number fun page => some (page.send (.writePage (data number))))
        pageouts pager).bind fun pager =>
      (Loop.forEach (fun number state =>
          onPageFlag state number fun page =>
            page.afterWrite (data number) current.kernelCopy (results number).write
              (pager.matchingPageCountOnWritewait number = 1))
        pageouts (pager, fun _ => false)).bind fun state =>
      (Loop.forEach (fun number pager =>
          pager.onPage number fun page => some (page.notifyCall (state.2 number)))
        pages state.1).map fun pager =>
          { pager.emit (.wakeWriteWaiters current.offset current.length) with
            writewait := pager.writewait.tail }

/-- `while (! WRITEWAIT.empty())`; every pass removes one entry. -/
def serviceWritewait (results : Callbacks) : ℕ → Pager → Option Pager
  | 0, pager => some pager
  | passes + 1, pager =>
      if pager.writewait.isEmpty then some pager
      else (pager.serviceFirstWritewaitEntry results).bind (serviceWritewait results passes)

/-- The loops of `data_return` over the flags computed in its first loop. -/
def dataReturnUnlocks (pager : Pager) (pages : List ℕ) (flags : ℕ → Page.ReturnFlags)
    (results : Callbacks) : Option Pager :=
  (Loop.forEach (fun number pager =>
      pager.onPage number fun page => some (page.returnCall (flags number) (results number)))
    pages pager).bind fun pager =>
  Loop.forEach (fun number pager =>
      pager.onPage number fun page => page.unlockExit (flags number).doUnlock (results number))
    pages pager

def dataReturn (pager : Pager) (client : MachPort) (offset : ℕ) (data : ℕ → ℕ) (length : ℕ)
    (dirty kernelCopy : Bool) (results : Callbacks) : Option Pager :=
  if length % pager.pageSize ≠ 0 ∨ offset % pager.pageSize ≠ 0 then none
  else
    let pages := pager.pagesOf offset length
    (Loop.forEach (fun number state =>
        onPageFlag state number fun page =>
          page.dataReturnEnter client (data (number - offset / pager.pageSize)) dirty kernelCopy)
      pages (pager, fun _ => ⟨false, false⟩)).bind fun state =>
    (if ∃ number ∈ pages, (state.2 number).doUnlock ∨ (state.2 number).doNotify then
        if dirty then none else state.1.dataReturnUnlocks pages state.2 results
      else some state.1).bind fun pager =>
    if dirty then
      let queued :=
        { pager with writewait := pager.writewait ++ [⟨offset, data, length, kernelCopy⟩] }
      if ¬pager.writewait.isEmpty then some queued
      else serviceWritewait results queued.writewait.length queued
    else some pager

def objectInit (pager : Pager) (control : MachPort) (pagesize : ℕ) : Option Pager :=
  if pagesize ≠ pager.pageSize then none
  else if pager.terminating then some pager
  else
    some (({ pager with clients := pager.clients.insert control } : Pager).emit
      (.ready control pager.mayCache pager.copyStrategy))

/--
The lock loop of `drop_client` on one record.  `internal_lock_completed` can add records
only for the pages of the record it is called with, which the iterator has passed, so the
loop visits the keys that were there when it started.
-/
def dropLocks (pager : Pager) (control : MachPort) (key : LockKey) (results : Callbacks) :
    Option Pager :=
  match pager.outstandingLocks.find? key with
  | none => some pager
  | some locks =>
      let internalLockRequired :=
        ((locks.find? control).map (·.internalLockOutstanding)).getD false
      let pager := pager.storeLocks key (locks.erase control)
      if internalLockRequired then
        pager.internalLockCompleted control (ofLex key).1 (ofLex key).2 results
      else some pager

def dropClient (pager : Pager) (control : MachPort) (results : Callbacks) : Option Pager :=
  (Loop.forEach (fun key pager => pager.dropLocks control key results)
    pager.outstandingLocks.keys pager).map fun pager =>
      { pager with
        pagemap := fun number => ((pager.page number).dropClient control).entry
        sent := pager.sent ++
          (pager.outstandingChangeRequests.toList.filter (·.client = control)).map
            fun request => .changeCompleted request.reply
        clients := pager.clients.erase control }

/-- The clients `lock_object` signals. -/
def lockObjectClients (pager : Pager) (offset length : ℕ)
    (shouldReturn : MemoryObjectReturn) (flush : Bool) : OrdSet MachPort :=
  let onlySignalWriteClients := !flush && shouldReturn ≠ .all
  (pager.pagesOf offset length).foldl (fun clients number =>
    if !onlySignalWriteClients || (pager.pagemap number).writeAccessGranted then
      (pager.pagemap number).accesslist.toList.foldl (fun clients client => clients.insert client)
        clients
    else clients) ∅

/-- One client of the synchronous branch of `lock_object`. -/
def countLock (pager : Pager) (key : LockKey) (client : MachPort) : Pager :=
  let locks := (pager.outstandingLocks.find? key).getD ∅
  let record := (locks.find? client).getD {}
  pager.setLocks key (some (locks.insert client { record with count := record.count + 1 }))

/-- One pass of the loops of `lock_object` over the clients it signals. -/
def signal (offset length : ℕ) (shouldReturn : MemoryObjectReturn) (flush sync : Bool)
    (pager : Pager) (client : MachPort) : Pager :=
  let pager := pager.emit
    (.lockRequest client offset length shouldReturn flush vmProtNoChange sync)
  if sync then pager.countLock (toLex (offset, length)) client else pager

/-- `lock_object` up to the point where it waits for the replies. -/
def lockObject (pager : Pager) (offset length : ℕ) (shouldReturn : MemoryObjectReturn)
    (flush sync : Bool) : Pager :=
  (pager.lockObjectClients offset length shouldReturn flush).toList.foldl
    (signal offset length shouldReturn flush sync) pager

end Pager

/--
What a pager is asked to do: the messages of the kernels, and the calls of the filesystem
that change what the handlers read.
-/
inductive Input
  | objectInit (control : MachPort) (pagesize : ℕ)
  | dataRequest (client : MachPort) (offset length : ℕ) (access : VmProt)
  | dataUnlock (client : MachPort) (offset length : ℕ)
  | dataReturn (client : MachPort) (offset : ℕ) (data : ℕ → ℕ) (length : ℕ)
      (dirty kernelCopy : Bool)
  | lockCompleted (client : MachPort) (offset length : ℕ)
  | objectTerminate (control : MachPort)
  | deadName (control : MachPort)
  | lockObject (offset length : ℕ) (shouldReturn : MemoryObjectReturn) (flush sync : Bool)
  | shutdown

namespace Pager

/-- Run one handler to completion, recording what it does; `none` when an assert fails. -/
def handle (pager : Pager) (input : Input × Callbacks) : Option Pager :=
  let pager := { pager with sent := [] }
  match input.1 with
  | .objectInit control pagesize => pager.objectInit control pagesize
  | .dataRequest client offset length access =>
      pager.dataRequest client offset length access input.2
  | .dataUnlock client offset length => pager.dataUnlock client offset length input.2
  | .dataReturn client offset data length dirty kernelCopy =>
      pager.dataReturn client offset data length dirty kernelCopy input.2
  | .lockCompleted client offset length => pager.lockCompleted client offset length input.2
  | .objectTerminate control => pager.dropClient control input.2
  | .deadName control => pager.dropClient control input.2
  | .lockObject offset length shouldReturn flush sync =>
      some (pager.lockObject offset length shouldReturn flush sync)
  | .shutdown => some { pager with terminating := true }

/-- A pager as its constructor leaves it. -/
def create (pageSize : ℕ) (pageSize_pos : 0 < pageSize) (mayCache : Bool) (copyStrategy : ℕ)
    (notifyOnEvict : Bool) : Pager :=
  { pageSize, pageSize_pos, mayCache, copyStrategy, notifyOnEvict }

/-- `get_error`. -/
def getError (pager : Pager) (offset : ℕ) : KernReturn :=
  (pager.pagemap (offset / pager.pageSize)).error

end Pager

end Hurd.Libpager
