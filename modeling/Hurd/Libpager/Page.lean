import Hurd.Lib.OrdMap
import Mathlib.Algebra.Ring.Nat

/-!
# One page of a memory object

The pagemap entry of a page and the routines of `pagemap.cc` that work on one page at a
time: `internal_flush_request`, `service_WAITLIST`, `send_error_to_WAITLIST`,
`finalize_unlock`, and the parts of the message handlers between two points where the
pager lock is released.  All of them run on the entry loaded in `tmp_pagemap_entry` and
reach, besides it, only the lock record of `{OFFSET, page_size}`, the `NEXTERROR` entries
of the page, and the messages they send.  `Page` is that part of the pager.

A failed `assert`, and `WAITLIST.at(0)` on an empty list, is `none`.

The C++ accessors of `pagemap_entry_data` that only read or write one member are record
fields and updates here; `accesslist` is a `std::set`, so it is kept in increasing order.
-/

namespace Hurd.Libpager

/-- `mach_port_t`: a client is named by its memory control port. -/
abbrev MachPort := ℕ

/-- `kern_return_t`. -/
abbrev KernReturn := ℕ

def kernSuccess : KernReturn := 0

/-- `MACH_PORT_DEAD`. -/
def machPortDead : MachPort := 2 ^ 32 - 1

/-- `vm_prot_t`, a bit mask. -/
abbrev VmProt := ℕ

def vmProtNone : VmProt := 0

def vmProtWrite : VmProt := 2

def vmProtNoChange : VmProt := 8

/-- `DESIRED_ACCESS & VM_PROT_WRITE`. -/
def wantsWrite (access : VmProt) : Bool := access &&& vmProtWrite != 0

/-- `memory_object_return_t`. -/
inductive MemoryObjectReturn
  | none
  | dirty
  | all
deriving DecidableEq

structure WaitlistClient where
  client : MachPort
  writeAccessRequested : Bool
deriving DecidableEq

/-- `pagemap_entry_data`; the default value is the empty page. -/
structure PagemapEntry where
  accesslist : OrdSet MachPort := ∅
  waitlist : List WaitlistClient := []
  pagingout : Bool := false
  writeAccessGranted : Bool := false
  invalid : Bool := false
  error : KernReturn := kernSuccess
deriving DecidableEq

/-- `is_any_client_waiting_for_write_access`. -/
def PagemapEntry.isAnyClientWaitingForWriteAccess (entry : PagemapEntry) : Bool :=
  entry.waitlist.any (·.writeAccessRequested)

/-- `outstanding_client_lock`. -/
structure OutstandingClientLock where
  count : ℕ := 0
  internalLockOutstanding : Bool := false
deriving DecidableEq

/-- A `NEXTERROR` entry of a page. -/
structure NexterrorEntry where
  client : MachPort
  error : KernReturn
deriving DecidableEq

/--
A message sent, or a callback made, for a page.  The `accesslist` of a data supply is the
ACCESSLIST of the page at the moment of sending; it is not part of the message.
-/
inductive PageEvent
  | dataSupply (accesslist : OrdSet MachPort) (client : MachPort) (data : ℕ)
      (deallocate : Bool) (lockValue : VmProt) (precious : Bool)
  | dataError (client : MachPort) (error : KernReturn)
  | lockRequest (client : MachPort) (shouldReturn : MemoryObjectReturn) (shouldFlush : Bool)
      (lockValue : VmProt) (replyRequested : Bool)
  | readPage
  | unlockPage
  | writePage (data : ℕ)
  | notifyEvict
deriving DecidableEq

/-- What `pager_read_page` returns. -/
structure ReadResult where
  error : KernReturn := kernSuccess
  buffer : ℕ := 0
  writeLock : Bool := false

/--
What the callbacks return for a page during one handler, which calls each of them at most
once for it.  `staleNotify` is what `alloca` left in the page's slot of `do_notify`.
-/
structure PageCallbacks where
  read : ReadResult := {}
  unlock : KernReturn := kernSuccess
  write : KernReturn := kernSuccess
  staleNotify : Bool := false

/-- The part of a pager that the routines for one page read and write. -/
structure Page where
  terminating : Bool := false
  /-- `PRECIOUS`, an alias of `notify_on_evict`. -/
  precious : Bool := false
  entry : PagemapEntry := {}
  /-- `outstanding_locks[{OFFSET, page_size}].locks`, where there is such a record. -/
  locks : Option (OrdMap MachPort OutstandingClientLock) := none
  nexterror : List NexterrorEntry := []
  sent : List PageEvent := []

namespace Page

def send (page : Page) (event : PageEvent) : Page :=
  { page with sent := page.sent ++ [event] }

/-- The lock record of a client. -/
def lock? (page : Page) (client : MachPort) : Option OutstandingClientLock :=
  page.locks.bind (·.find? client)

def internalFlushRequest (page : Page) (client : MachPort) : Page :=
  let record := (page.lock? client).getD {}
  { page with
    locks := some ((page.locks.getD ∅).insert client
      { count := record.count + 1, internalLockOutstanding := true })
    sent := page.sent ++ [.lockRequest client .all true vmProtNoChange true] }

/-- `internal_flush_request` to each client of a list in turn. -/
def flushEach (page : Page) (clients : List MachPort) : Page :=
  clients.foldl internalFlushRequest page

/-- `memory_object_data_supply`. -/
def supply (page : Page) (client : MachPort) (data : ℕ) (deallocate : Bool)
    (lockValue : VmProt) : Page :=
  page.send (.dataSupply page.entry.accesslist client data deallocate lockValue page.precious)

/-- `add_client_to_ACCESSLIST` and `pop_first_WAITLIST_client`. -/
def moveToAccesslist (page : Page) (client : MachPort) (rest : List WaitlistClient) : Page :=
  { page with
    entry := { page.entry with
      accesslist := page.entry.accesslist.insert client
      waitlist := rest } }

/-- The `do` loop of `service_WAITLIST`, which supplies readers up to the next writer. -/
def supplyReaders (data : ℕ) (deallocate : Bool) (first : WaitlistClient) :
    List WaitlistClient → Page → Page
  | [], page => (page.moveToAccesslist first.client []).supply first.client data deallocate vmProtWrite
  | next :: rest, page =>
      let page := (page.moveToAccesslist first.client (next :: rest)).supply first.client data
        (if next.writeAccessRequested then deallocate else false) vmProtWrite
      if next.writeAccessRequested then page
      else supplyReaders data deallocate next rest page

def setWriteAccessGranted (page : Page) (granted : Bool) : Page :=
  { page with entry := { page.entry with writeAccessGranted := granted } }

/-- The two branches of `service_WAITLIST`: one writer, or the readers up to the next writer. -/
def serveFirst (page : Page) (data : ℕ) (allowWriteAccess deallocate : Bool)
    (first : WaitlistClient) (rest : List WaitlistClient) : Page :=
  if allowWriteAccess && first.writeAccessRequested then
    ((page.supply first.client data deallocate 0).moveToAccesslist
      first.client rest).setWriteAccessGranted true
  else (supplyReaders data deallocate first rest page).setWriteAccessGranted false

/-- The end of `service_WAITLIST`. -/
def flushForWaiting (page : Page) : Page :=
  if page.entry.waitlist.isEmpty then page else page.flushEach page.entry.accesslist.toList

def serviceWaitlist (page : Page) (data : ℕ) (allowWriteAccess deallocate : Bool) :
    Option Page :=
  if page.terminating then some page
  else
    match page.entry.waitlist with
    | [] => none
    | first :: rest =>
        some (page.serveFirst data allowWriteAccess deallocate first rest).flushForWaiting

/-- One client of the loop in `send_error_to_WAITLIST`. -/
def sendErrorTo (page : Page) (waiting : WaitlistClient) : Page :=
  if waiting.client ∈ page.entry.accesslist then
    { page.internalFlushRequest waiting.client with
      nexterror := page.nexterror ++ [⟨waiting.client, page.entry.error⟩] }
  else page.send (.dataError waiting.client page.entry.error)

def setWaitlist (page : Page) (waitlist : List WaitlistClient) : Page :=
  { page with entry := { page.entry with waitlist := waitlist } }

def sendErrorToWaitlist (page : Page) : Page :=
  (page.entry.waitlist.foldl sendErrorTo page).setWaitlist []

def finalizeUnlock (page : Page) (error : KernReturn) : Option Page :=
  match page.entry.waitlist with
  | [] => none
  | first :: rest =>
      let page := page.setWaitlist rest
      if error = kernSuccess then
        let page := (page.send
          (.lockRequest first.client .none false vmProtNone false)).setWriteAccessGranted true
        if rest.isEmpty then some page
        else some (page.internalFlushRequest first.client)
      else
        let page := page.internalFlushRequest first.client
        some { page with nexterror := page.nexterror ++ [⟨first.client, error⟩] }

def setError (page : Page) (error : KernReturn) : Page :=
  { page with entry := { page.entry with error := error } }

/-- The end of a page in, in `data_request` and in `internal_lock_completed`. -/
def finishPagein (page : Page) (result : ReadResult) : Option Page :=
  let page := page.setError result.error
  if result.error = kernSuccess then
    page.serviceWaitlist result.buffer (!result.writeLock) true
  else some page.sendErrorToWaitlist

/-- The `operation` flag of a page in `internal_lock_completed`. -/
inductive Operation
  | none
  | pagein
  | unlock
deriving DecidableEq

def removeFromAccesslist (page : Page) (client : MachPort) : Page :=
  { page with entry := { page.entry with accesslist := page.entry.accesslist.erase client } }

/-- The first loop of `internal_lock_completed`, for one page. -/
def internalLockCompletedEnter (page : Page) (client : MachPort) : Option (Page × Operation) :=
  if page.entry.writeAccessGranted then none
  else if client ∈ page.entry.accesslist ∧ page.entry.waitlist ≠ [] then
    let page := page.removeFromAccesslist client
    if page.entry.accesslist.isEmpty then
      if page.entry.invalid then some (page.sendErrorToWaitlist, .none)
      else some (page, .pagein)
    else if page.entry.accesslist.size = 1 ∧
        ∃ first ∈ page.entry.waitlist.head?, first.client ∈ page.entry.accesslist then
      some (page, .unlock)
    else some (page, .none)
  else some (page, .none)

/-- The second loop of `internal_lock_completed`, with the pager lock released. -/
def internalLockCompletedCall (page : Page) : Operation → Page
  | .none => page
  | .pagein => page.send .readPage
  | .unlock => page.send .unlockPage

/-- The third loop of `internal_lock_completed`, for one page. -/
def internalLockCompletedExit (page : Page) (results : PageCallbacks) :
    Operation → Option Page
  | .none => some page
  | .pagein => page.finishPagein results.read
  | .unlock => page.finalizeUnlock results.unlock

/-- `internal_lock_completed` on a single page. -/
def internalLockCompleted (page : Page) (client : MachPort) (results : PageCallbacks) :
    Option Page :=
  if page.terminating then some page
  else
    (page.internalLockCompletedEnter client).bind fun (page, operation) =>
      (page.internalLockCompletedCall operation).internalLockCompletedExit results operation

def addToWaitlist (page : Page) (client : MachPort) (write : Bool) : Page :=
  { page with entry := { page.entry with waitlist := page.entry.waitlist ++ [⟨client, write⟩] } }

/-- The `NEXTERROR` loop of `data_request`: the first entry of a client, and the others. -/
def takeNexterror (client : MachPort) :
    List NexterrorEntry → Option (NexterrorEntry × List NexterrorEntry)
  | [] => none
  | entry :: rest =>
      if entry.client = client then some (entry, rest)
      else (takeNexterror client rest).map fun found => (found.1, entry :: found.2)

/-- What `data_request` has left to do when it first releases the pager lock. -/
inductive RequestStage
  | done
  /-- Call `internal_lock_completed` and return. -/
  | lockCompleted
  /-- Call `pager_read_page` and serve the WAITLIST. -/
  | pagein
deriving DecidableEq

/-- `data_request` from the test of WAITLIST on. -/
def dataRequestWait (page : Page) (client : MachPort) (write : Bool) : Page × RequestStage :=
  if ¬page.entry.waitlist.isEmpty then (page.addToWaitlist client write, .done)
  else if page.entry.writeAccessGranted then
    ((page.addToWaitlist client write).flushEach page.entry.accesslist.toList, .done)
  else if write ∧ ¬page.entry.accesslist.isEmpty then
    ((page.addToWaitlist client write).flushEach page.entry.accesslist.toList, .done)
  else
    -- no `return` after the error: the request goes on to the page in
    let page := if page.entry.invalid then page.send (.dataError client page.entry.error) else page
    (page.addToWaitlist client write, .pagein)

/-- `data_request` up to the point where it releases the pager lock. -/
def dataRequestEnter (page : Page) (client : MachPort) (write : Bool) : Page × RequestStage :=
  match takeNexterror client page.nexterror with
  | some (found, rest) =>
      -- `set_ERROR` is called on `tmp_pagemap_entry`, which is not stored
      ({ page.send (.dataError client found.error) with nexterror := rest }, .done)
  | none =>
      if page.entry.pagingout then
        if page.entry.waitlist.isEmpty ∧ ¬page.entry.accesslist.isEmpty then
          ((page.flushEach page.entry.accesslist.toList).addToWaitlist client write, .done)
        else (page.addToWaitlist client write, .done)
      else if client ∈ page.entry.accesslist then
        if ¬page.entry.waitlist.isEmpty then (page.addToWaitlist client write, .lockCompleted)
        else ((page.removeFromAccesslist client).setWriteAccessGranted false).dataRequestWait
          client write
      else page.dataRequestWait client write

/-- `data_request` from the point where it releases the pager lock. -/
def finishRequest (client : MachPort) (results : PageCallbacks) :
    Page × RequestStage → Option Page
  | (page, .done) => some page
  | (page, .lockCompleted) => page.internalLockCompleted client results
  | (page, .pagein) => (page.send .readPage).finishPagein results.read

/-- `data_request` on a pager that is not terminating. -/
def dataRequest (page : Page) (client : MachPort) (write : Bool) (results : PageCallbacks) :
    Option Page :=
  finishRequest client results (page.dataRequestEnter client write)

/--
The first loop of `data_unlock`, for one page: the page, the `do_unlock` flag, and the
clients to flush.
-/
def dataUnlockEnter (page : Page) (client : MachPort) :
    Option (Page × Bool × List MachPort) :=
  if client ∉ page.entry.accesslist ∨ page.entry.writeAccessGranted ∨ page.entry.pagingout then
    none
  else if page.entry.isAnyClientWaitingForWriteAccess then some (page, false, [])
  else if ¬page.entry.waitlist.isEmpty then some (page.addToWaitlist client true, false, [])
  else if 1 < page.entry.accesslist.size then
    some (page.addToWaitlist client true, false, page.entry.accesslist.toList)
  else some (page.addToWaitlist client true, true, [])

/-- `pager_unlock_page`, where `data_unlock` or `data_return` calls it. -/
def unlockCall (page : Page) (doUnlock : Bool) : Page :=
  if doUnlock then page.send .unlockPage else page

/-- The last loop of `data_unlock` and of `data_return`, for one page. -/
def unlockExit (page : Page) (doUnlock : Bool) (results : PageCallbacks) : Option Page :=
  if doUnlock then page.finalizeUnlock results.unlock else some page

/-- The flags `data_return` computes for a page in its first loop. -/
structure ReturnFlags where
  doUnlock : Bool
  doNotify : Bool
deriving DecidableEq

def evicted (page : Page) : Page :=
  { page with
    entry := { page.entry with invalid := false, error := kernSuccess }
    nexterror := [] }

/-- The first loop of `data_return`, for one page, up to the test of `DIRTY`. -/
def dataReturnHandOff (page : Page) (client : MachPort) (data : ℕ) (dirty kernelCopy : Bool) :
    Option (Page × ReturnFlags) :=
  if kernelCopy then some (page, ⟨false, false⟩)
  else
    let page := if client = machPortDead then page else page.removeFromAccesslist client
    if page.entry.accesslist.isEmpty ∧ ¬page.entry.waitlist.isEmpty then
      (page.serviceWaitlist data true false).map fun page => (page, ⟨false, false⟩)
    else if page.entry.accesslist.size = 1 ∧ ¬page.entry.writeAccessGranted ∧
        (∃ first ∈ page.entry.waitlist.head?, first.client ∈ page.entry.accesslist) ∧
        ¬page.terminating then
      some (page, ⟨true, false⟩)
    else if page.entry.accesslist.isEmpty ∧ page.entry.waitlist.isEmpty ∧ ¬dirty then
      some (page.evicted, ⟨false, true⟩)
    else some (page, ⟨false, false⟩)

/-- The first loop of `data_return`, for one page. -/
def dataReturnEnter (page : Page) (client : MachPort) (data : ℕ) (dirty kernelCopy : Bool) :
    Option (Page × ReturnFlags) :=
  (page.dataReturnHandOff client data dirty kernelCopy).map fun (page, flags) =>
    ({ page with entry := { page.entry with pagingout := page.entry.pagingout || dirty } }, flags)

/-- The callbacks of `data_return` for a page; a `do_notify` slot that was not set is stale. -/
def returnCall (page : Page) (flags : ReturnFlags) (results : PageCallbacks) : Page :=
  let page := page.unlockCall flags.doUnlock
  if flags.doNotify || results.staleNotify then page.send .notifyEvict else page

def setInvalid (page : Page) (invalid : Bool) : Page :=
  { page with entry := { page.entry with invalid := invalid } }

def setPagingout (page : Page) (pagingout : Bool) : Page :=
  { page with entry := { page.entry with pagingout := pagingout } }

/-- `INVALID` and `ERROR` after `pager_write_page` has returned. -/
def recordWrite (page : Page) (error : KernReturn) : Page :=
  if error = kernSuccess then page.setInvalid false
  else (page.setInvalid true).setError error

/--
The loop after the writes in `service_first_WRITEWAIT_entry`, for one page that was
written: the page and its `do_notify` flag.  `last` says that no other entry of WRITEWAIT
covers the page.
-/
def afterWrite (page : Page) (data : ℕ) (kernelCopy : Bool) (error : KernReturn)
    (last : Bool) : Option (Page × Bool) :=
  let page := page.recordWrite error
  if last then
    let page := page.setPagingout false
    if kernelCopy then some (page, false)
    else if ¬page.entry.waitlist.isEmpty then
      (page.serviceWaitlist data true false).map fun page => (page, false)
    else some (page.evicted, true)
  else if kernelCopy then some (page, false)
  else none

/-- `pager_notify_evict`, where `service_first_WRITEWAIT_entry` calls it. -/
def notifyCall (page : Page) (doNotify : Bool) : Page :=
  if page.precious && doNotify then page.send .notifyEvict else page

/-- The lock record after a client's part of it has changed; an empty record is erased. -/
def storeLocks (page : Page) (locks : OrdMap MachPort OutstandingClientLock) : Page :=
  { page with locks := if locks.isEmpty then none else some locks }

/--
`drop_client` on the entry of a page.  The loop over WAITLIST erases the client from a copy
of the list (`auto wl2`), so the entry keeps its WAITLIST.
-/
def dropClient (page : Page) (control : MachPort) : Page :=
  if control ∈ page.entry.accesslist then
    (page.removeFromAccesslist control).setWriteAccessGranted false
  else page

end Page

end Hurd.Libpager
