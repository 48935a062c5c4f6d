import Hurd.Libpager.Handlers
import Hurd.Libpager.Pagemap

/-!
# The handlers as threads

A handler that calls back into the filesystem releases the pager lock first and takes it again
afterwards, and in between other handlers run.  Here a handler is cut where it releases the lock:
a thread has the callbacks it has yet to make and what it does when it has the lock again, and a
step of the pager is one thread going from one such point to the next, or a callback being made
or returning.  The condition variables of `lock_object` may wake up at any time.

An offset is a 32-bit number, so that the offset of a page may wrap around; the pagemap, on the
other hand, goes by page numbers.  The routines that work on `tmp_pagemap_entry` are those of
`Hurd.Libpager.Page`, and the pagemap may be any `Pagemap`.
-/

namespace Hurd.Libpager

/-- `struct pager` -/
structure SharedPager (σ : Type) where
  pageSize : ℕ
  pageSize_pos : 0 < pageSize
  mayCache : Bool
  copyStrategy : ℕ
  notifyOnEvict : Bool
  terminating : Bool := false
  clients : OrdSet MachPort := ∅
  writewait : List WritewaitEntry := []
  /-- `NEXTERROR`, by offset -/
  nexterror : ℕ → List NexterrorEntry := fun _ => []
  outstandingLocks : OrdMap LockKey (OrdMap MachPort OutstandingClientLock) := ∅
  outstandingChangeRequests : OrdSet OutstandingChangeRequest := ∅
  pagemap : σ
  /-- The messages and the callbacks so far -/
  sent : List Event := []

/-- A callback into the filesystem -/
inductive Call
  | readPage (number : ℕ)
  | unlockPage (number : ℕ)
  | writePage (number data : ℕ)
  | notifyEvict (number : ℕ)
deriving DecidableEq

/-- What a thread does when it has taken the pager lock again. -/
inductive Resume
  /-- The end of `data_request` -/
  | pagein (number : ℕ)
  /--
  The end of `internal_lock_completed`, and where `drop_client` has called it, the client and
  the iterator of its loop
  -/
  | lockCompleted (pages : List ℕ) (operation : ℕ → Page.Operation)
      (drop : Option (MachPort × Option LockKey))
  /-- The last loop of `data_unlock` or of `data_return` -/
  | unlock (pages : List ℕ) (doUnlock : ℕ → Bool)
  /-- `service_first_WRITEWAIT_entry` after the writes -/
  | written (current : WritewaitEntry) (pageouts : List ℕ)
  /-- `service_first_WRITEWAIT_entry` after the notifications -/
  | notified (current : WritewaitEntry)
  /-- `lock_object` after its locks have been answered -/
  | locksAnswered (offset length : ℕ)
  /-- The end of `lock_object` -/
  | writesFinished

/-- A thread that has released the pager lock -/
structure Thread where
  /-- The callbacks yet to be made -/
  calls : List Call := []
  /-- The callback that has not returned yet -/
  busy : Option Call := none
  results : Callbacks := fun _ => {}
  resume : Resume

namespace SharedPager

variable {σ : Type} [Pagemap σ]

/-- `page * page_size` -/
def offsetOf (pager : SharedPager σ) (number : ℕ) : ℕ := number * pager.pageSize % offsetRange

def pageKey (pager : SharedPager σ) (number : ℕ) : LockKey :=
  toLex (pager.offsetOf number, pager.pageSize)

def emit (pager : SharedPager σ) (event : Event) : SharedPager σ :=
  { pager with sent := pager.sent ++ [event] }

/-- A message or a callback names a page by its offset. -/
def pageEvent (pager : SharedPager σ) (number : ℕ) (event : PageEvent) : Event :=
  .page (pager.offsetOf number / pager.pageSize) event

def setLocks (pager : SharedPager σ) (key : LockKey)
    (locks : Option (OrdMap MachPort OutstandingClientLock)) : SharedPager σ :=
  { pager with
    outstandingLocks :=
      match locks with
      | none => pager.outstandingLocks.erase key
      | some locks => pager.outstandingLocks.insert key locks }

/-- What the routines for a page see when its entry is in `tmp_pagemap_entry`. -/
def page (pager : SharedPager σ) (number : ℕ) : Page where
  terminating := pager.terminating
  precious := pager.notifyOnEvict
  entry := Pagemap.tmp pager.pagemap
  locks := pager.outstandingLocks.find? (pager.pageKey number)
  nexterror := pager.nexterror (pager.offsetOf number)

/-- What they have done, with the entry still in `tmp_pagemap_entry`. -/
def putPage (pager : SharedPager σ) (number : ℕ) (page : Page) : SharedPager σ :=
  { pager.setLocks (pager.pageKey number) page.locks with
    pagemap := Pagemap.setTmp pager.pagemap page.entry
    nexterror := Function.update pager.nexterror (pager.offsetOf number) page.nexterror
    sent := pager.sent ++ page.sent.map (pager.pageEvent number) }

def touch (pager : SharedPager σ) (number : ℕ) : SharedPager σ :=
  { pager with pagemap := Pagemap.touch pager.pagemap number }

def read (pager : SharedPager σ) (number : ℕ) : PagemapEntry := Pagemap.read pager.pagemap number

def load (pager : SharedPager σ) (number : ℕ) : SharedPager σ :=
  { pager with pagemap := Pagemap.load pager.pagemap number }

def store (pager : SharedPager σ) (number : ℕ) : SharedPager σ :=
  { pager with pagemap := Pagemap.store pager.pagemap number }

/-- A routine works on `tmp_pagemap_entry`. -/
def onTmp {Flag : Type} (pager : SharedPager σ) (number : ℕ) (part : Page → Option (Page × Flag)) :
    Option (SharedPager σ × Flag) :=
  (part (pager.page number)).map fun (page, flag) => (pager.putPage number page, flag)

/-- An entry is loaded, worked on and stored. -/
def onPage {Flag : Type} (pager : SharedPager σ) (number : ℕ) (part : Page → Option (Page × Flag)) :
    Option (SharedPager σ × Flag) :=
  ((pager.load number).onTmp number part).map fun (pager, flag) => (pager.store number, flag)

/-- A pass of a loop over pages that computes a flag for each of them -/
def flagPass {Flag : Type} (part : ℕ → Page → Option (Page × Flag)) (number : ℕ)
    (state : SharedPager σ × (ℕ → Flag)) : Option (SharedPager σ × (ℕ → Flag)) :=
  (state.1.onPage number (part number)).map fun (pager, flag) =>
    (pager, Function.update state.2 number flag)

/-- A pass of a loop over pages that computes nothing else -/
def plainPass (part : ℕ → Page → Option Page) (number : ℕ) (pager : SharedPager σ) :
    Option (SharedPager σ) :=
  (pager.onPage number fun page => (part number page).map fun page => (page, ())).map Prod.fst

def pagesOf (pager : SharedPager σ) (offset length : ℕ) : List ℕ :=
  List.range' (offset / pager.pageSize) (length / pager.pageSize)

/-- The first loop of `internal_lock_completed` -/
def lockCompletedPass (client : MachPort) (number : ℕ)
    (state : SharedPager σ × (ℕ → Page.Operation)) : Option (SharedPager σ × (ℕ → Page.Operation)) :=
  let pager := state.1.touch number
  let entry := pager.read number
  if entry.writeAccessGranted then none
  else if client ∈ entry.accesslist ∧ entry.waitlist ≠ [] then
    flagPass (fun _ page => page.internalLockCompletedEnter client) number (pager, state.2)
  else some (pager, Function.update state.2 number .none)

/-- The callbacks of `internal_lock_completed` -/
def operationCalls (operation : ℕ → Page.Operation) (number : ℕ) : List Call :=
  match operation number with
  | .none => []
  | .pagein => [.readPage number]
  | .unlock => [.unlockPage number]

/-- `internal_lock_completed` up to where it releases the lock; a terminating pager does not. -/
def internalLockCompleted (pager : SharedPager σ) (client : MachPort) (offset length : ℕ)
    (drop : Option (MachPort × Option LockKey)) : Option (SharedPager σ × Option Thread) :=
  if length % pager.pageSize ≠ 0 ∨ offset % pager.pageSize ≠ 0 then none
  else if pager.terminating then some (pager, none)
  else
    let pages := pager.pagesOf offset length
    (Loop.forEach (lockCompletedPass client) pages (pager, fun _ => .none)).map fun state =>
      (state.1, some
        { calls := pages.flatMap (operationCalls state.2)
          resume := .lockCompleted pages state.2 drop })

/-- The last loop of `internal_lock_completed` -/
def operationPass (operation : ℕ → Page.Operation) (results : Callbacks) (number : ℕ)
    (pager : SharedPager σ) : Option (SharedPager σ) :=
  match operation number with
  | .none => some pager
  | .pagein => plainPass (fun _ page => page.finishPagein (results number).read) number pager
  | .unlock => plainPass (fun _ page => page.finalizeUnlock (results number).unlock) number pager

/-- `data_request` up to where it releases the lock -/
def dataRequest (pager : SharedPager σ) (client : MachPort) (offset length : ℕ) (access : VmProt) :
    Option (SharedPager σ × Option Thread) :=
  if length ≠ pager.pageSize ∨ offset % pager.pageSize ≠ 0 then none
  else if pager.terminating then some (pager, none)
  else
    let number := offset / pager.pageSize
    let pager := pager.load number
    match Page.takeNexterror client (pager.nexterror (pager.offsetOf number)) with
    | some (found, rest) =>
        -- `tmp_pagemap_entry` is not stored
        (pager.onTmp number fun page =>
          some ({ (page.send (.dataError client found.error)).setError found.error with
            nexterror := rest }, ())).map fun state => (state.1, none)
    | none =>
        (pager.onTmp number fun page => some (page.dataRequestEnter client (wantsWrite access))).bind
          fun (pager, stage) =>
            let pager := pager.store number
            match stage with
            | .done => some (pager, none)
            | .lockCompleted => pager.internalLockCompleted client offset pager.pageSize none
            | .pagein => some (pager, some { calls := [.readPage number], resume := .pagein number })

def storeLocks (pager : SharedPager σ) (key : LockKey)
    (locks : OrdMap MachPort OutstandingClientLock) : SharedPager σ :=
  if locks.isEmpty then (pager.emit (.wakeLockWaiters key)).setLocks key none
  else pager.setLocks key (some locks)

def lockCompleted (pager : SharedPager σ) (client : MachPort) (offset length : ℕ) :
    Option (SharedPager σ × Option Thread) :=
  let key : LockKey := toLex (offset, length)
  (pager.outstandingLocks.find? key).bind fun locks =>
    -- `record.locks[MEMORY_CONTROL]` creates a record with count zero
    (locks.find? client).bind fun record =>
      if record.count = 0 then none
      else if record.count = 1 then
        let pager := pager.storeLocks key (locks.erase client)
        if record.internalLockOutstanding then
          pager.internalLockCompleted client offset length none
        else some (pager, none)
      else
        some (pager.storeLocks key
          (locks.insert client { record with count := record.count - 1 }), none)

/-- The first loop of `data_unlock`, whose flushes name the offset of the message -/
def unlockPass (client : MachPort) (first number : ℕ) (state : SharedPager σ × (ℕ → Bool)) :
    Option (SharedPager σ × (ℕ → Bool)) :=
  ((state.1.load number).onTmp number fun page => page.dataUnlockEnter client).bind
    fun (pager, doUnlock, flushes) =>
      (pager.onTmp first fun page => some (page.flushEach flushes, ())).map fun (pager, _) =>
        (pager.store number, Function.update state.2 number doUnlock)

/-- `data_unlock` up to where it releases the lock -/
def dataUnlock (pager : SharedPager σ) (client : MachPort) (offset length : ℕ) :
    Option (SharedPager σ × Option Thread) :=
  if length % pager.pageSize ≠ 0 ∨ offset % pager.pageSize ≠ 0 then none
  else if pager.terminating then some (pager, none)
  else
    let pages := pager.pagesOf offset length
    (Loop.forEach (unlockPass client (offset / pager.pageSize)) pages (pager, fun _ => false)).map
      fun state =>
        (state.1, some
          { calls := (pages.filter state.2).map .unlockPage
            resume := .unlock pages state.2 })

/-- The last loop of `data_unlock` and of `data_return` -/
def unlockedPass (doUnlock : ℕ → Bool) (results : Callbacks) (number : ℕ) (pager : SharedPager σ) :
    Option (SharedPager σ) :=
  if doUnlock number then
    plainPass (fun _ page => page.finalizeUnlock (results number).unlock) number pager
  else some pager

/-- The test of `matching_page_count_on_WRITEWAIT` -/
def matchesPage (pager : SharedPager σ) (number : ℕ) (next : WritewaitEntry) : Bool :=
  decide (next.offset ≤ pager.offsetOf number ∧
    (number + 1) * pager.pageSize % offsetRange ≤ (next.offset + next.length) % offsetRange)

def matchingPageCountOnWritewait (pager : SharedPager σ) (number : ℕ) : ℕ :=
  pager.writewait.countP (pager.matchesPage number)

/-- The contents that an entry has for a page -/
def dataFor (pager : SharedPager σ) (current : WritewaitEntry) (number : ℕ) : ℕ :=
  current.data (number - current.offset / pager.pageSize)

/-- The end of `service_first_WRITEWAIT_entry` -/
def popFront (pager : SharedPager σ) (current : WritewaitEntry) : SharedPager σ :=
  { pager.emit (.wakeWriteWaiters current.offset current.length) with
    writewait := pager.writewait.tail }

/--
The loop of `data_return` around `service_first_WRITEWAIT_entry`, up to where that releases the
lock for its writes.  An entry with nothing to write is passed over; the list is `WRITEWAIT`.
-/
def serviceWritewait : List WritewaitEntry → SharedPager σ → SharedPager σ × Option Thread
  | [], pager => (pager, none)
  | current :: rest, pager =>
      let pageouts := (pager.pagesOf current.offset current.length).filter fun number =>
        pager.matchingPageCountOnWritewait number = 1
      if pageouts.isEmpty then serviceWritewait rest (pager.popFront current)
      else
        (pager, some
          { calls := pageouts.map fun number => .writePage number (pager.dataFor current number)
            resume := .written current pageouts })

/-- `service_first_WRITEWAIT_entry` after the writes -/
def afterWrites (pager : SharedPager σ) (current : WritewaitEntry) (pageouts : List ℕ)
    (results : Callbacks) : Option (SharedPager σ × Option Thread) :=
  (Loop.forEach (flagPass fun number page =>
      page.afterWrite (pager.dataFor current number) current.kernelCopy (results number).write
        (pager.matchingPageCountOnWritewait number = 1))
    pageouts (pager, fun _ => false)).map fun (pager, doNotify) =>
      let evicted := pageouts.filter doNotify
      if pager.notifyOnEvict ∧ evicted ≠ [] then
        (pager, some { calls := evicted.map .notifyEvict, resume := .notified current })
      else serviceWritewait pager.writewait.tail (pager.popFront current)

/-- `data_return` up to where it releases the lock -/
def dataReturn (pager : SharedPager σ) (client : MachPort) (offset : ℕ) (data : ℕ → ℕ)
    (length : ℕ) (dirty kernelCopy : Bool) (stale : ℕ → Bool) :
    Option (SharedPager σ × Option Thread) :=
  if length % pager.pageSize ≠ 0 ∨ offset % pager.pageSize ≠ 0 then none
  else
    let pages := pager.pagesOf offset length
    (Loop.forEach (flagPass fun number page =>
        page.dataReturnEnter client (data (number - offset / pager.pageSize)) dirty kernelCopy)
      pages (pager, fun _ => ⟨false, false⟩)).bind fun (pager, flags) =>
    if ∃ number ∈ pages, (flags number).doUnlock ∨ (flags number).doNotify then
      if dirty then none
      else
        some (pager, some
          { calls := pages.flatMap fun number =>
              (if (flags number).doUnlock then [.unlockPage number] else []) ++
                -- a flag that has not been set is whatever `alloca` found there
                if (flags number).doNotify || stale number then [.notifyEvict number] else []
            resume := .unlock pages fun number => (flags number).doUnlock })
    else if dirty then
      let queued :=
        { pager with writewait := pager.writewait ++ [⟨offset, data, length, kernelCopy⟩] }
      if ¬pager.writewait.isEmpty then some (queued, none)
      else some (serviceWritewait queued.writewait queued)
    else some (pager, none)

def objectInit (pager : SharedPager σ) (control : MachPort) (pagesize : ℕ) :
    Option (SharedPager σ × Option Thread) :=
  if pagesize ≠ pager.pageSize then none
  else if pager.terminating then some (pager, none)
  else
    some (({ pager with clients := pager.clients.insert control } : SharedPager σ).emit
      (.ready control pager.mayCache pager.copyStrategy), none)

/-- The loop of `drop_client` over the pagemap -/
def dropPass (control : MachPort) (pager : SharedPager σ) (number : ℕ) : SharedPager σ :=
  let pager :=
    if control ∈ (pager.read number).accesslist then
      let loaded := pager.load number
      (loaded.putPage number
        ((loaded.page number).removeFromAccesslist control |>.setWriteAccessGranted false)).store
          number
    else pager
  -- the client is erased from a copy of WAITLIST, and the entry is stored as it was
  if (pager.read number).waitlist.any (·.client = control) then (pager.load number).store number
  else pager

/-- `drop_client` after the lock loop -/
def dropPages (control : MachPort) (pager : SharedPager σ) : SharedPager σ :=
  let pager := (List.range (Pagemap.size pager.pagemap)).foldl (dropPass control) pager
  { pager with
    sent := pager.sent ++
      (pager.outstandingChangeRequests.toList.filter (·.client = control)).map
        fun request => .changeCompleted request.reply
    clients := pager.clients.erase control }

/-- The lock loop of `drop_client` on the keys that are left, and what comes after it -/
def dropLocks (control : MachPort) :
    List LockKey → SharedPager σ → Option (SharedPager σ × Option Thread)
  | [], pager => some (pager.dropPages control, none)
  | key :: rest, pager =>
      (pager.outstandingLocks.find? key).bind fun locks =>
        let internalLockRequired :=
          ((locks.find? control).map (·.internalLockOutstanding)).getD false
        let pager := pager.storeLocks key (locks.erase control)
        if internalLockRequired then
          (pager.internalLockCompleted control (ofLex key).1 (ofLex key).2
            (some (control, rest.head?))).bind fun
              | (pager, some thread) => some (pager, some thread)
              | (pager, none) => dropLocks control rest pager
        else dropLocks control rest pager

def dropClient (pager : SharedPager σ) (control : MachPort) :
    Option (SharedPager σ × Option Thread) :=
  dropLocks control pager.outstandingLocks.keys pager

/-- `drop_client` goes on from where its iterator is; `none` where that record has been erased. -/
def resumeDrop (pager : SharedPager σ) :
    Option (MachPort × Option LockKey) → Option (SharedPager σ × Option Thread)
  | none => some (pager, none)
  | some (control, none) => some (pager.dropPages control, none)
  | some (control, some key) =>
      if key ∈ pager.outstandingLocks.keys then
        dropLocks control (pager.outstandingLocks.keys.dropWhile (· ≠ key)) pager
      else none

/-- The clients of a page that `lock_object` signals -/
def lockObjectPass (onlySignalWriteClients : Bool) (state : SharedPager σ × OrdSet MachPort)
    (number : ℕ) : SharedPager σ × OrdSet MachPort :=
  let pager := state.1.touch number
  let entry := pager.read number
  (pager,
    if !onlySignalWriteClients || entry.writeAccessGranted then
      entry.accesslist.toList.foldl (fun clients client => clients.insert client) state.2
    else state.2)

def countLock (pager : SharedPager σ) (key : LockKey) (client : MachPort) : SharedPager σ :=
  let locks := (pager.outstandingLocks.find? key).getD ∅
  let record := (locks.find? client).getD {}
  pager.setLocks key (some (locks.insert client { record with count := record.count + 1 }))

/-- One client of `lock_object` -/
def signal (offset length : ℕ) (shouldReturn : MemoryObjectReturn) (flush sync : Bool)
    (pager : SharedPager σ) (client : MachPort) : SharedPager σ :=
  let pager := pager.emit
    (.lockRequest client offset length shouldReturn flush vmProtNoChange sync)
  if sync then pager.countLock (toLex (offset, length)) client else pager

/-- `lock_object` up to where it waits for its locks -/
def lockObject (pager : SharedPager σ) (offset length : ℕ) (shouldReturn : MemoryObjectReturn)
    (flush sync : Bool) : SharedPager σ × Option Thread :=
  let (pager, clients) := (pager.pagesOf offset length).foldl
    (lockObjectPass (!flush && shouldReturn ≠ .all)) (pager, ∅)
  (clients.toList.foldl (signal offset length shouldReturn flush sync) pager,
    if sync && !clients.isEmpty then some { resume := .locksAnswered offset length } else none)

/-- There is an entry of `WRITEWAIT` that `lock_object` waits for. -/
def waitsForWrite (pager : SharedPager σ) (offset length : ℕ) : Bool :=
  pager.writewait.any fun entry =>
    decide (entry.offset ≤ (offset + length) % offsetRange ∧
      offset ≤ (entry.offset + entry.length) % offsetRange)

/-- A handler takes the lock and runs up to where it releases it. -/
def enter (pager : SharedPager σ) (stale : ℕ → Bool) :
    Input → Option (SharedPager σ × Option Thread)
  | .objectInit control pagesize => pager.objectInit control pagesize
  | .dataRequest client offset length access => pager.dataRequest client offset length access
  | .dataUnlock client offset length => pager.dataUnlock client offset length
  | .dataReturn client offset data length dirty kernelCopy =>
      pager.dataReturn client offset data length dirty kernelCopy stale
  | .lockCompleted client offset length => pager.lockCompleted client offset length
  | .objectTerminate control => pager.dropClient control
  | .deadName control => pager.dropClient control
  | .lockObject offset length shouldReturn flush sync =>
      some (pager.lockObject offset length shouldReturn flush sync)
  | .shutdown => some ({ pager with terminating := true }, none)

/-- A thread takes the lock again and runs up to where it next releases it. -/
def reenter (pager : SharedPager σ) (results : Callbacks) :
    Resume → Option (SharedPager σ × Option Thread)
  | .pagein number =>
      (plainPass (fun _ page => page.finishPagein (results number).read) number pager).map
        fun pager => (pager, none)
  | .lockCompleted pages operation drop =>
      (Loop.forEach (operationPass operation results) pages pager).bind
        fun pager => pager.resumeDrop drop
  | .unlock pages doUnlock =>
      (Loop.forEach (unlockedPass doUnlock results) pages pager).map fun pager => (pager, none)
  | .written current pageouts => pager.afterWrites current pageouts results
  | .notified current => some (serviceWritewait pager.writewait.tail (pager.popFront current))
  | .locksAnswered offset length =>
      some (pager, if pager.waitsForWrite offset length then some { resume := .writesFinished }
        else none)
  | .writesFinished => some (pager, none)

end SharedPager

namespace Call

def page : Call → ℕ
  | .readPage number => number
  | .unlockPage number => number
  | .writePage number _ => number
  | .notifyEvict number => number

def event : Call → PageEvent
  | .readPage _ => .readPage
  | .unlockPage _ => .unlockPage
  | .writePage _ data => .writePage data
  | .notifyEvict _ => .notifyEvict

/-- The callback returns. -/
def record (call : Call) (returned : PageCallbacks) (results : Callbacks) : Callbacks :=
  Function.update results call.page
    (match call with
    | .readPage number => { results number with read := returned.read }
    | .unlockPage number => { results number with unlock := returned.unlock }
    | .writePage number _ => { results number with write := returned.write }
    | .notifyEvict number => results number)

end Call

/-- A pager and the threads that have released its lock -/
structure Threads (σ : Type) where
  pager : SharedPager σ
  threads : ℕ → Option Thread := fun _ => none

namespace Threads

/-- A step of a thread, or of another pager of the process -/
inductive Action
  /-- A new thread calls a handler; `stale` is what it finds in the memory of `do_notify`. -/
  | start (thread : ℕ) (input : Input) (stale : ℕ → Bool)
  /-- The thread makes its next callback. -/
  | call (thread : ℕ)
  | finish (thread : ℕ) (returned : PageCallbacks)
  /-- The thread takes the lock again. -/
  | resume (thread : ℕ)
  | share (entry : PagemapEntry)

variable {σ : Type} [Pagemap σ]

def setThread (system : Threads σ) (id : ℕ) (thread : Option Thread) : Threads σ :=
  { system with threads := Function.update system.threads id thread }

/-- `none` where the step cannot be taken, an assert fails or an exception is thrown. -/
def step (system : Threads σ) : Action → Option (Threads σ)
  | .start id input stale =>
      match system.threads id with
      | some _ => none
      | none =>
          (system.pager.enter stale input).map fun (pager, thread) =>
            ({ system with pager := pager } : Threads σ).setThread id thread
  | .call id =>
      (system.threads id).bind fun thread =>
        match thread.busy, thread.calls with
        | none, call :: rest =>
            some (({ system with
                pager := system.pager.emit (system.pager.pageEvent call.page call.event) } :
                  Threads σ).setThread id
              (some { thread with calls := rest, busy := some call }))
        | _, _ => none
  | .finish id returned =>
      (system.threads id).bind fun thread =>
        thread.busy.map fun call =>
          system.setThread id
            (some { thread with
              busy := none
              results := call.record returned thread.results })
  | .resume id =>
      (system.threads id).bind fun thread =>
        if thread.busy = none ∧ thread.calls = [] then
          (system.pager.reenter thread.results thread.resume).map fun (pager, thread) =>
            ({ system with pager := pager } : Threads σ).setThread id thread
        else none
  | .share entry =>
      some { system with
        pager := { system.pager with pagemap := Pagemap.share system.pager.pagemap entry } }

end Threads

end Hurd.Libpager
