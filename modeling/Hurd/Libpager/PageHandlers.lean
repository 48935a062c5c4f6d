import Hurd.Libpager.Effects

/-!
# The handlers of one page

`Page.handle` is a handler of a message as one page sees it.  For each handler a `_cases`
lemma lists what it can have done, in terms of the routines of `Hurd.Libpager.Page`; every
invariant is proved from these lists.
-/

namespace Hurd.Libpager

/-- A handler as one page sees it. -/
inductive PageInput
  | dataRequest (client : MachPort) (write : Bool)
  /-- `first` says that the page is the first of the message, which gets the flushes of `others`. -/
  | dataUnlock (client : MachPort) (first : Bool) (others : List MachPort)
  /-- `any` says that another page of the message is to be unlocked or notified. -/
  | dataReturn (client : MachPort) (data : ℕ) (dirty kernelCopy any : Bool)
  /-- A dirty return that `matching_page_count_on_WRITEWAIT` does not count for the page. -/
  | dataReturnUnmatched (client : MachPort) (data : ℕ) (kernelCopy : Bool)
  | lockCompleted (client : MachPort)
  | dropClient (control : MachPort)
  /-- A synchronous `lock_object` of this very page, to these clients. -/
  | lockObject (clients : List MachPort)
  | shutdown

namespace Page

def dataUnlock (page : Page) (client : MachPort) (first : Bool) (others : List MachPort)
    (results : PageCallbacks) : Option Page :=
  (page.dataUnlockEnter client).bind fun (page, doUnlock, flushes) =>
    ((page.flushEach (if first then flushes ++ others else [])).unlockCall doUnlock).unlockExit
      doUnlock results

/-- The write of a returned page, from `pager_write_page` on. -/
def writeBack (page : Page) (data : ℕ) (kernelCopy : Bool) (results : PageCallbacks) :
    Option Page :=
  ((page.send (.writePage data)).afterWrite data kernelCopy results.write true).map
    fun (page, doNotify) => page.notifyCall doNotify

/-- The first loop of `data_return` sets a flag for the page. -/
def ReturnFlagged (page : Page) (client : MachPort) (data : ℕ) (dirty kernelCopy : Bool) : Prop :=
  ∃ handed flags, page.dataReturnEnter client data dirty kernelCopy = some (handed, flags) ∧
    (flags.doUnlock = true ∨ flags.doNotify = true)

def dataReturn (page : Page) (client : MachPort) (data : ℕ) (dirty kernelCopy any : Bool)
    (results : PageCallbacks) : Option Page :=
  (page.dataReturnEnter client data dirty kernelCopy).bind fun (page, flags) =>
    if any || flags.doUnlock || flags.doNotify then
      if dirty then none
      else (page.returnCall flags results).unlockExit flags.doUnlock results
    else if dirty then page.writeBack data kernelCopy results
    else some page

/-- A dirty return whose entry is taken off WRITEWAIT without the page being written. -/
def dataReturnUnmatched (page : Page) (client : MachPort) (data : ℕ) (kernelCopy : Bool) :
    Option Page :=
  (page.dataReturnEnter client data true kernelCopy).bind fun (page, flags) =>
    if flags.doUnlock || flags.doNotify then none else some page

def lockCompleted (page : Page) (client : MachPort) (results : PageCallbacks) : Option Page :=
  match page.lock? client with
  | none => none
  | some record =>
      if record.count = 0 then none
      else if record.count = 1 then
        let page := page.storeLocks ((page.locks.getD ∅).erase client)
        if record.internalLockOutstanding then page.internalLockCompleted client results
        else some page
      else
        some (page.storeLocks
          ((page.locks.getD ∅).insert client { record with count := record.count - 1 }))

def dropLocks (page : Page) (control : MachPort) (results : PageCallbacks) : Option Page :=
  match page.locks with
  | none => some page
  | some locks =>
      let internalLockRequired :=
        ((locks.find? control).map (·.internalLockOutstanding)).getD false
      let page := page.storeLocks (locks.erase control)
      if internalLockRequired then page.internalLockCompleted control results else some page

def countLock (page : Page) (client : MachPort) : Page :=
  let record := (page.lock? client).getD {}
  { page with
    locks := some ((page.locks.getD ∅).insert client { record with count := record.count + 1 }) }

def handle (page : Page) (input : PageInput) (results : PageCallbacks) : Option Page :=
  match input with
  | .dataRequest client write => page.dataRequest client write results
  | .dataUnlock client first others => page.dataUnlock client first others results
  | .dataReturn client data dirty kernelCopy any =>
      page.dataReturn client data dirty kernelCopy any results
  | .dataReturnUnmatched client data kernelCopy => page.dataReturnUnmatched client data kernelCopy
  | .lockCompleted client => page.lockCompleted client results
  | .dropClient control => (page.dropLocks control results).map (·.dropClient control)
  | .lockObject clients => some (clients.foldl countLock page)
  | .shutdown => some { page with terminating := true }

/-- Nothing has happened since but evictions being notified. -/
def Notified (page next : Page) : Prop :=
  ∃ count, next = { page with sent := page.sent ++ List.replicate count .notifyEvict }

section Cases

variable {page next : Page} {client : MachPort} {write : Bool} {results : PageCallbacks}

theorem Notified.refl (page : Page) : Notified page page := ⟨0, by simp⟩

theorem Notified.entry (notified : Notified page next) : next.entry = page.entry := by
  rcases notified with ⟨count, rfl⟩
  rfl

theorem Notified.locks (notified : Notified page next) : next.locks = page.locks := by
  rcases notified with ⟨count, rfl⟩
  rfl

theorem Notified.nexterror (notified : Notified page next) : next.nexterror = page.nexterror := by
  rcases notified with ⟨count, rfl⟩
  rfl

theorem Notified.messages (notified : Notified page next) : next.messages = page.messages := by
  rcases notified with ⟨count, rfl⟩
  simp [Page.messages, PageEvent.message?]

/-- What `internal_lock_completed` does. -/
inductive LockCompletion (page : Page) (client : MachPort) (results : PageCallbacks)
    (next : Page) : Prop
  | terminating (isTerminating : page.terminating = true) (nextEq : next = page)
  | idle (running : page.terminating = false) (notGranted : page.entry.writeAccessGranted = false)
      (nothingToDo : client ∈ page.entry.accesslist → page.entry.waitlist = [])
      (nextEq : next = page)
  | others (running : page.terminating = false)
      (notGranted : page.entry.writeAccessGranted = false)
      (listed : client ∈ page.entry.accesslist) (waiting : page.entry.waitlist ≠ [])
      (othersLeft : (page.entry.accesslist.erase client).isEmpty = false)
      (nextEq : next = page.removeFromAccesslist client)
  | refuse (running : page.terminating = false)
      (notGranted : page.entry.writeAccessGranted = false)
      (listed : client ∈ page.entry.accesslist) (waiting : page.entry.waitlist ≠ [])
      (lastOne : (page.entry.accesslist.erase client).isEmpty = true)
      (invalid : page.entry.invalid = true)
      (nextEq : next = (page.removeFromAccesslist client).sendErrorToWaitlist)
  | pagein (running : page.terminating = false)
      (notGranted : page.entry.writeAccessGranted = false)
      (listed : client ∈ page.entry.accesslist) (waiting : page.entry.waitlist ≠ [])
      (lastOne : (page.entry.accesslist.erase client).isEmpty = true)
      (valid : page.entry.invalid = false)
      (finished : ((page.removeFromAccesslist client).send .readPage).finishPagein results.read =
        some next)
  | unlock (running : page.terminating = false)
      (notGranted : page.entry.writeAccessGranted = false)
      (listed : client ∈ page.entry.accesslist)
      (oneLeft : (page.entry.accesslist.erase client).size = 1)
      (first : WaitlistClient) (rest : List WaitlistClient)
      (waiting : page.entry.waitlist = first :: rest)
      (firstListed : first.client ∈ page.entry.accesslist.erase client)
      (finished : ((page.removeFromAccesslist client).send .unlockPage).finalizeUnlock
        results.unlock = some next)

theorem internalLockCompleted_cases
    (completed : page.internalLockCompleted client results = some next) :
    LockCompletion page client results next := by
  unfold internalLockCompleted at completed
  by_cases terminating : page.terminating = true
  · rw [if_pos terminating, Option.some_inj] at completed
    exact .terminating terminating completed.symm
  rw [if_neg terminating] at completed
  rcases Option.bind_eq_some_iff.mp completed with ⟨⟨entered, operation⟩, enterDone, exitDone⟩
  have running := Bool.eq_false_iff.mpr terminating
  unfold internalLockCompletedEnter at enterDone
  simp only at enterDone exitDone
  split_ifs at enterDone with granted waiting empty invalid unlockable
  · cases enterDone
    cases exitDone
    exact .refuse running (Bool.eq_false_iff.mpr granted) waiting.1 waiting.2 empty invalid rfl
  · cases enterDone
    exact .pagein running (Bool.eq_false_iff.mpr granted) waiting.1 waiting.2 empty
      (Bool.eq_false_iff.mpr invalid) exitDone
  · cases enterDone
    rcases unlockable with ⟨oneLeft, first, firstMem, firstListed⟩
    rcases List.head?_eq_some_iff.mp firstMem with ⟨rest, waitlistEq⟩
    exact .unlock running (Bool.eq_false_iff.mpr granted) waiting.1 oneLeft first rest waitlistEq
      firstListed exitDone
  · cases enterDone
    cases exitDone
    exact .others running (Bool.eq_false_iff.mpr granted) waiting.1 waiting.2
      (Bool.eq_false_iff.mpr empty) rfl
  · cases enterDone
    cases exitDone
    refine .idle running (Bool.eq_false_iff.mpr granted) (fun listed => ?_) rfl
    by_contra someWaiting
    exact waiting ⟨listed, someWaiting⟩

/-- What is left to do of a page in after `pager_read_page` has returned. -/
theorem finishPagein_cases {result : ReadResult} (finished : page.finishPagein result = some next) :
    (result.error = kernSuccess ∧ (page.setError kernSuccess).serviceWaitlist result.buffer
        (!result.writeLock) true = some next) ∨
      result.error ≠ kernSuccess ∧ next = (page.setError result.error).sendErrorToWaitlist := by
  unfold finishPagein at finished
  simp only at finished
  split_ifs at finished with succeeded
  · rw [succeeded] at finished
    exact Or.inl ⟨succeeded, finished⟩
  · cases finished
    exact Or.inr ⟨succeeded, rfl⟩

/-- What `finalize_unlock` does with the first client of WAITLIST. -/
inductive UnlockFinished (page : Page) (error : KernReturn) (next : Page) : Prop
  | granted (first : WaitlistClient) (rest : List WaitlistClient)
      (waiting : page.entry.waitlist = first :: rest) (succeeded : error = kernSuccess)
      (nextEq : next = (((page.setWaitlist rest).send
        (.lockRequest first.client .none false vmProtNone false)).setWriteAccessGranted
          true).flushEach (if rest = [] then [] else [first.client]))
  | failed (first : WaitlistClient) (rest : List WaitlistClient)
      (waiting : page.entry.waitlist = first :: rest) (failed : error ≠ kernSuccess)
      (nextEq : next = { (page.setWaitlist rest).flushEach [first.client] with
        nexterror := page.nexterror ++ [⟨first.client, error⟩] })

theorem finalizeUnlock_cases {error : KernReturn}
    (finished : page.finalizeUnlock error = some next) : UnlockFinished page error next := by
  unfold finalizeUnlock at finished
  cases waiting : page.entry.waitlist with
  | nil =>
      rw [waiting] at finished
      cases finished
  | cons first rest =>
      rw [waiting] at finished
      simp only at finished
      split_ifs at finished with succeeded noneLeft
      · cases finished
        refine .granted first rest waiting succeeded ?_
        rw [if_pos (List.isEmpty_iff.mp noneLeft)]
        rfl
      · cases finished
        refine .granted first rest waiting succeeded ?_
        rw [if_neg fun none => noneLeft (List.isEmpty_iff.mpr none)]
        rfl
      · cases finished
        exact .failed first rest waiting succeeded rfl

theorem finalizeUnlock_accesslist {error : KernReturn}
    (finished : page.finalizeUnlock error = some next) :
    next.entry.accesslist = page.entry.accesslist := by
  cases finalizeUnlock_cases finished with
  | granted first rest _ _ nextEq =>
      rw [nextEq, flushEach_entry]
      rfl
  | failed first rest _ _ nextEq =>
      rw [nextEq]
      simp [setWaitlist]

/-- `data_request` takes a client that asks again off ACCESSLIST. -/
def leaveForRequest (page : Page) (client : MachPort) : Page :=
  if client ∈ page.entry.accesslist then
    (page.removeFromAccesslist client).setWriteAccessGranted false
  else page

/-- `data_request` tells the client of an error the last write left, and goes on. -/
def tellInvalid (page : Page) (client : MachPort) : Page :=
  if page.entry.invalid then page.send (.dataError client page.entry.error) else page

/-- What `data_request` does. -/
inductive Requested (page : Page) (client : MachPort) (write : Bool) (results : PageCallbacks)
    (next : Page) : Prop
  | error (found : NexterrorEntry) (rest : List NexterrorEntry)
      (taken : takeNexterror client page.nexterror = some (found, rest))
      (nextEq : next = { page.send (.dataError client found.error) with nexterror := rest })
  /-- The page is being paged out. -/
  | held (isPagingout : page.entry.pagingout = true)
      (noError : takeNexterror client page.nexterror = none)
      (nextEq : next = (page.flushEach (if page.entry.waitlist = [] then
        page.entry.accesslist.toList else [])).addToWaitlist client write)
  | completed (noError : takeNexterror client page.nexterror = none)
      (listed : client ∈ page.entry.accesslist) (waiting : page.entry.waitlist ≠ [])
      (finished : (page.addToWaitlist client write).internalLockCompleted client results =
        some next)
  | waits (noError : takeNexterror client page.nexterror = none)
      (notListed : client ∉ page.entry.accesslist) (waiting : page.entry.waitlist ≠ [])
      (nextEq : next = page.addToWaitlist client write)
  | revokes (noError : takeNexterror client page.nexterror = none)
      (noneWaiting : page.entry.waitlist = [])
      (contended : (page.leaveForRequest client).entry.writeAccessGranted = true ∨
        write = true ∧ (page.leaveForRequest client).entry.accesslist.isEmpty = false)
      (nextEq : next = ((page.leaveForRequest client).addToWaitlist client write).flushEach
        (page.leaveForRequest client).entry.accesslist.toList)
  | pagein (notPagingout : page.entry.pagingout = false)
      (noError : takeNexterror client page.nexterror = none)
      (noneWaiting : page.entry.waitlist = [])
      (notGranted : (page.leaveForRequest client).entry.writeAccessGranted = false)
      (free : write = true → (page.leaveForRequest client).entry.accesslist.isEmpty = true)
      (finished : ((((page.leaveForRequest client).tellInvalid client).addToWaitlist client
        write).send .readPage).finishPagein results.read = some next)

theorem leaveForRequest_waitlist (page : Page) (client : MachPort) :
    (page.leaveForRequest client).entry.waitlist = page.entry.waitlist := by
  unfold leaveForRequest
  split_ifs <;> rfl

theorem dataRequestWait_cases (notPagingout : page.entry.pagingout = false)
    (noError : takeNexterror client page.nexterror = none)
    (noneWaiting : page.entry.waitlist = [])
    (requested : finishRequest client results
      ((page.leaveForRequest client).dataRequestWait client write) = some next) :
    Requested page client write results next := by
  have stillNone := (page.leaveForRequest_waitlist client).trans noneWaiting
  unfold dataRequestWait at requested
  simp only [stillNone, List.isEmpty_nil, not_true_eq_false, if_false] at requested
  split_ifs at requested with granted contended invalid
  · cases requested
    exact .revokes noError noneWaiting (Or.inl granted) rfl
  · cases requested
    have nonempty := Bool.eq_false_iff.mpr contended.2
    exact .revokes noError noneWaiting (Or.inr ⟨contended.1, nonempty⟩) rfl
  · refine .pagein notPagingout noError noneWaiting (Bool.eq_false_iff.mpr granted) ?_ ?_
    · intro wanted
      by_contra nonempty
      exact contended ⟨wanted, nonempty⟩
    · rw [tellInvalid, if_pos invalid]
      exact requested
  · refine .pagein notPagingout noError noneWaiting (Bool.eq_false_iff.mpr granted) ?_ ?_
    · intro wanted
      by_contra nonempty
      exact contended ⟨wanted, nonempty⟩
    · rw [tellInvalid, if_neg invalid]
      exact requested

theorem dataRequest_cases (requested : page.dataRequest client write results = some next) :
    Requested page client write results next := by
  unfold dataRequest dataRequestEnter at requested
  cases taken : takeNexterror client page.nexterror with
  | some result =>
      rw [taken] at requested
      cases requested
      exact .error result.1 result.2 taken rfl
  | none =>
      cases isPagingout : page.entry.pagingout with
      | true =>
          refine .held isPagingout taken ?_
          simp only [taken, isPagingout, if_true] at requested
          by_cases noneWaiting : page.entry.waitlist = []
          · by_cases isEmpty : page.entry.accesslist.isEmpty = true
            · have noClients : page.entry.accesslist.toList = [] :=
                List.isEmpty_iff.mp isEmpty
              simp only [noneWaiting, isEmpty, List.isEmpty_nil, not_true_eq_false, and_false,
                if_false, if_true] at requested ⊢
              rw [noClients]
              exact (Option.some_inj.mp requested).symm
            · simp only [noneWaiting, isEmpty, List.isEmpty_nil, if_true] at requested ⊢
              exact (Option.some_inj.mp requested).symm
          · simp only [List.isEmpty_iff, noneWaiting, false_and, if_false] at requested ⊢
            exact (Option.some_inj.mp requested).symm
      | false =>
          simp only [taken, isPagingout, Bool.false_eq_true, if_false] at requested
          by_cases noneWaiting : page.entry.waitlist = []
          · refine dataRequestWait_cases isPagingout taken noneWaiting ?_
            rw [leaveForRequest]
            split_ifs with listed
            · simpa [listed, noneWaiting] using requested
            · simpa [listed] using requested
          · by_cases listed : client ∈ page.entry.accesslist
            · simp only [listed, if_true, List.isEmpty_iff, noneWaiting, not_false_eq_true]
                at requested
              exact .completed taken listed noneWaiting requested
            · simp only [listed, if_false, dataRequestWait, List.isEmpty_iff, noneWaiting,
                not_false_eq_true, if_true] at requested
              exact .waits taken listed noneWaiting (Option.some_inj.mp requested).symm

/-- `data_unlock` takes the page away from its other clients. -/
def RevokesOnUnlock (page : Page) : Prop :=
  page.entry.waitlist = [] ∧ 1 < page.entry.accesslist.size

theorem dataUnlockEnter_flushes {entered : Page} {doUnlock : Bool} {flushes : List MachPort}
    (enters : page.dataUnlockEnter client = some (entered, doUnlock, flushes)) :
    ∀ flushed ∈ flushes, page.RevokesOnUnlock ∧ flushed ∈ page.entry.accesslist := by
  unfold dataUnlockEnter at enters
  split_ifs at enters with _ _ waiting shared <;> cases enters
  · intro flushed flushedMem
    cases flushedMem
  · intro flushed flushedMem
    exact ⟨⟨List.isEmpty_iff.mp waiting, shared⟩, flushedMem⟩
  · intro flushed flushedMem
    cases flushedMem
  · intro flushed flushedMem
    cases flushedMem

/-- What `data_unlock` does; the first page of the message gets the flushes of the others. -/
inductive Unlocked (page : Page) (client : MachPort) (first : Bool) (others : List MachPort)
    (results : PageCallbacks) (next : Page) : Prop
  | ignored (listed : client ∈ page.entry.accesslist)
      (writerWaits : page.entry.isAnyClientWaitingForWriteAccess = true)
      (nextEq : next = page.flushEach (if first then others else []))
  | queued (listed : client ∈ page.entry.accesslist)
      (notGranted : page.entry.writeAccessGranted = false)
      (readersWait : page.entry.isAnyClientWaitingForWriteAccess = false)
      (waiting : page.entry.waitlist ≠ [])
      (nextEq : next = (page.addToWaitlist client true).flushEach (if first then others else []))
  | revokes (listed : client ∈ page.entry.accesslist)
      (notGranted : page.entry.writeAccessGranted = false)
      (noneWaiting : page.entry.waitlist = []) (shared : 1 < page.entry.accesslist.size)
      (nextEq : next = (page.addToWaitlist client true).flushEach
        (if first then page.entry.accesslist.toList ++ others else []))
  | alone (listed : client ∈ page.entry.accesslist)
      (notGranted : page.entry.writeAccessGranted = false)
      (noneWaiting : page.entry.waitlist = []) (onlyOne : page.entry.accesslist.size ≤ 1)
      (finished : (((page.addToWaitlist client true).flushEach
        (if first then others else [])).send .unlockPage).finalizeUnlock results.unlock =
          some next)

theorem dataUnlock_cases {first : Bool} {others : List MachPort}
    (unlocked : page.dataUnlock client first others results = some next) :
    Unlocked page client first others results next := by
  rcases Option.bind_eq_some_iff.mp unlocked with
    ⟨⟨entered, doUnlock, flushes⟩, enterDone, exitDone⟩
  unfold dataUnlockEnter at enterDone
  split_ifs at enterDone with refused writerWaits waiting shared
  all_goals
    rw [not_or, not_or, not_not, Bool.not_eq_true, Bool.not_eq_true] at refused
    rcases refused with ⟨listed, notGranted, -⟩
    cases enterDone
    simp only [List.nil_append] at exitDone
  · cases exitDone
    exact .ignored listed writerWaits rfl
  · cases exitDone
    exact .revokes listed notGranted (List.isEmpty_iff.mp waiting) shared rfl
  · exact .alone listed notGranted (List.isEmpty_iff.mp waiting) (not_lt.mp shared) exitDone
  · cases exitDone
    have someWaiting : page.entry.waitlist ≠ [] := fun none => waiting (List.isEmpty_iff.mpr none)
    exact .queued listed notGranted (Bool.eq_false_iff.mpr writerWaits) someWaiting rfl

/-- `data_return` takes the client off ACCESSLIST, unless its port is dead. -/
def leaveForReturn (page : Page) (client : MachPort) : Page :=
  if client = machPortDead then page else page.removeFromAccesslist client

/-- What `data_return` does to a page before it looks at `DIRTY`. -/
inductive HandedOff (page : Page) (client : MachPort) (data : ℕ) (dirty kernelCopy : Bool)
    (next : Page) (flags : ReturnFlags) : Prop
  | keeps (copyKept : kernelCopy = true) (nextEq : next = page) (flagsEq : flags = ⟨false, false⟩)
  | serves (given : kernelCopy = false)
      (nobodyLeft : (page.leaveForReturn client).entry.accesslist.isEmpty = true)
      (waiting : page.entry.waitlist ≠ [])
      (served : (page.leaveForReturn client).serviceWaitlist data true false = some next)
      (flagsEq : flags = ⟨false, false⟩)
  | unlocks (given : kernelCopy = false) (running : page.terminating = false)
      (notGranted : page.entry.writeAccessGranted = false)
      (oneLeft : (page.leaveForReturn client).entry.accesslist.size = 1)
      (first : WaitlistClient) (rest : List WaitlistClient)
      (waiting : page.entry.waitlist = first :: rest)
      (firstListed : first.client ∈ (page.leaveForReturn client).entry.accesslist)
      (nextEq : next = page.leaveForReturn client) (flagsEq : flags = ⟨true, false⟩)
  | evicts (given : kernelCopy = false) (clean : dirty = false)
      (nobodyLeft : (page.leaveForReturn client).entry.accesslist.isEmpty = true)
      (noneWaiting : page.entry.waitlist = [])
      (nextEq : next = (page.leaveForReturn client).evicted) (flagsEq : flags = ⟨false, true⟩)
  | leaves (given : kernelCopy = false)
      (nobodyServed : (page.leaveForReturn client).entry.accesslist.isEmpty = true →
        page.entry.waitlist = [] ∧ dirty = true)
      (nextEq : next = page.leaveForReturn client) (flagsEq : flags = ⟨false, false⟩)

theorem dataReturnHandOff_eq (page : Page) (client : MachPort) (data : ℕ) (dirty kernelCopy : Bool) :
    page.dataReturnHandOff client data dirty kernelCopy =
      if kernelCopy then some (page, ⟨false, false⟩)
      else
        if (page.leaveForReturn client).entry.accesslist.isEmpty ∧ ¬page.entry.waitlist.isEmpty then
          ((page.leaveForReturn client).serviceWaitlist data true false).map
            fun page => (page, ⟨false, false⟩)
        else if (page.leaveForReturn client).entry.accesslist.size = 1 ∧
            ¬page.entry.writeAccessGranted ∧
            (∃ first ∈ page.entry.waitlist.head?,
              first.client ∈ (page.leaveForReturn client).entry.accesslist) ∧
            ¬page.terminating then
          some (page.leaveForReturn client, ⟨true, false⟩)
        else if (page.leaveForReturn client).entry.accesslist.isEmpty ∧
            page.entry.waitlist.isEmpty ∧ ¬dirty then
          some ((page.leaveForReturn client).evicted, ⟨false, true⟩)
        else some (page.leaveForReturn client, ⟨false, false⟩) := by
  have sameWaitlist : (page.leaveForReturn client).entry.waitlist = page.entry.waitlist := by
    unfold leaveForReturn
    split_ifs <;> rfl
  have sameConstants : (page.leaveForReturn client).terminating = page.terminating ∧
      (page.leaveForReturn client).entry.writeAccessGranted = page.entry.writeAccessGranted := by
    unfold leaveForReturn
    split_ifs <;> exact ⟨rfl, rfl⟩
  rw [← sameWaitlist, ← sameConstants.1, ← sameConstants.2]
  rfl

theorem dataReturnHandOff_cases {data : ℕ} {dirty kernelCopy : Bool} {flags : ReturnFlags}
    (handedOff : page.dataReturnHandOff client data dirty kernelCopy = some (next, flags)) :
    HandedOff page client data dirty kernelCopy next flags := by
  rw [dataReturnHandOff_eq] at handedOff
  split_ifs at handedOff with kept serving unlocking evicting
  · cases handedOff
    exact .keeps kept rfl rfl
  · rcases Option.map_eq_some_iff.mp handedOff with ⟨served, serveDone, same⟩
    cases same
    have waiting : page.entry.waitlist ≠ [] :=
      fun none => serving.2 (List.isEmpty_iff.mpr none)
    exact .serves (Bool.eq_false_iff.mpr kept) serving.1 waiting serveDone rfl
  · cases handedOff
    rcases unlocking with ⟨oneLeft, notGranted, ⟨first, firstMem, firstListed⟩, notTerminating⟩
    rcases List.head?_eq_some_iff.mp firstMem with ⟨rest, waiting⟩
    exact .unlocks (Bool.eq_false_iff.mpr kept) (Bool.eq_false_iff.mpr notTerminating)
      (Bool.eq_false_iff.mpr notGranted) oneLeft first rest waiting firstListed rfl rfl
  · cases handedOff
    exact .evicts (Bool.eq_false_iff.mpr kept) (Bool.eq_false_iff.mpr evicting.2.2) evicting.1
      (List.isEmpty_iff.mp evicting.2.1) rfl rfl
  · cases handedOff
    refine .leaves (Bool.eq_false_iff.mpr kept) (fun empty => ?_) rfl rfl
    have noneWaiting : page.entry.waitlist = [] := by
      by_contra waiting
      exact serving ⟨empty, fun none => waiting (List.isEmpty_iff.mp none)⟩
    refine ⟨noneWaiting, ?_⟩
    by_contra clean
    exact evicting ⟨empty, List.isEmpty_iff.mpr noneWaiting, clean⟩

/-- The page after `pager_write_page` has returned, before WAITLIST is looked at. -/
def written (page : Page) (data : ℕ) (error : KernReturn) : Page :=
  ((page.send (.writePage data)).recordWrite error).setPagingout false

/-- Recording a write touches `INVALID`, `ERROR` and `PAGINGOUT` only. -/
theorem written_frame (page : Page) (data : ℕ) (error : KernReturn) :
    (page.written data error).entry.accesslist = page.entry.accesslist ∧
      (page.written data error).entry.waitlist = page.entry.waitlist ∧
      (page.written data error).entry.writeAccessGranted = page.entry.writeAccessGranted ∧
      (page.written data error).locks = page.locks ∧
      (page.written data error).nexterror = page.nexterror ∧
      (page.written data error).messages = page.messages ∧
      SameConstants page (page.written data error) := by
  have told : (page.send (.writePage data)).messages = page.messages := by
    simp [messages, send, PageEvent.message?]
  unfold written recordWrite
  split_ifs
  · exact ⟨rfl, rfl, rfl, rfl, rfl, told, rfl, rfl⟩
  · exact ⟨rfl, rfl, rfl, rfl, rfl, told, rfl, rfl⟩

theorem leaveForReturn_frame (page : Page) (client : MachPort) :
    (page.leaveForReturn client).entry.waitlist = page.entry.waitlist ∧
      (page.leaveForReturn client).entry.writeAccessGranted = page.entry.writeAccessGranted ∧
      (page.leaveForReturn client).locks = page.locks ∧
      (page.leaveForReturn client).nexterror = page.nexterror ∧
      (page.leaveForReturn client).messages = page.messages ∧
      SameConstants page (page.leaveForReturn client) := by
  unfold leaveForReturn
  split_ifs <;> exact ⟨rfl, rfl, rfl, rfl, rfl, rfl, rfl⟩

theorem HandedOff.constants {data : ℕ} {dirty kernelCopy : Bool} {flags : ReturnFlags}
    (handedOff : HandedOff page client data dirty kernelCopy next flags) :
    SameConstants page next := by
  rcases page.leaveForReturn_frame client with ⟨-, -, -, -, -, left⟩
  cases handedOff with
  | keeps _ nextEq =>
      rw [nextEq]
      exact .refl page
  | serves _ _ _ served => exact left.trans (serviceWaitlist_constants served)
  | unlocks _ _ _ _ _ _ _ _ nextEq =>
      rw [nextEq]
      exact left
  | evicts _ _ _ _ nextEq =>
      rw [nextEq]
      exact left
  | leaves _ _ nextEq =>
      rw [nextEq]
      exact left

/-- What `data_return` does. -/
inductive Returned (page : Page) (client : MachPort) (data : ℕ) (dirty kernelCopy : Bool)
    (results : PageCallbacks) (next : Page) : Prop
  | clean (isClean : dirty = false) (handed : Page) (flags : ReturnFlags)
      (handedOff : HandedOff page client data dirty kernelCopy handed flags)
      (noUnlock : flags.doUnlock = false) (notified : Notified handed next)
  | unlocks (isClean : dirty = false) (handed notified : Page) (flags : ReturnFlags)
      (handedOff : HandedOff page client data dirty kernelCopy handed flags)
      (unlocking : flags.doUnlock = true) (notifies : Notified (handed.send .unlockPage) notified)
      (finished : notified.finalizeUnlock results.unlock = some next)
  | keeps (isDirty : dirty = true) (copyKept : kernelCopy = true)
      (nextEq : next = page.written data results.write)
  | serves (isDirty : dirty = true) (given : kernelCopy = false) (handed : Page)
      (handedOff : HandedOff page client data dirty kernelCopy handed ⟨false, false⟩)
      (waiting : handed.entry.waitlist ≠ [])
      (served : (handed.written data results.write).serviceWaitlist data true false = some next)
  | evicts (isDirty : dirty = true) (given : kernelCopy = false) (handed : Page)
      (handedOff : HandedOff page client data dirty kernelCopy handed ⟨false, false⟩)
      (noneWaiting : handed.entry.waitlist = [])
      (notified : Notified (handed.written data results.write).evicted next)

theorem notified_returnCall (handed : Page) {flags : ReturnFlags}
    (noUnlock : flags.doUnlock = false) : Notified handed (handed.returnCall flags results) := by
  unfold returnCall unlockCall
  simp only [noUnlock, Bool.false_eq_true, if_false]
  split_ifs
  · exact ⟨1, rfl⟩
  · exact .refl handed

theorem notified_returnCall_unlock (handed : Page) {flags : ReturnFlags}
    (unlocking : flags.doUnlock = true) :
    Notified (handed.send .unlockPage) (handed.returnCall flags results) := by
  unfold returnCall unlockCall
  simp only [unlocking, if_true]
  split_ifs
  · exact ⟨1, rfl⟩
  · exact .refl _

theorem notified_notifyCall (page : Page) (doNotify : Bool) :
    Notified page (page.notifyCall doNotify) := by
  unfold notifyCall
  split_ifs
  · exact ⟨1, rfl⟩
  · exact .refl page

/-- The dirty half of `data_return`, once the page has been marked as being paged out. -/
theorem writeBack_cases {handed : Page} {data : ℕ} {kernelCopy : Bool}
    (writes : (handed.setPagingout true).writeBack data kernelCopy results = some next) :
    (kernelCopy = true ∧ next = handed.written data results.write) ∨
      kernelCopy = false ∧
        ((handed.entry.waitlist ≠ [] ∧
            (handed.written data results.write).serviceWaitlist data true false = some next) ∨
          handed.entry.waitlist = [] ∧
            next = (handed.written data results.write).evicted.notifyCall true) := by
  have recorded : (((handed.setPagingout true).send (.writePage data)).recordWrite
      results.write).setPagingout false = handed.written data results.write := by
    unfold written recordWrite
    split_ifs <;> rfl
  have sameWaitlist :
      (handed.written data results.write).entry.waitlist = handed.entry.waitlist := by
    unfold written recordWrite
    split_ifs <;> rfl
  rcases Option.map_eq_some_iff.mp writes with ⟨⟨served, doNotify⟩, servedDone, rfl⟩
  simp only [afterWrite, if_true, recorded, sameWaitlist] at servedDone
  split_ifs at servedDone with kept noneWaiting
  · cases servedDone
    refine Or.inl ⟨kept, ?_⟩
    simp [notifyCall]
  · cases servedDone
    exact Or.inr ⟨Bool.eq_false_iff.mpr kept, Or.inr ⟨List.isEmpty_iff.mp noneWaiting, rfl⟩⟩
  · rcases Option.map_eq_some_iff.mp servedDone with ⟨page, servedDone, same⟩
    cases same
    refine Or.inr ⟨Bool.eq_false_iff.mpr kept, Or.inl ⟨fun none => noneWaiting
      (List.isEmpty_iff.mpr none), ?_⟩⟩
    simpa [notifyCall] using servedDone

/-- A dirty return sets no flag, and the page that it has handed off is written. -/
theorem dataReturn_writeBack {data : ℕ} {kernelCopy any : Bool}
    (returned : page.dataReturn client data true kernelCopy any results = some next) :
    ∃ handed, HandedOff page client data true kernelCopy handed ⟨false, false⟩ ∧
      (handed.setPagingout true).writeBack data kernelCopy results = some next := by
  rcases Option.bind_eq_some_iff.mp returned with ⟨⟨entered, flags⟩, enterDone, returned⟩
  rcases Option.map_eq_some_iff.mp enterDone with ⟨⟨handed, _⟩, handDone, same⟩
  cases same
  simp only [Bool.or_true, if_true] at returned
  split_ifs at returned with anyFlag
  simp only [Bool.or_eq_true, not_or, Bool.not_eq_true] at anyFlag
  have noFlags : flags = ⟨false, false⟩ := by
    rcases flags with ⟨doUnlock, doNotify⟩
    simp_all
  rw [noFlags] at handDone
  exact ⟨handed, dataReturnHandOff_cases handDone, returned⟩

theorem dataReturn_cases {data : ℕ} {dirty kernelCopy any : Bool}
    (returned : page.dataReturn client data dirty kernelCopy any results = some next) :
    Returned page client data dirty kernelCopy results next := by
  cases dirty with
  | false =>
      rcases Option.bind_eq_some_iff.mp returned with ⟨⟨entered, flags⟩, enterDone, returned⟩
      rcases Option.map_eq_some_iff.mp enterDone with ⟨⟨handed, _⟩, handDone, same⟩
      cases same
      have handedOff := dataReturnHandOff_cases handDone
      simp only [Bool.or_false, Bool.false_eq_true, if_false] at returned
      cases unlocking : flags.doUnlock with
      | false =>
          refine .clean rfl handed flags handedOff unlocking ?_
          rw [unlocking] at returned
          split_ifs at returned
          · cases returned
            exact notified_returnCall handed unlocking
          · cases returned
            exact .refl handed
      | true =>
          simp only [unlocking, Bool.or_true, Bool.true_or, if_true] at returned
          exact .unlocks rfl handed _ flags handedOff unlocking
            (notified_returnCall_unlock handed unlocking) returned
  | true =>
      rcases dataReturn_writeBack returned with ⟨handed, handedOff, written⟩
      rcases writeBack_cases written with
        ⟨kept, nextEq⟩ | ⟨given, ⟨waiting, served⟩ | ⟨noneWaiting, nextEq⟩⟩
      · have sameHanded : handed = page := by
          cases handedOff with
          | keeps _ nextEq _ => exact nextEq
          | serves given => simp [kept] at given
          | unlocks given => simp [kept] at given
          | evicts given => simp [kept] at given
          | leaves given => simp [kept] at given
        exact .keeps rfl kept (sameHanded ▸ nextEq)
      · exact .serves rfl given handed handedOff waiting served
      · exact .evicts rfl given handed handedOff noneWaiting
          (nextEq ▸ notified_notifyCall _ true)

theorem dataReturnUnmatched_cases {data : ℕ} {kernelCopy : Bool}
    (returned : page.dataReturnUnmatched client data kernelCopy = some next) :
    ∃ handed, HandedOff page client data true kernelCopy handed ⟨false, false⟩ ∧
      next = handed.setPagingout true := by
  rcases Option.bind_eq_some_iff.mp returned with ⟨⟨entered, flags⟩, enterDone, returned⟩
  rcases Option.map_eq_some_iff.mp enterDone with ⟨⟨handed, _⟩, handDone, same⟩
  cases same
  rcases flags with ⟨doUnlock, doNotify⟩
  simp only [Bool.or_true] at returned
  split_ifs at returned with anyFlag
  rw [Bool.or_eq_true, not_or, Bool.not_eq_true, Bool.not_eq_true] at anyFlag
  rcases anyFlag with ⟨rfl, rfl⟩
  cases returned
  exact ⟨handed, dataReturnHandOff_cases handDone, rfl⟩

/-- The page without the lock record of a client. -/
def forget (page : Page) (client : MachPort) : Page :=
  page.storeLocks ((page.locks.getD ∅).erase client)

theorem storeLocks_lock? (page : Page) (locks : OrdMap MachPort OutstandingClientLock)
    (other : MachPort) : (page.storeLocks locks).lock? other = locks.find? other := by
  unfold storeLocks lock?
  by_cases empty : locks.isEmpty = true
  · simp [empty, OrdMap.isEmpty_iff.mp empty other]
  · simp [empty]

theorem find?_getD_locks (page : Page) (client : MachPort) :
    (page.locks.getD ∅).find? client = page.lock? client := by
  unfold lock?
  cases page.locks <;> rfl

theorem forget_lock? (page : Page) (client other : MachPort) :
    (page.forget client).lock? other = if other = client then none else page.lock? other := by
  rw [forget, storeLocks_lock?, OrdMap.find?_erase, find?_getD_locks]

/-- What `lock_completed` does. -/
inductive LockAnswered (page : Page) (client : MachPort) (results : PageCallbacks)
    (next : Page) : Prop
  | counted (record : OutstandingClientLock) (found : page.lock? client = some record)
      (more : 1 < record.count)
      (nextEq : next = page.storeLocks
        ((page.locks.getD ∅).insert client { record with count := record.count - 1 }))
  | external (record : OutstandingClientLock) (found : page.lock? client = some record)
      (last : record.count = 1) (notInternal : record.internalLockOutstanding = false)
      (nextEq : next = page.forget client)
  | internal (record : OutstandingClientLock) (found : page.lock? client = some record)
      (last : record.count = 1) (isInternal : record.internalLockOutstanding = true)
      (finished : (page.forget client).internalLockCompleted client results = some next)

theorem lockCompleted_cases (answered : page.lockCompleted client results = some next) :
    LockAnswered page client results next := by
  unfold lockCompleted at answered
  cases found : page.lock? client with
  | none =>
      rw [found] at answered
      cases answered
  | some record =>
      rw [found] at answered
      simp only at answered
      split_ifs at answered with zero last isInternal
      · exact .internal record found last isInternal answered
      · cases answered
        exact .external record found last (Bool.eq_false_iff.mpr isInternal) rfl
      · cases answered
        exact .counted record found (by omega) rfl

/-- What the lock loop of `drop_client` does to a page. -/
theorem dropLocks_cases (dropped : page.dropLocks client results = some next) :
    (∃ record, page.lock? client = some record ∧ record.internalLockOutstanding = true ∧
        (page.forget client).internalLockCompleted client results = some next) ∨
      (∀ record, page.lock? client = some record → record.internalLockOutstanding = false) ∧
        next = page.forget client := by
  unfold dropLocks at dropped
  cases locks? : page.locks with
  | none =>
      rw [locks?] at dropped
      cases dropped
      refine Or.inr ⟨by simp [lock?, locks?], ?_⟩
      rw [forget, locks?, storeLocks]
      have empty : ((none.getD ∅ : OrdMap MachPort OutstandingClientLock).erase client).isEmpty =
          true := rfl
      rw [if_pos empty, ← locks?]
  | some locks =>
      rw [locks?] at dropped
      simp only at dropped
      have sameLock : page.lock? client = locks.find? client := by rw [lock?, locks?]; rfl
      have sameForget : page.storeLocks (locks.erase client) = page.forget client := by
        rw [forget, locks?]
        rfl
      rw [sameForget] at dropped
      cases found : locks.find? client with
      | none =>
          simp only [found, Option.map_none, Option.getD_none, Bool.false_eq_true,
            if_false] at dropped
          cases dropped
          exact Or.inr ⟨by simp [sameLock, found], rfl⟩
      | some record =>
          simp only [found, Option.map_some, Option.getD_some] at dropped
          split_ifs at dropped with isInternal
          · exact Or.inl ⟨record, sameLock.trans found, isInternal, dropped⟩
          · cases dropped
            refine Or.inr ⟨?_, rfl⟩
            intro other otherFound
            rw [sameLock, found] at otherFound
            cases otherFound
            exact Bool.eq_false_iff.mpr isInternal

@[simp]
theorem foldl_countLock_entry (clients : List MachPort) (page : Page) :
    (clients.foldl countLock page).entry = page.entry := by
  induction clients generalizing page with
  | nil => rfl
  | cons client rest ih => exact ih (page.countLock client)

end Cases

section Pagingout

variable {page next : Page} {client : MachPort} {results : PageCallbacks}

theorem serviceWaitlist_pagingout {data : ℕ} {allowWriteAccess deallocate : Bool}
    (served : page.serviceWaitlist data allowWriteAccess deallocate = some next) :
    next.entry.pagingout = page.entry.pagingout := by
  rcases serviceWaitlist_cases served with ⟨_, rfl⟩ | ⟨first, rest, _, _, rfl⟩
  · rfl
  · rw [flushForWaiting_entry]
    exact (serveFirst_frame data deallocate first rest page allowWriteAccess).2.2.1

theorem finalizeUnlock_pagingout {error : KernReturn}
    (finished : page.finalizeUnlock error = some next) :
    next.entry.pagingout = page.entry.pagingout := by
  cases finalizeUnlock_cases finished with
  | granted first rest _ _ nextEq =>
      rw [nextEq, flushEach_entry]
      rfl
  | failed first rest _ _ nextEq =>
      rw [nextEq]
      simp [setWaitlist]

theorem finishPagein_pagingout {result : ReadResult}
    (finished : page.finishPagein result = some next) :
    next.entry.pagingout = page.entry.pagingout := by
  rcases finishPagein_cases finished with ⟨_, served⟩ | ⟨_, rfl⟩
  · exact (serviceWaitlist_pagingout served).trans rfl
  · rw [sendErrorToWaitlist_entry]
    rfl

theorem internalLockCompleted_pagingout
    (completed : page.internalLockCompleted client results = some next) :
    next.entry.pagingout = page.entry.pagingout := by
  cases internalLockCompleted_cases completed with
  | terminating _ nextEq => rw [nextEq]
  | idle _ _ _ nextEq => rw [nextEq]
  | others _ _ _ _ _ nextEq =>
      rw [nextEq]
      rfl
  | refuse _ _ _ _ _ _ nextEq =>
      rw [nextEq, sendErrorToWaitlist_entry]
      rfl
  | pagein _ _ _ _ _ _ finished => exact (finishPagein_pagingout finished).trans rfl
  | unlock _ _ _ _ _ _ _ _ finished => exact (finalizeUnlock_pagingout finished).trans rfl

theorem dataRequest_pagingout {write : Bool} (before : page.entry.pagingout = false)
    (requested : page.dataRequest client write results = some next) :
    next.entry.pagingout = false := by
  have left : (page.leaveForRequest client).entry.pagingout = false := by
    unfold leaveForRequest
    split_ifs <;> exact before
  cases dataRequest_cases requested with
  | error _ _ _ nextEq =>
      rw [nextEq]
      exact before
  | held isPagingout => cases before.symm.trans isPagingout
  | completed _ _ _ finished => exact (internalLockCompleted_pagingout finished).trans before
  | waits _ _ _ nextEq =>
      rw [nextEq]
      exact before
  | revokes _ _ _ nextEq =>
      rw [nextEq, flushEach_entry]
      exact left
  | pagein _ _ _ _ _ finished =>
      rw [finishPagein_pagingout finished]
      unfold tellInvalid
      split_ifs <;> exact left

theorem dataUnlock_pagingout {first : Bool} {others : List MachPort}
    (unlocked : page.dataUnlock client first others results = some next) :
    next.entry.pagingout = page.entry.pagingout := by
  cases dataUnlock_cases unlocked with
  | ignored _ _ nextEq => rw [nextEq, flushEach_entry]
  | queued _ _ _ _ nextEq =>
      rw [nextEq, flushEach_entry]
      rfl
  | revokes _ _ _ _ nextEq =>
      rw [nextEq, flushEach_entry]
      rfl
  | alone _ _ _ _ finished =>
      rw [finalizeUnlock_pagingout finished]
      simp [send, addToWaitlist]

theorem HandedOff.pagingout {data : ℕ} {dirty kernelCopy : Bool} {flags : ReturnFlags}
    (handedOff : HandedOff page client data dirty kernelCopy next flags) :
    next.entry.pagingout = page.entry.pagingout := by
  have left : (page.leaveForReturn client).entry.pagingout = page.entry.pagingout := by
    unfold leaveForReturn
    split_ifs <;> rfl
  cases handedOff with
  | keeps _ nextEq => rw [nextEq]
  | serves _ _ _ served => exact (serviceWaitlist_pagingout served).trans left
  | unlocks _ _ _ _ _ _ _ _ nextEq =>
      rw [nextEq]
      exact left
  | evicts _ _ _ _ nextEq =>
      rw [nextEq]
      exact left
  | leaves _ _ nextEq =>
      rw [nextEq]
      exact left

theorem dataReturn_pagingout {data : ℕ} {dirty kernelCopy any : Bool}
    (before : page.entry.pagingout = false)
    (returned : page.dataReturn client data dirty kernelCopy any results = some next) :
    next.entry.pagingout = false := by
  cases dataReturn_cases returned with
  | clean _ _ _ handedOff _ notified =>
      rw [notified.entry, handedOff.pagingout, before]
  | unlocks _ _ _ _ handedOff _ notified finished =>
      rw [finalizeUnlock_pagingout finished, notified.entry]
      exact handedOff.pagingout.trans before
  | keeps _ _ nextEq =>
      rw [nextEq]
      rfl
  | serves _ _ _ _ _ served =>
      rw [serviceWaitlist_pagingout served]
      rfl
  | evicts _ _ _ _ _ notified =>
      rw [notified.entry]
      rfl

/-- After a handler no page is being paged out, unless a dirty return is not matched. -/
theorem handle_pagingout {input : PageInput} (before : page.entry.pagingout = false)
    (isMatched : ∀ client data kernelCopy, input ≠ .dataReturnUnmatched client data kernelCopy)
    (handled : page.handle input results = some next) : next.entry.pagingout = false := by
  cases input with
  | dataRequest client write => exact dataRequest_pagingout before handled
  | dataUnlock client first others => exact (dataUnlock_pagingout handled).trans before
  | dataReturn client data dirty kernelCopy any => exact dataReturn_pagingout before handled
  | dataReturnUnmatched client data kernelCopy => exact absurd rfl (isMatched _ _ _)
  | lockCompleted client =>
      cases lockCompleted_cases handled with
      | counted _ _ _ nextEq =>
          rw [nextEq]
          exact before
      | external _ _ _ _ nextEq =>
          rw [nextEq]
          exact before
      | internal _ _ _ _ finished =>
          exact (internalLockCompleted_pagingout finished).trans before
  | dropClient control =>
      rcases Option.map_eq_some_iff.mp handled with ⟨dropped, dropDone, rfl⟩
      have droppedEntry : dropped.entry.pagingout = false := by
        rcases dropLocks_cases dropDone with ⟨_, _, _, finished⟩ | ⟨_, rfl⟩
        · exact (internalLockCompleted_pagingout finished).trans before
        · exact before
      unfold dropClient
      split_ifs <;> exact droppedEntry
  | lockObject clients =>
      cases handled
      rw [foldl_countLock_entry]
      exact before
  | shutdown =>
      cases handled
      exact before

end Pagingout

end Page

end Hurd.Libpager
