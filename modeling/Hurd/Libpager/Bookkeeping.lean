import Hurd.Libpager.PageHandlers
import Hurd.Libpager.Threads

/-!
# The records of outstanding locks

A lock request that wants a reply is counted in `outstanding_locks` when it is sent, under the offset
and the length it names, and the count goes down with each `lock_completed`.  Requests come from the
routines for one page, which flush it, and from `lock_object`; `lock_completed` and `drop_client`
erase what is no longer outstanding, and wake the threads of `lock_object` where nothing is left.

Who has been dropped is no longer accounted for.
-/

namespace Hurd.Libpager

/-- The event is a lock request that `client` has to answer. -/
def PageEvent.asks (client : MachPort) : PageEvent → Bool
  | .lockRequest other _ _ _ replyRequested => replyRequested && decide (other = client)
  | _ => false

/-- The event is a lock request that `client` has to answer with the offset and length of `key`. -/
def Event.asks (pageSize : ℕ) (client : MachPort) (key : LockKey) : Event → Bool
  | .page number event =>
      event.asks client && decide (toLex (number * pageSize, pageSize) = key)
  | .lockRequest other offset length _ _ _ replyRequested =>
      replyRequested && decide (other = client) && decide (toLex (offset, length) = key)
  | _ => false

/-- Some client is counted, and nobody with a count of zero. -/
def Positive (locks : OrdMap MachPort OutstandingClientLock) : Prop :=
  locks.isEmpty = false ∧ ∀ client record, locks.find? client = some record → 0 < record.count

theorem Positive.insert {locks : OrdMap MachPort OutstandingClientLock} {client : MachPort}
    {record : OutstandingClientLock} (positive : 0 < record.count)
    (others : ∀ other found, locks.find? other = some found → 0 < found.count) :
    Positive (locks.insert client record) := by
  constructor
  · rw [Bool.eq_false_iff]
    intro isEmpty
    have noRecord := OrdMap.isEmpty_iff.mp isEmpty client
    rw [OrdMap.find?_insert, if_pos rfl] at noRecord
    cases noRecord
  · intro other found isFound
    rw [OrdMap.find?_insert] at isFound
    split_ifs at isFound
    · cases isFound
      exact positive
    · exact others other found isFound

namespace Page

variable {page middle next : Page} {client : MachPort}

/-- The lock record of the page, where there is one, counts somebody. -/
def Counting (page : Page) : Prop := ∀ locks, page.locks = some locks → Positive locks

/-- The lock requests that have been sent since are counted. -/
structure Booked (page next : Page) : Prop where
  counting : page.Counting → next.Counting
  counted : ∃ events, next.sent = page.sent ++ events ∧ ∀ client,
    next.lockCount client = page.lockCount client + events.countP (PageEvent.asks client)

/-- The record is as it was, and nothing that has been sent since is a request. -/
theorem Booked.of_locks {events : List PageEvent} (sameLocks : next.locks = page.locks)
    (isSent : next.sent = page.sent ++ events)
    (noRequest : ∀ client, ∀ event ∈ events, event.asks client = false) : Booked page next := by
  refine ⟨?_, events, isSent, ?_⟩
  · intro counting locks isRecord
    exact counting locks (sameLocks ▸ isRecord)
  · intro client
    have none : events.countP (PageEvent.asks client) = 0 := by
      rw [List.countP_eq_zero]
      intro event isEvent
      simp [noRequest client event isEvent]
    rw [none, Nat.add_zero]
    simp only [lockCount, lock?, sameLocks]

theorem Booked.of_eq (sameLocks : next.locks = page.locks) (sameSent : next.sent = page.sent) :
    Booked page next :=
  .of_locks sameLocks (by rw [sameSent, List.append_nil]) (by simp)

theorem Booked.refl (page : Page) : Booked page page := .of_eq rfl rfl

theorem Booked.trans (first : Booked page middle) (second : Booked middle next) :
    Booked page next := by
  rcases first.counted with ⟨earlier, isMiddle, countsEarlier⟩
  rcases second.counted with ⟨later, isNext, countsLater⟩
  refine ⟨second.counting ∘ first.counting, earlier ++ later, ?_, ?_⟩
  · rw [isNext, isMiddle, List.append_assoc]
  · intro client
    rw [countsLater, countsEarlier, List.countP_append, Nat.add_assoc]

theorem Booked.send (page : Page) {event : PageEvent}
    (noRequest : ∀ client, event.asks client = false) : Booked page (page.send event) :=
  .of_locks rfl rfl (by simpa using noRequest)

/-- A flush is entered when it is asked for. -/
theorem Booked.internalFlushRequest (page : Page) (client : MachPort) :
    Booked page (page.internalFlushRequest client) := by
  refine ⟨?_, _, rfl, ?_⟩
  · intro counting locks isRecord
    cases isRecord
    apply Positive.insert (Nat.succ_pos _)
    intro other found isFound
    cases isLocks : page.locks with
    | none => simp [isLocks] at isFound
    | some before =>
        rw [isLocks] at isFound
        exact (counting before isLocks).2 other found isFound
  · intro other
    have flushed := page.flushEach_lockCount [client] other
    rw [flushEach, List.foldl_cons, List.foldl_nil] at flushed
    rw [flushed]
    by_cases isOther : client = other
    · simp [PageEvent.asks, isOther]
    · simp [PageEvent.asks, isOther]

theorem Booked.foldl {Index : Type} {body : Page → Index → Page}
    (pass : ∀ page index, Booked page (body page index)) (indices : List Index) (page : Page) :
    Booked page (indices.foldl body page) := by
  induction indices generalizing page with
  | nil => exact .refl page
  | cons index rest ih => exact (pass page index).trans (ih (body page index))

theorem Booked.flushEach (page : Page) (clients : List MachPort) :
    Booked page (page.flushEach clients) :=
  .foldl .internalFlushRequest clients page

theorem Booked.supplyReaders (data : ℕ) (deallocate : Bool) (first : WaitlistClient)
    (rest : List WaitlistClient) (page : Page) :
    Booked page (supplyReaders data deallocate first rest page) := by
  induction rest generalizing first page with
  | nil => exact .of_locks rfl rfl (by simp [PageEvent.asks])
  | cons next rest ih =>
      have supplied : ∀ deallocate, Booked page
          ((page.moveToAccesslist first.client (next :: rest)).supply first.client data deallocate
            vmProtWrite) :=
        fun _ => .of_locks rfl rfl (by simp [PageEvent.asks])
      simp only [Page.supplyReaders]
      split_ifs
      · exact supplied deallocate
      · exact (supplied false).trans (ih next _)

/-- `service_WAITLIST` asks for flushes only where it enters them. -/
theorem Booked.serviceWaitlist {data : ℕ} {allowWriteAccess deallocate : Bool}
    (served : page.serviceWaitlist data allowWriteAccess deallocate = some next) :
    Booked page next := by
  rcases serviceWaitlist_cases served with ⟨-, rfl⟩ | ⟨first, rest, -, -, rfl⟩
  · exact .refl _
  · have serves : Booked page (page.serveFirst data allowWriteAccess deallocate first rest) := by
      unfold serveFirst
      split_ifs
      · exact .of_locks rfl rfl (by simp [PageEvent.asks])
      · exact (Booked.supplyReaders data deallocate first rest page).trans (.of_eq rfl rfl)
    refine serves.trans ?_
    unfold flushForWaiting
    split_ifs
    · exact .refl _
    · exact .flushEach _ _

theorem Booked.sendErrorToWaitlist (page : Page) : Booked page page.sendErrorToWaitlist := by
  have told : ∀ (page : Page) (waiting : WaitlistClient), Booked page (page.sendErrorTo waiting) := by
    intro page waiting
    unfold sendErrorTo
    split_ifs
    · exact (Booked.internalFlushRequest page waiting.client).trans (.of_eq rfl rfl)
    · exact .send page (fun _ => rfl)
  exact (Booked.foldl told page.entry.waitlist page).trans (.of_eq rfl rfl)

theorem Booked.finalizeUnlock {error : KernReturn}
    (finished : page.finalizeUnlock error = some next) : Booked page next := by
  cases finalizeUnlock_cases finished with
  | granted first rest _ _ nextEq =>
      rw [nextEq]
      apply Booked.trans _ (.flushEach _ _)
      exact .of_locks rfl rfl (by simp [PageEvent.asks])
  | failed first rest _ _ nextEq =>
      rw [nextEq]
      have waits : Booked page (page.setWaitlist rest) := .of_eq rfl rfl
      exact (waits.trans (.flushEach _ [first.client])).trans (.of_eq rfl rfl)

theorem Booked.finishPagein {result : ReadResult}
    (finished : page.finishPagein result = some next) : Booked page next := by
  have recorded : Booked page (page.setError result.error) := .of_eq rfl rfl
  rcases finishPagein_cases finished with ⟨succeeded, served⟩ | ⟨-, rfl⟩
  · rw [← succeeded] at served
    exact recorded.trans (.serviceWaitlist served)
  · exact recorded.trans (.sendErrorToWaitlist _)

/-- The completion of an internal lock leaves the counts alone. -/
theorem Booked.internalLockCompletedEnter {operation : Operation}
    (entered : page.internalLockCompletedEnter client = some (next, operation)) :
    Booked page next := by
  have removed : Booked page (page.removeFromAccesslist client) := .of_eq rfl rfl
  unfold Page.internalLockCompletedEnter at entered
  dsimp only at entered
  split_ifs at entered <;> cases entered
  · exact removed.trans (.sendErrorToWaitlist _)
  · exact removed
  · exact removed
  · exact removed
  · exact .refl _

theorem Booked.dataRequestWait (page : Page) (client : MachPort) (write : Bool) :
    Booked page (page.dataRequestWait client write).1 := by
  have added : Booked page (page.addToWaitlist client write) := .of_eq rfl rfl
  unfold Page.dataRequestWait
  split_ifs
  · exact added.trans (.flushEach _ _)
  · exact added.trans (.flushEach _ _)
  · exact (Booked.send page fun _ => rfl).trans (.of_eq rfl rfl)
  · exact added
  · exact added

theorem Booked.dataRequestEnter (page : Page) (client : MachPort) (write : Bool) :
    Booked page (page.dataRequestEnter client write).1 := by
  have added : ∀ page : Page, Booked page (page.addToWaitlist client write) :=
    fun _ => .of_eq rfl rfl
  unfold Page.dataRequestEnter
  split
  · exact .of_locks rfl rfl (by simp [PageEvent.asks])
  · split_ifs
    · exact (Booked.flushEach page _).trans (added _)
    · exact added page
    · apply Booked.trans _ (.dataRequestWait _ client write)
      exact .of_eq rfl rfl
    · exact added page
    · exact .dataRequestWait page client write

theorem Booked.dataUnlockEnter {flags : Bool × List MachPort}
    (entered : page.dataUnlockEnter client = some (next, flags)) : Booked page next := by
  unfold Page.dataUnlockEnter at entered
  split_ifs at entered <;> cases entered <;> exact .of_eq rfl rfl

theorem Booked.dataReturnEnter {data : ℕ} {dirty kernelCopy : Bool} {flags : ReturnFlags}
    (entered : page.dataReturnEnter client data dirty kernelCopy = some (next, flags)) :
    Booked page next := by
  rcases Option.map_eq_some_iff.mp entered with ⟨⟨handed, _⟩, handedOff, ⟨⟩⟩
  have left : Booked page (page.leaveForReturn client) := by
    unfold leaveForReturn
    split_ifs <;> exact .of_eq rfl rfl
  have hands : Booked page handed := by
    cases dataReturnHandOff_cases handedOff with
    | keeps _ nextEq _ => exact nextEq ▸ .refl page
    | serves _ _ _ served _ => exact left.trans (.serviceWaitlist served)
    | unlocks _ _ _ _ _ _ _ _ nextEq _ => exact nextEq ▸ left
    | evicts _ _ _ _ nextEq _ => exact nextEq ▸ left.trans (.of_eq rfl rfl)
    | leaves _ _ nextEq _ => exact nextEq ▸ left
  exact hands.trans (.of_eq rfl rfl)

/-- What follows a write asks for flushes only where it serves WAITLIST. -/
theorem Booked.afterWrite {data : ℕ} {kernelCopy last doNotify : Bool} {error : KernReturn}
    (finished : page.afterWrite data kernelCopy error last = some (next, doNotify)) :
    Booked page next := by
  have recorded : Booked page (page.recordWrite error) := by
    unfold recordWrite
    split_ifs <;> exact .of_eq rfl rfl
  have cleared : Booked page ((page.recordWrite error).setPagingout false) :=
    recorded.trans (.of_eq rfl rfl)
  unfold Page.afterWrite at finished
  dsimp only at finished
  split_ifs at finished
  · cases finished
    exact cleared
  · cases finished
    exact cleared.trans (.of_eq rfl rfl)
  · rcases Option.map_eq_some_iff.mp finished with ⟨served, isServed, ⟨⟩⟩
    exact cleared.trans (.serviceWaitlist isServed)
  · cases finished
    exact recorded

end Page

/-- What each client has answered, and who has been dropped -/
structure LockAccounts where
  completed : MachPort → LockKey → ℕ := fun _ _ => 0
  dropped : MachPort → Bool := fun _ => false

namespace SharedPager

variable {σ : Type} {accounts : LockAccounts} {pager middle next : SharedPager σ} {Flag : Type}

/-- The lock requests that a client had to answer, so far -/
def requested (pager : SharedPager σ) (client : MachPort) (key : LockKey) : ℕ :=
  pager.sent.countP (Event.asks pager.pageSize client key)

/-- `outstanding_locks[key].locks[client].count` -/
def lockCount (pager : SharedPager σ) (client : MachPort) (key : LockKey) : ℕ :=
  (((pager.outstandingLocks.find? key).bind (·.find? client)).map (·.count)).getD 0

/-- The records are those of the requests that have not been answered. -/
structure Balanced (accounts : LockAccounts) (pager : SharedPager σ) : Prop where
  divides : pager.pageSize ∣ offsetRange
  records : ∀ key locks, pager.outstandingLocks.find? key = some locks → Positive locks
  counts : ∀ client key, accounts.dropped client = false →
    pager.requested client key = accounts.completed client key + pager.lockCount client key

/-- No client has to answer where `key` is woken. -/
def WakesRightly (accounts : LockAccounts) (pageSize : ℕ) (sent events : List Event) : Prop :=
  ∀ before key after, events = before ++ .wakeLockWaiters key :: after → ∀ client,
    accounts.dropped client = false →
      (sent ++ before).countP (Event.asks pageSize client key) = accounts.completed client key

/-- The books are balanced after a part of a handler that has woken rightly. -/
structure Posted (accounts : LockAccounts) (pager next : SharedPager σ) : Prop where
  pageSize : next.pageSize = pager.pageSize
  balanced : Balanced accounts next
  wakes : ∃ events, next.sent = pager.sent ++ events ∧
    WakesRightly accounts pager.pageSize pager.sent events

/-- A part of a handler keeps the books. -/
def Books (accounts : LockAccounts) (pager next : SharedPager σ) : Prop :=
  Balanced accounts pager → Posted accounts pager next

/-- What is woken in two parts of a handler is woken rightly if it is in each. -/
theorem WakesRightly.append {pageSize : ℕ} {sent first second : List Event}
    (earlier : WakesRightly accounts pageSize sent first)
    (later : WakesRightly accounts pageSize (sent ++ first) second) :
    WakesRightly accounts pageSize sent (first ++ second) := by
  intro before key after isEvents client notDropped
  rcases List.append_eq_append_iff.mp isEvents with ⟨rest, rfl, isSecond⟩ | ⟨rest, rfl, isRest⟩
  · rw [← List.append_assoc]
    exact later rest key after isSecond client notDropped
  · cases rest with
    | nil =>
        have woken := later [] key after isRest.symm client notDropped
        simpa using woken
    | cons head rest =>
        cases isRest
        exact earlier before key rest rfl client notDropped

theorem WakesRightly.of_none {pageSize : ℕ} {sent events : List Event}
    (noneWoken : ∀ key, .wakeLockWaiters key ∉ events) :
    WakesRightly accounts pageSize sent events := by
  rintro before key after rfl
  exact absurd (by simp) (noneWoken key)

theorem Posted.trans (first : Posted accounts pager middle) (second : Books accounts middle next) :
    Posted accounts pager next := by
  have posted := second first.balanced
  rcases first.wakes with ⟨earlier, isMiddle, wakesEarlier⟩
  rcases posted.wakes with ⟨later, isNext, wakesLater⟩
  refine ⟨posted.pageSize.trans first.pageSize, posted.balanced, earlier ++ later, ?_, ?_⟩
  · rw [isNext, isMiddle, List.append_assoc]
  · rw [first.pageSize, isMiddle] at wakesLater
    exact wakesEarlier.append wakesLater

theorem Books.refl (pager : SharedPager σ) : Books accounts pager pager :=
  fun balanced => ⟨rfl, balanced, [], by simp, .of_none (by simp)⟩

theorem Books.trans (first : Books accounts pager middle) (second : Books accounts middle next) :
    Books accounts pager next :=
  fun balanced => (first balanced).trans second

/-- The records are as they were, and nothing is sent but what has no part in them. -/
theorem Books.of_locks {events : List Event} (samePageSize : next.pageSize = pager.pageSize)
    (sameLocks : next.outstandingLocks = pager.outstandingLocks)
    (isSent : next.sent = pager.sent ++ events)
    (noRequest : ∀ client key, ∀ event ∈ events, event.asks pager.pageSize client key = false)
    (noneWoken : ∀ key, .wakeLockWaiters key ∉ events) : Books accounts pager next := by
  intro balanced
  refine ⟨samePageSize, ?_, events, isSent, .of_none noneWoken⟩
  constructor
  · rw [samePageSize]
    exact balanced.divides
  · rw [sameLocks]
    exact balanced.records
  · intro client key notDropped
    have none : events.countP (Event.asks pager.pageSize client key) = 0 := by
      rw [List.countP_eq_zero]
      intro event isEvent
      simp [noRequest client key event isEvent]
    have before := balanced.counts client key notDropped
    simp only [requested, lockCount, samePageSize, sameLocks, isSent, List.countP_append, none]
      at before ⊢
    omega

theorem Books.of_eq (samePageSize : next.pageSize = pager.pageSize)
    (sameLocks : next.outstandingLocks = pager.outstandingLocks)
    (sameSent : next.sent = pager.sent) : Books accounts pager next :=
  .of_locks samePageSize sameLocks (by rw [sameSent, List.append_nil]) (by simp) (by simp)

theorem dvd_offsetOf (divides : pager.pageSize ∣ offsetRange) (number : ℕ) :
    pager.pageSize ∣ pager.offsetOf number :=
  (Nat.dvd_mod_iff divides).mpr (Nat.dvd_mul_left _ _)

/-- A request for a page names the key it is counted under. -/
theorem asks_pageEvent (divides : pager.pageSize ∣ offsetRange) (number : ℕ) (event : PageEvent)
    (client : MachPort) (key : LockKey) :
    (pager.pageEvent number event).asks pager.pageSize client key =
      (event.asks client && decide (pager.pageKey number = key)) := by
  have isOffset := Nat.div_mul_cancel (dvd_offsetOf divides number)
  simp only [pageEvent, Event.asks, isOffset, pageKey]
  congr

/-- Only the record of the key changes. -/
theorem find?_setLocks (pager : SharedPager σ) (key other : LockKey)
    (locks : Option (OrdMap MachPort OutstandingClientLock)) :
    (pager.setLocks key locks).outstandingLocks.find? other =
      if other = key then locks else pager.outstandingLocks.find? other := by
  unfold setLocks
  cases locks with
  | none => exact OrdMap.find?_erase key other pager.outstandingLocks
  | some locks => exact OrdMap.find?_insert key other locks pager.outstandingLocks

theorem Books.forEach {body : ℕ → SharedPager σ → Option (SharedPager σ)}
    (pass : ∀ {index pager next}, body index pager = some next → Books accounts pager next)
    {indices : List ℕ} (finished : Loop.forEach body indices pager = some next) :
    Books accounts pager next :=
  Loop.forEach_relation (Books accounts) .refl .trans pass finished

theorem Books.forEachFlag {body : ℕ → SharedPager σ × (ℕ → Flag) → Option (SharedPager σ × (ℕ → Flag))}
    (pass : ∀ {index state next}, body index state = some next → Books accounts state.1 next.1)
    {indices : List ℕ} {state nextState : SharedPager σ × (ℕ → Flag)}
    (finished : Loop.forEach body indices state = some nextState) :
    Books accounts state.1 nextState.1 :=
  Loop.forEach_relation (fun state next => Books accounts state.1 next.1) (fun _ => .refl _)
    .trans pass finished

theorem Books.foldl {Index : Type} {body : SharedPager σ → Index → SharedPager σ}
    (pass : ∀ pager index, Books accounts pager (body pager index)) (indices : List Index)
    (pager : SharedPager σ) : Books accounts pager (indices.foldl body pager) := by
  induction indices generalizing pager with
  | nil => exact .refl pager
  | cons index rest ih => exact (pass pager index).trans (ih (body pager index))

theorem Books.popFront (pager : SharedPager σ) (current : WritewaitEntry) :
    Books accounts pager (pager.popFront current) :=
  .of_locks rfl rfl rfl (by simp [Event.asks]) (by simp)

theorem Books.objectInit {control : MachPort} {pagesize : ℕ}
    {outcome : SharedPager σ × Option Thread}
    (done : pager.objectInit control pagesize = some outcome) : Books accounts pager outcome.1 := by
  unfold SharedPager.objectInit at done
  split_ifs at done <;> cases done
  · exact .refl pager
  · exact .of_locks rfl rfl rfl (by simp [Event.asks]) (by simp)

variable [Pagemap σ]

/-- A routine for a page keeps the books. -/
theorem Books.onTmp {number : ℕ} {part : Page → Option (Page × Flag)} {flag : Flag}
    (done : pager.onTmp number part = some (next, flag))
    (booked : ∀ {page next flag}, part page = some (next, flag) → Page.Booked page next) :
    Books accounts pager next := by
  rcases Option.map_eq_some_iff.mp done with ⟨⟨nextPage, _⟩, isPart, ⟨⟩⟩
  have pageBooked := booked isPart
  rcases pageBooked.counted with ⟨events, isSent, counted⟩
  have sent : nextPage.sent = events := isSent
  have found : ∀ key, (pager.putPage number nextPage).outstandingLocks.find? key =
      if key = pager.pageKey number then nextPage.locks else pager.outstandingLocks.find? key :=
    fun key => pager.find?_setLocks (pager.pageKey number) key nextPage.locks
  intro balanced
  refine ⟨rfl, ?_, ?_⟩
  · refine ⟨balanced.divides, ?_, ?_⟩
    · intro key locks isRecord
      rw [found] at isRecord
      split_ifs at isRecord
      · refine pageBooked.counting ?_ locks isRecord
        exact balanced.records (pager.pageKey number)
      · exact balanced.records key locks isRecord
    · intro client key notDropped
      have before := balanced.counts client key notDropped
      have requests : (pager.putPage number nextPage).requested client key =
          pager.requested client key +
            if pager.pageKey number = key then events.countP (PageEvent.asks client) else 0 := by
        simp only [requested, putPage, setLocks, List.countP_append, List.countP_map, sent]
        congr 1
        split_ifs with isKey
        · apply List.countP_congr
          intro event _
          simp [asks_pageEvent balanced.divides, isKey]
        · rw [List.countP_eq_zero]
          intro event _
          simp [asks_pageEvent balanced.divides, isKey]
      have locks : (pager.putPage number nextPage).lockCount client key =
          pager.lockCount client key +
            if pager.pageKey number = key then events.countP (PageEvent.asks client) else 0 := by
        by_cases isKey : pager.pageKey number = key
        · subst isKey
          rw [if_pos rfl]
          simp only [lockCount, found, if_true]
          exact counted client
        · simp only [lockCount, found, Ne.symm isKey, isKey, if_false, Nat.add_zero]
      rw [requests, locks, before, Nat.add_assoc]
  · refine ⟨nextPage.sent.map (pager.pageEvent number), rfl, .of_none ?_⟩
    intro key isEvent
    rcases List.mem_map.mp isEvent with ⟨event, -, isWake⟩
    cases isWake

theorem Books.touch (pager : SharedPager σ) (number : ℕ) :
    Books accounts pager (pager.touch number) := .of_eq rfl rfl rfl

theorem Books.load (pager : SharedPager σ) (number : ℕ) :
    Books accounts pager (pager.load number) := .of_eq rfl rfl rfl

theorem Books.store (pager : SharedPager σ) (number : ℕ) :
    Books accounts pager (pager.store number) := .of_eq rfl rfl rfl

/-- What is done to a page is done to the records of the pager. -/
theorem Books.onPage {number : ℕ} {part : Page → Option (Page × Flag)} {flag : Flag}
    (done : pager.onPage number part = some (next, flag))
    (booked : ∀ {page next flag}, part page = some (next, flag) → Page.Booked page next) :
    Books accounts pager next := by
  rcases Option.map_eq_some_iff.mp done with ⟨⟨worked, _⟩, isWorked, ⟨⟩⟩
  exact (Books.load pager number).trans ((Books.onTmp isWorked booked).trans (.store worked number))

theorem Books.flagPass {part : ℕ → Page → Option (Page × Flag)} {number : ℕ}
    {state nextState : SharedPager σ × (ℕ → Flag)}
    (done : flagPass part number state = some nextState)
    (booked : ∀ {page next flag}, part number page = some (next, flag) → Page.Booked page next) :
    Books accounts state.1 nextState.1 := by
  rcases Option.map_eq_some_iff.mp done with ⟨⟨worked, flag⟩, isWorked, ⟨⟩⟩
  exact Books.onPage isWorked booked

theorem Books.plainPass {part : ℕ → Page → Option Page} {number : ℕ}
    (done : plainPass part number pager = some next)
    (booked : ∀ {page next}, part number page = some next → Page.Booked page next) :
    Books accounts pager next := by
  rcases Option.map_eq_some_iff.mp done with ⟨⟨worked, _⟩, isWorked, ⟨⟩⟩
  apply Books.onPage isWorked
  intro page nextPage _ isPart
  rcases Option.map_eq_some_iff.mp isPart with ⟨_, isNext, ⟨⟩⟩
  exact booked isNext

section Handlers

variable {client : MachPort} {offset length : ℕ} {outcome : SharedPager σ × Option Thread}

theorem Books.lockCompletedPass {number : ℕ} {state nextState : SharedPager σ × (ℕ → Page.Operation)}
    (done : lockCompletedPass client number state = some nextState) :
    Books accounts state.1 nextState.1 := by
  unfold SharedPager.lockCompletedPass at done
  dsimp only at done
  split_ifs at done
  · exact (Books.touch state.1 number).trans (.flagPass done .internalLockCompletedEnter)
  · cases done
    exact .touch state.1 number

theorem Books.internalLockCompleted {drop : Option (MachPort × Option LockKey)}
    (done : pager.internalLockCompleted client offset length drop = some outcome) :
    Books accounts pager outcome.1 := by
  unfold SharedPager.internalLockCompleted at done
  split_ifs at done
  · cases done
    exact .refl pager
  · rcases Option.map_eq_some_iff.mp done with ⟨state, finished, ⟨⟩⟩
    exact Books.forEachFlag .lockCompletedPass finished

theorem Books.dataRequest {access : VmProt}
    (done : pager.dataRequest client offset length access = some outcome) :
    Books accounts pager outcome.1 := by
  unfold SharedPager.dataRequest at done
  split_ifs at done
  · cases done
    exact .refl pager
  · have loaded := @Books.load _ accounts _ pager (offset / pager.pageSize)
    dsimp only at done
    split at done
    · rcases Option.map_eq_some_iff.mp done with ⟨⟨worked, _⟩, isWorked, ⟨⟩⟩
      refine loaded.trans (.onTmp isWorked ?_)
      rintro page _ _ ⟨⟩
      exact .of_locks rfl rfl (by simp [PageEvent.asks])
    · rcases Option.bind_eq_some_iff.mp done with ⟨⟨worked, stage⟩, isWorked, rest⟩
      have entered : Books accounts (pager.load (offset / pager.pageSize)) worked := by
        apply Books.onTmp isWorked
        intro page next stage isPart
        have booked := Page.Booked.dataRequestEnter page client (wantsWrite access)
        rw [Option.some_inj.mp isPart] at booked
        exact booked
      have stored := loaded.trans (entered.trans (.store worked (offset / pager.pageSize)))
      cases stage with
      | done =>
          cases rest
          exact stored
      | lockCompleted => exact stored.trans (.internalLockCompleted rest)
      | pagein =>
          cases rest
          exact stored

theorem Books.unlockPass {first number : ℕ} {state nextState : SharedPager σ × (ℕ → Bool)}
    (done : unlockPass client first number state = some nextState) :
    Books accounts state.1 nextState.1 := by
  rcases Option.bind_eq_some_iff.mp done with ⟨⟨entered, doUnlock, flushes⟩, isEntered, done⟩
  rcases Option.map_eq_some_iff.mp done with ⟨⟨flushed, _⟩, isFlushed, ⟨⟩⟩
  have enters : Books accounts state.1 entered :=
    (Books.load state.1 number).trans (.onTmp isEntered .dataUnlockEnter)
  have flushes : Books accounts entered flushed := by
    apply Books.onTmp isFlushed
    rintro page _ _ ⟨⟩
    exact .flushEach page _
  exact enters.trans (flushes.trans (.store flushed number))

theorem Books.dataUnlock (done : pager.dataUnlock client offset length = some outcome) :
    Books accounts pager outcome.1 := by
  unfold SharedPager.dataUnlock at done
  split_ifs at done
  · cases done
    exact .refl pager
  · rcases Option.map_eq_some_iff.mp done with ⟨state, finished, ⟨⟩⟩
    exact Books.forEachFlag .unlockPass finished

omit [Pagemap σ] in
theorem Books.serviceWritewait (entries : List WritewaitEntry) (pager : SharedPager σ) :
    Books accounts pager (serviceWritewait entries pager).1 := by
  induction entries generalizing pager with
  | nil => exact .refl pager
  | cons current rest ih =>
      unfold SharedPager.serviceWritewait
      dsimp only
      split_ifs
      · exact (Books.popFront pager current).trans (ih _)
      · exact .refl pager

theorem Books.afterWrites {current : WritewaitEntry} {pageouts : List ℕ} {results : Callbacks}
    (done : pager.afterWrites current pageouts results = some outcome) :
    Books accounts pager outcome.1 := by
  rcases Option.map_eq_some_iff.mp done with ⟨⟨written, doNotify⟩, finished, isOutcome⟩
  have writes : Books accounts pager written :=
    Books.forEachFlag (fun passed => .flagPass passed .afterWrite) finished
  dsimp only at isOutcome
  split_ifs at isOutcome <;> cases isOutcome
  · exact writes
  · exact writes.trans ((Books.popFront written current).trans (.serviceWritewait _ _))

theorem Books.dataReturn {data : ℕ → ℕ} {dirty kernelCopy : Bool} {stale : ℕ → Bool}
    (done : pager.dataReturn client offset data length dirty kernelCopy stale = some outcome) :
    Books accounts pager outcome.1 := by
  unfold SharedPager.dataReturn at done
  split at done
  · cases done
  · rcases Option.bind_eq_some_iff.mp done with ⟨⟨returned, flags⟩, finished, done⟩
    have enters : Books accounts pager returned :=
      Books.forEachFlag (fun passed => .flagPass passed .dataReturnEnter) finished
    dsimp only at done
    split_ifs at done <;> cases done
    · exact enters
    · apply enters.trans
      apply Books.trans _ (.serviceWritewait _ _)
      exact .of_eq rfl rfl rfl
    · exact enters.trans (.of_eq rfl rfl rfl)
    · exact enters

theorem Books.dropPass (control : MachPort) (pager : SharedPager σ) (number : ℕ) :
    Books accounts pager (pager.dropPass control number) := by
  have reload : ∀ pager : SharedPager σ, Books accounts pager ((pager.load number).store number) :=
    fun pager => .of_eq rfl rfl rfl
  have worked : pager.onPage number (fun page =>
      some ((page.removeFromAccesslist control).setWriteAccessGranted false, ())) =
        some (_, ()) := rfl
  have removed := @Books.onPage _ accounts _ _ _ _ _ _ _ worked (by
    rintro page _ _ ⟨⟩
    exact .of_eq rfl rfl)
  unfold SharedPager.dropPass
  dsimp only
  split_ifs
  · exact removed.trans (reload _)
  · exact removed
  · exact reload _
  · exact .refl pager

theorem Books.dropPages (control : MachPort) (pager : SharedPager σ) :
    Books accounts pager (pager.dropPages control) := by
  have passes := @Books.foldl _ accounts _ _ (Books.dropPass control)
    (List.range (Pagemap.size pager.pagemap)) pager
  refine passes.trans (.of_locks rfl rfl rfl ?_ (by simp))
  intro client key event isEvent
  rcases List.mem_map.mp isEvent with ⟨request, -, rfl⟩
  rfl

theorem Books.operationPass {operation : ℕ → Page.Operation} {results : Callbacks} {number : ℕ}
    (done : operationPass operation results number pager = some next) :
    Books accounts pager next := by
  unfold SharedPager.operationPass at done
  split at done
  · cases done
    exact .refl _
  · exact .plainPass done .finishPagein
  · exact .plainPass done .finalizeUnlock

theorem Books.unlockedPass {doUnlock : ℕ → Bool} {results : Callbacks} {number : ℕ}
    (done : unlockedPass doUnlock results number pager = some next) :
    Books accounts pager next := by
  unfold SharedPager.unlockedPass at done
  split_ifs at done
  · exact .plainPass done .finalizeUnlock
  · cases done
    exact .refl _

omit [Pagemap σ] in
/-- The record of a key is stored, or erased with its waiting threads woken. -/
theorem storeLocks_posted {key : LockKey} {locks : OrdMap MachPort OutstandingClientLock}
    (divides : pager.pageSize ∣ offsetRange)
    (others : ∀ other found, other ≠ key → pager.outstandingLocks.find? other = some found →
      Positive found)
    (positive : ∀ client record, locks.find? client = some record → 0 < record.count)
    (counts : ∀ client other, accounts.dropped client = false →
      pager.requested client other = accounts.completed client other +
        if other = key then ((locks.find? client).map (·.count)).getD 0
        else pager.lockCount client other) :
    Posted accounts pager (pager.storeLocks key locks) := by
  unfold storeLocks
  split_ifs with isEmpty
  · have noRecord := OrdMap.isEmpty_iff.mp isEmpty
    have found := (pager.emit (.wakeLockWaiters key)).find?_setLocks key
    refine ⟨rfl, ?_, ?_⟩
    · refine ⟨divides, ?_, ?_⟩
      · intro other record isRecord
        rw [found] at isRecord
        split_ifs at isRecord with isKey
        exact others other record isKey isRecord
      · intro client other notDropped
        have before := counts client other notDropped
        have silent : ((pager.emit (.wakeLockWaiters key)).setLocks key none).requested client other =
            pager.requested client other := by
          simp [requested, emit, setLocks, Event.asks]
        rw [silent, before]
        simp only [lockCount, found]
        split_ifs with isKey
        · simp [noRecord]
        · rfl
    · refine ⟨[.wakeLockWaiters key], rfl, ?_⟩
      intro before woken after isEvents client notDropped
      have counted := counts client key notDropped
      rw [if_pos rfl, noRecord client] at counted
      cases before with
      | nil =>
          cases isEvents
          rw [List.append_nil]
          exact counted
      | cons head rest => simp at isEvents
  · have found := fun other => pager.find?_setLocks key other (some locks)
    refine ⟨rfl, ⟨divides, ?_, ?_⟩, [], ?_, .of_none (by simp)⟩
    · intro other record isRecord
      rw [found] at isRecord
      split_ifs at isRecord with isKey
      · cases isRecord
        exact ⟨Bool.eq_false_iff.mpr isEmpty, positive⟩
      · exact others other record isKey isRecord
    · intro client other notDropped
      have before := counts client other notDropped
      have silent : (pager.setLocks key (some locks)).requested client other =
          pager.requested client other := rfl
      rw [silent, before]
      simp only [lockCount, found]
      split_ifs <;> rfl
    · rw [List.append_nil]
      rfl

omit [Pagemap σ] in
theorem Books.storeLocks_erase {key : LockKey} {locks : OrdMap MachPort OutstandingClientLock}
    {control : MachPort} (isDropped : accounts.dropped control = true)
    (isRecord : pager.outstandingLocks.find? key = some locks) :
    Books accounts pager (pager.storeLocks key (locks.erase control)) := by
  intro balanced
  apply storeLocks_posted balanced.divides
  · intro other found _ isFound
    exact balanced.records other found isFound
  · intro client record isFound
    rw [OrdMap.find?_erase] at isFound
    split_ifs at isFound
    exact (balanced.records key locks isRecord).2 client record isFound
  · intro client other notDropped
    have different : client ≠ control := by
      rintro rfl
      exact Bool.eq_false_iff.mp notDropped isDropped
    rw [balanced.counts client other notDropped]
    split_ifs with isKey
    · rw [OrdMap.find?_erase, if_neg different, lockCount, isKey, isRecord]
      rfl
    · rfl

/-- The records of a client that is dropped are not counted any more. -/
theorem Books.dropLocks {control : MachPort} {keys : List LockKey}
    (isDropped : accounts.dropped control = true)
    (done : dropLocks control keys pager = some outcome) : Books accounts pager outcome.1 := by
  induction keys generalizing pager with
  | nil =>
      cases done
      exact .dropPages control pager
  | cons key rest ih =>
      rcases Option.bind_eq_some_iff.mp done with ⟨locks, isRecord, done⟩
      have stored := Books.storeLocks_erase isDropped isRecord
      dsimp only at done
      split_ifs at done
      · rcases Option.bind_eq_some_iff.mp done with ⟨⟨completed, thread⟩, isCompleted, done⟩
        have completes := stored.trans (.internalLockCompleted isCompleted)
        cases thread with
        | none => exact completes.trans (ih done)
        | some thread =>
            cases done
            exact completes
      · exact stored.trans (ih done)

theorem Books.resumeDrop {drop : Option (MachPort × Option LockKey)}
    (areDropped : ∀ control key, drop = some (control, key) → accounts.dropped control = true)
    (done : pager.resumeDrop drop = some outcome) : Books accounts pager outcome.1 := by
  rcases drop with _ | ⟨control, _ | key⟩
  · cases done
    exact .refl pager
  · cases done
    exact .dropPages control pager
  · simp only [SharedPager.resumeDrop] at done
    split_ifs at done
    exact .dropLocks (areDropped control (some key) rfl) done

omit [Pagemap σ] in
/-- `countLock` counts one more for its client and key. -/
theorem lockCount_countLock (pager : SharedPager σ) (key otherKey : LockKey)
    (client other : MachPort) : (pager.countLock key client).lockCount other otherKey =
      pager.lockCount other otherKey + if client = other ∧ key = otherKey then 1 else 0 := by
  simp only [countLock, lockCount, find?_setLocks]
  by_cases isKey : otherKey = key
  · subst isKey
    rw [if_pos rfl, Option.bind_some, OrdMap.find?_insert]
    by_cases isClient : other = client
    · subst isClient
      cases isLocks : pager.outstandingLocks.find? otherKey with
      | none => simp
      | some locks => cases isRecord : locks.find? other <;> simp [isRecord]
    · cases isLocks : pager.outstandingLocks.find? otherKey with
      | none => simp [isClient, Ne.symm isClient]
      | some locks => simp [isClient, Ne.symm isClient]
  · simp [isKey, Ne.symm isKey]

omit [Pagemap σ] in
theorem countLock_records {key : LockKey} {client : MachPort}
    (records : ∀ key locks, pager.outstandingLocks.find? key = some locks → Positive locks) :
    ∀ other locks, (pager.countLock key client).outstandingLocks.find? other = some locks →
      Positive locks := by
  intro other locks isRecord
  simp only [countLock, find?_setLocks] at isRecord
  split_ifs at isRecord with isKey
  · cases isRecord
    apply Positive.insert (Nat.succ_pos _)
    intro other record isFound
    cases isLocks : pager.outstandingLocks.find? key with
    | none => simp [isLocks] at isFound
    | some before =>
        rw [isLocks] at isFound
        exact (records key before isLocks).2 other record isFound
  · exact records other locks isRecord

omit [Pagemap σ] in
/-- One client of `lock_object` -/
theorem Books.signal (offset length : ℕ) (shouldReturn : MemoryObjectReturn) (flush sync : Bool)
    (pager : SharedPager σ) (client : MachPort) :
    Books accounts pager (pager.signal offset length shouldReturn flush sync client) := by
  let request := Event.lockRequest client offset length shouldReturn flush vmProtNoChange sync
  cases sync with
  | false => exact .of_locks rfl rfl rfl (by simp [Event.asks]) (by simp)
  | true =>
      have isSignal : pager.signal offset length shouldReturn flush true client =
          (pager.emit request).countLock (toLex (offset, length)) client := rfl
      rw [isSignal]
      intro balanced
      refine ⟨rfl, ?_, [request], rfl, .of_none (by simp [request])⟩
      refine ⟨balanced.divides, countLock_records balanced.records, ?_⟩
      intro other key notDropped
      have before := balanced.counts other key notDropped
      have asked : ((pager.emit request).countLock (toLex (offset, length)) client).requested other
          key = pager.requested other key +
            if client = other ∧ toLex (offset, length) = key then 1 else 0 := by
        simp only [requested, countLock, emit, setLocks, List.countP_append, List.countP_singleton,
          request, Event.asks, Bool.true_and, Bool.and_eq_true, decide_eq_true_eq]
      have sameCount : (pager.emit request).lockCount other key = pager.lockCount other key := rfl
      rw [asked, lockCount_countLock, sameCount, before, Nat.add_assoc]

/-- `lock_object` enters a lock for every client it signals. -/
theorem Books.lockObject (pager : SharedPager σ) (offset length : ℕ)
    (shouldReturn : MemoryObjectReturn) (flush sync : Bool) :
    Books accounts pager (pager.lockObject offset length shouldReturn flush sync).1 := by
  have touched : ∀ (only : Bool) (numbers : List ℕ) (state : SharedPager σ × OrdSet MachPort),
      Books accounts state.1 (numbers.foldl (lockObjectPass only) state).1 := by
    intro only numbers
    induction numbers with
    | nil => exact fun state => .refl state.1
    | cons number rest ih =>
        exact fun state => (Books.touch state.1 number).trans (ih (lockObjectPass only state number))
  exact (touched _ _ (pager, ∅)).trans
    (.foldl (Books.signal offset length shouldReturn flush sync) _ _)

end Handlers

end SharedPager

/-- The client has answered once more. -/
def LockAccounts.complete (accounts : LockAccounts) (client : MachPort) (key : LockKey) : LockAccounts :=
  { accounts with
    completed := fun other otherKey =>
      accounts.completed other otherKey + if other = client ∧ otherKey = key then 1 else 0 }

def LockAccounts.drop (accounts : LockAccounts) (control : MachPort) : LockAccounts :=
  { accounts with dropped := Function.update accounts.dropped control true }

namespace SharedPager

variable {σ : Type} [Pagemap σ] {accounts : LockAccounts} {pager : SharedPager σ}
  {client : MachPort} {offset length : ℕ} {outcome : SharedPager σ × Option Thread}

omit [Pagemap σ] in
/-- The record of a client that has answered once more -/
theorem storeLocks_completed {key : LockKey} {locks fewer : OrdMap MachPort OutstandingClientLock}
    (balanced : Balanced accounts pager) (isLocks : pager.outstandingLocks.find? key = some locks)
    (positive : ∀ other record, fewer.find? other = some record → 0 < record.count)
    (own : ((locks.find? client).map (·.count)).getD 0 =
      ((fewer.find? client).map (·.count)).getD 0 + 1)
    (others : ∀ other ≠ client, fewer.find? other = locks.find? other) :
    Posted (accounts.complete client key) pager (pager.storeLocks key fewer) := by
  apply storeLocks_posted balanced.divides _ positive
  · intro other otherKey notDropped
    rw [balanced.counts other otherKey notDropped]
    by_cases isKey : otherKey = key
    · subst isKey
      by_cases isClient : other = client
      · subst isClient
        simp [LockAccounts.complete, lockCount, isLocks, own]
        omega
      · simp [LockAccounts.complete, lockCount, isLocks, isClient, others other isClient]
    · simp [LockAccounts.complete, isKey]
  · intro other found _ isFound
    exact balanced.records other found isFound

/-- A completion takes one lock off the record of its client. -/
theorem lockCompleted_posted (balanced : Balanced accounts pager)
    (done : pager.lockCompleted client offset length = some outcome) :
    Posted (accounts.complete client (toLex (offset, length))) pager outcome.1 := by
  rcases Option.bind_eq_some_iff.mp done with ⟨locks, isLocks, done⟩
  rcases Option.bind_eq_some_iff.mp done with ⟨record, isRecord, done⟩
  have positive := (balanced.records _ locks isLocks).2
  have erased : record.count = 1 → Posted (accounts.complete client (toLex (offset, length))) pager
      (pager.storeLocks (toLex (offset, length)) (locks.erase client)) := by
    intro isOne
    apply storeLocks_completed balanced isLocks
    · intro other found isFound
      rw [OrdMap.find?_erase] at isFound
      split_ifs at isFound
      exact positive other found isFound
    · rw [OrdMap.find?_erase, if_pos rfl, isRecord]
      simpa using isOne
    · intro other different
      rw [OrdMap.find?_erase, if_neg different]
  dsimp only at done
  split_ifs at done with isZero isOne isInternal
  · exact (erased isOne).trans (.internalLockCompleted done)
  · cases done
    exact erased isOne
  · cases done
    apply storeLocks_completed balanced isLocks
    · intro other found isFound
      rw [OrdMap.find?_insert] at isFound
      split_ifs at isFound
      · cases isFound
        exact (by omega : 0 < record.count - 1)
      · exact positive other found isFound
    · rw [OrdMap.find?_insert, if_pos rfl, isRecord]
      simp
      omega
    · intro other different
      rw [OrdMap.find?_insert, if_neg different]

end SharedPager

end Hurd.Libpager
