import Hurd.Libpager.Answers

/-!
# Waiting clients and holders

Unless an unlock is queued, a client waits for a page once at most and is not on its
ACCESSLIST while it waits, and the only locks counted for a page are the pager's own flushes.
So `finalize_unlock` is reached from `data_unlock` only.
-/

namespace Hurd.Libpager

namespace Page

/-- Whoever waits waits once and does not hold the page. -/
structure Orderly (page : Page) : Prop where
  nodup : (waitingClients page.entry.waitlist).Nodup
  disjoint : ∀ client ∈ waitingClients page.entry.waitlist, client ∉ page.entry.accesslist
  internal : ∀ client record, page.lock? client = some record →
    record.internalLockOutstanding = true

variable {page next : Page} {client : MachPort} {results : PageCallbacks}

/-- Fewer clients on ACCESSLIST do no harm. -/
theorem Orderly.of_fewer (orderly : page.Orderly)
    (waitlist : next.entry.waitlist = page.entry.waitlist)
    (accesslist : ∀ other ∈ next.entry.accesslist, other ∈ page.entry.accesslist)
    (locks : next.locks = page.locks) : next.Orderly where
  nodup := by
    rw [waitlist]
    exact orderly.nodup
  disjoint other waits listed := by
    rw [waitlist] at waits
    exact orderly.disjoint other waits (accesslist other listed)
  internal other record found := by
    rw [lock?, locks] at found
    exact orderly.internal other record found

/-- Of a page for which nobody waits only the locks matter. -/
theorem Orderly.of_nil (noneWaiting : page.entry.waitlist = [])
    (internal : ∀ client record, page.lock? client = some record →
      record.internalLockOutstanding = true) : page.Orderly where
  nodup := by
    rw [noneWaiting]
    exact List.nodup_nil
  disjoint other waits := by
    rw [noneWaiting] at waits
    cases waits
  internal := internal

/-- A flush of several clients enters internal locks. -/
theorem internal_flushEach (internal : ∀ client record, page.lock? client = some record →
      record.internalLockOutstanding = true) (clients : List MachPort) (other : MachPort)
    (record : OutstandingClientLock)
    (found : (page.flushEach clients).lock? other = some record) :
    record.internalLockOutstanding = true := by
  rw [flushEach_lock?] at found
  split_ifs at found
  · cases found
    rfl
  · exact internal other record found

theorem Orderly.flushEach (orderly : page.Orderly) (clients : List MachPort) :
    (page.flushEach clients).Orderly where
  nodup := by
    rw [flushEach_entry]
    exact orderly.nodup
  disjoint := by
    rw [flushEach_entry]
    exact orderly.disjoint
  internal := internal_flushEach orderly.internal clients

/-- Those who are served leave WAITLIST, in the order they came. -/
theorem Orderly.serviceWaitlist (orderly : page.Orderly) {data : ℕ}
    {allowWriteAccess deallocate : Bool}
    (served : page.serviceWaitlist data allowWriteAccess deallocate = some next) :
    next.Orderly := by
  rcases serviceWaitlist_cases served with ⟨_, rfl⟩ | ⟨first, rest, _, waiting, rfl⟩
  · exact orderly
  have split := servedBatch_append_leftWaiting allowWriteAccess first rest
  rw [← waiting] at split
  have nodup := orderly.nodup
  rw [← split, List.nodup_append] at nodup
  rcases serveFirst_frame data deallocate first rest page allowWriteAccess with ⟨sameLocks, -⟩
  have batch : (page.serveFirst data allowWriteAccess deallocate first rest).Orderly := by
    refine ⟨?_, ?_, ?_⟩
    · rw [serveFirst_waitlist]
      exact nodup.2.1
    · intro other waits listed
      rw [serveFirst_waitlist] at waits
      rcases (mem_serveFirst_accesslist data deallocate first rest page allowWriteAccess
        other).mp listed with before | now
      · refine orderly.disjoint other ?_ before
        rw [← split]
        exact List.mem_append_right _ waits
      · exact nodup.2.2 other now other waits rfl
    · intro other record found
      rw [lock?, sameLocks] at found
      exact orderly.internal other record found
  unfold flushForWaiting
  split_ifs
  · exact batch
  · exact batch.flushEach _

theorem Orderly.sendErrorToWaitlist (orderly : page.Orderly) :
    page.sendErrorToWaitlist.Orderly := by
  refine .of_nil (by rw [sendErrorToWaitlist_entry]) ?_
  intro other record found
  rw [lock?, (sendErrorToWaitlist_of_disjoint page orderly.disjoint).1] at found
  exact orderly.internal other record found

theorem Orderly.finishPagein (orderly : page.Orderly) {result : ReadResult}
    (finished : page.finishPagein result = some next) : next.Orderly := by
  have errorSet : ∀ error, (page.setError error).Orderly :=
    fun _ => orderly.of_fewer rfl (fun _ => id) rfl
  rcases finishPagein_cases finished with ⟨_, served⟩ | ⟨_, rfl⟩
  · exact (errorSet kernSuccess).serviceWaitlist served
  · exact (errorSet result.error).sendErrorToWaitlist

/-- The last client of a page that unlocks it is taken off WAITLIST again. -/
theorem orderly_finalizeUnlock (waiting : WaitlistClient) {error : KernReturn}
    (internal : ∀ client record, page.lock? client = some record →
      record.internalLockOutstanding = true) (onlyOne : page.entry.waitlist = [waiting])
    (finished : page.finalizeUnlock error = some next) : next.Orderly := by
  cases finalizeUnlock_cases finished with
  | granted first rest waits _ nextEq =>
      cases onlyOne.symm.trans waits
      rw [nextEq]
      exact (Orderly.of_nil rfl (by exact internal)).flushEach _
  | failed first rest waits _ nextEq =>
      cases onlyOne.symm.trans waits
      rw [nextEq]
      have flushed : ((page.setWaitlist []).flushEach [waiting.client]).Orderly :=
        (Orderly.of_nil rfl (by exact internal)).flushEach _
      exact flushed.of_fewer rfl (fun _ => id) rfl

/-- `internal_lock_completed` on a page that is orderly without the client. -/
theorem orderly_internalLockCompleted (removed : (page.removeFromAccesslist client).Orderly)
    (orderly : page.Orderly ∨ client ∈ page.entry.accesslist ∧ page.entry.waitlist ≠ [])
    (running : page.terminating = false)
    (completed : page.internalLockCompleted client results = some next) : next.Orderly := by
  cases internalLockCompleted_cases completed with
  | terminating ended _ =>
      rw [ended] at running
      cases running
  | idle _ _ nothingToDo nextEq =>
      rw [nextEq]
      exact orderly.resolve_right fun ⟨listed, waiting⟩ => waiting (nothingToDo listed)
  | others _ _ _ _ _ nextEq =>
      rw [nextEq]
      exact removed
  | refuse _ _ _ _ _ _ nextEq =>
      rw [nextEq]
      exact removed.sendErrorToWaitlist
  | pagein _ _ _ _ _ _ finished =>
      have sent : ((page.removeFromAccesslist client).send .readPage).Orderly :=
        removed.of_fewer rfl (fun _ => id) rfl
      exact sent.finishPagein finished
  | unlock _ _ _ _ first rest waiting firstListed _ =>
      refine absurd firstListed (removed.disjoint first.client ?_)
      rw [show (page.removeFromAccesslist client).entry.waitlist = first :: rest from waiting]
      exact List.mem_cons_self

theorem Orderly.removeFromAccesslist (orderly : page.Orderly) (client : MachPort) :
    (page.removeFromAccesslist client).Orderly :=
  orderly.of_fewer rfl (fun _ listed => (OrdSet.mem_erase.mp listed).1) rfl

/-- A client that neither has the page nor waits for it may wait. -/
theorem Orderly.addToWaitlist (orderly : page.Orderly) (write : Bool)
    (notYet : client ∉ waitingClients page.entry.waitlist)
    (notListed : client ∉ page.entry.accesslist) : (page.addToWaitlist client write).Orderly := by
  have joined : waitingClients (page.addToWaitlist client write).entry.waitlist =
      waitingClients page.entry.waitlist ++ [client] := by
    simp [Page.addToWaitlist, waitingClients]
  refine ⟨?_, ?_, orderly.internal⟩
  · rw [joined, List.nodup_append]
    refine ⟨orderly.nodup, by simp, ?_⟩
    rintro other waits _ now rfl
    rw [List.mem_singleton.mp now] at waits
    exact notYet waits
  · rw [joined]
    intro other waits
    rcases List.mem_append.mp waits with before | now
    · exact orderly.disjoint other before
    · rw [List.mem_singleton.mp now]
      exact notListed

/-- A request is entered once, if its client does not wait yet. -/
theorem Orderly.dataRequest {write : Bool} (notPagingout : page.entry.pagingout = false)
    (running : page.terminating = false) (orderly : page.Orderly)
    (notYet : client ∉ waitingClients page.entry.waitlist)
    (requested : page.dataRequest client write results = some next) : next.Orderly := by
  have leftNotListed : client ∉ (page.leaveForRequest client).entry.accesslist := by
    unfold leaveForRequest
    split_ifs with listed
    · exact fun still => (OrdSet.mem_erase.mp still).2 rfl
    · exact listed
  have left : (page.leaveForRequest client).Orderly := by
    unfold leaveForRequest
    split_ifs
    · exact (orderly.removeFromAccesslist client).of_fewer rfl (fun _ => id) rfl
    · exact orderly
  have leftNotYet : client ∉ waitingClients (page.leaveForRequest client).entry.waitlist := by
    rw [page.leaveForRequest_waitlist client]
    exact notYet
  cases dataRequest_cases requested with
  | error _ _ _ nextEq =>
      rw [nextEq]
      exact orderly.of_fewer rfl (fun _ => id) rfl
  | held isPagingout =>
      rw [notPagingout] at isPagingout
      cases isPagingout
  | completed _ listed waiting finished =>
      have removed : (page.removeFromAccesslist client).Orderly :=
        orderly.removeFromAccesslist client
      have notListed : client ∉ (page.removeFromAccesslist client).entry.accesslist :=
        fun still => (OrdSet.mem_erase.mp still).2 rfl
      have added : ((page.addToWaitlist client write).removeFromAccesslist client).Orderly :=
        (removed.addToWaitlist write (by exact notYet) notListed).of_fewer rfl (fun _ => id) rfl
      exact orderly_internalLockCompleted added (Or.inr ⟨listed, by simp [Page.addToWaitlist]⟩)
        running finished
  | waits _ notListed _ nextEq =>
      rw [nextEq]
      exact orderly.addToWaitlist write notYet notListed
  | revokes _ _ _ nextEq =>
      rw [nextEq]
      exact (left.addToWaitlist write leftNotYet leftNotListed).flushEach _
  | pagein _ _ _ _ _ finished =>
      have told : ((page.leaveForRequest client).tellInvalid client).Orderly := by
        unfold tellInvalid
        split_ifs
        · exact left.of_fewer rfl (fun _ => id) rfl
        · exact left
      have toldFrame : ((page.leaveForRequest client).tellInvalid client).entry =
          (page.leaveForRequest client).entry := by
        unfold tellInvalid
        split_ifs <;> rfl
      have added := told.addToWaitlist write (toldFrame ▸ leftNotYet) (toldFrame ▸ leftNotListed)
      have sent : ((((page.leaveForRequest client).tellInvalid client).addToWaitlist client
          write).send .readPage).Orderly := added.of_fewer rfl (fun _ => id) rfl
      exact sent.finishPagein finished

theorem Orderly.dataUnlock {first : Bool} {others : List MachPort} (orderly : page.Orderly)
    (notQueued : ¬page.QueuesUnlock)
    (unlocked : page.dataUnlock client first others results = some next) : next.Orderly := by
  cases dataUnlock_cases unlocked with
  | ignored _ _ nextEq =>
      rw [nextEq]
      exact orderly.flushEach _
  | queued _ _ readersWait waiting => exact absurd ⟨readersWait, Or.inl waiting⟩ notQueued
  | revokes _ _ noneWaiting shared =>
      refine absurd ⟨?_, Or.inr shared⟩ notQueued
      simp [PagemapEntry.isAnyClientWaitingForWriteAccess, noneWaiting]
  | alone _ _ noneWaiting _ finished =>
      refine orderly_finalizeUnlock ⟨client, true⟩ ?_ ?_ finished
      · exact internal_flushEach (by exact orderly.internal) _
      · simp [send, Page.addToWaitlist, noneWaiting]

theorem Orderly.handedOff {data : ℕ} {dirty kernelCopy : Bool} {flags : ReturnFlags}
    (orderly : page.Orderly)
    (handedOff : HandedOff page client data dirty kernelCopy next flags) :
    next.Orderly ∧ flags.doUnlock = false := by
  have left : (page.leaveForReturn client).Orderly := by
    unfold leaveForReturn
    split_ifs
    · exact orderly
    · exact orderly.removeFromAccesslist client
  cases handedOff with
  | keeps _ nextEq flagsEq =>
      rw [nextEq, flagsEq]
      exact ⟨orderly, rfl⟩
  | serves _ _ _ served flagsEq =>
      rw [flagsEq]
      exact ⟨left.serviceWaitlist served, rfl⟩
  | unlocks _ _ _ _ first rest waiting firstListed =>
      refine absurd firstListed (left.disjoint first.client ?_)
      rw [(page.leaveForReturn_frame client).1, waiting]
      exact List.mem_cons_self
  | evicts _ _ _ _ nextEq flagsEq =>
      rw [nextEq, flagsEq]
      exact ⟨left.of_fewer rfl (fun _ => id) rfl, rfl⟩
  | leaves _ _ nextEq flagsEq =>
      rw [nextEq, flagsEq]
      exact ⟨left, rfl⟩

theorem Orderly.notified (orderly : page.Orderly) (notified : Notified page next) :
    next.Orderly := by
  refine orderly.of_fewer (by rw [notified.entry]) (fun other listed => ?_) notified.locks
  rwa [notified.entry] at listed

theorem Orderly.written (orderly : page.Orderly) (data : ℕ) (error : KernReturn) :
    (page.written data error).Orderly := by
  rcases page.written_frame data error with ⟨accesslist, waitlist, -, locks, -⟩
  exact orderly.of_fewer waitlist (fun other listed => accesslist ▸ listed) locks

/-- A returned page is handed to those who wait, and finds no unlock among them. -/
theorem Orderly.dataReturn {data : ℕ} {dirty kernelCopy any : Bool} (orderly : page.Orderly)
    (returned : page.dataReturn client data dirty kernelCopy any results = some next) :
    next.Orderly := by
  cases dataReturn_cases returned with
  | clean _ _ _ handedOff _ notified => exact (orderly.handedOff handedOff).1.notified notified
  | unlocks _ _ _ _ handedOff unlocking =>
      have notUnlocking := (orderly.handedOff handedOff).2
      rw [unlocking] at notUnlocking
      cases notUnlocking
  | keeps _ _ nextEq =>
      rw [nextEq]
      exact orderly.written data results.write
  | serves _ _ _ handedOff _ served =>
      exact ((orderly.handedOff handedOff).1.written data results.write).serviceWaitlist served
  | evicts _ _ handed handedOff _ notified =>
      have evicted : (handed.written data results.write).evicted.Orderly :=
        ((orderly.handedOff handedOff).1.written data results.write).of_fewer rfl (fun _ => id) rfl
      exact evicted.notified notified

theorem Orderly.forget (orderly : page.Orderly) (client : MachPort) :
    (page.forget client).Orderly := by
  refine ⟨orderly.nodup, orderly.disjoint, ?_⟩
  intro other record found
  rw [forget_lock?] at found
  split_ifs at found
  exact orderly.internal other record found

/-- The completion of a flush takes a client off ACCESSLIST before it serves WAITLIST. -/
theorem Orderly.lockCompleted (running : page.terminating = false) (orderly : page.Orderly)
    (answered : page.lockCompleted client results = some next) : next.Orderly := by
  have forgotten := orderly.forget client
  cases lockCompleted_cases answered with
  | counted record found _ nextEq =>
      rw [nextEq]
      refine ⟨orderly.nodup, orderly.disjoint, ?_⟩
      intro other otherRecord otherFound
      rw [storeLocks_lock?, OrdMap.find?_insert] at otherFound
      split_ifs at otherFound
      · cases otherFound
        exact orderly.internal client record found
      · rw [find?_getD_locks] at otherFound
        exact orderly.internal other otherRecord otherFound
  | external _ _ _ _ nextEq =>
      rw [nextEq]
      exact forgotten
  | internal _ _ _ _ finished =>
      exact orderly_internalLockCompleted (forgotten.removeFromAccesslist client)
        (Or.inl forgotten) running finished

theorem Orderly.dropClient {control : MachPort} (running : page.terminating = false)
    (orderly : page.Orderly)
    (handled : page.handle (.dropClient control) results = some next) : next.Orderly := by
  rcases Option.map_eq_some_iff.mp handled with ⟨dropped, dropDone, rfl⟩
  have forgotten := orderly.forget control
  have droppedOrderly : dropped.Orderly := by
    rcases dropLocks_cases dropDone with ⟨_, _, _, finished⟩ | ⟨_, rfl⟩
    · exact orderly_internalLockCompleted (forgotten.removeFromAccesslist control)
        (Or.inl forgotten) running finished
    · exact forgotten
  unfold Page.dropClient
  split_ifs
  · exact (droppedOrderly.removeFromAccesslist control).of_fewer rfl (fun _ => id) rfl
  · exact droppedOrderly

end Page

end Hurd.Libpager
