import Hurd.Libpager.Projection

/-!
# No waiting client is stranded

A client on WAITLIST is served by a later message only if there is one to come: while
somebody waits for a page, the page has clients and each of them has been asked to give it
up.  Three branches break this.  A request for a page that nobody has waits for nobody where it
finds `WRITE_ACCESS_GRANTED`, which the last writer has left, or `PAGINGOUT`, which a dirty return
has left that was not written; the flushes of an unlock of several pages all name the first of
them; and a client that is dropped while the page is brought in for it leaves those behind it
waiting.
-/

namespace Hurd.Libpager

namespace Page

/-- An internal flush of the page by this client is outstanding. -/
def Flushing (page : Page) (client : MachPort) : Prop :=
  ∃ record, page.lock? client = some record ∧ record.internalLockOutstanding = true ∧
    0 < record.count

/-- While a client waits, the page has clients and all of them are being flushed. -/
def NotStranded (page : Page) : Prop :=
  page.entry.waitlist ≠ [] →
    (∃ client, client ∈ page.entry.accesslist) ∧
      ∀ client ∈ page.entry.accesslist, page.Flushing client

variable {page next : Page} {client : MachPort} {results : PageCallbacks}

theorem notStranded_of_nil (noneWaiting : page.entry.waitlist = []) : page.NotStranded :=
  fun waiting => absurd noneWaiting waiting

theorem flushing_of_locks (sameLocks : next.locks = page.locks) (flushing : page.Flushing client) :
    next.Flushing client := by
  rcases flushing with ⟨record, found, isInternal, positive⟩
  refine ⟨record, ?_, isInternal, positive⟩
  rw [lock?, sameLocks]
  exact found

theorem flushing_flushEach_of_mem {clients : List MachPort} (clientMem : client ∈ clients) :
    (page.flushEach clients).Flushing client := by
  refine ⟨⟨page.lockCount client + clients.count client, true⟩, ?_, rfl, ?_⟩
  · rw [flushEach_lock?, if_pos clientMem]
  · have counted := List.count_pos_iff.mpr clientMem
    exact Nat.add_pos_right _ counted

theorem Flushing.flushEach (flushing : page.Flushing client) (clients : List MachPort) :
    (page.flushEach clients).Flushing client := by
  by_cases clientMem : client ∈ clients
  · exact flushing_flushEach_of_mem clientMem
  · rcases flushing with ⟨record, found, isInternal, positive⟩
    refine ⟨record, ?_, isInternal, positive⟩
    rw [flushEach_lock?, if_neg clientMem]
    exact found

theorem NotStranded.flushEach (safe : page.NotStranded) (clients : List MachPort) :
    (page.flushEach clients).NotStranded := by
  intro waiting
  rw [flushEach_entry] at waiting ⊢
  rcases safe waiting with ⟨someListed, allFlushing⟩
  exact ⟨someListed, fun client listed => (allFlushing client listed).flushEach clients⟩

/-- Flushing everybody on ACCESSLIST strands nobody, if there is somebody on it. -/
theorem notStranded_flushEach {clients : List MachPort}
    (someListed : ∃ client, client ∈ page.entry.accesslist)
    (all : ∀ client ∈ page.entry.accesslist, client ∈ clients) :
    (page.flushEach clients).NotStranded := by
  intro _
  rw [flushEach_entry]
  exact ⟨someListed, fun client listed => flushing_flushEach_of_mem (all client listed)⟩

theorem serveFirst_nonempty (data : ℕ) (allowWriteAccess deallocate : Bool) (first : WaitlistClient)
    (rest : List WaitlistClient) :
    first.client ∈
      (page.serveFirst data allowWriteAccess deallocate first rest).entry.accesslist := by
  rw [mem_serveFirst_accesslist]
  right
  unfold servedBatch
  split_ifs <;> simp [waitingClients]

/-- `service_WAITLIST` asks everybody it has served to give the page up when others wait. -/
theorem notStranded_serviceWaitlist {data : ℕ} {allowWriteAccess deallocate : Bool}
    (running : page.terminating = false)
    (served : page.serviceWaitlist data allowWriteAccess deallocate = some next) :
    next.NotStranded := by
  rcases serviceWaitlist_cases served with ⟨ended, _⟩ | ⟨first, rest, _, _, rfl⟩
  · rw [running] at ended
    cases ended
  · unfold flushForWaiting
    split_ifs with noneLeft
    · exact notStranded_of_nil (List.isEmpty_iff.mp noneLeft)
    · exact notStranded_flushEach ⟨first.client, serveFirst_nonempty _ _ _ _ _⟩ fun _ => id

theorem notStranded_sendErrorToWaitlist (page : Page) : page.sendErrorToWaitlist.NotStranded := by
  refine notStranded_of_nil ?_
  rw [sendErrorToWaitlist_entry]

theorem notStranded_finishPagein {result : ReadResult} (running : page.terminating = false)
    (finished : page.finishPagein result = some next) : next.NotStranded := by
  rcases finishPagein_cases finished with ⟨_, served⟩ | ⟨_, rfl⟩
  · exact notStranded_serviceWaitlist (by exact running) served
  · exact notStranded_sendErrorToWaitlist _

/-- `finalize_unlock` flushes the one client on ACCESSLIST when others wait or on an error. -/
theorem notStranded_finalizeUnlock (first : WaitlistClient) (rest : List WaitlistClient)
    {error : KernReturn} (waiting : page.entry.waitlist = first :: rest)
    (onlyOne : page.entry.accesslist.size ≤ 1) (firstListed : first.client ∈ page.entry.accesslist)
    (finished : page.finalizeUnlock error = some next) : next.NotStranded := by
  have onlyFirst : ∀ client ∈ page.entry.accesslist, client = first.client :=
    fun client listed => OrdSet.size_le_one_iff.mp onlyOne client listed first.client firstListed
  cases finalizeUnlock_cases finished with
  | granted head tail waitingEq _ nextEq =>
      rw [waiting] at waitingEq
      cases waitingEq
      rw [nextEq]
      split_ifs with noneLeft
      · exact (notStranded_of_nil (by exact noneLeft)).flushEach []
      · exact notStranded_flushEach ⟨first.client, firstListed⟩
          fun client listed => List.mem_singleton.mpr (onlyFirst client listed)
  | failed head tail waitingEq _ nextEq =>
      rw [waiting] at waitingEq
      cases waitingEq
      have flushed : ((page.setWaitlist rest).flushEach [first.client]).NotStranded :=
        notStranded_flushEach ⟨first.client, firstListed⟩
          fun client listed => List.mem_singleton.mpr (onlyFirst client listed)
      rw [nextEq]
      exact flushed

/--
`internal_lock_completed` strands nobody when all clients but the one that has answered are
being flushed.
-/
theorem notStranded_internalLockCompleted (running : page.terminating = false)
    (flushed : page.entry.waitlist ≠ [] → ∀ other ∈ page.entry.accesslist, other ≠ client →
      page.Flushing other)
    (someListed : page.entry.waitlist ≠ [] → client ∉ page.entry.accesslist →
      ∃ other, other ∈ page.entry.accesslist)
    (completed : page.internalLockCompleted client results = some next) : next.NotStranded := by
  cases internalLockCompleted_cases completed with
  | terminating ended =>
      rw [running] at ended
      cases ended
  | idle _ _ nothingToDo nextEq =>
      rw [nextEq]
      intro waiting
      have notListed : client ∉ page.entry.accesslist :=
        fun listed => waiting (nothingToDo listed)
      refine ⟨someListed waiting notListed, fun other listed => ?_⟩
      exact flushed waiting other listed fun same => notListed (same ▸ listed)
  | others _ _ _ waiting othersLeft nextEq =>
      subst nextEq
      intro _
      refine ⟨OrdSet.isEmpty_eq_false_iff.mp othersLeft, fun other listed => ?_⟩
      rcases OrdSet.mem_erase.mp listed with ⟨wasListed, different⟩
      exact flushed waiting other wasListed different
  | refuse _ _ _ _ _ _ nextEq =>
      rw [nextEq]
      exact notStranded_sendErrorToWaitlist _
  | pagein _ _ _ _ _ _ finished => exact notStranded_finishPagein (by exact running) finished
  | unlock _ _ _ oneLeft first rest waiting firstListed finished =>
      exact notStranded_finalizeUnlock first rest (by exact waiting) (by exact oneLeft.le)
        (by exact firstListed) finished

theorem notStranded_leaveForReturn (safe : page.NotStranded) (client : MachPort)
    (someLeft : page.entry.waitlist ≠ [] →
      (page.leaveForReturn client).entry.accesslist.isEmpty = false) :
    (page.leaveForReturn client).NotStranded := by
  rcases page.leaveForReturn_frame client with ⟨sameWaitlist, -, sameLocks, -, -, -⟩
  intro waiting
  rw [sameWaitlist] at waiting
  refine ⟨OrdSet.isEmpty_eq_false_iff.mp (someLeft waiting), fun other listed => ?_⟩
  have wasListed : other ∈ page.entry.accesslist := by
    unfold leaveForReturn at listed
    split_ifs at listed
    · exact listed
    · exact (OrdSet.mem_erase.mp listed).1
  exact flushing_of_locks sameLocks ((safe waiting).2 other wasListed)

/--
A request that waits for a page that nobody has, as if it were still granted or being written.
-/
def WaitsForNobody (page : Page) (client : MachPort) : Prop :=
  takeNexterror client page.nexterror = none ∧ page.entry.waitlist = [] ∧
    (page.entry.writeAccessGranted = true ∨ page.entry.pagingout = true) ∧
    page.entry.accesslist.isEmpty = true

/-- An unlock of a page whose flushes go to another page. -/
def FlushesElsewhere (page : Page) : Prop :=
  page.entry.waitlist = [] ∧ 1 < page.entry.accesslist.size ∧
    ∃ client ∈ page.entry.accesslist, ¬page.Flushing client

/-- The last client of a page is dropped, and the page is brought in for this client only. -/
def ServesDropped (page : Page) (control : MachPort) (results : PageCallbacks) : Prop :=
  (∃ record, page.lock? control = some record ∧ record.internalLockOutstanding = true) ∧
    control ∈ page.entry.accesslist ∧ (page.entry.accesslist.erase control).isEmpty = true ∧
    page.entry.invalid = false ∧ results.read.error = kernSuccess ∧
    ∃ first rest, page.entry.waitlist = first :: rest ∧
      (∀ client ∈ servedBatch (!results.read.writeLock) first rest, client = control) ∧
      leftWaiting (!results.read.writeLock) first rest ≠ []

/-- The handler takes one of the three branches that leave a client stranded. -/
def Strands (page : Page) (results : PageCallbacks) : PageInput → Prop
  | .dataRequest client _ => page.WaitsForNobody client
  | .dataUnlock _ first _ => first = false ∧ page.FlushesElsewhere
  | .dropClient control => page.ServesDropped control results
  | .dataReturn .. => False
  | .dataReturnUnmatched .. => False
  | .lockCompleted _ => False
  | .lockObject _ => False
  | .shutdown => True

theorem notStranded_dataRequest {write : Bool} (running : page.terminating = false)
    (safe : page.NotStranded) (someWriter : ¬page.WaitsForNobody client)
    (requested : page.dataRequest client write results = some next) : next.NotStranded := by
  cases dataRequest_cases requested with
  | error _ _ _ nextEq =>
      rw [nextEq]
      exact safe
  | held isPagingout noError nextEq =>
      rw [nextEq]
      intro _
      by_cases noneWaiting : page.entry.waitlist = []
      · have someListed : page.entry.accesslist.isEmpty = false := by
          rw [← Bool.not_eq_true]
          exact fun empty => someWriter ⟨noError, noneWaiting, Or.inr isPagingout, empty⟩
        rw [if_pos noneWaiting]
        simp only [addToWaitlist, flushEach_entry]
        refine ⟨OrdSet.isEmpty_eq_false_iff.mp someListed, fun other listed => ?_⟩
        exact flushing_of_locks rfl (flushing_flushEach_of_mem listed)
      · rw [if_neg noneWaiting]
        rcases safe noneWaiting with ⟨someListed, allFlushing⟩
        exact ⟨someListed, fun other listed => flushing_of_locks rfl (allFlushing other listed)⟩
  | completed _ listed waiting finished =>
      refine notStranded_internalLockCompleted (by exact running) ?_ ?_ finished
      · intro _ other otherListed _
        exact flushing_of_locks rfl ((safe waiting).2 other otherListed)
      · intro _ _
        exact ⟨client, listed⟩
  | waits _ _ waiting nextEq =>
      rw [nextEq]
      intro _
      rcases safe waiting with ⟨someListed, allFlushing⟩
      exact ⟨someListed, fun other listed => flushing_of_locks rfl (allFlushing other listed)⟩
  | revokes noError noneWaiting contended nextEq =>
      rw [nextEq]
      have someLeft : ∃ other, other ∈ (page.leaveForRequest client).entry.accesslist := by
        rw [← OrdSet.isEmpty_eq_false_iff]
        rcases contended with granted | ⟨_, nonempty⟩
        · rw [← Bool.not_eq_true]
          intro empty
          unfold leaveForRequest at granted empty
          split_ifs at granted empty with listed
          · cases granted
          · exact someWriter ⟨noError, noneWaiting, Or.inl granted, empty⟩
        · exact nonempty
      exact notStranded_flushEach someLeft fun _ => id
  | pagein _ _ _ _ _ finished =>
      refine notStranded_finishPagein ?_ finished
      unfold tellInvalid leaveForRequest
      split_ifs <;> exact running

theorem notStranded_dataUnlock {first : Bool} {others : List MachPort} (safe : page.NotStranded)
    (flushesHere : first = false → ¬page.FlushesElsewhere)
    (unlocked : page.dataUnlock client first others results = some next) : next.NotStranded := by
  cases dataUnlock_cases unlocked with
  | ignored _ _ nextEq =>
      rw [nextEq]
      exact safe.flushEach _
  | queued _ _ _ waiting nextEq =>
      rw [nextEq]
      rcases safe waiting with ⟨someListed, allFlushing⟩
      have added : (page.addToWaitlist client true).NotStranded := fun _ =>
        ⟨someListed, fun other listed => flushing_of_locks rfl (allFlushing other listed)⟩
      exact added.flushEach _
  | revokes listed _ noneWaiting shared nextEq =>
      rw [nextEq]
      split_ifs with isFirst
      · exact notStranded_flushEach ⟨client, listed⟩
          fun other otherListed => List.mem_append_left _ otherListed
      · have allFlushing : ∀ other ∈ page.entry.accesslist, page.Flushing other := by
          by_contra someNot
          simp only [not_forall] at someNot
          rcases someNot with ⟨other, otherListed, notFlushing⟩
          exact flushesHere (Bool.eq_false_iff.mpr isFirst)
            ⟨noneWaiting, shared, other, otherListed, notFlushing⟩
        have added : (page.addToWaitlist client true).NotStranded := fun _ =>
          ⟨⟨client, listed⟩,
            fun other otherListed => flushing_of_locks rfl (allFlushing other otherListed)⟩
        exact added.flushEach []
  | alone listed _ noneWaiting onlyOne finished =>
      refine notStranded_finalizeUnlock ⟨client, true⟩ [] ?_ ?_ ?_ finished
      · simp [send, addToWaitlist, noneWaiting]
      · simpa [send, addToWaitlist] using onlyOne
      · simpa [send, addToWaitlist] using listed

theorem notStranded_handedOff {data : ℕ} {dirty kernelCopy : Bool} {flags : ReturnFlags}
    (running : page.terminating = false) (safe : page.NotStranded)
    (handedOff : HandedOff page client data dirty kernelCopy next flags)
    (noUnlock : flags.doUnlock = false) : next.NotStranded := by
  rcases page.leaveForReturn_frame client with ⟨-, -, -, -, -, sameTerminating, -⟩
  cases handedOff with
  | keeps _ nextEq =>
      rw [nextEq]
      exact safe
  | serves _ _ _ served => exact notStranded_serviceWaitlist (sameTerminating.trans running) served
  | unlocks _ _ _ _ _ _ _ _ _ flagsEq => simp [flagsEq] at noUnlock
  | evicts _ _ _ noneWaiting nextEq =>
      rw [nextEq]
      refine notStranded_of_nil ?_
      exact (page.leaveForReturn_frame client).1.trans noneWaiting
  | leaves _ nobodyServed nextEq =>
      rw [nextEq]
      refine notStranded_leaveForReturn safe client fun waiting => ?_
      rw [← Bool.not_eq_true]
      exact fun empty => waiting (nobodyServed empty).1

theorem notStranded_notified (safe : page.NotStranded) (notified : Notified page next) :
    next.NotStranded := by
  intro waiting
  rw [notified.entry] at waiting ⊢
  rcases safe waiting with ⟨someListed, allFlushing⟩
  exact ⟨someListed, fun other listed => flushing_of_locks notified.locks (allFlushing other listed)⟩

theorem notStranded_dataReturn {data : ℕ} {dirty kernelCopy any : Bool}
    (running : page.terminating = false) (safe : page.NotStranded)
    (returned : page.dataReturn client data dirty kernelCopy any results = some next) :
    next.NotStranded := by
  cases dataReturn_cases returned with
  | clean _ _ _ handedOff noUnlock notified =>
      exact notStranded_notified (notStranded_handedOff running safe handedOff noUnlock) notified
  | unlocks _ handed notified flags handedOff unlocking notifies finished =>
      cases handedOff with
      | keeps _ _ flagsEq => simp [flagsEq] at unlocking
      | serves _ _ _ _ flagsEq => simp [flagsEq] at unlocking
      | unlocks _ _ _ oneLeft first rest waiting firstListed nextEq =>
          subst nextEq
          have sameEntry := notifies.entry
          refine notStranded_finalizeUnlock first rest ?_ ?_ ?_ finished
          · rw [sameEntry]
            exact (page.leaveForReturn_frame client).1.trans waiting
          · rw [sameEntry]
            exact oneLeft.le
          · rw [sameEntry]
            exact firstListed
      | evicts _ _ _ _ _ flagsEq => simp [flagsEq] at unlocking
      | leaves _ _ _ flagsEq => simp [flagsEq] at unlocking
  | keeps _ _ nextEq =>
      rcases page.written_frame data results.write with
        ⟨sameAccesslist, sameWaitlist, -, sameLocks, -⟩
      rw [nextEq]
      intro waiting
      rw [sameWaitlist] at waiting
      rw [sameAccesslist]
      rcases safe waiting with ⟨someListed, allFlushing⟩
      exact ⟨someListed, fun other listed => flushing_of_locks sameLocks (allFlushing other listed)⟩
  | serves _ _ handed handedOff _ served =>
      refine notStranded_serviceWaitlist ?_ served
      have constants := handedOff.constants.trans
        (handed.written_frame data results.write).2.2.2.2.2.2
      exact constants.1.trans running
  | evicts _ _ handed _ noneWaiting notified =>
      refine notStranded_notified (notStranded_of_nil ?_) notified
      exact (handed.written_frame data results.write).2.1.trans noneWaiting

/-- The other clients are still being flushed when one is forgotten. -/
theorem Flushing.forget {other : MachPort} (flushing : page.Flushing other)
    (different : other ≠ client) : (page.forget client).Flushing other := by
  rcases flushing with ⟨record, found, isInternal, positive⟩
  refine ⟨record, ?_, isInternal, positive⟩
  rw [forget_lock?, if_neg different]
  exact found

theorem notStranded_lockCompleted (running : page.terminating = false) (safe : page.NotStranded)
    (answered : page.lockCompleted client results = some next) : next.NotStranded := by
  cases lockCompleted_cases answered with
  | counted record found more nextEq =>
      rw [nextEq]
      intro waiting
      rcases safe waiting with ⟨someListed, allFlushing⟩
      refine ⟨someListed, fun other listed => ?_⟩
      rcases allFlushing other listed with ⟨otherRecord, otherFound, isInternal, positive⟩
      by_cases same : other = client
      · subst same
        rw [found] at otherFound
        cases otherFound
        refine ⟨{ record with count := record.count - 1 }, ?_, isInternal, Nat.sub_pos_of_lt more⟩
        rw [storeLocks_lock?, OrdMap.find?_insert, if_pos rfl]
      · refine ⟨otherRecord, ?_, isInternal, positive⟩
        rw [storeLocks_lock?, OrdMap.find?_insert, if_neg same, find?_getD_locks]
        exact otherFound
  | external record found _ notInternal nextEq =>
      rw [nextEq]
      intro waiting
      rcases safe waiting with ⟨someListed, allFlushing⟩
      refine ⟨someListed, fun other listed => (allFlushing other listed).forget ?_⟩
      rintro rfl
      rcases allFlushing other listed with ⟨otherRecord, otherFound, isInternal, _⟩
      rw [found] at otherFound
      cases otherFound
      rw [notInternal] at isInternal
      cases isInternal
  | internal _ _ _ _ finished =>
      refine notStranded_internalLockCompleted (by exact running) ?_ ?_ finished
      · intro waiting other listed different
        exact ((safe waiting).2 other listed).forget different
      · intro waiting _
        exact (safe waiting).1

/-- A page that lost its last client in `drop_client` has nobody waiting for it. -/
theorem notStranded_dropClient {control : MachPort} (running : page.terminating = false)
    (safe : page.NotStranded) (notOnlyIt : ¬page.ServesDropped control results)
    (handled : page.handle (.dropClient control) results = some next) : next.NotStranded := by
  rcases Option.map_eq_some_iff.mp handled with ⟨dropped, dropDone, rfl⟩
  -- what is left is to take the client off ACCESSLIST, where somebody else has to stay
  suffices staying : dropped.entry.waitlist ≠ [] →
      (∃ other ∈ dropped.entry.accesslist, other ≠ control) ∧
        ∀ other ∈ dropped.entry.accesslist, other ≠ control → dropped.Flushing other by
    unfold dropClient
    split_ifs with listed
    · intro waiting
      rcases staying waiting with ⟨⟨other, otherListed, different⟩, allFlushing⟩
      refine ⟨⟨other, OrdSet.mem_erase.mpr ⟨otherListed, different⟩⟩, fun client clientListed => ?_⟩
      rcases OrdSet.mem_erase.mp clientListed with ⟨wasListed, notControl⟩
      exact flushing_of_locks rfl (allFlushing client wasListed notControl)
    · intro waiting
      rcases staying waiting with ⟨⟨other, otherListed, different⟩, allFlushing⟩
      exact ⟨⟨other, otherListed⟩, fun client clientListed =>
        allFlushing client clientListed fun same => listed (same ▸ clientListed)⟩
  rcases dropLocks_cases dropDone with ⟨record, found, isInternal, finished⟩ | ⟨notInternal, rfl⟩
  · have safeAfter : dropped.NotStranded := by
      refine notStranded_internalLockCompleted (by exact running) ?_ ?_ finished
      · intro waiting other listed different
        exact ((safe waiting).2 other listed).forget different
      · intro waiting _
        exact (safe waiting).1
    intro stillWaiting
    refine ⟨?_, fun other listed _ => (safeAfter stillWaiting).2 other listed⟩
    cases internalLockCompleted_cases finished with
    | terminating ended =>
        rw [show page.terminating = true from ended] at running
        cases running
    | idle _ _ nothingToDo nextEq =>
        rw [nextEq] at stillWaiting ⊢
        rcases (safe stillWaiting).1 with ⟨other, listed⟩
        refine ⟨other, listed, ?_⟩
        rintro rfl
        exact stillWaiting (nothingToDo listed)
    | others _ _ _ _ othersLeft nextEq =>
        rcases OrdSet.isEmpty_eq_false_iff.mp othersLeft with ⟨other, listed⟩
        rw [nextEq]
        exact ⟨other, listed, (OrdSet.mem_erase.mp listed).2⟩
    | refuse _ _ _ _ _ _ nextEq =>
        rw [nextEq, sendErrorToWaitlist_entry] at stillWaiting
        exact absurd rfl stillWaiting
    | pagein _ _ listed waiting lastOne valid pageinDone =>
        rcases finishPagein_cases pageinDone with ⟨succeeded, served⟩ | ⟨_, rfl⟩
        · rcases serviceWaitlist_cases served with ⟨ended, _⟩ | ⟨first, rest, _, waitlistEq, rfl⟩
          · rw [show page.terminating = true from ended] at running
            cases running
          · rw [flushForWaiting_entry, serveFirst_waitlist] at stillWaiting
            by_contra nobodyElse
            refine notOnlyIt ⟨⟨record, found, isInternal⟩, listed, lastOne, valid, succeeded, first,
              rest, waitlistEq, ?_, stillWaiting⟩
            intro client clientServed
            by_contra different
            refine nobodyElse ⟨client, ?_, different⟩
            rw [flushForWaiting_entry, mem_serveFirst_accesslist]
            exact Or.inr clientServed
        · rw [sendErrorToWaitlist_entry] at stillWaiting
          exact absurd rfl stillWaiting
    | unlock _ _ _ _ first rest _ firstListed unlockDone =>
        refine ⟨first.client, ?_, (OrdSet.mem_erase.mp firstListed).2⟩
        rw [finalizeUnlock_accesslist unlockDone]
        exact firstListed
  · intro waiting
    rcases safe waiting with ⟨⟨some, someListed⟩, allFlushing⟩
    have notControl : ∀ other ∈ page.entry.accesslist, other ≠ control := by
      rintro other listed rfl
      rcases allFlushing other listed with ⟨record, found, isInternal, _⟩
      rw [notInternal record found] at isInternal
      cases isInternal
    exact ⟨⟨some, someListed, notControl some someListed⟩,
      fun other listed different => (allFlushing other listed).forget different⟩

theorem flushing_countLock (flushing : page.Flushing client) (other : MachPort) :
    (page.countLock other).Flushing client := by
  rcases flushing with ⟨record, found, isInternal, positive⟩
  have lookup : (page.countLock other).lock? client =
      if client = other then
        some { (page.lock? other).getD {} with count := ((page.lock? other).getD {}).count + 1 }
      else page.lock? client := by
    have inserted : (page.countLock other).lock? client = ((page.locks.getD ∅).insert other
        { (page.lock? other).getD {} with
          count := ((page.lock? other).getD {}).count + 1 }).find? client := rfl
    rw [inserted, OrdMap.find?_insert, find?_getD_locks]
  by_cases same : client = other
  · subst same
    rw [if_pos rfl, found] at lookup
    exact ⟨_, lookup, isInternal, Nat.succ_pos _⟩
  · rw [if_neg same, found] at lookup
    exact ⟨record, lookup, isInternal, positive⟩

theorem notStranded_handle {input : PageInput} (running : page.terminating = false)
    (safe : page.NotStranded) (allowed : ¬page.Strands results input)
    (handled : page.handle input results = some next) : next.NotStranded := by
  cases input with
  | dataRequest client write =>
      exact notStranded_dataRequest running safe allowed handled
  | dataUnlock client first others =>
      exact notStranded_dataUnlock safe (fun isFirst elsewhere => allowed ⟨isFirst, elsewhere⟩) handled
  | dataReturn client data dirty kernelCopy any =>
      exact notStranded_dataReturn running safe handled
  | dataReturnUnmatched client data kernelCopy =>
      rcases dataReturnUnmatched_cases handled with ⟨handed, handedOff, rfl⟩
      intro waiting
      rcases notStranded_handedOff running safe handedOff rfl waiting with
        ⟨someListed, allFlushing⟩
      exact ⟨someListed, fun other listed => flushing_of_locks rfl (allFlushing other listed)⟩
  | lockCompleted client => exact notStranded_lockCompleted running safe handled
  | dropClient control => exact notStranded_dropClient running safe allowed handled
  | lockObject clients =>
      cases handled
      clear allowed
      induction clients generalizing page with
      | nil => exact safe
      | cons client rest ih =>
          refine ih (by exact running) ?_
          intro waiting
          rcases safe waiting with ⟨someListed, allFlushing⟩
          exact ⟨someListed, fun other listed => flushing_countLock (allFlushing other listed) client⟩
  | shutdown => exact absurd trivial allowed

end Page

namespace Pager

/-- No client waits for a page that nobody has been asked to give up. -/
def NobodyStranded (pager : Pager) : Prop :=
  ∀ number, (pager.page number).NotStranded

/-- The input takes none of the branches that leave a client stranded. -/
def StrandsNobody (pager : Pager) (input : Input × Callbacks) : Prop :=
  ∀ number pageInput, Reaches pager input.1 number pageInput →
    ¬(pager.page number).Strands (input.2 number) pageInput

/-- In every state of a run that strands nobody, whoever waits for a page will be served. -/
theorem nobodyStranded_of_reachable {pageSize : ℕ} (pageSize_pos : 0 < pageSize) (mayCache : Bool)
    (copyStrategy : ℕ) (notifyOnEvict : Bool) {pager : Pager}
    (reached : Transition.Reachable handle StrandsNobody
      (create pageSize pageSize_pos mayCache copyStrategy notifyOnEvict) pager) :
    pager.NobodyStranded := by
  have invariant : pager.Quiet ∧ pager.terminating = false ∧ pager.NobodyStranded := by
    refine reached.invariant
      (fun pager => pager.Quiet ∧ pager.terminating = false ∧ pager.NobodyStranded)
      ⟨create_quiet _ _ _ _ _, rfl, fun number => Page.notStranded_of_nil rfl⟩ ?_
    rintro state next ⟨input, results⟩ ⟨quiet, running, safe⟩ allowed handled
    have notShutdown : input ≠ .shutdown := by
      rintro rfl
      exact allowed 0 .shutdown (.shutdown 0) trivial
    rcases handle_view quiet handled with ⟨nextQuiet, -, sameTerminating, projects⟩
    refine ⟨nextQuiet, (sameTerminating notShutdown).trans running, fun number => ?_⟩
    have viewSafe : (next.view number).NotStranded := by
      rcases projects number with same | ⟨pageInput, pageReached, pageHandled⟩
      · rw [same]
        exact safe number
      · exact Page.notStranded_handle running (safe number)
          (allowed number pageInput pageReached) pageHandled
    exact viewSafe
  exact invariant.2.2

/-- A writer returns its page, which keeps `WRITE_ACCESS_GRANTED`; the next client waits. -/
def strandedRun : List (Input × Callbacks) :=
  [.dataRequest 1 0 1 vmProtWrite, .dataReturn 1 0 (fun _ => 7) 1 true false,
    .dataRequest 2 0 1 vmProtNone].map fun input => (input, fun _ => {})

theorem strandedRun_strands :
    ∃ pager, Transition.run handle strandedRun (create 1 (by decide) false 0 false) =
      some pager ∧ pager.terminating = false ∧ ¬pager.NobodyStranded := by
  refine ⟨_, rfl, rfl, fun safe => ?_⟩
  rcases safe 0 (by decide) with ⟨⟨client, listed⟩, _⟩
  cases listed

/-- A second client waits for a writer, which has been asked to give the page up. -/
def waitingRun : List (Input × Callbacks) :=
  [.dataRequest 1 0 1 vmProtWrite, .dataRequest 2 0 1 vmProtNone].map
    fun input => (input, fun _ => {})

theorem nobodyStranded_after_waiting :
    ∃ pager, Transition.run handle waitingRun (create 1 (by decide) false 0 false) = some pager ∧
      pager.NobodyStranded ∧ (pager.pagemap 0).waitlist ≠ [] := by
  refine ⟨_, rfl, nobodyStranded_of_reachable (show 0 < 1 by decide) false 0 false
    (Transition.Reachable.start.of_run waitingRun ⟨?_, ?_⟩ rfl), by decide⟩
  · rintro number pageInput reached strands
    cases reached
    exact absurd strands.2.2.1 (by decide)
  · rintro _ ⟨⟩
    refine ⟨?_, fun _ _ => trivial⟩
    rintro number pageInput reached strands
    cases reached
    exact absurd strands.2.2.2 (by decide)

end Pager

end Hurd.Libpager
