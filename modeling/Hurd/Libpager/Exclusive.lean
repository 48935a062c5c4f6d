import Hurd.Libpager.Projection

/-!
# Write access is exclusive

`WRITE_ACCESS_GRANTED` is set in four places: at a page in, at the hand-off of a returned
page, at the hand-off of a written page and at an unlock.  In all of them but one the page
has no other client: a page that is returned dirty is handed off when it comes back and once
more when it has been written, and the second time the first client has it already.  Away
from such a second hand-off to a writer, write access is exclusive in every state.
-/

namespace Hurd.Libpager

/-- A page is supplied with write access only when no other client is on its ACCESSLIST. -/
def PageEvent.Exclusive : PageEvent → Prop
  | .dataSupply accesslist client _ _ lockValue _ =>
      lockValue = 0 → ∀ other ∈ accesslist, other = client
  | _ => True

namespace Page

/-- Write access is exclusive, and has been in all that was sent. -/
structure Exclusive (page : Page) : Prop where
  granted : page.entry.writeAccessGranted = true → page.entry.accesslist.size ≤ 1
  sent : ∀ event ∈ page.sent, event.Exclusive

/-- The first waiting client can have write access without taking it from another. -/
def FirstFits (page : Page) : Prop :=
  ∀ first ∈ page.entry.waitlist.head?, first.writeAccessRequested = true →
    ∀ other ∈ page.entry.accesslist, other = first.client

variable {page next : Page} {client : MachPort} {results : PageCallbacks}

theorem exclusive_send (event : PageEvent) (exclusive : page.Exclusive)
    (eventExclusive : event.Exclusive) : (page.send event).Exclusive where
  granted := exclusive.granted
  sent other otherMem := by
    rcases List.mem_append.mp otherMem with before | now
    · exact exclusive.sent other before
    · rw [List.mem_singleton.mp now]
      exact eventExclusive

theorem exclusive_flushEach (exclusive : page.Exclusive) (clients : List MachPort) :
    (page.flushEach clients).Exclusive where
  granted := by
    rw [flushEach_entry]
    exact exclusive.granted
  sent event eventMem := by
    rw [flushEach_sent] at eventMem
    rcases List.mem_append.mp eventMem with before | now
    · exact exclusive.sent event before
    · rcases List.mem_map.mp now with ⟨client, _, rfl⟩
      trivial

theorem exclusive_flushForWaiting (exclusive : page.Exclusive) :
    page.flushForWaiting.Exclusive := by
  unfold flushForWaiting
  split_ifs
  · exact exclusive
  · exact exclusive_flushEach exclusive _

/-- Taking clients off ACCESSLIST takes exclusive access from nobody. -/
theorem exclusive_removeFromAccesslist (exclusive : page.Exclusive) (client : MachPort) :
    (page.removeFromAccesslist client).Exclusive where
  granted isGranted := by
    have atMostOne := OrdSet.size_le_one_iff.mp (exclusive.granted isGranted)
    refine OrdSet.size_le_one_iff.mpr fun first firstMem second secondMem => ?_
    exact atMostOne first (OrdSet.mem_erase.mp firstMem).1 second (OrdSet.mem_erase.mp secondMem).1
  sent := exclusive.sent

theorem exclusive_setWriteAccessGranted_false (sent : ∀ event ∈ page.sent, event.Exclusive) :
    (page.setWriteAccessGranted false).Exclusive where
  granted isGranted := by cases isGranted
  sent := sent

theorem supplyReaders_exclusive (data : ℕ) (deallocate : Bool) (first : WaitlistClient)
    (rest : List WaitlistClient) (page : Page) (sent : ∀ event ∈ page.sent, event.Exclusive) :
    ∀ event ∈ (supplyReaders data deallocate first rest page).sent, event.Exclusive := by
  have supplied : ∀ (page : Page) (client : MachPort) (waiting : List WaitlistClient)
      (deallocate : Bool), (∀ event ∈ page.sent, event.Exclusive) →
      ∀ event ∈ ((page.moveToAccesslist client waiting).supply client data deallocate vmProtWrite).sent,
        event.Exclusive := by
    intro page client waiting deallocate sent event eventMem
    rcases List.mem_append.mp eventMem with before | now
    · exact sent event before
    · rw [List.mem_singleton.mp now]
      intro isWrite
      cases isWrite
  induction rest generalizing first page with
  | nil => exact supplied page first.client [] deallocate sent
  | cons next rest ih =>
      simp only [supplyReaders]
      split_ifs with write
      · exact supplied page first.client _ _ sent
      · exact ih next _ (supplied page first.client _ _ sent)

/-- `service_WAITLIST` keeps write access exclusive when its first client fits. -/
theorem exclusive_serviceWaitlist (exclusive : page.Exclusive) (fits : page.FirstFits) {data : ℕ}
    {allowWriteAccess deallocate : Bool}
    (served : page.serviceWaitlist data allowWriteAccess deallocate = some next) :
    next.Exclusive := by
  rcases serviceWaitlist_cases served with ⟨_, rfl⟩ | ⟨first, rest, _, waiting, rfl⟩
  · exact exclusive
  refine exclusive_flushForWaiting ?_
  unfold serveFirst
  split_ifs with write
  · have firstWrites : first.writeAccessRequested = true := by simp_all
    have alone := fits first (by rw [waiting]; rfl) firstWrites
    refine ⟨fun _ => OrdSet.size_le_one_iff.mpr fun one oneMem two twoMem => ?_, ?_⟩
    · have isFirst : ∀ client ∈ page.entry.accesslist.insert first.client,
          client = first.client := by
        intro client clientMem
        rcases OrdSet.mem_insert.mp clientMem with rfl | listed
        · rfl
        · exact alone client listed
      exact (isFirst one oneMem).trans (isFirst two twoMem).symm
    · have supplied : (page.supply first.client data deallocate 0).Exclusive :=
        exclusive_send _ exclusive fun _ => alone
      exact supplied.sent
  · exact exclusive_setWriteAccessGranted_false
      (supplyReaders_exclusive data deallocate first rest page exclusive.sent)

theorem exclusive_sendErrorToWaitlist (exclusive : page.Exclusive) :
    page.sendErrorToWaitlist.Exclusive := by
  have sent : ∀ (waitlist : List WaitlistClient) (page : Page), page.Exclusive →
      (waitlist.foldl sendErrorTo page).Exclusive := by
    intro waitlist
    induction waitlist with
    | nil => exact fun _ exclusive => exclusive
    | cons waiting rest ih =>
        intro page exclusive
        refine ih _ ?_
        unfold sendErrorTo
        split_ifs
        · have flushed := exclusive_flushEach exclusive [waiting.client]
          exact ⟨flushed.granted, flushed.sent⟩
        · exact exclusive_send (.dataError waiting.client page.entry.error) exclusive trivial
  have errors := sent page.entry.waitlist page exclusive
  exact ⟨errors.granted, errors.sent⟩

/-- `finalize_unlock` is called with one client on ACCESSLIST. -/
theorem exclusive_finalizeUnlock (exclusive : page.Exclusive)
    (onlyOne : page.entry.accesslist.size ≤ 1) {error : KernReturn}
    (finished : page.finalizeUnlock error = some next) : next.Exclusive := by
  cases finalizeUnlock_cases finished with
  | granted first rest _ _ nextEq =>
      have waitlistSet : (page.setWaitlist rest).Exclusive := ⟨exclusive.granted, exclusive.sent⟩
      have told := exclusive_send (.lockRequest first.client .none false vmProtNone false)
        waitlistSet trivial
      have alone : (((page.setWaitlist rest).send (.lockRequest first.client .none false
          vmProtNone false)).setWriteAccessGranted true).Exclusive := ⟨fun _ => onlyOne, told.sent⟩
      rw [nextEq]
      exact exclusive_flushEach alone _
  | failed first rest _ _ nextEq =>
      rw [nextEq]
      have waitlistSet : (page.setWaitlist rest).Exclusive := ⟨exclusive.granted, exclusive.sent⟩
      have flushed := exclusive_flushEach waitlistSet [first.client]
      exact ⟨flushed.granted, flushed.sent⟩

/-- A page in serves its clients when there is nobody on ACCESSLIST, or a reader. -/
theorem exclusive_finishPagein (exclusive : page.Exclusive) (fits : page.FirstFits)
    {result : ReadResult} (finished : page.finishPagein result = some next) : next.Exclusive := by
  have errorSet : ∀ error, (page.setError error).Exclusive :=
    fun _ => ⟨exclusive.granted, exclusive.sent⟩
  rcases finishPagein_cases finished with ⟨_, served⟩ | ⟨_, rfl⟩
  · exact exclusive_serviceWaitlist (errorSet kernSuccess) fits served
  · exact exclusive_sendErrorToWaitlist (errorSet result.error)

theorem firstFits_of_isEmpty (empty : page.entry.accesslist.isEmpty = true) : page.FirstFits := by
  intro first _ _ other otherMem
  exact absurd otherMem (OrdSet.isEmpty_iff.mp empty other)

theorem exclusive_internalLockCompleted (exclusive : page.Exclusive)
    (completed : page.internalLockCompleted client results = some next) : next.Exclusive := by
  have removed := exclusive_removeFromAccesslist exclusive client
  cases internalLockCompleted_cases completed with
  | terminating _ nextEq =>
      rw [nextEq]
      exact exclusive
  | idle _ _ _ nextEq =>
      rw [nextEq]
      exact exclusive
  | others _ _ _ _ _ nextEq =>
      rw [nextEq]
      exact removed
  | refuse _ _ _ _ _ _ nextEq =>
      rw [nextEq]
      exact exclusive_sendErrorToWaitlist removed
  | pagein _ _ _ _ lastOne _ finished =>
      exact exclusive_finishPagein (exclusive_send .readPage removed trivial)
        (firstFits_of_isEmpty (by exact lastOne)) finished
  | unlock _ _ _ oneLeft _ _ _ _ finished =>
      exact exclusive_finalizeUnlock (exclusive_send .unlockPage removed trivial)
        (by exact oneLeft.le) finished

theorem exclusive_dataRequest {write : Bool} (exclusive : page.Exclusive)
    (requested : page.dataRequest client write results = some next) : next.Exclusive := by
  have left : (page.leaveForRequest client).Exclusive := by
    unfold leaveForRequest
    split_ifs
    · exact exclusive_setWriteAccessGranted_false exclusive.sent
    · exact exclusive
  have waits : ∀ {page : Page}, page.Exclusive → (page.addToWaitlist client write).Exclusive :=
    fun exclusive => ⟨exclusive.granted, exclusive.sent⟩
  cases dataRequest_cases requested with
  | error found rest _ nextEq =>
      rw [nextEq]
      have told := exclusive_send (.dataError client found.error) exclusive trivial
      exact ⟨told.granted, told.sent⟩
  | held _ _ nextEq =>
      rw [nextEq]
      exact waits (exclusive_flushEach exclusive _)
  | completed _ _ _ finished => exact exclusive_internalLockCompleted (waits exclusive) finished
  | waits _ _ _ nextEq =>
      rw [nextEq]
      exact waits exclusive
  | revokes _ _ _ nextEq =>
      rw [nextEq]
      exact exclusive_flushEach (waits left) _
  | pagein _ _ noneWaiting _ free finished =>
      have told : ((page.leaveForRequest client).tellInvalid client).Exclusive := by
        unfold tellInvalid
        split_ifs
        · exact exclusive_send _ left trivial
        · exact left
      have sameLists : ((page.leaveForRequest client).tellInvalid client).entry =
          (page.leaveForRequest client).entry := by
        unfold tellInvalid
        split_ifs <;> rfl
      refine exclusive_finishPagein (exclusive_send .readPage (waits told) trivial) ?_ finished
      intro first firstMem firstWrites other otherMem
      have waitingList : ((page.leaveForRequest client).tellInvalid client).entry.waitlist = [] := by
        rw [sameLists, leaveForRequest_waitlist, noneWaiting]
      simp only [send, addToWaitlist, waitingList, List.nil_append, List.head?_cons,
        Option.mem_def, Option.some_inj] at firstMem
      subst firstMem
      simp only [send, addToWaitlist, sameLists] at otherMem
      exact absurd otherMem (OrdSet.isEmpty_iff.mp (free firstWrites) other)

theorem exclusive_dataUnlock {first : Bool} {others : List MachPort} (exclusive : page.Exclusive)
    (unlocked : page.dataUnlock client first others results = some next) : next.Exclusive := by
  have waits : (page.addToWaitlist client true).Exclusive := ⟨exclusive.granted, exclusive.sent⟩
  cases dataUnlock_cases unlocked with
  | ignored _ _ nextEq =>
      rw [nextEq]
      exact exclusive_flushEach exclusive _
  | queued _ _ _ _ nextEq =>
      rw [nextEq]
      exact exclusive_flushEach waits _
  | revokes _ _ _ _ nextEq =>
      rw [nextEq]
      exact exclusive_flushEach waits _
  | alone _ _ _ onlyOne finished =>
      refine exclusive_finalizeUnlock
        (exclusive_send .unlockPage (exclusive_flushEach waits _) trivial) ?_ finished
      simpa [send, addToWaitlist] using onlyOne

/-- The clients waiting for a page when its dirty return has been handed off once. -/
def waitingAfterReturn (page : Page) (client : MachPort) : List WaitlistClient :=
  match page.entry.waitlist with
  | [] => []
  | first :: rest =>
      if (page.leaveForReturn client).entry.accesslist.isEmpty then leftWaiting true first rest
      else first :: rest

/-- The clients that have the page when its dirty return has been handed off once. -/
def holdersAfterReturn (page : Page) (client : MachPort) : List MachPort :=
  match page.entry.waitlist with
  | [] => (page.leaveForReturn client).entry.accesslist.toList
  | first :: rest =>
      if (page.leaveForReturn client).entry.accesslist.isEmpty then servedBatch true first rest
      else (page.leaveForReturn client).entry.accesslist.toList

/-- The second hand-off of a dirty return goes to a writer while another client has the page. -/
def ServesSecondWriter (page : Page) (client : MachPort) : Prop :=
  page.terminating = false ∧ ∃ first ∈ (page.waitingAfterReturn client).head?,
    first.writeAccessRequested = true ∧
      ∃ holder ∈ page.holdersAfterReturn client, holder ≠ first.client

theorem exclusive_leaveForReturn (exclusive : page.Exclusive) (client : MachPort) :
    (page.leaveForReturn client).Exclusive := by
  unfold leaveForReturn
  split_ifs
  · exact exclusive
  · exact exclusive_removeFromAccesslist exclusive client

theorem exclusive_handedOff {data : ℕ} {dirty kernelCopy : Bool} {flags : ReturnFlags}
    (exclusive : page.Exclusive)
    (handedOff : HandedOff page client data dirty kernelCopy next flags) : next.Exclusive := by
  have left := exclusive_leaveForReturn exclusive client
  cases handedOff with
  | keeps _ nextEq =>
      rw [nextEq]
      exact exclusive
  | serves _ nobodyLeft _ served =>
      exact exclusive_serviceWaitlist left (firstFits_of_isEmpty nobodyLeft) served
  | unlocks _ _ _ _ _ _ _ _ nextEq =>
      rw [nextEq]
      exact left
  | evicts _ _ _ _ nextEq =>
      rw [nextEq]
      exact ⟨left.granted, left.sent⟩
  | leaves _ _ nextEq =>
      rw [nextEq]
      exact left

/-- Away from a second writer, the client served after the write fits. -/
theorem firstFits_handedOff {data : ℕ} (noSecond : ¬page.ServesSecondWriter client)
    (running : page.terminating = false)
    (handedOff : HandedOff page client data true false next ⟨false, false⟩) :
    next.FirstFits := by
  rcases page.leaveForReturn_frame client with ⟨sameWaitlist, -, -, -, -, sameTerminating, -⟩
  intro first firstMem firstWrites other otherMem
  by_contra different
  cases handedOff with
  | keeps copyKept => cases copyKept
  | unlocks _ _ _ _ _ _ _ _ _ flagsEq => cases flagsEq
  | evicts _ clean => cases clean
  | serves _ nobodyLeft waiting served =>
      rcases serviceWaitlist_cases served with ⟨ended, _⟩ | ⟨head, rest, _, waitlistEq, rfl⟩
      · rw [sameTerminating, running] at ended
        cases ended
      · rw [sameWaitlist] at waitlistEq
        rw [flushForWaiting_entry, serveFirst_waitlist] at firstMem
        rw [flushForWaiting_entry, mem_serveFirst_accesslist] at otherMem
        have served := otherMem.resolve_left (OrdSet.isEmpty_iff.mp nobodyLeft other)
        refine noSecond ⟨running, first, ?_, firstWrites, other, ?_, different⟩
        · rw [waitingAfterReturn, waitlistEq]
          simpa [nobodyLeft] using firstMem
        · rw [holdersAfterReturn, waitlistEq]
          simpa [nobodyLeft] using served
  | leaves _ nobodyServed nextEq =>
      subst nextEq
      rw [sameWaitlist] at firstMem
      rcases List.head?_eq_some_iff.mp firstMem with ⟨rest, waitlistEq⟩
      have someLeft : (page.leaveForReturn client).entry.accesslist.isEmpty = false := by
        rw [← Bool.not_eq_true]
        intro empty
        rw [(nobodyServed empty).1] at waitlistEq
        cases waitlistEq
      refine noSecond ⟨running, first, ?_, firstWrites, other, ?_, different⟩
      · rw [waitingAfterReturn, waitlistEq]
        simp [someLeft]
      · rw [holdersAfterReturn, waitlistEq]
        simpa [someLeft, OrdSet.mem_def] using otherMem

theorem exclusive_dataReturn {data : ℕ} {dirty kernelCopy any : Bool} (exclusive : page.Exclusive)
    (noSecond : dirty = true → kernelCopy = false → ¬page.ServesSecondWriter client)
    (returned : page.dataReturn client data dirty kernelCopy any results = some next) :
    next.Exclusive := by
  have afterWritten : ∀ {handed : Page}, handed.Exclusive →
      (handed.written data results.write).Exclusive := by
    intro handed exclusive
    have told := exclusive_send (.writePage data) exclusive trivial
    unfold written recordWrite
    split_ifs
    · exact ⟨told.granted, told.sent⟩
    · exact ⟨told.granted, told.sent⟩
  have afterNotified : ∀ {page next : Page}, Notified page next → page.Exclusive →
      next.Exclusive := by
    rintro page next ⟨count, rfl⟩ exclusive
    refine ⟨exclusive.granted, fun event eventMem => ?_⟩
    rcases List.mem_append.mp eventMem with before | now
    · exact exclusive.sent event before
    · rw [(List.mem_replicate.mp now).2]
      trivial
  cases dataReturn_cases returned with
  | clean _ _ _ handedOff _ notified =>
      exact afterNotified notified (exclusive_handedOff exclusive handedOff)
  | unlocks _ handed notified flags handedOff unlocking notifies finished =>
      have handedExclusive := exclusive_handedOff exclusive handedOff
      have onlyOne : handed.entry.accesslist.size ≤ 1 := by
        cases handedOff with
        | keeps _ _ flagsEq => simp [flagsEq] at unlocking
        | serves _ _ _ _ flagsEq => simp [flagsEq] at unlocking
        | unlocks _ _ _ oneLeft _ _ _ _ nextEq => rw [nextEq, oneLeft]
        | evicts _ _ _ _ _ flagsEq => simp [flagsEq] at unlocking
        | leaves _ _ _ flagsEq => simp [flagsEq] at unlocking
      refine exclusive_finalizeUnlock ?_ (by rw [notifies.entry]; exact onlyOne) finished
      exact afterNotified notifies (exclusive_send .unlockPage handedExclusive trivial)
  | keeps _ _ nextEq =>
      rw [nextEq]
      exact afterWritten exclusive
  | serves isDirty given handed handedOff waiting served =>
      subst isDirty given
      have handedExclusive := afterWritten (exclusive_handedOff exclusive handedOff)
      rcases handed.written_frame data results.write with
        ⟨sameAccesslist, sameWaitlist, -, -, -, -, writtenConstants⟩
      by_cases terminating : page.terminating = true
      · rw [serviceWaitlist, if_pos] at served
        · cases served
          exact handedExclusive
        · rw [(handedOff.constants.trans writtenConstants).1]
          exact terminating
      · refine exclusive_serviceWaitlist handedExclusive ?_ served
        have fits := firstFits_handedOff (noSecond rfl rfl) (Bool.eq_false_iff.mpr terminating)
          handedOff
        rw [FirstFits, sameAccesslist, sameWaitlist]
        exact fits
  | evicts _ _ handed handedOff _ notified =>
      have handedExclusive := afterWritten (exclusive_handedOff exclusive handedOff)
      exact afterNotified notified ⟨handedExclusive.granted, handedExclusive.sent⟩

theorem exclusive_handle {input : PageInput} (exclusive : page.Exclusive)
    (noSecond : ∀ client data any, input = .dataReturn client data true false any →
      ¬page.ServesSecondWriter client)
    (handled : page.handle input results = some next) : next.Exclusive := by
  have forgets : ∀ client, (page.forget client).Exclusive :=
    fun _ => ⟨exclusive.granted, exclusive.sent⟩
  cases input with
  | dataRequest client write => exact exclusive_dataRequest exclusive handled
  | dataUnlock client first others => exact exclusive_dataUnlock exclusive handled
  | dataReturn client data dirty kernelCopy any =>
      refine exclusive_dataReturn exclusive ?_ handled
      rintro rfl rfl
      exact noSecond client data any rfl
  | dataReturnUnmatched client data kernelCopy =>
      rcases dataReturnUnmatched_cases handled with ⟨handed, handedOff, rfl⟩
      have handedExclusive := exclusive_handedOff exclusive handedOff
      exact ⟨handedExclusive.granted, handedExclusive.sent⟩
  | lockCompleted client =>
      cases lockCompleted_cases handled with
      | counted _ _ _ nextEq =>
          rw [nextEq]
          exact ⟨exclusive.granted, exclusive.sent⟩
      | external _ _ _ _ nextEq =>
          rw [nextEq]
          exact forgets client
      | internal _ _ _ _ finished => exact exclusive_internalLockCompleted (forgets client) finished
  | dropClient control =>
      rcases Option.map_eq_some_iff.mp handled with ⟨dropped, dropDone, rfl⟩
      have droppedExclusive : dropped.Exclusive := by
        rcases dropLocks_cases dropDone with ⟨_, _, _, finished⟩ | ⟨_, rfl⟩
        · exact exclusive_internalLockCompleted (forgets control) finished
        · exact forgets control
      unfold dropClient
      split_ifs
      · exact exclusive_setWriteAccessGranted_false droppedExclusive.sent
      · exact droppedExclusive
  | lockObject clients =>
      cases handled
      have counted : ∀ (clients : List MachPort) (page : Page),
          (clients.foldl countLock page).sent = page.sent := by
        intro clients
        induction clients with
        | nil => exact fun _ => rfl
        | cons client rest ih => exact fun page => ih (page.countLock client)
      refine ⟨?_, ?_⟩
      · rw [foldl_countLock_entry]
        exact exclusive.granted
      · rw [counted]
        exact exclusive.sent
  | shutdown =>
      cases handled
      exact ⟨exclusive.granted, exclusive.sent⟩

end Page

namespace Pager

/--
Write access is exclusive: a page with `WRITE_ACCESS_GRANTED` has at most one client, and
the last handler supplied a page with write access only while no other client had it.
-/
structure WriteExclusive (pager : Pager) : Prop where
  granted : ∀ number, (pager.pagemap number).writeAccessGranted = true →
    (pager.pagemap number).accesslist.size ≤ 1
  supplied : ∀ number event, Event.page number event ∈ pager.sent → event.Exclusive

/-- The input is no dirty return whose second hand-off goes to a writer on a page in use. -/
def NoSecondWriter (pager : Pager) (input : Input × Callbacks) : Prop :=
  match input.1 with
  | .dataReturn client offset _ length true false =>
      ∀ number ∈ pager.pagesOf offset length, ¬(pager.page number).ServesSecondWriter client
  | _ => True

theorem handle_writeExclusive {pager next : Pager} {input : Input × Callbacks}
    (quiet : pager.Quiet) (exclusive : pager.WriteExclusive)
    (allowed : pager.NoSecondWriter input) (handled : pager.handle input = some next) :
    next.WriteExclusive := by
  rcases handle_view quiet handled with ⟨-, -, -, projects⟩
  have pageExclusive : ∀ number, (next.view number).Exclusive := by
    intro number
    have before : (pager.page number).Exclusive := ⟨exclusive.granted number, by simp [page]⟩
    rcases projects number with same | ⟨pageInput, reached, pageHandled⟩
    · rw [same]
      exact before
    · refine Page.exclusive_handle before ?_ pageHandled
      rintro client data any rfl
      rcases input with ⟨input, results⟩
      cases reached with
      | dataReturn any aligned numberMem => exact allowed number numberMem
  exact ⟨fun number => (pageExclusive number).granted,
    fun number event eventMem => (pageExclusive number).sent event (mem_eventsOf.mpr eventMem)⟩

/-- Write access is exclusive in every state of every run without a second writer. -/
theorem writeExclusive_of_reachable {pageSize : ℕ} (pageSize_pos : 0 < pageSize) (mayCache : Bool)
    (copyStrategy : ℕ) (notifyOnEvict : Bool) {pager : Pager}
    (reached : Transition.Reachable handle NoSecondWriter
      (create pageSize pageSize_pos mayCache copyStrategy notifyOnEvict) pager) :
    pager.WriteExclusive := by
  have both : pager.Quiet ∧ pager.WriteExclusive := by
    refine reached.invariant (fun pager => pager.Quiet ∧ pager.WriteExclusive)
      ⟨create_quiet _ _ _ _ _, ?_⟩ ?_
    · constructor
      · intro number isGranted
        cases isGranted
      · intro number event eventMem
        cases eventMem
    · rintro state next input ⟨quiet, exclusive⟩ allowed handled
      exact ⟨(handle_view quiet handled).1,
        handle_writeExclusive quiet exclusive allowed handled⟩
  exact both.2

/--
Three clients ask for a page in turn, and the first returns it dirty: the second gets it at
once, and the third when it has been written.
-/
def secondWriterRun : List (Input × Callbacks) :=
  [.dataRequest 1 0 1 vmProtWrite, .dataRequest 2 0 1 vmProtWrite, .dataRequest 3 0 1 vmProtWrite,
    .dataReturn 1 0 (fun _ => 7) 1 true false].map fun input => (input, fun _ => {})

theorem secondWriterRun_not_exclusive :
    ∃ pager, Transition.run handle secondWriterRun (create 1 (by decide) false 0 false) =
      some pager ∧ ¬pager.WriteExclusive := by
  refine ⟨_, rfl, fun exclusive => ?_⟩
  have atMostOne := exclusive.granted 0 (by decide)
  exact absurd atMostOne (by decide)

/-- The same with two clients. -/
def handOffRun : List (Input × Callbacks) :=
  [.dataRequest 1 0 1 vmProtWrite, .dataRequest 2 0 1 vmProtWrite,
    .dataReturn 1 0 (fun _ => 7) 1 true false].map fun input => (input, fun _ => {})

theorem writeExclusive_after_handOff :
    ∃ pager, Transition.run handle handOffRun (create 1 (by decide) false 0 false) = some pager ∧
      pager.WriteExclusive := by
  refine ⟨_, rfl, writeExclusive_of_reachable (show 0 < 1 by decide) false 0 false
    (Transition.Reachable.start.of_run handOffRun ⟨trivial, ?_⟩ rfl)⟩
  rintro _ ⟨⟩
  refine ⟨trivial, ?_⟩
  rintro _ ⟨⟩
  refine ⟨?_, fun _ _ => trivial⟩
  rintro number numberMem ⟨_, first, firstMem, _⟩
  have onlyPage : number ∈ [0] := numberMem
  rcases List.mem_singleton.mp onlyPage with rfl
  cases firstMem

end Pager

end Hurd.Libpager
