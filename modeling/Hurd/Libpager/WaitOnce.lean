import Hurd.Libpager.Spot

/-!
# No client waits twice

`data_unlock` puts a client on WAITLIST while it is on ACCESSLIST, and the flush that takes
the page from the client is an answer to it.  The client may then ask for the page with a
`data_request`, and when other clients still have to answer their flushes the pager comes to
that request before it has taken the unlock off WAITLIST: the client waits twice.  This is the
only way there is.  A client whose `data_request`s come when it does not wait, and whose
`data_unlock`s do not come when it waits to read, is on no WAITLIST more than once.

Who waits to read a page does not have it, but for a page that a dirty return has left `PAGINGOUT`
without writing it: there a request waits without its client being taken off `ACCESSLIST`.
-/

namespace Hurd.Libpager

namespace Page

/-- Who waits to read the page does not have it. -/
def ReadersOutside (page : Page) : Prop :=
  ∀ waiting ∈ page.entry.waitlist, waiting.writeAccessRequested = false →
    waiting.client ∉ page.entry.accesslist

/-- Whoever waits waits once, and as long as no page is left `PAGINGOUT`, readers wait outside. -/
structure WaitsOnce (matched : Prop) (page : Page) : Prop where
  nodup : (waitingClients page.entry.waitlist).Nodup
  readers : matched → page.ReadersOutside

/-- The client is no longer on WAITLIST when its `data_request` would put it there. -/
def RequestsOnce (page : Page) (input : PageInput) : Prop :=
  ∀ client write, input = .dataRequest client write →
    takeNexterror client page.nexterror = none → client ∉ waitingClients page.entry.waitlist

/-- A `data_unlock` does not come from a client that waits to read the page. -/
def UnlocksOutside (page : Page) (input : PageInput) : Prop :=
  ∀ client first others, input = .dataUnlock client first others →
    ∀ waiting ∈ page.entry.waitlist, waiting.writeAccessRequested = false →
      waiting.client = client → client ∉ page.entry.accesslist

theorem ReadersOutside.unlocksOutside {page : Page} (readers : page.ReadersOutside)
    (input : PageInput) : page.UnlocksOutside input := by
  rintro client _ _ - waiting waits reads rfl
  exact readers waiting waits reads

variable {matched : Prop} {page next : Page} {client : MachPort} {results : PageCallbacks}

theorem WaitsOnce.of_sublist (once : page.WaitsOnce matched)
    (waitlist : next.entry.waitlist.Sublist page.entry.waitlist)
    (accesslist : ∀ other ∈ next.entry.accesslist, other ∈ page.entry.accesslist) :
    next.WaitsOnce matched where
  nodup := once.nodup.sublist (waitlist.map _)
  readers isMatched waiting waits reads listed :=
    once.readers isMatched waiting (waitlist.subset waits) reads
      (accesslist waiting.client listed)

theorem WaitsOnce.of_same (once : page.WaitsOnce matched) (entry : next.entry = page.entry) :
    next.WaitsOnce matched := by
  apply once.of_sublist
  · simp [entry]
  · simp [entry]

theorem waitsOnce_of_nil (noneWaiting : page.entry.waitlist = []) : page.WaitsOnce matched := by
  constructor
  · simp [noneWaiting, waitingClients]
  · simp [ReadersOutside, noneWaiting]

theorem WaitsOnce.removeFromAccesslist (once : page.WaitsOnce matched) (client : MachPort) :
    (page.removeFromAccesslist client).WaitsOnce matched :=
  once.of_sublist (List.Sublist.refl _) fun _ listed => (OrdSet.mem_erase.mp listed).1

/--
A client that does not wait can be put on WAITLIST; where readers wait outside, it must not have the
page that it is to read.
-/
theorem WaitsOnce.addToWaitlist (once : page.WaitsOnce matched) {write : Bool}
    (notYet : client ∉ waitingClients page.entry.waitlist)
    (notListed : matched → write = false → client ∉ page.entry.accesslist) :
    (page.addToWaitlist client write).WaitsOnce matched := by
  have joined : (page.addToWaitlist client write).entry.waitlist =
      page.entry.waitlist ++ [⟨client, write⟩] := rfl
  constructor
  · rw [joined, waitingClients, List.map_append]
    refine List.nodup_append.mpr ⟨once.nodup, by simp, ?_⟩
    rintro other waits _ now rfl
    simp only [List.map_cons, List.map_nil, List.mem_singleton] at now
    subst now
    exact notYet waits
  · intro isMatched waiting waits reads
    rw [joined, List.mem_append, List.mem_singleton] at waits
    rcases waits with before | rfl
    · exact once.readers isMatched waiting before reads
    · exact notListed isMatched reads

theorem WaitsOnce.serviceWaitlist (once : page.WaitsOnce matched) {data : ℕ}
    {allowWriteAccess deallocate : Bool}
    (served : page.serviceWaitlist data allowWriteAccess deallocate = some next) :
    next.WaitsOnce matched := by
  rcases serviceWaitlist_cases served with ⟨_, rfl⟩ | ⟨first, rest, _, waiting, rfl⟩
  · exact once
  have split := servedBatch_append_leftWaiting allowWriteAccess first rest
  have nodup := once.nodup
  rw [waiting, ← split, List.nodup_append] at nodup
  have leftSublist : (leftWaiting allowWriteAccess first rest).Sublist page.entry.waitlist := by
    rw [waiting]
    unfold leftWaiting
    split_ifs
    · exact List.sublist_cons_self first rest
    · exact (List.dropWhile_sublist _).trans (List.sublist_cons_self first rest)
  constructor
  · rw [flushForWaiting_entry, serveFirst_waitlist]
    exact nodup.2.1
  · intro isMatched other waits reads listed
    rw [flushForWaiting_entry, serveFirst_waitlist] at waits
    rw [flushForWaiting_entry, mem_serveFirst_accesslist] at listed
    rcases listed with before | now
    · exact once.readers isMatched other (leftSublist.subset waits) reads before
    · exact nodup.2.2 other.client now other.client (List.mem_map_of_mem waits) rfl

theorem waitsOnce_sendErrorToWaitlist (page : Page) : page.sendErrorToWaitlist.WaitsOnce matched :=
  waitsOnce_of_nil (by rw [sendErrorToWaitlist_entry])

theorem WaitsOnce.finishPagein (once : page.WaitsOnce matched) {result : ReadResult}
    (finished : page.finishPagein result = some next) : next.WaitsOnce matched := by
  rcases finishPagein_cases finished with ⟨_, served⟩ | ⟨_, rfl⟩
  · have errorSet : (page.setError kernSuccess).WaitsOnce matched :=
      once.of_sublist (List.Sublist.refl _) fun _ => id
    exact errorSet.serviceWaitlist served
  · exact waitsOnce_sendErrorToWaitlist _

theorem WaitsOnce.finalizeUnlock (once : page.WaitsOnce matched) {error : KernReturn}
    (finished : page.finalizeUnlock error = some next) : next.WaitsOnce matched := by
  apply once.of_sublist
  · cases finalizeUnlock_cases finished with
    | granted first rest waiting _ nextEq =>
        rw [nextEq, flushEach_entry, waiting]
        exact List.sublist_cons_self first rest
    | failed first rest waiting _ nextEq =>
        rw [nextEq, waiting]
        simp [setWaitlist]
  · rw [finalizeUnlock_accesslist finished]
    exact fun _ => id

/-- `internal_lock_completed` on a page that is in order without the client. -/
theorem waitsOnce_internalLockCompleted
    (removed : (page.removeFromAccesslist client).WaitsOnce matched)
    (once : page.WaitsOnce matched ∨ page.terminating = false ∧ client ∈ page.entry.accesslist ∧
      page.entry.waitlist ≠ [])
    (completed : page.internalLockCompleted client results = some next) :
    next.WaitsOnce matched := by
  cases internalLockCompleted_cases completed with
  | terminating ended nextEq =>
      rw [nextEq]
      apply once.resolve_right
      rintro ⟨running, -⟩
      simp [running] at ended
  | idle _ _ nothingToDo nextEq =>
      rw [nextEq]
      apply once.resolve_right
      rintro ⟨-, listed, waiting⟩
      exact waiting (nothingToDo listed)
  | others _ _ _ _ _ nextEq =>
      rw [nextEq]
      exact removed
  | refuse _ _ _ _ _ _ nextEq =>
      rw [nextEq]
      exact waitsOnce_sendErrorToWaitlist _
  | pagein _ _ _ _ _ _ finished =>
      have sent : ((page.removeFromAccesslist client).send .readPage).WaitsOnce matched :=
        removed.of_same rfl
      exact sent.finishPagein finished
  | unlock _ _ _ _ _ _ _ _ finished =>
      have sent : ((page.removeFromAccesslist client).send .unlockPage).WaitsOnce matched :=
        removed.of_same rfl
      exact sent.finalizeUnlock finished

theorem WaitsOnce.internalLockCompleted (once : page.WaitsOnce matched)
    (completed : page.internalLockCompleted client results = some next) : next.WaitsOnce matched :=
  waitsOnce_internalLockCompleted (once.removeFromAccesslist client) (Or.inl once) completed

theorem WaitsOnce.dataRequest {write : Bool}
    (notPagingout : matched → page.entry.pagingout = false) (running : page.terminating = false)
    (once : page.WaitsOnce matched)
    (notYet : takeNexterror client page.nexterror = none →
      client ∉ waitingClients page.entry.waitlist)
    (requested : page.dataRequest client write results = some next) : next.WaitsOnce matched := by
  have left : (page.leaveForRequest client).WaitsOnce matched := by
    unfold leaveForRequest
    split_ifs
    · exact (once.removeFromAccesslist client).of_sublist (List.Sublist.refl _) fun _ => id
    · exact once
  have notListed : client ∉ (page.leaveForRequest client).entry.accesslist := by
    unfold leaveForRequest
    split_ifs with listed
    · exact fun still => (OrdSet.mem_erase.mp still).2 rfl
    · exact listed
  cases dataRequest_cases requested with
  | error _ _ _ nextEq =>
      rw [nextEq]
      exact once.of_same rfl
  | held isPagingout noError nextEq =>
      have flushed : (page.flushEach (if page.entry.waitlist = [] then
          page.entry.accesslist.toList else [])).WaitsOnce matched :=
        once.of_same (flushEach_entry _ _)
      rw [nextEq]
      apply flushed.addToWaitlist
      · rw [flushEach_entry]
        exact notYet noError
      · intro isMatched
        rw [notPagingout isMatched] at isPagingout
        cases isPagingout
  | completed noError listed _ finished =>
      -- the client leaves ACCESSLIST, so it may as well be put on WAITLIST afterwards
      have removed := once.removeFromAccesslist client
      have added :
          ((page.removeFromAccesslist client).addToWaitlist client write).WaitsOnce matched :=
        removed.addToWaitlist (notYet noError) fun _ _ still => (OrdSet.mem_erase.mp still).2 rfl
      have either :
          ((page.addToWaitlist client write).removeFromAccesslist client).WaitsOnce matched :=
        added.of_same rfl
      have someWaiting : (page.addToWaitlist client write).entry.waitlist ≠ [] := by
        simp [Page.addToWaitlist]
      have found : (page.addToWaitlist client write).WaitsOnce matched ∨
          (page.addToWaitlist client write).terminating = false ∧
          client ∈ (page.addToWaitlist client write).entry.accesslist ∧
          (page.addToWaitlist client write).entry.waitlist ≠ [] :=
        Or.inr ⟨running, listed, someWaiting⟩
      exact waitsOnce_internalLockCompleted either found finished
  | waits noError outside _ nextEq =>
      rw [nextEq]
      exact once.addToWaitlist (notYet noError) fun _ _ => outside
  | revokes noError _ _ nextEq =>
      have added :
          ((page.leaveForRequest client).addToWaitlist client write).WaitsOnce matched := by
        apply left.addToWaitlist _ fun _ _ => notListed
        rw [leaveForRequest_waitlist]
        exact notYet noError
      rw [nextEq]
      exact added.of_same (flushEach_entry _ _)
  | pagein _ noError _ _ _ finished =>
      have sameEntry : ((page.leaveForRequest client).tellInvalid client).entry =
          (page.leaveForRequest client).entry := by
        unfold tellInvalid
        split_ifs <;> rfl
      have told := left.of_same sameEntry
      have added : (((page.leaveForRequest client).tellInvalid client).addToWaitlist client
          write).WaitsOnce matched := by
        apply told.addToWaitlist
        · rw [sameEntry, leaveForRequest_waitlist]
          exact notYet noError
        · rw [sameEntry]
          exact fun _ _ => notListed
      have sent : ((((page.leaveForRequest client).tellInvalid client).addToWaitlist client
          write).send .readPage).WaitsOnce matched := added.of_same rfl
      exact sent.finishPagein finished

/-- A client that unlocks a page has it, so when no writer waits it does not wait either. -/
theorem UnlocksOutside.not_waiting {first : Bool} {others : List MachPort}
    (outside : page.UnlocksOutside (.dataUnlock client first others))
    (listed : client ∈ page.entry.accesslist)
    (readersWait : page.entry.isAnyClientWaitingForWriteAccess = false) :
    client ∉ waitingClients page.entry.waitlist := by
  intro waits
  rcases List.mem_map.mp waits with ⟨waiting, waitingMem, isClient⟩
  apply outside client first others rfl waiting waitingMem _ isClient listed
  simp only [PagemapEntry.isAnyClientWaitingForWriteAccess, List.any_eq_false] at readersWait
  simpa using readersWait waiting waitingMem

theorem WaitsOnce.dataUnlock {first : Bool} {others : List MachPort}
    (once : page.WaitsOnce matched)
    (outside : page.UnlocksOutside (.dataUnlock client first others))
    (unlocked : page.dataUnlock client first others results = some next) :
    next.WaitsOnce matched := by
  have added : client ∈ page.entry.accesslist →
      page.entry.isAnyClientWaitingForWriteAccess = false →
      (page.addToWaitlist client true).WaitsOnce matched :=
    fun listed readersWait => once.addToWaitlist (outside.not_waiting listed readersWait)
      fun _ isRead => by cases isRead
  have noWriter : page.entry.waitlist = [] →
      page.entry.isAnyClientWaitingForWriteAccess = false := by
    intro noneWaiting
    simp [PagemapEntry.isAnyClientWaitingForWriteAccess, noneWaiting]
  cases dataUnlock_cases unlocked with
  | ignored _ _ nextEq =>
      rw [nextEq]
      exact once.of_same (flushEach_entry _ _)
  | queued listed _ readersWait _ nextEq =>
      rw [nextEq]
      exact (added listed readersWait).of_same (flushEach_entry _ _)
  | revokes listed _ noneWaiting _ nextEq =>
      rw [nextEq]
      exact (added listed (noWriter noneWaiting)).of_same (flushEach_entry _ _)
  | alone listed _ noneWaiting _ finished =>
      have flushed := (added listed (noWriter noneWaiting)).of_same
        (flushEach_entry _ (if first then others else []))
      have sent : (((page.addToWaitlist client true).flushEach
          (if first then others else [])).send .unlockPage).WaitsOnce matched := flushed.of_same rfl
      exact sent.finalizeUnlock finished

theorem WaitsOnce.handedOff {data : ℕ} {dirty kernelCopy : Bool} {flags : ReturnFlags}
    (once : page.WaitsOnce matched)
    (handedOff : HandedOff page client data dirty kernelCopy next flags) :
    next.WaitsOnce matched := by
  have left : (page.leaveForReturn client).WaitsOnce matched := by
    unfold leaveForReturn
    split_ifs
    · exact once
    · exact once.removeFromAccesslist client
  cases handedOff with
  | keeps _ nextEq =>
      rw [nextEq]
      exact once
  | serves _ _ _ served => exact left.serviceWaitlist served
  | unlocks _ _ _ _ _ _ _ _ nextEq =>
      rw [nextEq]
      exact left
  | evicts _ _ _ _ nextEq =>
      rw [nextEq]
      exact left.of_sublist (List.Sublist.refl _) fun _ => id
  | leaves _ _ nextEq =>
      rw [nextEq]
      exact left

theorem WaitsOnce.written (once : page.WaitsOnce matched) (data : ℕ) (error : KernReturn) :
    (page.written data error).WaitsOnce matched := by
  rcases page.written_frame data error with ⟨accesslist, waitlist, -⟩
  apply once.of_sublist
  · simp [waitlist]
  · simp [accesslist]

theorem WaitsOnce.dataReturn {data : ℕ} {dirty kernelCopy any : Bool}
    (once : page.WaitsOnce matched)
    (returned : page.dataReturn client data dirty kernelCopy any results = some next) :
    next.WaitsOnce matched := by
  cases dataReturn_cases returned with
  | clean _ _ _ handedOff _ notified => exact (once.handedOff handedOff).of_same notified.entry
  | unlocks _ handed _ _ handedOff _ notifies finished =>
      have sent : (handed.send .unlockPage).WaitsOnce matched :=
        (once.handedOff handedOff).of_same rfl
      exact (sent.of_same notifies.entry).finalizeUnlock finished
  | keeps _ _ nextEq =>
      rw [nextEq]
      exact once.written data results.write
  | serves _ _ _ handedOff _ served =>
      exact ((once.handedOff handedOff).written data results.write).serviceWaitlist served
  | evicts _ _ handed handedOff _ notified =>
      have evicted : (handed.written data results.write).evicted.WaitsOnce matched :=
        ((once.handedOff handedOff).written data results.write).of_sublist (List.Sublist.refl _)
          fun _ => id
      exact evicted.of_same notified.entry

/-- A handler of a page keeps every client waiting once at most. -/
theorem WaitsOnce.handle {input : PageInput} (notPagingout : matched → page.entry.pagingout = false)
    (running : ∀ client write, input = .dataRequest client write → page.terminating = false)
    (once : page.WaitsOnce matched) (asksOnce : page.RequestsOnce input)
    (outside : page.UnlocksOutside input) (handled : page.handle input results = some next) :
    next.WaitsOnce matched := by
  have forgets : ∀ client, (page.forget client).WaitsOnce matched := fun _ => once.of_same rfl
  cases input with
  | dataRequest client write =>
      exact once.dataRequest notPagingout (running client write rfl) (asksOnce client write rfl)
        handled
  | dataUnlock client first others => exact once.dataUnlock outside handled
  | dataReturn client data dirty kernelCopy any => exact once.dataReturn handled
  | dataReturnUnmatched client data kernelCopy =>
      rcases dataReturnUnmatched_cases handled with ⟨handed, handedOff, rfl⟩
      exact (once.handedOff handedOff).of_sublist (List.Sublist.refl _) fun _ => id
  | lockCompleted client =>
      cases lockCompleted_cases handled with
      | counted _ _ _ nextEq =>
          rw [nextEq]
          exact once.of_same rfl
      | external _ _ _ _ nextEq =>
          rw [nextEq]
          exact forgets client
      | internal _ _ _ _ finished => exact (forgets client).internalLockCompleted finished
  | dropClient control =>
      rcases Option.map_eq_some_iff.mp handled with ⟨dropped, dropDone, rfl⟩
      have droppedOnce : dropped.WaitsOnce matched := by
        rcases dropLocks_cases dropDone with ⟨_, _, _, finished⟩ | ⟨_, rfl⟩
        · exact (forgets control).internalLockCompleted finished
        · exact forgets control
      unfold dropClient
      split_ifs
      · exact (droppedOnce.removeFromAccesslist control).of_sublist (List.Sublist.refl _)
          fun _ => id
      · exact droppedOnce
  | lockObject clients =>
      cases handled
      exact once.of_same (foldl_countLock_entry clients page)
  | shutdown =>
      cases handled
      exact once.of_same rfl

end Page

namespace Pager

/-- Every `data_request` comes when its client does not wait for the page. -/
def RequestsOnce (pager : Pager) (input : Input × Callbacks) : Prop :=
  ∀ number pageInput, pager.Reaches input.1 number pageInput →
    (pager.page number).RequestsOnce pageInput

/--
Every `data_request` comes when its client does not wait for the page, and no `data_unlock` when its
client waits to read the page.
-/
def NotWaitingYet (pager : Pager) (input : Input × Callbacks) : Prop :=
  ∀ number pageInput, pager.Reaches input.1 number pageInput →
    (pager.page number).RequestsOnce pageInput ∧ (pager.page number).UnlocksOutside pageInput

theorem handle_waitsOnce {matched : Prop} {pager next : Pager} {input : Input × Callbacks}
    (quiet : pager.Quiet)
    (notPagingout : matched → ∀ number, (pager.pagemap number).pagingout = false)
    (once : ∀ number, (pager.page number).WaitsOnce matched) (notYet : pager.NotWaitingYet input)
    (handled : pager.handle input = some next) (number : ℕ) :
    (next.page number).WaitsOnce matched := by
  rcases input with ⟨input, results⟩
  rcases handle_view quiet handled with ⟨-, -, -, projects⟩
  have viewed : (next.view number).WaitsOnce matched := by
    rcases projects number with same | ⟨pageInput, reached, pageHandled⟩
    · rw [same]
      exact once number
    · rcases notYet number pageInput reached with ⟨asksOnce, outside⟩
      refine (once number).handle (fun isMatched => notPagingout isMatched number) ?_ asksOnce
        outside pageHandled
      rintro client write rfl
      cases reached with
      | dataRequest running _ => exact running
  exact viewed.of_same rfl

/--
Where no dirty return leaves a page unwritten, a client that waits to read a page does not have it,
so that nothing is asked of the unlocks.
-/
theorem waitsOnce_of_writesEach {pageSize : ℕ} (pageSize_pos : 0 < pageSize) (mayCache : Bool)
    (copyStrategy : ℕ) (notifyOnEvict : Bool) {pager : Pager}
    (reached : Transition.Reachable handle
      (fun pager input => pager.RequestsOnce input ∧ pager.WritesEach input.1)
      (create pageSize pageSize_pos mayCache copyStrategy notifyOnEvict) pager) (number : ℕ) :
    (pager.page number).WaitsOnce True := by
  have invariant : pager.Quiet ∧ (∀ number, (pager.pagemap number).pagingout = false) ∧
      ∀ number, (pager.page number).WaitsOnce True := by
    refine reached.invariant (fun pager => pager.Quiet ∧
      (∀ number, (pager.pagemap number).pagingout = false) ∧
        ∀ number, (pager.page number).WaitsOnce True)
      ⟨create_quiet _ _ _ _ _, fun _ => rfl, fun _ => Page.waitsOnce_of_nil rfl⟩ ?_
    rintro state next input ⟨quiet, notPagingout, once⟩ ⟨asksOnce, writesEach⟩ handled
    rcases handle_view quiet handled with ⟨stillQuiet, -, -, projects⟩
    have notYet : state.NotWaitingYet input := fun number pageInput reaches =>
      ⟨asksOnce number pageInput reaches, ((once number).readers trivial).unlocksOutside pageInput⟩
    refine ⟨stillQuiet,
      fun number => (projects number).pagingout writesEach (notPagingout number), ?_⟩
    exact handle_waitsOnce quiet (fun _ => notPagingout) once notYet handled
  exact invariant.2.2 number

/--
No client waits twice for a page in any state of a run whose `data_request`s all come when
their clients do not wait for the page, nor its `data_unlock`s when they wait to read it.
-/
theorem waitsOnce_of_reachable {pageSize : ℕ} (pageSize_pos : 0 < pageSize) (mayCache : Bool)
    (copyStrategy : ℕ) (notifyOnEvict : Bool) {pager : Pager}
    (reached : Transition.Reachable handle NotWaitingYet
      (create pageSize pageSize_pos mayCache copyStrategy notifyOnEvict) pager) (number : ℕ) :
    (waitingClients (pager.pagemap number).waitlist).Nodup := by
  have invariant : pager.Quiet ∧ ∀ number, (pager.page number).WaitsOnce False := by
    refine reached.invariant
      (fun pager => pager.Quiet ∧ ∀ number, (pager.page number).WaitsOnce False)
      ⟨create_quiet _ _ _ _ _, fun _ => Page.waitsOnce_of_nil rfl⟩ ?_
    rintro state next input ⟨quiet, once⟩ notYet handled
    exact ⟨(handle_view quiet handled).1, handle_waitsOnce quiet False.elim once notYet handled⟩
  exact (invariant.2 number).nodup

/-- Two clients read a page, and the second asks to unlock it. -/
def sharedUnlockRun : List (Input × Callbacks) :=
  [.dataRequest 1 0 1 vmProtRead, .dataRequest 2 0 1 vmProtRead, .dataUnlock 2 0 1].map
    fun input => (input, fun _ => {})

theorem sharedUnlockRun_waitsOnce :
    ∃ pager, Transition.run handle sharedUnlockRun (create 1 (by decide) false 0 false) =
      some pager ∧ (waitingClients (pager.pagemap 0).waitlist).Nodup := by
  refine ⟨_, rfl, waitsOnce_of_reachable (show 0 < 1 by decide) false 0 false
    (Transition.Reachable.start.of_run sharedUnlockRun ⟨?_, ?_⟩ rfl) 0⟩
  · rintro number _ reached
    cases reached
    refine ⟨?_, by rintro _ _ _ ⟨⟩⟩
    rintro _ _ ⟨⟩ _ waits
    cases waits
  intro first isFirst
  refine ⟨?_, ?_⟩
  · cases isFirst
    rintro number _ reached
    cases reached
    refine ⟨?_, by rintro _ _ _ ⟨⟩⟩
    rintro _ _ ⟨⟩ _ waits
    cases waits
  intro second isSecond
  refine ⟨?_, fun _ _ => trivial⟩
  have noneWaiting : ∀ number, (second.pagemap number).waitlist = [] := by
    cases isFirst
    cases isSecond
    rintro (_ | number)
    · rfl
    · rfl
  rintro number _ reached
  cases reached
  refine ⟨by rintro _ _ ⟨⟩, ?_⟩
  rintro client _ _ - waiting waits
  rw [page, noneWaiting number] at waits
  cases waits

end Pager

namespace System

/-- Every `data_request` comes when its kernel does not wait for the page. -/
def RequestsOnce (system : System) (action : Action) : Prop :=
  ∀ input, system.incoming? action = some input → system.pager.RequestsOnce input

section Kernels

variable {pageSize copyStrategy : ℕ} {pageSize_pos : 0 < pageSize} {mayCache notifyOnEvict : Bool}

/-- The kernels return one page at a time, so that each is written. -/
theorem reachable_pager {system : System}
    (reached : Transition.Reachable step RequestsOnce
      (create pageSize pageSize_pos mayCache copyStrategy notifyOnEvict) system) :
    Transition.Reachable Pager.handle
      (fun pager input => pager.RequestsOnce input ∧ pager.WritesEach input.1)
      (.create pageSize pageSize_pos mayCache copyStrategy notifyOnEvict) system.pager := by
  induction reached with
  | start => exact .start
  | @step state next action _ asksOnce taken ih =>
      have responds : state.respond action = some next → Transition.Reachable Pager.handle
          (fun pager input => pager.RequestsOnce input ∧ pager.WritesEach input.1)
          (.create pageSize pageSize_pos mayCache copyStrategy notifyOnEvict) next.pager := by
        intro responded
        rcases respond_cases responded with ⟨input, pager, incoming, handled, rfl⟩
        exact ih.step ⟨asksOnce input incoming, writesEach_of_incoming incoming⟩ handled
      cases action with
      | init client => exact responds taken
      | handle client results => exact responds taken
      | notice client results => exact responds taken
      | act client number act =>
          simp only [System.step] at taken
          split at taken
          · rcases Option.map_eq_some_iff.mp taken with ⟨_, _, rfl⟩
            exact ih
          · cases taken
      | receive client =>
          simp only [System.step] at taken
          split at taken
          · cases taken
          · split_ifs at taken
            cases taken
            exact ih
      | die client =>
          simp only [System.step] at taken
          split_ifs at taken
          cases taken
          exact ih

/--
No kernel waits twice if its requests come when it does not wait; nothing is asked of unlocks.
-/
theorem kernelsWaitOnce_of_reachable {system : System}
    (reached : Transition.Reachable step RequestsOnce
      (create pageSize pageSize_pos mayCache copyStrategy notifyOnEvict) system) (number : ℕ) :
    (waitingClients (system.pager.pagemap number).waitlist).Nodup :=
  (Pager.waitsOnce_of_writesEach pageSize_pos mayCache copyStrategy notifyOnEvict
    (reachable_pager reached) number).nodup

end Kernels

/--
Two kernels read a page and the first asks to unlock it.  Both are flushed, and the first
answers at once and asks for the page again, to write it.  The pager has to wait for the
second kernel, so the unlock is still on WAITLIST when it comes to the request.
-/
def staleUnlockRun : List Action :=
  [.act 1 0 (.request false), .handle 1 fun _ => {}, .receive 1, .act 2 0 (.request false),
    .handle 2 fun _ => {}, .receive 2, .act 1 0 .unlock, .handle 1 fun _ => {}, .receive 1,
    .act 1 0 (.request true), .handle 1 fun _ => {}, .handle 1 fun _ => {}]

theorem staleUnlockRun_waits_twice :
    ∃ system, Transition.run step staleUnlockRun (create 1 (by decide) false 0 false) =
      some system ∧ ¬(waitingClients (system.pager.pagemap 0).waitlist).Nodup := by
  have twice : (Transition.run step staleUnlockRun (create 1 (by decide) false 0 false)).map
      (fun system => waitingClients (system.pager.pagemap 0).waitlist) = some [1, 1] := rfl
  rcases Option.map_eq_some_iff.mp twice with ⟨system, finished, clients⟩
  refine ⟨system, finished, ?_⟩
  simp [clients]

end System

end Hurd.Libpager
