import Hurd.Libpager.Effects

/-!
# The batch that `service_WAITLIST` serves

One writer, or the first client with the readers that follow it: who is supplied and in which
order, with which lock value, which supply may free the buffer, and who is flushed afterwards.
-/

namespace Hurd.Libpager

/-- What a client gets with a `memory_object_data_supply`. -/
structure Supply where
  client : MachPort
  data : ℕ
  deallocate : Bool
  lockValue : VmProt
  precious : Bool
deriving DecidableEq

/-- The data supply that an event is. -/
def PageEvent.supply? : PageEvent → Option Supply
  | .dataSupply _ client data deallocate lockValue precious =>
      some ⟨client, data, deallocate, lockValue, precious⟩
  | .dataError .. => none
  | .lockRequest .. => none
  | .readPage => none
  | .unlockPage => none
  | .writePage _ => none
  | .notifyEvict => none

/-- The supplies of a batch in order; only the last may free the buffer. -/
def batchSupplies (data : ℕ) (deallocate : Bool) (lockValue : VmProt) (precious : Bool)
    (batch : List MachPort) : List Supply :=
  batch.dropLast.map (fun client => ⟨client, data, false, lockValue, precious⟩) ++
    batch.getLast?.toList.map fun client => ⟨client, data, deallocate, lockValue, precious⟩

theorem batchSupplies_singleton (data : ℕ) (deallocate : Bool) (lockValue : VmProt)
    (precious : Bool) (client : MachPort) :
    batchSupplies data deallocate lockValue precious [client] =
      [⟨client, data, deallocate, lockValue, precious⟩] := rfl

theorem batchSupplies_cons_cons (data : ℕ) (deallocate : Bool) (lockValue : VmProt)
    (precious : Bool) (client next : MachPort) (rest : List MachPort) :
    batchSupplies data deallocate lockValue precious (client :: next :: rest) =
      ⟨client, data, false, lockValue, precious⟩ ::
        batchSupplies data deallocate lockValue precious (next :: rest) := by
  simp [batchSupplies]

namespace Page

/-- `service_WAITLIST` has served the first client of WAITLIST and what may go with it. -/
structure ServesBatch (page : Page) (data : ℕ) (allowWriteAccess deallocate : Bool)
    (first : WaitlistClient) (rest : List WaitlistClient) (next : Page) : Prop where
  accesslist : ∀ client, client ∈ next.entry.accesslist ↔
    client ∈ page.entry.accesslist ∨ client ∈ servedBatch allowWriteAccess first rest
  waitlist : next.entry.waitlist = leftWaiting allowWriteAccess first rest
  granted : next.entry.writeAccessGranted = (allowWriteAccess && first.writeAccessRequested)
  sent : ∃ supplies : List PageEvent,
    supplies.map PageEvent.supply? =
      (batchSupplies data deallocate
        (if allowWriteAccess && first.writeAccessRequested then 0 else vmProtWrite) page.precious
        (servedBatch allowWriteAccess first rest)).map some ∧
    next.sent = page.sent ++ supplies ++
      if next.entry.waitlist = [] then []
      else next.entry.accesslist.toList.map fun client =>
        .lockRequest client .all true vmProtNoChange true
  lockCount : ∀ client, next.lockCount client = page.lockCount client +
    if next.entry.waitlist ≠ [] ∧ client ∈ next.entry.accesslist then 1 else 0
  nexterror : next.nexterror = page.nexterror
  pagingout : next.entry.pagingout = page.entry.pagingout
  invalid : next.entry.invalid = page.entry.invalid
  error : next.entry.error = page.entry.error

/-- The supplies of the `do` loop, of which only the last may free the buffer. -/
theorem supplyReaders_sent (data : ℕ) (deallocate : Bool) (first : WaitlistClient)
    (rest : List WaitlistClient) (page : Page) :
    ∃ supplies : List PageEvent,
      supplies.map PageEvent.supply? =
        (batchSupplies data deallocate vmProtWrite page.precious
          (waitingClients (first :: moreReaders rest))).map some ∧
      (supplyReaders data deallocate first rest page).sent = page.sent ++ supplies := by
  induction rest generalizing first page with
  | nil => exact ⟨[_], rfl, rfl⟩
  | cons next rest ih =>
      by_cases write : next.writeAccessRequested = true
      · refine ⟨[.dataSupply (page.entry.accesslist.insert first.client) first.client data deallocate
          vmProtWrite page.precious], ?_, ?_⟩
        · simp [moreReaders, waitingClients, write, batchSupplies_singleton, PageEvent.supply?]
        · simp [supplyReaders, write, supply, moveToAccesslist, send]
      · rcases ih next ((page.moveToAccesslist first.client (next :: rest)).supply first.client data
          false vmProtWrite) with ⟨supplies, isBatch, sent⟩
        refine ⟨.dataSupply (page.entry.accesslist.insert first.client) first.client data false
          vmProtWrite page.precious :: supplies, ?_, ?_⟩
        · have readers : waitingClients (first :: moreReaders (next :: rest)) =
              first.client :: waitingClients (next :: moreReaders rest) := by
            simp [moreReaders, waitingClients, write]
          rw [List.map_cons, isBatch, readers, waitingClients, List.map_cons,
            batchSupplies_cons_cons]
          rfl
        · simp only [supplyReaders, write, Bool.false_eq_true, if_false]
          rw [sent]
          simp [supply, moveToAccesslist, send]

theorem serveFirst_sent (data : ℕ) (allowWriteAccess deallocate : Bool) (first : WaitlistClient)
    (rest : List WaitlistClient) (page : Page) :
    ∃ supplies : List PageEvent,
      supplies.map PageEvent.supply? =
        (batchSupplies data deallocate
          (if allowWriteAccess && first.writeAccessRequested then 0 else vmProtWrite)
          page.precious (servedBatch allowWriteAccess first rest)).map some ∧
      (page.serveFirst data allowWriteAccess deallocate first rest).sent =
        page.sent ++ supplies := by
  unfold serveFirst servedBatch
  split_ifs with write
  · exact ⟨[_], rfl, rfl⟩
  · exact supplyReaders_sent data deallocate first rest page

theorem flushForWaiting_sent (page : Page) :
    page.flushForWaiting.sent = page.sent ++
      if page.entry.waitlist = [] then []
      else page.entry.accesslist.toList.map fun client =>
        .lockRequest client .all true vmProtNoChange true := by
  unfold flushForWaiting
  by_cases none : page.entry.waitlist = []
  · simp [none]
  · simp [none, flushEach_sent]

/-- `service_WAITLIST` on a page that clients wait for serves one batch. -/
theorem serviceWaitlist_serves_batch (page : Page) (data : ℕ) (allowWriteAccess deallocate : Bool)
    (first : WaitlistClient) (rest : List WaitlistClient) (running : page.terminating = false)
    (waiting : page.entry.waitlist = first :: rest) :
    ∃ next, page.serviceWaitlist data allowWriteAccess deallocate = some next ∧
      page.ServesBatch data allowWriteAccess deallocate first rest next := by
  have frame := page.serveFirst_frame data deallocate first rest allowWriteAccess
  rcases frame with ⟨locks, nexterror, pagingout, invalid, error⟩
  refine ⟨(page.serveFirst data allowWriteAccess deallocate first rest).flushForWaiting, ?_, ?_⟩
  · simp [serviceWaitlist, running, waiting]
  · constructor
    · intro client
      rw [flushForWaiting_entry]
      exact mem_serveFirst_accesslist data deallocate first rest page allowWriteAccess client
    · rw [flushForWaiting_entry]
      exact serveFirst_waitlist data deallocate first rest page allowWriteAccess
    · rw [flushForWaiting_entry]
      exact serveFirst_writeAccessGranted data deallocate first rest page allowWriteAccess
    · rcases serveFirst_sent data allowWriteAccess deallocate first rest page with
        ⟨supplies, isBatch, sent⟩
      refine ⟨supplies, isBatch, ?_⟩
      rw [flushForWaiting_sent, sent, flushForWaiting_entry]
    · intro client
      have sameCount : (page.serveFirst data allowWriteAccess deallocate first rest).lockCount client =
          page.lockCount client := by
        simp only [lockCount, lock?, locks]
      rw [flushForWaiting_lockCount, flushForWaiting_entry, sameCount]
    · rw [flushForWaiting_nexterror, nexterror]
    · rw [flushForWaiting_entry, pagingout]
    · rw [flushForWaiting_entry, invalid]
    · rw [flushForWaiting_entry, error]

/-- Two readers and a writer behind them. -/
def readersThenWriter : Page :=
  { entry := { waitlist := [⟨1, false⟩, ⟨2, false⟩, ⟨3, true⟩] } }

theorem readersThenWriter_serves_batch :
    ∃ next, readersThenWriter.serviceWaitlist 7 true true = some next ∧
      readersThenWriter.ServesBatch 7 true true ⟨1, false⟩ [⟨2, false⟩, ⟨3, true⟩] next :=
  serviceWaitlist_serves_batch readersThenWriter 7 true true ⟨1, false⟩ [⟨2, false⟩, ⟨3, true⟩] rfl rfl

end Page

end Hurd.Libpager
