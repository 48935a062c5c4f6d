import Hurd.Libpager.Frame
import Mathlib.Data.List.Basic
import Mathlib.Data.List.Nodup
import Mathlib.Data.List.TakeWhile

/-!
# What the page routines do

One lemma for each member of `Page` a routine changes.  The messages are read off the events
by `messages`, which drops the callbacks and what a client does not see.
-/

namespace Hurd.Libpager

/-- A message to a client about a page. -/
inductive Message
  | supply (data : ℕ) (write precious : Bool)
  | error
  /-- A lock request that asks for the page back and for a reply. -/
  | flush
  /-- A lock request that answers a `data_unlock`. -/
  | grant
deriving DecidableEq

/-- The message of an event, with the client it goes to. -/
def PageEvent.message? : PageEvent → Option (MachPort × Message)
  | .dataSupply _ client data _ lockValue precious =>
      some (client, .supply data (lockValue = 0) precious)
  | .dataError client _ => some (client, .error)
  | .lockRequest client _ shouldFlush _ _ =>
      some (client, if shouldFlush then .flush else .grant)
  | .readPage => none
  | .unlockPage => none
  | .writePage _ => none
  | .notifyEvict => none

/-- The clients of a part of WAITLIST. -/
def waitingClients (waitlist : List WaitlistClient) : List MachPort :=
  waitlist.map (·.client)

namespace Page

/-- The messages sent so far. -/
def messages (page : Page) : List (MachPort × Message) :=
  page.sent.filterMap PageEvent.message?

/-- The number of lock requests to a client that it has not answered. -/
def lockCount (page : Page) (client : MachPort) : ℕ :=
  ((page.lock? client).map (·.count)).getD 0

section Flush

variable (page : Page) (client : MachPort) (clients : List MachPort)

theorem internalFlushRequest_lock? (other : MachPort) :
    (page.internalFlushRequest client).lock? other =
      if other = client then some ⟨page.lockCount client + 1, true⟩ else page.lock? other := by
  have found : (page.internalFlushRequest client).lock? other =
      ((page.locks.getD ∅).insert client
        ⟨((page.lock? client).getD {}).count + 1, true⟩).find? other := rfl
  have count : ((page.lock? client).getD {}).count = page.lockCount client := by
    unfold lockCount
    cases page.lock? client <;> rfl
  rw [found, OrdMap.find?_insert, count]
  split_ifs
  · rfl
  · unfold lock?
    cases page.locks <;> rfl

@[simp]
theorem flushEach_entry : (page.flushEach clients).entry = page.entry := by
  induction clients generalizing page with
  | nil => rfl
  | cons client rest ih => exact ih (page.internalFlushRequest client)

@[simp]
theorem flushEach_nexterror : (page.flushEach clients).nexterror = page.nexterror := by
  induction clients generalizing page with
  | nil => rfl
  | cons client rest ih => exact ih (page.internalFlushRequest client)

theorem flushEach_sent : (page.flushEach clients).sent =
    page.sent ++ clients.map fun client => .lockRequest client .all true vmProtNoChange true := by
  induction clients generalizing page with
  | nil => simp [flushEach]
  | cons client rest ih =>
      have step := ih (page.internalFlushRequest client)
      simpa [flushEach, internalFlushRequest] using step

theorem flushEach_messages : (page.flushEach clients).messages =
    page.messages ++ clients.map fun client => (client, .flush) := by
  rw [messages, flushEach_sent, List.filterMap_append, messages, List.filterMap_map]
  congr 1
  induction clients with
  | nil => rfl
  | cons client rest ih => simpa [PageEvent.message?] using ih

theorem flushEach_lock? (other : MachPort) :
    (page.flushEach clients).lock? other =
      if other ∈ clients then some ⟨page.lockCount other + clients.count other, true⟩
      else page.lock? other := by
  induction clients generalizing page with
  | nil => rfl
  | cons client rest ih =>
      have step := ih (page.internalFlushRequest client)
      have head := page.internalFlushRequest_lock? client other
      have unfolded : page.flushEach (client :: rest) =
          (page.internalFlushRequest client).flushEach rest := rfl
      rw [unfolded, step]
      by_cases same : other = client
      · subst same
        rw [if_pos rfl] at head
        by_cases inRest : other ∈ rest
        · simp [inRest, lockCount, head]
          omega
        · simp [inRest, head, List.count_eq_zero_of_not_mem inRest]
      · rw [if_neg same] at head
        simp [same, lockCount, head, Ne.symm same]

theorem flushEach_lockCount (other : MachPort) :
    (page.flushEach clients).lockCount other = page.lockCount other + clients.count other := by
  rw [lockCount, flushEach_lock?]
  split_ifs with flushed
  · rfl
  · rw [List.count_eq_zero_of_not_mem flushed]
    rfl

/-- Flushing the clients of ACCESSLIST flushes each of them once. -/
theorem count_accesslist (clients : OrdSet MachPort) (other : MachPort) :
    clients.toList.count other = if other ∈ clients then 1 else 0 := by
  split_ifs with listed
  · exact List.count_eq_one_of_mem clients.nodup listed
  · exact List.count_eq_zero_of_not_mem listed

end Flush

section Serve

variable (data : ℕ) (deallocate : Bool) (first : WaitlistClient) (rest : List WaitlistClient)
  (page : Page)

/-- The readers `service_WAITLIST` supplies after its first client. -/
def moreReaders (rest : List WaitlistClient) : List WaitlistClient :=
  rest.takeWhile (!·.writeAccessRequested)

/-- What is left of WAITLIST after the readers. -/
def afterReaders (rest : List WaitlistClient) : List WaitlistClient :=
  rest.dropWhile (!·.writeAccessRequested)

theorem supplyReaders_waitlist :
    (supplyReaders data deallocate first rest page).entry.waitlist = afterReaders rest := by
  induction rest generalizing first page with
  | nil => rfl
  | cons next rest ih =>
      simp only [supplyReaders, afterReaders, List.dropWhile_cons]
      by_cases write : next.writeAccessRequested = true
      · simp [write, supply, moveToAccesslist, send]
      · simpa [write, afterReaders] using ih next _

theorem mem_supplyReaders_accesslist (client : MachPort) :
    client ∈ (supplyReaders data deallocate first rest page).entry.accesslist ↔
      client ∈ page.entry.accesslist ∨
        client ∈ waitingClients (first :: moreReaders rest) := by
  induction rest generalizing first page with
  | nil => simp [supplyReaders, supply, moveToAccesslist, send, waitingClients, moreReaders, or_comm]
  | cons next rest ih =>
      simp only [supplyReaders, moreReaders, List.takeWhile_cons]
      by_cases write : next.writeAccessRequested = true
      · simp [write, supply, moveToAccesslist, send, waitingClients, or_comm]
      · have step := ih next ((page.moveToAccesslist first.client (next :: rest)).supply first.client data
          false vmProtWrite)
        simp only [write, Bool.not_false, if_true, if_false, Bool.false_eq_true]
        rw [step]
        simp only [supply, moveToAccesslist, send, waitingClients, moreReaders, OrdSet.mem_insert,
          List.map_cons, List.mem_cons]
        tauto

theorem supplyReaders_messages :
    (supplyReaders data deallocate first rest page).messages =
      page.messages ++ (waitingClients (first :: moreReaders rest)).map
        fun client => (client, .supply data false page.precious) := by
  induction rest generalizing first page with
  | nil =>
      simp [supplyReaders, supply, moveToAccesslist, send, messages, waitingClients, moreReaders,
        PageEvent.message?, vmProtWrite]
  | cons next rest ih =>
      simp only [supplyReaders, moreReaders, List.takeWhile_cons]
      by_cases write : next.writeAccessRequested = true
      · simp [write, supply, moveToAccesslist, send, messages, waitingClients, PageEvent.message?,
          vmProtWrite]
      · have step := ih next ((page.moveToAccesslist first.client (next :: rest)).supply first.client data
          false vmProtWrite)
        simp only [write, Bool.not_false, if_true, if_false, Bool.false_eq_true]
        rw [step]
        simp [supply, moveToAccesslist, send, messages, waitingClients, moreReaders, PageEvent.message?,
          vmProtWrite]

/-- The members of a page that serving readers leaves alone. -/
theorem supplyReaders_frame :
    (supplyReaders data deallocate first rest page).locks = page.locks ∧
      (supplyReaders data deallocate first rest page).nexterror = page.nexterror ∧
      (supplyReaders data deallocate first rest page).entry.pagingout = page.entry.pagingout ∧
      (supplyReaders data deallocate first rest page).entry.invalid = page.entry.invalid ∧
      (supplyReaders data deallocate first rest page).entry.error = page.entry.error := by
  induction rest generalizing first page with
  | nil => exact ⟨rfl, rfl, rfl, rfl, rfl⟩
  | cons next rest ih =>
      simp only [supplyReaders]
      split_ifs with write
      · exact ⟨rfl, rfl, rfl, rfl, rfl⟩
      · exact ih next _

/-- The clients one call of `service_WAITLIST` supplies. -/
def servedBatch (allowWriteAccess : Bool) (first : WaitlistClient) (rest : List WaitlistClient) :
    List MachPort :=
  if allowWriteAccess && first.writeAccessRequested then [first.client]
  else waitingClients (first :: moreReaders rest)

/-- What one call of `service_WAITLIST` leaves on WAITLIST. -/
def leftWaiting (allowWriteAccess : Bool) (first : WaitlistClient)
    (rest : List WaitlistClient) : List WaitlistClient :=
  if allowWriteAccess && first.writeAccessRequested then rest else afterReaders rest

/-- A batch and what is left after it make up WAITLIST. -/
theorem servedBatch_append_leftWaiting (allowWriteAccess : Bool) (first : WaitlistClient)
    (rest : List WaitlistClient) :
    servedBatch allowWriteAccess first rest ++
        waitingClients (leftWaiting allowWriteAccess first rest) =
      waitingClients (first :: rest) := by
  unfold servedBatch leftWaiting
  split_ifs
  · rfl
  · rw [waitingClients, waitingClients, ← List.map_append, List.cons_append, moreReaders,
      afterReaders, List.takeWhile_append_dropWhile]
    rfl

variable (allowWriteAccess : Bool)

theorem serveFirst_waitlist :
    (page.serveFirst data allowWriteAccess deallocate first rest).entry.waitlist =
      leftWaiting allowWriteAccess first rest := by
  unfold serveFirst leftWaiting
  split_ifs
  · rfl
  · exact supplyReaders_waitlist data deallocate first rest page

theorem mem_serveFirst_accesslist (client : MachPort) :
    client ∈ (page.serveFirst data allowWriteAccess deallocate first rest).entry.accesslist ↔
      client ∈ page.entry.accesslist ∨ client ∈ servedBatch allowWriteAccess first rest := by
  unfold serveFirst servedBatch
  split_ifs
  · simp [supply, moveToAccesslist, send, setWriteAccessGranted, or_comm]
  · exact mem_supplyReaders_accesslist data deallocate first rest page client

theorem serveFirst_writeAccessGranted :
    (page.serveFirst data allowWriteAccess deallocate first rest).entry.writeAccessGranted =
      (allowWriteAccess && first.writeAccessRequested) := by
  unfold serveFirst
  split_ifs with write
  · exact write.symm
  · exact (Bool.eq_false_iff.mpr write).symm

theorem serveFirst_messages :
    (page.serveFirst data allowWriteAccess deallocate first rest).messages =
      page.messages ++ (servedBatch allowWriteAccess first rest).map fun client =>
        (client, .supply data (allowWriteAccess && first.writeAccessRequested)
          page.precious) := by
  unfold serveFirst servedBatch
  split_ifs with write
  · simp [write, supply, moveToAccesslist, send, setWriteAccessGranted, messages, PageEvent.message?]
  · rw [Bool.eq_false_iff.mpr write]
    exact supplyReaders_messages data deallocate first rest page

/-- The members of a page that serving WAITLIST leaves alone. -/
theorem serveFirst_frame :
    (page.serveFirst data allowWriteAccess deallocate first rest).locks = page.locks ∧
      (page.serveFirst data allowWriteAccess deallocate first rest).nexterror = page.nexterror ∧
      (page.serveFirst data allowWriteAccess deallocate first rest).entry.pagingout =
        page.entry.pagingout ∧
      (page.serveFirst data allowWriteAccess deallocate first rest).entry.invalid =
        page.entry.invalid ∧
      (page.serveFirst data allowWriteAccess deallocate first rest).entry.error =
        page.entry.error := by
  unfold serveFirst
  split_ifs
  · exact ⟨rfl, rfl, rfl, rfl, rfl⟩
  · exact supplyReaders_frame data deallocate first rest page

end Serve

section FlushForWaiting

variable (page : Page)

@[simp]
theorem flushForWaiting_entry : page.flushForWaiting.entry = page.entry := by
  unfold flushForWaiting
  split_ifs
  · rfl
  · exact page.flushEach_entry _

@[simp]
theorem flushForWaiting_nexterror : page.flushForWaiting.nexterror = page.nexterror := by
  unfold flushForWaiting
  split_ifs
  · rfl
  · exact page.flushEach_nexterror _

theorem flushForWaiting_lockCount (client : MachPort) :
    page.flushForWaiting.lockCount client = page.lockCount client +
      if page.entry.waitlist ≠ [] ∧ client ∈ page.entry.accesslist then 1 else 0 := by
  unfold flushForWaiting
  by_cases none : page.entry.waitlist = []
  · simp [none]
  · simp [none, flushEach_lockCount, count_accesslist]

theorem flushForWaiting_lock? (client : MachPort) :
    page.flushForWaiting.lock? client =
      if page.entry.waitlist ≠ [] ∧ client ∈ page.entry.accesslist then
        some ⟨page.lockCount client + 1, true⟩
      else page.lock? client := by
  unfold flushForWaiting
  by_cases none : page.entry.waitlist = []
  · simp [none]
  · simp only [none, List.isEmpty_iff, if_false, ne_eq, not_false_eq_true, true_and,
      flushEach_lock?, count_accesslist, OrdSet.mem_def]
    split_ifs <;> rfl

end FlushForWaiting

section SendError

variable (page : Page)

theorem sendErrorTo_entry (waiting : WaitlistClient) :
    (page.sendErrorTo waiting).entry = page.entry := by
  unfold sendErrorTo
  split_ifs <;> rfl

theorem foldl_sendErrorTo_entry (waitlist : List WaitlistClient) :
    (waitlist.foldl sendErrorTo page).entry = page.entry := by
  induction waitlist generalizing page with
  | nil => rfl
  | cons waiting rest ih => rw [List.foldl_cons, ih, sendErrorTo_entry]

theorem sendErrorToWaitlist_entry :
    page.sendErrorToWaitlist.entry = { page.entry with waitlist := [] } := by
  have same := page.foldl_sendErrorTo_entry page.entry.waitlist
  simp only [sendErrorToWaitlist, setWaitlist, same]

/-- A waiting client gets the error, or a flush when it is on ACCESSLIST. -/
theorem sendErrorToWaitlist_messages :
    page.sendErrorToWaitlist.messages = page.messages ++
      (waitingClients page.entry.waitlist).map fun client =>
        (client, if client ∈ page.entry.accesslist then .flush else .error) := by
  have sent : ∀ (waitlist : List WaitlistClient) (page : Page),
      (waitlist.foldl sendErrorTo page).messages = page.messages ++
        (waitingClients waitlist).map fun client =>
          (client, if client ∈ page.entry.accesslist then .flush else .error) := by
    intro waitlist
    induction waitlist with
    | nil => intro page; simp [waitingClients]
    | cons waiting rest ih =>
        intro page
        have head : (page.sendErrorTo waiting).messages = page.messages ++
            [(waiting.client,
              if waiting.client ∈ page.entry.accesslist then .flush else .error)] := by
          unfold sendErrorTo
          split_ifs <;> simp [messages, internalFlushRequest, send, PageEvent.message?]
        rw [List.foldl_cons, ih, head, sendErrorTo_entry]
        simp [waitingClients]
  exact sent page.entry.waitlist page

/-- With no waiting client on ACCESSLIST nothing but the messages changes. -/
theorem sendErrorToWaitlist_of_disjoint
    (disjoint : ∀ client ∈ waitingClients page.entry.waitlist, client ∉ page.entry.accesslist) :
    page.sendErrorToWaitlist.locks = page.locks ∧
      page.sendErrorToWaitlist.nexterror = page.nexterror := by
  have sent : ∀ (waitlist : List WaitlistClient) (page : Page),
      (∀ client ∈ waitingClients waitlist, client ∉ page.entry.accesslist) →
      (waitlist.foldl sendErrorTo page).locks = page.locks ∧
        (waitlist.foldl sendErrorTo page).nexterror = page.nexterror := by
    intro waitlist
    induction waitlist with
    | nil => exact fun _ _ => ⟨rfl, rfl⟩
    | cons waiting rest ih =>
        intro page disjoint
        have notListed : waiting.client ∉ page.entry.accesslist :=
          disjoint waiting.client (by simp [waitingClients])
        have tail := ih (page.sendErrorTo waiting) fun client clientMem => by
          rw [sendErrorTo_entry]
          exact disjoint client (List.mem_cons_of_mem _ clientMem)
        rw [List.foldl_cons, tail.1, tail.2, sendErrorTo, if_neg notListed]
        exact ⟨rfl, rfl⟩
  exact sent page.entry.waitlist page disjoint

end SendError

end Page

end Hurd.Libpager
