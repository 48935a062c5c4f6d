import Hurd.Libpager.Projection

/-!
# Every request gets at most one answer

A ledger keeps, for each page, the clients whose data request has been handled and not
answered.  A handler enters its request and settles it against the data supplies and data
errors it sends.  A client waits for a page only on such an entry, and at most once, unless
an unlock is queued beside the requests: those the pager answers with a page nobody asked
for.  A request for a page whose last write failed is answered twice, with the error and
with the page.
-/

namespace Hurd.Libpager

/-- The client a message to it answers. -/
def Message.answers? : MachPort × Message → Option MachPort
  | (client, .supply _ _ _) => some client
  | (client, .error) => some client
  | (_, .flush) => none
  | (_, .grant) => none

/-- The client an event answers. -/
def PageEvent.answers? (event : PageEvent) : Option MachPort :=
  event.message?.bind Message.answers?

namespace Page

/-- The clients whose requests have been answered so far. -/
def answered (page : Page) : List MachPort :=
  page.sent.filterMap PageEvent.answers?

theorem answered_eq_messages (page : Page) :
    page.answered = page.messages.filterMap Message.answers? := by
  rw [answered, messages, List.filterMap_filterMap]
  rfl

/--
Whoever has been answered or is waiting has an unanswered request in the ledger, and has it
once.
-/
structure Balanced (page : Page) (unanswered : MachPort → Bool) : Prop where
  nodup : (page.answered ++ waitingClients page.entry.waitlist).Nodup
  asked : ∀ client ∈ page.answered ++ waitingClients page.entry.waitlist, unanswered client = true

variable {page next : Page} {client : MachPort} {results : PageCallbacks}
  {unanswered : MachPort → Bool}

theorem Balanced.of_sublist (balanced : page.Balanced unanswered)
    (fewer : (next.answered ++ waitingClients next.entry.waitlist).Sublist
      (page.answered ++ waitingClients page.entry.waitlist)) : next.Balanced unanswered where
  nodup := balanced.nodup.sublist fewer
  asked client clientMem := balanced.asked client (fewer.subset clientMem)

/-- A routine that neither answers nor touches WAITLIST keeps the balance. -/
theorem Balanced.of_same (balanced : page.Balanced unanswered)
    (sameAnswers : next.answered = page.answered)
    (sameWaitlist : next.entry.waitlist = page.entry.waitlist) : next.Balanced unanswered := by
  refine balanced.of_sublist ?_
  rw [sameAnswers, sameWaitlist]

theorem flushEach_answered (page : Page) (clients : List MachPort) :
    (page.flushEach clients).answered = page.answered := by
  rw [answered_eq_messages, flushEach_messages, List.filterMap_append, ← answered_eq_messages]
  simp [Message.answers?]

theorem Balanced.flushEach (balanced : page.Balanced unanswered) (clients : List MachPort) :
    (page.flushEach clients).Balanced unanswered :=
  balanced.of_same (page.flushEach_answered clients) (by rw [flushEach_entry])

theorem serveFirst_answered (data : ℕ) (allowWriteAccess deallocate : Bool)
    (first : WaitlistClient) (rest : List WaitlistClient) (page : Page) :
    (page.serveFirst data allowWriteAccess deallocate first rest).answered =
      page.answered ++ servedBatch allowWriteAccess first rest := by
  rw [answered_eq_messages, serveFirst_messages, List.filterMap_append, ← answered_eq_messages,
    List.filterMap_map]
  congr 1
  exact List.filterMap_some

/-- `service_WAITLIST` answers the clients it takes off WAITLIST. -/
theorem Balanced.serviceWaitlist (balanced : page.Balanced unanswered) {data : ℕ}
    {allowWriteAccess deallocate : Bool}
    (served : page.serviceWaitlist data allowWriteAccess deallocate = some next) :
    next.Balanced unanswered := by
  rcases serviceWaitlist_cases served with ⟨_, rfl⟩ | ⟨first, rest, _, waiting, rfl⟩
  · exact balanced
  have batch : (page.serveFirst data allowWriteAccess deallocate first rest).Balanced
      unanswered := by
    refine balanced.of_sublist ?_
    rw [serveFirst_answered, serveFirst_waitlist, List.append_assoc,
      servedBatch_append_leftWaiting, waiting]
  unfold flushForWaiting
  split_ifs
  · exact batch
  · exact batch.flushEach _

theorem Balanced.sendErrorToWaitlist (balanced : page.Balanced unanswered) :
    page.sendErrorToWaitlist.Balanced unanswered := by
  refine balanced.of_sublist ?_
  rw [sendErrorToWaitlist_entry, answered_eq_messages, sendErrorToWaitlist_messages,
    List.filterMap_append, ← answered_eq_messages, List.filterMap_map]
  simp only [waitingClients, List.map_nil, List.append_nil]
  refine List.Sublist.append_left ?_ _
  have sent : ∀ clients : List MachPort, (clients.filterMap (Message.answers? ∘ fun client =>
      (client, if client ∈ page.entry.accesslist then Message.flush else Message.error))).Sublist
        clients := by
    intro clients
    induction clients with
    | nil => exact .slnil
    | cons client rest ih =>
        by_cases listed : client ∈ page.entry.accesslist
        · simpa [listed, Message.answers?] using ih.cons client
        · simpa [listed, Message.answers?] using ih.cons_cons client
  exact sent _

/-- `finalize_unlock` takes a client off WAITLIST and answers no request. -/
theorem Balanced.finalizeUnlock (balanced : page.Balanced unanswered) {error : KernReturn}
    (finished : page.finalizeUnlock error = some next) : next.Balanced unanswered := by
  have popped : ∀ {first : WaitlistClient} {rest : List WaitlistClient},
      page.entry.waitlist = first :: rest → (page.setWaitlist rest).Balanced unanswered := by
    intro first rest waiting
    refine balanced.of_sublist ?_
    rw [waiting]
    exact List.Sublist.append_left (List.sublist_cons_self _ _) _
  cases finalizeUnlock_cases finished with
  | granted first rest waiting _ nextEq =>
      have told : (((page.setWaitlist rest).send (.lockRequest first.client .none false vmProtNone
          false)).setWriteAccessGranted true).Balanced unanswered := by
        refine (popped waiting).of_same ?_ rfl
        simp [answered, send, setWriteAccessGranted, PageEvent.answers?, PageEvent.message?,
          Message.answers?]
      rw [nextEq]
      exact told.flushEach _
  | failed first rest waiting _ nextEq =>
      rw [nextEq]
      exact ((popped waiting).flushEach [first.client]).of_same rfl rfl

theorem Balanced.finishPagein (balanced : page.Balanced unanswered) {result : ReadResult}
    (finished : page.finishPagein result = some next) : next.Balanced unanswered := by
  have errorSet : ∀ error, (page.setError error).Balanced unanswered :=
    fun _ => balanced.of_same rfl rfl
  rcases finishPagein_cases finished with ⟨_, served⟩ | ⟨_, rfl⟩
  · exact (errorSet kernSuccess).serviceWaitlist served
  · exact (errorSet result.error).sendErrorToWaitlist

/-- A callback answers nobody. -/
theorem Balanced.send (balanced : page.Balanced unanswered) (event : PageEvent)
    (noAnswer : event.answers? = none) : (page.send event).Balanced unanswered := by
  refine balanced.of_same ?_ rfl
  simp [answered, Page.send, noAnswer]

theorem Balanced.internalLockCompleted (balanced : page.Balanced unanswered)
    (completed : page.internalLockCompleted client results = some next) :
    next.Balanced unanswered := by
  have removed : (page.removeFromAccesslist client).Balanced unanswered :=
    balanced.of_same rfl rfl
  cases internalLockCompleted_cases completed with
  | terminating _ nextEq =>
      rw [nextEq]
      exact balanced
  | idle _ _ _ nextEq =>
      rw [nextEq]
      exact balanced
  | others _ _ _ _ _ nextEq =>
      rw [nextEq]
      exact removed
  | refuse _ _ _ _ _ _ nextEq =>
      rw [nextEq]
      exact removed.sendErrorToWaitlist
  | pagein _ _ _ _ _ _ finished => exact (removed.send .readPage rfl).finishPagein finished
  | unlock _ _ _ _ _ _ _ _ finished => exact (removed.send .unlockPage rfl).finalizeUnlock finished

/-- A client whose request has just been entered joins WAITLIST. -/
theorem Balanced.addToWaitlist (balanced : page.Balanced unanswered) (write : Bool)
    (asks : unanswered client = true)
    (notYet : client ∉ page.answered ++ waitingClients page.entry.waitlist) :
    (page.addToWaitlist client write).Balanced unanswered := by
  have joined : (page.addToWaitlist client write).answered ++
      waitingClients (page.addToWaitlist client write).entry.waitlist =
        (page.answered ++ waitingClients page.entry.waitlist) ++ [client] := by
    simp [Page.addToWaitlist, answered, waitingClients]
  constructor
  · rw [joined, List.nodup_append]
    refine ⟨balanced.nodup, by simp, ?_⟩
    rintro other otherMem _ now rfl
    rw [List.mem_singleton.mp now] at otherMem
    exact notYet otherMem
  · rw [joined]
    intro other otherMem
    rcases List.mem_append.mp otherMem with before | now
    · exact balanced.asked other before
    · rw [List.mem_singleton.mp now]
      exact asks

/-- A page in of a page whose last write failed: the request gets the error and the page. -/
def AnswersTwice (page : Page) (client : MachPort) (write : Bool) : Prop :=
  page.entry.pagingout = false ∧ takeNexterror client page.nexterror = none ∧
    page.entry.waitlist = [] ∧ page.entry.invalid = true ∧ (page.leaveForRequest client).entry.writeAccessGranted = false ∧
    (write = true → (page.leaveForRequest client).entry.accesslist.isEmpty = true)

/-- An unlock that has to wait: it is queued on WAITLIST as if it were a request. -/
def QueuesUnlock (page : Page) : Prop :=
  page.entry.isAnyClientWaitingForWriteAccess = false ∧
    (page.entry.waitlist ≠ [] ∨ 1 < page.entry.accesslist.size)

/-- The handler takes one of the two branches that send an answer nobody asked for. -/
def Unbalances (page : Page) : PageInput → Prop
  | .dataRequest client write => page.AnswersTwice client write
  | .dataUnlock .. => page.QueuesUnlock
  | .dataReturn .. => False
  | .dataReturnUnmatched .. => False
  | .lockCompleted _ => False
  | .dropClient _ => False
  | .lockObject _ => False
  | .shutdown => False

theorem Balanced.dataRequest {write : Bool} (balanced : page.Balanced unanswered)
    (asks : unanswered client = true)
    (notYet : client ∉ page.answered ++ waitingClients page.entry.waitlist)
    (once : ¬page.AnswersTwice client write)
    (requested : page.dataRequest client write results = some next) :
    next.Balanced unanswered := by
  have leaveAnswered : (page.leaveForRequest client).answered = page.answered := by
    unfold leaveForRequest
    split_ifs <;> rfl
  have left : (page.leaveForRequest client).Balanced unanswered :=
    balanced.of_same leaveAnswered (page.leaveForRequest_waitlist client)
  have leftNotYet : client ∉ (page.leaveForRequest client).answered ++
      waitingClients (page.leaveForRequest client).entry.waitlist := by
    rw [leaveAnswered, page.leaveForRequest_waitlist client]
    exact notYet
  cases dataRequest_cases requested with
  | error found rest _ nextEq =>
      have joined := balanced.addToWaitlist write asks notYet
      have rotated : (next.answered ++ waitingClients next.entry.waitlist).Perm
          ((page.addToWaitlist client write).answered ++
            waitingClients (page.addToWaitlist client write).entry.waitlist) := by
        rw [nextEq]
        simp only [answered, Page.send, Page.addToWaitlist, waitingClients, List.filterMap_append,
          List.map_append, List.append_assoc]
        exact List.Perm.append_left _ List.perm_append_comm
      exact ⟨rotated.nodup_iff.mpr joined.nodup,
        fun other otherMem => joined.asked other (rotated.mem_iff.mp otherMem)⟩
  | held _ _ nextEq =>
      rw [nextEq]
      refine (balanced.flushEach _).addToWaitlist write asks ?_
      rw [flushEach_answered, flushEach_entry]
      exact notYet
  | completed _ _ _ finished =>
      exact (balanced.addToWaitlist write asks notYet).internalLockCompleted finished
  | waits _ _ _ nextEq =>
      rw [nextEq]
      exact balanced.addToWaitlist write asks notYet
  | revokes _ _ _ nextEq =>
      rw [nextEq]
      exact (left.addToWaitlist write asks leftNotYet).flushEach _
  | pagein notPagingout noError noneWaiting notGranted free finished =>
      have sameInvalid : (page.leaveForRequest client).entry.invalid = page.entry.invalid := by
        unfold leaveForRequest
        split_ifs <;> rfl
      have valid : (page.leaveForRequest client).entry.invalid = false := by
        rw [sameInvalid, ← Bool.not_eq_true]
        exact fun invalid => once ⟨notPagingout, noError, noneWaiting, invalid, notGranted, free⟩
      rw [tellInvalid, valid, if_neg (by simp)] at finished
      exact ((left.addToWaitlist write asks leftNotYet).send .readPage rfl).finishPagein finished

theorem Balanced.dataUnlock {first : Bool} {others : List MachPort}
    (balanced : page.Balanced unanswered) (notQueued : ¬page.QueuesUnlock)
    (nothingSent : page.answered = [])
    (unlocked : page.dataUnlock client first others results = some next) :
    next.Balanced unanswered := by
  cases dataUnlock_cases unlocked with
  | ignored _ _ nextEq =>
      rw [nextEq]
      exact balanced.flushEach _
  | queued _ _ readersWait waiting => exact absurd ⟨readersWait, Or.inl waiting⟩ notQueued
  | revokes _ _ noneWaiting shared =>
      refine absurd ⟨?_, Or.inr shared⟩ notQueued
      simp [PagemapEntry.isAnyClientWaitingForWriteAccess, noneWaiting]
  | alone _ _ noneWaiting _ finished =>
      -- the client that unlocks is alone on WAITLIST, and is taken off it again
      have nothing : next.answered = [] ∧ next.entry.waitlist = [] := by
        have before : (((page.addToWaitlist client true).flushEach
            (if first then others else [])).send .unlockPage).answered = [] := by
          have sent := (page.addToWaitlist client true).flushEach_answered
            (if first then others else [])
          rw [answered] at sent ⊢
          simp only [Page.send, List.filterMap_append, sent]
          exact congrArg (· ++ []) nothingSent
        have waiting : (((page.addToWaitlist client true).flushEach
            (if first then others else [])).send .unlockPage).entry.waitlist =
              [⟨client, true⟩] := by
          simp [Page.send, Page.addToWaitlist, noneWaiting]
        cases finalizeUnlock_cases finished with
        | granted head tail waitingEq _ nextEq =>
            rw [waiting] at waitingEq
            cases waitingEq
            rw [nextEq, flushEach_answered, flushEach_entry]
            refine ⟨?_, rfl⟩
            rw [answered] at before ⊢
            simp only [Page.send, Page.setWaitlist, Page.setWriteAccessGranted,
              List.filterMap_append] at before ⊢
            rw [before]
            rfl
        | failed head tail waitingEq _ nextEq =>
            rw [waiting] at waitingEq
            cases waitingEq
            rw [nextEq]
            refine ⟨?_, by simp [Page.setWaitlist]⟩
            have sent := flushEach_answered ((((page.addToWaitlist client true).flushEach
              (if first then others else [])).send .unlockPage).setWaitlist []) [client]
            exact sent.trans before
      exact ⟨by simp [nothing, waitingClients], by simp [nothing, waitingClients]⟩

theorem Balanced.handedOff {data : ℕ} {dirty kernelCopy : Bool} {flags : ReturnFlags}
    (balanced : page.Balanced unanswered)
    (handedOff : HandedOff page client data dirty kernelCopy next flags) :
    next.Balanced unanswered := by
  have left : (page.leaveForReturn client).Balanced unanswered := by
    refine balanced.of_same ?_ (page.leaveForReturn_frame client).1
    unfold leaveForReturn
    split_ifs <;> rfl
  cases handedOff with
  | keeps _ nextEq =>
      rw [nextEq]
      exact balanced
  | serves _ _ _ served => exact left.serviceWaitlist served
  | unlocks _ _ _ _ _ _ _ _ nextEq =>
      rw [nextEq]
      exact left
  | evicts _ _ _ _ nextEq =>
      rw [nextEq]
      exact left.of_same rfl rfl
  | leaves _ _ nextEq =>
      rw [nextEq]
      exact left

theorem Balanced.notified (balanced : page.Balanced unanswered) (notified : Notified page next) :
    next.Balanced unanswered := by
  refine balanced.of_same ?_ (by rw [notified.entry])
  rw [answered_eq_messages, notified.messages, ← answered_eq_messages]

theorem Balanced.dataReturn {data : ℕ} {dirty kernelCopy any : Bool}
    (balanced : page.Balanced unanswered)
    (returned : page.dataReturn client data dirty kernelCopy any results = some next) :
    next.Balanced unanswered := by
  have afterWritten : ∀ {handed : Page}, handed.Balanced unanswered →
      (handed.written data results.write).Balanced unanswered := by
    intro handed balanced
    rcases handed.written_frame data results.write with ⟨-, sameWaitlist, -, -, -, sameMessages, -⟩
    refine balanced.of_same ?_ sameWaitlist
    rw [answered_eq_messages, sameMessages, ← answered_eq_messages]
  cases dataReturn_cases returned with
  | clean _ _ _ handedOff _ notified => exact (balanced.handedOff handedOff).notified notified
  | unlocks _ _ _ _ handedOff _ notifies finished =>
      exact (((balanced.handedOff handedOff).send .unlockPage rfl).notified
        notifies).finalizeUnlock finished
  | keeps _ _ nextEq =>
      rw [nextEq]
      exact afterWritten balanced
  | serves _ _ _ handedOff _ served =>
      exact (afterWritten (balanced.handedOff handedOff)).serviceWaitlist served
  | evicts _ _ handed handedOff _ notified =>
      have evicted : (handed.written data results.write).evicted.Balanced unanswered :=
        (afterWritten (balanced.handedOff handedOff)).of_same rfl rfl
      exact evicted.notified notified

/-- A handler keeps the balance when a request it handles has been entered in the ledger. -/
theorem Balanced.handle {input : PageInput} (nothingSent : page.sent = [])
    (balanced : page.Balanced unanswered)
    (asks : ∀ client write, input = .dataRequest client write →
      unanswered client = true ∧ client ∉ waitingClients page.entry.waitlist)
    (allowed : ¬page.Unbalances input) (handled : page.handle input results = some next) :
    next.Balanced unanswered := by
  have noAnswer : page.answered = [] := by simp [answered, nothingSent]
  have forgotten : ∀ client, (page.forget client).Balanced unanswered :=
    fun _ => balanced.of_same rfl rfl
  cases input with
  | dataRequest client write =>
      rcases asks client write rfl with ⟨isAsked, notWaiting⟩
      refine balanced.dataRequest isAsked ?_ allowed handled
      rw [noAnswer]
      exact notWaiting
  | dataUnlock client first others => exact balanced.dataUnlock allowed noAnswer handled
  | dataReturn client data dirty kernelCopy any => exact balanced.dataReturn handled
  | dataReturnUnmatched client data kernelCopy =>
      rcases dataReturnUnmatched_cases handled with ⟨handed, handedOff, rfl⟩
      exact (balanced.handedOff handedOff).of_same rfl rfl
  | lockCompleted client =>
      cases lockCompleted_cases handled with
      | counted _ _ _ nextEq =>
          rw [nextEq]
          exact balanced.of_same rfl rfl
      | external _ _ _ _ nextEq =>
          rw [nextEq]
          exact forgotten client
      | internal _ _ _ _ finished => exact (forgotten client).internalLockCompleted finished
  | dropClient control =>
      rcases Option.map_eq_some_iff.mp handled with ⟨dropped, dropDone, rfl⟩
      have droppedBalanced : dropped.Balanced unanswered := by
        rcases dropLocks_cases dropDone with ⟨_, _, _, finished⟩ | ⟨_, rfl⟩
        · exact (forgotten control).internalLockCompleted finished
        · exact forgotten control
      refine droppedBalanced.of_same ?_ ?_
      · unfold Page.dropClient
        split_ifs <;> rfl
      · unfold Page.dropClient
        split_ifs <;> rfl
  | lockObject clients =>
      cases handled
      have counted : ∀ (clients : List MachPort) (page : Page),
          (clients.foldl countLock page).answered = page.answered := by
        intro clients
        induction clients with
        | nil => exact fun _ => rfl
        | cons client rest ih => exact fun page => ih (page.countLock client)
      exact balanced.of_same (counted clients page) (by rw [foldl_countLock_entry])
  | shutdown =>
      cases handled
      exact balanced.of_same rfl rfl

end Page

/-- The unanswered requests, by page and client. -/
abbrev Ledger := ℕ → MachPort → Bool

namespace Ledger

/-- The page and the client of an answer. -/
def answer? : Event → Option (ℕ × MachPort)
  | .page number event => event.answers?.map fun client => (number, client)
  | _ => none

/-- Strike out the answered requests in order; `none` on an answer to no request. -/
def settle (ledger : Ledger) : List Event → Option Ledger
  | [] => some ledger
  | event :: rest =>
      match answer? event with
      | none => settle ledger rest
      | some (number, client) =>
          if ledger number client then
            settle (Function.update ledger number
              (Function.update (ledger number) client false)) rest
          else none

/-- Enter the request that an input makes. -/
def enter (ledger : Ledger) (pager : Pager) : Input → Ledger
  | .dataRequest client offset _ _ =>
      Function.update ledger (offset / pager.pageSize)
        (Function.update (ledger (offset / pager.pageSize)) client true)
  | _ => ledger

/-- The clients answered about a page, in order. -/
def answersOf (number : ℕ) (events : List Event) : List MachPort :=
  (Pager.eventsOf number events).filterMap PageEvent.answers?

theorem answersOf_cons_of_none {event : Event} (noAnswer : answer? event = none) (number : ℕ)
    (rest : List Event) : answersOf number (event :: rest) = answersOf number rest := by
  cases event with
  | page other event =>
      have silent : event.answers? = none := by simpa [answer?] using noAnswer
      by_cases same : other = number
      · simp [answersOf, Pager.eventsOf, same, silent]
      · simp [answersOf, Pager.eventsOf, same]
  | lockRequest => rfl
  | ready => rfl
  | changeCompleted => rfl
  | wakeLockWaiters => rfl
  | wakeWriteWaiters => rfl

theorem answersOf_cons_of_some {event : Event} {other : ℕ} {client : MachPort}
    (answers : answer? event = some (other, client)) (number : ℕ) (rest : List Event) :
    answersOf number (event :: rest) =
      (if other = number then [client] else []) ++ answersOf number rest := by
  cases event with
  | page pageNumber event =>
      simp only [answer?, Option.map_eq_some_iff, Prod.mk.injEq] at answers
      rcases answers with ⟨_, answers, rfl, rfl⟩
      by_cases same : pageNumber = number
      · simp [answersOf, Pager.eventsOf, same, answers]
      · simp [answersOf, Pager.eventsOf, same]
  | lockRequest => cases answers
  | ready => cases answers
  | changeCompleted => cases answers
  | wakeLockWaiters => cases answers
  | wakeWriteWaiters => cases answers

/-- Answers to distinct entries of the ledger settle. -/
theorem settle_eq_some (events : List Event) (ledger : Ledger)
    (distinct : ∀ number, (answersOf number events).Nodup)
    (entered : ∀ number, ∀ client ∈ answersOf number events, ledger number client = true) :
    ∃ settled, settle ledger events = some settled ∧
      ∀ number client, client ∉ answersOf number events →
        settled number client = ledger number client := by
  induction events generalizing ledger with
  | nil => exact ⟨ledger, rfl, fun _ _ _ => rfl⟩
  | cons event rest ih =>
      cases answers : answer? event with
      | none =>
          simp only [answersOf_cons_of_none answers] at distinct entered ⊢
          rcases ih ledger distinct entered with ⟨settled, settledEq, kept⟩
          exact ⟨settled, by simp only [settle, answers, settledEq], kept⟩
      | some answer =>
          rcases answer with ⟨number, client⟩
          simp only [answersOf_cons_of_some answers] at distinct entered ⊢
          have isEntered : ledger number client = true := entered number client (by simp)
          have notAgain : client ∉ answersOf number rest := by
            have ownDistinct := distinct number
            rw [if_pos rfl, List.singleton_append, List.nodup_cons] at ownDistinct
            exact ownDistinct.1
          have stillEntered : ∀ other, ∀ otherClient ∈ answersOf other rest,
              Function.update ledger number (Function.update (ledger number) client false) other
                otherClient = true := by
            intro other otherClient answered
            have wasEntered := entered other otherClient (List.mem_append_right _ answered)
            by_cases same : other = number
            · subst same
              have different : otherClient ≠ client := fun sameClient =>
                notAgain (sameClient ▸ answered)
              rwa [Function.update_self, Function.update_of_ne different]
            · rwa [Function.update_of_ne same]
          rcases ih _ (fun other => (List.nodup_append.mp (distinct other)).2.1) stillEntered with
            ⟨settled, settledEq, kept⟩
          refine ⟨settled, by simp only [settle, answers, isEntered, if_true, settledEq], ?_⟩
          intro other otherClient notAnswered
          rw [List.mem_append, not_or] at notAnswered
          rw [kept other otherClient notAnswered.2]
          by_cases same : other = number
          · subst same
            have different : otherClient ≠ client := by simpa using notAnswered.1
            rw [Function.update_self, Function.update_of_ne different]
          · rw [Function.update_of_ne same]

end Ledger

/-- A pager and its ledger, which is lost once an answer has been sent to no request. -/
structure Accounts where
  pager : Pager
  ledger : Option Ledger := some fun _ _ => false

namespace Accounts

/-- Handle an input, enter its request and settle what the handler has sent. -/
def step (accounts : Accounts) (input : Input × Callbacks) : Option Accounts :=
  (accounts.pager.handle input).map fun next =>
    { pager := next
      ledger := accounts.ledger.bind fun ledger =>
        (ledger.enter accounts.pager input.1).settle next.sent }

/-- A client asks for a page only when it has no unanswered request for it. -/
def Conforms (accounts : Accounts) (input : Input × Callbacks) : Prop :=
  ∀ client offset length access, input.1 = .dataRequest client offset length access →
    ∀ ledger ∈ accounts.ledger, ledger (offset / accounts.pager.pageSize) client = false

/-- The kernels conform, and the handler takes no branch that sends an answer unasked. -/
structure Allowed (accounts : Accounts) (input : Input × Callbacks) : Prop where
  conforms : accounts.Conforms input
  balances : ∀ number pageInput, accounts.pager.Reaches input.1 number pageInput →
    ¬(accounts.pager.page number).Unbalances pageInput

/-- Every waiting client waits on an entry of the ledger. -/
def Balanced (accounts : Accounts) : Prop :=
  ∃ ledger, accounts.ledger = some ledger ∧
    ∀ number, (accounts.pager.page number).Balanced (ledger number)

/-- Entering a request leaves the entries of the other pages and clients. -/
theorem le_enter (ledger : Ledger) (pager : Pager) (input : Input) {number : ℕ}
    {client : MachPort} (entered : ledger number client = true) :
    ledger.enter pager input number client = true := by
  cases input with
  | dataRequest asking offset length access =>
      by_cases samePage : number = offset / pager.pageSize
      · subst samePage
        by_cases sameClient : client = asking
        · simp [Ledger.enter, sameClient]
        · simp [Ledger.enter, sameClient, entered]
      · simp [Ledger.enter, samePage, entered]
  | objectInit => exact entered
  | dataUnlock => exact entered
  | dataReturn => exact entered
  | lockCompleted => exact entered
  | objectTerminate => exact entered
  | deadName => exact entered
  | lockObject => exact entered
  | shutdown => exact entered

theorem balanced_step {accounts next : Accounts} {input : Input × Callbacks}
    (quiet : accounts.pager.Quiet) (balanced : accounts.Balanced)
    (allowed : accounts.Allowed input) (taken : accounts.step input = some next) :
    next.pager.Quiet ∧ next.Balanced := by
  rcases Option.map_eq_some_iff.mp taken with ⟨pager, handled, rfl⟩
  rcases balanced with ⟨ledger, ledgerEq, pagesBalanced⟩
  rcases Pager.handle_view quiet handled with ⟨nextQuiet, -, -, projects⟩
  refine ⟨nextQuiet, ?_⟩
  have viewBalanced : ∀ number, (pager.view number).Balanced
      (ledger.enter accounts.pager input.1 number) := by
    intro number
    have entered : (accounts.pager.page number).Balanced
        (ledger.enter accounts.pager input.1 number) :=
      ⟨(pagesBalanced number).nodup, fun client clientMem =>
        le_enter ledger accounts.pager input.1 ((pagesBalanced number).asked client clientMem)⟩
    rcases projects number with same | ⟨pageInput, reached, pageHandled⟩
    · rw [same]
      exact entered
    · refine entered.handle rfl ?_
        (allowed.balances number pageInput reached) pageHandled
      rintro client write rfl
      rcases input with ⟨input, results⟩
      cases reached with
      | dataRequest running aligned =>
          refine ⟨by simp [Ledger.enter], fun waiting => ?_⟩
          have unasked := allowed.conforms _ _ _ _ rfl ledger ledgerEq
          rw [(pagesBalanced _).asked client (List.mem_append_right _ waiting)] at unasked
          cases unasked
  rcases Ledger.settle_eq_some pager.sent
    (ledger.enter accounts.pager input.1)
    (fun number => (List.nodup_append.mp (viewBalanced number).nodup).1)
    (fun number client answered =>
      (viewBalanced number).asked client (List.mem_append_left _ answered)) with
    ⟨settled, settledEq, kept⟩
  refine ⟨settled, by simp [ledgerEq, settledEq], fun number => ?_⟩
  have viewNodup := List.nodup_append.mp (viewBalanced number).nodup
  have noAnswer : (pager.page number).answered = [] := rfl
  constructor
  · rw [noAnswer]
    exact viewNodup.2.1
  · rw [noAnswer]
    intro client waiting
    rw [kept number client fun answered => viewNodup.2.2 client answered client waiting rfl]
    exact (viewBalanced number).asked client (List.mem_append_right _ waiting)

/-- Every request is answered at most once, and nothing is answered that was not asked. -/
theorem ledger_ne_none_of_reachable {pageSize : ℕ} (pageSize_pos : 0 < pageSize) (mayCache : Bool)
    (copyStrategy : ℕ) (notifyOnEvict : Bool) {accounts : Accounts}
    (reached : Transition.Reachable step Allowed
      { pager := Pager.create pageSize pageSize_pos mayCache copyStrategy notifyOnEvict }
      accounts) :
    accounts.ledger ≠ none := by
  have invariant : accounts.pager.Quiet ∧ accounts.Balanced := by
    refine reached.invariant (fun accounts => accounts.pager.Quiet ∧ accounts.Balanced)
      ⟨Pager.create_quiet _ _ _ _ _, fun _ _ => false, rfl, fun number => ?_⟩ ?_
    · rintro state next input ⟨quiet, balanced⟩ allowed taken
      exact balanced_step quiet balanced allowed taken
    · exact ⟨List.nodup_nil, fun client clientMem => absurd clientMem List.not_mem_nil⟩
  rcases invariant.2 with ⟨ledger, ledgerEq, _⟩
  rw [ledgerEq]
  exact Option.some_ne_none ledger

/--
Two clients read a page and the first asks for write access.  Both are flushed, the first
for the second time in vain, and when both have answered the page is sent to the first,
which has not asked for it again.
-/
def unaskedRun : List (Input × Callbacks) :=
  [.dataRequest 1 0 1 vmProtNone, .dataRequest 2 0 1 vmProtNone, .dataUnlock 1 0 1,
    .lockCompleted 1 0 1, .lockCompleted 2 0 1].map fun input => (input, fun _ => {})

theorem unaskedRun_loses_ledger :
    Transition.AllowedRun step Conforms unaskedRun
        { pager := Pager.create 1 (by decide) false 0 false } ∧
      ∃ accounts, Transition.run step unaskedRun
        { pager := Pager.create 1 (by decide) false 0 false } = some accounts ∧
          accounts.ledger = none := by
  refine ⟨⟨?_, ?_⟩, _, rfl, rfl⟩
  · rintro client offset length access ⟨⟩ ledger ⟨⟩
    rfl
  rintro _ ⟨⟩
  refine ⟨?_, ?_⟩
  · rintro client offset length access ⟨⟩ ledger ⟨⟩
    rfl
  -- what follows is no request
  intro state _
  refine Transition.AllowedRun.of_always ?_ state
  intro label labelMem _ client offset length access request
  simp only [List.map_cons, List.map_nil, List.mem_cons, List.not_mem_nil, or_false] at labelMem
  rcases labelMem with rfl | rfl | rfl <;> cases request

/-- A page is supplied to a reader, and a writer waits for it. -/
def askedRun : List (Input × Callbacks) :=
  [.dataRequest 1 0 1 vmProtNone, .dataRequest 2 0 1 vmProtWrite].map
    fun input => (input, fun _ => {})

theorem ledger_ne_none_after_asking :
    ∃ accounts, Transition.run step askedRun
      { pager := Pager.create 1 (by decide) false 0 false } = some accounts ∧
        accounts.ledger ≠ none := by
  refine ⟨_, rfl, ledger_ne_none_of_reachable (show 0 < 1 by decide) false 0 false
    (Transition.Reachable.start.of_run askedRun ⟨⟨?_, ?_⟩, ?_⟩ rfl)⟩
  · rintro client offset length access ⟨⟩ ledger ⟨⟩
    rfl
  · rintro number pageInput reached unbalances
    cases reached
    exact absurd unbalances.2.2.2.1 (by decide)
  · rintro _ ⟨⟩
    refine ⟨⟨?_, ?_⟩, fun _ _ => trivial⟩
    · rintro client offset length access ⟨⟩ ledger ⟨⟩
      rfl
    · rintro number pageInput reached unbalances
      cases reached
      exact absurd unbalances.2.2.2.1 (by decide)

end Accounts

end Hurd.Libpager
