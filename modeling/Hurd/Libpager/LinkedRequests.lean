import Hurd.Lib.Lockstep
import Hurd.Libpager.LinkedQueue
import Hurd.Libpager.Workers

/-!
# The worker pool on linked queues

The worker pool as it is in memory: the requests are items of the queues of `queue.h`, each is
allocated when it is enqueued and freed when it has been executed, without the lock.  Run in
lockstep with the pool whose queues are lists, it does the same, whatever addresses are used again.
-/

namespace Hurd.Libpager

/-- The queues of a pool: those found by their addresses, and one in each worker -/
inductive QueueName (workerCount : ℕ)
  | allocated (address : ℕ)
  | worker (index : Fin workerCount)
deriving DecidableEq

/-- Where a worker is in `worker_func`, and the request that `r` points to. -/
inductive LinkedActivity
  /-- after `free (r)` at the top of the loop -/
  | between
  | executing (r : Address)
  | sleeping

namespace LinkedActivity

/-- The request that the worker has to free -/
def held : LinkedActivity → Option Address
  | between => none
  | executing r => some r
  | sleeping => none

/-- The same without addresses -/
def seen (request : Address → Request) : LinkedActivity → Activity
  | between => .between
  | executing r => .executing (request r)
  | sleeping => .sleeping

end LinkedActivity

structure LinkedWorker where
  tag : ℕ := 0
  activity : LinkedActivity := .between

/--
`struct pager_requests` with the memory that it points to: the links of its queues, the requests at
their addresses, and which of these are allocated.
-/
structure LinkedRequests (workerCount : ℕ) where
  links : Links (QueueName workerCount) := ⟨fun _ => none, fun _ => none, .head⟩
  request : Address → Request := fun _ => ⟨0, 0⟩
  isAllocated : Address → Bool := fun _ => false
  queueIn : ℕ := 0
  queueOut : ℕ := 0
  asleep : ℕ := 0
  workers : Fin workerCount → LinkedWorker := fun _ => {}
  inhibiting : ℕ := 0
  enqueued : List Request := []
  started : List Request := []
  finished : List Request := []
  replacedAt : ℕ := 0
  inhibited : Bool := false

namespace LinkedRequests

variable {workerCount : ℕ}

def setWorker (linked : LinkedRequests workerCount) (index : Fin workerCount)
    (worker : LinkedWorker) : LinkedRequests workerCount :=
  { linked with workers := Function.update linked.workers index worker }

/-- The critical section of `pager_demuxer`, for the request that `malloc` has returned -/
def pagerDemuxer (linked : LinkedRequests workerCount) (r : Address) (localPort : ℕ) :
    LinkedRequests workerCount :=
  let request : Request := ⟨linked.enqueued.length, localPort⟩
  { linked with
    request := Function.update linked.request r request
    isAllocated := Function.update linked.isAllocated r true
    links := linked.links.queueEnqueue (.allocated linked.queueIn) r
    enqueued := linked.enqueued ++ [request] }

def workerOn (linked : LinkedRequests workerCount) (tag : ℕ) : Option (Fin workerCount) :=
  (List.finRange workerCount).find? fun index => (linked.workers index).tag = tag

/-- A worker leaves the lock to execute the request at an address. -/
def start (linked : LinkedRequests workerCount) (index : Fin workerCount) (r : Address) (tag : ℕ) :
    LinkedRequests workerCount :=
  { linked.setWorker index ⟨tag, .executing r⟩ with
    started := linked.started ++ [linked.request r] }

/-- `worker_func` from `get_request_locked` on; every pass dequeues a request. -/
def getRequestLocked (index : Fin workerCount) :
    ℕ → LinkedRequests workerCount → Option (LinkedRequests workerCount)
  | 0, _ => none
  | passes + 1, linked =>
      match linked.links.queueDequeue (.allocated linked.queueOut) with
      | none =>
          some { linked.setWorker index { linked.workers index with activity := .sleeping } with
            asleep := linked.asleep + 1 }
      | some (r, links) =>
          let dequeued := { linked with links := links }
          match dequeued.workerOn (dequeued.request r).localPort with
          | some other =>
              getRequestLocked index passes
                { dequeued with links := links.queueEnqueue (.worker other) r }
          | none => some (dequeued.start index r (dequeued.request r).localPort)

/-- `free (r)` -/
def free (linked : LinkedRequests workerCount) (r : Address) : LinkedRequests workerCount :=
  { linked with isAllocated := Function.update linked.isAllocated r false }

/-- The loop of `worker_func` from where it takes the lock -/
def workerFunc (linked : LinkedRequests workerCount) (index : Fin workerCount) :
    Option (LinkedRequests workerCount) :=
  match (linked.workers index).activity with
  | .between =>
      match linked.links.queueDequeue (.worker index) with
      | some (r, links) =>
          some ({ linked with links := links }.start index r (linked.workers index).tag)
      | none =>
          getRequestLocked index (linked.enqueued.length + 1)
            (linked.setWorker index { linked.workers index with tag := 0 })
  | .executing _ => none
  | .sleeping => none

/-- A worker that is woken, before it looks for a request -/
def awake (linked : LinkedRequests workerCount) (index : Fin workerCount) :
    LinkedRequests workerCount :=
  { linked.setWorker index { linked.workers index with activity := .between } with
    asleep := linked.asleep - 1 }

/-- `pthread_cond_wait (&requests->wakeup)` returns. -/
def wakeup (linked : LinkedRequests workerCount) (index : Fin workerCount) :
    Option (LinkedRequests workerCount) :=
  match (linked.workers index).activity with
  | .sleeping => getRequestLocked index (linked.enqueued.length + 1) (linked.awake index)
  | .between => none
  | .executing _ => none

/-- The routine of a request has returned, and the request is freed. -/
def finish (linked : LinkedRequests workerCount) (index : Fin workerCount) :
    Option (LinkedRequests workerCount) :=
  match (linked.workers index).activity with
  | .executing r =>
      -- no one looks at the request any more: `malloc` may as well have its memory at once
      some { (linked.free r).setWorker index
          { linked.workers index with activity := .between } with
        finished := linked.finished ++ [linked.request r] }
  | .between => none
  | .sleeping => none

/-- The loop at the end of `pager_inhibit_workers`, once the condition has been looked at. -/
def awaitDrained (linked : LinkedRequests workerCount) : LinkedRequests workerCount :=
  if linked.asleep < workerCount ∨ linked.links.queueEmpty (.allocated linked.queueOut) = false then
    { linked with inhibiting := linked.inhibiting + 1 }
  else { linked with inhibited := true }

/-- `pager_inhibit_workers`, with the address that `malloc` returns for the new queue -/
def pagerInhibitWorkers (linked : LinkedRequests workerCount) (allocated : Option ℕ) :
    Option (LinkedRequests workerCount) := do
  guard (linked.queueOut = linked.queueIn)
  match allocated with
  -- ENOMEM
  | none => some linked
  | some address =>
      guard (address ≠ linked.queueIn)
      some ({ linked with
        links := linked.links.queueInit (.allocated address)
        queueIn := address
        replacedAt := linked.enqueued.length }).awaitDrained

/-- `pthread_cond_wait (&requests->inhibit_wakeup)` returns. -/
def inhibitWakeup (linked : LinkedRequests workerCount) : Option (LinkedRequests workerCount) := do
  guard (0 < linked.inhibiting)
  some { linked with inhibiting := linked.inhibiting - 1 }.awaitDrained

def pagerResumeWorkers (linked : LinkedRequests workerCount) :
    Option (LinkedRequests workerCount) := do
  guard (linked.queueOut ≠ linked.queueIn)
  guard (linked.asleep = workerCount)
  guard (linked.links.queueEmpty (.allocated linked.queueOut) = true)
  some { linked with queueOut := linked.queueIn, inhibited := false }

/-- The address that `malloc` returns goes with a step of the pool. -/
def step (linked : LinkedRequests workerCount) :
    Address × PagerRequests.Action workerCount → Option (LinkedRequests workerCount)
  | (r, .demux localPort) => some (linked.pagerDemuxer r localPort)
  | (_, .work index) => linked.workerFunc index
  | (_, .wakeup index) => linked.wakeup index
  | (_, .finish index) => linked.finish index
  | (_, .inhibit allocated) => linked.pagerInhibitWorkers allocated
  | (_, .inhibitWakeup) => linked.inhibitWakeup
  | (_, .resume) => linked.pagerResumeWorkers

/-- `malloc` returns memory that is not in use. -/
def Fresh (linked : LinkedRequests workerCount) (act : Address × PagerRequests.Action workerCount) :
    Prop :=
  (∃ localPort, act.2 = .demux localPort) → linked.isAllocated act.1 = false

instance (linked : LinkedRequests workerCount) (act : Address × PagerRequests.Action workerCount) :
    Decidable (linked.Fresh act) :=
  match act with
  | (r, .demux localPort) => decidable_of_iff (linked.isAllocated r = false) (by simp [Fresh])
  | (_, .work _) => isTrue (by simp [Fresh])
  | (_, .wakeup _) => isTrue (by simp [Fresh])
  | (_, .finish _) => isTrue (by simp [Fresh])
  | (_, .inhibit _) => isTrue (by simp [Fresh])
  | (_, .inhibitWakeup) => isTrue (by simp [Fresh])
  | (_, .resume) => isTrue (by simp [Fresh])

/-- The request that a worker has to free -/
def held (linked : LinkedRequests workerCount) (index : Fin workerCount) : Option Address :=
  (linked.workers index).activity.held

/-- The memory is in order: the links hold these queues of requests, all of them allocated. -/
structure Sound (linked : LinkedRequests workerCount)
    (lists : QueueName workerCount → List Address) : Prop where
  holds : linked.links.Holds lists
  queued : ∀ name, ∀ r ∈ lists name, linked.isAllocated r = true
  heldAllocated : ∀ index r, linked.held index = some r → linked.isAllocated r = true
  apart : ∀ index r, linked.held index = some r → ∀ name, r ∉ lists name
  heldOnce : ∀ first second r, linked.held first = some r → linked.held second = some r →
    first = second
  numbered : ∀ name, ∀ r ∈ lists name, (linked.request r).number < linked.enqueued.length
  distinct : ∀ first second, ∀ r ∈ lists first, ∀ other ∈ lists second,
    (linked.request r).number = (linked.request other).number → r = other

/-- The pool on linked queues is the pool on lists, once the addresses are read. -/
structure Matches (linked : LinkedRequests workerCount) (requests : PagerRequests workerCount)
    (lists : QueueName workerCount → List Address) : Prop where
  queues : ∀ address, requests.queues address =
    (lists (.allocated address)).map linked.request
  workers : ∀ index, requests.workers index =
    { queue := (lists (.worker index)).map linked.request
      tag := (linked.workers index).tag
      activity := (linked.workers index).activity.seen linked.request }
  queueIn : requests.queueIn = linked.queueIn
  queueOut : requests.queueOut = linked.queueOut
  asleep : requests.asleep = linked.asleep
  inhibiting : requests.inhibiting = linked.inhibiting
  enqueued : requests.enqueued = linked.enqueued
  started : requests.started = linked.started
  finished : requests.finished = linked.finished
  replacedAt : requests.replacedAt = linked.replacedAt
  inhibited : requests.inhibited = linked.inhibited

/-- The two pools, with the queues that the links of the one hold -/
def Related (linked : LinkedRequests workerCount) (requests : PagerRequests workerCount) : Prop :=
  ∃ lists, linked.Sound lists ∧ linked.Matches requests lists

variable {linked : LinkedRequests workerCount} {requests : PagerRequests workerCount}
  {lists : QueueName workerCount → List Address} {index : Fin workerCount} {r : Address}
  {rest : List Address}

/-- No queue is longer than the requests that have ever been enqueued are many. -/
theorem Sound.length_le (sound : linked.Sound lists) (name : QueueName workerCount) :
    (lists name).length ≤ linked.enqueued.length := by
  have numbers : ((lists name).map fun r => (linked.request r).number).Nodup := by
    refine (List.nodup_map_iff_inj_on (sound.holds.distinct name)).mpr ?_
    intro r isMem other otherMem same
    exact sound.distinct name name r isMem other otherMem same
  have within : (lists name).map (fun r => (linked.request r).number) ⊆
      List.range linked.enqueued.length := by
    intro number isMem
    rcases List.mem_map.mp isMem with ⟨r, rMem, rfl⟩
    exact List.mem_range.mpr (sound.numbered name r rMem)
  have bound := (List.subperm_of_subset numbers within).length_le
  simpa using bound

theorem Matches.workerOn (isMatch : linked.Matches requests lists) (tag : ℕ) :
    requests.workerOn tag = linked.workerOn tag := by
  rw [PagerRequests.workerOn, LinkedRequests.workerOn]
  congr 1
  funext index
  rw [isMatch.workers index]

/-- What the memory is in order for -/
theorem Sound.of_same {other : LinkedRequests workerCount} (sound : linked.Sound lists)
    (sameLinks : other.links = linked.links) (sameRequest : other.request = linked.request)
    (sameAllocated : other.isAllocated = linked.isAllocated)
    (sameHeld : ∀ index, other.held index = linked.held index)
    (sameEnqueued : other.enqueued = linked.enqueued) : other.Sound lists := by
  refine ⟨?_, ?_, ?_, ?_, ?_, ?_, ?_⟩
  · rw [sameLinks]
    exact sound.holds
  · rw [sameAllocated]
    exact sound.queued
  · intro index r isHeld
    rw [sameHeld] at isHeld
    rw [sameAllocated]
    exact sound.heldAllocated index r isHeld
  · intro index r isHeld
    rw [sameHeld] at isHeld
    exact sound.apart index r isHeld
  · intro first second r firstHeld secondHeld
    rw [sameHeld] at firstHeld secondHeld
    exact sound.heldOnce first second r firstHeld secondHeld
  · rw [sameRequest, sameEnqueued]
    exact sound.numbered
  · rw [sameRequest]
    exact sound.distinct

/-- Requests are moved between the queues. -/
theorem Sound.move (sound : linked.Sound lists) {links : Links (QueueName workerCount)}
    {moved : QueueName workerCount → List Address} (holds : links.Holds moved)
    (within : ∀ name, ∀ r ∈ moved name, ∃ before, r ∈ lists before) :
    ({ linked with links := links } : LinkedRequests workerCount).Sound moved := by
  refine ⟨holds, ?_, sound.heldAllocated, ?_, sound.heldOnce, ?_, ?_⟩
  · intro name r isMem
    rcases within name r isMem with ⟨before, wasMem⟩
    exact sound.queued before r wasMem
  · intro index r isHeld name isMem
    rcases within name r isMem with ⟨before, wasMem⟩
    exact sound.apart index r isHeld before wasMem
  · intro name r isMem
    rcases within name r isMem with ⟨before, wasMem⟩
    exact sound.numbered before r wasMem
  · intro first second r isMem other otherMem same
    rcases within first r isMem with ⟨before, wasMem⟩
    rcases within second other otherMem with ⟨otherBefore, otherWas⟩
    exact sound.distinct before otherBefore r wasMem other otherWas same

/-- A worker gets another tag, and what it holds is its own or comes off a queue. -/
theorem Sound.setWorker (sound : linked.Sound lists) (index : Fin workerCount)
    (worker : LinkedWorker)
    (isHeld : ∀ r, worker.activity.held = some r → linked.isAllocated r = true ∧
      (∀ name, r ∉ lists name) ∧ ∀ other, other ≠ index → linked.held other ≠ some r) :
    (linked.setWorker index worker).Sound lists := by
  have ofOther : ∀ other, other ≠ index →
      (linked.setWorker index worker).held other = linked.held other := by
    intro other different
    simp [held, LinkedRequests.setWorker, different]
  have ofIndex : (linked.setWorker index worker).held index = worker.activity.held := by
    simp [held, LinkedRequests.setWorker]
  refine ⟨sound.holds, sound.queued, ?_, ?_, ?_, sound.numbered, sound.distinct⟩
  · intro other r held
    by_cases same : other = index
    · subst same
      exact (isHeld r (ofIndex ▸ held)).1
    · exact sound.heldAllocated other r (ofOther other same ▸ held)
  · intro other r held
    by_cases same : other = index
    · subst same
      exact (isHeld r (ofIndex ▸ held)).2.1
    · exact sound.apart other r (ofOther other same ▸ held)
  · intro first second r firstHeld secondHeld
    by_cases isFirst : first = index
    · by_cases isSecond : second = index
      · rw [isFirst, isSecond]
      · subst isFirst
        exact absurd (ofOther second isSecond ▸ secondHeld)
          ((isHeld r (ofIndex ▸ firstHeld)).2.2 second isSecond)
    · by_cases isSecond : second = index
      · subst isSecond
        exact absurd (ofOther first isFirst ▸ firstHeld)
          ((isHeld r (ofIndex ▸ secondHeld)).2.2 first isFirst)
      · exact sound.heldOnce first second r (ofOther first isFirst ▸ firstHeld)
          (ofOther second isSecond ▸ secondHeld)

/-- A request that is in no queue and that no worker has -/
structure Taken (linked : LinkedRequests workerCount) (lists : QueueName workerCount → List Address)
    (r : Address) : Prop where
  isNew : ∀ name, r ∉ lists name
  isAllocated : linked.isAllocated r = true
  notHeld : ∀ index, linked.held index ≠ some r
  isNumbered : (linked.request r).number < linked.enqueued.length
  isDistinct : ∀ name, ∀ item ∈ lists name, (linked.request item).number ≠ (linked.request r).number

/-- A request comes off a queue. -/
theorem Sound.dequeue (sound : linked.Sound lists) {name : QueueName workerCount}
    (isCons : lists name = r :: rest) :
    ∃ links, linked.links.queueDequeue name = some (r, links) ∧
      ({ linked with links := links } : LinkedRequests workerCount).Sound
        (Function.update lists name rest) ∧
      ({ linked with links := links } : LinkedRequests workerCount).Taken
        (Function.update lists name rest) r := by
  rcases sound.holds.queueDequeue_cons isCons with ⟨links, dequeued, holds⟩
  have isMem : r ∈ lists name := by simp [isCons]
  have distinct := sound.holds.distinct name
  rw [isCons, List.nodup_cons] at distinct
  have within : ∀ other, ∀ item ∈ Function.update lists name rest other, item ∈ lists other := by
    intro other item itemMem
    by_cases same : other = name
    · subst same
      rw [Function.update_self] at itemMem
      simp [isCons, itemMem]
    · rwa [Function.update_of_ne same] at itemMem
  have isNew : ∀ other, r ∉ Function.update lists name rest other := by
    intro other
    by_cases same : other = name
    · subst same
      rw [Function.update_self]
      exact distinct.1
    · rw [Function.update_of_ne same]
      exact sound.holds.notMem_other isMem same
  refine ⟨links, dequeued, sound.move holds fun other item itemMem => ⟨other, within _ _ itemMem⟩,
    isNew, sound.queued name r isMem, ?_, sound.numbered name r isMem, ?_⟩
  · intro index isHeld
    exact sound.apart index r isHeld name isMem
  · intro other item itemMem same
    have isSame := sound.distinct other name item (within other item itemMem) r isMem same
    exact isNew other (isSame ▸ itemMem)

/-- A request is put into the queue of a worker. -/
theorem Sound.delegate (sound : linked.Sound lists) (taken : linked.Taken lists r)
    (name : QueueName workerCount) :
    ({ linked with links := linked.links.queueEnqueue name r } : LinkedRequests workerCount).Sound
      (Function.update lists name (lists name ++ [r])) := by
  have within : ∀ other, ∀ item ∈ Function.update lists name (lists name ++ [r]) other,
      item ∈ lists other ∨ item = r := by
    intro other item itemMem
    by_cases same : other = name
    · subst same
      simpa using itemMem
    · rw [Function.update_of_ne same] at itemMem
      exact .inl itemMem
  refine ⟨sound.holds.queueEnqueue _ taken.isNew, ?_, sound.heldAllocated, ?_, sound.heldOnce,
    ?_, ?_⟩
  · intro other item itemMem
    rcases within other item itemMem with isOld | rfl
    · exact sound.queued other item isOld
    · exact taken.isAllocated
  · intro index item isHeld other itemMem
    rcases within other item itemMem with isOld | rfl
    · exact sound.apart index item isHeld other isOld
    · exact taken.notHeld index isHeld
  · intro other item itemMem
    rcases within other item itemMem with isOld | rfl
    · exact sound.numbered other item isOld
    · exact taken.isNumbered
  · intro first second item itemMem another anotherMem same
    rcases within first item itemMem with isOld | rfl
    · rcases within second another anotherMem with anotherOld | rfl
      · exact sound.distinct first second item isOld another anotherOld same
      · exact absurd same (taken.isDistinct first item isOld)
    · rcases within second another anotherMem with anotherOld | rfl
      · exact absurd same.symm (taken.isDistinct second another anotherOld)
      · rfl

/-- A worker changes in both pools alike. -/
theorem Matches.setWorker (isMatch : linked.Matches requests lists) {worker : Worker}
    {linkedWorker : LinkedWorker} (isWorker : worker =
      { queue := (lists (.worker index)).map linked.request
        tag := linkedWorker.tag
        activity := linkedWorker.activity.seen linked.request }) (other : Fin workerCount) :
    Function.update requests.workers index worker other =
      { queue := (lists (.worker other)).map linked.request
        tag := (Function.update linked.workers index linkedWorker other).tag
        activity := (Function.update linked.workers index linkedWorker other).activity.seen
          linked.request } := by
  by_cases same : other = index
  · subst same
    simp [isWorker]
  · simpa [same] using isMatch.workers other

/-- A queue found by its address changes in both pools alike. -/
theorem Matches.setQueue (isMatch : linked.Matches requests lists) (address : ℕ)
    (items : List Address) (other : ℕ) :
    Function.update requests.queues address (items.map linked.request) other =
      (Function.update lists (.allocated address) items (.allocated other)).map linked.request := by
  by_cases same : other = address
  · subst same
    simp
  · have different : QueueName.allocated other ≠ (.allocated address : QueueName workerCount) := by
      simpa using same
    rw [Function.update_of_ne same, Function.update_of_ne different]
    exact isMatch.queues other

/-- Delegating a request to a worker -/
theorem Matches.delegate (isMatch : linked.Matches requests lists) (other : Fin workerCount)
    (r : Address) :
    ({ linked with links := linked.links.queueEnqueue (.worker other) r } :
      LinkedRequests workerCount).Matches
        (requests.setWorker other { requests.workers other with
          queue := Hurd.Libpager.queueEnqueue (requests.workers other).queue (linked.request r) })
        (Function.update lists (.worker other) (lists (.worker other) ++ [r])) := by
  refine ⟨?_, ?_, isMatch.queueIn, isMatch.queueOut, isMatch.asleep, isMatch.inhibiting,
    isMatch.enqueued, isMatch.started, isMatch.finished, isMatch.replacedAt, isMatch.inhibited⟩
  · intro address
    simpa [PagerRequests.setWorker] using isMatch.queues address
  · intro index
    by_cases same : index = other
    · subst same
      simp [PagerRequests.setWorker, isMatch.workers index, Hurd.Libpager.queueEnqueue]
    · simpa [PagerRequests.setWorker, same] using isMatch.workers index

/-- A worker that takes a request holds it from then on. -/
theorem Sound.start (sound : linked.Sound lists) (taken : linked.Taken lists r)
    (index : Fin workerCount) (tag : ℕ) : (linked.start index r tag).Sound lists := by
  have started := sound.setWorker index ⟨tag, .executing r⟩ (by
    rintro item ⟨⟩
    exact ⟨taken.isAllocated, taken.isNew, fun other _ => taken.notHeld other⟩)
  exact started.of_same rfl rfl rfl (fun _ => rfl) rfl

theorem Matches.start (isMatch : linked.Matches requests lists) (index : Fin workerCount)
    (r : Address) (tag : ℕ) :
    (linked.start index r tag).Matches
      (requests.start index (linked.request r) { requests.workers index with tag := tag })
      lists := by
  refine ⟨isMatch.queues, isMatch.setWorker ?_, isMatch.queueIn, isMatch.queueOut, isMatch.asleep,
    isMatch.inhibiting, isMatch.enqueued, congrArg (· ++ [linked.request r]) isMatch.started,
    isMatch.finished, isMatch.replacedAt, isMatch.inhibited⟩
  rw [isMatch.workers index]
  rfl

/-- A request comes off a global queue. -/
theorem Matches.dequeue (isMatch : linked.Matches requests lists)
    (links : Links (QueueName workerCount)) (rest : List Address) :
    ({ linked with links := links } : LinkedRequests workerCount).Matches
      (requests.setQueue linked.queueOut (rest.map linked.request))
      (Function.update lists (.allocated linked.queueOut) rest) :=
  ⟨isMatch.setQueue linked.queueOut rest, isMatch.workers, isMatch.queueIn, isMatch.queueOut,
    isMatch.asleep, isMatch.inhibiting, isMatch.enqueued, isMatch.started, isMatch.finished,
    isMatch.replacedAt, isMatch.inhibited⟩

/-- The loop of `worker_func` ends, and does what it does on lists. -/
theorem getRequestLocked_related {passes : ℕ} (sound : linked.Sound lists)
    (isMatch : linked.Matches requests lists)
    (enough : (lists (.allocated linked.queueOut)).length < passes)
    (noneHeld : linked.held index = none) :
    ∃ next, linked.getRequestLocked index passes = some next ∧
      next.Related (PagerRequests.getRequestLocked index (requests.queues requests.queueOut)
        requests) := by
  rw [isMatch.queueOut, isMatch.queues]
  generalize isItems : lists (.allocated linked.queueOut) = items at enough
  induction items generalizing linked requests lists passes with
  | nil =>
      cases passes with
      | zero => simp at enough
      | succ passes =>
          refine ⟨_, by rw [LinkedRequests.getRequestLocked, sound.holds.queueDequeue_nil isItems],
            lists, ?_, ?_⟩
          · have asleep := sound.setWorker index { linked.workers index with activity := .sleeping } (by
              intro r isHeld
              cases isHeld)
            exact asleep.of_same rfl rfl rfl (fun _ => rfl) rfl
          · exact ⟨isMatch.queues, isMatch.setWorker (by rw [isMatch.workers index]; rfl),
              isMatch.queueIn, isMatch.queueOut, congrArg (· + 1) isMatch.asleep,
              isMatch.inhibiting, isMatch.enqueued, isMatch.started, isMatch.finished,
              isMatch.replacedAt, isMatch.inhibited⟩
  | cons r rest ih =>
      cases passes with
      | zero => simp at enough
      | succ passes =>
          rcases sound.dequeue isItems with ⟨links, dequeued, soundRest, taken⟩
          have matchRest := isMatch.dequeue links rest
          have isOn := matchRest.workerOn (linked.request r).localPort
          rw [LinkedRequests.getRequestLocked, dequeued, List.map_cons,
            PagerRequests.getRequestLocked, isMatch.queueOut]
          dsimp only
          rw [isOn]
          generalize ({ linked with links := links } : LinkedRequests workerCount).workerOn
            (linked.request r).localPort = on
          cases on with
          | some other =>
              exact ih (soundRest.delegate taken (.worker other)) (matchRest.delegate other r)
                noneHeld (by simp) (by simpa using enough)
          | none => exact ⟨_, rfl, _, soundRest.start taken index _, matchRest.start index r _⟩

/-- `malloc`, and the message copied into it -/
def allocate (linked : LinkedRequests workerCount) (r : Address) (request : Request) :
    LinkedRequests workerCount :=
  { linked with
    request := Function.update linked.request r request
    isAllocated := Function.update linked.isAllocated r true
    enqueued := linked.enqueued ++ [request] }

theorem seen_update {activity : LinkedActivity} (notHeld : activity.held ≠ some r)
    (request : Address → Request) (other : Request) :
    activity.seen (Function.update request r other) = activity.seen request := by
  cases activity with
  | between => rfl
  | executing item =>
      have different : item ≠ r := fun same => notHeld (congrArg some same)
      simp [LinkedActivity.seen, different]
  | sleeping => rfl

section Allocate

variable {localPort : ℕ}

theorem Sound.notQueued (sound : linked.Sound lists) (isFresh : linked.isAllocated r = false)
    (name : QueueName workerCount) : r ∉ lists name := by
  intro isMem
  have isAllocated := sound.queued name r isMem
  rw [isFresh] at isAllocated
  cases isAllocated

theorem Sound.notHeld (sound : linked.Sound lists) (isFresh : linked.isAllocated r = false)
    (index : Fin workerCount) : linked.held index ≠ some r := by
  intro isHeld
  have isAllocated := sound.heldAllocated index r isHeld
  rw [isFresh] at isAllocated
  cases isAllocated

theorem Sound.request_update (sound : linked.Sound lists) (isFresh : linked.isAllocated r = false)
    {name : QueueName workerCount} {item : Address} (itemMem : item ∈ lists name)
    (request : Request) : Function.update linked.request r request item = linked.request item := by
  apply Function.update_of_ne
  rintro rfl
  exact sound.notQueued isFresh name itemMem

theorem Sound.allocate (sound : linked.Sound lists) (isFresh : linked.isAllocated r = false)
    (localPort : ℕ) :
    (linked.allocate r ⟨linked.enqueued.length, localPort⟩).Sound lists ∧
      (linked.allocate r ⟨linked.enqueued.length, localPort⟩).Taken lists r := by
  have stays : ∀ item, linked.isAllocated item = true →
      Function.update linked.isAllocated r true item = true := by
    intro item isAllocated
    by_cases same : item = r
    · simp [same]
    · rwa [Function.update_of_ne same]
  have sameRequest := fun (name : QueueName workerCount) (item : Address)
    (itemMem : item ∈ lists name) =>
      sound.request_update isFresh itemMem ⟨linked.enqueued.length, localPort⟩
  constructor
  · refine ⟨sound.holds, ?_, ?_, sound.apart, sound.heldOnce, ?_, ?_⟩
    · intro name item itemMem
      exact stays item (sound.queued name item itemMem)
    · intro index item isHeld
      exact stays item (sound.heldAllocated index item isHeld)
    · intro name item itemMem
      have before := sound.numbered name item itemMem
      simp only [LinkedRequests.allocate, sameRequest name item itemMem, List.length_append,
        List.length_singleton]
      omega
    · intro first second item itemMem other otherMem
      simp only [LinkedRequests.allocate, sameRequest first item itemMem,
        sameRequest second other otherMem]
      exact sound.distinct first second item itemMem other otherMem
  · refine ⟨sound.notQueued isFresh, by simp [LinkedRequests.allocate], sound.notHeld isFresh,
      by simp [LinkedRequests.allocate], ?_⟩
    intro name item itemMem
    have before := sound.numbered name item itemMem
    simp only [LinkedRequests.allocate, sameRequest name item itemMem, Function.update_self]
    omega

/-- A request in a new piece of memory goes to the end of `queue_in`. -/
theorem pagerDemuxer_related (sound : linked.Sound lists) (isMatch : linked.Matches requests lists)
    (isFresh : linked.isAllocated r = false) :
    (linked.pagerDemuxer r localPort).Related (requests.pagerDemuxer localPort) := by
  rcases sound.allocate isFresh localPort with ⟨soundNew, taken⟩
  have sameMap : ∀ name, (lists name).map
      (Function.update linked.request r ⟨linked.enqueued.length, localPort⟩) =
        (lists name).map linked.request :=
    fun name => List.map_congr_left fun item itemMem => sound.request_update isFresh itemMem _
  have isRequest : (linked.pagerDemuxer r localPort).request =
      Function.update linked.request r ⟨linked.enqueued.length, localPort⟩ := rfl
  refine ⟨_, soundNew.delegate taken (.allocated linked.queueIn), ?_⟩
  refine ⟨?_, ?_, isMatch.queueIn, isMatch.queueOut, isMatch.asleep, isMatch.inhibiting, ?_,
    isMatch.started, isMatch.finished, isMatch.replacedAt, isMatch.inhibited⟩
  · intro address
    rw [isRequest]
    by_cases same : address = linked.queueIn
    · simp [PagerRequests.pagerDemuxer, PagerRequests.setQueue, same, isMatch.queueIn,
        isMatch.queues, isMatch.enqueued, sameMap, Hurd.Libpager.queueEnqueue]
    · simp [PagerRequests.pagerDemuxer, PagerRequests.setQueue, same, isMatch.queueIn,
        isMatch.queues, sameMap]
  · intro index
    have sameSeen := seen_update (sound.notHeld isFresh index) linked.request
      ⟨linked.enqueued.length, localPort⟩
    have sameWorkers : (linked.pagerDemuxer r localPort).workers = linked.workers := rfl
    rw [isRequest, sameWorkers, sameSeen, Function.update_of_ne (by simp), sameMap]
    exact isMatch.workers index
  · change requests.enqueued ++ [⟨requests.enqueued.length, localPort⟩] =
      linked.enqueued ++ [⟨linked.enqueued.length, localPort⟩]
    rw [isMatch.enqueued]

end Allocate

/-- `free (r)`, for the request that a worker has executed -/
theorem Sound.free (sound : linked.Sound lists) (isHeld : linked.held index = some r) (tag : ℕ) :
    ((linked.free r).setWorker index ⟨tag, .between⟩).Sound lists := by
  have released := sound.setWorker index ⟨tag, .between⟩ (by
    intro item isHeld
    cases isHeld)
  have ofOther : ∀ other item,
      (linked.setWorker index ⟨tag, .between⟩).held other = some item → item ≠ r := by
    rintro other item otherHeld rfl
    by_cases same : other = index
    · subst same
      simp [held, LinkedRequests.setWorker, LinkedActivity.held] at otherHeld
    · have before : linked.held other = some item := by
        simpa [held, LinkedRequests.setWorker, same] using otherHeld
      exact same (sound.heldOnce other index item before isHeld)
  refine ⟨released.holds, ?_, ?_, released.apart, released.heldOnce, released.numbered,
    released.distinct⟩
  · intro name item itemMem
    have different : item ≠ r := by
      rintro rfl
      exact sound.apart index item isHeld name itemMem
    simpa [LinkedRequests.free, LinkedRequests.setWorker, different] using
      sound.queued name item itemMem
  · intro other item otherHeld
    have different := ofOther other item otherHeld
    simpa [LinkedRequests.free, LinkedRequests.setWorker, different] using
      released.heldAllocated other item otherHeld

/-- A worker takes the first request of its own queue. -/
theorem Matches.startOwn (isMatch : linked.Matches requests lists)
    (links : Links (QueueName workerCount)) (r : Address) (rest : List Address) :
    (({ linked with links := links } : LinkedRequests workerCount).start index r
      (linked.workers index).tag).Matches
        (requests.start index (linked.request r)
          { requests.workers index with queue := rest.map linked.request })
        (Function.update lists (.worker index) rest) := by
  refine ⟨?_, ?_, isMatch.queueIn, isMatch.queueOut, isMatch.asleep, isMatch.inhibiting,
    isMatch.enqueued, congrArg (· ++ [linked.request r]) isMatch.started, isMatch.finished,
    isMatch.replacedAt, isMatch.inhibited⟩
  · intro address
    simpa [PagerRequests.start, PagerRequests.setWorker, LinkedRequests.start,
      LinkedRequests.setWorker] using isMatch.queues address
  · intro other
    by_cases same : other = index
    · subst same
      simp [PagerRequests.start, PagerRequests.setWorker, LinkedRequests.start,
        LinkedRequests.setWorker, isMatch.workers other, LinkedActivity.seen]
    · simpa [PagerRequests.start, PagerRequests.setWorker, LinkedRequests.start,
        LinkedRequests.setWorker, same] using isMatch.workers other

theorem workerFunc_related (sound : linked.Sound lists) (isMatch : linked.Matches requests lists)
    (index : Fin workerCount) :
    Option.Rel Related (linked.workerFunc index) (requests.workerFunc index) := by
  have isWorker := isMatch.workers index
  rw [LinkedRequests.workerFunc]
  cases isActivity : (linked.workers index).activity with
  | executing r =>
      rw [isActivity] at isWorker
      simp [PagerRequests.workerFunc, isWorker, LinkedActivity.seen]
  | sleeping =>
      rw [isActivity] at isWorker
      simp [PagerRequests.workerFunc, isWorker, LinkedActivity.seen]
  | between =>
      rw [isActivity] at isWorker
      have plainBetween : (requests.workers index).activity = .between := by
        rw [isWorker]
        rfl
      cases isQueue : lists (.worker index) with
      | nil =>
          have noQueue : (requests.workers index).queue = [] := by
            rw [isWorker, isQueue]
            rfl
          have isPlain : requests.workerFunc index = some (PagerRequests.getRequestLocked index
              ((requests.setWorker index { requests.workers index with tag := 0 }).queues
                (requests.setWorker index { requests.workers index with tag := 0 }).queueOut)
              (requests.setWorker index { requests.workers index with tag := 0 })) := by
            simp [PagerRequests.workerFunc, plainBetween, noQueue, queueDequeue]
          have noTag := sound.setWorker index { linked.workers index with tag := 0 } (by
            rw [isActivity]
            intro r isHeld
            cases isHeld)
          have matchNoTag : (linked.setWorker index { linked.workers index with tag := 0 }).Matches
              (requests.setWorker index { requests.workers index with tag := 0 }) lists :=
            ⟨isMatch.queues, isMatch.setWorker (by rw [isWorker, isActivity]), isMatch.queueIn,
              isMatch.queueOut, isMatch.asleep, isMatch.inhibiting, isMatch.enqueued,
              isMatch.started, isMatch.finished, isMatch.replacedAt, isMatch.inhibited⟩
          have noneHeld : (linked.setWorker index
              { linked.workers index with tag := 0 }).held index = none := by
            simp [held, LinkedRequests.setWorker, isActivity, LinkedActivity.held]
          rcases getRequestLocked_related noTag matchNoTag
            (Nat.lt_succ_of_le (noTag.length_le (.allocated linked.queueOut))) noneHeld with
            ⟨next, isNext, related⟩
          rw [sound.holds.queueDequeue_nil isQueue, isPlain]
          exact isNext ▸ .some related
      | cons r rest =>
          have isPlain : requests.workerFunc index = some (requests.start index (linked.request r)
              { requests.workers index with queue := rest.map linked.request }) := by
            simp [PagerRequests.workerFunc, isWorker, isQueue, queueDequeue, LinkedActivity.seen]
          rcases sound.dequeue isQueue with ⟨links, dequeued, soundRest, taken⟩
          rw [dequeued, isPlain]
          exact .some ⟨_, soundRest.start taken index _, isMatch.startOwn links r rest⟩

theorem wakeup_related (sound : linked.Sound lists) (isMatch : linked.Matches requests lists)
    (index : Fin workerCount) :
    Option.Rel Related (linked.wakeup index) (requests.wakeup index) := by
  have isWorker := isMatch.workers index
  rw [LinkedRequests.wakeup]
  cases isActivity : (linked.workers index).activity with
  | executing r =>
      rw [isActivity] at isWorker
      simp [PagerRequests.wakeup, isWorker, LinkedActivity.seen]
  | between =>
      rw [isActivity] at isWorker
      simp [PagerRequests.wakeup, isWorker, LinkedActivity.seen]
  | sleeping =>
      rw [isActivity] at isWorker
      have isSleeping : (requests.workers index).activity = .sleeping := by
        rw [isWorker]
        rfl
      have isPlain : requests.wakeup index = some (PagerRequests.getRequestLocked index
          ((requests.awake index).queues (requests.awake index).queueOut)
          (requests.awake index)) := by
        simp [PagerRequests.wakeup, isSleeping, PagerRequests.awake]
      have notHolding := sound.setWorker index
        { linked.workers index with activity := .between } (by
          intro r isHeld
          cases isHeld)
      have soundAwake : (linked.awake index).Sound lists :=
        notHolding.of_same rfl rfl rfl (fun _ => rfl) rfl
      have matchAwake : (linked.awake index).Matches (requests.awake index) lists :=
        ⟨isMatch.queues, isMatch.setWorker (by rw [isWorker]; rfl), isMatch.queueIn,
          isMatch.queueOut, congrArg (· - 1) isMatch.asleep, isMatch.inhibiting, isMatch.enqueued,
          isMatch.started, isMatch.finished, isMatch.replacedAt, isMatch.inhibited⟩
      have noneHeld : (linked.awake index).held index = none := by
        simp [held, LinkedRequests.awake, LinkedRequests.setWorker, LinkedActivity.held]
      rcases getRequestLocked_related soundAwake matchAwake
        (Nat.lt_succ_of_le (soundAwake.length_le (.allocated linked.queueOut))) noneHeld with
        ⟨next, isNext, related⟩
      rw [isPlain]
      exact isNext ▸ .some related

theorem finish_related (sound : linked.Sound lists) (isMatch : linked.Matches requests lists)
    (index : Fin workerCount) :
    Option.Rel Related (linked.finish index) (requests.finish index) := by
  have isWorker := isMatch.workers index
  rw [LinkedRequests.finish]
  cases isActivity : (linked.workers index).activity with
  | sleeping =>
      rw [isActivity] at isWorker
      simp [PagerRequests.finish, isWorker, LinkedActivity.seen]
  | between =>
      rw [isActivity] at isWorker
      simp [PagerRequests.finish, isWorker, LinkedActivity.seen]
  | executing r =>
      rw [isActivity] at isWorker
      have isHeld : linked.held index = some r := by
        rw [held, isActivity]
        rfl
      have isPlain : requests.finish index = some { requests.setWorker index
          { requests.workers index with activity := .between } with
          finished := requests.finished ++ [linked.request r] } := by
        simp [PagerRequests.finish, isWorker, LinkedActivity.seen]
      have returned := sound.free isHeld (linked.workers index).tag
      rw [isPlain]
      exact .some ⟨lists, returned.of_same rfl rfl rfl (fun _ => rfl) rfl,
        isMatch.queues, isMatch.setWorker (by rw [isWorker]; rfl), isMatch.queueIn,
        isMatch.queueOut, isMatch.asleep, isMatch.inhibiting, isMatch.enqueued, isMatch.started,
        congrArg (· ++ [linked.request r]) isMatch.finished, isMatch.replacedAt,
        isMatch.inhibited⟩

theorem drained_related (sound : linked.Sound lists) (isMatch : linked.Matches requests lists) :
    requests.drained = true ↔ ¬(linked.asleep < workerCount ∨
      linked.links.queueEmpty (.allocated linked.queueOut) = false) := by
  rw [sound.holds.queueEmpty, PagerRequests.drained, isMatch.asleep, isMatch.queueOut,
    isMatch.queues]
  simp

theorem awaitDrained_related (sound : linked.Sound lists) (isMatch : linked.Matches requests lists) :
    linked.awaitDrained.Related requests.awaitDrained := by
  have sameTest := drained_related sound isMatch
  rw [LinkedRequests.awaitDrained, PagerRequests.awaitDrained]
  split_ifs with notDrained isDrained isDrained
  · exact absurd notDrained (sameTest.mp isDrained)
  · exact ⟨lists, sound.of_same rfl rfl rfl (fun _ => rfl) rfl, isMatch.queues, isMatch.workers,
      isMatch.queueIn, isMatch.queueOut, isMatch.asleep, congrArg (· + 1) isMatch.inhibiting,
      isMatch.enqueued, isMatch.started, isMatch.finished, isMatch.replacedAt, isMatch.inhibited⟩
  · exact ⟨lists, sound.of_same rfl rfl rfl (fun _ => rfl) rfl, isMatch.queues, isMatch.workers,
      isMatch.queueIn, isMatch.queueOut, isMatch.asleep, isMatch.inhibiting, isMatch.enqueued,
      isMatch.started, isMatch.finished, isMatch.replacedAt, rfl⟩
  · exact absurd (sameTest.mpr notDrained) isDrained

/-- A queue that has just been initialized is empty in both pools. -/
theorem newQueue_related (sound : linked.Sound lists) (isMatch : linked.Matches requests lists)
    (address : ℕ) :
    Related
      ({ linked with
        links := linked.links.queueInit (.allocated address)
        queueIn := address
        replacedAt := linked.enqueued.length } : LinkedRequests workerCount)
      { requests.setQueue address [] with
        queueIn := address
        replacedAt := requests.enqueued.length } := by
  have within : ∀ name, ∀ r ∈ Function.update lists (.allocated address) [] name,
      ∃ before, r ∈ lists before := by
    intro name r isMem
    by_cases same : name = .allocated address
    · subst same
      simp at isMem
    · rw [Function.update_of_ne same] at isMem
      exact ⟨name, isMem⟩
  have moved := sound.move (sound.holds.queueInit (.allocated address)) within
  refine ⟨_, moved.of_same rfl rfl rfl (fun _ => rfl) rfl, isMatch.setQueue address [], ?_, rfl,
    isMatch.queueOut, isMatch.asleep, isMatch.inhibiting, isMatch.enqueued, isMatch.started,
    isMatch.finished, congrArg List.length isMatch.enqueued, isMatch.inhibited⟩
  intro index
  simpa [PagerRequests.setQueue] using isMatch.workers index

theorem pagerInhibitWorkers_related (sound : linked.Sound lists)
    (isMatch : linked.Matches requests lists) (allocated : Option ℕ) :
    Option.Rel Related (linked.pagerInhibitWorkers allocated)
      (requests.pagerInhibitWorkers allocated) := by
  have sameTest : linked.queueOut = linked.queueIn ↔ requests.queueOut = requests.queueIn := by
    rw [isMatch.queueIn, isMatch.queueOut]
  unfold LinkedRequests.pagerInhibitWorkers PagerRequests.pagerInhibitWorkers
  refine Lockstep.guarded sameTest fun _ => ?_
  cases allocated with
  | none => exact .some ⟨lists, sound, isMatch⟩
  | some address =>
      refine Lockstep.guarded (by rw [isMatch.queueIn]) fun _ => ?_
      rcases newQueue_related sound isMatch address with ⟨_, soundNew, matchNew⟩
      exact .some (awaitDrained_related soundNew matchNew)

theorem inhibitWakeup_related (sound : linked.Sound lists)
    (isMatch : linked.Matches requests lists) :
    Option.Rel Related linked.inhibitWakeup requests.inhibitWakeup := by
  refine Lockstep.guarded (by rw [isMatch.inhibiting]) fun _ => ?_
  have soundWoken : ({ linked with inhibiting := linked.inhibiting - 1 } :
      LinkedRequests workerCount).Sound lists := sound.of_same rfl rfl rfl (fun _ => rfl) rfl
  refine .some (awaitDrained_related soundWoken ?_)
  exact ⟨isMatch.queues, isMatch.workers, isMatch.queueIn, isMatch.queueOut, isMatch.asleep,
    congrArg (· - 1) isMatch.inhibiting, isMatch.enqueued, isMatch.started, isMatch.finished,
    isMatch.replacedAt, isMatch.inhibited⟩

theorem pagerResumeWorkers_related (sound : linked.Sound lists)
    (isMatch : linked.Matches requests lists) :
    Option.Rel Related linked.pagerResumeWorkers requests.pagerResumeWorkers := by
  have sameEmpty : linked.links.queueEmpty (.allocated linked.queueOut) =
      (requests.queues requests.queueOut).isEmpty := by
    rw [sound.holds.queueEmpty, isMatch.queueOut, isMatch.queues, List.isEmpty_map]
  refine Lockstep.guarded (by rw [isMatch.queueIn, isMatch.queueOut]) fun _ => ?_
  refine Lockstep.guarded (by rw [isMatch.asleep]) fun _ => ?_
  refine Lockstep.guarded (by rw [sameEmpty]) fun _ => ?_
  exact .some ⟨lists, sound.of_same rfl rfl rfl (fun _ => rfl) rfl, isMatch.queues,
    isMatch.workers, isMatch.queueIn, isMatch.queueIn, isMatch.asleep, isMatch.inhibiting,
    isMatch.enqueued, isMatch.started, isMatch.finished, isMatch.replacedAt, rfl⟩

theorem step_related (related : linked.Related requests)
    {act : Address × PagerRequests.Action workerCount} (isFresh : linked.Fresh act) :
    Option.Rel Related (linked.step act) (requests.step act.2) := by
  rcases related with ⟨lists, sound, isMatch⟩
  rcases act with ⟨r, action⟩
  cases action with
  | demux localPort => exact .some (pagerDemuxer_related sound isMatch (isFresh ⟨localPort, rfl⟩))
  | work index => exact workerFunc_related sound isMatch index
  | wakeup index => exact wakeup_related sound isMatch index
  | finish index => exact finish_related sound isMatch index
  | inhibit allocated => exact pagerInhibitWorkers_related sound isMatch allocated
  | inhibitWakeup => exact inhibitWakeup_related sound isMatch
  | resume => exact pagerResumeWorkers_related sound isMatch

/-- A pool that has not started: its queues are empty, and nothing is allocated. -/
theorem related_initially : ({} : LinkedRequests workerCount).Related {} := by
  refine ⟨fun _ => [], ⟨⟨?_, ?_, ?_, ?_⟩, ?_, ?_, ?_, ?_, ?_, ?_⟩, ?_⟩
  · exact fun _ => rfl
  · exact fun _ => rfl
  · exact fun _ => List.nodup_nil
  · exact fun _ _ _ => List.disjoint_nil_left []
  · simp
  · simp [held, LinkedActivity.held]
  · simp
  · simp [held, LinkedActivity.held]
  · simp
  · simp
  · exact ⟨fun _ => rfl, fun _ => rfl, rfl, rfl, rfl, rfl, rfl, rfl, rfl, rfl, rfl⟩

/--
In every run in which `malloc` returns memory that is not in use, the pool in memory does what the
pool of lists does, and each request that is queued or held by a worker is allocated.
-/
theorem run_inLockstep (acts : List (Address × PagerRequests.Action workerCount))
    (isFresh : Transition.AllowedRun step Fresh acts ({} : LinkedRequests workerCount)) :
    Option.Rel Related (Transition.run step acts ({} : LinkedRequests workerCount))
      (Transition.run PagerRequests.step (acts.map Prod.snd) {}) := by
  rw [Transition.run_map]
  exact Lockstep.run (fun related isFresh => step_related related isFresh) isFresh
    related_initially

/-- A request is delegated, and the memory of the one before it is used for a third one. -/
def reusingRun (first second : Fin 2) : List (Address × PagerRequests.Action 2) :=
  [(0, .work first), (0, .work second), (7, .demux 5), (0, .wakeup first), (8, .demux 5),
    (0, .wakeup second), (0, .finish first), (7, .demux 6), (0, .work first), (0, .wakeup second)]

theorem run_inLockstep_reusing :
    (Transition.run PagerRequests.step ((reusingRun 0 1).map Prod.snd) ({} : PagerRequests 2)).map
        PagerRequests.started = some [⟨0, 5⟩, ⟨1, 5⟩, ⟨2, 6⟩] ∧
      Option.Rel Related (Transition.run step (reusingRun 0 1) ({} : LinkedRequests 2))
        (Transition.run PagerRequests.step ((reusingRun 0 1).map Prod.snd) {}) := by
  exact ⟨rfl, run_inLockstep (reusingRun 0 1) (by decide)⟩

end LinkedRequests

end Hurd.Libpager
