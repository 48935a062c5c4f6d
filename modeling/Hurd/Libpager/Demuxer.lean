import Hurd.Lib.Transition
import Mathlib.Data.List.FinRange
import Mathlib.Logic.Function.Basic

/-!
# The worker pool of libpager

One thread receives messages and puts them into a queue; a fixed number of workers execute
them.  What a thread does between taking and releasing the lock is one step.  A routine is
executed outside the lock, so that its start and its end are steps of their own.

A thread that waits for a condition may be woken at any time.  This covers every signal that
arrives late and every wake-up that nobody signalled, and the conditions themselves need not
be kept.
-/

namespace Hurd.Libpager

/-- `struct request`, numbered as the demuxer enqueues them. -/
structure Request where
  number : ℕ
  localPort : ℕ
deriving DecidableEq

/-- `struct queue`, from the head to the tail -/
abbrev Queue := List Request

def queueEnqueue (queue : Queue) (request : Request) : Queue := queue ++ [request]

def queueDequeue : Queue → Option (Request × Queue)
  | [] => none
  | request :: rest => some (request, rest)

/-- Where a worker is in `worker_func`. -/
inductive Activity
  /-- before it takes the lock at the top of the loop -/
  | between
  /-- in `(*r->routine)` -/
  | executing (request : Request)
  /-- in `pthread_cond_wait (&requests->wakeup)` -/
  | sleeping
deriving DecidableEq

/-- `struct worker` -/
structure Worker where
  queue : Queue := []
  tag : ℕ := 0
  activity : Activity := .between

/--
`struct pager_requests` of a pool of `workerCount` workers.  The queues are found by their
addresses, and `inhibiting` threads are waiting in `pager_inhibit_workers`.

The rest is a record of the run that no function looks at: the requests in the order in which they
were enqueued, started and finished, how many had been enqueued when `queue_in` was last
replaced, and whether `pager_inhibit_workers` has returned and nobody has called
`pager_resume_workers` since.
-/
structure PagerRequests (workerCount : ℕ) where
  queues : ℕ → Queue := fun _ => []
  queueIn : ℕ := 0
  queueOut : ℕ := 0
  asleep : ℕ := 0
  workers : Fin workerCount → Worker := fun _ => {}
  inhibiting : ℕ := 0
  enqueued : List Request := []
  started : List Request := []
  finished : List Request := []
  replacedAt : ℕ := 0
  inhibited : Bool := false

namespace PagerRequests

variable {workerCount : ℕ}

def setQueue (requests : PagerRequests workerCount) (address : ℕ) (queue : Queue) :
    PagerRequests workerCount :=
  { requests with queues := Function.update requests.queues address queue }

def setWorker (requests : PagerRequests workerCount) (index : Fin workerCount) (worker : Worker) :
    PagerRequests workerCount :=
  { requests with workers := Function.update requests.workers index worker }

/-- The critical section of `pager_demuxer`. -/
def pagerDemuxer (requests : PagerRequests workerCount) (localPort : ℕ) :
    PagerRequests workerCount :=
  let request : Request := ⟨requests.enqueued.length, localPort⟩
  { requests.setQueue requests.queueIn
      (queueEnqueue (requests.queues requests.queueIn) request) with
    enqueued := requests.enqueued ++ [request] }

/-- The worker that has the tag, the first if there are several. -/
def workerOn (requests : PagerRequests workerCount) (tag : ℕ) : Option (Fin workerCount) :=
  (List.finRange workerCount).find? fun index => (requests.workers index).tag = tag

/-- A worker leaves the lock to execute a request. -/
def start (requests : PagerRequests workerCount) (index : Fin workerCount) (request : Request)
    (worker : Worker) : PagerRequests workerCount :=
  { requests.setWorker index { worker with activity := .executing request } with
    started := requests.started ++ [request] }

/--
`worker_func` from `get_request_locked` on, with the requests that are left in `queue_out`: those
to an object that some worker has the tag of are delegated to it.
-/
def getRequestLocked (index : Fin workerCount) :
    Queue → PagerRequests workerCount → PagerRequests workerCount
  | [], requests =>
      { requests.setWorker index { requests.workers index with activity := .sleeping } with
        asleep := requests.asleep + 1 }
  | request :: rest, requests =>
      let dequeued := requests.setQueue requests.queueOut rest
      match dequeued.workerOn request.localPort with
      | some other =>
          let worker := dequeued.workers other
          getRequestLocked index rest
            (dequeued.setWorker other { worker with queue := queueEnqueue worker.queue request })
      | none =>
          dequeued.start index request { dequeued.workers index with tag := request.localPort }

/-- The loop of `worker_func` from the top, up to where it leaves the lock. -/
def workerFunc (requests : PagerRequests workerCount) (index : Fin workerCount) :
    Option (PagerRequests workerCount) := do
  let worker := requests.workers index
  guard (worker.activity = .between)
  match queueDequeue worker.queue with
  | some (request, rest) => some (requests.start index request { worker with queue := rest })
  | none =>
      let cleared := requests.setWorker index { worker with tag := 0 }
      some (getRequestLocked index (cleared.queues cleared.queueOut) cleared)

/-- `pthread_cond_wait (&requests->wakeup)` returns. -/
def wakeup (requests : PagerRequests workerCount) (index : Fin workerCount) :
    Option (PagerRequests workerCount) := do
  let worker := requests.workers index
  guard (worker.activity = .sleeping)
  let awake := { requests.setWorker index { worker with activity := .between } with
    asleep := requests.asleep - 1 }
  some (getRequestLocked index (awake.queues awake.queueOut) awake)

/-- The routine of a request returns. -/
def finish (requests : PagerRequests workerCount) (index : Fin workerCount) :
    Option (PagerRequests workerCount) :=
  let worker := requests.workers index
  match worker.activity with
  | .executing request =>
      some { requests.setWorker index { worker with activity := .between } with
        finished := requests.finished ++ [request] }
  | .between => none
  | .sleeping => none

/-- All workers are asleep and `queue_out` is empty. -/
def drained (requests : PagerRequests workerCount) : Bool :=
  !decide (requests.asleep < workerCount) && (requests.queues requests.queueOut).isEmpty

/-- The loop at the end of `pager_inhibit_workers`, once the condition has been looked at. -/
def awaitDrained (requests : PagerRequests workerCount) : PagerRequests workerCount :=
  if requests.drained then { requests with inhibited := true }
  else { requests with inhibiting := requests.inhibiting + 1 }

/-- `pager_inhibit_workers`, with the address that `malloc` returns -/
def pagerInhibitWorkers (requests : PagerRequests workerCount) (allocated : Option ℕ) :
    Option (PagerRequests workerCount) := do
  guard (requests.queueOut = requests.queueIn)
  match allocated with
  -- ENOMEM
  | none => some requests
  | some address =>
      guard (address ≠ requests.queueIn)
      some ({ requests.setQueue address [] with
        queueIn := address
        replacedAt := requests.enqueued.length }).awaitDrained

/-- `pthread_cond_wait (&requests->inhibit_wakeup)` returns. -/
def inhibitWakeup (requests : PagerRequests workerCount) : Option (PagerRequests workerCount) := do
  guard (0 < requests.inhibiting)
  some { requests with inhibiting := requests.inhibiting - 1 }.awaitDrained

def pagerResumeWorkers (requests : PagerRequests workerCount) :
    Option (PagerRequests workerCount) := do
  guard (requests.queueOut ≠ requests.queueIn)
  guard (requests.asleep = workerCount)
  guard ((requests.queues requests.queueOut).isEmpty)
  some { requests with queueOut := requests.queueIn, inhibited := false }

inductive Action (workerCount : ℕ)
  | demux (localPort : ℕ)
  | work (index : Fin workerCount)
  | wakeup (index : Fin workerCount)
  | finish (index : Fin workerCount)
  | inhibit (allocated : Option ℕ)
  | inhibitWakeup
  | resume

def step (requests : PagerRequests workerCount) :
    Action workerCount → Option (PagerRequests workerCount)
  | .demux localPort => some (requests.pagerDemuxer localPort)
  | .work index => requests.workerFunc index
  | .wakeup index => requests.wakeup index
  | .finish index => requests.finish index
  | .inhibit allocated => requests.pagerInhibitWorkers allocated
  | .inhibitWakeup => requests.inhibitWakeup
  | .resume => requests.pagerResumeWorkers

end PagerRequests

end Hurd.Libpager
