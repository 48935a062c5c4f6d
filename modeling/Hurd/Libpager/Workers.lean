import Hurd.Libpager.Demuxer

/-!
# Requests to one object are executed in turn

A tag other than zero belongs to one worker only, and the queue of a worker holds requests to
the object of its tag.  For each object, the requests that have been started, those that are
delegated to the worker with its tag and those that wait in the global queues are, in this
order, the requests that have been enqueued.
-/

namespace Hurd.Libpager

/-- The requests to one object. -/
def Queue.to (queue : Queue) (port : ℕ) : Queue :=
  queue.filter fun request => request.localPort = port

namespace Queue

variable {queue : Queue} {request : Request} {port : ℕ}

@[simp]
theorem to_append (first second : Queue) (port : ℕ) :
    Queue.to (first ++ second) port = Queue.to first port ++ Queue.to second port :=
  List.filter_append ..

@[simp]
theorem to_nil (port : ℕ) : Queue.to [] port = [] := rfl

theorem to_cons_same (isPort : request.localPort = port) :
    Queue.to (request :: queue) port = request :: Queue.to queue port := by
  simp [Queue.to, isPort]

theorem to_cons_other (notPort : request.localPort ≠ port) :
    Queue.to (request :: queue) port = Queue.to queue port := by
  simp [Queue.to, notPort]

theorem mem_to : request ∈ Queue.to queue port ↔ request ∈ queue ∧ request.localPort = port := by
  simp [Queue.to]

end Queue

theorem queueDequeue_eq_some_iff {queue rest : Queue} {request : Request} :
    queueDequeue queue = some (request, rest) ↔ queue = request :: rest := by
  cases queue <;> simp [queueDequeue]

theorem queueDequeue_eq_none_iff {queue : Queue} : queueDequeue queue = none ↔ queue = [] := by
  cases queue <;> simp [queueDequeue]

namespace PagerRequests

variable {workerCount : ℕ} {requests next : PagerRequests workerCount} {index : Fin workerCount}

/-- What waits in the global queues, in the order in which it came. -/
def waiting (requests : PagerRequests workerCount) : Queue :=
  requests.queues requests.queueOut ++
    if requests.queueIn = requests.queueOut then [] else requests.queues requests.queueIn

/-- The requests to an object are those started, then those delegated, then those that wait. -/
def Ordered (requests : PagerRequests workerCount) (port : ℕ) (delegated : Queue) : Prop :=
  Queue.to requests.enqueued port =
    Queue.to requests.started port ++ (delegated ++ Queue.to requests.waiting port)

/-- How the tags and the queues of the workers go together. -/
structure Serial (requests : PagerRequests workerCount) : Prop where
  delegated : ∀ index, ∀ request ∈ (requests.workers index).queue,
    request.localPort = (requests.workers index).tag
  distinct : ∀ first second, (requests.workers first).tag = (requests.workers second).tag →
    (requests.workers first).tag ≠ 0 → first = second
  executing : ∀ index request, (requests.workers index).activity = .executing request →
    request.localPort = (requests.workers index).tag ∧ (requests.workers index).tag ≠ 0
  sleeping : ∀ index, (requests.workers index).activity = .sleeping →
    (requests.workers index).tag = 0
  untagged : ∀ index, (requests.workers index).tag = 0 → (requests.workers index).queue = []
  ports : ∀ request ∈ requests.enqueued, request.localPort ≠ 0
  waitingPorts : ∀ request ∈ requests.waiting, request.localPort ≠ 0
  held : ∀ index, (requests.workers index).tag ≠ 0 →
    requests.Ordered (requests.workers index).tag (requests.workers index).queue
  unheld : ∀ port, (port = 0 ∨ ∀ index, (requests.workers index).tag ≠ port) →
    requests.Ordered port []
  numbered : requests.enqueued.map Request.number = List.range requests.enqueued.length

section Fields

variable (requests : PagerRequests workerCount) (index other : Fin workerCount) (worker : Worker)
  (address : ℕ) (queue : Queue)

@[simp]
theorem setWorker_same : (requests.setWorker index worker).workers index = worker := by
  simp [setWorker]

theorem setWorker_other {index other : Fin workerCount} (different : other ≠ index) :
    (requests.setWorker index worker).workers other = requests.workers other := by
  simp [setWorker, different]

end Fields

theorem workerOn_some {port : ℕ} {other : Fin workerCount}
    (found : requests.workerOn port = some other) : (requests.workers other).tag = port := by
  simpa using List.find?_some found

theorem workerOn_none {port : ℕ} (found : requests.workerOn port = none) (other : Fin workerCount) :
    (requests.workers other).tag ≠ port := by
  simpa using List.find?_eq_none.mp found other (List.mem_finRange other)

theorem finish_cases (finished : requests.finish index = some next) :
    ∃ request, (requests.workers index).activity = .executing request ∧
      next = { requests.setWorker index { requests.workers index with activity := .between } with
        finished := requests.finished ++ [request] } := by
  rw [finish] at finished
  dsimp only at finished
  split at finished
  · rename_i request isExecuting
    cases finished
    exact ⟨request, isExecuting, rfl⟩
  · cases finished
  · cases finished

theorem awaitDrained_cases (requests : PagerRequests workerCount) :
    (workerCount ≤ requests.asleep ∧ requests.queues requests.queueOut = [] ∧
        requests.awaitDrained = { requests with inhibited := true }) ∨
      requests.awaitDrained = { requests with inhibiting := requests.inhibiting + 1 } := by
  rw [awaitDrained]
  split_ifs with isDrained
  · simp only [drained, Bool.and_eq_true, Bool.not_eq_true', decide_eq_false_iff_not, not_lt,
      List.isEmpty_iff] at isDrained
    exact .inl ⟨isDrained.1, isDrained.2, rfl⟩
  · exact .inr rfl

theorem pagerInhibitWorkers_cases {allocated : Option ℕ}
    (inhibited : requests.pagerInhibitWorkers allocated = some next) :
    requests.queueOut = requests.queueIn ∧ (next = requests ∨
      ∃ address, address ≠ requests.queueIn ∧
        next = ({ requests.setQueue address [] with
          queueIn := address
          replacedAt := requests.enqueued.length } : PagerRequests workerCount).awaitDrained) := by
  rcases Option.bind_eq_some_iff.mp inhibited with ⟨_, isSame, inhibited⟩
  refine ⟨by simpa using isSame, ?_⟩
  cases allocated with
  | none =>
      cases inhibited
      exact .inl rfl
  | some address =>
      rcases Option.bind_eq_some_iff.mp inhibited with ⟨_, isNew, ⟨⟩⟩
      exact .inr ⟨address, by simpa using isNew, rfl⟩

theorem inhibitWakeup_cases (woken : requests.inhibitWakeup = some next) :
    0 < requests.inhibiting ∧
      next = ({ requests with inhibiting := requests.inhibiting - 1 } :
        PagerRequests workerCount).awaitDrained := by
  rcases Option.bind_eq_some_iff.mp woken with ⟨_, isWaiting, ⟨⟩⟩
  exact ⟨by simpa using isWaiting, rfl⟩

theorem pagerResumeWorkers_cases (resumed : requests.pagerResumeWorkers = some next) :
    requests.queueOut ≠ requests.queueIn ∧ requests.queues requests.queueOut = [] ∧
      next = { requests with queueOut := requests.queueIn, inhibited := false } := by
  rcases Option.bind_eq_some_iff.mp resumed with ⟨_, isInhibited, resumed⟩
  rcases Option.bind_eq_some_iff.mp resumed with ⟨_, _, resumed⟩
  rcases Option.bind_eq_some_iff.mp resumed with ⟨_, isEmpty, ⟨⟩⟩
  exact ⟨by simpa using isInhibited, by simpa using isEmpty, rfl⟩

/-- What the control functions keep, whatever becomes of the queues and the record of the run. -/
theorem control_same {action : Action workerCount}
    (isControl : (∃ allocated, action = .inhibit allocated) ∨ action = .inhibitWakeup ∨
      action = .resume) (taken : requests.step action = some next) :
    next.workers = requests.workers ∧ next.asleep = requests.asleep ∧
      next.enqueued = requests.enqueued ∧ next.started = requests.started ∧
      next.finished = requests.finished ∧ next.waiting = requests.waiting := by
  have await : ∀ requests : PagerRequests workerCount,
      requests.awaitDrained.workers = requests.workers ∧
        requests.awaitDrained.asleep = requests.asleep ∧
        requests.awaitDrained.enqueued = requests.enqueued ∧
        requests.awaitDrained.started = requests.started ∧
        requests.awaitDrained.finished = requests.finished ∧
        requests.awaitDrained.waiting = requests.waiting := by
    intro requests
    rcases awaitDrained_cases requests with ⟨_, _, isNext⟩ | isNext <;> rw [isNext] <;>
      exact ⟨rfl, rfl, rfl, rfl, rfl, rfl⟩
  rcases isControl with ⟨allocated, rfl⟩ | rfl | rfl
  · rcases pagerInhibitWorkers_cases taken with ⟨isSame, rfl | ⟨address, isNew, rfl⟩⟩
    · exact ⟨rfl, rfl, rfl, rfl, rfl, rfl⟩
    · rcases await { requests.setQueue address [] with
        queueIn := address, replacedAt := requests.enqueued.length } with
        ⟨workers, asleep, enqueued, started, finished, waits⟩
      refine ⟨workers, asleep, enqueued, started, finished, waits.trans ?_⟩
      simp [waiting, setQueue, isSame, isNew, Ne.symm isNew]
  · rcases inhibitWakeup_cases taken with ⟨_, rfl⟩
    exact await { requests with inhibiting := requests.inhibiting - 1 }
  · rcases pagerResumeWorkers_cases taken with ⟨isInhibited, isEmpty, rfl⟩
    refine ⟨rfl, rfl, rfl, rfl, rfl, ?_⟩
    simp [waiting, Ne.symm isInhibited, isEmpty]

theorem waiting_dequeue {request : Request} {rest : Queue}
    (front : requests.queues requests.queueOut = request :: rest) :
    requests.waiting = request :: (requests.setQueue requests.queueOut rest).waiting := by
  by_cases same : requests.queueIn = requests.queueOut
  · simp [waiting, setQueue, front, same]
  · simp [waiting, setQueue, front, same]

theorem waiting_pagerDemuxer (requests : PagerRequests workerCount) (port : ℕ) :
    (requests.pagerDemuxer port).waiting =
      requests.waiting ++ [⟨requests.enqueued.length, port⟩] := by
  by_cases same : requests.queueIn = requests.queueOut
  · simp [waiting, pagerDemuxer, setQueue, queueEnqueue, same]
  · simp [waiting, pagerDemuxer, setQueue, queueEnqueue, same, Ne.symm same]

/--
One worker changes.  Its tag is new, or it is none, or it stays; a tag is given up with an empty
queue only; and only the requests to the object of its tag are moved.
-/
theorem Serial.update (serial : requests.Serial) (index : Fin workerCount)
    (others : ∀ other, other ≠ index → next.workers other = requests.workers other)
    (sameEnqueued : next.enqueued = requests.enqueued)
    (delegated : ∀ request ∈ (next.workers index).queue,
      request.localPort = (next.workers index).tag)
    (executing : ∀ request, (next.workers index).activity = .executing request →
      request.localPort = (next.workers index).tag ∧ (next.workers index).tag ≠ 0)
    (sleeping : (next.workers index).activity = .sleeping → (next.workers index).tag = 0)
    (untagged : (next.workers index).tag = 0 → (next.workers index).queue = [])
    (stillWaiting : next.waiting ⊆ requests.waiting)
    (newTag : (next.workers index).tag = (requests.workers index).tag ∨
      (next.workers index).tag = 0 ∨
      ∀ other, (requests.workers other).tag ≠ (next.workers index).tag)
    (givenUp : (next.workers index).tag ≠ (requests.workers index).tag →
      (requests.workers index).queue = [])
    (frame : ∀ port queue, (port = 0 ∨ port ≠ (next.workers index).tag) →
      requests.Ordered port queue → next.Ordered port queue)
    (own : (next.workers index).tag ≠ 0 →
      next.Ordered (next.workers index).tag (next.workers index).queue) : next.Serial := by
  have apart : ∀ other, other ≠ index → (next.workers index).tag ≠ 0 →
      (requests.workers other).tag ≠ (next.workers index).tag := by
    intro other different notZero same
    rcases newTag with isOld | isZero | isNew
    · rw [isOld] at same notZero
      exact different (serial.distinct other index same (same ▸ notZero))
    · exact notZero isZero
    · exact isNew other same
  have ofEach : ∀ property : Worker → Prop,
      (∀ other, property (requests.workers other)) → property (next.workers index) →
      ∀ other, property (next.workers other) := by
    intro property all changed other
    by_cases same : other = index
    · subst same
      exact changed
    · rw [others other same]
      exact all other
  constructor
  · exact ofEach (fun worker => ∀ request ∈ worker.queue,
      request.localPort = worker.tag) serial.delegated delegated
  · intro first second same notZero
    by_cases isFirst : first = index
    · by_cases isSecond : second = index
      · rw [isFirst, isSecond]
      · subst isFirst
        rw [others second isSecond] at same
        exact (apart second isSecond notZero same.symm).elim
    · rw [others first isFirst] at same notZero
      by_cases isSecond : second = index
      · subst isSecond
        exact (apart first isFirst (same ▸ notZero) same).elim
      · rw [others second isSecond] at same
        exact serial.distinct first second same notZero
  · exact ofEach (fun worker => ∀ request, worker.activity = .executing request →
      request.localPort = worker.tag ∧ worker.tag ≠ 0) serial.executing executing
  · exact ofEach (fun worker => worker.activity = .sleeping → worker.tag = 0)
      serial.sleeping sleeping
  · exact ofEach (fun worker => worker.tag = 0 → worker.queue = [])
      serial.untagged untagged
  · rw [sameEnqueued]
    exact serial.ports
  · intro request requestMem
    exact serial.waitingPorts request (stillWaiting requestMem)
  · intro other notZero
    by_cases same : other = index
    · subst same
      exact own notZero
    · rw [others other same] at notZero ⊢
      refine frame _ _ (.inr ?_) (serial.held other notZero)
      intro isTag
      exact apart other same (isTag ▸ notZero) isTag
  · intro port free
    refine frame port [] (free.imp_right fun noneHolds => Ne.symm (noneHolds index)) ?_
    rcases free with isZero | noneHolds
    · exact serial.unheld port (.inl isZero)
    by_cases isZero : port = 0
    · exact serial.unheld port (.inl isZero)
    by_cases heldBefore : (requests.workers index).tag = port
    · have isEmpty : (requests.workers index).queue = [] := by
        apply givenUp
        rw [heldBefore]
        exact noneHolds index
      have ordered := serial.held index (heldBefore ▸ isZero)
      rw [heldBefore, isEmpty] at ordered
      exact ordered
    · refine serial.unheld port (.inr fun other => ?_)
      by_cases same : other = index
      · rw [same]
        exact heldBefore
      · rw [← others other same]
        exact noneHolds other
  · rw [sameEnqueued]
    exact serial.numbered

/-- A request from the global queue is delegated to the worker that has the tag. -/
theorem Serial.delegate (serial : requests.Serial) {request : Request} {rest : Queue}
    {other : Fin workerCount} (front : requests.queues requests.queueOut = request :: rest)
    (tagged : (requests.workers other).tag = request.localPort) :
    ((requests.setQueue requests.queueOut rest).setWorker other
      { requests.workers other with
        queue := queueEnqueue (requests.workers other).queue request }).Serial := by
  have waitingEq := waiting_dequeue front
  have notZero : request.localPort ≠ 0 := serial.waitingPorts request (by simp [waitingEq])
  refine serial.update other (fun _ different => setWorker_other _ _ different) rfl
    ?_ ?_ ?_ ?_ ?_ ?_ ?_ ?_ ?_
  · intro moved movedMem
    rw [setWorker_same] at movedMem ⊢
    rcases List.mem_append.mp movedMem with old | new
    · exact serial.delegated other moved old
    · rw [List.mem_singleton.mp new]
      exact tagged.symm
  · rw [setWorker_same]
    exact serial.executing other
  · rw [setWorker_same]
    exact serial.sleeping other
  · rw [setWorker_same]
    intro isZero
    exact (notZero (tagged ▸ isZero)).elim
  · rw [waitingEq]
    exact List.subset_cons_self _ _
  · exact .inl (by rw [setWorker_same])
  · rw [setWorker_same]
    exact fun changed => (changed rfl).elim
  · rw [setWorker_same]
    intro port queue otherPort ordered
    have notPort : request.localPort ≠ port := by
      rcases otherPort with rfl | otherPort
      · exact notZero
      · exact tagged ▸ Ne.symm otherPort
    rw [Ordered, waitingEq, Queue.to_cons_other notPort] at ordered
    exact ordered
  · rw [setWorker_same]
    intro _
    have ordered := serial.held other (tagged ▸ notZero)
    rw [Ordered, waitingEq, Queue.to_cons_same tagged.symm, List.append_cons] at ordered
    exact ordered

/-- A worker takes a request to an object that no worker has the tag of. -/
theorem Serial.startGlobal (serial : requests.Serial) {request : Request} {rest : Queue}
    (front : requests.queues requests.queueOut = request :: rest)
    (untagged : (requests.workers index).tag = 0)
    (noneOnIt : ∀ other, (requests.workers other).tag ≠ request.localPort) :
    ((requests.setQueue requests.queueOut rest).start index request
      { requests.workers index with tag := request.localPort }).Serial := by
  have waitingEq := waiting_dequeue front
  have notZero : request.localPort ≠ 0 := serial.waitingPorts request (by simp [waitingEq])
  have noQueue := serial.untagged index untagged
  refine serial.update index (fun _ different => setWorker_other _ _ different) rfl
    ?_ ?_ ?_ ?_ ?_ ?_ ?_ ?_ ?_
  all_goals simp only [start, setWorker_same]
  · simp [noQueue]
  · rintro _ ⟨⟩
    exact ⟨rfl, notZero⟩
  · exact nofun
  · exact fun _ => noQueue
  · rw [waitingEq]
    exact List.subset_cons_self _ _
  · exact .inr (.inr noneOnIt)
  · exact fun _ => noQueue
  · intro port queue otherPort ordered
    have notPort : request.localPort ≠ port := by
      rcases otherPort with rfl | otherPort
      · exact notZero
      · exact Ne.symm otherPort
    rw [Ordered, waitingEq, Queue.to_cons_other notPort] at ordered
    rw [Ordered, Queue.to_append, Queue.to_cons_other notPort, Queue.to_nil, List.append_nil]
    exact ordered
  · intro _
    have ordered := serial.unheld _ (.inr noneOnIt)
    rw [Ordered, waitingEq, Queue.to_cons_same rfl, List.nil_append, List.append_cons] at ordered
    rw [Ordered, noQueue, Queue.to_append, Queue.to_cons_same rfl, Queue.to_nil, List.nil_append]
    exact ordered

/-- A worker takes the next request from its own queue. -/
theorem Serial.startOwn (serial : requests.Serial) {request : Request} {rest : Queue}
    (front : (requests.workers index).queue = request :: rest) :
    (requests.start index request { requests.workers index with queue := rest }).Serial := by
  have isTag : request.localPort = (requests.workers index).tag :=
    serial.delegated index request (by simp [front])
  have notZero : (requests.workers index).tag ≠ 0 := by
    intro isZero
    have noQueue := serial.untagged index isZero
    simp [front] at noQueue
  refine serial.update index (fun _ different => setWorker_other _ _ different) rfl
    ?_ ?_ ?_ ?_ (List.Subset.refl _) ?_ ?_ ?_ ?_
  all_goals simp only [start, setWorker_same]
  · intro left leftMem
    exact serial.delegated index left (by simp [front, leftMem])
  · rintro _ ⟨⟩
    exact ⟨isTag, notZero⟩
  · exact nofun
  · exact fun isZero => (notZero isZero).elim
  · exact .inl trivial
  · exact fun changed => (changed rfl).elim
  · intro port queue otherPort ordered
    have notPort : request.localPort ≠ port := by
      rcases otherPort with rfl | otherPort
      · exact isTag ▸ notZero
      · exact isTag ▸ Ne.symm otherPort
    rw [Ordered, Queue.to_append, Queue.to_cons_other notPort, Queue.to_nil, List.append_nil]
    exact ordered
  · intro _
    have ordered := serial.held index notZero
    rw [Ordered, front, List.cons_append, List.append_cons] at ordered
    rw [Ordered, Queue.to_append, Queue.to_cons_same isTag, Queue.to_nil]
    exact ordered

/-- What a worker does changes, but neither its queue nor the requests that are left. -/
theorem Serial.setActivity (serial : requests.Serial) (worker : Worker)
    (sameQueue : worker.queue = (requests.workers index).queue)
    (newTag : worker.tag = (requests.workers index).tag ∨
      (worker.tag = 0 ∧ (requests.workers index).queue = []))
    (notExecuting : ∀ request, worker.activity ≠ .executing request)
    (sleeping : worker.activity = .sleeping → worker.tag = 0)
    (isNext : next.workers = (requests.setWorker index worker).workers)
    (sameEnqueued : next.enqueued = requests.enqueued) (sameStarted : next.started = requests.started)
    (sameWaiting : next.waiting = requests.waiting) : next.Serial := by
  have isWorker : next.workers index = worker := by rw [isNext, setWorker_same]
  have sameOrdered : ∀ port queue, requests.Ordered port queue → next.Ordered port queue := by
    intro port queue ordered
    rw [Ordered, sameEnqueued, sameStarted, sameWaiting]
    exact ordered
  refine serial.update index (fun _ different => isNext ▸ setWorker_other _ _ different)
    sameEnqueued ?_ ?_ ?_ ?_ (sameWaiting ▸ List.Subset.refl _) ?_ ?_
    (fun port queue _ => sameOrdered port queue) ?_
  all_goals rw [isWorker]
  · rw [sameQueue]
    rcases newTag with isOld | ⟨_, noQueue⟩
    · rw [isOld]
      exact serial.delegated index
    · rw [noQueue]
      exact nofun
  · exact fun request isExecuting => (notExecuting request isExecuting).elim
  · exact sleeping
  · rw [sameQueue]
    intro isZero
    rcases newTag with isOld | ⟨_, noQueue⟩
    · exact serial.untagged index (isOld ▸ isZero)
    · exact noQueue
  · rcases newTag with isOld | ⟨isZero, _⟩
    · exact .inl isOld
    · exact .inr (.inl isZero)
  · intro changed
    rcases newTag with isOld | ⟨_, noQueue⟩
    · exact (changed isOld).elim
    · exact noQueue
  · intro notZero
    rcases newTag with isOld | ⟨isZero, _⟩
    · rw [sameQueue, isOld]
      exact sameOrdered _ _ (serial.held index (isOld ▸ notZero))
    · exact (notZero isZero).elim

theorem Serial.getRequestLocked (serial : requests.Serial)
    (untagged : (requests.workers index).tag = 0) {left : Queue}
    (isLeft : requests.queues requests.queueOut = left) :
    (getRequestLocked index left requests).Serial := by
  induction left generalizing requests with
  | nil =>
      exact serial.setActivity { requests.workers index with activity := .sleeping } rfl
        (.inl rfl) (fun _ => nofun) (fun _ => untagged) rfl rfl rfl rfl
  | cons request rest ih =>
      rw [PagerRequests.getRequestLocked]
      dsimp only
      split
      · rename_i other found
        have tagged := workerOn_some found
        apply ih (serial.delegate isLeft tagged)
        · by_cases same : index = other
          · subst same
            rw [setWorker_same]
            exact untagged
          · rw [setWorker_other _ _ same]
            exact untagged
        · simp [setWorker, setQueue]
      · rename_i found
        exact serial.startGlobal isLeft untagged (workerOn_none found)

theorem Serial.workerFunc (serial : requests.Serial)
    (worked : requests.workerFunc index = some next) : next.Serial := by
  rcases Option.bind_eq_some_iff.mp worked with ⟨_, isBetween, worked⟩
  dsimp only at worked
  split at worked
  · rename_i request rest dequeued
    cases worked
    exact serial.startOwn (queueDequeue_eq_some_iff.mp dequeued)
  · rename_i dequeued
    cases worked
    have isBetween : (requests.workers index).activity = .between := by simpa using isBetween
    have noQueue := queueDequeue_eq_none_iff.mp dequeued
    have cleared : (requests.setWorker index { requests.workers index with tag := 0 }).Serial :=
      serial.setActivity { requests.workers index with tag := 0 } rfl (.inr ⟨rfl, noQueue⟩)
        (by simp [isBetween]) (fun _ => rfl) rfl rfl rfl rfl
    exact cleared.getRequestLocked (by rw [setWorker_same]) rfl

theorem Serial.wakeup (serial : requests.Serial)
    (woken : requests.wakeup index = some next) : next.Serial := by
  rcases Option.bind_eq_some_iff.mp woken with ⟨_, isSleeping, ⟨⟩⟩
  have isSleeping : (requests.workers index).activity = .sleeping := by simpa using isSleeping
  have untagged := serial.sleeping index isSleeping
  have awake : ({ requests.setWorker index
      { requests.workers index with activity := .between } with
        asleep := requests.asleep - 1 } : PagerRequests workerCount).Serial :=
    serial.setActivity { requests.workers index with activity := .between } rfl (.inl rfl)
      (fun _ => nofun) nofun rfl rfl rfl rfl
  refine awake.getRequestLocked ?_ rfl
  simpa [setWorker] using untagged

theorem Serial.finish (serial : requests.Serial)
    (finished : requests.finish index = some next) : next.Serial := by
  rcases finish_cases finished with ⟨_, _, rfl⟩
  exact serial.setActivity { requests.workers index with activity := .between } rfl (.inl rfl)
    (fun _ => nofun) nofun rfl rfl rfl rfl

theorem Serial.pagerDemuxer (serial : requests.Serial) {port : ℕ} (notZero : port ≠ 0) :
    (requests.pagerDemuxer port).Serial := by
  have waitingEq := waiting_pagerDemuxer requests port
  have ordered : ∀ {port' queue}, requests.Ordered port' queue →
      (requests.pagerDemuxer port).Ordered port' queue := by
    intro port' queue before
    rw [Ordered, waitingEq]
    simp only [PagerRequests.pagerDemuxer, setQueue, Queue.to_append]
    rw [before, List.append_assoc, List.append_assoc]
  constructor
  · exact serial.delegated
  · exact serial.distinct
  · exact serial.executing
  · exact serial.sleeping
  · exact serial.untagged
  · intro request requestMem
    rcases List.mem_append.mp requestMem with old | new
    · exact serial.ports request old
    · rw [List.mem_singleton.mp new]
      exact notZero
  · rw [waitingEq]
    intro request requestMem
    rcases List.mem_append.mp requestMem with old | new
    · exact serial.waitingPorts request old
    · rw [List.mem_singleton.mp new]
      exact notZero
  · exact fun index tagged => ordered (serial.held index tagged)
  · exact fun port' free => ordered (serial.unheld port' free)
  · simp [PagerRequests.pagerDemuxer, setQueue, serial.numbered, List.range_succ]

/-- The workers and the requests are the same, however they are kept. -/
theorem Serial.of_same (serial : requests.Serial) (sameWorkers : next.workers = requests.workers)
    (sameEnqueued : next.enqueued = requests.enqueued) (sameStarted : next.started = requests.started)
    (sameWaiting : next.waiting = requests.waiting) : next.Serial := by
  have sameOrdered : ∀ {port queue}, requests.Ordered port queue → next.Ordered port queue := by
    intro port queue ordered
    rw [Ordered, sameEnqueued, sameStarted, sameWaiting]
    exact ordered
  constructor
  all_goals simp only [sameWorkers, sameEnqueued, sameWaiting]
  · exact serial.delegated
  · exact serial.distinct
  · exact serial.executing
  · exact serial.sleeping
  · exact serial.untagged
  · exact serial.ports
  · exact serial.waitingPorts
  · exact fun index tagged => sameOrdered (serial.held index tagged)
  · exact fun port free => sameOrdered (serial.unheld port free)
  · exact serial.numbered

theorem Serial.step {action : Action workerCount} (serial : requests.Serial)
    (ports : ∀ port, action = .demux port → port ≠ 0) (taken : requests.step action = some next) :
    next.Serial := by
  have control : (∃ allocated, action = .inhibit allocated) ∨ action = .inhibitWakeup ∨
      action = .resume → next.Serial := by
    intro isControl
    rcases control_same isControl taken with ⟨workers, _, enqueued, started, _, waits⟩
    exact serial.of_same workers enqueued started waits
  cases action with
  | demux port =>
      cases taken
      exact serial.pagerDemuxer (ports port rfl)
  | work index => exact serial.workerFunc taken
  | wakeup index => exact serial.wakeup taken
  | finish index => exact serial.finish taken
  | inhibit allocated => exact control (.inl ⟨allocated, rfl⟩)
  | inhibitWakeup => exact control (.inr (.inl rfl))
  | resume => exact control (.inr (.inr rfl))

theorem Serial.initial : ({} : PagerRequests workerCount).Serial := by
  constructor <;> simp [Ordered, waiting]

/--
What a worker in the lock has done when it leaves it: it has gone to sleep, or it has started one
request.  Nothing else has been started or finished, and no other worker does anything new.
-/
structure LeftLock (requests next : PagerRequests workerCount) (index : Fin workerCount) : Prop where
  others : ∀ other, other ≠ index →
    (next.workers other).activity = (requests.workers other).activity
  sameFinished : next.finished = requests.finished
  sameEnqueued : next.enqueued = requests.enqueued
  sameQueueIn : next.queueIn = requests.queueIn
  sameQueueOut : next.queueOut = requests.queueOut
  sameReplacedAt : next.replacedAt = requests.replacedAt
  sameInhibited : next.inhibited = requests.inhibited
  sameInhibiting : next.inhibiting = requests.inhibiting
  otherQueues : ∀ address, address ≠ requests.queueOut →
    next.queues address = requests.queues address
  outcome : ((next.workers index).activity = .sleeping ∧ next.asleep = requests.asleep + 1 ∧
      next.started = requests.started ∧ next.queues next.queueOut = []) ∨
    ∃ request, (next.workers index).activity = .executing request ∧
      next.asleep = requests.asleep ∧ next.started = requests.started ++ [request]

theorem leftLock_getRequestLocked {left : Queue}
    (isLeft : requests.queues requests.queueOut = left) :
    requests.LeftLock (getRequestLocked index left requests) index := by
  induction left generalizing requests with
  | nil =>
      refine ⟨fun other different => ?_, rfl, rfl, rfl, rfl, rfl, rfl, rfl, fun _ _ => rfl,
        .inl ⟨?_, rfl, rfl, isLeft⟩⟩
      · rw [getRequestLocked]
        exact congrArg Worker.activity (setWorker_other _ _ different)
      · simp [getRequestLocked, setWorker]
  | cons request rest ih =>
      rw [getRequestLocked]
      dsimp only
      split
      · rename_i other found
        have dequeued : ((requests.setQueue requests.queueOut rest).setWorker other
            { requests.workers other with
              queue := queueEnqueue (requests.workers other).queue request }).queues
              requests.queueOut = rest := by
          simp [setWorker, setQueue]
        rcases ih dequeued with
          ⟨others, finished, enqueued, queueIn, queueOut, replacedAt, inhibited, inhibiting,
            otherQueues, outcome⟩
        refine ⟨fun another different => ?_, finished, enqueued, queueIn, queueOut, replacedAt,
          inhibited, inhibiting, fun address different => ?_, outcome⟩
        · refine (others another different).trans ?_
          by_cases same : another = other
          · subst same
            rw [setWorker_same]
          · rw [setWorker_other _ _ same]
            rfl
        · refine (otherQueues address different).trans ?_
          simp [setWorker, setQueue, different]
      · refine ⟨fun another different => ?_, rfl, rfl, rfl, rfl, rfl, rfl, rfl,
          fun address different => ?_, .inr ⟨request, ?_, rfl, rfl⟩⟩
        · exact congrArg Worker.activity (setWorker_other _ _ different)
        · simp [start, setWorker, setQueue, different]
        · simp [start, setWorker]

theorem leftLock_workerFunc (worked : requests.workerFunc index = some next) :
    (requests.workers index).activity = .between ∧ requests.LeftLock next index := by
  rcases Option.bind_eq_some_iff.mp worked with ⟨_, isBetween, worked⟩
  refine ⟨by simpa using isBetween, ?_⟩
  dsimp only at worked
  split at worked
  · rename_i request rest dequeued
    cases worked
    refine ⟨fun other different => ?_, rfl, rfl, rfl, rfl, rfl, rfl, rfl, fun _ _ => rfl,
      .inr ⟨request, ?_, rfl, rfl⟩⟩
    · exact congrArg Worker.activity (setWorker_other _ _ different)
    · simp [start, setWorker]
  · cases worked
    have left : (requests.setWorker index { requests.workers index with tag := 0 }).LeftLock
        (getRequestLocked index (requests.queues requests.queueOut)
          (requests.setWorker index { requests.workers index with tag := 0 })) index :=
      leftLock_getRequestLocked rfl
    rcases left with ⟨others, finished, enqueued, queueIn, queueOut, replacedAt, inhibited,
      inhibiting, otherQueues, outcome⟩
    refine ⟨fun other different => ?_, finished, enqueued, queueIn, queueOut, replacedAt,
      inhibited, inhibiting, otherQueues, outcome⟩
    refine (others other different).trans ?_
    rw [setWorker_other _ _ different]

/-- A worker that is woken, before it looks for a request -/
def awake (requests : PagerRequests workerCount) (index : Fin workerCount) :
    PagerRequests workerCount :=
  { requests.setWorker index { requests.workers index with activity := .between } with
    asleep := requests.asleep - 1 }

theorem leftLock_wakeup (woken : requests.wakeup index = some next) :
    (requests.workers index).activity = .sleeping ∧ (requests.awake index).LeftLock next index := by
  rcases Option.bind_eq_some_iff.mp woken with ⟨_, isSleeping, ⟨⟩⟩
  exact ⟨by simpa using isSleeping, leftLock_getRequestLocked rfl⟩

/-- A request that has been started is being executed or finished. -/
def Accounted (requests : PagerRequests workerCount) : Prop :=
  ∀ request ∈ requests.started, request ∈ requests.finished ∨
    ∃ index, (requests.workers index).activity = .executing request

theorem Accounted.leftLock (accounted : requests.Accounted)
    (notExecuting : ∀ request, (requests.workers index).activity ≠ .executing request)
    (left : requests.LeftLock next index) : next.Accounted := by
  have old : ∀ request ∈ requests.started, request ∈ next.finished ∨
      ∃ other, (next.workers other).activity = .executing request := by
    intro request requestMem
    rw [left.sameFinished]
    rcases accounted request requestMem with finished | ⟨other, isExecuting⟩
    · exact .inl finished
    · have different : other ≠ index := by
        rintro rfl
        exact notExecuting request isExecuting
      exact .inr ⟨other, (left.others other different).trans isExecuting⟩
  intro request requestMem
  rcases left.outcome with ⟨_, _, sameStarted, _⟩ | ⟨new, isExecuting, _, isStarted⟩
  · exact old request (sameStarted ▸ requestMem)
  · rw [isStarted] at requestMem
    rcases List.mem_append.mp requestMem with before | isNew
    · exact old request before
    · rw [List.mem_singleton.mp isNew]
      exact .inr ⟨index, isExecuting⟩

theorem Accounted.step {action : Action workerCount} (accounted : requests.Accounted)
    (taken : requests.step action = some next) : next.Accounted := by
  have control : (∃ allocated, action = .inhibit allocated) ∨ action = .inhibitWakeup ∨
      action = .resume → next.Accounted := by
    intro isControl
    rcases control_same isControl taken with ⟨workers, _, _, started, finished, _⟩
    rw [Accounted, workers, started, finished]
    exact accounted
  cases action with
  | demux port =>
      cases taken
      exact accounted
  | work index =>
      rcases leftLock_workerFunc taken with ⟨isBetween, left⟩
      exact accounted.leftLock (by simp [isBetween]) left
  | wakeup index =>
      rcases leftLock_wakeup taken with ⟨isSleeping, left⟩
      have isAwake : (requests.awake index).Accounted := by
        intro request requestMem
        rcases accounted request requestMem with finished | ⟨other, isExecuting⟩
        · exact .inl finished
        · have different : other ≠ index := by
            rintro rfl
            rw [isSleeping] at isExecuting
            cases isExecuting
          exact .inr ⟨other, by rwa [awake, setWorker_other _ _ different]⟩
      exact isAwake.leftLock (by simp [awake, setWorker]) left
  | finish index =>
      rcases finish_cases taken with ⟨done, isDone, rfl⟩
      intro request requestMem
      rcases accounted request requestMem with already | ⟨other, isExecuting⟩
      · exact .inl (List.mem_append_left _ already)
      · by_cases same : other = index
        · subst same
          rw [isDone] at isExecuting
          cases isExecuting
          exact .inl (List.mem_append_right _ (List.mem_singleton_self _))
        · exact .inr ⟨other, by rwa [setWorker_other _ _ same]⟩
  | inhibit allocated => exact control (.inl ⟨allocated, rfl⟩)
  | inhibitWakeup => exact control (.inr (.inl rfl))
  | resume => exact control (.inr (.inr rfl))

/-- No message has the null port as its destination. -/
def PortsNotNull (_ : PagerRequests workerCount) : Action workerCount → Prop
  | .demux localPort => localPort ≠ 0
  | .work _ => True
  | .wakeup _ => True
  | .finish _ => True
  | .inhibit _ => True
  | .inhibitWakeup => True
  | .resume => True

/--
Every request is somewhere, none is started twice, requests to one object are not executed at the
same time, and they are started in the order in which they were enqueued.
-/
structure InTurn (requests : PagerRequests workerCount) : Prop where
  notLost : ∀ request ∈ requests.enqueued,
    request ∈ requests.queues requests.queueIn ∨ request ∈ requests.queues requests.queueOut ∨
      (∃ index, request ∈ (requests.workers index).queue) ∨
      (∃ index, (requests.workers index).activity = .executing request) ∨
      request ∈ requests.finished
  atMostOnce : requests.started.Nodup
  oneAtATime : ∀ first second one other, (requests.workers first).activity = .executing one →
    (requests.workers second).activity = .executing other → one.localPort = other.localPort →
    first = second
  inOrder : ∀ port, Queue.to requests.started port <+: Queue.to requests.enqueued port

theorem Serial.ordered (serial : requests.Serial) (port : ℕ) :
    ∃ delegated, requests.Ordered port delegated ∧
      (delegated = [] ∨ ∃ index, delegated = (requests.workers index).queue) := by
  by_cases isHeld : port ≠ 0 ∧ ∃ index, (requests.workers index).tag = port
  · rcases isHeld with ⟨notZero, index, rfl⟩
    exact ⟨_, serial.held index notZero, .inr ⟨index, rfl⟩⟩
  · refine ⟨[], serial.unheld port ?_, .inl rfl⟩
    by_cases isZero : port = 0
    · exact .inl isZero
    · exact .inr fun index tagged => isHeld ⟨isZero, index, tagged⟩

theorem Serial.enqueued_nodup (serial : requests.Serial) : requests.enqueued.Nodup := by
  apply List.Nodup.of_map Request.number
  rw [serial.numbered]
  exact List.nodup_range

theorem Serial.inTurn (serial : requests.Serial) (accounted : requests.Accounted) :
    requests.InTurn := by
  constructor
  · intro request requestMem
    rcases serial.ordered request.localPort with ⟨delegated, ordered, isDelegated⟩
    have isThere : request ∈ Queue.to requests.enqueued request.localPort :=
      Queue.mem_to.mpr ⟨requestMem, rfl⟩
    rw [ordered] at isThere
    rcases List.mem_append.mp isThere with isStarted | isThere
    · rcases accounted request (Queue.mem_to.mp isStarted).1 with finished | executing
      · exact .inr (.inr (.inr (.inr finished)))
      · exact .inr (.inr (.inr (.inl executing)))
    rcases List.mem_append.mp isThere with inQueue | waits
    · rcases isDelegated with rfl | ⟨index, rfl⟩
      · cases inQueue
      · exact .inr (.inr (.inl ⟨index, inQueue⟩))
    · rcases List.mem_append.mp (Queue.mem_to.mp waits).1 with out | isIn
      · exact .inr (.inl out)
      · split_ifs at isIn with same
        · cases isIn
        · exact .inl isIn
  · rw [List.nodup_iff_count_le_one]
    intro request
    rcases serial.ordered request.localPort with ⟨delegated, ordered, _⟩
    have ofStarted : requests.started.count request =
        (Queue.to requests.started request.localPort).count request :=
      (List.count_filter (by simp)).symm
    have ofEnqueued : (Queue.to requests.enqueued request.localPort).count request =
        requests.enqueued.count request := List.count_filter (by simp)
    rw [ordered, List.count_append] at ofEnqueued
    have atMostOne := List.nodup_iff_count_le_one.mp serial.enqueued_nodup request
    omega
  · intro first second one other isFirst isSecond same
    rcases serial.executing first one isFirst with ⟨firstTag, notZero⟩
    rcases serial.executing second other isSecond with ⟨secondTag, _⟩
    apply serial.distinct first second _ notZero
    rw [← firstTag, ← secondTag, same]
  · intro port
    rcases serial.ordered port with ⟨delegated, ordered, _⟩
    rw [ordered]
    exact List.prefix_append ..

/-- Requests to one object are executed one at a time, in the order in which they came. -/
theorem inTurn_of_reachable
    (reached : Transition.Reachable step PortsNotNull ({} : PagerRequests workerCount) requests) :
    requests.InTurn := by
  have invariant : requests.Serial ∧ requests.Accounted := by
    refine reached.invariant (fun requests => requests.Serial ∧ requests.Accounted)
      ⟨.initial, nofun⟩ ?_
    intro before after action ⟨serial, accounted⟩ portsNotNull taken
    refine ⟨serial.step ?_ taken, accounted.step taken⟩
    rintro port rfl
    exact portsNotNull
  exact invariant.1.inTurn invariant.2

/-- Of two workers the second finds a request to the object of the first, and delegates it. -/
def delegatedRun : List (Action 2) :=
  [.demux 5, .demux 5, .work 0, .work 1, .finish 0, .work 0]

theorem inTurn_after_delegated :
    ∃ requests, Transition.run step delegatedRun ({} : PagerRequests 2) = some requests ∧
      (requests.workers 0).activity = .executing ⟨1, 5⟩ ∧ requests.InTurn := by
  refine ⟨_, rfl, rfl, inTurn_of_reachable (Transition.Reachable.start.of_run delegatedRun
    (.of_always ?_ _) rfl)⟩
  simp [delegatedRun, PortsNotNull]

/-- The workers are inhibited while a request is executed, and another comes when they are. -/
def inhibitedRun : List (Action 2) :=
  [.work 0, .work 1, .demux 5, .wakeup 0, .inhibit (some 1), .finish 0, .work 0, .inhibitWakeup,
    .demux 6]

end PagerRequests

end Hurd.Libpager
