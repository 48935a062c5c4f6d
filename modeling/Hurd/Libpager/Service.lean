import Hurd.Libpager.InTurn
import Hurd.Libpager.Workers

/-!
# The workers and the pagers

A worker executes the handler that its request asks for, in a thread that releases the lock of the
pager where it calls back into the filesystem, while other workers execute other handlers.  Requests
to one object are executed one at a time, in the order in which they came.  So the handlers of a
pager run in turn, and the pager is as `Pager.handle` would leave it.
-/

namespace Hurd.Libpager

/-- What the constructor of a pager is called with -/
structure Settings where
  pageSize : ℕ
  pageSize_pos : 0 < pageSize
  mayCache : Bool
  copyStrategy : ℕ
  notifyOnEvict : Bool

/-- The worker pool, and the pagers that the requests are to -/
structure Service (workerCount : ℕ) where
  requests : PagerRequests workerCount := {}
  /-- The pager of a port, with a thread for each worker -/
  pagers : ℕ → Threads Interned
  /-- The worker has called the handler. -/
  called : Fin workerCount → Bool := fun _ => false

namespace Service

inductive Action (workerCount : ℕ)
  /-- A step of the worker pool, apart from the return of a routine -/
  | pool (action : PagerRequests.Action workerCount)
  /-- The worker calls the handler that its request asks for. -/
  | enter (index : Fin workerCount) (stale : ℕ → Bool)
  /-- The worker goes on with the handler. -/
  | goOn (index : Fin workerCount) (action : Threads.Action)
  /-- The handler has come to its end. -/
  | leave (index : Fin workerCount)
  /-- Another pager of the process stores an entry. -/
  | share (port : ℕ) (entry : PagemapEntry)

variable {workerCount : ℕ}

/-- The request that a worker is executing -/
def executing? (service : Service workerCount) (index : Fin workerCount) : Option Request :=
  match (service.requests.workers index).activity with
  | .executing request => some request
  | .between => none
  | .sleeping => none

def setPager (service : Service workerCount) (port : ℕ) (threads : Threads Interned) :
    Service workerCount :=
  { service with pagers := Function.update service.pagers port threads }

def setCalled (service : Service workerCount) (index : Fin workerCount) (called : Bool) :
    Service workerCount :=
  { service with called := Function.update service.called index called }

/--
`messages` says what the requests ask for, by their numbers, and what the callbacks of their
handlers return.
-/
def step (messages : ℕ → Input × Callbacks) (service : Service workerCount) :
    Action workerCount → Option (Service workerCount)
  | .pool (.finish _) => none
  | .pool action =>
      (service.requests.step action).map fun requests => { service with requests := requests }
  | .enter index stale => do
      let request ← service.executing? index
      guard (service.called index = false)
      let threads ← (service.pagers request.localPort).step
        (.start index (messages request.number).1 stale)
      some ((service.setPager request.localPort threads).setCalled index true)
  | .goOn index action => do
      let request ← service.executing? index
      guard (service.called index = true)
      let threads ← (service.pagers request.localPort).step action
      some (service.setPager request.localPort threads)
  | .leave index => do
      let request ← service.executing? index
      guard (service.called index = true ∧
        ((service.pagers request.localPort).threads index).isNone)
      let requests ← service.requests.finish index
      some (({ service with requests := requests } : Service workerCount).setCalled index false)
  | .share port entry =>
      ((service.pagers port).step (.share entry)).map (service.setPager port)

/-- The workers do what their requests ask for, and the callbacks return what `messages` says. -/
def Legal (messages : ℕ → Input × Callbacks) (service : Service workerCount) :
    Action workerCount → Prop
  | .pool action => PagerRequests.PortsNotNull service.requests action
  | .enter index stale => ∀ request, service.executing? index = some request →
      ∀ number, stale number = ((messages request.number).2 number).staleNotify
  | .goOn index action => ∀ request, service.executing? index = some request →
      Threads.Own index (messages request.number).2 (service.pagers request.localPort) action
  | .leave _ => True
  | .share _ _ => True

/-- What the requests to a port ask for, one after the other -/
def inputsTo (messages : ℕ → Input × Callbacks) (queue : Queue) (port : ℕ) :
    List (Input × Callbacks) :=
  (Queue.to queue port).map fun request => messages request.number

end Service

/-- A pager as its constructor leaves it, and nothing has been sent -/
def Settings.start (settings : Settings) : Pager × List Event :=
  (.create settings.pageSize settings.pageSize_pos settings.mayCache settings.copyStrategy
    settings.notifyOnEvict, [])

namespace Service

variable {workerCount : ℕ}

def create (settings : ℕ → Settings) (leftovers : ℕ → PagemapEntry) : Service workerCount where
  pagers port :=
    .create (settings port).pageSize (settings port).pageSize_pos (settings port).mayCache
      (settings port).copyStrategy (settings port).notifyOnEvict leftovers

/-- Where the pager of a port is, `state` being where the requests that are finished leave it. -/
inductive PortState (messages : ℕ → Input × Callbacks) (settings : ℕ → Settings)
    (service : Service workerCount) (port : ℕ) : Prop
  | free {state : Pager × List Event}
      (nobody : ∀ index request, service.executing? index = some request →
        request.localPort ≠ port)
      (allFinished : Queue.to service.requests.started port =
        Queue.to service.requests.finished port)
      (noThreads : ∀ id, (service.pagers port).threads id = none)
      (handled : Transition.run Pager.record (inputsTo messages service.requests.finished port)
        (settings port).start = some state)
      (between : Mirrors.Between state (service.pagers port).pager)
  /-- A worker has taken a request and has not called the handler yet. -/
  | taken {state : Pager × List Event} {index : Fin workerCount} {request : Request}
      (executes : service.executing? index = some request) (isPort : request.localPort = port)
      (notCalled : service.called index = false)
      (isLast : Queue.to service.requests.started port =
        Queue.to service.requests.finished port ++ [request])
      (noThreads : ∀ id, (service.pagers port).threads id = none)
      (handled : Transition.run Pager.record (inputsTo messages service.requests.finished port)
        (settings port).start = some state)
      (between : Mirrors.Between state (service.pagers port).pager)
  | running {state : Pager × List Event} {index : Fin workerCount} {request : Request}
      (executes : service.executing? index = some request) (isPort : request.localPort = port)
      (isCalled : service.called index = true)
      (isLast : Queue.to service.requests.started port =
        Queue.to service.requests.finished port ++ [request])
      (others : ∀ id : ℕ, id ≠ index → (service.pagers port).threads id = none)
      (handled : Transition.run Pager.record (inputsTo messages service.requests.finished port)
        (settings port).start = some state)
      (settled : state.1.Settled)
      (inProgress : Threads.InProgress index (messages request.number).2 state.2
        (state.1.handle (messages request.number)) (service.pagers port))

structure Sound (messages : ℕ → Input × Callbacks) (settings : ℕ → Settings)
    (service : Service workerCount) : Prop where
  serial : service.requests.Serial
  executes : ∀ index, service.called index = true → service.executing? index ≠ none
  ports : ∀ port, PortState messages settings service port

variable {messages : ℕ → Input × Callbacks} {settings : ℕ → Settings}
  {service next : Service workerCount} {port : ℕ}

theorem executing?_eq_some_iff {index : Fin workerCount} {request : Request} :
    service.executing? index = some request ↔
      (service.requests.workers index).activity = .executing request := by
  unfold executing?
  cases (service.requests.workers index).activity <;> simp

/-- No two workers execute requests to one object. -/
theorem oneAtATime (serial : service.requests.Serial)
    {first second : Fin workerCount} {one other : Request}
    (isFirst : service.executing? first = some one)
    (isSecond : service.executing? second = some other) (same : one.localPort = other.localPort) :
    first = second := by
  rcases serial.executing first one (executing?_eq_some_iff.mp isFirst) with ⟨firstTag, notZero⟩
  rcases serial.executing second other (executing?_eq_some_iff.mp isSecond) with ⟨secondTag, -⟩
  apply serial.distinct first second _ notZero
  rw [← firstTag, ← secondTag, same]

/-- Where only one worker changes what it executes, between nothing and a request to one port -/
theorem executing?_other_port {old new : Service workerCount} {index other : Fin workerCount}
    {request another : Request} (executes : old.executing? index = some request)
    (idle : new.executing? index = none)
    (sameOthers : ∀ other, other ≠ index → new.executing? other = old.executing? other)
    (notPort : request.localPort ≠ port) (isPort : another.localPort = port) :
    new.executing? other = some another ↔ old.executing? other = some another := by
  by_cases same : other = index
  · rw [same, idle, executes]
    constructor
    · rintro ⟨⟩
    · rintro ⟨⟩
      exact absurd isPort notPort
  · rw [sameOthers other same]

/-- Whatever becomes of the other ports -/
theorem PortState.of_same (before : PortState messages settings service port)
    (sameExecuting : ∀ index request, request.localPort = port →
      (next.executing? index = some request ↔ service.executing? index = some request))
    (sameCalled : ∀ index request, request.localPort = port →
      service.executing? index = some request → next.called index = service.called index)
    (sameStarted : Queue.to next.requests.started port = Queue.to service.requests.started port)
    (sameFinished : Queue.to next.requests.finished port = Queue.to service.requests.finished port)
    (samePager : next.pagers port = service.pagers port) :
    PortState messages settings next port := by
  have sameInputs : inputsTo messages next.requests.finished port =
      inputsTo messages service.requests.finished port := by
    rw [inputsTo, sameFinished, inputsTo]
  cases before with
  | free nobody allFinished noThreads handled between =>
      refine .free ?_ (sameStarted.trans (allFinished.trans sameFinished.symm)) (samePager ▸ noThreads)
        (sameInputs ▸ handled) (samePager ▸ between)
      intro index request executes isPort
      exact nobody index request ((sameExecuting index request isPort).mp executes) isPort
  | @taken state index request executes isPort notCalled isLast noThreads handled between =>
      refine .taken ((sameExecuting index request isPort).mpr executes) isPort
        ((sameCalled index request isPort executes).trans notCalled) ?_ (samePager ▸ noThreads)
        (sameInputs ▸ handled) (samePager ▸ between)
      rw [sameStarted, isLast, sameFinished]
  | @running state index request executes isPort isCalled isLast others handled settled inProgress =>
      refine .running ((sameExecuting index request isPort).mpr executes) isPort
        ((sameCalled index request isPort executes).trans isCalled) ?_ (samePager ▸ others)
        (sameInputs ▸ handled) settled (samePager ▸ inProgress)
      rw [sameStarted, isLast, sameFinished]

/-- What the workers execute stays, and nothing is started or finished. -/
theorem Sound.of_workers (sound : Sound messages settings service)
    (serial : next.requests.Serial)
    (sameExecuting : ∀ index, next.executing? index = service.executing? index)
    (sameStarted : next.requests.started = service.requests.started)
    (sameFinished : next.requests.finished = service.requests.finished)
    (sameCalled : next.called = service.called) (samePagers : next.pagers = service.pagers) :
    Sound messages settings next := by
  refine ⟨serial, ?_, fun port => ?_⟩
  · intro index isCalled
    rw [sameExecuting]
    exact sound.executes index (sameCalled ▸ isCalled)
  · refine (sound.ports port).of_same ?_ ?_ ?_ ?_ ?_
    · exact fun index request _ => by rw [sameExecuting]
    · exact fun index request _ _ => by rw [sameCalled]
    · rw [sameStarted]
    · rw [sameFinished]
    · rw [samePagers]

/-- A worker that has executed nothing leaves the lock of the pool. -/
theorem Sound.leftLock (sound : Sound messages settings service)
    {requests before : PagerRequests workerCount} {index : Fin workerCount}
    (serial : requests.Serial) (idle : service.executing? index = none)
    (others : ∀ other, other ≠ index →
      (before.workers other).activity = (service.requests.workers other).activity)
    (sameStarted : before.started = service.requests.started)
    (sameFinished : before.finished = service.requests.finished)
    (left : before.LeftLock requests index) :
    Sound messages settings { service with requests := requests } := by
  have sameOthers : ∀ other, other ≠ index →
      ({ service with requests := requests } : Service workerCount).executing? other =
        service.executing? other := by
    intro other different
    have sameActivity := (left.others other different).trans (others other different)
    unfold executing?
    rw [sameActivity]
  have notCalled : service.called index = false :=
    Bool.eq_false_iff.mpr fun isCalled => sound.executes index isCalled idle
  have isFinished : requests.finished = service.requests.finished :=
    left.sameFinished.trans sameFinished
  rcases left.outcome with ⟨isSleeping, -, isStarted, -⟩ | ⟨request, isExecuting, -, isStarted⟩
  · refine sound.of_workers serial (fun other => ?_) (isStarted.trans sameStarted) isFinished rfl
      rfl
    by_cases same : other = index
    · rw [same, idle]
      unfold executing?
      rw [isSleeping]
    · exact sameOthers other same
  · have executes : ({ service with requests := requests } : Service workerCount).executing? index =
        some request := executing?_eq_some_iff.mpr isExecuting
    have nowStarted : requests.started = service.requests.started ++ [request] := by
      rw [isStarted, sameStarted]
    have nobodyElse : ∀ other another, service.executing? other = some another →
        another.localPort ≠ request.localPort := by
      intro other another isAnother samePort
      have different : other ≠ index := by
        rintro rfl
        cases idle.symm.trans isAnother
      exact different (oneAtATime serial ((sameOthers other different).trans isAnother) executes
        samePort)
    refine ⟨serial, fun other isCalled => ?_, fun port => ?_⟩
    · have different : other ≠ index := by
        rintro rfl
        exact sound.executes other isCalled idle
      rw [sameOthers other different]
      exact sound.executes other isCalled
    · by_cases isPort : request.localPort = port
      · cases sound.ports port with
        | free nobody allFinished noThreads handled between =>
            refine .taken executes isPort notCalled ?_ noThreads (isFinished ▸ handled) between
            rw [nowStarted, isFinished, Queue.to_append, allFinished, Queue.to_cons_same isPort,
              Queue.to_nil]
        | @taken _ other another isAnother samePort =>
            exact absurd (samePort.trans isPort.symm) (nobodyElse other another isAnother)
        | @running _ other another isAnother samePort =>
            exact absurd (samePort.trans isPort.symm) (nobodyElse other another isAnother)
      · refine (sound.ports port).of_same ?_ (fun _ _ _ _ => rfl) ?_ ?_ rfl
        · intro other another samePort
          exact (executing?_other_port executes idle
            (fun other different => (sameOthers other different).symm) isPort samePort).symm
        · rw [nowStarted, Queue.to_append, Queue.to_cons_other isPort, Queue.to_nil,
            List.append_nil]
        · rw [isFinished]

theorem Sound.pool (sound : Sound messages settings service)
    {action : PagerRequests.Action workerCount}
    (isLegal : PagerRequests.PortsNotNull service.requests action)
    (taken : service.step messages (.pool action) = some next) : Sound messages settings next := by
  have poolStep : ∀ {requests}, service.requests.step action = some requests →
      requests.Serial := by
    intro requests stepped
    refine sound.serial.step ?_ stepped
    rintro port rfl
    exact isLegal
  have control : (∃ allocated, action = .inhibit allocated) ∨ action = .inhibitWakeup ∨
      action = .resume → ∀ {requests}, service.requests.step action = some requests →
        Sound messages settings { service with requests := requests } := by
    intro isControl requests stepped
    rcases PagerRequests.control_same isControl stepped with
      ⟨workers, -, -, started, finished, -⟩
    refine sound.of_workers (poolStep stepped) (fun index => ?_) started finished rfl rfl
    have sameWorker : requests.workers index = service.requests.workers index :=
      congrFun workers index
    unfold executing?
    rw [sameWorker]
  cases action with
  | finish index => cases taken
  | demux port =>
      cases taken
      exact sound.of_workers (poolStep rfl) (fun _ => rfl) rfl rfl rfl rfl
  | work index =>
      rcases Option.map_eq_some_iff.mp taken with ⟨requests, stepped, rfl⟩
      rcases PagerRequests.leftLock_workerFunc stepped with ⟨isBetween, left⟩
      refine sound.leftLock (poolStep stepped) ?_ (fun _ _ => rfl) rfl rfl left
      rw [executing?, isBetween]
  | wakeup index =>
      rcases Option.map_eq_some_iff.mp taken with ⟨requests, stepped, rfl⟩
      rcases PagerRequests.leftLock_wakeup stepped with ⟨isSleeping, left⟩
      have sameOthers : ∀ other, other ≠ index →
          ((service.requests.awake index).workers other).activity =
            (service.requests.workers other).activity := by
        intro other different
        exact congrArg Worker.activity (PagerRequests.setWorker_other _ _ different)
      refine sound.leftLock (poolStep stepped) ?_ sameOthers rfl rfl left
      rw [executing?, isSleeping]
  | inhibit allocated =>
      rcases Option.map_eq_some_iff.mp taken with ⟨requests, stepped, rfl⟩
      exact control (.inl ⟨allocated, rfl⟩) stepped
  | inhibitWakeup =>
      rcases Option.map_eq_some_iff.mp taken with ⟨requests, stepped, rfl⟩
      exact control (.inr (.inl rfl)) stepped
  | resume =>
      rcases Option.map_eq_some_iff.mp taken with ⟨requests, stepped, rfl⟩
      exact control (.inr (.inr rfl)) stepped

@[simp]
theorem pagers_setCalled (index : Fin workerCount) (called : Bool) :
    (service.setCalled index called).pagers = service.pagers := rfl

@[simp]
theorem pagers_setPager_self (threads : Threads Interned) :
    (service.setPager port threads).pagers port = threads :=
  Function.update_self ..

/-- A worker does something for the pager of its request. -/
theorem Sound.atPort (sound : Sound messages settings service) {index : Fin workerCount}
    {request : Request} (executes : service.executing? index = some request)
    (sameRequests : next.requests = service.requests)
    (otherCalled : ∀ other, other ≠ index → next.called other = service.called other)
    (otherPagers : ∀ port, port ≠ request.localPort → next.pagers port = service.pagers port)
    (own : PortState messages settings next request.localPort) :
    Sound messages settings next := by
  have sameExecuting : ∀ other, next.executing? other = service.executing? other := by
    intro other
    unfold executing?
    rw [sameRequests]
  refine ⟨sameRequests ▸ sound.serial, fun other isCalled => ?_, fun port => ?_⟩
  · rw [sameExecuting]
    by_cases same : other = index
    · rw [same, executes]
      simp
    · exact sound.executes other (otherCalled other same ▸ isCalled)
  · by_cases isPort : port = request.localPort
    · rw [isPort]
      exact own
    · refine (sound.ports port).of_same ?_ ?_ ?_ ?_ (otherPagers port isPort)
      · exact fun other another _ => by rw [sameExecuting]
      · intro other another samePort isAnother
        apply otherCalled
        rintro rfl
        cases executes.symm.trans isAnother
        exact isPort samePort.symm
      · rw [sameRequests]
      · rw [sameRequests]

theorem Sound.enter (sound : Sound messages settings service) {index : Fin workerCount}
    {stale : ℕ → Bool} (fits : ∀ number, (messages number).1.Fits)
    (isLegal : service.Legal messages (.enter index stale))
    (taken : service.step messages (.enter index stale) = some next) :
    Sound messages settings next := by
  rcases Option.bind_eq_some_iff.mp taken with ⟨request, executes, taken⟩
  rcases Option.bind_eq_some_iff.mp taken with ⟨_, mayCall, taken⟩
  rcases Option.bind_eq_some_iff.mp taken with ⟨threads, starts, ⟨⟩⟩
  have notCalled : service.called index = false := by simpa using mayCall
  refine sound.atPort executes rfl (fun _ different => Function.update_of_ne different _ _)
    (fun _ different => Function.update_of_ne different _ _) ?_
  cases sound.ports request.localPort with
  | free nobody => exact absurd rfl (nobody index request executes)
  | @running _ other another isAnother samePort isCalled =>
      cases oneAtATime sound.serial isAnother executes samePort
      cases isCalled.symm.trans notCalled
  | @taken state other another isAnother samePort _ isLast noThreads handled between =>
      cases oneAtATime sound.serial isAnother executes samePort
      cases isAnother.symm.trans executes
      refine .running executes rfl (Function.update_self ..) isLast ?_ handled between.2 ?_
      · intro id different
        rw [pagers_setCalled, pagers_setPager_self]
        rcases Threads.start_cases starts with ⟨-, shared, thread, -, rfl⟩
        exact (Threads.setThread_of_ne different _ thread).trans (noThreads id)
      · rw [pagers_setCalled, pagers_setPager_self]
        exact .start between.1 between.2 (fits request.number) (isLegal request executes) starts

/-- The worker of a pager has called the handler. -/
theorem Sound.running (sound : Sound messages settings service) {index : Fin workerCount}
    {request : Request} (executes : service.executing? index = some request)
    (isCalled : service.called index = true) :
    ∃ state : Pager × List Event,
      Queue.to service.requests.started request.localPort =
        Queue.to service.requests.finished request.localPort ++ [request] ∧
      (∀ id : ℕ, id ≠ index → (service.pagers request.localPort).threads id = none) ∧
      Transition.run Pager.record
        (inputsTo messages service.requests.finished request.localPort)
        (settings request.localPort).start = some state ∧
      state.1.Settled ∧
      Threads.InProgress index (messages request.number).2 state.2
        (state.1.handle (messages request.number)) (service.pagers request.localPort) := by
  cases sound.ports request.localPort with
  | free nobody => exact absurd rfl (nobody index request executes)
  | @taken _ other another isAnother samePort notCalled =>
      cases oneAtATime sound.serial isAnother executes samePort
      cases isCalled.symm.trans notCalled
  | @running state other another isAnother samePort _ isLast others handled settled inProgress =>
      cases oneAtATime sound.serial isAnother executes samePort
      cases isAnother.symm.trans executes
      exact ⟨state, isLast, others, handled, settled, inProgress⟩

theorem Sound.goOn (sound : Sound messages settings service) {index : Fin workerCount}
    {action : Threads.Action} (isLegal : service.Legal messages (.goOn index action))
    (taken : service.step messages (.goOn index action) = some next) :
    Sound messages settings next := by
  rcases Option.bind_eq_some_iff.mp taken with ⟨request, executes, taken⟩
  rcases Option.bind_eq_some_iff.mp taken with ⟨_, hasCalled, taken⟩
  rcases Option.bind_eq_some_iff.mp taken with ⟨threads, goesOn, ⟨⟩⟩
  have isCalled : service.called index = true := by simpa using hasCalled
  have isOwn := isLegal request executes
  rcases sound.running executes isCalled with
    ⟨state, isLast, others, handled, settled, inProgress⟩
  refine sound.atPort executes rfl (fun _ _ => rfl)
    (fun _ different => Function.update_of_ne different _ _) ?_
  refine .running executes rfl isCalled isLast ?_ handled settled ?_
  · intro id different
    rw [pagers_setPager_self]
    exact (isOwn.threads_other goesOn different).trans (others id different)
  · rw [pagers_setPager_self]
    exact inProgress.step isOwn goesOn

theorem handled_finished {state : Pager × List Event} {pager : Pager} {queue : Queue}
    {request : Request}
    (handled : Transition.run Pager.record (inputsTo messages queue request.localPort)
      (settings request.localPort).start = some state)
    (isOutcome : state.1.handle (messages request.number) = some pager) :
    Transition.run Pager.record (inputsTo messages (queue ++ [request]) request.localPort)
      (settings request.localPort).start = some (pager, state.2 ++ pager.sent) := by
  have isLast : inputsTo messages (queue ++ [request]) request.localPort =
      inputsTo messages queue request.localPort ++ [messages request.number] := by
    rw [inputsTo, Queue.to_append, Queue.to_cons_same rfl, Queue.to_nil, List.map_append]
    rfl
  rw [isLast, Transition.run_append, handled, Option.bind_some, Transition.run_cons, Pager.record,
    isOutcome]
  rfl

theorem Sound.leave (sound : Sound messages settings service) {index : Fin workerCount}
    (fits : ∀ number, (messages number).1.Fits)
    (taken : service.step messages (.leave index) = some next) :
    Sound messages settings next := by
  rcases Option.bind_eq_some_iff.mp taken with ⟨request, executes, taken⟩
  rcases Option.bind_eq_some_iff.mp taken with ⟨_, hasEnded, taken⟩
  rcases Option.bind_eq_some_iff.mp taken with ⟨requests, finished, isNext⟩
  have isEnd : service.called index = true ∧
    (service.pagers request.localPort).threads index = none := by simpa using hasEnded
  have serial : requests.Serial := sound.serial.finish finished
  rcases PagerRequests.finish_cases finished with ⟨done, isDone, rfl⟩
  cases executes.symm.trans (executing?_eq_some_iff.mpr isDone)
  have idle : next.executing? index = none := by
    cases isNext
    simp [executing?, setCalled]
  have sameOthers : ∀ other, other ≠ index → next.executing? other = service.executing? other := by
    intro other different
    cases isNext
    simp [executing?, setCalled, PagerRequests.setWorker_other _ _ different]
  have otherCalled : ∀ other, other ≠ index → next.called other = service.called other := by
    cases isNext
    exact fun other different => Function.update_of_ne different _ _
  have notCalled : next.called index = false := by
    cases isNext
    exact Function.update_self ..
  have isFinished : next.requests.finished = service.requests.finished ++ [request] := by
    cases isNext
    rfl
  have isStarted : next.requests.started = service.requests.started := by
    cases isNext
    rfl
  have samePagers : next.pagers = service.pagers := by
    cases isNext
    rfl
  have nextSerial : next.requests.Serial := by
    cases isNext
    exact serial
  clear isNext serial
  refine ⟨nextSerial, fun other isCalled => ?_, fun port => ?_⟩
  · by_cases same : other = index
    · cases notCalled.symm.trans (same ▸ isCalled)
    · rw [sameOthers other same]
      exact sound.executes other (otherCalled other same ▸ isCalled)
  · by_cases isPort : request.localPort = port
    · subst isPort
      rcases sound.running executes isEnd.1 with
        ⟨state, isLast, others, handled, settled, inProgress⟩
      cases inProgress with
      | released isThread => cases isEnd.2.symm.trans isThread
      | @ended pager _ isOutcome mirrors =>
          refine .free ?_ ?_ ?_ (isFinished ▸ handled_finished handled isOutcome)
            (samePagers ▸ mirrors.between (settled.handle (fits request.number) isOutcome))
          · intro other another isAnother samePort
            by_cases same : other = index
            · cases idle.symm.trans (same ▸ isAnother)
            · exact same (oneAtATime sound.serial
                ((sameOthers other same).symm.trans isAnother) executes samePort)
          · rw [isFinished, isStarted, Queue.to_append, Queue.to_cons_same rfl, Queue.to_nil]
            exact isLast
          · intro id
            rw [samePagers]
            by_cases same : id = index
            · rw [same]
              exact isEnd.2
            · exact others id same
    · refine (sound.ports port).of_same ?_ ?_ (by rw [isStarted]) ?_ (by rw [samePagers])
      · exact fun other another samePort =>
          executing?_other_port executes idle sameOthers isPort samePort
      · intro other another samePort isAnother
        apply otherCalled
        rintro rfl
        cases executes.symm.trans isAnother
        exact isPort samePort
      · rw [isFinished, Queue.to_append, Queue.to_cons_other isPort, Queue.to_nil, List.append_nil]

theorem Sound.share (sound : Sound messages settings service) {entry : PagemapEntry}
    (taken : service.step messages (.share port entry) = some next) :
    Sound messages settings next := by
  cases taken
  refine ⟨sound.serial, sound.executes, fun other => ?_⟩
  by_cases same : other = port
  · subst same
    cases sound.ports other with
    | free nobody allFinished noThreads handled between =>
        refine .free nobody allFinished ?_ handled ?_
        · rw [pagers_setPager_self]
          exact noThreads
        · rw [pagers_setPager_self]
          exact ⟨between.1.share entry, between.2⟩
    | taken executes isPort notCalled isLast noThreads handled between =>
        refine .taken executes isPort notCalled isLast ?_ handled ?_
        · rw [pagers_setPager_self]
          exact noThreads
        · rw [pagers_setPager_self]
          exact ⟨between.1.share entry, between.2⟩
    | running executes isPort isCalled isLast others handled settled inProgress =>
        refine .running executes isPort isCalled isLast ?_ handled settled ?_
        · rw [pagers_setPager_self]
          exact others
        · rw [pagers_setPager_self]
          exact inProgress.step (.share entry) rfl
  · exact (sound.ports other).of_same (fun _ _ _ => Iff.rfl) (fun _ _ _ _ => rfl) rfl rfl
      (Function.update_of_ne same _ _)

theorem Sound.step {action : Action workerCount} (sound : Sound messages settings service)
    (fits : ∀ number, (messages number).1.Fits) (isLegal : service.Legal messages action)
    (taken : service.step messages action = some next) : Sound messages settings next := by
  cases action with
  | pool action => exact sound.pool isLegal taken
  | enter index stale => exact sound.enter fits isLegal taken
  | goOn index action => exact sound.goOn isLegal taken
  | leave index => exact sound.leave fits taken
  | share port entry => exact sound.share taken

theorem sound_create (messages : ℕ → Input × Callbacks) (settings : ℕ → Settings)
    (leftovers : ℕ → PagemapEntry) :
    Sound messages settings (create settings leftovers : Service workerCount) where
  serial := .initial
  executes := by
    intro index isCalled
    cases isCalled
  ports port := by
    refine .free ?_ rfl (fun _ => rfl) rfl Threads.between_create
    intro index request executes
    cases executes

/-- The handlers of a pager have been called in the order of the requests to it. -/
structure Serves (messages : ℕ → Input × Callbacks) (settings : ℕ → Settings)
    (service : Service workerCount) (port : ℕ) : Prop where
  inOrder : Queue.to service.requests.finished port <+: Queue.to service.requests.enqueued port
  handled : ∃ state, Transition.run Pager.record
      (inputsTo messages service.requests.finished port) (settings port).start = some state ∧
    state.2 <+: (service.pagers port).pager.sent ∧
    ((∀ index request, service.executing? index = some request → request.localPort ≠ port) →
      Mirrors.Between state (service.pagers port).pager)

theorem Sound.serves (sound : Sound messages settings service) (port : ℕ) :
    service.Serves messages settings port := by
  have ofStarted : ∀ {rest}, Queue.to service.requests.started port =
      Queue.to service.requests.finished port ++ rest →
      Queue.to service.requests.finished port <+: Queue.to service.requests.enqueued port := by
    intro rest isStarted
    rcases sound.serial.ordered port with ⟨delegated, ordered, -⟩
    rw [ordered, isStarted, List.append_assoc]
    exact List.prefix_append _ _
  have ofBetween : ∀ {state}, Mirrors.Between state (service.pagers port).pager →
      state.2 <+: (service.pagers port).pager.sent := by
    intro state between
    rw [between.1.sent]
    exact List.prefix_append _ _
  cases sound.ports port with
  | @free state nobody allFinished noThreads handled between =>
      refine ⟨ofStarted (allFinished.trans (List.append_nil _).symm), state, handled,
        ofBetween between, fun _ => between⟩
  | @taken state index request executes isPort notCalled isLast noThreads handled between =>
      exact ⟨ofStarted isLast, state, handled, ofBetween between, fun _ => between⟩
  | @running state index request executes isPort isCalled isLast others handled settled
      inProgress =>
      exact ⟨ofStarted isLast, state, handled, inProgress.isPrefix,
        fun nobody => absurd isPort (nobody index request executes)⟩

/--
However the workers take turns, the requests to a pager are handled one after the other in the
order in which they came, just as `Pager.handle` does.
-/
theorem serves_of_reachable {leftovers : ℕ → PagemapEntry}
    (fits : ∀ number, (messages number).1.Fits)
    (reached : Transition.Reachable (step messages) (Legal messages)
      (create settings leftovers : Service workerCount) service) (port : ℕ) :
    service.Serves messages settings port := by
  have sound : Sound messages settings service :=
    reached.invariant (Sound messages settings) (sound_create messages settings leftovers)
      fun before isLegal taken => before.step fits isLegal taken
  exact sound.serves port

/-- Two requests to one pager and one to another -/
def threeMessages (number : ℕ) : Input × Callbacks :=
  (if number = 1 then .dataRequest 1 4096 4096 2 else .objectInit 1 4096,
    fun _ => { read := { buffer := 7 } })

/-- The second worker delegates a request, and its handler ends while the first one waits. -/
def twoWorkersRun (first second : Fin 2) : List (Action 2) :=
  [.pool (.demux 5), .pool (.demux 5), .pool (.demux 6), .pool (.work first), .pool (.work second),
    .enter second fun _ => false, .enter first fun _ => false, .leave first, .pool (.work first),
    .enter first fun _ => false, .goOn first (.call first), .leave second, .pool (.work second),
    .share 5 {}, .goOn first (.finish first { read := { buffer := 7 } }),
    .goOn first (.resume first), .leave first]

theorem serves_twoWorkers :
    ∃ service, Transition.run (step threeMessages) (twoWorkersRun 0 1)
        (create (fun _ => ⟨4096, by decide, true, 0, true⟩) fun _ => {}) = some service ∧
      (service.pagers 5).pager.sent =
        [.ready 1 true 0, .page 1 .readPage, .page 1 (.dataSupply ∅ 1 7 true 0 true)] ∧
      ∀ port, service.Serves threeMessages (fun _ => ⟨4096, by decide, true, 0, true⟩) port := by
  have ran : (Transition.run (step threeMessages) (twoWorkersRun 0 1)
      (create (fun _ => ⟨4096, by decide, true, 0, true⟩) fun _ => {})).map (fun service => (service.pagers 5).pager.sent) =
    some [.ready 1 true 0, .page 1 .readPage, .page 1 (.dataSupply ∅ 1 7 true 0 true)] := by
    decide +kernel
  rcases Option.map_eq_some_iff.mp ran with ⟨service, finished, isSent⟩
  have fits : ∀ number, (threeMessages number).1.Fits := by
    intro number
    rw [threeMessages]
    dsimp only
    split_ifs
    · show 4096 + 4096 ≤ offsetRange
      decide
    · trivial
  refine ⟨service, finished, isSent, fun port => serves_of_reachable fits
    (Transition.Reachable.start.of_run (twoWorkersRun 0 1) (.of_always ?_ _) finished) port⟩
  intro action isAction state
  simp only [twoWorkersRun, List.mem_cons, List.not_mem_nil, or_false] at isAction
  rcases isAction with rfl | rfl | rfl | rfl | rfl | rfl | rfl | rfl | rfl | rfl | rfl | rfl |
    rfl | rfl | rfl | rfl | rfl
  all_goals simp [Legal, PagerRequests.PortsNotNull, threeMessages]
  · exact fun _ _ => .call
  · exact fun _ _ => .finish fun _ _ _ _ => rfl
  · exact fun _ _ => .resume

end Service

end Hurd.Libpager
