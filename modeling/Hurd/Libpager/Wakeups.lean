import Hurd.Lib.Progress
import Hurd.Libpager.Inhibit
import Mathlib.Algebra.Order.BigOperators.Group.Finset

/-!
# No wake-up of the workers is lost

The condition variables of the worker pool.  A worker that waits goes on when it has been
signalled: `pager_demuxer` signals one of those that wait, and only where some worker is counted
asleep and `queue_in` is `queue_out`; the last worker to fall asleep signals those that wait in
`pager_inhibit_workers`.  A wait may also end without a signal, but nothing depends on it.

Whenever there is a request to execute, some worker is awake or signalled.  Left to itself the
pool takes a bounded number of steps, and when it can take no more, every request that came while
the workers were not inhibited has been executed and no thread waits for the workers to drain
the queue.
-/

namespace Hurd.Libpager

/-- The worker pool, with the threads that have been signalled and have not gone on yet. -/
structure WorkerPool (workerCount : ℕ) where
  requests : PagerRequests workerCount := {}
  signalled : Fin workerCount → Bool := fun _ => false
  inhibitSignalled : ℕ := 0

namespace WorkerPool

variable {workerCount : ℕ}

inductive Act (workerCount : ℕ)
  /-- with the worker that `pthread_cond_signal` wakes, if it wakes one -/
  | demux (localPort : ℕ) (woken : Option (Fin workerCount))
  | work (index : Fin workerCount)
  | wakeup (index : Fin workerCount)
  | finish (index : Fin workerCount)
  | inhibit (allocated : Option ℕ)
  | inhibitWakeup
  | resume
  /-- `pthread_cond_wait` returns to a worker that nobody has signalled. -/
  | spurious (index : Fin workerCount)
  | inhibitSpurious

/-- The same without the signals -/
def Act.action : Act workerCount → PagerRequests.Action workerCount
  | .demux localPort _ => .demux localPort
  | .work index => .work index
  | .wakeup index => .wakeup index
  | .finish index => .finish index
  | .inhibit allocated => .inhibit allocated
  | .inhibitWakeup => .inhibitWakeup
  | .resume => .resume
  | .spurious index => .wakeup index
  | .inhibitSpurious => .inhibitWakeup

/-- A worker is in `pthread_cond_wait` and has not been signalled. -/
def Blocked (pool : WorkerPool workerCount) (index : Fin workerCount) : Prop :=
  (pool.requests.workers index).activity = .sleeping ∧ pool.signalled index = false

instance (pool : WorkerPool workerCount) (index : Fin workerCount) :
    Decidable (pool.Blocked index) := inferInstanceAs (Decidable (_ ∧ _))

/-- `if (requests->asleep > 0 && requests->queue_in == requests->queue_out)` -/
def signal (pool : WorkerPool workerCount) (woken : Option (Fin workerCount)) :
    Option (Fin workerCount → Bool) :=
  if 0 < pool.requests.asleep ∧ pool.requests.queueIn = pool.requests.queueOut then
    match woken with
    | some index => do
        guard (pool.Blocked index)
        some (Function.update pool.signalled index true)
    | none => do
        guard (∀ index, ¬pool.Blocked index)
        some pool.signalled
  else do
    guard (woken = none)
    some pool.signalled

/-- `if (requests->asleep == WORKER_COUNT)`, as a worker falls asleep -/
def leave (pool : WorkerPool workerCount) (index : Fin workerCount)
    (next : PagerRequests workerCount) : WorkerPool workerCount where
  requests := next
  signalled := Function.update pool.signalled index false
  inhibitSignalled :=
    if (next.workers index).activity = .sleeping ∧ next.asleep = workerCount then next.inhibiting
    else pool.inhibitSignalled

def step (pool : WorkerPool workerCount) : Act workerCount → Option (WorkerPool workerCount)
  | .demux localPort woken => do
      let signalled ← pool.signal woken
      some { pool with requests := pool.requests.pagerDemuxer localPort, signalled := signalled }
  | .work index => (pool.requests.workerFunc index).map (pool.leave index)
  | .wakeup index => do
      guard (pool.signalled index)
      (pool.requests.wakeup index).map (pool.leave index)
  | .finish index =>
      (pool.requests.finish index).map fun next => { pool with requests := next }
  | .inhibit allocated =>
      (pool.requests.pagerInhibitWorkers allocated).map fun next => { pool with requests := next }
  | .inhibitWakeup => do
      guard (0 < pool.inhibitSignalled)
      (pool.requests.inhibitWakeup).map fun next =>
        { pool with requests := next, inhibitSignalled := pool.inhibitSignalled - 1 }
  | .resume =>
      pool.requests.pagerResumeWorkers.map fun next =>
        { pool with
          requests := next
          signalled := fun index => decide ((next.workers index).activity = .sleeping) }
  | .spurious index => do
      guard (pool.Blocked index)
      (pool.requests.wakeup index).map (pool.leave index)
  | .inhibitSpurious => do
      guard (pool.inhibitSignalled < pool.requests.inhibiting)
      (pool.requests.inhibitWakeup).map fun next => { pool with requests := next }

/-- A step of the threads of the pool, taken because they are where they are. -/
def Act.Own : Act workerCount → Prop
  | .work _ => True
  | .wakeup _ => True
  | .finish _ => True
  | .inhibitWakeup => True
  | .demux .. => False
  | .inhibit _ => False
  | .resume => False
  | .spurious _ => False
  | .inhibitSpurious => False

variable {pool next : WorkerPool workerCount} {act : Act workerCount} {index : Fin workerCount}

/-- Without the signals, a step of the pool is one of `PagerRequests`. -/
theorem step_requests (taken : pool.step act = some next) :
    pool.requests.step act.action = some next.requests := by
  cases act with
  | demux localPort woken =>
      rcases Option.bind_eq_some_iff.mp taken with ⟨_, _, ⟨⟩⟩
      rfl
  | work index =>
      rcases Option.map_eq_some_iff.mp taken with ⟨_, worked, rfl⟩
      exact worked
  | wakeup index =>
      rcases Option.bind_eq_some_iff.mp taken with ⟨_, _, taken⟩
      rcases Option.map_eq_some_iff.mp taken with ⟨_, woken, rfl⟩
      exact woken
  | finish index =>
      rcases Option.map_eq_some_iff.mp taken with ⟨_, finished, rfl⟩
      exact finished
  | inhibit allocated =>
      rcases Option.map_eq_some_iff.mp taken with ⟨_, inhibited, rfl⟩
      exact inhibited
  | inhibitWakeup =>
      rcases Option.bind_eq_some_iff.mp taken with ⟨_, _, taken⟩
      rcases Option.map_eq_some_iff.mp taken with ⟨_, woken, rfl⟩
      exact woken
  | resume =>
      rcases Option.map_eq_some_iff.mp taken with ⟨_, resumed, rfl⟩
      exact resumed
  | spurious index =>
      rcases Option.bind_eq_some_iff.mp taken with ⟨_, _, taken⟩
      rcases Option.map_eq_some_iff.mp taken with ⟨_, woken, rfl⟩
      exact woken
  | inhibitSpurious =>
      rcases Option.bind_eq_some_iff.mp taken with ⟨_, _, taken⟩
      rcases Option.map_eq_some_iff.mp taken with ⟨_, woken, rfl⟩
      exact woken

/-- Somebody will look at `queue_out`, and whoever waits for it to be drained is told. -/
structure Attended (pool : WorkerPool workerCount) : Prop where
  queue : pool.requests.queues pool.requests.queueOut ≠ [] → ∃ index, ¬pool.Blocked index
  told : pool.requests.drained = true → pool.inhibitSignalled = pool.requests.inhibiting

theorem drained_iff {requests : PagerRequests workerCount} :
    requests.drained = true ↔
      workerCount ≤ requests.asleep ∧ requests.queues requests.queueOut = [] := by
  simp [PagerRequests.drained]

theorem asleep_le {requests : PagerRequests workerCount} (counted : requests.Counted) :
    requests.asleep ≤ workerCount := by
  rw [counted]
  exact (Finset.card_le_univ _).trans (le_of_eq (Fintype.card_fin _))

theorem not_blocked_of_activity {index : Fin workerCount}
    (awake : (pool.requests.workers index).activity ≠ .sleeping) : ¬pool.Blocked index :=
  fun blocked => awake blocked.1

/-- A worker leaves the lock with a request, or with `queue_out` empty and the waiters told. -/
theorem attended_leave {base after : PagerRequests workerCount} {index : Fin workerCount}
    (left : base.LeftLock after index) (counted : after.Counted) :
    (pool.leave index after).Attended := by
  constructor
  · intro notEmpty
    rcases left.outcome with ⟨_, _, _, isEmpty⟩ | ⟨request, isExecuting, _⟩
    · exact absurd isEmpty notEmpty
    · exact ⟨index, not_blocked_of_activity (by simp [leave, isExecuting])⟩
  · intro isDrained
    rcases drained_iff.mp isDrained with ⟨all, _⟩
    have isSleeping := counted.all_sleeping all index
    have isAll : after.asleep = workerCount := le_antisymm (asleep_le counted) all
    exact if_pos ⟨isSleeping, isAll⟩

theorem signal_cases {woken : Option (Fin workerCount)} {signalled : Fin workerCount → Bool}
    (isSignalled : pool.signal woken = some signalled) :
    (∃ index, signalled = Function.update pool.signalled index true) ∨
      signalled = pool.signalled ∧ ((∀ index, ¬pool.Blocked index) ∨
        ¬(0 < pool.requests.asleep ∧ pool.requests.queueIn = pool.requests.queueOut)) := by
  unfold signal at isSignalled
  split at isSignalled
  · split at isSignalled
    · rename_i index
      rcases Option.bind_eq_some_iff.mp isSignalled with ⟨_, _, ⟨⟩⟩
      exact .inl ⟨index, rfl⟩
    · rcases Option.bind_eq_some_iff.mp isSignalled with ⟨_, noneBlocked, ⟨⟩⟩
      exact .inr ⟨rfl, .inl (by simpa using noneBlocked)⟩
  · rename_i noSignal
    rcases Option.bind_eq_some_iff.mp isSignalled with ⟨_, _, ⟨⟩⟩
    exact .inr ⟨rfl, .inr noSignal⟩

/-- `pager_demuxer` leaves somebody to look at `queue_out`. -/
theorem attended_demux {localPort : ℕ} {woken : Option (Fin workerCount)}
    (positive : 0 < workerCount) (counted : pool.requests.Counted) (attended : pool.Attended)
    (taken : pool.step (.demux localPort woken) = some next) : next.Attended := by
  rcases Option.bind_eq_some_iff.mp taken with ⟨signalled, isSignalled, ⟨⟩⟩
  by_cases same : pool.requests.queueIn = pool.requests.queueOut
  · constructor
    · intro _
      rcases signal_cases isSignalled with ⟨index, rfl⟩ | ⟨rfl, noneBlocked | noSignal⟩
      · refine ⟨index, fun blocked => ?_⟩
        simp [Blocked] at blocked
      · exact ⟨⟨0, positive⟩, noneBlocked _⟩
      · refine ⟨⟨0, positive⟩, not_blocked_of_activity fun isSleeping => noSignal ⟨?_, same⟩⟩
        rw [counted]
        exact Finset.card_pos.mpr ⟨_, PagerRequests.mem_sleepers.mpr isSleeping⟩
    · intro isDrained
      rcases drained_iff.mp isDrained with ⟨_, isEmpty⟩
      simp [PagerRequests.pagerDemuxer, PagerRequests.setQueue, queueEnqueue, same] at isEmpty
  · have sameQueue : (pool.requests.pagerDemuxer localPort).queues pool.requests.queueOut =
        pool.requests.queues pool.requests.queueOut := by
      simp [PagerRequests.pagerDemuxer, PagerRequests.setQueue, Ne.symm same]
    constructor
    · intro notEmpty
      rcases attended.queue (sameQueue ▸ notEmpty) with ⟨index, notBlocked⟩
      rcases signal_cases isSignalled with ⟨woken, rfl⟩ | ⟨rfl, _⟩
      · refine ⟨woken, fun blocked => ?_⟩
        simp [Blocked] at blocked
      · exact ⟨index, notBlocked⟩
    · intro isDrained
      apply attended.told
      rw [drained_iff] at isDrained ⊢
      exact ⟨isDrained.1, sameQueue ▸ isDrained.2⟩

/-- The end of `pager_inhibit_workers`, where the workers and `queue_out` are as before -/
theorem Attended.awaitDrained (attended : pool.Attended) {base : PagerRequests workerCount}
    {count : ℕ} (sameWorkers : base.workers = pool.requests.workers)
    (sameQueue : base.queues base.queueOut = pool.requests.queues pool.requests.queueOut)
    (told : base.drained = true → count = base.inhibiting) :
    ({ pool with requests := base.awaitDrained, inhibitSignalled := count } :
      WorkerPool workerCount).Attended := by
  have someoneLooks : base.queues base.queueOut ≠ [] → ∃ index,
      ¬((base.workers index).activity = .sleeping ∧ pool.signalled index = false) := by
    rw [sameQueue, sameWorkers]
    exact attended.queue
  rcases PagerRequests.awaitDrained_cases base with ⟨all, isEmpty, isNext⟩ | isNext
  · rw [isNext]
    exact ⟨someoneLooks, told⟩
  · rw [isNext]
    refine ⟨someoneLooks, fun isDrained => ?_⟩
    have before : base.drained = true := isDrained
    rw [PagerRequests.awaitDrained, if_pos before] at isNext
    have sameCount := congrArg PagerRequests.inhibiting isNext
    exact absurd sameCount (Nat.ne_of_lt (Nat.lt_succ_self _))

theorem Attended.step (attended : pool.Attended) (positive : 0 < workerCount)
    (counted : pool.requests.Counted) (taken : pool.step act = some next) : next.Attended := by
  have nextCounted : next.requests.Counted := counted.step (step_requests taken)
  cases act with
  | demux localPort woken => exact attended_demux positive counted attended taken
  | work index =>
      rcases Option.map_eq_some_iff.mp taken with ⟨_, worked, rfl⟩
      exact attended_leave (PagerRequests.leftLock_workerFunc worked).2 nextCounted
  | wakeup index =>
      rcases Option.bind_eq_some_iff.mp taken with ⟨_, _, taken⟩
      rcases Option.map_eq_some_iff.mp taken with ⟨_, woken, rfl⟩
      exact attended_leave (PagerRequests.leftLock_wakeup woken).2 nextCounted
  | spurious index =>
      rcases Option.bind_eq_some_iff.mp taken with ⟨_, _, taken⟩
      rcases Option.map_eq_some_iff.mp taken with ⟨_, woken, rfl⟩
      exact attended_leave (PagerRequests.leftLock_wakeup woken).2 nextCounted
  | finish index =>
      rcases Option.map_eq_some_iff.mp taken with ⟨_, finished, rfl⟩
      rcases PagerRequests.finish_cases finished with ⟨_, _, rfl⟩
      refine ⟨fun _ => ⟨index, not_blocked_of_activity (by simp)⟩, attended.told⟩
  | inhibit allocated =>
      rcases Option.map_eq_some_iff.mp taken with ⟨_, inhibited, rfl⟩
      rcases PagerRequests.pagerInhibitWorkers_cases inhibited with
        ⟨isSame, rfl | ⟨address, isNew, rfl⟩⟩
      · exact attended
      · have sameQueue : Function.update pool.requests.queues address [] pool.requests.queueOut =
            pool.requests.queues pool.requests.queueOut := by
          rw [isSame, Function.update_of_ne (Ne.symm isNew)]
        refine attended.awaitDrained rfl sameQueue fun isDrained => attended.told ?_
        rw [drained_iff] at isDrained ⊢
        exact ⟨isDrained.1, sameQueue ▸ isDrained.2⟩
  | inhibitWakeup =>
      rcases Option.bind_eq_some_iff.mp taken with ⟨_, _, taken⟩
      rcases Option.map_eq_some_iff.mp taken with ⟨_, woken, rfl⟩
      rcases PagerRequests.inhibitWakeup_cases woken with ⟨_, rfl⟩
      refine attended.awaitDrained rfl rfl fun isDrained => ?_
      exact congrArg (· - 1) (attended.told isDrained)
  | inhibitSpurious =>
      rcases Option.bind_eq_some_iff.mp taken with ⟨_, fewer, taken⟩
      rcases Option.map_eq_some_iff.mp taken with ⟨_, woken, rfl⟩
      rcases PagerRequests.inhibitWakeup_cases woken with ⟨_, rfl⟩
      have isFewer : pool.inhibitSignalled < pool.requests.inhibiting := by simpa using fewer
      refine attended.awaitDrained rfl rfl fun isDrained => ?_
      exact absurd (attended.told isDrained) (Nat.ne_of_lt isFewer)
  | resume =>
      rcases Option.map_eq_some_iff.mp taken with ⟨_, resumed, rfl⟩
      rcases PagerRequests.pagerResumeWorkers_cases resumed with ⟨_, isEmpty, rfl⟩
      constructor
      · intro _
        refine ⟨⟨0, positive⟩, fun blocked => ?_⟩
        exact of_decide_eq_false blocked.2 blocked.1
      · intro isDrained
        exact attended.told (drained_iff.mpr ⟨(drained_iff.mp isDrained).1, isEmpty⟩)

/-- What holds of the pool after every run. -/
structure Sound (pool : WorkerPool workerCount) : Prop where
  serial : pool.requests.Serial
  accounted : pool.requests.Accounted
  counted : pool.requests.Counted
  attended : pool.Attended

/-- No message has the null port as its destination. -/
def PortsNotNull (pool : WorkerPool workerCount) (act : Act workerCount) : Prop :=
  PagerRequests.PortsNotNull pool.requests act.action

theorem Act.Own.portsNotNull (isOwn : act.Own) : pool.PortsNotNull act := by
  cases act <;> trivial

theorem Sound.step (sound : pool.Sound) (positive : 0 < workerCount)
    (portsNotNull : pool.PortsNotNull act) (taken : pool.step act = some next) : next.Sound := by
  have isStep := step_requests taken
  refine ⟨sound.serial.step ?_ isStep, sound.accounted.step isStep, sound.counted.step isStep,
    sound.attended.step positive sound.counted taken⟩
  intro port isDemux
  rw [PortsNotNull, isDemux] at portsNotNull
  exact portsNotNull

theorem Sound.initial : ({} : WorkerPool workerCount).Sound where
  serial := .initial
  accounted := by
    intro request requestMem
    cases requestMem
  counted := .initial
  attended := ⟨fun notEmpty => absurd rfl notEmpty, fun _ => rfl⟩

theorem sound_of_reachable (positive : 0 < workerCount)
    (reached : Transition.Reachable step PortsNotNull ({} : WorkerPool workerCount) pool) :
    pool.Sound :=
  reached.invariant Sound .initial fun sound portsNotNull taken =>
    sound.step positive portsNotNull taken

/-- None of the threads of the pool can go on, unless something comes from outside. -/
def AtRest (pool : WorkerPool workerCount) : Prop :=
  ∀ act : Act workerCount, act.Own → pool.step act = none

theorem AtRest.sleeping (atRest : pool.AtRest) (index : Fin workerCount) :
    (pool.requests.workers index).activity = .sleeping := by
  cases isActivity : (pool.requests.workers index).activity with
  | between =>
      have stuck := atRest (.work index) trivial
      simp only [step, PagerRequests.workerFunc, isActivity, guard_true, Option.pure_def] at stuck
      cases isQueue : queueDequeue (pool.requests.workers index).queue <;> simp [isQueue] at stuck
  | executing request =>
      have stuck := atRest (.finish index) trivial
      simp [step, PagerRequests.finish, isActivity] at stuck
  | sleeping => rfl

theorem AtRest.blocked (atRest : pool.AtRest) (index : Fin workerCount) : pool.Blocked index := by
  have isSleeping := atRest.sleeping index
  refine ⟨isSleeping, ?_⟩
  cases isSignalled : pool.signalled index with
  | false => rfl
  | true =>
      have stuck := atRest (.wakeup index) trivial
      simp [step, PagerRequests.wakeup, isSleeping, isSignalled] at stuck

/-- Every request has been executed that is not held back, and nobody waits for the workers. -/
structure Settled (requests : PagerRequests workerCount) : Prop where
  executed : ∀ request ∈ requests.enqueued, request ∈ requests.finished ∨
    requests.queueIn ≠ requests.queueOut ∧ request ∈ requests.queues requests.queueIn
  nobodyWaits : requests.inhibiting = 0

/-- No wake-up is lost: where the pool is at rest, there is nothing that it should do. -/
theorem Sound.settled (sound : pool.Sound) (atRest : pool.AtRest) : Settled pool.requests := by
  have isEmpty : pool.requests.queues pool.requests.queueOut = [] := by
    by_contra notEmpty
    rcases sound.attended.queue notEmpty with ⟨index, notBlocked⟩
    exact notBlocked (atRest.blocked index)
  have allAsleep : workerCount ≤ pool.requests.asleep := by
    have allSleep : pool.requests.sleepers = Finset.univ :=
      Finset.eq_univ_iff_forall.mpr fun index =>
        PagerRequests.mem_sleepers.mpr (atRest.sleeping index)
    rw [sound.counted, allSleep, Finset.card_univ, Fintype.card_fin]
  constructor
  · intro request requestMem
    rcases (sound.serial.inTurn sound.accounted).notLost request requestMem with
      isNew | isOld | ⟨index, delegated⟩ | ⟨index, isExecuting⟩ | isFinished
    · by_cases same : pool.requests.queueIn = pool.requests.queueOut
      · rw [same, isEmpty] at isNew
        cases isNew
      · exact .inr ⟨same, isNew⟩
    · rw [isEmpty] at isOld
      cases isOld
    · have noTag := sound.serial.sleeping index (atRest.sleeping index)
      rw [sound.serial.untagged index noTag] at delegated
      cases delegated
    · rw [atRest.sleeping index] at isExecuting
      cases isExecuting
    · exact .inl isFinished
  · have told := sound.attended.told (drained_iff.mpr ⟨allAsleep, isEmpty⟩)
    by_contra someWait
    have positive : 0 < pool.requests.inhibiting := Nat.pos_of_ne_zero someWait
    have stuck := atRest .inhibitWakeup trivial
    simp [WorkerPool.step, PagerRequests.inhibitWakeup, told, positive] at stuck

/-- What a worker may still do before it looks for another request. -/
def potential (pool : WorkerPool workerCount) (index : Fin workerCount) : ℕ :=
  match (pool.requests.workers index).activity with
  | .executing _ => 2
  | .between => 1
  | .sleeping => if pool.signalled index then 1 else 0

/-- What the workers may still do -/
def remaining (pool : WorkerPool workerCount) : ℕ :=
  2 * (pool.requests.enqueued.length - pool.requests.started.length) +
    ∑ index, pool.potential index

/-- A bound for the steps of the pool until it is at rest -/
def effort (pool : WorkerPool workerCount) : ℕ :=
  (pool.requests.inhibiting + 1) * pool.remaining + pool.inhibitSignalled

theorem potential_le (pool : WorkerPool workerCount) (index : Fin workerCount) :
    pool.potential index ≤ 2 := by
  unfold potential
  split
  · exact le_rfl
  · omega
  · split <;> omega

theorem sum_potential (others : ∀ other : Fin workerCount, other ≠ index →
      next.potential other = pool.potential other) :
    ∑ other, next.potential other + pool.potential index =
      ∑ other, pool.potential other + next.potential index := by
  have sameRest : ∑ other ∈ Finset.univ.erase index, next.potential other =
      ∑ other ∈ Finset.univ.erase index, pool.potential other :=
    Finset.sum_congr rfl fun other otherMem => others other (Finset.ne_of_mem_erase otherMem)
  rw [← Finset.add_sum_erase _ _ (Finset.mem_univ index),
    ← Finset.add_sum_erase _ pool.potential (Finset.mem_univ index), sameRest]
  omega

theorem started_le (sound : pool.Sound) :
    pool.requests.started.length ≤ pool.requests.enqueued.length := by
  have inTurn := sound.serial.inTurn sound.accounted
  refine (List.subperm_of_subset inTurn.atMostOnce ?_).length_le
  intro request requestMem
  have isThere : request ∈ Queue.to pool.requests.started request.localPort :=
    Queue.mem_to.mpr ⟨requestMem, rfl⟩
  exact (Queue.mem_to.mp ((inTurn.inOrder request.localPort).subset isThere)).1

/-- A worker that leaves the lock lowers the bound. -/
theorem effort_leave {base after : PagerRequests workerCount} (left : base.LeftLock after index)
    (sameBase : base.inhibiting = pool.requests.inhibiting ∧
      base.enqueued = pool.requests.enqueued ∧ base.started = pool.requests.started ∧
      ∀ other, other ≠ index →
        (base.workers other).activity = (pool.requests.workers other).activity)
    (ready : pool.potential index = 1) (sound : (pool.leave index after).Sound) :
    (pool.leave index after).effort < pool.effort := by
  rcases sameBase with ⟨sameInhibiting, sameEnqueued, sameStarted, sameOthers⟩
  have sameRequests : (pool.leave index after).requests = after := rfl
  have others : ∀ other, other ≠ index →
      (pool.leave index after).potential other = pool.potential other := by
    intro other different
    have sameActivity : (after.workers other).activity = (pool.requests.workers other).activity :=
      (left.others other different).trans (sameOthers other different)
    simp [potential, leave, sameActivity, Function.update_of_ne different]
  have isSum := sum_potential others
  have bound : after.started.length ≤ after.enqueued.length := started_le sound
  have oneLess : (pool.leave index after).remaining + 1 = pool.remaining := by
    rw [ready] at isSum
    rw [left.sameEnqueued, sameEnqueued] at bound
    rw [remaining, remaining, sameRequests, left.sameEnqueued, sameEnqueued]
    rcases left.outcome with ⟨isSleeping, _, isStarted, _⟩ | ⟨request, isExecuting, _, isStarted⟩
    · have isZero : (pool.leave index after).potential index = 0 := by
        simp [potential, leave, isSleeping]
      rw [isStarted, sameStarted]
      omega
    · have isTwo : (pool.leave index after).potential index = 2 := by
        simp [potential, leave, isExecuting]
      rw [isStarted, sameStarted, List.length_append, List.length_singleton] at bound ⊢
      omega
  have isInhibiting : after.inhibiting = pool.requests.inhibiting :=
    left.sameInhibiting.trans sameInhibiting
  have told : (pool.leave index after).inhibitSignalled ≤
      pool.requests.inhibiting + pool.inhibitSignalled := by
    simp only [leave, isInhibiting]
    split_ifs <;> omega
  rw [effort, effort, sameRequests, isInhibiting, ← oneLess, Nat.mul_succ]
  omega

/-- A routine that returns lowers the bound. -/
theorem effort_finish {request : Request}
    (isExecuting : (pool.requests.workers index).activity = .executing request)
    (isNext : next = { pool with
      requests := { pool.requests.setWorker index
        { pool.requests.workers index with activity := .between } with
        finished := pool.requests.finished ++ [request] } }) : next.effort < pool.effort := by
  have others : ∀ other, other ≠ index → next.potential other = pool.potential other := by
    intro other different
    subst isNext
    simp [potential, PagerRequests.setWorker, different]
  have isTwo : pool.potential index = 2 := by simp [potential, isExecuting]
  have isOne : next.potential index = 1 := by simp [isNext, potential]
  have isSum := sum_potential others
  have oneLess : next.remaining + 1 = pool.remaining := by
    rw [isTwo, isOne] at isSum
    have sameUnstarted : next.requests.enqueued.length - next.requests.started.length =
        pool.requests.enqueued.length - pool.requests.started.length := by rw [isNext]; rfl
    rw [remaining, remaining, sameUnstarted]
    omega
  have sameInhibiting : next.requests.inhibiting = pool.requests.inhibiting := by rw [isNext]; rfl
  have sameSignalled : next.inhibitSignalled = pool.inhibitSignalled := by rw [isNext]
  rw [effort, effort, sameInhibiting, sameSignalled, ← oneLess, Nat.mul_succ]
  omega

theorem Sound.lowers (sound : pool.Sound) (positive : 0 < workerCount) (isOwn : act.Own)
    (taken : pool.step act = some next) : next.effort < pool.effort := by
  have nextSound := sound.step positive isOwn.portsNotNull taken
  cases act with
  | work index =>
      rcases Option.map_eq_some_iff.mp taken with ⟨after, worked, rfl⟩
      rcases PagerRequests.leftLock_workerFunc worked with ⟨isBetween, left⟩
      exact effort_leave left ⟨rfl, rfl, rfl, fun _ _ => rfl⟩ (by simp [potential, isBetween])
        nextSound
  | wakeup index =>
      rcases Option.bind_eq_some_iff.mp taken with ⟨_, isSignalled, taken⟩
      rcases Option.map_eq_some_iff.mp taken with ⟨after, woken, rfl⟩
      rcases PagerRequests.leftLock_wakeup woken with ⟨isSleeping, left⟩
      have signalled : pool.signalled index = true := by simpa using isSignalled
      refine effort_leave left ⟨rfl, rfl, rfl, fun other different => ?_⟩
        (by simp [potential, isSleeping, signalled]) nextSound
      exact congrArg Worker.activity (PagerRequests.setWorker_other _ _ different)
  | finish index =>
      rcases Option.map_eq_some_iff.mp taken with ⟨_, finished, rfl⟩
      rcases PagerRequests.finish_cases finished with ⟨request, isExecuting, rfl⟩
      exact effort_finish isExecuting rfl
  | inhibitWakeup =>
      rcases Option.bind_eq_some_iff.mp taken with ⟨_, someSignalled, taken⟩
      rcases Option.map_eq_some_iff.mp taken with ⟨_, woken, rfl⟩
      rcases PagerRequests.inhibitWakeup_cases woken with ⟨someWait, rfl⟩
      have isPositive : 0 < pool.inhibitSignalled := by simpa using someSignalled
      have isLess : pool.inhibitSignalled - 1 < pool.inhibitSignalled := by omega
      -- the thread has returned, or it waits again
      rcases PagerRequests.awaitDrained_cases { pool.requests with
        inhibiting := pool.requests.inhibiting - 1 } with ⟨_, _, isNext⟩ | isNext
      · rw [isNext]
        refine Nat.add_lt_add_of_le_of_lt (Nat.mul_le_mul_right pool.remaining ?_) isLess
        exact Nat.succ_le_succ (Nat.sub_le _ _)
      · rw [isNext]
        refine Nat.add_lt_add_of_le_of_lt (Nat.mul_le_mul_right pool.remaining ?_) isLess
        exact Nat.succ_le_succ (Nat.sub_add_cancel someWait).le
  | demux _ _ => cases isOwn
  | inhibit _ => cases isOwn
  | resume => cases isOwn
  | spurious _ => cases isOwn
  | inhibitSpurious => cases isOwn

/-- The pool is at rest after so many steps of its own as there is effort left, and settled then. -/
theorem comesToRest_of_reachable (positive : 0 < workerCount)
    (reached : Transition.Reachable step PortsNotNull ({} : WorkerPool workerCount) pool)
    {acts : List (Act workerCount)} (all : ∀ act ∈ acts, act.Own)
    (ran : Transition.run step acts pool = some next) :
    acts.length ≤ pool.effort ∧
      pool.effort ≤ (pool.requests.inhibiting + 1) * (2 * (pool.requests.enqueued.length -
        pool.requests.started.length) + 2 * workerCount) + pool.inhibitSignalled ∧
      (next.AtRest → Settled next.requests) := by
  rcases Transition.run_length_le effort Sound Act.Own
    (fun sound isOwn taken => sound.step positive isOwn.portsNotNull taken)
    (fun sound isOwn taken => sound.lowers positive isOwn taken) all
    (sound_of_reachable positive reached) ran with ⟨sound, bound⟩
  refine ⟨by omega, ?_, sound.settled⟩
  have isSum : ∑ index, pool.potential index ≤ 2 * workerCount := by
    refine (Finset.sum_le_card_nsmul _ _ 2 fun index _ => pool.potential_le index).trans ?_
    simp [Nat.mul_comm]
  rw [effort, remaining]
  exact Nat.add_le_add_right (Nat.mul_le_mul_left _ (by omega)) _

/-- A request comes while the only worker sleeps, which is signalled. -/
def signalledRun : List (Act 1) := [.work 0, .demux 5 (some 0)]

/-- The worker executes it and goes back to sleep. -/
def servingRun : List (Act 1) := [.wakeup 0, .finish 0, .work 0]

theorem comesToRest_after_signalled :
    ∃ pool last, Transition.run step signalledRun ({} : WorkerPool 1) = some pool ∧
      Transition.run step servingRun pool = some last ∧ servingRun.length ≤ pool.effort ∧
      last.requests.finished = [⟨0, 5⟩] ∧ Settled last.requests := by
  have portsNotNull : Transition.AllowedRun step PortsNotNull signalledRun ({} : WorkerPool 1) := by
    apply Transition.AllowedRun.of_always
    simp [signalledRun, PortsNotNull, Act.action, PagerRequests.PortsNotNull]
  have isOwn : ∀ act ∈ servingRun, act.Own := by simp [servingRun, Act.Own]
  have isBound := comesToRest_of_reachable (by decide)
    (Transition.Reachable.start.of_run signalledRun portsNotNull rfl) isOwn rfl
  refine ⟨_, _, rfl, rfl, isBound.1, rfl, isBound.2.2 ?_⟩
  intro act isOwn
  cases act with
  | work index => rw [Subsingleton.elim index 0]; rfl
  | wakeup index => rw [Subsingleton.elim index 0]; rfl
  | finish index => rw [Subsingleton.elim index 0]; rfl
  | inhibitWakeup => rfl
  | demux _ _ => cases isOwn
  | inhibit _ => cases isOwn
  | resume => cases isOwn
  | spurious _ => cases isOwn
  | inhibitSpurious => cases isOwn

end WorkerPool

end Hurd.Libpager
