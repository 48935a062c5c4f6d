import Hurd.Libpager.Workers
import Mathlib.Data.Fintype.Card

/-!
# Inhibiting the workers is a barrier

`asleep` counts the workers that are in `pthread_cond_wait`, those that have been signalled and
have not taken the lock again included.  A worker that sleeps has no tag, so that nothing can
be delegated to it; and it has nothing in its queue.  When all of them are counted and
`queue_out` is empty nothing is left of what came before `queue_in` was replaced, and a worker
that wakes finds `queue_out` as empty as it left it.
-/

namespace Hurd.Libpager.PagerRequests

variable {workerCount : ℕ} {requests next : PagerRequests workerCount} {index : Fin workerCount}

/-- The workers that are waiting to be woken. -/
def sleepers (requests : PagerRequests workerCount) : Finset (Fin workerCount) :=
  Finset.univ.filter fun index => (requests.workers index).activity = .sleeping

theorem mem_sleepers : index ∈ requests.sleepers ↔
    (requests.workers index).activity = .sleeping := by
  simp [sleepers]

theorem sleepers_insert
    (others : ∀ other, other ≠ index →
      (next.workers other).activity = (requests.workers other).activity)
    (isSleeping : (next.workers index).activity = .sleeping) :
    next.sleepers = insert index requests.sleepers := by
  ext other
  rw [Finset.mem_insert, mem_sleepers, mem_sleepers]
  by_cases same : other = index
  · subst same
    simp [isSleeping]
  · simp [same, others other same]

theorem sleepers_erase
    (others : ∀ other, other ≠ index →
      (next.workers other).activity = (requests.workers other).activity)
    (notSleeping : (next.workers index).activity ≠ .sleeping) :
    next.sleepers = requests.sleepers.erase index := by
  ext other
  rw [Finset.mem_erase, mem_sleepers, mem_sleepers]
  by_cases same : other = index
  · subst same
    simp [notSleeping]
  · simp [same, others other same]

/-- `asleep` is the number of workers that sleep. -/
def Counted (requests : PagerRequests workerCount) : Prop :=
  requests.asleep = requests.sleepers.card

theorem Counted.leftLock (counted : requests.Counted)
    (notSleeping : (requests.workers index).activity ≠ .sleeping)
    (left : requests.LeftLock next index) : next.Counted := by
  have notMem : index ∉ requests.sleepers := by rwa [mem_sleepers]
  rw [Counted] at counted ⊢
  rcases left.outcome with ⟨isSleeping, isAsleep, _⟩ | ⟨request, isExecuting, isAsleep, _⟩
  · rw [sleepers_insert left.others isSleeping, Finset.card_insert_of_notMem notMem, isAsleep,
      counted]
  · rw [sleepers_erase left.others (by simp [isExecuting]), Finset.erase_eq_of_notMem notMem,
      isAsleep, counted]

theorem Counted.awake (counted : requests.Counted)
    (isSleeping : (requests.workers index).activity = .sleeping) :
    (requests.awake index).Counted := by
  have others : ∀ other, other ≠ index →
      ((requests.awake index).workers other).activity = (requests.workers other).activity :=
    fun other different => congrArg Worker.activity (setWorker_other _ _ different)
  have isMem : index ∈ requests.sleepers := mem_sleepers.mpr isSleeping
  rw [Counted] at counted ⊢
  rw [sleepers_erase others (by simp [PagerRequests.awake, setWorker]),
    Finset.card_erase_of_mem isMem, ← counted]
  rfl

theorem Counted.step {action : Action workerCount} (counted : requests.Counted)
    (taken : requests.step action = some next) : next.Counted := by
  have control : (∃ allocated, action = .inhibit allocated) ∨ action = .inhibitWakeup ∨
      action = .resume → next.Counted := by
    intro isControl
    rcases control_same isControl taken with ⟨workers, asleep, _⟩
    rw [Counted, sleepers, workers, asleep]
    exact counted
  cases action with
  | demux port =>
      cases taken
      exact counted
  | work index =>
      rcases leftLock_workerFunc taken with ⟨isBetween, left⟩
      exact counted.leftLock (by simp [isBetween]) left
  | wakeup index =>
      rcases leftLock_wakeup taken with ⟨isSleeping, left⟩
      exact (counted.awake isSleeping).leftLock (by simp [PagerRequests.awake, setWorker]) left
  | finish index =>
      rcases finish_cases taken with ⟨done, isDone, rfl⟩
      have notMem : index ∉ requests.sleepers := by simp [mem_sleepers, isDone]
      have others : ∀ other, other ≠ index →
          ((requests.setWorker index
            { requests.workers index with activity := .between }).workers other).activity =
              (requests.workers other).activity :=
        fun other different => congrArg Worker.activity (setWorker_other _ _ different)
      have sameSleepers : (requests.setWorker index
          { requests.workers index with activity := .between }).sleepers = requests.sleepers := by
        rw [sleepers_erase others (by simp), Finset.erase_eq_of_notMem notMem]
      exact counted.trans (congrArg Finset.card sameSleepers.symm)
  | inhibit allocated => exact control (.inl ⟨allocated, rfl⟩)
  | inhibitWakeup => exact control (.inr (.inl rfl))
  | resume => exact control (.inr (.inr rfl))

theorem Counted.initial : ({} : PagerRequests workerCount).Counted := by
  simp [Counted, sleepers]

/-- When all workers are counted, all of them sleep. -/
theorem Counted.all_sleeping (counted : requests.Counted) (all : workerCount ≤ requests.asleep)
    (index : Fin workerCount) : (requests.workers index).activity = .sleeping := by
  have isAll : requests.sleepers = Finset.univ := by
    rw [← Finset.card_eq_iff_eq_univ, Fintype.card_fin]
    apply le_antisymm
    · exact (Finset.card_le_univ _).trans (le_of_eq (Fintype.card_fin _))
    · rw [← counted]
      exact all
  exact mem_sleepers.mp (isAll ▸ Finset.mem_univ index)

/-- Where the caller of `pager_inhibit_workers` and `pager_resume_workers` is. -/
inductive Phase (requests : PagerRequests workerCount) : Prop
  | running (same : requests.queueIn = requests.queueOut) (noneWaits : requests.inhibiting = 0)
      (notInhibited : requests.inhibited = false)
  | draining (apart : requests.queueIn ≠ requests.queueOut) (oneWaits : requests.inhibiting = 1)
      (notInhibited : requests.inhibited = false)
  | inhibited (apart : requests.queueIn ≠ requests.queueOut) (noneWaits : requests.inhibiting = 0)
      (isInhibited : requests.inhibited = true) (all : workerCount ≤ requests.asleep)
      (isEmpty : requests.queues requests.queueOut = [])

/-- A worker that wakes and finds `queue_out` empty goes back to sleep. -/
theorem wakeup_of_empty (counted : requests.Counted)
    (isEmpty : requests.queues requests.queueOut = []) (woken : requests.wakeup index = some next) :
    next.asleep = requests.asleep ∧ next.queues = requests.queues ∧
      next.started = requests.started := by
  rcases leftLock_wakeup woken with ⟨isSleeping, _⟩
  have positive : 0 < requests.asleep := by
    rw [counted]
    exact Finset.card_pos.mpr ⟨index, mem_sleepers.mpr isSleeping⟩
  rcases Option.bind_eq_some_iff.mp woken with ⟨_, _, isNext⟩
  have goesBack : next = getRequestLocked index [] (requests.awake index) := by
    rw [← isEmpty]
    exact (Option.some.inj isNext).symm
  rw [goesBack]
  exact ⟨Nat.sub_add_cancel positive, rfl, rfl⟩

/-- The phase is the same where nothing but the workers and the older queue has changed. -/
theorem Phase.leftLock (phase : requests.Phase) (notInhibited : requests.inhibited = false)
    (left : requests.LeftLock next index) : next.Phase := by
  cases phase with
  | running same noneWaits _ =>
      refine .running ?_ ?_ ?_
      · rw [left.sameQueueIn, left.sameQueueOut, same]
      · rw [left.sameInhibiting, noneWaits]
      · rw [left.sameInhibited, notInhibited]
  | draining apart oneWaits _ =>
      refine .draining ?_ ?_ ?_
      · rwa [left.sameQueueIn, left.sameQueueOut]
      · rw [left.sameInhibiting, oneWaits]
      · rw [left.sameInhibited, notInhibited]
  | inhibited _ _ isInhibited =>
      rw [notInhibited] at isInhibited
      cases isInhibited

/-- `pager_resume_workers` is called after `pager_inhibit_workers` has returned. -/
def ResumedAfterInhibit (requests : PagerRequests workerCount) : Action workerCount → Prop
  | .resume => requests.inhibited = true
  | .demux _ => True
  | .work _ => True
  | .wakeup _ => True
  | .finish _ => True
  | .inhibit _ => True
  | .inhibitWakeup => True

/-- The loop at the end of `pager_inhibit_workers` leaves the caller waiting or done. -/
theorem phase_awaitDrained (apart : requests.queueIn ≠ requests.queueOut)
    (noneWaits : requests.inhibiting = 0) (notInhibited : requests.inhibited = false) :
    requests.awaitDrained.Phase := by
  rcases awaitDrained_cases requests with ⟨all, isEmpty, isNext⟩ | isNext
  · rw [isNext]
    exact .inhibited apart noneWaits rfl all isEmpty
  · rw [isNext]
    refine .draining apart ?_ notInhibited
    rw [noneWaits]

theorem Phase.step {action : Action workerCount} (phase : requests.Phase)
    (counted : requests.Counted) (afterInhibit : requests.ResumedAfterInhibit action)
    (taken : requests.step action = some next) : next.Phase := by
  cases action with
  | demux port =>
      cases taken
      cases phase with
      | running same noneWaits notInhibited => exact .running same noneWaits notInhibited
      | draining apart oneWaits notInhibited => exact .draining apart oneWaits notInhibited
      | inhibited apart noneWaits isInhibited all isEmpty =>
          refine .inhibited apart noneWaits isInhibited all ?_
          simpa [pagerDemuxer, setQueue, Ne.symm apart] using isEmpty
  | work index =>
      rcases leftLock_workerFunc taken with ⟨isBetween, left⟩
      by_cases isInhibited : requests.inhibited = true
      · cases phase with
        | running _ _ notInhibited => simp [isInhibited] at notInhibited
        | draining _ _ notInhibited => simp [isInhibited] at notInhibited
        | inhibited _ _ _ all _ => simp [counted.all_sleeping all index] at isBetween
      · exact phase.leftLock (by simpa using isInhibited) left
  | wakeup index =>
      rcases leftLock_wakeup taken with ⟨_, left⟩
      have awakePhase : requests.inhibited = false → next.Phase := by
        intro notInhibited
        have isAwake : (requests.awake index).Phase := by
          cases phase with
          | running same noneWaits _ => exact .running same noneWaits notInhibited
          | draining apart oneWaits _ => exact .draining apart oneWaits notInhibited
          | inhibited _ _ isInhibited => simp [notInhibited] at isInhibited
        exact isAwake.leftLock notInhibited left
      cases phase with
      | running _ _ notInhibited => exact awakePhase notInhibited
      | draining _ _ notInhibited => exact awakePhase notInhibited
      | inhibited apart noneWaits isInhibited all isEmpty =>
          rcases wakeup_of_empty counted isEmpty taken with ⟨sameAsleep, sameQueues, _⟩
          have sameIn : next.queueIn = requests.queueIn := left.sameQueueIn
          have sameOut : next.queueOut = requests.queueOut := left.sameQueueOut
          refine .inhibited ?_ ?_ ?_ ?_ ?_
          · rwa [sameIn, sameOut]
          · exact left.sameInhibiting.trans noneWaits
          · exact left.sameInhibited.trans isInhibited
          · rwa [sameAsleep]
          · rwa [sameQueues, sameOut]
  | finish index =>
      rcases finish_cases taken with ⟨_, _, rfl⟩
      cases phase with
      | running same noneWaits notInhibited => exact .running same noneWaits notInhibited
      | draining apart oneWaits notInhibited => exact .draining apart oneWaits notInhibited
      | inhibited apart noneWaits isInhibited all isEmpty =>
          exact .inhibited apart noneWaits isInhibited all isEmpty
  | inhibit allocated =>
      rcases pagerInhibitWorkers_cases taken with ⟨same, rfl | ⟨address, isNew, rfl⟩⟩
      · exact phase
      · cases phase with
        | running _ noneWaits notInhibited =>
            exact phase_awaitDrained (same ▸ isNew) noneWaits notInhibited
        | draining apart => exact (apart same.symm).elim
        | inhibited apart => exact (apart same.symm).elim
  | inhibitWakeup =>
      rcases inhibitWakeup_cases taken with ⟨someWaits, rfl⟩
      cases phase with
      | running _ noneWaits _ => simp [noneWaits] at someWaits
      | draining apart oneWaits notInhibited =>
          exact phase_awaitDrained apart (by simp [oneWaits]) notInhibited
      | inhibited _ noneWaits _ => simp [noneWaits] at someWaits
  | resume =>
      rcases pagerResumeWorkers_cases taken with ⟨_, _, rfl⟩
      have isInhibited : requests.inhibited = true := afterInhibit
      cases phase with
      | running _ _ notInhibited => simp [isInhibited] at notInhibited
      | draining _ _ notInhibited => simp [isInhibited] at notInhibited
      | inhibited _ noneWaits _ _ _ => exact .running rfl noneWaits rfl

/-- What has been enqueued since `queue_in` was replaced is in it. -/
def Newer (requests : PagerRequests workerCount) : Prop :=
  requests.queueIn ≠ requests.queueOut →
    requests.replacedAt ≤ requests.enqueued.length ∧
      requests.queues requests.queueIn = requests.enqueued.drop requests.replacedAt

theorem Newer.leftLock (newer : requests.Newer) (left : requests.LeftLock next index) :
    next.Newer := by
  intro apart
  rw [left.sameQueueIn, left.sameQueueOut] at apart
  rw [left.sameReplacedAt, left.sameEnqueued, left.sameQueueIn, left.otherQueues _ apart]
  exact newer apart

theorem Newer.step {action : Action workerCount} (newer : requests.Newer)
    (taken : requests.step action = some next) : next.Newer := by
  cases action with
  | demux port =>
      cases taken
      intro apart
      rcases newer apart with ⟨within, isNewer⟩
      simp only [pagerDemuxer, setQueue, queueEnqueue, Function.update_self, List.length_append,
        List.length_singleton]
      refine ⟨by omega, ?_⟩
      rw [List.drop_append_of_le_length within, isNewer]
  | work index => exact newer.leftLock (leftLock_workerFunc taken).2
  | wakeup index =>
      have isAwake : (requests.awake index).Newer := newer
      exact isAwake.leftLock (leftLock_wakeup taken).2
  | finish index =>
      rcases finish_cases taken with ⟨_, _, rfl⟩
      exact newer
  | inhibit allocated =>
      rcases pagerInhibitWorkers_cases taken with ⟨_, rfl | ⟨address, _, rfl⟩⟩
      · exact newer
      · rcases awaitDrained_cases { requests.setQueue address [] with
          queueIn := address, replacedAt := requests.enqueued.length } with ⟨_, _, isNext⟩ | isNext
        · rw [isNext]
          intro _
          simp [setQueue]
        · rw [isNext]
          intro _
          simp [setQueue]
  | inhibitWakeup =>
      rcases inhibitWakeup_cases taken with ⟨_, rfl⟩
      rcases awaitDrained_cases { requests with inhibiting := requests.inhibiting - 1 } with
        ⟨_, _, isNext⟩ | isNext
      · rw [isNext]
        exact newer
      · rw [isNext]
        exact newer
  | resume =>
      rcases pagerResumeWorkers_cases taken with ⟨_, _, rfl⟩
      exact fun apart => (apart rfl).elim

/--
Once `pager_inhibit_workers` has returned, all that was enqueued before it replaced `queue_in` is
finished and the queues of the workers are empty.  Until `pager_resume_workers` is called no
step starts a request; its asserts hold, and the queue that it installs holds what has been
enqueued since, in this order.
-/
structure TrueBarrier (requests : PagerRequests workerCount) : Prop where
  finished : requests.inhibited = true →
    ∀ request ∈ requests.enqueued.take requests.replacedAt, request ∈ requests.finished
  queuesEmpty : requests.inhibited = true → ∀ index, (requests.workers index).queue = []
  noneStarts : requests.inhibited = true → ∀ action next, requests.step action = some next →
    next.started = requests.started
  resumes : requests.inhibited = true → ∃ next, requests.pagerResumeWorkers = some next ∧
    next.queues next.queueOut = requests.enqueued.drop requests.replacedAt

theorem Phase.of_inhibited (phase : requests.Phase) (isInhibited : requests.inhibited = true) :
    requests.queueIn ≠ requests.queueOut ∧ workerCount ≤ requests.asleep ∧
      requests.queues requests.queueOut = [] := by
  cases phase with
  | running _ _ notInhibited => simp [isInhibited] at notInhibited
  | draining _ _ notInhibited => simp [isInhibited] at notInhibited
  | inhibited apart _ _ all isEmpty => exact ⟨apart, all, isEmpty⟩

theorem trueBarrier (serial : requests.Serial) (accounted : requests.Accounted)
    (counted : requests.Counted) (newer : requests.Newer) (phase : requests.Phase) :
    requests.TrueBarrier := by
  have noQueue : requests.inhibited = true → ∀ index, (requests.workers index).queue = [] := by
    intro isInhibited index
    rcases phase.of_inhibited isInhibited with ⟨_, all, _⟩
    exact serial.untagged index (serial.sleeping index (counted.all_sleeping all index))
  refine ⟨?_, noQueue, ?_, ?_⟩
  · intro isInhibited request requestMem
    rcases phase.of_inhibited isInhibited with ⟨apart, all, isEmpty⟩
    rcases (serial.inTurn accounted).notLost request (List.mem_of_mem_take requestMem) with
      isNew | isOld | ⟨index, delegated⟩ | ⟨index, isExecuting⟩ | isFinished
    · rw [(newer apart).2] at isNew
      exact (List.disjoint_take_drop serial.enqueued_nodup le_rfl requestMem isNew).elim
    · rw [isEmpty] at isOld
      cases isOld
    · rw [noQueue isInhibited index] at delegated
      cases delegated
    · rw [counted.all_sleeping all index] at isExecuting
      cases isExecuting
    · exact isFinished
  · intro isInhibited action next taken
    rcases phase.of_inhibited isInhibited with ⟨_, all, isEmpty⟩
    cases action with
    | demux port =>
        cases taken
        rfl
    | work index =>
        have isBetween := (leftLock_workerFunc taken).1
        rw [counted.all_sleeping all index] at isBetween
        cases isBetween
    | wakeup index => exact (wakeup_of_empty counted isEmpty taken).2.2
    | finish index =>
        rcases finish_cases taken with ⟨_, _, rfl⟩
        rfl
    | inhibit allocated => exact (control_same (.inl ⟨allocated, rfl⟩) taken).2.2.2.1
    | inhibitWakeup => exact (control_same (.inr (.inl rfl)) taken).2.2.2.1
    | resume => exact (control_same (.inr (.inr rfl)) taken).2.2.2.1
  · intro isInhibited
    rcases phase.of_inhibited isInhibited with ⟨apart, all, isEmpty⟩
    have allAsleep : requests.asleep = workerCount := by
      apply le_antisymm _ all
      rw [counted]
      exact (Finset.card_le_univ _).trans (le_of_eq (Fintype.card_fin _))
    refine ⟨{ requests with queueOut := requests.queueIn, inhibited := false }, ?_, (newer apart).2⟩
    simp [pagerResumeWorkers, Ne.symm apart, allAsleep, isEmpty]

/-- Inhibiting the workers is a true barrier, in every run that resumes them after inhibiting. -/
theorem trueBarrier_of_reachable
    (reached : Transition.Reachable step
      (fun requests action => PortsNotNull requests action ∧ ResumedAfterInhibit requests action)
      ({} : PagerRequests workerCount) requests) : requests.TrueBarrier := by
  have invariant : (requests.Serial ∧ requests.Accounted) ∧ requests.Counted ∧ requests.Newer ∧
      requests.Phase := by
    refine reached.invariant (fun requests => (requests.Serial ∧ requests.Accounted) ∧
      requests.Counted ∧ requests.Newer ∧ requests.Phase)
      ⟨⟨.initial, nofun⟩, .initial, fun apart => (apart rfl).elim, .running rfl rfl rfl⟩ ?_
    intro before after action ⟨⟨serial, accounted⟩, counted, newer, phase⟩ isAllowed taken
    refine ⟨⟨serial.step ?_ taken, accounted.step taken⟩, counted.step taken, newer.step taken,
      phase.step counted isAllowed.2 taken⟩
    rintro port rfl
    exact isAllowed.1
  rcases invariant with ⟨⟨serial, accounted⟩, counted, newer, phase⟩
  exact trueBarrier serial accounted counted newer phase

theorem trueBarrier_after_inhibited :
    ∃ requests, Transition.run step inhibitedRun ({} : PagerRequests 2) = some requests ∧
      requests.inhibited = true ∧ requests.TrueBarrier := by
  refine ⟨_, rfl, rfl, trueBarrier_of_reachable (Transition.Reachable.start.of_run inhibitedRun
    (.of_always ?_ _) rfl)⟩
  simp [inhibitedRun, PortsNotNull, ResumedAfterInhibit]

end Hurd.Libpager.PagerRequests
