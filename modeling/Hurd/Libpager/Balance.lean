import Hurd.Libpager.Bookkeeping

/-!
# Lock requests and their answers, over a run

A thread that drops a client goes on with it after the lock has been released, so it is the same
client that it goes on to take out of the records.  With that, every step keeps the books: they are
kept for the clients that have not been dropped, and a client that answers finds its request counted.
-/

namespace Hurd.Libpager

/-- The client that the thread is dropping -/
def Thread.dropping (thread : Thread) : Option MachPort :=
  match thread.resume with
  | .lockCompleted _ _ (some (control, _)) => some control
  | _ => none

namespace SharedPager

variable {σ : Type} [Pagemap σ] {pager : SharedPager σ} {control : MachPort} {thread : Thread}
  {outcome : SharedPager σ × Option Thread}

theorem internalLockCompleted_dropping {client : MachPort} {offset length : ℕ}
    {drop : Option (MachPort × Option LockKey)}
    (done : pager.internalLockCompleted client offset length drop = some outcome)
    (isThread : outcome.2 = some thread) : thread.dropping = drop.map Prod.fst := by
  unfold internalLockCompleted at done
  split_ifs at done
  · cases done
    cases isThread
  · rcases Option.map_eq_some_iff.mp done with ⟨state, -, ⟨⟩⟩
    cases isThread
    rcases drop with _ | ⟨control, key⟩ <;> rfl

theorem dropLocks_dropping {other : MachPort} {keys : List LockKey}
    (done : dropLocks control keys pager = some outcome) (isThread : outcome.2 = some thread)
    (isDropping : thread.dropping = some other) : other = control := by
  induction keys generalizing pager with
  | nil =>
      cases done
      cases isThread
  | cons key rest ih =>
      rcases Option.bind_eq_some_iff.mp done with ⟨locks, -, done⟩
      dsimp only at done
      split_ifs at done
      · rcases Option.bind_eq_some_iff.mp done with ⟨⟨completed, now⟩, isCompleted, done⟩
        cases now with
        | none => exact ih done
        | some now =>
            cases done
            rw [internalLockCompleted_dropping isCompleted isThread] at isDropping
            exact (Option.some_inj.mp isDropping).symm
      · exact ih done

omit [Pagemap σ] in
theorem serviceWritewait_dropping {entries : List WritewaitEntry}
    (isThread : (serviceWritewait entries pager).2 = some thread) : thread.dropping = none := by
  induction entries generalizing pager with
  | nil => cases isThread
  | cons current rest ih =>
      unfold serviceWritewait at isThread
      dsimp only at isThread
      split_ifs at isThread
      · exact ih isThread
      · cases isThread
        rfl

/-- A handler goes on to drop the client that it has been called to drop. -/
theorem enter_dropping {stale : ℕ → Bool} {input : Input}
    (done : pager.enter stale input = some outcome) (isThread : outcome.2 = some thread)
    (isDropping : thread.dropping = some control) :
    input = .objectTerminate control ∨ input = .deadName control := by
  cases input with
  | objectTerminate other => exact .inl (by rw [dropLocks_dropping done isThread isDropping])
  | deadName other => exact .inr (by rw [dropLocks_dropping done isThread isDropping])
  | objectInit other pagesize =>
      simp only [enter, objectInit] at done
      split_ifs at done <;> cases done <;> cases isThread
  | dataRequest client offset length access =>
      simp only [enter, dataRequest] at done
      split_ifs at done
      · cases done
        cases isThread
      · split at done
        · rcases Option.map_eq_some_iff.mp done with ⟨_, -, ⟨⟩⟩
          cases isThread
        · rcases Option.bind_eq_some_iff.mp done with ⟨⟨worked, stage⟩, -, rest⟩
          cases stage with
          | done =>
              cases rest
              cases isThread
          | lockCompleted =>
              rw [internalLockCompleted_dropping rest isThread] at isDropping
              cases isDropping
          | pagein =>
              cases rest
              cases isThread
              cases isDropping
  | dataUnlock client offset length =>
      simp only [enter, dataUnlock] at done
      split_ifs at done
      · cases done
        cases isThread
      · rcases Option.map_eq_some_iff.mp done with ⟨_, -, ⟨⟩⟩
        cases isThread
        cases isDropping
  | dataReturn client offset data length dirty kernelCopy =>
      simp only [enter, dataReturn] at done
      split at done
      · cases done
      · rcases Option.bind_eq_some_iff.mp done with ⟨⟨returned, flags⟩, -, done⟩
        dsimp only at done
        split_ifs at done <;> cases done
        · cases isThread
          cases isDropping
        · rw [serviceWritewait_dropping isThread] at isDropping
          cases isDropping
        · cases isThread
        · cases isThread
  | lockCompleted client offset length =>
      rcases Option.bind_eq_some_iff.mp done with ⟨locks, -, done⟩
      rcases Option.bind_eq_some_iff.mp done with ⟨record, -, done⟩
      dsimp only at done
      split_ifs at done
      · rw [internalLockCompleted_dropping done isThread] at isDropping
        cases isDropping
      · cases done
        cases isThread
      · cases done
        cases isThread
  | lockObject offset length shouldReturn flush sync =>
      cases done
      simp only [lockObject] at isThread
      split_ifs at isThread
      cases isThread
      cases isDropping
  | shutdown =>
      cases done
      cases isThread

/-- A thread that goes on drops the client that it has been dropping. -/
theorem reenter_dropping {before : Thread} {results : Callbacks}
    (done : pager.reenter results before.resume = some outcome) (isThread : outcome.2 = some thread)
    (isDropping : thread.dropping = some control) : before.dropping = some control := by
  unfold reenter at done
  unfold Thread.dropping
  split at done <;> rename_i isResume <;> rw [isResume]
  · rcases Option.map_eq_some_iff.mp done with ⟨_, -, ⟨⟩⟩
    cases isThread
  · rename_i drop
    rcases Option.bind_eq_some_iff.mp done with ⟨worked, -, done⟩
    rcases drop with _ | ⟨other, _ | key⟩
    · cases done
      cases isThread
    · cases done
      cases isThread
    · simp only [resumeDrop] at done
      split_ifs at done
      rw [dropLocks_dropping done isThread isDropping]
  · rcases Option.map_eq_some_iff.mp done with ⟨_, -, ⟨⟩⟩
    cases isThread
  · rcases Option.map_eq_some_iff.mp done with ⟨⟨written, doNotify⟩, -, isOutcome⟩
    dsimp only at isOutcome
    split_ifs at isOutcome <;> cases isOutcome
    · cases isThread
      cases isDropping
    · rw [serviceWritewait_dropping isThread] at isDropping
      cases isDropping
  · cases done
    rw [serviceWritewait_dropping isThread] at isDropping
    cases isDropping
  · cases done
    dsimp only at isThread
    split_ifs at isThread
    cases isThread
    cases isDropping
  · cases done
    cases isThread

theorem Books.reenter {accounts : LockAccounts} {before : Thread} {results : Callbacks}
    (areDropped : ∀ control, before.dropping = some control → accounts.dropped control = true)
    (done : pager.reenter results before.resume = some outcome) :
    Books accounts pager outcome.1 := by
  unfold SharedPager.reenter at done
  unfold Thread.dropping at areDropped
  split at done <;> rename_i isResume <;> rw [isResume] at areDropped
  · rcases Option.map_eq_some_iff.mp done with ⟨_, passed, ⟨⟩⟩
    exact .plainPass passed .finishPagein
  · rcases Option.bind_eq_some_iff.mp done with ⟨worked, finished, done⟩
    refine (Books.forEach .operationPass finished).trans (.resumeDrop ?_ done)
    rintro control key rfl
    exact areDropped control rfl
  · rcases Option.map_eq_some_iff.mp done with ⟨_, finished, ⟨⟩⟩
    exact .forEach .unlockedPass finished
  · exact .afterWrites done
  · cases done
    exact (Books.popFront pager _).trans (.serviceWritewait _ _)
  · cases done
    exact .refl pager
  · cases done
    exact .refl pager

end SharedPager

/-- A pager with its threads, and the accounts of its lock requests -/
structure LockLedger (σ : Type) where
  system : Threads σ
  accounts : LockAccounts := {}

namespace LockLedger

variable {σ : Type}

def pager (ledger : LockLedger σ) : SharedPager σ := ledger.system.pager

/-- What a handler that has been called means for the accounts -/
def post (accounts : LockAccounts) : Threads.Action → LockAccounts
  | .start _ (.lockCompleted client offset length) _ =>
      accounts.complete client (toLex (offset, length))
  | .start _ (.objectTerminate control) _ => accounts.drop control
  | .start _ (.deadName control) _ => accounts.drop control
  | _ => accounts

def step [Pagemap σ] (ledger : LockLedger σ) (action : Threads.Action) : Option (LockLedger σ) :=
  (ledger.system.step action).map fun system => ⟨system, post ledger.accounts action⟩

/-- A client answers each request at most once, and not after it has been dropped. -/
def Answers (ledger : LockLedger σ) : Threads.Action → Prop
  | .start _ (.lockCompleted client offset length) _ =>
      ledger.accounts.dropped client = false ∧
        ledger.accounts.completed client (toLex (offset, length)) <
          ledger.pager.requested client (toLex (offset, length))
  | _ => True

/-- A pager that has been created, and has sent nothing yet -/
def create (pageSize : ℕ) (pageSize_pos : 0 < pageSize) (mayCache : Bool) (copyStrategy : ℕ)
    (notifyOnEvict : Bool) (pagemap : σ) : LockLedger σ where
  system :=
    { pager := { pageSize, pageSize_pos, mayCache, copyStrategy, notifyOnEvict, pagemap } }

/-- The books balance, and a thread only drops who has been dropped. -/
structure Sound (ledger : LockLedger σ) : Prop where
  balanced : ledger.pager.Balanced ledger.accounts
  dropping : ∀ id thread control, ledger.system.threads id = some thread →
    thread.dropping = some control → ledger.accounts.dropped control = true

variable [Pagemap σ] {ledger next : LockLedger σ} {action : Threads.Action}

omit [Pagemap σ] in
theorem dropping_setThread {system : Threads σ} {accounts : LockAccounts} {id : ℕ}
    {now : Option Thread}
    (before : ∀ id thread control, system.threads id = some thread →
      thread.dropping = some control → accounts.dropped control = true)
    (isNow : ∀ thread control, now = some thread → thread.dropping = some control →
      accounts.dropped control = true) :
    ∀ other thread control, (system.setThread id now).threads other = some thread →
      thread.dropping = some control → accounts.dropped control = true := by
  intro other thread control isThread isDropping
  by_cases isId : other = id
  · subst isId
    simp only [Threads.setThread, Function.update_self] at isThread
    exact isNow thread control isThread isDropping
  · simp only [Threads.setThread, Function.update_of_ne isId] at isThread
    exact before other thread control isThread isDropping

omit [Pagemap σ] in
/-- Nobody is accounted for any more who was not before. -/
theorem dropped_post {accounts : LockAccounts} {client : MachPort}
    (isDropped : accounts.dropped client = true) : (post accounts action).dropped client = true := by
  have dropped : ∀ control, (accounts.drop control).dropped client = true := by
    intro control
    simp only [LockAccounts.drop, Function.update_apply]
    split_ifs <;> simp [isDropped]
  unfold post
  split
  · exact isDropped
  · exact dropped _
  · exact dropped _
  · exact isDropped

theorem dropped_drop {accounts : LockAccounts} (control : MachPort) :
    (accounts.drop control).dropped control = true := by
  simp [LockAccounts.drop]

omit [Pagemap σ] in
theorem balanced_drop {accounts : LockAccounts} {pager : SharedPager σ}
    (balanced : pager.Balanced accounts) (control : MachPort) :
    pager.Balanced (accounts.drop control) := by
  refine ⟨balanced.divides, balanced.records, ?_⟩
  intro client key notDropped
  apply balanced.counts client key
  simp only [LockAccounts.drop, Function.update_apply] at notDropped
  split_ifs at notDropped
  exact notDropped

/-- The handlers -/
theorem enter_posted {accounts : LockAccounts} {pager : SharedPager σ} {id : ℕ} {input : Input}
    {stale : ℕ → Bool} {outcome : SharedPager σ × Option Thread}
    (balanced : pager.Balanced accounts) (done : pager.enter stale input = some outcome) :
    SharedPager.Posted (post accounts (.start id input stale)) pager outcome.1 := by
  cases input with
  | lockCompleted client offset length => exact SharedPager.lockCompleted_posted balanced done
  | objectTerminate control =>
      exact SharedPager.Books.dropLocks (dropped_drop control) done (balanced_drop balanced control)
  | deadName control =>
      exact SharedPager.Books.dropLocks (dropped_drop control) done (balanced_drop balanced control)
  | objectInit => exact SharedPager.Books.objectInit done balanced
  | dataRequest => exact SharedPager.Books.dataRequest done balanced
  | dataUnlock => exact SharedPager.Books.dataUnlock done balanced
  | dataReturn => exact SharedPager.Books.dataReturn done balanced
  | lockObject =>
      cases done
      exact SharedPager.Books.lockObject pager _ _ _ _ _ balanced
  | shutdown =>
      cases done
      have books : SharedPager.Books accounts pager { pager with terminating := true } :=
        .of_eq rfl rfl rfl
      exact books balanced

theorem step_posted (sound : ledger.Sound) (taken : ledger.step action = some next) :
    next.Sound ∧ SharedPager.Posted next.accounts ledger.pager next.pager := by
  rcases Option.map_eq_some_iff.mp taken with ⟨system, stepped, rfl⟩
  have wasDropping : ∀ id thread control, ledger.system.threads id = some thread →
      thread.dropping = some control → (post ledger.accounts action).dropped control = true :=
    fun id thread control isThread isDropping =>
      dropped_post (sound.dropping id thread control isThread isDropping)
  have quiet : ∀ {pager : SharedPager σ}, SharedPager.Books ledger.accounts ledger.pager pager →
      pager.Balanced ledger.accounts ∧ SharedPager.Posted ledger.accounts ledger.pager pager :=
    fun books => ⟨(books sound.balanced).balanced, books sound.balanced⟩
  cases action with
  | start id input stale =>
      simp only [Threads.step] at stepped
      split at stepped
      · cases stepped
      · rcases Option.map_eq_some_iff.mp stepped with ⟨⟨pager, thread⟩, done, rfl⟩
        have posted := @enter_posted _ _ ledger.accounts ledger.pager id input stale _
          sound.balanced done
        refine ⟨⟨posted.balanced, dropping_setThread wasDropping ?_⟩, posted⟩
        intro now control isNow isDropping
        rcases SharedPager.enter_dropping done isNow isDropping with rfl | rfl
        · exact dropped_drop control
        · exact dropped_drop control
  | call id =>
      rcases Option.bind_eq_some_iff.mp stepped with ⟨thread, isThread, called⟩
      split at called
      · rename_i call rest isIdle isCalls
        cases called
        have books : SharedPager.Books ledger.accounts ledger.pager
            (ledger.pager.emit (ledger.pager.pageEvent call.page call.event)) := by
          refine .of_locks rfl rfl rfl ?_ ?_
          · intro client key event isEvent
            rcases List.mem_singleton.mp isEvent with rfl
            cases call <;> rfl
          · intro key isEvent
            cases List.mem_singleton.mp isEvent
        rcases quiet books with ⟨balanced, posted⟩
        refine ⟨⟨balanced, dropping_setThread wasDropping ?_⟩, posted⟩
        rintro now control ⟨⟩ isDropping
        exact wasDropping id thread control isThread isDropping
      · cases called
  | finish id returned =>
      rcases Option.bind_eq_some_iff.mp stepped with ⟨thread, isThread, finished⟩
      rcases Option.map_eq_some_iff.mp finished with ⟨call, -, rfl⟩
      rcases quiet (.refl _) with ⟨balanced, posted⟩
      refine ⟨⟨balanced, dropping_setThread wasDropping ?_⟩, posted⟩
      rintro now control ⟨⟩ isDropping
      exact wasDropping id thread control isThread isDropping
  | resume id =>
      rcases Option.bind_eq_some_iff.mp stepped with ⟨thread, isThread, resumed⟩
      split_ifs at resumed
      rcases Option.map_eq_some_iff.mp resumed with ⟨⟨pager, now⟩, done, rfl⟩
      rcases quiet (.reenter (fun control => sound.dropping id thread control isThread) done) with
        ⟨balanced, posted⟩
      refine ⟨⟨balanced, dropping_setThread wasDropping ?_⟩, posted⟩
      intro later control isLater isDropping
      exact sound.dropping id thread control isThread
        (SharedPager.reenter_dropping done isLater isDropping)
  | share entry =>
      cases stepped
      have books : SharedPager.Books ledger.accounts ledger.pager
          { ledger.pager with pagemap := Pagemap.share ledger.pager.pagemap entry } :=
        .of_eq rfl rfl rfl
      rcases quiet books with ⟨balanced, posted⟩
      exact ⟨⟨balanced, sound.dropping⟩, posted⟩

/-- What the records of `outstanding_locks` say in a state with the pager lock free -/
structure LocksBalance (ledger : LockLedger σ) : Prop where
  records : ∀ key locks, ledger.pager.outstandingLocks.find? key = some locks →
    locks.isEmpty = false ∧
      ∀ client record, locks.find? client = some record → 0 < record.count
  counts : ∀ client key, ledger.accounts.dropped client = false →
    ledger.accounts.completed client key ≤ ledger.pager.requested client key ∧
      ledger.pager.lockCount client key =
        ledger.pager.requested client key - ledger.accounts.completed client key
  /-- The asserts of `lock_completed` -/
  asserts : ∀ id client offset length stale,
    ledger.Answers (.start id (.lockCompleted client offset length) stale) →
      ∃ locks record, ledger.pager.outstandingLocks.find? (toLex (offset, length)) = some locks ∧
        locks.find? client = some record ∧ 0 < record.count
  /-- Where a step wakes the threads that wait for a key, no client has a request to answer. -/
  notified : ∀ action next, ledger.step action = some next →
    ∃ events, next.pager.sent = ledger.pager.sent ++ events ∧ ∀ before key after,
      events = before ++ .wakeLockWaiters key :: after → ∀ client,
        next.accounts.dropped client = false →
          (ledger.pager.sent ++ before).countP (Event.asks ledger.pager.pageSize client key) =
            next.accounts.completed client key

theorem Sound.locksBalance (sound : ledger.Sound) : ledger.LocksBalance where
  records := sound.balanced.records
  counts client key notDropped := by
    have counted := sound.balanced.counts client key notDropped
    omega
  asserts := by
    rintro id client offset length stale ⟨notDropped, notAnswered⟩
    have counted := sound.balanced.counts client (toLex (offset, length)) notDropped
    cases isLocks : ledger.pager.outstandingLocks.find? (toLex (offset, length)) with
    | none =>
        simp only [SharedPager.lockCount, isLocks, Option.bind_none, Option.map_none,
          Option.getD_none] at counted
        omega
    | some locks =>
        cases isRecord : locks.find? client with
        | none =>
            simp only [SharedPager.lockCount, isLocks, Option.bind_some, isRecord, Option.map_none,
              Option.getD_none] at counted
            omega
        | some record =>
            exact ⟨locks, record, rfl, isRecord,
              (sound.balanced.records _ locks isLocks).2 client record isRecord⟩
  notified action next taken := (step_posted sound taken).2.wakes

/-- The lock bookkeeping balances in every state of every run. -/
theorem locksBalance_of_reachable {pageSize copyStrategy : ℕ} {pageSize_pos : 0 < pageSize}
    {mayCache notifyOnEvict : Bool} {pagemap : σ} (divides : pageSize ∣ offsetRange)
    (reached : Transition.Reachable step Answers
      (create pageSize pageSize_pos mayCache copyStrategy notifyOnEvict pagemap) ledger) :
    ledger.LocksBalance := by
  apply Sound.locksBalance
  refine reached.invariant Sound ?_ ?_
  · refine ⟨⟨divides, ?_, ?_⟩, ?_⟩
    · intro key locks isRecord
      cases isRecord
    · intro client key _
      rfl
    · intro id thread control isThread
      cases isThread
  · intro state next label sound _ taken
    exact (step_posted sound taken).1

/-- A client writes to a page, and the page is synced. -/
def syncedRun : List Threads.Action :=
  [.start 0 (.dataRequest 1 0 4096 vmProtWrite) (fun _ => false), .call 0, .finish 0 {}, .resume 0,
    .start 1 (.lockObject 0 4096 .all false true) (fun _ => false)]

/-- The client has a request to answer. -/
theorem syncedRun_balance : ∃ ledger : LockLedger Interned,
    Transition.run step syncedRun (create 4096 (by decide) false 0 false {}) = some ledger ∧
      ledger.pager.requested 1 (toLex (0, 4096)) = 1 ∧ ledger.LocksBalance := by
  have ends : (Transition.run step syncedRun
      (create 4096 (by decide) false 0 false ({} : Interned))).map
      (fun ledger => ledger.pager.requested 1 (toLex (0, 4096))) = some 1 := rfl
  rcases Option.map_eq_some_iff.mp ends with ⟨ledger, runs, asked⟩
  refine ⟨ledger, runs, asked, locksBalance_of_reachable (by decide) (.of_run syncedRun .start ?_ runs)⟩
  apply Transition.AllowedRun.of_always
  intro action isAction state
  simp only [syncedRun, List.mem_cons, List.not_mem_nil, or_false] at isAction
  rcases isAction with rfl | rfl | rfl | rfl | rfl <;> trivial

end LockLedger

end Hurd.Libpager
