import Hurd.Libpager.WriteOrder

/-!
# After a shutdown

Once `terminating` is set, the handlers that are called still take clients off the ACCESSLISTs, but
they give nothing out and ask for nothing back; what is returned to them is written all the same.
A handler that was called before may still have an answer to send.

The pages of a `data_return` are written by whichever thread is going through `WRITEWAIT`.  From
the moment they are queued, each has been written since, or is still to be.
-/

namespace Hurd.Libpager

/-- A message that gives a page or an error to a client, or asks the client for a page. -/
def PageEvent.grants : PageEvent → Bool
  | .dataSupply .. => true
  | .dataError .. => true
  | .lockRequest .. => true
  | .readPage => false
  | .unlockPage => false
  | .writePage _ => false
  | .notifyEvict => false

/-- `m_o_data_supply`, `m_o_data_error`, `m_o_lock_request` or `m_o_ready` -/
def Event.grants : Event → Bool
  | .page _ event => event.grants
  | .lockRequest .. => true
  | .ready .. => true
  | .changeCompleted _ => false
  | .wakeLockWaiters _ => false
  | .wakeWriteWaiters .. => false

namespace Page

variable {page next : Page}

theorem serviceWaitlist_of_terminating {data : ℕ} {allowWriteAccess deallocate : Bool}
    (terminating : page.terminating = true) :
    page.serviceWaitlist data allowWriteAccess deallocate = some page := by
  rw [serviceWaitlist, if_pos terminating]

/-- A page is returned to a terminating pager: nobody is served, and nobody is unlocked. -/
theorem dataReturnEnter_of_terminating {client : MachPort} {data : ℕ} {dirty kernelCopy : Bool}
    {flags : ReturnFlags} (terminating : page.terminating = true)
    (entered : page.dataReturnEnter client data dirty kernelCopy = some (next, flags)) :
    next.sent = page.sent ∧ flags.doUnlock = false := by
  rcases Option.map_eq_some_iff.mp entered with ⟨⟨handed, _⟩, handedOff, ⟨⟩⟩
  have left : (page.leaveForReturn client).sent = page.sent ∧
      (page.leaveForReturn client).terminating = page.terminating := by
    unfold leaveForReturn
    split_ifs <;> exact ⟨rfl, rfl⟩
  cases dataReturnHandOff_cases handedOff with
  | keeps _ nextEq flagsEq => exact ⟨nextEq ▸ rfl, flagsEq ▸ rfl⟩
  | serves _ _ _ served flagsEq =>
      rw [serviceWaitlist_of_terminating (left.2.trans terminating)] at served
      cases served
      exact ⟨left.1, flagsEq ▸ rfl⟩
  | unlocks _ running => simp [terminating] at running
  | evicts _ _ _ _ nextEq flagsEq => exact ⟨nextEq ▸ left.1, flagsEq ▸ rfl⟩
  | leaves _ _ nextEq flagsEq => exact ⟨nextEq ▸ left.1, flagsEq ▸ rfl⟩

/-- A page has been written back to a terminating pager. -/
theorem afterWrite_of_terminating {data : ℕ} {kernelCopy last doNotify : Bool} {error : KernReturn}
    (terminating : page.terminating = true)
    (finished : page.afterWrite data kernelCopy error last = some (next, doNotify)) :
    next.sent = page.sent := by
  have recorded : ((page.recordWrite error).setPagingout false).sent = page.sent ∧
      ((page.recordWrite error).setPagingout false).terminating = true ∧
      (page.recordWrite error).sent = page.sent := by
    unfold recordWrite
    split_ifs <;> exact ⟨rfl, terminating, rfl⟩
  unfold afterWrite at finished
  dsimp only at finished
  rw [serviceWaitlist_of_terminating recorded.2.1] at finished
  split_ifs at finished <;> cases finished
  · exact recorded.1
  · exact recorded.1
  · exact recorded.1
  · exact recorded.2.2

end Page

/-- What the thread still has to do gives nothing out and asks for nothing back. -/
def Thread.Harmless (thread : Thread) : Prop :=
  match thread.resume with
  | .pagein _ => False
  | .lockCompleted _ _ _ => False
  | .unlock _ doUnlock => ∀ number, doUnlock number = false
  | .written _ _ => True
  | .notified _ => True
  | .locksAnswered _ _ => True
  | .writesFinished => True

namespace SharedPager

variable {pager middle next : SharedPager Interned}

/-- If the pager is terminating, it stays so, and nothing is granted. -/
def Quietly (pager next : SharedPager Interned) : Prop :=
  pager.terminating = true → next.terminating = true ∧
    ∃ events, next.sent = pager.sent ++ events ∧ ∀ event ∈ events, event.grants = false

theorem Quietly.refl (pager : SharedPager Interned) : Quietly pager pager :=
  fun terminating => ⟨terminating, [], by simp, by simp⟩

theorem Quietly.trans (first : Quietly pager middle) (second : Quietly middle next) :
    Quietly pager next := by
  intro terminating
  rcases first terminating with ⟨middleTerminating, earlier, isFirst, quiet⟩
  rcases second middleTerminating with ⟨nextTerminating, later, isSecond, quietLater⟩
  refine ⟨nextTerminating, earlier ++ later, ?_, ?_⟩
  · rw [isSecond, isFirst, List.append_assoc]
  · intro event isEvent
    rcases List.mem_append.mp isEvent with isEarlier | isLater
    · exact quiet event isEarlier
    · exact quietLater event isLater

/-- Nothing has been sent. -/
theorem Quietly.of_eq (sameTerminating : next.terminating = pager.terminating)
    (sameSent : next.sent = pager.sent) : Quietly pager next :=
  fun terminating => ⟨sameTerminating.trans terminating, [], by simp [sameSent], by simp⟩

theorem Quietly.emit (pager : SharedPager Interned) {event : Event}
    (isQuiet : event.grants = false) : Quietly pager (pager.emit event) :=
  fun terminating => ⟨terminating, [event], rfl, by simp [isQuiet]⟩

theorem Quietly.flagPass {Flag : Type} {part : ℕ → Page → Option (Page × Flag)} {number : ℕ}
    {state nextState : SharedPager Interned × (ℕ → Flag)}
    (silent : ∀ {page next flag}, page.terminating = true → part number page = some (next, flag) →
      next.sent = page.sent)
    (done : flagPass part number state = some nextState) : Quietly state.1 nextState.1 := by
  intro terminating
  rcases Option.map_eq_some_iff.mp done with ⟨⟨worked, flag⟩, isWorked, ⟨⟩⟩
  rcases Option.map_eq_some_iff.mp isWorked with ⟨⟨_, _⟩, isTmp, ⟨⟩⟩
  rcases Option.map_eq_some_iff.mp isTmp with ⟨⟨nextPage, _⟩, isPart, ⟨⟩⟩
  have noneSent : nextPage.sent = [] := silent terminating isPart
  refine ⟨terminating, [], ?_, by simp⟩
  simp only [store, putPage, noneSent, List.map_nil, List.append_nil]
  rfl

theorem Quietly.popFront (pager : SharedPager Interned) (current : WritewaitEntry) :
    Quietly pager (pager.popFront current) := by
  apply Quietly.trans (.emit pager (show Event.grants (.wakeWriteWaiters _ _) = false from rfl))
  exact .of_eq rfl rfl

/-- What a thread does with the lock, and what it has still to do. -/
structure Tame (pager : SharedPager Interned) (outcome : SharedPager Interned × Option Thread) :
    Prop where
  quietly : Quietly pager outcome.1
  harmless : ∀ thread, outcome.2 = some thread → thread.Harmless

theorem Tame.done (quietly : Quietly pager next) : Tame pager (next, none) := ⟨quietly, nofun⟩

theorem Tame.after {outcome : SharedPager Interned × Option Thread} (quietly : Quietly pager next)
    (tame : Tame next outcome) : Tame pager outcome :=
  ⟨quietly.trans tame.quietly, tame.harmless⟩

theorem Tame.serviceWritewait (entries : List WritewaitEntry) (pager : SharedPager Interned) :
    Tame pager (serviceWritewait entries pager) := by
  induction entries generalizing pager with
  | nil => exact .done (.refl pager)
  | cons current rest ih =>
      simp only [SharedPager.serviceWritewait]
      split_ifs
      · exact .after (.popFront pager current) (ih _)
      · refine ⟨.refl pager, ?_⟩
        rintro _ ⟨⟩
        trivial

theorem Tame.afterWrites {current : WritewaitEntry} {pageouts : List ℕ} {results : Callbacks}
    {outcome : SharedPager Interned × Option Thread}
    (done : pager.afterWrites current pageouts results = some outcome) : Tame pager outcome := by
  rcases Option.map_eq_some_iff.mp done with ⟨⟨worked, doNotify⟩, finished, rfl⟩
  have quietly : Quietly pager worked :=
    Loop.forEach_relation (fun state next => Quietly state.1 next.1) (fun _ => .refl _)
      Quietly.trans (fun passed => Quietly.flagPass Page.afterWrite_of_terminating passed) finished
  dsimp only
  split_ifs
  · refine ⟨quietly, ?_⟩
    rintro _ ⟨⟩
    trivial
  · exact .after (quietly.trans (.popFront worked current)) (.serviceWritewait _ _)

/-- The first loop of `data_return` on a terminating pager. -/
theorem returnPasses {client : MachPort} {data : ℕ → ℕ} {dirty kernelCopy : Bool} {pages : List ℕ}
    {marked : SharedPager Interned} {flags : ℕ → Page.ReturnFlags}
    (terminating : pager.terminating = true)
    (finished : Loop.forEach (flagPass fun number page =>
        page.dataReturnEnter client (data number) dirty kernelCopy)
      pages (pager, fun _ => ⟨false, false⟩) = some (marked, flags)) :
    Quietly pager marked ∧ ∀ number, (flags number).doUnlock = false := by
  have passes := Loop.forEach_relation
    (fun (state next : SharedPager Interned × (ℕ → Page.ReturnFlags)) => Quietly state.1 next.1 ∧
      (state.1.terminating = true → (∀ number, (state.2 number).doUnlock = false) →
        ∀ number, (next.2 number).doUnlock = false))
    (fun _ => ⟨.refl _, fun _ noUnlock => noUnlock⟩) ?_ ?_ finished
  · exact ⟨passes.1, passes.2 terminating fun _ => rfl⟩
  · rintro first second third ⟨firstQuietly, firstFlags⟩ ⟨secondQuietly, secondFlags⟩
    refine ⟨firstQuietly.trans secondQuietly, fun terminating noUnlock => ?_⟩
    exact secondFlags (firstQuietly terminating).1 (firstFlags terminating noUnlock)
  · intro number state next passed
    refine ⟨Quietly.flagPass (fun terminating entered =>
      (Page.dataReturnEnter_of_terminating terminating entered).1) passed, ?_⟩
    intro terminating noUnlock other
    rcases Option.map_eq_some_iff.mp passed with ⟨⟨worked, flag⟩, isWorked, ⟨⟩⟩
    rcases Option.map_eq_some_iff.mp isWorked with ⟨⟨_, _⟩, isTmp, ⟨⟩⟩
    rcases Option.map_eq_some_iff.mp isTmp with ⟨⟨nextPage, _⟩, isPart, ⟨⟩⟩
    by_cases same : other = number
    · subst same
      simp only [Function.update_self]
      exact (Page.dataReturnEnter_of_terminating terminating isPart).2
    · simp only [Function.update_of_ne same]
      exact noUnlock other

theorem Tame.dataReturn {client : MachPort} {offset length : ℕ} {data : ℕ → ℕ}
    {dirty kernelCopy : Bool} {stale : ℕ → Bool} {outcome : SharedPager Interned × Option Thread}
    (terminating : pager.terminating = true)
    (done : pager.dataReturn client offset data length dirty kernelCopy stale = some outcome) :
    Tame pager outcome := by
  unfold SharedPager.dataReturn at done
  by_cases unaligned : length % pager.pageSize ≠ 0 ∨ offset % pager.pageSize ≠ 0
  · rw [if_pos unaligned] at done
    cases done
  rw [if_neg unaligned] at done
  rcases Option.bind_eq_some_iff.mp done with ⟨⟨marked, flags⟩, finished, done⟩
  rcases returnPasses terminating finished with ⟨quietly, noUnlock⟩
  have queued : Quietly marked { marked with
      writewait := marked.writewait ++ [⟨offset, data, length, kernelCopy⟩] } := .of_eq rfl rfl
  dsimp only at done
  split_ifs at done with isCalling isDirty isDirty isIdle
  · cases done
    refine ⟨quietly, ?_⟩
    rintro _ ⟨⟩
    exact noUnlock
  · cases done
    exact .after (quietly.trans queued) (.serviceWritewait _ _)
  · cases done
    exact .done (quietly.trans queued)
  · cases done
    exact .done quietly

theorem Quietly.setLocks (pager : SharedPager Interned) (key : LockKey)
    (locks : Option (OrdMap MachPort OutstandingClientLock)) :
    Quietly pager (pager.setLocks key locks) :=
  .of_eq rfl rfl

theorem Quietly.storeLocks (pager : SharedPager Interned) (key : LockKey)
    (locks : OrdMap MachPort OutstandingClientLock) : Quietly pager (pager.storeLocks key locks) := by
  unfold SharedPager.storeLocks
  split_ifs
  · exact (Quietly.emit pager rfl).trans (.setLocks _ _ _)
  · exact .setLocks _ _ _

theorem Tame.internalLockCompleted {client : MachPort} {offset length : ℕ}
    {drop : Option (MachPort × Option LockKey)} {outcome : SharedPager Interned × Option Thread}
    (terminating : pager.terminating = true)
    (done : pager.internalLockCompleted client offset length drop = some outcome) :
    outcome = (pager, none) := by
  unfold SharedPager.internalLockCompleted at done
  split_ifs at done
  cases done
  rfl

theorem Tame.lockCompleted {client : MachPort} {offset length : ℕ}
    {outcome : SharedPager Interned × Option Thread} (terminating : pager.terminating = true)
    (done : pager.lockCompleted client offset length = some outcome) : Tame pager outcome := by
  rcases Option.bind_eq_some_iff.mp done with ⟨locks, -, done⟩
  rcases Option.bind_eq_some_iff.mp done with ⟨record, -, done⟩
  have stored := fun locks => Quietly.storeLocks pager (toLex (offset, length)) locks
  dsimp only at done
  split_ifs at done
  · rw [Tame.internalLockCompleted (stored _ terminating).1 done]
    exact .done (stored _)
  · cases done
    exact .done (stored _)
  · cases done
    exact .done (stored _)

theorem Quietly.dropPass (control : MachPort) (pager : SharedPager Interned) (number : ℕ) :
    Quietly pager (pager.dropPass control number) := by
  have reload : ∀ pager : SharedPager Interned, Quietly pager ((pager.load number).store number) :=
    fun pager => .of_eq rfl rfl
  have removed : Quietly pager
      (if control ∈ (pager.read number).accesslist then
        ((pager.load number).putPage number
          (((pager.load number).page number).removeFromAccesslist control
            |>.setWriteAccessGranted false)).store number
      else pager) := by
    split_ifs
    · refine fun terminating => ⟨terminating, [], ?_, by simp⟩
      exact (List.append_nil _).trans (List.append_nil _).symm
    · exact .refl pager
  unfold SharedPager.dropPass
  dsimp only
  split_ifs at removed ⊢
  · exact removed.trans (reload _)
  · exact removed
  · exact removed.trans (reload _)
  · exact removed

theorem Quietly.dropPages (control : MachPort) (pager : SharedPager Interned) :
    Quietly pager (pager.dropPages control) := by
  have quietly : ∀ (numbers : List ℕ) (pager : SharedPager Interned),
      Quietly pager (numbers.foldl (SharedPager.dropPass control) pager) := by
    intro numbers
    induction numbers with
    | nil => exact Quietly.refl
    | cons number rest ih => exact fun pager => (Quietly.dropPass control pager number).trans (ih _)
  refine (quietly (List.range (Pagemap.size pager.pagemap)) pager).trans ?_
  refine fun terminating => ⟨terminating, _, rfl, ?_⟩
  intro event isEvent
  rcases List.mem_map.mp isEvent with ⟨request, -, rfl⟩
  rfl

theorem Tame.dropLocks {control : MachPort} {keys : List LockKey}
    {outcome : SharedPager Interned × Option Thread} (terminating : pager.terminating = true)
    (done : dropLocks control keys pager = some outcome) : Tame pager outcome := by
  induction keys generalizing pager with
  | nil =>
      cases done
      exact .done (.dropPages control pager)
  | cons key rest ih =>
      rcases Option.bind_eq_some_iff.mp done with ⟨locks, -, done⟩
      have stored := Quietly.storeLocks pager key (locks.erase control)
      have storedTerminating := (stored terminating).1
      dsimp only at done
      split_ifs at done
      · rcases Option.bind_eq_some_iff.mp done with ⟨outcome, isCompleted, done⟩
        rw [Tame.internalLockCompleted storedTerminating isCompleted] at done
        exact .after stored (ih storedTerminating done)
      · exact .after stored (ih storedTerminating done)

/-- A handler that is called on a terminating pager. -/
theorem Tame.enter {stale : ℕ → Bool} {input : Input}
    {outcome : SharedPager Interned × Option Thread} (terminating : pager.terminating = true)
    (notLockObject : ∀ offset length shouldReturn flush sync,
      input ≠ .lockObject offset length shouldReturn flush sync)
    (done : pager.enter stale input = some outcome) : Tame pager outcome := by
  cases input with
  | objectInit control pagesize =>
      simp only [SharedPager.enter, SharedPager.objectInit, terminating] at done
      split_ifs at done
      cases done
      exact .done (.refl pager)
  | dataRequest client offset length access =>
      simp only [SharedPager.enter, SharedPager.dataRequest, terminating] at done
      split_ifs at done
      cases done
      exact .done (.refl pager)
  | dataUnlock client offset length =>
      simp only [SharedPager.enter, SharedPager.dataUnlock, terminating] at done
      split_ifs at done
      cases done
      exact .done (.refl pager)
  | dataReturn => exact .dataReturn terminating done
  | lockCompleted => exact .lockCompleted terminating done
  | objectTerminate => exact .dropLocks terminating done
  | deadName => exact .dropLocks terminating done
  | lockObject offset length shouldReturn flush sync => exact (notLockObject _ _ _ _ _ rfl).elim
  | shutdown =>
      cases done
      exact .done fun _ => ⟨rfl, [], by simp, by simp⟩

/-- A thread that was started on a terminating pager goes on. -/
theorem Tame.reenter {thread : Thread} {outcome : SharedPager Interned × Option Thread}
    (harmless : thread.Harmless)
    (done : pager.reenter thread.results thread.resume = some outcome) : Tame pager outcome := by
  unfold SharedPager.reenter at done
  unfold Thread.Harmless at harmless
  split at done <;> rename_i isResume <;> rw [isResume] at harmless
  · exact harmless.elim
  · exact harmless.elim
  · rename_i pages doUnlock
    rcases Option.map_eq_some_iff.mp done with ⟨_, finished, ⟨⟩⟩
    apply Tame.done
    refine Loop.forEach_relation Quietly Quietly.refl Quietly.trans ?_ finished
    intro number before after passed
    have notUnlocked : doUnlock number = false := harmless number
    simp only [SharedPager.unlockedPass, notUnlocked] at passed
    cases passed
    exact .refl _
  · exact .afterWrites done
  · cases done
    exact .after (.popFront pager _) (.serviceWritewait _ _)
  · cases done
    refine ⟨.refl pager, ?_⟩
    intro waiting isThread
    dsimp only at isThread
    split_ifs at isThread
    cases isThread
    trivial
  · cases done
    exact .done (.refl pager)

end SharedPager

namespace Threads

variable {pageSize : ℕ} {queued : List WritewaitEntry} {system next : Threads Interned}

/-- The thread that a step calls a handler in -/
def Action.starts : Action → List ℕ
  | .start id _ _ => [id]
  | .call _ => []
  | .finish _ _ => []
  | .resume _ => []
  | .share _ => []

/-- The thread that takes a step -/
def Action.actor : Action → Option ℕ
  | .start id _ _ => some id
  | .call id => some id
  | .finish id _ => some id
  | .resume id => some id
  | .share _ => none

/-- A step that calls `lock_object`, which is no handler of a message -/
def Action.locksObject : Action → Bool
  | .start _ (.lockObject _ _ _ _ _) _ => true
  | _ => false

/-- The pager is terminating, and the threads that were started since are harmless. -/
structure Closing (late : List ℕ) (system : Threads Interned) : Prop where
  terminating : system.pager.terminating = true
  harmless : ∀ id ∈ late, ∀ thread, system.threads id = some thread → thread.Harmless

/-- The step sends nothing that gives a client something. -/
def GrantsNothing (system next : Threads Interned) : Prop :=
  ∃ events, next.pager.sent = system.pager.sent ++ events ∧ ∀ event ∈ events, event.grants = false

theorem Closing.setThread {late more : List ℕ} {id : ℕ} {pager : SharedPager Interned}
    {thread : Option Thread} (closing : Closing late system) (terminating : pager.terminating = true)
    (isMore : ∀ other ∈ more, other ∈ late ∨ other = id)
    (harmless : id ∈ more → ∀ now, thread = some now → now.Harmless) :
    Closing more (({ system with pager := pager } : Threads Interned).setThread id thread) := by
  refine ⟨terminating, ?_⟩
  intro other isLate now isThread
  by_cases same : other = id
  · subst same
    rw [setThread_self] at isThread
    exact harmless isLate now isThread
  · rw [setThread_of_ne same] at isThread
    rcases isMore other isLate with wasLate | isSame
    · exact closing.harmless other wasLate now isThread
    · exact (same isSame).elim

/-- A handler is called on the terminating pager. -/
theorem Closing.start {late : List ℕ} {id : ℕ} {input : Input} {stale : ℕ → Bool}
    {outcome : SharedPager Interned × Option Thread} (closing : Closing late system)
    (done : system.pager.enter stale input = some outcome) :
    Closing (late ++ [id])
        (({ system with pager := outcome.1 } : Threads Interned).setThread id outcome.2) ∧
      (Action.locksObject (.start id input stale) = false →
        GrantsNothing system
          (({ system with pager := outcome.1 } : Threads Interned).setThread id outcome.2)) := by
  have isMore : ∀ other ∈ late ++ [id], other ∈ late ∨ other = id := by simp
  by_cases isCall : ∃ offset length shouldReturn flush sync,
      input = .lockObject offset length shouldReturn flush sync
  · rcases isCall with ⟨offset, length, shouldReturn, flush, sync, rfl⟩
    refine ⟨?_, fun notCall => by cases notCall⟩
    cases done
    have aside := SharedPager.Aside.lockObject system.pager offset length shouldReturn flush sync
    refine closing.setThread (aside.calm.terminating closing.terminating) isMore ?_
    intro _ now isThread
    simp only [SharedPager.lockObject] at isThread
    split_ifs at isThread
    cases isThread
    trivial
  · have tame : SharedPager.Tame system.pager outcome := by
      refine .enter closing.terminating ?_ done
      rintro offset length shouldReturn flush sync rfl
      exact isCall ⟨_, _, _, _, _, rfl⟩
    rcases tame.quietly closing.terminating with ⟨terminating, quiet⟩
    exact ⟨closing.setThread terminating isMore fun _ => tame.harmless, fun _ => quiet⟩

/-- A thread takes the lock of the terminating pager again. -/
theorem Closing.resume {late : List ℕ} {id : ℕ} {thread : Thread}
    {outcome : SharedPager Interned × Option Thread} (closing : Closing late system)
    (isThread : system.threads id = some thread)
    (done : system.pager.reenter thread.results thread.resume = some outcome) :
    Closing late (({ system with pager := outcome.1 } : Threads Interned).setThread id outcome.2) ∧
      (id ∈ late → GrantsNothing system
        (({ system with pager := outcome.1 } : Threads Interned).setThread id outcome.2)) := by
  have terminating : outcome.1.terminating = true := by
    cases isServicing : thread.isServicing with
    | false => exact (SharedPager.Aside.reenter isServicing done).calm.terminating closing.terminating
    | true =>
        have harmless : thread.Harmless := by
          unfold Thread.isServicing at isServicing
          unfold Thread.Harmless
          split at isServicing <;> simp_all
        exact ((SharedPager.Tame.reenter harmless done).quietly closing.terminating).1
  have tame : id ∈ late → SharedPager.Tame system.pager outcome :=
    fun isLate => .reenter (closing.harmless id isLate thread isThread) done
  refine ⟨closing.setThread terminating (fun _ => .inl) fun isLate => (tame isLate).harmless, ?_⟩
  exact fun isLate => ((tame isLate).quietly closing.terminating).2

theorem Closing.step {late : List ℕ} {action : Action} (closing : Closing late system)
    (taken : system.step action = some next) :
    Closing (late ++ action.starts) next ∧
      ∀ id, action.actor = some id → id ∈ late ++ action.starts → action.locksObject = false →
        GrantsNothing system next := by
  cases action with
  | start id input stale =>
      simp only [Threads.step] at taken
      split at taken
      · cases taken
      · rcases Option.map_eq_some_iff.mp taken with ⟨outcome, done, rfl⟩
        rcases closing.start done with ⟨stays, quiet⟩
        exact ⟨stays, fun _ _ _ => quiet⟩
  | call id =>
      rw [show Action.starts (.call id) = [] from rfl, List.append_nil]
      rcases Option.bind_eq_some_iff.mp taken with ⟨thread, isThread, taken⟩
      split at taken
      · rename_i call rest _ _
        cases taken
        refine ⟨closing.setThread closing.terminating (fun _ => .inl) ?_, ?_⟩
        · rintro isLate _ ⟨⟩
          exact closing.harmless id isLate thread isThread
        · refine fun _ _ _ _ => ⟨[system.pager.pageEvent call.page call.event], rfl, ?_⟩
          intro event isEvent
          rcases List.mem_singleton.mp isEvent with rfl
          cases call <;> rfl
      · cases taken
  | finish id returned =>
      rw [show Action.starts (.finish id returned) = [] from rfl, List.append_nil]
      rcases Option.bind_eq_some_iff.mp taken with ⟨thread, isThread, taken⟩
      rcases Option.map_eq_some_iff.mp taken with ⟨call, -, rfl⟩
      refine ⟨closing.setThread closing.terminating (fun _ => .inl) ?_, ?_⟩
      · rintro isLate _ ⟨⟩
        exact closing.harmless id isLate thread isThread
      · exact fun _ _ _ _ => ⟨[], (List.append_nil _).symm, by simp⟩
  | resume id =>
      rw [show Action.starts (.resume id) = [] from rfl, List.append_nil]
      rcases Option.bind_eq_some_iff.mp taken with ⟨thread, isThread, taken⟩
      split_ifs at taken
      rcases Option.map_eq_some_iff.mp taken with ⟨outcome, done, rfl⟩
      rcases closing.resume isThread done with ⟨stays, quiet⟩
      refine ⟨stays, ?_⟩
      rintro _ ⟨⟩ isLate _
      exact quiet isLate
  | share entry =>
      rw [show Action.starts (.share entry) = [] from rfl, List.append_nil]
      cases taken
      exact ⟨⟨closing.terminating, closing.harmless⟩, by rintro _ ⟨⟩⟩

theorem Closing.run {late : List ℕ} {actions : List Action} (closing : Closing late system)
    (finished : Transition.run Threads.step actions system = some next) :
    Closing (late ++ actions.flatMap Action.starts) next := by
  induction actions generalizing late system with
  | nil =>
      cases finished
      simpa using closing
  | cons action rest ih =>
      rcases Option.bind_eq_some_iff.mp finished with ⟨middle, taken, finished⟩
      rw [List.flatMap_cons, ← List.append_assoc]
      exact ih (closing.step taken).1 finished

/-- A later entry has the page, or a thread is still going to write it. -/
def Unsettled (pageSize number : ℕ) (system : Threads Interned) : Prop :=
  (∃ entry ∈ system.pager.writewait.tail, entry.Covers pageSize number) ∨
    ∃ id thread data, system.threads id = some thread ∧ .writePage number data ∈ thread.calls

/-- Since some time, a page has been written, or it is still to be. -/
def Due (pageSize number : ℕ) (earlier : List ℕ) (system : Threads Interned) : Prop :=
  ∃ later, writesOf number system.pager.sent = earlier ++ later ∧
    (later ≠ [] ∨ Unsettled pageSize number system)

/-- The loop of `data_return` comes to an entry that has the page. -/
theorem serviceWritewait_unsettled {pager : SharedPager Interned} {entries : List WritewaitEntry}
    {number : ℕ} (isPageSize : pager.pageSize = pageSize) (isList : pager.writewait = entries)
    (fits : ∀ entry ∈ entries, entry.Fits pageSize)
    (covered : ∃ entry ∈ entries, entry.Covers pageSize number) :
    (∃ entry ∈ (SharedPager.serviceWritewait entries pager).1.writewait.tail,
        entry.Covers pageSize number) ∨
      ∃ thread data, (SharedPager.serviceWritewait entries pager).2 = some thread ∧
        .writePage number data ∈ thread.calls := by
  induction entries generalizing pager with
  | nil => simp at covered
  | cons current rest ih =>
      subst isPageSize
      have fitsList : ∀ entry ∈ pager.writewait, entry.Fits pager.pageSize := isList ▸ fits
      rw [SharedPager.serviceWritewait]
      by_cases later : ∃ entry ∈ rest, entry.Covers pager.pageSize number
      · split_ifs
        · refine @ih (pager.popFront current) rfl (congrArg List.tail isList) ?_ later
          exact fun entry isEntry => fits entry (List.mem_cons_of_mem _ isEntry)
        · exact .inl (isList ▸ later)
      · have covers : current.Covers pager.pageSize number := by
          rcases covered with ⟨entry, isEntry, covers⟩
          rcases List.mem_cons.mp isEntry with rfl | isLater
          · exact covers
          · exact (later ⟨entry, isLater, covers⟩).elim
        have isPageout : number ∈ (pager.pagesOf current.offset current.length).filter
            fun number => pager.matchingPageCountOnWritewait number = 1 := by
          rw [List.mem_filter, SharedPager.mem_pagesOf, decide_eq_true_iff,
            SharedPager.matchingPageCount_eq_one_iff isList fitsList covers]
          exact ⟨covers, fun entry isEntry isCovered => later ⟨entry, isEntry, isCovered⟩⟩
        rw [if_neg (by simpa using List.ne_nil_of_mem isPageout)]
        exact .inr ⟨_, _, rfl, List.mem_map.mpr ⟨number, isPageout, rfl⟩⟩

theorem writesOf_serviceWritewait (entries : List WritewaitEntry) (pager : SharedPager Interned)
    (number : ℕ) : writesOf number (SharedPager.serviceWritewait entries pager).1.sent =
      writesOf number pager.sent := by
  induction entries generalizing pager with
  | nil => rfl
  | cons current rest ih =>
      simp only [SharedPager.serviceWritewait]
      split_ifs
      · rw [ih, SharedPager.writesOf_popFront]
      · rfl

theorem Due.of_eq {number : ℕ} {earlier : List ℕ} (due : Due pageSize number earlier system)
    (sameWrites : writesOf number next.pager.sent = writesOf number system.pager.sent)
    (still : Unsettled pageSize number system → Unsettled pageSize number next) :
    Due pageSize number earlier next := by
  rcases due with ⟨later, isWrites, isDue⟩
  exact ⟨later, sameWrites.trans isWrites, isDue.imp_right still⟩

/-- A thread that had nothing to write has done something. -/
theorem Unsettled.setThread {number id : ℕ} {pager : SharedPager Interned} {thread : Option Thread}
    (unsettled : Unsettled pageSize number system)
    (idle : ∀ was, system.threads id = some was → was.calls = [])
    (still : (∃ entry ∈ system.pager.writewait.tail, entry.Covers pageSize number) →
      (∃ entry ∈ pager.writewait.tail, entry.Covers pageSize number) ∨
        ∃ now data, thread = some now ∧ .writePage number data ∈ now.calls) :
    Unsettled pageSize number
      (({ system with pager := pager } : Threads Interned).setThread id thread) := by
  rcases unsettled with isQueued | ⟨other, was, data, isThread, isCall⟩
  · rcases still isQueued with isStill | ⟨now, data, isNow, isCall⟩
    · exact .inl isStill
    · exact .inr ⟨id, now, data, (setThread_self _ _ _).trans isNow, isCall⟩
  · refine .inr ⟨other, was, data, (setThread_of_ne ?_ _ _).trans isThread, isCall⟩
    rintro rfl
    simp [idle was isThread] at isCall

/-- A handler has been called. -/
theorem Due.start {number id : ℕ} {earlier : List ℕ} {input : Input} {stale : ℕ → Bool}
    {outcome : SharedPager Interned × Option Thread} (due : Due pageSize number earlier system)
    (isNew : system.threads id = none) (done : system.pager.enter stale input = some outcome) :
    Due pageSize number earlier
      (({ system with pager := outcome.1 } : Threads Interned).setThread id outcome.2) := by
  have idle : ∀ was, system.threads id = some was → was.calls = [] := by simp [isNew]
  rcases SharedPager.enter_cases done with ⟨aside, -⟩ |
    ⟨client, offset, data, length, kernelCopy, rfl, returned⟩
  · apply due.of_eq (aside.calm.writesOf number)
    intro unsettled
    apply unsettled.setThread idle
    intro isQueued
    exact .inl (aside.calm.writewait ▸ isQueued)
  · rcases returned.queued with ⟨marked, framed, -, isQueued⟩
    rcases isQueued with ⟨isBusy, rfl⟩ | ⟨isEmpty, rfl⟩
    · apply due.of_eq (framed.writesOf number)
      intro unsettled
      apply unsettled.setThread idle
      rintro ⟨entry, isEntry, covers⟩
      refine .inl ⟨entry, ?_, covers⟩
      rw [List.tail_append_of_ne_nil isBusy]
      exact List.mem_append_left _ isEntry
    · refine due.of_eq ((writesOf_serviceWritewait _ { marked with
        writewait := [⟨offset, data, length, kernelCopy⟩] } number).trans (framed.writesOf number)) ?_
      intro unsettled
      apply unsettled.setThread idle
      simp [isEmpty]

/-- A thread makes its next callback. -/
theorem Due.call {number id : ℕ} {earlier : List ℕ} {owner : Option ℕ} {thread : Thread}
    {call : Call} {rest : List Call} (owned : OwnedBy pageSize queued system owner)
    (due : Due pageSize number earlier system) (isThread : system.threads id = some thread)
    (isNext : thread.calls = call :: rest) :
    Due pageSize number earlier
      (({ system with
          pager := system.pager.emit (system.pager.pageEvent call.page call.event) } :
            Threads Interned).setThread id
        (some { thread with calls := rest, busy := some call })) := by
  have still : (∀ data, call ≠ .writePage number data) → Unsettled pageSize number system →
      Unsettled pageSize number
        (({ system with
            pager := system.pager.emit (system.pager.pageEvent call.page call.event) } :
              Threads Interned).setThread id
          (some { thread with calls := rest, busy := some call })) := by
    intro isOther unsettled
    rcases unsettled with isQueued | ⟨writer, was, data, isWriter, isCall⟩
    · exact .inl isQueued
    · by_cases same : writer = id
      · subst same
        cases isThread.symm.trans isWriter
        rw [isNext] at isCall
        rcases List.mem_cons.mp isCall with isFirst | isLater
        · exact (isOther data isFirst.symm).elim
        · exact .inr ⟨writer, _, data, setThread_self _ _ _, isLater⟩
      · exact .inr ⟨writer, was, data, (setThread_of_ne same _ _).trans isWriter, isCall⟩
  cases call with
  | readPage page => exact due.of_eq (SharedPager.writesOf_call _ rfl number) (still nofun)
  | unlockPage page => exact due.of_eq (SharedPager.writesOf_call _ rfl number) (still nofun)
  | notifyEvict page => exact due.of_eq (SharedPager.writesOf_call _ rfl number) (still nofun)
  | writePage page data =>
      have isCall : .writePage page data ∈ thread.calls := isNext ▸ List.mem_cons_self
      have isOwner : owner = some id := by
        by_contra notOwner
        cases (owned.others id thread isThread notOwner).calls _ isCall
      have sound := owned.sound
      rw [isOwner, Option.bind_some, isThread] at sound
      have writes := SharedPager.writesOf_write system.pager data (sound.named isCall) number
      by_cases same : page = number
      · rcases due with ⟨later, isWrites, -⟩
        rw [if_pos same, isWrites, List.append_assoc] at writes
        exact ⟨later ++ [data], writes, .inl (by simp)⟩
      · rw [if_neg same, List.append_nil] at writes
        refine due.of_eq writes (still ?_)
        rintro _ ⟨⟩
        exact same rfl

/-- The thread that goes through `WRITEWAIT` is done with an entry. -/
theorem Unsettled.popped {number id : ℕ} {current : WritewaitEntry}
    {pager : SharedPager Interned} (unsettled : Unsettled pageSize number system)
    (idle : ∀ was, system.threads id = some was → was.calls = [])
    (isPageSize : pager.pageSize = pageSize) (fits : ∀ entry ∈ pager.writewait, entry.Fits pageSize)
    (sameList : pager.writewait = system.pager.writewait) :
    Unsettled pageSize number
      (({ system with
          pager := (SharedPager.serviceWritewait pager.writewait.tail (pager.popFront current)).1 } :
            Threads Interned).setThread id
        (SharedPager.serviceWritewait pager.writewait.tail (pager.popFront current)).2) := by
  apply unsettled.setThread idle
  rw [← sameList]
  refine @serviceWritewait_unsettled _ (pager.popFront current) _ number isPageSize rfl ?_
  exact fun entry isEntry => fits entry (List.mem_of_mem_tail isEntry)

/-- A thread takes the lock again. -/
theorem Due.resume {number id : ℕ} {earlier : List ℕ} {owner : Option ℕ} {thread : Thread}
    {outcome : SharedPager Interned × Option Thread} (owned : OwnedBy pageSize queued system owner)
    (due : Due pageSize number earlier system) (isThread : system.threads id = some thread)
    (made : thread.calls = [])
    (done : system.pager.reenter thread.results thread.resume = some outcome) :
    Due pageSize number earlier
      (({ system with pager := outcome.1 } : Threads Interned).setThread id outcome.2) := by
  have idle : ∀ was, system.threads id = some was → was.calls = [] := by
    intro was isWas
    cases isThread.symm.trans isWas
    exact made
  by_cases isOwner : owner = some id
  · have sound := owned.sound
    rw [isOwner, Option.bind_some, isThread] at sound
    cases sound.held with
    | writing isResume =>
        rw [isResume] at done
        rcases Option.map_eq_some_iff.mp done with ⟨⟨updated, doNotify⟩, finished, isOutcome⟩
        have framed := (@SharedPager.forEach_flagPass _ _ (fun number flag =>
            flag && !decide (system.pager.matchingPageCountOnWritewait number = 1))
          Page.afterWrite_pagingout (by simp) _ _ _ finished).1
        dsimp only at framed isOutcome
        split_ifs at isOutcome
        · rcases isOutcome with rfl
          apply due.of_eq (framed.writesOf number)
          intro unsettled
          apply unsettled.setThread idle
          intro isQueued
          exact .inl (framed.writewait ▸ isQueued)
        · rcases isOutcome with rfl
          refine due.of_eq (((writesOf_serviceWritewait _ _ number).trans
            (SharedPager.writesOf_popFront _ _ number)).trans (framed.writesOf number)) ?_
          intro unsettled
          apply unsettled.popped idle (framed.pageSize.trans sound.isPageSize) _ framed.writewait
          rw [framed.writewait]
          exact sound.fits
    | notifying isResume =>
        rw [isResume] at done
        cases done
        refine due.of_eq ((writesOf_serviceWritewait _ _ number).trans
          (SharedPager.writesOf_popFront _ _ number)) ?_
        intro unsettled
        exact unsettled.popped idle sound.isPageSize sound.fits rfl
  · have aside := SharedPager.Aside.reenter (owned.others id thread isThread isOwner).elsewhere done
    apply due.of_eq (aside.calm.writesOf number)
    intro unsettled
    apply unsettled.setThread idle
    intro isQueued
    exact .inl (aside.calm.writewait ▸ isQueued)

/-- What is due stays due until it is done. -/
theorem Due.step {number : ℕ} {earlier : List ℕ} {owner : Option ℕ} {action : Action}
    (owned : OwnedBy pageSize queued system owner) (due : Due pageSize number earlier system)
    (taken : system.step action = some next) : Due pageSize number earlier next := by
  cases action with
  | start id input stale =>
      simp only [Threads.step] at taken
      split at taken
      · cases taken
      · rename_i isNew
        rcases Option.map_eq_some_iff.mp taken with ⟨outcome, done, rfl⟩
        exact due.start isNew done
  | call id =>
      rcases Option.bind_eq_some_iff.mp taken with ⟨thread, isThread, taken⟩
      split at taken
      · rename_i isNext
        cases taken
        exact due.call owned isThread isNext
      · cases taken
  | finish id returned =>
      rcases Option.bind_eq_some_iff.mp taken with ⟨thread, isThread, taken⟩
      rcases Option.map_eq_some_iff.mp taken with ⟨call, -, rfl⟩
      refine due.of_eq rfl ?_
      rintro (isQueued | ⟨writer, was, data, isWriter, isCall⟩)
      · exact .inl isQueued
      · by_cases same : writer = id
        · subst same
          cases isThread.symm.trans isWriter
          exact .inr ⟨writer, _, data, setThread_self _ _ _, isCall⟩
        · exact .inr ⟨writer, was, data, (setThread_of_ne same _ _).trans isWriter, isCall⟩
  | resume id =>
      rcases Option.bind_eq_some_iff.mp taken with ⟨thread, isThread, taken⟩
      split_ifs at taken with isReady
      rcases Option.map_eq_some_iff.mp taken with ⟨outcome, done, rfl⟩
      exact due.resume owned isThread isReady.2 done
  | share entry =>
      cases taken
      exact due.of_eq rfl id

theorem Due.run {number : ℕ} {earlier : List ℕ} {owner : Option ℕ} {actions : List Action}
    (owned : OwnedBy pageSize queued system owner) (due : Due pageSize number earlier system)
    (fits : ∀ action ∈ actions, action.Fits)
    (finished : Transition.run Threads.step actions system = some next) :
    Due pageSize number earlier next := by
  induction actions generalizing queued system owner with
  | nil =>
      cases finished
      exact due
  | cons action rest ih =>
      rcases Option.bind_eq_some_iff.mp finished with ⟨middle, taken, finished⟩
      rcases owned.step (fits action List.mem_cons_self) taken with ⟨_, ownedNext⟩
      exact ih ownedNext (due.step owned taken)
        (fun other isOther => fits other (List.mem_cons_of_mem _ isOther)) finished

/-- The pages of dirty data that is returned are due. -/
theorem Due.returned {number id : ℕ} {owner : Option ℕ} {client : MachPort} {offset length : ℕ}
    {data : ℕ → ℕ} {kernelCopy : Bool} {stale : ℕ → Bool}
    (owned : OwnedBy pageSize queued system owner)
    (fits : Action.Fits (.start id (.dataReturn client offset data length true kernelCopy) stale))
    (isPage : number ∈ system.pager.pagesOf offset length)
    (taken : system.step (.start id (.dataReturn client offset data length true kernelCopy) stale) =
      some next) :
    Due pageSize number (writesOf number system.pager.sent) next := by
  have isPageSize := owned.sound.isPageSize
  have covers : WritewaitEntry.Covers pageSize ⟨offset, data, length, kernelCopy⟩ number :=
    isPageSize ▸ (@SharedPager.mem_pagesOf system.pager ⟨offset, data, length, kernelCopy⟩ _).mp isPage
  simp only [Threads.step] at taken
  split at taken
  · cases taken
  rcases Option.map_eq_some_iff.mp taken with ⟨outcome, done, rfl⟩
  rcases SharedPager.enter_cases done with ⟨-, isOther⟩ | ⟨_, _, _, _, _, ⟨⟩, returned⟩
  · exact (isOther _ _ _ _ _ rfl).elim
  rcases returned.queued with ⟨marked, framed, -, ⟨isBusy, rfl⟩ | ⟨-, rfl⟩⟩
  · refine ⟨[], (framed.writesOf number).trans (List.append_nil _).symm, .inr (.inl ?_)⟩
    refine ⟨_, ?_, covers⟩
    exact List.tail_append_of_ne_nil isBusy ▸ List.mem_append_right _ (List.mem_singleton_self _)
  · have entryFits : WritewaitEntry.Fits pageSize ⟨offset, data, length, kernelCopy⟩ :=
      ⟨isPageSize ▸ returned.aligned.1, isPageSize ▸ returned.aligned.2, fits⟩
    have sameWrites := (writesOf_serviceWritewait [⟨offset, data, length, kernelCopy⟩] { marked with
      writewait := [⟨offset, data, length, kernelCopy⟩] } number).trans (framed.writesOf number)
    refine ⟨[], sameWrites.trans (List.append_nil _).symm, .inr ?_⟩
    rcases @serviceWritewait_unsettled pageSize { marked with
        writewait := [⟨offset, data, length, kernelCopy⟩] } _ number
        (framed.pageSize.trans isPageSize) rfl (by simpa using entryFits) ⟨_, by simp, covers⟩ with
      isQueued | ⟨thread, written, isThread, isCall⟩
    · exact .inl isQueued
    · exact .inr ⟨id, thread, written, (setThread_self _ _ _).trans isThread, isCall⟩

/-- When there is nothing on `WRITEWAIT`, no page is still to be written. -/
theorem OwnedBy.settled {number : ℕ} {owner : Option ℕ}
    (owned : OwnedBy pageSize queued system owner) (isEmpty : system.pager.writewait = []) :
    ¬Unsettled pageSize number system := by
  rintro (⟨entry, isEntry, -⟩ | ⟨id, thread, data, isThread, isCall⟩)
  · simp [isEmpty] at isEntry
  · by_cases isOwner : owner = some id
    · have held := owned.sound.held
      rw [isOwner, Option.bind_some, isThread] at held
      cases held with
      | writing _ isList => cases isEmpty.symm.trans isList
      | notifying _ isList => cases isEmpty.symm.trans isList
    · cases (owned.others id thread isThread isOwner).calls _ isCall

/-- The thread that goes through `WRITEWAIT` has made its callbacks and fails an assert. -/
def AssertFails (system : Threads Interned) : Prop :=
  ∃ id thread, system.threads id = some thread ∧ thread.isServicing = true ∧ thread.busy = none ∧
    thread.calls = [] ∧ system.step (.resume id) = none

/-- Without another handler being called, `WRITEWAIT` can be gone through to its end. -/
def Finishes (system : Threads Interned) : Prop :=
  ∃ actions last, (∀ action ∈ actions, action.starts = []) ∧
    Transition.run Threads.step actions system = some last ∧
    (last.pager.writewait = [] ∨ AssertFails last)

theorem Finishes.after {actions : List Action} (goesOn : ∀ action ∈ actions, action.starts = [])
    (finished : Transition.run Threads.step actions system = some next) (finishes : Finishes next) :
    Finishes system := by
  rcases finishes with ⟨more, last, goesOnToo, finishedToo, isLast⟩
  refine ⟨actions ++ more, last, ?_, ?_, isLast⟩
  · intro action isAction
    rcases List.mem_append.mp isAction with isEarlier | isLater
    · exact goesOn action isEarlier
    · exact goesOnToo action isLater
  · rw [Transition.run_append, finished]
    exact finishedToo

theorem Action.fits_of_starts {action : Action} (goesOn : action.starts = []) : action.Fits := by
  cases action with
  | start => cases goesOn
  | _ => trivial

theorem Action.queues_of_starts {action : Action} (goesOn : action.starts = []) :
    action.queues = [] := by
  cases action with
  | start => cases goesOn
  | _ => rfl

/-- A thread can make all its callbacks. -/
theorem makesCalls {id : ℕ} {calls : List Call} {results : Callbacks} {resume : Resume}
    (isThread : system.threads id = some ⟨calls, none, results, resume⟩) :
    ∃ actions next returned, (∀ action ∈ actions, action.starts = []) ∧
      Transition.run Threads.step actions system = some next ∧
      next.threads id = some ⟨[], none, returned, resume⟩ ∧
      next.pager.writewait = system.pager.writewait := by
  induction calls generalizing system results with
  | nil => exact ⟨[], system, results, nofun, rfl, isThread, rfl⟩
  | cons call rest ih =>
      let calling : Threads Interned := ({ system with
        pager := system.pager.emit (system.pager.pageEvent call.page call.event) } :
          Threads Interned).setThread id (some ⟨rest, some call, results, resume⟩)
      let called : Threads Interned := calling.setThread id
        (some ⟨rest, none, call.record {} results, resume⟩)
      have calls : system.step (.call id) = some calling := by
        simp [Threads.step, isThread, calling]
      have returns : calling.step (.finish id {}) = some called := by
        simp [Threads.step, calling, called]
      rcases @ih called _ (setThread_self _ _ _) with
        ⟨actions, next, returned, goesOn, finished, isNext, sameList⟩
      refine ⟨.call id :: .finish id {} :: actions, next, returned, ?_, ?_, isNext, sameList⟩
      · simpa [Action.starts] using goesOn
      · rw [Transition.run_cons, calls, Option.bind_some, Transition.run_cons, returns]
        exact finished

theorem makesAllCalls {id : ℕ} {thread : Thread} (isThread : system.threads id = some thread) :
    ∃ actions next returned, (∀ action ∈ actions, action.starts = []) ∧
      Transition.run Threads.step actions system = some next ∧
      next.threads id = some ⟨[], none, returned, thread.resume⟩ ∧
      next.pager.writewait = system.pager.writewait := by
  rcases thread with ⟨calls, _ | call, results, resume⟩
  · exact makesCalls isThread
  · have returns : system.step (.finish id {}) = some (system.setThread id
        (some ⟨calls, none, call.record {} results, resume⟩)) := by
      simp [Threads.step, isThread]
    rcases makesCalls (setThread_self system id
      (some ⟨calls, none, call.record {} results, resume⟩)) with
      ⟨actions, next, returned, goesOn, finished, isNext, sameList⟩
    refine ⟨.finish id {} :: actions, next, returned, ?_, ?_, isNext, sameList⟩
    · simpa [Action.starts] using goesOn
    · rw [Transition.run_cons, returns]
      exact finished

/-- How far the first entry of `WRITEWAIT` is from being done with -/
def left (thread : Thread) : ℕ :=
  match thread.resume with
  | .written _ _ => 2
  | _ => 1

theorem length_serviceWritewait (entries : List WritewaitEntry) (pager : SharedPager Interned) :
    (SharedPager.serviceWritewait entries pager).1.writewait.length ≤ pager.writewait.length := by
  induction entries generalizing pager with
  | nil => exact le_rfl
  | cons current rest ih =>
      simp only [SharedPager.serviceWritewait]
      split_ifs
      · refine (ih _).trans ?_
        simp [SharedPager.popFront]
      · exact le_rfl

/-- The first entry is done with. -/
theorem popped_lt {pager : SharedPager Interned} (current : WritewaitEntry) (thread next : Thread)
    (isBusy : pager.writewait ≠ []) :
    2 * (SharedPager.serviceWritewait pager.writewait.tail
        (pager.popFront current)).1.writewait.length + left next <
      2 * pager.writewait.length + left thread := by
  have shorter := length_serviceWritewait pager.writewait.tail (pager.popFront current)
  have isLength : (pager.popFront current).writewait.length = pager.writewait.length - 1 :=
    List.length_tail
  have positive := List.length_pos_iff.mpr isBusy
  have first : left next ≤ 2 := by
    unfold left
    split <;> omega
  have last : 1 ≤ left thread := by
    unfold left
    split <;> omega
  omega

/-- Each time the thread has had the lock, there is less left. -/
theorem resumed_lt {pager : SharedPager Interned} {thread next : Thread}
    {outcome : SharedPager Interned × Option Thread}
    (held : SharedPager.Held pageSize queued pager (some thread))
    (done : pager.reenter thread.results thread.resume = some outcome)
    (isNext : outcome.2 = some next) :
    2 * outcome.1.writewait.length + left next < 2 * pager.writewait.length + left thread := by
  cases held with
  | writing isResume isList =>
      rw [isResume] at done
      rcases Option.map_eq_some_iff.mp done with ⟨⟨updated, doNotify⟩, finished, isOutcome⟩
      have framed := (@SharedPager.forEach_flagPass _ _ (fun number flag =>
          flag && !decide (pager.matchingPageCountOnWritewait number = 1))
        Page.afterWrite_pagingout (by simp) _ _ _ finished).1
      dsimp only at framed isOutcome
      split_ifs at isOutcome
      · rcases isOutcome with rfl
        cases isNext
        simp [left, isResume, framed.writewait]
      · rcases isOutcome with rfl
        rw [← framed.writewait]
        apply popped_lt
        rw [framed.writewait, isList]
        nofun
  | notifying isResume isList =>
      rw [isResume] at done
      cases done
      apply popped_lt
      rw [isList]
      nofun

/-- Of the threads that have been there, only the owner is in `service_first_WRITEWAIT_entry`. -/
theorem OwnedBy.eq_of_servicing {owner : Option ℕ} {id : ℕ} {thread : Thread}
    (owned : OwnedBy pageSize queued system owner) (isThread : system.threads id = some thread)
    (isServicing : thread.isServicing = true) : owner = some id := by
  by_contra notOwner
  rw [(owned.others id thread isThread notOwner).elsewhere] at isServicing
  cases isServicing

theorem OwnedBy.finishes_of_lt {id : ℕ} {thread : Thread} (bound : ℕ)
    (owned : OwnedBy pageSize queued system (some id)) (isThread : system.threads id = some thread)
    (isBound : 2 * system.pager.writewait.length + left thread < bound) : Finishes system := by
  induction bound generalizing system id thread with
  | zero => omega
  | succ bound ih =>
      have isServicing : thread.isServicing = true := by
        have held := owned.sound.held
        rw [Option.bind_some, isThread] at held
        exact held.isServicing
      rcases makesAllCalls isThread with
        ⟨actions, ready, returned, goesOn, finished, isReady, sameList⟩
      have fits : ∀ action ∈ actions, action.Fits :=
        fun action isAction => Action.fits_of_starts (goesOn action isAction)
      have noneQueued : actions.flatMap Action.queues = [] := by
        simpa using fun action isAction => Action.queues_of_starts (goesOn action isAction)
      rcases owned.run fits finished with ⟨owner, ownedReady⟩
      rw [noneQueued, List.append_nil] at ownedReady
      cases ownedReady.eq_of_servicing isReady isServicing
      refine .after goesOn finished ?_
      cases isResumed : ready.step (.resume id) with
      | none => exact ⟨[], ready, nofun, rfl, .inr ⟨id, _, isReady, isServicing, rfl, rfl, isResumed⟩⟩
      | some next =>
          have runs : Transition.run Threads.step [.resume id] ready = some next := by
            rw [Transition.run_cons, isResumed]
            rfl
          refine .after (by simp [Action.starts]) runs ?_
          rcases ownedReady.step (Action.fits_of_starts rfl) isResumed with ⟨nextOwner, ownedNext⟩
          rw [show Action.queues (.resume id) = [] from rfl, List.append_nil] at ownedNext
          rcases Option.bind_eq_some_iff.mp isResumed with ⟨_, isSame, isResumed⟩
          cases isReady.symm.trans isSame
          rw [if_pos ⟨rfl, rfl⟩] at isResumed
          rcases Option.map_eq_some_iff.mp isResumed with ⟨outcome, done, rfl⟩
          have heldNext := ownedNext.sound.held
          cases nextOwner with
          | none =>
              cases heldNext with
              | idle isEmpty => exact ⟨[], _, nofun, rfl, .inl isEmpty⟩
          | some other =>
              rcases ownedNext.exists_thread other rfl with ⟨now, isNow⟩
              rw [Option.bind_some, isNow] at heldNext
              -- the other threads are where they were
              have isSame : other = id := by
                by_contra different
                rw [setThread_of_ne different] at isNow
                cases ownedReady.eq_of_servicing isNow heldNext.isServicing
                exact different rfl
              subst isSame
              refine ih ownedNext isNow ?_
              have held := ownedReady.sound.held
              rw [Option.bind_some, isReady] at held
              have less := resumed_lt held done ((setThread_self _ _ _).symm.trans isNow)
              rw [sameList] at less
              exact (Nat.lt_of_lt_of_le less (Nat.lt_succ_iff.mp isBound) :)

/-- The write path runs to its end, if it does not fail an assert. -/
theorem OwnedBy.finishes {owner : Option ℕ} (owned : OwnedBy pageSize queued system owner) :
    Finishes system := by
  cases owner with
  | none =>
      cases owned.sound.held with
      | idle isEmpty => exact ⟨[], system, nofun, rfl, .inl isEmpty⟩
  | some id =>
      rcases owned.exists_thread id rfl with ⟨thread, isThread⟩
      exact owned.finishes_of_lt _ isThread (Nat.lt_succ_self _)

/-- The pager has nothing to write, whoever has its pages, waits for them or is to be locked. -/
structure AtRest (pageSize : ℕ) (system : Threads Interned) : Prop where
  isPageSize : system.pager.pageSize = pageSize
  noThreads : ∀ id, system.threads id = none
  isEmpty : system.pager.writewait = []
  pagingout : ∀ number, (system.pager.read number).pagingout = false
  nothingSent : system.pager.sent = []

theorem AtRest.ownedBy (atRest : AtRest pageSize system) : OwnedBy pageSize [] system none := by
  refine ⟨⟨atRest.isPageSize, ?_, .idle atRest.isEmpty atRest.pagingout ?_⟩, nofun, ?_⟩
  · rw [atRest.isEmpty]
    nofun
  · intro number
    rw [atRest.nothingSent]
    exact ⟨List.Sublist.refl _, fun _ => rfl⟩
  · intro id thread isThread
    cases (atRest.noThreads id).symm.trans isThread

theorem atRest_create {pageSize_pos : 0 < pageSize} {mayCache : Bool} {copyStrategy : ℕ}
    {notifyOnEvict : Bool} {leftovers : ℕ → PagemapEntry} :
    AtRest pageSize (create pageSize pageSize_pos mayCache copyStrategy notifyOnEvict leftovers) :=
  ⟨rfl, fun _ => rfl, rfl, fun number => congrArg PagemapEntry.pagingout (read_create number), rfl⟩

/-- What was written for a page last, since some time, is what was queued for it last. -/
def LastWritten (pageSize number : ℕ) (earlier : List ℕ) (queued : List WritewaitEntry)
    (system : Threads Interned) : Prop :=
  ∃ later data, writesOf number system.pager.sent = earlier ++ later ∧
    later.getLast? = some data ∧ (contentsOf pageSize number queued).getLast? = some data

/--
What happens in a run from a state in which the pager is terminating.  No handler that is called in
the run gives a client anything.  A page that is returned to one is written, or still to be written,
and when there is nothing on `WRITEWAIT`, it has been written what came with it or with a later
return.  The writes can be brought to their end, unless an assert fails.
-/
structure ShutDown (pageSize : ℕ) (system : Threads Interned) (actions : List Action)
    (final : Threads Interned) : Prop where
  grantsNothing : ∀ done action rest middle next id, actions = done ++ action :: rest →
    Transition.run Threads.step done system = some middle → middle.step action = some next →
    action.actor = some id → id ∈ done.flatMap Action.starts ++ action.starts →
    action.locksObject = false → GrantsNothing middle next
  losesNothing : ∀ done id client offset data length kernelCopy stale rest middle number,
    actions = done ++ .start id (.dataReturn client offset data length true kernelCopy) stale :: rest →
    Transition.run Threads.step done system = some middle →
    number ∈ middle.pager.pagesOf offset length →
    Due pageSize number (writesOf number middle.pager.sent) final ∧
      (final.pager.writewait = [] → LastWritten pageSize number (writesOf number middle.pager.sent)
        (⟨offset, data, length, kernelCopy⟩ :: rest.flatMap Action.queues) final)
  finishes : Finishes final

/-- When `WRITEWAIT` is empty, what was due has been written. -/
theorem OwnedBy.lastWritten {number : ℕ} {earlier : List ℕ} {owner : Option ℕ}
    {before since : List WritewaitEntry} (owned : OwnedBy pageSize (before ++ since) system owner)
    (due : Due pageSize number earlier system) (isEmpty : system.pager.writewait = [])
    (covered : ∃ entry ∈ since, entry.Covers pageSize number) :
    LastWritten pageSize number earlier since system := by
  rcases due with ⟨later, isWrites, isDue⟩
  have written : later ≠ [] := isDue.resolve_right (owned.settled isEmpty)
  rcases covered with ⟨entry, isEntry, covers⟩
  have isQueued : contentsOf pageSize number since ≠ [] := by
    apply List.ne_nil_of_mem
    exact List.mem_filterMap.mpr ⟨entry, isEntry, if_pos covers⟩
  have last := owned.sound.held.getLast? isEmpty number
  have split : contentsOf pageSize number (before ++ since) =
      contentsOf pageSize number before ++ contentsOf pageSize number since := List.filterMap_append
  rw [isWrites, split, List.getLast?_append_of_ne_nil _ written,
    List.getLast?_append_of_ne_nil _ isQueued] at last
  have isLast := List.getLast?_eq_some_getLast written
  exact ⟨later, later.getLast written, isWrites, isLast, last.symm.trans isLast⟩

/-- In every run, if dirty data is returned for pages that end before the offsets do. -/
theorem shutDown_of_fits {resting final : Threads Interned} {before after : List Action}
    (atRest : AtRest pageSize resting) (fits : ∀ action ∈ before ++ after, action.Fits)
    (reached : Transition.run Threads.step before resting = some system)
    (terminating : system.pager.terminating = true)
    (finished : Transition.run Threads.step after system = some final) :
    ShutDown pageSize system after final := by
  have fitsBefore : ∀ action ∈ before, action.Fits :=
    fun action isAction => fits action (List.mem_append_left _ isAction)
  have fitsAfter : ∀ action ∈ after, action.Fits :=
    fun action isAction => fits action (List.mem_append_right _ isAction)
  rcases atRest.ownedBy.run fitsBefore reached with ⟨_, owned⟩
  rcases owned.run fitsAfter finished with ⟨_, ownedFinal⟩
  refine ⟨?_, ?_, ownedFinal.finishes⟩
  · intro done action rest middle next id _ ran taken isActor isLate notCall
    have closing : Closing [] system := ⟨terminating, nofun⟩
    exact ((closing.run ran).step taken).2 id isActor isLate notCall
  · rintro done id client offset data length kernelCopy stale rest middle number rfl ran isPage
    have fitsDone : ∀ action ∈ done, action.Fits :=
      fun action isAction => fitsAfter action (List.mem_append_left _ isAction)
    have fitsReturn := fitsAfter _ (List.mem_append_right _ List.mem_cons_self)
    rcases owned.run fitsDone ran with ⟨_, ownedMiddle⟩
    rw [Transition.run_append, ran, Option.bind_some, Transition.run_cons] at finished
    rcases Option.bind_eq_some_iff.mp finished with ⟨next, taken, finished⟩
    rcases ownedMiddle.step fitsReturn taken with ⟨_, ownedNext⟩
    have due := (Due.returned ownedMiddle fitsReturn isPage taken).run ownedNext
      (fun action isAction => fitsAfter action
        (List.mem_append_right _ (List.mem_cons_of_mem _ isAction))) finished
    refine ⟨due, ?_⟩
    intro isEmpty
    rw [List.flatMap_append, ← List.append_assoc] at ownedFinal
    apply ownedFinal.lastWritten due isEmpty
    refine ⟨_, List.mem_cons_self, ?_⟩
    exact ownedMiddle.sound.isPageSize ▸
      (@SharedPager.mem_pagesOf middle.pager ⟨offset, data, length, kernelCopy⟩ number).mp isPage

/-- The pager is shut down. -/
def closed (notifyOnEvict : Bool) : Threads Interned :=
  { create 4096 (by decide) true 0 notifyOnEvict fun _ => {} with
    pager := { (create 4096 (by decide) true 0 notifyOnEvict fun _ => {}).pager with
      terminating := true } }

theorem closed_reached (notifyOnEvict : Bool) :
    Transition.run Threads.step [.start 9 .shutdown fun _ => false]
      (create 4096 (by decide) true 0 notifyOnEvict fun _ => {}) = some (closed notifyOnEvict) := by
  simp [Transition.run_cons, Transition.run_nil, Threads.step, create, SharedPager.enter, closed,
    setThread]

theorem returnedTwice_shutDown : ∃ final,
    Transition.run Threads.step returnedTwice (closed true) = some final ∧
      ShutDown 4096 (closed true) returnedTwice final := by
  have runs : (Transition.run Threads.step returnedTwice (closed true)).isSome = true := rfl
  rcases Option.isSome_iff_exists.mp runs with ⟨final, finished⟩
  refine ⟨final, finished, shutDown_of_fits atRest_create ?_ (closed_reached true) rfl finished⟩
  intro action isAction
  rcases List.mem_append.mp isAction with isEarlier | isLater
  · rcases List.mem_singleton.mp isEarlier with rfl
    trivial
  · exact returnedTwice_fits action isLater

theorem endReturned_not_shutDown : ∃ final,
    Transition.run Threads.step [.start 9 .shutdown fun _ => false]
        (create 4096 (by decide) true 0 false fun _ => {}) = some (closed false) ∧
      Transition.run Threads.step endReturned (closed false) = some final ∧
      ¬ShutDown 4096 (closed false) endReturned final := by
  have untouched : Untouched (closed false) :=
    ⟨rfl, rfl, rfl, rfl, untouched_create.read, fun _ => rfl⟩
  rcases endReturned_runs untouched with ⟨final, finished, isEmpty, noWrites, -⟩
  refine ⟨final, closed_reached false, finished, ?_⟩
  intro shutDown
  have isPage : 1048574 ∈ (closed false).pager.pagesOf (2 ^ 32 - 8192) 8192 := by decide
  rcases (shutDown.losesNothing [] _ _ _ _ _ _ _ _ _ 1048574 rfl rfl isPage).2 isEmpty with
    ⟨later, data, isWrites, isLast, -⟩
  rw [noWrites] at isWrites
  simp [(List.append_eq_nil_iff.mp isWrites.symm).2] at isLast

end Threads

end Hurd.Libpager
