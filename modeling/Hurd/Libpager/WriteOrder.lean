import Hurd.Libpager.Writeback

/-!
# The order of the writes

In every interleaving of the handlers, one thread at most is in `service_first_WRITEWAIT_entry`,
and it is there as long as there is anything on `WRITEWAIT`.
-/

namespace Hurd.Libpager

/-- The thread has nothing to do with `WRITEWAIT`. -/
structure Thread.Aloof (thread : Thread) : Prop where
  elsewhere : thread.isServicing = false
  calls : ∀ call ∈ thread.calls, call.isWrite = false
  busy : ∀ call, thread.busy = some call → call.isWrite = false

namespace Threads

variable {pageSize : ℕ} {queued : List WritewaitEntry} {system next : Threads Interned}

/-- The entry that a step puts on `WRITEWAIT`, if any -/
def Action.queues : Action → List WritewaitEntry
  | .start _ (.dataReturn _ offset data length true kernelCopy) _ =>
      [⟨offset, data, length, kernelCopy⟩]
  | _ => []

theorem Action.queues_start {id : ℕ} {input : Input} {stale : ℕ → Bool}
    (noneQueued : ∀ client offset data length kernelCopy,
      input ≠ .dataReturn client offset data length true kernelCopy) :
    Action.queues (.start id input stale) = [] := by
  unfold Action.queues
  split
  · rename_i isStart
    cases isStart
    exact absurd rfl (noneQueued _ _ _ _ _)
  · rfl

/-- Dirty data is returned for pages that end before the offsets do. -/
def Action.Fits : Action → Prop
  | .start _ (.dataReturn _ offset _ length true _) _ => offset + length < offsetRange
  | _ => True

/-- What has been queued for a page in a run -/
def queuedFor (pageSize number : ℕ) (actions : List Action) : List ℕ :=
  contentsOf pageSize number (actions.flatMap Action.queues)

/-- The queue is sound, and `owner` is the one thread that goes through it. -/
structure OwnedBy (pageSize : ℕ) (queued : List WritewaitEntry) (system : Threads Interned)
    (owner : Option ℕ) : Prop where
  sound : SharedPager.Sound pageSize queued system.pager (owner.bind system.threads)
  exists_thread : ∀ id, owner = some id → ∃ thread, system.threads id = some thread
  others : ∀ id thread, system.threads id = some thread → owner ≠ some id → thread.Aloof

@[simp]
theorem setThread_self (system : Threads Interned) (id : ℕ) (thread : Option Thread) :
    (system.setThread id thread).threads id = thread :=
  Function.update_self _ _ _

theorem setThread_of_ne {id other : ℕ} (different : other ≠ id) (system : Threads Interned)
    (thread : Option Thread) : (system.setThread id thread).threads other = system.threads other :=
  Function.update_of_ne different _ _

/-- A thread that is not the owner has done something. -/
theorem OwnedBy.bystander {owner : Option ℕ} {id : ℕ} {more : List WritewaitEntry}
    {pager : SharedPager Interned} {thread : Option Thread}
    (owned : OwnedBy pageSize queued system owner) (notOwner : owner ≠ some id)
    (sound : SharedPager.Sound pageSize more pager (owner.bind system.threads))
    (aloof : ∀ now, thread = some now → now.Aloof) :
    OwnedBy pageSize more
      (({ system with pager := pager } : Threads Interned).setThread id thread) owner := by
  have same : ∀ other, owner = some other →
      (({ system with pager := pager } : Threads Interned).setThread id thread).threads other =
        system.threads other := by
    intro other isOwner
    apply setThread_of_ne
    rintro rfl
    exact notOwner isOwner
  refine ⟨?_, ?_, ?_⟩
  · cases owner with
    | none => exact sound
    | some other => exact (congrArg _ (same other rfl)).mpr sound
  · intro other isOwner
    rw [same other isOwner]
    exact owned.exists_thread other isOwner
  · intro other now isThread isNotOwner
    by_cases isSame : other = id
    · subst isSame
      rw [setThread_self] at isThread
      exact aloof now isThread
    · rw [setThread_of_ne isSame] at isThread
      exact owned.others other now isThread isNotOwner

/-- A thread that is not the owner has had the lock. -/
theorem OwnedBy.aside {owner : Option ℕ} {id : ℕ}
    {outcome : SharedPager Interned × Option Thread} (owned : OwnedBy pageSize queued system owner)
    (notOwner : owner ≠ some id) (aside : SharedPager.Aside system.pager outcome) :
    OwnedBy pageSize queued
      (({ system with pager := outcome.1 } : Threads Interned).setThread id outcome.2) owner := by
  apply owned.bystander notOwner (owned.sound.calm aside.calm)
  intro thread isThread
  rcases aside.thread thread isThread with ⟨elsewhere, idle, calls⟩
  exact ⟨elsewhere, calls, by simp [idle]⟩

/-- The owner has had the lock, or a thread that becomes the owner. -/
theorem OwnedBy.owner {owner : Option ℕ} {id : ℕ} {more : List WritewaitEntry}
    {pager : SharedPager Interned} {thread : Option Thread}
    (owned : OwnedBy pageSize queued system owner) (alone : owner = none ∨ owner = some id)
    (sound : SharedPager.Sound pageSize more pager thread) :
    ∃ next, OwnedBy pageSize more
      (({ system with pager := pager } : Threads Interned).setThread id thread) next := by
  have others : ∀ other now, other ≠ id →
      (({ system with pager := pager } : Threads Interned).setThread id thread).threads other =
        some now → now.Aloof := by
    intro other now different isThread
    rw [setThread_of_ne different] at isThread
    apply owned.others other now isThread
    rcases alone with isNone | isSome
    · rw [isNone]
      nofun
    · rw [isSome]
      exact fun isSame => different (Option.some_inj.mp isSame).symm
  cases thread with
  | none =>
      refine ⟨none, sound, nofun, ?_⟩
      intro other now isThread _
      refine others other now ?_ isThread
      rintro rfl
      rw [setThread_self] at isThread
      cases isThread
  | some thread =>
      refine ⟨some id, ?_, ?_, ?_⟩
      · rw [Option.bind_some, setThread_self]
        exact sound
      · rintro _ ⟨⟩
        exact ⟨thread, setThread_self _ _ _⟩
      · intro other now isThread isNotOwner
        exact others other now (fun isSame => isNotOwner (congrArg some isSame.symm)) isThread

/-- A handler has been called. -/
theorem OwnedBy.start {owner : Option ℕ} {id : ℕ} {input : Input} {stale : ℕ → Bool}
    {outcome : SharedPager Interned × Option Thread} (owned : OwnedBy pageSize queued system owner)
    (isNew : system.threads id = none) (fits : Action.Fits (.start id input stale))
    (done : system.pager.enter stale input = some outcome) :
    ∃ next, OwnedBy pageSize (queued ++ Action.queues (.start id input stale))
      (({ system with pager := outcome.1 } : Threads Interned).setThread id outcome.2) next := by
  have notOwner : owner ≠ some id := by
    intro isOwner
    rcases owned.exists_thread id isOwner with ⟨thread, isThread⟩
    cases isNew.symm.trans isThread
  rcases SharedPager.enter_cases done with ⟨aside, noneQueued⟩ |
    ⟨client, offset, data, length, kernelCopy, rfl, returned⟩
  · rw [Action.queues_start noneQueued, List.append_nil]
    exact ⟨owner, owned.aside notOwner aside⟩
  · have isPageSize := owned.sound.isPageSize
    have entryFits : WritewaitEntry.Fits pageSize ⟨offset, data, length, kernelCopy⟩ :=
      ⟨isPageSize ▸ returned.aligned.1, isPageSize ▸ returned.aligned.2, fits⟩
    rcases returned.queued with ⟨marked, framed, flags, isQueued⟩
    have covers : ∀ number, (marked.read number).pagingout =
        ((system.pager.read number).pagingout ||
          decide (WritewaitEntry.Covers pageSize ⟨offset, data, length, kernelCopy⟩ number)) := by
      intro number
      rw [flags, ← isPageSize]
      congr 1
      have isPage := @SharedPager.mem_pagesOf system.pager ⟨offset, data, length, kernelCopy⟩ number
      exact decide_eq_decide.mpr isPage
    rcases isQueued with ⟨isBusy, rfl⟩ | ⟨isEmpty, rfl⟩
    · refine ⟨owner, owned.bystander notOwner ?_ nofun⟩
      exact owned.sound.enqueued entryFits isBusy framed covers
    · have isNone : owner = none := by
        cases isOwner : owner with
        | none => rfl
        | some other =>
            rcases owned.exists_thread other isOwner with ⟨thread, isThread⟩
            have held := owned.sound.held
            rw [isOwner, Option.bind_some, isThread] at held
            cases held with
            | writing _ isList => cases isEmpty.symm.trans isList
            | notifying _ isList => cases isEmpty.symm.trans isList
      have sound := owned.sound
      rw [isNone] at sound
      exact owned.owner (.inl isNone) (sound.begun entryFits framed covers)

/-- A thread makes its next callback. -/
theorem OwnedBy.call {owner : Option ℕ} {id : ℕ} {thread : Thread} {call : Call}
    {rest : List Call} (owned : OwnedBy pageSize queued system owner)
    (isThread : system.threads id = some thread) (isNext : thread.calls = call :: rest) :
    ∃ next, OwnedBy pageSize queued
      (({ system with
          pager := system.pager.emit (system.pager.pageEvent call.page call.event) } :
            Threads Interned).setThread id
        (some { thread with calls := rest, busy := some call })) next := by
  by_cases isOwner : owner = some id
  · have sound := owned.sound
    rw [isOwner, Option.bind_some, isThread] at sound
    exact owned.owner (.inr isOwner) (sound.called isNext)
  · have aloof := owned.others id thread isThread isOwner
    have notWrite := aloof.calls call (isNext ▸ List.mem_cons_self)
    refine ⟨owner, owned.bystander isOwner ?_ ?_⟩
    · exact owned.sound.other notWrite
    · rintro _ ⟨⟩
      refine ⟨aloof.elsewhere, ?_, ?_⟩
      · intro other isOther
        exact aloof.calls other (isNext ▸ List.mem_cons_of_mem _ isOther)
      · rintro _ ⟨⟩
        exact notWrite

theorem OwnedBy.finish {owner : Option ℕ} {id : ℕ} {thread : Thread}
    (owned : OwnedBy pageSize queued system owner) (isThread : system.threads id = some thread)
    (results : Callbacks) :
    ∃ next, OwnedBy pageSize queued
      (system.setThread id (some { thread with busy := none, results := results })) next := by
  by_cases isOwner : owner = some id
  · have sound := owned.sound
    rw [isOwner, Option.bind_some, isThread] at sound
    exact owned.owner (.inr isOwner) (sound.finished results)
  · have aloof := owned.others id thread isThread isOwner
    refine ⟨owner, owned.bystander isOwner owned.sound ?_⟩
    rintro _ ⟨⟩
    exact ⟨aloof.elsewhere, aloof.calls, nofun⟩

/-- A thread takes the lock again. -/
theorem OwnedBy.resume {owner : Option ℕ} {id : ℕ} {thread : Thread}
    {outcome : SharedPager Interned × Option Thread} (owned : OwnedBy pageSize queued system owner)
    (isThread : system.threads id = some thread) (made : thread.calls = [])
    (done : system.pager.reenter thread.results thread.resume = some outcome) :
    ∃ next, OwnedBy pageSize queued
      (({ system with pager := outcome.1 } : Threads Interned).setThread id outcome.2) next := by
  by_cases isOwner : owner = some id
  · have sound := owned.sound
    rw [isOwner, Option.bind_some, isThread] at sound
    refine owned.owner (.inr isOwner) ?_
    cases sound.held with
    | writing isResume =>
        rw [isResume] at done
        exact sound.afterWrites isResume made done
    | notifying isResume =>
        rw [isResume] at done
        cases done
        exact sound.notified isResume
  · have aloof := owned.others id thread isThread isOwner
    exact ⟨owner, owned.aside isOwner (.reenter aloof.elsewhere done)⟩

/-- The queue stays sound in every step. -/
theorem OwnedBy.step {owner : Option ℕ} {action : Action}
    (owned : OwnedBy pageSize queued system owner) (fits : action.Fits)
    (taken : system.step action = some next) :
    ∃ nextOwner, OwnedBy pageSize (queued ++ action.queues) next nextOwner := by
  cases action with
  | start id input stale =>
      simp only [Threads.step] at taken
      split at taken
      · cases taken
      · rename_i isNew
        rcases Option.map_eq_some_iff.mp taken with ⟨outcome, done, rfl⟩
        exact owned.start isNew fits done
  | call id =>
      rw [show Action.queues (.call id) = [] from rfl, List.append_nil]
      rcases Option.bind_eq_some_iff.mp taken with ⟨thread, isThread, taken⟩
      split at taken
      · rename_i isNext
        cases taken
        exact owned.call isThread isNext
      · cases taken
  | finish id returned =>
      rw [show Action.queues (.finish id returned) = [] from rfl, List.append_nil]
      rcases Option.bind_eq_some_iff.mp taken with ⟨thread, isThread, taken⟩
      rcases Option.map_eq_some_iff.mp taken with ⟨call, -, rfl⟩
      exact owned.finish isThread _
  | resume id =>
      rw [show Action.queues (.resume id) = [] from rfl, List.append_nil]
      rcases Option.bind_eq_some_iff.mp taken with ⟨thread, isThread, taken⟩
      split_ifs at taken with isReady
      rcases Option.map_eq_some_iff.mp taken with ⟨outcome, done, rfl⟩
      exact owned.resume isThread isReady.2 done
  | share entry =>
      rw [show Action.queues (.share entry) = [] from rfl, List.append_nil]
      cases taken
      refine ⟨owner, owned.sound.calm ?_, owned.exists_thread, owned.others⟩
      refine ⟨⟨rfl, rfl, rfl, id, [], by simp, by simp⟩, ?_⟩
      intro number
      exact congrArg PagemapEntry.pagingout (Interned.read_share _ _ _)

/-- A pager as its constructor leaves it, with whatever the moves are going to leave behind -/
def create (pageSize : ℕ) (pageSize_pos : 0 < pageSize) (mayCache : Bool) (copyStrategy : ℕ)
    (notifyOnEvict : Bool) (leftovers : ℕ → PagemapEntry) : Threads Interned where
  pager :=
    { pageSize, pageSize_pos, mayCache, copyStrategy, notifyOnEvict
      pagemap := { leftovers := leftovers } }

theorem read_create {pageSize_pos : 0 < pageSize} {mayCache : Bool} {copyStrategy : ℕ}
    {notifyOnEvict : Bool} {leftovers : ℕ → PagemapEntry} (number : ℕ) :
    (create pageSize pageSize_pos mayCache copyStrategy notifyOnEvict leftovers).pager.read number =
      {} := by
  have isEmpty := Interned.read_of_length_le { leftovers := leftovers } number (Nat.zero_le _)
  exact isEmpty

theorem OwnedBy.create {pageSize_pos : 0 < pageSize} {mayCache : Bool} {copyStrategy : ℕ}
    {notifyOnEvict : Bool} {leftovers : ℕ → PagemapEntry} :
    OwnedBy pageSize []
      (create pageSize pageSize_pos mayCache copyStrategy notifyOnEvict leftovers) none := by
  refine ⟨⟨rfl, nofun, .idle rfl ?_ ?_⟩, nofun, nofun⟩
  · intro number
    exact congrArg PagemapEntry.pagingout (read_create number)
  · intro number
    exact ⟨List.Sublist.refl _, fun _ => rfl⟩

theorem OwnedBy.run {owner : Option ℕ} {actions : List Action}
    (owned : OwnedBy pageSize queued system owner) (fits : ∀ action ∈ actions, action.Fits)
    (finished : Transition.run Threads.step actions system = some next) :
    ∃ nextOwner, OwnedBy pageSize (queued ++ actions.flatMap Action.queues) next nextOwner := by
  induction actions generalizing queued system owner with
  | nil =>
      cases finished
      exact ⟨owner, by simpa using owned⟩
  | cons action rest ih =>
      rcases Option.bind_eq_some_iff.mp finished with ⟨middle, taken, finished⟩
      rcases owned.step (fits action List.mem_cons_self) taken with ⟨_, ownedNext⟩
      rcases ih ownedNext (fun other isOther => fits other (List.mem_cons_of_mem _ isOther))
        finished with ⟨nextOwner, ownedLast⟩
      refine ⟨nextOwner, ?_⟩
      rw [List.flatMap_cons, ← List.append_assoc]
      exact ownedLast

/--
The writes do not overlap, each page is written what is queued for it in that order, and when
there is nothing on `WRITEWAIT`, the last that was written is the last that was queued.
-/
structure InOrder (pageSize : ℕ) (actions : List Action) (system : Threads Interned) : Prop where
  oneAtATime : ∀ first second firstThread secondThread firstPage secondPage firstData secondData,
    system.threads first = some firstThread → system.threads second = some secondThread →
    firstThread.busy = some (.writePage firstPage firstData) →
    secondThread.busy = some (.writePage secondPage secondData) → first = second
  subsequence : ∀ number,
    (writesOf number system.pager.sent).Sublist (queuedFor pageSize number actions)
  lastWins : system.pager.writewait = [] → ∀ number,
    (writesOf number system.pager.sent).getLast? = (queuedFor pageSize number actions).getLast?

/-- A thread that is writing is the owner. -/
theorem OwnedBy.eq_of_writing {owner : Option ℕ} {id number data : ℕ} {thread : Thread}
    (owned : OwnedBy pageSize queued system owner) (isThread : system.threads id = some thread)
    (isWriting : thread.busy = some (.writePage number data)) : owner = some id := by
  by_contra notOwner
  cases (owned.others id thread isThread notOwner).busy _ isWriting

/-- In every run, if dirty data is returned for pages that end before the offsets do. -/
theorem writes_inOrder {pageSize_pos : 0 < pageSize} {mayCache : Bool} {copyStrategy : ℕ}
    {notifyOnEvict : Bool} {leftovers : ℕ → PagemapEntry} {actions : List Action}
    (fits : ∀ action ∈ actions, action.Fits)
    (finished : Transition.run Threads.step actions
      (create pageSize pageSize_pos mayCache copyStrategy notifyOnEvict leftovers) = some system) :
    InOrder pageSize actions system := by
  rcases OwnedBy.create.run fits finished with ⟨owner, owned⟩
  refine ⟨?_, ?_, ?_⟩
  · intro first second _ _ _ _ _ _ isFirst isSecond firstWriting secondWriting
    have isOwner := owned.eq_of_writing isFirst firstWriting
    rw [owned.eq_of_writing isSecond secondWriting] at isOwner
    exact (Option.some_inj.mp isOwner).symm
  · intro number
    exact owned.sound.held.sublist number
  · intro isEmpty number
    exact owned.sound.held.getLast? isEmpty number

/-- A page is returned again while it is being written. -/
def returnedTwice : List Action :=
  [.start 0 (.dataReturn 1 0 (fun _ => 7) 4096 true true) fun _ => false, .call 0,
    .start 1 (.dataReturn 1 0 (fun _ => 9) 4096 true false) fun _ => false, .finish 0 {},
    .resume 0, .call 0, .finish 0 {}, .resume 0]

theorem returnedTwice_fits : ∀ action ∈ returnedTwice, action.Fits := by
  intro action isAction
  simp only [returnedTwice, List.mem_cons, List.not_mem_nil, or_false] at isAction
  rcases isAction with rfl | rfl | rfl | rfl | rfl | rfl | rfl | rfl
  all_goals first | trivial | exact (by decide : 0 + 4096 < offsetRange)

theorem returnedTwice_inOrder : ∃ system,
    Transition.run Threads.step returnedTwice
        (create 4096 (by decide) true 0 true fun _ => { invalid := true }) = some system ∧
      (∀ action ∈ returnedTwice, action.Fits) ∧ InOrder 4096 returnedTwice system := by
  have runs : (Transition.run Threads.step returnedTwice
      (create 4096 (by decide) true 0 true fun _ => { invalid := true })).isSome = true := rfl
  rcases Option.isSome_iff_exists.mp runs with ⟨system, finished⟩
  exact ⟨system, finished, returnedTwice_fits, writes_inOrder returnedTwice_fits finished⟩

/-- The first entry of `WRITEWAIT` has been written and its pages have been updated. -/
def FrontUpdated (system : Threads Interned) : Prop :=
  ∃ id thread current, system.threads id = some thread ∧ thread.resume = .notified current

/-- There is an entry on `WRITEWAIT` that has the page and is still to be dealt with. -/
def Waiting (pageSize number : ℕ) (system : Threads Interned) : Prop :=
  ∃ index entry, system.pager.writewait[index]? = some entry ∧ entry.Covers pageSize number ∧
    ¬(index = 0 ∧ FrontUpdated system)

/-- `PAGINGOUT` says what is waiting to be written. -/
theorem OwnedBy.pagingout_iff {owner : Option ℕ} (owned : OwnedBy pageSize queued system owner)
    (number : ℕ) : (system.pager.read number).pagingout = true ↔ Waiting pageSize number system := by
  have isOwner : ∀ id thread current, system.threads id = some thread →
      thread.resume = .notified current → owner = some id := by
    intro id thread current isThread isResume
    by_contra notOwner
    have elsewhere := (owned.others id thread isThread notOwner).elsewhere
    simp [Thread.isServicing, isResume] at elsewhere
  have held := owned.sound.held
  generalize isThread : owner.bind system.threads = thread at held
  cases held with
  | idle isEmpty flags _ =>
      rw [flags]
      constructor
      · rintro ⟨⟩
      · rintro ⟨index, entry, isEntry, -⟩
        simp [isEmpty] at isEntry
  | @writing thread current pageouts rest _ isResume isList _ flags =>
      have notUpdated : ¬FrontUpdated system := by
        rintro ⟨id, other, otherCurrent, isOther, isNotified⟩
        rw [isOwner id other otherCurrent isOther isNotified, Option.bind_some, isOther] at isThread
        cases isThread
        cases isResume.symm.trans isNotified
      rw [flags]
      constructor
      · rintro ⟨entry, isEntry, covers⟩
        rcases List.mem_iff_getElem?.mp isEntry with ⟨index, isAt⟩
        exact ⟨index, entry, isList ▸ isAt, covers, fun isFront => notUpdated isFront.2⟩
      · rintro ⟨index, entry, isAt, covers, -⟩
        exact ⟨entry, List.mem_iff_getElem?.mpr ⟨index, isList ▸ isAt⟩, covers⟩
  | @notifying thread current rest _ isResume isList _ flags =>
      rcases Option.bind_eq_some_iff.mp isThread with ⟨id, -, isThread⟩
      have isUpdated : FrontUpdated system := ⟨id, thread, current, isThread, isResume⟩
      rw [flags]
      constructor
      · rintro ⟨entry, isEntry, covers⟩
        rcases List.mem_iff_getElem?.mp isEntry with ⟨index, isAt⟩
        refine ⟨index + 1, entry, ?_, covers, fun isFront => absurd isFront.1 (Nat.succ_ne_zero _)⟩
        rw [isList, List.getElem?_cons_succ]
        exact isAt
      · rintro ⟨index, entry, isAt, covers, notFront⟩
        cases index with
        | zero => exact absurd ⟨rfl, isUpdated⟩ notFront
        | succ index =>
            rw [isList, List.getElem?_cons_succ] at isAt
            exact ⟨entry, List.mem_iff_getElem?.mpr ⟨index, isAt⟩, covers⟩

/-- In every run, if dirty data is returned for pages that end before the offsets do. -/
theorem pagingout_iff_waiting {pageSize_pos : 0 < pageSize} {mayCache : Bool} {copyStrategy : ℕ}
    {notifyOnEvict : Bool} {leftovers : ℕ → PagemapEntry} {actions : List Action}
    (fits : ∀ action ∈ actions, action.Fits)
    (finished : Transition.run Threads.step actions
      (create pageSize pageSize_pos mayCache copyStrategy notifyOnEvict leftovers) = some system) :
    (∀ number, (system.pager.read number).pagingout = true ↔ Waiting pageSize number system) ∧
      ∀ id client offset length access stale next thread number,
        system.step (.start id (.dataRequest client offset length access) stale) = some next →
        next.threads id = some thread → .readPage number ∈ thread.calls →
          ¬Waiting pageSize number next := by
  rcases OwnedBy.create.run fits finished with ⟨owner, owned⟩
  refine ⟨owned.pagingout_iff, ?_⟩
  intro id client offset length access stale next thread number taken isThread isRead
  have fitsRequest : Action.Fits (.start id (.dataRequest client offset length access) stale) :=
    trivial
  rcases owned.step fitsRequest taken with ⟨_, ownedNext⟩
  rw [← ownedNext.pagingout_iff, Bool.not_eq_true]
  simp only [Threads.step] at taken
  split at taken
  · cases taken
  · rcases Option.map_eq_some_iff.mp taken with ⟨outcome, done, rfl⟩
    rw [setThread_self] at isThread
    exact SharedPager.dataRequest_reads done isThread isRead

theorem returnedTwice_pagingout : ∃ system,
    Transition.run Threads.step (returnedTwice.take 4)
        (create 4096 (by decide) true 0 true fun _ => { invalid := true }) = some system ∧
      (∀ action ∈ returnedTwice.take 4, action.Fits) ∧
      ∀ number, (system.pager.read number).pagingout = true ↔ Waiting 4096 number system := by
  have fits : ∀ action ∈ returnedTwice.take 4, action.Fits :=
    fun action isAction => returnedTwice_fits action (List.mem_of_mem_take isAction)
  have runs : (Transition.run Threads.step (returnedTwice.take 4)
      (create 4096 (by decide) true 0 true fun _ => { invalid := true })).isSome = true := rfl
  rcases Option.isSome_iff_exists.mp runs with ⟨system, finished⟩
  exact ⟨system, finished, fits, (pagingout_iff_waiting fits finished).1⟩

section EndOfOffsets

/-- The last two pages that have offsets are returned. -/
def endOfOffsets : WritewaitEntry := ⟨2 ^ 32 - 8192, fun _ => 7, 8192, false⟩

def endReturned : List Action :=
  [.start 0 (.dataReturn 1 (2 ^ 32 - 8192) (fun _ => 7) 8192 true false) fun _ => false,
    .call 0, .finish 0 {}, .resume 0]

variable {pager : SharedPager Interned}

theorem dataReturnEnter_of_empty {page : Page} (isEmpty : page.entry = {}) (client : MachPort)
    (data : ℕ) : page.dataReturnEnter client data true false =
      some ({ page with entry := { pagingout := true } }, ⟨false, false⟩) := by
  rcases page with ⟨terminating, precious, entry, locks, nexterror, sent⟩
  cases isEmpty
  have entered : ∀ isDead : Decidable (client = machPortDead),
      (if client = machPortDead then
          (⟨terminating, precious, {}, locks, nexterror, sent⟩ : Page)
        else Page.removeFromAccesslist ⟨terminating, precious, {}, locks, nexterror, sent⟩ client) =
        ⟨terminating, precious, {}, locks, nexterror, sent⟩ := by
    intro isDead
    split_ifs <;> rfl
  simp only [Page.dataReturnEnter, Page.dataReturnHandOff, Bool.false_eq_true, if_false, entered]
  rfl

theorem onPage_of_part {Flag : Type} {number : ℕ} {part : Page → Option (Page × Flag)} {page : Page}
    {flag : Flag} (isPart : part ((pager.load number).page number) = some (page, flag)) :
    ∃ next, pager.onPage number part = some (next, flag) ∧
      ∀ other, next.read other = if other = number then page.entry else pager.read other := by
  refine ⟨((pager.load number).putPage number page).store number, ?_, ?_⟩
  · rw [SharedPager.onPage, SharedPager.onTmp, isPart]
    rfl
  · exact fun other => pager.read_worked number other page

/-- The pages that nobody has are marked. -/
theorem forEach_dataReturnEnter {numbers : List ℕ} {client : MachPort} {data : ℕ → ℕ}
    (distinct : numbers.Nodup) (isEmpty : ∀ number ∈ numbers, pager.read number = {}) :
    ∃ next, Loop.forEach (SharedPager.flagPass fun number page =>
        page.dataReturnEnter client (data number) true false) numbers
          (pager, fun _ => ⟨false, false⟩) = some (next, fun _ => ⟨false, false⟩) ∧
      (∀ number ∈ numbers, next.read number = { pagingout := true }) ∧
      ∀ number ∉ numbers, next.read number = pager.read number := by
  induction numbers generalizing pager with
  | nil => exact ⟨pager, rfl, nofun, fun _ _ => rfl⟩
  | cons first rest ih =>
      rw [List.nodup_cons] at distinct
      have entry : ((pager.load first).page first).entry = {} :=
        (Interned.tmp_load _ _).trans (isEmpty first List.mem_cons_self)
      have entered := dataReturnEnter_of_empty entry client (data first)
      rcases @onPage_of_part _ _ _ (fun page => page.dataReturnEnter client (data first) true false)
        _ _ entered with ⟨middle, passed, reads⟩
      have others : ∀ number ∈ rest, middle.read number = {} := by
        intro number isIn
        have different : number ≠ first := fun isSame => distinct.1 (isSame ▸ isIn)
        rw [reads, if_neg different]
        exact isEmpty number (List.mem_cons_of_mem _ isIn)
      rcases ih distinct.2 others with ⟨next, finished, marked, same⟩
      refine ⟨next, ?_, ?_, ?_⟩
      · simp only [Loop.forEach, SharedPager.flagPass, passed, Option.map_some, Option.bind_some]
        rw [Function.update_eq_self]
        exact finished
      · intro number isIn
        rcases List.mem_cons.mp isIn with rfl | isLater
        · rw [same number distinct.1, reads, if_pos rfl]
        · exact marked number isLater
      · intro number notIn
        rw [List.mem_cons, not_or] at notIn
        rw [same number notIn.2, reads, if_neg notIn.1]

/-- Only the second of the two pages is counted once. -/
theorem serviceWritewait_endOfOffsets (isPageSize : pager.pageSize = 4096)
    (isList : pager.writewait = [endOfOffsets]) :
    SharedPager.serviceWritewait [endOfOffsets] pager = (pager, some
      { calls := [.writePage 1048575 7], resume := .written endOfOffsets [1048575] }) := by
  have pages : pager.pagesOf endOfOffsets.offset endOfOffsets.length = [1048574, 1048575] := by
    rw [SharedPager.pagesOf, isPageSize]
    decide
  have first : pager.matchingPageCountOnWritewait 1048574 = 0 := by
    simp [SharedPager.matchingPageCountOnWritewait, SharedPager.matchesPage, SharedPager.offsetOf,
      isPageSize, isList, endOfOffsets, offsetRange]
  have second : pager.matchingPageCountOnWritewait 1048575 = 1 := by
    simp [SharedPager.matchingPageCountOnWritewait, SharedPager.matchesPage, SharedPager.offsetOf,
      isPageSize, isList, endOfOffsets, offsetRange]
  have pageouts : ((pager.pagesOf endOfOffsets.offset endOfOffsets.length).filter fun number =>
      pager.matchingPageCountOnWritewait number = 1) = [1048575] := by
    simp [pages, first, second]
  rw [SharedPager.serviceWritewait]
  simp only [pageouts]
  rfl

theorem afterWrite_of_idle {page : Page} (isIdle : page.entry.waitlist = []) (data : ℕ)
    (error : KernReturn) : ∃ next, page.afterWrite data false error true = some (next, true) := by
  have stillIdle : ((page.recordWrite error).setPagingout false).entry.waitlist = [] := by
    unfold Page.recordWrite
    split_ifs <;> exact isIdle
  exact ⟨_, by simp only [Page.afterWrite, stillIdle]; rfl⟩

/-- The end of the write of the second page -/
theorem afterWrites_endOfOffsets (isPageSize : pager.pageSize = 4096)
    (isList : pager.writewait = [endOfOffsets]) (notNotified : pager.notifyOnEvict = false)
    (isMarked : pager.read 1048575 = { pagingout := true }) (results : Callbacks) :
    ∃ next, pager.afterWrites endOfOffsets [1048575] results = some (next, none) ∧
      next.writewait = [] ∧ next.read 1048574 = pager.read 1048574 ∧
      writesOf 1048574 next.sent = writesOf 1048574 pager.sent := by
  have count : pager.matchingPageCountOnWritewait 1048575 = 1 := by
    simp [SharedPager.matchingPageCountOnWritewait, SharedPager.matchesPage, SharedPager.offsetOf,
      isPageSize, isList, endOfOffsets, offsetRange]
  have entry : ((pager.load 1048575).page 1048575).entry = { pagingout := true } :=
    (Interned.tmp_load _ _).trans isMarked
  rcases afterWrite_of_idle (congrArg PagemapEntry.waitlist entry)
    (pager.dataFor endOfOffsets 1048575) (results 1048575).write with ⟨page, isPart⟩
  rcases @onPage_of_part _ _ _ (fun page => page.afterWrite (pager.dataFor endOfOffsets 1048575)
    false (results 1048575).write true) _ _ isPart with ⟨worked, passed, reads⟩
  have framed := (SharedPager.onPage_cases passed
    fun isPart => (Page.afterWrite_pagingout isPart).2).1
  have isTail : worked.writewait.tail = [] := by
    rw [framed.writewait, isList]
    rfl
  refine ⟨worked.popFront endOfOffsets, ?_, isTail, ?_, ?_⟩
  · have kernelCopy : endOfOffsets.kernelCopy = false := rfl
    simp only [SharedPager.afterWrites, Loop.forEach, SharedPager.flagPass, count, kernelCopy,
      decide_true, passed, Option.map_some, Option.bind_some, framed.notifyOnEvict, notNotified,
      Bool.false_eq_true, false_and, if_false, isTail]
    rfl
  · exact (reads 1048574).trans (if_neg (by decide))
  · rw [SharedPager.writesOf_popFront, framed.writesOf]

/-- A pager with pages of 4096 bytes that has not had anything to do with its pages yet -/
structure Untouched (system : Threads Interned) : Prop where
  isNew : system.threads 0 = none
  isPageSize : system.pager.pageSize = 4096
  isEmpty : system.pager.writewait = []
  notNotified : system.pager.notifyOnEvict = false
  read : ∀ number, system.pager.read number = {}
  noWrites : ∀ number, writesOf number system.pager.sent = []

theorem untouched_create :
    Untouched (create 4096 (by decide) true 0 false fun _ => {}) :=
  ⟨rfl, rfl, rfl, rfl, read_create, fun _ => rfl⟩

theorem endReturned_start (untouched : Untouched system) : ∃ next,
    system.step
        (.start 0 (.dataReturn 1 (2 ^ 32 - 8192) (fun _ => 7) 8192 true false) fun _ => false) =
          some next ∧
      next.threads 0 = some
        { calls := [.writePage 1048575 7], resume := .written endOfOffsets [1048575] } ∧
      next.pager.pageSize = 4096 ∧ next.pager.writewait = [endOfOffsets] ∧
      next.pager.notifyOnEvict = false ∧
      next.pager.read 1048574 = { pagingout := true } ∧
      next.pager.read 1048575 = { pagingout := true } ∧
      writesOf 1048574 next.pager.sent = [] := by
  rcases @forEach_dataReturnEnter system.pager [1048574, 1048575] 1 (fun _ => 7) (by decide)
    (fun number _ => untouched.read number) with ⟨marked, finished, isMarked, -⟩
  have framed := (@SharedPager.forEach_flagPass _ _ (fun _ flag => flag || true)
    Page.dataReturnEnter_pagingout (by simp) _ _ _ finished).1
  have isPageSize : marked.pageSize = 4096 := framed.pageSize.trans untouched.isPageSize
  have service := @serviceWritewait_endOfOffsets { marked with writewait := [endOfOffsets] }
    isPageSize rfl
  have idle : marked.writewait = [] := framed.writewait.trans untouched.isEmpty
  have entered : system.pager.dataReturn 1
      (2 ^ 32 - 8192) (fun _ => 7) 8192 true false (fun _ => false) =
        some ({ marked with writewait := [endOfOffsets] }, some
          { calls := [.writePage 1048575 7], resume := .written endOfOffsets [1048575] }) := by
    have pages : system.pager.pagesOf (2 ^ 32 - 8192) 8192 = [1048574, 1048575] := by
      rw [SharedPager.pagesOf, untouched.isPageSize]
      decide
    rw [SharedPager.dataReturn, untouched.isPageSize, if_neg (by decide), pages]
    dsimp only
    rw [finished, Option.bind_some, ← service]
    simp [idle, endOfOffsets]
  refine ⟨({ system with
      pager := { marked with writewait := [endOfOffsets] } } : Threads Interned).setThread 0
        (some { calls := [.writePage 1048575 7], resume := .written endOfOffsets [1048575] }),
    ?_, setThread_self _ _ _, isPageSize, rfl, framed.notifyOnEvict.trans untouched.notNotified,
    isMarked 1048574 (by decide), isMarked 1048575 (by decide),
    (framed.writesOf 1048574).trans (untouched.noWrites 1048574)⟩
  rw [Threads.step, untouched.isNew]
  dsimp only
  rw [SharedPager.enter, entered]
  rfl

theorem endReturned_runs (untouched : Untouched system) : ∃ next,
    Transition.run Threads.step endReturned system = some next ∧
      next.pager.writewait = [] ∧ writesOf 1048574 next.pager.sent = [] ∧
      (next.pager.read 1048574).pagingout = true := by
  rcases endReturned_start untouched with
    ⟨started, taken, isThread, isPageSize, isList, notNotified, isFirst, isSecond, noWrites⟩
  let pager := started.pager.emit (started.pager.pageEvent 1048575 (.writePage 7))
  let results := Call.record (.writePage 1048575 7) {} fun _ => {}
  rcases @afterWrites_endOfOffsets pager isPageSize isList notNotified isSecond results with
    ⟨next, resumed, isEmpty, sameRead, sameWrites⟩
  let writing : Threads Interned := ({ started with pager := pager } : Threads Interned).setThread 0
    (some { busy := some (.writePage 1048575 7), resume := .written endOfOffsets [1048575] })
  have called : started.step (.call 0) = some writing := by
    simp [Threads.step, isThread, Call.page, Call.event, writing, pager]
  let written : Threads Interned := writing.setThread 0
    (some { results := results, resume := .written endOfOffsets [1048575] })
  have returned : writing.step (.finish 0 {}) = some written := by
    simp [Threads.step, writing, written, results]
  refine ⟨({ written with pager := next } : Threads Interned).setThread 0 none, ?_, isEmpty, ?_, ?_⟩
  · have isWritten : written.pager = pager := rfl
    have last : written.step (.resume 0) =
        some (({ written with pager := next } : Threads Interned).setThread 0 none) := by
      have isThread : written.threads 0 =
          some { results := results, resume := .written endOfOffsets [1048575] } :=
        setThread_self _ _ _
      simp [Threads.step, isThread, isWritten, SharedPager.reenter, resumed]
    simp only [endReturned, Transition.run_cons, Transition.run_nil, taken, called, returned, last,
      Option.bind_some]
  · refine sameWrites.trans ?_
    have named : started.pager.offsetOf 1048575 / started.pager.pageSize = 1048575 := by
      rw [SharedPager.offsetOf, isPageSize]
      decide
    simp only [pager, SharedPager.emit, writesOf_append, SharedPager.pageEvent, named, noWrites]
    rfl
  · have isMarked : next.read 1048574 = { pagingout := true } := sameRead.trans isFirst
    exact congrArg PagemapEntry.pagingout isMarked

theorem endReturned_not_inOrder : ∃ system,
    Transition.run Threads.step endReturned (create 4096 (by decide) true 0 false fun _ => {}) =
        some system ∧ ¬InOrder 4096 endReturned system := by
  rcases endReturned_runs untouched_create with ⟨system, finished, isEmpty, noWrites, -⟩
  refine ⟨system, finished, ?_⟩
  intro inOrder
  have last := inOrder.lastWins isEmpty 1048574
  rw [noWrites] at last
  exact absurd last (by decide)

theorem endReturned_pagingout : ∃ system,
    Transition.run Threads.step endReturned (create 4096 (by decide) true 0 false fun _ => {}) =
        some system ∧
      ¬((system.pager.read 1048574).pagingout = true ↔ Waiting 4096 1048574 system) := by
  rcases endReturned_runs untouched_create with ⟨system, finished, isEmpty, -, isMarked⟩
  refine ⟨system, finished, ?_⟩
  intro isWaiting
  rcases isWaiting.mp isMarked with ⟨index, entry, isEntry, -⟩
  simp [isEmpty] at isEntry

end EndOfOffsets

end Threads

end Hurd.Libpager
