import Hurd.Libpager.WriteOrder

/-!
# Waiting for the writes

`lock_object` with `sync` waits until its locks have been answered and then until the last write of
the range has been done.  With one thread for the messages of a pager there is never more than one
return of dirty data in `WRITEWAIT`, and none when a lock is answered: what has been returned by then
has been written.

But it waits only for the clients it finds, and where it finds none it returns at once, with a write
of the range still to be done.
-/

namespace Hurd.Libpager

/-- A call of `lock_object` with `sync` that has not returned -/
structure SyncCall where
  offset : ℕ
  length : ℕ
  /-- It has been notified that its locks have been answered. -/
  answered : Bool := false
  /-- The number of returns of dirty data that it is to wait for -/
  upTo : ℕ

namespace SyncCall

def key (call : SyncCall) : LockKey := toLex (call.offset, call.length)

/-- What a step means for a call, when `returned` returns of dirty data came before it -/
def notify (events : List Event) (returned : ℕ) (call : SyncCall) : SyncCall :=
  if call.answered = false ∧ .wakeLockWaiters call.key ∈ events then
    { call with answered := true, upTo := returned }
  else call

/-- The page overlaps the range of the call. -/
def Overlaps (pageSize : ℕ) (call : SyncCall) (number : ℕ) : Prop :=
  call.offset < (number + 1) * pageSize ∧ number * pageSize < call.offset + call.length

end SyncCall

/-- A pager with its threads, what has been returned to it and what it has written -/
structure Syncing where
  system : Threads Interned
  /-- The dirty data that has been returned, in order -/
  queued : List WritewaitEntry := []
  /-- The calls of `pager_write_page` that have returned: for which of `queued`, and for which page -/
  completed : List (ℕ × ℕ) := []
  calls : ℕ → Option SyncCall := fun _ => none

namespace Syncing

def pager (state : Syncing) : SharedPager Interned := state.system.pager

/-- The number of returns of dirty data that have left `WRITEWAIT` -/
def popped (state : Syncing) : ℕ := state.queued.length - state.pager.writewait.length

/-- The write that a step completes -/
def completes (state : Syncing) : Threads.Action → List (ℕ × ℕ)
  | .finish id _ =>
      match (state.system.threads id).bind (·.busy) with
      | some (.writePage number _) => [(state.popped, number)]
      | _ => []
  | _ => []

/-- The call that a step makes -/
def begins (state : Syncing) : Threads.Action → ℕ → Option SyncCall
  | .start id (.lockObject offset length _ _ true) _ =>
      Function.update state.calls id (some { offset, length, upTo := state.queued.length })
  | _ => state.calls

def step (state : Syncing) (action : Threads.Action) : Option Syncing :=
  (state.system.step action).map fun system =>
    { system
      queued := state.queued ++ action.queues
      completed := state.completed ++ state.completes action
      calls := fun id =>
        if system.threads id = none then none
        else (state.begins action id).map
          (SyncCall.notify (system.pager.sent.drop state.pager.sent.length) state.queued.length) }

/--
One thread handles the messages, any others call `lock_object`, and these go on from its first wait
only when they have been notified.  From its second wait they may go on at any time.
-/
def Scheduled (state : Syncing) : Threads.Action → Prop
  | .start id (.lockObject ..) _ => id ≠ 0
  | .start id .shutdown _ => id ≠ 0
  | .start id _ _ => id = 0
  | .resume id => id = 0 ∨ ∀ thread offset length, state.system.threads id = some thread →
      thread.resume = .locksAnswered offset length →
        ∃ call, state.calls id = some call ∧ call.answered = true
  | _ => True

/-- `lock_object` returns. -/
inductive Returns (state : Syncing) (next : Syncing) : Threads.Action → SyncCall → Prop
  | atOnce {id offset length shouldReturn flush stale} (isDone : next.system.threads id = none) :
      Returns state next (.start id (.lockObject offset length shouldReturn flush true) stale)
        { offset, length, upTo := state.queued.length }
  | later {id call} (isCall : state.calls id = some call) (isDone : next.system.threads id = none) :
      Returns state next (.resume id) call

/-- The pages that a call is to wait for have been written, or a later return of them has. -/
def Written (state : Syncing) (call : SyncCall) : Prop :=
  ∀ index entry number, index < call.upTo → state.queued[index]? = some entry →
    entry.Covers state.pager.pageSize number → call.Overlaps state.pager.pageSize number →
      ∃ later ≥ index, (later, number) ∈ state.completed

def create (pageSize : ℕ) (pageSize_pos : 0 < pageSize) (mayCache : Bool) (copyStrategy : ℕ)
    (notifyOnEvict : Bool) (leftovers : ℕ → PagemapEntry) : Syncing where
  system := Threads.create pageSize pageSize_pos mayCache copyStrategy notifyOnEvict leftovers

end Syncing

namespace SharedPager

variable {pager next : SharedPager Interned} {Flag : Type}

/-- `lock_object` finds a client that it has to ask. -/
def Finds (pager : SharedPager Interned) (offset length : ℕ) (shouldReturn : MemoryObjectReturn)
    (flush : Bool) : Prop :=
  ∃ number ∈ pager.pagesOf offset length, ∃ client ∈ (pager.read number).accesslist,
    flush = true ∨ shouldReturn = .all ∨ (pager.read number).writeAccessGranted = true

theorem mem_foldl_insert {client : MachPort} (clients : List MachPort) (set : OrdSet MachPort) :
    client ∈ clients.foldl (fun clients client => clients.insert client) set ↔
      client ∈ set ∨ client ∈ clients := by
  induction clients generalizing set with
  | nil => simp
  | cons first rest ih =>
      rw [List.foldl_cons, ih, OrdSet.mem_insert, List.mem_cons]
      tauto

theorem mem_lockObjectPass {only : Bool} {client : MachPort} (numbers : List ℕ)
    (state : SharedPager Interned × OrdSet MachPort)
    (isFound : client ∈ state.2 ∨ ∃ number ∈ numbers, client ∈ (state.1.read number).accesslist ∧
      (only = false ∨ (state.1.read number).writeAccessGranted = true)) :
    client ∈ (numbers.foldl (lockObjectPass only) state).2 := by
  induction numbers generalizing state with
  | nil => simpa using isFound
  | cons first rest ih =>
      rw [List.foldl_cons]
      apply ih
      have sameRead : ∀ number, (state.1.touch first).read number = state.1.read number :=
        fun number => state.1.pagemap.read_touch first number
      simp only [lockObjectPass, sameRead, List.exists_mem_cons_iff] at isFound ⊢
      rcases isFound with isIn | ⟨isListed, isAsked⟩ | isLater
      · left
        split_ifs
        · exact (mem_foldl_insert _ _).mpr (.inl isIn)
        · exact isIn
      · left
        have asked : (!only || (state.1.read first).writeAccessGranted) = true := by
          rcases isAsked with rfl | isGranted
          · rfl
          · rw [isGranted, Bool.or_true]
        rw [if_pos asked]
        exact (mem_foldl_insert _ _).mpr (.inr isListed)
      · exact .inr isLater

/-- `lock_object` waits where it finds a client. -/
theorem lockObject_waits {offset length : ℕ} {shouldReturn : MemoryObjectReturn} {flush : Bool}
    (finds : pager.Finds offset length shouldReturn flush) :
    (pager.lockObject offset length shouldReturn flush true).2 ≠ none := by
  rcases finds with ⟨number, isPage, client, isListed, isAsked⟩
  have isFound := @mem_lockObjectPass (!flush && shouldReturn ≠ .all) client
    (pager.pagesOf offset length) (pager, ∅) (.inr ⟨number, isPage, isListed, by
      rcases isAsked with rfl | rfl | isGranted
      · exact .inl rfl
      · exact .inl (by simp)
      · exact .inr isGranted⟩)
  have notEmpty := OrdSet.isEmpty_eq_false_iff.mpr ⟨client, isFound⟩
  simp only [lockObject, notEmpty]
  simp

/-- No thread of `lock_object` has been woken. -/
def NoneWoken (pager next : SharedPager Interned) : Prop :=
  ∃ events, next.sent = pager.sent ++ events ∧ ∀ key, .wakeLockWaiters key ∉ events

theorem NoneWoken.of_eq (sameSent : next.sent = pager.sent) : NoneWoken pager next :=
  ⟨[], by rw [sameSent, List.append_nil], by simp⟩

theorem NoneWoken.refl (pager : SharedPager Interned) : NoneWoken pager pager := .of_eq rfl

theorem NoneWoken.trans {middle : SharedPager Interned} (first : NoneWoken pager middle)
    (second : NoneWoken middle next) : NoneWoken pager next := by
  rcases first with ⟨earlier, isMiddle, noneEarlier⟩
  rcases second with ⟨later, isNext, noneLater⟩
  refine ⟨earlier ++ later, by rw [isNext, isMiddle, List.append_assoc], ?_⟩
  intro key isWoken
  rcases List.mem_append.mp isWoken with isEarlier | isLater
  · exact noneEarlier key isEarlier
  · exact noneLater key isLater

theorem NoneWoken.emit (pager : SharedPager Interned) {event : Event}
    (notWoken : ∀ key, event ≠ .wakeLockWaiters key) : NoneWoken pager (pager.emit event) := by
  refine ⟨[event], rfl, ?_⟩
  intro key isEvent
  exact notWoken key (List.mem_singleton.mp isEvent).symm

theorem NoneWoken.flagPass {part : ℕ → Page → Option (Page × Flag)} {number : ℕ}
    {state nextState : SharedPager Interned × (ℕ → Flag)}
    (done : flagPass part number state = some nextState) : NoneWoken state.1 nextState.1 := by
  rcases Option.map_eq_some_iff.mp done with ⟨⟨worked, flag⟩, isWorked, ⟨⟩⟩
  rcases Option.map_eq_some_iff.mp isWorked with ⟨⟨worked, _⟩, isWorked, ⟨⟩⟩
  rcases Option.map_eq_some_iff.mp isWorked with ⟨⟨page, _⟩, -, ⟨⟩⟩
  refine ⟨page.sent.map ((state.1.load number).pageEvent number), rfl, ?_⟩
  intro key isWoken
  rcases List.mem_map.mp isWoken with ⟨event, -, isEvent⟩
  cases isEvent

theorem NoneWoken.serviceWritewait (entries : List WritewaitEntry) (pager : SharedPager Interned) :
    NoneWoken pager (serviceWritewait entries pager).1 := by
  induction entries generalizing pager with
  | nil => exact .refl pager
  | cons current rest ih =>
      unfold SharedPager.serviceWritewait
      dsimp only
      split_ifs
      · have popped : NoneWoken pager (pager.popFront current) :=
          NoneWoken.emit pager (by simp)
        exact popped.trans (ih _)
      · exact .refl pager

theorem NoneWoken.afterWrites {current : WritewaitEntry} {pageouts : List ℕ} {results : Callbacks}
    {outcome : SharedPager Interned × Option Thread}
    (done : pager.afterWrites current pageouts results = some outcome) :
    NoneWoken pager outcome.1 := by
  rcases Option.map_eq_some_iff.mp done with ⟨⟨written, doNotify⟩, finished, isOutcome⟩
  have writes : NoneWoken pager written :=
    Loop.forEach_relation (fun state next => NoneWoken state.1 next.1) (fun _ => .refl _)
      .trans .flagPass finished
  dsimp only at isOutcome
  split_ifs at isOutcome <;> cases isOutcome
  · exact writes
  · have popped : NoneWoken written (written.popFront current) := NoneWoken.emit written (by simp)
    exact writes.trans (popped.trans (.serviceWritewait _ _))

theorem NoneWoken.lockObject (pager : SharedPager Interned) (offset length : ℕ)
    (shouldReturn : MemoryObjectReturn) (flush sync : Bool) :
    NoneWoken pager (pager.lockObject offset length shouldReturn flush sync).1 := by
  have touched : ∀ (only : Bool) (numbers : List ℕ) (state : SharedPager Interned × OrdSet MachPort),
      NoneWoken state.1 (numbers.foldl (lockObjectPass only) state).1 := by
    intro only numbers
    induction numbers with
    | nil => exact fun state => .refl state.1
    | cons number rest ih =>
        intro state
        have head : NoneWoken state.1 (lockObjectPass only state number).1 := .of_eq rfl
        exact head.trans (ih _)
  have signalled : ∀ (clients : List MachPort) (pager : SharedPager Interned),
      NoneWoken pager (clients.foldl (signal offset length shouldReturn flush sync) pager) := by
    intro clients
    induction clients with
    | nil => exact NoneWoken.refl
    | cons client rest ih =>
        intro pager
        have head : NoneWoken pager (pager.signal offset length shouldReturn flush sync client) := by
          unfold signal countLock
          dsimp only
          split_ifs
          · exact (NoneWoken.emit pager (by simp)).trans (.of_eq rfl)
          · exact NoneWoken.emit pager (by simp)
        exact head.trans (ih _)
  exact (touched _ _ (pager, ∅)).trans (signalled _ _)

/--
Where the thread that handles the messages is: it may be at the one return of dirty data that is in
`WRITEWAIT`, the next after `settled` others, with some of its pages yet to be written.
-/
inductive Worker (pageSize settled : ℕ) (completed : List (ℕ × ℕ)) (pager : SharedPager Interned) :
    Option Thread → Prop
  | elsewhere {worker : Option Thread} (isEmpty : pager.writewait = [])
      (notServicing : ∀ thread, worker = some thread → thread.isServicing = false) :
      Worker pageSize settled completed pager worker
  | writing {thread : Thread} {current : WritewaitEntry} {pageouts : List ℕ}
      (isResume : thread.resume = .written current pageouts) (isList : pager.writewait = [current])
      (writes : ∀ number, current.Covers pageSize number → (settled, number) ∈ completed ∨
        ∃ data, thread.busy = some (.writePage number data) ∨ .writePage number data ∈ thread.calls) :
      Worker pageSize settled completed pager (some thread)
  | notifying {thread : Thread} {current : WritewaitEntry}
      (isResume : thread.resume = .notified current) (isList : pager.writewait = [current])
      (written : ∀ number, current.Covers pageSize number → (settled, number) ∈ completed) :
      Worker pageSize settled completed pager (some thread)

/-- Of what has been returned, `settled` has been written, and the rest is in `WRITEWAIT`. -/
structure Settles (pageSize : ℕ) (settled queued : List WritewaitEntry) (completed : List (ℕ × ℕ))
    (pager : SharedPager Interned) (worker : Option Thread) : Prop where
  isPageSize : pager.pageSize = pageSize
  isQueued : queued = settled ++ pager.writewait
  written : ∀ index entry number, settled[index]? = some entry → entry.Covers pageSize number →
    (index, number) ∈ completed
  worker : Worker pageSize settled.length completed pager worker

section Settles

variable {pageSize : ℕ} {settled queued : List WritewaitEntry} {completed : List (ℕ × ℕ)}
  {worker : Option Thread} {thread : Thread} {outcome : SharedPager Interned × Option Thread}

/-- A thread that does not handle messages has had the lock. -/
theorem Settles.bystander (settles : Settles pageSize settled queued completed pager worker)
    (samePageSize : next.pageSize = pager.pageSize) (sameList : next.writewait = pager.writewait) :
    Settles pageSize settled queued completed next worker := by
  refine ⟨samePageSize.trans settles.isPageSize, ?_, settles.written, ?_⟩
  · rw [sameList]
    exact settles.isQueued
  · cases settles.worker with
    | elsewhere isEmpty notServicing => exact .elsewhere (sameList.trans isEmpty) notServicing
    | writing isResume isList writes => exact .writing isResume (sameList.trans isList) writes
    | notifying isResume isList written =>
        exact .notifying isResume (sameList.trans isList) written

/-- The thread that handles the messages has had the lock, with nothing in `WRITEWAIT`. -/
theorem Settles.aside (settles : Settles pageSize settled queued completed pager worker)
    (isEmpty : pager.writewait = []) (aside : Aside pager outcome) :
    Settles pageSize settled queued completed outcome.1 outcome.2 := by
  have calm := aside.calm
  refine ⟨calm.pageSize.trans settles.isPageSize, ?_, settles.written, ?_⟩
  · rw [calm.writewait]
    exact settles.isQueued
  · refine .elsewhere (calm.writewait.trans isEmpty) ?_
    exact fun thread isThread => (aside.thread thread isThread).1

/-- The entry that a thread has been through leaves `WRITEWAIT`. -/
theorem Settles.popped {current : WritewaitEntry} (isPageSize : pager.pageSize = pageSize)
    (isList : pager.writewait = [current]) (isQueued : queued = settled ++ [current])
    (written : ∀ index entry number, settled[index]? = some entry →
      entry.Covers pageSize number → (index, number) ∈ completed)
    (own : ∀ number, current.Covers pageSize number → (settled.length, number) ∈ completed) :
    Settles pageSize (settled ++ [current]) queued completed
      (serviceWritewait pager.writewait.tail (pager.popFront current)).1
      (serviceWritewait pager.writewait.tail (pager.popFront current)).2 := by
  have noMore : pager.writewait.tail = [] := by rw [isList, List.tail_cons]
  rw [noMore]
  refine ⟨isPageSize, ?_, ?_, .elsewhere noMore nofun⟩
  · have isPopped : (serviceWritewait [] (pager.popFront current)).1.writewait = [] := noMore
    rw [isPopped, List.append_nil]
    exact isQueued
  · intro index entry number isEntry covers
    by_cases isBefore : index < settled.length
    · rw [List.getElem?_append_left isBefore] at isEntry
      exact written index entry number isEntry covers
    · rw [List.getElem?_append_right (Nat.le_of_not_lt isBefore)] at isEntry
      have isLast : index - settled.length = 0 := by
        by_contra notLast
        rw [List.getElem?_eq_none (by simp; omega)] at isEntry
        cases isEntry
      rw [isLast] at isEntry
      cases isEntry
      have isIndex : index = settled.length := by omega
      rw [isIndex]
      exact own number covers

/-- A return of dirty data, with nothing in `WRITEWAIT` -/
theorem Settles.begun {offset length : ℕ} {data : ℕ → ℕ} {kernelCopy : Bool}
    (settles : Settles pageSize settled queued completed pager worker)
    (isEmpty : pager.writewait = []) (small : offset + length < offsetRange)
    (returned : DirtyReturn pager offset data length kernelCopy outcome) :
    ∃ more, settled.length ≤ more.length ∧
      Settles pageSize more (queued ++ [⟨offset, data, length, kernelCopy⟩]) completed outcome.1
        outcome.2 := by
  let entry : WritewaitEntry := ⟨offset, data, length, kernelCopy⟩
  rcases returned.queued with ⟨marked, framed, -, ⟨isBusy, -⟩ | ⟨-, rfl⟩⟩
  · exact absurd isEmpty isBusy
  let queuedPager : SharedPager Interned := { marked with writewait := [entry] }
  have isPageSize : queuedPager.pageSize = pageSize := framed.pageSize.trans settles.isPageSize
  have allSettled : queued = settled := by
    rw [settles.isQueued, isEmpty, List.append_nil]
  have fits : entry.Fits queuedPager.pageSize := by
    rw [isPageSize, ← settles.isPageSize]
    exact ⟨returned.aligned.1, returned.aligned.2, small⟩
  have isPageout : ∀ number, entry.Covers pageSize number →
      number ∈ (queuedPager.pagesOf offset length).filter fun number =>
        queuedPager.matchingPageCountOnWritewait number = 1 := by
    intro number covers
    rw [← isPageSize] at covers
    rw [List.mem_filter, decide_eq_true_iff]
    refine ⟨mem_pagesOf.mpr covers, ?_⟩
    have onlyOne : ∀ other ∈ queuedPager.writewait, other.Fits queuedPager.pageSize := by
      intro other isOther
      rcases List.mem_singleton.mp isOther with rfl
      exact fits
    have isFirst : queuedPager.writewait = entry :: [] := rfl
    exact (matchingPageCount_eq_one_iff isFirst onlyOne covers).mpr nofun
  unfold SharedPager.serviceWritewait
  dsimp only
  split_ifs with noPageout
  · rw [List.isEmpty_iff] at noPageout
    refine ⟨settled ++ [entry], by simp, ?_⟩
    apply @Settles.popped queuedPager _ _ _ _ entry isPageSize rfl
    · rw [allSettled]
    · exact settles.written
    · intro number covers
      have isIn := isPageout number covers
      rw [noPageout] at isIn
      cases isIn
  · refine ⟨settled, le_rfl, isPageSize, ?_, settles.written, .writing rfl rfl ?_⟩
    · rw [allSettled]
    · intro number covers
      refine .inr ⟨_, .inr (List.mem_map_of_mem (isPageout number covers))⟩

theorem Settles.called {call : Call} {rest : List Call}
    (settles : Settles pageSize settled queued completed pager (some thread))
    (idle : thread.busy = none) (isNext : thread.calls = call :: rest) (event : Event) :
    Settles pageSize settled queued completed (pager.emit event)
      (some { thread with calls := rest, busy := some call }) := by
  refine ⟨settles.isPageSize, settles.isQueued, settles.written, ?_⟩
  cases settles.worker with
  | elsewhere isEmpty notServicing =>
      refine .elsewhere isEmpty ?_
      rintro _ ⟨⟩
      exact notServicing thread rfl
  | writing isResume isList writes =>
      refine .writing isResume isList ?_
      intro number covers
      rcases writes number covers with isDone | ⟨data, isBusy | isCall⟩
      · exact .inl isDone
      · cases idle.symm.trans isBusy
      · rw [isNext] at isCall
        rcases List.mem_cons.mp isCall with rfl | isLater
        · exact .inr ⟨data, .inl rfl⟩
        · exact .inr ⟨data, .inr isLater⟩
  | notifying isResume isList written => exact .notifying isResume isList written

/-- A callback has returned; what it has completed is known from now on. -/
theorem Settles.finished {call : Call} {now : List (ℕ × ℕ)}
    (settles : Settles pageSize settled queued completed pager (some thread))
    (isBusy : thread.busy = some call) (results : Callbacks)
    (isWrite : ∀ number data, call = .writePage number data → (settled.length, number) ∈ now) :
    Settles pageSize settled queued (completed ++ now) pager
      (some { thread with busy := none, results := results }) := by
  refine ⟨settles.isPageSize, settles.isQueued, ?_, ?_⟩
  · intro index entry number isEntry covers
    exact List.mem_append_left _ (settles.written index entry number isEntry covers)
  · cases settles.worker with
    | elsewhere isEmpty notServicing =>
        refine .elsewhere isEmpty ?_
        rintro _ ⟨⟩
        exact notServicing thread rfl
    | writing isResume isList writes =>
        refine .writing isResume isList ?_
        intro number covers
        rcases writes number covers with isDone | ⟨data, isOther | isCall⟩
        · exact .inl (List.mem_append_left _ isDone)
        · cases isBusy.symm.trans isOther
          exact .inl (List.mem_append_right _ (isWrite number data rfl))
        · exact .inr ⟨data, .inr isCall⟩
    | notifying isResume isList written =>
        refine .notifying isResume isList ?_
        intro number covers
        exact List.mem_append_left _ (written number covers)

/-- The thread that handles the messages goes on. -/
theorem Settles.resumed (settles : Settles pageSize settled queued completed pager (some thread))
    (idle : thread.busy = none) (made : thread.calls = [])
    (done : pager.reenter thread.results thread.resume = some outcome) :
    ∃ more, settled.length ≤ more.length ∧
      Settles pageSize more queued completed outcome.1 outcome.2 := by
  cases settles.worker with
  | elsewhere isEmpty notServicing =>
      exact ⟨settled, le_rfl, settles.aside isEmpty (.reenter (notServicing thread rfl) done)⟩
  | @writing _ current pageouts isResume isList writes =>
      have written : ∀ number, current.Covers pageSize number →
          (settled.length, number) ∈ completed := by
        intro number covers
        rcases writes number covers with isDone | ⟨data, isBusy | isCall⟩
        · exact isDone
        · cases idle.symm.trans isBusy
        · simp [made] at isCall
      rw [isResume] at done
      rcases Option.map_eq_some_iff.mp done with ⟨⟨updated, doNotify⟩, finished, isOutcome⟩
      have effects := @forEach_flagPass _ _ (fun number flag =>
          flag && !decide (pager.matchingPageCountOnWritewait number = 1))
        Page.afterWrite_pagingout (by simp) _ _ _ finished
      have framed : Framed pager updated := effects.1
      have isUpdated := framed.writewait.trans isList
      have isQueued : queued = settled ++ [current] := by rw [settles.isQueued, isList]
      have isPageSize := framed.pageSize.trans settles.isPageSize
      dsimp only at isOutcome
      split_ifs at isOutcome
      · rcases isOutcome with rfl
        refine ⟨settled, le_rfl, isPageSize, ?_, settles.written, .notifying rfl isUpdated written⟩
        rw [isUpdated]
        exact isQueued
      · rcases isOutcome with rfl
        exact ⟨settled ++ [current], by simp,
          .popped isPageSize isUpdated isQueued settles.written written⟩
  | @notifying _ current isResume isList written =>
      rw [isResume] at done
      rcases Option.some_inj.mp done with rfl
      have isQueued : queued = settled ++ [current] := by rw [settles.isQueued, isList]
      exact ⟨settled ++ [current], by simp,
        .popped settles.isPageSize isList isQueued settles.written written⟩

end Settles

end SharedPager

namespace Syncing

variable {pageSize : ℕ} {settled : List WritewaitEntry} {state next : Syncing}
  {action : Threads.Action}

/--
A call finds somebody to ask, or nothing is left to be written in its range; and returns of dirty
data end before the offsets do.
-/
def Meets (state : Syncing) : Threads.Action → Prop
  | .start _ (.dataReturn _ offset _ length true _) _ => offset + length < offsetRange
  | .start _ (.lockObject offset length shouldReturn flush true) _ =>
      state.pager.Finds offset length shouldReturn flush ∨
        ∀ entry ∈ state.pager.writewait, ∀ number, entry.Covers state.pager.pageSize number →
          ¬(offset < (number + 1) * state.pager.pageSize ∧
            number * state.pager.pageSize < offset + length)
  | _ => True

/-- A thread that calls `lock_object` is at one of its waits. -/
structure InLockObject (made : Option SyncCall) (thread : Thread) : Prop where
  calls : thread.calls = []
  busy : thread.busy = none
  waits : (∃ offset length, thread.resume = .locksAnswered offset length) ∨
    thread.resume = .writesFinished ∧ ∃ call, made = some call ∧ call.answered = true

structure Sound (pageSize : ℕ) (settled : List WritewaitEntry) (state : Syncing) : Prop where
  settles : state.pager.Settles pageSize settled state.queued state.completed
    (state.system.threads 0)
  others : ∀ id thread, id ≠ 0 → state.system.threads id = some thread →
    InLockObject (state.calls id) thread
  noCall : state.calls 0 = none
  answered : ∀ id call, state.calls id = some call → call.answered = true →
    call.upTo ≤ settled.length

theorem Sound.popped_eq (sound : state.Sound pageSize settled) : state.popped = settled.length := by
  rw [popped, sound.settles.isQueued, List.length_append, Nat.add_sub_cancel]

theorem Sound.begins_answered (sound : state.Sound pageSize settled) {id : ℕ} {call : SyncCall}
    (isCall : state.begins action id = some call) (isAnswered : call.answered = true) :
    call.upTo ≤ settled.length := by
  unfold begins at isCall
  split at isCall
  · rw [Function.update_apply] at isCall
    split_ifs at isCall
    · cases isCall
      cases isAnswered
    · exact sound.answered id call isCall isAnswered
  · exact sound.answered id call isCall isAnswered

theorem notify_answered {events : List Event} {returned : ℕ} {call : SyncCall}
    (isAnswered : call.answered = true) : call.notify events returned = call := by
  simp [SyncCall.notify, isAnswered]

/-- A step is sound where what it does to the threads and to `WRITEWAIT` is. -/
theorem Sound.stepped {system : Threads Interned} {more : List WritewaitEntry}
    (sound : state.Sound pageSize settled) (stepped : state.system.step action = some system)
    (longer : settled.length ≤ more.length)
    (settles : system.pager.Settles pageSize more (state.queued ++ action.queues)
      (state.completed ++ state.completes action) (system.threads 0))
    (others : ∀ id thread, id ≠ 0 → system.threads id = some thread →
      InLockObject (state.begins action id) thread)
    (noCall : state.begins action 0 = none)
    (woken : state.pager.NoneWoken system.pager ∨ state.pager.writewait = [])
    (taken : state.step action = some next) : next.Sound pageSize more := by
  rw [step, stepped, Option.map_some, Option.some_inj] at taken
  subst taken
  refine ⟨settles, ?_, ?_, ?_⟩
  · intro id thread notWorker isThread
    have inCall := others id thread notWorker isThread
    refine ⟨inCall.calls, inCall.busy, ?_⟩
    have isRunning : ¬system.threads id = none := by
      rw [isThread]
      nofun
    rcases inCall.waits with isFirst | ⟨isSecond, call, isCall, isAnswered⟩
    · exact .inl isFirst
    · refine .inr ⟨isSecond, call, ?_, isAnswered⟩
      simp only [isRunning, if_false, isCall, Option.map_some, notify_answered isAnswered]
  · simp only [noCall, Option.map_none, ite_self]
  · intro id call isCall isAnswered
    dsimp only at isCall
    split_ifs at isCall
    rcases Option.map_eq_some_iff.mp isCall with ⟨before, isBefore, rfl⟩
    unfold SyncCall.notify at isAnswered ⊢
    split_ifs at isAnswered ⊢ with isNotified
    · rcases woken with ⟨events, isSent, noneWoken⟩ | isEmpty
      · rw [isSent, List.drop_left] at isNotified
        exact absurd isNotified.2 (noneWoken _)
      · have allSettled := sound.settles.isQueued
        rw [isEmpty, List.append_nil] at allSettled
        simp only [allSettled]
        exact longer
    · exact le_trans (sound.begins_answered isBefore isAnswered) longer

/-- A message is handled, with nothing in `WRITEWAIT`. -/
theorem Sound.message {input : Input} {stale : ℕ → Bool}
    {outcome : SharedPager Interned × Option Thread} (sound : state.Sound pageSize settled)
    (meets : state.Meets (.start 0 input stale)) (isEmpty : state.pager.writewait = [])
    (isNew : state.system.threads 0 = none)
    (sameCalls : state.begins (.start 0 input stale) = state.calls)
    (done : state.pager.enter stale input = some outcome)
    (taken : state.step (.start 0 input stale) = some next) :
    ∃ more, settled.length ≤ more.length ∧ next.Sound pageSize more := by
  have stepped : state.system.step (.start 0 input stale) =
      some (({ state.system with pager := outcome.1 } : Threads Interned).setThread 0 outcome.2) := by
    simp only [Threads.step, isNew]
    exact congrArg (Option.map _) done
  have settlesMore : ∃ more, settled.length ≤ more.length ∧
      outcome.1.Settles pageSize more (state.queued ++ Threads.Action.queues (.start 0 input stale))
        state.completed outcome.2 := by
    rcases SharedPager.enter_cases done with ⟨aside, noneQueued⟩ |
      ⟨client, offset, data, length, kernelCopy, rfl, returned⟩
    · rw [Threads.Action.queues_start noneQueued, List.append_nil]
      exact ⟨settled, le_rfl, sound.settles.aside isEmpty aside⟩
    · exact sound.settles.begun isEmpty meets returned
  rcases settlesMore with ⟨more, longer, settles⟩
  refine ⟨more, longer, sound.stepped stepped longer ?_ ?_ ?_ (.inr isEmpty) taken⟩
  · rw [Threads.setThread_self]
    simp only [completes, List.append_nil]
    exact settles
  · intro id thread notWorker isThread
    rw [Threads.setThread_of_ne notWorker] at isThread
    rw [sameCalls]
    exact sound.others id thread notWorker isThread
  · rw [sameCalls]
    exact sound.noCall

/-- A thread other than the one for the messages calls `lock_object` or `shutdown`. -/
theorem Sound.caller {id : ℕ} {input : Input} {stale : ℕ → Bool}
    {outcome : SharedPager Interned × Option Thread} (sound : state.Sound pageSize settled)
    (notWorker : id ≠ 0) (isNew : state.system.threads id = none)
    (noneQueued : Threads.Action.queues (.start id input stale) = [])
    (done : state.pager.enter stale input = some outcome)
    (calm : state.pager.Calm outcome.1) (woken : state.pager.NoneWoken outcome.1)
    (waits : ∀ thread, outcome.2 = some thread → thread.calls = [] ∧ thread.busy = none ∧
      ∃ offset length, thread.resume = .locksAnswered offset length)
    (sameCalls : ∀ other ≠ id, state.begins (.start id input stale) other = state.calls other)
    (taken : state.step (.start id input stale) = some next) : next.Sound pageSize settled := by
  have stepped : state.system.step (.start id input stale) =
      some (({ state.system with pager := outcome.1 } : Threads Interned).setThread id outcome.2) := by
    simp only [Threads.step, isNew]
    exact congrArg (Option.map _) done
  refine sound.stepped stepped le_rfl ?_ ?_ ?_ (.inl woken) taken
  · rw [Threads.setThread_of_ne (Ne.symm notWorker), noneQueued]
    simp only [completes, List.append_nil]
    exact sound.settles.bystander calm.pageSize calm.writewait
  · intro other thread otherNotWorker isThread
    by_cases isId : other = id
    · subst isId
      rw [Threads.setThread_self] at isThread
      rcases waits thread isThread with ⟨noCalls, idle, isFirst⟩
      exact ⟨noCalls, idle, .inl isFirst⟩
    · rw [Threads.setThread_of_ne isId] at isThread
      rw [sameCalls other isId]
      exact sound.others other thread otherNotWorker isThread
  · rw [sameCalls 0 (Ne.symm notWorker)]
    exact sound.noCall

/-- A handler has been called. -/
theorem Sound.start {id : ℕ} {input : Input} {stale : ℕ → Bool}
    (sound : state.Sound pageSize settled) (scheduled : state.Scheduled (.start id input stale))
    (meets : state.Meets (.start id input stale))
    (taken : state.step (.start id input stale) = some next) :
    ∃ more, settled.length ≤ more.length ∧ next.Sound pageSize more := by
  rcases Option.map_eq_some_iff.mp taken with ⟨system, stepped, -⟩
  simp only [Threads.step] at stepped
  split at stepped
  · cases stepped
  rename_i isNew
  rcases Option.map_eq_some_iff.mp stepped with ⟨outcome, done, -⟩
  have message : id = 0 → state.begins (.start id input stale) = state.calls →
      ∃ more, settled.length ≤ more.length ∧ next.Sound pageSize more := by
    rintro rfl sameCalls
    have isEmpty : state.pager.writewait = [] := by
      have settles := sound.settles
      rw [isNew] at settles
      cases settles.worker with
      | elsewhere isEmpty => exact isEmpty
    exact sound.message meets isEmpty isNew sameCalls done taken
  cases input with
  | lockObject offset length shouldReturn flush sync =>
      refine ⟨settled, le_rfl, sound.caller scheduled isNew rfl done ?_ ?_ ?_ ?_ taken⟩
      · cases done
        exact (SharedPager.Aside.lockObject _ _ _ _ _ _).calm
      · cases done
        exact .lockObject _ _ _ _ _ _
      · cases done
        intro thread isThread
        simp only [SharedPager.lockObject] at isThread
        split_ifs at isThread
        cases isThread
        exact ⟨rfl, rfl, offset, length, rfl⟩
      · intro other different
        cases sync with
        | false => rfl
        | true => exact Function.update_of_ne different _ _
  | shutdown =>
      refine ⟨settled, le_rfl, sound.caller scheduled isNew rfl done ?_ ?_ ?_ (fun _ _ => rfl) taken⟩
      · cases done
        exact ⟨⟨rfl, rfl, rfl, fun _ => rfl, [], by simp [pager], by simp⟩, fun _ => rfl⟩
      · cases done
        exact .of_eq rfl
      · cases done
        rintro _ ⟨⟩
  | objectInit => exact message scheduled rfl
  | dataRequest => exact message scheduled rfl
  | dataUnlock => exact message scheduled rfl
  | dataReturn => exact message scheduled rfl
  | lockCompleted => exact message scheduled rfl
  | objectTerminate => exact message scheduled rfl
  | deadName => exact message scheduled rfl

/-- Every step is sound. -/
theorem Sound.step (sound : state.Sound pageSize settled) (scheduled : state.Scheduled action)
    (meets : state.Meets action) (taken : state.step action = some next) :
    ∃ more, settled.length ≤ more.length ∧ next.Sound pageSize more := by
  rcases Option.map_eq_some_iff.mp taken with ⟨system, stepped, -⟩
  cases action with
  | start id input stale => exact sound.start scheduled meets taken
  | call id =>
      rcases Option.bind_eq_some_iff.mp stepped with ⟨thread, isThread, called⟩
      split at called
      · rename_i call rest idle isNext
        cases called
        by_cases isWorker : id = 0
        · subst isWorker
          have settles := sound.settles
          rw [isThread] at settles
          refine ⟨settled, le_rfl, sound.stepped stepped le_rfl ?_ ?_ sound.noCall (.inl ?_) taken⟩
          · rw [Threads.setThread_self]
            simp only [Threads.Action.queues, completes, List.append_nil]
            exact settles.called idle isNext _
          · intro other now notWorker isNow
            rw [Threads.setThread_of_ne notWorker] at isNow
            exact sound.others other now notWorker isNow
          · exact .emit _ (by simp [SharedPager.pageEvent])
        · have noCalls := (sound.others id thread isWorker isThread).calls
          cases noCalls.symm.trans isNext
      · cases called
  | finish id returned =>
      rcases Option.bind_eq_some_iff.mp stepped with ⟨thread, isThread, finished⟩
      rcases Option.map_eq_some_iff.mp finished with ⟨call, isBusy, rfl⟩
      by_cases isWorker : id = 0
      · subst isWorker
        have settles := sound.settles
        rw [isThread] at settles
        refine ⟨settled, le_rfl,
          sound.stepped stepped le_rfl ?_ ?_ sound.noCall (.inl (.of_eq rfl)) taken⟩
        · rw [Threads.setThread_self]
          simp only [Threads.Action.queues, List.append_nil]
          apply settles.finished isBusy
          rintro number data rfl
          simp [completes, isThread, isBusy, sound.popped_eq]
        · intro other now notWorker isNow
          rw [Threads.setThread_of_ne notWorker] at isNow
          exact sound.others other now notWorker isNow
      · have idle := (sound.others id thread isWorker isThread).busy
        cases idle.symm.trans isBusy
  | resume id =>
      rcases Option.bind_eq_some_iff.mp stepped with ⟨thread, isThread, resumed⟩
      split_ifs at resumed with isReady
      rcases Option.map_eq_some_iff.mp resumed with ⟨⟨pager, now⟩, done, rfl⟩
      by_cases isWorker : id = 0
      · subst isWorker
        have settles := sound.settles
        rw [isThread] at settles
        rcases settles.resumed isReady.1 isReady.2 done with ⟨more, longer, settlesMore⟩
        refine ⟨more, longer, sound.stepped stepped longer ?_ ?_ sound.noCall ?_ taken⟩
        · rw [Threads.setThread_self]
          simp only [Threads.Action.queues, completes, List.append_nil]
          exact settlesMore
        · intro other later notWorker isLater
          rw [Threads.setThread_of_ne notWorker] at isLater
          exact sound.others other later notWorker isLater
        · cases settles.worker with
          | elsewhere isEmpty => exact .inr isEmpty
          | writing isResume =>
              rw [isResume] at done
              exact .inl (.afterWrites done)
          | notifying isResume =>
              rw [isResume] at done
              have popped : ∀ current, state.pager.NoneWoken (state.pager.popFront current) :=
                fun _ => .emit _ (by simp)
              have isPager := (congrArg Prod.fst (Option.some_inj.mp done)).symm
              rw [show pager = _ from isPager]
              exact .inl ((popped _).trans (.serviceWritewait _ _))
      · have inCall := sound.others id thread isWorker isThread
        have samePager : pager = state.system.pager := by
          rcases inCall.waits with ⟨offset, length, isResume⟩ | ⟨isResume, -⟩
          · rw [isResume] at done
            cases done
            rfl
          · rw [isResume] at done
            cases done
            rfl
        subst samePager
        refine ⟨settled, le_rfl,
          sound.stepped stepped le_rfl ?_ ?_ sound.noCall (.inl (.of_eq rfl)) taken⟩
        · rw [Threads.setThread_of_ne (Ne.symm isWorker)]
          simp only [Threads.Action.queues, completes, List.append_nil]
          exact sound.settles
        · intro other later notWorker isLater
          by_cases isId : other = id
          · subst isId
            rw [Threads.setThread_self] at isLater
            rcases inCall.waits with ⟨offset, length, isResume⟩ | ⟨isResume, -⟩
            · rw [isResume] at done
              have isAnswered := (scheduled.resolve_left isWorker) thread offset length isThread
                isResume
              cases done
              split_ifs at isLater
              cases isLater
              exact ⟨rfl, rfl, .inr ⟨rfl, isAnswered⟩⟩
            · rw [isResume] at done
              cases done
              cases isLater
          · rw [Threads.setThread_of_ne isId] at isLater
            exact sound.others other later notWorker isLater
  | share entry =>
      have isSystem := Option.some_inj.mp stepped
      subst isSystem
      refine ⟨settled, le_rfl,
        sound.stepped stepped le_rfl ?_ sound.others sound.noCall (.inl (.of_eq rfl)) taken⟩
      simp only [Threads.Action.queues, completes, List.append_nil]
      exact sound.settles.bystander rfl rfl

/-- What has been returned and settled has been written. -/
theorem Sound.written_of_le (sound : state.Sound pageSize settled) {call : SyncCall}
    (isSettled : call.upTo ≤ settled.length) : state.Written call := by
  intro index entry number isBefore isEntry covers _
  rw [sound.settles.isQueued, List.getElem?_append_left (by omega)] at isEntry
  rw [sound.settles.isPageSize] at covers
  exact ⟨index, le_rfl, sound.settles.written index entry number isEntry covers⟩

/-- A call that returns at once has found nobody, and then nothing of its range is in `WRITEWAIT`. -/
theorem Sound.written_atOnce {id offset length : ℕ} {shouldReturn : MemoryObjectReturn} {flush : Bool}
    {stale : ℕ → Bool} (sound : state.Sound pageSize settled)
    (meets : state.Meets (.start id (.lockObject offset length shouldReturn flush true) stale))
    (isDone : next.system.threads id = none)
    (taken : state.step (.start id (.lockObject offset length shouldReturn flush true) stale) =
      some next) : next.Written { offset, length, upTo := state.queued.length } := by
  rcases Option.map_eq_some_iff.mp taken with ⟨system, stepped, isNext⟩
  simp only [Threads.step] at stepped
  split at stepped
  · cases stepped
  rcases Option.map_eq_some_iff.mp stepped with ⟨outcome, done, rfl⟩
  have isOutcome : state.pager.lockObject offset length shouldReturn flush true = outcome :=
    Option.some_inj.mp done
  have samePageSize : next.pager.pageSize = state.pager.pageSize := by
    rw [← isNext, ← isOutcome]
    exact (SharedPager.Aside.lockObject _ _ _ _ _ _).calm.pageSize
  have sameQueued : next.queued = state.queued := by
    rw [← isNext]
    exact List.append_nil _
  have sameCompleted : next.completed = state.completed := by
    rw [← isNext]
    exact List.append_nil _
  rcases meets with finds | noneLeft
  · have noThread : outcome.2 = none := by
      simpa [← isNext, Threads.setThread_self] using isDone
    refine absurd ?_ (SharedPager.lockObject_waits finds)
    rw [isOutcome]
    exact noThread
  · intro index entry number _ isEntry covers overlaps
    rw [sameQueued, sound.settles.isQueued] at isEntry
    rw [samePageSize] at covers overlaps
    by_cases isSettled : index < settled.length
    · rw [List.getElem?_append_left isSettled] at isEntry
      rw [sound.settles.isPageSize] at covers
      rw [sameCompleted]
      exact ⟨index, le_rfl, sound.settles.written index entry number isEntry covers⟩
    · rw [List.getElem?_append_right (Nat.le_of_not_lt isSettled)] at isEntry
      exact absurd overlaps (noneLeft entry (List.mem_of_getElem? isEntry) number covers)

/--
When `lock_object` returns, what had been returned by the time its locks were answered has been
written, in every run whose calls find somebody to ask or nothing to be written.
-/
theorem written_of_returns {pageSize_pos : 0 < pageSize} {mayCache notifyOnEvict : Bool}
    {copyStrategy : ℕ} {leftovers : ℕ → PagemapEntry} {call : SyncCall}
    (reached : Transition.Reachable step (fun state action => state.Scheduled action ∧
      state.Meets action)
      (create pageSize pageSize_pos mayCache copyStrategy notifyOnEvict leftovers) state)
    (scheduled : state.Scheduled action) (meets : state.Meets action)
    (taken : state.step action = some next) (returns : Returns state next action call) :
    next.Written call := by
  have isSound : ∃ settled, state.Sound pageSize settled := by
    refine reached.invariant (fun state => ∃ settled, state.Sound pageSize settled) ?_ ?_
    · refine ⟨[], ⟨rfl, rfl, by simp, .elsewhere rfl nofun⟩, ?_, rfl, ?_⟩
      · intro id thread _ isThread
        cases isThread
      · intro id call isCall
        cases isCall
    · rintro before after label ⟨settled, sound⟩ ⟨isScheduled, isMet⟩ isTaken
      rcases sound.step isScheduled isMet isTaken with ⟨more, -, soundAfter⟩
      exact ⟨more, soundAfter⟩
  rcases isSound with ⟨settled, sound⟩
  rcases sound.step scheduled meets taken with ⟨more, longer, soundNext⟩
  cases returns with
  | atOnce isDone => exact sound.written_atOnce meets isDone taken
  | @later id call isCall isDone =>
      apply soundNext.written_of_le
      have isAnswered : call.answered = true := by
        rcases Option.map_eq_some_iff.mp taken with ⟨system, stepped, -⟩
        rcases Option.bind_eq_some_iff.mp stepped with ⟨thread, isThread, -⟩
        have notWorker : id ≠ 0 := by
          rintro rfl
          cases isCall.symm.trans sound.noCall
        rcases (sound.others id thread notWorker isThread).waits with
          ⟨offset, length, isResume⟩ | ⟨-, other, isOther, isAnswered⟩
        · rcases (scheduled.resolve_left notWorker) thread offset length isThread isResume with
            ⟨other, isOther, isAnswered⟩
          cases isCall.symm.trans isOther
          exact isAnswered
        · cases isCall.symm.trans isOther
          exact isAnswered
      exact le_trans (sound.answered id call isCall isAnswered) longer

/-- A client gets a page to write to. -/
def takesPage : List Threads.Action :=
  [.start 0 (.dataRequest 1 0 4096 vmProtWrite) fun _ => false, .call 0, .finish 0 {}, .resume 0]

/-- It returns the page, which is written, and answers that it has. -/
def returnsPage : List Threads.Action :=
  [.start 0 (.dataReturn 1 0 (fun _ => 7) 4096 true true) fun _ => false, .call 0, .finish 0 {},
    .resume 0, .start 0 (.lockCompleted 1 0 4096) fun _ => false]

/-- The call that syncs the page -/
def syncsPage : Threads.Action :=
  .start 1 (.lockObject 0 4096 .all false true) fun _ => false

theorem takesPage_allowed : ∀ action ∈ takesPage, ∀ state : Syncing,
    state.Scheduled action ∧ state.Meets action := by
  intro action isAction state
  simp only [takesPage, List.mem_cons, List.not_mem_nil, or_false] at isAction
  rcases isAction with rfl | rfl | rfl | rfl
  · exact ⟨rfl, trivial⟩
  · exact ⟨trivial, trivial⟩
  · exact ⟨trivial, trivial⟩
  · exact ⟨.inl rfl, trivial⟩

theorem returnsPage_allowed : ∀ action ∈ returnsPage, ∀ state : Syncing,
    state.Scheduled action ∧ state.Meets action := by
  intro action isAction state
  simp only [returnsPage, List.mem_cons, List.not_mem_nil, or_false] at isAction
  rcases isAction with rfl | rfl | rfl | rfl | rfl
  · exact ⟨rfl, (by decide : 0 + 4096 < offsetRange)⟩
  · exact ⟨trivial, trivial⟩
  · exact ⟨trivial, trivial⟩
  · exact ⟨.inl rfl, trivial⟩
  · exact ⟨rfl, trivial⟩

theorem syncedPage_written : ∃ state next call,
    Transition.run step (takesPage ++ syncsPage :: returnsPage)
      (create 4096 (by decide) true 0 false fun _ => {}) = some state ∧
    state.step (.resume 1) = some next ∧ Returns state next (.resume 1) call ∧ call.upTo = 1 ∧
      next.Written call := by
  have atFirst : (Transition.run step takesPage
      (create 4096 (by decide) true 0 false fun _ => {})).map (·.pager.writewait.length) =
        some 0 := rfl
  have atLast : (Transition.run step (takesPage ++ syncsPage :: returnsPage)
      (create 4096 (by decide) true 0 false fun _ => {})).map (fun state =>
        ((state.calls 1).map fun call => (call.answered, call.upTo),
          (state.step (.resume 1)).map fun next => (next.system.threads 1).isNone)) =
        some (some (true, 1), some true) := rfl
  rcases Option.map_eq_some_iff.mp atFirst with ⟨first, firstRuns, isLength⟩
  rcases Option.map_eq_some_iff.mp atLast with ⟨state, runs, facts⟩
  rw [Prod.mk.injEq] at facts
  rcases Option.map_eq_some_iff.mp facts.1 with ⟨call, isCall, isAnswered⟩
  rcases Option.map_eq_some_iff.mp facts.2 with ⟨next, taken, isDone⟩
  rw [Prod.mk.injEq] at isAnswered
  rw [Option.isNone_iff_eq_none] at isDone
  have isEmpty := List.eq_nil_of_length_eq_zero isLength
  have firstReached : Transition.Reachable step
      (fun state action => state.Scheduled action ∧ state.Meets action)
      (create 4096 (by decide) true 0 false fun _ => {}) first :=
    .of_run takesPage .start (.of_always takesPage_allowed _) firstRuns
  rw [Transition.run_append, firstRuns, Option.bind_some, Transition.run_cons] at runs
  rcases Option.bind_eq_some_iff.mp runs with ⟨second, syncs, restRuns⟩
  have syncs_meets : first.Meets syncsPage := by
    right
    intro entry isEntry
    rw [isEmpty] at isEntry
    cases isEntry
  have notWorker : first.Scheduled syncsPage := Nat.one_ne_zero
  have reached := Transition.Reachable.of_run returnsPage
    (firstReached.step ⟨notWorker, syncs_meets⟩ syncs) (.of_always returnsPage_allowed _) restRuns
  have returns : Returns state next (.resume 1) call := .later isCall isDone
  have scheduled : state.Scheduled (.resume 1) := by
    right
    intro _ _ _ _ _
    exact ⟨call, isCall, isAnswered.1⟩
  refine ⟨state, next, call, ?_, taken, returns, isAnswered.2,
    written_of_returns reached scheduled trivial taken returns⟩
  rw [Transition.run_append, firstRuns, Option.bind_some, Transition.run_cons]
  exact runs

/-- The page is being written when it is synced, and nobody has it any more. -/
def writesPage : List Threads.Action :=
  takesPage ++
    [.start 0 (.dataReturn 1 0 (fun _ => 7) 4096 true false) fun _ => false, .call 0]

/-- `lock_object` returns at once. -/
theorem syncedPage_not_written : ∃ state next call,
    Transition.Reachable step Scheduled (create 4096 (by decide) true 0 false fun _ => {}) state ∧
    state.Scheduled syncsPage ∧ state.step syncsPage = some next ∧
      Returns state next syncsPage call ∧ ¬next.Written call := by
  have atLast : (Transition.run step writesPage
      (create 4096 (by decide) true 0 false fun _ => {})).map (fun state =>
        (state.queued.length, (state.step syncsPage).map fun next =>
          (next.queued.map fun entry => (entry.offset, entry.length), next.pager.pageSize,
            next.completed, (next.system.threads 1).isNone))) =
        some (1, some ([(0, 4096)], 4096, [], true)) := rfl
  rcases Option.map_eq_some_iff.mp atLast with ⟨state, runs, facts⟩
  rw [Prod.mk.injEq] at facts
  rcases facts with ⟨isLength, facts⟩
  rcases Option.map_eq_some_iff.mp facts with ⟨next, taken, facts⟩
  simp only [Prod.mk.injEq, Option.isNone_iff_eq_none] at facts
  rcases facts with ⟨isQueued, isPageSize, noneCompleted, isDone⟩
  rcases List.map_eq_singleton_iff.mp isQueued with ⟨entry, isEntry, isRange⟩
  rw [Prod.mk.injEq] at isRange
  have reached : Transition.Reachable step Scheduled
      (create 4096 (by decide) true 0 false fun _ => {}) state := by
    refine .of_run writesPage .start (.of_always ?_ _) runs
    intro action isAction state
    rcases List.mem_append.mp isAction with isFirst | isLater
    · exact (takesPage_allowed action isFirst state).1
    · simp only [List.mem_cons, List.not_mem_nil, or_false] at isLater
      rcases isLater with rfl | rfl
      · exact rfl
      · trivial
  have notWorker : state.Scheduled syncsPage := Nat.one_ne_zero
  refine ⟨state, next, _, reached, notWorker, taken, .atOnce isDone, ?_⟩
  intro written
  have isFirst : next.queued[0]? = some entry := by rw [isEntry, List.getElem?_cons_zero]
  have covers : entry.Covers next.pager.pageSize 0 := by
    rw [WritewaitEntry.Covers, isRange.1, isRange.2, isPageSize]
    decide
  have overlaps : SyncCall.Overlaps next.pager.pageSize
      { offset := 0, length := 4096, upTo := state.queued.length } 0 := by
    rw [SyncCall.Overlaps, isPageSize]
    exact (by decide : 0 < (0 + 1) * 4096 ∧ 0 * 4096 < 0 + 4096)
  rcases written 0 entry 0 (by simp [isLength]) isFirst covers overlaps with ⟨later, -, isCompleted⟩
  rw [noneCompleted] at isCompleted
  cases isCompleted

end Syncing

end Hurd.Libpager
