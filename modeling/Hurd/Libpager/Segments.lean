import Hurd.Libpager.PageHandlers
import Hurd.Libpager.Threads

/-!
# What a thread does while it holds the lock

No routine calls back into the filesystem while the lock is held, and only two of them touch
`PAGINGOUT`: the first loop of `data_return` sets it, and the loop of
`service_first_WRITEWAIT_entry` after the writes clears it.  Nothing but these two functions
touches `WRITEWAIT`.
-/

namespace Hurd.Libpager

def PageEvent.isCallback : PageEvent → Bool
  | .readPage => true
  | .unlockPage => true
  | .writePage _ => true
  | .notifyEvict => true
  | _ => false

namespace Page

variable {page next : Page}

/-- The page has sent messages, and made no callback. -/
def Messaged (page next : Page) : Prop :=
  ∃ messages, next.sent = page.sent ++ messages ∧ ∀ event ∈ messages, event.isCallback = false

/-- The page has only sent messages, and `PAGINGOUT` is as it was. -/
structure Calm (page next : Page) : Prop where
  pagingout : next.entry.pagingout = page.entry.pagingout
  messaged : Messaged page next

theorem Messaged.refl (page : Page) : Messaged page page := ⟨[], by simp, by simp⟩

theorem Messaged.trans {middle : Page} (first : Messaged page middle)
    (second : Messaged middle next) : Messaged page next := by
  rcases first with ⟨earlier, isFirst, quiet⟩
  rcases second with ⟨later, isSecond, quietLater⟩
  refine ⟨earlier ++ later, ?_, ?_⟩
  · rw [isSecond, isFirst, List.append_assoc]
  · intro event isEvent
    rcases List.mem_append.mp isEvent with isEarlier | isLater
    · exact quiet event isEarlier
    · exact quietLater event isLater

theorem Calm.refl (page : Page) : Calm page page := ⟨rfl, .refl page⟩

theorem Calm.trans {middle : Page} (first : Calm page middle) (second : Calm middle next) :
    Calm page next :=
  ⟨second.pagingout.trans first.pagingout, first.messaged.trans second.messaged⟩

/-- A change of anything but `PAGINGOUT` and the messages -/
theorem Calm.of_eq (sameFlag : next.entry.pagingout = page.entry.pagingout)
    (sameSent : next.sent = page.sent) : Calm page next :=
  ⟨sameFlag, [], by simp [sameSent], by simp⟩

theorem Calm.send (page : Page) {event : PageEvent} (isMessage : event.isCallback = false) :
    Calm page (page.send event) :=
  ⟨rfl, [event], rfl, by simp [isMessage]⟩

theorem Calm.flushEach (page : Page) (clients : List MachPort) :
    Calm page (page.flushEach clients) := by
  refine ⟨by rw [flushEach_entry], _, page.flushEach_sent clients, ?_⟩
  intro event isEvent
  rcases List.mem_map.mp isEvent with ⟨client, _, rfl⟩
  rfl

theorem Calm.supplyReaders (data : ℕ) (deallocate : Bool) (first : WaitlistClient)
    (rest : List WaitlistClient) (page : Page) :
    Calm page (supplyReaders data deallocate first rest page) := by
  induction rest generalizing first page with
  | nil => exact ⟨rfl, _, rfl, by simp [PageEvent.isCallback]⟩
  | cons next rest ih =>
      have supplied : Calm page ((page.moveToAccesslist first.client (next :: rest)).supply
          first.client data (if next.writeAccessRequested then deallocate else false)
          vmProtWrite) :=
        ⟨rfl, _, rfl, by simp [PageEvent.isCallback]⟩
      simp only [Page.supplyReaders]
      split_ifs with isWriter
      · rw [if_pos isWriter] at supplied
        exact supplied
      · rw [if_neg isWriter] at supplied
        exact supplied.trans (ih next _)

theorem Calm.serveFirst (page : Page) (data : ℕ) (allowWriteAccess deallocate : Bool)
    (first : WaitlistClient) (rest : List WaitlistClient) :
    Calm page (page.serveFirst data allowWriteAccess deallocate first rest) := by
  unfold Page.serveFirst
  split_ifs
  · exact ⟨rfl, _, rfl, by simp [PageEvent.isCallback]⟩
  · exact (Calm.supplyReaders data deallocate first rest page).trans (.of_eq rfl rfl)

theorem Calm.flushForWaiting (page : Page) : Calm page page.flushForWaiting := by
  unfold Page.flushForWaiting
  split_ifs
  · exact .refl page
  · exact .flushEach page _

theorem Calm.serviceWaitlist {data : ℕ} {allowWriteAccess deallocate : Bool}
    (served : page.serviceWaitlist data allowWriteAccess deallocate = some next) :
    Calm page next := by
  rcases serviceWaitlist_cases served with ⟨-, rfl⟩ | ⟨first, rest, -, -, rfl⟩
  · exact .refl _
  · exact (Calm.serveFirst page data allowWriteAccess deallocate first rest).trans
      (.flushForWaiting _)

theorem Calm.sendErrorTo (page : Page) (waiting : WaitlistClient) :
    Calm page (page.sendErrorTo waiting) := by
  unfold Page.sendErrorTo
  split_ifs
  · exact ⟨rfl, _, rfl, by simp [PageEvent.isCallback]⟩
  · exact .send page rfl

theorem Calm.sendErrorToWaitlist (page : Page) : Calm page page.sendErrorToWaitlist := by
  have calm : ∀ (waitlist : List WaitlistClient) (page : Page),
      Calm page (waitlist.foldl Page.sendErrorTo page) := by
    intro waitlist
    induction waitlist with
    | nil => exact Calm.refl
    | cons waiting rest ih => exact fun page => (Calm.sendErrorTo page waiting).trans (ih _)
  exact (calm page.entry.waitlist page).trans (.of_eq rfl rfl)

theorem Calm.finalizeUnlock {error : KernReturn}
    (finished : page.finalizeUnlock error = some next) : Calm page next := by
  cases finalizeUnlock_cases finished with
  | granted first rest _ _ nextEq =>
      rw [nextEq]
      apply Calm.trans _ (.flushEach _ _)
      exact ⟨rfl, _, rfl, by simp [PageEvent.isCallback]⟩
  | failed first rest _ _ nextEq =>
      rw [nextEq]
      have flushed := Calm.flushEach (page.setWaitlist rest) [first.client]
      exact ⟨flushed.pagingout, flushed.messaged⟩

theorem Calm.finishPagein {result : ReadResult} (finished : page.finishPagein result = some next) :
    Calm page next := by
  have recorded : Calm page (page.setError result.error) := .of_eq rfl rfl
  rcases finishPagein_cases finished with ⟨succeeded, served⟩ | ⟨-, rfl⟩
  · rw [← succeeded] at served
    exact recorded.trans (.serviceWaitlist served)
  · exact recorded.trans (.sendErrorToWaitlist _)

theorem Calm.internalLockCompletedEnter {client : MachPort} {operation : Operation}
    (entered : page.internalLockCompletedEnter client = some (next, operation)) :
    Calm page next := by
  have removed : Calm page (page.removeFromAccesslist client) := .of_eq rfl rfl
  unfold Page.internalLockCompletedEnter at entered
  dsimp only at entered
  split_ifs at entered <;> cases entered
  · exact removed.trans (.sendErrorToWaitlist _)
  · exact removed
  · exact removed
  · exact removed
  · exact .refl _

theorem Calm.addToWaitlist (page : Page) (client : MachPort) (write : Bool) :
    Calm page (page.addToWaitlist client write) :=
  .of_eq rfl rfl

theorem Calm.dataRequestWait (page : Page) (client : MachPort) (write : Bool) :
    Calm page (page.dataRequestWait client write).1 := by
  have added := Calm.addToWaitlist page client write
  unfold Page.dataRequestWait
  split_ifs
  · exact added.trans (.flushEach _ _)
  · exact added.trans (.flushEach _ _)
  · exact (Calm.send page rfl).trans (.addToWaitlist _ _ _)
  · exact added
  · exact added

theorem Calm.dataRequestEnter (page : Page) (client : MachPort) (write : Bool) :
    Calm page (page.dataRequestEnter client write).1 := by
  unfold Page.dataRequestEnter
  split
  · exact ⟨rfl, _, rfl, by simp [PageEvent.isCallback]⟩
  · split_ifs
    · exact (Calm.flushEach page _).trans (.addToWaitlist _ _ _)
    · exact .addToWaitlist page client write
    · apply Calm.trans _ (.dataRequestWait _ client write)
      exact .of_eq rfl rfl
    · exact .addToWaitlist page client write
    · exact .dataRequestWait page client write

/-- Only a page whose `PAGINGOUT` is not set is read at once. -/
theorem dataRequestEnter_pagingout {client : MachPort} {write : Bool}
    (isLater : (page.dataRequestEnter client write).2 ≠ .done) : page.entry.pagingout = false := by
  cases isPagingout : page.entry.pagingout with
  | false => rfl
  | true =>
      refine absurd ?_ isLater
      unfold Page.dataRequestEnter
      split
      · rfl
      · rw [if_pos isPagingout]
        split_ifs <;> rfl

theorem Calm.dataUnlockEnter {client : MachPort} {flags : Bool × List MachPort}
    (entered : page.dataUnlockEnter client = some (next, flags)) : Calm page next := by
  unfold Page.dataUnlockEnter at entered
  split_ifs at entered <;> cases entered
  · exact .refl _
  · exact .addToWaitlist page client true
  · exact .addToWaitlist page client true
  · exact .addToWaitlist page client true

theorem Calm.leaveForReturn (page : Page) (client : MachPort) :
    Calm page (page.leaveForReturn client) := by
  unfold Page.leaveForReturn
  split_ifs
  · exact .refl page
  · exact .of_eq rfl rfl

theorem Calm.dataReturnHandOff {client : MachPort} {data : ℕ} {dirty kernelCopy : Bool}
    {flags : ReturnFlags}
    (handedOff : page.dataReturnHandOff client data dirty kernelCopy = some (next, flags)) :
    Calm page next := by
  have left := Calm.leaveForReturn page client
  cases dataReturnHandOff_cases handedOff with
  | keeps _ nextEq _ => exact nextEq ▸ .refl page
  | serves _ _ _ served _ => exact left.trans (.serviceWaitlist served)
  | unlocks _ _ _ _ _ _ _ _ nextEq _ => exact nextEq ▸ left
  | evicts _ _ _ _ nextEq _ => exact nextEq ▸ left.trans (.of_eq rfl rfl)
  | leaves _ _ nextEq _ => exact nextEq ▸ left

/-- `data_return` sets `PAGINGOUT` where the data is dirty. -/
theorem dataReturnEnter_pagingout {client : MachPort} {data : ℕ} {dirty kernelCopy : Bool}
    {flags : ReturnFlags}
    (entered : page.dataReturnEnter client data dirty kernelCopy = some (next, flags)) :
    next.entry.pagingout = (page.entry.pagingout || dirty) ∧ Messaged page next := by
  rcases Option.map_eq_some_iff.mp entered with ⟨⟨handed, _⟩, handedOff, ⟨⟩⟩
  have calm := Calm.dataReturnHandOff handedOff
  exact ⟨by rw [calm.pagingout], calm.messaged⟩

/-- The end of a write clears `PAGINGOUT` where no later write is waiting. -/
theorem afterWrite_pagingout {data : ℕ} {kernelCopy last doNotify : Bool} {error : KernReturn}
    (finished : page.afterWrite data kernelCopy error last = some (next, doNotify)) :
    next.entry.pagingout = (page.entry.pagingout && !last) ∧ Messaged page next := by
  have recorded : Calm page (page.recordWrite error) := by
    unfold recordWrite
    split_ifs <;> exact .of_eq rfl rfl
  have cleared : Messaged page ((page.recordWrite error).setPagingout false) :=
    recorded.messaged.trans ⟨[], (List.append_nil _).symm, by simp⟩
  cases last with
  | false =>
      simp only [afterWrite, Bool.false_eq_true, if_false] at finished
      split_ifs at finished
      cases finished
      simp [recorded.pagingout, recorded.messaged]
  | true =>
      simp only [afterWrite, if_true] at finished
      split_ifs at finished
      · cases finished
        exact ⟨by simp [setPagingout], cleared⟩
      · cases finished
        exact ⟨by simp [setPagingout, evicted], cleared⟩
      · rcases Option.map_eq_some_iff.mp finished with ⟨served, isServed, ⟨⟩⟩
        have calm := Calm.serviceWaitlist isServed
        exact ⟨by simp [calm.pagingout, setPagingout], cleared.trans calm.messaged⟩

end Page

def Event.isCallback : Event → Bool
  | .page _ event => event.isCallback
  | _ => false

namespace SharedPager

variable {pager next : SharedPager Interned} {Flag : Type}

/-- A thread has had the lock, with nothing done to `WRITEWAIT` and no callback made. -/
structure Framed (pager next : SharedPager Interned) : Prop where
  pageSize : next.pageSize = pager.pageSize
  notifyOnEvict : next.notifyOnEvict = pager.notifyOnEvict
  writewait : next.writewait = pager.writewait
  terminating : pager.terminating = true → next.terminating = true
  messaged : ∃ events, next.sent = pager.sent ++ events ∧ ∀ event ∈ events, event.isCallback = false

/-- Nor has it done anything to `PAGINGOUT`. -/
structure Calm (pager next : SharedPager Interned) : Prop extends Framed pager next where
  pagingout : ∀ number, (next.read number).pagingout = (pager.read number).pagingout

theorem Framed.refl (pager : SharedPager Interned) : Framed pager pager :=
  ⟨rfl, rfl, rfl, id, [], by simp, by simp⟩

theorem Framed.trans {middle : SharedPager Interned} (first : Framed pager middle)
    (second : Framed middle next) : Framed pager next := by
  refine ⟨second.pageSize.trans first.pageSize, second.notifyOnEvict.trans first.notifyOnEvict,
    second.writewait.trans first.writewait, fun isSet => second.terminating (first.terminating isSet),
    ?_⟩
  rcases first.messaged with ⟨earlier, isFirst, quiet⟩
  rcases second.messaged with ⟨later, isSecond, quietLater⟩
  refine ⟨earlier ++ later, ?_, ?_⟩
  · rw [isSecond, isFirst, List.append_assoc]
  · intro event isEvent
    rcases List.mem_append.mp isEvent with isEarlier | isLater
    · exact quiet event isEarlier
    · exact quietLater event isLater

theorem Calm.refl (pager : SharedPager Interned) : Calm pager pager :=
  ⟨.refl pager, fun _ => rfl⟩

theorem Calm.trans {middle : SharedPager Interned} (first : Calm pager middle)
    (second : Calm middle next) : Calm pager next :=
  ⟨first.toFramed.trans second.toFramed,
    fun number => (second.pagingout number).trans (first.pagingout number)⟩

theorem read_worked (pager : SharedPager Interned) (number other : ℕ) (page : Page) :
    (((pager.load number).putPage number page).store number).read other =
      if other = number then page.entry else pager.read other := by
  have stored := Interned.read_store ((pager.pagemap.load number).setTmp page.entry) number other
  rw [Interned.tmp_setTmp, Interned.read_setTmp, Interned.read_load] at stored
  exact stored

/-- The page is changed as the routine changes it, and no other page is. -/
theorem onPage_cases {number : ℕ} {part : Page → Option (Page × Flag)} {flag : Flag}
    (done : pager.onPage number part = some (next, flag))
    (messaged : ∀ {page next flag}, part page = some (next, flag) → Page.Messaged page next) :
    Framed pager next ∧ ∃ page nextPage : Page,
      page.entry = pager.read number ∧ part page = some (nextPage, flag) ∧
      ∀ other, next.read other = if other = number then nextPage.entry else pager.read other := by
  rcases Option.map_eq_some_iff.mp done with ⟨⟨worked, _⟩, isWorked, ⟨⟩⟩
  rcases Option.map_eq_some_iff.mp isWorked with ⟨⟨nextPage, _⟩, isPart, ⟨⟩⟩
  constructor
  · rcases messaged isPart with ⟨messages, isSent, quiet⟩
    refine ⟨rfl, rfl, rfl, id, messages.map ((pager.load number).pageEvent number), ?_, ?_⟩
    · have sent : nextPage.sent = messages := isSent
      rw [← sent]
      rfl
    · intro event isEvent
      rcases List.mem_map.mp isEvent with ⟨message, isMessage, rfl⟩
      exact quiet message isMessage
  · exact ⟨_, nextPage, Interned.tmp_load _ _, isPart,
      fun other => pager.read_worked number other nextPage⟩

theorem Calm.onPage {number : ℕ} {part : Page → Option (Page × Flag)} {flag : Flag}
    (done : pager.onPage number part = some (next, flag))
    (calm : ∀ {page next flag}, part page = some (next, flag) → Page.Calm page next) :
    Calm pager next := by
  rcases onPage_cases done (fun isPart => (calm isPart).messaged) with
    ⟨framed, page, nextPage, isRead, isPart, reads⟩
  refine ⟨framed, ?_⟩
  intro other
  rw [reads]
  split_ifs with isSame
  · rw [isSame, ← isRead]
    exact (calm isPart).pagingout
  · rfl

theorem Calm.flagPass {part : ℕ → Page → Option (Page × Flag)} {number : ℕ}
    {state nextState : SharedPager Interned × (ℕ → Flag)}
    (done : flagPass part number state = some nextState)
    (calm : ∀ {page next flag}, part number page = some (next, flag) → Page.Calm page next) :
    Calm state.1 nextState.1 := by
  rcases Option.map_eq_some_iff.mp done with ⟨⟨worked, flag⟩, isWorked, ⟨⟩⟩
  exact Calm.onPage isWorked calm

theorem Calm.plainPass {part : ℕ → Page → Option Page} {number : ℕ}
    (done : plainPass part number pager = some next)
    (calm : ∀ {page next}, part number page = some next → Page.Calm page next) :
    Calm pager next := by
  rcases Option.map_eq_some_iff.mp done with ⟨⟨worked, _⟩, isWorked, ⟨⟩⟩
  apply Calm.onPage isWorked
  intro page nextPage _ isPart
  rcases Option.map_eq_some_iff.mp isPart with ⟨_, isNext, ⟨⟩⟩
  exact calm isNext

theorem Calm.forEach {Index : Type} {body : Index → SharedPager Interned → Option (SharedPager Interned)}
    (pass : ∀ {index pager next}, body index pager = some next → Calm pager next)
    {indices : List Index} (finished : Loop.forEach body indices pager = some next) :
    Calm pager next :=
  Loop.forEach_relation Calm Calm.refl Calm.trans pass finished

theorem Calm.forEachFlag
    {body : ℕ → SharedPager Interned × (ℕ → Flag) → Option (SharedPager Interned × (ℕ → Flag))}
    (pass : ∀ {index state next}, body index state = some next → Calm state.1 next.1)
    {indices : List ℕ} {state nextState : SharedPager Interned × (ℕ → Flag)}
    (finished : Loop.forEach body indices state = some nextState) :
    Calm state.1 nextState.1 :=
  Loop.forEach_relation (fun state next => Calm state.1 next.1) (fun _ => Calm.refl _)
    Calm.trans pass finished

end SharedPager

/-- The thread is in `service_first_WRITEWAIT_entry`. -/
def Thread.isServicing (thread : Thread) : Bool :=
  match thread.resume with
  | .written _ _ => true
  | .notified _ => true
  | _ => false

def Call.isWrite : Call → Bool
  | .writePage _ _ => true
  | _ => false

namespace SharedPager

variable {pager next : SharedPager Interned}

/-- A thread has had the lock and has nothing to do with `WRITEWAIT`. -/
structure Aside (pager : SharedPager Interned) (outcome : SharedPager Interned × Option Thread) :
    Prop where
  calm : Calm pager outcome.1
  thread : ∀ thread, outcome.2 = some thread →
    thread.isServicing = false ∧ thread.busy = none ∧ ∀ call ∈ thread.calls, call.isWrite = false

theorem Aside.after {outcome : SharedPager Interned × Option Thread} (calm : Calm pager next)
    (aside : Aside next outcome) : Aside pager outcome :=
  ⟨calm.trans aside.calm, aside.thread⟩

theorem Aside.done (calm : Calm pager next) : Aside pager (next, none) := ⟨calm, nofun⟩

theorem Calm.touch (pager : SharedPager Interned) (number : ℕ) : Calm pager (pager.touch number) := by
  refine ⟨⟨rfl, rfl, rfl, id, [], by simp [SharedPager.touch], by simp⟩, ?_⟩
  intro other
  exact congrArg PagemapEntry.pagingout (pager.pagemap.read_touch number other)

theorem Calm.lockCompletedPass {client : MachPort} {number : ℕ}
    {state nextState : SharedPager Interned × (ℕ → Page.Operation)}
    (done : lockCompletedPass client number state = some nextState) :
    Calm state.1 nextState.1 := by
  unfold SharedPager.lockCompletedPass at done
  dsimp only at done
  split_ifs at done
  · exact (Calm.touch state.1 number).trans (Calm.flagPass done .internalLockCompletedEnter)
  · cases done
    exact Calm.touch state.1 number

theorem Aside.internalLockCompleted {client : MachPort} {offset length : ℕ}
    {drop : Option (MachPort × Option LockKey)} {outcome : SharedPager Interned × Option Thread}
    (done : pager.internalLockCompleted client offset length drop = some outcome) :
    Aside pager outcome := by
  unfold SharedPager.internalLockCompleted at done
  split_ifs at done
  · cases done
    exact .done (.refl pager)
  · rcases Option.map_eq_some_iff.mp done with ⟨state, finished, ⟨⟩⟩
    refine ⟨Calm.forEachFlag Calm.lockCompletedPass finished, ?_⟩
    rintro _ ⟨⟩
    refine ⟨rfl, rfl, ?_⟩
    intro call isCall
    rcases List.mem_flatMap.mp isCall with ⟨number, -, isCall⟩
    unfold operationCalls at isCall
    split at isCall
    · simp at isCall
    · rcases List.mem_singleton.mp isCall with rfl
      rfl
    · rcases List.mem_singleton.mp isCall with rfl
      rfl

theorem Calm.onTmp {number : ℕ} {Flag : Type} {part : Page → Option (Page × Flag)} {flag : Flag}
    (done : pager.onTmp number part = some (next, flag))
    (messaged : ∀ {page next flag}, part page = some (next, flag) → Page.Messaged page next) :
    Calm pager next := by
  rcases Option.map_eq_some_iff.mp done with ⟨⟨nextPage, _⟩, isPart, ⟨⟩⟩
  rcases messaged isPart with ⟨messages, isSent, quiet⟩
  refine ⟨⟨rfl, rfl, rfl, id, messages.map (pager.pageEvent number), ?_, ?_⟩, fun _ => rfl⟩
  · have sent : nextPage.sent = messages := isSent
    rw [← sent]
    rfl
  · intro event isEvent
    rcases List.mem_map.mp isEvent with ⟨message, isMessage, rfl⟩
    exact quiet message isMessage

theorem Calm.load (pager : SharedPager Interned) (number : ℕ) : Calm pager (pager.load number) := by
  refine ⟨⟨rfl, rfl, rfl, id, [], by simp [SharedPager.load], by simp⟩, ?_⟩
  intro other
  exact congrArg PagemapEntry.pagingout (pager.pagemap.read_load number other)

/-- `internal_lock_completed` calls back about the pages it is called for. -/
theorem internalLockCompleted_calls {client : MachPort} {offset length : ℕ}
    {drop : Option (MachPort × Option LockKey)} {outcome : SharedPager Interned × Option Thread}
    {thread : Thread} {call : Call}
    (done : pager.internalLockCompleted client offset length drop = some outcome)
    (isThread : outcome.2 = some thread) (isCall : call ∈ thread.calls) :
    call.page ∈ pager.pagesOf offset length := by
  unfold SharedPager.internalLockCompleted at done
  split_ifs at done
  · cases done
    cases isThread
  · rcases Option.map_eq_some_iff.mp done with ⟨state, finished, ⟨⟩⟩
    cases isThread
    rcases List.mem_flatMap.mp isCall with ⟨number, isPage, isCall⟩
    unfold operationCalls at isCall
    split at isCall
    · simp at isCall
    · rcases List.mem_singleton.mp isCall with rfl
      exact isPage
    · rcases List.mem_singleton.mp isCall with rfl
      exact isPage

/-- An entry whose `PAGINGOUT` is that of the page is stored. -/
theorem Calm.store {number : ℕ}
    (same : pager.pagemap.tmp.pagingout = (pager.read number).pagingout) :
    Calm pager (pager.store number) := by
  refine ⟨⟨rfl, rfl, rfl, id, [], by simp [SharedPager.store], by simp⟩, ?_⟩
  intro other
  have stored := congrArg PagemapEntry.pagingout (pager.pagemap.read_store number other)
  refine stored.trans ?_
  split_ifs with isSame
  · rw [isSame, same]
  · rfl

/-- `data_request` reads a page only where `PAGINGOUT` is not set. -/
theorem dataRequest_cases {client : MachPort} {offset length : ℕ} {access : VmProt}
    {outcome : SharedPager Interned × Option Thread}
    (done : pager.dataRequest client offset length access = some outcome) :
    (Calm pager outcome.1 ∧ outcome.2 = none) ∨
      ∃ stored : SharedPager Interned, Calm pager stored ∧
        (pager.read (offset / pager.pageSize)).pagingout = false ∧
        (stored.internalLockCompleted client offset stored.pageSize none = some outcome ∨
          outcome = (stored, some
            { calls := [.readPage (offset / pager.pageSize)],
              resume := .pagein (offset / pager.pageSize) })) := by
  unfold SharedPager.dataRequest at done
  split_ifs at done
  · cases done
    exact .inl ⟨.refl pager, rfl⟩
  · have loaded := Calm.load pager (offset / pager.pageSize)
    dsimp only at done
    split at done
    · rcases Option.map_eq_some_iff.mp done with ⟨⟨worked, _⟩, isWorked, ⟨⟩⟩
      refine .inl ⟨loaded.trans (Calm.onTmp isWorked ?_), rfl⟩
      rintro page _ _ ⟨⟩
      exact ⟨_, rfl, by simp [PageEvent.isCallback]⟩
    · rcases Option.bind_eq_some_iff.mp done with ⟨⟨worked, stage⟩, isWorked, rest⟩
      have entry : ((pager.load (offset / pager.pageSize)).page (offset / pager.pageSize)).entry =
          pager.read (offset / pager.pageSize) := Interned.tmp_load _ _
      have requested : ∀ {page next : Page} {stage : Page.RequestStage},
          some (page.dataRequestEnter client (wantsWrite access)) = some (next, stage) →
            Page.Calm page next := by
        intro page next stage isPart
        have calm := Page.Calm.dataRequestEnter page client (wantsWrite access)
        rw [Option.some_inj.mp isPart] at calm
        exact calm
      have entered := Calm.onTmp isWorked fun isPart => (requested isPart).messaged
      rcases Option.map_eq_some_iff.mp isWorked with ⟨⟨nextPage, _⟩, isPart, ⟨⟩⟩
      have stored := loaded.trans (entered.trans (Calm.store (by
        refine (requested isPart).pagingout.trans ?_
        rw [entry]
        exact (entered.pagingout _ |>.trans (loaded.pagingout _)).symm)))
      have notPagingout : stage ≠ .done → (pager.read (offset / pager.pageSize)).pagingout = false := by
        intro isLater
        rw [← entry]
        apply Page.dataRequestEnter_pagingout
        rw [Option.some_inj.mp isPart]
        exact isLater
      cases stage with
      | done =>
          cases rest
          exact .inl ⟨stored, rfl⟩
      | lockCompleted => exact .inr ⟨_, stored, notPagingout nofun, .inl rest⟩
      | pagein =>
          cases rest
          exact .inr ⟨_, stored, notPagingout nofun, .inr rfl⟩

theorem Aside.dataRequest {client : MachPort} {offset length : ℕ} {access : VmProt}
    {outcome : SharedPager Interned × Option Thread}
    (done : pager.dataRequest client offset length access = some outcome) :
    Aside pager outcome := by
  rcases dataRequest_cases done with ⟨calm, isNone⟩ | ⟨stored, calm, -, completed | rfl⟩
  · exact ⟨calm, by simp [isNone]⟩
  · exact .after calm (.internalLockCompleted completed)
  · refine ⟨calm, ?_⟩
    rintro _ ⟨⟩
    exact ⟨rfl, rfl, by simp [Call.isWrite]⟩

/-- A page that `data_request` reads is not `PAGINGOUT`. -/
theorem dataRequest_reads {client : MachPort} {offset length number : ℕ} {access : VmProt}
    {outcome : SharedPager Interned × Option Thread} {thread : Thread}
    (done : pager.dataRequest client offset length access = some outcome)
    (isThread : outcome.2 = some thread) (isRead : .readPage number ∈ thread.calls) :
    (outcome.1.read number).pagingout = false := by
  rcases dataRequest_cases done with ⟨-, isNone⟩ | ⟨stored, calm, notPagingout, completed | rfl⟩
  · cases isNone.symm.trans isThread
  · have isPage := internalLockCompleted_calls completed isThread isRead
    rw [pagesOf, Nat.div_self stored.pageSize_pos, calm.pageSize, List.range'_one,
      List.mem_singleton] at isPage
    rw [(Aside.internalLockCompleted completed).calm.pagingout, calm.pagingout]
    cases isPage
    exact notPagingout
  · cases isThread
    rcases List.mem_singleton.mp isRead with ⟨⟩
    rw [calm.pagingout]
    exact notPagingout

theorem Calm.setLocks (pager : SharedPager Interned) (key : LockKey)
    (locks : Option (OrdMap MachPort OutstandingClientLock)) : Calm pager (pager.setLocks key locks) :=
  ⟨⟨rfl, rfl, rfl, id, [], by simp [SharedPager.setLocks], by simp⟩, fun _ => rfl⟩

theorem Calm.emit (pager : SharedPager Interned) {event : Event}
    (isMessage : event.isCallback = false) : Calm pager (pager.emit event) :=
  ⟨⟨rfl, rfl, rfl, id, [event], rfl, by simp [isMessage]⟩, fun _ => rfl⟩

theorem Calm.storeLocks (pager : SharedPager Interned) (key : LockKey)
    (locks : OrdMap MachPort OutstandingClientLock) : Calm pager (pager.storeLocks key locks) := by
  unfold SharedPager.storeLocks
  split_ifs
  · exact (Calm.emit pager rfl).trans (.setLocks _ _ _)
  · exact .setLocks _ _ _

theorem Aside.lockCompleted {client : MachPort} {offset length : ℕ}
    {outcome : SharedPager Interned × Option Thread}
    (done : pager.lockCompleted client offset length = some outcome) : Aside pager outcome := by
  rcases Option.bind_eq_some_iff.mp done with ⟨locks, -, done⟩
  rcases Option.bind_eq_some_iff.mp done with ⟨record, -, done⟩
  dsimp only at done
  split_ifs at done
  · exact .after (.storeLocks pager _ _) (.internalLockCompleted done)
  · cases done
    exact .done (.storeLocks pager _ _)
  · cases done
    exact .done (.storeLocks pager _ _)

theorem Calm.unlockPass {client : MachPort} {first number : ℕ}
    {state nextState : SharedPager Interned × (ℕ → Bool)}
    (done : unlockPass client first number state = some nextState) :
    Calm state.1 nextState.1 := by
  rcases Option.bind_eq_some_iff.mp done with ⟨⟨entered, doUnlock, flushes⟩, isEntered, done⟩
  rcases Option.map_eq_some_iff.mp done with ⟨⟨flushed, _⟩, isFlushed, ⟨⟩⟩
  have loaded := Calm.load state.1 number
  have calmEntered := loaded.trans
    (Calm.onTmp isEntered fun isPart => (Page.Calm.dataUnlockEnter isPart).messaged)
  have calmFlushed := calmEntered.trans (Calm.onTmp isFlushed (by
    rintro page _ _ ⟨⟩
    exact (Page.Calm.flushEach page flushes).messaged))
  refine calmFlushed.trans (Calm.store ?_)
  rw [calmFlushed.pagingout]
  rcases Option.map_eq_some_iff.mp isEntered with ⟨⟨enteredPage, _⟩, isPart, ⟨⟩⟩
  rcases Option.map_eq_some_iff.mp isFlushed with ⟨⟨flushedPage, _⟩, isFlush, ⟨⟩⟩
  cases isFlush
  have sameEntry : ∀ page : Page, (page.flushEach flushes).entry.pagingout = page.entry.pagingout :=
    fun page => (Page.Calm.flushEach page flushes).pagingout
  refine (sameEntry _).trans ((Page.Calm.dataUnlockEnter isPart).pagingout.trans ?_)
  exact congrArg PagemapEntry.pagingout (Interned.tmp_load _ _)

theorem Aside.dataUnlock {client : MachPort} {offset length : ℕ}
    {outcome : SharedPager Interned × Option Thread}
    (done : pager.dataUnlock client offset length = some outcome) : Aside pager outcome := by
  unfold SharedPager.dataUnlock at done
  split_ifs at done
  · cases done
    exact .done (.refl pager)
  · rcases Option.map_eq_some_iff.mp done with ⟨state, finished, ⟨⟩⟩
    refine ⟨Calm.forEachFlag Calm.unlockPass finished, ?_⟩
    rintro _ ⟨⟩
    refine ⟨rfl, rfl, ?_⟩
    intro call isCall
    rcases List.mem_map.mp isCall with ⟨number, -, rfl⟩
    rfl

theorem Aside.objectInit {control : MachPort} {pagesize : ℕ}
    {outcome : SharedPager Interned × Option Thread}
    (done : pager.objectInit control pagesize = some outcome) : Aside pager outcome := by
  unfold SharedPager.objectInit at done
  split_ifs at done
  · cases done
    exact .done (.refl pager)
  · cases done
    exact .done ⟨⟨rfl, rfl, rfl, id, _, rfl, by simp [Event.isCallback]⟩, fun _ => rfl⟩

theorem Calm.dropPass (control : MachPort) (pager : SharedPager Interned) (number : ℕ) :
    Calm pager (pager.dropPass control number) := by
  have reload : ∀ pager : SharedPager Interned, Calm pager ((pager.load number).store number) := by
    intro pager
    apply (Calm.load pager number).trans
    apply Calm.store
    rw [(Calm.load pager number).pagingout]
    exact congrArg PagemapEntry.pagingout (Interned.tmp_load _ _)
  have removed : Calm pager
      (if control ∈ (pager.read number).accesslist then
        ((pager.load number).putPage number
          (((pager.load number).page number).removeFromAccesslist control
            |>.setWriteAccessGranted false)).store number
      else pager) := by
    split_ifs
    · have worked : pager.onPage number (fun page =>
          some ((page.removeFromAccesslist control).setWriteAccessGranted false, ())) =
            some (_, ()) := rfl
      apply Calm.onPage worked
      rintro page _ _ ⟨⟩
      exact .of_eq rfl rfl
    · exact .refl pager
  unfold SharedPager.dropPass
  dsimp only
  split_ifs at removed ⊢
  · exact removed.trans (reload _)
  · exact removed
  · exact removed.trans (reload _)
  · exact removed

theorem Calm.dropPages (control : MachPort) (pager : SharedPager Interned) :
    Calm pager (pager.dropPages control) := by
  have calm : ∀ (numbers : List ℕ) (pager : SharedPager Interned),
      Calm pager (numbers.foldl (SharedPager.dropPass control) pager) := by
    intro numbers
    induction numbers with
    | nil => exact Calm.refl
    | cons number rest ih => exact fun pager => (Calm.dropPass control pager number).trans (ih _)
  refine (calm (List.range (Pagemap.size pager.pagemap)) pager).trans
    ⟨⟨rfl, rfl, rfl, id, _, rfl, ?_⟩, fun _ => rfl⟩
  intro event isEvent
  rcases List.mem_map.mp isEvent with ⟨request, -, rfl⟩
  rfl

theorem Aside.dropLocks {control : MachPort} {keys : List LockKey}
    {outcome : SharedPager Interned × Option Thread}
    (done : dropLocks control keys pager = some outcome) : Aside pager outcome := by
  induction keys generalizing pager with
  | nil =>
      cases done
      exact .done (.dropPages control pager)
  | cons key rest ih =>
      rcases Option.bind_eq_some_iff.mp done with ⟨locks, -, done⟩
      have stored := Calm.storeLocks pager key (locks.erase control)
      dsimp only at done
      split_ifs at done
      · rcases Option.bind_eq_some_iff.mp done with ⟨⟨completed, thread⟩, isCompleted, done⟩
        have aside := Aside.internalLockCompleted isCompleted
        cases thread with
        | none => exact .after (stored.trans aside.calm) (ih done)
        | some thread =>
            cases done
            exact .after stored aside
      · exact .after stored (ih done)

theorem Aside.resumeDrop {drop : Option (MachPort × Option LockKey)}
    {outcome : SharedPager Interned × Option Thread}
    (done : pager.resumeDrop drop = some outcome) : Aside pager outcome := by
  rcases drop with _ | ⟨control, _ | key⟩
  · cases done
    exact .done (.refl pager)
  · cases done
    exact .done (.dropPages control pager)
  · simp only [SharedPager.resumeDrop] at done
    split_ifs at done
    exact .dropLocks done

theorem Calm.signal (offset length : ℕ) (shouldReturn : MemoryObjectReturn) (flush sync : Bool)
    (pager : SharedPager Interned) (client : MachPort) :
    Calm pager (pager.signal offset length shouldReturn flush sync client) := by
  unfold SharedPager.signal SharedPager.countLock
  dsimp only
  split_ifs
  · exact (Calm.emit pager rfl).trans (.setLocks _ _ _)
  · exact .emit pager rfl

theorem Aside.lockObject (pager : SharedPager Interned) (offset length : ℕ)
    (shouldReturn : MemoryObjectReturn) (flush sync : Bool) :
    Aside pager (pager.lockObject offset length shouldReturn flush sync) := by
  have touched : ∀ (only : Bool) (numbers : List ℕ) (state : SharedPager Interned × OrdSet MachPort),
      Calm state.1 (numbers.foldl (lockObjectPass only) state).1 := by
    intro only numbers
    induction numbers with
    | nil => exact fun state => .refl state.1
    | cons number rest ih =>
        exact fun state => (Calm.touch state.1 number).trans (ih (lockObjectPass only state number))
  have signalled : ∀ (clients : List MachPort) (pager : SharedPager Interned),
      Calm pager (clients.foldl (signal offset length shouldReturn flush sync) pager) := by
    intro clients
    induction clients with
    | nil => exact Calm.refl
    | cons client rest ih => exact fun pager => (Calm.signal _ _ _ _ _ pager client).trans (ih _)
  refine ⟨(touched _ _ (pager, ∅)).trans (signalled _ _), ?_⟩
  intro thread isThread
  simp only [SharedPager.lockObject] at isThread
  split_ifs at isThread
  cases isThread
  exact ⟨rfl, rfl, nofun⟩

theorem Calm.operationPass {operation : ℕ → Page.Operation} {results : Callbacks} {number : ℕ}
    (done : operationPass operation results number pager = some next) : Calm pager next := by
  unfold SharedPager.operationPass at done
  split at done
  · cases done
    exact .refl _
  · exact Calm.plainPass done .finishPagein
  · exact Calm.plainPass done .finalizeUnlock

theorem Calm.unlockedPass {doUnlock : ℕ → Bool} {results : Callbacks} {number : ℕ}
    (done : unlockedPass doUnlock results number pager = some next) : Calm pager next := by
  unfold SharedPager.unlockedPass at done
  split_ifs at done
  · exact Calm.plainPass done .finalizeUnlock
  · cases done
    exact .refl _

/-- A thread that is not in `service_first_WRITEWAIT_entry` goes on. -/
theorem Aside.reenter {thread : Thread} {outcome : SharedPager Interned × Option Thread}
    (elsewhere : thread.isServicing = false)
    (done : pager.reenter thread.results thread.resume = some outcome) : Aside pager outcome := by
  unfold SharedPager.reenter at done
  unfold Thread.isServicing at elsewhere
  split at done <;> rename_i isResume <;> rw [isResume] at elsewhere
  · rcases Option.map_eq_some_iff.mp done with ⟨_, passed, ⟨⟩⟩
    exact .done (Calm.plainPass passed .finishPagein)
  · rcases Option.bind_eq_some_iff.mp done with ⟨_, finished, done⟩
    exact .after (Calm.forEach Calm.operationPass finished) (.resumeDrop done)
  · rcases Option.map_eq_some_iff.mp done with ⟨_, finished, ⟨⟩⟩
    exact .done (Calm.forEach Calm.unlockedPass finished)
  · cases elsewhere
  · cases elsewhere
  · cases done
    refine ⟨.refl pager, ?_⟩
    intro waiting isThread
    dsimp only at isThread
    split_ifs at isThread
    cases isThread
    exact ⟨rfl, rfl, nofun⟩
  · cases done
    exact .done (.refl pager)

/-- A loop over pages that changes `PAGINGOUT` of each -/
theorem forEach_flagPass {Flag : Type} {part : ℕ → Page → Option (Page × Flag)}
    {effect : ℕ → Bool → Bool}
    (effects : ∀ {number page next flag}, part number page = some (next, flag) →
      next.entry.pagingout = effect number page.entry.pagingout ∧ Page.Messaged page next)
    (twice : ∀ number flag, effect number (effect number flag) = effect number flag)
    {numbers : List ℕ} {state nextState : SharedPager Interned × (ℕ → Flag)}
    (finished : Loop.forEach (flagPass part) numbers state = some nextState) :
    Framed state.1 nextState.1 ∧ ∀ number, (nextState.1.read number).pagingout =
      if number ∈ numbers then effect number (state.1.read number).pagingout
      else (state.1.read number).pagingout := by
  induction numbers generalizing state with
  | nil =>
      cases finished
      exact ⟨.refl _, by simp⟩
  | cons first rest ih =>
      rcases Option.bind_eq_some_iff.mp finished with ⟨middle, passed, finished⟩
      rcases Option.map_eq_some_iff.mp passed with ⟨⟨worked, flag⟩, isWorked, ⟨⟩⟩
      rcases onPage_cases isWorked (fun isPart => (effects isPart).2) with
        ⟨framed, page, nextPage, isRead, isPart, reads⟩
      rcases ih finished with ⟨framedRest, pagingout⟩
      refine ⟨framed.trans framedRest, ?_⟩
      intro number
      have isFirst : (worked.read first).pagingout = effect first (state.1.read first).pagingout := by
        rw [reads, if_pos rfl, (effects isPart).1, isRead]
      rw [pagingout]
      by_cases isSame : number = first
      · subst isSame
        simp only [isFirst, twice, ite_self, List.mem_cons, true_or, if_true]
      · have others : worked.read number = state.1.read number := by rw [reads, if_neg isSame]
        simp only [others, List.mem_cons, isSame, false_or]

/-- A `data_return` of dirty data: its pages are marked, and it is put on `WRITEWAIT`. -/
structure DirtyReturn (pager : SharedPager Interned) (offset : ℕ) (data : ℕ → ℕ) (length : ℕ)
    (kernelCopy : Bool) (outcome : SharedPager Interned × Option Thread) : Prop where
  aligned : offset % pager.pageSize = 0 ∧ length % pager.pageSize = 0
  queued : ∃ marked : SharedPager Interned, Framed pager marked ∧
    (∀ number, (marked.read number).pagingout =
      ((pager.read number).pagingout || decide (number ∈ pager.pagesOf offset length))) ∧
    (pager.writewait ≠ [] ∧
        outcome = ({ marked with
          writewait := pager.writewait ++ [⟨offset, data, length, kernelCopy⟩] }, none) ∨
      pager.writewait = [] ∧
        outcome = serviceWritewait [⟨offset, data, length, kernelCopy⟩]
          { marked with writewait := [⟨offset, data, length, kernelCopy⟩] })

/-- What `data_return` does with the lock -/
theorem dataReturn_cases {client : MachPort} {offset length : ℕ} {data : ℕ → ℕ}
    {dirty kernelCopy : Bool} {stale : ℕ → Bool} {outcome : SharedPager Interned × Option Thread}
    (done : pager.dataReturn client offset data length dirty kernelCopy stale = some outcome) :
    (dirty = false ∧ Aside pager outcome) ∨
      dirty = true ∧ DirtyReturn pager offset data length kernelCopy outcome := by
  unfold SharedPager.dataReturn at done
  by_cases unaligned : length % pager.pageSize ≠ 0 ∨ offset % pager.pageSize ≠ 0
  · rw [if_pos unaligned] at done
    cases done
  rw [if_neg unaligned] at done
  rw [not_or, not_not, not_not] at unaligned
  rcases Option.bind_eq_some_iff.mp done with ⟨⟨marked, flags⟩, finished, done⟩
  have marks := @forEach_flagPass _ _ (fun _ flag => flag || dirty)
    Page.dataReturnEnter_pagingout (by simp) _ _ _ finished
  rcases marks with ⟨framed, pagingout⟩
  dsimp only at done framed pagingout
  cases dirty with
  | false =>
      have calm : Calm pager marked := ⟨framed, fun number => by rw [pagingout]; simp⟩
      left
      refine ⟨rfl, ?_⟩
      simp only [Bool.false_eq_true, if_false] at done
      split_ifs at done
      · cases done
        refine ⟨calm, ?_⟩
        rintro _ ⟨⟩
        refine ⟨rfl, rfl, ?_⟩
        intro call isCall
        rcases List.mem_flatMap.mp isCall with ⟨number, -, isCall⟩
        rcases List.mem_append.mp isCall with isUnlock | isNotify
        · split_ifs at isUnlock
          · rcases List.mem_singleton.mp isUnlock with rfl
            rfl
          · simp at isUnlock
        · split_ifs at isNotify
          · rcases List.mem_singleton.mp isNotify with rfl
            rfl
          · simp at isNotify
      · cases done
        exact .done calm
  | true =>
      right
      simp only [if_true] at done
      split_ifs at done with isCalling isIdle
      all_goals
        refine ⟨rfl, ⟨unaligned.2, unaligned.1⟩, marked, framed, ?_, ?_⟩
        · intro number
          rw [pagingout]
          split_ifs with isPage <;> simp [isPage]
      · right
        rw [framed.writewait, List.isEmpty_iff] at isIdle
        rw [framed.writewait, isIdle] at done
        exact ⟨isIdle, (Option.some_inj.mp done).symm⟩
      · left
        rw [framed.writewait] at isIdle done
        exact ⟨fun isEmpty => isIdle (List.isEmpty_iff.mpr isEmpty), (Option.some_inj.mp done).symm⟩

/-- Every handler but a `data_return` of dirty data leaves `WRITEWAIT` alone. -/
theorem enter_cases {stale : ℕ → Bool} {input : Input}
    {outcome : SharedPager Interned × Option Thread}
    (done : pager.enter stale input = some outcome) :
    (Aside pager outcome ∧ ∀ client offset data length kernelCopy,
        input ≠ .dataReturn client offset data length true kernelCopy) ∨
      ∃ client offset data length kernelCopy,
        input = .dataReturn client offset data length true kernelCopy ∧
        DirtyReturn pager offset data length kernelCopy outcome := by
  cases input with
  | objectInit => exact .inl ⟨.objectInit done, nofun⟩
  | dataRequest => exact .inl ⟨.dataRequest done, nofun⟩
  | dataUnlock => exact .inl ⟨.dataUnlock done, nofun⟩
  | lockCompleted => exact .inl ⟨.lockCompleted done, nofun⟩
  | objectTerminate => exact .inl ⟨.dropLocks done, nofun⟩
  | deadName => exact .inl ⟨.dropLocks done, nofun⟩
  | lockObject =>
      cases done
      exact .inl ⟨.lockObject pager _ _ _ _ _, nofun⟩
  | shutdown =>
      cases done
      exact .inl ⟨.done ⟨⟨rfl, rfl, rfl, fun _ => rfl, [], by simp, by simp⟩, fun _ => rfl⟩, nofun⟩
  | dataReturn client offset data length dirty kernelCopy =>
      rcases dataReturn_cases done with ⟨rfl, aside⟩ | ⟨rfl, returned⟩
      · exact .inl ⟨aside, nofun⟩
      · exact .inr ⟨client, offset, data, length, kernelCopy, rfl, returned⟩

end SharedPager

end Hurd.Libpager
