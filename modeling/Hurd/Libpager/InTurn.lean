import Hurd.Libpager.Dropping
import Hurd.Libpager.WriteOrder

/-!
# Handlers in turn

Threads that run one after the other, each to its end before the next one starts: what they do to
the pager and what they send is what the handlers of `Pager.handle` do and send in this order.
-/

namespace Hurd.Libpager

/-- A callback is made. -/
theorem Mirrors.called {past : List Event} {shared : SharedPager Interned} {pager : Pager}
    {returned : List Call} {call : Call} (mirrors : Mirrors past shared (pager.emitAll (returned.map Call.emitted)))
    (hasOffset : pager.HasOffset call.page) :
    Mirrors past (shared.emit (shared.pageEvent call.page call.event))
      (pager.emitAll ((returned ++ [call]).map Call.emitted)) := by
  have isEvent : shared.pageEvent call.page call.event = call.emitted :=
    mirrors.pageEvent hasOffset call.event
  have isSent : pager.emitAll ((returned ++ [call]).map Call.emitted) =
      (pager.emitAll (returned.map Call.emitted)).emit call.emitted := by
    rw [List.map_append, Pager.emitAll_append]
    rfl
  rw [isEvent, isSent]
  exact mirrors.emit call.emitted

/-- Another pager of the process stores an entry. -/
theorem Mirrors.share {past : List Event} {shared : SharedPager Interned} {pager : Pager}
    (mirrors : Mirrors past shared pager) (entry : PagemapEntry) :
    Mirrors past { shared with pagemap := Pagemap.share shared.pagemap entry } pager :=
  { mirrors with pagemap := fun number => (Interned.read_share _ _ _).trans (mirrors.pagemap number) }

namespace Threads

/-- The steps of a thread whose callbacks return `results`; meanwhile other pagers share entries. -/
inductive Own (id : ℕ) (results : Callbacks) (system : Threads Interned) : Action → Prop
  | call : Own id results system (.call id)
  | finish {returned : PageCallbacks}
      (answers : ∀ thread call, system.threads id = some thread → thread.busy = some call →
        returned = results call.page) : Own id results system (.finish id returned)
  | resume : Own id results system (.resume id)
  | share (entry : PagemapEntry) : Own id results system (.share entry)

/-- How far a handler is that nobody interrupts -/
inductive InProgress (id : ℕ) (results : Callbacks) (past : List Event) (outcome : Option Pager)
    (system : Threads Interned) : Prop
  | ended {pager : Pager} (isEnd : system.threads id = none) (isOutcome : outcome = some pager)
      (mirrors : Mirrors past system.pager pager)
  /-- Some of its callbacks have returned, and at most one has been made and has not. -/
  | released {thread : Thread} {pager : Pager} {calls returned : List Call}
      (isThread : system.threads id = some thread)
      (isCalls : calls = returned ++ thread.busy.toList ++ thread.calls)
      (answered : thread.results = Call.answers results returned)
      (mirrors : Mirrors past system.pager
        (pager.emitAll ((returned ++ thread.busy.toList).map Call.emitted)))
      (hasOffsets : ∀ call ∈ calls, pager.HasOffset call.page)
      (next : ∀ locked, Mirrors past locked (pager.emitAll (calls.map Call.emitted)) →
        EndsAs results past (locked.reenter (Call.answers results calls) thread.resume) outcome)

variable {id : ℕ} {results : Callbacks} {past : List Event} {outcome : Option Pager}
  {system next : Threads Interned}

theorem start_cases {input : Input} {stale : ℕ → Bool}
    (taken : system.step (.start id input stale) = some next) :
    system.threads id = none ∧ ∃ shared thread,
      system.pager.enter stale input = some (shared, thread) ∧
        next = ({ system with pager := shared } : Threads Interned).setThread id thread := by
  rw [Threads.step] at taken
  cases isThread : system.threads id with
  | some thread =>
      rw [isThread] at taken
      cases taken
  | none =>
      rw [isThread] at taken
      rcases Option.map_eq_some_iff.mp taken with ⟨⟨shared, thread⟩, entered, rfl⟩
      exact ⟨rfl, shared, thread, entered, rfl⟩

/-- A thread leaves the others alone. -/
theorem Own.threads_other {action : Action} (isOwn : Own id results system action)
    (taken : system.step action = some next) {other : ℕ} (different : other ≠ id) :
    next.threads other = system.threads other := by
  cases isOwn with
  | share entry =>
      cases taken
      rfl
  | call =>
      rcases Option.bind_eq_some_iff.mp taken with ⟨⟨_ | ⟨call, rest⟩, _ | busy, _, _⟩, -, taken⟩
      all_goals cases taken
      exact setThread_of_ne different _ _
  | finish =>
      rcases Option.bind_eq_some_iff.mp taken with ⟨thread, -, taken⟩
      rcases Option.map_eq_some_iff.mp taken with ⟨call, -, rfl⟩
      exact setThread_of_ne different _ _
  | resume =>
      rcases Option.bind_eq_some_iff.mp taken with ⟨thread, -, taken⟩
      split_ifs at taken
      rcases Option.map_eq_some_iff.mp taken with ⟨result, -, rfl⟩
      exact setThread_of_ne different _ _

theorem InProgress.of_ends {shared : SharedPager Interned} {thread : Option Thread}
    (ends : EndsAs results past (some (shared, thread)) outcome) :
    InProgress id results past outcome
      (({ system with pager := shared } : Threads Interned).setThread id thread) := by
  cases ends with
  | done mirrors => exact .ended (setThread_self _ _ _) rfl mirrors
  | @goesOn _ thread pager _ idle unanswered mirrors hasOffsets next =>
      have noneMade : [] ++ thread.busy.toList = [] := by rw [idle]; rfl
      refine @released _ _ _ _ _ thread pager thread.calls [] (setThread_self _ _ _) ?_ unanswered
        ?_ hasOffsets next
      · rw [noneMade, List.nil_append]
      · rw [noneMade, List.map_nil, Pager.emitAll_nil]
        exact mirrors

/-- The thread makes a callback. -/
theorem InProgress.call (inProgress : InProgress id results past outcome system)
    (taken : system.step (.call id) = some next) : InProgress id results past outcome next := by
  cases inProgress with
  | ended isEnd =>
      rw [Threads.step, isEnd] at taken
      cases taken
  | @released thread pager calls returned isThread isCalls answered mirrors hasOffsets goesOn =>
      rcases thread with ⟨_ | ⟨call, rest⟩, _ | busy, collected, resume⟩
      all_goals
        rw [Threads.step, isThread] at taken
        cases taken
      rw [Option.toList_none, List.append_nil] at isCalls mirrors
      have hasOffset : pager.HasOffset call.page := by
        apply hasOffsets call
        rw [isCalls]
        simp
      refine @released _ _ _ _ _ ⟨rest, some call, collected, resume⟩ pager calls returned
        (setThread_self _ _ _) ?_ answered (mirrors.called hasOffset) hasOffsets goesOn
      simpa using isCalls

/-- The callback returns. -/
theorem InProgress.finish {answer : PageCallbacks}
    (inProgress : InProgress id results past outcome system)
    (answers : ∀ thread call, system.threads id = some thread → thread.busy = some call →
      answer = results call.page)
    (taken : system.step (.finish id answer) = some next) :
    InProgress id results past outcome next := by
  cases inProgress with
  | ended isEnd =>
      rw [Threads.step, isEnd] at taken
      cases taken
  | @released thread pager calls returned isThread isCalls answered mirrors hasOffsets goesOn =>
      rcases thread with ⟨rest, _ | call, collected, resume⟩
      all_goals
        rw [Threads.step, isThread] at taken
        cases taken
      refine @released _ _ _ _ _ ⟨rest, none, call.record answer collected, resume⟩ pager calls
        (returned ++ [call]) (setThread_self _ _ _) ?_ ?_ ?_ hasOffsets goesOn
      · simpa using isCalls
      · dsimp only
        have isAnswer : answer = results call.page := answers _ call isThread rfl
        have collects : collected = Call.answers results returned := answered
        rw [Call.answers_append, ← collects, isAnswer]
      · rw [Option.toList_none, List.append_nil]
        exact mirrors

/-- The thread has the lock again. -/
theorem InProgress.resume (inProgress : InProgress id results past outcome system)
    (taken : system.step (.resume id) = some next) : InProgress id results past outcome next := by
  cases inProgress with
  | ended isEnd =>
      rw [Threads.step, isEnd] at taken
      cases taken
  | @released thread pager calls returned isThread isCalls answered mirrors hasOffsets goesOn =>
      rw [Threads.step, isThread, Option.bind_some] at taken
      split_ifs at taken with isReady
      rcases isReady with ⟨isIdle, allMade⟩
      rw [isIdle, Option.toList_none, List.append_nil] at isCalls mirrors
      rw [allMade, List.append_nil] at isCalls
      rw [← isCalls] at answered mirrors
      have ends := goesOn system.pager mirrors
      rw [← answered] at ends
      rcases Option.map_eq_some_iff.mp taken with ⟨⟨shared, again⟩, reentered, rfl⟩
      rw [reentered] at ends
      exact .of_ends ends

theorem InProgress.step {action : Action} (inProgress : InProgress id results past outcome system)
    (isOwn : Own id results system action) (taken : system.step action = some next) :
    InProgress id results past outcome next := by
  cases isOwn with
  | call => exact inProgress.call taken
  | finish answers => exact inProgress.finish answers taken
  | resume => exact inProgress.resume taken
  | share entry =>
      cases taken
      cases inProgress with
      | ended isEnd isOutcome mirrors => exact .ended isEnd isOutcome (mirrors.share entry)
      | released isThread isCalls answered mirrors hasOffsets goesOn =>
          exact .released isThread isCalls answered (mirrors.share entry) hasOffsets goesOn

/-- What has been sent before stays. -/
theorem InProgress.isPrefix (inProgress : InProgress id results past outcome system) :
    past <+: system.pager.sent := by
  cases inProgress with
  | ended _ _ mirrors => exact mirrors.sent ▸ List.prefix_append _ _
  | released _ _ _ mirrors => exact mirrors.sent ▸ List.prefix_append _ _

theorem InProgress.start {pager : Pager} {input : Input} {stale : ℕ → Bool}
    (mirrors : Mirrors past system.pager { pager with sent := [] }) (settled : pager.Settled)
    (fits : input.Fits) (isStale : ∀ number, stale number = (results number).staleNotify)
    (taken : system.step (.start id input stale) = some next) :
    InProgress id results past (pager.handle (input, results)) next := by
  have ends := enter_ends mirrors settled fits isStale
  rcases start_cases taken with ⟨-, shared, thread, entered, rfl⟩
  rw [entered] at ends
  exact .of_ends ends

theorem InProgress.run {actions : List Action}
    (inProgress : InProgress id results past outcome system)
    (isOwn : Transition.AllowedRun Threads.step (Own id results) actions system)
    (finished : Transition.run Threads.step actions system = some next) :
    InProgress id results past outcome next := by
  have reached : Transition.Reachable Threads.step (Own id results) system next :=
    Transition.Reachable.start.of_run actions isOwn finished
  exact reached.invariant _ inProgress fun before isOwn taken => before.step isOwn taken

/-- The thread can make its callbacks. -/
theorem exists_calls {pager : Pager} {calls returned : List Call} {resume : Resume}
    (isThread : system.threads id =
      some ⟨calls, none, Call.answers results returned, resume⟩)
    (mirrors : Mirrors past system.pager (pager.emitAll (returned.map Call.emitted)))
    (hasOffsets : ∀ call ∈ calls, pager.HasOffset call.page) :
    ∃ actions next, Transition.AllowedRun Threads.step (Own id results) actions system ∧
      Transition.run Threads.step actions system = some next ∧
      next.threads id = some ⟨[], none, Call.answers results (returned ++ calls), resume⟩ ∧
      Mirrors past next.pager (pager.emitAll ((returned ++ calls).map Call.emitted)) := by
  induction calls generalizing system returned with
  | nil =>
      rw [List.append_nil]
      exact ⟨[], system, trivial, rfl, isThread, mirrors⟩
  | cons call rest ih =>
      let calling : Threads Interned := ({ system with
        pager := system.pager.emit (system.pager.pageEvent call.page call.event) } :
          Threads Interned).setThread id
        (some ⟨rest, some call, Call.answers results returned, resume⟩)
      let called : Threads Interned := calling.setThread id
        (some ⟨rest, none, call.record (results call.page) (Call.answers results returned), resume⟩)
      have calls : system.step (.call id) = some calling := by
        simp [Threads.step, isThread, calling]
      have isCalling : calling.threads id =
        some ⟨rest, some call, Call.answers results returned, resume⟩ := setThread_self _ _ _
      have returns : calling.step (.finish id (results call.page)) = some called := by
        simp [Threads.step, isCalling, called]
      have isCalled : called.threads id =
          some ⟨rest, none, Call.answers results (returned ++ [call]), resume⟩ := by
        rw [Call.answers_append]
        exact setThread_self _ _ _
      have emitted : Mirrors past called.pager
          (pager.emitAll ((returned ++ [call]).map Call.emitted)) :=
        mirrors.called (hasOffsets call List.mem_cons_self)
      rcases ih isCalled emitted fun other isLater =>
        hasOffsets other (List.mem_cons_of_mem _ isLater) with
        ⟨actions, next, isOwn, finished, isNext, mirrorsNext⟩
      rw [List.append_assoc] at isNext mirrorsNext
      refine ⟨.call id :: .finish id (results call.page) :: actions, next, ?_, ?_, isNext,
        mirrorsNext⟩
      · refine ⟨.call, fun _ taken => ?_⟩
        cases calls.symm.trans taken
        refine ⟨.finish fun thread busy isThread isBusy => ?_, fun _ taken => ?_⟩
        · cases isCalling.symm.trans isThread
          cases isBusy
          rfl
        · cases returns.symm.trans taken
          exact isOwn
      · rw [Transition.run_cons, calls, Option.bind_some, Transition.run_cons, returns]
        exact finished

/-- A handler that ends well can be run to its end. -/
theorem exists_end {state : Option (SharedPager Interned × Option Thread)}
    (ends : EndsAs results past state outcome) {final : Pager} (isOutcome : outcome = some final)
    (system : Threads Interned) :
    ∃ shared thread actions next, state = some (shared, thread) ∧
      Transition.AllowedRun Threads.step (Own id results) actions
        (({ system with pager := shared } : Threads Interned).setThread id thread) ∧
      Transition.run Threads.step actions
        (({ system with pager := shared } : Threads Interned).setThread id thread) = some next ∧
      next.threads id = none := by
  induction ends generalizing system with
  | fails => cases isOutcome
  | @done shared pager mirrors =>
      exact ⟨shared, none, [], _, rfl, trivial, rfl, setThread_self _ _ _⟩
  | @goesOn shared thread pager outcome idle unanswered mirrors hasOffsets _ ih =>
      rcases thread with ⟨calls, _, _, resume⟩
      cases idle
      cases unanswered
      let released : Threads Interned := ({ system with pager := shared } :
        Threads Interned).setThread id (some ⟨calls, none, Call.answers results [], resume⟩)
      have noneMade : Mirrors past released.pager
          (pager.emitAll (([] : List Call).map Call.emitted)) := by
        rw [List.map_nil, Pager.emitAll_nil]
        exact mirrors
      rcases exists_calls (setThread_self _ _ _) noneMade hasOffsets with
        ⟨made, locked, isOwn, allMade, isThread, isLocked⟩
      rw [List.nil_append] at isThread isLocked
      rcases ih locked.pager isLocked isOutcome locked with
        ⟨shared', thread', actions, next, reentered, isOwnToo, finished, isEnd⟩
      have resumes : locked.step (.resume id) =
          some (({ locked with pager := shared' } : Threads Interned).setThread id thread') := by
        rw [Threads.step, isThread, Option.bind_some, if_pos ⟨rfl, rfl⟩]
        dsimp only
        rw [reentered]
        rfl
      refine ⟨shared, _, made ++ .resume id :: actions, next, rfl, ?_, ?_, isEnd⟩
      · refine isOwn.append fun ran => ?_
        cases allMade.symm.trans ran
        refine ⟨.resume, fun _ taken => ?_⟩
        cases resumes.symm.trans taken
        exact isOwnToo
      · have ran : Transition.run Threads.step made released = some locked := allMade
        have goesOn : Transition.run Threads.step (made ++ .resume id :: actions) released =
            some next := by
          rw [Transition.run_append, ran, Option.bind_some, Transition.run_cons, resumes]
          exact finished
        exact goesOn

/-- Threads that run in turn -/
inductive InTurn : Threads Interned → List (Input × Callbacks) → Threads Interned → Prop
  | nil (system : Threads Interned) : InTurn system [] system
  | cons {system started middle final : Threads Interned} {id : ℕ} {stale : ℕ → Bool}
      {own : List Action} {input : Input × Callbacks} {rest : List (Input × Callbacks)}
      (isStale : ∀ number, stale number = (input.2 number).staleNotify)
      (starts : system.step (.start id input.1 stale) = some started)
      (isOwn : Transition.AllowedRun Threads.step (Own id input.2) own started)
      (ran : Transition.run Threads.step own started = some middle)
      (ended : middle.threads id = none) (others : InTurn middle rest final) :
      InTurn system (input :: rest) final

end Threads

/-- A handler, where what it has sent is put after what has been sent before -/
def Pager.record (state : Pager × List Event) (input : Input × Callbacks) :
    Option (Pager × List Event) :=
  (state.1.handle input).map fun next => (next, state.2 ++ next.sent)

/-- The pager between two handlers, with everything that has been sent -/
def Mirrors.Between (state : Pager × List Event) (shared : SharedPager Interned) : Prop :=
  Mirrors state.2 shared { state.1 with sent := [] } ∧ state.1.Settled

theorem Mirrors.between {past : List Event} {shared : SharedPager Interned} {pager : Pager}
    (mirrors : Mirrors past shared pager) (settled : pager.Settled) :
    Mirrors.Between (pager, past ++ pager.sent) shared :=
  ⟨{ mirrors with sent := by rw [mirrors.sent, List.append_nil] }, settled⟩

namespace Threads

variable {inputs : List (Input × Callbacks)} {state : Pager × List Event}
  {system final : Threads Interned}

theorem InTurn.handled (inTurn : InTurn system inputs final)
    (between : Mirrors.Between state system.pager) (fits : ∀ input ∈ inputs, input.1.Fits) :
    ∃ next, Transition.run Pager.record inputs state = some next ∧
      Mirrors.Between next final.pager := by
  induction inTurn generalizing state with
  | nil => exact ⟨state, rfl, between⟩
  | @cons system started middle final id stale own input rest isStale starts isOwn ran ended _ ih =>
      have isFit := fits input List.mem_cons_self
      have inProgress := (InProgress.start between.1 between.2 isFit isStale starts).run isOwn ran
      cases inProgress with
      | released isThread => cases ended.symm.trans isThread
      | @ended pager _ isOutcome mirrors =>
          have settled := between.2.handle isFit isOutcome
          rcases ih (mirrors.between settled) fun other isLater =>
            fits other (List.mem_cons_of_mem _ isLater) with ⟨next, isRun, isNext⟩
          refine ⟨next, ?_, isNext⟩
          rw [Transition.run_cons, Pager.record, isOutcome]
          exact isRun

theorem exists_inTurn {next : Pager × List Event} (free : system.threads 0 = none)
    (between : Mirrors.Between state system.pager) (fits : ∀ input ∈ inputs, input.1.Fits)
    (handled : Transition.run Pager.record inputs state = some next) :
    ∃ final, InTurn system inputs final ∧ Mirrors.Between next final.pager := by
  induction inputs generalizing state system with
  | nil =>
      cases handled
      exact ⟨system, .nil system, between⟩
  | cons input rest ih =>
      have isFit := fits input List.mem_cons_self
      rw [Transition.run_cons] at handled
      rcases Option.bind_eq_some_iff.mp handled with ⟨recorded, isRecorded, handled⟩
      rcases Option.map_eq_some_iff.mp isRecorded with ⟨pager, isOutcome, rfl⟩
      let stale : ℕ → Bool := fun number => (input.2 number).staleNotify
      have ends : EndsAs input.2 state.2 (system.pager.enter stale input.1)
        (state.1.handle (input.1, input.2)) := enter_ends between.1 between.2 isFit fun _ => rfl
      rcases exists_end ends isOutcome system with
        ⟨shared, thread, own, middle, entered, isOwn, ran, ended⟩
      have starts : system.step (.start 0 input.1 stale) =
          some (({ system with pager := shared } : Threads Interned).setThread 0 thread) := by
        rw [Threads.step, free, entered]
        rfl
      have inProgress :=
        (InProgress.start between.1 between.2 isFit (fun _ => rfl) starts).run isOwn ran
      cases inProgress with
      | released isThread => cases ended.symm.trans isThread
      | @ended last _ isLast mirrors =>
          cases isOutcome.symm.trans isLast
          rcases ih ended (mirrors.between (between.2.handle isFit isOutcome))
            (fun other isLater => fits other (List.mem_cons_of_mem _ isLater)) handled with
            ⟨final, inTurn, isFinal⟩
          exact ⟨final, .cons (fun _ => rfl) starts isOwn ran ended inTurn, isFinal⟩

theorem between_create {pageSize : ℕ} {pageSize_pos : 0 < pageSize} {mayCache : Bool}
    {copyStrategy : ℕ} {notifyOnEvict : Bool} {leftovers : ℕ → PagemapEntry} :
    Mirrors.Between (Pager.create pageSize pageSize_pos mayCache copyStrategy notifyOnEvict, [])
      (create pageSize pageSize_pos mayCache copyStrategy notifyOnEvict leftovers).pager := by
  refine ⟨?_, Pager.create_settled _ _ _ _ _⟩
  exact ⟨rfl, rfl, rfl, rfl, rfl, rfl, rfl, fun _ _ => rfl, rfl, rfl, read_create, rfl⟩

/--
Handlers that run in turn end just where `Pager.handle` succeeds, and leave the pager as it does,
with the same messages and callbacks in the same order.
-/
theorem handled_in_turn {pageSize : ℕ} {pageSize_pos : 0 < pageSize} {mayCache : Bool}
    {copyStrategy : ℕ} {notifyOnEvict : Bool} {leftovers : ℕ → PagemapEntry}
    (fits : ∀ input ∈ inputs, input.1.Fits) :
    (∀ final, InTurn
        (create pageSize pageSize_pos mayCache copyStrategy notifyOnEvict leftovers) inputs final →
      ∃ next, Transition.run Pager.record inputs
          (Pager.create pageSize pageSize_pos mayCache copyStrategy notifyOnEvict, []) =
            some next ∧ Mirrors.Between next final.pager) ∧
      ∀ next, Transition.run Pager.record inputs
          (Pager.create pageSize pageSize_pos mayCache copyStrategy notifyOnEvict, []) =
            some next →
        ∃ final, InTurn
          (create pageSize pageSize_pos mayCache copyStrategy notifyOnEvict leftovers) inputs
            final ∧ Mirrors.Between next final.pager :=
  ⟨fun _ inTurn => inTurn.handled between_create fits,
    fun _ handled => exists_inTurn rfl between_create fits handled⟩

/-- A client has a page and gives it back changed while the eviction is to be notified. -/
def givenBack : List (Input × Callbacks) :=
  [(.objectInit 1 4096, fun _ => {}),
    (.dataRequest 1 4096 4096 2, fun _ => { read := { buffer := 7 } }),
    (.dataReturn 1 4096 (fun _ => 8) 4096 true false, fun _ => {})]

theorem handled_givenBack : ∃ final,
    InTurn (create 4096 (by decide) true 0 true fun _ => {}) givenBack final ∧
      final.pager.sent =
        [.ready 1 true 0, .page 1 .readPage, .page 1 (.dataSupply ∅ 1 7 true 0 true),
          .page 1 (.writePage 8), .page 1 .notifyEvict, .wakeWriteWaiters 4096 4096] := by
  have fits : ∀ input ∈ givenBack, input.1.Fits := by
    intro input isInput
    simp only [givenBack, List.mem_cons, List.not_mem_nil, or_false] at isInput
    rcases isInput with rfl | rfl | rfl
    · trivial
    · show 4096 + 4096 ≤ offsetRange
      decide
    · show 4096 + 4096 < offsetRange
      decide
  have handled : ∃ next, Transition.run Pager.record givenBack
      (Pager.create 4096 (by decide) true 0 true, []) = some next ∧ next.2 =
        [.ready 1 true 0, .page 1 .readPage, .page 1 (.dataSupply ∅ 1 7 true 0 true),
          .page 1 (.writePage 8), .page 1 .notifyEvict, .wakeWriteWaiters 4096 4096] :=
    ⟨_, rfl, by decide +kernel⟩
  rcases handled with ⟨next, handled, isSent⟩
  rcases (@handled_in_turn givenBack 4096 (by decide) true 0 true (fun _ => {}) fits).2 next
    handled with ⟨final, inTurn, mirrors, -⟩
  refine ⟨final, inTurn, ?_⟩
  rw [mirrors.sent, isSent]
  rfl

end Threads

end Hurd.Libpager
