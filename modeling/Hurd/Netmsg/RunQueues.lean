import Hurd.Lib.Transition
import Hurd.Netmsg.Message

/-!
# Run queues

A `RunQueues` keeps the messages of each port in a queue, and a thread in `run` handles them
one after the other.  `push_back` starts the thread when it finds the queue empty, and the
thread stops when it does.  The two look at the queue at different times, and
`std::unique_lock<std::mutex> lk;` makes a lock that owns no mutex, so every container
operation is a step of its own and the steps of all threads come in any order.

A message is lost when the last thread stops after `push_back` has found its queue in use, and
two threads run one queue when `push_back` has found it empty before the last thread has looked
at it again.  Where neither happens, each message is handled once and in order.
-/

universe u

namespace Hurd.Netmsg

/-- Where a thread in `run` stands. -/
inductive Run (μ : Type u)
  /-- before the assert that the queue is not empty -/
  | checking
  /-- before `front` -/
  | reading
  /-- in the handler -/
  | handling (message : μ)
  /-- before `pop_front` -/
  | popping
  /-- before the test whether anything is left -/
  | testing
  | stopped
deriving DecidableEq

/-- The thread has not decided to stop. -/
def Run.isLive {μ : Type u} : Run μ → Bool
  | .stopped => false
  | _ => true

/-- Where the receiving thread stands in `push_back`. -/
inductive Push (μ : Type u)
  /-- before `push_back` of the queue -/
  | tested (message : μ) (empty : Bool)
  /-- before a thread is started, when the queue was empty -/
  | pushed (empty : Bool)
deriving DecidableEq

/--
The queue of a port and the threads that run it.  `deque` is the entry of the map, if there is
one; `pushed`, `handled` and `finished` are the messages that have been pushed, that a handler
has been called for and that it has returned from, all in order.
-/
structure RunQueue (μ : Type u) where
  deque : Option (List μ) := none
  threads : List (Run μ) := []
  pushed : List μ := []
  handled : List μ := []
  finished : List μ := []

structure RunQueues (μ : Type u) where
  queue : Port → RunQueue μ := fun _ => {}
  receiver : Option (Port × Push μ) := none

/-- A step of the receiving thread or of a thread in `run`. -/
inductive RunAction (μ : Type u)
  /-- `push_back` is called and tests whether the queue is empty -/
  | pushBack (port : Port) (message : μ)
  | append
  | start
  | run (port : Port) (index : ℕ)

/-- The action is a step of a thread that runs the queue of the port. -/
def RunAction.isRunOf {μ : Type u} (port : Port) : RunAction μ → Bool
  | .run other _ => other = port
  | _ => false

namespace RunQueue

variable {μ : Type u}

/-- The messages that wait in the queue. -/
def messages (queue : RunQueue μ) : List μ := queue.deque.getD []

def live (queue : RunQueue μ) : List (Run μ) := queue.threads.filter Run.isLive

/-- `(*this)[port]` makes an entry where there is none. -/
def enter (queue : RunQueue μ) : RunQueue μ := { queue with deque := some queue.messages }

def append (queue : RunQueue μ) (message : μ) : RunQueue μ :=
  { queue with
    deque := some (queue.messages ++ [message])
    pushed := queue.pushed ++ [message] }

/-- Start a thread for a queue that was empty. -/
def start (queue : RunQueue μ) (empty : Bool) : RunQueue μ :=
  { queue with threads := if empty then queue.threads ++ [.checking] else queue.threads }

def setThread (queue : RunQueue μ) (index : ℕ) (run : Run μ) : RunQueue μ :=
  { queue with threads := queue.threads.set index run }

/-- A step of a thread in `run`; `at(port)` throws when there is no entry. -/
def run (queue : RunQueue μ) (index : ℕ) : Option (RunQueue μ) := do
  let thread ← queue.threads[index]?
  let deque ← queue.deque
  match thread, deque with
  | .checking, _ :: _ => some (queue.setThread index .reading)
  -- the assert fails
  | .checking, [] => none
  | .reading, message :: _ =>
      some { queue.setThread index (.handling message) with
        handled := queue.handled ++ [message] }
  -- `front` and `pop_front` of an empty deque are undefined
  | .reading, [] => none
  | .handling message, _ =>
      some { queue.setThread index .popping with finished := queue.finished ++ [message] }
  | .popping, _ :: rest => some { queue.setThread index .testing with deque := some rest }
  | .popping, [] => none
  | .testing, deque =>
      some (queue.setThread index (if deque.isEmpty then .stopped else .checking))
  | .stopped, _ => none

end RunQueue

namespace RunQueues

variable {μ : Type u}

def setQueue (queues : RunQueues μ) (port : Port) (queue : RunQueue μ) : RunQueues μ :=
  { queues with queue := Function.update queues.queue port queue }

def step (queues : RunQueues μ) : RunAction μ → Option (RunQueues μ)
  | .pushBack port message =>
      match queues.receiver with
      | none =>
          let queue := queues.queue port
          some { queues.setQueue port queue.enter with
            receiver := some (port, .tested message queue.messages.isEmpty) }
      | some _ => none
  | .append =>
      match queues.receiver with
      | some (port, .tested message empty) =>
          some { queues.setQueue port ((queues.queue port).append message) with
            receiver := some (port, .pushed empty) }
      | _ => none
  | .start =>
      match queues.receiver with
      | some (port, .pushed empty) =>
          some { queues.setQueue port ((queues.queue port).start empty) with receiver := none }
      | _ => none
  | .run port index => ((queues.queue port).run index).map (queues.setQueue port)

/-- Where the receiving thread stands in a `push_back` for the port. -/
def push? (queues : RunQueues μ) (port : Port) : Option (Push μ) :=
  match queues.receiver with
  | some (other, push) => if other = port then some push else none
  | none => none

/--
The two races are not run: nothing is appended for a `push_back` that has found the queue empty
while a thread runs it, and no thread stops while a `push_back` has found its queue in use.
-/
def Excluded (queues : RunQueues μ) : RunAction μ → Prop
  | .append => ∀ port message, queues.receiver = some (port, .tested message true) →
      (queues.queue port).live = []
  | .run port index => (queues.queue port).threads[index]? = some .testing →
      (queues.queue port).messages = [] →
      ∀ message, queues.receiver ≠ some (port, .tested message false)
  | _ => True

end RunQueues

namespace Run

variable {μ : Type u}

/-- The messages that the handler has been called for and has not returned from. -/
def inHand : Run μ → List μ
  | .handling message => [message]
  | _ => []

/-- The messages of a queue that are still to be finished. -/
def unfinished (messages : List μ) : Run μ → List μ
  | .popping => messages.tail
  | _ => messages

/-- The steps that the thread has to take until it has finished another message. -/
def untilFinished : Run μ → ℕ
  | .checking => 3
  | .reading => 2
  | .handling _ => 1
  | .popping => 5
  | .testing => 4
  | .stopped => 0

/-- What the thread knows of the queue. -/
def Knows (messages : List μ) : Run μ → Prop
  | .handling message => ∃ rest, messages = message :: rest
  | .testing => True
  | .stopped => True
  | _ => messages ≠ []

/-- The thread runs the queue alone. -/
structure Fits (thread : Run μ) (queue : RunQueue μ) : Prop where
  entry : queue.deque.isSome = true
  knows : thread.Knows queue.messages
  handled : queue.handled = queue.finished ++ thread.inHand
  order : queue.finished ++ thread.unfinished queue.messages = queue.pushed

/-- Where a thread goes on to from its place. -/
inductive Steps (queue : RunQueue μ) (index : ℕ) : Run μ → RunQueue μ → Prop
  | check (waiting : queue.messages ≠ []) :
      Steps queue index .checking (queue.setThread index .reading)
  | read {message : μ} {rest : List μ} (first : queue.messages = message :: rest) :
      Steps queue index .reading { queue.setThread index (.handling message) with
        handled := queue.handled ++ [message] }
  | finish (message : μ) :
      Steps queue index (.handling message) { queue.setThread index .popping with
        finished := queue.finished ++ [message] }
  | pop {message : μ} {rest : List μ} (first : queue.messages = message :: rest) :
      Steps queue index .popping { queue.setThread index .testing with deque := some rest }
  | goOn (waiting : queue.messages ≠ []) :
      Steps queue index .testing (queue.setThread index .checking)
  | stop (noneLeft : queue.messages = []) :
      Steps queue index .testing (queue.setThread index .stopped)

end Run

namespace RunQueue

variable {μ : Type u} {queue next : RunQueue μ} {index : ℕ}

theorem run_cases (stepped : queue.run index = some next) :
    ∃ thread, queue.threads[index]? = some thread ∧ thread.isLive = true ∧
      thread.Steps queue index next := by
  rcases Option.bind_eq_some_iff.mp stepped with ⟨thread, found, stepped⟩
  rcases Option.bind_eq_some_iff.mp stepped with ⟨deque, entry, stepped⟩
  have messagesEq : queue.messages = deque := by simp [messages, entry]
  refine ⟨thread, found, ?_⟩
  cases thread with
  | checking =>
      cases deque with
      | nil => cases stepped
      | cons message rest =>
          cases stepped
          exact ⟨rfl, .check (by simp [messagesEq])⟩
  | reading =>
      cases deque with
      | nil => cases stepped
      | cons message rest =>
          cases stepped
          exact ⟨rfl, .read messagesEq⟩
  | handling message =>
      cases stepped
      exact ⟨rfl, .finish message⟩
  | popping =>
      cases deque with
      | nil => cases stepped
      | cons message rest =>
          cases stepped
          exact ⟨rfl, .pop messagesEq⟩
  | testing =>
      cases deque with
      | nil =>
          cases stepped
          exact ⟨rfl, .stop messagesEq⟩
      | cons message rest =>
          cases stepped
          exact ⟨rfl, .goOn (by simp [messagesEq])⟩
  | stopped => cases stepped

/-- The only live thread of a list is the one that takes a step. -/
theorem filter_set_of_live {threads : List (Run μ)} {thread moved : Run μ} (after : Run μ)
    (alone : threads.filter Run.isLive = [thread]) (found : threads[index]? = some moved)
    (isLive : moved.isLive = true) :
    moved = thread ∧ (threads.set index after).filter Run.isLive = [after].filter Run.isLive := by
  induction threads generalizing index with
  | nil => cases found
  | cons head tail ih =>
      cases index with
      | zero =>
          cases found
          simp only [List.filter_cons, isLive, if_true, List.cons.injEq] at alone
          rcases alone with ⟨rfl, noneLeft⟩
          simp [List.filter_cons, noneLeft]
      | succ index =>
          have inTail : moved ∈ tail.filter Run.isLive :=
            List.mem_filter.mpr ⟨List.mem_of_getElem? found, isLive⟩
          cases headLive : head.isLive with
          | true =>
              simp only [List.filter_cons, headLive, if_true, List.cons.injEq] at alone
              simp [alone.2] at inTail
          | false =>
              simp only [List.filter_cons, headLive, Bool.false_eq_true, if_false] at alone
              simpa [headLive] using ih alone found

/-- The queue of a port, its threads and a `push_back` for it agree about who runs it. -/
inductive Tended (queue : RunQueue μ) (push : Option (Push μ)) : Prop
  | idle (noneLive : queue.live = []) (handled : queue.handled = queue.finished)
      (order : queue.finished ++ queue.messages = queue.pushed)
      (starts : queue.messages ≠ [] ↔ push = some (.pushed true))
      (foundEmpty : ∀ message, push ≠ some (.tested message false))
  | running (thread : Run μ) (oneLive : queue.live = [thread]) (fits : thread.Fits queue)
      (notStarting : push ≠ some (.pushed true))
      (foundEmpty : ∀ message, push = some (.tested message true) → queue.messages = [])

variable {push : Option (Push μ)}

section Members

variable (queue : RunQueue μ)

@[simp]
theorem enter_messages : queue.enter.messages = queue.messages := rfl

@[simp]
theorem append_messages (message : μ) :
    (queue.append message).messages = queue.messages ++ [message] := rfl

@[simp]
theorem append_pushed (message : μ) : (queue.append message).pushed = queue.pushed ++ [message] :=
  rfl

@[simp]
theorem append_finished (message : μ) : (queue.append message).finished = queue.finished := rfl

@[simp]
theorem start_messages (empty : Bool) : (queue.start empty).messages = queue.messages := rfl

@[simp]
theorem setThread_messages (thread : Run μ) :
    (queue.setThread index thread).messages = queue.messages := rfl

end Members

theorem isSome_of_messages (waiting : queue.messages ≠ []) : queue.deque.isSome = true := by
  cases entry : queue.deque with
  | none => simp [messages, entry] at waiting
  | some _ => rfl

theorem fits_append {thread : Run μ} (fits : thread.Fits queue) (message : μ) :
    thread.Fits (queue.append message) := by
  rcases fits with ⟨-, knows, handled, order⟩
  refine ⟨rfl, ?_, handled, ?_⟩
  · cases thread with
    | handling inHand =>
        rcases knows with ⟨rest, first⟩
        exact ⟨rest ++ [message], by simp [first]⟩
    | testing => trivial
    | stopped => trivial
    | _ => simp [Run.Knows]
  · cases thread with
    | popping =>
        have tail : (queue.messages ++ [message]).tail = queue.messages.tail ++ [message] :=
          List.tail_append_of_ne_nil knows
        simp [Run.unfinished, tail, ← order]
    | _ => simp [Run.unfinished, ← order]

theorem tended_enter (message : μ) (tended : queue.Tended none) :
    queue.enter.Tended (some (.tested message queue.messages.isEmpty)) := by
  cases tended with
  | idle noneLive handled order starts _ =>
      have noneWaiting : queue.messages = [] := by simpa using starts
      refine .idle noneLive handled order ?_ ?_
      · simp [noneWaiting]
      · simp [noneWaiting]
  | running thread oneLive fits _ _ =>
      refine .running thread oneLive ⟨rfl, fits.knows, fits.handled, fits.order⟩ (by simp) ?_
      intro other found
      simp only [Option.some_inj, Push.tested.injEq, List.isEmpty_iff] at found
      exact found.2

theorem tended_append {message : μ} {empty : Bool}
    (tended : queue.Tended (some (.tested message empty)))
    (excluded : empty = true → queue.live = []) :
    (queue.append message).Tended (some (.pushed empty)) := by
  cases tended with
  | idle noneLive handled order starts foundEmpty =>
      have isEmpty : empty = true := by
        cases empty with
        | true => rfl
        | false => exact absurd rfl (foundEmpty message)
      refine .idle noneLive handled ?_ ?_ (by simp)
      · simp [← order]
      · simp [isEmpty]
  | running thread oneLive fits _ _ =>
      have inUse : empty = false := by
        cases empty with
        | true => simp [excluded rfl] at oneLive
        | false => rfl
      exact .running thread oneLive (fits_append fits message) (by simp [inUse]) (by simp)

theorem live_start (noneLive : queue.live = []) : (queue.start true).live = [.checking] := by
  have stillNone : queue.threads.filter Run.isLive = [] := noneLive
  simp [live, start, List.filter_append, stillNone, Run.isLive]

theorem tended_start {empty : Bool} (tended : queue.Tended (some (.pushed empty))) :
    (queue.start empty).Tended none := by
  cases tended with
  | idle noneLive handled order starts foundEmpty =>
      cases empty with
      | true =>
          have waiting : queue.messages ≠ [] := starts.mpr rfl
          have noneInHand : queue.handled = queue.finished ++ Run.inHand (.checking : Run μ) := by
            simpa [Run.inHand] using handled
          exact .running .checking (live_start noneLive)
            ⟨isSome_of_messages waiting, waiting, noneInHand, order⟩ nofun nofun
      | false =>
          refine .idle noneLive handled order ?_ nofun
          have noneWaiting : queue.messages = [] := by simpa using starts
          simp [noneWaiting]
  | running thread oneLive fits notStarting _ =>
      cases empty with
      | true => exact absurd rfl notStarting
      | false =>
          exact .running thread oneLive ⟨fits.entry, fits.knows, fits.handled, fits.order⟩ nofun
            nofun

/-- The thread that takes a step is the only one, and whatever it goes on to is the next one. -/
theorem Tended.alone (tended : queue.Tended push) (stepped : queue.run index = some next) :
    ∃ thread, queue.live = [thread] ∧ queue.threads[index]? = some thread ∧ thread.Fits queue ∧
      thread.Steps queue index next ∧ push ≠ some (.pushed true) ∧
      (∀ message, push = some (.tested message true) → queue.messages = []) ∧
      ∀ after, (queue.setThread index after).live = [after].filter Run.isLive := by
  rcases run_cases stepped with ⟨moved, found, isLive, steps⟩
  cases tended with
  | idle noneLive _ _ _ _ =>
      have isThere : moved ∈ queue.live :=
        List.mem_filter.mpr ⟨List.mem_of_getElem? found, isLive⟩
      simp [noneLive] at isThere
  | running thread oneLive fits notStarting foundEmpty =>
      rcases filter_set_of_live .stopped oneLive found isLive with ⟨rfl, -⟩
      exact ⟨moved, oneLive, found, fits, steps, notStarting, foundEmpty,
        fun after => (filter_set_of_live after oneLive found isLive).2⟩

theorem tended_run (tended : queue.Tended push)
    (excluded : queue.threads[index]? = some .testing → queue.messages = [] →
      ∀ message, push ≠ some (.tested message false))
    (stepped : queue.run index = some next) : next.Tended push := by
  rcases tended.alone stepped with
    ⟨thread, -, found, ⟨entry, knows, handled, order⟩, steps, notStarting, foundEmpty, alone⟩
  cases steps with
  | check waiting =>
      exact .running .reading (alone _) ⟨entry, waiting, handled, order⟩ notStarting foundEmpty
  | @read message rest first =>
      refine .running (.handling message) (alone _) ⟨entry, ⟨rest, first⟩, ?_, order⟩ notStarting
        foundEmpty
      simp [Run.inHand, setThread, handled]
  | finish message =>
      rcases knows with ⟨rest, first⟩
      have stillFirst : queue.messages ≠ [] := by simp [first]
      have noneInHand : queue.handled = queue.finished ++ [message] ++ [] := by
        simpa [Run.inHand] using handled
      have left : queue.finished ++ [message] ++ queue.messages.tail = queue.pushed := by
        rw [← order, first]
        simp [Run.unfinished]
      exact .running .popping (alone _) ⟨entry, stillFirst, noneInHand, left⟩ notStarting foundEmpty
  | @pop message rest first =>
      have left : queue.finished ++ rest = queue.pushed := by
        rw [← order, first]
        rfl
      refine .running .testing (alone _) ⟨rfl, trivial, handled, left⟩ notStarting ?_
      intro other tested
      simp [foundEmpty other tested] at first
  | goOn waiting =>
      exact .running .checking (alone _) ⟨entry, waiting, handled, order⟩ notStarting foundEmpty
  | stop noneLeft =>
      have allFinished : queue.handled = queue.finished := by simpa [Run.inHand] using handled
      refine .idle (alone _) allFinished order ?_ (excluded found noneLeft)
      simp [noneLeft, notStarting]

/--
What a step without a race does to the queue of a port and to a `push_back` for it; `ran` says
that it is a step of a thread that runs the queue.
-/
inductive Moves (queue : RunQueue μ) :
    Option (Push μ) → RunQueue μ → Option (Push μ) → (ran : Bool) → Prop
  | still (push : Option (Push μ)) : Moves queue push queue push false
  | enter (message : μ) :
      Moves queue none queue.enter (some (.tested message queue.messages.isEmpty)) false
  | append {message : μ} {empty : Bool} (excluded : empty = true → queue.live = []) :
      Moves queue (some (.tested message empty)) (queue.append message) (some (.pushed empty)) false
  | start (empty : Bool) : Moves queue (some (.pushed empty)) (queue.start empty) none false
  | run {push : Option (Push μ)} {index : ℕ} {next : RunQueue μ}
      (excluded : queue.threads[index]? = some .testing → queue.messages = [] →
        ∀ message, push ≠ some (.tested message false))
      (stepped : queue.run index = some next) : Moves queue push next push true

variable {after : Option (Push μ)} {ran : Bool}

theorem Tended.moves (tended : queue.Tended push) (moves : queue.Moves push next after ran) :
    next.Tended after := by
  cases moves with
  | still => exact tended
  | enter message => exact tended_enter message tended
  | append excluded => exact tended_append tended excluded
  | start empty => exact tended_start tended
  | run excluded stepped => exact tended_run tended excluded stepped

theorem pushed_moves (moves : queue.Moves push next after ran) : queue.pushed <+: next.pushed := by
  cases moves with
  | append _ => exact List.prefix_append _ _
  | run _ stepped =>
      rcases run_cases stepped with ⟨_, _, _, steps⟩
      cases steps <;> exact List.prefix_rfl
  | _ => exact List.prefix_rfl

section Served

variable {thread : Run μ}

theorem inHand_first (fits : thread.Fits queue) :
    thread.inHand <+: thread.unfinished queue.messages := by
  cases thread with
  | handling message =>
      rcases fits.knows with ⟨rest, first⟩
      simp [Run.inHand, Run.unfinished, first]
  | _ => exact List.nil_prefix

theorem unfinished_suffix (thread : Run μ) (messages : List μ) :
    thread.unfinished messages <:+ messages := by
  cases thread with
  | popping => exact List.tail_suffix messages
  | _ => exact List.suffix_rfl

theorem Tended.handled_first (tended : queue.Tended push) : queue.handled <+: queue.pushed := by
  cases tended with
  | idle _ handled order => exact ⟨queue.messages, by rw [handled, order]⟩
  | running thread _ fits =>
      rw [fits.handled, ← fits.order]
      exact (List.prefix_append_right_inj _).mpr (inHand_first fits)

theorem Tended.oneByOne (tended : queue.Tended push) :
    queue.finished <+: queue.handled ∧ queue.handled.length ≤ queue.finished.length + 1 := by
  cases tended with
  | idle _ handled => simp [handled]
  | running thread _ fits =>
      rw [fits.handled]
      refine ⟨List.prefix_append _ _, ?_⟩
      cases thread <;> simp [Run.inHand]

theorem Tended.kept (tended : queue.Tended push) :
    queue.pushed.drop queue.finished.length <:+ queue.messages := by
  cases tended with
  | idle _ _ order => simp [← order]
  | running thread _ fits =>
      rw [← fits.order, List.drop_left]
      exact unfinished_suffix thread queue.messages

/-- A live thread is the one that runs the queue. -/
theorem Tended.fits (tended : queue.Tended push) (listed : thread ∈ queue.threads)
    (isLive : thread.isLive = true) : thread.Fits queue := by
  have isThere : thread ∈ queue.live := List.mem_filter.mpr ⟨listed, isLive⟩
  cases tended with
  | idle noneLive => simp [noneLive] at isThere
  | running other oneLive fits =>
      rw [oneLive, List.mem_singleton] at isThere
      rw [isThere]
      exact fits

/-- The thread that runs a queue can take its step. -/
theorem Tended.goesOn (tended : queue.Tended push) (found : queue.threads[index]? = some thread)
    (isLive : thread.isLive = true) : ∃ next, queue.run index = some next := by
  rcases tended.fits (List.mem_of_getElem? found) isLive with ⟨entry, knows, -, -⟩
  rcases Option.isSome_iff_exists.mp entry with ⟨deque, dequeEq⟩
  have messagesEq : queue.messages = deque := by simp [messages, dequeEq]
  rw [messagesEq] at knows
  cases thread with
  | stopped => cases isLive
  | handling message => simp [run, found, dequeEq]
  | testing => simp [run, found, dequeEq]
  | _ =>
      rcases List.exists_cons_of_ne_nil knows with ⟨first, rest, rfl⟩
      simp [run, found, dequeEq]

end Served

/-- The steps that the threads of a queue have to take until `count` messages are finished. -/
def due (queue : RunQueue μ) (count : ℕ) : ℕ :=
  if count ≤ queue.finished.length then 0
  else 5 * (count - queue.finished.length - 1) +
    match queue.live with
    | [] => 3
    | thread :: _ => thread.untilFinished

theorem due_le (queue : RunQueue μ) (count : ℕ) :
    queue.due count ≤ 5 * (count - queue.finished.length) := by
  unfold due
  split_ifs with finished
  · omega
  · split
    · omega
    · rename_i thread _ _
      have bound : thread.untilFinished ≤ 5 := by
        cases thread <;> simp [Run.untilFinished]
      omega

theorem due_eq_zero {count : ℕ} (finished : count ≤ queue.finished.length) :
    queue.due count = 0 := if_pos finished

theorem due_eq_of_live {thread : Run μ} (oneLive : queue.live = [thread]) {count : ℕ}
    (left : ¬count ≤ queue.finished.length) :
    queue.due count = 5 * (count - queue.finished.length - 1) + thread.untilFinished := by
  simp [due, left, oneLive]

theorem due_le_of_live {thread : Run μ} (oneLive : queue.live = [thread]) (count : ℕ) :
    queue.due count ≤ 5 * (count - queue.finished.length - 1) + thread.untilFinished := by
  by_cases finished : count ≤ queue.finished.length
  · simp [due_eq_zero finished]
  · rw [due_eq_of_live oneLive finished]

/-- Every message is finished that no step of a thread is due for. -/
theorem finished_of_due {count : ℕ} (tended : queue.Tended push) (noneDue : queue.due count = 0) :
    count ≤ queue.finished.length := by
  by_contra left
  cases tended with
  | idle noneLive => simp [due, left, noneLive] at noneDue
  | running thread oneLive =>
      have isLive : thread.isLive = true := by
        have listed : thread ∈ queue.live := by simp [oneLive]
        exact (List.mem_filter.mp listed).2
      rw [due_eq_of_live oneLive left] at noneDue
      cases thread <;> simp [Run.untilFinished, Run.isLive] at noneDue isLive

/-- A step of the thread that runs a queue brings it nearer to finishing what was pushed. -/
theorem due_run {count : ℕ} (tended : queue.Tended push) (bound : count ≤ queue.pushed.length)
    (stepped : queue.run index = some next) : next.due count ≤ queue.due count - 1 := by
  rcases tended.alone stepped with ⟨thread, oneLive, -, ⟨_, _, handled, order⟩, steps, -, -, alone⟩
  by_cases finished : count ≤ queue.finished.length
  · have stillFinished : count ≤ next.finished.length := by
      cases steps with
      | finish message =>
          apply finished.trans
          simp
      | _ => exact finished
    simp [due_eq_zero stillFinished]
  rw [due_eq_of_live oneLive finished]
  cases steps with
  | check waiting => exact due_le_of_live (alone .reading) count
  | @read message _ first => exact due_le_of_live (alone (.handling message)) count
  | finish message =>
      let ended : RunQueue μ := { queue with finished := queue.finished ++ [message] }
      have longer : (ended.setThread index .popping).finished.length =
          queue.finished.length + 1 := List.length_append
      have dueNext : (ended.setThread index .popping).due count ≤
          5 * (count - queue.finished.length - 1) := by
        by_cases last : count ≤ queue.finished.length + 1
        · rw [due_eq_zero (longer.symm ▸ last)]
          exact Nat.zero_le _
        · have popsNext : (ended.setThread index .popping).live = [.popping] := alone .popping
          have atMost := due_le_of_live popsNext count
          simp only [Run.untilFinished, longer] at atMost
          omega
      exact dueNext
  | pop first => exact due_le_of_live (alone .testing) count
  | goOn waiting => exact due_le_of_live (alone .checking) count
  | stop noneLeft =>
      have all : queue.finished = queue.pushed := by simpa [Run.unfinished, noneLeft] using order
      rw [← all] at bound
      exact absurd bound finished

theorem due_moves {count : ℕ} (tended : queue.Tended push) (bound : count ≤ queue.pushed.length)
    (moves : queue.Moves push next after ran) :
    next.due count ≤ queue.due count - (if ran then 1 else 0) := by
  cases moves with
  | still => exact le_rfl
  | enter message => exact le_rfl
  | append _ => exact le_rfl
  | start empty =>
      cases empty with
      | false => exact le_rfl
      | true =>
          cases tended with
          | running _ _ _ notStarting _ => exact absurd rfl notStarting
          | idle noneLive _ _ _ _ =>
              have sameFinished : (queue.start true).finished = queue.finished := rfl
              simp [due, noneLive, live_start noneLive, sameFinished, Run.untilFinished]
  | run _ stepped => exact due_run tended bound stepped

end RunQueue

namespace RunQueues

variable {μ : Type u} {queues next : RunQueues μ}

theorem receiver_of_push? {port : Port} {push : Push μ} (pushes : queues.push? port = some push) :
    queues.receiver = some (port, push) := by
  unfold push? at pushes
  split at pushes
  · rename_i other otherPush receiver
    simp only [Option.ite_none_right_eq_some, Option.some_inj] at pushes
    rw [receiver, pushes.1, pushes.2]
  · cases pushes

/-- A step of the receiving thread in a `push_back` for one port. -/
theorem moves_receiver {target : Port} {queue : RunQueue μ} {before after : Option (Push μ)}
    (receiver : queues.receiver = before.map fun push => (target, push))
    (own : (queues.queue target).Moves before queue after false)
    (nextEq : next = { queues.setQueue target queue with
      receiver := after.map fun push => (target, push) }) (port : Port) :
    (queues.queue port).Moves (queues.push? port) (next.queue port) (next.push? port) false := by
  subst nextEq
  by_cases same : target = port
  · subst same
    have beforeEq : queues.push? target = before := by
      cases before <;> simp [push?, receiver]
    have afterEq : push? { queues.setQueue target queue with
        receiver := after.map fun push => (target, push) } target = after := by
      cases after <;> simp [push?]
    rw [beforeEq, afterEq]
    simpa [setQueue] using own
  · have beforeEq : queues.push? port = none := by
      cases before <;> simp [push?, receiver, same]
    have afterEq : push? { queues.setQueue target queue with
        receiver := after.map fun push => (target, push) } port = none := by
      cases after <;> simp [push?, same]
    rw [beforeEq, afterEq]
    simpa [setQueue, Ne.symm same] using RunQueue.Moves.still none

/-- A step without a race, as one port sees it. -/
theorem moves_of_step {action : RunAction μ} (excluded : queues.Excluded action)
    (stepped : queues.step action = some next) (port : Port) :
    (queues.queue port).Moves (queues.push? port) (next.queue port) (next.push? port)
      (action.isRunOf port) := by
  cases action with
  | pushBack target message =>
      simp only [step] at stepped
      split at stepped
      · rename_i receiver
        cases stepped
        exact moves_receiver receiver (.enter message) rfl port
      · cases stepped
  | append =>
      simp only [step] at stepped
      split at stepped
      · rename_i target message empty receiver
        cases stepped
        refine moves_receiver receiver (.append ?_) rfl port
        rintro rfl
        exact excluded target message receiver
      · cases stepped
  | start =>
      simp only [step] at stepped
      split at stepped
      · rename_i target empty receiver
        cases stepped
        exact moves_receiver receiver (.start empty) rfl port
      · cases stepped
  | run target index =>
      rcases Option.map_eq_some_iff.mp stepped with ⟨queue, ran, rfl⟩
      have samePush : (queues.setQueue target queue).push? port = queues.push? port := rfl
      rw [samePush]
      by_cases same : target = port
      · subst same
        have own : (queues.queue target).Moves (queues.push? target) queue (queues.push? target)
            true := by
          refine .run (fun testing noneLeft message pushes => ?_) ran
          exact excluded testing noneLeft message (receiver_of_push? pushes)
        simpa [setQueue, RunAction.isRunOf] using own
      · simpa [setQueue, Ne.symm same, same, RunAction.isRunOf] using RunQueue.Moves.still _

/-- Every queue is run by the threads that it needs. -/
def Tended (queues : RunQueues μ) : Prop :=
  ∀ port, (queues.queue port).Tended (queues.push? port)

theorem Tended.step {action : RunAction μ} (tended : queues.Tended)
    (excluded : queues.Excluded action) (stepped : queues.step action = some next) :
    next.Tended :=
  fun port => (tended port).moves (moves_of_step excluded stepped port)

/-- A run in which the threads of a port take the steps that are due finishes the messages. -/
theorem due_of_run (port : Port) {count : ℕ} {actions : List (RunAction μ)}
    (tended : queues.Tended) (bound : count ≤ (queues.queue port).pushed.length)
    (excluded : Transition.AllowedRun step Excluded actions queues)
    (finished : Transition.run step actions queues = some next) :
    next.Tended ∧ (queues.queue port).pushed <+: (next.queue port).pushed ∧
      (next.queue port).due count ≤
        (queues.queue port).due count - actions.countP (RunAction.isRunOf port) := by
  induction actions generalizing queues with
  | nil =>
      cases finished
      exact ⟨tended, List.prefix_rfl, le_rfl⟩
  | cons action rest ih =>
      rcases Option.bind_eq_some_iff.mp finished with ⟨middle, stepped, finished⟩
      have moves := moves_of_step excluded.1 stepped port
      have grown := RunQueue.pushed_moves moves
      have dueFirst := RunQueue.due_moves (tended port) bound moves
      rcases ih (tended.step excluded.1 stepped) (bound.trans grown.length_le)
        (excluded.2 middle stepped) finished with ⟨nextTended, restGrown, dueRest⟩
      refine ⟨nextTended, grown.trans restGrown, ?_⟩
      rw [List.countP_cons]
      omega

/--
Nothing is lost and the order is kept.  When no `push_back` is under way a queue has one thread
at most, and one when there is something in it.  The messages that handlers have been called
for are the first of those pushed, the next one is handled when the one before is finished,
and the rest are in the queue.  No thread finds the queue empty when it should not, and when the
threads have taken five steps for each message that is not finished, all that was pushed is.
-/
structure KeepsOrder (queues : RunQueues μ) (port : Port) : Prop where
  atMostOne : queues.receiver = none → (queues.queue port).live.length ≤ 1
  exactlyOne : queues.receiver = none → (queues.queue port).messages ≠ [] →
    (queues.queue port).live.length = 1
  inOrder : (queues.queue port).handled <+: (queues.queue port).pushed
  oneByOne : (queues.queue port).finished <+: (queues.queue port).handled ∧
    (queues.queue port).handled.length ≤ (queues.queue port).finished.length + 1
  kept : (queues.queue port).pushed.drop (queues.queue port).finished.length <:+
    (queues.queue port).messages
  asserted : ∀ thread ∈ (queues.queue port).threads, thread = .checking →
    (queues.queue port).messages ≠ []
  goesOn : ∀ index thread, (queues.queue port).threads[index]? = some thread →
    thread.isLive = true → ∃ next, queues.step (.run port index) = some next
  isHandled : ∀ actions next, Transition.AllowedRun step Excluded actions queues →
    Transition.run step actions queues = some next →
    5 * ((queues.queue port).pushed.length - (queues.queue port).finished.length) ≤
      actions.countP (RunAction.isRunOf port) →
    (queues.queue port).pushed <+: (next.queue port).finished

theorem Tended.keepsOrder (tended : queues.Tended) (port : Port) : queues.KeepsOrder port := by
  have own := tended port
  have noPush : queues.receiver = none → queues.push? port = none := by
    intro receiver
    simp [push?, receiver]
  constructor
  · intro receiver
    cases own with
    | idle noneLive => simp [noneLive]
    | running thread oneLive => simp [oneLive]
  · intro receiver waiting
    cases own with
    | idle _ _ _ starts _ => simp [noPush receiver, waiting] at starts
    | running thread oneLive => simp [oneLive]
  · exact own.handled_first
  · exact own.oneByOne
  · exact own.kept
  · rintro thread listed rfl
    exact (own.fits listed rfl).knows
  · intro index thread found isLive
    rcases own.goesOn found isLive with ⟨queue, ran⟩
    exact ⟨queues.setQueue port queue, by simp [RunQueues.step, ran]⟩
  · intro actions last excluded finished enough
    rcases due_of_run port tended le_rfl excluded finished with ⟨lastTended, grown, dueLast⟩
    have dueFirst := (queues.queue port).due_le (queues.queue port).pushed.length
    have allFinished := RunQueue.finished_of_due (lastTended port)
      (Nat.le_zero.mp (dueLast.trans (by omega)))
    have lastPrefix : (last.queue port).finished <+: (last.queue port).pushed :=
      (lastTended port).oneByOne.1.trans (lastTended port).handled_first
    exact List.prefix_of_prefix_length_le grown lastPrefix allFinished

/-- Where neither race is run, every queue keeps its messages and their order. -/
theorem keepsOrder_of_reachable {queues : RunQueues μ}
    (reached : Transition.Reachable step Excluded {} queues) (port : Port) :
    queues.KeepsOrder port := by
  have tended : queues.Tended := by
    refine reached.invariant Tended (fun port => ?_) Tended.step
    exact .idle rfl rfl rfl ⟨fun waiting => absurd rfl waiting, nofun⟩ nofun
  exact tended.keepsOrder port

/-- A second message comes while the thread of its port handles the first. -/
def busyPushRun : List (RunAction ℕ) :=
  [.pushBack 1 7, .append, .start, .run 1 0, .pushBack 1 8, .run 1 0, .append, .start]

theorem busyPushRun_keepsOrder :
    ∃ queues, Transition.run step busyPushRun ({} : RunQueues ℕ) = some queues ∧
      (queues.queue 1).messages = [7, 8] ∧ queues.KeepsOrder 1 := by
  have facts : (Transition.run step busyPushRun ({} : RunQueues ℕ)).map
      (fun queues => (queues.queue 1).messages) = some [7, 8] := rfl
  rcases Option.map_eq_some_iff.mp facts with ⟨queues, finished, waiting⟩
  refine ⟨queues, finished, waiting, keepsOrder_of_reachable
    (Transition.Reachable.start.of_run busyPushRun ?_ finished) 1⟩
  refine ⟨trivial, ?_⟩
  rintro _ ⟨⟩
  refine ⟨?_, ?_⟩
  · rintro port message ⟨⟩
    rfl
  rintro _ ⟨⟩
  refine ⟨trivial, ?_⟩
  rintro _ ⟨⟩
  refine ⟨nofun, ?_⟩
  rintro _ ⟨⟩
  refine ⟨trivial, ?_⟩
  rintro _ ⟨⟩
  refine ⟨nofun, ?_⟩
  rintro _ ⟨⟩
  refine ⟨?_, ?_⟩
  · rintro port message ⟨⟩
  rintro _ ⟨⟩
  exact ⟨trivial, fun _ _ => trivial⟩

/-- The thread pops the first message and stops when `push_back` has found it in the queue. -/
def strandingRun : List (RunAction ℕ) :=
  [.pushBack 1 7, .append, .start, .run 1 0, .run 1 0, .run 1 0, .pushBack 1 8, .run 1 0, .run 1 0,
    .append, .start]

/-- The thread has popped the first message when `push_back` looks, and looks again later. -/
def doublingRun : List (RunAction ℕ) :=
  [.pushBack 1 7, .append, .start, .run 1 0, .run 1 0, .run 1 0, .run 1 0, .pushBack 1 8, .append,
    .run 1 0, .start]

/-- A message stays in its queue for ever, and two threads are about to handle one message. -/
theorem races_not_keepsOrder :
    (∃ queues, Transition.run step strandingRun ({} : RunQueues ℕ) = some queues ∧
      ¬queues.KeepsOrder 1) ∧
    ∃ queues, Transition.run step doublingRun ({} : RunQueues ℕ) = some queues ∧
      ¬queues.KeepsOrder 1 := by
  constructor
  · have facts : (Transition.run step strandingRun ({} : RunQueues ℕ)).map
        (fun queues => (queues.receiver, (queues.queue 1).messages, (queues.queue 1).live)) =
          some (none, [8], []) := rfl
    rcases Option.map_eq_some_iff.mp facts with ⟨queues, finished, found⟩
    simp only [Prod.mk.injEq] at found
    rcases found with ⟨receiver, waiting, noneLive⟩
    refine ⟨queues, finished, fun keeps => ?_⟩
    have one := keeps.exactlyOne receiver
    rw [waiting, noneLive] at one
    cases one nofun
  · have facts : (Transition.run step doublingRun ({} : RunQueues ℕ)).map
        (fun queues => (queues.receiver, (queues.queue 1).live)) =
          some (none, [.checking, .checking]) := rfl
    rcases Option.map_eq_some_iff.mp facts with ⟨queues, finished, found⟩
    simp only [Prod.mk.injEq] at found
    rcases found with ⟨receiver, bothLive⟩
    refine ⟨queues, finished, fun keeps => ?_⟩
    have one := keeps.atMostOne receiver
    rw [bothLive] at one
    exact absurd one (by decide)

end RunQueues

end Hurd.Netmsg
