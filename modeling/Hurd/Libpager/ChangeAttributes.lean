import Hurd.Lib.Transition
import Hurd.Libpager.Threads

/-!
# Attribute changes

A synchronous `change_attributes` sends each client a request with a reply port of its own, and then
takes the replies one by one, with the pager lock released while it waits.  `drop_client` answers in
the place of a client, with a message on each reply port that has been recorded for it.  So there may
be two messages for one request, but the reply port goes with the first that is dealt with.

The handlers are those of `Hurd.Libpager.Threads`.  Any number of calls may be under way, each with
its port set; a reply port is known by its name, which is free again when the port is destroyed.
-/

namespace Hurd.Libpager

/-- `memory_object_change_attributes` -/
structure AttributeChange where
  client : MachPort
  mayCache : Bool
  copyStrategy : ℕ
  reply : Option MachPort

/-- A reply port of `change_attributes` -/
structure ReplyPort where
  /-- The client that has been sent a request with this port -/
  client : MachPort
  /-- The client has not replied yet. -/
  asked : Bool := true
  /-- The number of `m_o_change_completed` messages on the queue -/
  messages : ℕ := 0

/-- A synchronous `change_attributes` that waits for its replies -/
structure ChangeCall where
  portset : List MachPort
  locksOutstanding : ℕ
  /-- The port of the message that `mach_msg` has returned, until that is dealt with -/
  received : Option MachPort := none

/-- A pager, its threads, and the calls of `change_attributes` -/
structure Attributes (σ : Type) where
  handlers : Threads σ
  calls : ℕ → Option ChangeCall := fun _ => none
  ports : MachPort → Option ReplyPort := fun _ => none
  told : List AttributeChange := []

namespace Attributes

variable {σ : Type}

def requests (system : Attributes σ) : List OutstandingChangeRequest :=
  system.handlers.pager.outstandingChangeRequests.toList

def clients (system : Attributes σ) : OrdSet MachPort := system.handlers.pager.clients

/-- `outstanding_change_requests` is changed. -/
def setRequests (system : Attributes σ)
    (change : OrdSet OutstandingChangeRequest → OrdSet OutstandingChangeRequest) : Attributes σ :=
  { system with
    handlers := { system.handlers with
      pager := { system.handlers.pager with
        outstandingChangeRequests := change system.handlers.pager.outstandingChangeRequests } } }

def setCall (system : Attributes σ) (id : ℕ) (call : Option ChangeCall) : Attributes σ :=
  { system with calls := Function.update system.calls id call }

def setPort (system : Attributes σ) (reply : MachPort) (port : Option ReplyPort) : Attributes σ :=
  { system with ports := Function.update system.ports reply port }

def tell (system : Attributes σ) (change : AttributeChange) : Attributes σ :=
  { system with told := system.told ++ [change] }

/-- A message is put on the queue of a reply port. -/
def complete (ports : MachPort → Option ReplyPort) (reply : MachPort) : MachPort → Option ReplyPort :=
  Function.update ports reply
    ((ports reply).map fun port => { port with messages := port.messages + 1 })

/-- The reply ports that are sent an `m_o_change_completed` -/
def completed (events : List Event) : List MachPort :=
  events.filterMap fun
    | .changeCompleted reply => some reply
    | _ => none

/-- The loop of a `change_attributes` that does not wait -/
def tellEach (mayCache : Bool) (copyStrategy : ℕ) (system : Attributes σ) : Attributes σ :=
  system.clients.toList.foldl
    (fun system client => system.tell ⟨client, mayCache, copyStrategy, none⟩) system

/-- One client of a `change_attributes` that waits -/
def request (system : Attributes σ) (mayCache : Bool) (copyStrategy : ℕ) (client reply : MachPort) :
    Attributes σ :=
  let system := (system.setPort reply (some { client })).tell
    ⟨client, mayCache, copyStrategy, some reply⟩
  system.setRequests (·.insert ⟨client, reply⟩)

/-- The loop over the clients; `replies` are the names that `mach_port_allocate` returns. -/
def requestEach (mayCache : Bool) (copyStrategy : ℕ) :
    List MachPort → List MachPort → Attributes σ × ChangeCall → Option (Attributes σ × ChangeCall)
  | [], [], state => some state
  | client :: clients, reply :: replies, (system, call) =>
      if (system.ports reply).isSome then none
      else
        requestEach mayCache copyStrategy clients replies
          (system.request mayCache copyStrategy client reply,
            { call with
              portset := call.portset ++ [reply]
              locksOutstanding := call.locksOutstanding + 1 })
  | _, _, _ => none

/-- `change_attributes` up to where it releases the lock -/
def changeAttributes (system : Attributes σ) (id : ℕ) (mayCache : Bool) (copyStrategy : ℕ)
    (sync : Bool) (replies : List MachPort) : Option (Attributes σ) :=
  if sync then
    (requestEach mayCache copyStrategy system.clients.toList replies
        (system, { portset := [], locksOutstanding := 0 })).map fun (system, call) =>
      if call.locksOutstanding = 0 then system else system.setCall id (some call)
  else some (system.tellEach mayCache copyStrategy)

/-- The first request with a reply port is erased. -/
def eraseReply (reply : MachPort) (requests : OrdSet OutstandingChangeRequest) :
    OrdSet OutstandingChangeRequest :=
  match requests.toList.find? (·.reply = reply) with
  | some request => requests.erase request
  | none => requests

/-- A message has been received, and the lock has been taken again. -/
def changeCompleted (system : Attributes σ) (id : ℕ) (call : ChangeCall) (reply : MachPort) :
    Attributes σ :=
  let system := system.setRequests (eraseReply reply)
  let system := system.setPort reply none
  if call.locksOutstanding - 1 = 0 then system.setCall id none
  else
    system.setCall id (some
      { portset := call.portset.erase reply, locksOutstanding := call.locksOutstanding - 1 })

inductive Action
  /-- A handler does something. -/
  | handler (action : Threads.Action)
  /-- A new thread calls `change_attributes`. -/
  | call (id : ℕ) (mayCache : Bool) (copyStrategy : ℕ) (sync : Bool) (replies : List MachPort)
  /-- A client replies to its request. -/
  | answer (reply : MachPort)
  /-- `mach_msg` returns a message of a port in the port set. -/
  | receive (id : ℕ) (reply : MachPort)
  /-- The thread takes the lock again. -/
  | process (id : ℕ)

/-- `none` where the step cannot be taken, an assert fails or an exception is thrown. -/
def step [Pagemap σ] (system : Attributes σ) : Action → Option (Attributes σ)
  | .handler action =>
      (system.handlers.step action).map fun handlers =>
        { system with
          handlers := handlers
          ports := (completed (handlers.pager.sent.drop system.handlers.pager.sent.length)).foldl
            complete system.ports }
  | .call id mayCache copyStrategy sync replies =>
      match system.calls id with
      | some _ => none
      | none => system.changeAttributes id mayCache copyStrategy sync replies
  | .answer reply =>
      (system.ports reply).bind fun port =>
        if port.asked ∧ port.client ∈ system.clients then
          some (system.setPort reply
            (some { port with asked := false, messages := port.messages + 1 }))
        else none
  | .receive id reply =>
      (system.calls id).bind fun call =>
        (system.ports reply).bind fun port =>
          if call.received = none ∧ reply ∈ call.portset ∧ 0 < port.messages then
            some ((system.setPort reply (some { port with messages := port.messages - 1 })).setCall id
              (some { call with received := some reply }))
          else none
  | .process id =>
      (system.calls id).bind fun call =>
        call.received.map fun reply => system.changeCompleted id call reply

end Attributes

namespace SharedPager

variable {σ : Type} {pager middle next : SharedPager σ}

/-- The clients and their requests are as they were, and no request has been answered. -/
structure Bystands (pager next : SharedPager σ) : Prop where
  clients : next.clients = pager.clients
  requests : next.outstandingChangeRequests = pager.outstandingChangeRequests
  silent : ∃ events, next.sent = pager.sent ++ events ∧ Attributes.completed events = []

theorem Bystands.of_eq (clients : next.clients = pager.clients)
    (requests : next.outstandingChangeRequests = pager.outstandingChangeRequests)
    (sent : next.sent = pager.sent) : Bystands pager next :=
  ⟨clients, requests, [], by simp [sent], rfl⟩

theorem Bystands.refl (pager : SharedPager σ) : Bystands pager pager := .of_eq rfl rfl rfl

theorem Bystands.trans (first : Bystands pager middle) (second : Bystands middle next) :
    Bystands pager next := by
  rcases first.silent with ⟨earlier, isFirst, firstSilent⟩
  rcases second.silent with ⟨later, isSecond, secondSilent⟩
  refine ⟨second.clients.trans first.clients, second.requests.trans first.requests,
    earlier ++ later, ?_, ?_⟩
  · rw [isSecond, isFirst, List.append_assoc]
  · rw [Attributes.completed, List.filterMap_append]
    exact List.append_eq_nil_iff.mpr ⟨firstSilent, secondSilent⟩

theorem Bystands.emit (pager : SharedPager σ) {event : Event}
    (isSilent : Attributes.completed [event] = []) : Bystands pager (pager.emit event) :=
  ⟨rfl, rfl, [event], rfl, isSilent⟩

variable [Pagemap σ]

/-- What the routines for a page send names the page. -/
theorem Bystands.putPage (pager : SharedPager σ) (number : ℕ) (page : Page) :
    Bystands pager (pager.putPage number page) := by
  refine ⟨rfl, rfl, page.sent.map (pager.pageEvent number), rfl, ?_⟩
  apply List.filterMap_eq_nil_iff.mpr
  intro event isEvent
  rcases List.mem_map.mp isEvent with ⟨_, -, rfl⟩
  rfl

theorem Bystands.onTmp {Flag : Type} {number : ℕ} {part : Page → Option (Page × Flag)}
    {outcome : SharedPager σ × Flag} (done : pager.onTmp number part = some outcome) :
    Bystands pager outcome.1 := by
  rcases Option.map_eq_some_iff.mp done with ⟨⟨page, flag⟩, -, rfl⟩
  exact .putPage pager number page

theorem Bystands.onPage {Flag : Type} {number : ℕ} {part : Page → Option (Page × Flag)}
    {outcome : SharedPager σ × Flag} (done : pager.onPage number part = some outcome) :
    Bystands pager outcome.1 := by
  rcases Option.map_eq_some_iff.mp done with ⟨worked, isWorked, rfl⟩
  have loaded : Bystands pager (pager.load number) := .of_eq rfl rfl rfl
  have stored : Bystands worked.1 (worked.1.store number) := .of_eq rfl rfl rfl
  exact (loaded.trans (.onTmp isWorked)).trans stored

theorem Bystands.flagPass {Flag : Type} {part : ℕ → Page → Option (Page × Flag)} {number : ℕ}
    {state nextState : SharedPager σ × (ℕ → Flag)}
    (done : flagPass part number state = some nextState) : Bystands state.1 nextState.1 := by
  rcases Option.map_eq_some_iff.mp done with ⟨⟨worked, flag⟩, isWorked, rfl⟩
  have bystands := Bystands.onPage isWorked
  exact bystands

theorem Bystands.plainPass {part : ℕ → Page → Option Page} {number : ℕ}
    (done : plainPass part number pager = some next) : Bystands pager next := by
  rcases Option.map_eq_some_iff.mp done with ⟨⟨worked, flag⟩, isWorked, rfl⟩
  have bystands := Bystands.onPage isWorked
  exact bystands

omit [Pagemap σ] in
/-- A loop of passes that leave the clients alone -/
theorem Bystands.forEach {body : ℕ → SharedPager σ → Option (SharedPager σ)} {numbers : List ℕ}
    (passes : ∀ {number pager next}, body number pager = some next → Bystands pager next)
    (finished : Loop.forEach body numbers pager = some next) : Bystands pager next :=
  Loop.forEach_relation Bystands .refl .trans passes finished

omit [Pagemap σ] in
theorem Bystands.forEachFlag {Flag : Type}
    {body : ℕ → SharedPager σ × (ℕ → Flag) → Option (SharedPager σ × (ℕ → Flag))} {numbers : List ℕ}
    {state nextState : SharedPager σ × (ℕ → Flag)}
    (passes : ∀ {number state next}, body number state = some next → Bystands state.1 next.1)
    (finished : Loop.forEach body numbers state = some nextState) : Bystands state.1 nextState.1 :=
  Loop.forEach_relation (fun state next => Bystands state.1 next.1) (fun _ => .refl _) .trans passes
    finished

omit [Pagemap σ] in
theorem Bystands.storeLocks (pager : SharedPager σ) (key : LockKey)
    (locks : OrdMap MachPort OutstandingClientLock) : Bystands pager (pager.storeLocks key locks) := by
  unfold SharedPager.storeLocks
  split_ifs
  · exact (Bystands.emit pager rfl).trans (.of_eq rfl rfl rfl)
  · exact .of_eq rfl rfl rfl

theorem Bystands.internalLockCompleted {client : MachPort} {offset length : ℕ}
    {drop : Option (MachPort × Option LockKey)} {outcome : SharedPager σ × Option Thread}
    (done : pager.internalLockCompleted client offset length drop = some outcome) :
    Bystands pager outcome.1 := by
  unfold SharedPager.internalLockCompleted at done
  split_ifs at done
  · cases done
    exact .refl pager
  · rcases Option.map_eq_some_iff.mp done with ⟨state, finished, rfl⟩
    have bystands := Bystands.forEachFlag (fun {number state next} passed => ?_) finished
    · exact bystands
    have touched : Bystands state.1 (state.1.touch number) := .of_eq rfl rfl rfl
    simp only [lockCompletedPass] at passed
    split_ifs at passed
    · have bystands := Bystands.flagPass passed
      exact touched.trans bystands
    · cases passed
      exact touched

theorem Bystands.dataRequest {client : MachPort} {offset length : ℕ} {access : VmProt}
    {outcome : SharedPager σ × Option Thread}
    (done : pager.dataRequest client offset length access = some outcome) :
    Bystands pager outcome.1 := by
  unfold SharedPager.dataRequest at done
  split_ifs at done
  · cases done
    exact .refl pager
  · have loaded : Bystands pager (pager.load (offset / pager.pageSize)) := .of_eq rfl rfl rfl
    dsimp only at done
    split at done
    · rcases Option.map_eq_some_iff.mp done with ⟨state, isTmp, rfl⟩
      have bystands := Bystands.onTmp isTmp
      exact loaded.trans bystands
    · rcases Option.bind_eq_some_iff.mp done with ⟨⟨worked, stage⟩, isTmp, done⟩
      have stored : Bystands worked (worked.store (offset / pager.pageSize)) := .of_eq rfl rfl rfl
      have bystands := (loaded.trans (.onTmp isTmp)).trans stored
      dsimp only at done
      split at done
      · cases done
        exact bystands
      · exact bystands.trans (.internalLockCompleted done)
      · cases done
        exact bystands

theorem Bystands.lockCompleted {client : MachPort} {offset length : ℕ}
    {outcome : SharedPager σ × Option Thread}
    (done : pager.lockCompleted client offset length = some outcome) :
    Bystands pager outcome.1 := by
  rcases Option.bind_eq_some_iff.mp done with ⟨locks, -, done⟩
  rcases Option.bind_eq_some_iff.mp done with ⟨record, -, done⟩
  have stored := fun locks => Bystands.storeLocks pager (toLex (offset, length)) locks
  dsimp only at done
  split_ifs at done
  · exact (stored _).trans (.internalLockCompleted done)
  · cases done
    exact stored _
  · cases done
    exact stored _

theorem Bystands.dataUnlock {client : MachPort} {offset length : ℕ}
    {outcome : SharedPager σ × Option Thread}
    (done : pager.dataUnlock client offset length = some outcome) : Bystands pager outcome.1 := by
  unfold SharedPager.dataUnlock at done
  split_ifs at done
  · cases done
    exact .refl pager
  · rcases Option.map_eq_some_iff.mp done with ⟨state, finished, rfl⟩
    have bystands := Bystands.forEachFlag (fun {number state next} passed => ?_) finished
    · exact bystands
    rcases Option.bind_eq_some_iff.mp passed with ⟨⟨worked, doUnlock, flushes⟩, isWorked, passed⟩
    rcases Option.map_eq_some_iff.mp passed with ⟨⟨flushed, _⟩, isFlushed, rfl⟩
    have loaded : Bystands state.1 (state.1.load number) := .of_eq rfl rfl rfl
    have stored : Bystands flushed (flushed.store number) := .of_eq rfl rfl rfl
    have entered := Bystands.onTmp isWorked
    have flushing := Bystands.onTmp isFlushed
    exact ((loaded.trans entered).trans flushing).trans stored

omit [Pagemap σ] in
theorem Bystands.popFront (pager : SharedPager σ) (current : WritewaitEntry) :
    Bystands pager (pager.popFront current) :=
  (Bystands.emit pager rfl).trans (.of_eq rfl rfl rfl)

omit [Pagemap σ] in
theorem Bystands.serviceWritewait (entries : List WritewaitEntry) (pager : SharedPager σ) :
    Bystands pager (serviceWritewait entries pager).1 := by
  induction entries generalizing pager with
  | nil => exact .refl pager
  | cons current rest ih =>
      simp only [SharedPager.serviceWritewait]
      split_ifs
      · exact (Bystands.popFront pager current).trans (ih _)
      · exact .refl pager

theorem Bystands.afterWrites {current : WritewaitEntry} {pageouts : List ℕ} {results : Callbacks}
    {outcome : SharedPager σ × Option Thread}
    (done : pager.afterWrites current pageouts results = some outcome) :
    Bystands pager outcome.1 := by
  rcases Option.map_eq_some_iff.mp done with ⟨⟨worked, doNotify⟩, finished, rfl⟩
  have bystands := Bystands.forEachFlag Bystands.flagPass finished
  dsimp only at bystands ⊢
  split_ifs
  · exact bystands
  · exact (bystands.trans (.popFront worked current)).trans (.serviceWritewait _ _)

theorem Bystands.dataReturn {client : MachPort} {offset length : ℕ} {data : ℕ → ℕ}
    {dirty kernelCopy : Bool} {stale : ℕ → Bool} {outcome : SharedPager σ × Option Thread}
    (done : pager.dataReturn client offset data length dirty kernelCopy stale = some outcome) :
    Bystands pager outcome.1 := by
  unfold SharedPager.dataReturn at done
  split at done
  · cases done
  rcases Option.bind_eq_some_iff.mp done with ⟨⟨marked, flags⟩, finished, done⟩
  have bystands := Bystands.forEachFlag Bystands.flagPass finished
  have queued : Bystands marked { marked with
      writewait := marked.writewait ++ [⟨offset, data, length, kernelCopy⟩] } := .of_eq rfl rfl rfl
  dsimp only at bystands done
  split_ifs at done
  · cases done
    exact bystands
  · cases done
    exact (bystands.trans queued).trans (.serviceWritewait _ _)
  · cases done
    exact bystands.trans queued
  · cases done
    exact bystands

theorem Bystands.lockObject (pager : SharedPager σ) (offset length : ℕ)
    (shouldReturn : MemoryObjectReturn) (flush sync : Bool) :
    Bystands pager (pager.lockObject offset length shouldReturn flush sync).1 := by
  have passes : ∀ (numbers : List ℕ) (state : SharedPager σ × OrdSet MachPort),
      Bystands state.1
        (numbers.foldl (lockObjectPass (!flush && shouldReturn ≠ .all)) state).1 := by
    intro numbers
    induction numbers with
    | nil => exact fun state => .refl state.1
    | cons number rest ih =>
        intro state
        have touched : Bystands state.1
            (lockObjectPass (!flush && shouldReturn ≠ .all) state number).1 := .of_eq rfl rfl rfl
        exact touched.trans (ih _)
  have signals : ∀ (clients : List MachPort) (pager : SharedPager σ),
      Bystands pager (clients.foldl (signal offset length shouldReturn flush sync) pager) := by
    intro clients
    induction clients with
    | nil => exact .refl
    | cons client rest ih =>
        intro pager
        have signalled : Bystands pager
            (signal offset length shouldReturn flush sync pager client) := by
          unfold signal
          dsimp only
          split_ifs
          · exact (Bystands.emit pager rfl).trans (.of_eq rfl rfl rfl)
          · exact .emit pager rfl
        exact signalled.trans (ih _)
  exact (passes (pager.pagesOf offset length) (pager, ∅)).trans (signals _ _)

theorem Bystands.dropPass (control : MachPort) (pager : SharedPager σ) (number : ℕ) :
    Bystands pager (pager.dropPass control number) := by
  have reload : ∀ pager : SharedPager σ, Bystands pager ((pager.load number).store number) :=
    fun pager => .of_eq rfl rfl rfl
  have removed : ∀ page : Page,
      Bystands pager (((pager.load number).putPage number page).store number) := by
    intro page
    have loaded : Bystands pager (pager.load number) := .of_eq rfl rfl rfl
    have stored : Bystands ((pager.load number).putPage number page)
        (((pager.load number).putPage number page).store number) := .of_eq rfl rfl rfl
    exact (loaded.trans (.putPage _ number page)).trans stored
  unfold SharedPager.dropPass
  dsimp only
  split_ifs
  · exact (removed _).trans (reload _)
  · exact removed _
  · exact reload pager
  · exact .refl pager

/-- What becomes of the clients and of their requests while a handler has the lock -/
inductive Attends (pager next : SharedPager σ) : Prop
  | keeps (clients : ∀ client ∈ pager.clients, client ∈ next.clients)
      (requests : next.outstandingChangeRequests = pager.outstandingChangeRequests)
      (silent : ∃ events, next.sent = pager.sent ++ events ∧ Attributes.completed events = [])
  | drops (control : MachPort) (clients : next.clients = pager.clients.erase control)
      (requests : next.outstandingChangeRequests = pager.outstandingChangeRequests)
      (answers : ∃ events, next.sent = pager.sent ++ events ∧ Attributes.completed events =
        (pager.outstandingChangeRequests.toList.filter (·.client = control)).map
          OutstandingChangeRequest.reply)

omit [Pagemap σ] in
theorem Attends.requests (attends : Attends pager next) :
    next.outstandingChangeRequests = pager.outstandingChangeRequests := by
  cases attends with
  | keeps _ requests _ => exact requests
  | drops _ _ requests _ => exact requests

omit [Pagemap σ] in
theorem Bystands.attends (bystands : Bystands pager next) : Attends pager next :=
  .keeps (fun _ isClient => bystands.clients ▸ isClient) bystands.requests bystands.silent

omit [Pagemap σ] in
theorem Attends.after (bystands : Bystands pager middle) (attends : Attends middle next) :
    Attends pager next := by
  have joined : ∀ {replies : List MachPort},
      (∃ events, next.sent = middle.sent ++ events ∧ Attributes.completed events = replies) →
      ∃ events, next.sent = pager.sent ++ events ∧ Attributes.completed events = replies := by
    rintro _ ⟨later, isSecond, rfl⟩
    rcases bystands.silent with ⟨earlier, isFirst, silent⟩
    refine ⟨earlier ++ later, ?_, ?_⟩
    · rw [isSecond, isFirst, List.append_assoc]
    · rw [Attributes.completed, List.filterMap_append]
      exact congrArg (· ++ _) silent
  cases attends with
  | keeps clients requests silent =>
      refine .keeps ?_ (requests.trans bystands.requests) (joined silent)
      exact fun client isClient => clients client (bystands.clients ▸ isClient)
  | drops control clients requests answers =>
      refine .drops control ?_ (requests.trans bystands.requests) ?_
      · rw [clients, bystands.clients]
      · rw [← bystands.requests]
        exact joined answers

theorem Attends.dropPages (control : MachPort) (pager : SharedPager σ) :
    Attends pager (pager.dropPages control) := by
  have bystands : ∀ (numbers : List ℕ) (pager : SharedPager σ),
      Bystands pager (numbers.foldl (SharedPager.dropPass control) pager) := by
    intro numbers
    induction numbers with
    | nil => exact .refl
    | cons number rest ih => exact fun pager => (Bystands.dropPass control pager number).trans (ih _)
  refine .after (bystands (List.range (Pagemap.size pager.pagemap)) pager) ?_
  refine .drops control rfl rfl ⟨_, rfl, ?_⟩
  rw [Attributes.completed, List.filterMap_map]
  exact congrFun List.filterMap_eq_map _

theorem Attends.dropLocks {control : MachPort} {keys : List LockKey}
    {outcome : SharedPager σ × Option Thread}
    (done : dropLocks control keys pager = some outcome) : Attends pager outcome.1 := by
  induction keys generalizing pager with
  | nil =>
      cases done
      exact .dropPages control pager
  | cons key rest ih =>
      rcases Option.bind_eq_some_iff.mp done with ⟨locks, -, done⟩
      have stored := Bystands.storeLocks pager key (locks.erase control)
      dsimp only at done
      split_ifs at done
      · rcases Option.bind_eq_some_iff.mp done with ⟨⟨completed, thread⟩, isCompleted, done⟩
        have bystands := stored.trans (.internalLockCompleted isCompleted)
        cases thread with
        | some thread =>
            cases done
            exact bystands.attends
        | none => exact .after bystands (ih done)
      · exact .after stored (ih done)

/-- A handler is called. -/
theorem Attends.enter {stale : ℕ → Bool} {input : Input} {outcome : SharedPager σ × Option Thread}
    (done : pager.enter stale input = some outcome) : Attends pager outcome.1 := by
  cases input with
  | objectInit control pagesize =>
      simp only [SharedPager.enter, SharedPager.objectInit] at done
      split_ifs at done
      · cases done
        exact (Bystands.refl pager).attends
      · cases done
        refine .keeps ?_ rfl ⟨_, rfl, rfl⟩
        exact fun client isClient => OrdSet.mem_insert.mpr (.inr isClient)
  | dataRequest => exact (Bystands.dataRequest done).attends
  | dataUnlock => exact (Bystands.dataUnlock done).attends
  | dataReturn => exact (Bystands.dataReturn done).attends
  | lockCompleted => exact (Bystands.lockCompleted done).attends
  | objectTerminate => exact .dropLocks done
  | deadName => exact .dropLocks done
  | lockObject offset length shouldReturn flush sync =>
      cases done
      exact (Bystands.lockObject pager offset length shouldReturn flush sync).attends
  | shutdown =>
      cases done
      have bystands : Bystands pager { pager with terminating := true } := .of_eq rfl rfl rfl
      exact bystands.attends

/-- A thread takes the lock again. -/
theorem Attends.reenter {results : Callbacks} {resume : Resume}
    {outcome : SharedPager σ × Option Thread}
    (done : pager.reenter results resume = some outcome) : Attends pager outcome.1 := by
  cases resume with
  | pagein number =>
      rcases Option.map_eq_some_iff.mp done with ⟨next, passed, rfl⟩
      exact (Bystands.plainPass passed).attends
  | lockCompleted pages operation drop =>
      rcases Option.bind_eq_some_iff.mp done with ⟨next, finished, done⟩
      have bystands : Bystands pager next := by
        apply Bystands.forEach _ finished
        intro number before after passed
        unfold operationPass at passed
        split at passed
        · cases passed
          exact .refl before
        · exact .plainPass passed
        · exact .plainPass passed
      refine .after bystands ?_
      unfold SharedPager.resumeDrop at done
      split at done
      · cases done
        exact (Bystands.refl next).attends
      · cases done
        exact .dropPages _ next
      · split_ifs at done
        exact .dropLocks done
  | unlock pages doUnlock =>
      rcases Option.map_eq_some_iff.mp done with ⟨next, finished, rfl⟩
      have bystands : Bystands pager next := by
        apply Bystands.forEach _ finished
        intro number before after passed
        unfold unlockedPass at passed
        split_ifs at passed
        · exact .plainPass passed
        · cases passed
          exact .refl before
      exact bystands.attends
  | written current pageouts => exact (Bystands.afterWrites done).attends
  | notified current =>
      cases done
      exact ((Bystands.popFront pager current).trans (.serviceWritewait _ _)).attends
  | locksAnswered offset length =>
      cases done
      exact (Bystands.refl pager).attends
  | writesFinished =>
      cases done
      exact (Bystands.refl pager).attends

end SharedPager

/-- What becomes of the clients and of their requests in a step of the handlers -/
theorem Threads.step_attends {σ : Type} [Pagemap σ] {system next : Threads σ}
    {action : Threads.Action} (taken : system.step action = some next) :
    SharedPager.Attends system.pager next.pager := by
  cases action with
  | start id input stale =>
      simp only [Threads.step] at taken
      split at taken
      · cases taken
      · rcases Option.map_eq_some_iff.mp taken with ⟨outcome, done, rfl⟩
        have attends := SharedPager.Attends.enter done
        exact attends
  | call id =>
      rcases Option.bind_eq_some_iff.mp taken with ⟨thread, -, taken⟩
      split at taken
      · cases taken
        exact (SharedPager.Bystands.emit system.pager rfl).attends
      · cases taken
  | finish id returned =>
      rcases Option.bind_eq_some_iff.mp taken with ⟨thread, -, taken⟩
      rcases Option.map_eq_some_iff.mp taken with ⟨call, -, rfl⟩
      exact (SharedPager.Bystands.refl system.pager).attends
  | resume id =>
      rcases Option.bind_eq_some_iff.mp taken with ⟨thread, -, taken⟩
      split_ifs at taken
      rcases Option.map_eq_some_iff.mp taken with ⟨outcome, done, rfl⟩
      have attends := SharedPager.Attends.reenter done
      exact attends
  | share entry =>
      cases taken
      have bystands : SharedPager.Bystands system.pager { system.pager with
          pagemap := Pagemap.share system.pager.pagemap entry } := .of_eq rfl rfl rfl
      exact bystands.attends

end Hurd.Libpager
