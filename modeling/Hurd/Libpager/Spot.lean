import Hurd.Libpager.System

/-!
# One page of the system

`Spot` is what the pager and all kernels have of one page, and `Spot.Step` what a step of the
system does to it.  A message about another page leaves it alone, and the death of a kernel
reaches every page.  `System.invariant_of_reachable` lifts an invariant of the spots to every
state of a run of the system.
-/

namespace Hurd.Libpager

/-- The messages of a queue that are about a page. -/
def about {μ : Type} (number : ℕ) (queue : List (ℕ × μ)) : List μ :=
  queue.filterMap fun entry => if entry.1 = number then some entry.2 else none

section About

variable {μ : Type} (number : ℕ)

@[simp]
theorem about_nil : about number ([] : List (ℕ × μ)) = [] := rfl

@[simp]
theorem about_append (first second : List (ℕ × μ)) :
    about number (first ++ second) = about number first ++ about number second :=
  List.filterMap_append

theorem about_cons_self (message : μ) (rest : List (ℕ × μ)) :
    about number ((number, message) :: rest) = message :: about number rest := by
  simp [about]

theorem about_cons_of_ne {other : ℕ} (different : other ≠ number) (message : μ)
    (rest : List (ℕ × μ)) : about number ((other, message) :: rest) = about number rest := by
  simp [about, different]

theorem about_map_self (messages : List μ) :
    about number (messages.map fun message => (number, message)) = messages := by
  simp [about, List.filterMap_map]

theorem about_map_of_ne {other : ℕ} (different : other ≠ number) (messages : List μ) :
    about number (messages.map fun message => (other, message)) = [] := by
  simp [about, List.filterMap_map, different]

end About

/-- What a kernel has of a page, and the messages about it. -/
structure Link where
  up : List Report := []
  down : List Message := []
  page : KernelPage := {}
  alive : Bool := true
  dropped : Bool := false

def Kernel.link (kernel : Kernel) (number : ℕ) : Link where
  up := about number kernel.up
  down := about number kernel.down
  page := kernel.pages number
  alive := kernel.alive
  dropped := kernel.dropped

/-- What the pager and the kernels have of one page. -/
@[ext]
structure Spot where
  page : Page
  links : MachPort → Link
  store : ℕ
  newest : ℕ
  returned : ℕ

def System.spot (system : System) (number : ℕ) : Spot where
  page := system.pager.page number
  links client := (system.kernels client).link number
  store := system.store number
  newest := system.newest number
  returned := system.returned number

/-- The messages sent to a client so far. -/
def Page.told (page : Page) (client : MachPort) : List Message :=
  page.messages.filterMap fun entry => if entry.1 = client then some entry.2 else none

/-- The handlers of a page that a report can lead to. -/
inductive Report.Asks (client : MachPort) : Report → PageInput → Prop
  | request (write : Bool) : Asks client (.request write) (.dataRequest client write)
  | unlock (others : List MachPort) : Asks client .unlock (.dataUnlock client true others)
  | giveBack (version : ℕ) (dirty any : Bool) :
      Asks client (.giveBack version dirty) (.dataReturn client version dirty false any)
  | lockCompleted : Asks client .lockCompleted (.lockCompleted client)

namespace Spot

/-- Put the messages of a handler on the queues of the kernels that are not known to be dead. -/
def deliver (links : MachPort → Link) (page : Page) (client : MachPort) : Link :=
  if (links client).dropped then links client
  else { links client with down := (links client).down ++ page.told client }

/-- The store after a handler that has written `data?`. -/
def restore (store : ℕ) (results : PageCallbacks) : Option ℕ → ℕ
  | none => store
  | some data => if results.write = kernSuccess then data else store

/-- The newest version brought back, once a report has been handled. -/
def bringBack (returned : ℕ) : Report → ℕ
  | .giveBack version true => max returned version
  | _ => returned

/-- A step of the system as one page sees it, in runs whose handlers are all allowed. -/
inductive Step (allowed : Page → PageInput → PageCallbacks → Prop) (spot : Spot) : Spot → Prop
  | still : Step allowed spot spot
  | act {client : MachPort} {act : KernelAct} {page : KernelPage} {reports : List Report}
      (alive : (spot.links client).alive = true)
      (acted : (spot.links client).page.act (spot.newest + 1) act = some (page, reports)) :
      Step allowed spot { spot with
        links := Function.update spot.links client { spot.links client with
          page := page, up := (spot.links client).up ++ reports }
        newest := if act = .modify then spot.newest + 1 else spot.newest }
  | receive {client : MachPort} {message : Message} {rest : List Message}
      (alive : (spot.links client).alive = true)
      (first : (spot.links client).down = message :: rest) :
      Step allowed spot { spot with
        links := Function.update spot.links client { spot.links client with
          down := rest
          page := ((spot.links client).page.receive message).1
          up := (spot.links client).up ++ ((spot.links client).page.receive message).2 } }
  | die {client : MachPort} (alive : (spot.links client).alive = true) :
      Step allowed spot { spot with
        links := Function.update spot.links client { spot.links client with
          alive := false, page := { (spot.links client).page with copy := none } } }
  | handle {client : MachPort} {report : Report} {rest : List Report} {input : PageInput}
      {results : PageCallbacks} {next : Page}
      (first : (spot.links client).up = report :: rest) (asks : report.Asks client input)
      (reads : results.read.buffer = spot.store) (isAllowed : allowed spot.page input results)
      (handled : spot.page.handle input results = some next) :
      Step allowed spot {
        page := { next with sent := [] }
        links := deliver (Function.update spot.links client
          { spot.links client with up := rest }) next
        store := restore spot.store results (written? next.sent)
        newest := spot.newest
        returned := bringBack spot.returned report }
  | drop {client : MachPort} {results : PageCallbacks} {next : Page}
      (dead : (spot.links client).alive = false) (known : (spot.links client).dropped = false)
      (nothing : (spot.links client).up = []) (reads : results.read.buffer = spot.store)
      (isAllowed : allowed spot.page (.dropClient client) results)
      (handled : spot.page.handle (.dropClient client) results = some next) :
      Step allowed spot {
        page := { next with sent := [] }
        links := deliver (Function.update spot.links client
          { spot.links client with dropped := true, down := [] }) next
        store := restore spot.store results (written? next.sent)
        newest := spot.newest
        returned := spot.returned }

/-- A page that has sent nothing leaves the queues as they are. -/
theorem deliver_of_nil (links : MachPort → Link) {page : Page} (nothing : page.sent = []) :
    deliver links page = links := by
  funext client
  have silent : page.told client = [] := by simp [Page.told, Page.messages, nothing]
  simp [deliver, silent]

/-- What holds of a page between two handlers. -/
structure Idle (spot : Spot) : Prop where
  running : spot.page.terminating = false
  notPagingout : spot.page.entry.pagingout = false
  nothingSent : spot.page.sent = []

end Spot

namespace Pager

variable {pager next : Pager} {client : MachPort} {results : Callbacks} {number : ℕ}

theorem wantsWrite_access (write : Bool) :
    wantsWrite (if write then vmProtRead ||| vmProtWrite else vmProtRead) = write := by
  cases write <;> decide

/-- What the pager does with a report about a page: the page handles it, and no other page. -/
theorem handle_report {report : Report} (quiet : pager.Quiet)
    (running : pager.terminating = false)
    (handled : pager.handle (report.input client number pager.pageSize, results) = some next) :
    (∃ input, report.Asks client input ∧
        Reaches pager (report.input client number pager.pageSize) number input ∧
        (pager.page number).handle input (results number) = some (next.view number)) ∧
      ∀ other ≠ number, next.view other = pager.page other := by
  have noInternal : ({ pager with sent := [] } : Pager).NoInternalElsewhere :=
    quiet.noInternalElsewhere
  have onlyPage : ({ pager with sent := [] } : Pager).pagesOf (number * pager.pageSize)
      pager.pageSize = [number] := pager.pagesOf_page number
  have pageMem : number ∈ pager.pagesOf (number * pager.pageSize) pager.pageSize := by
    rw [pagesOf_page]
    exact List.mem_cons_self
  have aligned : number * pager.pageSize % pager.pageSize = 0 := Nat.mul_mod_left _ _
  have divided : number * pager.pageSize / pager.pageSize = number :=
    Nat.mul_div_cancel _ pager.pageSize_pos
  cases report with
  | request write =>
      have requested : ({ pager with sent := [] } : Pager).onPage number (fun page =>
          page.dataRequest client write (results number)) = some next := by
        simpa [Report.input, handle, dataRequest, running, divided, wantsWrite_access] using handled
      rcases Option.map_eq_some_iff.mp requested with ⟨page, pageRequested, rfl⟩
      refine ⟨⟨.dataRequest client write, .request write, ?_, ?_⟩,
        fun other different => view_setPage_of_ne _ _ _ different⟩
      · have reaches : Reaches pager (.dataRequest client (number * pager.pageSize) pager.pageSize
            (if write then vmProtRead ||| vmProtWrite else vmProtRead)) _ _ :=
          .dataRequest running aligned
        rwa [divided, wantsWrite_access] at reaches
      · have stored := view_setPage_self { pager with sent := [] } number page
        have constants := Page.dataRequest_constants pageRequested
        rw [stored, Page.rebase_eq_after (by exact constants)]
        exact pageRequested
  | unlock =>
      have done : ({ pager with sent := [] } : Pager).dataUnlock client (number * pager.pageSize)
          pager.pageSize results = some next := handled
      rcases dataUnlock_view done with ⟨_, ⟨ended, _⟩ | ⟨_, _, _, own, frame⟩⟩
      · rw [show pager.terminating = true from ended] at running
        cases running
      · rw [onlyPage] at own frame
        rcases own number List.mem_cons_self with ⟨others, othersFlushed, unlocked⟩
        have othersListed : ∀ other ∈ others, ∃ number,
            other ∈ (pager.pagemap number).accesslist := by
          intro other otherMem
          rcases othersFlushed other otherMem with ⟨later, -, -, -, isListed⟩
          exact ⟨later, isListed⟩
        have reaches : Reaches pager (.dataUnlock client (number * pager.pageSize) pager.pageSize)
            number (.dataUnlock client (number = number * pager.pageSize / pager.pageSize)
              others) := .dataUnlock others othersListed running aligned pageMem
        rw [divided, decide_eq_true rfl] at reaches unlocked
        refine ⟨⟨_, .unlock others, reaches, unlocked⟩, fun other different => ?_⟩
        exact frame other (by simpa using different)
  | giveBack version dirty =>
      have noneQueued : ({ pager with sent := [] } : Pager).writewait = [] := quiet.writewait
      have done : ({ pager with sent := [] } : Pager).dataReturn client (number * pager.pageSize)
          (fun _ => version) pager.pageSize dirty false results = some next := handled
      rcases dataReturn_view (fun _ => noneQueued) done with ⟨_, _, _, ⟨any, -, own⟩, -, frame⟩
      rw [onlyPage] at own frame
      have returned := own number List.mem_cons_self fun _ => matchesPage_single _ number
      refine ⟨⟨_, .giveBack version dirty any, .dataReturn any aligned pageMem fun _ =>
        matchesPage_single _ number, returned⟩,
        fun other different => ?_⟩
      exact frame other (by simpa using different)
  | lockCompleted =>
      have done : ({ pager with sent := [] } : Pager).lockCompleted client
          (number * pager.pageSize) pager.pageSize results = some next := handled
      rcases lockCompleted_view noInternal done with
        ⟨_, _, ⟨other, keyEq, own, frame⟩ | ⟨notPage, _⟩⟩
      · rcases pager.pageKey_injective (by exact keyEq) with rfl
        exact ⟨⟨_, .lockCompleted, .lockCompleted, own⟩, frame⟩
      · exact absurd rfl (notPage number)

end Pager

namespace System

variable {system next : System} {number : ℕ}

/-- The link to a kernel of which one page has changed. -/
theorem link_setKernel (system : System) (client other : MachPort) (kernel : Kernel) :
    ((system.setKernel client kernel).kernels other).link number =
      Function.update (fun other => (system.kernels other).link number) client
        (kernel.link number) other := by
  by_cases same : other = client
  · subst same
    simp [setKernel]
  · simp [setKernel, same]

/-- A kernel writes about one page. -/
theorem link_write (kernel : Kernel) (changed : ℕ) (page : KernelPage) (reports : List Report)
    (queue : List (ℕ × Message)) :
    ({ kernel with
        down := queue
        pages := Function.update kernel.pages changed page
        up := kernel.up ++ reports.map fun report => (changed, report) } : Kernel).link number =
      if number = changed then
        { kernel.link number with
          down := about number queue, page, up := about number kernel.up ++ reports }
      else { kernel.link number with down := about number queue } := by
  split_ifs with same
  · subst same
    simp [Kernel.link, about_map_self]
  · simp [Kernel.link, about_map_of_ne number (Ne.symm same), same]

theorem spot_act {client : MachPort} {changed : ℕ} {act : KernelAct}
    (taken : system.step (.act client changed act) = some next)
    (allowed : Page → PageInput → PageCallbacks → Prop) :
    Spot.Step allowed (system.spot number) (next.spot number) := by
  simp only [step] at taken
  by_cases alive : (system.kernels client).alive = true
  · rw [if_pos alive] at taken
    rcases Option.map_eq_some_iff.mp taken with ⟨⟨page, reports⟩, acted, rfl⟩
    have linkEq : Kernel.link _ number = _ := link_write (system.kernels client) changed page
      reports (system.kernels client).down
    by_cases same : number = changed
    · subst same
      rw [if_pos rfl] at linkEq
      have stepped : Spot.Step allowed (system.spot number) _ := .act alive acted
      convert stepped using 1
      ext1
      · rfl
      · funext other
        refine (link_setKernel system client other _).trans ?_
        rw [linkEq]
        rfl
      · rfl
      · exact Function.update_self _ _ _
      · rfl
    · rw [if_neg same] at linkEq
      have stepped : Spot.Step allowed (system.spot number) _ := .still
      convert stepped using 1
      ext1
      · rfl
      · funext other
        refine (link_setKernel system client other _).trans ?_
        rw [linkEq]
        exact congrFun (Function.update_eq_self _ _) other
      · rfl
      · exact Function.update_of_ne same _ _
      · rfl
  · rw [if_neg alive] at taken
    cases taken

theorem spot_receive {client : MachPort} (taken : system.step (.receive client) = some next)
    (allowed : Page → PageInput → PageCallbacks → Prop) :
    Spot.Step allowed (system.spot number) (next.spot number) := by
  simp only [step] at taken
  cases queue : (system.kernels client).down with
  | nil =>
      rw [queue] at taken
      cases taken
  | cons entry rest =>
      rcases entry with ⟨changed, message⟩
      rw [queue] at taken
      simp only [Option.ite_none_right_eq_some, Option.some_inj] at taken
      rcases taken with ⟨alive, rfl⟩
      have linkEq : Kernel.link _ number = _ := link_write (system.kernels client) changed
        (((system.kernels client).pages changed).receive message).1
        (((system.kernels client).pages changed).receive message).2 rest
      by_cases same : number = changed
      · subst same
        rw [if_pos rfl] at linkEq
        have first : ((system.spot number).links client).down = message :: about number rest := by
          rw [← about_cons_self, ← queue]
          rfl
        have stepped : Spot.Step allowed (system.spot number) _ := .receive (by exact alive) first
        convert stepped using 1
        ext1
        · rfl
        · funext other
          refine (link_setKernel system client other _).trans ?_
          rw [linkEq]
          rfl
        · rfl
        · rfl
        · rfl
      · rw [if_neg same] at linkEq
        have sameDown : about number rest = about number (system.kernels client).down := by
          rw [queue, about_cons_of_ne number (Ne.symm same)]
        have stepped : Spot.Step allowed (system.spot number) _ := .still
        convert stepped using 1
        ext1
        · rfl
        · funext other
          refine (link_setKernel system client other _).trans ?_
          rw [linkEq, sameDown]
          exact congrFun (Function.update_eq_self _ _) other
        · rfl
        · rfl
        · rfl

theorem spot_die {client : MachPort} (taken : system.step (.die client) = some next)
    (allowed : Page → PageInput → PageCallbacks → Prop) :
    Spot.Step allowed (system.spot number) (next.spot number) := by
  simp only [step, Option.ite_none_right_eq_some, Option.some_inj] at taken
  rcases taken with ⟨alive, rfl⟩
  have stepped : Spot.Step allowed (system.spot number) _ := .die (by exact alive)
  convert stepped using 1
  ext1
  · rfl
  · funext other
    exact (link_setKernel system client other _).trans rfl
  · rfl
  · rfl
  · rfl

/-- The messages of a handler about a page are those its page handler has sent. -/
theorem about_messagesTo (pager : Pager) (client : MachPort) (number : ℕ) :
    about number (messagesTo client pager.sent) = (pager.view number).told client := by
  have collected : ∀ sent : List Event, about number (messagesTo client sent) =
      ((Pager.eventsOf number sent).filterMap PageEvent.message?).filterMap
        fun entry => if entry.1 = client then some entry.2 else none := by
    intro sent
    induction sent with
    | nil => rfl
    | cons event rest ih =>
        cases event with
        | page other event =>
            by_cases same : other = number
            · subst same
              cases message? : event.message? with
              | none => simpa [messagesTo, Pager.eventsOf, message?] using ih
              | some entry =>
                  by_cases toClient : entry.1 = client
                  · simpa [messagesTo, Pager.eventsOf, message?, toClient, about] using ih
                  · simpa [messagesTo, Pager.eventsOf, message?, toClient, about] using ih
            · cases message? : event.message? with
              | none => simpa [messagesTo, Pager.eventsOf, message?, same] using ih
              | some entry =>
                  by_cases toClient : entry.1 = client
                  · simpa [messagesTo, Pager.eventsOf, message?, toClient, about, same] using ih
                  · simpa [messagesTo, Pager.eventsOf, message?, toClient, about, same] using ih
        | lockRequest => exact ih
        | ready => exact ih
        | changeCompleted => exact ih
        | wakeLockWaiters => exact ih
        | wakeWriteWaiters => exact ih
  exact collected pager.sent

/-- What a handler puts on the queues, as one page sees it. -/
theorem spot_deliver (system : System) (results : Callbacks) (pager : Pager) (number : ℕ) :
    (system.deliver results pager).spot number =
      { page := pager.page number
        links := Spot.deliver (fun client => (system.kernels client).link number)
          (pager.view number)
        store := Spot.restore (system.store number) (results number)
          (written? (pager.view number).sent)
        newest := system.newest number
        returned := system.returned number } := by
  ext1
  · rfl
  · funext client
    by_cases dropped : (system.kernels client).dropped = true
    · simp [spot, deliver, Spot.deliver, Kernel.link, dropped]
    · simp [spot, deliver, Spot.deliver, Kernel.link, dropped, about_messagesTo]
  · simp only [spot, deliver, Spot.restore]
    rfl
  · rfl
  · rfl

/-- Every handler of a page that a step runs is allowed. -/
def Allows (allowed : Page → PageInput → PageCallbacks → Prop) (system : System)
    (action : Action) : Prop :=
  ∀ input, system.incoming? action = some input → ∀ number pageInput,
    system.pager.Reaches input.1 number pageInput →
      allowed (system.pager.page number) pageInput (input.2 number)

variable {allowed : Page → PageInput → PageCallbacks → Prop}

theorem respond_cases {action : Action} (taken : system.respond action = some next) :
    ∃ input pager, system.incoming? action = some input ∧
      system.pager.handle input = some pager ∧
      next = (system.take action).deliver input.2 pager := by
  rcases Option.bind_eq_some_iff.mp taken with ⟨input, incoming, delivered⟩
  rcases Option.map_eq_some_iff.mp delivered with ⟨pager, handled, rfl⟩
  exact ⟨input, pager, incoming, handled, rfl⟩

theorem spot_handle {client : MachPort} {results : Callbacks} (quiet : system.pager.Quiet)
    (running : system.pager.terminating = false)
    (allows : system.Allows allowed (.handle client results))
    (taken : system.step (.handle client results) = some next) :
    Spot.Step allowed (system.spot number) (next.spot number) := by
  rcases respond_cases taken with ⟨input, pager, incoming, handled, rfl⟩
  have isReport := incoming
  simp only [incoming?] at isReport
  cases queue : (system.kernels client).up with
  | nil =>
      rw [queue] at isReport
      cases isReport
  | cons entry rest =>
      rcases entry with ⟨changed, report⟩
      rw [queue] at isReport
      cases isReport
      rcases Pager.handle_report quiet running handled with
        ⟨⟨input, asks, reaches, pageHandled⟩, frame⟩
      rw [spot_deliver]
      by_cases same : number = changed
      · subst same
        have first : ((system.spot number).links client).up = report :: about number rest := by
          rw [← about_cons_self, ← queue]
          rfl
        have stepped : Spot.Step allowed (system.spot number) _ :=
          .handle first asks rfl (allows _ incoming number input reaches) pageHandled
        convert stepped using 1
        ext1
        · rfl
        · have links : (fun other => ((system.take (.handle client results)).kernels other).link
              number) = Function.update (system.spot number).links client
                { (system.spot number).links client with up := about number rest } := by
            funext other
            simp only [take, queue]
            exact (link_setKernel system client other _).trans rfl
          exact congrArg (Spot.deliver · (pager.view number)) links
        · simp only [take, queue]
          rfl
        · simp only [take, queue]
          rfl
        · simp only [take, queue]
          cases report with
          | giveBack version dirty =>
              cases dirty with
              | true => exact Function.update_self _ _ _
              | false => rfl
          | request => rfl
          | unlock => rfl
          | lockCompleted => rfl
      · have stepped : Spot.Step allowed (system.spot number) _ := .still
        have nothing : (pager.view number).sent = [] := by
          rw [frame number same]
          rfl
        convert stepped using 1
        ext1
        · exact (congrArg (fun page : Page => { page with sent := [] }) (frame number same)).trans rfl
        · simp only
          rw [Spot.deliver_of_nil _ nothing]
          funext other
          simp only [take, queue]
          refine (link_setKernel system client other _).trans ?_
          have sameLink : ({ system.kernels client with up := rest } : Kernel).link number =
              (system.kernels client).link number := by
            simp only [Kernel.link, queue, about_cons_of_ne number (Ne.symm same)]
          rw [sameLink]
          exact congrFun (Function.update_eq_self _ _) other
        · simp only
          rw [nothing]
          simp only [take, queue]
          rfl
        · simp only [take, queue]
          rfl
        · simp only [take, queue]
          cases report with
          | giveBack version dirty =>
              cases dirty with
              | true => exact Function.update_of_ne same _ _
              | false => rfl
          | request => rfl
          | unlock => rfl
          | lockCompleted => rfl

theorem spot_notice {client : MachPort} {results : Callbacks} (quiet : system.pager.Quiet)
    (allows : system.Allows allowed (.notice client results))
    (taken : system.step (.notice client results) = some next) :
    Spot.Step allowed (system.spot number) (next.spot number) := by
  rcases respond_cases taken with ⟨input, pager, incoming, handled, rfl⟩
  have isNotice := incoming
  simp only [incoming?, Option.ite_none_right_eq_some, Option.some_inj] at isNotice
  rcases isNotice with ⟨⟨dead, known, nothing⟩, rfl⟩
  have noInternal : ({ system.pager with sent := [] } : Pager).NoInternalElsewhere :=
    quiet.noInternalElsewhere
  have done : ({ system.pager with sent := [] } : Pager).dropClient client
      (system.callbacks results) = some pager := handled
  rcases Pager.dropClient_view noInternal done with ⟨-, -, -, -, -, views⟩
  have noReports : ((system.spot number).links client).up = [] := by
    simp [spot, Kernel.link, nothing]
  rw [spot_deliver]
  have stepped : Spot.Step allowed (system.spot number) _ :=
    .drop dead known noReports rfl (allows _ incoming number _ (.deadName number)) (views number)
  convert stepped using 1
  ext1
  · rfl
  · have links : (fun other => ((system.take (.notice client results)).kernels other).link
        number) = Function.update (system.spot number).links client
          { (system.spot number).links client with dropped := true, down := [] } := by
      funext other
      exact (link_setKernel system client other _).trans rfl
    exact congrArg (Spot.deliver · (pager.view number)) links
  · rfl
  · rfl
  · rfl

theorem spot_init {client : MachPort} (taken : system.step (.init client) = some next) :
    next.spot number = system.spot number := by
  rcases respond_cases taken with ⟨input, pager, incoming, handled, rfl⟩
  cases incoming
  have viewEq : pager.view number = system.pager.page number := by
    simp only [Pager.handle, Pager.objectInit, ne_eq, not_true_eq_false, if_false] at handled
    split_ifs at handled
    · cases handled
      rfl
    · cases handled
      exact Pager.view_emit _ number rfl
  have nothing : (pager.view number).sent = [] := by
    rw [viewEq]
    rfl
  rw [spot_deliver, Spot.deliver_of_nil _ nothing, nothing]
  ext1
  · exact (congrArg (fun page : Page => { page with sent := [] }) viewEq).trans rfl
  · rfl
  · rfl
  · rfl
  · rfl

/-- What the pager is asked for is no shutdown. -/
theorem incoming?_ne_shutdown {action : Action} {input : Input × Callbacks}
    (incoming : system.incoming? action = some input) : input.1 ≠ .shutdown := by
  cases action with
  | init client =>
      cases incoming
      exact nofun
  | handle client results =>
      simp only [incoming?] at incoming
      split at incoming
      · cases incoming
      · rename_i report rest queue
        cases incoming
        cases report <;> exact nofun
  | notice client results =>
      simp only [incoming?, Option.ite_none_right_eq_some, Option.some_inj] at incoming
      rcases incoming with ⟨-, rfl⟩
      exact nofun
  | act => cases incoming
  | receive => cases incoming
  | die => cases incoming

/-- What the pager is asked for is about one page at a time. -/
theorem writesEach_of_incoming {action : Action} {input : Input × Callbacks}
    (incoming : system.incoming? action = some input) : system.pager.WritesEach input.1 := by
  cases action with
  | init client =>
      cases incoming
      trivial
  | handle client results =>
      simp only [incoming?] at incoming
      split at incoming
      · cases incoming
      · rename_i number report rest queue
        cases incoming
        cases report with
        | giveBack version dirty =>
            cases dirty with
            | false => trivial
            | true =>
                intro other isPage
                rw [Pager.pagesOf_page, List.mem_singleton] at isPage
                rw [isPage]
                exact Pager.matchesPage_single _ number
        | _ => trivial
  | notice client results =>
      simp only [incoming?, Option.ite_none_right_eq_some, Option.some_inj] at incoming
      rcases incoming with ⟨-, rfl⟩
      trivial
  | act => cases incoming
  | receive => cases incoming
  | die => cases incoming

/-- What holds between two steps of the system. -/
structure Idle (system : System) : Prop where
  quiet : system.pager.Quiet
  running : system.pager.terminating = false
  notPagingout : ∀ number, (system.pager.pagemap number).pagingout = false

theorem Idle.spot (idle : system.Idle) (number : ℕ) : (system.spot number).Idle :=
  ⟨idle.running, idle.notPagingout number, rfl⟩

/-- A step that runs a handler. -/
theorem idle_deliver {action : Action} {input : Input × Callbacks} {pager : Pager}
    (idle : system.Idle) (incoming : system.incoming? action = some input)
    (handled : system.pager.handle input = some pager) :
    ((system.take action).deliver input.2 pager).Idle := by
  rcases Pager.handle_view idle.quiet handled with ⟨quiet, -, running, projects⟩
  refine ⟨quiet, (running (incoming?_ne_shutdown incoming)).trans idle.running, fun number => ?_⟩
  exact (projects number).pagingout (writesEach_of_incoming incoming) (idle.notPagingout number)

/-- A step of the system is a step of every page. -/
theorem spot_step {action : Action} (idle : system.Idle) (allows : system.Allows allowed action)
    (taken : system.step action = some next) :
    next.Idle ∧ ∀ number, Spot.Step allowed (system.spot number) (next.spot number) := by
  cases action with
  | init client =>
      refine ⟨?_, fun number => ?_⟩
      · rcases respond_cases taken with ⟨input, pager, incoming, handled, rfl⟩
        exact idle_deliver idle incoming handled
      · rw [spot_init taken]
        exact .still
  | act client number act =>
      refine ⟨?_, fun number => spot_act taken allowed⟩
      simp only [step] at taken
      split at taken
      · rcases Option.map_eq_some_iff.mp taken with ⟨_, _, rfl⟩
        exact ⟨idle.quiet, idle.running, idle.notPagingout⟩
      · cases taken
  | receive client =>
      refine ⟨?_, fun number => spot_receive taken allowed⟩
      simp only [step] at taken
      split at taken
      · cases taken
      · simp only [Option.ite_none_right_eq_some, Option.some_inj] at taken
        rcases taken with ⟨_, rfl⟩
        exact ⟨idle.quiet, idle.running, idle.notPagingout⟩
  | die client =>
      refine ⟨?_, fun number => spot_die taken allowed⟩
      simp only [step, Option.ite_none_right_eq_some, Option.some_inj] at taken
      rcases taken with ⟨_, rfl⟩
      exact ⟨idle.quiet, idle.running, idle.notPagingout⟩
  | handle client results =>
      refine ⟨?_, fun number => spot_handle idle.quiet idle.running allows taken⟩
      rcases respond_cases taken with ⟨input, pager, incoming, handled, rfl⟩
      exact idle_deliver idle incoming handled
  | notice client results =>
      refine ⟨?_, fun number => spot_notice idle.quiet allows taken⟩
      rcases respond_cases taken with ⟨input, pager, incoming, handled, rfl⟩
      exact idle_deliver idle incoming handled

/-- A pager with no clients yet. -/
def create (pageSize : ℕ) (pageSize_pos : 0 < pageSize) (mayCache : Bool) (copyStrategy : ℕ)
    (notifyOnEvict : Bool) : System where
  pager := Pager.create pageSize pageSize_pos mayCache copyStrategy notifyOnEvict

/-- What every page keeps in every allowed step holds of every page in every state reached. -/
theorem invariant_of_reachable {pageSize : ℕ} {pageSize_pos : 0 < pageSize} {mayCache : Bool}
    {copyStrategy : ℕ} {notifyOnEvict : Bool} (invariant : Spot → Prop)
    (initially : ∀ number,
      invariant ((create pageSize pageSize_pos mayCache copyStrategy notifyOnEvict).spot number))
    (preserved : ∀ {spot next : Spot}, spot.Idle → invariant spot → Spot.Step allowed spot next →
      invariant next)
    (reached : Transition.Reachable step (Allows allowed)
      (create pageSize pageSize_pos mayCache copyStrategy notifyOnEvict) system) :
    system.Idle ∧ ∀ number, invariant (system.spot number) := by
  refine reached.invariant (fun system => system.Idle ∧ ∀ number, invariant (system.spot number))
    ⟨⟨Pager.create_quiet _ _ _ _ _, rfl, fun _ => rfl⟩, initially⟩ ?_
  rintro state next action ⟨idle, holds⟩ allows taken
  rcases spot_step idle allows taken with ⟨nextIdle, steps⟩
  exact ⟨nextIdle, fun number => preserved (idle.spot number) (holds number) (steps number)⟩

end System

end Hurd.Libpager
