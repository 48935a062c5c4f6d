import Hurd.Libpager.Projection

/-!
# A pager and its clients

The clients of a pager are kernels.  A kernel asks for a page when it holds no copy of it,
asks to unlock a page that it holds for reading, writes only a page that it holds for
writing, may throw a copy away whenever it likes and may die.  It answers a flush by giving
back a copy that is dirty or precious, dropping it, and completing the lock.  Messages travel
in order, one queue to the pager and one from it for each kernel, and the pager handles one
message at a time; the notice that a kernel has died comes after its last message.

The contents of a page are versions.  `store` is what the backing store has, which
`pager_read_page` reads and a `pager_write_page` that succeeds replaces; `newest` counts the
versions made so far, and `returned` is the newest that a dirty `data_return` has brought back.
-/

namespace Hurd.Libpager

def vmProtRead : VmProt := 1

/-- The copy of a page that a kernel holds. -/
structure Copy where
  version : ℕ
  write : Bool
  dirty : Bool := false
  precious : Bool := false
deriving DecidableEq

/-- The question about a page that a kernel waits for an answer to. -/
inductive Pending
  | none
  | request
  | unlock
deriving DecidableEq

/-- An answer to `question` has come. -/
def Pending.settle (pending question : Pending) : Pending :=
  if pending = question then .none else pending

/-- A page as a kernel has it. -/
structure KernelPage where
  copy : Option Copy := none
  pending : Pending := .none
deriving DecidableEq

/-- A message of a kernel about a page. -/
inductive Report
  | request (write : Bool)
  | unlock
  | giveBack (version : ℕ) (dirty : Bool)
  | lockCompleted
deriving DecidableEq

/-- What a kernel does of its own accord. -/
inductive KernelAct
  | request (write : Bool)
  | unlock
  | modify
  | evict
deriving DecidableEq

namespace KernelPage

/-- The copy that is dropped goes back to the pager when it is dirty or precious. -/
def giveBack (page : KernelPage) : List Report :=
  match page.copy with
  | none => []
  | some copy => if copy.dirty || copy.precious then [.giveBack copy.version copy.dirty] else []

/-- The page after the act, and what the kernel reports; `fresh` is a new version. -/
def act (page : KernelPage) (fresh : ℕ) : KernelAct → Option (KernelPage × List Report)
  | .request write =>
      if page.copy = none ∧ page.pending = .none then
        some ({ page with pending := .request }, [.request write])
      else none
  | .unlock =>
      match page.copy with
      | none => none
      | some copy =>
          if copy.write = false ∧ page.pending = .none then
            some ({ page with pending := .unlock }, [.unlock])
          else none
  | .modify =>
      match page.copy with
      | none => none
      | some copy =>
          if copy.write then
            some ({ page with copy := some { copy with version := fresh, dirty := true } }, [])
          else none
  | .evict =>
      match page.copy with
      | none => none
      | some _ => some ({ copy := none, pending := page.pending.settle .unlock }, page.giveBack)

/-- The page after a message of the pager, and what the kernel reports. -/
def receive (page : KernelPage) : Message → KernelPage × List Report
  | .supply data write precious =>
      ({ copy := some (page.copy.getD { version := data, write, precious }),
         pending := page.pending.settle .request }, [])
  | .error => ({ page with pending := page.pending.settle .request }, [])
  | .flush =>
      ({ copy := none, pending := page.pending.settle .unlock }, page.giveBack ++ [.lockCompleted])
  | .grant =>
      ({ copy := page.copy.map fun copy => { copy with write := true },
         pending := page.pending.settle .unlock }, [])

end KernelPage

/-- The message that a report is to the pager. -/
def Report.input (client : MachPort) (number pageSize : ℕ) : Report → Input
  | .request write =>
      .dataRequest client (number * pageSize) pageSize
        (if write then vmProtRead ||| vmProtWrite else vmProtRead)
  | .unlock => .dataUnlock client (number * pageSize) pageSize
  | .giveBack version dirty =>
      .dataReturn client (number * pageSize) (fun _ => version) pageSize dirty false
  | .lockCompleted => .lockCompleted client (number * pageSize) pageSize

/-- A client of the pager, with the messages under way in both directions. -/
structure Kernel where
  up : List (ℕ × Report) := []
  down : List (ℕ × Message) := []
  pages : ℕ → KernelPage := fun _ => {}
  alive : Bool := true
  /-- The pager has been told that the kernel is dead. -/
  dropped : Bool := false

structure System where
  pager : Pager
  kernels : MachPort → Kernel := fun _ => {}
  store : ℕ → ℕ := fun _ => 0
  newest : ℕ → ℕ := fun _ => 0
  returned : ℕ → ℕ := fun _ => 0

/-- A step of the system. -/
inductive Action
  | init (client : MachPort)
  | act (client : MachPort) (number : ℕ) (act : KernelAct)
  | receive (client : MachPort)
  | die (client : MachPort)
  /-- The pager handles the next message of the client. -/
  | handle (client : MachPort) (results : Callbacks)
  /-- The pager is told that the client has died. -/
  | notice (client : MachPort) (results : Callbacks)

/-- The messages to a client among the events of a handler. -/
def messagesTo (client : MachPort) (sent : List Event) : List (ℕ × Message) :=
  sent.filterMap fun
    | .page number event =>
        match event.message? with
        | some (other, message) => if other = client then some (number, message) else none
        | none => none
    | _ => none

/-- The contents that a handler has written for a page. -/
def written? (events : List PageEvent) : Option ℕ :=
  events.findSome? fun
    | .writePage data => some data
    | _ => none

namespace System

/-- What the callbacks return; `pager_read_page` reads the store. -/
def callbacks (system : System) (results : Callbacks) : Callbacks :=
  fun number => { results number with
    read := { (results number).read with buffer := system.store number } }

/-- What the pager is asked to handle in a step, if anything. -/
def incoming? (system : System) : Action → Option (Input × Callbacks)
  | .init client => some (.objectInit client system.pager.pageSize, fun _ => {})
  | .handle client results =>
      match (system.kernels client).up with
      | [] => none
      | (number, report) :: _ =>
          some (report.input client number system.pager.pageSize, system.callbacks results)
  | .notice client results =>
      if (system.kernels client).alive = false ∧ (system.kernels client).dropped = false ∧
          (system.kernels client).up = [] then
        some (.deadName client, system.callbacks results)
      else none
  | .act .. => none
  | .receive _ => none
  | .die _ => none

def setKernel (system : System) (client : MachPort) (kernel : Kernel) : System :=
  { system with kernels := Function.update system.kernels client kernel }

/-- Take the message that is being handled off its queue. -/
def take (system : System) : Action → System
  | .handle client _ =>
      match (system.kernels client).up with
      | [] => system
      | (number, report) :: rest =>
          { system.setKernel client { system.kernels client with up := rest } with
            returned :=
              match report with
              | .giveBack version true =>
                  Function.update system.returned number (max (system.returned number) version)
              | _ => system.returned }
  | .notice client _ =>
      system.setKernel client { system.kernels client with dropped := true, down := [] }
  | .init _ => system
  | .act .. => system
  | .receive _ => system
  | .die _ => system

/-- Put the messages of a handler on the queues, and what it has written in the store. -/
def deliver (system : System) (results : Callbacks) (pager : Pager) : System :=
  { system with
    pager
    kernels := fun client =>
      if (system.kernels client).dropped then system.kernels client
      else
        { system.kernels client with
          down := (system.kernels client).down ++ messagesTo client pager.sent }
    store := fun number =>
      match written? (Pager.eventsOf number pager.sent) with
      | none => system.store number
      | some data => if (results number).write = kernSuccess then data else system.store number }

/-- The pager handles what the step brings it. -/
def respond (system : System) (action : Action) : Option System :=
  (system.incoming? action).bind fun input =>
    (system.pager.handle input).map ((system.take action).deliver input.2)

def step (system : System) : Action → Option System
  | .act client number act =>
      let kernel := system.kernels client
      if kernel.alive then
        ((kernel.pages number).act (system.newest number + 1) act).map fun (page, reports) =>
          { system.setKernel client { kernel with
              pages := Function.update kernel.pages number page
              up := kernel.up ++ reports.map fun report => (number, report) } with
            newest := Function.update system.newest number
              (if act = .modify then system.newest number + 1 else system.newest number) }
      else none
  | .receive client =>
      let kernel := system.kernels client
      match kernel.down with
      | [] => none
      | (number, message) :: rest =>
          let (page, reports) := (kernel.pages number).receive message
          if kernel.alive then
            some (system.setKernel client { kernel with
              down := rest
              pages := Function.update kernel.pages number page
              up := kernel.up ++ reports.map fun report => (number, report) })
          else none
  | .die client =>
      let kernel := system.kernels client
      if kernel.alive then
        some (system.setKernel client { kernel with
          alive := false, pages := fun number => { kernel.pages number with copy := none } })
      else none
  | .init client => system.respond (.init client)
  | .handle client results => system.respond (.handle client results)
  | .notice client results => system.respond (.notice client results)

/-- An assert fails in the handler of the step. -/
def Aborts (system : System) (action : Action) : Prop :=
  ∃ input, system.incoming? action = some input ∧ system.pager.handle input = none

end System

end Hurd.Libpager
