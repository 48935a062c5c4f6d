import Hurd.Netmsg.Message
import Mathlib.Logic.Function.Basic

/-!
# The port rights of netmsg's task

What the kernel keeps for each name in the task: the receive right, the user-references of the
send right or of the dead name it has become, a send-once right, and whether a notification
is asked for.  A kernel call that fails changes nothing; `mach_call` only prints a warning.

A NO SENDERS request made when there are no senders left is answered at once.  It counts as
registered here until the notification has been handled.
-/

namespace Hurd.Netmsg

/-- What the task holds under one name. -/
structure Holding where
  receive : Bool := false
  send : ℕ := 0
  sendOnce : Bool := false
  dead : ℕ := 0
  deadNameRequest : Bool := false
  noSendersRequest : Bool := false
deriving DecidableEq

namespace Holding

/-- The name stands for a port. -/
def live (holding : Holding) : Bool :=
  holding.receive || decide (0 < holding.send) || holding.sendOnce

/-- The name is in use, so that the kernel does not hand it out again. -/
def inUse (holding : Holding) : Bool :=
  holding.live || decide (0 < holding.dead)

/-- A name that stands for no port any more has no dead-name request. -/
def release (holding : Holding) : Holding :=
  if holding.live then holding else { holding with deadNameRequest := false }

end Holding

/-- The rights of a task, and the names that the kernel will hand out next. -/
structure Task where
  holds : Port → Holding
  fresh : List Port

namespace Task

/-- Change what the task holds under a name. -/
def modify (task : Task) (name : Port) (change : Holding → Holding) : Task :=
  { task with holds := Function.update task.holds name (change (task.holds name)) }

/-- `mach_port_allocate (MACH_PORT_RIGHT_RECEIVE)`: a receive right under a name not in use. -/
def allocate (task : Task) : Option (Port × Task) :=
  match task.fresh with
  | [] => none
  | name :: rest =>
      if (task.holds name).inUse then none
      else some (name, { task with fresh := rest }.modify name fun _ => { receive := true })

/--
`mach_port_extract_right (MACH_MSG_TYPE_MAKE_SEND_ONCE)`: a send-once right, which always has a
name of its own.
-/
def extractSendOnce (task : Task) : Option (Port × Task) :=
  match task.fresh with
  | [] => none
  | name :: rest =>
      if (task.holds name).inUse then none
      else some (name, { task with fresh := rest }.modify name fun _ => { sendOnce := true })

/-- `mach_port_insert_right (MACH_MSG_TYPE_MAKE_SEND)` -/
def makeSend (task : Task) (name : Port) : Task :=
  if (task.holds name).receive then
    task.modify name fun holding => { holding with send := holding.send + 1 }
  else task

/-- `mach_port_insert_right (MACH_MSG_TYPE_COPY_SEND)` -/
def copySend (task : Task) (name : Port) : Task :=
  if 0 < (task.holds name).send then
    task.modify name fun holding => { holding with send := holding.send + 1 }
  else task

/-- `mach_port_mod_refs (MACH_PORT_RIGHT_SEND, -1)`, or a send right that leaves in a message -/
def dropSend (task : Task) (name : Port) : Task :=
  if 0 < (task.holds name).send then
    task.modify name fun holding => ({ holding with send := holding.send - 1 }).release
  else task

/--
`mach_port_mod_refs (MACH_PORT_RIGHT_RECEIVE, -1)`: the port dies.  Send rights to it become
references to a dead name, and one more comes with the notification if one was asked for.
-/
def destroyReceive (task : Task) (name : Port) : Task :=
  if (task.holds name).receive then
    task.modify name fun holding =>
      { holding with
        receive := false
        noSendersRequest := false
        send := 0
        dead := if 0 < holding.send then holding.send + holding.deadNameRequest.toNat
          else holding.dead
        deadNameRequest := false }
  else task

/-- `mach_port_mod_refs (MACH_PORT_RIGHT_DEAD_NAME, -2)` -/
def dropDeadNames (task : Task) (name : Port) : Task :=
  if 2 ≤ (task.holds name).dead then
    task.modify name fun holding => { holding with dead := holding.dead - 2 }
  else task

/--
`mach_port_request_notification (MACH_NOTIFY_NO_SENDERS)`, to ask for the notification or to
cancel the request: whether one was registered before, or `none` if the call fails.
-/
def requestNoSenders (task : Task) (name : Port) (ask : Bool) : Option (Bool × Task) :=
  if (task.holds name).receive then
    some ((task.holds name).noSendersRequest,
      task.modify name fun holding => { holding with noSendersRequest := ask })
  else none

/-- `mach_port_request_notification (MACH_NOTIFY_DEAD_NAME)` -/
def requestDeadName (task : Task) (name : Port) (ask : Bool) : Option (Bool × Task) :=
  if (task.holds name).live then
    some ((task.holds name).deadNameRequest,
      task.modify name fun holding => { holding with deadNameRequest := ask })
  else none

/-- A right leaves the task in a message. -/
def giveAway (task : Task) (name : TypeName) (port : Port) : Task :=
  match name with
  | .moveSend => task.dropSend port
  | .moveReceive => task.modify port fun holding => ({ holding with receive := false }).release
  | .moveSendOnce => task.modify port fun holding => ({ holding with sendOnce := false }).release
  | .copySend => task
  | .makeSend => task
  | .makeSendOnce => task
  | .portName => task
  | .data => task

/-- The task has a right that a message can be sent to. -/
def canSend (task : Task) (name : Option TypeName) (port : Port) : Bool :=
  match name with
  | some .moveSend => decide (0 < (task.holds port).send)
  | some .copySend => decide (0 < (task.holds port).send)
  | some .moveSendOnce => (task.holds port).sendOnce
  | some .makeSend => (task.holds port).receive
  | some .makeSendOnce => (task.holds port).receive
  | some .moveReceive => false
  | some .portName => false
  | some .data => false
  | none => false

/-- The rights of a message body leave the task. -/
def giveAwayBody (task : Task) (body : List Item) : Task :=
  body.foldl (fun task item => item.ports.foldl (fun task port => task.giveAway item.name port) task)
    task

/--
`mach_msg (MACH_SEND_MSG)`, whose destination and reply port are the remote and the local port of
the message.  `MACH_SEND_INVALID_DEST` leaves the rights of the message with the task.
-/
def machMsg (task : Task) (message : Message) : Task :=
  if task.canSend message.remoteType message.remotePort then
    let task := match message.remoteType with
      | none => task
      | some name => task.giveAway name message.remotePort
    let task := match message.localType with
      | none => task
      | some name => task.giveAway name message.localPort
    task.giveAwayBody message.body
  else task

/-- A right arrives with a message, under a name that the kernel has chosen. -/
def take (task : Task) (name : TypeName) (port : Port) : Task :=
  if port = machPortNull ∨ port = machPortDead then task
  else
    match name with
    | .moveSend => task.modify port fun holding => { holding with send := holding.send + 1 }
    | .moveReceive => task.modify port fun holding => { holding with receive := true }
    | .moveSendOnce => task.modify port fun holding => { holding with sendOnce := true }
    | .copySend => task
    | .makeSend => task
    | .makeSendOnce => task
    | .portName => task
    | .data => task

/-- The rights of a message body arrive. -/
def takeBody (task : Task) (body : List Item) : Task :=
  body.foldl (fun task item => item.ports.foldl (fun task port => task.take item.name port) task)
    task

/-- A message is received by IPC: its rights, that of its reply port included, arrive. -/
def receive (task : Task) (message : Message) : Task :=
  let task := match message.remoteType with
    | none => task
    | some name => task.take name message.remotePort
  task.takeBody message.body

end Task

end Hurd.Netmsg
