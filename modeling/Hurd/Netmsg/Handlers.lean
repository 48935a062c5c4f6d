import Hurd.Lib.Traverse
import Hurd.Netmsg.Task

/-!
# One netmsg session

The five maps of a session, its three own ports, and the two handlers: `ipcBufferHandler` sends
a message that came by IPC over the network, and `tcpBufferHandler` sends a message that came
over the network by IPC.  A handler returns `none` where an `assert` fails, `std::map::at` throws
or `error` ends the program, and also where the kernel call that should set `old` fails, since
the source reads the variable uninitialised then.
-/

namespace Hurd.Netmsg

/-- The values of `local_port_type`; `operator[]` inserts `unset`. -/
inductive LocalType
  | unset
  | receive
  | send
deriving DecidableEq

/-- The maps of a session. -/
structure Names where
  localPortsByRemote : Port → Option Port := fun _ => none
  remotePortsByLocal : Port → Option Port := fun _ => none
  localPortType : Port → Option LocalType := fun _ => none
  sendOncePortsByRemote : Port → Option Port := fun _ => none
  sendOncePortsByLocal : Port → Option Port := fun _ => none

namespace Names

def setType (names : Names) (port : Port) (type : LocalType) : Names :=
  { names with localPortType := Function.update names.localPortType port (some type) }

def eraseType (names : Names) (port : Port) : Names :=
  { names with localPortType := Function.update names.localPortType port none }

/-- `local_port_type[port]`, which inserts a default for a port that is not there -/
def touchType (names : Names) (port : Port) : Names :=
  { names with
    localPortType := Function.update names.localPortType port
      (some ((names.localPortType port).getD .unset)) }

/-- A proxy is made for a remote port. -/
def link (names : Names) (remote port : Port) (type : LocalType) : Names :=
  { names with
    localPortsByRemote := Function.update names.localPortsByRemote remote (some port)
    remotePortsByLocal := Function.update names.remotePortsByLocal port (some remote)
    localPortType := Function.update names.localPortType port (some type) }

/--
`local_ports_by_remote.erase(remote_ports_by_local[port])` and `remote_ports_by_local.erase(port)`;
for a port that is not there the first erases the entry of `MACH_PORT_NULL`.
-/
def unlink (names : Names) (port : Port) : Names :=
  { names with
    localPortsByRemote := Function.update names.localPortsByRemote
      ((names.remotePortsByLocal port).getD machPortNull) none
    remotePortsByLocal := Function.update names.remotePortsByLocal port none }

/-- The same where the source first looks whether the port is there. -/
def unlinkIfLinked (names : Names) (port : Port) : Names :=
  if (names.remotePortsByLocal port).isSome then names.unlink port else names

def linkOnce (names : Names) (remote port : Port) : Names :=
  { names with
    sendOncePortsByRemote := Function.update names.sendOncePortsByRemote remote (some port)
    sendOncePortsByLocal := Function.update names.sendOncePortsByLocal port (some remote) }

def unlinkOnce (names : Names) (remote port : Port) : Names :=
  { names with
    sendOncePortsByRemote := Function.update names.sendOncePortsByRemote remote none
    sendOncePortsByLocal := Function.update names.sendOncePortsByLocal port none }

end Names

/-- A netmsg session; `control` is `MACH_PORT_NULL` in a server, `first_port` in a client. -/
structure Session where
  control : Port
  firstPort : Port
  notificationPort : Port
  names : Names := {}
  task : Task

namespace Session

/-- `translateForTransmission` for an element of a `MACH_MSG_TYPE_MOVE_SEND` item -/
def transmitSend (session : Session) (port : Port) : Option (Port × Session) :=
  if port = machPortNull ∨ port = machPortDead then some (port, session)
  else
    match session.names.remotePortsByLocal port with
    | some remote => do
        guard (session.names.localPortType port = some .receive)
        some (~~~remote, { session with task := session.task.dropSend port })
    | none =>
        -- the result of asking for the DEAD NAME notification is ignored
        let task := match session.task.requestDeadName port true with
          | none => session.task
          | some (_, task) => task
        some (port, { session with names := session.names.setType port .send, task := task })

/-- `translateForTransmission` for an element of a `MACH_MSG_TYPE_MOVE_RECEIVE` item -/
def transmitReceive (session : Session) (port : Port) : Option (Port × Session) :=
  if port = machPortNull ∨ port = machPortDead then some (port, session)
  else do
    let (_, task) ← session.task.requestNoSenders port true
    match session.names.remotePortsByLocal port with
    | some remote =>
        guard (session.names.localPortType port = some .send)
        let (_, task) ← task.requestDeadName port false
        some (~~~remote,
          { session with names := session.names.setType port .receive, task := task.dropSend port })
    | none =>
        some (port, { session with names := session.names.setType port .receive, task := task })

/-- `translateForTransmission` for an element of a `MACH_MSG_TYPE_PORT_NAME` item -/
def transmitName (session : Session) (translatePortNames : Bool) (port : Port) : Port :=
  if translatePortNames then
    match session.names.remotePortsByLocal port with
    | some remote => ~~~remote
    | none => port
  else port

/--
`translateForTransmission` for one item.  The case of `MACH_MSG_TYPE_MOVE_RECEIVE` has no `break`
and goes on with that of `MACH_MSG_TYPE_PORT_NAME`.
-/
def transmitItem (translatePortNames : Bool) (session : Session) (item : Item) :
    Option (Item × Session) :=
  match item.name with
  | .moveSend => do
      let (ports, next) ← Loop.traverse transmitSend session item.ports
      some ({ item with ports := ports }, next)
  | .moveReceive => do
      let (ports, next) ← Loop.traverse transmitReceive session item.ports
      some ({ item with ports := ports.map (next.transmitName translatePortNames) }, next)
  | .portName =>
      some ({ item with ports := item.ports.map (session.transmitName translatePortNames) }, session)
  | .moveSendOnce => some (item, session)
  | .copySend => some (item, session)
  | .makeSend => some (item, session)
  | .makeSendOnce => some (item, session)
  | .data => some (item, session)

def translateForTransmission (session : Session) (message : Message) (translatePortNames : Bool) :
    Option (Message × Session) := do
  let (body, next) ← Loop.traverse (transmitItem translatePortNames) session message.body
  some ({ message with body := body }, next)

/-- What `ipcBufferHandler` makes of the destination of a message. -/
inductive Routed
  | discard
  | relay (message : Message) (deadName : Port) (next : Session)

/-- The element of a DEAD NAME notification, which has a single item with a single element. -/
def deadNameOf (message : Message) : Option Port :=
  match message.body with
  | { name := .portName, ports := [port] } :: _ => some port
  | _ => none

/-- The first half of `ipcBufferHandler`: find out where the message goes. -/
def route (session : Session) (message : Message) : Option Routed :=
  if message.localPort = session.control then
    some (.relay { message with localPort := machPortControl } machPortNull session)
  else if message.localPort = session.notificationPort then
    let relayed : Message := { message with localPort := machPortControl }
    if message.id = msgidDeadName then do
      let deadName ← deadNameOf message
      let task := session.task.dropDeadNames deadName
      match session.names.localPortType deadName with
      | none => some (.relay relayed deadName { session with task := task })
      | some type =>
          guard (type = .send)
          some (.relay relayed deadName
            { session with names := session.names.eraseType deadName, task := task })
    else if message.id = msgidPortDeleted then some (.relay relayed machPortNull session)
    else if message.id = msgidSendOnce then some (.relay relayed machPortNull session)
    else none
  else
    match session.names.remotePortsByLocal message.localPort with
    | some remote => do
        guard (session.names.localPortType message.localPort = some .receive)
        some (.relay { message with localPort := remote } machPortNull session)
    | none =>
        match session.names.sendOncePortsByLocal message.localPort with
        | some remote =>
            some (.relay { message with localPort := remote } machPortNull
              { session with
                names := session.names.unlinkOnce remote message.localPort
                task := session.task.destroyReceive message.localPort })
        | none =>
            match session.names.localPortType message.localPort with
            | none => some .discard
            | some .receive =>
                some (.relay { message with remoteTranslate := true } machPortNull session)
            -- "XXX resend the message via IPC!": the number goes out as it is
            | some .send => some (.relay message machPortNull session)
            | some .unset => some (.relay message machPortNull session)

/-- A NO SENDERS notification takes the receive right it is targeted at with it. -/
def releaseNoSenders (session : Session) (id : ℕ) (original : Port) : Option Session :=
  if id = msgidNoSenders then do
    guard (session.names.localPortType original = some .receive)
    some { session with
      names := (session.names.eraseType original).unlink original
      task := session.task.destroyReceive original }
  else some session

/-- Forget the mapping of a dead name, once the message has been translated. -/
def forgetDeadName (session : Session) (deadName : Port) : Session :=
  if deadName ≠ machPortNull then { session with names := session.names.unlinkIfLinked deadName }
  else session

/-- What is written to the network for a message that came by IPC, if anything is. -/
def ipcBufferHandler (session : Session) (message : Message) : Option (Option Message × Session) := do
  match ← session.route message with
  | .discard => some (none, session)
  | .relay relayed deadName routed =>
      let released ← routed.releaseNoSenders relayed.id message.localPort
      let (sent, translated) ← released.translateForTransmission relayed
        (decide (deadName ≠ machPortNull))
      some (some sent, translated.forgetDeadName deadName)

/-- The receive right of a port is relayed on; a send right to it stays behind. -/
def relayReceive (session : Session) (port : Port) : Option Session := do
  let (_, task) ← session.task.requestNoSenders port false
  let task := task.makeSend port
  let (old, task) ← task.requestDeadName port true
  guard (old = false)
  some { session with names := session.names.setType port .send, task := task }

/-- `translatePort2` for a number that the sender has translated to our name space -/
def translateFlagged (session : Session) (port : Port) : TypeName → Option Session
  | .moveSend =>
      some { session with
        names := session.names.touchType port
        task := if session.names.localPortType port = some .receive then session.task.makeSend port
          else session.task.copySend port }
  | .moveReceive => do
      guard (session.names.localPortType port = some .receive)
      session.relayReceive port
  | .portName => some session
  | .moveSendOnce => none
  | .copySend => none
  | .makeSend => none
  | .makeSendOnce => none
  | .data => none

/-- A receive right for the name of a remote port -/
def translateReceive (session : Session) (port : Port) : Option (Port × Session) :=
  match session.names.localPortsByRemote port with
  | some localport => do
      guard (session.names.localPortType localport ≠ some .send)
      let next ← session.relayReceive localport
      some (localport, next)
  | none => do
      let (newport, task) ← session.task.allocate
      let task := task.makeSend newport
      let (old, task) ← task.requestDeadName newport true
      guard (old = false)
      some (newport, { session with names := session.names.link port newport .send, task := task })

/-- A send right for the name of a remote port -/
def translateSend (session : Session) (port : Port) : Option (Port × Session) :=
  match session.names.localPortsByRemote port with
  | some newport => do
      guard (session.names.localPortType newport = some .receive)
      some (newport, { session with task := session.task.makeSend newport })
  | none => do
      let (newport, task) ← session.task.allocate
      let task := task.makeSend newport
      let (old, task) ← task.requestNoSenders newport true
      guard (old = false)
      some (newport, { session with names := session.names.link port newport .receive, task := task })

/-- A send-once right for the name of a remote port -/
def translateSendOnce (session : Session) (port : Port) : Option (Port × Session) := do
  guard (session.names.sendOncePortsByRemote port = none)
  let (newport, task) ← session.task.allocate
  let (sendoncePort, task) ← task.extractSendOnce
  some (sendoncePort, { session with names := session.names.linkOnce port newport, task := task })

/-- The number that we have for a number that came over the network. -/
def translatePort2 (session : Session) (port : Port) (type : TypeName) : Option (Port × Session) :=
  if port = machPortNull ∨ port = machPortDead then some (port, session)
  else if port.flagged then do
    let next ← session.translateFlagged (~~~port) type
    some (~~~port, next)
  else
    match type with
    | .moveReceive => session.translateReceive port
    | .copySend => session.translateSend port
    | .makeSend => session.translateSend port
    | .moveSend => session.translateSend port
    | .makeSendOnce => session.translateSendOnce port
    | .moveSendOnce => session.translateSendOnce port
    | .portName => some ((session.names.localPortsByRemote port).getD machPortNull, session)
    | .data => none

/-- `translateMessage` for one item -/
def translateItem (translatePortNames : Bool) (session : Session) (item : Item) :
    Option (Item × Session) :=
  match item.name with
  | .data => some (item, session)
  | .portName =>
      if translatePortNames then do
        let (ports, next) ← Loop.traverse (fun session port => session.translatePort2 port .portName)
          session item.ports
        some ({ item with ports := ports }, next)
      else some (item, session)
  | name => do
      let (ports, next) ← Loop.traverse (fun session port => session.translatePort2 port name)
        session item.ports
      some ({ item with ports := ports }, next)

def translateMessage (session : Session) (message : Message) (translatePortNames : Bool) :
    Option (Message × Session) := do
  let (body, next) ← Loop.traverse (translateItem translatePortNames) session message.body
  some ({ message with body := body }, next)

/-- The first part of `translateHeader`: the destination, or `none` to discard the message. -/
def translateDestination (session : Session) (message : Message) : Option (Option Message) :=
  if message.localPort = machPortControl then
    some (some { message with localPort := session.firstPort })
  else if message.remoteTranslate then
    match session.names.localPortsByRemote message.localPort with
    | none => some none
    | some port => do
        guard (session.names.localPortType port = some .send)
        some (some { message with localPort := port, remoteTranslate := false })
  else some (some message)

/-- A NO SENDERS notification from the other side: our send right goes. -/
def handleNoSenders (session : Session) (port : Port) : Option Session :=
  match session.names.localPortType port with
  | none => some session
  | some type => do
      guard (type = .send)
      let task := match session.task.requestDeadName port false with
        | none => session.task
        | some (_, task) => task
      some { session with
        names := (session.names.eraseType port).unlinkIfLinked port
        task := task.dropSend port }

/-- A DEAD NAME notification from the other side: our receive right goes. -/
def handleDeadName (session : Session) (deadName : Port) : Option Session :=
  match session.names.localPortType deadName with
  | none => some session
  | some type => do
      guard (type = .receive)
      some { session with
        names := (session.names.eraseType deadName).unlinkIfLinked deadName
        task := session.task.destroyReceive deadName }

/-- The message to be sent by IPC, or `none` where `translateHeader` returns false. -/
def translateHeader (session : Session) (message : Message) : Option (Option Message × Session) := do
  guard (message.localType = some .moveSend ∨ message.localType = some .moveSendOnce)
  match ← session.translateDestination message with
  | none => some (none, session)
  | some addressed =>
      if addressed.id = msgidNoSenders then do
        let next ← session.handleNoSenders addressed.localPort
        some (none, next)
      else if addressed.id = msgidDeadName ∧ addressed.localPort = session.firstPort then do
        let deadName ← deadNameOf addressed
        let next ← session.handleDeadName deadName
        some (none, next)
      else
        match addressed.remoteType with
        | none => do
            guard (addressed.remotePort = machPortNull)
            some (some addressed, session)
        | some type => do
            guard (type = .moveSend ∨ type = .moveSendOnce)
            let (port, next) ← session.translatePort2 addressed.remotePort type
            some (some { addressed with remotePort := port }, next)

/-- A destination in `local_port_type` is sent to with `MACH_MSG_TYPE_COPY_SEND`. -/
def swapHeader (session : Session) (message : Message) : Message :=
  { message with
    remoteTranslate := false
    remotePort := message.localPort
    remoteType := if (session.names.localPortType message.localPort).isSome then some .copySend
      else message.localType
    localPort := message.remotePort
    localType := message.remoteType }

/-- What is sent by IPC for a message that came over the network, if anything is. -/
def tcpBufferHandler (session : Session) (message : Message) : Option (Option Message × Session) := do
  let (translated, middle) ← session.translateMessage message
    (decide (message.localPort = machPortControl ∧ message.id = msgidDeadName))
  match ← middle.translateHeader translated with
  | (none, next) => some (none, next)
  | (some addressed, next) =>
      let sent := next.swapHeader addressed
      some (some sent, { next with task := next.task.machMsg sent })

end Session

end Hurd.Netmsg
