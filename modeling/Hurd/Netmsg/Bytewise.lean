import Hurd.Lib.InPlace
import Hurd.Netmsg.Handlers
import Hurd.Netmsg.ItemSize
import Hurd.Netmsg.PortSlots

/-!
# The handlers on the bytes of a message

The two handlers as they work on a `machMessage`: they go through the items in the buffer, rewrite
the numbers of ports where they find them, in the buffer or in out-of-line memory, and change three
words of the header.  `decode` is the message that the bytes stand for.
-/

namespace Hurd.Netmsg

/-- `MACH_MSG_TYPE_MOVE_SEND_ONCE` -/
def msgTypeMoveSendOnce : ℕ := 18

/-- `MACH_MSG_TYPE_COPY_SEND` -/
def msgTypeCopySend : ℕ := 19

namespace TypeName

/-- The values of `mach_msg_type_name_t` -/
def ofNumber : ℕ → TypeName
  | 15 => .portName
  | 16 => .moveReceive
  | 17 => .moveSend
  | 18 => .moveSendOnce
  | 19 => .copySend
  | 20 => .makeSend
  | 21 => .makeSendOnce
  | _ => .data

/-- A type in `msgh_bits`, where 0 means that there is no port. -/
def ofBits (number : ℕ) : Option TypeName :=
  if number = 0 then none else some (ofNumber number)

end TypeName

namespace Buffer

def port (buffer : Buffer) (position : ℕ) : Port := BitVec.ofNat 32 (buffer.word position)

def putPort (buffer : Buffer) (position : ℕ) (port : Port) : Buffer :=
  buffer.putWord position port.toNat

end Buffer

namespace Outgoing

section Header

variable (message : Outgoing)

def msghBits : ℕ := message.buffer.word 0

def msghRemotePort : Port := message.buffer.port 8

def msghLocalPort : Port := message.buffer.port 12

def msghId : ℕ := message.buffer.word 20

/-- `MACH_MSGH_BITS_REMOTE` -/
def remoteBits : ℕ := message.msghBits % 2 ^ 8

/-- `MACH_MSGH_BITS_LOCAL` -/
def localBits : ℕ := message.msghBits / 2 ^ 8 % 2 ^ 8

/-- `MACH_MSGH_BITS_REMOTE_TRANSLATE` -/
def remoteTranslate : Bool := decide (message.msghBits / 2 ^ 26 % 2 = 1)

def setBits (bits : ℕ) : Outgoing := { message with buffer := message.buffer.putWord 0 bits }

def setRemotePort (port : Port) : Outgoing := { message with buffer := message.buffer.putPort 8 port }

def setLocalPort (port : Port) : Outgoing := { message with buffer := message.buffer.putPort 12 port }

/-- `msgh_bits |= MACH_MSGH_BITS_REMOTE_TRANSLATE` -/
def setRemoteTranslate : Outgoing :=
  if message.remoteTranslate then message else message.setBits (message.msghBits + 2 ^ 26)

/-- `msgh_bits &= ~MACH_MSGH_BITS_REMOTE_TRANSLATE` -/
def clearRemoteTranslate : Outgoing :=
  if message.remoteTranslate then message.setBits (message.msghBits - 2 ^ 26) else message

end Header

section Items

variable (message : Outgoing) (position : ℕ)

/-- `data()` -/
def dataPtr : ℕ :=
  if message.buffer.isInline position then message.buffer.oolPtr position
  else message.buffer.word (message.buffer.oolPtr position)

/-- Where the data of an item is. -/
def bytesOf : Buffer := if message.buffer.isInline position then message.buffer else message.memory

def putBytes (bytes : Buffer) : Outgoing :=
  if message.buffer.isInline position then { message with buffer := bytes }
  else { message with memory := bytes }

/-- `& ports[i]` -/
def slots : List ℕ := message.buffer.slots position (message.dataPtr position)

/-- The item at a position, whose elements are read if they are ports. -/
def item : Item where
  name := .ofNumber (message.buffer.name position)
  ports :=
    if message.buffer.carriesPorts true position then
      (message.slots position).map (message.bytesOf position).port
    else []

end Items

/-- What the bytes of a message say. -/
def decode (message : Outgoing) : Message where
  remoteTranslate := message.remoteTranslate
  localType := TypeName.ofBits message.localBits
  remoteType := TypeName.ofBits message.remoteBits
  localPort := message.msghLocalPort
  remotePort := message.msghRemotePort
  id := message.msghId
  body := message.positions.map message.item

end Outgoing

namespace Bytewise

section Loops

variable (translate : Session → Port → Option (Port × Session))

/-- The loop over the elements of an item -/
def rewriteItem (position : ℕ) (message : Outgoing) (session : Session) :
    Option (Outgoing × Session) := do
  -- `ports[i] = translate(ports[i])`
  let (bytes, next) ← Loop.forEach (Loop.rewriteAt Buffer.port Buffer.putPort translate)
    (message.slots position) (message.bytesOf position, session)
  some (message.putBytes position bytes, next)

/-- The loop over the items of a message -/
def forItems (body : ℕ → Outgoing → Session → Option (Outgoing × Session)) :
    ℕ → ℕ → Outgoing → Session → Option (Outgoing × Session)
  | 0, _, message, session => some (message, session)
  | fuel + 1, position, message, session =>
      if position < message.buffer.msghSize then do
        let (rewritten, next) ← body position message session
        forItems body fuel (rewritten.buffer.advance position) rewritten next
      else some (message, session)

end Loops

section Transmit

/-- The case of `MACH_MSG_TYPE_PORT_NAME` in `translateForTransmission` -/
def transmitNames (translatePortNames : Bool) (position : ℕ) (message : Outgoing)
    (session : Session) : Option (Outgoing × Session) :=
  if translatePortNames then
    rewriteItem (fun session port => some (session.transmitName true port, session)) position
      message session
  else some (message, session)

def transmitItem (translatePortNames : Bool) (position : ℕ) (message : Outgoing)
    (session : Session) : Option (Outgoing × Session) :=
  match TypeName.ofNumber (message.buffer.name position) with
  | .moveSend => rewriteItem Session.transmitSend position message session
  | .moveReceive => do
      let (rewritten, next) ← rewriteItem Session.transmitReceive position message session
      -- there is no `break`
      transmitNames translatePortNames position rewritten next
  | .portName => transmitNames translatePortNames position message session
  | .moveSendOnce => some (message, session)
  | .copySend => some (message, session)
  | .makeSend => some (message, session)
  | .makeSendOnce => some (message, session)
  | .data => some (message, session)

def translateForTransmission (session : Session) (message : Outgoing) (translatePortNames : Bool) :
    Option (Outgoing × Session) :=
  forItems (transmitItem translatePortNames) message.buffer.msghSize headerBytes message session

/-- `data[0]` of a DEAD NAME notification, after the asserts -/
def deadNameOf (message : Outgoing) : Option Port := do
  guard (message.buffer.name headerBytes = msgTypePortName)
  guard (message.buffer.nelems headerBytes = 1)
  guard (message.buffer.elemsizeBits headerBytes % 8 = 0)
  some ((message.bytesOf headerBytes).port (message.dataPtr headerBytes))

inductive Routed
  | discard
  | relay (message : Outgoing) (deadName : Port) (next : Session)

/-- The first half of `ipcBufferHandler` -/
def route (session : Session) (message : Outgoing) : Option Routed :=
  if message.msghLocalPort = session.control then
    some (.relay (message.setLocalPort machPortControl) machPortNull session)
  else if message.msghLocalPort = session.notificationPort then
    let relayed := message.setLocalPort machPortControl
    if message.msghId = msgidDeadName then do
      let deadName ← deadNameOf message
      let task := session.task.dropDeadNames deadName
      match session.names.localPortType deadName with
      | none => some (.relay relayed deadName { session with task := task })
      | some type =>
          guard (type = .send)
          some (.relay relayed deadName
            { session with names := session.names.eraseType deadName, task := task })
    else if message.msghId = msgidPortDeleted then some (.relay relayed machPortNull session)
    else if message.msghId = msgidSendOnce then some (.relay relayed machPortNull session)
    else none
  else
    match session.names.remotePortsByLocal message.msghLocalPort with
    | some remote => do
        guard (session.names.localPortType message.msghLocalPort = some .receive)
        some (.relay (message.setLocalPort remote) machPortNull session)
    | none =>
        match session.names.sendOncePortsByLocal message.msghLocalPort with
        | some remote =>
            some (.relay (message.setLocalPort remote) machPortNull
              { session with
                names := session.names.unlinkOnce remote message.msghLocalPort
                task := session.task.destroyReceive message.msghLocalPort })
        | none =>
            match session.names.localPortType message.msghLocalPort with
            | none => some .discard
            | some .receive => some (.relay message.setRemoteTranslate machPortNull session)
            | some .send => some (.relay message machPortNull session)
            | some .unset => some (.relay message machPortNull session)

/-- The message that `ipcBufferHandler` writes to the network, if any -/
def ipcBufferHandler (session : Session) (allocate : ℕ → ℕ) (message : Outgoing) :
    Option (Option Outgoing × Session) := do
  match ← route session (message.copyOOLdata allocate) with
  | .discard => some (none, session)
  | .relay relayed deadName routed =>
      let released ← routed.releaseNoSenders relayed.msghId message.msghLocalPort
      let (sent, translated) ← translateForTransmission released relayed
        (decide (deadName ≠ machPortNull))
      some (some sent, translated.forgetDeadName deadName)

end Transmit

section Receive

/-- `translateMessage` for one item -/
def translateItem (translatePortNames : Bool) (position : ℕ) (message : Outgoing)
    (session : Session) : Option (Outgoing × Session) :=
  match TypeName.ofNumber (message.buffer.name position) with
  | .data => some (message, session)
  | .portName =>
      if translatePortNames then
        rewriteItem (fun session port => session.translatePort2 port .portName) position message
          session
      else some (message, session)
  | name =>
      rewriteItem (fun session port => session.translatePort2 port name) position message session

def translateMessage (session : Session) (message : Outgoing) (translatePortNames : Bool) :
    Option (Outgoing × Session) :=
  forItems (translateItem translatePortNames) message.buffer.msghSize headerBytes message session

/-- The first part of `translateHeader` -/
def translateDestination (session : Session) (message : Outgoing) : Option (Option Outgoing) :=
  if message.msghLocalPort = machPortControl then
    some (some (message.setLocalPort session.firstPort))
  else if message.remoteTranslate then
    match session.names.localPortsByRemote message.msghLocalPort with
    | none => some none
    | some port => do
        guard (session.names.localPortType port = some .send)
        some (some (message.setLocalPort port).clearRemoteTranslate)
  else some (some message)

/-- The message to be sent by IPC, or `none` where `translateHeader` returns false. -/
def translateHeader (session : Session) (message : Outgoing) :
    Option (Option Outgoing × Session) := do
  guard (message.localBits = msgTypeMoveSend ∨ message.localBits = msgTypeMoveSendOnce)
  match ← translateDestination session message with
  | none => some (none, session)
  | some addressed =>
      if addressed.msghId = msgidNoSenders then do
        let next ← session.handleNoSenders addressed.msghLocalPort
        some (none, next)
      else if addressed.msghId = msgidDeadName ∧ addressed.msghLocalPort = session.firstPort then do
        let deadName ← deadNameOf addressed
        let next ← session.handleDeadName deadName
        some (none, next)
      else if addressed.remoteBits = msgTypeMoveSend ∨
          addressed.remoteBits = msgTypeMoveSendOnce then do
        let (port, next) ← session.translatePort2 addressed.msghRemotePort
          (.ofNumber addressed.remoteBits)
        some (some (addressed.setRemotePort port), next)
      else do
        guard (addressed.remoteBits = 0)
        guard (addressed.msghRemotePort = machPortNull)
        some (some addressed, session)

def swapHeader (session : Session) (message : Outgoing) : Outgoing :=
  let thisType := if (session.names.localPortType message.msghLocalPort).isSome then
    msgTypeCopySend else message.localBits
  let complex := message.msghBits / 2 ^ 31 * 2 ^ 31
  ((message.setLocalPort message.msghRemotePort).setRemotePort message.msghLocalPort).setBits
    (complex + thisType + 2 ^ 8 * message.remoteBits)

/-- The message that `tcpBufferHandler` sends by IPC, if any -/
def tcpBufferHandler (session : Session) (message : Outgoing) :
    Option (Option Outgoing × Session) := do
  let (translated, middle) ← translateMessage session message
    (decide (message.msghLocalPort = machPortControl ∧ message.msghId = msgidDeadName))
  match ← translateHeader middle translated with
  | (none, next) => some (none, next)
  | (some addressed, next) =>
      let sent := swapHeader next addressed
      some (some sent, { next with task := next.task.machMsg sent.decode })

end Receive

end Bytewise

end Hurd.Netmsg
