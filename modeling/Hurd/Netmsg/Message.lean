import Mathlib.Data.BitVec
import Mathlib.Tactic.Common

/-!
# Mach messages as netmsg reads them

A port name is a 32-bit number.  `MACH_PORT_NULL` and `MACH_PORT_DEAD` name no port, and
`MACH_PORT_CONTROL` is the number that stands for the control port on the network.  In the body
of a network message a number with the high bit set is the complement of a name in the
receiver's own name space.

The body of a message is a list of typed items.  Only the type and the elements of an item,
read as port names, matter here; out-of-line memory and the sizes of the items are the
business of the wire format.
-/

namespace Hurd.Netmsg

/-- `mach_port_t` -/
abbrev Port := BitVec 32

/-- `MACH_PORT_NULL` -/
def machPortNull : Port := 0

/-- `MACH_PORT_DEAD` -/
def machPortDead : Port := ~~~0

/-- `MACH_PORT_CONTROL` -/
def machPortControl : Port := ~~~1

/-- `port & 0x80000000` -/
def Port.flagged (port : Port) : Bool := port.msb

/-- `mach_msg_type_name_t`: on arrival `PORT_SEND` is `MOVE_SEND` and so on for the others. -/
inductive TypeName
  | moveReceive
  | moveSend
  | moveSendOnce
  | copySend
  | makeSend
  | makeSendOnce
  | portName
  | data
deriving DecidableEq

/-- A typed item of a message body. -/
structure Item where
  name : TypeName
  ports : List Port
deriving DecidableEq

/-- `MACH_NOTIFY_PORT_DELETED` -/
def msgidPortDeleted : ℕ := 65

/-- `MACH_NOTIFY_NO_SENDERS` -/
def msgidNoSenders : ℕ := 70

/-- `MACH_NOTIFY_SEND_ONCE` -/
def msgidSendOnce : ℕ := 71

/-- `MACH_NOTIFY_DEAD_NAME` -/
def msgidDeadName : ℕ := 72

/-- A Mach message; `localType` and `remoteType` are the two types in `msgh_bits`. -/
structure Message where
  remoteTranslate : Bool := false
  localType : Option TypeName := some .moveSend
  remoteType : Option TypeName := none
  localPort : Port
  remotePort : Port := machPortNull
  id : ℕ := 0
  body : List Item := []
deriving DecidableEq

/-- The element at a place in the body, with the type of its item. -/
def Message.rightAt (message : Message) (place element : ℕ) : Option (TypeName × Port) := do
  let item ← message.body[place]?
  let port ← item.ports[element]?
  some (item.name, port)

namespace Port

variable {port : Port}

/-- A flagged number is not `MACH_PORT_NULL`. -/
theorem not_null_of_flagged (flagged : port.flagged = true) : port ≠ machPortNull := by
  rintro rfl
  simp [Port.flagged, machPortNull] at flagged

/-- The complement of a number is flagged if the number is not. -/
theorem flagged_not (port : Port) : Port.flagged (~~~port) = !port.flagged := by
  simp [Port.flagged]

theorem not_dead_of_not_flagged (unflagged : port.flagged = false) : port ≠ machPortDead := by
  rintro rfl
  revert unflagged
  decide

theorem not_control_of_not_flagged (unflagged : port.flagged = false) :
    port ≠ machPortControl := by
  rintro rfl
  revert unflagged
  decide

end Port

end Hurd.Netmsg
