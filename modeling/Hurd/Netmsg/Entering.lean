import Hurd.Netmsg.Counted

/-!
# The rights that come by IPC

The kernel puts the rights of a message under names of netmsg's task, and `ipcBufferHandler` enters
them one by one.  That goes well for a proxy, whose own right is what its type says.  A right of
another port must be the only one that netmsg has of it.
-/

namespace Hurd.Netmsg

/-- How many send and receive rights there are for a port -/
def portRights (rights : List (TypeName × Port)) (port : Port) : ℕ :=
  rights.count (.moveSend, port) + rights.count (.moveReceive, port)

/-- Send rights become references to a dead name, and one more comes with the notification. -/
def Holding.die (holding : Holding) : Holding :=
  { holding with
    send := 0
    dead := holding.dead + holding.send + 1
    deadNameRequest := false }

/-- The port of a name dies elsewhere. -/
def Task.die (task : Task) (name : Port) : Task := task.modify name Holding.die

theorem Task.holds_die (task : Task) (name other : Port) :
    ((task.die name).dropDeadNames name).holds other =
      if other = name then (task.holds name).die.dropDeadNames else task.holds other := by
  rw [Task.holds_dropDeadNames, Task.die, Task.holds_modify, if_pos rfl]
  split_ifs with same
  · rfl
  · rw [Task.holds_modify, if_neg same]

theorem Holding.receive_die (holding : Holding) :
    holding.die.dropDeadNames.receive = holding.receive := by
  rw [Holding.dropDeadNames]
  split_ifs <;> rfl

/-- The DEAD NAME notification that the kernel sends -/
def deadNameNotification (notificationPort name : Port) : Message :=
  { localType := some .moveSendOnce, localPort := notificationPort, id := msgidDeadName,
    body := [⟨.portName, [name]⟩] }

namespace Session

/-- What the kernel promises of a message that comes by IPC -/
structure FromKernel (session : Session) (message : Message) : Prop where
  notDeadName : message.localPort = session.notificationPort → message.id ≠ msgidDeadName
  noReceiveReply : message.remoteType ≠ some .moveReceive
  oneReceive : ∀ port, ¬port.Nothing → message.rights.count (.moveReceive, port) ≤ 1
  notHeld : ∀ port, ¬port.Nothing → 0 < message.rights.count (.moveReceive, port) →
    (session.task.holds port).receive = false

/-- No map knows where the message goes. -/
structure Strays (session : Session) (message : Message) : Prop where
  notControl : message.localPort ≠ session.control
  notNotified : message.localPort ≠ session.notificationPort
  unlinked : session.names.remotePortsByLocal message.localPort = none
  unlinkedOnce : session.names.sendOncePortsByLocal message.localPort = none
  untyped : session.names.localPortType message.localPort = none

/-- The rights of a message can be entered: none comes twice unless a proxy stands for it. -/
structure Enters (session : Session) (message : Message) : Prop where
  alone : ∀ port, port ≠ session.firstPort → ¬port.Nothing →
    session.names.remotePortsByLocal port = none → 0 < portRights message.rights port →
      (session.task.holds port).receive = false ∧ (session.task.holds port).send = 0 ∧
        portRights message.carried port = 1
  reply : message.remoteType = some .moveSend → message.remotePort ≠ session.firstPort →
    ¬message.remotePort.Nothing → session.names.localPortType message.remotePort = none
  noSenders : message.id = msgidNoSenders → message.localPort ≠ session.firstPort →
    ¬message.localPort.Nothing → portRights message.rights message.localPort = 0

variable {session next : Session} {message : Message} {port : Port}

/-- A reply port that takes a send right is counted with the rights of the body. -/
theorem count_carried_of_reply (isReply : message.remoteType = some .moveSend) :
    portRights message.carried message.remotePort =
      portRights message.rights message.remotePort + 1 := by
  simp only [portRights, Message.carried, isReply]
  rw [count_right_self, count_receive_of_send]
  omega

theorem count_carried_of_not_reply {type : TypeName}
    (notReply : ¬(message.remoteType = some type ∧ message.remotePort = port)) :
    message.carried.count (type, port) = message.rights.count (type, port) := by
  rw [Message.carried]
  cases replyType : message.remoteType with
  | none => rfl
  | some other =>
      apply List.count_cons_of_ne
      rintro ⟨⟩
      exact notReply ⟨replyType, rfl⟩

/-- The rights of a message arrive, and are then still to be entered. -/
theorem AllOwe.arrives (owes : session.AllOwe [])
    (isConsistent : session.names.ConsistentBut machPortNull)
    (fromKernel : session.FromKernel message) (enters : session.Enters message) :
    Session.AllAwait { session with task := session.task.receive message } message.rights := by
  intro port notFirst something
  have owe := owes port notFirst something
  have arrived := arrived_takeAll session.task message.carried something
  rw [← receive_eq_foldl] at arrived
  have sameReceives : message.carried.count (.moveReceive, port) =
      message.rights.count (.moveReceive, port) :=
    count_carried_of_not_reply fun isReply => fromKernel.noReceiveReply isReply.1
  by_cases isReply : message.remoteType = some .moveSend ∧ message.remotePort = port
  · rcases isReply with ⟨isReply, rfl⟩
    have untyped := enters.reply isReply notFirst something
    have unlinked : session.names.remotePortsByLocal message.remotePort = none := by
      by_contra linked
      exact isConsistent.consistent.typed _ linked untyped
    have noRights : portRights message.rights message.remotePort = 0 := by
      by_contra someRights
      have isOne := (enters.alone _ notFirst something unlinked (Nat.pos_of_ne_zero someRights)).2.2
      rw [count_carried_of_reply isReply] at isOne
      omega
    rw [portRights] at noRights
    refine .settled (.unknown untyped (by omega) (by omega) fun isOnce => ⟨?_, unlinked⟩) fun _ =>
      ⟨by omega, by omega⟩
    cases owe with
    | known _ notOnce => exact absurd notOnce isOnce
    | unknown _ _ _ once =>
        refine arrived.receive.trans ?_
        have held : (session.task.holds message.remotePort).receive = true := (once isOnce).1
        simp [held]
  · rw [count_carried_of_not_reply isReply, sameReceives] at arrived
    refine owe.arrives (isConsistent.consistent.typed port) arrived
      (fromKernel.oneReceive port something) (fromKernel.notHeld port something) ?_
    intro unlinked someRights
    rcases enters.alone port notFirst something unlinked someRights with ⟨noReceive, noSend, isOne⟩
    rw [portRights, count_carried_of_not_reply isReply, sameReceives] at isOne
    exact ⟨noReceive, noSend, isOne⟩

/-- The rights of a message that is discarded stay where they have arrived. -/
theorem AllOwe.discards (owes : session.AllOwe [])
    (untouched : ∀ port, port ≠ session.firstPort → ¬port.Nothing →
      session.names.localPortType port ≠ none → portRights message.carried port = 0) :
    Session.AllOwe { session with task := session.task.receive message } [] := by
  intro port notFirst something
  have arrived := arrived_takeAll session.task message.carried something
  rw [← receive_eq_foldl] at arrived
  refine (owes port notFirst something).discards arrived fun typed => ?_
  have noRights := untouched port notFirst something typed
  rw [portRights] at noRights
  exact ⟨by omega, by omega⟩

/-- A message to a send-once right uses it up; no other right hangs on its name. -/
theorem AllAwait.unlinkOnce {rights : List (TypeName × Port)} {remote : Port}
    (awaits : session.AllAwait rights) (linked : session.names.sendOncePortsByLocal port = some remote) :
    Session.AllAwait
      { session with
        names := session.names.unlinkOnce remote port
        task := session.task.destroyReceive port } rights := by
  intro other notFirst something
  have await := awaits other notFirst something
  by_cases same : other = port
  · subst same
    have isOnce : (session.entry other).once ≠ none := by
      rw [entry, linked]
      exact Option.some_ne_none remote
    cases await with
    | own _ _ notOnce => exact absurd notOnce isOnce
    | settled owes =>
        cases owes with
        | known _ notOnce => exact absurd notOnce isOnce
        | unknown untyped noSends noReceives =>
            refine .settled (.unknown untyped noSends noReceives fun stillOnce => ?_) fun _ =>
              ⟨noSends, noReceives⟩
            exact absurd (by simp [entry, Names.unlinkOnce]) stillOnce
  · have sameEntry : Session.entry { session with
        names := session.names.unlinkOnce remote port
        task := session.task.destroyReceive port } other = session.entry other := by
      simp [entry, account, Names.unlinkOnce, Task.holds_destroyReceive, same]
    rw [sameEntry]
    exact await

/-- What becomes of a message that comes by IPC: the rights that it has brought are entered. -/
theorem AllAwait.ipcBufferHandler {sent : Option Message} (awaits : session.AllAwait message.rights)
    (notDeadName : message.localPort = session.notificationPort → message.id ≠ msgidDeadName)
    (noSenders : message.id = msgidNoSenders → message.localPort ≠ session.firstPort →
      ¬message.localPort.Nothing → portRights message.rights message.localPort = 0)
    (known : ¬session.Strays message)
    (handled : session.ipcBufferHandler message = some (sent, next)) : next.AllOwe [] := by
  rcases ipcBufferHandler_cases handled with ⟨isDiscarded, _⟩ | ⟨relayed, deadName, routed, released,
    written, translated, isRouted, isReleased, isTranslated, -, rfl⟩
  · cases isDiscarded with
    | discard notControl notNotified unlinked unlinkedOnce untyped =>
        exact absurd ⟨notControl, notNotified, unlinked, unlinkedOnce, untyped⟩ known
  · have atRoute : routed.AllAwait message.rights ∧ relayed.body = message.body ∧
        relayed.id = message.id ∧ deadName = machPortNull ∧ routed.firstPort = session.firstPort := by
      cases isRouted with
      | control => exact ⟨awaits, rfl, rfl, rfl, rfl⟩
      | unknownDeadName _ notified isDeadName => exact absurd isDeadName (notDeadName notified)
      | deadName _ notified isDeadName => exact absurd isDeadName (notDeadName notified)
      | notification => exact ⟨awaits, rfl, rfl, rfl, rfl⟩
      | proxy => exact ⟨awaits, rfl, rfl, rfl, rfl⟩
      | sendOnce _ _ _ linked => exact ⟨awaits.unlinkOnce linked, rfl, rfl, rfl, rfl⟩
      | own => exact ⟨awaits, rfl, rfl, rfl, rfl⟩
      | raw => exact ⟨awaits, rfl, rfl, rfl, rfl⟩
    rcases atRoute with ⟨routedAwaits, sameBody, sameId, rfl, sameFirst⟩
    have releasedAwaits : released.AllAwait relayed.rights := by
      have sameRights : relayed.rights = message.rights := by
        rw [Message.rights, sameBody, Message.rights]
      rw [sameRights]
      rcases releaseNoSenders_cases isReleased with ⟨_, rfl⟩ | ⟨isNoSenders, typed, rfl⟩
      · exact routedAwaits
      · refine routedAwaits.forgets (forgets_unlink fun other different => ?_) (by simp [typed]) ?_
        · rw [Task.holds_destroyReceive, if_neg different]
        · intro notFirst something
          have noRights := noSenders (sameId ▸ isNoSenders) (sameFirst ▸ notFirst) something
          rw [portRights] at noRights
          exact ⟨by omega, by omega⟩
    have entered := releasedAwaits.translateForTransmission isTranslated
    intro port notFirst something
    exact (entered port notFirst something).owes

/-- A port dies: netmsg forgets it, and has no account of it any more. -/
theorem AllOwe.dies {sent : Option Message} (owes : session.AllOwe [])
    (isConsistent : session.names.ConsistentBut machPortNull)
    (apart : session.control ≠ session.notificationPort)
    (handled : Session.ipcBufferHandler { session with task := session.task.die port }
      (deadNameNotification session.notificationPort port) = some (sent, next)) : next.AllOwe [] := by
  rcases ipcBufferHandler_cases handled with ⟨isDiscarded, _⟩ | ⟨relayed, deadName, routed, released,
    written, translated, isRouted, isReleased, isTranslated, -, rfl⟩
  · cases isDiscarded with
    | discard _ notNotified => exact absurd rfl notNotified
  · cases isRouted with
    | control isControl => exact absurd isControl.symm apart
    | unknownDeadName _ _ _ named untyped =>
        cases named
        cases isReleased
        cases isTranslated
        have unlinked : session.names.remotePortsByLocal port = none := by
          by_contra linked
          exact isConsistent.consistent.typed port linked untyped
        have forgotten := owes.of_untyped untyped (session.task.holds_die port) fun holding =>
          (Holding.receive_die holding).trans
        rw [forgetDeadName]
        split_ifs
        · simpa [Names.unlinkIfLinked, unlinked] using forgotten
        · exact forgotten
    | deadName _ _ _ named typed =>
        cases named
        cases isReleased
        cases isTranslated
        have others : ∀ other, other ≠ port →
            ((session.task.die port).dropDeadNames port).holds other = session.task.holds other := by
          intro other different
          rw [Task.holds_die, if_neg different]
        have isTyped : session.names.localPortType port ≠ none :=
          fun untyped => Option.some_ne_none _ (typed.symm.trans untyped)
        have notOnce : port ≠ session.firstPort → ¬port.Nothing →
            session.names.sendOncePortsByLocal port = none :=
          fun notFirst something => owes.notOnce notFirst something isTyped
        rw [forgetDeadName]
        split_ifs with isNull
        · exact owes.forgets (forgets_unlinkIfLinked others) fun notFirst something isOnce =>
            absurd (notOnce notFirst something) isOnce
        · refine owes.forgets ⟨rfl, by simp [Names.eraseType], rfl, fun other different => ?_⟩
            fun notFirst something isOnce => absurd (notOnce notFirst something) isOnce
          simp [account, others other different, Names.eraseType, different]
    | notification _ _ isOther => simp [deadNameNotification, msgidDeadName, msgidPortDeleted, msgidSendOnce] at isOther
    | proxy _ notNotified => exact absurd rfl notNotified
    | sendOnce _ notNotified => exact absurd rfl notNotified
    | own _ notNotified => exact absurd rfl notNotified
    | raw _ notNotified => exact absurd rfl notNotified

end Session

end Hurd.Netmsg
