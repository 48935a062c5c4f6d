import Hurd.Netmsg.Reliance

/-!
# What the handlers keep for the other side

Each handler is seen twice: as that of the owner of a port, which goes on to have it or says that it
is gone, and as that of the holder of a proxy for it, which asks for no more than the owner has.
-/

namespace Hurd.Netmsg

/-- A right on the network comes from one of the message, and its port is retained. -/
structure Message.Written (message : Message) (names : Names) (right : TypeName × Port) : Prop where
  ofMessage : ∃ port, (right.1, port) ∈ message.rights
  retains : right.1 = .moveSend ∨ right.1 = .moveReceive → right.2.IsName → names.Retains right.2

theorem Message.Written.transmits {message : Message} {names next : Names} {right : TypeName × Port}
    {type : TypeName} {port word : Port} (written : message.Written names right)
    (transmitted : names.Transmits type port word next) : message.Written next right :=
  ⟨written.ofMessage, fun isRight isName => (written.retains isRight isName).transmits transmitted⟩

theorem Message.DeadNameFor.transmit {session next : Session} {message sent : Message} {port : Port}
    {translatePortNames : Bool} (isDead : message.DeadNameFor port)
    (translated : session.translateForTransmission message translatePortNames = some (sent, next)) :
    sent.DeadNameFor (session.transmitName translatePortNames port) := by
  rcases isDead with ⟨toControl, isDeadName, named, noReply⟩
  rcases Option.bind_eq_some_iff.mp translated with ⟨⟨body, last⟩, traversed, ⟨⟩⟩
  rw [named] at traversed
  rcases Loop.traverse_cons_iff.mp traversed with ⟨item, middle, others, itemDone, atEnd, rfl⟩
  rcases Loop.traverse_nil_iff.mp atEnd with ⟨rfl, rfl⟩
  cases itemDone
  exact ⟨toControl, isDeadName, rfl, noReply⟩

theorem Message.mem_carried_iff {message : Message} {right : TypeName × Port} :
    right ∈ message.carried ↔ message.remoteType = some right.1 ∧ message.remotePort = right.2 ∨
      right ∈ message.rights := by
  rw [Message.carried]
  cases message.remoteType with
  | none => simp
  | some type => simp [Prod.ext_iff, eq_comm]

/-- The notification names its port, and it carries no right. -/
theorem Message.DeadNameFor.carried {wire : Message} {port : Port}
    (isDead : wire.DeadNameFor port) : wire.carried = [(.portName, port)] := by
  simp [Message.carried, isDead.noReply, Message.rights, isDead.named, Item.rights]

theorem Message.DeadNameFor.regular {wire : Message} {port : Port}
    (isDead : wire.DeadNameFor port) : wire.Regular := by
  refine ⟨fun right isIn => ?_, fun isNoSenders => ?_, fun _ => ⟨port, isDead⟩⟩
  · rw [isDead.carried] at isIn
    cases List.mem_singleton.mp isIn
    simp [TypeName.Received]
  · cases isDead.isDeadName.symm.trans isNoSenders

theorem Message.not_deadName_of_noSenders {message : Message}
    (isNoSenders : message.id = msgidNoSenders) : message.id ≠ msgidDeadName := by
  rw [isNoSenders]
  decide

namespace Session

variable {session next : Session} {message wire sent : Message} {port : Port}

/-- What the transmission of every right of a message keeps, that of the message keeps. -/
theorem translateForTransmission_rights (invariant : Names → Prop) {translatePortNames : Bool}
    (kept : ∀ {names next type port word}, (type, port) ∈ message.rights → invariant names →
      names.Transmits type port word next → invariant next)
    (initially : invariant session.names)
    (translated : session.translateForTransmission message translatePortNames = some (sent, next)) :
    invariant next.names := by
  rcases Option.bind_eq_some_iff.mp translated with ⟨⟨body, last⟩, traversed, ⟨⟩⟩
  refine Loop.traverse_invariant (fun session => invariant session.names) ?_ initially traversed
  intro item itemMem before result after holds itemDone
  rcases transmitItem_cases itemDone with ⟨rfl, _⟩ | ⟨pass, ports, transmits, portsDone, _⟩
  · exact holds
  · refine Loop.traverse_invariant (fun session => invariant session.names) ?_ holds portsDone
    intro port portMem before word after holds done
    apply kept _ holds (transmits done)
    exact List.mem_flatMap.mpr ⟨item, itemMem, List.mem_map_of_mem portMem⟩

/-- What the rights of a message are written as -/
theorem written_translateForTransmission {dying : Port}
    (isConsistent : session.names.ConsistentBut dying)
    (translated : session.translateForTransmission message false = some (sent, next)) :
    ∀ right ∈ sent.rights, message.Written next.names right := by
  rcases Option.bind_eq_some_iff.mp translated with ⟨⟨body, last⟩, traversed, ⟨⟩⟩
  have written := Loop.traverse_progress (fun rest done (middle : Session) =>
    (∀ item ∈ rest, item ∈ message.body) ∧ middle.names.ConsistentBut dying ∧
      ∀ item ∈ done, ∀ right ∈ Item.rights item, message.Written middle.names right) ?_
    ⟨fun _ isIn => isIn, isConsistent, by simp⟩ traversed
  · intro right isIn
    rcases List.mem_flatMap.mp isIn with ⟨item, itemMem, isIn⟩
    exact written.2.2 item itemMem right isIn
  · rintro item rest done before replaced after ⟨allMem, isConsistent, written⟩ itemDone
    rcases List.forall_mem_cons.mp allMem with ⟨itemMem, restMem⟩
    have inMessage : ∀ {port}, port ∈ item.ports → (item.name, port) ∈ message.rights :=
      fun portMem => List.mem_flatMap.mpr ⟨item, itemMem, List.mem_map_of_mem portMem⟩
    rcases transmitItem_cases itemDone with
      ⟨rfl, isSame⟩ | ⟨pass, ports, transmits, portsDone, isItem⟩
    · rcases isSame rfl with ⟨rfl, notSend, notReceive⟩
      refine ⟨restMem, isConsistent, fun other isIn right rightMem => ?_⟩
      rcases List.mem_append.mp isIn with isIn | isIn
      · exact written other isIn right rightMem
      · cases List.mem_singleton.mp isIn
        rcases List.mem_map.mp rightMem with ⟨port, portMem, rfl⟩
        exact ⟨⟨port, inMessage portMem⟩, fun isRight => (isRight.elim notSend notReceive).elim⟩
    · have portsWritten := Loop.traverse_progress (fun left words (middle : Session) =>
        (∀ port ∈ left, port ∈ item.ports) ∧ middle.names.ConsistentBut dying ∧
          (∀ word ∈ words, message.Written middle.names (item.name, word)) ∧
            ∀ other ∈ done, ∀ right ∈ Item.rights other, message.Written middle.names right) ?_
        ⟨fun _ isIn => isIn, isConsistent, by simp, written⟩ portsDone
      · rcases portsWritten with ⟨-, afterConsistent, wordsWritten, doneWritten⟩
        cases isItem rfl
        refine ⟨restMem, afterConsistent, fun other isIn right rightMem => ?_⟩
        rcases List.mem_append.mp isIn with isIn | isIn
        · exact doneWritten other isIn right rightMem
        · cases List.mem_singleton.mp isIn
          rcases List.mem_map.mp rightMem with ⟨word, wordMem, rfl⟩
          exact wordsWritten word wordMem
      · rintro port left words middle word later
          ⟨leftMem, isConsistent, wordsWritten, doneWritten⟩ done
        rcases List.forall_mem_cons.mp leftMem with ⟨portMem, othersMem⟩
        have transmitted := transmits done
        refine ⟨othersMem, isConsistent.transmits transmitted, fun other isIn => ?_,
          fun other isIn right rightMem => ?_⟩
        · rcases List.mem_append.mp isIn with isIn | isIn
          · exact (wordsWritten other isIn).transmits transmitted
          · cases List.mem_singleton.mp isIn
            exact ⟨⟨port, inMessage portMem⟩,
              fun _ isName => transmitted.retains isName isConsistent⟩
        · exact (doneWritten other isIn right rightMem).transmits transmitted

/-- A message that the kernel delivers: with rights of a task, or a notification for netmsg -/
inductive Receives (session : Session) (message : Message) : Prop
  | rights (received : ∀ right ∈ message.carried, right.1.Received)
      (noReceiveReply : message.remoteType ≠ some .moveReceive)
      (notNoSenders : message.id ≠ msgidNoSenders) (notDeadName : message.id ≠ msgidDeadName) :
      Receives session message
  | noSenders (isNoSenders : message.id = msgidNoSenders) (noRights : message.carried = [])
      (notControl : message.localPort ≠ session.control)
      (notOnce : session.names.sendOncePortsByLocal message.localPort = none) :
      Receives session message
  | deadName {name : Port} (apart : session.notificationPort ≠ session.control)
      (isNotification : message = deadNameNotification session.notificationPort name) :
      Receives session message

/-- A name that is no proxy is that of our own port on the network, too. -/
theorem transmitName_of_unlinked {translatePortNames : Bool}
    (unlinked : session.names.remotePortsByLocal port = none) :
    session.transmitName translatePortNames port = port := by
  unfold transmitName
  rw [unlinked]
  split_ifs <;> rfl

theorem retains_forgetDeadName (retains : session.names.Retains port) (deadName : Port) :
    (session.forgetDeadName deadName).names.Retains port := by
  rw [forgetDeadName]
  split_ifs
  · exact retains.unlinkIfLinked deadName
  · exact retains

/-- Once a message has been routed, our own ports stay. -/
theorem retains_translateForTransmission {translatePortNames : Bool}
    (retains : session.names.Retains port)
    (translated : session.translateForTransmission message translatePortNames = some (sent, next))
    (deadName : Port) : (next.forgetDeadName deadName).names.Retains port := by
  refine retains_forgetDeadName ?_ deadName
  exact translateForTransmission_rights (fun names => names.Retains port)
    (fun _ retains transmitted => retains.transmits transmitted) retains translated

/-- A message is relayed with its rights. -/
theorem Routes.same {relayed : Message} {deadName : Port} {routed : Session}
    (isRouted : session.Routes message (.relay relayed deadName routed)) :
    relayed.id = message.id ∧ relayed.rights = message.rights ∧
      relayed.remoteType = message.remoteType ∧ relayed.remotePort = message.remotePort ∧
      (message.id ≠ msgidDeadName → deadName = machPortNull) := by
  cases isRouted with
  | control => exact ⟨rfl, rfl, rfl, rfl, fun _ => rfl⟩
  | unknownDeadName _ _ isDeadName => exact ⟨rfl, rfl, rfl, rfl, absurd isDeadName⟩
  | deadName _ _ isDeadName => exact ⟨rfl, rfl, rfl, rfl, absurd isDeadName⟩
  | notification => exact ⟨rfl, rfl, rfl, rfl, fun _ => rfl⟩
  | proxy => exact ⟨rfl, rfl, rfl, rfl, fun _ => rfl⟩
  | sendOnce => exact ⟨rfl, rfl, rfl, rfl, fun _ => rfl⟩
  | own => exact ⟨rfl, rfl, rfl, rfl, fun _ => rfl⟩
  | raw => exact ⟨rfl, rfl, rfl, rfl, fun _ => rfl⟩

/-- Routing makes no proxy and no type. -/
theorem Routes.shrinks {relayed : Message} {deadName : Port} {routed : Session}
    (isRouted : session.Routes message (.relay relayed deadName routed)) :
    session.names.Shrinks routed.names := by
  cases isRouted with
  | control => exact ⟨id, id⟩
  | unknownDeadName => exact ⟨id, id⟩
  | deadName => exact session.names.shrinks_eraseType deadName
  | notification => exact ⟨id, id⟩
  | proxy => exact ⟨id, id⟩
  | sendOnce => exact ⟨id, id⟩
  | own => exact ⟨id, id⟩
  | raw => exact ⟨id, id⟩

/-- Routing keeps our own ports, except for a dead name. -/
theorem Routes.retains {relayed : Message} {deadName : Port} {routed : Session}
    (isRouted : session.Routes message (.relay relayed deadName routed))
    (retains : session.names.Retains port)
    (notDead : message.id = msgidDeadName → port ≠ deadName) : routed.names.Retains port := by
  cases isRouted with
  | control => exact retains
  | unknownDeadName => exact retains
  | deadName _ _ isDeadName => exact retains.eraseType (notDead isDeadName)
  | notification => exact retains
  | proxy => exact retains
  | sendOnce => exact ⟨retains.typed, retains.unlinked⟩
  | own => exact retains
  | raw => exact retains

/-- A message with rights makes us forget nothing. -/
theorem retains_of_rights {written : Option Message} (notNoSenders : message.id ≠ msgidNoSenders)
    (notDeadName : message.id ≠ msgidDeadName) (retains : session.names.Retains port)
    (handled : session.ipcBufferHandler message = some (written, next)) :
    next.names.Retains port := by
  rcases ipcBufferHandler_cases handled with ⟨_, _, rfl⟩ | ⟨relayed, deadName, routed, released,
    written, translated, isRouted, isReleased, isTranslated, _, rfl⟩
  · exact retains
  · have isRetained := isRouted.retains retains fun isDead => absurd isDead notDeadName
    rcases releaseNoSenders_cases isReleased with ⟨_, rfl⟩ | ⟨isNoSenders, _, _⟩
    · exact retains_translateForTransmission isRetained isTranslated deadName
    · exact absurd (isRouted.same.1.symm.trans isNoSenders) notNoSenders

/-- A port that has no senders is forgotten, and the other side is told. -/
theorem retains_of_noSenders {written : Option Message} (isNoSenders : message.id = msgidNoSenders)
    (notControl : message.localPort ≠ session.control)
    (notOnce : session.names.sendOncePortsByLocal message.localPort = none)
    (retains : session.names.Retains port)
    (handled : session.ipcBufferHandler message = some (written, next)) :
    next.names.Retains port ∨
      message.localPort = port ∧ ∃ wire, written = some wire ∧ wire.NoSendersFor port := by
  have notDeadName := Message.not_deadName_of_noSenders isNoSenders
  rcases ipcBufferHandler_cases handled with ⟨_, _, rfl⟩ | ⟨relayed, deadName, routed, released,
    written, translated, isRouted, isReleased, isTranslated, rfl, rfl⟩
  · exact .inl retains
  · have isRetained := isRouted.retains retains fun isDead => absurd isDead notDeadName
    rcases releaseNoSenders_cases isReleased with ⟨notNoSenders, _⟩ | ⟨_, typed, rfl⟩
    · exact absurd (isRouted.same.1.trans isNoSenders) notNoSenders
    · by_cases same : port = message.localPort
      · subst same
        refine .inr ⟨rfl, written, rfl, ?_⟩
        rcases Option.bind_eq_some_iff.mp isTranslated with ⟨⟨body, _⟩, _, ⟨⟩⟩
        cases isRouted with
        | control isControl => exact absurd isControl notControl
        | unknownDeadName _ _ isDeadName => exact absurd isDeadName notDeadName
        | deadName _ _ isDeadName => exact absurd isDeadName notDeadName
        | notification _ _ isOther =>
            simp [isNoSenders, msgidNoSenders, msgidPortDeleted, msgidSendOnce] at isOther
        | proxy _ _ linked => cases retains.unlinked.symm.trans linked
        | sendOnce _ _ _ linked => cases notOnce.symm.trans linked
        | own => exact ⟨rfl, rfl, isNoSenders⟩
        | raw _ _ _ _ isType notReceive =>
            exact absurd (Option.some.inj (isType.symm.trans typed)) notReceive
      · refine .inl (retains_translateForTransmission ?_ isTranslated deadName)
        exact (isRetained.eraseType same).unlink message.localPort

/-- The name of a DEAD NAME notification is forgotten, and the other side is told. -/
theorem retains_of_deadName {written : Option Message} {name : Port}
    (apart : session.notificationPort ≠ session.control)
    (handled : session.ipcBufferHandler (deadNameNotification session.notificationPort name) =
      some (written, next)) :
    ∃ wire word, written = some wire ∧ wire.DeadNameFor word ∧
      ∀ port, session.names.Retains port → next.names.Retains port ∨ word = port := by
  rcases ipcBufferHandler_cases handled with ⟨isDiscarded, _, _⟩ | ⟨relayed, deadName, routed,
    released, written, translated, isRouted, isReleased, isTranslated, rfl, rfl⟩
  · cases isDiscarded with
    | discard _ notNotified => exact absurd rfl notNotified
  · have isDead : relayed.DeadNameFor name ∧ deadName = name ∧
        routed.names.remotePortsByLocal = session.names.remotePortsByLocal := by
      cases isRouted with
      | control isControl => exact absurd isControl apart
      | unknownDeadName _ _ _ named =>
          cases named
          exact ⟨⟨rfl, rfl, rfl, rfl⟩, rfl, rfl⟩
      | deadName _ _ _ named =>
          cases named
          exact ⟨⟨rfl, rfl, rfl, rfl⟩, rfl, rfl⟩
      | notification _ _ isOther =>
          simp [deadNameNotification, msgidDeadName, msgidPortDeleted, msgidSendOnce] at isOther
      | proxy _ notNotified => exact absurd rfl notNotified
      | sendOnce _ notNotified => exact absurd rfl notNotified
      | own _ notNotified => exact absurd rfl notNotified
      | raw _ notNotified => exact absurd rfl notNotified
    rcases isDead with ⟨isDead, rfl, sameLinks⟩
    rcases releaseNoSenders_cases isReleased with ⟨_, rfl⟩ | ⟨isNoSenders, _, _⟩
    · refine ⟨written, _, rfl, isDead.transmit isTranslated, fun port retains => ?_⟩
      by_cases same : port = deadName
      · subst same
        exact .inr (transmitName_of_unlinked (sameLinks ▸ retains.unlinked))
      · exact .inl (retains_translateForTransmission (isRouted.retains retains fun _ => same)
          isTranslated deadName)
    · cases isDead.isDeadName.symm.trans isNoSenders

/-- The rights of a message are written, and that of its reply port goes out as it is. -/
theorem sent_ipcBufferHandler (notDeadName : message.id ≠ msgidDeadName)
    (isConsistent : session.names.ConsistentBut machPortNull)
    (handled : session.ipcBufferHandler message = some (some wire, next)) :
    wire.id = message.id ∧ ∀ right ∈ wire.carried,
      (message.remoteType = some right.1 ∧ message.remotePort = right.2) ∨
        message.Written next.names right := by
  rcases ipcBufferHandler_cases handled with ⟨_, isNone, _⟩ | ⟨relayed, deadName, routed, released,
    written, translated, isRouted, isReleased, isTranslated, isSent, rfl⟩
  · cases isNone
  · cases isSent
    rcases isRouted.same with ⟨sameId, sameRights, sameType, samePort, isNull⟩
    cases isNull notDeadName
    have releasedConsistent := Names.keptByIpc_consistent.released isConsistent isRouted isReleased
    have isWritten := written_translateForTransmission releasedConsistent isTranslated
    rcases Option.bind_eq_some_iff.mp isTranslated with ⟨⟨body, _⟩, _, ⟨⟩⟩
    refine ⟨sameId, fun right isIn => ?_⟩
    rcases Message.mem_carried_iff.mp isIn with ⟨replyType, replyPort⟩ | inBody
    · exact .inl ⟨sameType.symm.trans replyType, samePort.symm.trans replyPort⟩
    · rcases isWritten right inBody with ⟨ofMessage, retains⟩
      exact .inr ⟨sameRights ▸ ofMessage, retains⟩

/-- The types of the rights are those that they came with. -/
theorem type_of_sent {right : TypeName × Port} (notDeadName : message.id ≠ msgidDeadName)
    (isConsistent : session.names.ConsistentBut machPortNull)
    (handled : session.ipcBufferHandler message = some (some wire, next))
    (isIn : right ∈ wire.carried) : ∃ port, (right.1, port) ∈ message.carried := by
  rcases (sent_ipcBufferHandler notDeadName isConsistent handled).2 right isIn with
    ⟨replyType, _⟩ | written
  · exact ⟨message.remotePort, Message.mem_carried_iff.mpr (.inl ⟨replyType, rfl⟩)⟩
  · exact written.ofMessage.imp fun _ => mem_carried

/-- What is sent over the network is what the other side expects. -/
theorem regular_ipcBufferHandler (receives : session.Receives message)
    (isConsistent : session.names.ConsistentBut machPortNull)
    (handled : session.ipcBufferHandler message = some (some wire, next)) : wire.Regular := by
  cases receives with
  | rights received noReceiveReply notNoSenders notDeadName =>
      have sameId := (sent_ipcBufferHandler notDeadName isConsistent handled).1
      refine ⟨fun right isIn => ?_, fun isNoSenders => ?_, fun isDeadName => ?_⟩
      · rcases type_of_sent notDeadName isConsistent handled isIn with ⟨port, inMessage⟩
        exact received (right.1, port) inMessage
      · exact absurd (sameId.symm.trans isNoSenders) notNoSenders
      · exact absurd (sameId.symm.trans isDeadName) notDeadName
  | noSenders isNoSenders noRights =>
      have notDeadName := Message.not_deadName_of_noSenders isNoSenders
      have sameId := (sent_ipcBufferHandler notDeadName isConsistent handled).1
      have nothing : wire.carried = [] := by
        refine List.eq_nil_iff_forall_not_mem.mpr fun right isIn => ?_
        rcases type_of_sent notDeadName isConsistent handled isIn with ⟨port, inMessage⟩
        rw [noRights] at inMessage
        cases inMessage
      refine ⟨by simp [nothing], fun _ => nothing, fun isDeadName => ?_⟩
      exact absurd (sameId.symm.trans isDeadName) notDeadName
  | deadName apart isNotification =>
      subst isNotification
      rcases retains_of_deadName apart handled with ⟨_, word, ⟨⟩, isDead, -⟩
      exact isDead.regular

/-- The port of a right that has gone out stays one that has a type. -/
theorem retains_of_sent {type : TypeName} (isRight : type = .moveSend ∨ type = .moveReceive)
    (isName : port.IsName) (receives : session.Receives message)
    (isConsistent : session.names.ConsistentBut machPortNull)
    (reply : message.remoteType = some .moveSend → message.remotePort.IsName →
      session.names.Retains message.remotePort)
    (handled : session.ipcBufferHandler message = some (some wire, next))
    (isIn : (type, port) ∈ wire.carried) : next.names.Retains port := by
  have regular := regular_ipcBufferHandler receives isConsistent handled
  cases receives with
  | rights _ noReceiveReply notNoSenders notDeadName =>
      rcases (sent_ipcBufferHandler notDeadName isConsistent handled).2 _ isIn with
        ⟨replyType, rfl⟩ | written
      · rcases isRight with rfl | rfl
        · exact retains_of_rights notNoSenders notDeadName (reply replyType isName) handled
        · exact absurd replyType noReceiveReply
      · exact written.retains isRight isName
  | noSenders isNoSenders =>
      have notDeadName := Message.not_deadName_of_noSenders isNoSenders
      have sameId := (sent_ipcBufferHandler notDeadName isConsistent handled).1
      rw [regular.ofNoSenders (sameId.trans isNoSenders)] at isIn
      cases isIn
  | deadName apart isNotification =>
      subst isNotification
      rcases retains_of_deadName apart handled with ⟨_, word, ⟨⟩, isDead, -⟩
      rw [isDead.carried] at isIn
      cases List.mem_singleton.mp isIn
      simp at isRight

/-- Our own ports stay as the other side expects when a message is sent over the network. -/
theorem guards_ipcBufferHandler {holder : Names} {stream : List Message} {written : Option Message}
    (guards : session.names.Guards stream holder port) (isName : port.IsName)
    (receives : session.Receives message)
    (isConsistent : session.names.ConsistentBut machPortNull)
    (reply : message.remoteType = some .moveSend → message.remotePort.IsName →
      session.names.Retains message.remotePort)
    (unused : message.id = msgidNoSenders → session.names.Retains message.localPort →
      ¬holder.ReliesOn (stream.flatMap Message.carried) message.localPort)
    (handled : session.ipcBufferHandler message = some (written, next)) :
    next.names.Guards (stream ++ written.toList) holder port := by
  have atEnd : next.names.Secures port written.toList := by
    cases written with
    | none => trivial
    | some wire =>
        have retains : ∀ {type}, type = .moveSend ∨ type = .moveReceive →
            (type, port) ∈ wire.carried → next.names.Retains port := fun isRight isIn =>
          retains_of_sent isRight isName receives isConsistent reply handled isIn
        exact ⟨fun isIn => .inl (retains (.inl rfl) isIn),
          fun isIn => .inl (.inl (retains (.inr rfl) isIn)), trivial⟩
  by_cases isOwn : session.names.Retains port
  swap
  · exact guards.of_retains (fun retains => absurd retains isOwn) atEnd
  cases receives with
  | rights _ _ notNoSenders notDeadName =>
      have retains := retains_of_rights notNoSenders notDeadName isOwn handled
      exact guards.of_retains (fun _ => retains) atEnd
  | noSenders isNoSenders _ notControl notOnce =>
      rcases retains_of_noSenders isNoSenders notControl notOnce isOwn handled with
        retains | ⟨rfl, wire, rfl, notifies⟩
      · exact guards.of_retains (fun _ => retains) atEnd
      · exact guards.of_noSenders notifies (unused isNoSenders isOwn) atEnd
  | deadName apart isNotification =>
      subst isNotification
      rcases retains_of_deadName apart handled with ⟨wire, word, rfl, isDead, retains⟩
      rcases retains port isOwn with isRetained | rfl
      · exact guards.of_retains (fun _ => isRetained) atEnd
      · exact guards.of_deadName isDead atEnd

/-- A message that comes by IPC makes a proxy ask for more only where a receive right goes home. -/
theorem honored_ipcBufferHandler {owner : Names} {stream : List Message} {written : Option Message}
    (honored : owner.Honored stream session.names port)
    (isConsistent : session.names.ConsistentBut machPortNull)
    (goesHome : ∀ proxy, (.moveReceive, proxy) ∈ message.rights →
      session.names.remotePortsByLocal proxy = some port →
        owner.Lends stream port → owner.Stands stream port)
    (handled : session.ipcBufferHandler message = some (written, next)) :
    owner.Honored stream next.names port := by
  rcases ipcBufferHandler_cases handled with ⟨_, _, rfl⟩ | ⟨relayed, deadName, routed, released,
    written, translated, isRouted, isReleased, isTranslated, _, rfl⟩
  · exact honored
  · have shrinks : session.names.Shrinks released.names := by
      rcases releaseNoSenders_cases isReleased with ⟨_, rfl⟩ | ⟨_, _, rfl⟩
      · exact isRouted.shrinks
      · have erased := routed.names.shrinks_eraseType message.localPort
        exact isRouted.shrinks.trans (erased.trans (Names.shrinks_unlink _ _))
    have releasedConsistent := Names.keptByIpc_consistent.released isConsistent isRouted isReleased
    have translatedHonored := translateForTransmission_rights (fun names =>
        names.ConsistentBut deadName ∧
          names.localPortsByRemote = released.names.localPortsByRemote ∧
            owner.Honored stream names port) ?_
      ⟨releasedConsistent, rfl, honored.shrink shrinks⟩ isTranslated
    · have isHonored := translatedHonored.2.2
      rw [forgetDeadName]
      split_ifs
      · exact isHonored.shrink (Names.shrinks_unlinkIfLinked _ _)
      · exact isHonored
    · rintro names after type element word isIn ⟨isConsistentNow, sameLinks, isHonored⟩ transmitted
      refine ⟨isConsistentNow.transmits transmitted, transmitted.sameLinks.2.trans sameLinks,
        isHonored.transmits isConsistentNow.inverse ?_ transmitted⟩
      rintro rfl known
      have knownBefore := shrinks.link (sameLinks ▸ known)
      exact goesHome element (isRouted.same.2.1 ▸ isIn)
        ((isConsistent.inverse port element).mp knownBefore)

/-- A notification from the other side that is for a port of our own -/
inductive LetsGo (session : Session) (wire : Message) (port : Port) : Prop
  | noSenders {addressed : Message} (isNoSenders : wire.id = msgidNoSenders)
      (found : session.translateDestination wire = some (some addressed))
      (toPort : addressed.localPort = port) : LetsGo session wire port
  | deadName (isDeadName : wire.id = msgidDeadName) (named : deadNameOf wire = some (~~~port)) :
      LetsGo session wire port

/-- The translation of a name that is not a right -/
theorem translatePort2_name {word : Port}
    (translated : session.translatePort2 port .portName = some (word, next)) :
    next = session ∧ (port.Nothing ∧ word = port ∨ port.flagged = true ∧ word = ~~~port ∨
      word = (session.names.localPortsByRemote port).getD machPortNull) := by
  unfold translatePort2 at translated
  split_ifs at translated with isNothing flagged
  · cases translated
    exact ⟨rfl, .inl ⟨isNothing, rfl⟩⟩
  · rcases Option.bind_eq_some_iff.mp translated with ⟨_, isDone, ⟨⟩⟩
    cases isDone
    exact ⟨rfl, .inr (.inl ⟨flagged, rfl⟩)⟩
  · cases translated
    exact ⟨rfl, .inr (.inr rfl)⟩

/-- A message without rights is not changed. -/
theorem translateMessage_of_noRights {translatePortNames : Bool} (noRights : message.rights = []) :
    session.translateMessage message translatePortNames = some (message, session) := by
  have isSame : Loop.traverse (translateItem translatePortNames) session message.body =
      some (message.body, session) := by
    refine Loop.traverse_same fun item itemMem => ?_
    have noPorts : item.ports = [] :=
      List.map_eq_nil_iff.mp (List.flatMap_eq_nil_iff.mp noRights item itemMem)
    rcases item with ⟨name, ports⟩
    subst noPorts
    cases name with
    | portName => cases translatePortNames <;> rfl
    | _ => rfl
  simp [translateMessage, isSame]

/-- A DEAD NAME notification is handled for the name that stands for its number. -/
theorem deadName_tcpBufferHandler {written : Option Message} (isDead : wire.DeadNameFor port)
    (handled : session.tcpBufferHandler wire = some (written, next)) :
    ∃ word, session.translatePort2 port .portName = some (word, session) ∧
      session.handleDeadName word = some next := by
  rcases isDead with ⟨toControl, isDeadName, named, noReply⟩
  rcases tcpBufferHandler_cases handled with
    ⟨translated, middle, addressed, headed, isTranslated, isHeaded, -, rfl⟩
  rcases Option.bind_eq_some_iff.mp isTranslated with ⟨⟨body, _⟩, traversed, ⟨⟩⟩
  rw [named] at traversed
  rcases Loop.traverse_cons_iff.mp traversed with ⟨item, first, others, itemDone, atEnd, rfl⟩
  rcases Loop.traverse_nil_iff.mp atEnd with ⟨rfl, rfl⟩
  rcases translateItem_cases itemDone with ⟨isKept, -, -⟩ | ⟨ports, portsDone, rfl⟩
  · simp [toControl, isDeadName] at isKept
  · rcases Loop.traverse_cons_iff.mp portsDone with ⟨word, _, _, wordDone, wordEnd, rfl⟩
    rcases Loop.traverse_nil_iff.mp wordEnd with ⟨rfl, rfl⟩
    rcases translatePort2_name wordDone with ⟨rfl, _⟩
    refine ⟨word, wordDone, ?_⟩
    have toFirst : ∀ {found : Message}, middle.Addresses { wire with body := [⟨.portName, [word]⟩] }
        (some found) → found.localPort = middle.firstPort := by
      intro found addresses
      cases addresses with
      | first => rfl
      | linked notControl => exact absurd toControl notControl
      | asNumbered notControl => exact absurd toControl notControl
    cases (translateHeader_cases isHeaded).2 with
    | discard found =>
        cases found with
        | unknown notControl => exact absurd toControl notControl
    | noSenders _ isNoSenders => cases isDeadName.symm.trans isNoSenders
    | deadName _ _ _ isNamed isHandled =>
        cases isNamed
        exact isHandled
    | noReply found _ notDeadName => exact absurd ⟨isDeadName, toFirst found⟩ notDeadName
    | reply found _ notDeadName => exact absurd ⟨isDeadName, toFirst found⟩ notDeadName

/-- A NO SENDERS notification is discarded, or handled for the port that it is addressed to. -/
theorem noSenders_tcpBufferHandler {written : Option Message}
    (isNoSenders : wire.id = msgidNoSenders) (noRights : wire.rights = [])
    (handled : session.tcpBufferHandler wire = some (written, next)) :
    session.translateDestination wire = some none ∧ next = session ∨
      ∃ addressed, session.translateDestination wire = some (some addressed) ∧
        session.handleNoSenders addressed.localPort = some next := by
  rcases tcpBufferHandler_cases handled with
    ⟨translated, middle, addressed, headed, isTranslated, isHeaded, -, rfl⟩
  cases (translateMessage_of_noRights noRights).symm.trans isTranslated
  rcases Option.bind_eq_some_iff.mp isHeaded with ⟨_, _, isHeaded⟩
  rcases Option.bind_eq_some_iff.mp isHeaded with ⟨destination, found, isHeaded⟩
  cases destination with
  | none =>
      cases isHeaded
      exact .inl ⟨found, rfl⟩
  | some destination =>
      have sameId := (translateDestination_cases found).same.1
      rw [isNoSenders] at sameId
      simp only [sameId, if_true] at isHeaded
      rcases Option.bind_eq_some_iff.mp isHeaded with ⟨_, isHandled, ⟨⟩⟩
      exact .inr ⟨destination, found, isHandled⟩

/-- What the header of a message with rights does to the maps -/
theorem Heads.ofRights {result : Option Message} (headed : session.Heads message result next)
    (notNoSenders : message.id ≠ msgidNoSenders) (notDeadName : message.id ≠ msgidDeadName) :
    next = session ∨ ∃ type word, message.remoteType = some type ∧
      session.translatePort2 message.remotePort type = some (word, next) := by
  cases headed with
  | discard => exact .inl rfl
  | noSenders _ isNoSenders => exact absurd isNoSenders notNoSenders
  | deadName _ isDeadName => exact absurd isDeadName notDeadName
  | noReply => exact .inl rfl
  | reply _ _ _ replyType _ translated => exact .inr ⟨_, _, replyType, translated⟩

/-- What the translation of every right of a message keeps, the handling of the message keeps. -/
theorem tcpBufferHandler_carried {written : Option Message} (invariant : Names → List Port → Prop)
    (notNoSenders : wire.id ≠ msgidNoSenders) (notDeadName : wire.id ≠ msgidDeadName)
    (kept : ∀ {names after fresh left type port word}, (type, port) ∈ wire.carried →
      invariant names fresh → names.Translates fresh type port word after left →
        invariant after left)
    (initially : invariant session.names session.task.fresh)
    (handled : session.tcpBufferHandler wire = some (written, next)) :
    ∃ left, invariant next.names left := by
  rcases tcpBufferHandler_cases handled with
    ⟨translated, middle, addressed, headed, isTranslated, isHeaded, -, rfl⟩
  have atMiddle : invariant middle.names middle.task.fresh := by
    refine translateMessage_rights (fun middle => invariant middle.names middle.task.fresh) ?_
      initially isTranslated
    intro before port type word after isIn holds done
    exact kept (mem_carried isIn) holds (translatePort2_cases done).1
  rcases Option.bind_eq_some_iff.mp isTranslated with ⟨⟨body, _⟩, _, ⟨⟩⟩
  rcases (translateHeader_cases isHeaded).2.ofRights notNoSenders notDeadName with
    rfl | ⟨type, word, replyType, done⟩
  · exact ⟨_, atMiddle⟩
  · have isType : wire.remoteType = some type := replyType
    have isCarried : (type, wire.remotePort) ∈ wire.carried := by
      rw [Message.carried, isType]
      exact List.mem_cons_self
    exact ⟨_, kept isCarried atMiddle (translatePort2_cases done).1⟩

theorem rights_of_carried (noRights : wire.carried = []) : wire.rights = [] :=
  List.eq_nil_iff_forall_not_mem.mpr fun _ isIn => by simpa [noRights] using mem_carried isIn

/-- Our own port stays unless the other side lets go of it. -/
theorem retains_tcpBufferHandler {written : Option Message} (regular : wire.Regular)
    (isConsistent : session.names.ConsistentBut machPortNull) (isName : port.IsName)
    (notFresh : port ∉ session.task.fresh) (retains : session.names.Retains port)
    (notLetGo : ¬session.LetsGo wire port)
    (handled : session.tcpBufferHandler wire = some (written, next)) :
    next.names.Retains port := by
  by_cases isNoSenders : wire.id = msgidNoSenders
  · rcases noSenders_tcpBufferHandler isNoSenders
        (rights_of_carried (regular.ofNoSenders isNoSenders)) handled with
      ⟨-, rfl⟩ | ⟨addressed, found, isHandled⟩
    · exact retains
    · rcases handleNoSenders_cases isHandled with ⟨_, rfl⟩ | ⟨_, _, _, _, rfl⟩
      · exact retains
      · refine (retains.eraseType ?_).unlinkIfLinked _
        rintro rfl
        exact notLetGo (.noSenders isNoSenders found rfl)
  · by_cases isDeadName : wire.id = msgidDeadName
    · rcases regular.ofDeadName isDeadName with ⟨number, isDead⟩
      rcases deadName_tcpBufferHandler isDead handled with ⟨word, translated, isHandled⟩
      rcases handleDeadName_cases isHandled with ⟨_, rfl⟩ | ⟨_, rfl⟩
      · exact retains
      · refine (retains.eraseType ?_).unlinkIfLinked _
        rintro rfl
        rcases (translatePort2_name translated).2 with
          ⟨isNothing, rfl⟩ | ⟨_, isWord⟩ | isKnown
        · exact isName.something isNothing
        · apply notLetGo (.deadName isDeadName _)
          simp [deadNameOf, isDead.named, isWord]
        · cases known : session.names.localPortsByRemote number with
          | none =>
              rw [known] at isKnown
              exact isName.notNull isKnown
          | some proxy =>
              rw [known] at isKnown
              cases isKnown
              have linked := (isConsistent.inverse number proxy).mp known
              cases linked.symm.trans retains.unlinked
    · rcases tcpBufferHandler_carried (fun names fresh => names.Retains port ∧ port ∉ fresh)
          isNoSenders isDeadName (fun _ holds translated => holds.1.translates holds.2 translated)
          ⟨retains, notFresh⟩ handled with ⟨_, isRetained, -⟩
      exact isRetained

theorem handleDeadName_forgets (handled : session.handleDeadName port = some next) :
    session.names.Shrinks next.names ∧ next.names.localPortType port = none := by
  rcases handleDeadName_cases handled with ⟨untyped, rfl⟩ | ⟨_, rfl⟩
  · exact ⟨⟨id, id⟩, untyped⟩
  · exact Names.shrinks_forget _ _

theorem handleNoSenders_forgets (handled : session.handleNoSenders port = some next) :
    session.names.Shrinks next.names ∧ next.names.localPortType port = none := by
  rcases handleNoSenders_cases handled with ⟨untyped, rfl⟩ | ⟨_, _, _, _, rfl⟩
  · exact ⟨⟨id, id⟩, untyped⟩
  · exact Names.shrinks_forget _ _

/-- The proxy of a port asks for no more than what comes after the message on the stream. -/
theorem guards_tcpBufferHandler {owner : Names} {rest : List Message} {written : Option Message}
    (guards : owner.Guards (wire :: rest) session.names port) (isName : port.IsName)
    (regular : wire.Regular) (isConsistent : session.names.ConsistentBut machPortNull)
    (supplied : session.names.Supplied session.task.fresh)
    (handled : session.tcpBufferHandler wire = some (written, next)) :
    owner.Guards rest next.names port := by
  rcases guards.secures with ⟨forSend, forReceive, restSecure⟩
  refine ⟨?_, restSecure⟩
  by_cases isNoSenders : wire.id = msgidNoSenders
  · have noRights := rights_of_carried (regular.ofNoSenders isNoSenders)
    have notDead : ¬wire.DeadNameFor port := by
      intro isDead
      cases isDead.isDeadName.symm.trans isNoSenders
    by_cases notifies : wire.NoSendersFor port
    · rcases notifies with ⟨translates, rfl, -⟩
      rcases noSenders_tcpBufferHandler isNoSenders noRights handled with
        ⟨found, rfl⟩ | ⟨addressed, found, isHandled⟩
      · cases translateDestination_cases found with
        | unknown _ _ unlinked =>
            apply Names.Honored.of_forgotten ⟨id, id⟩
            intro proxy known
            cases unlinked.symm.trans known
      · rcases handleNoSenders_forgets isHandled with ⟨shrinks, forgotten⟩
        apply Names.Honored.of_forgotten shrinks
        intro proxy known
        cases translateDestination_cases found with
        | first isControl =>
            exact absurd isControl (Port.not_control_of_not_flagged isName.unflagged)
        | linked _ _ linked =>
            cases linked.symm.trans known
            exact forgotten
        | asNumbered _ noTranslate => cases translates.symm.trans noTranslate
    · have honored := guards.skip notDead notifies
      rcases noSenders_tcpBufferHandler isNoSenders noRights handled with
        ⟨_, rfl⟩ | ⟨_, _, isHandled⟩
      · exact honored
      · exact honored.shrink (handleNoSenders_forgets isHandled).1
  · have notNotified : ¬wire.NoSendersFor port := fun notifies => isNoSenders notifies.isNoSenders
    by_cases isDeadName : wire.id = msgidDeadName
    · rcases regular.ofDeadName isDeadName with ⟨number, isDead⟩
      rcases deadName_tcpBufferHandler isDead handled with ⟨word, translated, isHandled⟩
      rcases handleDeadName_forgets isHandled with ⟨shrinks, forgotten⟩
      by_cases same : number = port
      · subst same
        apply Names.Honored.of_forgotten shrinks
        intro proxy known
        rcases (translatePort2_name translated).2 with
          ⟨isNothing, _⟩ | ⟨flagged, _⟩ | isKnown
        · exact absurd isNothing isName.something
        · cases flagged.symm.trans isName.unflagged
        · rw [known] at isKnown
          cases isKnown
          exact forgotten
      · refine (guards.skip (fun isDeadToo => same ?_) notNotified).shrink shrinks
        simpa using isDead.named.symm.trans isDeadToo.named
    · have honored := guards.skip (fun isDead => isDeadName isDead.isDeadName) notNotified
      have kept := tcpBufferHandler_carried (fun names fresh =>
        (names.ConsistentBut machPortNull ∧ names.Supplied fresh) ∧ owner.Honored rest names port)
        isNoSenders isDeadName ?_ ⟨⟨isConsistent, supplied⟩, honored⟩ handled
      · rcases kept with ⟨_, -, isHonored⟩
        exact isHonored
      · rintro names after fresh left type element word isIn
          ⟨⟨isConsistentNow, suppliedNow⟩, isHonored⟩ translated
        refine ⟨isConsistentNow.translates suppliedNow translated,
          isHonored.translates isConsistentNow.inverse suppliedNow (regular.received _ isIn) ?_ ?_
            translated⟩
        · rintro rfl rfl
          exact forSend isIn
        · rintro rfl rfl
          exact forReceive isIn

end Session

end Hurd.Netmsg
