import Hurd.Netmsg.Crossing

/-!
# A message is relayed

What one side does with a message of its task, and the other with what comes over the network, goes
through to its end, and afterwards the maps of both sides are still in step.
-/

namespace Hurd.Netmsg

namespace Session

variable {session next : Session} {type : TypeName} {port word name : Port} {message : Message}
  {rights rest : List (TypeName × Port)}

theorem backed_leaves : session.backed.Leaves where
  send backs := backs.leavesSend
  receive backs := backs.leavesReceive
  once backs := backs.leavesOnce

theorem AllBack.giveAwayAll (backs : session.AllBack rights) :
    Session.AllBack
      { session with
        task := rights.foldl (fun task right => task.giveAway right.1 right.2) session.task } [] :=
  allBack_iff.mpr ((allBack_iff.mp backs).giveAwayAll backed_leaves)

theorem AllBack.leavesDestination (backs : session.AllBack rights)
    (isRight : message.localType = some .moveSend ∨ message.localType = some .moveSendOnce) :
    Session.AllBack
      { session with
        task := match (session.swapHeader message).remoteType with
          | none => session.task
          | some name => session.task.giveAway name message.localPort } rights := by
  refine allBack_iff.mpr (tallies_destination (allBack_iff.mp backs) backed_leaves isRight ?_)
  exact fun typed _ _ back => back.leavesDestination typed

/-- There is a send right that a message can be sent with, or of which it can be sent a copy. -/
def HasSend (session : Session) (localType : Option TypeName) (port : Port) : Prop :=
  0 < (session.task.holds port).send ∧
    (localType = some .moveSend ∨ session.names.localPortType port ≠ none)

theorem HasSend.canReach {localType : Option TypeName} (hasSend : session.HasSend localType port) :
    session.CanReach localType port := by
  rcases hasSend with ⟨held, isSend | typed⟩
  · exact .moves isSend held
  · exact .copies typed held

/-- The rights of the message leave; if it cannot be sent, there is no receive right among them. -/
theorem AllBack.machMsg (backs : session.AllBack message.rights)
    (isRight : message.localType = some .moveSend ∨ message.localType = some .moveSendOnce)
    (noReply : message.remoteType = none)
    (reaches : session.HasSend message.localType message.localPort ∨
      ∀ port, ¬port.Nothing → message.rights.count (.moveReceive, port) = 0) :
    Session.AllBack
      { session with task := session.task.machMsg (session.swapHeader message) } [] := by
  have noReplyThere : (session.swapHeader message).localType = none := noReply
  unfold Task.machMsg
  split_ifs with canSend
  · have leaves := (backs.leavesDestination isRight).giveAwayAll
    rw [noReplyThere]
    dsimp only
    rw [giveAwayBody_eq_foldl]
    exact leaves
  · rcases reaches with hasSend | noReceives
    · exact absurd ((canReach_iff isRight).mpr hasSend.canReach) canSend
    · intro port something
      have back := backs port something
      rw [noReceives port something] at back
      exact back.stays

/--
A message that transfers send and receive rights in its body: it comes on a port that netmsg serves,
it is no notification, and the kernel names its rights.
-/
structure Transfers (session : Session) (message : Message) : Prop where
  served : (session.task.holds message.localPort).receive = true
  notNotified : message.localPort ≠ session.notificationPort
  unflagged : message.localPort.flagged = false
  notNull : message.localPort ≠ machPortNull
  isRight : message.localType = some .moveSend ∨ message.localType = some .moveSendOnce
  noReply : message.remoteType = none ∧ message.remotePort = machPortNull
  notTranslated : message.remoteTranslate = false
  notNotification : message.id ≠ msgidNoSenders ∧ message.id ≠ msgidDeadName
  isUsual : ∀ item ∈ message.body, item.Usual
  named : ∀ type port, (type, port) ∈ message.rights → type = .moveSend ∨ type = .moveReceive →
    ¬port.Nothing → port.flagged = false
  oneReceive : ∀ port, ¬port.Nothing → message.rights.count (.moveReceive, port) ≤ 1
  notHeld : ∀ port, ¬port.Nothing → 0 < message.rights.count (.moveReceive, port) →
    (session.task.holds port).receive = false

/-- The kernel notifies a session that has asked for it that there is no send right to a port. -/
structure NoSenders (session : Session) (message : Message) : Prop where
  served : (session.task.holds message.localPort).receive = true
  asked : (session.task.holds message.localPort).noSendersRequest = true
  noSend : (session.task.holds message.localPort).send = 0
  unflagged : message.localPort.flagged = false
  notNull : message.localPort ≠ machPortNull
  isOnce : message.localType = some .moveSendOnce
  noReply : message.remoteType = none
  notTranslated : message.remoteTranslate = false
  isNoSenders : message.id = msgidNoSenders
  isData : ∀ item ∈ message.body, item.name = .data

/-- The kernel hands out names that are not in use. -/
def HandsOut (session : Session) (fresh : List Port) : Prop :=
  fresh.Nodup ∧ ∀ name ∈ fresh, ¬name.Nothing ∧ (session.task.holds name).inUse = false

/--
The message does not make an assertion fail on either side, now or later: no send right goes out of
a port that is lent, a receive right that comes home finds no DEAD NAME request, and one that is
sent to the first port of a server gets there.
-/
structure Crosses (sender receiver : Session) (message : Message) : Prop where
  sendsOwn : sender.names.SendsOwn message.rights
  unasked : ∀ port remote, (.moveReceive, port) ∈ message.rights → ¬port.Nothing →
    sender.names.remotePortsByLocal port = some remote →
      (receiver.task.holds remote).deadNameRequest = false
  reaches : message.localPort = sender.control →
    receiver.HasSend message.localType receiver.firstPort ∨
      ∀ port, ¬port.Nothing → (.moveReceive, port) ∉ message.rights

variable {sender receiver : Session} {fresh : List Port}

/-- The session that a message has come to by IPC -/
def withRights (session : Session) (message : Message) : Session :=
  { session with task := session.task.receive message }

/-- The session with the names that the kernel will hand out -/
def withNames (session : Session) (fresh : List Port) : Session :=
  { session with task := { session.task with fresh := fresh } }

/-- The message is received, and its rights are still to be sent. -/
theorem AllBack.receives (backs : session.AllBack [])
    (noReply : message.remoteType = none)
    (oneReceive : ∀ port, ¬port.Nothing → message.rights.count (.moveReceive, port) ≤ 1)
    (notHeld : ∀ port, ¬port.Nothing → 0 < message.rights.count (.moveReceive, port) →
      (session.task.holds port).receive = false) :
    (session.withRights message).AllTake message.rights := by
  intro port something
  have arrived := arrived_takeAll session.task message.carried something
  have sameRights : message.carried = message.rights := by simp [Message.carried, noReply]
  rw [← receive_eq_foldl, sameRights] at arrived
  exact Account.Takes.of_arrived (backs port something) arrived (oneReceive port something)
    (notHeld port something)

theorem between_of_crosses (backs : sender.AllBack []) (backsThere : receiver.AllBack [])
    (inStep : sender.names.InStep receiver.names) (transfers : sender.Transfers message)
    (crosses : Crosses sender receiver message) (handsOut : receiver.HandsOut fresh)
    (enough : message.rights.length ≤ fresh.length) :
    Between
      (message.localPort = sender.control → receiver.HasSend message.localType receiver.firstPort)
      (sender.withRights message) (receiver.withNames fresh) message.rights [] where
  takes := backs.receives transfers.noReply.1 transfers.oneReceive transfers.notHeld
  backs := backsThere
  inStep := inStep
  unflagged := transfers.named
  sendsOwn := crosses.sendsOwn
  unasked := crosses.unasked
  distinct := handsOut.1
  newNames := handsOut.2
  enough := enough
  receives port something isIn isControl :=
    (crosses.reaches isControl).resolve_right fun noReceives =>
      noReceives port something (by simpa using isIn)

/-- Where a message for a port that netmsg serves goes -/
inductive Relays (session : Session) (message : Message) : Message → Prop
  | control (isControl : message.localPort = session.control) :
      Relays session message { message with localPort := machPortControl }
  | proxy {remote : Port}
      (linked : session.names.remotePortsByLocal message.localPort = some remote)
      (typed : session.names.localPortType message.localPort = some .receive) :
      Relays session message { message with localPort := remote }
  | lent (unlinked : session.names.remotePortsByLocal message.localPort = none)
      (typed : session.names.localPortType message.localPort = some .receive) :
      Relays session message { message with remoteTranslate := true }

/-- A port that netmsg serves is one of its own, or it has the receive right for the other side. -/
theorem AllBack.served (backs : session.AllBack []) (something : ¬port.Nothing)
    (held : (session.task.holds port).receive = true) :
    session.Own port ∨ session.names.localPortType port = some .receive := by
  rcases (backs port something).heldFor held with isOwn | isReceive | isOne
  · exact .inl isOwn
  · exact .inr isReceive
  · cases isOne

theorem relays_of_served (noOnce : ∀ port, session.names.sendOncePortsByLocal port = none)
    (notNotified : message.localPort ≠ session.notificationPort)
    (served : message.localPort = session.control ∨
      session.names.localPortType message.localPort = some .receive) :
    ∃ relayed, session.route message = some (.relay relayed machPortNull session) ∧
      session.Relays message relayed := by
  by_cases isControl : message.localPort = session.control
  · exact ⟨_, if_pos isControl, .control isControl⟩
  · have typed := served.resolve_left isControl
    unfold route
    rw [if_neg isControl, if_neg notNotified]
    cases linked : session.names.remotePortsByLocal message.localPort with
    | some remote => exact ⟨_, by simp [typed], .proxy linked typed⟩
    | none => exact ⟨_, by simp [noOnce, typed], .lent linked typed⟩

variable {relayed : Message}

theorem Relays.same (relays : session.Relays message relayed) :
    relayed.body = message.body ∧ relayed.id = message.id ∧ relayed.localType = message.localType ∧
      relayed.remoteType = message.remoteType ∧ relayed.remotePort = message.remotePort := by
  cases relays <;> exact ⟨rfl, rfl, rfl, rfl, rfl⟩

end Session

/-- A send right that netmsg has keeps its type, as its name is not handed out. -/
theorem Names.Translates.keepsSend {names next : Names} {fresh left : List Port} {type : TypeName}
    {port word dest : Port} (translated : names.Translates fresh type port word next left)
    (typed : names.localPortType dest = some .send) (notNew : dest ∉ fresh) :
    next.localPortType dest = some .send ∧ dest ∉ left := by
  cases translated with
  | nothing => exact ⟨typed, notNew⟩
  | @returnedSend port =>
      refine ⟨?_, notNew⟩
      by_cases same : dest = ~~~port
      · simp [Names.touchType, ← same, typed]
      · simpa [Names.touchType, same] using typed
  | @returnedReceive port _ _ isReceive =>
      refine ⟨?_, notNew⟩
      by_cases same : dest = ~~~port
      · simp [Names.setType, same]
      · simpa [Names.setType, same] using typed
  | returnedName => exact ⟨typed, notNew⟩
  | knownReceive =>
      refine ⟨?_, notNew⟩
      by_cases same : dest = word
      · simp [Names.setType, same]
      · simpa [Names.setType, same] using typed
  | newReceive _ _ _ supply =>
      subst supply
      rw [List.mem_cons, not_or] at notNew
      simpa [Names.link, notNew.1] using And.intro typed notNew.2
  | knownSend => exact ⟨typed, notNew⟩
  | newSend _ _ _ _ supply =>
      subst supply
      rw [List.mem_cons, not_or] at notNew
      simpa [Names.link, notNew.1] using And.intro typed notNew.2
  | sendOnce _ _ _ _ supply =>
      subst supply
      simp only [List.mem_cons, not_or] at notNew
      exact ⟨typed, notNew.2.2⟩
  | name => exact ⟨typed, notNew⟩

namespace Session

variable {sender receiver session next came sent : Session} {type : TypeName}
  {port word name : Port} {message relayed : Message} {fresh : List Port} {body : List Item}
  {rights : List (TypeName × Port)}

/-- What the receiver keeps of its maps while it translates the body -/
structure Keeps (session next : Session) (dest : Port) : Prop where
  firstPort : next.firstPort = session.firstPort
  proxies : ∀ remote known, session.names.localPortsByRemote remote = some known →
    next.names.localPortsByRemote remote = some known
  typed : session.names.localPortType dest = some .send → next.names.localPortType dest = some .send

/-- The message goes to the first port, or to a port that the receiver has a send right to. -/
theorem Relays.destination (relays : sender.Relays message relayed)
    (inStep : sender.names.InStep receiver.names) (notTranslated : message.remoteTranslate = false)
    (unflagged : message.localPort.flagged = false) :
    ∃ dest, (message.localPort = sender.control ∧ dest = receiver.firstPort ∨
        ¬dest.Nothing ∧ receiver.names.localPortType dest = some .send ∧
          (receiver.names.localPortsByRemote message.localPort = some dest ∨
            sender.names.localPortsByRemote dest = some message.localPort)) ∧
      ∀ came body, receiver.Keeps came dest →
        came.translateDestination { relayed with body := body } =
          some (some
            { relayed with body := body, localPort := dest, remoteTranslate := false }) := by
  cases relays with
  | control isControl =>
      refine ⟨receiver.firstPort, .inl ⟨isControl, rfl⟩, fun came body keeps => ?_⟩
      simp [translateDestination, keeps.firstPort, notTranslated]
  | @proxy remote linked typed =>
      rcases inStep.linked linked with ⟨-, types, notNull, remoteUnflagged⟩
      have typedThere : receiver.names.localPortType remote = some .send := by
        simpa [Opposite, typed] using types
      have known := (inStep.isOrderly.isConsistent.inverse _ _).mpr linked
      have something := Port.something_of_not_flagged remoteUnflagged notNull
      refine ⟨remote, .inr ⟨something, typedThere, .inr known⟩, fun came body keeps => ?_⟩
      simp [translateDestination, Port.not_control_of_not_flagged remoteUnflagged, notTranslated]
  | lent unlinked typed =>
      cases known : receiver.names.localPortsByRemote message.localPort with
      | none => exact absurd typed (inStep.here.unproxied known unlinked)
      | some proxy =>
          have typedThere : receiver.names.localPortType proxy = some .send := by
            simpa [Opposite, typed] using (inStep.here.proxied known).2
          have linkedThere := (inStep.isOrderlyThere.isConsistent.inverse _ _).mp known
          have something := inStep.isOrderlyThere.isName proxy (by simp [linkedThere])
          refine ⟨proxy, .inr ⟨something, typedThere, .inl rfl⟩, fun came body keeps => ?_⟩
          simp [translateDestination, Port.not_control_of_not_flagged unflagged,
            keeps.proxies _ _ known, keeps.typed typedThere]

theorem ipcBufferHandler_of_route (isRouted : session.route message =
      some (.relay relayed machPortNull session))
    (isTransfer : relayed.id ≠ msgidNoSenders)
    (traversed : Loop.traverse (transmitItem false) session relayed.body = some (body, sent)) :
    session.ipcBufferHandler message = some (some { relayed with body := body }, sent) := by
  have isReleased : session.releaseNoSenders relayed.id message.localPort = some session := by
    simp [releaseNoSenders, isTransfer]
  have isTranslated : session.translateForTransmission relayed
      (decide (machPortNull ≠ machPortNull)) = some ({ relayed with body := body }, sent) := by
    simp [translateForTransmission, traversed]
  have handled := ipcBufferHandler_of_relay isRouted isReleased isTranslated
  simpa [forgetDeadName] using handled

theorem translateMessage_of_traverse (notDeadName : message.id ≠ msgidDeadName)
    (traversed : Loop.traverse (translateItem false) session message.body = some (body, came)) :
    session.translateMessage message
        (decide (message.localPort = machPortControl ∧ message.id = msgidDeadName)) =
      some ({ message with body := body }, came) := by
  simp [translateMessage, notDeadName, traversed]

theorem translateHeader_of_destination {addressed : Message}
    (isRight : message.localType = some .moveSend ∨ message.localType = some .moveSendOnce)
    (noReply : addressed.remoteType = none ∧ addressed.remotePort = machPortNull)
    (notNotification : addressed.id ≠ msgidNoSenders ∧ addressed.id ≠ msgidDeadName)
    (found : session.translateDestination message = some (some addressed)) :
    session.translateHeader message = some (some addressed, session) := by
  simp [translateHeader, isRight, found, notNotification, noReply]

theorem tcpBufferHandler_of_header {translated addressed : Message}
    (isTranslated : session.translateMessage message
      (decide (message.localPort = machPortControl ∧ message.id = msgidDeadName)) =
        some (translated, came))
    (isHeaded : came.translateHeader translated = some (some addressed, next)) :
    session.tcpBufferHandler message = some (some (next.swapHeader addressed),
      { next with task := next.task.machMsg (next.swapHeader addressed) }) := by
  simp only [tcpBufferHandler, isTranslated, isHeaded, Option.bind_eq_bind, Option.bind_some]

/-- What the receiver has of the destination, it keeps while it translates the body. -/
theorem Keeps.of_translateMessage {translated : Message} {dest : Port}
    (notNew : session.names.localPortType dest = some .send → dest ∉ session.task.fresh)
    (isTranslated : session.translateMessage message false = some (translated, next)) :
    session.Keeps next dest := by
  refine ⟨(sameOwn_translateMessage isTranslated).firstPort, keeps_translateMessage isTranslated,
    fun typed => ?_⟩
  refine (translateMessage_invariant (fun session =>
    session.names.localPortType dest = some .send ∧ dest ∉ session.task.fresh) ?_
      ⟨typed, notNew typed⟩ isTranslated).1
  rintro before port type word after ⟨typed, notNew⟩ done
  exact (translatePort2_cases done).1.keepsSend typed notNew

/-- The message can be sent on, or there is no receive right in it. -/
theorem reaches_destination {localType : Option TypeName} {dest : Port} {isControl : Prop}
    (backs : session.AllBack []) (grows : Grows session next)
    (isDest : isControl ∧ dest = session.firstPort ∨
      ¬dest.Nothing ∧ session.names.localPortType dest = some .send)
    (permits : isControl → ∀ port, ¬port.Nothing → (.moveReceive, port) ∈ rights →
      session.HasSend localType session.firstPort) :
    next.HasSend localType dest ∨
      ∀ port, ¬port.Nothing → rights.count (.moveReceive, port) = 0 := by
  have goesOn : session.HasSend localType dest → next.HasSend localType dest :=
    .imp (·.trans_le (grows.send dest)) (·.imp_right (grows.type dest))
  rcases isDest with ⟨control, rfl⟩ | ⟨something, typed⟩
  · by_cases hasSend : session.HasSend localType session.firstPort
    · exact .inl (goesOn hasSend)
    · refine .inr fun port something => List.count_eq_zero_of_not_mem fun isIn => ?_
      exact hasSend (permits control port something isIn)
  · have isTyped : session.names.localPortType dest ≠ none := by simp [typed]
    exact .inl (goesOn ⟨((backs dest something).forSend typed).1, .inr isTyped⟩)

/-- A message with rights in its body is handled by both sides. -/
theorem transfer_succeeds (backs : sender.AllBack []) (backsThere : receiver.AllBack [])
    (inStep : sender.names.InStep receiver.names) (transfers : sender.Transfers message)
    (crosses : Crosses sender receiver message) (handsOut : receiver.HandsOut fresh)
    (enough : message.rights.length ≤ fresh.length) :
    ∃ wire sent taken came,
      (sender.withRights message).ipcBufferHandler message = some (some wire, sent) ∧
        (receiver.withNames fresh).tcpBufferHandler wire = some (taken, came) ∧
          sent.AllBack [] ∧ came.AllBack [] ∧ sent.names.InStep came.names := by
  have something := Port.something_of_not_flagged transfers.unflagged transfers.notNull
  have between := between_of_crosses backs backsThere inStep transfers crosses handsOut enough
  have served : message.localPort = sender.control ∨
      sender.names.localPortType message.localPort = some .receive := by
    rcases backs.served something transfers.served with (isControl | isNotified) | typed
    · exact .inl isControl
    · exact absurd isNotified transfers.notNotified
    · exact .inr typed
  have isRelayed : ∃ relayed, (sender.withRights message).route message =
      some (.relay relayed machPortNull (sender.withRights message)) ∧
        (sender.withRights message).Relays message relayed :=
    relays_of_served inStep.isOrderly.noOnce transfers.notNotified served
  rcases isRelayed with ⟨relayed, isRouted, relays⟩
  rcases relays.same with ⟨sameBody, sameId, sameLocal, sameType, sameReply⟩
  rcases Between.crossesBody transfers.isUsual between with
    ⟨written, sent, translated, came, transmitted, traversed, after⟩
  rcases relays.destination between.inStep transfers.notTranslated transfers.unflagged with
    ⟨dest, isDest, found⟩
  have handled := ipcBufferHandler_of_route isRouted (sameId ▸ transfers.notNotification.1)
    (sameBody ▸ transmitted)
  have notDeadName : relayed.id ≠ msgidDeadName := sameId ▸ transfers.notNotification.2
  have isTranslated :
      (receiver.withNames fresh).translateMessage { relayed with body := written } false =
        some ({ relayed with body := translated }, came) := by
    simp [translateMessage, traversed]
  have keeps : (receiver.withNames fresh).Keeps came dest := by
    refine .of_translateMessage (fun typed isNew => ?_) isTranslated
    cases (between.untyped isNew).1.symm.trans typed
  have isHeaded : came.translateHeader { relayed with body := translated } =
      some (some { relayed with body := translated, localPort := dest, remoteTranslate := false },
        came) :=
    translateHeader_of_destination (sameLocal ▸ transfers.isRight)
      ⟨sameType.trans transfers.noReply.1, sameReply.trans transfers.noReply.2⟩
      ⟨sameId ▸ transfers.notNotification.1, notDeadName⟩ (found came translated keeps)
  have delivered :
      (receiver.withNames fresh).tcpBufferHandler { relayed with body := written } = _ :=
    tcpBufferHandler_of_header (translateMessage_of_traverse notDeadName traversed) isHeaded
  have reaches : came.HasSend relayed.localType dest ∨
      ∀ port, ¬port.Nothing → (translated.flatMap Item.rights).count (.moveReceive, port) = 0 := by
    rw [sameLocal]
    refine reaches_destination between.backs (grows_translateMessage isTranslated)
      (isDest.imp_right fun isKnown => ⟨isKnown.1, isKnown.2.1⟩) fun isControl => ?_
    exact fun port something isIn => after.receives port something isIn isControl
  have leaves : Session.AllBack { came with task := came.task.machMsg (came.swapHeader
      { relayed with body := translated, localPort := dest, remoteTranslate := false }) } [] :=
    AllBack.machMsg after.backs (sameLocal ▸ transfers.isRight)
      (sameType.trans transfers.noReply.1) reaches
  exact ⟨_, sent, _, _, handled, delivered, after.takes.backs, leaves, after.inStep⟩

/-- A message without rights does not change the task. -/
theorem receive_data (task : Task) (noReply : message.remoteType = none)
    (isData : ∀ item ∈ message.body, item.name = .data) : task.receive message = task := by
  have allData : ∀ right ∈ message.rights, right.1 = TypeName.data := by
    intro right isIn
    rcases List.mem_flatMap.mp isIn with ⟨item, itemIn, rightIn⟩
    rcases List.mem_map.mp rightIn with ⟨_, -, rfl⟩
    exact isData item itemIn
  have sameRights : message.carried = message.rights := by simp [Message.carried, noReply]
  rw [receive_eq_foldl, sameRights]
  generalize message.rights = rights at allData
  induction rights with
  | nil => rfl
  | cons right rest ih =>
      rcases List.forall_mem_cons.mp allData with ⟨isFirst, others⟩
      have same : task.take right.1 right.2 = task := by simp [Task.take, isFirst]
      rw [List.foldl_cons, same]
      exact ih others

/-- The port of the notification has its receive right here for the other side. -/
theorem NoSenders.typed (noSenders : session.NoSenders message) (backs : session.AllBack []) :
    ¬session.Own message.localPort ∧
      session.names.localPortType message.localPort = some .receive := by
  have something := Port.something_of_not_flagged noSenders.unflagged noSenders.notNull
  have notOwn : ¬session.Own message.localPort := by
    intro isOwn
    cases ((backs _ something).owned isOwn).2.1.symm.trans noSenders.asked
  exact ⟨notOwn, (backs.served something noSenders.served).resolve_left notOwn⟩

theorem remote_unlinkIfLinked (names : Names) (port : Port) :
    (names.unlinkIfLinked port).remotePortsByLocal port = none := by
  rw [Names.unlinkIfLinked]
  split_ifs with linked
  · simp [Names.unlink]
  · simpa using linked

/-- The maps and the task forget a port. -/
theorem AllBack.forgets {holding : Holding} (backs : session.AllBack [])
    (sameOwn : SameOwn session next) (forgets : session.Forgets port next)
    (unlinked : next.names.remotePortsByLocal port = none) (holds : next.task.holds port = holding)
    (kept : ¬port.Nothing → Account.Backs (session.Own port) ⟨none, none, holding⟩ 0 0) :
    next.AllBack [] := by
  intro other something
  simp only [sameOwn.own_iff]
  by_cases same : other = port
  · subst same
    have isForgotten : next.account other = ⟨none, none, holding⟩ := by
      simp [account, forgets.untyped, unlinked, holds]
    rw [isForgotten]
    exact kept something
  · rw [forgets.others other same]
    exact backs other something

/-- The receive right goes when there are no senders. -/
theorem AllBack.releases (backs : session.AllBack [])
    (typed : session.names.localPortType port = some .receive) :
    Session.AllBack
      { session with
        names := (session.names.eraseType port).unlinkIfLinked port
        task := session.task.destroyReceive port } [] := by
  refine backs.forgets ⟨rfl, rfl, rfl⟩ (forgets_unlinkIfLinked fun other different => ?_)
    (remote_unlinkIfLinked _ port) rfl fun something => ?_
  · rw [Task.holds_destroyReceive, if_neg different]
  · rw [Task.holds_destroyReceive, if_pos rfl]
    exact (backs port something).destroyed typed

theorem AllBack.handlesNoSenders (backs : session.AllBack [])
    (typed : session.names.localPortType port = some .send) :
    ∃ task, session.handleNoSenders port = some
      { session with
        names := (session.names.eraseType port).unlinkIfLinked port
        task := task } ∧
      Session.AllBack
        { session with
          names := (session.names.eraseType port).unlinkIfLinked port
          task := task } [] := by
  have succeeds : ∃ next, session.handleNoSenders port = some next := by
    simp [handleNoSenders, typed]
  rcases succeeds with ⟨next, handled⟩
  rcases handleNoSenders_cases handled with ⟨untyped, -⟩ | ⟨-, task, -, isTask, rfl⟩
  · cases untyped.symm.trans typed
  · refine ⟨task.dropSend port, handled, ?_⟩
    refine backs.forgets ⟨rfl, rfl, rfl⟩ (forgets_unlinkIfLinked fun other different => ?_)
      (remote_unlinkIfLinked _ port) rfl fun something => ?_
    · rw [Task.holds_dropSend, if_neg different, isTask, Task.holds_getD_requestDeadName,
        if_neg different]
    · rw [Task.holds_dropSend, if_pos rfl, isTask, Task.holds_getD_requestDeadName, if_pos rfl]
      exact (backs port something).dropped typed

theorem ipcBufferHandler_of_noSenders (isRouted : session.route message =
      some (.relay relayed machPortNull session))
    (isNoSenders : relayed.id = msgidNoSenders)
    (typed : session.names.localPortType message.localPort = some .receive)
    (isData : ∀ item ∈ relayed.body, item.name = .data) :
    session.ipcBufferHandler message = some (some relayed,
      { session with
        names := (session.names.eraseType message.localPort).unlink message.localPort
        task := session.task.destroyReceive message.localPort }) := by
  have isReleased : session.releaseNoSenders relayed.id message.localPort = some
      { session with
        names := (session.names.eraseType message.localPort).unlink message.localPort
        task := session.task.destroyReceive message.localPort } := by
    simp [releaseNoSenders, isNoSenders, typed]
  have isTranslated : ∀ released : Session, released.translateForTransmission relayed
      (decide (machPortNull ≠ machPortNull)) = some (relayed, released) := by
    intro released
    have traversed : Loop.traverse (transmitItem false) released relayed.body =
        some (relayed.body, released) :=
      Loop.traverse_same fun item itemIn => by simp [transmitItem, isData item itemIn]
    simp [translateForTransmission, traversed]
  have handled := ipcBufferHandler_of_relay isRouted isReleased (isTranslated _)
  simpa [forgetDeadName] using handled

theorem tcpBufferHandler_of_noSenders {addressed : Message}
    (isRight : message.localType = some .moveSend ∨ message.localType = some .moveSendOnce)
    (isNoSenders : message.id = msgidNoSenders) (isData : ∀ item ∈ message.body, item.name = .data)
    (found : session.translateDestination message = some (some addressed))
    (sameId : addressed.id = message.id)
    (handled : session.handleNoSenders addressed.localPort = some next) :
    session.tcpBufferHandler message = some (none, next) := by
  have traversed : Loop.traverse (translateItem false) session message.body =
      some (message.body, session) :=
    Loop.traverse_same fun item itemIn => by simp [translateItem, isData item itemIn]
  have isTranslated := translateMessage_of_traverse
    (by simp [isNoSenders, msgidNoSenders, msgidDeadName]) traversed
  have isHeaded : session.translateHeader message = some (none, next) := by
    simp [translateHeader, isRight, found, sameId, isNoSenders, handled]
  simp only [tcpBufferHandler, isTranslated, isHeaded, Option.bind_eq_bind, Option.bind_some]

/-- A NO SENDERS notification is handled by both sides. -/
theorem noSenders_succeeds (backs : sender.AllBack []) (backsThere : receiver.AllBack [])
    (inStep : sender.names.InStep receiver.names) (noSenders : sender.NoSenders message) :
    ∃ wire sent taken came,
      (sender.withRights message).ipcBufferHandler message = some (some wire, sent) ∧
        (receiver.withNames fresh).tcpBufferHandler wire = some (taken, came) ∧
          sent.AllBack [] ∧ came.AllBack [] ∧ sent.names.InStep came.names := by
  rcases noSenders.typed backs with ⟨notOwn, typed⟩
  have noRights : sender.withRights message = sender := by
    rw [withRights, receive_data sender.task noSenders.noReply noSenders.isData]
  rw [noRights]
  have notNotified : message.localPort ≠ sender.notificationPort :=
    fun isNotified => notOwn (.inr isNotified)
  rcases relays_of_served inStep.isOrderly.noOnce notNotified (.inr typed) with
    ⟨relayed, isRouted, relays⟩
  rcases relays.same with ⟨sameBody, sameId, sameLocal, -, -⟩
  rcases relays.destination inStep noSenders.notTranslated noSenders.unflagged with
    ⟨dest, isDest, found⟩
  rcases isDest with ⟨isControl, -⟩ | ⟨-, typedThere, linked⟩
  · exact absurd (.inl isControl) notOwn
  have isData : ∀ item ∈ relayed.body, item.name = .data := sameBody ▸ noSenders.isData
  have isNoSenders : relayed.id = msgidNoSenders := sameId.trans noSenders.isNoSenders
  have handled := ipcBufferHandler_of_noSenders isRouted isNoSenders typed isData
  have backsStill : (receiver.withNames fresh).AllBack [] := backsThere
  rcases backsStill.handlesNoSenders typedThere with ⟨task, handledThere, backsAfter⟩
  have keeps : receiver.Keeps (receiver.withNames fresh) dest := ⟨rfl, fun _ _ => id, id⟩
  have delivered := tcpBufferHandler_of_noSenders (.inr (sameLocal.trans noSenders.isOnce))
    isNoSenders isData (found _ relayed.body keeps) rfl handledThere
  rw [Names.unlink_eq_unlinkIfLinked (inStep.isOrderly.isConsistent.eraseType _)] at handled
  refine ⟨relayed, _, none, _, handled, delivered, backs.releases typed, backsAfter, ?_⟩
  rcases linked with known | known
  · exact inStep.forget known
  · exact (inStep.symm.forget known).symm

end Session

end Hurd.Netmsg
