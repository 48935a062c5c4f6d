import Hurd.Netmsg.Peers

/-!
# Where a message is delivered

A message that a session receives on one of its ports belongs to the counterpart of that port
at the other end: the first port for the control port, the port that the other end has named
for a proxy, and the proxy that the other end has made for a receive right that has been sent
there.  The destination on the network is a number in the name space of one of the two, and
which one it is depends on the maps when the message is handled.

Three kinds of messages do not go to a counterpart.  A message for a port that has become a
send right while the message was waiting goes out with the number of that port, which means
nothing at the other end; the notifications that are not about dead names go to the first port
of the other end; and a receive right that happens to be numbered `MACH_PORT_CONTROL` is taken for
the control port.
-/

namespace Hurd.Netmsg

/-- The remote names in the maps are not in our own name space. -/
def Names.Plain (names : Names) : Prop :=
  (∀ port remote, names.remotePortsByLocal port = some remote → remote.flagged = false) ∧
    ∀ port remote, names.sendOncePortsByLocal port = some remote → remote.flagged = false

namespace Names

variable {names next : Names} {port word : Port} {type : TypeName} {fresh rest : List Port}

theorem Plain.eraseType (plain : names.Plain) (port : Port) : (names.eraseType port).Plain :=
  plain

theorem Plain.unlink (plain : names.Plain) (port : Port) : (names.unlink port).Plain := by
  refine ⟨fun other remote linked => ?_, plain.2⟩
  by_cases same : other = port
  · subst same
    simp [Names.unlink] at linked
  · simp only [Names.unlink, Function.update_of_ne same] at linked
    exact plain.1 other remote linked

theorem Plain.unlinkIfLinked (plain : names.Plain) (port : Port) :
    (names.unlinkIfLinked port).Plain := by
  rw [Names.unlinkIfLinked]
  split_ifs
  · exact plain.unlink port
  · exact plain

theorem Plain.unlinkOnce (plain : names.Plain) (remote port : Port) :
    (names.unlinkOnce remote port).Plain := by
  refine ⟨plain.1, fun other otherRemote linked => ?_⟩
  by_cases same : other = port
  · subst same
    simp [Names.unlinkOnce] at linked
  · simp only [Names.unlinkOnce, Function.update_of_ne same] at linked
    exact plain.2 other otherRemote linked

theorem Plain.link (plain : names.Plain) {remote port : Port} {type : LocalType}
    (unflagged : remote.flagged = false) : (names.link remote port type).Plain := by
  refine ⟨fun other otherRemote linked => ?_, plain.2⟩
  by_cases same : other = port
  · subst same
    simp only [Names.link, Function.update_self, Option.some.injEq] at linked
    exact linked ▸ unflagged
  · simp only [Names.link, Function.update_of_ne same] at linked
    exact plain.1 other otherRemote linked

theorem Plain.linkOnce (plain : names.Plain) {remote port : Port}
    (unflagged : remote.flagged = false) : (names.linkOnce remote port).Plain := by
  refine ⟨plain.1, fun other otherRemote linked => ?_⟩
  by_cases same : other = port
  · subst same
    simp only [Names.linkOnce, Function.update_self, Option.some.injEq] at linked
    exact linked ▸ unflagged
  · simp only [Names.linkOnce, Function.update_of_ne same] at linked
    exact plain.2 other otherRemote linked

theorem Plain.transmits (plain : names.Plain) (transmitted : names.Transmits type port word next) :
    next.Plain := by
  cases transmitted <;> exact plain

theorem Plain.translates (plain : names.Plain)
    (translated : names.Translates fresh type port word next rest) : next.Plain := by
  cases translated with
  | nothing => exact plain
  | returnedSend => exact plain
  | returnedReceive => exact plain
  | returnedName => exact plain
  | knownReceive => exact plain
  | newReceive _ unflagged => exact plain.link unflagged
  | knownSend => exact plain
  | newSend _ unflagged => exact plain.link unflagged
  | sendOnce _ unflagged => exact plain.linkOnce unflagged
  | name => exact plain

theorem keptByIpc_plain : Session.KeptByIpc fun _ names => names.Plain where
  weaken _ plain := plain
  eraseType port plain := plain.eraseType port
  unlink plain := plain.unlink _
  unlinkIfLinked plain := plain.unlinkIfLinked _
  unlinkOnce plain _ := plain.unlinkOnce _ _
  transmits plain transmitted := plain.transmits transmitted

theorem keptByTcp_plain : Session.KeptByTcp fun names _ => names.Plain where
  translates plain translated := plain.translates translated
  forget port plain := (plain.eraseType port).unlinkIfLinked port

/-- A proxy that is known stays the same while a message is translated. -/
theorem Translates.keeps {remote known : Port}
    (translated : names.Translates fresh type port word next rest)
    (linked : names.localPortsByRemote remote = some known) :
    next.localPortsByRemote remote = some known := by
  have whenNew : ∀ {newport : Port} {type : LocalType}, names.localPortsByRemote port = none →
      (names.link port newport type).localPortsByRemote remote = some known := by
    intro newport type unknown
    have different : remote ≠ port := by
      rintro rfl
      rw [unknown] at linked
      cases linked
    simp only [Names.link, Function.update_of_ne different]
    exact linked
  cases translated with
  | newReceive _ _ unknown => exact whenNew unknown
  | newSend _ _ _ unknown => exact whenNew unknown
  | _ => exact linked

end Names

namespace Session

variable {session next : Session} {message wire : Message}

theorem plain_ipcBufferHandler {sent : Option Message} (plain : session.names.Plain)
    (handled : session.ipcBufferHandler message = some (sent, next)) : next.names.Plain :=
  Names.keptByIpc_plain.ipcBufferHandler plain handled

theorem plain_tcpBufferHandler {sent : Option Message} (plain : session.names.Plain)
    (handled : session.tcpBufferHandler message = some (sent, next)) : next.names.Plain := by
  rcases Names.keptByTcp_plain.tcpBufferHandler plain handled with ⟨_, nextPlain⟩
  exact nextPlain

/-- `destination` at the other end is the counterpart of the port a message was received on. -/
def Counterpart (sender : Session) (port : Port) (receiver : Session) (destination : Port) : Prop :=
  (port = sender.control ∧ destination = receiver.firstPort) ∨
    (port ≠ sender.control ∧ (sender.names.remotePortsByLocal port = some destination ∨
      sender.names.sendOncePortsByLocal port = some destination)) ∨
    (port ≠ sender.control ∧ sender.names.remotePortsByLocal port = none ∧
      sender.names.localPortType port = some .receive ∧
      receiver.names.localPortsByRemote port = some destination)

/-- The message takes one of the branches that do not address the counterpart of its port. -/
def Misroutes (session : Session) (message : Message) : Prop :=
  message.localPort ≠ session.control ∧
    ((message.localPort = session.notificationPort ∧
        (message.id = msgidPortDeleted ∨ message.id = msgidSendOnce)) ∨
      (message.localPort ≠ session.notificationPort ∧
        session.names.remotePortsByLocal message.localPort = none ∧
        session.names.sendOncePortsByLocal message.localPort = none ∧
        ∃ type, session.names.localPortType message.localPort = some type ∧
          (type ≠ .receive ∨ message.localPort = machPortControl)))

/-- How a message that is not misrouted is addressed on the network. -/
inductive Addressed (sender : Session) (original wire : Message) : Prop
  | control (isControl : original.localPort = sender.control)
      (isAddressed : wire.localPort = machPortControl)
  | deadName (isAddressed : wire.localPort = machPortControl) (isDeadName : wire.id = msgidDeadName)
  | named (notControl : original.localPort ≠ sender.control)
      (linked : sender.names.remotePortsByLocal original.localPort = some wire.localPort ∨
        sender.names.sendOncePortsByLocal original.localPort = some wire.localPort)
      (asNumbered : wire.remoteTranslate = false)
  | own (notControl : original.localPort ≠ sender.control)
      (notReserved : wire.localPort ≠ machPortControl)
      (unlinked : sender.names.remotePortsByLocal original.localPort = none)
      (typed : sender.names.localPortType original.localPort = some .receive)
      (isAddressed : wire.localPort = original.localPort) (translate : wire.remoteTranslate = true)

theorem addressed_of_ipcBufferHandler (clear : message.remoteTranslate = false)
    (wellRouted : ¬session.Misroutes message)
    (handled : session.ipcBufferHandler message = some (some wire, next)) :
    Addressed session message wire := by
  rcases ipcBufferHandler_cases handled with ⟨_, isNone, _⟩ | ⟨relayed, deadName, routed, released,
    written, translated, isRouted, isReleased, isTranslated, isSent, _⟩
  · cases isNone
  · cases isSent
    -- only the body of the message is translated
    rcases Option.bind_eq_some_iff.mp isTranslated with ⟨⟨body, last⟩, _, ⟨⟩⟩
    cases isRouted with
    | control isControl => exact .control isControl rfl
    | unknownDeadName _ _ isDeadName => exact .deadName rfl isDeadName
    | deadName _ _ isDeadName => exact .deadName rfl isDeadName
    | notification notControl notified isOther =>
        exact (wellRouted ⟨notControl, .inl ⟨notified, isOther⟩⟩).elim
    | proxy notControl _ linked => exact .named notControl (.inl linked) clear
    | sendOnce notControl _ _ linked => exact .named notControl (.inr linked) clear
    | own notControl notNotified unlinked unlinkedOnce typed =>
        refine .own notControl ?_ unlinked typed rfl rfl
        intro isReserved
        exact wellRouted ⟨notControl, .inr ⟨notNotified, unlinked, unlinkedOnce, .receive, typed,
          .inr isReserved⟩⟩
    | raw notControl notNotified unlinked unlinkedOnce typed notReceive =>
        exact (wellRouted ⟨notControl, .inr ⟨notNotified, unlinked, unlinkedOnce, _, typed,
          .inl notReceive⟩⟩).elim

/-- A message that is sent by IPC goes to where `translateHeader` has found it to go. -/
theorem destination_of_tcpBufferHandler {sent : Message}
    (handled : session.tcpBufferHandler wire = some (some sent, next)) :
    ∃ middle : Session, ∃ addressed : Message, SameOwn session middle ∧
      Addresses middle wire (some addressed) ∧ sent.remotePort = addressed.localPort ∧
      ¬(wire.id = msgidDeadName ∧ addressed.localPort = middle.firstPort) ∧
      SameOwn middle next ∧
      ∀ remote known, middle.names.localPortsByRemote remote = some known →
        next.names.localPortsByRemote remote = some known := by
  rcases tcpBufferHandler_cases handled with
    ⟨translated, middle, addressed, headed, isTranslated, isHeaded, isSent, rfl⟩
  have sameOwn := sameOwn_translateMessage isTranslated
  rcases Option.bind_eq_some_iff.mp isTranslated with ⟨⟨body, last⟩, _, ⟨⟩⟩
  have ofBody : ∀ {found : Message}, Addresses middle { wire with body := body } (some found) →
      Addresses middle wire (some { found with body := wire.body }) := by
    intro found addresses
    cases addresses with
    | first isControl => exact .first isControl
    | linked notControl translate linked typed => exact .linked notControl translate linked typed
    | asNumbered notControl noTranslate => exact .asNumbered notControl noTranslate
  cases (translateHeader_cases isHeaded).2 with
  | discard => cases isSent
  | noSenders => cases isSent
  | deadName => cases isSent
  | noReply found _ notDeadName =>
      cases isSent
      exact ⟨_, _, sameOwn, ofBody found, rfl, notDeadName, ⟨rfl, rfl, rfl⟩, fun _ _ => id⟩
  | reply found _ notDeadName _ _ translated =>
      cases isSent
      rcases translatePort2_cases translated with ⟨translates, ⟨control, firstPort, notification⟩⟩
      exact ⟨_, _, sameOwn, ofBody found, rfl, notDeadName, ⟨control, firstPort, notification⟩,
        fun _ _ => translates.keeps⟩

/-- A message that is addressed well is discarded or goes to the counterpart of its port. -/
theorem counterpart_of_addressed {sender receiver : Session} {original sent : Message}
    (plain : sender.names.Plain) (isAddressed : Addressed sender original wire)
    (handled : receiver.tcpBufferHandler wire = some (some sent, next)) :
    Counterpart sender original.localPort next sent.remotePort := by
  rcases destination_of_tcpBufferHandler handled with
    ⟨middle, addressed, sameOwn, found, sentTo, notDeadName, nextOwn, keeps⟩
  rw [sentTo]
  have toFirst : wire.localPort = machPortControl → addressed.localPort = middle.firstPort := by
    intro isControl
    cases found with
    | first => rfl
    | linked notControl => exact (notControl isControl).elim
    | asNumbered notControl => exact (notControl isControl).elim
  cases isAddressed with
  | control isControl isAddressed =>
      exact .inl ⟨isControl, (toFirst isAddressed).trans nextOwn.firstPort.symm⟩
  | deadName isAddressed isDeadName => exact (notDeadName ⟨isDeadName, toFirst isAddressed⟩).elim
  | named notControl linked asNumbered =>
      have unflagged : wire.localPort.flagged = false := by
        rcases linked with linked | linked
        · exact plain.1 _ _ linked
        · exact plain.2 _ _ linked
      cases found with
      | first isControl => exact (Port.not_control_of_not_flagged unflagged isControl).elim
      | linked _ translate =>
          rw [asNumbered] at translate
          cases translate
      | asNumbered => exact .inr (.inl ⟨notControl, linked⟩)
  | own notControl notReserved unlinked typed isAddressed translate =>
      cases found with
      | first isControl => exact (notReserved isControl).elim
      | linked _ _ known =>
          rw [isAddressed] at known
          exact .inr (.inr ⟨notControl, unlinked, typed, keeps _ _ known⟩)
      | asNumbered _ noTranslate =>
          rw [translate] at noTranslate
          cases noTranslate

end Session

namespace Peers

/-- Every message that has been sent by IPC went to the counterpart of the port it came from. -/
def NeverMisdelivers (peers : Peers) : Prop :=
  ∀ host, ∀ delivery ∈ (peers host).delivered, ∀ sent, delivery.sent = some sent →
    Session.Counterpart delivery.packet.sender delivery.packet.original.localPort delivery.next
      sent.remotePort

/-- A message that is taken up addresses the counterpart of its port. -/
def RoutesWell (peers : Peers) : Action → Prop
  | .translate host index _ => ∀ message, (peers host).received[index]? = some message →
      ¬(peers host).session.Misroutes message
  | .receive _ _ => True
  | .write _ _ => True
  | .read _ => True
  | .handle _ _ _ => True

/-- In every run whose messages are all routed well, no message is misdelivered. -/
theorem neverMisdelivers_of_reachable {start peers : Peers} (starts : Start start)
    (reached : Transition.Reachable step RoutesWell start peers) : peers.NeverMisdelivers := by
  have invariant : (∀ host, (peers host).session.names.Plain) ∧
      (∀ host, ∀ message ∈ (peers host).received, message.remoteTranslate = false) ∧
      AllPackets
        (fun packet => packet.sender.names.Plain ∧
          Session.Addressed packet.sender packet.original packet.wire)
        (fun delivery => ∀ sent, delivery.sent = some sent →
          Session.Counterpart delivery.packet.sender delivery.packet.original.localPort
            delivery.next sent.remotePort) peers := by
    refine reached.invariant
      (fun peers => (∀ host, (peers host).session.names.Plain) ∧
        (∀ host, ∀ message ∈ (peers host).received, message.remoteTranslate = false) ∧
        AllPackets _ _ peers) ⟨?_, received_clear_start starts, .start starts⟩ ?_
    · intro host
      rcases starts host with ⟨session, created, isSession⟩
      rw [isSession]
      cases created <;> exact ⟨nofun, nofun⟩
    · intro before after action ⟨allPlain, allClear, allPackets⟩ routesWell taken
      refine ⟨?_, received_clear_step allClear taken, allPackets.step ?_ ?_ taken⟩
      · exact sessions_step (fun session => session.names.Plain) (fun _ _ plain => plain)
          Session.plain_ipcBufferHandler Session.plain_tcpBufferHandler allPlain taken
      · intro host index task message sent session isTranslate found handled
        subst isTranslate
        refine ⟨allPlain host, Session.addressed_of_ipcBufferHandler ?_ ?_ handled⟩
        · exact allClear host message (List.mem_of_getElem? found)
        · exact routesWell message found
      · intro host index task packet translated read sent session _ _ isMade _ handled message isSent
        subst isSent
        exact Session.counterpart_of_addressed isMade.1 isMade.2 handled
  exact fun host => invariant.2.2.delivered host

/-- A task that has the rights which a handler asks for, and hands out some names. -/
def ampleTask (fresh : List Port) : Task :=
  { holds := fun port => if port ∈ fresh then {} else { receive := true, send := 1 }
    fresh := fresh }

/-- A translator and a server that have just been joined. -/
def joined : Peers
  | .left => { session := .client 1 2 (ampleTask []) }
  | .right => { session := .server 3 4 (ampleTask []) }

theorem joined_start : Start joined
  | .left => ⟨_, .client 1 2 (ampleTask []), rfl⟩
  | .right => ⟨_, .server 3 4 (ampleTask []), rfl⟩

/--
The translator sends the receive right 10 and the send right 11 to the server, and a message for
10 waits in its run queue when the receive right comes back.
-/
def movedBackRun : List Action :=
  [.receive .left { localPort := 1, body := [⟨.moveReceive, [10]⟩, ⟨.moveSend, [11]⟩] },
    .translate .left 0 (ampleTask []), .write .left 0, .read .right,
    .handle .right 0 (ampleTask [20, 21]), .receive .left { localPort := 10, id := 1000 },
    .receive .right { localPort := 21, body := [⟨.moveReceive, [20]⟩] },
    .translate .right 0 (ampleTask []), .write .right 0, .read .left,
    .handle .left 0 (ampleTask []), .translate .left 0 (ampleTask []), .write .left 0,
    .read .right, .handle .right 0 (ampleTask [])]

theorem movedBackRun_misdelivers :
    ∃ peers, Transition.run step movedBackRun joined = some peers ∧ ¬peers.NeverMisdelivers := by
  refine ⟨_, rfl, fun well => ?_⟩
  rcases well .right _ (List.mem_cons_of_mem _ List.mem_cons_self) _ rfl with
    ⟨isControl, _⟩ | ⟨_, linked | linked⟩ | ⟨_, _, typed, _⟩
  · revert isControl
    decide
  · cases linked
  · cases linked
  · cases typed

/-- A message for the receive right that has been sent to the server follows it there. -/
def followsRun : List Action :=
  [.receive .left { localPort := 1, body := [⟨.moveReceive, [10]⟩] },
    .translate .left 0 (ampleTask []), .write .left 0, .read .right,
    .handle .right 0 (ampleTask [20]), .receive .left { localPort := 10, id := 1000 },
    .translate .left 0 (ampleTask []), .write .left 0, .read .right,
    .handle .right 0 (ampleTask [])]

theorem neverMisdelivers_after_follows :
    ∃ peers, Transition.run step followsRun joined = some peers ∧ peers.NeverMisdelivers := by
  refine ⟨_, rfl, neverMisdelivers_of_reachable joined_start
    (Transition.Reachable.start.of_run followsRun ⟨trivial, ?_⟩ rfl)⟩
  rintro _ ⟨⟩
  refine ⟨?_, ?_⟩
  · rintro message ⟨⟩ ⟨notControl, _⟩
    exact notControl rfl
  rintro _ ⟨⟩
  refine ⟨trivial, ?_⟩
  rintro _ ⟨⟩
  refine ⟨trivial, ?_⟩
  rintro _ ⟨⟩
  refine ⟨trivial, ?_⟩
  rintro _ ⟨⟩
  refine ⟨trivial, ?_⟩
  rintro _ ⟨⟩
  refine ⟨?_, ?_⟩
  · rintro message ⟨⟩ ⟨_, ⟨notified, _⟩ | ⟨_, _, _, type, typed, notReceive | isReserved⟩⟩
    · revert notified
      decide
    · cases typed
      exact notReceive rfl
    · revert isReserved
      decide
  intro _ _
  exact ⟨trivial, fun _ _ => ⟨trivial, fun _ _ => ⟨trivial, fun _ _ => trivial⟩⟩⟩

end Peers

end Hurd.Netmsg
