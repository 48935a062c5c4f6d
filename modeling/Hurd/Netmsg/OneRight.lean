import Hurd.Netmsg.Entering
import Hurd.Netmsg.Leaving

/-!
# One right for each port

netmsg handles one message after another, from the kernel and from the network.  It keeps one right
for each port in `local_port_type`, but only if no message brings a second one for a port that it has
no proxy for, and if what it makes for a message from the network leaves again.
-/

namespace Hurd.Netmsg

/-- Only the first port of a server may have a number that names no port. -/
def Names.Proper (firstPort : Port) (names : Names) : Prop :=
  ∀ port, port.Nothing → port ≠ firstPort → names.localPortType port = none

namespace Names

variable {firstPort port : Port} {names : Names} {fresh : List Port}

theorem Proper.setType (proper : names.Proper firstPort) (something : ¬port.Nothing)
    (type : LocalType) : (names.setType port type).Proper firstPort := by
  intro other isNothing notFirst
  have different : other ≠ port := by
    rintro rfl
    exact something isNothing
  simp only [Names.setType, Function.update_of_ne different]
  exact proper other isNothing notFirst

theorem Proper.eraseType (proper : names.Proper firstPort) (port : Port) :
    (names.eraseType port).Proper firstPort := by
  intro other isNothing notFirst
  by_cases same : other = port
  · simp [Names.eraseType, same]
  · simp only [Names.eraseType, Function.update_of_ne same]
    exact proper other isNothing notFirst

theorem Proper.unlinkIfLinked (proper : names.Proper firstPort) (port : Port) :
    (names.unlinkIfLinked port).Proper firstPort := by
  rw [Names.unlinkIfLinked]
  split_ifs
  · exact proper
  · exact proper

theorem keptByIpc_proper (firstPort : Port) :
    Session.KeptByIpc fun _ names => names.Proper firstPort where
  weaken _ proper := proper
  eraseType port proper := proper.eraseType port
  unlink proper := proper
  unlinkIfLinked proper := proper.unlinkIfLinked _
  unlinkOnce proper _ := proper
  transmits proper transmitted := by
    cases transmitted with
    | nothing => exact proper
    | proxySend => exact proper
    | ownSend something => exact proper.setType something _
    | proxyReceive something => exact proper.setType something _
    | ownReceive something => exact proper.setType something _

theorem something_not (something : ¬port.Nothing) (flagged : port.flagged = true) :
    ¬Port.Nothing (~~~port) := by
  apply Port.something_of_not_flagged
  · simp [Port.flagged_not, flagged]
  · intro isNull
    have isDead : port = machPortDead := by
      calc port = ~~~(~~~port) := BitVec.not_not.symm
        _ = machPortDead := by rw [isNull]; rfl
    exact something (.inr isDead)

theorem keptByTcp_proper (firstPort : Port) :
    Session.KeptByTcp fun names fresh => names.Proper firstPort ∧
      (names.ConsistentBut machPortNull ∧ names.Supplied fresh) ∧ machPortDead ∉ fresh where
  translates := by
    rintro names next fresh rest type port word ⟨proper, ⟨isConsistent, supplied⟩, notDead⟩ translated
    have isKept := isConsistent.translates supplied translated
    have isNew : ∀ newport ∈ fresh, ¬Port.Nothing newport := by
      rintro newport isFresh (rfl | rfl)
      · exact (supplied.2 _ isFresh).1 rfl
      · exact notDead isFresh
    cases translated with
    | nothing => exact ⟨proper, isKept, notDead⟩
    | returnedSend something flagged =>
        exact ⟨proper.setType (something_not something flagged) _, isKept, notDead⟩
    | returnedReceive something flagged =>
        exact ⟨proper.setType (something_not something flagged) _, isKept, notDead⟩
    | returnedName => exact ⟨proper, isKept, notDead⟩
    | knownReceive something unflagged known =>
        refine ⟨fun other isNothing notFirst => ?_, isKept, notDead⟩
        have untyped := proper other isNothing notFirst
        have different : other ≠ word := by
          rintro rfl
          refine isConsistent.consistent.typed other ?_ untyped
          simp [(isConsistent.inverse port other).mp known]
        simpa only [Names.setType, Function.update_of_ne different] using untyped
    | newReceive something unflagged unknown supply =>
        subst supply
        exact ⟨proper.setType (isNew _ List.mem_cons_self) _, isKept,
          fun isDead => notDead (List.mem_cons_of_mem _ isDead)⟩
    | knownSend => exact ⟨proper, isKept, notDead⟩
    | newSend something unflagged isSend unknown supply =>
        subst supply
        exact ⟨proper.setType (isNew _ List.mem_cons_self) _, isKept,
          fun isDead => notDead (List.mem_cons_of_mem _ isDead)⟩
    | sendOnce something unflagged isOnce unknown supply =>
        subst supply
        exact ⟨proper, isKept,
          fun isDead => notDead (List.mem_cons_of_mem _ (List.mem_cons_of_mem _ isDead))⟩
    | name => exact ⟨proper, isKept, notDead⟩
  forget port := fun ⟨proper, isKept, notDead⟩ =>
    ⟨(proper.eraseType port).unlinkIfLinked port, keptByTcp_consistent.forget port isKept, notDead⟩

end Names

namespace Session

/-- What netmsg handles -/
inductive Transfer
  /-- A message comes by IPC, and its rights with it. -/
  | ipc (message : Message)
  /-- A port that netmsg holds a send right to dies, and the notification comes. -/
  | died (port : Port)
  /-- A message comes over the network; the kernel hands out the fresh names. -/
  | tcp (fresh : List Port) (message : Message)

def transfer (session : Session) : Transfer → Option Session
  | .ipc message =>
      (Session.ipcBufferHandler { session with task := session.task.receive message } message).map
        Prod.snd
  | .died port =>
      (Session.ipcBufferHandler { session with task := session.task.die port }
        (deadNameNotification session.notificationPort port)).map Prod.snd
  | .tcp fresh message =>
      (Session.tcpBufferHandler { session with task := { session.task with fresh := fresh } }
        message).map Prod.snd

/-- A transfer that the kernel and the other side can come up with -/
inductive Legal (session : Session) : Transfer → Prop
  | ipc {message : Message} (fromKernel : session.FromKernel message) : Legal session (.ipc message)
  | died {port : Port} (apart : session.control ≠ session.notificationPort)
      (asked : (session.task.holds port).deadNameRequest = true)
      (notHeld : (session.task.holds port).receive = false) : Legal session (.died port)
  | tcp {fresh : List Port} {message : Message}
      (newNames : session.HandsOutNewNames { session.task with fresh := fresh })
      (notDead : machPortDead ∉ fresh)
      (received : ∀ right ∈ message.carried, right.1.Received) : Legal session (.tcp fresh message)

/-- A transfer after which netmsg still has one right for each port -/
inductive KeepsOne (session : Session) : Transfer → Prop
  | discarded {message : Message} (strays : session.Strays message)
      (untouched : ∀ port, port ≠ session.firstPort → ¬port.Nothing →
        session.names.localPortType port ≠ none → portRights message.carried port = 0) :
      KeepsOne session (.ipc message)
  | entered {message : Message} (known : ¬session.Strays message)
      (enters : session.Enters message) : KeepsOne session (.ipc message)
  | died {port : Port} : KeepsOne session (.died port)
  | consumed {fresh : List Port} {message : Message} (consumes : session.Consumes message)
      (known : ∀ right ∈ message.rights, session.Knows right)
      (harmless : ∀ right ∈ message.rights, session.Harmless right) :
      KeepsOne session (.tcp fresh message)
  | sent {fresh : List Port} {message : Message}
      (known : ∀ right ∈ message.carried, session.Knows right)
      (delivered : (∃ addressed, session.Delivers message addressed) ∨
        ∀ right ∈ message.carried, session.Harmless right) : KeepsOne session (.tcp fresh message)

/-- What holds after each transfer -/
structure Tidy (session : Session) : Prop where
  isConsistent : session.names.ConsistentBut machPortNull
  owes : session.AllOwe []
  proper : session.names.Proper session.firstPort

variable {start session next : Session} {message : Message} {label : Transfer} {port : Port}

theorem Created.tidy (created : Created session) : session.Tidy := by
  refine ⟨created.consistent, ?_, ?_⟩
  · intro port notFirst _
    cases created with
    | client => exact .unknown rfl rfl rfl fun isOnce => absurd rfl isOnce
    | server =>
        exact .unknown (Function.update_of_ne notFirst _ _) rfl rfl fun isOnce => absurd rfl isOnce
  · cases created with
    | client => exact fun _ _ _ => rfl
    | server => exact fun port _ notFirst => Function.update_of_ne notFirst _ _

/-- The names that the kernel hands out next do not matter to where a message goes. -/
theorem Addresses.withFresh {addressed : Option Message} {fresh : List Port}
    (found : session.Addresses message addressed) :
    Addresses { session with task := { session.task with fresh := fresh } } message addressed := by
  cases found with
  | first isControl => exact .first isControl
  | unknown notControl translate unlinked => exact .unknown notControl translate unlinked
  | linked notControl translate linked typed => exact .linked notControl translate linked typed
  | asNumbered notControl noTranslate => exact .asNumbered notControl noTranslate

theorem Delivers.withFresh {addressed : Message} {fresh : List Port}
    (delivers : session.Delivers message addressed) :
    Delivers { session with task := { session.task with fresh := fresh } } message addressed := by
  rcases delivers with ⟨found, notNoSenders, notDeadName, canSend⟩
  exact ⟨found.withFresh, notNoSenders, notDeadName, canSend⟩

theorem Consumes.withFresh {fresh : List Port} (consumes : session.Consumes message) :
    Consumes { session with task := { session.task with fresh := fresh } } message := by
  cases consumes with
  | unknown notControl translate unlinked => exact .unknown notControl translate unlinked
  | noSenders isNoSenders => exact .noSenders isNoSenders
  | deadName found isDeadName toFirst => exact .deadName found.withFresh isDeadName toFirst

theorem tidy_of_ipcBufferHandler {sent : Option Message}
    (handled : session.ipcBufferHandler message = some (sent, next))
    (isConsistent : session.names.ConsistentBut machPortNull)
    (proper : session.names.Proper session.firstPort) (owes : next.AllOwe []) : next.Tidy := by
  refine ⟨Names.keptByIpc_consistent.ipcBufferHandler isConsistent handled, owes, ?_⟩
  rw [(sameOwn_ipcBufferHandler handled).firstPort]
  exact (Names.keptByIpc_proper session.firstPort).ipcBufferHandler proper handled

theorem tidy_of_tcpBufferHandler {sent : Option Message}
    (handled : session.tcpBufferHandler message = some (sent, next))
    (isConsistent : session.names.ConsistentBut machPortNull)
    (proper : session.names.Proper session.firstPort)
    (supplied : session.names.Supplied session.task.fresh) (notDead : machPortDead ∉ session.task.fresh)
    (owes : next.AllOwe []) : next.Tidy := by
  rcases (Names.keptByTcp_proper session.firstPort).tcpBufferHandler
    ⟨proper, ⟨isConsistent, supplied⟩, notDead⟩ handled with ⟨_, nextProper, ⟨nextConsistent, _⟩, _⟩
  refine ⟨nextConsistent, owes, ?_⟩
  rw [(sameOwn_tcpBufferHandler handled).firstPort]
  exact nextProper

/-- A message that no map knows the way of is discarded. -/
theorem Strays.discarded {sent : Option Message} (strays : session.Strays message)
    (handled : session.ipcBufferHandler message = some (sent, next)) : next = session := by
  rcases ipcBufferHandler_cases handled with ⟨_, _, isSame⟩ | ⟨_, _, _, _, _, _, isRouted, _⟩
  · exact isSame
  · rcases strays with ⟨notControl, notNotified, unlinked, unlinkedOnce, untyped⟩
    cases isRouted with
    | control isControl => exact absurd isControl notControl
    | unknownDeadName _ notified => exact absurd notified notNotified
    | deadName _ notified => exact absurd notified notNotified
    | notification _ notified => exact absurd notified notNotified
    | proxy _ _ linked => cases unlinked.symm.trans linked
    | sendOnce _ _ _ linked => cases unlinkedOnce.symm.trans linked
    | own _ _ _ _ typed => cases untyped.symm.trans typed
    | raw _ _ _ _ typed => cases untyped.symm.trans typed

theorem Strays.withTask (strays : session.Strays message) (task : Task) :
    Strays { session with task := task } message :=
  ⟨strays.notControl, strays.notNotified, strays.unlinked, strays.unlinkedOnce, strays.untyped⟩

/-- One transfer keeps the session tidy. -/
theorem Tidy.transfer (tidy : session.Tidy) (legal : session.Legal label)
    (keepsOne : session.KeepsOne label) (transferred : session.transfer label = some next) :
    next.Tidy := by
  cases label with
  | ipc message =>
      rcases Option.map_eq_some_iff.mp transferred with ⟨⟨sent, _⟩, handled, rfl⟩
      rcases legal with ⟨fromKernel⟩
      refine tidy_of_ipcBufferHandler handled tidy.isConsistent tidy.proper ?_
      rcases keepsOne with ⟨strays, untouched⟩ | ⟨known, enters⟩
      · rw [(strays.withTask _).discarded handled]
        exact tidy.owes.discards untouched
      · refine (tidy.owes.arrives tidy.isConsistent fromKernel enters).ipcBufferHandler
          fromKernel.notDeadName enters.noSenders (fun strays => known ?_) handled
        exact strays.withTask session.task
  | died port =>
      rcases Option.map_eq_some_iff.mp transferred with ⟨⟨sent, _⟩, handled, rfl⟩
      rcases legal with _ | ⟨apart, asked, notHeld⟩
      refine tidy_of_ipcBufferHandler handled tidy.isConsistent tidy.proper ?_
      exact tidy.owes.dies tidy.isConsistent apart handled
  | tcp fresh message =>
      rcases Option.map_eq_some_iff.mp transferred with ⟨⟨sent, _⟩, handled, rfl⟩
      rcases legal with _ | _ | ⟨newNames, notDead, received⟩
      have owing : Session.Owing { session with task := { session.task with fresh := fresh } } [] :=
        ⟨tidy.owes, tidy.isConsistent, newNames.supplied⟩
      refine tidy_of_tcpBufferHandler handled tidy.isConsistent tidy.proper newNames.supplied notDead ?_
      rcases keepsOne with _ | _ | _ | ⟨consumes, known, harmless⟩ | ⟨known, delivered⟩
      · exact owing.consumes (fun right isIn => ⟨received right (mem_carried isIn), known right isIn⟩)
          harmless consumes.withFresh handled
      · refine owing.tcpBufferHandler (fun right isIn => ⟨received right isIn, known right isIn⟩) ?_
          handled
        rcases delivered with ⟨addressed, delivers⟩ | harmless
        · exact .inl ⟨addressed, delivers.withFresh⟩
        · exact .inr harmless

/-- In every run each port in `local_port_type` has its one right after each transfer. -/
theorem oneRight_of_reachable (created : Created start)
    (reached : Transition.Reachable transfer
      (fun session label => session.Legal label ∧ session.KeepsOne label) start session)
    (notFirst : port ≠ session.firstPort) (typed : session.names.localPortType port ≠ none) :
    (session.account port).OneRight := by
  have tidy : session.Tidy := reached.invariant Tidy created.tidy
    fun tidy allowed taken => tidy.transfer allowed.1 allowed.2 taken
  have something : ¬port.Nothing := fun isNothing => typed (tidy.proper port isNothing notFirst)
  cases tidy.owes port notFirst something with
  | known holds => exact Account.oneRight_iff.mpr holds
  | unknown untyped => exact absurd untyped typed

/-- A message to the control port of a translator, with one right -/
def sends (type : TypeName) (port : Port) : Transfer :=
  .ipc { localPort := 1, body := [⟨type, [port]⟩] }

/-- A translator that has not handled anything -/
def newClient : Session := client 1 2 ⟨fun _ => {}, []⟩

theorem legal_sendRight (session : Session) (port : Port) (notified : session.notificationPort = 2) :
    session.Legal (sends .moveSend port) := by
  refine .ipc ⟨?_, nofun, ?_, ?_⟩
  · rw [notified]
    exact fun isNotified => absurd isNotified (by decide : (1 : Port) ≠ 2)
  · intro other _
    exact (count_receive_of_send []).le.trans (Nat.zero_le 1)
  · intro other _ someReceives
    have noReceives : Message.rights { localPort := 1, body := [⟨.moveSend, [port]⟩] } =
        [(.moveSend, port)] := rfl
    rw [noReceives, count_receive_of_send] at someReceives
    cases someReceives

/-- A send right of another port comes over the network, with a message for the port that was sent. -/
def answer : Message := { localPort := 5, body := [⟨.moveSend, [7]⟩] }

theorem portRights_send (port other : Port) :
    portRights [(.moveSend, port)] other = if other = port then 1 else 0 := by
  split_ifs with same
  · rw [same, portRights, count_right_self, count_receive_of_send]
    rfl
  · rw [portRights, count_right_of_name [] same, count_right_of_name [] same]
    rfl

theorem keepsOne_sendRight : newClient.KeepsOne (sends .moveSend 5) := by
  refine .entered (fun strays => strays.notControl rfl) ⟨?_, nofun, fun isNoSenders => ?_⟩
  · intro port _ _ _ someRights
    refine ⟨rfl, rfl, ?_⟩
    have someHere : 0 < portRights [(.moveSend, (5 : Port))] port := someRights
    have counted : portRights [(.moveSend, (5 : Port))] port = 1 := by
      rw [portRights_send] at someHere ⊢
      split_ifs at someHere ⊢ with same
      · rfl
      · cases someHere
    exact counted
  · cases isNoSenders

theorem oneRight_after_answer :
    ∃ once session, newClient.transfer (sends .moveSend 5) = some once ∧
      once.transfer (.tcp [100] answer) = some session ∧
      (session.account 100).type = some .receive ∧ (session.account 100).OneRight := by
  have ran : ∃ once session, newClient.transfer (sends .moveSend 5) = some once ∧
      once.transfer (.tcp [100] answer) = some session ∧ once.names = ({} : Names).setType 5 .send ∧
      (once.task.holds 5).send = 1 ∧ session.firstPort = machPortNull ∧
      (session.account 100).type = some .receive :=
    ⟨_, _, rfl, rfl, rfl, rfl, rfl, rfl⟩
  rcases ran with ⟨once, session, first, second, names, oneSend, isFirst, typed⟩
  have newNames : once.HandsOutNewNames { once.task with fresh := [100] } := by
    refine ⟨List.nodup_singleton _, fun port portMem => ?_⟩
    rw [List.mem_singleton] at portMem
    subst portMem
    refine ⟨by decide, ?_⟩
    rw [names]
    rintro (linked | isTyped | linked)
    · exact linked rfl
    · exact isTyped (by decide)
    · exact linked rfl
  have legal : once.Legal (.tcp [100] answer) := by
    refine .tcp newNames (by decide) fun right isIn => ?_
    rw [List.mem_singleton.mp isIn]
    exact ⟨nofun, nofun, nofun⟩
  have keepsOne : once.KeepsOne (.tcp [100] answer) := by
    refine .sent (fun right isIn => ?_) (.inl ⟨answer, ?_⟩)
    · rw [List.mem_singleton.mp isIn]
      exact fun _ _ flagged => absurd flagged (by decide)
    · refine ⟨.asNumbered (by decide) rfl, by decide, fun isDead => absurd isDead.1 (by decide), ?_⟩
      have isCopy : (once.swapHeader answer).remoteType = some .copySend := by
        rw [swapHeader, names]
        rfl
      rw [isCopy]
      exact decide_eq_true (oneSend ▸ Nat.one_pos)
  have isTyped : session.names.localPortType 100 ≠ none :=
    fun untyped => Option.some_ne_none _ (typed.symm.trans untyped)
  have notFirst : (100 : Port) ≠ session.firstPort := by
    rw [isFirst]
    decide
  have reached : Transition.Reachable transfer
      (fun session label => session.Legal label ∧ session.KeepsOne label) newClient session :=
    (Transition.Reachable.start.step
      ⟨legal_sendRight newClient 5 rfl, keepsOne_sendRight⟩ first).step ⟨legal, keepsOne⟩ second
  exact ⟨once, session, first, second, typed,
    oneRight_of_reachable (.client 1 2 _) reached notFirst isTyped⟩

/-- The same send right is sent twice, and netmsg holds two. -/
theorem two_sends_not_oneRight :
    ¬∀ (start session : Session) (port : Port), Created start →
      Transition.Reachable transfer Legal start session → port ≠ session.firstPort →
      session.names.localPortType port ≠ none → (session.account port).OneRight := by
  intro claimed
  have ran : ∃ once twice, newClient.transfer (sends .moveSend 5) = some once ∧
      once.transfer (sends .moveSend 5) = some twice ∧ once.notificationPort = 2 ∧
      twice.firstPort = machPortNull ∧ (twice.account 5).type = some .send ∧
      (twice.account 5).holding.send = 2 :=
    ⟨_, _, rfl, rfl, rfl, rfl, rfl, rfl⟩
  rcases ran with ⟨once, twice, first, second, notified, isFirst, typed, two⟩
  have reached : Transition.Reachable transfer Legal newClient twice :=
    (Transition.Reachable.start.step (legal_sendRight _ 5 rfl) first).step
      (legal_sendRight _ 5 notified) second
  have notFirst : (5 : Port) ≠ twice.firstPort := by
    rw [isFirst]
    decide
  have isTyped : twice.names.localPortType 5 ≠ none :=
    fun untyped => Option.some_ne_none _ (typed.symm.trans untyped)
  cases claimed newClient twice 5 (.client 1 2 _) reached notFirst isTyped with
  | receive isReceive => cases typed.symm.trans isReceive
  | send _ one => cases two.symm.trans one

end Session

end Hurd.Netmsg
