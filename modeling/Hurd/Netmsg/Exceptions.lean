import Hurd.Netmsg.Consistent

/-!
# Messages that end netmsg

`ipcBufferHandler` asserts that a proxy it receives a message on is a receive right, and that a
message with the number of a NO SENDERS notification came to a receive right.  Any task can send a
message with that number, to the control port for one, and the second assertion then ends the
program.  The first can only fail for a proxy whose receive right has been sent to a local task.
-/

namespace Hurd.Netmsg

namespace Names

/-- Every proxy is a receive right or a send right, but for one port. -/
structure ProxiesTypedBut (dying : Port) (names : Names) : Prop where
  typed : ∀ port, port ≠ dying → names.remotePortsByLocal port ≠ none →
    names.localPortType port = some .receive ∨ names.localPortType port = some .send
  notNull : names.remotePortsByLocal machPortNull = none

variable {names next : Names} {dying port word remote : Port} {type : TypeName}
  {fresh rest : List Port}

theorem ProxiesTypedBut.of_linked (typed : names.ProxiesTypedBut machPortNull)
    (linked : names.remotePortsByLocal port ≠ none) :
    names.localPortType port = some .receive ∨ names.localPortType port = some .send := by
  apply typed.typed port _ linked
  rintro rfl
  exact linked typed.notNull

theorem ProxiesTypedBut.setType (typed : names.ProxiesTypedBut dying) (port : Port)
    {type : LocalType} (isSet : type = .receive ∨ type = .send) :
    (names.setType port type).ProxiesTypedBut dying where
  typed other notDying linked := by
    by_cases same : other = port
    · subst same
      simpa [Names.setType] using isSet
    · simp only [Names.setType, Function.update_of_ne same]
      exact typed.typed other notDying linked
  notNull := typed.notNull

/-- `operator[]` inserts nothing for a proxy. -/
theorem ProxiesTypedBut.touchType (typed : names.ProxiesTypedBut machPortNull) (port : Port) :
    (names.touchType port).ProxiesTypedBut machPortNull where
  typed other _ linked := by
    have before := typed.of_linked linked
    by_cases same : other = port
    · subst same
      rcases before with before | before <;> simp [Names.touchType, before]
    · simpa only [Names.touchType, Function.update_of_ne same] using before
  notNull := typed.notNull

theorem ProxiesTypedBut.link (typed : names.ProxiesTypedBut dying) {type : LocalType}
    (notNull : port ≠ machPortNull) (isSet : type = .receive ∨ type = .send) :
    (names.link remote port type).ProxiesTypedBut dying where
  typed other notDying linked := by
    by_cases same : other = port
    · subst same
      simpa [Names.link] using isSet
    · simp only [Names.link, Function.update_of_ne same] at linked ⊢
      exact typed.typed other notDying linked
  notNull := by
    simp only [Names.link, Function.update_of_ne (Ne.symm notNull)]
    exact typed.notNull

theorem ProxiesTypedBut.eraseType (typed : names.ProxiesTypedBut machPortNull) (port : Port) :
    (names.eraseType port).ProxiesTypedBut port where
  typed other notDying linked := by
    simp only [Names.eraseType, Function.update_of_ne notDying]
    exact typed.of_linked linked
  notNull := typed.notNull

theorem ProxiesTypedBut.unlink (typed : names.ProxiesTypedBut port) :
    (names.unlink port).ProxiesTypedBut machPortNull where
  typed other _ linked := by
    by_cases same : other = port
    · subst same
      simp [Names.unlink] at linked
    · simp only [Names.unlink, Function.update_of_ne same] at linked
      exact typed.typed other same linked
  notNull := by
    by_cases same : machPortNull = port
    · subst same
      simp [Names.unlink]
    · simp only [Names.unlink, Function.update_of_ne same]
      exact typed.notNull

theorem ProxiesTypedBut.unlinkIfLinked (typed : names.ProxiesTypedBut port) :
    (names.unlinkIfLinked port).ProxiesTypedBut machPortNull := by
  rw [Names.unlinkIfLinked]
  split_ifs with linked
  · exact typed.unlink
  · refine ⟨fun other _ otherLinked => ?_, typed.notNull⟩
    apply typed.typed other _ otherLinked
    rintro rfl
    simp [Option.isSome_iff_ne_none, otherLinked] at linked

theorem keptByIpc_proxiesTyped : Session.KeptByIpc ProxiesTypedBut where
  weaken dying typed := ⟨fun _ _ linked => typed.of_linked linked, typed.notNull⟩
  eraseType port typed := typed.eraseType port
  unlink typed := typed.unlink
  unlinkIfLinked typed := typed.unlinkIfLinked
  unlinkOnce typed _ := ⟨typed.typed, typed.notNull⟩
  transmits typed transmitted := by
    cases transmitted with
    | nothing => exact typed
    | proxySend => exact typed
    | ownSend => exact typed.setType _ (.inr rfl)
    | proxyReceive => exact typed.setType _ (.inl rfl)
    | ownReceive => exact typed.setType _ (.inl rfl)

theorem keptByTcp_proxiesTyped : Session.KeptByTcp fun names fresh =>
    names.ProxiesTypedBut machPortNull ∧ ∀ port ∈ fresh, port ≠ machPortNull where
  translates := by
    rintro names next fresh rest type port word ⟨typed, notNull⟩ translated
    cases translated with
    | nothing => exact ⟨typed, notNull⟩
    | returnedSend => exact ⟨typed.touchType _, notNull⟩
    | returnedReceive => exact ⟨typed.setType _ (.inr rfl), notNull⟩
    | returnedName => exact ⟨typed, notNull⟩
    | knownReceive => exact ⟨typed.setType _ (.inr rfl), notNull⟩
    | newReceive _ _ _ supply =>
        subst supply
        rcases List.forall_mem_cons.mp notNull with ⟨first, others⟩
        exact ⟨typed.link first (.inr rfl), others⟩
    | knownSend => exact ⟨typed, notNull⟩
    | newSend _ _ _ _ supply =>
        subst supply
        rcases List.forall_mem_cons.mp notNull with ⟨first, others⟩
        exact ⟨typed.link first (.inl rfl), others⟩
    | sendOnce _ _ _ _ supply =>
        subst supply
        rcases List.forall_mem_cons.mp notNull with ⟨_, others⟩
        exact ⟨⟨typed.typed, typed.notNull⟩, (List.forall_mem_cons.mp others).2⟩
    | name => exact ⟨typed, notNull⟩
  forget port := fun ⟨typed, notNull⟩ => ⟨(typed.eraseType port).unlinkIfLinked, notNull⟩

end Names

namespace Session

variable {start session next : Session} {message : Message} {task : Task}

theorem Created.proxiesTyped (created : Created session) :
    session.names.ProxiesTypedBut machPortNull := by
  have empty : ({} : Names).ProxiesTypedBut machPortNull :=
    ⟨fun _ _ linked => (linked rfl).elim, rfl⟩
  cases created with
  | client => exact empty
  | server => exact empty.setType _ (.inr rfl)

theorem proxiesTyped_of_reachable (created : Created start)
    (reached : Transition.Reachable call (fun session call => session.HandsOutNewNames call.task)
      start session) : session.names.ProxiesTypedBut machPortNull := by
  refine reached.invariant (fun session => session.names.ProxiesTypedBut machPortNull)
    created.proxiesTyped ?_
  intro before after call holds newNames called
  cases call with
  | ipc task message =>
      rcases Option.map_eq_some_iff.mp called with ⟨⟨sent, _⟩, handled, rfl⟩
      have initially : ({ before with task := task } : Session).names.ProxiesTypedBut
          machPortNull := holds
      exact Names.keptByIpc_proxiesTyped.ipcBufferHandler initially handled
  | tcp task message =>
      rcases Option.map_eq_some_iff.mp called with ⟨⟨sent, _⟩, handled, rfl⟩
      have initially : ({ before with task := task } : Session).names.ProxiesTypedBut
          machPortNull ∧ ∀ port ∈ task.fresh, port ≠ machPortNull :=
        ⟨holds, fun port portMem => (newNames.2 port portMem).1⟩
      rcases Names.keptByTcp_proxiesTyped.tcpBufferHandler initially handled with
        ⟨_, typed, _⟩
      exact typed

/-- The port is a proxy whose receive right has gone on to a local task. -/
def RelayedAway (session : Session) (port : Port) : Prop :=
  port ≠ session.control ∧ session.names.remotePortsByLocal port ≠ none ∧
    session.names.localPortType port = some .send

/-- The port is a receive right of `local_port_type`, or no map knows it. -/
def TakesNoSenders (session : Session) (port : Port) : Prop :=
  session.names.localPortType port = some .receive ∨
    port ≠ session.control ∧ ¬session.names.Contains port

theorem route_completes (typed : session.names.ProxiesTypedBut machPortNull)
    (notNotified : message.localPort ≠ session.notificationPort)
    (stays : ¬session.RelayedAway message.localPort) :
    ∃ routed, session.route message = some routed := by
  unfold route
  split_ifs with isControl
  · exact ⟨_, rfl⟩
  · cases linked : session.names.remotePortsByLocal message.localPort with
    | some remote =>
        have isLinked : session.names.remotePortsByLocal message.localPort ≠ none := by
          simp [linked]
        rcases typed.of_linked isLinked with isReceive | isSend
        · exact ⟨_, by simp [isReceive]; rfl⟩
        · exact (stays ⟨isControl, isLinked, isSend⟩).elim
    | none =>
        dsimp only
        split
        · exact ⟨_, rfl⟩
        · split <;> exact ⟨_, rfl⟩

/-- Without rights in the body there is nothing that can fail. -/
theorem translateForTransmission_completes (translatePortNames : Bool)
    (noRights : ∀ item ∈ message.body, item.name.isRight = false) :
    ∃ result, session.translateForTransmission message translatePortNames = some result := by
  have traversed : ∀ (body : List Item) (session : Session),
      (∀ item ∈ body, item.name.isRight = false) →
      ∃ result, Loop.traverse (transmitItem translatePortNames) session body = some result := by
    intro body
    induction body with
    | nil => exact fun session _ => ⟨_, rfl⟩
    | cons item rest ih =>
        intro session noRights
        rcases List.forall_mem_cons.mp noRights with ⟨noRight, noRights⟩
        have transmitted : ∃ replaced, transmitItem translatePortNames session item =
            some (replaced, session) := by
          unfold transmitItem
          cases named : item.name <;> simp [named, TypeName.isRight] at noRight ⊢
        rcases transmitted with ⟨replaced, transmitted⟩
        rcases ih session noRights with ⟨⟨others, final⟩, finished⟩
        exact ⟨_, Loop.traverse_cons_iff.mpr ⟨_, _, _, transmitted, finished, rfl⟩⟩
  rcases traversed message.body session noRights with ⟨⟨body, final⟩, finished⟩
  refine ⟨({ message with body := body }, final), ?_⟩
  simp [translateForTransmission, finished]

/-- A message that is relayed came to the control port or to a port of the maps. -/
theorem Routes.contains {relayed : Message} {deadName : Port} {routed : Session}
    (isRouted : Routes session message (.relay relayed deadName routed))
    (notControl : message.localPort ≠ session.control)
    (notNotified : message.localPort ≠ session.notificationPort) :
    session.names.Contains message.localPort := by
  cases isRouted with
  | control isControl => exact (notControl isControl).elim
  | unknownDeadName _ notified => exact (notNotified notified).elim
  | deadName _ notified => exact (notNotified notified).elim
  | notification _ notified => exact (notNotified notified).elim
  | proxy _ _ linked => exact .inl (by simp [linked])
  | sendOnce _ _ _ linked => exact .inr (.inr (by simp [linked]))
  | own _ _ _ _ typed => exact .inr (.inl (by simp [typed]))
  | raw _ _ _ _ typed => exact .inr (.inl (by simp [typed]))

/-- The condition for a message that no map has a destination for. -/
theorem condition_of_discarded (isDiscarded : Routes session message .discard) :
    ¬session.RelayedAway message.localPort ∧
      (message.id = msgidNoSenders → session.TakesNoSenders message.localPort) := by
  cases isDiscarded with
  | discard notControl _ unlinked unlinkedOnce untyped =>
      refine ⟨fun away => away.2.1 unlinked, fun _ => .inr ⟨notControl, ?_⟩⟩
      rintro (linked | typed | linked)
      · exact linked unlinked
      · exact typed untyped
      · exact linked unlinkedOnce

theorem condition_of_relayed {relayed : Message} {deadName : Port} {routed released : Session}
    (notNotified : message.localPort ≠ session.notificationPort)
    (isRouted : Routes session message (.relay relayed deadName routed))
    (isReleased : routed.releaseNoSenders relayed.id message.localPort = some released) :
    ¬session.RelayedAway message.localPort ∧
      (message.id = msgidNoSenders → session.TakesNoSenders message.localPort) := by
  have stays : ¬session.RelayedAway message.localPort := by
    rintro ⟨notControl, linked, isSend⟩
    cases isRouted with
    | control isControl => exact notControl isControl
    | unknownDeadName _ notified => exact notNotified notified
    | deadName _ notified => exact notNotified notified
    | notification _ notified => exact notNotified notified
    | proxy _ _ _ typed =>
        rw [typed] at isSend
        cases isSend
    | sendOnce _ _ unlinked => exact linked unlinked
    | own _ _ unlinked => exact linked unlinked
    | raw _ _ unlinked => exact linked unlinked
  have same : relayed.id = message.id ∧
      routed.names.localPortType = session.names.localPortType := by
    cases isRouted with
    | deadName _ notified => exact (notNotified notified).elim
    | _ => exact ⟨rfl, rfl⟩
  refine ⟨stays, fun isNoSenders => .inl ?_⟩
  rcases releaseNoSenders_cases isReleased with ⟨notNoSenders, _⟩ | ⟨_, typed, _⟩
  · exact (notNoSenders (same.1.trans isNoSenders)).elim
  · rwa [same.2] at typed

theorem completes_of_routed {routed : Routed} (notNotified : message.localPort ≠ session.notificationPort)
    (noRights : ∀ item ∈ message.body, item.name.isRight = false)
    (takes : message.id = msgidNoSenders → session.TakesNoSenders message.localPort)
    (isRouted : session.route message = some routed) :
    ∃ result, session.ipcBufferHandler message = some result := by
  cases routed with
  | discard => exact ⟨(none, session), by simp [ipcBufferHandler, isRouted]⟩
  | relay relayed deadName routed =>
      have routes := route_cases isRouted
      have same : relayed.id = message.id ∧ relayed.body = message.body ∧
          routed.names.localPortType = session.names.localPortType := by
        cases routes with
        | deadName _ notified => exact (notNotified notified).elim
        | _ => exact ⟨rfl, rfl, rfl⟩
      have released : ∃ released,
          routed.releaseNoSenders relayed.id message.localPort = some released := by
        unfold releaseNoSenders
        split_ifs with isNoSenders
        · rcases takes (same.1.symm.trans isNoSenders) with isReceive | ⟨notControl, unknown⟩
          · exact ⟨_, by simp [same.2.2, isReceive]; rfl⟩
          · exact (unknown (routes.contains notControl notNotified)).elim
        · exact ⟨_, rfl⟩
      rcases released with ⟨released, isReleased⟩
      rcases @translateForTransmission_completes released relayed
        (decide (deadName ≠ machPortNull)) (same.2.1 ▸ noRights) with ⟨⟨sent, final⟩, isTranslated⟩
      exact ⟨_, ipcBufferHandler_of_relay isRouted isReleased isTranslated⟩

theorem completes_iff_of_typed (typed : session.names.ProxiesTypedBut machPortNull)
    (notNotified : message.localPort ≠ session.notificationPort)
    (noRights : ∀ item ∈ message.body, item.name.isRight = false) :
    (∃ result, session.ipcBufferHandler message = some result) ↔
      ¬session.RelayedAway message.localPort ∧
        (message.id = msgidNoSenders → session.TakesNoSenders message.localPort) := by
  constructor
  · rintro ⟨⟨sent, next⟩, handled⟩
    rcases ipcBufferHandler_cases handled with ⟨isDiscarded, _, _⟩ | ⟨relayed, deadName, routed,
      released, _, _, isRouted, isReleased, _, _, _⟩
    · exact condition_of_discarded isDiscarded
    · exact condition_of_relayed notNotified isRouted isReleased
  · rintro ⟨stays, takes⟩
    rcases route_completes typed notNotified stays with ⟨routed, isRouted⟩
    exact completes_of_routed notNotified noRights takes isRouted

/-- When `ipcBufferHandler` comes to its end with a message that has no rights in its body. -/
theorem completes_iff {start session : Session} {task : Task} {message : Message}
    (created : Created start)
    (reached : Transition.Reachable call (fun session call => session.HandsOutNewNames call.task)
      start session)
    (notNotified : message.localPort ≠ session.notificationPort)
    (noRights : ∀ item ∈ message.body, item.name.isRight = false) :
    (∃ result, ({ session with task := task } : Session).ipcBufferHandler message = some result) ↔
      ¬session.RelayedAway message.localPort ∧
        (message.id = msgidNoSenders → session.TakesNoSenders message.localPort) := by
  have typed := proxiesTyped_of_reachable created reached
  exact @completes_iff_of_typed { session with task := task } message typed notNotified noRights

/-- A message with some number comes to the control port of a translator. -/
theorem controlMessage_completes :
    ∃ result, (client 1 2 ⟨fun _ => {}, []⟩).ipcBufferHandler { localPort := 1, id := 1000 } =
      some result := by
  have noRights : ∀ item ∈ ({ localPort := 1, id := 1000 } : Message).body,
      item.name.isRight = false := nofun
  refine (completes_iff (.client 1 2 ⟨fun _ => {}, []⟩) .start (by decide) noRights).mpr ⟨?_, ?_⟩
  · exact fun relayedAway => relayedAway.1 rfl
  · intro isNoSenders
    cases isNoSenders

/-- A message with the number of a NO SENDERS notification comes to the control port. -/
theorem controlNoSenders_not_completes :
    ¬∃ result, (client 1 2 ⟨fun _ => {}, []⟩).ipcBufferHandler
      { localPort := 1, id := msgidNoSenders } = some result := by
  rintro ⟨result, handled⟩
  cases handled

end Session

end Hurd.Netmsg
