import Hurd.Netmsg.RoundTrip

/-!
# Send-once rights are proxied once

A send-once right goes out under its number as it is, and the other end makes a receive right of
its own for it.  The first message on that receive right is passed on under the number, and the
mapping and the receive right go with it; the message, when it is sent, consumes the send-once
right, and only then does the kernel use the number again.

Each send-once right that a task holds stands for one token: the right is on its way to the
other end, or is proxied there, or the message for it is on its way back.  The number of
tokens under a name never exceeds the number of send-once rights that the task holds under it,
which is one, so a right that arrives is never proxied already.
-/

namespace Hurd.Netmsg

/-- The types that `translatePort2` takes for a send-once right. -/
def TypeName.isOnce : TypeName → Bool
  | .moveSendOnce => true
  | .makeSendOnce => true
  | _ => false

/-- The numbers of the send-once rights in an item. -/
def Item.onceNames (item : Item) : List Port :=
  if item.name.isOnce then item.ports.filter fun port => !decide port.Nothing else []

/-- The number of the reply port of a message, if that is a send-once right. -/
def Message.onceReply (message : Message) : List Port :=
  if message.remoteType = some .moveSendOnce ∧ ¬message.remotePort.Nothing then
    [message.remotePort]
  else []

/-- The numbers of the send-once rights that a message carries, that of its reply port included. -/
def Message.onceNames (message : Message) : List Port :=
  message.body.flatMap Item.onceNames ++ message.onceReply

/--
The numbers of the send-once rights of a message that have been translated when the message has
led to `sent`; the reply port of a message that is not sent on is not looked at.
-/
def Message.onceTranslated (message : Message) (sent : Option Message) : List Port :=
  message.body.flatMap Item.onceNames ++ if sent.isSome then message.onceReply else []

theorem Message.count_onceTranslated_le (message : Message) (sent : Option Message)
    (number : Port) : (message.onceTranslated sent).count number ≤ message.onceNames.count number := by
  rw [Message.onceTranslated, Message.onceNames, List.count_append, List.count_append]
  split_ifs <;> simp

/-- The receive right behind a send-once proxy is found by the number of the right. -/
def Names.OnceLinked (names : Names) : Prop :=
  ∀ port remote, names.sendOncePortsByLocal port = some remote →
    names.sendOncePortsByRemote remote = some port

namespace Names

variable {names next : Names} {port word remote : Port} {type : TypeName} {fresh rest : List Port}

theorem OnceLinked.unlinkOnce (linked : names.OnceLinked)
    (proxied : names.sendOncePortsByLocal port = some remote) :
    (names.unlinkOnce remote port).OnceLinked := by
  intro other otherRemote otherProxied
  by_cases same : other = port
  · subst same
    simp [Names.unlinkOnce] at otherProxied
  · simp only [Names.unlinkOnce, Function.update_of_ne same] at otherProxied ⊢
    have different : otherRemote ≠ remote := by
      rintro rfl
      have isPort := linked port otherRemote proxied
      rw [linked other otherRemote otherProxied] at isPort
      exact same (Option.some.inj isPort)
    rw [Function.update_of_ne different]
    exact linked other otherRemote otherProxied

theorem OnceLinked.linkOnce (linked : names.OnceLinked)
    (unknown : names.sendOncePortsByRemote remote = none) (port : Port) :
    (names.linkOnce remote port).OnceLinked := by
  intro other otherRemote otherProxied
  by_cases same : other = port
  · subst same
    simp only [Names.linkOnce, Function.update_self, Option.some.injEq] at otherProxied
    subst otherProxied
    simp [Names.linkOnce]
  · simp only [Names.linkOnce, Function.update_of_ne same] at otherProxied ⊢
    have known := linked other otherRemote otherProxied
    have different : otherRemote ≠ remote := by
      rintro rfl
      rw [unknown] at known
      cases known
    rw [Function.update_of_ne different]
    exact known

theorem OnceLinked.translates (linked : names.OnceLinked)
    (translated : names.Translates fresh type port word next rest) : next.OnceLinked := by
  cases translated with
  | sendOnce _ _ _ unknown => exact linked.linkOnce unknown _
  | _ => exact linked

/-- The translation of a send-once right makes a proxy for its number, and nothing else does. -/
theorem Translates.once_iff {other : Port}
    (translated : names.Translates fresh type port word next rest) :
    next.sendOncePortsByRemote other ≠ none ↔
      names.sendOncePortsByRemote other ≠ none ∨
        (other = port ∧ type.isOnce = true ∧ ¬port.Nothing) := by
  cases translated with
  | sendOnce something _ isOnce =>
      have hasType : type.isOnce = true := by
        rcases isOnce with rfl | rfl <;> rfl
      by_cases same : other = port
      · subst same
        simp [Names.linkOnce, hasType, something]
      · simp [Names.linkOnce, same]
  | nothing isNothing => simp [isNothing]
  | knownSend _ _ isSend => rcases isSend with rfl | rfl | rfl <;> simp [TypeName.isOnce]
  | newSend _ _ isSend => rcases isSend with rfl | rfl | rfl <;> simp [Names.link, TypeName.isOnce]
  | returnedSend => simp [Names.touchType, TypeName.isOnce]
  | returnedReceive => simp [Names.setType, TypeName.isOnce]
  | returnedName => simp [TypeName.isOnce]
  | knownReceive => simp [Names.setType, TypeName.isOnce]
  | newReceive => simp [Names.link, TypeName.isOnce]
  | name => simp [TypeName.isOnce]

end Names

namespace Task

variable {task next : Task} {name : Port}

theorem destroyReceive_receive (task : Task) (name : Port) :
    ((task.destroyReceive name).holds name).receive = false := by
  rw [destroyReceive]
  split_ifs with held
  · simp [modify]
  · simpa using held

theorem modify_receive {change : Holding → Holding}
    (same : ∀ holding, (change holding).receive = holding.receive) (other : Port) :
    ((task.modify name change).holds other).receive = (task.holds other).receive := by
  by_cases isName : other = name
  · subst isName
    simp [modify, same]
  · simp [modify, isName]

theorem dropSend_receive (task : Task) (name other : Port) :
    ((task.dropSend name).holds other).receive = (task.holds other).receive := by
  rw [dropSend]
  split_ifs
  · apply modify_receive
    intro holding
    rw [Holding.release]
    split_ifs <;> rfl
  · rfl

theorem requestDeadName_receive {ask old : Bool}
    (requested : task.requestDeadName name ask = some (old, next)) (other : Port) :
    (next.holds other).receive = (task.holds other).receive := by
  rw [requestDeadName] at requested
  split_ifs at requested
  cases requested
  apply modify_receive
  intro holding
  rfl

theorem requestNoSenders_receive {ask old : Bool}
    (requested : task.requestNoSenders name ask = some (old, next)) (other : Port) :
    (next.holds other).receive = (task.holds other).receive := by
  rw [requestNoSenders] at requested
  split_ifs at requested
  cases requested
  apply modify_receive
  intro holding
  rfl

end Task

namespace Session

variable {session next : Session} {message wire : Message} {port : Port}

theorem receive_transmitSend {word : Port}
    (transmitted : session.transmitSend port = some (word, next)) (other : Port) :
    (next.task.holds other).receive = (session.task.holds other).receive := by
  simp only [transmitSend] at transmitted
  split_ifs at transmitted
  · cases transmitted
    rfl
  · split at transmitted
    · rcases Option.bind_eq_some_iff.mp transmitted with ⟨_, _, ⟨⟩⟩
      exact Task.dropSend_receive ..
    · cases transmitted
      dsimp only
      split
      · rfl
      · rename_i requested
        exact Task.requestDeadName_receive requested other

theorem receive_transmitReceive {word : Port}
    (transmitted : session.transmitReceive port = some (word, next)) (other : Port) :
    (next.task.holds other).receive = (session.task.holds other).receive := by
  simp only [transmitReceive] at transmitted
  split_ifs at transmitted
  · cases transmitted
    rfl
  · rcases Option.bind_eq_some_iff.mp transmitted with ⟨⟨old, task⟩, requested, transmitted⟩
    have firstSame := Task.requestNoSenders_receive requested other
    dsimp only at transmitted
    split at transmitted
    · rcases Option.bind_eq_some_iff.mp transmitted with ⟨_, _, transmitted⟩
      rcases Option.bind_eq_some_iff.mp transmitted with ⟨⟨_, second⟩, requested, ⟨⟩⟩
      have secondSame := Task.requestDeadName_receive requested other
      exact (Task.dropSend_receive ..).trans (secondSame.trans firstSame)
    · cases transmitted
      exact firstSame

/-- The message is on a send-once proxy of the number. -/
structure RoutesOnce (session : Session) (message : Message) (remote : Port) : Prop where
  notControl : message.localPort ≠ session.control
  notNotified : message.localPort ≠ session.notificationPort
  unlinked : session.names.remotePortsByLocal message.localPort = none
  linked : session.names.sendOncePortsByLocal message.localPort = some remote

/-- What `ipcBufferHandler` does to the send-once proxies. -/
theorem once_ipcBufferHandler {sent : Option Message}
    (handled : session.ipcBufferHandler message = some (sent, next)) :
    (next.names.sendOncePortsByRemote = session.names.sendOncePortsByRemote ∧
        next.names.sendOncePortsByLocal = session.names.sendOncePortsByLocal ∧
        ∀ remote, ¬session.RoutesOnce message remote) ∨
      ∃ remote, session.RoutesOnce message remote ∧
        next.names.sendOncePortsByRemote =
          (session.names.unlinkOnce remote message.localPort).sendOncePortsByRemote ∧
        next.names.sendOncePortsByLocal =
          (session.names.unlinkOnce remote message.localPort).sendOncePortsByLocal := by
  rcases ipcBufferHandler_cases handled with ⟨isRouted, _, rfl⟩ | ⟨relayed, deadName, routed,
    released, written, translated, isRouted, isReleased, isTranslated, _, rfl⟩
  · refine .inl ⟨rfl, rfl, fun remote routes => ?_⟩
    cases isRouted with
    | discard _ _ _ unlinkedOnce => simp [routes.linked] at unlinkedOnce
  · have sameAsRouted : (translated.forgetDeadName deadName).names.sendOncePortsByRemote =
          routed.names.sendOncePortsByRemote ∧
        (translated.forgetDeadName deadName).names.sendOncePortsByLocal =
          routed.names.sendOncePortsByLocal := by
      have releasedSame : released.names.sendOncePortsByRemote =
            routed.names.sendOncePortsByRemote ∧
          released.names.sendOncePortsByLocal = routed.names.sendOncePortsByLocal := by
        rcases releaseNoSenders_cases isReleased with ⟨_, rfl⟩ | ⟨_, _, rfl⟩ <;> exact ⟨rfl, rfl⟩
      have translatedSame : translated.names.sendOncePortsByRemote =
            released.names.sendOncePortsByRemote ∧
          translated.names.sendOncePortsByLocal = released.names.sendOncePortsByLocal := by
        refine translateForTransmission_invariant
          (fun session => session.names.sendOncePortsByRemote =
              released.names.sendOncePortsByRemote ∧
            session.names.sendOncePortsByLocal = released.names.sendOncePortsByLocal)
          ?_ ?_ ⟨rfl, rfl⟩ isTranslated
        · intro before other word after holds transmitted
          rcases (transmitSend_cases transmitted).1.sameOnce with ⟨byRemote, byLocal⟩
          exact ⟨byRemote.trans holds.1, byLocal.trans holds.2⟩
        · intro before other word after holds transmitted
          rcases (transmitReceive_cases transmitted).1.sameOnce with ⟨byRemote, byLocal⟩
          exact ⟨byRemote.trans holds.1, byLocal.trans holds.2⟩
      have forgottenSame : (translated.forgetDeadName deadName).names.sendOncePortsByRemote =
            translated.names.sendOncePortsByRemote ∧
          (translated.forgetDeadName deadName).names.sendOncePortsByLocal =
            translated.names.sendOncePortsByLocal := by
        rw [forgetDeadName]
        split_ifs
        · rw [Names.unlinkIfLinked]
          split_ifs <;> exact ⟨rfl, rfl⟩
        · exact ⟨rfl, rfl⟩
      exact ⟨forgottenSame.1.trans (translatedSame.1.trans releasedSame.1),
        forgottenSame.2.trans (translatedSame.2.trans releasedSame.2)⟩
    rw [sameAsRouted.1, sameAsRouted.2]
    cases isRouted with
    | control isControl => exact .inl ⟨rfl, rfl, fun _ routes => routes.notControl isControl⟩
    | unknownDeadName _ notified => exact .inl ⟨rfl, rfl, fun _ routes => routes.notNotified notified⟩
    | deadName _ notified => exact .inl ⟨rfl, rfl, fun _ routes => routes.notNotified notified⟩
    | notification _ notified => exact .inl ⟨rfl, rfl, fun _ routes => routes.notNotified notified⟩
    | proxy _ _ linked =>
        refine .inl ⟨rfl, rfl, fun _ routes => ?_⟩
        simp [routes.unlinked] at linked
    | sendOnce notControl notNotified unlinked linked =>
        exact .inr ⟨_, ⟨notControl, notNotified, unlinked, linked⟩, rfl, rfl⟩
    | own _ _ _ unlinkedOnce =>
        refine .inl ⟨rfl, rfl, fun _ routes => ?_⟩
        simp [routes.linked] at unlinkedOnce
    | raw _ _ _ unlinkedOnce =>
        refine .inl ⟨rfl, rfl, fun _ routes => ?_⟩
        simp [routes.linked] at unlinkedOnce

theorem onceNames_transmitItem {translatePortNames : Bool} {item replaced : Item}
    (transmitted : transmitItem translatePortNames session item = some (replaced, next)) :
    replaced.onceNames = item.onceNames := by
  unfold transmitItem at transmitted
  split at transmitted
  · rename_i isSend
    rcases Option.bind_eq_some_iff.mp transmitted with ⟨⟨ports, _⟩, _, ⟨⟩⟩
    simp [Item.onceNames, isSend, TypeName.isOnce]
  · rename_i isReceive
    rcases Option.bind_eq_some_iff.mp transmitted with ⟨⟨ports, _⟩, _, ⟨⟩⟩
    simp [Item.onceNames, isReceive, TypeName.isOnce]
  · rename_i isName
    cases transmitted
    simp [Item.onceNames, isName, TypeName.isOnce]
  all_goals
    cases transmitted
    rfl

theorem onceNames_of_forall₂ {items replaced : List Item}
    (sameItems : List.Forall₂ (fun item replaced : Item => replaced.onceNames = item.onceNames)
      items replaced) : replaced.flatMap Item.onceNames = items.flatMap Item.onceNames := by
  induction sameItems with
  | nil => rfl
  | cons same _ ih =>
      simp only [List.flatMap_cons]
      rw [same, ih]

/-- Send-once rights are transmitted under their own numbers. -/
theorem onceNames_ipcBufferHandler (handled : session.ipcBufferHandler message =
    some (some wire, next)) : wire.onceNames = message.onceNames := by
  rcases ipcBufferHandler_cases handled with ⟨_, isNone, _⟩ | ⟨relayed, deadName, routed, released,
    written, translated, isRouted, isReleased, isTranslated, isSent, _⟩
  · cases isNone
  · cases isSent
    have sameRelayed : relayed.onceNames = message.onceNames := by
      cases isRouted <;> rfl
    rw [← sameRelayed]
    rcases Option.bind_eq_some_iff.mp isTranslated with ⟨⟨body, last⟩, traversed, ⟨⟩⟩
    have sameBody : body.flatMap Item.onceNames = relayed.body.flatMap Item.onceNames :=
      onceNames_of_forall₂ (Loop.traverse_forall₂ (fun _ => True) _
        (fun _ done => ⟨trivial, onceNames_transmitItem done⟩) trivial traversed)
    simp only [Message.onceNames, sameBody]
    rfl

/-- The names that a loop of translations makes send-once proxies of. -/
theorem once_translatePorts {ports replaced : List Port} {type : TypeName} {other : Port}
    (translated : Loop.traverse (fun session port => session.translatePort2 port type) session
      ports = some (replaced, next)) :
    next.names.sendOncePortsByRemote other ≠ none ↔
      session.names.sendOncePortsByRemote other ≠ none ∨
        other ∈ (⟨type, ports⟩ : Item).onceNames := by
  induction ports generalizing session replaced with
  | nil =>
      rcases Loop.traverse_nil_iff.mp translated with ⟨_, rfl⟩
      simp [Item.onceNames]
  | cons port rest ih =>
      rcases Loop.traverse_cons_iff.mp translated with ⟨word, middle, others, done, restDone, _⟩
      rw [ih restDone, (translatePort2_cases done).1.once_iff, or_assoc]
      refine or_congr_right ?_
      by_cases isOnce : type.isOnce = true
      · by_cases something : port.Nothing
        · simp [Item.onceNames, isOnce, something]
        · simp [Item.onceNames, isOnce, something]
      · simp [Item.onceNames, isOnce]

theorem once_translateItems {translatePortNames : Bool} {items replaced : List Item} {other : Port}
    (translated : Loop.traverse (translateItem translatePortNames) session items =
      some (replaced, next)) :
    next.names.sendOncePortsByRemote other ≠ none ↔
      session.names.sendOncePortsByRemote other ≠ none ∨
        other ∈ items.flatMap Item.onceNames := by
  induction items generalizing session replaced with
  | nil =>
      rcases Loop.traverse_nil_iff.mp translated with ⟨_, rfl⟩
      simp
  | cons item rest ih =>
      rcases Loop.traverse_cons_iff.mp translated with ⟨first, middle, others, done, restDone, _⟩
      rw [ih restDone, List.flatMap_cons, List.mem_append, ← or_assoc]
      refine or_congr_left ?_
      rcases translateItem_cases done with ⟨untranslated, _, rfl⟩ | ⟨ports, portsDone, _⟩
      · have notOnce : item.name.isOnce = false := by
          rcases untranslated with isData | ⟨isName, _⟩
          · rw [isData]
            rfl
          · rw [isName]
            rfl
        simp [Item.onceNames, notOnce]
      · exact once_translatePorts portsDone

theorem once_handleNoSenders (handled : session.handleNoSenders port = some next) :
    next.names.sendOncePortsByRemote = session.names.sendOncePortsByRemote ∧
      next.names.sendOncePortsByLocal = session.names.sendOncePortsByLocal := by
  rcases handleNoSenders_cases handled with ⟨_, rfl⟩ | ⟨_, _, _, _, rfl⟩
  · exact ⟨rfl, rfl⟩
  · simp only [Names.unlinkIfLinked]
    split_ifs <;> exact ⟨rfl, rfl⟩

theorem once_handleDeadName (handled : session.handleDeadName port = some next) :
    next.names.sendOncePortsByRemote = session.names.sendOncePortsByRemote ∧
      next.names.sendOncePortsByLocal = session.names.sendOncePortsByLocal := by
  rcases handleDeadName_cases handled with ⟨_, rfl⟩ | ⟨_, rfl⟩
  · exact ⟨rfl, rfl⟩
  · simp only [Names.unlinkIfLinked]
    split_ifs <;> exact ⟨rfl, rfl⟩

/-- `tcpBufferHandler` makes send-once proxies for the send-once rights that it translates. -/
theorem once_tcpBufferHandler {sent : Option Message} {other : Port}
    (handled : session.tcpBufferHandler wire = some (sent, next)) :
    next.names.sendOncePortsByRemote other ≠ none ↔
      session.names.sendOncePortsByRemote other ≠ none ∨ other ∈ wire.onceTranslated sent := by
  rcases tcpBufferHandler_cases handled with
    ⟨translated, middle, addressed, headed, isTranslated, isHeaded, isSent, rfl⟩
  rcases Option.bind_eq_some_iff.mp isTranslated with ⟨⟨body, last⟩, traversed, ⟨⟩⟩
  have ofBody : middle.names.sendOncePortsByRemote other ≠ none ↔
      session.names.sendOncePortsByRemote other ≠ none ∨
        other ∈ wire.body.flatMap Item.onceNames := once_translateItems traversed
  rw [Message.onceTranslated, List.mem_append, ← or_assoc, ← ofBody]
  cases (translateHeader_cases isHeaded).2 with
  | discard => simp [isSent]
  | noSenders _ _ handled => simp [isSent, once_handleNoSenders handled]
  | deadName _ _ _ _ handled => simp [isSent, once_handleDeadName handled]
  | noReply _ _ _ noReply =>
      have noReplyType : wire.remoteType = none := noReply
      simp [Message.onceReply, noReplyType]
  | reply _ _ _ replyType isRight isTranslatedReply =>
      have replyTypeWire : wire.remoteType = some _ := replyType
      rw [(translatePort2_cases isTranslatedReply).1.once_iff]
      refine or_congr_right ?_
      simp only [isSent, Option.map_some, Option.isSome_some, if_true, Message.onceReply,
        replyTypeWire]
      rcases isRight with rfl | rfl
      · simp [TypeName.isOnce]
      · by_cases something : wire.remotePort.Nothing
        · simp [TypeName.isOnce, something]
        · simp [TypeName.isOnce, something]

/--
The message is sent with `MACH_MSG_TYPE_MOVE_SEND_ONCE` to a port of ours, so that a send-once
right under that name is used up.
-/
structure SendsOnceTo (session : Session) (wire : Message) (port : Port) : Prop where
  asOnce : wire.localType = some .moveSendOnce
  untyped : session.names.localPortType port = none
  addressed : (wire.localPort = machPortControl ∧ port = session.firstPort) ∨
    (wire.localPort ≠ machPortControl ∧ wire.remoteTranslate = false ∧ port = wire.localPort)

theorem sendsOnceTo_of_tcpBufferHandler {sent : Message}
    (handled : session.tcpBufferHandler wire = some (some sent, next))
    (isOnce : sent.remoteType = some .moveSendOnce) : session.SendsOnceTo wire sent.remotePort := by
  rcases tcpBufferHandler_cases handled with
    ⟨translated, middle, addressed, headed, bodyTranslated, isHeaded, isSent, rfl⟩
  have keepsTyped : ∀ {port}, session.names.localPortType port ≠ none →
      middle.names.localPortType port ≠ none := by
    intro port typed
    exact translateMessage_invariant (fun middle => middle.names.localPortType port ≠ none)
      (fun holds done => (translatePort2_cases done).1.grows.2.2 _ holds) typed bodyTranslated
  have sameOwn := sameOwn_translateMessage bodyTranslated
  rcases Option.bind_eq_some_iff.mp bodyTranslated with ⟨⟨body, last⟩, _, ⟨⟩⟩
  -- what holds of the destination once the header is translated
  have ofFound : ∀ {found : Message},
      Addresses middle { wire with body := body } (some found) →
      (∀ {port}, middle.names.localPortType port ≠ none →
        headed.names.localPortType port ≠ none) →
      sent.remotePort = found.localPort →
      sent.remoteType = (if (headed.names.localPortType found.localPort).isSome then some .copySend
        else found.localType) → session.SendsOnceTo wire sent.remotePort := by
    intro found addresses staysTyped isPort isType
    have untypedHeaded : headed.names.localPortType found.localPort = none := by
      by_contra typed
      rw [isType, if_pos (Option.isSome_iff_ne_none.mpr typed)] at isOnce
      cases isOnce
    rw [untypedHeaded, isOnce] at isType
    have untyped : middle.names.localPortType found.localPort = none := by
      by_contra typed
      exact staysTyped typed untypedHeaded
    have untypedBefore : session.names.localPortType found.localPort = none := by
      by_contra typed
      exact keepsTyped typed untyped
    rw [isPort]
    cases addresses with
    | first isControl =>
        exact ⟨isType.symm, untypedBefore, .inl ⟨isControl, sameOwn.firstPort⟩⟩
    | linked _ _ _ typed =>
        rw [typed] at untyped
        cases untyped
    | asNumbered notControl noTranslate =>
        exact ⟨isType.symm, untypedBefore, .inr ⟨notControl, noTranslate, rfl⟩⟩
  cases (translateHeader_cases isHeaded).2 with
  | discard => cases isSent
  | noSenders => cases isSent
  | deadName => cases isSent
  | noReply found =>
      cases isSent
      exact ofFound found id rfl rfl
  | reply found _ _ _ _ isTranslatedReply =>
      cases isSent
      exact ofFound found ((translatePort2_cases isTranslatedReply).1.grows.2.2 _) rfl rfl

/-- The number of the send-once right whose proxy a message that came by IPC is on. -/
def onceRelayed (session : Session) (message : Message) : Option Port :=
  if message.localPort = session.control ∨ message.localPort = session.notificationPort then none
  else
    match session.names.remotePortsByLocal message.localPort with
    | some _ => none
    | none => session.names.sendOncePortsByLocal message.localPort

theorem onceRelayed_eq_some_iff {remote : Port} :
    session.onceRelayed message = some remote ↔ session.RoutesOnce message remote := by
  unfold onceRelayed
  constructor
  · intro isRelayed
    split_ifs at isRelayed with own
    rw [not_or] at own
    split at isRelayed
    · cases isRelayed
    · rename_i unlinked
      exact ⟨own.1, own.2, unlinked, isRelayed⟩
  · rintro ⟨notControl, notNotified, unlinked, linked⟩
    simp [notControl, notNotified, unlinked, linked]

/-- The message on a send-once proxy goes out under the number of the right. -/
theorem RoutesOnce.relayed {remote : Port} (routes : session.RoutesOnce message remote)
    (handled : session.ipcBufferHandler message = some (some wire, next)) :
    wire.localPort = remote ∧ wire.remoteTranslate = message.remoteTranslate := by
  rcases ipcBufferHandler_cases handled with ⟨_, isNone, _⟩ | ⟨relayed, deadName, routed, released,
    written, translated, isRouted, _, isTranslated, isSent, _⟩
  · cases isNone
  · cases isSent
    rcases Option.bind_eq_some_iff.mp isTranslated with ⟨⟨body, last⟩, _, ⟨⟩⟩
    cases isRouted with
    | control isControl => exact (routes.notControl isControl).elim
    | unknownDeadName _ notified => exact (routes.notNotified notified).elim
    | deadName _ notified => exact (routes.notNotified notified).elim
    | notification _ notified => exact (routes.notNotified notified).elim
    | proxy _ _ linked => simp [routes.unlinked] at linked
    | sendOnce _ _ _ linked =>
        rw [routes.linked] at linked
        cases linked
        exact ⟨rfl, rfl⟩
    | own _ _ _ unlinkedOnce => simp [routes.linked] at unlinkedOnce
    | raw _ _ _ unlinkedOnce => simp [routes.linked] at unlinkedOnce

/-- The receive right of a send-once proxy goes with the message that is relayed. -/
theorem RoutesOnce.receiveGone {remote : Port} {sent : Option Message}
    (routes : session.RoutesOnce message remote)
    (handled : session.ipcBufferHandler message = some (sent, next)) :
    (next.task.holds message.localPort).receive = false := by
  let gone : Session → Prop := fun session =>
    (session.task.holds message.localPort).receive = false
  rcases ipcBufferHandler_cases handled with ⟨isRouted, _, _⟩ | ⟨relayed, deadName, routed, released,
    written, translated, isRouted, isReleased, isTranslated, _, rfl⟩
  · cases isRouted with
    | discard _ _ _ unlinkedOnce => simp [routes.linked] at unlinkedOnce
  · have routedGone : gone routed := by
      cases isRouted with
      | control isControl => exact (routes.notControl isControl).elim
      | unknownDeadName _ notified => exact (routes.notNotified notified).elim
      | deadName _ notified => exact (routes.notNotified notified).elim
      | notification _ notified => exact (routes.notNotified notified).elim
      | proxy _ _ linked => simp [routes.unlinked] at linked
      | sendOnce => exact Task.destroyReceive_receive ..
      | own _ _ _ unlinkedOnce => simp [routes.linked] at unlinkedOnce
      | raw _ _ _ unlinkedOnce => simp [routes.linked] at unlinkedOnce
    have releasedGone : gone released := by
      rcases releaseNoSenders_cases isReleased with ⟨_, rfl⟩ | ⟨_, _, rfl⟩
      · exact routedGone
      · exact Task.destroyReceive_receive ..
    have translatedGone : gone translated := by
      refine translateForTransmission_invariant gone ?_ ?_ releasedGone isTranslated
      · intro before port word after holds transmitted
        exact (receive_transmitSend transmitted _).trans holds
      · intro before port word after holds transmitted
        exact (receive_transmitReceive transmitted _).trans holds
    have forgottenGone : gone (translated.forgetDeadName deadName) := by
      rw [forgetDeadName]
      split_ifs <;> exact translatedGone
    exact forgottenGone

/--
`translatePort2` is called for a send-once right of the message, in the session `middle` that
the translations before it have led to.
-/
inductive ComesToOnce (session : Session) (wire : Message) (number : Port) : Session → Prop
  | body {translatePortNames : Bool} {place element : ℕ} {item : Item} {items : List Item}
      {ports : List Port} {reached middle : Session}
      (itemFound : wire.body[place]? = some item) (isOnce : item.name.isOnce = true)
      (found : item.ports[element]? = some number)
      (itemsBefore : Loop.traverse (translateItem translatePortNames) session
        (wire.body.take place) = some (items, reached))
      (portsBefore : Loop.traverse (fun session port => session.translatePort2 port item.name)
        reached (item.ports.take element) = some (ports, middle)) :
      ComesToOnce session wire number middle
  | reply {translatePortNames : Bool} {translated : Message} {middle : Session}
      (isOnce : wire.remoteType = some .moveSendOnce) (isReply : wire.remotePort = number)
      (bodyBefore : session.translateMessage wire translatePortNames = some (translated, middle)) :
      ComesToOnce session wire number middle

theorem count_onceNames_of_getElem? {items : List Item} {place : ℕ} {item : Item}
    (found : items[place]? = some item) (number : Port) :
    ((items.take place).flatMap Item.onceNames).count number + item.onceNames.count number ≤
      (items.flatMap Item.onceNames).count number := by
  rcases List.getElem?_eq_some_iff.mp found with ⟨inRange, isItem⟩
  have split : items = items.take place ++ item :: items.drop (place + 1) := by
    rw [← isItem, List.cons_getElem_drop_succ, List.take_append_drop]
  conv_rhs => rw [split]
  simp only [List.flatMap_append, List.flatMap_cons, List.count_append]
  omega

theorem count_onceNames_of_take {item : Item} {element : ℕ} {number : Port}
    (isOnce : item.name.isOnce = true) (something : ¬number.Nothing)
    (found : item.ports[element]? = some number) :
    (⟨item.name, item.ports.take element⟩ : Item).onceNames.count number + 1 ≤
      item.onceNames.count number := by
  rcases List.getElem?_eq_some_iff.mp found with ⟨inRange, isNumber⟩
  have split : item.ports = item.ports.take element ++ number :: item.ports.drop (element + 1) := by
    rw [← isNumber, List.cons_getElem_drop_succ, List.take_append_drop]
  simp only [Item.onceNames, isOnce, if_true]
  conv_rhs => rw [split]
  simp [List.filter_append, something]

/--
A send-once right that the translation comes to is not proxied yet, if there is one token of its
number only in the message and among the proxies.
-/
theorem ComesToOnce.unproxied {number : Port} {middle : Session}
    (comesTo : session.ComesToOnce wire number middle) (something : ¬number.Nothing)
    (single : wire.onceNames.count number +
      (session.names.sendOncePortsByRemote number).isSome.toNat ≤ 1) :
    middle.names.sendOncePortsByRemote number = none := by
  by_contra known
  have countProxied : session.names.sendOncePortsByRemote number ≠ none →
      (session.names.sendOncePortsByRemote number).isSome.toNat = 1 := by
    intro isProxied
    rw [Option.isSome_iff_ne_none.mpr isProxied, Bool.toNat_true]
  rw [Message.onceNames, List.count_append] at single
  cases comesTo with
  | body itemFound isOnce found itemsBefore portsBefore =>
      have countItems := count_onceNames_of_getElem? itemFound number
      have countPorts := count_onceNames_of_take isOnce something found
      rcases (once_translatePorts portsBefore).mp known with knownReached | isEarlier
      · rcases (once_translateItems itemsBefore).mp knownReached with isProxied | isEarlier
        · have proxied := countProxied isProxied
          omega
        · have earlier := List.count_pos_iff.mpr isEarlier
          omega
      · have earlier := List.count_pos_iff.mpr isEarlier
        omega
  | reply isOnce isReply bodyBefore =>
      rcases Option.bind_eq_some_iff.mp bodyBefore with ⟨⟨body, last⟩, traversed, ⟨⟩⟩
      have countReply : wire.onceReply.count number = 1 := by
        simp [Message.onceReply, isOnce, isReply, something]
      rcases (once_translateItems traversed).mp known with isProxied | isCarried
      · have proxied := countProxied isProxied
        omega
      · have carried := List.count_pos_iff.mpr isCarried
        omega

theorem onceLinked_ipcBufferHandler {sent : Option Message} (linked : session.names.OnceLinked)
    (handled : session.ipcBufferHandler message = some (sent, next)) : next.names.OnceLinked := by
  rcases once_ipcBufferHandler handled with ⟨sameByRemote, sameByLocal, _⟩ |
    ⟨remote, routes, byRemote, byLocal⟩
  · intro port remote
    rw [sameByRemote, sameByLocal]
    exact linked port remote
  · intro port otherRemote
    rw [byRemote, byLocal]
    exact linked.unlinkOnce routes.linked port otherRemote

theorem onceLinked_tcpBufferHandler {sent : Option Message} (linked : session.names.OnceLinked)
    (handled : session.tcpBufferHandler wire = some (sent, next)) : next.names.OnceLinked := by
  rcases tcpBufferHandler_cases handled with
    ⟨translated, middle, addressed, headed, isTranslated, isHeaded, _, rfl⟩
  have middleLinked : middle.names.OnceLinked :=
    translateMessage_invariant (fun session => session.names.OnceLinked)
      (fun holds done => holds.translates (translatePort2_cases done).1) linked isTranslated
  have ofSame : headed.names.sendOncePortsByRemote = middle.names.sendOncePortsByRemote ∧
      headed.names.sendOncePortsByLocal = middle.names.sendOncePortsByLocal →
      headed.names.OnceLinked := by
    rintro ⟨sameByRemote, sameByLocal⟩ port remote
    rw [sameByRemote, sameByLocal]
    exact middleLinked port remote
  have headedLinked : headed.names.OnceLinked := by
    cases (translateHeader_cases isHeaded).2 with
    | discard => exact middleLinked
    | noSenders _ _ handled => exact ofSame (once_handleNoSenders handled)
    | deadName _ _ _ _ handled => exact ofSame (once_handleDeadName handled)
    | noReply => exact middleLinked
    | reply _ _ _ _ _ done => exact middleLinked.translates (translatePort2_cases done).1
  exact headedLinked

/-- A message that is taken up on a send-once proxy takes the proxy with it. -/
theorem onceCount_ipcBufferHandler {sent : Option Message} (linked : session.names.OnceLinked)
    (handled : session.ipcBufferHandler message = some (sent, next)) (number : Port) :
    (next.names.sendOncePortsByRemote number).isSome.toNat +
        (session.onceRelayed message).toList.count number =
      (session.names.sendOncePortsByRemote number).isSome.toNat := by
  rcases once_ipcBufferHandler handled with ⟨sameByRemote, _, notRouted⟩ |
    ⟨remote, routes, byRemote, _⟩
  · have notRelayed : session.onceRelayed message = none := by
      rw [Option.eq_none_iff_forall_ne_some]
      intro remote isRelayed
      exact notRouted remote (onceRelayed_eq_some_iff.mp isRelayed)
    simp [sameByRemote, notRelayed]
  · rw [byRemote, onceRelayed_eq_some_iff.mpr routes, Names.unlinkOnce]
    by_cases same : number = remote
    · subst same
      simp [linked _ _ routes.linked]
    · simp [same, Ne.symm same]

/-- A message with one token of a number makes no second proxy for it. -/
theorem onceCount_tcpBufferHandler {sent : Option Message} {number : Port}
    (handled : session.tcpBufferHandler wire = some (sent, next))
    (single : wire.onceNames.count number +
      (session.names.sendOncePortsByRemote number).isSome.toNat ≤ 1) :
    (next.names.sendOncePortsByRemote number).isSome.toNat =
      (session.names.sendOncePortsByRemote number).isSome.toNat +
        (wire.onceTranslated sent).count number := by
  have fewer := wire.count_onceTranslated_le sent number
  have known : next.names.sendOncePortsByRemote number ≠ none ↔
      session.names.sendOncePortsByRemote number ≠ none ∨ number ∈ wire.onceTranslated sent :=
    once_tcpBufferHandler handled
  rw [← Option.isSome_iff_ne_none, ← Option.isSome_iff_ne_none, ← List.count_pos_iff] at known
  rcases Bool.eq_false_or_eq_true (next.names.sendOncePortsByRemote number).isSome with after | after <;>
    rcases Bool.eq_false_or_eq_true (session.names.sendOncePortsByRemote number).isSome with
      before | before <;>
    simp only [after, before, Bool.toNat_true, Bool.toNat_false, true_iff, false_iff, true_or,
      false_or, Bool.false_eq_true, not_lt, not_true_eq_false] at known single ⊢ <;>
    omega

end Session

end Hurd.Netmsg
