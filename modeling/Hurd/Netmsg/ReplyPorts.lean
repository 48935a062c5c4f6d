import Hurd.Netmsg.Consistent
import Hurd.Netmsg.Rights

/-!
# Reply ports and rights in the body

The receiver translates the reply port of a message as it translates a right in the body, but the
sender only goes through the body.  The number of a reply port goes out as it is, the send right is
not recorded, and a right that the receiver itself gave away comes back to it as a port of ours.
The two ways agree only for a right that is no proxy and that netmsg has recorded already.
-/

namespace Hurd.Netmsg

namespace Message

/-- A send right is passed as the reply port of a message. -/
def withReply (message : Message) (port : Port) : Message :=
  { message with remoteType := some .moveSend, remotePort := port }

/-- The same send right is passed as the last item of the body. -/
def withItem (message : Message) (port : Port) : Message :=
  { message with
    remoteType := none
    remotePort := machPortNull
    body := message.body ++ [⟨.moveSend, [port]⟩] }

end Message

/-- Whether a send right is recorded once another right to the port has been transmitted. -/
def TypeName.records (type : TypeName) (recorded : Bool) : Bool :=
  match type with
  | .moveSend => true
  | .moveReceive => false
  | .moveSendOnce => recorded
  | .copySend => recorded
  | .makeSend => recorded
  | .makeSendOnce => recorded
  | .portName => recorded
  | .data => recorded

def TypeName.recordsAt (type : TypeName) (port : Port) (recorded : Bool) (element : Port) : Bool :=
  if element = port then type.records recorded else recorded

/-- Whether a send right is recorded once the elements of an item have been transmitted. -/
def Item.records (port : Port) (recorded : Bool) (item : Item) : Bool :=
  item.ports.foldl (item.name.recordsAt port) recorded

/--
Whether a send right is recorded once a body has been transmitted: the last right to the port
decides, if there is one.
-/
def recordedAfter (port : Port) (recorded : Bool) (body : List Item) : Bool :=
  body.foldl (Item.records port) recorded

namespace Session

/-- A port is in `local_port_type` as a send right, and its DEAD NAME notification is asked for. -/
def recorded (session : Session) (port : Port) : Bool :=
  decide (session.names.localPortType port = some .send) &&
    (session.task.holds port).deadNameRequest

/-- The state in which the rights of a message are translated for transmission. -/
def Translating (session : Session) (message : Message) (translating : Session) : Prop :=
  ∃ relayed deadName routed, session.route message = some (.relay relayed deadName routed) ∧
    routed.releaseNoSenders relayed.id message.localPort = some translating

/--
A send right that a message brings to `a` is sent to `b` in the same way as a reply port and as
an item of the body.
-/
inductive Alike (a b : Session) (message : Message) (port : Port) : Prop
  | intro {sentReply sentItem : Message} {afterReply afterItem : Session}
      (reply : a.ipcBufferHandler (message.withReply port) = some (some sentReply, afterReply))
      (item : a.ipcBufferHandler (message.withItem port) = some (some sentItem, afterItem))
      (names : afterItem.names = afterReply.names)
      (holds : afterItem.task.holds = afterReply.task.holds)
      (number : sentItem.body = sentReply.body ++ [⟨.moveSend, [sentReply.remotePort]⟩])
      (name : ∀ {gotReply gotItem : Message} {withReply withItem : Session},
        b.tcpBufferHandler sentReply = some (some gotReply, withReply) →
        b.tcpBufferHandler sentItem = some (some gotItem, withItem) →
        gotItem.body = gotReply.body ++ [⟨.moveSend, [gotReply.localPort]⟩])

variable {session next : Session} {message other : Message} {port word : Port}

/-- Where a message goes depends on its destination, its number and the name it may report. -/
theorem route_congr {relayed : Message} {deadName : Port} {routed : Session}
    (sameTranslate : other.remoteTranslate = message.remoteTranslate)
    (samePort : other.localPort = message.localPort) (sameId : other.id = message.id)
    (sameName : deadNameOf other = deadNameOf message)
    (isRouted : session.route message = some (.relay relayed deadName routed)) :
    session.route other = some (.relay
      { other with localPort := relayed.localPort, remoteTranslate := relayed.remoteTranslate }
      deadName routed) := by
  unfold route
  rw [samePort, sameId, sameName]
  cases route_cases isRouted with
  | control isControl => simp [isControl, sameTranslate]
  | unknownDeadName notControl notified isDeadName named untyped =>
      rw [if_neg notControl, if_pos notified, if_pos isDeadName, named]
      simp [untyped, sameTranslate]
  | deadName notControl notified isDeadName named typed =>
      rw [if_neg notControl, if_pos notified, if_pos isDeadName, named]
      simp [typed, sameTranslate]
  | notification notControl notified isOther =>
      rw [if_neg notControl, if_pos notified]
      rcases isOther with isOther | isOther
      · simp [isOther, sameTranslate, msgidDeadName, msgidPortDeleted]
      · simp [isOther, sameTranslate, msgidDeadName, msgidSendOnce]
  | proxy notControl notNotified linked typed =>
      simp [notControl, notNotified, linked, typed, sameTranslate]
  | sendOnce notControl notNotified unlinked linked =>
      simp [notControl, notNotified, unlinked, linked, sameTranslate]
  | own notControl notNotified unlinked unlinkedOnce typed =>
      simp [notControl, notNotified, unlinked, unlinkedOnce, typed]
  | @raw type notControl notNotified unlinked unlinkedOnce typed notReceive =>
      simp only [if_neg notControl, if_neg notNotified, unlinked, unlinkedOnce, typed]
      cases type with
      | receive => exact (notReceive rfl).elim
      | send => rw [← samePort, ← sameTranslate, ← sameId]
      | unset => rw [← samePort, ← sameTranslate, ← sameId]

/-- The body of a message is traversed in the state that the message was routed in. -/
theorem Translating.traversed {translating : Session} {sent : Option Message}
    (isTranslating : session.Translating message translating)
    (handled : session.ipcBufferHandler message = some (sent, next)) :
    ∃ relayed deadName routed body final,
      session.route message = some (.relay relayed deadName routed) ∧
      routed.releaseNoSenders message.id message.localPort = some translating ∧
      Loop.traverse (transmitItem (decide (deadName ≠ machPortNull))) translating message.body =
        some (body, final) := by
  rcases isTranslating with ⟨relayed, deadName, routed, isRouted, isReleased⟩
  have same : relayed.id = message.id ∧ relayed.body = message.body := by
    cases route_cases isRouted <;> exact ⟨rfl, rfl⟩
  simp only [ipcBufferHandler, isRouted, isReleased, Option.bind_eq_bind, Option.bind_some]
    at handled
  rcases Option.bind_eq_some_iff.mp handled with ⟨⟨written, translated⟩, isTranslated, _⟩
  rcases Option.bind_eq_some_iff.mp isTranslated with ⟨⟨body, final⟩, traversed, _⟩
  rw [same.1] at isReleased
  rw [same.2] at traversed
  exact ⟨relayed, deadName, routed, body, final, isRouted, isReleased, traversed⟩

theorem Translating.handled_iff {translating : Session} {relayed sent : Message} {deadName : Port}
    {routed : Session} (isRouted : session.route message = some (.relay relayed deadName routed))
    (isReleased : routed.releaseNoSenders message.id message.localPort = some translating)
    (sameTranslate : other.remoteTranslate = message.remoteTranslate)
    (samePort : other.localPort = message.localPort) (sameId : other.id = message.id)
    (sameName : deadNameOf other = deadNameOf message) :
    session.ipcBufferHandler other = some (some sent, next) ↔
      ∃ body final, Loop.traverse (transmitItem (decide (deadName ≠ machPortNull))) translating
          other.body = some (body, final) ∧
        sent = { other with
          localPort := relayed.localPort
          remoteTranslate := relayed.remoteTranslate
          body := body } ∧
        next = final.forgetDeadName deadName := by
  have otherRouted := route_congr sameTranslate samePort sameId sameName isRouted
  rw [← sameId, ← samePort] at isReleased
  simp only [ipcBufferHandler, otherRouted, isReleased, translateForTransmission,
    Option.bind_eq_bind, Option.bind_some]
  constructor
  · intro handled
    rcases Option.bind_eq_some_iff.mp handled with ⟨⟨written, translated⟩, isTranslated, ⟨⟩⟩
    rcases Option.bind_eq_some_iff.mp isTranslated with ⟨⟨body, final⟩, traversed, ⟨⟩⟩
    exact ⟨body, _, traversed, rfl, rfl⟩
  · rintro ⟨body, final, traversed, rfl, rfl⟩
    simp only [traversed, Option.bind_some]

/-- A send right to a port that is no proxy has arrived. -/
def OwnSend (session : Session) (port : Port) : Prop :=
  session.names.remotePortsByLocal port = none ∧ 0 < (session.task.holds port).send

theorem recorded_of_account {account : Account} (atPort : next.account port = account) :
    next.recorded port = (decide (account.type = some .send) && account.holding.deadNameRequest) := by
  rw [← atPort]
  rfl

theorem account_live (isOwn : session.OwnSend port) :
    (session.account port).holding.live = true := by
  simp [account, Holding.live, isOwn.2]

/-- What the transmission of one send right does to another that may be the same. -/
theorem recorded_transmitSend (something : ¬port.Nothing) {element : Port}
    (isOwn : session.OwnSend port)
    (transmitted : session.transmitSend element = some (word, next)) :
    next.OwnSend port ∧
      next.recorded port = TypeName.recordsAt .moveSend port (session.recorded port) element := by
  by_cases isNothing : element.Nothing
  · have isPort : element = machPortNull ∨ element = machPortDead := isNothing
    have different : element ≠ port := fun same => something (same ▸ isNothing)
    rw [transmitSend, if_pos isPort] at transmitted
    cases transmitted
    exact ⟨isOwn, (if_neg different).symm⟩
  · rcases account_transmitSend isNothing transmitted with ⟨account, changed, becomes⟩
    have atPort := becomes port
    unfold TypeName.recordsAt
    split_ifs with same
    · subst same
      rw [if_pos rfl] at atPort
      cases changed with
      | proxySend linked => simp [Session.account, isOwn.1] at linked
      | ownSend =>
          have live := account_live isOwn
          refine ⟨⟨congrArg Account.remote atPort |>.trans isOwn.1, ?_⟩, ?_⟩
          · have held := congrArg (fun account => account.holding.send) atPort
            simp only [Holding.askDeadName, live, if_true] at held
            exact held ▸ isOwn.2
          · rw [recorded_of_account atPort]
            simp [Holding.askDeadName, live, TypeName.records]
    · rw [if_neg (Ne.symm same)] at atPort
      refine ⟨⟨congrArg Account.remote atPort |>.trans isOwn.1, ?_⟩, recorded_of_account atPort⟩
      exact congrArg (fun account => account.holding.send) atPort ▸ isOwn.2

theorem recorded_transmitReceive (something : ¬port.Nothing) {element : Port}
    (isOwn : session.OwnSend port)
    (transmitted : session.transmitReceive element = some (word, next)) :
    next.OwnSend port ∧
      next.recorded port = TypeName.recordsAt .moveReceive port (session.recorded port) element := by
  by_cases isNothing : element.Nothing
  · have isPort : element = machPortNull ∨ element = machPortDead := isNothing
    have different : element ≠ port := fun same => something (same ▸ isNothing)
    rw [transmitReceive, if_pos isPort] at transmitted
    cases transmitted
    exact ⟨isOwn, (if_neg different).symm⟩
  · rcases account_transmitReceive isNothing transmitted with ⟨account, changed, becomes⟩
    have atPort := becomes port
    unfold TypeName.recordsAt
    split_ifs with same
    · subst same
      rw [if_pos rfl] at atPort
      cases changed with
      | proxyReceive linked => simp [Session.account, isOwn.1] at linked
      | ownReceive =>
          refine ⟨⟨congrArg Account.remote atPort |>.trans isOwn.1, ?_⟩, ?_⟩
          · exact congrArg (fun account => account.holding.send) atPort ▸ isOwn.2
          · rw [recorded_of_account atPort]
            simp [TypeName.records]
    · rw [if_neg (Ne.symm same)] at atPort
      refine ⟨⟨congrArg Account.remote atPort |>.trans isOwn.1, ?_⟩, recorded_of_account atPort⟩
      exact congrArg (fun account => account.holding.send) atPort ▸ isOwn.2

theorem Item.records_of_kept {item : Item} {recorded : Bool} (port : Port)
    (kept : ∀ recorded, item.name.records recorded = recorded) :
    item.records port recorded = recorded := by
  unfold Item.records
  induction item.ports with
  | nil => rfl
  | cons other rest ih => simpa [TypeName.recordsAt, kept] using ih

theorem recorded_transmitItem (something : ¬port.Nothing) {translatePortNames : Bool}
    {item replaced : Item} (isOwn : session.OwnSend port)
    (transmitted : transmitItem translatePortNames session item = some (replaced, next)) :
    next.OwnSend port ∧ next.recorded port = item.records port (session.recorded port) := by
  unfold transmitItem at transmitted
  split at transmitted
  · rename_i isSend
    rcases Option.bind_eq_some_iff.mp transmitted with ⟨⟨ports, _⟩, traversed, ⟨⟩⟩
    simp only [Item.records, isSend]
    exact Loop.traverse_foldl (fun session => session.OwnSend port) (fun session => session.recorded port)
      (TypeName.recordsAt .moveSend port)
      (fun isOwn transmitted => recorded_transmitSend something isOwn transmitted) isOwn traversed
  · rename_i isReceive
    rcases Option.bind_eq_some_iff.mp transmitted with ⟨⟨ports, _⟩, traversed, ⟨⟩⟩
    simp only [Item.records, isReceive]
    exact Loop.traverse_foldl (fun session => session.OwnSend port) (fun session => session.recorded port)
      (TypeName.recordsAt .moveReceive port)
      (fun isOwn transmitted => recorded_transmitReceive something isOwn transmitted) isOwn traversed
  all_goals
    rename_i named
    cases transmitted
    refine ⟨isOwn, (Item.records_of_kept port ?_).symm⟩
    simp [named, TypeName.records]

/-- What the transmission of a body leaves recorded of a send right that is no proxy. -/
theorem recorded_traverse (something : ¬port.Nothing) {translatePortNames : Bool}
    {body replaced : List Item} (isOwn : session.OwnSend port)
    (traversed : Loop.traverse (transmitItem translatePortNames) session body =
      some (replaced, next)) :
    next.OwnSend port ∧ next.recorded port = recordedAfter port (session.recorded port) body :=
  Loop.traverse_foldl (fun session => session.OwnSend port) (fun session => session.recorded port)
    (Item.records port)
    (fun isOwn transmitted => recorded_transmitItem something isOwn transmitted) isOwn traversed

theorem Heads.same_body {addressed : Message} (headed : Heads session message (some addressed) next) :
    addressed.body = message.body := by
  cases headed with
  | noReply found => exact found.same.2.1
  | reply found => exact found.same.2.1

/-- The receiver gives the same number the same name in both places. -/
theorem sameName_of_sameNumber {b withReply withItem : Session}
    {sentReply sentItem gotReply gotItem : Message}
    (reply : b.tcpBufferHandler sentReply = some (some gotReply, withReply))
    (item : b.tcpBufferHandler sentItem = some (some gotItem, withItem))
    (samePort : sentItem.localPort = sentReply.localPort) (sameId : sentItem.id = sentReply.id)
    (isSend : sentReply.remoteType = some .moveSend)
    (number : sentItem.body = sentReply.body ++ [⟨.moveSend, [sentReply.remotePort]⟩]) :
    gotItem.body = gotReply.body ++ [⟨.moveSend, [gotReply.localPort]⟩] := by
  rcases tcpBufferHandler_cases reply with
    ⟨translated, middle, addressed, headed, isTranslated, isHeaded, isSent, _⟩
  rcases tcpBufferHandler_cases item with
    ⟨itemTranslated, _, itemAddressed, itemHeaded, itemIsTranslated, itemIsHeaded, itemIsSent, _⟩
  rcases Option.map_eq_some_iff.mp isSent.symm with ⟨addressed, rfl, rfl⟩
  rcases Option.map_eq_some_iff.mp itemIsSent.symm with ⟨itemAddressed, rfl, rfl⟩
  rw [samePort, sameId] at itemIsTranslated
  rcases Option.bind_eq_some_iff.mp isTranslated with ⟨⟨body, _⟩, traversed, ⟨⟩⟩
  rcases Option.bind_eq_some_iff.mp itemIsTranslated with ⟨⟨itemBody, _⟩, itemTraversed, ⟨⟩⟩
  rw [number] at itemTraversed
  rcases Loop.traverse_concat_iff.mp itemTraversed with
    ⟨others, before, result, othersTraversed, lastTranslated, rfl⟩
  rw [traversed] at othersTraversed
  cases othersTraversed
  have itemHeads := (translateHeader_cases itemIsHeaded).2.same_body
  cases (translateHeader_cases isHeaded).2 with
  | noReply _ _ _ noReply => simp [isSend] at noReply
  | @reply addressed type port _ found _ _ replyType _ replyTranslated =>
      have isMoveSend : type = .moveSend := by simpa [isSend] using replyType.symm
      subst isMoveSend
      rcases Option.bind_eq_some_iff.mp lastTranslated with ⟨⟨ports, _⟩, portTraversed, ⟨⟩⟩
      rcases Loop.traverse_cons_iff.mp portTraversed with ⟨name, _, rest, named, atEnd, rfl⟩
      rcases Loop.traverse_nil_iff.mp atEnd with ⟨rfl, rfl⟩
      have replyNamed : middle.translatePort2 sentReply.remotePort .moveSend =
          some (port, headed) := replyTranslated
      rw [replyNamed] at named
      cases named
      have replyBody : addressed.body = body := found.same.2.1
      simp only [swapHeader, itemHeads, replyBody]

@[simp]
theorem forgetDeadName_holds (session : Session) (deadName : Port) :
    (session.forgetDeadName deadName).task = session.task := by
  unfold forgetDeadName
  split_ifs <;> rfl

theorem forgetDeadName_type (session : Session) (deadName : Port) :
    (session.forgetDeadName deadName).names.localPortType = session.names.localPortType := by
  unfold forgetDeadName Names.unlinkIfLinked
  split_ifs <;> rfl

theorem forgetDeadName_congr (same : next.names = session.names) (deadName : Port) :
    (next.forgetDeadName deadName).names = (session.forgetDeadName deadName).names := by
  unfold forgetDeadName
  split_ifs
  · simp only [same]
  · exact same

/-- A send right that is recorded already may be transmitted without any effect. -/
theorem transmitSend_of_recorded (something : ¬port.Nothing) (isOwn : session.OwnSend port)
    (isRecorded : session.recorded port = true) :
    ∃ after, session.transmitSend port = some (port, after) ∧ after.names = session.names ∧
      after.task.holds = session.task.holds := by
  have isPort : ¬(port = machPortNull ∨ port = machPortDead) := something
  have transmitted : ∃ after, session.transmitSend port = some (port, after) ∧
      after.names = session.names.setType port .send := by
    unfold transmitSend
    rw [if_neg isPort, isOwn.1]
    exact ⟨_, rfl, rfl⟩
  rcases transmitted with ⟨after, transmitted, namesEq⟩
  simp only [recorded, Bool.and_eq_true, decide_eq_true_eq] at isRecorded
  refine ⟨after, transmitted, ?_, ?_⟩
  · rw [namesEq, Names.setType, ← isRecorded.1, Function.update_eq_self]
  · rcases account_transmitSend something transmitted with ⟨account, changed, becomes⟩
    funext other
    have atOther := congrArg Account.holding (becomes other)
    split_ifs at atOther with same
    · subst same
      cases changed with
      | proxySend linked => simp [Session.account, isOwn.1] at linked
      | ownSend =>
          have asked : (session.account other).holding.deadNameRequest = true := isRecorded.2
          rw [Holding.askDeadName, if_pos (account_live isOwn), ← asked] at atOther
          exact atOther
    · exact atOther

/-- A send right that leaves no trace as an item is no proxy, and is recorded already. -/
theorem recorded_of_transmitSend (something : ¬port.Nothing) (unflagged : port.flagged = false)
    (remotes : ∀ remote, session.names.remotePortsByLocal port = some remote →
      remote.flagged = false)
    (arrived : session.names.remotePortsByLocal port = none → 0 < (session.task.holds port).send)
    (transmitted : session.transmitSend port = some (port, next))
    (sameType : next.names.localPortType = session.names.localPortType)
    (sameHolds : next.task.holds = session.task.holds) :
    session.names.remotePortsByLocal port = none ∧ session.recorded port = true := by
  have unlinked : session.names.remotePortsByLocal port = none := by
    by_contra isLinked
    rcases Option.ne_none_iff_exists'.mp isLinked with ⟨remote, linked⟩
    have isPort : ¬(port = machPortNull ∨ port = machPortDead) := something
    unfold transmitSend at transmitted
    rw [if_neg isPort, linked] at transmitted
    rcases Option.bind_eq_some_iff.mp transmitted with ⟨_, _, isSent⟩
    have isWord : ~~~remote = port := (Prod.mk.inj (Option.some.inj isSent)).1
    have flagged := Port.flagged_not_of_not_flagged (remotes remote linked)
    rw [isWord, unflagged] at flagged
    cases flagged
  refine ⟨unlinked, ?_⟩
  rcases recorded_transmitSend something ⟨unlinked, arrived unlinked⟩ transmitted with ⟨_, isRecorded⟩
  have same : next.recorded port = session.recorded port := by
    simp only [recorded, sameType, sameHolds]
  rw [← same, isRecorded, TypeName.recordsAt, if_pos rfl, TypeName.records]

theorem traverse_links {translatePortNames : Bool} {body replaced : List Item}
    (traversed : Loop.traverse (transmitItem translatePortNames) session body =
      some (replaced, next)) :
    next.names.remotePortsByLocal = session.names.remotePortsByLocal := by
  have translated : session.translateForTransmission { localPort := machPortNull, body := body }
      translatePortNames = some ({ localPort := machPortNull, body := replaced }, next) := by
    simp [translateForTransmission, traversed]
  refine translateForTransmission_invariant
    (fun next => next.names.remotePortsByLocal = session.names.remotePortsByLocal) ?_ ?_ rfl
    translated
  · intro before port word after same transmitted
    exact (transmitSend_cases transmitted).1.sameLinks.1.trans same
  · intro before port word after same transmitted
    exact (transmitReceive_cases transmitted).1.sameLinks.1.trans same

/-- The last item of a message goes out in the state that its body has led to. -/
theorem traverse_withItem_iff {translatePortNames : Bool} {final : Session}
    {body itemBody : List Item}
    (traversed : Loop.traverse (transmitItem translatePortNames) session message.body =
      some (body, final)) :
    Loop.traverse (transmitItem translatePortNames) session (message.withItem port).body =
        some (itemBody, next) ↔
      ∃ word, final.transmitSend port = some (word, next) ∧
        itemBody = body ++ [⟨.moveSend, [word]⟩] := by
  constructor
  · intro itemTraversed
    rcases Loop.traverse_concat_iff.mp itemTraversed with
      ⟨others, middle, result, othersTraversed, lastTransmitted, rfl⟩
    rw [traversed] at othersTraversed
    cases othersTraversed
    rcases Option.bind_eq_some_iff.mp lastTransmitted with ⟨⟨ports, _⟩, portTraversed, ⟨⟩⟩
    rcases Loop.traverse_cons_iff.mp portTraversed with ⟨word, _, rest, transmitted, atEnd, rfl⟩
    rcases Loop.traverse_nil_iff.mp atEnd with ⟨rfl, rfl⟩
    exact ⟨word, transmitted, rfl⟩
  · rintro ⟨word, transmitted, rfl⟩
    refine Loop.traverse_concat_iff.mpr ⟨body, final, _, traversed, ?_, rfl⟩
    have portTraversed : Loop.traverse transmitSend final [port] = some ([word], next) :=
      Loop.traverse_cons_iff.mpr ⟨word, next, [], transmitted, rfl, rfl⟩
    simp [transmitItem, portTraversed]

theorem deadNameOf_withItem (message : Message) (port : Port) :
    deadNameOf (message.withItem port) = deadNameOf message := by
  unfold deadNameOf Message.withItem
  rcases message.body with _ | ⟨⟨name, ports⟩, rest⟩
  · rfl
  · rcases ports with _ | ⟨first, _ | ⟨second, others⟩⟩ <;> cases name <;> rfl

/-- As a reply port the right goes out as it is, after the body. -/
theorem withReply_handled_iff {translating final : Session} {relayed sent : Message}
    {deadName : Port} {routed : Session} {body : List Item}
    (isRouted : session.route message = some (.relay relayed deadName routed))
    (isReleased : routed.releaseNoSenders message.id message.localPort = some translating)
    (traversed : Loop.traverse (transmitItem (decide (deadName ≠ machPortNull))) translating
      message.body = some (body, final)) :
    session.ipcBufferHandler (message.withReply port) = some (some sent, next) ↔
      sent = { message.withReply port with
        localPort := relayed.localPort
        remoteTranslate := relayed.remoteTranslate
        body := body } ∧ next = final.forgetDeadName deadName := by
  have handled := @Translating.handled_iff session next message (message.withReply port) translating
    relayed sent deadName routed isRouted isReleased rfl rfl rfl rfl
  have replyTraversed : Loop.traverse (transmitItem (decide (deadName ≠ machPortNull))) translating
    (message.withReply port).body = some (body, final) := traversed
  rw [handled]
  constructor
  · rintro ⟨_, _, otherTraversed, rfl, rfl⟩
    rw [replyTraversed] at otherTraversed
    cases otherTraversed
    exact ⟨rfl, rfl⟩
  · rintro ⟨rfl, rfl⟩
    exact ⟨body, final, traversed, rfl, rfl⟩

/-- As an item the right is translated like the rest of the body. -/
theorem withItem_handled_iff {translating final : Session} {relayed sent : Message}
    {deadName : Port} {routed : Session} {body : List Item}
    (isRouted : session.route message = some (.relay relayed deadName routed))
    (isReleased : routed.releaseNoSenders message.id message.localPort = some translating)
    (traversed : Loop.traverse (transmitItem (decide (deadName ≠ machPortNull))) translating
      message.body = some (body, final)) :
    session.ipcBufferHandler (message.withItem port) = some (some sent, next) ↔
      ∃ word after, final.transmitSend port = some (word, after) ∧
        sent = { message.withItem port with
          localPort := relayed.localPort
          remoteTranslate := relayed.remoteTranslate
          body := body ++ [⟨.moveSend, [word]⟩] } ∧ next = after.forgetDeadName deadName := by
  have handled := @Translating.handled_iff session next message (message.withItem port) translating
    relayed sent deadName routed isRouted isReleased rfl rfl rfl (deadNameOf_withItem message port)
  rw [handled]
  constructor
  · rintro ⟨_, after, itemTraversed, rfl, rfl⟩
    rcases (traverse_withItem_iff traversed).mp itemTraversed with ⟨word, transmitted, rfl⟩
    exact ⟨word, after, transmitted, rfl, rfl⟩
  · rintro ⟨word, after, transmitted, rfl, rfl⟩
    exact ⟨_, after, (traverse_withItem_iff traversed).mpr ⟨word, transmitted, rfl⟩, rfl, rfl⟩

/-- Nothing becomes a proxy before the rights of a message are translated. -/
theorem Translating.linked {translating : Session} {remote : Port}
    (isTranslating : session.Translating message translating)
    (linked : translating.names.remotePortsByLocal port = some remote) :
    session.names.remotePortsByLocal port = some remote := by
  rcases isTranslating with ⟨relayed, deadName, routed, isRouted, isReleased⟩
  have routedLinked : routed.names.remotePortsByLocal port = some remote := by
    rcases releaseNoSenders_cases isReleased with ⟨_, rfl⟩ | ⟨_, _, rfl⟩
    · exact linked
    · by_cases same : port = message.localPort
      · simp [Names.unlink, same] at linked
      · simpa [Names.unlink, Names.eraseType, Function.update_of_ne same] using linked
  cases route_cases isRouted <;> exact routedLinked

/-- When a send right is passed alike as a reply port and as an item of the body. -/
theorem alike_iff {start session a b translating next : Session} {message sent : Message}
    {port : Port} (created : Created start)
    (reached : Transition.Reachable call (fun session call => session.HandsOutNewNames call.task)
      start session)
    (sameNames : a.names = session.names)
    (passes : a.ipcBufferHandler message = some (some sent, next))
    (isTranslating : a.Translating message translating)
    (arrived : 0 < (translating.task.holds port).send) (notNull : port ≠ machPortNull)
    (unflagged : port.flagged = false) :
    Alike a b message port ↔ translating.names.remotePortsByLocal port = none ∧
      recordedAfter port (translating.recorded port) message.body = true := by
  have something := Port.something_of_not_flagged unflagged notNull
  have isConsistent : a.names.Consistent := sameNames ▸ consistent_of_reachable created reached
  have remotes : ∀ remote, translating.names.remotePortsByLocal port = some remote →
      remote.flagged = false := by
    intro remote linked
    have known := (isConsistent.inverse remote port).mpr (isTranslating.linked linked)
    exact (isConsistent.remote remote (by simp [known])).2
  rcases isTranslating.traversed passes with
    ⟨relayed, deadName, routed, body, final, isRouted, isReleased, traversed⟩
  have sameLinks := traverse_links traversed
  constructor
  · rintro ⟨reply, item, names, holds, number, _⟩
    rcases (withReply_handled_iff isRouted isReleased traversed).mp reply with ⟨rfl, rfl⟩
    rcases (withItem_handled_iff isRouted isReleased traversed).mp item with
      ⟨word, after, transmitted, rfl, rfl⟩
    have sameNumber : word = port := by simpa [Message.withReply] using number
    subst sameNumber
    have sameType : after.names.localPortType = final.names.localPortType := by
      rw [← forgetDeadName_type after deadName, names, forgetDeadName_type]
    have sameHolds : after.task.holds = final.task.holds := by simpa using holds
    have ownAtEnd : translating.names.remotePortsByLocal word = none → final.OwnSend word ∧
        final.recorded word = recordedAfter word (translating.recorded word) message.body :=
      fun unlinked => recorded_traverse something ⟨unlinked, arrived⟩ traversed
    rw [← sameLinks] at remotes ownAtEnd ⊢
    rcases recorded_of_transmitSend something unflagged remotes
      (fun unlinked => (ownAtEnd unlinked).1.2) transmitted sameType sameHolds with
      ⟨unlinked, isRecorded⟩
    exact ⟨unlinked, (ownAtEnd unlinked).2 ▸ isRecorded⟩
  · rintro ⟨unlinked, isRecorded⟩
    have isOwn : translating.OwnSend port := ⟨unlinked, arrived⟩
    rcases recorded_traverse something isOwn traversed with ⟨finalOwn, finalRecorded⟩
    rcases transmitSend_of_recorded something finalOwn (finalRecorded.trans isRecorded) with
      ⟨after, transmitted, afterNames, afterHolds⟩
    refine .intro ((withReply_handled_iff isRouted isReleased traversed).mpr ⟨rfl, rfl⟩)
      ((withItem_handled_iff isRouted isReleased traversed).mpr ⟨port, after, transmitted, rfl, rfl⟩)
      (forgetDeadName_congr afterNames deadName) ?_ rfl ?_
    · simpa using afterHolds
    · intro gotReply gotItem withReply withItem reply item
      exact sameName_of_sameNumber reply item rfl rfl rfl rfl

/-- A task that holds the rights of one name, and nothing else. -/
def holding (port : Port) (held : Holding) (fresh : List Port) : Task :=
  { holds := fun name => if name = port then held else {}, fresh := fresh }

/-- A translator that has sent a send right over the network, and gets it once more. -/
def recordedSend : Session :=
  { client 1 2 (holding 7 { send := 2, deadNameRequest := true } []) with
    names := ({} : Names).setType 7 .send }

theorem recordedSend_alike : Alike recordedSend (server 9 3 (holding 9 { send := 1 } [200]))
    { localPort := 1 } 7 := by
  have ran : ∃ session, Transition.run call
      [.ipc (holding 7 { send := 1 } []) { localPort := 1, body := [⟨.moveSend, [7]⟩] }]
      (client 1 2 (holding 7 {} [])) = some session ∧ recordedSend.names = session.names :=
    ⟨_, rfl, rfl⟩
  rcases ran with ⟨session, ran, sameNames⟩
  have reached : Transition.Reachable call (fun session call => session.HandsOutNewNames call.task)
      (client 1 2 (holding 7 {} [])) session := by
    refine Transition.Reachable.start.of_run _ ?_ ran
    exact ⟨⟨List.nodup_nil, nofun⟩, fun _ _ => trivial⟩
  have isTranslating : recordedSend.Translating { localPort := 1 } recordedSend :=
    ⟨_, _, _, rfl, rfl⟩
  have arrived : 0 < (recordedSend.task.holds 7).send := by decide
  refine (alike_iff (.client 1 2 _) reached sameNames rfl isTranslating arrived (by decide)
    (by decide)).mpr ⟨rfl, rfl⟩

/-- A translator that has a proxy for a port of the other side, and gets a send right to it. -/
def proxiedSend : Session :=
  { client 1 2 (holding 100 { receive := true, send := 1, noSendersRequest := true } []) with
    names := ({} : Names).link 5 100 .receive }

/-- The proxy goes back as a port of ours, and not as the port that the other side gave away. -/
theorem proxiedSend_not_alike :
    (∃ session, Transition.run call
        [.tcp (holding 7 {} [100]) { localPort := 7, body := [⟨.moveSend, [5]⟩] }]
        (client 1 2 (holding 7 {} [])) = some session ∧ proxiedSend.names = session.names) ∧
      0 < (proxiedSend.task.holds 100).send ∧
      ¬Alike proxiedSend { server 9 3 (holding 5 { send := 1 } [200]) with
        names := ({} : Names).setType 5 .send } { localPort := 1 } 100 := by
  refine ⟨⟨_, rfl, rfl⟩, by decide, ?_⟩
  rintro ⟨reply, item, _, _, number, _⟩
  cases reply
  cases item
  revert number
  decide

end Session

end Hurd.Netmsg
