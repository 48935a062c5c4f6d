import Hurd.Netmsg.Delivery

/-!
# Port names round-trip

A session sends the name of one of its own ports as it is, and the complement of the remote name
for a proxy.  The other end makes a proxy of the first and takes the complement of the second,
so a name that goes out and comes back is the same again.  DEAD NAME notifications name ports in
the same two ways.
-/

namespace Hurd.Netmsg

/-- How a session writes the name of a port on the network. -/
def Names.encode (names : Names) (port : Port) : Port :=
  match names.remotePortsByLocal port with
  | some remote => ~~~remote
  | none => port

namespace Names

variable {names next : Names} {port word : Port} {type : TypeName}

theorem Transmits.encoded (something : ¬port.Nothing)
    (transmitted : names.Transmits type port word next) : word = names.encode port := by
  cases transmitted with
  | nothing isNothing => exact (something isNothing).elim
  | proxySend _ linked => simp [encode, linked]
  | ownSend _ unlinked => simp [encode, unlinked]
  | proxyReceive _ linked => simp [encode, linked]
  | ownReceive _ unlinked => simp [encode, unlinked]

/-- A right that is received for a remote name has the proxy of that name. -/
theorem Translates.linked {fresh rest : List Port} (isRight : type = .moveSend ∨ type = .moveReceive)
    (something : ¬port.Nothing) (unflagged : port.flagged = false)
    (translated : names.Translates fresh type port word next rest) :
    next.localPortsByRemote port = some word := by
  cases translated with
  | nothing isNothing => exact (something isNothing).elim
  | returnedSend _ flagged =>
      rw [unflagged] at flagged
      cases flagged
  | returnedReceive _ flagged =>
      rw [unflagged] at flagged
      cases flagged
  | returnedName => simp at isRight
  | knownReceive _ _ known => exact known
  | newReceive => simp [Names.link]
  | knownSend _ _ _ known => exact known
  | newSend => simp [Names.link]
  | sendOnce _ _ isOnce =>
      rcases isOnce with rfl | rfl <;> simp at isRight
  | name => simp at isRight

/-- A port name is looked up. -/
theorem Translates.named {fresh rest : List Port}
    (translated : names.Translates fresh .portName port word next rest) (something : ¬port.Nothing)
    (unflagged : port.flagged = false) :
    word = (names.localPortsByRemote port).getD machPortNull ∧ next = names := by
  cases translated with
  | nothing isNothing => exact (something isNothing).elim
  | returnedName _ flagged => simp [unflagged] at flagged
  | knownSend _ _ isSend => simp at isSend
  | newSend _ _ isSend => simp at isSend
  | sendOnce _ _ isOnce => simp at isOnce
  | name => exact ⟨rfl, rfl⟩

/-- A number in our own name space is our own name for the port. -/
theorem Translates.returned {fresh rest : List Port} (something : ¬port.Nothing)
    (flagged : port.flagged = true) (translated : names.Translates fresh type port word next rest) :
    word = ~~~port := by
  cases translated with
  | nothing isNothing => exact (something isNothing).elim
  | returnedSend => rfl
  | returnedReceive => rfl
  | returnedName => rfl
  | knownReceive _ unflagged => simp [flagged] at unflagged
  | newReceive _ unflagged => simp [flagged] at unflagged
  | knownSend _ unflagged => simp [flagged] at unflagged
  | newSend _ unflagged => simp [flagged] at unflagged
  | sendOnce _ unflagged => simp [flagged] at unflagged
  | name _ unflagged => simp [flagged] at unflagged

end Names

theorem Message.rightAt_eq_some {message : Message} {place element : ℕ} {type : TypeName}
    {port : Port} :
    message.rightAt place element = some (type, port) ↔
      ∃ item, message.body[place]? = some item ∧ item.name = type ∧
        item.ports[element]? = some port := by
  unfold Message.rightAt
  constructor
  · intro found
    rcases Option.bind_eq_some_iff.mp found with ⟨item, itemFound, found⟩
    rcases Option.bind_eq_some_iff.mp found with ⟨other, portFound, ⟨⟩⟩
    exact ⟨item, itemFound, rfl, portFound⟩
  · rintro ⟨item, itemFound, rfl, portFound⟩
    simp [itemFound, portFound]

namespace Session

/-- The two sessions have the same proxies. -/
def SameLinks (session next : Session) : Prop :=
  next.names.remotePortsByLocal = session.names.remotePortsByLocal ∧
    next.names.localPortsByRemote = session.names.localPortsByRemote

theorem SameLinks.refl (session : Session) : SameLinks session session := ⟨rfl, rfl⟩

theorem SameLinks.trans {session middle next : Session} (first : SameLinks session middle)
    (second : SameLinks middle next) : SameLinks session next :=
  ⟨second.1.trans first.1, second.2.trans first.2⟩

/-- Every proxy that the first session has, the second has too. -/
def KeepsLinks (session next : Session) : Prop :=
  ∀ remote known, session.names.localPortsByRemote remote = some known →
    next.names.localPortsByRemote remote = some known

variable {session next : Session} {message sent : Message} {place element : ℕ} {type : TypeName}
  {port : Port}

theorem sameLinks_transmitItem {translatePortNames : Bool} {item replaced : Item}
    (transmitted : transmitItem translatePortNames session item = some (replaced, next)) :
    SameLinks session next := by
  rcases transmitItem_cases transmitted with ⟨rfl, _⟩ | ⟨pass, ports, transmits, portsDone, _⟩
  · exact .refl next
  · refine Loop.traverse_invariant (SameLinks session) ?_ (.refl session) portsDone
    intro _ _ before word after holds done
    exact holds.trans (transmits done).sameLinks

theorem sameLinks_translateForTransmission {translatePortNames : Bool}
    (translated : session.translateForTransmission message translatePortNames = some (sent, next)) :
    SameLinks session next := by
  rcases Option.bind_eq_some_iff.mp translated with ⟨⟨body, last⟩, traversed, ⟨⟩⟩
  refine Loop.traverse_invariant (SameLinks session) ?_ (.refl session) traversed
  intro _ _ before item after holds done
  exact holds.trans (sameLinks_transmitItem done)

/-- A right in a body is written on the network as its session encodes it. -/
theorem rightAt_translateForTransmission (isRight : type = .moveSend ∨ type = .moveReceive)
    (something : ¬port.Nothing) (right : message.rightAt place element = some (type, port))
    (translated : session.translateForTransmission message false = some (sent, next)) :
    sent.rightAt place element = some (type, session.names.encode port) := by
  rcases Message.rightAt_eq_some.mp right with ⟨item, itemFound, rfl, portFound⟩
  rcases Option.bind_eq_some_iff.mp translated with ⟨⟨body, last⟩, traversed, ⟨⟩⟩
  rcases Loop.traverse_at SameLinks .refl .trans sameLinks_transmitItem traversed itemFound with
    ⟨before, after, replaced, reached, itemDone, _, atPlace⟩
  refine Message.rightAt_eq_some.mpr ⟨replaced, atPlace, ?_⟩
  have encodes : ∀ {middle : Session}, SameLinks before middle →
      middle.names.encode port = session.names.encode port := by
    intro middle goesOn
    simp only [Names.encode, goesOn.1, reached.1]
  rcases transmitItem_cases itemDone with
    ⟨_, isSame⟩ | ⟨pass, ports, transmits, portsDone, isItem⟩
  · rcases isSame rfl with ⟨_, notSend, notReceive⟩
    exact (isRight.elim notSend notReceive).elim
  · rcases Loop.traverse_at SameLinks .refl .trans (fun done => (transmits done).sameLinks)
        portsDone portFound with ⟨middle, _, word, goesOn, done, _, atElement⟩
    cases isItem rfl
    refine ⟨rfl, ?_⟩
    rw [← encodes goesOn, ← (transmits done).encoded something]
    exact atElement

theorem KeepsLinks.refl (session : Session) : KeepsLinks session session :=
  fun _ _ => id

theorem KeepsLinks.trans {session middle next : Session} (first : KeepsLinks session middle)
    (second : KeepsLinks middle next) : KeepsLinks session next :=
  fun remote known linked => second remote known (first remote known linked)

theorem keepsLinks_translatePort2 {word : Port}
    (translated : session.translatePort2 port type = some (word, next)) :
    KeepsLinks session next :=
  fun _ _ => (translatePort2_cases translated).1.keeps

theorem keepsLinks_translateItem {translatePortNames : Bool} {item replaced : Item}
    (translated : translateItem translatePortNames session item = some (replaced, next)) :
    KeepsLinks session next := by
  rcases translateItem_cases translated with ⟨_, _, rfl⟩ | ⟨ports, portsDone, _⟩
  · exact .refl _
  · refine Loop.traverse_invariant (KeepsLinks session) ?_ (.refl session) portsDone
    intro _ _ before word after holds done
    exact holds.trans (keepsLinks_translatePort2 done)

theorem keepsLinks_translateMessage {translatePortNames : Bool}
    (translated : session.translateMessage message translatePortNames = some (sent, next)) :
    KeepsLinks session next :=
  translateMessage_invariant (KeepsLinks session)
    (fun holds done => holds.trans (keepsLinks_translatePort2 done)) (.refl session) translated

/-- A number in a body is replaced by what `translatePort2` makes of it at some point. -/
theorem rightAt_translateMessage {translatePortNames : Bool} {word : Port}
    (isTranslated : type = .moveSend ∨ type = .moveReceive ∨
      (type = .portName ∧ translatePortNames = true))
    (right : message.rightAt place element = some (type, word))
    (translated : session.translateMessage message translatePortNames = some (sent, next)) :
    ∃ before after result, KeepsLinks session before ∧
      before.translatePort2 word type = some (result, after) ∧ KeepsLinks after next ∧
      sent.rightAt place element = some (type, result) := by
  rcases Message.rightAt_eq_some.mp right with ⟨item, itemFound, rfl, portFound⟩
  rcases Option.bind_eq_some_iff.mp translated with ⟨⟨body, last⟩, traversed, ⟨⟩⟩
  rcases Loop.traverse_at KeepsLinks .refl .trans keepsLinks_translateItem traversed itemFound with
    ⟨before, after, replaced, reached, itemDone, goesOn, atPlace⟩
  rcases translateItem_cases itemDone with ⟨untranslated, _, _⟩ | ⟨ports, portsDone, rfl⟩
  · rcases isTranslated with isSend | isReceive | ⟨isName, named⟩
    · simp [isSend] at untranslated
    · simp [isReceive] at untranslated
    · simp [isName, named] at untranslated
  · rcases Loop.traverse_at KeepsLinks .refl .trans keepsLinks_translatePort2 portsDone portFound
      with ⟨middle, later, result, comesTo, done, leads, atElement⟩
    exact ⟨middle, later, result, reached.trans comesTo, done, leads.trans goesOn,
      Message.rightAt_eq_some.mpr ⟨_, atPlace, rfl, atElement⟩⟩

end Session

namespace Packet

/-- The packet is what its sender has made of a message that it received by IPC. -/
def Genuine (packet : Packet) : Prop :=
  ∃ next, packet.sender.ipcBufferHandler packet.original = some (some packet.wire, next)

/-- A message that is no notification carries a SEND or RECEIVE right in its body. -/
structure Carries (packet : Packet) (place element : ℕ) (type : TypeName) (port : Port) : Prop where
  right : packet.original.rightAt place element = some (type, port)
  something : ¬port.Nothing
  isRight : type = .moveSend ∨ type = .moveReceive
  notNotified : packet.original.localPort ≠ packet.sender.notificationPort
  notNoSenders : packet.original.id ≠ msgidNoSenders

/-- A DEAD NAME notification about a port. -/
structure NotifiesDeath (packet : Packet) (port : Port) : Prop where
  notControl : packet.original.localPort ≠ packet.sender.control
  notified : packet.original.localPort = packet.sender.notificationPort
  isDeadName : packet.original.id = msgidDeadName
  notNull : port ≠ machPortNull
  named : Session.deadNameOf packet.original = some port

variable {packet : Packet} {place element : ℕ} {type : TypeName} {port : Port}

theorem Carries.encoded (carries : packet.Carries place element type port) (genuine : packet.Genuine) :
    packet.wire.rightAt place element = some (type, packet.sender.names.encode port) := by
  rcases genuine with ⟨next, handled⟩
  rcases Session.ipcBufferHandler_cases handled with ⟨_, isNone, _⟩ | ⟨relayed, deadName, routed,
    released, written, translated, isRouted, isReleased, isTranslated, isSent, _⟩
  · cases isNone
  · cases isSent
    have sameBody : relayed.body = packet.original.body ∧ relayed.id = packet.original.id ∧
        deadName = machPortNull ∧ routed.names.encode = packet.sender.names.encode := by
      cases isRouted with
      | unknownDeadName _ notified => exact (carries.notNotified notified).elim
      | deadName _ notified => exact (carries.notNotified notified).elim
      | _ => exact ⟨rfl, rfl, rfl, rfl⟩
    rcases sameBody with ⟨sameBody, sameId, rfl, sameCode⟩
    rcases Session.releaseNoSenders_cases isReleased with ⟨_, rfl⟩ | ⟨isNoSenders, _, _⟩
    · rw [← sameCode]
      apply Session.rightAt_translateForTransmission carries.isRight carries.something _ isTranslated
      rw [Message.rightAt, sameBody]
      exact carries.right
    · rw [sameId] at isNoSenders
      exact (carries.notNoSenders isNoSenders).elim

theorem NotifiesDeath.encoded (notifies : packet.NotifiesDeath port) (genuine : packet.Genuine) :
    Peers.namesPorts packet.wire = true ∧
      packet.wire.rightAt 0 0 = some (.portName, packet.sender.names.encode port) := by
  rcases genuine with ⟨next, handled⟩
  rcases Session.ipcBufferHandler_cases handled with ⟨isRouted, isNone, _⟩ | ⟨relayed, deadName,
    routed, released, written, translated, isRouted, isReleased, isTranslated, isSent, _⟩
  · cases isNone
  · cases isSent
    have isRelayed : relayed = { packet.original with localPort := machPortControl } ∧
        deadName = port ∧ routed.names.encode = packet.sender.names.encode := by
      cases isRouted with
      | control isControl => exact (notifies.notControl isControl).elim
      | unknownDeadName _ _ _ named =>
          rw [notifies.named] at named
          cases named
          exact ⟨rfl, rfl, rfl⟩
      | deadName _ _ _ named =>
          rw [notifies.named] at named
          cases named
          exact ⟨rfl, rfl, rfl⟩
      | notification _ _ isOther =>
          rw [notifies.isDeadName] at isOther
          rcases isOther with isOther | isOther <;> cases isOther
      | proxy _ notNotified => exact (notNotified notifies.notified).elim
      | sendOnce _ notNotified => exact (notNotified notifies.notified).elim
      | own _ notNotified => exact (notNotified notifies.notified).elim
      | raw _ notNotified => exact (notNotified notifies.notified).elim
    rcases isRelayed with ⟨rfl, rfl, sameCode⟩
    rcases Session.releaseNoSenders_cases isReleased with ⟨_, rfl⟩ | ⟨isNoSenders, _, _⟩
    · rcases Option.bind_eq_some_iff.mp isTranslated with ⟨⟨body, last⟩, traversed, isWire⟩
      have isWire := Option.some.inj isWire
      have wireEq : packet.wire =
          { packet.original with localPort := machPortControl, body := body } :=
        (congrArg Prod.fst isWire).symm
      have named := notifies.named
      unfold Session.deadNameOf at named
      split at named
      · rename_i named' rest isBody
        cases named
        simp only [isBody] at traversed
        rcases Loop.traverse_cons_iff.mp traversed with
          ⟨item, middle, others, itemDone, _, rfl⟩
        cases itemDone
        have nameEq : released.transmitName (decide (deadName ≠ machPortNull)) deadName =
            packet.sender.names.encode deadName := by
          rw [← sameCode]
          simp only [Session.transmitName, notifies.notNull, ne_eq, not_false_eq_true, decide_true, if_true]
          rfl
        rw [wireEq]
        refine ⟨?_, ?_⟩
        · simp [Peers.namesPorts, notifies.isDeadName]
        · simp [Message.rightAt, ← nameEq]
      · cases named
    · rw [notifies.isDeadName] at isNoSenders
      cases isNoSenders

end Packet

theorem Names.unlink_links (names : Names) (port remote : Port) :
    (names.unlink port).localPortsByRemote remote = names.localPortsByRemote remote ∨
      (names.unlink port).localPortsByRemote remote = none := by
  by_cases same : remote = (names.remotePortsByLocal port).getD machPortNull
  · exact .inr (by simp [Names.unlink, same])
  · exact .inl (by simp [Names.unlink, same])

theorem Names.unlinkIfLinked_links (names : Names) (port remote : Port) :
    (names.unlinkIfLinked port).localPortsByRemote remote = names.localPortsByRemote remote ∨
      (names.unlinkIfLinked port).localPortsByRemote remote = none := by
  rw [Names.unlinkIfLinked]
  split_ifs
  · exact names.unlink_links port remote
  · exact .inl rfl

namespace Session

variable {session next : Session} {message wire : Message} {remote known : Port}

/-- `ipcBufferHandler` makes no proxy; it may forget one. -/
theorem links_ipcBufferHandler {sent : Option Message}
    (handled : session.ipcBufferHandler message = some (sent, next)) (remote : Port) :
    next.names.localPortsByRemote remote = session.names.localPortsByRemote remote ∨
      next.names.localPortsByRemote remote = none := by
  rcases ipcBufferHandler_cases handled with ⟨_, _, rfl⟩ | ⟨relayed, deadName, routed, released,
    written, translated, isRouted, isReleased, isTranslated, _, rfl⟩
  · exact .inl rfl
  · have routedSame : routed.names.localPortsByRemote = session.names.localPortsByRemote := by
      cases isRouted <;> rfl
    have releasedSame : released.names.localPortsByRemote remote =
        session.names.localPortsByRemote remote ∨
        released.names.localPortsByRemote remote = none := by
      rw [← routedSame]
      rcases releaseNoSenders_cases isReleased with ⟨_, rfl⟩ | ⟨_, _, rfl⟩
      · exact .inl rfl
      · exact (routed.names.eraseType _).unlink_links _ _
    have translatedSame : translated.names.localPortsByRemote remote =
        released.names.localPortsByRemote remote := by
      rw [(sameLinks_translateForTransmission isTranslated).2]
    rw [← translatedSame] at releasedSame
    rw [forgetDeadName]
    split_ifs
    · rcases translated.names.unlinkIfLinked_links deadName remote with same | erased
      · rw [same]
        exact releasedSame
      · exact .inr erased
    · exact releasedSame

/-- A proxy that `tcpBufferHandler` has for the body of a message stays, or is forgotten. -/
theorem links_tcpBufferHandler {sent : Option Message} {translated : Message} {read : Session}
    (isTranslated : session.translateMessage wire (Peers.namesPorts wire) = some (translated, read))
    (handled : session.tcpBufferHandler wire = some (sent, next))
    (linked : read.names.localPortsByRemote remote = some known) :
    next.names.localPortsByRemote remote = some known ∨
      next.names.localPortsByRemote remote = none := by
  rcases tcpBufferHandler_cases handled with
    ⟨body, middle, addressed, headed, isRead, isHeaded, _, rfl⟩
  rw [Peers.namesPorts, isRead] at isTranslated
  cases isTranslated
  have headedLinks : headed.names.localPortsByRemote remote = some known ∨
      headed.names.localPortsByRemote remote = none := by
    cases (translateHeader_cases isHeaded).2 with
    | discard => exact .inl linked
    | noSenders _ _ handled =>
        rcases handleNoSenders_cases handled with ⟨_, rfl⟩ | ⟨_, _, _, _, rfl⟩
        · exact .inl linked
        · rw [← linked]
          exact (read.names.eraseType _).unlinkIfLinked_links _ _
    | deadName _ _ _ _ handled =>
        rcases handleDeadName_cases handled with ⟨_, rfl⟩ | ⟨_, rfl⟩
        · exact .inl linked
        · rw [← linked]
          exact (read.names.eraseType _).unlinkIfLinked_links _ _
    | noReply => exact .inl linked
    | reply _ _ _ _ _ translated => exact .inl ((translatePort2_cases translated).1.keeps linked)
  exact headedLinks

end Session

namespace Delivery

/-- The delivery is what its receiver has made of a genuine packet. -/
structure Genuine (delivery : Delivery) : Prop where
  packet : delivery.packet.Genuine
  translated : delivery.receiver.translateMessage delivery.packet.wire
    (Peers.namesPorts delivery.packet.wire) = some (delivery.translated, delivery.read)
  isConsistent : delivery.read.names.ConsistentBut machPortNull

variable {delivery : Delivery} {place element : ℕ} {type : TypeName} {port proxy : Port}

/-- A right for one of the sender's own ports arrives under the proxy of its name. -/
theorem Genuine.proxied (genuine : delivery.Genuine) (unflagged : port.flagged = false)
    (carries : delivery.packet.Carries place element type port)
    (own : delivery.packet.sender.names.remotePortsByLocal port = none) :
    ∃ proxy, delivery.translated.rightAt place element = some (type, proxy) ∧
      delivery.read.names.localPortsByRemote port = some proxy := by
  have written := carries.encoded genuine.packet
  have sameName : delivery.packet.sender.names.encode port = port := by
    simp only [Names.encode, own]
  rw [sameName] at written
  have isTranslated : type = .moveSend ∨ type = .moveReceive ∨
      (type = .portName ∧ Peers.namesPorts delivery.packet.wire = true) := by
    rcases carries.isRight with isSend | isReceive
    · exact .inl isSend
    · exact .inr (.inl isReceive)
  rcases Session.rightAt_translateMessage isTranslated written genuine.translated with
    ⟨before, after, proxy, _, done, goesOn, arrived⟩
  exact ⟨proxy, arrived, goesOn _ _ ((Session.translatePort2_cases done).1.linked carries.isRight
    carries.something unflagged)⟩

/-- The complement of a name in the receiver's name space stands for that name. -/
theorem Genuine.returned_word (genuine : delivery.Genuine) (unflagged : port.flagged = false)
    (notNull : port ≠ machPortNull)
    (isTranslated : type = .moveSend ∨ type = .moveReceive ∨
      (type = .portName ∧ Peers.namesPorts delivery.packet.wire = true))
    (written : delivery.packet.wire.rightAt place element = some (type, ~~~port)) :
    delivery.translated.rightAt place element = some (type, port) := by
  rcases Session.rightAt_translateMessage isTranslated written genuine.translated with
    ⟨before, after, result, _, done, _, arrived⟩
  have flagged : Port.flagged (~~~port) = true := Port.flagged_not_of_not_flagged unflagged
  have something : ¬Port.Nothing (~~~port) := by
    rintro (isNull | isDead)
    · exact Port.not_null_of_flagged flagged isNull
    · apply notNull
      have notNot : ~~~(~~~port) = port := BitVec.not_not
      rw [← notNot, isDead]
      decide
  have resultEq := (Session.translatePort2_cases done).1.returned something flagged
  rw [BitVec.not_not] at resultEq
  exact resultEq ▸ arrived

/-- A right for a proxy arrives under the name that the proxy stands for. -/
theorem Genuine.returned (genuine : delivery.Genuine) (unflagged : port.flagged = false)
    (notNull : port ≠ machPortNull) (carries : delivery.packet.Carries place element type proxy)
    (linked : delivery.packet.sender.names.remotePortsByLocal proxy = some port) :
    delivery.translated.rightAt place element = some (type, port) := by
  have written := carries.encoded genuine.packet
  simp only [Names.encode, linked] at written
  apply genuine.returned_word unflagged notNull _ written
  rcases carries.isRight with isSend | isReceive
  · exact .inl isSend
  · exact .inr (.inl isReceive)

theorem Genuine.dead_own (genuine : delivery.Genuine) (unflagged : port.flagged = false)
    (notifies : delivery.packet.NotifiesDeath port)
    (own : delivery.packet.sender.names.remotePortsByLocal port = none)
    (linked : delivery.receiver.names.localPortsByRemote port = some proxy) :
    delivery.translated.rightAt 0 0 = some (.portName, proxy) ∧
      delivery.read.names.localPortsByRemote port = some proxy := by
  rcases notifies.encoded genuine.packet with ⟨named, written⟩
  have sameName : delivery.packet.sender.names.encode port = port := by
    simp only [Names.encode, own]
  rw [sameName] at written
  rcases Session.rightAt_translateMessage (.inr (.inr ⟨rfl, named⟩)) written genuine.translated with
    ⟨before, after, result, reached, done, goesOn, arrived⟩
  have known := reached _ _ linked
  rcases (Session.translatePort2_cases done).1.named
    (Port.something_of_not_flagged unflagged notifies.notNull) unflagged with ⟨resultEq, namesEq⟩
  rw [known, Option.getD_some] at resultEq
  refine ⟨resultEq ▸ arrived, goesOn _ _ ?_⟩
  rw [namesEq]
  exact known

theorem Genuine.dead_proxy (genuine : delivery.Genuine) (unflagged : port.flagged = false)
    (notNull : port ≠ machPortNull) (notifies : delivery.packet.NotifiesDeath proxy)
    (linked : delivery.packet.sender.names.remotePortsByLocal proxy = some port) :
    delivery.translated.rightAt 0 0 = some (.portName, port) := by
  rcases notifies.encoded genuine.packet with ⟨named, written⟩
  simp only [Names.encode, linked] at written
  exact genuine.returned_word unflagged notNull (.inr (.inr ⟨rfl, named⟩)) written

end Delivery

namespace Peers

variable {peers next : Peers} {host : Host} {port : Port}

/-- The proxy that the host has made for a remote name has not been forgotten. -/
def NotErased (peers : Peers) (host : Host) (port : Port) : Prop :=
  (∃ delivery ∈ (peers host).delivered, delivery.read.names.localPortsByRemote port ≠ none) →
    (peers host).session.names.localPortsByRemote port ≠ none

/-- The kernel hands out no name that the maps of the session still contain. -/
def HandsOutNewNames (peers : Peers) : Action → Prop
  | .handle host _ task => (peers host).session.HandsOutNewNames task
  | .receive _ _ => True
  | .translate _ _ _ => True
  | .write _ _ => True
  | .read _ => True

/--
Every transfer of a right for a port of `host` gives one and the same name at the other end,
every transfer back gives the port again, and so it is with DEAD NAME notifications.
-/
structure RoundTrips (peers : Peers) (host : Host) (port name : Port) : Prop where
  out : ∀ delivery ∈ (peers host.peer).delivered, ∀ {place element type},
    delivery.packet.Carries place element type port →
    delivery.packet.sender.names.remotePortsByLocal port = none →
    delivery.translated.rightAt place element = some (type, name) ∧
      delivery.read.names.localPortsByRemote port = some name ∧
      delivery.read.names.remotePortsByLocal name = some port
  back : ∀ delivery ∈ (peers host).delivered, ∀ {place element type proxy},
    delivery.packet.Carries place element type proxy →
    delivery.packet.sender.names.remotePortsByLocal proxy = some port →
    delivery.translated.rightAt place element = some (type, port)
  deadOut : ∀ delivery ∈ (peers host.peer).delivered, delivery.packet.NotifiesDeath port →
    delivery.packet.sender.names.remotePortsByLocal port = none →
    delivery.receiver.names.localPortsByRemote port ≠ none →
    delivery.translated.rightAt 0 0 = some (.portName, name)
  deadBack : ∀ delivery ∈ (peers host).delivered, ∀ {proxy},
    delivery.packet.NotifiesDeath proxy →
    delivery.packet.sender.names.remotePortsByLocal proxy = some port →
    delivery.translated.rightAt 0 0 = some (.portName, port)

/-- The names that deliveries have read for a port are all the same, and it is still there. -/
structure SameName (peers : Peers) (host : Host) (port : Port) : Prop where
  current : ∀ delivery ∈ (peers host).delivered, ∀ {name},
    delivery.read.names.localPortsByRemote port = some name →
    (peers host).session.names.localPortsByRemote port = some name ∨
      (peers host).session.names.localPortsByRemote port = none
  unique : ∀ first ∈ (peers host).delivered, ∀ second ∈ (peers host).delivered, ∀ {name other},
    first.read.names.localPortsByRemote port = some name →
    second.read.names.localPortsByRemote port = some other → name = other

/-- Neither the deliveries nor the proxies of the host change in a step of anything else. -/
theorem SameName.of_same (same : SameName peers host port)
    (sameDelivered : (next host).delivered = (peers host).delivered)
    (sameLinks : (next host).session.names.localPortsByRemote port =
        (peers host).session.names.localPortsByRemote port ∨
      (next host).session.names.localPortsByRemote port = none) : SameName next host port := by
  constructor
  · intro delivery deliveryMem name linked
    rw [sameDelivered] at deliveryMem
    rcases sameLinks with sameLinks | erased
    · rw [sameLinks]
      exact same.current delivery deliveryMem linked
    · exact .inr erased
  · rw [sameDelivered]
    exact same.unique

theorem SameName.handle {index : ℕ} {task : Task} (same : SameName peers host port)
    (notErased : peers.NotErased host port) (done : peers.handle host index task = some next) :
    SameName next host port := by
  rcases handle_cases done with
    ⟨packet, translated, read, sent, session, _, isTranslated, handled, rfl⟩
  -- a name that an earlier delivery has read is still there when the message is read
  have stillThere : ∀ earlier ∈ (peers host).delivered, ∀ {name},
      earlier.read.names.localPortsByRemote port = some name →
      read.names.localPortsByRemote port = some name := by
    intro earlier earlierMem name linked
    have present := notErased ⟨earlier, earlierMem, by simp [linked]⟩
    rcases same.current earlier earlierMem linked with kept | erased
    · rcases Option.bind_eq_some_iff.mp isTranslated with ⟨⟨body, last⟩, traversed, ⟨⟩⟩
      have keeps : Session.KeepsLinks { (peers host).session with task := task } read := by
        refine Loop.traverse_invariant
          (Session.KeepsLinks { (peers host).session with task := task }) ?_ (.refl _) traversed
        intro _ _ before item after holds itemDone
        exact holds.trans (Session.keepsLinks_translateItem itemDone)
      exact keeps port name kept
    · exact (present erased).elim
  have readName : ∀ delivery ∈ (peers host).delivered ++
        [⟨packet, { (peers host).session with task := task }, translated, read, sent, session⟩],
      ∀ {name}, delivery.read.names.localPortsByRemote port = some name →
      read.names.localPortsByRemote port = some name := by
    intro delivery deliveryMem name linked
    rcases List.mem_append.mp deliveryMem with old | new
    · exact stillThere delivery old linked
    · cases List.mem_singleton.mp new
      exact linked
  constructor
  · rw [modify_same]
    intro delivery deliveryMem name linked
    exact Session.links_tcpBufferHandler isTranslated handled (readName delivery deliveryMem linked)
  · rw [modify_same]
    intro first firstMem second secondMem name other firstLinked secondLinked
    have firstRead := readName first firstMem firstLinked
    rw [readName second secondMem secondLinked] at firstRead
    exact (Option.some.inj firstRead).symm

theorem SameName.step {action : Action} (same : SameName peers host port)
    (notErased : peers.NotErased host port) (taken : peers.step action = some next) :
    SameName next host port := by
  cases action with
  | receive other message =>
      rcases Option.bind_eq_some_iff.mp taken with ⟨_, _, ⟨⟩⟩
      by_cases isHost : host = other
      · subst isHost
        exact same.of_same (by rw [modify_same]) (.inl (by rw [modify_same]))
      · exact same.of_same (by rw [modify_other _ isHost]) (.inl (by rw [modify_other _ isHost]))
  | translate other index task =>
      rcases translate_cases taken with ⟨message, sent, session, _, handled, rfl⟩
      by_cases isHost : host = other
      · subst isHost
        refine same.of_same (by rw [modify_same]) ?_
        rw [modify_same]
        exact Session.links_ipcBufferHandler handled port
      · exact same.of_same (by rw [modify_other _ isHost]) (.inl (by rw [modify_other _ isHost]))
  | write other index =>
      rcases write_cases taken with ⟨packet, _, rfl⟩
      by_cases isHost : host = other
      · subst isHost
        refine same.of_same ?_ (.inl ?_) <;>
          rw [modify_other _ (Ne.symm host.peer_ne), modify_same]
      · have isPeer : host = other.peer := by
          cases host <;> cases other <;> first | rfl | exact (isHost rfl).elim
        subst isPeer
        refine same.of_same ?_ (.inl ?_) <;> rw [modify_same, modify_other _ isHost]
  | read other =>
      rcases read_cases taken with ⟨packet, rest, _, rfl⟩
      by_cases isHost : host = other
      · subst isHost
        exact same.of_same (by rw [modify_same]) (.inl (by rw [modify_same]))
      · exact same.of_same (by rw [modify_other _ isHost]) (.inl (by rw [modify_other _ isHost]))
  | handle other index task =>
      by_cases isHost : host = other
      · subst isHost
        exact same.handle notErased taken
      · rcases handle_cases taken with ⟨packet, _, _, sent, session, _, _, handled, rfl⟩
        exact same.of_same (by rw [modify_other _ isHost]) (.inl (by rw [modify_other _ isHost]))

theorem consistent_step {action : Action} (newNames : peers.HandsOutNewNames action)
    (all : ∀ host, (peers host).session.names.ConsistentBut machPortNull)
    (taken : peers.step action = some next) :
    ∀ host, (next host).session.names.ConsistentBut machPortNull := by
  let isConsistent : Side → Prop := fun side => side.session.names.ConsistentBut machPortNull
  cases action with
  | receive host message =>
      rcases Option.bind_eq_some_iff.mp taken with ⟨_, _, ⟨⟩⟩
      exact side_modify isConsistent all (all host)
  | translate host index task =>
      rcases translate_cases taken with ⟨message, sent, session, _, handled, rfl⟩
      have starts : ({ (peers host).session with task := task } : Session).names.ConsistentBut
          machPortNull := all host
      exact side_modify isConsistent all
        (Names.keptByIpc_consistent.ipcBufferHandler starts handled)
  | write host index =>
      rcases write_cases taken with ⟨packet, _, rfl⟩
      refine side_modify isConsistent (side_modify isConsistent all (all host)) ?_
      rw [modify_other peers host.peer_ne]
      exact all host.peer
  | read host =>
      rcases read_cases taken with ⟨packet, rest, _, rfl⟩
      exact side_modify isConsistent all (all host)
  | handle host index task =>
      rcases handle_cases taken with ⟨packet, _, _, sent, session, _, _, handled, rfl⟩
      have starts : ({ (peers host).session with task := task } : Session).names.ConsistentBut
          machPortNull := all host
      have supplied : ({ (peers host).session with task := task } : Session).names.Supplied
          task.fresh := Session.HandsOutNewNames.supplied newNames
      rcases Names.keptByTcp_consistent.tcpBufferHandler ⟨starts, supplied⟩ handled with
        ⟨_, nextConsistent, -⟩
      exact side_modify isConsistent all nextConsistent

/-- The proxy of a port at the other end is never forgotten, and the kernel hands out new names. -/
def KeepsName (host : Host) (port : Port) (peers : Peers) (action : Action) : Prop :=
  peers.NotErased host.peer port ∧ peers.HandsOutNewNames action

/-- In every run in which the proxy of a port is not forgotten, its name round-trips. -/
theorem roundTrips_of_reachable {start : Peers} (starts : Start start)
    (unflagged : port.flagged = false) (notNull : port ≠ machPortNull)
    (reached : Transition.Reachable step (KeepsName host port) start peers) :
    ∃ name, peers.RoundTrips host port name := by
  have invariant : (∀ host, (peers host).session.names.ConsistentBut machPortNull) ∧
      AllPackets Packet.Genuine Delivery.Genuine peers ∧ SameName peers host.peer port := by
    refine reached.invariant
      (fun peers => (∀ host, (peers host).session.names.ConsistentBut machPortNull) ∧
        AllPackets Packet.Genuine Delivery.Genuine peers ∧ SameName peers host.peer port)
      ⟨?_, .start starts, ?_, ?_⟩ ?_
    · intro host
      rcases starts host with ⟨session, created, isSession⟩
      rw [isSession]
      exact created.consistent
    · intro delivery deliveryMem
      rcases starts host.peer with ⟨session, _, isSession⟩
      rw [isSession] at deliveryMem
      cases deliveryMem
    · intro delivery deliveryMem
      rcases starts host.peer with ⟨session, _, isSession⟩
      rw [isSession] at deliveryMem
      cases deliveryMem
    · intro before after action ⟨allConsistent, allPackets, same⟩ ⟨notErased, newNames⟩ taken
      refine ⟨consistent_step newNames allConsistent taken, allPackets.step ?_ ?_ taken,
        same.step notErased taken⟩
      · intro host index task message sent session _ _ handled
        exact ⟨session, handled⟩
      · intro host index task packet translated read sent session isHandle _ isMade isTranslated _
        subst isHandle
        have supplied : ({ (before host).session with task := task } : Session).names.Supplied
            task.fresh := Session.HandsOutNewNames.supplied newNames
        have startsConsistent : ({ (before host).session with task := task } :
            Session).names.ConsistentBut machPortNull := allConsistent host
        exact ⟨isMade, isTranslated,
          (Names.keptByTcp_consistent.translateMessage ⟨startsConsistent, supplied⟩ isTranslated).1⟩
  rcases invariant with ⟨_, allPackets, same⟩
  have theName : ∃ name, ∀ delivery ∈ (peers host.peer).delivered, ∀ {other},
      delivery.read.names.localPortsByRemote port = some other → other = name := by
    by_cases known : ∃ delivery ∈ (peers host.peer).delivered, ∃ name,
        delivery.read.names.localPortsByRemote port = some name
    · rcases known with ⟨first, firstMem, name, linked⟩
      exact ⟨name, fun delivery deliveryMem other otherLinked =>
        same.unique delivery deliveryMem first firstMem otherLinked linked⟩
    · exact ⟨port, fun delivery deliveryMem other otherLinked =>
        (known ⟨delivery, deliveryMem, other, otherLinked⟩).elim⟩
  rcases theName with ⟨name, isName⟩
  refine ⟨name, ?_, ?_, ?_, ?_⟩
  · intro delivery deliveryMem place element type carries own
    have genuine := allPackets.delivered host.peer delivery deliveryMem
    rcases genuine.proxied unflagged carries own with ⟨proxy, arrived, linked⟩
    cases isName delivery deliveryMem linked
    exact ⟨arrived, linked, (genuine.isConsistent.inverse port name).mp linked⟩
  · intro delivery deliveryMem place element type proxy carries linked
    exact (allPackets.delivered host delivery deliveryMem).returned unflagged notNull carries linked
  · intro delivery deliveryMem notifies own known
    have genuine := allPackets.delivered host.peer delivery deliveryMem
    rcases Option.ne_none_iff_exists'.mp known with ⟨proxy, linked⟩
    rcases genuine.dead_own unflagged notifies own linked with ⟨arrived, readLinked⟩
    cases isName delivery deliveryMem readLinked
    exact arrived
  · intro delivery deliveryMem proxy notifies linked
    exact (allPackets.delivered host delivery deliveryMem).dead_proxy unflagged notNull notifies
      linked

/-- A send right goes out to the server and comes back to the translator. -/
def returnedRun : List Action :=
  [.receive .left { localPort := 1, body := [⟨.moveSend, [11]⟩] },
    .translate .left 0 (ampleTask []), .write .left 0, .read .right,
    .handle .right 0 (ampleTask [20]),
    .receive .right { localPort := 20, body := [⟨.moveSend, [20]⟩] },
    .translate .right 0 (ampleTask []), .write .right 0, .read .left,
    .handle .left 0 (ampleTask [])]

theorem roundTrips_after_returned :
    ∃ peers, Transition.run step returnedRun joined = some peers ∧
      (peers .right).session.names.localPortsByRemote 11 = some 20 ∧
      (∃ delivery ∈ (peers .left).delivered,
        delivery.translated.rightAt 0 0 = some (.moveSend, 11)) ∧
      ∃ name, peers.RoundTrips .left 11 name := by
  refine ⟨_, rfl, by decide, ⟨_, List.mem_singleton_self _, by decide⟩,
    roundTrips_of_reachable joined_start (by decide) (by decide)
      (Transition.Reachable.start.of_run returnedRun ?_ rfl)⟩
  have emptySupply : ∀ session : Session, session.HandsOutNewNames (ampleTask []) :=
    fun _ => ⟨List.nodup_nil, nofun⟩
  have nothingRead : ∀ peers : Peers, (peers .right).delivered = [] →
      peers.NotErased .right 11 := by
    rintro peers isEmpty ⟨delivery, deliveryMem, _⟩
    rw [isEmpty] at deliveryMem
    cases deliveryMem
  refine ⟨⟨nothingRead _ rfl, trivial⟩, ?_⟩
  rintro _ ⟨⟩
  refine ⟨⟨nothingRead _ rfl, trivial⟩, ?_⟩
  rintro _ ⟨⟩
  refine ⟨⟨nothingRead _ rfl, trivial⟩, ?_⟩
  rintro _ ⟨⟩
  refine ⟨⟨nothingRead _ rfl, trivial⟩, ?_⟩
  rintro _ ⟨⟩
  refine ⟨⟨nothingRead _ rfl, List.nodup_singleton _, ?_⟩, ?_⟩
  · intro name nameMem
    cases List.mem_singleton.mp nameMem
    refine ⟨by decide, ?_⟩
    rintro (linked | typed | linked)
    · exact linked rfl
    · revert typed
      decide
    · exact linked rfl
  rintro _ ⟨⟩
  refine ⟨⟨fun _ => by decide, trivial⟩, ?_⟩
  rintro _ ⟨⟩
  refine ⟨⟨fun _ => by decide, trivial⟩, ?_⟩
  rintro _ ⟨⟩
  refine ⟨⟨fun _ => by decide, trivial⟩, ?_⟩
  rintro _ ⟨⟩
  refine ⟨⟨fun _ => by decide, trivial⟩, ?_⟩
  rintro _ ⟨⟩
  exact ⟨⟨fun _ => by decide, emptySupply _⟩, fun _ _ => trivial⟩

end Peers

end Hurd.Netmsg
