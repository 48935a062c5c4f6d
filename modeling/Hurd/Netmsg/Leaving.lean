import Hurd.Netmsg.Delivery
import Hurd.Netmsg.Owing

/-!
# The rights that leave with a message

A message that is sent by IPC takes the rights along that were made for it.  One that is not sent
leaves them where they are, so that it must not carry any.
-/

namespace Hurd.Netmsg

/-- A right that no proxy is made for leaves the proxies as they are. -/
theorem Names.Translates.unlinked {names next : Names} {fresh left : List Port} {type : TypeName}
    {port word remote : Port} (translated : names.Translates fresh type port word next left)
    (received : type.Received)
    (notNew : ¬port.Nothing → port.flagged = false → type ≠ .moveSend ∧ type ≠ .moveReceive)
    (isUnlinked : names.localPortsByRemote remote = none) : next.localPortsByRemote remote = none := by
  cases translated with
  | nothing => exact isUnlinked
  | returnedSend => exact isUnlinked
  | returnedReceive => exact isUnlinked
  | returnedName => exact isUnlinked
  | knownReceive => exact isUnlinked
  | newReceive something unflagged => exact absurd rfl (notNew something unflagged).2
  | knownSend => exact isUnlinked
  | newSend something unflagged isSend =>
      rcases isSend with isSend | isCopy | isMake
      · exact absurd isSend (notNew something unflagged).1
      · exact absurd isCopy received.1
      · exact absurd isMake received.2.1
  | sendOnce => exact isUnlinked
  | name => exact isUnlinked

namespace Session

variable {session middle next : Session} {port word : Port} {rights rest : List (TypeName × Port)}

theorem owed_leaves : session.owed.Leaves where
  send owes notFirst := (owes notFirst).leavesSend
  receive owes notFirst := (owes notFirst).leavesReceive
  once owes notFirst := (owes notFirst).leavesOnce

theorem AllOwe.giveAway {type : TypeName} (owes : session.AllOwe ((type, port) :: rights)) :
    Session.AllOwe { session with task := session.task.giveAway type port } rights :=
  allOwe_iff.mpr ((allOwe_iff.mp owes).giveAway owed_leaves)

/-- The rights of a message body leave one by one. -/
theorem giveAwayBody_eq_foldl (task : Task) (message : Message) :
    task.giveAwayBody message.body =
      message.rights.foldl (fun task right => task.giveAway right.1 right.2) task := by
  simp [Task.giveAwayBody, Message.rights, Item.rights, List.foldl_flatMap, List.foldl_map]

theorem AllOwe.giveAwayAll (owes : session.AllOwe rights) :
    Session.AllOwe
      { session with
        task := rights.foldl (fun task right => task.giveAway right.1 right.2) session.task } [] :=
  allOwe_iff.mpr ((allOwe_iff.mp owes).giveAwayAll owed_leaves)

/-- The right that a message is sent with leaves, or a copy of it. -/
theorem tallies_destination {asks : Judgement} {message : Message}
    (tallies : Tallies asks session.task rights) (leaves : asks.Leaves)
    (isRight : message.localType = some .moveSend ∨ message.localType = some .moveSendOnce)
    (untyped : session.names.localPortType message.localPort = none → ∀ {sends receives},
      asks message.localPort (session.task.holds message.localPort) sends receives →
        asks message.localPort (session.task.holds message.localPort).dropSend sends receives) :
    Tallies asks
      (match (session.swapHeader message).remoteType with
        | none => session.task
        | some name => session.task.giveAway name message.localPort) rights := by
  cases typed : session.names.localPortType message.localPort with
  | some type =>
      have isCopy : (session.swapHeader message).remoteType = some .copySend := by
        simp [swapHeader, typed]
      rw [isCopy]
      exact tallies
  | none =>
      have isLocal : (session.swapHeader message).remoteType = message.localType := by
        simp [swapHeader, typed]
      rw [isLocal]
      rcases isRight with isSend | isOnce
      · rw [isSend]
        exact tallies.of_holds (session.task.holds_dropSend _)
          (fun something => untyped typed (tallies _ something)) fun _ _ _ => rfl
      · rw [isOnce]
        have holds := fun other =>
          session.task.holds_modify message.localPort other Holding.giveSendOnce
        exact tallies.of_holds holds (fun something => leaves.once (tallies _ something))
          fun _ _ _ => rfl

theorem AllOwe.leavesDestination {message : Message} (owes : session.AllOwe rights)
    (isRight : message.localType = some .moveSend ∨ message.localType = some .moveSendOnce) :
    Session.AllOwe
      { session with
        task := match (session.swapHeader message).remoteType with
          | none => session.task
          | some name => session.task.giveAway name message.localPort } rights := by
  refine allOwe_iff.mpr (tallies_destination (allOwe_iff.mp owes) owed_leaves isRight ?_)
  intro typed sends receives owe notFirst
  exact (owe notFirst).of_untyped typed Holding.receive_dropSend.trans

/-- The message is sent, and all its rights leave. -/
theorem AllOwe.machMsg {message : Message} (owes : session.AllOwe message.carried)
    (isRight : message.localType = some .moveSend ∨ message.localType = some .moveSendOnce)
    (canSend : session.task.canSend (session.swapHeader message).remoteType message.localPort = true) :
    Session.AllOwe { session with task := session.task.machMsg (session.swapHeader message) } [] := by
  have afterDestination := owes.leavesDestination isRight
  have canSendThere : session.task.canSend (session.swapHeader message).remoteType
      (session.swapHeader message).remotePort = true := canSend
  rw [Task.machMsg, if_pos canSendThere]
  dsimp only
  rw [giveAwayBody_eq_foldl]
  cases replyType : message.remoteType with
  | none =>
      have noReply : (session.swapHeader message).localType = none := replyType
      rw [Message.carried, replyType] at afterDestination
      rw [noReply]
      exact afterDestination.giveAwayAll
  | some type =>
      have reply : (session.swapHeader message).localType = some type := replyType
      rw [Message.carried, replyType] at afterDestination
      rw [reply]
      exact afterDestination.giveAway.giveAwayAll

/-- The message is one that is sent by IPC. -/
structure Delivers (session : Session) (message addressed : Message) : Prop where
  found : session.Addresses message (some addressed)
  notNoSenders : message.id ≠ msgidNoSenders
  notDeadName : ¬(message.id = msgidDeadName ∧ addressed.localPort = session.firstPort)
  canSend : session.task.canSend (session.swapHeader addressed).remoteType addressed.localPort = true

/-- The right is none that netmsg keeps an account of. -/
def Harmless (session : Session) (right : TypeName × Port) : Prop :=
  right.2.Nothing ∨ right.1 ≠ .moveSend ∧ right.1 ≠ .moveReceive ∨
    right.2.flagged = true ∧ ~~~right.2 = session.firstPort

/-- The message goes no further: its destination is not known, or it is a notification. -/
inductive Consumes (session : Session) (message : Message) : Prop
  | unknown (notControl : message.localPort ≠ machPortControl)
      (translate : message.remoteTranslate = true)
      (unlinked : session.names.localPortsByRemote message.localPort = none) :
      Consumes session message
  | noSenders (isNoSenders : message.id = msgidNoSenders) : Consumes session message
  | deadName {addressed : Message} (found : session.Addresses message (some addressed))
      (isDeadName : message.id = msgidDeadName) (toFirst : addressed.localPort = session.firstPort) :
      Consumes session message

/-- There is a right to send to the destination, and it will stay. -/
inductive CanReach (session : Session) (localType : Option TypeName) (port : Port) : Prop
  | copies (typed : session.names.localPortType port ≠ none) (held : 0 < (session.task.holds port).send)
  | moves (isSend : localType = some .moveSend) (held : 0 < (session.task.holds port).send)
  | once (isOnce : localType = some .moveSendOnce) (untyped : session.names.localPortType port = none)
      (held : (session.task.holds port).sendOnce = true)

theorem canReach_iff {message : Message}
    (isRight : message.localType = some .moveSend ∨ message.localType = some .moveSendOnce) :
    session.task.canSend (session.swapHeader message).remoteType message.localPort = true ↔
      session.CanReach message.localType message.localPort := by
  cases typed : session.names.localPortType message.localPort with
  | some type =>
      have isTyped : session.names.localPortType message.localPort ≠ none := by simp [typed]
      simp only [swapHeader, typed, Option.isSome_some, if_true, Task.canSend, decide_eq_true_eq]
      constructor
      · exact .copies isTyped
      · rintro (⟨_, held⟩ | ⟨_, held⟩ | ⟨_, untyped, _⟩)
        · exact held
        · exact held
        · exact absurd untyped isTyped
  | none =>
      have noCopy : (session.swapHeader message).remoteType = message.localType := by
        simp [swapHeader, typed]
      rw [noCopy]
      rcases isRight with isSend | isOnce
      · simp only [isSend, Task.canSend, decide_eq_true_eq]
        constructor
        · exact .moves rfl
        · rintro (⟨_, held⟩ | ⟨_, held⟩ | ⟨⟨⟩, _, _⟩)
          · exact held
          · exact held
      · simp only [isOnce, Task.canSend]
        constructor
        · exact .once rfl typed
        · rintro (⟨isTyped, _⟩ | ⟨⟨⟩, _⟩ | ⟨_, _, held⟩)
          · exact absurd typed isTyped
          · exact held

/-- A send right comes to a port with a type, or it gets a name that is not in use. -/
theorem known_of_translateSend (something : ¬port.Nothing) (knows : session.Knows (.moveSend, port))
    (translated : session.translatePort2 port .moveSend = some (word, next)) :
    session.names.localPortType word ≠ none ∨ (session.task.holds word).inUse = false := by
  have isPort : ¬(port = machPortNull ∨ port = machPortDead) := something
  unfold translatePort2 at translated
  rw [if_neg isPort] at translated
  split_ifs at translated with flagged
  · rcases Option.bind_eq_some_iff.mp translated with ⟨_, _, ⟨⟩⟩
    exact .inl (knows rfl something flagged)
  · have received : session.translateSend port = some (word, next) := translated
    unfold translateSend at received
    split at received
    · rcases Option.bind_eq_some_iff.mp received with ⟨_, typed, ⟨⟩⟩
      simp [of_guard typed]
    · rcases Option.bind_eq_some_iff.mp received with ⟨⟨newport, first⟩, allocated, received⟩
      rcases Option.bind_eq_some_iff.mp received with ⟨⟨old, second⟩, _, received⟩
      rcases Option.bind_eq_some_iff.mp received with ⟨_, _, ⟨⟩⟩
      exact .inr (Task.holds_allocate allocated).1

/-- A send-once right only gets names that are not in use. -/
theorem account_translateSendOnce {name : Port} (inUse : (session.task.holds name).inUse = true)
    (translated : session.translateSendOnce port = some (word, next)) :
    next.account name = session.account name := by
  rcases Option.bind_eq_some_iff.mp translated with ⟨_, _, translated⟩
  rcases Option.bind_eq_some_iff.mp translated with ⟨⟨newport, first⟩, allocated, translated⟩
  rcases Option.bind_eq_some_iff.mp translated with ⟨⟨sendoncePort, second⟩, extracted, ⟨⟩⟩
  rcases Task.holds_allocate allocated with ⟨unused, holdsFirst⟩
  rcases Task.holds_extractSendOnce extracted with ⟨unusedOnce, holdsSecond⟩
  have notNew : name ≠ newport := by
    rintro rfl
    cases unused.symm.trans inUse
  have notOnce : name ≠ word := by
    rintro rfl
    rw [holdsFirst, if_neg notNew] at unusedOnce
    cases unusedOnce.symm.trans inUse
  simp [account, holdsSecond, notOnce, holdsFirst, notNew, Names.linkOnce]

/-- A name in use that has no type stays as it is. -/
theorem account_of_untyped {type : TypeName} {name : Port}
    (isConsistent : session.names.ConsistentBut machPortNull) (received : type.Received)
    (knows : session.Knows (type, port)) (untyped : session.names.localPortType name = none)
    (inUse : (session.task.holds name).inUse = true)
    (translated : session.translatePort2 port type = some (word, next)) :
    next.account name = session.account name := by
  by_cases isNothing : port.Nothing
  · rw [(translatePort2_nothing isNothing translated).2]
  · have notWord : session.names.localPortType word ≠ none ∨
        (session.task.holds word).inUse = false → name ≠ word := by
      rintro (typed | unused) rfl
      · exact typed untyped
      · cases unused.symm.trans inUse
    by_cases isSend : type = .moveSend
    · subst isSend
      rcases account_translatePort2 (.inl rfl) isNothing translated with ⟨_, _, becomes⟩
      rw [becomes name, if_neg (notWord (known_of_translateSend isNothing knows translated))]
    · by_cases isReceive : type = .moveReceive
      · subst isReceive
        rcases account_translatePort2 (.inr rfl) isNothing translated with ⟨_, _, becomes⟩
        have isKnown := known_of_translateReceive isConsistent isNothing translated
        rw [becomes name, if_neg (notWord isKnown)]
      · rcases translatePort2_other isNothing received isSend isReceive translated with rfl | once
        · rfl
        · exact account_translateSendOnce inUse once

theorem CanReach.translatePort2 {localType : Option TypeName} {type : TypeName} {name : Port}
    (canReach : session.CanReach localType name)
    (isConsistent : session.names.ConsistentBut machPortNull) (received : type.Received)
    (knows : session.Knows (type, port))
    (translated : session.translatePort2 port type = some (word, next)) :
    next.CanReach localType name := by
  have grows := grows_translatePort2 translated
  cases canReach with
  | copies typed held => exact .copies (grows.type name typed) (held.trans_le (grows.send name))
  | moves isSend held => exact .moves isSend (held.trans_le (grows.send name))
  | once isOnce untyped held =>
      have inUse : (session.task.holds name).inUse = true := by
        simp [Holding.inUse, Holding.live, held]
      have same := account_of_untyped isConsistent received knows untyped inUse translated
      refine .once isOnce ?_ ?_
      · exact (congrArg Account.type same).trans untyped
      · exact (congrArg (fun account => account.holding.sendOnce) same).trans held

theorem AllOwe.handleNoSenders (owes : session.AllOwe [])
    (handled : session.handleNoSenders port = some next) : next.AllOwe [] := by
  rcases handleNoSenders_cases handled with ⟨_, rfl⟩ | ⟨typed, task, _, isTask, rfl⟩
  · exact owes
  · refine owes.forgets (forgets_unlinkIfLinked fun other different => ?_) ?_
    · rw [Task.holds_dropSend, if_neg different, isTask, Task.holds_getD_requestDeadName,
        if_neg different]
    · intro notFirst something isOnce
      exact absurd (owes.notOnce notFirst something (by simp [typed])) isOnce

theorem AllOwe.handleDeadName (owes : session.AllOwe [])
    (handled : session.handleDeadName port = some next) : next.AllOwe [] := by
  rcases handleDeadName_cases handled with ⟨_, rfl⟩ | ⟨typed, rfl⟩
  · exact owes
  · refine owes.forgets (forgets_unlinkIfLinked fun other different => ?_) ?_
    · rw [Task.holds_destroyReceive, if_neg different]
    · intro notFirst something isOnce
      exact absurd (owes.notOnce notFirst something (by simp [typed])) isOnce

/-- What the translation of every right of a message keeps, that of the message keeps. -/
theorem translateMessage_rights (invariant : Session → Prop) {message translated : Message}
    {translatePortNames : Bool}
    (kept : ∀ {before port type word after}, (type, port) ∈ message.rights → invariant before →
      before.translatePort2 port type = some (word, after) → invariant after)
    (initially : invariant session)
    (isTranslated : session.translateMessage message translatePortNames = some (translated, next)) :
    invariant next := by
  rcases Option.bind_eq_some_iff.mp isTranslated with ⟨⟨body, _⟩, traversed, ⟨⟩⟩
  refine Loop.traverse_invariant invariant ?_ initially traversed
  intro item itemMem before result after holds itemDone
  rcases translateItem_cases itemDone with ⟨_, _, rfl⟩ | ⟨ports, portsDone, _⟩
  · exact holds
  · refine Loop.traverse_invariant invariant ?_ holds portsDone
    intro port portMem middle word later
    apply kept
    exact List.mem_flatMap.mpr ⟨item, itemMem, List.mem_map_of_mem portMem⟩

/-- A number in our name space is translated to the name that it stands for. -/
theorem word_of_flagged {type : TypeName} (something : ¬port.Nothing) (flagged : port.flagged = true)
    (translated : session.translatePort2 port type = some (word, next)) : word = ~~~port := by
  have isPort : ¬(port = machPortNull ∨ port = machPortDead) := something
  unfold translatePort2 at translated
  rw [if_neg isPort, if_pos flagged] at translated
  rcases Option.bind_eq_some_iff.mp translated with ⟨_, _, ⟨⟩⟩
  rfl

theorem grows_translateMessage {message translated : Message} {translatePortNames : Bool}
    (isTranslated : session.translateMessage message translatePortNames = some (translated, next)) :
    Grows session next :=
  translateMessage_invariant (Grows session)
    (fun grows done => grows.trans (grows_translatePort2 done)) (grows_refl session) isTranslated

/-- The translation of a right that nothing is owed for -/
theorem Owing.translateHarmless {type : TypeName} (owing : session.Owing [])
    (received : type.Received) (knows : session.Knows (type, port))
    (harmless : session.Harmless (type, port))
    (translated : session.translatePort2 port type = some (word, next)) : next.Owing [] := by
  have owed := owing.translatePort2 knows received translated
  have sameFirst := (translatePort2_cases translated).2.firstPort
  refine ⟨fun other notFirst something => ?_, owed.isConsistent, owed.supplied⟩
  have owe := owed.owes other notFirst something
  by_cases isNothing : port.Nothing
  · rw [(translatePort2_nothing isNothing translated).1] at owe
    have different : other ≠ port := by
      rintro rfl
      exact something isNothing
    rwa [count_right_of_name [] different, count_right_of_name [] different] at owe
  · rcases harmless with isNothingElse | ⟨notSend, notReceive⟩ | ⟨flagged, isFirst⟩
    · exact absurd isNothingElse isNothing
    · rwa [count_right_of_type [] notSend.symm, count_right_of_type [] notReceive.symm] at owe
    · have isWord : word = session.firstPort :=
        (word_of_flagged isNothing flagged translated).trans isFirst
      have different : other ≠ word := by
        rw [isWord, ← sameFirst]
        exact notFirst
      rwa [count_right_of_name [] different, count_right_of_name [] different] at owe

/-- What is kept while the rights of a message are translated that is not sent by IPC -/
theorem Owing.translateHarmlessMessage {message translated : Message} {translatePortNames : Bool}
    (owing : session.Owing []) (allKnown : session.AllKnown message.rights)
    (harmless : ∀ right ∈ message.rights, session.Harmless right)
    (isTranslated : session.translateMessage message translatePortNames = some (translated, next)) :
    next.Owing [] := by
  refine (translateMessage_rights (fun middle => middle.Owing [] ∧ middle.AllKnown message.rights ∧
    middle.firstPort = session.firstPort) ?_ ⟨owing, allKnown, rfl⟩ isTranslated).1
  rintro before port type word after rightMem ⟨owing, allKnown, sameFirst⟩ done
  rcases allKnown _ rightMem with ⟨received, knows⟩
  have isHarmless : before.Harmless (type, port) := by
    rw [Harmless, sameFirst]
    exact harmless _ rightMem
  refine ⟨owing.translateHarmless received knows isHarmless done, ?_, ?_⟩
  · exact allKnown.grows (grows_translatePort2 done)
  · exact (translatePort2_cases done).2.firstPort.trans sameFirst

theorem keeps_translateMessage {message translated : Message} {translatePortNames : Bool}
    (isTranslated : session.translateMessage message translatePortNames = some (translated, next))
    (remote known : Port) (linked : session.names.localPortsByRemote remote = some known) :
    next.names.localPortsByRemote remote = some known :=
  translateMessage_invariant (fun middle => middle.names.localPortsByRemote remote = some known)
    (fun holds done => (translatePort2_cases done).1.keeps holds) linked isTranslated

/-- What a message that is delivered relies on stays while its rights are translated. -/
theorem Delivers.translateMessage {message addressed translated : Message} {translatePortNames : Bool}
    (owing : session.Owing []) (allKnown : session.AllKnown message.rights)
    (delivers : session.Delivers message addressed)
    (isRight : message.localType = some .moveSend ∨ message.localType = some .moveSendOnce)
    (isTranslated : session.translateMessage message translatePortNames = some (translated, next)) :
    next.CanReach message.localType addressed.localPort := by
  have sameType := delivers.found.same.2.2.2.2
  have canReach : session.CanReach message.localType addressed.localPort := by
    rw [← sameType] at isRight ⊢
    exact (canReach_iff isRight).mp delivers.canSend
  have kept := translateMessage_rights (fun middle =>
    middle.names.ConsistentBut machPortNull ∧ middle.names.Supplied middle.task.fresh ∧
      middle.AllKnown message.rights ∧ middle.CanReach message.localType addressed.localPort) ?_
    ⟨owing.isConsistent, owing.supplied, allKnown, canReach⟩ isTranslated
  · exact kept.2.2.2
  · rintro before port type word after rightMem ⟨isConsistent, supplied, allKnown, canReach⟩ done
    rcases allKnown _ rightMem with ⟨received, knows⟩
    rcases isConsistent.translates supplied (translatePort2_cases done).1 with
      ⟨afterConsistent, afterSupplied⟩
    refine ⟨afterConsistent, afterSupplied, allKnown.grows (grows_translatePort2 done), ?_⟩
    exact canReach.translatePort2 isConsistent received knows done

/-- The destination is the same once the body has been translated. -/
theorem Addresses.sameDestination {message addressed : Message} {body : List Item}
    {result : Option Message} (found : session.Addresses message (some addressed))
    (sameFirst : next.firstPort = session.firstPort)
    (keeps : ∀ remote known, session.names.localPortsByRemote remote = some known →
      next.names.localPortsByRemote remote = some known)
    (foundNext : next.Addresses { message with body := body } result) :
    ∃ other, result = some other ∧ other.localPort = addressed.localPort := by
  cases found with
  | first isControl =>
      cases foundNext with
      | first => exact ⟨_, rfl, sameFirst⟩
      | unknown notControl => exact absurd isControl notControl
      | linked notControl => exact absurd isControl notControl
      | asNumbered notControl => exact absurd isControl notControl
  | linked notControl translate linked =>
      have stillLinked := keeps _ _ linked
      cases foundNext with
      | first isControl => exact absurd isControl notControl
      | unknown _ _ unlinked => cases unlinked.symm.trans stillLinked
      | linked _ _ linkedNext =>
          cases stillLinked.symm.trans linkedNext
          exact ⟨_, rfl, rfl⟩
      | asNumbered _ noTranslate => cases translate.symm.trans noTranslate
  | asNumbered notControl noTranslate =>
      cases foundNext with
      | first isControl => exact absurd isControl notControl
      | unknown _ translate => cases translate.symm.trans noTranslate
      | linked _ translate => cases translate.symm.trans noTranslate
      | asNumbered => exact ⟨_, rfl, rfl⟩

/-- The rights leave with the message, or there are none. -/
theorem AllOwe.sends {addressed : Message} (owes : session.AllOwe addressed.carried)
    (isRight : addressed.localType = some .moveSend ∨ addressed.localType = some .moveSendOnce)
    (leaves : session.CanReach addressed.localType addressed.localPort ∨ session.AllOwe []) :
    Session.AllOwe { session with task := session.task.machMsg (session.swapHeader addressed) } [] := by
  by_cases canSend : session.task.canSend (session.swapHeader addressed).remoteType
      addressed.localPort = true
  · exact owes.machMsg isRight canSend
  · have same : session.task.machMsg (session.swapHeader addressed) = session.task := by
      rw [Task.machMsg]
      exact if_neg canSend
    rw [same]
    rcases leaves with canReach | nothingOwed
    · exact absurd ((canReach_iff isRight).mpr canReach) canSend
    · exact nothingOwed

theorem mem_carried {message : Message} {right : TypeName × Port} (isIn : right ∈ message.rights) :
    right ∈ message.carried := by
  rw [Message.carried]
  cases message.remoteType with
  | none => exact isIn
  | some type => exact List.mem_cons_of_mem _ isIn

/-- After a message from the network that may be sent on, nothing is owed to the names of the task. -/
theorem Owing.tcpBufferHandler {message : Message} {sent : Option Message} (owing : session.Owing [])
    (allKnown : session.AllKnown message.carried)
    (delivered : (∃ addressed, session.Delivers message addressed) ∨
      ∀ right ∈ message.carried, session.Harmless right)
    (handled : session.tcpBufferHandler message = some (sent, next)) : next.AllOwe [] := by
  have bodyKnown : session.AllKnown message.rights := fun right isIn => allKnown right (mem_carried isIn)
  rcases tcpBufferHandler_cases handled with
    ⟨translated, middle, result, headed, isTranslated, isHeaded, -, rfl⟩
  have middleOwing := owing.translateMessage bodyKnown isTranslated
  have whenHarmless : (∀ right ∈ message.carried, session.Harmless right) → middle.Owing [] :=
    fun harmless => owing.translateHarmlessMessage bodyKnown
      (fun right isIn => harmless right (mem_carried isIn)) isTranslated
  have grows := grows_translateMessage isTranslated
  have sameFirst := (sameOwn_translateMessage isTranslated).firstPort
  rcases translateHeader_cases isHeaded with ⟨isRight, heads⟩
  have canReach : ∀ {addressed : Message}, session.Delivers message addressed →
      (message.localType = some .moveSend ∨ message.localType = some .moveSendOnce) →
      middle.CanReach message.localType addressed.localPort :=
    fun delivers isRight => delivers.translateMessage owing bodyKnown isRight isTranslated
  have keeps := keeps_translateMessage isTranslated
  rcases Option.bind_eq_some_iff.mp isTranslated with ⟨⟨body, _⟩, _, ⟨⟩⟩
  have leaves : ∀ {addressed : Message},
      middle.Addresses { message with body := body } (some addressed) →
        addressed.localType = message.localType →
        (message.localType = some .moveSend ∨ message.localType = some .moveSendOnce) →
          middle.CanReach addressed.localType addressed.localPort ∨
            ∀ right ∈ message.carried, session.Harmless right := by
    intro addressed found sameLocal isRight
    rcases delivered with ⟨expected, isDelivered⟩ | harmless
    · rcases isDelivered.found.sameDestination sameFirst keeps found with ⟨_, ⟨⟩, same⟩
      rw [sameLocal, same]
      exact .inl (canReach isDelivered isRight)
    · exact .inr harmless
  cases heads with
  | discard found =>
      rcases delivered with ⟨addressed, isDelivered⟩ | harmless
      · rcases isDelivered.found.sameDestination sameFirst keeps found with ⟨_, ⟨⟩, _⟩
      · exact (whenHarmless harmless).owes
  | noSenders found isNoSenders handled =>
      rcases delivered with ⟨addressed, isDelivered⟩ | harmless
      · exact absurd isNoSenders isDelivered.notNoSenders
      · exact (whenHarmless harmless).owes.handleNoSenders handled
  | deadName found isDeadName toFirst named handled =>
      rcases delivered with ⟨addressed, isDelivered⟩ | harmless
      · rcases isDelivered.found.sameDestination sameFirst keeps found with ⟨_, ⟨⟩, same⟩
        exact absurd ⟨isDeadName, same.symm.trans (toFirst.trans sameFirst)⟩ isDelivered.notDeadName
      · exact (whenHarmless harmless).owes.handleDeadName handled
  | @noReply addressed found notNoSenders notDeadName noReply isNull =>
      rcases found.same with ⟨_, sameBody, sameType, _, sameLocal⟩
      have carried : addressed.carried = Message.rights { message with body := body } := by
        have isNone : addressed.remoteType = none := sameType.trans noReply
        simp only [Message.carried, isNone, Message.rights, sameBody]
      apply AllOwe.sends (carried ▸ middleOwing.owes)
      · rw [sameLocal]
        exact isRight
      · exact (leaves found sameLocal isRight).imp_right fun harmless => (whenHarmless harmless).owes
  | @reply addressed type port _ found notNoSenders notDeadName replyType isReply isDone =>
      rcases found.same with ⟨_, sameBody, sameType, _, sameLocal⟩
      have isCarried : (type, message.remotePort) ∈ message.carried := by
        have isType : message.remoteType = some type := replyType
        rw [Message.carried, isType]
        exact List.mem_cons_self
      rcases allKnown _ isCarried with ⟨received, knows⟩
      have knowsThere : middle.Knows (type, message.remotePort) := knows.grows grows
      have replyOwing := middleOwing.translatePort2 knowsThere received isDone
      have carried : Message.carried { addressed with remotePort := port } =
          (type, port) :: Message.rights { message with body := body } := by
        have isType : addressed.remoteType = some type := sameType.trans replyType
        simp only [Message.carried, isType, Message.rights, sameBody]
      apply AllOwe.sends (carried ▸ replyOwing.owes)
      · rw [sameLocal]
        exact isRight
      · rcases leaves found sameLocal isRight with canReach | harmless
        · exact .inl (canReach.translatePort2 middleOwing.isConsistent received knowsThere isDone)
        · have isHarmless : middle.Harmless (type, message.remotePort) := by
            rw [Harmless, sameFirst]
            exact harmless _ isCarried
          exact .inr ((whenHarmless harmless).translateHarmless received knowsThere isHarmless isDone).owes

/-- The translation of harmless rights makes no proxy. -/
theorem unlinked_translateMessage {message translated : Message} {translatePortNames : Bool}
    {remote : Port} (allKnown : session.AllKnown message.rights)
    (harmless : ∀ right ∈ message.rights, session.Harmless right)
    (unlinked : session.names.localPortsByRemote remote = none)
    (isTranslated : session.translateMessage message translatePortNames = some (translated, next)) :
    next.names.localPortsByRemote remote = none := by
  refine translateMessage_rights (fun middle => middle.names.localPortsByRemote remote = none) ?_
    unlinked isTranslated
  intro before port type word after rightMem unlinked done
  have received := (allKnown _ rightMem).1
  have isHarmless := harmless _ rightMem
  refine (translatePort2_cases done).1.unlinked received ?_ unlinked
  intro something unflagged
  rcases harmless _ rightMem with isNothing | others | ⟨flagged, _⟩
  · exact absurd isNothing something
  · exact others
  · cases unflagged.symm.trans flagged

/-- After a message that goes no further, nothing is owed if none of its rights does anything. -/
theorem Owing.consumes {message : Message} {sent : Option Message} (owing : session.Owing [])
    (allKnown : session.AllKnown message.rights)
    (harmless : ∀ right ∈ message.rights, session.Harmless right)
    (consumes : session.Consumes message)
    (handled : session.tcpBufferHandler message = some (sent, next)) : next.AllOwe [] := by
  rcases tcpBufferHandler_cases handled with
    ⟨translated, middle, result, headed, isTranslated, isHeaded, -, rfl⟩
  have nothingOwed := (owing.translateHarmlessMessage allKnown harmless isTranslated).owes
  have sameFirst := (sameOwn_translateMessage isTranslated).firstPort
  have keeps := keeps_translateMessage isTranslated
  have staysUnlinked : ∀ {remote}, session.names.localPortsByRemote remote = none →
      middle.names.localPortsByRemote remote = none :=
    fun unlinked => unlinked_translateMessage allKnown harmless unlinked isTranslated
  rcases Option.bind_eq_some_iff.mp isTranslated with ⟨⟨body, _⟩, _, ⟨⟩⟩
  have notSent : ∀ {addressed : Message},
      middle.Addresses { message with body := body } (some addressed) → message.id ≠ msgidNoSenders →
      ¬(message.id = msgidDeadName ∧ addressed.localPort = middle.firstPort) → False := by
    intro addressed found notNoSenders notDeadName
    cases consumes with
    | unknown notControl translate unlinked =>
        cases found with
        | first isControl => exact notControl isControl
        | linked _ _ linked => cases (staysUnlinked unlinked).symm.trans linked
        | asNumbered _ noTranslate => cases translate.symm.trans noTranslate
    | noSenders isNoSenders => exact notNoSenders isNoSenders
    | deadName foundBefore isDeadName toFirst =>
        rcases foundBefore.sameDestination sameFirst keeps found with ⟨_, ⟨⟩, same⟩
        exact notDeadName ⟨isDeadName, (same.trans toFirst).trans sameFirst.symm⟩
  cases (translateHeader_cases isHeaded).2 with
  | discard => exact nothingOwed
  | noSenders _ _ handled => exact nothingOwed.handleNoSenders handled
  | deadName _ _ _ _ handled => exact nothingOwed.handleDeadName handled
  | noReply found notNoSenders notDeadName => exact (notSent found notNoSenders notDeadName).elim
  | reply found notNoSenders notDeadName => exact (notSent found notNoSenders notDeadName).elim

end Session

end Hurd.Netmsg
