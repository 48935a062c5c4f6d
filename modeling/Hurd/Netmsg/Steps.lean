import Hurd.Netmsg.Handlers

/-!
# What the translation of one number does

Both translations go through the body of a message number by number.  `Names.Transmits` and
`Names.Translates` list what one number can do to the maps of a session; the supply of fresh
names that the kernel hands out is threaded through the second.  Nothing here looks at the
rights of the task, which no map depends on.
-/

namespace Hurd.Netmsg

/-- An `assert` that has not failed holds. -/
theorem of_guard {asserted : Prop} [Decidable asserted] {passed : Unit}
    (isPassed : (guard asserted : Option Unit) = some passed) : asserted := by
  simpa using isPassed

/-- An item of this type carries rights. -/
def TypeName.isRight : TypeName → Bool
  | .portName => false
  | .data => false
  | .moveReceive => true
  | .moveSend => true
  | .moveSendOnce => true
  | .copySend => true
  | .makeSend => true
  | .makeSendOnce => true

/-- The number stands for no port. -/
def Port.Nothing (port : Port) : Prop :=
  port = machPortNull ∨ port = machPortDead

instance (port : Port) : Decidable port.Nothing :=
  inferInstanceAs (Decidable (_ ∨ _))

theorem Port.something_of_not_flagged {port : Port} (unflagged : port.flagged = false)
    (notNull : port ≠ machPortNull) : ¬port.Nothing := by
  rintro (isNull | isDead)
  · exact notNull isNull
  · exact Port.not_dead_of_not_flagged unflagged isDead

theorem Port.flagged_not_of_not_flagged {port : Port} (unflagged : port.flagged = false) :
    Port.flagged (~~~port) = true := by
  rw [Port.flagged_not, unflagged, Bool.not_false]

/-- `translateForTransmission` replaces one number by another. -/
inductive Names.Transmits (names : Names) : TypeName → Port → Port → Names → Prop
  | nothing {type : TypeName} {port : Port} (isNothing : port.Nothing) :
      Transmits names type port port names
  | proxySend {port remote : Port} (something : ¬port.Nothing)
      (linked : names.remotePortsByLocal port = some remote)
      (typed : names.localPortType port = some .receive) :
      Transmits names .moveSend port (~~~remote) names
  | ownSend {port : Port} (something : ¬port.Nothing)
      (unlinked : names.remotePortsByLocal port = none) :
      Transmits names .moveSend port port (names.setType port .send)
  | proxyReceive {port remote : Port} (something : ¬port.Nothing)
      (linked : names.remotePortsByLocal port = some remote)
      (typed : names.localPortType port = some .send) :
      Transmits names .moveReceive port (~~~remote) (names.setType port .receive)
  | ownReceive {port : Port} (something : ¬port.Nothing)
      (unlinked : names.remotePortsByLocal port = none) :
      Transmits names .moveReceive port port (names.setType port .receive)

/-- The transmission of a right leaves the proxies as they are. -/
theorem Names.Transmits.sameLinks {names next : Names} {type : TypeName} {port word : Port}
    (transmitted : names.Transmits type port word next) :
    next.remotePortsByLocal = names.remotePortsByLocal ∧
      next.localPortsByRemote = names.localPortsByRemote := by
  cases transmitted <;> exact ⟨rfl, rfl⟩

/-- The transmission of a right leaves the send-once rights as they are. -/
theorem Names.Transmits.sameOnce {names next : Names} {type : TypeName} {port word : Port}
    (transmitted : names.Transmits type port word next) :
    next.sendOncePortsByRemote = names.sendOncePortsByRemote ∧
      next.sendOncePortsByLocal = names.sendOncePortsByLocal := by
  cases transmitted <;> exact ⟨rfl, rfl⟩

/-- `translatePort2` replaces one number by another, taking names from the kernel. -/
inductive Names.Translates (names : Names) (fresh : List Port) :
    TypeName → Port → Port → Names → List Port → Prop
  | nothing {type : TypeName} {port : Port} (isNothing : port.Nothing) :
      Translates names fresh type port port names fresh
  | returnedSend {port : Port} (something : ¬port.Nothing) (flagged : port.flagged = true) :
      Translates names fresh .moveSend port (~~~port) (names.touchType (~~~port)) fresh
  | returnedReceive {port : Port} (something : ¬port.Nothing) (flagged : port.flagged = true)
      (typed : names.localPortType (~~~port) = some .receive) :
      Translates names fresh .moveReceive port (~~~port) (names.setType (~~~port) .send) fresh
  | returnedName {port : Port} (something : ¬port.Nothing) (flagged : port.flagged = true) :
      Translates names fresh .portName port (~~~port) names fresh
  | knownReceive {port localport : Port} (something : ¬port.Nothing)
      (unflagged : port.flagged = false)
      (known : names.localPortsByRemote port = some localport)
      (typed : names.localPortType localport ≠ some .send) :
      Translates names fresh .moveReceive port localport (names.setType localport .send) fresh
  | newReceive {port newport : Port} {rest : List Port} (something : ¬port.Nothing)
      (unflagged : port.flagged = false) (unknown : names.localPortsByRemote port = none)
      (supply : fresh = newport :: rest) :
      Translates names fresh .moveReceive port newport (names.link port newport .send) rest
  | knownSend {type : TypeName} {port newport : Port} (something : ¬port.Nothing)
      (unflagged : port.flagged = false)
      (isSend : type = .moveSend ∨ type = .copySend ∨ type = .makeSend)
      (known : names.localPortsByRemote port = some newport)
      (typed : names.localPortType newport = some .receive) :
      Translates names fresh type port newport names fresh
  | newSend {type : TypeName} {port newport : Port} {rest : List Port} (something : ¬port.Nothing)
      (unflagged : port.flagged = false)
      (isSend : type = .moveSend ∨ type = .copySend ∨ type = .makeSend)
      (unknown : names.localPortsByRemote port = none) (supply : fresh = newport :: rest) :
      Translates names fresh type port newport (names.link port newport .receive) rest
  | sendOnce {type : TypeName} {port newport sendoncePort : Port} {rest : List Port}
      (something : ¬port.Nothing) (unflagged : port.flagged = false)
      (isOnce : type = .moveSendOnce ∨ type = .makeSendOnce)
      (unknown : names.sendOncePortsByRemote port = none)
      (supply : fresh = newport :: sendoncePort :: rest) :
      Translates names fresh type port sendoncePort (names.linkOnce port newport) rest
  | name {port : Port} (something : ¬port.Nothing) (unflagged : port.flagged = false) :
      Translates names fresh .portName port
        ((names.localPortsByRemote port).getD machPortNull) names fresh

/-- What the maps have of a remote port or of a name, they keep while a right is translated. -/
theorem Names.Translates.grows {names next : Names} {fresh rest : List Port} {type : TypeName}
    {port word : Port} (translated : names.Translates fresh type port word next rest) :
    (∀ remote, names.localPortsByRemote remote ≠ none → next.localPortsByRemote remote ≠ none) ∧
      (∀ remote, names.sendOncePortsByRemote remote ≠ none →
        next.sendOncePortsByRemote remote ≠ none) ∧
      ∀ other, names.localPortType other ≠ none → next.localPortType other ≠ none := by
  have typed : ∀ (newport : Port) (newType : LocalType) (other : Port),
      names.localPortType other ≠ none →
      Function.update names.localPortType newport (some newType) other ≠ none := by
    intro newport newType other isTyped
    by_cases same : other = newport
    · simp [same]
    · rwa [Function.update_of_ne same]
  have linked : ∀ (map : Port → Option Port) (newport other : Port), map other ≠ none →
      Function.update map port (some newport) other ≠ none := by
    intro map newport other isLinked
    by_cases same : other = port
    · simp [same]
    · rwa [Function.update_of_ne same]
  cases translated with
  | nothing => exact ⟨fun _ => id, fun _ => id, fun _ => id⟩
  | returnedSend => exact ⟨fun _ => id, fun _ => id, typed _ _⟩
  | returnedReceive => exact ⟨fun _ => id, fun _ => id, typed _ _⟩
  | returnedName => exact ⟨fun _ => id, fun _ => id, fun _ => id⟩
  | knownReceive => exact ⟨fun _ => id, fun _ => id, typed _ _⟩
  | newReceive => exact ⟨linked _ _, fun _ => id, typed _ _⟩
  | knownSend => exact ⟨fun _ => id, fun _ => id, fun _ => id⟩
  | newSend => exact ⟨linked _ _, fun _ => id, typed _ _⟩
  | sendOnce => exact ⟨fun _ => id, linked _ _, fun _ => id⟩
  | name => exact ⟨fun _ => id, fun _ => id, fun _ => id⟩

namespace Task

variable (task : Task) (name : Port)

@[simp]
theorem modify_fresh (change : Holding → Holding) : (task.modify name change).fresh = task.fresh :=
  rfl

@[simp]
theorem makeSend_fresh : (task.makeSend name).fresh = task.fresh := by
  rw [makeSend]
  split <;> rfl

@[simp]
theorem copySend_fresh : (task.copySend name).fresh = task.fresh := by
  rw [copySend]
  split <;> rfl

variable {task name}

theorem requestNoSenders_fresh {ask old : Bool} {next : Task}
    (requested : task.requestNoSenders name ask = some (old, next)) : next.fresh = task.fresh := by
  rw [requestNoSenders] at requested
  split at requested
  · cases requested
    rfl
  · cases requested

theorem requestDeadName_fresh {ask old : Bool} {next : Task}
    (requested : task.requestDeadName name ask = some (old, next)) : next.fresh = task.fresh := by
  rw [requestDeadName] at requested
  split at requested
  · cases requested
    rfl
  · cases requested

theorem allocate_fresh {next : Task} (allocated : task.allocate = some (name, next)) :
    task.fresh = name :: next.fresh := by
  rw [allocate] at allocated
  split at allocated
  · cases allocated
  · rename_i first rest supply
    split at allocated
    · cases allocated
    · cases allocated
      exact supply

theorem extractSendOnce_fresh {next : Task} (extracted : task.extractSendOnce = some (name, next)) :
    task.fresh = name :: next.fresh := by
  rw [extractSendOnce] at extracted
  split at extracted
  · cases extracted
  · rename_i first rest supply
    split at extracted
    · cases extracted
    · cases extracted
      exact supply

end Task

namespace Session

/-- The ports that a session has of its own are the same. -/
structure SameOwn (session next : Session) : Prop where
  control : next.control = session.control
  firstPort : next.firstPort = session.firstPort
  notificationPort : next.notificationPort = session.notificationPort

theorem SameOwn.refl (session : Session) : SameOwn session session := ⟨rfl, rfl, rfl⟩

theorem SameOwn.trans {session middle next : Session} (first : SameOwn session middle)
    (second : SameOwn middle next) : SameOwn session next :=
  ⟨second.control.trans first.control, second.firstPort.trans first.firstPort,
    second.notificationPort.trans first.notificationPort⟩

variable {session next : Session} {port word : Port}

theorem transmitSend_cases (transmitted : session.transmitSend port = some (word, next)) :
    session.names.Transmits .moveSend port word next.names ∧ SameOwn session next := by
  simp only [transmitSend] at transmitted
  split_ifs at transmitted with isNothing
  · cases transmitted
    exact ⟨.nothing isNothing, .refl session⟩
  · split at transmitted
    · rename_i remote linked
      rcases Option.bind_eq_some_iff.mp transmitted with ⟨_, typed, ⟨⟩⟩
      exact ⟨.proxySend isNothing linked (of_guard typed), ⟨rfl, rfl, rfl⟩⟩
    · rename_i unlinked
      cases transmitted
      exact ⟨.ownSend isNothing unlinked, ⟨rfl, rfl, rfl⟩⟩

theorem transmitReceive_cases (transmitted : session.transmitReceive port = some (word, next)) :
    session.names.Transmits .moveReceive port word next.names ∧ SameOwn session next := by
  simp only [transmitReceive] at transmitted
  split_ifs at transmitted with isNothing
  · cases transmitted
    exact ⟨.nothing isNothing, .refl session⟩
  · rcases Option.bind_eq_some_iff.mp transmitted with ⟨⟨old, task⟩, requested, transmitted⟩
    dsimp only at transmitted
    split at transmitted
    · rename_i remote linked
      rcases Option.bind_eq_some_iff.mp transmitted with ⟨_, typed, transmitted⟩
      rcases Option.bind_eq_some_iff.mp transmitted with ⟨_, _, ⟨⟩⟩
      exact ⟨.proxyReceive isNothing linked (of_guard typed), ⟨rfl, rfl, rfl⟩⟩
    · rename_i unlinked
      cases transmitted
      exact ⟨.ownReceive isNothing unlinked, ⟨rfl, rfl, rfl⟩⟩

theorem relayReceive_names (relayed : session.relayReceive port = some next) :
    next.names = session.names.setType port .send ∧ next.task.fresh = session.task.fresh ∧
      SameOwn session next := by
  rw [relayReceive] at relayed
  rcases Option.bind_eq_some_iff.mp relayed with ⟨⟨_, first⟩, cancelled, relayed⟩
  rcases Option.bind_eq_some_iff.mp relayed with ⟨⟨old, second⟩, requested, relayed⟩
  rcases Option.bind_eq_some_iff.mp relayed with ⟨_, _, ⟨⟩⟩
  refine ⟨rfl, ?_, ⟨rfl, rfl, rfl⟩⟩
  calc second.fresh = (first.makeSend port).fresh := Task.requestDeadName_fresh requested
    _ = first.fresh := Task.makeSend_fresh ..
    _ = session.task.fresh := Task.requestNoSenders_fresh cancelled

theorem translateFlagged_cases {type : TypeName} (something : ¬port.Nothing)
    (flagged : port.flagged = true)
    (translated : session.translateFlagged (~~~port) type = some next) :
    session.names.Translates session.task.fresh type port (~~~port) next.names next.task.fresh ∧
      SameOwn session next := by
  cases type with
  | moveSend =>
      cases translated
      refine ⟨?_, ⟨rfl, rfl, rfl⟩⟩
      have supply : (if session.names.localPortType (~~~port) = some .receive then
          session.task.makeSend (~~~port) else session.task.copySend (~~~port)).fresh =
          session.task.fresh := by
        split <;> simp
      rw [supply]
      exact .returnedSend something flagged
  | moveReceive =>
      rcases Option.bind_eq_some_iff.mp translated with ⟨_, typed, relayed⟩
      rcases relayReceive_names relayed with ⟨namesEq, supply, sameOwn⟩
      rw [namesEq, supply]
      exact ⟨.returnedReceive something flagged (of_guard typed), sameOwn⟩
  | portName =>
      cases translated
      exact ⟨.returnedName something flagged, .refl _⟩
  | moveSendOnce => cases translated
  | copySend => cases translated
  | makeSend => cases translated
  | makeSendOnce => cases translated
  | data => cases translated

theorem translateReceive_cases (something : ¬port.Nothing) (unflagged : port.flagged = false)
    (translated : session.translateReceive port = some (word, next)) :
    session.names.Translates session.task.fresh .moveReceive port word next.names
        next.task.fresh ∧ SameOwn session next := by
  rw [translateReceive] at translated
  split at translated
  · rename_i localport known
    rcases Option.bind_eq_some_iff.mp translated with ⟨_, typed, translated⟩
    rcases Option.bind_eq_some_iff.mp translated with ⟨_, relayed, ⟨⟩⟩
    rcases relayReceive_names relayed with ⟨namesEq, supply, sameOwn⟩
    rw [namesEq, supply]
    exact ⟨.knownReceive something unflagged known (of_guard typed), sameOwn⟩
  · rename_i unknown
    rcases Option.bind_eq_some_iff.mp translated with ⟨⟨newport, first⟩, allocated, translated⟩
    rcases Option.bind_eq_some_iff.mp translated with ⟨⟨old, second⟩, requested, translated⟩
    rcases Option.bind_eq_some_iff.mp translated with ⟨_, _, ⟨⟩⟩
    have supply : session.task.fresh = word :: second.fresh := by
      rw [Task.requestDeadName_fresh requested, Task.makeSend_fresh]
      exact Task.allocate_fresh allocated
    exact ⟨.newReceive something unflagged unknown supply, ⟨rfl, rfl, rfl⟩⟩

theorem translateSend_cases {type : TypeName} (something : ¬port.Nothing)
    (unflagged : port.flagged = false)
    (isSend : type = .moveSend ∨ type = .copySend ∨ type = .makeSend)
    (translated : session.translateSend port = some (word, next)) :
    session.names.Translates session.task.fresh type port word next.names next.task.fresh ∧
      SameOwn session next := by
  rw [translateSend] at translated
  split at translated
  · rename_i newport known
    rcases Option.bind_eq_some_iff.mp translated with ⟨_, typed, ⟨⟩⟩
    refine ⟨?_, ⟨rfl, rfl, rfl⟩⟩
    simp only [Task.makeSend_fresh]
    exact .knownSend something unflagged isSend known (of_guard typed)
  · rename_i unknown
    rcases Option.bind_eq_some_iff.mp translated with ⟨⟨newport, first⟩, allocated, translated⟩
    rcases Option.bind_eq_some_iff.mp translated with ⟨⟨old, second⟩, requested, translated⟩
    rcases Option.bind_eq_some_iff.mp translated with ⟨_, _, ⟨⟩⟩
    have supply : session.task.fresh = word :: second.fresh := by
      rw [Task.requestNoSenders_fresh requested, Task.makeSend_fresh]
      exact Task.allocate_fresh allocated
    exact ⟨.newSend something unflagged isSend unknown supply, ⟨rfl, rfl, rfl⟩⟩

theorem translateSendOnce_cases {type : TypeName} (something : ¬port.Nothing)
    (unflagged : port.flagged = false) (isOnce : type = .moveSendOnce ∨ type = .makeSendOnce)
    (translated : session.translateSendOnce port = some (word, next)) :
    session.names.Translates session.task.fresh type port word next.names next.task.fresh ∧
      SameOwn session next := by
  rw [translateSendOnce] at translated
  rcases Option.bind_eq_some_iff.mp translated with ⟨_, unknown, translated⟩
  rcases Option.bind_eq_some_iff.mp translated with ⟨⟨newport, first⟩, allocated, translated⟩
  rcases Option.bind_eq_some_iff.mp translated with ⟨⟨sendoncePort, second⟩, extracted, ⟨⟩⟩
  have supply : session.task.fresh = newport :: word :: second.fresh := by
    rw [Task.allocate_fresh allocated, Task.extractSendOnce_fresh extracted]
  exact ⟨.sendOnce something unflagged isOnce (of_guard unknown) supply, ⟨rfl, rfl, rfl⟩⟩

theorem translatePort2_cases {type : TypeName}
    (translated : session.translatePort2 port type = some (word, next)) :
    session.names.Translates session.task.fresh type port word next.names next.task.fresh ∧
      SameOwn session next := by
  unfold translatePort2 at translated
  split_ifs at translated with isNothing flagged
  · cases translated
    exact ⟨.nothing isNothing, .refl _⟩
  · rcases Option.bind_eq_some_iff.mp translated with ⟨_, translated, ⟨⟩⟩
    exact translateFlagged_cases isNothing flagged translated
  · have unflagged : port.flagged = false := by simpa using flagged
    cases type with
    | moveReceive => exact translateReceive_cases isNothing unflagged translated
    | copySend => exact translateSend_cases isNothing unflagged (.inr (.inl rfl)) translated
    | makeSend => exact translateSend_cases isNothing unflagged (.inr (.inr rfl)) translated
    | moveSend => exact translateSend_cases isNothing unflagged (.inl rfl) translated
    | makeSendOnce => exact translateSendOnce_cases isNothing unflagged (.inr rfl) translated
    | moveSendOnce => exact translateSendOnce_cases isNothing unflagged (.inl rfl) translated
    | portName =>
        cases translated
        exact ⟨.name isNothing unflagged, .refl _⟩
    | data => cases translated

theorem map_transmitName (session : Session) (ports : List Port) :
    ports.map (session.transmitName false) = ports :=
  List.map_id' ports

/-- An item is left as it is, or the rights in it are transmitted in turn. -/
theorem transmitItem_cases {translatePortNames : Bool} {item replaced : Item}
    (transmitted : transmitItem translatePortNames session item = some (replaced, next)) :
    (next = session ∧ (translatePortNames = false → replaced = item ∧
        item.name ≠ .moveSend ∧ item.name ≠ .moveReceive)) ∨
      ∃ (body : Session → Port → Option (Port × Session)) (ports : List Port),
        (∀ {before port word after}, body before port = some (word, after) →
          before.names.Transmits item.name port word after.names) ∧
        Loop.traverse body session item.ports = some (ports, next) ∧
        (translatePortNames = false → replaced = { item with ports := ports }) := by
  unfold transmitItem at transmitted
  split at transmitted
  · rename_i isSend
    rcases Option.bind_eq_some_iff.mp transmitted with ⟨⟨ports, _⟩, portsDone, ⟨⟩⟩
    rw [isSend]
    exact .inr ⟨transmitSend, ports, fun done => (transmitSend_cases done).1, portsDone,
      fun _ => rfl⟩
  · rename_i isReceive
    rcases Option.bind_eq_some_iff.mp transmitted with ⟨⟨ports, _⟩, portsDone, ⟨⟩⟩
    rw [isReceive]
    refine .inr ⟨transmitReceive, ports, fun done => (transmitReceive_cases done).1, portsDone, ?_⟩
    rintro rfl
    rw [map_transmitName]
  · rename_i isName
    cases transmitted
    refine .inl ⟨rfl, ?_⟩
    rintro rfl
    rw [map_transmitName]
    exact ⟨rfl, by simp [isName], by simp [isName]⟩
  all_goals
    rename_i isOther
    cases transmitted
    exact .inl ⟨rfl, fun _ => ⟨rfl, by simp [isOther], by simp [isOther]⟩⟩

/-- What `translateForTransmission` keeps, number by number. -/
theorem translateForTransmission_invariant (invariant : Session → Prop) {message sent : Message}
    {translatePortNames : Bool}
    (keptSend : ∀ {before port word after}, invariant before →
      before.transmitSend port = some (word, after) → invariant after)
    (keptReceive : ∀ {before port word after}, invariant before →
      before.transmitReceive port = some (word, after) → invariant after)
    (initially : invariant session)
    (translated : session.translateForTransmission message translatePortNames = some (sent, next)) :
    invariant next := by
  rcases Option.bind_eq_some_iff.mp translated with ⟨⟨body, last⟩, traversed, ⟨⟩⟩
  refine Loop.traverse_invariant invariant ?_ initially traversed
  intro item _ before result after holds itemDone
  unfold transmitItem at itemDone
  split at itemDone
  · rcases Option.bind_eq_some_iff.mp itemDone with ⟨⟨ports, _⟩, portsDone, ⟨⟩⟩
    exact Loop.traverse_invariant invariant (fun _ _ {_ _ _} => keptSend) holds portsDone
  · rcases Option.bind_eq_some_iff.mp itemDone with ⟨⟨ports, _⟩, portsDone, ⟨⟩⟩
    exact Loop.traverse_invariant invariant (fun _ _ {_ _ _} => keptReceive) holds portsDone
  all_goals
    cases itemDone
    exact holds

/-- An item is left as it is, or each of its elements is translated in turn. -/
theorem translateItem_cases {translatePortNames : Bool} {item replaced : Item}
    (translated : translateItem translatePortNames session item = some (replaced, next)) :
    ((item.name = .data ∨ (item.name = .portName ∧ translatePortNames = false)) ∧
        replaced = item ∧ next = session) ∨
      ∃ ports, Loop.traverse (fun session port => session.translatePort2 port item.name) session
          item.ports = some (ports, next) ∧ replaced = { item with ports := ports } := by
  unfold translateItem at translated
  split at translated
  · rename_i isData
    cases translated
    exact .inl ⟨.inl isData, rfl, rfl⟩
  · rename_i isName
    split_ifs at translated with translates
    · rcases Option.bind_eq_some_iff.mp translated with ⟨⟨ports, _⟩, portsDone, ⟨⟩⟩
      rw [isName]
      exact .inr ⟨ports, portsDone, rfl⟩
    · cases translated
      exact .inl ⟨.inr ⟨isName, by simpa using translates⟩, rfl, rfl⟩
  · rcases Option.bind_eq_some_iff.mp translated with ⟨⟨ports, _⟩, portsDone, ⟨⟩⟩
    exact .inr ⟨ports, portsDone, rfl⟩

/-- What `translateMessage` keeps, number by number. -/
theorem translateMessage_invariant (invariant : Session → Prop) {message addressed : Message}
    {translatePortNames : Bool}
    (kept : ∀ {before port type word after}, invariant before →
      before.translatePort2 port type = some (word, after) → invariant after)
    (initially : invariant session)
    (translated : session.translateMessage message translatePortNames = some (addressed, next)) :
    invariant next := by
  rcases Option.bind_eq_some_iff.mp translated with ⟨⟨body, last⟩, traversed, ⟨⟩⟩
  refine Loop.traverse_invariant invariant ?_ initially traversed
  intro item _ before result after holds itemDone
  rcases translateItem_cases itemDone with ⟨_, _, rfl⟩ | ⟨ports, portsDone, _⟩
  · exact holds
  · exact Loop.traverse_invariant invariant (fun _ _ {_ _ _} => kept) holds portsDone

theorem sameOwn_translateMessage {message addressed : Message} {translatePortNames : Bool}
    (translated : session.translateMessage message translatePortNames = some (addressed, next)) :
    SameOwn session next :=
  translateMessage_invariant (SameOwn session)
    (fun holds done => holds.trans (translatePort2_cases done).2) (.refl session) translated

/-- What the first half of `ipcBufferHandler` makes of a message. -/
inductive Routes (session : Session) (message : Message) : Routed → Prop
  | control (isControl : message.localPort = session.control) :
      Routes session message
        (.relay { message with localPort := machPortControl } machPortNull session)
  | unknownDeadName {deadName : Port} (notControl : message.localPort ≠ session.control)
      (notified : message.localPort = session.notificationPort)
      (isDeadName : message.id = msgidDeadName) (named : deadNameOf message = some deadName)
      (untyped : session.names.localPortType deadName = none) :
      Routes session message
        (.relay { message with localPort := machPortControl } deadName
          { session with task := session.task.dropDeadNames deadName })
  | deadName {deadName : Port} (notControl : message.localPort ≠ session.control)
      (notified : message.localPort = session.notificationPort)
      (isDeadName : message.id = msgidDeadName) (named : deadNameOf message = some deadName)
      (typed : session.names.localPortType deadName = some .send) :
      Routes session message
        (.relay { message with localPort := machPortControl } deadName
          { session with
            names := session.names.eraseType deadName
            task := session.task.dropDeadNames deadName })
  | notification (notControl : message.localPort ≠ session.control)
      (notified : message.localPort = session.notificationPort)
      (isOther : message.id = msgidPortDeleted ∨ message.id = msgidSendOnce) :
      Routes session message
        (.relay { message with localPort := machPortControl } machPortNull session)
  | proxy {remote : Port} (notControl : message.localPort ≠ session.control)
      (notNotified : message.localPort ≠ session.notificationPort)
      (linked : session.names.remotePortsByLocal message.localPort = some remote)
      (typed : session.names.localPortType message.localPort = some .receive) :
      Routes session message (.relay { message with localPort := remote } machPortNull session)
  | sendOnce {remote : Port} (notControl : message.localPort ≠ session.control)
      (notNotified : message.localPort ≠ session.notificationPort)
      (unlinked : session.names.remotePortsByLocal message.localPort = none)
      (linked : session.names.sendOncePortsByLocal message.localPort = some remote) :
      Routes session message
        (.relay { message with localPort := remote } machPortNull
          { session with
            names := session.names.unlinkOnce remote message.localPort
            task := session.task.destroyReceive message.localPort })
  | discard (notControl : message.localPort ≠ session.control)
      (notNotified : message.localPort ≠ session.notificationPort)
      (unlinked : session.names.remotePortsByLocal message.localPort = none)
      (unlinkedOnce : session.names.sendOncePortsByLocal message.localPort = none)
      (untyped : session.names.localPortType message.localPort = none) :
      Routes session message .discard
  | own (notControl : message.localPort ≠ session.control)
      (notNotified : message.localPort ≠ session.notificationPort)
      (unlinked : session.names.remotePortsByLocal message.localPort = none)
      (unlinkedOnce : session.names.sendOncePortsByLocal message.localPort = none)
      (typed : session.names.localPortType message.localPort = some .receive) :
      Routes session message
        (.relay { message with remoteTranslate := true } machPortNull session)
  | raw {type : LocalType} (notControl : message.localPort ≠ session.control)
      (notNotified : message.localPort ≠ session.notificationPort)
      (unlinked : session.names.remotePortsByLocal message.localPort = none)
      (unlinkedOnce : session.names.sendOncePortsByLocal message.localPort = none)
      (typed : session.names.localPortType message.localPort = some type)
      (notReceive : type ≠ .receive) :
      Routes session message (.relay message machPortNull session)

theorem route_cases {message : Message} {routed : Routed}
    (isRouted : session.route message = some routed) : Routes session message routed := by
  unfold route at isRouted
  split_ifs at isRouted with isControl notified isDeadName isDeleted isOnce
  · cases isRouted
    exact .control isControl
  · rcases Option.bind_eq_some_iff.mp isRouted with ⟨deadName, named, isRouted⟩
    dsimp only at isRouted
    split at isRouted
    · rename_i untyped
      cases isRouted
      exact .unknownDeadName isControl notified isDeadName named untyped
    · rename_i type typed
      rcases Option.bind_eq_some_iff.mp isRouted with ⟨_, isSend, ⟨⟩⟩
      rw [of_guard isSend] at typed
      exact .deadName isControl notified isDeadName named typed
  · cases isRouted
    exact .notification isControl notified (.inl isDeleted)
  · cases isRouted
    exact .notification isControl notified (.inr isOnce)
  · split at isRouted
    · rename_i remote linked
      rcases Option.bind_eq_some_iff.mp isRouted with ⟨_, typed, ⟨⟩⟩
      exact .proxy isControl notified linked (of_guard typed)
    · rename_i unlinked
      split at isRouted
      · rename_i remote linked
        cases isRouted
        exact .sendOnce isControl notified unlinked linked
      · rename_i unlinkedOnce
        split at isRouted
        · rename_i untyped
          cases isRouted
          exact .discard isControl notified unlinked unlinkedOnce untyped
        · rename_i typed
          cases isRouted
          exact .own isControl notified unlinked unlinkedOnce typed
        · rename_i typed
          cases isRouted
          exact .raw isControl notified unlinked unlinkedOnce typed (by decide)
        · rename_i typed
          cases isRouted
          exact .raw isControl notified unlinked unlinkedOnce typed (by decide)

theorem releaseNoSenders_cases {id : ℕ} (released : session.releaseNoSenders id port = some next) :
    (id ≠ msgidNoSenders ∧ next = session) ∨
      (id = msgidNoSenders ∧ session.names.localPortType port = some .receive ∧
        next = { session with
          names := (session.names.eraseType port).unlink port
          task := session.task.destroyReceive port }) := by
  unfold releaseNoSenders at released
  split_ifs at released with isNoSenders
  · rcases Option.bind_eq_some_iff.mp released with ⟨_, typed, ⟨⟩⟩
    exact .inr ⟨isNoSenders, of_guard typed, rfl⟩
  · cases released
    exact .inl ⟨isNoSenders, rfl⟩

theorem ipcBufferHandler_cases {message : Message} {sent : Option Message}
    (handled : session.ipcBufferHandler message = some (sent, next)) :
    (Routes session message .discard ∧ sent = none ∧ next = session) ∨
      ∃ relayed deadName routed released written translated,
        Routes session message (.relay relayed deadName routed) ∧
        routed.releaseNoSenders relayed.id message.localPort = some released ∧
        released.translateForTransmission relayed (decide (deadName ≠ machPortNull)) =
          some (written, translated) ∧
        sent = some written ∧ next = translated.forgetDeadName deadName := by
  rcases Option.bind_eq_some_iff.mp handled with ⟨routed, isRouted, handled⟩
  cases routed with
  | discard =>
      cases handled
      exact .inl ⟨route_cases isRouted, rfl, rfl⟩
  | relay relayed deadName routed =>
      rcases Option.bind_eq_some_iff.mp handled with ⟨released, isReleased, handled⟩
      rcases Option.bind_eq_some_iff.mp handled with ⟨⟨written, translated⟩, isTranslated, ⟨⟩⟩
      exact .inr ⟨relayed, deadName, routed, released, written, translated, route_cases isRouted,
        isReleased, isTranslated, rfl, rfl⟩

theorem ipcBufferHandler_of_relay {message relayed sent : Message} {deadName : Port}
    {routed released translated : Session}
    (isRouted : session.route message = some (.relay relayed deadName routed))
    (isReleased : routed.releaseNoSenders relayed.id message.localPort = some released)
    (isTranslated : released.translateForTransmission relayed (decide (deadName ≠ machPortNull)) =
      some (sent, translated)) :
    session.ipcBufferHandler message = some (some sent, translated.forgetDeadName deadName) := by
  simp only [ipcBufferHandler, isRouted, isReleased, isTranslated, Option.bind_eq_bind,
    Option.bind_some]

/-- Where `translateHeader` finds the destination of a message. -/
inductive Addresses (session : Session) (message : Message) : Option Message → Prop
  | first (isControl : message.localPort = machPortControl) :
      Addresses session message (some { message with localPort := session.firstPort })
  | unknown (notControl : message.localPort ≠ machPortControl)
      (translate : message.remoteTranslate = true)
      (unlinked : session.names.localPortsByRemote message.localPort = none) :
      Addresses session message none
  | linked {port : Port} (notControl : message.localPort ≠ machPortControl)
      (translate : message.remoteTranslate = true)
      (linked : session.names.localPortsByRemote message.localPort = some port)
      (typed : session.names.localPortType port = some .send) :
      Addresses session message (some { message with localPort := port, remoteTranslate := false })
  | asNumbered (notControl : message.localPort ≠ machPortControl)
      (noTranslate : message.remoteTranslate = false) :
      Addresses session message (some message)

theorem translateDestination_cases {message : Message} {addressed : Option Message}
    (found : session.translateDestination message = some addressed) :
    Addresses session message addressed := by
  unfold translateDestination at found
  split_ifs at found with isControl translate
  · cases found
    exact .first isControl
  · split at found
    · rename_i unlinked
      cases found
      exact .unknown isControl translate unlinked
    · rename_i port linked
      rcases Option.bind_eq_some_iff.mp found with ⟨_, typed, ⟨⟩⟩
      exact .linked isControl translate linked (of_guard typed)
  · cases found
    exact .asNumbered isControl (by simpa using translate)

theorem handleNoSenders_cases (handled : session.handleNoSenders port = some next) :
    (session.names.localPortType port = none ∧ next = session) ∨
      (session.names.localPortType port = some .send ∧
        ∃ task : Task, task.fresh = session.task.fresh ∧
          task = ((session.task.requestDeadName port false).map Prod.snd).getD session.task ∧
          next = { session with
            names := (session.names.eraseType port).unlinkIfLinked port
            task := task.dropSend port }) := by
  unfold handleNoSenders at handled
  split at handled
  · rename_i untyped
    cases handled
    exact .inl ⟨untyped, rfl⟩
  · rename_i type typed
    rcases Option.bind_eq_some_iff.mp handled with ⟨_, isSend, ⟨⟩⟩
    rw [of_guard isSend] at typed
    refine .inr ⟨typed, _, ?_, ?_, rfl⟩
    · split
      · rfl
      · rename_i requested
        exact Task.requestDeadName_fresh requested
    · cases session.task.requestDeadName port false <;> rfl

theorem handleDeadName_cases (handled : session.handleDeadName port = some next) :
    (session.names.localPortType port = none ∧ next = session) ∨
      (session.names.localPortType port = some .receive ∧
        next = { session with
          names := (session.names.eraseType port).unlinkIfLinked port
          task := session.task.destroyReceive port }) := by
  unfold handleDeadName at handled
  split at handled
  · rename_i untyped
    cases handled
    exact .inl ⟨untyped, rfl⟩
  · rename_i type typed
    rcases Option.bind_eq_some_iff.mp handled with ⟨_, isReceive, ⟨⟩⟩
    rw [of_guard isReceive] at typed
    exact .inr ⟨typed, rfl⟩

/-- What `translateHeader` does with a message. -/
inductive Heads (session : Session) (message : Message) : Option Message → Session → Prop
  | discard (found : Addresses session message none) : Heads session message none session
  | noSenders {addressed : Message} {next : Session}
      (found : Addresses session message (some addressed))
      (isNoSenders : message.id = msgidNoSenders)
      (handled : session.handleNoSenders addressed.localPort = some next) :
      Heads session message none next
  | deadName {addressed : Message} {deadName : Port} {next : Session}
      (found : Addresses session message (some addressed))
      (isDeadName : message.id = msgidDeadName)
      (toFirst : addressed.localPort = session.firstPort)
      (named : deadNameOf message = some deadName)
      (handled : session.handleDeadName deadName = some next) :
      Heads session message none next
  | noReply {addressed : Message} (found : Addresses session message (some addressed))
      (notNoSenders : message.id ≠ msgidNoSenders)
      (notDeadName : ¬(message.id = msgidDeadName ∧ addressed.localPort = session.firstPort))
      (noReply : message.remoteType = none) (isNull : message.remotePort = machPortNull) :
      Heads session message (some addressed) session
  | reply {addressed : Message} {type : TypeName} {port : Port} {next : Session}
      (found : Addresses session message (some addressed))
      (notNoSenders : message.id ≠ msgidNoSenders)
      (notDeadName : ¬(message.id = msgidDeadName ∧ addressed.localPort = session.firstPort))
      (replyType : message.remoteType = some type)
      (isRight : type = .moveSend ∨ type = .moveSendOnce)
      (translated : session.translatePort2 message.remotePort type = some (port, next)) :
      Heads session message (some { addressed with remotePort := port }) next

/-- Only the destination of a message changes. -/
theorem Addresses.same {message addressed : Message}
    (found : Addresses session message (some addressed)) :
    addressed.id = message.id ∧ addressed.body = message.body ∧
      addressed.remoteType = message.remoteType ∧ addressed.remotePort = message.remotePort ∧
      addressed.localType = message.localType := by
  cases found <;> exact ⟨rfl, rfl, rfl, rfl, rfl⟩

theorem translateHeader_cases {message : Message} {addressed : Option Message}
    (handled : session.translateHeader message = some (addressed, next)) :
    (message.localType = some .moveSend ∨ message.localType = some .moveSendOnce) ∧
      Heads session message addressed next := by
  rcases Option.bind_eq_some_iff.mp handled with ⟨_, isRight, handled⟩
  rcases Option.bind_eq_some_iff.mp handled with ⟨destination, found, handled⟩
  refine ⟨of_guard isRight, ?_⟩
  have addresses := translateDestination_cases found
  cases destination with
  | none =>
      cases handled
      exact .discard addresses
  | some destination =>
      rcases addresses.same with ⟨sameId, sameBody, sameType, sameReply, _⟩
      dsimp only at handled
      split_ifs at handled with isNoSenders isDeadName
      · rcases Option.bind_eq_some_iff.mp handled with ⟨_, done, ⟨⟩⟩
        exact .noSenders addresses (sameId ▸ isNoSenders) done
      · rcases Option.bind_eq_some_iff.mp handled with ⟨deadName, named, handled⟩
        rcases Option.bind_eq_some_iff.mp handled with ⟨_, done, ⟨⟩⟩
        have namedSame : deadNameOf message = some deadName := by
          simpa only [deadNameOf, sameBody] using named
        exact .deadName addresses (sameId ▸ isDeadName.1) isDeadName.2 namedSame done
      · rw [sameId] at isNoSenders isDeadName
        split at handled
        · rename_i noReply
          rcases Option.bind_eq_some_iff.mp handled with ⟨_, isNull, ⟨⟩⟩
          exact .noReply addresses isNoSenders isDeadName (sameType ▸ noReply)
            (sameReply ▸ of_guard isNull)
        · rename_i type replyType
          rcases Option.bind_eq_some_iff.mp handled with ⟨_, isRight, handled⟩
          rcases Option.bind_eq_some_iff.mp handled with ⟨⟨port, _⟩, translated, ⟨⟩⟩
          exact .reply addresses isNoSenders isDeadName (sameType ▸ replyType) (of_guard isRight)
            (sameReply ▸ translated)

theorem tcpBufferHandler_cases {message : Message} {sent : Option Message}
    (handled : session.tcpBufferHandler message = some (sent, next)) :
    ∃ translated middle addressed headed,
      session.translateMessage message
        (decide (message.localPort = machPortControl ∧ message.id = msgidDeadName)) =
          some (translated, middle) ∧
      middle.translateHeader translated = some (addressed, headed) ∧
      sent = addressed.map headed.swapHeader ∧
      next = { headed with
        task := match addressed with
          | none => headed.task
          | some addressed => headed.task.machMsg (headed.swapHeader addressed) } := by
  rcases Option.bind_eq_some_iff.mp handled with ⟨⟨translated, middle⟩, isTranslated, handled⟩
  rcases Option.bind_eq_some_iff.mp handled with ⟨⟨addressed, headed⟩, isHeaded, handled⟩
  refine ⟨translated, middle, addressed, headed, isTranslated, isHeaded, ?_⟩
  cases addressed with
  | none =>
      cases handled
      exact ⟨rfl, rfl⟩
  | some addressed =>
      cases handled
      exact ⟨rfl, rfl⟩

/-- No message changes the ports that a session has of its own. -/
theorem sameOwn_ipcBufferHandler {message : Message} {sent : Option Message}
    (handled : session.ipcBufferHandler message = some (sent, next)) : SameOwn session next := by
  rcases ipcBufferHandler_cases handled with ⟨_, _, rfl⟩ | ⟨relayed, deadName, routed, released,
    written, translated, isRouted, isReleased, isTranslated, _, rfl⟩
  · exact .refl _
  · have atRoute : SameOwn session routed := by
      cases isRouted <;> exact ⟨rfl, rfl, rfl⟩
    have atRelease : SameOwn routed released := by
      rcases releaseNoSenders_cases isReleased with ⟨_, rfl⟩ | ⟨_, _, rfl⟩
      · exact .refl _
      · exact ⟨rfl, rfl, rfl⟩
    have atEnd : SameOwn released translated :=
      translateForTransmission_invariant (SameOwn released)
        (fun holds done => holds.trans (transmitSend_cases done).2)
        (fun holds done => holds.trans (transmitReceive_cases done).2) (.refl released) isTranslated
    have forgotten : SameOwn translated (translated.forgetDeadName deadName) := by
      rw [forgetDeadName]
      split_ifs
      · exact ⟨rfl, rfl, rfl⟩
      · exact .refl translated
    exact ((atRoute.trans atRelease).trans atEnd).trans forgotten

theorem sameOwn_tcpBufferHandler {message : Message} {sent : Option Message}
    (handled : session.tcpBufferHandler message = some (sent, next)) : SameOwn session next := by
  rcases tcpBufferHandler_cases handled with
    ⟨translated, middle, addressed, headed, isTranslated, isHeaded, _, rfl⟩
  have atMiddle := sameOwn_translateMessage isTranslated
  have atHead : SameOwn middle headed := by
    cases (translateHeader_cases isHeaded).2 with
    | discard => exact .refl _
    | noSenders _ _ handled =>
        rcases handleNoSenders_cases handled with ⟨_, rfl⟩ | ⟨_, _, _, _, rfl⟩
        · exact .refl _
        · exact ⟨rfl, rfl, rfl⟩
    | deadName _ _ _ _ handled =>
        rcases handleDeadName_cases handled with ⟨_, rfl⟩ | ⟨_, rfl⟩
        · exact .refl _
        · exact ⟨rfl, rfl, rfl⟩
    | noReply => exact .refl _
    | reply _ _ _ _ _ translated => exact (translatePort2_cases translated).2
  have toHeaded := atMiddle.trans atHead
  exact ⟨toHeaded.control, toHeaded.firstPort, toHeaded.notificationPort⟩

/-- What the maps keep while a message that came by IPC is handled; the port is one that is dying. -/
structure KeptByIpc (invariant : Port → Names → Prop) : Prop where
  weaken : ∀ {names : Names} (dying : Port), invariant machPortNull names → invariant dying names
  eraseType : ∀ {names : Names} (port : Port), invariant machPortNull names →
    invariant port (names.eraseType port)
  unlink : ∀ {names : Names} {port : Port}, invariant port names →
    invariant machPortNull (names.unlink port)
  unlinkIfLinked : ∀ {names : Names} {port : Port}, invariant port names →
    invariant machPortNull (names.unlinkIfLinked port)
  unlinkOnce : ∀ {names : Names} {remote port : Port}, invariant machPortNull names →
    names.sendOncePortsByLocal port = some remote →
      invariant machPortNull (names.unlinkOnce remote port)
  transmits : ∀ {names next : Names} {dying port word : Port} {type : TypeName},
    invariant dying names → names.Transmits type port word next → invariant dying next

theorem KeptByIpc.released {invariant : Port → Names → Prop} (kept : KeptByIpc invariant)
    {message relayed : Message} {deadName : Port} {routed released : Session}
    (initially : invariant machPortNull session.names)
    (isRouted : Routes session message (.relay relayed deadName routed))
    (isReleased : routed.releaseNoSenders relayed.id message.localPort = some released) :
    invariant deadName released.names := by
  have whenReleased : ∀ {start : Session},
      start.releaseNoSenders relayed.id message.localPort = some released →
      invariant machPortNull start.names → invariant machPortNull released.names := by
    intro start isReleased holds
    rcases releaseNoSenders_cases isReleased with ⟨_, rfl⟩ | ⟨_, _, rfl⟩
    · exact holds
    · exact kept.unlink (kept.eraseType message.localPort holds)
  cases isRouted with
  | control => exact whenReleased isReleased initially
  | unknownDeadName => exact kept.weaken deadName (whenReleased isReleased initially)
  | deadName _ _ isDeadName =>
      rcases releaseNoSenders_cases isReleased with ⟨_, rfl⟩ | ⟨isNoSenders, _, _⟩
      · exact kept.eraseType deadName initially
      · rw [isDeadName] at isNoSenders
        cases isNoSenders
  | notification => exact whenReleased isReleased initially
  | proxy => exact whenReleased isReleased initially
  | sendOnce _ _ _ linked => exact whenReleased isReleased (kept.unlinkOnce initially linked)
  | own => exact whenReleased isReleased initially
  | raw => exact whenReleased isReleased initially

/-- What the operations on the maps keep, `ipcBufferHandler` keeps. -/
theorem KeptByIpc.ipcBufferHandler {invariant : Port → Names → Prop} (kept : KeptByIpc invariant)
    {message : Message} {sent : Option Message} (initially : invariant machPortNull session.names)
    (handled : session.ipcBufferHandler message = some (sent, next)) :
    invariant machPortNull next.names := by
  rcases ipcBufferHandler_cases handled with ⟨_, _, rfl⟩ | ⟨relayed, deadName, routed, released,
    written, translated, isRouted, isReleased, isTranslated, _, rfl⟩
  · exact initially
  · have atEnd : invariant deadName translated.names := by
      refine translateForTransmission_invariant (fun session => invariant deadName session.names)
        ?_ ?_ (kept.released initially isRouted isReleased) isTranslated
      · intro before port word after holds transmitted
        exact kept.transmits holds (transmitSend_cases transmitted).1
      · intro before port word after holds transmitted
        exact kept.transmits holds (transmitReceive_cases transmitted).1
    rw [forgetDeadName]
    split_ifs with isDead
    · exact kept.unlinkIfLinked atEnd
    · have isNull : deadName = machPortNull := not_not.mp isDead
      subst isNull
      exact atEnd

/-- What the maps keep, with the names that the kernel hands out, for a message from the network. -/
structure KeptByTcp (invariant : Names → List Port → Prop) : Prop where
  translates : ∀ {names next : Names} {fresh rest : List Port} {type : TypeName} {port word : Port},
    invariant names fresh → names.Translates fresh type port word next rest → invariant next rest
  forget : ∀ {names : Names} {fresh : List Port} (port : Port), invariant names fresh →
    invariant ((names.eraseType port).unlinkIfLinked port) fresh

theorem KeptByTcp.translateMessage {invariant : Names → List Port → Prop}
    (kept : KeptByTcp invariant) {message translated : Message} {translatePortNames : Bool}
    (initially : invariant session.names session.task.fresh)
    (isTranslated : session.translateMessage message translatePortNames = some (translated, next)) :
    invariant next.names next.task.fresh := by
  refine translateMessage_invariant (fun session => invariant session.names session.task.fresh)
    ?_ initially isTranslated
  intro before port type word after holds isTranslated
  exact kept.translates holds (translatePort2_cases isTranslated).1

/-- What the operations on the maps keep, `tcpBufferHandler` keeps. -/
theorem KeptByTcp.tcpBufferHandler {invariant : Names → List Port → Prop}
    (kept : KeptByTcp invariant) {message : Message} {sent : Option Message}
    (initially : invariant session.names session.task.fresh)
    (handled : session.tcpBufferHandler message = some (sent, next)) :
    ∃ fresh, invariant next.names fresh := by
  rcases tcpBufferHandler_cases handled with
    ⟨translated, middle, addressed, headed, isTranslated, isHeaded, _, rfl⟩
  have atMiddle := kept.translateMessage initially isTranslated
  cases (translateHeader_cases isHeaded).2 with
  | discard => exact ⟨_, atMiddle⟩
  | noSenders _ _ handled =>
      rcases handleNoSenders_cases handled with ⟨_, rfl⟩ | ⟨_, _, _, _, rfl⟩
      · exact ⟨_, atMiddle⟩
      · exact ⟨_, kept.forget _ atMiddle⟩
  | deadName _ _ _ _ handled =>
      rcases handleDeadName_cases handled with ⟨_, rfl⟩ | ⟨_, rfl⟩
      · exact ⟨_, atMiddle⟩
      · exact ⟨_, kept.forget _ atMiddle⟩
  | noReply => exact ⟨_, atMiddle⟩
  | reply _ _ _ _ _ translated =>
      exact ⟨_, kept.translates atMiddle (translatePort2_cases translated).1⟩

end Session

end Hurd.Netmsg
