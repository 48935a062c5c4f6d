import Hurd.Netmsg.Steps

/-!
# What one number does to the rights of the task

An account is what a session has of one name: its entry in `local_port_type`, the remote port
it is a proxy for, and what the task holds.  `Account.Transmits` and `Account.Translates` list
what the two translations can do to the account of the number they come to; every other account
stays as it is.
-/

namespace Hurd.Netmsg

namespace Holding

/-- `MACH_MSG_TYPE_MAKE_SEND` for a receive right that is held -/
def makeSend (holding : Holding) : Holding :=
  if holding.receive then { holding with send := holding.send + 1 } else holding

/-- `MACH_MSG_TYPE_COPY_SEND` for a send right that is held -/
def copySend (holding : Holding) : Holding :=
  if 0 < holding.send then { holding with send := holding.send + 1 } else holding

/-- One of the send rights is deallocated. -/
def dropSend (holding : Holding) : Holding :=
  if 0 < holding.send then ({ holding with send := holding.send - 1 }).release else holding

/-- The receive right is destroyed: send rights become dead names. -/
def destroyReceive (holding : Holding) : Holding :=
  if holding.receive then
    { holding with
      receive := false
      noSendersRequest := false
      send := 0
      dead := if 0 < holding.send then holding.send + holding.deadNameRequest.toNat
        else holding.dead
      deadNameRequest := false }
  else holding

/-- The two dead names that a DEAD NAME notification finds are deallocated. -/
def dropDeadNames (holding : Holding) : Holding :=
  if 2 ≤ holding.dead then { holding with dead := holding.dead - 2 } else holding

/-- A NO SENDERS notification is requested, or the request is taken back. -/
def askNoSenders (holding : Holding) (ask : Bool) : Holding :=
  { holding with noSendersRequest := ask }

/-- A DEAD NAME notification is requested, or the request is taken back. -/
def askDeadName (holding : Holding) (ask : Bool) : Holding :=
  if holding.live then { holding with deadNameRequest := ask } else holding

/-- The receive right is moved to another task. -/
def giveReceive (holding : Holding) : Holding := ({ holding with receive := false }).release

end Holding

namespace Task

variable (task : Task) (name other : Port)

/-- Changing what is held of one name leaves the others alone. -/
theorem holds_modify (change : Holding → Holding) :
    (task.modify name change).holds other =
      if other = name then change (task.holds name) else task.holds other := by
  simp only [modify, Function.update_apply]

theorem holds_ite {condition : Prop} [Decidable condition] (change : Holding → Holding) :
    (if condition then task.modify name change else task).holds other =
      if other = name then (if condition then change (task.holds name) else task.holds name)
      else task.holds other := by
  split_ifs with holds same same
  · simp [holds_modify, same]
  · simp [holds_modify, same]
  · rw [same]
  · rfl

theorem holds_makeSend : (task.makeSend name).holds other =
    if other = name then (task.holds name).makeSend else task.holds other :=
  task.holds_ite name other _

theorem holds_copySend : (task.copySend name).holds other =
    if other = name then (task.holds name).copySend else task.holds other :=
  task.holds_ite name other _

theorem holds_dropSend : (task.dropSend name).holds other =
    if other = name then (task.holds name).dropSend else task.holds other :=
  task.holds_ite name other _

theorem holds_destroyReceive : (task.destroyReceive name).holds other =
    if other = name then (task.holds name).destroyReceive else task.holds other :=
  task.holds_ite name other _

theorem holds_dropDeadNames : (task.dropDeadNames name).holds other =
    if other = name then (task.holds name).dropDeadNames else task.holds other :=
  task.holds_ite name other _

variable {task name}

/-- `mach_port_request_notification` takes a receive right that is held. -/
theorem holds_requestNoSenders {ask old : Bool} {next : Task}
    (requested : task.requestNoSenders name ask = some (old, next)) :
    (task.holds name).receive = true ∧ (task.holds name).noSendersRequest = old ∧
      ∀ other, next.holds other =
        if other = name then (task.holds name).askNoSenders ask else task.holds other := by
  unfold requestNoSenders at requested
  split_ifs at requested with held
  cases requested
  exact ⟨held, rfl, fun other => task.holds_modify name other _⟩

/-- `mach_port_request_notification` for a DEAD NAME takes a name that is alive. -/
theorem holds_requestDeadName {ask old : Bool} {next : Task}
    (requested : task.requestDeadName name ask = some (old, next)) :
    (task.holds name).live = true ∧ (task.holds name).deadNameRequest = old ∧
      ∀ other, next.holds other =
        if other = name then (task.holds name).askDeadName ask else task.holds other := by
  unfold requestDeadName at requested
  split_ifs at requested with live
  cases requested
  refine ⟨live, rfl, fun other => ?_⟩
  rw [holds_modify, Holding.askDeadName, if_pos live]

/-- A request whose result is ignored. -/
theorem holds_getD_requestDeadName (task : Task) (name : Port) (ask : Bool) (other : Port) :
    (((task.requestDeadName name ask).map Prod.snd).getD task).holds other =
      if other = name then (task.holds name).askDeadName ask else task.holds other := by
  unfold requestDeadName
  split_ifs with live same same
  · simp [holds_modify, same, Holding.askDeadName, live]
  · simp [holds_modify, same]
  · simp [same, Holding.askDeadName, live]
  · rfl

/-- `mach_port_allocate` gives a name that was not in use. -/
theorem holds_allocate {next : Task} (allocated : task.allocate = some (name, next)) :
    (task.holds name).inUse = false ∧
      ∀ other, next.holds other = if other = name then { receive := true } else task.holds other := by
  unfold allocate at allocated
  split at allocated
  · cases allocated
  · split_ifs at allocated with used
    cases allocated
    refine ⟨Bool.eq_false_iff.mpr used, fun other => ?_⟩
    exact holds_modify _ name other _

/-- A send-once right is extracted under a name that was not in use. -/
theorem holds_extractSendOnce {next : Task} (extracted : task.extractSendOnce = some (name, next)) :
    (task.holds name).inUse = false ∧
      ∀ other, next.holds other =
        if other = name then { sendOnce := true } else task.holds other := by
  unfold extractSendOnce at extracted
  split at extracted
  · cases extracted
  · split_ifs at extracted with used
    cases extracted
    refine ⟨Bool.eq_false_iff.mpr used, fun other => ?_⟩
    exact holds_modify _ name other _

end Task

/-- What a session has of one name. -/
structure Account where
  type : Option LocalType
  remote : Option Port
  holding : Holding

/-- What `translateForTransmission` does to the account of the number it comes to. -/
inductive Account.Transmits (account : Account) : TypeName → Account → Prop
  | proxySend {remote : Port} (linked : account.remote = some remote)
      (typed : account.type = some .receive) :
      Transmits account .moveSend { account with holding := account.holding.dropSend }
  | ownSend (unlinked : account.remote = none) :
      Transmits account .moveSend
        { account with type := some .send, holding := account.holding.askDeadName true }
  | proxyReceive {remote : Port} (linked : account.remote = some remote)
      (typed : account.type = some .send) (held : account.holding.receive = true) :
      Transmits account .moveReceive
        { account with
          type := some .receive
          holding := ((account.holding.askNoSenders true).askDeadName false).dropSend }
  | ownReceive (unlinked : account.remote = none) (held : account.holding.receive = true) :
      Transmits account .moveReceive
        { account with type := some .receive, holding := account.holding.askNoSenders true }

/-- What `translatePort2` does to the account of the name it finds for a number. -/
inductive Account.Translates (account : Account) : TypeName → Account → Prop
  | makesSend (typed : account.type = some .receive) :
      Translates account .moveSend { account with holding := account.holding.makeSend }
  | copiesSend (typed : account.type ≠ some .receive) :
      Translates account .moveSend
        { account with
          type := some (account.type.getD .unset)
          holding := account.holding.copySend }
  | relays (typed : account.type ≠ some .send) (held : account.holding.receive = true)
      (notAsked : account.holding.deadNameRequest = false) :
      Translates account .moveReceive
        { account with
          type := some .send
          holding := ((account.holding.askNoSenders false).makeSend).askDeadName true }
  | newSend (remote : Port) (unused : account.holding.inUse = false) :
      Translates account .moveSend
        { type := some .receive
          remote := some remote
          holding := { receive := true, send := 1, noSendersRequest := true } }
  | newReceive (remote : Port) (unused : account.holding.inUse = false) :
      Translates account .moveReceive
        { type := some .send
          remote := some remote
          holding := { receive := true, send := 1, deadNameRequest := true } }

namespace Session

/-- The account of a name. -/
def account (session : Session) (port : Port) : Account where
  type := session.names.localPortType port
  remote := session.names.remotePortsByLocal port
  holding := session.task.holds port

/-- One account has changed, and the others are as they were. -/
def Becomes (session : Session) (port : Port) (account : Account) (next : Session) : Prop :=
  ∀ other, next.account other = if other = port then account else session.account other

variable {session next : Session} {port word : Port}

/-- A send right that is transmitted -/
theorem account_transmitSend (something : ¬port.Nothing)
    (transmitted : session.transmitSend port = some (word, next)) :
    ∃ account, (session.account port).Transmits .moveSend account ∧
      Becomes session port account next := by
  have isPort : ¬(port = machPortNull ∨ port = machPortDead) := something
  unfold transmitSend at transmitted
  rw [if_neg isPort] at transmitted
  split at transmitted
  · rename_i remote linked
    rcases Option.bind_eq_some_iff.mp transmitted with ⟨_, typed, ⟨⟩⟩
    refine ⟨_, .proxySend linked (of_guard typed), fun other => ?_⟩
    by_cases same : other = port
    · simp [account, Task.holds_dropSend, same]
    · simp [account, Task.holds_dropSend, same]
  · rename_i unlinked
    cases transmitted
    refine ⟨_, .ownSend unlinked, fun other => ?_⟩
    have holds := session.task.holds_getD_requestDeadName port true other
    cases requested : session.task.requestDeadName port true with
    | none =>
        simp only [requested, Option.map_none, Option.getD_none] at holds
        by_cases same : other = port
        · simpa [account, same, Names.setType] using holds
        · simp [account, same, Names.setType]
    | some result =>
        simp only [requested, Option.map_some, Option.getD_some] at holds
        by_cases same : other = port
        · simpa [account, same, Names.setType] using holds
        · simpa [account, same, Names.setType] using holds

/-- A receive right that is transmitted -/
theorem account_transmitReceive (something : ¬port.Nothing)
    (transmitted : session.transmitReceive port = some (word, next)) :
    ∃ account, (session.account port).Transmits .moveReceive account ∧
      Becomes session port account next := by
  have isPort : ¬(port = machPortNull ∨ port = machPortDead) := something
  unfold transmitReceive at transmitted
  rw [if_neg isPort] at transmitted
  rcases Option.bind_eq_some_iff.mp transmitted with ⟨⟨old, task⟩, requested, transmitted⟩
  rcases Task.holds_requestNoSenders requested with ⟨held, -, holds⟩
  dsimp only at transmitted
  split at transmitted
  · rename_i remote linked
    rcases Option.bind_eq_some_iff.mp transmitted with ⟨_, typed, transmitted⟩
    rcases Option.bind_eq_some_iff.mp transmitted with ⟨⟨_, cancelled⟩, isCancelled, ⟨⟩⟩
    rcases Task.holds_requestDeadName isCancelled with ⟨-, -, holdsCancelled⟩
    refine ⟨_, .proxyReceive linked (of_guard typed) held, fun other => ?_⟩
    by_cases same : other = port
    · simp [account, Task.holds_dropSend, holdsCancelled, holds, same, Names.setType]
    · simp [account, Task.holds_dropSend, holdsCancelled, holds, same, Names.setType]
  · rename_i unlinked
    cases transmitted
    refine ⟨_, .ownReceive unlinked held, fun other => ?_⟩
    by_cases same : other = port
    · simp [account, holds, same, Names.setType]
    · simp [account, holds, same, Names.setType]

/-- A receive right that is relayed by IPC -/
theorem account_relayReceive (typed : session.names.localPortType port ≠ some .send)
    (relayed : session.relayReceive port = some next) :
    ∃ account, (session.account port).Translates .moveReceive account ∧
      Becomes session port account next := by
  unfold relayReceive at relayed
  rcases Option.bind_eq_some_iff.mp relayed with ⟨⟨_, cancelled⟩, isCancelled, relayed⟩
  rcases Option.bind_eq_some_iff.mp relayed with ⟨⟨old, asked⟩, isAsked, relayed⟩
  rcases Option.bind_eq_some_iff.mp relayed with ⟨_, noneAsked, ⟨⟩⟩
  rcases Task.holds_requestNoSenders isCancelled with ⟨held, -, holdsCancelled⟩
  rcases Task.holds_requestDeadName isAsked with ⟨-, oldEq, holdsAsked⟩
  have notAsked : (session.task.holds port).deadNameRequest = false := by
    have isOld := oldEq.trans (of_guard noneAsked)
    rw [Task.holds_makeSend, if_pos rfl, holdsCancelled, if_pos rfl] at isOld
    simpa [Holding.makeSend, Holding.askNoSenders, held] using isOld
  refine ⟨_, .relays typed held notAsked, fun other => ?_⟩
  by_cases same : other = port
  · simp [account, holdsAsked, Task.holds_makeSend, holdsCancelled, same, Names.setType]
  · simp [account, holdsAsked, Task.holds_makeSend, holdsCancelled, same, Names.setType]

/-- A number that the other side has translated is one of our names. -/
theorem account_translateFlagged {type : TypeName}
    (right : type = .moveSend ∨ type = .moveReceive)
    (translated : session.translateFlagged port type = some next) :
    ∃ account, (session.account port).Translates type account ∧
      Becomes session port account next := by
  rcases right with rfl | rfl
  · cases translated
    by_cases typed : session.names.localPortType port = some .receive
    · refine ⟨_, .makesSend typed, fun other => ?_⟩
      by_cases same : other = port
      · simp [account, typed, same, Task.holds_makeSend, Names.touchType]
      · simp [account, typed, same, Task.holds_makeSend, Names.touchType]
    · refine ⟨_, .copiesSend typed, fun other => ?_⟩
      by_cases same : other = port
      · simp [account, typed, same, Task.holds_copySend, Names.touchType]
      · simp [account, typed, same, Task.holds_copySend, Names.touchType]
  · rcases Option.bind_eq_some_iff.mp translated with ⟨_, typed, relayed⟩
    apply account_relayReceive _ relayed
    simp [of_guard typed]

theorem account_translateReceive (translated : session.translateReceive port = some (word, next)) :
    ∃ account, (session.account word).Translates .moveReceive account ∧
      Becomes session word account next := by
  unfold translateReceive at translated
  split at translated
  · rename_i localport known
    rcases Option.bind_eq_some_iff.mp translated with ⟨_, typed, translated⟩
    rcases Option.bind_eq_some_iff.mp translated with ⟨_, relayed, ⟨⟩⟩
    exact account_relayReceive (of_guard typed) relayed
  · rename_i unknown
    rcases Option.bind_eq_some_iff.mp translated with ⟨⟨newport, first⟩, allocated, translated⟩
    rcases Option.bind_eq_some_iff.mp translated with ⟨⟨old, second⟩, requested, translated⟩
    rcases Option.bind_eq_some_iff.mp translated with ⟨_, _, ⟨⟩⟩
    rcases Task.holds_allocate allocated with ⟨unused, holdsFirst⟩
    rcases Task.holds_requestDeadName requested with ⟨_, _, holdsSecond⟩
    refine ⟨_, .newReceive port unused, fun other => ?_⟩
    by_cases same : other = word
    · simp [account, same, holdsSecond, Task.holds_makeSend, holdsFirst, Names.link,
        Holding.makeSend, Holding.askDeadName, Holding.live]
    · simp [account, same, holdsSecond, Task.holds_makeSend, holdsFirst, Names.link]

theorem account_translateSend (translated : session.translateSend port = some (word, next)) :
    ∃ account, (session.account word).Translates .moveSend account ∧
      Becomes session word account next := by
  unfold translateSend at translated
  split at translated
  · rename_i newport known
    rcases Option.bind_eq_some_iff.mp translated with ⟨_, typed, ⟨⟩⟩
    refine ⟨_, .makesSend (of_guard typed), fun other => ?_⟩
    by_cases same : other = word
    · simp [account, same, Task.holds_makeSend]
    · simp [account, same, Task.holds_makeSend]
  · rename_i unknown
    rcases Option.bind_eq_some_iff.mp translated with ⟨⟨newport, first⟩, allocated, translated⟩
    rcases Option.bind_eq_some_iff.mp translated with ⟨⟨old, second⟩, requested, translated⟩
    rcases Option.bind_eq_some_iff.mp translated with ⟨_, _, ⟨⟩⟩
    rcases Task.holds_allocate allocated with ⟨unused, holdsFirst⟩
    rcases Task.holds_requestNoSenders requested with ⟨_, _, holdsSecond⟩
    refine ⟨_, .newSend port unused, fun other => ?_⟩
    by_cases same : other = word
    · simp [account, same, holdsSecond, Task.holds_makeSend, holdsFirst, Names.link,
        Holding.makeSend, Holding.askNoSenders]
    · simp [account, same, holdsSecond, Task.holds_makeSend, holdsFirst, Names.link]

/-- Only the account of the name that is found changes. -/
theorem account_translatePort2 {type : TypeName} (right : type = .moveSend ∨ type = .moveReceive)
    (something : ¬port.Nothing) (translated : session.translatePort2 port type = some (word, next)) :
    ∃ account, (session.account word).Translates type account ∧
      Becomes session word account next := by
  have isPort : ¬(port = machPortNull ∨ port = machPortDead) := something
  unfold translatePort2 at translated
  rw [if_neg isPort] at translated
  split_ifs at translated with flagged
  · rcases Option.bind_eq_some_iff.mp translated with ⟨_, translated, ⟨⟩⟩
    exact account_translateFlagged right translated
  · rcases right with rfl | rfl
    · exact account_translateSend translated
    · exact account_translateReceive translated

end Session

end Hurd.Netmsg
