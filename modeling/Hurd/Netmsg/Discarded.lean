import Hurd.Netmsg.Consistent
import Hurd.Netmsg.Rights

/-!
# Messages that are discarded

The body of a network message is translated before the header says whether the message is delivered
at all.  What the translation of a right brings into the maps and the task stays there.  A right
leaves no trace only if it names no port, or if it is a send right for a port that netmsg has in
its maps and holds no right of that another send right could be made from.
-/

namespace Hurd.Netmsg

namespace Session

/-- The maps, and the rights and requests of the task, are the same. -/
structure Unchanged (session next : Session) : Prop where
  names : next.names = session.names
  holds : next.task.holds = session.task.holds

/-- Something has come into the maps or the task that the translation of a right never takes out. -/
inductive Gains (session next : Session) : Prop
  | proxy {remote : Port} (before : session.names.localPortsByRemote remote = none)
      (after : next.names.localPortsByRemote remote ≠ none)
  | once {remote : Port} (before : session.names.sendOncePortsByRemote remote = none)
      (after : next.names.sendOncePortsByRemote remote ≠ none)
  | type {port : Port} (before : session.names.localPortType port = none)
      (after : next.names.localPortType port ≠ none)
  | send {port : Port} (more : (session.task.holds port).send < (next.task.holds port).send)

/-- Nothing has been taken out of the maps, and no send right has gone. -/
structure Grows (session next : Session) : Prop where
  proxy : ∀ remote, session.names.localPortsByRemote remote ≠ none →
    next.names.localPortsByRemote remote ≠ none
  once : ∀ remote, session.names.sendOncePortsByRemote remote ≠ none →
    next.names.sendOncePortsByRemote remote ≠ none
  type : ∀ port, session.names.localPortType port ≠ none → next.names.localPortType port ≠ none
  send : ∀ port, (session.task.holds port).send ≤ (next.task.holds port).send

/-- The right leaves no trace when it is translated. -/
inductive Idle (session : Session) (type : TypeName) (port : Port) : Prop
  | nothing (isNothing : port.Nothing)
  | returned (isSend : type = .moveSend) (flagged : port.flagged = true)
      (typed : session.names.localPortType (~~~port) ≠ none)
      (unheld : if session.names.localPortType (~~~port) = some .receive then
          (session.task.holds (~~~port)).receive = false
        else (session.task.holds (~~~port)).send = 0)
  | known {newport : Port} (isSend : type = .moveSend ∨ type = .copySend ∨ type = .makeSend)
      (unflagged : port.flagged = false)
      (known : session.names.localPortsByRemote port = some newport)
      (unheld : (session.task.holds newport).receive = false)

variable {session middle next : Session} {port word : Port} {type : TypeName}

theorem Unchanged.refl (session : Session) : Unchanged session session := ⟨rfl, rfl⟩

theorem Unchanged.trans (first : Unchanged session middle) (second : Unchanged middle next) :
    Unchanged session next :=
  ⟨second.names.trans first.names, second.holds.trans first.holds⟩

theorem Unchanged.not_gains (unchanged : Unchanged session next) : ¬Gains session next := by
  intro gains
  cases gains with
  | proxy before after => exact after (unchanged.names ▸ before)
  | once before after => exact after (unchanged.names ▸ before)
  | type before after => exact after (unchanged.names ▸ before)
  | send more =>
      rw [unchanged.holds] at more
      exact lt_irrefl _ more

theorem Unchanged.gains (unchanged : Unchanged session middle) (gains : Gains middle next) :
    Gains session next := by
  cases gains with
  | proxy before after => exact .proxy (unchanged.names ▸ before) after
  | once before after => exact .once (unchanged.names ▸ before) after
  | type before after => exact .type (unchanged.names ▸ before) after
  | send more =>
      rw [unchanged.holds] at more
      exact .send more

theorem Gains.grows (gains : Gains session middle) (grows : Grows middle next) :
    Gains session next := by
  cases gains with
  | proxy before after => exact .proxy before (grows.proxy _ after)
  | once before after => exact .once before (grows.once _ after)
  | type before after => exact .type before (grows.type _ after)
  | send more => exact .send (lt_of_lt_of_le more (grows.send _))

theorem Unchanged.idle_iff (unchanged : Unchanged session next) :
    Idle next type port ↔ Idle session type port := by
  have forward : ∀ {before after : Session}, Unchanged before after →
      Idle after type port → Idle before type port := by
    intro before after same idle
    cases idle with
    | nothing isNothing => exact .nothing isNothing
    | returned isSend flagged typed unheld =>
        rw [same.names] at typed
        rw [same.names, same.holds] at unheld
        exact .returned isSend flagged typed unheld
    | known isSend unflagged known unheld =>
        rw [same.names] at known
        rw [same.holds] at unheld
        exact .known isSend unflagged known unheld
  exact ⟨forward unchanged, forward ⟨unchanged.names.symm, unchanged.holds.symm⟩⟩

end Session

theorem Holding.send_eq_zero {holding : Holding} (unused : holding.inUse = false) :
    holding.send = 0 := by
  simp [Holding.inUse, Holding.live] at unused
  omega

theorem Holding.send_le_makeSend (holding : Holding) : holding.send ≤ holding.makeSend.send := by
  unfold Holding.makeSend
  split_ifs <;> simp

theorem Holding.send_le_copySend (holding : Holding) : holding.send ≤ holding.copySend.send := by
  unfold Holding.copySend
  split_ifs <;> simp

@[simp]
theorem Holding.send_askDeadName (holding : Holding) (ask : Bool) :
    (holding.askDeadName ask).send = holding.send := by
  unfold Holding.askDeadName
  split_ifs <;> rfl

/-- The translation of a right takes no send right away. -/
theorem Account.Translates.send_le {account next : Account} {type : TypeName}
    (translated : account.Translates type next) : account.holding.send ≤ next.holding.send := by
  cases translated with
  | makesSend => exact account.holding.send_le_makeSend
  | copiesSend => exact account.holding.send_le_copySend
  | relays _ held => simp [Holding.makeSend, Holding.askNoSenders, held]
  | newSend _ unused => simp [Holding.send_eq_zero unused]
  | newReceive _ unused => simp [Holding.send_eq_zero unused]

namespace Session

variable {session middle next : Session} {port word : Port} {type : TypeName}

theorem send_le_of_becomes {name : Port} {account : Account}
    (translated : (session.account name).Translates type account)
    (becomes : Becomes session name account next) (other : Port) :
    (session.task.holds other).send ≤ (next.task.holds other).send := by
  have atOther : (next.account other).holding = next.task.holds other := rfl
  rw [← atOther, becomes other]
  split_ifs with same
  · subst same
    exact translated.send_le
  · exact le_rfl

/-- A send-once right is given names that are not in use. -/
theorem send_le_translateSendOnce
    (translated : session.translateSendOnce port = some (word, next)) (other : Port) :
    (session.task.holds other).send ≤ (next.task.holds other).send := by
  rcases Option.bind_eq_some_iff.mp translated with ⟨_, _, translated⟩
  rcases Option.bind_eq_some_iff.mp translated with ⟨⟨newport, first⟩, allocated, translated⟩
  rcases Option.bind_eq_some_iff.mp translated with ⟨⟨sendoncePort, second⟩, extracted, ⟨⟩⟩
  rcases Task.holds_allocate allocated with ⟨unused, holdsFirst⟩
  have fromFirst : (session.task.holds other).send ≤ (first.holds other).send := by
    rw [holdsFirst]
    split_ifs with same
    · simp [same, Holding.send_eq_zero unused]
    · exact le_rfl
  rcases Task.holds_extractSendOnce extracted with ⟨unusedOnce, holdsSecond⟩
  refine fromFirst.trans ?_
  rw [holdsSecond]
  split_ifs with same
  · simp [same, Holding.send_eq_zero unusedOnce]
  · exact le_rfl

theorem grows_translatePort2 (translated : session.translatePort2 port type = some (word, next)) :
    Grows session next := by
  have names := (translatePort2_cases translated).1.grows
  refine ⟨names.1, names.2.1, names.2.2, fun other => ?_⟩
  unfold translatePort2 at translated
  split_ifs at translated with isNothing flagged
  · cases translated
    exact le_rfl
  · rcases Option.bind_eq_some_iff.mp translated with ⟨_, translated, ⟨⟩⟩
    cases type with
    | moveSend =>
        rcases account_translateFlagged (.inl rfl) translated with ⟨account, step, becomes⟩
        exact send_le_of_becomes step becomes other
    | moveReceive =>
        rcases account_translateFlagged (.inr rfl) translated with ⟨account, step, becomes⟩
        exact send_le_of_becomes step becomes other
    | portName =>
        cases translated
        exact le_rfl
    | moveSendOnce => cases translated
    | copySend => cases translated
    | makeSend => cases translated
    | makeSendOnce => cases translated
    | data => cases translated
  · cases type with
    | moveReceive =>
        rcases account_translateReceive translated with ⟨account, step, becomes⟩
        exact send_le_of_becomes step becomes other
    | copySend =>
        rcases account_translateSend translated with ⟨account, step, becomes⟩
        exact send_le_of_becomes step becomes other
    | makeSend =>
        rcases account_translateSend translated with ⟨account, step, becomes⟩
        exact send_le_of_becomes step becomes other
    | moveSend =>
        rcases account_translateSend translated with ⟨account, step, becomes⟩
        exact send_le_of_becomes step becomes other
    | makeSendOnce => exact send_le_translateSendOnce translated other
    | moveSendOnce => exact send_le_translateSendOnce translated other
    | portName =>
        cases translated
        exact le_rfl
    | data => cases translated

theorem makeSend_eq_self {task : Task} {name : Port} (unheld : (task.holds name).receive = false) :
    task.makeSend name = task := by
  simp [Task.makeSend, unheld]

theorem send_lt_makeSend {task : Task} {name : Port} (held : (task.holds name).receive = true) :
    (task.holds name).send < ((task.makeSend name).holds name).send := by
  simp [Task.holds_makeSend, Holding.makeSend, held]

/-- Relaying a receive right always leaves a send right behind. -/
theorem send_lt_relayReceive (relayed : session.relayReceive port = some next)
    (typed : session.names.localPortType port ≠ some .send) :
    (session.task.holds port).send < (next.task.holds port).send := by
  rcases account_relayReceive typed relayed with ⟨account, step, becomes⟩
  have atPort : (next.account port).holding = next.task.holds port := rfl
  rw [← atPort, becomes port, if_pos rfl]
  cases step with
  | relays _ held =>
      have heldHere : (session.task.holds port).receive = true := held
      simp [Session.account, Holding.makeSend, Holding.askNoSenders, heldHere]
  | newReceive _ unused =>
      have unusedHere : (session.task.holds port).inUse = false := unused
      simp [Holding.send_eq_zero unusedHere]

/-- A right is idle and leaves everything as it is, or it leaves a trace. -/
def Settles (session : Session) (type : TypeName) (port : Port) (next : Session) : Prop :=
  (Idle session type port ∧ Unchanged session next) ∨
    (¬Idle session type port ∧ Gains session next)

theorem settles_translateSend (something : ¬port.Nothing) (unflagged : port.flagged = false)
    (isSend : type = .moveSend ∨ type = .copySend ∨ type = .makeSend)
    (translated : session.translateSend port = some (word, next)) :
    Settles session type port next := by
  unfold translateSend at translated
  split at translated
  · rename_i newport known
    rcases Option.bind_eq_some_iff.mp translated with ⟨_, _, ⟨⟩⟩
    by_cases held : (session.task.holds word).receive = true
    · refine .inr ⟨fun idle => ?_, .send (send_lt_makeSend held)⟩
      cases idle with
      | nothing isNothing => exact something isNothing
      | returned _ flagged =>
          rw [unflagged] at flagged
          cases flagged
      | known _ _ alsoKnown unheld =>
          rw [known, Option.some.injEq] at alsoKnown
          rw [alsoKnown, unheld] at held
          cases held
    · have unheld : (session.task.holds word).receive = false := Bool.eq_false_iff.mpr held
      refine .inl ⟨.known isSend unflagged known unheld, rfl, ?_⟩
      rw [makeSend_eq_self unheld]
  · rename_i unknown
    rcases Option.bind_eq_some_iff.mp translated with ⟨⟨newport, first⟩, _, translated⟩
    rcases Option.bind_eq_some_iff.mp translated with ⟨⟨old, second⟩, _, translated⟩
    rcases Option.bind_eq_some_iff.mp translated with ⟨_, _, ⟨⟩⟩
    refine .inr ⟨fun idle => ?_, .proxy unknown (by simp [Names.link])⟩
    cases idle with
    | nothing isNothing => exact something isNothing
    | returned _ flagged =>
        rw [unflagged] at flagged
        cases flagged
    | known _ _ known =>
        rw [unknown] at known
        cases known

/-- Only a number that names no port is idle as a receive right or a send-once right. -/
theorem not_idle_of_not_send (something : ¬port.Nothing)
    (notSend : type ≠ .moveSend ∧ type ≠ .copySend ∧ type ≠ .makeSend) :
    ¬Idle session type port := by
  intro idle
  cases idle with
  | nothing isNothing => exact something isNothing
  | returned isSend => exact notSend.1 isSend
  | known isSend =>
      rcases isSend with isSend | isSend | isSend
      · exact notSend.1 isSend
      · exact notSend.2.1 isSend
      · exact notSend.2.2 isSend

theorem gains_translateReceive (translated : session.translateReceive port = some (word, next)) :
    Gains session next := by
  unfold translateReceive at translated
  split at translated
  · rcases Option.bind_eq_some_iff.mp translated with ⟨_, typed, translated⟩
    rcases Option.bind_eq_some_iff.mp translated with ⟨_, relayed, ⟨⟩⟩
    exact .send (send_lt_relayReceive relayed (of_guard typed))
  · rename_i unknown
    rcases Option.bind_eq_some_iff.mp translated with ⟨⟨newport, first⟩, _, translated⟩
    rcases Option.bind_eq_some_iff.mp translated with ⟨⟨old, second⟩, _, translated⟩
    rcases Option.bind_eq_some_iff.mp translated with ⟨_, _, ⟨⟩⟩
    exact .proxy unknown (by simp [Names.link])

theorem gains_translateSendOnce (translated : session.translateSendOnce port = some (word, next)) :
    Gains session next := by
  rcases Option.bind_eq_some_iff.mp translated with ⟨_, unknown, translated⟩
  rcases Option.bind_eq_some_iff.mp translated with ⟨⟨newport, first⟩, _, translated⟩
  rcases Option.bind_eq_some_iff.mp translated with ⟨⟨sendoncePort, second⟩, _, ⟨⟩⟩
  exact .once (of_guard unknown) (by simp [Names.linkOnce])

theorem settles_translateFlagged (something : ¬port.Nothing) (flagged : port.flagged = true)
    (isRight : type.isRight = true)
    (translated : session.translateFlagged (~~~port) type = some next) :
    Settles session type port next := by
  cases type with
  | moveSend =>
      cases translated
      by_cases typed : session.names.localPortType (~~~port) = none
      · refine .inr ⟨fun idle => ?_, .type typed (by simp [Names.touchType])⟩
        cases idle with
        | nothing isNothing => exact something isNothing
        | returned _ _ isTyped => exact isTyped typed
        | known _ unflagged =>
            rw [flagged] at unflagged
            cases unflagged
      · have sameNames : session.names.touchType (~~~port) = session.names := by
          cases isTyped : session.names.localPortType (~~~port) with
          | none => exact (typed isTyped).elim
          | some type =>
              have same : Function.update session.names.localPortType (~~~port)
                  (some ((session.names.localPortType (~~~port)).getD .unset)) =
                  session.names.localPortType :=
                Function.update_eq_self_iff.mpr (by rw [isTyped, Option.getD_some])
              simp only [Names.touchType, same]
        by_cases unheld : if session.names.localPortType (~~~port) = some .receive then
            (session.task.holds (~~~port)).receive = false
          else (session.task.holds (~~~port)).send = 0
        · refine .inl ⟨.returned rfl flagged typed unheld, sameNames, ?_⟩
          dsimp only
          split_ifs at unheld ⊢ with isReceive
          · rw [makeSend_eq_self unheld]
          · simp [Task.copySend, unheld]
        · refine .inr ⟨fun idle => ?_, ?_⟩
          · cases idle with
            | nothing isNothing => exact something isNothing
            | returned _ _ _ isUnheld => exact unheld isUnheld
            | known _ unflagged =>
                rw [flagged] at unflagged
                cases unflagged
          · refine @Gains.send session _ (~~~port) ?_
            dsimp only
            split_ifs at unheld ⊢ with isReceive
            · exact send_lt_makeSend (Bool.eq_true_of_not_eq_false unheld)
            · simp [Task.holds_copySend, Holding.copySend, Nat.pos_of_ne_zero unheld]
  | moveReceive =>
      rcases Option.bind_eq_some_iff.mp translated with ⟨_, typed, relayed⟩
      refine .inr ⟨not_idle_of_not_send something (by decide), ?_⟩
      exact .send (send_lt_relayReceive relayed (by simp [of_guard typed]))
  | portName => cases isRight
  | data => cases isRight
  | moveSendOnce => cases translated
  | copySend => cases translated
  | makeSend => cases translated
  | makeSendOnce => cases translated

theorem settles_translatePort2 (isRight : type.isRight = true)
    (translated : session.translatePort2 port type = some (word, next)) :
    Settles session type port next := by
  unfold translatePort2 at translated
  split_ifs at translated with isNothing flagged
  · cases translated
    exact .inl ⟨.nothing isNothing, .refl _⟩
  · rcases Option.bind_eq_some_iff.mp translated with ⟨_, translated, ⟨⟩⟩
    exact settles_translateFlagged isNothing flagged isRight translated
  · have unflagged : port.flagged = false := by simpa using flagged
    cases type with
    | moveReceive =>
        exact .inr ⟨not_idle_of_not_send isNothing (by decide), gains_translateReceive translated⟩
    | copySend => exact settles_translateSend isNothing unflagged (.inr (.inl rfl)) translated
    | makeSend => exact settles_translateSend isNothing unflagged (.inr (.inr rfl)) translated
    | moveSend => exact settles_translateSend isNothing unflagged (.inl rfl) translated
    | makeSendOnce =>
        exact .inr ⟨not_idle_of_not_send isNothing (by decide), gains_translateSendOnce translated⟩
    | moveSendOnce =>
        exact .inr ⟨not_idle_of_not_send isNothing (by decide), gains_translateSendOnce translated⟩
    | portName => cases isRight
    | data => cases isRight

/-- No right of the item leaves a trace. -/
def IdleItem (session : Session) (item : Item) : Prop :=
  item.name.isRight = true → ∀ port ∈ item.ports, Idle session item.name port

theorem settles_translateItem {item replaced : Item}
    (translated : translateItem false session item = some (replaced, next)) :
    (IdleItem session item ∧ Unchanged session next) ∨
      (¬IdleItem session item ∧ Gains session next) := by
  by_cases isRight : item.name.isRight = true
  · rcases translateItem_cases translated with ⟨notRight, _, rfl⟩ | ⟨ports, portsDone, _⟩
    · rcases notRight with isData | ⟨isName, _⟩
      · rw [isData] at isRight
        cases isRight
      · rw [isName] at isRight
        cases isRight
    · have settled := Loop.traverse_idle_or_changed Unchanged Gains
        (fun session port => Idle session item.name port) Unchanged.refl Unchanged.trans
        Unchanged.gains Unchanged.idle_iff
        (fun gains done => gains.grows (grows_translatePort2 done))
        (fun done => settles_translatePort2 isRight done) portsDone
      rcases settled with ⟨idles, same⟩ | ⟨notIdles, gains⟩
      · exact .inl ⟨fun _ => idles, same⟩
      · exact .inr ⟨fun idles => notIdles (idles isRight), gains⟩
  · have same : next = session := by
      rcases item with ⟨name, ports⟩
      cases name with
      | data =>
          cases translated
          rfl
      | portName =>
          cases translated
          rfl
      | _ => exact (isRight rfl).elim
    subst same
    exact .inl ⟨fun isAlsoRight => (isRight isAlsoRight).elim, .refl _⟩

theorem gains_translateItem {start : Session} {item replaced : Item} (gains : Gains start session)
    (translated : translateItem false session item = some (replaced, next)) : Gains start next := by
  rcases translateItem_cases translated with ⟨_, _, rfl⟩ | ⟨ports, portsDone, _⟩
  · exact gains
  · refine Loop.traverse_invariant (Gains start) ?_ gains portsDone
    exact fun _ _ {_ _ _} held done => held.grows (grows_translatePort2 done)

/-- `tcpBufferHandler` does not relay the message, for its destination is not known. -/
structure Discards (session : Session) (message : Message) (next : Session) : Prop where
  translate : message.remoteTranslate = true
  notControl : message.localPort ≠ machPortControl
  body : ∃ translated, session.translateMessage message false = some (translated, next)
  unknown : next.names.localPortsByRemote message.localPort = none
  handled : session.tcpBufferHandler message = some (none, next)

/-- A message that is discarded changes nothing exactly if none of its rights leaves a trace. -/
theorem discarded_unchanged_iff {message : Message} (discards : session.Discards message next) :
    (next.names = session.names ∧ next.task.holds = session.task.holds) ↔
      ∀ item ∈ message.body, item.name.isRight = true →
        ∀ port ∈ item.ports, Idle session item.name port := by
  rcases discards.body with ⟨translated, isTranslated⟩
  rcases Option.bind_eq_some_iff.mp isTranslated with ⟨⟨body, _⟩, bodyDone, ⟨⟩⟩
  have congr : ∀ {first second : Session} {item : Item}, Unchanged first second →
      (IdleItem second item ↔ IdleItem first item) := by
    intro first second item same
    constructor
    · exact fun idles isRight port portMem => same.idle_iff.mp (idles isRight port portMem)
    · exact fun idles isRight port portMem => same.idle_iff.mpr (idles isRight port portMem)
  have settled := Loop.traverse_idle_or_changed Unchanged Gains IdleItem Unchanged.refl
    Unchanged.trans Unchanged.gains congr gains_translateItem settles_translateItem bodyDone
  rcases settled with ⟨idles, same⟩ | ⟨notIdles, gains⟩
  · exact ⟨fun _ => idles, fun _ => ⟨same.names, same.holds⟩⟩
  · constructor
    · rintro ⟨sameNames, sameHolds⟩
      exact ((Unchanged.mk sameNames sameHolds).not_gains gains).elim
    · exact fun idles => (notIdles idles).elim

/-- A message for a port that is not known, with one send right. -/
def strayMessage (port : Port) : Message :=
  { remoteTranslate := true, localPort := 9, body := [⟨.moveSend, [port]⟩] }

/-- A translator that has not handled anything, with room for one name. -/
def idleClient : Session := client 1 2 ⟨fun _ => {}, [100]⟩

theorem nullRight_discarded_unchanged :
    ∃ next, idleClient.Discards (strayMessage machPortNull) next ∧
      next.names = idleClient.names ∧ next.task.holds = idleClient.task.holds := by
  have discards : idleClient.Discards (strayMessage machPortNull) idleClient :=
    ⟨rfl, by decide, ⟨_, rfl⟩, rfl, rfl⟩
  refine ⟨_, discards, (discarded_unchanged_iff discards).mpr ?_⟩
  intro item itemMem _ port portMem
  rw [strayMessage, List.mem_singleton] at itemMem
  subst itemMem
  rw [List.mem_singleton] at portMem
  exact .nothing (.inl portMem)

/-- The send right of a discarded message leaves a proxy behind. -/
theorem sendRight_discarded_changes :
    idleClient.names.Consistent ∧ ∃ next, idleClient.Discards (strayMessage 5) next ∧
      next.names ≠ idleClient.names := by
  refine ⟨(Created.client 1 2 _).consistent.consistent, _, ⟨rfl, by decide, ⟨_, rfl⟩, rfl, rfl⟩, ?_⟩
  intro same
  have sameProxy := congrArg (fun names => names.localPortsByRemote 5) same
  revert sameProxy
  decide

end Session

end Hurd.Netmsg
