import Hurd.Netmsg.InStep
import Hurd.Netmsg.Leaving

/-!
# A right crosses the network

A right that one side sends is translated by the other.  While a message crosses, the rights that
have come to the sender and are still to be sent, and those that the receiver has made and are to
leave again, are counted name by name.
-/

namespace Hurd.Netmsg

/-- The item carries no send-once rights. -/
def Item.Usual (item : Item) : Prop :=
  item.name = .moveSend ∨ item.name = .moveReceive ∨ item.name = .portName ∨ item.name = .data

namespace Session

/-- The ports that a session is served through -/
def Own (session : Session) (port : Port) : Prop :=
  port = session.control ∨ port = session.notificationPort

/-- What netmsg has is enough, with the rights that are to leave. -/
def AllBack (session : Session) (rights : List (TypeName × Port)) : Prop :=
  ∀ port, ¬port.Nothing → (session.account port).Backs (session.Own port)
    (rights.count (.moveSend, port)) (rights.count (.moveReceive, port))

/-- What netmsg has is enough, with the rights that are still to be sent. -/
def AllTake (session : Session) (rights : List (TypeName × Port)) : Prop :=
  ∀ port, ¬port.Nothing → (session.account port).Takes (session.Own port)
    (rights.count (.moveSend, port)) (rights.count (.moveReceive, port))

/-- What rights that are to leave under a name call for -/
def backed (session : Session) : Judgement := fun port holding sends receives =>
  Account.Backs (session.Own port) { session.account port with holding := holding } sends receives

/-- What rights that are still to be sent call for -/
def taken (session : Session) : Judgement := fun port holding sends receives =>
  Account.Takes (session.Own port) { session.account port with holding := holding } sends receives

/-- A right has been sent. -/
structure Sends (session : Session) (type : TypeName) (port word : Port) (next : Session) :
    Prop where
  names : session.names.Transmits type port word next.names
  sameOwn : SameOwn session next
  account : ∃ account, (session.account port).Transmits type account ∧
    Becomes session port account next

variable {session next : Session} {type : TypeName} {port word name : Port}
  {rights rest : List (TypeName × Port)} {sends receives : ℕ}

theorem SameOwn.own_iff (sameOwn : SameOwn session next) : next.Own port ↔ session.Own port := by
  simp [Own, sameOwn.control, sameOwn.notificationPort]

theorem sends_of_transmitSend (something : ¬port.Nothing)
    (transmitted : session.transmitSend port = some (word, next)) :
    session.Sends .moveSend port word next :=
  ⟨(transmitSend_cases transmitted).1, (transmitSend_cases transmitted).2,
    account_transmitSend something transmitted⟩

theorem sends_of_transmitReceive (something : ¬port.Nothing)
    (transmitted : session.transmitReceive port = some (word, next)) :
    session.Sends .moveReceive port word next :=
  ⟨(transmitReceive_cases transmitted).1, (transmitReceive_cases transmitted).2,
    account_transmitReceive something transmitted⟩

theorem allTake_iff : session.AllTake rights ↔ Tallies session.taken session.task rights :=
  Iff.rfl

theorem allBack_iff {task : Task} :
    Session.AllBack { session with task := task } rights ↔ Tallies session.backed task rights :=
  Iff.rfl

theorem AllTake.skip (takes : session.AllTake ((type, port) :: rest))
    (uncounted : port.Nothing ∨ type ≠ .moveSend ∧ type ≠ .moveReceive) : session.AllTake rest :=
  allTake_iff.mpr ((tallies_cons_iff uncounted).mp (allTake_iff.mp takes))

theorem AllBack.uncounted (backs : session.AllBack rights)
    (uncounted : port.Nothing ∨ type ≠ .moveSend ∧ type ≠ .moveReceive) :
    session.AllBack ((type, port) :: rights) :=
  allBack_iff.mpr ((tallies_cons_iff uncounted).mpr (allBack_iff.mp backs))

theorem AllBack.of_perm (backs : session.AllBack rights) (isPerm : rest.Perm rights) :
    session.AllBack rest :=
  allBack_iff.mpr ((allBack_iff.mp backs).of_perm isPerm)

theorem AllTake.backs (takes : session.AllTake []) : session.AllBack [] :=
  fun port something => (takes port something).backs

theorem AllTake.sent (takes : session.AllTake ((type, port) :: rest))
    (isRight : type = .moveSend ∨ type = .moveReceive) (something : ¬port.Nothing)
    (notLent : type = .moveSend → ¬session.names.Lent port)
    (sends : session.Sends type port word next) : next.AllTake rest := by
  rcases sends with ⟨-, sameOwn, account, transmits, becomes⟩
  intro other otherSomething
  have take := takes other otherSomething
  rw [becomes other]
  simp only [sameOwn.own_iff]
  split_ifs with same
  · subst same
    rcases isRight with rfl | rfl
    · rw [count_right_self, count_receive_of_send] at take
      apply take.transmitsSend transmits
      intro unlinked typed
      exact notLent rfl ((Names.lent_of_unlinked unlinked).mpr typed)
    · rw [count_right_self, count_send_of_receive] at take
      exact take.transmitsReceive transmits
  · rwa [count_right_of_name rest same, count_right_of_name rest same] at take

theorem AllBack.translatePort2 (backs : session.AllBack rights)
    (isConsistent : session.names.ConsistentBut machPortNull)
    (isRight : type = .moveSend ∨ type = .moveReceive) (something : ¬port.Nothing)
    (knows : session.Knows (type, port))
    (translated : session.translatePort2 port type = some (name, next)) :
    next.AllBack ((type, name) :: rights) := by
  rcases translatePort2_cases translated with ⟨names, sameOwn⟩
  rcases account_translatePort2 isRight something translated with ⟨account, translates, becomes⟩
  intro other otherSomething
  have back := backs other otherSomething
  rw [becomes other]
  simp only [sameOwn.own_iff]
  split_ifs with same
  · subst same
    rcases isRight with rfl | rfl
    · rw [count_right_self, count_receive_of_send]
      apply back.translatesSend translates
      have isType : next.names.localPortType other = account.type := by
        have atOther := congrArg Account.type (becomes other)
        rwa [if_pos rfl] at atOther
      rw [← isType]
      exact names.isSet something (knows rfl something) back.isSet
    · rw [count_right_self, count_send_of_receive]
      apply back.translatesReceive translates
      intro untyped
      rcases known_of_translateReceive isConsistent something translated with typed | unused
      · exact absurd untyped typed
      · exact unused
  · rwa [count_right_of_name rights same, count_right_of_name rights same]

/-- A send right is sent unless it is one to a port that is lent. -/
theorem transmitSend_succeeds
    (take : (session.account port).Takes (session.Own port) (sends + 1) receives)
    (isConsistent : session.names.ConsistentBut machPortNull) (something : ¬port.Nothing)
    (notLent : ¬session.names.Lent port) :
    ∃ word next, session.transmitSend port = some (word, next) := by
  have isPort : ¬(port = machPortNull ∨ port = machPortDead) := something
  unfold transmitSend
  rw [if_neg isPort]
  cases linked : session.names.remotePortsByLocal port with
  | none => exact ⟨_, _, rfl⟩
  | some remote =>
      have isTyped := isConsistent.consistent.typed port (by simp [linked])
      have typed : session.names.localPortType port = some .receive := by
        rcases Account.typed_of_set take.isSet isTyped with isReceive | isSend
        · exact isReceive
        · exact absurd ((Names.lent_of_linked linked).mpr isSend) notLent
      simp [typed]

theorem transmitReceive_succeeds
    (take : (session.account port).Takes (session.Own port) sends (receives + 1))
    (isConsistent : session.names.ConsistentBut machPortNull) (something : ¬port.Nothing) :
    ∃ word next, session.transmitReceive port = some (word, next) := by
  have isPort : ¬(port = machPortNull ∨ port = machPortDead) := something
  have held : (session.task.holds port).receive = true := (take.received (Nat.succ_pos receives)).1
  have isLive : ((session.task.modify port fun holding =>
      { holding with noSendersRequest := true }).holds port).live = true := by
    rw [Task.holds_modify, if_pos rfl]
    exact Holding.live_of_receive held
  unfold transmitReceive
  rw [if_neg isPort, Task.requestNoSenders, if_pos held]
  cases linked : session.names.remotePortsByLocal port with
  | none => simp
  | some remote =>
      have isTyped := isConsistent.consistent.typed port (by simp [linked])
      have typed : session.names.localPortType port = some .send := by
        rcases Account.typed_of_set take.isSet isTyped with isReceive | isSend
        · cases (take.forReceive isReceive).2
        · exact isSend
      simp [typed, Task.requestDeadName, isLive]

theorem relayReceive_succeeds (held : (session.task.holds port).receive = true)
    (notAsked : (session.task.holds port).deadNameRequest = false) :
    ∃ next, session.relayReceive port = some next := by
  have isLive : ((session.task.modify port fun holding =>
      { holding with noSendersRequest := false }).makeSend port).holds port =
        { session.task.holds port with
          noSendersRequest := false
          send := (session.task.holds port).send + 1 } := by
    rw [Task.holds_makeSend, if_pos rfl, Task.holds_modify, if_pos rfl, Holding.makeSend,
      if_pos held]
  simp [relayReceive, Task.requestNoSenders, held, Task.requestDeadName, isLive, Holding.live,
    notAsked]

/-- The kernel has a name that it can hand out. -/
def HasName (session : Session) : Prop :=
  ∃ name rest, session.task.fresh = name :: rest ∧ (session.task.holds name).inUse = false

theorem translateSend_succeeds (hasName : session.HasName)
    (known : ∀ {proxy}, session.names.localPortsByRemote port = some proxy →
      session.names.localPortType proxy = some .receive) :
    ∃ name next, session.translateSend port = some (name, next) := by
  unfold translateSend
  cases isKnown : session.names.localPortsByRemote port with
  | some proxy => simp [known isKnown]
  | none =>
      rcases hasName with ⟨name, rest, supply, unused⟩
      simp [Task.allocate, supply, unused, Task.makeSend, Task.requestNoSenders, Task.holds_modify]

theorem translateReceive_succeeds (hasName : session.HasName)
    (known : ∀ {proxy}, session.names.localPortsByRemote port = some proxy →
      session.names.localPortType proxy = some .receive ∧
        (session.task.holds proxy).receive = true ∧
          (session.task.holds proxy).deadNameRequest = false) :
    ∃ name next, session.translateReceive port = some (name, next) := by
  unfold translateReceive
  cases isKnown : session.names.localPortsByRemote port with
  | some proxy =>
      rcases known isKnown with ⟨typed, held, notAsked⟩
      rcases relayReceive_succeeds held notAsked with ⟨next, relayed⟩
      simp [typed, relayed]
  | none =>
      rcases hasName with ⟨name, rest, supply, unused⟩
      simp [Task.allocate, supply, unused, Task.makeSend, Task.requestDeadName, Task.holds_modify,
        Holding.live]

/-- What holds between the sender and the receiver of a message, while its rights cross. -/
structure Between (permits : Prop) (sender receiver : Session)
    (coming going : List (TypeName × Port)) : Prop where
  takes : sender.AllTake coming
  backs : receiver.AllBack going
  inStep : sender.names.InStep receiver.names
  unflagged : ∀ type port, (type, port) ∈ coming → type = .moveSend ∨ type = .moveReceive →
    ¬port.Nothing → port.flagged = false
  sendsOwn : sender.names.SendsOwn coming
  unasked : ∀ port remote, (.moveReceive, port) ∈ coming → ¬port.Nothing →
    sender.names.remotePortsByLocal port = some remote →
      (receiver.task.holds remote).deadNameRequest = false
  distinct : receiver.task.fresh.Nodup
  newNames : ∀ name ∈ receiver.task.fresh, ¬name.Nothing ∧ (receiver.task.holds name).inUse = false
  enough : coming.length ≤ receiver.task.fresh.length
  receives : ∀ port, ¬port.Nothing → (.moveReceive, port) ∈ coming ++ going → permits

variable {permits : Prop} {sender receiver sent came : Session}
  {coming going : List (TypeName × Port)}

/-- A name that the kernel can hand out is in no map. -/
theorem Between.untyped (between : Between permits sender receiver coming going) {name : Port}
    (isNew : name ∈ receiver.task.fresh) :
    receiver.names.localPortType name = none ∧ receiver.names.remotePortsByLocal name = none := by
  rcases between.newNames name isNew with ⟨something, unused⟩
  have back := between.backs name something
  have untyped : receiver.names.localPortType name = none := by
    by_contra isTyped
    cases unused.symm.trans (back.inUse isTyped)
  exact ⟨untyped, (back.untyped untyped).1⟩

theorem Between.supplied (between : Between permits sender receiver coming going) :
    receiver.names.Supplied receiver.task.fresh := by
  refine ⟨between.distinct, fun name isNew => ⟨fun isNull => ?_, (between.untyped isNew).2, ?_⟩⟩
  · exact (between.newNames name isNew).1 (.inl isNull)
  · exact between.inStep.isOrderlyThere.noOnce name

theorem Between.hasName (between : Between permits sender receiver ((type, port) :: rest) going) :
    receiver.HasName := by
  cases supply : receiver.task.fresh with
  | nil =>
      have enough := between.enough
      simp [supply] at enough
  | cons name left => exact ⟨name, left, supply, (between.newNames name (by simp [supply])).2⟩

theorem Between.of_perm {order : List (TypeName × Port)}
    (between : Between permits sender receiver coming going)
    (isPerm : order.Perm going) : Between permits sender receiver coming order :=
  { between with
    backs := between.backs.of_perm isPerm
    receives := fun port something isIn =>
      between.receives port something (by simpa [isPerm.mem_iff] using isIn) }

/-- An element that is no right, or names no port, goes through as it is. -/
theorem Between.skip (between : Between permits sender receiver ((type, port) :: rest) going)
    (uncounted : port.Nothing ∨ type ≠ .moveSend ∧ type ≠ .moveReceive) :
    Between permits sender receiver rest ((type, port) :: going) where
  takes := between.takes.skip uncounted
  backs := between.backs.uncounted uncounted
  inStep := between.inStep
  unflagged type port isIn := between.unflagged type port (List.mem_cons_of_mem _ isIn)
  sendsOwn := between.sendsOwn.skip (uncounted.imp_right And.right)
  unasked port remote isIn := between.unasked port remote (List.mem_cons_of_mem _ isIn)
  distinct := between.distinct
  newNames := between.newNames
  enough := Nat.le_of_succ_le between.enough
  receives port something isIn :=
    between.receives port something (by simpa [or_left_comm] using isIn)

/-- The receiver knows the ports of its own that come back to it. -/
theorem Between.knows (between : Between permits sender receiver ((type, port) :: rest) going)
    (isRight : type = .moveSend ∨ type = .moveReceive) (something : ¬port.Nothing)
    (names : sender.names.Transmits type port word sent.names) : receiver.Knows (type, word) := by
  intro _ _ flagged
  rcases names.of_right isRight something with ⟨remote, linked, rfl, -⟩ | ⟨-, rfl, -⟩
  · have types := (between.inStep.linked linked).2.1
    intro untyped
    rw [BitVec.not_not] at untyped
    simp [Opposite, untyped] at types
  · have unflagged := between.unflagged type word List.mem_cons_self isRight something
    cases unflagged.symm.trans flagged

/-- What the sender writes for a right, the receiver has a right for. -/
theorem Between.translatePort2_succeeds
    (between : Between permits sender receiver ((type, port) :: rest) going)
    (isRight : type = .moveSend ∨ type = .moveReceive) (something : ¬port.Nothing)
    (names : sender.names.Transmits type port word sent.names) :
    ∃ name came, receiver.translatePort2 word type = some (name, came) := by
  have take := between.takes port something
  have back := fun other => between.backs other
  rcases names.of_right isRight something with ⟨remote, linked, rfl, typed⟩ | ⟨unlinked, rfl, -⟩
  · rcases between.inStep.linked linked with ⟨-, types, notNull, unflagged⟩
    have isPort : ¬(~~~remote = machPortNull ∨ ~~~remote = machPortDead) :=
      Port.not_remote notNull unflagged
    unfold Session.translatePort2
    rw [if_neg isPort, if_pos (Port.flagged_not_of_not_flagged unflagged), BitVec.not_not]
    rcases typed with ⟨rfl, -, -⟩ | ⟨rfl, typed, -⟩
    · simp [translateFlagged]
    · have typedThere : receiver.names.localPortType remote = some .receive := by
        simpa [Opposite, typed] using types
      have isName := Port.something_of_not_flagged unflagged notNull
      have held := (back remote isName).forReceive typedThere
      have notAsked := between.unasked port remote List.mem_cons_self something linked
      rcases relayReceive_succeeds held.1 notAsked with ⟨came, relayed⟩
      simp [translateFlagged, typedThere, relayed]
  · have unflagged := between.unflagged type word List.mem_cons_self isRight something
    have isPort : ¬(word = machPortNull ∨ word = machPortDead) := something
    unfold Session.translatePort2
    rw [if_neg isPort, if_neg (by simp [unflagged])]
    rcases isRight with rfl | rfl
    · refine translateSend_succeeds between.hasName fun {proxy} known => ?_
      have types := (between.inStep.here.proxied known).2
      have notLent := between.sendsOwn.notLent something rfl
      rw [Names.lent_of_unlinked unlinked] at notLent
      exact types.serves notLent
    · refine translateReceive_succeeds between.hasName fun {proxy} known => ?_
      have types := (between.inStep.here.proxied known).2
      have linkedThere := (between.inStep.isOrderlyThere.isConsistent.inverse _ _).mp known
      have notLent : sender.names.localPortType word ≠ some .receive := by
        intro isReceive
        rw [count_right_self] at take
        cases (take.forReceive isReceive).2
      have typed := types.serves notLent
      have backs := back proxy (between.inStep.isOrderlyThere.isName proxy (by simp [linkedThere]))
      refine ⟨typed, (backs.forReceive typed).1, backs.quiet ?_ typed⟩
      simp [account, linkedThere]

/-- The name of a new proxy is the next that the kernel hands out. -/
theorem Between.names_translated
    (between : Between permits sender receiver ((type, port) :: rest) going)
    (isRight : type = .moveSend ∨ type = .moveReceive) (something : ¬port.Nothing)
    (sends : sender.names.Transmits type port word sent.names)
    (translates : receiver.names.Translates receiver.task.fresh type word name came.names
      came.task.fresh) :
    came.task.fresh = receiver.task.fresh ∧ receiver.names.localPortType name ≠ none ∨
      receiver.task.fresh = name :: came.task.fresh := by
  rcases sends.of_right isRight something with ⟨remote, linked, rfl, -⟩ | ⟨-, rfl, -⟩
  · rcases between.inStep.linked linked with ⟨-, types, notNull, unflagged⟩
    rcases translates.of_flagged isRight (Port.not_remote notNull unflagged)
      (Port.flagged_not_of_not_flagged unflagged) with ⟨rfl, supply, -⟩
    refine .inl ⟨supply, fun untyped => ?_⟩
    rw [BitVec.not_not] at untyped
    simp [Opposite, untyped] at types
  · have unflagged := between.unflagged type word List.mem_cons_self isRight something
    rcases translates.of_unflagged isRight something unflagged with
      ⟨known, supply, -⟩ | ⟨-, supply, -⟩
    · have types := (between.inStep.here.proxied known).2
      refine .inl ⟨supply, fun untyped => ?_⟩
      simp [Opposite, untyped] at types
    · exact .inr supply

/-- The names that the kernel can hand out next are still not in use. -/
theorem Between.newNames_translated
    (between : Between permits sender receiver ((type, port) :: rest) going)
    (isRight : type = .moveSend ∨ type = .moveReceive) (something : ¬port.Nothing)
    (sends : sender.names.Transmits type port word sent.names)
    (translates : receiver.names.Translates receiver.task.fresh type word name came.names
      came.task.fresh)
    (others : ∀ other, other ≠ name → came.task.holds other = receiver.task.holds other) :
    came.task.fresh.Nodup ∧ (∀ other ∈ came.task.fresh,
      ¬other.Nothing ∧ (came.task.holds other).inUse = false) ∧
        rest.length ≤ came.task.fresh.length := by
  have enough := between.enough
  rw [List.length_cons] at enough
  rcases between.names_translated isRight something sends translates with ⟨supply, typed⟩ | supply
  · rw [supply]
    refine ⟨between.distinct, fun other isNew => ?_, by omega⟩
    have different : other ≠ name := by
      rintro rfl
      exact typed (between.untyped isNew).1
    rw [others other different]
    exact between.newNames other isNew
  · have distinct := between.distinct
    rw [supply] at distinct enough
    rcases List.nodup_cons.mp distinct with ⟨notIn, restDistinct⟩
    refine ⟨restDistinct, fun other isNew => ?_, by simpa using enough⟩
    have different : other ≠ name := fun same => notIn (same ▸ isNew)
    rw [others other different]
    exact between.newNames other (by simp [supply, isNew])

/-- A receive right that comes home is not for a port that another is made for. -/
theorem Between.homecoming_ne
    (between : Between permits sender receiver ((.moveReceive, port) :: rest) going)
    (something : ¬port.Nothing)
    (sends : sender.names.Transmits .moveReceive port word sent.names)
    (translates : receiver.names.Translates receiver.task.fresh .moveReceive word name came.names
      came.task.fresh) {other remote : Port} (isIn : (.moveReceive, other) ∈ rest)
    (linked : sender.names.remotePortsByLocal other = some remote) : remote ≠ name := by
  rintro rfl
  have home := between.inStep.linked linked
  rcases sends.of_right (.inr rfl) something with ⟨remote, linkedHere, rfl, -⟩ | ⟨-, rfl, -⟩
  · rcases between.inStep.linked linkedHere with ⟨-, -, notNull, unflagged⟩
    rcases translates.of_flagged (.inr rfl) (Port.not_remote notNull unflagged)
      (Port.flagged_not_of_not_flagged unflagged) with ⟨rfl, -, -⟩
    rw [BitVec.not_not] at linked
    have inverse := between.inStep.isOrderly.isConsistent.inverse
    have same : port = other := by
      simpa [(inverse _ _).mpr linkedHere] using (inverse _ _).mpr linked
    subst same
    have isOne := ((between.takes port something).received (by simp)).2
    rw [count_right_self] at isOne
    have positive := List.count_pos_iff.mpr isIn
    omega
  · have unflagged := between.unflagged _ word List.mem_cons_self (.inr rfl) something
    rcases translates.of_unflagged (.inr rfl) something unflagged with
      ⟨known, -, -⟩ | ⟨-, supply, -⟩
    · have linkedThere := (between.inStep.isOrderlyThere.isConsistent.inverse _ _).mp known
      cases home.1.symm.trans linkedThere
    · have untyped := (between.untyped (by simp [supply] : remote ∈ receiver.task.fresh)).1
      have types := home.2.1
      simp [Opposite, untyped] at types

/-- One right has crossed, and the others are still to cross. -/
theorem Between.crosses (between : Between permits sender receiver ((type, port) :: rest) going)
    (isRight : type = .moveSend ∨ type = .moveReceive) (something : ¬port.Nothing)
    (sends : sender.Sends type port word sent)
    (translated : receiver.translatePort2 word type = some (name, came)) :
    Between permits sent came rest ((type, name) :: going) := by
  rcases translatePort2_cases translated with ⟨translates, -⟩
  have notWord : ¬word.Nothing := by
    rcases sends.names.of_right isRight something with ⟨remote, linked, rfl, -⟩ | ⟨-, rfl, -⟩
    · rcases between.inStep.linked linked with ⟨-, -, notNull, unflagged⟩
      exact Port.not_remote notNull unflagged
    · exact something
  rcases account_translatePort2 isRight notWord translated with ⟨account, accounted, becomes⟩
  have others : ∀ other, other ≠ name → came.task.holds other = receiver.task.holds other := by
    intro other different
    have same := becomes other
    rw [if_neg different] at same
    exact congrArg Account.holding same
  have notLent := between.sendsOwn.notLent something
  rcases between.newNames_translated isRight something sends.names translates others with
    ⟨distinct, newNames, enough⟩
  refine ⟨between.takes.sent isRight something notLent sends,
    between.backs.translatePort2 between.inStep.isOrderlyThere.isConsistent isRight notWord
      (between.knows isRight something sends.names) translated,
    between.inStep.exchange isRight something
      (between.unflagged type port List.mem_cons_self isRight something) notLent between.supplied
      (fun name isNew => ⟨(between.newNames name isNew).1, (between.untyped isNew).1⟩)
      sends.names translates,
    fun type port isIn => between.unflagged type port (List.mem_cons_of_mem _ isIn),
    between.sendsOwn.transmits isRight something sends.names,
    fun other remote isIn otherSomething linked => ?_, distinct, newNames, enough,
    fun other otherSomething isIn => ?_⟩
  · rw [sends.names.sameLinks.1] at linked
    have notAsked :=
      between.unasked other remote (List.mem_cons_of_mem _ isIn) otherSomething linked
    by_cases same : remote = name
    · rcases isRight with rfl | rfl
      · have isAccount := congrArg Account.holding (becomes remote)
        rw [if_pos same] at isAccount
        have quiet := accounted.quiet (same ▸ notAsked)
        rwa [← isAccount] at quiet
      · exact absurd same (between.homecoming_ne something sends.names translates isIn linked)
    · rw [others remote same]
      exact notAsked
  · rcases List.mem_append.mp isIn with inRest | inGoing
    · exact between.receives other otherSomething (by simp [inRest])
    · rcases List.mem_cons.mp inGoing with isFirst | wasGoing
      · cases isFirst
        exact between.receives port something (by simp)
      · exact between.receives other otherSomething (by simp [wasGoing])

theorem Between.crossesSend
    (between : Between permits sender receiver ((.moveSend, port) :: rest) going) :
    ∃ word sent name came, sender.transmitSend port = some (word, sent) ∧
      receiver.translatePort2 word .moveSend = some (name, came) ∧
        Between permits sent came rest ((.moveSend, name) :: going) := by
  by_cases something : port.Nothing
  · have isPort : port = machPortNull ∨ port = machPortDead := something
    exact ⟨port, sender, port, receiver, if_pos isPort, if_pos isPort,
      between.skip (.inl something)⟩
  · have take := between.takes port something
    rw [count_right_self] at take
    rcases transmitSend_succeeds take between.inStep.isOrderly.isConsistent something
      (between.sendsOwn.notLent something rfl) with ⟨word, sent, transmitted⟩
    have sends := sends_of_transmitSend something transmitted
    rcases between.translatePort2_succeeds (.inl rfl) something sends.names with
      ⟨name, came, translated⟩
    exact ⟨word, sent, name, came, transmitted, translated,
      between.crosses (.inl rfl) something sends translated⟩

theorem Between.crossesReceive
    (between : Between permits sender receiver ((.moveReceive, port) :: rest) going) :
    ∃ word sent name came, sender.transmitReceive port = some (word, sent) ∧
      receiver.translatePort2 word .moveReceive = some (name, came) ∧
        Between permits sent came rest ((.moveReceive, name) :: going) := by
  by_cases something : port.Nothing
  · have isPort : port = machPortNull ∨ port = machPortDead := something
    exact ⟨port, sender, port, receiver, if_pos isPort, if_pos isPort,
      between.skip (.inl something)⟩
  · have take := between.takes port something
    rw [count_right_self] at take
    rcases transmitReceive_succeeds take between.inStep.isOrderly.isConsistent something with
      ⟨word, sent, transmitted⟩
    have sends := sends_of_transmitReceive something transmitted
    rcases between.translatePort2_succeeds (.inr rfl) something sends.names with
      ⟨name, came, translated⟩
    exact ⟨word, sent, name, came, transmitted, translated,
      between.crosses (.inr rfl) something sends translated⟩

/-- The elements of an item that carries no rights go through as they are. -/
theorem Between.skipItem {item : Item}
    (between : Between permits sender receiver (item.rights ++ rest) going)
    (notRight : item.name ≠ .moveSend ∧ item.name ≠ .moveReceive) :
    Between permits sender receiver rest (item.rights ++ going) := by
  rcases item with ⟨type, ports⟩
  unfold Item.rights at between ⊢
  dsimp only at between notRight ⊢
  induction ports generalizing going with
  | nil => exact between
  | cons port ports ih => exact (ih (between.skip (.inr notRight))).of_perm List.perm_middle.symm

/-- The elements of an item of send or of receive rights cross one by one. -/
theorem Between.crossesPorts {transmit : Session → Port → Option (Port × Session)}
    {ports : List Port}
    (crosses : ∀ {sender receiver : Session} {port : Port} {rest going : List (TypeName × Port)},
      Between permits sender receiver ((type, port) :: rest) going →
        ∃ word sent name came, transmit sender port = some (word, sent) ∧
          receiver.translatePort2 word type = some (name, came) ∧
            Between permits sent came rest ((type, name) :: going))
    (between : Between permits sender receiver (ports.map (type, ·) ++ rest) going) :
    ∃ words sent names came, Loop.traverse transmit sender ports = some (words, sent) ∧
      Loop.traverse (fun session port => session.translatePort2 port type) receiver words =
        some (names, came) ∧
          Between permits sent came rest (names.map (type, ·) ++ going) := by
  refine Loop.traverse_relay
    (fun later done sender receiver =>
      Between permits sender receiver (later.map (type, ·) ++ rest) (done.map (type, ·) ++ going))
    ?_ between
  intro port later done sender receiver between
  rcases crosses between with ⟨word, sent, name, came, transmitted, translated, after⟩
  refine ⟨word, sent, name, came, transmitted, translated, after.of_perm ?_⟩
  simp

theorem Between.crossesItem {item : Item} (isUsual : Item.Usual item)
    (between : Between permits sender receiver (item.rights ++ rest) going) :
    ∃ written sent translated came, transmitItem false sender item = some (written, sent) ∧
      translateItem false receiver written = some (translated, came) ∧
        Between permits sent came rest (translated.rights ++ going) := by
  rcases item with ⟨type, ports⟩
  rcases isUsual with rfl | rfl | rfl | rfl
  · rcases Between.crossesPorts Between.crossesSend between with
      ⟨words, sent, names, came, transmitted, translated, after⟩
    exact ⟨⟨.moveSend, words⟩, sent, ⟨.moveSend, names⟩, came, by simp [transmitItem, transmitted],
      by simp [translateItem, translated], after⟩
  · rcases Between.crossesPorts Between.crossesReceive between with
      ⟨words, sent, names, came, transmitted, translated, after⟩
    exact ⟨⟨.moveReceive, words⟩, sent, ⟨.moveReceive, names⟩, came,
      by simp [transmitItem, transmitted, map_transmitName],
      by simp [translateItem, translated], after⟩
  · exact ⟨⟨.portName, ports⟩, sender, ⟨.portName, ports⟩, receiver,
      by simp [transmitItem, map_transmitName], rfl, between.skipItem (by simp)⟩
  · exact ⟨⟨.data, ports⟩, sender, ⟨.data, ports⟩, receiver, rfl, rfl, between.skipItem (by simp)⟩

/-- The body of a message crosses item by item. -/
theorem Between.crossesBody {body : List Item} (isUsual : ∀ item ∈ body, Item.Usual item)
    (between : Between permits sender receiver (body.flatMap Item.rights) []) :
    ∃ written sent translated came,
      Loop.traverse (transmitItem false) sender body = some (written, sent) ∧
        Loop.traverse (translateItem false) receiver written = some (translated, came) ∧
          Between permits sent came [] (translated.flatMap Item.rights) := by
  have crosses : ∃ written sent translated came,
      Loop.traverse (transmitItem false) sender body = some (written, sent) ∧
        Loop.traverse (translateItem false) receiver written = some (translated, came) ∧
          (∀ item ∈ ([] : List Item), item.Usual) ∧
            Between permits sent came [] (translated.flatMap Item.rights) := by
    refine Loop.traverse_relay
      (fun later done sender receiver => (∀ item ∈ later, Item.Usual item) ∧
        Between permits sender receiver (later.flatMap Item.rights) (done.flatMap Item.rights))
      ?_ ⟨isUsual, between⟩
    rintro item later done sender receiver ⟨isUsual, between⟩
    rcases List.forall_mem_cons.mp isUsual with ⟨isItem, others⟩
    rcases Between.crossesItem isItem between with
      ⟨word, sent, name, came, transmitted, translated, after⟩
    refine ⟨word, sent, name, came, transmitted, translated, others, after.of_perm ?_⟩
    simpa using List.perm_append_comm
  rcases crosses with ⟨written, sent, translated, came, transmitted, isTranslated, -, after⟩
  exact ⟨written, sent, translated, came, transmitted, isTranslated, after⟩

end Session

end Hurd.Netmsg
