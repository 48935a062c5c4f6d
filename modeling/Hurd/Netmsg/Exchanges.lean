import Hurd.Netmsg.Relaying

/-!
# One message after the other

Two peers handle the messages of their tasks one by one.  As long as no send right goes out of a
port that is lent, no receive right comes home to a DEAD NAME request, and none is sent to the first
port of a server without a right to it, no assertion fails.
-/

namespace Hurd.Netmsg

theorem Host.eq_or_eq_peer (host other : Host) : host = other ∨ host = other.peer := by
  cases host <;> cases other <;> simp [Host.peer]

/-- The maps of a session that has just been made have the first port at most. -/
theorem Session.Created.maps {session : Session} (created : Session.Created session) (port : Port) :
    session.names.localPortsByRemote port = none ∧ session.names.remotePortsByLocal port = none ∧
      session.names.sendOncePortsByLocal port = none ∧
        (session.names.localPortType port = none ∨
          port = session.firstPort ∧ session.names.localPortType port = some .send) := by
  cases created with
  | client => exact ⟨rfl, rfl, rfl, .inl rfl⟩
  | server firstPort =>
      refine ⟨rfl, rfl, rfl, ?_⟩
      by_cases same : port = firstPort
      · exact .inr ⟨same, by simp [Session.server, Names.setType, same]⟩
      · exact .inl (by simp [Session.server, Names.setType, same])

/-- Two sessions, each of which has handled all messages -/
abbrev Pair := Host → Session

namespace Pair

/-- A message comes to one side by IPC, and to the other over the network. -/
structure Exchange where
  host : Host
  message : Message
  fresh : List Port := []

/-- Both sides handle a message; `none` where one of them ends. -/
def exchange (pair : Pair) (label : Exchange) : Option Pair := do
  let (wire, sent) ← ((pair label.host).withRights label.message).ipcBufferHandler label.message
  match wire with
  | none => some (Function.update pair label.host sent)
  | some wire => do
      let (_, came) ← ((pair label.host.peer).withNames label.fresh).tcpBufferHandler wire
      some (Function.update (Function.update pair label.host sent) label.host.peer came)

/-- A message that a task may send, or that the kernel sends when there are no senders -/
inductive Legal (pair : Pair) (label : Exchange) : Prop
  | transfers (isTransfer : (pair label.host).Transfers label.message)
      (handsOut : (pair label.host.peer).HandsOut label.fresh)
      (enough : label.message.rights.length ≤ label.fresh.length) : Legal pair label
  | noSenders (isNoSenders : (pair label.host).NoSenders label.message) : Legal pair label

/-- The message does not run into a failing assertion. -/
def Crosses (pair : Pair) (label : Exchange) : Prop :=
  Session.Crosses (pair label.host) (pair label.host.peer) label.message

/-- Two sessions that have just been made have their own ports, a server a right to its first. -/
structure Start (pair : Pair) : Prop where
  created : ∀ host, Session.Created (pair host)
  held : ∀ host port, (pair host).Own port → ¬port.Nothing →
    ((pair host).task.holds port).receive = true ∧
      ((pair host).task.holds port).noSendersRequest = false
  noOthers : ∀ host port, ¬port.Nothing → ((pair host).task.holds port).receive = true →
    (pair host).Own port
  firstHeld : ∀ host, ¬(pair host).firstPort.Nothing →
    0 < ((pair host).task.holds (pair host).firstPort).send

/-- What holds of both sides between two messages -/
structure Settled (pair : Pair) : Prop where
  backs : ∀ host, (pair host).AllBack []
  inStep : ∀ host, (pair host).names.InStep (pair host.peer).names

variable {start pair next : Pair} {label : Exchange}

theorem Start.settled (isStart : pair.Start) : pair.Settled := by
  have maps := fun host => (isStart.created host).maps
  refine ⟨fun host port something => ?_, fun host => ?_⟩
  · rcases maps host port with ⟨-, unlinked, -, untyped | ⟨isFirst, typed⟩⟩
    · refine ⟨by simp [Session.account, untyped], by simp [Session.account, unlinked],
        by simp [Session.account, untyped], by simp [Session.account, untyped],
        fun held => .inl (isStart.noOthers host port something held),
        by simp [Session.account, unlinked], fun isOwn => ?_⟩
      rcases isStart.held host port isOwn something with ⟨held, notAsked⟩
      exact ⟨held, notAsked, unlinked, by simp [Session.account, untyped], rfl⟩
    · refine ⟨by simp [Session.account, typed], by simp [Session.account, typed],
        by simp [Session.account, typed], fun _ => ⟨?_, Nat.zero_le 1⟩,
        fun held => .inl (isStart.noOthers host port something held),
        by simp [Session.account, unlinked], fun isOwn => ?_⟩
      · subst isFirst
        exact isStart.firstHeld host something
      · rcases isStart.held host port isOwn something with ⟨held, notAsked⟩
        exact ⟨held, notAsked, unlinked, by simp [Session.account, typed], rfl⟩
  · have proxiedBy : ∀ host other : Host, (pair host).names.ProxiedBy (pair other).names := by
      intro host other
      refine ⟨fun {port proxy} known => ?_, fun {port} _ _ => ?_⟩
      · cases (maps other port).1.symm.trans known
      · rcases maps host port with ⟨-, -, -, untyped | ⟨-, typed⟩⟩
        · simp [untyped]
        · simp [typed]
    have orderly : ∀ host, (pair host).names.Orderly :=
      fun host => ⟨(isStart.created host).consistent, fun port => (maps host port).2.2.1,
        fun port linked => absurd (maps host port).2.1 linked⟩
    exact ⟨proxiedBy _ _, proxiedBy _ _, orderly _, orderly _⟩

/-- Both sides handle one more message. -/
theorem Settled.exchange (settled : pair.Settled) (legal : pair.Legal label)
    (crosses : pair.Crosses label) :
    ∃ next, pair.exchange label = some next ∧ next.Settled := by
  have succeeds : ∃ wire sent taken came,
      ((pair label.host).withRights label.message).ipcBufferHandler label.message =
        some (some wire, sent) ∧
      ((pair label.host.peer).withNames label.fresh).tcpBufferHandler wire = some (taken, came) ∧
        sent.AllBack [] ∧ came.AllBack [] ∧ sent.names.InStep came.names := by
    rcases legal with ⟨isTransfer, handsOut, enough⟩ | isNoSenders
    · exact Session.transfer_succeeds (settled.backs _) (settled.backs _) (settled.inStep _)
        isTransfer crosses handsOut enough
    · exact Session.noSenders_succeeds (settled.backs _) (settled.backs _) (settled.inStep _)
        isNoSenders
  rcases succeeds with ⟨wire, sent, taken, came, handled, delivered, backs, backsThere, inStep⟩
  refine ⟨Function.update (Function.update pair label.host sent) label.host.peer came, ?_, ?_, ?_⟩
  · simp [Pair.exchange, handled, delivered]
  · intro host
    rcases host.eq_or_eq_peer label.host with rfl | rfl
    · simpa [label.host.peer_ne.symm] using backs
    · simpa using backsThere
  · intro host
    rcases host.eq_or_eq_peer label.host with rfl | rfl
    · simpa [label.host.peer_ne.symm] using inStep
    · simpa [label.host.peer_ne.symm] using inStep.symm

/-- Both sides handle all messages. -/
theorem Settled.completes (settled : pair.Settled) {labels : List Exchange}
    (allowed : Transition.AllowedRun Pair.exchange
      (fun pair label => pair.Legal label ∧ pair.Crosses label) labels pair) :
    ∃ last, Transition.run Pair.exchange labels pair = some last := by
  induction labels generalizing pair with
  | nil => exact ⟨pair, rfl⟩
  | cons label rest ih =>
      rcases allowed with ⟨⟨legal, crosses⟩, restAllowed⟩
      rcases settled.exchange legal crosses with ⟨next, taken, nextSettled⟩
      rcases ih nextSettled (restAllowed next taken) with ⟨last, finished⟩
      exact ⟨last, by rw [Transition.run_cons, taken, Option.bind_some, finished]⟩

theorem exchanges_complete (isStart : start.Start) {labels : List Exchange}
    (allowed : Transition.AllowedRun exchange
      (fun pair label => pair.Legal label ∧ pair.Crosses label) labels start) :
    ∃ pair, Transition.run exchange labels start = some pair :=
  isStart.settled.completes allowed

/-- A translator and a server that have just been joined -/
def joinedPair : Pair
  | .left => Session.client 1 2
      { holds := fun name => { receive := decide (name = 1 ∨ name = 2) }, fresh := [] }
  | .right => Session.server 3 4
      { holds := fun name =>
          { receive := decide (name = 4), send := if name = 3 then 1 else 0 }, fresh := [] }

theorem joinedPair_start : joinedPair.Start := by
  refine ⟨fun host => ?_, fun host port isOwn something => ?_, fun host port something held => ?_,
    fun host something => ?_⟩
  · cases host with
    | left => exact .client _ _ _
    | right => exact .server _ _ _
  · cases host with
    | left =>
        rcases isOwn with rfl | rfl
        · exact ⟨rfl, rfl⟩
        · exact ⟨rfl, rfl⟩
    | right =>
        rcases isOwn with rfl | rfl
        · exact absurd (.inl rfl) something
        · exact ⟨rfl, rfl⟩
  · cases host with
    | left => simpa [joinedPair, Session.client, Session.Own] using held
    | right => exact .inr (by simpa [joinedPair, Session.server] using held)
  · cases host with
    | left => exact absurd (.inl rfl) something
    | right => exact Nat.one_pos

/-- A message with one right, for which the other side can be given one name -/
def single (host : Host) (port : Port) (type : TypeName) (right name : Port) : Exchange :=
  { host := host, message := { localPort := port, body := [⟨type, [right]⟩] }, fresh := [name] }

variable {host : Host} {port right name : Port} {type : TypeName}

theorem rights_single : (single host port type right name).message.rights = [(type, right)] := rfl

theorem legal_single (served : ((pair host).task.holds port).receive = true)
    (notNotified : port ≠ (pair host).notificationPort) (unflagged : port.flagged = false)
    (notNull : port ≠ machPortNull) (isRight : type = .moveSend ∨ type = .moveReceive)
    (rightUnflagged : right.flagged = false)
    (notHeld : type = .moveReceive → ((pair host).task.holds right).receive = false)
    (something : ¬name.Nothing) (unused : ((pair host.peer).task.holds name).inUse = false) :
    pair.Legal (single host port type right name) := by
  refine .transfers ⟨served, notNotified, unflagged, notNull, .inl rfl, ⟨rfl, rfl⟩, rfl,
    by simp [single, msgidNoSenders, msgidDeadName], fun item isIn => ?_,
    fun other port isIn _ _ => ?_, fun port _ => ?_, fun port _ positive => ?_⟩
    ⟨List.nodup_singleton name, fun other isNew => ?_⟩ le_rfl
  · cases List.mem_singleton.mp isIn
    exact isRight.imp_right .inl
  · rw [rights_single] at isIn
    cases List.mem_singleton.mp isIn
    exact rightUnflagged
  · rw [rights_single]
    exact List.count_le_length
  · rw [rights_single] at positive
    cases List.mem_singleton.mp (List.count_pos_iff.mp positive)
    exact notHeld rfl
  · cases List.mem_singleton.mp isNew
    exact ⟨something, unused⟩

/-- A send right that is the only one of a message crosses unless its port is lent. -/
theorem crosses_single (notLent : ¬(pair host).names.Lent right) :
    pair.Crosses (single host port .moveSend right name) := by
  refine ⟨fun sent other later isSplit _ => ?_, fun other remote isIn => ?_,
    fun _ => .inr fun other _ isIn => ?_⟩
  · rw [rights_single] at isSplit
    rcases List.append_eq_singleton_iff.mp isSplit.symm with ⟨rfl, isSingle⟩ | ⟨-, isNil⟩
    · cases isSingle
      simpa [Names.LentAfter, single] using notLent
    · cases isNil
  · rw [rights_single] at isIn
    simp at isIn
  · rw [rights_single] at isIn
    simp at isIn

/-- A right is sent to the server, and another back to where the first came from. -/
def returningRun : List Exchange :=
  [single .left 1 .moveSend 5 20, single .right 20 .moveSend 20 30]

theorem exchanges_complete_after_return :
    ∃ pair, Transition.run exchange returningRun joinedPair = some pair := by
  refine exchanges_complete joinedPair_start ⟨⟨?_, ?_⟩, ?_⟩
  · apply legal_single rfl <;> decide
  · apply crosses_single
    rw [Names.lent_of_unlinked rfl]
    decide
  · rintro _ ⟨⟩
    refine ⟨⟨?_, ?_⟩, fun _ _ => trivial⟩
    · apply legal_single rfl <;> decide
    · apply crosses_single
      rw [Names.lent_of_linked rfl]
      decide

/-- A receive right is sent to the server, and then a send right to the same port. -/
def lentRun : List Exchange :=
  [single .left 1 .moveReceive 5 20, single .left 1 .moveSend 5 21]

theorem lentRun_not_complete :
    ¬∀ (start : Pair) (labels : List Exchange), start.Start →
      Transition.AllowedRun exchange Legal labels start →
        ∃ pair, Transition.run exchange labels start = some pair := by
  intro completes
  have allowed : Transition.AllowedRun exchange Legal lentRun joinedPair := by
    refine ⟨by apply legal_single rfl <;> decide, ?_⟩
    rintro _ ⟨⟩
    exact ⟨by apply legal_single rfl <;> decide, fun _ _ => trivial⟩
  rcases completes joinedPair lentRun joinedPair_start allowed with ⟨pair, finished⟩
  have aborts : Transition.run exchange lentRun joinedPair = none := rfl
  cases aborts.symm.trans finished

end Pair

end Hurd.Netmsg
