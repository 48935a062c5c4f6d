import Hurd.Netmsg.Exchanges
import Hurd.Netmsg.Retaining

/-!
# The two ends of a connection

Each end handles one message after the other, as they come from its task and from the stream, in
any order.  A NO SENDERS notification for a port may cross another right for the same port on its
way, and nothing tells the end that handles it.  Where none does, no end lets go of a port that the
other relies on.
-/

namespace Hurd.Netmsg

/-- A session, and the messages on their way to it -/
structure Endpoint where
  session : Session
  stream : List Message := []

abbrev Ends := Host → Endpoint

namespace Ends

/-- A message is handled, whatever the task holds by then. -/
inductive Action
  | ipc (host : Host) (task : Task) (message : Message)
  | tcp (host : Host) (task : Task)

/-- The session that handles a message -/
def called (ends : Ends) (host : Host) (task : Task) : Session :=
  { (ends host).session with task := task }

/-- A handler runs; `none` where it ends the program, or where no message has come. -/
def step (ends : Ends) : Action → Option Ends
  | .ipc host task message => do
      let (sent, session) ← (ends.called host task).ipcBufferHandler message
      let peer := ends host.peer
      some (Function.update (Function.update ends host { ends host with session := session })
        host.peer { peer with stream := peer.stream ++ sent.toList })
  | .tcp host task =>
      match (ends host).stream with
      | [] => none
      | wire :: rest => do
          let (_, session) ← (ends.called host task).tcpBufferHandler wire
          some (Function.update ends host { session := session, stream := rest })

/-- The connection has just been made. -/
structure Start (ends : Ends) : Prop where
  created : ∀ host, Session.Created (ends host).session
  noneSent : ∀ host, (ends host).stream = []

/-- What the kernels do at both ends -/
def Legal (ends : Ends) : Action → Prop
  | .ipc host task message => (ends.called host task).Receives message
  | .tcp host task => (ends host).session.HandsOutNewNames task

/-- The other end has a proxy for the port to send to, or a send right is on its way there. -/
def ReliesOn (ends : Ends) (host : Host) (port : Port) : Prop :=
  (ends host.peer).session.names.ReliesOn
    ((ends host.peer).stream.flatMap Message.rights) port

/-- No end has let go of a port that the other relies on. -/
def KeepsRelied (ends : Ends) : Prop :=
  ∀ host port, port.IsName → ends.ReliesOn host port →
    (ends host).session.names.localPortType port ≠ none ∨
      ∃ wire ∈ (ends host.peer).stream, wire.DeadNameFor port

/-- The other end has no proxy for the port, and no right to it is on its way there. -/
def Unused (ends : Ends) (host : Host) (port : Port) : Prop :=
  (ends host.peer).session.names.localPortsByRemote port = none ∧
    ∀ wire ∈ (ends host.peer).stream,
      (.moveSend, port) ∉ wire.carried ∧ (.moveReceive, port) ∉ wire.carried

/--
Nothing crosses what is handled.  A send right to the reply port of a message has been recorded; no
port of our own that has lost its senders is relied on; no receive right goes home to a port while
the news comes that the port has no senders; and a port of our own that a notification makes us
forget is not used any more.
-/
def Uncrossed (ends : Ends) : Action → Prop
  | .ipc host _ message =>
      (message.remoteType = some .moveSend → message.remotePort.IsName →
        (ends host).session.names.Retains message.remotePort) ∧
      (message.id = msgidNoSenders → (ends host).session.names.Retains message.localPort →
        ¬(ends host.peer).session.names.ReliesOn
          ((ends host.peer).stream.flatMap Message.carried) message.localPort) ∧
      ∀ proxy port, (.moveReceive, proxy) ∈ message.rights →
        (ends host).session.names.remotePortsByLocal proxy = some port →
          ∀ wire ∈ (ends host).stream, ¬wire.NoSendersFor port
  | .tcp host task => ∀ wire port, (ends host).stream.head? = some wire →
      (ends host).session.names.Retains port → (ends.called host task).LetsGo wire port →
        ends.Unused host port

/-- What holds of both ends between two steps -/
structure Secure (ends : Ends) : Prop where
  isConsistent : ∀ host, (ends host).session.names.ConsistentBut machPortNull
  regular : ∀ host, ∀ wire ∈ (ends host).stream, wire.Regular
  guards : ∀ host port, port.IsName → (ends host).session.names.Guards (ends host.peer).stream
    (ends host.peer).session.names port

variable {start ends next : Ends} {action : Action} {host : Host} {task : Task} {message : Message}
  {port : Port}

/-- A message that has come by IPC is handled, and goes to the end of the other stream. -/
theorem step_ipc (taken : ends.step (.ipc host task message) = some next) :
    ∃ sent, (ends.called host task).ipcBufferHandler message =
        some (sent, (next host).session) ∧
      (next host).stream = (ends host).stream ∧
      (next host.peer).session = (ends host.peer).session ∧
      (next host.peer).stream = (ends host.peer).stream ++ sent.toList := by
  rcases Option.bind_eq_some_iff.mp taken with ⟨⟨sent, session⟩, handled, ⟨⟩⟩
  exact ⟨sent, by simpa [host.peer_ne.symm] using handled, by simp [host.peer_ne.symm],
    by simp, by simp⟩

/-- The first message of the stream is handled. -/
theorem step_tcp (taken : ends.step (.tcp host task) = some next) :
    ∃ wire rest written, (ends host).stream = wire :: rest ∧
      (ends.called host task).tcpBufferHandler wire =
        some (written, (next host).session) ∧
      (next host).stream = rest ∧ next host.peer = ends host.peer := by
  simp only [step] at taken
  split at taken
  · cases taken
  · rename_i wire rest isFirst
    rcases Option.bind_eq_some_iff.mp taken with ⟨⟨written, session⟩, handled, ⟨⟩⟩
    exact ⟨wire, rest, written, isFirst, by simpa using handled, by simp, by simp [host.peer_ne]⟩

theorem Start.secure (isStart : ends.Start) : ends.Secure := by
  refine ⟨fun host => (isStart.created host).consistent, fun host wire isIn => ?_,
    fun host port _ => .of_unused ((isStart.created host.peer).maps port).1 fun wire isIn => ?_⟩
  · rw [isStart.noneSent host] at isIn
    cases isIn
  · rw [isStart.noneSent host.peer] at isIn
    cases isIn

/-- No end lets go of a port that the other relies on. -/
theorem Secure.keepsRelied (secure : ends.Secure) : ends.KeepsRelied := by
  intro host port isName relies
  have reliesToo : (ends host.peer).session.names.ReliesOn
      ((ends host.peer).stream.flatMap Message.carried) port := by
    rcases relies with known | underway
    · exact .inl known
    · rcases List.mem_flatMap.mp underway with ⟨wire, wireMem, isIn⟩
      exact .inr (List.mem_flatMap.mpr ⟨wire, wireMem, Session.mem_carried isIn⟩)
  exact ((secure.guards host port isName).of_relies reliesToo).imp_left fun retains => retains.typed

theorem Secure.called (secure : ends.Secure) (host : Host) (task : Task) :
    (ends.called host task).names.ConsistentBut machPortNull :=
  secure.isConsistent host

/-- What the other end relies on, of the session that handles a message -/
theorem Secure.guardsOwner (secure : ends.Secure) (host : Host) (task : Task)
    (isName : port.IsName) : (ends.called host task).names.Guards (ends host.peer).stream
      (ends host.peer).session.names port :=
  secure.guards host port isName

/-- What the session that handles a message relies on -/
theorem Secure.guardsHolder (secure : ends.Secure) (host : Host) (task : Task)
    (isName : port.IsName) : (ends host.peer).session.names.Guards (ends host).stream
      (ends.called host task).names port := by
  have guards := secure.guards host.peer port isName
  rw [Host.peer_peer] at guards
  exact guards

/-- A message comes by IPC. -/
theorem Secure.ipc (secure : ends.Secure) (receives : (ends.called host task).Receives message)
    (uncrossed : ends.Uncrossed (.ipc host task message))
    (taken : ends.step (.ipc host task message) = some next) : next.Secure := by
  rcases step_ipc taken with ⟨sent, handled, sameStream, sameSession, appended⟩
  rcases uncrossed with ⟨reply, unused, goesHome⟩
  have isConsistent := secure.called host task
  refine ⟨fun other => ?_, fun other wire isIn => ?_, fun other port isName => ?_⟩
  · rcases other.eq_or_eq_peer host with rfl | rfl
    · exact Names.keptByIpc_consistent.ipcBufferHandler isConsistent handled
    · rw [sameSession]
      exact secure.isConsistent _
  · rcases other.eq_or_eq_peer host with rfl | rfl
    · exact secure.regular _ wire (sameStream ▸ isIn)
    · rw [appended] at isIn
      rcases List.mem_append.mp isIn with isIn | isIn
      · exact secure.regular _ wire isIn
      · rw [Option.mem_toList] at isIn
        cases isIn
        exact Session.regular_ipcBufferHandler receives isConsistent handled
  · rcases other.eq_or_eq_peer host with rfl | rfl
    · rw [appended, sameSession]
      exact Session.guards_ipcBufferHandler (secure.guardsOwner _ task isName) isName receives
        isConsistent reply unused handled
    · have guards := secure.guardsHolder host task isName
      rw [Host.peer_peer, sameStream, sameSession]
      refine ⟨?_, guards.secures⟩
      refine Session.honored_ipcBufferHandler guards.honored isConsistent ?_ handled
      intro proxy isIn linked lends
      rcases lends with stands | ⟨wire, wireMem, notifies⟩
      · exact stands
      · exact absurd notifies (goesHome proxy port isIn linked wire wireMem)

/-- A message comes over the network. -/
theorem Secure.tcp (secure : ends.Secure) (newNames : (ends host).session.HandsOutNewNames task)
    (uncrossed : ends.Uncrossed (.tcp host task)) (taken : ends.step (.tcp host task) = some next) :
    next.Secure := by
  rcases step_tcp taken with ⟨wire, rest, written, isFirst, handled, isRest, samePeer⟩
  have isConsistent := secure.called host task
  have supplied : (ends.called host task).names.Supplied (ends.called host task).task.fresh :=
    newNames.supplied
  have regular := secure.regular host wire (by simp [isFirst])
  refine ⟨fun other => ?_, fun other later isIn => ?_, fun other port isName => ?_⟩
  · rcases other.eq_or_eq_peer host with rfl | rfl
    · rcases Names.keptByTcp_consistent.tcpBufferHandler ⟨isConsistent, supplied⟩ handled
        with ⟨_, nextConsistent, -⟩
      exact nextConsistent
    · rw [samePeer]
      exact secure.isConsistent _
  · rcases other.eq_or_eq_peer host with rfl | rfl
    · rw [isRest] at isIn
      exact secure.regular other later (by simp [isFirst, isIn])
    · exact secure.regular _ later (samePeer ▸ isIn)
  · rcases other.eq_or_eq_peer host with rfl | rfl
    · have guards := secure.guardsOwner other task isName
      rw [samePeer]
      by_cases letsGo : (ends.called other task).names.Retains port ∧
          (ends.called other task).LetsGo wire port
      · rcases uncrossed wire port (by simp [isFirst]) letsGo.1 letsGo.2 with ⟨unknown, notSent⟩
        exact .of_unused unknown notSent
      · rw [← List.append_nil (ends other.peer).stream]
        refine guards.of_retains (fun retains => ?_) trivial
        have notFresh : port ∉ (ends.called other task).task.fresh :=
          fun isFresh => (newNames.2 port isFresh).2 (.inr (.inl retains.typed))
        exact Session.retains_tcpBufferHandler regular isConsistent isName notFresh retains
          (fun goes => letsGo ⟨retains, goes⟩) handled
    · have guards := secure.guardsHolder host task isName
      rw [isFirst] at guards
      rw [Host.peer_peer, isRest, samePeer]
      exact Session.guards_tcpBufferHandler guards isName regular isConsistent supplied handled

/-- In a run in which nothing crosses, no end lets go of a port that the other relies on. -/
theorem keepsRelied_of_reachable (isStart : start.Start)
    (reached : Transition.Reachable step
      (fun ends action => ends.Legal action ∧ ends.Uncrossed action) start ends) :
    ends.KeepsRelied := by
  refine (reached.invariant Secure isStart.secure ?_).keepsRelied
  rintro before after action secure ⟨legal, uncrossed⟩ taken
  cases action with
  | ipc host task message => exact secure.ipc legal uncrossed taken
  | tcp host task => exact secure.tcp legal uncrossed taken

/-- The task of a translator, with what it holds of port 5 -/
def translator (held : Holding) : Task where
  holds name := if name = 5 then held else { receive := decide (name = 1 ∨ name = 2) }
  fresh := []

/-- The task of a server, with what it holds of port 20 -/
def server (held : Holding) (fresh : List Port) : Task where
  holds name :=
    if name = 20 then held
    else { receive := decide (name = 4), send := if name = 3 then 1 else 0 }
  fresh := fresh

/-- A translator and a server that have just been joined -/
def joined : Ends
  | .left => { session := Session.client 1 2 (translator {}) }
  | .right => { session := Session.server 3 4 (server {} []) }

theorem joined_start : joined.Start := by
  refine ⟨fun host => ?_, fun host => ?_⟩
  · cases host with
    | left => exact .client _ _ _
    | right => exact .server _ _ _
  · cases host <;> rfl

/-- A send right to port 5 goes to the server. -/
def sends (held : Holding) : Action :=
  .ipc .left (translator held) { localPort := 1, body := [⟨.moveSend, [5]⟩] }

/-- The server makes a proxy for it. -/
def proxied : Action := .tcp .right (server {} [20])

/-- The proxy has no senders any more. -/
def dropped : Action :=
  .ipc .right (server { receive := true, noSendersRequest := true } [])
    { localType := some .moveSendOnce, localPort := 20, id := msgidNoSenders }

/-- The translator is told. -/
def told (held : Holding) : Action := .tcp .left (translator held)

section Runs

variable {held : Holding}

theorem legal_sends : ends.Legal (sends held) := by
  refine .rights ?_ ?_ ?_ ?_
  · simp [Message.carried, Message.rights, Item.rights, TypeName.Received]
  all_goals simp [msgidNoSenders, msgidDeadName]

theorem legal_told : ends.Legal (told held) :=
  ⟨List.nodup_nil, by simp [translator]⟩

theorem legal_proxied (isServer : ∃ task, (ends .right).session = Session.server 3 4 task) :
    ends.Legal proxied := by
  rcases isServer with ⟨before, isServer⟩
  refine ⟨by simp [server], fun port portMem => ?_⟩
  cases List.mem_singleton.mp portMem
  refine ⟨by decide, ?_⟩
  rw [isServer]
  rintro (linked | typed | linked)
  · exact linked rfl
  · exact typed rfl
  · exact linked rfl

theorem legal_dropped (isServer : (ends .right).session.control = machPortNull)
    (notOnce : (ends .right).session.names.sendOncePortsByLocal 20 = none) :
    ends.Legal dropped :=
  .noSenders rfl rfl (by simp [called, isServer, machPortNull]) notOnce

theorem uncrossed_sends : ends.Uncrossed (sends held) := by
  refine ⟨?_, ?_, ?_⟩
  · simp
  · simp [msgidNoSenders]
  · simp [Message.rights, Item.rights]

end Runs

/-- What netmsg holds of a port that it has sent a send right for -/
def retained : Holding := { send := 1, deadNameRequest := true }

/-- The send right is sent again, before the translator is told. -/
def crossedRun : List Action :=
  [sends { send := 1 }, proxied, dropped, sends { retained with send := 2 },
    told { retained with send := 2 }]

/-- The send right is sent again once the translator has been told. -/
def toldRun : List Action :=
  [sends { send := 1 }, proxied, dropped, told retained, sends { send := 1 }]

theorem crossedRun_releases :
    ¬∀ start ends : Ends, start.Start → Transition.Reachable step Legal start ends →
      ends.KeepsRelied := by
  intro keeps
  have allowed : Transition.AllowedRun step Legal crossedRun joined := by
    refine ⟨legal_sends, ?_⟩
    rintro _ ⟨⟩
    refine ⟨legal_proxied ⟨_, rfl⟩, ?_⟩
    rintro _ ⟨⟩
    refine ⟨legal_dropped rfl rfl, ?_⟩
    rintro _ ⟨⟩
    refine ⟨legal_sends, ?_⟩
    rintro _ ⟨⟩
    exact ⟨legal_told, fun _ _ => trivial⟩
  have finished : ∃ ends, Transition.run step crossedRun joined = some ends ∧
      ends.ReliesOn .left 5 ∧ (ends .left).session.names.localPortType 5 = none ∧
        ∀ wire ∈ (ends .right).stream, wire.id ≠ msgidDeadName :=
    ⟨_, rfl, .inr (by decide), by decide, by decide⟩
  rcases finished with ⟨ends, finished, relies, released, notDead⟩
  rcases keeps joined ends joined_start (Transition.Reachable.start.of_run _ allowed finished)
      .left 5 ⟨by decide, by decide⟩ relies with isKept | ⟨wire, wireMem, isDead⟩
  · exact isKept released
  · exact notDead wire wireMem isDead.isDeadName

theorem keepsRelied_after_told :
    ∃ ends, Transition.run step toldRun joined = some ends ∧ ends.ReliesOn .left 5 ∧
      ends.KeepsRelied := by
  refine ⟨_, rfl, .inr (by decide), keepsRelied_of_reachable joined_start
    (Transition.Reachable.start.of_run toldRun ⟨⟨legal_sends, uncrossed_sends⟩, ?_⟩ rfl)⟩
  rintro _ ⟨⟩
  refine ⟨⟨legal_proxied ⟨_, rfl⟩, ?_⟩, ?_⟩
  · rintro wire port ⟨⟩ _ letsGo
    cases letsGo with
    | noSenders isNoSenders => exact absurd isNoSenders (by decide)
    | deadName isDeadName => exact absurd isDeadName (by decide)
  rintro _ ⟨⟩
  refine ⟨⟨legal_dropped rfl rfl, ?_, ?_, ?_⟩, ?_⟩
  · simp
  · exact fun _ retains => absurd retains.unlinked (by decide)
  · simp [Message.rights]
  rintro _ ⟨⟩
  refine ⟨⟨legal_told, ?_⟩, ?_⟩
  · rintro wire port ⟨⟩ _ letsGo
    cases letsGo with
    | noSenders _ found toPort =>
        cases found
        cases toPort
        exact ⟨by decide, fun _ isIn => by cases isIn⟩
    | deadName isDeadName => exact absurd isDeadName (by decide)
  rintro _ ⟨⟩
  exact ⟨⟨legal_sends, uncrossed_sends⟩, fun _ _ => trivial⟩

end Ends

end Hurd.Netmsg
