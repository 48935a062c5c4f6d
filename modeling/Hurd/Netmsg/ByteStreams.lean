import Hurd.Netmsg.BothLevels
import Hurd.Netmsg.Delivery

/-!
# Two netmsg peers on their bytes

The two peers with the messages as they are in their buffers and in the memory of their tasks, and
with bytes on the streams between them.  `Related` connects them with the peers that exchange
messages as such, and a run of the bytes is a run of these messages.

The messages that one side has written are kept in `written`, and those that the other side reads
are numbered in the order of the stream; no handler looks at these.
-/

namespace Hurd.Netmsg

namespace BytePeers

/-- A message that has been translated, with the message that it was. -/
structure Leaving where
  original : Outgoing
  wire : Outgoing

/-- A message that has been read off the stream. -/
structure Arrival where
  number : ℕ
  message : Outgoing

/-- A message off the stream that has been handled, and what was sent by IPC. -/
structure Handling where
  number : ℕ
  sent : Option Outgoing

/-- A session, the messages that it has taken in and not handled, and those it has handled. -/
structure Side where
  session : Session
  received : List Outgoing := []
  translated : List Leaving := []
  written : List Outgoing := []
  inbound : List Byte := []
  reads : ℕ := 0
  arrived : List Arrival := []
  delivered : List Handling := []

end BytePeers

abbrev BytePeers := Host → BytePeers.Side

namespace BytePeers

def modify (peers : BytePeers) (host : Host) (change : Side → Side) : BytePeers :=
  Function.update peers host (change (peers host))

@[simp]
theorem modify_same (peers : BytePeers) (host : Host) (change : Side → Side) :
    peers.modify host change host = change (peers host) := by
  simp [modify]

theorem modify_other (peers : BytePeers) {host other : Host} (different : other ≠ host)
    (change : Side → Side) : peers.modify host change other = peers other := by
  simp [modify, different]

/-- What `vm_allocate` and the new buffers of `tcpHandler` hold is part of the actions. -/
inductive Action
  | receive (host : Host) (message : Outgoing)
  | translate (host : Host) (index : ℕ) (task : Task) (allocate : ℕ → ℕ)
  | write (host : Host) (index : ℕ)
  | read (host : Host) (vacant : Vacant) (memory : Buffer)
  | handle (host : Host) (index : ℕ) (task : Task)

def Action.decode : Action → Peers.Action
  | .receive host message => .receive host message.decode
  | .translate host index task _ => .translate host index task
  | .write host index => .write host index
  | .read host _ _ => .read host
  | .handle host index task => .handle host index task

/-- `ipcBufferHandler` up to the write. -/
def translate (peers : BytePeers) (host : Host) (index : ℕ) (task : Task) (allocate : ℕ → ℕ) :
    Option BytePeers := do
  let side := peers host
  let message ← side.received[index]?
  guard (Peers.first Outgoing.msghLocalPort side.received index message.msghLocalPort)
  guard (side.translated.all fun leaving =>
    leaving.original.msghLocalPort ≠ message.msghLocalPort)
  let sender : Session := { side.session with task := task }
  let (sent, next) ← Bytewise.ipcBufferHandler sender allocate message
  some (peers.modify host fun side =>
    { side with
      session := next
      received := side.received.eraseIdx index
      translated := side.translated ++ sent.toList.map fun wire => ⟨message, wire⟩ })

/-- The write at the end of `ipcBufferHandler`: the buffer and the out-of-line data. -/
def write (peers : BytePeers) (host : Host) (index : ℕ) : Option BytePeers := do
  let leaving ← (peers host).translated[index]?
  some ((peers.modify host fun side =>
    { side with
      translated := side.translated.eraseIdx index
      written := side.written ++ [leaving.original] }).modify host.peer fun side =>
        { side with inbound := side.inbound ++ leaving.wire.transmit })

/-- `tcpHandler` takes a message off the stream. -/
def read (peers : BytePeers) (host : Host) (vacant : Vacant) (memory : Buffer) :
    Option BytePeers := do
  let (incoming, rest) ← tcpReceive vacant (peers host).inbound
  some (peers.modify host fun side =>
    { side with
      inbound := rest
      reads := side.reads + 1
      arrived := side.arrived ++ [⟨side.reads, incoming.inTask vacant memory⟩] })

/-- `tcpBufferHandler` -/
def handle (peers : BytePeers) (host : Host) (index : ℕ) (task : Task) : Option BytePeers := do
  let side := peers host
  let arrival ← side.arrived[index]?
  guard (Peers.first (fun arrival => arrival.message.msghLocalPort) side.arrived index
    arrival.message.msghLocalPort)
  let receiver : Session := { side.session with task := task }
  let (sent, next) ← Bytewise.tcpBufferHandler receiver arrival.message
  some (peers.modify host fun side =>
    { side with
      session := next
      arrived := side.arrived.eraseIdx index
      delivered := side.delivered ++ [⟨arrival.number, sent⟩] })

def step (peers : BytePeers) : Action → Option BytePeers
  | .receive host message => do
      -- the bit that netmsg takes for itself is not in use anywhere else
      guard (message.remoteTranslate = false)
      some (peers.modify host fun side => { side with received := side.received ++ [message] })
  | .translate host index task allocate => peers.translate host index task allocate
  | .write host index => peers.write host index
  | .read host vacant memory => peers.read host vacant memory
  | .handle host index task => peers.handle host index task

/--
The kernel delivers regular messages, and `vm_allocate` returns memory that is not in use by the
message.
-/
def Legal (peers : BytePeers) : Action → Prop
  | .receive _ message => message.Regular
  | .translate host index _ allocate =>
      ∀ message, (peers host).received[index]? = some message → message.HasFreshRoom allocate
  | .read host vacant memory =>
      ∀ incoming rest, tcpReceive vacant (peers host).inbound = some (incoming, rest) →
        (incoming.inTask vacant memory).HasRoom vacant.allocate
  | .write _ _ => True
  | .handle _ _ _ => True

/-- Two peers that have just been joined. -/
def Start (peers : BytePeers) : Prop :=
  ∀ host, ∃ session, Session.Created session ∧ peers host = { session := session }

/-- The same peers before any messages -/
def decodeStart (peers : BytePeers) : Peers := fun host => { session := (peers host).session }

/-- What is made of a message, for the packet that it is -/
structure Carries (original message : Outgoing) (packet : Packet) : Prop where
  taken : original.decode = packet.original
  handled : Bytewise.Handled original message packet.wire

/-- The bytes on a stream are those of messages that have been made of the originals. -/
inductive OnStream : List Outgoing → List Byte → List Packet → Prop
  | nil : OnStream [] [] []
  | cons {original wire : Outgoing} {packet : Packet} {originals : List Outgoing}
      {stream : List Byte} {packets : List Packet} (carries : Carries original wire packet)
      (rest : OnStream originals stream packets) :
      OnStream (original :: originals) (wire.transmit ++ stream) (packet :: packets)

theorem OnStream.concat {originals : List Outgoing} {stream : List Byte} {packets : List Packet}
    {original wire : Outgoing} {packet : Packet} (onStream : OnStream originals stream packets)
    (carries : Carries original wire packet) :
    OnStream (originals ++ [original]) (stream ++ wire.transmit) (packets ++ [packet]) := by
  induction onStream with
  | nil => simpa using OnStream.cons carries .nil
  | cons first _ ih =>
      rw [List.append_assoc]
      exact .cons first ih

/-- What a message that has been read is, for the packet that it is -/
def Arrives (written : List Outgoing) (arrival : Arrival) (packet : Packet) : Prop :=
  ∃ original, written[arrival.number]? = some original ∧
    Carries original arrival.message packet ∧
    arrival.message.Neat arrival.message.positions

/-- What has been sent of a message, at both levels -/
def Delivers (written : List Outgoing) (handling : Handling) (delivery : Delivery) : Prop :=
  ∃ original, written[handling.number]? = some original ∧
    original.decode = delivery.packet.original ∧
    Option.Rel (Bytewise.Handled original) handling.sent delivery.sent

/-- One side at both levels, when the other side has written so many messages -/
structure SideRelated (written : List Outgoing) (bytes : Side) (side : Netmsg.Side) : Prop where
  session : bytes.session = side.session
  received : List.Forall₂ (fun message decoded => message.Regular ∧ message.decode = decoded)
    bytes.received side.received
  translated : List.Forall₂ (fun leaving packet => Carries leaving.original leaving.wire packet)
    bytes.translated side.translated
  reads : bytes.reads ≤ written.length
  inbound : OnStream (written.drop bytes.reads) bytes.inbound side.inbound
  arrived : List.Forall₂ (Arrives written) bytes.arrived side.arrived
  delivered : List.Forall₂ (Delivers written) bytes.delivered side.delivered

/-- The peers at both levels -/
def Related (bytes : BytePeers) (peers : Peers) : Prop :=
  ∀ host, SideRelated (bytes host.peer).written (bytes host) (peers host)

variable {bytes next : BytePeers} {peers : Peers} {host : Host}

theorem related_start (starts : bytes.Start) : bytes.Related bytes.decodeStart := by
  intro host
  rcases starts host with ⟨session, _, isSession⟩
  rcases starts host.peer with ⟨_, _, isPeer⟩
  rw [decodeStart, isSession, isPeer]
  exact ⟨rfl, .nil, .nil, Nat.zero_le _, .nil, .nil, .nil⟩

/-- One side changes and does not write. -/
theorem Related.modify {change : Side → Side} {change' : Netmsg.Side → Netmsg.Side}
    (related : bytes.Related peers)
    (changed : SideRelated (bytes host.peer).written (change (bytes host)) (change' (peers host)))
    (sameWritten : (change (bytes host)).written = (bytes host).written) :
    (bytes.modify host change).Related (peers.modify host change') := by
  have allWritten : ∀ other, (bytes.modify host change other).written = (bytes other).written := by
    intro other
    by_cases same : other = host
    · subst same
      rw [modify_same, sameWritten]
    · rw [modify_other _ same]
  intro other
  rw [allWritten]
  by_cases same : other = host
  · subst same
    rw [modify_same, Peers.modify_same]
    exact changed
  · rw [modify_other _ same, Peers.modify_other _ same]
    exact related other

/-- The run queues at both levels -/
theorem first_eq {α β : Type} {relation : α → β → Prop} {queue : α → Port} {queue' : β → Port}
    {waiting : List α} {waiting' : List β} (related : List.Forall₂ relation waiting waiting')
    (same : ∀ {element other}, relation element other → queue element = queue' other)
    (index : ℕ) (port : Port) :
    Peers.first queue waiting index port = Peers.first queue' waiting' index port := by
  refine Lockstep.all (fun isRelated => ?_) (List.forall₂_take index related)
  simp only [same isRelated]

theorem Carries.localPort {original message : Outgoing} {packet : Packet}
    (carries : Carries original message packet) :
    original.msghLocalPort = packet.original.localPort :=
  congrArg Message.localPort carries.taken

theorem receive_related (message : Outgoing) (related : bytes.Related peers)
    (legal : bytes.Legal (.receive host message)) :
    Option.Rel Related (bytes.step (.receive host message))
      (peers.step (.receive host message.decode)) := by
  refine Lockstep.guarded Iff.rfl fun _ => .some (related.modify ?_ rfl)
  have side := related host
  exact { side with
    received := List.rel_append side.received (.cons ⟨legal, rfl⟩ .nil) }

theorem translate_related {index : ℕ} {task : Task} {allocate : ℕ → ℕ}
    (related : bytes.Related peers) (legal : bytes.Legal (.translate host index task allocate)) :
    Option.Rel Related (bytes.translate host index task allocate)
      (peers.translate host index task) := by
  have side := related host
  rw [translate, Peers.translate]
  refine Lockstep.bind_of_eq (Lockstep.getElem? side.received index)
    fun {message decoded} isFound isReceived => ?_
  rcases isReceived with ⟨regular, rfl⟩
  have isLocal : message.decode.localPort = message.msghLocalPort := rfl
  have sameQueue : ∀ port, Peers.first Outgoing.msghLocalPort (bytes host).received index port =
      Peers.first Message.localPort (peers host).received index port :=
    first_eq side.received (fun isRelated => congrArg Message.localPort isRelated.2) index
  have sameTranslated : ((bytes host).translated.all fun leaving =>
      leaving.original.msghLocalPort ≠ message.msghLocalPort) =
        (peers host).translated.all fun packet =>
          packet.original.localPort ≠ message.msghLocalPort := by
    refine Lockstep.all (fun carries => ?_) side.translated
    rw [carries.localPort]
  rw [isLocal, sameQueue, sameTranslated, side.session]
  refine Lockstep.guarded Iff.rfl fun _ => Lockstep.guarded Iff.rfl fun _ => ?_
  refine Lockstep.bind (Bytewise.ipcBufferHandler_related regular (legal message isFound))
    fun {written replaced} handled => ?_
  rcases written with ⟨sent, session⟩
  rcases replaced with ⟨sent', session'⟩
  rcases handled with ⟨rfl, handled⟩
  refine .some (related.modify ?_ rfl)
  refine { side with
    session := rfl
    received := Lockstep.eraseIdx side.received index
    translated := List.rel_append side.translated ?_ }
  cases handled with
  | none => exact .nil
  | some handled => exact .cons ⟨rfl, handled⟩ .nil

theorem Arrives.concat {written : List Outgoing} {arrival : Arrival} {packet : Packet}
    (arrives : Arrives written arrival packet) (original : Outgoing) :
    Arrives (written ++ [original]) arrival packet := by
  rcases arrives with ⟨own, isOwn, arrives⟩
  exact ⟨own, by rw [List.getElem?_append_left (List.getElem?_eq_some_iff.mp isOwn).1, isOwn],
    arrives⟩

theorem Delivers.concat {written : List Outgoing} {handling : Handling} {delivery : Delivery}
    (delivers : Delivers written handling delivery) (original : Outgoing) :
    Delivers (written ++ [original]) handling delivery := by
  rcases delivers with ⟨own, isOwn, delivers⟩
  exact ⟨own, by rw [List.getElem?_append_left (List.getElem?_eq_some_iff.mp isOwn).1, isOwn],
    delivers⟩

/-- The other side has written one more message. -/
theorem SideRelated.inbound_concat {written : List Outgoing} {side : Side}
    {decoded : Netmsg.Side} {original wire : Outgoing} {packet : Packet}
    (related : SideRelated written side decoded) (carries : Carries original wire packet) :
    SideRelated (written ++ [original]) { side with inbound := side.inbound ++ wire.transmit }
      { decoded with inbound := decoded.inbound ++ [packet] } where
  session := related.session
  received := related.received
  translated := related.translated
  reads := by
    have atMost := related.reads
    rw [List.length_append]
    exact Nat.le_add_right_of_le atMost
  inbound := by
    rw [List.drop_append_of_le_length related.reads]
    exact related.inbound.concat carries
  arrived := related.arrived.imp fun _ _ arrives => arrives.concat original
  delivered := related.delivered.imp fun _ _ delivers => delivers.concat original

theorem write_related {index : ℕ} (related : bytes.Related peers) :
    Option.Rel Related (bytes.write host index) (peers.write host index) := by
  have side := related host
  refine Lockstep.bind (Lockstep.getElem? side.translated index) fun {leaving packet} carries => ?_
  refine .some fun other => ?_
  by_cases isHost : other = host
  · subst isHost
    rw [modify_same, modify_other _ (Ne.symm other.peer_ne), modify_same,
      modify_other _ other.peer_ne, Peers.modify_other _ (Ne.symm other.peer_ne),
      Peers.modify_same]
    exact { side with translated := Lockstep.eraseIdx side.translated index }
  · have isPeer := Peers.peer_eq_of_ne (Ne.symm isHost)
    subst isPeer
    have sidePeer := related host.peer
    rw [Host.peer_peer] at sidePeer ⊢
    rw [modify_same, modify_other _ host.peer_ne, modify_other _ (Ne.symm host.peer_ne),
      modify_same, Peers.modify_same, Peers.modify_other _ host.peer_ne]
    exact sidePeer.inbound_concat carries

theorem handled_moved {original wire other : Outgoing} {decoded : Message} {allocate : ℕ → ℕ}
    (handled : Bytewise.Handled original wire decoded) (moved : wire.Moved other allocate) :
    Bytewise.Handled original other decoded where
  decode := (moved.decode handled.regular).trans handled.decode
  regular := moved.regular handled.regular
  keepsData := handled.keepsData.trans (moved.keepsData handled.regular) fun _ _ _ => trivial

theorem read_related {vacant : Vacant} {memory : Buffer} (related : bytes.Related peers)
    (legal : bytes.Legal (.read host vacant memory)) :
    Option.Rel Related (bytes.read host vacant memory) (peers.read host) := by
  have side := related host
  have inbound := side.inbound
  rw [read, Peers.read]
  generalize isUnread : (bytes host.peer).written.drop (bytes host).reads = unread at inbound
  generalize isStream : (bytes host).inbound = stream at inbound
  generalize isInbound : (peers host).inbound = packets at inbound
  cases inbound with
  | nil => exact .none
  | @cons original wire packet originals stream packets carries rest =>
      have regular := carries.handled.regular
      rcases regular.wellFormed.tcpReceive vacant stream with
        ⟨incoming, received, -, inPlace, isSame⟩
      rw [← Incoming.msg_of_inPlace inPlace] at isSame
      have same : wire.SameDescriptors (incoming.inTask vacant memory) :=
        Outgoing.sameDescriptors_of_bytes regular isSame
      have room : wire.HasRoom vacant.allocate :=
        .of_same same (legal incoming stream (isStream ▸ received))
      have moved := (Outgoing.moved_inTask regular room received memory).2
      have isFirst : (bytes host.peer).written[(bytes host).reads]? = some original := by
        rw [← List.head?_drop, isUnread, List.head?_cons]
      rw [received]
      refine .some (related.modify ?_ rfl)
      refine { side with reads := ?_, inbound := ?_, arrived := ?_ }
      · exact (List.getElem?_eq_some_iff.mp isFirst).1
      · rw [← List.tail_drop, isUnread, List.tail_cons]
        exact rest
      · refine List.rel_append side.arrived (.cons ⟨original, isFirst, ?_⟩ .nil)
        exact ⟨⟨carries.taken, handled_moved carries.handled moved⟩, moved.neat regular room⟩

theorem handle_related {index : ℕ} {task : Task} (related : bytes.Related peers) :
    Option.Rel Related (bytes.handle host index task) (peers.handle host index task) := by
  have side := related host
  rw [handle, Peers.handle]
  refine Lockstep.bind (Lockstep.getElem? side.arrived index) fun {arrival packet} arrives => ?_
  rcases arrives with ⟨original, isOriginal, carries, neat⟩
  have sameQueue : ∀ port, Peers.first (fun arrival => arrival.message.msghLocalPort)
      (bytes host).arrived index port =
        Peers.first (fun packet => packet.wire.localPort) (peers host).arrived index port := by
    refine first_eq side.arrived (fun isRelated => ?_) index
    rcases isRelated with ⟨_, _, carries, _⟩
    exact congrArg Message.localPort carries.handled.decode
  have isLocal : arrival.message.msghLocalPort = packet.wire.localPort :=
    congrArg Message.localPort carries.handled.decode
  have handled : ∀ session : Session, Option.Rel (Bytewise.HandlerRelated arrival.message)
      (Bytewise.tcpBufferHandler session arrival.message)
      (session.tcpBufferHandler packet.wire) := by
    intro session
    rw [← carries.handled.decode]
    exact Bytewise.tcpBufferHandler_related carries.handled.regular neat
  rw [sameQueue, isLocal, side.session]
  refine Lockstep.guarded Iff.rfl fun _ => ?_
  dsimp only
  generalize ({ (peers host).session with task := task } : Session) = receiver
  have sent := handled receiver
  cases isTranslated : receiver.translateMessage packet.wire (Peers.namesPorts packet.wire) with
  | none =>
      have fails : receiver.tcpBufferHandler packet.wire = none := by
        rw [Session.tcpBufferHandler]
        refine Option.bind_eq_none_iff.mpr fun result isResult => ?_
        cases isTranslated.symm.trans isResult
      rw [fails] at sent
      generalize Bytewise.tcpBufferHandler receiver arrival.message = written at sent ⊢
      cases sent
      exact .none
  | some result =>
      simp only [Option.bind_eq_bind, Option.bind_some]
      refine Lockstep.bind sent fun {written replaced} isRelated => ?_
      rcases written with ⟨sent, session⟩
      rcases replaced with ⟨sent', session'⟩
      rcases isRelated with ⟨rfl, isRelated⟩
      refine .some (related.modify ?_ rfl)
      refine { side with
        session := rfl
        arrived := Lockstep.eraseIdx side.arrived index
        delivered := List.rel_append side.delivered (.cons ?_ .nil) }
      refine ⟨original, isOriginal, carries.taken, ?_⟩
      refine Lockstep.mono (fun {sent decoded} isHandled => ?_) isRelated
      have keeps := carries.handled.keepsData
      exact ⟨isHandled.decode, isHandled.regular, keeps.trans isHandled.keepsData
        fun _ isItem noPorts => Bytewise.noPorts_of_same keeps.same isItem noPorts⟩

/-- One step of the bytes is a step of the messages. -/
theorem step_related {action : Action} (related : bytes.Related peers)
    (legal : bytes.Legal action) :
    Option.Rel Related (bytes.step action) (peers.step action.decode) := by
  cases action with
  | receive host message => exact receive_related message related legal
  | translate host index task allocate => exact translate_related related legal
  | write host index => exact write_related related
  | read host vacant memory => exact read_related related legal
  | handle host index task => exact handle_related related

theorem Related.of_step {action : Action} (related : bytes.Related peers)
    (legal : bytes.Legal action) (taken : bytes.step action = some next) :
    ∃ decoded, next.Related decoded := by
  have steps := step_related related legal
  rw [taken] at steps
  generalize peers.step action.decode = decoded at steps
  cases steps with
  | some related => exact ⟨_, related⟩

/-- A run of the bytes is the run of the messages that they stand for. -/
theorem run_related {start : BytePeers} {actions : List Action} (starts : start.Start)
    (legal : Transition.AllowedRun step Legal actions start) :
    Option.Rel Related (Transition.run step actions start)
      (Transition.run Peers.step (actions.map Action.decode) start.decodeStart) := by
  rw [Transition.run_map]
  have taken : ∀ {bytes : BytePeers} {peers : Peers} {action : Action}, bytes.Related peers →
      bytes.Legal action →
        Option.Rel Related (bytes.step action) (peers.step action.decode) :=
    fun related isLegal => step_related related isLegal
  exact Lockstep.run taken legal (related_start starts)

/-- Every message that a side has read waits or has been handled, once. -/
def ReadOnce (side : Side) : Prop :=
  (side.arrived.map Arrival.number ++ side.delivered.map Handling.number).Perm
    (List.range side.reads)

/-- What has become of the messages that the other side has written -/
structure Carried (peers : BytePeers) (host : Host) : Prop where
  once : ReadOnce (peers host)
  written : (peers host).reads ≤ (peers host.peer).written.length
  waits : ∀ arrival ∈ (peers host).arrived, ∃ original,
    (peers host.peer).written[arrival.number]? = some original ∧
      arrival.message.Regular ∧ original.KeepsData arrival.message original.NoPorts
  keepsData : ∀ handling ∈ (peers host).delivered, ∃ original,
    (peers host.peer).written[handling.number]? = some original ∧
      ∀ sent, handling.sent = some sent →
        sent.Regular ∧ original.KeepsData sent original.NoPorts

theorem readOnce_start (starts : bytes.Start) (host : Host) : ReadOnce (bytes host) := by
  rcases starts host with ⟨session, _, isSession⟩
  rw [isSession]
  exact .nil

theorem ReadOnce.read {side : Side} (once : ReadOnce side) (message : Outgoing)
    (rest : List Byte) :
    ReadOnce { side with
      inbound := rest
      reads := side.reads + 1
      arrived := side.arrived ++ [⟨side.reads, message⟩] } := by
  rw [ReadOnce, List.map_append, List.append_assoc, List.range_succ]
  refine (List.perm_append_comm.append_left _).trans ?_
  rw [← List.append_assoc]
  exact once.append_right _

theorem ReadOnce.handle {side : Side} {index : ℕ} {arrival : Arrival} (once : ReadOnce side)
    (found : side.arrived[index]? = some arrival) (session : Session) (sent : Option Outgoing) :
    ReadOnce { side with
      session := session
      arrived := side.arrived.eraseIdx index
      delivered := side.delivered ++ [⟨arrival.number, sent⟩] } := by
  have taken := (Peers.perm_cons_eraseIdx found).map Arrival.number
  rw [ReadOnce, List.map_append, ← List.append_assoc]
  refine (List.perm_append_comm.trans ?_).trans once
  exact taken.symm.append_right _

/-- A property of both sides stays when one side changes and has it. -/
theorem side_modify (property : Side → Prop) (all : ∀ host, property (bytes host))
    {change : Side → Side} (changed : property (change (bytes host))) :
    ∀ other, property (bytes.modify host change other) := by
  intro other
  by_cases same : other = host
  · subst same
    rw [modify_same]
    exact changed
  · rw [modify_other bytes same]
    exact all other

theorem readOnce_step {action : Action} (all : ∀ host, ReadOnce (bytes host))
    (taken : bytes.step action = some next) : ∀ host, ReadOnce (next host) := by
  cases action with
  | receive host message =>
      rcases Option.bind_eq_some_iff.mp taken with ⟨_, _, ⟨⟩⟩
      exact side_modify ReadOnce all (all host)
  | translate host index task allocate =>
      rcases Option.bind_eq_some_iff.mp taken with ⟨message, _, taken⟩
      rcases Option.bind_eq_some_iff.mp taken with ⟨_, _, taken⟩
      rcases Option.bind_eq_some_iff.mp taken with ⟨_, _, taken⟩
      rcases Option.bind_eq_some_iff.mp taken with ⟨_, _, ⟨⟩⟩
      exact side_modify ReadOnce all (all host)
  | write host index =>
      rcases Option.bind_eq_some_iff.mp taken with ⟨leaving, _, ⟨⟩⟩
      refine side_modify ReadOnce (side_modify ReadOnce all (all host)) ?_
      rw [modify_other _ host.peer_ne]
      exact all host.peer
  | read host vacant memory =>
      rcases Option.bind_eq_some_iff.mp taken with ⟨_, _, ⟨⟩⟩
      exact side_modify ReadOnce all ((all host).read _ _)
  | handle host index task =>
      rcases Option.bind_eq_some_iff.mp taken with ⟨arrival, found, taken⟩
      rcases Option.bind_eq_some_iff.mp taken with ⟨_, _, taken⟩
      rcases Option.bind_eq_some_iff.mp taken with ⟨_, _, ⟨⟩⟩
      exact side_modify ReadOnce all ((all host).handle found _ _)

theorem SideRelated.delivers {written : List Outgoing} {side : Side} {decoded : Netmsg.Side}
    {handling : Handling} (related : SideRelated written side decoded)
    (isDelivered : handling ∈ side.delivered) :
    ∃ delivery, Delivers written handling delivery := by
  rcases List.mem_iff_getElem?.mp isDelivered with ⟨index, isHandling⟩
  have found := Lockstep.getElem? related.delivered index
  rw [isHandling] at found
  generalize decoded.delivered[index]? = delivered at found
  cases found with
  | some delivers => exact ⟨_, delivers⟩

theorem SideRelated.arrives {written : List Outgoing} {side : Side} {decoded : Netmsg.Side}
    {arrival : Arrival} (related : SideRelated written side decoded)
    (isArrived : arrival ∈ side.arrived) : ∃ packet, Arrives written arrival packet := by
  rcases List.mem_iff_getElem?.mp isArrived with ⟨index, isArrival⟩
  have found := Lockstep.getElem? related.arrived index
  rw [isArrival] at found
  generalize decoded.arrived[index]? = arrived at found
  cases found with
  | some arrives => exact ⟨_, arrives⟩

/-- What is true of the peers throughout a run -/
structure Followed (bytes : BytePeers) : Prop where
  related : ∃ peers, bytes.Related peers
  once : ∀ host, ReadOnce (bytes host)

theorem Followed.step {action : Action} (followed : bytes.Followed) (legal : bytes.Legal action)
    (taken : bytes.step action = some next) : next.Followed := by
  rcases followed.related with ⟨peers, related⟩
  exact ⟨related.of_step legal taken, readOnce_step followed.once taken⟩

theorem Delivers.keepsData {written : List Outgoing} {handling : Handling} {delivery : Delivery}
    (delivers : Delivers written handling delivery) :
    ∃ original, written[handling.number]? = some original ∧
      ∀ sent, handling.sent = some sent →
        sent.Regular ∧ original.KeepsData sent original.NoPorts := by
  rcases delivers with ⟨original, isOriginal, _, handled⟩
  refine ⟨original, isOriginal, fun sent isSent => ?_⟩
  rw [isSent] at handled
  generalize delivery.sent = decoded at handled
  cases handled with
  | some handled => exact ⟨handled.regular, handled.keepsData⟩

theorem Arrives.keepsData {written : List Outgoing} {arrival : Arrival} {packet : Packet}
    (arrives : Arrives written arrival packet) :
    ∃ original, written[arrival.number]? = some original ∧
      arrival.message.Regular ∧ original.KeepsData arrival.message original.NoPorts := by
  rcases arrives with ⟨original, isOriginal, carries, _⟩
  exact ⟨original, isOriginal, carries.handled.regular, carries.handled.keepsData⟩

/--
The data of a message are the same when it has been read on the other side, and when it is sent by
IPC there.
-/
theorem carried_of_reachable {start : BytePeers} (starts : start.Start)
    (reached : Transition.Reachable step Legal start bytes) (host : Host) :
    bytes.Carried host := by
  have initially : start.Followed := ⟨⟨_, related_start starts⟩, readOnce_start starts⟩
  have followed : bytes.Followed := reached.invariant Followed initially Followed.step
  rcases followed.related with ⟨peers, related⟩
  refine ⟨followed.once host, (related host).reads, ?_, ?_⟩
  · intro arrival isArrived
    rcases (related host).arrives isArrived with ⟨packet, arrives⟩
    exact arrives.keepsData
  · intro handling isDelivered
    rcases (related host).delivers isDelivered with ⟨delivery, delivers⟩
    exact delivers.keepsData

section Sample

/-- A send right to port 11 and five bytes out of line, for the control port -/
def sample : Outgoing where
  buffer
    -- `MACH_MSGH_BITS_COMPLEX`, and `MACH_MSG_TYPE_MOVE_SEND` for the local port
    | 1 => 17
    | 3 => 0x80
    | 4 => 40
    | 12 => 1
    | 24 => 17
    | 25 => 32
    | 26 => 1
    | 27 => 0x10
    | 28 => 11
    | 32 => 9
    | 33 => 8
    | 34 => 5
    | 37 => 0x20
    | _ => 0
  memory := fun address => BitVec.ofNat 8 address

theorem sample_regular : sample.Regular := by
  refine ⟨⟨by decide, by decide, ?_⟩, ?_, by decide⟩
  · apply Buffer.Tiles.item
    apply Buffer.Tiles.item
    exact .done
  · unfold Buffer.Countable
    decide

theorem sample_room : sample.HasFreshRoom fun _ => 0x3000 := by
  refine ⟨⟨by decide, ?_⟩, ?_⟩
  · decide
  · decide

def joined : BytePeers
  | .left => { session := .client 1 2 (Peers.ampleTask []) }
  | .right => { session := .server 3 4 (Peers.ampleTask []) }

theorem joined_start : Start joined
  | .left => ⟨_, .client 1 2 (Peers.ampleTask []), rfl⟩
  | .right => ⟨_, .server 3 4 (Peers.ampleTask []), rfl⟩

def sampleRun : List Action :=
  [.receive .left sample, .translate .left 0 (Peers.ampleTask []) fun _ => 0x3000,
    .write .left 0, .read .right ⟨fun _ => 0xff, fun _ => 0x4000⟩ fun _ => 0,
    .handle .right 0 (Peers.ampleTask [20])]

theorem sampleRun_legal : Transition.AllowedRun step Legal sampleRun joined := by
  refine ⟨sample_regular, ?_⟩
  rintro _ ⟨⟩
  refine ⟨?_, ?_⟩
  · rintro _ ⟨⟩
    exact sample_room
  rintro _ ⟨⟩
  refine ⟨trivial, ?_⟩
  rintro _ ⟨⟩
  refine ⟨?_, ?_⟩
  · rintro _ _ ⟨⟩
    refine ⟨?_, ?_⟩
    · decide
    · decide
  rintro _ ⟨⟩
  exact ⟨trivial, fun _ _ => trivial⟩

/-- The right that the server gets has another name, and it finds the five bytes. -/
theorem carried_after_sample : ∃ bytes,
    Transition.run step sampleRun joined = some bytes ∧ bytes.Carried .right ∧
      (bytes .right).delivered.map (fun handling => handling.sent.map fun sent =>
        (sent.msghRemotePort, sent.buffer.port 28,
          (List.range 5).map fun offset => sent.memory (sent.dataPtr 32 + offset))) =
        [some (3, 20, [0, 1, 2, 3, 4])] := by
  refine ⟨_, rfl, ?_, by decide +kernel⟩
  exact carried_of_reachable joined_start
    (Transition.Reachable.start.of_run sampleRun sampleRun_legal rfl) .right

theorem run_related_sample :
    Option.Rel Related (Transition.run step sampleRun joined)
      (Transition.run Peers.step (sampleRun.map Action.decode) joined.decodeStart) ∧
    (Transition.run step sampleRun joined).isSome :=
  ⟨run_related joined_start sampleRun_legal, by decide +kernel⟩

end Sample

end BytePeers

end Hurd.Netmsg
