import Hurd.Netmsg.Consistent

/-!
# Two netmsg peers

Two sessions are joined by two streams that keep their order.  A message that a session
receives by IPC waits in the run queue of its port; its handler translates it and then writes
it to the stream, and the run queue goes on only when both are done.  A message that is read off
the stream waits in the run queue of the number it is addressed to.  Handlers of different run
queues run in any order, and the rights of a task may change in any way between two handlers.

A message on its way carries the session that took it up and what it was there, and every
message that has been handled is kept in `delivered`; no handler looks at these.
-/

namespace Hurd.Netmsg

/-- One of the two machines. -/
inductive Host
  | left
  | right
deriving DecidableEq

/-- The machine at the other end. -/
def Host.peer : Host → Host
  | .left => .right
  | .right => .left

@[simp]
theorem Host.peer_peer (host : Host) : host.peer.peer = host := by
  cases host <;> rfl

theorem Host.peer_ne (host : Host) : host.peer ≠ host := by
  cases host <;> decide

/--
A message between the peers, as it was received by `sender` and as it is on the network.  The
messages that one side takes up are numbered.
-/
structure Packet where
  number : ℕ
  sender : Session
  original : Message
  wire : Message

/--
A message that has been handled: `read` is the session once the body is `translated`, and `sent`
is what was sent by IPC.
-/
structure Delivery where
  packet : Packet
  receiver : Session
  translated : Message
  read : Session
  sent : Option Message
  next : Session

/-- A session, the messages that it has taken in and not handled, and those it has handled. -/
structure Side where
  session : Session
  received : List Message := []
  translated : List Packet := []
  inbound : List Packet := []
  arrived : List Packet := []
  delivered : List Delivery := []
  made : ℕ := 0

abbrev Peers := Host → Side

namespace Peers

def modify (peers : Peers) (host : Host) (change : Side → Side) : Peers :=
  Function.update peers host (change (peers host))

/-- Nothing before the index waits in the same run queue. -/
def first {α : Type} (queue : α → Port) (waiting : List α) (index : ℕ) (port : Port) : Bool :=
  (waiting.take index).all fun earlier => queue earlier ≠ port

inductive Action
  | receive (host : Host) (message : Message)
  | translate (host : Host) (index : ℕ) (task : Task)
  | write (host : Host) (index : ℕ)
  | read (host : Host)
  | handle (host : Host) (index : ℕ) (task : Task)

/-- Whether the port names in the body of a network message are to be translated. -/
def namesPorts (wire : Message) : Bool :=
  decide (wire.localPort = machPortControl ∧ wire.id = msgidDeadName)

/-- `ipcBufferHandler` up to the write. -/
def translate (peers : Peers) (host : Host) (index : ℕ) (task : Task) : Option Peers := do
  let side := peers host
  let message ← side.received[index]?
  guard (first Message.localPort side.received index message.localPort)
  guard (side.translated.all fun packet => packet.original.localPort ≠ message.localPort)
  let sender : Session := { side.session with task := task }
  let (sent, next) ← sender.ipcBufferHandler message
  some (peers.modify host fun side =>
    { side with
      session := next
      received := side.received.eraseIdx index
      translated := side.translated ++
        sent.toList.map fun wire => ⟨side.made, sender, message, wire⟩
      made := side.made + 1 })

/-- The write at the end of `ipcBufferHandler`. -/
def write (peers : Peers) (host : Host) (index : ℕ) : Option Peers := do
  let packet ← (peers host).translated[index]?
  some ((peers.modify host fun side =>
    { side with translated := side.translated.eraseIdx index }).modify host.peer fun side =>
      { side with inbound := side.inbound ++ [packet] })

/-- `tcpHandler` takes a message off the stream. -/
def read (peers : Peers) (host : Host) : Option Peers :=
  match (peers host).inbound with
  | [] => none
  | packet :: rest =>
      some (peers.modify host fun side =>
        { side with inbound := rest, arrived := side.arrived ++ [packet] })

/-- `tcpBufferHandler` -/
def handle (peers : Peers) (host : Host) (index : ℕ) (task : Task) : Option Peers := do
  let side := peers host
  let packet ← side.arrived[index]?
  guard (first (fun packet => packet.wire.localPort) side.arrived index packet.wire.localPort)
  let receiver : Session := { side.session with task := task }
  let (translated, read) ← receiver.translateMessage packet.wire (namesPorts packet.wire)
  let (sent, next) ← receiver.tcpBufferHandler packet.wire
  some (peers.modify host fun side =>
    { side with
      session := next
      arrived := side.arrived.eraseIdx index
      delivered := side.delivered ++ [⟨packet, receiver, translated, read, sent, next⟩] })

def step (peers : Peers) : Action → Option Peers
  | .receive host message => do
      -- the bit that netmsg takes for itself is not in use anywhere else
      guard (message.remoteTranslate = false)
      some (peers.modify host fun side => { side with received := side.received ++ [message] })
  | .translate host index task => peers.translate host index task
  | .write host index => peers.write host index
  | .read host => peers.read host
  | .handle host index task => peers.handle host index task

/-- Two peers that have just been joined. -/
def Start (peers : Peers) : Prop :=
  ∀ host, ∃ session, Session.Created session ∧ peers host = { session := session }

section Steps

variable {peers next : Peers} {host : Host} {index : ℕ} {task : Task}

/-- The handler of a message that came by IPC, taken apart. -/
theorem translate_cases (done : peers.translate host index task = some next) :
    ∃ message sent session,
      (peers host).received[index]? = some message ∧
      ({ (peers host).session with task := task } : Session).ipcBufferHandler message =
        some (sent, session) ∧
      next = peers.modify host fun side =>
        { side with
          session := session
          received := side.received.eraseIdx index
          translated := side.translated ++ sent.toList.map fun wire =>
            ⟨side.made, { (peers host).session with task := task }, message, wire⟩
          made := side.made + 1 } := by
  rcases Option.bind_eq_some_iff.mp done with ⟨message, found, done⟩
  rcases Option.bind_eq_some_iff.mp done with ⟨_, _, done⟩
  rcases Option.bind_eq_some_iff.mp done with ⟨_, _, done⟩
  rcases Option.bind_eq_some_iff.mp done with ⟨⟨sent, session⟩, handled, ⟨⟩⟩
  exact ⟨message, sent, session, found, handled, rfl⟩

theorem write_cases (done : peers.write host index = some next) :
    ∃ packet, (peers host).translated[index]? = some packet ∧
      next = (peers.modify host fun side =>
        { side with translated := side.translated.eraseIdx index }).modify host.peer fun side =>
          { side with inbound := side.inbound ++ [packet] } := by
  rcases Option.bind_eq_some_iff.mp done with ⟨packet, found, ⟨⟩⟩
  exact ⟨packet, found, rfl⟩

theorem read_cases (done : peers.read host = some next) :
    ∃ packet rest, (peers host).inbound = packet :: rest ∧
      next = peers.modify host fun side =>
        { side with inbound := rest, arrived := side.arrived ++ [packet] } := by
  unfold read at done
  split at done
  · cases done
  · rename_i packet rest waiting
    cases done
    exact ⟨packet, rest, waiting, rfl⟩

/-- The handler of a message that came over the network, taken apart. -/
theorem handle_cases (done : peers.handle host index task = some next) :
    ∃ packet translated read sent session,
      (peers host).arrived[index]? = some packet ∧
      ({ (peers host).session with task := task } : Session).translateMessage packet.wire
        (namesPorts packet.wire) = some (translated, read) ∧
      ({ (peers host).session with task := task } : Session).tcpBufferHandler packet.wire =
        some (sent, session) ∧
      next = peers.modify host fun side =>
        { side with
          session := session
          arrived := side.arrived.eraseIdx index
          delivered := side.delivered ++
            [⟨packet, { (peers host).session with task := task }, translated, read, sent,
              session⟩] } := by
  rcases Option.bind_eq_some_iff.mp done with ⟨packet, found, done⟩
  rcases Option.bind_eq_some_iff.mp done with ⟨_, _, done⟩
  rcases Option.bind_eq_some_iff.mp done with ⟨⟨translated, read⟩, isTranslated, done⟩
  rcases Option.bind_eq_some_iff.mp done with ⟨⟨sent, session⟩, handled, ⟨⟩⟩
  exact ⟨packet, translated, read, sent, session, found, isTranslated, handled, rfl⟩

@[simp]
theorem modify_same (peers : Peers) (host : Host) (change : Side → Side) :
    peers.modify host change host = change (peers host) := by
  simp [modify]

theorem modify_other (peers : Peers) {host other : Host} (different : other ≠ host)
    (change : Side → Side) : peers.modify host change other = peers other := by
  simp [modify, different]

end Steps

/-- A packet that `host` has made and the other side has not handled yet. -/
def Waiting (peers : Peers) (host : Host) (packet : Packet) : Prop :=
  packet ∈ (peers host).translated ∨ packet ∈ (peers host.peer).inbound ∨
    packet ∈ (peers host.peer).arrived

/--
What every packet is made with, and what every delivery is made with out of such a packet, holds
of all of them.
-/
structure AllPackets (made : Packet → Prop) (done : Delivery → Prop) (peers : Peers) : Prop where
  translated : ∀ host, ∀ packet ∈ (peers host).translated, made packet
  inbound : ∀ host, ∀ packet ∈ (peers host).inbound, made packet
  arrived : ∀ host, ∀ packet ∈ (peers host).arrived, made packet
  delivered : ∀ host, ∀ delivery ∈ (peers host).delivered, done delivery

variable {made : Packet → Prop} {done : Delivery → Prop} {peers next : Peers}

theorem AllPackets.waiting (all : AllPackets made done peers) {host : Host} {packet : Packet}
    (waits : peers.Waiting host packet) : made packet := by
  rcases waits with translated | inbound | arrived
  · exact all.translated host packet translated
  · exact all.inbound _ packet inbound
  · exact all.arrived _ packet arrived

/-- A list at one host is changed, and its new elements have the property as well. -/
theorem forall_modify {α : Type} (elements : Side → List α) (property : α → Prop)
    (all : ∀ host, ∀ element ∈ elements (peers host), property element) {host : Host}
    {change : Side → Side}
    (changed : ∀ element ∈ elements (change (peers host)), property element) :
    ∀ other, ∀ element ∈ elements (peers.modify host change other), property element := by
  intro other
  by_cases same : other = host
  · subst same
    rw [modify_same]
    exact changed
  · rw [modify_other peers same]
    exact all other

theorem AllPackets.start (starts : Start peers) : AllPackets made done peers := by
  have isEmpty : ∀ host, (peers host).translated = [] ∧ (peers host).inbound = [] ∧
      (peers host).arrived = [] ∧ (peers host).delivered = [] := by
    intro host
    rcases starts host with ⟨session, _, isSession⟩
    rw [isSession]
    exact ⟨rfl, rfl, rfl, rfl⟩
  constructor
  · intro host
    simp [(isEmpty host).1]
  · intro host
    simp [(isEmpty host).2.1]
  · intro host
    simp [(isEmpty host).2.2.1]
  · intro host
    simp [(isEmpty host).2.2.2]

/-- One step of the peers makes packets and deliveries as its handlers do. -/
theorem AllPackets.step {action : Action} (all : AllPackets made done peers)
    (makes : ∀ {host index task message sent session}, action = .translate host index task →
      (peers host).received[index]? = some message →
      ({ (peers host).session with task := task } : Session).ipcBufferHandler message =
        some (some sent, session) →
      made ⟨(peers host).made, { (peers host).session with task := task }, message, sent⟩)
    (does : ∀ {host index task packet translated read sent session},
      action = .handle host index task →
      (peers host).arrived[index]? = some packet → made packet →
      ({ (peers host).session with task := task } : Session).translateMessage packet.wire
        (namesPorts packet.wire) = some (translated, read) →
      ({ (peers host).session with task := task } : Session).tcpBufferHandler packet.wire =
        some (sent, session) →
      done ⟨packet, { (peers host).session with task := task }, translated, read, sent, session⟩)
    (taken : peers.step action = some next) : AllPackets made done next := by
  cases action with
  | receive host message =>
      rcases Option.bind_eq_some_iff.mp taken with ⟨_, _, ⟨⟩⟩
      exact ⟨forall_modify _ _ all.translated (all.translated host),
        forall_modify _ _ all.inbound (all.inbound host),
        forall_modify _ _ all.arrived (all.arrived host),
        forall_modify _ _ all.delivered (all.delivered host)⟩
  | translate host index task =>
      rcases translate_cases taken with ⟨message, sent, session, found, handled, rfl⟩
      refine ⟨forall_modify _ _ all.translated ?_,
        forall_modify _ _ all.inbound (all.inbound host),
        forall_modify _ _ all.arrived (all.arrived host),
        forall_modify _ _ all.delivered (all.delivered host)⟩
      intro packet packetMem
      rcases List.mem_append.mp packetMem with old | new
      · exact all.translated host packet old
      · cases sent with
        | none => cases new
        | some wire =>
            cases List.mem_singleton.mp new
            exact makes rfl found handled
  | write host index =>
      rcases write_cases taken with ⟨packet, found, rfl⟩
      have fits : made packet := all.translated host packet (List.mem_of_getElem? found)
      refine ⟨forall_modify _ _ (forall_modify _ _ all.translated ?_) ?_,
        forall_modify _ _ (forall_modify _ _ all.inbound (all.inbound host)) ?_,
        forall_modify _ _ (forall_modify _ _ all.arrived (all.arrived host)) ?_,
        forall_modify _ _ (forall_modify _ _ all.delivered (all.delivered host)) ?_⟩
      · intro other otherMem
        exact all.translated host other (List.mem_of_mem_eraseIdx otherMem)
      · rw [modify_other peers host.peer_ne]
        exact all.translated _
      · rw [modify_other peers host.peer_ne]
        intro other otherMem
        rcases List.mem_append.mp otherMem with old | new
        · exact all.inbound _ other old
        · cases List.mem_singleton.mp new
          exact fits
      · rw [modify_other peers host.peer_ne]
        exact all.arrived _
      · rw [modify_other peers host.peer_ne]
        exact all.delivered _
  | read host =>
      rcases read_cases taken with ⟨packet, rest, waiting, rfl⟩
      have allInbound := all.inbound host
      rw [waiting] at allInbound
      refine ⟨forall_modify _ _ all.translated (all.translated host),
        forall_modify _ _ all.inbound ?_, forall_modify _ _ all.arrived ?_,
        forall_modify _ _ all.delivered (all.delivered host)⟩
      · intro other otherMem
        exact allInbound other (List.mem_cons_of_mem _ otherMem)
      · intro other otherMem
        rcases List.mem_append.mp otherMem with old | new
        · exact all.arrived host other old
        · cases List.mem_singleton.mp new
          exact allInbound packet List.mem_cons_self
  | handle host index task =>
      rcases handle_cases taken with
        ⟨packet, translated, read, sent, session, found, isTranslated, handled, rfl⟩
      refine ⟨forall_modify _ _ all.translated (all.translated host),
        forall_modify _ _ all.inbound (all.inbound host), forall_modify _ _ all.arrived ?_,
        forall_modify _ _ all.delivered ?_⟩
      · intro other otherMem
        exact all.arrived host other (List.mem_of_mem_eraseIdx otherMem)
      · intro delivery deliveryMem
        rcases List.mem_append.mp deliveryMem with old | new
        · exact all.delivered host delivery old
        · cases List.mem_singleton.mp new
          exact does rfl found (all.arrived host packet (List.mem_of_getElem? found)) isTranslated
            handled

theorem peer_eq_of_ne {host other : Host} (different : host ≠ other) : host.peer = other := by
  cases host <;> cases other <;> first | rfl | exact (different rfl).elim

/-- What is added to the deliveries of a host in a step. -/
structure Delivers (peers : Peers) (action : Action) (host : Host) (delivery : Delivery)
    (next : Peers) : Prop where
  isHandle : ∃ index, action = .handle host index delivery.receiver.task ∧
    (peers host).arrived[index]? = some delivery.packet
  receiver : delivery.receiver = { (peers host).session with task := delivery.receiver.task }
  translated : delivery.receiver.translateMessage delivery.packet.wire
    (namesPorts delivery.packet.wire) = some (delivery.translated, delivery.read)
  handled : delivery.receiver.tcpBufferHandler delivery.packet.wire =
    some (delivery.sent, delivery.next)
  delivered : (next host).delivered = (peers host).delivered ++ [delivery]

/-- The packets that wait, in the order in which they come. -/
def waitingList (peers : Peers) (host : Host) : List Packet :=
  (peers host).translated ++ ((peers host.peer).inbound ++ (peers host.peer).arrived)

theorem waiting_iff {host : Host} {packet : Packet} :
    peers.Waiting host packet ↔ packet ∈ peers.waitingList host := by
  simp [Waiting, waitingList]

theorem perm_cons_eraseIdx {α : Type} {elements : List α} {index : ℕ} {element : α}
    (found : elements[index]? = some element) :
    List.Perm elements (element :: elements.eraseIdx index) := by
  induction elements generalizing index with
  | nil => simp at found
  | cons first rest ih =>
      cases index with
      | zero =>
          cases found
          exact .refl _
      | succ index => exact ((ih found).cons first).trans (.swap ..)

/-- What taking up a message does to the lists of both hosts. -/
theorem translate_lists {host : Host} {index : ℕ} {task : Task}
    (taken : peers.translate host index task = some next) :
    ∃ message sent session, (peers host).received[index]? = some message ∧
      ({ (peers host).session with task := task } : Session).ipcBufferHandler message =
        some (sent, session) ∧ (next host).session = session ∧
      next host.peer = peers host.peer ∧
      List.Perm (peers host).received (message :: (next host).received) ∧
      List.Perm (next.waitingList host)
        ((sent.toList.map fun wire =>
          ⟨(peers host).made, { (peers host).session with task := task }, message, wire⟩) ++
          peers.waitingList host) ∧
      next.waitingList host.peer = peers.waitingList host.peer := by
  rcases translate_cases taken with ⟨message, sent, session, found, handled, rfl⟩
  refine ⟨message, sent, session, found, handled, by rw [modify_same],
    modify_other peers host.peer_ne _, ?_, ?_, ?_⟩
  · rw [modify_same]
    exact perm_cons_eraseIdx found
  · simp only [waitingList, modify_same, modify_other _ host.peer_ne]
    rw [← List.append_assoc _ (peers host).translated]
    exact List.Perm.append_right _ List.perm_append_comm
  · simp [waitingList, modify_other _ host.peer_ne]

/-- What handling a packet does to the lists of both hosts. -/
theorem handle_lists {host : Host} {index : ℕ} {task : Task}
    (taken : peers.handle host index task = some next) :
    ∃ delivery, Delivers peers (.handle host index task) host delivery next ∧
      (next host).session = delivery.next ∧ next host.peer = peers host.peer ∧
      (next host).received = (peers host).received ∧
      List.Perm (peers.waitingList host.peer) (delivery.packet :: next.waitingList host.peer) ∧
      next.waitingList host = peers.waitingList host := by
  rcases handle_cases taken with
    ⟨packet, translated, read, sent, session, found, isTranslated, handled, rfl⟩
  refine ⟨⟨packet, { (peers host).session with task := task }, translated, read, sent, session⟩,
    ⟨⟨index, rfl, found⟩, rfl, isTranslated, handled, by rw [modify_same]⟩, by rw [modify_same],
    modify_other peers host.peer_ne _, by rw [modify_same], ?_, ?_⟩
  · simp only [waitingList, Host.peer_peer, modify_same, modify_other _ host.peer_ne]
    refine .trans (List.Perm.append_left _ (List.Perm.append_left _ (perm_cons_eraseIdx found))) ?_
    exact .trans (List.Perm.append_left _ List.perm_middle) List.perm_middle
  · simp [waitingList, modify_other _ host.peer_ne]

/-- A step moves the packets that wait, adds one to them or delivers one of them. -/
theorem waitingList_step {action : Action} (taken : peers.step action = some next) (host : Host) :
    List.Perm (next.waitingList host) (peers.waitingList host) ∨
      (∃ index task message sent session, action = .translate host index task ∧
        (peers host).received[index]? = some message ∧
        ({ (peers host).session with task := task } : Session).ipcBufferHandler message =
          some (sent, session) ∧
        List.Perm (next.waitingList host)
          ((sent.toList.map fun wire =>
            ⟨(peers host).made, { (peers host).session with task := task }, message, wire⟩) ++
            peers.waitingList host)) ∨
      ∃ delivery, Delivers peers action host.peer delivery next ∧
        List.Perm (peers.waitingList host) (delivery.packet :: next.waitingList host) := by
  cases action with
  | receive other message =>
      rcases Option.bind_eq_some_iff.mp taken with ⟨_, _, ⟨⟩⟩
      left
      by_cases isHost : host = other
      · subst isHost
        simp [waitingList, modify_other _ host.peer_ne]
      · rw [← peer_eq_of_ne isHost]
        simp [waitingList, modify_other _ (Ne.symm host.peer_ne)]
  | translate other index task =>
      rcases translate_lists taken with
        ⟨message, sent, session, found, handled, _, _, _, added, sameOther⟩
      by_cases isHost : host = other
      · subst isHost
        exact .inr (.inl ⟨index, task, message, sent, session, rfl, found, handled, added⟩)
      · rw [← peer_eq_of_ne (Ne.symm isHost)]
        exact .inl (.of_eq sameOther)
  | write other index =>
      rcases write_cases taken with ⟨written, found, rfl⟩
      left
      by_cases isHost : host = other
      · subst isHost
        simp only [waitingList, modify_same, modify_other _ (Ne.symm host.peer_ne),
          modify_other _ host.peer_ne]
        refine .trans ?_ (List.Perm.append_right _ (perm_cons_eraseIdx found).symm)
        rw [List.append_assoc (peers host.peer).inbound]
        refine .trans (List.Perm.append_left _ List.perm_middle) List.perm_middle
      · have isPeer := peer_eq_of_ne isHost
        subst isPeer
        simp [waitingList, modify_other _ (Ne.symm host.peer_ne), modify_other _ host.peer_ne]
  | read other =>
      rcases read_cases taken with ⟨first, rest, waiting, rfl⟩
      left
      by_cases isHost : host = other
      · subst isHost
        simp [waitingList, modify_other _ host.peer_ne]
      · have isPeer := peer_eq_of_ne isHost
        subst isPeer
        simp only [waitingList, modify_same, modify_other _ (Ne.symm host.peer_ne), waiting]
        refine List.Perm.append_left _ ?_
        rw [← List.append_assoc]
        exact List.perm_append_comm
  | handle other index task =>
      rcases handle_lists taken with ⟨delivery, delivers, _, _, _, removed, sameOther⟩
      by_cases isHost : host = other
      · subst isHost
        exact .inl (.of_eq sameOther)
      · have isPeer := peer_eq_of_ne isHost
        subst isPeer
        rw [Host.peer_peer] at removed
        exact .inr (.inr ⟨delivery, delivers, removed⟩)

/-- The packets that wait in a step have waited before it or are made in it. -/
theorem Waiting.of_step {action : Action} {host : Host} {packet : Packet}
    (taken : peers.step action = some next) (waits : next.Waiting host packet) :
    peers.Waiting host packet ∨
      ∃ index task message wire session, action = .translate host index task ∧
        (peers host).received[index]? = some message ∧
        ({ (peers host).session with task := task } : Session).ipcBufferHandler message =
          some (some wire, session) ∧
        packet = ⟨(peers host).made, { (peers host).session with task := task }, message, wire⟩ := by
  rw [waiting_iff] at waits ⊢
  rcases waitingList_step taken host with same | ⟨index, task, message, sent, session, isAction,
    found, handled, added⟩ | ⟨delivery, _, removed⟩
  · exact .inl (same.mem_iff.mp waits)
  · rcases List.mem_append.mp (added.mem_iff.mp waits) with new | old
    · cases sent with
      | none => cases new
      | some wire =>
          cases List.mem_singleton.mp new
          exact .inr ⟨index, task, message, wire, session, isAction, found, handled, rfl⟩
    · exact .inl old
  · exact .inl (removed.mem_iff.mpr (List.mem_cons_of_mem _ waits))

/-- A packet that waits goes on waiting or is delivered. -/
theorem Waiting.step {action : Action} {host : Host} {packet : Packet}
    (waits : peers.Waiting host packet) (taken : peers.step action = some next) :
    next.Waiting host packet ∨
      ∃ delivery, Delivers peers action host.peer delivery next ∧ delivery.packet = packet := by
  rw [waiting_iff] at waits ⊢
  rcases waitingList_step taken host with same | ⟨_, _, _, _, _, _, _, _, added⟩ |
    ⟨delivery, delivers, removed⟩
  · exact .inl (same.mem_iff.mpr waits)
  · exact .inl (added.mem_iff.mpr (List.mem_append_right _ waits))
  · rcases List.mem_cons.mp (removed.mem_iff.mp waits) with rfl | stays
    · exact .inr ⟨delivery, delivers, rfl⟩
    · exact .inl stays

theorem delivered_step {action : Action} (taken : peers.step action = some next) (host : Host) :
    (next host).delivered = (peers host).delivered ∨
      ∃ delivery, Delivers peers action host delivery next := by
  cases action with
  | receive other message =>
      rcases Option.bind_eq_some_iff.mp taken with ⟨_, _, ⟨⟩⟩
      exact .inl (by by_cases isHost : host = other <;> simp [modify, isHost])
  | translate other index task =>
      rcases translate_cases taken with ⟨message, sent, session, _, _, rfl⟩
      exact .inl (by by_cases isHost : host = other <;> simp [modify, isHost])
  | write other index =>
      rcases write_cases taken with ⟨written, _, rfl⟩
      left
      by_cases isHost : host = other
      · subst isHost
        rw [modify_other _ (Ne.symm host.peer_ne), modify_same]
      · have isPeer := peer_eq_of_ne isHost
        subst isPeer
        rw [Host.peer_peer, modify_same, modify_other _ (Ne.symm host.peer_ne)]
  | read other =>
      rcases read_cases taken with ⟨first, rest, _, rfl⟩
      exact .inl (by by_cases isHost : host = other <;> simp [modify, isHost])
  | handle other index task =>
      rcases handle_cases taken with
        ⟨packet, translated, read, sent, session, found, isTranslated, handled, rfl⟩
      by_cases isHost : host = other
      · subst isHost
        refine .inr ⟨⟨packet, { (peers host).session with task := task }, translated, read, sent,
          session⟩, ⟨index, rfl, found⟩, rfl, isTranslated, handled, ?_⟩
        rw [modify_same]
      · exact .inl (by rw [modify_other _ isHost])

/-- How the session of a host can change in a step. -/
theorem session_step {action : Action} (taken : peers.step action = some next) (host : Host) :
    (next host).session = (peers host).session ∨
      (∃ index task message sent, action = .translate host index task ∧
        (peers host).received[index]? = some message ∧
        ({ (peers host).session with task := task } : Session).ipcBufferHandler message =
          some (sent, (next host).session) ∧
        ∀ wire, sent = some wire → next.Waiting host
          ⟨(peers host).made, { (peers host).session with task := task }, message, wire⟩) ∨
      ∃ delivery, Delivers peers action host delivery next ∧
        (next host).session = delivery.next := by
  cases action with
  | receive other message =>
      rcases Option.bind_eq_some_iff.mp taken with ⟨_, _, ⟨⟩⟩
      exact .inl (by by_cases isHost : host = other <;> simp [modify, isHost])
  | translate other index task =>
      rcases translate_cases taken with ⟨message, sent, session, found, handled, rfl⟩
      by_cases isHost : host = other
      · subst isHost
        refine .inr (.inl ⟨index, task, message, sent, rfl, found, ?_, ?_⟩)
        · rw [modify_same]
          exact handled
        · rintro wire rfl
          exact .inl (by simp)
      · exact .inl (by rw [modify_other _ isHost])
  | write other index =>
      rcases write_cases taken with ⟨written, _, rfl⟩
      left
      by_cases isHost : host = other
      · subst isHost
        rw [modify_other _ (Ne.symm host.peer_ne), modify_same]
      · have isPeer := peer_eq_of_ne isHost
        subst isPeer
        rw [Host.peer_peer, modify_same, modify_other _ (Ne.symm host.peer_ne)]
  | read other =>
      rcases read_cases taken with ⟨first, rest, _, rfl⟩
      exact .inl (by by_cases isHost : host = other <;> simp [modify, isHost])
  | handle other index task =>
      by_cases isHost : host = other
      · subst isHost
        rcases handle_cases taken with
          ⟨packet, translated, read, sent, session, found, isTranslated, handled, rfl⟩
        refine .inr (.inr ⟨⟨packet, { (peers host).session with task := task }, translated, read,
          sent, session⟩, ⟨⟨index, rfl, found⟩, rfl, isTranslated, handled, ?_⟩, ?_⟩) <;>
          rw [modify_same]
      · rcases handle_cases taken with ⟨_, _, _, _, _, _, _, _, rfl⟩
        exact .inl (by rw [modify_other _ isHost])

/-- How the messages that a host has received can change in a step. -/
theorem received_step {action : Action} (taken : peers.step action = some next) (host : Host) :
    (next host).received = (peers host).received ∨
      (∃ message, action = .receive host message ∧
        (next host).received = (peers host).received ++ [message]) ∨
      ∃ index task message, action = .translate host index task ∧
        (peers host).received[index]? = some message ∧
        List.Perm (peers host).received (message :: (next host).received) := by
  cases action with
  | receive other message =>
      rcases Option.bind_eq_some_iff.mp taken with ⟨_, _, ⟨⟩⟩
      by_cases isHost : host = other
      · subst isHost
        exact .inr (.inl ⟨message, rfl, by rw [modify_same]⟩)
      · exact .inl (by rw [modify_other _ isHost])
  | translate other index task =>
      rcases translate_cases taken with ⟨message, sent, session, found, handled, rfl⟩
      by_cases isHost : host = other
      · subst isHost
        refine .inr (.inr ⟨index, task, message, rfl, found, ?_⟩)
        rw [modify_same]
        exact perm_cons_eraseIdx found
      · exact .inl (by rw [modify_other _ isHost])
  | write other index =>
      rcases write_cases taken with ⟨written, _, rfl⟩
      left
      by_cases isHost : host = other
      · subst isHost
        rw [modify_other _ (Ne.symm host.peer_ne), modify_same]
      · have isPeer := peer_eq_of_ne isHost
        subst isPeer
        rw [Host.peer_peer, modify_same, modify_other _ (Ne.symm host.peer_ne)]
  | read other =>
      rcases read_cases taken with ⟨first, rest, _, rfl⟩
      exact .inl (by by_cases isHost : host = other <;> simp [modify, isHost])
  | handle other index task =>
      rcases handle_cases taken with ⟨_, _, _, _, _, _, _, _, rfl⟩
      exact .inl (by by_cases isHost : host = other <;> simp [modify, isHost])

theorem made_step {action : Action} (taken : peers.step action = some next) (host : Host) :
    (∀ index task, action = .translate host index task →
      (next host).made = (peers host).made + 1) ∧ (peers host).made ≤ (next host).made := by
  cases action with
  | receive other message =>
      rcases Option.bind_eq_some_iff.mp taken with ⟨_, _, ⟨⟩⟩
      exact ⟨nofun, le_of_eq (by by_cases isHost : host = other <;> simp [modify, isHost])⟩
  | translate other index task =>
      rcases translate_cases taken with ⟨message, sent, session, found, handled, rfl⟩
      by_cases isHost : host = other
      · subst isHost
        rw [modify_same]
        exact ⟨fun _ _ _ => rfl, Nat.le_succ _⟩
      · rw [modify_other _ isHost]
        refine ⟨?_, le_rfl⟩
        rintro _ _ ⟨⟩
        exact (isHost rfl).elim
  | write other index =>
      rcases write_cases taken with ⟨written, _, rfl⟩
      refine ⟨nofun, le_of_eq ?_⟩
      by_cases isHost : host = other
      · subst isHost
        rw [modify_other _ (Ne.symm host.peer_ne), modify_same]
      · have isPeer := peer_eq_of_ne isHost
        subst isPeer
        rw [Host.peer_peer, modify_same, modify_other _ (Ne.symm host.peer_ne)]
  | read other =>
      rcases read_cases taken with ⟨first, rest, _, rfl⟩
      exact ⟨nofun, le_of_eq (by by_cases isHost : host = other <;> simp [modify, isHost])⟩
  | handle other index task =>
      rcases handle_cases taken with ⟨_, _, _, _, _, _, _, _, rfl⟩
      exact ⟨nofun, le_of_eq (by by_cases isHost : host = other <;> simp [modify, isHost])⟩

theorem side_modify (property : Side → Prop) (all : ∀ host, property (peers host)) {host : Host}
    {change : Side → Side} (changed : property (change (peers host))) :
    ∀ other, property (peers.modify host change other) := by
  intro other
  by_cases same : other = host
  · subst same
    rw [modify_same]
    exact changed
  · rw [modify_other peers same]
    exact all other

/-- What both handlers keep, whatever the task holds, holds of both sessions in every step. -/
theorem sessions_step {action : Action} (property : Session → Prop)
    (ignoresTask : ∀ session task, property session → property { session with task := task })
    (ipc : ∀ {session message sent next}, property session →
      session.ipcBufferHandler message = some (sent, next) → property next)
    (tcp : ∀ {session message sent next}, property session →
      session.tcpBufferHandler message = some (sent, next) → property next)
    (all : ∀ host, property (peers host).session) (taken : peers.step action = some next) :
    ∀ host, property (next host).session := by
  let sessionHas : Side → Prop := fun side => property side.session
  cases action with
  | receive host message =>
      rcases Option.bind_eq_some_iff.mp taken with ⟨_, _, ⟨⟩⟩
      exact side_modify sessionHas all (all host)
  | translate host index task =>
      rcases translate_cases taken with ⟨message, sent, session, _, handled, rfl⟩
      exact side_modify sessionHas all (ipc (ignoresTask _ task (all host)) handled)
  | write host index =>
      rcases write_cases taken with ⟨packet, _, rfl⟩
      refine side_modify sessionHas (side_modify sessionHas all (all host)) ?_
      rw [modify_other peers host.peer_ne]
      exact all host.peer
  | read host =>
      rcases read_cases taken with ⟨packet, rest, _, rfl⟩
      exact side_modify sessionHas all (all host)
  | handle host index task =>
      rcases handle_cases taken with ⟨packet, _, _, sent, session, _, _, handled, rfl⟩
      exact side_modify sessionHas all (tcp (ignoresTask _ task (all host)) handled)

/-- The messages that wait to be handled by a session do not have its bit set. -/
theorem received_clear_step {action : Action}
    (all : ∀ host, ∀ message ∈ (peers host).received, message.remoteTranslate = false)
    (taken : peers.step action = some next) :
    ∀ host, ∀ message ∈ (next host).received, message.remoteTranslate = false := by
  cases action with
  | receive host message =>
      rcases Option.bind_eq_some_iff.mp taken with ⟨_, clear, ⟨⟩⟩
      refine forall_modify Side.received _ all ?_
      intro other otherMem
      rcases List.mem_append.mp otherMem with old | new
      · exact all host other old
      · cases List.mem_singleton.mp new
        exact of_guard clear
  | translate host index task =>
      rcases translate_cases taken with ⟨message, sent, session, _, handled, rfl⟩
      refine forall_modify Side.received _ all ?_
      intro other otherMem
      exact all host other (List.mem_of_mem_eraseIdx otherMem)
  | write host index =>
      rcases write_cases taken with ⟨packet, _, rfl⟩
      refine forall_modify Side.received _ (forall_modify Side.received _ all (all host)) ?_
      rw [modify_other peers host.peer_ne]
      exact all host.peer
  | read host =>
      rcases read_cases taken with ⟨packet, rest, _, rfl⟩
      exact forall_modify Side.received _ all (all host)
  | handle host index task =>
      rcases handle_cases taken with ⟨packet, _, _, sent, session, _, _, handled, rfl⟩
      exact forall_modify Side.received _ all (all host)

theorem received_clear_start (starts : Start peers) :
    ∀ host, ∀ message ∈ (peers host).received, message.remoteTranslate = false := by
  intro host message messageMem
  rcases starts host with ⟨session, _, isSession⟩
  rw [isSession] at messageMem
  cases messageMem

end Peers

end Hurd.Netmsg
