import Mathlib.Data.List.MinMax
import Hurd.Netmsg.HandingOver
import Hurd.Netmsg.QueueOrder

/-!
# Messages that follow a receive right

The message that carries a receive right and those that follow it wait in different run queues,
and either end may turn them round; a message that is handled while its port is not known is
dropped.  The source takes it that the right has been destroyed.

There are three other ways in which the port may be unknown: the message that brings the right has
not been handled yet; a NO SENDERS notification for an older right of the same number has been
handled after it; or the right has gone back, and nobody has a send right any more.  The peers
are watched here, to tell for each right that was brought what has become of its proxy.
-/

namespace Hurd.Netmsg

/-- The receive rights in a message. -/
def Message.receivePorts (message : Message) : List Port :=
  message.body.flatMap fun item => if item.name = .moveReceive then item.ports else []

theorem Message.mem_receivePorts {message : Message} {port : Port} :
    port ∈ message.receivePorts ↔ message.CarriesReceive port := by
  simp only [receivePorts, List.mem_flatMap, CarriesReceive, rightAt_eq_some]
  constructor
  · rintro ⟨item, itemMem, portMem⟩
    split_ifs at portMem with isReceive
    · rcases List.mem_iff_getElem?.mp itemMem with ⟨place, itemFound⟩
      rcases List.mem_iff_getElem?.mp portMem with ⟨element, portFound⟩
      exact ⟨place, element, item, itemFound, isReceive, portFound⟩
    · cases portMem
  · rintro ⟨place, element, item, itemFound, isReceive, portFound⟩
    refine ⟨item, List.mem_of_getElem? itemFound, ?_⟩
    rw [if_pos isReceive]
    exact List.mem_of_getElem? portFound

/-- The message tells that a right that was handed over has no senders any more. -/
structure Packet.GivesUp (notice : Packet) (port : Port) : Prop where
  isNoSenders : notice.wire.id = msgidNoSenders
  translate : notice.wire.remoteTranslate = true
  isPort : notice.wire.localPort = port

namespace Peers

variable {peers next : Peers} {host : Host} {port : Port}

/-- The delivery was dropped as addressed to a port that the receiver does not know. -/
def DroppedAsUnknown (delivery : Delivery) : Prop :=
  delivery.read.translateDestination delivery.translated = some none

/-- The handler of a message that carries a receive right knows its port afterwards. -/
theorem Delivers.knew {action : Action} {delivery : Delivery} (unflagged : port.flagged = false)
    (something : ¬port.Nothing) (delivers : Delivers peers action host delivery next)
    (carries : delivery.packet.wire.CarriesReceive port) :
    delivery.read.names.localPortsByRemote port ≠ none := by
  rcases carries with ⟨place, element, right⟩
  rcases Session.rightAt_translateMessage (.inr (.inl rfl)) right delivers.translated with
    ⟨before, after, result, _, done, goesOn, _⟩
  have linked := (Session.translatePort2_cases done).1.linked (.inr rfl) something unflagged
  simp [goesOn _ _ linked]

/-- A message is dropped as unknown only if the bit is set in it, and the port is not known. -/
theorem Delivers.unknown {action : Action} {delivery : Delivery}
    (delivers : Delivers peers action host delivery next) (dropped : DroppedAsUnknown delivery) :
    delivery.packet.wire.remoteTranslate = true ∧
      (peers host).session.names.localPortsByRemote delivery.packet.wire.localPort = none := by
  have keeps := Session.keepsLinks_translateMessage delivers.translated
  rcases Option.bind_eq_some_iff.mp delivers.translated with ⟨⟨body, last⟩, _, isTranslated⟩
  have sameMessage : ({ delivery.packet.wire with body := body } : Message) = delivery.translated :=
    congrArg Prod.fst (Option.some.inj isTranslated)
  rw [DroppedAsUnknown, ← sameMessage] at dropped
  cases Session.translateDestination_cases dropped with
  | unknown _ translate unlinked =>
      refine ⟨translate, ?_⟩
      by_contra known
      rcases Option.ne_none_iff_exists'.mp known with ⟨proxy, linked⟩
      rw [delivers.receiver] at keeps
      rw [keeps _ proxy linked] at unlinked
      cases unlinked

/-- Before message number `bound`, the right was carried after it was given up. -/
def Renewed (peers : Peers) (host : Host) (bound : ℕ) (port : Port) : Prop :=
  ∃ bringer ∈ peers.line host, bringer.number < bound ∧ bringer.wire.CarriesReceive port ∧
    ∀ notice ∈ peers.line host, notice.number < bound → notice.GivesUp port →
      notice.number ≤ bringer.number

/-- Every right that is handed over, and every message for one, follows a message that carries it. -/
structure Followed (peers : Peers) : Prop where
  queued : Queued peers
  handedOver : ∀ host port, (peers host).session.names.HandedOver port →
    port.flagged = false ∧ ¬port.Nothing ∧ peers.Renewed host (peers host).made port
  follows : ∀ host, ∀ packet ∈ peers.line host, packet.wire.remoteTranslate = true →
    packet.wire.localPort.flagged = false ∧ ¬packet.wire.localPort.Nothing ∧
      peers.Renewed host packet.number packet.wire.localPort

theorem Renewed.step {action : Action} {bound : ℕ} (renewed : peers.Renewed host bound port)
    (taken : peers.step action = some next) (bounded : bound ≤ (peers host).made) :
    next.Renewed host bound port := by
  rcases renewed with ⟨bringer, bringerMem, below, carries, noticed⟩
  refine ⟨bringer, mem_line_step taken bringerMem, below, carries, ?_⟩
  intro notice noticeMem noticeBelow givesUp
  rcases mem_line_of_step taken noticeMem with before | ⟨_, _, _, _, _, _, _, _, rfl⟩
  · exact noticed notice before noticeBelow givesUp
  · exact absurd (lt_of_lt_of_le noticeBelow bounded) (lt_irrefl _)

theorem Followed.start (starts : Start peers) : Followed peers := by
  have queued := Queued.start starts
  refine ⟨queued, ?_, ?_⟩
  · intro host port handedOver
    rcases starts host with ⟨session, created, isHost⟩
    rw [isHost] at handedOver
    cases created with
    | client => simp [Session.client, Names.HandedOver] at handedOver
    | server firstPort =>
        by_cases isFirst : port = firstPort <;>
          simp [Session.server, Names.HandedOver, Names.setType, isFirst] at handedOver
  · intro host packet isMem
    have isBelow := queued.below host packet isMem
    rcases starts host with ⟨_, _, isHost⟩
    simp [isHost] at isBelow

/-- A right that stays handed over in a step is not given up in it. -/
theorem Followed.handedOver_step {action : Action} (followed : Followed peers)
    (unflagged : ∀ index task, action = .translate host index task →
      ∀ message, (peers host).received[index]? = some message →
        ∀ port, message.CarriesReceive port → port.flagged = false)
    (taken : peers.step action = some next)
    (handedOver : (next host).session.names.HandedOver port) :
    port.flagged = false ∧ ¬port.Nothing ∧ next.Renewed host (next host).made port := by
  have nextBelow := (followed.queued.step taken).below host
  -- unless the step takes up a message that gives the right up
  have ofBefore : (peers host).session.names.HandedOver port →
      (∀ packet ∈ next.line host, packet ∈ peers.line host ∨ ¬packet.GivesUp port) →
      port.flagged = false ∧ ¬port.Nothing ∧ next.Renewed host (next host).made port := by
    intro before notGivenUp
    rcases followed.handedOver host port before with
      ⟨isUnflagged, something, bringer, bringerMem, _, carries, noticed⟩
    have bringerStays := mem_line_step taken bringerMem
    refine ⟨isUnflagged, something, bringer, bringerStays, nextBelow bringer bringerStays, carries,
      ?_⟩
    intro notice noticeMem _ givesUp
    rcases notGivenUp notice noticeMem with old | not
    · exact noticed notice old (followed.queued.below host notice old) givesUp
    · exact (not givesUp).elim
  by_cases isTranslate : ∃ index task, action = .translate host index task
  · rcases isTranslate with ⟨index, task, rfl⟩
    rcases translate_cases taken with ⟨message, sent, session, found, handled, isNext⟩
    have isSession : (next host).session = session := by
      rw [isNext, modify_same]
    rw [isSession] at handedOver
    rcases Session.handedOver_ipcBufferHandler handled handedOver with ⟨before, notGivenUp⟩ |
      ⟨wire, rfl, onWire, carried, something⟩
    · refine ofBefore before fun packet isMem => ?_
      rcases mem_line_of_step taken isMem with old | ⟨_, _, _, wire, _, isAction, found', handled',
        rfl⟩
      · exact .inl old
      · cases isAction
        cases found.symm.trans found'
        cases handled.symm.trans handled'
        refine .inr fun givesUp => ?_
        rcases Session.own_of_remoteTranslate
          (followed.queued.clear host message (List.mem_of_getElem? found)) handled
          givesUp.translate with ⟨sameName, sameId, _, _⟩
        exact notGivenUp (sameId ▸ givesUp.isNoSenders) (sameName ▸ givesUp.isPort)
    · have isTranslated : ⟨(peers host).made, { (peers host).session with task := task }, message,
          wire⟩ ∈ (next host).translated := by
        simp [isNext]
      have isMem := mem_line.mpr (.inl (.inl isTranslated))
      have isLast : (next host).made = (peers host).made + 1 := by
        simp [isNext]
      refine ⟨unflagged index task rfl message found port carried, something, _, isMem,
        nextBelow _ isMem, onWire, fun notice _ below _ => ?_⟩
      rw [isLast] at below
      exact Nat.le_of_lt_succ below
  · have before : (peers host).session.names.HandedOver port := by
      rcases session_step taken host with same | ⟨index, task, _, _, isAction, _⟩ |
        ⟨delivery, delivers, isNext⟩
      · rwa [same] at handedOver
      · exact (isTranslate ⟨index, task, isAction⟩).elim
      · rw [isNext] at handedOver
        have atReceiver := Session.handedOver_tcpBufferHandler delivers.handled handedOver
        rwa [delivers.receiver] at atReceiver
    refine ofBefore before fun packet isMem => ?_
    rcases mem_line_of_step taken isMem with old | ⟨index, task, _, _, _, isAction, _⟩
    · exact .inl old
    · exact (isTranslate ⟨index, task, isAction⟩).elim

theorem Followed.step {action : Action} (followed : Followed peers)
    (unflagged : ∀ host index task, action = .translate host index task →
      ∀ message, (peers host).received[index]? = some message →
        ∀ port, message.CarriesReceive port → port.flagged = false)
    (taken : peers.step action = some next) : Followed next := by
  refine ⟨followed.queued.step taken, fun host port handedOver =>
    followed.handedOver_step (unflagged host) taken handedOver, ?_⟩
  intro host packet isMem translate
  rcases mem_line_of_step taken isMem with old | ⟨index, task, message, wire, session, rfl, found,
    handled, rfl⟩
  · rcases followed.follows host packet old translate with ⟨isUnflagged, something, renewed⟩
    exact ⟨isUnflagged, something,
      renewed.step taken (Nat.le_of_lt (followed.queued.below host packet old))⟩
  · rcases Session.own_of_remoteTranslate
      (followed.queued.clear host message (List.mem_of_getElem? found)) handled translate with
      ⟨sameName, _, typed, unlinked⟩
    dsimp only at sameName ⊢
    rw [sameName]
    rcases followed.handedOver host message.localPort ⟨typed, unlinked⟩ with
      ⟨isUnflagged, something, renewed⟩
    exact ⟨isUnflagged, something, renewed.step taken le_rfl⟩

end Peers

/--
What has become of the proxy of a receive right: the kernel has said that it is a dead name, the
session has destroyed it after it came back, or the other end has given the right up.
-/
inductive Standing
  | held
  | destroyed
  | returned
  | givenUp (notice : Packet)

/-- A receive right that a message has brought, and the proxy that was known for it then. -/
structure Brought where
  number : ℕ
  remote : Port
  proxy : Port
  standing : Standing := .held

namespace Brought

/-- If the maps have lost the proxy by now, it was for this cause. -/
def settle (entry : Brought) (names : Names) (cause : Standing) : Brought :=
  { entry with
    standing := match entry.standing with
      | .held =>
          if names.localPortsByRemote entry.remote = some entry.proxy then .held else cause
      | .destroyed => .destroyed
      | .returned => .returned
      | .givenUp notice => .givenUp notice }

/-- The proxy has gone, and neither was the right destroyed nor given up after it was brought. -/
def Astray (entry : Brought) : Prop :=
  entry.standing = .returned ∨ ∃ notice, entry.standing = .givenUp notice ∧
    ¬(notice.GivesUp entry.remote ∧ entry.number < notice.number)

theorem standing_settle (entry : Brought) (names : Names) (cause : Standing) :
    (entry.settle names cause).standing = cause ∨
      ((entry.settle names cause).standing = entry.standing ∧
        (entry.standing = .held → names.localPortsByRemote entry.remote = some entry.proxy)) := by
  unfold settle
  cases isStanding : entry.standing with
  | held =>
      by_cases known : names.localPortsByRemote entry.remote = some entry.proxy
      · exact .inr ⟨if_pos known, fun _ => known⟩
      · exact .inl (if_neg known)
  | destroyed => exact .inr ⟨rfl, fun isHeld => by cases isHeld⟩
  | returned => exact .inr ⟨rfl, fun isHeld => by cases isHeld⟩
  | givenUp notice => exact .inr ⟨rfl, fun isHeld => by cases isHeld⟩

end Brought

/-- The receive rights that a message has brought, when it has been translated. -/
def Delivery.brings (delivery : Delivery) : List Brought :=
  delivery.packet.wire.receivePorts.filterMap fun remote =>
    (delivery.read.names.localPortsByRemote remote).map fun proxy =>
      { number := delivery.packet.number, remote := remote, proxy := proxy }

/-- Why a proxy is lost that was there when a message came over the network. -/
def Delivery.cause (delivery : Delivery) : Standing :=
  if delivery.packet.wire.id = msgidNoSenders then .givenUp delivery.packet else .returned

/-- Why a proxy is lost that was there when a message came by IPC. -/
def Session.cause (session : Session) (message : Message) (proxy : Port) : Standing :=
  if message.localPort = session.notificationPort ∧ message.id = msgidDeadName ∧
      deadNameOf message = some proxy then .destroyed else .returned

theorem Delivery.cause_cases (delivery : Delivery) :
    delivery.cause = .givenUp delivery.packet ∨ delivery.cause = .returned := by
  unfold cause
  split_ifs
  · exact .inl rfl
  · exact .inr rfl

theorem Session.cause_cases (session : Session) (message : Message) (proxy : Port) :
    session.cause message proxy = .destroyed ∨ session.cause message proxy = .returned := by
  unfold cause
  split_ifs
  · exact .inl rfl
  · exact .inr rfl

/-- Two peers, and the receive rights that have been brought to each. -/
structure Watched where
  peers : Peers
  brought : Host → List Brought := fun _ => []

namespace Watched

/-- What has been brought, and what has become of it, after a step of the peers. -/
def watch (watched : Watched) (next : Peers) : Peers.Action → Host → List Brought
  | .translate host index _ =>
      match (watched.peers host).received[index]? with
      | none => watched.brought
      | some message =>
          Function.update watched.brought host ((watched.brought host).map fun entry =>
            entry.settle (next host).session.names
              ((watched.peers host).session.cause message entry.proxy))
  | .handle host _ _ =>
      match (next host).delivered.getLast? with
      | none => watched.brought
      | some delivery =>
          Function.update watched.brought host
            ((watched.brought host ++ delivery.brings).map fun entry =>
              entry.settle (next host).session.names delivery.cause)
  | .receive _ _ => watched.brought
  | .write _ _ => watched.brought
  | .read _ => watched.brought

def step (watched : Watched) (action : Peers.Action) : Option Watched := do
  let next ← watched.peers.step action
  some { peers := next, brought := watched.watch next action }

/-- The peers take the steps that they take when nobody watches. -/
theorem run_peers (labels : List Peers.Action) (watched : Watched) :
    (Transition.run step labels watched).map Watched.peers =
      Transition.run Peers.step labels watched.peers := by
  induction labels generalizing watched with
  | nil => rfl
  | cons action rest ih =>
      rw [Transition.run_cons, Transition.run_cons, step]
      cases watched.peers.step action with
      | none => rfl
      | some next => exact ih _

/--
A message for a receive right is handled when no message that was taken up before it still has to
bring the right, and when the right is not astray, unless it was brought again before the
message.  The names of receive rights do not have the high bit set.
-/
def HandlesInOrder (watched : Watched) : Peers.Action → Prop
  | .translate host index _ => ∀ message, (watched.peers host).received[index]? = some message →
      ∀ port, message.CarriesReceive port → port.flagged = false
  | .handle host index _ => ∀ packet, (watched.peers host).arrived[index]? = some packet →
      packet.wire.remoteTranslate = true →
      (∀ earlier, watched.peers.Waiting host.peer earlier → earlier.number < packet.number →
        ¬earlier.wire.CarriesReceive packet.wire.localPort) ∧
      ∀ entry ∈ watched.brought host, entry.remote = packet.wire.localPort →
        entry.number < packet.number → entry.Astray →
        ∃ later ∈ watched.brought host, later.remote = packet.wire.localPort ∧
          entry.number < later.number ∧ later.number < packet.number
  | .receive _ _ => True
  | .write _ _ => True
  | .read _ => True

variable {watched next : Watched} {host : Host}

theorem step_peers {action : Peers.Action} (taken : watched.step action = some next) :
    watched.peers.step action = some next.peers ∧
      next.brought = watched.watch next.peers action := by
  rcases Option.bind_eq_some_iff.mp taken with ⟨peers, isTaken, ⟨⟩⟩
  exact ⟨isTaken, rfl⟩

/-- What is said of a right that was brought is so. -/
structure Tracked (watched : Watched) : Prop where
  followed : Peers.Followed watched.peers
  held : ∀ host, ∀ entry ∈ watched.brought host, entry.standing = .held →
    (watched.peers host).session.names.localPortsByRemote entry.remote = some entry.proxy
  entered : ∀ host, ∀ delivery ∈ (watched.peers host).delivered, ∀ port, port.flagged = false →
    ¬port.Nothing → delivery.packet.wire.CarriesReceive port →
    ∃ entry ∈ watched.brought host, entry.remote = port ∧ entry.number = delivery.packet.number
  gaveUp : ∀ host, ∀ entry ∈ watched.brought host, ∀ notice, entry.standing = .givenUp notice →
    ∃ delivery ∈ (watched.peers host).delivered, delivery.packet = notice

theorem Tracked.start {start : Peers} (starts : Peers.Start start) :
    Tracked { peers := start } := by
  refine ⟨.start starts, ?_, ?_, ?_⟩
  · intro host entry isMem
    cases isMem
  · intro host delivery deliveryMem
    rcases starts host with ⟨_, _, isHost⟩
    simp [isHost] at deliveryMem
  · intro host entry isMem
    cases isMem

/-- How what has been brought to a host can change in a step. -/
inductive BroughtStep (watched next : Watched) (action : Peers.Action) (host : Host) : Prop
  | same (isSame : next.brought host = watched.brought host)
      (sameSession : (next.peers host).session = (watched.peers host).session)
      (sameDelivered : (next.peers host).delivered = (watched.peers host).delivered)
  | translate (message : Message) (isSettled : next.brought host =
      (watched.brought host).map fun entry => entry.settle (next.peers host).session.names
        ((watched.peers host).session.cause message entry.proxy))
      (sameDelivered : (next.peers host).delivered = (watched.peers host).delivered)
  | handle (delivery : Delivery)
      (delivers : Peers.Delivers watched.peers action host delivery next.peers)
      (isSettled : next.brought host = (watched.brought host ++ delivery.brings).map fun entry =>
        entry.settle (next.peers host).session.names delivery.cause)

/-- Only the handlers of a host change its session and what it has handled. -/
theorem untouched {peers after : Peers} {action : Peers.Action} (host : Host)
    (taken : peers.step action = some after)
    (notTranslate : ∀ index task, action ≠ .translate host index task)
    (notHandle : ∀ index task, action ≠ .handle host index task) :
    (after host).session = (peers host).session ∧
      (after host).delivered = (peers host).delivered := by
  have notDelivers : ∀ delivery, ¬Peers.Delivers peers action host delivery after := by
    intro delivery delivers
    rcases delivers.isHandle with ⟨index, isHandle, _⟩
    exact notHandle index _ isHandle
  constructor
  · rcases Peers.session_step taken host with same | ⟨index, task, _, _, isTranslate, _⟩ |
      ⟨delivery, delivers, _⟩
    · exact same
    · exact (notTranslate index task isTranslate).elim
    · exact (notDelivers delivery delivers).elim
  · rcases Peers.delivered_step taken host with same | ⟨delivery, delivers⟩
    · exact same
    · exact (notDelivers delivery delivers).elim

theorem brought_step {action : Peers.Action} (taken : watched.step action = some next)
    (host : Host) : BroughtStep watched next action host := by
  rcases step_peers taken with ⟨isTaken, isWatched⟩
  cases action with
  | receive other message =>
      have same := untouched host isTaken (by simp) (by simp)
      exact .same (by rw [isWatched]; rfl) same.1 same.2
  | translate other index task =>
      rcases Peers.translate_cases isTaken with ⟨message, _, _, found, _, isNext⟩
      by_cases isHost : host = other
      · subst isHost
        refine .translate message ?_ (by rw [isNext, Peers.modify_same])
        rw [isWatched]
        simp [watch, found]
      · have same := untouched host isTaken (by simp [Ne.symm isHost]) (by simp)
        refine .same ?_ same.1 same.2
        rw [isWatched]
        simp [watch, found, isHost]
  | write other index =>
      have same := untouched host isTaken (by simp) (by simp)
      exact .same (by rw [isWatched]; rfl) same.1 same.2
  | read other =>
      have same := untouched host isTaken (by simp) (by simp)
      exact .same (by rw [isWatched]; rfl) same.1 same.2
  | handle other index task =>
      rcases Peers.handle_lists isTaken with ⟨delivery, delivers, _⟩
      by_cases isHost : host = other
      · subst isHost
        refine .handle delivery delivers ?_
        rw [isWatched]
        simp [watch, delivers.delivered]
      · have same := untouched host isTaken (by simp) (by simp [Ne.symm isHost])
        refine .same ?_ same.1 same.2
        rw [isWatched]
        simp [watch, delivers.delivered, isHost]

theorem Tracked.held_step {action : Peers.Action} {entry : Brought} (tracked : Tracked watched)
    (taken : watched.step action = some next) (isMem : entry ∈ next.brought host)
    (isHeld : entry.standing = .held) :
    (next.peers host).session.names.localPortsByRemote entry.remote = some entry.proxy := by
  have ofSettled : ∀ {before : Brought} {cause : Standing},
      before.settle (next.peers host).session.names cause = entry → cause ≠ .held →
      (next.peers host).session.names.localPortsByRemote entry.remote = some entry.proxy := by
    rintro before cause rfl notHeld
    rcases before.standing_settle (next.peers host).session.names cause with isCause | ⟨same, known⟩
    · exact (notHeld (isCause.symm.trans isHeld)).elim
    · exact known (same.symm.trans isHeld)
  cases brought_step taken host with
  | same isSame sameSession _ =>
      rw [isSame] at isMem
      rw [sameSession]
      exact tracked.held host entry isMem isHeld
  | translate message isSettled _ =>
      rw [isSettled] at isMem
      rcases List.mem_map.mp isMem with ⟨before, _, isEntry⟩
      refine ofSettled isEntry ?_
      rcases (watched.peers host).session.cause_cases message before.proxy with
        isCause | isCause <;> simp [isCause]
  | handle delivery _ isSettled =>
      rw [isSettled] at isMem
      rcases List.mem_map.mp isMem with ⟨before, _, isEntry⟩
      refine ofSettled isEntry ?_
      rcases delivery.cause_cases with isCause | isCause <;> simp [isCause]

theorem Tracked.entered_step {action : Peers.Action} {delivery : Delivery} {port : Port}
    (tracked : Tracked watched) (taken : watched.step action = some next)
    (isDelivered : delivery ∈ (next.peers host).delivered) (unflagged : port.flagged = false)
    (something : ¬port.Nothing) (carries : delivery.packet.wire.CarriesReceive port) :
    ∃ entry ∈ next.brought host, entry.remote = port ∧ entry.number = delivery.packet.number := by
  have before : delivery ∈ (watched.peers host).delivered → ∃ entry ∈ watched.brought host,
      entry.remote = port ∧ entry.number = delivery.packet.number :=
    fun isDelivered => tracked.entered host delivery isDelivered port unflagged something carries
  cases brought_step taken host with
  | same isSame _ sameDelivered =>
      rw [isSame]
      exact before (sameDelivered ▸ isDelivered)
  | translate message isSettled sameDelivered =>
      rw [isSettled]
      rcases before (sameDelivered ▸ isDelivered) with ⟨entry, isMem, isEntry⟩
      exact ⟨_, List.mem_map_of_mem isMem, isEntry⟩
  | handle new delivers isSettled =>
      rw [isSettled]
      rw [delivers.delivered] at isDelivered
      rcases List.mem_append.mp isDelivered with isOld | isNew
      · rcases before isOld with ⟨entry, isMem, isEntry⟩
        exact ⟨_, List.mem_map_of_mem (List.mem_append_left _ isMem), isEntry⟩
      · cases List.mem_singleton.mp isNew
        rcases Option.ne_none_iff_exists'.mp (delivers.knew unflagged something carries) with
          ⟨proxy, known⟩
        have isBrought : { number := delivery.packet.number, remote := port, proxy := proxy } ∈
            delivery.brings :=
          List.mem_filterMap.mpr ⟨port, Message.mem_receivePorts.mpr carries, by rw [known]; rfl⟩
        exact ⟨_, List.mem_map_of_mem (List.mem_append_right _ isBrought), rfl, rfl⟩

theorem Tracked.gaveUp_step {action : Peers.Action} {entry : Brought} {notice : Packet}
    (tracked : Tracked watched) (taken : watched.step action = some next)
    (isMem : entry ∈ next.brought host) (isGivenUp : entry.standing = .givenUp notice) :
    ∃ delivery ∈ (next.peers host).delivered, delivery.packet = notice := by
  cases brought_step taken host with
  | same isSame _ sameDelivered =>
      rw [isSame] at isMem
      rw [sameDelivered]
      exact tracked.gaveUp host entry isMem notice isGivenUp
  | translate message isSettled sameDelivered =>
      rw [isSettled] at isMem
      rw [sameDelivered]
      rcases List.mem_map.mp isMem with ⟨before, wasMem, rfl⟩
      rcases before.standing_settle (next.peers host).session.names _ with isCause | ⟨same, _⟩
      · rw [isGivenUp] at isCause
        rcases (watched.peers host).session.cause_cases message before.proxy with other | other <;>
          simp [other] at isCause
      · exact tracked.gaveUp host before wasMem notice (same.symm.trans isGivenUp)
  | handle new delivers isSettled =>
      rw [isSettled] at isMem
      rw [delivers.delivered]
      rcases List.mem_map.mp isMem with ⟨before, wasMem, rfl⟩
      rcases before.standing_settle (next.peers host).session.names new.cause with
        isCause | ⟨same, _⟩
      · rw [isGivenUp] at isCause
        refine ⟨new, List.mem_append_right _ (List.mem_singleton_self _), ?_⟩
        rcases new.cause_cases with isNew | isOther
        · exact (Standing.givenUp.inj (isCause.trans isNew)).symm
        · cases isCause.trans isOther
      · have wasGivenUp := same.symm.trans isGivenUp
        rcases List.mem_append.mp wasMem with isOld | isNew
        · rcases tracked.gaveUp host before isOld notice wasGivenUp with
            ⟨delivery, isDelivered, isNotice⟩
          exact ⟨delivery, List.mem_append_left _ isDelivered, isNotice⟩
        · rcases List.mem_filterMap.mp isNew with ⟨port, _, isBrought⟩
          rcases Option.map_eq_some_iff.mp isBrought with ⟨proxy, _, rfl⟩
          cases wasGivenUp

theorem Tracked.step {action : Peers.Action} (tracked : Tracked watched)
    (inOrder : watched.HandlesInOrder action) (taken : watched.step action = some next) :
    Tracked next := by
  refine ⟨tracked.followed.step ?_ (step_peers taken).1, fun host entry => tracked.held_step taken,
    fun host delivery isDelivered port => tracked.entered_step taken isDelivered,
    fun host entry isMem notice => tracked.gaveUp_step taken isMem⟩
  rintro host index task rfl
  exact inOrder

section Runs

end Runs

end Watched

end Hurd.Netmsg
