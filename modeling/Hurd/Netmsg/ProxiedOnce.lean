import Hurd.Netmsg.SendOnce

/-!
# Send-once rights between the peers

The peers are watched together with the send-once rights that each task holds.  A right that
is received has a name of its own, which the kernel uses for another right only when a message
has been sent to the first.  Every right that is held has at most one token with the peers: the
right itself on its way out, its proxy at the other end, or the message for it on its way back.
-/

namespace Hurd.Netmsg

/-- The number of the send-once right whose proxy the message of the packet was received on. -/
def Packet.onceRelayed (packet : Packet) : Option Port :=
  packet.sender.onceRelayed packet.original

/-- The name of the send-once right that a message which was sent has used up. -/
def Message.onceUsed : Option Message → List Port
  | none => []
  | some sent => if sent.remoteType = some .moveSendOnce then [sent.remotePort] else []

/--
The peers with the names of the send-once rights that each task `holds`, and the numbers of those
that each session has `proxied` and of those it has `relayed` a message to.
-/
structure OncePeers where
  peers : Peers
  holds : Host → List Port := fun _ => []
  proxied : Host → List Port := fun _ => []
  relayed : Host → List Port := fun _ => []

namespace OncePeers

/-- The send-once rights that a message brings to a task. -/
def arrivals (host : Host) : Peers.Action → List Port
  | .receive other message => if other = host then message.onceNames else []
  | .translate _ _ _ => []
  | .write _ _ => []
  | .read _ => []
  | .handle _ _ _ => []

/-- The send-once right whose proxy the message taken up by a host is on. -/
def departures (peers : Peers) (host : Host) : Peers.Action → List Port
  | .translate other index _ =>
      if other = host then
        (((peers host).received[index]?).bind (peers host).session.onceRelayed).toList
      else []
  | .receive _ _ => []
  | .write _ _ => []
  | .read _ => []
  | .handle _ _ _ => []

/-- The network message that a host handles, and what it sends by IPC for it. -/
def handles (peers : Peers) (host : Host) : Peers.Action → Option (Message × Option Message)
  | .handle other index task =>
      if other = host then do
        let packet ← (peers host).arrived[index]?
        let (sent, _) ← ({ (peers host).session with task := task } : Session).tcpBufferHandler
          packet.wire
        some (packet.wire, sent)
      else none
  | .receive _ _ => none
  | .translate _ _ _ => none
  | .write _ _ => none
  | .read _ => none

def step (once : OncePeers) (action : Peers.Action) : Option OncePeers := do
  let next ← once.peers.step action
  some
    { peers := next
      holds := fun host => (once.holds host ++ arrivals host action).diff
        ((handles once.peers host action).toList.flatMap fun handled => Message.onceUsed handled.2)
      proxied := fun host => once.proxied host ++
        (handles once.peers host action).toList.flatMap fun handled =>
          handled.1.onceTranslated handled.2
      relayed := fun host => once.relayed host ++ departures once.peers host action }

/-- The names of the send-once rights that a message brings are not in use for others. -/
def HandsOutOnce (once : OncePeers) : Peers.Action → Prop
  | .receive host message =>
      message.onceNames.Nodup ∧ ∀ number ∈ message.onceNames, number ∉ once.holds host
  | .translate _ _ _ => True
  | .write _ _ => True
  | .read _ => True
  | .handle _ _ _ => True

/--
A message that is going to use up a send-once right of the task was received on the proxy of that
right.
-/
def UsedThroughProxy (once : OncePeers) : Peers.Action → Prop
  | .handle host index _ => ∀ packet port, (once.peers host).arrived[index]? = some packet →
      (once.peers host).session.SendsOnceTo packet.wire port → port ∈ once.holds host →
      packet.onceRelayed = some port
  | .receive _ _ => True
  | .translate _ _ _ => True
  | .write _ _ => True
  | .read _ => True

/-- The send-once rights of a name that are underway, proxied, or being answered. -/
def tokens (peers : Peers) (host : Host) (number : Port) : ℕ :=
  ((peers host).received.flatMap Message.onceNames).count number +
    ((peers.waitingList host).flatMap fun packet => packet.wire.onceNames).count number +
    ((peers host.peer).session.names.sendOncePortsByRemote number).isSome.toNat +
    (peers.waitingList host.peer).countP fun packet => packet.onceRelayed = some number

/-- Every token belongs to a send-once right that the task holds, and every proxy to one that came. -/
structure Owned (once : OncePeers) : Prop where
  distinct : ∀ host, (once.holds host).Nodup
  tokens_le : ∀ host number, tokens once.peers host number ≤ (once.holds host).count number
  linked : ∀ host, (once.peers host).session.names.OnceLinked
  balanced : ∀ host number, (once.relayed host).count number +
    ((once.peers host).session.names.sendOncePortsByRemote number).isSome.toNat =
      (once.proxied host).count number

variable {once next : OncePeers} {peers after : Peers} {action : Peers.Action} {host : Host}
  {number : Port}

theorem handles_of_delivers {delivery : Delivery}
    (delivers : Peers.Delivers peers action host delivery after) :
    handles peers host action = some (delivery.packet.wire, delivery.sent) := by
  rcases delivers.isHandle with ⟨index, rfl, found⟩
  have handled := delivers.handled
  rw [delivers.receiver] at handled
  rw [handles, if_pos rfl, found]
  simp only [Option.bind_eq_bind, Option.bind_some]
  rw [handled]
  rfl

/-- A right that a session uses up without having relayed to it is not held under that name. -/
theorem relayed_of_used {delivery : Delivery}
    (delivers : Peers.Delivers once.peers action host delivery after)
    (throughProxy : UsedThroughProxy once action) (isUsed : number ∈ Message.onceUsed delivery.sent)
    (held : number ∈ once.holds host) : delivery.packet.onceRelayed = some number := by
  rcases delivers.isHandle with ⟨index, rfl, found⟩
  cases isSent : delivery.sent with
  | none => simp [isSent, Message.onceUsed] at isUsed
  | some sent =>
      rw [isSent, Message.onceUsed] at isUsed
      split_ifs at isUsed with isOnce
      · cases List.mem_singleton.mp isUsed
        have handled := delivers.handled
        rw [isSent, delivers.receiver] at handled
        rcases Session.sendsOnceTo_of_tcpBufferHandler handled isOnce with
          ⟨asOnce, untyped, addressed⟩
        exact throughProxy _ _ found ⟨asOnce, untyped, addressed⟩ held
      · cases isUsed

/-- The tokens that the lists of a host and the proxies of the other make up. -/
theorem tokens_congr
    (sameReceived : (after host).received = (peers host).received)
    (sameOut : List.Perm (after.waitingList host) (peers.waitingList host))
    (sameProxies : (after host.peer).session = (peers host.peer).session)
    (sameBack : List.Perm (after.waitingList host.peer) (peers.waitingList host.peer))
    (number : Port) : tokens after host number = tokens peers host number := by
  unfold tokens
  rw [sameReceived, sameProxies, (sameOut.flatMap_right _).count_eq, sameBack.countP_eq]

theorem tokens_translate_own {index : ℕ} {task : Task}
    (taken : peers.translate host index task = some after) (number : Port) :
    tokens after host number ≤ tokens peers host number := by
  rcases Peers.translate_lists taken with ⟨message, sent, session, found, handled, isSession,
    sameOther, received, waiting, sameBack⟩
  unfold tokens
  rw [sameOther, sameBack, (waiting.flatMap_right _).count_eq, (received.flatMap_right _).count_eq]
  simp only [List.flatMap_append, List.flatMap_cons, List.count_append]
  cases sent with
  | none =>
      simp only [Option.toList_none, List.map_nil, List.flatMap_nil, List.count_nil]
      omega
  | some wire =>
      have sameNames := Session.onceNames_ipcBufferHandler handled
      simp only [Option.toList_some, List.map_cons, List.map_nil, List.flatMap_cons,
        List.flatMap_nil, List.append_nil, sameNames]
      omega

theorem countP_onceRelayed_le (made : ℕ) (sender : Session) (message : Message)
    (sent : Option Message) (number : Port) :
    ((sent.toList.map fun wire => (⟨made, sender, message, wire⟩ : Packet)).countP
        fun packet => packet.onceRelayed = some number) ≤
      (sender.onceRelayed message).toList.count number := by
  cases sent with
  | none => simp
  | some wire =>
      cases isRelayed : sender.onceRelayed message with
      | none => simp [Packet.onceRelayed, isRelayed]
      | some remote =>
          by_cases same : remote = number
          · simp [Packet.onceRelayed, isRelayed, same]
          · simp [Packet.onceRelayed, isRelayed, same]

theorem tokens_translate_peer {index : ℕ} {task : Task}
    (linked : (peers host).session.names.OnceLinked)
    (taken : peers.translate host index task = some after) (number : Port) :
    tokens after host.peer number ≤ tokens peers host.peer number := by
  rcases Peers.translate_lists taken with ⟨message, sent, session, found, handled, isSession,
    sameOther, received, waiting, sameBack⟩
  have linkedSender : ({ (peers host).session with task := task } : Session).names.OnceLinked :=
    linked
  have relays := Session.onceCount_ipcBufferHandler linkedSender handled number
  unfold tokens
  rw [Host.peer_peer, sameOther, sameBack, isSession, waiting.countP_eq, List.countP_append]
  have departs := countP_onceRelayed_le (peers host).made
    { (peers host).session with task := task } message sent number
  dsimp only at relays departs ⊢
  omega

theorem tokens_handle_own {index : ℕ} {task : Task}
    (taken : peers.handle host index task = some after) :
    ∃ delivery, Peers.Delivers peers (.handle host index task) host delivery after ∧
      ∀ number, tokens after host number +
        [delivery.packet].countP (fun packet => packet.onceRelayed = some number) =
          tokens peers host number := by
  rcases Peers.handle_lists taken with
    ⟨delivery, delivers, isSession, sameOther, received, removed, sameBack⟩
  refine ⟨delivery, delivers, fun number => ?_⟩
  unfold tokens
  rw [received, sameOther, sameBack, removed.countP_eq]
  simp only [List.countP_cons, List.countP_nil]
  omega

theorem tokens_handle_peer {index : ℕ} {task : Task}
    (single : ∀ number, tokens peers host.peer number ≤ 1)
    (taken : peers.handle host index task = some after) (number : Port) :
    tokens after host.peer number ≤ tokens peers host.peer number := by
  rcases Peers.handle_lists taken with
    ⟨delivery, delivers, isSession, sameOther, received, removed, sameBack⟩
  have atMostOne := single number
  unfold tokens at atMostOne ⊢
  rw [Host.peer_peer] at atMostOne ⊢
  rw [sameOther, sameBack, isSession]
  have counted := (removed.flatMap_right fun packet => packet.wire.onceNames).count_eq number
  rw [List.flatMap_cons, List.count_append] at counted
  have handled := delivers.handled
  rw [delivers.receiver] at handled
  have oneOfBoth : delivery.packet.wire.onceNames.count number +
      ((peers host).session.names.sendOncePortsByRemote number).isSome.toNat ≤ 1 := by
    omega
  have proxies := Session.onceCount_tcpBufferHandler handled oneOfBoth
  have fewer := delivery.packet.wire.count_onceTranslated_le delivery.sent number
  dsimp only at proxies
  omega

theorem session_of_quiet (stepped : peers.step action = some after)
    (notTranslate : ∀ host index task, action ≠ .translate host index task)
    (notHandle : ∀ host index task, action ≠ .handle host index task) (host : Host) :
    (after host).session = (peers host).session := by
  rcases Peers.session_step stepped host with same | ⟨index, task, _, _, isTranslate, _⟩ |
    ⟨delivery, delivers, _⟩
  · exact same
  · exact (notTranslate _ _ _ isTranslate).elim
  · rcases delivers.isHandle with ⟨index, isHandle, _⟩
    exact (notHandle _ _ _ isHandle).elim

/-- Nothing but a message that is received or taken up, or a packet handled, changes a token. -/
theorem tokens_of_quiet (stepped : peers.step action = some after)
    (notTranslate : ∀ host index task, action ≠ .translate host index task)
    (notHandle : ∀ host index task, action ≠ .handle host index task) (number : Port) :
    tokens after host number ≤ tokens peers host number + (arrivals host action).count number := by
  have sameWaiting : ∀ host, List.Perm (after.waitingList host) (peers.waitingList host) := by
    intro host
    rcases Peers.waitingList_step stepped host with same | ⟨index, task, _, _, _, isTranslate, _⟩ |
      ⟨delivery, delivers, _⟩
    · exact same
    · exact (notTranslate _ _ _ isTranslate).elim
    · rcases delivers.isHandle with ⟨index, isHandle, _⟩
      exact (notHandle _ _ _ isHandle).elim
  have sameSession := session_of_quiet stepped notTranslate notHandle host.peer
  rcases Peers.received_step stepped host with same | ⟨message, isReceive, added⟩ |
    ⟨index, task, _, isTranslate, _⟩
  · rw [tokens_congr same (sameWaiting host) sameSession (sameWaiting host.peer)]
    exact Nat.le_add_right _ _
  · subst isReceive
    unfold tokens
    rw [added, sameSession, ((sameWaiting host).flatMap_right _).count_eq,
      (sameWaiting host.peer).countP_eq]
    simp only [List.flatMap_append, List.flatMap_cons, List.flatMap_nil, List.append_nil,
      List.count_append, arrivals, if_true]
    omega
  · exact (notTranslate _ _ _ isTranslate).elim

theorem Owned.single (owned : Owned once) (host : Host) (number : Port) :
    tokens once.peers host number ≤ 1 :=
  (owned.tokens_le host number).trans
    (List.nodup_iff_count_le_one.mp (owned.distinct host) number)

/-- Every token that is left after a step belongs to a right that is left. -/
theorem Owned.tokens_step (owned : Owned once) (throughProxy : UsedThroughProxy once action)
    (stepped : once.peers.step action = some after) (host : Host) (number : Port) :
    tokens after host number ≤ ((once.holds host ++ arrivals host action).diff
      ((handles once.peers host action).toList.flatMap
        fun handled => Message.onceUsed handled.2)).count number := by
  have before := owned.tokens_le host number
  rw [List.count_diff, List.count_append]
  cases action with
  | receive other message =>
      have few : tokens after host number ≤ _ := tokens_of_quiet stepped nofun nofun number
      rw [handles, Option.toList_none, List.flatMap_nil, List.count_nil]
      omega
  | translate other index task =>
      rw [handles, Option.toList_none, List.flatMap_nil, List.count_nil]
      by_cases isHost : host = other
      · subst isHost
        have few := tokens_translate_own stepped number
        omega
      · have isPeer := Peers.peer_eq_of_ne (Ne.symm isHost)
        subst isPeer
        have few := tokens_translate_peer (owned.linked other) stepped number
        omega
  | write other index =>
      have few : tokens after host number ≤ _ := tokens_of_quiet stepped nofun nofun number
      rw [handles, Option.toList_none, List.flatMap_nil, List.count_nil]
      omega
  | read other =>
      have few : tokens after host number ≤ _ := tokens_of_quiet stepped nofun nofun number
      rw [handles, Option.toList_none, List.flatMap_nil, List.count_nil]
      omega
  | handle other index task =>
      by_cases isHost : host = other
      · subst isHost
        rcases tokens_handle_own stepped with ⟨delivery, delivers, counted⟩
        have countedNumber := counted number
        rw [handles_of_delivers delivers, Option.toList_some, List.flatMap_singleton]
        dsimp only
        have atMostOne : (Message.onceUsed delivery.sent).count number ≤ 1 := by
          rw [Message.onceUsed.eq_def]
          split
          · simp
          · split_ifs
            · exact List.count_le_length
            · simp
        by_cases isUsed : number ∈ Message.onceUsed delivery.sent
        · by_cases held : number ∈ once.holds host
          · have relayed := relayed_of_used delivers throughProxy isUsed held
            simp only [List.countP_cons, List.countP_nil, relayed, decide_true, if_true]
              at countedNumber
            omega
          · have notHeld := List.count_eq_zero.mpr held
            omega
        · have notUsed := List.count_eq_zero.mpr isUsed
          omega
      · have isPeer := Peers.peer_eq_of_ne (Ne.symm isHost)
        subst isPeer
        rw [handles, if_neg (Ne.symm isHost), Option.toList_none, List.flatMap_nil, List.count_nil]
        have few := tokens_handle_peer (owned.single other.peer) stepped number
        omega

/-- A packet that waits has the only token of each send-once right that it carries. -/
theorem Owned.single_packet (owned : Owned once) {packet : Packet}
    (waits : packet ∈ once.peers.waitingList host.peer) (number : Port) :
    packet.wire.onceNames.count number +
      ((once.peers host).session.names.sendOncePortsByRemote number).isSome.toNat ≤ 1 := by
  have atMostOne := owned.single host.peer number
  have fewer : packet.wire.onceNames.count number ≤
      ((once.peers.waitingList host.peer).flatMap fun packet => packet.wire.onceNames).count number := by
    have isOne : packet.wire.onceNames ∈
        (once.peers.waitingList host.peer).map fun packet => packet.wire.onceNames :=
      List.mem_map.mpr ⟨packet, waits, rfl⟩
    rw [List.flatMap_def]
    exact (List.sublist_flatten_of_mem isOne).count_le number
  rw [tokens, Host.peer_peer] at atMostOne
  omega

/-- The proxies that a host has made are those it has relayed to and those that are left. -/
theorem Owned.balanced_step (owned : Owned once) (stepped : once.peers.step action = some after)
    (host : Host) (number : Port) :
    (once.relayed host ++ departures once.peers host action).count number +
        ((after host).session.names.sendOncePortsByRemote number).isSome.toNat =
      (once.proxied host ++ (handles once.peers host action).toList.flatMap
        fun handled => handled.1.onceTranslated handled.2).count number := by
  have before := owned.balanced host number
  have ofSame : (after host).session = (once.peers host).session →
      departures once.peers host action = [] → handles once.peers host action = none →
      (once.relayed host ++ departures once.peers host action).count number +
          ((after host).session.names.sendOncePortsByRemote number).isSome.toNat =
        (once.proxied host ++ (handles once.peers host action).toList.flatMap
          fun handled => handled.1.onceTranslated handled.2).count number := by
    intro sameSession noneRelayed noneHandled
    rw [sameSession, noneRelayed, noneHandled, List.append_nil, Option.toList_none,
      List.flatMap_nil, List.append_nil]
    exact before
  cases action with
  | receive other message => exact ofSame (session_of_quiet stepped nofun nofun host) rfl rfl
  | write other index => exact ofSame (session_of_quiet stepped nofun nofun host) rfl rfl
  | read other => exact ofSame (session_of_quiet stepped nofun nofun host) rfl rfl
  | translate other index task =>
      rcases Peers.translate_lists stepped with
        ⟨message, sent, session, found, handled, isSession, sameOther, _⟩
      by_cases isHost : host = other
      · subst isHost
        have linkedSender :
            ({ (once.peers host).session with task := task } : Session).names.OnceLinked :=
          owned.linked host
        have relays : (session.names.sendOncePortsByRemote number).isSome.toNat +
              ((once.peers host).session.onceRelayed message).toList.count number =
            ((once.peers host).session.names.sendOncePortsByRemote number).isSome.toNat :=
          Session.onceCount_ipcBufferHandler linkedSender handled number
        rw [handles, isSession, Option.toList_none, List.flatMap_nil, List.append_nil,
          List.count_append, departures, if_pos rfl, found, Option.bind_some]
        omega
      · have isPeer := Peers.peer_eq_of_ne (Ne.symm isHost)
        subst isPeer
        exact ofSame (by rw [sameOther]) (if_neg (Ne.symm isHost)) rfl
  | handle other index task =>
      rcases Peers.handle_lists stepped with ⟨delivery, delivers, isSession, sameOther, _, removed, _⟩
      by_cases isHost : host = other
      · subst isHost
        have sameNames : delivery.receiver.names = (once.peers host).session.names := by
          rw [delivers.receiver]
        have waits : delivery.packet ∈ once.peers.waitingList host.peer :=
          removed.mem_iff.mpr List.mem_cons_self
        have single := owned.single_packet waits number
        rw [← sameNames] at single before
        have proxies := Session.onceCount_tcpBufferHandler delivers.handled single
        rw [handles_of_delivers delivers, isSession, Option.toList_some, List.flatMap_singleton,
          List.count_append, List.count_append, departures, List.count_nil]
        dsimp only
        omega
      · have isPeer := Peers.peer_eq_of_ne (Ne.symm isHost)
        subst isPeer
        exact ofSame (by rw [sameOther]) rfl (if_neg (Ne.symm isHost))

theorem Owned.start (starts : Peers.Start peers) : Owned { peers := peers } := by
  have isFresh : ∀ host, (peers host).received = [] ∧ (peers host).translated = [] ∧
      (peers host).inbound = [] ∧ (peers host).arrived = [] ∧
      (∀ number, (peers host).session.names.sendOncePortsByRemote number = none) ∧
      ∀ port, (peers host).session.names.sendOncePortsByLocal port = none := by
    intro host
    rcases starts host with ⟨session, created, isSession⟩
    rw [isSession]
    cases created <;> exact ⟨rfl, rfl, rfl, rfl, fun _ => rfl, fun _ => rfl⟩
  have noneWaiting : ∀ host, peers.waitingList host = [] := by
    intro host
    rcases isFresh host with ⟨_, translated, _⟩
    rcases isFresh host.peer with ⟨_, _, inbound, arrived, _⟩
    simp [Peers.waitingList, translated, inbound, arrived]
  refine ⟨fun _ => List.nodup_nil, ?_, ?_, ?_⟩
  · intro host number
    rcases isFresh host with ⟨received, _⟩
    rcases isFresh host.peer with ⟨_, _, _, _, unproxied, _⟩
    simp [tokens, received, noneWaiting, unproxied]
  · intro host port remote linked
    rcases isFresh host with ⟨_, _, _, _, _, unlinked⟩
    simp [unlinked] at linked
  · intro host number
    rcases isFresh host with ⟨_, _, _, _, unproxied, _⟩
    simp [unproxied]

theorem Owned.step (owned : Owned once) (handsOut : HandsOutOnce once action)
    (throughProxy : UsedThroughProxy once action) (taken : once.step action = some next) :
    Owned next := by
  rcases Option.bind_eq_some_iff.mp taken with ⟨after, stepped, ⟨⟩⟩
  refine ⟨?_, ?_, ?_, ?_⟩
  · intro host
    apply List.Nodup.diff
    rw [List.nodup_append']
    cases action with
    | receive other message =>
        rw [arrivals]
        split_ifs with isHost
        · subst isHost
          exact ⟨owned.distinct _, handsOut.1, fun number held isNew => handsOut.2 number isNew held⟩
        · exact ⟨owned.distinct _, List.nodup_nil, List.disjoint_nil_right _⟩
    | _ => exact ⟨owned.distinct _, List.nodup_nil, List.disjoint_nil_right _⟩
  · exact owned.tokens_step throughProxy stepped
  · exact Peers.sessions_step (fun session => session.names.OnceLinked) (fun _ _ linked => linked)
      Session.onceLinked_ipcBufferHandler Session.onceLinked_tcpBufferHandler owned.linked stepped
  · exact owned.balanced_step stepped

/--
A send-once right that a host comes to translate has no proxy there.  The messages relayed so
far, with the proxy that may be left, are as many as the rights proxied, so that there is at
most one for each; and with the message the proxy and its receive right are gone.
-/
structure ProxiesOnce (once : OncePeers) : Prop where
  unproxied : ∀ host, ∀ packet ∈ (once.peers host).arrived, ∀ task number middle,
    ¬number.Nothing →
    ({ (once.peers host).session with task := task } : Session).ComesToOnce packet.wire number
      middle → middle.names.sendOncePortsByRemote number = none
  relaysOnce : ∀ host number, (once.relayed host).count number +
    ((once.peers host).session.names.sendOncePortsByRemote number).isSome.toNat =
      (once.proxied host).count number
  gone : ∀ host index task message number after, (once.peers host).received[index]? = some message →
    (once.peers host).session.onceRelayed message = some number →
    once.peers.step (.translate host index task) = some after →
    (after host).session.names.sendOncePortsByRemote number = none ∧
      (after host).session.names.sendOncePortsByLocal message.localPort = none ∧
      ((after host).session.task.holds message.localPort).receive = false

/--
In every run in which the kernel keeps the names of the send-once rights in use, and every
message that uses one up was received on its proxy, each of them is proxied once.
-/
theorem proxiesOnce_of_reachable {start : Peers} (starts : Peers.Start start)
    (reached : Transition.Reachable step
      (fun once action => HandsOutOnce once action ∧ UsedThroughProxy once action)
      { peers := start } once) : once.ProxiesOnce := by
  have owned : Owned once :=
    reached.invariant Owned (.start starts)
      (fun owned isAllowed taken => owned.step isAllowed.1 isAllowed.2 taken)
  refine ⟨?_, owned.balanced, ?_⟩
  · intro host packet packetMem task number middle something comesTo
    have waits : packet ∈ once.peers.waitingList host.peer := by
      simp [Peers.waitingList, packetMem]
    exact comesTo.unproxied something (owned.single_packet waits number)
  · intro host index task message number after found isRelayed stepped
    rcases Peers.translate_lists stepped with
      ⟨taken, sent, session, isTaken, handled, isSession, _⟩
    rw [found] at isTaken
    cases isTaken
    have routes : ({ (once.peers host).session with task := task } : Session).RoutesOnce message
        number := Session.onceRelayed_eq_some_iff.mp isRelayed
    rw [isSession]
    rcases Session.once_ipcBufferHandler handled with ⟨_, _, notRouted⟩ |
      ⟨remote, routed, byRemote, byLocal⟩
    · exact (notRouted number routes).elim
    · have same : remote = number := by
        have linked := routed.linked
        rw [routes.linked] at linked
        exact (Option.some.inj linked).symm
      subst same
      rw [byRemote, byLocal]
      refine ⟨?_, ?_, routes.receiveGone handled⟩
      · simp [Names.unlinkOnce]
      · simp [Names.unlinkOnce]

/-- The translator sends the receive right of its own port 10 to the server. -/
def handOverRun : List Peers.Action :=
  [.receive .left { localPort := 1, body := [⟨.moveReceive, [10]⟩, ⟨.moveSend, [11]⟩] },
    .translate .left 0 (Peers.ampleTask []), .write .left 0, .read .right,
    .handle .right 0 (Peers.ampleTask [30, 21])]

/--
The server sends its send-once right 10, and the receive right back.  A message for the translator's
own port 10 waits there when the receive right comes; it is relayed under the number 10 and uses
up the send-once right.
-/
def strayRun : List Peers.Action :=
  [.translate .right 0 (Peers.ampleTask []), .write .right 0, .read .left,
    .receive .left { localPort := 10, localType := some .moveSendOnce, id := 1000 },
    .handle .left 0 (Peers.ampleTask [40, 41]),
    .translate .left 0 (Peers.ampleTask []), .write .left 0, .read .right,
    .handle .right 0 (Peers.ampleTask [])]

/-- The server has a new send-once right under the name 10, and sends it. -/
def reuseRun : List Peers.Action :=
  [.translate .right 0 (Peers.ampleTask []), .write .right 0, .read .left]

def sendsOnce : Peers.Action :=
  .receive .right { localPort := 21, body := [⟨.moveSendOnce, [10]⟩, ⟨.moveReceive, [30]⟩] }

def sendsOnceAgain : Peers.Action :=
  .receive .right { localPort := 21, body := [⟨.moveSendOnce, [10]⟩] }

/-- The translator comes to proxy the number 10, for which it has a proxy. -/
theorem strayRun_proxied_twice :
    ∃ once, Transition.Reachable step HandsOutOnce { peers := Peers.joined } once ∧
      ¬once.ProxiesOnce := by
  have handedOver : ∃ once, Transition.run step handOverRun { peers := Peers.joined } = some once ∧
      once.holds .right = [] := by
    refine ⟨_, rfl, ?_⟩
    rfl
  have strayed : ∃ once, Transition.run step (handOverRun ++ sendsOnce :: strayRun)
      { peers := Peers.joined } = some once ∧ once.holds .right = [] := by
    refine ⟨_, rfl, ?_⟩
    rfl
  have reused : ∃ once, Transition.run step
      ((handOverRun ++ sendsOnce :: strayRun) ++ sendsOnceAgain :: reuseRun)
      { peers := Peers.joined } = some once ∧ ¬once.ProxiesOnce := by
    refine ⟨_, rfl, fun well => ?_⟩
    have unproxied := well.unproxied .left _ List.mem_cons_self (Peers.ampleTask []) 10 _
      (by decide) (@Session.ComesToOnce.body _ _ _ false 0 0 _ _ _ _ _ rfl rfl rfl rfl rfl)
    cases unproxied
  rcases handedOver with ⟨first, firstDone, firstHolds⟩
  rcases strayed with ⟨second, secondDone, secondHolds⟩
  rcases reused with ⟨third, thirdDone, misses⟩
  rw [Transition.run_append, secondDone, Option.bind_some] at thirdDone
  rw [Transition.run_append, firstDone, Option.bind_some] at secondDone
  -- only the two messages with the send-once right ask anything of the kernel
  have firstQuiet : ∀ action ∈ handOverRun, ∀ once, HandsOutOnce once action := by
    simp [handOverRun, HandsOutOnce, Message.onceNames, Item.onceNames, Message.onceReply,
      TypeName.isOnce]
  have secondQuiet : ∀ action ∈ strayRun, ∀ once, HandsOutOnce once action := by
    simp [strayRun, HandsOutOnce, Message.onceNames, Message.onceReply]
  have thirdQuiet : ∀ action ∈ reuseRun, ∀ once, HandsOutOnce once action := by
    simp [reuseRun, HandsOutOnce]
  have firstReached := Transition.Reachable.start.of_run handOverRun (.of_always firstQuiet _)
    firstDone
  have secondReached := firstReached.of_run (sendsOnce :: strayRun)
    ⟨⟨by decide, by simp [firstHolds]⟩, fun once _ => .of_always secondQuiet once⟩ secondDone
  have thirdReached := secondReached.of_run (sendsOnceAgain :: reuseRun)
    ⟨⟨by decide, by simp [secondHolds]⟩, fun once _ => .of_always thirdQuiet once⟩ thirdDone
  exact ⟨third, thirdReached, misses⟩

/-- The server answers on the proxy of a send-once right of the translator. -/
def answeredRun : List Peers.Action :=
  [.receive .left { localPort := 1, body := [⟨.moveSendOnce, [10]⟩] },
    .translate .left 0 (Peers.ampleTask []), .write .left 0, .read .right,
    .handle .right 0 (Peers.ampleTask [40, 41]),
    .receive .right { localPort := 40, localType := some .moveSendOnce, id := 1000 },
    .translate .right 0 (Peers.ampleTask []), .write .right 0, .read .left,
    .handle .left 0 (Peers.ampleTask [])]

theorem proxiesOnce_after_answered :
    ∃ once, Transition.run step answeredRun { peers := Peers.joined } = some once ∧
      once.ProxiesOnce := by
  refine ⟨_, rfl, proxiesOnce_of_reachable Peers.joined_start
    (Transition.Reachable.start.of_run answeredRun ?_ rfl)⟩
  refine ⟨⟨⟨by decide, by simp⟩, trivial⟩, ?_⟩
  rintro _ ⟨⟩
  iterate 3
    refine ⟨⟨trivial, trivial⟩, ?_⟩
    rintro _ ⟨⟩
  refine ⟨⟨trivial, ?_⟩, ?_⟩
  · rintro packet port ⟨⟩ ⟨⟨⟩, _, _⟩
  rintro _ ⟨⟩
  refine ⟨⟨⟨List.nodup_nil, nofun⟩, trivial⟩, ?_⟩
  rintro _ ⟨⟩
  iterate 3
    refine ⟨⟨trivial, trivial⟩, ?_⟩
    rintro _ ⟨⟩
  refine ⟨⟨trivial, ?_⟩, fun _ _ => trivial⟩
  rintro packet port ⟨⟩ ⟨_, _, ⟨isControl, _⟩ | ⟨_, _, rfl⟩⟩ _
  · exact absurd isControl (by decide)
  · rfl

end OncePeers

end Hurd.Netmsg
