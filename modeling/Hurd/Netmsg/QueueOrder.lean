import Hurd.Netmsg.Peers

/-!
# The order of the run queues

A run queue handles its messages one after the other, and the stream keeps the order in which they
are written.  The messages for a receive right that has been handed over have one run queue at
either end, so they are handled in the order of their numbers, whatever the other run queues do.
-/

namespace Hurd.Netmsg

section Lists

variable {α : Type} {relation : α → α → Prop} {waiting : List α} {index : ℕ} {taken : α}

theorem eq_take_cons_drop (found : waiting[index]? = some taken) :
    waiting = waiting.take index ++ taken :: waiting.drop (index + 1) := by
  rcases List.getElem?_eq_some_iff.mp found with ⟨below, isTaken⟩
  rw [← isTaken, List.getElem_cons_drop, List.take_append_drop]

theorem pairwise_earlier (ordered : waiting.Pairwise relation)
    (found : waiting[index]? = some taken) :
    ∀ earlier ∈ waiting.take index, relation earlier taken := by
  rw [eq_take_cons_drop found, List.pairwise_append] at ordered
  exact fun earlier isEarlier => ordered.2.2 earlier isEarlier taken List.mem_cons_self

/-- What waits is taken out of a list before its turn, where nothing before it minds. -/
theorem pairwise_takenOut {front rest : List α}
    (ordered : (front ++ (waiting ++ rest)).Pairwise relation)
    (found : waiting[index]? = some taken)
    (passes : ∀ earlier ∈ waiting.take index, relation taken earlier) :
    (front ++ (taken :: waiting.eraseIdx index ++ rest)).Pairwise relation := by
  rw [List.eraseIdx_eq_take_drop_succ]
  rw [eq_take_cons_drop found] at ordered
  simp only [List.pairwise_append, List.pairwise_cons, List.mem_append, List.mem_cons,
    List.cons_append] at ordered ⊢
  grind

end Lists

/-- A message with the bit set on the network is addressed to the port it was received on. -/
theorem Session.own_of_remoteTranslate {session next : Session} {message wire : Message}
    (clear : message.remoteTranslate = false)
    (handled : session.ipcBufferHandler message = some (some wire, next))
    (translate : wire.remoteTranslate = true) :
    wire.localPort = message.localPort ∧ wire.id = message.id ∧
      session.names.localPortType message.localPort = some .receive ∧
      session.names.remotePortsByLocal message.localPort = none := by
  rcases ipcBufferHandler_cases handled with ⟨_, isNone, _⟩ | ⟨relayed, deadName, routed, released,
    written, translated, isRouted, isReleased, isTranslated, isSent, _⟩
  · cases isNone
  · cases isSent
    rcases Option.bind_eq_some_iff.mp isTranslated with ⟨⟨body, last⟩, _, ⟨⟩⟩
    cases isRouted with
    | own _ _ unlinked _ typed => exact ⟨rfl, rfl, typed, unlinked⟩
    | _ =>
        rw [clear] at translate
        cases translate

/-- With the bit set, the number on the network is that of the port. -/
def Packet.Own (packet : Packet) : Prop :=
  packet.wire.remoteTranslate = true → packet.wire.localPort = packet.original.localPort

/-- Two messages for one right that has been handed over come in the order of their numbers. -/
def Packet.Precedes (packet later : Packet) : Prop :=
  packet.wire.remoteTranslate = true → later.wire.remoteTranslate = true →
    packet.wire.localPort = later.wire.localPort → packet.number < later.number

namespace Peers

variable {peers next : Peers} {host : Host} {index : ℕ} {task : Task}

/-- The messages that a host has taken up: those that the other side has handled, and the others
in the order in which they come. -/
def line (peers : Peers) (host : Host) : List Packet :=
  (peers host.peer).delivered.map Delivery.packet ++
    ((peers host.peer).arrived ++ ((peers host.peer).inbound ++ (peers host).translated))

theorem mem_line {packet : Packet} :
    packet ∈ peers.line host ↔ peers.Waiting host packet ∨
      ∃ delivery ∈ (peers host.peer).delivered, delivery.packet = packet := by
  simp only [line, Waiting, List.mem_append, List.mem_map]
  grind

/-- No message in the run queue of a message that is taken up has been translated. -/
theorem translate_alone (done : peers.translate host index task = some next) {message : Message}
    (found : (peers host).received[index]? = some message) :
    ∀ packet ∈ (peers host).translated, packet.original.localPort ≠ message.localPort := by
  rcases Option.bind_eq_some_iff.mp done with ⟨message', found', done⟩
  rcases Option.bind_eq_some_iff.mp done with ⟨_, _, done⟩
  rcases Option.bind_eq_some_iff.mp done with ⟨_, alone, _⟩
  cases found.symm.trans found'
  simpa using of_guard alone

/-- Nothing in the run queue of a message that is handled has come before it. -/
theorem handle_first (done : peers.handle host index task = some next) {packet : Packet}
    (found : (peers host).arrived[index]? = some packet) :
    ∀ earlier ∈ (peers host).arrived.take index,
      earlier.wire.localPort ≠ packet.wire.localPort := by
  rcases Option.bind_eq_some_iff.mp done with ⟨packet', found', done⟩
  rcases Option.bind_eq_some_iff.mp done with ⟨_, isFirst, _⟩
  cases found.symm.trans found'
  simpa [first] using of_guard isFirst

/-- How the messages that a host has taken up can change in a step. -/
inductive LineStep (peers : Peers) (action : Action) (host : Host) : List Packet → Prop
  | same : LineStep peers action host (peers.line host)
  | translate {index : ℕ} {task : Task} {message : Message} {sent : Option Message}
      {session : Session} (isTranslate : action = .translate host index task)
      (found : (peers host).received[index]? = some message)
      (handled : ({ (peers host).session with task := task } : Session).ipcBufferHandler message =
        some (sent, session)) :
      LineStep peers action host (peers.line host ++ sent.toList.map fun wire =>
        ⟨(peers host).made, { (peers host).session with task := task }, message, wire⟩)
  | takenOut {front waiting rest : List Packet} {index : ℕ} {packet : Packet}
      (isLine : peers.line host = front ++ (waiting ++ rest))
      (found : waiting[index]? = some packet)
      (apart : waiting = (peers host).translated ∨
        ∀ earlier ∈ waiting.take index, earlier.wire.localPort ≠ packet.wire.localPort) :
      LineStep peers action host (front ++ (packet :: waiting.eraseIdx index ++ rest))

theorem LineStep.of_eq {action : Action} {list : List Packet} (same : list = peers.line host) :
    LineStep peers action host list := by
  rw [same]
  exact .same

theorem line_step {action : Action} (taken : peers.step action = some next) (host : Host) :
    LineStep peers action host (next.line host) := by
  cases action with
  | receive other message =>
      rcases Option.bind_eq_some_iff.mp taken with ⟨_, _, ⟨⟩⟩
      apply LineStep.of_eq
      by_cases isHost : host = other
      · subst isHost
        simp [line, modify_other _ host.peer_ne]
      · rw [← peer_eq_of_ne isHost]
        simp [line, modify_other _ (Ne.symm host.peer_ne)]
  | translate other index task =>
      rcases translate_cases taken with ⟨message, sent, session, found, handled, rfl⟩
      by_cases isHost : host = other
      · subst isHost
        convert LineStep.translate rfl found handled using 1
        simp [line, modify_other _ host.peer_ne]
      · apply LineStep.of_eq
        rw [← peer_eq_of_ne isHost]
        simp [line, modify_other _ (Ne.symm host.peer_ne)]
  | write other index =>
      rcases write_cases taken with ⟨packet, found, rfl⟩
      by_cases isHost : host = other
      · subst isHost
        have isLine : peers.line host = ((peers host.peer).delivered.map Delivery.packet ++
            (peers host.peer).arrived ++ (peers host.peer).inbound) ++
              ((peers host).translated ++ []) := by
          simp [line]
        convert LineStep.takenOut isLine found (.inl rfl) using 1
        simp [line, modify_other _ (Ne.symm host.peer_ne), modify_other _ host.peer_ne]
      · apply LineStep.of_eq
        have isPeer := peer_eq_of_ne isHost
        subst isPeer
        simp [line, modify_other _ (Ne.symm host.peer_ne), modify_other _ host.peer_ne]
  | read other =>
      rcases read_cases taken with ⟨packet, rest, waiting, rfl⟩
      apply LineStep.of_eq
      by_cases isHost : host = other
      · subst isHost
        simp [line, modify_other _ host.peer_ne]
      · have isPeer := peer_eq_of_ne isHost
        subst isPeer
        simp [line, modify_other _ (Ne.symm host.peer_ne), waiting]
  | handle other index task =>
      rcases handle_cases taken with
        ⟨packet, translated, read, sent, session, found, isTranslated, handled, isNext⟩
      have isFirst := handle_first taken found
      subst isNext
      by_cases isHost : host = other
      · subst isHost
        apply LineStep.of_eq
        simp [line, modify_other _ host.peer_ne]
      · have isPeer := peer_eq_of_ne isHost
        subst isPeer
        convert LineStep.takenOut rfl found (.inr isFirst) using 1
        simp [line, modify_other _ (Ne.symm host.peer_ne)]

/-- What a host has taken up stays taken up. -/
theorem mem_line_step {action : Action} {packet : Packet} (taken : peers.step action = some next)
    (isMem : packet ∈ peers.line host) : packet ∈ next.line host := by
  have stepped := line_step taken host
  generalize next.line host = list at stepped
  cases stepped with
  | same => exact isMem
  | translate => exact List.mem_append_left _ isMem
  | takenOut isLine found _ =>
      rw [isLine] at isMem
      simpa [(perm_cons_eraseIdx found).mem_iff, or_assoc] using isMem

/-- What a host has taken up after a step it has taken up before, or it takes it up in the step. -/
theorem mem_line_of_step {action : Action} {packet : Packet} (taken : peers.step action = some next)
    (isMem : packet ∈ next.line host) :
    packet ∈ peers.line host ∨ ∃ index task message wire session,
      action = .translate host index task ∧ (peers host).received[index]? = some message ∧
      ({ (peers host).session with task := task } : Session).ipcBufferHandler message =
        some (some wire, session) ∧
      packet = ⟨(peers host).made, { (peers host).session with task := task }, message, wire⟩ := by
  have stepped := line_step taken host
  generalize next.line host = list at stepped isMem
  cases stepped with
  | same => exact .inl isMem
  | translate isTranslate found handled =>
      rename_i sent _
      rcases List.mem_append.mp isMem with old | new
      · exact .inl old
      · cases sent with
        | none => cases new
        | some wire =>
            cases List.mem_singleton.mp new
            exact .inr ⟨_, _, _, wire, _, isTranslate, found, handled, rfl⟩
  | takenOut isLine found _ =>
      left
      rw [isLine]
      simpa [(perm_cons_eraseIdx found).mem_iff, or_assoc] using isMem

/-- The messages for one right that has been handed over are handled in their order. -/
structure Queued (peers : Peers) : Prop where
  clear : ∀ host, ∀ message ∈ (peers host).received, message.remoteTranslate = false
  own : AllPackets Packet.Own (fun _ => True) peers
  apart : ∀ host, (peers host).translated.Pairwise fun packet later =>
    packet.original.localPort ≠ later.original.localPort
  below : ∀ host, ∀ packet ∈ peers.line host, packet.number < (peers host).made
  ordered : ∀ host, (peers.line host).Pairwise Packet.Precedes

theorem Queued.start (starts : Start peers) : Queued peers := by
  have isEmpty : ∀ host, (peers host).translated = [] ∧ (peers host).inbound = [] ∧
      (peers host).arrived = [] ∧ (peers host).delivered = [] := by
    intro host
    rcases starts host with ⟨session, _, isSession⟩
    rw [isSession]
    exact ⟨rfl, rfl, rfl, rfl⟩
  have noLine : ∀ host, peers.line host = [] := by
    intro host
    simp [line, isEmpty host, isEmpty host.peer]
  refine ⟨received_clear_start starts, .start starts, ?_, ?_, ?_⟩
  · intro host
    simp [isEmpty host]
  · intro host packet isMem
    rw [noLine] at isMem
    cases isMem
  · intro host
    simp [noLine host]

/-- The messages that a host has translated have different run queues. -/
theorem apart_step {action : Action} (taken : peers.step action = some next)
    (apart : (peers host).translated.Pairwise fun packet later =>
      packet.original.localPort ≠ later.original.localPort) :
    (next host).translated.Pairwise fun packet later =>
      packet.original.localPort ≠ later.original.localPort := by
  cases action with
  | receive other message =>
      rcases Option.bind_eq_some_iff.mp taken with ⟨_, _, ⟨⟩⟩
      by_cases isHost : host = other <;> simpa [modify, isHost] using apart
  | translate other index task =>
      rcases translate_cases taken with ⟨message, sent, session, found, handled, isNext⟩
      have alone := translate_alone taken found
      subst isNext
      by_cases isHost : host = other
      · subst isHost
        rw [modify_same]
        cases sent with
        | none => simpa using apart
        | some wire => simpa [List.pairwise_append] using ⟨apart, alone⟩
      · rwa [modify_other _ isHost]
  | write other index =>
      rcases write_cases taken with ⟨packet, found, rfl⟩
      by_cases isHost : host = other
      · subst isHost
        rw [modify_other _ (Ne.symm host.peer_ne), modify_same]
        exact apart.sublist (List.eraseIdx_sublist _ _)
      · have isPeer := peer_eq_of_ne isHost
        subst isPeer
        rw [Host.peer_peer, modify_same, modify_other _ (Ne.symm host.peer_ne)]
        exact apart
  | read other =>
      rcases read_cases taken with ⟨packet, rest, _, rfl⟩
      by_cases isHost : host = other <;> simpa [modify, isHost] using apart
  | handle other index task =>
      rcases handle_cases taken with ⟨_, _, _, _, _, _, _, _, rfl⟩
      by_cases isHost : host = other <;> simpa [modify, isHost] using apart

theorem Queued.step {action : Action} (queued : Queued peers)
    (taken : peers.step action = some next) : Queued next := by
  have below : ∀ host, ∀ packet ∈ next.line host, packet.number < (next host).made := by
    intro host packet isMem
    rcases mem_line_of_step taken isMem with before | ⟨index, task, _, _, _, isTranslate, _, _, rfl⟩
    · exact lt_of_lt_of_le (queued.below host packet before) (made_step taken host).2
    · rw [(made_step taken host).1 index task isTranslate]
      exact Nat.lt_succ_self _
  refine ⟨received_clear_step queued.clear taken, ?_,
    fun host => apart_step taken (queued.apart host), below, ?_⟩
  · refine queued.own.step ?_ (fun _ _ _ _ _ => trivial) taken
    intro host index task message sent session _ found handled translate
    exact (Session.own_of_remoteTranslate
      (queued.clear host message (List.mem_of_getElem? found)) handled translate).1
  · intro host
    have stepped := line_step taken host
    generalize next.line host = list at stepped
    cases stepped with
    | same => exact queued.ordered host
    | @translate _ _ _ sent =>
        -- the new message has a larger number than all others
        refine List.pairwise_append.mpr ⟨queued.ordered host, ?_, ?_⟩
        · cases sent <;> simp
        · intro packet isMem new isNew _ _ _
          rcases List.mem_map.mp isNew with ⟨wire, _, rfl⟩
          exact queued.below host packet isMem
    | @takenOut _ _ _ _ packet isLine found apart =>
        refine pairwise_takenOut (isLine ▸ queued.ordered host) found ?_
        intro earlier isEarlier translate earlierTranslate samePort
        exfalso
        rcases apart with rfl | different
        · have packetOwn := queued.own.translated host packet (List.mem_of_getElem? found) translate
          have earlierOwn := queued.own.translated host earlier (List.mem_of_mem_take isEarlier)
            earlierTranslate
          apply pairwise_earlier (queued.apart host) found earlier isEarlier
          rw [← packetOwn, ← earlierOwn, samePort]
        · exact different earlier isEarlier samePort.symm

end Peers

end Hurd.Netmsg
