import Hurd.Netmsg.Entries

/-!
# The rights that a message carries

The rights that a message carries are counted name by name: those that have come with a message from
a task and are still to be entered, and those that are to leave with a message from the network.
-/

namespace Hurd.Netmsg

/-- The elements of an item, with the type of the item -/
def Item.rights (item : Item) : List (TypeName × Port) := item.ports.map (item.name, ·)

/-- The elements of a message body, with the types of their items -/
def Message.rights (message : Message) : List (TypeName × Port) := message.body.flatMap Item.rights

/-- The rights of a message, that of its reply port included -/
def Message.carried (message : Message) : List (TypeName × Port) :=
  match message.remoteType with
  | none => message.rights
  | some type => (type, message.remotePort) :: message.rights

section Counts

variable {type other : TypeName} {port name : Port} (rest : List (TypeName × Port))

theorem count_right_self :
    List.count (type, port) ((type, port) :: rest) = rest.count (type, port) + 1 :=
  List.count_cons_self

theorem count_right_of_name (different : name ≠ port) :
    List.count (other, name) ((type, port) :: rest) = rest.count (other, name) := by
  apply List.count_cons_of_ne
  rintro ⟨⟩
  exact different rfl

theorem count_right_of_type (different : other ≠ type) :
    List.count (other, name) ((type, port) :: rest) = rest.count (other, name) := by
  apply List.count_cons_of_ne
  rintro ⟨⟩
  exact different rfl

theorem count_receive_of_send :
    List.count (TypeName.moveReceive, name) ((.moveSend, port) :: rest) =
      rest.count (.moveReceive, name) :=
  count_right_of_type rest (by decide)

theorem count_send_of_receive :
    List.count (TypeName.moveSend, name) ((.moveReceive, port) :: rest) =
      rest.count (.moveSend, name) :=
  count_right_of_type rest (by decide)

end Counts

/-- What is asked of a name, of what the task holds under it, and of the number of rights for it -/
abbrev Judgement := Port → Holding → ℕ → ℕ → Prop

/-- Of every name is asked what the send and receive rights of a list for it call for. -/
def Tallies (asks : Judgement) (task : Task) (rights : List (TypeName × Port)) : Prop :=
  ∀ port, ¬port.Nothing →
    asks port (task.holds port) (rights.count (.moveSend, port)) (rights.count (.moveReceive, port))

/-- A right that leaves takes along what was asked for it. -/
structure Judgement.Leaves (asks : Judgement) : Prop where
  send : ∀ {port : Port} {holding : Holding} {sends receives : ℕ},
    asks port holding (sends + 1) receives → asks port holding.dropSend sends receives
  receive : ∀ {port : Port} {holding : Holding} {sends receives : ℕ},
    asks port holding sends (receives + 1) → asks port holding.giveReceive sends receives
  once : ∀ {port : Port} {holding : Holding} {sends receives : ℕ},
    asks port holding sends receives → asks port holding.giveSendOnce sends receives

section Tallies

variable {asks : Judgement} {task : Task} {type : TypeName} {port : Port}
  {rights rest : List (TypeName × Port)}

/-- Nothing but the counts matters. -/
theorem Tallies.of_counts (tallies : Tallies asks task rights)
    (sameSends : ∀ port, ¬port.Nothing →
      rest.count (.moveSend, port) = rights.count (.moveSend, port))
    (sameReceives : ∀ port, ¬port.Nothing →
      rest.count (.moveReceive, port) = rights.count (.moveReceive, port)) :
    Tallies asks task rest := by
  intro port something
  rw [sameSends port something, sameReceives port something]
  exact tallies port something

theorem Tallies.of_perm (tallies : Tallies asks task rights) (isPerm : rest.Perm rights) :
    Tallies asks task rest :=
  tallies.of_counts (fun _ _ => isPerm.count_eq _) (fun _ _ => isPerm.count_eq _)

/-- An element that names no port, or is neither a send right nor a receive right, does not count. -/
theorem tallies_cons_iff (uncounted : port.Nothing ∨ type ≠ .moveSend ∧ type ≠ .moveReceive) :
    Tallies asks task ((type, port) :: rest) ↔ Tallies asks task rest := by
  have noCount : ∀ {counted : TypeName} (other : Port),
      counted = .moveSend ∨ counted = .moveReceive → ¬other.Nothing →
        List.count (counted, other) ((type, port) :: rest) = rest.count (counted, other) := by
    intro counted other isCounted something
    rcases uncounted with isNothing | ⟨notSend, notReceive⟩
    · apply count_right_of_name
      rintro rfl
      exact something isNothing
    · apply count_right_of_type
      rcases isCounted with rfl | rfl
      · exact notSend.symm
      · exact notReceive.symm
  constructor
  · exact fun tallies => tallies.of_counts
      (fun port something => (noCount port (.inl rfl) something).symm)
      (fun port something => (noCount port (.inr rfl) something).symm)
  · exact fun tallies => tallies.of_counts (fun port => noCount port (.inl rfl))
      (fun port => noCount port (.inr rfl))

/-- What the task holds changes under one name only. -/
theorem Tallies.of_holds {next : Task} {change : Holding → Holding}
    (tallies : Tallies asks task rights)
    (holds : ∀ other, next.holds other =
      if other = port then change (task.holds port) else task.holds other)
    (kept : ¬port.Nothing → asks port (change (task.holds port)) (rest.count (.moveSend, port))
      (rest.count (.moveReceive, port)))
    (same : ∀ type other, other ≠ port → rest.count (type, other) = rights.count (type, other)) :
    Tallies asks next rest := by
  intro other something
  rw [holds]
  split_ifs with isPort
  · subst isPort
    exact kept something
  · rw [same _ other isPort, same _ other isPort]
    exact tallies other something

theorem Tallies.giveAway (leaves : asks.Leaves)
    (tallies : Tallies asks task ((type, port) :: rest)) :
    Tallies asks (task.giveAway type port) rest := by
  have sameCounts : ∀ (counted : TypeName) (other : Port), other ≠ port →
      rest.count (counted, other) = List.count (counted, other) ((type, port) :: rest) :=
    fun counted other different => (count_right_of_name rest different).symm
  have unchanged : type ≠ .moveSend → type ≠ .moveReceive → Tallies asks task rest :=
    fun notSend notReceive => (tallies_cons_iff (.inr ⟨notSend, notReceive⟩)).mp tallies
  cases type with
  | moveSend =>
      have holds := task.holds_dropSend port
      refine tallies.of_holds holds (fun something => leaves.send ?_) sameCounts
      have before := tallies port something
      rwa [count_right_self, count_receive_of_send] at before
  | moveReceive =>
      have holds := fun other => task.holds_modify port other Holding.giveReceive
      refine tallies.of_holds holds (fun something => leaves.receive ?_) sameCounts
      have before := tallies port something
      rwa [count_right_self, count_send_of_receive] at before
  | moveSendOnce =>
      have holds := fun other => task.holds_modify port other Holding.giveSendOnce
      have same := unchanged nofun nofun
      exact same.of_holds holds (fun something => leaves.once (same port something))
        fun _ _ _ => rfl
  | copySend => exact unchanged nofun nofun
  | makeSend => exact unchanged nofun nofun
  | makeSendOnce => exact unchanged nofun nofun
  | portName => exact unchanged nofun nofun
  | data => exact unchanged nofun nofun

theorem Tallies.giveAwayAll (leaves : asks.Leaves) (tallies : Tallies asks task rights) :
    Tallies asks (rights.foldl (fun task right => task.giveAway right.1 right.2) task) [] := by
  induction rights generalizing task with
  | nil => exact tallies
  | cons right rest ih => exact ih (tallies.giveAway leaves)

end Tallies

namespace Session

def entry (session : Session) (port : Port) : Entry :=
  { session.account port with once := session.names.sendOncePortsByLocal port }

/-- The rights have come to the names, and are still to be entered. -/
def AllAwait (session : Session) (rights : List (TypeName × Port)) : Prop :=
  ∀ port, port ≠ session.firstPort → ¬port.Nothing →
    (session.entry port).Awaits (rights.count (.moveSend, port)) (rights.count (.moveReceive, port))

/-- The rights have been made, and are to leave. -/
def AllOwe (session : Session) (rights : List (TypeName × Port)) : Prop :=
  ∀ port, port ≠ session.firstPort → ¬port.Nothing →
    (session.entry port).Owes (rights.count (.moveSend, port)) (rights.count (.moveReceive, port))

/-- What rights that have come to a name, and are still to be entered, call for -/
def awaited (session : Session) : Judgement := fun port holding sends receives =>
  port ≠ session.firstPort →
    Entry.Awaits { session.entry port with holding := holding } sends receives

/-- What rights that are to leave under a name call for -/
def owed (session : Session) : Judgement := fun port holding sends receives =>
  port ≠ session.firstPort →
    Entry.Owes { session.entry port with holding := holding } sends receives

variable {session middle next : Session} {port word : Port} {rights rest : List (TypeName × Port)}

theorem allAwait_iff : session.AllAwait rights ↔ Tallies session.awaited session.task rights :=
  forall_congr' fun _ => imp.swap

theorem allOwe_iff {task : Task} :
    Session.AllOwe { session with task := task } rights ↔ Tallies session.owed task rights :=
  forall_congr' fun _ => imp.swap

theorem entry_of_becomes {name : Port} {account : Account}
    (becomes : Becomes session name account next)
    (sameOnce : next.names.sendOncePortsByLocal = session.names.sendOncePortsByLocal) (other : Port) :
    next.entry other =
      if other = name then { account with once := (session.entry name).once }
      else session.entry other := by
  unfold entry
  rw [becomes other, sameOnce]
  split_ifs with same
  · rw [same]
  · rfl

/-- An element that names no port, or that is neither a send right nor a receive right -/
theorem AllAwait.skip {type : TypeName} (awaits : session.AllAwait ((type, port) :: rest))
    (uncounted : port.Nothing ∨ type ≠ .moveSend ∧ type ≠ .moveReceive) : session.AllAwait rest :=
  allAwait_iff.mpr ((tallies_cons_iff uncounted).mp (allAwait_iff.mp awaits))

theorem AllAwait.transmitSend (awaits : session.AllAwait ((.moveSend, port) :: rest))
    (transmitted : session.transmitSend port = some (word, next)) : next.AllAwait rest := by
  rcases transmitSend_cases transmitted with ⟨names, sameOwn⟩
  by_cases isNothing : port.Nothing
  · have isPort : port = machPortNull ∨ port = machPortDead := isNothing
    rw [Session.transmitSend, if_pos isPort] at transmitted
    cases transmitted
    exact awaits.skip (.inl isNothing)
  · rcases account_transmitSend isNothing transmitted with ⟨account, transmits, becomes⟩
    intro other notFirst something
    have await := awaits other (sameOwn.firstPort ▸ notFirst) something
    rw [entry_of_becomes becomes names.sameOnce.2]
    rw [count_receive_of_send] at await
    split_ifs with same
    · subst same
      rw [count_right_self] at await
      exact await.transmitsSend transmits
    · rw [count_right_of_name rest same] at await
      exact await

theorem AllAwait.transmitReceive (awaits : session.AllAwait ((.moveReceive, port) :: rest))
    (transmitted : session.transmitReceive port = some (word, next)) : next.AllAwait rest := by
  rcases transmitReceive_cases transmitted with ⟨names, sameOwn⟩
  by_cases isNothing : port.Nothing
  · have isPort : port = machPortNull ∨ port = machPortDead := isNothing
    rw [Session.transmitReceive, if_pos isPort] at transmitted
    cases transmitted
    exact awaits.skip (.inl isNothing)
  · rcases account_transmitReceive isNothing transmitted with ⟨account, transmits, becomes⟩
    intro other notFirst something
    have await := awaits other (sameOwn.firstPort ▸ notFirst) something
    rw [entry_of_becomes becomes names.sameOnce.2]
    rw [count_send_of_receive] at await
    split_ifs with same
    · subst same
      rw [count_right_self] at await
      exact await.transmitsReceive transmits
    · rw [count_right_of_name rest same] at await
      exact await

/-- The elements of an item that does not carry send or receive rights do not count. -/
theorem AllAwait.of_item {item : Item} (awaits : session.AllAwait (item.rights ++ rest))
    (notSend : item.name ≠ .moveSend) (notReceive : item.name ≠ .moveReceive) :
    session.AllAwait rest := by
  rw [Item.rights] at awaits
  generalize item.ports = ports at awaits
  induction ports with
  | nil => exact awaits
  | cons port later ih => exact ih (awaits.skip (.inr ⟨notSend, notReceive⟩))

theorem AllAwait.transmitItem {translatePortNames : Bool} {item sent : Item}
    (awaits : session.AllAwait (item.rights ++ rest))
    (transmitted : transmitItem translatePortNames session item = some (sent, next)) :
    next.AllAwait rest := by
  rcases item with ⟨name, ports⟩
  unfold Session.transmitItem at transmitted
  dsimp only at transmitted
  cases name with
  | moveSend =>
      rcases Option.bind_eq_some_iff.mp transmitted with ⟨⟨words, _⟩, traversed, ⟨⟩⟩
      exact Loop.traverse_progress
        (fun later (_ : List Port) session => session.AllAwait (later.map (.moveSend, ·) ++ rest))
        (fun awaits done => AllAwait.transmitSend awaits done) awaits traversed
  | moveReceive =>
      rcases Option.bind_eq_some_iff.mp transmitted with ⟨⟨words, _⟩, traversed, ⟨⟩⟩
      exact Loop.traverse_progress
        (fun later (_ : List Port) session => session.AllAwait (later.map (.moveReceive, ·) ++ rest))
        (fun awaits done => AllAwait.transmitReceive awaits done) awaits traversed
  | moveSendOnce =>
      cases transmitted
      exact awaits.of_item nofun nofun
  | copySend =>
      cases transmitted
      exact awaits.of_item nofun nofun
  | makeSend =>
      cases transmitted
      exact awaits.of_item nofun nofun
  | makeSendOnce =>
      cases transmitted
      exact awaits.of_item nofun nofun
  | portName =>
      cases transmitted
      exact awaits.of_item nofun nofun
  | data =>
      cases transmitted
      exact awaits.of_item nofun nofun

theorem AllAwait.translateForTransmission {message sent : Message} {translatePortNames : Bool}
    (awaits : session.AllAwait message.rights)
    (translated : session.translateForTransmission message translatePortNames = some (sent, next)) :
    next.AllAwait [] := by
  rcases Option.bind_eq_some_iff.mp translated with ⟨⟨body, _⟩, traversed, ⟨⟩⟩
  exact Loop.traverse_progress
    (fun later (_ : List Item) session => session.AllAwait (later.flatMap Item.rights))
    (fun awaits done => AllAwait.transmitItem awaits done) awaits traversed

/-- The maps have forgotten a port, and know the others as before. -/
structure Forgets (session : Session) (port : Port) (next : Session) : Prop where
  firstPort : next.firstPort = session.firstPort
  untyped : next.names.localPortType port = none
  sameOnce : next.names.sendOncePortsByLocal = session.names.sendOncePortsByLocal
  others : ∀ other, other ≠ port → next.account other = session.account other

theorem Forgets.entry (forgets : session.Forgets port next) {other : Port} (different : other ≠ port) :
    next.entry other = session.entry other := by
  rw [Session.entry, Session.entry, forgets.others other different, forgets.sameOnce]

theorem forgets_unlinkIfLinked {task : Task}
    (same : ∀ other, other ≠ port → task.holds other = session.task.holds other) :
    session.Forgets port
      { session with
        names := (session.names.eraseType port).unlinkIfLinked port
        task := task } := by
  have isUntyped : ((session.names.eraseType port).unlinkIfLinked port).localPortType port = none := by
    rw [Names.unlinkIfLinked]
    split_ifs <;> simp [Names.unlink, Names.eraseType]
  refine ⟨rfl, isUntyped, ?_, fun other different => ?_⟩
  · rw [Names.unlinkIfLinked]
    split_ifs <;> rfl
  · dsimp only [Session.account]
    rw [same other different, Names.unlinkIfLinked]
    split_ifs <;> simp [Names.unlink, Names.eraseType, different]

theorem forgets_unlink {task : Task}
    (same : ∀ other, other ≠ port → task.holds other = session.task.holds other) :
    session.Forgets port
      { session with names := (session.names.eraseType port).unlink port, task := task } := by
  refine ⟨rfl, by simp [Names.unlink, Names.eraseType], rfl, fun other different => ?_⟩
  simp [Session.account, same other different, Names.unlink, Names.eraseType, different]

/-- A port with a type stands for no send-once right. -/
theorem AllAwait.notOnce (awaits : session.AllAwait rights) (notFirst : port ≠ session.firstPort)
    (something : ¬port.Nothing) (typed : session.names.localPortType port ≠ none) :
    session.names.sendOncePortsByLocal port = none := by
  cases awaits port notFirst something with
  | own untyped => exact absurd untyped typed
  | settled owes =>
      cases owes with
      | known _ notOnce => exact notOnce
      | unknown untyped => exact absurd untyped typed

theorem AllAwait.forgets (awaits : session.AllAwait rights) (forgets : session.Forgets port next)
    (typed : session.names.localPortType port ≠ none)
    (noRights : port ≠ session.firstPort → ¬port.Nothing →
      rights.count (.moveSend, port) = 0 ∧ rights.count (.moveReceive, port) = 0) :
    next.AllAwait rights := by
  intro other notFirst something
  rw [forgets.firstPort] at notFirst
  by_cases same : other = port
  · subst same
    rcases noRights notFirst something with ⟨noSends, noReceives⟩
    have notOnce := awaits.notOnce notFirst something typed
    refine .settled (.unknown forgets.untyped noSends noReceives fun isOnce => ?_) fun _ =>
      ⟨noSends, noReceives⟩
    have isOnceBefore : session.names.sendOncePortsByLocal other ≠ none := forgets.sameOnce ▸ isOnce
    exact absurd notOnce isOnceBefore
  · rw [forgets.entry same]
    exact awaits other notFirst something

theorem AllOwe.forgets (owes : session.AllOwe []) (forgets : session.Forgets port next)
    (once : port ≠ session.firstPort → ¬port.Nothing → session.names.sendOncePortsByLocal port ≠ none →
      (next.task.holds port).receive = true ∧ next.names.remotePortsByLocal port = none) :
    next.AllOwe [] := by
  intro other notFirst something
  rw [forgets.firstPort] at notFirst
  by_cases same : other = port
  · subst same
    exact .unknown forgets.untyped rfl rfl fun isOnce =>
      once notFirst something (forgets.sameOnce ▸ isOnce)
  · rw [forgets.entry same]
    exact owes other notFirst something

theorem AllOwe.notOnce (owes : session.AllOwe rights) (notFirst : port ≠ session.firstPort)
    (something : ¬port.Nothing) (typed : session.names.localPortType port ≠ none) :
    session.names.sendOncePortsByLocal port = none := by
  cases owes port notFirst something with
  | known _ notOnce => exact notOnce
  | unknown untyped => exact absurd untyped typed

/-- Of a port without a type, other rights may go. -/
theorem AllOwe.of_untyped {change : Holding → Holding} {task : Task}
    (owes : session.AllOwe rights) (untyped : session.names.localPortType port = none)
    (holds : ∀ other, task.holds other =
      if other = port then change (session.task.holds port) else session.task.holds other)
    (stillHeld : ∀ holding : Holding, holding.receive = true → (change holding).receive = true) :
    Session.AllOwe { session with task := task } rights := by
  refine allOwe_iff.mpr ((allOwe_iff.mp owes).of_holds holds (fun something notFirst => ?_)
    fun _ _ _ => rfl)
  exact (owes port notFirst something).of_untyped untyped (stillHeld _)

end Session

section Arrival

variable {holding middle next : Holding} {sends receives : ℕ}

theorem Holding.Arrived.trans {moreSends moreReceives : ℕ} (first : holding.Arrived sends receives middle)
    (second : middle.Arrived moreSends moreReceives next) :
    holding.Arrived (sends + moreSends) (receives + moreReceives) next where
  send := by rw [second.send, first.send, Nat.add_assoc]
  receive := by
    have either : 0 < receives + moreReceives ↔ 0 < receives ∨ 0 < moreReceives := by omega
    simp only [second.receive, first.receive, Bool.or_assoc, either, Bool.decide_or]
  deadNameRequest := second.deadNameRequest.trans first.deadNameRequest
  noSendersRequest := second.noSendersRequest.trans first.noSendersRequest

theorem Holding.Arrived.refl (holding : Holding) : holding.Arrived 0 0 holding :=
  ⟨rfl, by simp, rfl, rfl⟩

theorem holds_take_of_ne (task : Task) (type : TypeName) {name port : Port} (different : port ≠ name) :
    (task.take type name).holds port = task.holds port := by
  unfold Task.take
  split_ifs
  · rfl
  · cases type with
    | moveSend => rw [Task.holds_modify, if_neg different]
    | moveReceive => rw [Task.holds_modify, if_neg different]
    | moveSendOnce => rw [Task.holds_modify, if_neg different]
    | copySend => rfl
    | makeSend => rfl
    | makeSendOnce => rfl
    | portName => rfl
    | data => rfl

/-- The kernel puts a right that arrives under its name. -/
theorem arrived_take (task : Task) (right : TypeName × Port) {port : Port} (something : ¬port.Nothing) :
    (task.holds port).Arrived ([right].count (.moveSend, port)) ([right].count (.moveReceive, port))
      ((task.take right.1 right.2).holds port) := by
  rcases right with ⟨type, name⟩
  by_cases same : port = name
  · subst same
    have isPort : ¬(port = machPortNull ∨ port = machPortDead) := something
    unfold Task.take
    rw [if_neg isPort]
    cases type with
    | moveSend => constructor <;> simp [Task.holds_modify]
    | moveReceive => constructor <;> simp [Task.holds_modify]
    | moveSendOnce => constructor <;> simp [Task.holds_modify]
    | copySend => exact .refl _
    | makeSend => exact .refl _
    | makeSendOnce => exact .refl _
    | portName => exact .refl _
    | data => exact .refl _
  · rw [holds_take_of_ne task type same, count_right_of_name [] same, count_right_of_name [] same]
    exact .refl _

theorem arrived_takeAll (task : Task) (rights : List (TypeName × Port)) {port : Port}
    (something : ¬port.Nothing) :
    (task.holds port).Arrived (rights.count (.moveSend, port)) (rights.count (.moveReceive, port))
      ((rights.foldl (fun task right => task.take right.1 right.2) task).holds port) := by
  induction rights generalizing task with
  | nil => exact .refl _
  | cons right rest ih =>
      have counts : ∀ type : TypeName, List.count (type, port) (right :: rest) =
          [right].count (type, port) + rest.count (type, port) := by
        intro type
        rw [← List.count_append, List.singleton_append]
      rw [counts, counts]
      exact (arrived_take task right something).trans (ih _)

/-- The rights of a message arrive one by one. -/
theorem receive_eq_foldl (task : Task) (message : Message) :
    task.receive message =
      message.carried.foldl (fun task right => task.take right.1 right.2) task := by
  rw [Task.receive, Message.carried]
  cases message.remoteType with
  | none => simp [Task.takeBody, Message.rights, Item.rights, List.foldl_flatMap, List.foldl_map]
  | some type => simp [Task.takeBody, Message.rights, Item.rights, List.foldl_flatMap, List.foldl_map]

end Arrival

end Hurd.Netmsg
