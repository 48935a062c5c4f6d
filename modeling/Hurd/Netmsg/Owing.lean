import Hurd.Netmsg.Counted
import Hurd.Netmsg.Discarded

/-!
# The rights that netmsg owes

While a message from the network is handled, rights are made for what it carries.  They are counted
name by name, and leave again when the message is sent by IPC.
-/

namespace Hurd.Netmsg

/-- A right has one of the other types once it has been received. -/
def TypeName.Received (type : TypeName) : Prop :=
  type ≠ .copySend ∧ type ≠ .makeSend ∧ type ≠ .makeSendOnce

/-- Only a send-once right gets a name that stands for one. -/
theorem Names.Translates.sameOnce {names next : Names} {fresh left : List Port} {type : TypeName}
    {port word : Port} (translated : names.Translates fresh type port word next left)
    (notOnce : ¬(type = .moveSendOnce ∨ type = .makeSendOnce)) :
    next.sendOncePortsByLocal = names.sendOncePortsByLocal := by
  cases translated with
  | nothing => rfl
  | returnedSend => rfl
  | returnedReceive => rfl
  | returnedName => rfl
  | knownReceive => rfl
  | newReceive => rfl
  | knownSend => rfl
  | newSend => rfl
  | sendOnce _ _ isOnce => exact absurd isOnce notOnce
  | name => rfl

/-- A name that a send right is made for has a type. -/
theorem Names.Translates.isSet {names next : Names} {fresh left : List Port} {port word : Port}
    (translated : names.Translates fresh .moveSend port word next left) (something : ¬port.Nothing)
    (named : port.flagged = true → names.localPortType (~~~port) ≠ none)
    (notUnset : names.localPortType word ≠ some .unset) : next.localPortType word ≠ some .unset := by
  cases translated with
  | nothing isNothing => exact absurd isNothing something
  | returnedSend _ flagged =>
      rcases Option.ne_none_iff_exists'.mp (named flagged) with ⟨type, isType⟩
      rw [isType] at notUnset
      simpa [Names.touchType, isType] using notUnset
  | knownSend _ _ _ _ typed => simp [typed]
  | newSend => simp [Names.link]
  | sendOnce _ _ isOnce => simp at isOnce

namespace Session

variable {session middle next : Session} {port word : Port} {rights rest : List (TypeName × Port)}

theorem AllOwe.of_perm (owes : session.AllOwe rights) (isPerm : rest.Perm rights) :
    session.AllOwe rest :=
  allOwe_iff.mpr ((allOwe_iff.mp owes).of_perm isPerm)

/-- An element that names no port, or that is neither a send right nor a receive right -/
theorem AllOwe.uncounted {type : TypeName} (owes : session.AllOwe rights)
    (uncounted : word.Nothing ∨ type ≠ .moveSend ∧ type ≠ .moveReceive) :
    session.AllOwe ((type, word) :: rights) :=
  allOwe_iff.mpr ((tallies_cons_iff uncounted).mpr (allOwe_iff.mp owes))

/-- A number that names no port stays as it is. -/
theorem translatePort2_nothing {type : TypeName} (isNothing : port.Nothing)
    (translated : session.translatePort2 port type = some (word, next)) :
    word = port ∧ next = session := by
  have isPort : port = machPortNull ∨ port = machPortDead := isNothing
  unfold translatePort2 at translated
  rw [if_pos isPort] at translated
  cases translated
  exact ⟨rfl, rfl⟩

/-- A send right for a number in our name space names a port that the maps know. -/
def Knows (session : Session) (right : TypeName × Port) : Prop :=
  right.1 = .moveSend → ¬right.2.Nothing → right.2.flagged = true →
    session.names.localPortType (~~~right.2) ≠ none

theorem AllOwe.translateSend (owes : session.AllOwe rights)
    (knows : session.Knows (.moveSend, port))
    (translated : session.translatePort2 port .moveSend = some (word, next)) :
    next.AllOwe ((.moveSend, word) :: rights) := by
  by_cases isNothing : port.Nothing
  · rcases translatePort2_nothing isNothing translated with ⟨rfl, rfl⟩
    exact owes.uncounted (.inl isNothing)
  · rcases translatePort2_cases translated with ⟨names, sameOwn⟩
    rcases account_translatePort2 (.inl rfl) isNothing translated with ⟨account, translates, becomes⟩
    intro other notFirst something
    rw [sameOwn.firstPort] at notFirst
    have owe := owes other notFirst something
    rw [entry_of_becomes becomes (names.sameOnce nofun), count_receive_of_send]
    split_ifs with same
    · subst same
      rw [count_right_self]
      refine owe.translatesSend translates ?_
      have isType : next.names.localPortType other = account.type := by
        have atOther := congrArg Account.type (becomes other)
        rwa [if_pos rfl] at atOther
      rw [← isType]
      exact names.isSet isNothing (knows rfl isNothing) owe.notUnset
    · rw [count_right_of_name rights same]
      exact owe

/-- A receive right comes to a port with a type, or it gets a name that is not in use. -/
theorem known_of_translateReceive (isConsistent : session.names.ConsistentBut machPortNull)
    (something : ¬port.Nothing)
    (translated : session.translatePort2 port .moveReceive = some (word, next)) :
    session.names.localPortType word ≠ none ∨ (session.task.holds word).inUse = false := by
  have isPort : ¬(port = machPortNull ∨ port = machPortDead) := something
  unfold translatePort2 at translated
  rw [if_neg isPort] at translated
  split_ifs at translated with flagged
  · rcases Option.bind_eq_some_iff.mp translated with ⟨_, translated, ⟨⟩⟩
    rcases Option.bind_eq_some_iff.mp translated with ⟨_, typed, _⟩
    simp [of_guard typed]
  · have received : session.translateReceive port = some (word, next) := translated
    unfold Session.translateReceive at received
    split at received
    · rename_i localport known
      rcases Option.bind_eq_some_iff.mp received with ⟨_, _, received⟩
      rcases Option.bind_eq_some_iff.mp received with ⟨_, _, ⟨⟩⟩
      apply Or.inl
      apply isConsistent.consistent.typed
      simp [(isConsistent.inverse port word).mp known]
    · rcases Option.bind_eq_some_iff.mp received with ⟨⟨newport, first⟩, allocated, received⟩
      rcases Option.bind_eq_some_iff.mp received with ⟨⟨old, second⟩, _, received⟩
      rcases Option.bind_eq_some_iff.mp received with ⟨_, _, ⟨⟩⟩
      exact .inr (Task.holds_allocate allocated).1

theorem AllOwe.translateReceive (owes : session.AllOwe rights)
    (isConsistent : session.names.ConsistentBut machPortNull)
    (translated : session.translatePort2 port .moveReceive = some (word, next)) :
    next.AllOwe ((.moveReceive, word) :: rights) := by
  by_cases isNothing : port.Nothing
  · rcases translatePort2_nothing isNothing translated with ⟨rfl, rfl⟩
    exact owes.uncounted (.inl isNothing)
  · have isKnown := known_of_translateReceive isConsistent isNothing translated
    rcases translatePort2_cases translated with ⟨names, sameOwn⟩
    rcases account_translatePort2 (.inr rfl) isNothing translated with ⟨account, translates, becomes⟩
    intro other notFirst something
    rw [sameOwn.firstPort] at notFirst
    have owe := owes other notFirst something
    rw [entry_of_becomes becomes (names.sameOnce nofun), count_send_of_receive]
    split_ifs with same
    · subst same
      rw [count_right_self]
      exact owe.translatesReceive translates isKnown
    · rw [count_right_of_name rights same]
      exact owe

/-- The receive right behind a new send-once right is the only thing that stays. -/
theorem AllOwe.translateSendOnce (owes : session.AllOwe rights)
    (supplied : session.names.Supplied session.task.fresh)
    (translated : session.translateSendOnce port = some (word, next)) : next.AllOwe rights := by
  rcases Option.bind_eq_some_iff.mp translated with ⟨_, _, translated⟩
  rcases Option.bind_eq_some_iff.mp translated with ⟨⟨newport, first⟩, allocated, translated⟩
  rcases Option.bind_eq_some_iff.mp translated with ⟨⟨sendoncePort, second⟩, extracted, ⟨⟩⟩
  rcases Task.holds_allocate allocated with ⟨unused, holdsFirst⟩
  rcases Task.holds_extractSendOnce extracted with ⟨unusedOnce, holdsSecond⟩
  have isFresh : newport ∈ session.task.fresh := by simp [Task.allocate_fresh allocated]
  have different : word ≠ newport := by
    rintro rfl
    rw [holdsFirst, if_pos rfl] at unusedOnce
    cases unusedOnce
  rw [holdsFirst, if_neg different] at unusedOnce
  intro other notFirst something
  have owe := owes other notFirst something
  by_cases isNew : other = newport
  · subst isNew
    rcases owe.of_unused unused with ⟨untyped, noSends, noReceives, -⟩
    refine .unknown untyped noSends noReceives fun _ => ⟨?_, (supplied.2 other isFresh).2.1⟩
    simp [entry, account, holdsSecond, different.symm, holdsFirst]
  · by_cases isOnce : other = word
    · subst isOnce
      rcases owe.of_unused unusedOnce with ⟨untyped, noSends, noReceives, notOnce⟩
      refine .unknown untyped noSends noReceives fun isOnce => ?_
      simp only [entry, Names.linkOnce, Function.update_of_ne isNew] at isOnce
      exact absurd notOnce isOnce
    · have sameEntry : Session.entry { session with names := session.names.linkOnce port newport, task := second } other =
          session.entry other := by
        simp [entry, account, holdsSecond, isOnce, holdsFirst, isNew, Names.linkOnce]
      rw [sameEntry]
      exact owe

theorem Knows.grows {right : TypeName × Port} (knows : session.Knows right)
    (grows : Grows session next) : next.Knows right :=
  fun isSend something flagged => grows.type _ (knows isSend something flagged)

/-- What stays while the numbers of a message from the network are translated -/
structure Owing (session : Session) (rights : List (TypeName × Port)) : Prop where
  owes : session.AllOwe rights
  isConsistent : session.names.ConsistentBut machPortNull
  supplied : session.names.Supplied session.task.fresh

theorem Owing.of_perm (owing : session.Owing rights) (isPerm : rest.Perm rights) :
    session.Owing rest :=
  ⟨owing.owes.of_perm isPerm, owing.isConsistent, owing.supplied⟩

/-- Of the other rights only a send-once right changes anything. -/
theorem translatePort2_other {type : TypeName} (something : ¬port.Nothing)
    (received : type.Received) (notSend : type ≠ .moveSend) (notReceive : type ≠ .moveReceive)
    (translated : session.translatePort2 port type = some (word, next)) :
    next = session ∨ session.translateSendOnce port = some (word, next) := by
  have isPort : ¬(port = machPortNull ∨ port = machPortDead) := something
  unfold translatePort2 at translated
  rw [if_neg isPort] at translated
  split_ifs at translated with flagged
  · rcases Option.bind_eq_some_iff.mp translated with ⟨_, translated, ⟨⟩⟩
    cases type with
    | portName =>
        cases translated
        exact .inl rfl
    | moveSend => exact absurd rfl notSend
    | moveReceive => exact absurd rfl notReceive
    | moveSendOnce => cases translated
    | copySend => cases translated
    | makeSend => cases translated
    | makeSendOnce => cases translated
    | data => cases translated
  · cases type with
    | portName =>
        cases translated
        exact .inl rfl
    | moveSend => exact absurd rfl notSend
    | moveReceive => exact absurd rfl notReceive
    | moveSendOnce => exact .inr translated
    | copySend => exact absurd rfl received.1
    | makeSend => exact absurd rfl received.2.1
    | makeSendOnce => exact absurd rfl received.2.2
    | data => cases translated

theorem Owing.translatePort2 {type : TypeName} (owing : session.Owing rights)
    (knows : session.Knows (type, port)) (received : type.Received)
    (translated : session.translatePort2 port type = some (word, next)) :
    next.Owing ((type, word) :: rights) := by
  rcases owing with ⟨owes, isConsistent, supplied⟩
  rcases isConsistent.translates supplied (translatePort2_cases translated).1 with
    ⟨nextConsistent, nextSupplied⟩
  refine ⟨?_, nextConsistent, nextSupplied⟩
  by_cases isNothing : port.Nothing
  · rcases translatePort2_nothing isNothing translated with ⟨rfl, rfl⟩
    exact owes.uncounted (.inl isNothing)
  · by_cases isSend : type = .moveSend
    · subst isSend
      exact owes.translateSend knows translated
    · by_cases isReceive : type = .moveReceive
      · subst isReceive
        exact owes.translateReceive isConsistent translated
      · apply AllOwe.uncounted _ (.inr ⟨isSend, isReceive⟩)
        rcases translatePort2_other isNothing received isSend isReceive translated with rfl | once
        · exact owes
        · exact owes.translateSendOnce supplied once

/-- The rights of a message are received, and the maps know those in our name space. -/
def AllKnown (session : Session) (rights : List (TypeName × Port)) : Prop :=
  ∀ right ∈ rights, right.1.Received ∧ session.Knows right

theorem AllKnown.grows (allKnown : session.AllKnown rights) (grows : Grows session next) :
    next.AllKnown rights :=
  fun right rightMem => ⟨(allKnown right rightMem).1, (allKnown right rightMem).2.grows grows⟩

theorem Owing.translatePorts {type : TypeName} {ports words : List Port}
    (owing : session.Owing rights) (allKnown : session.AllKnown (ports.map (type, ·)))
    (traversed : Loop.traverse (fun session port => session.translatePort2 port type) session ports =
      some (words, next)) :
    next.Owing (words.map (type, ·) ++ rights) := by
  refine (Loop.traverse_progress
    (fun later done session => session.Owing (done.map (type, ·) ++ rights) ∧
      session.AllKnown (later.map (type, ·))) ?_ ⟨owing, allKnown⟩ traversed).1
  rintro port later done before word after ⟨owing, allKnown⟩ translated
  rcases List.forall_mem_cons.mp allKnown with ⟨isKnown, laterKnown⟩
  refine ⟨?_, AllKnown.grows laterKnown (grows_translatePort2 translated)⟩
  apply (owing.translatePort2 isKnown.2 isKnown.1 translated).of_perm
  simp

theorem Owing.uncounted {type : TypeName} (owing : session.Owing rights)
    (uncounted : word.Nothing ∨ type ≠ .moveSend ∧ type ≠ .moveReceive) :
    session.Owing ((type, word) :: rights) :=
  ⟨owing.owes.uncounted uncounted, owing.isConsistent, owing.supplied⟩

/-- An item that is not translated carries no send or receive right. -/
theorem Owing.unchangedItem {item : Item} (owing : session.Owing rights)
    (notRight : item.name = .data ∨ item.name = .portName) :
    session.Owing (item.rights ++ rights) := by
  have uncounted : item.name ≠ .moveSend ∧ item.name ≠ .moveReceive := by
    rcases notRight with isData | isName
    · rw [isData]
      exact ⟨nofun, nofun⟩
    · rw [isName]
      exact ⟨nofun, nofun⟩
  rw [Item.rights]
  induction item.ports with
  | nil => exact owing
  | cons port rest ih => exact ih.uncounted (.inr uncounted)

theorem grows_refl (session : Session) : Grows session session :=
  ⟨fun _ => id, fun _ => id, fun _ => id, fun _ => le_rfl⟩

theorem Grows.trans (first : Grows session middle) (second : Grows middle next) :
    Grows session next :=
  ⟨fun remote => second.proxy remote ∘ first.proxy remote,
    fun remote => second.once remote ∘ first.once remote,
    fun port => second.type port ∘ first.type port,
    fun port => (first.send port).trans (second.send port)⟩

theorem grows_translateItem {translatePortNames : Bool} {item replaced : Item}
    (translated : translateItem translatePortNames session item = some (replaced, next)) :
    Grows session next := by
  rcases translateItem_cases translated with ⟨_, _, rfl⟩ | ⟨ports, portsDone, _⟩
  · exact grows_refl _
  · refine Loop.traverse_invariant (Grows session) ?_ (grows_refl session) portsDone
    exact fun _ _ {_ _ _} grows done => grows.trans (grows_translatePort2 done)

theorem Owing.translateItem {translatePortNames : Bool} {item replaced : Item}
    (owing : session.Owing rights) (allKnown : session.AllKnown item.rights)
    (translated : translateItem translatePortNames session item = some (replaced, next)) :
    next.Owing (replaced.rights ++ rights) := by
  rcases translateItem_cases translated with ⟨notRight, rfl, rfl⟩ | ⟨ports, portsDone, rfl⟩
  · apply owing.unchangedItem
    rcases notRight with isData | ⟨isName, _⟩
    · exact .inl isData
    · exact .inr isName
  · exact owing.translatePorts allKnown portsDone

theorem Owing.translateMessage {message translated : Message} {translatePortNames : Bool}
    (owing : session.Owing []) (allKnown : session.AllKnown message.rights)
    (isTranslated : session.translateMessage message translatePortNames = some (translated, next)) :
    next.Owing translated.rights := by
  rcases Option.bind_eq_some_iff.mp isTranslated with ⟨⟨body, _⟩, traversed, ⟨⟩⟩
  refine (Loop.traverse_progress
    (fun later done session => session.Owing (done.flatMap Item.rights) ∧
      session.AllKnown (later.flatMap Item.rights)) ?_ ⟨owing, allKnown⟩ traversed).1
  rintro item later done before replaced after ⟨owing, allKnown⟩ itemDone
  rw [List.flatMap_cons, AllKnown, List.forall_mem_append] at allKnown
  refine ⟨?_, AllKnown.grows allKnown.2 (grows_translateItem itemDone)⟩
  apply (owing.translateItem allKnown.1 itemDone).of_perm
  rw [List.flatMap_append, List.flatMap_singleton]
  exact List.perm_append_comm

end Session

end Hurd.Netmsg
