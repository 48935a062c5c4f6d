import Hurd.Netmsg.RoundTrip

/-!
# Receive rights that have been handed over

When a session sends a receive right to the other end it goes on receiving the messages for it,
and passes them on for the other end to find the port.  A right is handed over by the message that
carries it, and by nothing else.
-/

namespace Hurd.Netmsg

namespace Names

/-- The receive right of one of our own ports has been handed over. -/
def HandedOver (names : Names) (port : Port) : Prop :=
  names.localPortType port = some .receive ∧ names.remotePortsByLocal port = none

variable {names next : Names} {port other word : Port} {type : TypeName}

/-- Only the transmission of the right itself hands it over. -/
theorem HandedOver.of_transmits (transmitted : names.Transmits type other word next)
    (handedOver : next.HandedOver port) :
    names.HandedOver port ∨ (type = .moveReceive ∧ other = port ∧ word = port ∧ ¬port.Nothing) := by
  cases transmitted with
  | nothing => exact .inl handedOver
  | proxySend => exact .inl handedOver
  | ownSend =>
      left
      by_cases same : port = other
      · subst same
        simp [HandedOver, Names.setType] at handedOver
      · simpa [HandedOver, Names.setType, same] using handedOver
  | proxyReceive _ linked =>
      left
      by_cases same : port = other
      · subst same
        simp [HandedOver, Names.setType, linked] at handedOver
      · simpa [HandedOver, Names.setType, same] using handedOver
  | ownReceive something =>
      by_cases same : port = other
      · subst same
        exact .inr ⟨rfl, rfl, rfl, something⟩
      · exact .inl (by simpa [HandedOver, Names.setType, same] using handedOver)

theorem HandedOver.of_translates {fresh rest : List Port}
    (translated : names.Translates fresh type other word next rest)
    (handedOver : next.HandedOver port) : names.HandedOver port := by
  have ofSend : ∀ {target : Port}, (names.setType target .send).HandedOver port →
      names.HandedOver port := by
    intro target handedOver
    by_cases same : port = target
    · subst same
      simp [HandedOver, Names.setType] at handedOver
    · simpa [HandedOver, Names.setType, same] using handedOver
  have ofLink : ∀ {remote newport : Port} {type : LocalType},
      (names.link remote newport type).HandedOver port → names.HandedOver port := by
    intro remote newport type handedOver
    by_cases same : port = newport
    · subst same
      simp [HandedOver, Names.link] at handedOver
    · simpa [HandedOver, Names.link, same] using handedOver
  cases translated with
  | nothing => exact handedOver
  | returnedSend =>
      by_cases same : port = ~~~other
      · subst same
        simp only [HandedOver, Names.touchType, Function.update_self, Option.some.injEq]
          at handedOver
        refine ⟨?_, handedOver.2⟩
        cases typed : names.localPortType (~~~other) with
        | none => simp [typed] at handedOver
        | some known =>
            rw [typed, Option.getD_some] at handedOver
            rw [handedOver.1]
      · simpa [HandedOver, Names.touchType, same] using handedOver
  | returnedReceive => exact ofSend handedOver
  | returnedName => exact handedOver
  | knownReceive => exact ofSend handedOver
  | newReceive => exact ofLink handedOver
  | knownSend => exact handedOver
  | newSend => exact ofLink handedOver
  | sendOnce => exact handedOver
  | name => exact handedOver

theorem HandedOver.of_unlink (handedOver : ((names.eraseType other).unlink other).HandedOver port) :
    names.HandedOver port := by
  by_cases same : port = other
  · subst same
    simp [HandedOver, Names.unlink, Names.eraseType] at handedOver
  · simpa [HandedOver, Names.unlink, Names.eraseType, same] using handedOver

theorem HandedOver.ne_of_unlink
    (handedOver : ((names.eraseType other).unlink other).HandedOver port) : other ≠ port := by
  rintro rfl
  simp [HandedOver, Names.unlink, Names.eraseType] at handedOver

theorem HandedOver.of_unlinkIfLinked
    (handedOver : ((names.eraseType other).unlinkIfLinked other).HandedOver port) :
    names.HandedOver port := by
  rw [Names.unlinkIfLinked] at handedOver
  split_ifs at handedOver
  · exact handedOver.of_unlink
  · by_cases same : port = other
    · subst same
      simp [HandedOver, Names.eraseType] at handedOver
    · simpa [HandedOver, Names.eraseType, same] using handedOver

/-- A proxy without a type is not transmitted. -/
theorem Transmits.untyped (transmitted : names.Transmits type other word next)
    (untyped : names.localPortType port = none ∧ names.remotePortsByLocal port ≠ none) :
    next.localPortType port = none ∧ next.remotePortsByLocal port ≠ none := by
  have ofSetType : ∀ {type : LocalType}, port ≠ other →
      (names.setType other type).localPortType port = none ∧
        (names.setType other type).remotePortsByLocal port ≠ none := by
    intro type different
    simpa [Names.setType, different] using untyped
  cases transmitted with
  | nothing => exact untyped
  | proxySend => exact untyped
  | ownSend _ unlinked =>
      apply ofSetType
      rintro rfl
      exact untyped.2 unlinked
  | proxyReceive _ _ typed =>
      apply ofSetType
      rintro rfl
      rw [untyped.1] at typed
      cases typed
  | ownReceive _ unlinked =>
      apply ofSetType
      rintro rfl
      exact untyped.2 unlinked

end Names

/-- The message carries a receive right under a number that is not in the receiver's name space. -/
def Message.CarriesReceive (message : Message) (port : Port) : Prop :=
  ∃ place element, message.rightAt place element = some (.moveReceive, port)

namespace Session

variable {session next : Session} {message : Message} {port : Port}

theorem handedOver_translateForTransmission {sent : Message} {translatePortNames : Bool}
    (translated : session.translateForTransmission message translatePortNames = some (sent, next))
    (handedOver : next.names.HandedOver port) :
    session.names.HandedOver port ∨ (sent.CarriesReceive port ∧ message.CarriesReceive port ∧
      ¬port.Nothing) := by
  by_contra neither
  rw [not_or] at neither
  rcases Option.bind_eq_some_iff.mp translated with ⟨⟨body, last⟩, traversed, ⟨⟩⟩
  rcases Loop.traverse_flips (fun session => session.names.HandedOver port) neither.1 handedOver
    traversed with ⟨place, item, before, after, replaced, itemFound, itemDone, not, yes, atPlace⟩
  apply neither.2
  unfold transmitItem at itemDone
  split at itemDone
  · -- a send right hands nothing over
    rcases Option.bind_eq_some_iff.mp itemDone with ⟨⟨ports, _⟩, portsDone, ⟨⟩⟩
    rcases Loop.traverse_flips (fun session => session.names.HandedOver port) not yes portsDone with
      ⟨element, other, start, later, word, _, done, notYet, now, _⟩
    rcases now.of_transmits (transmitSend_cases done).1 with already | ⟨isReceive, _⟩
    · exact (notYet already).elim
    · cases isReceive
  · rename_i isReceive
    rcases Option.bind_eq_some_iff.mp itemDone with ⟨⟨ports, _⟩, portsDone, ⟨⟩⟩
    rcases Loop.traverse_flips (fun session => session.names.HandedOver port) not yes portsDone with
      ⟨element, other, start, later, word, portFound, done, notYet, now, atElement⟩
    rcases now.of_transmits (transmitReceive_cases done).1 with already | ⟨_, rfl, rfl, something⟩
    · exact (notYet already).elim
    · refine ⟨⟨place, element, Message.rightAt_eq_some.mpr ⟨_, atPlace, isReceive, ?_⟩⟩,
        ⟨place, element, Message.rightAt_eq_some.mpr ⟨item, itemFound, isReceive, portFound⟩⟩,
        something⟩
      have unchanged : after.transmitName translatePortNames word = word := by
        simp [transmitName, yes.2]
      simp [atElement, unchanged]
  all_goals
    cases itemDone
    exact (not yes).elim

/-- A dead name that is a proxy has no type while its notification is translated. -/
theorem untyped_deadName {relayed written : Message} {routed released translated : Session}
    {translatePortNames : Bool} (isDead : port ≠ machPortNull)
    (isRouted : Routes session message (.relay relayed port routed))
    (isReleased : routed.releaseNoSenders relayed.id message.localPort = some released)
    (isTranslated : released.translateForTransmission relayed translatePortNames =
      some (written, translated)) :
    translated.names.remotePortsByLocal port = none ∨
      translated.names.localPortType port = none := by
  have routedUntyped : routed.names.localPortType port = none := by
    cases isRouted with
    | unknownDeadName _ _ _ _ untyped => exact untyped
    | deadName => simp [Names.eraseType]
    | _ => exact (isDead rfl).elim
  have releasedUntyped : released.names.localPortType port = none := by
    rcases releaseNoSenders_cases isReleased with ⟨_, rfl⟩ | ⟨_, _, rfl⟩
    · exact routedUntyped
    · by_cases isOriginal : port = message.localPort
      · simp [Names.unlink, Names.eraseType, isOriginal]
      · simpa [Names.unlink, Names.eraseType, isOriginal] using routedUntyped
  by_cases linked : released.names.remotePortsByLocal port = none
  · left
    rw [(sameLinks_translateForTransmission isTranslated).1]
    exact linked
  · right
    have kept : translated.names.localPortType port = none ∧
        translated.names.remotePortsByLocal port ≠ none := by
      refine translateForTransmission_invariant
        (fun session => session.names.localPortType port = none ∧
          session.names.remotePortsByLocal port ≠ none) ?_ ?_ ⟨releasedUntyped, linked⟩ isTranslated
      · intro before other word after holds transmitted
        exact (transmitSend_cases transmitted).1.untyped holds
      · intro before other word after holds transmitted
        exact (transmitReceive_cases transmitted).1.untyped holds
    exact kept.1

/--
A right is handed over by the message that carries it, on the network as well; a NO SENDERS
notification for it takes it back.
-/
theorem handedOver_ipcBufferHandler {sent : Option Message}
    (handled : session.ipcBufferHandler message = some (sent, next))
    (handedOver : next.names.HandedOver port) :
    (session.names.HandedOver port ∧ (message.id = msgidNoSenders → message.localPort ≠ port)) ∨
      ∃ wire, sent = some wire ∧ wire.CarriesReceive port ∧ message.CarriesReceive port ∧
        ¬port.Nothing := by
  rcases ipcBufferHandler_cases handled with ⟨isDiscarded, _, rfl⟩ |
    ⟨relayed, deadName, routed, released, written, translated, isRouted, isReleased, isTranslated,
      rfl, rfl⟩
  · cases isDiscarded with
    | discard _ _ _ _ untyped =>
        refine .inl ⟨handedOver, ?_⟩
        rintro _ rfl
        rw [handedOver.1] at untyped
        cases untyped
  · have sameBody : relayed.body = message.body ∧ relayed.id = message.id := by
      cases isRouted <;> exact ⟨rfl, rfl⟩
    have ofRouted : routed.names.HandedOver port → session.names.HandedOver port := by
      intro handedOver
      cases isRouted with
      | deadName =>
          by_cases same : port = deadName
          · subst same
            simp [Names.HandedOver, Names.eraseType] at handedOver
          · simpa [Names.HandedOver, Names.eraseType, same] using handedOver
      | _ => exact handedOver
    have ofReleased : released.names.HandedOver port →
        session.names.HandedOver port ∧
          (message.id = msgidNoSenders → message.localPort ≠ port) := by
      intro handedOver
      rw [← sameBody.2]
      rcases releaseNoSenders_cases isReleased with ⟨isOther, rfl⟩ | ⟨_, _, rfl⟩
      · exact ⟨ofRouted handedOver, fun isNoSenders => (isOther isNoSenders).elim⟩
      · exact ⟨ofRouted handedOver.of_unlink, fun _ => handedOver.ne_of_unlink⟩
    have ofTranslated : translated.names.HandedOver port →
        (session.names.HandedOver port ∧
          (message.id = msgidNoSenders → message.localPort ≠ port)) ∨
        ∃ wire, some written = some wire ∧ wire.CarriesReceive port ∧
          message.CarriesReceive port ∧ ¬port.Nothing := by
      intro handedOver
      rcases handedOver_translateForTransmission isTranslated handedOver with before | carried
      · exact .inl (ofReleased before)
      · refine .inr ⟨written, rfl, carried.1, ?_, carried.2.2⟩
        rcases carried.2.1 with ⟨place, element, right⟩
        rw [Message.rightAt, sameBody.1] at right
        exact ⟨place, element, right⟩
    rw [forgetDeadName] at handedOver
    split_ifs at handedOver with isDead
    · by_cases same : port = deadName
      · subst same
        -- the dead name has no type, so it has not been handed over
        have untyped := untyped_deadName isDead isRouted isReleased isTranslated
        rw [Names.unlinkIfLinked] at handedOver
        split_ifs at handedOver with linked
        · rcases untyped with unlinked | untyped
          · simp [unlinked] at linked
          · simp [Names.HandedOver, Names.unlink, untyped] at handedOver
        · exact ofTranslated handedOver
      · apply ofTranslated
        rw [Names.unlinkIfLinked] at handedOver
        split_ifs at handedOver
        · simpa [Names.HandedOver, Names.unlink, same] using handedOver
        · exact handedOver
    · exact ofTranslated handedOver

/-- No message from the network hands a right over. -/
theorem handedOver_tcpBufferHandler {sent : Option Message}
    (handled : session.tcpBufferHandler message = some (sent, next))
    (handedOver : next.names.HandedOver port) : session.names.HandedOver port := by
  rcases tcpBufferHandler_cases handled with
    ⟨translated, middle, addressed, headed, isTranslated, isHeaded, _, rfl⟩
  have ofMiddle : middle.names.HandedOver port → session.names.HandedOver port := by
    refine translateMessage_invariant
      (fun middle => middle.names.HandedOver port → session.names.HandedOver port) ?_ id
      isTranslated
    intro before other type word after holds translated handedOver
    exact holds (handedOver.of_translates (translatePort2_cases translated).1)
  apply ofMiddle
  have headedOver : headed.names.HandedOver port := handedOver
  cases (translateHeader_cases isHeaded).2 with
  | discard => exact headedOver
  | noSenders _ _ handled =>
      rcases handleNoSenders_cases handled with ⟨_, rfl⟩ | ⟨_, _, _, _, rfl⟩
      · exact headedOver
      · exact headedOver.of_unlinkIfLinked
  | deadName _ _ _ _ handled =>
      rcases handleDeadName_cases handled with ⟨_, rfl⟩ | ⟨_, rfl⟩
      · exact headedOver
      · exact headedOver.of_unlinkIfLinked
  | noReply => exact headedOver
  | reply _ _ _ _ _ translated =>
      exact headedOver.of_translates (translatePort2_cases translated).1

end Session

end Hurd.Netmsg
