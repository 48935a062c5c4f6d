import Hurd.Netmsg.Entering
import Hurd.Netmsg.Leaving
import Hurd.Netmsg.RoundTrip

/-!
# What the other side relies on

A proxy that the other side sends to relies on the right that it stands for, and so does a send
right on its way there.  Our side has to keep the right then, or the news that the port is dead must
be on its way.  Where the other side has the receive right of a port instead, the news that the port
has no senders will do.
-/

namespace Hurd.Netmsg

/-- The number can be that of a port of our own on the network. -/
structure Port.IsName (port : Port) : Prop where
  unflagged : port.flagged = false
  notNull : port ≠ machPortNull

theorem Port.IsName.something {port : Port} (isName : port.IsName) : ¬port.Nothing :=
  port.something_of_not_flagged isName.unflagged isName.notNull

namespace Message

/-- A DEAD NAME notification on the network for a port of the sender's own -/
structure DeadNameFor (wire : Message) (port : Port) : Prop where
  toControl : wire.localPort = machPortControl
  isDeadName : wire.id = msgidDeadName
  named : wire.body = [⟨.portName, [port]⟩]
  noReply : wire.remoteType = none

/-- A NO SENDERS notification on the network for a port of the sender's own -/
structure NoSendersFor (wire : Message) (port : Port) : Prop where
  translates : wire.remoteTranslate = true
  addressed : wire.localPort = port
  isNoSenders : wire.id = msgidNoSenders

/-- Rights have the types that they are received with, and notifications carry none. -/
structure Regular (wire : Message) : Prop where
  received : ∀ right ∈ wire.carried, right.1.Received
  ofNoSenders : wire.id = msgidNoSenders → wire.carried = []
  ofDeadName : wire.id = msgidDeadName → ∃ port, wire.DeadNameFor port

end Message

namespace Names

/-- A port of our own that has a type -/
structure Retains (names : Names) (port : Port) : Prop where
  typed : names.localPortType port ≠ none
  unlinked : names.remotePortsByLocal port = none

/-- A proxy or a right underway is used to send to the port. -/
def ReliesOn (holder : Names) (underway : List (TypeName × Port)) (port : Port) : Prop :=
  (∃ proxy, holder.localPortsByRemote port = some proxy ∧
    holder.localPortType proxy = some .receive) ∨ (.moveSend, port) ∈ underway

/-- The port is retained, or the news that it is dead is on its way. -/
def Stands (owner : Names) (stream : List Message) (port : Port) : Prop :=
  owner.Retains port ∨ ∃ wire ∈ stream, wire.DeadNameFor port

/-- The port stands, or the news that it has no senders is on its way. -/
def Lends (owner : Names) (stream : List Message) (port : Port) : Prop :=
  owner.Stands stream port ∨ ∃ wire ∈ stream, wire.NoSendersFor port

/-- Every right on its way is followed by the news of what becomes of its port. -/
def Secures (owner : Names) (port : Port) : List Message → Prop
  | [] => True
  | wire :: rest =>
      ((.moveSend, port) ∈ wire.carried → owner.Stands rest port) ∧
        ((.moveReceive, port) ∈ wire.carried → owner.Lends rest port) ∧ Secures owner port rest

/-- What a proxy of a type requires of the owner of the port -/
def Honors (owner : Names) (stream : List Message) (port : Port) : LocalType → Prop
  | .unset => True
  | .receive => owner.Stands stream port
  | .send => owner.Lends stream port

/-- What a proxy for the port requires, if there is one -/
def Honored (owner : Names) (stream : List Message) (holder : Names) (port : Port) : Prop :=
  ∀ proxy type, holder.localPortsByRemote port = some proxy →
    holder.localPortType proxy = some type → owner.Honors stream port type

/-- What a proxy and the rights on their way require -/
structure Guards (owner : Names) (stream : List Message) (holder : Names) (port : Port) : Prop where
  honored : owner.Honored stream holder port
  secures : owner.Secures port stream

/-- What the second maps have of the proxies and the types, the first have too. -/
structure Shrinks (names next : Names) : Prop where
  link : ∀ {remote proxy}, next.localPortsByRemote remote = some proxy →
    names.localPortsByRemote remote = some proxy
  type : ∀ {port type}, next.localPortType port = some type → names.localPortType port = some type

variable {owner next holder : Names} {stream rest more : List Message} {wire : Message}
  {port proxy word element : Port} {type : LocalType} {right : TypeName}

theorem Stands.of_retains (retains : owner.Retains port → next.Retains port)
    (stands : owner.Stands stream port) : next.Stands (stream ++ more) port := by
  rcases stands with isRetained | ⟨wire, isIn, isDead⟩
  · exact .inl (retains isRetained)
  · exact .inr ⟨wire, List.mem_append_left _ isIn, isDead⟩

theorem Lends.of_retains (retains : owner.Retains port → next.Retains port)
    (lends : owner.Lends stream port) : next.Lends (stream ++ more) port := by
  rcases lends with stands | ⟨wire, isIn, isNoSenders⟩
  · exact .inl (stands.of_retains retains)
  · exact .inr ⟨wire, List.mem_append_left _ isIn, isNoSenders⟩

/-- What the owner puts on the stream secures the rights that are on it. -/
theorem Secures.append (secures : owner.Secures port stream)
    (stands : ∀ wire ∈ stream, (.moveSend, port) ∈ wire.carried → ∀ rest,
      owner.Stands rest port → next.Stands (rest ++ more) port)
    (lends : ∀ rest, owner.Lends rest port → next.Lends (rest ++ more) port)
    (atEnd : next.Secures port more) : next.Secures port (stream ++ more) := by
  induction stream with
  | nil => exact atEnd
  | cons wire rest ih =>
      rcases secures with ⟨forSend, forReceive, restSecure⟩
      refine ⟨?_, fun isReceive => lends rest (forReceive isReceive), ih restSecure ?_⟩
      · exact fun isSend => stands wire List.mem_cons_self isSend rest (forSend isSend)
      · exact fun other isIn => stands other (List.mem_cons_of_mem _ isIn)

/-- What the owner does and puts on the stream leaves the port standing. -/
theorem Guards.owner_step (guards : Guards owner stream holder port)
    (stands : holder.ReliesOn (stream.flatMap Message.carried) port → ∀ rest,
      owner.Stands rest port → next.Stands (rest ++ more) port)
    (lends : ∀ rest, owner.Lends rest port → next.Lends (rest ++ more) port)
    (atEnd : next.Secures port more) : Guards next (stream ++ more) holder port where
  honored proxy type known typed := by
    have honors := guards.honored proxy type known typed
    cases type with
    | unset => trivial
    | receive => exact stands (.inl ⟨proxy, known, typed⟩) stream honors
    | send => exact lends stream honors
  secures := by
    refine guards.secures.append (fun wire isIn isSend => ?_) lends atEnd
    exact stands (.inr (List.mem_flatMap.mpr ⟨wire, isIn, isSend⟩))

/-- The owner keeps the port. -/
theorem Guards.of_retains (guards : Guards owner stream holder port)
    (retains : owner.Retains port → next.Retains port) (atEnd : next.Secures port more) :
    Guards next (stream ++ more) holder port :=
  guards.owner_step (fun _ _ stands => stands.of_retains retains)
    (fun _ lends => lends.of_retains retains) atEnd

/-- The owner says that the port is dead. -/
theorem Guards.of_deadName (guards : Guards owner stream holder port)
    (isDead : wire.DeadNameFor port) (atEnd : next.Secures port [wire]) :
    Guards next (stream ++ [wire]) holder port := by
  have stands : ∀ rest, next.Stands (rest ++ [wire]) port :=
    fun rest => .inr ⟨wire, List.mem_append_right _ List.mem_cons_self, isDead⟩
  exact guards.owner_step (fun _ rest _ => stands rest) (fun rest _ => .inl (stands rest)) atEnd

/-- The owner says that the port has no senders, and nothing is used to send to it. -/
theorem Guards.of_noSenders (guards : Guards owner stream holder port)
    (isNoSenders : wire.NoSendersFor port)
    (unused : ¬holder.ReliesOn (stream.flatMap Message.carried) port)
    (atEnd : next.Secures port [wire]) : Guards next (stream ++ [wire]) holder port := by
  refine guards.owner_step (fun relies => absurd relies unused) (fun rest _ => ?_) atEnd
  exact .inr ⟨wire, List.mem_append_right _ List.mem_cons_self, isNoSenders⟩

/-- The owner may do what it likes with a port that is not used. -/
theorem Guards.of_unused (unknown : holder.localPortsByRemote port = none)
    (notSent : ∀ wire ∈ stream, (.moveSend, port) ∉ wire.carried ∧
      (.moveReceive, port) ∉ wire.carried) : Guards owner stream holder port where
  honored proxy type known _ := by cases unknown.symm.trans known
  secures := by
    induction stream with
    | nil => trivial
    | cons wire rest ih =>
        rcases List.forall_mem_cons.mp notSent with ⟨⟨notSend, notReceive⟩, restNotSent⟩
        exact ⟨fun isIn => absurd isIn notSend, fun isIn => absurd isIn notReceive, ih restNotSent⟩

/-- What the other side relies on stands. -/
theorem Guards.of_relies (guards : Guards owner stream holder port)
    (relies : holder.ReliesOn (stream.flatMap Message.carried) port) :
    owner.Stands stream port := by
  rcases relies with ⟨proxy, known, typed⟩ | underway
  · exact guards.honored proxy .receive known typed
  · rcases List.mem_flatMap.mp underway with ⟨wire, isIn, isSend⟩
    have secures := guards.secures
    clear guards
    induction stream with
    | nil => cases isIn
    | cons first rest ih =>
        have later : owner.Stands rest port → owner.Stands (first :: rest) port := by
          rintro (isRetained | ⟨wire, isIn, isDead⟩)
          · exact .inl isRetained
          · exact .inr ⟨wire, List.mem_cons_of_mem _ isIn, isDead⟩
        rcases secures with ⟨forSend, -, restSecure⟩
        rcases List.mem_cons.mp isIn with rfl | isIn
        · exact later (forSend isSend)
        · exact later (ih (List.mem_flatMap.mpr ⟨wire, isIn, isSend⟩) isIn restSecure)

/-- The notifications for the port come later than the first message. -/
theorem Guards.skip (guards : Guards owner (wire :: rest) holder port)
    (notDead : ¬wire.DeadNameFor port) (notNoSenders : ¬wire.NoSendersFor port) :
    owner.Honored rest holder port := by
  have stands : owner.Stands (wire :: rest) port → owner.Stands rest port := by
    rintro (isRetained | ⟨other, isIn, isDead⟩)
    · exact .inl isRetained
    · rcases List.mem_cons.mp isIn with rfl | isIn
      · exact absurd isDead notDead
      · exact .inr ⟨other, isIn, isDead⟩
  intro proxy type known typed
  have honors := guards.honored proxy type known typed
  cases type with
  | unset => trivial
  | receive => exact stands honors
  | send =>
      rcases honors with isStanding | ⟨other, isIn, isNoSenders⟩
      · exact .inl (stands isStanding)
      · rcases List.mem_cons.mp isIn with rfl | isIn
        · exact absurd isNoSenders notNoSenders
        · exact .inr ⟨other, isIn, isNoSenders⟩

theorem Shrinks.trans {middle last : Names} (first : next.Shrinks middle)
    (second : middle.Shrinks last) : next.Shrinks last :=
  ⟨fun known => first.link (second.link known), fun typed => first.type (second.type typed)⟩

theorem shrinks_eraseType (names : Names) (port : Port) : names.Shrinks (names.eraseType port) := by
  refine ⟨fun known => known, fun {other type} typed => ?_⟩
  by_cases same : other = port
  · simp [Names.eraseType, same] at typed
  · simpa only [Names.eraseType, Function.update_of_ne same] using typed

theorem shrinks_unlink (names : Names) (port : Port) : names.Shrinks (names.unlink port) := by
  refine ⟨fun {remote proxy} known => ?_, fun typed => typed⟩
  rcases names.unlink_links port remote with same | gone
  · exact same.symm.trans known
  · cases gone.symm.trans known

theorem shrinks_unlinkIfLinked (names : Names) (port : Port) :
    names.Shrinks (names.unlinkIfLinked port) := by
  rw [Names.unlinkIfLinked]
  split_ifs
  · exact names.shrinks_unlink port
  · exact ⟨fun known => known, fun typed => typed⟩

theorem shrinks_forget (names : Names) (port : Port) :
    names.Shrinks ((names.eraseType port).unlinkIfLinked port) ∧
      ((names.eraseType port).unlinkIfLinked port).localPortType port = none := by
  refine ⟨(names.shrinks_eraseType port).trans (shrinks_unlinkIfLinked _ port), ?_⟩
  cases typed : ((names.eraseType port).unlinkIfLinked port).localPortType port with
  | none => rfl
  | some type =>
      have typedBefore := (shrinks_unlinkIfLinked _ port).type typed
      simp [Names.eraseType] at typedBefore

theorem Honored.shrink (honored : owner.Honored stream holder port)
    (shrinks : holder.Shrinks next) : owner.Honored stream next port :=
  fun proxy type known typed => honored proxy type (shrinks.link known) (shrinks.type typed)

/-- A proxy that has lost its type asks for nothing. -/
theorem Honored.of_forgotten (shrinks : holder.Shrinks next)
    (forgotten : ∀ proxy, holder.localPortsByRemote port = some proxy →
      next.localPortType proxy = none) : owner.Honored stream next port := by
  intro proxy type known typed
  cases (forgotten proxy (shrinks.link known)).symm.trans typed

theorem Honored.setType (honored : owner.Honored stream holder port)
    (honors : holder.localPortsByRemote port = some word → owner.Honors stream port type) :
    owner.Honored stream (holder.setType word type) port := by
  intro proxy other known typed
  by_cases same : proxy = word
  · subst same
    cases (show some type = some other by simpa [Names.setType] using typed)
    exact honors known
  · simp only [Names.setType, Function.update_of_ne same] at typed
    exact honored proxy other known typed

/-- A proxy is made under a name that is none. -/
theorem Honored.link {remote : Port} (honored : owner.Honored stream holder port)
    (inverse : Maps.Inverse holder.localPortsByRemote holder.remotePortsByLocal)
    (unlinked : holder.remotePortsByLocal word = none)
    (honors : remote = port → owner.Honors stream port type) :
    owner.Honored stream (holder.link remote word type) port := by
  intro proxy other known typed
  by_cases isNew : port = remote
  · simp only [Names.link, isNew, Function.update_self, Option.some.injEq] at known
    subst known
    cases (show some type = some other by simpa [Names.link] using typed)
    exact honors isNew.symm
  · simp only [Names.link, Function.update_of_ne isNew] at known
    have different : proxy ≠ word := by
      rintro rfl
      cases unlinked.symm.trans ((inverse port proxy).mp known)
    simp only [Names.link, Function.update_of_ne different] at typed
    exact honored proxy other known typed

/-- Only a receive right that goes home makes its proxy one to send to. -/
theorem Honored.transmits (honored : owner.Honored stream holder port)
    (inverse : Maps.Inverse holder.localPortsByRemote holder.remotePortsByLocal)
    (goesHome : right = .moveReceive → holder.localPortsByRemote port = some element →
      owner.Lends stream port → owner.Stands stream port)
    (transmitted : holder.Transmits right element word next) : owner.Honored stream next port := by
  have notOwn : holder.remotePortsByLocal element = none →
      holder.localPortsByRemote port ≠ some element := by
    intro unlinked known
    cases unlinked.symm.trans ((inverse port element).mp known)
  cases transmitted with
  | nothing => exact honored
  | proxySend => exact honored
  | ownSend _ unlinked => exact honored.setType fun known => absurd known (notOwn unlinked)
  | proxyReceive _ _ typed =>
      apply honored.setType
      exact fun known => goesHome rfl known (honored element .send known typed)
  | ownReceive _ unlinked => exact honored.setType fun known => absurd known (notOwn unlinked)

/-- A right that has come for a port makes its proxy what the right requires. -/
theorem Honored.translates {fresh left : List Port} (honored : owner.Honored stream holder port)
    (inverse : Maps.Inverse holder.localPortsByRemote holder.remotePortsByLocal)
    (supplied : holder.Supplied fresh) (received : right.Received)
    (forSend : right = .moveSend → element = port → owner.Stands stream port)
    (forReceive : right = .moveReceive → element = port → owner.Lends stream port)
    (translated : holder.Translates fresh right element word next left) :
    owner.Honored stream next port := by
  cases translated with
  | nothing => exact honored
  | returnedSend =>
      refine honored.setType fun known => ?_
      cases typed : holder.localPortType (~~~element) with
      | none => trivial
      | some type => exact honored _ type known typed
  | returnedReceive _ _ typed =>
      exact honored.setType fun known => .inl (honored _ .receive known typed)
  | returnedName => exact honored
  | knownReceive _ _ known =>
      refine honored.setType fun knownToo => forReceive rfl ?_
      have linked := (inverse element word).mp known
      exact Option.some.inj (linked.symm.trans ((inverse port word).mp knownToo))
  | newReceive _ _ _ supply =>
      subst supply
      exact honored.link inverse (supplied.2 word List.mem_cons_self).2.1 (forReceive rfl)
  | knownSend => exact honored
  | newSend _ _ isSend _ supply =>
      subst supply
      rcases isSend with isSend | isCopy | isMake
      · exact honored.link inverse (supplied.2 word List.mem_cons_self).2.1 (forSend isSend)
      · exact absurd isCopy received.1
      · exact absurd isMake received.2.1
  | sendOnce => exact honored
  | name => exact honored

/-- A port of our own that has a type is not taken for a proxy. -/
theorem Retains.translates {fresh left : List Port} (retains : holder.Retains port)
    (notFresh : port ∉ fresh) (translated : holder.Translates fresh right element word next left) :
    next.Retains port ∧ port ∉ left := by
  have typed := translated.grows.2.2 port retains.typed
  have unlinked := retains.unlinked
  have ofSupply : ∀ {newport : Port}, fresh = newport :: left → port ≠ newport ∧ port ∉ left := by
    rintro newport rfl
    exact not_or.mp fun isNew => notFresh (List.mem_cons.mpr isNew)
  cases translated with
  | nothing => exact ⟨retains, notFresh⟩
  | returnedSend => exact ⟨⟨typed, unlinked⟩, notFresh⟩
  | returnedReceive => exact ⟨⟨typed, unlinked⟩, notFresh⟩
  | returnedName => exact ⟨retains, notFresh⟩
  | knownReceive => exact ⟨⟨typed, unlinked⟩, notFresh⟩
  | newReceive _ _ _ supply =>
      rcases ofSupply supply with ⟨different, notLeft⟩
      exact ⟨⟨typed, by simpa only [Names.link, Function.update_of_ne different] using unlinked⟩,
        notLeft⟩
  | knownSend => exact ⟨retains, notFresh⟩
  | newSend _ _ _ _ supply =>
      rcases ofSupply supply with ⟨different, notLeft⟩
      exact ⟨⟨typed, by simpa only [Names.link, Function.update_of_ne different] using unlinked⟩,
        notLeft⟩
  | sendOnce _ _ _ _ supply =>
      subst supply
      exact ⟨⟨typed, unlinked⟩, fun isIn => notFresh (List.mem_cons_of_mem _
        (List.mem_cons_of_mem _ isIn))⟩
  | name => exact ⟨retains, notFresh⟩

theorem Retains.transmits (retains : holder.Retains port)
    (transmitted : holder.Transmits right element word next) : next.Retains port := by
  refine ⟨?_, transmitted.sameLinks.1 ▸ retains.unlinked⟩
  have typed : ∀ newType, (holder.setType element newType).localPortType port ≠ none := by
    intro newType
    by_cases same : port = element
    · simp [Names.setType, same]
    · simpa only [Names.setType, Function.update_of_ne same] using retains.typed
  cases transmitted with
  | nothing => exact retains.typed
  | proxySend => exact retains.typed
  | ownSend => exact typed _
  | proxyReceive => exact typed _
  | ownReceive => exact typed _

theorem Retains.eraseType (retains : holder.Retains port) (different : port ≠ word) :
    (holder.eraseType word).Retains port := by
  refine ⟨?_, retains.unlinked⟩
  simpa only [Names.eraseType, Function.update_of_ne different] using retains.typed

theorem Retains.unlink (retains : holder.Retains port) (word : Port) :
    (holder.unlink word).Retains port := by
  refine ⟨retains.typed, ?_⟩
  by_cases same : port = word
  · simp [Names.unlink, same]
  · simpa only [Names.unlink, Function.update_of_ne same] using retains.unlinked

theorem Retains.unlinkIfLinked (retains : holder.Retains port) (word : Port) :
    (holder.unlinkIfLinked word).Retains port := by
  rw [Names.unlinkIfLinked]
  split_ifs
  · exact retains.unlink word
  · exact retains

/-- A right that is sent for a port of our own is recorded. -/
theorem Transmits.retains {dying : Port} (isName : word.IsName)
    (isConsistent : holder.ConsistentBut dying)
    (transmitted : holder.Transmits right element word next) : next.Retains word := by
  have isProxy : ∀ {remote}, holder.remotePortsByLocal element = some remote →
      word ≠ ~~~remote := by
    rintro remote linked rfl
    have known := (isConsistent.inverse remote element).mpr linked
    have unflagged := (isConsistent.remote remote (by simp [known])).2
    cases (Port.flagged_not_of_not_flagged unflagged).symm.trans isName.unflagged
  cases transmitted with
  | nothing isNothing => exact absurd isNothing isName.something
  | proxySend _ linked => exact absurd rfl (isProxy linked)
  | ownSend _ unlinked => exact ⟨by simp [Names.setType], unlinked⟩
  | proxyReceive _ linked => exact absurd rfl (isProxy linked)
  | ownReceive _ unlinked => exact ⟨by simp [Names.setType], unlinked⟩

end Names

end Hurd.Netmsg
