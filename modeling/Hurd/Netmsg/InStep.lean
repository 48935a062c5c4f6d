import Hurd.Netmsg.Backed

/-!
# The maps of two peers in step

A port that one side has a proxy for is a port of the other side's own.  One of the two netmsgs has
the receive right, for the side that sends to the port, and the other a send right.
-/

namespace Hurd.Netmsg

/-- One side has the receive right of a port, and the other a send right. -/
def Opposite (here there : Option LocalType) : Prop :=
  here = some .send ∧ there = some .receive ∨ here = some .receive ∧ there = some .send

theorem Opposite.serves {here there : Option LocalType} (opposite : Opposite here there)
    (notReceive : here ≠ some .receive) : there = some .receive := by
  rcases opposite with ⟨-, serves⟩ | ⟨isReceive, -⟩
  · exact serves
  · exact absurd isReceive notReceive

namespace Names

/-- The other side has proxies for our ports as our types of them say. -/
structure ProxiedBy (names other : Names) : Prop where
  proxied : ∀ {port proxy}, other.localPortsByRemote port = some proxy →
    names.remotePortsByLocal port = none ∧
      Opposite (names.localPortType port) (other.localPortType proxy)
  unproxied : ∀ {port}, other.localPortsByRemote port = none →
    names.remotePortsByLocal port = none → names.localPortType port ≠ some .receive

/-- The maps are consistent, and they have no send-once rights. -/
structure Orderly (names : Names) : Prop where
  isConsistent : names.ConsistentBut machPortNull
  noOnce : ∀ port, names.sendOncePortsByLocal port = none
  isName : ∀ port, names.remotePortsByLocal port ≠ none → ¬port.Nothing

/-- The maps of both sides agree. -/
structure InStep (names other : Names) : Prop where
  here : names.ProxiedBy other
  there : other.ProxiedBy names
  isOrderly : names.Orderly
  isOrderlyThere : other.Orderly

/-- The receive right of the port is on the side that the port is not of. -/
def Lent (names : Names) (port : Port) : Prop :=
  match names.remotePortsByLocal port with
  | some _ => names.localPortType port = some .send
  | none => names.localPortType port = some .receive

/-- The same, once some rights of a message have been sent. -/
def LentAfter (names : Names) (sent : List (TypeName × Port)) (port : Port) : Prop :=
  if (.moveReceive, port) ∈ sent then names.remotePortsByLocal port = none else names.Lent port

/-- No send right is sent for a port that is lent at that point. -/
def SendsOwn (names : Names) (rights : List (TypeName × Port)) : Prop :=
  ∀ sent port later, rights = sent ++ (.moveSend, port) :: later → ¬port.Nothing →
    ¬names.LentAfter sent port

variable {names next other after : Names} {port proxy word name : Port} {type : TypeName}
  {fresh left : List Port} {rights : List (TypeName × Port)}

theorem lent_of_linked {remote : Port} (linked : names.remotePortsByLocal port = some remote) :
    names.Lent port ↔ names.localPortType port = some .send := by
  simp only [Lent, linked]

theorem lent_of_unlinked (unlinked : names.remotePortsByLocal port = none) :
    names.Lent port ↔ names.localPortType port = some .receive := by
  simp only [Lent, unlinked]

theorem setType_of_typed {type : LocalType} (typed : names.localPortType port = some type) :
    names.setType port type = names := by
  simp [setType, ← typed]

theorem touchType_of_typed {type : LocalType} (typed : names.localPortType port = some type) :
    names.touchType port = names := by
  have asTyped : names.touchType port = names.setType port type := by
    simp [touchType, setType, typed]
  rw [asTyped, setType_of_typed typed]

theorem InStep.symm (inStep : names.InStep other) : other.InStep names :=
  ⟨inStep.there, inStep.here, inStep.isOrderlyThere, inStep.isOrderly⟩

theorem Orderly.setType (isOrderly : names.Orderly) (port : Port) (type : LocalType) :
    (names.setType port type).Orderly :=
  ⟨isOrderly.isConsistent.setType port type, isOrderly.noOnce, isOrderly.isName⟩

theorem Orderly.forget (isOrderly : names.Orderly) (port : Port) :
    ((names.eraseType port).unlinkIfLinked port).Orderly := by
  refine ⟨(isOrderly.isConsistent.eraseType port).unlinkIfLinked, fun other => ?_,
    fun other linked => ?_⟩
  · rw [unlinkIfLinked]
    split_ifs
    · exact isOrderly.noOnce other
    · exact isOrderly.noOnce other
  · apply isOrderly.isName other
    intro unlinked
    apply linked
    rw [unlinkIfLinked]
    split_ifs
    · by_cases same : other = port
      · simp [unlink, same]
      · simpa [unlink, eraseType, same] using unlinked
    · exact unlinked

/-- What the other side has of the port behind a proxy -/
theorem InStep.linked {remote : Port} (inStep : names.InStep other)
    (linked : names.remotePortsByLocal port = some remote) :
    other.remotePortsByLocal remote = none ∧
      Opposite (other.localPortType remote) (names.localPortType port) ∧
      remote ≠ machPortNull ∧ remote.flagged = false := by
  have known := (inStep.isOrderly.isConsistent.inverse remote port).mpr linked
  have proxied := inStep.there.proxied known
  have isName := inStep.isOrderly.isConsistent.remote remote (by simp [known])
  exact ⟨proxied.1, proxied.2, isName.1, isName.2⟩

/-- The receive right goes from one side to the other. -/
theorem ProxiedBy.retype {here there : LocalType} (proxiedBy : names.ProxiedBy other)
    (isConsistent : other.ConsistentBut machPortNull)
    (known : other.localPortsByRemote port = some proxy)
    (opposite : Opposite (some here) (some there)) :
    (names.setType port here).ProxiedBy (other.setType proxy there) where
  proxied {otherPort otherProxy} otherKnown := by
    rcases proxiedBy.proxied otherKnown with ⟨unlinked, types⟩
    refine ⟨unlinked, ?_⟩
    by_cases same : otherPort = port
    · subst same
      cases known.symm.trans otherKnown
      simpa [setType] using opposite
    · have notProxy : otherProxy ≠ proxy := by
        rintro rfl
        have linked := (isConsistent.inverse _ _).mp known
        have otherLinked := (isConsistent.inverse _ _).mp otherKnown
        cases linked.symm.trans otherLinked
        exact same rfl
      simpa [setType, same, notProxy] using types
  unproxied {otherPort} unknown unlinked := by
    have different : otherPort ≠ port := by
      rintro rfl
      cases known.symm.trans unknown
    simpa [setType, different] using proxiedBy.unproxied unknown unlinked

/-- The ports of the other side are not concerned. -/
theorem ProxiedBy.retypeThere {here there : LocalType} (proxiedBy : other.ProxiedBy names)
    (isConsistent : names.ConsistentBut machPortNull)
    (unlinked : names.remotePortsByLocal port = none)
    (linked : other.remotePortsByLocal proxy ≠ none) :
    (other.setType proxy there).ProxiedBy (names.setType port here) where
  proxied {otherPort otherProxy} known := by
    rcases proxiedBy.proxied known with ⟨otherUnlinked, types⟩
    have notProxy : otherPort ≠ proxy := by
      rintro rfl
      exact linked otherUnlinked
    have notPort : otherProxy ≠ port := by
      rintro rfl
      cases unlinked.symm.trans ((isConsistent.inverse _ _).mp known)
    refine ⟨otherUnlinked, ?_⟩
    simpa [setType, notProxy, notPort] using types
  unproxied {otherPort} unknown otherUnlinked := by
    have notProxy : otherPort ≠ proxy := by
      rintro rfl
      exact linked otherUnlinked
    simpa [setType, notProxy] using proxiedBy.unproxied unknown otherUnlinked

theorem InStep.retype {here there : LocalType} (inStep : names.InStep other)
    (known : other.localPortsByRemote port = some proxy)
    (opposite : Opposite (some here) (some there)) :
    (names.setType port here).InStep (other.setType proxy there) := by
  have linked : other.remotePortsByLocal proxy ≠ none := by
    simp [(inStep.isOrderlyThere.isConsistent.inverse _ _).mp known]
  exact ⟨inStep.here.retype inStep.isOrderlyThere.isConsistent known opposite,
    inStep.there.retypeThere inStep.isOrderly.isConsistent (inStep.here.proxied known).1 linked,
    inStep.isOrderly.setType port here, inStep.isOrderlyThere.setType proxy there⟩

/-- A proxy is made for a port. -/
theorem InStep.link {here there : LocalType} (inStep : names.InStep other)
    (unknown : other.localPortsByRemote port = none)
    (unlinked : names.remotePortsByLocal port = none)
    (unused : other.remotePortsByLocal name = none ∧ other.localPortType name = none)
    (opposite : Opposite (some here) (some there))
    (something : ¬name.Nothing)
    (isConsistentThere : (other.link port name there).ConsistentBut machPortNull) :
    (names.setType port here).InStep (other.link port name there) := by
  refine ⟨⟨fun {otherPort otherProxy} known => ?_,
      fun {otherPort} otherUnknown otherUnlinked => ?_⟩,
    ⟨fun {otherPort otherProxy} known => ?_, fun {otherPort} otherUnknown otherUnlinked => ?_⟩,
    inStep.isOrderly.setType port here, isConsistentThere, inStep.isOrderlyThere.noOnce,
    fun otherName otherLinked => ?_⟩
  · by_cases same : otherPort = port
    · subst same
      have isName : otherProxy = name := by simpa [Names.link, eq_comm] using known
      subst isName
      refine ⟨unlinked, ?_⟩
      simpa [setType, Names.link] using opposite
    · have knownBefore : other.localPortsByRemote otherPort = some otherProxy := by
        simpa [Names.link, same] using known
      have notName : otherProxy ≠ name := by
        rintro rfl
        have linked := (inStep.isOrderlyThere.isConsistent.inverse _ _).mp knownBefore
        cases unused.1.symm.trans linked
      simpa [setType, Names.link, same, notName] using inStep.here.proxied knownBefore
  · have different : otherPort ≠ port := by
      rintro rfl
      simp [Names.link] at otherUnknown
    have unknownBefore : other.localPortsByRemote otherPort = none := by
      simpa [Names.link, different] using otherUnknown
    simpa [setType, different] using inStep.here.unproxied unknownBefore otherUnlinked
  · rcases inStep.there.proxied known with ⟨otherUnlinked, types⟩
    have notName : otherPort ≠ name := by
      rintro rfl
      rw [unused.2] at types
      simp [Opposite] at types
    have notPort : otherProxy ≠ port := by
      rintro rfl
      cases unlinked.symm.trans ((inStep.isOrderly.isConsistent.inverse _ _).mp known)
    simpa [setType, Names.link, notName, notPort] using And.intro otherUnlinked types
  · have notName : otherPort ≠ name := by
      rintro rfl
      simp [Names.link] at otherUnlinked
    have unlinkedBefore : other.remotePortsByLocal otherPort = none := by
      simpa [Names.link, notName] using otherUnlinked
    simpa [Names.link, notName] using inStep.there.unproxied otherUnknown unlinkedBefore
  · by_cases same : otherName = name
    · rwa [same]
    · apply inStep.isOrderlyThere.isName
      simpa [Names.link, same] using otherLinked

/-- Erasing the entry of `MACH_PORT_NULL` changes nothing. -/
theorem unlink_eq_unlinkIfLinked {dying : Port} (isConsistent : names.ConsistentBut dying) :
    names.unlink port = names.unlinkIfLinked port := by
  cases linked : names.remotePortsByLocal port with
  | some remote => simp [unlinkIfLinked, linked]
  | none =>
      have noNull : names.localPortsByRemote machPortNull = none := by
        by_contra known
        exact (isConsistent.remote machPortNull known).1 rfl
      have sameLinks : Function.update names.remotePortsByLocal port none =
          names.remotePortsByLocal := by
        rw [← linked, Function.update_eq_self]
      have sameProxies : Function.update names.localPortsByRemote machPortNull none =
          names.localPortsByRemote := by
        rw [← noNull, Function.update_eq_self]
      simp [unlink, unlinkIfLinked, linked, sameLinks, sameProxies]

/-- Both sides forget a port and its proxy. -/
theorem InStep.forget (inStep : names.InStep other)
    (known : other.localPortsByRemote port = some proxy) :
    ((names.eraseType port).unlinkIfLinked port).InStep
      ((other.eraseType proxy).unlinkIfLinked proxy) := by
  have linked := (inStep.isOrderlyThere.isConsistent.inverse _ _).mp known
  have unlinked := (inStep.here.proxied known).1
  have isOrderly := inStep.isOrderly.forget port
  have isOrderlyThere := inStep.isOrderlyThere.forget proxy
  have unlinkedErased : (names.eraseType port).remotePortsByLocal port = none := unlinked
  have linkedErased : (other.eraseType proxy).remotePortsByLocal proxy = some port := linked
  simp only [unlinkIfLinked, unlinkedErased, linkedErased, Option.isSome_none, Option.isSome_some,
    Bool.false_eq_true, if_false, if_true] at isOrderly isOrderlyThere ⊢
  refine ⟨⟨fun {otherPort otherProxy} otherKnown => ?_,
      fun {otherPort} otherUnknown otherUnlinked => ?_⟩,
    ⟨fun {otherPort otherProxy} otherKnown => ?_,
      fun {otherPort} otherUnknown otherUnlinked => ?_⟩,
    isOrderly, isOrderlyThere⟩
  · have different : otherPort ≠ port := by
      rintro rfl
      simp [unlink, eraseType, linked] at otherKnown
    have knownBefore : other.localPortsByRemote otherPort = some otherProxy := by
      simpa [unlink, eraseType, linked, different] using otherKnown
    have notProxy : otherProxy ≠ proxy := by
      rintro rfl
      have otherLinked := (inStep.isOrderlyThere.isConsistent.inverse _ _).mp knownBefore
      cases linked.symm.trans otherLinked
      exact different rfl
    simpa [unlink, eraseType, different, notProxy] using inStep.here.proxied knownBefore
  · by_cases same : otherPort = port
    · simp [eraseType, same]
    · have unknownBefore : other.localPortsByRemote otherPort = none := by
        simpa [unlink, eraseType, linked, same] using otherUnknown
      simpa [eraseType, same] using inStep.here.unproxied unknownBefore otherUnlinked
  · rcases inStep.there.proxied otherKnown with ⟨otherUnlinked, types⟩
    have notProxy : otherPort ≠ proxy := by
      rintro rfl
      cases otherUnlinked.symm.trans linked
    have notPort : otherProxy ≠ port := by
      rintro rfl
      cases unlinked.symm.trans ((inStep.isOrderly.isConsistent.inverse _ _).mp otherKnown)
    simpa [unlink, eraseType, notProxy, notPort] using And.intro otherUnlinked types
  · by_cases same : otherPort = proxy
    · simp [unlink, eraseType, same]
    · have unlinkedBefore : other.remotePortsByLocal otherPort = none := by
        simpa [unlink, eraseType, same] using otherUnlinked
      simpa [unlink, eraseType, same] using inStep.there.unproxied otherUnknown unlinkedBefore

/-- A number in the name space of the other side is only translated back. -/
theorem Translates.of_flagged (isRight : type = .moveSend ∨ type = .moveReceive)
    (something : ¬port.Nothing) (flagged : port.flagged = true)
    (translated : names.Translates fresh type port name next left) :
    name = ~~~port ∧ left = fresh ∧
      (type = .moveSend ∧ next = names.touchType (~~~port) ∨
        type = .moveReceive ∧ names.localPortType (~~~port) = some .receive ∧
          next = names.setType (~~~port) .send) := by
  cases translated with
  | nothing isNothing => exact absurd isNothing something
  | returnedSend => exact ⟨rfl, rfl, .inl ⟨rfl, rfl⟩⟩
  | returnedReceive _ _ typed => exact ⟨rfl, rfl, .inr ⟨rfl, typed, rfl⟩⟩
  | returnedName => simp at isRight
  | knownReceive _ unflagged => cases flagged.symm.trans unflagged
  | newReceive _ unflagged => cases flagged.symm.trans unflagged
  | knownSend _ unflagged => cases flagged.symm.trans unflagged
  | newSend _ unflagged => cases flagged.symm.trans unflagged
  | sendOnce _ unflagged => cases flagged.symm.trans unflagged
  | name _ unflagged => cases flagged.symm.trans unflagged

/-- A name of the other side is translated to its proxy, which may be a new one. -/
theorem Translates.of_unflagged (isRight : type = .moveSend ∨ type = .moveReceive)
    (something : ¬port.Nothing) (unflagged : port.flagged = false)
    (translated : names.Translates fresh type port name next left) :
    (names.localPortsByRemote port = some name ∧ left = fresh ∧
      (type = .moveSend ∧ names.localPortType name = some .receive ∧ next = names ∨
        type = .moveReceive ∧ next = names.setType name .send)) ∨
    (names.localPortsByRemote port = none ∧ fresh = name :: left ∧
      (type = .moveSend ∧ next = names.link port name .receive ∨
        type = .moveReceive ∧ next = names.link port name .send)) := by
  cases translated with
  | nothing isNothing => exact absurd isNothing something
  | returnedSend _ flagged => cases unflagged.symm.trans flagged
  | returnedReceive _ flagged => cases unflagged.symm.trans flagged
  | returnedName _ flagged => cases unflagged.symm.trans flagged
  | knownReceive _ _ known => exact .inl ⟨known, rfl, .inr ⟨rfl, rfl⟩⟩
  | newReceive _ _ unknown supply => exact .inr ⟨unknown, supply, .inr ⟨rfl, rfl⟩⟩
  | knownSend _ _ _ known typed =>
      rcases isRight with rfl | rfl
      · exact .inl ⟨known, rfl, .inl ⟨rfl, typed, rfl⟩⟩
      · simp_all
  | newSend _ _ _ unknown supply =>
      rcases isRight with rfl | rfl
      · exact .inr ⟨unknown, supply, .inl ⟨rfl, rfl⟩⟩
      · simp_all
  | sendOnce _ _ isOnce =>
      rcases isRight with rfl | rfl
      · simp at isOnce
      · simp at isOnce
  | name => simp at isRight

/-- What is written for a right, and how the type of its port changes -/
theorem Transmits.of_right (isRight : type = .moveSend ∨ type = .moveReceive)
    (something : ¬port.Nothing) (sent : names.Transmits type port word next) :
    (∃ remote, names.remotePortsByLocal port = some remote ∧ word = ~~~remote ∧
      (type = .moveSend ∧ names.localPortType port = some .receive ∧ next = names ∨
        type = .moveReceive ∧ names.localPortType port = some .send ∧
          next = names.setType port .receive)) ∨
    (names.remotePortsByLocal port = none ∧ word = port ∧
      (type = .moveSend ∧ next = names.setType port .send ∨
        type = .moveReceive ∧ next = names.setType port .receive)) := by
  cases sent with
  | nothing isNothing => exact absurd isNothing something
  | proxySend _ linked typed => exact .inl ⟨_, linked, rfl, .inl ⟨rfl, typed, rfl⟩⟩
  | ownSend _ unlinked => exact .inr ⟨unlinked, rfl, .inl ⟨rfl, rfl⟩⟩
  | proxyReceive _ linked typed => exact .inl ⟨_, linked, rfl, .inr ⟨rfl, typed, rfl⟩⟩
  | ownReceive _ unlinked => exact .inr ⟨unlinked, rfl, .inr ⟨rfl, rfl⟩⟩

end Names

theorem Port.not_remote {remote : Port} (notNull : remote ≠ machPortNull)
    (unflagged : remote.flagged = false) : ¬Port.Nothing (~~~remote) := by
  rintro (isNull | isDead)
  · have flagged := Port.flagged_not_of_not_flagged unflagged
    exact Port.not_null_of_flagged flagged isNull
  · apply notNull
    have same : ~~~(~~~remote) = ~~~machPortDead := by rw [isDead]
    simpa [machPortDead, machPortNull] using same

namespace Names

variable {names next other after : Names} {port word name : Port} {type : TypeName}
  {fresh left : List Port}

/-- A right is sent by one side and translated by the other. -/
theorem InStep.exchange (inStep : names.InStep other)
    (isRight : type = .moveSend ∨ type = .moveReceive)
    (something : ¬port.Nothing) (unflagged : port.flagged = false)
    (notLent : type = .moveSend → ¬names.Lent port) (supplied : other.Supplied fresh)
    (untyped : ∀ name ∈ fresh, ¬name.Nothing ∧ other.localPortType name = none)
    (sent : names.Transmits type port word next)
    (came : other.Translates fresh type word name after left) : next.InStep after := by
  have thereConsistent := (inStep.isOrderlyThere.isConsistent.translates supplied came).1
  rcases sent.of_right isRight something with
    ⟨remote, linked, rfl, sentCase⟩ | ⟨unlinked, rfl, sentCase⟩
  · rcases inStep.linked linked with ⟨-, types, notNull, remoteUnflagged⟩
    have flagged := Port.flagged_not_of_not_flagged remoteUnflagged
    have known := (inStep.isOrderly.isConsistent.inverse remote port).mpr linked
    rcases came.of_flagged isRight (Port.not_remote notNull remoteUnflagged) flagged with
      ⟨-, -, cameCase⟩
    rw [BitVec.not_not] at cameCase
    rcases sentCase with ⟨rfl, typed, rfl⟩ | ⟨rfl, typed, rfl⟩
    · have typedThere : other.localPortType remote = some .send := by
        simpa [Opposite, typed] using types
      rcases cameCase with ⟨-, rfl⟩ | ⟨⟨⟩, -⟩
      rw [touchType_of_typed typedThere]
      exact inStep
    · rcases cameCase with ⟨⟨⟩, -⟩ | ⟨-, -, rfl⟩
      exact (inStep.symm.retype known (by simp [Opposite])).symm
  · rcases came.of_unflagged isRight something unflagged with
      ⟨known, -, cameCase⟩ | ⟨unknown, supply, cameCase⟩
    · have types := (inStep.here.proxied known).2
      rcases sentCase with ⟨rfl, rfl⟩ | ⟨rfl, rfl⟩
      · rcases cameCase with ⟨-, typedThere, rfl⟩ | ⟨⟨⟩, -⟩
        have typed : names.localPortType word = some .send := by
          simpa [Opposite, typedThere] using types
        rw [setType_of_typed typed]
        exact inStep
      · rcases cameCase with ⟨⟨⟩, -⟩ | ⟨-, rfl⟩
        exact inStep.retype known (by simp [Opposite])
    · subst supply
      rcases untyped name List.mem_cons_self with ⟨isName, isUntyped⟩
      have unused : other.remotePortsByLocal name = none ∧ other.localPortType name = none :=
        ⟨(supplied.2 name List.mem_cons_self).2.1, isUntyped⟩
      rcases sentCase with ⟨rfl, rfl⟩ | ⟨rfl, rfl⟩
      · rcases cameCase with ⟨-, rfl⟩ | ⟨⟨⟩, -⟩
        exact inStep.link unknown unlinked unused (by simp [Opposite]) isName thereConsistent
      · rcases cameCase with ⟨⟨⟩, -⟩ | ⟨-, rfl⟩
        exact inStep.link unknown unlinked unused (by simp [Opposite]) isName thereConsistent

theorem SendsOwn.notLent {rest : List (TypeName × Port)}
    (sendsOwn : names.SendsOwn ((type, port) :: rest)) (something : ¬port.Nothing) :
    type = .moveSend → ¬names.Lent port := by
  rintro rfl
  simpa [LentAfter] using sendsOwn [] port rest rfl something

/-- A right leaves the ports of the others as they are, and its own as it has to be. -/
theorem Transmits.lent (isRight : type = .moveSend ∨ type = .moveReceive)
    (something : ¬port.Nothing) (sent : names.Transmits type port word next) {other : Port}
    (isLent : next.Lent other) :
    if type = .moveReceive ∧ other = port then names.remotePortsByLocal other = none
    else names.Lent other := by
  rcases sent.of_right isRight something with
    ⟨remote, linked, rfl, sentCase⟩ | ⟨unlinked, rfl, sentCase⟩
  · rcases sentCase with ⟨rfl, -, rfl⟩ | ⟨rfl, -, rfl⟩
    · simpa using isLent
    · by_cases same : other = port
      · subst same
        simp [Lent, setType, linked] at isLent
      · simpa [Lent, setType, same] using isLent
  · rcases sentCase with ⟨rfl, rfl⟩ | ⟨rfl, rfl⟩
    · by_cases same : other = word
      · subst same
        simp [Lent, setType, unlinked] at isLent
      · simpa [Lent, setType, same] using isLent
    · by_cases same : other = word
      · subst same
        simp [unlinked]
      · simpa [Lent, setType, same] using isLent

/-- The first right is sent, and the others are still to be sent. -/
theorem SendsOwn.transmits {rest : List (TypeName × Port)}
    (sendsOwn : names.SendsOwn ((type, port) :: rest))
    (isRight : type = .moveSend ∨ type = .moveReceive) (something : ¬port.Nothing)
    (sent : names.Transmits type port word next) : next.SendsOwn rest := by
  intro earlier other later isSplit otherSomething isLent
  apply sendsOwn ((type, port) :: earlier) other later (by simp [isSplit]) otherSomething
  unfold LentAfter at isLent ⊢
  rw [sent.sameLinks.1] at isLent
  by_cases inEarlier : (.moveReceive, other) ∈ earlier
  · simpa [inEarlier] using isLent
  · rw [if_neg inEarlier] at isLent
    simpa [inEarlier, eq_comm] using sent.lent isRight something isLent

/-- An element that is no right, or names no port, does not matter. -/
theorem SendsOwn.skip {rest : List (TypeName × Port)}
    (sendsOwn : names.SendsOwn ((type, port) :: rest))
    (isNone : port.Nothing ∨ type ≠ .moveReceive) : names.SendsOwn rest := by
  intro earlier other later isSplit something isLent
  apply sendsOwn ((type, port) :: earlier) other later (by simp [isSplit]) something
  have notFirst : ¬(TypeName.moveReceive = type ∧ other = port) := by
    rintro ⟨rfl, rfl⟩
    rcases isNone with isNothing | notReceive
    · exact something isNothing
    · exact notReceive rfl
  simpa [LentAfter, notFirst] using isLent

end Names

end Hurd.Netmsg
