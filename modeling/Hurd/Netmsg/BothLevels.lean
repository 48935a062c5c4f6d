import Hurd.Netmsg.OOLdata

/-!
# The two handlers at both levels

`ipcBufferHandler` and `tcpBufferHandler` on the bytes of a message do what they do on the message.
What they pass on is a regular message again, with the data of the message that they were given.
-/

namespace Hurd.Netmsg

namespace TypeName

/-- The numbers of the types that say something -/
theorem eq_of_ofNumber {number other : ℕ} (same : ofNumber number = ofNumber other)
    (notData : ofNumber other ≠ .data) : number = other := by
  unfold ofNumber at same notData
  split at notData <;> split at same <;> simp_all

theorem ofBits_eq_some_iff {number other : ℕ} (notNull : other ≠ 0)
    (notData : ofNumber other ≠ .data) : ofBits number = some (ofNumber other) ↔ number = other := by
  constructor
  · intro isSome
    rw [ofBits] at isSome
    split_ifs at isSome
    exact eq_of_ofNumber (Option.some_inj.mp isSome) notData
  · rintro rfl
    simp [ofBits, notNull]

end TypeName

namespace Bytewise

variable {message : Outgoing} {session : Session}

/-- The first item of a message that is not empty -/
theorem positions_cons (notEmpty : headerBytes < message.buffer.msghSize) :
    ∃ rest, message.positions = headerBytes :: rest := by
  rw [Outgoing.positions]
  generalize isSize : message.buffer.msghSize = size at notEmpty
  cases size with
  | zero => omega
  | succ size => exact ⟨_, by rw [Buffer.positions, if_pos (by omega)]⟩

theorem deadNameOf_of_body {message : Message} {item : Item} {rest : List Item}
    (isBody : message.body = item :: rest) : Session.deadNameOf message =
      if item.name = .portName ∧ item.ports.length = 1 then item.ports.head? else none := by
  rcases item with ⟨name, ports⟩
  rw [Session.deadNameOf, isBody]
  split
  · rename_i isItem
    cases isItem
    simp
  · rename_i other
    rw [if_neg]
    rintro ⟨rfl, isOne⟩
    rcases List.length_eq_one_iff.mp isOne with ⟨port, rfl⟩
    exact other port rest rfl

/-- The asserts on a DEAD NAME notification -/
theorem deadNameOf_decode (regular : message.Regular)
    (notEmpty : headerBytes < message.buffer.msghSize) :
    deadNameOf message = Session.deadNameOf message.decode := by
  rcases positions_cons notEmpty with ⟨rest, isPositions⟩
  have isItem : headerBytes ∈ message.positions := by simp [isPositions]
  have isBody : message.decode.body = message.item headerBytes :: rest.map message.item := by
    change message.positions.map message.item = _
    rw [isPositions, List.map_cons]
  rw [deadNameOf_of_body isBody, deadNameOf]
  by_cases isName : message.buffer.name headerBytes = msgTypePortName
  · have carries : message.buffer.carriesPorts true headerBytes = true := by
      simp [Buffer.carriesPorts, isName]
    have elements := (regular.ports headerBytes isItem carries).1
    have itemName : (message.item headerBytes).name = .portName := by
      simp [Outgoing.item, isName, msgTypePortName, TypeName.ofNumber]
    have isPorts : (message.item headerBytes).ports =
        (message.slots headerBytes).map (message.bytesOf headerBytes).port := by
      simp [Outgoing.item, carries]
    by_cases isOne : message.buffer.nelems headerBytes = 1
    · simp [isName, isOne, elements, itemName, isPorts, Outgoing.slots, Buffer.slots]
    · simp [isName, isOne, isPorts, Outgoing.slots, Buffer.slots]
  · have itemName : (message.item headerBytes).name ≠ .portName := by
      intro isPortName
      have isNumber : TypeName.ofNumber (message.buffer.name headerBytes) =
        TypeName.ofNumber msgTypePortName := isPortName
      exact isName (TypeName.eq_of_ofNumber isNumber (by decide))
    simp [isName, itemName]

/-- What `route` finds, at both levels -/
inductive RoutedRelated (message : Outgoing) : Routed → Session.Routed → Prop
  | discard : RoutedRelated message .discard .discard
  | relay {relayed : Outgoing} (deadName : Port) (next : Session)
      (sameBody : message.SameBody relayed) (sameId : relayed.msghId = message.msghId) :
      RoutedRelated message (.relay relayed deadName next) (.relay relayed.decode deadName next)

theorem relay_setLocalPort (message : Outgoing) (port deadName : Port) (next : Session) :
    RoutedRelated message (.relay (message.setLocalPort port) deadName next)
      (.relay { message.decode with localPort := port } deadName next) := by
  rw [← message.decode_setLocalPort]
  exact .relay deadName next (message.sameBody_setLocalPort port) (by simp)

theorem route_related (regular : message.Regular) :
    Option.Rel (RoutedRelated message) (route session message) (session.route message.decode) := by
  have isLocal : message.decode.localPort = message.msghLocalPort := rfl
  have isId : message.decode.id = message.msghId := rfl
  rw [route, Session.route, isLocal, isId]
  split_ifs with isControl isNotification isDeadName isDeleted isSendOnce
  · exact .some (relay_setLocalPort message machPortControl machPortNull session)
  · rw [deadNameOf_decode regular (regular.notification isDeadName)]
    cases Session.deadNameOf message.decode with
    | none => exact .none
    | some deadName =>
        simp only [Option.bind_eq_bind, Option.bind_some]
        cases session.names.localPortType deadName with
        | none => exact .some (relay_setLocalPort message machPortControl deadName _)
        | some type =>
            refine Lockstep.guarded Iff.rfl fun _ => ?_
            exact .some (relay_setLocalPort message machPortControl deadName _)
  · exact .some (relay_setLocalPort message machPortControl machPortNull session)
  · exact .some (relay_setLocalPort message machPortControl machPortNull session)
  · exact .none
  · cases session.names.remotePortsByLocal message.msghLocalPort with
    | some remote =>
        refine Lockstep.guarded Iff.rfl fun _ => ?_
        exact .some (relay_setLocalPort message remote machPortNull session)
    | none =>
        cases session.names.sendOncePortsByLocal message.msghLocalPort with
        | some remote => exact .some (relay_setLocalPort message remote machPortNull _)
        | none =>
            cases session.names.localPortType message.msghLocalPort with
            | none => exact .some .discard
            | some type =>
                cases type with
                | receive =>
                    have related : RoutedRelated message
                        (.relay message.setRemoteTranslate machPortNull session) _ :=
                      .relay _ _ message.sameBody_setRemoteTranslate (by simp)
                    rw [message.decode_setRemoteTranslate] at related
                    exact .some related
                | send => exact .some (.relay _ _ (.refl message) rfl)
                | unset => exact .some (.relay _ _ (.refl message) rfl)

/-- A message whose header has been changed, at both levels -/
structure Readdressed (message addressed : Outgoing) (replaced : Message) : Prop where
  sameBody : message.SameBody addressed
  sameId : addressed.msghId = message.msghId
  decode : addressed.decode = replaced

theorem translateDestination_related (message : Outgoing) (session : Session) :
    Option.Rel (Option.Rel (Readdressed message)) (translateDestination session message)
      (session.translateDestination message.decode) := by
  have isLocal : message.decode.localPort = message.msghLocalPort := rfl
  have isFlag : message.decode.remoteTranslate = message.remoteTranslate := rfl
  have addressed : ∀ port, Readdressed message (message.setLocalPort port)
      { message.decode with localPort := port } := fun port =>
    ⟨message.sameBody_setLocalPort port, by simp, message.decode_setLocalPort port⟩
  rw [translateDestination, Session.translateDestination, isLocal, isFlag]
  split_ifs
  · exact .some (.some (addressed session.firstPort))
  · cases session.names.localPortsByRemote message.msghLocalPort with
    | none => exact .some .none
    | some port =>
        refine Lockstep.guarded Iff.rfl fun _ => .some (.some ⟨?_, ?_, ?_⟩)
        · exact (addressed port).sameBody.trans (Outgoing.sameBody_clearRemoteTranslate _)
        · simp
        · rw [Outgoing.decode_clearRemoteTranslate, message.decode_setLocalPort]
  · exact .some (.some ⟨.refl message, rfl, rfl⟩)

theorem swapHeader_decode (session : Session) (message : Outgoing) :
    (swapHeader session message).decode = session.swapHeader message.decode := by
  have isLocal : message.decode.localPort = message.msghLocalPort := rfl
  have small := word_lt message.buffer 0
  have localSmall : message.localBits < 2 ^ 8 := Nat.mod_lt _ (by decide)
  have remoteSmall : message.remoteBits < 2 ^ 8 := Nat.mod_lt _ (by decide)
  rw [swapHeader, Session.swapHeader, isLocal]
  rw [Outgoing.decode_setBits, Outgoing.decode_setRemotePort, Outgoing.decode_setLocalPort]
  generalize isType : (if (session.names.localPortType message.msghLocalPort).isSome then
    msgTypeCopySend else message.localBits) = thisType
  have typeSmall : thisType < 2 ^ 8 := by
    rw [← isType]
    split_ifs
    · decide
    · exact localSmall
  have isBits : message.buffer.word 0 = message.msghBits := rfl
  generalize isWhole : message.msghBits / 2 ^ 31 * 2 ^ 31 + thisType + 2 ^ 8 * message.remoteBits =
    bits
  have flag : bits % 2 ^ 32 / 2 ^ 26 % 2 ≠ 1 := by omega
  have isLocalType : bits % 2 ^ 32 / 2 ^ 8 % 2 ^ 8 = message.remoteBits := by omega
  have isRemoteType : bits % 2 ^ 32 % 2 ^ 8 = thisType := by omega
  have isRemote : TypeName.ofBits thisType =
      if (session.names.localPortType message.msghLocalPort).isSome then some .copySend
      else message.decode.localType := by
    rw [← isType]
    split_ifs <;> rfl
  simp only [flag, isLocalType, isRemoteType, isRemote, decide_false]
  rfl

theorem sameBody_swapHeader (session : Session) (message : Outgoing) :
    message.SameBody (swapHeader session message) :=
  ((message.sameBody_setLocalPort _).trans (Outgoing.sameBody_setRemotePort _ _)).trans
    (Outgoing.sameBody_setBits _ _)

@[simp]
theorem msghId_swapHeader (session : Session) (message : Outgoing) :
    (swapHeader session message).msghId = message.msghId := by
  simp [swapHeader]

/-- The result of `translateHeader`, at both levels -/
def HeaderRelated (message : Outgoing) (written : Option Outgoing × Session)
    (replaced : Option Message × Session) : Prop :=
  written.2 = replaced.2 ∧ Option.Rel (Readdressed message) written.1 replaced.1

/-- The last part of `translateHeader`: the reply port -/
theorem translateReply_related (session : Session) {addressed : Outgoing}
    (readdressed : Readdressed message addressed addressed.decode) :
    Option.Rel (HeaderRelated message)
      (if addressed.remoteBits = msgTypeMoveSend ∨ addressed.remoteBits = msgTypeMoveSendOnce then do
        let (port, next) ← session.translatePort2 addressed.msghRemotePort
          (.ofNumber addressed.remoteBits)
        some (some (addressed.setRemotePort port), next)
      else do
        guard (addressed.remoteBits = 0)
        guard (addressed.msghRemotePort = machPortNull)
        some (some addressed, session))
      (match addressed.decode.remoteType with
      | none => do
          guard (addressed.decode.remotePort = machPortNull)
          some (some addressed.decode, session)
      | some type => do
          guard (type = .moveSend ∨ type = .moveSendOnce)
          let (port, next) ← session.translatePort2 addressed.decode.remotePort type
          some (some { addressed.decode with remotePort := port }, next)) := by
  have isRemote : addressed.decode.remotePort = addressed.msghRemotePort := rfl
  have isType : addressed.decode.remoteType = TypeName.ofBits addressed.remoteBits := rfl
  rw [isRemote, isType]
  have translated : ∀ type, Option.Rel (HeaderRelated message)
      ((session.translatePort2 addressed.msghRemotePort type).bind fun result =>
        some (some (addressed.setRemotePort result.1), result.2))
      ((session.translatePort2 addressed.msghRemotePort type).bind fun result =>
        some (some { addressed.decode with remotePort := result.1 }, result.2)) := by
    intro type
    cases session.translatePort2 addressed.msghRemotePort type with
    | none => exact .none
    | some result =>
        refine .some ⟨rfl, .some ⟨?_, ?_, ?_⟩⟩
        · exact readdressed.sameBody.trans (addressed.sameBody_setRemotePort result.1)
        · simpa using readdressed.sameId
        · exact addressed.decode_setRemotePort result.1
  by_cases isNone : addressed.remoteBits = 0
  · rw [isNone, TypeName.ofBits, if_pos rfl, if_neg (by decide)]
    simp only [guard_true, pure_bind]
    exact Lockstep.guarded Iff.rfl fun _ => .some ⟨rfl, .some readdressed⟩
  · by_cases isSend : addressed.remoteBits = msgTypeMoveSend ∨
      addressed.remoteBits = msgTypeMoveSendOnce
    · have isTypes : TypeName.ofNumber addressed.remoteBits = .moveSend ∨
          TypeName.ofNumber addressed.remoteBits = .moveSendOnce := by
        rcases isSend with isSend | isSend <;> rw [isSend]
        · exact .inl rfl
        · exact .inr rfl
      rw [TypeName.ofBits, if_neg isNone, if_pos isSend]
      simp only [isTypes, guard_true, pure_bind]
      exact translated _
    · have noTypes : ¬(TypeName.ofNumber addressed.remoteBits = .moveSend ∨
          TypeName.ofNumber addressed.remoteBits = .moveSendOnce) := by
        rintro (isType | isType)
        · exact isSend (.inl (TypeName.eq_of_ofNumber isType (by decide)))
        · exact isSend (.inr (TypeName.eq_of_ofNumber isType (by decide)))
      rw [TypeName.ofBits, if_neg isNone, if_neg isSend]
      simp only [guard, isNone, noTypes, if_false]
      exact .none

theorem translateHeader_related (regular : message.Regular) :
    Option.Rel (HeaderRelated message) (translateHeader session message)
      (session.translateHeader message.decode) := by
  have isType : message.decode.localType = TypeName.ofBits message.localBits := rfl
  have sameTest : (message.localBits = msgTypeMoveSend ∨ message.localBits = msgTypeMoveSendOnce) ↔
      message.decode.localType = some .moveSend ∨ message.decode.localType = some .moveSendOnce := by
    rw [isType]
    exact or_congr (TypeName.ofBits_eq_some_iff (by decide) (by decide)).symm
      (TypeName.ofBits_eq_some_iff (by decide) (by decide)).symm
  refine Lockstep.guarded sameTest fun _ => ?_
  refine Lockstep.bind (translateDestination_related message session) fun {found found'} related => ?_
  cases related with
  | none => exact .some ⟨rfl, .none⟩
  | @some addressed replaced readdressed =>
      rcases readdressed with ⟨sameBody, sameId, rfl⟩
      have isId : addressed.decode.id = addressed.msghId := rfl
      have isLocal : addressed.decode.localPort = addressed.msghLocalPort := rfl
      dsimp only
      rw [isId, isLocal]
      by_cases isNoSenders : addressed.msghId = msgidNoSenders
      · rw [if_pos isNoSenders, if_pos isNoSenders]
        cases session.handleNoSenders addressed.msghLocalPort with
        | none => exact .none
        | some next => exact .some ⟨rfl, .none⟩
      · rw [if_neg isNoSenders, if_neg isNoSenders]
        by_cases isDeadName : addressed.msghId = msgidDeadName ∧
          addressed.msghLocalPort = session.firstPort
        · rw [if_pos isDeadName, if_pos isDeadName]
          have regularAddressed : addressed.Regular :=
            regular.of_same sameBody.keepsData.same sameId
          rw [deadNameOf_decode regularAddressed (regularAddressed.notification isDeadName.1)]
          cases Session.deadNameOf addressed.decode with
          | none => exact .none
          | some deadName =>
              simp only [Option.bind_eq_bind, Option.bind_some]
              cases session.handleDeadName deadName with
              | none => exact .none
              | some next => exact .some ⟨rfl, .none⟩
        · rw [if_neg isDeadName, if_neg isDeadName]
          exact translateReply_related session ⟨sameBody, sameId, rfl⟩

/-- What a handler passes on of a message, at both levels -/
structure Handled (message sent : Outgoing) (replaced : Message) : Prop where
  decode : sent.decode = replaced
  regular : sent.Regular
  keepsData : message.KeepsData sent message.NoPorts

/-- The result of a handler, at both levels -/
def HandlerRelated (message : Outgoing) (written : Option Outgoing × Session)
    (replaced : Option Message × Session) : Prop :=
  written.2 = replaced.2 ∧ Option.Rel (Handled message) written.1 replaced.1

theorem noPorts_of_same {other : Outgoing} (same : message.SameDescriptors other) {position : ℕ}
    (isItem : position ∈ message.positions) (noPorts : message.NoPorts position) :
    other.NoPorts position :=
  ((same.sameItem isItem).carriesPorts true).trans noPorts

/-- The ports of a message are rewritten, after its header or before it. -/
theorem handled_of_rewrites {before after sent : Outgoing} (regular : message.Regular)
    (first : message.KeepsData before fun _ => True) (neat : before.Neat before.positions)
    (rewrites : before.Rewrites after before.positions) (sameBody : after.SameBody sent)
    (sameId : sent.msghId = message.msghId) : Handled message sent sent.decode := by
  have second := rewrites.keepsData neat
  have third := sameBody.keepsData
  have keepsBefore : message.KeepsData after message.NoPorts :=
    (first.mono fun _ _ => trivial).trans second fun _ isItem noPorts =>
      noPorts_of_same first.same isItem noPorts
  have keeps : message.KeepsData sent message.NoPorts :=
    keepsBefore.trans third fun _ _ _ => trivial
  exact ⟨rfl, regular.of_same keeps.same sameId, keeps⟩

theorem ipcBufferHandler_related {allocate : ℕ → ℕ} (regular : message.Regular)
    (room : message.HasFreshRoom allocate) :
    Option.Rel (HandlerRelated message) (ipcBufferHandler session allocate message)
      (session.ipcBufferHandler message.decode) := by
  have moved := Outgoing.moved_copyOOLdata room
  have regularCopy := moved.regular regular
  have neatCopy := moved.neat regular room.toHasRoom
  have sameIdCopy : (message.copyOOLdata allocate).msghId = message.msghId :=
    (Outgoing.header_of_bytes regular moved.bytes).word (by decide) (by decide)
  rw [ipcBufferHandler, Session.ipcBufferHandler, ← moved.decode regular]
  refine Lockstep.bind (route_related regularCopy) fun {routed routed'} related => ?_
  cases related with
  | discard => exact .some ⟨rfl, .none⟩
  | @relay relayed deadName next sameBody sameId =>
      have isId : relayed.decode.id = relayed.msghId := rfl
      have isLocal : (message.copyOOLdata allocate).decode.localPort = message.msghLocalPort := by
        rw [moved.decode regular]
        rfl
      dsimp only
      rw [isId, isLocal]
      cases next.releaseNoSenders relayed.msghId message.msghLocalPort with
      | none => exact .none
      | some released =>
          have neat : relayed.Neat relayed.positions :=
            sameBody.positions ▸ sameBody.neat neatCopy
          have keeps : message.KeepsData relayed fun _ => True :=
            (moved.keepsData regular).trans sameBody.keepsData fun _ _ _ => trivial
          simp only [Option.bind_eq_bind, Option.bind_some]
          refine Lockstep.bind (translateForTransmission_related neat)
            fun {written replaced} related => ?_
          rcases written with ⟨sent, translated⟩
          rcases replaced with ⟨message', translated'⟩
          rcases related with ⟨rfl, rewrites, rfl⟩
          have sameIdSent : sent.msghId = relayed.msghId := by
            have agree : relayed.buffer.Agree sent.buffer 0 headerBytes := fun _ _ upTo =>
              rewrites.header neat (List.Subset.refl _) upTo
            exact agree.word (by decide) (by decide)
          refine .some ⟨rfl, .some ?_⟩
          exact handled_of_rewrites regular keeps neat rewrites (.refl sent)
            (sameIdSent.trans (sameId.trans sameIdCopy))

theorem tcpBufferHandler_related (regular : message.Regular)
    (neat : message.Neat message.positions) :
    Option.Rel (HandlerRelated message) (tcpBufferHandler session message)
      (session.tcpBufferHandler message.decode) := by
  have isLocal : message.decode.localPort = message.msghLocalPort := rfl
  have isId : message.decode.id = message.msghId := rfl
  rw [tcpBufferHandler, Session.tcpBufferHandler, isLocal, isId]
  refine Lockstep.bind (translateMessage_related neat) fun {written replaced} related => ?_
  rcases written with ⟨translated, middle⟩
  rcases replaced with ⟨message', middle'⟩
  rcases related with ⟨rfl, rewrites, rfl⟩
  have keeps := rewrites.keepsData neat
  have sameIdTranslated : translated.msghId = message.msghId := by
    have agree : message.buffer.Agree translated.buffer 0 headerBytes := fun _ _ upTo =>
      rewrites.header neat (List.Subset.refl _) upTo
    exact agree.word (by decide) (by decide)
  have regularTranslated : translated.Regular := regular.of_same keeps.same sameIdTranslated
  refine Lockstep.bind (translateHeader_related regularTranslated)
    fun {written replaced} related => ?_
  rcases written with ⟨addressed, next⟩
  rcases replaced with ⟨addressed', next'⟩
  rcases related with ⟨rfl, related⟩
  cases related with
  | none => exact .some ⟨rfl, .none⟩
  | @some addressed replaced readdressed =>
      rcases readdressed with ⟨sameBody, sameId, rfl⟩
      have sameBodySent := sameBody.trans (sameBody_swapHeader next addressed)
      have sameIdSent : (swapHeader next addressed).msghId = message.msghId := by
        rw [msghId_swapHeader, sameId, sameIdTranslated]
      have handled := handled_of_rewrites regular (Outgoing.SameBody.refl message).keepsData neat
        rewrites sameBodySent sameIdSent
      rw [swapHeader_decode] at handled
      refine .some ⟨?_, .some handled⟩
      rw [swapHeader_decode]

end Bytewise

end Hurd.Netmsg
