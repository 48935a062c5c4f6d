import Hurd.Netmsg.Layout

/-!
# The handlers on bytes are the handlers on messages

What a handler does to the bytes of a message is what it does to the message that the bytes stand
for: both end the program, or both come to the same session, with bytes that stand for the same
message.
-/

namespace Hurd.Netmsg

theorem port_putPort (bytes : Buffer) (slot : ℕ) (port : Port) :
    (bytes.putPort slot port).port slot = port := by
  rw [Buffer.port, Buffer.putPort, word_putWord, Nat.mod_eq_of_lt port.isLt, BitVec.ofNat_toNat,
    BitVec.setWidth_eq]

theorem port_putPort_other (bytes : Buffer) {slot other : ℕ} (port : Port)
    (apart : slot + 4 ≤ other ∨ other + 4 ≤ slot) :
    (bytes.putPort slot port).port other = bytes.port other := by
  rw [Buffer.port, Buffer.putPort, word_putWord_other bytes port.toNat apart]
  rfl

/-- The numbers of an item do not overlap. -/
theorem places_slots (buffer : Buffer) (position first : ℕ) :
    Loop.Places Buffer.port Buffer.putPort (buffer.slots position first) := by
  refine ⟨fun bytes slot _ port => port_putPort bytes slot port, ?_⟩
  refine List.Pairwise.map _ ?_ List.pairwise_lt_range
  intro element other isBefore bytes port
  exact ⟨port_putPort_other bytes port (.inl (by omega)),
    port_putPort_other bytes port (.inr (by omega))⟩

namespace Bytewise

variable {translate : Session → Port → Option (Port × Session)} {message : Outgoing}
  {session : Session} {position : ℕ} {all : List ℕ} {translatePortNames : Bool}

/-- Writing to the ports of an item -/
theorem rewrites_putBytes {bytes : Buffer}
    (carries : message.buffer.carriesPorts true position = true)
    (unchanged : ∀ index, index < message.dataPtr position ∨
      message.dataPtr position + 4 * message.buffer.nelems position ≤ index →
        bytes index = message.bytesOf position index) :
    message.Rewrites (message.putBytes position bytes) [position] := by
  cases isInline : message.buffer.isInline position with
  | true =>
      simp only [Outgoing.bytesOf, isInline, if_true] at unchanged
      simp only [Outgoing.putBytes, isInline, if_true]
      refine ⟨fun index notIn => ?_, fun _ _ => rfl⟩
      apply unchanged
      by_contra inside
      exact notIn ⟨position, List.mem_singleton_self _, carries, isInline, by omega, by omega⟩
  | false =>
      simp only [Outgoing.bytesOf, isInline, Bool.false_eq_true, if_false] at unchanged
      simp only [Outgoing.putBytes, isInline, Bool.false_eq_true, if_false]
      refine ⟨fun _ _ => rfl, fun index notIn => ?_⟩
      apply unchanged
      by_contra inside
      exact notIn ⟨position, List.mem_singleton_self _, carries, isInline, by omega, by omega⟩

/-- The loop over the elements of an item changes nothing before them and nothing after them. -/
theorem forEach_slots_outside {first index : ℕ} {buffer : Buffer} {state final : Buffer × Session}
    (finished : Loop.forEach (Loop.rewriteAt Buffer.port Buffer.putPort translate)
      (buffer.slots position first) state = some final)
    (outside : index < first ∨ first + 4 * buffer.nelems position ≤ index) :
    final.1 index = state.1 index := by
  refine Loop.forEach_rewriteAt_unchanged (fun bytes => bytes index) ?_ finished
  intro slot slotMem bytes port
  rcases Buffer.mem_slots.mp slotMem with ⟨element, isElement, rfl⟩
  rcases outside with before | after
  · exact putWord_of_lt (by omega)
  · exact putWord_of_le (by omega)

/-- The elements of an item are rewritten as the list of them is. -/
theorem rewriteItem_related (neat : message.Neat all) (isItem : position ∈ all)
    (carries : message.buffer.carriesPorts true position = true) :
    Option.Rel (fun written replaced => written.2 = replaced.2 ∧
        message.Rewrites written.1 [position] ∧
        (written.1.slots position).map (written.1.bytesOf position).port = replaced.1)
      (rewriteItem translate position message session)
      (Loop.traverse translate session
        ((message.slots position).map (message.bytesOf position).port)) := by
  have related : Option.Rel (fun written replaced => written.2 = replaced.2 ∧
        (message.slots position).map written.1.port = replaced.1)
      (Loop.forEach (Loop.rewriteAt Buffer.port Buffer.putPort translate) (message.slots position)
        (message.bytesOf position, session))
      (Loop.traverse translate session
        ((message.slots position).map (message.bytesOf position).port)) :=
    Loop.forEach_rewriteAt (places_slots message.buffer position (message.dataPtr position)) _ _
  rw [rewriteItem]
  generalize isDone : Loop.forEach (Loop.rewriteAt Buffer.port Buffer.putPort translate)
    (message.slots position) (message.bytesOf position, session) = done at related ⊢
  generalize Loop.traverse translate session
    ((message.slots position).map (message.bytesOf position).port) = results at related ⊢
  cases related with
  | none => exact .none
  | @some written replaced isRelated =>
      have unchanged : ∀ index, index < message.dataPtr position ∨
          message.dataPtr position + 4 * message.buffer.nelems position ≤ index →
            written.1 index = message.bytesOf position index :=
        fun index => forEach_slots_outside isDone
      have rewrites := rewrites_putBytes carries unchanged
      have within : [position] ⊆ all := by simpa using isItem
      have same := rewrites.sameItem neat within isItem
      have sameBytes : (message.putBytes position written.1).bytesOf position = written.1 := by
        rw [Outgoing.bytesOf, same.inline, Outgoing.putBytes]
        split_ifs <;> rfl
      refine .some ⟨isRelated.1, rewrites, ?_⟩
      rw [rewrites.slots neat within isItem, sameBytes]
      exact isRelated.2

/-- A pass over an item, on the bytes and on the item. -/
def ItemRelated (message : Outgoing) (position : ℕ) (written : Outgoing × Session)
    (replaced : Item × Session) : Prop :=
  written.2 = replaced.2 ∧ message.Rewrites written.1 [position] ∧
    written.1.item position = replaced.1

theorem itemRelated_refl (message : Outgoing) (position : ℕ) (session : Session) :
    ItemRelated message position (message, session) (message.item position, session) :=
  ⟨rfl, .refl message [position], rfl⟩

theorem rewriteItem_item (neat : message.Neat all) (isItem : position ∈ all)
    (carries : message.buffer.carriesPorts true position = true) :
    Option.Rel (ItemRelated message position) (rewriteItem translate position message session)
      ((Loop.traverse translate session (message.item position).ports).bind fun results =>
        some (⟨(message.item position).name, results.1⟩, results.2)) := by
  have within : [position] ⊆ all := by simpa using isItem
  have isPorts : (message.item position).ports =
      (message.slots position).map (message.bytesOf position).port := by
    simp [Outgoing.item, carries]
  have related : Option.Rel _ (rewriteItem translate position message session) _ :=
    rewriteItem_related neat isItem carries
  rw [isPorts]
  generalize Loop.traverse translate session
    ((message.slots position).map (message.bytesOf position).port) = results at related ⊢
  generalize rewriteItem translate position message session = rewritten at related ⊢
  cases related with
  | none => exact .none
  | some isRelated =>
      rcases isRelated with ⟨sameSession, rewrites, ports⟩
      have same := rewrites.sameItem neat within isItem
      refine .some ⟨sameSession, rewrites, ?_⟩
      rw [Outgoing.item, same.carriesPorts, if_pos carries, ports, same.name]
      rfl

/-- The loop over names changes no session. -/
theorem traverse_names (change : Session → Port → Port) (ports : List Port) :
    Loop.traverse (fun session port => some (change session port, session)) session ports =
      some (ports.map (change session), session) := by
  induction ports with
  | nil => rfl
  | cons port rest ih => exact Loop.traverse_cons_iff.mpr ⟨_, _, _, rfl, ih, rfl⟩

theorem transmitNames_item (neat : message.Neat all) (isItem : position ∈ all)
    (carries : message.buffer.carriesPorts true position = true) :
    Option.Rel (ItemRelated message position)
      (transmitNames translatePortNames position message session)
      (some (⟨(message.item position).name,
        (message.item position).ports.map (session.transmitName translatePortNames)⟩, session)) := by
  cases translatePortNames with
  | false =>
      have unchanged : session.transmitName false = id := by
        funext port
        simp [Session.transmitName]
      rw [unchanged, List.map_id]
      exact .some (itemRelated_refl message position session)
  | true =>
      have related : Option.Rel _ (rewriteItem
          (fun session port => some (session.transmitName true port, session)) position message
            session) _ := rewriteItem_item neat isItem carries
      rw [traverse_names fun session => session.transmitName true] at related
      exact related

/-- A second pass over an item -/
theorem ItemRelated.after {middle : Outgoing} {written : Outgoing × Session}
    {replaced : Item × Session} (second : ItemRelated middle position written replaced)
    (neat : message.Neat all) (isItem : position ∈ all)
    (rewrites : message.Rewrites middle [position]) :
    ItemRelated message position written replaced := by
  have within : [position] ⊆ all := by simpa using isItem
  exact ⟨second.1, (rewrites.trans second.2.1 neat within within).mono (by simp), second.2.2⟩

/-- The receive rights of an item are translated, and then its names. -/
theorem receive_item (neat : message.Neat all) (isItem : position ∈ all)
    (carries : message.buffer.carriesPorts true position = true) :
    Option.Rel (ItemRelated message position)
      ((rewriteItem Session.transmitReceive position message session).bind fun results =>
        transmitNames translatePortNames position results.1 results.2)
      ((Loop.traverse Session.transmitReceive session (message.item position).ports).bind
        fun results => some (⟨(message.item position).name,
          results.1.map (results.2.transmitName translatePortNames)⟩, results.2)) := by
  have within : [position] ⊆ all := by simpa using isItem
  have received : Option.Rel _ (rewriteItem Session.transmitReceive position message session) _ :=
    rewriteItem_item neat isItem carries
  have isSecond : (Loop.traverse Session.transmitReceive session (message.item position).ports).bind
      (fun results => some ((⟨(message.item position).name,
        results.1.map (results.2.transmitName translatePortNames)⟩ : Item), results.2)) =
      ((Loop.traverse Session.transmitReceive session (message.item position).ports).bind
        fun results => some ((⟨(message.item position).name, results.1⟩ : Item), results.2)).bind
          fun results => some (⟨results.1.name,
            results.1.ports.map (results.2.transmitName translatePortNames)⟩, results.2) := by
    rw [Option.bind_assoc]
    rfl
  rw [isSecond]
  apply Lockstep.bind received
  rintro ⟨middle, next⟩ ⟨item, sameNext⟩ ⟨rfl, rewrites, rfl⟩
  have neatMiddle := rewrites.neat neat within
  have carriesMiddle := (rewrites.sameItem neat within isItem).carriesPorts true
  have named : Option.Rel _ (transmitNames translatePortNames position middle next) _ :=
    transmitNames_item neatMiddle isItem (carriesMiddle.trans carries)
  refine Lockstep.mono (fun {written replaced} second => ?_) named
  exact ItemRelated.after second neat isItem rewrites

/-- `translateForTransmission` for one item -/
theorem transmitItem_item (neat : message.Neat all) (isItem : position ∈ all) :
    Option.Rel (ItemRelated message position)
      (transmitItem translatePortNames position message session)
      (session.transmitItem translatePortNames (message.item position)) := by
  have carries : message.buffer.carriesPorts true position = true ↔ _ := Buffer.carriesPorts_iff
  have unchanged := itemRelated_refl message position session
  have sent : _ → Option.Rel _ (rewriteItem Session.transmitSend position message session) _ :=
    rewriteItem_item neat isItem
  have received : _ → Option.Rel _ ((rewriteItem Session.transmitReceive position message
      session).bind fun results => transmitNames translatePortNames position results.1 results.2) _ :=
    receive_item neat isItem
  have named : _ → Option.Rel _ (transmitNames translatePortNames position message session) _ :=
    transmitNames_item neat isItem
  have isName : TypeName.ofNumber (message.buffer.name position) = (message.item position).name :=
    rfl
  unfold transmitItem Session.transmitItem
  rw [isName] at carries ⊢
  generalize message.item position = item at *
  rcases item with ⟨name, ports⟩
  cases name with
  | moveSend => exact sent (carries.mpr (by simp))
  | moveReceive => exact received (carries.mpr (by simp))
  | portName => exact named (carries.mpr (by simp))
  | moveSendOnce => exact .some unchanged
  | copySend => exact .some unchanged
  | makeSend => exact .some unchanged
  | makeSendOnce => exact .some unchanged
  | data => exact .some unchanged

/-- `translateMessage` for one item -/
theorem translateItem_item (neat : message.Neat all) (isItem : position ∈ all) :
    Option.Rel (ItemRelated message position)
      (translateItem translatePortNames position message session)
      (session.translateItem translatePortNames (message.item position)) := by
  have carries : message.buffer.carriesPorts true position = true ↔ _ := Buffer.carriesPorts_iff
  have unchanged := itemRelated_refl message position session
  have translated : ∀ type, message.buffer.carriesPorts true position = true →
      Option.Rel _ (rewriteItem (fun session port => session.translatePort2 port type) position
        message session) _ :=
    fun type isPorts => rewriteItem_item neat isItem isPorts
  have isName : TypeName.ofNumber (message.buffer.name position) = (message.item position).name :=
    rfl
  unfold translateItem Session.translateItem
  rw [isName] at carries ⊢
  generalize message.item position = item at *
  rcases item with ⟨name, ports⟩
  cases name with
  | data => exact .some unchanged
  | portName =>
      cases translatePortNames with
      | false => exact .some unchanged
      | true => exact translated .portName (carries.mpr (by simp))
  | moveReceive => exact translated .moveReceive (carries.mpr (by simp))
  | moveSend => exact translated .moveSend (carries.mpr (by simp))
  | moveSendOnce => exact translated .moveSendOnce (carries.mpr (by simp))
  | copySend => exact translated .copySend (carries.mpr (by simp))
  | makeSend => exact translated .makeSend (carries.mpr (by simp))
  | makeSendOnce => exact translated .makeSendOnce (carries.mpr (by simp))

/-- The loops over the items, on the bytes and on the list of the items -/
def BodyRelated (message : Outgoing) (positions : List ℕ) (written : Outgoing × Session)
    (replaced : List Item × Session) : Prop :=
  written.2 = replaced.2 ∧ message.Rewrites written.1 positions ∧
    positions.map written.1.item = replaced.1

theorem forItems_related (body : ℕ → Outgoing → Session → Option (Outgoing × Session))
    (body' : Session → Item → Option (Item × Session))
    (pass : ∀ {message : Outgoing} {position : ℕ} {session : Session}, message.Neat all →
      position ∈ all → Option.Rel (ItemRelated message position) (body position message session)
        (body' session (message.item position)))
    {fuel : ℕ} (neat : message.Neat all) (within : message.buffer.positions fuel position ⊆ all) :
    Option.Rel (BodyRelated message (message.buffer.positions fuel position))
      (forItems body fuel position message session)
      (Loop.traverse body' session
        ((message.buffer.positions fuel position).map message.item)) := by
  induction fuel generalizing position message session with
  | zero => exact .some ⟨rfl, .refl message _, rfl⟩
  | succ fuel ih =>
      rw [Buffer.positions] at within ⊢
      rw [forItems]
      split_ifs with isWithin
      · rw [if_pos isWithin] at within
        rcases List.cons_subset.mp within with ⟨isItem, restWithin⟩
        have first : Option.Rel _ (body position message session) _ := pass neat isItem
        rw [List.map_cons, Loop.traverse]
        generalize body position message session = rewritten at first ⊢
        generalize body' session (message.item position) = replaced at first ⊢
        cases first with
        | none => exact .none
        | @some written replaced related =>
            rcases written with ⟨middle, next⟩
            rcases replaced with ⟨item, sameNext⟩
            rcases related with ⟨rfl, rewrites, rfl⟩
            have singleton : [position] ⊆ all := by simpa using isItem
            have isLater := (advance_ge message.buffer position).1
            have header := message.buffer.headerSize_le position
            have isPtr : message.buffer.oolPtr position =
              position + message.buffer.headerSize position := rfl
            have samePositions : middle.buffer.positions fuel (message.buffer.advance position) =
                message.buffer.positions fuel (message.buffer.advance position) :=
              Buffer.positions_congr (rewrites.msghSize neat singleton) fun item itemMem =>
                rewrites.descriptor neat singleton (restWithin itemMem)
            have elsewhere : ∀ later ∈ message.buffer.positions fuel
                (message.buffer.advance position), later ∉ [position] := by
              intro later laterMem isSame
              have after := Buffer.positions_ge laterMem
              rw [List.mem_singleton] at isSame
              omega
            have sameItems : (message.buffer.positions fuel (message.buffer.advance position)).map
                middle.item = (message.buffer.positions fuel
                  (message.buffer.advance position)).map message.item :=
              List.map_congr_left fun later laterMem =>
                rewrites.item neat singleton (restWithin laterMem) (elsewhere later laterMem)
            have neatMiddle := rewrites.neat neat singleton
            have rest : Option.Rel _ (forItems body fuel (message.buffer.advance position) middle
                next) _ :=
              ih neatMiddle (samePositions ▸ restWithin)
            simp only [Option.bind_eq_bind, Option.bind_some]
            rw [(rewrites.sameItem neat singleton isItem).advance]
            rw [samePositions, sameItems] at rest
            generalize forItems body fuel (message.buffer.advance position) middle next = done
              at rest ⊢
            generalize Loop.traverse body' next ((message.buffer.positions fuel
              (message.buffer.advance position)).map message.item) = others at rest ⊢
            cases rest with
            | none => exact .none
            | @some last others restRelated =>
                rcases restRelated with ⟨sameSession, restRewrites, restItems⟩
                have position_notMem : position ∉ message.buffer.positions fuel
                    (message.buffer.advance position) :=
                  fun isMem => elsewhere position isMem (List.mem_singleton_self position)
                refine .some ⟨sameSession, ?_, ?_⟩
                · exact rewrites.trans restRewrites neat singleton restWithin
                · rw [List.map_cons, restItems,
                    restRewrites.item neatMiddle restWithin isItem position_notMem]
      · exact .some ⟨rfl, .refl message _, rfl⟩

/-- A message whose body has been translated, on the bytes and on the message -/
def MessageRelated (message : Outgoing) (written : Outgoing × Session)
    (replaced : Message × Session) : Prop :=
  written.2 = replaced.2 ∧ message.Rewrites written.1 message.positions ∧
    written.1.decode = replaced.1

theorem decode_eq {written : Outgoing} {body : List Item}
    (rewrites : message.Rewrites written message.positions) (neat : message.Neat message.positions)
    (isBody : message.positions.map written.item = body) :
    written.decode = { message.decode with body := body } := by
  have agree : message.buffer.Agree written.buffer 0 headerBytes :=
    fun _ _ upTo => rewrites.header neat (List.Subset.refl _) upTo
  have samePositions : written.positions = message.positions := by
    rw [Outgoing.positions, agree.msghSize]
    exact Buffer.positions_congr agree.msghSize fun item itemMem =>
      rewrites.descriptor neat (List.Subset.refl _) itemMem
  have sameBits : written.msghBits = message.msghBits := agree.word le_rfl (by decide)
  have sameRemote : written.buffer.word 8 = message.buffer.word 8 :=
    agree.word (by decide) (by decide)
  have sameLocal : written.buffer.word 12 = message.buffer.word 12 :=
    agree.word (by decide) (by decide)
  have sameId : written.msghId = message.msghId := agree.word (by decide) (by decide)
  simp only [Outgoing.decode, Outgoing.remoteTranslate, Outgoing.localBits, Outgoing.remoteBits,
    Outgoing.msghLocalPort, Outgoing.msghRemotePort, Buffer.port, sameBits, sameRemote, sameLocal,
    sameId, samePositions, isBody]

theorem forItems_decode (body : ℕ → Outgoing → Session → Option (Outgoing × Session))
    (body' : Session → Item → Option (Item × Session))
    (pass : ∀ {message : Outgoing} {position : ℕ} {session : Session}, message.Neat all →
      position ∈ all → Option.Rel (ItemRelated message position) (body position message session)
        (body' session (message.item position)))
    (isAll : all = message.positions) (neat : message.Neat all) :
    Option.Rel (MessageRelated message)
      (forItems body message.buffer.msghSize headerBytes message session)
      ((Loop.traverse body' session message.decode.body).bind fun results =>
        some ({ message.decode with body := results.1 }, results.2)) := by
  subst isAll
  have related : Option.Rel _ (forItems body message.buffer.msghSize headerBytes message session) _ :=
    forItems_related body body' pass neat (List.Subset.refl _)
  change Option.Rel (BodyRelated message message.positions) _
    (Loop.traverse body' session message.decode.body) at related
  generalize forItems body message.buffer.msghSize headerBytes message session = done at related ⊢
  generalize Loop.traverse body' session message.decode.body = results at related ⊢
  cases related with
  | none => exact .none
  | some isRelated =>
      exact .some ⟨isRelated.1, isRelated.2.1, decode_eq isRelated.2.1 neat isRelated.2.2⟩

theorem translateForTransmission_related (neat : message.Neat message.positions) :
    Option.Rel (MessageRelated message)
      (translateForTransmission session message translatePortNames)
      (session.translateForTransmission message.decode translatePortNames) :=
  forItems_decode (transmitItem translatePortNames) (Session.transmitItem translatePortNames)
    transmitItem_item rfl neat

theorem translateMessage_related (neat : message.Neat message.positions) :
    Option.Rel (MessageRelated message) (translateMessage session message translatePortNames)
      (session.translateMessage message.decode translatePortNames) :=
  forItems_decode (translateItem translatePortNames) (Session.translateItem translatePortNames)
    translateItem_item rfl neat

end Bytewise

end Hurd.Netmsg
