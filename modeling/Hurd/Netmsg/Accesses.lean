import Hurd.Netmsg.Decoding

/-!
# Where `translateMessage` writes

What the loop of `translateMessage` reads and rewrites in a received message: the descriptors it
comes to, and the numbers of the items that carry ports, until the message ends or the program
does.

Everything stays inside if the descriptor of every item does, and the numbers of every item that
carries ports take up no more than the size its descriptor declares.  Where they take up more,
they run over the descriptors that follow, and then anything can be found there.  If
`receiveOOLdata` has stored a pointer behind the buffer, `translateMessage` goes through a region
instead of the message.
-/

namespace Hurd.Netmsg

/-- What `translateMessage` reads or rewrites. -/
inductive Access
  | descriptor (position size : ℕ)
  | slot (position : ℕ)
  /-- an element of the out-of-line item at a position of the message -/
  | oolSlot (position address : ℕ)
  /-- where `msg` points to a region -/
  | astray (access : Access)
deriving DecidableEq

namespace Bytewise

/-- The numbers that the loop over the elements of an item rewrites, until the program ends -/
def rewritten (translate : Session → Port → Option (Port × Session)) :
    List ℕ → Buffer × Session → List ℕ
  | [], _ => []
  | slot :: rest, state =>
      match Loop.rewriteAt Buffer.port Buffer.putPort translate slot state with
      | none => []
      | some next => slot :: rewritten translate rest next

/-- What `translateMessage` reads and rewrites for an item -/
def itemAccesses (translatePortNames : Bool) (position : ℕ) (message : Outgoing)
    (session : Session) : List Access :=
  .descriptor position (message.buffer.headerSize position) ::
    if message.buffer.carriesPorts translatePortNames position then
      let type := TypeName.ofNumber (message.buffer.name position)
      let slots := rewritten (fun session port => session.translatePort2 port type)
        (message.slots position) (message.bytesOf position, session)
      if message.buffer.isInline position then slots.map .slot else slots.map (.oolSlot position)
    else []

/-- What the loop of `translateMessage` reads and rewrites from a position on -/
def accesses (translatePortNames : Bool) : ℕ → ℕ → Outgoing → Session → List Access
  | 0, _, _, _ => []
  | fuel + 1, position, message, session =>
      if position < message.buffer.msghSize then
        itemAccesses translatePortNames position message session ++
          match translateItem translatePortNames position message session with
          | none => []
          | some (next, left) =>
              accesses translatePortNames fuel (next.buffer.advance position) next left
      else []

end Bytewise

/-- What `translateMessage` reads and rewrites of a message -/
def Incoming.accesses (incoming : Incoming) (translatePortNames : Bool) (memory : Buffer)
    (session : Session) : List Access :=
  -- the iterator takes the size for an `int`
  let passes := if incoming.msg.msghSize < 2 ^ 31 then incoming.msg.msghSize else 0
  let accesses := Bytewise.accesses translatePortNames passes headerBytes
    ⟨incoming.msg, memory⟩ session
  if incoming.strayed = none then accesses else accesses.map .astray

/-- The access is to the message, or to the region allocated for the item. -/
def Access.Inside (vacant : Vacant) (incoming : Incoming) : Access → Prop
  | .descriptor position size => position + size ≤ incoming.buffer.msghSize
  | .slot position => position + 4 ≤ incoming.buffer.msghSize
  | .oolSlot position address => ∃ region, (position, region) ∈ incoming.regions ∧
      vacant.allocate position % 2 ^ 32 ≤ address ∧
      address + 4 ≤ vacant.allocate position % 2 ^ 32 + region.length
  | .astray _ => False

/-- In every state of netmsg, `translateMessage` stays inside a received message. -/
def Incoming.StaysInside (incoming : Incoming) (vacant : Vacant) (translatePortNames : Bool) :
    Prop :=
  ∀ (memory : Buffer) (session : Session),
    ∀ access ∈ incoming.accesses translatePortNames memory session, access.Inside vacant incoming

/-- The descriptor of an item is in the message, and its ports fit in the size it declares. -/
structure Buffer.Fits (buffer : Buffer) (translatePortNames : Bool) (position : ℕ) : Prop where
  descriptor : position + buffer.headerSize position ≤ buffer.msghSize
  roomy : buffer.carriesPorts translatePortNames position = true →
    4 * buffer.nelems position ≤ buffer.dataSize position
  ports : buffer.carriesPorts translatePortNames position = true →
    buffer.isInline position = true →
      buffer.oolPtr position + 4 * buffer.nelems position ≤ buffer.msghSize

/-- Every item fits; a region that has taken the place of the message has no item. -/
structure Incoming.Fits (incoming : Incoming) (translatePortNames : Bool) : Prop where
  items : incoming.strayed = none →
    ∀ position ∈ incoming.buffer.positions incoming.buffer.msghSize headerBytes,
      incoming.buffer.Fits translatePortNames position
  region : incoming.strayed ≠ none →
    incoming.msg.msghSize ≤ headerBytes ∨ 2 ^ 31 ≤ incoming.msg.msghSize

/-- The types of which `translatePort2` can take any number -/
def TypeName.Accepted (type : TypeName) : Prop := type = .moveSend ∨ type = .portName

/--
What goes wrong with a message comes to light: no port has to end the program, and behind an item
that runs over its data stands a name of the other end.
-/
structure Incoming.Telling (incoming : Incoming) (translatePortNames : Bool) : Prop where
  accepted : incoming.strayed = none →
    ∀ position ∈ incoming.buffer.positions incoming.buffer.msghSize headerBytes,
      incoming.buffer.carriesPorts translatePortNames position = true →
        (TypeName.ofNumber (incoming.buffer.name position)).Accepted
  name : incoming.strayed = none →
    ∀ position ∈ incoming.buffer.positions incoming.buffer.msghSize headerBytes,
      incoming.buffer.carriesPorts translatePortNames position = true →
        incoming.buffer.isInline position = true →
        incoming.buffer.dataSize position < 4 * incoming.buffer.nelems position →
          0 < incoming.buffer.word (incoming.buffer.advance position) ∧
            incoming.buffer.word (incoming.buffer.advance position) < 2 ^ 31

namespace Bytewise

section Item

variable {translate : Session → Port → Option (Port × Session)} {translatePortNames : Bool}
  {message next : Outgoing} {session left : Session} {position : ℕ}

/-- A loop that comes to its end has rewritten all numbers. -/
theorem rewritten_of_finished {slots : List ℕ} {state final : Buffer × Session}
    (finished : Loop.forEach (Loop.rewriteAt Buffer.port Buffer.putPort translate) slots state =
      some final) : rewritten translate slots state = slots := by
  induction slots generalizing state with
  | nil => rfl
  | cons slot rest ih =>
      rcases Option.bind_eq_some_iff.mp finished with ⟨middle, slotDone, restDone⟩
      rw [rewritten, slotDone]
      exact congrArg (slot :: ·) (ih restDone)

/-- Only items that carry ports are translated. -/
theorem translateItem_eq : translateItem translatePortNames position message session =
    if message.buffer.carriesPorts translatePortNames position then
      rewriteItem (fun session port => session.translatePort2 port
        (.ofNumber (message.buffer.name position))) position message session
    else some (message, session) := by
  rw [Buffer.carriesPorts, translateItem]
  generalize message.buffer.name position = number
  unfold msgTypePortName msgTypeMoveReceive msgTypeMakeSendOnce TypeName.ofNumber
  split <;> grind

/-- Rewriting the ports of an item changes nothing before them and nothing after them. -/
theorem translateItem_outside {index : ℕ}
    (translated : translateItem translatePortNames position message session = some (next, left))
    (outside : index < message.buffer.oolPtr position ∨
      message.buffer.oolPtr position + 4 * message.buffer.nelems position ≤ index) :
    next.buffer index = message.buffer index := by
  rw [translateItem_eq] at translated
  split_ifs at translated with carries
  · rcases Option.bind_eq_some_iff.mp translated with ⟨final, finished, isNext⟩
    cases isNext
    cases isInline : message.buffer.isInline position with
    | false => simp [Outgoing.putBytes, isInline]
    | true =>
        simp only [Outgoing.putBytes, isInline, if_true]
        have isPtr : message.dataPtr position = message.buffer.oolPtr position := by
          simp [Outgoing.dataPtr, isInline]
        have isBuffer : message.bytesOf position = message.buffer := by
          simp [Outgoing.bytesOf, isInline]
        rw [← isPtr] at outside
        rw [← isBuffer]
        exact forEach_slots_outside finished outside
  · cases translated
    rfl

/-- The iterator steps over an item as if its ports had not been rewritten. -/
theorem translateItem_sameItem
    (translated : translateItem translatePortNames position message session = some (next, left)) :
    message.buffer.SameItem next.buffer position :=
  Buffer.Agree.sameItem fun _ _ upTo => translateItem_outside translated (.inl upTo)

theorem translateItem_msghSize (inBody : headerBytes ≤ position)
    (translated : translateItem translatePortNames position message session = some (next, left)) :
    next.buffer.msghSize = message.buffer.msghSize := by
  have header := message.buffer.headerSize_le position
  have isPtr : message.buffer.oolPtr position = position + message.buffer.headerSize position := rfl
  have agree : message.buffer.Agree next.buffer 0 headerBytes :=
    fun index _ upTo => translateItem_outside translated (.inl (by omega))
  exact agree.msghSize

/-- With room for its ports in an item, the rest of the message is not touched. -/
theorem translateItem_ahead {buffer : Buffer} (inBody : headerBytes ≤ position)
    (ahead : buffer.Ahead message.buffer position)
    (roomy : buffer.carriesPorts translatePortNames position = true →
      4 * buffer.nelems position ≤ buffer.dataSize position)
    (translated : translateItem translatePortNames position message session = some (next, left)) :
    buffer.Ahead next.buffer (buffer.advance position) := by
  have same := ahead.sameItem
  have isPtr : buffer.oolPtr position = position + buffer.headerSize position := rfl
  refine ⟨(translateItem_msghSize inBody translated).trans ahead.size, fun index after => ?_⟩
  have isNext : buffer.advance position = buffer.oolPtr position +
      if buffer.isInline position then buffer.dataSize position else 4 := by
    rw [Buffer.advance, isPtr, Nat.add_assoc]
  rw [← ahead.ahead index (by omega)]
  by_cases untouched : buffer.oolPtr position + 4 * buffer.nelems position ≤ index
  · apply translateItem_outside translated
    rw [same.oolPtr, same.nelems]
    exact .inr untouched
  · -- only an item out of line has more ports than the iterator steps over
    rw [translateItem_eq, same.carriesPorts] at translated
    split_ifs at translated with carries
    · rcases Option.bind_eq_some_iff.mp translated with ⟨final, _, isResult⟩
      cases isResult
      have room := roomy carries
      have outOfLine : ¬buffer.isInline position = true := by
        intro isInline
        rw [if_pos isInline] at isNext
        omega
      simp [Outgoing.putBytes, same.inline, outOfLine]
    · cases translated
      rfl

end Item

section Walk

variable {vacant : Vacant} {incoming : Incoming} {translatePortNames : Bool} {fuel position : ℕ}
  {message : Outgoing} {session : Session}

/-- `data ()` points where it did in the message as it was received. -/
theorem dataPtr_of_ahead (ahead : incoming.buffer.Ahead message.buffer position) :
    message.dataPtr position = if incoming.buffer.isInline position then
      incoming.buffer.oolPtr position
    else incoming.buffer.word (incoming.buffer.oolPtr position) := by
  rw [Outgoing.dataPtr, ahead.pointer, ahead.sameItem.inline, ahead.sameItem.oolPtr]

/-- The loop translates the item that it has come to. -/
theorem mem_accesses {access : Access} (within : position < message.buffer.msghSize)
    (enough : 0 < fuel)
    (accessMem : access ∈ itemAccesses translatePortNames position message session) :
    access ∈ accesses translatePortNames fuel position message session := by
  cases fuel with
  | zero => omega
  | succ fuel =>
      rw [accesses, if_pos within]
      exact List.mem_append_left _ accessMem

/-- Behind an item that has been translated the loop goes on. -/
theorem mem_accesses_of_later {next : Outgoing} {left : Session} {access : Access}
    (within : position < message.buffer.msghSize)
    (translated : translateItem translatePortNames position message session = some (next, left))
    (accessMem : access ∈ accesses translatePortNames fuel (message.buffer.advance position) next
      left) :
    access ∈ accesses translatePortNames (fuel + 1) position message session := by
  rw [accesses, if_pos within, translated]
  apply List.mem_append_right
  simp only [(translateItem_sameItem translated).advance]
  exact accessMem

/-- A session in which a name of the other end stands for the name so much above it -/
structure Shifted (distance : Port) (session : Session) : Prop where
  linked : ∀ port, session.names.localPortsByRemote port = some (port + distance)
  receives : ∀ port, session.names.localPortType port = some .receive

/-- What becomes of a number in such a session -/
def shift (distance port : Port) : Port :=
  if port = machPortNull ∨ port = machPortDead then port
  else if port.flagged then ~~~port
  else port + distance

variable {distance : Port} {type : TypeName}

theorem Shifted.translatePort2 (shifted : Shifted distance session) (accepted : type.Accepted)
    (port : Port) : ∃ left, session.translatePort2 port type = some (shift distance port, left) ∧
      Shifted distance left := by
  rw [Session.translatePort2.eq_def, shift]
  split_ifs with isNothing flagged
  · exact ⟨session, rfl, shifted⟩
  · rcases accepted with rfl | rfl
    · refine ⟨_, rfl, shifted.linked, fun other => ?_⟩
      simp only [Names.touchType, shifted.receives, Option.getD_some, Function.update_apply]
      split_ifs <;> rfl
    · exact ⟨session, rfl, shifted⟩
  · rcases accepted with rfl | rfl
    · refine ⟨{ session with task := session.task.makeSend (port + distance) }, ?_, shifted.linked,
        shifted.receives⟩
      simp [Session.translateSend, shifted.linked, shifted.receives]
    · exact ⟨session, by simp [shifted.linked], shifted⟩

theorem Shifted.traverse (shifted : Shifted distance session) (accepted : type.Accepted)
    (ports : List Port) : ∃ left,
      Loop.traverse (fun session port => session.translatePort2 port type) session ports =
        some (ports.map (shift distance), left) ∧ Shifted distance left := by
  induction ports generalizing session with
  | nil => exact ⟨session, rfl, shifted⟩
  | cons port rest ih =>
      rcases shifted.translatePort2 accepted port with ⟨middle, isFirst, middleShifted⟩
      rcases ih middleShifted with ⟨left, isRest, leftShifted⟩
      exact ⟨left, Loop.traverse_cons_iff.mpr ⟨_, _, _, isFirst, isRest, rfl⟩, leftShifted⟩

/-- Every number of an item is rewritten in such a session. -/
theorem Shifted.forEach (shifted : Shifted distance session) (accepted : type.Accepted)
    (buffer : Buffer) (position first : ℕ) (bytes : Buffer) : ∃ final,
      Loop.forEach (Loop.rewriteAt Buffer.port Buffer.putPort fun session port =>
        session.translatePort2 port type) (buffer.slots position first) (bytes, session) =
          some final ∧ Shifted distance final.2 ∧
      ∀ slot ∈ buffer.slots position first,
        final.1.port slot = shift distance (bytes.port slot) := by
  rcases shifted.traverse accepted ((buffer.slots position first).map bytes.port) with
    ⟨left, isTraversed, leftShifted⟩
  have related : Option.Rel _ (Loop.forEach (Loop.rewriteAt Buffer.port Buffer.putPort
      fun session port => session.translatePort2 port type) (buffer.slots position first)
      (bytes, session)) _ :=
    Loop.forEach_rewriteAt (places_slots buffer position first) bytes session
  rw [isTraversed] at related
  generalize Loop.forEach (Loop.rewriteAt Buffer.port Buffer.putPort fun session port =>
    session.translatePort2 port type) (buffer.slots position first) (bytes, session) = done
    at related ⊢
  cases related with
  | @some final _ isRelated =>
      rcases isRelated with ⟨sameSession, ports⟩
      refine ⟨final, rfl, sameSession ▸ leftShifted, ?_⟩
      rw [List.map_map, List.map_inj_left] at ports
      exact ports

/-- Where an item has its ports is rewritten in such a session, all of it. -/
theorem Shifted.itemAccesses_eq (shifted : Shifted distance session)
    (carries : message.buffer.carriesPorts translatePortNames position = true)
    (accepted : (TypeName.ofNumber (message.buffer.name position)).Accepted) :
    itemAccesses translatePortNames position message session =
      .descriptor position (message.buffer.headerSize position) ::
        if message.buffer.isInline position then (message.slots position).map .slot
        else (message.slots position).map (.oolSlot position) := by
  rcases shifted.forEach accepted message.buffer position (message.dataPtr position)
    (message.bytesOf position) with ⟨final, finished, _⟩
  rw [itemAccesses, if_pos carries]
  simp only [Outgoing.slots, rewritten_of_finished finished]

theorem Shifted.translateItem (shifted : Shifted distance session)
    (accepted : message.buffer.carriesPorts translatePortNames position = true →
      (TypeName.ofNumber (message.buffer.name position)).Accepted) : ∃ next left,
    translateItem translatePortNames position message session = some (next, left) ∧
      Shifted distance left ∧
      (message.buffer.carriesPorts translatePortNames position = true →
        message.buffer.isInline position = true →
        ∀ slot ∈ message.slots position,
          next.buffer.port slot = shift distance (message.buffer.port slot)) := by
  rw [translateItem_eq]
  split_ifs with carries
  · rcases shifted.forEach (accepted carries) message.buffer position (message.dataPtr position)
      (message.bytesOf position) with ⟨final, finished, finalShifted, ports⟩
    refine ⟨message.putBytes position final.1, final.2, ?_, finalShifted, fun _ isInline => ?_⟩
    · exact Option.bind_eq_some_iff.mpr ⟨final, finished, rfl⟩
    · simp only [Outgoing.putBytes, isInline, if_true]
      simp only [Outgoing.bytesOf, isInline, if_true] at ports
      exact ports
  · exact ⟨message, session, rfl, shifted, fun isPorts => (carries isPorts).elim⟩

/-- A descriptor of more ports than any message has room for. -/
def hostileDescriptor : Port := 0x1fff0011

theorem hostile_item {buffer : Buffer} (isHostile : buffer.port position = hostileDescriptor) :
    buffer.carriesPorts translatePortNames position = true ∧ buffer.isInline position = true ∧
      buffer.name position = msgTypeMoveSend ∧
      position + 4 + 4 * 4094 ∈ buffer.slots position (buffer.oolPtr position) := by
  have isWord : buffer.word position = 0x1fff0011 := by
    have isSmall := word_lt buffer position
    have same := congrArg BitVec.toNat isHostile
    rw [Buffer.port, BitVec.toNat_ofNat, Nat.mod_eq_of_lt isSmall] at same
    exact same
  have isShort : buffer.isLongform position = false := by
    rw [Buffer.isLongform, isWord]
    decide
  have isName : buffer.name position = msgTypeMoveSend := by
    rw [Buffer.name, isShort, isWord]
    rfl
  have count : buffer.nelems position = 4095 := by
    rw [Buffer.nelems, isShort, isWord]
    rfl
  have isPtr : buffer.oolPtr position = position + 4 := by
    simp [Buffer.oolPtr, Buffer.headerSize, isShort]
  refine ⟨?_, ?_, isName, Buffer.mem_slots.mpr ⟨4094, by omega, by omega⟩⟩
  · rw [Buffer.carriesPorts, isName]
    rfl
  · rw [Buffer.isInline, isWord]
    decide

/-- Such a descriptor leads the loop behind every message. -/
theorem Shifted.hostile_accesses (shifted : Shifted distance session)
    (isHostile : message.buffer.port position = hostileDescriptor) :
    .slot (position + 4 + 4 * 4094) ∈
      itemAccesses translatePortNames position message session := by
  rcases hostile_item isHostile with ⟨carries, isInline, isName, tooFar⟩
  have accepted : (TypeName.ofNumber (message.buffer.name position)).Accepted := by
    rw [isName]
    exact .inl rfl
  rw [shifted.itemAccesses_eq carries accepted, if_pos isInline]
  apply List.mem_cons_of_mem
  apply List.mem_map_of_mem
  rw [Outgoing.slots, Outgoing.dataPtr, if_pos isInline]
  exact tooFar

/-- A name of the other end that becomes such a descriptor -/
theorem shift_hostile {port : Port} (something : port ≠ machPortNull)
    (unflagged : port.flagged = false) :
    shift (hostileDescriptor - port) port = hostileDescriptor := by
  have notDead := Port.not_dead_of_not_flagged unflagged
  rw [shift, if_neg (by simp [something, notDead]), if_neg (by simp [unflagged])]
  exact add_sub_cancel port hostileDescriptor

/-- A number below 2 ^ 31 that is not 0 is a name of the other end. -/
theorem port_of_name {buffer : Buffer} (something : 0 < buffer.word position)
    (small : buffer.word position < 2 ^ 31) :
    buffer.port position ≠ machPortNull ∧ Port.flagged (buffer.port position) = false := by
  have isWord : (buffer.port position).toNat = buffer.word position := by
    rw [Buffer.port, BitVec.toNat_ofNat, Nat.mod_eq_of_lt (word_lt buffer position)]
  constructor
  · intro isNull
    have isZero : (buffer.port position).toNat = 0 := congrArg BitVec.toNat isNull
    omega
  · rw [Port.flagged, BitVec.msb_eq_decide, isWord]
    simpa using small

/-- The ports of an item that run over its data take the place of the next descriptor. -/
theorem Shifted.port_advance (shifted : Shifted distance session)
    (ahead : incoming.buffer.Ahead message.buffer position)
    (carries : incoming.buffer.carriesPorts translatePortNames position = true)
    (isInline : incoming.buffer.isInline position = true)
    (accepted : (TypeName.ofNumber (incoming.buffer.name position)).Accepted)
    (crowded : incoming.buffer.dataSize position < 4 * incoming.buffer.nelems position) :
    ∃ next left,
      Bytewise.translateItem translatePortNames position message session = some (next, left) ∧
      Shifted distance left ∧ next.buffer.port (incoming.buffer.advance position) =
        shift distance (incoming.buffer.port (incoming.buffer.advance position)) := by
  have same := ahead.sameItem
  have isPtr : incoming.buffer.oolPtr position =
    position + incoming.buffer.headerSize position := rfl
  have isNext : incoming.buffer.advance position =
      incoming.buffer.oolPtr position + incoming.buffer.dataSize position := by
    rw [Buffer.advance, if_pos isInline, isPtr, Nat.add_assoc]
  have isMultiple : incoming.buffer.dataSize position =
      4 * (incoming.buffer.dataSize position / 4) := by
    unfold Buffer.dataSize
    dsimp only
    omega
  have isSlot : incoming.buffer.advance position ∈ message.slots position := by
    rw [Outgoing.slots, dataPtr_of_ahead ahead, if_pos isInline, same.slots]
    exact Buffer.mem_slots.mpr ⟨incoming.buffer.dataSize position / 4, by omega, by omega⟩
  have samePort : message.buffer.port (incoming.buffer.advance position) =
      incoming.buffer.port (incoming.buffer.advance position) := by
    have agree : incoming.buffer.Agree message.buffer (incoming.buffer.advance position)
        (incoming.buffer.advance position + 4) :=
      fun index isFrom _ => ahead.ahead index (by omega)
    rw [Buffer.port, Buffer.port, agree.word le_rfl le_rfl]
  rw [← same.name] at accepted
  rcases shifted.translateItem fun _ => accepted with ⟨next, left, translated, leftShifted, ports⟩
  refine ⟨next, left, translated, leftShifted, ?_⟩
  rw [ports (same.carriesPorts _ ▸ carries) (same.inline ▸ isInline) _ isSlot, samePort]

/-- A message with an item that runs over its data can be led out of itself. -/
theorem roomy_of_inside (inBody : headerBytes ≤ position)
    (small : incoming.buffer.msghSize ≤ maxSize)
    (enough : incoming.buffer.msghSize ≤ position + (fuel + 1))
    (carries : incoming.buffer.carriesPorts translatePortNames position = true)
    (isInline : incoming.buffer.isInline position = true)
    (accepted : (TypeName.ofNumber (incoming.buffer.name position)).Accepted)
    (ports : incoming.buffer.oolPtr position + 4 * incoming.buffer.nelems position ≤
      incoming.buffer.msghSize)
    (named : incoming.buffer.dataSize position < 4 * incoming.buffer.nelems position →
      0 < incoming.buffer.word (incoming.buffer.advance position) ∧
        incoming.buffer.word (incoming.buffer.advance position) < 2 ^ 31)
    (inside : ∀ distance, ∃ message session, Shifted distance session ∧
      incoming.buffer.Ahead message.buffer position ∧
      ∀ access ∈ accesses translatePortNames (fuel + 1) position message session,
        access.Inside vacant incoming) :
    4 * incoming.buffer.nelems position ≤ incoming.buffer.dataSize position := by
  by_contra fits
  have crowded : incoming.buffer.dataSize position < 4 * incoming.buffer.nelems position := by omega
  rcases named crowded with ⟨something, unflagged⟩
  rcases port_of_name something unflagged with ⟨notNull, notFlagged⟩
  rcases inside (hostileDescriptor - incoming.buffer.port (incoming.buffer.advance position)) with
    ⟨message, session, shifted, ahead, stays⟩
  rcases shifted.port_advance ahead carries isInline accepted crowded with
    ⟨next, left, translated, leftShifted, isHostile⟩
  rw [shift_hostile notNull notFlagged] at isHostile
  have header := incoming.buffer.headerSize_le position
  have isPtr : incoming.buffer.oolPtr position =
    position + incoming.buffer.headerSize position := rfl
  have isNext : incoming.buffer.advance position =
      incoming.buffer.oolPtr position + incoming.buffer.dataSize position := by
    rw [Buffer.advance, if_pos isInline, isPtr, Nat.add_assoc]
  have sizeSame : next.buffer.msghSize = incoming.buffer.msghSize :=
    (translateItem_msghSize inBody translated).trans ahead.size
  have within : position < message.buffer.msghSize := by
    rw [ahead.size]
    omega
  have written : incoming.buffer.advance position + 4 + 4 * 4094 + 4 ≤
      incoming.buffer.msghSize := by
    apply stays (.slot (incoming.buffer.advance position + 4 + 4 * 4094))
    apply mem_accesses_of_later within translated
    rw [ahead.sameItem.advance]
    exact mem_accesses (by omega) (by omega) (leftShifted.hostile_accesses isHostile)
  have isSmall : incoming.buffer.msghSize ≤ 4096 := small
  omega

/-- What stays inside of an item fits, but for inline ports that run over their data. -/
theorem item_of_inside (shifted : Shifted distance session)
    (ahead : incoming.buffer.Ahead message.buffer position) (sized : Sized incoming)
    (accepted : incoming.buffer.carriesPorts translatePortNames position = true →
      (TypeName.ofNumber (incoming.buffer.name position)).Accepted)
    (inside : ∀ access ∈ itemAccesses translatePortNames position message session,
      access.Inside vacant incoming) :
    position + incoming.buffer.headerSize position ≤ incoming.buffer.msghSize ∧
      (incoming.buffer.carriesPorts translatePortNames position = true →
        if incoming.buffer.isInline position then
          incoming.buffer.oolPtr position + 4 * incoming.buffer.nelems position ≤
            incoming.buffer.msghSize
        else 4 * incoming.buffer.nelems position ≤ incoming.buffer.dataSize position) := by
  have same := ahead.sameItem
  have header := incoming.buffer.headerSize_le position
  have isPtr : incoming.buffer.oolPtr position =
    position + incoming.buffer.headerSize position := rfl
  have descriptor : position + incoming.buffer.headerSize position ≤ incoming.buffer.msghSize := by
    rw [← same.headerSize]
    exact inside (.descriptor _ _) List.mem_cons_self
  refine ⟨descriptor, fun carries => ?_⟩
  have isAccesses : itemAccesses translatePortNames position message session = _ :=
    shifted.itemAccesses_eq (same.carriesPorts _ ▸ carries) (same.name ▸ accepted carries)
  rw [isAccesses, Outgoing.slots, dataPtr_of_ahead ahead, same.inline, same.slots] at inside
  have atSlot : ∀ element < incoming.buffer.nelems position, ∀ {first},
      first + 4 * element ∈ incoming.buffer.slots position first :=
    fun element isElement => Buffer.mem_slots.mpr ⟨element, isElement, rfl⟩
  by_cases none : incoming.buffer.nelems position = 0
  · split_ifs <;> omega
  · split_ifs at inside ⊢ with isInline
    · have last := inside _ (List.mem_cons_of_mem _ (List.mem_map_of_mem
        (atSlot (incoming.buffer.nelems position - 1) (by omega))))
      have isLast : incoming.buffer.oolPtr position +
        4 * (incoming.buffer.nelems position - 1) + 4 ≤ incoming.buffer.msghSize := last
      omega
    · rcases inside _ (List.mem_cons_of_mem _ (List.mem_map_of_mem
        (atSlot (incoming.buffer.nelems position - 1) (by omega)))) with
        ⟨region, regionMem, _, upTo⟩
      rcases inside _ (List.mem_cons_of_mem _ (List.mem_map_of_mem (atSlot 0 (by omega)))) with
        ⟨_, _, isFrom, _⟩
      have length : region.length = incoming.buffer.dataSize position := sized _ regionMem
      omega

/-- The items of a message that stays inside fit, if what goes wrong comes to light. -/
theorem fits_of_inside (inBody : headerBytes ≤ position)
    (small : incoming.buffer.msghSize ≤ maxSize)
    (enough : incoming.buffer.msghSize ≤ position + fuel) (sized : Sized incoming)
    (accepted : ∀ other ∈ incoming.buffer.positions fuel position,
      incoming.buffer.carriesPorts translatePortNames other = true →
        (TypeName.ofNumber (incoming.buffer.name other)).Accepted)
    (named : ∀ other ∈ incoming.buffer.positions fuel position,
      incoming.buffer.carriesPorts translatePortNames other = true →
        incoming.buffer.isInline other = true →
        incoming.buffer.dataSize other < 4 * incoming.buffer.nelems other →
          0 < incoming.buffer.word (incoming.buffer.advance other) ∧
            incoming.buffer.word (incoming.buffer.advance other) < 2 ^ 31)
    (inside : ∀ distance, ∃ message session, Shifted distance session ∧
      incoming.buffer.Ahead message.buffer position ∧
      ∀ access ∈ accesses translatePortNames fuel position message session,
        access.Inside vacant incoming) :
    ∀ other ∈ incoming.buffer.positions fuel position,
      incoming.buffer.Fits translatePortNames other := by
  induction fuel generalizing position with
  | zero => simp [Buffer.positions]
  | succ fuel ih =>
      rw [Buffer.positions] at accepted named ⊢
      split_ifs with within
      · rw [if_pos within] at accepted named
        have thisAccepted := accepted position List.mem_cons_self
        rcases inside 0 with ⟨message, session, shifted, ahead, stays⟩
        rcases item_of_inside shifted ahead sized thisAccepted (fun access accessMem =>
          stays access (mem_accesses (ahead.size ▸ within) (by omega) accessMem)) with
            ⟨descriptor, ports⟩
        have inMessage : incoming.buffer.carriesPorts translatePortNames position = true →
            incoming.buffer.isInline position = true →
            incoming.buffer.oolPtr position + 4 * incoming.buffer.nelems position ≤
              incoming.buffer.msghSize := by
          intro carries isInline
          have fits := ports carries
          rwa [if_pos isInline] at fits
        have roomy : incoming.buffer.carriesPorts translatePortNames position = true →
            4 * incoming.buffer.nelems position ≤ incoming.buffer.dataSize position := by
          intro carries
          by_cases isInline : incoming.buffer.isInline position = true
          · exact roomy_of_inside inBody small enough carries isInline (thisAccepted carries)
              (inMessage carries isInline) (named position List.mem_cons_self carries isInline)
              inside
          · have fits := ports carries
            rwa [if_neg isInline] at fits
        have header := incoming.buffer.headerSize_le position
        have isPtr : incoming.buffer.oolPtr position =
          position + incoming.buffer.headerSize position := rfl
        have isLater := (advance_ge incoming.buffer position).1
        intro other otherMem
        rcases List.mem_cons.mp otherMem with rfl | isRest
        · exact ⟨descriptor, roomy, inMessage⟩
        · refine ih (by omega) (by omega)
            (fun later laterMem => accepted later (List.mem_cons_of_mem _ laterMem))
            (fun later laterMem => named later (List.mem_cons_of_mem _ laterMem)) ?_ other isRest
          -- the session that the item leaves behind is of the same kind
          intro distance
          rcases inside distance with ⟨message, session, shifted, ahead, stays⟩
          have same := ahead.sameItem
          have isAccepted : message.buffer.carriesPorts translatePortNames position = true →
              (TypeName.ofNumber (message.buffer.name position)).Accepted := by
            rw [same.carriesPorts, same.name]
            exact thisAccepted
          rcases shifted.translateItem isAccepted with ⟨next, left, translated, leftShifted, _⟩
          refine ⟨next, left, leftShifted, translateItem_ahead inBody ahead roomy translated, ?_⟩
          intro access accessMem
          rw [← same.advance] at accessMem
          exact stays access (mem_accesses_of_later (ahead.size ▸ within) translated accessMem)
      · simp

/-- A session that has a name for every name of the other end, the name so much above it -/
def shiftedSession (distance : Port) : Session where
  control := machPortNull
  firstPort := machPortNull
  notificationPort := machPortNull
  names :=
    { localPortsByRemote := fun port => some (port + distance)
      remotePortsByLocal := fun port => some (port - distance)
      localPortType := fun _ => some .receive }
  task := { holds := fun _ => { receive := true, noSendersRequest := true }, fresh := [] }

theorem shifted_shiftedSession (distance : Port) : Shifted distance (shiftedSession distance) :=
  ⟨fun _ => rfl, fun _ => rfl⟩

end Walk

end Bytewise

section Received

variable {vacant : Vacant} {incoming : Incoming} {translatePortNames : Bool}

theorem Received.fits (received : Received vacant incoming)
    (telling : incoming.Telling translatePortNames)
    (inside : incoming.StaysInside vacant translatePortNames) :
    incoming.Fits translatePortNames := by
  constructor
  · intro inPlace
    apply Bytewise.fits_of_inside le_rfl received.small (by omega) received.sized
      (telling.accepted inPlace) (telling.name inPlace)
    intro distance
    have stays := inside incoming.buffer (Bytewise.shiftedSession distance)
    rw [Incoming.accesses, if_pos inPlace, Incoming.msg_of_inPlace inPlace,
      if_pos received.isShort] at stays
    exact ⟨_, _, Bytewise.shifted_shiftedSession distance, .refl _ _, stays⟩
  · intro strays
    by_contra hasItem
    have stays := inside incoming.buffer (Bytewise.shiftedSession 0)
    rw [Incoming.accesses, if_neg strays, if_pos (by omega)] at stays
    have within : headerBytes < incoming.msg.msghSize := by omega
    exact stays _ (List.mem_map_of_mem (Bytewise.mem_accesses within (by omega)
      List.mem_cons_self))

end Received

end Hurd.Netmsg
