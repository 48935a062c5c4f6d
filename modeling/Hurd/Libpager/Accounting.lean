import Mathlib.Data.List.Nodup
import Hurd.Libpager.ChangeAttributes

/-!
# Every client is accounted for

However the replies of the clients, the handlers that drop clients and the calls of
`change_attributes` follow each other, a call counts its records, and each record has a client that is
going to reply or a message that is going to be dealt with.
-/

namespace Hurd.Libpager

namespace Attributes

variable {σ : Type} {system next : Attributes σ} {record : OutstandingChangeRequest}

/-- The records of a call -/
def recordsOf (system : Attributes σ) (call : ChangeCall) : List OutstandingChangeRequest :=
  system.requests.filter (·.reply ∈ call.portset)

/-- A reply to the record can still come, or it waits on the port, or it has been received. -/
def Covered (system : Attributes σ) (record : OutstandingChangeRequest) : Prop :=
  (∃ port, system.ports record.reply = some port ∧
      (port.asked = true ∧ record.client ∈ system.clients ∨ 0 < port.messages)) ∨
    ∃ id call, system.calls id = some call ∧ call.received = some record.reply

/-- The records, the ports and the calls fit together. -/
structure Tallied (system : Attributes σ) : Prop where
  distinct : (system.requests.map OutstandingChangeRequest.reply).Nodup
  ported : ∀ record ∈ system.requests, ∃ port, system.ports record.reply = some port
  nodup : ∀ id call, system.calls id = some call → call.portset.Nodup
  counted : ∀ id call, system.calls id = some call →
    call.locksOutstanding = call.portset.length ∧ 0 < call.locksOutstanding
  recorded : ∀ id call reply, system.calls id = some call → reply ∈ call.portset →
    ∃ record ∈ system.requests, record.reply = reply
  apart : ∀ id other call otherCall reply, system.calls id = some call →
    system.calls other = some otherCall → reply ∈ call.portset → reply ∈ otherCall.portset →
      id = other
  received : ∀ id call reply, system.calls id = some call → call.received = some reply →
    reply ∈ call.portset
  covered : ∀ record ∈ system.requests, system.Covered record

/-- Every record belongs to a call. -/
def Belongs (system : Attributes σ) : Prop :=
  ∀ record ∈ system.requests, ∃ id call, system.calls id = some call ∧ record.reply ∈ call.portset

section Ports

theorem complete_of_ne {ports : MachPort → Option ReplyPort} {reply other : MachPort}
    (different : other ≠ reply) : complete ports reply other = ports other :=
  Function.update_of_ne different _ _

/-- A message on some ports -/
theorem foldl_complete (replies : List MachPort) (ports : MachPort → Option ReplyPort)
    {reply : MachPort} {port : ReplyPort} (isPort : ports reply = some port) :
    ∃ next, replies.foldl complete ports reply = some next ∧ next.client = port.client ∧
      next.asked = port.asked ∧ port.messages ≤ next.messages ∧
      (reply ∈ replies → 0 < next.messages) ∧ (reply ∉ replies → next = port) := by
  induction replies generalizing ports port with
  | nil => exact ⟨port, isPort, rfl, rfl, le_rfl, nofun, fun _ => rfl⟩
  | cons first rest ih =>
      by_cases same : reply = first
      · subst same
        have isNext : complete ports reply reply =
            some { port with messages := port.messages + 1 } := by
          simp [complete, isPort]
        rcases ih _ isNext with ⟨next, found, sameClient, sameAsked, more, -, -⟩
        dsimp only at more
        exact ⟨next, found, sameClient, sameAsked, by omega, fun _ => by omega, by simp⟩
      · have isSame := (complete_of_ne same).trans isPort
        rcases ih _ isSame with ⟨next, found, sameClient, sameAsked, more, isTold, notTold⟩
        refine ⟨next, found, sameClient, sameAsked, more, ?_, ?_⟩
        · intro isIn
          exact isTold ((List.mem_cons.mp isIn).resolve_left same)
        · intro notIn
          exact notTold fun isIn => notIn (List.mem_cons_of_mem _ isIn)

end Ports

@[simp]
theorem setPort_self (system : Attributes σ) (reply : MachPort) (port : Option ReplyPort) :
    (system.setPort reply port).ports reply = port :=
  Function.update_self _ _ _

theorem setPort_of_ne {reply other : MachPort} (different : other ≠ reply) (system : Attributes σ)
    (port : Option ReplyPort) : (system.setPort reply port).ports other = system.ports other :=
  Function.update_of_ne different _ _

/-- The record with a reply port is erased. -/
theorem toList_eraseReply {requests : OrdSet OutstandingChangeRequest} (reply : MachPort)
    (distinct : (requests.toList.map OutstandingChangeRequest.reply).Nodup) :
    (eraseReply reply requests).toList = requests.toList.filter (·.reply ≠ reply) := by
  unfold eraseReply
  cases isFound : requests.toList.find? (·.reply = reply) with
  | none =>
      have isNone := List.find?_eq_none.mp isFound
      symm
      exact List.filter_eq_self.mpr fun record isRecord => by simpa using isNone record isRecord
  | some found =>
      have isReply : found.reply = reply := by simpa using List.find?_some isFound
      have isMember := List.mem_of_find?_eq_some isFound
      refine List.filter_congr fun record isRecord => ?_
      have sameReply : record = found ↔ record.reply = reply := by
        constructor
        · rintro rfl
          exact isReply
        · intro same
          exact List.inj_on_of_nodup_map distinct isRecord isMember (same.trans isReply.symm)
      simp [sameReply]

theorem requests_changeCompleted {id : ℕ} {call : ChangeCall} {reply : MachPort}
    (distinct : (system.requests.map OutstandingChangeRequest.reply).Nodup) :
    (system.changeCompleted id call reply).requests =
      system.requests.filter (·.reply ≠ reply) := by
  refine Eq.trans ?_ (toList_eraseReply reply distinct)
  unfold changeCompleted
  dsimp only
  split_ifs <;> rfl

theorem mem_changeCompleted {id : ℕ} {call : ChangeCall} {reply : MachPort}
    (distinct : (system.requests.map OutstandingChangeRequest.reply).Nodup) :
    record ∈ (system.changeCompleted id call reply).requests ↔
      record ∈ system.requests ∧ record.reply ≠ reply := by
  rw [requests_changeCompleted distinct]
  simp

theorem Covered.of_ports (covered : system.Covered record) (sameCalls : next.calls = system.calls)
    (kept : ∀ port, system.ports record.reply = some port →
      (port.asked = true ∧ record.client ∈ system.clients ∨ 0 < port.messages) →
      ∃ now, next.ports record.reply = some now ∧
        (now.asked = true ∧ record.client ∈ next.clients ∨ 0 < now.messages)) :
    next.Covered record := by
  rcases covered with ⟨port, isPort, expected⟩ | ⟨id, call, isCall, isReceived⟩
  · exact .inl (kept port isPort expected)
  · exact .inr ⟨id, call, sameCalls ▸ isCall, isReceived⟩

/-- The requests and the calls are as they were, and the ports still are there. -/
theorem Tallied.of_same (tallied : system.Tallied) (sameRequests : next.requests = system.requests)
    (sameCalls : next.calls = system.calls)
    (ported : ∀ record ∈ system.requests, ∃ port, next.ports record.reply = some port)
    (covered : ∀ record ∈ system.requests, next.Covered record) : next.Tallied where
  distinct := sameRequests ▸ tallied.distinct
  ported := sameRequests ▸ ported
  nodup := sameCalls ▸ tallied.nodup
  counted := sameCalls ▸ tallied.counted
  recorded := sameCalls ▸ sameRequests ▸ tallied.recorded
  apart := sameCalls ▸ tallied.apart
  received := sameCalls ▸ tallied.received
  covered := sameRequests ▸ covered

/-- A handler has had the lock. -/
theorem Tallied.handled [Pagemap σ] {handlers : Threads σ} (tallied : system.Tallied)
    (attends : SharedPager.Attends system.handlers.pager handlers.pager) :
    Tallied { system with
      handlers := handlers
      ports := (completed (handlers.pager.sent.drop system.handlers.pager.sent.length)).foldl
        complete system.ports } := by
  have isSuffix : ∀ {events}, handlers.pager.sent = system.handlers.pager.sent ++ events →
      handlers.pager.sent.drop system.handlers.pager.sent.length = events := by
    intro events isSent
    rw [isSent, List.drop_left]
  have ported : ∀ replies : List MachPort, ∀ record ∈ system.requests,
      ∃ port, replies.foldl complete system.ports record.reply = some port := by
    intro replies record isRecord
    rcases tallied.ported record isRecord with ⟨port, isPort⟩
    rcases foldl_complete replies system.ports isPort with ⟨now, isNow, -⟩
    exact ⟨now, isNow⟩
  cases attends with
  | keeps clients requests silent =>
      rcases silent with ⟨events, isSent, isSilent⟩
      refine tallied.of_same (congrArg OrdSet.toList requests) rfl (ported _) ?_
      intro record isRecord
      refine (tallied.covered record isRecord).of_ports rfl ?_
      intro port isPort expected
      dsimp only
      rw [isSuffix isSent, isSilent]
      exact ⟨port, isPort, expected.imp_left fun isAsked => ⟨isAsked.1, clients _ isAsked.2⟩⟩
  | drops control clients requests answers =>
      rcases answers with ⟨events, isSent, isTold⟩
      refine tallied.of_same (congrArg OrdSet.toList requests) rfl (ported _) ?_
      intro record isRecord
      refine (tallied.covered record isRecord).of_ports rfl ?_
      intro port isPort expected
      dsimp only
      rw [isSuffix isSent, isTold]
      rcases foldl_complete _ system.ports isPort with ⟨now, isNow, -, sameAsked, more, told, -⟩
      refine ⟨now, isNow, ?_⟩
      by_cases isDropped : record.client = control
      · exact .inr (told (List.mem_map.mpr
          ⟨record, List.mem_filter.mpr ⟨isRecord, decide_eq_true isDropped⟩, rfl⟩))
      · rcases expected with ⟨isAsked, isClient⟩ | isQueued
        · refine .inl ⟨sameAsked.trans isAsked, ?_⟩
          have stays : record.client ∈ handlers.pager.clients := by
            rw [clients, OrdSet.mem_erase]
            exact ⟨isClient, isDropped⟩
          exact stays
        · exact .inr (by omega)

/-- A client replies. -/
theorem Tallied.answered {reply : MachPort} {port : ReplyPort} (tallied : system.Tallied)
    (isPort : system.ports reply = some port) :
    Tallied (system.setPort reply
      (some { port with asked := false, messages := port.messages + 1 })) := by
  refine tallied.of_same rfl rfl ?_ ?_
  · intro record isRecord
    by_cases same : record.reply = reply
    · subst same
      exact ⟨_, setPort_self _ _ _⟩
    · rcases tallied.ported record isRecord with ⟨other, isOther⟩
      exact ⟨other, (setPort_of_ne same _ _).trans isOther⟩
  · intro record isRecord
    refine (tallied.covered record isRecord).of_ports rfl ?_
    intro other isOther expected
    by_cases same : record.reply = reply
    · subst same
      exact ⟨_, setPort_self _ _ _, .inr (Nat.succ_pos port.messages)⟩
    · exact ⟨other, (setPort_of_ne same _ _).trans isOther, expected⟩

@[simp]
theorem setCall_self (system : Attributes σ) (id : ℕ) (call : Option ChangeCall) :
    (system.setCall id call).calls id = call :=
  Function.update_self _ _ _

theorem setCall_of_ne {id other : ℕ} (different : other ≠ id) (system : Attributes σ)
    (call : Option ChangeCall) : (system.setCall id call).calls other = system.calls other :=
  Function.update_of_ne different _ _

/-- A call takes a message off the queue of one of its ports. -/
theorem Tallied.receives {id : ℕ} {reply : MachPort} {port : ReplyPort} {call : ChangeCall}
    (tallied : system.Tallied) (isCall : system.calls id = some call)
    (idle : call.received = none) (isOwn : reply ∈ call.portset) :
    Tallied ((system.setPort reply (some { port with messages := port.messages - 1 })).setCall id
      (some { call with received := some reply })) := by
  have waits : ∀ other now, ((system.setPort reply
      (some { port with messages := port.messages - 1 })).setCall id
        (some { call with received := some reply })).calls other = some now →
      ∃ was, system.calls other = some was ∧ now.portset = was.portset ∧
        now.locksOutstanding = was.locksOutstanding ∧
        (now.received = was.received ∨ other = id ∧ now.received = some reply) := by
    intro other now isNow
    by_cases same : other = id
    · subst same
      rw [setCall_self] at isNow
      cases isNow
      exact ⟨call, isCall, rfl, rfl, .inr ⟨rfl, rfl⟩⟩
    · rw [setCall_of_ne same] at isNow
      exact ⟨now, isNow, rfl, rfl, .inl rfl⟩
  refine ⟨tallied.distinct, ?_, ?_, ?_, ?_, ?_, ?_, ?_⟩
  · intro record isRecord
    by_cases same : record.reply = reply
    · subst same
      exact ⟨_, setPort_self _ _ _⟩
    · rcases tallied.ported record isRecord with ⟨other, isOther⟩
      exact ⟨other, (setPort_of_ne same _ _).trans isOther⟩
  · intro other now isNow
    rcases waits other now isNow with ⟨was, isWas, samePorts, -⟩
    rw [samePorts]
    exact tallied.nodup other was isWas
  · intro other now isNow
    rcases waits other now isNow with ⟨was, isWas, samePorts, sameCount, -⟩
    rw [samePorts, sameCount]
    exact tallied.counted other was isWas
  · intro other now own isNow isIn
    rcases waits other now isNow with ⟨was, isWas, samePorts, -⟩
    exact tallied.recorded other was own isWas (samePorts ▸ isIn)
  · intro first second firstCall secondCall own isFirst isSecond firstIn secondIn
    rcases waits first firstCall isFirst with ⟨firstWas, wasFirst, firstPorts, -⟩
    rcases waits second secondCall isSecond with ⟨secondWas, wasSecond, secondPorts, -⟩
    exact tallied.apart first second firstWas secondWas own wasFirst wasSecond (firstPorts ▸ firstIn)
      (secondPorts ▸ secondIn)
  · intro other now own isNow isReceived
    rcases waits other now isNow with ⟨was, isWas, samePorts, -, sameReceived | ⟨isSame, isNew⟩⟩
    · rw [samePorts]
      exact tallied.received other was own isWas (sameReceived ▸ isReceived)
    · subst isSame
      cases isNew.symm.trans isReceived
      cases isCall.symm.trans isWas
      exact samePorts ▸ isOwn
  · intro record isRecord
    by_cases same : record.reply = reply
    · exact .inr ⟨id, _, setCall_self _ _ _, congrArg some same.symm⟩
    · rcases tallied.covered record isRecord with ⟨other, isOther, expected⟩ |
        ⟨other, was, isWas, isReceived⟩
      · exact .inl ⟨other, (setPort_of_ne same _ _).trans isOther, expected⟩
      · refine .inr ⟨other, was, (setCall_of_ne ?_ _ _).trans isWas, isReceived⟩
        rintro rfl
        cases isCall.symm.trans isWas
        cases idle.symm.trans isReceived

/-- The calls after a message has been dealt with -/
theorem calls_changeCompleted {id other : ℕ} {call now : ChangeCall} {reply : MachPort}
    (isNow : (system.changeCompleted id call reply).calls other = some now) :
    other ≠ id ∧ system.calls other = some now ∨
      other = id ∧ call.locksOutstanding - 1 ≠ 0 ∧ now =
        { portset := call.portset.erase reply, locksOutstanding := call.locksOutstanding - 1 } := by
  unfold changeCompleted at isNow
  by_cases same : other = id
  · subst same
    dsimp only at isNow
    split_ifs at isNow with isLast
    · rw [setCall_self] at isNow
      cases isNow
    · rw [setCall_self] at isNow
      cases isNow
      exact .inr ⟨rfl, isLast, rfl⟩
  · refine .inl ⟨same, ?_⟩
    dsimp only at isNow
    split_ifs at isNow
    · exact (setCall_of_ne same _ _).symm.trans isNow
    · exact (setCall_of_ne same _ _).symm.trans isNow

theorem calls_changeCompleted_of_ne {id other : ℕ} {call : ChangeCall} {reply : MachPort}
    (different : other ≠ id) :
    (system.changeCompleted id call reply).calls other = system.calls other := by
  unfold changeCompleted
  dsimp only
  split_ifs
  · exact setCall_of_ne different _ _
  · exact setCall_of_ne different _ _

theorem ports_changeCompleted (system : Attributes σ) (id : ℕ) (call : ChangeCall)
    (reply : MachPort) :
    (system.changeCompleted id call reply).ports = Function.update system.ports reply none := by
  unfold changeCompleted
  dsimp only
  split_ifs <;> rfl

theorem clients_changeCompleted (system : Attributes σ) (id : ℕ) (call : ChangeCall)
    (reply : MachPort) : (system.changeCompleted id call reply).clients = system.clients := by
  unfold changeCompleted
  dsimp only
  split_ifs <;> rfl

/-- A call deals with the message that it has received. -/
theorem Tallied.processed {id : ℕ} {reply : MachPort} {call : ChangeCall} (tallied : system.Tallied)
    (isCall : system.calls id = some call) (isReceived : call.received = some reply) :
    (system.changeCompleted id call reply).Tallied := by
  have isOwn := tallied.received id call reply isCall isReceived
  have isRecord : ∀ {record}, record ∈ (system.changeCompleted id call reply).requests ↔
      record ∈ system.requests ∧ record.reply ≠ reply := mem_changeCompleted tallied.distinct
  -- no other call has the port
  have foreign : ∀ other now, other ≠ id → system.calls other = some now →
      reply ∉ now.portset := by
    intro other now different isNow isIn
    exact different (tallied.apart other id now call reply isNow isCall isIn isOwn)
  have portsKept : ∀ {other}, other ≠ reply →
      (system.changeCompleted id call reply).ports other = system.ports other := by
    intro other different
    rw [ports_changeCompleted]
    exact Function.update_of_ne different _ _
  have waits : ∀ other now, (system.changeCompleted id call reply).calls other = some now →
      ∃ was, system.calls other = some was ∧ now.portset.Nodup ∧
        (∀ own, own ∈ now.portset ↔ own ∈ was.portset ∧ own ≠ reply) := by
    intro other now isNow
    rcases calls_changeCompleted isNow with ⟨different, isSame⟩ | ⟨rfl, -, rfl⟩
    · refine ⟨now, isSame, tallied.nodup other now isSame, ?_⟩
      intro own
      refine ⟨fun isIn => ⟨isIn, ?_⟩, fun isIn => isIn.1⟩
      rintro rfl
      exact foreign other now different isSame isIn
    · have nodup := tallied.nodup other call isCall
      refine ⟨call, isCall, nodup.erase reply, ?_⟩
      intro own
      rw [nodup.mem_erase_iff]
      exact and_comm
  refine ⟨?_, ?_, ?_, ?_, ?_, ?_, ?_, ?_⟩
  · rw [requests_changeCompleted tallied.distinct]
    exact tallied.distinct.sublist (List.filter_sublist.map _)
  · intro record isMember
    rcases isRecord.mp isMember with ⟨wasMember, different⟩
    rcases tallied.ported record wasMember with ⟨port, isPort⟩
    exact ⟨port, (portsKept different).trans isPort⟩
  · intro other now isNow
    rcases waits other now isNow with ⟨-, -, nodup, -⟩
    exact nodup
  · intro other now isNow
    rcases calls_changeCompleted isNow with ⟨-, isSame⟩ | ⟨rfl, isMore, rfl⟩
    · exact tallied.counted other now isSame
    · have counted := tallied.counted other call isCall
      dsimp only
      rw [List.length_erase_of_mem isOwn]
      omega
  · intro other now own isNow isIn
    rcases waits other now isNow with ⟨was, isWas, -, isPort⟩
    rcases (isPort own).mp isIn with ⟨wasIn, different⟩
    rcases tallied.recorded other was own isWas wasIn with ⟨record, wasMember, rfl⟩
    exact ⟨record, isRecord.mpr ⟨wasMember, different⟩, rfl⟩
  · intro first second firstCall secondCall own isFirst isSecond firstIn secondIn
    rcases waits first firstCall isFirst with ⟨firstWas, wasFirst, -, firstPort⟩
    rcases waits second secondCall isSecond with ⟨secondWas, wasSecond, -, secondPort⟩
    exact tallied.apart first second firstWas secondWas own wasFirst wasSecond
      ((firstPort own).mp firstIn).1 ((secondPort own).mp secondIn).1
  · intro other now own isNow nowReceived
    rcases calls_changeCompleted isNow with ⟨-, isSame⟩ | ⟨-, -, rfl⟩
    · exact tallied.received other now own isSame nowReceived
    · cases nowReceived
  · intro record isMember
    rcases isRecord.mp isMember with ⟨wasMember, different⟩
    rcases tallied.covered record wasMember with ⟨port, isPort, expected⟩ |
      ⟨other, was, isWas, wasReceived⟩
    · refine .inl ⟨port, (portsKept different).trans isPort, ?_⟩
      rw [clients_changeCompleted]
      exact expected
    · have isOther : other ≠ id := by
        rintro rfl
        cases isCall.symm.trans isWas
        cases isReceived.symm.trans wasReceived
        exact different rfl
      exact .inr ⟨other, was, (calls_changeCompleted_of_ne isOther).trans isWas, wasReceived⟩

/-- A call that is sending its requests -/
structure Requesting (system : Attributes σ) (call : ChangeCall) : Prop where
  tallied : system.Tallied
  nodup : call.portset.Nodup
  counted : call.locksOutstanding = call.portset.length
  recorded : ∀ reply ∈ call.portset, ∃ record ∈ system.requests, record.reply = reply
  apart : ∀ id other reply, system.calls id = some other → reply ∈ call.portset →
    reply ∉ other.portset
  idle : call.received = none

theorem requests_request (system : Attributes σ) (mayCache : Bool) (copyStrategy : ℕ)
    (client reply : MachPort) :
    (system.request mayCache copyStrategy client reply).requests =
      OrdSet.insertList ⟨client, reply⟩ system.requests := rfl

/-- One client is sent its request. -/
theorem Requesting.request {call : ChangeCall} {mayCache : Bool} {copyStrategy : ℕ}
    {client reply : MachPort} (requesting : system.Requesting call)
    (isFree : system.ports reply = none) (isClient : client ∈ system.clients) :
    (system.request mayCache copyStrategy client reply).Requesting
      { call with
        portset := call.portset ++ [reply]
        locksOutstanding := call.locksOutstanding + 1 } := by
  have tallied := requesting.tallied
  have isNew : ∀ record ∈ system.requests, record.reply ≠ reply := by
    rintro record isRecord rfl
    rcases tallied.ported record isRecord with ⟨port, isPort⟩
    cases isFree.symm.trans isPort
  have isMember : ∀ {record},
      record ∈ (system.request mayCache copyStrategy client reply).requests ↔
        record = ⟨client, reply⟩ ∨ record ∈ system.requests := by
    intro record
    rw [requests_request]
    exact OrdSet.mem_insertList
  have sameCalls : (system.request mayCache copyStrategy client reply).calls = system.calls := rfl
  have isPort : (system.request mayCache copyStrategy client reply).ports reply =
      some { client } := setPort_self _ _ _
  have portsKept : ∀ {other}, other ≠ reply →
      (system.request mayCache copyStrategy client reply).ports other = system.ports other :=
    fun different => setPort_of_ne different _ _
  have unowned : ∀ id other, system.calls id = some other → reply ∉ other.portset := by
    intro id other isOther isIn
    rcases tallied.recorded id other reply isOther isIn with ⟨record, isRecord, isReply⟩
    exact isNew record isRecord isReply
  refine ⟨⟨?_, ?_, tallied.nodup, tallied.counted, ?_, tallied.apart, tallied.received, ?_⟩,
    ?_, ?_, ?_, ?_, requesting.idle⟩
  · have notIn : (⟨client, reply⟩ : OutstandingChangeRequest) ∉ system.requests :=
      fun isIn => isNew _ isIn rfl
    rw [requests_request, ((OrdSet.insertList_perm notIn).map _).nodup_iff, List.map_cons,
      List.nodup_cons]
    refine ⟨?_, tallied.distinct⟩
    intro isIn
    rcases List.mem_map.mp isIn with ⟨record, isRecord, isReply⟩
    exact isNew record isRecord isReply
  · intro record isRecord
    rcases isMember.mp isRecord with rfl | wasRecord
    · exact ⟨_, isPort⟩
    · rcases tallied.ported record wasRecord with ⟨port, wasPort⟩
      exact ⟨port, (portsKept (isNew record wasRecord)).trans wasPort⟩
  · intro id other own isOther isIn
    rcases tallied.recorded id other own isOther isIn with ⟨record, isRecord, isReply⟩
    exact ⟨record, isMember.mpr (.inr isRecord), isReply⟩
  · intro record isRecord
    rcases isMember.mp isRecord with rfl | wasRecord
    · exact .inl ⟨_, isPort, .inl ⟨rfl, isClient⟩⟩
    · refine (tallied.covered record wasRecord).of_ports sameCalls ?_
      intro port wasPort expected
      exact ⟨port, (portsKept (isNew record wasRecord)).trans wasPort, expected⟩
  · rw [List.nodup_append]
    refine ⟨requesting.nodup, by simp, ?_⟩
    intro own isOwn other isOther
    rcases requesting.recorded own isOwn with ⟨record, isRecord, rfl⟩
    rw [List.mem_singleton.mp isOther]
    exact isNew record isRecord
  · simp [requesting.counted]
  · intro own isOwn
    rcases List.mem_append.mp isOwn with wasOwn | isLast
    · rcases requesting.recorded own wasOwn with ⟨record, isRecord, isReply⟩
      exact ⟨record, isMember.mpr (.inr isRecord), isReply⟩
    · rw [List.mem_singleton.mp isLast]
      exact ⟨_, isMember.mpr (.inl rfl), rfl⟩
  · intro id other own isOther isOwn
    rcases List.mem_append.mp isOwn with wasOwn | isLast
    · exact requesting.apart id other own isOther wasOwn
    · rw [List.mem_singleton.mp isLast]
      exact unowned id other isOther

/-- The records that are made for some clients and their reply ports -/
def recordsFor (clients replies : List MachPort) : List OutstandingChangeRequest :=
  List.zipWith OutstandingChangeRequest.mk clients replies

theorem map_client_recordsFor {clients replies : List MachPort}
    (sameLength : clients.length = replies.length) :
    (recordsFor clients replies).map OutstandingChangeRequest.client = clients := by
  induction clients generalizing replies with
  | nil => rfl
  | cons client rest ih =>
      cases replies with
      | nil => cases sameLength
      | cons reply more => exact congrArg (client :: ·) (ih (Nat.succ_inj.mp sameLength))

theorem map_reply_recordsFor {clients replies : List MachPort}
    (sameLength : clients.length = replies.length) :
    (recordsFor clients replies).map OutstandingChangeRequest.reply = replies := by
  induction clients generalizing replies with
  | nil =>
      cases replies with
      | nil => rfl
      | cons => cases sameLength
  | cons client rest ih =>
      cases replies with
      | nil => cases sameLength
      | cons reply more => exact congrArg (reply :: ·) (ih (Nat.succ_inj.mp sameLength))

/-- All the clients are sent their requests. -/
theorem Requesting.each {clients replies : List MachPort} {mayCache : Bool} {copyStrategy : ℕ}
    {state final : Attributes σ × ChangeCall} (requesting : state.1.Requesting state.2)
    (areClients : ∀ client ∈ clients, client ∈ state.1.clients)
    (done : requestEach mayCache copyStrategy clients replies state = some final) :
    final.1.Requesting final.2 ∧ final.1.clients = state.1.clients ∧
      final.1.calls = state.1.calls ∧ clients.length = replies.length ∧
      final.2.portset = state.2.portset ++ replies ∧
      final.1.requests.Perm (recordsFor clients replies ++ state.1.requests) ∧
      (∀ reply port, state.1.ports reply = some port → final.1.ports reply = some port) ∧
      ∀ record ∈ recordsFor clients replies,
        final.1.ports record.reply = some { client := record.client } := by
  induction clients generalizing replies state with
  | nil =>
      cases replies with
      | nil =>
          cases done
          exact ⟨requesting, rfl, rfl, rfl, by simp, .rfl, fun _ _ isPort => isPort, nofun⟩
      | cons => cases done
  | cons client rest ih =>
      rcases state with ⟨system, call⟩
      cases replies with
      | nil => cases done
      | cons reply more =>
          simp only [requestEach] at done
          split_ifs at done with isUsed
          have isFree : system.ports reply = none := by simpa using isUsed
          have isClient := areClients client List.mem_cons_self
          have notIn : (⟨client, reply⟩ : OutstandingChangeRequest) ∉ system.requests := by
            intro isIn
            rcases requesting.tallied.ported _ isIn with ⟨port, isPort⟩
            cases isFree.symm.trans isPort
          rcases @ih more (system.request mayCache copyStrategy client reply, { call with
              portset := call.portset ++ [reply]
              locksOutstanding := call.locksOutstanding + 1 }) (requesting.request isFree isClient)
            (fun other isOther => areClients other (List.mem_cons_of_mem _ isOther)) done with
            ⟨requested, sameClients, sameCalls, sameLength, isPortset, isRequests, portsKept, newPorts⟩
          refine ⟨requested, sameClients, sameCalls, congrArg (· + 1) sameLength, ?_, ?_, ?_, ?_⟩
          · rw [isPortset, List.append_assoc]
            rfl
          · refine isRequests.trans ?_
            rw [requests_request]
            exact ((OrdSet.insertList_perm notIn).append_left _).trans List.perm_middle
          · intro other port isPort
            apply portsKept
            refine (setPort_of_ne ?_ _ _).trans isPort
            rintro rfl
            cases isFree.symm.trans isPort
          · intro record isRecord
            rcases List.mem_cons.mp isRecord with rfl | isLater
            · exact portsKept reply _ (setPort_self _ _ _)
            · exact newPorts record isLater

/-- A new call, before it has sent anything -/
theorem Tallied.requesting (tallied : system.Tallied) :
    system.Requesting { portset := [], locksOutstanding := 0 } :=
  ⟨tallied, List.nodup_nil, rfl, nofun, fun _ _ _ _ isIn => (List.not_mem_nil isIn).elim, rfl⟩

/-- The call waits for its replies. -/
theorem Requesting.waits {id : ℕ} {call : ChangeCall} (requesting : system.Requesting call)
    (isNew : system.calls id = none) (isMore : call.locksOutstanding ≠ 0) :
    (system.setCall id (some call)).Tallied := by
  have tallied := requesting.tallied
  have isCall : ∀ other now, (system.setCall id (some call)).calls other = some now →
      other = id ∧ now = call ∨ other ≠ id ∧ system.calls other = some now := by
    intro other now isNow
    by_cases same : other = id
    · subst same
      rw [setCall_self] at isNow
      cases isNow
      exact .inl ⟨rfl, rfl⟩
    · exact .inr ⟨same, (setCall_of_ne same _ _).symm.trans isNow⟩
  refine ⟨tallied.distinct, tallied.ported, ?_, ?_, ?_, ?_, ?_, ?_⟩
  · intro other now isNow
    rcases isCall other now isNow with ⟨rfl, rfl⟩ | ⟨-, wasCall⟩
    · exact requesting.nodup
    · exact tallied.nodup other now wasCall
  · intro other now isNow
    rcases isCall other now isNow with ⟨rfl, rfl⟩ | ⟨-, wasCall⟩
    · exact ⟨requesting.counted, Nat.pos_of_ne_zero isMore⟩
    · exact tallied.counted other now wasCall
  · intro other now own isNow isIn
    rcases isCall other now isNow with ⟨rfl, rfl⟩ | ⟨-, wasCall⟩
    · exact requesting.recorded own isIn
    · exact tallied.recorded other now own wasCall isIn
  · intro first second firstCall secondCall own isFirst isSecond firstIn secondIn
    rcases isCall first firstCall isFirst with ⟨rfl, rfl⟩ | ⟨-, wasFirst⟩
    · rcases isCall second secondCall isSecond with ⟨rfl, rfl⟩ | ⟨-, wasSecond⟩
      · rfl
      · exact (requesting.apart second secondCall own wasSecond firstIn secondIn).elim
    · rcases isCall second secondCall isSecond with ⟨rfl, rfl⟩ | ⟨-, wasSecond⟩
      · exact (requesting.apart first firstCall own wasFirst secondIn firstIn).elim
      · exact tallied.apart first second firstCall secondCall own wasFirst wasSecond firstIn secondIn
  · intro other now own isNow isReceived
    rcases isCall other now isNow with ⟨rfl, rfl⟩ | ⟨-, wasCall⟩
    · cases requesting.idle.symm.trans isReceived
    · exact tallied.received other now own wasCall isReceived
  · intro record isRecord
    rcases tallied.covered record isRecord with isExpected | ⟨other, was, isWas, isReceived⟩
    · exact .inl isExpected
    · refine .inr ⟨other, was, (setCall_of_ne ?_ _ _).trans isWas, isReceived⟩
      rintro rfl
      cases isNew.symm.trans isWas

/-- What `change_attributes` has done when it waits -/
structure Requested (system : Attributes σ) (id : ℕ) (replies : List MachPort)
    (next : Attributes σ) : Prop where
  tallied : next.Tallied
  requests : next.requests.Perm (recordsFor system.clients.toList replies ++ system.requests)
  length : system.clients.toList.length = replies.length
  calls : ∀ other, other ≠ id → next.calls other = system.calls other
  call : (replies = [] ∧ next.calls id = none) ∨
    replies ≠ [] ∧ ∃ call, next.calls id = some call ∧ call.portset = replies ∧ call.received = none
  clients : next.clients = system.clients
  ports : ∀ reply port, system.ports reply = some port → next.ports reply = some port
  newPorts : ∀ record ∈ recordsFor system.clients.toList replies,
    next.ports record.reply = some { client := record.client }

theorem Tallied.changeAttributes {id : ℕ} {mayCache : Bool} {copyStrategy : ℕ}
    {replies : List MachPort} (tallied : system.Tallied) (isNew : system.calls id = none)
    (done : system.changeAttributes id mayCache copyStrategy true replies = some next) :
    system.Requested id replies next := by
  simp only [Attributes.changeAttributes, if_true] at done
  rcases Option.map_eq_some_iff.mp done with ⟨⟨final, call⟩, requested, rfl⟩
  have started : (system, ({ portset := [], locksOutstanding := 0 } : ChangeCall)).1.Requesting
      (system, ({ portset := [], locksOutstanding := 0 } : ChangeCall)).2 := tallied.requesting
  rcases started.each (fun _ isClient => isClient) requested with
    ⟨requesting, sameClients, sameCalls, sameLength, isPortset, isRequests, portsKept, newPorts⟩
  have stillNew : final.calls id = none := (congrFun sameCalls id).trans isNew
  have counted := requesting.counted
  dsimp only at requesting sameClients sameCalls isPortset isRequests portsKept newPorts counted ⊢
  rw [List.nil_append] at isPortset
  split_ifs with isNone
  · have noReplies : replies = [] := by
      rw [isNone, isPortset] at counted
      exact List.length_eq_zero_iff.mp counted.symm
    exact ⟨requesting.tallied, isRequests, sameLength, fun other _ => congrFun sameCalls other,
      .inl ⟨noReplies, stillNew⟩, sameClients, portsKept, newPorts⟩
  · refine ⟨requesting.waits stillNew isNone, isRequests, sameLength, ?_, ?_, sameClients, portsKept,
      newPorts⟩
    · intro other different
      exact (setCall_of_ne different _ _).trans (congrFun sameCalls other)
    · refine .inr ⟨?_, call, setCall_self _ _ _, isPortset, requesting.idle⟩
      rintro rfl
      rw [isPortset] at counted
      exact isNone counted

theorem Requested.mem_requests {id : ℕ} {replies : List MachPort}
    (requested : system.Requested id replies next) :
    record ∈ next.requests ↔
      record ∈ recordsFor system.clients.toList replies ∨ record ∈ system.requests := by
  rw [requested.requests.mem_iff, List.mem_append]

theorem Requested.reply_mem {id : ℕ} {replies : List MachPort}
    (requested : system.Requested id replies next)
    (isNew : record ∈ recordsFor system.clients.toList replies) : record.reply ∈ replies := by
  have isReply : record.reply ∈ (recordsFor system.clients.toList replies).map
      OutstandingChangeRequest.reply := List.mem_map_of_mem isNew
  rw [map_reply_recordsFor requested.length] at isReply
  exact isReply

/-- A `change_attributes` that does not wait -/
theorem tellEach_frame (mayCache : Bool) (copyStrategy : ℕ) (system : Attributes σ) :
    (system.tellEach mayCache copyStrategy).handlers = system.handlers ∧
      (system.tellEach mayCache copyStrategy).calls = system.calls ∧
      (system.tellEach mayCache copyStrategy).ports = system.ports := by
  have frame : ∀ (clients : List MachPort) (system : Attributes σ),
      (clients.foldl (fun system client => system.tell ⟨client, mayCache, copyStrategy, none⟩)
        system).handlers = system.handlers ∧
      (clients.foldl (fun system client => system.tell ⟨client, mayCache, copyStrategy, none⟩)
        system).calls = system.calls ∧
      (clients.foldl (fun system client => system.tell ⟨client, mayCache, copyStrategy, none⟩)
        system).ports = system.ports := by
    intro clients
    induction clients with
    | nil => exact fun _ => ⟨rfl, rfl, rfl⟩
    | cons client rest ih => exact fun system => ih _
  exact frame system.clients.toList system

theorem Belongs.of_calls (belongs : system.Belongs)
    (sameRequests : next.requests = system.requests)
    (kept : ∀ id call, system.calls id = some call →
      ∃ now, next.calls id = some now ∧ ∀ reply ∈ call.portset, reply ∈ now.portset) :
    next.Belongs := by
  intro record isRecord
  rcases belongs record (sameRequests ▸ isRecord) with ⟨id, call, isCall, isIn⟩
  rcases kept id call isCall with ⟨now, isNow, portsKept⟩
  exact ⟨id, now, isNow, portsKept _ isIn⟩

/-- The record of the message goes, and with the last one the call. -/
theorem Belongs.processed {id : ℕ} {reply : MachPort} {call : ChangeCall} (tallied : system.Tallied)
    (belongs : system.Belongs) (isCall : system.calls id = some call)
    (isReceived : call.received = some reply) :
    (system.changeCompleted id call reply).Belongs := by
  intro record isRecord
  rcases (mem_changeCompleted tallied.distinct).mp isRecord with ⟨wasRecord, different⟩
  rcases belongs record wasRecord with ⟨other, was, isWas, isIn⟩
  by_cases same : other = id
  · subst same
    cases isCall.symm.trans isWas
    have isOwn := tallied.received other call reply isCall isReceived
    have isLeft : record.reply ∈ call.portset.erase reply :=
      (List.mem_erase_of_ne different).mpr isIn
    have isMore : call.locksOutstanding - 1 ≠ 0 := by
      have counted := tallied.counted other call isCall
      have fewer := List.length_erase_of_mem isOwn
      have positive := List.length_pos_of_mem isLeft
      omega
    let now : ChangeCall :=
      { portset := call.portset.erase reply, locksOutstanding := call.locksOutstanding - 1 }
    refine ⟨other, now, ?_, isLeft⟩
    unfold changeCompleted
    dsimp only
    rw [if_neg isMore]
    exact setCall_self _ _ _
  · exact ⟨other, was, (calls_changeCompleted_of_ne same).trans isWas, isIn⟩

theorem Requested.belongs {id : ℕ} {replies : List MachPort} (belongs : system.Belongs)
    (isNew : system.calls id = none) (requested : system.Requested id replies next) :
    next.Belongs := by
  intro record isRecord
  rcases requested.mem_requests.mp isRecord with isOwn | wasRecord
  · have isReply := requested.reply_mem isOwn
    rcases requested.call with ⟨rfl, -⟩ | ⟨-, call, isCall, isPortset, -⟩
    · cases isReply
    · exact ⟨id, call, isCall, isPortset ▸ isReply⟩
  · rcases belongs record wasRecord with ⟨other, call, isCall, isIn⟩
    refine ⟨other, call, (requested.calls other ?_).trans isCall, isIn⟩
    rintro rfl
    cases isNew.symm.trans isCall

/-- What holds wherever the lock is free -/
structure InOrder (system : Attributes σ) : Prop where
  tallied : system.Tallied
  belongs : system.Belongs

theorem InOrder.step [Pagemap σ] {action : Action} (inOrder : system.InOrder)
    (taken : system.step action = some next) : next.InOrder := by
  rcases inOrder with ⟨tallied, belongs⟩
  cases action with
  | handler action =>
      rcases Option.map_eq_some_iff.mp taken with ⟨handlers, stepped, rfl⟩
      have attends := Threads.step_attends stepped
      exact ⟨tallied.handled attends,
        belongs.of_calls (congrArg OrdSet.toList attends.requests) fun id call isCall =>
          ⟨call, isCall, fun _ isIn => isIn⟩⟩
  | call id mayCache copyStrategy sync replies =>
      simp only [Attributes.step] at taken
      split at taken
      · cases taken
      rename_i isNew
      cases sync with
      | true =>
          have requested := tallied.changeAttributes isNew taken
          exact ⟨requested.tallied, requested.belongs belongs isNew⟩
      | false =>
          cases taken
          rcases tellEach_frame mayCache copyStrategy system with ⟨sameHandlers, sameCalls, samePorts⟩
          have sameRequests : (system.tellEach mayCache copyStrategy).requests = system.requests := by
            rw [requests, sameHandlers]
            rfl
          have sameClients : (system.tellEach mayCache copyStrategy).clients = system.clients := by
            rw [clients, sameHandlers]
            rfl
          refine ⟨tallied.of_same sameRequests sameCalls (samePorts ▸ tallied.ported) ?_,
            belongs.of_calls sameRequests ?_⟩
          · intro record isRecord
            refine (tallied.covered record isRecord).of_ports sameCalls ?_
            rw [samePorts, sameClients]
            exact fun port isPort expected => ⟨port, isPort, expected⟩
          · rw [sameCalls]
            exact fun id call isCall => ⟨call, isCall, fun _ isIn => isIn⟩
  | answer reply =>
      rcases Option.bind_eq_some_iff.mp taken with ⟨port, isPort, taken⟩
      split_ifs at taken
      cases taken
      exact ⟨tallied.answered isPort,
        belongs.of_calls rfl fun id call isCall => ⟨call, isCall, fun _ isIn => isIn⟩⟩
  | receive id reply =>
      rcases Option.bind_eq_some_iff.mp taken with ⟨call, isCall, taken⟩
      rcases Option.bind_eq_some_iff.mp taken with ⟨port, isPort, taken⟩
      split_ifs at taken with isReady
      cases taken
      refine ⟨tallied.receives isCall isReady.1 isReady.2.1, belongs.of_calls rfl ?_⟩
      intro other was isWas
      by_cases same : other = id
      · subst same
        cases isCall.symm.trans isWas
        exact ⟨_, setCall_self _ _ _, fun _ isIn => isIn⟩
      · exact ⟨was, (setCall_of_ne same _ _).trans isWas, fun _ isIn => isIn⟩
  | process id =>
      rcases Option.bind_eq_some_iff.mp taken with ⟨call, isCall, taken⟩
      rcases Option.map_eq_some_iff.mp taken with ⟨reply, isReceived, rfl⟩
      exact ⟨tallied.processed isCall isReceived, belongs.processed tallied isCall isReceived⟩

theorem InOrder.run [Pagemap σ] {actions : List Action} (inOrder : system.InOrder)
    (finished : Transition.run Attributes.step actions system = some next) : next.InOrder := by
  induction actions generalizing system with
  | nil =>
      cases finished
      exact inOrder
  | cons action rest ih =>
      rcases Option.bind_eq_some_iff.mp finished with ⟨middle, taken, finished⟩
      exact ih (inOrder.step taken) finished

/-- A call counts its records. -/
theorem Tallied.length_recordsOf {id : ℕ} {call : ChangeCall} (tallied : system.Tallied)
    (isCall : system.calls id = some call) :
    (system.recordsOf call).length = call.locksOutstanding := by
  have isPerm : ((system.recordsOf call).map OutstandingChangeRequest.reply).Perm call.portset := by
    have distinct : ((system.recordsOf call).map OutstandingChangeRequest.reply).Nodup :=
      tallied.distinct.sublist (List.filter_sublist.map _)
    rw [List.perm_ext_iff_of_nodup distinct (tallied.nodup id call isCall)]
    intro reply
    constructor
    · intro isIn
      rcases List.mem_map.mp isIn with ⟨record, isRecord, rfl⟩
      exact of_decide_eq_true (List.mem_filter.mp isRecord).2
    · intro isIn
      rcases tallied.recorded id call reply isCall isIn with ⟨record, isRecord, rfl⟩
      exact List.mem_map.mpr ⟨record, List.mem_filter.mpr ⟨isRecord, decide_eq_true isIn⟩, rfl⟩
  rw [(tallied.counted id call isCall).1, ← isPerm.length_eq, List.length_map]

/-- Nothing has been heard from the client of a record yet. -/
structure Pristine (id : ℕ) (record : OutstandingChangeRequest) (system : Attributes σ) : Prop where
  isRecord : record ∈ system.requests
  port : ∃ port, system.ports record.reply = some port ∧ port.messages = 0
  isClient : record.client ∈ system.clients
  owned : ∃ call, system.calls id = some call ∧ record.reply ∈ call.portset
  notReceived : ∀ other call, system.calls other = some call → call.received ≠ some record.reply

theorem Pristine.handled [Pagemap σ] {id : ℕ} {handlers : Threads σ}
    (distinct : (system.requests.map OutstandingChangeRequest.reply).Nodup)
    (pristine : system.Pristine id record)
    (attends : SharedPager.Attends system.handlers.pager handlers.pager)
    (stillClient : record.client ∈ handlers.pager.clients) :
    Pristine id record { system with
      handlers := handlers
      ports := (completed (handlers.pager.sent.drop system.handlers.pager.sent.length)).foldl
        complete system.ports } := by
  rcases pristine.port with ⟨port, isPort, noMessages⟩
  have untold : record.reply ∉
      completed (handlers.pager.sent.drop system.handlers.pager.sent.length) := by
    cases attends with
    | keeps _ _ silent =>
        rcases silent with ⟨events, isSent, isSilent⟩
        rw [isSent, List.drop_left, isSilent]
        exact List.not_mem_nil
    | drops control clients _ answers =>
        rcases answers with ⟨events, isSent, isTold⟩
        rw [isSent, List.drop_left, isTold]
        intro isIn
        rcases List.mem_map.mp isIn with ⟨other, isOther, sameReply⟩
        rcases List.mem_filter.mp isOther with ⟨otherRecord, otherClient⟩
        have same := List.inj_on_of_nodup_map distinct otherRecord pristine.isRecord sameReply
        subst same
        rw [clients, OrdSet.mem_erase] at stillClient
        exact stillClient.2 (of_decide_eq_true otherClient)
  rcases foldl_complete (completed
      (handlers.pager.sent.drop system.handlers.pager.sent.length)) system.ports isPort with
    ⟨now, isNow, -, -, -, -, isSame⟩
  refine ⟨?_, ⟨now, isNow, ?_⟩, stillClient, pristine.owned, pristine.notReceived⟩
  · have isRecord : record ∈ handlers.pager.outstandingChangeRequests := by
      rw [attends.requests]
      exact pristine.isRecord
    exact isRecord
  · rw [isSame untold]
    exact noMessages

theorem Pristine.requested {id other : ℕ} {replies : List MachPort}
    (pristine : system.Pristine id record) (isNew : system.calls other = none)
    (requested : system.Requested other replies next) : next.Pristine id record := by
  rcases pristine.port with ⟨port, isPort, noMessages⟩
  rcases pristine.owned with ⟨call, isCall, isIn⟩
  refine ⟨requested.mem_requests.mpr (.inr pristine.isRecord),
    ⟨port, requested.ports _ _ isPort, noMessages⟩, requested.clients ▸ pristine.isClient,
    ⟨call, (requested.calls id ?_).trans isCall, isIn⟩, ?_⟩
  · rintro rfl
    cases isNew.symm.trans isCall
  · intro third now isNow
    by_cases same : third = other
    · subst same
      rcases requested.call with ⟨-, isNone⟩ | ⟨-, own, isOwn, -, idle⟩
      · cases isNone.symm.trans isNow
      · cases isOwn.symm.trans isNow
        simp [idle]
    · exact pristine.notReceived third now ((requested.calls third same).symm.trans isNow)

/-- Until the client replies or is dropped, nothing is heard from it. -/
theorem Pristine.step [Pagemap σ] {id : ℕ} {action : Action} (inOrder : system.InOrder)
    (pristine : system.Pristine id record) (taken : system.step action = some next) :
    next.Pristine id record ∨ action = .answer record.reply ∨ record.client ∉ next.clients := by
  have tallied := inOrder.tallied
  rcases pristine.port with ⟨port, isPort, noMessages⟩
  rcases pristine.owned with ⟨call, isCall, isIn⟩
  cases action with
  | handler action =>
      rcases Option.map_eq_some_iff.mp taken with ⟨handlers, stepped, rfl⟩
      by_cases stillClient : record.client ∈ handlers.pager.clients
      · exact .inl (pristine.handled tallied.distinct (Threads.step_attends stepped) stillClient)
      · exact .inr (.inr stillClient)
  | call other mayCache copyStrategy sync replies =>
      refine .inl ?_
      simp only [Attributes.step] at taken
      split at taken
      · cases taken
      rename_i isNew
      cases sync with
      | true => exact pristine.requested isNew (tallied.changeAttributes isNew taken)
      | false =>
          cases taken
          rcases tellEach_frame mayCache copyStrategy system with ⟨sameHandlers, sameCalls, samePorts⟩
          refine ⟨?_, ⟨port, samePorts ▸ isPort, noMessages⟩, ?_, ⟨call, sameCalls ▸ isCall, isIn⟩,
            sameCalls ▸ pristine.notReceived⟩
          · rw [requests, sameHandlers]
            exact pristine.isRecord
          · rw [clients, sameHandlers]
            exact pristine.isClient
  | answer reply =>
      rcases Option.bind_eq_some_iff.mp taken with ⟨own, isOwn, taken⟩
      split_ifs at taken
      cases taken
      by_cases same : record.reply = reply
      · exact .inr (.inl (congrArg _ same.symm))
      · exact .inl ⟨pristine.isRecord, ⟨port, (setPort_of_ne same _ _).trans isPort, noMessages⟩,
          pristine.isClient, ⟨call, isCall, isIn⟩, pristine.notReceived⟩
  | receive other reply =>
      rcases Option.bind_eq_some_iff.mp taken with ⟨was, isWas, taken⟩
      rcases Option.bind_eq_some_iff.mp taken with ⟨own, isOwn, taken⟩
      split_ifs at taken with isReady
      cases taken
      have different : record.reply ≠ reply := by
        rintro rfl
        cases isPort.symm.trans isOwn
        omega
      refine .inl ⟨pristine.isRecord, ⟨port, (setPort_of_ne different _ _).trans isPort, noMessages⟩,
        pristine.isClient, ?_, ?_⟩
      · by_cases same : id = other
        · subst same
          cases isCall.symm.trans isWas
          exact ⟨_, setCall_self _ _ _, isIn⟩
        · exact ⟨call, (setCall_of_ne same _ _).trans isCall, isIn⟩
      · intro third now isNow
        by_cases same : third = other
        · subst same
          rw [setCall_self] at isNow
          cases isNow
          simpa using different.symm
        · exact pristine.notReceived third now ((setCall_of_ne same _ _).symm.trans isNow)
  | process other =>
      rcases Option.bind_eq_some_iff.mp taken with ⟨was, isWas, taken⟩
      rcases Option.map_eq_some_iff.mp taken with ⟨reply, isReceived, rfl⟩
      have different : record.reply ≠ reply := by
        rintro rfl
        exact pristine.notReceived other was isWas isReceived
      have isRecord : record ∈ (system.changeCompleted other was reply).requests :=
        (mem_changeCompleted tallied.distinct).mpr ⟨pristine.isRecord, different⟩
      refine .inl ⟨isRecord, ⟨port, ?_, noMessages⟩, ?_, ?_, ?_⟩
      · rw [ports_changeCompleted]
        exact (Function.update_of_ne different _ _).trans isPort
      · rw [clients_changeCompleted]
        exact pristine.isClient
      · rcases inOrder.belongs.processed tallied isWas isReceived record isRecord with
          ⟨third, now, isNow, isStill⟩
        -- the record's call is the one that it was
        have isSame : third = id := by
          rcases calls_changeCompleted isNow with ⟨-, wasNow⟩ | ⟨rfl, -, rfl⟩
          · exact tallied.apart third id now call record.reply wasNow isCall isStill isIn
          · exact tallied.apart third id was call record.reply isWas isCall
              (List.mem_of_mem_erase isStill) isIn
        exact ⟨now, isSame ▸ isNow, isStill⟩
      · intro third now isNow
        rcases calls_changeCompleted isNow with ⟨-, wasNow⟩ | ⟨-, -, rfl⟩
        · exact pristine.notReceived third now wasNow
        · nofun

/-- While it has its record, a client replies, or it is dropped. -/
inductive Excused [Pagemap σ] (record : OutstandingChangeRequest) :
    Attributes σ → List Action → Prop
  | answers {system next : Attributes σ} {rest : List Action}
      (taken : system.step (.answer record.reply) = some next) :
      Excused record system (.answer record.reply :: rest)
  | dropped {system next : Attributes σ} {action : Action} {rest : List Action}
      (taken : system.step action = some next) (isGone : record.client ∉ next.clients) :
      Excused record system (action :: rest)
  | later {system next : Attributes σ} {action : Action} {rest : List Action}
      (taken : system.step action = some next) (isRecord : record ∈ next.requests)
      (excused : Excused record next rest) : Excused record system (action :: rest)

/-- The call still waits for the client, unless that has replied or has been dropped. -/
theorem Pristine.run [Pagemap σ] {id : ℕ} {actions : List Action} (inOrder : system.InOrder)
    (pristine : system.Pristine id record)
    (finished : Transition.run Attributes.step actions system = some next) :
    next.Pristine id record ∨ Excused record system actions := by
  induction actions generalizing system with
  | nil =>
      cases finished
      exact .inl pristine
  | cons action rest ih =>
      rcases Option.bind_eq_some_iff.mp finished with ⟨middle, taken, finished⟩
      rcases pristine.step inOrder taken with stillPristine | rfl | isGone
      · rcases ih (inOrder.step taken) stillPristine finished with lastPristine | excused
        · exact .inl lastPristine
        · exact .inr (.later taken stillPristine.isRecord excused)
      · exact .inr (.answers taken)
      · exact .inr (.dropped taken isGone)

/-- No attribute change has been asked for yet. -/
structure Fresh (system : Attributes σ) : Prop where
  requests : system.requests = []
  calls : ∀ id, system.calls id = none
  ports : ∀ reply, system.ports reply = none

theorem Fresh.inOrder (fresh : system.Fresh) : system.InOrder := by
  have noRecord : ∀ record, record ∉ system.requests := by
    rw [fresh.requests]
    exact fun _ => List.not_mem_nil
  have noCall : ∀ {id call}, system.calls id ≠ some call := by
    intro id call isCall
    cases (fresh.calls id).symm.trans isCall
  refine ⟨⟨?_, ?_, ?_, ?_, ?_, ?_, ?_, ?_⟩, ?_⟩
  · rw [fresh.requests]
    exact List.nodup_nil
  · exact fun record isRecord => (noRecord record isRecord).elim
  · exact fun _ _ isCall => (noCall isCall).elim
  · exact fun _ _ isCall => (noCall isCall).elim
  · exact fun _ _ _ isCall => (noCall isCall).elim
  · exact fun _ _ _ _ _ isCall => (noCall isCall).elim
  · exact fun _ _ _ isCall => (noCall isCall).elim
  · exact fun record isRecord => (noRecord record isRecord).elim
  · exact fun record isRecord => (noRecord record isRecord).elim

theorem mem_recordsOf {call : ChangeCall} :
    record ∈ system.recordsOf call ↔ record ∈ system.requests ∧ record.reply ∈ call.portset := by
  simp [recordsOf]

/-- The records of a new call are those that it has made. -/
theorem Requested.recordsOf_perm {id : ℕ} {replies : List MachPort} {call : ChangeCall}
    (requested : system.Requested id replies next) (isPortset : call.portset = replies) :
    (next.recordsOf call).Perm (recordsFor system.clients.toList replies) := by
  have distinct := requested.tallied.distinct
  rw [(requested.requests.map _).nodup_iff, List.map_append, List.nodup_append] at distinct
  have isOld : ∀ record ∈ system.requests, record.reply ∉ replies := by
    intro record isRecord isReply
    have isNew : record.reply ∈ (recordsFor system.clients.toList replies).map
        OutstandingChangeRequest.reply := by
      rw [map_reply_recordsFor requested.length]
      exact isReply
    exact distinct.2.2 _ isNew _ (List.mem_map_of_mem isRecord) rfl
  have allNew : (recordsFor system.clients.toList replies).filter (·.reply ∈ replies) =
      recordsFor system.clients.toList replies := by
    apply List.filter_eq_self.mpr
    intro record isRecord
    exact decide_eq_true (requested.reply_mem isRecord)
  have noneOld : system.requests.filter (·.reply ∈ replies) = [] := by
    apply List.filter_eq_nil_iff.mpr
    intro record isRecord
    simpa using isOld record isRecord
  rw [Attributes.recordsOf, isPortset]
  refine (requested.requests.filter _).trans ?_
  rw [List.filter_append, allNew, noneOld, List.append_nil]

/-- The clients of a new call have not been heard from. -/
theorem Requested.pristine {id : ℕ} {replies : List MachPort} {call : ChangeCall}
    (requested : system.Requested id replies next)
    (isCall : next.calls id = some call) (isRecord : record ∈ next.recordsOf call) :
    next.Pristine id record := by
  rcases requested.call with ⟨-, isNone⟩ | ⟨-, own, isOwn, isPortset, idle⟩
  · cases isNone.symm.trans isCall
  cases isOwn.symm.trans isCall
  have isNew : record ∈ recordsFor system.clients.toList replies :=
    (requested.recordsOf_perm isPortset).mem_iff.mp isRecord
  rcases mem_recordsOf.mp isRecord with ⟨isMember, isIn⟩
  have isClient : record.client ∈ system.clients := by
    have isMapped : record.client ∈ (recordsFor system.clients.toList replies).map
        OutstandingChangeRequest.client := List.mem_map_of_mem isNew
    rw [map_client_recordsFor requested.length] at isMapped
    exact isMapped
  refine ⟨isMember, ⟨_, requested.newPorts record isNew, rfl⟩, requested.clients ▸ isClient,
    ⟨call, isCall, isIn⟩, ?_⟩
  intro other now isNow isReceived
  have nowOwns := requested.tallied.received other now _ isNow isReceived
  have same := requested.tallied.apart other id now call _ isNow isCall nowOwns isIn
  subst same
  cases isCall.symm.trans isNow
  cases idle.symm.trans isReceived

/-- The records of the call that a thread is in -/
def recordsAt (system : Attributes σ) (id : ℕ) : List OutstandingChangeRequest :=
  match system.calls id with
  | some call => system.recordsOf call
  | none => []

theorem recordsAt_of_call {id : ℕ} {call : ChangeCall} (isCall : system.calls id = some call) :
    system.recordsAt id = system.recordsOf call := by
  rw [recordsAt, isCall]

theorem recordsAt_of_none {id : ℕ} (isNone : system.calls id = none) :
    system.recordsAt id = [] := by
  rw [recordsAt, isNone]

/-- A record that goes from a list of records -/
theorem perm_cons_of_reply {before after : List OutstandingChangeRequest}
    (distinct : (before.map OutstandingChangeRequest.reply).Nodup)
    (afterDistinct : (after.map OutstandingChangeRequest.reply).Nodup) (isRecord : record ∈ before)
    (isMember : ∀ other, other ∈ after ↔ other ∈ before ∧ other.reply ≠ record.reply) :
    before.Perm (record :: after) := by
  have notIn : record ∉ after := fun isIn => ((isMember record).mp isIn).2 rfl
  rw [List.perm_ext_iff_of_nodup (.of_map _ distinct)
    (List.nodup_cons.mpr ⟨notIn, .of_map _ afterDistinct⟩)]
  intro other
  rw [List.mem_cons, isMember]
  constructor
  · intro isIn
    by_cases sameReply : other.reply = record.reply
    · exact .inl (List.inj_on_of_nodup_map distinct isIn isRecord sameReply)
    · exact .inr ⟨isIn, sameReply⟩
  · rintro (rfl | ⟨isIn, -⟩)
    · exact isRecord
    · exact isIn

/-- What is left of a call when one of its messages has been dealt with -/
theorem mem_recordsAt_changeCompleted {id : ℕ} {call : ChangeCall} {reply : MachPort}
    (tallied : system.Tallied) (isCall : system.calls id = some call)
    (isReceived : call.received = some reply) :
    record ∈ (system.changeCompleted id call reply).recordsAt id ↔
      record ∈ system.recordsOf call ∧ record.reply ≠ reply := by
  have isOwn := tallied.received id call reply isCall isReceived
  have counted := tallied.counted id call isCall
  have fewer := List.length_erase_of_mem isOwn
  have isLeft : ∀ own, own ∈ call.portset.erase reply ↔ own ≠ reply ∧ own ∈ call.portset :=
    fun own => (tallied.nodup id call isCall).mem_erase_iff
  rw [mem_recordsOf]
  by_cases isLast : call.locksOutstanding - 1 = 0
  · have isDone : (system.changeCompleted id call reply).calls id = none := by
      unfold changeCompleted
      dsimp only
      rw [if_pos isLast]
      exact setCall_self _ _ _
    have noPorts : call.portset.erase reply = [] :=
      List.length_eq_zero_iff.mp (by omega)
    rw [recordsAt_of_none isDone]
    constructor
    · intro isIn
      cases isIn
    · rintro ⟨⟨-, isIn⟩, different⟩
      have stays := (isLeft record.reply).mpr ⟨different, isIn⟩
      rw [noPorts] at stays
      cases stays
  · let now : ChangeCall :=
      { portset := call.portset.erase reply, locksOutstanding := call.locksOutstanding - 1 }
    have isNow : (system.changeCompleted id call reply).calls id = some now := by
      unfold changeCompleted
      dsimp only
      rw [if_neg isLast]
      exact setCall_self _ _ _
    rw [recordsAt_of_call isNow, mem_recordsOf, mem_changeCompleted tallied.distinct]
    dsimp only [now]
    rw [isLeft]
    tauto

/-- Every client that a call has addressed is accounted for once. -/
structure AccountsForAll [Pagemap σ] (start : Attributes σ) (actions : List Action)
    (final : Attributes σ) : Prop where
  /-- A call that waits counts its records, -/
  counted : ∀ id call, final.calls id = some call →
    0 < call.locksOutstanding ∧ call.locksOutstanding = (final.recordsAt id).length
  /-- each of which has a client, a message on the queue, or a message that has been received. -/
  expected : ∀ id call record, final.calls id = some call → record ∈ final.recordsAt id →
    record.client ∈ final.clients ∨
      (∃ port, final.ports record.reply = some port ∧ 0 < port.messages) ∨
        call.received = some record.reply
  /-- There are no records but those of the calls that wait. -/
  noneLeft : ∀ record ∈ final.requests, ∃ id, record ∈ final.recordsAt id ∧
    ∀ other, record ∈ final.recordsAt other → other = id
  /-- A call has a record for every client, -/
  addressed : ∀ before id mayCache copyStrategy replies seen,
    actions = before ++ [.call id mayCache copyStrategy true replies] →
    Transition.run Attributes.step before start = some seen →
      ((final.recordsAt id).map OutstandingChangeRequest.client).Perm seen.clients.toList
  /-- of which it loses one with every message that it deals with, and the port with it, -/
  once : ∀ before id seen, actions = before ++ [.process id] →
    Transition.run Attributes.step before start = some seen →
      ∃ record, (seen.recordsAt id).Perm (record :: final.recordsAt id) ∧
        seen.requests.Perm (record :: final.requests) ∧
        (seen.calls id).bind ChangeCall.received = some record.reply ∧
        final.ports record.reply = none
  /-- and it returns when each of these clients has replied or has been dropped. -/
  returned : ∀ before id mayCache copyStrategy replies asked after,
    actions = before ++ .call id mayCache copyStrategy true replies :: after →
    Transition.run Attributes.step (before ++ [.call id mayCache copyStrategy true replies]) start =
      some asked → final.calls id = none →
      ∀ record ∈ asked.recordsAt id, Excused record asked after

/-- A new call, as the last step of a run -/
theorem InOrder.requested [Pagemap σ] {before : List Action} {id : ℕ} {mayCache : Bool}
    {copyStrategy : ℕ} {replies : List MachPort} {start seen : Attributes σ}
    (inOrder : start.InOrder) (isSeen : Transition.run Attributes.step before start = some seen)
    (finished : Transition.run Attributes.step
      (before ++ [.call id mayCache copyStrategy true replies]) start = some next) :
    seen.Requested id replies next := by
  have tallied := (inOrder.run isSeen).tallied
  have taken := Transition.run_concat isSeen finished
  simp only [Attributes.step] at taken
  split at taken
  · cases taken
  · rename_i isNew
    exact tallied.changeAttributes isNew taken

theorem accountsForAll_of_fresh [Pagemap σ] {start final : Attributes σ} {actions : List Action}
    (fresh : start.Fresh) (finished : Transition.run Attributes.step actions start = some final) :
    AccountsForAll start actions final := by
  have started := fresh.inOrder
  rcases started.run finished with ⟨tallied, belongs⟩
  refine ⟨?_, ?_, ?_, ?_, ?_, ?_⟩
  · intro id call isCall
    rw [recordsAt_of_call isCall]
    exact ⟨(tallied.counted id call isCall).2, (tallied.length_recordsOf isCall).symm⟩
  · intro id call record isCall isRecord
    rw [recordsAt_of_call isCall, mem_recordsOf] at isRecord
    rcases tallied.covered record isRecord.1 with ⟨port, isPort, isAsked | isQueued⟩ |
      ⟨other, otherCall, isOther, isReceived⟩
    · exact .inl isAsked.2
    · exact .inr (.inl ⟨port, isPort, isQueued⟩)
    · have otherOwns := tallied.received other otherCall _ isOther isReceived
      have same := tallied.apart other id otherCall call _ isOther isCall otherOwns isRecord.2
      subst same
      cases isCall.symm.trans isOther
      exact .inr (.inr isReceived)
  · intro record isRecord
    rcases belongs record isRecord with ⟨id, call, isCall, isIn⟩
    refine ⟨id, ?_, ?_⟩
    · rw [recordsAt_of_call isCall, mem_recordsOf]
      exact ⟨isRecord, isIn⟩
    · intro other isOther
      unfold recordsAt at isOther
      split at isOther
      · rename_i otherCall isOtherCall
        exact tallied.apart other id otherCall call _ isOtherCall isCall (mem_recordsOf.mp isOther).2 isIn
      · cases isOther
  · rintro before id mayCache copyStrategy replies seen rfl isSeen
    have requested := started.requested isSeen finished
    rcases requested.call with ⟨noReplies, isNone⟩ | ⟨-, call, isCall, isPortset, -⟩
    · have noClients : seen.clients.toList = [] := by
        have sameLength := requested.length
        rw [noReplies] at sameLength
        exact List.length_eq_zero_iff.mp sameLength
      rw [recordsAt_of_none isNone, noClients]
      exact .nil
    · rw [recordsAt_of_call isCall]
      have isPerm := (requested.recordsOf_perm isPortset).map OutstandingChangeRequest.client
      rw [map_client_recordsFor requested.length] at isPerm
      exact isPerm
  · rintro before id seen rfl isSeen
    rcases started.run isSeen with ⟨seenTallied, -⟩
    have taken := Transition.run_concat isSeen finished
    rcases Option.bind_eq_some_iff.mp taken with ⟨call, isCall, taken⟩
    rcases Option.map_eq_some_iff.mp taken with ⟨reply, isReceived, rfl⟩
    have isOwn := seenTallied.received id call reply isCall isReceived
    rcases seenTallied.recorded id call reply isCall isOwn with ⟨record, isRecord, rfl⟩
    have isMember : record ∈ seen.recordsOf call := mem_recordsOf.mpr ⟨isRecord, isOwn⟩
    refine ⟨record, ?_, ?_, ?_, ?_⟩
    · rw [recordsAt_of_call isCall]
      refine perm_cons_of_reply (seenTallied.distinct.sublist (List.filter_sublist.map _)) ?_ isMember
        (fun _ => mem_recordsAt_changeCompleted seenTallied isCall isReceived)
      refine tallied.distinct.sublist (.map _ ?_)
      unfold recordsAt
      split
      · exact List.filter_sublist
      · exact List.nil_sublist _
    · exact perm_cons_of_reply seenTallied.distinct tallied.distinct isRecord
        (fun _ => mem_changeCompleted seenTallied.distinct)
    · rw [isCall]
      exact isReceived
    · rw [ports_changeCompleted]
      exact Function.update_self _ _ _
  · rintro before id mayCache copyStrategy replies asked after rfl isAsked isNone record isRecord
    have isSplit : before ++ Action.call id mayCache copyStrategy true replies :: after =
        (before ++ [.call id mayCache copyStrategy true replies]) ++ after := by simp
    rw [isSplit, Transition.run_append, isAsked] at finished
    have askedRun := isAsked
    rw [Transition.run_append] at askedRun
    rcases Option.bind_eq_some_iff.mp askedRun with ⟨seen, isSeen, -⟩
    have requested := started.requested isSeen isAsked
    unfold recordsAt at isRecord
    split at isRecord
    · rename_i call isCall
      rcases (requested.pristine isCall isRecord).run (started.run isAsked) finished with
        stillPristine | excused
      · rcases stillPristine.owned with ⟨own, isOwn, -⟩
        cases isNone.symm.trans isOwn
      · exact excused
    · cases isRecord

/-- A pager as its constructor leaves it -/
def create (pageSize : ℕ) (pageSize_pos : 0 < pageSize) (mayCache : Bool) (copyStrategy : ℕ)
    (notifyOnEvict : Bool) : Attributes Interned where
  handlers :=
    { pager := { pageSize, pageSize_pos, mayCache, copyStrategy, notifyOnEvict, pagemap := {} } }

/-- A client replies and dies before its reply has been taken, and another is dropped. -/
def repliesTwice : List Action :=
  [.handler (.start 0 (.objectInit 1 4096) fun _ => false),
    .handler (.start 0 (.objectInit 2 4096) fun _ => false), .call 0 true 0 true [7, 8],
    .answer 7, .handler (.start 0 (.deadName 1) fun _ => false), .receive 0 7, .process 0,
    .handler (.start 0 (.objectTerminate 2) fun _ => false), .receive 0 8, .process 0]

theorem repliesTwice_accountsForAll : ∃ final,
    Transition.run Attributes.step repliesTwice (create 4096 (by decide) true 0 false) = some final ∧
      final.calls 0 = none ∧
      AccountsForAll (create 4096 (by decide) true 0 false) repliesTwice final := by
  have returns : (Transition.run Attributes.step repliesTwice
      (create 4096 (by decide) true 0 false)).map (fun final => (final.calls 0).isSome) =
        some false := rfl
  rcases Option.map_eq_some_iff.mp returns with ⟨final, finished, notWaiting⟩
  refine ⟨final, finished, by simpa using notWaiting, accountsForAll_of_fresh ?_ finished⟩
  exact ⟨rfl, fun _ => rfl, fun _ => rfl⟩

end Attributes

end Hurd.Libpager
