import Hurd.Lib.Inverse
import Hurd.Lib.Transition
import Hurd.Netmsg.Steps

/-!
# The maps of a session stay consistent

`local_ports_by_remote` and `remote_ports_by_local` are inverse to each other, so are the two
send-once maps, every proxy is in `local_port_type`, and no key that names a remote port is
`MACH_PORT_NULL` or has the high bit set.  While a DEAD NAME notification is handled the dead
name is a proxy that is no longer in `local_port_type`; outside of that the exception is
`MACH_PORT_NULL`, which is never a proxy.

The rights of the task may change in any way between two calls.
-/

namespace Hurd.Netmsg

namespace Names

/-- The maps are consistent, but for the type of one port. -/
structure ConsistentBut (dying : Port) (names : Names) : Prop where
  inverse : Maps.Inverse names.localPortsByRemote names.remotePortsByLocal
  typed : ∀ port, port ≠ dying → names.remotePortsByLocal port ≠ none →
    names.localPortType port ≠ none
  inverseOnce : Maps.Inverse names.sendOncePortsByRemote names.sendOncePortsByLocal
  remote : ∀ port, names.localPortsByRemote port ≠ none → port ≠ machPortNull ∧ port.flagged = false
  remoteOnce : ∀ port, names.sendOncePortsByRemote port ≠ none →
    port ≠ machPortNull ∧ port.flagged = false
  notNull : names.remotePortsByLocal machPortNull = none

/-- The maps are consistent. -/
structure Consistent (names : Names) : Prop where
  inverse : Maps.Inverse names.localPortsByRemote names.remotePortsByLocal
  typed : ∀ port, names.remotePortsByLocal port ≠ none → names.localPortType port ≠ none
  inverseOnce : Maps.Inverse names.sendOncePortsByRemote names.sendOncePortsByLocal
  remote : ∀ port, names.localPortsByRemote port ≠ none → port ≠ machPortNull ∧ port.flagged = false
  remoteOnce : ∀ port, names.sendOncePortsByRemote port ≠ none →
    port ≠ machPortNull ∧ port.flagged = false

/-- The maps know a name of the task. -/
def Contains (names : Names) (port : Port) : Prop :=
  names.remotePortsByLocal port ≠ none ∨ names.localPortType port ≠ none ∨
    names.sendOncePortsByLocal port ≠ none

/-- The name is neither a proxy nor the receive right behind a send-once right. -/
def Unmapped (names : Names) (port : Port) : Prop :=
  names.remotePortsByLocal port = none ∧ names.sendOncePortsByLocal port = none

variable {names next : Names} {dying port word remote : Port} {type : TypeName}
  {fresh rest : List Port}

theorem ConsistentBut.consistent (isConsistent : names.ConsistentBut machPortNull) :
    names.Consistent where
  inverse := isConsistent.inverse
  typed port linked := by
    apply isConsistent.typed port _ linked
    rintro rfl
    exact linked isConsistent.notNull
  inverseOnce := isConsistent.inverseOnce
  remote := isConsistent.remote
  remoteOnce := isConsistent.remoteOnce

/-- A type may be given to any port. -/
theorem ConsistentBut.setType (isConsistent : names.ConsistentBut dying) (port : Port)
    (type : LocalType) : (names.setType port type).ConsistentBut dying where
  inverse := isConsistent.inverse
  typed other notDying linked := by
    by_cases same : other = port
    · subst same
      simp [Names.setType]
    · simp only [Names.setType, Function.update_of_ne same]
      exact isConsistent.typed other notDying linked
  inverseOnce := isConsistent.inverseOnce
  remote := isConsistent.remote
  remoteOnce := isConsistent.remoteOnce
  notNull := isConsistent.notNull

theorem ConsistentBut.touchType (isConsistent : names.ConsistentBut dying) (port : Port) :
    (names.touchType port).ConsistentBut dying :=
  isConsistent.setType port ((names.localPortType port).getD .unset)

/-- A new proxy is made for a name of the other end that is not known. -/
theorem ConsistentBut.link (isConsistent : names.ConsistentBut dying) {type : LocalType}
    (notNull : port ≠ machPortNull) (unmapped : names.Unmapped port) (unflagged : remote.flagged = false)
    (remoteNotNull : remote ≠ machPortNull) (unknown : names.localPortsByRemote remote = none) :
    (names.link remote port type).ConsistentBut dying where
  inverse := isConsistent.inverse.insert unknown unmapped.1
  typed other notDying linked := by
    by_cases same : other = port
    · subst same
      simp [Names.link]
    · simp only [Names.link, Function.update_of_ne same] at linked ⊢
      exact isConsistent.typed other notDying linked
  inverseOnce := isConsistent.inverseOnce
  remote other known := by
    by_cases same : other = remote
    · subst same
      exact ⟨remoteNotNull, unflagged⟩
    · simp only [Names.link, Function.update_of_ne same] at known
      exact isConsistent.remote other known
  remoteOnce := isConsistent.remoteOnce
  notNull := by
    simp only [Names.link, Function.update_of_ne (Ne.symm notNull)]
    exact isConsistent.notNull

/-- A new receive right is made for a send-once right that is not known. -/
theorem ConsistentBut.linkOnce (isConsistent : names.ConsistentBut dying)
    (unmapped : names.Unmapped port) (unflagged : remote.flagged = false)
    (remoteNotNull : remote ≠ machPortNull) (unknown : names.sendOncePortsByRemote remote = none) :
    (names.linkOnce remote port).ConsistentBut dying where
  inverse := isConsistent.inverse
  typed := isConsistent.typed
  inverseOnce := isConsistent.inverseOnce.insert unknown unmapped.2
  remote := isConsistent.remote
  remoteOnce other known := by
    by_cases same : other = remote
    · subst same
      exact ⟨remoteNotNull, unflagged⟩
    · simp only [Names.linkOnce, Function.update_of_ne same] at known
      exact isConsistent.remoteOnce other known
  notNull := isConsistent.notNull

theorem ConsistentBut.unlinkOnce (isConsistent : names.ConsistentBut dying)
    (paired : names.sendOncePortsByLocal port = some remote) :
    (names.unlinkOnce remote port).ConsistentBut dying where
  inverse := isConsistent.inverse
  typed := isConsistent.typed
  inverseOnce := isConsistent.inverseOnce.erase paired
  remote := isConsistent.remote
  remoteOnce other known := by
    by_cases same : other = remote
    · subst same
      simp [Names.unlinkOnce] at known
    · simp only [Names.unlinkOnce, Function.update_of_ne same] at known
      exact isConsistent.remoteOnce other known
  notNull := isConsistent.notNull

/-- A type may be erased of the port that is dying, or of one that is no proxy. -/
theorem ConsistentBut.eraseType (isConsistent : names.ConsistentBut machPortNull) (port : Port) :
    (names.eraseType port).ConsistentBut port where
  inverse := isConsistent.inverse
  typed other notDying linked := by
    simp only [Names.eraseType, Function.update_of_ne notDying]
    apply isConsistent.typed other _ linked
    rintro rfl
    exact linked isConsistent.notNull
  inverseOnce := isConsistent.inverseOnce
  remote := isConsistent.remote
  remoteOnce := isConsistent.remoteOnce
  notNull := isConsistent.notNull

/-- The entry of `MACH_PORT_NULL` that `operator[]` may insert was not there to be erased. -/
theorem ConsistentBut.unlink (isConsistent : names.ConsistentBut port) :
    (names.unlink port).ConsistentBut machPortNull where
  inverse := by
    cases linked : names.remotePortsByLocal port with
    | none =>
        simp only [Names.unlink, linked, Option.getD_none]
        apply isConsistent.inverse.erase_absent _ linked
        by_contra known
        exact (isConsistent.remote machPortNull known).1 rfl
    | some remote =>
        simp only [Names.unlink, linked, Option.getD_some]
        exact isConsistent.inverse.erase linked
  typed other _ linked := by
    by_cases same : other = port
    · subst same
      simp [Names.unlink] at linked
    · simp only [Names.unlink, Function.update_of_ne same] at linked ⊢
      exact isConsistent.typed other same linked
  inverseOnce := isConsistent.inverseOnce
  remote other known := by
    by_cases same : other = (names.remotePortsByLocal port).getD machPortNull
    · subst same
      simp [Names.unlink] at known
    · simp only [Names.unlink, Function.update_of_ne same] at known
      exact isConsistent.remote other known
  remoteOnce := isConsistent.remoteOnce
  notNull := by
    by_cases same : machPortNull = port
    · subst same
      simp [Names.unlink]
    · simp only [Names.unlink, Function.update_of_ne same]
      exact isConsistent.notNull

theorem ConsistentBut.unlinkIfLinked (isConsistent : names.ConsistentBut port) :
    (names.unlinkIfLinked port).ConsistentBut machPortNull := by
  rw [Names.unlinkIfLinked]
  split_ifs with linked
  · exact isConsistent.unlink
  · have unlinked : names.remotePortsByLocal port = none := by simpa using linked
    refine ⟨isConsistent.inverse, fun other _ otherLinked => ?_, isConsistent.inverseOnce,
      isConsistent.remote, isConsistent.remoteOnce, isConsistent.notNull⟩
    apply isConsistent.typed other _ otherLinked
    rintro rfl
    exact otherLinked unlinked

/-- The transmission of one port keeps the maps consistent. -/
theorem ConsistentBut.transmits (isConsistent : names.ConsistentBut dying)
    (transmitted : names.Transmits type port word next) : next.ConsistentBut dying := by
  cases transmitted with
  | nothing => exact isConsistent
  | proxySend => exact isConsistent
  | ownSend => exact isConsistent.setType ..
  | proxyReceive => exact isConsistent.setType ..
  | ownReceive => exact isConsistent.setType ..

/-- The names that the kernel hands out are not in the maps, and it hands out none twice. -/
def Supplied (names : Names) (fresh : List Port) : Prop :=
  fresh.Nodup ∧ ∀ port ∈ fresh, port ≠ machPortNull ∧ names.Unmapped port

/-- The names that are left are still not mapped when the first is. -/
theorem Supplied.link (supplied : names.Supplied (port :: rest)) (remote : Port)
    (type : LocalType) : (names.link remote port type).Supplied rest := by
  rcases supplied with ⟨distinct, unused⟩
  rcases List.nodup_cons.mp distinct with ⟨notMem, restDistinct⟩
  refine ⟨restDistinct, fun other otherMem => ?_⟩
  have different : other ≠ port := fun same => notMem (same ▸ otherMem)
  rcases unused other (List.mem_cons_of_mem _ otherMem) with ⟨notNull, unlinked, unlinkedOnce⟩
  refine ⟨notNull, ?_, unlinkedOnce⟩
  simp only [Names.link, Function.update_of_ne different]
  exact unlinked

theorem Supplied.linkOnce {sendoncePort : Port}
    (supplied : names.Supplied (port :: sendoncePort :: rest)) (remote : Port) :
    (names.linkOnce remote port).Supplied rest := by
  rcases supplied with ⟨distinct, unused⟩
  rcases List.nodup_cons.mp distinct with ⟨notMem, restDistinct⟩
  refine ⟨(List.nodup_cons.mp restDistinct).2, fun other otherMem => ?_⟩
  have inTail : other ∈ sendoncePort :: rest := List.mem_cons_of_mem _ otherMem
  have different : other ≠ port := fun same => notMem (same ▸ inTail)
  rcases unused other (List.mem_cons_of_mem _ inTail) with ⟨notNull, unlinked, unlinkedOnce⟩
  refine ⟨notNull, unlinked, ?_⟩
  simp only [Names.linkOnce, Function.update_of_ne different]
  exact unlinkedOnce

/-- The translation of one port does, if the kernel hands out names that are not mapped. -/
theorem ConsistentBut.translates {nextFresh : List Port} (isConsistent : names.ConsistentBut dying)
    (supplied : names.Supplied fresh)
    (translated : names.Translates fresh type port word next nextFresh) :
    next.ConsistentBut dying ∧ next.Supplied nextFresh := by
  cases translated with
  | nothing => exact ⟨isConsistent, supplied⟩
  | returnedSend => exact ⟨isConsistent.touchType _, supplied⟩
  | returnedReceive => exact ⟨isConsistent.setType .., supplied⟩
  | returnedName => exact ⟨isConsistent, supplied⟩
  | knownReceive => exact ⟨isConsistent.setType .., supplied⟩
  | newReceive something unflagged unknown supply =>
      subst supply
      rcases supplied.2 word List.mem_cons_self with ⟨notNull, unmapped⟩
      exact ⟨isConsistent.link notNull unmapped unflagged (fun isNull => something (.inl isNull))
        unknown, supplied.link port .send⟩
  | knownSend => exact ⟨isConsistent, supplied⟩
  | newSend something unflagged isSend unknown supply =>
      subst supply
      rcases supplied.2 word List.mem_cons_self with ⟨notNull, unmapped⟩
      exact ⟨isConsistent.link notNull unmapped unflagged (fun isNull => something (.inl isNull))
        unknown, supplied.link port .receive⟩
  | sendOnce something unflagged isOnce unknown supply =>
      subst supply
      rcases supplied.2 _ List.mem_cons_self with ⟨_, unmapped⟩
      exact ⟨isConsistent.linkOnce unmapped unflagged (fun isNull => something (.inl isNull))
        unknown, supplied.linkOnce port⟩
  | name => exact ⟨isConsistent, supplied⟩

theorem ConsistentBut.weaken (isConsistent : names.ConsistentBut machPortNull) (dying : Port) :
    names.ConsistentBut dying where
  inverse := isConsistent.inverse
  typed port _ := isConsistent.consistent.typed port
  inverseOnce := isConsistent.inverseOnce
  remote := isConsistent.remote
  remoteOnce := isConsistent.remoteOnce
  notNull := isConsistent.notNull

theorem Supplied.forget (supplied : names.Supplied fresh) (port : Port) :
    ((names.eraseType port).unlinkIfLinked port).Supplied fresh := by
  refine ⟨supplied.1, fun other otherMem => ?_⟩
  rcases supplied.2 other otherMem with ⟨notNull, unlinked, unlinkedOnce⟩
  have unlinkedStill : (names.eraseType port).remotePortsByLocal other = none := unlinked
  rw [Names.unlinkIfLinked]
  split_ifs
  · refine ⟨notNull, ?_, unlinkedOnce⟩
    by_cases same : other = port
    · subst same
      simp [Names.unlink]
    · simp only [Names.unlink, Function.update_of_ne same]
      exact unlinkedStill
  · exact ⟨notNull, unlinked, unlinkedOnce⟩

theorem keptByIpc_consistent : Session.KeptByIpc ConsistentBut where
  weaken dying isConsistent := isConsistent.weaken dying
  eraseType port isConsistent := isConsistent.eraseType port
  unlink isConsistent := isConsistent.unlink
  unlinkIfLinked isConsistent := isConsistent.unlinkIfLinked
  unlinkOnce isConsistent linked := isConsistent.unlinkOnce linked
  transmits isConsistent transmitted := isConsistent.transmits transmitted

theorem keptByTcp_consistent : Session.KeptByTcp fun names fresh =>
    names.ConsistentBut machPortNull ∧ names.Supplied fresh where
  translates holds translated := holds.1.translates holds.2 translated
  forget port holds := ⟨(holds.1.eraseType port).unlinkIfLinked, holds.2.forget port⟩

end Names

namespace Session

variable {session next : Session} {message : Message}

/-- The session of a translator, which only has a control port. -/
def client (control notificationPort : Port) (task : Task) : Session :=
  { control := control, firstPort := machPortNull, notificationPort := notificationPort,
    task := task }

/-- The session of a server, which only has a first port. -/
def server (firstPort notificationPort : Port) (task : Task) : Session :=
  { control := machPortNull, firstPort := firstPort, notificationPort := notificationPort,
    names := ({} : Names).setType firstPort .send, task := task }

/-- A session that has just been made. -/
inductive Created : Session → Prop
  | client (control notificationPort : Port) (task : Task) :
      Created (client control notificationPort task)
  | server (firstPort notificationPort : Port) (task : Task) :
      Created (server firstPort notificationPort task)

/-- A message is handled, whatever the task holds by then. -/
inductive Call
  | ipc (task : Task) (message : Message)
  | tcp (task : Task) (message : Message)

def Call.task : Call → Task
  | .ipc task _ => task
  | .tcp task _ => task

def call (session : Session) : Call → Option Session
  | .ipc task message => (({ session with task := task }).ipcBufferHandler message).map Prod.snd
  | .tcp task message => (({ session with task := task }).tcpBufferHandler message).map Prod.snd

/-- The kernel hands out no name that the maps still contain, and none twice. -/
def HandsOutNewNames (session : Session) (task : Task) : Prop :=
  task.fresh.Nodup ∧ ∀ port ∈ task.fresh, port ≠ machPortNull ∧ ¬session.names.Contains port

theorem HandsOutNewNames.supplied {task : Task} (newNames : session.HandsOutNewNames task) :
    session.names.Supplied task.fresh := by
  refine ⟨newNames.1, fun port portMem => ?_⟩
  rcases newNames.2 port portMem with ⟨notNull, notContained⟩
  refine ⟨notNull, ?_, ?_⟩
  · by_contra linked
    exact notContained (.inl linked)
  · by_contra linked
    exact notContained (.inr (.inr linked))

/-- A session starts with consistent maps. -/
theorem Created.consistent (created : Created session) :
    session.names.ConsistentBut machPortNull := by
  have emptyConsistent : ({} : Names).ConsistentBut machPortNull :=
    ⟨.empty, fun _ _ linked => (linked rfl).elim, .empty, fun _ known => (known rfl).elim,
      fun _ known => (known rfl).elim, rfl⟩
  cases created with
  | client => exact emptyConsistent
  | server => exact emptyConsistent.setType ..

/-- In every state of a run of the two handlers the maps are consistent. -/
theorem consistent_of_reachable {start session : Session} (created : Created start)
    (reached : Transition.Reachable call (fun session call => session.HandsOutNewNames call.task)
      start session) : session.names.Consistent := by
  have invariant : session.names.ConsistentBut machPortNull := by
    refine reached.invariant (fun session => session.names.ConsistentBut machPortNull)
      created.consistent ?_
    intro before after call holds newNames called
    cases call with
    | ipc task message =>
        rcases Option.map_eq_some_iff.mp called with ⟨⟨sent, _⟩, handled, rfl⟩
        have startsConsistent : ({ before with task := task } : Session).names.ConsistentBut
            machPortNull := holds
        exact Names.keptByIpc_consistent.ipcBufferHandler startsConsistent handled
    | tcp task message =>
        rcases Option.map_eq_some_iff.mp called with ⟨⟨sent, _⟩, handled, rfl⟩
        have startsConsistent : ({ before with task := task } : Session).names.ConsistentBut
            machPortNull := holds
        rcases Names.keptByTcp_consistent.tcpBufferHandler ⟨startsConsistent, newNames.supplied⟩
          handled with ⟨_, isConsistent, -⟩
        exact isConsistent
  exact invariant.consistent

/-- A message with a send right and a send-once right arrives, and one comes back. -/
def proxiedRun : List Call :=
  let task : Task := { holds := fun _ => {}, fresh := [100, 101, 102] }
  [.tcp task { localPort := 7, body := [⟨.moveSend, [5]⟩, ⟨.moveSendOnce, [6]⟩] },
    .ipc { task with fresh := [] } { localPort := 100 },
    .ipc { task with fresh := [] } { localPort := 101 }]

theorem consistent_after_proxied :
    ∃ session, Transition.run call proxiedRun (client 1 2 ⟨fun _ => {}, []⟩) = some session ∧
      session.names.localPortsByRemote 5 = some 100 ∧ session.names.Consistent := by
  refine ⟨_, rfl, by decide, consistent_of_reachable (.client 1 2 ⟨fun _ => {}, []⟩)
    (Transition.Reachable.start.of_run proxiedRun ⟨⟨by decide, ?_⟩, ?_⟩ rfl)⟩
  · intro port portMem
    refine ⟨?_, ?_⟩
    · rintro rfl
      revert portMem
      decide
    · rintro (linked | typed | linked)
      · exact linked rfl
      · exact typed rfl
      · exact linked rfl
  · rintro _ ⟨⟩
    refine ⟨⟨List.nodup_nil, nofun⟩, ?_⟩
    rintro _ ⟨⟩
    exact ⟨⟨List.nodup_nil, nofun⟩, fun _ _ => trivial⟩

end Session

end Hurd.Netmsg
