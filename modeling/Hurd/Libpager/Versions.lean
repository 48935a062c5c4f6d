import Hurd.Libpager.Grants

/-!
# No version goes backwards

In a run whose dirty returns hand the page off once, and whose unlocks never wait, every
version of a page that a kernel has, or that is on its way in either direction, is at least
as new as the store, and the store is at least as new as every version brought back.  So what
`m_o_data_supply` and `pager_write_page` carry is never older than what a dirty `data_return`
has brought back.
-/

namespace Hurd.Libpager

namespace Link

/-- The kernel has this version of the page, is being sent it or has given it back. -/
def Has (link : Link) (version : ℕ) : Prop :=
  (∃ copy ∈ link.page.copy, copy.version = version) ∨
    (∃ write precious, .supply version write precious ∈ link.down) ∨
    ∃ dirty, .giveBack version dirty ∈ link.up

variable {page next : Page} {client : MachPort} {link : Link} {debt version : ℕ}

theorem Has.listed (has : link.Has version) (sound : link.Sound page client debt) :
    client ∈ page.entry.accesslist := by
  rcases has with ⟨copy, holds, -⟩ | ⟨write, precious, supplied⟩ | ⟨dirty, given⟩
  · apply sound.listed
    left
    rw [show link.page.copy = some copy from holds]
    nofun
  · apply sound.listed
    right
    intro noSupply
    cases noSupply _ (List.mem_append_left _ supplied)
  · exact (sound.given version dirty given).1

/-- A kernel makes no version but the one it writes. -/
theorem Has.of_act {act : KernelAct} {fresh : ℕ} {kernelPage : KernelPage}
    {reports : List Report} (acted : link.page.act fresh act = some (kernelPage, reports))
    (has : ({ link with page := kernelPage, up := link.up ++ reports } : Link).Has version) :
    link.Has version ∨ act = .modify ∧ version = fresh := by
  cases KernelPage.act_cases acted with
  | request write noCopy =>
      rcases has with copies | supplied | ⟨dirty, given⟩
      · exact Or.inl (Or.inl copies)
      · exact Or.inl (Or.inr (Or.inl supplied))
      · exact Or.inl (Or.inr (Or.inr ⟨dirty, by simpa using given⟩))
  | unlock copy holds =>
      rcases has with copies | supplied | ⟨dirty, given⟩
      · exact Or.inl (Or.inl copies)
      · exact Or.inl (Or.inr (Or.inl supplied))
      · exact Or.inl (Or.inr (Or.inr ⟨dirty, by simpa using given⟩))
  | modify copy holds canWrite =>
      rcases has with ⟨_, held, isVersion⟩ | supplied | ⟨dirty, given⟩
      · simp only [Option.mem_def, Option.some_inj] at held
        subst held
        exact Or.inr ⟨rfl, isVersion.symm⟩
      · exact Or.inl (Or.inr (Or.inl supplied))
      · exact Or.inl (Or.inr (Or.inr ⟨dirty, by simpa using given⟩))
  | evict copy holds =>
      rcases has with ⟨_, held, -⟩ | supplied | ⟨dirty, given⟩
      · cases held
      · exact Or.inl (Or.inr (Or.inl supplied))
      · rcases List.mem_append.mp given with before | now
        · exact Or.inl (Or.inr (Or.inr ⟨dirty, before⟩))
        · rcases KernelPage.mem_giveBack now with ⟨was, held, same⟩
          simp only [Report.giveBack.injEq] at same
          exact Or.inl (Or.inl ⟨was, held, same.1.symm⟩)

theorem Has.of_receive {message : Message} {rest : List Message}
    (first : link.down = message :: rest)
    (has : ({ link with down := rest, page := (link.page.receive message).1,
                        up := link.up ++ (link.page.receive message).2 } : Link).Has version) :
    link.Has version := by
  have later : ∀ {other}, other ∈ rest → other ∈ link.down := by
    intro other otherMem
    rw [first]
    exact List.mem_cons_of_mem _ otherMem
  rcases has with ⟨copy, held, isVersion⟩ | ⟨write, precious, supplied⟩ | ⟨dirty, given⟩
  · cases message with
    | supply data write precious =>
        cases had : link.page.copy with
        | some was =>
            simp only [KernelPage.receive, had, Option.getD_some, Option.mem_def,
              Option.some_inj] at held
            subst held
            exact Or.inl ⟨was, had, isVersion⟩
        | none =>
            simp only [KernelPage.receive, had, Option.getD_none, Option.mem_def,
              Option.some_inj] at held
            subst held
            refine Or.inr (Or.inl ⟨write, precious, ?_⟩)
            rw [first, ← isVersion]
            exact List.mem_cons_self
    | error => exact Or.inl ⟨copy, held, isVersion⟩
    | flush => cases held
    | grant =>
        simp only [KernelPage.receive, Option.mem_def, Option.map_eq_some_iff] at held
        rcases held with ⟨was, had, rfl⟩
        exact Or.inl ⟨was, had, isVersion⟩
  · exact Or.inr (Or.inl ⟨write, precious, later supplied⟩)
  · rcases List.mem_append.mp given with before | now
    · exact Or.inr (Or.inr ⟨dirty, before⟩)
    · cases message with
      | flush =>
          simp only [KernelPage.receive, List.mem_append, List.mem_singleton] at now
          rcases now with back | completed
          · rcases KernelPage.mem_giveBack back with ⟨was, held, same⟩
            simp only [Report.giveBack.injEq] at same
            exact Or.inl ⟨was, held, same.1.symm⟩
          · cases completed
      | _ => cases now

/-- A kernel writes only copies that it may write. -/
def WritesDirty (page : KernelPage) : Prop :=
  ∀ copy ∈ page.copy, copy.dirty = true → copy.write = true

theorem WritesDirty.act {act : KernelAct} {fresh : ℕ} {kernelPage : KernelPage}
    {reports : List Report} (dirty : WritesDirty link.page)
    (acted : link.page.act fresh act = some (kernelPage, reports)) : WritesDirty kernelPage := by
  cases KernelPage.act_cases acted with
  | request => exact dirty
  | unlock => exact dirty
  | modify copy holds canWrite =>
      intro _ held _
      simp only [Option.mem_def, Option.some_inj] at held
      subst held
      exact canWrite
  | evict => exact nofun

theorem WritesDirty.receive (dirty : WritesDirty link.page) (message : Message) :
    WritesDirty (link.page.receive message).1 := by
  intro copy held isDirty
  cases message with
  | supply data write precious =>
      cases had : link.page.copy with
      | some was =>
          simp only [KernelPage.receive, had, Option.getD_some, Option.mem_def,
            Option.some_inj] at held
          subst held
          exact dirty was had isDirty
      | none =>
          simp only [KernelPage.receive, had, Option.getD_none, Option.mem_def,
            Option.some_inj] at held
          subst held
          cases isDirty
  | error => exact dirty copy held isDirty
  | flush => cases held
  | grant =>
      simp only [KernelPage.receive, Option.mem_def, Option.map_eq_some_iff] at held
      rcases held with ⟨was, had, rfl⟩
      rfl

end Link

def Gift.written? : Gift → Option ℕ
  | .supply .. => none
  | .grant _ => none
  | .write data => some data

theorem written?_eq_gifts (page : Page) :
    written? page.sent = page.gifts.findSome? Gift.written? := by
  rw [Page.gifts]
  induction page.sent with
  | nil => rfl
  | cons event rest ih =>
      cases event with
      | lockRequest client shouldReturn shouldFlush =>
          cases shouldFlush <;> exact ih
      | writePage => rfl
      | _ => exact ih

theorem Link.Gone.not_has {link : Link} (gone : link.Gone) (version : ℕ) : ¬link.Has version := by
  rintro (⟨copy, holds, -⟩ | ⟨write, precious, supplied⟩ | ⟨dirty, given⟩)
  · rw [gone.copy] at holds
    cases holds
  · rw [gone.down] at supplied
    cases supplied
  · rw [gone.up] at given
    cases given

theorem Link.Gone.not_writes {link : Link} (gone : link.Gone) : ¬link.Writes := by
  rintro (⟨copy, holds, -⟩ | ⟨data, precious, supplied⟩ | ⟨version, given⟩)
  · rw [gone.copy] at holds
    cases holds
  · rw [gone.down] at supplied
    cases supplied
  · rw [gone.up] at given
    cases given

/-- The store once a report has been handled. -/
def Report.stored (store : ℕ) : Report → ℕ
  | .giveBack version true => version
  | _ => store

theorem Report.stored_of_clean {report : Report} {store : ℕ}
    (clean : ¬∃ version, report = .giveBack version true) : report.stored store = store := by
  unfold Report.stored
  split
  · exact absurd ⟨_, rfl⟩ clean
  · rfl

theorem Report.stored_le_source {report : Report} {store : ℕ} {results : PageCallbacks}
    (newer : store ≤ report.source results) : report.stored store ≤ report.source results := by
  cases report with
  | giveBack version dirty => cases dirty <;> first | exact newer | exact le_rfl
  | _ => exact newer

theorem Link.Has.of_fewer {link : Link} {reports : List Report} {version : ℕ}
    (has : ({ link with up := reports } : Link).Has version)
    (fewer : ∀ report ∈ reports, report ∈ link.up) : link.Has version := by
  rcases has with copies | supplied | ⟨dirty, given⟩
  · exact Or.inl copies
  · exact Or.inr (Or.inl supplied)
  · exact Or.inr (Or.inr ⟨dirty, fewer _ given⟩)

/-- The contents of a page that an event carries. -/
def PageEvent.contents? : PageEvent → Option ℕ
  | .dataSupply _ _ data _ _ _ => some data
  | .dataError .. => none
  | .lockRequest .. => none
  | .readPage => none
  | .unlockPage => none
  | .writePage data => some data
  | .notifyEvict => none

def Gift.contents? : Gift → Option ℕ
  | .supply _ data _ => some data
  | .grant _ => none
  | .write data => some data

theorem Report.writes_source {report : Report} {results : PageCallbacks} {gift : Gift}
    (given : gift ∈ report.writes) : gift = .write (report.source results) := by
  unfold Report.writes at given
  split at given
  · exact List.mem_singleton.mp given
  · cases given

/-- A handler that hands the page off once gives away one version of it. -/
theorem Page.Transfer.contents_eq {page after : Page} {data : ℕ} {written : List Gift}
    (transfer : page.Transfer data written False after) (nothingSent : page.sent = [])
    (wrote : ∀ gift ∈ written, gift = .write data) {event : PageEvent}
    (sent : event ∈ after.sent) {carried : ℕ} (carries : carried ∈ event.contents?) :
    carried = data := by
  have given : ∃ gift ∈ after.gifts, carried ∈ gift.contents? := by
    cases event with
    | dataSupply => exact ⟨_, List.mem_filterMap.mpr ⟨_, sent, rfl⟩, carries⟩
    | writePage => exact ⟨_, List.mem_filterMap.mpr ⟨_, sent, rfl⟩, carries⟩
    | _ => cases carries
  rcases given with ⟨gift, given, giftCarries⟩
  have isWritten : gift ∈ written → carried = data := by
    intro inWritten
    rw [wrote gift inWritten] at giftCarries
    exact (Option.some_inj.mp giftCarries).symm
  cases transfer with
  | keeps gifts => exact isWritten (Link.mem_gifts nothingSent gifts given)
  | clears gifts => exact isWritten (Link.mem_gifts nothingSent gifts given)
  | serves batch mode gifts =>
      rw [List.append_assoc] at gifts
      rcases List.mem_append.mp (Link.mem_gifts nothingSent gifts given) with toBatch | inWritten
      · rcases List.mem_map.mp toBatch with ⟨_, -, rfl⟩
        exact (Option.some_inj.mp giftCarries).symm
      · exact isWritten inWritten
  | grants client gifts =>
      rw [List.append_assoc] at gifts
      rcases List.mem_append.mp (Link.mem_gifts nothingSent gifts given) with isGrant | inWritten
      · rw [List.mem_singleton.mp isGrant] at giftCarries
        cases giftCarries
      · exact isWritten inWritten
  | twice again => cases again

namespace Spot

variable {spot next : Spot}

/-- The conditions under which no version goes backwards. -/
def HandsOffOnce (page : Page) (input : PageInput) (results : PageCallbacks) : Prop :=
  results.write = kernSuccess ∧
    match input with
    | .dataUnlock .. => ¬page.QueuesUnlock
    | .dataReturn client _ dirty _ _ => dirty = true → ¬page.HandsOffTwice client
    | .dataReturnUnmatched client _ _ => ¬page.HandsOffTwice client
    | _ => True

/-- Every version in the system is at least as new as all that have been brought back. -/
structure Current (spot : Spot) : Prop where
  sound : spot.Sound
  exclusive : spot.page.Exclusive
  valid : spot.page.entry.invalid = false
  dirty : ∀ client, Link.WritesDirty (spot.links client).page
  writes : ∀ client, (spot.links client).Writes → spot.page.entry.writeAccessGranted = true
  versions : ∀ client version, (spot.links client).Has version →
    spot.store ≤ version ∧ version ≤ spot.newest
  returned : spot.returned ≤ spot.store
  stored : spot.store ≤ spot.newest

theorem not_servesSecondWriter {page : Page} {client : MachPort}
    (once : ¬page.HandsOffTwice client) : ¬page.ServesSecondWriter client := by
  rintro ⟨_, first, waits, _⟩
  apply once
  intro noneWaiting
  rw [noneWaiting] at waits
  cases waits

theorem HandsOffOnce.balances {page : Page} {input : PageInput} {results : PageCallbacks}
    (once : HandsOffOnce page input results) (valid : page.entry.invalid = false) :
    Balances page input results := by
  intro unbalances
  cases input with
  | dataRequest client write =>
      rcases unbalances with ⟨-, -, -, invalid, -⟩
      rw [valid] at invalid
      cases invalid
  | dataUnlock => exact once.2 unbalances
  | _ => exact unbalances

theorem HandsOffOnce.safely {page : Page} {input : PageInput} {results : PageCallbacks}
    (once : HandsOffOnce page input results) : HandsOffSafely page input := by
  cases input with
  | dataUnlock => exact once.2
  | dataReturn => exact fun dirty => not_servesSecondWriter (once.2 dirty)
  | dataReturnUnmatched => exact not_servesSecondWriter once.2
  | _ => trivial

/-- A handler keeps writers to pages that are granted for writing. -/
theorem Current.writes_after (current : spot.Current) (nothingSent : spot.page.sent = [])
    {after : Page} {data : ℕ} {written : List Gift}
    (transfer : spot.page.Transfer data written False after)
    (wrote : ∀ gift ∈ written, ∃ data, gift = .write data) {links : MachPort → Link}
    (follows : spot.Follows after links)
    (fits : ∀ other, (links other).Fits { after with sent := [] } other) (other : MachPort)
    (writes : (links other).Writes) : after.entry.writeAccessGranted = true := by
  rcases follows other with gone | ⟨known, rest, linkEq, fewer⟩
  · exact absurd writes gone.not_writes
  · have sound := (fits other).sound known
    rw [linkEq] at writes sound
    exact Link.Writes.granted transfer wrote nothingSent sound fewer (current.writes other) writes

/-- The versions about after a handler: those before it, and the one it supplies. -/
theorem has_after (nothingSent : spot.page.sent = []) {after : Page} {data : ℕ}
    {written : List Gift} (transfer : spot.page.Transfer data written False after)
    (wrote : ∀ gift ∈ written, ∃ data, gift = .write data) {links : MachPort → Link}
    (follows : spot.Follows after links) {other : MachPort} {version : ℕ}
    (has : (links other).Has version) :
    version = data ∨ (spot.links other).dropped = false ∧
      ({ spot.links other with up := (links other).up } : Link).Has version ∧
        ∀ report ∈ (links other).up, report ∈ (spot.links other).up := by
  rcases follows other with gone | ⟨known, rest, linkEq, fewer⟩
  · exact absurd has (gone.not_has version)
  rw [linkEq] at has known ⊢
  rcases has with copies | ⟨write, precious, supplied⟩ | given
  · exact Or.inr ⟨known, Or.inl copies, fewer⟩
  · rcases List.mem_append.mp supplied with before | told
    · exact Or.inr ⟨known, Or.inr (Or.inl ⟨write, precious, before⟩), fewer⟩
    · left
      have given := Page.gift_of_supply told
      cases transfer with
      | keeps gifts =>
          rcases wrote _ (Link.mem_gifts nothingSent gifts given) with ⟨_, isWrite⟩
          cases isWrite
      | clears gifts =>
          rcases wrote _ (Link.mem_gifts nothingSent gifts given) with ⟨_, isWrite⟩
          cases isWrite
      | serves batch mode gifts =>
          rw [List.append_assoc] at gifts
          rcases List.mem_append.mp (Link.mem_gifts nothingSent gifts given) with toBatch | wrote'
          · simp only [List.mem_map, Gift.supply.injEq] at toBatch
            rcases toBatch with ⟨_, -, -, sameData, -⟩
            exact sameData.symm
          · rcases wrote _ wrote' with ⟨_, isWrite⟩
            cases isWrite
      | grants client gifts =>
          rw [List.append_assoc] at gifts
          rcases List.mem_append.mp (Link.mem_gifts nothingSent gifts given) with isGrant | wrote'
          · simp at isGrant
          · rcases wrote _ wrote' with ⟨_, isWrite⟩
            cases isWrite
      | twice again => cases again
  · exact Or.inr ⟨known, Or.inr (Or.inr given), fewer⟩

/-- A handler that hands the page off once writes what the report says. -/
theorem written?_after (nothingSent : spot.page.sent = []) {after : Page} {data : ℕ}
    {written : List Gift} (transfer : spot.page.Transfer data written False after) :
    written? after.sent = written.findSome? Gift.written? := by
  have before : spot.page.gifts = [] := by
    rw [Page.gifts, nothingSent]
    rfl
  rw [written?_eq_gifts]
  cases transfer with
  | keeps gifts => rw [gifts, before, List.nil_append]
  | clears gifts => rw [gifts, before, List.nil_append]
  | serves batch mode gifts =>
      rw [gifts, before, List.nil_append, List.findSome?_append]
      have noWrite : (batch.map fun client => Gift.supply client data mode).findSome?
          Gift.written? = none := by
        simp [Gift.written?]
      rw [noWrite]
      rfl
  | grants client gifts =>
      rw [gifts, before]
      rfl
  | twice again => cases again

theorem restore_after (nothingSent : spot.page.sent = []) {report : Report} {after : Page}
    {data : ℕ} {results : PageCallbacks} (succeeded : results.write = kernSuccess)
    (transfer : spot.page.Transfer data report.writes False after) :
    restore spot.store results (written? after.sent) = report.stored spot.store := by
  rw [written?_after nothingSent transfer]
  cases report with
  | giveBack version dirty =>
      cases dirty with
      | false => rfl
      | true => simp [Report.writes, Report.stored, Gift.written?, restore, succeeded]
  | _ => rfl

/-- While a dirty page comes back nobody else has a version of it. -/
theorem Current.only_dirty (current : spot.Current) {client other : MachPort} {returned version : ℕ}
    (given : .giveBack returned true ∈ (spot.links client).up)
    (known : (spot.links other).dropped = false) (has : (spot.links other).Has version) :
    other = client := by
  have granted := current.writes client (Or.inr (Or.inr ⟨returned, given⟩))
  have reported : (spot.links client).up ≠ [] := by
    intro nothing
    rw [nothing] at given
    cases given
  have clientSound := (current.sound.fits client).sound
    ((current.sound.fits client).not_dropped reported)
  have otherSound := (current.sound.fits other).sound known
  exact OrdSet.size_le_one_iff.mp (current.exclusive.granted granted) other
    (has.listed otherSound) client (clientSound.given returned true given).1

/-- A kernel that has given a page back has no other version of it. -/
theorem Current.nothing_behind (current : spot.Current) {client : MachPort} {returned : ℕ}
    {dirty : Bool} {rest : List Report}
    (first : (spot.links client).up = .giveBack returned dirty :: rest) (version : ℕ) :
    ¬({ spot.links client with up := rest } : Link).Has version := by
  have sound := (current.sound.fits client).sound
    ((current.sound.fits client).not_dropped (by rw [first]; nofun))
  have bare := sound.bare_of_giveBack first
  rintro (⟨copy, holds, -⟩ | ⟨write, precious, supplied⟩ | ⟨dirty, given⟩)
  · rw [bare.noCopy] at holds
    cases holds
  · cases bare.noSupply _ (List.mem_append_left _ supplied)
  · exact bare.settled.not_giveBack version dirty given

/-- What a handler supplies is no newer than the newest version. -/
theorem Current.source_le (current : spot.Current) {client : MachPort} {report : Report}
    {results : PageCallbacks} (reads : results.read.buffer = spot.store)
    (reported : report ∈ (spot.links client).up) :
    spot.store ≤ report.source results ∧ report.source results ≤ spot.newest := by
  cases report with
  | giveBack version dirty =>
      exact current.versions client version (Or.inr (Or.inr ⟨dirty, reported⟩))
  | _ =>
      simp only [Report.source, reads]
      exact ⟨le_rfl, current.stored⟩

theorem Current.handle {client : MachPort} {report : Report} {rest : List Report}
    {input : PageInput} {results : PageCallbacks} {after : Page} {links : MachPort → Link}
    (idle : spot.Idle) (current : spot.Current)
    (first : (spot.links client).up = report :: rest)
    (asks : report.Asks client input) (reads : results.read.buffer = spot.store)
    (once : HandsOffOnce spot.page input results)
    (handled : spot.page.handle input results = some after)
    (follows : spot.Follows after links) (popped : (links client).up = rest)
    (samePages : ∀ other, (links other).page = (spot.links other).page)
    (nextSound : Spot.Sound { page := { after with sent := [] }, links
                              store := restore spot.store results (written? after.sent)
                              newest := spot.newest
                              returned := bringBack spot.returned report }) :
    Spot.Current { page := { after with sent := [] }, links
                   store := restore spot.store results (written? after.sent)
                   newest := spot.newest
                   returned := bringBack spot.returned report } := by
  rcases current.sound.transfer idle current.exclusive asks once.safely handled with
    ⟨transfer, valid⟩
  have onlyOnce : spot.page.Transfer (report.source results) report.writes False after := by
    apply transfer.imp
    rintro ⟨version, rfl, twice⟩
    cases asks
    exact once.2 rfl twice
  have stored := restore_after idle.nothingSent once.1 onlyOnce
  have firstMem : report ∈ (spot.links client).up := by
    rw [first]
    exact List.mem_cons_self
  have exclusive : after.Exclusive := by
    apply Page.exclusive_handle current.exclusive ?_ handled
    rintro returner data any rfl
    exact not_servesSecondWriter (once.2 rfl)
  have fresh : ∀ other version, (links other).Has version →
      report.stored spot.store ≤ version ∧ version ≤ spot.newest := by
    intro other version has
    have bounds := current.versions other version
    rcases has_after idle.nothingSent onlyOnce Report.writes_isWrite follows has with
      rfl | ⟨known, old, fewer⟩
    · rcases current.source_le reads firstMem with ⟨newer, older⟩
      exact ⟨report.stored_le_source newer, older⟩
    · have wasHas : (spot.links other).Has version := old.of_fewer fewer
      refine ⟨?_, (bounds wasHas).2⟩
      by_cases isDirty : ∃ returned, report = .giveBack returned true
      · rcases isDirty with ⟨returned, rfl⟩
        have owner := current.only_dirty firstMem known wasHas
        subst owner
        rw [popped] at old
        exact absurd old (current.nothing_behind first version)
      · rw [report.stored_of_clean isDirty]
        exact (bounds wasHas).1
  refine ⟨nextSound, ⟨exclusive.granted, nofun⟩, valid once.1 current.valid, ?_, ?_, ?_, ?_, ?_⟩
  · intro other
    rw [samePages other]
    exact current.dirty other
  · exact current.writes_after idle.nothingSent onlyOnce Report.writes_isWrite follows
      nextSound.fits
  · rw [stored]
    exact fresh
  · rw [stored]
    have newer := (current.source_le reads firstMem).1
    have older := current.returned
    cases report with
    | giveBack version dirty =>
        cases dirty with
        | false => exact older
        | true => exact max_le (older.trans newer) le_rfl
    | _ => exact older
  · rw [stored]
    have older := (current.source_le reads firstMem).2
    cases report with
    | giveBack version dirty =>
        cases dirty with
        | false => exact current.stored
        | true => exact older
    | _ => exact current.stored

theorem Current.drop {client : MachPort} {results : PageCallbacks} {after : Page}
    {links : MachPort → Link} (idle : spot.Idle) (current : spot.Current)
    (reads : results.read.buffer = spot.store)
    (handled : spot.page.handle (.dropClient client) results = some after)
    (follows : spot.Follows after links)
    (samePages : ∀ other, (links other).page = (spot.links other).page)
    (nextSound : Spot.Sound { page := { after with sent := [] }, links
                              store := restore spot.store results (written? after.sent)
                              newest := spot.newest
                              returned := spot.returned }) :
    Spot.Current { page := { after with sent := [] }, links
                   store := restore spot.store results (written? after.sent)
                   newest := spot.newest
                   returned := spot.returned } := by
  have result : spot.page.Transfer results.read.buffer [] False after ∧ _ :=
    Page.transfer_dropClient current.sound.orderly idle.running current.exclusive handled
  rcases result with ⟨transfer, sameInvalid⟩
  have stored : restore spot.store results (written? after.sent) = spot.store := by
    rw [written?_after idle.nothingSent transfer]
    rfl
  have exclusive : after.Exclusive :=
    Page.exclusive_handle current.exclusive (fun _ _ _ same => by cases same) handled
  refine ⟨nextSound, ⟨exclusive.granted, nofun⟩, sameInvalid.trans current.valid, ?_, ?_, ?_, ?_, ?_⟩
  · intro other
    rw [samePages other]
    exact current.dirty other
  · exact current.writes_after idle.nothingSent transfer nofun follows nextSound.fits
  · rw [stored]
    intro other version has
    rcases has_after idle.nothingSent transfer nofun follows has with rfl | ⟨-, old, fewer⟩
    · rw [reads]
      exact ⟨le_rfl, current.stored⟩
    · exact current.versions other version (old.of_fewer fewer)
  · rw [stored]
    exact current.returned
  · rw [stored]
    exact current.stored

/-- A kernel changes its side of the page. -/
theorem Current.update (current : spot.Current) {client : MachPort} {link : Link} {newest : ℕ}
    (nextSound : Spot.Sound { spot with
      links := Function.update spot.links client link, newest })
    (dirty : Link.WritesDirty link.page) (writes : link.Writes → (spot.links client).Writes)
    (later : spot.newest ≤ newest)
    (versions : ∀ version, link.Has version →
      (spot.links client).Has version ∨ version = newest) :
    Spot.Current { spot with links := Function.update spot.links client link, newest } := by
  refine ⟨nextSound, current.exclusive, current.valid, ?_, ?_, ?_, current.returned,
    current.stored.trans later⟩
  · intro other
    by_cases same : other = client
    · subst same
      simp only [Function.update_self]
      exact dirty
    · simp only [Function.update_of_ne same]
      exact current.dirty other
  · intro other
    by_cases same : other = client
    · subst same
      simp only [Function.update_self]
      exact fun nowWrites => current.writes other (writes nowWrites)
    · simp only [Function.update_of_ne same]
      exact current.writes other
  · intro other version
    by_cases same : other = client
    · subst same
      simp only [Function.update_self]
      intro has
      rcases versions version has with had | rfl
      · exact (current.versions other version had).imp_right later.trans'
      · exact ⟨current.stored.trans later, le_rfl⟩
    · simp only [Function.update_of_ne same]
      exact fun has => (current.versions other version has).imp_right later.trans'

/-- Every step keeps the versions current. -/
theorem Current.step (idle : spot.Idle) (current : spot.Current)
    (stepped : Step HandsOffOnce spot next) : next.Current := by
  have nextSound := current.sound.step idle
    (stepped.imp fun input results once => once.balances current.valid)
  cases stepped with
  | still => exact current
  | act alive acted =>
      rename_i client act page reports
      apply current.update nextSound
      · exact (current.dirty client).act acted
      · exact fun writes => writes.of_act acted (current.dirty client)
      · split_ifs <;> omega
      · intro version has
        rcases has.of_act acted with had | ⟨rfl, rfl⟩
        · exact Or.inl had
        · exact Or.inr (if_pos rfl).symm
  | receive alive first =>
      rename_i client message rest
      have sound := (current.sound.fits client).sound
        ((current.sound.fits client).not_dropped_of_alive alive)
      apply current.update nextSound
      · exact (current.dirty client).receive message
      · exact fun writes => writes.of_receive sound first (current.dirty client)
      · exact le_rfl
      · exact fun version has => Or.inl (has.of_receive first)
  | die alive =>
      rename_i client
      apply current.update nextSound
      · exact nofun
      · rintro (⟨copy, holds, -⟩ | writes)
        · cases holds
        · exact Or.inr writes
      · exact le_rfl
      · rintro version (⟨copy, holds, -⟩ | has)
        · cases holds
        · exact Or.inl (Or.inr has)
  | handle first asks reads isAllowed handled =>
      rename_i client report rest input results after
      have known := (current.sound.fits client).not_dropped (by rw [first]; nofun)
      refine current.handle idle first asks reads isAllowed handled
        (current.sound.follows_handle first after) ?_ ?_ nextSound
      · rw [deliver_of_known _ (by rw [Function.update_self]; exact known), Function.update_self]
      · intro other
        unfold deliver
        by_cases same : other = client
        · subst same
          rw [Function.update_self]
          split_ifs <;> rfl
        · rw [Function.update_of_ne same]
          split_ifs <;> rfl
  | drop dead known nothing reads isAllowed handled =>
      rename_i client results after
      refine current.drop idle reads handled
        (current.sound.follows_drop dead nothing after) ?_ nextSound
      intro other
      unfold deliver
      by_cases same : other = client
      · subst same
        rw [Function.update_self]
        split_ifs <;> rfl
      · rw [Function.update_of_ne same]
        split_ifs <;> rfl

/-- What a handler gives away is as new as all that has been brought back. -/
theorem Current.fresh_handle {client : MachPort} {report : Report} {rest : List Report}
    {input : PageInput} {results : PageCallbacks} {after : Page} (idle : spot.Idle)
    (current : spot.Current) (first : (spot.links client).up = report :: rest)
    (asks : report.Asks client input) (reads : results.read.buffer = spot.store)
    (once : HandsOffOnce spot.page input results)
    (handled : spot.page.handle input results = some after) {event : PageEvent}
    (sent : event ∈ after.sent) {data : ℕ} (carries : data ∈ event.contents?) :
    bringBack spot.returned report ≤ data := by
  have firstMem : report ∈ (spot.links client).up := by
    rw [first]
    exact List.mem_cons_self
  rcases current.sound.transfer idle current.exclusive asks once.safely handled with
    ⟨transfer, -⟩
  have onlyOnce : spot.page.Transfer (report.source results) report.writes False after := by
    apply transfer.imp
    rintro ⟨version, rfl, twice⟩
    cases asks
    exact once.2 rfl twice
  have isSource := onlyOnce.contents_eq idle.nothingSent
    (fun gift given => report.writes_source given) sent carries
  rw [isSource]
  have newer := (current.source_le reads firstMem).1
  have older := current.returned
  cases report with
  | giveBack version dirty =>
      cases dirty with
      | false => exact older.trans newer
      | true => exact max_le (older.trans newer) le_rfl
  | _ => exact older.trans newer

theorem Current.fresh_drop {client : MachPort} {results : PageCallbacks} {after : Page}
    (idle : spot.Idle) (current : spot.Current) (reads : results.read.buffer = spot.store)
    (handled : spot.page.handle (.dropClient client) results = some after) {event : PageEvent}
    (sent : event ∈ after.sent) {data : ℕ} (carries : data ∈ event.contents?) :
    spot.returned ≤ data := by
  have result : spot.page.Transfer results.read.buffer [] False after ∧ _ :=
    Page.transfer_dropClient current.sound.orderly idle.running current.exclusive handled
  have isSource := result.1.contents_eq idle.nothingSent nofun sent carries
  rw [isSource, reads]
  exact current.returned

end Spot

namespace System

theorem create_current (pageSize : ℕ) (pageSize_pos : 0 < pageSize) (mayCache : Bool)
    (copyStrategy : ℕ) (notifyOnEvict : Bool) (number : ℕ) :
    ((create pageSize pageSize_pos mayCache copyStrategy notifyOnEvict).spot number).Current := by
  have gone : ∀ client, Link.Gone
      (((create pageSize pageSize_pos mayCache copyStrategy notifyOnEvict).spot number).links
        client) := fun _ => ⟨rfl, rfl, rfl⟩
  refine ⟨create_sound pageSize pageSize_pos mayCache copyStrategy notifyOnEvict number,
    ⟨nofun, nofun⟩, rfl, fun _ => nofun, ?_, ?_, le_rfl, le_rfl⟩
  · exact fun client writes => absurd writes (gone client).not_writes
  · exact fun client version has => absurd has ((gone client).not_has version)

/--
What the last handler has supplied of a page, or written of it to the store, is at least as
new as every version that a dirty return has brought back.
-/
def Fresh (system : System) : Prop :=
  ∀ number, ∀ event ∈ Pager.eventsOf number system.pager.sent, ∀ data ∈ event.contents?,
    system.returned number ≤ data

variable {system next : System}

theorem fresh_handle {client : MachPort} {results : Callbacks} (idle : system.Idle)
    (current : ∀ number, (system.spot number).Current)
    (allows : system.Allows Spot.HandsOffOnce (.handle client results))
    (taken : system.step (.handle client results) = some next) : next.Fresh := by
  rcases respond_cases taken with ⟨input, pager, incoming, handled, rfl⟩
  have isReport := incoming
  simp only [incoming?] at isReport
  cases queue : (system.kernels client).up with
  | nil =>
      rw [queue] at isReport
      cases isReport
  | cons entry rest =>
      rcases entry with ⟨changed, report⟩
      rw [queue] at isReport
      cases isReport
      rcases Pager.handle_report idle.quiet idle.running handled with
        ⟨⟨pageInput, asks, reaches, pageHandled⟩, frame⟩
      intro number event sent data carries
      by_cases same : number = changed
      · subst same
        have first : ((system.spot number).links client).up = report :: about number rest := by
          rw [← about_cons_self, ← queue]
          rfl
        have newer := (current number).fresh_handle (idle.spot number) first asks rfl
          (allows _ incoming number pageInput reaches) pageHandled sent carries
        refine le_of_eq_of_le ?_ newer
        simp only [deliver, take, queue]
        cases report with
        | giveBack version dirty =>
            cases dirty with
            | true => exact Function.update_self _ _ _
            | false => rfl
        | _ => rfl
      · have nothing : (pager.view number).sent = [] := by
          rw [frame number same]
          rfl
        have sentHere : event ∈ (pager.view number).sent := sent
        rw [nothing] at sentHere
        cases sentHere

theorem fresh_notice {client : MachPort} {results : Callbacks} (idle : system.Idle)
    (current : ∀ number, (system.spot number).Current)
    (taken : system.step (.notice client results) = some next) : next.Fresh := by
  rcases respond_cases taken with ⟨input, pager, incoming, handled, rfl⟩
  simp only [incoming?, Option.ite_none_right_eq_some, Option.some_inj] at incoming
  rcases incoming with ⟨-, rfl⟩
  have done : ({ system.pager with sent := [] } : Pager).dropClient client
      (system.callbacks results) = some pager := handled
  rcases Pager.dropClient_view (by exact idle.quiet.noInternalElsewhere) done with
    ⟨-, -, -, -, -, views⟩
  intro number event sent data carries
  exact (current number).fresh_drop (idle.spot number) rfl (views number) sent carries

theorem fresh_init {client : MachPort} (taken : system.step (.init client) = some next) :
    next.Fresh := by
  rcases respond_cases taken with ⟨input, pager, incoming, handled, rfl⟩
  cases incoming
  intro number event sent
  have nothing : (pager.view number).sent = [] := by
    simp only [Pager.handle, Pager.objectInit, ne_eq, not_true_eq_false, if_false] at handled
    split_ifs at handled
    · cases handled
      rfl
    · cases handled
      rfl
  have sentHere : event ∈ (pager.view number).sent := sent
  rw [nothing] at sentHere
  cases sentHere

/-- No client is given an older version than one handed back, and none is written. -/
theorem fresh_of_reachable {pageSize : ℕ} (pageSize_pos : 0 < pageSize) (mayCache : Bool)
    (copyStrategy : ℕ) (notifyOnEvict : Bool) {system : System}
    (reached : Transition.Reachable step (Allows Spot.HandsOffOnce)
      (create pageSize pageSize_pos mayCache copyStrategy notifyOnEvict) system) :
    system.Fresh := by
  have strong := reached.invariant (fun system => (system.Idle ∧
      ∀ number, (system.spot number).Current) ∧ system.Fresh)
    ⟨⟨⟨Pager.create_quiet _ _ _ _ _, rfl, fun _ => rfl⟩,
      create_current pageSize pageSize_pos mayCache copyStrategy notifyOnEvict⟩,
      fun _ _ sent => nomatch sent⟩ ?_
  · exact strong.2
  rintro state next action ⟨⟨idle, current⟩, fresh⟩ allows taken
  rcases spot_step idle allows taken with ⟨nextIdle, steps⟩
  refine ⟨⟨nextIdle, fun number => (current number).step (idle.spot number) (steps number)⟩, ?_⟩
  -- what a kernel does sends and brings back nothing
  cases action with
  | init client => exact fresh_init taken
  | handle client results => exact fresh_handle idle current allows taken
  | notice client results => exact fresh_notice idle current taken
  | act client number act =>
      simp only [step] at taken
      by_cases alive : (state.kernels client).alive = true
      · rw [if_pos alive] at taken
        rcases Option.map_eq_some_iff.mp taken with ⟨_, _, rfl⟩
        exact fresh
      · rw [if_neg alive] at taken
        cases taken
  | receive client =>
      simp only [step] at taken
      split at taken
      · cases taken
      · split_ifs at taken
        cases taken
        exact fresh
  | die client =>
      simp only [step] at taken
      split_ifs at taken
      cases taken
      exact fresh

/--
Three kernels ask for write access in turn.  The first gives the page back dirty, and the
pager hands it to the other two at once.  Both write it, and are flushed when a fourth kernel
asks for the page; the newer version is returned first and the older one is written over it.
-/
def staleRun : List Action :=
  [.act 1 0 (.request true), .handle 1 fun _ => {}, .receive 1,
    .act 2 0 (.request true), .handle 2 fun _ => {}, .act 3 0 (.request true),
    .handle 3 fun _ => {}, .act 1 0 .modify, .receive 1, .handle 1 fun _ => {}, .receive 2,
    .receive 3, .act 3 0 .modify, .act 2 0 .modify, .act 4 0 (.request true),
    .handle 4 fun _ => {}, .receive 2, .handle 2 fun _ => {}, .receive 3, .handle 3 fun _ => {}]

theorem staleRun_not_fresh :
    ∃ system, Transition.run step staleRun (create 1 (by decide) false 0 false) = some system ∧
      ¬system.Fresh := by
  refine ⟨_, rfl, fun fresh => ?_⟩
  have newer := fresh 0 (.writePage 2) (by decide) 2 rfl
  exact absurd newer (by decide)

/-- A kernel gets a page, writes to it and gives it back. -/
def returnedRun : List Action :=
  [.act 1 0 (.request true), .handle 1 fun _ => {}, .receive 1, .act 1 0 .modify,
    .act 1 0 .evict, .handle 1 fun _ => {}]

theorem fresh_after_return :
    ∃ system, Transition.run step returnedRun (create 1 (by decide) false 0 false) =
        some system ∧ system.Fresh := by
  refine ⟨_, rfl, fresh_of_reachable (show 0 < 1 by decide) false 0 false
    (Transition.Reachable.start.of_run returnedRun ?_ rfl)⟩
  refine ⟨nofun, ?_⟩
  rintro _ ⟨⟩
  refine ⟨?_, ?_⟩
  · rintro _ ⟨⟩ number pageInput reaches
    cases reaches
    exact ⟨rfl, trivial⟩
  rintro _ ⟨⟩
  refine ⟨nofun, ?_⟩
  rintro _ ⟨⟩
  refine ⟨nofun, ?_⟩
  rintro _ ⟨⟩
  refine ⟨nofun, ?_⟩
  rintro _ ⟨⟩
  refine ⟨?_, fun _ _ => trivial⟩
  rintro _ ⟨⟩ number pageInput reaches
  cases reaches with
  | dataReturn any _ pageMem =>
      have onlyPage : number ∈ [0] := pageMem
      have isFirst := List.mem_singleton.mp onlyPage
      subst isFirst
      exact ⟨rfl, fun _ twice => twice rfl⟩
  | dataReturnUnmatched _ pageMem notMatched =>
      have onlyPage : number ∈ [0] := pageMem
      have isFirst := List.mem_singleton.mp onlyPage
      subst isFirst
      exact absurd notMatched (by decide)

end System

end Hurd.Libpager
